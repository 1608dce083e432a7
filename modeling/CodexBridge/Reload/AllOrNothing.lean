import CodexBridge.Reload.Transaction

/-! A published transaction leaves the new signature in both records and the new graph current.
A transaction that fails keeps the old graph, and when its rollback is complete each record
that it has written carries the signature of the old graph again. -/

namespace CodexBridge.Reload

open Daemon (CcbdLease CcbdLifecycle Process Surroundings cleanText)

variable {σ : Type} {env : Surroundings} {faults : Faults} {app app' : App σ}
  {namespaceEpoch : Option ℕ} {generation : ℕ} {signature : String} {fault : Option String}
  {lease : Option CcbdLease} {lifecycle : CcbdLifecycle} {rollback : SignatureRollback}

def leaseSignature (lease : Option CcbdLease) : Option String := lease.bind (·.configSignature)

def lifecycleSignature (lifecycle : Option CcbdLifecycle) : Option String :=
  lifecycle.bind (·.configSignature)

theorem strip_of_signature {graph : ServiceGraph σ} (h : graph.signature = some signature) :
    strip signature = signature := by
  obtain ⟨text, -, htext⟩ := Option.bind_eq_some_iff.mp h
  rw [cleanText] at htext
  split_ifs at htext
  rw [← Option.some.inj htext, strip_strip]

/-! ### Writes -/

variable (signature generation) in
/-- The mount manager refuses, or saves a lease with the new signature. -/
theorem updateConfigSignature_cases (now : String) (pid : ℕ) (instanceId : String)
    (stored : Option CcbdLease) :
    (∃ message, Daemon.updateConfigSignature now signature pid instanceId generation stored =
      .raised message) ∨
    ∃ lease, Daemon.updateConfigSignature now signature pid instanceId generation stored =
      .saved lease ∧ lease.configSignature = some (strip signature) := by
  cases stored with
  | none => exact .inl ⟨_, rfl⟩
  | some loaded =>
    unfold Daemon.updateConfigSignature
    dsimp only
    by_cases hmounted : loaded.mountState ≠ .mounted
    · exact .inl ⟨_, if_pos hmounted⟩
    · rw [if_neg hmounted]
      cases Daemon.assertExpectedHolder loaded (some pid) (some instanceId) with
      | some message => exact .inl ⟨_, rfl⟩
      | none =>
        dsimp only
        split_ifs with hgeneration hempty
        · exact .inl ⟨_, rfl⟩
        · exact .inl ⟨_, rfl⟩
        · exact .inr ⟨_, rfl, rfl⟩

theorem App.updateLease_ok
    (h : app.updateLease env fault signature generation = .ok (app', lease)) :
    app' = { app with storedLease := lease } ∧ lease.isSome ∧
      leaseSignature lease = some (strip signature) := by
  rw [App.updateLease] at h
  obtain ⟨message, hout⟩ | ⟨saved, hout, hsaved⟩ := updateConfigSignature_cases generation
    signature env.now app.process.pid app.process.instanceId app.storedLease
  · rw [hout] at h
    contradiction
  · rw [hout] at h
    cases fault with
    | some message => contradiction
    | none =>
      obtain ⟨rfl, rfl⟩ := Prod.mk.inj (Except.ok.inj h)
      exact ⟨rfl, rfl, hsaved⟩

theorem App.updateLifecycle_ok
    (h : app.updateLifecycle env fault signature namespaceEpoch generation =
      .ok (app', lifecycle)) :
    app' = { app with storedLifecycle := some lifecycle } ∧
      lifecycle.configSignature = some (strip signature) := by
  rw [App.updateLifecycle] at h
  cases hloaded : mountedLifecycle app generation with
  | error message =>
    rw [hloaded] at h
    contradiction
  | ok loaded =>
    rw [hloaded] at h
    by_cases hempty : strip signature = ""
    · simp only [hempty, if_true] at h
      contradiction
    · cases fault with
      | some message =>
        simp only [hempty, if_false] at h
        contradiction
      | none =>
        simp only [hempty, if_false] at h
        obtain ⟨rfl, rfl⟩ := Prod.mk.inj (Except.ok.inj h)
        exact ⟨rfl, rfl⟩

theorem App.publishGraph_ok {new : ServiceGraph σ} (h : app.publishGraph fault new = .ok app') :
    app'.storedLease = app.storedLease ∧ app'.storedLifecycle = app.storedLifecycle ∧
      app'.lease = app.lease ∧ app'.graph = new := by
  cases fault with
  | some message => contradiction
  | none =>
    obtain rfl := Except.ok.inj h
    exact ⟨rfl, rfl, rfl, rfl⟩

/-! ### Rollback -/

/-- What a rollback leaves: it touches the two records only. -/
structure RolledBack (old : String) (rollbackLease rollbackLifecycle : Bool) (app app' : App σ)
    (rollback : SignatureRollback) : Prop where
  graph : app'.graph = app.graph
  held : app'.lease = app.lease
  lifecycle : if rollbackLifecycle then lifecycleSignature app'.storedLifecycle = some old
    else app'.storedLifecycle = app.storedLifecycle
  lease : if rollbackLease then leaseSignature app'.storedLease = some old ∧
      rollback.lease = app'.storedLease ∧ rollback.lease.isSome
    else app'.storedLease = app.storedLease

theorem rollbackLifecycleSignature_cases {old : String} {rollback' : SignatureRollback}
    (h : rollbackLifecycleSignature env fault old namespaceEpoch generation app rollback =
      (app', rollback')) :
    app'.graph = app.graph ∧ app'.lease = app.lease ∧ app'.storedLease = app.storedLease ∧
      (rollback'.complete = false ∨ rollback'.complete = rollback.complete ∧
        lifecycleSignature app'.storedLifecycle = some (strip old)) := by
  rw [rollbackLifecycleSignature] at h
  cases hupdate : app.updateLifecycle env fault old namespaceEpoch generation with
  | error message =>
    rw [hupdate] at h
    obtain ⟨rfl, rfl⟩ := Prod.mk.inj h
    exact ⟨rfl, rfl, rfl, .inl rfl⟩
  | ok p =>
    obtain ⟨hupdated, hsignature⟩ := App.updateLifecycle_ok hupdate
    rw [hupdate] at h
    obtain ⟨rfl, rfl⟩ := Prod.mk.inj h
    rw [hupdated]
    exact ⟨rfl, rfl, rfl, .inr ⟨rfl, hsignature⟩⟩

theorem rollbackLeaseSignature_cases {old : String} {rollback' : SignatureRollback}
    (h : rollbackLeaseSignature env fault old generation app rollback = (app', rollback')) :
    app'.graph = app.graph ∧ app'.lease = app.lease ∧
      app'.storedLifecycle = app.storedLifecycle ∧
      (rollback'.complete = false ∨ rollback'.complete = rollback.complete ∧
        rollback'.lease.isSome ∧ leaseSignature rollback'.lease = some (strip old) ∧
        leaseSignature app'.storedLease = some (strip old)) := by
  rw [rollbackLeaseSignature] at h
  cases hupdate : app.updateLease env fault old generation with
  | error message =>
    rw [hupdate] at h
    obtain ⟨rfl, rfl⟩ := Prod.mk.inj h
    exact ⟨rfl, rfl, rfl, .inl rfl⟩
  | ok p =>
    obtain ⟨hupdated, hsome, hsignature⟩ := App.updateLease_ok hupdate
    rw [hupdate] at h
    obtain ⟨rfl, rfl⟩ := Prod.mk.inj h
    rw [hupdated]
    exact ⟨rfl, rfl, rfl, .inr ⟨rfl, hsome, hsignature, hsignature⟩⟩

theorem rollbackSignatures_lease (old : String) (app : App σ) :
    rollbackSignatures env faults (some old) namespaceEpoch generation true false app =
      rollbackLeaseSignature env faults.rollbackLease old generation app
        ⟨true, true, none, none, []⟩ := rfl

theorem rollbackSignatures_both {old : String} {rollback' : SignatureRollback}
    (h : rollbackLifecycleSignature env faults.rollbackLifecycle old namespaceEpoch generation app
      ⟨true, true, none, none, []⟩ = (app', rollback')) :
    rollbackSignatures env faults (some old) namespaceEpoch generation true true app =
      rollbackLeaseSignature env faults.rollbackLease old generation app' rollback' := by
  simp only [rollbackSignatures, Bool.or_self, if_true, h]

/-! ### The transaction -/

theorem blockedResult_unpublished (reason message : String) (context : TransactionContext) :
    (blockedResult reason message context).status ≠ .published ∧
      (blockedResult reason message context).signatureRollback = none := by
  simp [blockedResult]

theorem failedResult_unpublished (reason error : String) (context : TransactionContext) :
    (failedResult reason error context).status ≠ .published ∧
      (failedResult reason error context).signatureRollback = none := by
  simp [failedResult]

theorem preflight_error {context : TransactionContext} {failure : ReloadPublishTransactionResult}
    (h : preflight app context = .error failure) :
    failure.status ≠ .published ∧ failure.signatureRollback = none := by
  unfold preflight at h
  split at h
  · cases h
    exact blockedResult_unpublished _ _ _
  · split at h
    · cases h
      exact failedResult_unpublished _ _ _
    · cases h
      exact failedResult_unpublished _ _ _
    · split at h
      · cases h
        exact failedResult_unpublished _ _ _
      · split at h
        · cases h
          exact failedResult_unpublished _ _ _
        · cases h
          exact failedResult_unpublished _ _ _
        · cases h

theorem preflight_ok {context : TransactionContext}
    (h : preflight app context = .ok (signature, generation)) :
    context.newConfigSignature = some signature ∧ ∃ old, context.oldConfigSignature = some old := by
  unfold preflight at h
  split at h
  · cases h
  · split at h
    · cases h
    · cases h
    · rename_i old new hold hnew
      split at h
      · cases h
      · split at h
        · cases h
        · cases h
        · cases h
          exact ⟨hnew, old, hold⟩

/-- What a transaction that fails leaves, where `old` is the signature of the old graph. -/
structure Undone (old : Option String) (app app' : App σ)
    (rollback : SignatureRollback) : Prop where
  graph : app'.graph = app.graph
  lease : rollback.complete = true →
    leaseSignature app'.storedLease = old ∨ app'.storedLease = app.storedLease
  held : rollback.complete = true → leaseSignature app'.lease = old ∨ app'.lease = app.lease
  lifecycle : rollback.complete = true →
    lifecycleSignature app'.storedLifecycle = old ∨ app'.storedLifecycle = app.storedLifecycle

variable (env faults signature namespaceEpoch generation) in
/-- The signature of the new graph is in both records, or the signatures are rolled back. -/
theorem writeSignatures_cases {context : TransactionContext} {old : String}
    (hold : context.oldConfigSignature = some old) (hstrip : strip old = old) (app : App σ) :
    (∃ app' error rollback,
      writeSignatures env faults context signature namespaceEpoch generation app =
        (app', .error (rolledBackResult "signature_handoff_failed" error context app' rollback)) ∧
      Undone (some old) app app' rollback) ∨
    ∃ lease lifecycle,
      writeSignatures env faults context signature namespaceEpoch generation app =
        ({ app with storedLease := lease, storedLifecycle := some lifecycle, lease := lease },
          .ok (lease, lifecycle)) ∧
      leaseSignature lease = some (strip signature) ∧
      lifecycle.configSignature = some (strip signature) := by
  cases hlease : app.updateLease env faults.lease signature generation with
  | error error =>
    refine .inl ⟨app, error, ⟨false, true, none, none, []⟩, ?_, ⟨rfl, fun _ => .inr rfl,
      fun _ => .inr rfl, fun _ => .inr rfl⟩⟩
    simp only [writeSignatures, hlease, rollbackSignatures, hold]
    rfl
  | ok p =>
    obtain ⟨app₁, lease⟩ := p
    obtain ⟨rfl, hsome, hleaseSignature⟩ := App.updateLease_ok hlease
    cases hlifecycle : App.updateLifecycle env faults.lifecycle signature namespaceEpoch generation
        { app with storedLease := lease } with
    | error error =>
      rcases hrollback : rollbackLeaseSignature env faults.rollbackLease old generation
        { app with storedLease := lease } ⟨true, true, none, none, []⟩ with ⟨app', rollback⟩
      obtain ⟨hgraph, hheld, hstored, hcases⟩ := rollbackLeaseSignature_cases hrollback
      refine .inl ⟨app', error, rollback, ?_, ⟨hgraph, fun hcomplete => ?_, fun _ => .inr hheld,
        fun _ => .inr hstored⟩⟩
      · simp only [writeSignatures, hlease, hlifecycle, hold, hsome, rollbackSignatures_lease,
          hrollback]
      · obtain hfalse | ⟨-, -, -, hrestored⟩ := hcases
        · exact absurd hcomplete (by rw [hfalse]; decide)
        · exact .inl (by rw [hrestored, hstrip])
    | ok q =>
      obtain ⟨app₂, lifecycle⟩ := q
      obtain ⟨rfl, hlifecycleSignature⟩ := App.updateLifecycle_ok hlifecycle
      refine .inr ⟨lease, lifecycle, ?_, hleaseSignature, hlifecycleSignature⟩
      simp only [writeSignatures, hlease, hlifecycle]

variable (env faults namespaceEpoch generation) in
/-- The graph is published, or all signatures are rolled back. -/
theorem publishOrRollback_cases {context : TransactionContext} {old : String}
    (hold : context.oldConfigSignature = some old) (hstrip : strip old = old)
    (new : ServiceGraph σ) (lease : Option CcbdLease) (lifecycle : CcbdLifecycle) (app : App σ) :
    (∃ app', publishOrRollback env faults context new namespaceEpoch generation lease
      lifecycle app =
        (app', publishedResult new context lease lifecycle) ∧ app'.graph = new ∧
      app'.storedLease = app.storedLease ∧ app'.storedLifecycle = app.storedLifecycle ∧
      app'.lease = app.lease) ∨
    ∃ app' error rollback,
      publishOrRollback env faults context new namespaceEpoch generation lease lifecycle app =
        (app', rolledBackResult "service_graph_publish_failed" error context app' rollback) ∧
      app'.graph = app.graph ∧ (rollback.complete = true →
        leaseSignature app'.storedLease = some old ∧ leaseSignature app'.lease = some old ∧
        lifecycleSignature app'.storedLifecycle = some old) := by
  cases hpublish : app.publishGraph faults.publish new with
  | ok app' =>
    obtain ⟨hstored, hlifecycle, hheld, hgraph⟩ := App.publishGraph_ok hpublish
    refine .inl ⟨app', ?_, hgraph, hstored, hlifecycle, hheld⟩
    simp only [publishOrRollback, hpublish]
  | error error =>
    rcases hfirst : rollbackLifecycleSignature env faults.rollbackLifecycle old namespaceEpoch
      generation app ⟨true, true, none, none, []⟩ with ⟨app₁, rollback₁⟩
    rcases hsecond : rollbackLeaseSignature env faults.rollbackLease old generation app₁ rollback₁
      with ⟨app₂, rollback⟩
    obtain ⟨hgraph₁, -, -, hcases₁⟩ := rollbackLifecycleSignature_cases hfirst
    obtain ⟨hgraph₂, -, hlifecycle₂, hcases₂⟩ := rollbackLeaseSignature_cases hsecond
    refine .inr ⟨if rollback.lease.isSome then { app₂ with lease := rollback.lease } else app₂,
      error, rollback, ?_, ?_, fun hcomplete => ?_⟩
    · simp only [publishOrRollback, hpublish, hold, rollbackSignatures_both hfirst, hsecond]
    · rw [apply_ite App.graph, ite_self, hgraph₂, hgraph₁]
    · obtain hfalse | ⟨hsame, hsome, hleased, hstored⟩ := hcases₂
      · exact absurd hcomplete (by rw [hfalse]; decide)
      · rw [if_pos hsome]
        obtain hfalse | ⟨-, hlifecycle⟩ := hcases₁
        · exact absurd (hsame.symm.trans hcomplete) (by rw [hfalse]; decide)
        · rw [hstrip] at hleased hstored hlifecycle
          exact ⟨hstored, hleased, by rw [hlifecycle₂, hlifecycle]⟩

/-- On return with status published the two records and the graph carry the new signature. On
any other return the old graph is current: without a rollback nothing has changed, and after a
complete one each of the stored lease, the held lease and the lifecycle carries the signature of
the old graph, or is what it was before the transaction. -/
theorem publish_all_or_nothing (env : Surroundings) (faults : Faults) (new : ServiceGraph σ)
    (namespaceEpoch : Option ℕ) (patch mount : StageResult) (app : App σ) :
    let out := publishAdditiveReloadTransaction env faults new namespaceEpoch patch mount app
    (out.2.status = .published →
      new.signature.isSome ∧ out.1.graph = new ∧
      leaseSignature out.1.storedLease = new.signature ∧
      leaseSignature out.1.lease = new.signature ∧
      lifecycleSignature out.1.storedLifecycle = new.signature) ∧
    (out.2.status ≠ .published →
      out.1.graph = app.graph ∧ (out.2.signatureRollback = none → out.1 = app) ∧
      ∀ rollback, out.2.signatureRollback = some rollback →
        Undone app.graph.signature app out.1 rollback) := by
  intro out
  rcases h : out with ⟨app', result⟩
  simp only [out] at h
  unfold publishAdditiveReloadTransaction at h
  dsimp only at h
  cases hpreflight : preflight app (transactionContext app.graph new patch mount) with
  | error failure =>
    rw [hpreflight] at h
    obtain ⟨rfl, rfl⟩ := Prod.mk.inj h
    obtain ⟨hstatus, hnone⟩ := preflight_error hpreflight
    refine ⟨fun hpublished => absurd hpublished hstatus, fun _ => ⟨rfl, fun _ => rfl, ?_⟩⟩
    intro rollback hsome
    rw [hnone] at hsome
    contradiction
  | ok p =>
    obtain ⟨signature, generation⟩ := p
    rw [hpreflight] at h
    obtain ⟨hnew, old, hold⟩ := preflight_ok hpreflight
    have hnewStrip : strip signature = signature := strip_of_signature hnew
    have holdStrip : strip old = old := strip_of_signature hold
    obtain ⟨app₁, error, rollback, hwrite, hundone⟩ |
      ⟨lease, lifecycle, hwrite, hlease, hlifecycle⟩ :=
      writeSignatures_cases env faults namespaceEpoch generation signature hold holdStrip app
    · dsimp only at h
      rw [hwrite] at h
      obtain ⟨rfl, rfl⟩ := Prod.mk.inj h
      refine ⟨nofun, fun _ => ⟨hundone.graph, nofun, ?_⟩⟩
      intro rollback' hsome
      obtain rfl := Option.some.inj hsome
      exact (show app.graph.signature = some old from hold) ▸ hundone
    · dsimp only at h
      rw [hwrite] at h
      dsimp only at h
      obtain ⟨app₂, hpublish, hgraph, hstored, hmounted, hheld⟩ |
          ⟨app₂, error, rollback, hpublish, hgraph, hcomplete⟩ :=
        publishOrRollback_cases env faults namespaceEpoch generation hold holdStrip new lease
          lifecycle
          { app with storedLease := lease, storedLifecycle := some lifecycle, lease := lease }
      · rw [hpublish] at h
        obtain ⟨rfl, rfl⟩ := Prod.mk.inj h
        have hsignature : new.signature = some (strip signature) := by rw [hnewStrip]; exact hnew
        refine ⟨fun _ => ?_, fun hstatus => absurd rfl hstatus⟩
        rw [hsignature, hstored, hmounted, hheld]
        exact ⟨rfl, hgraph, hlease, hlease, hlifecycle⟩
      · rw [hpublish] at h
        obtain ⟨rfl, rfl⟩ := Prod.mk.inj h
        refine ⟨nofun, fun _ => ⟨hgraph, nofun, ?_⟩⟩
        intro rollback' hsome
        obtain rfl := Option.some.inj hsome
        rw [show app.graph.signature = some old from hold]
        exact ⟨hgraph, fun hc => .inl (hcomplete hc).1, fun hc => .inl (hcomplete hc).2.1,
          fun hc => .inl (hcomplete hc).2.2⟩

namespace Sample

def process : Process where
  projectId := "p"
  pid := 1
  socketPath := "/s"
  instanceId := "d1"
  configSignature := "old"
  keeperPid := none
  pid_pos := by decide
  instance_clean := by decide +kernel

def surroundings (configSignature : String) : Surroundings where
  now := "t1"
  socketInode _ := none
  namespaceEpoch := none
  configSignature := some configSignature
  socketPath := "/s"

def mounted : CcbdLease := Daemon.markMounted process "t0" ⟨1, by decide⟩

/-- A daemon that has mounted its configuration, after a start was requested on another one. -/
def restarted : App Unit where
  process := process
  storedLease := some mounted
  storedLifecycle := some (Daemon.recordRunningIntent (surroundings "new") "p"
    ⟨some mounted, .healthy, true, true, true, false, "healthy"⟩
    (some (Daemon.markLifecycleMounted (surroundings "old") ⟨process, some mounted⟩ none)))
  lease := some mounted
  graph := ⟨1, "t0", some "old", ()⟩
  services := ()
  configSignature := some "old"
  graphVersion := 1
  graphCreatedAt := "t0"

/-- The write of the lease fails. -/
def leaseFails : Faults := ⟨some "disk full", none, none, none, none⟩

end Sample

open Sample in
/-- The signature in the lifecycle was new before the transaction, which never writes it. -/
theorem complete_rollback_keeps_new_signature :
    let out := publishAdditiveReloadTransaction (surroundings "new") leaseFails
      ⟨2, "t1", some "new", ()⟩ none ⟨"applied", false⟩ ⟨"mounted", false⟩ restarted
    out.2.status = .failed ∧ (out.2.signatureRollback.map (·.complete)) = some true ∧
      lifecycleSignature out.1.storedLifecycle = some "new" ∧
      restarted.graph.signature = some "old" := by
  decide +kernel

end CodexBridge.Reload
