import CodexBridge.Agents.Registry

/-! Fencing. A registry that starts from any store and is called for one agent never goes back to
an older generation of it: a candidate from an older one changes the state of the agent only, and
what comes without authority is refused when it would bind the agent anew. -/

namespace CodexBridge.Agents

/-! ### The cache -/

/-- What is cached is what is stored, for the agents of the registry all of it. -/
structure AgentRegistry.Synced (registry : AgentRegistry) : Prop where
  stored : ∀ name runtime, registry.cache name = some runtime →
    registry.store.runtimes name = some runtime
  known : ∀ name ∈ registry.agents, registry.cache name = registry.store.runtimes name

theorem loadExisting_synced (agents : List String) (store : RuntimeStore) :
    (AgentRegistry.loadExisting agents store).Synced := by
  constructor
  · intro name runtime h
    simp only [AgentRegistry.loadExisting] at h
    split_ifs at h
    exact h
  · intro name hname
    exact if_pos hname

theorem AgentRegistry.Synced.put {registry : AgentRegistry} (h : registry.Synced)
    (runtime : AgentRuntime) : (registry.put runtime).Synced := by
  constructor
  · intro name r hcache
    by_cases hname : name = runtime.agentName
    · subst hname
      simpa [AgentRegistry.put, RuntimeStore.save] using hcache
    · simp only [AgentRegistry.put, RuntimeStore.save, Function.update_of_ne hname] at hcache ⊢
      exact h.stored name r hcache
  · intro name hknown
    by_cases hname : name = runtime.agentName
    · subst hname
      simp [AgentRegistry.put, RuntimeStore.save]
    · simp only [AgentRegistry.put, RuntimeStore.save, Function.update_of_ne hname]
      exact h.known name hknown

/-- Nothing has been written: a look at an agent that the registry does not know may have
brought its runtime into the cache. -/
structure Unwritten (name : String) (registry next : AgentRegistry) : Prop where
  store : next.store = registry.store
  agents : next.agents = registry.agents
  synced : next.Synced
  cache : name ∈ registry.agents → next.cache = registry.cache

theorem AgentRegistry.Synced.unwritten {registry : AgentRegistry} (h : registry.Synced)
    (name : String) : Unwritten name registry registry := ⟨rfl, rfl, h, fun _ => rfl⟩

theorem getLocked_known {registry : AgentRegistry} (h : registry.Synced) {name : String}
    (hknown : name ∈ registry.agents) :
    registry.getLocked name = (registry, registry.store.runtimes name) := by
  have hcache := h.known name hknown
  unfold AgentRegistry.getLocked
  rw [hcache]
  cases registry.store.runtimes name <;> rfl

theorem getLocked_unwritten {registry : AgentRegistry} (h : registry.Synced) (name : String) :
    ∃ base, registry.getLocked name = (base, registry.store.runtimes name) ∧
      Unwritten name registry base := by
  by_cases hknown : name ∈ registry.agents
  · exact ⟨registry, getLocked_known h hknown, h.unwritten name⟩
  · unfold AgentRegistry.getLocked
    cases hcache : registry.cache name with
    | some cached =>
      rw [h.stored name cached hcache]
      exact ⟨registry, rfl, h.unwritten name⟩
    | none =>
      cases hstore : registry.store.runtimes name with
      | none => exact ⟨registry, rfl, h.unwritten name⟩
      | some runtime =>
        refine ⟨_, rfl, rfl, rfl, ⟨fun other r hr => ?_, fun other hother => ?_⟩,
          fun hmem => absurd hmem hknown⟩
        · dsimp only at hr
          by_cases hname : other = name
          · subst hname
            rw [Function.update_self] at hr
            exact hstore.trans hr
          · rw [Function.update_of_ne hname] at hr
            exact h.stored other r hr
        · have hname : other ≠ name := fun heq => hknown (heq ▸ hother)
          dsimp only
          rw [Function.update_of_ne hname]
          exact h.known other hother

/-! ### Writes -/

theorem mergeStaleAuthorityCandidate_eq_ok {existing candidate runtime : AgentRuntime}
    (h : mergeStaleAuthorityCandidate existing candidate = .ok runtime) :
    existing.generation ≤ runtime.generation ∧
      (candidate.generation < existing.generation →
        runtime.fields.authority = existing.fields.authority) := by
  unfold mergeStaleAuthorityCandidate at h
  split_ifs at h with hfresh
  · obtain rfl := Except.ok.inj h
    exact ⟨by omega, fun hstale => by omega⟩
  · have hfields := AgentRuntime.build_mixed h
    have hauthority := congrArg RuntimeFields.authority hfields
    refine ⟨?_, fun _ => hauthority⟩
    rw [AgentRuntime.generation, AgentRuntime.generation, hauthority]

/-- A runtime that is attached over the stored one is taken as it is. -/
theorem mergeStaleAuthorityCandidate_next {existing candidate : AgentRuntime} {changed : Bool}
    (h : candidate.generation = (nextAuthorityEpochGenerations (some existing) changed).2) :
    mergeStaleAuthorityCandidate existing candidate = .ok candidate := by
  have hle : existing.generation ≤ candidate.generation := by
    rw [h]
    simp only [nextAuthorityEpochGenerations]
    split_ifs <;> omega
  exact if_pos (.inl hle)

/-- A write is refused and changes nothing, or it puts the runtime in the store. -/
theorem saveLocked_cases {registry : AgentRegistry} (h : registry.Synced) (runtime : AgentRuntime)
    (authorityWrite : Bool) (existing : Option AgentRuntime) :
    (∃ e, registry.saveLocked runtime authorityWrite existing = (registry, .error e)) ∨
      (registry.saveLocked runtime authorityWrite existing = (registry.put runtime, .ok runtime) ∧
        (authorityWrite = false → ∀ current,
          existing.or (registry.store.runtimes runtime.agentName) = some current →
          current.fields.authority = runtime.fields.authority)) := by
  unfold AgentRegistry.saveLocked
  by_cases hknown : runtime.agentName ∈ registry.agents
  · rw [if_neg (not_not.mpr hknown)]
    have hcurrent : registry.current runtime existing =
        (registry, existing.or (registry.store.runtimes runtime.agentName)) := by
      cases existing with
      | none => exact getLocked_known h hknown
      | some existing => rfl
    rw [hcurrent]
    dsimp only
    split_ifs with hrefused
    · exact .inl ⟨_, rfl⟩
    · refine .inr ⟨rfl, fun hwrite current hsome => ?_⟩
      rw [hsome] at hrefused
      by_contra hne
      exact hrefused ⟨hwrite, fun hnil => hne (changedAuthorityFields_eq_nil.mp hnil)⟩
  · rw [if_pos hknown]
    exact .inl ⟨_, rfl⟩

/-- What a call on an agent does. A write without authority that would bind the agent anew is
refused; a runtime that is written for the agent is not from an older generation. -/
inductive Applied (name : String) (registry : AgentRegistry) (call : RegistryCall) :
    AgentRegistry × Except Raised (Option AgentRuntime) → Prop where
  | kept {next : AgentRegistry} {result : Except Raised (Option AgentRuntime)}
      (hkept : Unwritten name registry next)
      (hrefused : ∀ existing candidate, registry.store.runtimes name = some existing →
        call.candidate (some existing) = some (candidate, false) → candidate ≠ existing →
        ∃ e, result = .error e) : Applied name registry call (next, result)
  | written {base : AgentRegistry} {runtime : AgentRuntime} (hbase : Unwritten name registry base)
      (hgeneration : ∀ existing, registry.store.runtimes name = some existing →
        runtime.agentName = name → existing.generation ≤ runtime.generation)
      (hstale : ∀ existing candidate, registry.store.runtimes name = some existing →
        call.candidate (some existing) = some (candidate, true) →
        candidate.generation < existing.generation →
        runtime.fields.authority = existing.fields.authority)
      (hstate : ∀ existing candidate, registry.store.runtimes name = some existing →
        call.candidate (some existing) = some (candidate, false) →
        candidate.fields.authority = existing.fields.authority) :
      Applied name registry call (base.put runtime, .ok (some runtime))

theorem generation_eq {existing runtime : AgentRuntime}
    (h : existing.fields.authority = runtime.fields.authority) :
    existing.generation = runtime.generation := by
  rw [AgentRuntime.generation, AgentRuntime.generation, h]

theorem upsert_applied {registry : AgentRegistry} (h : registry.Synced) (runtime : AgentRuntime) :
    Applied runtime.agentName registry (.upsert runtime)
      ((RegistryCall.upsert runtime).apply registry) := by
  rcases saveLocked_cases h runtime false none with ⟨e, hrefused⟩ | ⟨hwritten, hsame⟩
  · simp only [RegistryCall.apply, AgentRegistry.upsert, hrefused]
    exact .kept (h.unwritten _) fun _ _ _ _ _ => ⟨e, rfl⟩
  · simp only [RegistryCall.apply, AgentRegistry.upsert, hwritten]
    refine .written (h.unwritten _) ?_ ?_ ?_
    · intro existing hstored _
      exact (generation_eq (hsame rfl existing hstored)).le
    · rintro existing candidate - ⟨⟩
    · rintro existing candidate hstored ⟨⟩
      exact (hsame rfl existing hstored).symm

/-- A write with authority for an agent, once its runtime has been found. -/
theorem saveMerged_applied {name : String} {registry base : AgentRegistry}
    (hbase : Unwritten name registry base) {call : RegistryCall} {runtime : AgentRuntime}
    {existing : Option AgentRuntime} (hexisting : registry.store.runtimes name = existing)
    (hcall : ∀ candidate, call.candidate existing ≠ some (candidate, false))
    (hgeneration : ∀ r, existing = some r → r.generation ≤ runtime.generation)
    (hstale : ∀ r candidate, existing = some r → call.candidate existing = some (candidate, true) →
      candidate.generation < r.generation → runtime.fields.authority = r.fields.authority) :
    Applied name registry call
      ((base.saveLocked runtime true existing).1,
        (base.saveLocked runtime true existing).2.map some) := by
  subst hexisting
  rcases saveLocked_cases hbase.synced runtime true (registry.store.runtimes name) with
    ⟨e, hrefused⟩ | ⟨hwritten, -⟩
  · rw [hrefused]
    exact .kept hbase fun _ _ _ _ _ => ⟨e, rfl⟩
  · rw [hwritten]
    refine .written hbase (fun r hr _ => hgeneration r hr) ?_ ?_
    · intro r candidate hr hcandidate hlt
      exact hstale r candidate hr (hr ▸ hcandidate) hlt
    · intro r candidate hr hcandidate
      exact absurd (hr ▸ hcandidate) (hcall candidate)

theorem upsertAuthority_applied {registry : AgentRegistry} (h : registry.Synced)
    (runtime : AgentRuntime) {call : RegistryCall}
    (hcall : ∀ stored, call.candidate stored = none ∨
      call.candidate stored = some (runtime, true)) :
    Applied runtime.agentName registry call
      ((registry.upsertAuthority runtime).1, (registry.upsertAuthority runtime).2.map some) := by
  have hauthority : ∀ stored candidate, call.candidate stored ≠ some (candidate, false) := by
    intro stored candidate heq
    rcases hcall stored with hnone | hsome
    · rw [hnone] at heq
      cases heq
    · rw [hsome] at heq
      cases heq
  obtain ⟨base, hfound, hbase⟩ := getLocked_unwritten h runtime.agentName
  unfold AgentRegistry.upsertAuthority
  cases hexisting : registry.store.runtimes runtime.agentName with
  | none =>
    rw [hfound, hexisting]
    exact saveMerged_applied hbase hexisting (hauthority none) (fun _ hr => by cases hr)
      fun _ _ hr => by cases hr
  | some existing =>
    rw [hfound, hexisting]
    dsimp only
    cases hmerge : mergeStaleAuthorityCandidate existing runtime with
    | error e => exact .kept hbase fun _ _ _ _ _ => ⟨e, rfl⟩
    | ok merged =>
      obtain ⟨hgeneration, hstale⟩ := mergeStaleAuthorityCandidate_eq_ok hmerge
      refine saveMerged_applied hbase hexisting (hauthority _) ?_ ?_
      · rintro r ⟨⟩
        exact hgeneration
      · rintro r candidate ⟨⟩ hcandidate hlt
        rcases hcall (some existing) with hnone | hsome
        · rw [hnone] at hcandidate
          cases hcandidate
        · rw [hsome] at hcandidate
          cases hcandidate
          exact hstale hlt

theorem update_applied {registry : AgentRegistry} (h : registry.Synced) {agentName name : String}
    (hname : normalizeAgentName agentName = .ok name)
    (updateFn : Option AgentRuntime → Except Raised (Option AgentRuntime)) (authorityWrite : Bool) :
    Applied name registry (.update agentName updateFn authorityWrite)
      (registry.update agentName updateFn authorityWrite) := by
  obtain ⟨base, hfound, hbase⟩ := getLocked_unwritten h name
  unfold AgentRegistry.update
  rw [hname]
  dsimp only
  rw [hfound]
  dsimp only
  cases hupdated : updateFn (registry.store.runtimes name) with
  | error e => exact .kept hbase fun _ _ _ _ _ => ⟨e, rfl⟩
  | ok result =>
    cases result with
    | none =>
      refine .kept hbase fun existing candidate hstored heq _ => ?_
      rw [RegistryCall.candidate, ← hstored, hupdated] at heq
      cases heq
    | some updated =>
      dsimp only
      cases hexisting : registry.store.runtimes name with
      | none =>
        dsimp only
        rcases saveLocked_cases hbase.synced updated authorityWrite none with
          ⟨e, hrefused⟩ | ⟨hwritten, -⟩
        · rw [hrefused]
          exact .kept hbase fun _ _ _ _ _ => ⟨e, rfl⟩
        · rw [hwritten]
          have hnone : ∀ r, registry.store.runtimes name ≠ some r := by simp [hexisting]
          exact .written hbase (fun r hr => absurd hr (hnone r)) (fun r _ hr => absurd hr (hnone r))
            fun r _ hr => absurd hr (hnone r)
      | some existing =>
        rw [hexisting] at hupdated
        have hbrings : ∀ r candidate write, registry.store.runtimes name = some r →
            RegistryCall.candidate (some r) (.update agentName updateFn authorityWrite) =
              some (candidate, write) → r = existing ∧ candidate = updated ∧
                authorityWrite = write := by
          intro r candidate write hstored heq
          obtain rfl := Option.some.inj (hexisting.symm.trans hstored)
          rw [RegistryCall.candidate, hupdated] at heq
          cases heq
          exact ⟨rfl, rfl, rfl⟩
        dsimp only
        split_ifs with hsame hwrite
        · refine .kept hbase fun r candidate hstored heq hne => ?_
          obtain ⟨rfl, rfl, -⟩ := hbrings r candidate false hstored heq
          exact absurd hsame hne
        · subst hwrite
          cases hmerge : mergeStaleAuthorityCandidate existing updated with
          | error e => exact .kept hbase fun _ _ _ _ _ => ⟨e, rfl⟩
          | ok merged =>
            obtain ⟨hgeneration, hstale⟩ := mergeStaleAuthorityCandidate_eq_ok hmerge
            refine saveMerged_applied hbase hexisting ?_ ?_ ?_
            · intro candidate heq
              obtain ⟨-, -, hfalse⟩ := hbrings existing candidate false hexisting heq
              cases hfalse
            · rintro r ⟨⟩
              exact hgeneration
            · rintro r candidate ⟨⟩ heq hlt
              obtain ⟨-, rfl, -⟩ := hbrings existing candidate true hexisting heq
              exact hstale hlt
        · obtain rfl : authorityWrite = false := Bool.eq_false_iff.mpr hwrite
          dsimp only
          rcases saveLocked_cases hbase.synced updated false (some existing) with
            ⟨e, hrefused⟩ | ⟨hwritten, hauthority⟩
          · rw [hrefused]
            exact .kept hbase fun _ _ _ _ _ => ⟨e, rfl⟩
          · rw [hwritten]
            have heq := hauthority rfl existing rfl
            refine .written hbase ?_ ?_ ?_
            · intro r hstored _
              obtain rfl := Option.some.inj (hexisting.symm.trans hstored)
              exact (generation_eq heq).le
            · intro r candidate hstored hbrought
              obtain ⟨-, -, hfalse⟩ := hbrings r candidate true hstored hbrought
              cases hfalse
            · intro r candidate hstored hbrought
              obtain ⟨rfl, rfl, -⟩ := hbrings r candidate false hstored hbrought
              exact heq.symm

theorem build_agentName {runtime stopped : AgentRuntime} {fields : RuntimeFields}
    (h : AgentRuntime.build fields = .ok stopped)
    (hname : fields.authority.agentName = runtime.agentName) :
    stopped.agentName = runtime.agentName := by
  obtain ⟨name, hnormal, -, hfields⟩ := postInit_eq_ok.mp (AgentRuntime.build_eq_ok.mp h)
  rw [hname, runtime.agentName_normal] at hnormal
  rw [AgentRuntime.agentName, hfields, Except.ok.inj hnormal]
  rfl

theorem Applied.of_base {name : String} {registry base : AgentRegistry}
    (hbase : Unwritten name registry base) {call : RegistryCall}
    {outcome : AgentRegistry × Except Raised (Option AgentRuntime)}
    (h : Applied name base call outcome) : Applied name registry call outcome := by
  have htrans : ∀ {next}, Unwritten name base next → Unwritten name registry next := by
    intro next hnext
    refine ⟨hnext.store.trans hbase.store, hnext.agents.trans hbase.agents, hnext.synced, ?_⟩
    intro hknown
    exact (hnext.cache (hbase.agents.symm ▸ hknown)).trans (hbase.cache hknown)
  cases h with
  | kept hkept hrefused =>
    rw [hbase.store] at hrefused
    exact .kept (htrans hkept) hrefused
  | written hwritten hgeneration hstale hstate =>
    rw [hbase.store] at hgeneration hstale hstate
    exact .written (htrans hwritten) hgeneration hstale hstate

theorem remove_applied {registry : AgentRegistry} (h : registry.Synced) {agentName name : String}
    (hname : normalizeAgentName agentName = .ok name) :
    Applied name registry (.remove agentName) (registry.remove agentName) := by
  obtain ⟨base, hfound, hbase⟩ := getLocked_unwritten h name
  have hnothing : ∀ {next result}, Unwritten name registry next →
      Applied name registry (.remove agentName) (next, result) :=
    fun hnext => .kept hnext fun _ _ _ heq => by cases heq
  unfold AgentRegistry.remove
  rw [hname]
  dsimp only
  rw [hfound]
  cases hexisting : registry.store.runtimes name with
  | none => exact hnothing hbase
  | some runtime =>
    dsimp only
    cases hstopped : AgentRuntime.build (AgentRegistry.stoppedFields runtime.fields) with
    | error e => exact hnothing hbase
    | ok stopped =>
      have hagent : stopped.agentName = name :=
        (build_agentName hstopped rfl).trans (registry.store.named name runtime hexisting)
      subst hagent
      exact .of_base hbase (upsertAuthority_applied hbase.synced stopped fun _ => .inl rfl)

theorem RegistryCall.On.applied {registry : AgentRegistry} (h : registry.Synced) {name : String}
    {call : RegistryCall} (hon : call.On name) :
    Applied name registry call (call.apply registry) := by
  cases call with
  | upsert runtime =>
    subst hon
    exact upsert_applied h runtime
  | upsertAuthority runtime =>
    subst hon
    exact upsertAuthority_applied h runtime fun _ => .inr rfl
  | update agentName updateFn authorityWrite => exact update_applied h hon updateFn authorityWrite
  | remove agentName => exact remove_applied h hon

/-! ### Runs of calls -/

theorem put_stored (registry : AgentRegistry) (runtime : AgentRuntime) :
    (registry.put runtime).store.runtimes =
      Function.update registry.store.runtimes runtime.agentName (some runtime) := rfl

theorem Applied.synced {name : String} {registry : AgentRegistry} {call : RegistryCall}
    {outcome : AgentRegistry × Except Raised (Option AgentRuntime)}
    (h : Applied name registry call outcome) : outcome.1.Synced := by
  cases h with
  | kept hkept _ => exact hkept.synced
  | written hbase _ _ _ => exact hbase.synced.put _

theorem Applied.generation_le {name : String} {registry : AgentRegistry} {call : RegistryCall}
    {outcome : AgentRegistry × Except Raised (Option AgentRuntime)}
    (h : Applied name registry call outcome) :
    registry.storedGeneration name ≤ outcome.1.storedGeneration name := by
  cases h with
  | kept hkept _ => rw [AgentRegistry.storedGeneration, AgentRegistry.storedGeneration, hkept.store]
  | @written base runtime hbase hgeneration _ _ =>
    rw [AgentRegistry.storedGeneration, AgentRegistry.storedGeneration, put_stored, hbase.store]
    by_cases hname : name = runtime.agentName
    · subst hname
      rw [Function.update_self]
      cases hexisting : registry.store.runtimes runtime.agentName with
      | none => exact Nat.zero_le _
      | some existing => exact hgeneration existing hexisting rfl
    · rw [Function.update_of_ne hname]

theorem Applied.agents {name : String} {registry : AgentRegistry} {call : RegistryCall}
    {outcome : AgentRegistry × Except Raised (Option AgentRuntime)}
    (h : Applied name registry call outcome) : outcome.1.agents = registry.agents := by
  cases h with
  | kept hkept _ => exact hkept.agents
  | written hbase _ _ _ => exact hbase.agents

/-- A write with authority that is not of the stored generation leaves what the agent is bound
to, and every other agent. -/
theorem Applied.stale {name : String} {registry : AgentRegistry} {call : RegistryCall}
    {outcome : AgentRegistry × Except Raised (Option AgentRuntime)}
    (h : Applied name registry call outcome) {existing candidate : AgentRuntime}
    (hstored : registry.store.runtimes name = some existing)
    (hcandidate : call.candidate (some existing) = some (candidate, true))
    (hlt : candidate.generation < existing.generation) :
    (∃ runtime, outcome.1.store.runtimes name = some runtime ∧
      runtime.fields.authority = existing.fields.authority) ∧
    ∀ other, other ≠ name → outcome.1.store.runtimes other = registry.store.runtimes other := by
  cases h with
  | kept hkept _ =>
    rw [hkept.store]
    exact ⟨⟨existing, hstored, rfl⟩, fun _ _ => rfl⟩
  | @written base runtime hbase _ hstale _ =>
    have hauthority := hstale existing candidate hstored hcandidate hlt
    have hname : runtime.agentName = name :=
      (congrArg AuthorityFields.agentName hauthority).trans
        (registry.store.named name existing hstored)
    subst hname
    rw [put_stored, hbase.store]
    exact ⟨⟨runtime, Function.update_self .., hauthority⟩,
      fun other hother => Function.update_of_ne hother ..⟩

/-- A write without authority that would bind the agent anew raises. -/
theorem Applied.refused {name : String} {registry : AgentRegistry} {call : RegistryCall}
    {outcome : AgentRegistry × Except Raised (Option AgentRuntime)}
    (h : Applied name registry call outcome) {existing candidate : AgentRuntime}
    (hstored : registry.store.runtimes name = some existing)
    (hcandidate : call.candidate (some existing) = some (candidate, false))
    (hne : candidate.fields.authority ≠ existing.fields.authority) :
    (∃ e, outcome.2 = .error e) ∧ Unwritten name registry outcome.1 := by
  cases h with
  | kept hkept hrefused =>
    refine ⟨hrefused existing candidate hstored hcandidate ?_, hkept⟩
    rintro rfl
    exact hne rfl
  | written _ _ _ hstate => exact absurd (hstate existing candidate hstored hcandidate) hne

theorem runCalls_synced {name : String} {calls : List RegistryCall}
    (hcalls : ∀ call ∈ calls, call.On name) {registry : AgentRegistry} (h : registry.Synced) :
    (runCalls registry calls).Synced ∧ (runCalls registry calls).agents = registry.agents ∧
      registry.storedGeneration name ≤ (runCalls registry calls).storedGeneration name := by
  induction calls generalizing registry with
  | nil => exact ⟨h, rfl, le_rfl⟩
  | cons call calls ih =>
    have happlied := RegistryCall.On.applied h (hcalls call List.mem_cons_self)
    obtain ⟨hsynced, hagents, hle⟩ :=
      ih (fun c hc => hcalls c (List.mem_cons_of_mem _ hc)) happlied.synced
    exact ⟨hsynced, hagents.trans happlied.agents, happlied.generation_le.trans hle⟩

theorem runCalls_append (registry : AgentRegistry) (before after : List RegistryCall) :
    runCalls registry (before ++ after) = runCalls (runCalls registry before) after :=
  List.foldl_append

theorem registry_fenced (agents : List String) (store : RuntimeStore) (name : String)
    (before : List RegistryCall) (hbefore : ∀ call ∈ before, call.On name) :
    let registry := runCalls (.loadExisting agents store) before
    (∀ after : List RegistryCall, (∀ call ∈ after, call.On name) →
      registry.storedGeneration name ≤
        (runCalls (.loadExisting agents store) (before ++ after)).storedGeneration name) ∧
    ∀ (call : RegistryCall) (existing candidate : AgentRuntime), call.On name →
      registry.store.runtimes name = some existing →
      (call.candidate (some existing) = some (candidate, true) →
        candidate.generation < existing.generation →
        (∃ runtime, (call.apply registry).1.store.runtimes name = some runtime ∧
          runtime.fields.authority = existing.fields.authority) ∧
        ∀ other, other ≠ name →
          (call.apply registry).1.store.runtimes other = registry.store.runtimes other) ∧
      (call.candidate (some existing) = some (candidate, false) →
        candidate.fields.authority ≠ existing.fields.authority →
        (∃ e, (call.apply registry).2 = .error e) ∧
          (call.apply registry).1.store = registry.store ∧
          (name ∈ agents → (call.apply registry).1.cache = registry.cache)) := by
  intro registry
  obtain ⟨hsynced, hagents, -⟩ := runCalls_synced hbefore (loadExisting_synced agents store)
  constructor
  · intro after hafter
    rw [runCalls_append]
    exact (runCalls_synced hafter hsynced).2.2
  · intro call existing candidate hon hstored
    have happlied := RegistryCall.On.applied hsynced hon
    refine ⟨fun hcandidate hlt => happlied.stale hstored hcandidate hlt, ?_⟩
    intro hcandidate hne
    obtain ⟨hraised, hkept⟩ := happlied.refused hstored hcandidate hne
    exact ⟨hraised, hkept.store, fun hknown => hkept.cache (hagents.symm ▸ hknown)⟩

/-- A runtime of codex in a pane, of this generation. -/
private def codexFields (paneId : String) (generation : ℤ) (health : String) : RuntimeFields where
  authority :=
    { agentName := "codex"
      startedAt := none
      runtimeRef := none
      sessionRef := none
      workspacePath := some "/work"
      projectId := "project"
      backendType := "pane"
      socketPath := none
      provider := some "codex"
      runtimeRoot := none
      runtimePid := none
      terminalBackend := none
      paneId := some paneId
      paneTitleMarker := none
      tmuxSocketName := none
      tmuxSocketPath := none
      tmuxWindowName := none
      tmuxWindowId := none
      sessionFile := none
      sessionId := none
      slotKey := some "codex"
      windowId := none
      workspaceEpoch := none
      bindingGeneration := 1
      managedBy := "ccbd"
      bindingSource := .providerSession
      daemonGeneration := none
      runtimeGeneration := some generation
      mountAttemptId := none }
  state :=
    { state := .idle
      health := health
      queueDepth := 0
      activePaneId := none
      paneState := none
      desiredState := some "mounted"
      reconcileState := some "steady"
      restartCount := 0
      lastSeenAt := none
      lastReconcileAt := none
      lastFailureReason := none
      lifecycleState := some "idle"
      pid := none }

private def newCodex : AgentRuntime := ⟨codexFields "%7" 3 "healthy", by decide +kernel⟩

private def staleCodex : AgentRuntime := ⟨codexFields "%2" 1 "lost", by decide +kernel⟩

private def movedCodex : AgentRuntime := ⟨codexFields "%2" 3 "lost", by decide +kernel⟩

private def codexStore : RuntimeStore :=
  RuntimeStore.save ⟨fun _ => none, fun _ _ h => by cases h⟩ newCodex

theorem registry_fenced_codex :
    let registry := AgentRegistry.loadExisting ["codex"] codexStore
    (∃ runtime,
      ((RegistryCall.upsertAuthority staleCodex).apply registry).1.store.runtimes "codex" =
        some runtime ∧ runtime.fields.authority = newCodex.fields.authority) ∧
    (∃ e, ((RegistryCall.upsert movedCodex).apply registry).2 = .error e) ∧
    registry.storedGeneration "codex" ≤
      (runCalls registry [.upsertAuthority staleCodex]).storedGeneration "codex" := by
  obtain ⟨hruns, hcalls⟩ := registry_fenced ["codex"] codexStore "codex" [] (by simp)
  have hstored : codexStore.runtimes "codex" = some newCodex := rfl
  refine ⟨?_, ?_, hruns _ fun call hcall => ?_⟩
  · exact ((hcalls (.upsertAuthority staleCodex) newCodex staleCodex rfl hstored).1 rfl
      (by decide)).1
  · exact ((hcalls (.upsert movedCodex) newCodex movedCodex rfl hstored).2 rfl (by decide)).1
  · rw [List.mem_singleton.mp hcall]
    rfl

end CodexBridge.Agents
