import CodexBridge.Daemon.LifecycleRuns
import CodexBridge.Daemon.Generations

/-! The generation in the lifecycle record. A spawn announces the generation its daemon is
going to take the lease over with; the record and the lease meet again when the daemon
has done so. As long as no daemon takes the lease over after a spawn whose daemon never
got that far, the record never goes back. -/

namespace CodexBridge.Daemon

/-! ### Along a list of writes -/

/-- After each of the writes. -/
def Along (P : Station → Prop) (s : Station) : List (Station → Station) → Prop
  | [] => True
  | write :: writes => P (write s) ∧ Along P (write s) writes

theorem Along.mono {P Q : Station → Prop} (hPQ : ∀ s, P s → Q s) {s : Station}
    {writes : List (Station → Station)} (h : Along P s writes) : Along Q s writes := by
  induction writes generalizing s with
  | nil => trivial
  | cons write writes ih => exact ⟨hPQ _ h.1, ih h.2⟩

theorem Along.append {P : Station → Prop} {s : Station} {before after : List (Station → Station)}
    (h : Along P s before) (hafter : Along P (s.perform before) after) :
    Along P s (before ++ after) := by
  induction before generalizing s with
  | nil => exact hafter
  | cons write before ih => exact ⟨h.1, ih h.2 hafter⟩

theorem Along.take {P : Station → Prop} {s : Station} {writes : List (Station → Station)}
    (h : Along P s writes) (n : ℕ) : Along P s (writes.take n) := by
  induction writes generalizing s n with
  | nil => rw [List.take_nil]; trivial
  | cons write writes ih =>
    cases n with
    | zero => trivial
    | succ n => exact ⟨h.1, ih h.2 n⟩

theorem Along.last {P : Station → Prop} {s : Station} {writes : List (Station → Station)}
    (h : Along P s writes) (hs : P s) : P (s.perform writes) := by
  induction writes generalizing s with
  | nil => exact hs
  | cons write writes ih => exact ih h.2 h.1

/-- Writes that keep a property from wherever it holds. -/
theorem Along.of_forall {P : Station → Prop} {s : Station} {writes : List (Station → Station)}
    (hs : P s) (h : ∀ write ∈ writes, ∀ s, P s → P (write s)) : Along P s writes := by
  induction writes generalizing s with
  | nil => trivial
  | cons write writes ih =>
    have hwrite := h write List.mem_cons_self s hs
    exact ⟨hwrite, ih hwrite fun w hw => h w (List.mem_cons_of_mem _ hw)⟩

/-! ### The invariant -/

/-- What holds after each write: the record does not go back, and a mounted record has the
generation of the lease. -/
structure Ordered (s : Station) : Prop where
  grows : (s.saves.map CcbdLifecycle.generation).Pairwise (· ≤ ·)
  latest : ∀ saved ∈ s.saves, saved.generation ≤ lifecycleGeneration s.lifecycle
  mounted : ∀ lifecycle ∈ s.lifecycle, lifecycle.phase = .mounted →
    lifecycle.generation = generationOf s.lease
  apps : ∀ app ∈ s.apps, generationOf app.lease ≤ generationOf s.lease

/-- Nobody has run for the project yet. -/
def Station.fresh : Station := ⟨none, none, [], []⟩

theorem Ordered.fresh : Ordered Station.fresh where
  grows := List.Pairwise.nil
  latest := fun _ hsaved => absurd hsaved List.not_mem_nil
  mounted := fun _ hstored => absurd hstored (Option.not_mem_none _)
  apps := fun _ happ => absurd happ List.not_mem_nil

theorem Station.writeLease_generation (s : Station) (d : Process) (w : Write) :
    generationOf (s.writeLease d w).lease = generationOf s.lease := by
  rw [Station.writeLease]
  split
  · rename_i saved hsaved
    obtain ⟨loaded, hloaded, hrewrites, _⟩ := Write.saved hsaved
    rw [hloaded]
    exact hrewrites.generation
  · rfl
  · rfl

namespace Ordered

variable {s : Station}

theorem saveLifecycle (h : Ordered s) {lifecycle : CcbdLifecycle}
    (hgrows : lifecycleGeneration s.lifecycle ≤ lifecycle.generation)
    (hmounted : lifecycle.phase = .mounted → lifecycle.generation = generationOf s.lease) :
    Ordered (s.saveLifecycle lifecycle) where
  grows := by
    rw [Station.saveLifecycle, List.map_append, List.pairwise_append]
    refine ⟨h.grows, List.pairwise_singleton _ _, fun a ha b hb => ?_⟩
    obtain ⟨saved, hsaved, rfl⟩ := List.mem_map.mp ha
    obtain rfl := List.mem_singleton.mp hb
    exact (h.latest saved hsaved).trans hgrows
  latest := fun saved hsaved => by
    have hmem := List.mem_append.mp hsaved
    cases hmem with
    | inl hold => exact (h.latest saved hold).trans hgrows
    | inr hnew =>
      rw [List.mem_singleton.mp hnew]
      exact le_rfl
  mounted := fun stored hstored => by
    cases hstored
    exact hmounted
  apps := h.apps

/-- A write to the lease that keeps its generation. -/
theorem writeLease (h : Ordered s) (d : Process) (w : Write) : Ordered (s.writeLease d w) := by
  have hlease := Station.writeLease_generation s d w
  have hrest : (s.writeLease d w).lifecycle = s.lifecycle ∧ (s.writeLease d w).saves = s.saves ∧
      (s.writeLease d w).apps = s.apps := by
    rw [Station.writeLease]
    split <;> exact ⟨rfl, rfl, rfl⟩
  constructor
  · rw [hrest.2.1]
    exact h.grows
  · rw [hrest.1, hrest.2.1]
    exact h.latest
  · rw [hrest.1, hlease]
    exact h.mounted
  · rw [hrest.2.2, hlease]
    exact h.apps

end Ordered

/-! ### One lease -/

/-- While the lease keeps its generation, the record stays under a bound; a daemon that finds no
record goes by its own lease. -/
structure Held (generation bound : ℕ) (s : Station) : Prop extends Ordered s where
  lease : generationOf s.lease = generation
  level : lifecycleGeneration s.lifecycle ≤ bound
  unrecorded : s.lifecycle = none → generation ≤ bound

namespace Held

variable {generation bound : ℕ} {s : Station} {app : App}

theorem writeLease (h : Held generation bound s) (d : Process) (w : Write) :
    Held generation bound (s.writeLease d w) := by
  have hsame : (s.writeLease d w).lifecycle = s.lifecycle := by
    rw [Station.writeLease]
    split <;> rfl
  refine ⟨h.toOrdered.writeLease d w, (Station.writeLease_generation s d w).trans h.lease, ?_, ?_⟩
  · rw [hsame]
    exact h.level
  · rw [hsame]
    exact h.unrecorded

theorem saveLifecycle (h : Held generation bound s) {lifecycle : CcbdLifecycle}
    (hgrows : lifecycleGeneration s.lifecycle ≤ lifecycle.generation)
    (hmounted : lifecycle.phase = .mounted → lifecycle.generation = generation)
    (hbound : lifecycle.generation ≤ bound) :
    Held generation bound (s.saveLifecycle lifecycle) where
  toOrdered := h.toOrdered.saveLifecycle hgrows fun hphase =>
    (hmounted hphase).trans h.lease.symm
  lease := h.lease
  level := hbound
  unrecorded := nofun

/-- A daemon changes the record it finds, and does not mark it mounted. -/
theorem change (h : Held generation bound s) (env : Surroundings)
    (happ : generationOf app.lease ≤ generation) {f : Option CcbdLifecycle → CcbdLifecycle}
    (hf : (f s.lifecycle).generation = (currentLifecycle env app s.lifecycle).generation)
    (hphase : (f s.lifecycle).phase ≠ .mounted) : Held generation bound (s.change f) := by
  have hlevel := h.level
  have hunrecorded := h.unrecorded
  rw [currentLifecycle_generation] at hf
  have hcurrent : lifecycleGeneration s.lifecycle ≤ (f s.lifecycle).generation ∧
      (f s.lifecycle).generation ≤ bound := by
    rw [hf]
    cases hstored : s.lifecycle with
    | none => exact ⟨Nat.zero_le _, happ.trans (hunrecorded hstored)⟩
    | some lifecycle =>
      rw [hstored] at hlevel
      exact ⟨le_rfl, hlevel⟩
  exact h.saveLifecycle hcurrent.1 (fun hmounted => absurd hmounted hphase) hcurrent.2

theorem release (env : Surroundings) (happ : generationOf app.lease ≤ generation)
    (desiredState : Option DesiredState) :
    ∀ write ∈ releaseWrites env app desiredState, ∀ s, Held generation bound s →
      Held generation bound (write s) := by
  intro write hwrite s hs
  simp only [releaseWrites, List.mem_cons, List.not_mem_nil, or_false] at hwrite
  rcases hwrite with rfl | rfl
  · exact hs.writeLease app.process _
  · exact hs.change env happ rfl (nomatch ·)

theorem stop (env : Surroundings) (happ : generationOf app.lease ≤ generation) (reason : String) :
    ∀ write ∈ stopWrites env reason (some app), ∀ s, Held generation bound s →
      Held generation bound (write s) := by
  intro write hwrite s hs
  rcases List.mem_cons.mp hwrite with rfl | hrelease
  · exact hs.change env happ rfl (nomatch ·)
  · exact release env happ (some .stopped) write hrelease s hs

theorem changeIf (h : Held generation bound s) {f : Option CcbdLifecycle → Option CcbdLifecycle}
    (hf : ∀ saved ∈ f s.lifecycle, ∃ loaded ∈ s.lifecycle,
      saved.generation = loaded.generation ∧ saved.phase = loaded.phase) :
    Held generation bound (s.changeIf f) := by
  rw [Station.changeIf]
  split
  · exact h
  · rename_i saved hsaved
    obtain ⟨loaded, hloaded, hgeneration, hphase⟩ := hf saved hsaved
    have hsame : saved.generation = lifecycleGeneration s.lifecycle := by
      rw [hgeneration, Option.mem_def.mp hloaded]
      rfl
    refine h.saveLifecycle hsame.ge ?_ (hsame.trans_le h.level)
    intro hmounted
    rw [hgeneration, ← h.lease]
    exact h.mounted loaded hloaded (hphase.symm.trans hmounted)

theorem progress (h : Held generation bound s) (env : Surroundings) (stage : String) :
    Held generation bound (s.changeIf (updateStartupProgress env stage)) := by
  refine h.changeIf fun saved hsaved => ?_
  obtain ⟨loaded, hloaded, rfl⟩ := Option.map_eq_some_iff.mp hsaved
  exact ⟨loaded, (Option.filter_eq_some_iff.mp hloaded).1, rfl, rfl⟩

/-- A record that the daemon marks mounted has the generation of its lease. -/
theorem mark (h : Held generation generation s) (env : Surroundings)
    (happ : generationOf app.lease = generation) (hpos : generation ≠ 0) :
    Held generation generation (s.change (markLifecycleMounted env app)) := by
  have hsaved : (markLifecycleMounted env app s.lifecycle).generation = generation := by
    rw [markLifecycleMounted, if_neg (happ ▸ hpos)]
    exact happ
  exact h.saveLifecycle (h.level.trans hsaved.ge) (fun _ => hsaved) hsaved.le

theorem publishWrites (env : Surroundings) (happ : generationOf app.lease = generation)
    (hpos : generation ≠ 0) :
    ∀ write ∈ publishWrites env app, ∀ s, Held generation generation s →
      Held generation generation (write s) := by
  intro write hwrite s hs
  simp only [Daemon.publishWrites, List.mem_cons, List.not_mem_nil, or_false] at hwrite
  rcases hwrite with rfl | rfl | rfl | rfl
  · exact hs.progress env _
  · exact hs.progress env _
  · exact hs.progress env _
  · exact hs.mark env happ hpos

theorem mountedWrites (env : Surroundings) (happ : generationOf app.lease = generation)
    (hpos : generation ≠ 0) (fault : Option StartFault) :
    ∀ write ∈ mountedWrites env app fault, ∀ s, Held generation generation s →
      Held generation generation (write s) := by
  intro write hwrite s hs
  cases fault with
  | none => exact publishWrites env happ hpos write hwrite s hs
  | some fault =>
    rcases List.mem_append.mp hwrite with hpublish | hlater
    · exact publishWrites env happ hpos write (List.mem_of_mem_take hpublish) s hs
    · rcases List.mem_append.mp hlater with hrelease | hfailed
      · exact release env happ.le (some .running) write hrelease s hs
      · obtain rfl := List.mem_singleton.mp hfailed
        exact hs.change env happ.le rfl (nomatch ·)

end Held

/-- Whatever the records say, they are held as they are. -/
theorem Ordered.held {s : Station} (h : Ordered s) :
    Held (generationOf s.lease) (max (lifecycleGeneration s.lifecycle) (generationOf s.lease)) s :=
  ⟨h, rfl, le_max_left _ _, fun _ => le_max_right _ _⟩

/-! ### Starts -/

/-- A daemon that mounts again under its own generation finds the record no further; one that
takes the lease over finds it no further than the generation it takes, and not mounted. -/
def Station.MayStart (s : Station) (d : Process) : Prop :=
  ∀ lifecycle ∈ s.lifecycle,
    if s.lease.any fun lease => sameHolder lease d then
      lifecycle.generation ≤ generationOf s.lease
    else lifecycle.generation ≤ generationOf s.lease + 1 ∧ lifecycle.phase ≠ .mounted

instance (s : Station) (d : Process) : Decidable (s.MayStart d) :=
  inferInstanceAs (Decidable (∀ lifecycle ∈ s.lifecycle,
    if s.lease.any fun lease => sameHolder lease d then
      lifecycle.generation ≤ generationOf s.lease
    else lifecycle.generation ≤ generationOf s.lease + 1 ∧ lifecycle.phase ≠ .mounted))

theorem Ordered.mount {s : Station} (h : Ordered s) (env : Surroundings) {d : Process} {host : Host}
    {generation : {g : ℕ // 0 < g}} (hverify : verifyOrTakeover host d s.lease = .ok generation)
    (hmay : s.MayStart d) :
    Held generation generation (s.mount ⟨d, some (markMounted d env.now generation)⟩) := by
  have hgeneration : if s.lease.any fun lease => sameHolder lease d then
      generation.1 = generationOf s.lease else generation.1 = generationOf s.lease + 1 := by
    split
    · rename_i hholder
      cases hlease : s.lease with
      | none =>
        rw [hlease] at hholder
        cases hholder
      | some lease =>
        rw [hlease] at hverify hholder
        exact verifyOrTakeover_holder hverify hholder
    · rename_i hother
      cases hlease : s.lease with
      | none =>
        rw [hlease] at hverify
        cases hverify
        rfl
      | some lease =>
        rw [hlease] at hverify hother
        exact lt_verifyOrTakeover hverify (Bool.eq_false_iff.mpr hother)
  have hlevel : lifecycleGeneration s.lifecycle ≤ generation := by
    cases hstored : s.lifecycle with
    | none => exact Nat.zero_le _
    | some lifecycle =>
      have hfound := hmay lifecycle hstored
      split at hfound
      · rename_i hholder
        rw [if_pos hholder] at hgeneration
        exact hfound.trans hgeneration.ge
      · rename_i hother
        rw [if_neg hother] at hgeneration
        exact hfound.1.trans hgeneration.ge
  have hgrown : generationOf s.lease ≤ generation := le_verifyOrTakeover hverify
  refine ⟨⟨h.grows, h.latest, ?_, ?_⟩, rfl, hlevel, fun _ => le_rfl⟩
  · intro lifecycle hstored hmounted
    have hfound := hmay lifecycle hstored
    split at hfound
    · rename_i hholder
      rw [if_pos hholder] at hgeneration
      exact (h.mounted lifecycle hstored hmounted).trans hgeneration.symm
    · exact absurd hmounted hfound.2
  · intro app happ
    rcases List.mem_append.mp happ with hold | hnew
    · exact (h.apps app hold).trans hgrown
    · rw [List.mem_singleton.mp hnew]
      exact le_rfl

/-- From the first write of a start on, the lease has its generation. -/
theorem Ordered.start {s : Station} (h : Ordered s) (env : Surroundings) {d : Process} {host : Host}
    {generation : {g : ℕ // 0 < g}} (hverify : verifyOrTakeover host d s.lease = .ok generation)
    (hmay : s.MayStart d) (fault : Option StartFault) :
    Along (Held generation generation) s (startWrites env d host fault s.lease) := by
  have hmount := h.mount env hverify hmay
  have happ : generationOf (App.mk d (some (markMounted d env.now generation))).lease =
    generation := rfl
  rw [startWrites, hverify]
  exact ⟨hmount, Along.of_forall hmount
    (Held.mountedWrites env happ generation.property.ne' fault)⟩

/-! ### Keeper iterations -/

/-- The record is not ahead of the lease. -/
def Station.Level (s : Station) : Prop :=
  lifecycleGeneration s.lifecycle ≤ generationOf s.lease

instance (s : Station) : Decidable s.Level := inferInstanceAs (Decidable (_ ≤ _))

namespace Iteration

/-- The daemon that is spawned gets as far as the lease. -/
def takesOver (it : Iteration) (stored : Option CcbdLease) : Bool :=
  (verifyOrTakeover it.childHost it.child stored).toBool && 0 < it.childWrites

/-- No iteration records a daemon that it finds as mounted, and none spawns one that takes the
lease over, after a spawn whose daemon did not get as far as the lease; no daemon takes over
with the pid of the holder, and the one that answers a spawn is the one that was spawned. -/
def Sound (it : Iteration) (s : Station) : Prop :=
  match it.branch s with
  | .backOff | .rest => True
  | .observe =>
    match it.probe with
    | .different => True
    | .same | .failed _ => s.Level
  | .restart => it.spawn.isSome →
      (it.takesOver s.lease = true →
        s.Level ∧ ∀ lease ∈ s.lease, sameHolder lease it.child = false) ∧
      (it.failure = none → it.takesOver s.lease = true)

instance (it : Iteration) (s : Station) : Decidable (it.Sound s) :=
  show Decidable (match it.branch s with
    | .backOff | .rest => True
    | .observe =>
      match it.probe with
      | .different => True
      | .same | .failed _ => s.Level
    | .restart => it.spawn.isSome →
        (it.takesOver s.lease = true →
          s.Level ∧ ∀ lease ∈ s.lease, sameHolder lease it.child = false) ∧
        (it.failure = none → it.takesOver s.lease = true)) from
  match it.branch s, it.probe with
  | .backOff, _ | .rest, _ | .observe, .different => inferInstanceAs (Decidable True)
  | .observe, .same | .observe, .failed _ => inferInstanceAs (Decidable s.Level)
  | .restart, _ => inferInstanceAs (Decidable (it.spawn.isSome →
      (it.takesOver s.lease = true →
        s.Level ∧ ∀ lease ∈ s.lease, sameHolder lease it.child = false) ∧
      (it.failure = none → it.takesOver s.lease = true)))

/-- A daemon that does not get as far as the lease writes nothing. -/
theorem childPart_eq_nil {it : Iteration} {stored : Option CcbdLease}
    (h : it.takesOver stored = false) : it.childPart stored = [] := by
  rw [takesOver, Bool.and_eq_false_iff] at h
  rw [childPart]
  rcases h with hrefused | hnone
  · cases hverify : verifyOrTakeover it.childHost it.child stored with
    | error message => rw [startWrites, hverify, List.take_nil]
    | ok generation =>
      rw [hverify] at hrefused
      cases hrefused
  · have hzero : it.childWrites = 0 := by simpa using hnone
    rw [hzero, List.take_zero]

theorem ensured_generation (it : Iteration) (s : Station) :
    (it.ensured s).1.generation = s.lifecycle.elim (generationOf s.lease)
      CcbdLifecycle.generation := by
  rw [ensured]
  cases s.lifecycle with
  | none =>
    rw [ensureProjectLifecycle, lifecycleFromInspection_generation, inspection, inspect_lease]
    rfl
  | some lifecycle =>
    rw [ensureProjectLifecycle]
    split <;> rfl

theorem ensured_level (it : Iteration) {s : Station} (h : s.Level) :
    (it.ensured s).1.generation ≤ generationOf (it.inspection s).lease := by
  rw [ensured_generation, inspection, inspect_lease]
  rw [Station.Level] at h
  cases hstored : s.lifecycle with
  | none => exact le_rfl
  | some lifecycle =>
    rw [hstored] at h
    exact h

/-- After `ensure_project_lifecycle` the record is the one the keeper goes on with. -/
theorem perform_ensureWrites (it : Iteration) (s : Station) :
    (s.perform (it.ensureWrites s)).lifecycle = some (it.ensured s).1 ∧
      (s.perform (it.ensureWrites s)).lease = s.lease ∧
      (s.perform (it.ensureWrites s)).apps = s.apps := by
  rw [ensureWrites]
  split
  · exact ⟨rfl, rfl, rfl⟩
  · rename_i hsaved
    refine ⟨?_, rfl, rfl⟩
    rw [ensured] at hsaved ⊢
    show s.lifecycle = _
    cases hstored : s.lifecycle with
    | none =>
      rw [hstored] at hsaved
      exact absurd rfl hsaved
    | some lifecycle =>
      rw [hstored, ensureProjectLifecycle] at hsaved
      rw [ensureProjectLifecycle]
      split
      · rfl
      · rename_i hother
        rw [if_neg hother] at hsaved
        exact absurd rfl hsaved

end Iteration

theorem withMountedLease_generation (env : Surroundings) (keeperPid : ℕ)
    {inspection : LeaseInspection} {lifecycle : CcbdLifecycle}
    (hlevel : lifecycle.generation ≤ generationOf inspection.lease) :
    (withMountedLease env keeperPid inspection lifecycle).generation =
      generationOf inspection.lease := by
  rw [withMountedLease]
  split
  · rename_i hzero
    exact Nat.le_antisymm hlevel (hzero ▸ Nat.zero_le _)
  · rfl

/-- A daemon that answers is recorded under the generation of its lease. -/
theorem reconcileConnectable_generation (env : Surroundings) (keeperPid : ℕ)
    {inspection : LeaseInspection} {probe : Probe} {lifecycle : CcbdLifecycle}
    (hlevel : match probe with
      | .different => True
      | .same | .failed _ => lifecycle.generation ≤ generationOf inspection.lease) :
    let saved := reconcileConnectable env keeperPid inspection probe lifecycle
    lifecycle.generation ≤ saved.generation ∧
      (saved.phase = .mounted → saved.generation = generationOf inspection.lease) := by
  intro saved
  cases probe with
  | different => exact ⟨le_rfl, (nomatch ·)⟩
  | same =>
    have hsaved : saved.generation = generationOf inspection.lease :=
      withMountedLease_generation env keeperPid hlevel
    exact ⟨hlevel.trans hsaved.ge, fun _ => hsaved⟩
  | failed reason =>
    have hmounted := withMountedLease_generation env keeperPid hlevel
    have hsaved : saved.phase = .failed ∧ saved.generation = lifecycle.generation ∨
        saved.generation = generationOf inspection.lease := by
      simp only [saved, reconcileConnectable, connectableFailure]
      split
      · exact .inl ⟨rfl, rfl⟩
      · split
        · exact .inr hmounted
        · exact .inr hmounted
    rcases hsaved with ⟨hphase, hsaved⟩ | hsaved
    · have hnot : saved.phase ≠ .mounted := by
        rw [hphase]
        decide
      exact ⟨hsaved.ge, fun h => absurd h hnot⟩
    · exact ⟨hlevel.trans hsaved.ge, fun _ => hsaved⟩

/-- A daemon that stops leaves the generations as they are. -/
theorem Held.stopped {generation bound : ℕ} {s : Station} (h : Held generation bound s)
    (env : Surroundings) (d : Process) (reason : String) :
    Along (Held generation bound) s (stopWrites env reason (s.app d)) := by
  cases happ : s.app d with
  | none => trivial
  | some app =>
    have hmem := List.mem_of_find?_eq_some happ
    exact Along.of_forall h (Held.stop env ((h.apps app hmem).trans h.lease.le) reason)

theorem Ordered.ensure {s : Station} (h : Ordered s) (it : Iteration) :
    Along Ordered s (it.ensureWrites s) := by
  rw [Iteration.ensureWrites]
  split
  · refine ⟨?_, trivial⟩
    have hgeneration := it.ensured_generation s
    cases hstored : s.lifecycle with
    | none =>
      rw [hstored] at hgeneration
      refine h.saveLifecycle ?_ fun _ => hgeneration
      rw [hstored]
      exact Nat.zero_le _
    | some lifecycle =>
      rw [hstored] at hgeneration
      refine h.saveLifecycle ?_ ?_
      · rw [hstored]
        exact hgeneration.ge
      · intro hmounted
        refine hgeneration.trans (h.mounted lifecycle hstored ?_)
        rw [Iteration.ensured, hstored, ensureProjectLifecycle] at hmounted
        split at hmounted
        · exact hmounted
        · exact hmounted
  · trivial

/-- A spawned daemon that gets as far as the lease takes the generation announced. -/
theorem Held.child {s : Station} {generation : ℕ} (h : Held generation (generation + 1) s)
    (it : Iteration) (hphase : ∀ lifecycle ∈ s.lifecycle, lifecycle.phase ≠ .mounted)
    (hchild : ∀ lease ∈ s.lease, sameHolder lease it.child = false)
    (htook : it.takesOver s.lease = true) :
    Along Ordered s (it.childPart s.lease) ∧
      Held (generation + 1) (generation + 1) (s.perform (it.childPart s.lease)) := by
  have hother : (s.lease.any fun lease => sameHolder lease it.child) = false := by
    cases hlease : s.lease with
    | none => rfl
    | some lease => exact hchild lease hlease
  have hmay : s.MayStart it.child := by
    intro lifecycle hstored
    have hlevel := h.level
    rw [Option.mem_def.mp hstored] at hlevel
    rw [hother, h.lease]
    exact ⟨hlevel, hphase lifecycle hstored⟩
  rw [Iteration.takesOver, Bool.and_eq_true] at htook
  rw [Iteration.childPart]
  cases hverify : verifyOrTakeover it.childHost it.child s.lease with
  | error message =>
    rw [hverify] at htook
    cases htook.1
  | ok mounted =>
    have hstart := h.toOrdered.start it.env hverify hmay it.childFault
    refine ⟨(hstart.mono fun _ => Held.toOrdered).take _, ?_⟩
    have hmounted : mounted.1 = generation + 1 := by
      have hlease := h.lease
      cases hstored : s.lease with
      | none =>
        rw [hstored] at hverify hlease
        cases hverify
        rw [← hlease]
        rfl
      | some lease =>
        rw [hstored] at hverify hlease
        rw [← hlease]
        exact lt_verifyOrTakeover hverify (hchild lease hstored)
    rw [hmounted] at hstart
    rw [startWrites, hverify] at hstart ⊢
    obtain ⟨n, hn⟩ := Nat.exists_eq_succ_of_ne_zero (of_decide_eq_true htook.2).ne'
    rw [hn]
    exact (hstart.2.take n).last hstart.1

theorem Ordered.spawn {s : Station} (h : Ordered s) (it : Iteration) {lifecycle : CcbdLifecycle}
    (hstored : s.lifecycle = some lifecycle) (hsound : it.spawn.isSome →
      (it.takesOver s.lease = true →
        s.Level ∧ ∀ lease ∈ s.lease, sameHolder lease it.child = false) ∧
      (it.failure = none → it.takesOver s.lease = true)) :
    Along Ordered s (spawnWrites it s.lease lifecycle) := by
  rw [spawnWrites]
  cases hspawn : it.spawn with
  | none => trivial
  | some spawn =>
    rw [hspawn] at hsound
    obtain ⟨htakes, hanswer⟩ := hsound rfl
    let starting := spawnStarting it.env it.projectId it.keeperPid spawn
      (inspect it.spawnHost s.lease) (some lifecycle)
    have hstarting : starting.generation =
        max lifecycle.generation (generationOf s.lease) + 1 := by
      show max lifecycle.generation (generationOf (inspect it.spawnHost s.lease).lease) + 1 = _
      rw [inspect_lease]
    have hgrows : lifecycleGeneration s.lifecycle ≤ starting.generation := by
      rw [hstarting, hstored]
      exact (le_max_left _ _).trans (Nat.le_succ _)
    have hannounced : Ordered (s.saveLifecycle starting) := h.saveLifecycle hgrows (nomatch ·)
    by_cases htook : it.takesOver s.lease = true
    · obtain ⟨hlevel, hchild⟩ := htakes htook
      have hnext : starting.generation = generationOf s.lease + 1 := by
        rw [Station.Level, hstored] at hlevel
        exact hstarting.trans (congrArg Nat.succ (max_eq_right hlevel))
      have hheld : Held (generationOf s.lease) (generationOf s.lease + 1)
          (s.saveLifecycle starting) := ⟨hannounced, rfl, hnext.le, nofun⟩
      obtain ⟨hpart, hmounted⟩ := hheld.child it
        (fun _ hsaved => by cases hsaved; exact (nomatch ·)) hchild htook
      refine Along.append ⟨hannounced, hpart⟩ ⟨?_, trivial⟩
      show Ordered (((s.saveLifecycle starting).perform (it.childPart s.lease)).saveLifecycle _)
      cases it.failure with
      | some reason =>
        exact hmounted.toOrdered.saveLifecycle (hmounted.level.trans hnext.ge) (nomatch ·)
      | none =>
        have hlease : generationOf ((s.saveLifecycle starting).perform
            (it.childPart s.lease)).lease = generationOf s.lease + 1 := hmounted.lease
        have hsaved : (spawnMounted it.env spawn starting
            ((s.saveLifecycle starting).perform (it.childPart s.lease)).lease).generation =
            generationOf s.lease + 1 := by
          rw [spawnMounted, hlease, if_neg (Nat.succ_ne_zero _)]
        exact hmounted.toOrdered.saveLifecycle (hmounted.level.trans hsaved.ge)
          fun _ => hsaved.trans hlease.symm
    · -- the spawn is announced, and then its failure is recorded
      rw [Iteration.childPart_eq_nil (by simpa using htook)]
      cases hfailure : it.failure with
      | none => exact absurd (hanswer hfailure) htook
      | some reason => exact ⟨hannounced, hannounced.saveLifecycle le_rfl (nomatch ·), trivial⟩

/-- `reconcile_once` keeps the records in order. -/
theorem Ordered.reconcile {s : Station} (h : Ordered s) {it : Iteration} (hsound : it.Sound s) :
    Along Ordered s (reconcileWrites it s) := by
  have hensure := h.ensure it
  have hafter := hensure.last h
  obtain ⟨hstored, hlease, happs⟩ := it.perform_ensureWrites s
  rw [Iteration.Sound] at hsound
  rw [reconcileWrites]
  cases hbranch : it.branch s with
  | backOff => trivial
  | rest => exact hensure
  | restart =>
    rw [hbranch] at hsound
    refine hensure.append ?_
    have hspawn := hafter.spawn it hstored
    rw [Station.Level, hlease, hstored] at hspawn
    refine hspawn fun hsome => ?_
    obtain ⟨htakes, hanswer⟩ := hsound hsome
    refine ⟨fun htook => ⟨?_, (htakes htook).2⟩, hanswer⟩
    have hensured := it.ensured_level (htakes htook).1
    rw [Iteration.inspection, inspect_lease] at hensured
    exact hensured
  | observe =>
    have hlevel : match it.probe with
        | .different => True
        | .same | .failed _ => (it.ensured s).1.generation ≤
            generationOf (it.inspection s).lease := by
      rw [hbranch] at hsound
      cases hprobe : it.probe with
      | different => trivial
      | same => exact it.ensured_level (by simpa [hprobe] using hsound)
      | failed reason => exact it.ensured_level (by simpa [hprobe] using hsound)
    have hheld : Held (generationOf s.lease) (it.ensured s).1.generation
        (s.perform (it.ensureWrites s)) :=
      ⟨hafter, by rw [hlease], by rw [hstored]; exact le_rfl, by rw [hstored]; exact nofun⟩
    have hpart : Along (Held (generationOf s.lease) (it.ensured s).1.generation)
        (s.perform (it.ensureWrites s)) (it.stoppedPart s) := by
      rw [Iteration.stoppedPart]
      cases it.probe with
      | different =>
        have happ : s.app it.stopped.1 = (s.perform (it.ensureWrites s)).app it.stopped.1 := by
          rw [Station.app, Station.app, happs]
        rw [happ]
        exact (hheld.stopped it.env it.stopped.1 "stop_all").take _
      | same => trivial
      | failed reason => trivial
    have hend := hpart.last hheld
    obtain ⟨hgrows, hmounted⟩ := reconcileConnectable_generation it.env it.keeperPid hlevel
    rw [Iteration.inspection, inspect_lease] at hmounted
    refine (hensure.append (hpart.mono fun _ => Held.toOrdered)).append ⟨?_, trivial⟩
    rw [Station.perform, List.foldl_append]
    exact hend.toOrdered.saveLifecycle (hend.level.trans hgrows) fun hphase =>
      (hmounted hphase).trans hend.lease.symm

/-! ### Runs -/

namespace Sequential

/-- What an act may find. -/
def Act.Sound (s : Station) : Act → Prop
  | .reconcile it => it.Sound s
  | .start _ d host _ => (verifyOrTakeover host d s.lease).toBool = true → s.MayStart d
  | .request _ _ _ | .heartbeat _ _ _ | .stop _ _ _ | .leave _ _ _ => True

/-- Each act of the run finds what it may find. -/
def AllSound (s : Station) : List (Act × ℕ) → Prop
  | [] => True
  | act :: rest => act.1.Sound s ∧ AllSound (step s act) rest

theorem Act.ordered {s : Station} (h : Ordered s) {act : Act} (hsound : act.Sound s) :
    Along Ordered s (act.writes s) := by
  cases act with
  | request env projectId host =>
    refine ⟨?_, trivial⟩
    cases hstored : s.lifecycle with
    | none =>
      have hsaved : (recordRunningIntent env projectId (inspect host s.lease) none).generation =
          generationOf s.lease := by
        rw [recordRunningIntent, Option.getD_none, lifecycleFromInspection_generation,
          inspect_lease]
      rw [Station.change, hstored]
      refine h.saveLifecycle ?_ fun _ => hsaved
      rw [hstored]
      exact Nat.zero_le _
    | some lifecycle =>
      rw [Station.change, hstored]
      refine h.saveLifecycle ?_ (h.mounted lifecycle hstored)
      rw [hstored]
      exact le_rfl
  | reconcile it => exact h.reconcile hsound
  | start env d host fault =>
    cases hverify : verifyOrTakeover host d s.lease with
    | error message =>
      rw [writes, startWrites, hverify]
      trivial
    | ok generation =>
      have hmay := hsound (by rw [hverify]; rfl)
      exact (h.start env hverify hmay fault).mono fun _ => Held.toOrdered
  | heartbeat env d failures =>
    have hwritten := h.held.writeLease d (.refreshHeartbeat env.now)
    refine ⟨hwritten.toOrdered, (hwritten.changeIf fun saved hsaved => ?_).toOrdered, trivial⟩
    obtain ⟨loaded, hloaded, _, reason, _, rfl⟩ := recordHeartbeatFailures_saved hsaved
    exact ⟨loaded, hloaded, rfl, rfl⟩
  | stop env d reason => exact (h.held.stopped env d reason).mono fun _ => Held.toOrdered
  | leave env d desiredState =>
    rw [writes]
    cases happ : s.app d with
    | none => trivial
    | some app =>
      have hmem := List.mem_of_find?_eq_some happ
      exact (Along.of_forall h.held (Held.release env (h.apps app hmem) desiredState)).mono
        fun _ => Held.toOrdered

theorem step_ordered {s : Station} (h : Ordered s) {act : Act × ℕ} (hsound : act.1.Sound s) :
    Ordered (step s act) :=
  ((Act.ordered h hsound).take act.2).last h

theorem run_ordered {s : Station} (h : Ordered s) {acts : List (Act × ℕ)}
    (hsound : AllSound s acts) :
    Ordered (run s acts) := by
  induction acts generalizing s with
  | nil => exact h
  | cons act rest ih => exact ih (step_ordered h hsound.1) hsound.2

instance (s : Station) : DecidablePred fun act : Act => act.Sound s
  | .reconcile it => inferInstanceAs (Decidable (it.Sound s))
  | .start _ d host _ =>
    inferInstanceAs (Decidable ((verifyOrTakeover host d s.lease).toBool = true → s.MayStart d))
  | .request _ _ _ | .heartbeat _ _ _ | .stop _ _ _ | .leave _ _ _ =>
    inferInstanceAs (Decidable True)

instance decidableAllSound (s : Station) (acts : List (Act × ℕ)) : Decidable (AllSound s acts) :=
  match acts with
  | [] => inferInstanceAs (Decidable True)
  | act :: rest =>
    have := decidableAllSound (step s act) rest
    inferInstanceAs (Decidable (_ ∧ _))

/-- The recorded generation never decreases, and a mounted record has the generation of the
mounted lease, in every run in which no daemon takes the lease over, and none is recorded as
mounted, after a spawn that did not get as far as the lease. -/
theorem recorded_generations {acts : List (Act × ℕ)} (h : AllSound Station.fresh acts) :
    let s := run Station.fresh acts
    (s.saves.map CcbdLifecycle.generation).Pairwise (· ≤ ·) ∧
      ∀ lifecycle ∈ s.lifecycle, lifecycle.phase = .mounted → ∀ lease ∈ s.lease,
        lease.mountState = .mounted → lifecycle.generation = lease.generation := by
  have hordered := run_ordered Ordered.fresh h
  refine ⟨hordered.grows, fun lifecycle hstored hphase lease hlease _ => ?_⟩
  have hmounted := hordered.mounted lifecycle hstored hphase
  rw [Option.mem_def.mp hlease] at hmounted
  exact hmounted

end Sequential

namespace Sample

def surroundings (now : String) : Surroundings :=
  ⟨now, fun _ => some 7, some 1, some "sig", "/run/ccbd.sock"⟩

/-- A keeper iteration on a project for which nothing answers; the daemon it spawns makes so many
writes. -/
def spawning (now : String) (child : Process) (childWrites : ℕ) (failure : Option String) :
    Iteration where
  env := surroundings now
  projectId := "proj-1"
  keeperPid := 50
  host := deadHost
  backoff := false
  probe := .same
  stopped := (child, 0)
  spawn := some ⟨"sig", "startup-" ++ now, "deadline-" ++ now⟩
  spawnHost := deadHost
  child := child
  childHost := deadHost
  childFault := none
  childWrites := childWrites
  failure := failure

end Sample

namespace Sequential

open Sample in
theorem recorded_generations_restart :
    let s := run Station.fresh [(.request (surroundings "t0") "proj-1" deadHost, 1),
      (.reconcile (spawning "t1" first 5 none), 8),
      (.stop (surroundings "t2") first "kill", 3),
      (.request (surroundings "t3") "proj-1" deadHost, 1),
      (.reconcile (spawning "t4" second 5 none), 8)]
    (s.saves.map CcbdLifecycle.generation).Pairwise (· ≤ ·) ∧
      ∀ lifecycle ∈ s.lifecycle, lifecycle.phase = .mounted → ∀ lease ∈ s.lease,
        lease.mountState = .mounted → lifecycle.generation = lease.generation :=
  recorded_generations (by decide +kernel)

open Sample in
/-- The first daemon exits before it gets as far as the lease, so the record is a generation ahead
when the second one mounts it. -/
theorem recorded_generation_decreases :
    ¬ ((run Station.fresh [(.request (surroundings "t0") "proj-1" deadHost, 1),
      (.reconcile (spawning "t1" first 0 (some "ccbd exited before ready with code 1")), 3),
      (.reconcile (spawning "t2" second 5 none), 7)]).saves.map
        CcbdLifecycle.generation).Pairwise (· ≤ ·) := by
  decide +kernel

end Sequential

end CodexBridge.Daemon
