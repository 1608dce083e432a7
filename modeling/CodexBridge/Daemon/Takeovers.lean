import CodexBridge.Daemon.Generations

/-! Daemons of one project at the same time. Every write loads the lease, checks it and
saves it in two steps, and so does a takeover, under the startup lock; the steps of
different threads interleave freely. A write that no takeover falls into leaves holder
and generation alone. -/

namespace CodexBridge.Daemon

variable {ι : Type}

/-! ### Steps -/

/-- What a thread has loaded and is about to save. -/
inductive Pending where
  | idle
  | writing (lease : CcbdLease)
  | mounting (generation : {g : ℕ // 0 < g})

def Pending.isWriting : Pending → Bool
  | .writing _ => true
  | .idle | .mounting _ => false

/-- The lease file, the startup lock and the threads of the daemons. -/
structure Shared (ι : Type) where
  lease : Option CcbdLease
  lock : Option ι
  pending : ι → Pending

inductive Move (ι : Type) where
  | load (i : ι) (w : Write)
  | save (i : ι)
  | verify (i : ι) (host : Host)
  | mount (i : ι) (now : String)
  | crash (i : ι)

section Steps

variable [DecidableEq ι]

/-- A thread belongs to a daemon. -/
def Move.apply (daemon : ι → Process) (s : Shared ι) : Move ι → Shared ι
  | .load i w =>
    match s.pending i, w.outcome (daemon i) s.lease with
    | .idle, .saved lease => { s with pending := Function.update s.pending i (.writing lease) }
    | _, _ => s
  | .save i =>
    match s.pending i with
    | .writing lease =>
      { s with lease := some lease, pending := Function.update s.pending i .idle }
    | _ => s
  | .verify i host =>
    match s.lock, s.pending i, verifyOrTakeover host (daemon i) s.lease with
    | none, .idle, .ok generation =>
      { s with
        lock := some i
        pending := Function.update s.pending i (.mounting generation) }
    | _, _, _ => s
  | .mount i now =>
    match s.pending i with
    | .mounting generation =>
      { lease := some (markMounted (daemon i) now generation)
        lock := none
        pending := Function.update s.pending i .idle }
    | _ => s
  | .crash i =>
    { s with
      lock := if s.lock = some i then none else s.lock
      pending := Function.update s.pending i .idle }

def Shared.run (daemon : ι → Process) (s : Shared ι) (moves : List (Move ι)) : Shared ι :=
  moves.foldl (Move.apply daemon) s

end Steps

/-- Nothing is under way. -/
def Shared.quiet (lease : Option CcbdLease) : Shared ι := ⟨lease, none, fun _ => .idle⟩

/-- The threads whose last load a mount of the lease has followed. -/
def Move.overtaken [DecidableEq ι] (s : Shared ι) (late : ι → Bool) : Move ι → ι → Bool
  | .load i _ =>
    match s.pending i with
    | .idle => Function.update late i false
    | .writing _ | .mounting _ => late
  | .mount i _ =>
    match s.pending i with
    | .mounting _ => fun _ => true
    | .idle | .writing _ => late
  | .save _ | .verify _ _ | .crash _ => late

/-- The lease has not been mounted between the load and the save of a write. -/
def Move.Apart (s : Shared ι) (late : ι → Bool) : Move ι → Prop
  | .save i => (s.pending i).isWriting = true → late i = false
  | .load _ _ | .verify _ _ | .mount _ _ | .crash _ => True

/-- Every save of the run is apart from the mounts. -/
def AllApart [DecidableEq ι] (daemon : ι → Process) (s : Shared ι) (late : ι → Bool) :
    List (Move ι) → Prop
  | [] => True
  | m :: rest => m.Apart s late ∧ AllApart daemon (m.apply daemon s) (m.overtaken s late) rest

/-! ### Writes that nothing falls into -/

/-- Who holds the lease, and under which generation. -/
def holderOf (stored : Option CcbdLease) : Option (ℕ × Option String × ℕ) :=
  stored.map fun lease => (lease.ccbdPid, lease.daemonInstanceId, lease.generation)

theorem generationOf_eq_of_holderOf {stored stored' : Option CcbdLease}
    (h : holderOf stored = holderOf stored') : generationOf stored = generationOf stored' := by
  have hgeneration : ∀ stored, generationOf stored =
      ((holderOf stored).map fun h => h.2.2).getD 0 := by
    intro stored
    cases stored <;> rfl
  rw [hgeneration, h, ← hgeneration]

/-- A lease that no mount has overtaken has the holder of the stored one, and a daemon about to
mount holds the lock and a generation that is not before the stored one. -/
structure Shared.Serial (s : Shared ι) (late : ι → Bool) : Prop where
  writing : ∀ i lease, s.pending i = .writing lease → late i = false →
    holderOf (some lease) = holderOf s.lease
  mounting : ∀ i generation, s.pending i = .mounting generation →
    s.lock = some i ∧ generationOf s.lease ≤ generation

theorem Shared.Serial.quiet (lease : Option CcbdLease) (late : ι → Bool) :
    (Shared.quiet lease : Shared ι).Serial late where
  writing i lease h := by cases h
  mounting i generation h := by cases h

/-- What a step does to the lease. -/
structure Kept (s s' : Shared ι) (m : Move ι) : Prop where
  generation : generationOf s.lease ≤ generationOf s'.lease
  holder : (∀ i now, m ≠ .mount i now) → holderOf s'.lease = holderOf s.lease

theorem Kept.refl (s : Shared ι) (m : Move ι) : Kept s s m := ⟨le_rfl, fun _ => rfl⟩

theorem Kept.of_holder {s s' : Shared ι} (m : Move ι) (h : holderOf s'.lease = holderOf s.lease) :
    Kept s s' m := ⟨(generationOf_eq_of_holderOf h).ge, fun _ => h⟩

variable [DecidableEq ι] {s : Shared ι} {late : ι → Bool}

/-- A thread that has nothing under way any more. -/
theorem Shared.Serial.settle (h : s.Serial late) (i : ι) {lease : Option CcbdLease}
    (hlease : holderOf lease = holderOf s.lease) {lock : Option ι}
    (hlock : ∀ j, j ≠ i → s.lock = some j → lock = some j) :
    Shared.Serial ⟨lease, lock, Function.update s.pending i .idle⟩ late := by
  constructor
  · intro j updated hj hontime
    by_cases hji : j = i
    · subst hji
      simp at hj
    · simp only [Function.update_of_ne hji] at hj
      rw [h.writing j updated hj hontime, hlease]
  · intro j generation hj
    by_cases hji : j = i
    · subst hji
      simp at hj
    · simp only [Function.update_of_ne hji] at hj
      obtain ⟨hmine, hle⟩ := h.mounting j generation hj
      refine ⟨hlock j hji hmine, ?_⟩
      rwa [generationOf_eq_of_holderOf hlease]

/-- A thread that loads the lease has not been overtaken, and it was not writing. -/
theorem Shared.Serial.load (h : s.Serial late) (i : ι) (w : Write) :
    s.Serial (Move.overtaken s late (.load i w)) := by
  refine ⟨fun j lease hj hontime => h.writing j lease hj ?_, h.mounting⟩
  rw [Move.overtaken] at hontime
  cases hpending : s.pending i with
  | idle =>
    have hji : j ≠ i := by
      rintro rfl
      rw [hpending] at hj
      cases hj
    simpa only [hpending, Function.update_of_ne hji] using hontime
  | writing lease => simpa only [hpending] using hontime
  | mounting generation => simpa only [hpending] using hontime

theorem Move.serial (daemon : ι → Process) (h : s.Serial late) {m : Move ι}
    (hapart : m.Apart s late) :
    (m.apply daemon s).Serial (m.overtaken s late) ∧ Kept s (m.apply daemon s) m := by
  cases m with
  | load i w =>
    have hloaded := h.load i w
    rw [apply]
    split
    · rename_i saved hidle hsaved
      obtain ⟨found, hfound, hrewrites, -⟩ := w.saved hsaved
      have hholder : holderOf (some saved) = holderOf s.lease := by
        rw [hfound]
        simp only [holderOf, Option.map_some, hrewrites.pid, hrewrites.instanceId,
          hrewrites.generation]
      refine ⟨⟨fun j lease hj hontime => ?_, fun j generation hj => ?_⟩, Kept.of_holder _ rfl⟩
      · by_cases hji : j = i
        · subst hji
          simp only [Function.update_self, Pending.writing.injEq] at hj
          rw [← hj, hholder]
        · simp only [Function.update_of_ne hji] at hj
          exact hloaded.writing j lease hj hontime
      · by_cases hji : j = i
        · subst hji
          simp at hj
        · simp only [Function.update_of_ne hji] at hj
          exact h.mounting j generation hj
    · exact ⟨hloaded, Kept.refl s _⟩
  | save i =>
    rw [apply]
    split
    · rename_i lease hlease
      have hholder := h.writing i lease hlease (hapart (by rw [hlease]; rfl))
      exact ⟨h.settle i hholder fun _ _ hlock => hlock, Kept.of_holder _ hholder⟩
    · exact ⟨h, Kept.refl s _⟩
  | verify i host =>
    rw [apply]
    split
    · rename_i generation hlock hidle hverify
      refine ⟨⟨fun j lease hj hontime => ?_, fun j g hj => ?_⟩, Kept.of_holder _ rfl⟩
      · by_cases hji : j = i
        · subst hji
          simp at hj
        · simp only [Function.update_of_ne hji] at hj
          exact h.writing j lease hj hontime
      · by_cases hji : j = i
        · subst hji
          simp only [Function.update_self, Pending.mounting.injEq] at hj
          subst hj
          exact ⟨rfl, le_verifyOrTakeover hverify⟩
        · simp only [Function.update_of_ne hji] at hj
          have hheld := (h.mounting j g hj).1
          rw [hlock] at hheld
          cases hheld
    · exact ⟨h, Kept.refl s _⟩
  | mount i now =>
    rw [apply, overtaken]
    cases hpending : s.pending i with
    | idle => exact ⟨h, Kept.refl s _⟩
    | writing lease => exact ⟨h, Kept.refl s _⟩
    | mounting generation =>
      obtain ⟨hlock, hle⟩ := h.mounting i generation hpending
      -- whoever has loaded the lease before is late from now on
      refine ⟨⟨fun j lease hj hontime => absurd hontime (by simp), fun j g hj => ?_⟩, hle,
        fun hne => absurd rfl (hne i now)⟩
      by_cases hji : j = i
      · subst hji
        simp at hj
      · simp only [Function.update_of_ne hji] at hj
        have hheld := (h.mounting j g hj).1
        rw [hlock, Option.some_inj] at hheld
        exact absurd hheld.symm hji
  | crash i =>
    refine ⟨h.settle i rfl fun j hji hlock => ?_, Kept.of_holder _ rfl⟩
    rw [if_neg]
    · exact hlock
    · rw [hlock, Option.some_inj]
      exact hji

/-- Before the last move of a run that keeps apart. -/
theorem Shared.Serial.run (daemon : ι → Process) (h : s.Serial late) {first : List (Move ι)}
    {m : Move ι} (hapart : AllApart daemon s late (first ++ [m])) :
    ∃ late', (s.run daemon first).Serial late' ∧ m.Apart (s.run daemon first) late' := by
  induction first generalizing s late with
  | nil => exact ⟨late, h, hapart.1⟩
  | cons before rest ih => exact ih (before.serial daemon h hapart.1).1 hapart.2

/-- As long as no write is saved after the lease has been mounted since its load, only a mount
changes who holds it, and the stored generation never goes back. -/
theorem fenced_of_apart (daemon : ι → Process) (stored : Option CcbdLease)
    (first : List (Move ι)) (m : Move ι)
    (h : AllApart daemon (Shared.quiet stored) (fun _ => false) (first ++ [m])) :
    let before := (Shared.quiet stored).run daemon first
    let after := (Shared.quiet stored).run daemon (first ++ [m])
    generationOf before.lease ≤ generationOf after.lease ∧
      ((∀ i now, m ≠ .mount i now) → holderOf after.lease = holderOf before.lease) := by
  intro before after
  obtain ⟨late, hserial, hlast⟩ := (Shared.Serial.quiet stored _).run daemon h
  have hkept := (m.serial daemon hserial hlast).2
  have hafter : after = m.apply daemon before := by
    simp only [after, before, Shared.run, List.foldl_append, List.foldl_cons, List.foldl_nil]
  rw [hafter]
  exact ⟨hkept.generation, hkept.holder⟩

namespace Sample

def pair : Bool → Process
  | false => first
  | true => second

/-- The old daemon lives, but its heartbeat is late and its socket does not answer. -/
def hungHost : Host := ⟨fun _ => true, fun _ => false, fun _ => some 121⟩

end Sample

open Sample in
theorem fenced_of_apart_heartbeat :
    let before := (Shared.quiet none).run pair [.verify false deadHost, .mount false "t0",
      .load false (.refreshHeartbeat "t1")]
    let after := (Shared.quiet none).run pair ([.verify false deadHost, .mount false "t0",
      .load false (.refreshHeartbeat "t1")] ++ [.save false])
    generationOf before.lease ≤ generationOf after.lease ∧
      ((∀ i now, Move.save false ≠ .mount i now) → holderOf after.lease = holderOf before.lease) :=
  fenced_of_apart pair none _ (.save false)
    ⟨trivial, trivial, trivial, fun _ => rfl, trivial⟩

open Sample in
/-- The heartbeat that the old daemon had begun puts its own lease back. -/
theorem fenced_fails_between :
    let moves : List (Move Bool) := [.verify false deadHost, .mount false "t0",
      .load false (.refreshHeartbeat "t1"), .verify true hungHost, .mount true "t2"]
    let before := (Shared.quiet none).run pair moves
    let after := (Shared.quiet none).run pair (moves ++ [.save false])
    holderOf before.lease = some (200, some "daemon-b", 2) ∧
      holderOf after.lease = some (100, some "daemon-a", 1) ∧
      generationOf after.lease < generationOf before.lease := by
  decide +kernel

end CodexBridge.Daemon
