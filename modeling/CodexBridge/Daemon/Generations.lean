import CodexBridge.Daemon.Lease

/-! Daemons of one project, one after the other. A daemon that starts mounts the lease
under the generation the guard gives it, rewrites it while it runs, and leaves it
behind when it crashes. A generation stands for one daemon as long as no daemon starts
under the pid and the socket of another one. -/

namespace CodexBridge.Daemon

/-! ### Runs -/

/-- The stored lease, and every lease that was saved as a mounted one. -/
structure Project where
  lease : Option CcbdLease
  mounted : List CcbdLease

def Project.save (s : Project) (lease : CcbdLease) : Project where
  lease := some lease
  mounted := if lease.mountState = .mounted then s.mounted ++ [lease] else s.mounted

/-- A daemon that starts may fail after it has mounted, and unmounts again then. -/
inductive Act where
  | start (d : Process) (host : Host) (now : String)
  | write (d : Process) (w : Write)
  | crash (d : Process)

def Act.apply (s : Project) : Act → Project
  | .start d host now =>
    match verifyOrTakeover host d s.lease with
    | .error _ => s
    | .ok generation => s.save (markMounted d now generation)
  | .write d w =>
    match w.outcome d s.lease with
    | .saved lease => s.save lease
    | .raised _ | .returned _ => s
  | .crash _ => s

def Project.run (s : Project) (acts : List Act) : Project := acts.foldl Act.apply s

/-- A project that no daemon has run for. -/
def Project.fresh : Project := ⟨none, []⟩

/-- The daemon does not start under the pid and the socket of another daemon's lease. -/
def Act.Distinct (s : Project) : Act → Prop
  | .start d _ _ => ∀ lease ∈ s.lease, sameHolder lease d = true →
      lease.daemonInstanceId = some d.instanceId
  | .write _ _ | .crash _ => True

/-- No daemon of the run starts under the pid and the socket of another one's lease. -/
def AllDistinct (s : Project) : List Act → Prop
  | [] => True
  | a :: rest => a.Distinct s ∧ AllDistinct (a.apply s) rest

instance (s : Project) : DecidablePred fun a : Act => a.Distinct s
  | .start d _ _ => inferInstanceAs (Decidable (∀ lease ∈ s.lease, sameHolder lease d = true →
      lease.daemonInstanceId = some d.instanceId))
  | .write _ _ | .crash _ => inferInstanceAs (Decidable True)

instance decidableAllDistinct (s : Project) (acts : List Act) : Decidable (AllDistinct s acts) :=
  match acts with
  | [] => inferInstanceAs (Decidable True)
  | a :: rest =>
    have := decidableAllDistinct (a.apply s) rest
    inferInstanceAs (Decidable (_ ∧ _))

/-! ### Generations only grow -/

theorem Act.generation_le (s : Project) (a : Act) :
    generationOf s.lease ≤ generationOf (a.apply s).lease := by
  cases a with
  | start d host now =>
    rw [apply]
    split
    · exact le_rfl
    · rename_i generation hverify
      exact le_verifyOrTakeover hverify
  | write d w =>
    rw [apply]
    split
    · rename_i saved hsaved
      obtain ⟨loaded, hloaded, hrewrites, -⟩ := w.saved hsaved
      rw [hloaded]
      exact hrewrites.generation.ge
    · exact le_rfl
    · exact le_rfl
  | crash d => exact le_rfl

theorem Project.generation_le (s : Project) (acts : List Act) :
    generationOf s.lease ≤ generationOf (s.run acts).lease := by
  induction acts generalizing s with
  | nil => exact le_rfl
  | cons a rest ih => exact (a.generation_le s).trans (ih (a.apply s))

/-! ### One daemon for each generation -/

/-- The mounted leases come before the stored one; those of its generation are its daemon's,
and no generation has two daemons. -/
structure Project.Unique (s : Project) : Prop where
  before : ∀ m ∈ s.mounted, ∃ lease, s.lease = some lease ∧ m.generation ≤ lease.generation ∧
    (m.generation = lease.generation → m.daemonInstanceId = lease.daemonInstanceId)
  alone : ∀ m ∈ s.mounted, ∀ m' ∈ s.mounted, m.generation = m'.generation →
    m.daemonInstanceId = m'.daemonInstanceId

theorem Project.Unique.fresh : Project.fresh.Unique where
  before _ hm := absurd hm List.not_mem_nil
  alone _ hm := absurd hm List.not_mem_nil

/-- A lease that every earlier one comes before may be saved. -/
theorem Project.Unique.save {s : Project} (h : s.Unique) {lease : CcbdLease}
    (hlease : ∀ m ∈ s.mounted, m.generation ≤ lease.generation ∧
      (m.generation = lease.generation → m.daemonInstanceId = lease.daemonInstanceId)) :
    (s.save lease).Unique := by
  have hmem : ∀ m ∈ (s.save lease).mounted, m ∈ s.mounted ∨ m = lease := by
    intro m hm
    rw [Project.save] at hm
    split at hm
    · simpa using hm
    · exact .inl hm
  constructor
  · intro m hm
    refine ⟨lease, rfl, ?_⟩
    obtain hold | rfl := hmem m hm
    · exact hlease m hold
    · exact ⟨le_rfl, fun _ => rfl⟩
  · intro m hm m' hm' hsame
    obtain hold | rfl := hmem m hm
    · obtain hold' | rfl := hmem m' hm'
      · exact h.alone m hold m' hold' hsame
      · exact (hlease m hold).2 hsame
    · obtain hold' | rfl := hmem m' hm'
      · exact ((hlease m' hold').2 hsame.symm).symm
      · rfl

theorem Act.unique {s : Project} (h : s.Unique) {a : Act} (hdistinct : a.Distinct s) :
    (a.apply s).Unique := by
  cases a with
  | crash d => exact h
  | write d w =>
    rw [apply]
    split
    · rename_i saved hsaved
      obtain ⟨loaded, hloaded, hrewrites, -⟩ := w.saved hsaved
      refine h.save fun m hm => ?_
      obtain ⟨lease, hlease, hle, hsame⟩ := h.before m hm
      rw [hloaded, Option.some_inj] at hlease
      subst hlease
      rw [hrewrites.generation, hrewrites.instanceId]
      exact ⟨hle, hsame⟩
    · exact h
    · exact h
  | start d host now =>
    rw [apply]
    split
    · exact h
    · rename_i generation hverify
      have hclean : cleanText d.instanceId = some d.instanceId := by
        rw [cleanText, d.instance_clean.1, if_neg d.instance_clean.2]
      refine h.save fun m hm => ?_
      obtain ⟨lease, hlease, hle, hsame⟩ := h.before m hm
      rw [hlease] at hverify
      have hgeneration : (markMounted d now generation).generation = generation := rfl
      rw [hgeneration]
      cases hholder : sameHolder lease d with
      | true =>
        -- the daemon itself, which has kept its instance id
        have hinstance := hdistinct lease hlease hholder
        have hle' := le_verifyOrTakeover hverify
        refine ⟨hle.trans hle', fun heq => ?_⟩
        have hsaved : (markMounted d now generation).daemonInstanceId = some d.instanceId :=
          hclean
        rw [hsaved, ← hinstance]
        exact hsame (le_antisymm hle (by rw [heq]; exact hle'))
      | false =>
        have hnext := lt_verifyOrTakeover hverify hholder
        rw [hnext]
        exact ⟨hle.trans (Nat.le_succ _), fun heq => by omega⟩

theorem Project.Unique.run {s : Project} (h : s.Unique) {acts : List Act}
    (hdistinct : AllDistinct s acts) : (s.run acts).Unique := by
  induction acts generalizing s with
  | nil => exact h
  | cons a rest ih => exact ih (a.unique h hdistinct.1) hdistinct.2

/-- As long as no daemon starts under the pid and the socket of another one's lease, two
daemons never write a mounted lease of one generation; and the stored generation never
goes back. -/
theorem generations_unique (first rest : List Act)
    (h : AllDistinct Project.fresh (first ++ rest)) :
    (∀ m ∈ (Project.fresh.run (first ++ rest)).mounted,
      ∀ m' ∈ (Project.fresh.run (first ++ rest)).mounted,
        m.daemonInstanceId ≠ m'.daemonInstanceId → m.generation ≠ m'.generation) ∧
      generationOf (Project.fresh.run first).lease ≤
        generationOf (Project.fresh.run (first ++ rest)).lease := by
  constructor
  · intro m hm m' hm' hne hsame
    exact hne ((Project.Unique.fresh.run h).alone m hm m' hm' hsame)
  · have hrun : Project.fresh.run (first ++ rest) = (Project.fresh.run first).run rest :=
      List.foldl_append
    rw [hrun]
    exact Project.generation_le _ rest

namespace Sample

def process (pid : ℕ) (instanceId : String) (hpid : 0 < pid)
    (h : strip instanceId = instanceId ∧ instanceId ≠ "") : Process :=
  ⟨"proj-1", pid, "/run/ccbd.sock", instanceId, "sig", none, hpid, h⟩

/-- Nothing answers. -/
def deadHost : Host := ⟨fun _ => false, fun _ => false, fun _ => none⟩

def first : Process := process 100 "daemon-a" (by decide) (by decide)
def second : Process := process 200 "daemon-b" (by decide) (by decide)

/-- A later daemon to which the system has given the pid of the first one. -/
def reused : Process := process 100 "daemon-b" (by decide) (by decide)

end Sample

open Sample in
theorem generations_unique_takeover :
    (∀ m ∈ (Project.fresh.run [.start first deadHost "t0", .crash first,
        .start second deadHost "t1"]).mounted,
      ∀ m' ∈ (Project.fresh.run [.start first deadHost "t0", .crash first,
        .start second deadHost "t1"]).mounted,
        m.daemonInstanceId ≠ m'.daemonInstanceId → m.generation ≠ m'.generation) ∧
      generationOf (Project.fresh.run [.start first deadHost "t0"]).lease ≤
        generationOf (Project.fresh.run [.start first deadHost "t0", .crash first,
          .start second deadHost "t1"]).lease :=
  generations_unique [.start first deadHost "t0"] [.crash first, .start second deadHost "t1"]
    (by decide +kernel)

open Sample in
/-- A daemon that is given the pid of a crashed one takes its lease for its own. -/
theorem generation_shared :
    let s := Project.fresh.run
      [.start first deadHost "t0", .crash first, .start reused deadHost "t1"]
    ∃ m ∈ s.mounted, ∃ m' ∈ s.mounted,
      m.daemonInstanceId ≠ m'.daemonInstanceId ∧ m.generation = m'.generation := by
  decide +kernel

end CodexBridge.Daemon
