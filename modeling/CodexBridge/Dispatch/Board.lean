import CodexBridge.Dispatch.Memory
import Mathlib.Logic.Relation

/-! The job board: the job log together with the queues and the active slots. The
board knows nothing of messages, mailboxes and edges; whatever the dispatcher
does to the log and to the memory is one of four moves, and the moves keep the
memory equal to what a restart would read back from the log. -/

namespace CodexBridge.Dispatch

open AppendLog

/-- The rows of one job differ in status and bookkeeping only. -/
structure SameJob (r r' : JobRecord) : Prop where
  jobId : r.jobId = r'.jobId
  agentName : r.agentName = r'.agentName
  request : r.request = r'.request
  providerOptions : r.providerOptions = r'.providerOptions

theorem SameJob.refl (r : JobRecord) : SameJob r r := ⟨rfl, rfl, rfl, rfl⟩

theorem SameJob.symm {r r' : JobRecord} (h : SameJob r r') : SameJob r' r :=
  ⟨h.jobId.symm, h.agentName.symm, h.request.symm, h.providerOptions.symm⟩

theorem SameJob.trans {r r' r'' : JobRecord} (h : SameJob r r') (h' : SameJob r' r'') :
    SameJob r r'' :=
  ⟨h.jobId.trans h'.jobId, h.agentName.trans h'.agentName, h.request.trans h'.request,
    h.providerOptions.trans h'.providerOptions⟩

/-- Waiting, then running, then ended. -/
def JobStatus.rank : JobStatus → ℕ
  | .accepted | .queued => 0
  | .running => 1
  | .completed | .cancelled | .failed | .incomplete => 2

/-- The statuses a later row of the job may have. -/
def JobStatus.precedes (old new : JobStatus) : Prop := old = new ∨ old.rank < new.rank

theorem JobStatus.precedes_trans {x y z : JobStatus} (h : x.precedes y) (h' : y.precedes z) :
    x.precedes z := by
  rcases h with rfl | h
  · exact h'
  · rcases h' with rfl | h'
    · exact .inr h
    · exact .inr (h.trans h')

theorem JobStatus.rank_of_pending {x : JobStatus} (h : x.pending = true) : x.rank = 0 := by
  cases x <;> simp_all [pending, rank]

theorem JobStatus.rank_of_terminal {x : JobStatus} (h : x.terminal = true) : x.rank = 2 := by
  cases x <;> simp_all [terminal, rank]

theorem JobStatus.rank_lt_of_live {x : JobStatus} (h : x.terminal = false) : x.rank < 2 := by
  cases x <;> simp_all [terminal, rank]

/-- An ended job keeps its status. -/
theorem JobStatus.eq_of_precedes {x y : JobStatus} (h : x.precedes y) (hx : x.terminal = true) :
    y = x := by
  rcases h with rfl | h
  · rfl
  · rw [rank_of_terminal hx] at h
    cases y <;> simp [rank] at h

theorem JobStatus.not_pending_of_terminal {x : JobStatus} (h : x.terminal = true) :
    x.pending = false := by
  cases x <;> simp_all [terminal, pending]

theorem JobStatus.running_of_live {x : JobStatus} (ht : x.terminal = false)
    (hp : x.pending = false) : x = .running := by
  cases x <;> simp_all [terminal, pending]

theorem JobStatus.not_terminal_of_pending {x : JobStatus} (h : x.pending = true) :
    x.terminal = false := by
  cases x <;> simp_all [terminal, pending]

/-! ### Moves -/

/-- A job leaves the active slot, and the queue as well if it may still be there. -/
def Memory.leave (m : Memory) (dequeue : Bool) (agentName : AgentName) (jobId : JobId) : Memory :=
  (if dequeue then m.removeQueued agentName jobId else m).clearActive agentName jobId

theorem Memory.queue_leave (m : Memory) (dequeue : Bool) (agentName a : AgentName)
    (jobId : JobId) :
    (m.leave dequeue agentName jobId).queue a =
      if dequeue = true ∧ a = agentName then (m.queue a).erase jobId else m.queue a := by
  have hclear : (m.leave dequeue agentName jobId).queue =
      (if dequeue then m.removeQueued agentName jobId else m).queue := by
    unfold leave clearActive
    split_ifs <;> rfl
  rw [hclear]
  cases dequeue with
  | true => by_cases ha : a = agentName <;> simp [removeQueued, ha]
  | false => simp

theorem Memory.active_leave (m : Memory) (dequeue : Bool) (agentName a : AgentName)
    (jobId : JobId) :
    (m.leave dequeue agentName jobId).active a =
      if a = agentName ∧ m.active a = some jobId then none else m.active a := by
  have hinner : (if dequeue then m.removeQueued agentName jobId else m).active = m.active := by
    cases dequeue <;> rfl
  unfold leave clearActive
  rw [hinner]
  by_cases ha : a = agentName
  · subst ha
    by_cases hact : m.active a = some jobId <;> simp [hact, hinner]
  · by_cases hact : m.active agentName = some jobId <;> simp [hact, ha, hinner]

structure Board where
  jobs : List JobRecord
  memory : Memory

namespace Board

def find (b : Board) (jobId : JobId) : Option JobRecord :=
  findLast (fun record => decide (record.jobId = jobId)) b.jobs

def listAgent (b : Board) (agentName : AgentName) : List JobRecord :=
  b.jobs.filter fun record => record.agentName = agentName

inductive Step (cfg : Config) : Board → Board → Prop
  | enter {b : Board} (job : JobRecord) (fresh : ∀ r ∈ b.jobs, r.jobId ≠ job.jobId)
      (pending : job.status.pending = true) (known : job.agentName ∈ cfg.agents) :
      Step cfg b ⟨b.jobs ++ [job], b.memory.enqueue job.agentName job.jobId⟩
  | start {b : Board} (agentName : AgentName) (current : JobRecord) (startedAt : Timestamp)
      (found : b.find current.jobId = some current)
      (queued : current.jobId ∈ b.memory.queue agentName)
      (free : b.memory.active agentName = none) :
      Step cfg b ⟨b.jobs ++ [{ current with status := .running, updatedAt := startedAt }],
        (b.memory.removeQueued agentName current.jobId).markActive current.agentName current.jobId⟩
  | finish {b : Board} (current terminal : JobRecord) (dequeue : Bool)
      (found : b.find current.jobId = some current) (live : current.status.terminal = false)
      (running : dequeue = false → current.status = .running) (same : SameJob terminal current)
      (ends : terminal.status.terminal = true) :
      Step cfg b ⟨b.jobs ++ [terminal],
        b.memory.leave dequeue terminal.agentName terminal.jobId⟩
  | touch {b : Board} (record current : JobRecord) (found : b.find record.jobId = some current)
      (same : SameJob record current) (status : record.status = current.status) :
      Step cfg b ⟨b.jobs ++ [record], b.memory⟩

/-! ### Pending identifiers -/

/-- The queue a restart reads from one agent's log. -/
def pendingIds (log : List JobRecord) : List JobId :=
  ((latest JobRecord.jobId log).filter fun record => record.status.pending).map JobRecord.jobId

theorem nodup_pendingIds (log : List JobRecord) : (pendingIds log).Nodup :=
  (nodup_latest log).sublist (List.filter_sublist.map _)

theorem mem_pendingIds {log : List JobRecord} {j : JobId} :
    j ∈ pendingIds log ↔
      ∃ r, findLast (fun record => decide (record.jobId = j)) log = some r ∧
        r.status.pending = true := by
  simp only [pendingIds, List.mem_map, List.mem_filter]
  constructor
  · rintro ⟨r, ⟨hr, hp⟩, rfl⟩
    exact ⟨r, findLast_key_some.mpr ⟨hr, rfl⟩, hp⟩
  · rintro ⟨r, hr, hp⟩
    obtain ⟨hmem, hid⟩ := findLast_key_some.mp hr
    exact ⟨r, ⟨hmem, hp⟩, hid⟩

theorem pendingIds_append_fresh {log : List JobRecord} {r : JobRecord}
    (fresh : ∀ x ∈ log, x.jobId ≠ r.jobId) (hr : r.status.pending = true) :
    pendingIds (log ++ [r]) = pendingIds log ++ [r.jobId] := by
  have hkey : r.jobId ∉ (latest JobRecord.jobId log).map JobRecord.jobId := by
    rw [mem_map_key_latest, List.mem_map]
    rintro ⟨x, hx, hid⟩
    exact fresh x hx hid
  simp [pendingIds, upsert_of_notMem hkey, hr]

/-- A row that is no longer pending takes its job out. -/
theorem pendingIds_append_left {log : List JobRecord} {r : JobRecord}
    (hr : r.status.pending = false) :
    pendingIds (log ++ [r]) = (pendingIds log).erase r.jobId := by
  rw [(nodup_pendingIds log).erase_eq_filter]
  simp only [pendingIds, latest_append]
  rw [filter_upsert_of_neg (nodup_latest log) hr, List.filter_map]
  congr 1
  apply List.filter_congr
  intro x _
  simp [bne, Bool.beq_eq_decide_eq]

theorem pendingIds_append_kept {log : List JobRecord} {r current : JobRecord}
    (hc : findLast (fun record => decide (record.jobId = r.jobId)) log = some current)
    (hs : r.status = current.status) : pendingIds (log ++ [r]) = pendingIds log := by
  by_cases hr : r.status.pending = true
  · have hold : ∀ x ∈ latest JobRecord.jobId log, x.jobId = r.jobId → x.status.pending = true := by
      intro x hx hid
      have hfind := findLast_key_some.mpr ⟨hx, hid⟩
      rw [hc] at hfind
      obtain rfl := Option.some.inj hfind
      exact hs ▸ hr
    obtain ⟨hmem, hid⟩ := findLast_key_some.mp hc
    have hkey : r.jobId ∈
        ((latest JobRecord.jobId log).filter fun record => record.status.pending).map
          JobRecord.jobId :=
      List.mem_map.mpr ⟨current, List.mem_filter.mpr ⟨hmem, hs ▸ hr⟩, hid⟩
    simp only [pendingIds, latest_append]
    rw [filter_upsert_of_pos (p := fun record : JobRecord => record.status.pending) hr hold,
      map_key_upsert_of_mem hkey]
  · have hr' : r.status.pending = false := by simpa using hr
    rw [pendingIds_append_left hr']
    apply List.erase_of_not_mem
    rw [mem_pendingIds]
    rintro ⟨x, hx, hp⟩
    rw [hc] at hx
    obtain rfl := Option.some.inj hx
    exact hr (hs ▸ hp)

/-! ### Consistency -/

/-- The memory is what the log says, and the log only moves jobs forward. -/
structure Consistent (cfg : Config) (b : Board) : Prop where
  known : ∀ r ∈ b.jobs, r.agentName ∈ cfg.agents
  same : ∀ r ∈ b.jobs, ∀ r' ∈ b.jobs, r.jobId = r'.jobId → SameJob r r'
  progress : b.jobs.Pairwise fun r r' => r.jobId = r'.jobId → r.status.precedes r'.status
  queue : ∀ a, b.memory.queue a = pendingIds (b.listAgent a)
  active : ∀ a j, b.memory.active a = some j ↔
    ∃ r, b.find j = some r ∧ r.agentName = a ∧ r.status = .running

variable {cfg : Config} {b b' : Board}

theorem find_mem {j : JobId} {r : JobRecord} (h : b.find j = some r) :
    r ∈ b.jobs ∧ r.jobId = j := by
  obtain ⟨hmem, hid⟩ := findLast_some h
  exact ⟨hmem, by simpa using hid⟩

/-- Looking a job up in the log of one agent. -/
theorem Consistent.find_listAgent (h : b.Consistent cfg) {a : AgentName} {j : JobId}
    {r : JobRecord} :
    findLast (fun record => decide (record.jobId = j)) (b.listAgent a) = some r ↔
      b.find j = some r ∧ r.agentName = a := by
  rw [listAgent, findLast_filter, Option.filter_eq_some_iff]
  · simp [find]
  · intro x hx y hy hxj hyj
    simp only [decide_eq_true_eq] at hxj hyj
    rw [(h.same x hx y hy (hxj.trans hyj.symm)).agentName]

theorem Consistent.mem_queue (h : b.Consistent cfg) {a : AgentName} {j : JobId} :
    j ∈ b.memory.queue a ↔
      ∃ r, b.find j = some r ∧ r.agentName = a ∧ r.status.pending = true := by
  rw [h.queue, mem_pendingIds]
  simp only [h.find_listAgent, and_assoc]

/-- An agent with a live job has work. -/
theorem Consistent.hasOutstanding (h : b.Consistent cfg) {j : JobId} {r : JobRecord}
    (found : b.find j = some r) (live : r.status.terminal = false) :
    b.memory.hasOutstanding r.agentName = true := by
  unfold Memory.hasOutstanding
  cases hp : r.status.pending with
  | true =>
    have hmem : j ∈ b.memory.queue r.agentName := h.mem_queue.mpr ⟨r, found, rfl, hp⟩
    simp [List.ne_nil_of_mem hmem]
  | false =>
    have hactive : b.memory.active r.agentName = some j :=
      (h.active _ _).mpr ⟨r, found, rfl, JobStatus.running_of_live live hp⟩
    simp [hactive]

/-- The latest row is the furthest one. -/
theorem Consistent.precedes_latest (h : b.Consistent cfg) {r current : JobRecord}
    (hr : r ∈ b.jobs) (hc : b.find r.jobId = some current) :
    r.status.precedes current.status := by
  rcases findLast_pairwise h.progress hc r hr (by simp) with rfl | hp
  · exact .inl rfl
  · exact hp (find_mem hc).2.symm

theorem find_append (jobs : List JobRecord) (m m' : Memory) (r : JobRecord) (j : JobId) :
    find ⟨jobs ++ [r], m'⟩ j = if r.jobId = j then some r else find ⟨jobs, m⟩ j := by
  simp [find]

theorem listAgent_append_self (jobs : List JobRecord) (m m' : Memory) (r : JobRecord) :
    listAgent ⟨jobs ++ [r], m'⟩ r.agentName = listAgent ⟨jobs, m⟩ r.agentName ++ [r] := by
  simp [listAgent]

theorem listAgent_append_of_ne (jobs : List JobRecord) (m m' : Memory) {r : JobRecord}
    {a : AgentName} (h : r.agentName ≠ a) :
    listAgent ⟨jobs ++ [r], m'⟩ a = listAgent ⟨jobs, m⟩ a := by
  simp [listAgent, h]

/-- An appended row of a job the log knows, or of a new one, keeps the log in order. -/
theorem Consistent.append_log (h : b.Consistent cfg) {r : JobRecord}
    (hr : ∀ current, b.find r.jobId = some current →
      SameJob r current ∧ current.status.precedes r.status) :
    (∀ x ∈ b.jobs ++ [r], ∀ y ∈ b.jobs ++ [r], x.jobId = y.jobId → SameJob x y) ∧
      (b.jobs ++ [r]).Pairwise fun x y => x.jobId = y.jobId → x.status.precedes y.status := by
  have hold : ∀ x ∈ b.jobs, x.jobId = r.jobId → SameJob x r ∧ x.status.precedes r.status := by
    intro x hx hid
    rcases hc : b.find r.jobId with _ | current
    · exact absurd (List.mem_map.mpr ⟨x, hx, hid⟩) (findLast_key_none.mp hc)
    · obtain ⟨hsame, hstatus⟩ := hr current hc
      obtain ⟨hmem, hcid⟩ := find_mem hc
      refine ⟨(h.same x hx current hmem (hid.trans hcid.symm)).trans hsame.symm, ?_⟩
      exact JobStatus.precedes_trans (h.precedes_latest hx (hid ▸ hc)) hstatus
  constructor
  · intro x hx y hy hid
    simp only [List.mem_append, List.mem_singleton] at hx hy
    rcases hx with hx | rfl
    · rcases hy with hy | rfl
      · exact h.same x hx y hy hid
      · exact (hold x hx hid).1
    · rcases hy with hy | rfl
      · exact (hold y hy hid.symm).1.symm
      · exact SameJob.refl _
  · rw [List.pairwise_append]
    refine ⟨h.progress, by simp, ?_⟩
    intro x hx y hy hid
    obtain rfl := List.mem_singleton.mp hy
    exact (hold x hx hid).2

theorem Consistent.enter (h : b.Consistent cfg) (job : JobRecord)
    (fresh : ∀ r ∈ b.jobs, r.jobId ≠ job.jobId) (pending : job.status.pending = true)
    (known : job.agentName ∈ cfg.agents) :
    Consistent cfg ⟨b.jobs ++ [job], b.memory.enqueue job.agentName job.jobId⟩ := by
  have hnone : b.find job.jobId = none :=
    findLast_none.mpr fun r hr => by simpa using fresh r hr
  obtain ⟨hsame, hprogress⟩ := h.append_log (r := job) (by simp [hnone])
  refine ⟨?_, hsame, hprogress, ?_, ?_⟩
  · intro r hr
    rcases List.mem_append.mp hr with hr | hr
    · exact h.known r hr
    · obtain rfl := List.mem_singleton.mp hr
      exact known
  · intro a
    by_cases ha : job.agentName = a
    · subst ha
      rw [listAgent_append_self _ b.memory, pendingIds_append_fresh _ pending]
      · simp [Memory.enqueue, h.queue, listAgent]
      · intro x hx
        exact fresh x (List.mem_of_mem_filter hx)
    · rw [listAgent_append_of_ne _ b.memory _ ha]
      simp [Memory.enqueue, Function.update_of_ne (Ne.symm ha), h.queue, listAgent]
  · intro a j
    rw [find_append _ b.memory]
    by_cases hj : job.jobId = j
    · subst hj
      have hactive : b.memory.active a ≠ some job.jobId := by
        rw [Ne, h.active, hnone]
        simp
      simp only [Memory.enqueue, hactive, false_iff, ↓reduceIte, not_exists, not_and]
      rintro r hr - hs
      obtain rfl := Option.some.inj hr
      simp [hs, JobStatus.pending] at pending
    · simpa [hj, Memory.enqueue] using h.active a j

/-- Every other job of the board is where it was. -/
theorem Consistent.start (h : b.Consistent cfg) (agentName : AgentName) (current : JobRecord)
    (startedAt : Timestamp) (found : b.find current.jobId = some current)
    (queued : current.jobId ∈ b.memory.queue agentName)
    (free : b.memory.active agentName = none) :
    Consistent cfg ⟨b.jobs ++ [{ current with status := .running, updatedAt := startedAt }],
      (b.memory.removeQueued agentName current.jobId).markActive current.agentName
        current.jobId⟩ := by
  obtain ⟨_, hfound, rfl, hpending⟩ := h.mem_queue.mp queued
  obtain rfl := Option.some.inj (found.symm.trans hfound)
  set running := { current with status := JobStatus.running, updatedAt := startedAt } with hrun
  have hid : running.jobId = current.jobId := rfl
  have hagent : running.agentName = current.agentName := rfl
  obtain ⟨hsame, hprogress⟩ := h.append_log (r := running) (by
    intro c hc
    obtain rfl := Option.some.inj (found.symm.trans hc)
    refine ⟨⟨rfl, rfl, rfl, rfl⟩, .inr ?_⟩
    rw [JobStatus.rank_of_pending hpending]
    exact Nat.one_pos)
  refine ⟨?_, hsame, hprogress, ?_, ?_⟩
  · intro r hr
    rcases List.mem_append.mp hr with hr | hr
    · exact h.known r hr
    · rw [List.mem_singleton.mp hr]
      exact h.known current (find_mem found).1
  · intro a
    by_cases ha : running.agentName = a
    · subst ha
      rw [listAgent_append_self _ b.memory, pendingIds_append_left (by rfl)]
      simp [Memory.markActive, Memory.removeQueued, h.queue, listAgent, hrun]
    · rw [listAgent_append_of_ne _ b.memory _ ha]
      simp only [Memory.markActive, Memory.removeQueued]
      rw [Function.update_of_ne (fun he => ha (hagent.trans he.symm)), h.queue]
  · intro a j
    rw [find_append _ b.memory]
    by_cases ha : a = current.agentName
    · subst ha
      simp only [Memory.markActive, Function.update_self, Option.some.injEq]
      constructor
      · rintro rfl
        exact ⟨running, by simp [hid], rfl, rfl⟩
      · rintro ⟨r, hr, hra, hs⟩
        split_ifs at hr with hj
        · exact hj
        · have := (h.active current.agentName j).mpr ⟨r, hr, hra, hs⟩
          rw [free] at this
          contradiction
    · simp only [Memory.markActive, Function.update_of_ne ha, Memory.removeQueued]
      rw [h.active]
      split_ifs with hj
      · subst hj
        constructor
        · rintro ⟨r, hr, hra, -⟩
          obtain rfl := Option.some.inj (found.symm.trans hr)
          exact absurd hra.symm ha
        · rintro ⟨r, hr, hra, -⟩
          obtain rfl := Option.some.inj hr
          exact absurd hra.symm ha
      · rfl

theorem Consistent.finish (h : b.Consistent cfg) (current terminal : JobRecord) (dequeue : Bool)
    (found : b.find current.jobId = some current) (live : current.status.terminal = false)
    (running : dequeue = false → current.status = .running) (same : SameJob terminal current)
    (ends : terminal.status.terminal = true) :
    Consistent cfg ⟨b.jobs ++ [terminal],
      b.memory.leave dequeue terminal.agentName terminal.jobId⟩ := by
  have hpending : terminal.status.pending = false := JobStatus.not_pending_of_terminal ends
  rw [← same.jobId] at found
  obtain ⟨hsame, hprogress⟩ := h.append_log (r := terminal) (by
    intro c hc
    obtain rfl := Option.some.inj (found.symm.trans hc)
    refine ⟨same, .inr ?_⟩
    rw [JobStatus.rank_of_terminal ends]
    exact JobStatus.rank_lt_of_live live)
  have hqueue : ∀ a, (b.memory.leave dequeue terminal.agentName terminal.jobId).queue a =
      if a = terminal.agentName then (b.memory.queue a).erase terminal.jobId
      else b.memory.queue a := by
    intro a
    rw [Memory.queue_leave]
    cases dequeue with
    | true => simp
    | false =>
      -- a running job is in no queue
      have hnot : terminal.jobId ∉ b.memory.queue a := by
        rw [h.mem_queue]
        rintro ⟨r, hr, -, hp⟩
        obtain rfl := Option.some.inj (found.symm.trans hr)
        rw [running rfl] at hp
        contradiction
      simp [List.erase_of_not_mem hnot]
  refine ⟨?_, hsame, hprogress, ?_, ?_⟩
  · intro r hr
    rcases List.mem_append.mp hr with hr | hr
    · exact h.known r hr
    · obtain rfl := List.mem_singleton.mp hr
      exact same.agentName ▸ h.known _ (find_mem found).1
  · intro a
    rw [hqueue a]
    by_cases ha : terminal.agentName = a
    · subst ha
      rw [listAgent_append_self _ b.memory, pendingIds_append_left hpending]
      simp [h.queue]
    · rw [listAgent_append_of_ne _ b.memory _ ha, if_neg (Ne.symm ha)]
      exact h.queue a
  · intro a j
    rw [Memory.active_leave, find_append _ b.memory]
    by_cases hj : terminal.jobId = j
    · subst hj
      constructor
      · intro hsome
        split_ifs at hsome with hclear
        obtain ⟨r, hr, hra, -⟩ := (h.active a _).mp hsome
        obtain rfl := Option.some.inj (found.symm.trans hr)
        exact absurd ⟨hra.symm.trans same.agentName.symm, hsome⟩ hclear
      · rintro ⟨r, hr, -, hs⟩
        rw [if_pos rfl] at hr
        obtain rfl := Option.some.inj hr
        simp [hs, JobStatus.terminal] at ends
    · rw [if_neg hj]
      split_ifs with hclear
      · constructor
        · intro hn
          contradiction
        · intro hr
          have hsome := (h.active a j).mpr hr
          rw [hclear.2] at hsome
          exact absurd (Option.some.inj hsome) hj
      · exact h.active a j

theorem Consistent.touch (h : b.Consistent cfg) (record current : JobRecord)
    (found : b.find record.jobId = some current) (same : SameJob record current)
    (status : record.status = current.status) :
    Consistent cfg ⟨b.jobs ++ [record], b.memory⟩ := by
  obtain ⟨hsame, hprogress⟩ := h.append_log (r := record) (by
    intro c hc
    obtain rfl := Option.some.inj (found.symm.trans hc)
    exact ⟨same, .inl status.symm⟩)
  refine ⟨?_, hsame, hprogress, ?_, ?_⟩
  · intro r hr
    rcases List.mem_append.mp hr with hr | hr
    · exact h.known r hr
    · obtain rfl := List.mem_singleton.mp hr
      exact same.agentName ▸ h.known _ (find_mem found).1
  · intro a
    by_cases ha : record.agentName = a
    · subst ha
      rw [listAgent_append_self _ b.memory,
        pendingIds_append_kept (h.find_listAgent.mpr ⟨found, same.agentName.symm⟩) status]
      exact h.queue _
    · rw [listAgent_append_of_ne _ b.memory _ ha]
      exact h.queue a
  · intro a j
    rw [h.active a j, find_append _ b.memory]
    split_ifs with hj
    · subst hj
      constructor
      · rintro ⟨r, hr, hra, hs⟩
        obtain rfl := Option.some.inj (found.symm.trans hr)
        exact ⟨record, rfl, same.agentName.trans hra, status.trans hs⟩
      · rintro ⟨r, hr, hra, hs⟩
        obtain rfl := Option.some.inj hr
        exact ⟨current, found, same.agentName.symm.trans hra, status.symm.trans hs⟩
    · rfl

theorem Step.consistent (step : Step cfg b b') (h : b.Consistent cfg) : b'.Consistent cfg := by
  cases step with
  | enter job fresh pending known => exact h.enter job fresh pending known
  | start agentName current startedAt found queued free =>
    exact h.start agentName current startedAt found queued free
  | finish current terminal dequeue found live running same ends =>
    exact h.finish current terminal dequeue found live running same ends
  | touch record current found same status => exact h.touch record current found same status

/-! ### Restart -/

theorem queue_restore (m : Memory) (r : JobRecord) (a : AgentName) :
    (m.restore r).queue a =
      m.queue a ++ (if r.agentName = a ∧ r.status.pending = true then [r.jobId] else []) := by
  unfold Memory.restore
  by_cases hrun : r.status = .running
  · simp [hrun, Memory.markActive, JobStatus.pending]
  · by_cases hp : r.status.pending = true
    · by_cases ha : r.agentName = a
      · simp [hrun, hp, ha, Memory.enqueue]
      · simp [hrun, hp, ha, Memory.enqueue, Function.update_of_ne (Ne.symm ha)]
    · simp [hrun, hp]

theorem queue_foldl_restore (rows : List JobRecord) (m : Memory) (a : AgentName) :
    (rows.foldl Memory.restore m).queue a = m.queue a ++
      (rows.filter fun r => r.agentName = a ∧ r.status.pending = true).map JobRecord.jobId := by
  induction rows generalizing m with
  | nil => simp
  | cons r rows ih =>
    rw [List.foldl_cons, ih, queue_restore]
    by_cases hr : r.agentName = a ∧ r.status.pending = true
    · simp [hr]
    · simp [hr]

theorem active_restore (m : Memory) (r : JobRecord) (a : AgentName) :
    (m.restore r).active a =
      if r.agentName = a ∧ r.status = .running then some r.jobId else m.active a := by
  unfold Memory.restore
  by_cases hrun : r.status = .running
  · by_cases ha : r.agentName = a
    · simp [hrun, ha, Memory.markActive]
    · simp [hrun, ha, Memory.markActive, Function.update_of_ne (Ne.symm ha)]
  · by_cases hp : r.status.pending = true
    · simp [hrun, hp, Memory.enqueue]
    · simp [hrun, hp]

theorem active_foldl_restore (rows : List JobRecord) (a : AgentName) :
    (rows.foldl Memory.restore Memory.empty).active a =
      (findLast (fun r => decide (r.agentName = a ∧ r.status = .running)) rows).map
        JobRecord.jobId := by
  induction rows using List.reverseRecOn with
  | nil => rfl
  | append_singleton rows r ih =>
    rw [List.foldl_append, List.foldl_cons, List.foldl_nil, active_restore, findLast_append, ih]
    by_cases hr : r.agentName = a ∧ r.status = .running
    · simp [hr]
    · simp [hr]

/-- Reading one agent's rows out of the rows of all agents. -/
theorem filter_flatMap_of_nodup {α : Type*} {agents : List AgentName} (hn : agents.Nodup)
    {f : AgentName → List α} {p : α → Bool} {a : AgentName} (ha : a ∈ agents)
    (hp : ∀ x, x ≠ a → (f x).filter p = []) :
    (agents.flatMap f).filter p = (f a).filter p := by
  induction agents with
  | nil => simp at ha
  | cons x xs ih =>
    rw [List.nodup_cons] at hn
    rw [List.flatMap_cons, List.filter_append]
    rcases List.mem_cons.mp ha with rfl | ha
    · have hrest : (xs.flatMap f).filter p = [] := by
        rw [List.filter_flatMap, List.flatMap_eq_nil_iff]
        intro y hy
        exact hp y fun he => hn.1 (he ▸ hy)
      rw [hrest, List.append_nil]
    · have hx : x ≠ a := fun he => hn.1 (he ▸ ha)
      rw [hp x hx, List.nil_append, ih hn.2 ha]

theorem rebuild_eq (b : Board) :
    Memory.rebuild b.listAgent cfg.agents =
      (cfg.agents.flatMap fun a => latest JobRecord.jobId (b.listAgent a)).foldl Memory.restore
        Memory.empty := by
  rw [Memory.rebuild, List.foldl_flatMap]

theorem latest_listAgent_agentName {a : AgentName} {r : JobRecord}
    (h : r ∈ latest JobRecord.jobId (b.listAgent a)) : r.agentName = a := by
  simpa using List.of_mem_filter (mem_of_mem_latest h)

theorem filter_latest_listAgent (b : Board) {a x : AgentName} (hx : x ≠ a)
    (p : JobRecord → Bool) :
    (latest JobRecord.jobId (b.listAgent x)).filter (fun r => decide (r.agentName = a) && p r) =
      [] := by
  rw [List.filter_eq_nil_iff]
  intro r hr
  simp [latest_listAgent_agentName hr, hx]

/-- The rows of `a` that a restart reads, among all it reads. -/
theorem filter_restart (h : b.Consistent cfg) (a : AgentName) (p : JobRecord → Bool) :
    (cfg.agents.flatMap fun a => latest JobRecord.jobId (b.listAgent a)).filter
        (fun r => decide (r.agentName = a) && p r) =
      (latest JobRecord.jobId (b.listAgent a)).filter p := by
  have hself : (latest JobRecord.jobId (b.listAgent a)).filter
      (fun r => decide (r.agentName = a) && p r) =
        (latest JobRecord.jobId (b.listAgent a)).filter p := by
    apply List.filter_congr
    intro r hr
    simp [latest_listAgent_agentName hr]
  by_cases ha : a ∈ cfg.agents
  · rw [filter_flatMap_of_nodup cfg.nodup ha fun x hx => b.filter_latest_listAgent hx p, hself]
  · -- an agent outside the configuration has no jobs
    have hempty : b.listAgent a = [] := by
      rw [listAgent, List.filter_eq_nil_iff]
      intro r hr
      simp only [decide_eq_true_eq]
      rintro rfl
      exact ha (h.known r hr)
    rw [← hself, hempty, latest_nil, List.filter_nil, List.filter_eq_nil_iff]
    intro r hr
    obtain ⟨x, hx, hr⟩ := List.mem_flatMap.mp hr
    have hne : x ≠ a := fun he => ha (he ▸ hx)
    simp [latest_listAgent_agentName hr, hne]

/-- A restart reads back the memory the log was written under. -/
theorem Consistent.rebuild (h : b.Consistent cfg) (a : AgentName) :
    (Memory.rebuild b.listAgent cfg.agents).queue a = b.memory.queue a ∧
      (Memory.rebuild b.listAgent cfg.agents).active a = b.memory.active a := by
  rw [rebuild_eq]
  constructor
  · rw [queue_foldl_restore, h.queue, pendingIds, ← filter_restart h a]
    simp [Memory.empty]
  · rw [active_foldl_restore]
    have hrows := filter_restart h a fun r => decide (r.status = .running)
    simp only [findLast_eq_getLast?, Bool.decide_and]
    rw [hrows, ← findLast_eq_getLast?]
    rcases hlast : findLast (fun r => decide (r.status = .running))
      (latest JobRecord.jobId (b.listAgent a)) with _ | r
    · -- a running job would have been read
      rcases hact : b.memory.active a with _ | j
      · simp [hlast]
      · obtain ⟨r, hr, hra, hs⟩ := (h.active a j).mp hact
        obtain ⟨hmem, -⟩ := findLast_key_some.mp (h.find_listAgent.mpr ⟨hr, hra⟩)
        simpa [hs] using findLast_none.mp hlast r hmem
    · obtain ⟨hmem, hs⟩ := findLast_some hlast
      have hfind := h.find_listAgent.mp (findLast_key_some.mpr ⟨hmem, rfl⟩)
      have hact := (h.active a r.jobId).mpr ⟨r, hfind.1, hfind.2, by simpa using hs⟩
      simp [hlast, hact]

end Board

end CodexBridge.Dispatch
