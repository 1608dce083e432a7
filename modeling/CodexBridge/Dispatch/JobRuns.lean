import CodexBridge.Dispatch.Operations

/-! Jobs over whole runs: the dispatcher's memory is what a restart would read back
from the job log, every agent runs at most one job, and ended jobs stay ended. -/

namespace CodexBridge.Dispatch

variable {cfg : Config} {allowed : World → State → Op → Prop} {s : State}

/-! ### Live jobs -/

/-- A job is live until it is finished. -/
theorem Act.keeps_live {act : Act} {j : JobId} (h : Coherent cfg s) (g : act.guard cfg s)
    (live : s.live j) (hfinish : ∀ current terminal t dequeue,
      act = .finish current terminal t dequeue → current.jobId ≠ j) :
    (act.apply cfg s).live j := by
  obtain ⟨r, found, hlive⟩ := live
  obtain ⟨hmem, rfl⟩ := State.getJob_mem found
  obtain ⟨r', hr'⟩ := State.exists_getJob ((Act.extends h g).jobs hmem)
  refine ⟨r', hr', ?_⟩
  rcases Act.getJob_cases h g hr' with ⟨r₀, hr₀, -, hstatus⟩ | ⟨current, t, dequeue, rfl⟩ |
    ⟨m, hnew⟩
  · obtain rfl := Option.some.inj (found.symm.trans hr₀)
    rcases hstatus with hstatus | hstatus
    · rw [hstatus, hlive]
    · rw [hstatus]
      rfl
  · exact absurd (g.2.2.2.1.jobId.symm.trans (State.getJob_mem hr').2)
      (hfinish current r' t dequeue rfl)
  · exact JobStatus.not_terminal_of_pending (Act.newJob_pending g hnew)

/-! ### A sample run -/

namespace Sample

open Mailbox (sampleTime)

def late : Timestamp := ⟨"2026-01-02T00:00:00Z", by decide⟩

/-- Three agents, whose callbacks expire at `late`. -/
def config : Config :=
  { agents := ["agent1", "agent2", "agent3"]
    nodup := by decide
    spec := fun _ => ⟨"codex", false⟩
    maxCallbackDepth := 5
    executionService := true
    callbackTimeoutAt := id
    callbackExpired := fun now _ => decide (now = late)
    providerSupportsResume := fun _ => true
    isNonretryableApiFailure := fun _ => false
    continuationBody := fun _ _ _ => ("continue", none)
    replyDeliveryBody := fun _ => "reply" }

def world (now : Timestamp) : World :=
  { clock := fun _ _ => now
    alive := fun _ => true
    runnable := fun _ => true
    projectKnown := fun _ => true
    anchorSeen := fun _ => false
    replyStarted := fun _ => false
    deliveryStart := fun _ => .dispatched
    persistedDecision := fun _ => none
    executionLive := fun _ => true
    runtimeStale := fun _ => false
    artifactValid := fun _ => true }

def ask (fromActor : Actor) (target : AgentName) (mode : Option RouteMode) : MessageEnvelope :=
  { target := .agent target
    fromActor := fromActor
    body := "work"
    taskId := none
    replyTo := none
    messageType := .ask
    silenceOnSuccess := false
    routeOptions := ⟨mode, none⟩
    bodyArtifact := none }

def decision (status : CompletionStatus) : CompletionDecision :=
  ⟨status, "done", "", false, false, sampleTime, none⟩

/-- The state after the operations, each at its own time. -/
def after (ops : List (Timestamp × Op)) : State :=
  ops.foldl (fun s op => exec config (world op.1) s op.2) (State.initial true)

/-- Every operation may be taken where it is taken. -/
def Admitted (allowed : World → State → Op → Prop) : State → List (Timestamp × Op) → Prop
  | _, [] => True
  | s, (t, op) :: ops =>
    (op.admissible s ∧ allowed (world t) s op) ∧ Admitted allowed (exec config (world t) s op) ops

instance decidableAdmitted [∀ w s op, Decidable (allowed w s op)] :
    (s : State) → (ops : List (Timestamp × Op)) → Decidable (Admitted allowed s ops)
  | _, [] => isTrue trivial
  | s, (t, op) :: ops =>
    have := decidableAdmitted (exec config (world t) s op) ops
    inferInstanceAs (Decidable ((op.admissible s ∧ allowed (world t) s op) ∧
      Admitted allowed (exec config (world t) s op) ops))

theorem reachable_foldl {ops : List (Timestamp × Op)} (h : Reachable config allowed s)
    (hops : Admitted allowed s ops) :
    Reachable config allowed (ops.foldl (fun s op => exec config (world op.1) s op.2) s) := by
  induction ops generalizing s with
  | nil => exact h
  | cons op ops ih => exact ih (h.exec hops.1.1 hops.1.2) hops.2

theorem reachable_after {ops : List (Timestamp × Op)}
    (hops : Admitted allowed (State.initial true) ops) : Reachable config allowed (after ops) :=
  reachable_foldl (.initial true) hops

theorem reachable_concat {ops : List (Timestamp × Op)}
    (h : Reachable config allowed (after ops)) (step : Timestamp × Op)
    (admissible : step.2.admissible (after ops))
    (permitted : allowed (world step.1) (after ops) step.2) :
    Reachable config allowed (after (ops ++ [step])) := by
  unfold after
  rw [List.foldl_append]
  exact h.exec admissible permitted

/-- Two requests for one agent, the first of them started. -/
def twoRequests : List (Timestamp × Op) :=
  [(sampleTime, .submit (ask .user "agent1" none)), (sampleTime, .submit (ask .user "agent1" none)),
    (sampleTime, .tick)]

/-- Job 1 of the first agent waits for the callback of job 6 of the second one; the edge
between them is 10. -/
def callbackAsk : List (Timestamp × Op) :=
  [(sampleTime, .submit (ask .user "agent1" none)), (sampleTime, .tick),
    (sampleTime, .submit (ask (.agent "agent1") "agent2" (some .callback))), (sampleTime, .tick)]

theorem twoRequests_reachable : Reachable config (fun _ _ _ => True) (after twoRequests) :=
  reachable_after (by decide +kernel)

end Sample

/-! ### Restart -/

/-- Restarting from the job log gives every agent the active job and the queue it has. -/
theorem rebuild_eq_memory (run : Reachable cfg allowed s) (a : AgentName) :
    (Memory.rebuild s.listAgent cfg.agents).active a = s.memory.active a ∧
      (Memory.rebuild s.listAgent cfg.agents).queue a = s.memory.queue a := by
  obtain ⟨hqueue, hactive⟩ := run.sound.coherent.board.rebuild a
  exact ⟨hactive, hqueue⟩

theorem rebuild_eq_memory_twoRequests :
    (Memory.rebuild (Sample.after Sample.twoRequests).listAgent Sample.config.agents).active
        "agent1" = some 1 ∧
      (Memory.rebuild (Sample.after Sample.twoRequests).listAgent Sample.config.agents).queue
        "agent1" = [6] := by
  obtain ⟨hactive, hqueue⟩ := rebuild_eq_memory Sample.twoRequests_reachable "agent1"
  rw [hactive, hqueue]
  decide +kernel

/-! ### The job run invariant -/

theorem JobStatus.pending_eq_true {status : JobStatus} :
    status.pending = true ↔ status = .accepted ∨ status = .queued := by
  cases status <;> simp [JobStatus.pending]

theorem JobStatus.terminal_of_precedes {old new : JobStatus} (h : old.precedes new)
    (ht : old.terminal = true) : new.terminal = true := by
  rw [JobStatus.eq_of_precedes h ht]
  exact ht

/-- The running job of an agent is its active job, queued jobs are pending and queued
once, and no row of an ended job is followed by a live one. -/
theorem job_run_invariant (run : Reachable cfg allowed s) :
    (∀ a j, s.memory.active a = some j ↔
      ∃ r, s.getJob j = some r ∧ r.agentName = a ∧ r.status = .running) ∧
    (∀ a, (s.memory.queue a).Nodup ∧ ∀ j ∈ s.memory.queue a,
      ∃ r, s.getJob j = some r ∧ r.agentName = a ∧ (r.status = .accepted ∨ r.status = .queued)) ∧
    s.jobs.Pairwise (fun r r' => r.jobId = r'.jobId → r.status.terminal = true →
      r'.status.terminal = true) := by
  have board := run.sound.coherent.board
  refine ⟨board.active, fun a => ⟨?_, fun j hj => ?_⟩, ?_⟩
  · have hqueue : s.memory.queue a = Board.pendingIds (s.board.listAgent a) := board.queue a
    rw [hqueue]
    exact Board.nodup_pendingIds _
  · obtain ⟨r, hr, hagent, hpending⟩ := board.mem_queue.mp hj
    exact ⟨r, hr, hagent, JobStatus.pending_eq_true.mp hpending⟩
  · refine board.progress.imp fun hprogress hid ht => ?_
    exact JobStatus.terminal_of_precedes (hprogress hid) ht

theorem job_run_invariant_twoRequests :
    (Sample.after Sample.twoRequests).memory.active "agent1" = some 1 ∧
      (∃ r, (Sample.after Sample.twoRequests).getJob 1 = some r ∧ r.agentName = "agent1" ∧
        r.status = .running) ∧
      ((Sample.after Sample.twoRequests).memory.queue "agent1").Nodup := by
  have hactive : (Sample.after Sample.twoRequests).memory.active "agent1" = some 1 := by
    decide +kernel
  obtain ⟨hrunning, hqueue, -⟩ := job_run_invariant Sample.twoRequests_reachable
  exact ⟨hactive, (hrunning "agent1" 1).mp hactive, (hqueue "agent1").1⟩

end CodexBridge.Dispatch
