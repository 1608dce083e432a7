import CodexBridge.Dispatch.DeliveryPaths

/-! Completing, cancelling and starting jobs as paths of acts. Every completion
begins with one `finish`; what follows depends on the edges and the retry policy
of the finished job. -/

namespace CodexBridge.Dispatch

open AppendLog

variable {cfg : Config} {w : World} {s s' : State} {depth : ℕ}

/-- What a completion does after the job is finished. -/
def State.conclude (cfg : Config) (w : World) (depth : ℕ) (s : State)
    (current terminal : JobRecord) (decision : CompletionDecision) (finishedAt : Timestamp) :
    State :=
  let settled :=
    if isReplyDeliveryJob current then (s, false)
    else settleCompletion cfg w depth s current terminal decision finishedAt
  if settled.2 then settled.1
  else if settled.1.autoReplyDelivery then
    (prepareReplyDeliveries cfg w depth (completeJob cfg w depth) settled.1).1
  else settled.1

/-- The terminal row a completion writes. -/
def State.completedRow (w : World) (current : JobRecord) (decision : CompletionDecision) :
    JobRecord :=
  terminalJob current (mergeTerminalDecision w current.jobId decision) decision.finishedAt

theorem sameJob_completedRow (w : World) (current : JobRecord) (decision : CompletionDecision) :
    SameJob (State.completedRow w current decision) current := ⟨rfl, rfl, rfl, rfl⟩

theorem completedRow_terminal (w : World) (current : JobRecord) (decision : CompletionDecision) :
    (State.completedRow w current decision).status.terminal = true := by
  show decision.status.jobStatus.terminal = true
  cases decision.status <;> rfl

theorem resolveReplyDeliveryTerminal_of_not {job : JobRecord} (t : Timestamp)
    (h : State.isReplyDeliveryJob job = false) : s.resolveReplyDeliveryTerminal job t = s := by
  simp [State.resolveReplyDeliveryTerminal, h]

/-- A completion finishes the job first. The memory may have been cleared before. -/
theorem completeJob_eq {j : JobId} {current : JobRecord} {m : Memory} {dequeue : Bool}
    (decision : CompletionDecision) (found : s.getJob j = some current)
    (live : current.status.terminal = false)
    (hm : m.clearActive current.agentName current.jobId =
      s.memory.leave dequeue current.agentName current.jobId) :
    State.completeJob cfg w (depth + 1) { s with memory := m } j decision =
      (s.finish (State.completedRow w current decision) decision.finishedAt dequeue).conclude cfg w
        depth current (State.completedRow w current decision)
        (State.mergeTerminalDecision w j decision) decision.finishedAt := by
  have hid : current.jobId = j := (State.getJob_mem found).2
  have found' : ({ s with memory := m } : State).getJob j = some current := found
  unfold State.completeJob
  simp only [found', live, Bool.false_eq_true, ↓reduceIte]
  have hrow : State.terminalJob current (State.mergeTerminalDecision w j decision)
      decision.finishedAt = State.completedRow w current decision := by
    rw [State.completedRow, hid]
  rw [hrow]
  have hended : ({ s with memory := m } : State).persistTerminalCompletion
      (State.completedRow w current decision) =
        { s.appendJob (State.completedRow w current decision) with
          memory := s.memory.leave dequeue (State.completedRow w current decision).agentName
            (State.completedRow w current decision).jobId } := by
    simp only [State.persistTerminalCompletion]
    rw [show (State.completedRow w current decision).agentName = current.agentName from rfl,
      show (State.completedRow w current decision).jobId = current.jobId from rfl, hm]
    rfl
  rw [hended]
  by_cases hd : State.isReplyDeliveryJob current = true
  · simp only [State.conclude, hd, ↓reduceIte]
    rfl
  · have hd' : State.isReplyDeliveryJob current = false := by simpa using hd
    have hd'' : State.isReplyDeliveryJob (State.completedRow w current decision) = false := hd'
    simp only [State.conclude, State.finish, hd', Bool.false_eq_true, ↓reduceIte,
      resolveReplyDeliveryTerminal_of_not _ hd'']

theorem clearActive_eq_leave (m : Memory) (a : AgentName) (j : JobId) :
    m.clearActive a j = m.leave false a j := rfl

/-- The first act of a completion. -/
theorem finish_guard {j : JobId} {current : JobRecord} (decision : CompletionDecision)
    {dequeue : Bool} (found : s.getJob j = some current) (live : current.status.terminal = false)
    (running : dequeue = false → current.status = .running) :
    (Act.finish current (State.completedRow w current decision) decision.finishedAt
      dequeue).guard cfg s := by
  have hid : current.jobId = j := (State.getJob_mem found).2
  exact ⟨hid.symm ▸ found, live, running, sameJob_completedRow w current decision,
    completedRow_terminal w current decision⟩

theorem running_live {status : JobStatus} (h : status = .running) : status.terminal = false := by
  rw [h]
  rfl

/-- Completing a delivery job takes routine acts only. -/
theorem completeJob_delivery_path (depth : ℕ) (h : Sound cfg s) {j : JobId} {current : JobRecord}
    (decision : CompletionDecision) (found : s.getJob j = some current)
    (running : current.status = .running) (delivery : State.isReplyDeliveryJob current = true) :
    Routine cfg s (State.completeJob cfg w depth s j decision) := by
  induction depth generalizing s j current decision with
  | zero => exact .refl
  | succ depth ih =>
    have live := running_live running
    have p : Routine cfg s (s.finish (State.completedRow w current decision) decision.finishedAt
        false) :=
      Routine.act (.finish current _ _ false) ⟨rfl, delivery⟩
        (finish_guard decision found live fun _ => running)
    rw [show s = { s with memory := s.memory } from rfl,
      completeJob_eq decision found live (clearActive_eq_leave _ _ _)]
    refine p.trans ?_
    simp only [State.conclude, delivery, Bool.false_eq_true, ↓reduceIte]
    split_ifs
    · exact prepareReplyDeliveries_path
        (fun s hs j current decision hf hr hd => ih hs decision hf hr hd) (p.sound h) depth
    · exact .refl

theorem prepare_path (h : Sound cfg s) (depth : ℕ) :
    Routine cfg s
      (State.prepareReplyDeliveries cfg w depth (State.completeJob cfg w depth) s).1 :=
  prepareReplyDeliveries_path
    (fun _ hs _ _ decision hf hr hd => completeJob_delivery_path depth hs decision hf hr hd) h
    depth

end CodexBridge.Dispatch
