import CodexBridge.Completion.Detectors
import CodexBridge.Execution.Service

/-! The dispatcher's side of one running job: its completion, the restore after a
restart, and the poll that takes the items of an update over into the event log of
the job. The texts the message bureau renders over a recorded decision, and the
spill of a long reply into an artifact, come after what is modelled here. -/

namespace CodexBridge.Execution

open Completion

/-- What the tracker or the last snapshot knows of the turn. -/
structure View where
  state : State
  decision : Decision

/-- The tracker's view and the snapshot at a completion. -/
structure Evidence where
  tracked : Option View
  prior : Option View

/-- The fields of the job row that nothing here writes. -/
structure Job where
  jobId : String
  provider : String
  replyDelivery : Bool
  runtimeContext : Option RuntimeContext

inductive JobEvent where
  | completionItem (item : Item)
  | completionTerminal (decision : Decision)
  | executionRestoreFailed (status : Service.RestoreStatus) (reason : String)

/-- The service under the id of the job, and what is recorded of the job: it is running
until there is a terminal decision. -/
structure System where
  service : Service
  terminalDecision : Option Decision
  events : List JobEvent

namespace System

variable {World : Type} (lib : Library) (registry : Registry World) (job : Job)

/-! ### Completion -/

/-- `current or tracked or prior`, on flags -/
def flag (current : Bool) (evidence : Evidence) (field : State → Bool) : Bool :=
  current || (evidence.tracked.any fun view => field view.state) ||
    evidence.prior.any fun view => field view.state

/-- `current or tracked or prior`, on optional values -/
def value {α : Type} (current : Option α) (evidence : Evidence) (field : State → Option α) :
    Option α :=
  (current.or (evidence.tracked.bind fun view => field view.state)).or
    (evidence.prior.bind fun view => field view.state)

def mergeTerminalDecision (evidence : Evidence) (decision : Decision) : Decision :=
  let reply := fun (view : Option View) => (view.map fun view => view.decision.reply).getD ""
  { decision with
    reply := orElse decision.reply (orElse (reply evidence.tracked) (reply evidence.prior))
    anchorSeen := flag decision.anchorSeen evidence State.anchorSeen
    replyStarted := flag decision.replyStarted evidence State.replyStarted
    replyStable := flag decision.replyStable evidence State.replyStable
    providerTurnRef := value decision.providerTurnRef evidence State.providerTurnRef
    sourceCursor := value decision.sourceCursor evidence State.latestCursor }

def appendEvent (s : System) (event : JobEvent) : System := { s with events := s.events ++ [event] }

/-- The decision is recorded; the state file is still there. -/
def conclude (s : System) (evidence : Evidence) (decision : Decision) : System :=
  let merged := mergeTerminalDecision evidence decision
  { s.appendEvent (.completionTerminal merged) with terminalDecision := some merged }

def finish (s : System) : System := { s with service := s.service.finish }

/-- `complete_job`, as far as the job and its execution go. -/
def complete (s : System) (evidence : Evidence) (decision : Decision) : System :=
  if s.terminalDecision.isSome then s else (s.conclude evidence decision).finish

/-! ### Restart -/

/-- The daemon is gone and started again: the job row, its events and the state file are
what is left. -/
def crash (s : System) : System := { s with service := Service.restarted s.service.store }

def replyDeliveryFailedDecision (finishedAt reason : String) (diagnostics : Payload) : Decision :=
  { terminal := true
    status := .incomplete
    reason := some reason
    confidence := some .degraded
    reply := ""
    anchorSeen := false
    replyStarted := false
    replyStable := false
    providerTurnRef := some job.jobId
    sourceCursor := none
    finishedAt := some finishedAt
    diagnostics := override [("reply_delivery", .bool true)] diagnostics
    wellFormed := ⟨rfl, rfl, rfl⟩ }

def failedRestoreDecision (finishedAt : String) (result : Service.ExecutionRestoreResult) :
    Decision :=
  { terminal := true
    status := .incomplete
    reason := some "ccbd_restart_requires_resubmit"
    confidence := some .degraded
    reply := ""
    anchorSeen := false
    replyStarted := false
    replyStable := false
    providerTurnRef := none
    sourceCursor := none
    finishedAt := some finishedAt
    diagnostics :=
      [("restore_status", .str (if result.status = .missing then "missing" else "abandoned")),
        ("restore_reason", .str result.reason), ("resume_capable", .bool result.resumeCapable)]
    wellFormed := ⟨rfl, rfl, rfl⟩ }

def failRestore (s : System) (evidence : Evidence) (result : Service.ExecutionRestoreResult)
    (now : String) : System :=
  (s.appendEvent (.executionRestoreFailed result.status result.reason)).complete evidence
    (failedRestoreDecision now result)

/-- `_restore_current_job` -/
def restoreCurrentJob (s : System) (evidence : Evidence) (w : World) (now : String) : System :=
  if s.terminalDecision.isSome then s
  else if job.replyDelivery then
    s.complete evidence (replyDeliveryFailedDecision job now "reply_delivery_restart_requeued"
      [("restore_status", .str "abandoned"),
        ("restore_reason", .str "reply_delivery_does_not_resume")])
  else
    let restored := s.service.restoreSubmission registry job.provider job.runtimeContext w
    let s := { s with service := restored.1 }
    match restored.2.status, restored.2.decision with
    | .terminalPending, some decision => s.complete evidence decision
    | _, _ => if restored.2.restored then s else s.failRestore evidence restored.2 now

/-! ### Polling -/

/-- The item goes into the event log, then it counts as applied. -/
def ingestItem (s : System) (item : Item) : System :=
  let s := s.appendEvent (.completionItem item)
  { s with service := s.service.acknowledgeItem item.cursor.eventSeq }

/-- `_resolve_update_decision` -/
def resolveUpdateDecision (update : Option Decision) (tracked : Option View) : Option Decision :=
  update.or ((tracked.map View.decision).filter Decision.terminal)

/-- After the items of an update: the job is completed, or the items are acknowledged. -/
def settleUpdate (s : System) (evidence : Evidence) (decision : Option Decision) : System :=
  match resolveUpdateDecision decision evidence.tracked with
  | some decision => s.complete evidence decision
  | none => { s with service := s.service.acknowledge }

def ingestUpdate (s : System) (evidence : Evidence) (update : ExecutionUpdate) : System :=
  if s.terminalDecision.isSome then s.finish
  else (update.items.foldl ingestItem s).settleUpdate evidence update.decision

/-- The tracker of a job that is still running may find its turn over. -/
def tickTracker (s : System) (evidence : Evidence) : System :=
  match (evidence.tracked.map View.decision).filter Decision.terminal with
  | some decision => s.complete evidence decision
  | none => s

/-- `poll_completion_updates`; the evidence is that after the items, and that at the tick. -/
def pollCompletionUpdates (s : System) (ingested ticked : Evidence) (w : World) (now : String) :
    System :=
  let polled := s.service.poll lib registry w now
  let s := { s with service := polled.1 }
  match polled.2 with
  | none => s.tickTracker ticked
  | some update => (s.ingestUpdate ingested update).tickTracker ticked

end System

end CodexBridge.Execution
