import CodexBridge.Dispatch.Submission

/-! The life of a job after submission: start, completion with its retries,
replies and continuations, cancellation and shutdown. Completing a job prepares
reply deliveries, whose repair completes stale delivery jobs in turn; every
nested completion ends one more running job, so the number of job records is
depth enough. -/

namespace CodexBridge.Dispatch

namespace State

/-! ### Automatic retry -/

def isRetryableFailure (cfg : Config) (decision : CompletionDecision) (policy : RetryPolicy)
    (supportsResume : Bool) : Bool :=
  if decision.status ≠ .failed then false
  else if cfg.isNonretryableApiFailure decision then false
  else if decision.reason ∈ policy.retryableReasons then true
  else if supportsResume && policy.retryRuntimeWhenResumeSupported &&
      decision.reason ∈ policy.retryableRuntimeReasons then true
  else decision.errorType ∈ ["api_error", "transport_error", "provider_api_error"]

/-- `retryable_failure_context`: the attempt number and the attempts allowed. -/
def retryableFailureContext (cfg : Config) (s : State) (job : JobRecord)
    (decision : CompletionDecision) : Option (ℕ × ℕ) :=
  (s.attemptForJob job.jobId).bind fun attempt =>
    (s.getMessage attempt.messageId).bind fun message =>
      if message.retryPolicy.auto && isRetryableFailure cfg decision message.retryPolicy
          (cfg.providerSupportsResume job.provider)
      then some (attempt.retryIndex + 1, max message.retryPolicy.maxAttempts 1)
      else none

def automaticRetryPlan (cfg : Config) (s : State) (job : JobRecord)
    (decision : CompletionDecision) : Bool :=
  (s.retryableFailureContext cfg job decision).any fun context => context.1 < context.2

def shouldRenderTimeoutInspectionReply (decision : CompletionDecision) : Bool :=
  decision.status = .incomplete && decision.reason == "timeout"

/-- The reply text is rewritten, and the job row with it, after a failed or exhausted
retry, a timeout and a failure no retry can mend. -/
def rewritesReply (cfg : Config) (s : State) (job : JobRecord) (decision : CompletionDecision) :
    Bool :=
  (s.retryableFailureContext cfg job decision).isSome ||
    shouldRenderTimeoutInspectionReply decision ||
    (decision.status = .failed && cfg.isNonretryableApiFailure decision)

/-! ### Completion -/

def mergeTerminalDecision (w : World) (jobId : JobId) (decision : CompletionDecision) :
    CompletionDecision :=
  { decision with
    anchorSeen := decision.anchorSeen || w.anchorSeen jobId
    replyStarted := decision.replyStarted || w.replyStarted jobId }

def terminalJob (current : JobRecord) (decision : CompletionDecision) (finishedAt : Timestamp) :
    JobRecord :=
  { current with
    status := decision.status.jobStatus
    terminalDecision := some decision
    updatedAt := finishedAt }

def persistTerminalCompletion (s : State) (terminal : JobRecord) : State :=
  { s.appendJob terminal with
    memory := s.memory.clearActive terminal.agentName terminal.jobId }

/-- The reply of a job that is not retried, handed to the parent of its callback edge
when it has one, to its caller otherwise. -/
def recordCompletionReply (cfg : Config) (s : State) (terminal : JobRecord)
    (decision : CompletionDecision) (finishedAt : Timestamp) : State :=
  match s.callbackChildEdge terminal with
  | some edge =>
    let recorded := recordReply cfg s terminal finishedAt false
    (submitCallbackContinuation cfg recorded.1 edge terminal recorded.2 decision
      finishedAt).markCallbackDone terminal finishedAt
  | none =>
    (recordReply cfg s terminal finishedAt true).1.markCallbackDone terminal finishedAt

/-- `record_message_bureau_completion` after the attempt is closed, for jobs that
are not reply deliveries; the flag says that a retry was scheduled. -/
def settleCompletion (cfg : Config) (w : World) (depth : ℕ) (s : State) (current : JobRecord)
    (terminal : JobRecord) (decision : CompletionDecision) (finishedAt : Timestamp) :
    State × Bool :=
  match (s.edgeForParentJob terminal.jobId).filter fun edge =>
      edge.state ≠ .failed && edge.state ≠ .timedOut && edge.state ≠ .done with
  | some edge =>
    ((s.appendJob (delegatedTerminalJob terminal edge)).markParentMessageWaiting edge finishedAt,
      false)
  | none =>
    match (if s.automaticRetryPlan cfg current decision then
        (s.retryAttempt cfg current.jobId (w.clock depth .retry)).toOption else none) with
    | some retried => (retried.1, true)
    | none =>
      let persisted := if s.rewritesReply cfg current decision then s.appendJob terminal else s
      (recordCompletionReply cfg persisted terminal decision finishedAt, false)

/-- `complete_job`, to the given depth of nested completions. -/
def completeJob (cfg : Config) (w : World) : ℕ → State → JobId → CompletionDecision → State
  | 0, s, _, _ => s
  | depth + 1, s, jobId, decision =>
    match s.getJob jobId with
    | none => s
    | some current =>
      if current.status.terminal then s
      else
        let finishedAt := decision.finishedAt
        let merged := mergeTerminalDecision w jobId decision
        let terminal := terminalJob current merged finishedAt
        let ended :=
          (s.persistTerminalCompletion terminal).recordAttemptTerminal terminal finishedAt
        let settled :=
          if isReplyDeliveryJob current then (ended, false)
          else settleCompletion cfg w depth ended current terminal merged finishedAt
        let resolved := settled.1.resolveReplyDeliveryTerminal terminal finishedAt
        if settled.2 then resolved
        else if resolved.autoReplyDelivery then
          (prepareReplyDeliveries cfg w depth (completeJob cfg w depth) resolved).1
        else resolved

/-- The depth no completion exceeds. -/
def depth (s : State) : ℕ := s.jobs.length + 1

def complete (cfg : Config) (w : World) (s : State) (jobId : JobId)
    (decision : CompletionDecision) : State :=
  completeJob cfg w s.depth s jobId decision

/-! ### Cancellation -/

def cancelDecision (w : World) (jobId : JobId) (cancelledAt : Timestamp) : CompletionDecision :=
  { status := .cancelled
    reason := "cancel_info"
    errorType := ""
    anchorSeen := w.anchorSeen jobId
    replyStarted := w.replyStarted jobId
    finishedAt := cancelledAt
    delegated := none }

/-- `cancel_with_decision`, after the job has left the queue and the active slot. -/
def cancelWithDecision (cfg : Config) (w : World) (s : State) (marked : JobRecord)
    (cancelledAt : Timestamp) (recordReplyEnabled : Bool) : State :=
  let terminal := { marked with
    status := JobStatus.cancelled
    terminalDecision := some (cancelDecision w marked.jobId cancelledAt)
    updatedAt := cancelledAt
    cancelRequestedAt := some cancelledAt }
  (recordTerminal cfg (s.appendJob terminal) terminal cancelledAt
    recordReplyEnabled).resolveReplyDeliveryTerminal terminal cancelledAt

def cancelJob (cfg : Config) (w : World) (s : State) (jobId : JobId)
    (recordReplyEnabled : Bool) : State × Except DispatchError Unit :=
  match s.getJob jobId with
  | none => (s, .error .unknownJob)
  | some current =>
    if current.status = .cancelled then (s, .ok ())
    else if current.status.terminal then (s, .error .alreadyTerminal)
    else
      let cancelledAt := w.clock 0 .accepted
      let marked := { current with
        cancelRequestedAt := some cancelledAt
        updatedAt := cancelledAt }
      let dequeued := { s.appendJob marked with
        memory := (s.memory.removeQueued current.agentName jobId).clearActive
          current.agentName jobId }
      (cancelWithDecision cfg w dequeued marked cancelledAt recordReplyEnabled, .ok ())

/-! ### Start -/

/-- `start_running_job`, up to the provider. -/
def beginRunningJob (s : State) (current : JobRecord) (startedAt : Timestamp) : State :=
  let running := { current with status := JobStatus.running, updatedAt := startedAt }
  let marked := s.markAttemptStarted running startedAt
  { marked.appendJob running with
    memory := marked.memory.markActive running.agentName running.jobId }

def replyDeliveryDecision (status : CompletionStatus) (reason : String) (anchorSeen : Bool)
    (finishedAt : Timestamp) : CompletionDecision :=
  { status := status
    reason := reason
    errorType := ""
    anchorSeen := anchorSeen
    replyStarted := false
    finishedAt := finishedAt
    delegated := none }

/-- A delivery job ends with its start unless the provider reports later. -/
def startRunningJob (cfg : Config) (w : World) (s : State) (current : JobRecord)
    (startedAt : Timestamp) : State :=
  let begun := s.beginRunningJob current startedAt
  if isReplyDeliveryJob current && cfg.executionService then
    match w.deliveryStart current.jobId with
    | .unavailable => begun.complete cfg w current.jobId
        (replyDeliveryDecision .incomplete "reply_delivery_transport_unavailable" false startedAt)
    | .dispatched => begun
    | .sent => begun.complete cfg w current.jobId
        (replyDeliveryDecision .completed "reply_delivery_sent" true startedAt)
  else begun

def dequeue (s : State) (agentName : AgentName) (jobId : JobId) : State :=
  { s with memory := s.memory.removeQueued agentName jobId }

/-- `_claim_reply_delivery`; the flag says that a delivery job was started. -/
def claimReplyDelivery (cfg : Config) (w : World) (s : State) (agentName : AgentName) :
    State × Bool :=
  match s.claimableReplyDeliveryJobIds agentName with
  | [] => (s, false)
  | candidate :: _ =>
    if candidate ∉ s.memory.queue agentName then (s, false)
    else
      match s.getJob candidate with
      | none => (s.dequeue agentName candidate, false)
      | some current =>
        let startedAt := w.clock 0 (.start agentName)
        match s.claimReplyDeliveryStart current startedAt with
        | (claimed, false) => (claimed, false)
        | (claimed, true) =>
          ((claimed.dequeue agentName candidate).startRunningJob cfg w current startedAt, true)

/-- `claimable_request_job_ids`: the job of the head request. -/
def claimableRequestJobId (s : State) (agentName : AgentName) : Option JobId :=
  ((s.mailboxes agentName).peekNext (some .taskRequest)).bind fun event =>
    jobIdFromPayloadRef event.payloadRef

/-- The queued ids are those before the reply delivery was tried. -/
def startRequestJob (cfg : Config) (w : World) (s : State) (agentName : AgentName)
    (queuedIds : List JobId) : State :=
  match s.claimableRequestJobId agentName with
  | none => s
  | some candidate =>
    if candidate ∉ queuedIds then s
    else
      let removed := s.dequeue agentName candidate
      match removed.getJob candidate with
      | none => removed
      | some current => removed.startRunningJob cfg w current (w.clock 0 (.start agentName))

def startNextQueuedJob (cfg : Config) (w : World) (s : State) (agentName : AgentName) : State :=
  let queuedIds := s.memory.queue agentName
  match s.claimReplyDelivery cfg w agentName with
  | (started, true) => started
  | (unclaimed, false) => unclaimed.startRequestJob cfg w agentName queuedIds

/-- `tick_jobs`: every idle agent with queued work and a usable runtime. -/
def tickJobs (cfg : Config) (w : World) (s : State) : State :=
  cfg.agents.foldl
    (fun s agentName =>
      if (s.memory.active agentName).isSome then s
      else if s.memory.queueDepth agentName = 0 then s
      else if w.runnable agentName then s.startNextQueuedJob cfg w agentName
      else s)
    s

def prepare (cfg : Config) (w : World) (s : State) : State × List JobRecord :=
  prepareReplyDeliveries cfg w s.depth (completeJob cfg w s.depth) s

def tick (cfg : Config) (w : World) (s : State) : State :=
  (prepare cfg w (repairCallbackEdges cfg w s)).1.tickJobs cfg w

/-! ### Shutdown -/

def shutdownDecision (w : World) (jobId : JobId) : CompletionDecision :=
  { status := .incomplete
    reason := "project_shutdown"
    errorType := ""
    anchorSeen := w.anchorSeen jobId
    replyStarted := w.replyStarted jobId
    finishedAt := w.clock 0 (.shutdown jobId)
    delegated := none }

def terminateJobForShutdown (cfg : Config) (w : World) (s : State) (current : JobRecord) : State :=
  let dequeued := { s with
    memory := (s.memory.removeQueued current.agentName current.jobId).clearActive
      current.agentName current.jobId }
  dequeued.complete cfg w current.jobId (shutdownDecision w current.jobId)

/-- `_latest_nonterminal_job_ids`, agent by agent. -/
def latestNonterminalJobIds (cfg : Config) (s : State) : List JobId :=
  cfg.agents.flatMap fun agentName =>
    ((AppendLog.latest JobRecord.jobId (s.listAgent agentName)).filter
      fun record => !record.status.terminal).map JobRecord.jobId

def terminateNonterminalJobs (cfg : Config) (w : World) (s : State) : State :=
  (s.latestNonterminalJobIds cfg).foldl
    (fun s jobId =>
      match s.getJob jobId with
      | none => s
      | some current => if current.status.terminal then s else
          s.terminateJobForShutdown cfg w current)
    s

def disableAutoReplyDelivery (s : State) : State := { s with autoReplyDelivery := false }

end State

end CodexBridge.Dispatch
