import CodexBridge.Dispatch.Lifecycle

/-! The operator's side: reading the inbox, acknowledging its head and recovering
stuck communication. Reading the inbox discards heads that are no longer live. -/

namespace CodexBridge.Dispatch

open Mailbox (InboundEventRecord InboundEventType InboundEventStatus)

namespace State

/-! ### Inbox -/

def replyForEvent (s : State) (event : InboundEventRecord) : Option ReplyRecord :=
  if event.eventType = .taskReply then (replyIdFromPayload event.payloadRef).bind s.getReply
  else none

def eventIsLive (s : State) (event : InboundEventRecord) : Bool :=
  match s.getMessage event.messageId with
  | none => false
  | some _ =>
    let attempt := event.attemptId.bind s.getAttempt
    if event.attemptId.isSome && attempt.isNone then false
    else if event.eventType = .taskRequest && attempt.isSome then
      attempt.any fun a => !a.attemptState.terminal
    else if event.eventType = .taskReply && (s.replyForEvent event).isNone then false
    else true

/-- `_discard_stale_head_events`; every turn ends one pending event, so the number
of pending events bounds the loop. -/
def discardStaleHeads (now : Timestamp) (agentName : AgentName) : ℕ → State → State
  | 0, s => s
  | fuel + 1, s =>
    match (s.mailboxes agentName).headPendingEvent with
    | none => s
    | some head =>
      if s.eventIsLive head then s
      else discardStaleHeads now agentName fuel (s.setMailbox agentName
        ((s.mailboxes agentName).abandon now head.inboundEventId (some now)).1)

def discardStaleHeadEvents (now : Timestamp) (s : State) (agentName : AgentName) : State :=
  discardStaleHeads now agentName ((s.mailboxes agentName).pendingEvents none).length s

/-- `pending_event_records`, after the stale heads are gone. -/
def livePendingEvents (s : State) (agentName : AgentName) : List InboundEventRecord :=
  ((s.mailboxes agentName).pendingEvents none).filter s.eventIsLive

/-! ### Acknowledgement -/

def validateReplyHead (head : InboundEventRecord) : Except DispatchError InboundEventRecord :=
  if head.eventType ≠ .taskReply then .error .ackUnsupportedEvent
  else if (deliveryJobIdFromPayload head.payloadRef).isSome then .error .ackDeliveryScheduled
  else .ok head

/-- `_head_event` -/
def ackHeadEvent (now : Timestamp) (s : State) (agentName : AgentName)
    (inboundEventId : Option InboundEventId) : State × Except DispatchError InboundEventRecord :=
  let direct := (s.mailboxes agentName).headPendingEvent
  let requested := inboundEventId <|> direct.map InboundEventRecord.inboundEventId
  match direct.filter fun head => decide (some head.inboundEventId = requested) &&
      (head.eventType == .taskReply || head.eventType == .taskRequest) with
  | some head => if head.eventType = .taskReply then (s, validateReplyHead head) else (s, .ok head)
  | none =>
    let discarded := s.discardStaleHeadEvents now agentName
    match discarded.livePendingEvents agentName with
    | [] => (discarded, .error .inboxEmpty)
    | head :: _ =>
      if requested.any fun id => head.inboundEventId != id then
        (discarded, .error .ackRequiresHead)
      else (discarded, validateReplyHead head)

/-- `_ack_terminal_task_request` -/
def ackTerminalTaskRequest (now : Timestamp) (s : State) (agentName : AgentName)
    (head : InboundEventRecord) : State × Except DispatchError Unit :=
  let attempt := head.attemptId.bind s.getAttempt
  if attempt.any fun a => !a.attemptState.terminal then (s, .error .ackAttemptActive)
  else
    let mailbox := s.mailboxes agentName
    let ended :=
      if (attempt.any fun a => a.attemptState = .cancelled) && head.status.claimable then
        mailbox.abandon now head.inboundEventId (some now)
      else mailbox.consume now head.inboundEventId (some now)
    match ended with
    | (_, none) => (s.setMailbox agentName ended.1, .error .ackFailed)
    | (after, some _) =>
      ((s.setMailbox agentName after).discardStaleHeadEvents now agentName, .ok ())

def ackReply (cfg : Config) (w : World) (s : State) (agentName : AgentName)
    (inboundEventId : Option InboundEventId) : State × Except DispatchError Unit :=
  let now := w.clock 0 .accepted
  if agentName ∉ cfg.agents then (s, .error .unknownMailbox)
  else
    match s.ackHeadEvent now agentName inboundEventId with
    | (found, .error e) => (found, .error e)
    | (found, .ok head) =>
      if head.eventType = .taskRequest then found.ackTerminalTaskRequest now agentName head
      else
        match found.replyForEvent head with
        | none => (found, .error .ackReplyMissing)
        | some _ =>
          match (found.mailboxes agentName).ackReply now head.inboundEventId (some now)
              (some now) with
          | (mailbox, none) => (found.setMailbox agentName mailbox, .error .ackFailed)
          | (mailbox, some _) =>
            ((found.setMailbox agentName mailbox).discardStaleHeadEvents now agentName, .ok ())

/-! ### Recovery -/

/-- `_latest_attempt_for_agent` of the recovery: the last row in log order. -/
def lastAttemptForAgent (s : State) (messageId : MessageId) (agentName : AgentName) :
    Option AttemptRecord :=
  AppendLog.findLast
    (fun record => decide (record.messageId = messageId ∧ record.agentName = agentName)) s.attempts

def isLatestAttempt (s : State) (attempt : AttemptRecord) : Bool :=
  (s.lastAttemptForAgent attempt.messageId attempt.agentName).any fun newest =>
    newest.attemptId == attempt.attemptId

def canRetryJob (s : State) (job : JobRecord) : Bool :=
  (s.attemptForJob job.jobId).any fun attempt =>
    s.isLatestAttempt attempt && attempt.attemptState.terminal &&
      attempt.attemptState ≠ .completed

/-- `_FAILED_TERMINAL_STATUSES` -/
def failedTerminal : JobStatus → Bool
  | .cancelled | .failed | .incomplete => true
  | _ => false

/-- `_release_lineage_head_if_blocking`; the flag says that an event was released. -/
def releaseLineageHeadIfBlocking (now : Timestamp) (s : State) (job : JobRecord) : State × Bool :=
  match s.attemptForJob job.jobId with
  | none => (s, false)
  | some attempt =>
    let mailbox := s.mailboxes attempt.agentName
    match mailbox.getLatestForAttempt attempt.attemptId with
    | none => (s, false)
    | some inbound =>
      if inbound.status.terminal || inbound.eventType != .taskRequest then (s, false)
      else if mailbox.headPendingEvent.any fun head =>
          head.inboundEventId == inbound.inboundEventId then
        match mailbox.abandon now inbound.inboundEventId (some now) with
        | (after, released) => (s.setMailbox attempt.agentName after, released.isSome)
      else (s, false)

/-- What a recovery has done so far: `audit` of the source. -/
structure Recovery where
  state : State
  released : Bool
  cancelled : Bool
  retried : Bool

def recoverTerminalRetry (cfg : Config) (w : World) (s : State) (job : JobRecord) : Recovery :=
  if (s.attemptForJob job.jobId).any fun attempt => !s.isLatestAttempt attempt then
    ⟨s, false, false, false⟩
  else
    match s.releaseLineageHeadIfBlocking (w.clock 0 .release) job with
    | (released, flag) =>
      match released.retryAttempt cfg job.jobId (w.clock 0 .retry) with
      | .ok retried => ⟨retried.1, flag, false, true⟩
      | .error _ => ⟨released, flag, false, false⟩

def recoverStaleRunning (cfg : Config) (w : World) (s : State) (job : JobRecord) : Recovery :=
  if (s.attemptForJob job.jobId).any fun attempt => !s.isLatestAttempt attempt then
    ⟨s, false, false, false⟩
  else
    match s.cancelJob cfg w job.jobId false with
    | (_, .error _) => ⟨s, false, false, false⟩
    | (cancelled, .ok _) =>
      match cancelled.retryAttempt cfg job.jobId (w.clock 0 .retry) with
      | .ok retried => ⟨retried.1, false, true, true⟩
      | .error _ => ⟨cancelled, false, true, false⟩

/-- `_recover_reply_delivery` for a failed delivery job; another live or completed
delivery of the event is left alone. -/
def recoverReplyDelivery (cfg : Config) (w : World) (s : State) (job : JobRecord) : Recovery :=
  match job.providerOptions.replyDeliveryInboundEventId,
      job.providerOptions.replyDeliveryReplyId with
  | some inboundEventId, some replyId =>
    match (s.mailboxes job.agentName).getLatest inboundEventId with
    | none => ⟨s, false, false, false⟩
    | some current =>
      if current.status = .consumed then ⟨s, false, false, false⟩
      else if (deliveryJobIdFromPayload current.payloadRef).any fun delivery =>
          delivery != job.jobId &&
            (s.getJob delivery).any fun other => !failedTerminal other.status
      then ⟨s, false, false, false⟩
      else
        let rewritten := s.rewriteReplyHead job.agentName inboundEventId replyId none
          (w.clock 0 .release)
        match prepare cfg w rewritten with
        | (prepared, created) => ⟨prepared, true, false, !created.isEmpty⟩
  | _, _ => ⟨s, false, false, false⟩

/-- The recoveries in the order the source tries them. `hint` is an accepted
`block_reason` of the caller. -/
def recoverSource (cfg : Config) (w : World) (s : State) (source : JobRecord)
    (replyDelivery : Option JobRecord) (hint : Bool) : Option Recovery :=
  match replyDelivery.filter fun job => failedTerminal job.status && s.canRetryJob job with
  | some job => some (s.recoverReplyDelivery cfg w job)
  | none =>
    if failedTerminal source.status then
      if s.canRetryJob source then some (s.recoverTerminalRetry cfg w source) else none
    else if source.status = .running && (hint || w.runtimeStale source.agentName) then
      some (s.recoverStaleRunning cfg w source)
    else none

/-- `comms_recover`. A recovery that changed nothing ends there, any other is
followed by a tick of the job starts. -/
def commsRecover (cfg : Config) (w : World) (s : State) (jobId : JobId)
    (replyDeliveryJobId : Option JobId) (hint : Bool) : State × Except DispatchError Unit :=
  match s.getJob jobId with
  | none => (s, .error .unknownJob)
  | some source =>
    if isReplyDeliveryJob source then (s, .error .recoverRequiresSource)
    else
      match s.recoverSource cfg w source (replyDeliveryJobId.bind s.getJob) hint with
      | none => (s, .ok ())
      | some done =>
        if done.released || done.cancelled || done.retried then
          let prepared := if done.retried then done.state else (prepare cfg w done.state).1
          (prepared.tickJobs cfg w, .ok ())
        else (done.state, .ok ())

end State

end CodexBridge.Dispatch
