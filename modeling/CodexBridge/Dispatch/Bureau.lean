import CodexBridge.Dispatch.Memory

/-! The message bureau: recording submissions, attempts, replies and notices, and
the message state that follows from the attempts and the replies. -/

namespace CodexBridge.Dispatch

open Mailbox (InboundEventRecord InboundEventType InboundEventStatus NewEvent)

/-! ### Message state -/

def ReplyTerminalStatus.messageState : ReplyTerminalStatus → MessageState
  | .completed => .completed
  | .cancelled => .cancelled
  | .failed => .failed
  | .incomplete => .incomplete

/-- One common status gives its message state, a mixture is incomplete. -/
def replyTerminalState : List ReplyTerminalStatus → MessageState
  | [] => .incomplete
  | status :: rest => if rest.all (· = status) then status.messageState else .incomplete

def AttemptState.messageState : AttemptState → MessageState
  | .completed => .completed
  | .cancelled => .cancelled
  | .failed => .failed
  | _ => .incomplete

def attemptTerminalState : List AttemptState → MessageState
  | [] => .incomplete
  | state :: rest => if rest.all (· = state) then state.messageState else .incomplete

/-- Notices count only when there is nothing else. -/
def terminalReplies (replies : List ReplyRecord) : List ReplyRecord :=
  if (replies.filter fun reply => !reply.notice).isEmpty then replies
  else replies.filter fun reply => !reply.notice

def nextMessageState (attempts : List AttemptRecord) (replies : List ReplyRecord) :
    MessageState :=
  if attempts.any fun attempt => !attempt.attemptState.terminal then
    if replies.isEmpty then .running else .partiallyReplied
  else if (terminalReplies replies).isEmpty then
    attemptTerminalState (attempts.map AttemptRecord.attemptState)
  else replyTerminalState ((terminalReplies replies).map ReplyRecord.terminalStatus)

/-- The message log after the message moves to `next`; a state it already has is not
written again. -/
def setMessageLog (messages : List MessageRecord) (messageId : MessageId) (next : MessageState)
    (updatedAt : Timestamp) : List MessageRecord :=
  match AppendLog.findLast (fun record => decide (record.messageId = messageId)) messages with
  | none => messages
  | some current =>
    if current.messageState = next then messages
    else messages ++ [{ current with updatedAt := updatedAt, messageState := next }]

namespace State

def setMessageState (s : State) (messageId : MessageId) (next : MessageState)
    (updatedAt : Timestamp) : State :=
  { s with messages := setMessageLog s.messages messageId next updatedAt }

def refreshMessageLog (s : State) (messageId : MessageId) (updatedAt : Timestamp) :
    List MessageRecord :=
  if (s.latestAttempts messageId).isEmpty then s.messages
  else setMessageLog s.messages messageId
    (nextMessageState (s.latestAttempts messageId) (s.listReplies messageId)) updatedAt

def refreshMessageState (s : State) (messageId : MessageId) (updatedAt : Timestamp) : State :=
  { s with messages := s.refreshMessageLog messageId updatedAt }

/-! ### Submissions -/

def resolveOriginMessageId (s : State) (replyTo : Option ℕ) : Option MessageId :=
  replyTo.bind fun key =>
    ((s.getAttempt key).map AttemptRecord.messageId <|>
      (s.attemptForJob key).map AttemptRecord.messageId) <|>
      (s.getMessage key).map MessageRecord.messageId

/-- One attempt of `job` on the message, with the inbound event that announces it. -/
def recordAttempt (s : State) (messageId : MessageId) (job : JobRecord) (retryIndex : ℕ)
    (acceptedAt : Timestamp) : State :=
  let attempt : AttemptRecord :=
    { attemptId := s.nextId
      messageId := messageId
      agentName := job.agentName
      provider := job.provider
      jobId := job.jobId
      retryIndex := retryIndex
      startedAt := acceptedAt
      updatedAt := acceptedAt
      attemptState := .pending }
  let event : NewEvent :=
    { inboundEventId := s.nextId + 1
      eventType := .taskRequest
      messageId := messageId
      attemptId := some s.nextId
      payloadRef := some (.job job.jobId)
      priority := 100
      createdAt := acceptedAt }
  { s.appendAttempt attempt with
    mailboxes := Function.update s.mailboxes job.agentName
      ((s.mailboxes job.agentName).enqueue acceptedAt event (some acceptedAt))
    nextId := s.nextId + 2 }

def submissionMessage (s : State) (request : MessageEnvelope) (jobs : List JobRecord)
    (submissionId : Option ℕ) (acceptedAt : Timestamp) (originMessageId : Option MessageId) :
    MessageRecord :=
  { messageId := s.nextId
    originMessageId := originMessageId <|> s.resolveOriginMessageId request.replyTo
    fromActor := request.fromActor
    targetScope := request.deliveryScope
    targetAgents := jobs.map JobRecord.agentName
    messageClass := request.messageType
    retryPolicy := RetryPolicy.submitted
    priority := 100
    submissionId := submissionId
    createdAt := acceptedAt
    updatedAt := acceptedAt
    messageState := .queued }

def recordSubmission (s : State) (request : MessageEnvelope) (jobs : List JobRecord)
    (submissionId : Option ℕ) (acceptedAt : Timestamp) (originMessageId : Option MessageId) :
    State × Option MessageId :=
  if jobs.isEmpty then (s, none)
  else
    let message := s.submissionMessage request jobs submissionId acceptedAt originMessageId
    let recorded := { s with messages := s.messages ++ [message], nextId := s.nextId + 1 }
    (jobs.foldl (fun s job => s.recordAttempt message.messageId job 0 acceptedAt) recorded,
      some message.messageId)

def nextRetryIndex (s : State) (messageId : MessageId) (agentName : AgentName) : ℕ :=
  s.attempts.foldl
    (fun next record =>
      if record.messageId = messageId ∧ record.agentName = agentName then
        max next (record.retryIndex + 1)
      else next)
    0

def recordRetryAttempt (s : State) (messageId : MessageId) (job : JobRecord)
    (acceptedAt : Timestamp) : State :=
  (s.recordAttempt messageId job (s.nextRetryIndex messageId job.agentName)
    acceptedAt).setMessageState messageId .queued acceptedAt

/-! ### Attempts -/

def isReplyDeliveryJob (job : JobRecord) : Bool :=
  job.request.messageType = .replyDelivery || job.providerOptions.replyDelivery

def resolveInboundForAttemptStart (s : State) (job : JobRecord) (attemptId : AttemptId) :
    Option InboundEventRecord :=
  let mailbox := s.mailboxes job.agentName
  let announced := mailbox.getLatestForAttempt attemptId
  if isReplyDeliveryJob job then
    (job.providerOptions.replyDeliveryInboundEventId.bind mailbox.getLatest) <|> announced
  else announced

end State

/-- The claim the start of an attempt makes on the event that announced it. -/
def claimForStart (mailbox : Mailbox) (inbound : Option InboundEventRecord)
    (startedAt : Timestamp) : Mailbox :=
  match inbound with
  | none => mailbox.rebuildMailboxSummary startedAt
  | some event =>
    if event.status.terminal then mailbox.rebuildMailboxSummary startedAt
    else if event.status = .delivering then mailbox
    else (mailbox.claim startedAt event.inboundEventId (some startedAt)).1

def attemptStateForStatus : JobStatus → AttemptState
  | .completed => .completed
  | .failed => .failed
  | .cancelled => .cancelled
  | _ => .incomplete

/-- The event found through the attempt is finished with the job. -/
def finishInbound (mailbox : Mailbox) (attemptId : AttemptId) (status : JobStatus)
    (finishedAt : Timestamp) : Mailbox :=
  match mailbox.getLatestForAttempt attemptId with
  | none => mailbox.rebuildMailboxSummary finishedAt
  | some inbound =>
    if inbound.status.terminal then mailbox.rebuildMailboxSummary finishedAt
    else if inbound.status.claimable && status = .cancelled then
      (mailbox.abandon finishedAt inbound.inboundEventId (some finishedAt)).1
    else (mailbox.consume finishedAt inbound.inboundEventId (some finishedAt)).1

namespace State

def markAttemptStarted (s : State) (job : JobRecord) (startedAt : Timestamp) : State :=
  match s.attemptForJob job.jobId with
  | none => s
  | some attempt =>
    ((s.appendAttempt { attempt with
        updatedAt := startedAt, attemptState := .running }).setMailbox job.agentName
      (claimForStart (s.mailboxes job.agentName)
        (s.resolveInboundForAttemptStart job attempt.attemptId) startedAt)).setMessageState
          attempt.messageId .running startedAt

def recordAttemptTerminal (s : State) (job : JobRecord) (finishedAt : Timestamp) : State :=
  match s.attemptForJob job.jobId with
  | none => s
  | some attempt =>
    ((s.appendAttempt { attempt with
        updatedAt := finishedAt
        attemptState := attemptStateForStatus job.status }).setMailbox job.agentName
      (finishInbound (s.mailboxes job.agentName) attempt.attemptId job.status
        finishedAt)).refreshMessageState attempt.messageId finishedAt

/-! ### Replies -/

def replyStatusForJob : JobStatus → ReplyTerminalStatus
  | .completed => .completed
  | .failed => .failed
  | .cancelled => .cancelled
  | _ => .incomplete

/-- `normalize_mailbox_target`: configured agents own mailboxes, nobody else does. -/
def mailboxActor (cfg : Config) : Actor → Option AgentName
  | .agent name => if name ∈ cfg.agents then some name else none
  | _ => none

def queueReplyDelivery (s : State) (callerMailbox : AgentName) (messageId : MessageId)
    (attemptId : AttemptId) (replyId : ReplyId) (finishedAt : Timestamp) : State :=
  let event : NewEvent :=
    { inboundEventId := s.nextId
      eventType := .taskReply
      messageId := messageId
      attemptId := some attemptId
      payloadRef := composeReplyPayload replyId none
      priority := 10
      createdAt := finishedAt }
  { s.setMailbox callerMailbox
      ((s.mailboxes callerMailbox).enqueue finishedAt event (some finishedAt)) with
    nextId := s.nextId + 1 }

/-- A reply row of the attempt, announced in the recipient's mailbox if it has one. -/
def appendReply (cfg : Config) (s : State) (job : JobRecord) (attempt : AttemptRecord)
    (terminalStatus : ReplyTerminalStatus) (notice : Bool) (recipient : Option Actor)
    (finishedAt : Timestamp) : State :=
  let reply : ReplyRecord :=
    { replyId := s.nextId
      messageId := attempt.messageId
      attemptId := attempt.attemptId
      agentName := job.agentName
      terminalStatus := terminalStatus
      notice := notice
      finishedAt := finishedAt }
  let recorded := { s with replies := s.replies ++ [reply], nextId := s.nextId + 1 }
  let queued :=
    match recipient.bind (mailboxActor cfg) with
    | none => recorded
    | some mailbox =>
      recorded.queueReplyDelivery mailbox attempt.messageId attempt.attemptId reply.replyId
        finishedAt
  queued.refreshMessageState attempt.messageId finishedAt

def recordReply (cfg : Config) (s : State) (job : JobRecord) (finishedAt : Timestamp)
    (deliverToCaller : Bool) : State × Option ReplyId :=
  match s.attemptForJob job.jobId with
  | none => (s, none)
  | some attempt =>
    (appendReply cfg s job attempt (replyStatusForJob job.status) false
      (if deliverToCaller then some job.request.fromActor else none) finishedAt, some s.nextId)

def recordNotice (cfg : Config) (s : State) (job : JobRecord)
    (terminalStatus : ReplyTerminalStatus) (deliverToActor : Actor) (finishedAt : Timestamp) :
    State :=
  match s.attemptForJob job.jobId with
  | none => s
  | some attempt =>
    appendReply cfg s job attempt terminalStatus true (some deliverToActor) finishedAt

def recordTerminal (cfg : Config) (s : State) (job : JobRecord) (finishedAt : Timestamp)
    (recordReplyEnabled : Bool) : State :=
  let ended := s.recordAttemptTerminal job finishedAt
  if recordReplyEnabled then (recordReply cfg ended job finishedAt true).1 else ended

end State

end CodexBridge.Dispatch
