import CodexBridge.Dispatch.Callbacks

/-! Reply delivery: the reply at the head of a mailbox gets a delivery job, the
event's payload names that job, and the end of the job consumes the event or
puts it back. -/

namespace CodexBridge.Dispatch

open Mailbox (InboundEventRecord InboundEventType InboundEventStatus)

namespace State

/-! ### Heads -/

def headReplyEvent (s : State) (agentName : AgentName) : Option InboundEventRecord :=
  (s.mailboxes agentName).headPendingEvent.filter fun head => head.eventType == .taskReply

def projectIdForAgent (w : World) (s : State) (agentName : AgentName) : Bool :=
  w.projectKnown agentName || !(s.listAgent agentName).isEmpty

def rewriteReplyHead (s : State) (agentName : AgentName) (inboundEventId : InboundEventId)
    (replyId : ReplyId) (deliveryJobId : Option JobId) (updatedAt : Timestamp) : State :=
  s.setMailbox agentName ((s.mailboxes agentName).rewriteHead updatedAt inboundEventId
    (composeReplyPayload replyId deliveryJobId) .queued (some updatedAt) true).1

/-- The mailbox after the end of a delivery job: the reply event is consumed, or
requeued without the job. -/
def resolveDelivery (mailbox : Mailbox) (job : JobRecord) (finishedAt : Timestamp) : Mailbox :=
  match job.providerOptions.replyDeliveryInboundEventId,
      job.providerOptions.replyDeliveryReplyId with
  | some inboundEventId, some replyId =>
    match mailbox.getLatest inboundEventId with
    | none => mailbox
    | some _ =>
      if job.status = .completed then
        (mailbox.consume finishedAt inboundEventId (some finishedAt)).1
      else
        (mailbox.rewriteHead finishedAt inboundEventId (composeReplyPayload replyId none) .queued
          (some finishedAt) true).1
  | _, _ => mailbox

def resolveReplyDeliveryTerminal (s : State) (job : JobRecord) (finishedAt : Timestamp) : State :=
  if isReplyDeliveryJob job then
    s.setMailbox job.agentName (resolveDelivery (s.mailboxes job.agentName) job finishedAt)
  else s

/-! ### Preparation -/

def buildJobRecord (cfg : Config) (s : State) (agentName : AgentName) (request : MessageEnvelope)
    (options : ProviderOptions) (submissionId : Option ℕ) (acceptedAt : Timestamp) : JobRecord :=
  { jobId := s.nextId
    submissionId := submissionId
    agentName := agentName
    provider := (cfg.spec agentName).provider
    providerOptions := options
    request := request
    status := s.pendingStatus agentName
    terminalDecision := none
    cancelRequestedAt := none
    createdAt := acceptedAt
    updatedAt := acceptedAt }

def replyDeliveryRequest (cfg : Config) (agentName : AgentName) (reply : ReplyRecord) :
    MessageEnvelope :=
  { target := .agent agentName
    fromActor := .system
    body := cfg.replyDeliveryBody reply
    taskId := some (.reply reply.replyId)
    replyTo := none
    messageType := .replyDelivery
    silenceOnSuccess := false
    routeOptions := ⟨none, none⟩
    bodyArtifact := none }

def appendReplyDeliveryMessage (s : State) (job : JobRecord) (reply : ReplyRecord)
    (acceptedAt : Timestamp) : State :=
  let message : MessageRecord :=
    { messageId := s.nextId
      originMessageId := some reply.messageId
      fromActor := .system
      targetScope := .single
      targetAgents := [job.agentName]
      messageClass := .replyDelivery
      retryPolicy := RetryPolicy.manual
      priority := 10
      submissionId := none
      createdAt := acceptedAt
      updatedAt := acceptedAt
      messageState := .queued }
  let attempt : AttemptRecord :=
    { attemptId := s.nextId + 1
      messageId := s.nextId
      agentName := job.agentName
      provider := job.provider
      jobId := job.jobId
      retryIndex := 0
      startedAt := acceptedAt
      updatedAt := acceptedAt
      attemptState := .pending }
  { s with
    messages := s.messages ++ [message]
    attempts := s.attempts ++ [attempt]
    nextId := s.nextId + 2 }

def replyDeliveryOptions (inboundEventId : InboundEventId) (replyId : ReplyId) :
    ProviderOptions :=
  ⟨true, some inboundEventId, some replyId, false, none⟩

def buildReplyDeliveryJob (cfg : Config) (s : State) (agentName : AgentName)
    (head : InboundEventRecord) (reply : ReplyRecord) (acceptedAt : Timestamp) :
    State × JobRecord :=
  let job := s.buildJobRecord cfg agentName (replyDeliveryRequest cfg agentName reply)
    (replyDeliveryOptions head.inboundEventId reply.replyId) none acceptedAt
  let enqueued := { s.enqueueJob job with nextId := s.nextId + 1 }
  ((enqueued.appendReplyDeliveryMessage job reply acceptedAt).rewriteReplyHead agentName
      head.inboundEventId reply.replyId (some job.jobId) acceptedAt, job)

/-- The head loses the delivery job it names, and is read again. -/
def resetStaleReplyHead (s : State) (agentName : AgentName) (head : InboundEventRecord)
    (replyId : ReplyId) (now : Timestamp) : State :=
  s.rewriteReplyHead agentName head.inboundEventId replyId none now

/-- The head a delivery may be prepared for, after settling the delivery it names. -/
def resolveExistingDeliveryJob (s : State) (agentName : AgentName) (head : InboundEventRecord)
    (replyId : ReplyId) (now : Timestamp) : State × Option InboundEventRecord :=
  match deliveryJobIdFromPayload head.payloadRef with
  | none => (s, some head)
  | some deliveryJobId =>
    match s.getJob deliveryJobId with
    | none =>
      let reset := s.resetStaleReplyHead agentName head replyId now
      (reset, reset.headReplyEvent agentName)
    | some current =>
      if current.status.pending || current.status = .running then (s, none)
      else if current.status = .completed then
        (s.resolveReplyDeliveryTerminal current current.updatedAt, none)
      else
        let reset := s.resetStaleReplyHead agentName head replyId now
        (reset, reset.headReplyEvent agentName)

def prepareAgentReplyDelivery (cfg : Config) (w : World) (depth : ℕ) (s : State)
    (agentName : AgentName) : State × Option JobRecord :=
  match s.headReplyEvent agentName with
  | none => (s, none)
  | some head =>
    match replyIdFromPayload head.payloadRef with
    | none => (s, none)
    | some replyId =>
      match s.resolveExistingDeliveryJob agentName head replyId (w.clock depth (.reset agentName))
          with
      | (resolved, none) => (resolved, none)
      | (resolved, some ready) =>
        match resolved.getReply replyId with
        | none => (resolved, none)
        | some reply =>
          if resolved.projectIdForAgent w agentName then
            match resolved.buildReplyDeliveryJob cfg agentName ready reply
                (w.clock depth (.prepare agentName)) with
            | (built, job) => (built, some job)
          else (resolved, none)

/-! ### Repair -/

/-- A running delivery whose execution is gone. -/
def staleDeliveryDecision (finishedAt : Timestamp) : CompletionDecision :=
  { status := .incomplete
    reason := "reply_delivery_stale_running_repaired"
    errorType := ""
    anchorSeen := false
    replyStarted := false
    finishedAt := finishedAt
    delegated := none }

/-- `repair_agent_reply_delivery_head`; `complete` is the dispatcher's own operation. -/
def repairAgentReplyDeliveryHead (cfg : Config) (w : World) (depth : ℕ)
    (complete : State → JobId → CompletionDecision → State) (s : State)
    (agentName : AgentName) : State :=
  match s.headReplyEvent agentName with
  | none => s
  | some head =>
    match replyIdFromPayload head.payloadRef with
    | none => s
    | some replyId =>
      match deliveryJobIdFromPayload head.payloadRef with
      | none =>
        if (s.mailboxes agentName).lease.any fun lease =>
            lease.inboundEventId == head.inboundEventId
        then s.resetStaleReplyHead agentName head replyId (w.clock depth (.reset agentName))
        else s
      | some deliveryJobId =>
        match s.getJob deliveryJobId with
        | none => s.resetStaleReplyHead agentName head replyId (w.clock depth (.reset agentName))
        | some current =>
          if current.status ≠ .running then s
          else
            match (if cfg.executionService then w.persistedDecision current.jobId else none) with
            | some decision => complete s current.jobId decision
            | none =>
              if cfg.executionService && w.executionLive current.jobId then s
              else complete s current.jobId
                (staleDeliveryDecision (w.clock depth (.stale current.jobId)))

/-- Repair every head, then prepare each agent's head; the created jobs in agent order. -/
def prepareReplyDeliveries (cfg : Config) (w : World) (depth : ℕ)
    (complete : State → JobId → CompletionDecision → State) (s : State) :
    State × List JobRecord :=
  let repaired := cfg.agents.foldl (repairAgentReplyDeliveryHead cfg w depth complete) s
  cfg.agents.foldl
    (fun acc agentName =>
      let prepared := prepareAgentReplyDelivery cfg w depth acc.1 agentName
      (prepared.1, acc.2 ++ prepared.2.toList))
    (repaired, [])

/-! ### Claims -/

def claimableReplyDeliveryJobIds (s : State) (agentName : AgentName) : List JobId :=
  match s.headReplyEvent agentName with
  | none => []
  | some head =>
    match deliveryJobIdFromPayload head.payloadRef with
    | none => []
    | some jobId =>
      match s.getJob jobId with
      | none => []
      | some current => if current.status.pending then [jobId] else []

def claimReplyDeliveryStart (s : State) (job : JobRecord) (startedAt : Timestamp) :
    State × Bool :=
  if !isReplyDeliveryJob job then (s, true)
  else
    match job.providerOptions.replyDeliveryInboundEventId with
    | none => (s, false)
    | some inboundEventId =>
      match s.headReplyEvent job.agentName with
      | none => (s, false)
      | some head =>
        if head.inboundEventId ≠ inboundEventId then (s, false)
        else
          match (s.mailboxes job.agentName).claim startedAt inboundEventId (some startedAt) with
          | (mailbox, claimed) => (s.setMailbox job.agentName mailbox, claimed.isSome)

end State

end CodexBridge.Dispatch
