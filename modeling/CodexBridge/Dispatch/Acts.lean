import CodexBridge.Dispatch.Steps
import CodexBridge.Dispatch.Board

/-! The dispatcher's operations cut into acts. An act is the smallest group of
writes after which queues, logs, mailboxes and edges fit together again; every
operation is a path of acts, and an invariant has to be checked once per act. -/

namespace CodexBridge.Dispatch

open Mailbox (InboundEventRecord InboundEventType InboundEventStatus)

/-- Where a new job with a request event comes from. -/
inductive Origin where
  | submitted
  | retried (source : JobRecord)

inductive Act where
  | issue (count : ℕ)
  | newMessage (message : MessageRecord)
  | accept (origin : Origin) (job : JobRecord) (messageId : MessageId) (retryIndex : ℕ)
      (acceptedAt : Timestamp)
  | continuation (edge : CallbackEdgeRecord) (job : JobRecord) (acceptedAt : Timestamp)
  | startRequest (agentName : AgentName) (current : JobRecord) (startedAt : Timestamp)
  | startDelivery (agentName : AgentName) (current : JobRecord) (startedAt : Timestamp)
  | finish (current terminal : JobRecord) (finishedAt : Timestamp) (dequeue : Bool)
  | touch (record : JobRecord)
  | waiting (edge : CallbackEdgeRecord) (updatedAt : Timestamp)
  | reply (job : JobRecord) (attempt : AttemptRecord) (status : ReplyTerminalStatus)
      (recipient : Option Actor) (finishedAt : Timestamp)
  | notice (edge : CallbackEdgeRecord) (job : JobRecord) (attempt : AttemptRecord)
      (finishedAt : Timestamp)
  | register (edge : CallbackEdgeRecord)
  | update (edge : CallbackEdgeRecord)
  | deliver (agentName : AgentName) (head : InboundEventRecord) (record : ReplyRecord)
      (acceptedAt : Timestamp)
  | reset (agentName : AgentName) (event : InboundEventRecord) (replyId : ReplyId)
      (now : Timestamp)
  | consumeDelivered (agentName : AgentName) (head : InboundEventRecord) (job : JobRecord)
      (now : Timestamp)
  | acknowledge (agentName : AgentName) (head : InboundEventRecord) (now : Timestamp)
  | endRequest (agentName : AgentName) (event : InboundEventRecord)
      (status : InboundEventStatus) (now : Timestamp)
  | discard (agentName : AgentName) (head : InboundEventRecord) (now : Timestamp)
  | refresh (agentName : AgentName) (updatedAt : Timestamp)
  | disableAuto

/-- A callback in such a state is no longer waited for. -/
def CallbackEdgeState.over : CallbackEdgeState → Bool
  | .failed | .timedOut | .done => true
  | .pending | .childCompleted | .continuationSubmitted => false

theorem CallbackEdgeState.over_iff (state : CallbackEdgeState) :
    state.over = true ↔ state = .done ∨ state = .failed ∨ state = .timedOut := by
  cases state <;> simp [CallbackEdgeState.over]

/-- The row of an edge whose continuation has been submitted. -/
def CallbackEdgeRecord.submitted (edge : CallbackEdgeRecord) (jobId : JobId)
    (updatedAt : Timestamp) : CallbackEdgeRecord :=
  { edge with
    state := .continuationSubmitted
    continuationJobId := some jobId
    continuationMessageId := some edge.parentMessageId
    updatedAt := updatedAt }

namespace State

/-- A job enters the log, the queue, the attempts and the mailbox of its agent. -/
def accept (s : State) (job : JobRecord) (messageId : MessageId) (retryIndex : ℕ)
    (acceptedAt : Timestamp) : State :=
  ((s.enqueueJob job).recordAttempt messageId job retryIndex acceptedAt).setMessageState messageId
    .queued acceptedAt

/-- The terminal row, the attempt and the mailbox of a finished job. -/
def finish (s : State) (terminal : JobRecord) (finishedAt : Timestamp) (dequeue : Bool) : State :=
  (({ s.appendJob terminal with
    memory := s.memory.leave dequeue terminal.agentName terminal.jobId }).recordAttemptTerminal
      terminal finishedAt).resolveReplyDeliveryTerminal terminal finishedAt

end State

namespace Act

def apply (cfg : Config) (s : State) : Act → State
  | .issue count => { s with nextId := s.nextId + count }
  | .newMessage message =>
    { s with messages := s.messages ++ [message], nextId := s.nextId + 1 }
  | .accept _ job messageId retryIndex acceptedAt => s.accept job messageId retryIndex acceptedAt
  | .continuation edge job acceptedAt =>
    (s.accept job edge.parentMessageId
      (s.nextRetryIndex edge.parentMessageId job.agentName) acceptedAt).appendEdge
      (edge.submitted job.jobId acceptedAt)
  | .startRequest agentName current startedAt =>
    (s.dequeue agentName current.jobId).beginRunningJob current startedAt
  | .startDelivery agentName current startedAt =>
    ((s.claimReplyDeliveryStart current startedAt).1.dequeue agentName
      current.jobId).beginRunningJob current startedAt
  | .finish _ terminal finishedAt dequeue => s.finish terminal finishedAt dequeue
  | .touch record => s.appendJob record
  | .waiting edge updatedAt => s.setMessageState edge.parentMessageId .running updatedAt
  | .reply job attempt status recipient finishedAt =>
    State.appendReply cfg s job attempt status false recipient finishedAt
  | .notice edge job attempt finishedAt =>
    State.appendReply cfg s job attempt .failed true (some edge.originalCaller) finishedAt
  | .register edge => { s.appendEdge edge with nextId := s.nextId + 1 }
  | .update edge => s.appendEdge edge
  | .deliver agentName head record acceptedAt =>
    (s.buildReplyDeliveryJob cfg agentName head record acceptedAt).1
  | .reset agentName event replyId now =>
    s.rewriteReplyHead agentName event.inboundEventId replyId none now
  | .consumeDelivered _ _ job now => s.resolveReplyDeliveryTerminal job now
  | .acknowledge agentName head now =>
    s.setMailbox agentName
      ((s.mailboxes agentName).ackReply now head.inboundEventId (some now) (some now)).1
  | .endRequest agentName event status now =>
    s.setMailbox agentName
      ((s.mailboxes agentName).markTerminal now event.inboundEventId status (some now)).1
  | .discard agentName head now =>
    s.setMailbox agentName
      ((s.mailboxes agentName).abandon now head.inboundEventId (some now)).1
  | .refresh agentName updatedAt => s.rebuildMailbox agentName updatedAt
  | .disableAuto => s.disableAutoReplyDelivery

/-- The states an edge may move between. -/
def edgeMove (old new : CallbackEdgeState) : Prop :=
  old ≠ .done ∧ old ≠ .failed ∧ old ≠ .timedOut ∧ (old = .continuationSubmitted → new = .done)

/-- The delivery a payload names is over. -/
def deliveryOver (s : State) (payload : Option PayloadRef) : Prop :=
  ∀ d, deliveryJobIdFromPayload payload = some d →
    ∀ job, s.getJob d = some job → State.failedTerminal job.status = true

/-- A new job, with no row in the log, and not one id for two things. -/
structure NewJob (s : State) (cfg : Config) (job : JobRecord) : Prop where
  issued : job.jobId < s.nextId
  fresh : ∀ r ∈ s.jobs, r.jobId ≠ job.jobId
  distinct : ∀ x ∈ s.attempts, x.attemptId ≠ job.jobId
  pending : job.status.pending = true
  known : job.agentName ∈ cfg.agents
  edge_issued : ∀ e, job.request.routeOptions.callbackEdgeId = some e → e < s.nextId

/-- What a job keeps of the job it retries: the latest one of its agent on the message. -/
structure RetryOf (s : State) (source job : JobRecord) (messageId : MessageId)
    (retryIndex : ℕ) : Prop where
  found : s.getJob source.jobId = some source
  agentName : job.agentName = source.agentName
  fromActor : job.request.fromActor = source.request.fromActor
  routeOptions : job.request.routeOptions = source.request.routeOptions
  messageType : job.request.messageType = source.request.messageType
  providerOptions : job.providerOptions = State.retryProviderOptionsForJob source
  attempt : ∃ x ∈ s.attempts, x.jobId = source.jobId ∧ x.messageId = messageId
  ended : source.status.terminal = true
  latest : ∃ x, s.latestAttemptForAgent messageId job.agentName = some x ∧
    x.jobId = source.jobId
  index : retryIndex = s.nextRetryIndex messageId job.agentName

/-- What a job of a submission takes from its message: it is the first one of its agent
there. -/
structure SubmittedTo (s : State) (job : JobRecord) (messageId : MessageId)
    (retryIndex : ℕ) : Prop where
  providerOptions : job.providerOptions = ProviderOptions.none
  message : ∃ message, s.getMessage messageId = some message ∧ message.messageState = .queued ∧
    message.fromActor = job.request.fromActor ∧ job.agentName ∈ message.targetAgents
  parent : ∀ e ∈ s.edges, e.parentMessageId ≠ messageId
  child : ∀ e ∈ s.edges, e.childMessageId ≠ messageId
  first : ∀ x ∈ s.attempts, x.messageId = messageId → x.agentName ≠ job.agentName
  index : retryIndex = 0

/-- A continuation of an edge whose child has completed, for an agent that takes it. -/
structure ContinuationOf (cfg : Config) (s : State) (edge : CallbackEdgeRecord)
    (job : JobRecord) : Prop where
  found : s.getEdge edge.edgeId = some edge
  state : edge.state = .childCompleted
  providerOptions : job.providerOptions = ProviderOptions.none
  agentName : job.agentName = edge.callbackTargetAgent
  fromActor : job.request.fromActor = edge.originalCaller
  messageType : job.request.messageType = .callbackContinuation
  callbackEdgeId : job.request.routeOptions.callbackEdgeId = some edge.edgeId
  first : ∀ r ∈ s.jobs, r.agentName = edge.callbackTargetAgent →
    r.request.routeOptions.callbackEdgeId ≠ some edge.edgeId
  available : (cfg.spec edge.callbackTargetAgent).rejectWhenBusy = true →
    s.memory.hasOutstanding edge.callbackTargetAgent = false

/-- An edge between the active job of its parent agent and a child just submitted, with
what the check of the chain above it has found. -/
structure Registers (cfg : Config) (s : State) (edge : CallbackEdgeRecord) : Prop where
  edgeId : edge.edgeId = s.nextId
  state : edge.state = .pending
  target : edge.callbackTargetAgent = edge.parentAgent
  unanswered : edge.childReplyId = none
  parent : ∃ r, s.getJob edge.parentJobId = some r ∧ r.status = .running ∧
    r.agentName = edge.parentAgent ∧ r.request.fromActor = edge.originalCaller
  parent_attempt : ∃ x ∈ s.attempts, x.jobId = edge.parentJobId ∧
    x.messageId = edge.parentMessageId
  child_attempt : ∃ x ∈ s.attempts, x.jobId = edge.childJobId ∧ x.messageId = edge.childMessageId
  unreplied : ∀ r ∈ s.replies, r.messageId ≠ edge.childMessageId
  fresh : ∀ e ∈ s.edges, e.childJobId ≠ edge.childJobId ∧
    e.childMessageId ≠ edge.childMessageId ∧ e.parentJobId ≠ edge.parentJobId
  newest : ∀ x ∈ s.attempts, x.messageId ≤ edge.childMessageId
  below : edge.parentMessageId < edge.childMessageId
  child_agent : ∀ x ∈ s.attempts, x.messageId = edge.childMessageId →
    x.agentName = edge.childAgent
  depth : (s.callbackChainForParent edge.parentMessageId).length + 1 ≤ max 1 cfg.maxCallbackDepth
  acyclic : edge.childAgent ∉ edge.parentAgent ::
    (s.callbackChainForParent edge.parentMessageId).map CallbackEdgeRecord.parentAgent

/-- The rows of one edge differ in state and bookkeeping only. -/
structure SameEdge (e e' : CallbackEdgeRecord) : Prop where
  edgeId : e.edgeId = e'.edgeId
  parentJobId : e.parentJobId = e'.parentJobId
  parentMessageId : e.parentMessageId = e'.parentMessageId
  parentAgent : e.parentAgent = e'.parentAgent
  childJobId : e.childJobId = e'.childJobId
  childMessageId : e.childMessageId = e'.childMessageId
  childAgent : e.childAgent = e'.childAgent
  callbackTargetAgent : e.callbackTargetAgent = e'.callbackTargetAgent
  originalCaller : e.originalCaller = e'.originalCaller
  timeoutAt : e.timeoutAt = e'.timeoutAt

/-- A later row of an edge, which may name the reply it carries on; it says that the edge
is continued when there is a job that goes on with it. -/
structure Updates (s : State) (edge current : CallbackEdgeRecord) : Prop where
  found : s.getEdge edge.edgeId = some current
  same : SameEdge edge current
  move : edgeMove current.state edge.state
  reply : ∀ r, edge.childReplyId = some r → current.childReplyId = some r ∨
    ∃ reply ∈ s.replies, reply.replyId = r ∧ reply.messageId = edge.childMessageId ∧
      reply.notice = false
  submitted : edge.state = .continuationSubmitted →
    ∃ r ∈ s.jobs, r.request.routeOptions.callbackEdgeId = some edge.edgeId

/-- What the program has checked when it performs an act. -/
def guard (cfg : Config) (s : State) : Act → Prop
  | .newMessage message =>
    message.messageId = s.nextId ∧ message.messageState = .queued ∧ message.targetAgents.Nodup ∧
      message.targetAgents ≠ []
  | .accept .submitted job messageId retryIndex _ =>
    NewJob s cfg job ∧ SubmittedTo s job messageId retryIndex
  | .accept (.retried source) job messageId retryIndex _ =>
    NewJob s cfg job ∧ RetryOf s source job messageId retryIndex
  | .continuation edge job _ => NewJob s cfg job ∧ ContinuationOf cfg s edge job
  | .startRequest agentName current _ =>
    s.getJob current.jobId = some current ∧ s.claimableRequestJobId agentName = some current.jobId ∧
      current.jobId ∈ s.memory.queue agentName ∧ s.memory.active agentName = none
  | .startDelivery agentName current startedAt =>
    s.getJob current.jobId = some current ∧
      current.jobId ∈ s.claimableReplyDeliveryJobIds agentName ∧
      current.jobId ∈ s.memory.queue agentName ∧ s.memory.active agentName = none ∧
      (s.claimReplyDeliveryStart current startedAt).2 = true
  | .finish current terminal _ dequeue =>
    s.getJob current.jobId = some current ∧ current.status.terminal = false ∧
      (dequeue = false → current.status = .running) ∧ SameJob terminal current ∧
      terminal.status.terminal = true
  | .touch record =>
    ∃ current, s.getJob record.jobId = some current ∧ SameJob record current ∧
      record.status = current.status
  | .waiting edge _ => s.edgeForParentJob edge.parentJobId = some edge ∧ edge.state.over = false
  | .reply job attempt _ recipient _ =>
    s.attemptForJob job.jobId = some attempt ∧
      (∃ current, s.getJob job.jobId = some current ∧ SameJob job current ∧
        current.status.terminal = true) ∧
      (recipient = none ∨ recipient = some job.request.fromActor)
  | .notice edge job attempt _ =>
    edge ∈ s.edges ∧ s.getJob edge.parentJobId = some job ∧
      s.attemptForJob job.jobId = some attempt
  | .register edge => Registers cfg s edge
  | .update edge => ∃ current, Updates s edge current
  | .deliver agentName head record _ =>
    agentName ∈ cfg.agents ∧ s.headReplyEvent agentName = some head ∧
      head.payloadRef = some (.reply record.replyId none) ∧
      s.getReply record.replyId = some record
  | .reset agentName event replyId _ =>
    (s.mailboxes agentName).getLatest event.inboundEventId = some event ∧
      (replyIdFromPayload event.payloadRef = some replyId ∨
        ∃ r ∈ s.jobs, r.agentName = agentName ∧
          r.providerOptions.replyDeliveryInboundEventId = some event.inboundEventId ∧
          r.providerOptions.replyDeliveryReplyId = some replyId) ∧
      deliveryOver s event.payloadRef
  | .consumeDelivered agentName head job _ =>
    s.headReplyEvent agentName = some head ∧
      deliveryJobIdFromPayload head.payloadRef = some job.jobId ∧
      s.getJob job.jobId = some job ∧ job.status = .completed
  | .acknowledge agentName head _ =>
    (s.mailboxes agentName).headPendingEvent = some head ∧ head.eventType = .taskReply ∧
      deliveryJobIdFromPayload head.payloadRef = none
  | .endRequest agentName event status _ =>
    (s.mailboxes agentName).getLatest event.inboundEventId = some event ∧
      event.eventType = .taskRequest ∧ status.terminal = true ∧
      ((event.attemptId.bind s.getAttempt).all fun a => a.attemptState.terminal) = true
  | .discard agentName head _ =>
    (s.mailboxes agentName).headPendingEvent = some head ∧ s.eventIsLive head = false
  | .issue _ | .refresh _ _ | .disableAuto => True

end Act

/-- A path of acts, each permitted where it is performed. -/
def ActStep (cfg : Config) (permits : State → Act → Prop) (s s' : State) : Prop :=
  ∃ act : Act, permits s act ∧ act.guard cfg s ∧ s' = act.apply cfg s

def Path (cfg : Config) (permits : State → Act → Prop) : State → State → Prop :=
  Relation.ReflTransGen (ActStep cfg permits)

end CodexBridge.Dispatch
