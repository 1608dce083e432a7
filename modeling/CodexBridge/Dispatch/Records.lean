import CodexBridge.Mailbox.Transitions

/-! The records of the dispatcher and of the message bureau, and the state they
live in. Stores are append-only logs; the queues and the active slots are the
in-memory part. Texts of replies and bodies that no function branches on are
carried only where a later check reads them. -/

namespace CodexBridge.Dispatch

open AppendLog

/-! ### Enumerations -/

inductive JobStatus where
  | accepted | queued | running | completed | cancelled | failed | incomplete
  deriving DecidableEq

/-- `_PENDING_STATES` -/
def JobStatus.pending : JobStatus → Bool
  | .accepted | .queued => true
  | _ => false

/-- The statuses that have an entry in `_TERMINAL_EVENT_BY_STATUS`. -/
def JobStatus.terminal : JobStatus → Bool
  | .completed | .cancelled | .failed | .incomplete => true
  | _ => false

inductive CompletionStatus where
  | completed | cancelled | failed | incomplete
  deriving DecidableEq

def CompletionStatus.jobStatus : CompletionStatus → JobStatus
  | .completed => .completed
  | .cancelled => .cancelled
  | .failed => .failed
  | .incomplete => .incomplete

inductive MessageState where
  | created | queued | dispatching | running | partiallyReplied
  | completed | incomplete | failed | cancelled | deadLetter
  deriving DecidableEq

def MessageState.terminal : MessageState → Bool
  | .completed | .incomplete | .failed | .cancelled | .deadLetter => true
  | _ => false

inductive AttemptState where
  | pending | delivering | running | waitingCompletion | replyReady | stalled | runtimeDead
  | failed | incomplete | cancelled | superseded | deadLetter | completed
  deriving DecidableEq

/-- `_TERMINAL_ATTEMPT_STATES` -/
def AttemptState.terminal : AttemptState → Bool
  | .completed | .incomplete | .failed | .cancelled | .superseded | .deadLetter => true
  | _ => false

inductive ReplyTerminalStatus where
  | completed | incomplete | failed | cancelled
  deriving DecidableEq

inductive CallbackEdgeState where
  | pending | childCompleted | continuationSubmitted | done | failed | timedOut
  deriving DecidableEq

/-- `_TERMINAL_CALLBACK_STATES` -/
def CallbackEdgeState.terminal : CallbackEdgeState → Bool
  | .continuationSubmitted | .done | .failed | .timedOut => true
  | .pending | .childCompleted => false

/-- Who sends a request: an agent, or one of the `NON_AGENT_ACTORS`. -/
inductive Actor where
  | agent (name : AgentName)
  | user | system | manual | email | cmd
  deriving DecidableEq

inductive MessageType where
  | ask | replyDelivery | callbackContinuation
  | other (name : String)
  deriving DecidableEq

inductive RouteMode where
  | callback | callbackContinuation
  | other (name : String)
  deriving DecidableEq

/-- One agent (`single` scope), or every alive agent (`broadcast` scope). -/
inductive Target where
  | agent (name : AgentName)
  | all
  deriving DecidableEq

inductive DeliveryScope where
  | single | broadcast
  deriving DecidableEq

/-! ### Requests and jobs -/

structure RouteOptions where
  mode : Option RouteMode
  callbackEdgeId : Option EdgeId

/-- `task_id` is a text of the caller, or names a message or a reply. -/
inductive TaskId where
  | text (value : String)
  | message (messageId : MessageId)
  | reply (replyId : ReplyId)

structure MessageEnvelope where
  target : Target
  fromActor : Actor
  body : String
  taskId : Option TaskId
  replyTo : Option ℕ
  messageType : MessageType
  silenceOnSuccess : Bool
  routeOptions : RouteOptions
  bodyArtifact : Option String

def MessageEnvelope.deliveryScope (request : MessageEnvelope) : DeliveryScope :=
  match request.target with
  | .agent _ => .single
  | .all => .broadcast

structure ProviderOptions where
  replyDelivery : Bool
  replyDeliveryInboundEventId : Option InboundEventId
  replyDeliveryReplyId : Option ReplyId
  retryDeliveryContinue : Bool
  retrySourceJobId : Option JobId

def ProviderOptions.none : ProviderOptions := ⟨false, Option.none, Option.none, false, Option.none⟩

/-- A terminal completion decision. `reason` and `errorType` are stored stripped
and in lower case, which is how every reader takes them. -/
structure CompletionDecision where
  status : CompletionStatus
  reason : String
  errorType : String
  anchorSeen : Bool
  replyStarted : Bool
  finishedAt : Timestamp
  delegated : Option EdgeId

structure JobRecord where
  jobId : JobId
  submissionId : Option ℕ
  agentName : AgentName
  provider : String
  providerOptions : ProviderOptions
  request : MessageEnvelope
  status : JobStatus
  terminalDecision : Option CompletionDecision
  cancelRequestedAt : Option Timestamp
  createdAt : Timestamp
  updatedAt : Timestamp

/-! ### Message bureau -/

structure RetryPolicy where
  auto : Bool
  maxAttempts : ℕ
  retryableReasons : List String
  retryRuntimeWhenResumeSupported : Bool
  retryableRuntimeReasons : List String

def RetryPolicy.submitted : RetryPolicy :=
  ⟨true, 3, ["api_error", "transport_error"], true, ["pane_dead", "pane_unavailable"]⟩

def RetryPolicy.manual : RetryPolicy := ⟨false, 1, [], true, []⟩

structure MessageRecord where
  messageId : MessageId
  originMessageId : Option MessageId
  fromActor : Actor
  targetScope : DeliveryScope
  targetAgents : List AgentName
  messageClass : MessageType
  retryPolicy : RetryPolicy
  priority : ℕ
  submissionId : Option ℕ
  createdAt : Timestamp
  updatedAt : Timestamp
  messageState : MessageState

structure AttemptRecord where
  attemptId : AttemptId
  messageId : MessageId
  agentName : AgentName
  provider : String
  jobId : JobId
  retryIndex : ℕ
  startedAt : Timestamp
  updatedAt : Timestamp
  attemptState : AttemptState

structure ReplyRecord where
  replyId : ReplyId
  messageId : MessageId
  attemptId : AttemptId
  agentName : AgentName
  terminalStatus : ReplyTerminalStatus
  notice : Bool
  finishedAt : Timestamp

/-- `child_status` holds the text of a job status or of a failed edge state. -/
inductive ChildStatus where
  | job (status : JobStatus)
  | edge (state : CallbackEdgeState)
  deriving DecidableEq

structure CallbackEdgeRecord where
  edgeId : EdgeId
  parentJobId : JobId
  parentMessageId : MessageId
  parentAgent : AgentName
  childJobId : JobId
  childMessageId : MessageId
  childAgent : AgentName
  callbackTargetAgent : AgentName
  originalCaller : Actor
  originalTaskId : TaskId
  state : CallbackEdgeState
  childReplyId : Option ReplyId
  childStatus : Option ChildStatus
  continuationJobId : Option JobId
  continuationMessageId : Option MessageId
  timeoutAt : Timestamp
  createdAt : Timestamp
  updatedAt : Timestamp

/-! ### Configuration and environment -/

structure AgentSpec where
  provider : String
  rejectWhenBusy : Bool

/-- The configuration, and the pure functions of the program whose results the
dispatcher only passes on: deadline arithmetic, failure classification, rendering. -/
structure Config where
  agents : List AgentName
  nodup : agents.Nodup
  spec : AgentName → AgentSpec
  maxCallbackDepth : ℕ
  executionService : Bool
  callbackTimeoutAt : Timestamp → Timestamp
  callbackExpired : Timestamp → Timestamp → Bool
  providerSupportsResume : String → Bool
  isNonretryableApiFailure : CompletionDecision → Bool
  continuationBody : CallbackEdgeRecord → JobRecord → CompletionDecision → String × Option String
  replyDeliveryBody : ReplyRecord → String

/-- Where an operation reads the clock. -/
inductive ClockSite where
  | accepted
  | sweep
  | repair (edgeId : EdgeId)
  | reset (agentName : AgentName)
  | prepare (agentName : AgentName)
  | start (agentName : AgentName)
  | stale (jobId : JobId)
  | release
  | retry
  | shutdown (jobId : JobId)
  deriving DecidableEq

/-- How the provider takes a reply delivery at start: it refuses it, it will report
completion later, or it has sent it. -/
inductive DeliveryStart where
  | unavailable | dispatched | sent
  deriving DecidableEq

/-- What one operation sees of the clock, the runtimes and the providers. Nested
operations read the clock again at a smaller depth. -/
structure World where
  clock : ℕ → ClockSite → Timestamp
  alive : AgentName → Bool
  runnable : AgentName → Bool
  projectKnown : AgentName → Bool
  anchorSeen : JobId → Bool
  replyStarted : JobId → Bool
  deliveryStart : JobId → DeliveryStart
  persistedDecision : JobId → Option CompletionDecision
  executionLive : JobId → Bool
  runtimeStale : AgentName → Bool
  artifactValid : String → Bool

inductive DispatchError where
  | unknownSender | unknownAgent | noEligibleTargets | rejectedWhileBusy
  | bodyTooLarge | invalidArtifact
  | nestedAskRequiresCallback | callbackSingleTarget | callbackRequiresParent
  | callbackParentMessage | callbackOutstanding | callbackDepth | callbackCycle
  | messageNotFound | noAttempts | missingLineage | activeAttempts | jobNotFound
  | retryTargetNotFound | attemptActive | attemptCompleted | notLatestAttempt
  | unknownJob | alreadyTerminal
  | unknownMailbox | inboxEmpty | ackRequiresHead | ackUnsupportedEvent | ackDeliveryScheduled
  | ackAttemptActive | ackReplyMissing | ackFailed
  | recoverRequiresSource
  deriving DecidableEq

/-! ### State -/

/-- `DispatcherState`: the queue and the active job of every agent. -/
structure Memory where
  queue : AgentName → List JobId
  active : AgentName → Option JobId

structure State where
  jobs : List JobRecord
  messages : List MessageRecord
  attempts : List AttemptRecord
  replies : List ReplyRecord
  edges : List CallbackEdgeRecord
  memory : Memory
  mailboxes : AgentName → Mailbox
  nextId : ℕ
  autoReplyDelivery : Bool

def State.initial (autoReplyDelivery : Bool) : State :=
  { jobs := []
    messages := []
    attempts := []
    replies := []
    edges := []
    memory := ⟨fun _ => [], fun _ => none⟩
    mailboxes := Mailbox.empty
    nextId := 0
    autoReplyDelivery := autoReplyDelivery }

end CodexBridge.Dispatch
