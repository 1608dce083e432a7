import CodexBridge.Dispatch.ReplyDelivery
import Mathlib.Data.List.Sort
import Mathlib.Data.Prod.Lex

/-! Submission, manual and automatic retry, and resubmission. A refused request
raises before any store is written, except in the late registration of a
callback edge. -/

namespace CodexBridge.Dispatch

open AppendLog

/-- `_SubmissionPlan`; every draft is the request addressed to one agent. -/
structure SubmissionPlan where
  request : MessageEnvelope
  targets : List AgentName
  submissionId : Option ℕ
  originMessageId : Option MessageId

/-- `_message_for_agent` -/
def messageForAgent (request : MessageEnvelope) (agentName : AgentName) : MessageEnvelope :=
  { request with target := .agent agentName }

/-- `TEXT_ARTIFACT_SPILL_BYTES` -/
def spillBytes : ℕ := 4096

def shouldSpillText (body : String) : Bool := body.utf8ByteSize > spillBytes

def validateSender (cfg : Config) : Actor → Except DispatchError Unit
  | .cmd => .error .unknownSender
  | .agent name => if name ∈ cfg.agents then .ok () else .error .unknownSender
  | _ => .ok ()

def validateRequestBodyArtifact (w : World) (request : MessageEnvelope) :
    Except DispatchError Unit :=
  if shouldSpillText request.body then .error .bodyTooLarge
  else
    match request.bodyArtifact with
    | none => .ok ()
    | some artifact => if w.artifactValid artifact then .ok () else .error .invalidArtifact

def resolveTargets (cfg : Config) (w : World) (request : MessageEnvelope) :
    Except DispatchError (List AgentName) :=
  match request.target with
  | .agent name => if name ∈ cfg.agents then .ok [name] else .error .unknownAgent
  | .all => .ok (((cfg.agents.filter w.alive).filter
      fun name => request.fromActor ≠ .agent name).mergeSort)

namespace State

def planAgentSubmission (cfg : Config) (w : World) (s : State) (request : MessageEnvelope) :
    Except DispatchError SubmissionPlan := do
  validateSender cfg request.fromActor
  validateRequestBodyArtifact w request
  s.validateCallbackRequest cfg request
  let targets ← resolveTargets cfg w request
  if targets.isEmpty then throw .noEligibleTargets
  s.validateTargetsAvailable cfg targets
  return {
    request := request
    targets := targets
    submissionId := if request.deliveryScope = .broadcast then some s.nextId else none
    originMessageId := none }

/-- The jobs of a plan enter the log and the queues one after the other. -/
def enqueueDrafts (cfg : Config) (s : State) (plan : SubmissionPlan) (acceptedAt : Timestamp) :
    State × List JobRecord :=
  plan.targets.foldl
    (fun acc agentName =>
      let job := acc.1.buildJobRecord cfg agentName (messageForAgent plan.request agentName)
        ProviderOptions.none plan.submissionId acceptedAt
      ({ acc.1.enqueueJob job with nextId := acc.1.nextId + 1 }, acc.2 ++ [job]))
    ({ s with nextId := s.nextId + 1 }, [])

/-- `_submit_plan`. A refused callback edge is raised after the jobs are recorded. -/
def submitPlan (cfg : Config) (s : State) (plan : SubmissionPlan) (acceptedAt : Timestamp) :
    State × Except DispatchError (Option MessageId) :=
  match s.enqueueDrafts cfg plan acceptedAt with
  | (enqueued, jobs) =>
    match enqueued.recordSubmission plan.request jobs plan.submissionId acceptedAt
        plan.originMessageId with
    | (recorded, none) => (recorded, .ok none)
    | (recorded, some messageId) =>
      match registerCallbackEdge cfg recorded plan.request jobs messageId acceptedAt with
      | (registered, .ok _) => (registered, .ok (some messageId))
      | (registered, .error e) => (registered, .error e)

def submitJobs (cfg : Config) (w : World) (s : State) (request : MessageEnvelope) :
    State × Except DispatchError (Option MessageId) :=
  match s.planAgentSubmission cfg w request with
  | .error e => (s, .error e)
  | .ok plan => s.submitPlan cfg plan (w.clock 0 .accepted)

/-! ### Resubmission -/

/-- `_attempt_sort_key` -/
def attemptSortKey (attempt : AttemptRecord) : ℕ ×ₗ Timestamp ×ₗ AttemptId :=
  toLex (attempt.retryIndex, toLex (attempt.updatedAt, attempt.attemptId))

/-- `_latest_attempts_by_agent`, read at one agent: the greatest by the sort key, the
first of equals. -/
def latestAttemptForAgent (s : State) (messageId : MessageId) (agentName : AgentName) :
    Option AttemptRecord :=
  (s.latestAttempts messageId).foldl
    (fun current record =>
      if record.agentName = agentName then
        match current with
        | none => some record
        | some best => if attemptSortKey best < attemptSortKey record then some record
          else some best
      else current)
    none

def planMessageResubmission (cfg : Config) (w : World) (s : State) (messageId : MessageId) :
    Except DispatchError SubmissionPlan := do
  let some original := s.getMessage messageId | throw .messageNotFound
  if (s.latestAttempts messageId).isEmpty then throw .noAttempts
  if original.targetAgents.any fun name => (s.latestAttemptForAgent messageId name).isNone then
    throw .missingLineage
  if (s.latestAttempts messageId).any fun attempt =>
      (s.latestAttemptForAgent messageId attempt.agentName).any fun best =>
        !best.attemptState.terminal
  then throw .activeAttempts
  let jobs ← original.targetAgents.mapM fun name =>
    if name ∈ cfg.agents then
      match (s.latestAttemptForAgent messageId name).bind fun attempt =>
          findLast (fun record => decide (record.jobId = attempt.jobId)) (s.listAgent name) with
      | some job => Except.ok job
      | none => .error DispatchError.jobNotFound
    else .error .unknownAgent
  let some source := jobs.head? | throw .jobNotFound
  let target := match original.targetAgents with
    | [name] => Target.agent name
    | _ => Target.all
  let request := { source.request with target := target, fromActor := original.fromActor }
  validateSender cfg request.fromActor
  validateRequestBodyArtifact w request
  s.validateTargetsAvailable cfg original.targetAgents
  return {
    request := request
    targets := original.targetAgents
    submissionId := if request.deliveryScope = .broadcast then some s.nextId else none
    originMessageId := some messageId }

def resubmitMessage (cfg : Config) (w : World) (s : State) (messageId : MessageId) :
    State × Except DispatchError (Option MessageId) :=
  match s.planMessageResubmission cfg w messageId with
  | .error e => (s, .error e)
  | .ok plan => s.submitPlan cfg plan (w.clock 0 .accepted)

/-! ### Retry -/

def shouldRetryWithContinue (job : JobRecord) : Bool :=
  job.request.messageType = .ask &&
    (job.providerOptions.retryDeliveryContinue ||
      job.terminalDecision.any fun decision => decision.anchorSeen || decision.replyStarted)

def retryRequestForJob (job : JobRecord) : MessageEnvelope :=
  if shouldRetryWithContinue job then { job.request with body := "continue" } else job.request

def retryProviderOptionsForJob (job : JobRecord) : ProviderOptions :=
  { job.providerOptions with
    retryDeliveryContinue := shouldRetryWithContinue job
    retrySourceJobId := some job.jobId }

/-- What a retry has checked before it writes. -/
structure RetryPlan where
  attempt : AttemptRecord
  message : MessageRecord
  job : JobRecord

/-- The checks of `retry_attempt`; the target is an attempt id or a job id. -/
def planRetry (cfg : Config) (s : State) (target : ℕ) : Except DispatchError RetryPlan := do
  let some attempt := s.getAttempt target <|> s.attemptForJob target | throw .retryTargetNotFound
  if !attempt.attemptState.terminal then throw .attemptActive
  if attempt.attemptState = .completed then throw .attemptCompleted
  let some newest := s.latestAttemptForAgent attempt.messageId attempt.agentName
    | throw .missingLineage
  if newest.attemptId ≠ attempt.attemptId then throw .notLatestAttempt
  let some message := s.getMessage attempt.messageId | throw .messageNotFound
  s.validateTargetsAvailable cfg [attempt.agentName]
  let some job :=
    findLast (fun record => decide (record.jobId = attempt.jobId)) (s.listAgent attempt.agentName)
    | throw .jobNotFound
  return ⟨attempt, message, job⟩

def retryJobRecord (s : State) (plan : RetryPlan) (acceptedAt : Timestamp) : JobRecord :=
  { plan.job with
    jobId := s.nextId
    submissionId := plan.message.submissionId
    providerOptions := retryProviderOptionsForJob plan.job
    request := retryRequestForJob plan.job
    status := s.pendingStatus plan.job.agentName
    terminalDecision := none
    cancelRequestedAt := none
    createdAt := acceptedAt
    updatedAt := acceptedAt }

def applyRetry (s : State) (plan : RetryPlan) (acceptedAt : Timestamp) : State :=
  let job := s.retryJobRecord plan acceptedAt
  ({ s.enqueueJob job with nextId := s.nextId + 1 }).recordRetryAttempt plan.attempt.messageId job
    acceptedAt

/-- `retry_attempt`, with the new job's id. -/
def retryAttempt (cfg : Config) (s : State) (target : ℕ) (acceptedAt : Timestamp) :
    Except DispatchError (State × JobId) := do
  let plan ← s.planRetry cfg target
  return (s.applyRetry plan acceptedAt, s.nextId)

end State

end CodexBridge.Dispatch
