import CodexBridge.Dispatch.Bureau

/-! Callback edges: a running parent job delegates to a child request, and the
child's result comes back to the parent's agent as a continuation job. -/

namespace CodexBridge.Dispatch

/-! ### Routing checks shared with submission -/

def requestCallbackRoute (request : MessageEnvelope) : Bool :=
  request.routeOptions.mode = some .callback

def isPlainAsk (request : MessageEnvelope) : Bool :=
  request.messageType = .ask && !requestCallbackRoute request

namespace State

/-- `_active_parent_job` -/
def activeParentJob (cfg : Config) (s : State) : Actor → Option JobRecord
  | .agent name => if name ∈ cfg.agents then (s.memory.active name).bind s.getJob else none
  | _ => none

def validateNestedAskRequest (cfg : Config) (s : State) (request : MessageEnvelope) :
    Except DispatchError Unit :=
  if !isPlainAsk request || request.silenceOnSuccess then .ok ()
  else
    match s.activeParentJob cfg request.fromActor with
    | none => .ok ()
    | some _ => .error .nestedAskRequiresCallback

/-- `_callback_chain_for_parent`: upwards along the edges, a message at most once. -/
def callbackChain (s : State) : ℕ → List MessageId → MessageId → List CallbackEdgeRecord
  | 0, _, _ => []
  | fuel + 1, seen, messageId =>
    if messageId ∈ seen then []
    else
      match s.edgeForChildMessage messageId with
      | none => []
      | some edge => edge :: callbackChain s fuel (messageId :: seen) edge.parentMessageId

/-- Every message after the first is the child message of an edge, so the number of
edges bounds the walk. -/
def callbackChainForParent (s : State) (parentMessageId : MessageId) : List CallbackEdgeRecord :=
  s.callbackChain (s.edges.length + 1) [] parentMessageId

def validateCallbackChain (cfg : Config) (s : State) (parent : JobRecord) (childAgent : Target) :
    Except DispatchError Unit :=
  match s.messageForJob parent.jobId with
  | none => .error .callbackParentMessage
  | some parentMessage =>
    let chain := s.callbackChainForParent parentMessage.messageId
    if chain.length + 1 > max 1 cfg.maxCallbackDepth then .error .callbackDepth
    else
      let actors := parent.agentName ::
        (chain.map CallbackEdgeRecord.parentAgent ++ chain.map CallbackEdgeRecord.childAgent)
      if actors.any fun actor => childAgent = .agent actor then .error .callbackCycle else .ok ()

def validateCallbackRequest (cfg : Config) (s : State) (request : MessageEnvelope) :
    Except DispatchError Unit :=
  if !requestCallbackRoute request then s.validateNestedAskRequest cfg request
  else if request.deliveryScope ≠ .single then .error .callbackSingleTarget
  else
    match s.activeParentJob cfg request.fromActor with
    | none => .error .callbackRequiresParent
    | some parent =>
      match s.messageForJob parent.jobId with
      | none => .error .callbackParentMessage
      | some _ =>
        if (s.edgeForParentJob parent.jobId).isSome then .error .callbackOutstanding
        else s.validateCallbackChain cfg parent request.target

def validateTargetsAvailable (cfg : Config) (s : State) (targets : List AgentName) :
    Except DispatchError Unit :=
  if targets.all fun name => name ∈ cfg.agents then
    if targets.any fun name => (cfg.spec name).rejectWhenBusy && s.memory.hasOutstanding name then
      .error .rejectedWhileBusy
    else .ok ()
  else .error .unknownAgent

/-! ### Registration -/

def newEdge (cfg : Config) (s : State) (parent : JobRecord) (parentMessage : MessageRecord)
    (child : JobRecord) (messageId : MessageId) (acceptedAt : Timestamp) : CallbackEdgeRecord :=
  { edgeId := s.nextId
    parentJobId := parent.jobId
    parentMessageId := parentMessage.messageId
    parentAgent := parent.agentName
    childJobId := child.jobId
    childMessageId := messageId
    childAgent := child.agentName
    callbackTargetAgent := parent.agentName
    originalCaller := parent.request.fromActor
    originalTaskId := parent.request.taskId.getD (.message parentMessage.messageId)
    state := .pending
    childReplyId := none
    childStatus := none
    continuationJobId := none
    continuationMessageId := none
    timeoutAt := cfg.callbackTimeoutAt acceptedAt
    createdAt := acceptedAt
    updatedAt := acceptedAt }

def registerCallbackEdge (cfg : Config) (s : State) (request : MessageEnvelope)
    (jobs : List JobRecord) (messageId : MessageId) (acceptedAt : Timestamp) :
    State × Except DispatchError Unit :=
  match s.validateCallbackRequest cfg request with
  | .error e => (s, .error e)
  | .ok _ =>
    if !requestCallbackRoute request then (s, .ok ())
    else
      match jobs, s.activeParentJob cfg request.fromActor with
      | [child], some parent =>
        match s.messageForJob parent.jobId with
        | none => (s, .error .callbackParentMessage)
        | some parentMessage =>
          ({ s.appendEdge (s.newEdge cfg parent parentMessage child messageId acceptedAt) with
              nextId := s.nextId + 1 }, .ok ())
      | _, _ => (s, .error .callbackSingleTarget)

/-! ### Lookups of completion -/

def callbackChildEdge (s : State) (job : JobRecord) : Option CallbackEdgeRecord :=
  s.edgeForChildJob job.jobId <|>
    (s.messageForJob job.jobId).bind fun message => s.edgeForChildMessage message.messageId

/-- The last record of the target agent that carries the edge, whoever submitted it. -/
def existingContinuationJob (s : State) (edge : CallbackEdgeRecord) : Option JobRecord :=
  AppendLog.findLast
    (fun job => decide (job.request.routeOptions.callbackEdgeId = some edge.edgeId))
    (s.listAgent edge.callbackTargetAgent)

def latestChildReply (s : State) (edge : CallbackEdgeRecord) : Option ReplyRecord :=
  (edge.childReplyId.bind s.getReply) <|>
    AppendLog.findLast (fun reply => !reply.notice) (s.listReplies edge.childMessageId)

def jobForReply (s : State) (reply : ReplyRecord) : Option JobRecord :=
  (s.getAttempt reply.attemptId).bind fun attempt => s.getJob attempt.jobId

/-! ### Failure -/

/-- `_record_callback_failure_notice` -/
def recordCallbackFailureNotice (cfg : Config) (s : State) (edge : CallbackEdgeRecord)
    (updatedAt : Timestamp) : State :=
  match s.getJob edge.parentJobId with
  | none => s.setMessageState edge.parentMessageId .failed updatedAt
  | some parentJob => recordNotice cfg s parentJob .failed edge.originalCaller updatedAt

def failCallbackEdge (cfg : Config) (s : State) (edge : CallbackEdgeRecord)
    (state : CallbackEdgeState) (updatedAt : Timestamp) : State :=
  let current := (s.getEdge edge.edgeId).getD edge
  if current.state.terminal then s
  else
    let failed := { current with
      state := state
      childStatus := current.childStatus <|> some (.edge state)
      updatedAt := updatedAt }
    recordCallbackFailureNotice cfg (s.appendEdge failed) failed updatedAt

/-! ### Continuation -/

def continuationRequest (cfg : Config) (edge : CallbackEdgeRecord) (childJob : JobRecord)
    (decision : CompletionDecision) : MessageEnvelope :=
  let body := cfg.continuationBody edge childJob decision
  { target := .agent edge.callbackTargetAgent
    fromActor := edge.originalCaller
    body := body.1
    taskId := some edge.originalTaskId
    replyTo := some edge.parentMessageId
    messageType := .callbackContinuation
    silenceOnSuccess := false
    routeOptions := ⟨some .callbackContinuation, some edge.edgeId⟩
    bodyArtifact := body.2 }

def pendingStatus (s : State) (agentName : AgentName) : JobStatus :=
  if s.memory.hasOutstanding agentName then .queued else .accepted

/-- A new job enters the log and the queue of its agent. -/
def enqueueJob (s : State) (job : JobRecord) : State :=
  { s.appendJob job with memory := s.memory.enqueue job.agentName job.jobId }

def continuationJob (cfg : Config) (s : State) (edge : CallbackEdgeRecord)
    (request : MessageEnvelope) (acceptedAt : Timestamp) : JobRecord :=
  { jobId := s.nextId
    submissionId := none
    agentName := edge.callbackTargetAgent
    provider := (cfg.spec edge.callbackTargetAgent).provider
    providerOptions := ProviderOptions.none
    request := request
    status := s.pendingStatus edge.callbackTargetAgent
    terminalDecision := none
    cancelRequestedAt := none
    createdAt := acceptedAt
    updatedAt := acceptedAt }

/-- `_submit_continuation_job`; it refuses before it writes anything. -/
def submitContinuationJob (cfg : Config) (s : State) (edge : CallbackEdgeRecord)
    (request : MessageEnvelope) (acceptedAt : Timestamp) : Except DispatchError (State × JobId) :=
  match s.validateTargetsAvailable cfg [edge.callbackTargetAgent] with
  | .error e => .error e
  | .ok _ =>
    let job := s.continuationJob cfg edge request acceptedAt
    let enqueued := { s.enqueueJob job with nextId := s.nextId + 1 }
    .ok (enqueued.recordRetryAttempt edge.parentMessageId job acceptedAt, job.jobId)

def submitCallbackContinuation (cfg : Config) (s : State) (edge : CallbackEdgeRecord)
    (childJob : JobRecord) (childReplyId : Option ReplyId) (decision : CompletionDecision)
    (finishedAt : Timestamp) : State :=
  let current := (s.edgeForChildJob childJob.jobId).getD edge
  if current.state.terminal then s
  else
    match s.existingContinuationJob current with
    | some existing =>
      s.appendEdge { current with
        state := if existing.status.terminal then .done else .continuationSubmitted
        childReplyId := childReplyId <|> current.childReplyId <|>
          (s.latestChildReply current).map ReplyRecord.replyId
        childStatus := some (.job childJob.status)
        continuationJobId := some existing.jobId
        continuationMessageId := some current.parentMessageId
        updatedAt := finishedAt }
    | none =>
      let updated := { current with
        state := .childCompleted
        childReplyId := childReplyId
        childStatus := some (.job childJob.status)
        updatedAt := finishedAt }
      let marked := s.appendEdge updated
      match submitContinuationJob cfg marked updated
          (continuationRequest cfg updated childJob decision) finishedAt with
      | .error _ => failCallbackEdge cfg marked updated .failed finishedAt
      | .ok (submitted, continuationJobId) =>
        submitted.appendEdge { updated with
          state := .continuationSubmitted
          continuationJobId := some continuationJobId
          continuationMessageId := some updated.parentMessageId
          updatedAt := finishedAt }

/-! ### Sweeping and repair -/

def sweepCallbackTimeouts (cfg : Config) (now : Timestamp) (s : State) : State :=
  s.pendingCallbackEdges.foldl
    (fun s edge =>
      let current := (s.getEdge edge.edgeId).getD edge
      if current.state.terminal then s
      else if cfg.callbackExpired now current.timeoutAt then
        failCallbackEdge cfg s current .timedOut now
      else s)
    s

/-- One turn of the repair loop. -/
def repairCallbackEdge (cfg : Config) (now : Timestamp) (s : State) (edge : CallbackEdgeRecord) :
    State :=
  let current := (s.getEdge edge.edgeId).getD edge
  if current.state.terminal then s
  else if cfg.callbackExpired now current.timeoutAt then s
  else if current.continuationJobId.isSome then s
  else
    let reply := s.latestChildReply current
    match s.existingContinuationJob current with
    | some existing =>
      s.appendEdge { current with
        state := .continuationSubmitted
        childReplyId := current.childReplyId <|> reply.map ReplyRecord.replyId
        childStatus := current.childStatus <|>
          (reply.bind s.jobForReply).map fun job => .job job.status
        continuationJobId := some existing.jobId
        continuationMessageId := some current.parentMessageId }
    | none =>
      match reply with
      | none => s
      | some r =>
        match s.jobForReply r <|> s.getJob current.childJobId with
        | none => s
        | some childJob =>
          match childJob.terminalDecision with
          | none => s
          | some decision =>
            submitCallbackContinuation cfg s current childJob (some r.replyId) decision
              current.updatedAt

def repairCallbackEdges (cfg : Config) (w : World) (s : State) : State :=
  let swept := sweepCallbackTimeouts cfg (w.clock 0 .sweep) s
  swept.pendingCallbackEdges.foldl
    (fun s edge => repairCallbackEdge cfg (w.clock 0 (.repair edge.edgeId)) s edge) swept

/-! ### The parent's side -/

def markCallbackDone (s : State) (job : JobRecord) (finishedAt : Timestamp) : State :=
  match job.request.routeOptions.callbackEdgeId.bind s.getEdge with
  | none => s
  | some edge =>
    if edge.state = .done ∨ edge.state = .failed ∨ edge.state = .timedOut then s
    else s.appendEdge { edge with state := .done, updatedAt := finishedAt }

def markParentMessageWaiting (s : State) (edge : CallbackEdgeRecord) (updatedAt : Timestamp) :
    State :=
  if edge.state = .failed ∨ edge.state = .timedOut ∨ edge.state = .done then s
  else s.setMessageState edge.parentMessageId .running updatedAt

def delegatedTerminalJob (job : JobRecord) (edge : CallbackEdgeRecord) : JobRecord :=
  { job with terminalDecision :=
      job.terminalDecision.map fun decision => { decision with delegated := some edge.edgeId } }

end State

end CodexBridge.Dispatch
