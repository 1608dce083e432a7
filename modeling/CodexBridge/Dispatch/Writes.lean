import CodexBridge.Dispatch.CallbackPaths

/-! The durable writes behind a callback continuation, one row after the other in the
order the program makes them. A crash leaves the rows of a prefix; the restarted daemon
builds its memory from the job log and repairs the callbacks. -/

namespace CodexBridge.Dispatch

open Mailbox (InboundEventType NewEvent)

variable {cfg : Config} {s : State}

/-- One row in one store. -/
inductive Write where
  | edge (row : CallbackEdgeRecord)
  | job (row : JobRecord)
  | attempt (row : AttemptRecord)
  | inbound (agentName : AgentName) (event : NewEvent)
  | summary (agentName : AgentName) (eventType : InboundEventType) (updatedAt : Timestamp)
  | message (row : MessageRecord)
  | reply (row : ReplyRecord)

/-- The identifier of a new record is not issued again. -/
def Write.apply (s : State) : Write → State
  | .edge row => s.appendEdge row
  | .job row => { s.appendJob row with nextId := row.jobId + 1 }
  | .attempt row => { s.appendAttempt row with nextId := row.attemptId + 1 }
  | .inbound agentName event =>
    { s.setMailbox agentName ((s.mailboxes agentName).append event.record) with
      nextId := event.inboundEventId + 1 }
  | .summary agentName eventType updatedAt =>
    s.setMailbox agentName ((s.mailboxes agentName).applyIncrementalSummaryUpdate updatedAt 1
      (if eventType = .taskReply then 1 else 0) none none none (some updatedAt))
  | .message row => { s with messages := s.messages ++ [row] }
  | .reply row => { s with replies := s.replies ++ [row], nextId := row.replyId + 1 }

namespace State

def applyWrites (s : State) (writes : List Write) : State := writes.foldl Write.apply s

@[simp] theorem applyWrites_nil (s : State) : s.applyWrites [] = s := rfl

@[simp] theorem applyWrites_cons (s : State) (write : Write) (writes : List Write) :
    s.applyWrites (write :: writes) = (write.apply s).applyWrites writes := rfl

@[simp] theorem applyWrites_append (s : State) (writes writes' : List Write) :
    s.applyWrites (writes ++ writes') = (s.applyWrites writes).applyWrites writes' :=
  List.foldl_append

/-! ### Records -/

/-- A new event enters the log of its mailbox, then the summary follows. -/
def eventWrites (agentName : AgentName) (event : NewEvent) (updatedAt : Timestamp) :
    List Write :=
  [.inbound agentName event, .summary agentName event.eventType updatedAt]

/-- `set_message_state` -/
def messageWrites (s : State) (messageId : MessageId) (next : MessageState)
    (updatedAt : Timestamp) : List Write :=
  match s.getMessage messageId with
  | none => []
  | some current =>
    if current.messageState = next then []
    else [.message { current with updatedAt := updatedAt, messageState := next }]

/-- `refresh_message_state` -/
def refreshWrites (s : State) (messageId : MessageId) (updatedAt : Timestamp) : List Write :=
  if (s.latestAttempts messageId).isEmpty then []
  else s.messageWrites messageId
    (nextMessageState (s.latestAttempts messageId) (s.listReplies messageId)) updatedAt

def attemptRow (s : State) (messageId : MessageId) (job : JobRecord) (retryIndex : ℕ)
    (acceptedAt : Timestamp) : AttemptRecord :=
  { attemptId := s.nextId
    messageId := messageId
    agentName := job.agentName
    provider := job.provider
    jobId := job.jobId
    retryIndex := retryIndex
    startedAt := acceptedAt
    updatedAt := acceptedAt
    attemptState := .pending }

def requestRow (s : State) (messageId : MessageId) (job : JobRecord) (acceptedAt : Timestamp) :
    NewEvent :=
  { inboundEventId := s.nextId + 1
    eventType := .taskRequest
    messageId := messageId
    attemptId := some s.nextId
    payloadRef := some (.job job.jobId)
    priority := 100
    createdAt := acceptedAt }

/-- `record_retry_attempt`: the attempt, its event with the summary, the message. -/
def retryAttemptWrites (s : State) (messageId : MessageId) (job : JobRecord)
    (acceptedAt : Timestamp) : List Write :=
  .attempt (s.attemptRow messageId job (s.nextRetryIndex messageId job.agentName) acceptedAt) ::
    (eventWrites job.agentName (s.requestRow messageId job acceptedAt) acceptedAt ++
      s.messageWrites messageId .queued acceptedAt)

def replyWrites (cfg : Config) (s : State) (job : JobRecord) (attempt : AttemptRecord)
    (status : ReplyTerminalStatus) (notice : Bool) (recipient : Option Actor)
    (finishedAt : Timestamp) : List Write :=
  let reply := Write.reply (s.replyRow job attempt status notice finishedAt)
  let queued :=
    match recipient.bind (mailboxActor cfg) with
    | none => []
    | some mailbox => eventWrites mailbox (s.replyEvent attempt finishedAt) finishedAt
  reply :: (queued ++
    (s.applyWrites (reply :: queued)).refreshWrites attempt.messageId finishedAt)

/-! ### Callbacks -/

/-- `_record_callback_failure_notice` -/
def noticeWrites (cfg : Config) (s : State) (edge : CallbackEdgeRecord) (updatedAt : Timestamp) :
    List Write :=
  match s.getJob edge.parentJobId with
  | none => s.messageWrites edge.parentMessageId .failed updatedAt
  | some parentJob =>
    match s.attemptForJob parentJob.jobId with
    | none => []
    | some attempt =>
      s.replyWrites cfg parentJob attempt .failed true (some edge.originalCaller) updatedAt

def failedEdge (edge : CallbackEdgeRecord) (state : CallbackEdgeState) (updatedAt : Timestamp) :
    CallbackEdgeRecord :=
  { edge with
    state := state
    childStatus := edge.childStatus <|> some (.edge state)
    updatedAt := updatedAt }

/-- `fail_callback_edge` -/
def failWrites (cfg : Config) (s : State) (edge : CallbackEdgeRecord) (state : CallbackEdgeState)
    (updatedAt : Timestamp) : List Write :=
  let current := (s.getEdge edge.edgeId).getD edge
  if current.state.terminal then []
  else
    let failed := failedEdge current state updatedAt
    .edge failed :: (s.appendEdge failed).noticeWrites cfg failed updatedAt

def completedEdge (edge : CallbackEdgeRecord) (childJob : JobRecord)
    (childReplyId : Option ReplyId) (finishedAt : Timestamp) : CallbackEdgeRecord :=
  { edge with
    state := .childCompleted
    childReplyId := childReplyId
    childStatus := some (.job childJob.status)
    updatedAt := finishedAt }

/-- The job `_submit_continuation_job` enters for an edge. -/
def submittedJob (cfg : Config) (s : State) (edge : CallbackEdgeRecord) (childJob : JobRecord)
    (decision : CompletionDecision) (acceptedAt : Timestamp) : JobRecord :=
  s.continuationJob cfg edge (continuationRequest cfg edge childJob decision) acceptedAt

/-- `_submit_continuation_job` and the row of the edge after it. -/
def continuationJobWrites (cfg : Config) (s : State) (edge : CallbackEdgeRecord)
    (childJob : JobRecord) (decision : CompletionDecision) (acceptedAt : Timestamp) :
    List Write :=
  let job := s.submittedJob cfg edge childJob decision acceptedAt
  .job job :: (((Write.job job).apply s).retryAttemptWrites edge.parentMessageId job acceptedAt ++
    [.edge (edge.submitted job.jobId acceptedAt)])

/-- `submit_callback_continuation`, when no job continues the edge yet. -/
def continuationWrites (cfg : Config) (s : State) (edge : CallbackEdgeRecord)
    (childJob : JobRecord) (childReplyId : Option ReplyId) (decision : CompletionDecision)
    (finishedAt : Timestamp) : List Write :=
  let updated := completedEdge edge childJob childReplyId finishedAt
  let marked := s.appendEdge updated
  .edge updated ::
    match marked.validateTargetsAvailable cfg [updated.callbackTargetAgent] with
    | .error _ => marked.failWrites cfg updated .failed finishedAt
    | .ok _ => marked.continuationJobWrites cfg updated childJob decision finishedAt

/-- The same stores, whatever is in memory. -/
def SameStores (s s' : State) : Prop := ∃ memory, s' = { s with memory := memory }

/-! ### The writes are those of the program -/

theorem setMessageState_eq (s : State) (messageId next t) :
    s.setMessageState messageId next t = s.applyWrites (s.messageWrites messageId next t) := by
  have hfind : AppendLog.findLast (fun record => decide (record.messageId = messageId))
    s.messages = s.getMessage messageId := rfl
  simp only [setMessageState, setMessageLog, messageWrites, hfind]
  cases s.getMessage messageId with
  | none => rfl
  | some current =>
    dsimp only
    split_ifs <;> rfl

theorem refreshMessageState_eq (s : State) (messageId t) :
    s.refreshMessageState messageId t = s.applyWrites (s.refreshWrites messageId t) := by
  unfold refreshWrites refreshMessageState refreshMessageLog
  split_ifs
  · rfl
  · exact s.setMessageState_eq _ _ _

theorem applyWrites_eventWrites (s : State) (agentName event t) :
    s.applyWrites (eventWrites agentName event t) =
      { s.setMailbox agentName ((s.mailboxes agentName).enqueue t event (some t)) with
        nextId := event.inboundEventId + 1 } := by
  simp only [eventWrites, applyWrites_cons, applyWrites_nil, Write.apply, setMailbox,
    Function.update_self, Function.update_idem]
  rfl

theorem recordRetryAttempt_eq (s : State) (messageId job t) :
    s.recordRetryAttempt messageId job t =
      s.applyWrites (s.retryAttemptWrites messageId job t) := by
  rw [recordRetryAttempt, setMessageState_eq, retryAttemptWrites, applyWrites_cons,
    applyWrites_append, applyWrites_eventWrites]
  rfl

theorem appendReply_eq (s : State) (job attempt status notice recipient t) :
    appendReply cfg s job attempt status notice recipient t =
      s.applyWrites (s.replyWrites cfg job attempt status notice recipient t) := by
  unfold replyWrites appendReply
  dsimp only
  rw [applyWrites_cons, applyWrites_append, refreshMessageState_eq]
  cases recipient.bind (mailboxActor cfg) with
  | none => rfl
  | some mailbox =>
    dsimp only
    rw [applyWrites_cons, applyWrites_eventWrites]
    rfl

theorem recordCallbackFailureNotice_eq (s : State) (edge t) :
    recordCallbackFailureNotice cfg s edge t = s.applyWrites (s.noticeWrites cfg edge t) := by
  unfold recordCallbackFailureNotice noticeWrites recordNotice
  cases s.getJob edge.parentJobId with
  | none => exact s.setMessageState_eq _ _ _
  | some parentJob =>
    dsimp only
    cases s.attemptForJob parentJob.jobId with
    | none => rfl
    | some attempt => exact s.appendReply_eq _ _ _ _ _ _

theorem failCallbackEdge_eq (s : State) (edge state t) :
    failCallbackEdge cfg s edge state t = s.applyWrites (s.failWrites cfg edge state t) := by
  unfold failCallbackEdge failWrites
  dsimp only
  split_ifs
  · rfl
  · exact recordCallbackFailureNotice_eq _ _ _

theorem applyWrites_memory (s : State) (memory : Memory) (writes : List Write) :
    ({ s with memory := memory } : State).applyWrites writes =
      { s.applyWrites writes with memory := memory } := by
  induction writes generalizing s with
  | nil => rfl
  | cons write writes ih =>
    rw [applyWrites_cons, applyWrites_cons, ← ih]
    cases write <;> rfl

theorem submitContinuationJob_eq {edge : CallbackEdgeRecord} (request : MessageEnvelope)
    (t : Timestamp) {u : Unit}
    (hvalid : s.validateTargetsAvailable cfg [edge.callbackTargetAgent] = .ok u) :
    submitContinuationJob cfg s edge request t =
      .ok ({ ((Write.job (s.continuationJob cfg edge request t)).apply s).applyWrites
          (((Write.job (s.continuationJob cfg edge request t)).apply s).retryAttemptWrites
            edge.parentMessageId (s.continuationJob cfg edge request t) t) with
          memory := s.memory.enqueue edge.callbackTargetAgent s.nextId }, s.nextId) := by
  unfold submitContinuationJob
  rw [hvalid]
  dsimp only
  rw [recordRetryAttempt_eq, ← applyWrites_memory]
  rfl

/-- The continuation that is submitted, write by write. -/
theorem submitCallbackContinuation_eq (cfg : Config) {edge current : CallbackEdgeRecord}
    {childJob : JobRecord}
    (hcurrent : (s.edgeForChildJob childJob.jobId).getD edge = current)
    (hopen : current.state.terminal = false) (hfirst : s.existingContinuationJob current = none)
    (childReplyId : Option ReplyId) (decision : CompletionDecision) (t : Timestamp) :
    SameStores (s.applyWrites (s.continuationWrites cfg current childJob childReplyId decision t))
      (submitCallbackContinuation cfg s edge childJob childReplyId decision t) := by
  unfold submitCallbackContinuation
  rw [hcurrent]
  simp only [hopen, Bool.false_eq_true, ↓reduceIte, hfirst]
  rcases hvalid : (s.appendEdge (completedEdge current childJob childReplyId
    t)).validateTargetsAvailable cfg
      [(completedEdge current childJob childReplyId t).callbackTargetAgent] with e | u
  · have hrefused : submitContinuationJob cfg
        (s.appendEdge (completedEdge current childJob childReplyId t))
        (completedEdge current childJob childReplyId t) (continuationRequest cfg
          (completedEdge current childJob childReplyId t) childJob decision) t = .error e := by
      rw [submitContinuationJob, hvalid]
    have hwrites : s.continuationWrites cfg current childJob childReplyId decision t =
        .edge (completedEdge current childJob childReplyId t) ::
          (s.appendEdge (completedEdge current childJob childReplyId t)).failWrites cfg
            (completedEdge current childJob childReplyId t) .failed t := by
      unfold continuationWrites
      dsimp only
      rw [hvalid]
    rw [hwrites, applyWrites_cons]
    split
    next => exact ⟨_, failCallbackEdge_eq _ _ _ _⟩
    next heq =>
      have hok := hrefused.symm.trans heq
      contradiction
  · have haccepted := submitContinuationJob_eq (continuationRequest cfg
      (completedEdge current childJob childReplyId t) childJob decision) t hvalid
    have hwrites : s.continuationWrites cfg current childJob childReplyId decision t =
        .edge (completedEdge current childJob childReplyId t) ::
          (s.appendEdge (completedEdge current childJob childReplyId t)).continuationJobWrites cfg
            (completedEdge current childJob childReplyId t) childJob decision t := by
      unfold continuationWrites
      dsimp only
      rw [hvalid]
    rw [hwrites, applyWrites_cons]
    split
    next heq =>
      have herror := haccepted.symm.trans heq
      contradiction
    next heq =>
      obtain ⟨rfl, rfl⟩ := Prod.mk.inj (Except.ok.inj (haccepted.symm.trans heq))
      rw [continuationJobWrites, applyWrites_cons, applyWrites_append]
      exact ⟨_, rfl⟩

end State

end CodexBridge.Dispatch
