import CodexBridge.Dispatch.Records

/-! The in-memory dispatcher state, its rebuild from the job log, and the lookups
every other module makes in the logs. -/

namespace CodexBridge.Dispatch

open AppendLog

/-! ### Queues and active slots -/

namespace Memory

def empty : Memory := ⟨fun _ => [], fun _ => none⟩

def enqueue (m : Memory) (agentName : AgentName) (jobId : JobId) : Memory :=
  { m with queue := Function.update m.queue agentName (m.queue agentName ++ [jobId]) }

/-- `list.remove`: the first occurrence. -/
def removeQueued (m : Memory) (agentName : AgentName) (jobId : JobId) : Memory :=
  { m with queue := Function.update m.queue agentName ((m.queue agentName).erase jobId) }

def markActive (m : Memory) (agentName : AgentName) (jobId : JobId) : Memory :=
  { m with active := Function.update m.active agentName (some jobId) }

def clearActive (m : Memory) (agentName : AgentName) (jobId : JobId) : Memory :=
  if m.active agentName = some jobId then
    { m with active := Function.update m.active agentName none }
  else m

def hasOutstanding (m : Memory) (agentName : AgentName) : Bool :=
  (m.active agentName).isSome || !(m.queue agentName).isEmpty

def queueDepth (m : Memory) (agentName : AgentName) : ℕ :=
  (m.queue agentName).length + (if (m.active agentName).isSome then 1 else 0)

/-- One latest record of the log, read back into memory. -/
def restore (m : Memory) (record : JobRecord) : Memory :=
  if record.status = .running then m.markActive record.agentName record.jobId
  else if record.status.pending then m.enqueue record.agentName record.jobId
  else m

/-- `DispatcherState.rebuild`: the log of each agent in turn, the latest record of
each job, in order of first appearance. -/
def rebuild (listAgent : AgentName → List JobRecord) (agentNames : List AgentName) : Memory :=
  agentNames.foldl
    (fun m agentName => (latest JobRecord.jobId (listAgent agentName)).foldl restore m) empty

end Memory

/-! ### Lookups -/

namespace State

/-- `JobStore.list_agent` -/
def listAgent (s : State) (agentName : AgentName) : List JobRecord :=
  s.jobs.filter fun record => record.agentName = agentName

/-- `get_job` -/
def getJob (s : State) (jobId : JobId) : Option JobRecord :=
  findLast (fun record => decide (record.jobId = jobId)) s.jobs

def getMessage (s : State) (messageId : MessageId) : Option MessageRecord :=
  findLast (fun record => decide (record.messageId = messageId)) s.messages

def getAttempt (s : State) (attemptId : AttemptId) : Option AttemptRecord :=
  findLast (fun record => decide (record.attemptId = attemptId)) s.attempts

/-- `AttemptStore.get_latest_by_job_id` -/
def attemptForJob (s : State) (jobId : JobId) : Option AttemptRecord :=
  findLast (fun record => decide (record.jobId = jobId)) s.attempts

def getReply (s : State) (replyId : ReplyId) : Option ReplyRecord :=
  findLast (fun record => decide (record.replyId = replyId)) s.replies

def getEdge (s : State) (edgeId : EdgeId) : Option CallbackEdgeRecord :=
  findLast (fun record => decide (record.edgeId = edgeId)) s.edges

def edgeForChildJob (s : State) (jobId : JobId) : Option CallbackEdgeRecord :=
  findLast (fun record => decide (record.childJobId = jobId)) s.edges

def edgeForChildMessage (s : State) (messageId : MessageId) : Option CallbackEdgeRecord :=
  findLast (fun record => decide (record.childMessageId = messageId)) s.edges

def edgeForParentJob (s : State) (jobId : JobId) : Option CallbackEdgeRecord :=
  findLast (fun record => decide (record.parentJobId = jobId)) s.edges

/-- `_message_for_job` -/
def messageForJob (s : State) (jobId : JobId) : Option MessageRecord :=
  (s.attemptForJob jobId).bind fun attempt => s.getMessage attempt.messageId

/-- The attempts of a message, each at its latest row. -/
def latestAttempts (s : State) (messageId : MessageId) : List AttemptRecord :=
  latest AttemptRecord.attemptId (s.attempts.filter fun record => record.messageId = messageId)

def listReplies (s : State) (messageId : MessageId) : List ReplyRecord :=
  s.replies.filter fun record => record.messageId = messageId

/-- `pending_callback_edges` -/
def pendingCallbackEdges (s : State) : List CallbackEdgeRecord :=
  (latest CallbackEdgeRecord.edgeId s.edges).filter fun edge => !edge.state.terminal

/-! ### Writes -/

def appendJob (s : State) (record : JobRecord) : State :=
  { s with jobs := s.jobs ++ [record] }

def appendAttempt (s : State) (record : AttemptRecord) : State :=
  { s with attempts := s.attempts ++ [record] }

def appendEdge (s : State) (record : CallbackEdgeRecord) : State :=
  { s with edges := s.edges ++ [record] }

def setMailbox (s : State) (agentName : AgentName) (mailbox : Mailbox) : State :=
  { s with mailboxes := Function.update s.mailboxes agentName mailbox }

def rebuildMailbox (s : State) (agentName : AgentName) (updatedAt : Timestamp) : State :=
  s.setMailbox agentName ((s.mailboxes agentName).rebuildMailboxSummary updatedAt)

end State

end CodexBridge.Dispatch
