import CodexBridge.AppendLog
import CodexBridge.Basic

/-! One agent's mailbox: the inbound event log, the delivery lease and the stored
summary, with the queries that read the log through the latest row of each event. -/

namespace CodexBridge

open AppendLog

namespace Mailbox

inductive MailboxState where
  | idle | delivering | blocked | recovering | degraded
  deriving DecidableEq, Repr

inductive InboundEventType where
  | taskRequest | taskReply | completionNotice | retrySignal | systemSignal | barrierRelease
  deriving DecidableEq, Repr

inductive InboundEventStatus where
  | created | queued | delivering | consumed | superseded | abandoned
  deriving DecidableEq, Repr

inductive LeaseState where
  | acquired | released | expired | orphaned
  deriving DecidableEq, Repr

/-- `_TERMINAL_EVENT_STATES` -/
def InboundEventStatus.terminal : InboundEventStatus → Bool
  | .consumed | .superseded | .abandoned => true
  | .created | .queued | .delivering => false

/-- `_CLAIMABLE_EVENT_STATES` -/
def InboundEventStatus.claimable : InboundEventStatus → Bool
  | .created | .queued => true
  | .delivering | .consumed | .superseded | .abandoned => false

structure InboundEventRecord where
  inboundEventId : InboundEventId
  eventType : InboundEventType
  messageId : MessageId
  attemptId : Option AttemptId
  payloadRef : Option PayloadRef
  priority : ℕ
  status : InboundEventStatus
  createdAt : Timestamp
  startedAt : Option Timestamp
  finishedAt : Option Timestamp
  deriving DecidableEq

structure DeliveryLease where
  inboundEventId : InboundEventId
  leaseVersion : ℕ
  acquiredAt : Timestamp
  lastProgressAt : Option Timestamp
  expiresAt : Option Timestamp
  leaseState : LeaseState
  deriving DecidableEq

/-- The six `head_*` fields of a summary. -/
structure SummaryHead where
  headInboundEventId : Option InboundEventId
  headEventType : Option InboundEventType
  headStatus : Option InboundEventStatus
  headMessageId : Option MessageId
  headAttemptId : Option AttemptId
  headPayloadRef : Option PayloadRef
  deriving DecidableEq

inductive SummarySource where
  | historyRefresh | incrementalUpsert | transitionClaim | transitionTerminal
  | transitionRewriteHead
  deriving DecidableEq, Repr

structure MailboxRecord extends SummaryHead where
  mailboxId : String
  agentName : AgentName
  summaryVersion : ℕ
  summarySource : SummarySource
  summaryRefreshedAt : Timestamp
  activeInboundEventId : Option InboundEventId
  queueDepth : ℕ
  pendingReplyCount : ℕ
  lastInboundStartedAt : Option Timestamp
  lastInboundFinishedAt : Option Timestamp
  mailboxState : MailboxState
  leaseVersion : ℕ
  updatedAt : Timestamp
  deriving DecidableEq

end Mailbox

/-- The three stores of one mailbox. -/
structure Mailbox where
  agentName : AgentName
  events : List Mailbox.InboundEventRecord
  lease : Option Mailbox.DeliveryLease
  summary : Option Mailbox.MailboxRecord
  deriving DecidableEq

namespace Mailbox

def empty (agentName : AgentName) : Mailbox := ⟨agentName, [], none, none⟩

/-! ### Stores -/

/-- `InboundEventStore.append` -/
def append (mb : Mailbox) (record : InboundEventRecord) : Mailbox :=
  { mb with events := mb.events ++ [record] }

/-- `InboundEventStore.get_latest` -/
def getLatest (mb : Mailbox) (inboundEventId : InboundEventId) : Option InboundEventRecord :=
  findLast (fun record => decide (record.inboundEventId = inboundEventId)) mb.events

/-- `InboundEventStore.get_latest_for_attempt`: the last row that carries the attempt. -/
def getLatestForAttempt (mb : Mailbox) (attemptId : AttemptId) : Option InboundEventRecord :=
  findLast (fun record => decide (record.attemptId = some attemptId)) mb.events

/-! ### Queries -/

def latestEvents (mb : Mailbox) : List InboundEventRecord :=
  latest InboundEventRecord.inboundEventId mb.events

def pendingEvents (mb : Mailbox) (eventType : Option InboundEventType) :
    List InboundEventRecord :=
  mb.latestEvents.filter fun record =>
    !record.status.terminal && (eventType.all fun kind => record.eventType == kind)

def headPendingEvent (mb : Mailbox) : Option InboundEventRecord :=
  (mb.pendingEvents none).head?

def peekNext (mb : Mailbox) (eventType : Option InboundEventType) : Option InboundEventRecord :=
  match mb.headPendingEvent with
  | none => none
  | some head =>
    if (eventType.all fun kind => head.eventType == kind) && head.status.claimable then some head
    else none

/-! ### Reading the log -/

theorem latestEvents_append (mb : Mailbox) (r : InboundEventRecord) :
    (mb.append r).latestEvents =
      upsert InboundEventRecord.inboundEventId r mb.latestEvents := by
  simp [latestEvents, append]

theorem nodup_latestEvents (mb : Mailbox) :
    (mb.latestEvents.map InboundEventRecord.inboundEventId).Nodup :=
  nodup_latest _

theorem mem_latestEvents_append {mb : Mailbox} {r x : InboundEventRecord} :
    x ∈ (mb.append r).latestEvents ↔
      x = r ∨ x ∈ mb.latestEvents ∧ x.inboundEventId ≠ r.inboundEventId := by
  rw [latestEvents_append, mem_upsert mb.nodup_latestEvents]

theorem getLatest_eq_some {mb : Mailbox} {id : InboundEventId} {r : InboundEventRecord} :
    mb.getLatest id = some r ↔ r ∈ mb.latestEvents ∧ r.inboundEventId = id :=
  findLast_key_some

theorem getLatest_eq_none {mb : Mailbox} {id : InboundEventId} :
    mb.getLatest id = none ↔ id ∉ mb.events.map InboundEventRecord.inboundEventId :=
  findLast_key_none

theorem mem_pendingEvents {mb : Mailbox} {r : InboundEventRecord} :
    r ∈ mb.pendingEvents none ↔ r ∈ mb.latestEvents ∧ r.status.terminal = false := by
  simp [pendingEvents]

theorem nodup_pendingEvents (mb : Mailbox) :
    ((mb.pendingEvents none).map InboundEventRecord.inboundEventId).Nodup :=
  mb.nodup_latestEvents.sublist (List.filter_sublist.map _)

theorem headPendingEvent_mem {mb : Mailbox} {r : InboundEventRecord}
    (h : mb.headPendingEvent = some r) : r ∈ mb.latestEvents ∧ r.status.terminal = false :=
  mem_pendingEvents.mp (List.mem_of_mem_head? h)

theorem latestEvents_congr {mb mb' : Mailbox} (h : mb'.events = mb.events) :
    mb'.latestEvents = mb.latestEvents := by
  rw [latestEvents, h, latestEvents]

theorem headPendingEvent_congr {mb mb' : Mailbox} (h : mb'.events = mb.events) :
    mb'.headPendingEvent = mb.headPendingEvent := by
  rw [headPendingEvent, pendingEvents, latestEvents_congr h, headPendingEvent, pendingEvents]

theorem getLatest_congr {mb mb' : Mailbox} (h : mb'.events = mb.events) (id : InboundEventId) :
    mb'.getLatest id = mb.getLatest id := by
  rw [getLatest, h, getLatest]

theorem getLatest_of_append {mb mb' : Mailbox} {r : InboundEventRecord}
    (h : mb'.events = mb.events ++ [r]) (id : InboundEventId) :
    mb'.getLatest id = if r.inboundEventId = id then some r else mb.getLatest id := by
  rw [getLatest, h, findLast_append, getLatest]
  simp

theorem eq_of_mem_latestEvents {mb : Mailbox} {x y : InboundEventRecord}
    (hx : x ∈ mb.latestEvents) (hy : y ∈ mb.latestEvents)
    (h : x.inboundEventId = y.inboundEventId) : x = y :=
  eq_of_key_eq mb.nodup_latestEvents hx hy h

theorem peekNext_eq_some {mb : Mailbox} {kind : Option InboundEventType}
    {r : InboundEventRecord} (h : mb.peekNext kind = some r) :
    mb.headPendingEvent = some r ∧ r.status.claimable = true ∧
      ∀ k, kind = some k → r.eventType = k := by
  unfold peekNext at h
  split at h
  · contradiction
  · rename_i head hhead
    split_ifs at h with hc
    obtain rfl := Option.some.inj h
    rw [Bool.and_eq_true] at hc
    refine ⟨hhead, hc.2, ?_⟩
    rintro k rfl
    simpa using hc.1

/-- A row of a pending event, or of a new one, keeps its slot among the pending. -/
theorem pendingEvents_append_pending {mb : Mailbox} {r : InboundEventRecord}
    (hr : r.status.terminal = false)
    (hold : ∀ x ∈ mb.latestEvents, x.inboundEventId = r.inboundEventId →
      x.status.terminal = false) :
    (mb.append r).pendingEvents none =
      upsert InboundEventRecord.inboundEventId r (mb.pendingEvents none) := by
  simp only [pendingEvents, latestEvents_append]
  apply filter_upsert_of_pos
  · simp [hr]
  · intro x hx hk
    simp [hold x hx hk]

theorem pendingEvents_append_fresh {mb : Mailbox} {r : InboundEventRecord}
    (hr : r.status.terminal = false)
    (fresh : r.inboundEventId ∉ mb.events.map InboundEventRecord.inboundEventId) :
    (mb.append r).pendingEvents none = mb.pendingEvents none ++ [r] := by
  have hlatest : r.inboundEventId ∉ mb.latestEvents.map InboundEventRecord.inboundEventId :=
    fun h => fresh (mem_map_key_latest.mp h)
  simp [pendingEvents, latestEvents_append, upsert_of_notMem hlatest, hr]

/-- A terminal row takes its event out of the pending ones. -/
theorem pendingEvents_append_terminal {mb : Mailbox} {r : InboundEventRecord}
    (hr : r.status.terminal = true) :
    (mb.append r).pendingEvents none =
      (mb.pendingEvents none).filter fun x => x.inboundEventId ≠ r.inboundEventId := by
  simp only [pendingEvents, latestEvents_append]
  rw [filter_upsert_of_neg mb.nodup_latestEvents (by simp [hr])]

end Mailbox

end CodexBridge
