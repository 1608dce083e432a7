import CodexBridge.Mailbox.Summary
import Mathlib.Logic.Relation

/-! The mailbox transitions: enqueue, claim, acknowledge, terminate and rewrite.
An absent timestamp falls back to the service clock. Each transition first edits
the event log and the lease, then brings the summary up to date. -/

namespace CodexBridge.Mailbox

open AppendLog

/-! ### Definitions -/

/-- The fields of a new inbound event; it enters the log queued and untouched. -/
structure NewEvent where
  inboundEventId : InboundEventId
  eventType : InboundEventType
  messageId : MessageId
  attemptId : Option AttemptId
  payloadRef : Option PayloadRef
  priority : ℕ
  createdAt : Timestamp

def NewEvent.record (e : NewEvent) : InboundEventRecord :=
  { inboundEventId := e.inboundEventId
    eventType := e.eventType
    messageId := e.messageId
    attemptId := e.attemptId
    payloadRef := e.payloadRef
    priority := e.priority
    status := .queued
    createdAt := e.createdAt
    startedAt := none
    finishedAt := none }

@[simp] theorem NewEvent.record_eventType (e : NewEvent) : e.record.eventType = e.eventType := rfl

def enqueue (mb : Mailbox) (clock : Timestamp) (e : NewEvent) (updatedAt : Option Timestamp) :
    Mailbox :=
  (mb.append e.record).applyIncrementalSummaryUpdate clock 1
    (if e.eventType = .taskReply then 1 else 0) none none none updatedAt

def nextLeaseVersion (mb : Mailbox) : ℕ :=
  match mb.lease with
  | some lease => lease.leaseVersion + 1
  | none =>
    match mb.summary with
    | some mailbox => mailbox.leaseVersion + 1
    | none => 1

def loadClaimCandidate (mb : Mailbox) (inboundEventId : InboundEventId) :
    Option InboundEventRecord :=
  (mb.getLatest inboundEventId).filter fun current => !current.status.terminal

def hasConflictingLease (mb : Mailbox) (inboundEventId : InboundEventId) : Bool :=
  mb.lease.any fun lease =>
    lease.leaseState == .acquired && lease.inboundEventId != inboundEventId

def isClaimableHead (mb : Mailbox) (current : InboundEventRecord) : Bool :=
  current.status.claimable &&
    mb.headPendingEvent.any fun head => head.inboundEventId == current.inboundEventId

def deliveryRecord (current : InboundEventRecord) (timestamp : Timestamp) : InboundEventRecord :=
  { current with
    status := .delivering
    startedAt := some (current.startedAt.getD timestamp)
    finishedAt := none }

def deliveryLease (mb : Mailbox) (inboundEventId : InboundEventId) (timestamp : Timestamp) :
    DeliveryLease :=
  { inboundEventId := inboundEventId
    leaseVersion := mb.nextLeaseVersion
    acquiredAt := timestamp
    lastProgressAt := some timestamp
    expiresAt := none
    leaseState := .acquired }

/-- The summary after a claim: the fast path edits the prior record in place. -/
def refreshClaimed (mb : Mailbox) (updated : InboundEventRecord) (timestamp : Timestamp) :
    Mailbox :=
  match mb.summary with
  | none => mb.rebuildMailboxSummary timestamp
  | some prior =>
    if prior.queueDepth ≤ 0 ∨ prior.headInboundEventId ≠ some updated.inboundEventId then
      mb.rebuildMailboxSummary timestamp
    else
      mb.applyTransitionSummaryUpdate
        { queueDepth := prior.queueDepth
          pendingReplyCount := prior.pendingReplyCount
          activeInboundEventId := some updated.inboundEventId
          lastStartedAt := latestTimestamp prior.lastInboundStartedAt updated.startedAt
          lastFinishedAt := prior.lastInboundFinishedAt
          updatedAt := timestamp
          summarySource := .transitionClaim
          summaryHead := some (summaryHeadFromEvent (some updated)) }

def claimCurrent (mb : Mailbox) (current : InboundEventRecord) (timestamp : Timestamp) :
    Mailbox × Option InboundEventRecord :=
  let updated := deliveryRecord current timestamp
  let appended := mb.append updated
  let leased := { appended with
    lease := some (appended.deliveryLease current.inboundEventId timestamp) }
  (leased.refreshClaimed updated timestamp, some updated)

def claim (mb : Mailbox) (clock : Timestamp) (inboundEventId : InboundEventId)
    (startedAt : Option Timestamp) : Mailbox × Option InboundEventRecord :=
  let timestamp := startedAt.getD clock
  match mb.loadClaimCandidate inboundEventId with
  | none => (mb.rebuildMailboxSummary timestamp, none)
  | some current =>
    if mb.hasConflictingLease inboundEventId then (mb.rebuildMailboxSummary timestamp, none)
    else if current.status = .delivering then
      (mb.rebuildMailboxSummary timestamp, some current)
    else if !mb.isClaimableHead current then (mb.rebuildMailboxSummary timestamp, none)
    else mb.claimCurrent current timestamp

def claimNext (mb : Mailbox) (clock : Timestamp) (eventType : Option InboundEventType)
    (startedAt : Option Timestamp) : Mailbox × Option InboundEventRecord :=
  match mb.peekNext eventType with
  | none => (mb.rebuildMailboxSummary (startedAt.getD clock), none)
  | some next => mb.claim clock next.inboundEventId startedAt

def releaseMatchingLease (mb : Mailbox) (inboundEventId : InboundEventId) : Mailbox :=
  if mb.lease.any fun lease =>
      lease.leaseState == .acquired && lease.inboundEventId == inboundEventId
  then { mb with lease := none } else mb

/-- The transition update of a terminated event, given the head that remains. -/
def terminalUpdate (prior : MailboxRecord) (current : InboundEventRecord) (timestamp : Timestamp)
    (summaryHead : SummaryHead) : SummaryUpdate :=
  { queueDepth := prior.queueDepth - 1
    pendingReplyCount :=
      prior.pendingReplyCount - (if current.eventType = .taskReply then 1 else 0)
    activeInboundEventId :=
      if prior.activeInboundEventId = some current.inboundEventId then none
      else prior.activeInboundEventId
    lastStartedAt := prior.lastInboundStartedAt
    lastFinishedAt := latestTimestamp prior.lastInboundFinishedAt (some timestamp)
    updatedAt := timestamp
    summarySource := .transitionTerminal
    summaryHead := some summaryHead }

/-- The summary after an event of the log went terminal. When the event was the
head, the next head is looked up unless the queue is empty. -/
def refreshTerminal (mb : Mailbox) (current : InboundEventRecord) (timestamp : Timestamp) :
    Mailbox :=
  match mb.summary with
  | none => mb.rebuildMailboxSummary timestamp
  | some prior =>
    let update := fun head =>
      mb.applyTransitionSummaryUpdate (terminalUpdate prior current timestamp head)
    if prior.queueDepth ≤ 0 then mb.rebuildMailboxSummary timestamp
    else if prior.headInboundEventId = some current.inboundEventId then
      if prior.queueDepth - 1 = 0 then update (summaryHeadFromEvent none)
      else if prior.queueDepth - 1 = 1 then update (summaryHeadFromEvent mb.headPendingEvent)
      else
        match mb.headPendingEvent with
        | none => mb.rebuildMailboxSummary timestamp
        | some nextHead => update (summaryHeadFromEvent (some nextHead))
    else update prior.toSummaryHead

def markTerminal (mb : Mailbox) (clock : Timestamp) (inboundEventId : InboundEventId)
    (status : InboundEventStatus) (finishedAt : Option Timestamp) :
    Mailbox × Option InboundEventRecord :=
  let timestamp := finishedAt.getD clock
  match mb.getLatest inboundEventId with
  | none => (mb.rebuildMailboxSummary timestamp, none)
  | some current =>
    if current.status.terminal then (mb.rebuildMailboxSummary timestamp, some current)
    else
      let updated := { current with status := status, finishedAt := some timestamp }
      let released := (mb.append updated).releaseMatchingLease inboundEventId
      (released.refreshTerminal current timestamp, some updated)

def consume (mb : Mailbox) (clock : Timestamp) (inboundEventId : InboundEventId)
    (finishedAt : Option Timestamp) : Mailbox × Option InboundEventRecord :=
  mb.markTerminal clock inboundEventId .consumed finishedAt

def abandon (mb : Mailbox) (clock : Timestamp) (inboundEventId : InboundEventId)
    (finishedAt : Option Timestamp) : Mailbox × Option InboundEventRecord :=
  mb.markTerminal clock inboundEventId .abandoned finishedAt

def supersede (mb : Mailbox) (clock : Timestamp) (inboundEventId : InboundEventId)
    (finishedAt : Option Timestamp) : Mailbox × Option InboundEventRecord :=
  mb.markTerminal clock inboundEventId .superseded finishedAt

def headMatchesReply (head : Option InboundEventRecord) (inboundEventId : InboundEventId) : Bool :=
  head.any fun h => h.inboundEventId == inboundEventId && h.eventType == .taskReply

def ackReply (mb : Mailbox) (clock : Timestamp) (inboundEventId : InboundEventId)
    (startedAt finishedAt : Option Timestamp) : Mailbox × Option InboundEventRecord :=
  let timestamp := (finishedAt <|> startedAt).getD clock
  if !headMatchesReply mb.headPendingEvent inboundEventId then
    (mb.rebuildMailboxSummary timestamp, none)
  else
    match mb.getLatest inboundEventId with
    | none => (mb.rebuildMailboxSummary timestamp, none)
    | some current =>
      if current.status.terminal then (mb.rebuildMailboxSummary timestamp, some current)
      else if current.status = .delivering then
        mb.markTerminal clock inboundEventId .consumed (some (finishedAt.getD timestamp))
      else
        match mb.claim clock inboundEventId (some (startedAt.getD timestamp)) with
        | (claimedBox, none) => (claimedBox.rebuildMailboxSummary timestamp, none)
        | (claimedBox, some _) =>
          claimedBox.markTerminal clock inboundEventId .consumed (some (finishedAt.getD timestamp))

/-- The transition update of a rewritten head. -/
def rewriteUpdate (prior : MailboxRecord) (updated : InboundEventRecord) (timestamp : Timestamp) :
    SummaryUpdate :=
  { queueDepth := prior.queueDepth
    pendingReplyCount := prior.pendingReplyCount
    activeInboundEventId :=
      if prior.activeInboundEventId = some updated.inboundEventId then none
      else prior.activeInboundEventId
    lastStartedAt := prior.lastInboundStartedAt
    lastFinishedAt := prior.lastInboundFinishedAt
    updatedAt := timestamp
    summarySource := .transitionRewriteHead
    summaryHead := some (summaryHeadFromEvent (some updated)) }

def refreshRewritten (mb : Mailbox) (updated : InboundEventRecord) (timestamp : Timestamp) :
    Mailbox :=
  match mb.summary with
  | none => mb.rebuildMailboxSummary timestamp
  | some prior =>
    if prior.headInboundEventId ≠ some updated.inboundEventId ∨ prior.queueDepth ≤ 0 then
      mb.rebuildMailboxSummary timestamp
    else mb.applyTransitionSummaryUpdate (rewriteUpdate prior updated timestamp)

def rewriteRecord (current : InboundEventRecord) (payloadRef : Option PayloadRef)
    (status : InboundEventStatus) (clearProgress : Bool) : InboundEventRecord :=
  { current with
    payloadRef := payloadRef
    status := status
    startedAt := if clearProgress then none else current.startedAt
    finishedAt := if clearProgress then none else current.finishedAt }

def rewriteHead (mb : Mailbox) (clock : Timestamp) (inboundEventId : InboundEventId)
    (payloadRef : Option PayloadRef) (status : InboundEventStatus)
    (updatedAt : Option Timestamp) (clearProgress : Bool) :
    Mailbox × Option InboundEventRecord :=
  let timestamp := updatedAt.getD clock
  match mb.loadClaimCandidate inboundEventId with
  | none => (mb.rebuildMailboxSummary timestamp, none)
  | some current =>
    let updated := rewriteRecord current payloadRef status clearProgress
    let released := (mb.append updated).releaseMatchingLease inboundEventId
    (released.refreshRewritten updated timestamp, some updated)

/-! ### Effects on the log and the lease -/

theorem loadClaimCandidate_eq_some {mb : Mailbox} {id : InboundEventId}
    {c : InboundEventRecord} :
    mb.loadClaimCandidate id = some c ↔
      c ∈ mb.latestEvents ∧ c.inboundEventId = id ∧ c.status.terminal = false := by
  simp [loadClaimCandidate, Option.filter_eq_some_iff, getLatest_eq_some, and_assoc]

theorem hasConflictingLease_eq_false {mb : Mailbox} {id : InboundEventId} :
    mb.hasConflictingLease id = false ↔
      ∀ i, activeInboundEventId mb.lease = some i → i = id := by
  rcases hl : mb.lease with _ | lease
  · simp [hasConflictingLease, activeInboundEventId, hl]
  · by_cases ha : lease.leaseState = .acquired
    · simp [hasConflictingLease, activeInboundEventId, hl, ha]
    · simp [hasConflictingLease, activeInboundEventId, hl, ha]

theorem lease_releaseMatchingLease (mb : Mailbox) (id : InboundEventId) :
    (mb.releaseMatchingLease id).lease =
      if activeInboundEventId mb.lease = some id then none else mb.lease := by
  rcases hl : mb.lease with _ | lease
  · simp [releaseMatchingLease, activeInboundEventId, hl]
  · by_cases ha : lease.leaseState = .acquired
    · by_cases hi : lease.inboundEventId = id
      · simp [releaseMatchingLease, activeInboundEventId, hl, ha, hi]
      · simp [releaseMatchingLease, activeInboundEventId, hl, ha, hi]
    · simp [releaseMatchingLease, activeInboundEventId, hl, ha]

theorem active_releaseMatchingLease (mb : Mailbox) (id : InboundEventId) :
    activeInboundEventId (mb.releaseMatchingLease id).lease =
      if activeInboundEventId mb.lease = some id then none else activeInboundEventId mb.lease := by
  rw [lease_releaseMatchingLease]
  split_ifs <;> rfl

theorem active_releaseMatchingLease_eq_some {mb : Mailbox} {id i : InboundEventId} :
    activeInboundEventId (mb.releaseMatchingLease id).lease = some i ↔
      activeInboundEventId mb.lease = some i ∧ i ≠ id := by
  rw [active_releaseMatchingLease]
  split_ifs with h
  · rw [h]
    simp [eq_comm]
  · constructor
    · rintro hi
      exact ⟨hi, fun he => h (he ▸ hi)⟩
    · exact And.left

@[simp] theorem events_releaseMatchingLease (mb : Mailbox) (id : InboundEventId) :
    (mb.releaseMatchingLease id).events = mb.events := by
  unfold releaseMatchingLease
  split_ifs <;> rfl

@[simp] theorem events_append (mb : Mailbox) (r : InboundEventRecord) :
    (mb.append r).events = mb.events ++ [r] := rfl

@[simp] theorem lease_append (mb : Mailbox) (r : InboundEventRecord) :
    (mb.append r).lease = mb.lease := rfl

@[simp] theorem summary_append (mb : Mailbox) (r : InboundEventRecord) :
    (mb.append r).summary = mb.summary := rfl

@[simp] theorem summary_releaseMatchingLease (mb : Mailbox) (id : InboundEventId) :
    (mb.releaseMatchingLease id).summary = mb.summary := by
  unfold releaseMatchingLease
  split_ifs <;> rfl

@[simp] theorem lease_enqueue (mb : Mailbox) (clock e updatedAt) :
    (mb.enqueue clock e updatedAt).lease = mb.lease := by
  simp [enqueue]

@[simp] theorem events_enqueue (mb : Mailbox) (clock e updatedAt) :
    (mb.enqueue clock e updatedAt).events = mb.events ++ [e.record] := by
  simp [enqueue]

@[simp] theorem events_refreshClaimed (mb : Mailbox) (r t) :
    (mb.refreshClaimed r t).events = mb.events := by
  unfold refreshClaimed
  split
  · simp
  · split_ifs <;> simp

@[simp] theorem lease_refreshClaimed (mb : Mailbox) (r t) :
    (mb.refreshClaimed r t).lease = mb.lease := by
  unfold refreshClaimed
  split
  · simp
  · split_ifs <;> simp

@[simp] theorem events_refreshTerminal (mb : Mailbox) (r t) :
    (mb.refreshTerminal r t).events = mb.events := by
  unfold refreshTerminal
  split
  · simp
  · split_ifs
    case neg => split <;> simp
    all_goals simp

@[simp] theorem lease_refreshTerminal (mb : Mailbox) (r t) :
    (mb.refreshTerminal r t).lease = mb.lease := by
  unfold refreshTerminal
  split
  · simp
  · split_ifs
    case neg => split <;> simp
    all_goals simp

@[simp] theorem events_refreshRewritten (mb : Mailbox) (r t) :
    (mb.refreshRewritten r t).events = mb.events := by
  unfold refreshRewritten
  split
  · simp
  · split_ifs <;> simp

@[simp] theorem lease_refreshRewritten (mb : Mailbox) (r t) :
    (mb.refreshRewritten r t).lease = mb.lease := by
  unfold refreshRewritten
  split
  · simp
  · split_ifs <;> simp

theorem isClaimableHead_eq_true {mb : Mailbox} {c : InboundEventRecord}
    (hc : c ∈ mb.latestEvents) :
    mb.isClaimableHead c = true ↔
      c.status.claimable = true ∧ mb.headPendingEvent = some c := by
  simp only [isClaimableHead, Bool.and_eq_true, Option.any_eq_true, beq_iff_eq]
  constructor
  · rintro ⟨hs, head, hhead, hid⟩
    exact ⟨hs, eq_of_mem_latestEvents (headPendingEvent_mem hhead).1 hc hid ▸ hhead⟩
  · rintro ⟨hs, hhead⟩
    exact ⟨hs, c, hhead, rfl⟩

/-- A claim refreshes the summary, or it starts delivery of the head. -/
theorem claim_cases (mb : Mailbox) (clock : Timestamp) (id : InboundEventId)
    (startedAt : Option Timestamp) :
    ((mb.claim clock id startedAt).1 = mb.rebuildMailboxSummary (startedAt.getD clock) ∧
      ∀ e, (mb.claim clock id startedAt).2 = some e →
        e ∈ mb.latestEvents ∧ e.inboundEventId = id ∧ e.status = .delivering) ∨
    ∃ current, mb.headPendingEvent = some current ∧ current.inboundEventId = id ∧
      current.status.claimable = true ∧
      (∀ i, activeInboundEventId mb.lease = some i → i = id) ∧
      mb.claim clock id startedAt = mb.claimCurrent current (startedAt.getD clock) := by
  rcases hc : mb.loadClaimCandidate id with _ | current
  · exact .inl (by simp [claim, hc])
  · obtain ⟨hmem, hid, _⟩ := loadClaimCandidate_eq_some.mp hc
    by_cases hlease : mb.hasConflictingLease id = true
    · exact .inl (by simp [claim, hc, hlease])
    · by_cases hdel : current.status = .delivering
      · exact .inl (by simp [claim, hc, hlease, hdel, hmem, hid])
      · by_cases hhead : mb.isClaimableHead current = true
        · obtain ⟨hs, hh⟩ := (isClaimableHead_eq_true hmem).mp hhead
          refine .inr ⟨current, hh, hid, hs, ?_, ?_⟩
          · exact hasConflictingLease_eq_false.mp (by simpa using hlease)
          · simp [claim, hc, hlease, hdel, hhead]
        · exact .inl (by simp [claim, hc, hlease, hdel, hhead])

@[simp] theorem events_claimCurrent (mb : Mailbox) (c : InboundEventRecord) (t : Timestamp) :
    (mb.claimCurrent c t).1.events = mb.events ++ [deliveryRecord c t] := by
  simp [claimCurrent]

theorem lease_claimCurrent (mb : Mailbox) (c : InboundEventRecord) (t : Timestamp) :
    activeInboundEventId (mb.claimCurrent c t).1.lease = some c.inboundEventId := by
  simp [claimCurrent, deliveryLease, activeInboundEventId]

/-- Terminating an event refreshes the summary, or it ends a pending event. -/
theorem markTerminal_cases (mb : Mailbox) (clock : Timestamp) (id : InboundEventId)
    (status : InboundEventStatus) (finishedAt : Option Timestamp) :
    ((mb.markTerminal clock id status finishedAt).1 =
        mb.rebuildMailboxSummary (finishedAt.getD clock) ∧
      ∀ r ∈ mb.latestEvents, r.inboundEventId = id → r.status.terminal = true) ∨
    ∃ current ∈ mb.latestEvents, current.inboundEventId = id ∧
      current.status.terminal = false ∧
      mb.markTerminal clock id status finishedAt =
        (((mb.append { current with
            status := status, finishedAt := some (finishedAt.getD clock) }).releaseMatchingLease
              id).refreshTerminal current (finishedAt.getD clock),
          some { current with status := status, finishedAt := some (finishedAt.getD clock) }) := by
  rcases hc : mb.getLatest id with _ | current
  · refine .inl ⟨by simp [markTerminal, hc], fun r hr hid => ?_⟩
    rw [getLatest_eq_some.mpr ⟨hr, hid⟩] at hc
    contradiction
  · obtain ⟨hmem, hid⟩ := getLatest_eq_some.mp hc
    by_cases ht : current.status.terminal = true
    · refine .inl ⟨by simp [markTerminal, hc, ht], fun r hr hr' => ?_⟩
      rw [eq_of_mem_latestEvents hr hmem (hr'.trans hid.symm)]
      exact ht
    · exact .inr ⟨current, hmem, hid, by simpa using ht, by simp [markTerminal, hc, ht]⟩

/-- Ending the head: its row is the next one of the log, and the others move up. -/
theorem markTerminal_head {mb : Mailbox} {head : InboundEventRecord}
    (h : mb.headPendingEvent = some head) (clock : Timestamp) (status : InboundEventStatus)
    (finishedAt : Option Timestamp) (ends : status.terminal = true) :
    (mb.markTerminal clock head.inboundEventId status finishedAt).1.events = mb.events ++
        [{ head with status := status, finishedAt := some (finishedAt.getD clock) }] ∧
      (mb.markTerminal clock head.inboundEventId status finishedAt).1.pendingEvents none =
        (mb.pendingEvents none).tail := by
  obtain ⟨hmem, hlive⟩ := headPendingEvent_mem h
  rcases markTerminal_cases mb clock head.inboundEventId status finishedAt with
    ⟨-, hended⟩ | ⟨current, hcurrent, hid, -, hmark⟩
  · rw [hended head hmem rfl] at hlive
    contradiction
  · obtain rfl := eq_of_mem_latestEvents hcurrent hmem hid
    have hevents : (mb.markTerminal clock current.inboundEventId status finishedAt).1.events =
        mb.events ++ [{ current with
          status := status, finishedAt := some (finishedAt.getD clock) }] := by
      rw [hmark]
      simp
    refine ⟨hevents, ?_⟩
    rw [pendingEvents, latestEvents, hevents]
    have hpending : (mb.append { current with
        status := status, finishedAt := some (finishedAt.getD clock) }).pendingEvents none =
          (mb.pendingEvents none).filter fun x => x.inboundEventId ≠ current.inboundEventId :=
      pendingEvents_append_terminal ends
    rw [pendingEvents, latestEvents, events_append] at hpending
    rw [hpending]
    -- no other pending event has the id of the head
    have hnodup := mb.nodup_pendingEvents
    rw [headPendingEvent] at h
    cases hl : mb.pendingEvents none with
    | nil =>
      rw [hl] at h
      contradiction
    | cons x rest =>
      rw [hl] at h hnodup
      obtain rfl := Option.some.inj h
      rw [List.map_cons, List.nodup_cons] at hnodup
      rw [List.tail_cons, List.filter_cons_of_neg (by simp), List.filter_eq_self]
      intro y hy
      have hne : y.inboundEventId ≠ x.inboundEventId := by
        intro he
        exact hnodup.1 (he ▸ List.mem_map_of_mem hy)
      simpa using hne

@[simp] theorem rewriteRecord_inboundEventId (c : InboundEventRecord) (p s clear) :
    (rewriteRecord c p s clear).inboundEventId = c.inboundEventId := rfl

/-- Rewriting an event refreshes the summary, or it rewrites a pending event. -/
theorem rewriteHead_cases (mb : Mailbox) (clock : Timestamp) (id : InboundEventId)
    (payloadRef : Option PayloadRef) (status : InboundEventStatus)
    (updatedAt : Option Timestamp) (clearProgress : Bool) :
    (mb.rewriteHead clock id payloadRef status updatedAt clearProgress =
        (mb.rebuildMailboxSummary (updatedAt.getD clock), none) ∧
      ∀ r ∈ mb.latestEvents, r.inboundEventId = id → r.status.terminal = true) ∨
    ∃ current ∈ mb.latestEvents, current.inboundEventId = id ∧
      current.status.terminal = false ∧
      mb.rewriteHead clock id payloadRef status updatedAt clearProgress =
        (((mb.append (rewriteRecord current payloadRef status clearProgress)).releaseMatchingLease
              id).refreshRewritten (rewriteRecord current payloadRef status clearProgress)
            (updatedAt.getD clock),
          some (rewriteRecord current payloadRef status clearProgress)) := by
  rcases hc : mb.loadClaimCandidate id with _ | current
  · refine .inl ⟨by simp [rewriteHead, hc], fun r hr hid => ?_⟩
    by_contra ht
    rw [loadClaimCandidate_eq_some.mpr ⟨hr, hid, by simpa using ht⟩] at hc
    contradiction
  · obtain ⟨hmem, hid, ht⟩ := loadClaimCandidate_eq_some.mp hc
    exact .inr ⟨current, hmem, hid, ht, by simp [rewriteHead, hc]⟩

/-- An acknowledgement ends the event, claiming it first if nobody has, or it only
refreshes the summary. -/
theorem ackReply_cases (mb : Mailbox) (clock : Timestamp) (id : InboundEventId)
    (startedAt finishedAt : Option Timestamp) :
    ∃ mb₁ t, (mb₁ = mb ∨ ∃ claimedAt, mb₁ = (mb.claim clock id claimedAt).1) ∧
      ((mb.ackReply clock id startedAt finishedAt).1 = mb₁.rebuildMailboxSummary t ∨
        (mb.ackReply clock id startedAt finishedAt).1 =
          (mb₁.markTerminal clock id .consumed (some t)).1) := by
  unfold ackReply
  dsimp only
  split
  · exact ⟨mb, _, .inl rfl, .inl rfl⟩
  · split
    · exact ⟨mb, _, .inl rfl, .inl rfl⟩
    · split_ifs
      · exact ⟨mb, _, .inl rfl, .inl rfl⟩
      · exact ⟨mb, _, .inl rfl, .inr rfl⟩
      · split
        · rename_i claimedBox heq
          exact ⟨claimedBox, _, .inr ⟨_, (congrArg Prod.fst heq).symm⟩, .inl rfl⟩
        · rename_i claimedBox _ heq
          exact ⟨claimedBox, _, .inr ⟨_, (congrArg Prod.fst heq).symm⟩, .inr rfl⟩

/-! ### Runs -/

/-- One operation of the mailbox service. -/
inductive Step : Mailbox → Mailbox → Prop
  | enqueue {mb : Mailbox} (clock : Timestamp) (e : NewEvent) (updatedAt : Option Timestamp)
      (fresh : e.inboundEventId ∉ mb.events.map InboundEventRecord.inboundEventId) :
      Step mb (mb.enqueue clock e updatedAt)
  | claim {mb : Mailbox} (clock : Timestamp) (id : InboundEventId)
      (startedAt : Option Timestamp) : Step mb (mb.claim clock id startedAt).1
  | claimNext {mb : Mailbox} (clock : Timestamp) (eventType : Option InboundEventType)
      (startedAt : Option Timestamp) : Step mb (mb.claimNext clock eventType startedAt).1
  | ackReply {mb : Mailbox} (clock : Timestamp) (id : InboundEventId)
      (startedAt finishedAt : Option Timestamp) :
      Step mb (mb.ackReply clock id startedAt finishedAt).1
  | markTerminal {mb : Mailbox} (clock : Timestamp) (id : InboundEventId)
      (status : InboundEventStatus) (finishedAt : Option Timestamp)
      (ends : status.terminal = true) : Step mb (mb.markTerminal clock id status finishedAt).1
  | rewriteHead {mb : Mailbox} (clock : Timestamp) (id : InboundEventId)
      (payloadRef : Option PayloadRef) (updatedAt : Option Timestamp) (clearProgress : Bool) :
      Step mb (mb.rewriteHead clock id payloadRef .queued updatedAt clearProgress).1
  | rebuild {mb : Mailbox} (updatedAt : Timestamp) : Step mb (mb.rebuildMailboxSummary updatedAt)

/-- What the primitive operations establish, every step establishes. -/
theorem Step.establishes {P Q : Mailbox → Prop} (weaken : ∀ mb, Q mb → P mb)
    (enqueue : ∀ mb clock e updatedAt, P mb →
      e.inboundEventId ∉ mb.events.map InboundEventRecord.inboundEventId →
      Q (mb.enqueue clock e updatedAt))
    (claim : ∀ mb clock id startedAt, P mb → Q (mb.claim clock id startedAt).1)
    (terminal : ∀ mb clock id status finishedAt, P mb → status.terminal = true →
      Q (mb.markTerminal clock id status finishedAt).1)
    (rewrite : ∀ mb clock id payloadRef updatedAt clearProgress, P mb →
      Q (mb.rewriteHead clock id payloadRef .queued updatedAt clearProgress).1)
    (rebuild : ∀ mb updatedAt, P mb → Q (mb.rebuildMailboxSummary updatedAt))
    {mb mb' : Mailbox} (h : Step mb mb') (hP : P mb) : Q mb' := by
  cases h with
  | enqueue clock e updatedAt fresh => exact enqueue _ _ _ _ hP fresh
  | claim clock id startedAt => exact claim _ _ _ _ hP
  | claimNext clock eventType startedAt =>
    unfold Mailbox.claimNext
    split
    · exact rebuild _ _ hP
    · exact claim _ _ _ _ hP
  | markTerminal clock id status finishedAt ends => exact terminal _ _ _ _ _ hP ends
  | rewriteHead clock id payloadRef updatedAt clearProgress => exact rewrite _ _ _ _ _ _ hP
  | rebuild updatedAt => exact rebuild _ _ hP
  | ackReply clock id startedAt finishedAt =>
    obtain ⟨mb₁, t, hmb₁, hack⟩ := mb.ackReply_cases clock id startedAt finishedAt
    have hP₁ : P mb₁ := by
      rcases hmb₁ with rfl | ⟨claimedAt, rfl⟩
      · exact hP
      · exact weaken _ (claim _ _ _ _ hP)
    rcases hack with hack | hack
    · exact hack ▸ rebuild _ _ hP₁
    · exact hack ▸ terminal _ _ _ _ _ hP₁ rfl

/-- Rows are never removed. -/
theorem Step.events_subset {mb mb' : Mailbox} (h : Step mb mb') : mb.events ⊆ mb'.events := by
  refine h.establishes (P := fun b => mb.events ⊆ b.events) (fun _ => id) ?_ ?_ ?_ ?_ ?_
    (List.Subset.refl _)
  · intro b clock e updatedAt hb _
    rw [events_enqueue]
    exact List.Subset.trans hb (List.subset_append_left _ _)
  · intro b clock id startedAt hb
    rcases claim_cases b clock id startedAt with ⟨hc, -⟩ | ⟨current, -, -, -, -, hc⟩
    · rwa [hc, events_rebuild]
    · rw [hc, events_claimCurrent]
      exact List.Subset.trans hb (List.subset_append_left _ _)
  · intro b clock id status finishedAt hb _
    rcases markTerminal_cases b clock id status finishedAt with ⟨hm, -⟩ | ⟨current, -, -, -, hm⟩
    · rwa [hm, events_rebuild]
    · rw [hm, events_refreshTerminal, events_releaseMatchingLease]
      exact List.Subset.trans hb (List.subset_append_left _ _)
  · intro b clock id payloadRef updatedAt clearProgress hb
    rcases rewriteHead_cases b clock id payloadRef .queued updatedAt clearProgress with
      ⟨hw, -⟩ | ⟨current, -, -, -, hw⟩
    · rwa [hw, events_rebuild]
    · rw [hw, events_refreshRewritten, events_releaseMatchingLease]
      exact List.Subset.trans hb (List.subset_append_left _ _)
  · intro b t hb
    rwa [events_rebuild]

/-- An ended event gets no further row. -/
theorem Step.keeps_ended {mb mb' : Mailbox} (h : Step mb mb') {id : InboundEventId}
    {e : InboundEventRecord} (he : mb.getLatest id = some e) (ht : e.status.terminal = true) :
    mb'.getLatest id = some e := by
  -- a row of a pending event, or of a new one, is a row of another event
  have key : ∀ (b : Mailbox) (r : InboundEventRecord), b.getLatest id = some e →
      (∀ x ∈ b.latestEvents,
      x.inboundEventId = r.inboundEventId → x.status.terminal = false) →
      ∀ b' : Mailbox, b'.events = b.events ++ [r] → b'.getLatest id = some e := by
    intro b r hb hr b' hev
    rw [getLatest_of_append hev, if_neg]
    · exact hb
    · rintro rfl
      obtain ⟨hmem, hid⟩ := getLatest_eq_some.mp hb
      rw [hr e hmem hid] at ht
      contradiction
  refine h.establishes (P := fun b => b.getLatest id = some e) (fun _ hb => hb) ?_ ?_ ?_ ?_ ?_ he
  · intro b clock ev updatedAt hb fresh
    refine key b ev.record hb (fun x hx hid => ?_) _ (events_enqueue _ _ _ _)
    exact absurd (List.mem_map.mpr ⟨x, mem_of_mem_latest hx, hid⟩) fresh
  · intro b clock i startedAt hb
    rcases claim_cases b clock i startedAt with ⟨hc, -⟩ | ⟨current, hhead, -, -, -, hc⟩
    · rwa [hc, getLatest_congr (events_rebuild _ _)]
    · rw [hc]
      obtain ⟨hmem, hlive⟩ := headPendingEvent_mem hhead
      refine key b (deliveryRecord current _) hb (fun x hx hid => ?_) _ (events_claimCurrent _ _ _)
      rw [eq_of_mem_latestEvents hx hmem hid]
      exact hlive
  · intro b clock i status finishedAt hb _
    rcases markTerminal_cases b clock i status finishedAt with ⟨hm, -⟩ |
      ⟨current, hmem, rfl, hlive, hm⟩
    · rwa [hm, getLatest_congr (events_rebuild _ _)]
    · rw [hm]
      refine key b { current with
        status := status, finishedAt := some (finishedAt.getD clock) } hb (fun x hx hid => ?_) _
        (by simp)
      rw [eq_of_mem_latestEvents hx hmem hid]
      exact hlive
  · intro b clock i payloadRef updatedAt clearProgress hb
    rcases rewriteHead_cases b clock i payloadRef .queued updatedAt clearProgress with
      ⟨hw, -⟩ | ⟨current, hmem, rfl, hlive, hw⟩
    · rwa [hw, getLatest_congr (events_rebuild _ _)]
    · rw [hw]
      refine key b (rewriteRecord current payloadRef .queued clearProgress) hb
        (fun x hx hid => ?_) _ (by simp)
      rw [eq_of_mem_latestEvents hx hmem hid]
      exact hlive
  · intro b t hb
    rwa [getLatest_congr (events_rebuild _ _)]

/-- A run of mailbox operations. -/
def Run : Mailbox → Mailbox → Prop := Relation.ReflTransGen Step

theorem Run.events_subset {mb mb' : Mailbox} (h : Run mb mb') : mb.events ⊆ mb'.events := by
  induction h with
  | refl => exact List.Subset.refl _
  | tail _ step ih => exact List.Subset.trans ih step.events_subset

theorem Run.keeps_ended {mb mb' : Mailbox} (h : Run mb mb') {id : InboundEventId}
    {e : InboundEventRecord} (he : mb.getLatest id = some e) (ht : e.status.terminal = true) :
    mb'.getLatest id = some e := by
  induction h with
  | refl => exact he
  | tail _ step ih => exact step.keeps_ended ih ht

end CodexBridge.Mailbox
