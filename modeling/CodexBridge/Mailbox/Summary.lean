import CodexBridge.Mailbox.Records

/-! The stored summary of a mailbox: the incremental and transition updates, and
the projection that recomputes it from the event log and the lease. Saving always
writes the record built from the prior that was just loaded. -/

namespace CodexBridge.Mailbox

open AppendLog

/-! ### Building a summary record -/

def nextSummaryVersion : Option MailboxRecord → ℕ
  | none => 1
  | some prior => prior.summaryVersion + 1

def summaryHeadFromEvent : Option InboundEventRecord → SummaryHead
  | none => ⟨none, none, none, none, none, none⟩
  | some record =>
    { headInboundEventId := some record.inboundEventId
      headEventType := some record.eventType
      headStatus := some record.status
      headMessageId := some record.messageId
      headAttemptId := record.attemptId
      headPayloadRef := record.payloadRef }

def latestTimestamp (current : Option Timestamp) : Option Timestamp → Option Timestamp
  | none => current
  | some candidate =>
    match current with
    | none => some candidate
    | some t => if t < candidate then some candidate else some t

def deriveMailboxState (hasActive : Bool) (queueDepth : ℕ) : MailboxState :=
  if hasActive then .delivering else if queueDepth > 0 then .blocked else .idle

/-- The event the lease holds for delivery. -/
def activeInboundEventId : Option DeliveryLease → Option InboundEventId
  | none => none
  | some lease => if lease.leaseState = .acquired then some lease.inboundEventId else none

/-- What a summary update supplies besides the prior record and the lease.
`summaryHead = none` resolves the head from the log. -/
structure SummaryUpdate where
  queueDepth : ℕ
  pendingReplyCount : ℕ
  activeInboundEventId : Option InboundEventId
  lastStartedAt : Option Timestamp
  lastFinishedAt : Option Timestamp
  updatedAt : Timestamp
  summarySource : SummarySource
  summaryHead : Option SummaryHead

def summaryLeaseVersion (prior : Option MailboxRecord) : Option DeliveryLease → ℕ
  | some lease => lease.leaseVersion
  | none => prior.elim 0 MailboxRecord.leaseVersion

/-- A version advances exactly when one of the compared fields changes. -/
def summaryVersionForRecord (prior : Option MailboxRecord) (u : SummaryUpdate)
    (head : SummaryHead) (mailboxState : MailboxState) (leaseVersion : ℕ) : ℕ :=
  match prior with
  | none => 1
  | some p =>
    if p.activeInboundEventId = u.activeInboundEventId ∧ p.queueDepth = u.queueDepth ∧
        p.pendingReplyCount = u.pendingReplyCount ∧ p.toSummaryHead = head ∧
        p.lastInboundStartedAt = u.lastStartedAt ∧ p.lastInboundFinishedAt = u.lastFinishedAt ∧
        p.mailboxState = mailboxState ∧ p.leaseVersion = leaseVersion
    then p.summaryVersion
    else nextSummaryVersion (some p)

def buildMailboxSummaryRecord (mb : Mailbox) (prior : Option MailboxRecord)
    (lease : Option DeliveryLease) (u : SummaryUpdate) : MailboxRecord :=
  let head := u.summaryHead.getD (summaryHeadFromEvent mb.headPendingEvent)
  let leaseVersion := summaryLeaseVersion prior lease
  let hasActive := (Mailbox.activeInboundEventId lease).isSome || u.activeInboundEventId.isSome
  let mailboxState := deriveMailboxState hasActive u.queueDepth
  { head with
    mailboxId := prior.elim ("mbx_" ++ mb.agentName) MailboxRecord.mailboxId
    agentName := mb.agentName
    summaryVersion := summaryVersionForRecord prior u head mailboxState leaseVersion
    summarySource := u.summarySource
    summaryRefreshedAt := u.updatedAt
    activeInboundEventId := u.activeInboundEventId
    queueDepth := u.queueDepth
    pendingReplyCount := u.pendingReplyCount
    lastInboundStartedAt := u.lastStartedAt
    lastInboundFinishedAt := u.lastFinishedAt
    mailboxState := mailboxState
    leaseVersion := leaseVersion
    updatedAt := u.updatedAt }

/-! ### Saving -/

/-- `MailboxStore.compare_and_save` -/
def compareAndSave (mb : Mailbox) (record : MailboxRecord) (expected : Option ℕ) :
    Option Mailbox :=
  if mb.summary.map MailboxRecord.summaryVersion = expected then
    some { mb with summary := some record }
  else none

/-- The mailbox after the save; the record the source returns is the one stored then. -/
def saveSummaryRecord (mb : Mailbox) (record : MailboxRecord) (expected : Option ℕ) : Mailbox :=
  match mb.compareAndSave record expected with
  | some saved => saved
  | none => if mb.summary.isSome then mb else { mb with summary := some record }

def applyIncrementalSummaryUpdate (mb : Mailbox) (clock : Timestamp)
    (queueDelta pendingReplyDelta : ℤ) (active : Option (Option InboundEventId))
    (lastStartedAt lastFinishedAt updatedAt : Option Timestamp) : Mailbox :=
  let prior := mb.summary
  let record := mb.buildMailboxSummaryRecord prior mb.lease
    { queueDepth := ((prior.elim 0 fun p => (p.queueDepth : ℤ)) + queueDelta).toNat
      pendingReplyCount :=
        ((prior.elim 0 fun p => (p.pendingReplyCount : ℤ)) + pendingReplyDelta).toNat
      activeInboundEventId := active.getD (prior.bind MailboxRecord.activeInboundEventId)
      lastStartedAt := latestTimestamp (prior.bind MailboxRecord.lastInboundStartedAt) lastStartedAt
      lastFinishedAt :=
        latestTimestamp (prior.bind MailboxRecord.lastInboundFinishedAt) lastFinishedAt
      updatedAt := updatedAt.getD clock
      summarySource := .incrementalUpsert
      summaryHead := none }
  mb.saveSummaryRecord record (prior.map MailboxRecord.summaryVersion)

def applyTransitionSummaryUpdate (mb : Mailbox) (u : SummaryUpdate) : Mailbox :=
  let prior := mb.summary
  let record := mb.buildMailboxSummaryRecord prior mb.lease u
  mb.saveSummaryRecord record (prior.map MailboxRecord.summaryVersion)

/-! ### Projecting the history -/

def latestActivity (prior : Option MailboxRecord) (events : List InboundEventRecord) :
    Option Timestamp × Option Timestamp :=
  events.foldl
    (fun acc event =>
      (latestTimestamp acc.1 event.startedAt, latestTimestamp acc.2 event.finishedAt))
    (prior.bind MailboxRecord.lastInboundStartedAt, prior.bind MailboxRecord.lastInboundFinishedAt)

def pendingReplies (events : List InboundEventRecord) : ℕ :=
  events.countP fun event => event.eventType == .taskReply

def projectMailboxSummary (mb : Mailbox) (updatedAt : Timestamp) (prior : Option MailboxRecord) :
    MailboxRecord :=
  let events := mb.pendingEvents none
  let activity := latestActivity prior mb.latestEvents
  mb.buildMailboxSummaryRecord prior mb.lease
    { queueDepth := events.length
      pendingReplyCount := pendingReplies events
      activeInboundEventId := activeInboundEventId mb.lease
      lastStartedAt := activity.1
      lastFinishedAt := activity.2
      updatedAt := updatedAt
      summarySource := .historyRefresh
      summaryHead := none }

def rebuildMailboxSummary (mb : Mailbox) (updatedAt : Timestamp) : Mailbox :=
  mb.saveSummaryRecord (mb.projectMailboxSummary updatedAt mb.summary)
    (mb.summary.map MailboxRecord.summaryVersion)

/-! ### Saves touch the summary alone -/

theorem saveSummaryRecord_loaded (mb : Mailbox) (record : MailboxRecord) :
    mb.saveSummaryRecord record (mb.summary.map MailboxRecord.summaryVersion) =
      { mb with summary := some record } := by
  simp [saveSummaryRecord, compareAndSave]

@[simp] theorem events_applyIncremental (mb : Mailbox) (clock q r active s f u) :
    (mb.applyIncrementalSummaryUpdate clock q r active s f u).events = mb.events := by
  simp [applyIncrementalSummaryUpdate, saveSummaryRecord_loaded]

@[simp] theorem lease_applyIncremental (mb : Mailbox) (clock q r active s f u) :
    (mb.applyIncrementalSummaryUpdate clock q r active s f u).lease = mb.lease := by
  simp [applyIncrementalSummaryUpdate, saveSummaryRecord_loaded]

@[simp] theorem events_applyTransition (mb : Mailbox) (u : SummaryUpdate) :
    (mb.applyTransitionSummaryUpdate u).events = mb.events := by
  simp [applyTransitionSummaryUpdate, saveSummaryRecord_loaded]

@[simp] theorem lease_applyTransition (mb : Mailbox) (u : SummaryUpdate) :
    (mb.applyTransitionSummaryUpdate u).lease = mb.lease := by
  simp [applyTransitionSummaryUpdate, saveSummaryRecord_loaded]

@[simp] theorem events_rebuild (mb : Mailbox) (t : Timestamp) :
    (mb.rebuildMailboxSummary t).events = mb.events := by
  simp [rebuildMailboxSummary, saveSummaryRecord_loaded]

@[simp] theorem lease_rebuild (mb : Mailbox) (t : Timestamp) :
    (mb.rebuildMailboxSummary t).lease = mb.lease := by
  simp [rebuildMailboxSummary, saveSummaryRecord_loaded]

end CodexBridge.Mailbox
