import CodexBridge.Mailbox.Delivery

/-! The stored summary agrees with the projection of the history. The stored
record is built along four fast paths; each is shown to build what a fold over
the log and the lease builds. -/

namespace CodexBridge.Mailbox

open AppendLog

/-! ### Timestamps already accounted for -/

/-- Folding `candidate` into `current` changes nothing. -/
def Covers (current candidate : Option Timestamp) : Prop :=
  latestTimestamp current candidate = current

@[simp] theorem covers_none (t : Option Timestamp) : Covers t none := rfl

theorem covers_some {t : Option Timestamp} {c : Timestamp} :
    Covers t (some c) ↔ ∃ x, t = some x ∧ c ≤ x := by
  rcases t with _ | x
  · simp [Covers, latestTimestamp]
  · by_cases h : x < c
    · simp [Covers, latestTimestamp, h, ne_of_gt h, h.not_ge]
    · simp [Covers, latestTimestamp, h, not_lt.mp h]

theorem covers_latestTimestamp (t c : Option Timestamp) : Covers (latestTimestamp t c) c := by
  rcases c with _ | c
  · exact covers_none _
  · rcases t with _ | x
    · exact covers_some.mpr ⟨c, rfl, le_rfl⟩
    · by_cases h : x < c
      · exact covers_some.mpr ⟨c, by simp [latestTimestamp, h], le_rfl⟩
      · exact covers_some.mpr ⟨x, by simp [latestTimestamp, h], not_lt.mp h⟩

theorem Covers.latestTimestamp {t c : Option Timestamp} (h : Covers t c) (d : Option Timestamp) :
    Covers (latestTimestamp t d) c := by
  rcases c with _ | c
  · exact covers_none _
  · obtain ⟨x, rfl, hx⟩ := covers_some.mp h
    rcases d with _ | d
    · exact h
    · by_cases hd : x < d
      · exact covers_some.mpr ⟨d, by simp [Mailbox.latestTimestamp, hd], hx.trans hd.le⟩
      · exact covers_some.mpr ⟨x, by simp [Mailbox.latestTimestamp, hd], hx⟩

/-- Both timestamps of every event in the list are accounted for. -/
def CoversAll (started finished : Option Timestamp) (events : List InboundEventRecord) : Prop :=
  ∀ e ∈ events, Covers started e.startedAt ∧ Covers finished e.finishedAt

theorem latestActivity_covers (prior : Option MailboxRecord) (events : List InboundEventRecord) :
    CoversAll (latestActivity prior events).1 (latestActivity prior events).2 events := by
  induction events using List.reverseRecOn with
  | nil => simp [CoversAll]
  | append_singleton es x ih =>
    intro e he
    simp only [latestActivity, List.foldl_append, List.foldl_cons, List.foldl_nil]
    rcases List.mem_append.mp he with he | he
    · exact ⟨(ih e he).1.latestTimestamp _, (ih e he).2.latestTimestamp _⟩
    · obtain rfl := List.mem_singleton.mp he
      exact ⟨covers_latestTimestamp _ _, covers_latestTimestamp _ _⟩

/-- Projecting over events that are accounted for returns the prior activity. -/
theorem latestActivity_of_covers {prior : MailboxRecord} {events : List InboundEventRecord}
    (h : CoversAll prior.lastInboundStartedAt prior.lastInboundFinishedAt events) :
    latestActivity (some prior) events =
      (prior.lastInboundStartedAt, prior.lastInboundFinishedAt) := by
  induction events using List.reverseRecOn with
  | nil => rfl
  | append_singleton es x ih =>
    have hes := ih fun e he => h e (List.mem_append_left _ he)
    obtain ⟨hs, hf⟩ := h x (by simp)
    unfold latestActivity at hes ⊢
    rw [List.foldl_append, hes]
    exact Prod.ext hs hf

/-! ### The stored record tracks the log -/

/-- What the stored record says about the log and the lease. -/
structure Tracks (mb : Mailbox) (r : MailboxRecord) : Prop where
  queueDepth : r.queueDepth = (mb.pendingEvents none).length
  pendingReplyCount : r.pendingReplyCount = pendingReplies (mb.pendingEvents none)
  active : r.activeInboundEventId = activeInboundEventId mb.lease
  head : r.toSummaryHead = summaryHeadFromEvent mb.headPendingEvent
  state : r.mailboxState =
    deriveMailboxState (activeInboundEventId mb.lease).isSome (mb.pendingEvents none).length
  activity : CoversAll r.lastInboundStartedAt r.lastInboundFinishedAt mb.latestEvents
  leaseVersion : r.leaseVersion = summaryLeaseVersion (some r) mb.lease

/-- An update that reports the log truthfully builds a record that tracks it. -/
theorem tracks_build {mb : Mailbox} {u : SummaryUpdate}
    (hq : u.queueDepth = (mb.pendingEvents none).length)
    (hp : u.pendingReplyCount = pendingReplies (mb.pendingEvents none))
    (ha : u.activeInboundEventId = activeInboundEventId mb.lease)
    (hh : u.summaryHead.getD (summaryHeadFromEvent mb.headPendingEvent) =
      summaryHeadFromEvent mb.headPendingEvent)
    (hc : CoversAll u.lastStartedAt u.lastFinishedAt mb.latestEvents)
    (prior : Option MailboxRecord) :
    Tracks mb (mb.buildMailboxSummaryRecord prior mb.lease u) := by
  refine ⟨hq, hp, ha, ?_, ?_, hc, ?_⟩
  · simpa [buildMailboxSummaryRecord] using hh
  · simp [buildMailboxSummaryRecord, ha, hq]
  · rcases hl : mb.lease with _ | lease
    · simp [buildMailboxSummaryRecord, summaryLeaseVersion]
    · simp [buildMailboxSummaryRecord, summaryLeaseVersion]

theorem tracks_project (mb : Mailbox) (t : Timestamp) (prior : Option MailboxRecord) :
    Tracks mb (mb.projectMailboxSummary t prior) :=
  tracks_build rfl rfl rfl rfl (latestActivity_covers prior _) prior

/-- The fields on which the stored and the projected record are compared. -/
structure Agrees (stored projected : MailboxRecord) : Prop where
  queueDepth : stored.queueDepth = projected.queueDepth
  pendingReplyCount : stored.pendingReplyCount = projected.pendingReplyCount
  activeInboundEventId : stored.activeInboundEventId = projected.activeInboundEventId
  head : stored.toSummaryHead = projected.toSummaryHead
  mailboxState : stored.mailboxState = projected.mailboxState
  lastInboundStartedAt : stored.lastInboundStartedAt = projected.lastInboundStartedAt
  lastInboundFinishedAt : stored.lastInboundFinishedAt = projected.lastInboundFinishedAt
  leaseVersion : stored.leaseVersion = projected.leaseVersion

theorem agrees_of_tracks {mb : Mailbox} {r : MailboxRecord} (h : Tracks mb r) (t : Timestamp) :
    Agrees r (mb.projectMailboxSummary t (some r)) := by
  have hp := tracks_project mb t (some r)
  have hact := latestActivity_of_covers h.activity
  refine ⟨h.queueDepth.trans hp.queueDepth.symm,
    h.pendingReplyCount.trans hp.pendingReplyCount.symm, h.active.trans hp.active.symm,
    h.head.trans hp.head.symm, h.state.trans hp.state.symm, ?_, ?_, ?_⟩
  · simp [projectMailboxSummary, buildMailboxSummaryRecord, hact]
  · simp [projectMailboxSummary, buildMailboxSummaryRecord, hact]
  · exact h.leaseVersion

theorem Tracks.congr {mb mb' : Mailbox} {r : MailboxRecord} (h : Tracks mb r)
    (he : mb'.events = mb.events) (hl : mb'.lease = mb.lease) : Tracks mb' r := by
  have hlatest : mb'.latestEvents = mb.latestEvents := by rw [latestEvents, he, latestEvents]
  have hpending : mb'.pendingEvents none = mb.pendingEvents none := by
    rw [pendingEvents, hlatest, pendingEvents]
  have hhead : mb'.headPendingEvent = mb.headPendingEvent := by
    rw [headPendingEvent, hpending, headPendingEvent]
  exact ⟨by rw [hpending, h.queueDepth], by rw [hpending, h.pendingReplyCount],
    by rw [hl, h.active], by rw [hhead, h.head], by rw [hl, hpending, h.state],
    by rw [hlatest]; exact h.activity, by rw [hl, ← h.leaseVersion]⟩

/-- The stored record exists and tracks the mailbox. -/
def Current (mb : Mailbox) : Prop := ∃ r, mb.summary = some r ∧ Tracks mb r

/-- No operation has run yet, or the stored record is current. -/
def Summarized (mb : Mailbox) : Prop :=
  (mb.summary = none ∧ mb.events = [] ∧ mb.lease = none) ∨ Current mb

theorem current_rebuild (mb : Mailbox) (t : Timestamp) : Current (mb.rebuildMailboxSummary t) := by
  rw [rebuildMailboxSummary, saveSummaryRecord_loaded]
  exact ⟨_, rfl, (tracks_project mb t mb.summary).congr rfl rfl⟩

theorem current_applyTransition {mb : Mailbox} {u : SummaryUpdate}
    (h : Tracks mb (mb.buildMailboxSummaryRecord mb.summary mb.lease u)) :
    Current (mb.applyTransitionSummaryUpdate u) := by
  rw [applyTransitionSummaryUpdate, saveSummaryRecord_loaded]
  exact ⟨_, rfl, h.congr rfl rfl⟩

/-- What an incremental update reads from the prior record, present or not. -/
theorem Summarized.prior {mb : Mailbox} (h : Summarized mb) :
    (mb.summary.elim 0 fun p => (p.queueDepth : ℤ)) = (mb.pendingEvents none).length ∧
    (mb.summary.elim 0 fun p => (p.pendingReplyCount : ℤ)) =
      pendingReplies (mb.pendingEvents none) ∧
    mb.summary.bind MailboxRecord.activeInboundEventId = activeInboundEventId mb.lease ∧
    CoversAll (mb.summary.bind MailboxRecord.lastInboundStartedAt)
      (mb.summary.bind MailboxRecord.lastInboundFinishedAt) mb.latestEvents := by
  rcases h with ⟨hs, he, hl⟩ | ⟨r, hs, hr⟩
  · have hlatest : mb.latestEvents = [] := by rw [latestEvents, he, latest_nil]
    simp [hs, hl, pendingEvents, hlatest, pendingReplies, activeInboundEventId, CoversAll]
  · simp [hs, hr.queueDepth, hr.pendingReplyCount, hr.active, hr.activity]

/-! ### Every operation keeps the record current -/

theorem current_enqueue {mb : Mailbox} (clock : Timestamp) (e : NewEvent)
    (updatedAt : Option Timestamp) (h : Summarized mb)
    (fresh : e.inboundEventId ∉ mb.events.map InboundEventRecord.inboundEventId) :
    Current (mb.enqueue clock e updatedAt) := by
  have hpending : (mb.append e.record).pendingEvents none = mb.pendingEvents none ++ [e.record] :=
    pendingEvents_append_fresh rfl fresh
  obtain ⟨hq, hp, ha, hc⟩ := h.prior
  rw [enqueue, applyIncrementalSummaryUpdate, saveSummaryRecord_loaded]
  refine ⟨_, rfl, Tracks.congr (tracks_build ?_ ?_ ?_ rfl ?_ _) rfl rfl⟩
  · rw [hpending]
    simp only [summary_append, hq, List.length_append, List.length_singleton]
    omega
  · rw [hpending]
    simp only [summary_append, hp]
    simp only [pendingReplies, List.countP_append, List.countP_singleton,
      NewEvent.record_eventType, beq_iff_eq]
    split_ifs <;> omega
  · simpa using ha
  · intro x hx
    rcases mem_latestEvents_append.mp hx with rfl | ⟨hx, _⟩
    · exact ⟨covers_none _, covers_none _⟩
    · exact hc x hx

/-- Overwriting a pending event in place keeps both counters. -/
theorem counters_append_pending {mb : Mailbox} {current r : InboundEventRecord}
    (hmem : current ∈ mb.latestEvents) (ht : current.status.terminal = false)
    (hr : r.status.terminal = false) (hid : r.inboundEventId = current.inboundEventId)
    (htype : r.eventType = current.eventType) :
    ((mb.append r).pendingEvents none).length = (mb.pendingEvents none).length ∧
      pendingReplies ((mb.append r).pendingEvents none) =
        pendingReplies (mb.pendingEvents none) := by
  have honly : ∀ x ∈ mb.latestEvents, x.inboundEventId = r.inboundEventId → x = current :=
    fun x hx hk => eq_of_mem_latestEvents hx hmem (hk.trans hid)
  have hslot : r.inboundEventId ∈
      (mb.pendingEvents none).map InboundEventRecord.inboundEventId :=
    hid ▸ List.mem_map_of_mem (mem_pendingEvents.mpr ⟨hmem, ht⟩)
  rw [pendingEvents_append_pending hr fun x hx hk => honly x hx hk ▸ ht]
  refine ⟨length_upsert_of_mem hslot, countP_upsert hslot fun x hx hk => ?_⟩
  rw [honly x (mem_pendingEvents.mp hx).1 hk, htype]

/-- Ending a pending event lowers both counters by that event. -/
theorem counters_append_terminal {mb : Mailbox} {current r : InboundEventRecord}
    (hmem : current ∈ mb.latestEvents) (ht : current.status.terminal = false)
    (hr : r.status.terminal = true) (hid : r.inboundEventId = current.inboundEventId) :
    ((mb.append r).pendingEvents none).length + 1 = (mb.pendingEvents none).length ∧
      pendingReplies ((mb.append r).pendingEvents none) +
          (if current.eventType = .taskReply then 1 else 0) =
        pendingReplies (mb.pendingEvents none) := by
  have hpend : current ∈ mb.pendingEvents none := mem_pendingEvents.mpr ⟨hmem, ht⟩
  rw [pendingEvents_append_terminal hr, hid]
  constructor
  · simpa using countP_filter_key_ne (p := fun _ => true) mb.nodup_pendingEvents hpend
  · simpa [pendingReplies] using
      countP_filter_key_ne (p := fun event => event.eventType == .taskReply)
        mb.nodup_pendingEvents hpend

theorem current_claimCurrent {mb : Mailbox} {current : InboundEventRecord} (t : Timestamp)
    (h : Summarized mb) (hhead : mb.headPendingEvent = some current) :
    Current (mb.claimCurrent current t).1 := by
  obtain ⟨hmem, ht⟩ := headPendingEvent_mem hhead
  rw [claimCurrent]
  dsimp only
  set updated := deliveryRecord current t with hu
  set leased : Mailbox := { mb.append updated with
    lease := some ((mb.append updated).deliveryLease current.inboundEventId t) } with hleased
  unfold refreshClaimed
  rcases h with ⟨hs, _⟩ | ⟨prior, hs, hr⟩
  · have hs' : leased.summary = none := hs
    rw [hs']
    exact current_rebuild _ _
  · have hs' : leased.summary = some prior := hs
    obtain ⟨hlen, hreplies⟩ :=
      counters_append_pending hmem ht (r := updated) rfl rfl rfl
    rw [hs']
    dsimp only
    split_ifs
    · exact current_rebuild _ _
    · refine current_applyTransition (tracks_build ?_ ?_ ?_ ?_ ?_ _)
      · exact hr.queueDepth.trans hlen.symm
      · exact hr.pendingReplyCount.trans hreplies.symm
      · simp [hleased, hu, deliveryRecord, deliveryLease, activeInboundEventId]
      · have hnew : leased.headPendingEvent = some updated :=
          headPendingEvent_append_self hhead rfl rfl
        simp [hnew]
      · intro e he
        dsimp only
        rcases mem_latestEvents_append.mp he with rfl | ⟨he, _⟩
        · exact ⟨covers_latestTimestamp _ _, covers_none _⟩
        · exact ⟨(hr.activity e he).1.latestTimestamp _, (hr.activity e he).2⟩

theorem current_claim {mb : Mailbox} (clock : Timestamp) (id : InboundEventId)
    (startedAt : Option Timestamp) (h : Summarized mb) :
    Current (mb.claim clock id startedAt).1 := by
  rcases claim_cases mb clock id startedAt with ⟨hrefresh, _⟩ |
    ⟨current, hhead, rfl, _, _, hclaim⟩
  · rw [hrefresh]
    exact current_rebuild _ _
  · rw [hclaim]
    exact current_claimCurrent _ h hhead

/-- The fast path of a terminated event is right whichever way its head was found. -/
theorem tracks_terminalUpdate {mb : Mailbox} {prior : MailboxRecord}
    {current : InboundEventRecord} {status : InboundEventStatus} (t : Timestamp)
    (hr : Tracks mb prior) (hmem : current ∈ mb.latestEvents)
    (ht : current.status.terminal = false) (ends : status.terminal = true)
    {released : Mailbox}
    (hreleased : released = (mb.append { current with
      status := status, finishedAt := some t }).releaseMatchingLease current.inboundEventId)
    {head : SummaryHead} (hhead : head = summaryHeadFromEvent released.headPendingEvent)
    (p : Option MailboxRecord) :
    Tracks released (released.buildMailboxSummaryRecord p released.lease
      (terminalUpdate prior current t head)) := by
  set r := { current with status := status, finishedAt := some t } with hrec
  have hlatest : released.latestEvents = (mb.append r).latestEvents := by
    rw [hreleased, latestEvents, events_releaseMatchingLease, latestEvents]
  have hpending : released.pendingEvents none = (mb.append r).pendingEvents none := by
    rw [pendingEvents, hlatest, pendingEvents]
  obtain ⟨hlen, hreplies⟩ := counters_append_terminal hmem ht (r := r) ends rfl
  refine tracks_build ?_ ?_ ?_ ?_ ?_ _
  · have := hr.queueDepth
    simp only [terminalUpdate, hpending]
    omega
  · have := hr.pendingReplyCount
    simp only [terminalUpdate, hpending]
    omega
  · rw [hreleased, active_releaseMatchingLease, lease_append, ← hr.active]
    rfl
  · simp [terminalUpdate, hhead]
  · intro e he
    rw [hlatest, mem_latestEvents_append] at he
    rcases he with rfl | ⟨he, _⟩
    · exact ⟨(hr.activity current hmem).1, covers_latestTimestamp _ (some t)⟩
    · exact ⟨(hr.activity e he).1, (hr.activity e he).2.latestTimestamp (some t)⟩

/-- When the terminated event was not the head, the head the prior record holds stays. -/
theorem head_of_other_terminated {mb : Mailbox} {prior : MailboxRecord}
    {current r : InboundEventRecord} (hr : Tracks mb prior) (hmem : current ∈ mb.latestEvents)
    (ht : current.status.terminal = false) (hid : r.inboundEventId = current.inboundEventId)
    (ends : r.status.terminal = true)
    (hne : prior.headInboundEventId ≠ some current.inboundEventId) :
    prior.toSummaryHead = summaryHeadFromEvent (mb.append r).headPendingEvent := by
  have hpend : current ∈ mb.pendingEvents none := mem_pendingEvents.mpr ⟨hmem, ht⟩
  obtain ⟨head, hhead⟩ : ∃ head, mb.headPendingEvent = some head := by
    obtain ⟨x, xs, hx⟩ := List.exists_cons_of_ne_nil (List.ne_nil_of_mem hpend)
    exact ⟨x, by simp [headPendingEvent, hx]⟩
  have hprior := hr.head
  rw [hhead] at hprior
  have hid' : head.inboundEventId ≠ r.inboundEventId := by
    intro he
    apply hne
    rw [hprior]
    simp [summaryHeadFromEvent, he, hid]
  rw [hprior, headPendingEvent_append_of_ne hhead hid' (by simp [ends])]

theorem current_markTerminal {mb : Mailbox} (clock : Timestamp) (id : InboundEventId)
    (status : InboundEventStatus) (finishedAt : Option Timestamp) (h : Summarized mb)
    (ends : status.terminal = true) :
    Current (mb.markTerminal clock id status finishedAt).1 := by
  rcases markTerminal_cases mb clock id status finishedAt with ⟨hrefresh, _⟩ |
    ⟨current, hmem, rfl, ht, hmark⟩
  · rw [hrefresh]
    exact current_rebuild _ _
  rw [hmark]
  dsimp only
  set t := finishedAt.getD clock
  set r := { current with status := status, finishedAt := some t } with hrec
  set released := (mb.append r).releaseMatchingLease current.inboundEventId with hreleased
  have hsummary : released.summary = mb.summary := by simp [hreleased]
  have hpending : released.pendingEvents none = (mb.append r).pendingEvents none := by
    rw [pendingEvents, latestEvents, hreleased, events_releaseMatchingLease]
    rfl
  unfold refreshTerminal
  rcases h with ⟨hs, _⟩ | ⟨prior, hs, hr⟩
  · rw [hsummary, hs]
    exact current_rebuild _ _
  have hupdate : ∀ head, head = summaryHeadFromEvent released.headPendingEvent →
      Current (released.applyTransitionSummaryUpdate (terminalUpdate prior current t head)) :=
    fun head hhead =>
      current_applyTransition (tracks_terminalUpdate t hr hmem ht ends hreleased hhead _)
  obtain ⟨hlen, _⟩ := counters_append_terminal hmem ht (r := r) ends rfl
  rw [hsummary, hs]
  dsimp only
  split_ifs with _ hheadId hzero hone
  · exact current_rebuild _ _
  · -- depth one: nothing is left pending
    have hnil : released.pendingEvents none = [] := by
      have := hr.queueDepth
      rw [hpending]
      exact List.eq_nil_of_length_eq_zero (by omega)
    exact hupdate _ (by simp [headPendingEvent, hnil])
  · exact hupdate _ rfl
  · split
    · exact current_rebuild _ _
    · rename_i nextHead hnext
      exact hupdate _ (by rw [hnext])
  · refine hupdate _ ?_
    rw [headPendingEvent, hpending]
    exact head_of_other_terminated hr hmem ht rfl ends hheadId

theorem head_of_headId {mb : Mailbox} {prior : MailboxRecord} {current : InboundEventRecord}
    (hr : Tracks mb prior) (hmem : current ∈ mb.latestEvents)
    (hid : prior.headInboundEventId = some current.inboundEventId) :
    mb.headPendingEvent = some current := by
  have hprior := hr.head
  rcases hhead : mb.headPendingEvent with _ | head
  · rw [hprior, hhead] at hid
    contradiction
  · rw [hprior, hhead] at hid
    rw [eq_of_mem_latestEvents (headPendingEvent_mem hhead).1 hmem (Option.some.inj hid)]

theorem current_rewriteHead {mb : Mailbox} (clock : Timestamp) (id : InboundEventId)
    (payloadRef : Option PayloadRef) (updatedAt : Option Timestamp) (clearProgress : Bool)
    (h : Summarized mb) :
    Current (mb.rewriteHead clock id payloadRef .queued updatedAt clearProgress).1 := by
  rcases rewriteHead_cases mb clock id payloadRef .queued updatedAt clearProgress with
    ⟨hrefresh, _⟩ | ⟨current, hmem, rfl, ht, hrewrite⟩
  · rw [hrefresh]
    exact current_rebuild _ _
  rw [hrewrite]
  dsimp only
  set r := rewriteRecord current payloadRef .queued clearProgress with hrec
  set released := (mb.append r).releaseMatchingLease current.inboundEventId with hreleased
  have hsummary : released.summary = mb.summary := by simp [hreleased]
  have hlatest : released.latestEvents = (mb.append r).latestEvents := by
    rw [latestEvents, hreleased, events_releaseMatchingLease]
    rfl
  have hpending : released.pendingEvents none = (mb.append r).pendingEvents none := by
    rw [pendingEvents, hlatest, pendingEvents]
  unfold refreshRewritten
  rcases h with ⟨hs, _⟩ | ⟨prior, hs, hr⟩
  · rw [hsummary, hs]
    exact current_rebuild _ _
  obtain ⟨hlen, hreplies⟩ := counters_append_pending hmem ht (r := r) rfl rfl rfl
  rw [hsummary, hs]
  dsimp only
  split_ifs with hslow
  · exact current_rebuild _ _
  rw [not_or, not_not] at hslow
  refine current_applyTransition (tracks_build ?_ ?_ ?_ ?_ ?_ _)
  · exact hr.queueDepth.trans (hlen.symm.trans (by rw [hpending]))
  · exact hr.pendingReplyCount.trans (hreplies.symm.trans (by rw [hpending]))
  · rw [hreleased, active_releaseMatchingLease, lease_append, ← hr.active]
    rfl
  · -- the prior head is the rewritten event, so the new row is the head
    have hnew : released.headPendingEvent = some r := by
      rw [headPendingEvent, hpending]
      exact headPendingEvent_append_self (head_of_headId hr hmem hslow.1) rfl rfl
    simp [rewriteUpdate, hnew]
  · intro e he
    rw [hlatest, mem_latestEvents_append] at he
    rcases he with rfl | ⟨he, _⟩
    · obtain ⟨hstart, hfinish⟩ := hr.activity current hmem
      cases clearProgress
      · exact ⟨hstart, hfinish⟩
      · exact ⟨covers_none _, covers_none _⟩
    · exact hr.activity e he

/-! ### Runs -/

theorem current_step {mb mb' : Mailbox} (h : Step mb mb') (hs : Summarized mb) : Current mb' :=
  h.establishes (P := Summarized) (fun _ => Or.inr)
    (fun _ clock e updatedAt => current_enqueue clock e updatedAt)
    (fun _ clock id startedAt => current_claim clock id startedAt)
    (fun _ clock id status finishedAt => current_markTerminal clock id status finishedAt)
    (fun _ clock id p updatedAt clear => current_rewriteHead clock id p updatedAt clear)
    (fun _ t _ => current_rebuild _ t) hs

/-- After every operation of every run the stored summary is the projection of
the event log and the lease. -/
theorem stored_summary_agrees_with_projection (a : AgentName) {mb : Mailbox}
    (run : Relation.TransGen Step (Mailbox.empty a) mb) :
    ∃ stored, mb.summary = some stored ∧
      ∀ updatedAt, Agrees stored (mb.projectMailboxSummary updatedAt mb.summary) := by
  have hcurrent : Current mb := by
    induction run with
    | single step => exact current_step step (.inl ⟨rfl, rfl, rfl⟩)
    | tail _ step ih => exact current_step step (.inr ih)
  obtain ⟨stored, hs, htracks⟩ := hcurrent
  exact ⟨stored, hs, fun updatedAt => hs ▸ agrees_of_tracks htracks updatedAt⟩

/-- The delivered request is consumed; the reply behind it becomes the head. -/
def consumedSample : Mailbox := (deliveringSample.consume sampleTime 4 none).1

theorem stored_summary_agrees_consumedSample :
    (consumedSample.summary.map fun r => (r.queueDepth, r.headInboundEventId, r.mailboxState)) =
        some (1, some 5, .blocked) ∧
      ∃ stored, consumedSample.summary = some stored ∧
        ∀ updatedAt, Agrees stored
          (consumedSample.projectMailboxSummary updatedAt consumedSample.summary) :=
  ⟨by decide, stored_summary_agrees_with_projection "agent1"
    (.tail' deliveringSample_reachable (.markTerminal sampleTime 4 .consumed none rfl))⟩

end CodexBridge.Mailbox
