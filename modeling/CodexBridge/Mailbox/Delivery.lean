import CodexBridge.Mailbox.Transitions

/-! At most one event of a mailbox is being delivered, it is the head of the
pending events, and the lease names it. -/

namespace CodexBridge.Mailbox

open AppendLog

/-- The lease and the log tell the same story about delivery. -/
structure SingleDelivery (mb : Mailbox) : Prop where
  delivering : ∀ e ∈ mb.latestEvents, e.status = .delivering →
    mb.headPendingEvent = some e ∧ activeInboundEventId mb.lease = some e.inboundEventId
  leased : ∀ i, activeInboundEventId mb.lease = some i →
    ∃ e ∈ mb.latestEvents, e.inboundEventId = i ∧ e.status = .delivering

theorem singleDelivery_congr {mb mb' : Mailbox} (he : mb'.events = mb.events)
    (hl : mb'.lease = mb.lease) (h : SingleDelivery mb) : SingleDelivery mb' := by
  constructor
  · rw [latestEvents_congr he, headPendingEvent_congr he, hl]
    exact h.delivering
  · rw [latestEvents_congr he, hl]
    exact h.leased

/-- Rows of other events leave a head in place. -/
theorem headPendingEvent_append_of_ne {mb : Mailbox} {e r : InboundEventRecord}
    (he : mb.headPendingEvent = some e) (hne : e.inboundEventId ≠ r.inboundEventId)
    (hold : r.status.terminal = false → ∀ x ∈ mb.latestEvents,
      x.inboundEventId = r.inboundEventId → x.status.terminal = false) :
    (mb.append r).headPendingEvent = some e := by
  rw [headPendingEvent] at he
  by_cases hr : r.status.terminal = true
  · rw [headPendingEvent, pendingEvents_append_terminal hr]
    obtain ⟨tail, htail⟩ := List.head?_eq_some_iff.mp he
    simp [htail, hne]
  · have hr' : r.status.terminal = false := by simpa using hr
    rw [headPendingEvent, pendingEvents_append_pending hr' (hold hr'), head?_upsert, he]
    simp [hne]

/-- A row over the head becomes the head. -/
theorem headPendingEvent_append_self {mb : Mailbox} {e r : InboundEventRecord}
    (he : mb.headPendingEvent = some e) (hid : e.inboundEventId = r.inboundEventId)
    (hr : r.status.terminal = false) : (mb.append r).headPendingEvent = some r := by
  have hold : ∀ x ∈ mb.latestEvents, x.inboundEventId = r.inboundEventId →
      x.status.terminal = false := by
    intro x hx hk
    obtain ⟨hmem, ht⟩ := headPendingEvent_mem he
    rw [eq_of_mem_latestEvents hx hmem (hk.trans hid.symm)]
    exact ht
  rw [headPendingEvent] at he
  rw [headPendingEvent, pendingEvents_append_pending hr hold, head?_upsert, he]
  simp [hid]

/-- A row that is not delivering, followed by the release of its own lease. -/
theorem singleDelivery_append_release {mb : Mailbox} {r : InboundEventRecord}
    (h : SingleDelivery mb) (hr : r.status ≠ .delivering)
    (hold : r.status.terminal = false → ∀ x ∈ mb.latestEvents,
      x.inboundEventId = r.inboundEventId → x.status.terminal = false) :
    SingleDelivery ((mb.append r).releaseMatchingLease r.inboundEventId) := by
  have hlatest := latestEvents_congr ((mb.append r).events_releaseMatchingLease r.inboundEventId)
  have hhead := headPendingEvent_congr
    ((mb.append r).events_releaseMatchingLease r.inboundEventId)
  constructor
  · intro e he hs
    rw [hlatest, mem_latestEvents_append] at he
    rcases he with rfl | ⟨he, hne⟩
    · exact absurd hs hr
    · obtain ⟨hh, hl⟩ := h.delivering e he hs
      exact ⟨hhead ▸ headPendingEvent_append_of_ne hh hne hold,
        active_releaseMatchingLease_eq_some.mpr ⟨hl, hne⟩⟩
  · intro i hi
    obtain ⟨hl, hne⟩ := active_releaseMatchingLease_eq_some.mp hi
    obtain ⟨e, he, rfl, hs⟩ := h.leased i hl
    exact ⟨e, by rw [hlatest, mem_latestEvents_append]; exact .inr ⟨he, hne⟩, rfl, hs⟩

theorem singleDelivery_enqueue {mb : Mailbox} (clock : Timestamp) (e : NewEvent)
    (updatedAt : Option Timestamp) (h : SingleDelivery mb)
    (fresh : e.inboundEventId ∉ mb.events.map InboundEventRecord.inboundEventId) :
    SingleDelivery (mb.enqueue clock e updatedAt) := by
  have hfresh : ∀ x ∈ mb.latestEvents, x.inboundEventId ≠ e.record.inboundEventId := by
    intro x hx hk
    change x.inboundEventId = e.inboundEventId at hk
    exact fresh (hk ▸ List.mem_map_of_mem (mem_of_mem_latest hx))
  suffices SingleDelivery (mb.append e.record) from singleDelivery_congr (by simp) (by simp) this
  constructor
  · intro x hx hs
    rcases mem_latestEvents_append.mp hx with rfl | ⟨hx, hne⟩
    · contradiction
    · obtain ⟨hh, hl⟩ := h.delivering x hx hs
      exact ⟨headPendingEvent_append_of_ne hh hne fun _ y hy hk => absurd hk (hfresh y hy), hl⟩
  · intro i hi
    obtain ⟨x, hx, hid, hs⟩ := h.leased i hi
    exact ⟨x, mem_latestEvents_append.mpr (.inr ⟨hx, hfresh x hx⟩), hid, hs⟩

theorem singleDelivery_claim {mb : Mailbox} (clock : Timestamp) (id : InboundEventId)
    (startedAt : Option Timestamp) (h : SingleDelivery mb) :
    SingleDelivery (mb.claim clock id startedAt).1 := by
  rcases claim_cases mb clock id startedAt with ⟨hrefresh, _⟩ |
    ⟨current, hhead, rfl, hs, hlease, hclaim⟩
  · exact singleDelivery_congr (by simp [hrefresh]) (by simp [hrefresh]) h
  · -- any other delivering event would have been the head already
    rw [hclaim]
    set r := deliveryRecord current (startedAt.getD clock) with hr
    have hlatest : (mb.claimCurrent current (startedAt.getD clock)).1.latestEvents =
        (mb.append r).latestEvents := by simp [latestEvents, hr]
    have hactive := lease_claimCurrent mb current (startedAt.getD clock)
    have hmem : r ∈ (mb.append r).latestEvents := mem_latestEvents_append.mpr (.inl rfl)
    constructor
    · intro e he hds
      rw [hlatest, mem_latestEvents_append] at he
      rcases he with rfl | ⟨he, hne⟩
      · refine ⟨?_, hactive⟩
        rw [headPendingEvent, pendingEvents, hlatest]
        exact headPendingEvent_append_self hhead rfl rfl
      · obtain ⟨hh, _⟩ := h.delivering e he hds
        obtain rfl := Option.some.inj (hh.symm.trans hhead)
        exact absurd rfl hne
    · intro i hi
      rw [hactive] at hi
      exact ⟨r, hlatest ▸ hmem, Option.some.inj hi, rfl⟩

/-- A claim leaves the same event at the head. -/
theorem headPendingEvent_claim {mb : Mailbox} (clock : Timestamp) (id : InboundEventId)
    (startedAt : Option Timestamp) {e : InboundEventRecord} (h : mb.headPendingEvent = some e) :
    (mb.claim clock id startedAt).1.headPendingEvent = some e ∨
      (mb.claim clock id startedAt).1.headPendingEvent =
        some (deliveryRecord e (startedAt.getD clock)) := by
  rcases claim_cases mb clock id startedAt with ⟨hrefresh, -⟩ | ⟨current, hhead, -, -, -, hclaim⟩
  · rw [hrefresh, headPendingEvent_congr (events_rebuild _ _)]
    exact .inl h
  · obtain rfl := Option.some.inj (h.symm.trans hhead)
    have hself : (mb.append (deliveryRecord e (startedAt.getD clock))).headPendingEvent = _ :=
      headPendingEvent_append_self h rfl rfl
    rw [hclaim, ← hself]
    exact .inr (headPendingEvent_congr (events_claimCurrent _ _ _))

theorem singleDelivery_markTerminal {mb : Mailbox} (clock : Timestamp) (id : InboundEventId)
    (status : InboundEventStatus) (finishedAt : Option Timestamp) (h : SingleDelivery mb)
    (ends : status.terminal = true) :
    SingleDelivery (mb.markTerminal clock id status finishedAt).1 := by
  rcases markTerminal_cases mb clock id status finishedAt with ⟨hrefresh, _⟩ |
    ⟨current, hmem, rfl, ht, hmark⟩
  · exact singleDelivery_congr (by simp [hrefresh]) (by simp [hrefresh]) h
  · rw [hmark]
    refine singleDelivery_congr (by simp) (by simp)
      (singleDelivery_append_release h (r := { current with
        status := status, finishedAt := some (finishedAt.getD clock) }) ?_ ?_)
    · rintro rfl
      contradiction
    · simp [ends]

theorem singleDelivery_rewriteHead {mb : Mailbox} (clock : Timestamp) (id : InboundEventId)
    (payloadRef : Option PayloadRef) (updatedAt : Option Timestamp) (clearProgress : Bool)
    (h : SingleDelivery mb) :
    SingleDelivery (mb.rewriteHead clock id payloadRef .queued updatedAt clearProgress).1 := by
  rcases rewriteHead_cases mb clock id payloadRef .queued updatedAt clearProgress with
    ⟨hrefresh, _⟩ | ⟨current, hmem, rfl, ht, hrewrite⟩
  · exact singleDelivery_congr (by simp [hrefresh]) (by simp [hrefresh]) h
  · rw [hrewrite]
    refine singleDelivery_congr (by simp) (by simp)
      (singleDelivery_append_release h
        (r := rewriteRecord current payloadRef .queued clearProgress) ?_ ?_)
    · simp [rewriteRecord]
    · intro _ x hx hk
      rw [eq_of_mem_latestEvents hx hmem hk]
      exact ht

theorem singleDelivery_step {mb mb' : Mailbox} (h : Step mb mb') (hd : SingleDelivery mb) :
    SingleDelivery mb' :=
  h.establishes (P := SingleDelivery) (fun _ => id)
    (fun _ clock e updatedAt => singleDelivery_enqueue clock e updatedAt)
    (fun _ clock id startedAt => singleDelivery_claim clock id startedAt)
    (fun _ clock id status finishedAt => singleDelivery_markTerminal clock id status finishedAt)
    (fun _ clock id p updatedAt clear => singleDelivery_rewriteHead clock id p updatedAt clear)
    (fun _ t => singleDelivery_congr (events_rebuild _ t) (lease_rebuild _ t)) hd

theorem singleDelivery_empty (a : AgentName) : SingleDelivery (Mailbox.empty a) := by
  constructor
  · intro e he
    simp [latestEvents, Mailbox.empty] at he
  · intro i hi
    simp [activeInboundEventId, Mailbox.empty] at hi

theorem singleDelivery_run {mb mb' : Mailbox} (h : Run mb mb') (hd : SingleDelivery mb) :
    SingleDelivery mb' := by
  induction h with
  | refl => exact hd
  | tail _ step ih => exact singleDelivery_step step ih

theorem activeInboundEventId_eq_some {lease : Option DeliveryLease} {i : InboundEventId} :
    activeInboundEventId lease = some i ↔
      ∃ l, lease = some l ∧ l.leaseState = .acquired ∧ l.inboundEventId = i := by
  rcases lease with _ | l
  · simp [activeInboundEventId]
  · simp [activeInboundEventId]

/-- Single delivery: the delivering event is unique, it is the first pending event,
and an acquired lease is stored exactly for it. -/
theorem single_delivery_per_mailbox (a : AgentName) {mb : Mailbox}
    (run : Relation.ReflTransGen Step (Mailbox.empty a) mb) :
    (∀ e ∈ mb.latestEvents, ∀ e' ∈ mb.latestEvents,
      e.status = .delivering → e'.status = .delivering → e = e') ∧
    (∀ e ∈ mb.latestEvents, e.status = .delivering →
      mb.headPendingEvent = some e ∧
      ∃ lease, mb.lease = some lease ∧ lease.leaseState = .acquired ∧
        lease.inboundEventId = e.inboundEventId) ∧
    (∀ lease, mb.lease = some lease → lease.leaseState = .acquired →
      ∃ e, mb.getLatest lease.inboundEventId = some e ∧ e.status = .delivering) := by
  have hd : SingleDelivery mb := singleDelivery_run run (singleDelivery_empty a)
  refine ⟨?_, ?_, ?_⟩
  · intro e he e' he' hs hs'
    exact Option.some.inj ((hd.delivering e he hs).1.symm.trans (hd.delivering e' he' hs').1)
  · intro e he hs
    exact ⟨(hd.delivering e he hs).1, activeInboundEventId_eq_some.mp (hd.delivering e he hs).2⟩
  · intro lease hl ha
    obtain ⟨e, he, hid, hs⟩ := hd.leased lease.inboundEventId
      (activeInboundEventId_eq_some.mpr ⟨lease, hl, ha, rfl⟩)
    exact ⟨e, getLatest_eq_some.mpr ⟨he, hid⟩, hs⟩

def sampleTime : Timestamp := ⟨"2026-01-01T00:00:00Z", by decide⟩

/-- A request of message `1` and attempt `2`, or a reply to it. -/
def sampleEvent (id : InboundEventId) (kind : InboundEventType) : NewEvent :=
  { inboundEventId := id
    eventType := kind
    messageId := 1
    attemptId := some 2
    payloadRef := some (.job 3)
    priority := 100
    createdAt := sampleTime }

/-- A request under delivery with a reply behind it. -/
def deliveringSample : Mailbox :=
  ((((Mailbox.empty "agent1").enqueue sampleTime (sampleEvent 4 .taskRequest) none).claim
    sampleTime 4 none).1).enqueue sampleTime (sampleEvent 5 .taskReply) none

theorem deliveringSample_reachable :
    Relation.ReflTransGen Step (Mailbox.empty "agent1") deliveringSample :=
  ((Relation.ReflTransGen.single
    (.enqueue sampleTime (sampleEvent 4 .taskRequest) none (by decide))).tail
    (.claim sampleTime 4 none)).tail
    (.enqueue sampleTime (sampleEvent 5 .taskReply) none (by decide))

theorem single_delivery_deliveringSample :
    (∃ e ∈ deliveringSample.latestEvents, e.status = .delivering) ∧
    (∀ e ∈ deliveringSample.latestEvents, e.status = .delivering →
      deliveringSample.headPendingEvent = some e) :=
  ⟨by decide, fun e he hs =>
    ((single_delivery_per_mailbox "agent1" deliveringSample_reachable).2.1 e he hs).1⟩

end CodexBridge.Mailbox
