import CodexBridge.Mailbox.Delivery

/-! The latest row of one event under each transition. A transition that is not an
enqueue changes the latest row of at most one event, and never brings an event
that was not there. -/

namespace CodexBridge.Mailbox

open AppendLog

variable {mb mb' : Mailbox} {e : InboundEventRecord}

theorem getLatest_id {i : InboundEventId} (h : mb.getLatest i = some e) : e.inboundEventId = i :=
  (getLatest_eq_some.mp h).2

theorem getLatest_mem {i : InboundEventId} (h : mb.getLatest i = some e) : e ∈ mb.events :=
  mem_of_mem_latest (getLatest_eq_some.mp h).1

theorem exists_getLatest (h : e ∈ mb.events) : ∃ e', mb.getLatest e.inboundEventId = some e' := by
  rcases hl : mb.getLatest e.inboundEventId with _ | e'
  · exact absurd (List.mem_map_of_mem h) (getLatest_eq_none.mp hl)
  · exact ⟨e', rfl⟩

/-- One more row of a pending event. -/
theorem getLatest_of_row {r current : InboundEventRecord} (hev : mb'.events = mb.events ++ [r])
    (hmem : current ∈ mb.latestEvents) (hid : r.inboundEventId = current.inboundEventId)
    (i : InboundEventId) :
    mb'.getLatest i =
      (mb.getLatest i).map fun e => if e.inboundEventId = current.inboundEventId then r else e := by
  rw [getLatest_of_append hev, hid]
  split_ifs with h
  · rw [getLatest_eq_some.mpr ⟨hmem, h⟩]
    simp
  · rcases hl : mb.getLatest i with _ | e
    · rfl
    · have hne : e.inboundEventId ≠ current.inboundEventId := by
        rw [getLatest_id hl]
        exact fun he => h he.symm
      simp [hne]

theorem getLatest_enqueue (clock : Timestamp) (n : NewEvent) (updatedAt : Option Timestamp)
    (i : InboundEventId) : (mb.enqueue clock n updatedAt).getLatest i =
      if n.inboundEventId = i then some n.record else mb.getLatest i :=
  getLatest_of_append (events_enqueue _ _ _ _) i

theorem getLatest_rebuild (t : Timestamp) (i : InboundEventId) :
    (mb.rebuildMailboxSummary t).getLatest i = mb.getLatest i :=
  getLatest_congr (events_rebuild _ _) i

/-- The row a transition to a terminal status leaves behind. -/
def endedRow (id : InboundEventId) (status : InboundEventStatus) (finishedAt : Timestamp)
    (e : InboundEventRecord) : InboundEventRecord :=
  if e.inboundEventId = id ∧ e.status.terminal = false then
    { e with status := status, finishedAt := some finishedAt }
  else e

theorem getLatest_markTerminal (clock : Timestamp) (id : InboundEventId)
    (status : InboundEventStatus) (finishedAt : Option Timestamp) (i : InboundEventId) :
    (mb.markTerminal clock id status finishedAt).1.getLatest i =
      (mb.getLatest i).map (endedRow id status (finishedAt.getD clock)) := by
  rcases markTerminal_cases mb clock id status finishedAt with ⟨hm, hended⟩ |
    ⟨current, hmem, rfl, hlive, hm⟩
  · rw [hm, getLatest_rebuild]
    rcases hl : mb.getLatest i with _ | e
    · rfl
    · have hnot : ¬(e.inboundEventId = id ∧ e.status.terminal = false) := by
        rintro ⟨hid, hlive⟩
        rw [hended e (getLatest_eq_some.mp hl).1 hid] at hlive
        contradiction
      simp [endedRow, hnot]
  · have hev : (mb.markTerminal clock current.inboundEventId status finishedAt).1.events =
        mb.events ++ [{ current with
          status := status, finishedAt := some (finishedAt.getD clock) }] := by
      rw [hm]
      simp
    rw [getLatest_of_row hev hmem rfl i]
    rcases hl : mb.getLatest i with _ | e
    · rfl
    · by_cases hid : e.inboundEventId = current.inboundEventId
      · have heq := eq_of_mem_latestEvents (getLatest_eq_some.mp hl).1 hmem hid
        subst heq
        simp [endedRow, hlive]
      · simp [endedRow, hid]

/-- The row a rewrite leaves behind. -/
def rewrittenRow (id : InboundEventId) (payloadRef : Option PayloadRef)
    (status : InboundEventStatus) (clearProgress : Bool) (e : InboundEventRecord) :
    InboundEventRecord :=
  if e.inboundEventId = id ∧ e.status.terminal = false then
    rewriteRecord e payloadRef status clearProgress
  else e

theorem getLatest_rewriteHead (clock : Timestamp) (id : InboundEventId)
    (payloadRef : Option PayloadRef) (status : InboundEventStatus) (updatedAt : Option Timestamp)
    (clearProgress : Bool) (i : InboundEventId) :
    (mb.rewriteHead clock id payloadRef status updatedAt clearProgress).1.getLatest i =
      (mb.getLatest i).map (rewrittenRow id payloadRef status clearProgress) := by
  rcases rewriteHead_cases mb clock id payloadRef status updatedAt clearProgress with
    ⟨hw, hended⟩ | ⟨current, hmem, rfl, hlive, hw⟩
  · rw [hw, getLatest_rebuild]
    rcases hl : mb.getLatest i with _ | e
    · rfl
    · have hnot : ¬(e.inboundEventId = id ∧ e.status.terminal = false) := by
        rintro ⟨hid, hlive⟩
        rw [hended e (getLatest_eq_some.mp hl).1 hid] at hlive
        contradiction
      simp [rewrittenRow, hnot]
  · have hev : (mb.rewriteHead clock current.inboundEventId payloadRef status updatedAt
        clearProgress).1.events =
        mb.events ++ [rewriteRecord current payloadRef status clearProgress] := by
      rw [hw]
      simp
    rw [getLatest_of_row hev hmem rfl i]
    rcases hl : mb.getLatest i with _ | e
    · rfl
    · by_cases hid : e.inboundEventId = current.inboundEventId
      · have heq := eq_of_mem_latestEvents (getLatest_eq_some.mp hl).1 hmem hid
        subst heq
        simp [rewrittenRow, hlive]
      · simp [rewrittenRow, hid]

/-! ### Claims -/

/-- Nothing has happened but that the head may have come under delivery. -/
structure ClaimsHead (mb mb' : Mailbox) : Prop where
  kept : ∀ i e, mb.getLatest i = some e → ∃ e', mb'.getLatest i = some e' ∧
    (e' = e ∨ mb.headPendingEvent = some e ∧ e'.status = .delivering ∧
      e'.payloadRef = e.payloadRef)
  source : ∀ i, mb.getLatest i = none → mb'.getLatest i = none
  head : ∀ e', mb'.headPendingEvent = some e' → ∃ e, mb.headPendingEvent = some e ∧
    e.inboundEventId = e'.inboundEventId

theorem ClaimsHead.congr (h : mb'.events = mb.events) : ClaimsHead mb mb' := by
  refine ⟨fun i e he => ⟨e, ?_, .inl rfl⟩, fun i hi => ?_, fun e' he' => ⟨e', ?_, rfl⟩⟩
  · rw [getLatest_congr h, he]
  · rw [getLatest_congr h, hi]
  · rw [← headPendingEvent_congr h, he']

theorem ClaimsHead.claim (mb : Mailbox) (clock : Timestamp) (id : InboundEventId)
    (startedAt : Option Timestamp) : ClaimsHead mb (mb.claim clock id startedAt).1 := by
  rcases claim_cases mb clock id startedAt with ⟨hc, -⟩ | ⟨head, hhead, rfl, -, -, hc⟩
  · rw [hc]
    exact .congr (events_rebuild _ _)
  · have hlatest : ∀ i, (mb.claim clock head.inboundEventId startedAt).1.getLatest i =
        (mb.getLatest i).map fun e => if e.inboundEventId = head.inboundEventId then
          deliveryRecord head (startedAt.getD clock) else e := by
      intro i
      rw [hc]
      exact getLatest_of_row (events_claimCurrent _ _ _) (headPendingEvent_mem hhead).1 rfl i
    refine ⟨fun i e he => ?_, fun i hi => ?_, fun e' he' => ⟨head, hhead, ?_⟩⟩
    · rw [hlatest, he, Option.map_some]
      refine ⟨_, rfl, ?_⟩
      split_ifs with hid
      · have heq := eq_of_mem_latestEvents (getLatest_eq_some.mp he).1
          (headPendingEvent_mem hhead).1 hid
        subst heq
        exact .inr ⟨hhead, rfl, rfl⟩
      · exact .inl rfl
    · rw [hlatest, hi]
      rfl
    · rcases headPendingEvent_claim clock head.inboundEventId startedAt hhead with h | h
      · rw [← Option.some.inj (h.symm.trans he')]
      · rw [← Option.some.inj (h.symm.trans he')]
        rfl

theorem ClaimsHead.trans {mb₁ mb₂ : Mailbox} (h : ClaimsHead mb mb₁) (h' : ClaimsHead mb₁ mb₂) :
    ClaimsHead mb mb₂ := by
  refine ⟨fun i e he => ?_, fun i hi => h'.source i (h.source i hi), fun e₂ he₂ => ?_⟩
  · obtain ⟨e₁, he₁, hrow⟩ := h.kept i e he
    obtain ⟨e₂, he₂, hrow'⟩ := h'.kept i e₁ he₁
    refine ⟨e₂, he₂, ?_⟩
    rcases hrow with rfl | ⟨hhead, hs, hp⟩
    · rcases hrow' with rfl | ⟨hhead', hs', hp'⟩
      · exact .inl rfl
      · -- the head is the same event as before
        obtain ⟨head, hhead, hid⟩ := h.head e₁ hhead'
        have heq := eq_of_mem_latestEvents (headPendingEvent_mem hhead).1
          (getLatest_eq_some.mp he).1 hid
        exact .inr ⟨heq ▸ hhead, hs', hp'⟩
    · rcases hrow' with rfl | ⟨-, hs', hp'⟩
      · exact .inr ⟨hhead, hs, hp⟩
      · exact .inr ⟨hhead, hs', hp'.trans hp⟩
  · obtain ⟨e₁, he₁, hid₁⟩ := h'.head e₂ he₂
    obtain ⟨e, he, hid⟩ := h.head e₁ he₁
    exact ⟨e, he, hid.trans hid₁⟩

end CodexBridge.Mailbox
