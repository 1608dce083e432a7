import CodexBridge.Mailbox.History

/-! Events are first claimed in the order they came, and end once. A claim takes the head,
so every event that came before it has ended by then; what has ended gets no further row,
and no claim. -/

namespace CodexBridge.Mailbox

open AppendLog

variable {a : AgentName} {h : History} {c : Call} {mb : Mailbox}

/-! ### The log -/

/-- A row that ends its event is the last one. -/
def EndsOnce (log : List InboundEventRecord) : Prop :=
  log.Pairwise fun r r' => r.inboundEventId = r'.inboundEventId → r.status.terminal = false

theorem EndsOnce.getLatest (once : EndsOnce mb.events) {r : InboundEventRecord}
    (hr : r ∈ mb.events) (ht : r.status.terminal = true) :
    mb.getLatest r.inboundEventId = some r := by
  obtain ⟨e, he⟩ : ∃ e, mb.getLatest r.inboundEventId = some e := by
    cases hl : mb.getLatest r.inboundEventId with
    | none => exact absurd (List.mem_map_of_mem hr) (getLatest_eq_none.mp hl)
    | some e => exact ⟨e, rfl⟩
  have hid := (getLatest_eq_some.mp he).2
  rcases findLast_pairwise once he r hr (by simp) with heq | hlive
  · rw [he, heq]
  · rw [hlive hid.symm] at ht
    contradiction

/-- A further row of a pending event. -/
theorem EndsOnce.append (once : EndsOnce mb.events) {r : InboundEventRecord}
    (live : ∀ x ∈ mb.latestEvents, x.inboundEventId = r.inboundEventId →
      x.status.terminal = false) : EndsOnce (mb.events ++ [r]) := by
  refine List.pairwise_append.mpr ⟨once, List.pairwise_singleton _ _, ?_⟩
  rintro x hx _ hr
  obtain rfl := List.mem_singleton.mp hr
  intro hid
  by_contra ht
  have hlatest := once.getLatest hx (by simpa using ht)
  exact ht (live x (getLatest_eq_some.mp hlatest).1 hid)

/-- Of the rows of one event at most one ends it. -/
theorem EndsOnce.length_le {log : List InboundEventRecord} (once : EndsOnce log)
    (id : InboundEventId) :
    ((log.filter fun r => r.inboundEventId = id).filter fun r => r.status.terminal).length ≤ 1 := by
  have hended : ((log.filter fun r => r.inboundEventId = id).filter
      fun r => r.status.terminal).Pairwise fun _ _ => False := by
    refine ((once.filter _).filter _).imp_of_mem fun {r r'} hr hr' hlive => ?_
    obtain ⟨hr, ht⟩ := List.mem_filter.mp hr
    obtain ⟨hr', -⟩ := List.mem_filter.mp hr'
    have hid : r.inboundEventId = id := by simpa using (List.mem_filter.mp hr).2
    have hid' : r'.inboundEventId = id := by simpa using (List.mem_filter.mp hr').2
    rw [hlive (hid.trans hid'.symm)] at ht
    contradiction
  rcases hrows : (log.filter fun r => r.inboundEventId = id).filter
      fun r => r.status.terminal with _ | ⟨r, _ | ⟨r', rest⟩⟩
  · simp [hrows]
  · simp [hrows]
  · rw [hrows] at hended
    exact ((List.pairwise_cons.mp hended).1 r' (by simp)).elim

/-- What a call adds to the log: nothing, a new event, or a row of a pending one. -/
inductive Call.Adds (mb : Mailbox) (c : Call) : Prop
  | nothing (events : (c.exec mb).events = mb.events) (arrival : c.arrival = none)
  | event (r : InboundEventRecord) (events : (c.exec mb).events = mb.events ++ [r])
      (arrival : c.arrival = some r.inboundEventId)
      (fresh : r.inboundEventId ∉ mb.events.map InboundEventRecord.inboundEventId)
  | row (r current : InboundEventRecord) (events : (c.exec mb).events = mb.events ++ [r])
      (arrival : c.arrival = none) (mem : current ∈ mb.latestEvents)
      (same : r.inboundEventId = current.inboundEventId)
      (live : current.status.terminal = false)

theorem Call.adds (adm : c.admissible mb) : c.Adds mb := by
  cases c with
  | enqueue clock e updatedAt => exact .event e.record (events_enqueue mb clock e updatedAt) rfl adm
  | claim clock id startedAt =>
    rcases claim_lease_cases mb clock id startedAt with ⟨-, hc⟩ | ⟨current, hh, -, -, hc⟩
    · exact .nothing (by rw [exec, hc, events_rebuild]) rfl
    · obtain ⟨hmem, hlive⟩ := headPendingEvent_mem hh
      exact .row (deliveryRecord current _) current (by rw [exec, hc, events_claimCurrent]) rfl
        hmem rfl hlive
  | markTerminal clock id status finishedAt =>
    rcases markTerminal_cases mb clock id status finishedAt with ⟨hm, -⟩ |
      ⟨current, hmem, -, hlive, hm⟩
    · exact .nothing (by rw [exec, hm, events_rebuild]) rfl
    · exact .row { current with status := status, finishedAt := some (finishedAt.getD clock) }
        current (by simp [exec, hm]) rfl hmem rfl hlive
  | rewriteHead clock id payloadRef updatedAt clear =>
    rcases rewriteHead_cases mb clock id payloadRef .queued updatedAt clear with
      ⟨hw, -⟩ | ⟨current, hmem, -, hlive, hw⟩
    · exact .nothing (by rw [exec, hw, events_rebuild]) rfl
    · exact .row (rewriteRecord current payloadRef .queued clear) current (by simp [exec, hw]) rfl
        hmem rfl hlive
  | rebuild updatedAt => exact .nothing (events_rebuild mb updatedAt) rfl

theorem EndsOnce.call (once : EndsOnce mb.events) (adm : c.admissible mb) :
    EndsOnce (c.exec mb).events := by
  cases Call.adds adm with
  | nothing events => rwa [events]
  | event r events arrival fresh =>
    rw [events]
    refine once.append fun x hx hid => absurd ?_ fresh
    exact hid ▸ List.mem_map_of_mem (mem_of_mem_latest hx)
  | row r current events arrival mem same live =>
    rw [events]
    refine once.append fun x hx hid => ?_
    rw [eq_of_mem_latestEvents hx mem (hid.trans same)]
    exact live

/-! ### The order of claims -/

/-- The latest row of the event ends it. -/
def Ended (mb : Mailbox) (id : InboundEventId) : Prop :=
  ∃ e, mb.getLatest id = some e ∧ e.status.terminal = true

theorem Ended.call {id : InboundEventId} (ended : Ended mb id) (adm : c.admissible mb) :
    Ended (c.exec mb) id := by
  obtain ⟨e, he, ht⟩ := ended
  exact ⟨e, (Call.step adm).keeps_ended he ht, ht⟩

/-- All events before the head have ended. -/
theorem ended_of_before_head {current : InboundEventRecord}
    (hhead : mb.headPendingEvent = some current) {x : InboundEventId}
    (hbefore : (mb.latestEvents.map InboundEventRecord.inboundEventId).idxOf x <
      (mb.latestEvents.map InboundEventRecord.inboundEventId).idxOf current.inboundEventId) :
    Ended mb x := by
  rw [headPendingEvent, pendingEvents, List.head?_filter, List.find?_eq_some_iff_append] at hhead
  obtain ⟨-, before, after, hsplit, hended⟩ := hhead
  have hle : (mb.latestEvents.map InboundEventRecord.inboundEventId).idxOf
      current.inboundEventId ≤ before.length := by
    rw [hsplit, List.map_append, List.map_cons, List.idxOf_append]
    split_ifs with hmem
    · exact (List.idxOf_lt_length_of_mem hmem).le.trans_eq (List.length_map _)
    · simp
  have hmem : x ∈ before.map InboundEventRecord.inboundEventId := by
    by_contra hnot
    rw [hsplit, List.map_append, List.idxOf_append_of_notMem hnot, List.length_map] at hbefore
    rw [hsplit, List.map_append] at hle
    omega
  obtain ⟨e, he, rfl⟩ := List.mem_map.mp hmem
  refine ⟨e, getLatest_eq_some.mpr ⟨?_, rfl⟩, by simpa using hended e he⟩
  rw [hsplit]
  exact List.mem_append_left _ he

/-- The events in the order they came, and of two of them the earlier one is claimed first,
or has ended without a claim. -/
structure Ordered (h : History) : Prop where
  once : EndsOnce h.mailbox.events
  arrived : h.mailbox.latestEvents.map InboundEventRecord.inboundEventId = h.arrived
  claimed : h.claimed ⊆ h.arrived
  order : ∀ x y, h.arrived.idxOf x < h.arrived.idxOf y → y ∈ h.claimed →
    x ∈ h.claimed ∧ h.claimed.idxOf x < h.claimed.idxOf y ∨
      x ∉ h.claimed ∧ Ended h.mailbox x

/-- The events of the log after a call: those from before, and the one it brings. -/
theorem Call.Adds.ids (adds : c.Adds mb) :
    (c.exec mb).latestEvents.map InboundEventRecord.inboundEventId =
      mb.latestEvents.map InboundEventRecord.inboundEventId ++ c.arrival.toList := by
  cases adds with
  | nothing events arrival => rw [latestEvents_congr events, arrival, Option.toList_none,
      List.append_nil]
  | event r events arrival fresh =>
    have hnew : r.inboundEventId ∉ mb.latestEvents.map InboundEventRecord.inboundEventId :=
      fun hmem => fresh (mem_map_key_latest.mp hmem)
    rw [latestEvents, events, latest_append, map_key_upsert, ← latestEvents, if_neg hnew, arrival,
      Option.toList_some]
  | row r current events arrival mem same live =>
    have hold : r.inboundEventId ∈ mb.latestEvents.map InboundEventRecord.inboundEventId :=
      same ▸ List.mem_map_of_mem mem
    rw [latestEvents, events, latest_append, map_key_upsert, ← latestEvents, if_pos hold, arrival,
      Option.toList_none, List.append_nil]

/-- What comes before an element of a list came before it when it was shorter. -/
theorem idxOf_of_append {l l' : List InboundEventId} {x y : InboundEventId} (hy : y ∈ l)
    (h : (l ++ l').idxOf x < (l ++ l').idxOf y) : l.idxOf x < l.idxOf y := by
  rw [List.idxOf_append_of_mem hy] at h
  have hx : x ∈ l := by
    by_contra hnot
    rw [List.idxOf_append_of_notMem hnot] at h
    have := List.idxOf_lt_length_of_mem hy
    omega
  rwa [List.idxOf_append_of_mem hx] at h

theorem Ordered.call (ord : Ordered h) (adm : c.admissible h.mailbox) : Ordered (h.call c) := by
  have adds := Call.adds adm
  have hkept : ∀ {x}, Ended h.mailbox x → Ended (h.call c).mailbox x := fun hx => hx.call adm
  have harrived : (h.call c).arrived = h.arrived ++ c.arrival.toList := rfl
  have hclaimed : (h.call c).claimed =
      h.claimed ++ (c.lease h.mailbox).toList.map DeliveryLease.inboundEventId :=
    List.map_append
  refine ⟨ord.once.call adm, ?_, ?_, ?_⟩
  · rw [harrived, ← ord.arrived]
    exact adds.ids
  · rw [hclaimed, harrived]
    refine List.append_subset.mpr ⟨List.Subset.trans ord.claimed (List.subset_append_left _ _), ?_⟩
    intro x hx
    obtain ⟨l, hl, rfl⟩ := List.mem_map.mp hx
    obtain ⟨current, hhead, hid, -, -⟩ := Call.lease_some (Option.mem_toList.mp hl)
    refine List.mem_append_left _ (ord.arrived ▸ ?_)
    rw [hid]
    exact List.mem_map_of_mem (headPendingEvent_mem hhead).1
  · intro x y hxy hy
    -- an event that has been claimed stays before or behind the others
    have hold : y ∈ h.claimed → x ∈ h.claimed ∧ h.claimed.idxOf x < h.claimed.idxOf y ∨
        x ∉ h.claimed ∧ Ended h.mailbox x := by
      intro hy
      exact ord.order x y (idxOf_of_append (ord.claimed hy) hxy) hy
    cases hc : c.lease h.mailbox with
    | none =>
      rw [hc, Option.toList_none, List.map_nil, List.append_nil] at hclaimed
      rw [hclaimed] at hy ⊢
      exact (hold hy).imp_right fun hx => ⟨hx.1, hkept hx.2⟩
    | some l =>
      obtain ⟨current, hhead, hid, -, -⟩ := Call.lease_some hc
      have hpending : ¬Ended h.mailbox l.inboundEventId := by
        rintro ⟨e, he, ht⟩
        obtain ⟨hmem, hlive⟩ := headPendingEvent_mem hhead
        rw [hid, getLatest_eq_some.mpr ⟨hmem, rfl⟩] at he
        rw [← Option.some.inj he, hlive] at ht
        contradiction
      rw [hc, Option.toList_some, List.map_singleton] at hclaimed
      rw [hclaimed] at hy ⊢
      by_cases hyold : y ∈ h.claimed
      · rcases hold hyold with ⟨hx, hlt⟩ | ⟨hx, hended⟩
        · refine .inl ⟨List.mem_append_left _ hx, ?_⟩
          rwa [List.idxOf_append_of_mem hx, List.idxOf_append_of_mem hyold]
        · refine .inr ⟨?_, hkept hended⟩
          rw [List.mem_append, List.mem_singleton]
          rintro (hmem | rfl)
          · exact hx hmem
          · exact hpending hended
      · -- the head is claimed for the first time
        obtain rfl : y = l.inboundEventId := by
          rw [List.mem_append, List.mem_singleton] at hy
          exact hy.resolve_left hyold
        have hmem : l.inboundEventId ∈ h.arrived := by
          rw [← ord.arrived, hid]
          exact List.mem_map_of_mem (headPendingEvent_mem hhead).1
        have hbefore := idxOf_of_append hmem hxy
        have hended : Ended h.mailbox x := by
          rw [← ord.arrived, hid] at hbefore
          exact ended_of_before_head hhead hbefore
        by_cases hx : x ∈ h.claimed
        · refine .inl ⟨List.mem_append_left _ hx, ?_⟩
          rw [List.idxOf_append_of_mem hx, List.idxOf_append_of_notMem hyold]
          have := List.idxOf_lt_length_of_mem hx
          omega
        · refine .inr ⟨?_, hkept hended⟩
          rw [List.mem_append, List.mem_singleton]
          rintro (hmem' | rfl)
          · exact hx hmem'
          · exact hpending hended

theorem History.Served.ordered (served : History.Served a h) : Ordered h :=
  served.invariant
    ⟨List.Pairwise.nil, rfl, List.Subset.refl _, fun _ _ _ hy => absurd hy List.not_mem_nil⟩
    fun _ _ ord adm => ord.call adm

/-- Inbound events are first claimed in the order they were enqueued, and an event has at
most one row that ends it, which is its last. -/
theorem claims_in_arrival_order (served : History.Served a h) :
    (∀ x ∈ h.claimed, ∀ y ∈ h.claimed, h.arrived.idxOf x < h.arrived.idxOf y →
      h.claimed.idxOf x < h.claimed.idxOf y) ∧
    ∀ id, let rows := h.mailbox.events.filter fun r => r.inboundEventId = id
      (rows.filter fun r => r.status.terminal).length ≤ 1 ∧
        ∀ r ∈ rows, r.status.terminal = true → rows.getLast? = some r := by
  have ord := served.ordered
  refine ⟨fun x hx y hy hxy => ?_, fun id => ?_⟩
  · rcases ord.order x y hxy hy with ⟨-, hlt⟩ | ⟨hnot, -⟩
    · exact hlt
    · exact absurd hx hnot
  · refine ⟨ord.once.length_le id, fun r hr ht => ?_⟩
    obtain ⟨hmem, hid⟩ := List.mem_filter.mp hr
    have hid : r.inboundEventId = id := by simpa using hid
    have hlast := ord.once.getLatest hmem ht
    rwa [hid, getLatest, findLast_eq_getLast?] at hlast

theorem claims_in_arrival_order_sample :
    sampleHistory.arrived = [4, 5] ∧ sampleHistory.claimed = [4, 4, 5] ∧
      sampleHistory.claimed.idxOf 4 < sampleHistory.claimed.idxOf 5 :=
  ⟨by decide +kernel, by decide +kernel,
    (claims_in_arrival_order sampleHistory_served).1 4 (by decide +kernel) 5 (by decide +kernel)
      (by decide +kernel)⟩

end CodexBridge.Mailbox
