import CodexBridge.Dispatch.Control
import Mathlib.Data.List.TakeWhile

/-! Reading the inbox of an agent. The loop that discards stale heads reads the log again
after each of them; a turn takes one event out of the pending ones and leaves the other
stores alone, so the loop ends at the first pending event that is live. -/

namespace CodexBridge.Dispatch

open Mailbox (InboundEventRecord)

variable {s : State} {a : AgentName}

/-! ### The loop -/

/-- A turn of the loop that abandons a head. -/
structure Discard where
  before : State
  head : InboundEventRecord
  finishedAt : Timestamp

/-- The row the turn adds to the log. -/
def Discard.row (t : Discard) : InboundEventRecord :=
  { t.head with status := .abandoned, finishedAt := some t.finishedAt }

namespace State

def abandonHead (s : State) (now : Timestamp) (agentName : AgentName)
    (head : InboundEventRecord) : State :=
  s.setMailbox agentName
    ((s.mailboxes agentName).abandon now head.inboundEventId (some now)).1

/-- The head a turn of `_discard_stale_head_events` abandons, if the loop does not return. -/
def staleHead (s : State) (agentName : AgentName) : Option InboundEventRecord :=
  (s.mailboxes agentName).headPendingEvent.filter fun head => !s.eventIsLive head

/-- `_discard_stale_head_events`, which reads the clock in every turn; `none` if it has not
returned after so many turns. -/
def discardLoop (agentName : AgentName) :
    ℕ → (ℕ → Timestamp) → State → Option (List Discard × State)
  | 0, _, _ => none
  | fuel + 1, clock, s =>
    match s.staleHead agentName with
    | none => some ([], s)
    | some head =>
      (discardLoop agentName fuel (fun turn => clock (turn + 1))
        (s.abandonHead (clock 0) agentName head)).map
          fun result => (⟨s, head, clock 0⟩ :: result.1, result.2)

/-- `pending_event_records`: the stale heads are discarded first. -/
def pendingEventRecords (agentName : AgentName) (fuel : ℕ) (clock : ℕ → Timestamp) (s : State) :
    Option (List InboundEventRecord × State) :=
  (s.discardLoop agentName fuel clock).map
    fun result => (result.2.livePendingEvents agentName, result.2)

end State

/-! ### One turn -/

theorem State.staleHead_some {head : InboundEventRecord} (h : s.staleHead a = some head) :
    (s.mailboxes a).headPendingEvent = some head ∧ s.eventIsLive head = false := by
  simpa [State.staleHead, Option.filter_eq_some_iff] using h

@[simp] theorem State.eventIsLive_abandonHead (s : State) (now : Timestamp) (a : AgentName)
    (head event : InboundEventRecord) :
    (s.abandonHead now a head).eventIsLive event = s.eventIsLive event := rfl

@[simp] theorem State.mailboxes_abandonHead (s : State) (now : Timestamp) (a : AgentName)
    (head : InboundEventRecord) : (s.abandonHead now a head).mailboxes a =
      ((s.mailboxes a).abandon now head.inboundEventId (some now)).1 :=
  Function.update_self _ _ _

/-! ### The whole loop -/

/-- What the loop has done when it returns: the pending events up to the first live one are
abandoned, each of them as the head, and nothing else is touched. -/
structure Discarded (a : AgentName) (s : State) (turns : List Discard) (ended : State) : Prop where
  heads : turns.map Discard.head =
    ((s.mailboxes a).pendingEvents none).takeWhile fun e => !s.eventIsLive e
  left : (ended.mailboxes a).pendingEvents none =
    ((s.mailboxes a).pendingEvents none).dropWhile fun e => !s.eventIsLive e
  rows : (ended.mailboxes a).events = (s.mailboxes a).events ++ turns.map Discard.row
  current : ∀ t ∈ turns, (t.before.mailboxes a).headPendingEvent = some t.head ∧
    t.before.eventIsLive t.head = false
  state : ended = s.setMailbox a (ended.mailboxes a)

theorem Discarded.returned (h : s.staleHead a = none) : Discarded a s [] s := by
  have hlive : ∀ e, (s.mailboxes a).headPendingEvent = some e → s.eventIsLive e = true := by
    intro e he
    simpa [State.staleHead, he] using h
  refine ⟨?_, ?_, by simp, by simp, by simp [State.setMailbox]⟩
  · cases hl : (s.mailboxes a).pendingEvents none with
    | nil => rfl
    | cons e rest =>
      have hhead := hlive e (by rw [Mailbox.headPendingEvent, hl]; rfl)
      simp [hhead]
  · cases hl : (s.mailboxes a).pendingEvents none with
    | nil => rfl
    | cons e rest =>
      have hhead := hlive e (by rw [Mailbox.headPendingEvent, hl]; rfl)
      simp [hhead]

theorem Discarded.turn {head : InboundEventRecord} {now : Timestamp} {turns : List Discard}
    {ended : State} (h : s.staleHead a = some head)
    (rest : Discarded a (s.abandonHead now a head) turns ended) :
    Discarded a s (⟨s, head, now⟩ :: turns) ended := by
  obtain ⟨hhead, hstale⟩ := State.staleHead_some h
  obtain ⟨hevents, hpending⟩ := Mailbox.markTerminal_head hhead now .abandoned (some now) rfl
  obtain ⟨tail, hl⟩ : ∃ tail, (s.mailboxes a).pendingEvents none = head :: tail :=
    List.head?_eq_some_iff.mp hhead
  have htail : ((s.abandonHead now a head).mailboxes a).pendingEvents none = tail := by
    rw [State.mailboxes_abandonHead, Mailbox.abandon, hpending, hl, List.tail_cons]
  obtain ⟨heads, left, rows, current, state⟩ := rest
  rw [htail] at heads left
  refine ⟨?_, ?_, ?_, ?_, ?_⟩
  · rw [hl, List.map_cons, heads, List.takeWhile_cons_of_pos (by simpa using hstale)]
    rfl
  · rw [hl, left, List.dropWhile_cons_of_pos (by simpa using hstale)]
    rfl
  · rw [rows, State.mailboxes_abandonHead, Mailbox.abandon, hevents, List.append_assoc]
    rfl
  · intro t ht
    rcases List.mem_cons.mp ht with rfl | ht
    · exact ⟨hhead, hstale⟩
    · exact current t ht
  · rw [state]
    simp [State.abandonHead, State.setMailbox]

/-- The loop ends, since every turn leaves one pending event less: by induction on the
pending events. -/
theorem discardLoop_ends (pending : List InboundEventRecord) (s : State)
    (clock : ℕ → Timestamp) (h : (s.mailboxes a).pendingEvents none = pending) :
    ∃ turns ended, (∀ extra, s.discardLoop a (pending.length + 1 + extra) clock =
      some (turns, ended)) ∧ Discarded a s turns ended := by
  induction pending generalizing s clock with
  | nil =>
    have hnone : s.staleHead a = none := by
      simp [State.staleHead, Mailbox.headPendingEvent, h]
    refine ⟨[], s, fun extra => ?_, Discarded.returned hnone⟩
    rw [List.length_nil, Nat.zero_add, Nat.add_comm, State.discardLoop, hnone]
  | cons e rest ih =>
    cases hstale : s.staleHead a with
    | none =>
      refine ⟨[], s, fun extra => ?_, Discarded.returned hstale⟩
      rw [List.length_cons, Nat.add_right_comm, State.discardLoop, hstale]
    | some head =>
      have hpending := (Mailbox.markTerminal_head (State.staleHead_some hstale).1 (clock 0)
        .abandoned (some (clock 0)) rfl).2
      rw [h, List.tail_cons] at hpending
      obtain ⟨turns, ended, hloop, hdone⟩ := ih (s.abandonHead (clock 0) a head)
        (fun turn => clock (turn + 1)) (by rw [State.mailboxes_abandonHead]; exact hpending)
      refine ⟨⟨s, head, clock 0⟩ :: turns, ended, fun extra => ?_, hdone.turn hstale⟩
      rw [List.length_cons, Nat.add_right_comm, State.discardLoop, hstale]
      simp only [hloop, Option.map_some]

/-- With one reading of the clock this is the loop the other operations run. -/
theorem discardStaleHeads_of_loop (now : Timestamp) (fuel : ℕ) (s : State)
    {turns : List Discard} {ended : State}
    (h : s.discardLoop a (fuel + 1) (fun _ => now) = some (turns, ended)) :
    State.discardStaleHeads now a fuel s = ended := by
  induction fuel generalizing s turns with
  | zero =>
    cases hstale : s.staleHead a with
    | none =>
      rw [State.discardLoop, hstale] at h
      exact (Prod.mk.inj (Option.some.inj h)).2
    | some head =>
      rw [State.discardLoop, hstale] at h
      contradiction
  | succ fuel ih =>
    rw [State.discardLoop] at h
    rw [State.discardStaleHeads]
    cases hstale : s.staleHead a with
    | none =>
      rw [hstale] at h
      have hs : s = ended := (Prod.mk.inj (Option.some.inj h)).2
      cases hhead : (s.mailboxes a).headPendingEvent with
      | none => exact hs
      | some head =>
        have hlive : s.eventIsLive head = true := by
          simpa [State.staleHead, hhead] using hstale
        simp only [hlive, ↓reduceIte]
        exact hs
    | some head =>
      obtain ⟨hhead, hlive⟩ := State.staleHead_some hstale
      rw [hstale] at h
      obtain ⟨result, hresult, heq⟩ := Option.map_eq_some_iff.mp h
      obtain ⟨-, rfl⟩ := Prod.mk.inj heq
      simp only [hhead, hlive, Bool.false_eq_true, ↓reduceIte]
      exact ih (s.abandonHead now a head) hresult

theorem Discarded.eventIsLive {turns : List Discard} {ended : State}
    (h : Discarded a s turns ended) (e : InboundEventRecord) :
    ended.eventIsLive e = s.eventIsLive e := by
  rw [h.state]
  rfl

/-- The live events behind the abandoned heads are all the live ones there were. -/
theorem Discarded.livePendingEvents {turns : List Discard} {ended : State}
    (h : Discarded a s turns ended) :
    ended.livePendingEvents a = ((s.mailboxes a).pendingEvents none).filter s.eventIsLive := by
  have hlive : ended.eventIsLive = s.eventIsLive := funext h.eventIsLive
  have hnone : (((s.mailboxes a).pendingEvents none).takeWhile fun e => !s.eventIsLive e).filter
      s.eventIsLive = [] := by
    rw [List.filter_eq_nil_iff]
    intro e he
    simpa using List.mem_takeWhile_imp he
  have hsplit := List.takeWhile_append_dropWhile (p := fun e => !s.eventIsLive e)
    (l := (s.mailboxes a).pendingEvents none)
  calc ended.livePendingEvents a
      = (((s.mailboxes a).pendingEvents none).dropWhile fun e => !s.eventIsLive e).filter
          s.eventIsLive := by rw [State.livePendingEvents, h.left, hlive]
    _ = ((s.mailboxes a).pendingEvents none).filter s.eventIsLive := by
        conv_rhs => rw [← hsplit, List.filter_append, hnone, List.nil_append]

/-- From every state, whatever the clock says, the loop returns. It adds one row to the log
for each head it found stale and keeps every live event; the records that are returned are
the live pending events, in the order in which they entered the log. -/
theorem stale_head_discard_exact (s : State) (a : AgentName) (clock : ℕ → Timestamp) :
    ∃ turns records ended,
      (∀ extra, s.discardLoop a (((s.mailboxes a).pendingEvents none).length + 1 + extra) clock =
        some (turns, ended)) ∧
      (∀ extra, s.pendingEventRecords a
        (((s.mailboxes a).pendingEvents none).length + 1 + extra) clock =
          some (records, ended)) ∧
      (ended.mailboxes a).events = (s.mailboxes a).events ++ turns.map Discard.row ∧
      (∀ t ∈ turns, (t.before.mailboxes a).headPendingEvent = some t.head ∧
        t.before.eventIsLive t.head = false) ∧
      (∀ e ∈ (s.mailboxes a).pendingEvents none, s.eventIsLive e = true →
        e ∈ (ended.mailboxes a).pendingEvents none) ∧
      (∀ e, e ∈ records ↔ e ∈ (ended.mailboxes a).latestEvents ∧
        e.status.terminal = false ∧ ended.eventIsLive e = true) ∧
      records = ((s.mailboxes a).pendingEvents none).filter s.eventIsLive ∧
      records.Pairwise fun e e' =>
        (ended.mailboxes a).events.findIdx (fun r => decide (r.inboundEventId = e.inboundEventId)) <
          (ended.mailboxes a).events.findIdx
            (fun r => decide (r.inboundEventId = e'.inboundEventId)) := by
  obtain ⟨turns, ended, hloop, hdone⟩ := discardLoop_ends _ s clock rfl
  refine ⟨turns, ended.livePendingEvents a, ended, hloop, fun extra => ?_, hdone.rows,
    hdone.current, fun e he hlive => ?_, fun e => ?_, hdone.livePendingEvents, ?_⟩
  · rw [State.pendingEventRecords, hloop, Option.map_some]
  · have hrecord : e ∈ ended.livePendingEvents a := by
      rw [hdone.livePendingEvents]
      exact List.mem_filter.mpr ⟨he, hlive⟩
    exact (List.mem_filter.mp hrecord).1
  · rw [State.livePendingEvents, List.mem_filter, Mailbox.mem_pendingEvents, and_assoc]
  · have horder : ((ended.mailboxes a).latestEvents.map
        InboundEventRecord.inboundEventId).Pairwise _ := AppendLog.pairwise_latest _
    rw [List.pairwise_map] at horder
    exact horder.sublist (List.filter_sublist.trans List.filter_sublist)

end CodexBridge.Dispatch
