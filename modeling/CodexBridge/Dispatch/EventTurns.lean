import CodexBridge.Dispatch.Paths
import CodexBridge.Mailbox.Latest

/-! What an act does to one event of a mailbox. An ended event keeps its row; a pending
event keeps it too, or it is claimed, ended or rewritten by one of few acts; and a
new event comes with a new job or a new reply. -/

namespace CodexBridge.Dispatch

open AppendLog
open Mailbox (InboundEventRecord InboundEventType InboundEventStatus NewEvent)

variable {cfg : Config} {s : State} {a : AgentName} {mb : Mailbox}

/-! ### The end of a job -/

/-- The row of an event after the end of the attempt that leads to it. -/
def inboundRow (mb : Mailbox) (attemptId : AttemptId) (status : JobStatus) (t : Timestamp)
    (e : InboundEventRecord) : InboundEventRecord :=
  if mb.getLatestForAttempt attemptId = some e ∧ e.status.terminal = false then
    { e with
      status := if e.status.claimable && status = .cancelled then .abandoned else .consumed
      finishedAt := some t }
  else e

/-- The row of an event after the end of a job that delivers it. -/
def resolvedRow (job : JobRecord) (t : Timestamp) (e : InboundEventRecord) : InboundEventRecord :=
  match job.providerOptions.replyDeliveryInboundEventId,
      job.providerOptions.replyDeliveryReplyId with
  | some inboundEventId, some replyId =>
    if job.status = .completed then Mailbox.endedRow inboundEventId .consumed t e
    else Mailbox.rewrittenRow inboundEventId (composeReplyPayload replyId none) .queued true e
  | _, _ => e

theorem getLatest_finishInbound (h : InboxOk s a mb) (attemptId : AttemptId) (status : JobStatus)
    (t : Timestamp) (i : InboundEventId) :
    (finishInbound mb attemptId status t).getLatest i =
      (mb.getLatest i).map (inboundRow mb attemptId status t) := by
  have hmap : (∀ e, mb.getLatestForAttempt attemptId = some e → e.status.terminal = true) →
      (mb.getLatest i).map (inboundRow mb attemptId status t) = mb.getLatest i := by
    intro hended
    rcases mb.getLatest i with _ | e
    · rfl
    · have hnot : ¬(mb.getLatestForAttempt attemptId = some e ∧ e.status.terminal = false) := by
        rintro ⟨he, hlive⟩
        rw [hended e he] at hlive
        contradiction
      simp [inboundRow, hnot]
  unfold finishInbound
  split
  · rename_i hnone
    rw [Mailbox.getLatest_rebuild, hmap]
    intro e he
    rw [hnone] at he
    contradiction
  · rename_i inbound hinbound
    have hlatest := h.getLatest_of_attempt hinbound
    by_cases ht : inbound.status.terminal = true
    · rw [if_pos ht, Mailbox.getLatest_rebuild, hmap]
      intro e he
      obtain rfl := Option.some.inj (hinbound.symm.trans he)
      exact ht
    · have hlive : inbound.status.terminal = false := by simpa using ht
      rw [if_neg ht]
      -- only the event found through the attempt is changed
      have key : ∀ status' : InboundEventStatus,
          (if inbound.status.claimable && status = .cancelled then .abandoned else .consumed) =
            status' →
          (mb.getLatest i).map (Mailbox.endedRow inbound.inboundEventId status' t) =
            (mb.getLatest i).map (inboundRow mb attemptId status t) := by
        intro status' hstatus
        rcases hl : mb.getLatest i with _ | e
        · rfl
        · by_cases he : e = inbound
          · subst he
            simp only [inboundRow, Mailbox.endedRow, hinbound, hlive, and_self, ↓reduceIte,
              Option.map_some, hstatus]
          · have hid : e.inboundEventId ≠ inbound.inboundEventId := by
              intro hid
              rw [← hid, Mailbox.getLatest_id hl, hl] at hlatest
              exact he (Option.some.inj hlatest)
            have hne : inbound ≠ e := fun h => he h.symm
            simp [inboundRow, Mailbox.endedRow, hid, hinbound, hne]
      split_ifs with hcancel
      · exact (Mailbox.getLatest_markTerminal _ _ _ _ _).trans (key _ (by rw [if_pos hcancel]))
      · exact (Mailbox.getLatest_markTerminal _ _ _ _ _).trans (key _ (by rw [if_neg hcancel]))

theorem getLatest_resolveDelivery (job : JobRecord) (t : Timestamp) (i : InboundEventId) :
    (State.resolveDelivery mb job t).getLatest i = (mb.getLatest i).map (resolvedRow job t) := by
  rcases hi : job.providerOptions.replyDeliveryInboundEventId with _ | id
  · have hrow : resolvedRow job t = fun e => e := by
      funext e
      simp [resolvedRow, hi]
    simp [State.resolveDelivery, hi, hrow]
  rcases hr : job.providerOptions.replyDeliveryReplyId with _ | replyId
  · have hrow : resolvedRow job t = fun e => e := by
      funext e
      simp [resolvedRow, hi, hr]
    simp [State.resolveDelivery, hi, hr, hrow]
  have hrow : resolvedRow job t = fun e => if job.status = .completed then
      Mailbox.endedRow id .consumed t e
      else Mailbox.rewrittenRow id (composeReplyPayload replyId none) .queued true e := by
    funext e
    simp [resolvedRow, hi, hr]
  simp only [State.resolveDelivery, hi, hr, hrow]
  split
  · rename_i hnone
    -- an event that is not there is not resolved
    rcases hl : mb.getLatest i with _ | e
    · rfl
    · have hne : e.inboundEventId ≠ id := by
        rintro rfl
        rw [Mailbox.getLatest_id hl, hl] at hnone
        contradiction
      simp [Mailbox.endedRow, Mailbox.rewrittenRow, hne]
  · split_ifs
    · exact Mailbox.getLatest_markTerminal _ _ _ _ _
    · exact Mailbox.getLatest_rewriteHead _ _ _ _ _ _ _

theorem getLatest_finishMailbox (h : InboxOk s a mb) {terminal : JobRecord}
    (hd : DeliveryOptions terminal) (attemptId : AttemptId) (t : Timestamp) (i : InboundEventId) :
    (finishMailbox mb terminal attemptId t).getLatest i = (mb.getLatest i).map fun e =>
      resolvedRow terminal t (inboundRow mb attemptId terminal.status t e) := by
  unfold finishMailbox
  dsimp only
  split_ifs with hdelivery
  · rw [getLatest_resolveDelivery, getLatest_finishInbound h, Option.map_map]
    rfl
  · rw [getLatest_finishInbound h]
    rcases hd with ⟨-, hi, -⟩ | ⟨-, -, hyes, -⟩
    · congr 1
      funext e
      simp [resolvedRow, hi]
    · simp [State.isReplyDeliveryJob, hyes] at hdelivery

/-- The rows an ending job leaves of an event, in three cases. -/
theorem finishedRow_cases (mb : Mailbox) (terminal : JobRecord) (attemptId : AttemptId)
    (t : Timestamp)
    (e : InboundEventRecord) :
    (resolvedRow terminal t (inboundRow mb attemptId terminal.status t e) = e ∧
      (e.status.terminal = false → mb.getLatestForAttempt attemptId ≠ some e ∧
        ∀ r, terminal.providerOptions.replyDeliveryReplyId = some r →
          terminal.providerOptions.replyDeliveryInboundEventId ≠ some e.inboundEventId)) ∨
    (e.status.terminal = false ∧ mb.getLatestForAttempt attemptId = some e ∧
      (resolvedRow terminal t (inboundRow mb attemptId terminal.status t e)).status.terminal =
        true ∧
      (resolvedRow terminal t (inboundRow mb attemptId terminal.status t e)).payloadRef =
        e.payloadRef) ∨
    (e.status.terminal = false ∧ mb.getLatestForAttempt attemptId ≠ some e ∧
      ∃ replyId, terminal.providerOptions.replyDeliveryInboundEventId = some e.inboundEventId ∧
        terminal.providerOptions.replyDeliveryReplyId = some replyId ∧
        resolvedRow terminal t (inboundRow mb attemptId terminal.status t e) =
          if terminal.status = .completed then
            { e with status := .consumed, finishedAt := some t }
          else Mailbox.rewriteRecord e (composeReplyPayload replyId none) .queued true) := by
  have hended : ∀ e' : InboundEventRecord, e'.status.terminal = true →
      resolvedRow terminal t e' = e' := by
    intro e' ht
    unfold resolvedRow
    split
    · simp [Mailbox.endedRow, Mailbox.rewrittenRow, ht]
    · rfl
  by_cases hlive : e.status.terminal = false
  · by_cases hin : mb.getLatestForAttempt attemptId = some e
    · refine .inr (.inl ⟨hlive, hin, ?_⟩)
      have hrow : (inboundRow mb attemptId terminal.status t e).status.terminal = true := by
        simp only [inboundRow, hin, hlive, and_self, ↓reduceIte]
        split_ifs <;> rfl
      rw [hended _ hrow]
      refine ⟨hrow, ?_⟩
      simp [inboundRow, hin, hlive]
    · have hrow : inboundRow mb attemptId terminal.status t e = e := by simp [inboundRow, hin]
      rw [hrow]
      rcases hi : terminal.providerOptions.replyDeliveryInboundEventId with _ | id
      · exact .inl ⟨by simp [resolvedRow, hi], fun _ => ⟨hin, fun _ _ => by simp⟩⟩
      · rcases hr : terminal.providerOptions.replyDeliveryReplyId with _ | replyId
        · exact .inl ⟨by simp [resolvedRow, hi, hr], fun _ => ⟨hin, fun _ hr' => by simp at hr'⟩⟩
        · by_cases hid : e.inboundEventId = id
          · refine .inr (.inr ⟨hlive, hin, replyId, by rw [hid], rfl, ?_⟩)
            simp [resolvedRow, hi, hr, Mailbox.endedRow, Mailbox.rewrittenRow, hid, hlive]
          · refine .inl ⟨?_, fun _ => ⟨hin, fun _ _ h => hid (Option.some.inj h).symm⟩⟩
            simp [resolvedRow, hi, hr, Mailbox.endedRow, Mailbox.rewrittenRow, hid]
  · have ht : e.status.terminal = true := by simpa using hlive
    refine .inl ⟨?_, fun h => absurd h hlive⟩
    rw [show inboundRow mb attemptId terminal.status t e = e by simp [inboundRow, ht], hended e ht]

/-- The mailbox of a job that has been finished. -/
theorem getLatest_finish (h : Sound cfg s) {current terminal : JobRecord} {t : Timestamp}
    {dequeue : Bool} (g : (Act.finish current terminal t dequeue).guard cfg s) {x : AttemptRecord}
    (hx : s.attemptForJob terminal.jobId = some x) (i : InboundEventId) :
    ((s.finish terminal t dequeue).mailboxes terminal.agentName).getLatest i =
      ((s.mailboxes terminal.agentName).getLatest i).map fun e => resolvedRow terminal t
        (inboundRow (s.mailboxes terminal.agentName) x.attemptId terminal.status t e) := by
  obtain ⟨found, -, -, same, -⟩ := g
  have hdelivery : DeliveryOptions terminal := by
    have hcur := h.coherent.jobs.delivery current (State.getJob_mem found).1
    rw [DeliveryOptions, same.providerOptions, same.request]
    exact hcur
  rw [State.finish_eq t dequeue hx]
  simp only [Function.update_self]
  exact getLatest_finishMailbox (h.inboxes.ok _) hdelivery x.attemptId t i

/-! ### One act -/

namespace Act

/-- The event an act brings, and the mailbox it enters. -/
def newEvent (cfg : Config) (s : State) : Act → Option (AgentName × NewEvent)
  | .accept _ job messageId _ t => some (job.agentName, requestEvent s job messageId t)
  | .continuation edge job t => some (job.agentName, requestEvent s job edge.parentMessageId t)
  | .reply _ attempt _ recipient t =>
    (recipient.bind (State.mailboxActor cfg)).map fun a => (a, s.replyEvent attempt t)
  | .notice edge _ attempt t =>
    (State.mailboxActor cfg edge.originalCaller).map fun a => (a, s.replyEvent attempt t)
  | _ => none
where
  /-- The event that announces a new job. -/
  requestEvent (s : State) (job : JobRecord) (messageId : MessageId) (t : Timestamp) : NewEvent :=
    { inboundEventId := s.nextId + 1
      eventType := .taskRequest
      messageId := messageId
      attemptId := some s.nextId
      payloadRef := some (.job job.jobId)
      priority := 100
      createdAt := t }

/-- How an act turns a pending event `e` of the mailbox of `a` into `e'`. -/
def Turn (s : State) (a : AgentName) (e e' : InboundEventRecord) : Act → Prop
  | .startRequest agentName current _ =>
    a = agentName ∧ e.payloadRef = some (.job current.jobId) ∧ e'.status = .delivering ∧
      e'.payloadRef = e.payloadRef
  | .startDelivery agentName current _ =>
    a = agentName ∧ deliveryJobIdFromPayload e.payloadRef = some current.jobId ∧
      e'.status = .delivering ∧ e'.payloadRef = e.payloadRef
  | .finish _ terminal _ _ =>
    a = terminal.agentName ∧
      ((∃ x, s.attemptForJob terminal.jobId = some x ∧
          (s.mailboxes a).getLatestForAttempt x.attemptId = some e ∧
          e'.status.terminal = true ∧ e'.payloadRef = e.payloadRef) ∨
        ∃ replyId, terminal.providerOptions.replyDeliveryInboundEventId = some e.inboundEventId ∧
          terminal.providerOptions.replyDeliveryReplyId = some replyId ∧
          (terminal.status = .completed ∧ e'.status = .consumed ∧ e'.payloadRef = e.payloadRef ∨
            terminal.status ≠ .completed ∧ e'.status = .queued ∧
              e'.payloadRef = some (.reply replyId none)))
  | .deliver agentName head record _ =>
    a = agentName ∧ e = head ∧ e'.status = .queued ∧
      e'.payloadRef = some (.reply record.replyId (some s.nextId))
  | .reset agentName event replyId _ =>
    a = agentName ∧ e = event ∧ e'.status = .queued ∧ e'.payloadRef = some (.reply replyId none)
  | .consumeDelivered agentName head _ _ =>
    a = agentName ∧ e = head ∧ e'.status = .consumed ∧ e'.payloadRef = e.payloadRef
  | .acknowledge agentName head _ =>
    a = agentName ∧ e = head ∧ (e'.status = .delivering ∨ e'.status = .consumed) ∧
      e'.payloadRef = e.payloadRef
  | .endRequest agentName event status _ =>
    a = agentName ∧ e = event ∧ e'.status = status ∧ e'.payloadRef = e.payloadRef
  | .discard agentName head _ =>
    a = agentName ∧ e = head ∧ e'.status = .abandoned ∧ e'.payloadRef = e.payloadRef
  | _ => False

end Act

/-- What becomes of the event `i` of one mailbox: it keeps its latest row or turns, and
no event appears unless the act brings it. -/
structure Act.Fate (cfg : Config) (s : State) (act : Act) (a : AgentName) (i : InboundEventId)
    (mb' : Mailbox) : Prop where
  kept : ∀ e, (s.mailboxes a).getLatest i = some e → ∃ e', mb'.getLatest i = some e' ∧
    (e' = e ∨ e.status.terminal = false ∧ act.Turn s a e e')
  source : ∀ e', mb'.getLatest i = some e' → (∃ e, (s.mailboxes a).getLatest i = some e) ∨
    ∃ n, act.newEvent cfg s = some (a, n) ∧ e' = n.record

namespace Act

variable {i : InboundEventId} {mb' : Mailbox}

theorem Fate.same {act : Act} (h : mb'.getLatest i = (s.mailboxes a).getLatest i) :
    Fate cfg s act a i mb' :=
  ⟨fun e he => ⟨e, h.trans he, .inl rfl⟩, fun e' he' => .inl ⟨e', h.symm.trans he'⟩⟩

theorem Fate.map {act : Act} {f : InboundEventRecord → InboundEventRecord}
    (h : mb'.getLatest i = ((s.mailboxes a).getLatest i).map f)
    (turn : ∀ e, (s.mailboxes a).getLatest i = some e →
      f e = e ∨ e.status.terminal = false ∧ act.Turn s a e (f e)) : Fate cfg s act a i mb' := by
  constructor
  · intro e he
    exact ⟨f e, by rw [h, he, Option.map_some], turn e he⟩
  · intro e' he'
    rw [h] at he'
    obtain ⟨e, he, -⟩ := Option.map_eq_some_iff.mp he'
    exact .inl ⟨e, he⟩

/-- A new event is none of the events that are there. -/
theorem Fate.enqueue {act : Act} (h : Inboxes s) {n : NewEvent} (clock updatedAt)
    (hnew : act.newEvent cfg s = some (a, n)) (hle : s.nextId ≤ n.inboundEventId) :
    Fate cfg s act a i ((s.mailboxes a).enqueue clock n updatedAt) := by
  constructor
  · intro e he
    refine ⟨e, ?_, .inl rfl⟩
    rw [Mailbox.getLatest_enqueue, if_neg]
    · exact he
    · rintro rfl
      have hlt := (h.ok a).issued e (Mailbox.getLatest_mem he)
      rw [Mailbox.getLatest_id he] at hlt
      exact absurd hlt (not_lt_of_ge hle)
  · intro e' he'
    rw [Mailbox.getLatest_enqueue] at he'
    split_ifs at he' with hi
    · exact .inr ⟨n, hnew, (Option.some.inj he').symm⟩
    · exact .inl ⟨e', he'⟩

/-- An act that only touches the mailbox of `b`. -/
theorem Fate.update {act : Act} {b : AgentName} {mb₁ : Mailbox}
    (h : a = b → Fate cfg s act a i mb₁) :
    Fate cfg s act a i (Function.update s.mailboxes b mb₁ a) := by
  by_cases hab : a = b
  · rw [hab, Function.update_self, ← hab]
    exact h hab
  · rw [Function.update_of_ne hab]
    exact .same rfl

theorem Fate.appendReply {act : Act} (h : Inboxes s) (job attempt status notice t)
    {recipient : Option Actor}
    (hnew : ∀ b, recipient.bind (State.mailboxActor cfg) = some b →
      act.newEvent cfg s = some (b, s.replyEvent attempt t)) :
    Fate cfg s act a i
      ((State.appendReply cfg s job attempt status notice recipient t).mailboxes a) := by
  rcases hr : recipient.bind (State.mailboxActor cfg) with _ | b
  · rw [State.appendReply_silent _ _ _ _ _ hr]
    exact .same rfl
  · rw [State.appendReply_queued _ _ _ _ _ hr]
    refine .update fun hab => ?_
    subst hab
    exact .enqueue h t (some t) (hnew a hr) (Nat.le_succ _)

theorem claimsHead_claimForStart (mb : Mailbox) (inbound t) :
    Mailbox.ClaimsHead mb (claimForStart mb inbound t) := by
  unfold claimForStart
  split
  · exact .congr (Mailbox.events_rebuild _ _)
  · split_ifs
    · exact .congr (Mailbox.events_rebuild _ _)
    · exact .congr rfl
    · exact .claim _ _ _ _

/-- A claim turns the head only. -/
theorem Fate.claims {act : Act} (h : Mailbox.ClaimsHead (s.mailboxes a) mb')
    (turn : ∀ e e', (s.mailboxes a).headPendingEvent = some e → e'.status = .delivering →
      e'.payloadRef = e.payloadRef → act.Turn s a e e') : Fate cfg s act a i mb' := by
  constructor
  · intro e he
    obtain ⟨e', he', rfl | ⟨hhead, hs, hp⟩⟩ := h.kept i e he
    · exact ⟨e', he', .inl rfl⟩
    · exact ⟨e', he', .inr ⟨(Mailbox.headPendingEvent_mem hhead).2, turn e e' hhead hs hp⟩⟩
  · intro e' he'
    rcases hl : (s.mailboxes a).getLatest i with _ | e
    · rw [h.source i hl] at he'
      contradiction
    · exact .inl ⟨e, rfl⟩

/-- A job starts after its mailbox may have been claimed for it already. -/
theorem Fate.start {act : Act} (hc : Coherent cfg s) {current : JobRecord} (t : Timestamp)
    {mb₀ : Mailbox} (found : s.getJob current.jobId = some current)
    (claims : Mailbox.ClaimsHead (s.mailboxes current.agentName) mb₀)
    (turn : a = current.agentName → ∀ e e', (s.mailboxes a).headPendingEvent = some e →
      e'.status = .delivering → e'.payloadRef = e.payloadRef → act.Turn s a e e') :
    Fate cfg s act a i (((({ s with
      mailboxes := Function.update s.mailboxes current.agentName mb₀ }).dequeue current.agentName
        current.jobId).beginRunningJob current t).mailboxes a) := by
  obtain ⟨x, hx⟩ := hc.exists_attemptForJob found
  have hx' : (({ s with
      mailboxes := Function.update s.mailboxes current.agentName mb₀ }).dequeue current.agentName
        current.jobId).attemptForJob current.jobId = some x := hx
  have hbox : (({ s with
      mailboxes := Function.update s.mailboxes current.agentName mb₀ }).dequeue current.agentName
        current.jobId).mailboxes = Function.update s.mailboxes current.agentName mb₀ := rfl
  rw [State.beginRunningJob_eq t hx', hbox, Function.update_idem, Function.update_self]
  refine .update fun ha => ?_
  refine .claims (ha ▸ claims.trans (claimsHead_claimForStart _ _ _)) (turn ha)

theorem Fate.finish (h : Sound cfg s) {current terminal : JobRecord} {t : Timestamp}
    {dequeue : Bool} (g : (Act.finish current terminal t dequeue).guard cfg s) :
    Fate cfg s (.finish current terminal t dequeue) a i
      (((Act.finish current terminal t dequeue).apply cfg s).mailboxes a) := by
  obtain ⟨x, hx⟩ := h.coherent.exists_attemptForJob (g.2.2.2.1.jobId ▸ g.1)
  by_cases ha : a = terminal.agentName
  · subst ha
    refine .map (getLatest_finish h g hx i) fun e _ => ?_
    rcases finishedRow_cases (s.mailboxes terminal.agentName) terminal x.attemptId t e with
      ⟨hsame, -⟩ | ⟨hlive, hin, hended, hpay⟩ | ⟨hlive, -, replyId, hi, hr, hrow⟩
    · exact .inl hsame
    · exact .inr ⟨hlive, rfl, .inl ⟨x, hx, hin, hended, hpay⟩⟩
    · refine .inr ⟨hlive, rfl, .inr ⟨replyId, hi, hr, ?_⟩⟩
      rw [hrow]
      by_cases hs : terminal.status = .completed
      · rw [if_pos hs]
        exact .inl ⟨hs, rfl, rfl⟩
      · rw [if_neg hs]
        exact .inr ⟨hs, rfl, rfl⟩
  · refine .same ?_
    simp only [Act.apply]
    rw [State.finish_eq t dequeue hx]
    simp only [Function.update_of_ne ha]

/-- A transition of one event to a terminal status. -/
theorem Fate.ended {act : Act} {event : InboundEventRecord} {status : InboundEventStatus}
    (clock : Timestamp) (finishedAt : Option Timestamp)
    (hevent : (s.mailboxes a).getLatest event.inboundEventId = some event)
    (turn : ∀ e', e'.status = status → e'.payloadRef = event.payloadRef → act.Turn s a event e') :
    Fate cfg s act a i
      ((s.mailboxes a).markTerminal clock event.inboundEventId status finishedAt).1 := by
  refine .map (Mailbox.getLatest_markTerminal _ _ _ _ _) fun e he => ?_
  unfold Mailbox.endedRow
  split_ifs with hrow
  · rw [← hrow.1, Mailbox.getLatest_id he, he] at hevent
    obtain rfl := Option.some.inj hevent
    exact .inr ⟨hrow.2, turn _ rfl rfl⟩
  · exact .inl rfl

/-- A rewrite of one event. -/
theorem Fate.rewritten {act : Act} {event : InboundEventRecord} {payload : Option PayloadRef}
    (clock : Timestamp) (updatedAt : Option Timestamp)
    (hevent : (s.mailboxes a).getLatest event.inboundEventId = some event)
    (turn : ∀ e', e'.status = .queued → e'.payloadRef = payload → act.Turn s a event e') :
    Fate cfg s act a i ((s.mailboxes a).rewriteHead clock event.inboundEventId payload .queued
      updatedAt true).1 := by
  refine .map (Mailbox.getLatest_rewriteHead _ _ _ _ _ _ _) fun e he => ?_
  unfold Mailbox.rewrittenRow
  split_ifs with hrow
  · rw [← hrow.1, Mailbox.getLatest_id he, he] at hevent
    obtain rfl := Option.some.inj hevent
    exact .inr ⟨hrow.2, turn _ rfl rfl⟩
  · exact .inl rfl

theorem Fate.acknowledged {head : InboundEventRecord} (now : Timestamp)
    (hhead : (s.mailboxes a).headPendingEvent = some head) :
    Fate cfg s (.acknowledge a head now) a i
      ((s.mailboxes a).ackReply now head.inboundEventId (some now) (some now)).1 := by
  have hlive := (Mailbox.headPendingEvent_mem hhead).2
  obtain ⟨mb₁, t, hmb₁, hack⟩ :=
    (s.mailboxes a).ackReply_cases now head.inboundEventId (some now) (some now)
  have hclaims : Mailbox.ClaimsHead (s.mailboxes a) mb₁ := by
    rcases hmb₁ with rfl | ⟨claimedAt, rfl⟩
    · exact .congr rfl
    · exact .claim _ _ _ _
  have hclaimed : Fate cfg s (.acknowledge a head now) a i mb₁ := by
    refine .claims hclaims fun e e' he hs hp => ?_
    obtain rfl := Option.some.inj (hhead.symm.trans he)
    exact ⟨rfl, rfl, .inl hs, hp⟩
  rcases hack with hack | hack
  · -- the reply is read only
    constructor
    · intro e he
      obtain ⟨e', he', hrow⟩ := hclaimed.kept e he
      exact ⟨e', by rw [hack, Mailbox.getLatest_rebuild, he'], hrow⟩
    · intro e' he'
      rw [hack, Mailbox.getLatest_rebuild] at he'
      exact hclaimed.source e' he'
  · -- the reply is read and consumed
    constructor
    · intro e he
      obtain ⟨e', he', hrow⟩ := hclaimed.kept e he
      refine ⟨_, by rw [hack, Mailbox.getLatest_markTerminal, he', Option.map_some], ?_⟩
      unfold Mailbox.endedRow
      split_ifs with hid
      · have heq : e = head := by
          refine Mailbox.eq_of_mem_latestEvents (Mailbox.getLatest_eq_some.mp he).1
            (Mailbox.headPendingEvent_mem hhead).1 ?_
          rw [← hid.1, Mailbox.getLatest_id he, Mailbox.getLatest_id he']
        subst heq
        have hpay : e'.payloadRef = e.payloadRef := by
          rcases hrow with rfl | ⟨-, -, -, -, hp⟩
          · rfl
          · exact hp
        exact .inr ⟨hlive, rfl, rfl, .inr rfl, hpay⟩
      · exact hrow
    · intro e' he'
      rw [hack, Mailbox.getLatest_markTerminal] at he'
      obtain ⟨e₁, he₁, -⟩ := Option.map_eq_some_iff.mp he'
      rcases hclaimed.source e₁ he₁ with hold | ⟨n, hn, -⟩
      · exact .inl hold
      · simp [newEvent] at hn

end Act

/-- The job a reply event names is scheduled to deliver it. -/
theorem Sound.delivers (h : Sound cfg s) {e : InboundEventRecord} {d : JobId}
    {r : JobRecord} (he : e ∈ (s.mailboxes a).events)
    (hd : deliveryJobIdFromPayload e.payloadRef = some d) (hr : s.getJob d = some r) :
    ∃ replyId, replyIdFromPayload e.payloadRef = some replyId ∧
      Delivers r a e.inboundEventId replyId := by
  rcases (h.inboxes.ok a).shape e he with ⟨-, x, -, -, -, -, hp, -⟩ |
    ⟨-, reply, -, d', hp, -, -, hdel, -⟩
  · rw [hp] at hd
    contradiction
  · rw [hp] at hd
    obtain rfl : d' = some d := hd
    obtain ⟨r', hr', hid, hs, ha, hi, hrep⟩ := hdel d rfl
    have same : SameJob r' r := h.coherent.same hr' hid hr
    refine ⟨reply.replyId, by rw [hp]; rfl, ?_, ?_, ?_, ?_⟩
    · rw [← hs, scheduled, scheduled, same.providerOptions]
    · rw [← same.agentName, ha]
    · rw [← same.providerOptions, hi]
    · rw [← same.providerOptions, hrep]

theorem Act.fate {act : Act} (h : Sound cfg s) (g : act.guard cfg s) (a : AgentName)
    (i : InboundEventId) : Act.Fate cfg s act a i ((act.apply cfg s).mailboxes a) := by
  cases act with
  | accept origin job messageId retryIndex t =>
    refine .update fun ha => ?_
    subst ha
    exact .enqueue h.inboxes t (some t) rfl (Nat.le_succ _)
  | continuation edge job t =>
    refine .update fun ha => ?_
    subst ha
    exact .enqueue h.inboxes t (some t) rfl (Nat.le_succ _)
  | startRequest agentName current t =>
    obtain ⟨found, hclaim, queued, -⟩ := g
    obtain ⟨rfl, -⟩ := h.coherent.agent_of_queue found queued
    have key : Act.Fate cfg s (.startRequest current.agentName current t) a i _ :=
      .start h.coherent t found (.congr rfl) fun ha e e' he hs hp => ?_
    · rw [Function.update_eq_self] at key
      exact key
    · obtain ⟨e₀, hpeek, hjob⟩ := Option.bind_eq_some_iff.mp hclaim
      rw [ha] at he
      obtain rfl := Option.some.inj (he.symm.trans (Mailbox.peekNext_eq_some hpeek).1)
      refine ⟨ha, ?_, hs, hp⟩
      rcases hpay : e.payloadRef with _ | ⟨j⟩ | ⟨_, _⟩
      · simp [hpay, jobIdFromPayloadRef] at hjob
      · rw [hpay] at hjob
        rw [Option.some.inj hjob]
      · simp [hpay, jobIdFromPayloadRef] at hjob
  | startDelivery agentName current t =>
    obtain ⟨found, hclaim, queued, -⟩ := g
    obtain ⟨rfl, -⟩ := h.coherent.agent_of_queue found queued
    obtain ⟨head, hhead, hd⟩ := State.mem_claimableReplyDeliveryJobIds hclaim
    obtain ⟨hhead, -⟩ := State.headReplyEvent_eq_some hhead
    obtain ⟨mb₀, hmb, hmb₀⟩ := s.claimReplyDeliveryStart_mailboxes current t
    have hclaims : Mailbox.ClaimsHead (s.mailboxes current.agentName) mb₀ := by
      rcases hmb₀ with rfl | ⟨id, rfl⟩
      · exact .congr rfl
      · exact .claim _ _ _ _
    simp only [Act.apply]
    rw [State.claimReplyDeliveryStart_fst, hmb]
    refine .start h.coherent t found hclaims fun ha e e' he hs hp => ?_
    rw [ha] at he
    obtain rfl := Option.some.inj (hhead.symm.trans he)
    exact ⟨ha, hd, hs, hp⟩
  | finish current terminal t dequeue => exact .finish h g
  | reply job attempt status recipient t =>
    refine .appendReply h.inboxes job attempt status false t fun b hb => ?_
    simp only [Act.newEvent, hb, Option.map_some]
  | notice edge job attempt t =>
    refine .appendReply h.inboxes job attempt .failed true t fun b hb => ?_
    rw [Option.bind_some] at hb
    simp only [Act.newEvent, hb, Option.map_some]
  | deliver agentName head record t =>
    have hhead := getLatest_head (State.headReplyEvent_eq_some g.2.1).1
    refine .update fun ha => ?_
    subst ha
    exact .rewritten t (some t) hhead fun e' hs hp => ⟨rfl, rfl, hs, hp⟩
  | reset agentName event replyId t =>
    refine .update fun ha => ?_
    subst ha
    exact .rewritten t (some t) g.1 fun e' hs hp => ⟨rfl, rfl, hs, hp⟩
  | consumeDelivered agentName head job t =>
    obtain ⟨hhead, hd, found, hcompleted⟩ := g
    have hlatest := getLatest_head (State.headReplyEvent_eq_some hhead).1
    obtain ⟨replyId, -, -, rfl, hi, hr⟩ := h.delivers (Mailbox.getLatest_mem hlatest) hd found
    simp only [Act.apply, State.resolveReplyDeliveryTerminal]
    split_ifs
    · refine .update fun ha => ?_
      subst ha
      refine .map (getLatest_resolveDelivery job t i) fun e he => ?_
      simp only [resolvedRow, hi, hr, hcompleted, ↓reduceIte, Mailbox.endedRow]
      split_ifs with hrow
      · rw [← hrow.1, Mailbox.getLatest_id he, he] at hlatest
        obtain rfl := Option.some.inj hlatest
        exact .inr ⟨hrow.2, rfl, rfl, rfl, rfl⟩
      · exact .inl rfl
    · exact .same rfl
  | acknowledge agentName head t =>
    refine .update fun ha => ?_
    subst ha
    exact .acknowledged t g.1
  | endRequest agentName event status t =>
    refine .update fun ha => ?_
    subst ha
    exact .ended t (some t) g.1 fun e' hs hp => ⟨rfl, rfl, hs, hp⟩
  | discard agentName head t =>
    refine .update fun ha => ?_
    subst ha
    exact .ended t (some t) (getLatest_head g.1) fun e' hs hp => ⟨rfl, rfl, hs, hp⟩
  | refresh agentName t =>
    refine .update fun ha => ?_
    subst ha
    exact .same (Mailbox.getLatest_rebuild _ _)
  | _ => exact .same rfl

end CodexBridge.Dispatch
