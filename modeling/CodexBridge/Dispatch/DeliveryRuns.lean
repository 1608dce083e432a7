import CodexBridge.Dispatch.DeliveryTurns
import CodexBridge.Dispatch.StaleHeads

/-! Reply delivery over whole runs: a reply is delivered at most once and is not lost, and
it cannot be acknowledged while a delivery is outstanding. -/

namespace CodexBridge.Dispatch

open AppendLog
open Mailbox (InboundEventRecord InboundEventType InboundEventStatus)

variable {cfg : Config} {w : World} {s s' : State} {a : AgentName} {i : InboundEventId}
variable {e : InboundEventRecord}

/-! ### Refused acknowledgements -/

theorem discarded_events (now : Timestamp) (s : State) (a : AgentName) :
    ∃ turns, Discarded a s turns (s.discardStaleHeadEvents now a) := by
  obtain ⟨turns, ended, hloop, hdone⟩ := discardLoop_ends _ s (fun _ => now) rfl
  refine ⟨turns, ?_⟩
  rw [State.discardStaleHeadEvents, discardStaleHeads_of_loop now _ s (hloop 0)]
  exact hdone

/-- The event of an outstanding delivery is not acknowledged, and it stays as it is. -/
theorem ackHeadEvent_refused (h : Sound cfg s) (he : (s.mailboxes a).getLatest i = some e)
    (pending : e.status.terminal = false) {d : JobId}
    (hd : deliveryJobIdFromPayload e.payloadRef = some d) {requested : Option InboundEventId}
    (hreq : requested = some i ∨ requested = none ∧ (s.mailboxes a).headPendingEvent = some e)
    (now : Timestamp) : ∃ refused error, s.ackHeadEvent now a requested = (refused, .error error) ∧
      (refused.mailboxes a).getLatest i = some e := by
  have hmem := Mailbox.getLatest_mem he
  have ht : e.eventType = .taskReply := by
    rcases (h.inboxes.ok a).shape e hmem with ⟨-, x, -, -, -, -, hpay, -⟩ | ha
    · rw [hpay] at hd
      contradiction
    · exact ha.1
  have hvalidate : State.validateReplyHead e = .error .ackDeliveryScheduled := by
    simp [State.validateReplyHead, ht, hd]
  have hrequested : (requested <|>
      (s.mailboxes a).headPendingEvent.map InboundEventRecord.inboundEventId) = some i := by
    rcases hreq with rfl | ⟨rfl, hhead⟩
    · rfl
    · simp [hhead, Mailbox.getLatest_id he]
  unfold State.ackHeadEvent
  dsimp only
  rw [hrequested]
  split
  · rename_i head hfilter
    obtain ⟨hhead, hok⟩ := Option.filter_eq_some_iff.mp hfilter
    have hid : head.inboundEventId = i := by
      simp only [Bool.and_eq_true, decide_eq_true_eq, Option.some.injEq] at hok
      exact hok.1
    have hlatest := getLatest_head hhead
    rw [hid, he] at hlatest
    obtain rfl := Option.some.inj hlatest
    rw [if_pos ht, hvalidate]
    exact ⟨s, _, rfl, he⟩
  · obtain ⟨turns, hdone⟩ := discarded_events now s a
    -- the event is live, so the loop keeps it
    have hkept : ((s.discardStaleHeadEvents now a).mailboxes a).getLatest i = some e := by
      have hlive : e ∈ (s.discardStaleHeadEvents now a).livePendingEvents a := by
        rw [hdone.livePendingEvents]
        exact List.mem_filter.mpr ⟨Mailbox.mem_pendingEvents.mpr
          ⟨(Mailbox.getLatest_eq_some.mp he).1, pending⟩, h.eventIsLive hmem ht⟩
      have hpend := Mailbox.mem_pendingEvents.mp (List.mem_filter.mp hlive).1
      exact Mailbox.getLatest_eq_some.mpr ⟨hpend.1, Mailbox.getLatest_id he⟩
    split
    · exact ⟨_, _, rfl, hkept⟩
    · rename_i head rest hrecords
      split_ifs with hother
      · exact ⟨_, _, rfl, hkept⟩
      · have hid : head.inboundEventId = i := by simpa using hother
        have hhead : head ∈ (s.discardStaleHeadEvents now a).livePendingEvents a := by
          rw [hrecords]
          exact List.mem_cons_self
        have hlatest := Mailbox.getLatest_eq_some.mpr
          ⟨(Mailbox.mem_pendingEvents.mp (List.mem_filter.mp hhead).1).1, hid⟩
        obtain rfl := Option.some.inj (hkept.symm.trans hlatest)
        rw [hvalidate]
        exact ⟨_, _, rfl, hkept⟩

theorem ackReply_refused (h : Sound cfg s) (he : (s.mailboxes a).getLatest i = some e)
    (pending : e.status.terminal = false) {d : JobId}
    (hd : deliveryJobIdFromPayload e.payloadRef = some d) {requested : Option InboundEventId}
    (hreq : requested = some i ∨ requested = none ∧ (s.mailboxes a).headPendingEvent = some e)
    (w : World) : ∃ refused error, s.ackReply cfg w a requested = (refused, .error error) ∧
      (refused.mailboxes a).getLatest i = some e := by
  unfold State.ackReply
  dsimp only
  split_ifs
  · obtain ⟨refused, error, heq, hkept⟩ := ackHeadEvent_refused h he pending hd hreq
      (w.clock 0 .accepted)
    rw [heq]
    exact ⟨refused, error, rfl, hkept⟩
  · exact ⟨s, _, rfl, he⟩

/-! ### Runs -/

/-- No delivery job is retried by hand. -/
def retriesNoDelivery (_ : World) (s : State) : Op → Prop
  | .retry target => ∀ x, (s.getAttempt target <|> s.attemptForJob target) = some x →
    ∀ r, s.getJob x.jobId = some r → r.providerOptions.replyDelivery = false
  | _ => True

instance (w : World) (s : State) (op : Op) : Decidable (retriesNoDelivery w s op) :=
  match op with
  | .retry target => decidable_of_iff
      (((s.getAttempt target <|> s.attemptForJob target).all fun x =>
        (s.getJob x.jobId).all fun r => !r.providerOptions.replyDelivery) = true) (by
      simp only [retriesNoDelivery, Option.all_eq_true, Bool.not_eq_true'])
  | .submit _ | .resubmit _ | .tick | .sweepCallbacks | .repairCallbacks | .prepareReplies
  | .startJobs | .complete _ _ | .cancel _ _ | .ack _ _ | .recover _ _ _ | .inspect _
  | .disableAutoReplyDelivery | .shutdown => isTrue trivial

theorem not_replyDelivery {r : JobRecord} (h : State.isReplyDeliveryJob r = false) :
    r.providerOptions.replyDelivery = false := by
  rw [State.isReplyDeliveryJob, Bool.or_eq_false_iff] at h
  tauto

theorem retriesNoDelivery.source {op : Op} {s₀ : State} (hallowed : retriesNoDelivery w s₀ op)
    (h : Sound cfg s₀) (hs : Sound cfg s) (p : Path cfg (op.permits cfg w s₀) s₀ s)
    {source job : JobRecord} {m : MessageId} {k : ℕ} {t : Timestamp}
    (hp : op.permits cfg w s₀ s (.accept (.retried source) job m k t))
    (g : (Act.accept (.retried source) job m k t).guard cfg s) :
    source.providerOptions.replyDelivery = false := by
  have hsettles : ∀ j, (Act.accept (.retried source) job m k t).settles j s →
      source.providerOptions.replyDelivery = false := fun j hj => not_replyDelivery hj.2
  cases op <;> try exact hp.elim
  case retry target =>
    obtain ⟨x, hx, hxj⟩ := hp
    have hxmem : x ∈ s₀.attempts := by
      rcases hget : s₀.getAttempt target with _ | y
      · rw [hget] at hx
        exact (State.attemptForJob_mem hx).1
      · rw [hget] at hx
        obtain rfl := Option.some.inj hx
        exact (findLast_some hget).1
    obtain ⟨r₀, hr₀, hrid, -⟩ := h.coherent.attempts.job x hxmem
    obtain ⟨r, hr⟩ := State.exists_getJob hr₀
    rw [hrid] at hr
    have hno := hallowed x hx r hr
    have same : SameJob r source := hs.coherent.same
      ((p.grows h).jobs (State.getJob_mem hr).1) ((State.getJob_mem hr).2.trans hxj) g.2.found
    rw [← same.providerOptions]
    exact hno
  case complete j decision => exact hsettles j hp.2
  case cancel j recordReply =>
    rcases hp with hp | hp | ⟨_, _, _, _, _, hact, -⟩
    · exact hp.elim
    · exact hp.elim
    · contradiction
  case ack b id => rcases hp with hp | hp <;> exact hp.elim
  case recover j d hint =>
    rcases hp with hp | hp | hp
    · exact not_replyDelivery hp.2
    · exact hp.elim
    · exact hp.elim
  case shutdown =>
    obtain ⟨j, -, hp | hp⟩ := hp
    · exact hsettles j hp
    · exact hp.elim

/-- A moment of a run: between two acts of one of its operations. -/
def Moment (cfg : Config) (allowed : World → State → Op → Prop) (s : State) : Prop :=
  ∃ s₀ w op, Reachable cfg allowed s₀ ∧ op.admissible s₀ ∧ allowed w s₀ op ∧
    Path cfg (op.permits cfg w s₀) s₀ s

theorem Reachable.moment (h : Reachable cfg retriesNoDelivery s) (w : World) :
    Moment cfg retriesNoDelivery s :=
  ⟨s, w, .tick, h, trivial, trivial, .refl⟩

/-- Whatever such an operation does keeps what holds of the deliveries. -/
theorem retriesNoDelivery.deliveriesOk {op : Op} {s₀ : State} {act : Act}
    (hallowed : retriesNoDelivery w s₀ op) (h : Sound cfg s₀) (hs : Sound cfg s)
    (p : Path cfg (op.permits cfg w s₀) s₀ s) (hp : op.permits cfg w s₀ s act)
    (g : act.guard cfg s) (ok : DeliveriesOk s) : DeliveriesOk (act.apply cfg s) := by
  refine Act.deliveriesOk hs g ok ?_
  rintro source job m k t rfl
  exact hallowed.source h hs p hp g

theorem Reachable.deliveriesOk (h : Reachable cfg retriesNoDelivery s) : DeliveriesOk s := by
  refine h.invariant (I := DeliveriesOk) (fun auto => .initial auto) ?_
  intro w op s₀ s act run _ hallowed _ p hs hI hp g
  exact hallowed.deliveriesOk run.sound hs p hp g hI

theorem Moment.deliveriesOk (h : Moment cfg retriesNoDelivery s) :
    Sound cfg s ∧ DeliveriesOk s := by
  obtain ⟨s₀, w, op, run, -, hallowed, p⟩ := h
  refine ⟨p.sound run.sound, p.along (I := DeliveriesOk) ?_ run.sound run.deliveriesOk⟩
  intro s' act q hs hI hp g
  exact hallowed.deliveriesOk run.sound hs q hp g hI

/-- What becomes of a reply event, with the reply `replyId`, and of its delivery jobs. -/
structure DeliveredOnce (cfg : Config) (s : State) (a : AgentName) (e : InboundEventRecord)
    (replyId : ReplyId) : Prop where
  /-- At most one delivery has not ended. -/
  live_once : ∀ r r', DeliveryJob s a e.inboundEventId r → DeliveryJob s a e.inboundEventId r' →
    r.status.terminal = false → r'.status.terminal = false → r.jobId = r'.jobId
  completed_once : ∀ r r', DeliveryJob s a e.inboundEventId r →
    DeliveryJob s a e.inboundEventId r' → r.status = .completed → r'.status = .completed →
      r.jobId = r'.jobId
  consumed : ∀ r, DeliveryJob s a e.inboundEventId r → r.status = .completed →
    e.status = .consumed
  /-- The end of a delivery that is not completed puts the event back. -/
  requeued : ∀ current terminal t dequeue, (Act.finish current terminal t dequeue).guard cfg s →
    DeliveryJob s a e.inboundEventId current → terminal.status ≠ .completed →
      ∃ e', (((Act.finish current terminal t dequeue).apply cfg s).mailboxes a).getLatest
        e.inboundEventId = some e' ∧ e'.status = .queued ∧
          e'.payloadRef = some (.reply replyId none)
  /-- Later it is consumed, still there, or handed to a newer delivery. -/
  kept : ∀ r, DeliveryJob s a e.inboundEventId r → State.failedTerminal r.status = true →
    e.status = .consumed ∨ e.status = .queued ∧ e.payloadRef = some (.reply replyId none) ∨
      ∃ r', DeliveryJob s a e.inboundEventId r' ∧ r'.status.terminal = false ∧
        r.jobId < r'.jobId ∧ e.status.terminal = false ∧
          e.payloadRef = some (.reply replyId (some r'.jobId))
  refused : ∀ r, DeliveryJob s a e.inboundEventId r → r.status.terminal = false →
    ∀ w requested, requested = some e.inboundEventId ∨
        requested = none ∧ (s.mailboxes a).headPendingEvent = some e →
      ∃ refused error, s.ackReply cfg w a requested = (refused, .error error) ∧
        (refused.mailboxes a).getLatest e.inboundEventId = some e

/-- The reply of an event is the one it came with, whatever its payload names beside it. -/
theorem reply_payload (h : Sound cfg s) (he : e ∈ (s.mailboxes a).events)
    (ht : e.eventType = .taskReply) : ∃ replyId,
      e.payloadRef = some (.reply replyId (deliveryJobIdFromPayload e.payloadRef)) ∧
      ∀ row ∈ (s.mailboxes a).events, row.inboundEventId = e.inboundEventId →
        replyIdFromPayload row.payloadRef = some replyId := by
  obtain ⟨-, reply, -, d, hpay, -⟩ := ((h.inboxes.ok a).shape e he).resolve_left
    fun ha => by simp [ha.1] at ht
  refine ⟨reply.replyId, ?_, fun row hrow hid => ?_⟩
  · rw [hpay]
    rfl
  · rw [((h.inboxes.ok a).agree row hrow e he hid).reply, hpay]
    rfl

/-- At every moment of a run in which no delivery job is retried by hand, every reply event
is delivered at most once and is not lost. -/
theorem reply_delivered_once (run : Moment cfg retriesNoDelivery s)
    (he : (s.mailboxes a).getLatest e.inboundEventId = some e) (ht : e.eventType = .taskReply) :
    ∃ replyId, (∀ row ∈ (s.mailboxes a).events, row.inboundEventId = e.inboundEventId →
        replyIdFromPayload row.payloadRef = some replyId) ∧
      DeliveredOnce cfg s a e replyId := by
  obtain ⟨h, ok⟩ := run.deliveriesOk
  have hmem := Mailbox.getLatest_mem he
  obtain ⟨replyId, hpay, hrows⟩ := reply_payload h hmem ht
  refine ⟨replyId, hrows, fun r r' hr hr' live live' => ?_, ok.completed_once a _,
    fun r hr hcompleted => ?_, fun current terminal t dequeue g hc hnot => ?_,
    fun r hr hfailed => ?_, fun r hr live w requested hreq => ?_⟩
  · exact le_antisymm (ok.newest a _ r' r hr' hr live') (ok.newest a _ r r' hr hr' live)
  · obtain ⟨e', he', hconsumed⟩ := ok.completed a _ r hr hcompleted
    obtain rfl := Option.some.inj (he.symm.trans he')
    exact hconsumed
  · have same := g.2.2.2.1
    have howns := ok.owns h hc g.2.1
    rw [← hc.agentName, ← same.agentName, ← same.jobId] at howns
    obtain ⟨e', he', hend⟩ := Owns.finish h ok.answers g howns
    rw [same.agentName, hc.agentName] at he'
    rcases hend with ⟨hcompleted, -⟩ | ⟨-, hqueued, replyId', hpay'⟩
    · exact absurd hcompleted hnot
    · -- the reply is that of the event before
      have hsub := Mailbox.Run.events_subset (Act.mailbox_run g h.coherent h.inboxes a)
      have hsame := ((Act.sound g h).inboxes.ok a).agree e' (Mailbox.getLatest_mem he') e
        (hsub hmem) (Mailbox.getLatest_id he')
      have hreply := hsame.reply.trans (hrows e hmem rfl)
      rw [hpay'] at hreply
      exact ⟨e', he', hqueued, by rw [hpay', ← Option.some.inj hreply]⟩
  · have stage := ok.staged r (State.getJob_mem hr.found).1 e.inboundEventId hr.inbound e
      (hr.agentName ▸ he)
    cases stage with
    | consumed ended => exact .inl ended
    | waiting replyId' queued free =>
      have hreply := hrows e hmem rfl
      rw [free] at hreply
      exact .inr (.inl ⟨queued, by rw [free, ← Option.some.inj hreply]⟩)
    | handed r' pending named found live =>
      obtain ⟨_, -, hdelivers⟩ := h.delivers hmem named found
      have hr' : DeliveryJob s a e.inboundEventId r' :=
        ⟨found, hdelivers.agentName, hdelivers.inbound⟩
      have hne : r.jobId ≠ r'.jobId := by
        intro hid
        have hfound := hr.found
        rw [hid, found] at hfound
        rw [Option.some.inj hfound, failedTerminal_terminal hfailed] at live
        contradiction
      refine .inr (.inr ⟨r', hr', live, lt_of_le_of_ne (ok.newest a _ r' r hr' hr live) hne,
        pending, ?_⟩)
      rw [hpay, named]
  · obtain ⟨e', he', pending, hd⟩ := ok.owns h hr live
    obtain rfl := Option.some.inj (he.symm.trans he')
    exact ackReply_refused h he pending hd hreq w

/-- A reply whose first delivery fails and whose second one is completed. -/
def Sample.redelivered : List (Timestamp × Op) :=
  [(Mailbox.sampleTime, .submit (ask (.agent "agent1") "agent2" none)),
    (Mailbox.sampleTime, .tick), (Mailbox.sampleTime, .complete 1 (decision .completed)),
    (Mailbox.sampleTime, .tick), (Mailbox.sampleTime, .complete 7 (decision .failed)),
    (Mailbox.sampleTime, .tick), (Mailbox.sampleTime, .complete 10 (decision .completed))]

theorem reply_delivered_once_redelivered : ∃ e,
    ((Sample.after Sample.redelivered).mailboxes "agent1").getLatest e.inboundEventId = some e ∧
      e.eventType = .taskReply ∧ e.status = .consumed ∧
      ∃ replyId, (∀ row ∈ ((Sample.after Sample.redelivered).mailboxes "agent1").events,
          row.inboundEventId = e.inboundEventId →
            replyIdFromPayload row.payloadRef = some replyId) ∧
        DeliveredOnce Sample.config (Sample.after Sample.redelivered) "agent1" e replyId := by
  have run : Reachable Sample.config retriesNoDelivery (Sample.after Sample.redelivered) :=
    Sample.reachable_after (by decide +kernel)
  have hevent : (((Sample.after Sample.redelivered).mailboxes "agent1").getLatest 6).any
      (fun e => e.eventType == .taskReply && e.status == .consumed) = true := by decide +kernel
  obtain ⟨e, he, hfacts⟩ := (Option.any_eq_true _ _).mp hevent
  simp only [Bool.and_eq_true, beq_iff_eq] at hfacts
  have hlatest : ((Sample.after Sample.redelivered).mailboxes "agent1").getLatest
      e.inboundEventId = some e := (Mailbox.getLatest_id he).symm ▸ he
  exact ⟨e, hlatest, hfacts.1, hfacts.2, reply_delivered_once
    (run.moment (Sample.world Mailbox.sampleTime)) hlatest hfacts.1⟩

end CodexBridge.Dispatch
