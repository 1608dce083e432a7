import CodexBridge.Dispatch.DeliveryRuns
import CodexBridge.Dispatch.StartOrder

/-! Jobs that have not ended and pending events, one to one. While no agent asks itself
and no delivery is retried by hand, every queued or running job is named by exactly one
pending event of its agent's mailbox, and a pending event that names a job names such a
job. -/

namespace CodexBridge.Dispatch

open AppendLog
open Mailbox (InboundEventRecord InboundEventType InboundEventStatus)

variable {cfg : Config} {w : World} {s s' : State} {a : AgentName}

/-- No job was asked for by the agent that works on it. -/
def AsksOthers (s : State) : Prop :=
  ∀ r ∈ s.jobs, r.request.fromActor ≠ .agent r.agentName

/-- A pending event of the mailbox and the job that is to work on it. -/
structure Names (s : State) (a : AgentName) (e : InboundEventRecord) (j : JobId) : Prop where
  pending : e ∈ (s.mailboxes a).pendingEvents none
  job : e.payloadRef = some (.job j) ∨ deliveryJobIdFromPayload e.payloadRef = some j

/-- The request events that have not ended are those of jobs that have not. -/
def Attended (s : State) : Prop :=
  ∀ a, ∀ e ∈ (s.mailboxes a).pendingEvents none, ∀ j, e.payloadRef = some (.job j) → s.live j

/-! ### Requests -/

theorem AsksOthers.before (ext : Extends s s') (others : AsksOthers s') : AsksOthers s :=
  fun r hr => others r (ext.jobs hr)

/-- An agent that asks nothing of itself gets no reply to its own attempts. -/
theorem AsksOthers.unanswered (others : AsksOthers s) (h : Sound cfg s) {x : AttemptRecord}
    (hx : x ∈ s.attempts) : ∀ e ∈ (s.mailboxes x.agentName).events,
      e.attemptId = some x.attemptId → e.eventType ≠ .taskReply := by
  intro e he hid ht
  obtain ⟨-, reply, -, d, -, hreply, -, -, y, hy, hyid, r, hr, hrid, hfrom, -⟩ :=
    ((h.inboxes.ok _).shape e he).resolve_left fun ha => by simp [ha.1] at ht
  have hsame : SameAttempt x y := by
    refine h.coherent.attempts.key x hx y hy (.inl ?_)
    rw [hyid]
    exact Option.some.inj (hid.symm.trans hreply)
  obtain ⟨r', hr', hrid', hagent⟩ := h.coherent.attempts.job y hy
  have sameJob := h.coherent.board.same r hr r' hr' (hrid.trans hrid'.symm)
  apply others r hr
  rw [hfrom, sameJob.agentName, hagent, hsame.agentName]

theorem State.live_of_append (job : JobRecord) (hj : s'.jobs = s.jobs ++ [job])
    (pending : job.status.pending = true) : s'.live job.jobId := by
  refine ⟨job, ?_, JobStatus.not_terminal_of_pending pending⟩
  rw [State.getJob, hj, findLast_append, if_pos (decide_eq_true rfl)]

/-- The end of a job ends its request event. -/
theorem AsksOthers.finish (others : AsksOthers s) (h : Sound cfg s) {current terminal : JobRecord}
    {t : Timestamp} {dequeue : Bool} (g : (Act.finish current terminal t dequeue).guard cfg s)
    {e e' : InboundEventRecord} (he : (s.mailboxes a).getLatest e.inboundEventId = some e)
    (hj : e.payloadRef = some (.job terminal.jobId))
    (he' : (((Act.finish current terminal t dequeue).apply cfg s).mailboxes a).getLatest
      e.inboundEventId = some e') : e'.status.terminal = true := by
  have hmem := Mailbox.getLatest_mem he
  obtain ⟨ht, ⟨x, hx, hxa, hxj, hid⟩, r, hr, hagent, -⟩ := h.request_named hmem hj
  obtain ⟨y, hy⟩ := h.coherent.exists_attemptForJob (g.2.2.2.1.jobId ▸ g.1)
  obtain ⟨hymem, hyj⟩ := State.attemptForJob_mem hy
  have hxy := h.coherent.attempts.key x hx y hymem (.inr (hxj.trans hyj.symm))
  have ha : terminal.agentName = a := by
    rw [g.2.2.2.1.jobId, g.1] at hr
    rw [g.2.2.2.1.agentName, Option.some.inj hr, hagent]
  by_cases live : e.status.terminal = true
  · have hkept := (Act.mailbox_run g h.coherent h.inboxes a).keeps_ended he live
    obtain rfl := Option.some.inj (hkept.symm.trans he')
    exact live
  · have held : Held s terminal.agentName y.attemptId e.inboundEventId :=
      ⟨e, ha.symm ▸ he, ht, hxy.attemptId ▸ hid, by simpa using live⟩
    obtain ⟨e₁, he₁, -, -, hended⟩ := Freed.of_finish h g hy held fun e₂ he₂ hid₂ =>
      others.unanswered h hx e₂ (by rwa [hxa, ← ha]) (hxy.attemptId.symm ▸ hid₂)
    rw [ha] at he₁
    obtain rfl := Option.some.inj (he₁.symm.trans he')
    exact hended

theorem Act.attended {act : Act} (h : Sound cfg s) (g : act.guard cfg s) (others : AsksOthers s)
    (attended : Attended s) : Attended (act.apply cfg s) := by
  intro a e' hpend j hj
  have hs' := Act.sound g h
  obtain ⟨hmem', hlive'⟩ := Mailbox.mem_pendingEvents.mp hpend
  have he' := Mailbox.getLatest_eq_some.mpr ⟨hmem', rfl⟩
  rcases (Act.fate h g a _).source e' he' with ⟨e, he⟩ | ⟨n, hn, rfl⟩
  · have hid := Mailbox.getLatest_id he
    replace hj : e.payloadRef = some (.job j) := by
      have hrow := events_subset_act h g a (Mailbox.getLatest_mem he)
      exact hs'.request_payload (Mailbox.getLatest_mem he') hrow hid hj
    have hlive : e.status.terminal = false := by
      by_contra hended
      have hkept := (Act.mailbox_run g h.coherent h.inboxes a).keeps_ended he
        (by simpa using hended)
      obtain rfl := Option.some.inj (hkept.symm.trans he')
      exact hended hlive'
    have hlatest := (Mailbox.getLatest_eq_some.mp he).1
    have live := attended a e (Mailbox.mem_pendingEvents.mpr ⟨hlatest, hlive⟩) j hj
    refine Act.keeps_live h.coherent g live ?_
    rintro current terminal t dequeue rfl rfl
    -- the event would have ended with the job
    rw [← hid] at he he'
    have hended := others.finish h g he (hj.trans (by rw [g.2.2.2.1.jobId])) he'
    rw [hended] at hlive'
    contradiction
  · cases act <;> simp only [newEvent, reduceCtorEq, Option.some.injEq, Prod.mk.injEq] at hn
    case accept origin job m k t =>
      obtain ⟨-, rfl⟩ := hn
      have hj : some (PayloadRef.job job.jobId) = some (.job j) := hj
      obtain rfl : job.jobId = j := by simpa using hj
      refine State.live_of_append job rfl ?_
      cases origin with
      | submitted => exact g.1.pending
      | retried source => exact g.1.pending
    case continuation edge job t =>
      obtain ⟨-, rfl⟩ := hn
      have hj : some (PayloadRef.job job.jobId) = some (.job j) := hj
      obtain rfl : job.jobId = j := by simpa using hj
      exact State.live_of_append job rfl g.1.pending
    case reply job attempt status recipient t =>
      obtain ⟨b, -, hb⟩ := Option.map_eq_some_iff.mp hn
      obtain ⟨-, rfl⟩ := Prod.mk.inj hb
      have hj : composeReplyPayload s.nextId none = some (PayloadRef.job j) := hj
      cases hj
    case notice edge job attempt t =>
      obtain ⟨b, -, hb⟩ := Option.map_eq_some_iff.mp hn
      obtain ⟨-, rfl⟩ := Prod.mk.inj hb
      have hj : composeReplyPayload s.nextId none = some (PayloadRef.job j) := hj
      cases hj

section Runs
variable {allowed : World → State → Op → Prop}

theorem Act.attended_of_others {act : Act} (h : Sound cfg s) (g : act.guard cfg s)
    (attended : AsksOthers s → Attended s) (others : AsksOthers (act.apply cfg s)) :
    Attended (act.apply cfg s) := by
  have before := others.before (Act.extends h.coherent g)
  exact Act.attended h g before (attended before)

theorem Reachable.attended (run : Reachable cfg allowed s) : AsksOthers s → Attended s := by
  refine run.invariant (I := fun s => AsksOthers s → Attended s) (fun auto _ a e he => ?_) ?_
  · exact absurd (mem_of_mem_latest (Mailbox.mem_pendingEvents.mp he).1) List.not_mem_nil
  · intro w op s₀ s act _ _ _ _ _ hs hI _ g
    exact Act.attended_of_others hs g hI

theorem Moment.attended (run : Moment cfg allowed s) : AsksOthers s → Attended s := by
  obtain ⟨s₀, w, op, hreach, -, -, p⟩ := run
  exact p.along (I := fun s => AsksOthers s → Attended s)
    (fun s act _ hs hI _ g => Act.attended_of_others hs g hI) hreach.sound hreach.attended

end Runs

/-! ### Names -/

/-- An event that hands its reply to a delivery is a reply event, and the delivery has
been scheduled. -/
theorem Sound.delivery_named (h : Sound cfg s) {e : InboundEventRecord} {d : JobId}
    (he : e ∈ (s.mailboxes a).events) (hd : deliveryJobIdFromPayload e.payloadRef = some d) :
    ∃ r, DeliveryJob s a e.inboundEventId r ∧ r.jobId = d ∧ scheduled r = true := by
  rcases (h.inboxes.ok a).shape e he with ⟨-, x, -, -, -, -, hpay, -⟩ |
    ⟨-, reply, -, d', hpay, -, -, hdel, -⟩
  · rw [hpay] at hd
    contradiction
  · rw [hpay] at hd
    obtain rfl : d' = some d := hd
    obtain ⟨r₀, hr₀, hid, -⟩ := hdel d rfl
    obtain ⟨r, hr⟩ := State.exists_getJob hr₀
    rw [hid] at hr
    obtain ⟨_, -, hdelivers⟩ := h.delivers he (by rw [hpay]; rfl) hr
    have hrid := (State.getJob_mem hr).2
    exact ⟨r, ⟨hrid.symm ▸ hr, hdelivers.agentName, hdelivers.inbound⟩, hrid,
      hdelivers.scheduled⟩

/-- A job that a pending event hands its reply to has not ended. -/
theorem DeliveriesOk.named_live (ok : DeliveriesOk s) (h : Sound cfg s) {e : InboundEventRecord}
    {d : JobId} (he : (s.mailboxes a).getLatest e.inboundEventId = some e)
    (pending : e.status.terminal = false)
    (hd : deliveryJobIdFromPayload e.payloadRef = some d) : s.live d := by
  obtain ⟨r, hr, rfl, -⟩ := h.delivery_named (Mailbox.getLatest_mem he) hd
  cases ok.staged r (State.getJob_mem hr.found).1 _ hr.inbound e (hr.agentName.symm ▸ he) with
  | consumed ended =>
    rw [ended] at pending
    contradiction
  | waiting replyId queued free =>
    rw [free] at hd
    contradiction
  | handed r' _ named found live =>
    rw [Option.some.inj (hd.symm.trans named)]
    exact ⟨r', found, live⟩

/-- The work of an agent: its jobs that have not ended. -/
theorem Coherent.work_iff (h : Coherent cfg s) {j : JobId} :
    j ∈ s.memory.queue a ∨ s.memory.active a = some j ↔
      ∃ r, s.getJob j = some r ∧ r.agentName = a ∧ r.status.terminal = false := by
  constructor
  · rintro (hq | hactive)
    · obtain ⟨r, hr, ha, hp⟩ := h.board.mem_queue.mp hq
      exact ⟨r, hr, ha, JobStatus.not_terminal_of_pending hp⟩
    · obtain ⟨r, hr, ha, hs⟩ := (h.board.active a j).mp hactive
      exact ⟨r, hr, ha, by rw [hs]; rfl⟩
  · rintro ⟨r, hr, ha, live⟩
    cases hp : r.status.pending with
    | true => exact .inl (h.board.mem_queue.mpr ⟨r, hr, ha, hp⟩)
    | false =>
      exact .inr ((h.board.active a j).mpr ⟨r, hr, ha, JobStatus.running_of_live live hp⟩)

/-- The event of a job that has not ended. -/
theorem DeliveriesOk.exists_names (ok : DeliveriesOk s) (h : Sound cfg s) {j : JobId}
    {r : JobRecord} (hr : s.getJob j = some r) (ha : r.agentName = a)
    (live : r.status.terminal = false) : ∃ e, Names s a e j := by
  obtain ⟨hmem, rfl⟩ := State.getJob_mem hr
  by_cases hs : scheduled r = true
  · have hi : ∃ i, r.providerOptions.replyDeliveryInboundEventId = some i := by
      rcases h.coherent.jobs.delivery r hmem with ⟨hno, -⟩ | ⟨i, _, -, hi, -⟩
      · rw [scheduled, hno] at hs
        contradiction
      · exact ⟨i, hi⟩
    obtain ⟨i, hi⟩ := hi
    obtain ⟨e, he, pending, hd⟩ := ok.named r.jobId r i hr hs live hi
    exact ⟨e, Mailbox.mem_pendingEvents.mpr
      ⟨(Mailbox.getLatest_eq_some.mp (ha ▸ he)).1, pending⟩, .inr hd⟩
  · obtain ⟨e₀, he₀, -, hpay⟩ := h.inboxes.announced r hmem (by simpa using hs)
    rw [ha] at he₀
    obtain ⟨e, he⟩ := Mailbox.exists_getLatest he₀
    have hj := h.request_payload he₀ (Mailbox.getLatest_mem he) (Mailbox.getLatest_id he) hpay
    obtain ⟨hlatest, -⟩ := Mailbox.getLatest_eq_some.mp he
    exact ⟨e, Mailbox.mem_pendingEvents.mpr
      ⟨hlatest, (h.inboxes.ok a).live e hlatest _ hj r hr live⟩, .inl hj⟩

/-- A job is named by one event at most. -/
theorem Names.unique (h : Sound cfg s) {e e' : InboundEventRecord} {j : JobId}
    (hn : Names s a e j) (hn' : Names s a e' j) : e = e' := by
  obtain ⟨hmem, -⟩ := Mailbox.mem_pendingEvents.mp hn.pending
  obtain ⟨hmem', -⟩ := Mailbox.mem_pendingEvents.mp hn'.pending
  have hrow := mem_of_mem_latest hmem
  have hrow' := mem_of_mem_latest hmem'
  refine Mailbox.eq_of_mem_latestEvents hmem hmem' ?_
  -- a job that a request announces is no scheduled delivery
  have apart : ∀ x ∈ (s.mailboxes a).events, ∀ y ∈ (s.mailboxes a).events,
      x.payloadRef = some (.job j) → deliveryJobIdFromPayload y.payloadRef ≠ some j := by
    intro x hx y hy hj hd
    obtain ⟨r, hr, rfl, hs⟩ := h.delivery_named hy hd
    obtain ⟨-, -, r₀, hr₀, -, hno⟩ := h.request_named hx hj
    rw [Option.some.inj (hr.found.symm.trans hr₀), hno] at hs
    contradiction
  rcases hn.job with hj | hd <;> rcases hn'.job with hj' | hd'
  · exact h.request_unique hrow hrow' hj hj'
  · exact absurd hd' (apart e hrow e' hrow' hj)
  · exact absurd hd (apart e' hrow' e hrow hj')
  · obtain ⟨r, hr, hrid, -⟩ := h.delivery_named hrow hd
    obtain ⟨r', hr', hrid', -⟩ := h.delivery_named hrow' hd'
    have hfound := hr.found
    rw [hrid, ← hrid', hr'.found] at hfound
    obtain rfl := Option.some.inj hfound
    exact Option.some.inj (hr.inbound.symm.trans hr'.inbound)

/-! ### Pairs -/

/-- At every moment of a run in which no agent asks itself and no delivery job is retried by
hand, the jobs of an agent that have not ended and the pending events that name a job are
paired, and every pending request names one. -/
theorem work_paired (run : Moment cfg retriesNoDelivery s) (others : AsksOthers s) :
    (∀ j, j ∈ s.memory.queue a ∨ s.memory.active a = some j → ∃! e, Names s a e j) ∧
      (∀ e j, Names s a e j → j ∈ s.memory.queue a ∨ s.memory.active a = some j) ∧
      ∀ e ∈ (s.mailboxes a).pendingEvents none, e.eventType = .taskRequest →
        ∃ j, Names s a e j := by
  obtain ⟨h, ok⟩ := run.deliveriesOk
  have attended := run.attended others
  refine ⟨fun j hj => ?_, fun e j hn => ?_, fun e he ht => ?_⟩
  · obtain ⟨r, hr, ha, live⟩ := h.coherent.work_iff.mp hj
    obtain ⟨e, he⟩ := ok.exists_names h hr ha live
    exact ⟨e, he, fun e' he' => he'.unique h he⟩
  · obtain ⟨hmem, pending⟩ := Mailbox.mem_pendingEvents.mp hn.pending
    have hrow := mem_of_mem_latest hmem
    rcases hn.job with hj | hd
    · obtain ⟨r, hr, live⟩ := attended a e hn.pending j hj
      obtain ⟨-, -, r₀, hr₀, hagent, -⟩ := h.request_named hrow hj
      obtain rfl := Option.some.inj (hr.symm.trans hr₀)
      exact h.coherent.work_iff.mpr ⟨r, hr, hagent, live⟩
    · obtain ⟨r, hr, live⟩ :=
        ok.named_live h (Mailbox.getLatest_eq_some.mpr ⟨hmem, rfl⟩) pending hd
      obtain ⟨r', hr', hid, -⟩ := h.delivery_named hrow hd
      have hfound := hr'.found
      rw [hid, hr] at hfound
      obtain rfl := Option.some.inj hfound
      exact h.coherent.work_iff.mpr ⟨r, hr, hr'.agentName, live⟩
  · obtain ⟨-, x, -, -, -, -, hpay, -⟩ := ((h.inboxes.ok a).shape e
      (mem_of_mem_latest (Mailbox.mem_pendingEvents.mp he).1)).resolve_right
        fun hans => by simp [hans.1] at ht
    exact ⟨x.jobId, he, .inl hpay⟩

/-- A delivery that is running, and a request that waits behind it. -/
def Sample.deliveryAhead : List (Timestamp × Op) :=
  [(Mailbox.sampleTime, .submit (ask (.agent "agent1") "agent2" none)),
    (Mailbox.sampleTime, .tick), (Mailbox.sampleTime, .complete 1 (decision .completed)),
    (Mailbox.sampleTime, .tick), (Mailbox.sampleTime, .submit (ask .user "agent1" none))]

theorem work_paired_deliveryAhead :
    (Sample.after Sample.deliveryAhead).memory.active "agent1" = some 7 ∧
      (Sample.after Sample.deliveryAhead).memory.queue "agent1" = [11] ∧
      (∃! e, Names (Sample.after Sample.deliveryAhead) "agent1" e 7) ∧
      ∃! e, Names (Sample.after Sample.deliveryAhead) "agent1" e 11 := by
  have run : Reachable Sample.config retriesNoDelivery (Sample.after Sample.deliveryAhead) :=
    Sample.reachable_after (by decide +kernel)
  have hactive : (Sample.after Sample.deliveryAhead).memory.active "agent1" = some 7 := by
    decide +kernel
  have hqueue : (Sample.after Sample.deliveryAhead).memory.queue "agent1" = [11] := by
    decide +kernel
  have others : AsksOthers (Sample.after Sample.deliveryAhead) := by
    unfold AsksOthers
    decide +kernel
  obtain ⟨key, -⟩ := work_paired (a := "agent1") (run.moment (Sample.world Mailbox.sampleTime))
    others
  exact ⟨hactive, hqueue, key 7 (.inr hactive), key 11 (.inl (by simp [hqueue]))⟩

end CodexBridge.Dispatch
