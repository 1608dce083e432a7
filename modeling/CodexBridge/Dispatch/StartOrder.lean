import CodexBridge.Dispatch.Deliveries
import CodexBridge.Dispatch.MailboxRelease

/-! Jobs start in the order in which their events have reached the mailbox. A start takes
the head, whatever comes before the head has ended, and what has ended stays so. -/

namespace CodexBridge.Dispatch

open AppendLog
open Mailbox (InboundEventRecord InboundEventType InboundEventStatus)

variable {cfg : Config} {w : World} {s s' : State} {a : AgentName}

/-- The job has been started. -/
def Started (s : State) (j : JobId) : Prop :=
  ∃ r ∈ s.jobs, r.jobId = j ∧ r.status = .running

/-- The job works on the event: it is the one of the request, or has been scheduled to
deliver the reply. -/
def WorksOn (s : State) (a : AgentName) (e : InboundEventRecord) (j : JobId) : Prop :=
  e.payloadRef = some (.job j) ∨ ∃ r ∈ s.jobs, r.jobId = j ∧ scheduled r = true ∧
    r.agentName = a ∧ r.providerOptions.replyDeliveryInboundEventId = some e.inboundEventId

/-- What came before the event of a started job has ended. -/
def InOrder (s : State) : Prop :=
  ∀ a, ∀ e ∈ (s.mailboxes a).latestEvents, ∀ e' ∈ (s.mailboxes a).latestEvents,
    e.inboundEventId < e'.inboundEventId → ∀ j, WorksOn s a e' j → Started s j →
      e.status.terminal = true

/-! ### Starts -/

theorem Act.started_cases {act : Act} (h : Coherent cfg s) (g : act.guard cfg s) {j : JobId}
    (started : Started (act.apply cfg s) j) :
    Started s j ∨ ∃ agentName current t, current.jobId = j ∧
      (act = .startRequest agentName current t ∨ act = .startDelivery agentName current t) := by
  obtain ⟨r, hr, rfl, hrun⟩ := started
  have hquiet : (act.apply cfg s).jobs = s.jobs → Started s r.jobId :=
    fun hj => ⟨r, hj ▸ hr, rfl, hrun⟩
  have hrow : ∀ row, (act.apply cfg s).jobs = s.jobs ++ [row] →
      Started s r.jobId ∨ r = row := by
    intro row hj
    rw [hj, List.mem_append, List.mem_singleton] at hr
    exact hr.imp (fun hr => ⟨r, hr, rfl, hrun⟩) id
  have hpending : ∀ row, (act.apply cfg s).jobs = s.jobs ++ [row] → row.status.pending = true →
      Started s r.jobId := by
    intro row hj hp
    refine (hrow row hj).resolve_right ?_
    rintro rfl
    rw [hrun] at hp
    contradiction
  cases act with
  | accept origin job m k t =>
    refine .inl (hpending job rfl ?_)
    cases origin with
    | submitted => exact g.1.pending
    | retried source => exact g.1.pending
  | continuation edge job t => exact .inl (hpending job rfl g.1.pending)
  | deliver agentName head record t =>
    exact .inl (hpending _ rfl (State.pendingStatus_pending s agentName))
  | startRequest agentName current t =>
    obtain ⟨-, -, hj, -⟩ := State.dequeue_beginRunningJob_logs h agentName s.mailboxes t g.1
    refine (hrow _ hj).imp id ?_
    rintro rfl
    exact ⟨agentName, current, t, rfl, .inl rfl⟩
  | startDelivery agentName current t =>
    obtain ⟨-, -, hj, -⟩ := State.dequeue_beginRunningJob_logs h agentName
      (s.claimReplyDeliveryStart current t).1.mailboxes t g.1
    rw [← State.claimReplyDeliveryStart_fst] at hj
    refine (hrow _ hj).imp id ?_
    rintro rfl
    exact ⟨agentName, current, t, rfl, .inr rfl⟩
  | finish current terminal t dequeue =>
    obtain ⟨x, hx⟩ := h.exists_attemptForJob (g.2.2.2.1.jobId ▸ g.1)
    refine .inl ((hrow terminal (congrArg State.jobs (State.finish_eq t dequeue hx))).resolve_right
      ?_)
    rintro rfl
    have hended := g.2.2.2.2
    rw [hrun] at hended
    contradiction
  | touch record =>
    obtain ⟨current, found, same, hstatus⟩ := g
    rcases hrow record rfl with hs | rfl
    · exact .inl hs
    · exact .inl ⟨current, (State.getJob_mem found).1, same.jobId.symm, hstatus ▸ hrun⟩
  | reply job attempt status recipient t => exact .inl (hquiet (State.appendReply_logs ..).1)
  | notice edge job attempt t => exact .inl (hquiet (State.appendReply_logs ..).1)
  | consumeDelivered agentName head job t =>
    have heq := State.resolveReplyDeliveryTerminal_eq s job t
    exact .inl (hquiet ((congrArg State.jobs heq).trans rfl))
  | _ => exact .inl (hquiet rfl)

/-- Everything that has come before the head has ended. -/
theorem ended_before_head (h : Sound cfg s) {head e : InboundEventRecord}
    (hhead : (s.mailboxes a).headPendingEvent = some head)
    (he : e ∈ (s.mailboxes a).latestEvents) (before : e.inboundEventId < head.inboundEventId) :
    e.status.terminal = true := by
  by_contra live
  have hsorted : ((s.mailboxes a).pendingEvents none).Pairwise fun x y =>
      x.inboundEventId < y.inboundEventId :=
    (List.pairwise_map.mp (h.inboxes.ok a).sorted).filter _
  obtain ⟨rest, hrest⟩ := List.head?_eq_some_iff.mp hhead
  have hmem : e ∈ head :: rest := by
    rw [← hrest]
    exact Mailbox.mem_pendingEvents.mpr ⟨he, by simpa using live⟩
  rw [hrest, List.pairwise_cons] at hsorted
  rcases List.mem_cons.mp hmem with rfl | hmem
  · exact lt_irrefl _ before
  · exact lt_asymm before (hsorted.1 e hmem)

/-! ### Heads -/

/-- What a row with a job in its payload is about. -/
theorem Sound.request_named (h : Sound cfg s) {e : InboundEventRecord} {j : JobId}
    (he : e ∈ (s.mailboxes a).events) (hj : e.payloadRef = some (.job j)) :
    e.eventType = .taskRequest ∧
      (∃ x ∈ s.attempts, x.agentName = a ∧ x.jobId = j ∧ e.attemptId = some x.attemptId) ∧
      ∃ r, s.getJob j = some r ∧ r.agentName = a ∧ scheduled r = false := by
  rcases (h.inboxes.ok a).shape e he with ⟨ht, x, hx, hxa, hid, -, hpay, r₀, hr₀, hrid, hs⟩ |
    ⟨-, reply, -, d, hpay, -⟩
  · obtain rfl : x.jobId = j := by simpa using hpay.symm.trans hj
    obtain ⟨r, hr⟩ := State.exists_getJob hr₀
    rw [hrid] at hr
    have same := h.coherent.same hr₀ hrid hr
    obtain ⟨r₁, hr₁, hrid₁, hagent⟩ := h.coherent.attempts.job x hx
    have same₁ := h.coherent.same hr₁ hrid₁ hr
    exact ⟨ht, ⟨x, hx, hxa, rfl, hid⟩, r, hr, by rw [← same₁.agentName, hagent, hxa],
      scheduled_congr same ▸ hs⟩
  · simp [hpay] at hj

theorem Sound.request_unique (h : Sound cfg s) {e e' : InboundEventRecord} {j : JobId}
    (he : e ∈ (s.mailboxes a).events) (he' : e' ∈ (s.mailboxes a).events)
    (hj : e.payloadRef = some (.job j)) (hj' : e'.payloadRef = some (.job j)) :
    e.inboundEventId = e'.inboundEventId := by
  obtain ⟨ht, ⟨x, hx, -, hxj, hid⟩, -⟩ := h.request_named he hj
  obtain ⟨ht', ⟨y, hy, -, hyj, hid'⟩, -⟩ := h.request_named he' hj'
  have hxy := h.coherent.attempts.key x hx y hy (.inr (hxj.trans hyj.symm))
  exact (h.inboxes.ok a).request_unique e he e' he' ht ht' (by rw [hid, hid', hxy.attemptId])

/-- All rows of a request event name the same job. -/
theorem Sound.request_payload (h : Sound cfg s) {e e' : InboundEventRecord} {j : JobId}
    (he : e ∈ (s.mailboxes a).events) (he' : e' ∈ (s.mailboxes a).events)
    (hid : e'.inboundEventId = e.inboundEventId) (hj : e.payloadRef = some (.job j)) :
    e'.payloadRef = some (.job j) := by
  obtain ⟨ht, ⟨x, hx, -, hxj, hattempt⟩, -⟩ := h.request_named he hj
  have same := (h.inboxes.ok a).agree e' he' e he hid
  obtain ⟨-, y, hy, -, hyid, -, hpay, -⟩ := ((h.inboxes.ok a).shape e' he').resolve_right
    fun hans => by
      have heq := same.eventType
      rw [hans.1, ht] at heq
      contradiction
  have hyx := h.coherent.attempts.key y hy x hx
    (.inl (Option.some.inj (hyid.symm.trans (same.attemptId.trans hattempt))))
  rw [hpay, hyx.jobId, hxj]

/-- A start takes the head of the mailbox. -/
theorem WorksOn.head (h : Sound cfg s) {act : Act} (g : act.guard cfg s) {agentName : AgentName}
    {current : JobRecord} {t : Timestamp}
    (hact : act = .startRequest agentName current t ∨ act = .startDelivery agentName current t)
    {e : InboundEventRecord} (he : e ∈ (s.mailboxes a).events)
    (works : WorksOn s a e current.jobId) :
    ∃ head, (s.mailboxes a).headPendingEvent = some head ∧
      head.inboundEventId = e.inboundEventId := by
  rcases hact with rfl | rfl
  · obtain ⟨found, hclaim, queued, -⟩ := g
    obtain ⟨rfl, -⟩ := h.coherent.agent_of_queue found queued
    obtain ⟨head, hpeek, hjob⟩ := Option.bind_eq_some_iff.mp hclaim
    have hhead := (Mailbox.peekNext_eq_some hpeek).1
    have hrow := mem_of_mem_latest (Mailbox.headPendingEvent_mem hhead).1
    have hpay : head.payloadRef = some (.job current.jobId) := by
      rcases hp : head.payloadRef with _ | ⟨j⟩ | ⟨_, _⟩ <;>
        simp [hp, jobIdFromPayloadRef] at hjob
      rw [hjob]
    obtain ⟨-, -, r, hr, -, hno⟩ := h.request_named hrow hpay
    rcases works with hj | ⟨r', hr', hrid, hs, -⟩
    · obtain ⟨-, -, r', hr', hagent, -⟩ := h.request_named he hj
      obtain rfl := Option.some.inj (hr'.symm.trans found)
      rw [hagent] at hhead hrow
      exact ⟨head, hhead, h.request_unique hrow he hpay hj⟩
    · rw [← scheduled_congr (h.coherent.same hr' hrid hr), hs] at hno
      contradiction
  · obtain ⟨found, hclaim, queued, -⟩ := g
    obtain ⟨head, hhead, hd⟩ := State.mem_claimableReplyDeliveryJobIds hclaim
    obtain ⟨hhead, -⟩ := State.headReplyEvent_eq_some hhead
    have hrow := mem_of_mem_latest (Mailbox.headPendingEvent_mem hhead).1
    obtain ⟨_, -, hdelivers⟩ := h.delivers hrow hd found
    rcases works with hj | ⟨r', hr', hrid, -, hagent, hi⟩
    · obtain ⟨-, -, r, hr, -, hno⟩ := h.request_named he hj
      obtain rfl := Option.some.inj (hr.symm.trans found)
      rw [hdelivers.scheduled] at hno
      contradiction
    · have same := h.coherent.same hr' hrid found
      rw [same.providerOptions, hdelivers.inbound] at hi
      rw [← hdelivers.agentName, ← same.agentName, hagent] at hhead
      exact ⟨head, hhead, Option.some.inj hi⟩

/-! ### One act -/

/-- The event a job works on is older than the job's first row. -/
theorem WorksOn.before {act : Act} (h : Sound cfg s) (g : act.guard cfg s) {j : JobId}
    (known : ∃ r ∈ s.jobs, r.jobId = j) {e' : InboundEventRecord}
    (he' : ((act.apply cfg s).mailboxes a).getLatest e'.inboundEventId = some e')
    (works : WorksOn (act.apply cfg s) a e' j) :
    ∃ e, (s.mailboxes a).getLatest e'.inboundEventId = some e ∧ WorksOn s a e j := by
  have hs' := Act.sound g h
  have ext := Act.extends h.coherent g
  obtain ⟨r₀, hr₀, rfl⟩ := known
  have hsub := events_subset_act h g a
  rcases works with hj | ⟨r, hr, hrid, hs, hagent, hi⟩
  · obtain ⟨-, -, r, hr, hagent, hno⟩ := hs'.request_named (Mailbox.getLatest_mem he') hj
    have same := hs'.coherent.same (ext.jobs hr₀) rfl hr
    obtain ⟨e₀, he₀, -, hpay⟩ := h.inboxes.announced r₀ hr₀ (scheduled_congr same ▸ hno)
    rw [same.agentName, hagent] at he₀
    obtain ⟨e, he⟩ := Mailbox.exists_getLatest he₀
    have hid := hs'.request_unique (Mailbox.getLatest_mem he') (hsub he₀) hj hpay
    rw [hid]
    refine ⟨e, he, .inl (h.request_payload he₀ (Mailbox.getLatest_mem he) ?_ hpay)⟩
    exact Mailbox.getLatest_id he
  · have same := hs'.coherent.board.same r hr r₀ (ext.jobs hr₀) hrid
    rw [same.providerOptions] at hi
    obtain ⟨e₀, he₀, hid, -⟩ := h.inboxes.target r₀ hr₀ _ hi
    rw [← same.agentName, hagent] at he₀
    obtain ⟨e, he⟩ := Mailbox.exists_getLatest he₀
    rw [hid] at he
    exact ⟨e, he, .inr ⟨r₀, hr₀, rfl, scheduled_congr same ▸ hs, same.agentName ▸ hagent,
      hi.trans (congrArg some (Mailbox.getLatest_id he).symm)⟩⟩

/-- New events get new identifiers. -/
theorem Act.newEvent_issued {act : Act} {n : Mailbox.NewEvent}
    (hn : act.newEvent cfg s = some (a, n)) : s.nextId ≤ n.inboundEventId := by
  cases act <;> simp only [newEvent, reduceCtorEq, Option.some.injEq, Prod.mk.injEq] at hn
  case accept origin job m k t =>
    obtain ⟨-, rfl⟩ := hn
    exact Nat.le_succ _
  case continuation edge job t =>
    obtain ⟨-, rfl⟩ := hn
    exact Nat.le_succ _
  case reply job attempt status recipient t =>
    obtain ⟨b, -, hb⟩ := Option.map_eq_some_iff.mp hn
    obtain ⟨-, rfl⟩ := Prod.mk.inj hb
    exact Nat.le_succ _
  case notice edge job attempt t =>
    obtain ⟨b, -, hb⟩ := Option.map_eq_some_iff.mp hn
    obtain ⟨-, rfl⟩ := Prod.mk.inj hb
    exact Nat.le_succ _

/-- An event that comes before an old one is old. -/
theorem Act.Fate.old {act : Act} (h : Sound cfg s) (g : act.guard cfg s) {e e' : InboundEventRecord}
    (he : ((act.apply cfg s).mailboxes a).getLatest e.inboundEventId = some e)
    (he' : e' ∈ (s.mailboxes a).events) (before : e.inboundEventId < e'.inboundEventId) :
    ∃ e₀, (s.mailboxes a).getLatest e.inboundEventId = some e₀ := by
  refine ((Act.fate h g a _).source e he).resolve_right ?_
  rintro ⟨n, hn, rfl⟩
  have hlt := before.trans ((h.inboxes.ok a).issued e' he')
  have hnew : s.nextId ≤ n.record.inboundEventId := Act.newEvent_issued hn
  exact absurd hlt (not_lt_of_ge hnew)

theorem Act.inOrder {act : Act} (h : Sound cfg s) (g : act.guard cfg s) (ordered : InOrder s) :
    InOrder (act.apply cfg s) := by
  intro a e hmem e' hmem' before j works started
  have he := Mailbox.getLatest_eq_some.mpr ⟨hmem, rfl⟩
  have he' := Mailbox.getLatest_eq_some.mpr ⟨hmem', rfl⟩
  have known : ∃ r ∈ s.jobs, r.jobId = j := by
    rcases Act.started_cases h.coherent g started with ⟨r, hr, hid, -⟩ |
      ⟨agentName, current, t, hid, rfl | rfl⟩
    · exact ⟨r, hr, hid⟩
    · exact ⟨current, (State.getJob_mem g.1).1, hid⟩
    · exact ⟨current, (State.getJob_mem g.1).1, hid⟩
  obtain ⟨e₁', he₁', works₁⟩ := works.before h g known he'
  have hid₁' := Mailbox.getLatest_id he₁'
  obtain ⟨e₁, he₁⟩ := Act.Fate.old h g he (Mailbox.getLatest_mem he₁') (hid₁' ▸ before)
  have hid₁ := Mailbox.getLatest_id he₁
  -- the earlier event has ended before the act
  have hended : e₁.status.terminal = true := by
    rw [← hid₁, ← hid₁'] at before
    have hlatest := (Mailbox.getLatest_eq_some.mp he₁).1
    rcases Act.started_cases h.coherent g started with started |
      ⟨agentName, current, t, rfl, hact⟩
    · exact ordered a e₁ hlatest e₁' (Mailbox.getLatest_eq_some.mp he₁').1 before j works₁ started
    · obtain ⟨head, hhead, hid⟩ := works₁.head h g hact (Mailbox.getLatest_mem he₁')
      exact ended_before_head h hhead hlatest (hid ▸ before)
  have hkept := (Act.mailbox_run g h.coherent h.inboxes a).keeps_ended he₁ hended
  obtain rfl := Option.some.inj (hkept.symm.trans he)
  exact hended

theorem InOrder.initial (auto : Bool) : InOrder (State.initial auto) :=
  fun _ _ _ _ _ _ _ _ ⟨_, hr, _⟩ => absurd hr List.not_mem_nil

/-! ### Runs -/

def Sample.secondStarted : List (Timestamp × Op) :=
  twoRequests ++ [(Mailbox.sampleTime, .complete 1 (decision .completed)),
    (Mailbox.sampleTime, .tick)]

/-- In every run, when a job has been started, every event that had reached the mailbox
of its agent before the event it works on has ended, and so has the job of that event. -/
theorem jobs_start_in_arrival_order {allowed : World → State → Op → Prop}
    (run : Reachable cfg allowed s) {e e' : InboundEventRecord}
    (he : e ∈ (s.mailboxes a).latestEvents) (he' : e' ∈ (s.mailboxes a).latestEvents)
    (before : e.inboundEventId < e'.inboundEventId) {j : JobId} (works : WorksOn s a e' j)
    (started : Started s j) :
    e.status.terminal = true ∧ ∀ i, e.payloadRef = some (.job i) → ¬s.live i := by
  have hended : e.status.terminal = true :=
    (run.invariant (I := InOrder) InOrder.initial fun _ _ _ _ _ _ _ _ _ _ hs hI _ g =>
      Act.inOrder hs g hI) a e he e' he' before j works started
  refine ⟨hended, fun i hi ⟨r, hr, live⟩ => ?_⟩
  have hopen := (run.sound.inboxes.ok a).live e he i hi r hr live
  rw [hended] at hopen
  contradiction

/-- The second of two requests has been started after the first was completed. -/
theorem jobs_start_in_arrival_order_twoRequests :
    ∃ e ∈ ((Sample.after Sample.secondStarted).mailboxes "agent1").latestEvents,
      ∃ e' ∈ ((Sample.after Sample.secondStarted).mailboxes "agent1").latestEvents,
        e.payloadRef = some (.job 1) ∧ e'.payloadRef = some (.job 6) ∧
          e.status.terminal = true ∧ ¬(Sample.after Sample.secondStarted).live 1 := by
  have run : Reachable Sample.config (fun _ _ _ => True) (Sample.after Sample.secondStarted) :=
    Sample.reachable_after (by decide +kernel)
  obtain ⟨e, he, e', he', before, hj, hj'⟩ :
      ∃ e ∈ ((Sample.after Sample.secondStarted).mailboxes "agent1").latestEvents,
        ∃ e' ∈ ((Sample.after Sample.secondStarted).mailboxes "agent1").latestEvents,
          e.inboundEventId < e'.inboundEventId ∧ e.payloadRef = some (.job 1) ∧
            e'.payloadRef = some (.job 6) := by decide +kernel
  have started : Started (Sample.after Sample.secondStarted) 6 := by
    unfold Started
    decide +kernel
  obtain ⟨hended, hover⟩ := jobs_start_in_arrival_order run he he' before (.inl hj') started
  exact ⟨e, he, e', he', hj, hj', hended, hover 1 hj⟩

end CodexBridge.Dispatch
