import CodexBridge.Dispatch.QueuePairs

/-! A tick makes progress. It hands the reply at the head of every mailbox to a delivery,
and then an idle agent with queued work starts the job of its head, which nothing that the
tick does for other agents can take away. -/

namespace CodexBridge.Dispatch

open AppendLog
open Mailbox (InboundEventRecord InboundEventType InboundEventStatus)

variable {cfg : Config} {w : World} {s₀ s s' : State} {a : AgentName} {j : JobId}

/-! ### Waiting events -/

/-- An event whose job has not been started can be claimed. -/
def Unclaimed (s : State) : Prop :=
  ∀ a e j r, Names s a e j → s.getJob j = some r → r.status.pending = true →
    e.status.claimable = true

/-- The job an event names is in the log. -/
theorem Names.known (h : Sound cfg s) {e : InboundEventRecord} (he : e ∈ (s.mailboxes a).events)
    (hj : e.payloadRef = some (.job j) ∨ deliveryJobIdFromPayload e.payloadRef = some j) :
    ∃ r, s.getJob j = some r ∧ r.agentName = a := by
  rcases hj with hj | hd
  · obtain ⟨-, -, r, hr, hagent, -⟩ := h.request_named he hj
    exact ⟨r, hr, hagent⟩
  · obtain ⟨r, hr, rfl, -⟩ := h.delivery_named he hd
    exact ⟨r, hr.found, hr.agentName⟩

/-- A job that was there and is pending was pending. -/
theorem Act.pending_before {act : Act} (h : Coherent cfg s) (g : act.guard cfg s)
    {r r' : JobRecord} (hr : s.getJob j = some r) (hr' : (act.apply cfg s).getJob j = some r')
    (pending : r'.status.pending = true) : r.status.pending = true := by
  have hmem := (Act.extends h g).jobs (State.getJob_mem hr).1
  have hprecedes := (Act.coherent g h).board.precedes_latest hmem
    (by rw [(State.getJob_mem hr).2]; exact hr')
  rcases hprecedes with heq | hlt
  · rw [heq]
    exact pending
  · rw [JobStatus.rank_of_pending pending] at hlt
    exact absurd hlt (Nat.not_lt_zero _)

theorem Act.unclaimed {act : Act} (h : Sound cfg s) (g : act.guard cfg s) (free : Unclaimed s) :
    Unclaimed (act.apply cfg s) := by
  intro a e' j r' hn hr' pending
  obtain ⟨hmem', hlive'⟩ := Mailbox.mem_pendingEvents.mp hn.pending
  have he' := Mailbox.getLatest_eq_some.mpr ⟨hmem', rfl⟩
  rcases (Act.fate h g a _).source e' he' with ⟨e, he⟩ | ⟨n, -, rfl⟩
  swap
  · rfl
  obtain ⟨e₁, he₁, hrow⟩ := (Act.fate h g a _).kept e he
  obtain rfl := Option.some.inj (he₁.symm.trans he')
  -- a job that has been started is pending no more
  have hstart : ∀ current t, s.getJob current.jobId = some current →
      (act.apply cfg s).jobs = s.jobs ++ [startedJob current t] → current.jobId ≠ j := by
    rintro current t - hj rfl
    have hid : (startedJob current t).jobId = current.jobId := rfl
    rw [State.getJob, hj, findLast_append, if_pos (decide_eq_true hid)] at hr'
    rw [← Option.some.inj hr'] at pending
    contradiction
  rcases hrow with rfl | ⟨hlive, turn⟩
  · have hlatest := Mailbox.getLatest_eq_some.mp he
    obtain ⟨r, hr, -⟩ := Names.known h (Mailbox.getLatest_mem he) hn.job
    exact free a _ j r ⟨Mailbox.mem_pendingEvents.mpr ⟨hlatest.1, hlive'⟩, hn.job⟩ hr
      (Act.pending_before h.coherent g hr hr' pending)
  · cases act with
    | startRequest agentName current t =>
      obtain ⟨-, -, hj, -⟩ :=
        State.dequeue_beginRunningJob_logs h.coherent agentName s.mailboxes t g.1
      refine absurd ?_ (hstart current t g.1 hj)
      rcases hn.job with hjob | hd
      · rw [turn.2.2.2, turn.2.1] at hjob
        simpa using hjob
      · rw [turn.2.2.2, turn.2.1] at hd
        contradiction
    | startDelivery agentName current t =>
      obtain ⟨-, -, hj, -⟩ := State.dequeue_beginRunningJob_logs h.coherent agentName
        (s.claimReplyDeliveryStart current t).1.mailboxes t g.1
      rw [← State.claimReplyDeliveryStart_fst] at hj
      refine absurd ?_ (hstart current t g.1 hj)
      rcases hn.job with hjob | hd
      · rw [turn.2.2.2] at hjob
        have hd := turn.2.1
        rw [hjob] at hd
        contradiction
      · rw [turn.2.2.2, turn.2.1] at hd
        exact Option.some.inj hd
    | finish current terminal t dequeue =>
      rcases turn.2 with ⟨-, -, -, hended, -⟩ | ⟨_, -, -, ⟨-, hconsumed, -⟩ | ⟨-, hqueued, -⟩⟩
      · rw [hended] at hlive'
        contradiction
      · rw [hconsumed] at hlive'
        contradiction
      · rw [hqueued]
        rfl
    | deliver agentName head record t =>
      rw [turn.2.2.1]
      rfl
    | reset agentName event replyId t =>
      rw [turn.2.2.1]
      rfl
    | consumeDelivered agentName head job t =>
      rw [turn.2.2.1] at hlive'
      contradiction
    | acknowledge agentName head t =>
      obtain ⟨rfl, rfl, -, hpay⟩ := turn
      rcases hn.job with hjob | hd
      · rw [hpay] at hjob
        have hreply := g.2.1
        rw [(h.request_named (Mailbox.getLatest_mem he) hjob).1] at hreply
        contradiction
      · rw [hpay, g.2.2] at hd
        contradiction
    | endRequest agentName event status t =>
      rw [turn.2.2.1, g.2.2.1] at hlive'
      contradiction
    | discard agentName head t =>
      rw [turn.2.2.1] at hlive'
      contradiction
    | _ => exact turn.elim

theorem Reachable.unclaimed {allowed : World → State → Op → Prop}
    (run : Reachable cfg allowed s) : Unclaimed s := by
  refine run.invariant (I := Unclaimed) (fun auto a e j r hn => ?_)
    fun _ _ _ _ _ _ _ _ _ _ hs hI _ g => Act.unclaimed hs g hI
  exact absurd (mem_of_mem_latest (Mailbox.mem_pendingEvents.mp hn.pending).1) List.not_mem_nil

/-! ### Idle agents -/

/-- A job of the agent has been started since `s₀`. -/
def Progressed (s₀ : State) (a : AgentName) (s : State) : Prop :=
  ∃ j r, s.getJob j = some r ∧ r.agentName = a ∧ r.status.pending = false ∧
    ∀ r₀, s₀.getJob j = some r₀ → r₀.status.pending = true

/-- The agent is idle, and the job waits in its queue. -/
structure Waiting (cfg : Config) (s : State) (a : AgentName) (j : JobId) : Prop where
  sound : Sound cfg s
  deliveries : DeliveriesOk s
  idle : s.memory.active a = none
  queued : j ∈ s.memory.queue a

theorem Progressed.extends (progressed : Progressed s₀ a s)
    (h' : Coherent cfg s') (ext : Extends s s') : Progressed s₀ a s' := by
  obtain ⟨i, r, hr, ha, hnot, hbefore⟩ := progressed
  obtain ⟨hmem, rfl⟩ := State.getJob_mem hr
  obtain ⟨r', hr'⟩ := State.exists_getJob (ext.jobs hmem)
  have same := h'.same (ext.jobs hmem) rfl hr'
  refine ⟨r.jobId, r', hr', same.agentName ▸ ha, ?_, hbefore⟩
  by_contra hp
  have hp : r'.status.pending = true := by simpa using hp
  rcases h'.board.precedes_latest (ext.jobs hmem) hr' with heq | hlt
  · rw [heq, hp] at hnot
    contradiction
  · rw [JobStatus.rank_of_pending hp] at hlt
    exact Nat.not_lt_zero _ hlt

/-- A running job of an agent that was idle has been started. -/
theorem Progressed.of_running (ext₀ : Extends s₀ s) (h : Coherent cfg s) (h' : Coherent cfg s')
    (ext : Extends s s') (idle : s.memory.active a = none) {r' : JobRecord}
    (hr' : s'.getJob j = some r') (ha : r'.agentName = a) (running : r'.status = .running) :
    Progressed s₀ a s' := by
  refine ⟨j, r', hr', ha, by rw [running]; rfl, fun r₀ hr₀ => ?_⟩
  obtain ⟨hmem₀, rfl⟩ := State.getJob_mem hr₀
  obtain ⟨r, hr⟩ := State.exists_getJob (ext₀.jobs hmem₀)
  obtain ⟨hmem, hid⟩ := State.getJob_mem hr
  have hpending : r.status.pending = true := by
    have hprecedes := h'.board.precedes_latest (ext.jobs hmem) (by rw [hid]; exact hr')
    have same := h'.same (ext.jobs hmem) hid hr'
    rw [running] at hprecedes
    rcases hprecedes with heq | hlt
    · have hactive := (h.board.active a r₀.jobId).mpr ⟨r, hr, same.agentName.trans ha, heq⟩
      have hidle : s.board.memory.active a = none := idle
      rw [hidle] at hactive
      contradiction
    · cases hs : r.status <;> simp_all [JobStatus.rank, JobStatus.pending]
  rcases h.board.precedes_latest (ext₀.jobs hmem₀) hr with heq | hlt
  · rw [heq]
    exact hpending
  · rw [JobStatus.rank_of_pending hpending] at hlt
    exact absurd hlt (Nat.not_lt_zero _)

/-- An agent stays idle with its queued job until it starts one. -/
theorem Waiting.act {act : Act} (wait : Waiting cfg s a j) (g : act.guard cfg s)
    (hrepairs : ∃ s₁, act.repairs cfg w s₁) (ext₀ : Extends s₀ s) :
    Waiting cfg (act.apply cfg s) a j ∨ Progressed s₀ a (act.apply cfg s) := by
  obtain ⟨h, ok, idle, queued⟩ := wait
  obtain ⟨s₁, hrepairs⟩ := hrepairs
  have hs' := Act.sound g h
  have ext := Act.extends h.coherent g
  have ok' : DeliveriesOk (act.apply cfg s) := by
    refine Act.deliveriesOk h g ok ?_
    rintro source job m k t rfl
    exact hrepairs.elim
  by_cases idle' : (act.apply cfg s).memory.active a = none
  swap
  · obtain ⟨k, hk⟩ := Option.ne_none_iff_exists'.mp idle'
    obtain ⟨r', hr', ha, hrun⟩ := (hs'.coherent.board.active a k).mp hk
    exact .inr (.of_running ext₀ h.coherent hs'.coherent ext idle hr' ha hrun)
  obtain ⟨r, hr, ha, hp⟩ := h.coherent.board.mem_queue.mp queued
  have hr : s.getJob j = some r := hr
  obtain ⟨hmem, hid⟩ := State.getJob_mem hr
  obtain ⟨r', hr'⟩ := State.exists_getJob (ext.jobs hmem)
  rw [hid] at hr'
  have ha' : r'.agentName = a := (hs'.coherent.same (ext.jobs hmem) hid hr').agentName ▸ ha
  by_cases hp' : r'.status.pending = true
  · exact .inl ⟨hs', ok', idle', hs'.coherent.board.mem_queue.mpr ⟨r', hr', ha', hp'⟩⟩
  rcases Act.getJob_cases h.coherent g hr' with ⟨r₁, hr₁, -, hstatus⟩ |
    ⟨current, t, dequeue, rfl⟩ | ⟨m, hnew⟩
  · obtain rfl := Option.some.inj (hr.symm.trans hr₁)
    rcases hstatus with hstatus | hrun
    · exact absurd (hstatus ▸ hp) hp'
    · exact .inr (.of_running ext₀ h.coherent hs'.coherent ext idle hr' ha' hrun)
  · -- only running jobs end
    obtain ⟨hfound, -, hrunning, same, -⟩ := g
    have hid' := (State.getJob_mem hr').2
    rw [← same.jobId, hid', hr] at hfound
    have hrun := hrunning hrepairs.1
    rw [← Option.some.inj hfound] at hrun
    rw [hrun] at hp
    contradiction
  · exact absurd (Act.newJob_pending g hnew) hp'

/-! ### Heads -/

/-- A reply at the head of the mailbox has a delivery. -/
def Handed (s : State) (a : AgentName) : Prop :=
  ∀ head, s.headReplyEvent a = some head → ∃ d, deliveryJobIdFromPayload head.payloadRef = some d

/-- While an agent is idle, routine acts end no event of its mailbox. -/
theorem Waiting.keeps_pending {act : Act} (wait : Waiting cfg s a j) (g : act.guard cfg s)
    (hr : act.routine) {e e' : InboundEventRecord}
    (he : (s.mailboxes a).getLatest e.inboundEventId = some e) (live : e.status.terminal = false)
    (he' : ((act.apply cfg s).mailboxes a).getLatest e.inboundEventId = some e') :
    e'.status.terminal = false ∧ ((∃ d, deliveryJobIdFromPayload e.payloadRef = some d) →
      ∃ d, deliveryJobIdFromPayload e'.payloadRef = some d) := by
  obtain ⟨h, ok, idle, -⟩ := wait
  obtain ⟨e₁, he₁, hrow⟩ := (Act.fate h g a _).kept e he
  obtain rfl := Option.some.inj (he₁.symm.trans he')
  rcases hrow with rfl | ⟨-, turn⟩
  · exact ⟨live, id⟩
  cases act with
  | startRequest agentName current t =>
    rw [turn.2.2.1, turn.2.2.2]
    exact ⟨rfl, id⟩
  | startDelivery agentName current t =>
    rw [turn.2.2.1, turn.2.2.2]
    exact ⟨rfl, id⟩
  | finish current terminal t dequeue =>
    -- the job that ends was running, and its agent has none
    obtain ⟨found, -, hrunning, same, -⟩ := g
    have hactive := (h.coherent.board.active a current.jobId).mpr
      ⟨current, found, by rw [← same.agentName, turn.1], hrunning hr.1⟩
    have hidle : s.board.memory.active a = none := idle
    rw [hidle] at hactive
    contradiction
  | deliver agentName head record t =>
    rw [turn.2.2.1, turn.2.2.2]
    exact ⟨rfl, fun _ => ⟨_, rfl⟩⟩
  | reset agentName event replyId t =>
    obtain ⟨-, rfl, hqueued, -⟩ := turn
    refine ⟨by rw [hqueued]; rfl, ?_⟩
    rintro ⟨d, hd⟩
    obtain ⟨r, hfound, hlive⟩ := ok.named_live h he live hd
    rw [failedTerminal_terminal (g.2.2 d hd r hfound)] at hlive
    contradiction
  | consumeDelivered agentName head job t =>
    obtain ⟨-, hd, found, hcompleted⟩ := g
    obtain ⟨-, rfl, -⟩ := turn
    obtain ⟨r, hfound, hlive⟩ := ok.named_live h he live hd
    rw [Option.some.inj (hfound.symm.trans found), hcompleted] at hlive
    contradiction
  | _ => first | exact turn.elim | exact hr.elim

theorem Act.newEvent_routine {act : Act} (hr : act.routine) : act.newEvent cfg s = none := by
  cases act <;> first | rfl | exact hr.elim

theorem Handed.act {act : Act} (wait : Waiting cfg s a j) (g : act.guard cfg s)
    (hr : act.routine) (handed : Handed s a) : Handed (act.apply cfg s) a := by
  intro e' hhead'
  have h := wait.sound
  have hs' := Act.sound g h
  obtain ⟨hhead', ht⟩ := State.headReplyEvent_eq_some hhead'
  have he' := getLatest_head hhead'
  rcases (Act.fate h g a _).source e' he' with ⟨e, he⟩ | ⟨n, hn, -⟩
  swap
  · rw [Act.newEvent_routine hr] at hn
    contradiction
  have hid := Mailbox.getLatest_id he
  rw [← hid] at he he'
  have hlive : e.status.terminal = false := by
    by_contra hended
    have hkept := (Act.mailbox_run g h.coherent h.inboxes a).keeps_ended he (by simpa using hended)
    rw [Option.some.inj (he'.symm.trans hkept)] at hhead'
    exact hended (Mailbox.headPendingEvent_mem hhead').2
  -- no earlier event has ended, so it was the head before
  have hhead : (s.mailboxes a).headPendingEvent = some e := by
    obtain ⟨hlatest, -⟩ := Mailbox.getLatest_eq_some.mp he
    rcases hh : (s.mailboxes a).headPendingEvent with _ | head
    · have hmem := Mailbox.mem_pendingEvents.mpr ⟨hlatest, hlive⟩
      rw [Mailbox.headPendingEvent, List.head?_eq_none_iff] at hh
      rw [hh] at hmem
      contradiction
    obtain ⟨hmem, hopen⟩ := Mailbox.headPendingEvent_mem hh
    rcases lt_trichotomy head.inboundEventId e.inboundEventId with hlt | heq | hgt
    · obtain ⟨head', hkept, -⟩ := (Act.fate h g a _).kept head (getLatest_head hh)
      have hopen' := (wait.keeps_pending g hr (getLatest_head hh) hopen hkept).1
      have hended := ended_before_head hs' hhead' (Mailbox.getLatest_eq_some.mp hkept).1
        (by rw [Mailbox.getLatest_id hkept, ← hid]; exact hlt)
      rw [hended] at hopen'
      contradiction
    · rw [Mailbox.eq_of_mem_latestEvents hmem hlatest heq]
    · have hended := ended_before_head h hh hlatest hgt
      rw [hended] at hlive
      contradiction
  have same := hs'.same_event (events_subset_act h g a) he he'
  refine (wait.keeps_pending g hr he hlive he').2 (handed e ?_)
  rw [State.headReplyEvent, hhead]
  simp [← same.eventType, ht]

/-- The head reply of an agent with work is handed to a delivery. -/
theorem Waiting.handed_prepare (wait : Waiting cfg s a j) (depth : ℕ) :
    Handed (State.prepareAgentReplyDelivery cfg w depth s a).1 a := by
  obtain ⟨h, ok, -, queued⟩ := wait
  unfold State.prepareAgentReplyDelivery
  split
  · rename_i hnone
    intro head hhead
    rw [hnone] at hhead
    contradiction
  rename_i head hhead
  obtain ⟨hpend, ht⟩ := State.headReplyEvent_eq_some hhead
  have hlatest := getLatest_head hpend
  have hmem := Mailbox.getLatest_mem hlatest
  obtain ⟨replyId, hpay, -⟩ := reply_payload h hmem ht
  obtain ⟨-, reply, hreply, d, hpay', -⟩ := ((h.inboxes.ok a).shape head hmem).resolve_left
    fun ha => by simp [ha.1] at ht
  have hreplyId : replyIdFromPayload head.payloadRef = some replyId := by rw [hpay]; rfl
  rw [hreplyId]
  dsimp only
  by_cases hnamed : ∃ d, deliveryJobIdFromPayload head.payloadRef = some d
  · -- the delivery has not ended, so nothing happens
    obtain ⟨d, hd⟩ := hnamed
    obtain ⟨r, hr, hlive⟩ := ok.named_live h hlatest (Mailbox.headPendingEvent_mem hpend).2 hd
    have hresolve : s.resolveExistingDeliveryJob a head replyId (w.clock depth (.reset a)) =
        (s, none) := by
      unfold State.resolveExistingDeliveryJob
      rw [hd]
      dsimp only
      rw [hr]
      dsimp only
      rw [if_pos]
      cases hp : r.status.pending with
      | true => rfl
      | false => simp [JobStatus.running_of_live hlive hp]
    rw [hresolve]
    intro head' hhead'
    rw [hhead] at hhead'
    exact ⟨d, Option.some.inj hhead' ▸ hd⟩
  · have hd : deliveryJobIdFromPayload head.payloadRef = none := by
      simpa [Option.eq_none_iff_forall_ne_some] using hnamed
    have hresolve : s.resolveExistingDeliveryJob a head replyId (w.clock depth (.reset a)) =
        (s, some head) := by
      unfold State.resolveExistingDeliveryJob
      rw [hd]
    rw [hresolve]
    dsimp only
    obtain ⟨record, hget⟩ := exists_findLast (p := fun r : ReplyRecord =>
      decide (r.replyId = reply.replyId)) hreply (by simp)
    have hget : s.getReply reply.replyId = some record := hget
    have heq : replyId = reply.replyId := by
      rw [hpay] at hpay'
      simp only [Option.some.injEq, PayloadRef.reply.injEq] at hpay'
      exact hpay'.1
    rw [heq, hget]
    dsimp only
    have hproject : s.projectIdForAgent w a = true := by
      obtain ⟨r, hr, ha, -⟩ := h.coherent.board.mem_queue.mp queued
      have hrow : r ∈ s.listAgent a :=
        List.mem_filter.mpr ⟨(Board.find_mem hr).1, by simpa using ha⟩
      simp [State.projectIdForAgent, List.ne_nil_of_mem hrow]
    rw [if_pos hproject]
    intro head' hhead'
    obtain ⟨hpend', -⟩ := State.headReplyEvent_eq_some hhead'
    have hmb : (s.buildReplyDeliveryJob cfg a head record
        (w.clock depth (.prepare a))).1.mailboxes a =
          ((s.mailboxes a).rewriteHead (w.clock depth (.prepare a)) head.inboundEventId
            (composeReplyPayload record.replyId (some s.nextId)) .queued
            (some (w.clock depth (.prepare a))) true).1 := Function.update_self _ _ _
    rw [hmb, headPendingEvent_rewriteHead hpend] at hpend'
    exact ⟨s.nextId, by rw [← Option.some.inj hpend']; rfl⟩

/-! ### Starts -/

/-- A head that can be claimed is claimed. -/
theorem claim_head (h : Sound cfg s) {head : InboundEventRecord}
    (hhead : (s.mailboxes a).headPendingEvent = some head) (free : head.status.claimable = true)
    (clock : Timestamp) (t : Option Timestamp) :
    ((s.mailboxes a).claim clock head.inboundEventId t).2.isSome = true := by
  obtain ⟨hmem, hlive⟩ := Mailbox.headPendingEvent_mem hhead
  have hne : head.status ≠ .delivering := by
    intro hs
    rw [hs] at free
    contradiction
  have hlease : ∀ i, Mailbox.activeInboundEventId (s.mailboxes a).lease ≠ some i := by
    intro i hi
    obtain ⟨e, he, -, hs⟩ := (h.single a).leased i hi
    have hhead' := ((h.single a).delivering e he hs).1
    rw [Option.some.inj (hhead.symm.trans hhead')] at hne
    exact hne hs
  have hcandidate := Mailbox.loadClaimCandidate_eq_some.mpr ⟨hmem, rfl, hlive⟩
  have hconflict : (s.mailboxes a).hasConflictingLease head.inboundEventId = false :=
    Mailbox.hasConflictingLease_eq_false.mpr fun i hi => absurd hi (hlease i)
  have hclaimable := (Mailbox.isClaimableHead_eq_true hmem).mpr ⟨free, hhead⟩
  simp [Mailbox.claim, hcandidate, hconflict, hne, hclaimable, Mailbox.claimCurrent]

/-- A job that has just begun is under way, whatever its start leads to. -/
theorem Progressed.of_begun (h : Sound cfg s) (ext₀ : Extends s₀ s) {current : JobRecord}
    {act : Act} (g : act.guard cfg s) {t : Timestamp}
    (hj : (act.apply cfg s).jobs = s.jobs ++ [startedJob current t])
    (idle : s.memory.active current.agentName = none)
    (p : Routine cfg (act.apply cfg s) s') : Progressed s₀ current.agentName s' := by
  have hs := Act.sound g h
  have hfound : (act.apply cfg s).getJob current.jobId = some (startedJob current t) := by
    have hid : (startedJob current t).jobId = current.jobId := rfl
    rw [State.getJob, hj, findLast_append, if_pos (decide_eq_true hid)]
  have hbegun : Progressed s₀ current.agentName (act.apply cfg s) :=
    .of_running ext₀ h.coherent hs.coherent (Act.extends h.coherent g) idle hfound rfl rfl
  exact hbegun.extends (p.sound hs).coherent (p.grows hs)

/-- What an idle agent has to do is in its queue. -/
theorem Waiting.queue_of_live (wait : Waiting cfg s a j) {i : JobId} {r : JobRecord}
    (hr : s.getJob i = some r) (ha : r.agentName = a) (live : r.status.terminal = false) :
    i ∈ s.memory.queue a ∧ r.status.pending = true := by
  rcases wait.sound.coherent.work_iff.mpr ⟨r, hr, ha, live⟩ with hq | hactive
  · obtain ⟨r', hr', -, hp⟩ := wait.sound.coherent.board.mem_queue.mp hq
    rw [Option.some.inj (hr.symm.trans hr')]
    exact ⟨hq, hp⟩
  · rw [wait.idle] at hactive
    contradiction

/-- An idle agent starts the delivery of its head. -/
theorem Waiting.starts_delivery (wait : Waiting cfg s a j) (ext₀ : Extends s₀ s)
    (free : Unclaimed s) (handed : Handed s a) {head : InboundEventRecord}
    (hhead : s.headReplyEvent a = some head) :
    Progressed s₀ a (State.startNextQueuedJob cfg w s a) := by
  obtain ⟨h, ok, idle, -⟩ := id wait
  obtain ⟨hpend, ht⟩ := State.headReplyEvent_eq_some hhead
  obtain ⟨hmem, hlive⟩ := Mailbox.headPendingEvent_mem hpend
  obtain ⟨d, hd⟩ := handed head hhead
  obtain ⟨r, hr, rfl, hscheduled⟩ := h.delivery_named (mem_of_mem_latest hmem) hd
  obtain ⟨found, rfl, hinbound⟩ := hr
  obtain ⟨r', hr', live⟩ := ok.named_live h (getLatest_head hpend) hlive hd
  obtain rfl := Option.some.inj (found.symm.trans hr')
  obtain ⟨hq, hp⟩ := wait.queue_of_live found rfl live
  have hnames : Names s r.agentName head r.jobId :=
    ⟨Mailbox.mem_pendingEvents.mpr ⟨hmem, hlive⟩, .inr hd⟩
  set t := w.clock 0 (.start r.agentName) with ht'
  have hclaims : s.claimableReplyDeliveryJobIds r.agentName = [r.jobId] := by
    unfold State.claimableReplyDeliveryJobIds
    rw [hhead]
    dsimp only
    rw [hd]
    dsimp only
    rw [found]
    dsimp only
    rw [if_pos hp]
  have hclaim : (s.claimReplyDeliveryStart r t).2 = true := by
    unfold State.claimReplyDeliveryStart
    split_ifs with hdelivery
    · rfl
    · rw [hinbound]
      dsimp only
      rw [hhead]
      dsimp only
      rw [if_neg (not_not.mpr rfl)]
      exact claim_head h hpend (free _ _ _ _ hnames found hp) t (some t)
  have g : (Act.startDelivery r.agentName r t).guard cfg s :=
    ⟨found, by simp [hclaims], hq, idle, hclaim⟩
  obtain ⟨-, -, hj, -⟩ := State.dequeue_beginRunningJob_logs h.coherent r.agentName
    (s.claimReplyDeliveryStart r t).1.mailboxes t found
  rw [← State.claimReplyDeliveryStart_fst] at hj
  have hstart : State.startNextQueuedJob cfg w s r.agentName = State.startRunningJob cfg w
      ((s.claimReplyDeliveryStart r t).1.dequeue r.agentName r.jobId) r t := by
    unfold State.startNextQueuedJob State.claimReplyDelivery
    rw [hclaims]
    dsimp only
    rw [if_neg (not_not.mpr hq), found]
    dsimp only
    rw [← ht', show s.claimReplyDeliveryStart r t = ((s.claimReplyDeliveryStart r t).1, true) from
      Prod.ext rfl hclaim]
  rw [hstart]
  exact .of_begun h ext₀ g hj idle (startRunningJob_path (Act.sound g h) .refl)

/-- An idle agent starts the request at its head. -/
theorem Waiting.starts_request (wait : Waiting cfg s a j) (ext₀ : Extends s₀ s)
    (attended : Attended s) (free : Unclaimed s) {head : InboundEventRecord}
    (hpend : (s.mailboxes a).headPendingEvent = some head) (ht : head.eventType = .taskRequest) :
    Progressed s₀ a (State.startNextQueuedJob cfg w s a) := by
  obtain ⟨h, ok, idle, -⟩ := id wait
  obtain ⟨hmem, hlive⟩ := Mailbox.headPendingEvent_mem hpend
  have hpending := Mailbox.mem_pendingEvents.mpr ⟨hmem, hlive⟩
  obtain ⟨-, x, -, -, -, -, hpay, -⟩ := ((h.inboxes.ok a).shape head
    (mem_of_mem_latest hmem)).resolve_right fun hans => by simp [hans.1] at ht
  obtain ⟨-, -, r, found, rfl, -⟩ := h.request_named (mem_of_mem_latest hmem) hpay
  obtain ⟨r', hr', live⟩ := attended _ head hpending _ hpay
  obtain rfl := Option.some.inj (found.symm.trans hr')
  have hid := (State.getJob_mem found).2
  rw [← hid] at hpay found
  obtain ⟨hq, hp⟩ := wait.queue_of_live found rfl live
  have hclaimable := free _ _ _ _ ⟨hpending, .inl hpay⟩ found hp
  set t := w.clock 0 (.start r.agentName) with ht'
  have hclaims : s.claimableRequestJobId r.agentName = some r.jobId := by
    simp [State.claimableRequestJobId, Mailbox.peekNext, hpend, ht, hclaimable, hpay,
      jobIdFromPayloadRef]
  have g : (Act.startRequest r.agentName r t).guard cfg s := ⟨found, hclaims, hq, idle⟩
  obtain ⟨-, -, hj, -⟩ :=
    State.dequeue_beginRunningJob_logs h.coherent r.agentName s.mailboxes t found
  have hnoreply : s.headReplyEvent r.agentName = none := by
    simp [State.headReplyEvent, hpend, ht]
  have hremoved : (s.dequeue r.agentName r.jobId).getJob r.jobId = some r := found
  have hstart : State.startNextQueuedJob cfg w s r.agentName =
      State.startRunningJob cfg w (s.dequeue r.agentName r.jobId) r t := by
    unfold State.startNextQueuedJob State.claimReplyDelivery State.claimableReplyDeliveryJobIds
    rw [hnoreply]
    dsimp only
    unfold State.startRequestJob
    rw [hclaims]
    dsimp only
    rw [if_neg (not_not.mpr hq), hremoved]
  rw [hstart]
  exact .of_begun h ext₀ g hj idle (startRunningJob_path (Act.sound g h) .refl)

/-- An idle agent with queued work starts a job. -/
theorem Waiting.starts (wait : Waiting cfg s a j) (ext₀ : Extends s₀ s) (attended : Attended s)
    (free : Unclaimed s) (handed : Handed s a) :
    Progressed s₀ a (State.startNextQueuedJob cfg w s a) := by
  obtain ⟨h, ok, -, queued⟩ := id wait
  obtain ⟨r, hr, ha, hp⟩ := h.coherent.board.mem_queue.mp queued
  obtain ⟨e, he⟩ := ok.exists_names h hr ha (JobStatus.not_terminal_of_pending hp)
  obtain ⟨head, hpend⟩ : ∃ head, (s.mailboxes a).headPendingEvent = some head := by
    rcases hh : (s.mailboxes a).headPendingEvent with _ | head
    · have hmem := he.pending
      rw [Mailbox.headPendingEvent, List.head?_eq_none_iff] at hh
      rw [hh] at hmem
      contradiction
    · exact ⟨head, rfl⟩
  rcases (h.inboxes.ok a).shape head (mem_of_mem_latest (Mailbox.headPendingEvent_mem hpend).1) with
    hreq | hreply
  · exact wait.starts_request ext₀ attended free hpend hreq.1
  · have hhead : s.headReplyEvent a = some head := by
      rw [State.headReplyEvent, hpend]
      simp [hreply.1]
    exact wait.starts_delivery ext₀ free handed hhead

/-! ### Ticks -/

/-- Nothing that a tick does makes an agent ask itself. -/
theorem Act.asksOthers {act : Act} (h : Sound cfg s) (g : act.guard cfg s)
    (hrepairs : act.repairs cfg w s') (others : AsksOthers s) : AsksOthers (act.apply cfg s) := by
  intro r hr
  rcases (Act.effects h.coherent g).jobs r hr with ⟨r₀, hr₀, same⟩ | ⟨m, hnew⟩
  · rw [same.request, same.agentName]
    exact others r₀ hr₀
  · cases act <;> simp only [newJob, reduceCtorEq, Option.some.injEq, Prod.mk.injEq] at hnew
    case accept => exact hrepairs.elim
    case continuation edge job t =>
      obtain ⟨rfl, -⟩ := hnew
      have hedge := (State.getEdge_mem g.2.found).1
      obtain ⟨parent, hparent, -, hagent, hfrom, -⟩ := h.coherent.edges.parent edge hedge
      rw [g.2.fromActor, g.2.agentName, h.coherent.edges.target edge hedge, ← hfrom, ← hagent]
      exact others parent hparent
    case deliver agentName head record t =>
      obtain ⟨rfl, -⟩ := hnew
      exact Actor.noConfusion

/-- An idle agent with queued work, and all that its start rests on. -/
structure Able (cfg : Config) (s : State) (a : AgentName) (j : JobId) : Prop where
  wait : Waiting cfg s a j
  others : AsksOthers s
  attended : Attended s
  free : Unclaimed s

theorem Able.act {act : Act} (able : Able cfg s a j) (g : act.guard cfg s)
    (hrepairs : act.repairs cfg w s') (ext₀ : Extends s₀ s) :
    Able cfg (act.apply cfg s) a j ∨ Progressed s₀ a (act.apply cfg s) := by
  have h := able.wait.sound
  refine (able.wait.act g ⟨s', hrepairs⟩ ext₀).imp_left fun wait => ⟨wait, ?_, ?_, ?_⟩
  · exact Act.asksOthers h g hrepairs able.others
  · exact Act.attended h g able.others able.attended
  · exact Act.unclaimed h g able.free

theorem Able.repairs (able : Able cfg s a j) (p : Path cfg (Act.repairs cfg w) s s')
    (ext₀ : Extends s₀ s) : Able cfg s' a j ∨ Progressed s₀ a s' := by
  refine p.along (I := fun s => Able cfg s a j ∨ Progressed s₀ a s)
    (fun s₁ act q hs hI hp g => ?_) able.wait.sound (.inl able)
  rcases hI with able₁ | progressed
  · exact able₁.act g hp (ext₀.trans (q.grows able.wait.sound))
  · exact .inr (progressed.extends (Act.sound g hs).coherent (Act.extends hs.coherent g))

theorem Able.routine (w : World) (able : Able cfg s a j) (handed : Handed s a)
    (p : Routine cfg s s')
    (ext₀ : Extends s₀ s) : Able cfg s' a j ∧ Handed s' a ∨ Progressed s₀ a s' := by
  refine p.along (I := fun s => Able cfg s a j ∧ Handed s a ∨ Progressed s₀ a s)
    (fun s₁ act q hs hI hp g => ?_) able.wait.sound (.inl ⟨able, handed⟩)
  rcases hI with ⟨able₁, handed₁⟩ | progressed
  · have hrepairs := Act.repairs_routine cfg w s₁ act hp
    exact (able₁.act g hrepairs (ext₀.trans (q.grows able.wait.sound))).imp_left
      fun able₂ => ⟨able₂, handed₁.act able₁.wait g hp⟩
  · exact .inr (progressed.extends (Act.sound g hs).coherent (Act.extends hs.coherent g))

/-- The turn of one agent in a loop over agents. -/
theorem Routine.turn {f : State → AgentName → State} {agents : List AgentName}
    (hf : ∀ s, Sound cfg s → ∀ b ∈ agents, Routine cfg s (f s b)) (h : Sound cfg s)
    (known : a ∈ agents) :
    ∃ s₁, Routine cfg s s₁ ∧ Routine cfg (f s₁ a) (agents.foldl f s) := by
  obtain ⟨before, after, rfl⟩ := List.append_of_mem known
  have p : Routine cfg s (before.foldl f s) :=
    Path.foldl (fun s _ hs b hb => hf s hs b (List.mem_append_left _ hb)) h
  have q := hf _ (p.sound h) a (List.mem_append_right _ List.mem_cons_self)
  refine ⟨_, p, ?_⟩
  rw [List.foldl_append, List.foldl_cons]
  exact Path.foldl (fun s _ hs b hb =>
    hf s hs b (List.mem_append_right _ (List.mem_cons_of_mem a hb))) (q.sound (p.sound h))

/-- Preparing the deliveries hands the reply at the head of every agent over. -/
theorem Able.prepare (able : Able cfg s a j) (ext₀ : Extends s₀ s) (known : a ∈ cfg.agents) :
    Able cfg (State.prepare cfg w s).1 a j ∧ Handed (State.prepare cfg w s).1 a ∨
      Progressed s₀ a (State.prepare cfg w s).1 := by
  have h := able.wait.sound
  set repaired := cfg.agents.foldl (State.repairAgentReplyDeliveryHead cfg w s.depth
    (State.completeJob cfg w s.depth)) s with hrepaired
  have p : Routine cfg s repaired :=
    Path.foldl (fun s₁ _ hs b _ => repairAgentReplyDeliveryHead_path
      (fun s₂ hs₂ _ _ decision hf hr hd => completeJob_delivery_path _ hs₂ decision hf hr hd)
      hs s.depth b) h
  have heq : (State.prepare cfg w s).1 = cfg.agents.foldl (fun s₁ b =>
      (State.prepareAgentReplyDelivery cfg w s.depth s₁ b).1) repaired := by
    rw [State.prepare, State.prepareReplyDeliveries]
    exact prepare_foldl_fst w s.depth cfg.agents (repaired, [])
  rw [heq]
  obtain ⟨s₁, q, r⟩ := Routine.turn (fun s₁ _ b hb =>
    prepareAgentReplyDelivery_path (w := w) (s := s₁) hb s.depth) (p.sound h) known
  have turn := prepareAgentReplyDelivery_path (w := w) (s := s₁) known s.depth
  have hs₁ := q.sound (p.sound h)
  have before : Routine cfg s s₁ := p.trans q
  have after := turn.trans r
  rcases able.repairs (Path.mono (Act.repairs_routine cfg w) before) ext₀ with able₁ | progressed
  · have ext₁ := ext₀.trans (Path.grows before h)
    rcases able₁.repairs (Path.mono (Act.repairs_routine cfg w) turn) ext₁ with able₂ | progressed
    · exact able₂.routine w (able₁.wait.handed_prepare s.depth) r
        (ext₁.trans (turn.grows hs₁))
    · exact .inr (progressed.extends (r.sound (turn.sound hs₁)).coherent
        (r.grows (turn.sound hs₁)))
  · exact .inr (progressed.extends (Path.sound after hs₁).coherent (Path.grows after hs₁))

/-- The starting loop starts a job of an agent whose head is handed over. -/
theorem Able.tickJobs (able : Able cfg s a j) (handed : Handed s a) (ext₀ : Extends s₀ s)
    (known : a ∈ cfg.agents) (runnable : w.runnable a = true) :
    Progressed s₀ a (State.tickJobs cfg w s) := by
  have h := able.wait.sound
  have hturn : ∀ s, Sound cfg s → ∀ b ∈ cfg.agents, Routine cfg s
      (if (s.memory.active b).isSome then s
      else if s.memory.queueDepth b = 0 then s
      else if w.runnable b then s.startNextQueuedJob cfg w b
      else s) := by
    intro s hs b _
    split_ifs with hactive
    · exact .refl
    · exact .refl
    · exact startNextQueuedJob_path hs (by simpa using hactive)
    · exact .refl
  obtain ⟨s₁, p, q⟩ := Routine.turn hturn h known
  have hs₁ := p.sound h
  have hs₂ := (hturn s₁ hs₁ a known).sound hs₁
  refine Progressed.extends ?_ (q.sound hs₂).coherent (q.grows hs₂)
  rcases able.routine w handed p ext₀ with ⟨able₁, handed₁⟩ | progressed
  · have hdepth : s₁.memory.queueDepth a ≠ 0 := by
      have hpos := List.length_pos_of_mem able₁.wait.queued
      unfold Memory.queueDepth
      omega
    rw [if_neg (by rw [able₁.wait.idle]; exact Bool.false_ne_true), if_neg hdepth, if_pos runnable]
    exact able₁.wait.starts (ext₀.trans (p.grows h)) able₁.attended able₁.free handed₁
  · exact progressed.extends hs₂.coherent ((hturn s₁ hs₁ a known).grows hs₁)

end CodexBridge.Dispatch
