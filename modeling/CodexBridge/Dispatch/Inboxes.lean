import CodexBridge.Dispatch.Inbox

/-! Every act keeps every mailbox in step with the logs: whatever rows an act adds to
a mailbox, they fit the logs it leaves behind. -/

namespace CodexBridge.Dispatch

open AppendLog
open Mailbox (InboundEventRecord InboundEventType InboundEventStatus NewEvent SingleDelivery)

variable {cfg : Config} {s s' : State} {a : AgentName} {mb mb' : Mailbox}

/-! ### Growth of the logs -/

/-- The logs only grow. -/
structure Extends (s s' : State) : Prop where
  jobs : s.jobs ⊆ s'.jobs
  attempts : s.attempts ⊆ s'.attempts
  replies : s.replies ⊆ s'.replies
  edges : s.edges ⊆ s'.edges
  nextId : s.nextId ≤ s'.nextId

theorem Extends.same (hj : s'.jobs = s.jobs) (ha : s'.attempts = s.attempts)
    (hr : s'.replies = s.replies) (he : s'.edges = s.edges) (hn : s.nextId ≤ s'.nextId) :
    Extends s s' := by
  refine ⟨?_, ?_, ?_, ?_, hn⟩
  · rw [hj]
    exact List.Subset.refl _
  · rw [ha]
    exact List.Subset.refl _
  · rw [hr]
    exact List.Subset.refl _
  · rw [he]
    exact List.Subset.refl _

theorem Extends.refl (s : State) : Extends s s := .same rfl rfl rfl rfl le_rfl

theorem Extends.trans {s'' : State} (h : Extends s s') (h' : Extends s' s'') : Extends s s'' :=
  ⟨List.Subset.trans h.jobs h'.jobs, List.Subset.trans h.attempts h'.attempts,
    List.Subset.trans h.replies h'.replies, List.Subset.trans h.edges h'.edges,
    h.nextId.trans h'.nextId⟩

/-- An ended job keeps its status. -/
theorem Extends.status (ext : Extends s s') (hc' : Coherent cfg s') {j : JobId} {r : JobRecord}
    (hr : s.getJob j = some r) (ht : r.status.terminal = true) :
    ∃ r', s'.getJob j = some r' ∧ r'.status = r.status := by
  obtain ⟨hmem, rfl⟩ := State.getJob_mem hr
  obtain ⟨r', hr'⟩ := State.exists_getJob (ext.jobs hmem)
  exact ⟨r', hr', JobStatus.eq_of_precedes (hc'.board.precedes_latest (ext.jobs hmem) hr') ht⟩

theorem Extends.grows (ext : Extends s s') (hc' : Coherent cfg s') : Grows s s' := by
  refine ⟨ext.jobs, ext.attempts, ext.replies, ext.nextId, ?_⟩
  intro j r hr ht
  obtain ⟨r', hr', hs⟩ := ext.status hc' hr ht
  exact ⟨r', hr', hs ▸ ht⟩

theorem extends_appendReply (cfg : Config) (s : State) (job attempt status notice recipient t) :
    Extends s (State.appendReply cfg s job attempt status notice recipient t) := by
  rcases hr : recipient.bind (State.mailboxActor cfg) with _ | b
  · rw [State.appendReply_silent _ _ _ _ _ hr]
    exact .mk (List.Subset.refl _) (List.Subset.refl _) (List.subset_append_left _ _)
      (List.Subset.refl _) (Nat.le_add_right _ _)
  · rw [State.appendReply_queued _ _ _ _ _ hr]
    exact .mk (List.Subset.refl _) (List.Subset.refl _) (List.subset_append_left _ _)
      (List.Subset.refl _) (Nat.le_add_right _ _)

theorem extends_start (hc : Coherent cfg s) (agentName : AgentName) {current : JobRecord}
    (mailboxes : AgentName → Mailbox) (t : Timestamp)
    (found : s.getJob current.jobId = some current) :
    Extends s ((({ s with mailboxes := mailboxes }).dequeue agentName
      current.jobId).beginRunningJob current t) := by
  obtain ⟨x, hx⟩ := hc.exists_attemptForJob found
  have hx' : (({ s with mailboxes := mailboxes }).dequeue agentName current.jobId).attemptForJob
      current.jobId = some x := hx
  rw [State.beginRunningJob_eq t hx']
  exact .mk (List.subset_append_left _ _) (List.subset_append_left _ _)
    (List.Subset.refl _) (List.Subset.refl _) le_rfl

theorem Act.extends {act : Act} (hc : Coherent cfg s) (g : act.guard cfg s) :
    Extends s (act.apply cfg s) := by
  cases act with
  | issue count => exact .same rfl rfl rfl rfl (Nat.le_add_right _ _)
  | newMessage message => exact .same rfl rfl rfl rfl (Nat.le_add_right _ _)
  | accept origin job messageId i t =>
    exact .mk (List.subset_append_left _ _) (List.subset_append_left _ _)
      (List.Subset.refl _) (List.Subset.refl _) (Nat.le_add_right _ _)
  | continuation edge job t =>
    exact .mk (List.subset_append_left _ _) (List.subset_append_left _ _)
      (List.Subset.refl _) (List.subset_append_left _ _) (Nat.le_add_right _ _)
  | startRequest agentName current t => exact extends_start hc agentName s.mailboxes t g.1
  | startDelivery agentName current t =>
    simp only [Act.apply]
    rw [State.claimReplyDeliveryStart_fst]
    exact extends_start hc agentName _ t g.1
  | finish current terminal t dequeue =>
    obtain ⟨found, -, -, same, -⟩ := g
    obtain ⟨x, hx⟩ := hc.exists_attemptForJob (same.jobId ▸ found)
    simp only [Act.apply]
    rw [State.finish_eq t dequeue hx]
    exact .mk (List.subset_append_left _ _) (List.subset_append_left _ _)
      (List.Subset.refl _) (List.Subset.refl _) le_rfl
  | touch record =>
    exact .mk (List.subset_append_left _ _) (List.Subset.refl _) (List.Subset.refl _)
      (List.Subset.refl _) le_rfl
  | waiting edge t => exact .same rfl rfl rfl rfl le_rfl
  | reply job attempt status recipient t => exact extends_appendReply _ _ _ _ _ _ _ _
  | notice edge job attempt t => exact extends_appendReply _ _ _ _ _ _ _ _
  | register edge =>
    exact .mk (List.Subset.refl _) (List.Subset.refl _) (List.Subset.refl _)
      (List.subset_append_left _ _) (Nat.le_add_right _ _)
  | update edge =>
    exact .mk (List.Subset.refl _) (List.Subset.refl _) (List.Subset.refl _)
      (List.subset_append_left _ _) le_rfl
  | deliver agentName head record t =>
    refine .mk (List.subset_append_left _ _) (List.subset_append_left _ _)
      (List.Subset.refl _) (List.Subset.refl _) ?_
    show s.nextId ≤ s.nextId + 1 + 2
    omega
  | reset agentName event replyId t => exact .same rfl rfl rfl rfl le_rfl
  | consumeDelivered agentName head job t =>
    simp only [Act.apply]
    rw [State.resolveReplyDeliveryTerminal_eq]
    exact .same rfl rfl rfl rfl le_rfl
  | acknowledge agentName head t => exact .same rfl rfl rfl rfl le_rfl
  | endRequest agentName event status t => exact .same rfl rfl rfl rfl le_rfl
  | discard agentName head t => exact .same rfl rfl rfl rfl le_rfl
  | refresh agentName mailbox => exact .same rfl rfl rfl rfl le_rfl
  | disableAuto => exact .same rfl rfl rfl rfl le_rfl

/-! ### All mailboxes -/

structure Inboxes (s : State) : Prop where
  ok : ∀ a, InboxOk s a (s.mailboxes a)
  announced : ∀ r ∈ s.jobs, scheduled r = false → ∃ e ∈ (s.mailboxes r.agentName).events,
    e.eventType = .taskRequest ∧ e.payloadRef = some (.job r.jobId)
  target : ∀ r ∈ s.jobs, ∀ i, r.providerOptions.replyDeliveryInboundEventId = some i →
    ∃ e ∈ (s.mailboxes r.agentName).events, e.inboundEventId = i ∧
      replyIdFromPayload e.payloadRef = r.providerOptions.replyDeliveryReplyId ∧
      e.eventType = .taskReply

/-- Rows of known jobs need nothing new; a new job brings its events along. -/
theorem Inboxes.extend (h : Inboxes s) (ok : ∀ a, InboxOk s' a (s'.mailboxes a))
    (events : ∀ a, (s.mailboxes a).events ⊆ (s'.mailboxes a).events)
    (jobs : ∀ r ∈ s'.jobs, (∃ r₀ ∈ s.jobs, SameJob r r₀) ∨
      (scheduled r = false → ∃ e ∈ (s'.mailboxes r.agentName).events,
        e.eventType = .taskRequest ∧ e.payloadRef = some (.job r.jobId)) ∧
      ∀ i, r.providerOptions.replyDeliveryInboundEventId = some i →
        ∃ e ∈ (s'.mailboxes r.agentName).events, e.inboundEventId = i ∧
          replyIdFromPayload e.payloadRef = r.providerOptions.replyDeliveryReplyId ∧
          e.eventType = .taskReply) : Inboxes s' := by
  refine ⟨ok, ?_, ?_⟩
  · intro r hr hs
    rcases jobs r hr with ⟨r₀, hr₀, same⟩ | ⟨hnew, -⟩
    · have hs₀ : scheduled r₀ = false := by
        unfold scheduled at hs ⊢
        rwa [same.providerOptions] at hs
      obtain ⟨e, he, ht, hp⟩ := h.announced r₀ hr₀ hs₀
      rw [same.agentName, same.jobId]
      exact ⟨e, events _ he, ht, hp⟩
    · exact hnew hs
  · intro r hr i hi
    rcases jobs r hr with ⟨r₀, hr₀, same⟩ | ⟨-, hnew⟩
    · rw [same.providerOptions] at hi ⊢
      obtain ⟨e, he, hrest⟩ := h.target r₀ hr₀ i hi
      rw [same.agentName]
      exact ⟨e, events _ he, hrest⟩
    · exact hnew i hi

/-- One mailbox changes. -/
theorem Inboxes.update (h : Inboxes s) (g : Grows s s') (hc' : Coherent cfg s')
    (hmb : s'.mailboxes = Function.update s.mailboxes a mb')
    (ok : InboxOk s' a (s.mailboxes a) → InboxOk s' a mb')
    (events : (s.mailboxes a).events ⊆ mb'.events)
    (jobs : ∀ r ∈ s'.jobs, (∃ r₀ ∈ s.jobs, SameJob r r₀) ∨
      (scheduled r = false → ∃ e ∈ (s'.mailboxes r.agentName).events,
        e.eventType = .taskRequest ∧ e.payloadRef = some (.job r.jobId)) ∧
      ∀ i, r.providerOptions.replyDeliveryInboundEventId = some i →
        ∃ e ∈ (s'.mailboxes r.agentName).events, e.inboundEventId = i ∧
          replyIdFromPayload e.payloadRef = r.providerOptions.replyDeliveryReplyId ∧
          e.eventType = .taskReply) : Inboxes s' := by
  refine h.extend ?_ ?_ jobs
  · intro b
    rw [hmb]
    by_cases hb : b = a
    · subst hb
      rw [Function.update_self]
      exact ok ((h.ok b).grow g hc')
    · rw [Function.update_of_ne hb]
      exact (h.ok b).grow g hc'
  · intro b
    rw [hmb]
    by_cases hb : b = a
    · subst hb
      rwa [Function.update_self]
    · rw [Function.update_of_ne hb]
      exact List.Subset.refl _

/-- No mailbox changes. -/
theorem Inboxes.quiet (h : Inboxes s) (g : Grows s s') (hc' : Coherent cfg s')
    (hmb : s'.mailboxes = s.mailboxes) (jobs : ∀ r ∈ s'.jobs, ∃ r₀ ∈ s.jobs, SameJob r r₀) :
    Inboxes s' := by
  refine h.extend ?_ ?_ fun r hr => .inl (jobs r hr)
  · intro b
    rw [hmb]
    exact (h.ok b).grow g hc'
  · intro b
    rw [hmb]
    exact List.Subset.refl _

/-! ### Arrivals -/

theorem Coherent.inbox_attempt_lt (hc : Coherent cfg s) (h : InboxOk s a mb)
    {e : InboundEventRecord} (he : e ∈ mb.events) : e.attemptId ≠ some s.nextId := by
  obtain ⟨x, hx, hid⟩ := h.attempt he
  rw [hid]
  intro hn
  exact absurd (Option.some.inj hn) (hc.attempts.issued x hx).ne

theorem Coherent.inbox_reply_lt (hc : Coherent cfg s) (h : InboxOk s a mb)
    {e : InboundEventRecord} (he : e ∈ mb.events) :
    replyIdFromPayload e.payloadRef ≠ some s.nextId := by
  rcases h.shape e he with ⟨-, x, -, -, -, -, hp, -⟩ | ⟨-, rep, hrep, d, hp, -⟩
  · simp [hp, replyIdFromPayload]
  · rw [hp]
    intro hn
    exact absurd (Option.some.inj hn) (hc.replies.issued rep hrep).ne

/-- A job that is not a scheduled delivery arrives with its request event. -/
theorem Inboxes.accept (h : Inboxes s) (hc : Coherent cfg s) {job : JobRecord} {messageId i t}
    (hc' : Coherent cfg (s.accept job messageId i t)) (hs : scheduled job = false)
    (target : ∀ i, job.providerOptions.replyDeliveryInboundEventId = some i →
      ∃ e ∈ (s.mailboxes job.agentName).events, e.inboundEventId = i ∧
        replyIdFromPayload e.payloadRef = job.providerOptions.replyDeliveryReplyId ∧
        e.eventType = .taskReply) :
    Inboxes (s.accept job messageId i t) := by
  have ext : Extends s (s.accept job messageId i t) :=
    .mk (List.subset_append_left _ _) (List.subset_append_left _ _) (List.Subset.refl _)
      (List.Subset.refl _) (Nat.le_add_right _ _)
  have hnewer : ∀ r ∈ (s.mailboxes job.agentName).events, r.inboundEventId < s.nextId + 1 :=
    fun r hr => ((h.ok _).issued r hr).trans (Nat.lt_succ_self _)
  refine h.update (ext.grows hc') hc' rfl (fun hok => ?_) ?_ ?_
  · refine hok.rows hc' (.fresh _ hnewer ?_ ?_ rfl (fun _ r hr => ?_) fun i hi => ?_)
      (Mailbox.events_enqueue _ _ _ _)
    · show s.nextId + 1 < s.nextId + 2
      omega
    · exact .inl ⟨rfl, _, List.mem_append_right _ (List.mem_singleton.mpr rfl), rfl, rfl, rfl, rfl,
        job, List.mem_append_right _ (List.mem_singleton.mpr rfl), rfl, hs⟩
    · exact hc.inbox_attempt_lt (h.ok _) hr
    · contradiction
  · rw [Mailbox.events_enqueue]
    exact List.subset_append_left _ _
  · intro r hr
    rcases List.mem_append.mp hr with hr | hr
    · exact .inl ⟨r, hr, SameJob.refl r⟩
    · rw [List.mem_singleton.mp hr]
      have hmb : (s.accept job messageId i t).mailboxes job.agentName = _ :=
        Function.update_self _ _ _
      rw [hmb, Mailbox.events_enqueue]
      refine .inr ⟨fun _ => ⟨_, List.mem_append_right _ (List.mem_singleton.mpr rfl), rfl, rfl⟩,
        fun i hi => ?_⟩
      obtain ⟨e, he, hrest⟩ := target i hi
      exact ⟨e, List.mem_append_left _ he, hrest⟩

/-- A reply to a started job arrives at the agent that asked for it. -/
theorem Inboxes.appendReply (h : Inboxes s) (hc : Coherent cfg s) {job : JobRecord}
    {attempt : AttemptRecord} {status notice recipient t} (hx : attempt ∈ s.attempts)
    (hasked : ∀ caller, recipient = some caller → ∃ r ∈ s.jobs, r.jobId = attempt.jobId ∧
      r.request.fromActor = caller ∧ r.status.pending = false) :
    Inboxes (State.appendReply cfg s job attempt status notice recipient t) := by
  have hc' : Coherent cfg (State.appendReply cfg s job attempt status notice recipient t) :=
    hc.appendReply hx
  have ext := extends_appendReply cfg s job attempt status notice recipient t
  rcases hr : recipient.bind (State.mailboxActor cfg) with _ | b
  · refine h.quiet (ext.grows hc') hc' ?_ ?_
    · rw [State.appendReply_silent _ _ _ _ _ hr]
    · intro r hmem
      rw [State.appendReply_silent _ _ _ _ _ hr] at hmem
      exact ⟨r, hmem, SameJob.refl r⟩
  · have hcaller : ∃ caller, recipient = some caller ∧ caller = .agent b := by
      obtain ⟨caller, hrec, hactor⟩ := Option.bind_eq_some_iff.mp hr
      refine ⟨caller, hrec, ?_⟩
      cases caller with
      | agent name =>
        simp only [State.mailboxActor] at hactor
        split_ifs at hactor
        rw [Option.some.inj hactor]
      | _ => simp [State.mailboxActor] at hactor
    obtain ⟨caller, hrec, rfl⟩ := hcaller
    obtain ⟨r, hrmem, hrid, hfrom, hpending⟩ := hasked _ hrec
    have heq := State.appendReply_queued (s := s) job attempt status notice t hr
    have hnewer : ∀ r ∈ (s.mailboxes b).events, r.inboundEventId < s.nextId + 1 :=
      fun r hr => ((h.ok _).issued r hr).trans (Nat.lt_succ_self _)
    refine h.update (ext.grows hc') hc' (by rw [heq]) (fun hok => ?_) ?_ ?_
    · refine hok.rows hc' (.fresh _ hnewer ?_ ?_ rfl (fun hreq => ?_) fun i hi e he => ?_)
        (Mailbox.events_enqueue _ _ _ _)
      · rw [heq]
        show s.nextId + 1 < s.nextId + 2
        omega
      · rw [heq]
        refine .inr ⟨rfl, s.replyRow job attempt status notice t,
          List.mem_append_right _ (List.mem_singleton.mpr rfl), none, rfl, rfl, rfl, ?_,
            attempt, hx,
          rfl, r, hrmem, hrid, hfrom, hpending⟩
        intro j hj
        contradiction
      · contradiction
      · obtain rfl := Option.some.inj hi
        exact hc.inbox_reply_lt (h.ok _) he
    · rw [Mailbox.events_enqueue]
      exact List.subset_append_left _ _
    · intro r hmem
      rw [heq] at hmem
      exact .inl ⟨r, hmem, SameJob.refl r⟩

/-! ### Ends and rewrites -/

/-- The event a delivery job works on is a reply with the identifier the job has. -/
theorem Inboxes.delivery_event (h : Inboxes s) {r : JobRecord} (hr : r ∈ s.jobs)
    {i : InboundEventId} {replyId : ReplyId}
    (hi : r.providerOptions.replyDeliveryInboundEventId = some i)
    (hreply : r.providerOptions.replyDeliveryReplyId = some replyId) {e : InboundEventRecord}
    (he : e ∈ (s.mailboxes r.agentName).events) (hid : e.inboundEventId = i) :
    replyIdFromPayload e.payloadRef = some replyId ∧ e.eventType = .taskReply := by
  obtain ⟨e₀, he₀, hid₀, hpay, ht⟩ := h.target r hr i hi
  have same := (h.ok _).agree e he e₀ he₀ (hid.trans hid₀.symm)
  exact ⟨same.reply.trans (hpay.trans hreply), same.eventType.trans ht⟩

theorem not_job_of_reply {p : Option PayloadRef} {replyId : ReplyId}
    (h : replyIdFromPayload p = some replyId) (j : JobId) : p ≠ some (.job j) := by
  rintro rfl
  contradiction

/-- The end of a delivery job consumes its reply event or puts it back. -/
theorem InboxOk.resolveDelivery (hc : Coherent cfg s) (h : InboxOk s a mb) {job : JobRecord}
    (t : Timestamp)
    (event : ∀ i replyId, job.providerOptions.replyDeliveryInboundEventId = some i →
      job.providerOptions.replyDeliveryReplyId = some replyId →
      ∀ e ∈ mb.events, e.inboundEventId = i → replyIdFromPayload e.payloadRef = some replyId) :
    InboxOk s a (State.resolveDelivery mb job t) := by
  unfold State.resolveDelivery
  split
  · rename_i i replyId hi hreply
    have hev := fun e (he : e ∈ mb.latestEvents) =>
      event i replyId hi hreply e (mem_of_mem_latest he)
    split
    · exact h
    · split_ifs
      · refine h.markTerminal hc _ _ _ rfl fun e he hid j hp => ?_
        exact absurd hp (not_job_of_reply (hev e he hid) j)
      · refine h.rewriteHead hc _ _ _ _ hev fun j hj => ?_
        contradiction
  · exact h

theorem run_resolveDelivery (mb : Mailbox) (job : JobRecord) (t : Timestamp) :
    Mailbox.Run mb (State.resolveDelivery mb job t) := by
  unfold State.resolveDelivery
  split
  · split
    · exact .refl
    · split_ifs
      · exact .single (.markTerminal _ _ _ _ rfl)
      · exact .single (.rewriteHead _ _ _ _ _)
  · exact .refl

/-- The event found through the attempt of an ended job may be ended. -/
theorem InboxOk.finishInbound (hc : Coherent cfg s) (h : InboxOk s a mb) {x : AttemptRecord}
    {status : JobStatus} (t : Timestamp) (hx : x ∈ s.attempts)
    (ended : ∀ r, s.getJob x.jobId = some r → r.status.terminal = true) :
    InboxOk s a (finishInbound mb x.attemptId status t) := by
  unfold CodexBridge.Dispatch.finishInbound
  split
  · exact h.congr hc (Mailbox.events_rebuild _ _)
  · rename_i inbound hin
    obtain ⟨hmem, hatt⟩ := findLast_some hin
    have hatt : inbound.attemptId = some x.attemptId := by simpa using hatt
    -- whichever row of that event is the latest, it belongs to the ended job
    have key : ∀ e ∈ mb.latestEvents, e.inboundEventId = inbound.inboundEventId →
        ∀ j, e.payloadRef = some (.job j) → ∀ r, s.getJob j = some r →
          r.status.terminal = true := by
      intro e he hid j hp r hr
      have same := h.agree e (mem_of_mem_latest he) inbound hmem hid
      rcases h.shape e (mem_of_mem_latest he) with ⟨-, y, hy, -, hyid, -, hpy, -⟩ |
        ⟨-, rep, -, d, hpy, -⟩
      · rw [hpy] at hp
        obtain rfl : y.jobId = j := by simpa using hp
        have hsame := hc.attempts.key y hy x hx
          (.inl (Option.some.inj (hyid.symm.trans (same.attemptId.trans hatt))))
        exact ended r (hsame.jobId ▸ hr)
      · simp [hpy] at hp
    split_ifs
    · exact h.congr hc (Mailbox.events_rebuild _ _)
    · exact h.markTerminal hc _ _ _ rfl key
    · exact h.markTerminal hc _ _ _ rfl key

theorem run_finishInbound (mb : Mailbox) (attemptId status t) :
    Mailbox.Run mb (finishInbound mb attemptId status t) := by
  unfold finishInbound
  split
  · exact .single (.rebuild _)
  · split_ifs
    · exact .single (.rebuild _)
    · exact .single (.markTerminal _ _ _ _ rfl)
    · exact .single (.markTerminal _ _ _ _ rfl)

theorem run_finishMailbox (mb : Mailbox) (terminal attemptId t) :
    Mailbox.Run mb (finishMailbox mb terminal attemptId t) := by
  unfold finishMailbox
  dsimp only
  split_ifs
  · exact (run_finishInbound _ _ _ _).trans (run_resolveDelivery _ _ _)
  · exact run_finishInbound _ _ _ _

theorem Inboxes.finish (h : Inboxes s) (hc : Coherent cfg s) {current terminal : JobRecord}
    {t : Timestamp} {dequeue : Bool} (g : (Act.finish current terminal t dequeue).guard cfg s) :
    Inboxes (s.finish terminal t dequeue) := by
  have hc' : Coherent cfg (s.finish terminal t dequeue) := hc.finish g
  have ext : Extends s (s.finish terminal t dequeue) := Act.extends hc g
  obtain ⟨found, -, -, same, ends⟩ := g
  obtain ⟨x, hx⟩ := hc.exists_attemptForJob (same.jobId ▸ found)
  obtain ⟨hxmem, hxid⟩ := State.attemptForJob_mem hx
  have heq := State.finish_eq t dequeue hx
  have hjob : (s.finish terminal t dequeue).getJob terminal.jobId = some terminal := by
    rw [heq]
    simp [State.getJob]
  refine h.update (ext.grows hc') hc' (by rw [heq]) (fun hok => ?_) ?_ ?_
  · have hin : InboxOk (s.finish terminal t dequeue) terminal.agentName
        (finishInbound (s.mailboxes terminal.agentName) x.attemptId terminal.status t) := by
      refine hok.finishInbound hc' t (ext.attempts hxmem) fun r hr => ?_
      rw [hxid, hjob] at hr
      exact Option.some.inj hr ▸ ends
    unfold finishMailbox
    dsimp only
    split_ifs
    · refine hin.resolveDelivery hc' t fun i replyId hi hreply e he hid => ?_
      -- the event was in the mailbox before the job ended
      obtain ⟨hcmem, -⟩ := State.getJob_mem found
      rw [same.providerOptions] at hi hreply
      obtain ⟨e₀, he₀, hid₀, hpay, -⟩ := h.target current hcmem i hi
      rw [← same.agentName] at he₀
      have := hin.agree e he e₀
        ((run_finishInbound _ _ _ _).events_subset he₀) (hid.trans hid₀.symm)
      exact this.reply.trans (hpay.trans hreply)
    · exact hin
  · exact (run_finishMailbox _ _ _ _).events_subset
  · intro r hr
    rw [heq] at hr
    rcases List.mem_append.mp hr with hr | hr
    · exact .inl ⟨r, hr, SameJob.refl r⟩
    · rw [List.mem_singleton.mp hr]
      exact .inl ⟨current, (State.getJob_mem found).1, same⟩

/-! ### Starts -/

theorem InboxOk.claimForStart (hc : Coherent cfg s) (h : InboxOk s a mb) (inbound t)
    (unanswered : ∀ e, mb.headPendingEvent = some e → e.eventType = .taskRequest →
      ∀ r ∈ mb.events, r.attemptId = e.attemptId → r.eventType = .taskRequest) :
    InboxOk s a (claimForStart mb inbound t) := by
  unfold CodexBridge.Dispatch.claimForStart
  split
  · exact h.congr hc (Mailbox.events_rebuild _ _)
  · split_ifs
    · exact h.congr hc (Mailbox.events_rebuild _ _)
    · exact h
    · exact h.claim hc _ _ _ unanswered

theorem run_claimForStart (mb : Mailbox) (inbound t) :
    Mailbox.Run mb (claimForStart mb inbound t) := by
  unfold claimForStart
  split
  · exact .single (.rebuild _)
  · split_ifs
    · exact .single (.rebuild _)
    · exact .refl
    · exact .single (.claim _ _ _)

/-- A job starts after its mailbox may have been claimed for it already. -/
theorem Inboxes.start (h : Inboxes s) (hc : Coherent cfg s) {current : JobRecord} {t : Timestamp}
    (mb₀ : Mailbox) (found : s.getJob current.jobId = some current)
    (queued : current.jobId ∈ s.memory.queue current.agentName)
    (free : s.memory.active current.agentName = none)
    (ok₀ : ∀ s' : State, Coherent cfg s' → InboxOk s' current.agentName
      (s.mailboxes current.agentName) → InboxOk s' current.agentName mb₀)
    (run₀ : Mailbox.Run (s.mailboxes current.agentName) mb₀)
    (unanswered : ∀ e, mb₀.headPendingEvent = some e → e.eventType = .taskRequest →
      ∀ r ∈ mb₀.events, r.attemptId = e.attemptId → r.eventType = .taskRequest) :
    Inboxes ((({ s with
      mailboxes := Function.update s.mailboxes current.agentName mb₀ }).dequeue current.agentName
        current.jobId).beginRunningJob current t) := by
  have hc' := hc.start (t := t) (Function.update s.mailboxes current.agentName mb₀) found queued
    free
  have ext := extends_start hc current.agentName
    (Function.update s.mailboxes current.agentName mb₀) t found
  obtain ⟨x, hx⟩ := hc.exists_attemptForJob found
  have hx' : (({ s with
      mailboxes := Function.update s.mailboxes current.agentName mb₀ }).dequeue current.agentName
        current.jobId).attemptForJob current.jobId = some x := hx
  have hbox : (({ s with
      mailboxes := Function.update s.mailboxes current.agentName mb₀ }).dequeue current.agentName
        current.jobId).mailboxes current.agentName = mb₀ := Function.update_self _ _ _
  rw [State.beginRunningJob_eq t hx'] at hc' ext ⊢
  refine h.update (ext.grows hc') hc' (Function.update_idem _ _ _) (fun hok => ?_) ?_ ?_
  · exact ((ok₀ _ hc' hok).claimForStart hc' _ _ unanswered).congr hc' (by rw [hbox])
  · rw [hbox]
    exact Mailbox.Run.events_subset (run₀.trans (run_claimForStart _ _ _))
  · intro r hr
    rcases List.mem_append.mp hr with hr | hr
    · exact .inl ⟨r, hr, SameJob.refl r⟩
    · rw [List.mem_singleton.mp hr]
      exact .inl ⟨current, (State.getJob_mem found).1, ⟨rfl, rfl, rfl, rfl⟩⟩

theorem Coherent.agent_of_queue (hc : Coherent cfg s) {current : JobRecord} {agentName : AgentName}
    (found : s.getJob current.jobId = some current)
    (queued : current.jobId ∈ s.memory.queue agentName) :
    current.agentName = agentName ∧ current.status.pending = true := by
  obtain ⟨r, hr, ha, hp⟩ := (hc.board.mem_queue).mp queued
  obtain rfl := Option.some.inj (hr.symm.trans found)
  exact ⟨ha, hp⟩

theorem Inboxes.startRequest (h : Inboxes s) (hc : Coherent cfg s) {agentName : AgentName}
    {current : JobRecord} {t : Timestamp}
    (g : (Act.startRequest agentName current t).guard cfg s) :
    Inboxes ((Act.startRequest agentName current t).apply cfg s) := by
  obtain ⟨found, hclaim, queued, free⟩ := g
  obtain ⟨rfl, hp⟩ := hc.agent_of_queue found queued
  have hself : ({ s with
      mailboxes := Function.update s.mailboxes current.agentName
        (s.mailboxes current.agentName) } : State) = s := by
    rw [Function.update_eq_self]
  have key := h.start (t := t) hc (s.mailboxes current.agentName) found queued free
    (fun _ _ => id) .refl ?_
  · rw [hself] at key
    exact key
  · -- the head announces the job, which has not been started
    intro e hhead hreq r hr hid
    obtain ⟨e', hpeek, hjob⟩ := Option.bind_eq_some_iff.mp hclaim
    obtain ⟨hhead', -⟩ := Mailbox.peekNext_eq_some hpeek
    obtain rfl := Option.some.inj (hhead.symm.trans hhead')
    have hemem := mem_of_mem_latest (Mailbox.headPendingEvent_mem hhead).1
    obtain ⟨-, x, hx, -, hxid, -, hpx, -⟩ := ((h.ok _).shape e hemem).resolve_right
      fun ha => by simp [ha.1] at hreq
    rw [hpx] at hjob
    have hxj : x.jobId = current.jobId := by simpa using hjob
    exact (h.ok _).unanswered hc hx (hxj ▸ found) hp hr (hid.trans hxid)

theorem State.mem_claimableReplyDeliveryJobIds {agentName : AgentName} {j : JobId}
    (h : j ∈ s.claimableReplyDeliveryJobIds agentName) :
    ∃ head, s.headReplyEvent agentName = some head ∧
      deliveryJobIdFromPayload head.payloadRef = some j := by
  unfold State.claimableReplyDeliveryJobIds at h
  split at h
  · contradiction
  · rename_i head hhead
    refine ⟨head, hhead, ?_⟩
    split at h
    · contradiction
    · rename_i j' hj'
      split at h
      · contradiction
      · split_ifs at h
        · rw [List.mem_singleton.mp h]
          exact hj'
        · contradiction

theorem State.headReplyEvent_eq_some {agentName : AgentName} {head : InboundEventRecord}
    (h : s.headReplyEvent agentName = some head) :
    (s.mailboxes agentName).headPendingEvent = some head ∧ head.eventType = .taskReply := by
  obtain ⟨hhead, ht⟩ := Option.filter_eq_some_iff.mp h
  exact ⟨hhead, by simpa using ht⟩

/-- What a claim for a delivery start does to the mailbox. -/
theorem State.claimReplyDeliveryStart_mailboxes (s : State) (job : JobRecord) (t : Timestamp) :
    ∃ mb₀, (s.claimReplyDeliveryStart job t).1.mailboxes =
        Function.update s.mailboxes job.agentName mb₀ ∧
      (mb₀ = s.mailboxes job.agentName ∨
        ∃ id, mb₀ = ((s.mailboxes job.agentName).claim t id (some t)).1) := by
  have hself : s.mailboxes =
      Function.update s.mailboxes job.agentName (s.mailboxes job.agentName) := by
    rw [Function.update_eq_self]
  unfold State.claimReplyDeliveryStart
  split_ifs
  · exact ⟨_, hself, .inl rfl⟩
  · split
    · exact ⟨_, hself, .inl rfl⟩
    · split
      · exact ⟨_, hself, .inl rfl⟩
      · split_ifs
        · exact ⟨_, hself, .inl rfl⟩
        · exact ⟨_, rfl, .inr ⟨_, rfl⟩⟩

theorem Inboxes.startDelivery (h : Inboxes s) (hc : Coherent cfg s) {agentName : AgentName}
    {current : JobRecord} {t : Timestamp}
    (g : (Act.startDelivery agentName current t).guard cfg s) :
    Inboxes ((Act.startDelivery agentName current t).apply cfg s) := by
  obtain ⟨found, hclaim, queued, free, -⟩ := g
  obtain ⟨rfl, hp⟩ := hc.agent_of_queue found queued
  obtain ⟨head, hhead, -⟩ := State.mem_claimableReplyDeliveryJobIds hclaim
  obtain ⟨hhead, ht⟩ := State.headReplyEvent_eq_some hhead
  obtain ⟨mb₀, hmb, hmb₀⟩ := s.claimReplyDeliveryStart_mailboxes current t
  simp only [Act.apply]
  rw [State.claimReplyDeliveryStart_fst, hmb]
  have hquiet : ∀ e, (s.mailboxes current.agentName).headPendingEvent = some e →
      e.eventType ≠ .taskRequest := by
    intro e he
    obtain rfl := Option.some.inj (hhead.symm.trans he)
    rw [ht]
    decide
  refine h.start hc mb₀ found queued free ?_ ?_ ?_
  · intro s' hc' hok
    rcases hmb₀ with rfl | ⟨id, rfl⟩
    · exact hok
    · exact hok.claim hc' _ _ _ fun e he hreq => absurd hreq (hquiet e he)
  · rcases hmb₀ with rfl | ⟨id, rfl⟩
    · exact .refl
    · exact .single (.claim _ _ _)
  · intro e he hreq
    refine absurd hreq ?_
    rcases hmb₀ with rfl | ⟨id, rfl⟩
    · exact hquiet e he
    · rcases Mailbox.headPendingEvent_claim t id (some t) hhead with hh | hh
      · obtain rfl := Option.some.inj (hh.symm.trans he)
        rw [ht]
        decide
      · obtain rfl := Option.some.inj (hh.symm.trans he)
        rw [show (Mailbox.deliveryRecord head _).eventType = head.eventType from rfl, ht]
        decide

/-! ### One act -/

/-- The jobs of an act that appends none are the jobs it found. -/
theorem same_of_eq (h : s'.jobs = s.jobs) : ∀ r ∈ s'.jobs, ∃ r₀ ∈ s.jobs, SameJob r r₀ :=
  fun r hr => ⟨r, h ▸ hr, SameJob.refl r⟩

/-- Only one mailbox changes, and no log. -/
theorem Inboxes.mailbox (h : Inboxes s) (hc : Coherent cfg s) (ok : InboxOk s a mb')
    (events : (s.mailboxes a).events ⊆ mb'.events) : Inboxes (s.setMailbox a mb') := by
  have hc' : Coherent cfg (s.setMailbox a mb') := hc.mailboxes _
  have ext : Extends s (s.setMailbox a mb') := .same rfl rfl rfl rfl le_rfl
  refine h.update (ext.grows hc') hc' rfl (fun _ => ?_) events fun r hr =>
    .inl (same_of_eq rfl r hr)
  exact ok.grow (ext.grows hc') hc'

theorem Inboxes.deliver (h : Inboxes s) (hc : Coherent cfg s) {agentName : AgentName}
    {head : InboundEventRecord} {record : ReplyRecord} {t : Timestamp}
    (g : (Act.deliver agentName head record t).guard cfg s) :
    Inboxes ((Act.deliver agentName head record t).apply cfg s) := by
  have hc' : Coherent cfg ((Act.deliver agentName head record t).apply cfg s) := Act.coherent g hc
  have ext : Extends s ((Act.deliver agentName head record t).apply cfg s) := Act.extends hc g
  obtain ⟨known, hhead, hpay, hrec⟩ := g
  obtain ⟨hhead, ht⟩ := State.headReplyEvent_eq_some hhead
  obtain ⟨hmem, -⟩ := Mailbox.headPendingEvent_mem hhead
  refine h.update (ext.grows hc') hc' rfl (fun hok => ?_) ?_ ?_
  · refine hok.rewriteHead hc' _ _ _ _ (fun e he hid => ?_) fun j hj => ?_
    · obtain rfl := Mailbox.eq_of_mem_latestEvents he hmem hid
      rw [hpay]
      rfl
    · obtain rfl := Option.some.inj hj
      exact ⟨_, List.mem_append_right _ (List.mem_singleton.mpr rfl), rfl, ⟨rfl, rfl, rfl, rfl⟩⟩
  · exact (Mailbox.Step.rewriteHead _ _ _ _ _).events_subset
  · intro r hr
    rcases List.mem_append.mp hr with hr | hr
    · exact .inl ⟨r, hr, SameJob.refl r⟩
    · rw [List.mem_singleton.mp hr]
      have hmb : ((Act.deliver agentName head record t).apply cfg s).mailboxes agentName = _ :=
        Function.update_self _ _ _
      refine .inr ⟨fun hs => by contradiction, fun i hi => ?_⟩
      obtain rfl := Option.some.inj hi
      refine ⟨head, ?_, rfl, ?_, ht⟩
      · rw [show (s.buildJobRecord cfg agentName (State.replyDeliveryRequest cfg agentName record)
          (State.replyDeliveryOptions head.inboundEventId record.replyId) none t).agentName =
            agentName from rfl, hmb]
        exact (Mailbox.Step.rewriteHead _ _ _ _ _).events_subset (mem_of_mem_latest hmem)
      · rw [hpay]
        rfl

/-- A stale or a live head: the job of a request that is not live has ended. -/
theorem Inboxes.stale_ended (h : Inboxes s) (hc : Coherent cfg s) {e : InboundEventRecord}
    (he : e ∈ (s.mailboxes a).latestEvents) (hstale : s.eventIsLive e = false) {j : JobId}
    (hp : e.payloadRef = some (.job j)) {r : JobRecord} (hr : s.getJob j = some r) :
    r.status.terminal = true := by
  have hemem := mem_of_mem_latest he
  rcases (h.ok a).shape e hemem with ⟨hreq, x, hx, -, hid, hmsg, hpx, -⟩ | ⟨-, rep, -, d, hpx, -⟩
  · rw [hpx] at hp
    obtain rfl : x.jobId = j := by simpa using hp
    obtain ⟨m, hm, hmid⟩ := hc.attempts.message x hx
    obtain ⟨c, hcm⟩ := State.exists_getMessage hm
    obtain ⟨y, hy⟩ := hc.exists_attemptForJob hr
    have hget : s.getAttempt x.attemptId = some y := (hc.attempts.getAttempt_eq hx).trans hy
    rw [hc.attempts.ended x.jobId r y hr hy]
    simpa [State.eventIsLive, hmsg, ← hmid, hcm, hid, hget, hreq] using hstale
  · simp [hpx] at hp

/-- Every act keeps every mailbox in step with the logs. -/
theorem Act.inboxes {act : Act} (g : act.guard cfg s) (hc : Coherent cfg s) (h : Inboxes s) :
    Inboxes (act.apply cfg s) := by
  have hc' : Coherent cfg (act.apply cfg s) := Act.coherent g hc
  have ext : Extends s (act.apply cfg s) := Act.extends hc g
  cases act with
  | issue count => exact h.quiet (ext.grows hc') hc' rfl (same_of_eq rfl)
  | newMessage message => exact h.quiet (ext.grows hc') hc' rfl (same_of_eq rfl)
  | accept origin job messageId i t =>
    cases origin with
    | submitted =>
      refine h.accept hc hc' ?_ ?_
      · rw [scheduled, g.2.providerOptions]
        rfl
      · intro i hi
        rw [g.2.providerOptions] at hi
        contradiction
    | retried source =>
      refine h.accept hc hc' ?_ ?_
      · rw [scheduled, g.2.providerOptions]
        simp [State.retryProviderOptionsForJob]
      · intro i hi
        rw [g.2.providerOptions] at hi ⊢
        rw [g.2.agentName]
        exact h.target source (State.getJob_mem g.2.found).1 i hi
  | continuation edge job t =>
    have haccept : Inboxes (s.accept job edge.parentMessageId
        (s.nextRetryIndex edge.parentMessageId job.agentName) t) := by
      obtain ⟨hemem, -⟩ := State.getEdge_mem g.2.found
      obtain ⟨x, hx, -, hid⟩ := hc.edges.parent_attempt edge hemem
      obtain ⟨m, hm, hmid⟩ := hc.attempts.message x hx
      refine h.accept hc (hc.accept _ t g.1 ⟨m, hm, hmid.trans hid⟩
        (deliveryOptions_none g.2.providerOptions)) ?_ ?_
      · rw [scheduled, g.2.providerOptions]
        rfl
      · intro i hi
        rw [g.2.providerOptions] at hi
        contradiction
    have ext' : Extends (s.accept job edge.parentMessageId
        (s.nextRetryIndex edge.parentMessageId job.agentName) t)
        ((Act.continuation edge job t).apply cfg s) :=
      .mk (List.Subset.refl _) (List.Subset.refl _) (List.Subset.refl _)
        (List.subset_append_left _ _) le_rfl
    exact haccept.quiet (ext'.grows hc') hc' rfl (same_of_eq rfl)
  | startRequest agentName current t => exact h.startRequest hc g
  | startDelivery agentName current t => exact h.startDelivery hc g
  | finish current terminal t dequeue => exact h.finish hc g
  | touch record =>
    obtain ⟨current, found, same, -⟩ := g
    refine h.quiet (ext.grows hc') hc' rfl fun r hr => ?_
    rcases List.mem_append.mp hr with hr | hr
    · exact ⟨r, hr, SameJob.refl r⟩
    · rw [List.mem_singleton.mp hr]
      exact ⟨current, (State.getJob_mem found).1, same⟩
  | waiting edge t => exact h.quiet (ext.grows hc') hc' rfl (same_of_eq rfl)
  | reply job attempt status recipient t =>
    obtain ⟨hx, ⟨current, found, same, hterm⟩, hrec⟩ := g
    obtain ⟨hxmem, hxid⟩ := State.attemptForJob_mem hx
    refine h.appendReply hc hxmem fun caller hcaller => ?_
    obtain ⟨hcmem, hcid⟩ := State.getJob_mem found
    refine ⟨current, hcmem, hcid.trans hxid.symm, ?_, JobStatus.not_pending_of_terminal hterm⟩
    rw [← same.request]
    rcases hrec with hrec | hrec
    · rw [hrec] at hcaller
      contradiction
    · rw [hrec] at hcaller
      exact Option.some.inj hcaller
  | notice edge job attempt t =>
    obtain ⟨hedge, found, hx⟩ := g
    obtain ⟨hxmem, hxid⟩ := State.attemptForJob_mem hx
    refine h.appendReply hc hxmem fun caller hcaller => ?_
    obtain ⟨r, hr, hrid, -, hfrom, hp⟩ := hc.edges.parent edge hedge
    obtain ⟨-, hjid⟩ := State.getJob_mem found
    exact ⟨r, hr, hrid.trans (hjid.symm.trans hxid.symm), hfrom.trans (Option.some.inj hcaller), hp⟩
  | register edge => exact h.quiet (ext.grows hc') hc' rfl (same_of_eq rfl)
  | update edge => exact h.quiet (ext.grows hc') hc' rfl (same_of_eq rfl)
  | deliver agentName head record t => exact h.deliver hc g
  | reset agentName event replyId t =>
    obtain ⟨hlatest, hreply, -⟩ := g
    obtain ⟨hmem, -⟩ := Mailbox.getLatest_eq_some.mp hlatest
    refine h.mailbox hc ((h.ok agentName).rewriteHead hc _ _ _ _ (fun e he hid => ?_)
      fun j hj => ?_) (Mailbox.Step.rewriteHead _ _ _ _ _).events_subset
    · obtain rfl := Mailbox.eq_of_mem_latestEvents he hmem hid
      rcases hreply with hreply | ⟨r, hr, rfl, hi, hrep⟩
      · exact hreply
      · exact (h.delivery_event hr hi hrep (mem_of_mem_latest hmem) rfl).1
    · contradiction
  | consumeDelivered agentName head job t =>
    obtain ⟨-, -, found, -⟩ := g
    obtain ⟨hjmem, -⟩ := State.getJob_mem found
    simp only [Act.apply, State.resolveReplyDeliveryTerminal]
    split_ifs
    · refine h.mailbox hc ((h.ok _).resolveDelivery hc t fun i replyId hi hrep e he hid => ?_)
        (run_resolveDelivery _ _ _).events_subset
      exact (h.delivery_event hjmem hi hrep he hid).1
    · exact h
  | acknowledge agentName head t =>
    obtain ⟨hhead, ht, -⟩ := g
    have hmem := mem_of_mem_latest (Mailbox.headPendingEvent_mem hhead).1
    refine h.mailbox hc ?_ (Mailbox.Step.ackReply _ _ _ _).events_subset
    · obtain ⟨mb₁, t', hmb₁, hack⟩ :=
        (s.mailboxes agentName).ackReply_cases t head.inboundEventId (some t) (some t)
      have hok₁ : InboxOk s agentName mb₁ := by
        rcases hmb₁ with rfl | ⟨claimedAt, rfl⟩
        · exact h.ok agentName
        · refine (h.ok agentName).claim hc _ _ _ fun e he hreq => ?_
          obtain rfl := Option.some.inj (hhead.symm.trans he)
          rw [ht] at hreq
          contradiction
      have hsub : (s.mailboxes agentName).events ⊆ mb₁.events := by
        rcases hmb₁ with rfl | ⟨claimedAt, rfl⟩
        · exact List.Subset.refl _
        · exact (Mailbox.Step.claim _ _ _).events_subset
      rcases hack with hack | hack
      · exact hok₁.congr hc (by rw [hack, Mailbox.events_rebuild])
      · rw [hack]
        refine hok₁.markTerminal hc _ _ _ rfl fun e he hid j hp => ?_
        -- the acknowledged event is a reply
        have same := hok₁.agree e (mem_of_mem_latest he) head (hsub hmem) hid
        rcases hok₁.shape e (mem_of_mem_latest he) with hann | ⟨-, rep, -, d, hpx, -⟩
        · rw [← same.eventType, hann.1] at ht
          contradiction
        · simp [hpx] at hp
  | endRequest agentName event status t =>
    obtain ⟨hlatest, hreq, ends, hatt⟩ := g
    obtain ⟨hmem, -⟩ := Mailbox.getLatest_eq_some.mp hlatest
    refine h.mailbox hc ((h.ok agentName).markTerminal hc _ _ _ ends
      fun e he hid j hp r hr => ?_) (Mailbox.Step.markTerminal _ _ _ _ ends).events_subset
    obtain rfl := Mailbox.eq_of_mem_latestEvents he hmem hid
    obtain ⟨-, x, hx, -, hxid, -, hpx, -⟩ :=
      ((h.ok agentName).shape e (mem_of_mem_latest hmem)).resolve_right
        fun ha => by simp [ha.1] at hreq
    rw [hpx] at hp
    obtain rfl : x.jobId = j := by simpa using hp
    obtain ⟨y, hy⟩ := hc.exists_attemptForJob hr
    have hget : s.getAttempt x.attemptId = some y := (hc.attempts.getAttempt_eq hx).trans hy
    rw [hc.attempts.ended x.jobId r y hr hy]
    simpa [hxid, hget] using hatt
  | discard agentName head t =>
    obtain ⟨hhead, hstale⟩ := g
    obtain ⟨hmem, -⟩ := Mailbox.headPendingEvent_mem hhead
    refine h.mailbox hc ((h.ok agentName).markTerminal hc _ _ _ rfl
      fun e he hid j hp r hr => ?_)
      (Mailbox.Step.markTerminal _ _ .abandoned _ rfl).events_subset
    obtain rfl := Mailbox.eq_of_mem_latestEvents he hmem hid
    exact h.stale_ended hc he hstale hp hr
  | refresh agentName t =>
    exact h.mailbox hc ((h.ok agentName).congr hc (Mailbox.events_rebuild _ _))
      (Mailbox.Step.rebuild t).events_subset
  | disableAuto => exact h.quiet (ext.grows hc') hc' rfl (same_of_eq rfl)

theorem Inboxes.initial (auto : Bool) : Inboxes (State.initial auto) := by
  refine ⟨fun a => InboxOk.empty _ a a, ?_, ?_⟩ <;>
    simp [State.initial]

end CodexBridge.Dispatch
