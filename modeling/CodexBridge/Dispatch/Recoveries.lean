import CodexBridge.Dispatch.Carriers
import CodexBridge.Dispatch.HalfWritten

/-! Crashes in the middle of a callback continuation. The rows of a prefix are in the
stores, the daemon starts again and repairs the callbacks any number of times. -/

namespace CodexBridge.Dispatch

open AppendLog
open Mailbox (InboundEventRecord)

variable {cfg : Config} {w : World} {s s' : State} {x : EdgeId} {e : CallbackEdgeRecord}

/-! ### What is to be recovered -/

/-- The jobs of the parent's agent that go on with an edge. -/
def State.continuationJobs (s : State) (edge : CallbackEdgeRecord) : List JobRecord :=
  (s.listAgent edge.callbackTargetAgent).filter
    fun job => decide (job.request.routeOptions.callbackEdgeId = some edge.edgeId)

/-- The job is pending, and its attempt is announced in the mailbox of the parent's agent. -/
structure Startable (s : State) (edge : CallbackEdgeRecord) (job : JobRecord) : Prop where
  latest : s.getJob job.jobId = some job
  pending : job.status.pending = true
  announced : ∃ attempt, s.attemptForJob job.jobId = some attempt ∧
    ∃ event ∈ (s.mailboxes edge.parentAgent).pendingEvents none,
      event.eventType = .taskRequest ∧ event.status.claimable = true ∧
        event.attemptId = some attempt.attemptId ∧ event.payloadRef = some (.job job.jobId)

/-- At most one job goes on with the edge. -/
def State.ContinuedOnce (s : State) (edge : CallbackEdgeRecord) : Prop :=
  ∀ r ∈ s.continuationJobs edge, ∀ r' ∈ s.continuationJobs edge, r.jobId = r'.jobId

/-- The edge has failed, or a job that can start goes on with it, and never two jobs. -/
def Recovered (s : State) (x : EdgeId) : Prop :=
  ∃ edge, s.getEdge x = some edge ∧ s.ContinuedOnce edge ∧
    (edge.state = .failed ∨ edge.state = .timedOut ∨
      ∃ job ∈ s.continuationJobs edge, Startable s edge job)

theorem existingContinuationJob_eq (s : State) (edge : CallbackEdgeRecord) :
    s.existingContinuationJob edge = (s.continuationJobs edge).getLast? :=
  findLast_eq_getLast? _ _

theorem continuationJobs_eq_nil {edge : CallbackEdgeRecord}
    (h : s.existingContinuationJob edge = none) : s.continuationJobs edge = [] := by
  rw [existingContinuationJob_eq] at h
  exact List.getLast?_eq_none_iff.mp h

/-- The answer the repair carries on: the child's reply, the job behind it, its decision. -/
def State.repairAnswer (s : State) (edge : CallbackEdgeRecord) :
    Option (ReplyRecord × JobRecord × CompletionDecision) :=
  (s.latestChildReply edge).bind fun reply =>
    (s.jobForReply reply <|> s.getJob edge.childJobId).bind fun child =>
      child.terminalDecision.map fun decision => (reply, child, decision)

/-! ### Rows for other edges -/

namespace Aside

theorem getEdge (h : Aside x s s') : s'.getEdge x = s.getEdge x :=
  h.edges.findLast fun _ hr => decide_eq_false hr

theorem continuationJobs (h : Aside e.edgeId s s') :
    s'.continuationJobs e = s.continuationJobs e := by
  unfold State.continuationJobs State.listAgent
  rw [List.filter_filter, List.filter_filter]
  exact h.jobs.filter fun r hr => by simp [hr.1]

theorem existingContinuationJob (h : Aside e.edgeId s s') :
    s'.existingContinuationJob e = s.existingContinuationJob e := by
  rw [existingContinuationJob_eq, h.continuationJobs, existingContinuationJob_eq]

theorem getJob (h : Aside x s s') {r : JobRecord} (hr : r ∈ s.jobs) :
    s'.getJob r.jobId = s.getJob r.jobId :=
  h.jobs.findLast fun _ hz => decide_eq_false (hz.2 r hr).symm

theorem getAttempt (h : Aside x s s') {a : AttemptRecord} (ha : a ∈ s.attempts) :
    s'.getAttempt a.attemptId = s.getAttempt a.attemptId :=
  h.attempts.findLast fun _ hz => decide_eq_false (hz a ha).1.symm

theorem attemptForJob (h : Aside x s s') {a : AttemptRecord} (ha : a ∈ s.attempts) :
    s'.attemptForJob a.jobId = s.attemptForJob a.jobId :=
  h.attempts.findLast fun _ hz => decide_eq_false (hz a ha).2.symm

theorem getReply (h : Aside x s s') {r : ReplyRecord} (hr : r ∈ s.replies) :
    s'.getReply r.replyId = s.getReply r.replyId :=
  h.replies.findLast fun _ hz => decide_eq_false (hz.2 r hr).symm

theorem startable (h : Aside x s s') {edge : CallbackEdgeRecord} {job : JobRecord}
    (hs : Startable s edge job) : Startable s' edge job := by
  obtain ⟨attempt, hattempt, event, hevent, hrest⟩ := hs.announced
  obtain ⟨ha, hid⟩ := State.attemptForJob_mem hattempt
  refine ⟨(h.getJob (State.getJob_mem hs.latest).1).trans hs.latest, hs.pending,
    attempt, ?_, event, ?_, hrest⟩
  · rw [← hid, h.attemptForJob ha, hid]
    exact hattempt
  · obtain ⟨hlatest, hopen⟩ := Mailbox.mem_pendingEvents.mp hevent
    refine Mailbox.mem_pendingEvents.mpr ⟨?_, hopen⟩
    have hfind : (s.mailboxes edge.parentAgent).getLatest event.inboundEventId = some event :=
      Mailbox.getLatest_eq_some.mpr ⟨hlatest, rfl⟩
    have hkept : (s'.mailboxes edge.parentAgent).getLatest event.inboundEventId =
        (s.mailboxes edge.parentAgent).getLatest event.inboundEventId :=
      (h.events edge.parentAgent).findLast fun _ hz =>
        decide_eq_false (hz.1 event (mem_of_mem_latest hlatest)).symm
    exact (Mailbox.getLatest_eq_some.mp (hkept.trans hfind)).1

theorem continuedOnce (h : Aside e.edgeId s s') (hs : s.ContinuedOnce e) :
    s'.ContinuedOnce e := by
  unfold State.ContinuedOnce
  rw [h.continuationJobs]
  exact hs

theorem recovered (h : Aside x s s') (hs : Recovered s x) : Recovered s' x := by
  obtain ⟨edge, found, honce, hsettled⟩ := hs
  obtain rfl := (State.getEdge_mem found).2
  refine ⟨edge, h.getEdge.trans found, h.continuedOnce honce,
    hsettled.imp_right (Or.imp_right ?_)⟩
  rintro ⟨job, hjob, hstart⟩
  exact ⟨job, h.continuationJobs.symm ▸ hjob, h.startable hstart⟩

theorem latestChildReply (h : Aside x s s') (hd : Durable s) (he : e ∈ s.edges) :
    s'.latestChildReply e = s.latestChildReply e := by
  have hlast : findLast (fun reply : ReplyRecord => !reply.notice)
      (s'.listReplies e.childMessageId) =
      findLast (fun reply : ReplyRecord => !reply.notice) (s.listReplies e.childMessageId) := by
    unfold State.listReplies
    rw [findLast_eq_getLast?, findLast_eq_getLast?, List.filter_filter, List.filter_filter]
    rw [h.replies.filter fun r hr => by simp [hr.1]]
  unfold State.latestChildReply
  rw [hlast]
  cases hid : e.childReplyId with
  | none => rfl
  | some i =>
    obtain ⟨reply, hr, rfl, -⟩ := hd.edges.reply e he i hid
    rw [Option.bind_some, Option.bind_some, h.getReply hr]

theorem jobForReply (h : Aside x s s') (hd : Durable s) {reply : ReplyRecord}
    (hr : reply ∈ s.replies) : s'.jobForReply reply = s.jobForReply reply := by
  obtain ⟨a, ha, hid, -⟩ := hd.replies.attempt reply hr
  unfold State.jobForReply
  rw [← hid, h.getAttempt ha]
  refine Option.bind_congr fun b hb => ?_
  obtain ⟨r, hr, hrid⟩ := hd.worked b (State.getAttempt_mem hb).1
  rw [← hrid, h.getJob hr]

theorem repairAnswer (h : Aside x s s') (hd : Durable s) (he : e ∈ s.edges) :
    s'.repairAnswer e = s.repairAnswer e := by
  obtain ⟨a, ha, hid, -⟩ := hd.edges.child_attempt e he
  obtain ⟨r, hr, hrid⟩ := hd.worked a ha
  unfold State.repairAnswer
  rw [h.latestChildReply hd he]
  refine Option.bind_congr fun reply hreply => ?_
  rw [h.jobForReply hd (hd.edges.latestChildReply hd.replies he hreply).1, ← hid, ← hrid,
    h.getJob hr]

end Aside

/-! ### Half-written continuations -/

/-- The edge is open, and no job goes on with it yet. -/
structure Undecided (s : State) (e : CallbackEdgeRecord) : Prop where
  found : s.getEdge e.edgeId = some e
  outstanding : e.state.terminal = false
  first : s.existingContinuationJob e = none

/-- One job goes on with the edge, but no event announces it. -/
structure Orphaned (s : State) (e : CallbackEdgeRecord) : Prop where
  found : s.getEdge e.edgeId = some e
  unfailed : e.state ≠ .failed ∧ e.state ≠ .timedOut
  carried : ∃ existing, s.existingContinuationJob e = some existing
  once : s.ContinuedOnce e
  silent : ∀ r ∈ s.continuationJobs e, ∀ event ∈ (s.mailboxes e.parentAgent).events,
    event.payloadRef ≠ some (.job r.jobId)

theorem Undecided.once (h : Undecided s e) : s.ContinuedOnce e := by
  intro r hr
  rw [continuationJobs_eq_nil h.first] at hr
  contradiction

theorem Undecided.not_recovered (h : Undecided s e) : ¬Recovered s e.edgeId := by
  rintro ⟨edge, found, -, hsettled⟩
  obtain rfl := Option.some.inj (h.found.symm.trans found)
  have hopen := h.outstanding
  rcases hsettled with hstate | hstate | ⟨job, hjob, -⟩
  · rw [hstate] at hopen
    contradiction
  · rw [hstate] at hopen
    contradiction
  · rw [continuationJobs_eq_nil h.first] at hjob
    contradiction

theorem Orphaned.not_recovered (h : Orphaned s e) : ¬Recovered s e.edgeId := by
  rintro ⟨edge, found, -, hsettled⟩
  obtain rfl := Option.some.inj (h.found.symm.trans found)
  rcases hsettled with hstate | hstate | ⟨job, hjob, hstart⟩
  · exact h.unfailed.1 hstate
  · exact h.unfailed.2 hstate
  · obtain ⟨-, -, event, hevent, -, -, -, hpay⟩ := hstart.announced
    exact h.silent job hjob event
      (mem_of_mem_latest (Mailbox.mem_pendingEvents.mp hevent).1) hpay

theorem Aside.undecided (h : Aside e.edgeId s s') (hs : Undecided s e) : Undecided s' e :=
  ⟨h.getEdge.trans hs.found, hs.outstanding, h.existingContinuationJob.trans hs.first⟩

theorem mem_continuationJobs {edge : CallbackEdgeRecord} {r : JobRecord} :
    r ∈ s.continuationJobs edge ↔ r ∈ s.jobs ∧ r.agentName = edge.callbackTargetAgent ∧
      r.request.routeOptions.callbackEdgeId = some edge.edgeId := by
  simp [State.continuationJobs, State.listAgent, and_comm]

theorem Aside.orphaned (h : Aside e.edgeId s s') (hs : Orphaned s e) : Orphaned s' e := by
  refine ⟨h.getEdge.trans hs.found, hs.unfailed, h.existingContinuationJob ▸ hs.carried,
    h.continuedOnce hs.once, fun r hr event hevent hpay => ?_⟩
  rw [h.continuationJobs] at hr
  obtain ⟨l, hl, hnew⟩ := h.events e.parentAgent
  rw [hl] at hevent
  rcases List.mem_append.mp hevent with hold | hevent
  · exact hs.silent r hr event hold hpay
  · obtain ⟨hmem, -, hcarries⟩ := mem_continuationJobs.mp hr
    exact (hnew event hevent).2 r.jobId hpay r hmem rfl hcarries

theorem continuationJobs_appendEdge (s : State) {row : CallbackEdgeRecord}
    (same : Act.SameEdge row e) :
    (s.appendEdge row).continuationJobs row = s.continuationJobs e := by
  unfold State.continuationJobs
  rw [same.callbackTargetAgent, same.edgeId]
  rfl

/-- A further row of the edge, which is not about to fail. -/
theorem Orphaned.appendEdge (h : Orphaned s e) {row : CallbackEdgeRecord}
    (same : Act.SameEdge row e) (hrow : row.state ≠ .failed ∧ row.state ≠ .timedOut) :
    Orphaned (s.appendEdge row) row := by
  have hjobs := continuationJobs_appendEdge s same
  have hexisting : (s.appendEdge row).existingContinuationJob row =
      s.existingContinuationJob e := by
    rw [existingContinuationJob_eq, hjobs, existingContinuationJob_eq]
  refine ⟨getEdge_appendEdge s row, hrow, hexisting ▸ h.carried, ?_, ?_⟩
  · unfold State.ContinuedOnce
    rw [hjobs]
    exact h.once
  · rw [hjobs, same.parentAgent]
    exact h.silent

/-- An open edge that is recovered gets a further row. -/
theorem Recovered.appendEdge (h : Recovered s e.edgeId) (found : s.getEdge e.edgeId = some e)
    (hopen : e.state.terminal = false) {row : CallbackEdgeRecord} (same : Act.SameEdge row e) :
    Recovered (s.appendEdge row) row.edgeId := by
  obtain ⟨edge, found', honce, hsettled⟩ := h
  obtain rfl := Option.some.inj (found.symm.trans found')
  have hjobs := continuationJobs_appendEdge s same
  refine ⟨row, getEdge_appendEdge s row, ?_, .inr (.inr ?_)⟩
  · unfold State.ContinuedOnce
    rw [hjobs]
    exact honce
  · rcases hsettled with hstate | hstate | ⟨job, hjob, hstart⟩
    · rw [hstate] at hopen
      contradiction
    · rw [hstate] at hopen
      contradiction
    · refine ⟨job, hjobs.symm ▸ hjob, hstart.latest, hstart.pending, ?_⟩
      rw [same.parentAgent]
      exact hstart.announced

/-- Failing an open edge, up to any write after the row that says so. -/
theorem recovered_failWrites (cfg : Config) (h : Durable s)
    (found : s.getEdge e.edgeId = some e) (hopen : e.state.terminal = false)
    (honce : s.ContinuedOnce e) {state : CallbackEdgeState}
    (hstate : state = .failed ∨ state = .timedOut) (t : Timestamp) (k : ℕ) :
    Recovered (s.applyWrites ((s.failWrites cfg e state t).take (k + 1))) e.edgeId := by
  have hne : state ≠ .continuationSubmitted := by
    rintro rfl
    rcases hstate with hstate | hstate <;> contradiction
  have hvalid := validWrites_failWrites cfg (State.getEdge_mem found).1 hne t
  unfold State.failWrites at hvalid ⊢
  simp only [found, Option.getD_some, hopen, Bool.false_eq_true, ↓reduceIte] at hvalid ⊢
  have hfailed : Recovered (s.appendEdge (State.failedEdge e state t)) e.edgeId :=
    ⟨_, getEdge_appendEdge s (State.failedEdge e state t), honce,
      hstate.imp_right fun htimed => .inl htimed⟩
  have hd : Durable (s.appendEdge (State.failedEdge e state t)) := h.apply hvalid.1
  exact Aside.recovered (Aside.writes hd
    ((validWrites_noticeWrites (e.edgeId + 1) _ _ _).take k) (Nat.ne_of_lt (Nat.lt_succ_self _)))
    hfailed

end CodexBridge.Dispatch
