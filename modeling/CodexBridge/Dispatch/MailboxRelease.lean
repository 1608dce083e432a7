import CodexBridge.Dispatch.JobRuns
import CodexBridge.Dispatch.EventTurns

/-! The end of a job and its request event. The end looks the event up through the attempt
and takes the last row that carries it. An agent that has asked itself may find a
notice of a failed callback there instead, and the request stays under delivery. -/

namespace CodexBridge.Dispatch

open AppendLog
open Mailbox (InboundEventRecord InboundEventType InboundEventStatus)

variable {cfg : Config} {w : World} {s s' : State}

/-- The request event of the attempt has ended, and no acquired lease names it. -/
def Freed (s : State) (a : AgentName) (attemptId : AttemptId) : Prop :=
  ∃ e ∈ (s.mailboxes a).latestEvents, e.eventType = .taskRequest ∧ e.attemptId = some attemptId ∧
    e.status.terminal = true ∧
    Mailbox.activeInboundEventId (s.mailboxes a).lease ≠ some e.inboundEventId

/-- A request event of the attempt that has not ended. -/
def Held (s : State) (a : AgentName) (attemptId : AttemptId) (i : InboundEventId) : Prop :=
  ∃ e, (s.mailboxes a).getLatest i = some e ∧ e.eventType = .taskRequest ∧
    e.attemptId = some attemptId ∧ e.status.terminal = false

/-- The request event of a job that is no delivery. -/
theorem Sound.request_event (h : Sound cfg s) {j : JobId} {job : JobRecord} {x : AttemptRecord}
    (found : s.getJob j = some job) (live : job.status.terminal = false)
    (request : State.isReplyDeliveryJob job = false) (hx : s.attemptForJob j = some x) :
    ∃ i, Held s job.agentName x.attemptId i := by
  obtain ⟨hmem, hid⟩ := State.getJob_mem found
  obtain ⟨hxmem, hxj⟩ := State.attemptForJob_mem hx
  have hscheduled : scheduled job = false := by
    rw [State.isReplyDeliveryJob, Bool.or_eq_false_iff] at request
    rw [scheduled, request.2, Bool.false_and]
  obtain ⟨e, he, ht, hpay⟩ := h.inboxes.announced job hmem hscheduled
  obtain ⟨e', he'⟩ := Mailbox.exists_getLatest he
  have hok := h.inboxes.ok job.agentName
  have hmem' := Mailbox.getLatest_mem he'
  have same := hok.agree e' hmem' e he (Mailbox.getLatest_id he')
  -- a request event keeps its payload and its attempt
  obtain ⟨ht', y, hy, -, hyid, -, hpay', -⟩ := (hok.shape e' hmem').resolve_right fun hans => by
    have heq := same.eventType
    rw [hans.1, ht] at heq
    contradiction
  obtain ⟨-, z, hz, -, hzid, -, hpayz, -⟩ := (hok.shape e he).resolve_right fun hans => by
    rw [hans.1] at ht
    contradiction
  have hzj : z.jobId = j := by
    rw [hpay] at hpayz
    rw [← hid]
    simpa using hpayz.symm
  have hzx := h.coherent.attempts.key z hz x hxmem (.inr (hzj.trans hxj.symm))
  have hyz : y.attemptId = z.attemptId :=
    Option.some.inj (hyid.symm.trans (same.attemptId.trans hzid))
  have hyx := h.coherent.attempts.key y hy x hxmem (.inl (hyz.trans hzx.attemptId))
  refine ⟨e.inboundEventId, e', he', ht', hyid.trans (congrArg some hyx.attemptId), ?_⟩
  refine hok.live e' (Mailbox.getLatest_eq_some.mp he').1 _ hpay' job ?_ live
  rw [hyx.jobId, hxj]
  exact found

/-- The rows of one event agree across an act or a path. -/
theorem Sound.same_event (hs : Sound cfg s') {a : AgentName}
    (hsub : (s.mailboxes a).events ⊆ (s'.mailboxes a).events) {i : InboundEventId}
    {e e' : InboundEventRecord} (he : (s.mailboxes a).getLatest i = some e)
    (he' : (s'.mailboxes a).getLatest i = some e') : SameEvent e' e :=
  (hs.inboxes.ok a).agree e' (Mailbox.getLatest_mem he') e (hsub (Mailbox.getLatest_mem he))
    ((Mailbox.getLatest_id he').trans (Mailbox.getLatest_id he).symm)

theorem events_subset_act {act : Act} (h : Sound cfg s) (g : act.guard cfg s) (a : AgentName) :
    (s.mailboxes a).events ⊆ ((act.apply cfg s).mailboxes a).events :=
  Mailbox.Run.events_subset (Act.mailbox_run g h.coherent h.inboxes a)

/-! ### The end of the job -/

/-- A request event that is found through the attempt ends with the job. -/
theorem Freed.of_finish (h : Sound cfg s) {current terminal : JobRecord} {t : Timestamp}
    {dequeue : Bool} (g : (Act.finish current terminal t dequeue).guard cfg s) {x : AttemptRecord}
    (hx : s.attemptForJob terminal.jobId = some x) {i : InboundEventId}
    (held : Held s terminal.agentName x.attemptId i)
    (unanswered : ∀ e ∈ (s.mailboxes terminal.agentName).events, e.attemptId = some x.attemptId →
      e.eventType ≠ .taskReply) :
    ∃ e, ((s.finish terminal t dequeue).mailboxes terminal.agentName).getLatest i = some e ∧
      e.eventType = .taskRequest ∧ e.attemptId = some x.attemptId ∧ e.status.terminal = true := by
  obtain ⟨e, he, ht, hid, hlive⟩ := held
  have hok := h.inboxes.ok terminal.agentName
  have hmem := Mailbox.getLatest_mem he
  -- the last row of the attempt is the latest row of the request
  have hattempt : (s.mailboxes terminal.agentName).getLatestForAttempt x.attemptId = some e := by
    obtain ⟨e₁, he₁⟩ := exists_findLast (p := fun r : InboundEventRecord =>
      decide (r.attemptId = some x.attemptId)) hmem (by simpa using hid)
    have he₁ : (s.mailboxes terminal.agentName).getLatestForAttempt x.attemptId = some e₁ := he₁
    obtain ⟨hmem₁, hid₁⟩ := findLast_some he₁
    have hid₁ : e₁.attemptId = some x.attemptId := by simpa using hid₁
    have ht₁ : e₁.eventType = .taskRequest := by
      rcases hok.shape e₁ hmem₁ with ha | ha
      · exact ha.1
      · exact absurd ha.1 (unanswered e₁ hmem₁ hid₁)
    have hsame := hok.request_unique e₁ hmem₁ e hmem ht₁ ht (hid₁.trans hid.symm)
    have hlatest := hok.getLatest_of_attempt he₁
    rw [hsame, Mailbox.getLatest_id he, he] at hlatest
    rw [he₁, Option.some.inj hlatest]
  have hlatest := getLatest_finish h g hx i
  rw [he, Option.map_some] at hlatest
  have same := (Act.sound g h).same_event (events_subset_act h g _) he hlatest
  refine ⟨_, hlatest, same.eventType.trans ht, same.attemptId.trans hid, ?_⟩
  rcases finishedRow_cases (s.mailboxes terminal.agentName) terminal x.attemptId t e with
    ⟨-, hkept⟩ | ⟨-, -, hended, -⟩ | ⟨-, hother, -⟩
  · exact absurd hattempt (hkept hlive).1
  · exact hended
  · exact absurd hattempt hother

/-- An ended request has freed the mailbox. -/
theorem Freed.of_ended (h : Sound cfg s) {a : AgentName} {id : AttemptId} {i : InboundEventId}
    {e : InboundEventRecord} (he : (s.mailboxes a).getLatest i = some e)
    (ht : e.eventType = .taskRequest) (hid : e.attemptId = some id)
    (hended : e.status.terminal = true) : Freed s a id := by
  obtain ⟨hmem, rfl⟩ := Mailbox.getLatest_eq_some.mp he
  refine ⟨e, hmem, ht, hid, hended, fun hlease => ?_⟩
  obtain ⟨e', hmem', hid', hs⟩ := (h.single a).leased _ hlease
  rw [Mailbox.eq_of_mem_latestEvents hmem' hmem hid'] at hs
  rw [hs] at hended
  contradiction

/-- A request that is held has not freed the mailbox. -/
theorem Held.not_freed (h : Sound cfg s) {a : AgentName} {id : AttemptId} {i : InboundEventId}
    (held : Held s a id i) : ¬Freed s a id := by
  rintro ⟨e', hmem', ht', hid', hended, -⟩
  obtain ⟨e, he, ht, hid, hlive⟩ := held
  obtain ⟨hmem, -⟩ := Mailbox.getLatest_eq_some.mp he
  have hsame := (h.inboxes.ok a).request_unique e (mem_of_mem_latest hmem) e'
    (mem_of_mem_latest hmem') ht ht' (hid.trans hid'.symm)
  rw [Mailbox.eq_of_mem_latestEvents hmem hmem' hsame, hended] at hlive
  contradiction

/-- The end of a job that has been answered in its own mailbox misses the request. -/
theorem Held.of_finish (h : Sound cfg s) {current terminal : JobRecord} {t : Timestamp}
    {dequeue : Bool} (g : (Act.finish current terminal t dequeue).guard cfg s) {x : AttemptRecord}
    (hx : s.attemptForJob terminal.jobId = some x)
    (request : State.isReplyDeliveryJob terminal = false) {i : InboundEventId}
    (held : Held s terminal.agentName x.attemptId i)
    (answered : ∃ e ∈ (s.mailboxes terminal.agentName).events, e.attemptId = some x.attemptId ∧
      e.eventType = .taskReply) :
    Held (s.finish terminal t dequeue) terminal.agentName x.attemptId i := by
  obtain ⟨e, he, ht, hid, hlive⟩ := held
  obtain ⟨e₁, hmem₁, hid₁, ht₁⟩ := answered
  obtain ⟨hxmem, hxj⟩ := State.attemptForJob_mem hx
  have hlatest := getLatest_finish h g hx i
  rw [he, Option.map_some] at hlatest
  have same := (Act.sound g h).same_event (events_subset_act h g _) he hlatest
  refine ⟨_, hlatest, same.eventType.trans ht, same.attemptId.trans hid, ?_⟩
  rcases finishedRow_cases (s.mailboxes terminal.agentName) terminal x.attemptId t e with
    ⟨hkept, -⟩ | ⟨-, hin, -, -⟩ | ⟨-, -, replyId, hdelivery, -⟩
  · rw [hkept]
    exact hlive
  · -- the last row of the attempt is a reply
    obtain ⟨found, live, -, sameJob, -⟩ := g
    have hreply := (h.inboxes.ok _).last x hxmem current
      (by rw [hxj, sameJob.jobId]; exact found) live e₁ hmem₁ ht₁ hid₁ e hin
    rw [ht] at hreply
    contradiction
  · have hd := h.coherent.jobs.delivery current (State.getJob_mem g.1).1
    rw [State.isReplyDeliveryJob, Bool.or_eq_false_iff] at request
    have hsame := g.2.2.2.1.providerOptions
    rw [hsame] at request hdelivery
    rcases hd with ⟨-, hnone, -⟩ | ⟨_, _, hyes, -⟩
    · rw [hnone] at hdelivery
      contradiction
    · rw [hyes] at request
      exact absurd request.2 (by decide)

/-- Nothing but the end of its job, or an operator, ends a request. -/
theorem Held.keep {act : Act} (h : Sound cfg s) (g : act.guard cfg s) (hact : ¬act.tidies)
    {x : AttemptRecord} (hx : x ∈ s.attempts) {job : JobRecord}
    (hjob : s.getJob x.jobId = some job) (hended : job.status.terminal = true) {a : AgentName}
    {i : InboundEventId} (held : Held s a x.attemptId i) :
    Held (act.apply cfg s) a x.attemptId i := by
  obtain ⟨e, he, ht, hid, hlive⟩ := held
  have hmem := Mailbox.getLatest_mem he
  obtain ⟨e', he', hrow⟩ := (Act.fate h g a i).kept e he
  have same := (Act.sound g h).same_event (events_subset_act h g a) he he'
  refine ⟨e', he', same.eventType.trans ht, same.attemptId.trans hid, ?_⟩
  rcases hrow with rfl | ⟨-, turn⟩
  · exact hlive
  -- a reply event is no request
  have hreply : ∀ head : InboundEventRecord, s.headReplyEvent a = some head → e ≠ head := by
    rintro head hhead rfl
    rw [(State.headReplyEvent_eq_some hhead).2] at ht
    contradiction
  cases act with
  | startRequest agentName current t =>
    rw [turn.2.2.1]
    rfl
  | startDelivery agentName current t =>
    rw [turn.2.2.1]
    rfl
  | finish current terminal t dequeue =>
    obtain ⟨found, live, -, sameJob, -⟩ := g
    obtain ⟨ha, ⟨y, hy, hin, -⟩ | ⟨replyId, hdelivery, hreplyId, -⟩⟩ := turn
    · -- the event leads back to the job, which has ended
      obtain ⟨hymem, hyj⟩ := State.attemptForJob_mem hy
      have hyid : e.attemptId = some y.attemptId := by simpa using (findLast_some hin).2
      have hsame := h.coherent.attempts.key x hx y hymem
        (.inl (Option.some.inj (hid.symm.trans hyid)))
      rw [hsame.jobId, hyj, sameJob.jobId, found] at hjob
      rw [Option.some.inj hjob, hended] at live
      contradiction
    · have hcur := (State.getJob_mem found).1
      rw [sameJob.providerOptions] at hdelivery hreplyId
      have hevent := h.inboxes.delivery_event hcur hdelivery hreplyId
        (e := e) (by rw [← sameJob.agentName, ← ha]; exact hmem) rfl
      rw [hevent.2] at ht
      contradiction
  | deliver agentName head record t =>
    rw [turn.2.2.1]
    rfl
  | reset agentName event replyId t =>
    rw [turn.2.2.1]
    rfl
  | consumeDelivered agentName head job' t =>
    obtain ⟨rfl, rfl, -⟩ := turn
    exact absurd rfl (hreply e g.1)
  | acknowledge agentName head t => exact absurd trivial hact
  | endRequest agentName event status t => exact absurd trivial hact
  | discard agentName head t => exact absurd trivial hact
  | _ => exact turn.elim

theorem Held.along {permits : State → Act → Prop} (p : Path cfg permits s s') (h : Sound cfg s)
    (hpermits : ∀ s act, permits s act → ¬act.tidies) {x : AttemptRecord} (hx : x ∈ s.attempts)
    (job : JobRecord) (hjob : s.getJob x.jobId = some job) (hended : job.status.terminal = true)
    {a : AgentName} {i : InboundEventId} (held : Held s a x.attemptId i) :
    Held s' a x.attemptId i := by
  refine Path.along (I := fun s' => Held s' a x.attemptId i)
    (fun s' act q hs hI hp g => ?_) p h held
  obtain ⟨job', hjob', hstatus⟩ := (q.grows h).status hs.coherent hjob hended
  exact hI.keep hs g (hpermits s' act hp) ((q.grows h).attempts hx) hjob' (hstatus ▸ hended)

/-! ### Complete and cancel -/

/-- The end of a job, and whatever its operation does afterwards. -/
theorem freed_iff {permits : State → Act → Prop} (h : Sound cfg s) {current terminal : JobRecord}
    {t : Timestamp} {dequeue : Bool} (g : (Act.finish current terminal t dequeue).guard cfg s)
    {x : AttemptRecord} (hx : s.attemptForJob terminal.jobId = some x)
    (request : State.isReplyDeliveryJob terminal = false)
    (p : Path cfg permits (s.finish terminal t dequeue) s')
    (hpermits : ∀ s act, permits s act → ¬act.tidies) :
    Freed s' terminal.agentName x.attemptId ↔
      ∀ e ∈ (s.mailboxes terminal.agentName).events, e.attemptId = some x.attemptId →
        e.eventType ≠ .taskReply := by
  have hs : Sound cfg (s.finish terminal t dequeue) := Act.sound g h
  have hs' := p.sound hs
  obtain ⟨hxmem, hxj⟩ := State.attemptForJob_mem hx
  have hfound : s.getJob terminal.jobId = some current := g.2.2.2.1.jobId ▸ g.1
  have hcurrent : State.isReplyDeliveryJob current = false := by
    rw [← request]
    simp only [State.isReplyDeliveryJob, g.2.2.2.1.request, g.2.2.2.1.providerOptions]
  obtain ⟨i, held⟩ := h.request_event hfound g.2.1 hcurrent hx
  rw [← g.2.2.2.1.agentName] at held
  constructor
  · intro hfreed
    by_contra hanswered
    push Not at hanswered
    obtain ⟨e, he, hid, ht⟩ := hanswered
    have held' := held.of_finish h g hx request ⟨e, he, hid, ht⟩
    obtain ⟨-, ⟨c, hc, -, hcs⟩, hended⟩ := finished_finish h.coherent g rfl
    refine (held'.along p hs hpermits ?_ c ?_ (hcs ▸ hended)).not_freed hs' hfreed
    · exact (Act.extends h.coherent g).attempts hxmem
    · rw [hxj, g.2.2.2.1.jobId]
      exact hc
  · intro hunanswered
    obtain ⟨e, he, ht, hid, hended⟩ := Freed.of_finish h g hx held hunanswered
    exact Freed.of_ended hs' ((p.mailbox_run hs _).keeps_ended he hended) ht hid hended

theorem Act.settles_not_tidies {j : JobId} {act : Act} (h : act.settles j s) : ¬act.tidies := by
  intro ht
  cases act <;> first | exact ht | exact h

/-- Completing or cancelling a running request frees the mailbox of its agent exactly
when no reply to the request itself has been queued there. -/
theorem finished_job_frees_mailbox {allowed : World → State → Op → Prop}
    (run : Reachable cfg allowed s) {j : JobId} {job : JobRecord} {x : AttemptRecord}
    (found : s.getJob j = some job) (running : job.status = .running)
    (request : State.isReplyDeliveryJob job = false) (hx : s.attemptForJob j = some x) {op : Op}
    (hop : (∃ decision, op = .complete j decision) ∨ ∃ recordReply, op = .cancel j recordReply) :
    Freed (exec cfg w s op) job.agentName x.attemptId ↔
      ∀ e ∈ (s.mailboxes job.agentName).events, e.attemptId = some x.attemptId →
        e.eventType ≠ .taskReply := by
  have h := run.sound
  have hid := (State.getJob_mem found).2
  have live := running_live running
  rcases hop with ⟨decision, rfl⟩ | ⟨recordReply, rfl⟩
  · obtain ⟨g, p⟩ := completeJob_path (w := w) h s.jobs.length decision found live
      (fun _ => running) (clearActive_eq_leave s.memory _ _)
    have hx' : s.attemptForJob (State.completedRow w job decision).jobId = some x := hid.symm ▸ hx
    exact freed_iff h g hx' request p fun s act hp => Act.settles_not_tidies hp
  · obtain ⟨marked, terminal, t, y, same, -, -, htouch, hfinish, hreply, heq⟩ :=
      cancelJob_acts (w := w) h recordReply found live
    have hs := Act.sound htouch h
    have sameJob := SameJob.trans hfinish.2.2.2.1 same
    have hpath : Path cfg (fun _ act => ¬act.tidies) ((s.appendJob marked).finish terminal t true)
        (exec cfg w s (.cancel j recordReply)) := by
      simp only [exec, heq]
      split_ifs
      · exact Path.single (.reply terminal y .cancelled _ t) id hreply
      · exact .refl
    have hx' : (s.appendJob marked).attemptForJob terminal.jobId = some x := by
      rw [sameJob.jobId, hid]
      exact hx
    have hrequest : State.isReplyDeliveryJob terminal = false := by
      rw [← request]
      simp only [State.isReplyDeliveryJob, sameJob.request, sameJob.providerOptions]
    have key := freed_iff hs hfinish hx' hrequest hpath fun s act hp => hp
    rw [sameJob.agentName] at key
    exact key

/-- The first of two requests is completed. -/
theorem finished_job_frees_mailbox_twoRequests :
    Freed (exec Sample.config (Sample.world Mailbox.sampleTime) (Sample.after Sample.twoRequests)
      (.complete 1 (Sample.decision .completed))) "agent1" 3 := by
  have hjob : (((Sample.after Sample.twoRequests).getJob 1).any fun job =>
      job.status = .running && !State.isReplyDeliveryJob job && job.agentName = "agent1") =
        true := by
    decide +kernel
  have hattempt : (((Sample.after Sample.twoRequests).attemptForJob 1).any fun x =>
      x.attemptId = 3) = true := by decide +kernel
  obtain ⟨job, found, hfields⟩ := (Option.any_eq_true _ _).mp hjob
  obtain ⟨x, hx, hid⟩ := (Option.any_eq_true _ _).mp hattempt
  simp only [Bool.and_eq_true, decide_eq_true_eq, Bool.not_eq_true'] at hfields hid
  have key := (finished_job_frees_mailbox (w := Sample.world Mailbox.sampleTime)
    Sample.twoRequests_reachable found hfields.1.1 hfields.1.2 hx
    (.inl ⟨Sample.decision .completed, rfl⟩)).mpr
  rw [hfields.2, hid] at key
  exact key (by decide +kernel)

/-- An agent asks itself, and the callback of that job expires while the job runs. -/
def Sample.selfAsk : List (Timestamp × Op) :=
  [(Mailbox.sampleTime, .submit (Sample.ask (.agent "agent1") "agent1" none)),
    (Mailbox.sampleTime, .tick),
    (Mailbox.sampleTime, .submit (Sample.ask (.agent "agent1") "agent2" (some .callback))),
    (Mailbox.sampleTime, .tick), (Sample.late, .sweepCallbacks)]

/-- The notice of the failed callback is taken for the request, which stays under
delivery when its job is complete. -/
theorem finished_job_keeps_mailbox :
    Reachable Sample.config (fun _ _ _ => True) (Sample.after Sample.selfAsk) ∧
      (((Sample.after Sample.selfAsk).getJob 1).any fun job => job.status = .running &&
        !State.isReplyDeliveryJob job && job.agentName = "agent1") = true ∧
      ((Sample.after Sample.selfAsk).attemptForJob 1).map AttemptRecord.attemptId = some 3 ∧
      ¬Freed (exec Sample.config (Sample.world Mailbox.sampleTime) (Sample.after Sample.selfAsk)
        (.complete 1 (Sample.decision .completed))) "agent1" 3 := by
  refine ⟨Sample.reachable_after (by decide +kernel), by decide +kernel, by decide +kernel, ?_⟩
  unfold Freed
  decide +kernel

end CodexBridge.Dispatch
