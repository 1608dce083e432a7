import CodexBridge.Dispatch.SubmissionPaths

/-! Every operation of the dispatcher is a path of acts. What an operation may do
beyond routine acts is said here once, for each operation; whatever holds of all
runs is then checked act by act. -/

namespace CodexBridge.Dispatch

open AppendLog
open Mailbox (InboundEventRecord InboundEventType InboundEventStatus)

variable {cfg : Config} {w : World} {s s' : State} {a : AgentName}

/-! ### What an operation may do -/

/-- The job has not ended. -/
def State.live (s : State) (j : JobId) : Prop :=
  ∃ r, s.getJob j = some r ∧ r.status.terminal = false

namespace Act

/-- A submission, of messages that satisfy `p` with jobs that satisfy `q`. -/
def submits (p : MessageRecord → Prop) (q : JobRecord → Prop) : Act → Prop
  | .newMessage message => p message
  | .accept .submitted job _ _ _ => q job
  | .register _ => True
  | act => act.routine

/-- A retry of a job that satisfies `p`. -/
def retries (p : JobRecord → Prop) : Act → Prop
  | .accept (.retried source) _ _ _ _ => p source
  | act => act.routine

/-- The end of a job that satisfies `p`, wherever it stands; it is not completed. -/
def removes (p : JobRecord → Prop) : Act → Prop
  | .finish current terminal _ true => p current ∧ terminal.status ≠ .completed
  | _ => False

/-- The end of events that are over. -/
def tidies : Act → Prop
  | .acknowledge .. | .endRequest .. | .discard .. => True
  | _ => False

end Act

/-- A message of a submission: to the agent it is addressed to, or to agents other than
its sender. -/
def Addressed (request : MessageEnvelope) (message : MessageRecord) : Prop :=
  message.fromActor = request.fromActor ∧
    ∀ a ∈ message.targetAgents, request.target = .agent a ∨ request.fromActor ≠ .agent a

namespace Op

/-- What an operation that starts in `s₀` may do in `s`. -/
def permits (cfg : Config) (w : World) (s₀ : State) : Op → State → Act → Prop
  | .submit request, _, act => act.submits (Addressed request) fun job =>
    job.request.routeOptions = request.routeOptions
  | .resubmit id, _, act => act.submits
    (fun message => ∃ m ∈ s₀.messages, message.fromActor = m.fromActor ∧
      message.targetAgents = m.targetAgents)
    fun job => ∃ r ∈ s₀.jobs, (∃ x ∈ s₀.attempts, x.jobId = r.jobId ∧ x.messageId = id) ∧
      job.request.routeOptions = r.request.routeOptions
  | .retry target, _, act => act.retries fun source =>
    ∃ x, (s₀.getAttempt target <|> s₀.attemptForJob target) = some x ∧ x.jobId = source.jobId
  | .tick, _, act | .repairCallbacks, _, act => act.repairs cfg w s₀
  | .complete j _, s, act => s₀.live j ∧ act.settles j s
  | .cancel j recordReply, s, act =>
    act.routine ∨ act.removes (fun current => current.jobId = j ∧ s.mailboxes = s₀.mailboxes) ∨
      ∃ job attempt status recipient t, act = .reply job attempt status recipient t ∧
        job.jobId = j ∧ recordReply = true ∧ s₀.live j ∧ s.edges = s₀.edges
  | .ack _ _, _, act => act.routine ∨ act.tidies
  | .inspect _, _, act => act.tidies
  | .recover j _ _, _, act =>
    (act.retries fun source => source.jobId = j ∧ State.isReplyDeliveryJob source = false) ∨
      (act.removes fun current => current.jobId = j ∧ State.isReplyDeliveryJob current = false) ∨
      act.tidies
  | .shutdown, s, act =>
    ∃ j, s₀.live j ∧ (act.settles j s ∨ act.removes fun current => current.jobId = j)
  | .sweepCallbacks, _, act => act.callback
  | .prepareReplies, _, act | .startJobs, _, act | .disableAutoReplyDelivery, _, act =>
    act.routine

end Op

/-! ### Submission -/

theorem resolveTargets_ok {request : MessageEnvelope} {targets : List AgentName}
    (h : resolveTargets cfg w request = .ok targets) :
    ∀ a ∈ targets, request.target = .agent a ∨ request.fromActor ≠ .agent a := by
  intro a ha
  unfold resolveTargets at h
  split at h
  · rename_i name htarget
    split_ifs at h
    obtain rfl := Except.ok.inj h
    rw [List.mem_singleton.mp ha]
    exact .inl htarget
  · obtain rfl := Except.ok.inj h
    rw [List.mem_mergeSort] at ha
    exact .inr (by simpa using (List.mem_filter.mp ha).2)

theorem validateTargetsAvailable_all {targets : List AgentName} {u : Unit}
    (h : s.validateTargetsAvailable cfg targets = .ok u) : ∀ a ∈ targets, a ∈ cfg.agents := by
  unfold State.validateTargetsAvailable at h
  split_ifs at h with hall hbusy
  simpa using hall

theorem resolveTargets_nodup {request : MessageEnvelope} {targets : List AgentName}
    (h : resolveTargets cfg w request = .ok targets) : targets.Nodup := by
  unfold resolveTargets at h
  split at h
  · split_ifs at h
    obtain rfl := Except.ok.inj h
    exact List.nodup_singleton _
  · obtain rfl := Except.ok.inj h
    exact (List.mergeSort_perm _ _).nodup_iff.mpr ((cfg.nodup.filter _).filter _)

theorem resolveTargets_single {request : MessageEnvelope} {targets : List AgentName}
    (h : resolveTargets cfg w request = .ok targets) {a : AgentName}
    (ha : request.target = .agent a) : targets = [a] := by
  unfold resolveTargets at h
  rw [ha] at h
  dsimp only at h
  split_ifs at h
  exact (Except.ok.inj h).symm

theorem planAgentSubmission_ok {request : MessageEnvelope} {plan : SubmissionPlan}
    (h : s.planAgentSubmission cfg w request = .ok plan) :
    plan.request = request ∧ (∀ a ∈ plan.targets, a ∈ cfg.agents) ∧
      (∀ a ∈ plan.targets, request.target = .agent a ∨ request.fromActor ≠ .agent a) ∧
      (∀ a, request.target = .agent a → plan.targets = [a]) ∧
      s.validateCallbackRequest cfg request = .ok () ∧ plan.targets ≠ [] ∧ plan.targets.Nodup := by
  unfold State.planAgentSubmission at h
  simp only [bind, Except.bind, pure, Except.pure, throw, throwThe, MonadExceptOf.throw] at h
  split at h
  · contradiction
  · split at h
    · contradiction
    · split at h
      · contradiction
      · rename_i u hcallback
        split at h
        · contradiction
        · rename_i targets htargets
          split at h
          · contradiction
          · rename_i hne
            split at h
            · contradiction
            · rename_i u hvalid
              obtain rfl := Except.ok.inj h
              exact ⟨rfl, validateTargetsAvailable_all hvalid, resolveTargets_ok htargets,
                fun a ha => resolveTargets_single htargets ha, hcallback, by simpa using hne,
                resolveTargets_nodup htargets⟩

theorem mem_of_mapM_head {α β : Type} {f : α → Except DispatchError β} {l : List α} {l' : List β}
    {y : β} (h : l.mapM f = .ok l') (hy : l'.head? = some y) : ∃ x ∈ l, f x = .ok y := by
  cases l with
  | nil =>
    obtain rfl : [] = l' := by simpa [pure, Except.pure] using h
    contradiction
  | cons x l =>
    rw [List.mapM_cons] at h
    simp only [bind, Except.bind, pure, Except.pure] at h
    split at h
    · contradiction
    · rename_i y' hy'
      split at h
      · contradiction
      · obtain rfl := Except.ok.inj h
        obtain rfl := Option.some.inj hy
        exact ⟨x, by simp, hy'⟩

theorem planMessageResubmission_ok {id : MessageId} {plan : SubmissionPlan}
    (h : s.planMessageResubmission cfg w id = .ok plan) :
    (∀ a ∈ plan.targets, a ∈ cfg.agents) ∧
      (∃ m ∈ s.messages, plan.request.fromActor = m.fromActor ∧ plan.targets = m.targetAgents) ∧
      (∃ r ∈ s.jobs, (∃ x ∈ s.attempts, x.jobId = r.jobId ∧ x.messageId = id) ∧
        plan.request.routeOptions = r.request.routeOptions) ∧
      (∀ a, plan.request.target = .agent a → plan.targets = [a]) ∧ plan.targets ≠ [] := by
  unfold State.planMessageResubmission at h
  simp only [bind, Except.bind, pure, Except.pure, throw, throwThe, MonadExceptOf.throw] at h
  split at h
  · rename_i original horiginal
    split_ifs at h
    split at h
    · contradiction
    · rename_i jobs hjobs
      split at h
      · rename_i source hsource
        split at h
        · contradiction
        · split at h
          · contradiction
          · split at h
            · contradiction
            · rename_i u hvalid
              obtain rfl := Except.ok.inj h
              refine ⟨validateTargetsAvailable_all hvalid,
                ⟨original, (State.getMessage_mem horiginal).1, rfl, rfl⟩, ?_, ?_, ?_⟩
              · obtain ⟨name, -, hname⟩ := mem_of_mapM_head hjobs hsource
                split_ifs at hname
                split at hname
                · rename_i job hjob
                  obtain rfl := Except.ok.inj hname
                  obtain ⟨x, hx, hfind⟩ := Option.bind_eq_some_iff.mp hjob
                  obtain ⟨hlast, hid⟩ := findLast_some hfind
                  obtain ⟨hx, -, -⟩ := State.latestAttemptForAgent_eq hx
                  obtain ⟨hxmem, hxm⟩ := State.mem_of_latestAttempts hx
                  exact ⟨_, (List.mem_filter.mp hlast).1,
                    ⟨x, hxmem, (of_decide_eq_true hid).symm, hxm⟩, rfl⟩
                · contradiction
              · intro a ha
                dsimp only at ha ⊢
                split at ha
                · rename_i name htargets
                  rw [htargets, Target.agent.inj ha]
                · contradiction
              · obtain ⟨name, hname, -⟩ := mem_of_mapM_head hjobs hsource
                exact List.ne_nil_of_mem hname
      · contradiction
  · contradiction

/-! ### The operator's side -/

section Tidy
variable {permits : State → Act → Prop} (htidy : ∀ s act, Act.tidies act → permits s act)

include htidy in
theorem discardStaleHeads_path (now : Timestamp) (a : AgentName) (fuel : ℕ) :
    Path cfg permits s (State.discardStaleHeads now a fuel s) := by
  induction fuel generalizing s with
  | zero => exact .refl
  | succ fuel ih =>
    unfold State.discardStaleHeads
    split
    · exact .refl
    · rename_i head hhead
      split_ifs with hlive
      · exact .refl
      · exact Relation.ReflTransGen.trans (Path.single (.discard a head now) (htidy s _ trivial)
          ⟨hhead, by simpa using hlive⟩) ih

include htidy in
theorem endRequest_path {event : InboundEventRecord} (status : InboundEventStatus)
    (now : Timestamp) (hlatest : (s.mailboxes a).getLatest event.inboundEventId = some event)
    (hreq : event.eventType = .taskRequest) (hstatus : status.terminal = true)
    (hover : ((event.attemptId.bind s.getAttempt).any fun x => !x.attemptState.terminal) = false) :
    Path cfg permits s (s.setMailbox a
      ((s.mailboxes a).markTerminal now event.inboundEventId status (some now)).1) := by
  refine Path.single (.endRequest a event status now) (htidy s _ trivial)
    ⟨hlatest, hreq, hstatus, ?_⟩
  rcases hx : event.attemptId.bind s.getAttempt with _ | x
  · rfl
  · rw [hx] at hover
    simpa using hover

include htidy in
theorem ackTerminalTaskRequest_path {head : InboundEventRecord} (now : Timestamp)
    (hhead : (s.mailboxes a).headPendingEvent = some head) (hreq : head.eventType = .taskRequest) :
    Path cfg permits s (s.ackTerminalTaskRequest now a head).1 := by
  unfold State.ackTerminalTaskRequest
  dsimp only
  split
  · exact .refl
  · rename_i hactive
    obtain ⟨status, hstatus, hended⟩ : ∃ status : InboundEventStatus, status.terminal = true ∧
        (if ((head.attemptId.bind s.getAttempt).any fun x => x.attemptState = .cancelled) &&
            head.status.claimable then
          (s.mailboxes a).abandon now head.inboundEventId (some now)
        else (s.mailboxes a).consume now head.inboundEventId (some now)) =
          (s.mailboxes a).markTerminal now head.inboundEventId status (some now) := by
      split_ifs
      · exact ⟨.abandoned, rfl, rfl⟩
      · exact ⟨.consumed, rfl, rfl⟩
    have p : Path cfg permits s _ := endRequest_path htidy status now (getLatest_head hhead) hreq
      hstatus (by simpa using hactive)
    rw [hended]
    split
    · exact p
    · rename_i after event heq
      rw [heq] at p
      exact p.trans (discardStaleHeads_path htidy _ _ _)

/-- A reply that is not the head is not acknowledged. -/
theorem ackReply_not_head {mb : Mailbox} {head : InboundEventRecord} (now : Timestamp)
    (hmem : head ∈ mb.latestEvents) (hhead : mb.headPendingEvent ≠ some head) :
    (mb.ackReply now head.inboundEventId (some now) (some now)).1 =
      mb.rebuildMailboxSummary now := by
  unfold Mailbox.ackReply
  rw [if_pos]
  · rfl
  · rcases hh : mb.headPendingEvent with _ | other
    · rfl
    · have hne : other.inboundEventId ≠ head.inboundEventId := by
        intro hid
        have := Mailbox.eq_of_mem_latestEvents (Mailbox.headPendingEvent_mem hh).1 hmem hid
        exact hhead (this ▸ hh)
      simp [Mailbox.headMatchesReply, hne]

theorem validateReplyHead_ok {head head' : InboundEventRecord}
    (h : State.validateReplyHead head = .ok head') :
    head' = head ∧ head.eventType = .taskReply ∧
      deliveryJobIdFromPayload head.payloadRef = none := by
  unfold State.validateReplyHead at h
  split_ifs at h with ht hd
  exact ⟨(Except.ok.inj h).symm, not_not.mp ht, by simpa using hd⟩

include htidy in
/-- The head an acknowledgement works on: a pending request, or a reply without a
delivery. -/
theorem ackHeadEvent_path (cfg : Config) (s : State) (a : AgentName) (now : Timestamp)
    (id : Option InboundEventId) :
    Path cfg permits s (s.ackHeadEvent now a id).1 ∧
      ∀ head, (s.ackHeadEvent now a id).2 = .ok head →
        ((s.ackHeadEvent now a id).1.mailboxes a).headPendingEvent = some head ∧
          head.eventType = .taskRequest ∨
        head ∈ ((s.ackHeadEvent now a id).1.mailboxes a).latestEvents ∧
          head.eventType = .taskReply ∧ deliveryJobIdFromPayload head.payloadRef = none := by
  unfold State.ackHeadEvent
  dsimp only
  split
  · rename_i head hfilter
    obtain ⟨hhead, hkind⟩ := Option.filter_eq_some_iff.mp hfilter
    split_ifs with ht
    · refine ⟨.refl, fun head' hok => .inr ?_⟩
      obtain ⟨rfl, ht, hd⟩ := validateReplyHead_ok hok
      exact ⟨(Mailbox.headPendingEvent_mem hhead).1, ht, hd⟩
    · refine ⟨.refl, fun head' hok => .inl ?_⟩
      obtain rfl := Except.ok.inj hok
      rw [Bool.and_eq_true] at hkind
      exact ⟨hhead, by simpa [ht] using hkind.2⟩
  · have p : Path cfg permits s (s.discardStaleHeadEvents now a) :=
      discardStaleHeads_path htidy _ _ _
    split
    · exact ⟨p, fun head hok => by contradiction⟩
    · rename_i head rest hlive
      split_ifs
      · exact ⟨p, fun head hok => by contradiction⟩
      · refine ⟨p, fun head' hok => .inr ?_⟩
        obtain ⟨rfl, ht, hd⟩ := validateReplyHead_ok hok
        have hmem : head' ∈ (s.discardStaleHeadEvents now a).livePendingEvents a := by
          rw [hlive]
          simp
        exact ⟨(Mailbox.mem_pendingEvents.mp (List.mem_of_mem_filter hmem)).1, ht, hd⟩

include htidy in
theorem ackReply_path (hroutine : ∀ s act, Act.routine act → permits s act)
    (id : Option InboundEventId) : Path cfg permits s (State.ackReply cfg w s a id).1 := by
  unfold State.ackReply
  dsimp only
  by_cases known : a ∉ cfg.agents
  · rw [if_pos known]
    exact .refl
  rw [if_neg known]
  obtain ⟨p, hok⟩ := ackHeadEvent_path htidy cfg s a (w.clock 0 .accepted) id
  split
  · rename_i found e heq
    rw [heq] at p
    exact p
  · rename_i found head heq
    rw [heq] at p hok
    rcases hok head rfl with ⟨hhead, hreq⟩ | ⟨hmem, ht, hd⟩
    · rw [if_pos hreq]
      exact p.trans (ackTerminalTaskRequest_path htidy _ hhead hreq)
    · rw [if_neg (by rw [ht]; decide)]
      split
      · exact p
      · have q : Path cfg permits found (found.setMailbox a ((found.mailboxes a).ackReply
            (w.clock 0 .accepted) head.inboundEventId (some (w.clock 0 .accepted))
            (some (w.clock 0 .accepted))).1) := by
          by_cases hhead : (found.mailboxes a).headPendingEvent = some head
          · exact Path.single (.acknowledge a head _) (htidy _ _ trivial) ⟨hhead, ht, hd⟩
          · rw [ackReply_not_head _ hmem hhead]
            exact Path.single (.refresh a _) (hroutine _ _ trivial) trivial
        split
        · rename_i mailbox hack
          rw [hack] at q
          exact p.trans q
        · rename_i mailbox event hack
          rw [hack] at q
          exact (p.trans q).trans (discardStaleHeads_path htidy _ _ _)

end Tidy

/-! ### Recovery -/

/-- What a recovery of `j` may do. -/
abbrev Recovers (j : JobId) (act : Act) : Prop :=
  (act.retries fun source => source.jobId = j ∧ State.isReplyDeliveryJob source = false) ∨
    (act.removes fun current => current.jobId = j ∧ State.isReplyDeliveryJob current = false) ∨
    act.tidies

theorem Recovers.of_routine (j : JobId) (act : Act) (h : act.routine) : Recovers j act := by
  refine .inl ?_
  cases act <;> first | exact h | exact h.elim

theorem releaseLineageHeadIfBlocking_path (h : Sound cfg s) {job : JobRecord} (now : Timestamp)
    {permits : State → Act → Prop} (htidy : ∀ s act, Act.tidies act → permits s act)
    (ended : ∀ x, s.attemptForJob job.jobId = some x → x.attemptState.terminal = true) :
    Path cfg permits s (s.releaseLineageHeadIfBlocking now job).1 := by
  unfold State.releaseLineageHeadIfBlocking
  split
  · exact .refl
  · rename_i x hx
    dsimp only
    split
    · exact .refl
    · rename_i inbound hinbound
      split_ifs with hskip
      · exact .refl
      · rw [Bool.or_eq_true, not_or] at hskip
        obtain ⟨hxmem, hxj⟩ := State.attemptForJob_mem hx
        have hatt : inbound.attemptId = some x.attemptId := by
          simpa using (findLast_some hinbound).2
        refine endRequest_path htidy .abandoned now
          ((h.inboxes.ok _).getLatest_of_attempt hinbound) (by simpa using hskip.2) rfl ?_
        rw [hatt, Option.bind_some, h.coherent.attempts.getAttempt_eq hxmem, hxj, hx]
        simpa using ended x hx
      · exact .refl

/-- A retry of the job a recovery is about. -/
theorem recover_retry_path (h : Sound cfg s) {j : JobId} {source : JobRecord} {t : Timestamp}
    {retried : State × JobId} (found : s.getJob j = some source)
    (delivery : State.isReplyDeliveryJob source = false)
    (hok : s.retryAttempt cfg j t = .ok retried) :
    Path cfg (fun _ act => Recovers j act) s retried.1 := by
  obtain ⟨x, source', job, m, i, hx, -, hsource, g, heq⟩ := retryAttempt_acts h hok
  have hxj := (State.attemptForJob_mem (h.coherent.retryTarget_job found hx)).2
  rw [hxj, found] at hsource
  obtain rfl := Option.some.inj hsource
  rw [heq]
  refine Relation.ReflTransGen.trans
    (Path.single (.issue 1) (Recovers.of_routine j _ trivial) trivial)
    (Path.single (.accept (.retried source) job m i t)
      (.inl ⟨(State.getJob_mem found).2, delivery⟩) g)

theorem recoverTerminalRetry_path (h : Sound cfg s) {j : JobId} {source : JobRecord}
    (found : s.getJob j = some source) (delivery : State.isReplyDeliveryJob source = false)
    (ended : source.status.terminal = true) :
    Path cfg (fun _ act => Recovers j act) s (State.recoverTerminalRetry cfg w s source).state := by
  have hid := (State.getJob_mem found).2
  unfold State.recoverTerminalRetry
  split_ifs
  · exact .refl
  · have p : Path cfg (fun _ act => Recovers j act) s
        (s.releaseLineageHeadIfBlocking (w.clock 0 .release) source).1 := by
      refine releaseLineageHeadIfBlocking_path h _ (fun s act ht => .inr (.inr ht)) fun x hx => ?_
      rw [hid] at hx
      rw [← h.coherent.attempts.ended j source x found hx]
      exact ended
    generalize s.releaseLineageHeadIfBlocking (w.clock 0 .release) source = result at p ⊢
    obtain ⟨released, flag⟩ := result
    dsimp only at p ⊢
    have hs := p.sound h
    obtain ⟨r, hr, hstatus⟩ := (p.grows h).status hs.coherent found ended
    split
    · rename_i retried hok
      have hsame := hs.coherent.same ((p.grows h).jobs (State.getJob_mem found).1) hid hr
      refine p.trans (recover_retry_path hs hr ?_ (hid ▸ hok))
      rw [← delivery]
      simp only [State.isReplyDeliveryJob, hsame.request, hsame.providerOptions]
    · exact p

/-- Cancelling without a reply: the job is marked and finished. -/
theorem cancelJob_silent_path (h : Sound cfg s) {j : JobId} {current : JobRecord}
    (found : s.getJob j = some current) (live : current.status.terminal = false)
    (delivery : State.isReplyDeliveryJob current = false) :
    Path cfg (fun _ act => Recovers j act) s (State.cancelJob cfg w s j false).1 := by
  have hid := (State.getJob_mem found).2
  obtain ⟨marked, terminal, t, x, same, -, hcancelled, htouch, hfinish, -, heq⟩ :=
    cancelJob_acts (w := w) h false found live
  have hmarked : State.isReplyDeliveryJob marked = false := by
    rw [← delivery]
    simp only [State.isReplyDeliveryJob, same.request, same.providerOptions]
  rw [heq]
  exact Relation.ReflTransGen.trans
    (Path.single (.touch marked) (Recovers.of_routine j _ trivial) htouch)
    (Path.single (.finish marked terminal t true)
      (.inr (.inl ⟨⟨same.jobId.trans hid, hmarked⟩, by rw [hcancelled]; decide⟩)) hfinish)

theorem recoverStaleRunning_path (h : Sound cfg s) {j : JobId} {source : JobRecord}
    (found : s.getJob j = some source) (delivery : State.isReplyDeliveryJob source = false)
    (running : source.status = .running) :
    Path cfg (fun _ act => Recovers j act) s (State.recoverStaleRunning cfg w s source).state := by
  have hid := (State.getJob_mem found).2
  unfold State.recoverStaleRunning
  split_ifs
  · exact .refl
  · have p := cancelJob_silent_path (w := w) h found (running_live running) delivery
    rw [← hid] at p
    generalize State.cancelJob cfg w s source.jobId false = result at p ⊢
    obtain ⟨cancelled, _ | _⟩ := result
    · exact .refl
    · dsimp only at p ⊢
      have hs := p.sound h
      rw [← hid]
      split
      · rename_i retried hok
        obtain ⟨r, hr⟩ := State.exists_getJob ((p.grows h).jobs (State.getJob_mem found).1)
        have hsame := hs.coherent.same ((p.grows h).jobs (State.getJob_mem found).1) rfl hr
        refine p.trans (recover_retry_path hs hr ?_ hok)
        rw [← delivery]
        simp only [State.isReplyDeliveryJob, hsame.request, hsame.providerOptions]
      · exact p

/-- Nothing that a failed delivery's event names is still under way. -/
theorem recoverReplyDelivery_path (h : Sound cfg s) {j : JobId} {job : JobRecord}
    (found : s.getJob j = some job) (failed : State.failedTerminal job.status = true) :
    Routine cfg s (State.recoverReplyDelivery cfg w s job).state := by
  obtain ⟨hmem, hid⟩ := State.getJob_mem found
  unfold State.recoverReplyDelivery
  split
  · rename_i id replyId hinbound hreply
    split
    · exact .refl
    · rename_i current hcurrent
      by_cases hconsumed : current.status = .consumed
      · rw [if_pos hconsumed]
        exact .refl
      rw [if_neg hconsumed]
      by_cases hbusy : ((deliveryJobIdFromPayload current.payloadRef).any fun delivery =>
          delivery != job.jobId &&
            (s.getJob delivery).any fun other => !State.failedTerminal other.status) = true
      · rw [if_pos hbusy]
        exact .refl
      rw [if_neg hbusy]
      have hcid : current.inboundEventId = id := (Mailbox.getLatest_eq_some.mp hcurrent).2
      have p : Routine cfg s
          (s.rewriteReplyHead job.agentName id replyId none (w.clock 0 .release)) := by
        subst hcid
        refine Routine.act (.reset job.agentName current replyId _) trivial ⟨hcurrent,
          .inr ⟨job, hmem, rfl, hinbound, hreply⟩, fun d hd other hother => ?_⟩
        by_cases hdj : d = job.jobId
        · rw [hdj, hid, found] at hother
          obtain rfl := Option.some.inj hother
          exact failed
        · simpa [hd, hdj, hother] using hbusy
      have q := prepare_path (w := w) (p.sound h)
        (s.rewriteReplyHead job.agentName id replyId none (w.clock 0 .release)).depth
      exact p.trans q
  · exact .refl

theorem failedTerminal_terminal {status : JobStatus} (h : State.failedTerminal status = true) :
    status.terminal = true := by
  cases status <;> first | rfl | cases h

theorem commsRecover_path (h : Sound cfg s) (j : JobId) (d : Option JobId) (hint : Bool) :
    Path cfg (fun _ act => Recovers j act) s (State.commsRecover cfg w s j d hint).1 := by
  have hroutine : ∀ {s s' : State}, Routine cfg s s' →
      Path cfg (fun _ act => Recovers j act) s s' :=
    fun p => p.mono fun _ act hr => Recovers.of_routine j act hr
  unfold State.commsRecover
  split
  · exact .refl
  · rename_i source hsource
    split_ifs with hdelivery
    · exact .refl
    · have hd : State.isReplyDeliveryJob source = false := by simpa using hdelivery
      have key : ∀ done, State.recoverSource cfg w s source (d.bind s.getJob) hint = some done →
          Path cfg (fun _ act => Recovers j act) s done.state := by
        intro done hdone
        unfold State.recoverSource at hdone
        split at hdone
        · rename_i job hjob
          obtain ⟨hjob, hfailed⟩ := Option.filter_eq_some_iff.mp hjob
          obtain ⟨i, -, hi⟩ := Option.bind_eq_some_iff.mp hjob
          rw [Bool.and_eq_true] at hfailed
          obtain rfl := Option.some.inj hdone
          exact hroutine (recoverReplyDelivery_path h hi hfailed.1)
        · split_ifs at hdone with hfailed hretry hrunning
          · obtain rfl := Option.some.inj hdone
            exact recoverTerminalRetry_path h hsource hd (failedTerminal_terminal hfailed)
          · rw [Bool.and_eq_true] at hrunning
            obtain rfl := Option.some.inj hdone
            exact recoverStaleRunning_path h hsource hd (by simpa using hrunning.1)
      split
      · exact .refl
      · rename_i done hdone
        have p := key done hdone
        split_ifs
        · exact p.trans (hroutine (tickJobs_path (p.sound h)))
        · have q := prepare_path (w := w) (p.sound h) done.state.depth
          exact p.trans (hroutine (q.trans (tickJobs_path (q.sound (p.sound h)))))
        · exact p

/-! ### Every operation -/

/-- The shutdown works on the jobs that have not ended. -/
theorem mem_latestNonterminalJobIds (h : Coherent cfg s) {j : JobId} :
    j ∈ s.latestNonterminalJobIds cfg ↔ s.live j := by
  unfold State.latestNonterminalJobIds
  rw [List.mem_flatMap]
  constructor
  · rintro ⟨a, -, hj⟩
    obtain ⟨r, hr, rfl⟩ := List.mem_map.mp hj
    obtain ⟨hr, hlive⟩ := List.mem_filter.mp hr
    refine ⟨r, ?_, by simpa using hlive⟩
    exact (h.board.find_listAgent.mp (findLast_key_some.mpr ⟨hr, rfl⟩)).1
  · rintro ⟨r, hr, hlive⟩
    obtain ⟨hmem, hid⟩ := State.getJob_mem hr
    have hfind := h.board.find_listAgent.mpr (⟨hr, rfl⟩ : _ ∧ r.agentName = r.agentName)
    refine ⟨r.agentName, h.board.known r hmem, List.mem_map.mpr ⟨r, ?_, hid⟩⟩
    exact List.mem_filter.mpr ⟨(findLast_key_some.mp hfind).1, by simpa using hlive⟩

theorem terminateNonterminalJobs_path (h : Sound cfg s) :
    Path cfg (Op.shutdown.permits cfg w s) s (State.terminateNonterminalJobs cfg w s) := by
  refine Path.foldl (fun s' p hs j hj => ?_) h
  split
  · exact .refl
  · rename_i current hfound
    split_ifs with hterm
    · exact .refl
    · have live : current.status.terminal = false := by simpa using hterm
      have hlive : s.live j := (mem_latestNonterminalJobIds h.coherent).mp hj
      obtain ⟨terminal, t, hstatus, g, q⟩ := terminateJobForShutdown_path (w := w) hs hfound live
      refine Relation.ReflTransGen.trans (Path.single (.finish current terminal t true)
        ⟨j, hlive, .inr ⟨(State.getJob_mem hfound).2, by rw [hstatus]; decide⟩⟩ g) ?_
      exact q.mono fun s'' act hact => ⟨j, hlive, .inl (Act.settles_of_answers s'' act hact)⟩

theorem complete_path (h : Sound cfg s) {j : JobId} (decision : CompletionDecision)
    (admissible : (Op.complete j decision).admissible s) :
    Path cfg ((Op.complete j decision).permits cfg w s) s (State.complete cfg w s j decision) := by
  rcases hfound : s.getJob j with _ | current
  · simp only [State.complete, State.depth, State.completeJob, hfound]
    exact .refl
  · by_cases live : current.status.terminal = true
    · simp only [State.complete, State.depth, State.completeJob, hfound, live, ↓reduceIte]
      exact .refl
    · have live : current.status.terminal = false := by simpa using live
      have running := JobStatus.running_of_live live (admissible current hfound)
      obtain ⟨g, p⟩ := completeJob_path (w := w) h s.jobs.length decision hfound live
        (fun _ => running) (clearActive_eq_leave s.memory _ _)
      have hlive : s.live j := ⟨current, hfound, live⟩
      refine Relation.ReflTransGen.trans (Path.single (.finish current _ _ false)
        ⟨hlive, rfl, .inl (State.getJob_mem hfound).2⟩ g) ?_
      exact p.mono fun s' act hact => ⟨hlive, hact⟩

theorem cancel_path (h : Sound cfg s) (j : JobId) (recordReply : Bool) :
    Path cfg ((Op.cancel j recordReply).permits cfg w s) s
      (State.cancelJob cfg w s j recordReply).1 := by
  rcases hfound : s.getJob j with _ | current
  · simp only [State.cancelJob, hfound]
    exact .refl
  · by_cases live : current.status.terminal = true
    · simp only [State.cancelJob, hfound, live, ↓reduceIte]
      split_ifs <;> exact .refl
    · have live : current.status.terminal = false := by simpa using live
      have hid := (State.getJob_mem hfound).2
      obtain ⟨marked, terminal, t, x, same, -, hcancelled, htouch, hfinish, hreply, heq⟩ :=
        cancelJob_acts (w := w) h recordReply hfound live
      have hmarked : marked.jobId = j := same.jobId.trans hid
      have p : Path cfg ((Op.cancel j recordReply).permits cfg w s) s
          ((s.appendJob marked).finish terminal t true) :=
        Relation.ReflTransGen.trans (Path.single (.touch marked) (.inl trivial) htouch)
          (Path.single (.finish marked terminal t true)
            (.inr (.inl ⟨⟨hmarked, rfl⟩, by rw [hcancelled]; decide⟩)) hfinish)
      rw [heq]
      split_ifs with hrec
      · refine p.trans (Path.single (.reply terminal x .cancelled _ t) (.inr (.inr ⟨terminal, x, _,
          _, t, rfl, ?_, hrec, ⟨current, hfound, live⟩, ?_⟩)) hreply)
        · exact hfinish.2.2.2.1.jobId.trans hmarked
        · exact (Act.effects (Act.sound htouch h).coherent hfinish).edges.trans (List.append_nil _)
      · exact p

/-- Only notices are recorded while edges are repaired. -/
theorem repairs_path (p : Path cfg (Act.repairs cfg w) s s') (h : Sound cfg s) :
    Path cfg (fun _ act => act.repairs cfg w s) s s' := by
  refine p.refine (I := fun s' => ∀ r ∈ s'.replies, r.notice = false → r ∈ s.replies)
    (fun s₁ act hs hI hp g r hr hn => ?_) (fun s₁ act hs hI hp => ?_) h fun r hr _ => hr
  · rw [(Act.effects hs.coherent g).replies, List.mem_append] at hr
    rcases hr with hr | hr
    · exact hI r hr hn
    · cases act <;> simp only [Act.newReply, Option.toList_none, Option.toList_some,
        List.not_mem_nil, List.mem_singleton] at hr
      · exact hp.elim
      · rw [hr] at hn
        contradiction
  · cases act <;> try exact hp
    obtain ⟨⟨r, hr, hm, hn⟩, hexp⟩ := hp
    exact ⟨⟨r, hI r hr hn, hm, hn⟩, hexp⟩

/-- Every operation performs only the acts it may perform. -/
theorem exec_path (h : Sound cfg s) (op : Op) (admissible : op.admissible s) :
    Path cfg (op.permits cfg w s) s (exec cfg w s op) := by
  cases op with
  | submit request =>
    simp only [exec, State.submitJobs]
    split
    · exact .refl
    · rename_i plan hplan
      obtain ⟨hrequest, known, haddr, single, -, -, distinct⟩ := planAgentSubmission_ok hplan
      refine submitPlan_path h plan _ (fun _ _ => trivial) (fun _ message hfrom htargets => ?_)
        (fun _ _ _ hroute => hrequest ▸ hroute) (fun _ _ => trivial) known distinct
        (hrequest ▸ single)
        (hrequest ▸ admissible)
      exact ⟨hrequest ▸ hfrom, htargets ▸ haddr⟩
  | resubmit id =>
    simp only [exec, State.resubmitMessage]
    split
    · exact .refl
    · rename_i plan hplan
      obtain ⟨known, ⟨m, hm, hfrom, htargets⟩, ⟨r, hr, hworks, hroute⟩, single, -⟩ :=
        planMessageResubmission_ok hplan
      refine submitPlan_path h plan _ (fun _ _ => trivial) (fun _ message hfrom' htargets' => ?_)
        (fun _ _ _ hjob => ⟨r, hr, hworks, hjob.trans hroute⟩) (fun _ _ => trivial) known ?_ single
        ?_
      · exact ⟨m, hm, hfrom'.trans hfrom, htargets'.trans htargets⟩
      · exact htargets ▸ (h.coherent.messages m hm).targets
      · rw [hroute]
        exact h.coherent.jobs.edge_issued r hr
  | retry target =>
    simp only [exec]
    split
    · rename_i retried hok
      obtain ⟨x, source, job, m, i, hx, -, hsource, g, heq⟩ := retryAttempt_acts h hok
      rw [heq]
      exact Relation.ReflTransGen.trans (Path.single (.issue 1) trivial trivial)
        (Path.single (.accept (.retried source) job m i _)
          ⟨x, hx, (State.getJob_mem hsource).2.symm⟩ g)
    · exact .refl
  | tick => exact repairs_path (tick_path h) h
  | sweepCallbacks => exact sweepCallbackTimeouts_path (fun _ _ hr => hr) h _
  | repairCallbacks => exact repairs_path (repairCallbackEdges_path h) h
  | prepareReplies => exact prepare_path h s.depth
  | startJobs => exact tickJobs_path h
  | complete j decision => exact complete_path h decision admissible
  | cancel j recordReply => exact cancel_path h j recordReply
  | ack a id => exact ackReply_path (fun _ _ ht => .inr ht) (fun _ _ hr => .inl hr) id
  | recover j d hint => exact commsRecover_path h j d hint
  | inspect a =>
    simp only [exec]
    split_ifs
    · exact discardStaleHeads_path (fun _ _ ht => ht) _ _ _
    · exact .refl
  | disableAutoReplyDelivery => exact Path.single .disableAuto trivial trivial
  | shutdown => exact terminateNonterminalJobs_path h

/-! ### Runs -/

section Runs
variable {allowed : World → State → Op → Prop}

theorem Reachable.initial (auto : Bool) : Reachable cfg allowed (State.initial auto) :=
  ⟨auto, .refl⟩

theorem Reachable.exec (h : Reachable cfg allowed s) {op : Op} (hadm : op.admissible s)
    (hallowed : allowed w s op) : Reachable cfg allowed (exec cfg w s op) := by
  obtain ⟨auto, run⟩ := h
  exact ⟨auto, run.tail ⟨w, op, hadm, hallowed, rfl⟩⟩

theorem Step.sound (step : Step cfg allowed s s') (h : Sound cfg s) : Sound cfg s' := by
  obtain ⟨w, op, hadm, -, rfl⟩ := step
  exact (exec_path h op hadm).sound h

theorem Reachable.sound (h : Reachable cfg allowed s) : Sound cfg s := by
  obtain ⟨auto, run⟩ := h
  induction run with
  | refl => exact Sound.initial auto
  | tail _ step ih => exact step.sound ih

/-- What holds at the start and survives every permitted act holds in every state of a
run. -/
theorem Reachable.invariant {I : State → Prop} (initial : ∀ auto, I (State.initial auto))
    (step : ∀ w op s₀ s act, Reachable cfg allowed s₀ → op.admissible s₀ → allowed w s₀ op →
      I s₀ → Path cfg (op.permits cfg w s₀) s₀ s → Sound cfg s → I s →
      op.permits cfg w s₀ s act → act.guard cfg s → I (act.apply cfg s))
    (h : Reachable cfg allowed s) : I s := by
  obtain ⟨auto, run⟩ := h
  induction run with
  | refl => exact initial auto
  | tail run hstep ih =>
    rename_i s₀ _
    have hreach : Reachable cfg allowed s₀ := ⟨auto, run⟩
    obtain ⟨w, op, hadm, hallowed, rfl⟩ := hstep
    have hs := hreach.sound
    have key : ∀ s', Path cfg (op.permits cfg w s₀) s₀ s' → I s' := by
      intro s' p
      induction p with
      | refl => exact ih
      | tail p hact ih' =>
        obtain ⟨act, hp, g, rfl⟩ := hact
        exact step w op s₀ _ act hreach hadm hallowed ih p (Path.sound p hs) ih' hp g
    exact key _ (exec_path hs op hadm)

end Runs

end CodexBridge.Dispatch
