import CodexBridge.Dispatch.JobRuns

/-! Refused submissions. A plan that is refused has written nothing; once the jobs are
recorded only the late check of the callback route can still refuse, and it finds
what it would have found before the jobs were recorded. -/

namespace CodexBridge.Dispatch

open AppendLog

variable {cfg : Config} {w : World} {s s' : State} {allowed : World → State → Op → Prop}

/-! ### The late check -/

theorem callbackChain_congr (he : s'.edges = s.edges) (fuel : ℕ) (seen : List MessageId)
    (m : MessageId) : s'.callbackChain fuel seen m = s.callbackChain fuel seen m := by
  induction fuel generalizing seen m with
  | zero => rfl
  | succ fuel ih =>
    have hedge : s'.edgeForChildMessage m = s.edgeForChildMessage m := by
      unfold State.edgeForChildMessage
      rw [he]
    simp only [State.callbackChain, hedge, ih]

/-- The check of a callback route reads the edges and the active jobs only. -/
theorem validateCallbackRequest_congr (he : s'.edges = s.edges)
    (ha : s'.memory.active = s.memory.active)
    (hj : ∀ a j, s.memory.active a = some j →
      s'.getJob j = s.getJob j ∧ s'.messageForJob j = s.messageForJob j)
    (request : MessageEnvelope) :
    s'.validateCallbackRequest cfg request = s.validateCallbackRequest cfg request := by
  have hparent : s'.activeParentJob cfg request.fromActor =
      s.activeParentJob cfg request.fromActor := by
    unfold State.activeParentJob
    rw [ha]
    split
    · split_ifs
      · exact Option.bind_congr fun j hactive => (hj _ j hactive).1
      · rfl
    · rfl
  unfold State.validateCallbackRequest State.validateNestedAskRequest
  rw [hparent]
  rcases hp : s.activeParentJob cfg request.fromActor with _ | parent
  · rfl
  · obtain ⟨a, hactive, -⟩ := activeParentJob_active hp
    have hmessage := (hj a _ hactive).2
    have hedge : s'.edgeForParentJob parent.jobId = s.edgeForParentJob parent.jobId := by
      unfold State.edgeForParentJob
      rw [he]
    have hchain : ∀ m, s'.callbackChainForParent m = s.callbackChainForParent m := by
      intro m
      unfold State.callbackChainForParent
      rw [he, callbackChain_congr he]
    simp only [State.validateCallbackChain, hmessage, hedge, hchain]

/-- An edge is refused exactly when its route is. -/
theorem registerCallbackEdge_snd {request : MessageEnvelope} {jobs : List JobRecord}
    {id : MessageId} {t : Timestamp}
    (single : ∀ a, request.target = .agent a → jobs.length = 1) :
    (s.registerCallbackEdge cfg request jobs id t).2 = s.validateCallbackRequest cfg request := by
  unfold State.registerCallbackEdge
  rcases hvalid : s.validateCallbackRequest cfg request with e | u
  · rfl
  · by_cases hroute : requestCallbackRoute request = true
    · obtain ⟨parent, hparent, -, hchain⟩ := validateCallbackRequest_ok hroute hvalid
      obtain ⟨a, htarget⟩ := validateCallbackRequest_target hroute hvalid
      obtain ⟨child, rfl⟩ := List.length_eq_one_iff.mp (single a htarget)
      rcases hm : s.messageForJob parent.jobId with _ | message
      · simp [State.validateCallbackChain, hm] at hchain
      · simp [hroute, hparent, hm]
    · simp [hroute]

theorem registerCallbackEdge_jobs (request : MessageEnvelope) (jobs : List JobRecord)
    (id : MessageId) (t : Timestamp) :
    (s.registerCallbackEdge cfg request jobs id t).1.jobs = s.jobs := by
  unfold State.registerCallbackEdge
  split
  · rfl
  · split_ifs
    · rfl
    · split
      · split <;> rfl
      · rfl

/-! ### Recorded submissions -/

/-- What a submission with a target has written when its callback edge is registered. -/
structure Written (s : State) (drafts : List JobRecord) (recorded : State) : Prop where
  jobs : recorded.jobs = s.jobs ++ drafts
  edges : recorded.edges = s.edges
  active : recorded.memory.active = s.memory.active
  attempts : ∃ xs, recorded.attempts = s.attempts ++ xs ∧
    ∀ x ∈ xs, ∃ job ∈ drafts, x.jobId = job.jobId
  messages : ∃ m, recorded.messages = s.messages ++ [m] ∧ s.nextId < m.messageId

theorem submitPlan_written (cfg : Config) (s : State) (plan : SubmissionPlan) (t : Timestamp)
    (hne : plan.targets ≠ []) :
    ∃ jobs recorded id, Drafts plan.request plan.targets (s.nextId + 1) jobs ∧
      Written s jobs recorded ∧
      (s.submitPlan cfg plan t).2.toOption.isSome =
        (recorded.registerCallbackEdge cfg plan.request jobs id t).2.toOption.isSome ∧
      (s.submitPlan cfg plan t).1 =
        (recorded.registerCallbackEdge cfg plan.request jobs id t).1 := by
  obtain ⟨jobs, heq, d⟩ := enqueueDrafts_spec cfg s plan t
  have hjobs : jobs.isEmpty = false := by
    have hagents := d.agents
    cases jobs with
    | nil => exact absurd hagents.symm hne
    | cons => rfl
  set s₁ : State := ({ s with nextId := s.nextId + 1 + jobs.length } : State).drafted jobs with hs₁
  set message := s₁.submissionMessage plan.request jobs plan.submissionId t plan.originMessageId
  set s₂ : State := { s₁ with messages := s₁.messages ++ [message], nextId := s₁.nextId + 1 }
    with hs₂
  obtain ⟨xs, hattempts, hnew, -, hj, hm, -, he, hmem⟩ :=
    recordAttempts_logs s₂ jobs message.messageId t
  refine ⟨jobs, jobs.foldl (fun s job => s.recordAttempt message.messageId job 0 t) s₂,
    message.messageId, d, ⟨hj, he, ?_, ⟨xs, hattempts, ?_⟩, ⟨message, hm, ?_⟩⟩, ?_⟩
  · rw [hmem]
    exact active_foldl_enqueue jobs s.memory
  · intro x hx
    obtain ⟨-, job, hjob, hxj, -⟩ := hnew x hx
    exact ⟨job, hjob, hxj⟩
  · show s.nextId < s.nextId + 1 + jobs.length
    omega
  · have hrecord : s₁.recordSubmission plan.request jobs plan.submissionId t plan.originMessageId =
        (jobs.foldl (fun s job => s.recordAttempt message.messageId job 0 t) s₂,
          some message.messageId) := by
      unfold State.recordSubmission
      rw [hjobs]
      rfl
    unfold State.submitPlan
    rw [heq]
    dsimp only
    rw [hrecord]
    dsimp only
    split
    · rename_i registered u hok
      rw [hok]
      exact ⟨rfl, rfl⟩
    · rename_i registered e herror
      rw [herror]
      exact ⟨rfl, rfl⟩

/-- The late check answers as a check before the writes would have. -/
theorem Written.validateCallbackRequest {jobs : List JobRecord} {recorded : State}
    {request : MessageEnvelope} {targets : List AgentName} (wr : Written s jobs recorded)
    (h : Coherent cfg s) (d : Drafts request targets (s.nextId + 1) jobs)
    (request' : MessageEnvelope) :
    recorded.validateCallbackRequest cfg request' = s.validateCallbackRequest cfg request' := by
  refine validateCallbackRequest_congr wr.edges wr.active (fun a j hactive => ?_) request'
  obtain ⟨r, hr, -⟩ := (h.board.active a j).mp hactive
  have hlt : j < s.nextId := (State.getJob_mem hr).2 ▸ h.jobs.issued r (State.getJob_mem hr).1
  have hnew : ∀ job ∈ jobs, job.jobId ≠ j := fun job hjob =>
    (hlt.trans (Nat.lt_of_succ_le (d.bounds hjob).1)).ne'
  constructor
  · unfold State.getJob
    rw [wr.jobs]
    exact findLast_append_of_none fun job hjob => by simpa using hnew job hjob
  · obtain ⟨xs, hattempts, hxs⟩ := wr.attempts
    obtain ⟨m, hmessages, hm⟩ := wr.messages
    have hattempt : recorded.attemptForJob j = s.attemptForJob j := by
      unfold State.attemptForJob
      rw [hattempts]
      refine findLast_append_of_none fun x hx => ?_
      obtain ⟨job, hjob, hxj⟩ := hxs x hx
      simpa [hxj] using hnew job hjob
    unfold State.messageForJob
    rw [hattempt]
    refine Option.bind_congr fun x hx => ?_
    have hxm := h.message_lt (State.attemptForJob_mem hx).1
    unfold State.getMessage
    rw [hmessages]
    exact findLast_append_of_none fun r hr => by
      obtain rfl := List.mem_singleton.mp hr
      simpa using (hxm.trans hm).ne'

/-- A plan is refused late exactly when its route is refused where the plan was made. -/
theorem submitPlan_refused (h : Coherent cfg s) {plan : SubmissionPlan} (t : Timestamp)
    (hne : plan.targets ≠ [])
    (single : ∀ a, plan.request.target = .agent a → plan.targets = [a]) :
    (s.submitPlan cfg plan t).2.toOption.isSome =
        (s.validateCallbackRequest cfg plan.request).toOption.isSome ∧
      (s.submitPlan cfg plan t).1.jobs ≠ s.jobs := by
  obtain ⟨jobs, recorded, id, d, wr, hsnd, hfst⟩ := submitPlan_written cfg s plan t hne
  have hlength : ∀ a, plan.request.target = .agent a → jobs.length = 1 := by
    intro a ha
    have hagents := congrArg List.length d.agents
    rw [List.length_map, single a ha] at hagents
    exact hagents
  constructor
  · rw [hsnd, registerCallbackEdge_snd hlength, wr.validateCallbackRequest h d]
  · rw [hfst, registerCallbackEdge_jobs, wr.jobs]
    intro heq
    have hagents := d.agents
    rw [List.append_right_eq_self.mp heq] at hagents
    exact hne hagents.symm

/-! ### Refusals -/

/-- Every store, the mailbox summaries and the queues are as they were. -/
structure Unchanged (s s' : State) : Prop where
  jobs : s'.jobs = s.jobs
  messages : s'.messages = s.messages
  attempts : s'.attempts = s.attempts
  replies : s'.replies = s.replies
  edges : s'.edges = s.edges
  mailboxes : s'.mailboxes = s.mailboxes
  memory : s'.memory = s.memory

theorem Unchanged.refl (s : State) : Unchanged s s := ⟨rfl, rfl, rfl, rfl, rfl, rfl, rfl⟩

/-- A message can be sent again where the check of its callback route lets it pass, or
where the resubmission is refused before that check. -/
def resubmitsCleanly (cfg : Config) (w : World) (s : State) (messageId : MessageId) : Prop :=
  ∀ plan, s.planMessageResubmission cfg w messageId = .ok plan →
    s.validateCallbackRequest cfg plan.request = .ok ()

theorem submitJobs_refused (h : Coherent cfg s) (w : World) (request : MessageEnvelope)
    {e : DispatchError} (herror : (s.submitJobs cfg w request).2 = .error e) :
    (s.submitJobs cfg w request).1 = s := by
  unfold State.submitJobs at herror ⊢
  rcases hplan : s.planAgentSubmission cfg w request with e' | plan
  · rfl
  · rw [hplan] at herror
    obtain ⟨hrequest, -, -, single, hvalid, hne, -⟩ := planAgentSubmission_ok hplan
    have hok := (submitPlan_refused h (w.clock 0 .accepted) hne (hrequest.symm ▸ single)).1
    dsimp only at herror
    rw [herror, hrequest, hvalid] at hok
    contradiction

theorem resubmitMessage_refused_iff (h : Coherent cfg s) (w : World) (messageId : MessageId) :
    (∀ e, (s.resubmitMessage cfg w messageId).2 = .error e →
      Unchanged s (s.resubmitMessage cfg w messageId).1) ↔
        resubmitsCleanly cfg w s messageId := by
  unfold State.resubmitMessage resubmitsCleanly
  rcases hplan : s.planMessageResubmission cfg w messageId with e | plan
  · refine ⟨fun _ plan hok => ?_, fun _ _ _ => Unchanged.refl s⟩
    contradiction
  · obtain ⟨-, -, -, single, hne⟩ := planMessageResubmission_ok hplan
    obtain ⟨hok, hjobs⟩ := submitPlan_refused h (w.clock 0 .accepted) hne single
    dsimp only
    constructor
    · rintro hclean plan' heq
      obtain rfl := Except.ok.inj heq
      rcases hvalid : s.validateCallbackRequest cfg plan.request with e | u
      · rw [hvalid] at hok
        rcases hres : (s.submitPlan cfg plan (w.clock 0 .accepted)).2 with e' | id
        · exact absurd (hclean e' hres).jobs hjobs
        · rw [hres] at hok
          contradiction
      · rfl
    · intro hvalid e herror
      rw [herror, hvalid plan rfl] at hok
      contradiction

/-- A refused submission has written nothing, and a refused resubmission has written
nothing exactly when the callback route of the message still passes its check. -/
theorem submission_atomic_on_refusal (run : Reachable cfg allowed s) (w : World) :
    (∀ request e, (s.submitJobs cfg w request).2 = .error e →
      Unchanged s (s.submitJobs cfg w request).1) ∧
    ∀ messageId, (∀ e, (s.resubmitMessage cfg w messageId).2 = .error e →
      Unchanged s (s.resubmitMessage cfg w messageId).1) ↔
        resubmitsCleanly cfg w s messageId := by
  have h := run.sound.coherent
  refine ⟨fun request e herror => ?_, resubmitMessage_refused_iff h w⟩
  rw [submitJobs_refused h w request herror]
  exact Unchanged.refl s

/-- An agent that nobody has asked anything asks another one, and gets a task of its
own before its message is sent again. -/
def Sample.askedThenBusy : List (Timestamp × Op) :=
  [(Mailbox.sampleTime, .submit (Sample.ask (.agent "agent1") "agent2" none)),
    (Mailbox.sampleTime, .tick), (Mailbox.sampleTime, .cancel 1 false),
    (Mailbox.sampleTime, .submit (Sample.ask .user "agent1" none)), (Mailbox.sampleTime, .tick)]

theorem Sample.askedThenBusy_reachable :
    Reachable Sample.config (fun _ _ _ => True) (Sample.after Sample.askedThenBusy) :=
  Sample.reachable_after (by decide +kernel)

theorem submission_atomic_on_refusal_nested :
    Unchanged (Sample.after Sample.askedThenBusy)
      ((Sample.after Sample.askedThenBusy).submitJobs Sample.config
        (Sample.world Mailbox.sampleTime) (Sample.ask (.agent "agent1") "agent2" none)).1 := by
  refine (submission_atomic_on_refusal Sample.askedThenBusy_reachable
    (Sample.world Mailbox.sampleTime)).1 _ .nestedAskRequiresCallback ?_
  decide +kernel

/-- The message of a sender that has become busy is recorded once more and then refused. -/
theorem resubmission_refused_after_recording :
    ((Sample.after Sample.askedThenBusy).resubmitMessage Sample.config
        (Sample.world Mailbox.sampleTime) 2).2 = .error .nestedAskRequiresCallback ∧
      ¬Unchanged (Sample.after Sample.askedThenBusy)
        ((Sample.after Sample.askedThenBusy).resubmitMessage Sample.config
          (Sample.world Mailbox.sampleTime) 2).1 := by
  refine ⟨by decide +kernel, fun hsame => ?_⟩
  have hlength := congrArg List.length hsame.jobs
  revert hlength
  decide +kernel

end CodexBridge.Dispatch
