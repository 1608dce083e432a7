import CodexBridge.Dispatch.CallbackPaths

/-! Retries, completions, cancellations and starts as paths of acts. A completion
finishes its job and then settles it; only what it settles depends on the job. -/

namespace CodexBridge.Dispatch

open AppendLog

variable {cfg : Config} {w : World} {s s' : State} {permits : State → Act → Prop}

/-! ### Retry -/

/-- The attempt the retry planner takes is the greatest of its agent by the sort key. -/
theorem State.latestAttemptForAgent_spec (s : State) (m : MessageId) (a : AgentName) :
    match s.latestAttemptForAgent m a with
    | none => ∀ x ∈ s.latestAttempts m, x.agentName ≠ a
    | some best => best ∈ s.latestAttempts m ∧ best.agentName = a ∧
      ∀ x ∈ s.latestAttempts m, x.agentName = a →
        State.attemptSortKey x ≤ State.attemptSortKey best := by
  unfold State.latestAttemptForAgent
  induction s.latestAttempts m using List.reverseRecOn with
  | nil => simp
  | append_singleton l x ih =>
    rw [List.foldl_append, List.foldl_cons, List.foldl_nil]
    simp only [List.mem_append, List.mem_singleton, or_imp, forall_and, forall_eq]
    split_ifs with hxa
    · generalize l.foldl _ none = found at ih ⊢
      rcases found with _ | y
      · exact ⟨.inr rfl, hxa, fun z hz ha => absurd ha (ih z hz), fun _ => le_rfl⟩
      · obtain ⟨hy, hya, hbest⟩ := ih
        dsimp only
        split_ifs with hlt
        · exact ⟨.inr rfl, hxa, fun z hz ha => (hbest z hz ha).trans hlt.le, fun _ => le_rfl⟩
        · exact ⟨.inl hy, hya, hbest, fun _ => not_lt.mp hlt⟩
    · generalize l.foldl _ none = found at ih ⊢
      rcases found with _ | y
      · exact ⟨ih, hxa⟩
      · exact ⟨.inl ih.1, ih.2.1, ih.2.2, fun ha => absurd ha hxa⟩

theorem State.latestAttemptForAgent_eq {m : MessageId} {a : AgentName} {best : AttemptRecord}
    (h : s.latestAttemptForAgent m a = some best) :
    best ∈ s.latestAttempts m ∧ best.agentName = a ∧
      ∀ x ∈ s.latestAttempts m, x.agentName = a →
        State.attemptSortKey x ≤ State.attemptSortKey best := by
  have hspec := s.latestAttemptForAgent_spec m a
  rwa [h] at hspec

theorem planRetry_ok {target : ℕ} {plan : State.RetryPlan} (h : s.planRetry cfg target = .ok plan) :
    (s.getAttempt target <|> s.attemptForJob target) = some plan.attempt ∧
      plan.attempt.attemptState.terminal = true ∧
      plan.attempt.agentName ∈ cfg.agents ∧
      (∃ newest, s.latestAttemptForAgent plan.attempt.messageId plan.attempt.agentName =
        some newest ∧ newest.attemptId = plan.attempt.attemptId) ∧
      findLast (fun record => decide (record.jobId = plan.attempt.jobId))
        (s.listAgent plan.attempt.agentName) = some plan.job := by
  unfold State.planRetry at h
  simp only [bind, Except.bind, pure, Except.pure, throw, throwThe, MonadExceptOf.throw] at h
  split at h
  · rename_i attempt hattempt
    split_ifs at h with hlive hcompleted
    split at h
    · rename_i newest hnewest
      split_ifs at h with hlatest
      split at h
      · rename_i message hmessage
        split at h
        · contradiction
        · rename_i u hvalid
          split at h
          · rename_i job hjob
            obtain rfl := Except.ok.inj h
            exact ⟨hattempt, by simpa using hlive, validateTargetsAvailable_known hvalid,
              ⟨newest, hnewest, not_not.mp hlatest⟩, hjob⟩
          · contradiction
      · contradiction
    · contradiction
  · contradiction

/-- The attempt a retry is asked for. -/
theorem State.retryTarget_mem {target : ℕ} {x : AttemptRecord}
    (h : (s.getAttempt target <|> s.attemptForJob target) = some x) : x ∈ s.attempts := by
  rcases hg : s.getAttempt target with _ | y
  · rw [hg] at h
    exact (State.attemptForJob_mem (by simpa using h)).1
  · rw [hg] at h
    obtain rfl := Option.some.inj (by simpa using h)
    exact (State.getAttempt_mem hg).1

/-- The attempt a retry is asked for, at its latest row. -/
theorem Coherent.retryTarget_latest (h : Coherent cfg s) {target : ℕ} {x : AttemptRecord}
    (hx : (s.getAttempt target <|> s.attemptForJob target) = some x) :
    s.attemptForJob x.jobId = some x := by
  rcases hg : s.getAttempt target with _ | y
  · rw [hg] at hx
    have hx : s.attemptForJob target = some x := by simpa using hx
    rwa [(State.attemptForJob_mem hx).2]
  · rw [hg] at hx
    obtain rfl := Option.some.inj (by simpa using hx)
    obtain ⟨hy, hyid⟩ := State.getAttempt_mem hg
    rw [← h.attempts.getAttempt_eq hy, hyid, hg]

/-- A job identifier asks for the attempt of that job. -/
theorem Coherent.retryTarget_job (h : Coherent cfg s) {j : JobId} {r : JobRecord}
    {x : AttemptRecord} (found : s.getJob j = some r)
    (hx : (s.getAttempt j <|> s.attemptForJob j) = some x) : s.attemptForJob j = some x := by
  obtain ⟨hmem, hid⟩ := State.getJob_mem found
  rcases hg : s.getAttempt j with _ | y
  · rw [hg] at hx
    simpa using hx
  · obtain ⟨hy, hyid⟩ := State.getAttempt_mem hg
    exact absurd (hyid.trans hid.symm) (h.distinct y hy r hmem)

/-- A retry issues an identifier and admits a job under it. -/
theorem retryAttempt_acts (h : Sound cfg s) {target : ℕ} {t : Timestamp} {retried : State × JobId}
    (hok : s.retryAttempt cfg target t = .ok retried) :
    ∃ x source job m i, (s.getAttempt target <|> s.attemptForJob target) = some x ∧
      x.attemptState.terminal = true ∧ s.getJob x.jobId = some source ∧
      (Act.accept (.retried source) job m i t).guard cfg ((Act.issue 1).apply cfg s) ∧
      retried.1 = (Act.accept (.retried source) job m i t).apply cfg
        ((Act.issue 1).apply cfg s) := by
  unfold State.retryAttempt at hok
  simp only [bind, Except.bind, pure, Except.pure] at hok
  split at hok
  · contradiction
  · rename_i plan hplan
    obtain rfl := Except.ok.inj hok
    obtain ⟨hattempt, hterm, known, ⟨newest, hnewest, hid⟩, hfind⟩ := planRetry_ok hplan
    have hxmem := State.retryTarget_mem hattempt
    obtain ⟨hjob, hagent⟩ := h.coherent.board.find_listAgent.mp hfind
    have hjob : s.getJob plan.attempt.jobId = some plan.job := hjob
    obtain ⟨hjmem, hjid⟩ := State.getJob_mem hjob
    have hnmem := State.mem_of_latestAttempts (State.latestAttemptForAgent_eq hnewest).1
    have hnjob := (h.coherent.attempts.key newest hnmem.1 _ hxmem (.inl hid)).jobId
    have hended := h.coherent.attempts.ended _ _ _ hjob (h.coherent.retryTarget_latest hattempt)
    refine ⟨plan.attempt, plan.job, s.retryJobRecord plan t, plan.attempt.messageId,
      s.nextRetryIndex plan.attempt.messageId plan.job.agentName, hattempt, hterm, hjob,
      ⟨⟨Nat.lt_succ_self _, ?_, ?_, State.pendingStatus_pending _ _, hagent ▸ known, ?_⟩,
        ⟨hjid.symm ▸ hjob, rfl, ?_, ?_, ?_, rfl, ⟨plan.attempt, hxmem, hjid.symm, rfl⟩,
          hended.trans hterm, ⟨newest, hagent.symm ▸ hnewest, hnjob.trans hjid.symm⟩, rfl⟩⟩, rfl⟩
    · intro r hr
      exact (h.coherent.jobs.issued r hr).ne
    · intro x hx
      exact (h.coherent.attempts.issued x hx).ne
    · intro e he
      refine (h.coherent.jobs.edge_issued plan.job hjmem e ?_).trans (Nat.lt_succ_self _)
      simp only [State.retryJobRecord, State.retryRequestForJob] at he
      split_ifs at he <;> exact he
    all_goals
      simp only [State.retryJobRecord, State.retryRequestForJob]
      split_ifs <;> rfl

/-! ### Settling a completion -/

/-- What ending the job `j` takes beside routine acts: it leaves its slot, its parent's
message waits, it is retried, its child edge is continued, or its reply is recorded. -/
def Act.settles (j : JobId) (s : State) : Act → Prop
  | .finish current _ _ dequeue =>
    dequeue = false ∧ (current.jobId = j ∨ State.isReplyDeliveryJob current = true)
  | .waiting edge _ => edge.parentJobId = j
  | .accept (.retried source) _ _ _ _ =>
    source.jobId = j ∧ State.isReplyDeliveryJob source = false
  | .continuation edge _ _ => ∃ x ∈ s.attempts, x.jobId = j ∧ x.messageId = edge.childMessageId
  | .reply job attempt _ recipient _ =>
    job.jobId = j ∧ (recipient = none ∨ ∀ e ∈ s.edges, e.childMessageId ≠ attempt.messageId)
  | .update .. | .notice .. => True
  | act => act.routine

/-- What settling the job takes when it is not retried. -/
def Act.answers (j : JobId) (s : State) : Act → Prop
  | .accept .. => False
  | act => act.settles j s

theorem Act.answers_routine (j : JobId) (s : State) (act : Act) (h : act.routine) :
    act.answers j s := by
  cases act <;> first | exact h | exact h.elim | exact ⟨h.1, .inr h.2⟩

theorem Act.answers_callback (j : JobId) (s : State) (act : Act) (h : act.callback) :
    act.answers j s := by
  cases act <;> first | exact h | exact h.elim

theorem Act.settles_of_answers {j : JobId} (s : State) (act : Act) (h : act.answers j s) :
    act.settles j s := by
  cases act <;> first | exact h | exact h.elim

/-- The edge a completion hands its reply to. -/
theorem Coherent.callbackChildEdge (h : Coherent cfg s) {job : JobRecord} {x : AttemptRecord}
    (hx : s.attemptForJob job.jobId = some x) :
    (∀ e, s.callbackChildEdge job = some e →
      s.getEdge e.edgeId = some e ∧ e.childMessageId = x.messageId) ∧
    (s.callbackChildEdge job = none → ∀ e ∈ s.edges, e.childMessageId ≠ x.messageId) := by
  obtain ⟨hxmem, hxj⟩ := State.attemptForJob_mem hx
  obtain ⟨m, hm, hmid⟩ := h.attempts.message x hxmem
  obtain ⟨message, hmessage⟩ := State.exists_getMessage hm
  rw [hmid] at hmessage
  have hmsg : s.messageForJob job.jobId = some message := by
    simp [State.messageForJob, hx, hmessage]
  have hmid' := (State.getMessage_mem hmessage).2
  unfold State.callbackChildEdge
  rw [hmsg, Option.bind_some, hmid']
  rcases he : s.edgeForChildJob job.jobId with _ | e
  · constructor
    · intro e he'
      exact h.edges.edgeForChildMessage (by simpa using he')
    · intro he' e hemem hechild
      have hnone : s.edgeForChildMessage x.messageId = none := by simpa using he'
      simpa [hechild] using findLast_none.mp hnone e hemem
  · constructor
    · intro e' he'
      obtain rfl := Option.some.inj (by simpa using he')
      obtain ⟨hget, hid⟩ := h.edges.edgeForChildJob he
      obtain ⟨y, hy, hyj, hym⟩ := h.edges.child_attempt e (State.getEdge_mem hget).1
      refine ⟨hget, ?_⟩
      rw [← hym, (h.attempts.key y hy x hxmem (.inr (by rw [hyj, hid, hxj]))).messageId]
    · intro he'
      simp at he'

/-- A finished job, seen after its terminal row is written. -/
structure Finished (s : State) (j : JobId) (terminal : JobRecord) : Prop where
  jobId : terminal.jobId = j
  found : ∃ c, s.getJob j = some c ∧ SameJob terminal c ∧ c.status = terminal.status
  ended : terminal.status.terminal = true

theorem Finished.reply_guard {j : JobId} {terminal : JobRecord} (h : Finished s j terminal)
    {x : AttemptRecord} (hx : s.attemptForJob j = some x) {recipient : Option Actor}
    (status t) (hr : recipient = none ∨ recipient = some terminal.request.fromActor) :
    (Act.reply terminal x status recipient t).guard cfg s := by
  obtain ⟨c, hc, same, hs⟩ := h.found
  exact ⟨h.jobId.symm ▸ hx, ⟨c, h.jobId.symm ▸ hc, same, hs ▸ h.ended⟩, hr⟩

theorem recordCompletionReply_path (h : Sound cfg s) {j : JobId} {terminal : JobRecord}
    (hf : Finished s j terminal) (decision : CompletionDecision) (t : Timestamp) :
    Path cfg (Act.answers j) s (State.recordCompletionReply cfg s terminal decision t) := by
  have hcallback := Act.answers_callback j
  obtain ⟨c, hc, -, -⟩ := hf.found
  obtain ⟨x, hx⟩ := h.coherent.exists_attemptForJob hc
  obtain ⟨hxmem, hxj⟩ := State.attemptForJob_mem hx
  have hx' : s.attemptForJob terminal.jobId = some x := hf.jobId.symm ▸ hx
  obtain ⟨hsome, hnone⟩ := h.coherent.callbackChildEdge hx'
  unfold State.recordCompletionReply
  split
  · rename_i edge hedge
    obtain ⟨found, hchild⟩ := hsome edge hedge
    simp only [State.recordReply, hx', Bool.false_eq_true, ↓reduceIte]
    have p : Path cfg (Act.answers j) s ((Act.reply terminal x
        (State.replyStatusForJob terminal.status) none t).apply cfg s) :=
      Path.single (.reply terminal x _ none t) ⟨hf.jobId, .inl rfl⟩
        (hf.reply_guard hx _ _ (.inl rfl))
    have hs := p.sound h
    obtain ⟨-, ha, he, hr⟩ := State.appendReply_logs cfg s terminal x
      (State.replyStatusForJob terminal.status) false none t
    set recorded := State.appendReply cfg s terminal x (State.replyStatusForJob terminal.status)
      false none t
    have found' : recorded.getEdge edge.edgeId = some edge := by
      rw [State.getEdge, he]
      exact found
    have q : Path cfg (Act.answers j) recorded (State.submitCallbackContinuation cfg recorded edge
        terminal (some s.nextId) decision t) := by
      refine submitCallbackContinuation_path hs hcallback (hs.coherent.edges.childEdge
        hs.coherent.attempts.key found' ⟨x, ha ▸ hxmem, hxj.trans hf.jobId.symm, hchild.symm⟩)
        found' ?_ ?_
      · intro r hr'
        obtain rfl := Option.some.inj hr'
        refine ⟨s.replyRow terminal x (State.replyStatusForJob terminal.status) false t, ?_, rfl,
          hchild.symm, rfl⟩
        exact hr ▸ List.mem_append_right _ (List.mem_singleton.mpr rfl)
      · intro s' ha' _ e job same
        exact ⟨x, ha' ▸ ha ▸ hxmem, hxj, hchild.symm.trans same.childMessageId.symm⟩
    exact (p.trans q).trans (markCallbackDone_path hcallback _ _)
  · rename_i hedge
    simp only [State.recordReply, hx', ↓reduceIte]
    exact Relation.ReflTransGen.trans (Path.single (.reply terminal x _
      (some terminal.request.fromActor) t) ⟨hf.jobId, .inr (hnone hedge)⟩
      (hf.reply_guard hx _ _ (.inr rfl))) (markCallbackDone_path hcallback _ _)

/-- Writing the terminal row once more, with other bookkeeping. -/
theorem Finished.touch_path {j : JobId} {terminal record : JobRecord}
    (hf : Finished s j terminal) (same : SameJob record terminal)
    (status : record.status = terminal.status)
    (hroutine : ∀ s act, Act.routine act → permits s act) :
    Path cfg permits s (s.appendJob record) ∧ Finished (s.appendJob record) j terminal := by
  obtain ⟨c, hc, hsame, hs⟩ := hf.found
  have hid : record.jobId = j := same.jobId.trans hf.jobId
  have g : (Act.touch record).guard cfg s :=
    ⟨c, hid.symm ▸ hc, SameJob.trans same hsame, status.trans hs.symm⟩
  refine ⟨Path.single (.touch record) (hroutine s _ trivial) g, hf.jobId, ⟨record, ?_,
    SameJob.symm same, status⟩, hf.ended⟩
  simp [State.getJob, State.appendJob, hid]

/-- A finished job with a callback of its own: its message waits for the callback. -/
theorem settle_waiting_path {j : JobId} {terminal : JobRecord} (hf : Finished s j terminal)
    (hroutine : ∀ s act, Act.routine act → permits s act)
    (hwaiting : ∀ s edge t, edge.parentJobId = j → permits s (.waiting edge t))
    {edge : CallbackEdgeRecord} (hedge : s.edgeForParentJob terminal.jobId = some edge)
    (t : Timestamp) :
    Path cfg permits s
      ((s.appendJob
        (State.delegatedTerminalJob terminal edge)).markParentMessageWaiting edge t) := by
  have hparent : edge.parentJobId = j := by
    obtain ⟨-, hparent⟩ := findLast_some hedge
    rw [hf.jobId] at hparent
    simpa using hparent
  obtain ⟨p, -⟩ := hf.touch_path (show SameJob (State.delegatedTerminalJob terminal edge)
    terminal from ⟨rfl, rfl, rfl, rfl⟩) rfl hroutine
  refine p.trans ?_
  unfold State.markParentMessageWaiting
  split_ifs with hover
  · exact .refl
  · refine Path.single (.waiting edge t) (hwaiting _ edge t hparent) ?_
    have hparent' : s.edgeForParentJob terminal.jobId = some edge := hedge
    rw [hf.jobId, ← hparent] at hparent'
    refine ⟨hparent', ?_⟩
    cases hstate : edge.state <;> simp_all [CallbackEdgeState.over]

/-- A finished job that is retried. -/
theorem settle_retry_path (h : Sound cfg s) {j : JobId} {current terminal : JobRecord}
    (hf : Finished s j terminal) (same : SameJob terminal current)
    (delivery : State.isReplyDeliveryJob current = false)
    (hroutine : ∀ s act, Act.routine act → permits s act)
    (hretry : ∀ s source job m i t, source.jobId = j → State.isReplyDeliveryJob source = false →
      permits s (.accept (.retried source) job m i t))
    {t : Timestamp} {retried : State × JobId} (hok : s.retryAttempt cfg j t = .ok retried) :
    Path cfg permits s retried.1 := by
  obtain ⟨c, hc, hsame, -⟩ := hf.found
  obtain ⟨x, source, job, m, i, hx, -, hsource, g, heq⟩ := retryAttempt_acts h hok
  have hxj := (State.attemptForJob_mem (h.coherent.retryTarget_job hc hx)).2
  rw [hxj, hc] at hsource
  obtain rfl := Option.some.inj hsource
  rw [heq]
  refine Relation.ReflTransGen.trans (Path.single (.issue 1) (hroutine s _ trivial) trivial)
    (Path.single _ (hretry _ c job m i t (State.getJob_mem hc).2 ?_) g)
  rw [← delivery]
  have hs := SameJob.trans (SameJob.symm hsame) same
  simp only [State.isReplyDeliveryJob, hs.request, hs.providerOptions]

section Settle
variable {j : JobId} {current terminal : JobRecord} {decision : CompletionDecision}
  (hanswers : ∀ s act, Act.answers j s act → permits s act)
  (hretry : s.automaticRetryPlan cfg current decision = true → ∀ s' source job m i t,
    source.jobId = j → State.isReplyDeliveryJob source = false →
      permits s' (.accept (.retried source) job m i t))

include hanswers hretry in
theorem settleCompletion_path (h : Sound cfg s)
    (hf : Finished s j terminal) (same : SameJob terminal current)
    (delivery : State.isReplyDeliveryJob current = false) (depth : ℕ) (t : Timestamp) :
    Path cfg permits s
      (State.settleCompletion cfg w depth s current terminal decision t).1 := by
  have hroutine : ∀ s act, Act.routine act → permits s act :=
    fun s act hr => hanswers s act (Act.answers_routine j s act hr)
  have hcid : current.jobId = j := same.jobId.symm.trans hf.jobId
  unfold State.settleCompletion
  split
  · rename_i edge hedge
    exact settle_waiting_path hf hroutine (fun s edge t hj => hanswers s (.waiting edge t) hj)
      (Option.filter_eq_some_iff.mp hedge).1 t
  · split
    · rename_i retried hretried
      split_ifs at hretried with hplan
      rw [hcid] at hretried
      rcases hok : s.retryAttempt cfg j (w.clock depth .retry) with e | r
      · rw [hok] at hretried
        contradiction
      · rw [hok] at hretried
        obtain rfl := Option.some.inj hretried
        exact settle_retry_path h hf same delivery hroutine (hretry hplan) hok
    · dsimp only
      split_ifs
      · obtain ⟨p, hf'⟩ := hf.touch_path (SameJob.refl terminal) rfl hroutine
        exact p.trans ((recordCompletionReply_path (p.sound h) hf' _ _).mono hanswers)
      · exact (recordCompletionReply_path h hf _ _).mono hanswers

include hanswers hretry in
/-- What follows the end of a job. -/
theorem conclude_path (h : Sound cfg s)
    (hf : Finished s j terminal) (same : SameJob terminal current) (depth : ℕ) (t : Timestamp) :
    Path cfg permits s (State.conclude cfg w depth s current terminal decision t) := by
  unfold State.conclude
  dsimp only
  have hprepare : ∀ s', Sound cfg s' → Path cfg permits s'
      (State.prepareReplyDeliveries cfg w depth (State.completeJob cfg w depth) s').1 :=
    fun s' hs => (prepare_path hs depth).mono
      fun s act hr => hanswers s act (Act.answers_routine j s act hr)
  by_cases hd : State.isReplyDeliveryJob current = true
  · simp only [hd, ↓reduceIte, Bool.false_eq_true]
    split_ifs
    · exact hprepare s h
    · exact .refl
  · have hd' : State.isReplyDeliveryJob current = false := by simpa using hd
    have p := settleCompletion_path (w := w) hanswers hretry h hf same hd' depth t
    rw [if_neg hd]
    split_ifs
    · exact p
    · exact p.trans (hprepare _ (p.sound h))
    · exact p

end Settle

theorem finished_finish {j : JobId} {current terminal : JobRecord} {t : Timestamp}
    {dequeue : Bool} (h : Coherent cfg s) (g : (Act.finish current terminal t dequeue).guard cfg s)
    (hj : current.jobId = j) : Finished (s.finish terminal t dequeue) j terminal := by
  obtain ⟨found, -, -, same, ends⟩ := g
  obtain ⟨x, hx⟩ := h.exists_attemptForJob (same.jobId ▸ found)
  refine ⟨same.jobId.trans hj, ⟨terminal, ?_, SameJob.refl _, rfl⟩, ends⟩
  rw [State.finish_eq t dequeue hx]
  simp [State.getJob, same.jobId, hj]

/-- A completion finishes its job, and then settles it. -/
theorem completeJob_path (h : Sound cfg s) {j : JobId} {current : JobRecord} {m : Memory}
    {dequeue : Bool} (depth : ℕ) (decision : CompletionDecision)
    (found : s.getJob j = some current) (live : current.status.terminal = false)
    (running : dequeue = false → current.status = .running)
    (hm : m.clearActive current.agentName current.jobId =
      s.memory.leave dequeue current.agentName current.jobId) :
    (Act.finish current (State.completedRow w current decision) decision.finishedAt
        dequeue).guard cfg s ∧
      Path cfg (Act.settles j)
        (s.finish (State.completedRow w current decision) decision.finishedAt dequeue)
        (State.completeJob cfg w (depth + 1) { s with memory := m } j decision) := by
  have hid : current.jobId = j := (State.getJob_mem found).2
  have g : (Act.finish current (State.completedRow w current decision) decision.finishedAt
      dequeue).guard cfg s := finish_guard decision found live running
  refine ⟨g, ?_⟩
  rw [completeJob_eq decision found live hm]
  exact conclude_path Act.settles_of_answers (fun _ _ _ _ _ _ _ hj hd => ⟨hj, hd⟩)
    (Act.sound g h) (finished_finish h.coherent g hid) (sameJob_completedRow w current decision)
    depth _

/-! ### Cancellation -/

/-- Resolving a delivery and recording its reply do not disturb each other: deliveries
are jobs of the system, which has no mailbox. -/
theorem resolve_recordReply {terminal : JobRecord} (t : Timestamp) (hd : DeliveryOptions terminal)
    {x : AttemptRecord} (hx : s.attemptForJob terminal.jobId = some x) :
    (State.recordReply cfg s terminal t true).1.resolveReplyDeliveryTerminal terminal t =
      State.appendReply cfg (s.resolveReplyDeliveryTerminal terminal t) terminal x
        (State.replyStatusForJob terminal.status) false (some terminal.request.fromActor) t := by
  simp only [State.recordReply, hx, ↓reduceIte]
  rcases hd with ⟨-, hi, -⟩ | ⟨i, r, -, hi, hr, hfrom⟩
  · -- without a delivery there is nothing to resolve
    have hself : ∀ s : State, s.resolveReplyDeliveryTerminal terminal t = s := by
      intro s
      unfold State.resolveReplyDeliveryTerminal State.resolveDelivery
      rw [hi]
      simp [State.setMailbox]
    rw [hself, hself]
  · have hsilent : (some terminal.request.fromActor).bind (State.mailboxActor cfg) = none := by
      rw [hfrom]
      rfl
    rw [State.appendReply_silent _ _ _ _ _ hsilent, State.appendReply_silent _ _ _ _ _ hsilent]
    unfold State.resolveReplyDeliveryTerminal
    split_ifs <;> rfl

/-- A cancellation marks its job, finishes it, and may record a reply to the caller. -/
theorem cancelJob_acts (h : Sound cfg s) {j : JobId} {current : JobRecord} (recordReply : Bool)
    (found : s.getJob j = some current) (live : current.status.terminal = false) :
    ∃ marked terminal t x, SameJob marked current ∧ marked.status = current.status ∧
      terminal.status = .cancelled ∧ (Act.touch marked).guard cfg s ∧
      (Act.finish marked terminal t true).guard cfg (s.appendJob marked) ∧
      (Act.reply terminal x .cancelled (some terminal.request.fromActor) t).guard cfg
        ((s.appendJob marked).finish terminal t true) ∧
      (State.cancelJob cfg w s j recordReply).1 = if recordReply then
        (Act.reply terminal x .cancelled (some terminal.request.fromActor) t).apply cfg
          ((s.appendJob marked).finish terminal t true)
      else (s.appendJob marked).finish terminal t true := by
  obtain ⟨hmem, hid⟩ := State.getJob_mem found
  set t := w.clock 0 .accepted
  set marked : JobRecord := { current with cancelRequestedAt := some t, updatedAt := t }
  set terminal : JobRecord := { marked with
    status := .cancelled
    terminalDecision := some (State.cancelDecision w marked.jobId t)
    updatedAt := t
    cancelRequestedAt := some t }
  have htouch : (Act.touch marked).guard cfg s :=
    ⟨current, hid.symm ▸ found, ⟨rfl, rfl, rfl, rfl⟩, rfl⟩
  have hfound : (s.appendJob marked).getJob marked.jobId = some marked := by
    simp [State.getJob, State.appendJob]
  have hfinish : (Act.finish marked terminal t true).guard cfg (s.appendJob marked) :=
    ⟨hfound, live, fun hf => by contradiction, ⟨rfl, rfl, rfl, rfl⟩, rfl⟩
  have hs : Sound cfg (s.appendJob marked) := Act.sound htouch h
  have hs' : Sound cfg ((s.appendJob marked).finish terminal t true) := Act.sound hfinish hs
  have hf : Finished ((s.appendJob marked).finish terminal t true) marked.jobId terminal :=
    finished_finish hs.coherent hfinish rfl
  obtain ⟨c, hc, -, -⟩ := hf.found
  obtain ⟨x, hx⟩ := hs'.coherent.exists_attemptForJob hc
  refine ⟨marked, terminal, t, x, ⟨rfl, rfl, rfl, rfl⟩, rfl, rfl, htouch, hfinish,
    hf.reply_guard hx _ _ (.inr rfl), ?_⟩
  have hcancelled : ¬current.status = .cancelled := by
    intro hc
    rw [hc] at live
    contradiction
  have hended : ∀ b, (State.cancelJob cfg w s j b).1 = (State.recordTerminal cfg
      ({ (s.appendJob marked).appendJob terminal with
        memory :=
          (s.appendJob marked).memory.leave true terminal.agentName terminal.jobId } : State)
      terminal t b).resolveReplyDeliveryTerminal terminal t := by
    intro b
    simp only [State.cancelJob, found, hcancelled, live, Bool.false_eq_true, ↓reduceIte]
    rw [← hid]
    rfl
  rw [hended]
  cases recordReply
  · rfl
  · simp only [State.recordTerminal, ↓reduceIte]
    -- the reply sees the attempt whether the delivery is resolved or not
    have hx' : (({ (s.appendJob marked).appendJob terminal with
        memory := (s.appendJob marked).memory.leave true terminal.agentName
          terminal.jobId } : State).recordAttemptTerminal terminal t).attemptForJob
          terminal.jobId = some x := by
      rw [← hx, State.finish, State.resolveReplyDeliveryTerminal_eq]
      rfl
    have hd : DeliveryOptions terminal := h.coherent.jobs.delivery current hmem
    exact resolve_recordReply t hd hx'

/-! ### Start -/

/-- A started delivery may end at once. -/
theorem startRunningJob_path {s₀ : State} (h : Sound cfg s₀) {current : JobRecord} {t : Timestamp}
    (p : Routine cfg s₀ (s.beginRunningJob current t)) :
    Routine cfg s₀ (State.startRunningJob cfg w s current t) := by
  have found : (s.beginRunningJob current t).getJob current.jobId =
      some (startedJob current t) := by
    simp [State.beginRunningJob, State.getJob, State.appendJob, startedJob]
  unfold State.startRunningJob
  dsimp only
  split_ifs with hd
  · rw [Bool.and_eq_true] at hd
    have hcomplete : ∀ decision, Routine cfg s₀
        (State.complete cfg w (s.beginRunningJob current t) current.jobId decision) :=
      fun decision => p.trans (completeJob_delivery_path _ (p.sound h) decision found rfl hd.1)
    split
    · exact hcomplete _
    · exact p
    · exact hcomplete _
  · exact p

/-- A refused claim leaves a rebuilt summary behind, if anything. -/
theorem claimReplyDeliveryStart_refused (cfg : Config) {job : JobRecord}
    {t : Timestamp} {claimed : State}
    (h : s.claimReplyDeliveryStart job t = (claimed, false)) :
    claimed = s ∨ claimed = (Act.refresh job.agentName t).apply cfg s := by
  unfold State.claimReplyDeliveryStart at h
  split_ifs at h
  · cases (Prod.mk.inj h).2
  · split at h
    · exact .inl (Prod.mk.inj h).1.symm
    · rename_i id hid
      split at h
      · exact .inl (Prod.mk.inj h).1.symm
      · split_ifs at h
        · exact .inl (Prod.mk.inj h).1.symm
        · obtain ⟨hclaimed, hnone⟩ := Prod.mk.inj h
          have hnone : ((s.mailboxes job.agentName).claim t id (some t)).2.isSome = false := hnone
          have hclaimed : s.setMailbox job.agentName
              ((s.mailboxes job.agentName).claim t id (some t)).1 = claimed := hclaimed
          rcases Mailbox.claim_cases (s.mailboxes job.agentName) t id (some t) with
            ⟨heq, -⟩ | ⟨current, -, -, -, -, heq⟩
          · rw [heq] at hclaimed
            exact .inr hclaimed.symm
          · rw [heq] at hnone
            cases hnone

theorem claimReplyDelivery_path (h : Sound cfg s) {a : AgentName}
    (free : s.memory.active a = none) :
    Routine cfg s (State.claimReplyDelivery cfg w s a).1 ∧
      ((State.claimReplyDelivery cfg w s a).2 = false →
        (State.claimReplyDelivery cfg w s a).1.memory = s.memory) := by
  unfold State.claimReplyDelivery
  split
  · exact ⟨.refl, fun _ => rfl⟩
  · rename_i candidate rest hids
    by_cases hq : candidate ∈ s.memory.queue a
    · rw [if_neg (not_not.mpr hq)]
      obtain ⟨current, hfind, hagent, -⟩ := h.coherent.board.mem_queue.mp hq
      have hfind : s.getJob candidate = some current := hfind
      have hid := (State.getJob_mem hfind).2
      rw [hfind]
      dsimp only
      split
      · rename_i claimed hclaimed
        rcases claimReplyDeliveryStart_refused cfg hclaimed with rfl | rfl
        · exact ⟨.refl, fun _ => rfl⟩
        · exact ⟨Routine.act (.refresh _ _) trivial trivial, fun _ => rfl⟩
      · rename_i claimed hclaimed
        refine ⟨startRunningJob_path h ?_, fun hf => by contradiction⟩
        subst hid
        have g : (Act.startDelivery a current (w.clock 0 (.start a))).guard cfg s :=
          ⟨hfind, by simp [hids], hq, free, by rw [hclaimed]⟩
        have p := Routine.act (.startDelivery a current (w.clock 0 (.start a))) trivial g
        simp only [Act.apply, hclaimed] at p
        exact p
    · rw [if_pos hq]
      exact ⟨.refl, fun _ => rfl⟩

theorem startRequestJob_path (h : Sound cfg s) {a : AgentName}
    (free : s.memory.active a = none) :
    Routine cfg s (State.startRequestJob cfg w s a (s.memory.queue a)) := by
  unfold State.startRequestJob
  split
  · exact .refl
  · rename_i candidate hclaimable
    by_cases hq : candidate ∈ s.memory.queue a
    · rw [if_neg (not_not.mpr hq)]
      obtain ⟨current, hfind, hagent, -⟩ := h.coherent.board.mem_queue.mp hq
      have hfind : s.getJob candidate = some current := hfind
      have hid := (State.getJob_mem hfind).2
      have hremoved : (s.dequeue a candidate).getJob candidate = some current := hfind
      dsimp only
      rw [hremoved]
      subst hid
      exact startRunningJob_path h (Routine.act (.startRequest a current (w.clock 0 (.start a)))
        trivial ⟨hfind, hclaimable, hq, free⟩)
    · rw [if_pos hq]
      exact .refl

theorem startNextQueuedJob_path (h : Sound cfg s) {a : AgentName}
    (free : s.memory.active a = none) :
    Routine cfg s (State.startNextQueuedJob cfg w s a) := by
  obtain ⟨p, hmemory⟩ := claimReplyDelivery_path (w := w) h free
  unfold State.startNextQueuedJob
  dsimp only
  split
  · rename_i started heq
    rw [heq] at p
    exact p
  · rename_i unclaimed heq
    rw [heq] at p hmemory
    have hm : unclaimed.memory = s.memory := hmemory rfl
    rw [← hm] at free ⊢
    exact p.trans (startRequestJob_path (p.sound h) free)

theorem tickJobs_path (h : Sound cfg s) : Routine cfg s (State.tickJobs cfg w s) := by
  refine Path.foldl (fun s' _ hs a _ => ?_) h
  split_ifs with hactive
  · exact .refl
  · exact .refl
  · exact startNextQueuedJob_path hs (by simpa using hactive)
  · exact .refl

theorem tick_path (h : Sound cfg s) : Path cfg (Act.repairs cfg w) s (State.tick cfg w s) := by
  have p := repairCallbackEdges_path (w := w) h
  have q := prepare_path (w := w) (p.sound h) (State.repairCallbackEdges cfg w s).depth
  have r := tickJobs_path (w := w) (q.sound (p.sound h))
  exact p.trans (Path.mono (Act.repairs_routine cfg w) (q.trans r))

/-! ### Shutdown -/

theorem Memory.clearActive_leave (m : Memory) (a : AgentName) (j : JobId) :
    ((m.removeQueued a j).clearActive a j).clearActive a j = m.leave true a j := by
  show ((m.removeQueued a j).clearActive a j).clearActive a j = (m.removeQueued a j).clearActive a j
  unfold Memory.clearActive
  split_ifs with h h'
  · simp at h'
  · rfl
  · rfl

/-- Only failures are retried. -/
theorem automaticRetryPlan_of_not_failed {job : JobRecord} {decision : CompletionDecision}
    (h : decision.status ≠ .failed) : s.automaticRetryPlan cfg job decision = false := by
  unfold State.automaticRetryPlan State.retryableFailureContext State.isRetryableFailure
  simp [h]

/-- Ending one job takes it off the queue or the active slot and completes it, without a
retry. -/
theorem terminateJobForShutdown_path (h : Sound cfg s) {j : JobId} {current : JobRecord}
    (found : s.getJob j = some current) (live : current.status.terminal = false) :
    ∃ terminal t, terminal.status = .incomplete ∧ (Act.finish current terminal t true).guard cfg s ∧
      Path cfg (Act.answers j) (s.finish terminal t true)
        (State.terminateJobForShutdown cfg w s current) := by
  obtain rfl : current.jobId = j := (State.getJob_mem found).2
  set decision := State.shutdownDecision w current.jobId
  have g : (Act.finish current (State.completedRow w current decision) decision.finishedAt
      true).guard cfg s := finish_guard decision found live fun hf => by contradiction
  refine ⟨_, _, rfl, g, ?_⟩
  have heq : State.terminateJobForShutdown cfg w s current = (s.finish _ _ true).conclude cfg w
      s.jobs.length current _ _ _ :=
    completeJob_eq decision found live
      (Memory.clearActive_leave s.memory current.agentName current.jobId)
  rw [heq]
  refine conclude_path (fun _ _ ha => ha) (fun hplan => ?_) (Act.sound g h)
    (finished_finish h.coherent g rfl) (sameJob_completedRow w current decision) _ _
  have hstatus : (State.mergeTerminalDecision w current.jobId decision).status = .incomplete := rfl
  rw [automaticRetryPlan_of_not_failed (by rw [hstatus]; decide)] at hplan
  contradiction

end CodexBridge.Dispatch
