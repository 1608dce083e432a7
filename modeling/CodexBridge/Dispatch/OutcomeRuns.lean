import CodexBridge.Dispatch.Outcomes

/-! Messages and their attempts over whole runs. After every operation a message whose
attempts have all ended is in the state they add up to, unless one of its callbacks is
not over. -/

namespace CodexBridge.Dispatch

open AppendLog

variable {cfg : Config} {w : World} {s s₀ s' : State} {m : MessageId} {ended : Option JobId}

/-! ### The end of a job -/

/-- A retry that settles a completion has been planned and has gone through. -/
theorem retried_of_plan {plan : Bool} {result : Except DispatchError (State × JobId)}
    {retried : State × JobId}
    (h : (if plan then result.toOption else none) = some retried) :
    plan = true ∧ result = .ok retried := by
  split_ifs at h with hplan
  cases result with
  | error e => contradiction
  | ok r => exact ⟨hplan, congrArg Except.ok (Option.some.inj h)⟩

/-- The message of a job with a callback that is not over is cleared. -/
theorem Booked.awaits (b : Booked cfg ended s) {j : JobId} {edge : CallbackEdgeRecord}
    (hedge : s.edgeForParentJob j = some edge) (hopen : edge.state.over = false) :
    ∀ x ∈ s.attempts, x.jobId = j → s.Cleared x.messageId := by
  intro x hx hxj
  obtain ⟨found, hparent⟩ := (b.sound.coherent.edges.edgeForParentJob_iff edge).mp hedge
  obtain ⟨y, hy, hyj, hym⟩ :=
    b.sound.coherent.edges.parent_attempt edge (State.getEdge_mem found).1
  have sameA := b.sound.coherent.attempts.key y hy x hx
    (.inr (hyj.trans (hparent.trans hxj.symm)))
  exact .inr (.inl ⟨edge, found, hym.symm.trans sameA.messageId, hopen⟩)

theorem Booked.settleCompletion (b : Booked cfg ended s) {j : JobId} {current terminal : JobRecord}
    {decision : CompletionDecision} (hf : Finished s j terminal) (same : SameJob terminal current)
    (delivery : State.isReplyDeliveryJob current = false)
    (hended : ended = none ∨ ended = some j ∧ decision.status ≠ .failed) (depth : ℕ)
    (t : Timestamp) :
    Booked cfg none (State.settleCompletion cfg w depth s current terminal decision t).1 := by
  have hended' : ended = none ∨ ended = some j := hended.imp_right And.left
  have hcid : current.jobId = j := same.jobId.symm.trans hf.jobId
  have hroutine : ∀ s act, Act.routine act → (fun s act => act.guard cfg s → act.steady) s act :=
    fun _ _ h g => Act.steady_of_routine h g
  unfold State.settleCompletion
  split
  · rename_i edge hedge
    obtain ⟨hparent, hstate⟩ := Option.filter_eq_some_iff.mp hedge
    have hopen : edge.state.over = false := by
      cases hcase : edge.state <;> simp_all [CallbackEdgeState.over]
    have p : Path cfg _ s _ := settle_waiting_path hf hroutine (fun _ _ _ _ _ => trivial) hparent t
    have b' := b.clear hended' (b.awaits (hf.jobId ▸ hparent) hopen)
    exact b'.path p fun _ _ h g => h g
  · split
    · rename_i retried hretried
      obtain ⟨hplan, hok⟩ := retried_of_plan hretried
      -- only a failure is retried
      have hnone : ended = none := by
        refine hended.resolve_right fun h => ?_
        rw [automaticRetryPlan_of_not_failed h.2] at hplan
        contradiction
      subst hnone
      rw [hcid] at hok
      have p := settle_retry_path b.sound hf same delivery hroutine
        (fun _ _ _ _ _ _ _ _ _ => trivial) hok
      exact b.path p fun _ _ h g => h g
    · dsimp only
      split_ifs
      · have htouch : Path cfg _ s (s.appendJob terminal) ∧ Finished (s.appendJob terminal) j
            terminal := hf.touch_path (SameJob.refl terminal) rfl hroutine
        exact (b.path htouch.1 fun _ _ h g => h g).recordCompletionReply hended' htouch.2 _ _
      · exact b.recordCompletionReply hended' hf _ _

theorem Booked.conclude (b : Booked cfg ended s) {j : JobId} {current terminal : JobRecord}
    {decision : CompletionDecision} (hf : Finished s j terminal) (same : SameJob terminal current)
    (hended : ended = none ∨
      ended = some j ∧ decision.status ≠ .failed ∧ State.isReplyDeliveryJob current = false)
    (depth : ℕ) (t : Timestamp) :
    Booked cfg none (State.conclude cfg w depth s current terminal decision t) := by
  unfold State.conclude
  dsimp only
  by_cases hd : State.isReplyDeliveryJob current = true
  · have hnone : ended = none := by
      refine hended.resolve_right fun h => ?_
      rw [h.2.2] at hd
      contradiction
    subst hnone
    simp only [hd, ↓reduceIte, Bool.false_eq_true]
    split_ifs
    · exact b.routine (prepare_path b.sound depth)
    · exact b
  · have hd' : State.isReplyDeliveryJob current = false := by simpa using hd
    have b' : Booked cfg none
      (State.settleCompletion cfg w depth s current terminal decision t).1 :=
      b.settleCompletion hf same hd' (hended.imp_right fun h => ⟨h.1, h.2.1⟩) depth t
    rw [if_neg hd]
    split_ifs
    · exact b'
    · exact b'.routine (prepare_path b'.sound depth)
    · exact b'

/-- A job that is completed, in its slot or taken off its queue before. -/
theorem Booked.completeJob (b : Booked cfg none s) {j : JobId} {current : JobRecord}
    {memory : Memory} {dequeue : Bool} (depth : ℕ) (decision : CompletionDecision)
    (found : s.getJob j = some current) (live : current.status.terminal = false)
    (running : dequeue = false → current.status = .running)
    (hmemory : memory.clearActive current.agentName current.jobId =
      s.memory.leave dequeue current.agentName current.jobId) :
    Booked cfg none
      (State.completeJob cfg w (depth + 1) { s with memory := memory } j decision) := by
  obtain rfl : current.jobId = j := (State.getJob_mem found).2
  have g : (Act.finish current (State.completedRow w current decision) decision.finishedAt
      dequeue).guard cfg s := finish_guard decision found live running
  have hf := finished_finish b.sound.coherent g rfl
  have same := sameJob_completedRow w current decision
  rw [completeJob_eq decision found live hmemory]
  by_cases hpending : decision.status = .completed ∧ State.isReplyDeliveryJob current = false
  · -- the job is exempt until its reply is recorded
    have b' : Booked cfg (some current.jobId) (s.finish (State.completedRow w current decision)
        decision.finishedAt dequeue) := by
      refine (b.any _).act g (by rintro _ ⟨⟩) (by rintro _ _ _ _ ⟨⟩) (by rintro _ _ _ _ ⟨⟩) ?_
      rintro _ _ _ _ ⟨⟩ -
      exact .inl rfl
    refine b'.conclude hf same (.inr ⟨rfl, ?_, hpending.2⟩) _ _
    have hstatus : (State.mergeTerminalDecision w current.jobId decision).status =
        decision.status := rfl
    rw [hstatus, hpending.1]
    decide
  · have b' : Booked cfg none (s.finish (State.completedRow w current decision)
        decision.finishedAt dequeue) := by
      refine b.steady g fun hcompleted => ?_
      by_contra hd
      have hd' : State.isReplyDeliveryJob current = false := eq_false_of_ne_true hd
      refine hpending ⟨?_, hd'⟩
      have hstatus : decision.status.jobStatus = .completed := hcompleted
      cases hcase : decision.status <;> rw [hcase] at hstatus <;> first | rfl | contradiction
    exact b'.conclude hf same (.inl rfl) _ _

theorem Booked.complete (b : Booked cfg none s) {j : JobId} (decision : CompletionDecision)
    (admissible : (Op.complete j decision).admissible s) :
    Booked cfg none (State.complete cfg w s j decision) := by
  cases hfound : s.getJob j with
  | none =>
    simp only [State.complete, State.depth, State.completeJob, hfound]
    exact b
  | some current =>
    by_cases live : current.status.terminal = true
    · simp only [State.complete, State.depth, State.completeJob, hfound, live, ↓reduceIte]
      exact b
    · have live : current.status.terminal = false := by simpa using live
      have running := JobStatus.running_of_live live (admissible current hfound)
      exact b.completeJob s.jobs.length decision hfound live (fun _ => running)
        (clearActive_eq_leave s.memory _ _)

theorem Booked.terminateNonterminalJobs (b : Booked cfg none s) :
    Booked cfg none (State.terminateNonterminalJobs cfg w s) := by
  refine List.foldlRecOn _ _ b fun s' b' j _ => ?_
  split
  · exact b'
  · rename_i current hfound
    obtain rfl : current.jobId = j := (State.getJob_mem hfound).2
    split_ifs with hterm
    · exact b'
    · exact b'.completeJob s'.jobs.length _ hfound (by simpa using hterm) (by simp)
        (Memory.clearActive_leave s'.memory current.agentName current.jobId)

/-! ### Sweeping and repair -/

/-- A loop over the callbacks: a turn finds its callback, whatever the turns before it did. -/
theorem Booked.foldl {f : State → CallbackEdgeRecord → State} {edges : List CallbackEdgeRecord}
    (permits : State → Act → Prop) (b : Booked cfg none s) (hedges : edges ⊆ s.edges)
    (turn : ∀ s', Booked cfg none s' → ∀ edge ∈ s'.edges,
      Booked cfg none (f s' edge) ∧ Path cfg permits s' (f s' edge)) :
    Booked cfg none (edges.foldl f s) := by
  suffices h : Booked cfg none (edges.foldl f s) ∧ Path cfg permits s (edges.foldl f s) from h.1
  refine List.foldlRecOn (motive := fun s' => Booked cfg none s' ∧ Path cfg permits s s') edges f
    ⟨b, .refl⟩ fun s' h edge hedge => ?_
  obtain ⟨b', p⟩ := turn s' h.1 edge ((h.2.grows b.sound).edges (hedges hedge))
  exact ⟨b', h.2.trans p⟩

theorem Booked.sweepCallbackTimeouts (b : Booked cfg none s) (now : Timestamp) :
    Booked cfg none (State.sweepCallbackTimeouts cfg now s) := by
  refine b.foldl (fun _ act => act.callback)
    (fun edge h => mem_of_mem_latest (List.mem_of_mem_filter h)) fun s' b' edge he => ?_
  have hcur := (State.getEdge_mem (State.getEdge_of_getD he)).1
  dsimp only
  split_ifs
  · exact ⟨b', .refl⟩
  · exact ⟨b'.failCallbackEdge hcur (.inr rfl) _, failCallbackEdge_path (fun _ _ h => h) b'.sound
      hcur (.inr rfl) _⟩
  · exact ⟨b', .refl⟩

/-- A turn of the repair carries the reply of the child on, if there is one. -/
theorem Booked.repairCallbackEdge (b : Booked cfg none s) {edge : CallbackEdgeRecord}
    (he : edge ∈ s.edges) (now : Timestamp) :
    Booked cfg none (State.repairCallbackEdge cfg now s edge) := by
  have found := State.getEdge_of_getD he
  unfold State.repairCallbackEdge
  dsimp only
  set current := (s.getEdge edge.edgeId).getD edge
  have hmem := (State.getEdge_mem found).1
  by_cases hterm : current.state.terminal = true
  · rw [if_pos hterm]
    exact b
  rw [if_neg hterm, b.carried.existing_none found (by simpa using hterm)]
  dsimp only
  split_ifs
  · exact b
  · exact b
  · split
    · exact b
    · rename_i reply hlatest
      obtain ⟨hrm, hmsg, hnotice⟩ :=
        b.sound.coherent.edges.latestChildReply b.sound.coherent.replies hmem hlatest
      split
      · exact b
      · rename_i child hchild
        split
        · exact b
        · have hwork := b.sound.coherent.edges.jobForReply b.sound.coherent.attempts.key
            b.sound.coherent.replies hmem hrm hmsg hchild
          refine b.submitCallbackContinuation (b.sound.coherent.edges.childEdge
            b.sound.coherent.attempts.key found hwork) found ?_
          intro r hr
          exact ⟨reply, hrm, Option.some.inj hr, hmsg, hnotice⟩

theorem Booked.repairCallbackEdges (b : Booked cfg none s) :
    Booked cfg none (State.repairCallbackEdges cfg w s) := by
  have swept := b.sweepCallbackTimeouts (w.clock 0 .sweep)
  refine swept.foldl (Act.repairs cfg w)
    (fun edge h => mem_of_mem_latest (List.mem_of_mem_filter h)) fun s' b' edge he => ?_
  exact ⟨b'.repairCallbackEdge he _, repairCallbackEdge_path b'.sound he⟩

theorem Booked.tick (b : Booked cfg none s) : Booked cfg none (State.tick cfg w s) := by
  have repaired : Booked cfg none (State.repairCallbackEdges cfg w s) := b.repairCallbackEdges
  have prepared := repaired.routine (prepare_path (w := w) repaired.sound
    (State.repairCallbackEdges cfg w s).depth)
  exact prepared.routine (tickJobs_path prepared.sound)

/-! ### Every operation -/

/-- The operation moves no callback. -/
def Op.still : Op → Prop
  | .tick | .sweepCallbacks | .repairCallbacks | .complete .. | .shutdown => False
  | _ => True

theorem Op.still_permits {op : Op} (h : op.still) {act : Act} (hp : op.permits cfg w s₀ s act)
    (g : act.guard cfg s) (hno : ∀ job m i t, act ≠ .accept .submitted job m i t) :
    act.steady := by
  have hsubmits : ∀ p q, act.submits p q → act.steady := by
    intro p q hp
    cases act with
    | newMessage | register => trivial
    | accept origin job m i t =>
      cases origin with
      | submitted => exact absurd rfl (hno job m i t)
      | retried source => exact hp.elim
    | _ => exact Act.steady_of_routine hp g
  have hretries : ∀ p, act.retries p → act.steady := by
    intro p hp
    cases act with
    | accept origin job m i t =>
      cases origin with
      | submitted => exact hp.elim
      | retried source => trivial
    | _ => exact Act.steady_of_routine hp g
  have hremoves : ∀ p, act.removes p → act.steady := by
    intro p hp
    cases act with
    | finish current terminal t dequeue =>
      cases dequeue with
      | false => exact hp.elim
      | true => exact fun hcompleted => absurd hcompleted hp.2
    | _ => exact hp.elim
  have htidies : act.tidies → act.steady := by
    intro hp
    cases act <;> trivial
  cases op with
  | tick | sweepCallbacks | repairCallbacks | complete | shutdown => exact h.elim
  | submit request => exact hsubmits _ _ hp
  | resubmit id => exact hsubmits _ _ hp
  | retry target => exact hretries _ hp
  | prepareReplies | startJobs | disableAutoReplyDelivery => exact Act.steady_of_routine hp g
  | cancel j recordReply =>
    rcases hp with hp | hp | ⟨_, _, _, _, _, rfl, -⟩
    · exact Act.steady_of_routine hp g
    · exact hremoves _ hp
    · trivial
  | ack a i => exact hp.elim (fun hr => Act.steady_of_routine hr g) htidies
  | inspect a => exact htidies hp
  | recover j d hint =>
    rcases hp with hp | hp | hp
    · exact hretries _ hp
    · exact hremoves _ hp
    · exact htidies hp

theorem Booked.exec (b : Booked cfg none s) {op : Op} (admissible : op.admissible s)
    (hplain : plain s op) : Booked cfg none (exec cfg w s op) := by
  by_cases hstill : op.still
  · refine (exec_path (w := w) b.sound op admissible).invariant (I := Booked cfg none)
      (fun s₁ act _ b₁ hp g => ?_) b.sound b
    by_cases haccept : ∃ job m i t, act = .accept .submitted job m i t
    · obtain ⟨job, m, i, t, rfl⟩ := haccept
      refine b₁.act g (by rintro _ ⟨⟩) (by rintro _ _ _ _ ⟨⟩) ?_ (by rintro _ _ _ _ ⟨⟩)
      rintro _ _ _ _ ⟨⟩
      exact plain_permits hplain s₁ hp
    · push Not at haccept
      exact b₁.steady g (Op.still_permits hstill hp g haccept)
  · cases op with
    | tick => exact b.tick
    | sweepCallbacks => exact b.sweepCallbackTimeouts _
    | repairCallbacks => exact b.repairCallbackEdges
    | complete j decision => exact b.complete decision admissible
    | shutdown => exact b.terminateNonterminalJobs
    | _ => exact absurd trivial hstill

/-! ### Messages without attempts -/

/-- Every message has an attempt. -/
def Manned (s : State) : Prop :=
  ∀ m, (s.messageState m).isSome = true → ∃ x ∈ s.attempts, x.messageId = m

theorem Act.manned {act : Act} (h : Coherent cfg s) (g : act.guard cfg s) (ok : Manned s)
    (hno : ∀ record, act ≠ .newMessage record) : Manned (act.apply cfg s) := by
  have ext := Act.extends h g
  intro m hm
  cases Act.restates h g m with
  | kept same _ _ =>
    obtain ⟨x, hx, hxm⟩ := ok m (same ▸ hm)
    exact ⟨x, ext.attempts hx, hxm⟩
  | reopened reopens _ _ _ =>
    have hadded : ∀ x : AttemptRecord, (act.apply cfg s).attempts = s.attempts ++ [x] →
        x.messageId = m → ∃ x ∈ (act.apply cfg s).attempts, x.messageId = m :=
      fun x heq hxm => ⟨x, heq ▸ List.mem_append_right _ (List.mem_singleton.mpr rfl), hxm⟩
    cases act with
    | newMessage record => exact absurd rfl (hno record)
    | accept origin job m' i t => exact hadded _ rfl reopens
    | continuation edge job t => exact hadded _ rfl reopens
    | deliver a head record t => exact hadded _ rfl reopens
    | startRequest a current t | startDelivery a current t =>
      obtain ⟨x, hx, hxm⟩ := reopens
      exact ⟨x, ext.attempts (State.attemptForJob_mem hx).1, hxm⟩
    | waiting edge t =>
      obtain ⟨x, hx, -, hxm⟩ := h.edges.parent_attempt edge (findLast_some g.1).1
      exact ⟨x, hx, hxm.trans reopens⟩
    | _ => exact reopens.elim
  | refreshed refreshes _ =>
    cases act with
    | finish current terminal t dequeue =>
      obtain ⟨x, hx, hxm⟩ := refreshes
      exact ⟨x, ext.attempts (State.attemptForJob_mem hx).1, hxm⟩
    | reply job attempt status recipient t =>
      exact ⟨attempt, ext.attempts (State.attemptForJob_mem g.1).1, refreshes⟩
    | notice edge job attempt t =>
      exact ⟨attempt, ext.attempts (State.attemptForJob_mem g.2.2).1, refreshes⟩
    | _ => exact refreshes.elim

theorem registerCallbackEdge_logs (cfg : Config) (s : State) (request : MessageEnvelope)
    (jobs : List JobRecord) (id : MessageId) (t : Timestamp) :
    (State.registerCallbackEdge cfg s request jobs id t).1.messages = s.messages ∧
      (State.registerCallbackEdge cfg s request jobs id t).1.attempts = s.attempts := by
  unfold State.registerCallbackEdge
  split
  · exact ⟨rfl, rfl⟩
  · split_ifs
    · exact ⟨rfl, rfl⟩
    · split
      · split <;> exact ⟨rfl, rfl⟩
      · exact ⟨rfl, rfl⟩

/-- A submission records its message with an attempt for each of its jobs. -/
theorem submitPlan_manned (plan : SubmissionPlan) (t : Timestamp) (ok : Manned s) :
    Manned (State.submitPlan cfg s plan t).1 := by
  obtain ⟨jobs, heq, -⟩ := enqueueDrafts_spec cfg s plan t
  unfold State.submitPlan
  rw [heq]
  dsimp only
  unfold State.recordSubmission
  split_ifs with hempty
  · exact ok
  · set drafted : State := ({ s with nextId := s.nextId + 1 + jobs.length } : State).drafted jobs
    set message := drafted.submissionMessage plan.request jobs plan.submissionId t
      plan.originMessageId
    dsimp only
    set entered : State := { drafted with
      messages := drafted.messages ++ [message], nextId := drafted.nextId + 1 }
    obtain ⟨xs, hxs, hnew, hall, -, hmessages, -⟩ :=
      recordAttempts_logs entered jobs message.messageId t
    set recorded := jobs.foldl (fun s job => s.recordAttempt message.messageId job 0 t) entered
    have manned : Manned recorded := by
      intro m hm
      rw [State.messageState, hmessages, stateIn_append] at hm
      rw [hxs]
      split_ifs at hm with hid
      · obtain ⟨job, hjob⟩ := List.exists_mem_of_ne_nil jobs (by simpa using hempty)
        obtain ⟨x, hx, -⟩ := hall job hjob
        exact ⟨x, List.mem_append_right _ hx, (hnew x hx).1.trans hid⟩
      · obtain ⟨x, hx, hxm⟩ := ok m hm
        exact ⟨x, List.mem_append_left _ hx, hxm⟩
    obtain ⟨hm, ha⟩ := registerCallbackEdge_logs cfg recorded plan.request jobs message.messageId t
    have registered : Manned
        (State.registerCallbackEdge cfg recorded plan.request jobs message.messageId t).1 := by
      intro m hstate
      rw [State.messageState, hm] at hstate
      rw [ha]
      exact manned m hstate
    generalize State.registerCallbackEdge cfg recorded plan.request jobs message.messageId t =
      result at registered ⊢
    obtain ⟨state, _ | _⟩ := result <;> exact registered

/-- The operation is no submission. -/
def Op.existing : Op → Prop
  | .submit _ | .resubmit _ => False
  | _ => True

theorem Op.existing_permits {op : Op} (h : op.existing) (record : MessageRecord) :
    ¬op.permits cfg w s₀ s (.newMessage record) := by
  intro hp
  cases op with
  | submit request => exact h
  | resubmit id => exact h
  | complete j decision => exact hp.2
  | cancel j recordReply =>
    rcases hp with hp | hp | ⟨_, _, _, _, _, hact, -⟩
    · exact hp
    · exact hp
    · contradiction
  | ack a i => exact hp.elim id id
  | recover j d hint => rcases hp with hp | hp | hp <;> exact hp
  | shutdown =>
    obtain ⟨j, -, hp | hp⟩ := hp <;> exact hp
  | _ => exact hp

theorem Manned.exec (ok : Manned s) (h : Sound cfg s) {op : Op} (admissible : op.admissible s) :
    Manned (exec cfg w s op) := by
  by_cases hexisting : op.existing
  · refine (exec_path (w := w) h op admissible).invariant (I := Manned)
      (fun s₁ act hs ok₁ hp g => Act.manned hs.coherent g ok₁ ?_) h ok
    rintro record rfl
    exact Op.existing_permits hexisting record hp
  · cases op with
    | submit request =>
      simp only [Dispatch.exec, State.submitJobs]
      split
      · exact ok
      · exact submitPlan_manned _ _ ok
    | resubmit id =>
      simp only [Dispatch.exec, State.resubmitMessage]
      split
      · exact ok
      · exact submitPlan_manned _ _ ok
    | _ => exact absurd trivial hexisting

/-! ### Runs -/

theorem Booked.initial (auto : Bool) : Booked cfg none (State.initial auto) :=
  ⟨Sound.initial auto, Carried.initial auto, fun _ ⟨_, hx, _⟩ => absurd hx List.not_mem_nil,
    fun _ hr => absurd hr List.not_mem_nil,
    fun _ _ hx => absurd (State.mem_of_latestAttempts hx).1 List.not_mem_nil⟩

theorem Reachable.manned {allowed : World → State → Op → Prop} (h : Reachable cfg allowed s) :
    Manned s := by
  obtain ⟨auto, run⟩ := h
  induction run with
  | refl => exact fun m hm => by simp [State.messageState, stateIn, State.initial] at hm
  | tail run step ih =>
    have hs := Reachable.sound ⟨auto, run⟩
    obtain ⟨w, op, hadm, -, rfl⟩ := step
    exact ih.exec hs hadm

theorem Reachable.booked (h : Reachable cfg (fun _ => plain) s) : Booked cfg none s := by
  obtain ⟨auto, run⟩ := h
  induction run with
  | refl => exact Booked.initial auto
  | tail _ step ih =>
    obtain ⟨w, op, hadm, hplain, rfl⟩ := step
    exact ih.exec hadm hplain

/-- A message follows its attempts: it has ended only if they have, and once they have
and none of its callbacks is pending, answered or carried on, it has ended too. -/
theorem message_follows_attempts (run : Reachable cfg (fun _ => plain) s) {message : MessageRecord}
    (found : s.getMessage m = some message) :
    (message.messageState.terminal = true →
      ∀ x ∈ s.latestAttempts m, x.attemptState.terminal = true) ∧
    ((∀ x ∈ s.latestAttempts m, x.attemptState.terminal = true) →
      (∀ edge, s.getEdge edge.edgeId = some edge → edge.parentMessageId = m →
        edge.state ≠ .pending ∧ edge.state ≠ .childCompleted ∧
          edge.state ≠ .continuationSubmitted) →
      message.messageState.terminal = true) := by
  have hs := run.sound
  have hstate : s.messageState m = some message.messageState := by
    rw [State.messageState, stateIn]
    exact congrArg (Option.map MessageRecord.messageState) found
  constructor
  · intro hended
    exact hs.coherent.idle_iff.mp (run.endedIdle m ⟨_, hstate, hended⟩)
  · intro hended hover
    have hattempt := run.manned m (by rw [hstate]; rfl)
    rcases run.booked.accounted m hattempt (hs.coherent.idle_iff.mpr hended) with
      hsettled | ⟨edge, hedge, hparent, hopen⟩
    · rw [State.Settled, hstate] at hsettled
      rw [Option.some.inj hsettled]
      exact (nextMessageState_terminal _ _).mpr hended
    · obtain ⟨hpending, hcompleted, hsubmitted⟩ := hover edge hedge hparent
      cases hcase : edge.state <;> simp_all [CallbackEdgeState.over]

namespace Sample

/-- The parent of a callback has ended and its continuation has been completed. -/
def callbackFinished : List (Timestamp × Op) :=
  callbackAnswered ++ [(Mailbox.sampleTime, .complete 1 (decision .completed)),
    (Mailbox.sampleTime, .tick), (Mailbox.sampleTime, .complete 12 (decision .completed))]

theorem callbackFinished_done {edge : CallbackEdgeRecord}
    (found : (after callbackFinished).getEdge edge.edgeId = some edge) : edge.state = .done := by
  have hdone : ∀ e ∈ (after callbackFinished).edges,
      ((after callbackFinished).getEdge e.edgeId).map CallbackEdgeRecord.state = some .done := by
    decide +kernel
  have hstate := hdone edge (State.getEdge_mem found).1
  rw [found] at hstate
  exact Option.some.inj hstate

/-- While the callback is pending, a request that names it is submitted and completed. -/
def callbackNamed : List (Timestamp × Op) :=
  callbackAsk ++ [(Mailbox.sampleTime, .complete 1 (decision .completed)),
    (Mailbox.sampleTime, .submit { ask .user "agent3" none with routeOptions := ⟨none, some 10⟩ }),
    (Mailbox.sampleTime, .tick), (Mailbox.sampleTime, .complete 12 (decision .completed))]

end Sample

theorem message_follows_attempts_finished : ∃ message,
    (Sample.after Sample.callbackFinished).getMessage 2 = some message ∧
      message.messageState.terminal = true := by
  have run : Reachable Sample.config (fun _ => plain) (Sample.after Sample.callbackFinished) :=
    Sample.reachable_after (by decide +kernel)
  have hmessage : ((Sample.after Sample.callbackFinished).getMessage 2).isSome = true := by
    decide +kernel
  obtain ⟨message, found⟩ := Option.isSome_iff_exists.mp hmessage
  refine ⟨message, found, (message_follows_attempts run found).2 (by decide +kernel) ?_⟩
  intro edge hedge _
  rw [Sample.callbackFinished_done hedge]
  decide

/-- A request that names a callback closes it when it is completed: the parent's message
stays running, with its only attempt ended and its only callback done. -/
theorem message_stays_running_named :
    Reachable Sample.config (fun _ _ _ => True) (Sample.after Sample.callbackNamed) ∧
    (Sample.after Sample.callbackNamed).messageState 2 = some .running ∧
    (∀ x ∈ (Sample.after Sample.callbackNamed).latestAttempts 2,
      x.attemptState.terminal = true) ∧
    ∀ edge ∈ (Sample.after Sample.callbackNamed).edges,
      ((Sample.after Sample.callbackNamed).getEdge edge.edgeId).map CallbackEdgeRecord.state =
        some .done :=
  ⟨Sample.reachable_after (by decide +kernel), by decide +kernel, by decide +kernel,
    by decide +kernel⟩

/-! ### Completed messages -/

/-- A message whose final attempts are completed is completed, if all its callbacks are
done, or it has been replied to besides, and no reply says otherwise. Reply deliveries
have no replies, so all their attempts count. -/
theorem message_completed (run : Reachable cfg (fun _ => plain) s) {message : MessageRecord}
    (found : s.getMessage m = some message)
    (ended : ∀ x ∈ s.latestAttempts m, x.attemptState.terminal = true)
    (settled : ∀ edge, s.getEdge edge.edgeId = some edge → edge.parentMessageId = m →
      edge.state ≠ .pending ∧ edge.state ≠ .childCompleted ∧ edge.state ≠ .continuationSubmitted)
    (final : ∀ a ∈ message.targetAgents, ∃ x ∈ s.latestAttempts m, x.agentName = a ∧
      (∀ y ∈ s.latestAttempts m, y.agentName = a → y.retryIndex ≤ x.retryIndex) ∧
        x.attemptState = .completed)
    (callbacks : (∃ r ∈ s.replies, r.messageId = m ∧ r.notice = false) ∨
      ∀ edge, s.getEdge edge.edgeId = some edge → edge.parentMessageId = m →
        edge.state ≠ .failed ∧ edge.state ≠ .timedOut)
    (replies : ∀ r ∈ s.replies, r.messageId = m → r.notice = false →
      r.terminalStatus = .completed)
    (requests : (∀ x ∈ s.latestAttempts m, ∀ r ∈ s.jobs, r.jobId = x.jobId →
        State.isReplyDeliveryJob r = false) ∨
      ∀ x ∈ s.latestAttempts m, x.attemptState = .completed) :
    message.messageState = .completed := by
  have hs := run.sound
  have booked := run.booked
  have hstate : s.messageState m = some message.messageState := by
    rw [State.messageState, stateIn]
    exact congrArg (Option.map MessageRecord.messageState) found
  have hattempt := run.manned m (by rw [hstate]; rfl)
  have hwaits : ¬s.Awaited m := by
    rintro ⟨edge, hedge, hparent, hopen⟩
    obtain ⟨hpending, hcompleted, hsubmitted⟩ := settled edge hedge hparent
    cases hcase : edge.state <;> simp_all [CallbackEdgeState.over]
  have hsettled := (booked.accounted m hattempt (hs.coherent.idle_iff.mpr ended)).resolve_right
    hwaits
  rw [State.Settled, hstate] at hsettled
  rw [Option.some.inj hsettled]
  by_cases hanswered : s.Answered m
  · obtain ⟨r, hr, hm, hn⟩ := hanswered
    refine nextMessageState_completed ended ⟨r, List.mem_filter.mpr ⟨hr, by simpa using hm⟩, hn⟩ ?_
    intro r' hr' hn'
    obtain ⟨hr', hm'⟩ := List.mem_filter.mp hr'
    exact replies r' hr' (by simpa using hm') hn'
  · have hbroken : ¬s.Broken m := by
      rintro ⟨edge, hedge, hparent, hfailed⟩
      obtain ⟨hne, hne'⟩ := callbacks.resolve_left hanswered edge hedge hparent
      exact hfailed.elim hne hne'
    -- a completed request would have left something
    have hall : ∀ x ∈ s.latestAttempts m, x.attemptState = .completed := by
      refine requests.resolve_left fun hrequests => ?_
      obtain ⟨hmem, -⟩ := State.getMessage_mem found
      obtain ⟨a, ha⟩ := List.exists_mem_of_ne_nil _ (hs.coherent.messages message hmem).nonempty
      obtain ⟨x, hx, -, -, hcompleted⟩ := final a ha
      rcases booked.replied.cleared m x hx hcompleted (by simp) (hrequests x hx) with
        hreply | hawaited | hfailed
      · exact hanswered hreply
      · exact hwaits hawaited
      · exact hbroken hfailed
    have hnone : s.listReplies m = [] := by
      rw [State.listReplies, List.filter_eq_nil_iff]
      intro r hr hm
      have hm : r.messageId = m := by simpa using hm
      cases hn : r.notice with
      | true => exact hbroken (hm ▸ booked.replied.notices r hr hn)
      | false => exact hanswered ⟨r, hr, hm, hn⟩
    obtain ⟨x, hx, rfl⟩ := hattempt
    have hne : s.latestAttempts x.messageId ≠ [] := by
      have := latestAttempts_nonempty hx
      simpa using this
    rw [hnone]
    exact nextMessageState_silent hne hall

/-- The parent of a callback ends, and the callback expires. -/
def Sample.callbackExpired : List (Timestamp × Op) :=
  Sample.callbackAsk ++ [(Mailbox.sampleTime, .complete 1 (Sample.decision .completed)),
    (Sample.late, .sweepCallbacks)]

theorem message_completed_finished : ∃ message,
    (Sample.after Sample.callbackFinished).getMessage 2 = some message ∧
      message.messageState = .completed := by
  have run : Reachable Sample.config (fun _ => plain) (Sample.after Sample.callbackFinished) :=
    Sample.reachable_after (by decide +kernel)
  have htargets : ((Sample.after Sample.callbackFinished).getMessage 2).map
      MessageRecord.targetAgents = some ["agent1"] := by
    decide +kernel
  obtain ⟨message, found, hagents⟩ := Option.map_eq_some_iff.mp htargets
  refine ⟨message, found, message_completed run found (by decide +kernel) ?_ ?_
    (.inl (by decide +kernel)) (by decide +kernel) (.inl (by decide +kernel))⟩
  · intro edge hedge _
    rw [Sample.callbackFinished_done hedge]
    decide
  · rw [hagents]
    decide +kernel

/-- An expired callback leaves a notice, and the message of its parent has failed, although
its only attempt is completed. -/
theorem message_failed_expired :
    Reachable Sample.config (fun _ => plain) (Sample.after Sample.callbackExpired) ∧
    ((Sample.after Sample.callbackExpired).getMessage 2).map MessageRecord.targetAgents =
      some ["agent1"] ∧
    ((Sample.after Sample.callbackExpired).latestAttempts 2).map
      (fun x => (x.agentName, x.attemptState)) = [("agent1", .completed)] ∧
    (∀ edge ∈ (Sample.after Sample.callbackExpired).edges,
      ((Sample.after Sample.callbackExpired).getEdge edge.edgeId).map CallbackEdgeRecord.state =
        some .timedOut) ∧
    (Sample.after Sample.callbackExpired).messageState 2 = some .failed :=
  ⟨Sample.reachable_after (by decide +kernel), by decide +kernel, by decide +kernel,
    by decide +kernel, by decide +kernel⟩

end CodexBridge.Dispatch
