import CodexBridge.Dispatch.RepairPasses

/-! A callback continuation cut short by a crash after any of its writes, and what the
repairs after the restart make of it. -/

namespace CodexBridge.Dispatch

open AppendLog

variable {cfg : Config} {w : World} {s s' : State} {x : EdgeId} {e : CallbackEdgeRecord}

/-! ### One pass -/

/-- The sweep of a pass finds the edge expired. -/
def Config.lapses (cfg : Config) (edge : CallbackEdgeRecord) (w : World) : Bool :=
  cfg.callbackExpired (w.clock 0 .sweep) edge.timeoutAt

/-- The repair of a pass looks into the edge: it is not expired and names no job. -/
def Config.resumes (cfg : Config) (edge : CallbackEdgeRecord) (w : World) : Bool :=
  !cfg.callbackExpired (w.clock 0 (.repair edge.edgeId)) edge.timeoutAt &&
    edge.continuationJobId.isNone

theorem resumes_iff : cfg.resumes e w = true ↔
    cfg.callbackExpired (w.clock 0 (.repair e.edgeId)) e.timeoutAt = false ∧
      e.continuationJobId = none := by
  simp [Config.resumes]

/-- An open edge that has expired is timed out by the sweep. -/
theorem sweep_lapsed (h : Durable s) (found : s.getEdge e.edgeId = some e)
    (hopen : e.state.terminal = false) (honce : s.ContinuedOnce e)
    (hlapses : cfg.lapses e w = true) :
    Durable (State.sweepCallbackTimeouts cfg (w.clock 0 .sweep) s) ∧
      Recovered (State.sweepCallbackTimeouts cfg (w.clock 0 .sweep) s) e.edgeId := by
  rw [sweepCallbackTimeouts_eq]
  refine (turning_sweep cfg _).pass (P := fun s => s.ContinuedOnce e)
    (Q := fun s => Recovered s e.edgeId) h (fun _ _ _ ha => ha.continuedOnce)
    (fun _ _ _ ha => ha.recovered) found honce (fun s₁ hd hfound _ honce₁ => ?_)
    (fun s₁ hterm => absurd (hopen.symm.trans hterm) Bool.false_ne_true)
  have hexp : cfg.callbackExpired (w.clock 0 .sweep) e.timeoutAt = true := hlapses
  rw [sweepTurn_eq hfound, if_pos hexp]
  have hr := recovered_failWrites cfg hd hfound hopen honce₁ (.inr rfl) (w.clock 0 .sweep)
    (s₁.failWrites cfg e .timedOut (w.clock 0 .sweep)).length
  rwa [List.take_of_length_le (Nat.le_succ _)] at hr

/-- The sweep leaves an edge alone that is over or has not expired. -/
theorem sweep_kept (h : Durable s) {P : State → Prop}
    (hP : ∀ s s', Durable s → Aside e.edgeId s s' → P s → P s')
    (found : s.getEdge e.edgeId = some e) (hp : P s)
    (hkept : e.state.terminal = false → cfg.lapses e w = false) :
    Durable (State.sweepCallbackTimeouts cfg (w.clock 0 .sweep) s) ∧
      P (State.sweepCallbackTimeouts cfg (w.clock 0 .sweep) s) := by
  rw [sweepCallbackTimeouts_eq]
  refine (turning_sweep cfg _).pass h hP hP found hp (fun s₁ _ hfound hopen hp₁ => ?_)
    (fun _ _ hp₁ => hp₁)
  have hexp : cfg.callbackExpired (w.clock 0 .sweep) e.timeoutAt = false := hkept hopen
  rw [sweepTurn_eq hfound, hexp]
  exact hp₁

/-- What the repair loop of a pass makes of an edge. -/
theorem repair_pass (h : Durable s) {P Q : State → Prop}
    (hP : ∀ s s', Durable s → Aside e.edgeId s s' → P s → P s')
    (hQ : ∀ s s', Durable s → Aside e.edgeId s s' → Q s → Q s')
    (found : s.getEdge e.edgeId = some e) (hp : P s)
    (own : ∀ s₁, Durable s₁ → s₁.getEdge e.edgeId = some e → e.state.terminal = false →
      cfg.resumes e w = true → P s₁ →
      Q (State.repairCallbackEdge cfg (w.clock 0 (.repair e.edgeId)) s₁ e))
    (idle : ∀ s₁, (e.state.terminal = false → cfg.resumes e w = false) → P s₁ → Q s₁) :
    Durable (s.pendingCallbackEdges.foldl (fun s edge =>
        State.repairCallbackEdge cfg (w.clock 0 (.repair edge.edgeId)) s edge) s) ∧
      Q (s.pendingCallbackEdges.foldl (fun s edge =>
        State.repairCallbackEdge cfg (w.clock 0 (.repair edge.edgeId)) s edge) s) := by
  refine (turning_repair cfg fun i => w.clock 0 (.repair i)).pass h hP hQ found hp
    (fun s₁ hd hfound hopen hp₁ => ?_) (fun s₁ hterm hp₁ => idle s₁ (fun hopen => ?_) hp₁)
  · cases hresumes : cfg.resumes e w with
    | true => exact own s₁ hd hfound hopen hresumes hp₁
    | false =>
      rw [repairCallbackEdge_idle hfound]
      · exact idle s₁ (fun _ => hresumes) hp₁
      · by_contra hnot
        simp only [not_or, Bool.not_eq_true, Option.isSome_eq_false_iff,
          Option.isNone_iff_eq_none] at hnot
        rw [resumes_iff.mpr hnot.2] at hresumes
        contradiction
  · rw [hterm] at hopen
    contradiction

/-- A job that goes on with the edge is there, unless the edge has failed. -/
theorem Recovered.existing (h : Recovered s e.edgeId) (found : s.getEdge e.edgeId = some e)
    (hopen : e.state.terminal = false) :
    ∃ existing, s.existingContinuationJob e = some existing := by
  obtain ⟨edge, found', -, hsettled⟩ := h
  obtain rfl := Option.some.inj (found.symm.trans found')
  rcases hsettled with hstate | hstate | ⟨job, hjob, -⟩
  · rw [hstate] at hopen
    contradiction
  · rw [hstate] at hopen
    contradiction
  · rcases hexisting : s.existingContinuationJob e with _ | existing
    · rw [continuationJobs_eq_nil hexisting] at hjob
      contradiction
    · exact ⟨existing, rfl⟩

theorem repair_recovered (h : Durable s) (hr : Recovered s x) :
    Durable (s.pendingCallbackEdges.foldl (fun s edge =>
        State.repairCallbackEdge cfg (w.clock 0 (.repair edge.edgeId)) s edge) s) ∧
      Recovered (s.pendingCallbackEdges.foldl (fun s edge =>
        State.repairCallbackEdge cfg (w.clock 0 (.repair edge.edgeId)) s edge) s) x := by
  have hkeep : ∀ s s', Durable s → Aside x s s' → Recovered s x → Recovered s' x :=
    fun _ _ _ ha => ha.recovered
  obtain ⟨e, found, -⟩ := id hr
  obtain rfl := (State.getEdge_mem found).2
  refine repair_pass h hkeep hkeep found hr (fun s₁ _ hfound hopen hresumes hr₁ => ?_)
    fun _ _ hr₁ => hr₁
  obtain ⟨existing, hexisting⟩ := hr₁.existing hfound hopen
  obtain ⟨hexp, hfree⟩ := resumes_iff.mp hresumes
  rw [repairCallbackEdge_existing hfound hopen hexp hfree hexisting]
  exact hr₁.appendEdge hfound hopen ⟨rfl, rfl, rfl, rfl, rfl, rfl, rfl, rfl, rfl, rfl⟩

theorem pass_lapsed (h : Durable s) (found : s.getEdge e.edgeId = some e)
    (hopen : e.state.terminal = false) (honce : s.ContinuedOnce e)
    (hlapses : cfg.lapses e w = true) :
    Durable (State.repairCallbackEdges cfg w s) ∧
      Recovered (State.repairCallbackEdges cfg w s) e.edgeId := by
  obtain ⟨hd, hr⟩ := sweep_lapsed h found hopen honce hlapses
  exact repair_recovered hd hr

/-- What is recovered stays so. -/
theorem pass_recovered (h : Durable s) (hr : Recovered s x) :
    Durable (State.repairCallbackEdges cfg w s) ∧
      Recovered (State.repairCallbackEdges cfg w s) x := by
  obtain ⟨e, found, honce, -⟩ := id hr
  obtain rfl := (State.getEdge_mem found).2
  by_cases hlapsed : e.state.terminal = false ∧ cfg.lapses e w = true
  · exact pass_lapsed h found hlapsed.1 honce hlapsed.2
  · obtain ⟨hd, hr'⟩ := sweep_kept h (fun _ _ _ ha => ha.recovered) found hr
      fun hopen => by simpa [hopen] using hlapsed
    exact repair_recovered hd hr'

/-- A pass that finds nothing to do for an edge. -/
theorem pass_kept (h : Durable s) {P : State → Prop}
    (hP : ∀ s s', Durable s → Aside e.edgeId s s' → P s → P s')
    (hfound : ∀ s, P s → s.getEdge e.edgeId = some e) (hp : P s)
    (hlapses : e.state.terminal = false → cfg.lapses e w = false)
    (hresumes : e.state.terminal = false → cfg.resumes e w = false) :
    Durable (State.repairCallbackEdges cfg w s) ∧ P (State.repairCallbackEdges cfg w s) := by
  obtain ⟨hd, hp'⟩ := sweep_kept h hP (hfound s hp) hp hlapses
  refine repair_pass hd hP hP (hfound _ hp') hp' (fun s₁ _ _ hopen hres _ => ?_)
    fun _ _ hp₁ => hp₁
  rw [hresumes hopen] at hres
  contradiction

/-- The repair takes an orphan for a continuation that can start. -/
theorem pass_orphaned (h : Durable s) (ho : Orphaned s e) (hlapses : cfg.lapses e w = false)
    (hopen : e.state.terminal = false) (hresumes : cfg.resumes e w = true) :
    Durable (State.repairCallbackEdges cfg w s) ∧ ∃ e', e'.edgeId = e.edgeId ∧
      e'.state.terminal = true ∧ Orphaned (State.repairCallbackEdges cfg w s) e' := by
  obtain ⟨hd, ho'⟩ := sweep_kept h (fun _ _ _ ha => ha.orphaned) ho.found ho fun _ => hlapses
  refine repair_pass hd (P := fun s => Orphaned s e)
    (Q := fun s => ∃ e', e'.edgeId = e.edgeId ∧ e'.state.terminal = true ∧ Orphaned s e')
    (fun _ _ _ ha => ha.orphaned) ?_ ho'.found ho' (fun s₁ _ hfound _ _ ho₁ => ?_)
    fun s₁ hidle _ => ?_
  · rintro s₁ s₂ - ha ⟨e', hid, hterm, he'⟩
    exact ⟨e', hid, hterm, (hid ▸ ha).orphaned he'⟩
  · obtain ⟨existing, hexisting⟩ := ho₁.carried
    obtain ⟨hexp, hfree⟩ := resumes_iff.mp hresumes
    rw [repairCallbackEdge_existing hfound hopen hexp hfree hexisting]
    refine ⟨s₁.continuedEdge e existing, rfl, rfl, ho₁.appendEdge
      ⟨rfl, rfl, rfl, rfl, rfl, rfl, rfl, rfl, rfl, rfl⟩ ⟨?_, ?_⟩⟩
    all_goals exact CallbackEdgeState.noConfusion
  · rw [hidle hopen] at hresumes
    contradiction

/-- An orphan that is over stays one. -/
theorem pass_orphaned_closed (h : Durable s) (ho : Orphaned s e)
    (hterm : e.state.terminal = true) :
    Durable (State.repairCallbackEdges cfg w s) ∧
      Orphaned (State.repairCallbackEdges cfg w s) e := by
  have hover : ∀ b : Bool, e.state.terminal = false → b = false := by
    intro b hopen
    rw [hterm] at hopen
    contradiction
  exact pass_kept h (fun _ _ _ ha => ha.orphaned) (fun _ ho => ho.found) ho (hover _) (hover _)

/-! ### Prefixes -/

section Prefix
variable {childJob : JobRecord} {decision : CompletionDecision} {t : Timestamp}

/-- The job row alone. -/
theorem Undecided.orphaned_job (hu : Undecided s e) (h : Durable s) :
    Orphaned ((Write.job (s.submittedJob cfg e childJob decision t)).apply s) e := by
  have hjobs : ((Write.job (s.submittedJob cfg e childJob decision t)).apply s).continuationJobs e =
      [s.submittedJob cfg e childJob decision t] := by
    have hold := continuationJobs_eq_nil hu.first
    unfold State.continuationJobs State.listAgent at hold ⊢
    rw [List.filter_filter] at hold ⊢
    rw [show ((Write.job (s.submittedJob cfg e childJob decision t)).apply s).jobs =
      s.jobs ++ [s.submittedJob cfg e childJob decision t] from rfl, List.filter_append, hold]
    simp [State.submittedJob, State.continuationJob, State.continuationRequest]
  refine ⟨hu.found, ?_, ⟨s.submittedJob cfg e childJob decision t, ?_⟩, ?_, ?_⟩
  · have hopen := hu.outstanding
    constructor <;>
    · intro hstate
      rw [hstate] at hopen
      contradiction
  · rw [existingContinuationJob_eq, hjobs]
    rfl
  · unfold State.ContinuedOnce
    rw [hjobs]
    intro r hr r' hr'
    rw [List.mem_singleton.mp hr, List.mem_singleton.mp hr']
  · -- events name known jobs, and this one is new
    rw [hjobs]
    intro r hr event hevent hpay
    rw [List.mem_singleton.mp hr] at hpay
    obtain ⟨z, hz, hid⟩ := (h.events _ event hevent).2 _ hpay
    exact absurd hid (h.jobs z hz).ne

/-- The job and its attempt, still without an event. -/
theorem Undecided.orphaned_attempt (hu : Undecided s e) (h : Durable s) :
    Orphaned (s.applyWrites ((s.continuationJobWrites cfg e childJob decision t).take 2)) e := by
  obtain ⟨hjob, hattempt, -⟩ :=
    validWrites_continuationJobWrites cfg h hu.found hu.outstanding childJob decision t
  -- a row of an attempt is about no edge in particular
  have hother : (Write.attempt _).Valid (e.edgeId + 1) _ := hattempt
  exact (Aside.write (h.apply hjob) hother (Nat.ne_of_lt (Nat.lt_succ_self _))).orphaned
    (hu.orphaned_job h)

/-- The job, its attempt and the event that announces it. -/
theorem Undecided.recovered_event (hu : Undecided s e) (h : Durable s) (cfg : Config)
    (childJob : JobRecord) (decision : CompletionDecision) (t : Timestamp) :
    Recovered (s.applyWrites ((s.continuationJobWrites cfg e childJob decision t).take 3))
      e.edgeId := by
  have hagent : e.callbackTargetAgent = e.parentAgent :=
    h.edges.target e (State.getEdge_mem hu.found).1
  set job := s.submittedJob cfg e childJob decision t with hjob
  set entered := (Write.job job).apply s with hentered
  have hmem : job ∈ s.jobs ++ [job] := by simp
  have hmailbox : ((s.applyWrites ((s.continuationJobWrites cfg e childJob decision t).take
      3)).mailboxes e.parentAgent) = (s.mailboxes e.parentAgent).append
        (entered.requestRow e.parentMessageId job t).record := by
    rw [← hagent]
    exact Function.update_self _ _ _
  refine ⟨e, hu.found, (hu.orphaned_job h).once, .inr (.inr
    ⟨job, mem_continuationJobs.mpr ⟨hmem, rfl, rfl⟩, ?_, State.pendingStatus_pending _ _,
      entered.attemptRow e.parentMessageId job (entered.nextRetryIndex e.parentMessageId
        job.agentName) t, ?_, (entered.requestRow e.parentMessageId job t).record, ?_, rfl, rfl,
      rfl, rfl⟩)⟩
  · exact (findLast_append _ _ _).trans (if_pos (decide_eq_true rfl))
  · exact (findLast_append _ _ _).trans (if_pos (decide_eq_true rfl))
  · rw [hmailbox, Mailbox.mem_pendingEvents, Mailbox.mem_latestEvents_append]
    exact ⟨.inl rfl, rfl⟩

/-- Whatever is written after the event. -/
theorem Undecided.recovered_prefix (hu : Undecided s e) (h : Durable s) (k : ℕ) :
    Recovered (s.applyWrites ((s.continuationJobWrites cfg e childJob decision t).take (k + 3)))
      e.edgeId := by
  set job := s.submittedJob cfg e childJob decision t
  set entered := (Write.job job).apply s
  -- the summary and the message, then the edge
  set rest := Write.summary job.agentName .taskRequest t ::
    entered.messageWrites e.parentMessageId .queued t
  have hvalid := validWrites_continuationJobWrites cfg h hu.found hu.outstanding childJob
    decision t
  have hd := h.applyWrites (hvalid.take 3)
  have hr := hu.recovered_event h cfg childJob decision t
  set announced := s.applyWrites ((s.continuationJobWrites cfg e childJob decision t).take 3)
  have hrest : ValidWrites (e.edgeId + 1) announced rest :=
    ⟨trivial, validWrites_messageWrites _ _ _ _ _ _⟩
  have hbeside : ∀ j, Aside e.edgeId announced (announced.applyWrites (rest.take j)) :=
    fun j => Aside.writes hd (hrest.take j) (Nat.ne_of_lt (Nat.lt_succ_self _))
  change Recovered (announced.applyWrites
    ((rest ++ [Write.edge (e.submitted job.jobId t)]).take k)) e.edgeId
  rcases Nat.lt_or_ge rest.length k with hk | hk
  · rw [List.take_of_length_le ((List.length_append).trans_le hk), State.applyWrites_append]
    have hlast := hbeside rest.length
    rw [List.take_length] at hlast
    exact (hlast.recovered hr).appendEdge (hlast.getEdge.trans hu.found) hu.outstanding
      ⟨rfl, rfl, rfl, rfl, rfl, rfl, rfl, rfl, rfl, rfl⟩
  · rw [List.take_append_of_le_length hk]
    exact (hbeside k).recovered hr

end Prefix

section Call
variable {edge current : CallbackEdgeRecord} {childJob : JobRecord} {childReplyId : Option ReplyId}
variable {decision : CompletionDecision} {t : Timestamp}

/-- The first write leaves the edge open. -/
theorem ContinuationCall.marked (call : ContinuationCall s edge current childJob childReplyId)
    (t : Timestamp) :
    Undecided (s.appendEdge (State.completedEdge current childJob childReplyId t))
      (State.completedEdge current childJob childReplyId t) :=
  ⟨getEdge_appendEdge _ _, rfl, call.first⟩

/-- Two writes or three, of a continuation that is accepted. -/
theorem ContinuationCall.orphaned (call : ContinuationCall s edge current childJob childReplyId)
    (h : Durable s) (decision : CompletionDecision) (t : Timestamp) {u : Unit}
    (hvalid : s.validateTargetsAvailable cfg [current.callbackTargetAgent] = .ok u) {k : ℕ}
    (hk : k = 2 ∨ k = 3) :
    Orphaned (s.applyWrites
      ((s.continuationWrites cfg current childJob childReplyId decision t).take k))
      (State.completedEdge current childJob childReplyId t) := by
  have hd := h.apply (call.completed t)
  have hvalid' : (s.appendEdge (State.completedEdge current childJob childReplyId
    t)).validateTargetsAvailable cfg
      [(State.completedEdge current childJob childReplyId t).callbackTargetAgent] = .ok u := hvalid
  unfold State.continuationWrites
  simp only [hvalid']
  rcases hk with rfl | rfl
  · exact (call.marked t).orphaned_job hd
  · exact (call.marked t).orphaned_attempt hd

/-- Two writes or more of a continuation that is refused, or four or more. -/
theorem ContinuationCall.recovered (call : ContinuationCall s edge current childJob childReplyId)
    (h : Durable s) (decision : CompletionDecision) (t : Timestamp) {k : ℕ} (hk : 2 ≤ k)
    (hwritten : (s.validateTargetsAvailable cfg [current.callbackTargetAgent]).isOk = true →
      4 ≤ k) :
    Recovered (s.applyWrites
      ((s.continuationWrites cfg current childJob childReplyId decision t).take k))
      current.edgeId := by
  have hd := h.apply (call.completed t)
  have hmarked := call.marked t
  unfold State.continuationWrites
  dsimp only
  rcases hvalid : (s.appendEdge (State.completedEdge current childJob childReplyId
    t)).validateTargetsAvailable cfg
      [(State.completedEdge current childJob childReplyId t).callbackTargetAgent] with e | u
  · obtain ⟨j, rfl⟩ : ∃ j, k = j + 2 := ⟨k - 2, by omega⟩
    exact recovered_failWrites cfg hd hmarked.found hmarked.outstanding hmarked.once (.inl rfl) t j
  · have hok : s.validateTargetsAvailable cfg [current.callbackTargetAgent] = .ok u := hvalid
    have hk' := hwritten (by rw [hok]; rfl)
    obtain ⟨j, rfl⟩ : ∃ j, k = j + 4 := ⟨k - 4, by omega⟩
    exact hmarked.recovered_prefix hd j

/-- A continuation that is written to its end. -/
theorem ContinuationCall.submitted (call : ContinuationCall s edge current childJob childReplyId)
    (h : Durable s) :
    Recovered (State.submitCallbackContinuation cfg s edge childJob childReplyId decision t)
      current.edgeId := by
  obtain ⟨memory, heq⟩ := State.submitCallbackContinuation_eq cfg call.leads
    call.outstanding call.first childReplyId decision t
  have hr : Recovered (s.applyWrites
      ((s.continuationWrites cfg current childJob childReplyId decision t).take
        ((s.continuationWrites cfg current childJob childReplyId decision t).length + 4)))
      current.edgeId :=
    call.recovered h decision t ((Nat.le_add_left 2 2).trans (Nat.le_add_left _ _))
      fun _ => Nat.le_add_left _ _
  rw [List.take_of_length_le (Nat.le_add_right _ _)] at hr
  rw [heq]
  exact (Aside.memory _ _ memory).recovered hr

end Call

/-! ### Any number of passes -/

/-- An edge nobody goes on with keeps the answer it waits for. -/
theorem Aside.awaiting (ha : Aside e.edgeId s s') (h : Durable s)
    {answer : Option (ReplyRecord × JobRecord × CompletionDecision)}
    (hs : Undecided s e ∧ s.repairAnswer e = answer) :
    Undecided s' e ∧ s'.repairAnswer e = answer :=
  ⟨ha.undecided hs.1, (ha.repairAnswer h (State.getEdge_mem hs.1.found).1).trans hs.2⟩

theorem pass_unanswered (h : Durable s) (hu : Undecided s e) (hlapses : cfg.lapses e w = false)
    (hanswer : s.repairAnswer e = none) :
    Durable (State.repairCallbackEdges cfg w s) ∧
      Undecided (State.repairCallbackEdges cfg w s) e ∧
        (State.repairCallbackEdges cfg w s).repairAnswer e = none := by
  obtain ⟨hd, hp⟩ := sweep_kept h (fun _ _ hd ha => ha.awaiting hd) hu.found ⟨hu, hanswer⟩
    fun _ => hlapses
  refine repair_pass hd (fun _ _ hd ha => ha.awaiting hd) (fun _ _ hd ha => ha.awaiting hd)
    hp.1.found hp (fun s₁ _ hfound hopen hresumes hp₁ => ?_) fun _ _ hp₁ => hp₁
  obtain ⟨hexp, hfree⟩ := resumes_iff.mp hresumes
  rw [repairCallbackEdge_unanswered hfound hopen hexp hfree hp₁.1.first hp₁.2]
  exact hp₁

/-- The repair carries an answer on. -/
theorem pass_answered (h : Durable s) (hu : Undecided s e) (hlapses : cfg.lapses e w = false)
    (hresumes : cfg.resumes e w = true) {reply : ReplyRecord} {child : JobRecord}
    {decision : CompletionDecision}
    (hanswer : s.repairAnswer e = some (reply, child, decision)) :
    Durable (State.repairCallbackEdges cfg w s) ∧
      Recovered (State.repairCallbackEdges cfg w s) e.edgeId := by
  obtain ⟨hd, hp⟩ := sweep_kept h (fun _ _ hd ha => ha.awaiting hd) hu.found ⟨hu, hanswer⟩
    fun _ => hlapses
  refine repair_pass hd (fun _ _ hd ha => ha.awaiting hd) (Q := fun s => Recovered s e.edgeId)
    (fun _ _ _ ha => ha.recovered) hp.1.found hp (fun s₁ hd₁ hfound hopen _ hp₁ => ?_)
    fun s₁ hidle hp₁ => ?_
  · obtain ⟨hexp, hfree⟩ := resumes_iff.mp hresumes
    rw [repairCallbackEdge_answered hfound hopen hexp hfree hp₁.1.first hp₁.2]
    exact (hp₁.1.call hd₁ hp₁.2).submitted hd₁
  · rw [hidle hp₁.1.outstanding] at hresumes
    contradiction

/-- A pass that has nothing to do for an edge nobody goes on with, or finds no answer. -/
theorem pass_awaiting (h : Durable s) (hu : Undecided s e) (hlapses : cfg.lapses e w = false)
    (hact : ¬(cfg.resumes e w = true ∧ (s.repairAnswer e).isSome = true)) :
    Durable (State.repairCallbackEdges cfg w s) ∧
      Undecided (State.repairCallbackEdges cfg w s) e ∧
        (State.repairCallbackEdges cfg w s).repairAnswer e = s.repairAnswer e := by
  cases hresumes : cfg.resumes e w with
  | true =>
    have hnone : s.repairAnswer e = none := by simpa [hresumes] using hact
    rw [hnone]
    exact pass_unanswered h hu hlapses hnone
  | false =>
    exact pass_kept h (fun _ _ hd ha => ha.awaiting hd) (fun _ hp => hp.1.found) ⟨hu, rfl⟩
      (fun _ => hlapses) fun _ => hresumes

/-- The daemon starts again on the stores it finds. -/
def State.restart (cfg : Config) (s : State) : State :=
  { s with memory := Memory.rebuild s.listAgent cfg.agents }

/-- Pass after pass of the repair. -/
def State.repairs (cfg : Config) (s : State) (ws : List World) : State :=
  ws.foldl (fun s w => repairCallbackEdges cfg w s) s

theorem State.repairs_cons (s : State) (w : World) (ws : List World) :
    s.repairs cfg (w :: ws) = (repairCallbackEdges cfg w s).repairs cfg ws := rfl

theorem repairs_recovered {ws : List World} (h : Durable s) (hr : Recovered s x) :
    Recovered (s.repairs cfg ws) x := by
  induction ws generalizing s with
  | nil => exact hr
  | cons w ws ih =>
    rw [State.repairs_cons]
    exact ih (pass_recovered h hr).1 (pass_recovered h hr).2

theorem repairs_orphaned_closed {ws : List World} (h : Durable s) (ho : Orphaned s e)
    (hterm : e.state.terminal = true) : ¬Recovered (s.repairs cfg ws) e.edgeId := by
  induction ws generalizing s with
  | nil => exact ho.not_recovered
  | cons w ws ih =>
    obtain ⟨hd, ho'⟩ := pass_orphaned_closed h ho hterm
    rw [State.repairs_cons]
    exact ih hd ho'

/-- An orphan is recovered only by its timeout, and not once it has been looked into. -/
theorem repairs_orphaned {ws : List World} (h : Durable s) (ho : Orphaned s e)
    (hopen : e.state.terminal = false) :
    Recovered (s.repairs cfg ws) e.edgeId ↔
      ∃ w, ws.find? (fun w => cfg.lapses e w || cfg.resumes e w) = some w ∧
        cfg.lapses e w = true := by
  induction ws generalizing s with
  | nil =>
    refine iff_of_false ho.not_recovered ?_
    rintro ⟨w, hw, -⟩
    contradiction
  | cons w ws ih =>
    rw [State.repairs_cons]
    cases hlapses : cfg.lapses e w with
    | true =>
      obtain ⟨hd, hr⟩ := pass_lapsed h ho.found hopen ho.once hlapses
      refine iff_of_true (repairs_recovered hd hr) ⟨w, ?_, hlapses⟩
      rw [List.find?_cons_of_pos (by simp [hlapses])]
    | false =>
      cases hresumes : cfg.resumes e w with
      | true =>
        obtain ⟨hd, e', hid, hterm, ho'⟩ := pass_orphaned h ho hlapses hopen hresumes
        refine iff_of_false (hid ▸ repairs_orphaned_closed hd ho' hterm) ?_
        rintro ⟨w', hw', hlapses'⟩
        rw [List.find?_cons_of_pos (by simp [hresumes])] at hw'
        rw [← Option.some.inj hw', hlapses] at hlapses'
        contradiction
      | false =>
        obtain ⟨hd, ho'⟩ := pass_kept h (fun _ _ _ ha => ha.orphaned) (fun _ ho => ho.found) ho
          (fun _ => hlapses) fun _ => hresumes
        rw [List.find?_cons_of_neg (by simp [hlapses, hresumes])]
        exact ih hd ho'

/-- An edge nobody goes on with waits for its timeout or its answer. -/
theorem repairs_undecided {ws : List World} (h : Durable s) (hu : Undecided s e) :
    Recovered (s.repairs cfg ws) e.edgeId ↔
      ∃ w ∈ ws, cfg.lapses e w = true ∨
        cfg.resumes e w = true ∧ (s.repairAnswer e).isSome = true := by
  induction ws generalizing s with
  | nil =>
    refine iff_of_false hu.not_recovered ?_
    rintro ⟨w, hw, -⟩
    contradiction
  | cons w ws ih =>
    rw [State.repairs_cons, List.exists_mem_cons_iff]
    cases hlapses : cfg.lapses e w with
    | true =>
      obtain ⟨hd, hr⟩ := pass_lapsed h hu.found hu.outstanding hu.once hlapses
      exact iff_of_true (repairs_recovered hd hr) (.inl (.inl rfl))
    | false =>
      by_cases hact : cfg.resumes e w = true ∧ (s.repairAnswer e).isSome = true
      · obtain ⟨⟨reply, child, decision⟩, hsome⟩ := Option.isSome_iff_exists.mp hact.2
        obtain ⟨hd, hr⟩ := pass_answered h hu hlapses hact.1 hsome
        exact iff_of_true (repairs_recovered hd hr) (.inl (.inr hact))
      · have hpass := pass_awaiting h hu hlapses hact
        have hskip := ih hpass.1 hpass.2.1
        rw [hpass.2.2] at hskip
        simp only [Bool.false_eq_true, false_or, hact]
        exact hskip

/-! ### At most one job -/

/-- Where a crash and the passes after it leave an edge. -/
def Tracked (s : State) (x : EdgeId) : Prop :=
  Recovered s x ∨ ∃ e, e.edgeId = x ∧ (Undecided s e ∨ Orphaned s e)

theorem Tracked.once (h : Tracked s x) : ∃ e, s.getEdge x = some e ∧ s.ContinuedOnce e := by
  rcases h with ⟨e, found, honce, -⟩ | ⟨e, rfl, hu | ho⟩
  · exact ⟨e, found, honce⟩
  · exact ⟨e, hu.found, hu.once⟩
  · exact ⟨e, ho.found, ho.once⟩

theorem Undecided.tracked (h : Undecided s e) : Tracked s e.edgeId := .inr ⟨e, rfl, .inl h⟩

theorem Orphaned.tracked (h : Orphaned s e) : Tracked s e.edgeId := .inr ⟨e, rfl, .inr h⟩

theorem pass_tracked (h : Durable s) (ht : Tracked s x) :
    Durable (State.repairCallbackEdges cfg w s) ∧
      Tracked (State.repairCallbackEdges cfg w s) x := by
  rcases ht with hr | ⟨e, rfl, hu | ho⟩
  · exact (pass_recovered h hr).imp_right .inl
  · by_cases hlapses : cfg.lapses e w = true
    · exact (pass_lapsed h hu.found hu.outstanding hu.once hlapses).imp_right .inl
    · rw [Bool.not_eq_true] at hlapses
      by_cases hact : cfg.resumes e w = true ∧ (s.repairAnswer e).isSome = true
      · obtain ⟨⟨reply, child, decision⟩, hsome⟩ := Option.isSome_iff_exists.mp hact.2
        exact (pass_answered h hu hlapses hact.1 hsome).imp_right .inl
      · exact (pass_awaiting h hu hlapses hact).imp_right fun hp => hp.1.tracked
  · cases hterm : e.state.terminal with
    | true => exact (pass_orphaned_closed h ho hterm).imp_right Orphaned.tracked
    | false =>
      by_cases hlapses : cfg.lapses e w = true
      · exact (pass_lapsed h ho.found hterm ho.once hlapses).imp_right .inl
      · rw [Bool.not_eq_true] at hlapses
        cases hresumes : cfg.resumes e w with
        | true =>
          obtain ⟨hd, e', hid, -, ho'⟩ := pass_orphaned h ho hlapses hterm hresumes
          exact ⟨hd, .inr ⟨e', hid, .inr ho'⟩⟩
        | false =>
          obtain ⟨hd, ho'⟩ := pass_kept h (fun _ _ _ ha => ha.orphaned) (fun _ ho => ho.found) ho
            (fun _ => hlapses) fun _ => hresumes
          exact ⟨hd, ho'.tracked⟩

theorem Aside.tracked (ha : Aside x s s') (ht : Tracked s x) : Tracked s' x := by
  rcases ht with hr | ⟨e, rfl, hu | ho⟩
  · exact .inl (ha.recovered hr)
  · exact (ha.undecided hu).tracked
  · exact (ha.orphaned ho).tracked

/-- A continuation that is cut short leaves one job at most. -/
theorem ContinuationCall.tracked {edge current : CallbackEdgeRecord} {childJob : JobRecord}
    {childReplyId : Option ReplyId}
    (call : ContinuationCall s edge current childJob childReplyId) (h : Durable s)
    (decision : CompletionDecision) (t : Timestamp) (k : ℕ) :
    Tracked (s.applyWrites
      ((s.continuationWrites cfg current childJob childReplyId decision t).take k))
      current.edgeId := by
  obtain rfl | rfl | hk : k = 0 ∨ k = 1 ∨ 2 ≤ k := by omega
  · exact Undecided.tracked ⟨call.found, call.outstanding, call.first⟩
  · exact (call.marked t).tracked
  · cases hvalid : s.validateTargetsAvailable cfg [current.callbackTargetAgent] with
    | ok u =>
      rcases Nat.lt_or_ge k 4 with hk' | hk'
      · exact (call.orphaned h decision t hvalid (by omega)).tracked
      · exact .inl (call.recovered h decision t hk fun _ => hk')
    | error err =>
      refine .inl (call.recovered h decision t hk fun hok => ?_)
      rw [hvalid] at hok
      contradiction

/-- No pass submits a second job for an edge. -/
theorem repairs_once {ws : List World} (h : Durable s) (ht : Tracked s x) :
    ∃ e, (s.repairs cfg ws).getEdge x = some e ∧ (s.repairs cfg ws).ContinuedOnce e := by
  induction ws generalizing s with
  | nil => exact ht.once
  | cons w ws ih =>
    obtain ⟨hd, ht'⟩ := pass_tracked h ht
    rw [State.repairs_cons]
    exact ih hd ht'

/-- The continuation is cut short after `k` writes, the daemon starts again and makes the
passes `ws`. -/
def State.afterCrash (cfg : Config) (s : State) (edge : CallbackEdgeRecord) (childJob : JobRecord)
    (childReplyId : Option ReplyId) (decision : CompletionDecision) (t : Timestamp) (k : ℕ)
    (ws : List World) : State :=
  ((s.applyWrites ((s.continuationWrites cfg edge childJob childReplyId decision t).take
    k)).restart cfg).repairs cfg ws

/-- When a continuation that is cut short after `k` writes is recovered by the passes `ws`.
Before the job row, a pass times the edge out or carries on the answer; between the job row
and its event, the first pass that does anything has to be one that times the edge out. -/
structure Recoverable (cfg : Config) (s : State) (edge : CallbackEdgeRecord)
    (childReplyId : Option ReplyId) (k : ℕ) (ws : List World) : Prop where
  unsubmitted : k ≤ 1 → ∃ w ∈ ws, cfg.lapses edge w = true ∨ cfg.resumes edge w = true ∧
    (s.repairAnswer (if k = 0 then edge else { edge with childReplyId := childReplyId })).isSome =
      true
  unannounced : k = 2 ∨ k = 3 →
    (s.validateTargetsAvailable cfg [edge.callbackTargetAgent]).isOk = true →
    ∃ w, ws.find? (fun w => cfg.lapses edge w || cfg.resumes edge w) = some w ∧
      cfg.lapses edge w = true

section Call
variable {edge current : CallbackEdgeRecord} {childJob : JobRecord} {childReplyId : Option ReplyId}

/-- A crash after any write of a continuation, a restart and any number of repairs. -/
theorem continuation_recovered_iff (h : Durable s)
    (call : ContinuationCall s edge current childJob childReplyId)
    (decision : CompletionDecision) (t : Timestamp) :
    State.SameStores
        (s.applyWrites (s.continuationWrites cfg current childJob childReplyId decision t))
        (State.submitCallbackContinuation cfg s edge childJob childReplyId decision t) ∧
      (∀ k ws, ∃ e, (s.afterCrash cfg current childJob childReplyId decision t k ws).getEdge
          current.edgeId = some e ∧
        (s.afterCrash cfg current childJob childReplyId decision t k ws).ContinuedOnce e) ∧
      ∀ k ws, Recovered (s.afterCrash cfg current childJob childReplyId decision t k ws)
          current.edgeId ↔
        Recoverable cfg s current childReplyId k ws := by
  have hd : ∀ k, Durable ((s.applyWrites ((s.continuationWrites cfg current childJob childReplyId
      decision t).take k)).restart cfg) :=
    fun k => (h.applyWrites ((call.valid h decision t).take k)).memory _
  refine ⟨State.submitCallbackContinuation_eq cfg call.leads call.outstanding call.first _ _ _,
    fun k ws => repairs_once (hd k) (Aside.tracked (Aside.memory _ _ _)
      (call.tracked h decision t k)), fun k ws => ?_⟩
  set crashed := s.applyWrites
    ((s.continuationWrites cfg current childJob childReplyId decision t).take k)
  have hmemory : Aside current.edgeId crashed (crashed.restart cfg) := Aside.memory _ _ _
  obtain rfl | rfl | hk | hk : k = 0 ∨ k = 1 ∨ (k = 2 ∨ k = 3) ∨ 4 ≤ k := by omega
  · have hu : Undecided (crashed.restart cfg) current :=
      hmemory.undecided ⟨call.found, call.outstanding, call.first⟩
    refine (repairs_undecided (hd 0) hu).trans ⟨fun hw => ⟨fun _ => hw, fun hk => ?_⟩,
      fun hr => hr.unsubmitted (Nat.zero_le 1)⟩
    omega
  · have hu : Undecided (crashed.restart cfg)
        (State.completedEdge current childJob childReplyId t) :=
      Aside.undecided (e := State.completedEdge current childJob childReplyId t) hmemory
        (call.marked t)
    refine (repairs_undecided (hd 1) hu).trans ⟨fun hw => ⟨fun _ => hw, fun hk => ?_⟩,
      fun hr => hr.unsubmitted le_rfl⟩
    omega
  · cases hvalid : s.validateTargetsAvailable cfg [current.callbackTargetAgent] with
    | ok u =>
      have ho : Orphaned (crashed.restart cfg)
          (State.completedEdge current childJob childReplyId t) :=
        Aside.orphaned (e := State.completedEdge current childJob childReplyId t) hmemory
          (call.orphaned h decision t hvalid hk)
      refine (repairs_orphaned (hd k) ho rfl).trans ⟨fun hw => ⟨fun hk' => ?_, fun _ _ => hw⟩,
        fun hr => hr.unannounced hk (by rw [hvalid]; rfl)⟩
      omega
    | error err =>
      have hr : Recovered crashed current.edgeId :=
        call.recovered h decision t (by omega) fun hok => by
          rw [hvalid] at hok
          contradiction
      refine iff_of_true (repairs_recovered (hd k) (hmemory.recovered hr))
        ⟨fun hk' => ?_, fun _ hok => ?_⟩
      · omega
      · rw [hvalid] at hok
        contradiction
  · have hr : Recovered crashed current.edgeId :=
      call.recovered h decision t (by omega) fun _ => hk
    refine iff_of_true (repairs_recovered (hd k) (hmemory.recovered hr))
      ⟨fun hk' => ?_, fun hk' => ?_⟩
    · omega
    · omega

end Call

/-! ### A sample crash -/

/-- The child of the callback has been cancelled with a reply, which is the answer the
repair is about to carry on. -/
def Sample.childEnded : State :=
  Sample.after (Sample.callbackAsk ++ [(Mailbox.sampleTime, .cancel 6 true)])

theorem Sample.childEnded_reachable :
    Reachable Sample.config (fun _ => plain) Sample.childEnded :=
  Sample.reachable_after (by decide +kernel)

theorem Sample.childEnded_call : ∃ (edge : CallbackEdgeRecord) (reply : ReplyRecord)
    (child : JobRecord) (decision : CompletionDecision),
    ContinuationCall Sample.childEnded edge edge child (some reply.replyId) ∧
      Sample.childEnded.repairAnswer edge = some (reply, child, decision) ∧
        (Sample.childEnded.validateTargetsAvailable Sample.config
          [edge.callbackTargetAgent]).isOk = true := by
  have hsample : ((Sample.childEnded.getEdge 10).any fun edge => !edge.state.terminal &&
      (Sample.childEnded.existingContinuationJob edge).isNone &&
      (Sample.childEnded.repairAnswer edge).isSome &&
      (Sample.childEnded.validateTargetsAvailable Sample.config
        [edge.callbackTargetAgent]).isOk) = true := by decide +kernel
  obtain ⟨edge, hedge, hfacts⟩ := (Option.any_eq_true _ _).mp hsample
  simp only [Bool.and_eq_true, Bool.not_eq_true', Option.isNone_iff_eq_none] at hfacts
  obtain ⟨⟨⟨hopen, hfirst⟩, hanswer⟩, hvalid⟩ := hfacts
  obtain ⟨⟨reply, child, decision⟩, hsome⟩ := Option.isSome_iff_exists.mp hanswer
  have found : Sample.childEnded.getEdge edge.edgeId = some edge :=
    (State.getEdge_mem hedge).2.symm ▸ hedge
  exact ⟨edge, reply, child, decision,
    Undecided.call ⟨found, hopen, hfirst⟩ Sample.childEnded_reachable.sound.durable hsome, hsome,
    hvalid⟩

theorem continuation_recovered_childEnded : ∃ (edge : CallbackEdgeRecord) (reply : ReplyRecord)
    (child : JobRecord) (decision : CompletionDecision),
    ContinuationCall Sample.childEnded edge edge child (some reply.replyId) ∧
      ∀ k ws, Recovered (Sample.childEnded.afterCrash Sample.config edge child
          (some reply.replyId) decision edge.updatedAt k ws) edge.edgeId ↔
        Recoverable Sample.config Sample.childEnded edge (some reply.replyId) k ws := by
  obtain ⟨edge, reply, child, decision, call, -⟩ := Sample.childEnded_call
  exact ⟨edge, reply, child, decision, call,
    (continuation_recovered_iff Sample.childEnded_reachable.sound.durable call decision
      edge.updatedAt).2.2⟩

/-- The job row is there, but neither its attempt nor its event: the repair takes the
continuation for complete. -/
theorem crash_orphans_continuation :
    Reachable Sample.config (fun _ => plain) Sample.childEnded ∧
      ∃ (edge : CallbackEdgeRecord) (reply : ReplyRecord) (child : JobRecord)
        (decision : CompletionDecision),
        ContinuationCall Sample.childEnded edge edge child (some reply.replyId) ∧
        Sample.childEnded.repairAnswer edge = some (reply, child, decision) ∧
        ¬Recovered (Sample.childEnded.afterCrash Sample.config edge child (some reply.replyId)
          decision edge.updatedAt 2 [Sample.world Mailbox.sampleTime]) edge.edgeId := by
  refine ⟨Sample.childEnded_reachable, ?_⟩
  obtain ⟨edge, reply, child, decision, call, hanswer, hvalid⟩ := Sample.childEnded_call
  refine ⟨edge, reply, child, decision, call, hanswer, fun hr => ?_⟩
  have hd := Sample.childEnded_reachable.sound.durable
  rcases hok : Sample.childEnded.validateTargetsAvailable Sample.config
    [edge.callbackTargetAgent] with err | u
  · rw [hok] at hvalid
    contradiction
  have ho : Orphaned ((Sample.childEnded.applyWrites ((Sample.childEnded.continuationWrites
      Sample.config edge child (some reply.replyId) decision edge.updatedAt).take 2)).restart
        Sample.config) (State.completedEdge edge child (some reply.replyId) edge.updatedAt) :=
    Aside.orphaned (Aside.memory _ _ _) (call.orphaned hd decision edge.updatedAt hok (.inl rfl))
  -- the one pass does not find the edge expired
  obtain ⟨w, hw, hlapses⟩ := (repairs_orphaned ((hd.applyWrites
    ((call.valid hd decision edge.updatedAt).take 2)).memory _) ho rfl).mp hr
  rw [List.mem_singleton.mp (List.mem_of_find?_eq_some hw)] at hlapses
  have hexp : Sample.config.lapses (State.completedEdge edge child (some reply.replyId)
      edge.updatedAt) (Sample.world Mailbox.sampleTime) = false := by
    show decide (Mailbox.sampleTime = Sample.late) = false
    decide
  rw [hexp] at hlapses
  contradiction

/-! ### The calls of a run -/

/-- A completed child hands its result on in such a call, with its reply as the answer. -/
theorem completion_call (h : Sound cfg s) (ok : Carried s) {terminal : JobRecord}
    (hf : Finished s terminal.jobId terminal) (latest : s.getJob terminal.jobId = some terminal)
    {decision : CompletionDecision} (hdecision : terminal.terminalDecision = some decision)
    {edge : CallbackEdgeRecord} (hedge : s.callbackChildEdge terminal = some edge)
    (hopen : edge.state.terminal = false) {t : Timestamp} {recorded : State}
    {replyId : Option ReplyId}
    (hrecorded : State.recordReply cfg s terminal t false = (recorded, replyId)) :
    Durable recorded ∧ ContinuationCall recorded edge edge terminal replyId ∧
      (recorded.repairAnswer { edge with childReplyId := replyId }).isSome = true := by
  obtain ⟨x, hx⟩ := h.coherent.exists_attemptForJob latest
  obtain ⟨hxmem, hxj⟩ := State.attemptForJob_mem hx
  obtain ⟨found, hchild⟩ := (h.coherent.callbackChildEdge hx).1 edge hedge
  simp only [State.recordReply, hx, Bool.false_eq_true, ↓reduceIte, Prod.mk.injEq] at hrecorded
  obtain ⟨rfl, rfl⟩ := hrecorded
  have hs : Sound cfg ((Act.reply terminal x (State.replyStatusForJob terminal.status) none
      t).apply cfg s) := Act.sound (hf.reply_guard hx _ t (.inl rfl)) h
  obtain ⟨hj, ha, he, hr⟩ := State.appendReply_logs cfg s terminal x
    (State.replyStatusForJob terminal.status) false none t
  simp only [Act.apply] at hs
  set recorded := State.appendReply cfg s terminal x (State.replyStatusForJob terminal.status)
    false none t
  set row := s.replyRow terminal x (State.replyStatusForJob terminal.status) false t
  have hrow : row ∈ recorded.replies := hr ▸ List.mem_append_right _ (List.mem_singleton.mpr rfl)
  have found' : recorded.getEdge edge.edgeId = some edge := by
    rw [State.getEdge, he]
    exact found
  refine ⟨hs.durable, ⟨?_, found', hopen, ?_, ?_⟩, ?_⟩
  · exact hs.coherent.edges.childEdge hs.coherent.attempts.key found'
      ⟨x, ha ▸ hxmem, hxj, hchild.symm⟩
  · rw [State.existingContinuationJob, State.listAgent, hj]
    exact ok.existing_none found hopen
  · intro r hr'
    exact ⟨row, hrow, Option.some.inj hr', hchild.symm, rfl⟩
  · -- the reply just recorded belongs to the job that has just ended
    have hreply : recorded.getReply s.nextId = some row := by
      rw [State.getReply, hr]
      exact (findLast_append _ _ _).trans (if_pos (decide_eq_true rfl))
    have hjob : recorded.jobForReply row = some terminal := by
      have hattempt : recorded.getAttempt x.attemptId = some x := by
        rw [hs.coherent.attempts.getAttempt_eq (ha ▸ hxmem), hxj, State.attemptForJob, ha]
        exact hx
      unfold State.jobForReply
      rw [show row.attemptId = x.attemptId from rfl, hattempt, Option.bind_some, hxj, State.getJob,
        hj]
      exact latest
    rw [State.repairAnswer, State.latestChildReply, Option.bind_some, hreply]
    simp [hjob, hdecision]

end CodexBridge.Dispatch
