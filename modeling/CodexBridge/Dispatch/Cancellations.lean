import CodexBridge.Dispatch.EdgeRuns
import CodexBridge.Dispatch.MessageStates

/-! Cancelling the parent of a callback. The cancellation ends the job and its message and
leaves the edge open, so a later completion of the child, or a repair that finds
the child's reply, submits the continuation of a parent that is gone. -/

namespace CodexBridge.Dispatch

open AppendLog

variable {cfg : Config} {w : World} {s s₀ s' : State} {e : EdgeId} {m : MessageId}

/-! ### Completions without an answer -/

/-- The job waits for no callback of its own. -/
def State.waitsForNone (s : State) (j : JobId) : Bool :=
  (s.edgeForParentJob j).all fun edge => edge.state.over

/-- The completion of a job is not answered yet: the job waits for a callback of its
own, or it is retried. -/
def State.deferred (cfg : Config) (w : World) (s : State) (current : JobRecord)
    (decision : CompletionDecision) : Bool :=
  let ended := s.finish (completedRow w current decision) decision.finishedAt false
  !ended.waitsForNone current.jobId ||
    (ended.automaticRetryPlan cfg current (mergeTerminalDecision w current.jobId decision) &&
      (ended.retryAttempt cfg current.jobId (w.clock s.jobs.length .retry)).isOk)

/-- What the end of a job that is not answered takes. -/
def Act.defers (j : JobId) : Act → Prop
  | .finish current _ _ dequeue =>
    current.jobId = j ∨ dequeue = false ∧ State.isReplyDeliveryJob current = true
  | .waiting edge _ => edge.parentJobId = j
  | .accept (.retried source) _ _ _ _ => source.jobId = j
  | act => act.routine

theorem Act.defers_routine (j : JobId) (act : Act) (h : act.routine) : act.defers j := by
  cases act <;> first | exact h | exact h.elim | exact .inr h

theorem waitsForNone_eq_false {j : JobId} (h : s.waitsForNone j = false) :
    ∃ edge, (s.edgeForParentJob j).filter (fun edge =>
      edge.state ≠ .failed && edge.state ≠ .timedOut && edge.state ≠ .done) = some edge := by
  rw [State.waitsForNone] at h
  cases hparent : s.edgeForParentJob j with
  | none =>
    rw [hparent] at h
    contradiction
  | some edge =>
    rw [hparent, Option.all_some] at h
    refine ⟨edge, Option.filter_eq_some_iff.mpr ⟨rfl, ?_⟩⟩
    cases hstate : edge.state <;> simp_all [CallbackEdgeState.over]

/-- A job that has ended waits for its callback, or it is retried. -/
theorem conclude_deferred_path (h : Sound cfg s) {current terminal : JobRecord}
    (hf : Finished s current.jobId terminal) (same : SameJob terminal current)
    (decision : CompletionDecision) (depth : ℕ) (t : Timestamp)
    (deferred : s.waitsForNone current.jobId = false ∨
      s.automaticRetryPlan cfg current decision = true ∧
        (s.retryAttempt cfg current.jobId (w.clock depth .retry)).isOk = true) :
    Path cfg (fun _ act => act.defers current.jobId) s
      (s.conclude cfg w depth current terminal decision t) := by
  have hroutine : ∀ (s : State) (act : Act), act.routine →
      (fun _ act => act.defers current.jobId) s act :=
    fun _ act hr => Act.defers_routine _ act hr
  have hprepare : ∀ s', Sound cfg s' → Path cfg (fun _ act => act.defers current.jobId) s'
      (State.prepareReplyDeliveries cfg w depth (State.completeJob cfg w depth) s').1 :=
    fun s' hs' => (prepare_path hs' _).mono fun _ act hr => Act.defers_routine _ act hr
  unfold State.conclude
  by_cases hd : State.isReplyDeliveryJob current = true
  · simp only [hd, ↓reduceIte, Bool.false_eq_true]
    split_ifs
    · exact hprepare _ h
    · exact .refl
  · have hd' : State.isReplyDeliveryJob current = false := by simpa using hd
    rw [if_neg hd]
    unfold State.settleCompletion
    split
    · rename_i edge hedge
      have q : Path cfg (fun _ act => act.defers current.jobId) _ _ :=
        settle_waiting_path hf hroutine
        (fun _ _ _ hj => hj) (Option.filter_eq_some_iff.mp hedge).1 t
      simp only [Bool.false_eq_true, ↓reduceIte]
      split_ifs
      · exact q.trans (hprepare _ (q.sound h))
      · exact q
    · rename_i hnone
      -- the job has no callback of its own, so it is retried
      obtain ⟨hplan, hretried⟩ := deferred.resolve_left fun hwaits => by
        obtain ⟨edge, hedge⟩ := waitsForNone_eq_false hwaits
        rw [← hf.jobId, hnone] at hedge
        contradiction
      rw [if_pos hplan]
      rcases hok : State.retryAttempt cfg s current.jobId (w.clock depth .retry) with err | retried
      · rw [hok] at hretried
        simp [Except.isOk, Except.toBool] at hretried
      · simp only [Except.toOption, ↓reduceIte]
        exact settle_retry_path h hf same hd' hroutine (fun _ _ _ _ _ _ hj _ => hj) hok

theorem complete_deferred_path (h : Sound cfg s) {j : JobId} {current : JobRecord}
    (decision : CompletionDecision) (found : s.getJob j = some current)
    (running : current.status = .running)
    (deferred : s.deferred cfg w current decision = true) :
    Path cfg (fun _ act => act.defers j) s (State.complete cfg w s j decision) := by
  have live := running_live running
  obtain rfl : current.jobId = j := (State.getJob_mem found).2
  have g : (Act.finish current (State.completedRow w current decision) decision.finishedAt
      false).guard cfg s := finish_guard decision found live fun _ => running
  have p : Path cfg (fun _ act => act.defers current.jobId) s
      (s.finish (State.completedRow w current decision) decision.finishedAt false) :=
    Path.single (.finish current _ _ false) (.inl rfl) g
  have heq : State.complete cfg w s current.jobId decision = _ := completeJob_eq decision found live
    (clearActive_eq_leave s.memory current.agentName current.jobId)
  rw [heq]
  refine p.trans (conclude_deferred_path (p.sound h) (finished_finish h.coherent g rfl)
    (sameJob_completedRow w current decision) _ _ _ ?_)
  rw [State.deferred, Bool.or_eq_true, Bool.and_eq_true, Bool.not_eq_true'] at deferred
  exact deferred

/-! ### Turns of the shutdown -/

/-- One turn of the shutdown. -/
def State.terminateJob (cfg : Config) (w : World) (s : State) (j : JobId) : State :=
  match s.getJob j with
  | none => s
  | some current =>
    if current.status.terminal then s else State.terminateJobForShutdown cfg w s current

theorem terminateNonterminalJobs_eq (cfg : Config) (w : World) (s : State) :
    State.terminateNonterminalJobs cfg w s =
      (s.latestNonterminalJobIds cfg).foldl (State.terminateJob cfg w) s := rfl

theorem terminateJob_ended {j : JobId} (h : ¬s.live j) : State.terminateJob cfg w s j = s := by
  unfold State.terminateJob
  cases hfound : s.getJob j with
  | none => rfl
  | some current =>
    have ended : current.status.terminal = true := by
      by_contra live
      exact h ⟨current, hfound, by simpa using live⟩
    simp [ended]

/-- What ending a job for the shutdown takes. -/
def Act.terminates (j : JobId) (s : State) (act : Act) : Prop :=
  act.answers j s ∨ act.removes fun current => current.jobId = j

theorem Act.terminates.not_register {j : JobId} {act : Act} (h : act.terminates j s)
    (edge : CallbackEdgeRecord) : act ≠ .register edge := by
  rintro rfl
  exact h.elim id id

theorem Act.terminates.not_accept {j : JobId} {act : Act} (h : act.terminates j s)
    (origin job m i t) : act ≠ .accept origin job m i t := by
  rintro rfl
  exact h.elim id id

/-- A turn ends its job, and takes nothing but that. -/
theorem terminateJob_path (h : Sound cfg s) (j : JobId) :
    Path cfg (Act.terminates j) s (State.terminateJob cfg w s j) ∧
      ¬(State.terminateJob cfg w s j).live j := by
  by_cases hlive : s.live j
  · obtain ⟨current, found, live⟩ := hlive
    obtain ⟨terminal, t, hstatus, g, q⟩ := terminateJobForShutdown_path (w := w) h found live
    have hid := (State.getJob_mem found).2
    have p : Path cfg (Act.terminates j) s (s.finish terminal t true) :=
      Path.single (.finish current terminal t true) (.inr ⟨hid, by rw [hstatus]; decide⟩) g
    have hs := p.sound h
    have q' : Path cfg (Act.terminates j) (s.finish terminal t true)
        (State.terminateJobForShutdown cfg w s current) := q.mono fun _ _ ha => .inl ha
    have heq : State.terminateJob cfg w s j = State.terminateJobForShutdown cfg w s current := by
      simp [State.terminateJob, found, live]
    rw [heq]
    refine ⟨p.trans q', ?_⟩
    obtain ⟨c, hc, -, hstatus⟩ := (finished_finish h.coherent g hid).found
    obtain ⟨c', hc', hs'⟩ := (q'.grows hs).status (q'.sound hs).coherent hc
      (hstatus ▸ g.2.2.2.2)
    rintro ⟨r, hr, hl⟩
    rw [Option.some.inj (hr.symm.trans hc'), hs', hstatus, g.2.2.2.2] at hl
    contradiction
  · rw [terminateJob_ended hlive]
    exact ⟨.refl, hlive⟩

/-- A turn whose job waits for a callback of its own answers nothing. -/
theorem terminateJob_waiting_path (h : Sound cfg s) {j : JobId} (hlive : s.live j)
    (waits : s.waitsForNone j = false) :
    Path cfg (fun _ act => act.defers j) s (State.terminateJob cfg w s j) := by
  obtain ⟨current, found, live⟩ := hlive
  obtain rfl : current.jobId = j := (State.getJob_mem found).2
  set decision := State.shutdownDecision w current.jobId
  have g : (Act.finish current (State.completedRow w current decision) decision.finishedAt
      true).guard cfg s := finish_guard decision found live fun hf => by contradiction
  have p : Path cfg (fun _ act => act.defers current.jobId) s
      (s.finish (State.completedRow w current decision) decision.finishedAt true) :=
    Path.single (.finish current _ _ true) (.inl rfl) g
  have hedges : (s.finish (State.completedRow w current decision) decision.finishedAt
      true).edges = s.edges := (Act.effects h.coherent g).edges.trans (List.append_nil _)
  have hturn : State.terminateJob cfg w s current.jobId =
      State.terminateJobForShutdown cfg w s current := by
    simp [State.terminateJob, found, live]
  have heq : State.terminateJobForShutdown cfg w s current = (s.finish _ _ true).conclude cfg w
      s.jobs.length current _ _ _ :=
    completeJob_eq decision found live
      (Memory.clearActive_leave s.memory current.agentName current.jobId)
  rw [hturn, heq]
  refine p.trans (conclude_deferred_path (p.sound h) (finished_finish h.coherent g rfl)
    (sameJob_completedRow w current decision) _ _ _ (.inl ?_))
  rw [State.waitsForNone, State.edgeForParentJob, hedges]
  exact waits

/-- What holds at each turn of the shutdown whose job is live by then. -/
def State.Turns (cfg : Config) (w : World) (P : State → JobId → Prop) (s : State) :
    List JobId → Prop
  | [] => True
  | j :: l => (s.live j → P s j) ∧ State.Turns cfg w P (State.terminateJob cfg w s j) l

/-! ### Sparing a dead parent -/

/-- An open edge that must not be continued: it is the edge of the cancelled parent, or
its parent's message has ended. -/
structure Dead (s : State) (e : EdgeId) (m : MessageId) (edge : CallbackEdgeRecord) : Prop where
  found : s.getEdge edge.edgeId = some edge
  outstanding : edge.state.terminal = false
  parent : edge.edgeId = e ∨ edge.parentMessageId = m ∧ s.MessageEnded m

/-- The operation does not hand a result to a dead parent, and does not retry what has
ended. -/
def sparesParent (cfg : Config) (e : EdgeId) (m : MessageId) (w : World) (s : State) : Op → Prop
  | .complete j decision => ∀ edge, Dead s e m edge → ∀ x ∈ s.attempts, x.jobId = j →
    x.messageId = edge.childMessageId → ∀ current, s.getJob j = some current →
      current.status.terminal = false → s.deferred cfg w current decision = true
  | .tick | .repairCallbacks => ∀ edge, Dead s e m edge → ∀ reply ∈ s.replies,
    reply.messageId = edge.childMessageId → reply.notice = false →
      cfg.callbackExpired (w.clock 0 (.repair edge.edgeId)) edge.timeoutAt = true
  | .shutdown => s.Turns cfg w (fun s' j => s'.waitsForNone j = true → ∀ edge, Dead s e m edge →
    ∀ x ∈ s.attempts, x.jobId = j → x.messageId ≠ edge.childMessageId)
      (s.latestNonterminalJobIds cfg)
  | .retry target => s.MessageEnded m →
    ∀ x, (s.getAttempt target <|> s.attemptForJob target) = some x → x.messageId ≠ m
  | .recover j _ _ => s.MessageEnded m → ∀ x ∈ s.attempts, x.jobId = j → x.messageId ≠ m
  | _ => True

/-! ### One act -/

/-- Unless it is being registered, an edge was there before. -/
theorem Act.edge_old {act : Act} (g : act.guard cfg s) (h : Sound cfg s)
    (hreg : ∀ edge, act ≠ .register edge) {edge : CallbackEdgeRecord}
    (hedge : edge ∈ (act.apply cfg s).edges) : ∃ edge₀ ∈ s.edges, SameEdge edge edge₀ := by
  rw [(Act.effects h.coherent g).edges, List.mem_append] at hedge
  rcases hedge with hedge | hedge
  · exact ⟨edge, hedge, SameEdge.refl edge⟩
  · cases act <;> simp only [newEdge, Option.toList_none, Option.toList_some, List.not_mem_nil,
      List.mem_singleton] at hedge
    case continuation edge' job t =>
      subst hedge
      exact ⟨edge', (State.getEdge_mem g.2.found).1,
        ⟨rfl, rfl, rfl, rfl, rfl, rfl, rfl, rfl, rfl, rfl⟩⟩
    case register edge' => exact absurd rfl (hreg edge')
    case update edge' =>
      subst hedge
      obtain ⟨current, upd⟩ := g
      exact ⟨current, (State.getEdge_mem upd.found).1, upd.same⟩

theorem edgeMove_terminal {old new : CallbackEdgeState} (h : Act.edgeMove old new)
    (hold : old.terminal = true) : new.terminal = true := by
  obtain ⟨hdone, hfailed, htimed, hsub⟩ := h
  cases old <;> simp_all [CallbackEdgeState.terminal]

/-- An edge that an act leaves open was open before it. -/
theorem Act.edge_open {act : Act} (h : Sound cfg s) (g : act.guard cfg s)
    (hreg : ∀ edge, act ≠ .register edge) {i : EdgeId} {edge : CallbackEdgeRecord}
    (found : (act.apply cfg s).getEdge i = some edge) (hopen : edge.state.terminal = false) :
    ∃ edge₀, s.getEdge i = some edge₀ ∧ edge₀.state.terminal = false ∧
      Act.SameEdge edge edge₀ := by
  obtain ⟨hmem, hid⟩ := State.getEdge_mem found
  obtain ⟨edge₁, hmem₁, same₁⟩ := Act.edge_old g h hreg hmem
  obtain ⟨c, hc⟩ := exists_findLast (p := fun r : CallbackEdgeRecord =>
    decide (r.edgeId = i)) hmem₁ (by simpa using same₁.edgeId.symm.trans hid)
  have hc : s.getEdge i = some c := hc
  obtain ⟨c', hc', same, hmove⟩ := Act.getEdge_move h g hc
  obtain rfl := Option.some.inj (found.symm.trans hc')
  refine ⟨c, hc, ?_, same⟩
  rcases hmove with rfl | hmove
  · exact hopen
  · by_contra ht
    rw [edgeMove_terminal hmove (by simpa using ht)] at hopen
    contradiction

/-- An edge that is open on a path without registrations was open at its start. -/
theorem Path.edge_open {permits : State → Act → Prop}
    (hreg : ∀ s act, permits s act → ∀ edge, act ≠ .register edge)
    (p : Path cfg permits s₀ s) (h : Sound cfg s₀) {edge : CallbackEdgeRecord}
    (found : s.getEdge edge.edgeId = some edge) (hopen : edge.state.terminal = false) :
    ∃ edge₀, s₀.getEdge edge.edgeId = some edge₀ ∧ edge₀.state.terminal = false ∧
      Act.SameEdge edge edge₀ := by
  have key : ∀ i edge, s.getEdge i = some edge → edge.state.terminal = false →
      ∃ edge₀, s₀.getEdge i = some edge₀ ∧ edge₀.state.terminal = false ∧
        Act.SameEdge edge edge₀ := by
    refine p.invariant (I := fun s => ∀ i edge, s.getEdge i = some edge →
      edge.state.terminal = false → ∃ edge₀, s₀.getEdge i = some edge₀ ∧
        edge₀.state.terminal = false ∧ Act.SameEdge edge edge₀) ?_ h ?_
    · intro s act hs hI hp g i edge' hedge' hopen'
      obtain ⟨c, hc, hcopen, same⟩ := Act.edge_open hs g (hreg s act hp) hedge' hopen'
      obtain ⟨edge₀, hedge₀, hopen₀, same₀⟩ := hI i c hc hcopen
      exact ⟨edge₀, hedge₀, hopen₀, SameEdge.trans same same₀⟩
    · intro i edge' hedge' hopen'
      exact ⟨edge', hedge', hopen', SameEdge.refl edge'⟩
  exact key _ edge found hopen

/-- A job that was live is on no message that had ended. -/
theorem live_not_on (h : Sound cfg s₀) (hidle : EndedIdle s₀) (hended : s₀.MessageEnded m)
    {j : JobId} (hlive : s₀.live j) (hs : Sound cfg s) (ext : Extends s₀ s) {x : AttemptRecord}
    (hx : x ∈ s.attempts) (hxj : x.jobId = j) : x.messageId ≠ m := by
  rintro rfl
  obtain ⟨r, hr, live⟩ := hlive
  obtain ⟨y, hy⟩ := h.coherent.exists_attemptForJob hr
  obtain ⟨hymem, hyj⟩ := State.attemptForJob_mem hy
  have same := hs.coherent.attempts.key y (ext.attempts hymem) x hx (.inr (hyj.trans hxj.symm))
  obtain ⟨r', hr', ht⟩ := hidle _ hended y hymem same.messageId
  rw [hyj, hr] at hr'
  rw [Option.some.inj hr', ht] at live
  contradiction

/-- What an operation that spares the parent performs: no continuation of a dead edge, no
wait and no retry on a message that has ended. -/
structure Spared (s₀ : State) (e : EdgeId) (m : MessageId) (s : State) (act : Act) : Prop where
  continuation : ∀ edge job t, act = .continuation edge job t →
    edge.edgeId ≠ e ∧ (s₀.MessageEnded m → edge.parentMessageId ≠ m)
  waiting : ∀ edge t, act = .waiting edge t → s₀.MessageEnded m →
    ∀ x ∈ s.attempts, x.jobId = edge.parentJobId → x.messageId ≠ m
  retry : ∀ source job m' i t, act = .accept (.retried source) job m' i t → s₀.MessageEnded m →
    ∀ x ∈ s.attempts, x.jobId = source.jobId → x.messageId ≠ m

/-- An act that is none of the three. -/
theorem Spared.of {act : Act} (hc : ∀ edge job t, act ≠ .continuation edge job t)
    (hw : ∀ edge t, act ≠ .waiting edge t)
    (hr : ∀ source job m' i t, act ≠ .accept (.retried source) job m' i t) :
    Spared s₀ e m s act :=
  ⟨fun edge job t heq => absurd heq (hc edge job t), fun edge t heq => absurd heq (hw edge t),
    fun source job m' i t heq => absurd heq (hr source job m' i t)⟩

theorem Spared.of_routine {act : Act} (h : act.routine) : Spared s₀ e m s act := by
  refine .of ?_ ?_ ?_
  all_goals
    intros
    rintro rfl
    exact h

theorem Spared.of_callback {act : Act} (h : act.callback) : Spared s₀ e m s act := by
  refine .of ?_ ?_ ?_
  all_goals
    intros
    rintro rfl
    exact h

theorem Spared.of_tidies {act : Act} (h : act.tidies) : Spared s₀ e m s act := by
  refine .of ?_ ?_ ?_
  all_goals
    intros
    rintro rfl
    exact h

theorem Spared.of_removes {act : Act} {q : JobRecord → Prop} (h : act.removes q) :
    Spared s₀ e m s act := by
  refine .of ?_ ?_ ?_
  all_goals
    intros
    rintro rfl
    exact h

theorem Spared.of_submits {act : Act} {p : MessageRecord → Prop} {q : JobRecord → Prop}
    (h : act.submits p q) :
    Spared s₀ e m s act := by
  refine .of ?_ ?_ ?_
  all_goals
    intros
    rintro rfl
    exact h

/-- Settling a job that was live, with nothing for a dead edge. -/
theorem Spared.of_settles {permits : State → Act → Prop} {act : Act} {j : JobId}
    (h : Sound cfg s₀) (hidle : EndedIdle s₀) (hlive : s₀.live j)
    (hreg : ∀ s act, permits s act → ∀ edge, act ≠ .register edge)
    (p : Path cfg permits s₀ s) (hs : Sound cfg s) (g : act.guard cfg s)
    (hdead : ∀ edge, Dead s₀ e m edge → ∀ x ∈ s₀.attempts, x.jobId = j →
      x.messageId ≠ edge.childMessageId)
    (hact : act.settles j s) : Spared s₀ e m s act := by
  have ext := p.grows h
  refine ⟨?_, ?_, ?_⟩
  · rintro edge job t rfl
    obtain ⟨x, hx, hxj, hxm⟩ := hact
    obtain ⟨edge₀, found₀, hopen₀, same⟩ := p.edge_open hreg h g.2.found (by rw [g.2.state]; rfl)
    rw [same.edgeId] at found₀
    -- the attempt of the job was there when the operation began
    obtain ⟨r, hr, -⟩ := id hlive
    obtain ⟨y, hy⟩ := h.coherent.exists_attemptForJob hr
    obtain ⟨hymem, hyj⟩ := State.attemptForJob_mem hy
    have sameA := hs.coherent.attempts.key y (ext.attempts hymem) x hx (.inr (hyj.trans hxj.symm))
    have hchild : y.messageId = edge₀.childMessageId := by
      rw [sameA.messageId, hxm, same.childMessageId]
    have hnot : ¬(edge₀.edgeId = e ∨ edge₀.parentMessageId = m ∧ s₀.MessageEnded m) :=
      fun hparent => hdead edge₀ ⟨found₀, hopen₀, hparent⟩ y hymem hyj hchild
    rw [not_or, not_and] at hnot
    refine ⟨same.edgeId ▸ hnot.1, fun hended hparent => hnot.2 ?_ hended⟩
    rw [← same.parentMessageId, hparent]
  · rintro edge t rfl hended x hx hxj
    exact live_not_on h hidle hended hlive hs ext hx (hxj.trans hact)
  · rintro source job m' i t rfl hended x hx hxj
    exact live_not_on h hidle hended hlive hs ext hx (hxj.trans hact.1)

/-- Ending a job that was live, with no answer. -/
theorem Spared.of_defers {act : Act} {j : JobId} (h : Sound cfg s₀) (hidle : EndedIdle s₀)
    (hlive : s₀.live j) (hs : Sound cfg s) (ext : Extends s₀ s) (hact : act.defers j) :
    Spared s₀ e m s act := by
  refine ⟨?_, ?_, ?_⟩
  · rintro edge job t rfl
    exact hact.elim
  · rintro edge t rfl hended x hx hxj
    exact live_not_on h hidle hended hlive hs ext hx (hxj.trans hact)
  · rintro source job m' i t rfl hended x hx hxj
    exact live_not_on h hidle hended hlive hs ext hx (hxj.trans hact)

/-- A repair that continues no dead edge. -/
theorem spared_repairs {permits : State → Act → Prop} {act : Act} (h : Sound cfg s₀)
    (spares : ∀ edge, Dead s₀ e m edge → ∀ reply ∈ s₀.replies,
      reply.messageId = edge.childMessageId → reply.notice = false →
        cfg.callbackExpired (w.clock 0 (.repair edge.edgeId)) edge.timeoutAt = true)
    (hreg : ∀ s act, permits s act → ∀ edge, act ≠ .register edge)
    (p : Path cfg permits s₀ s) (g : act.guard cfg s)
    (hact : act.repairs cfg w s₀) : Spared s₀ e m s act := by
  refine ⟨?_, ?_, ?_⟩
  · rintro edge job t rfl
    obtain ⟨⟨reply, hreply, hmsg, hnotice⟩, hexpired⟩ := hact
    obtain ⟨edge₀, found₀, hopen₀, same⟩ := p.edge_open hreg h g.2.found (by rw [g.2.state]; rfl)
    rw [same.edgeId] at found₀
    have hnot : ¬(edge₀.edgeId = e ∨ edge₀.parentMessageId = m ∧ s₀.MessageEnded m) := by
      intro hparent
      have := spares edge₀ ⟨found₀, hopen₀, hparent⟩ reply hreply
        (hmsg.trans same.childMessageId) hnotice
      rw [← same.edgeId, ← same.timeoutAt, hexpired] at this
      contradiction
    rw [not_or, not_and] at hnot
    refine ⟨same.edgeId ▸ hnot.1, fun hended hparent => hnot.2 ?_ hended⟩
    rw [← same.parentMessageId, hparent]
  · rintro edge t rfl
    exact hact.elim
  · rintro source job m' i t rfl
    exact hact.elim

theorem Act.settles_not_register {j : JobId} {act : Act} (h : act.settles j s)
    (edge : CallbackEdgeRecord) : act ≠ .register edge := by
  rintro rfl
  exact h

/-- The turns of a shutdown that answers no dead edge. -/
theorem spared_turns (h₀ : Sound cfg s₀) (hidle : EndedIdle s₀) {l : List JobId}
    (hlive : ∀ j ∈ l, s₀.live j) (p : Path cfg (fun _ act => ∀ edge, act ≠ .register edge) s₀ s)
    (turns : s.Turns cfg w (fun s' j => s'.waitsForNone j = true → ∀ edge, Dead s₀ e m edge →
      ∀ x ∈ s₀.attempts, x.jobId = j → x.messageId ≠ edge.childMessageId) l) :
    Path cfg (Spared s₀ e m) s (l.foldl (State.terminateJob cfg w) s) := by
  induction l generalizing s with
  | nil => exact .refl
  | cons j l ih =>
    have h := p.sound h₀
    obtain ⟨q, -⟩ := terminateJob_path (w := w) h j
    have p' := p.trans (q.mono fun _ _ hp => hp.not_register)
    refine Relation.ReflTransGen.trans ?_
      (ih (fun k hk => hlive k (List.mem_cons_of_mem j hk)) p' turns.2)
    by_cases hended : s.live j
    · have hj := hlive j List.mem_cons_self
      cases waits : s.waitsForNone j with
      | false =>
        exact (terminateJob_waiting_path h hended waits).strengthen
          (fun s' act q' hs hp _ => .of_defers h₀ hidle hj hs
            ((p.grows h₀).trans (q'.grows h)) hp) h
      | true =>
        refine q.strengthen (fun s' act q' hs hp g => ?_) h
        rcases hp with hp | hp
        · refine .of_settles h₀ hidle hj (fun _ _ hp => hp)
            (p.trans (q'.mono fun _ _ hp => hp.not_register)) hs g ?_
              (Act.settles_of_answers s' act hp)
          exact fun edge hdead x hx hxj => turns.1 hended waits edge hdead x hx hxj
        · exact .of_removes hp
    · rw [terminateJob_ended hended]

/-- Every operation that spares the parent performs spared acts only. -/
theorem spared_path (h : Sound cfg s₀) (hidle : EndedIdle s₀) {op : Op}
    (admissible : op.admissible s₀) (spares : sparesParent cfg e m w s₀ op) :
    ∃ permits, Path cfg permits s₀ (exec cfg w s₀ op) ∧
      ∀ s act, Path cfg permits s₀ s → Sound cfg s → permits s act → act.guard cfg s →
        Spared s₀ e m s act := by
  have p := exec_path (w := w) h op admissible
  cases op with
  | submit request => exact ⟨_, p, fun s act _ _ hp _ => .of_submits hp⟩
  | resubmit id => exact ⟨_, p, fun s act _ _ hp _ => .of_submits hp⟩
  | retry target =>
    refine ⟨_, p, fun s act q hs hp g => ⟨?_, ?_, ?_⟩⟩
    · rintro edge job t rfl
      exact hp.elim
    · rintro edge t rfl
      exact hp.elim
    · rintro source job m' i t rfl hended x hx hxj
      obtain ⟨y, hy, hyj⟩ := hp
      have hymem := State.retryTarget_mem hy
      have same := hs.coherent.attempts.key y ((q.grows h).attempts hymem) x hx
        (.inr (hyj.trans hxj.symm))
      exact same.messageId ▸ spares hended y hy
  | tick =>
    refine ⟨_, p, fun s act q hs hp g => ?_⟩
    refine spared_repairs h spares ?_ q g hp
    exact fun s act hp edge => by rintro rfl; exact hp
  | repairCallbacks =>
    refine ⟨_, p, fun s act q hs hp g => ?_⟩
    refine spared_repairs h spares ?_ q g hp
    exact fun s act hp edge => by rintro rfl; exact hp
  | sweepCallbacks => exact ⟨_, p, fun s act _ _ hp _ => .of_callback hp⟩
  | prepareReplies => exact ⟨_, p, fun s act _ _ hp _ => .of_routine hp⟩
  | startJobs => exact ⟨_, p, fun s act _ _ hp _ => .of_routine hp⟩
  | disableAutoReplyDelivery => exact ⟨_, p, fun s act _ _ hp _ => .of_routine hp⟩
  | complete j decision =>
    by_cases hchild : ∃ edge, Dead s₀ e m edge ∧ ∃ x ∈ s₀.attempts, x.jobId = j ∧
        x.messageId = edge.childMessageId
    · -- the completion of a dead parent's child is not answered
      obtain ⟨edge, hdead, x, hx, hxj, hxm⟩ := hchild
      rcases hfound : s₀.getJob j with _ | current
      · refine ⟨fun _ _ => False, ?_, fun _ _ _ _ hp => hp.elim⟩
        simp only [exec, State.complete, State.depth, State.completeJob, hfound]
        exact .refl
      · by_cases ht : current.status.terminal = true
        · refine ⟨fun _ _ => False, ?_, fun _ _ _ _ hp => hp.elim⟩
          simp only [exec, State.complete, State.depth, State.completeJob, hfound, ht, ↓reduceIte]
          exact .refl
        · have live : current.status.terminal = false := by simpa using ht
          have running := JobStatus.running_of_live live (admissible current hfound)
          have hlive : s₀.live j := ⟨current, hfound, live⟩
          exact ⟨_, complete_deferred_path h decision hfound running
            (spares edge hdead x hx hxj hxm current hfound live),
            fun s act q hs hp g => .of_defers h hidle hlive hs (q.grows h) hp⟩
    · refine ⟨_, p, fun s act q hs hp g => ?_⟩
      refine .of_settles h hidle hp.1 ?_ q hs g ?_ hp.2
      · exact fun s act hp => Act.settles_not_register hp.2
      · exact fun edge hdead x hx hxj hxm => hchild ⟨edge, hdead, x, hx, hxj, hxm⟩
  | cancel j recordReply =>
    refine ⟨_, p, fun s act _ _ hp _ => ?_⟩
    rcases hp with hp | hp | ⟨job, attempt, status, recipient, t, rfl, -⟩
    · exact .of_routine hp
    · exact .of_removes hp
    · exact .of (by simp) (by simp) (by simp)
  | ack a i =>
    refine ⟨_, p, fun s act _ _ hp _ => ?_⟩
    rcases hp with hp | hp
    · exact .of_routine hp
    · exact .of_tidies hp
  | recover j d hint =>
    rcases hfound : s₀.getJob j with _ | current
    · refine ⟨fun _ _ => False, ?_, fun _ _ _ _ hp => hp.elim⟩
      simp only [exec, State.commsRecover, hfound]
      exact .refl
    · refine ⟨_, p, fun s act q hs hp g => ?_⟩
      rcases hp with hp | hp | hp
      · refine ⟨?_, ?_, ?_⟩
        · rintro edge job t rfl
          exact hp.elim
        · rintro edge t rfl
          exact hp.elim
        · rintro source job m' i t rfl hended x hx hxj
          obtain ⟨y, hy⟩ := h.coherent.exists_attemptForJob hfound
          obtain ⟨hymem, hyj⟩ := State.attemptForJob_mem hy
          have same := hs.coherent.attempts.key y ((q.grows h).attempts hymem) x hx
            (.inr (by rw [hyj, hxj, hp.1]))
          exact same.messageId ▸ spares hended y hymem hyj
      · exact .of_removes hp
      · exact .of_tidies hp
  | inspect a => exact ⟨_, p, fun s act _ _ hp _ => .of_tidies hp⟩
  | shutdown =>
    have q := spared_turns h hidle
      (fun j hj => (mem_latestNonterminalJobIds h.coherent).mp hj) .refl spares
    exact ⟨Spared s₀ e m, q, fun _ _ _ _ hp _ => hp⟩

/-- A spared act gives no work to a message that has ended. -/
theorem Spared.not_reopens {act : Act} (spared : Spared s₀ e m s act) (h : Sound cfg s)
    (g : act.guard cfg s) (hended₀ : s₀.MessageEnded m) (hended : s.MessageEnded m)
    (hidle : s.Idle m) : ¬act.reopens s m := by
  obtain ⟨state, hstate, ht⟩ := hended
  obtain ⟨record, hrecord, hrs⟩ := Option.map_eq_some_iff.mp hstate
  have hrecord : s.getMessage m = some record := hrecord
  obtain ⟨hmem, hid⟩ := State.getMessage_mem hrecord
  have hissued := (h.coherent.messages record hmem).issued
  rw [hid] at hissued
  -- a started job would be live on the message
  have hstart : ∀ (agentName : AgentName) (current : JobRecord),
      s.getJob current.jobId = some current → current.jobId ∈ s.memory.queue agentName →
      ¬∃ x, s.attemptForJob current.jobId = some x ∧ x.messageId = m := by
    rintro agentName current found queued ⟨x, hx, hxm⟩
    obtain ⟨-, hpending⟩ := h.coherent.agent_of_queue found queued
    obtain ⟨hxmem, hxj⟩ := State.attemptForJob_mem hx
    obtain ⟨r, hr, hterminal⟩ := hidle x hxmem hxm
    rw [hxj, found] at hr
    rw [← Option.some.inj hr] at hterminal
    rw [JobStatus.not_pending_of_terminal hterminal] at hpending
    contradiction
  cases act with
  | newMessage message =>
    intro hm
    have hm : message.messageId = m := hm
    exact absurd (hm.symm.trans g.1) hissued.ne
  | accept origin job messageId i t =>
    rintro rfl
    cases origin with
    | submitted =>
      obtain ⟨message, hmessage, hqueued, -⟩ := g.2.message
      rw [hrecord] at hmessage
      obtain rfl := Option.some.inj hmessage
      rw [← hrs, hqueued] at ht
      contradiction
    | retried source =>
      obtain ⟨x, hx, hxj, hxm⟩ := g.2.attempt
      exact spared.retry source job messageId i t rfl hended₀ x hx hxj hxm
  | continuation edge job t =>
    intro hm
    exact (spared.continuation edge job t rfl).2 hended₀ hm
  | startRequest agentName current t => exact hstart agentName current g.1 g.2.2.1
  | startDelivery agentName current t => exact hstart agentName current g.1 g.2.2.1
  | waiting edge t =>
    intro hm
    obtain ⟨hedge, -⟩ := findLast_some g.1
    obtain ⟨x, hx, hxj, hxm⟩ := h.coherent.edges.parent_attempt edge hedge
    exact spared.waiting edge t rfl hended₀ x hx hxj (hxm.trans hm)
  | deliver agentName head reply t =>
    intro hm
    have hm : s.nextId + 1 = m := hm
    exact absurd hm.symm (hissued.trans (Nat.lt_succ_self _)).ne
  | _ => exact id

/-! ### Runs -/

theorem Reachable.endedIdle {allowed : World → State → Op → Prop} (h : Reachable cfg allowed s) :
    EndedIdle s := by
  refine h.invariant (I := EndedIdle) (fun auto m hm => ?_)
    (fun w op s₀ s act _ _ _ _ _ hs hI _ g => Act.endedIdle hs g hI)
  obtain ⟨state, hstate, -⟩ := hm
  simp [State.messageState, stateIn, State.initial] at hstate

/-- What a step that spares the parent keeps. -/
theorem spared_step (h : Sound cfg s₀) (hidle : EndedIdle s₀)
    (step : Step cfg (sparesParent cfg e m) s₀ s) :
    EndedIdle s ∧ ((∀ r, ¬Continues s₀ e r) → ∀ r, ¬Continues s e r) ∧
      (s₀.MessageEnded m → s.MessageEnded m) := by
  obtain ⟨w, op, admissible, spares, rfl⟩ := step
  obtain ⟨permits, p, hspared⟩ := spared_path h hidle admissible spares
  refine ⟨?_, fun hnone => ?_, fun hended => ?_⟩
  · exact p.invariant (fun s act hs hI _ g => Act.endedIdle hs g hI) h hidle
  · refine p.along (I := fun s => ∀ r, ¬Continues s e r) (fun s act q hs hI hp g r hr => ?_) h hnone
    rcases Act.continues hs g hr with ⟨r₀, hr₀, -⟩ | ⟨edge, t, rfl, hid⟩
    · exact hI r₀ hr₀
    · exact ((hspared s _ q hs hp g).continuation edge r t rfl).1 hid
  · have key := p.along (I := fun s => s.MessageEnded m ∧ s.Idle m)
      (fun s act q hs hI hp g => hI.1.keep hs g hI.2
        ((hspared s act q hs hp g).not_reopens hs g hended hI.1 hI.2)) h ⟨hended, hidle m hended⟩
    exact key.1

theorem spared_run (h : Sound cfg s₀) (hidle : EndedIdle s₀)
    (run : Relation.ReflTransGen (Step cfg (sparesParent cfg e m)) s₀ s) :
    Sound cfg s ∧ EndedIdle s ∧ ((∀ r, ¬Continues s₀ e r) → ∀ r, ¬Continues s e r) ∧
      (s₀.MessageEnded m → s.MessageEnded m) := by
  induction run with
  | refl => exact ⟨h, hidle, id, id⟩
  | tail _ step ih =>
    obtain ⟨hs, hI, hnone, hended⟩ := ih
    obtain ⟨hI', hnone', hended'⟩ := spared_step hs hI step
    exact ⟨step.sound hs, hI', fun hn => hnone' (hnone hn), fun he => hended' (hended he)⟩

/-- After the parent of an open callback is cancelled, operations that spare it submit no
continuation of the callback, and its message does not come back. -/
theorem cancelled_parent_stays_final {allowed : World → State → Op → Prop}
    (run : Reachable cfg allowed s₀) {edge : CallbackEdgeRecord}
    (found : s₀.getEdge edge.edgeId = some edge)
    (outstanding : edge.state = .pending ∨ edge.state = .childCompleted) (recordReply : Bool)
    (first : Relation.ReflTransGen (Step cfg (sparesParent cfg edge.edgeId edge.parentMessageId))
      (exec cfg w s₀ (.cancel edge.parentJobId recordReply)) s)
    (second : Relation.ReflTransGen (Step cfg (sparesParent cfg edge.edgeId edge.parentMessageId))
      s s') :
    (∀ r, ¬Continues s' edge.edgeId r) ∧
      (s.MessageEnded edge.parentMessageId → s'.MessageEnded edge.parentMessageId) := by
  -- the edge had no continuation, and the cancellation submits none
  have hnone : ∀ r, ¬Continues s₀ edge.edgeId r := by
    intro r hr
    obtain ⟨edge', hedge', hstate⟩ := run.continuationsOk.submitted _ _ hr
    obtain rfl := Option.some.inj (found.symm.trans hedge')
    rcases outstanding with ho | ho <;> rw [ho] at hstate <;> simp at hstate
  have hcancel : Step cfg (sparesParent cfg edge.edgeId edge.parentMessageId) s₀
      (exec cfg w s₀ (.cancel edge.parentJobId recordReply)) :=
    ⟨w, .cancel edge.parentJobId recordReply, trivial, trivial, rfl⟩
  obtain ⟨hs, hI, hnone₁, -⟩ :=
    spared_run run.sound run.endedIdle (Relation.ReflTransGen.head hcancel first)
  obtain ⟨-, -, hnone₂, hended⟩ := spared_run hs hI second
  exact ⟨hnone₂ (hnone₁ hnone), hended⟩

/-- The parent of an open callback is cancelled, and the callback is swept late. -/
def Sample.parentCancelled : State :=
  exec Sample.config (Sample.world Mailbox.sampleTime) (Sample.after Sample.callbackAsk)
    (.cancel 1 true)

theorem cancelled_parent_stays_final_swept :
    Sample.parentCancelled.messageState 2 = some .cancelled ∧
    ∃ edge, (Sample.after Sample.callbackAsk).getEdge 10 = some edge ∧
      (∀ r, ¬Continues (exec Sample.config (Sample.world Sample.late) Sample.parentCancelled
        .sweepCallbacks) edge.edgeId r) ∧
      (exec Sample.config (Sample.world Sample.late) Sample.parentCancelled
        .sweepCallbacks).MessageEnded edge.parentMessageId := by
  have run : Reachable Sample.config (fun _ _ _ => True) (Sample.after Sample.callbackAsk) :=
    Sample.reachable_after (by decide +kernel)
  have hedge : ∃ edge, (Sample.after Sample.callbackAsk).getEdge 10 = some edge ∧
      edge.edgeId = 10 ∧ edge.state = .pending ∧ edge.parentJobId = 1 ∧
      edge.parentMessageId = 2 := by
    have hsome : (((Sample.after Sample.callbackAsk).getEdge 10).any fun edge =>
        edge.edgeId = 10 && edge.state = .pending && edge.parentJobId = 1 &&
          edge.parentMessageId = 2) = true := by decide +kernel
    obtain ⟨edge, hedge, hfields⟩ := (Option.any_eq_true _ _).mp hsome
    simp only [Bool.and_eq_true, decide_eq_true_eq] at hfields
    exact ⟨edge, hedge, hfields.1.1.1, hfields.1.1.2, hfields.1.2, hfields.2⟩
  obtain ⟨edge, hedge, hid, hpending, hparent, hmessage⟩ := hedge
  have hcancelled : Sample.parentCancelled.messageState 2 = some .cancelled := by decide +kernel
  have hsweep : Step Sample.config (sparesParent Sample.config edge.edgeId edge.parentMessageId)
      Sample.parentCancelled
      (exec Sample.config (Sample.world Sample.late) Sample.parentCancelled .sweepCallbacks) :=
    ⟨Sample.world Sample.late, .sweepCallbacks, trivial, trivial, rfl⟩
  have hfirst : Relation.ReflTransGen
      (Step Sample.config (sparesParent Sample.config edge.edgeId edge.parentMessageId))
      (exec Sample.config (Sample.world Mailbox.sampleTime) (Sample.after Sample.callbackAsk)
        (.cancel edge.parentJobId true)) Sample.parentCancelled := by
    rw [hparent]
    exact .refl
  obtain ⟨hnone, hended⟩ := cancelled_parent_stays_final run (hid.symm ▸ hedge) (.inl hpending) true
    hfirst (.single hsweep)
  exact ⟨hcancelled, edge, hedge, hnone, hended ⟨.cancelled, hmessage.symm ▸ hcancelled, rfl⟩⟩

/-- The parent of an open callback is cancelled, and its child completes. -/
def Sample.orphanAnswered : State :=
  exec Sample.config (Sample.world Mailbox.sampleTime) Sample.parentCancelled
    (.complete 6 (Sample.decision .completed))

/-- The completion of the child continues the cancelled parent, and its message, which had
ended, is queued again. -/
theorem cancelled_parent_continued :
    Reachable Sample.config (fun _ _ _ => True) Sample.orphanAnswered ∧
      (((Sample.after Sample.callbackAsk).getEdge 10).map fun edge =>
        (edge.parentJobId, edge.parentMessageId, edge.state)) = some (1, 2, .pending) ∧
      (∃ r, Continues Sample.orphanAnswered 10 r) ∧
      Sample.parentCancelled.messageState 2 = some .cancelled ∧
      Sample.orphanAnswered.messageState 2 = some .queued := by
  have hasked : Reachable Sample.config (fun _ _ _ => True) (Sample.after Sample.callbackAsk) :=
    Sample.reachable_after (by decide +kernel)
  have hcancelled : Reachable Sample.config (fun _ _ _ => True) Sample.parentCancelled :=
    hasked.exec trivial trivial
  have hadmissible : (Op.complete 6 (Sample.decision .completed)).admissible
      Sample.parentCancelled := by decide +kernel
  have run : Reachable Sample.config (fun _ _ _ => True) Sample.orphanAnswered :=
    hcancelled.exec hadmissible trivial
  have hcontinued : ∃ r ∈ Sample.orphanAnswered.jobs,
      r.request.routeOptions.callbackEdgeId = some 10 ∧
      r.providerOptions.retrySourceJobId = none ∧
      ∃ x ∈ Sample.orphanAnswered.attempts, x.jobId = r.jobId ∧
        ∃ edge ∈ Sample.orphanAnswered.edges, edge.edgeId = 10 ∧
          edge.parentMessageId = x.messageId := by decide +kernel
  obtain ⟨r, hr, hcarries, horiginal, hparent⟩ := hcontinued
  exact ⟨run, by decide +kernel, ⟨r, hr, hcarries, horiginal, hparent⟩, by decide +kernel,
    by decide +kernel⟩

end CodexBridge.Dispatch
