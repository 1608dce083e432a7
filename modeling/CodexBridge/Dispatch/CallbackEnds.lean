import CodexBridge.Dispatch.LineageRuns
import CodexBridge.Dispatch.OutcomeRuns

/-! The end of a callback that has been carried on. Neither the sweep nor the repair comes
back to it, so it is closed by the job that goes on with it, once that job is replied
to. A job that is cancelled and not retried, or that waits for a callback of its own, leaves
it behind. -/

namespace CodexBridge.Dispatch

open AppendLog

variable {cfg : Config} {w : World} {s s₀ s₁ s' : State} {j : JobId} {ended : Option JobId}
  {permits : State → Act → Prop}

/-- A row of the job says that it goes on with the callback. -/
def State.GoesOn (s : State) (j : JobId) (edge : CallbackEdgeRecord) : Prop :=
  ∃ r ∈ s.jobs, r.jobId = j ∧ r.request.routeOptions.callbackEdgeId = some edge.edgeId

/-- Every callback that has been carried on has a job at work on it, or one that has just
ended. -/
def Tends (ended : Option JobId) (s : State) : Prop :=
  ∀ edge, s.getEdge edge.edgeId = some edge → edge.state = .continuationSubmitted →
    ∃ j, s.GoesOn j edge ∧ (s.live j ∨ some j = ended)

namespace State

/-- The job is at work on a callback that has been carried on. -/
def carrying (s : State) (j : JobId) : Bool :=
  (s.getJob j).any fun job => !job.status.terminal &&
    (job.request.routeOptions.callbackEdgeId.bind s.getEdge).any fun edge =>
      edge.state = .continuationSubmitted

/-- A recovery of the job finds it stale and ends it: no failed delivery of its reply is to be
recovered first, and no later attempt has taken its place. -/
def endsStaleRunning (w : World) (s : State) (j : JobId) (d : Option JobId) (hint : Bool) : Bool :=
  (s.getJob j).any fun source =>
    !(d.bind s.getJob).any (fun job => failedTerminal job.status && s.canRetryJob job) &&
      (source.status = .running && (hint || w.runtimeStale source.agentName)) &&
      !(s.attemptForJob j).any fun attempt => !s.isLatestAttempt attempt

end State

/-- The operation ends a job that is at work on a callback only by completing it or by the
shutdown, and then the job waits for no callback of its own, or in order to retry it. -/
def completesCarriers (cfg : Config) (w : World) (s : State) : Op → Prop
  | .complete j _ => s.carrying j = true → s.waitsForNone j = true
  | .cancel j _ => s.carrying j = false
  | .recover j d hint => s.carrying j = true → s.endsStaleRunning w j d hint = true →
    ((s.cancelJob cfg w j false).1.retryAttempt cfg j (w.clock 0 .retry)).isOk = true
  | .shutdown => ∀ r ∈ s.jobs, s.carrying r.jobId = true → s.waitsForNone r.jobId = true
  | _ => True

instance (cfg : Config) (w : World) (s : State) (op : Op) :
    Decidable (completesCarriers cfg w s op) :=
  match op with
  | .complete j _ =>
    inferInstanceAs (Decidable (s.carrying j = true → s.waitsForNone j = true))
  | .cancel j _ => inferInstanceAs (Decidable (s.carrying j = false))
  | .recover j d hint => inferInstanceAs (Decidable (s.carrying j = true →
    s.endsStaleRunning w j d hint = true →
      ((s.cancelJob cfg w j false).1.retryAttempt cfg j (w.clock 0 .retry)).isOk = true))
  | .shutdown => inferInstanceAs (Decidable (∀ r ∈ s.jobs,
    s.carrying r.jobId = true → s.waitsForNone r.jobId = true))
  | .submit _ | .resubmit _ | .retry _ | .tick | .sweepCallbacks | .repairCallbacks
  | .prepareReplies | .startJobs | .ack _ _ | .inspect _ | .disableAutoReplyDelivery =>
    isTrue trivial

/-! ### One act -/

theorem State.GoesOn.keep (ext : Extends s s') {edge edge' : CallbackEdgeRecord}
    (h : s.GoesOn j edge) (hid : edge'.edgeId = edge.edgeId) : s'.GoesOn j edge' := by
  obtain ⟨r, hr, hj, he⟩ := h
  exact ⟨r, ext.jobs hr, hj, hid ▸ he⟩

/-- A live job that goes on with a callback that has been carried on is at work on it. -/
theorem Coherent.carrying (h : Coherent cfg s) {edge : CallbackEdgeRecord}
    (found : s.getEdge edge.edgeId = some edge) (state : edge.state = .continuationSubmitted)
    (goes : s.GoesOn j edge) (live : s.live j) : s.carrying j = true := by
  obtain ⟨r, hr, rfl, he⟩ := goes
  obtain ⟨current, hcurrent, hlive⟩ := live
  have same := h.same hr rfl hcurrent
  have he' : current.request.routeOptions.callbackEdgeId = some edge.edgeId := same.request ▸ he
  simp [State.carrying, hcurrent, hlive, he', found, state]

theorem Act.tends {act : Act} (h : Sound cfg s) (g : act.guard cfg s) (carried : Carried s)
    (held : Tends ended s)
    (hfinish : ∀ current terminal t dequeue, act = .finish current terminal t dequeue →
      some current.jobId = ended ∨ s.carrying current.jobId = false) :
    Tends ended (act.apply cfg s) := by
  have ext := Act.extends h.coherent g
  intro edge found hstate
  by_cases hold : ∃ edge₀, s.getEdge edge.edgeId = some edge₀ ∧
      edge₀.state = .continuationSubmitted
  · obtain ⟨edge₀, found₀, hstate₀⟩ := hold
    have hid : edge₀.edgeId = edge.edgeId := (State.getEdge_mem found₀).2
    have found₀' : s.getEdge edge₀.edgeId = some edge₀ := hid.symm ▸ found₀
    obtain ⟨j, hgoes, hlive⟩ := held edge₀ found₀' hstate₀
    refine ⟨j, hgoes.keep ext hid.symm, hlive.elim (fun hlive => ?_) .inr⟩
    by_cases hfin : ∃ current terminal t dequeue, act = .finish current terminal t dequeue ∧
        current.jobId = j
    · obtain ⟨current, terminal, t, dequeue, hact, rfl⟩ := hfin
      refine .inr ((hfinish current terminal t dequeue hact).resolve_right fun hno => ?_)
      rw [h.coherent.carrying found₀' hstate₀ hgoes hlive] at hno
      contradiction
    · refine .inl (Act.keeps_live h.coherent g hlive fun current terminal t dequeue hact hj => ?_)
      exact hfin ⟨current, terminal, t, dequeue, hact, hj⟩
  · -- the act wrote the row: it submits the job that goes on with the callback
    have hedges := (Act.effects h.coherent g).edges
    have hrow : act.newEdge = some edge := by
      cases hnew : act.newEdge with
      | none =>
        rw [hnew, Option.toList_none, List.append_nil] at hedges
        rw [State.getEdge, hedges] at found
        exact absurd ⟨edge, found, hstate⟩ hold
      | some row =>
        rw [State.getEdge, hedges, hnew, Option.toList_some, findLast_append] at found
        split_ifs at found
        · exact found
        · exact absurd ⟨edge, found, hstate⟩ hold
    cases act <;> simp only [newEdge, Option.some.injEq, reduceCtorEq] at hrow
    case register edge' =>
      obtain rfl := hrow
      rw [g.state] at hstate
      contradiction
    case update edge' =>
      obtain rfl := hrow
      obtain ⟨current, upd⟩ := g
      obtain ⟨r, hr, he⟩ := upd.submitted hstate
      obtain ⟨-, edge₁, found₁, hstate₁, -⟩ := carried r hr _ he
      obtain rfl := Option.some.inj (upd.found.symm.trans found₁)
      rcases hstate₁ with hsubmitted | hdone
      · exact absurd ⟨current, upd.found, hsubmitted⟩ hold
      · exact absurd hdone upd.move.1
    case continuation edge' job t =>
      obtain rfl := hrow
      refine ⟨job.jobId, ⟨job, List.mem_append_right _ (List.mem_singleton.mpr rfl), rfl,
        g.2.callbackEdgeId⟩, .inl ⟨job, ?_, JobStatus.not_terminal_of_pending g.1.pending⟩⟩
      have hjobs : ((Act.continuation edge' job t).apply cfg s).jobs = s.jobs ++ [job] := rfl
      rw [State.getJob, hjobs]
      simp

/-! ### Paths -/

/-- The callbacks of a state and the jobs that go on with them. -/
structure Tended (cfg : Config) (ended : Option JobId) (s : State) : Prop where
  sound : Sound cfg s
  carried : Carried s
  held : Tends ended s

theorem Tended.act {act : Act} (b : Tended cfg ended s) (g : act.guard cfg s)
    (hplain : ∀ job m i t, act = .accept .submitted job m i t →
      job.request.routeOptions.callbackEdgeId = none)
    (hfinish : ∀ current terminal t dequeue, act = .finish current terminal t dequeue →
      some current.jobId = ended ∨ s.carrying current.jobId = false) :
    Tended cfg ended (act.apply cfg s) :=
  ⟨Act.sound g b.sound, Act.carried b.sound g b.carried hplain,
    Act.tends b.sound g b.carried b.held hfinish⟩

/-- Reply deliveries go on with no callback. -/
theorem Carried.delivery (carried : Carried s) {current : JobRecord}
    (found : s.getJob current.jobId = some current)
    (delivery : State.isReplyDeliveryJob current = true) : s.carrying current.jobId = false := by
  cases he : current.request.routeOptions.callbackEdgeId with
  | none => simp [State.carrying, found, he]
  | some e =>
    obtain ⟨hrequest, -⟩ := carried current (State.getJob_mem found).1 e he
    rw [delivery] at hrequest
    contradiction

theorem Tended.path (b : Tended cfg ended s) (p : Path cfg permits s s')
    (hplain : ∀ s job m i t, permits s (.accept .submitted job m i t) →
      job.request.routeOptions.callbackEdgeId = none)
    (hfinish : ∀ s₁, Tended cfg ended s₁ → Extends s s₁ → ∀ current terminal t dequeue,
      permits s₁ (.finish current terminal t dequeue) →
      (Act.finish current terminal t dequeue).guard cfg s₁ →
      some current.jobId = ended ∨ s₁.carrying current.jobId = false) : Tended cfg ended s' := by
  refine p.along (I := Tended cfg ended) (fun s₁ act q hs b₁ hp g => b₁.act g ?_ ?_) b.sound b
  · rintro job m i t rfl
    exact hplain s₁ job m i t hp
  · rintro current terminal t dequeue rfl
    exact hfinish s₁ b₁ (q.grows b.sound) current terminal t dequeue hp g

theorem Tended.routine (b : Tended cfg ended s) (p : Routine cfg s s') : Tended cfg ended s' :=
  b.path p (fun _ _ _ _ _ hp => hp.elim) fun _ b₁ _ _ _ _ _ hp g =>
    .inr (b₁.carried.delivery g.1 hp.2)

/-- A job that is at work on a callback was so before, if it was there. -/
theorem Carried.carrying_of_extends (carried : Carried s₀) (ext : Extends s₀ s)
    (h : Coherent cfg s) {r : JobRecord} (found : s₀.getJob j = some r)
    (hcarrying : s.carrying j = true) : s₀.carrying j = true := by
  obtain ⟨current, hcurrent, hgoes⟩ := (Option.any_eq_true _ _).mp hcarrying
  rw [Bool.and_eq_true] at hgoes
  obtain ⟨edge, hedge, hstate⟩ := (Option.any_eq_true _ _).mp hgoes.2
  obtain ⟨e, he, hget⟩ := Option.bind_eq_some_iff.mp hedge
  have hstate : edge.state = .continuationSubmitted := by simpa using hstate
  obtain ⟨hmem, rfl⟩ := State.getJob_mem found
  have same := h.same (ext.jobs hmem) rfl hcurrent
  have hlive := (ext.grows h).live found hcurrent (by simpa using hgoes.1)
  have he₀ : r.request.routeOptions.callbackEdgeId = some e := same.request.symm ▸ he
  obtain ⟨-, edge₀, hget₀, hstate₀, -⟩ := carried r hmem e he₀
  obtain ⟨edge', hget', -, hmove⟩ := ext.getEdge_move h hget₀
  obtain rfl := Option.some.inj (hget.symm.trans hget')
  have hsubmitted : edge₀.state = .continuationSubmitted := by
    refine hstate₀.resolve_right fun hdone => ?_
    rcases hmove with rfl | hmove
    · rw [hdone] at hstate
      contradiction
    · exact hmove.1 hdone
  simp [State.carrying, found, hlive, he₀, hget₀, hsubmitted]

/-! ### The end of a job -/

/-- The job that has just ended is at work on nothing that is left. -/
theorem Tended.clear (b : Tended cfg (some j) s)
    (closed : ∀ edge, s.getEdge edge.edgeId = some edge → edge.state = .continuationSubmitted →
      s.GoesOn j edge → ∃ k, s.GoesOn k edge ∧ s.live k) : Tended cfg none s := by
  refine { b with held := fun edge found hstate => ?_ }
  obtain ⟨k, hgoes, hlive⟩ := b.held edge found hstate
  by_cases hk : k = j
  · subst hk
    obtain ⟨k', hgoes', hlive'⟩ := closed edge found hstate hgoes
    exact ⟨k', hgoes', .inl hlive'⟩
  · exact ⟨k, hgoes, .inl (hlive.resolve_right fun h => hk (Option.some.inj h))⟩

/-- What a job went on with is done once it is marked so, if it was not over. -/
theorem getEdge_markCallbackDone {job : JobRecord} {t : Timestamp} {e : EdgeId}
    (he : job.request.routeOptions.callbackEdgeId = some e) :
    (s.markCallbackDone job t).getEdge e = (s.getEdge e).map fun current =>
      if current.state = .done ∨ current.state = .failed ∨ current.state = .timedOut then current
      else { current with state := .done, updatedAt := t } := by
  cases hget : s.getEdge e with
  | none => simp [State.markCallbackDone, he, hget]
  | some current =>
    have hid := (State.getEdge_mem hget).2
    by_cases hover : current.state = .done ∨ current.state = .failed ∨ current.state = .timedOut
    · simp [State.markCallbackDone, he, hget, hover]
    · have hmarked : s.markCallbackDone job t =
          s.appendEdge { current with state := .done, updatedAt := t } := by
        simp [State.markCallbackDone, he, hget, hover]
      rw [hmarked]
      simp [State.getEdge, State.appendEdge, findLast_append, hid, hover]

/-- A callback that a job has gone on with is over once it is marked done. -/
theorem markCallbackDone_over {job : JobRecord} {t : Timestamp} {edge : CallbackEdgeRecord}
    (he : job.request.routeOptions.callbackEdgeId = some edge.edgeId)
    (found : (s.markCallbackDone job t).getEdge edge.edgeId = some edge) :
    edge.state ≠ .continuationSubmitted := by
  rw [getEdge_markCallbackDone he, Option.map_eq_some_iff] at found
  obtain ⟨current, -, hmarked⟩ := found
  rw [← hmarked]
  split
  · rename_i hover
    intro hstate
    simp [hstate] at hover
  · simp

/-- The reply of a job closes the callback it went on with. -/
theorem recordCompletionReply_over {terminal : JobRecord} {decision : CompletionDecision}
    {t : Timestamp} {edge : CallbackEdgeRecord}
    (he : terminal.request.routeOptions.callbackEdgeId = some edge.edgeId)
    (found : (State.recordCompletionReply cfg s terminal decision t).getEdge edge.edgeId =
      some edge) : edge.state ≠ .continuationSubmitted := by
  unfold State.recordCompletionReply at found
  split at found
  · exact markCallbackDone_over he found
  · exact markCallbackDone_over he found

theorem Tended.recordCompletionReply (b : Tended cfg (some j) s) {terminal : JobRecord}
    (hf : Finished s j terminal) (decision : CompletionDecision) (t : Timestamp) :
    Tended cfg none (State.recordCompletionReply cfg s terminal decision t) := by
  have p := recordCompletionReply_path b.sound hf decision t
  have b' : Tended cfg (some j) (State.recordCompletionReply cfg s terminal decision t) := by
    refine b.path p (fun _ _ _ _ _ hp => hp.elim) fun s₁ b₁ _ current _ _ _ hp g => ?_
    rcases hp.2 with rfl | hdelivery
    · exact .inl rfl
    · exact .inr (b₁.carried.delivery g.1 hdelivery)
  obtain ⟨c, hc, same, -⟩ := hf.found
  obtain ⟨hcmem, hcid⟩ := State.getJob_mem hc
  refine b'.clear ?_
  rintro edge found hstate ⟨r, hr, hrid, he⟩
  -- the rows of the job name one callback
  obtain ⟨current, hcurrent⟩ := State.exists_getJob hr
  have hsame := b'.sound.coherent.same hr rfl hcurrent
  rw [hrid] at hcurrent
  have hsame' := b'.sound.coherent.same ((p.grows b.sound).jobs hcmem) hcid hcurrent
  refine absurd hstate (recordCompletionReply_over ?_ found)
  rw [same.request, hsame'.request, ← hsame.request]
  exact he

/-- Routine acts, and the mark that a message waits for its callback. -/
def Act.waits : Act → Prop
  | .waiting .. => True
  | act => act.routine

theorem Tended.waits (b : Tended cfg ended s) (p : Path cfg (fun _ act => act.waits) s s') :
    Tended cfg ended s' :=
  b.path p (fun _ _ _ _ _ hp => hp.elim) fun _ b₁ _ _ _ _ _ hp g =>
    .inr (b₁.carried.delivery g.1 hp.2)

theorem Act.waits_of_routine {act : Act} (h : act.routine) : act.waits := by
  cases act <;> first | exact h | trivial

/-- The job that retries another one goes on with the same callback. -/
theorem Tended.retried (b : Tended cfg (some j) s) {terminal : JobRecord}
    (hf : Finished s j terminal) {t : Timestamp} {retried : State × JobId}
    (hok : s.retryAttempt cfg j t = .ok retried) : Tended cfg none retried.1 := by
  have hs := b.sound
  obtain ⟨c, hc, hsame, -⟩ := hf.found
  obtain ⟨x, source, job, m, i, hx, -, hsource, g, heq⟩ := retryAttempt_acts hs hok
  have hxj := (State.attemptForJob_mem (hs.coherent.retryTarget_job hc hx)).2
  rw [hxj, hc] at hsource
  obtain rfl := Option.some.inj hsource
  have g₀ : (Act.issue 1).guard cfg s := trivial
  have issued : Tended cfg (some j) ((Act.issue 1).apply cfg s) :=
    b.act g₀ (by rintro _ _ _ _ ⟨⟩) (by rintro _ _ _ _ ⟨⟩)
  have accepted := issued.act g (by rintro _ _ _ _ ⟨⟩) (by rintro _ _ _ _ ⟨⟩)
  rw [heq]
  refine accepted.clear ?_
  rintro edge - - ⟨r, hr, hrid, he⟩
  have hjobs : ((Act.accept (.retried c) job m i t).apply cfg
      ((Act.issue 1).apply cfg s)).jobs = s.jobs ++ [job] := rfl
  refine ⟨job.jobId, ⟨job, ?_, rfl, ?_⟩, job, ?_, JobStatus.not_terminal_of_pending g.1.pending⟩
  · rw [hjobs]
    exact List.mem_append_right _ (List.mem_singleton.mpr rfl)
  · -- the new job is a row of another job, so the row of `j` was there before
    have hrold : r ∈ s.jobs := by
      rw [hjobs, List.mem_append, List.mem_singleton] at hr
      refine hr.resolve_right fun hnew => ?_
      obtain ⟨hcmem, hcid⟩ := State.getJob_mem hc
      exact g.1.fresh c hcmem (hcid.trans (hrid.symm.trans (congrArg JobRecord.jobId hnew)))
    have hrow := hs.coherent.same hrold hrid hc
    rw [g.2.routeOptions, ← hrow.request]
    exact he
  · rw [State.getJob, hjobs]
    simp

theorem Tended.settleCompletion (b : Tended cfg (some j) s) {current terminal : JobRecord}
    (hf : Finished s j terminal) (same : SameJob terminal current)
    (free : s.waitsForNone j = true) (decision : CompletionDecision) (depth : ℕ) (t : Timestamp) :
    Tended cfg none (State.settleCompletion cfg w depth s current terminal decision t).1 := by
  have hcid : current.jobId = j := same.jobId.symm.trans hf.jobId
  have hroutine : ∀ s act, Act.routine act → (fun (_ : State) act => Act.waits act) s act :=
    fun _ _ h => Act.waits_of_routine h
  unfold State.settleCompletion
  split
  · -- the job waits for no callback
    rename_i edge hedge
    obtain ⟨hparent, hstate⟩ := Option.filter_eq_some_iff.mp hedge
    rw [hf.jobId] at hparent
    rw [State.waitsForNone, hparent, Option.all_some] at free
    cases hcase : edge.state <;> simp_all [CallbackEdgeState.over]
  · split
    · rename_i retried hretried
      obtain ⟨-, hok⟩ := retried_of_plan hretried
      rw [hcid] at hok
      exact b.retried hf hok
    · dsimp only
      split_ifs
      · have htouch : Path cfg (fun _ act => act.waits) s (s.appendJob terminal) ∧
            Finished (s.appendJob terminal) j terminal :=
          hf.touch_path (SameJob.refl terminal) rfl hroutine
        exact (b.waits htouch.1).recordCompletionReply htouch.2 _ _
      · exact b.recordCompletionReply hf _ _

/-- A live job that is at work on a callback is one of the log, and no delivery. -/
theorem Carried.of_carrying (carried : Carried s) (carrying : s.carrying j = true) :
    ∃ current, s.getJob j = some current ∧ current.status.terminal = false ∧
      State.isReplyDeliveryJob current = false := by
  obtain ⟨current, found, hgoes⟩ := (Option.any_eq_true _ _).mp carrying
  rw [Bool.and_eq_true] at hgoes
  refine ⟨current, found, by simpa using hgoes.1, ?_⟩
  obtain rfl : current.jobId = j := (State.getJob_mem found).2
  by_contra hd
  rw [carried.delivery found (by simpa using hd)] at carrying
  contradiction

/-- A job may end on the way. -/
theorem Tended.any (b : Tended cfg none s) (j : JobId) : Tended cfg (some j) s := by
  refine { b with held := fun edge found hstate => ?_ }
  obtain ⟨k, hgoes, hlive⟩ := b.held edge found hstate
  exact ⟨k, hgoes, .inl (hlive.resolve_right (by simp))⟩

/-- A job that is at work on a callback and waits for none of its own is completed, in its
slot or taken off its queue before. -/
theorem Tended.completeJob (b : Tended cfg none s) {current : JobRecord} {memory : Memory}
    {dequeue : Bool} (depth : ℕ) (decision : CompletionDecision)
    (found : s.getJob j = some current) (live : current.status.terminal = false)
    (delivery : State.isReplyDeliveryJob current = false)
    (running : dequeue = false → current.status = .running)
    (hmemory : memory.clearActive current.agentName current.jobId =
      s.memory.leave dequeue current.agentName current.jobId)
    (free : s.waitsForNone j = true) :
    Tended cfg none
      (State.completeJob cfg w (depth + 1) { s with memory := memory } j decision) := by
  obtain rfl : current.jobId = j := (State.getJob_mem found).2
  set row := State.completedRow w current decision
  have g : (Act.finish current row decision.finishedAt dequeue).guard cfg s :=
    finish_guard decision found live running
  have hf := finished_finish b.sound.coherent g rfl
  have same : SameJob row current := sameJob_completedRow w current decision
  have b' : Tended cfg (some current.jobId) (s.finish row decision.finishedAt dequeue) := by
    refine (b.any current.jobId).act g (by rintro _ _ _ _ ⟨⟩) ?_
    rintro _ _ _ _ ⟨⟩
    exact .inl rfl
  have hedges : (s.finish row decision.finishedAt dequeue).edges = s.edges :=
    (Act.effects b.sound.coherent g).edges.trans (List.append_nil _)
  have free' : (s.finish row decision.finishedAt dequeue).waitsForNone current.jobId = true := by
    rw [State.waitsForNone, State.edgeForParentJob, hedges]
    exact free
  rw [completeJob_eq decision found live hmemory]
  have b'' := b'.settleCompletion (w := w) hf same free'
    (State.mergeTerminalDecision w current.jobId decision) depth decision.finishedAt
  have hd : ¬State.isReplyDeliveryJob current = true := by simp [delivery]
  unfold State.conclude
  dsimp only
  rw [if_neg hd]
  split_ifs
  · exact b''
  · exact b''.routine (prepare_path b''.sound _)
  · exact b''

theorem Tended.complete (b : Tended cfg none s) (decision : CompletionDecision)
    (admissible : (Op.complete j decision).admissible s) (carrying : s.carrying j = true)
    (free : s.waitsForNone j = true) : Tended cfg none (State.complete cfg w s j decision) := by
  obtain ⟨current, found, live, delivery⟩ := b.carried.of_carrying carrying
  have running := JobStatus.running_of_live live (admissible current found)
  exact b.completeJob s.jobs.length decision found live delivery (fun _ => running)
    (clearActive_eq_leave s.memory _ _) free

/-! ### Shutdown -/

/-- An edge that is over stays so, and a job gets no edge but by registration. -/
theorem Act.waitsForNone {act : Act} (h : Sound cfg s) (g : act.guard cfg s)
    (hreg : ∀ edge, act ≠ .register edge) (free : s.waitsForNone j = true) :
    (act.apply cfg s).waitsForNone j = true := by
  have hiff := (Act.sound g h).coherent.edges.edgeForParentJob_iff (j := j)
  cases hparent : (act.apply cfg s).edgeForParentJob j with
  | none => rw [State.waitsForNone, hparent, Option.all_none]
  | some edge =>
    obtain ⟨found, hj⟩ := (hiff edge).mp hparent
    obtain ⟨edge₁, hmem₁, same₁⟩ := Act.edge_old g h hreg (State.getEdge_mem found).1
    obtain ⟨c, hc⟩ := exists_findLast (p := fun r : CallbackEdgeRecord =>
      decide (r.edgeId = edge.edgeId)) hmem₁ (by simpa using same₁.edgeId.symm)
    have hc : s.getEdge edge.edgeId = some c := hc
    have hcid := (State.getEdge_mem hc).2
    obtain ⟨c', hc', same, hmove⟩ := Act.getEdge_move h g hc
    obtain rfl := Option.some.inj (found.symm.trans hc')
    have hcj : s.edgeForParentJob j = some c := by
      refine (h.coherent.edges.edgeForParentJob_iff c).mpr ⟨hcid.symm ▸ hc, ?_⟩
      rw [← same.parentJobId, hj]
    rw [State.waitsForNone, hcj, Option.all_some] at free
    rw [State.waitsForNone, hparent, Option.all_some]
    rcases hmove with rfl | ⟨hdone, hfailed, htimed, -⟩
    · exact free
    · cases hcase : c.state <;> simp_all [CallbackEdgeState.over]

theorem Path.waitsForNone (hreg : ∀ s act, permits s act → ∀ edge, act ≠ .register edge)
    (p : Path cfg permits s₀ s) (h : Sound cfg s₀) (free : s₀.waitsForNone j = true) :
    s.waitsForNone j = true :=
  p.invariant (fun s₁ act hs hfree hp g => Act.waitsForNone hs g (hreg s₁ act hp) hfree) h free

/-- Ending a job that is at work on no callback. -/
theorem Tended.terminateIdle (b : Tended cfg none s) {r : JobRecord} (found : s.getJob j = some r)
    (idle : s.carrying j = false) : Tended cfg none (State.terminateJob cfg w s j) := by
  obtain ⟨p, -⟩ := terminateJob_path (w := w) b.sound j
  refine b.path p (fun s₁ job m i t hp => absurd rfl (hp.not_accept _ job m i t)) ?_
  intro s₁ b₁ ext current terminal t dequeue hp g
  have hback : current.jobId = j → s₁.carrying current.jobId = false := by
    rintro rfl
    by_contra hyes
    rw [b.carried.carrying_of_extends ext b₁.sound.coherent found (by simpa using hyes)] at idle
    contradiction
  rcases hp with ⟨-, hj | hdelivery⟩ | hp
  · exact .inr (hback hj)
  · exact .inr (b₁.carried.delivery g.1 hdelivery)
  · cases dequeue with
    | false => exact hp.elim
    | true => exact .inr (hback hp.1)

/-- A turn of the shutdown; a job that is at work on a callback waits for none. -/
theorem Tended.terminateJob (b : Tended cfg none s) (hlive : s.live j)
    (free : s.carrying j = true → s.waitsForNone j = true) :
    Tended cfg none (State.terminateJob cfg w s j) := by
  by_cases carrying : s.carrying j = true
  · obtain ⟨current, found, live, delivery⟩ := b.carried.of_carrying carrying
    have hturn : State.terminateJob cfg w s j = State.terminateJobForShutdown cfg w s current := by
      simp [State.terminateJob, found, live]
    obtain rfl : current.jobId = j := (State.getJob_mem found).2
    rw [hturn]
    exact b.completeJob s.jobs.length _ found live delivery (by simp)
      (Memory.clearActive_leave s.memory current.agentName current.jobId) (free carrying)
  · obtain ⟨r, found, -⟩ := hlive
    exact b.terminateIdle found (by simpa using carrying)

/-- The turns of the shutdown, on jobs that were live at its start. -/
theorem Tended.terminateJobs {jobs : List JobId} (h₀ : Sound cfg s₀) (carried : Carried s₀)
    (hlive : ∀ j ∈ jobs, s₀.live j)
    (free : ∀ j ∈ jobs, s₀.carrying j = true → s₀.waitsForNone j = true)
    (p : Path cfg (fun _ act => ∀ edge, act ≠ .register edge) s₀ s) (b : Tended cfg none s) :
    Tended cfg none (jobs.foldl (State.terminateJob cfg w) s) := by
  induction jobs generalizing s with
  | nil => exact b
  | cons j jobs ih =>
    obtain ⟨q, -⟩ := terminateJob_path (w := w) b.sound j
    refine ih (fun k hk => hlive k (List.mem_cons_of_mem j hk))
      (fun k hk => free k (List.mem_cons_of_mem j hk))
      (p.trans (q.mono fun _ _ hp => hp.not_register)) ?_
    by_cases hended : s.live j
    · refine b.terminateJob hended fun carrying => ?_
      obtain ⟨r, found, -⟩ := hlive j List.mem_cons_self
      have carrying₀ := carried.carrying_of_extends (p.grows h₀) b.sound.coherent found carrying
      exact p.waitsForNone (fun _ _ hp => hp) h₀ (free j List.mem_cons_self carrying₀)
    · rw [terminateJob_ended hended]
      exact b

theorem Tended.terminateNonterminalJobs (b : Tended cfg none s)
    (free : ∀ r ∈ s.jobs, s.carrying r.jobId = true → s.waitsForNone r.jobId = true) :
    Tended cfg none (State.terminateNonterminalJobs cfg w s) := by
  have hlive : ∀ j ∈ s.latestNonterminalJobIds cfg, s.live j :=
    fun j hj => (mem_latestNonterminalJobIds b.sound.coherent).mp hj
  rw [terminateNonterminalJobs_eq]
  refine Tended.terminateJobs b.sound b.carried hlive (fun j hj => ?_) .refl b
  obtain ⟨r, found, -⟩ := hlive j hj
  obtain ⟨hmem, rfl⟩ := State.getJob_mem found
  exact free r hmem

/-! ### Recovery -/

/-- A cancellation without a reply ends its job. -/
theorem Tended.cancelJob (b : Tended cfg none s) {current : JobRecord}
    (found : s.getJob j = some current) (live : current.status.terminal = false) :
    Tended cfg (some j) (State.cancelJob cfg w s j false).1 ∧
      ∃ terminal, Finished (State.cancelJob cfg w s j false).1 j terminal := by
  have hid := (State.getJob_mem found).2
  obtain ⟨marked, terminal, t, _, same, -, -, htouch, hfinish, -, heq⟩ :=
    cancelJob_acts (w := w) b.sound false found live
  have hmarked : marked.jobId = j := same.jobId.trans hid
  have touched : Tended cfg (some j) (s.appendJob marked) :=
    (b.any j).act htouch (by rintro _ _ _ _ ⟨⟩) (by rintro _ _ _ _ ⟨⟩)
  rw [heq]
  refine ⟨touched.act hfinish (by rintro _ _ _ _ ⟨⟩) ?_, terminal,
    finished_finish touched.sound.coherent hfinish hmarked⟩
  rintro _ _ _ _ ⟨⟩
  exact .inl (congrArg some hmarked)

/-- A recovery that finds the job stale ends it and retries it. -/
theorem Tended.recoverStaleRunning (b : Tended cfg none s) {source : JobRecord}
    (found : s.getJob j = some source) (live : source.status.terminal = false)
    (retried : ((s.attemptForJob j).any fun attempt => !s.isLatestAttempt attempt) = false →
      ((s.cancelJob cfg w j false).1.retryAttempt cfg j (w.clock 0 .retry)).isOk = true) :
    Tended cfg none (State.recoverStaleRunning cfg w s source).state := by
  obtain rfl : source.jobId = j := (State.getJob_mem found).2
  unfold State.recoverStaleRunning
  split_ifs with hlatest
  · exact b
  · obtain ⟨cancelled, terminal, hf⟩ := b.cancelJob (w := w) found live
    have hok := retried (by simpa using hlatest)
    generalize State.cancelJob cfg w s source.jobId false = result at cancelled hf hok ⊢
    obtain ⟨ended, _ | _⟩ := result
    · exact b
    · dsimp only at cancelled hf hok ⊢
      split
      · rename_i again hagain
        exact cancelled.retried hf hagain
      · rename_i e herror
        rw [herror] at hok
        contradiction

/-- A recovery of a job that is at work on a callback. -/
theorem Tended.commsRecover (b : Tended cfg none s) (d : Option JobId) (hint : Bool)
    (carrying : s.carrying j = true)
    (retried : s.endsStaleRunning w j d hint = true →
      ((s.cancelJob cfg w j false).1.retryAttempt cfg j (w.clock 0 .retry)).isOk = true) :
    Tended cfg none (State.commsRecover cfg w s j d hint).1 := by
  obtain ⟨source, found, live, delivery⟩ := b.carried.of_carrying carrying
  have hlive : State.failedTerminal source.status = false := by
    by_contra hfailed
    rw [failedTerminal_terminal (by simpa using hfailed)] at live
    contradiction
  have key : ∀ done, State.recoverSource cfg w s source (d.bind s.getJob) hint = some done →
      Tended cfg none done.state := by
    intro done hdone
    unfold State.recoverSource at hdone
    split at hdone
    · rename_i job hjob
      obtain ⟨hjob, hfailed⟩ := Option.filter_eq_some_iff.mp hjob
      obtain ⟨i, -, hi⟩ := Option.bind_eq_some_iff.mp hjob
      rw [Bool.and_eq_true] at hfailed
      obtain rfl := Option.some.inj hdone
      exact b.routine (recoverReplyDelivery_path b.sound hi hfailed.1)
    · rename_i hnone
      rw [if_neg (by simp [hlive])] at hdone
      split_ifs at hdone with hrunning
      obtain rfl := Option.some.inj hdone
      refine b.recoverStaleRunning found live fun hlatest => retried ?_
      have hfree : ((d.bind s.getJob).any fun job =>
          State.failedTerminal job.status && s.canRetryJob job) = false := by
        cases hjob : d.bind s.getJob with
        | none => rfl
        | some job => simpa [hjob] using hnone
      simp [State.endsStaleRunning, found, hfree, hrunning, hlatest]
  unfold State.commsRecover
  simp only [found, delivery, Bool.false_eq_true, ↓reduceIte]
  split
  · exact b
  · rename_i done hdone
    have b' := key done hdone
    split_ifs
    · exact b'.routine (tickJobs_path b'.sound)
    · have prepared := b'.routine (prepare_path (w := w) b'.sound done.state.depth)
      exact prepared.routine (tickJobs_path prepared.sound)
    · exact b'

/-! ### Every operation -/

/-- The job an operation may end. -/
def Op.subject : Op → Option JobId
  | .complete j _ | .cancel j _ | .recover j _ _ => some j
  | _ => none

theorem exec_unknown {op : Op} (hsubject : op.subject = some j) (unknown : s.getJob j = none) :
    exec cfg w s op = s := by
  cases op with
  | complete k decision =>
    obtain rfl := Option.some.inj hsubject
    simp only [exec, State.complete, State.depth, State.completeJob, unknown]
  | cancel k recordReply =>
    obtain rfl := Option.some.inj hsubject
    simp only [exec, State.cancelJob, unknown]
  | recover k d hint =>
    obtain rfl := Option.some.inj hsubject
    simp only [exec, State.commsRecover, unknown]
  | _ => contradiction

/-- The jobs that an operation ends are at work on no callback, if its subject is not. -/
theorem Op.carrying_false {op : Op} (hs : Sound cfg s) (p : Path cfg (op.permits cfg w s) s s')
    (carried : Carried s) (hop : op ≠ .shutdown)
    (idle : ∀ k, op.subject = some k → ∃ r, s.getJob k = some r ∧ s.carrying k = false)
    (carried' : Carried s') {current terminal : JobRecord} {t : Timestamp} {dequeue : Bool}
    (hp : op.permits cfg w s s' (.finish current terminal t dequeue))
    (g : (Act.finish current terminal t dequeue).guard cfg s') :
    s'.carrying current.jobId = false := by
  have hdelivery : dequeue = false ∧ State.isReplyDeliveryJob current = true →
      s'.carrying current.jobId = false := fun h => carried'.delivery g.1 h.2
  -- a job that was not at work on a callback has none now
  have hback : ∀ {k : JobId}, op.subject = some k → current.jobId = k →
      s'.carrying current.jobId = false := by
    rintro k hsubject rfl
    obtain ⟨r, found, hno⟩ := idle _ hsubject
    by_contra hyes
    rw [carried.carrying_of_extends (p.grows hs) (p.sound hs).coherent found
      (by simpa using hyes)] at hno
    contradiction
  have hremoves : ∀ {k : JobId} {q : JobRecord → Prop}, op.subject = some k →
      (∀ r, q r → r.jobId = k) → (Act.finish current terminal t dequeue).removes q →
      s'.carrying current.jobId = false := by
    intro k q hsubject hq hp
    cases dequeue with
    | false => exact hp.elim
    | true => exact hback hsubject (hq _ hp.1)
  cases op with
  | submit | resubmit | retry | prepareReplies | startJobs | disableAutoReplyDelivery =>
    exact hdelivery hp
  | tick | repairCallbacks => exact hdelivery hp
  | sweepCallbacks | inspect => exact hp.elim
  | complete j decision =>
    obtain ⟨-, hdequeue, hk | hd⟩ := hp
    · exact hback rfl hk
    · exact hdelivery ⟨hdequeue, hd⟩
  | cancel j recordReply =>
    rcases hp with hp | hp | ⟨_, _, _, _, _, hact, -⟩
    · exact hdelivery hp
    · exact hremoves rfl (fun _ h => h.1) hp
    · contradiction
  | ack a i => exact hdelivery (hp.resolve_right id)
  | recover j d hint =>
    rcases hp with hp | hp | hp
    · exact hdelivery hp
    · exact hremoves rfl (fun _ h => h.1) hp
    · exact hp.elim
  | shutdown => exact absurd rfl hop

/-- An operation other than the shutdown whose subject is at work on no callback. -/
theorem Tended.exec_idle (b : Tended cfg none s) {op : Op} (admissible : op.admissible s)
    (hplain : plain s op) (hop : op ≠ .shutdown)
    (idle : ∀ k, op.subject = some k → s.carrying k = false) :
    Tended cfg none (exec cfg w s op) := by
  by_cases hunknown : ∃ k, op.subject = some k ∧ s.getJob k = none
  · obtain ⟨k, hsubject, unknown⟩ := hunknown
    rw [exec_unknown hsubject unknown]
    exact b
  push Not at hunknown
  have p := exec_path (w := w) b.sound op admissible
  refine p.along (I := Tended cfg none) (fun s₁ act q hs b₁ hp g => b₁.act g ?_ ?_) b.sound b
  · rintro job m i t rfl
    exact plain_permits hplain s₁ hp
  · rintro current terminal t dequeue rfl
    refine .inr (Op.carrying_false b.sound q b.carried hop (fun k hk => ?_) b₁.carried hp g)
    obtain ⟨r, found⟩ := Option.ne_none_iff_exists'.mp (hunknown k hk)
    exact ⟨r, found, idle k hk⟩

theorem Tended.exec (b : Tended cfg none s) {op : Op} (admissible : op.admissible s)
    (hplain : plain s op) (completes : completesCarriers cfg w s op) :
    Tended cfg none (exec cfg w s op) := by
  by_cases idle : ∀ k, op.subject = some k → s.carrying k = false
  · by_cases hop : op = .shutdown
    · subst hop
      exact b.terminateNonterminalJobs completes
    · exact b.exec_idle admissible hplain hop idle
  push Not at idle
  obtain ⟨k, hsubject, hcarrying⟩ := idle
  have hcarrying : s.carrying k = true := by simpa using hcarrying
  cases op with
  | complete j decision =>
    obtain rfl := Option.some.inj hsubject
    exact b.complete decision admissible hcarrying (completes hcarrying)
  | cancel j recordReply =>
    obtain rfl := Option.some.inj hsubject
    rw [show s.carrying _ = false from completes] at hcarrying
    contradiction
  | recover j d hint =>
    obtain rfl := Option.some.inj hsubject
    exact b.commsRecover d hint hcarrying (completes hcarrying)
  | _ => contradiction

/-! ### Runs -/

/-- The runs whose jobs end the callbacks they are at work on. -/
abbrev completing (cfg : Config) (w : World) (s : State) (op : Op) : Prop :=
  plain s op ∧ completesCarriers cfg w s op

theorem Tended.initial (auto : Bool) : Tended cfg none (State.initial auto) :=
  ⟨Sound.initial auto, Carried.initial auto, fun _ found => by
    simp [State.getEdge, State.initial] at found⟩

theorem Reachable.tended (h : Reachable cfg (completing cfg) s) : Tended cfg none s := by
  obtain ⟨auto, run⟩ := h
  induction run with
  | refl => exact Tended.initial auto
  | tail _ step ih =>
    obtain ⟨w, op, hadm, hallowed, rfl⟩ := step
    exact ih.exec hadm hallowed.1 hallowed.2

/-- No callback is left behind: one that has been carried on has a live attempt of its
parent's message, so it is over once the message has run to its end. -/
theorem carried_callback_ends (run : Reachable cfg (completing cfg) s) {edge : CallbackEdgeRecord}
    (found : s.getEdge edge.edgeId = some edge) :
    (edge.state = .continuationSubmitted →
      (∃ x ∈ s.latestAttempts edge.parentMessageId, x.attemptState.terminal = false) ∨
      ∃ other, s.getEdge other.edgeId = some other ∧ other.edgeId ≠ edge.edgeId ∧
        other.parentMessageId = edge.parentMessageId ∧
        (other.state = .pending ∨ other.state = .childCompleted)) ∧
    ((∀ x ∈ s.latestAttempts edge.parentMessageId, x.attemptState.terminal = true) →
      (∀ other, s.getEdge other.edgeId = some other →
        other.parentMessageId = edge.parentMessageId →
        other.state ≠ .pending ∧ other.state ≠ .childCompleted) →
      edge.state = .done ∨ edge.state = .failed ∨ edge.state = .timedOut) := by
  have b := run.tended
  have hlive : edge.state = .continuationSubmitted →
      ∃ x ∈ s.latestAttempts edge.parentMessageId, x.attemptState.terminal = false := by
    intro hstate
    obtain ⟨j, ⟨r, hr, rfl, he⟩, hlive⟩ := b.held edge found hstate
    obtain ⟨-, edge', found', -, x, hx, hxj, hxm⟩ := b.carried r hr _ he
    rw [Option.some.inj (found'.symm.trans found)] at hxm
    by_contra! hnone
    obtain ⟨current, hcurrent, hended⟩ := b.sound.coherent.idle_iff.mpr
      (fun y hy => by simpa using hnone y hy) x hx hxm
    obtain ⟨current', hcurrent', hlive'⟩ := hlive.resolve_right (by simp)
    rw [hxj, hcurrent'] at hcurrent
    rw [Option.some.inj hcurrent, hended] at hlive'
    contradiction
  refine ⟨fun hstate => .inl (hlive hstate), fun hended hover => ?_⟩
  obtain ⟨hpending, hcompleted⟩ := hover edge found rfl
  have hsubmitted : edge.state ≠ .continuationSubmitted := by
    intro hstate
    obtain ⟨x, hx, hx'⟩ := hlive hstate
    rw [hended x hx] at hx'
    contradiction
  cases hcase : edge.state <;> simp_all

theorem carried_callback_ends_answered :
    (∃ edge, (Sample.after Sample.callbackAnswered).getEdge edge.edgeId = some edge ∧
      edge.state = .continuationSubmitted ∧
      ∃ x ∈ (Sample.after Sample.callbackAnswered).latestAttempts edge.parentMessageId,
        x.attemptState.terminal = false) := by
  have run : Reachable Sample.config (completing Sample.config)
    (Sample.after Sample.callbackAnswered) :=
    Sample.reachable_after (by decide +kernel)
  have hedge : ((Sample.after Sample.callbackAnswered).getEdge 10).any (fun edge =>
      edge.edgeId = 10 && edge.state = .continuationSubmitted) = true := by
    decide +kernel
  obtain ⟨edge, found, hfields⟩ := (Option.any_eq_true _ _).mp hedge
  simp only [Bool.and_eq_true, decide_eq_true_eq] at hfields
  obtain ⟨hid, hstate⟩ := hfields
  have found' : (Sample.after Sample.callbackAnswered).getEdge edge.edgeId = some edge := by
    rw [hid]
    exact found
  refine ⟨edge, found', hstate, ((carried_callback_ends run found').1 hstate).resolve_right ?_⟩
  rintro ⟨other, hother, hne, -⟩
  have hsingle : ∀ e ∈ (Sample.after Sample.callbackAnswered).edges, e.edgeId = 10 := by
    decide +kernel
  exact hne ((hsingle other (State.getEdge_mem hother).1).trans hid.symm)

/-- The job that goes on with a callback is cancelled once the parent has ended. -/
def Sample.carrierCancelled : List (Timestamp × Op) :=
  Sample.callbackAnswered ++ [(Mailbox.sampleTime, .complete 1 (Sample.decision .completed)),
    (Mailbox.sampleTime, .cancel 12 true)]

/-- Nothing closes the callback of a job that is cancelled: all attempts of the parent's
message have ended and the callback stays carried on. -/
theorem carried_callback_left_behind :
    Reachable Sample.config (fun _ => plain) (Sample.after Sample.carrierCancelled) ∧
    ((Sample.after Sample.carrierCancelled).getEdge 10).map (fun edge =>
      (edge.state, edge.parentMessageId)) = some (.continuationSubmitted, 2) ∧
    (∀ x ∈ (Sample.after Sample.carrierCancelled).latestAttempts 2,
      x.attemptState.terminal = true) ∧
    ∀ edge ∈ (Sample.after Sample.carrierCancelled).edges, edge.edgeId = 10 :=
  ⟨Sample.reachable_after (by decide +kernel), by decide +kernel, by decide +kernel,
    by decide +kernel⟩

end CodexBridge.Dispatch
