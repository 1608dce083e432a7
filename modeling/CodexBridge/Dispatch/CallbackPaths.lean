import CodexBridge.Dispatch.CompletionPaths
import CodexBridge.Dispatch.Effects

/-! Callback edges and retries as paths of acts: failing, continuing, sweeping and
repairing edges, and admitting a retry. -/

namespace CodexBridge.Dispatch

open AppendLog

variable {cfg : Config} {w : World} {s s' : State} {permits : State → Act → Prop}

/-! ### Edges -/

theorem edgeMove_of_open {old : CallbackEdgeState} (h : old.terminal = false)
    (new : CallbackEdgeState) : Act.edgeMove old new := by
  cases old <;> simp_all [CallbackEdgeState.terminal, Act.edgeMove]

theorem State.getEdge_of_getD {edge : CallbackEdgeRecord} (he : edge ∈ s.edges) :
    s.getEdge ((s.getEdge edge.edgeId).getD edge).edgeId =
      some ((s.getEdge edge.edgeId).getD edge) := by
  obtain ⟨c, hc⟩ := exists_findLast (p := fun r : CallbackEdgeRecord =>
    decide (r.edgeId = edge.edgeId)) he (by simp)
  have hc : s.getEdge edge.edgeId = some c := hc
  rw [hc, Option.getD_some, (State.getEdge_mem hc).2]
  exact hc

/-- Looking an edge up by its child. -/
theorem EdgesOk.edgeForChildJob (h : EdgesOk s) {j : JobId} {e : CallbackEdgeRecord}
    (hj : s.edgeForChildJob j = some e) : s.getEdge e.edgeId = some e ∧ e.childJobId = j := by
  obtain ⟨hmem, hid⟩ := findLast_some hj
  have hid : e.childJobId = j := by simpa using hid
  refine ⟨?_, hid⟩
  rw [State.getEdge, ← hj, State.edgeForChildJob, findLast_eq_getLast?, findLast_eq_getLast?]
  congr 1
  apply List.filter_congr
  intro x hx
  rw [decide_eq_decide, ← hid]
  constructor
  · intro hx'
    exact (h.key x hx e hmem (.inl hx')).childJobId
  · intro hx'
    exact (h.key x hx e hmem (.inr (.inl hx'))).edgeId

theorem EdgesOk.edgeForChildMessage (h : EdgesOk s) {m : MessageId} {e : CallbackEdgeRecord}
    (hm : s.edgeForChildMessage m = some e) :
    s.getEdge e.edgeId = some e ∧ e.childMessageId = m := by
  obtain ⟨hmem, hid⟩ := findLast_some hm
  have hid : e.childMessageId = m := by simpa using hid
  refine ⟨?_, hid⟩
  rw [State.getEdge, ← hm, State.edgeForChildMessage, findLast_eq_getLast?, findLast_eq_getLast?]
  congr 1
  apply List.filter_congr
  intro x hx
  rw [decide_eq_decide, ← hid]
  constructor
  · intro hx'
    exact (h.key x hx e hmem (.inl hx')).childMessageId
  · intro hx'
    exact (h.key x hx e hmem (.inr (.inr (.inl hx')))).edgeId

theorem EdgesOk.edgeForParentJob_iff (h : EdgesOk s) {j : JobId} (edge : CallbackEdgeRecord) :
    s.edgeForParentJob j = some edge ↔
      s.getEdge edge.edgeId = some edge ∧ edge.parentJobId = j := by
  -- the rows of an edge are the rows of its parent job
  have hfilter : ∀ e ∈ s.edges, s.edgeForParentJob e.parentJobId = s.getEdge e.edgeId := by
    intro e he
    rw [State.getEdge, State.edgeForParentJob, findLast_eq_getLast?, findLast_eq_getLast?]
    congr 1
    apply List.filter_congr
    intro x hx
    rw [decide_eq_decide]
    exact ⟨fun hp => (h.key x hx e he (.inr (.inr (.inr hp)))).edgeId,
      fun hid => (h.key x hx e he (.inl hid)).parentJobId⟩
  constructor
  · intro hedge
    obtain ⟨hmem, hp⟩ := findLast_some hedge
    have hp : edge.parentJobId = j := of_decide_eq_true hp
    exact ⟨(hfilter edge hmem).symm.trans (hp ▸ hedge), hp⟩
  · rintro ⟨hget, rfl⟩
    exact (hfilter edge (State.getEdge_mem hget).1).trans hget

/-- The reply an open edge may carry is one of its child message, and no notice. -/
theorem EdgesOk.latestChildReply (h : EdgesOk s) (hr : RepliesOk s) {e : CallbackEdgeRecord}
    {reply : ReplyRecord} (he : e ∈ s.edges) (hl : s.latestChildReply e = some reply) :
    reply ∈ s.replies ∧ reply.messageId = e.childMessageId ∧ reply.notice = false := by
  unfold State.latestChildReply at hl
  rcases hb : e.childReplyId.bind s.getReply with _ | r
  · rw [hb] at hl
    obtain ⟨hmem, hnotice⟩ := findLast_some (by simpa using hl)
    obtain ⟨hmem, hid⟩ := List.mem_filter.mp hmem
    exact ⟨hmem, by simpa using hid, by simpa using hnotice⟩
  · rw [hb] at hl
    obtain rfl := Option.some.inj (by simpa using hl)
    obtain ⟨i, hi, hget⟩ := Option.bind_eq_some_iff.mp hb
    obtain ⟨hmem, hid⟩ := State.getReply_mem hget
    obtain ⟨reply', hmem', hid', hmsg, hnotice⟩ := h.reply e he i hi
    obtain rfl := eq_of_key_eq hr.nodup hmem hmem' (hid.trans hid'.symm)
    exact ⟨hmem, hmsg, hnotice⟩

/-- The job found for an edge goes on with it. -/
theorem existingContinuationJob_carries {edge : CallbackEdgeRecord} {existing : JobRecord}
    (h : s.existingContinuationJob edge = some existing) :
    ∃ r ∈ s.jobs, r.request.routeOptions.callbackEdgeId = some edge.edgeId := by
  obtain ⟨hmem, hcarries⟩ := findLast_some h
  exact ⟨existing, (List.mem_filter.mp hmem).1, of_decide_eq_true hcarries⟩

/-- A failed callback is reported on the message of its parent. -/
theorem recordCallbackFailureNotice_act (h : Sound cfg s) {edge : CallbackEdgeRecord}
    (he : edge ∈ s.edges) (t : Timestamp) :
    ∃ parent x, (Act.notice edge parent x t).guard cfg s ∧ x.messageId = edge.parentMessageId ∧
      State.recordCallbackFailureNotice cfg s edge t =
        (Act.notice edge parent x t).apply cfg s := by
  unfold State.recordCallbackFailureNotice
  obtain ⟨r, hr, hid, -⟩ := h.coherent.edges.parent edge he
  obtain ⟨parent, hparent⟩ := State.exists_getJob hr
  rw [hid] at hparent
  obtain ⟨x, hx⟩ := h.coherent.exists_attemptForJob hparent
  have hpid := (State.getJob_mem hparent).2
  have hx' : s.attemptForJob parent.jobId = some x := hpid.symm ▸ hx
  simp only [hparent, State.recordNotice, hx']
  refine ⟨parent, x, ⟨he, hparent, hx'⟩, ?_, rfl⟩
  obtain ⟨hxmem, hxj⟩ := State.attemptForJob_mem hx
  obtain ⟨y, hy, hyj, hym⟩ := h.coherent.edges.parent_attempt edge he
  rw [← hym]
  exact (h.coherent.attempts.key x hxmem y hy (.inr (hxj.trans hyj.symm))).messageId

/-- Failing a callback that is still to be answered closes it and reports that. -/
theorem failCallbackEdge_acts (h : Sound cfg s) {edge : CallbackEdgeRecord} (he : edge ∈ s.edges)
    {state : CallbackEdgeState} (hstate : state = .failed ∨ state = .timedOut) (t : Timestamp) :
    State.failCallbackEdge cfg s edge state t = s ∨
      ∃ failed parent x, (Act.update failed).guard cfg s ∧
        (Act.notice failed parent x t).guard cfg (s.appendEdge failed) ∧
        x.messageId = failed.parentMessageId ∧ failed.state = state ∧
        State.failCallbackEdge cfg s edge state t =
          (Act.notice failed parent x t).apply cfg (s.appendEdge failed) := by
  have hcur := State.getEdge_of_getD he
  unfold State.failCallbackEdge
  dsimp only
  split_ifs with hterm
  · exact .inl rfl
  · set current := (s.getEdge edge.edgeId).getD edge
    set failed : CallbackEdgeRecord := { current with
      state := state
      childStatus := current.childStatus <|> some (.edge state)
      updatedAt := t }
    have g : (Act.update failed).guard cfg s := ⟨current, hcur,
      ⟨rfl, rfl, rfl, rfl, rfl, rfl, rfl, rfl, rfl, rfl⟩, edgeMove_of_open (by simpa using hterm) _,
      fun r hr => .inl hr, fun hsub => ?_⟩
    swap
    · have hsub : state = .continuationSubmitted := hsub
      rw [hsub] at hstate
      rcases hstate with hstate | hstate <;> contradiction
    have hmem : failed ∈ (s.appendEdge failed).edges :=
      List.mem_append_right _ (List.mem_singleton.mpr rfl)
    obtain ⟨parent, x, gn, hx, heq⟩ := recordCallbackFailureNotice_act (Act.sound g h) hmem t
    exact .inr ⟨failed, parent, x, g, gn, hx, rfl, heq⟩

/-- A job that goes on with a callback closes it, unless it is over. -/
theorem markCallbackDone_act (cfg : Config) (s : State) (job : JobRecord) (t : Timestamp) :
    s.markCallbackDone job t = s ∨ ∃ edge, (Act.update edge).guard cfg s ∧
      (∃ current, s.getEdge edge.edgeId = some current ∧
        edge.parentMessageId = current.parentMessageId) ∧
      job.request.routeOptions.callbackEdgeId = some edge.edgeId ∧
      s.markCallbackDone job t = (Act.update edge).apply cfg s := by
  unfold State.markCallbackDone
  split
  · exact .inl rfl
  · rename_i edge hedge
    obtain ⟨i, hi, hget⟩ := Option.bind_eq_some_iff.mp hedge
    have hid := (State.getEdge_mem hget).2
    subst hid
    split_ifs with hdone
    · exact .inl rfl
    · rw [not_or, not_or] at hdone
      exact .inr ⟨{ edge with state := .done, updatedAt := t }, ⟨edge, hget,
        ⟨rfl, rfl, rfl, rfl, rfl, rfl, rfl, rfl, rfl, rfl⟩,
        ⟨hdone.1, hdone.2.1, hdone.2.2, fun _ => rfl⟩, fun r hr => .inl hr,
        fun hsub => by contradiction⟩, ⟨edge, hget, rfl⟩, hi, rfl⟩

/-- What moving a callback takes. -/
def Act.callback : Act → Prop
  | .update .. | .notice .. | .issue .. => True
  | _ => False

section Permits
variable (hcallback : ∀ s act, Act.callback act → permits s act)

include hcallback in
theorem update_path {edge current : CallbackEdgeRecord} (h : Act.Updates s edge current) :
    Path cfg permits s (s.appendEdge edge) :=
  Path.single (.update edge) (hcallback s _ trivial) ⟨current, h⟩

include hcallback in
theorem failCallbackEdge_path (h : Sound cfg s) {edge : CallbackEdgeRecord} (he : edge ∈ s.edges)
    {state : CallbackEdgeState} (hstate : state = .failed ∨ state = .timedOut) (t : Timestamp) :
    Path cfg permits s (State.failCallbackEdge cfg s edge state t) := by
  rcases failCallbackEdge_acts h he hstate t with heq | ⟨failed, parent, x, g, gn, -, -, heq⟩
  · rw [heq]
    exact .refl
  · rw [heq]
    exact Relation.ReflTransGen.trans (Path.single (.update failed) (hcallback s _ trivial) g)
      (Path.single (.notice failed parent x t) (hcallback _ _ trivial) gn)

include hcallback in
theorem markCallbackDone_path (job : JobRecord) (t : Timestamp) :
    Path cfg permits s (s.markCallbackDone job t) := by
  rcases markCallbackDone_act cfg s job t with heq | ⟨edge, g, -, -, heq⟩
  · rw [heq]
    exact .refl
  · rw [heq]
    exact Path.single (.update edge) (hcallback s _ trivial) g

include hcallback in
theorem sweepCallbackTimeouts_path (h : Sound cfg s) (now : Timestamp) :
    Path cfg permits s (State.sweepCallbackTimeouts cfg now s) := by
  refine Path.foldl (fun s' p hs edge hedge => ?_) h
  have he : edge ∈ s'.edges :=
    (p.grows h).edges (mem_of_mem_latest (List.mem_of_mem_filter hedge))
  have hcur := (State.getEdge_mem (State.getEdge_of_getD he)).1
  dsimp only
  split_ifs
  · exact .refl
  · exact failCallbackEdge_path hcallback hs hcur (.inr rfl) _
  · exact .refl

theorem validateTargetsAvailable_known {a : AgentName} {u : Unit}
    (h : s.validateTargetsAvailable cfg [a] = .ok u) : a ∈ cfg.agents := by
  unfold State.validateTargetsAvailable at h
  split_ifs at h with hall hbusy
  simpa using hall

/-- An agent that rejects work when it is busy has been found idle. -/
theorem validateTargetsAvailable_idle {a : AgentName} {u : Unit}
    (h : s.validateTargetsAvailable cfg [a] = .ok u)
    (hreject : (cfg.spec a).rejectWhenBusy = true) :
    s.memory.hasOutstanding a = false := by
  unfold State.validateTargetsAvailable at h
  split_ifs at h with hall hbusy
  simpa [hreject] using hbusy

/-- The continuation of an edge whose child has just been marked completed. -/
theorem submitContinuationJob_path (h : Sound cfg s) {edge : CallbackEdgeRecord}
    {request : MessageEnvelope} {t : Timestamp} {submitted : State} {j : JobId}
    (hissue : ∀ s n, permits s (.issue n))
    (hcont : ∀ s', s'.attempts = s.attempts → s'.replies = s.replies →
      ∀ job, permits s' (.continuation edge job t))
    (found : s.getEdge edge.edgeId = some edge) (state : edge.state = .childCompleted)
    (hrequest : request.fromActor = edge.originalCaller ∧
      request.messageType = .callbackContinuation ∧
      request.routeOptions.callbackEdgeId = some edge.edgeId)
    (first : ∀ r ∈ s.jobs, r.agentName = edge.callbackTargetAgent →
      r.request.routeOptions.callbackEdgeId ≠ some edge.edgeId)
    (hok : State.submitContinuationJob cfg s edge request t = .ok (submitted, j)) :
    Path cfg permits s (submitted.appendEdge (edge.submitted j t)) := by
  unfold State.submitContinuationJob at hok
  split at hok
  · contradiction
  · rename_i u hvalid
    simp only [Except.ok.injEq, Prod.mk.injEq] at hok
    obtain ⟨rfl, rfl⟩ := hok
    have known := validateTargetsAvailable_known hvalid
    have p : Path cfg permits s ((Act.issue 1).apply cfg s) :=
      Path.single (.issue 1) (hissue s 1) trivial
    refine p.trans (Path.single (.continuation edge (s.continuationJob cfg edge request t) t)
      (hcont ((Act.issue 1).apply cfg s) rfl rfl _) ⟨?_, ?_⟩)
    · refine ⟨Nat.lt_succ_self _, fun r hr => ?_, fun x hx => ?_, State.pendingStatus_pending _ _,
        known, ?_⟩
      · exact (h.coherent.jobs.issued r hr).ne
      · exact (h.coherent.attempts.issued x hx).ne
      · intro e he
        obtain rfl := Option.some.inj (hrequest.2.2.symm.trans he)
        exact (h.coherent.edges.issued edge (State.getEdge_mem found).1).trans (Nat.lt_succ_self _)
    · exact ⟨found, state, rfl, rfl, hrequest.1, hrequest.2.1, hrequest.2.2, first,
        validateTargetsAvailable_idle hvalid⟩

/-- Carrying a child's result on, whichever way the edge is found. -/
theorem submitCallbackContinuation_path (h : Sound cfg s) {edge current : CallbackEdgeRecord}
    {childJob : JobRecord} {childReplyId : Option ReplyId} {decision : CompletionDecision}
    {t : Timestamp} (hcallback : ∀ s act, Act.callback act → permits s act)
    (hcurrent : (s.edgeForChildJob childJob.jobId).getD edge = current)
    (found : s.getEdge current.edgeId = some current)
    (hreply : ∀ r, childReplyId = some r → ∃ reply ∈ s.replies, reply.replyId = r ∧
      reply.messageId = current.childMessageId ∧ reply.notice = false)
    (hcont : ∀ s', s'.attempts = s.attempts → s'.replies = s.replies →
      ∀ e job, Act.SameEdge e current → permits s' (.continuation e job t)) :
    Path cfg permits s
      (State.submitCallbackContinuation cfg s edge childJob childReplyId decision t) := by
  obtain ⟨hmem, -⟩ := State.getEdge_mem found
  unfold State.submitCallbackContinuation
  rw [hcurrent]
  dsimp only
  split_ifs with hterm
  · exact .refl
  · have hopen : current.state.terminal = false := by simpa using hterm
    split
    · rename_i existing hexisting
      refine update_path hcallback (show Act.Updates s _ current from ⟨found,
        ⟨rfl, rfl, rfl, rfl, rfl, rfl, rfl, rfl, rfl, rfl⟩, edgeMove_of_open hopen _, ?_,
        fun _ => existingContinuationJob_carries hexisting⟩)
      intro r hr
      rcases hc : childReplyId with _ | r'
      · rcases hc' : current.childReplyId with _ | r''
        · rw [hc, hc'] at hr
          obtain ⟨reply, hlatest, rfl⟩ := Option.map_eq_some_iff.mp (by simpa using hr)
          obtain ⟨hrm, hmsg, hnotice⟩ :=
            h.coherent.edges.latestChildReply h.coherent.replies hmem hlatest
          exact .inr ⟨reply, hrm, rfl, hmsg, hnotice⟩
        · simp only [hc, hc'] at hr
          exact .inl (by simpa using hr)
      · simp only [hc] at hr
        exact .inr (hreply r (hc.trans (by simpa using hr)))
    · rename_i hnone
      set updated : CallbackEdgeRecord := { current with
        state := .childCompleted
        childReplyId := childReplyId
        childStatus := some (.job childJob.status)
        updatedAt := t } with hupdated
      have hupd : Act.Updates s updated current := ⟨found,
        ⟨rfl, rfl, rfl, rfl, rfl, rfl, rfl, rfl, rfl, rfl⟩, edgeMove_of_open hopen _,
        fun r hr => .inr (hreply r hr), fun hsub => by contradiction⟩
      have p : Path cfg permits s (s.appendEdge updated) := update_path hcallback hupd
      have hs := p.sound h
      have hfound : (s.appendEdge updated).getEdge updated.edgeId = some updated := by
        simp [State.getEdge, State.appendEdge]
      split
      · exact p.trans (failCallbackEdge_path hcallback hs
          (List.mem_append_right _ (List.mem_singleton.mpr rfl)) (.inl rfl) _)
      · rename_i submitted j hok
        refine p.trans (submitContinuationJob_path hs (fun s n => hcallback s _ trivial) ?_ hfound
          rfl ⟨rfl, rfl, rfl⟩ ?_ hok)
        · exact fun s' ha hr job =>
            hcont s' ha hr updated job ⟨rfl, rfl, rfl, rfl, rfl, rfl, rfl, rfl, rfl, rfl⟩
        · intro r hr ha hedge
          have := findLast_none.mp hnone r (List.mem_filter.mpr ⟨hr, by simpa using ha⟩)
          simp [hedge] at this
          exact this rfl

end Permits

/-! ### Repair -/

/-- The rows of an attempt are those of its job. -/
def AttemptsKeyed (s : State) : Prop :=
  ∀ x ∈ s.attempts, ∀ y ∈ s.attempts,
    x.attemptId = y.attemptId ∨ x.jobId = y.jobId → SameAttempt x y

/-- A job on the child message of an edge leads back to that edge. -/
theorem EdgesOk.childEdge (h : EdgesOk s) (ha : AttemptsKeyed s) {edge : CallbackEdgeRecord}
    {j : JobId} (found : s.getEdge edge.edgeId = some edge)
    (child : ∃ x ∈ s.attempts, x.jobId = j ∧ x.messageId = edge.childMessageId) :
    (s.edgeForChildJob j).getD edge = edge := by
  rcases he : s.edgeForChildJob j with _ | e
  · rfl
  · obtain ⟨hget, hj⟩ := h.edgeForChildJob he
    obtain ⟨hmem, -⟩ := State.getEdge_mem hget
    obtain ⟨x, hx, hxj, hxm⟩ := child
    obtain ⟨y, hy, hyj, hym⟩ := h.child_attempt e hmem
    have hsame : SameAttempt x y := ha x hx y hy (.inr (by rw [hxj, hyj, hj]))
    have hedge : Act.SameEdge e edge := by
      refine h.key e hmem edge (State.getEdge_mem found).1 (.inr (.inr (.inl ?_)))
      rw [← hym, ← hsame.messageId, hxm]
    rw [hedge.edgeId, found] at hget
    exact (Option.some.inj hget).symm

/-- The job that produced a reply of the child message is a job on it. -/
theorem EdgesOk.jobForReply (h : EdgesOk s) (ha : AttemptsKeyed s) (hreplies : RepliesOk s)
    {edge : CallbackEdgeRecord} {reply : ReplyRecord} {child : JobRecord} (he : edge ∈ s.edges)
    (hr : reply ∈ s.replies) (hm : reply.messageId = edge.childMessageId)
    (hj : (s.jobForReply reply <|> s.getJob edge.childJobId) = some child) :
    ∃ x ∈ s.attempts, x.jobId = child.jobId ∧ x.messageId = edge.childMessageId := by
  rcases hf : s.jobForReply reply with _ | c
  · rw [hf] at hj
    obtain ⟨-, hid⟩ := State.getJob_mem (by simpa using hj)
    obtain ⟨x, hx, hxj, hxm⟩ := h.child_attempt edge he
    exact ⟨x, hx, hxj.trans hid.symm, hxm⟩
  · rw [hf] at hj
    obtain rfl := Option.some.inj (by simpa using hj)
    obtain ⟨x, hx, hjob⟩ := Option.bind_eq_some_iff.mp hf
    obtain ⟨hxmem, hxid⟩ := State.getAttempt_mem hx
    obtain ⟨y, hy, hyid, hym⟩ := hreplies.attempt reply hr
    have hsame : SameAttempt x y := ha x hxmem y hy (.inl (hxid.trans hyid.symm))
    refine ⟨x, hxmem, (State.getJob_mem hjob).2.symm, ?_⟩
    rw [hsame.messageId, hym, hm]

/-- What the repair has checked when it submits a continuation. -/
def Act.repairs (cfg : Config) (w : World) (s : State) : Act → Prop
  | .continuation edge _ _ =>
    (∃ r ∈ s.replies, r.messageId = edge.childMessageId ∧ r.notice = false) ∧
      cfg.callbackExpired (w.clock 0 (.repair edge.edgeId)) edge.timeoutAt = false
  | .update .. | .notice .. => True
  | act => act.routine

theorem Act.repairs_routine (cfg : Config) (w : World) (s : State) (act : Act)
    (h : act.routine) : act.repairs cfg w s := by
  cases act <;> first | exact h | exact h.elim

theorem Act.repairs_callback (cfg : Config) (w : World) (s : State) (act : Act)
    (h : act.callback) : act.repairs cfg w s := by
  cases act <;> first | exact h | exact h.elim

theorem repairCallbackEdge_path (h : Sound cfg s) {edge : CallbackEdgeRecord}
    (he : edge ∈ s.edges) :
    Path cfg (Act.repairs cfg w) s
      (State.repairCallbackEdge cfg (w.clock 0 (.repair edge.edgeId)) s edge) := by
  have hcallback := Act.repairs_callback cfg w
  have found := State.getEdge_of_getD he
  unfold State.repairCallbackEdge
  dsimp only
  have hid : ((s.getEdge edge.edgeId).getD edge).edgeId = edge.edgeId := by
    rcases hg : s.getEdge edge.edgeId with _ | c
    · rfl
    · exact (State.getEdge_mem hg).2
  set current := (s.getEdge edge.edgeId).getD edge
  have hmem := (State.getEdge_mem found).1
  by_cases hterm : current.state.terminal = true
  · rw [if_pos hterm]
    exact .refl
  rw [if_neg hterm]
  by_cases hexp : cfg.callbackExpired (w.clock 0 (.repair edge.edgeId)) current.timeoutAt = true
  · rw [if_pos hexp]
    exact .refl
  rw [if_neg hexp]
  by_cases hsub : current.continuationJobId.isSome = true
  · rw [if_pos hsub]
    exact .refl
  rw [if_neg hsub]
  split
  · rename_i existing hexisting
    refine update_path hcallback (show Act.Updates s _ current from ⟨found,
      ⟨rfl, rfl, rfl, rfl, rfl, rfl, rfl, rfl, rfl, rfl⟩,
      edgeMove_of_open (by simpa using hterm) _, ?_,
      fun _ => existingContinuationJob_carries hexisting⟩)
    intro r hr
    rcases hc : current.childReplyId with _ | r'
    · rw [hc] at hr
      obtain ⟨reply, hlatest, rfl⟩ := Option.map_eq_some_iff.mp (by simpa using hr)
      obtain ⟨hrm, hmsg, hnotice⟩ :=
        h.coherent.edges.latestChildReply h.coherent.replies hmem hlatest
      exact .inr ⟨reply, hrm, rfl, hmsg, hnotice⟩
    · rw [hc] at hr
      exact .inl (by simpa using hr)
  · split
    · exact .refl
    · rename_i reply hlatest
      obtain ⟨hrm, hmsg, hnotice⟩ :=
        h.coherent.edges.latestChildReply h.coherent.replies hmem hlatest
      split
      · exact .refl
      · rename_i child hchild
        split
        · exact .refl
        · have hwork := h.coherent.edges.jobForReply h.coherent.attempts.key h.coherent.replies hmem
            hrm hmsg hchild
          refine submitCallbackContinuation_path h hcallback (h.coherent.edges.childEdge
            h.coherent.attempts.key found hwork) found ?_ ?_
          · rintro r hr
            exact ⟨reply, hrm, Option.some.inj hr, hmsg, hnotice⟩
          · intro s' ha hr e job same
            refine ⟨⟨reply, hr ▸ hrm, hmsg.trans same.childMessageId.symm, hnotice⟩, ?_⟩
            rw [same.edgeId, same.timeoutAt, hid]
            simpa using hexp

theorem repairCallbackEdges_path (h : Sound cfg s) :
    Path cfg (Act.repairs cfg w) s (State.repairCallbackEdges cfg w s) := by
  have hsweep : Path cfg (Act.repairs cfg w) s
      (State.sweepCallbackTimeouts cfg (w.clock 0 .sweep) s) :=
    sweepCallbackTimeouts_path (Act.repairs_callback cfg w) h _
  refine hsweep.trans (Path.foldl (fun s' p hs edge hedge => ?_) (hsweep.sound h))
  exact repairCallbackEdge_path hs ((p.grows (hsweep.sound h)).edges
    (mem_of_mem_latest (List.mem_of_mem_filter hedge)))

end CodexBridge.Dispatch
