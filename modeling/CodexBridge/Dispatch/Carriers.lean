import CodexBridge.Dispatch.EdgeRuns

/-! The jobs that go on with a callback, in runs whose requests name none themselves.
Every such job is on the message of the callback's parent, and its callback has been
carried on. -/

namespace CodexBridge.Dispatch

open AppendLog

variable {cfg : Config} {w : World} {s s' : State}

/-- Requests name no callback: the command line writes no callback id, and a message is
not submitted again after one of its jobs went on with a callback. -/
def plain (s : State) : Op → Prop
  | .submit request => request.routeOptions.callbackEdgeId = none
  | .resubmit id => ∀ r ∈ s.jobs, (∃ x ∈ s.attempts, x.jobId = r.jobId ∧ x.messageId = id) →
    r.request.routeOptions.callbackEdgeId = none
  | _ => True

instance (s : State) (op : Op) : Decidable (plain s op) :=
  match op with
  | .submit request => inferInstanceAs (Decidable (request.routeOptions.callbackEdgeId = none))
  | .resubmit id => inferInstanceAs (Decidable (∀ r ∈ s.jobs,
    (∃ x ∈ s.attempts, x.jobId = r.jobId ∧ x.messageId = id) →
      r.request.routeOptions.callbackEdgeId = none))
  | .retry _ | .tick | .sweepCallbacks | .repairCallbacks | .prepareReplies | .startJobs
  | .complete _ _ | .cancel _ _ | .ack _ _ | .recover _ _ _ | .inspect _
  | .disableAutoReplyDelivery | .shutdown => isTrue trivial

/-- The jobs that go on with a callback. -/
def Carried (s : State) : Prop :=
  ∀ r ∈ s.jobs, ∀ e, r.request.routeOptions.callbackEdgeId = some e →
    State.isReplyDeliveryJob r = false ∧ ∃ edge, s.getEdge e = some edge ∧
      (edge.state = .continuationSubmitted ∨ edge.state = .done) ∧
      ∃ x ∈ s.attempts, x.jobId = r.jobId ∧ x.messageId = edge.parentMessageId

theorem Act.carried {act : Act} (h : Sound cfg s) (g : act.guard cfg s) (ok : Carried s)
    (plain : ∀ job m i t, act = .accept .submitted job m i t →
      job.request.routeOptions.callbackEdgeId = none) : Carried (act.apply cfg s) := by
  have ext := Act.extends h.coherent g
  have hold : ∀ r ∈ s.jobs, ∀ e, r.request.routeOptions.callbackEdgeId = some e →
      State.isReplyDeliveryJob r = false ∧ ∃ edge, (act.apply cfg s).getEdge e = some edge ∧
        (edge.state = .continuationSubmitted ∨ edge.state = .done) ∧
        ∃ x ∈ s.attempts, x.jobId = r.jobId ∧ x.messageId = edge.parentMessageId := by
    intro r hr e he
    obtain ⟨hrequest, edge, hedge, hstate, x, hx, hxj, hxm⟩ := ok r hr e he
    obtain ⟨edge', hedge', same, hmove⟩ := Act.getEdge_move h g hedge
    refine ⟨hrequest, edge', hedge', ?_, x, hx, hxj, hxm.trans same.parentMessageId.symm⟩
    rcases hmove with rfl | hmove
    · exact hstate
    · exact .inr (edgeMove_submitted hmove hstate)
  intro r hr e he
  rcases (Act.effects h.coherent g).jobs r hr with ⟨r₀, hr₀, same⟩ | ⟨m, hnew⟩
  · obtain ⟨hrequest, edge, hedge, hstate, x, hx, hxj, hxm⟩ := hold r₀ hr₀ e (same.request ▸ he)
    refine ⟨?_, edge, hedge, hstate, x, ext.attempts hx, hxj.trans same.jobId.symm, hxm⟩
    rw [← hrequest]
    simp only [State.isReplyDeliveryJob, same.request, same.providerOptions]
  · cases act <;> simp only [newJob, Option.some.injEq, Prod.mk.injEq, reduceCtorEq] at hnew
    case accept origin job m' i t =>
      obtain ⟨rfl, rfl⟩ := hnew
      cases origin with
      | submitted =>
        rw [plain job m' i t rfl] at he
        contradiction
      | retried source =>
        -- a retry is on the message of the job it retries, and carries the same callback
        obtain ⟨hsource, hsid⟩ := State.getJob_mem g.2.found
        obtain ⟨hrequest, edge, hedge, hstate, x, hx, hxj, hxm⟩ :=
          hold source hsource e (g.2.routeOptions ▸ he)
        obtain ⟨y, hy, hyj, hym⟩ := g.2.attempt
        have sameA := h.coherent.attempts.key x hx y hy (.inr (hxj.trans hyj.symm))
        refine ⟨?_, edge, hedge, hstate, _,
          List.mem_append_right _ (List.mem_singleton.mpr rfl), rfl, ?_⟩
        · rw [← hrequest]
          simp only [State.isReplyDeliveryJob, g.2.messageType, g.2.providerOptions]
          rfl
        · rw [← hxm, sameA.messageId, hym]
    case continuation edge job t =>
      obtain ⟨rfl, rfl⟩ := hnew
      obtain rfl := Option.some.inj (g.2.callbackEdgeId.symm.trans he)
      refine ⟨?_, edge.submitted job.jobId t, ?_, .inl rfl, ?_⟩
      · simp only [State.isReplyDeliveryJob, g.2.messageType, g.2.providerOptions]
        rfl
      · rw [State.getEdge, (Act.effects h.coherent g).edges]
        simp [Act.newEdge, CallbackEdgeRecord.submitted]
      · exact ⟨_, List.mem_append_right _ (List.mem_singleton.mpr rfl), rfl, rfl⟩
    case deliver a head record t =>
      rw [← hnew.1] at he
      contradiction

theorem Carried.initial (auto : Bool) : Carried (State.initial auto) :=
  fun _ hr => absurd hr List.not_mem_nil

/-- No operation of a plain run submits a job that goes on with a callback. -/
theorem plain_permits {op : Op} (h : plain s op) (s₁ : State) {job : JobRecord} {m : MessageId}
    {i : ℕ} {t : Timestamp} (hp : op.permits cfg w s s₁ (.accept .submitted job m i t)) :
    job.request.routeOptions.callbackEdgeId = none := by
  cases op with
  | submit request =>
    rw [show job.request.routeOptions = request.routeOptions from hp]
    exact h
  | resubmit id =>
    obtain ⟨r, hr, hworks, hroute⟩ := hp
    rw [hroute]
    exact h r hr hworks
  | ack a i => exact hp.elim id id |>.elim
  | cancel j recordReply =>
    rcases hp with hp | hp | ⟨_, _, _, _, _, hact, -⟩
    · exact hp.elim
    · exact hp.elim
    · contradiction
  | recover j d hint =>
    rcases hp with hp | hp | hp <;> exact hp.elim
  | complete j decision => exact hp.2.elim
  | shutdown =>
    obtain ⟨j, -, hp | hp⟩ := hp <;> exact hp.elim
  | _ => exact hp.elim

/-- An operation of a plain run keeps the callbacks of the jobs in order. -/
theorem Carried.path {op : Op} (h : Sound cfg s) (hplain : plain s op) (ok : Carried s)
    (p : Path cfg (op.permits cfg w s) s s') : Carried s' :=
  p.invariant (fun s₁ _ hs hc hp g => Act.carried hs g hc fun _ _ _ _ hact =>
    plain_permits hplain s₁ (hact ▸ hp)) h ok

/-- A callback that is still to be answered has no job that goes on with it. -/
theorem Carried.existing_none (ok : Carried s) {edge : CallbackEdgeRecord}
    (found : s.getEdge edge.edgeId = some edge) (hopen : edge.state.terminal = false) :
    s.existingContinuationJob edge = none := by
  refine findLast_none.mpr fun r hr => decide_eq_false fun hcarries => ?_
  obtain ⟨-, edge', hedge', hstate, -⟩ := ok r (List.mem_of_mem_filter hr) _ hcarries
  rw [← Option.some.inj (found.symm.trans hedge')] at hstate
  rcases hstate with hstate | hstate
  all_goals
    rw [hstate] at hopen
    contradiction

end CodexBridge.Dispatch
