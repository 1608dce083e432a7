import CodexBridge.Dispatch.JobRuns
import CodexBridge.Dispatch.Effects

/-! Callback edges over whole runs: an edge that has ended stays ended, and at most one
continuation is ever submitted for an edge. -/

namespace CodexBridge.Dispatch

open AppendLog

variable {cfg : Config} {allowed : World → State → Op → Prop} {w : World} {s s' : State}

/-- `r` is a row of the continuation of an edge, and not of a retry: it carries the edge
and was recorded on the message of the edge's parent. -/
structure Continues (s : State) (e : EdgeId) (r : JobRecord) : Prop where
  mem : r ∈ s.jobs
  carries : r.request.routeOptions.callbackEdgeId = some e
  original : r.providerOptions.retrySourceJobId = none
  parent : ∃ x ∈ s.attempts, x.jobId = r.jobId ∧
    ∃ edge ∈ s.edges, edge.edgeId = e ∧ edge.parentMessageId = x.messageId

/-- An edge with a continuation says so, and has no second one. -/
structure ContinuationsOk (s : State) : Prop where
  submitted : ∀ e r, Continues s e r → ∃ edge, s.getEdge e = some edge ∧
    (edge.state = .continuationSubmitted ∨ edge.state = .done)
  unique : ∀ e r r', Continues s e r → Continues s e r' → r.jobId = r'.jobId

/-! ### One act -/

/-- Rows of edges that an act adds belong to edges that are there, or to a new one. -/
theorem Act.edge_row {act : Act} (h : Sound cfg s) (g : act.guard cfg s) {edge : CallbackEdgeRecord}
    (he : edge ∈ (act.apply cfg s).edges) :
    (∃ edge₀ ∈ s.edges, SameEdge edge edge₀) ∨ edge.edgeId = s.nextId := by
  rw [(Act.effects h.coherent g).edges, List.mem_append] at he
  rcases he with he | he
  · exact .inl ⟨edge, he, SameEdge.refl edge⟩
  · cases act <;> simp only [newEdge, Option.toList_none, Option.toList_some, List.not_mem_nil,
      List.mem_singleton] at he
    case continuation edge' job t =>
      subst he
      exact .inl ⟨edge', (State.getEdge_mem g.2.found).1,
        ⟨rfl, rfl, rfl, rfl, rfl, rfl, rfl, rfl, rfl, rfl⟩⟩
    case register edge' =>
      subst he
      exact .inr g.edgeId
    case update edge' =>
      subst he
      obtain ⟨current, upd⟩ := g
      exact .inl ⟨current, (State.getEdge_mem upd.found).1, upd.same⟩

/-- A job an act creates is new to the jobs and to the attempts. -/
theorem Act.newJob_fresh {act : Act} (h : Sound cfg s) (g : act.guard cfg s) {job : JobRecord}
    {m : MessageId} (hnew : act.newJob cfg s = some (job, m)) :
    (∀ r ∈ s.jobs, r.jobId ≠ job.jobId) ∧ ∀ x ∈ s.attempts, x.jobId ≠ job.jobId := by
  have hjobs : ∀ r ∈ s.jobs, r.jobId ≠ job.jobId := by
    cases act <;> simp only [newJob, Option.some.injEq, Prod.mk.injEq, reduceCtorEq] at hnew
    case accept origin job' m' i t =>
      rw [← hnew.1]
      exact (h.coherent.accept_guard g).1.fresh
    case continuation edge job' t =>
      rw [← hnew.1]
      exact g.1.fresh
    case deliver a head record t =>
      rw [← hnew.1]
      exact fun r hr => (h.coherent.jobs.issued r hr).ne
  refine ⟨hjobs, fun x hx hid => ?_⟩
  obtain ⟨r, hr, hrid, -⟩ := h.coherent.attempts.job x hx
  exact hjobs r hr (hrid.trans hid)

/-- Where a continuation comes from: it was there, or it is the job of the act that
submits it. -/
theorem Act.continues {act : Act} (h : Sound cfg s) (g : act.guard cfg s) {e : EdgeId}
    {r : JobRecord} (hc : Continues (act.apply cfg s) e r) :
    (∃ r₀, Continues s e r₀ ∧ r₀.jobId = r.jobId) ∨
      ∃ edge t, act = .continuation edge r t ∧ edge.edgeId = e := by
  have eff := Act.effects h.coherent g
  obtain ⟨x, hx, hxr, edge, hedge, hid, hparent⟩ := hc.parent
  have hold : edge.edgeId = s.nextId → ∀ i, r.request.routeOptions.callbackEdgeId = some i →
      i < s.nextId → False := by
    intro hn i hi hlt
    obtain rfl := Option.some.inj (hc.carries.symm.trans hi)
    exact absurd (hid.symm.trans hn) hlt.ne
  rcases eff.jobs r hc.mem with ⟨r₀, hr₀, same⟩ | ⟨m, hnew⟩
  · rcases eff.attempts x hx with ⟨x₀, hx₀, sameA⟩ | ⟨job, m, hnew, hxj, -⟩
    · rcases Act.edge_row h g hedge with ⟨edge₀, hedge₀, sameE⟩ | hn
      · refine .inl ⟨r₀, ⟨hr₀, same.request ▸ hc.carries, same.providerOptions ▸ hc.original,
          x₀, hx₀, ?_, edge₀, hedge₀, sameE.edgeId.symm.trans hid, ?_⟩, same.jobId.symm⟩
        · rw [← sameA.jobId, hxr, same.jobId]
        · rw [← sameE.parentMessageId, hparent, sameA.messageId]
      · have hcar := hc.carries
        exact (hold hn e hcar (h.coherent.jobs.edge_issued r₀ hr₀ e (same.request ▸ hcar))).elim
    · exact absurd (same.jobId.symm.trans (hxr.symm.trans hxj))
        ((Act.newJob_fresh h g hnew).1 r₀ hr₀)
  · -- the job is new, and so is its attempt
    obtain ⟨hfresh, hfreshA⟩ := Act.newJob_fresh h g hnew
    have hxm : x.messageId = m := by
      rcases eff.attempts x hx with ⟨x₀, hx₀, sameA⟩ | ⟨job, m', hnew', -, hxm, -⟩
      · exact absurd (sameA.jobId.symm.trans hxr) (hfreshA x₀ hx₀)
      · rw [hnew] at hnew'
        rw [hxm, (Prod.mk.inj (Option.some.inj hnew')).2]
    cases act <;> simp only [newJob, Option.some.injEq, Prod.mk.injEq, reduceCtorEq] at hnew
    case accept origin job m' i t =>
      obtain ⟨rfl, rfl⟩ := hnew
      cases origin with
      | submitted =>
        have hedge : edge ∈ s.edges := hedge
        exact absurd (hparent.trans hxm) (g.2.parent edge hedge)
      | retried source =>
        have := hc.original
        rw [g.2.providerOptions] at this
        contradiction
    case continuation edge' job t =>
      obtain ⟨rfl, rfl⟩ := hnew
      exact .inr ⟨edge', t, rfl, Option.some.inj (g.2.callbackEdgeId.symm.trans hc.carries)⟩
    case deliver a head record t =>
      have := hc.carries
      rw [← hnew.1] at this
      contradiction

/-- The latest row of an edge moves along `edgeMove`, if it moves at all. -/
theorem Extends.getEdge_move (ext : Extends s s') (h : Coherent cfg s') {i : EdgeId}
    {edge : CallbackEdgeRecord} (hedge : s.getEdge i = some edge) :
    ∃ edge', s'.getEdge i = some edge' ∧ Act.SameEdge edge' edge ∧
      (edge' = edge ∨ Act.edgeMove edge.state edge'.state) := by
  obtain ⟨hmem, hid⟩ := State.getEdge_mem hedge
  obtain ⟨edge', hedge'⟩ := exists_findLast (p := fun r : CallbackEdgeRecord =>
    decide (r.edgeId = i)) (ext.edges hmem) (by simpa using hid)
  have hedge' : s'.getEdge i = some edge' := hedge'
  obtain ⟨hmem', hid'⟩ := State.getEdge_mem hedge'
  refine ⟨edge', hedge', h.edges.key _ hmem' _ (ext.edges hmem) (.inl (hid'.trans hid.symm)), ?_⟩
  rcases findLast_pairwise h.edges.moves hedge' edge (ext.edges hmem) (by simpa using hid) with
    heq | hmove
  · exact .inl heq.symm
  · exact .inr (hmove (hid.trans hid'.symm))

theorem Act.getEdge_move {act : Act} (h : Sound cfg s) (g : act.guard cfg s) {i : EdgeId}
    {edge : CallbackEdgeRecord} (hedge : s.getEdge i = some edge) :
    ∃ edge', (act.apply cfg s).getEdge i = some edge' ∧ SameEdge edge' edge ∧
      (edge' = edge ∨ edgeMove edge.state edge'.state) :=
  (Act.extends h.coherent g).getEdge_move (Act.sound g h).coherent hedge

theorem edgeMove_submitted {old new : CallbackEdgeState} (h : Act.edgeMove old new)
    (hold : old = .continuationSubmitted ∨ old = .done) : new = .done := by
  rcases hold with rfl | rfl
  · exact h.2.2.2 rfl
  · exact absurd rfl h.1

theorem Act.continuationsOk {act : Act} (h : Sound cfg s) (g : act.guard cfg s)
    (ok : ContinuationsOk s) : ContinuationsOk (act.apply cfg s) := by
  -- an edge that is being continued has no continuation yet
  have hfirst : ∀ edge r t, act = .continuation edge r t → ∀ r₀, ¬Continues s edge.edgeId r₀ := by
    rintro edge r t rfl r₀ hr₀
    obtain ⟨edge', hedge', hstate⟩ := ok.submitted _ _ hr₀
    rw [g.2.found] at hedge'
    rw [← Option.some.inj hedge', g.2.state] at hstate
    rcases hstate with hstate | hstate <;> contradiction
  constructor
  · intro e r hc
    rcases Act.continues h g hc with ⟨r₀, hr₀, -⟩ | ⟨edge, t, rfl, hid⟩
    · obtain ⟨edge, hedge, hstate⟩ := ok.submitted e r₀ hr₀
      obtain ⟨edge', hedge', -, hmove⟩ := Act.getEdge_move h g hedge
      refine ⟨edge', hedge', ?_⟩
      rcases hmove with rfl | hmove
      · exact hstate
      · exact .inr (edgeMove_submitted hmove hstate)
    · refine ⟨edge.submitted r.jobId t, ?_, .inl rfl⟩
      have hid' : (edge.submitted r.jobId t).edgeId = e := hid
      rw [State.getEdge, (Act.effects h.coherent g).edges]
      simp [Act.newEdge, hid']
  · intro e r r' hc hc'
    rcases Act.continues h g hc with ⟨r₀, hr₀, hid⟩ | ⟨edge, t, hact, hid⟩
    · rcases Act.continues h g hc' with ⟨r₁, hr₁, hid₁⟩ | ⟨edge, t, hact, rfl⟩
      · rw [← hid, ← hid₁]
        exact ok.unique e r₀ r₁ hr₀ hr₁
      · exact absurd hr₀ (hfirst edge r' t hact r₀)
    · rcases Act.continues h g hc' with ⟨r₁, hr₁, -⟩ | ⟨edge', t', hact', -⟩
      · rw [← hid] at hr₁
        exact absurd hr₁ (hfirst edge r t hact r₁)
      · rw [hact] at hact'
        cases hact'
        rfl

/-! ### Runs -/

theorem Reachable.continuationsOk (h : Reachable cfg allowed s) : ContinuationsOk s := by
  refine h.invariant (I := ContinuationsOk) (fun auto => ⟨?_, ?_⟩)
    (fun w op s₀ s act _ _ _ _ _ hs ok _ g => Act.continuationsOk hs g ok)
  · intro e r hc
    simpa [State.initial] using hc.mem
  · intro e r r' hc
    simpa [State.initial] using hc.mem

/-- The life of callback edges: an ended edge has no further row, a submitted
continuation leads to the end only, and an edge is continued at most once. -/
theorem callback_edge_life_cycle (run : Reachable cfg allowed s) :
    s.edges.Pairwise (fun e e' => e.edgeId = e'.edgeId →
      e.state ≠ .done ∧ e.state ≠ .failed ∧ e.state ≠ .timedOut ∧
        (e.state = .continuationSubmitted → e'.state = .done)) ∧
    ∀ e r r', Continues s e r → Continues s e r' → r.jobId = r'.jobId :=
  ⟨run.sound.coherent.edges.moves, run.continuationsOk.unique⟩

/-- A callback whose child completes: the edge ends with its continuation. -/
def Sample.callbackAnswered : List (Timestamp × Op) :=
  Sample.callbackAsk ++ [(Mailbox.sampleTime, .complete 6 (Sample.decision .completed))]

theorem callback_edge_life_cycle_answered :
    (Sample.after Sample.callbackAnswered).edges.map CallbackEdgeRecord.state =
      [.pending, .childCompleted, .continuationSubmitted] ∧
    ∀ r r', Continues (Sample.after Sample.callbackAnswered) 10 r →
      Continues (Sample.after Sample.callbackAnswered) 10 r' → r.jobId = r'.jobId := by
  have run : Reachable Sample.config (fun _ _ _ => True) (Sample.after Sample.callbackAnswered) :=
    Sample.reachable_after (by decide +kernel)
  exact ⟨by decide +kernel, (callback_edge_life_cycle run).2 10⟩

end CodexBridge.Dispatch
