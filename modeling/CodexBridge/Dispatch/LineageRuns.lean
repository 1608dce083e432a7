import CodexBridge.Dispatch.Lineages

/-! The attempts of an agent on a message over whole runs. Only the answer to a callback
can leave a live attempt behind a newer one; runs that answer callbacks of idle
parents keep the log in order, and then a recovery and a retry agree on what is
latest. -/

namespace CodexBridge.Dispatch

open AppendLog

variable {cfg : Config} {w : World} {s s₀ s' : State} {permits : State → Act → Prop}

/-! ### Answers to callbacks -/

/-- The callback has neither been carried on nor failed. -/
def State.Outstanding (s : State) (edge : CallbackEdgeRecord) : Prop :=
  s.getEdge edge.edgeId = some edge ∧ edge.state.terminal = false

/-- The job has an attempt on the message. -/
def State.WorksOn (s : State) (j : JobId) (m : MessageId) : Prop :=
  ∃ x ∈ s.attempts, x.jobId = j ∧ x.messageId = m

/-- The end of the job answers the callback. -/
def State.Hands (s : State) (j : JobId) (edge : CallbackEdgeRecord) : Prop :=
  s.Outstanding edge ∧ s.WorksOn j edge.childMessageId

/-- An answer to the callback takes on a further job: the parent's agent has none for it
yet, and does not turn work away when it is busy. -/
def State.Renews (cfg : Config) (s : State) (edge : CallbackEdgeRecord) : Prop :=
  s.existingContinuationJob edge = none ∧
    (cfg.spec edge.callbackTargetAgent).rejectWhenBusy = false

/-- Two callbacks that one agent goes on with, on one message. -/
def Rivals (edge edge' : CallbackEdgeRecord) : Prop :=
  edge.parentMessageId = edge'.parentMessageId ∧ edge.parentAgent = edge'.parentAgent ∧
    edge.edgeId ≠ edge'.edgeId

/-- A repair may answer the callback. -/
def State.Repaired (cfg : Config) (w : World) (s : State) (edge : CallbackEdgeRecord) : Prop :=
  s.Outstanding edge ∧
    (∃ reply ∈ s.replies, reply.messageId = edge.childMessageId ∧ reply.notice = false) ∧
    cfg.callbackExpired (w.clock 0 (.repair edge.edgeId)) edge.timeoutAt = false

/-- The operation takes on a further job for a callback only if its parent is idle. -/
def answersIdle (cfg : Config) (w : World) (s : State) : Op → Prop
  | .complete j decision => ∀ current, s.getJob j = some current →
    current.status.terminal = false → s.deferred cfg w current decision = false →
      ∀ edge, s.Hands j edge → s.Renews cfg edge → s.ParentIdle edge
  | .tick | .repairCallbacks => ∀ edge, s.Repaired cfg w edge → s.Renews cfg edge →
    s.ParentIdle edge ∧
      ∀ edge', s.Repaired cfg w edge' → s.Renews cfg edge' → ¬Rivals edge edge'
  | .shutdown => s.Turns cfg w (fun s j => s.waitsForNone j = true → ∀ edge, s.Hands j edge →
    s.Renews cfg edge → s.ParentIdle edge) (s.latestNonterminalJobIds cfg)
  | _ => True

theorem Coherent.worksOn (h : Coherent cfg s) {j : JobId} {m m' : MessageId}
    (hm : s.WorksOn j m) (hm' : s.WorksOn j m') : m = m' := by
  obtain ⟨x, hx, hxj, rfl⟩ := hm
  obtain ⟨y, hy, hyj, rfl⟩ := hm'
  exact (h.attempts.key x hx y hy (.inr (hxj.trans hyj.symm))).messageId

/-- A job answers one callback at most. -/
theorem Coherent.hands (h : Coherent cfg s) {j : JobId} {edge edge' : CallbackEdgeRecord}
    (he : s.Hands j edge) (he' : s.Hands j edge') : edge.edgeId = edge'.edgeId :=
  (h.edges.key edge (State.getEdge_mem he.1.1).1 edge' (State.getEdge_mem he'.1.1).1
    (.inr (.inr (.inl (h.worksOn he.2 he'.2))))).edgeId

/-- A job that was there works on what it worked on. -/
theorem Extends.worksOn (ext : Extends s s') (h : Coherent cfg s) (h' : Coherent cfg s')
    {j : JobId} {r : JobRecord} (found : s.getJob j = some r) {m : MessageId}
    (hm : s'.WorksOn j m) : s.WorksOn j m := by
  obtain ⟨y, hy⟩ := h.exists_attemptForJob found
  obtain ⟨hymem, hyj⟩ := State.attemptForJob_mem hy
  exact ⟨y, hymem, hyj, h'.worksOn ⟨y, ext.attempts hymem, hyj, rfl⟩ hm⟩

/-! ### Callbacks that may be answered -/

/-- The live attempts of the parents of certain open callbacks are among certain jobs,
and the callbacks go to different parents, which take work when they are busy. -/
structure Ready (cfg : Config) (P : EdgeId → Prop) (L : List JobId) (s : State) : Prop where
  idle : ∀ edge, s.Outstanding edge → P edge.edgeId → ∀ x ∈ s.attempts,
    x.messageId = edge.parentMessageId → x.agentName = edge.parentAgent →
      s.live x.jobId → x.jobId ∈ L
  single : ∀ edge edge', s.Outstanding edge → P edge.edgeId → s.Outstanding edge' →
    P edge'.edgeId → ¬Rivals edge edge'
  queues : ∀ edge, s.Outstanding edge → P edge.edgeId →
    (cfg.spec edge.callbackTargetAgent).rejectWhenBusy = false

/-- The act gives work to the parents of those callbacks only by answering them. -/
structure Act.Respects (cfg : Config) (P : EdgeId → Prop) (s : State) (act : Act) : Prop where
  register : ∀ edge, act ≠ .register edge
  continuation : ∀ edge job t, act = .continuation edge job t →
    P edge.edgeId ∨ (cfg.spec edge.callbackTargetAgent).rejectWhenBusy = true
  accept : ∀ origin job m i t, act = .accept origin job m i t → ∀ edge, s.Outstanding edge →
    P edge.edgeId → m ≠ edge.parentMessageId

variable {P : EdgeId → Prop} {L : List JobId}

theorem State.Outstanding.old {act : Act} (h : Sound cfg s) (g : act.guard cfg s)
    (hreg : ∀ edge, act ≠ .register edge) {edge : CallbackEdgeRecord}
    (ho : (act.apply cfg s).Outstanding edge) :
    ∃ edge₀, s.Outstanding edge₀ ∧ Act.SameEdge edge edge₀ := by
  obtain ⟨edge₀, hedge₀, hopen, same⟩ := Act.edge_open h g hreg ho.1 ho.2
  rw [same.edgeId] at hedge₀
  exact ⟨edge₀, ⟨hedge₀, hopen⟩, same⟩

/-- A continuation for an agent that rejects work when it is busy has found it idle. -/
theorem Act.ContinuationOf.parentIdle (h : Coherent cfg s) {edge : CallbackEdgeRecord}
    {job : JobRecord} (g : Act.ContinuationOf cfg s edge job)
    (rejects : (cfg.spec edge.callbackTargetAgent).rejectWhenBusy = true) : s.ParentIdle edge := by
  intro x hx hm ha hlive
  obtain ⟨r, hr, hl⟩ := hlive
  obtain ⟨r', hr', hid, hagent⟩ := h.attempts.job x hx
  have same := h.board.same r (State.getJob_mem hr).1 r' hr'
    ((State.getJob_mem hr).2.trans hid.symm)
  have hbusy := h.board.hasOutstanding hr hl
  have hidle := g.available rejects
  rw [h.edges.target edge (State.getEdge_mem g.found).1, ← ha, ← hagent, ← same.agentName] at hidle
  exact Bool.false_ne_true (hidle.symm.trans hbusy)

/-- Where a continuation was taken on for an agent that queues work, the callback had none
before. -/
theorem Act.ContinuationOf.renews (ext : Extends s₀ s) {edge edge₀ : CallbackEdgeRecord}
    {job : JobRecord} (g : Act.ContinuationOf cfg s edge job) (same : Act.SameEdge edge edge₀) :
    s₀.Renews cfg edge₀ ∨ (cfg.spec edge.callbackTargetAgent).rejectWhenBusy = true := by
  cases hrejects : (cfg.spec edge.callbackTargetAgent).rejectWhenBusy with
  | true => exact .inr rfl
  | false =>
    refine .inl ⟨findLast_none.mpr fun r hr => ?_, same.callbackTargetAgent ▸ hrejects⟩
    obtain ⟨hmem, hagent⟩ := List.mem_filter.mp hr
    have hfirst := g.first r (ext.jobs hmem)
      ((of_decide_eq_true hagent).trans same.callbackTargetAgent.symm)
    simpa [same.edgeId] using hfirst

theorem Ready.act {act : Act} (ready : Ready cfg P L s) (h : Sound cfg s) (g : act.guard cfg s)
    (resp : act.Respects cfg P s) : Ready cfg P L (act.apply cfg s) := by
  have hs := Act.sound g h
  constructor
  · intro edge ho hP x hx hm ha hlive
    obtain ⟨edge₀, ho₀, same⟩ := ho.old h g resp.register
    have hP₀ : P edge₀.edgeId := same.edgeId ▸ hP
    have hlt := h.coherent.edges.below edge₀ (State.getEdge_mem ho₀.1).1
    rcases (Act.effects h.coherent g).attempts x hx with
      ⟨x₀, hx₀, sameA⟩ | ⟨job, m, hnew, hxj, hxm, hxa, -⟩
    · rw [sameA.jobId] at hlive ⊢
      exact ready.idle edge₀ ho₀ hP₀ x₀ hx₀ (sameA.messageId ▸ hm.trans same.parentMessageId)
        (sameA.agentName ▸ ha.trans same.parentAgent)
        ((Act.extends h.coherent g).live h.coherent hs.coherent hx₀ hlive)
    · have hm' : m = edge₀.parentMessageId := hxm ▸ hm.trans same.parentMessageId
      cases act <;> simp only [Act.newJob, Option.some.injEq, Prod.mk.injEq, reduceCtorEq] at hnew
      case accept origin job' m' i t =>
        obtain ⟨rfl, rfl⟩ := hnew
        exact absurd hm' (resp.accept origin job' m' i t rfl edge₀ ho₀ hP₀)
      case continuation edge' job' t =>
        obtain ⟨rfl, rfl⟩ := hnew
        have ho' : s.Outstanding edge' := ⟨g.2.found, by rw [g.2.state]; rfl⟩
        have htarget := h.coherent.edges.target edge' (State.getEdge_mem ho'.1).1
        -- the callback of the act is the one at hand, and it is closed now
        have hid : edge'.edgeId = edge₀.edgeId := by
          by_contra hne
          have hagents : edge'.parentAgent = edge₀.parentAgent := by
            rw [← htarget, ← g.2.agentName, ← hxa, ha, same.parentAgent]
          have hP' : P edge'.edgeId := by
            refine (resp.continuation edge' job' t rfl).resolve_right fun hrejects => ?_
            have hqueues := ready.queues edge₀ ho₀ hP₀
            rw [h.coherent.edges.target edge₀ (State.getEdge_mem ho₀.1).1, ← hagents, ← htarget,
              hrejects] at hqueues
            contradiction
          exact ready.single edge' edge₀ ho' hP' ho₀ hP₀ ⟨hm', hagents, hne⟩
        have hclosed : ((Act.continuation edge' job' t).apply cfg s).getEdge edge.edgeId =
            some (edge'.submitted job'.jobId t) := by
          have hid' : (edge'.submitted job'.jobId t).edgeId = edge.edgeId :=
            hid.trans same.edgeId.symm
          rw [State.getEdge, (Act.effects h.coherent g).edges]
          simp [Act.newEdge, hid']
        have hopen := ho.2
        rw [← Option.some.inj (hclosed.symm.trans ho.1)] at hopen
        contradiction
      case deliver a head record t =>
        obtain ⟨x₀, hx₀, -, hxm₀⟩ :=
          h.coherent.edges.parent_attempt edge₀ (State.getEdge_mem ho₀.1).1
        have hlt := h.coherent.message_lt hx₀
        rw [hxm₀, ← hm', ← hnew.2] at hlt
        exact absurd hlt (Nat.not_lt.mpr (Nat.le_succ _))
  · intro edge edge' ho hP ho' hP' hrivals
    obtain ⟨edge₀, ho₀, same⟩ := ho.old h g resp.register
    obtain ⟨edge₀', ho₀', same'⟩ := ho'.old h g resp.register
    refine ready.single edge₀ edge₀' ho₀ (same.edgeId ▸ hP) ho₀' (same'.edgeId ▸ hP') ?_
    refine ⟨?_, ?_, ?_⟩
    · rw [← same.parentMessageId, ← same'.parentMessageId, hrivals.1]
    · rw [← same.parentAgent, ← same'.parentAgent, hrivals.2.1]
    · rw [← same.edgeId, ← same'.edgeId]
      exact hrivals.2.2
  · intro edge ho hP
    obtain ⟨edge₀, ho₀, same⟩ := ho.old h g resp.register
    rw [same.callbackTargetAgent]
    exact ready.queues edge₀ ho₀ (same.edgeId ▸ hP)

theorem Ready.parentIdle (ready : Ready cfg P [] s) (h : Coherent cfg s)
    {edge : CallbackEdgeRecord} {job : JobRecord} (g : Act.ContinuationOf cfg s edge job)
    (hP : P edge.edgeId ∨ (cfg.spec edge.callbackTargetAgent).rejectWhenBusy = true) :
    s.ParentIdle edge := by
  rcases hP with hP | hrejects
  · intro x hx hm ha hlive
    have ho : s.Outstanding edge := ⟨g.found, by rw [g.state]; rfl⟩
    exact absurd (ready.idle edge ho hP x hx hm ha hlive) List.not_mem_nil
  · exact g.parentIdle h hrejects

/-- A path that answers callbacks of idle parents keeps the log in order. -/
theorem Path.lineage (p : Path cfg permits s s') (h : Sound cfg s) (lin : Lineage s)
    (ready : Ready cfg P L s)
    (resp : ∀ s₁ act, Path cfg permits s s₁ → Sound cfg s₁ → Ready cfg P L s₁ → permits s₁ act →
      act.guard cfg s₁ → act.Respects cfg P s₁ ∧
        ∀ edge job t, act = .continuation edge job t → s₁.ParentIdle edge) :
    Lineage s' ∧ Ready cfg P L s' := by
  refine p.along (I := fun s => Lineage s ∧ Ready cfg P L s) (fun s₁ act q hs hI hp g => ?_) h
    ⟨lin, ready⟩
  obtain ⟨hresp, hidle⟩ := resp s₁ act q hs hI.2 hp g
  exact ⟨Act.lineage hs g hI.1 hidle, hI.2.act hs g hresp⟩

theorem Path.lineage_of_none (p : Path cfg permits s s') (h : Sound cfg s) (lin : Lineage s)
    (hnone : ∀ s act, permits s act → ∀ edge job t, act ≠ .continuation edge job t) :
    Lineage s' :=
  p.invariant (fun s act hs lin hp g => Act.lineage hs g lin fun edge job t heq =>
    absurd heq (hnone s act hp edge job t)) h lin

/-! ### Operations -/

/-- The edge a job answers on a path was open at its start. -/
theorem Path.hands (hreg : ∀ s act, permits s act → ∀ edge, act ≠ .register edge)
    (p : Path cfg permits s₀ s) (h : Sound cfg s₀) {j : JobId} {edge : CallbackEdgeRecord}
    (hlive : s₀.live j) (he : s.Hands j edge) :
    ∃ edge₀, s₀.Hands j edge₀ ∧ Act.SameEdge edge edge₀ := by
  obtain ⟨edge₀, found₀, hopen₀, same⟩ := p.edge_open hreg h he.1.1 he.1.2
  rw [same.edgeId] at found₀
  obtain ⟨r, hr, -⟩ := hlive
  exact ⟨edge₀, ⟨⟨found₀, hopen₀⟩, same.childMessageId ▸
    (p.grows h).worksOn h.coherent (p.sound h).coherent hr he.2⟩, same⟩

/-- The result of a job that answers a callback goes to an earlier message. -/
theorem Coherent.hands_below (h : Coherent cfg s) {j : JobId} {edge : CallbackEdgeRecord}
    (he : s.Hands j edge) {m : MessageId} (hm : s.WorksOn j m) : m ≠ edge.parentMessageId := by
  rw [h.worksOn hm he.2]
  exact (h.edges.below edge (State.getEdge_mem he.1.1).1).ne'

/-- The end of a job that answers callbacks of idle parents only. -/
theorem answered_lineage (h : Sound cfg s) (lin : Lineage s) {j : JobId} (hlive : s.live j)
    (p : Path cfg
      (fun s act => act.settles j s ∨ act.removes fun current => current.jobId = j) s s')
    (idle : ∀ edge, s.Hands j edge → s.Renews cfg edge → s.ParentIdle edge) : Lineage s' := by
  have hreg : ∀ (s₁ : State) (act : Act),
      (act.settles j s₁ ∨ act.removes fun current => current.jobId = j) →
        ∀ edge, act ≠ .register edge := by
    rintro s₁ act (hp | hp) edge
    · exact Act.settles_not_register hp edge
    · rintro rfl
      exact hp
  have ready : Ready cfg (fun e => ∃ edge, s.Hands j edge ∧ s.Renews cfg edge ∧
      edge.edgeId = e) [] s := by
    constructor
    · rintro edge ho ⟨edge', he', hrenews, hid⟩ x hx hm ha hl
      obtain rfl := Option.some.inj (ho.1.symm.trans (hid ▸ he'.1.1))
      exact absurd hl (idle edge he' hrenews x hx hm ha)
    · rintro edge edge' - ⟨e, he, -, hid⟩ - ⟨e', he', -, hid'⟩ hrivals
      exact hrivals.2.2 (hid ▸ hid' ▸ h.coherent.hands he he')
    · rintro edge ho ⟨edge', he', hrenews, hid⟩
      obtain rfl := Option.some.inj (ho.1.symm.trans (hid ▸ he'.1.1))
      exact hrenews.2
  refine (p.lineage h lin ready fun s₁ act q hs ready₁ hp g => ?_).1
  have hrenews : ∀ edge job t, act = .continuation edge job t →
      (∃ edge₀, s.Hands j edge₀ ∧ s.Renews cfg edge₀ ∧ edge₀.edgeId = edge.edgeId) ∨
        (cfg.spec edge.callbackTargetAgent).rejectWhenBusy = true := by
    rintro edge job t rfl
    have he : s₁.Hands j edge :=
      ⟨⟨g.2.found, by rw [g.2.state]; rfl⟩, hp.elim id fun hf => hf.elim⟩
    obtain ⟨edge₀, he₀, same⟩ := q.hands hreg h hlive he
    exact (g.2.renews (q.grows h) same).imp_left fun hr => ⟨edge₀, he₀, hr, same.edgeId.symm⟩
  refine ⟨⟨hreg s₁ act hp, hrenews, ?_⟩, ?_⟩
  rotate_left
  · rintro edge job t rfl
    exact ready₁.parentIdle hs.coherent g.2 (hrenews edge job t rfl)
  -- a retry stays on the message of the job, which is below no edge it answers
  rintro origin job m i t rfl edge ho ⟨edge', he', -, hid⟩
  cases origin with
  | submitted => rcases hp with hp | hp <;> exact hp.elim
  | retried source =>
    obtain ⟨x, hx, hxj, hxm⟩ := g.2.attempt
    have hsource : source.jobId = j := hp.elim And.left fun hf => hf.elim
    have hjob : s₁.WorksOn j m := ⟨x, hx, hxj.trans hsource, hxm⟩
    have same := hs.coherent.edges.key edge (State.getEdge_mem ho.1).1 edge'
      ((q.grows h).edges (State.getEdge_mem he'.1.1).1) (.inl hid.symm)
    obtain ⟨y, hy, hyj, hym⟩ := he'.2
    exact hs.coherent.hands_below ⟨ho, y, (q.grows h).attempts hy, hyj,
      hym.trans same.childMessageId.symm⟩ hjob

/-- The end of a job that is not answered. -/
theorem deferred_lineage (h : Sound cfg s) (lin : Lineage s) {j : JobId}
    (p : Path cfg (fun _ act => act.defers j) s s') : Lineage s' := by
  refine p.lineage_of_none h lin ?_
  rintro s act hp edge job t rfl
  exact hp.elim

theorem complete_lineage (h : Sound cfg s) (lin : Lineage s) {j : JobId}
    {decision : CompletionDecision} (admissible : (Op.complete j decision).admissible s)
    (idle : answersIdle cfg w s (.complete j decision)) :
    Lineage (State.complete cfg w s j decision) := by
  by_cases hlive : s.live j
  · obtain ⟨current, found, live⟩ := id hlive
    have running := JobStatus.running_of_live live (admissible current found)
    by_cases hdeferred : s.deferred cfg w current decision = true
    · exact deferred_lineage h lin (complete_deferred_path h decision found running hdeferred)
    · exact answered_lineage h lin hlive
        ((complete_path h decision admissible).mono fun _ _ hp => .inl hp.2)
        (idle current found live (by simpa using hdeferred))
  · have hquiet : State.complete cfg w s j decision = s := by
      simp only [State.complete, State.depth, State.completeJob]
      cases hfound : s.getJob j with
      | none => rfl
      | some current =>
        have ended : current.status.terminal = true := by
          by_contra live
          exact hlive ⟨current, hfound, by simpa using live⟩
        simp [ended]
    rw [hquiet]
    exact lin

/-- The repairs of a tick. -/
theorem repairs_lineage (h : Sound cfg s) (lin : Lineage s)
    (p : Path cfg (fun _ act => act.repairs cfg w s) s s')
    (idle : ∀ edge, s.Repaired cfg w edge → s.Renews cfg edge → s.ParentIdle edge ∧
      ∀ edge', s.Repaired cfg w edge' → s.Renews cfg edge' → ¬Rivals edge edge') :
    Lineage s' := by
  have hreg : ∀ (s₁ : State) (act : Act), act.repairs cfg w s → ∀ edge, act ≠ .register edge := by
    rintro - act hp edge rfl
    exact hp
  have ready : Ready cfg (fun e => ∃ edge, s.Repaired cfg w edge ∧ s.Renews cfg edge ∧
      edge.edgeId = e) [] s := by
    constructor
    · rintro edge ho ⟨edge', he', hrenews, hid⟩ x hx hm ha hl
      obtain rfl := Option.some.inj (ho.1.symm.trans (hid ▸ he'.1.1))
      exact absurd hl ((idle edge he' hrenews).1 x hx hm ha)
    · rintro edge edge' ho ⟨e, he, hr, hid⟩ ho' ⟨e', he', hr', hid'⟩
      obtain rfl := Option.some.inj (ho.1.symm.trans (hid ▸ he.1.1))
      obtain rfl := Option.some.inj (ho'.1.symm.trans (hid' ▸ he'.1.1))
      exact (idle edge he hr).2 edge' he' hr'
    · rintro edge ho ⟨edge', he', hrenews, hid⟩
      obtain rfl := Option.some.inj (ho.1.symm.trans (hid ▸ he'.1.1))
      exact hrenews.2
  refine (p.lineage h lin ready fun s₁ act q hs ready₁ hp g => ?_).1
  have hrepaired : ∀ edge job t, act = .continuation edge job t →
      (∃ edge₀, s.Repaired cfg w edge₀ ∧ s.Renews cfg edge₀ ∧ edge₀.edgeId = edge.edgeId) ∨
        (cfg.spec edge.callbackTargetAgent).rejectWhenBusy = true := by
    rintro edge job t rfl
    obtain ⟨⟨reply, hreply, hmsg, hnotice⟩, hexpired⟩ := hp
    obtain ⟨edge₀, found₀, hopen₀, same⟩ := q.edge_open hreg h g.2.found (by rw [g.2.state]; rfl)
    rw [same.edgeId] at found₀ hexpired
    rw [same.timeoutAt] at hexpired
    refine (g.2.renews (q.grows h) same).imp_left fun hr => ⟨edge₀, ⟨⟨found₀, hopen₀⟩, ?_,
      hexpired⟩, hr, same.edgeId.symm⟩
    exact ⟨reply, hreply, hmsg.trans same.childMessageId, hnotice⟩
  refine ⟨⟨hreg s₁ act hp, hrepaired, ?_⟩, ?_⟩
  · rintro origin job m i t rfl
    cases origin <;> exact hp.elim
  · rintro edge job t rfl
    exact ready₁.parentIdle hs.coherent g.2 (hrepaired edge job t rfl)

/-! ### Shutdown -/

theorem terminateJob_lineage (h : Sound cfg s) (lin : Lineage s) {j : JobId}
    (idle : s.live j → s.waitsForNone j = true → ∀ edge, s.Hands j edge → s.Renews cfg edge →
      s.ParentIdle edge) : Lineage (State.terminateJob cfg w s j) := by
  by_cases hlive : s.live j
  · cases waits : s.waitsForNone j with
    | false => exact deferred_lineage h lin (terminateJob_waiting_path h hlive waits)
    | true =>
      exact answered_lineage h lin hlive ((terminateJob_path h j).1.mono fun s act hp =>
        hp.imp_left (Act.settles_of_answers s act)) (idle hlive waits)
  · rw [terminateJob_ended hlive]
    exact lin

theorem turns_lineage (h : Sound cfg s) (lin : Lineage s) {l : List JobId}
    (turns : s.Turns cfg w (fun s j => s.waitsForNone j = true → ∀ edge, s.Hands j edge →
      s.Renews cfg edge → s.ParentIdle edge) l) :
    Lineage (l.foldl (State.terminateJob cfg w) s) := by
  induction l generalizing s with
  | nil => exact lin
  | cons j l ih =>
    exact ih ((terminateJob_path h j).1.sound h) (terminateJob_lineage h lin turns.1) turns.2

/-! ### Runs -/

/-- Every operation of a run that answers callbacks of idle parents keeps the log in
order. -/
theorem exec_lineage (h : Sound cfg s) (lin : Lineage s) {op : Op}
    (admissible : op.admissible s) (idle : answersIdle cfg w s op) :
    Lineage (exec cfg w s op) := by
  have p := exec_path (w := w) h op admissible
  cases op with
  | complete j decision => exact complete_lineage h lin admissible idle
  | tick => exact repairs_lineage h lin p idle
  | repairCallbacks => exact repairs_lineage h lin p idle
  | shutdown =>
    change Lineage (State.terminateNonterminalJobs cfg w s)
    rw [terminateNonterminalJobs_eq]
    exact turns_lineage h lin idle
  | cancel j recordReply =>
    refine p.lineage_of_none h lin ?_
    rintro s act hp edge job t rfl
    rcases hp with hp | hp | ⟨job', attempt, status, recipient, t', hact, -⟩
    · exact hp
    · exact hp
    · contradiction
  | recover j d hint =>
    refine p.lineage_of_none h lin ?_
    rintro s act hp edge job t rfl
    rcases hp with hp | hp | hp <;> exact hp
  | ack a i =>
    refine p.lineage_of_none h lin ?_
    rintro s act hp edge job t rfl
    rcases hp with hp | hp <;> exact hp
  | _ =>
    refine p.lineage_of_none h lin ?_
    rintro s act hp edge job t rfl
    exact hp

theorem Reachable.lineage (run : Reachable cfg (answersIdle cfg) s) : Lineage s := by
  obtain ⟨auto, steps⟩ := run
  induction steps with
  | refl => exact Lineage.initial auto
  | tail steps step ih =>
    rename_i s₁ _
    obtain ⟨w, op, admissible, idle, rfl⟩ := step
    have hs : Sound cfg s₁ := Reachable.sound ⟨auto, steps⟩
    exact exec_lineage hs ih admissible idle

/-- Without callbacks there is nothing to answer. -/
theorem answersIdle_tick_of_no_edges {cfg : Config} {w : World} {s : State} (h : s.edges = []) :
    answersIdle cfg w s .tick := by
  intro edge he
  have hmem := (State.getEdge_mem he.1.1).1
  rw [h] at hmem
  exact absurd hmem List.not_mem_nil

namespace Sample

open Mailbox (sampleTime)

/-- A parent that waits for its callback has ended. -/
def parentEnded : List (Timestamp × Op) :=
  callbackAsk ++ [(sampleTime, .complete 1 (decision .completed))]

/-- The callback of a parent that has ended is answered. -/
def answeredIdle : List (Timestamp × Op) :=
  parentEnded ++ [(sampleTime, .complete 6 (decision .completed))]

theorem answeredIdle_reachable : Reachable config (answersIdle config) (after answeredIdle) := by
  have hempty : Reachable config (answersIdle config) (after []) := .initial true
  have hfirst := reachable_concat hempty (sampleTime, .submit (ask .user "agent1" none))
    (by decide +kernel) trivial
  have hrunning := reachable_concat hfirst (sampleTime, .tick) trivial
    (answersIdle_tick_of_no_edges (by decide +kernel))
  have hasked := reachable_concat hrunning
    (sampleTime, .submit (ask (.agent "agent1") "agent2" (some .callback)))
      (by decide +kernel) trivial
  have hstarted := reachable_concat hasked (sampleTime, .tick) trivial fun edge he => by
    obtain ⟨reply, hreply, -⟩ := he.2.1
    have hnone : (after (callbackAsk.take 3)).replies = [] := by decide +kernel
    exact absurd (hnone ▸ hreply) List.not_mem_nil
  -- the parent only waits, so its end answers nothing
  have hended := reachable_concat hstarted (sampleTime, .complete 1 (decision .completed))
    (by decide +kernel) fun current found live hdeferred edge he => by
      have hwaits : ((after callbackAsk).getJob 1).all fun current =>
          (after callbackAsk).deferred config (world sampleTime) current (decision .completed) := by
        decide +kernel
      have found : (after callbackAsk).getJob 1 = some current := found
      have hdeferred : (after callbackAsk).deferred config (world sampleTime) current
        (decision .completed) = false := hdeferred
      rw [found, Option.all_some, hdeferred] at hwaits
      exact absurd hwaits Bool.false_ne_true
  refine reachable_concat hended (sampleTime, .complete 6 (decision .completed))
    (by decide +kernel) fun current found live hdeferred edge he hr x hx hm ha hlive => ?_
  have hedges : ∀ edge ∈ (after parentEnded).edges, ∀ x ∈ (after parentEnded).attempts,
      x.messageId = edge.parentMessageId → x.jobId = 1 := by decide +kernel
  have hover : ((after parentEnded).getJob 1).all fun r => r.status.terminal := by decide +kernel
  obtain ⟨r, hr, hl⟩ := hlive
  have hr : (after parentEnded).getJob 1 = some r := by
    rw [← hedges edge (State.getEdge_mem he.1.1).1 x hx hm]
    exact hr
  rw [hr, Option.all_some, hl] at hover
  exact absurd hover Bool.false_ne_true

end Sample

/-- While callbacks are answered for idle parents only, the last attempt in the log is the
one a retry takes for the latest, and a job that a recovery may retry is not refused
because of its attempt. -/
theorem latest_attempts_agree (run : Reachable cfg (answersIdle cfg) s) :
    (∀ m a, s.lastAttemptForAgent m a = s.latestAttemptForAgent m a) ∧
      ∀ job, s.getJob job.jobId = some job → s.canRetryJob job = true →
        ∀ t e, s.retryAttempt cfg job.jobId t = .error e → e.lineage = false :=
  ⟨run.lineage.last_eq_latest run.sound.coherent,
    fun _ found retryable _ _ refused =>
      run.lineage.retry_not_refused run.sound.coherent found retryable refused⟩

theorem latest_attempts_agree_answered :
    ((Sample.after Sample.answeredIdle).lastAttemptForAgent 2 "agent1").map
        AttemptRecord.retryIndex = some 1 ∧
      (Sample.after Sample.answeredIdle).lastAttemptForAgent 2 "agent1" =
        (Sample.after Sample.answeredIdle).latestAttemptForAgent 2 "agent1" :=
  ⟨by decide +kernel, (latest_attempts_agree Sample.answeredIdle_reachable).1 2 "agent1"⟩

/-- The callback of a parent that is still running is answered, and then the parent fails. -/
def Sample.answeredLate : List (Timestamp × Op) :=
  Sample.callbackAnswered ++ [(Mailbox.sampleTime, .complete 1 (Sample.decision .failed))]

/-- The row of the failed parent comes after the one of its continuation. A recovery finds
the parent retryable, and the retry is refused. -/
theorem latest_attempts_disagree :
    Reachable Sample.config (fun _ _ _ => True) (Sample.after Sample.answeredLate) ∧
      ((Sample.after Sample.answeredLate).lastAttemptForAgent 2 "agent1").map
          AttemptRecord.jobId = some 1 ∧
      ((Sample.after Sample.answeredLate).latestAttemptForAgent 2 "agent1").map
          AttemptRecord.jobId = some 12 ∧
      (((Sample.after Sample.answeredLate).getJob 1).any fun job =>
        State.failedTerminal job.status &&
          (Sample.after Sample.answeredLate).canRetryJob job) = true ∧
      (match (Sample.after Sample.answeredLate).retryAttempt Sample.config 1 Mailbox.sampleTime with
        | .ok _ => none
        | .error e => some e) = some .notLatestAttempt :=
  ⟨Sample.reachable_after (by decide +kernel), by decide +kernel, by decide +kernel,
    by decide +kernel, by decide +kernel⟩

end CodexBridge.Dispatch
