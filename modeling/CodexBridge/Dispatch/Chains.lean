import CodexBridge.Dispatch.JobRuns
import CodexBridge.Links

/-! The callback graph. An edge links its child message to its parent message; the
check of a new edge walks the chain above the parent, and what it finds there
bounds every later walk. -/

namespace CodexBridge.Dispatch

open AppendLog

variable {cfg : Config} {s : State} {allowed : World → State → Op → Prop}

/-! ### Links -/

def CallbackEdgeRecord.link (edge : CallbackEdgeRecord) : Link AgentName :=
  ⟨edge.parentMessageId, edge.parentAgent, edge.childAgent⟩

/-- The link from a message to the message that waits for it. -/
def State.upLink (s : State) (messageId : MessageId) : Option (Link AgentName) :=
  (s.edgeForChildMessage messageId).map CallbackEdgeRecord.link

theorem Act.SameEdge.link {e e' : CallbackEdgeRecord} (h : Act.SameEdge e e') :
    e.link = e'.link := by
  unfold CallbackEdgeRecord.link
  rw [h.parentMessageId, h.parentAgent, h.childAgent]

theorem Coherent.upLink_some (h : Coherent cfg s) {m : MessageId} {l : Link AgentName} :
    s.upLink m = some l ↔ ∃ e ∈ s.edges, e.childMessageId = m ∧ e.link = l := by
  unfold State.upLink State.edgeForChildMessage
  rw [Option.map_eq_some_iff]
  constructor
  · rintro ⟨e, he, rfl⟩
    obtain ⟨hmem, hm⟩ := findLast_some he
    exact ⟨e, hmem, by simpa using hm, rfl⟩
  · rintro ⟨e, he, hm, rfl⟩
    obtain ⟨e', he'⟩ := exists_findLast (p := fun r : CallbackEdgeRecord =>
      decide (r.childMessageId = m)) he (by simpa using hm)
    obtain ⟨hmem', hm'⟩ := findLast_some he'
    have same := h.edges.key e' hmem' e he
      (.inr (.inr (.inl ((by simpa using hm' : e'.childMessageId = m).trans hm.symm))))
    exact ⟨e', he', same.link⟩

theorem callbackChain_link (fuel : ℕ) (seen : List MessageId) (m : MessageId) :
    (s.callbackChain fuel seen m).map CallbackEdgeRecord.link = climb s.upLink fuel seen m := by
  induction fuel generalizing seen m with
  | zero => rfl
  | succ fuel ih =>
    unfold State.callbackChain climb
    split_ifs with hm
    · rfl
    · rcases he : s.edgeForChildMessage m with _ | edge
      · simp [State.upLink, he]
      · simp only [State.upLink, he, List.map_cons, Option.map_some]
        rw [ih]
        rfl

/-- The walk of the check is the whole way up. -/
theorem Coherent.callbackChain_climbs (h : Coherent cfg s) (hd : Descending s.upLink)
    (m : MessageId) :
    Climbs s.upLink m ((s.callbackChainForParent m).map CallbackEdgeRecord.link) := by
  obtain ⟨links, hlinks⟩ := hd.exists_climbs m
  have hsupport : ∀ k l, s.upLink k = some l →
      k ∈ s.edges.map CallbackEdgeRecord.childMessageId := by
    intro k l hl
    obtain ⟨e, he, hk, -⟩ := h.upLink_some.mp hl
    exact List.mem_map.mpr ⟨e, he, hk⟩
  have hlength : links.length < s.edges.length + 1 := by
    refine Nat.lt_succ_of_le (((hd.length_le hsupport hlinks).trans
      (List.length_filter_le _ _)).trans ?_)
    rw [List.length_map]
  have heq := hd.climb_eq hlinks (fun x hx => absurd hx List.not_mem_nil) hlength
  unfold State.callbackChainForParent
  rw [callbackChain_link, heq]
  exact hlinks

/-! ### The chain invariant -/

/-- Chains are bounded and distinct, and the attempts of a child message are all on the
agent its edge names. -/
structure Chained (cfg : Config) (s : State) : Prop where
  linked : Linked (max 1 cfg.maxCallbackDepth) s.upLink
  agent : ∀ e ∈ s.edges, ∀ x ∈ s.attempts, x.messageId = e.childMessageId →
    x.agentName = e.childAgent

theorem Coherent.attempt_agent (h : Coherent cfg s) {x : AttemptRecord} {r : JobRecord}
    (hx : x ∈ s.attempts) (hr : r ∈ s.jobs) (hid : x.jobId = r.jobId) :
    x.agentName = r.agentName := by
  obtain ⟨r', hr', hid', hagent⟩ := h.attempts.job x hx
  rw [← hagent]
  exact (h.board.same r' hr' r hr (hid'.trans hid)).agentName

/-- The attempt of the parent is on the agent the edge names. -/
theorem Coherent.parent_agent (h : Coherent cfg s) {e : CallbackEdgeRecord} (he : e ∈ s.edges) :
    ∃ x ∈ s.attempts, x.messageId = e.parentMessageId ∧ x.agentName = e.parentAgent := by
  obtain ⟨x, hx, hxj, hxm⟩ := h.edges.parent_attempt e he
  obtain ⟨r, hr, hrj, hra, -⟩ := h.edges.parent e he
  exact ⟨x, hx, hxm, (h.attempt_agent hx hr (hxj.trans hrj.symm)).trans hra⟩

theorem Coherent.childMessage_lt (h : Coherent cfg s) {e : CallbackEdgeRecord}
    (he : e ∈ s.edges) : e.childMessageId < s.nextId := by
  obtain ⟨x, hx, -, hxm⟩ := h.edges.child_attempt e he
  exact hxm ▸ h.message_lt hx

/-- Where the edge rows of an act come from. -/
theorem Act.edge_origin {act : Act} (h : Coherent cfg s) (g : act.guard cfg s)
    {edge : CallbackEdgeRecord} (hedge : edge ∈ (act.apply cfg s).edges) :
    (∃ e ∈ s.edges, SameEdge edge e) ∨ act = .register edge := by
  rw [(Act.effects h g).edges, List.mem_append] at hedge
  rcases hedge with hedge | hedge
  · exact .inl ⟨edge, hedge, SameEdge.refl edge⟩
  · cases act <;> simp only [Act.newEdge, Option.toList_none, Option.toList_some,
      List.not_mem_nil, List.mem_singleton] at hedge
    case continuation edge' job t =>
      subst hedge
      exact .inl ⟨edge', (State.getEdge_mem g.2.found).1,
        ⟨rfl, rfl, rfl, rfl, rfl, rfl, rfl, rfl, rfl, rfl⟩⟩
    case register edge' =>
      exact .inr (congrArg Act.register hedge.symm)
    case update edge' =>
      subst hedge
      obtain ⟨current, upd⟩ := g
      exact .inl ⟨current, (State.getEdge_mem upd.found).1, upd.same⟩

/-- The links after an act: the ones before it, and a registered edge. -/
theorem Act.upLink {act : Act} (h : Sound cfg s) (g : act.guard cfg s) :
    (act.apply cfg s).upLink = s.upLink ∨
      ∃ edge, act = .register edge ∧
        (act.apply cfg s).upLink = Function.update s.upLink edge.childMessageId
          (some edge.link) := by
  have h' := Act.sound g h
  have hsub := (Act.extends h.coherent g).edges
  by_cases hreg : ∃ edge, act = .register edge
  · obtain ⟨edge, rfl⟩ := hreg
    refine .inr ⟨edge, rfl, funext fun m => ?_⟩
    have hedges : ((Act.register edge).apply cfg s).edges = s.edges ++ [edge] := rfl
    by_cases hm : m = edge.childMessageId
    · subst hm
      simp [State.upLink, State.edgeForChildMessage, hedges]
    · simp [State.upLink, State.edgeForChildMessage, hedges, Ne.symm hm, hm]
  · refine .inl (funext fun m => Option.ext fun l => ?_)
    rw [h'.coherent.upLink_some, h.coherent.upLink_some]
    constructor
    · rintro ⟨e, he, hm, hl⟩
      rcases Act.edge_origin h.coherent g he with ⟨e₀, he₀, same⟩ | hact
      · exact ⟨e₀, he₀, same.childMessageId.symm.trans hm, same.link.symm.trans hl⟩
      · exact absurd ⟨e, hact⟩ hreg
    · rintro ⟨e, he, hm, hl⟩
      exact ⟨e, hsub he, hm, hl⟩

/-- A new job on the child message of an edge runs on the agent of the edge. -/
theorem Chained.newJob_agent {act : Act} (ok : Chained cfg s) (h : Coherent cfg s)
    (g : act.guard cfg s) {job : JobRecord} {m : MessageId}
    (hnew : act.newJob cfg s = some (job, m)) {e : CallbackEdgeRecord} (he : e ∈ s.edges)
    (hm : m = e.childMessageId) : job.agentName = e.childAgent := by
  cases act <;> simp only [Act.newJob, Option.some.injEq, Prod.mk.injEq, reduceCtorEq] at hnew
  case accept origin job' m' i t =>
    obtain ⟨rfl, rfl⟩ := hnew
    cases origin with
    | submitted => exact absurd hm.symm (g.2.child e he)
    | retried source =>
      obtain ⟨x, hx, hxj, hxm⟩ := g.2.attempt
      rw [g.2.agentName, ← h.attempt_agent hx (State.getJob_mem g.2.found).1 hxj]
      exact ok.agent e he x hx (hxm.trans hm)
  case continuation edge job' t =>
    obtain ⟨rfl, rfl⟩ := hnew
    have hedge := (State.getEdge_mem g.2.found).1
    obtain ⟨x, hx, hxm, hxa⟩ := h.parent_agent hedge
    rw [g.2.agentName, h.edges.target edge hedge, ← hxa]
    exact ok.agent e he x hx (hxm.trans hm)
  case deliver a head record t =>
    have hlt := h.childMessage_lt he
    have hid : s.nextId + 1 = e.childMessageId := hnew.2.trans hm
    exact absurd (hid ▸ hlt) (by simp)

theorem Chained.register {edge : CallbackEdgeRecord} (ok : Chained cfg s) (h : Coherent cfg s)
    (reg : Act.Registers cfg s edge) : Linked (max 1 cfg.maxCallbackDepth)
      (Function.update s.upLink edge.childMessageId (some edge.link)) := by
  -- what the check has walked is the way up from the parent message
  have hchain : ∀ links, Climbs s.upLink edge.parentMessageId links →
      (s.callbackChainForParent edge.parentMessageId).map CallbackEdgeRecord.link = links :=
    fun links hlinks => (h.callbackChain_climbs ok.linked.descending _).unique hlinks
  refine ok.linked.update ?_ reg.below ?_ ?_ ?_
  · intro k l hl
    obtain ⟨e, he, hk, -⟩ := h.upLink_some.mp hl
    obtain ⟨x, hx, -, hxm⟩ := h.edges.child_attempt e he
    have hle : k ≤ edge.childMessageId := hk ▸ hxm ▸ reg.newest x hx
    exact ((ok.linked.descending k l hl).trans_le hle).ne
  · intro l hl
    obtain ⟨e, he, hm, rfl⟩ := h.upLink_some.mp hl
    obtain ⟨x, hx, hxj, hxm⟩ := reg.parent_attempt
    obtain ⟨r, hr, -, hra, -⟩ := reg.parent
    obtain ⟨hrmem, hrid⟩ := State.getJob_mem hr
    have hagent := ok.agent e he x hx (hxm.trans hm.symm)
    rw [h.attempt_agent hx hrmem (hxj.trans hrid.symm), hra] at hagent
    exact hagent.symm
  · intro links hlinks
    rw [← hchain links hlinks, List.length_map]
    exact reg.depth
  · intro links hlinks
    rw [← hchain links hlinks, List.map_map]
    exact reg.acyclic

theorem Act.chained {act : Act} (h : Sound cfg s) (g : act.guard cfg s) (ok : Chained cfg s) :
    Chained cfg (act.apply cfg s) := by
  constructor
  · rcases Act.upLink h g with heq | ⟨edge, rfl, heq⟩
    · rw [heq]
      exact ok.linked
    · rw [heq]
      exact ok.register h.coherent g
  · intro e he x hx hm
    rcases (Act.effects h.coherent g).attempts x hx with ⟨x₀, hx₀, same⟩ | hnew
    · rw [same.agentName]
      rw [same.messageId] at hm
      rcases Act.edge_origin h.coherent g he with ⟨e₀, he₀, hsame⟩ | rfl
      · rw [hsame.childAgent]
        exact ok.agent e₀ he₀ x₀ hx₀ (hm.trans hsame.childMessageId)
      · exact g.child_agent x₀ hx₀ hm
    · obtain ⟨job, m, hnew, -, hxm, hxa, -⟩ := hnew
      rw [hxa]
      rcases Act.edge_origin h.coherent g he with ⟨e₀, he₀, hsame⟩ | rfl
      · rw [hsame.childAgent]
        exact ok.newJob_agent h.coherent g hnew he₀ (hxm.symm.trans (hm.trans hsame.childMessageId))
      · contradiction

theorem Reachable.chained (run : Reachable cfg allowed s) : Chained cfg s := by
  refine run.invariant (I := Chained cfg) (fun auto => ⟨?_, ?_⟩)
    (fun w op s₀ s act _ _ _ _ _ hs ok _ g => Act.chained hs g ok)
  · exact Linked.empty _
  · intro e he
    simp [State.initial] at he

/-! ### The callback graph -/

/-- Message `m` waits for the callback of message `k`. -/
def State.WaitsFor (s : State) (m k : MessageId) : Prop :=
  ∃ e ∈ s.edges, e.parentMessageId = m ∧ e.childMessageId = k

/-- One edge for each parent job; from every job the whole way up has at most
`max_callback_depth` edges, visits distinct agents and is what the check walks; and no
message waits for itself. -/
theorem callback_graph_bounded (run : Reachable cfg allowed s) :
    (∀ e ∈ s.edges, ∀ e' ∈ s.edges, e.parentJobId = e'.parentJobId → e.edgeId = e'.edgeId) ∧
    (∀ r ∈ s.jobs, ∃ m, s.messageForJob r.jobId = some m ∧
      Climbs s.upLink m.messageId
        ((s.callbackChainForParent m.messageId).map CallbackEdgeRecord.link) ∧
      (s.callbackChainForParent m.messageId).length ≤ max 1 cfg.maxCallbackDepth ∧
      (r.agentName :: (s.callbackChainForParent m.messageId).map
        CallbackEdgeRecord.parentAgent).Nodup) ∧
    ∀ m, ¬Relation.TransGen s.WaitsFor m m := by
  have h := run.sound.coherent
  have ok := run.chained
  refine ⟨?_, ?_, ?_⟩
  · intro e he e' he' hparent
    exact (h.edges.key e he e' he' (.inr (.inr (.inr hparent)))).edgeId
  · intro r hr
    obtain ⟨current, hcurrent⟩ := State.exists_getJob hr
    obtain ⟨x, hx⟩ := h.exists_attemptForJob hcurrent
    obtain ⟨hxmem, hxj⟩ := State.attemptForJob_mem hx
    obtain ⟨row, hrow, hrowid⟩ := h.attempts.message x hxmem
    obtain ⟨m, hm⟩ := State.exists_getMessage hrow
    rw [hrowid] at hm
    have hmid := (State.getMessage_mem hm).2
    have hclimb := h.callbackChain_climbs ok.linked.descending m.messageId
    refine ⟨m, by simp [State.messageForJob, hx, hm], hclimb, ?_, ?_⟩
    · simpa using ok.linked.bounded _ _ hclimb
    · have hnodup := ok.linked.nodup (a := r.agentName) hclimb ?_
      · rwa [List.map_map] at hnodup
      · intro l hl
        obtain ⟨e, he, hem, rfl⟩ := h.upLink_some.mp hl
        rw [← h.attempt_agent hxmem hr hxj]
        exact (ok.agent e he x hxmem (hmid.symm.trans hem.symm)).symm
  · intro m hm
    refine ok.linked.descending.acyclic m (Relation.TransGen.mono ?_ m m hm)
    rintro x y ⟨e, he, hx, hy⟩
    exact ⟨e.link, h.upLink_some.mpr ⟨e, he, hy, rfl⟩, hx⟩

theorem callback_graph_bounded_ask :
    (Sample.after Sample.callbackAsk).callbackChainForParent 7 ≠ [] ∧
      ∀ m, ¬Relation.TransGen (Sample.after Sample.callbackAsk).WaitsFor m m := by
  have run : Reachable Sample.config (fun _ _ _ => True) (Sample.after Sample.callbackAsk) :=
    Sample.reachable_after (by decide +kernel)
  exact ⟨by decide +kernel, (callback_graph_bounded run).2.2⟩

/-- Agent `a` has delegated a task to agent `b` and its callback is still open. -/
def State.AgentWaits (s : State) (a b : AgentName) : Prop :=
  ∃ e ∈ s.pendingCallbackEdges, e.parentAgent = a ∧ e.childAgent = b

/-- Two agents ask each other for a callback, each in a task of its own. -/
def Sample.crossedAsks : List (Timestamp × Op) :=
  [(Mailbox.sampleTime, .submit (Sample.ask .user "agent1" none)),
    (Mailbox.sampleTime, .submit (Sample.ask .user "agent2" none)), (Mailbox.sampleTime, .tick),
    (Mailbox.sampleTime, .submit (Sample.ask (.agent "agent1") "agent2" (some .callback))),
    (Mailbox.sampleTime, .submit (Sample.ask (.agent "agent2") "agent1" (some .callback)))]

/-- The check follows one chain: two agents can wait for each other through two chains. -/
theorem agents_wait_in_cycle :
    ¬∀ s, Reachable Sample.config (fun _ _ _ => True) s →
      ∀ a, ¬Relation.TransGen s.AgentWaits a a := by
  intro hclaim
  have run : Reachable Sample.config (fun _ _ _ => True) (Sample.after Sample.crossedAsks) :=
    Sample.reachable_after (by decide +kernel)
  have hdown : (Sample.after Sample.crossedAsks).AgentWaits "agent1" "agent2" := by
    have hsome : ((Sample.after Sample.crossedAsks).pendingCallbackEdges.any fun e =>
        decide (e.parentAgent = "agent1" ∧ e.childAgent = "agent2")) = true := by decide +kernel
    simpa [State.AgentWaits] using hsome
  have hback : (Sample.after Sample.crossedAsks).AgentWaits "agent2" "agent1" := by
    have hsome : ((Sample.after Sample.crossedAsks).pendingCallbackEdges.any fun e =>
        decide (e.parentAgent = "agent2" ∧ e.childAgent = "agent1")) = true := by decide +kernel
    simpa [State.AgentWaits] using hsome
  exact hclaim _ run "agent1" (.tail (.single hdown) hback)

end CodexBridge.Dispatch
