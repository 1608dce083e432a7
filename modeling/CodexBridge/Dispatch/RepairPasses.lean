import CodexBridge.Dispatch.Recoveries

/-! The passes of a restarted daemon over its callbacks, and what they make of one that a
crash has left half-continued. -/

namespace CodexBridge.Dispatch

open AppendLog

variable {cfg : Config} {w : World} {s s' : State} {x : EdgeId} {e : CallbackEdgeRecord}

/-! ### Turns -/

/-- A turn on an edge writes rows for that edge. -/
def Turning (turn : State → CallbackEdgeRecord → State) : Prop :=
  ∀ s edge, Durable s → s.getEdge edge.edgeId = some edge →
    ∃ writes, ValidWrites edge.edgeId s writes ∧
      State.SameStores (s.applyWrites writes) (turn s edge)

namespace Turning

variable {turn : State → CallbackEdgeRecord → State} {edge : CallbackEdgeRecord}

theorem durable (ht : Turning turn) (h : Durable s) (found : s.getEdge edge.edgeId = some edge) :
    Durable (turn s edge) := by
  obtain ⟨writes, hw, memory, heq⟩ := ht s edge h found
  rw [heq]
  exact (h.applyWrites hw).memory memory

theorem aside (ht : Turning turn) (h : Durable s) (found : s.getEdge edge.edgeId = some edge)
    (hx : x ≠ edge.edgeId) : Aside x s (turn s edge) := by
  obtain ⟨writes, hw, memory, heq⟩ := ht s edge h found
  rw [heq]
  exact (Aside.writes h hw hx).trans (Aside.memory x _ memory)

/-- Turns on other edges. -/
theorem foldl (ht : Turning turn) {edges : List CallbackEdgeRecord} (h : Durable s)
    (found : ∀ y ∈ edges, s.getEdge y.edgeId = some y)
    (hn : (edges.map CallbackEdgeRecord.edgeId).Nodup)
    (hx : x ∉ edges.map CallbackEdgeRecord.edgeId) :
    Durable (edges.foldl turn s) ∧ Aside x s (edges.foldl turn s) := by
  induction edges generalizing s with
  | nil => exact ⟨h, Aside.refl x s⟩
  | cons edge edges ih =>
    rw [List.map_cons, List.nodup_cons] at hn
    rw [List.map_cons, List.mem_cons, not_or] at hx
    have hfound := found edge List.mem_cons_self
    -- the turn on the first edge keeps the rows of the others
    have hrest : ∀ y ∈ edges, (turn s edge).getEdge y.edgeId = some y := by
      intro y hy
      have hne : y.edgeId ≠ edge.edgeId := fun hid => hn.1 (hid ▸ List.mem_map_of_mem hy)
      rw [(ht.aside h hfound hne).getEdge]
      exact found y (List.mem_cons_of_mem _ hy)
    obtain ⟨hd, haside⟩ := ih (ht.durable h hfound) hrest hn.2 hx.2
    exact ⟨hd, (ht.aside h hfound hx.1).trans haside⟩

theorem mem_pendingCallbackEdges {y : CallbackEdgeRecord} :
    y ∈ s.pendingCallbackEdges ↔ s.getEdge y.edgeId = some y ∧ y.state.terminal = false := by
  rw [State.pendingCallbackEdges, List.mem_filter, State.getEdge, findLast_key_some]
  simp

/-- What a loop over the open edges does to one edge: an open edge has its turn, the turns
before and after it are beside it. -/
theorem pass (ht : Turning turn) (h : Durable s) {P Q : State → Prop}
    (hP : ∀ s s', Durable s → Aside e.edgeId s s' → P s → P s')
    (hQ : ∀ s s', Durable s → Aside e.edgeId s s' → Q s → Q s')
    (found : s.getEdge e.edgeId = some e) (hp : P s)
    (own : ∀ s₁, Durable s₁ → s₁.getEdge e.edgeId = some e → e.state.terminal = false → P s₁ →
      Q (turn s₁ e))
    (idle : ∀ s₁, e.state.terminal = true → P s₁ → Q s₁) :
    Durable (s.pendingCallbackEdges.foldl turn s) ∧
      Q (s.pendingCallbackEdges.foldl turn s) := by
  have hfound : ∀ y ∈ s.pendingCallbackEdges, s.getEdge y.edgeId = some y :=
    fun y hy => (mem_pendingCallbackEdges.mp hy).1
  have hn : (s.pendingCallbackEdges.map CallbackEdgeRecord.edgeId).Nodup :=
    (nodup_latest s.edges).sublist (List.filter_sublist.map _)
  cases hstate : e.state.terminal with
  | true =>
    have hx : e.edgeId ∉ s.pendingCallbackEdges.map CallbackEdgeRecord.edgeId := by
      intro hmem
      obtain ⟨y, hy, hid⟩ := List.mem_map.mp hmem
      obtain ⟨hy, hopen⟩ := mem_pendingCallbackEdges.mp hy
      rw [hid, found] at hy
      rw [← Option.some.inj hy, hstate] at hopen
      contradiction
    obtain ⟨hd, haside⟩ := ht.foldl h hfound hn hx
    exact ⟨hd, hQ _ _ h haside (idle s hstate hp)⟩
  | false =>
    obtain ⟨before, after, hsplit⟩ :=
      List.append_of_mem (mem_pendingCallbackEdges.mpr ⟨found, hstate⟩)
    rw [hsplit] at hfound hn ⊢
    rw [List.map_append, List.map_cons, List.nodup_append, List.nodup_cons] at hn
    obtain ⟨hbefore, ⟨hnot, hafter⟩, hdisjoint⟩ := hn
    rw [List.foldl_append, List.foldl_cons]
    obtain ⟨hd₁, haside₁⟩ := ht.foldl h (fun y hy => hfound y (List.mem_append_left _ hy)) hbefore
      (fun hmem => hdisjoint _ hmem _ List.mem_cons_self rfl)
    have hfound₁ := haside₁.getEdge.trans found
    -- the edges after this one have not had their turn
    have hrest : ∀ y ∈ after, (turn (before.foldl turn s) e).getEdge y.edgeId = some y := by
      intro y hy
      have hmem := List.mem_map_of_mem (f := CallbackEdgeRecord.edgeId) hy
      have hne : y.edgeId ≠ e.edgeId := fun hid => hnot (hid ▸ hmem)
      have hy₁ := (ht.foldl h (fun z hz => hfound z (List.mem_append_left _ hz)) hbefore
        (x := y.edgeId) fun hmem' =>
          hdisjoint _ hmem' _ (List.mem_cons_of_mem _ hmem) rfl).2
      rw [(ht.aside hd₁ hfound₁ hne).getEdge, hy₁.getEdge]
      exact hfound y (List.mem_append_right _ (List.mem_cons_of_mem _ hy))
    obtain ⟨hd₂, haside₂⟩ := ht.foldl (ht.durable hd₁ hfound₁) hrest hafter hnot
    exact ⟨hd₂, hQ _ _ (ht.durable hd₁ hfound₁) haside₂
      (own _ hd₁ hfound₁ hstate (hP _ _ h haside₁ hp))⟩

end Turning

/-! ### The sweep and the repair -/

/-- One turn of the sweep. -/
def State.sweepTurn (cfg : Config) (now : Timestamp) (s : State) (edge : CallbackEdgeRecord) :
    State :=
  let current := (s.getEdge edge.edgeId).getD edge
  if current.state.terminal then s
  else if cfg.callbackExpired now current.timeoutAt then
    failCallbackEdge cfg s current .timedOut now
  else s

theorem sweepCallbackTimeouts_eq (cfg : Config) (now : Timestamp) (s : State) :
    State.sweepCallbackTimeouts cfg now s =
      s.pendingCallbackEdges.foldl (State.sweepTurn cfg now) s := rfl

theorem sweepTurn_eq {now : Timestamp} (found : s.getEdge e.edgeId = some e) :
    State.sweepTurn cfg now s e =
      if cfg.callbackExpired now e.timeoutAt then s.applyWrites (s.failWrites cfg e .timedOut now)
      else s := by
  unfold State.sweepTurn
  rw [← State.failCallbackEdge_eq]
  simp only [found, Option.getD_some]
  split_ifs with hterm
  · simp [State.failCallbackEdge, found, hterm]
  · rfl
  · rfl
  · rfl

theorem turning_sweep (cfg : Config) (now : Timestamp) : Turning (State.sweepTurn cfg now) := by
  intro s edge h found
  rw [sweepTurn_eq found]
  split_ifs
  · exact ⟨_, validWrites_failWrites cfg (State.getEdge_mem found).1 (by decide) now, _, rfl⟩
  · exact ⟨[], trivial, _, rfl⟩

/-- The row the repair writes for an edge with a job that goes on with it. -/
def State.continuedEdge (s : State) (edge : CallbackEdgeRecord) (existing : JobRecord) :
    CallbackEdgeRecord :=
  { edge with
    state := .continuationSubmitted
    childReplyId := edge.childReplyId <|> (s.latestChildReply edge).map ReplyRecord.replyId
    childStatus := edge.childStatus <|>
      ((s.latestChildReply edge).bind s.jobForReply).map fun job => .job job.status
    continuationJobId := some existing.jobId
    continuationMessageId := some edge.parentMessageId }

theorem repairAnswer_eq_some {reply : ReplyRecord} {child : JobRecord}
    {decision : CompletionDecision} (h : s.repairAnswer e = some (reply, child, decision)) :
    s.latestChildReply e = some reply ∧
      (s.jobForReply reply <|> s.getJob e.childJobId) = some child ∧
      child.terminalDecision = some decision := by
  obtain ⟨reply', hreply, h⟩ := Option.bind_eq_some_iff.mp h
  obtain ⟨child', hchild, h⟩ := Option.bind_eq_some_iff.mp h
  obtain ⟨decision', hdecision, h⟩ := Option.map_eq_some_iff.mp h
  obtain ⟨rfl, rfl, rfl⟩ : reply' = reply ∧ child' = child ∧ decision' = decision := by
    simpa using h
  exact ⟨hreply, hchild, hdecision⟩

section Repair
variable {now : Timestamp} (found : s.getEdge e.edgeId = some e)

include found

theorem repairCallbackEdge_idle (h : e.state.terminal = true ∨
    cfg.callbackExpired now e.timeoutAt = true ∨ e.continuationJobId.isSome = true) :
    State.repairCallbackEdge cfg now s e = s := by
  unfold State.repairCallbackEdge
  simp only [found, Option.getD_some]
  split_ifs with hterm hexp hsome
  · rfl
  · rfl
  · rfl
  · rcases h with h | h | h
    · exact absurd h hterm
    · exact absurd h hexp
    · exact absurd h hsome

variable (hopen : e.state.terminal = false) (hexp : cfg.callbackExpired now e.timeoutAt = false)
  (hfree : e.continuationJobId = none)

include hopen hexp hfree

theorem repairCallbackEdge_existing {existing : JobRecord}
    (hexisting : s.existingContinuationJob e = some existing) :
    State.repairCallbackEdge cfg now s e = s.appendEdge (s.continuedEdge e existing) := by
  unfold State.repairCallbackEdge
  simp only [found, Option.getD_some, hopen, hexp, hfree, hexisting, Option.isSome_none,
    Bool.false_eq_true, ↓reduceIte]
  rfl

theorem repairCallbackEdge_unanswered (hfirst : s.existingContinuationJob e = none)
    (hanswer : s.repairAnswer e = none) : State.repairCallbackEdge cfg now s e = s := by
  unfold State.repairCallbackEdge
  simp only [found, Option.getD_some, hopen, hexp, hfree, hfirst, Option.isSome_none,
    Bool.false_eq_true, ↓reduceIte]
  split
  · rfl
  · rename_i reply hreply
    split
    · rfl
    · rename_i child hchild
      split
      · rfl
      · rename_i decision hdecision
        rw [State.repairAnswer, hreply, Option.bind_some, hchild, Option.bind_some,
          hdecision] at hanswer
        contradiction

theorem repairCallbackEdge_answered (hfirst : s.existingContinuationJob e = none)
    {reply : ReplyRecord} {child : JobRecord} {decision : CompletionDecision}
    (hanswer : s.repairAnswer e = some (reply, child, decision)) :
    State.repairCallbackEdge cfg now s e = State.submitCallbackContinuation cfg s e child
      (some reply.replyId) decision e.updatedAt := by
  obtain ⟨hreply, hchild, hdecision⟩ := repairAnswer_eq_some hanswer
  unfold State.repairCallbackEdge
  simp only [found, Option.getD_some, hopen, hexp, hfree, hfirst, hreply, hchild, hdecision,
    Option.isSome_none, Bool.false_eq_true, ↓reduceIte]

end Repair

/-- The repair submits the continuation of an edge that nobody goes on with yet. -/
theorem Undecided.call (h : Undecided s e) (hd : Durable s) {reply : ReplyRecord}
    {child : JobRecord} {decision : CompletionDecision}
    (hanswer : s.repairAnswer e = some (reply, child, decision)) :
    ContinuationCall s e e child (some reply.replyId) := by
  obtain ⟨hreply, hchild, -⟩ := repairAnswer_eq_some hanswer
  have he := (State.getEdge_mem h.found).1
  obtain ⟨hr, hm, hnotice⟩ := hd.edges.latestChildReply hd.replies he hreply
  refine ⟨hd.edges.childEdge hd.keyed h.found
    (hd.edges.jobForReply hd.keyed hd.replies he hr hm hchild), h.found, h.outstanding, h.first, ?_⟩
  rintro i hi
  exact ⟨reply, hr, Option.some.inj hi, hm, hnotice⟩

/-- The row is a further one of its edge. -/
theorem continuedEdge_valid (h : Durable s) (found : s.getEdge e.edgeId = some e)
    (hopen : e.state.terminal = false) {existing : JobRecord}
    (hexisting : s.existingContinuationJob e = some existing) :
    (Write.edge (s.continuedEdge e existing)).Valid e.edgeId s := by
  refine ⟨rfl, e, found, ⟨rfl, rfl, rfl, rfl, rfl, rfl, rfl, rfl, rfl, rfl⟩,
    edgeMove_of_open hopen _, fun r hr => ?_, fun _ => existingContinuationJob_carries hexisting⟩
  rcases hc : e.childReplyId with _ | r'
  · simp only [State.continuedEdge, hc] at hr
    obtain ⟨reply, hreply, rfl⟩ := Option.map_eq_some_iff.mp (by simpa using hr)
    obtain ⟨hmem, hm, hnotice⟩ :=
      h.edges.latestChildReply h.replies (State.getEdge_mem found).1 hreply
    exact .inr ⟨reply, hmem, rfl, hm, hnotice⟩
  · simp only [State.continuedEdge, hc] at hr
    exact .inl (by simpa using hr)

theorem turning_repair (cfg : Config) (now : EdgeId → Timestamp) :
    Turning fun s edge => State.repairCallbackEdge cfg (now edge.edgeId) s edge := by
  intro s edge h found
  by_cases hidle : edge.state.terminal = true ∨
      cfg.callbackExpired (now edge.edgeId) edge.timeoutAt = true ∨
      edge.continuationJobId.isSome = true
  · exact ⟨[], trivial, _, repairCallbackEdge_idle found hidle⟩
  · simp only [not_or, Bool.not_eq_true, Option.isSome_eq_false_iff, Option.isNone_iff_eq_none]
      at hidle
    obtain ⟨hopen, hexp, hfree⟩ := hidle
    rcases hexisting : s.existingContinuationJob edge with _ | existing
    · have hu : Undecided s edge := ⟨found, hopen, hexisting⟩
      rcases hanswer : s.repairAnswer edge with _ | ⟨reply, child, decision⟩
      · exact ⟨[], trivial, _,
          repairCallbackEdge_unanswered found hopen hexp hfree hexisting hanswer⟩
      · have call := hu.call h hanswer
        dsimp only
        rw [repairCallbackEdge_answered found hopen hexp hfree hexisting hanswer]
        exact ⟨_, call.valid h decision edge.updatedAt,
          State.submitCallbackContinuation_eq cfg call.leads hopen hexisting _ _ _⟩
    · dsimp only
      rw [repairCallbackEdge_existing found hopen hexp hfree hexisting]
      exact ⟨[.edge (s.continuedEdge edge existing)],
        ⟨continuedEdge_valid h found hopen hexisting, trivial⟩, _, rfl⟩

end CodexBridge.Dispatch
