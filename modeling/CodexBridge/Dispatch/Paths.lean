import CodexBridge.Dispatch.Inboxes

/-! Sound states and paths of acts between them. Every mailbox of a sound state is
the result of a run of the mailbox service, so what holds of such runs holds of
the mailboxes the dispatcher works on. -/

namespace CodexBridge.Dispatch

open Mailbox (InboundEventRecord SingleDelivery)

variable {cfg : Config} {s s' : State} {a : AgentName} {mb mb' : Mailbox}

/-- The logs are coherent, the mailboxes are in step with them, and every mailbox has
been served by the operations of the mailbox service alone. -/
structure Sound (cfg : Config) (s : State) : Prop where
  coherent : Coherent cfg s
  inboxes : Inboxes s
  served : ∀ a, Mailbox.Run (Mailbox.empty a) (s.mailboxes a)

theorem getLatest_head {head : InboundEventRecord} (h : mb.headPendingEvent = some head) :
    mb.getLatest head.inboundEventId = some head :=
  Mailbox.getLatest_eq_some.mpr ⟨(Mailbox.headPendingEvent_mem h).1, rfl⟩

theorem run_update (a : AgentName) (h : Mailbox.Run (s.mailboxes a) mb') (b : AgentName) :
    Mailbox.Run (s.mailboxes b) (Function.update s.mailboxes a mb' b) := by
  by_cases hb : b = a
  · subst hb
    rwa [Function.update_self]
  · rw [Function.update_of_ne hb]
    exact .refl

/-- A new identifier is new to every mailbox. -/
theorem Inboxes.fresh (h : Inboxes s) (a : AgentName) {id : InboundEventId}
    (hid : s.nextId ≤ id) :
    id ∉ (s.mailboxes a).events.map InboundEventRecord.inboundEventId := by
  intro hmem
  obtain ⟨e, he, rfl⟩ := List.mem_map.mp hmem
  exact absurd ((h.ok a).issued e he) (not_lt_of_ge hid)

theorem Inboxes.run_appendReply (h : Inboxes s) (job attempt status notice recipient t)
    (b : AgentName) :
    Mailbox.Run (s.mailboxes b)
      ((State.appendReply cfg s job attempt status notice recipient t).mailboxes b) := by
  rcases hr : recipient.bind (State.mailboxActor cfg) with _ | a
  · rw [State.appendReply_silent _ _ _ _ _ hr]
    exact .refl
  · rw [State.appendReply_queued _ _ _ _ _ hr]
    exact run_update a (.single (.enqueue _ _ _ (h.fresh a (Nat.le_succ _)))) b

theorem run_start (hc : Coherent cfg s) {agentName : AgentName} {current : JobRecord}
    (mailboxes : AgentName → Mailbox) (t : Timestamp)
    (found : s.getJob current.jobId = some current) (b : AgentName) :
    Mailbox.Run (mailboxes b) (((({ s with mailboxes := mailboxes }).dequeue agentName
      current.jobId).beginRunningJob current t).mailboxes b) := by
  obtain ⟨x, hx⟩ := hc.exists_attemptForJob found
  have hx' : (({ s with mailboxes := mailboxes }).dequeue agentName current.jobId).attemptForJob
      current.jobId = some x := hx
  rw [State.beginRunningJob_eq t hx']
  exact run_update (s := { s with mailboxes := mailboxes }) current.agentName
    (run_claimForStart _ _ _) b

/-- What an act does to a mailbox is a run of the mailbox service. -/
theorem Act.mailbox_run {act : Act} (g : act.guard cfg s) (hc : Coherent cfg s) (h : Inboxes s)
    (b : AgentName) :
    Mailbox.Run (s.mailboxes b) ((act.apply cfg s).mailboxes b) := by
  cases act with
  | accept origin job messageId i t =>
    exact run_update job.agentName (.single (.enqueue _ _ _ (h.fresh _ (Nat.le_succ _)))) b
  | continuation edge job t =>
    exact run_update job.agentName (.single (.enqueue _ _ _ (h.fresh _ (Nat.le_succ _)))) b
  | startRequest agentName current t => exact run_start hc s.mailboxes t g.1 b
  | startDelivery agentName current t =>
    simp only [Act.apply]
    rw [State.claimReplyDeliveryStart_fst]
    refine Relation.ReflTransGen.trans ?_ (run_start hc _ t g.1 b)
    obtain ⟨mb₀, hmb, hmb₀⟩ := s.claimReplyDeliveryStart_mailboxes current t
    rw [hmb]
    refine run_update _ ?_ b
    rcases hmb₀ with rfl | ⟨id, rfl⟩
    · exact .refl
    · exact .single (.claim _ _ _)
  | finish current terminal t dequeue =>
    obtain ⟨found, -, -, same, -⟩ := g
    obtain ⟨x, hx⟩ := hc.exists_attemptForJob (same.jobId ▸ found)
    simp only [Act.apply]
    rw [State.finish_eq t dequeue hx]
    exact run_update _ (run_finishMailbox _ _ _ _) b
  | reply job attempt status recipient t => exact h.run_appendReply _ _ _ _ _ _ b
  | notice edge job attempt t => exact h.run_appendReply _ _ _ _ _ _ b
  | deliver agentName head record t =>
    exact run_update agentName (.single (.rewriteHead _ _ _ _ _)) b
  | reset agentName event replyId t =>
    exact run_update agentName (.single (.rewriteHead _ _ _ _ _)) b
  | consumeDelivered agentName head job t =>
    simp only [Act.apply, State.resolveReplyDeliveryTerminal]
    split_ifs
    · exact run_update job.agentName (run_resolveDelivery _ _ _) b
    · exact .refl
  | acknowledge agentName head t => exact run_update agentName (.single (.ackReply _ _ _ _)) b
  | endRequest agentName event status t =>
    exact run_update agentName (.single (.markTerminal _ _ _ _ g.2.2.1)) b
  | discard agentName head t => exact run_update agentName (.single (.markTerminal _ _ _ _ rfl)) b
  | refresh agentName t => exact run_update agentName (.single (.rebuild t)) b
  | _ => exact .refl

theorem Act.sound {act : Act} (g : act.guard cfg s) (h : Sound cfg s) :
    Sound cfg (act.apply cfg s) :=
  ⟨Act.coherent g h.coherent, Act.inboxes g h.coherent h.inboxes,
    fun a => (h.served a).trans (Act.mailbox_run g h.coherent h.inboxes a)⟩

theorem Sound.single (h : Sound cfg s) (a : AgentName) : SingleDelivery (s.mailboxes a) :=
  Mailbox.singleDelivery_run (h.served a) (Mailbox.singleDelivery_empty a)

theorem Sound.initial (auto : Bool) : Sound cfg (State.initial auto) :=
  ⟨Coherent.initial auto, Inboxes.initial auto, fun _ => .refl⟩

/-! ### Paths -/

namespace Path

variable {permits permits' : State → Act → Prop}

theorem sound (p : Path cfg permits s s') (h : Sound cfg s) : Sound cfg s' := by
  induction p with
  | refl => exact h
  | tail _ step ih =>
    obtain ⟨act, -, g, rfl⟩ := step
    exact Act.sound g ih

theorem grows (p : Path cfg permits s s') (h : Sound cfg s) : Extends s s' := by
  induction p with
  | refl => exact Extends.refl s
  | tail p step ih =>
    obtain ⟨act, -, g, rfl⟩ := step
    exact ih.trans (Act.extends (sound p h).coherent g)

theorem mailbox_run (p : Path cfg permits s s') (h : Sound cfg s) (a : AgentName) :
    Mailbox.Run (s.mailboxes a) (s'.mailboxes a) := by
  induction p with
  | refl => exact .refl
  | tail p step ih =>
    obtain ⟨act, -, g, rfl⟩ := step
    have hs := sound p h
    exact ih.trans (Act.mailbox_run g hs.coherent hs.inboxes a)

theorem single (act : Act) (hp : permits s act) (g : act.guard cfg s) :
    Path cfg permits s (act.apply cfg s) :=
  Relation.ReflTransGen.single ⟨act, hp, g, rfl⟩

theorem mono (h : ∀ s act, permits s act → permits' s act) (p : Path cfg permits s s') :
    Path cfg permits' s s' := by
  induction p with
  | refl => exact .refl
  | tail _ step ih =>
    obtain ⟨act, hp, hg⟩ := step
    exact ih.tail ⟨act, h _ _ hp, hg⟩

/-- A loop whose turns are paths is a path. A turn may use how the loop got there. -/
theorem foldl {α : Type*} {f : State → α → State} {l : List α}
    (step : ∀ s', Path cfg permits s s' → Sound cfg s' → ∀ x ∈ l, Path cfg permits s' (f s' x))
    (h : Sound cfg s) : Path cfg permits s (l.foldl f s) := by
  induction l using List.reverseRecOn with
  | nil => exact .refl
  | append_singleton l x ih =>
    rw [List.foldl_append]
    have p := ih fun s' p hs y hy => step s' p hs y (List.mem_append_left _ hy)
    exact p.trans (step _ p (sound p h) x (List.mem_append_right _ (List.mem_singleton.mpr rfl)))

/-- What every permitted act of a path keeps, the path keeps. -/
theorem along {I : State → Prop}
    (step : ∀ s' act, Path cfg permits s s' → Sound cfg s' → I s' → permits s' act →
      act.guard cfg s' → I (act.apply cfg s'))
    (p : Path cfg permits s s') (h : Sound cfg s) (hI : I s) : I s' := by
  induction p with
  | refl => exact hI
  | tail p hstep ih =>
    obtain ⟨act, hp, g, rfl⟩ := hstep
    exact step _ act p (sound p h) ih hp g

theorem invariant {I : State → Prop}
    (step : ∀ s act, Sound cfg s → I s → permits s act → act.guard cfg s → I (act.apply cfg s))
    (p : Path cfg permits s s') (h : Sound cfg s) (hI : I s) : I s' :=
  along (fun s' act _ hs hI' hp g => step s' act hs hI' hp g) p h hI

/-- What a path keeps may be used to say more about its acts. -/
theorem refine {I : State → Prop}
    (step : ∀ s act, Sound cfg s → I s → permits s act → act.guard cfg s → I (act.apply cfg s))
    (imp : ∀ s act, Sound cfg s → I s → permits s act → permits' s act)
    (p : Path cfg permits s s') (h : Sound cfg s) (hI : I s) : Path cfg permits' s s' := by
  induction p with
  | refl => exact .refl
  | tail p hstep ih =>
    obtain ⟨act, hp, g, rfl⟩ := hstep
    exact ih.tail ⟨act, imp _ act (sound p h) (invariant step p h hI) hp, g, rfl⟩

/-- What an act of a path is may be said from where the path begins. -/
theorem strengthen
    (imp : ∀ s' act, Path cfg permits s s' → Sound cfg s' → permits s' act → act.guard cfg s' →
      permits' s' act)
    (p : Path cfg permits s s') (h : Sound cfg s) : Path cfg permits' s s' := by
  induction p with
  | refl => exact .refl
  | tail p hstep ih =>
    obtain ⟨act, hp, g, rfl⟩ := hstep
    exact ih.tail ⟨act, imp _ act p (sound p h) hp g, g, rfl⟩

end Path

end CodexBridge.Dispatch
