import CodexBridge.Dispatch.LineageRuns

/-! The jobs at a shutdown. The ids of the live jobs are read from the log once, and a
job that answers a callback on its turn may take on a further job that no turn comes
to. Which turn does is settled before the first one: the states of the callbacks and
the order of the ids decide it. -/

namespace CodexBridge.Dispatch

open AppendLog

variable {cfg : Config} {w : World} {s s₁ s₂ : State} {allowed : World → State → Op → Prop}

/-! ### The turns on the callbacks alone -/

/-- The states of the callbacks, by id. -/
abbrev EdgeStates := EdgeId → CallbackEdgeState

namespace State

def edgeStates (s : State) : EdgeStates := fun i =>
  ((s.getEdge i).map CallbackEdgeRecord.state).getD .pending

/-- The job goes on with the callback. -/
def carries (s : State) (edge : CallbackEdgeRecord) (j : JobId) : Bool :=
  (s.getJob j).any fun job => decide (job.agentName = edge.callbackTargetAgent) &&
    decide (job.request.routeOptions.callbackEdgeId = some edge.edgeId)

/-- One of the jobs is of the agent. -/
def occupied (s : State) (agentName : AgentName) (jobs : List JobId) : Bool :=
  jobs.any fun j => (s.getJob j).any fun job => decide (job.agentName = agentName)

/-- A job that has ended answers its callback, while the jobs of `rest` are still live;
`none` if the answer takes on a further job. -/
def answerTurn (cfg : Config) (s : State) (states : EdgeStates) (ended rest : List JobId)
    (job : JobRecord) : Option EdgeStates :=
  match s.callbackChildEdge job with
  | none => some states
  | some edge =>
    if (states edge.edgeId).terminal then some states
    else
      match s.existingContinuationJob edge with
      | some existing =>
        some (Function.update states edge.edgeId
          (if existing.status.terminal || ended.any (s.carries edge) then .done
            else .continuationSubmitted))
      | none =>
        if (cfg.spec edge.callbackTargetAgent).rejectWhenBusy &&
            s.occupied edge.callbackTargetAgent rest then
          some (Function.update states edge.edgeId .failed)
        else none

/-- The callback that a job has gone on with is done. -/
def doneTurn (states : EdgeStates) (job : JobRecord) : EdgeStates :=
  match job.request.routeOptions.callbackEdgeId with
  | none => states
  | some i => if (states i).over then states else Function.update states i .done

/-- The turn of one job: deliveries answer nothing, and a parent whose callback is not
over waits for it. -/
def turn (cfg : Config) (s : State) (states : EdgeStates) (ended rest : List JobId)
    (job : JobRecord) : Option EdgeStates :=
  if isReplyDeliveryJob job ||
      (s.edgeForParentJob job.jobId).any fun edge => !(states edge.edgeId).over then
    some states
  else (s.answerTurn cfg states (job.jobId :: ended) rest job).map fun states =>
    doneTurn states job

/-- None of the turns takes on a further job. -/
def endsAll (cfg : Config) (s : State) : List JobId → List JobId → EdgeStates → Bool
  | [], _, _ => true
  | j :: rest, ended, states =>
    match s.getJob j with
    | none => s.endsAll cfg rest ended states
    | some job =>
      match s.turn cfg states ended rest job with
      | none => false
      | some states' => s.endsAll cfg rest (j :: ended) states'

end State

/-! ### Lookups -/

/-- An agent has work exactly if one of its jobs is live. -/
theorem Coherent.hasOutstanding (h : Coherent cfg s) {a : AgentName} :
    s.memory.hasOutstanding a = true ↔
      ∃ j r, s.getJob j = some r ∧ r.agentName = a ∧ r.status.terminal = false := by
  constructor
  · intro hbusy
    rw [Memory.hasOutstanding, Bool.or_eq_true] at hbusy
    rcases hbusy with hactive | hqueue
    · obtain ⟨j, hj⟩ := Option.isSome_iff_exists.mp hactive
      obtain ⟨r, hr, ha, hrunning⟩ := (h.board.active a j).mp hj
      exact ⟨j, r, hr, ha, running_live hrunning⟩
    · cases hq : s.memory.queue a with
      | nil => simp [hq] at hqueue
      | cons j rest =>
        have hmem : j ∈ s.board.memory.queue a := by
          show j ∈ s.memory.queue a
          rw [hq]
          exact List.mem_cons_self
        obtain ⟨r, hr, ha, hpending⟩ := h.board.mem_queue.mp hmem
        exact ⟨j, r, hr, ha, JobStatus.not_terminal_of_pending hpending⟩
  · rintro ⟨j, r, hr, rfl, live⟩
    exact h.board.hasOutstanding hr live

/-- The callback of a job is the one of its message. -/
theorem Coherent.callbackChildEdge_iff (h : Coherent cfg s) {job r : JobRecord}
    (found : s.getJob job.jobId = some r) (edge : CallbackEdgeRecord) :
    s.callbackChildEdge job = some edge ↔
      s.getEdge edge.edgeId = some edge ∧ s.WorksOn job.jobId edge.childMessageId := by
  obtain ⟨x, hx⟩ := h.exists_attemptForJob found
  obtain ⟨hxmem, hxj⟩ := State.attemptForJob_mem hx
  obtain ⟨hsome, hnone⟩ := h.callbackChildEdge hx
  constructor
  · intro hedge
    obtain ⟨hget, hchild⟩ := hsome edge hedge
    exact ⟨hget, x, hxmem, hxj, hchild.symm⟩
  · rintro ⟨hget, hworks⟩
    have hm : edge.childMessageId = x.messageId := h.worksOn hworks ⟨x, hxmem, hxj, rfl⟩
    cases hedge : s.callbackChildEdge job with
    | none => exact absurd hm (hnone hedge edge (State.getEdge_mem hget).1)
    | some edge' =>
      obtain ⟨hget', hchild'⟩ := hsome edge' hedge
      have same := h.edges.key edge' (State.getEdge_mem hget').1 edge (State.getEdge_mem hget).1
        (.inr (.inr (.inl (hchild'.trans hm.symm))))
      rw [same.edgeId, hget] at hget'
      rw [Option.some.inj hget']

/-! ### The callbacks of a state -/

/-- The callbacks of the state are those of `s`, in the given states. -/
structure Shadow (s : State) (states : EdgeStates) (s₁ : State) : Prop where
  old : ∀ i e₁, s₁.getEdge i = some e₁ →
    ∃ e, s.getEdge i = some e ∧ Act.SameEdge e₁ e ∧ e₁.state = states i
  kept : ∀ i e, s.getEdge i = some e → ∃ e₁, s₁.getEdge i = some e₁

variable {states : EdgeStates}

theorem Shadow.refl (s : State) : Shadow s s.edgeStates s := by
  refine ⟨fun i e₁ hget => ⟨e₁, hget, ⟨rfl, rfl, rfl, rfl, rfl, rfl, rfl, rfl, rfl, rfl⟩, ?_⟩,
    fun i e hget => ⟨e, hget⟩⟩
  simp [State.edgeStates, hget]

theorem State.getEdge_appendEdge (s : State) (row : CallbackEdgeRecord) (i : EdgeId) :
    (s.appendEdge row).getEdge i = if row.edgeId = i then some row else s.getEdge i := by
  simp [State.getEdge, State.appendEdge]

theorem Shadow.of_edges (sh : Shadow s states s₁) (h : s₂.edges = s₁.edges) :
    Shadow s states s₂ := by
  have hget : ∀ i, s₂.getEdge i = s₁.getEdge i := fun i => by rw [State.getEdge, h, State.getEdge]
  exact ⟨fun i e₁ he => sh.old i e₁ (hget i ▸ he), fun i e he => hget i ▸ sh.kept i e he⟩

/-- A further row of a callback moves it to the state of the row. -/
theorem Shadow.append (sh : Shadow s states s₁) (row : CallbackEdgeRecord)
    {e₁ : CallbackEdgeRecord} (found : s₁.getEdge row.edgeId = some e₁)
    (same : Act.SameEdge row e₁) :
    Shadow s (Function.update states row.edgeId row.state) (s₁.appendEdge row) := by
  obtain ⟨e, he, same', -⟩ := sh.old _ _ found
  constructor
  · intro i e₂ hget
    rw [State.getEdge_appendEdge] at hget
    split_ifs at hget with hi
    · obtain rfl := Option.some.inj hget
      subst hi
      exact ⟨e, he, SameEdge.trans same same', by simp⟩
    · obtain ⟨e', he', same'', hstate⟩ := sh.old i e₂ hget
      exact ⟨e', he', same'', by rw [hstate, Function.update_of_ne (Ne.symm hi)]⟩
  · intro i e' he'
    rw [State.getEdge_appendEdge]
    split_ifs with hi
    · exact ⟨row, rfl⟩
    · exact sh.kept i e' he'

theorem Shadow.markCallbackDone (sh : Shadow s states s₁) (job : JobRecord) (t : Timestamp) :
    Shadow s (State.doneTurn states job) (s₁.markCallbackDone job t) := by
  unfold State.markCallbackDone State.doneTurn
  cases hcarried : job.request.routeOptions.callbackEdgeId with
  | none => exact sh
  | some i =>
    rw [Option.bind_some]
    cases hget : s₁.getEdge i with
    | none =>
      -- an id of no callback has no state to move
      dsimp only
      split_ifs
      · exact sh
      · refine ⟨fun i' e₁ he => ?_, sh.kept⟩
        obtain ⟨e, he', same, hstate⟩ := sh.old i' e₁ he
        refine ⟨e, he', same, hstate.trans (Function.update_of_ne ?_ _ _).symm⟩
        rintro rfl
        rw [hget] at he
        contradiction
    | some e₁ =>
      obtain ⟨e, -, -, hstate⟩ := sh.old i e₁ hget
      obtain rfl : e₁.edgeId = i := (State.getEdge_mem hget).2
      simp only [← CallbackEdgeState.over_iff, ← hstate]
      split_ifs
      · exact sh
      · exact sh.append { e₁ with state := .done, updatedAt := t } hget
          ⟨rfl, rfl, rfl, rfl, rfl, rfl, rfl, rfl, rfl, rfl⟩

/-! ### Answering -/

theorem recordNotice_edges (cfg : Config) (s : State) (job : JobRecord) (status recipient t) :
    (State.recordNotice cfg s job status recipient t).edges = s.edges ∧
      (State.recordNotice cfg s job status recipient t).jobs = s.jobs := by
  unfold State.recordNotice
  cases s.attemptForJob job.jobId with
  | none => exact ⟨rfl, rfl⟩
  | some x =>
    obtain ⟨hj, -, he, -⟩ := State.appendReply_logs cfg s job x status true (some recipient) t
    exact ⟨he, hj⟩

/-- A callback whose child has completed fails. -/
theorem failCallbackEdge_logs (cfg : Config) {edge : CallbackEdgeRecord}
    (found : s.getEdge edge.edgeId = some edge) (hopen : edge.state.terminal = false)
    (state : CallbackEdgeState) (t : Timestamp) :
    (State.failCallbackEdge cfg s edge state t).jobs = s.jobs ∧
      ∃ row, (State.failCallbackEdge cfg s edge state t).edges = s.edges ++ [row] ∧
        Act.SameEdge row edge ∧ row.state = state := by
  unfold State.failCallbackEdge
  simp only [found, Option.getD_some, hopen, Bool.false_eq_true, ↓reduceIte]
  have hlogs : ∀ (s : State) (edge : CallbackEdgeRecord),
      (State.recordCallbackFailureNotice cfg s edge t).edges = s.edges ∧
        (State.recordCallbackFailureNotice cfg s edge t).jobs = s.jobs := by
    intro s edge
    unfold State.recordCallbackFailureNotice
    cases s.getJob edge.parentJobId with
    | none => exact ⟨rfl, rfl⟩
    | some parent => exact recordNotice_edges cfg s parent .failed edge.originalCaller t
  exact ⟨(hlogs _ _).2, _, (hlogs _ _).1, ⟨rfl, rfl, rfl, rfl, rfl, rfl, rfl, rfl, rfl, rfl⟩, rfl⟩

/-- The agent of a callback is configured, so only being busy keeps it from a job. -/
theorem validateTargetsAvailable_error {a : AgentName} (known : a ∈ cfg.agents) :
    (∃ e, s.validateTargetsAvailable cfg [a] = .error e) ↔
      (cfg.spec a).rejectWhenBusy = true ∧ s.memory.hasOutstanding a = true := by
  unfold State.validateTargetsAvailable
  rw [if_pos (by simpa using known)]
  split_ifs with h
  · simpa using h
  · simpa using h

/-- The answer to an open callback: another job goes on with it, its agent turns it away,
or it takes on a further job. -/
theorem submitCallbackContinuation_logs (cfg : Config) {edge : CallbackEdgeRecord}
    {child : JobRecord} (hcurrent : (s.edgeForChildJob child.jobId).getD edge = edge)
    (hopen : edge.state.terminal = false) (known : edge.callbackTargetAgent ∈ cfg.agents)
    (reply : Option ReplyId)
    (decision : CompletionDecision) (t : Timestamp)
    {s' : State} (hs' : State.submitCallbackContinuation cfg s edge child reply decision t = s') :
    match s.existingContinuationJob edge with
    | some existing => s'.jobs = s.jobs ∧ ∃ row, s'.edges = s.edges ++ [row] ∧
        Act.SameEdge row edge ∧
          row.state = if existing.status.terminal then .done else .continuationSubmitted
    | none =>
      if (cfg.spec edge.callbackTargetAgent).rejectWhenBusy &&
          s.memory.hasOutstanding edge.callbackTargetAgent then
        s'.jobs = s.jobs ∧ ∃ row₁ row₂, s'.edges = s.edges ++ [row₁] ++ [row₂] ∧
          Act.SameEdge row₁ edge ∧ Act.SameEdge row₂ edge ∧ row₂.state = .failed
      else ∃ job, s'.jobs = s.jobs ++ [job] ∧ job.jobId = s.nextId ∧
        job.status.pending = true := by
  subst hs'
  unfold State.submitCallbackContinuation
  rw [hcurrent]
  simp only [hopen, Bool.false_eq_true, ↓reduceIte]
  cases hexisting : s.existingContinuationJob edge with
  | some existing =>
    exact ⟨rfl, _, rfl, ⟨rfl, rfl, rfl, rfl, rfl, rfl, rfl, rfl, rfl, rfl⟩, rfl⟩
  | none =>
    dsimp only
    set updated : CallbackEdgeRecord := { edge with
      state := .childCompleted
      childReplyId := reply
      childStatus := some (.job child.status)
      updatedAt := t } with hupdated
    have hvalid := validateTargetsAvailable_error (s := s.appendEdge updated) known
    have hmemory : (s.appendEdge updated).memory = s.memory := rfl
    rw [hmemory] at hvalid
    have htarget : updated.callbackTargetAgent = edge.callbackTargetAgent := rfl
    unfold State.submitContinuationJob
    rw [htarget]
    cases hcheck : (s.appendEdge updated).validateTargetsAvailable cfg
        [edge.callbackTargetAgent] with
    | error e =>
      obtain ⟨hrejects, hbusy⟩ := hvalid.mp ⟨e, hcheck⟩
      simp only [hrejects, hbusy, Bool.and_self, ↓reduceIte]
      have hfound : (s.appendEdge updated).getEdge updated.edgeId = some updated := by
        simp [State.getEdge, State.appendEdge]
      obtain ⟨hjobs, row, hedges, same, hstate⟩ := failCallbackEdge_logs cfg hfound rfl .failed t
      have hupd : Act.SameEdge updated edge := ⟨rfl, rfl, rfl, rfl, rfl, rfl, rfl, rfl, rfl, rfl⟩
      exact ⟨hjobs, updated, row, hedges, hupd, SameEdge.trans same hupd, hstate⟩
    | ok u =>
      have hfree : ¬((cfg.spec edge.callbackTargetAgent).rejectWhenBusy &&
          s.memory.hasOutstanding edge.callbackTargetAgent) = true := by
        rw [Bool.and_eq_true, ← hvalid]
        rintro ⟨e, he⟩
        rw [hcheck] at he
        contradiction
      rw [if_neg hfree]
      refine ⟨_, rfl, rfl, ?_⟩
      show (State.pendingStatus _ _).pending = true
      unfold State.pendingStatus
      split_ifs <;> rfl

/-- The reply of a job that has ended, before the callback it went on with is done. -/
theorem recordCompletionReply_logs (h : Sound cfg s) {j : JobId} {terminal : JobRecord}
    (hf : Finished s j terminal) (decision : CompletionDecision) (t : Timestamp) :
    ∃ u : State, State.recordCompletionReply cfg s terminal decision t =
        u.markCallbackDone terminal t ∧
      match s.callbackChildEdge terminal with
      | none => u.jobs = s.jobs ∧ u.edges = s.edges
      | some edge =>
        if edge.state.terminal then u.jobs = s.jobs ∧ u.edges = s.edges
        else
          match s.existingContinuationJob edge with
          | some existing => u.jobs = s.jobs ∧ ∃ row, u.edges = s.edges ++ [row] ∧
              Act.SameEdge row edge ∧
                row.state = if existing.status.terminal then .done else .continuationSubmitted
          | none =>
            if (cfg.spec edge.callbackTargetAgent).rejectWhenBusy &&
                s.memory.hasOutstanding edge.callbackTargetAgent then
              u.jobs = s.jobs ∧ ∃ row₁ row₂, u.edges = s.edges ++ [row₁] ++ [row₂] ∧
                Act.SameEdge row₁ edge ∧ Act.SameEdge row₂ edge ∧ row₂.state = .failed
            else ∃ job, u.jobs = s.jobs ++ [job] ∧ s.nextId ≤ job.jobId ∧
              job.status.pending = true := by
  obtain ⟨c, hc, -, -⟩ := hf.found
  obtain ⟨x, hx⟩ := h.coherent.exists_attemptForJob hc
  have hx' : s.attemptForJob terminal.jobId = some x := hf.jobId.symm ▸ hx
  have hc' : s.getJob terminal.jobId = some c := hf.jobId.symm ▸ hc
  unfold State.recordCompletionReply
  cases hchild : s.callbackChildEdge terminal with
  | none =>
    refine ⟨_, rfl, ?_⟩
    simp only [State.recordReply, hx', ↓reduceIte]
    obtain ⟨hj, -, he, -⟩ := State.appendReply_logs cfg s terminal x
      (State.replyStatusForJob terminal.status) false (some terminal.request.fromActor) t
    exact ⟨hj, he⟩
  | some edge =>
    obtain ⟨found, y, hymem, hyj, hym⟩ := (h.coherent.callbackChildEdge_iff hc' edge).mp hchild
    obtain ⟨hmem, -⟩ := State.getEdge_mem found
    refine ⟨_, rfl, ?_⟩
    simp only [State.recordReply, hx', Bool.false_eq_true, ↓reduceIte]
    rw [State.appendReply_silent terminal x (State.replyStatusForJob terminal.status) false t rfl]
    set recorded : State := { s with
      replies := s.replies ++ [s.replyRow terminal x (State.replyStatusForJob terminal.status)
        false t]
      messages := { s with replies := s.replies ++ [s.replyRow terminal x
        (State.replyStatusForJob terminal.status) false t] } |>.refreshMessageLog x.messageId t
      nextId := s.nextId + 1 }
    have hcurrent : (recorded.edgeForChildJob terminal.jobId).getD edge = edge :=
      h.coherent.edges.childEdge h.coherent.attempts.key found ⟨y, hymem, hyj, hym⟩
    have known : edge.callbackTargetAgent ∈ cfg.agents := by
      obtain ⟨r, hr, -, ha, -⟩ := h.coherent.edges.parent edge hmem
      rw [h.coherent.edges.target edge hmem, ← ha]
      exact h.coherent.board.known r hr
    by_cases hterm : edge.state.terminal = true
    · rw [if_pos hterm]
      unfold State.submitCallbackContinuation
      rw [hcurrent]
      simp only [hterm, ↓reduceIte]
      exact ⟨rfl, rfl⟩
    · rw [if_neg hterm]
      have hlogs := submitCallbackContinuation_logs cfg hcurrent (by simpa using hterm) known
        (some s.nextId) decision t rfl
      have hexisting : recorded.existingContinuationJob edge = s.existingContinuationJob edge := rfl
      rw [hexisting] at hlogs
      cases hexists : s.existingContinuationJob edge with
      | some existing =>
        rw [hexists] at hlogs
        exact hlogs
      | none =>
        rw [hexists] at hlogs
        dsimp only at hlogs ⊢
        split_ifs at hlogs ⊢
        · exact hlogs
        · obtain ⟨job, hjobs, hid, hpending⟩ := hlogs
          exact ⟨job, hjobs, hid ▸ Nat.le_succ _, hpending⟩

theorem markCallbackDone_jobs (s : State) (job : JobRecord) (t : Timestamp) :
    (s.markCallbackDone job t).jobs = s.jobs := by
  unfold State.markCallbackDone
  split
  · rfl
  · split_ifs <;> rfl

/-- The reply of a job takes on one further job at most. -/
theorem recordCompletionReply_rows (h : Sound cfg s) {j : JobId} {terminal : JobRecord}
    (hf : Finished s j terminal) (decision : CompletionDecision) (t : Timestamp) :
    ∃ rows, (State.recordCompletionReply cfg s terminal decision t).jobs = s.jobs ++ rows ∧
      ∀ r ∈ rows, s.nextId ≤ r.jobId := by
  obtain ⟨u, hu, hlogs⟩ := recordCompletionReply_logs h hf decision t
  have hquiet : u.jobs = s.jobs → ∃ rows, u.jobs = s.jobs ++ rows ∧ ∀ r ∈ rows,
    s.nextId ≤ r.jobId :=
    fun hjobs => ⟨[], by rw [hjobs, List.append_nil], fun r hr => absurd hr List.not_mem_nil⟩
  rw [hu, markCallbackDone_jobs]
  split at hlogs
  · exact hquiet hlogs.1
  · rename_i edge _
    by_cases hterm : edge.state.terminal = true
    · rw [if_pos hterm] at hlogs
      exact hquiet hlogs.1
    · rw [if_neg hterm] at hlogs
      split at hlogs
      · exact hquiet hlogs.1
      · split_ifs at hlogs
        · exact hquiet hlogs.1
        · obtain ⟨job, hjobs, hle, -⟩ := hlogs
          refine ⟨[job], hjobs, fun r hr => ?_⟩
          rw [List.mem_singleton.mp hr]
          exact hle

/-! ### One turn -/

theorem Act.quiet {act : Act} (h : Coherent cfg s) (g : act.guard cfg s)
    (quiet : s.autoReplyDelivery = false) : (act.apply cfg s).autoReplyDelivery = false := by
  cases act with
  | startRequest agentName current t =>
    obtain ⟨x, hx⟩ := h.exists_attemptForJob g.1
    have hx' : (s.dequeue agentName current.jobId).attemptForJob current.jobId = some x := hx
    simp only [Act.apply]
    rw [State.beginRunningJob_eq t hx']
    exact quiet
  | startDelivery agentName current t =>
    obtain ⟨x, hx⟩ := h.exists_attemptForJob g.1
    simp only [Act.apply]
    rw [State.claimReplyDeliveryStart_fst]
    have hx' : (State.dequeue ({ s with
      mailboxes := (s.claimReplyDeliveryStart current t).1.mailboxes } : State) agentName
        current.jobId).attemptForJob current.jobId = some x := hx
    rw [State.beginRunningJob_eq t hx']
    exact quiet
  | finish current terminal t dequeue =>
    obtain ⟨found, -, -, same, -⟩ := g
    obtain ⟨x, hx⟩ := h.exists_attemptForJob (same.jobId ▸ found)
    simp only [Act.apply]
    rw [State.finish_eq t dequeue hx]
    exact quiet
  | reply job attempt status recipient t =>
    simp only [Act.apply]
    cases hr : recipient.bind (State.mailboxActor cfg) with
    | none =>
      rw [State.appendReply_silent _ _ _ _ _ hr]
      exact quiet
    | some a =>
      rw [State.appendReply_queued _ _ _ _ _ hr]
      exact quiet
  | notice edge job attempt t =>
    simp only [Act.apply]
    cases hr : (some edge.originalCaller).bind (State.mailboxActor cfg) with
    | none =>
      rw [State.appendReply_silent _ _ _ _ _ hr]
      exact quiet
    | some a =>
      rw [State.appendReply_queued _ _ _ _ _ hr]
      exact quiet
  | consumeDelivered agentName head job t =>
    simp only [Act.apply]
    rw [State.resolveReplyDeliveryTerminal_eq]
    exact quiet
  | disableAuto => rfl
  | _ => exact quiet

/-- The row that a turn of the shutdown writes. -/
def State.shutdownRow (w : World) (current : JobRecord) : JobRecord :=
  State.completedRow w current (State.shutdownDecision w current.jobId)

/-- The state in which a turn of the shutdown has ended its job. -/
def State.shutdownEnd (w : World) (s : State) (current : JobRecord) : State :=
  s.finish (State.shutdownRow w current) (w.clock 0 (.shutdown current.jobId)) true

/-- A job ended by the shutdown is not retried, its reply is not rewritten, and with
automatic delivery off nothing is delivered. -/
theorem terminateJob_quiet (h : Sound cfg s) (quiet : s.autoReplyDelivery = false) {j : JobId}
    {current : JobRecord} (found : s.getJob j = some current)
    (live : current.status.terminal = false) :
    State.terminateJob cfg w s j =
      if State.isReplyDeliveryJob current then s.shutdownEnd w current
      else
        match ((s.shutdownEnd w current).edgeForParentJob j).filter fun edge =>
          !edge.state.over with
        | some edge =>
          ((s.shutdownEnd w current).appendJob
            (State.delegatedTerminalJob (State.shutdownRow w current)
            edge)).markParentMessageWaiting edge (w.clock 0 (.shutdown j))
        | none =>
          State.recordCompletionReply cfg (s.shutdownEnd w current) (State.shutdownRow w current)
            (State.mergeTerminalDecision w j (State.shutdownDecision w j))
            (w.clock 0 (.shutdown j)) := by
  obtain rfl : current.jobId = j := (State.getJob_mem found).2
  set decision := State.shutdownDecision w current.jobId with hdecision
  have g : (Act.finish current (State.shutdownRow w current) (w.clock 0 (.shutdown current.jobId))
      true).guard cfg s := finish_guard decision found live fun hf => by contradiction
  have heq : State.terminateJob cfg w s current.jobId = (s.shutdownEnd w current).conclude cfg w
      s.jobs.length current (State.shutdownRow w current)
      (State.mergeTerminalDecision w current.jobId decision)
        (w.clock 0 (.shutdown current.jobId)) := by
    have hturn : State.terminateJob cfg w s current.jobId =
        State.terminateJobForShutdown cfg w s current := by
      simp [State.terminateJob, found, live]
    rw [hturn]
    exact completeJob_eq decision found live
      (Memory.clearActive_leave s.memory current.agentName current.jobId)
  have hs : Sound cfg (s.shutdownEnd w current) := Act.sound g h
  have hquiet : (s.shutdownEnd w current).autoReplyDelivery = false := Act.quiet h.coherent g quiet
  have hplan : (s.shutdownEnd w current).automaticRetryPlan cfg current
      (State.mergeTerminalDecision w current.jobId decision) = false :=
    automaticRetryPlan_of_not_failed (by simp [State.mergeTerminalDecision, hdecision,
      State.shutdownDecision])
  have hrewrites : (s.shutdownEnd w current).rewritesReply cfg current
      (State.mergeTerminalDecision w current.jobId decision) = false := by
    simp [State.rewritesReply, State.retryableFailureContext, State.isRetryableFailure,
      State.shouldRenderTimeoutInspectionReply, State.mergeTerminalDecision, hdecision,
      State.shutdownDecision]
  have hover : (fun edge : CallbackEdgeRecord => edge.state ≠ .failed && edge.state ≠ .timedOut &&
      edge.state ≠ .done) = fun edge => !edge.state.over := by
    funext edge
    cases edge.state <;> rfl
  rw [heq]
  unfold State.conclude
  by_cases hd : State.isReplyDeliveryJob current = true
  · simp [hd, hquiet]
  · have hd' : State.isReplyDeliveryJob current = false := by simpa using hd
    have hid : (State.shutdownRow w current).jobId = current.jobId := rfl
    have hsettle : State.settleCompletion cfg w s.jobs.length (s.shutdownEnd w current) current
        (State.shutdownRow w current) (State.mergeTerminalDecision w current.jobId decision)
        (w.clock 0 (.shutdown current.jobId)) =
        (match ((s.shutdownEnd w current).edgeForParentJob current.jobId).filter fun edge =>
            !edge.state.over with
          | some edge =>
            ((s.shutdownEnd w current).appendJob (State.delegatedTerminalJob
              (State.shutdownRow w current) edge)).markParentMessageWaiting edge
                (w.clock 0 (.shutdown current.jobId))
          | none => State.recordCompletionReply cfg (s.shutdownEnd w current)
              (State.shutdownRow w current)
              (State.mergeTerminalDecision w current.jobId decision)
              (w.clock 0 (.shutdown current.jobId)), false) := by
      unfold State.settleCompletion
      rw [hover, hid]
      cases ((s.shutdownEnd w current).edgeForParentJob current.jobId).filter fun edge =>
          !edge.state.over with
      | some edge => rfl
      | none => simp only [hplan, hrewrites, Bool.false_eq_true, ↓reduceIte]
    have p : Path cfg (fun _ _ => True) (s.shutdownEnd w current) (State.settleCompletion cfg w
        s.jobs.length (s.shutdownEnd w current) current (State.shutdownRow w current)
        (State.mergeTerminalDecision w current.jobId decision)
        (w.clock 0 (.shutdown current.jobId))).1 :=
      settleCompletion_path (fun _ _ _ => trivial) (fun _ _ _ _ _ _ _ _ _ => trivial) hs
        (finished_finish h.coherent g rfl) (sameJob_completedRow w current decision) hd' _ _
    have hsettled := p.invariant (fun s act hs hq _ g => Act.quiet hs.coherent g hq) hs hquiet
    rw [hsettle] at hsettled
    simp only [hd', Bool.false_eq_true, ↓reduceIte, hsettle]
    dsimp only at hsettled
    rw [hsettled]
    simp only [Bool.false_eq_true, ↓reduceIte]

/-! ### The turns follow the callbacks -/

/-- The shutdown has come so far: certain jobs have ended, the others are live, the
callbacks are in the given states, and no job has been taken on. -/
structure Torn (cfg : Config) (s : State) (ended rest : List JobId) (states : EdgeStates)
    (s₁ : State) : Prop where
  sound : Sound cfg s₁
  quiet : s₁.autoReplyDelivery = false
  grows : Extends s s₁
  shadow : Shadow s states s₁
  jobs : ∀ j r, s₁.getJob j = some r → ∃ r₀, s.getJob j = some r₀ ∧ SameJob r r₀
  live : ∀ j, s₁.live j ↔ j ∈ rest
  carried : ∀ edge, (s₁.existingContinuationJob edge).map (fun r => r.status.terminal) =
    if ended.any (s.carries edge) then some true
    else (s.existingContinuationJob edge).map fun r => r.status.terminal

variable {ended rest : List JobId} {j : JobId} {current job : JobRecord}

/-- Rows that end one job leave the others as they are. -/
theorem getJob_of_rows {rows : List JobRecord} (hne : rows ≠ []) (hjobs : s₂.jobs = s₁.jobs ++ rows)
    (hrows : ∀ r ∈ rows, SameJob r current ∧ r.status.terminal = true)
    (hid : current.jobId = j) :
    (∃ r, s₂.getJob j = some r ∧ SameJob r current ∧ r.status.terminal = true) ∧
      ∀ j', j' ≠ j → s₂.getJob j' = s₁.getJob j' := by
  constructor
  · obtain ⟨r, hr, hlast⟩ := findLast_append_of_all s₁.jobs hne fun r hr =>
      decide_eq_true ((hrows r hr).1.jobId.trans hid)
    exact ⟨r, by rw [State.getJob, hjobs, hlast], hrows r hr⟩
  · intro j' hj'
    rw [State.getJob, hjobs]
    refine findLast_append_of_none fun r hr => ?_
    simp [(hrows r hr).1.jobId, hid, Ne.symm hj']

/-- The rows of one job among those that go on with a callback. -/
theorem existingContinuationJob_of_rows {rows : List JobRecord} (hne : rows ≠ [])
    (hjobs : s₂.jobs = s₁.jobs ++ rows)
    (hrows : ∀ r ∈ rows, SameJob r current ∧ r.status.terminal = true)
    (found : s.getJob j = some job) (same : SameJob current job) (edge : CallbackEdgeRecord) :
    (s₂.existingContinuationJob edge).map (fun r => r.status.terminal) =
      if s.carries edge j then some true
      else (s₁.existingContinuationJob edge).map fun r => r.status.terminal := by
  have hcarries : ∀ r ∈ rows, (decide (r.agentName = edge.callbackTargetAgent) &&
      decide (r.request.routeOptions.callbackEdgeId = some edge.edgeId)) = s.carries edge j := by
    intro r hr
    have hsame := SameJob.trans (hrows r hr).1 same
    rw [State.carries, found, Option.any_some, hsame.agentName, hsame.request]
  have hlog : ∀ u : State, u.existingContinuationJob edge = findLast (fun r : JobRecord =>
      decide (r.agentName = edge.callbackTargetAgent) &&
        decide (r.request.routeOptions.callbackEdgeId = some edge.edgeId)) u.jobs := by
    intro u
    rw [State.existingContinuationJob, State.listAgent, findLast_eq_getLast?, findLast_eq_getLast?,
      List.filter_filter]
    congr 1
    apply List.filter_congr
    intro r _
    rw [Bool.and_comm]
  rw [hlog, hlog, hjobs]
  split_ifs with hc
  · obtain ⟨r, hr, hlast⟩ := findLast_append_of_all s₁.jobs hne
      fun r hr => (hcarries r hr).trans hc
    rw [hlast, Option.map_some, (hrows r hr).2]
  · rw [findLast_append_of_none fun r hr => (hcarries r hr).trans (by simpa using hc)]

/-- A turn that ends its job and takes on no other. -/
theorem Torn.turn_ended (torn : Torn cfg s ended (j :: rest) states s₁)
    (nodup : (j :: rest).Nodup) (found₁ : s₁.getJob j = some current) {states' : EdgeStates}
    (sound : Sound cfg s₂) (quiet : s₂.autoReplyDelivery = false) (ext : Extends s₁ s₂)
    (shadow : Shadow s states' s₂) {rows : List JobRecord} (hne : rows ≠ [])
    (hjobs : s₂.jobs = s₁.jobs ++ rows)
    (hrows : ∀ r ∈ rows, SameJob r current ∧ r.status.terminal = true) :
    Torn cfg s (j :: ended) rest states' s₂ := by
  obtain ⟨job, found, same⟩ := torn.jobs j current found₁
  obtain ⟨⟨r, hr, hsame, hterminal⟩, hothers⟩ :=
    getJob_of_rows hne hjobs hrows (State.getJob_mem found₁).2
  refine ⟨sound, quiet, torn.grows.trans ext, shadow, fun j' r' hr' => ?_, fun j' => ?_,
    fun edge => ?_⟩
  · by_cases hj' : j' = j
    · subst hj'
      rw [hr] at hr'
      obtain rfl := Option.some.inj hr'
      exact ⟨job, found, SameJob.trans hsame same⟩
    · rw [hothers j' hj'] at hr'
      exact torn.jobs j' r' hr'
  · by_cases hj' : j' = j
    · subst hj'
      refine iff_of_false ?_ (List.nodup_cons.mp nodup).1
      rintro ⟨r', hr', hlive⟩
      rw [hr] at hr'
      rw [← Option.some.inj hr', hterminal] at hlive
      contradiction
    · have hlive : s₂.live j' ↔ s₁.live j' := by
        unfold State.live
        rw [hothers j' hj']
      rw [hlive, torn.live j', List.mem_cons, or_iff_right hj']
  · rw [existingContinuationJob_of_rows hne hjobs hrows found same edge, torn.carried edge,
      List.any_cons]
    cases s.carries edge j <;> rfl

/-- A state with the same jobs, and the callbacks elsewhere. -/
theorem Torn.same_jobs (torn : Torn cfg s ended rest states s₁) {states' : EdgeStates}
    (sound : Sound cfg s₂) (quiet : s₂.autoReplyDelivery = false) (ext : Extends s₁ s₂)
    (shadow : Shadow s states' s₂) (hjobs : s₂.jobs = s₁.jobs) :
    Torn cfg s ended rest states' s₂ := by
  have hget : ∀ j, s₂.getJob j = s₁.getJob j := fun j => by rw [State.getJob, hjobs, State.getJob]
  refine ⟨sound, quiet, torn.grows.trans ext, shadow, fun j r hr => torn.jobs j r (hget j ▸ hr),
    fun j => ?_, fun edge => ?_⟩
  · rw [← torn.live j, State.live, hget j, State.live]
  · rw [← torn.carried edge, State.existingContinuationJob, State.existingContinuationJob,
      State.listAgent, State.listAgent, hjobs]

/-- Waiting for a callback is read off its state. -/
theorem Torn.waits (torn : Torn cfg s ended rest states s₁) (h : Coherent cfg s) (j : JobId) :
    (s₁.edgeForParentJob j).any (fun edge => !edge.state.over) =
      (s.edgeForParentJob j).any fun edge => !(states edge.edgeId).over := by
  have hiff := h.edges.edgeForParentJob_iff (j := j)
  have hiff₁ := torn.sound.coherent.edges.edgeForParentJob_iff (j := j)
  cases hparent : s.edgeForParentJob j with
  | none =>
    cases hparent₁ : s₁.edgeForParentJob j with
    | none => rfl
    | some edge₁ =>
      obtain ⟨hget, hj⟩ := (hiff₁ _).mp hparent₁
      obtain ⟨edge, hedge, same, -⟩ := torn.shadow.old _ _ hget
      have hsome := (hiff _).mpr ⟨same.edgeId ▸ hedge, same.parentJobId.symm.trans hj⟩
      rw [hparent] at hsome
      contradiction
  | some edge =>
    obtain ⟨hget, hj⟩ := (hiff _).mp hparent
    obtain ⟨edge₁, hget₁⟩ := torn.shadow.kept _ _ hget
    obtain ⟨edge', hedge', same, hstate⟩ := torn.shadow.old _ _ hget₁
    obtain rfl := Option.some.inj (hget.symm.trans hedge')
    rw [(hiff₁ _).mpr ⟨same.edgeId.symm ▸ hget₁, same.parentJobId.trans hj⟩]
    simp only [Option.any_some, hstate]

/-- The callback of a job. -/
theorem Torn.childEdge (torn : Torn cfg s ended rest states s₁) (h : Coherent cfg s)
    (found : s.getJob job.jobId = some job) {row : JobRecord} (hid : row.jobId = job.jobId) :
    match s.callbackChildEdge job with
    | none => s₁.callbackChildEdge row = none
    | some edge => ∃ edge₁, s₁.callbackChildEdge row = some edge₁ ∧ Act.SameEdge edge₁ edge ∧
        edge₁.state = states edge.edgeId := by
  obtain ⟨c, hc⟩ := State.exists_getJob (torn.grows.jobs (State.getJob_mem found).1)
  have hiff := h.callbackChildEdge_iff found
  have hiff₁ := @Coherent.callbackChildEdge_iff _ _ torn.sound.coherent row c (hid.symm ▸ hc)
  have hworks : ∀ m, s₁.WorksOn row.jobId m ↔ s.WorksOn job.jobId m := by
    intro m
    rw [hid]
    refine ⟨torn.grows.worksOn h torn.sound.coherent found, ?_⟩
    rintro ⟨x, hx, hxj, hxm⟩
    exact ⟨x, torn.grows.attempts hx, hxj, hxm⟩
  cases hchild : s.callbackChildEdge job with
  | none =>
    dsimp only
    cases hchild₁ : s₁.callbackChildEdge row with
    | none => rfl
    | some edge₁ =>
      obtain ⟨hget, hm⟩ := (hiff₁ _).mp hchild₁
      obtain ⟨edge, hedge, same, -⟩ := torn.shadow.old _ _ hget
      have hsome := (hiff _).mpr ⟨same.edgeId ▸ hedge, same.childMessageId ▸ (hworks _).mp hm⟩
      rw [hchild] at hsome
      contradiction
  | some edge =>
    obtain ⟨hget, hm⟩ := (hiff _).mp hchild
    obtain ⟨edge₁, hget₁⟩ := torn.shadow.kept _ _ hget
    obtain ⟨edge', hedge', same, hstate⟩ := torn.shadow.old _ _ hget₁
    obtain rfl := Option.some.inj (hget.symm.trans hedge')
    exact ⟨edge₁, (hiff₁ _).mpr ⟨same.edgeId.symm ▸ hget₁,
      same.childMessageId.symm ▸ (hworks _).mpr hm⟩, same, hstate⟩

/-- The agents with work are those of the jobs to come. -/
theorem Torn.occupied (torn : Torn cfg s ended rest states s₁) (a : AgentName) :
    s₁.memory.hasOutstanding a = s.occupied a rest := by
  rw [Bool.eq_iff_iff, torn.sound.coherent.hasOutstanding, State.occupied, List.any_eq_true]
  constructor
  · rintro ⟨j, r, hr, ha, live⟩
    obtain ⟨job, found, same⟩ := torn.jobs j r hr
    refine ⟨j, (torn.live j).mp ⟨r, hr, live⟩, ?_⟩
    rw [found, Option.any_some]
    exact decide_eq_true (same.agentName.symm.trans ha)
  · rintro ⟨j, hj, hjob⟩
    obtain ⟨r, hr, live⟩ := (torn.live j).mpr hj
    obtain ⟨job, found, same⟩ := torn.jobs j r hr
    rw [found, Option.any_some] at hjob
    exact ⟨j, r, hr, same.agentName.trans (of_decide_eq_true hjob), live⟩

theorem existingContinuationJob_congr {edge edge' : CallbackEdgeRecord}
    (same : Act.SameEdge edge edge') :
    s.existingContinuationJob edge = s.existingContinuationJob edge' := by
  rw [State.existingContinuationJob, State.existingContinuationJob, same.edgeId,
    same.callbackTargetAgent]

/-- If no job goes on with a callback, then none of those that have ended did. -/
theorem carries_of_none {edge : CallbackEdgeRecord} (h : s.existingContinuationJob edge = none)
    (jobs : List JobId) : jobs.any (s.carries edge) = false := by
  rw [List.any_eq_false]
  intro j _ hcarries
  obtain ⟨r, hr, hrow⟩ := (Option.any_eq_true _ _).mp hcarries
  rw [Bool.and_eq_true] at hrow
  have hnone := findLast_none.mp h r (List.mem_filter.mpr ⟨(State.getJob_mem hr).1, hrow.1⟩)
  rw [hrow.2] at hnone
  contradiction

theorem shutdownEnd_logs (h : Sound cfg s) (found : s.getJob j = some current) :
    (s.shutdownEnd w current).jobs = s.jobs ++ [State.shutdownRow w current] ∧
      (s.shutdownEnd w current).edges = s.edges ∧
      (s.shutdownEnd w current).nextId = s.nextId := by
  obtain rfl : current.jobId = j := (State.getJob_mem found).2
  obtain ⟨x, hx⟩ := h.coherent.exists_attemptForJob found
  have hx' : s.attemptForJob (State.shutdownRow w current).jobId = some x := hx
  rw [State.shutdownEnd, State.finish_eq _ true hx']
  exact ⟨rfl, rfl, rfl⟩

/-- The job of a turn has ended, and its reply and its callback are still to come. -/
theorem Torn.shutdownEnd (torn : Torn cfg s ended (j :: rest) states s₁)
    (nodup : (j :: rest).Nodup) (found : s₁.getJob j = some current)
    (live : current.status.terminal = false) :
    Torn cfg s (j :: ended) rest states (s₁.shutdownEnd w current) ∧
      Finished (s₁.shutdownEnd w current) j (State.shutdownRow w current) := by
  have hid : current.jobId = j := (State.getJob_mem found).2
  have g : (Act.finish current (State.shutdownRow w current) (w.clock 0 (.shutdown current.jobId))
      true).guard cfg s₁ := finish_guard (State.shutdownDecision w current.jobId) found live
        fun hf => by contradiction
  obtain ⟨hjobs, hedges, -⟩ := shutdownEnd_logs (w := w) torn.sound found
  refine ⟨torn.turn_ended nodup found (Act.sound g torn.sound)
    (Act.quiet torn.sound.coherent g torn.quiet) (Act.extends torn.sound.coherent g)
    (torn.shadow.of_edges hedges) (List.cons_ne_nil _ _) hjobs ?_,
    finished_finish torn.sound.coherent g hid⟩
  intro r hr
  obtain rfl := List.mem_singleton.mp hr
  exact ⟨sameJob_completedRow w current _, completedRow_terminal w current _⟩

/-- The answer of a job that has ended. -/
theorem Torn.answer (torn : Torn cfg s (j :: ended) rest states s₁) (h : Sound cfg s)
    (found : s.getJob j = some job) {row : JobRecord} (hf : Finished s₁ j row)
    (same : SameJob row job) (decision : CompletionDecision) (t : Timestamp)
    (hs₂ : State.recordCompletionReply cfg s₁ row decision t = s₂) :
    match (s.answerTurn cfg states (j :: ended) rest job).map fun states =>
        State.doneTurn states job with
    | some states' => Torn cfg s (j :: ended) rest states' s₂
    | none => ∃ k, s₁.nextId ≤ k ∧ s₂.live k := by
  obtain ⟨u, hu, hlogs⟩ := recordCompletionReply_logs torn.sound hf decision t
  obtain rfl : s₂ = u.markCallbackDone row t := hs₂.symm.trans hu
  have p := recordCompletionReply_path torn.sound hf decision t
  rw [hu] at p
  have quiet : (u.markCallbackDone row t).autoReplyDelivery = false :=
    p.invariant (fun s act hs hq _ g => Act.quiet hs.coherent g hq) torn.sound torn.quiet
  have hmarked := markCallbackDone_jobs u row t
  have hid : job.jobId = j := (State.getJob_mem found).2
  have hdone : ∀ states, State.doneTurn states row = State.doneTurn states job := by
    intro states
    rw [State.doneTurn, State.doneTurn, same.request]
  have hcontinue : ∀ states', u.jobs = s₁.jobs → Shadow s states' u →
      Torn cfg s (j :: ended) rest (State.doneTurn states' job) (u.markCallbackDone row t) :=
    fun states' hjobs hshadow => torn.same_jobs (p.sound torn.sound) quiet (p.grows torn.sound)
      (hdone states' ▸ hshadow.markCallbackDone row t) (hmarked.trans hjobs)
  have found' : s.getJob job.jobId = some job := hid.symm ▸ found
  have hchild := torn.childEdge h.coherent found' same.jobId
  unfold State.answerTurn
  cases hedge : s.callbackChildEdge job with
  | none =>
    rw [hedge] at hchild
    rw [hchild] at hlogs
    exact hcontinue states hlogs.1 (torn.shadow.of_edges hlogs.2)
  | some edge =>
    rw [hedge] at hchild
    obtain ⟨edge₁, hedge₁, hsame, hstate⟩ := hchild
    rw [hedge₁] at hlogs
    dsimp only at hlogs ⊢
    rw [hstate] at hlogs
    have hget : s₁.getEdge edge₁.edgeId = some edge₁ := by
      obtain ⟨c, hc, -, -⟩ := hf.found
      exact ((torn.sound.coherent.callbackChildEdge_iff (hf.jobId.symm ▸ hc) edge₁).mp hedge₁).1
    have hmove : ∀ (v : State) (row' : CallbackEdgeRecord), v.edges = s₁.edges ++ [row'] →
        Act.SameEdge row' edge₁ → Shadow s (Function.update states edge.edgeId row'.state) v := by
      intro v row' hedges hrow
      have hid' : row'.edgeId = edge.edgeId := hrow.edgeId.trans hsame.edgeId
      have hshadow := torn.shadow.append row' (hrow.edgeId ▸ hget) hrow
      rw [hid'] at hshadow
      exact hshadow.of_edges hedges
    have hcarried := torn.carried edge
    rw [← existingContinuationJob_congr hsame] at hcarried
    by_cases hterm : (states edge.edgeId).terminal = true
    · rw [if_pos hterm] at hlogs ⊢
      exact hcontinue states hlogs.1 (torn.shadow.of_edges hlogs.2)
    · rw [if_neg hterm] at hlogs ⊢
      cases hexists : s.existingContinuationJob edge with
      | some existing =>
        rw [hexists] at hcarried
        cases hexists₁ : s₁.existingContinuationJob edge₁ with
        | none =>
          rw [hexists₁, Option.map_none] at hcarried
          split_ifs at hcarried
          all_goals contradiction
        | some existing₁ =>
          have hstatus : existing₁.status.terminal =
              (existing.status.terminal || (j :: ended).any (s.carries edge)) := by
            rw [hexists₁, Option.map_some, Option.map_some] at hcarried
            split_ifs at hcarried with hany
            · rw [Option.some.inj hcarried, hany, Bool.or_true]
            · rw [Option.some.inj hcarried, Bool.eq_false_of_not_eq_true hany, Bool.or_false]
          rw [hexists₁] at hlogs
          obtain ⟨hjobs, row', hedges, hrow, hrowstate⟩ := hlogs
          have hshadow := hmove u row' hedges hrow
          rw [hrowstate, hstatus] at hshadow
          exact hcontinue _ hjobs hshadow
      | none =>
        rw [hexists, carries_of_none hexists, if_neg (by simp), Option.map_none,
          Option.map_eq_none_iff] at hcarried
        rw [hcarried] at hlogs
        dsimp only at hlogs ⊢
        rw [torn.occupied, hsame.callbackTargetAgent] at hlogs
        split_ifs at hlogs ⊢
        · -- the agent turns the callback away, after the child was marked completed
          obtain ⟨hjobs, row₁, row₂, hedges, hrow₁, hrow₂, hfailed⟩ := hlogs
          have hshadow₁ := hmove (s₁.appendEdge row₁) row₁ rfl hrow₁
          have hid₂ : row₂.edgeId = edge.edgeId := hrow₂.edgeId.trans hsame.edgeId
          have hget₁ : (s₁.appendEdge row₁).getEdge row₂.edgeId = some row₁ := by
            rw [State.getEdge_appendEdge, if_pos (hrow₁.edgeId.trans hrow₂.edgeId.symm)]
          have hshadow₂ := hshadow₁.append row₂ hget₁
            (SameEdge.trans hrow₂ (SameEdge.symm hrow₁))
          rw [hid₂, Function.update_idem, hfailed] at hshadow₂
          exact hcontinue _ hjobs (hshadow₂.of_edges hedges)
        · -- the callback takes on a further job
          obtain ⟨job', hjobs, hle, hpending⟩ := hlogs
          refine ⟨job'.jobId, hle, job', ?_, JobStatus.not_terminal_of_pending hpending⟩
          rw [State.getJob, hmarked, hjobs]
          simp

/-- A turn of the shutdown is a turn on the callbacks, unless it takes on a further job. -/
theorem Torn.turn (torn : Torn cfg s ended (j :: rest) states s₁) (h : Sound cfg s)
    (nodup : (j :: rest).Nodup) (found : s.getJob j = some job) :
    match s.turn cfg states ended rest job with
    | some states' => Torn cfg s (j :: ended) rest states' (State.terminateJob cfg w s₁ j)
    | none => ∃ k, s₁.nextId ≤ k ∧ (State.terminateJob cfg w s₁ j).live k := by
  obtain ⟨current, found₁, live⟩ := (torn.live j).mpr List.mem_cons_self
  obtain ⟨job', found', same⟩ := torn.jobs j current found₁
  obtain rfl := Option.some.inj (found.symm.trans found')
  obtain rfl : job.jobId = j := (State.getJob_mem found).2
  obtain ⟨q, -⟩ := terminateJob_path (w := w) torn.sound job.jobId
  have hs₂ := q.sound torn.sound
  have hquiet₂ : (State.terminateJob cfg w s₁ job.jobId).autoReplyDelivery = false :=
    q.invariant (fun s act hs hq _ g => Act.quiet hs.coherent g hq) torn.sound torn.quiet
  obtain ⟨hjobs, hedges, hnext⟩ := shutdownEnd_logs (w := w) torn.sound found₁
  obtain ⟨torn₁, hf⟩ := torn.shutdownEnd (w := w) nodup found₁ live
  have hrow := sameJob_completedRow w current (State.shutdownDecision w current.jobId)
  have hdelivery : State.isReplyDeliveryJob job = State.isReplyDeliveryJob current := by
    simp only [State.isReplyDeliveryJob, same.request, same.providerOptions]
  have hwaits := torn₁.waits h.coherent job.jobId
  have heq := terminateJob_quiet (w := w) torn.sound torn.quiet found₁ live
  unfold State.turn
  rw [hdelivery, ← hwaits]
  by_cases hd : State.isReplyDeliveryJob current = true
  · rw [if_pos hd] at heq
    rw [heq, hd]
    exact torn₁
  · rw [if_neg hd] at heq
    have hd' : State.isReplyDeliveryJob current = false := by simpa using hd
    rw [hd', Bool.false_or]
    cases hparent : ((s₁.shutdownEnd w current).edgeForParentJob job.jobId).filter fun edge =>
        !edge.state.over with
    | some edge =>
      -- the parent waits: its row is written once more
      rw [hparent] at heq
      dsimp only at heq
      obtain ⟨hedge, hopen⟩ := Option.filter_eq_some_iff.mp hparent
      rw [hedge, Option.any_some, if_pos hopen]
      have hmarked : ∀ (v : State) (t : Timestamp),
        (v.markParentMessageWaiting edge t).jobs = v.jobs ∧
          (v.markParentMessageWaiting edge t).edges = v.edges := by
        intro v t
        unfold State.markParentMessageWaiting
        split_ifs <;> exact ⟨rfl, rfl⟩
      refine torn.turn_ended nodup found₁ hs₂ hquiet₂ (q.grows torn.sound)
        (torn.shadow.of_edges ?_) (List.cons_ne_nil (State.shutdownRow w current)
          [State.delegatedTerminalJob (State.shutdownRow w current) edge]) ?_ ?_
      · rw [heq, (hmarked _ _).2]
        exact hedges
      · rw [heq, (hmarked _ _).1, State.appendJob, hjobs, List.append_assoc]
        rfl
      · intro r hr
        have hended := completedRow_terminal w current (State.shutdownDecision w current.jobId)
        rcases List.mem_cons.mp hr with rfl | hr
        · exact ⟨hrow, hended⟩
        · obtain rfl := List.mem_singleton.mp hr
          have hdelegated : SameJob (State.delegatedTerminalJob (State.shutdownRow w current) edge)
              (State.shutdownRow w current) := ⟨rfl, rfl, rfl, rfl⟩
          exact ⟨SameJob.trans hdelegated hrow, hended⟩
    | none =>
      rw [hparent] at heq
      dsimp only at heq
      have hnone : ((s₁.shutdownEnd w current).edgeForParentJob job.jobId).any
          (fun edge => !edge.state.over) = false := by
        cases hedge : (s₁.shutdownEnd w current).edgeForParentJob job.jobId with
        | none => rfl
        | some edge =>
          rw [hedge] at hparent
          simpa [Option.filter] using hparent
      rw [hnone, if_neg (by simp), ← hnext]
      exact torn₁.answer h found hf (SameJob.trans hrow same) _ _ heq.symm

/-! ### All turns -/

/-- A turn adds rows of its job, and of a further job at most. -/
theorem terminateJob_rows (h : Sound cfg s) (quiet : s.autoReplyDelivery = false) (j : JobId) :
    ∃ rows, (State.terminateJob cfg w s j).jobs = s.jobs ++ rows ∧
      ∀ r ∈ rows, r.jobId = j ∨ s.nextId ≤ r.jobId := by
  by_cases hlive : s.live j
  · obtain ⟨current, found, live⟩ := hlive
    have hid : current.jobId = j := (State.getJob_mem found).2
    have hrow : (State.shutdownRow w current).jobId = j := hid
    obtain ⟨hjobs, -, hnext⟩ := shutdownEnd_logs (w := w) h found
    have heq := terminateJob_quiet (w := w) h quiet found live
    by_cases hd : State.isReplyDeliveryJob current = true
    · rw [if_pos hd] at heq
      refine ⟨[State.shutdownRow w current], heq ▸ hjobs, fun r hr => .inl ?_⟩
      rw [List.mem_singleton.mp hr, hrow]
    · rw [if_neg hd] at heq
      split at heq
      · rename_i edge _
        refine ⟨[State.shutdownRow w current,
          State.delegatedTerminalJob (State.shutdownRow w current) edge], ?_, fun r hr => .inl ?_⟩
        · rw [heq, State.markParentMessageWaiting]
          split_ifs
          · rw [State.appendJob, hjobs, List.append_assoc]
            rfl
          · rw [State.setMessageState, State.appendJob, hjobs, List.append_assoc]
            rfl
        · rcases List.mem_cons.mp hr with rfl | hr
          · exact hrow
          · rw [List.mem_singleton.mp hr]
            exact hrow
      · have g : (Act.finish current (State.shutdownRow w current)
            (w.clock 0 (.shutdown current.jobId)) true).guard cfg s :=
          finish_guard (State.shutdownDecision w current.jobId) found live
            fun hf => by contradiction
        obtain ⟨rows, hrows, hle⟩ := recordCompletionReply_rows (Act.sound g h)
          (finished_finish h.coherent g hid)
          (State.mergeTerminalDecision w j (State.shutdownDecision w j)) (w.clock 0 (.shutdown j))
        refine ⟨State.shutdownRow w current :: rows, ?_, fun r hr => ?_⟩
        · rw [heq]
          refine hrows.trans ?_
          show (s.shutdownEnd w current).jobs ++ rows = _
          rw [hjobs, List.append_assoc]
          rfl
        · rcases List.mem_cons.mp hr with rfl | hr
          · exact .inl hrow
          · exact .inr (hnext ▸ hle r hr)
  · exact ⟨[], by rw [terminateJob_ended hlive, List.append_nil], fun r hr => absurd hr
      List.not_mem_nil⟩

theorem terminateJob_sound (h : Sound cfg s) (quiet : s.autoReplyDelivery = false) (j : JobId) :
    Sound cfg (State.terminateJob cfg w s j) ∧
      (State.terminateJob cfg w s j).autoReplyDelivery = false := by
  obtain ⟨q, -⟩ := terminateJob_path (w := w) h j
  exact ⟨q.sound h, q.invariant (fun s act hs hq _ g => Act.quiet hs.coherent g hq) h quiet⟩

/-- A turn leaves the other jobs live. -/
theorem terminateJob_live (h : Sound cfg s) (quiet : s.autoReplyDelivery = false) {k : JobId}
    (hk : s.live k) (hne : k ≠ j) : (State.terminateJob cfg w s j).live k := by
  obtain ⟨rows, hjobs, hrows⟩ := terminateJob_rows (w := w) h quiet j
  obtain ⟨r, hr, live⟩ := hk
  obtain ⟨hmem, hid⟩ := State.getJob_mem hr
  have hlt : k < s.nextId := hid ▸ h.coherent.jobs.issued r hmem
  refine ⟨r, ?_, live⟩
  rw [State.getJob, hjobs, findLast_append_of_none]
  · exact hr
  · intro r' hr'
    rcases hrows r' hr' with hj | hle
    · exact decide_eq_false fun hk => hne (hk.symm.trans hj)
    · exact decide_eq_false fun hk => absurd hlt (Nat.not_lt.mpr (hk ▸ hle))

theorem terminateJobs_live (h : Sound cfg s) (quiet : s.autoReplyDelivery = false) {k : JobId}
    (hk : s.live k) {jobs : List JobId} (hne : k ∉ jobs) :
    (jobs.foldl (State.terminateJob cfg w) s).live k := by
  induction jobs generalizing s with
  | nil => exact hk
  | cons j jobs ih =>
    rw [List.mem_cons, not_or] at hne
    obtain ⟨hj, hjobs⟩ := hne
    obtain ⟨hs, hq⟩ := terminateJob_sound (w := w) h quiet j
    exact ih hs hq (terminateJob_live h quiet hk hj) hjobs

/-- The turns that are left end every job exactly if none of them takes on a further
one. -/
theorem Torn.foldl (torn : Torn cfg s ended rest states s₁) (h : Sound cfg s)
    (nodup : rest.Nodup) :
    (∀ j, ¬(rest.foldl (State.terminateJob cfg w) s₁).live j) ↔
      s.endsAll cfg rest ended states = true := by
  induction rest generalizing s₁ ended states with
  | nil =>
    refine iff_of_true (fun j hj => ?_) rfl
    exact absurd ((torn.live j).mp hj) List.not_mem_nil
  | cons j rest ih =>
    obtain ⟨current, found₁, live⟩ := (torn.live j).mpr List.mem_cons_self
    obtain ⟨job, found, -⟩ := torn.jobs j current found₁
    have hturn := torn.turn (w := w) h nodup found
    rw [List.foldl_cons, State.endsAll, found]
    dsimp only
    cases hstates : s.turn cfg states ended rest job with
    | some states' =>
      rw [hstates] at hturn
      exact ih hturn (List.nodup_cons.mp nodup).2
    | none =>
      rw [hstates] at hturn
      obtain ⟨k, hk, hlive⟩ := hturn
      refine iff_of_false (fun hnone => ?_) Bool.false_ne_true
      obtain ⟨hs, hq⟩ := terminateJob_sound (w := w) torn.sound torn.quiet j
      refine hnone k (terminateJobs_live hs hq hlive fun hmem => ?_)
      -- the jobs to come have been issued before
      obtain ⟨r, hr, -⟩ := (torn.live k).mpr (List.mem_cons_of_mem j hmem)
      obtain ⟨hrmem, hid⟩ := State.getJob_mem hr
      exact absurd (hid ▸ torn.sound.coherent.jobs.issued r hrmem) (Nat.not_lt.mpr hk)

/-- The dispatcher after a project stop has switched delivery off and ended the jobs. -/
def State.stopped (cfg : Config) (w : World) (s : State) : State :=
  s.disableAutoReplyDelivery.terminateNonterminalJobs cfg w

/-- None of the jobs that are live takes on a further job when it is ended. -/
def State.endsLive (cfg : Config) (s : State) : Bool :=
  s.endsAll cfg (s.latestNonterminalJobIds cfg) [] s.edgeStates

theorem nodup_latestNonterminalJobIds (h : Coherent cfg s) :
    (s.latestNonterminalJobIds cfg).Nodup := by
  unfold State.latestNonterminalJobIds
  rw [List.nodup_flatMap]
  constructor
  · intro a _
    exact (List.Sublist.map JobRecord.jobId List.filter_sublist).nodup (nodup_latest _)
  · refine cfg.nodup.imp fun {a b} hab j hj hj' => ?_
    obtain ⟨r, hr, rfl⟩ := List.mem_map.mp hj
    obtain ⟨r', hr', hid⟩ := List.mem_map.mp hj'
    obtain ⟨hmem, ha⟩ := List.mem_filter.mp (mem_of_mem_latest (List.mem_of_mem_filter hr))
    obtain ⟨hmem', hb⟩ := List.mem_filter.mp (mem_of_mem_latest (List.mem_of_mem_filter hr'))
    have same := h.board.same r hmem r' hmem' hid.symm
    exact hab ((of_decide_eq_true ha).symm.trans (same.agentName.trans (of_decide_eq_true hb)))

/-- A dispatcher without live jobs has nothing active and nothing queued. -/
theorem Coherent.no_live_iff (h : Coherent cfg s) :
    ((∀ j r, s.getJob j = some r → r.status.terminal = true) ∧
      ∀ a, s.memory.active a = none ∧ s.memory.queue a = []) ↔ ∀ j, ¬s.live j := by
  constructor
  · rintro ⟨hended, -⟩ j ⟨r, hr, live⟩
    rw [hended j r hr] at live
    contradiction
  · intro hnone
    have hended : ∀ j r, s.getJob j = some r → r.status.terminal = true := by
      intro j r hr
      by_contra live
      exact hnone j ⟨r, hr, by simpa using live⟩
    refine ⟨hended, fun a => ⟨?_, ?_⟩⟩
    · cases hactive : s.memory.active a with
      | none => rfl
      | some j =>
        obtain ⟨r, hr, -, hrunning⟩ := (h.board.active a j).mp hactive
        exact absurd ⟨r, hr, running_live hrunning⟩ (hnone j)
    · rw [List.eq_nil_iff_forall_not_mem]
      intro j hj
      obtain ⟨r, hr, -, hpending⟩ := h.board.mem_queue.mp hj
      exact hnone j ⟨r, hr, JobStatus.not_terminal_of_pending hpending⟩

/-- A shutdown leaves no live job exactly if none of the jobs it ends takes on a further
one for its callback. -/
theorem shutdown_leaves_no_live_job (run : Reachable cfg allowed s) :
    ((∀ j r, (s.stopped cfg w).getJob j = some r → r.status.terminal = true) ∧
      ∀ a, (s.stopped cfg w).memory.active a = none ∧ (s.stopped cfg w).memory.queue a = []) ↔
      s.endsLive cfg = true := by
  have h := run.sound
  have g : Act.disableAuto.guard cfg s := trivial
  have hs : Sound cfg s.disableAutoReplyDelivery := Act.sound g h
  have torn : Torn cfg s [] (s.latestNonterminalJobIds cfg) s.edgeStates
      s.disableAutoReplyDelivery := by
    refine ⟨hs, rfl, .same rfl rfl rfl rfl le_rfl, (Shadow.refl s).of_edges rfl,
      fun j r hr => ⟨r, hr, SameJob.refl r⟩, fun j => ?_, fun edge => rfl⟩
    exact (mem_latestNonterminalJobIds h.coherent).symm
  have hstopped : Sound cfg (s.stopped cfg w) :=
    (terminateNonterminalJobs_path hs).sound hs
  rw [hstopped.coherent.no_live_iff]
  exact torn.foldl h (nodup_latestNonterminalJobIds h.coherent)

theorem shutdown_leaves_no_live_job_two_requests :
    (Sample.after Sample.twoRequests).latestNonterminalJobIds Sample.config = [1, 6] ∧
      ((∀ j r, ((Sample.after Sample.twoRequests).stopped Sample.config
          (Sample.world Mailbox.sampleTime)).getJob j = some r → r.status.terminal = true) ∧
        ∀ a, ((Sample.after Sample.twoRequests).stopped Sample.config
            (Sample.world Mailbox.sampleTime)).memory.active a = none ∧
          ((Sample.after Sample.twoRequests).stopped Sample.config
            (Sample.world Mailbox.sampleTime)).memory.queue a = []) := by
  have run : Reachable Sample.config (fun _ _ _ => True) (Sample.after Sample.twoRequests) :=
    Sample.reachable_after (by decide +kernel)
  exact ⟨by decide +kernel, (shutdown_leaves_no_live_job run).mpr (by decide +kernel)⟩

/-- The parent has ended and waits for its callback. Ending the callback's job takes on
the continuation, and no turn comes to it. -/
theorem shutdown_leaves_continuation :
    Reachable Sample.config (fun _ _ _ => True) (Sample.after Sample.parentEnded) ∧
      ((Sample.after Sample.parentEnded).stopped Sample.config
        (Sample.world Mailbox.sampleTime)).memory.queue "agent1" = [12] ∧
      ¬∀ j r, ((Sample.after Sample.parentEnded).stopped Sample.config
        (Sample.world Mailbox.sampleTime)).getJob j = some r → r.status.terminal = true := by
  refine ⟨Sample.reachable_after (by decide +kernel), by decide +kernel, fun hended => ?_⟩
  have hlive : (((Sample.after Sample.parentEnded).stopped Sample.config
      (Sample.world Mailbox.sampleTime)).getJob 12).any fun r => !r.status.terminal := by
    decide +kernel
  obtain ⟨r, hr, live⟩ := (Option.any_eq_true _ _).mp hlive
  rw [hended 12 r hr] at live
  exact Bool.false_ne_true live

end CodexBridge.Dispatch
