import CodexBridge.Dispatch.LifecyclePaths

/-! Submission as a path of acts. The program writes all jobs first, then the message,
then the attempts; the acts accept one job at a time. Both orders leave the same
state, since the jobs and the queues are not read in between. -/

namespace CodexBridge.Dispatch

open AppendLog

variable {cfg : Config} {w : World} {s s' : State} {permits : State → Act → Prop}

/-! ### Drafts -/

/-- The jobs of a submission in the log and in the queues. -/
def State.drafted (s : State) (jobs : List JobRecord) : State :=
  { s with
    jobs := s.jobs ++ jobs
    memory := jobs.foldl (fun m job => m.enqueue job.agentName job.jobId) s.memory }

/-- The jobs of a submission, under consecutive identifiers. -/
structure Drafts (request : MessageEnvelope) (targets : List AgentName) (n : ℕ)
    (jobs : List JobRecord) : Prop where
  ids : jobs.map JobRecord.jobId = List.range' n jobs.length
  agents : jobs.map JobRecord.agentName = targets
  options : ∀ job ∈ jobs, job.providerOptions = ProviderOptions.none
  request : ∀ job ∈ jobs, job.request = messageForAgent request job.agentName
  pending : ∀ job ∈ jobs, job.status.pending = true

theorem enqueueDrafts_spec (cfg : Config) (s : State) (plan : SubmissionPlan) (t : Timestamp) :
    ∃ jobs, s.enqueueDrafts cfg plan t =
        (({ s with nextId := s.nextId + 1 + jobs.length }).drafted jobs, jobs) ∧
      Drafts plan.request plan.targets (s.nextId + 1) jobs := by
  unfold State.enqueueDrafts
  induction plan.targets using List.reverseRecOn with
  | nil =>
    refine ⟨[], ?_, rfl, rfl, by simp, by simp, by simp⟩
    simp [State.drafted]
  | append_singleton targets a ih =>
    obtain ⟨jobs, heq, d⟩ := ih
    rw [List.foldl_append, heq]
    simp only [List.foldl_cons, List.foldl_nil]
    set s₁ := ({ s with nextId := s.nextId + 1 + jobs.length } : State).drafted jobs
    set job := s₁.buildJobRecord cfg a (messageForAgent plan.request a) ProviderOptions.none
      plan.submissionId t
    refine ⟨jobs ++ [job], ?_, ?_, ?_, ?_, ?_, ?_⟩
    · simp only [State.drafted, State.enqueueJob, State.appendJob, List.foldl_append,
        List.foldl_cons, List.foldl_nil, List.length_append, List.length_singleton,
        Prod.mk.injEq, and_true, s₁]
      rw [List.append_assoc]
      rfl
    · rw [List.map_append, d.ids, List.length_append, List.length_singleton, List.range'_concat]
      simp [job, State.buildJobRecord, s₁, State.drafted]
    · rw [List.map_append, d.agents]
      rfl
    · intro r hr
      rcases List.mem_append.mp hr with hr | hr
      · exact d.options r hr
      · rw [List.mem_singleton.mp hr]
        rfl
    · intro r hr
      rcases List.mem_append.mp hr with hr | hr
      · exact d.request r hr
      · rw [List.mem_singleton.mp hr]
        rfl
    · intro r hr
      rcases List.mem_append.mp hr with hr | hr
      · exact d.pending r hr
      · rw [List.mem_singleton.mp hr]
        exact State.pendingStatus_pending _ _

theorem Drafts.bounds {request targets n jobs} (d : Drafts request targets n jobs)
    {job : JobRecord} (hjob : job ∈ jobs) : n ≤ job.jobId ∧ job.jobId < n + jobs.length := by
  have hmem : job.jobId ∈ List.range' n jobs.length := d.ids ▸ List.mem_map_of_mem hjob
  simpa using hmem

theorem Drafts.nodup {request targets n jobs} (d : Drafts request targets n jobs) :
    (jobs.map JobRecord.jobId).Nodup := by
  rw [d.ids]
  exact List.nodup_range'

/-! ### Admission -/

theorem setMessageLog_self {messages : List MessageRecord} {id : MessageId} {m : MessageRecord}
    (h : findLast (fun r => decide (r.messageId = id)) messages = some m) (t : Timestamp) :
    setMessageLog messages id m.messageState t = messages := by
  rw [setMessageLog, h]
  simp

/-- Admitting a job whose message is queued leaves the messages alone. -/
theorem accept_eq {job : JobRecord} {m : MessageRecord} {id : MessageId} (i t)
    (h : s.getMessage id = some m) (hs : m.messageState = .queued) :
    s.accept job id i t = (s.enqueueJob job).recordAttempt id job i t := by
  have hlog := setMessageLog_self h t
  rw [hs] at hlog
  unfold State.accept State.setMessageState
  rw [show ((s.enqueueJob job).recordAttempt id job i t).messages = s.messages from rfl, hlog]
  rfl

/-- One order of writes or the other. -/
theorem recordAttempts_drafted {m : MessageRecord} {id : MessageId} (t : Timestamp)
    (jobs : List JobRecord) (h : s.getMessage id = some m) (hs : m.messageState = .queued) :
    jobs.foldl (fun s job => s.recordAttempt id job 0 t) (s.drafted jobs) =
      jobs.foldl (fun s job => s.accept job id 0 t) s := by
  induction jobs generalizing s with
  | nil => simp [State.drafted]
  | cons job jobs ih =>
    simp only [List.foldl_cons]
    have hcomm : (s.drafted (job :: jobs)).recordAttempt id job 0 t =
        (s.accept job id 0 t).drafted jobs := by
      rw [accept_eq 0 t h hs]
      simp only [State.drafted, State.recordAttempt, State.enqueueJob, State.appendJob,
        State.appendAttempt, List.append_assoc, List.singleton_append, List.foldl_cons]
    rw [hcomm]
    refine ih ?_
    rw [accept_eq 0 t h hs]
    exact h

/-- What is still to be admitted of a submission. -/
structure Admissible (cfg : Config) (s : State) (message : MessageRecord)
    (jobs : List JobRecord) : Prop where
  found : s.getMessage message.messageId = some message
  queued : message.messageState = .queued
  parent : ∀ e ∈ s.edges, e.parentMessageId ≠ message.messageId
  child : ∀ e ∈ s.edges, e.childMessageId ≠ message.messageId
  nodup : (jobs.map JobRecord.jobId).Nodup
  new : ∀ job ∈ jobs, Act.NewJob s cfg job
  options : ∀ job ∈ jobs, job.providerOptions = ProviderOptions.none
  caller : ∀ job ∈ jobs, message.fromActor = job.request.fromActor
  agent : ∀ job ∈ jobs, job.agentName ∈ message.targetAgents
  agents : (jobs.map JobRecord.agentName).Nodup
  first : ∀ job ∈ jobs, ∀ x ∈ s.attempts, x.messageId = message.messageId →
    x.agentName ≠ job.agentName

theorem Admissible.accept {message : MessageRecord} {job : JobRecord} {jobs : List JobRecord}
    (h : Admissible cfg s message (job :: jobs)) (t : Timestamp) :
    (Act.accept .submitted job message.messageId 0 t).guard cfg s ∧
      Admissible cfg (s.accept job message.messageId 0 t) message jobs := by
  have hnew := h.new job (by simp)
  refine ⟨⟨hnew, h.options job (by simp), ⟨message, h.found, h.queued, h.caller job (by simp),
    h.agent job (by simp)⟩, h.parent, h.child, h.first job (by simp), rfl⟩, ?_⟩
  rw [accept_eq 0 t h.found h.queued]
  obtain ⟨hfirst, hrest⟩ := List.nodup_cons.mp h.nodup
  obtain ⟨hagent, hagents⟩ := List.nodup_cons.mp h.agents
  refine ⟨h.found, h.queued, h.parent, h.child, hrest, ?_, fun r hr => h.options r (by simp [hr]),
    fun r hr => h.caller r (by simp [hr]), fun r hr => h.agent r (by simp [hr]), hagents, ?_⟩
  swap
  · intro r hr x hx hxm
    rcases List.mem_append.mp hx with hx | hx
    · exact h.first r (by simp [hr]) x hx hxm
    · rw [List.mem_singleton.mp hx]
      intro ha
      have ha : job.agentName = r.agentName := ha
      exact hagent (ha ▸ List.mem_map_of_mem hr)
  intro r hr
  have hr' := h.new r (by simp [hr])
  have hle : s.nextId ≤ s.nextId + 2 := Nat.le_add_right _ _
  refine ⟨hr'.issued.trans_le hle, ?_, ?_, hr'.pending, hr'.known,
    fun e he => (hr'.edge_issued e he).trans_le hle⟩
  · intro x hx hid
    rcases List.mem_append.mp hx with hx | hx
    · exact hr'.fresh x hx hid
    · rw [List.mem_singleton.mp hx] at hid
      exact hfirst (hid ▸ List.mem_map_of_mem hr)
  · intro x hx
    rcases List.mem_append.mp hx with hx | hx
    · exact hr'.distinct x hx
    · rw [List.mem_singleton.mp hx]
      exact hr'.issued.ne'

theorem accept_path {message : MessageRecord} {jobs : List JobRecord} (t : Timestamp)
    (haccept : ∀ s, ∀ job ∈ jobs, permits s (.accept .submitted job message.messageId 0 t))
    (h : Admissible cfg s message jobs) :
    Path cfg permits s (jobs.foldl (fun s job => s.accept job message.messageId 0 t) s) := by
  induction jobs generalizing s with
  | nil => exact .refl
  | cons job jobs ih =>
    obtain ⟨g, hrest⟩ := h.accept t
    exact Relation.ReflTransGen.trans (Path.single _ (haccept s job List.mem_cons_self) g)
      (ih (fun s job hjob => haccept s job (List.mem_cons_of_mem _ hjob)) hrest)

/-! ### Registration -/

/-- What the routing checks of a callback have found. -/
theorem validateCallbackRequest_ok {request : MessageEnvelope} {u : Unit}
    (hroute : requestCallbackRoute request = true)
    (h : s.validateCallbackRequest cfg request = .ok u) :
    ∃ parent, s.activeParentJob cfg request.fromActor = some parent ∧
      s.edgeForParentJob parent.jobId = none ∧
      s.validateCallbackChain cfg parent request.target = .ok () := by
  unfold State.validateCallbackRequest at h
  rw [hroute] at h
  simp only [Bool.not_true, Bool.false_eq_true, ↓reduceIte] at h
  split_ifs at h
  split at h
  · contradiction
  · rename_i parent hparent
    split at h
    · contradiction
    · split_ifs at h with hedge
      exact ⟨parent, hparent, by simpa using hedge, h⟩

/-- What the check of the chain above a parent message has found. -/
theorem validateCallbackChain_ok {parent : JobRecord} {target : Target} {m : MessageRecord}
    {u : Unit} (hm : s.messageForJob parent.jobId = some m)
    (h : s.validateCallbackChain cfg parent target = .ok u) :
    (s.callbackChainForParent m.messageId).length + 1 ≤ max 1 cfg.maxCallbackDepth ∧
      ∀ a, target = .agent a → a ∉ parent.agentName ::
        (s.callbackChainForParent m.messageId).map CallbackEdgeRecord.parentAgent := by
  unfold State.validateCallbackChain at h
  rw [hm] at h
  dsimp only at h
  split_ifs at h with hdepth hcycle
  refine ⟨by omega, ?_⟩
  rintro a rfl ha
  apply hcycle
  rw [List.any_eq_true]
  refine ⟨a, ?_, by simp⟩
  rcases List.mem_cons.mp ha with rfl | ha
  · exact List.mem_cons_self
  · exact List.mem_cons_of_mem _ (List.mem_append_left _ ha)

theorem activeParentJob_active {actor : Actor} {parent : JobRecord}
    (hp : s.activeParentJob cfg actor = some parent) :
    ∃ a, s.memory.active a = some parent.jobId ∧ s.getJob parent.jobId = some parent := by
  unfold State.activeParentJob at hp
  split at hp
  · split_ifs at hp
    obtain ⟨id, hactive, hget⟩ := Option.bind_eq_some_iff.mp hp
    obtain rfl := (State.getJob_mem hget).2
    exact ⟨_, hactive, hget⟩
  · contradiction

theorem Coherent.activeParentJob (h : Coherent cfg s) {actor : Actor} {parent : JobRecord}
    (hp : s.activeParentJob cfg actor = some parent) :
    s.getJob parent.jobId = some parent ∧ parent.status = .running := by
  obtain ⟨a, hactive, hget⟩ := activeParentJob_active hp
  obtain ⟨r, hr, -, hs⟩ := (h.board.active _ _).mp hactive
  obtain rfl := Option.some.inj (hget.symm.trans hr)
  exact ⟨hget, hs⟩

theorem Coherent.message_lt (h : Coherent cfg s) {x : AttemptRecord} (hx : x ∈ s.attempts) :
    x.messageId < s.nextId := by
  obtain ⟨m, hm, hid⟩ := h.attempts.message x hx
  exact hid ▸ (h.messages m hm).issued

/-- A submission that has just been recorded: its message is the newest, its attempts are
those of its jobs, and nothing refers to it yet. -/
structure Recorded (s : State) (request : MessageEnvelope) (jobs : List JobRecord)
    (id : MessageId) : Prop where
  attempt : ∀ job ∈ jobs, ∃ x ∈ s.attempts, x.jobId = job.jobId ∧ x.messageId = id
  of_attempt : ∀ x ∈ s.attempts, x.messageId = id →
    ∃ job ∈ jobs, x.jobId = job.jobId ∧ x.agentName = job.agentName
  newest : ∀ x ∈ s.attempts, x.messageId ≤ id
  replies : ∀ r ∈ s.replies, r.messageId ≠ id
  edges : ∀ e ∈ s.edges, e.childMessageId ≠ id
  waiting : ∀ job ∈ jobs, ∀ a, s.memory.active a ≠ some job.jobId
  target : ∀ a, request.target = .agent a → jobs.map JobRecord.agentName = [a]

/-- A callback goes to a single agent. -/
theorem validateCallbackRequest_target {request : MessageEnvelope} {u : Unit}
    (hroute : requestCallbackRoute request = true)
    (h : s.validateCallbackRequest cfg request = .ok u) : ∃ a, request.target = .agent a := by
  unfold State.validateCallbackRequest at h
  rw [hroute] at h
  simp only [Bool.not_true, Bool.false_eq_true, ↓reduceIte] at h
  split_ifs at h with hscope
  rcases ht : request.target with a | _
  · exact ⟨a, rfl⟩
  · simp [MessageEnvelope.deliveryScope, ht] at hscope

/-- Registering the edge of a submission that has just been recorded. -/
theorem registerCallbackEdge_path (h : Sound cfg s) {request : MessageEnvelope}
    {jobs : List JobRecord} {id : MessageId} (t : Timestamp)
    (hregister : ∀ e, permits s (.register e)) (rec : Recorded s request jobs id) :
    Path cfg permits s (State.registerCallbackEdge cfg s request jobs id t).1 := by
  unfold State.registerCallbackEdge
  split
  · exact .refl
  · rename_i u hvalid
    by_cases hroute : requestCallbackRoute request = true
    · obtain ⟨parent, hparent, hfree, hchain⟩ := validateCallbackRequest_ok hroute hvalid
      simp only [hroute, Bool.not_true, Bool.false_eq_true, ↓reduceIte]
      split
      · rename_i child parent' hparent'
        obtain rfl := Option.some.inj (hparent.symm.trans hparent')
        obtain ⟨hfound, hrunning⟩ := h.coherent.activeParentJob hparent
        split
        · exact .refl
        · rename_i message hmessage
          obtain ⟨x, hx, hm⟩ := Option.bind_eq_some_iff.mp hmessage
          obtain ⟨hxmem, hxj⟩ := State.attemptForJob_mem hx
          have hmid := (State.getMessage_mem hm).2
          obtain ⟨y, hy, hyj, hym⟩ := rec.attempt child (by simp)
          obtain ⟨target, htarget⟩ := validateCallbackRequest_target hroute hvalid
          have hagent : child.agentName = target := by simpa using rec.target target htarget
          obtain ⟨hdepth, hacyclic⟩ := validateCallbackChain_ok hmessage hchain
          -- the parent is running and the child is not
          have hbelow : message.messageId < id := by
            refine lt_of_le_of_ne (hmid.symm ▸ rec.newest x hxmem) fun heq => ?_
            obtain ⟨job, hjob, hxjob, -⟩ := rec.of_attempt x hxmem (hmid.symm.trans heq)
            obtain ⟨a, hactive, -⟩ := activeParentJob_active hparent
            exact rec.waiting job hjob a (hxjob ▸ hxj.symm ▸ hactive)
          refine Path.single (.register (s.newEdge cfg parent message child id t)) (hregister _)
            { edgeId := rfl
              state := rfl
              target := rfl
              unanswered := rfl
              parent := ⟨parent, hfound, hrunning, rfl, rfl⟩
              parent_attempt := ⟨x, hxmem, hxj, hmid.symm⟩
              child_attempt := ⟨y, hy, hyj, hym⟩
              unreplied := rec.replies
              fresh := ?_
              newest := rec.newest
              below := hbelow
              child_agent := ?_
              depth := hdepth
              acyclic := hacyclic child.agentName (hagent ▸ htarget) }
          · intro e he
            refine ⟨?_, rec.edges e he, ?_⟩
            · intro hchild
              obtain ⟨z, hz, hzj, hzm⟩ := h.coherent.edges.child_attempt e he
              have hsame := h.coherent.attempts.key z hz y hy
                (.inr (hzj.trans (hchild.trans hyj.symm)))
              exact rec.edges e he (hzm.symm.trans (hsame.messageId.trans hym))
            · intro hpar
              simpa [State.newEdge, hpar] using findLast_none.mp hfree e he
          · intro z hz hzm
            obtain ⟨job, hjob, -, hza⟩ := rec.of_attempt z hz hzm
            obtain rfl := List.mem_singleton.mp hjob
            exact hza
      · exact .refl
    · simp only [hroute, Bool.not_false, ↓reduceIte]
      exact .refl

/-! ### Submission -/

theorem active_foldl_enqueue (jobs : List JobRecord) (m : Memory) :
    (jobs.foldl (fun m job => m.enqueue job.agentName job.jobId) m).active = m.active := by
  induction jobs generalizing m with
  | nil => rfl
  | cons job jobs ih => exact ih (m.enqueue job.agentName job.jobId)

/-- Recording the attempts of a submission touches the attempts and the mailboxes only. -/
theorem recordAttempts_logs (d : State) (jobs : List JobRecord) (id : MessageId) (t : Timestamp) :
    ∃ xs, (jobs.foldl (fun s job => s.recordAttempt id job 0 t) d).attempts = d.attempts ++ xs ∧
      (∀ x ∈ xs, x.messageId = id ∧
        ∃ job ∈ jobs, x.jobId = job.jobId ∧ x.agentName = job.agentName) ∧
      (∀ job ∈ jobs, ∃ x ∈ xs, x.jobId = job.jobId) ∧
      (jobs.foldl (fun s job => s.recordAttempt id job 0 t) d).jobs = d.jobs ∧
      (jobs.foldl (fun s job => s.recordAttempt id job 0 t) d).messages = d.messages ∧
      (jobs.foldl (fun s job => s.recordAttempt id job 0 t) d).replies = d.replies ∧
      (jobs.foldl (fun s job => s.recordAttempt id job 0 t) d).edges = d.edges ∧
      (jobs.foldl (fun s job => s.recordAttempt id job 0 t) d).memory = d.memory := by
  induction jobs using List.reverseRecOn with
  | nil => exact ⟨[], by simp, by simp, by simp, rfl, rfl, rfl, rfl, rfl⟩
  | append_singleton jobs job ih =>
    obtain ⟨xs, hxs, hnew, hall, hrest⟩ := ih
    rw [List.foldl_append]
    set s₁ := jobs.foldl (fun s job => s.recordAttempt id job 0 t) d
    obtain ⟨x, hx, hxm, hxj, hxa⟩ : ∃ x, (s₁.recordAttempt id job 0 t).attempts =
        s₁.attempts ++ [x] ∧ x.messageId = id ∧ x.jobId = job.jobId ∧
        x.agentName = job.agentName := ⟨_, rfl, rfl, rfl, rfl⟩
    refine ⟨xs ++ [x], ?_, ?_, ?_, hrest⟩
    · simp only [List.foldl_cons, List.foldl_nil]
      rw [hx, hxs, List.append_assoc]
    · intro y hy
      rcases List.mem_append.mp hy with hy | hy
      · obtain ⟨hym, r, hr, hyr⟩ := hnew y hy
        exact ⟨hym, r, List.mem_append_left _ hr, hyr⟩
      · rw [List.mem_singleton.mp hy]
        exact ⟨hxm, job, by simp, hxj, hxa⟩
    · intro r hr
      rcases List.mem_append.mp hr with hr | hr
      · obtain ⟨y, hy, hyr⟩ := hall r hr
        exact ⟨y, List.mem_append_left _ hy, hyr⟩
      · rw [List.mem_singleton.mp hr]
        exact ⟨x, by simp, hxj⟩

/-- A submission issues its identifiers, records its message, admits its jobs one after
the other and registers its edge. -/
theorem submitPlan_path (h : Sound cfg s) (plan : SubmissionPlan) (t : Timestamp)
    (hissue : ∀ s n, permits s (.issue n))
    (hmessage : ∀ s message, message.fromActor = plan.request.fromActor →
      message.targetAgents = plan.targets → permits s (.newMessage message))
    (haccept : ∀ s job m, job.request.routeOptions = plan.request.routeOptions →
      permits s (.accept .submitted job m 0 t))
    (hregister : ∀ s e, permits s (.register e))
    (known : ∀ a ∈ plan.targets, a ∈ cfg.agents) (distinct : plan.targets.Nodup)
    (single : ∀ a, plan.request.target = .agent a → plan.targets = [a])
    (edge_issued : ∀ e, plan.request.routeOptions.callbackEdgeId = some e → e < s.nextId) :
    Path cfg permits s (State.submitPlan cfg s plan t).1 := by
  obtain ⟨jobs, heq, d⟩ := enqueueDrafts_spec cfg s plan t
  unfold State.submitPlan
  rw [heq]
  dsimp only
  have p : Path cfg permits s ((Act.issue (1 + jobs.length)).apply cfg s) :=
    Path.single (.issue (1 + jobs.length)) (hissue s _) trivial
  set s₁ : State := { s with nextId := s.nextId + 1 + jobs.length } with hs₁
  have hp : (Act.issue (1 + jobs.length)).apply cfg s = s₁ := by
    simp only [Act.apply, hs₁, Nat.add_assoc]
  rw [hp] at p
  unfold State.recordSubmission
  split_ifs with hempty
  · have hnil : jobs = [] := by simpa using hempty
    subst hnil
    have hd : s₁.drafted [] = s₁ := by simp [State.drafted]
    rw [hd]
    exact p
  · set message := (s₁.drafted jobs).submissionMessage plan.request jobs plan.submissionId t
      plan.originMessageId with hmsg
    dsimp only
    set s₂ : State := { s₁ with messages := s₁.messages ++ [message], nextId := s₁.nextId + 1 }
      with hs₂
    have hagents : (jobs.map JobRecord.agentName).Nodup := d.agents ▸ distinct
    have hsome : jobs.map JobRecord.agentName ≠ [] := by simpa using hempty
    have q : Path cfg permits s₁ s₂ :=
      Path.single (.newMessage message) (hmessage s₁ message rfl d.agents)
        ⟨rfl, rfl, hagents, hsome⟩
    have hfound : s₂.getMessage message.messageId = some message := by
      simp [State.getMessage, hs₂]
    have hle : s.nextId ≤ s.nextId + 1 + jobs.length := by omega
    have hadm : Admissible cfg s₂ message jobs := by
      refine ⟨hfound, rfl, ?_, ?_, d.nodup, ?_, d.options, ?_, ?_, hagents, ?_⟩
      · intro e he
        obtain ⟨x, hx, -, hxm⟩ := h.coherent.edges.parent_attempt e he
        exact hxm ▸ ((h.coherent.message_lt hx).trans_le hle).ne
      · intro e he
        obtain ⟨x, hx, -, hxm⟩ := h.coherent.edges.child_attempt e he
        exact hxm ▸ ((h.coherent.message_lt hx).trans_le hle).ne
      · intro job hjob
        obtain ⟨hge, hlt⟩ := d.bounds hjob
        refine ⟨?_, fun r hr => ?_, fun x hx => ?_, d.pending job hjob, ?_, fun e he => ?_⟩
        · exact hlt.trans (Nat.lt_succ_self _)
        · exact ((h.coherent.jobs.issued r hr).trans_le ((Nat.le_succ _).trans hge)).ne
        · exact ((h.coherent.attempts.issued x hx).trans_le ((Nat.le_succ _).trans hge)).ne
        · exact known _ (d.agents ▸ List.mem_map_of_mem hjob)
        · rw [d.request job hjob] at he
          exact (edge_issued e he).trans_le (hle.trans (Nat.le_succ _))
      · intro job hjob
        rw [d.request job hjob]
        rfl
      · intro job hjob
        exact List.mem_map_of_mem hjob
      · intro job hjob x hx hxm
        exact absurd hxm ((h.coherent.message_lt hx).trans_le hle).ne
    have r : Path cfg permits s₂
      (jobs.foldl (fun s job => s.accept job message.messageId 0 t) s₂) :=
      accept_path t (fun s job hjob => haccept s job _ (by rw [d.request job hjob]; rfl)) hadm
    have hrecorded : jobs.foldl (fun s job => s.recordAttempt message.messageId job 0 t)
        ({ s₁.drafted jobs with
          messages := (s₁.drafted jobs).messages ++ [message]
          nextId := (s₁.drafted jobs).nextId + 1 } : State) =
        jobs.foldl (fun s job => s.accept job message.messageId 0 t) s₂ :=
      recordAttempts_drafted t jobs hfound rfl
    rw [hrecorded]
    have hpath : Path cfg permits s _ := (p.trans q).trans r
    refine hpath.trans ?_
    obtain ⟨xs, hxs, hnew, hattempt, -, -, hreplies, hedges, hmemory⟩ :=
      recordAttempts_logs (s₂.drafted jobs) jobs message.messageId t
    rw [recordAttempts_drafted t jobs hfound rfl] at hxs hreplies hedges hmemory
    set recorded := jobs.foldl (fun s job => s.accept job message.messageId 0 t) s₂
    have hreg : Path cfg permits recorded (State.registerCallbackEdge cfg recorded plan.request jobs
        message.messageId t).1 := by
      have hlt : ∀ x ∈ s.attempts, x.messageId < message.messageId := fun x hx =>
        (h.coherent.message_lt hx).trans_le hle
      refine registerCallbackEdge_path (hpath.sound h) t (hregister _) ⟨?_, ?_, ?_, ?_, ?_,
        ?_, fun a ha => d.agents.trans (single a ha)⟩
      · intro job hjob
        obtain ⟨x, hx, hxj⟩ := hattempt job hjob
        exact ⟨x, hxs ▸ List.mem_append_right _ hx, hxj, (hnew x hx).1⟩
      · intro x hx hxm
        rw [hxs] at hx
        rcases List.mem_append.mp hx with hold | hx
        · exact absurd hxm (hlt x hold).ne
        · exact (hnew x hx).2
      · intro x hx
        rw [hxs] at hx
        rcases List.mem_append.mp hx with hold | hx
        · exact (hlt x hold).le
        · exact (hnew x hx).1.le
      · intro rep hrep
        rw [hreplies] at hrep
        obtain ⟨x, hx, -, hxm⟩ := h.coherent.replies.attempt rep hrep
        exact hxm ▸ (hlt x hx).ne
      · intro e he
        rw [hedges] at he
        obtain ⟨x, hx, -, hxm⟩ := h.coherent.edges.child_attempt e he
        exact hxm ▸ (hlt x hx).ne
      · intro job hjob a hact
        have hactive : recorded.memory.active = s.memory.active := by
          rw [hmemory]
          exact active_foldl_enqueue jobs s.memory
        rw [hactive] at hact
        obtain ⟨r, hr, -⟩ := (h.coherent.board.active _ _).mp hact
        obtain ⟨hrmem, hrid⟩ := State.getJob_mem hr
        exact absurd (hrid ▸ h.coherent.jobs.issued r hrmem)
          (Nat.not_lt.mpr (Nat.le_of_succ_le (d.bounds hjob).1))
    split
    · rename_i registered u hok
      rw [hok] at hreg
      exact hreg
    · rename_i registered e herror
      rw [herror] at hreg
      exact hreg

end CodexBridge.Dispatch
