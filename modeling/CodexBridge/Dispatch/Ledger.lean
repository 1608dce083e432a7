import CodexBridge.Dispatch.Acts

/-! What the logs of jobs, attempts, replies and edges promise each other. An act
appends rows to several of them at once; the promises are the same after every
act, whatever the mailboxes hold. -/

namespace CodexBridge.Dispatch

open AppendLog

variable {cfg : Config} {s s' : State}

def State.board (s : State) : Board := ⟨s.jobs, s.memory⟩

/-- The rows of one attempt differ in state and bookkeeping only. -/
structure SameAttempt (x y : AttemptRecord) : Prop where
  attemptId : x.attemptId = y.attemptId
  jobId : x.jobId = y.jobId
  messageId : x.messageId = y.messageId
  agentName : x.agentName = y.agentName

theorem SameAttempt.refl (x : AttemptRecord) : SameAttempt x x := ⟨rfl, rfl, rfl, rfl⟩

theorem SameAttempt.symm {x y : AttemptRecord} (h : SameAttempt x y) : SameAttempt y x :=
  ⟨h.attemptId.symm, h.jobId.symm, h.messageId.symm, h.agentName.symm⟩

theorem SameAttempt.trans {x y z : AttemptRecord} (h : SameAttempt x y) (h' : SameAttempt y z) :
    SameAttempt x z :=
  ⟨h.attemptId.trans h'.attemptId, h.jobId.trans h'.jobId, h.messageId.trans h'.messageId,
    h.agentName.trans h'.agentName⟩

theorem SameEdge.refl (e : CallbackEdgeRecord) : Act.SameEdge e e :=
  ⟨rfl, rfl, rfl, rfl, rfl, rfl, rfl, rfl, rfl, rfl⟩

theorem SameEdge.symm {e e' : CallbackEdgeRecord} (h : Act.SameEdge e e') : Act.SameEdge e' e :=
  ⟨h.edgeId.symm, h.parentJobId.symm, h.parentMessageId.symm, h.parentAgent.symm,
    h.childJobId.symm, h.childMessageId.symm, h.childAgent.symm, h.callbackTargetAgent.symm,
    h.originalCaller.symm, h.timeoutAt.symm⟩

theorem SameEdge.trans {e e' e'' : CallbackEdgeRecord} (h : Act.SameEdge e e')
    (h' : Act.SameEdge e' e'') : Act.SameEdge e e'' :=
  ⟨h.edgeId.trans h'.edgeId, h.parentJobId.trans h'.parentJobId,
    h.parentMessageId.trans h'.parentMessageId, h.parentAgent.trans h'.parentAgent,
    h.childJobId.trans h'.childJobId, h.childMessageId.trans h'.childMessageId,
    h.childAgent.trans h'.childAgent, h.callbackTargetAgent.trans h'.callbackTargetAgent,
    h.originalCaller.trans h'.originalCaller, h.timeoutAt.trans h'.timeoutAt⟩

/-! ### Promises -/

/-- Attempts and jobs are the same things twice, and end together. -/
structure AttemptsOk (s : State) : Prop where
  issued : ∀ x ∈ s.attempts, x.attemptId < s.nextId
  key : ∀ x ∈ s.attempts, ∀ y ∈ s.attempts,
    x.attemptId = y.attemptId ∨ x.jobId = y.jobId → SameAttempt x y
  job : ∀ x ∈ s.attempts, ∃ r ∈ s.jobs, r.jobId = x.jobId ∧ r.agentName = x.agentName
  message : ∀ x ∈ s.attempts, ∃ m ∈ s.messages, m.messageId = x.messageId
  total : ∀ r ∈ s.jobs, ∃ x ∈ s.attempts, x.jobId = r.jobId
  ended : ∀ j r x, s.getJob j = some r → s.attemptForJob j = some x →
    r.status.terminal = x.attemptState.terminal

structure RepliesOk (s : State) : Prop where
  issued : ∀ r ∈ s.replies, r.replyId < s.nextId
  nodup : (s.replies.map ReplyRecord.replyId).Nodup
  attempt : ∀ r ∈ s.replies, ∃ x ∈ s.attempts, x.attemptId = r.attemptId ∧
    x.messageId = r.messageId

/-- Every end of an edge determines it, its parent has been started, its log moves along
`edgeMove`, and its child message is the later one. -/
structure EdgesOk (s : State) : Prop where
  issued : ∀ e ∈ s.edges, e.edgeId < s.nextId
  key : ∀ e ∈ s.edges, ∀ e' ∈ s.edges, e.edgeId = e'.edgeId ∨ e.childJobId = e'.childJobId ∨
    e.childMessageId = e'.childMessageId ∨ e.parentJobId = e'.parentJobId → Act.SameEdge e e'
  target : ∀ e ∈ s.edges, e.callbackTargetAgent = e.parentAgent
  parent : ∀ e ∈ s.edges, ∃ r ∈ s.jobs, r.jobId = e.parentJobId ∧
    r.agentName = e.parentAgent ∧ r.request.fromActor = e.originalCaller ∧
    r.status.pending = false
  parent_attempt : ∀ e ∈ s.edges, ∃ x ∈ s.attempts, x.jobId = e.parentJobId ∧
    x.messageId = e.parentMessageId
  child_attempt : ∀ e ∈ s.edges, ∃ x ∈ s.attempts, x.jobId = e.childJobId ∧
    x.messageId = e.childMessageId
  reply : ∀ e ∈ s.edges, ∀ r, e.childReplyId = some r → ∃ reply ∈ s.replies,
    reply.replyId = r ∧ reply.messageId = e.childMessageId ∧ reply.notice = false
  moves : s.edges.Pairwise fun e e' => e.edgeId = e'.edgeId → Act.edgeMove e.state e'.state
  below : ∀ e ∈ s.edges, e.parentMessageId < e.childMessageId

/-- The delivery options of a job come together or not at all, and only jobs of the
system have them. -/
def DeliveryOptions (r : JobRecord) : Prop :=
  (r.providerOptions.replyDelivery = false ∧ r.providerOptions.replyDeliveryInboundEventId = none ∧
    r.providerOptions.replyDeliveryReplyId = none) ∨
  ∃ inboundEventId replyId, r.providerOptions.replyDelivery = true ∧
    r.providerOptions.replyDeliveryInboundEventId = some inboundEventId ∧
    r.providerOptions.replyDeliveryReplyId = some replyId ∧ r.request.fromActor = .system

structure JobsOk (s : State) : Prop where
  issued : ∀ r ∈ s.jobs, r.jobId < s.nextId
  edge_issued : ∀ r ∈ s.jobs, ∀ e, r.request.routeOptions.callbackEdgeId = some e → e < s.nextId
  delivery : ∀ r ∈ s.jobs, DeliveryOptions r

/-- A message has been issued, and goes to some agents, to each of them once. -/
structure MessageOk (nextId : ℕ) (m : MessageRecord) : Prop where
  issued : m.messageId < nextId
  targets : m.targetAgents.Nodup
  nonempty : m.targetAgents ≠ []

theorem MessageOk.mono {n n' : ℕ} {m : MessageRecord} (h : MessageOk n m) (hn : n ≤ n') :
    MessageOk n' m := ⟨h.issued.trans_le hn, h.targets, h.nonempty⟩

structure Coherent (cfg : Config) (s : State) : Prop where
  board : s.board.Consistent cfg
  jobs : JobsOk s
  messages : ∀ m ∈ s.messages, MessageOk s.nextId m
  attempts : AttemptsOk s
  replies : RepliesOk s
  edges : EdgesOk s
  distinct : ∀ x ∈ s.attempts, ∀ r ∈ s.jobs, x.attemptId ≠ r.jobId

/-! ### Lookups -/

theorem State.getJob_mem {j : JobId} {r : JobRecord} (h : s.getJob j = some r) :
    r ∈ s.jobs ∧ r.jobId = j :=
  Board.find_mem (b := s.board) h

theorem State.attemptForJob_mem {j : JobId} {x : AttemptRecord} (h : s.attemptForJob j = some x) :
    x ∈ s.attempts ∧ x.jobId = j := by
  obtain ⟨hmem, hid⟩ := findLast_some h
  exact ⟨hmem, by simpa using hid⟩

theorem State.getAttempt_mem {a : AttemptId} {x : AttemptRecord} (h : s.getAttempt a = some x) :
    x ∈ s.attempts ∧ x.attemptId = a := by
  obtain ⟨hmem, hid⟩ := findLast_some h
  exact ⟨hmem, by simpa using hid⟩

theorem State.getMessage_mem {m : MessageId} {r : MessageRecord} (h : s.getMessage m = some r) :
    r ∈ s.messages ∧ r.messageId = m := by
  obtain ⟨hmem, hid⟩ := findLast_some h
  exact ⟨hmem, by simpa using hid⟩

theorem State.getEdge_mem {i : EdgeId} {e : CallbackEdgeRecord} (h : s.getEdge i = some e) :
    e ∈ s.edges ∧ e.edgeId = i := by
  obtain ⟨hmem, hid⟩ := findLast_some h
  exact ⟨hmem, by simpa using hid⟩

theorem State.getReply_mem {i : ReplyId} {r : ReplyRecord} (h : s.getReply i = some r) :
    r ∈ s.replies ∧ r.replyId = i := by
  obtain ⟨hmem, hid⟩ := findLast_some h
  exact ⟨hmem, by simpa using hid⟩

/-- A key with a row has a latest row. -/
theorem exists_findLast {α : Type*} {p : α → Bool} {log : List α} {x : α} (hx : x ∈ log)
    (hp : p x = true) : ∃ y, findLast p log = some y := by
  rcases hy : findLast p log with _ | y
  · rw [findLast_none.mp hy x hx] at hp
    contradiction
  · exact ⟨y, rfl⟩

theorem State.exists_getJob {r : JobRecord} (h : r ∈ s.jobs) : ∃ c, s.getJob r.jobId = some c :=
  exists_findLast h (by simp)

theorem State.exists_getMessage {m : MessageRecord} (h : m ∈ s.messages) :
    ∃ c, s.getMessage m.messageId = some c :=
  exists_findLast h (by simp)

theorem Coherent.same (h : Coherent cfg s) {r : JobRecord} {j : JobId} {c : JobRecord}
    (hr : r ∈ s.jobs) (hid : r.jobId = j) (hc : s.getJob j = some c) : SameJob r c := by
  obtain ⟨hmem, hcid⟩ := State.getJob_mem hc
  exact h.board.same r hr c hmem (hid.trans hcid.symm)

theorem Coherent.exists_attemptForJob (h : Coherent cfg s) {j : JobId} {r : JobRecord}
    (hr : s.getJob j = some r) : ∃ x, s.attemptForJob j = some x := by
  obtain ⟨hmem, rfl⟩ := State.getJob_mem hr
  obtain ⟨x, hx, hid⟩ := h.attempts.total r hmem
  exact exists_findLast hx (by simpa using hid)

/-- Looking an attempt up by itself or by its job. -/
theorem AttemptsOk.getAttempt_eq (h : AttemptsOk s) {x : AttemptRecord} (hx : x ∈ s.attempts) :
    s.getAttempt x.attemptId = s.attemptForJob x.jobId := by
  unfold State.getAttempt State.attemptForJob
  rw [findLast_eq_getLast?, findLast_eq_getLast?]
  congr 1
  apply List.filter_congr
  intro y hy
  rw [decide_eq_decide]
  constructor
  · intro hid
    exact (h.key y hy x hx (.inl hid)).jobId
  · intro hid
    exact (h.key y hy x hx (.inr hid)).attemptId

theorem State.mem_of_latestAttempts {m : MessageId} {x : AttemptRecord}
    (h : x ∈ s.latestAttempts m) : x ∈ s.attempts ∧ x.messageId = m := by
  obtain ⟨hmem, hm⟩ := List.mem_filter.mp (mem_of_mem_latest h)
  exact ⟨hmem, by simpa using hm⟩

theorem State.exists_latestAttempt {x : AttemptRecord} (hx : x ∈ s.attempts) :
    ∃ z ∈ s.latestAttempts x.messageId, z.attemptId = x.attemptId := by
  have hkey : x.attemptId ∈ (s.latestAttempts x.messageId).map AttemptRecord.attemptId := by
    rw [State.latestAttempts, mem_map_key_latest]
    exact List.mem_map_of_mem (List.mem_filter.mpr ⟨hx, by simp⟩)
  exact List.mem_map.mp hkey

/-- The latest row of an attempt is the row found through its job. -/
theorem AttemptsOk.attemptForJob_of_latest (h : AttemptsOk s) {m : MessageId} {x : AttemptRecord}
    (hx : x ∈ s.latestAttempts m) : s.attemptForJob x.jobId = some x := by
  have hfind := findLast_key_some.mpr ⟨hx, rfl⟩
  rw [← h.getAttempt_eq (State.mem_of_latestAttempts hx).1, State.getAttempt]
  rw [findLast_filter] at hfind
  · exact (Option.filter_eq_some_iff.mp hfind).1
  · intro y hy z hz hyid hzid
    have same := h.key y hy z hz
      (.inl ((of_decide_eq_true hyid).trans (of_decide_eq_true hzid).symm))
    rw [same.messageId]

/-! ### Jobs -/

theorem JobsOk.keep (h : JobsOk s) (hj : s'.jobs = s.jobs) (hn : s.nextId ≤ s'.nextId) :
    JobsOk s' := by
  constructor
  · intro r hr
    exact (h.issued r (hj ▸ hr)).trans_le hn
  · intro r hr e he
    exact (h.edge_issued r (hj ▸ hr) e he).trans_le hn
  · intro r hr
    exact h.delivery r (hj ▸ hr)

theorem JobsOk.append (h : JobsOk s) {job : JobRecord} (hj : s'.jobs = s.jobs ++ [job])
    (hn : s.nextId ≤ s'.nextId) (issued : job.jobId < s'.nextId)
    (edge_issued : ∀ e, job.request.routeOptions.callbackEdgeId = some e → e < s'.nextId)
    (delivery : DeliveryOptions job) : JobsOk s' := by
  constructor
  · intro r hr
    rw [hj, List.mem_append, List.mem_singleton] at hr
    rcases hr with hr | rfl
    · exact (h.issued r hr).trans_le hn
    · exact issued
  · intro r hr e he
    rw [hj, List.mem_append, List.mem_singleton] at hr
    rcases hr with hr | rfl
    · exact (h.edge_issued r hr e he).trans_le hn
    · exact edge_issued e he
  · intro r hr
    rw [hj, List.mem_append, List.mem_singleton] at hr
    rcases hr with hr | rfl
    · exact h.delivery r hr
    · exact delivery

/-- A further row of a known job. -/
theorem JobsOk.append_same (h : JobsOk s) {job current : JobRecord}
    (hj : s'.jobs = s.jobs ++ [job]) (hn : s.nextId ≤ s'.nextId)
    (found : s.getJob job.jobId = some current) (same : SameJob job current) : JobsOk s' := by
  obtain ⟨hmem, hid⟩ := State.getJob_mem found
  refine h.append hj hn ?_ ?_ ?_
  · exact hid ▸ (h.issued current hmem).trans_le hn
  · intro e he
    exact (h.edge_issued current hmem e (same.request ▸ he)).trans_le hn
  · unfold DeliveryOptions
    rw [same.providerOptions, same.request]
    exact h.delivery current hmem

/-! ### Attempts -/

theorem AttemptsOk.keep (h : AttemptsOk s) (ha : s'.attempts = s.attempts)
    (hj : s'.jobs = s.jobs) (hm : s.messages ⊆ s'.messages) (hn : s.nextId ≤ s'.nextId) :
    AttemptsOk s' := by
  constructor
  · intro x hx
    exact (h.issued x (ha ▸ hx)).trans_le hn
  · intro x hx y hy
    exact h.key x (ha ▸ hx) y (ha ▸ hy)
  · intro x hx
    rw [hj]
    exact h.job x (ha ▸ hx)
  · intro x hx
    obtain ⟨m, hmem, hid⟩ := h.message x (ha ▸ hx)
    exact ⟨m, hm hmem, hid⟩
  · intro r hr
    rw [ha]
    exact h.total r (hj ▸ hr)
  · intro j r x hr hx
    unfold State.getJob at hr
    unfold State.attemptForJob at hx
    rw [hj] at hr
    rw [ha] at hx
    exact h.ended j r x hr hx

/-- A job enters together with its attempt. -/
theorem AttemptsOk.enter (h : AttemptsOk s) {job : JobRecord} {x : AttemptRecord}
    (hj : s'.jobs = s.jobs ++ [job]) (ha : s'.attempts = s.attempts ++ [x])
    (hm : s.messages ⊆ s'.messages) (hn : s.nextId ≤ s'.nextId)
    (fresh : ∀ r ∈ s.jobs, r.jobId ≠ job.jobId) (hx : x.jobId = job.jobId)
    (hxa : x.agentName = job.agentName) (hle : s.nextId ≤ x.attemptId)
    (hlt : x.attemptId < s'.nextId) (hmsg : ∃ m ∈ s'.messages, m.messageId = x.messageId)
    (live : job.status.terminal = x.attemptState.terminal) : AttemptsOk s' := by
  have hother : ∀ y ∈ s.attempts, y.attemptId ≠ x.attemptId ∧ y.jobId ≠ x.jobId := by
    intro y hy
    obtain ⟨r, hr, hid, -⟩ := h.job y hy
    refine ⟨((h.issued y hy).trans_le hle).ne, fun he => fresh r hr ?_⟩
    rw [hid, he, hx]
  constructor
  · intro y hy
    rw [ha, List.mem_append, List.mem_singleton] at hy
    rcases hy with hy | rfl
    · exact (h.issued y hy).trans_le hn
    · exact hlt
  · intro y hy z hz hk
    rw [ha, List.mem_append, List.mem_singleton] at hy hz
    rcases hy with hy | rfl
    · rcases hz with hz | rfl
      · exact h.key y hy z hz hk
      · obtain ⟨h1, h2⟩ := hother y hy
        rcases hk with hk | hk
        · exact absurd hk h1
        · exact absurd hk h2
    · rcases hz with hz | rfl
      · obtain ⟨h1, h2⟩ := hother z hz
        rcases hk with hk | hk
        · exact absurd hk.symm h1
        · exact absurd hk.symm h2
      · exact SameAttempt.refl _
  · intro y hy
    rw [hj]
    rw [ha, List.mem_append, List.mem_singleton] at hy
    rcases hy with hy | rfl
    · obtain ⟨r, hr, hid⟩ := h.job y hy
      exact ⟨r, List.mem_append_left _ hr, hid⟩
    · exact ⟨job, by simp, hx.symm, hxa.symm⟩
  · intro y hy
    rw [ha, List.mem_append, List.mem_singleton] at hy
    rcases hy with hy | rfl
    · obtain ⟨m, hmem, hid⟩ := h.message y hy
      exact ⟨m, hm hmem, hid⟩
    · exact hmsg
  · intro r hr
    rw [ha]
    rw [hj, List.mem_append, List.mem_singleton] at hr
    rcases hr with hr | rfl
    · obtain ⟨y, hy, hid⟩ := h.total r hr
      exact ⟨y, List.mem_append_left _ hy, hid⟩
    · exact ⟨x, by simp, hx⟩
  · intro j r y hr hy
    unfold State.getJob at hr
    unfold State.attemptForJob at hy
    rw [hj, findLast_append] at hr
    rw [ha, findLast_append] at hy
    by_cases hjob : job.jobId = j
    · simp only [hjob, hx, decide_true, ↓reduceIte, Option.some.injEq] at hr hy
      rw [← hr, ← hy]
      exact live
    · simp only [hjob, hx, decide_false, Bool.false_eq_true, ↓reduceIte] at hr hy
      exact h.ended j r y hr hy

/-- A further row of a known job in the status it has. -/
theorem AttemptsOk.touch (h : AttemptsOk s) {record current : JobRecord}
    (hj : s'.jobs = s.jobs ++ [record]) (ha : s'.attempts = s.attempts)
    (hm : s.messages ⊆ s'.messages) (hn : s.nextId ≤ s'.nextId)
    (found : s.getJob record.jobId = some current) (status : record.status = current.status) :
    AttemptsOk s' := by
  obtain ⟨hcmem, hcid⟩ := State.getJob_mem found
  refine ⟨?_, ?_, ?_, ?_, ?_, ?_⟩
  · intro x hx
    exact (h.issued x (ha ▸ hx)).trans_le hn
  · intro x hx y hy
    exact h.key x (ha ▸ hx) y (ha ▸ hy)
  · intro x hx
    obtain ⟨r, hr, hid⟩ := h.job x (ha ▸ hx)
    exact ⟨r, hj ▸ List.mem_append_left _ hr, hid⟩
  · intro x hx
    obtain ⟨m, hmem, hid⟩ := h.message x (ha ▸ hx)
    exact ⟨m, hm hmem, hid⟩
  · intro r hr
    rw [ha]
    rw [hj, List.mem_append, List.mem_singleton] at hr
    rcases hr with hr | rfl
    · exact h.total r hr
    · exact hcid ▸ h.total current hcmem
  · intro j r x hr hx
    unfold State.getJob at hr
    unfold State.attemptForJob at hx
    rw [hj, findLast_append] at hr
    rw [ha] at hx
    split_ifs at hr with hjob
    · obtain rfl := Option.some.inj hr
      obtain rfl : record.jobId = j := by simpa using hjob
      rw [status]
      exact h.ended _ current x found hx
    · exact h.ended j r x hr hx

/-- A further row of a known job together with one of its attempt. -/
theorem AttemptsOk.move (h : AttemptsOk s) {job current : JobRecord} {x y : AttemptRecord}
    (hj : s'.jobs = s.jobs ++ [job]) (ha : s'.attempts = s.attempts ++ [x])
    (hm : s.messages ⊆ s'.messages) (hn : s.nextId ≤ s'.nextId)
    (found : s.getJob job.jobId = some current) (hy : s.attemptForJob job.jobId = some y)
    (sameAttempt : SameAttempt x y) (live : job.status.terminal = x.attemptState.terminal) :
    AttemptsOk s' := by
  obtain ⟨hmem, hid⟩ := State.attemptForJob_mem hy
  obtain ⟨hcmem, hcid⟩ := State.getJob_mem found
  have hsame : ∀ z ∈ s'.attempts, ∃ z' ∈ s.attempts, SameAttempt z z' := by
    intro z hz
    rw [ha, List.mem_append, List.mem_singleton] at hz
    rcases hz with hz | rfl
    · exact ⟨z, hz, SameAttempt.refl z⟩
    · exact ⟨y, hmem, sameAttempt⟩
  constructor
  · intro z hz
    obtain ⟨z', hz', he⟩ := hsame z hz
    exact he.attemptId ▸ (h.issued z' hz').trans_le hn
  · intro z hz w hw hk
    obtain ⟨z', hz', he⟩ := hsame z hz
    obtain ⟨w', hw', he'⟩ := hsame w hw
    have hk' : z'.attemptId = w'.attemptId ∨ z'.jobId = w'.jobId := by
      rwa [← he.attemptId, ← he'.attemptId, ← he.jobId, ← he'.jobId]
    exact (he.trans (h.key z' hz' w' hw' hk')).trans he'.symm
  · intro z hz
    obtain ⟨z', hz', he⟩ := hsame z hz
    obtain ⟨r, hr, hrid, hra⟩ := h.job z' hz'
    exact ⟨r, hj ▸ List.mem_append_left _ hr, hrid.trans he.jobId.symm,
      hra.trans he.agentName.symm⟩
  · intro z hz
    obtain ⟨z', hz', he⟩ := hsame z hz
    obtain ⟨m, hmem, hmid⟩ := h.message z' hz'
    exact ⟨m, hm hmem, hmid.trans he.messageId.symm⟩
  · intro r hr
    rw [ha]
    rw [hj, List.mem_append, List.mem_singleton] at hr
    rcases hr with hr | rfl
    · obtain ⟨z, hz, hzid⟩ := h.total r hr
      exact ⟨z, List.mem_append_left _ hz, hzid⟩
    · exact ⟨y, List.mem_append_left _ hmem, hid⟩
  · intro j r z hr hz
    unfold State.getJob at hr
    unfold State.attemptForJob at hz
    rw [hj, findLast_append] at hr
    rw [ha, findLast_append] at hz
    have hx : x.jobId = job.jobId := sameAttempt.jobId.trans hid
    by_cases hjob : job.jobId = j
    · simp only [hjob, hx, decide_true, ↓reduceIte, Option.some.injEq] at hr hz
      rw [← hr, ← hz]
      exact live
    · simp only [hjob, hx, decide_false, Bool.false_eq_true, ↓reduceIte] at hr hz
      exact h.ended j r z hr hz

/-! ### Replies and edges -/

theorem RepliesOk.keep (h : RepliesOk s) (hr : s'.replies = s.replies)
    (ha : s.attempts ⊆ s'.attempts) (hn : s.nextId ≤ s'.nextId) : RepliesOk s' := by
  constructor
  · intro r hmem
    exact (h.issued r (hr ▸ hmem)).trans_le hn
  · rw [hr]
    exact h.nodup
  · intro r hmem
    obtain ⟨x, hx, hid⟩ := h.attempt r (hr ▸ hmem)
    exact ⟨x, ha hx, hid⟩

theorem RepliesOk.append (h : RepliesOk s) {reply : ReplyRecord}
    (hr : s'.replies = s.replies ++ [reply]) (ha : s.attempts ⊆ s'.attempts)
    (hn : s.nextId ≤ s'.nextId) (hle : s.nextId ≤ reply.replyId) (hlt : reply.replyId < s'.nextId)
    (attempt : ∃ x ∈ s.attempts, x.attemptId = reply.attemptId ∧ x.messageId = reply.messageId) :
    RepliesOk s' := by
  constructor
  · intro r hmem
    rw [hr, List.mem_append, List.mem_singleton] at hmem
    rcases hmem with hmem | rfl
    · exact (h.issued r hmem).trans_le hn
    · exact hlt
  · rw [hr, List.map_append]
    refine List.Nodup.append h.nodup (by simp) ?_
    rintro i hi hi'
    obtain ⟨r, hmem, rfl⟩ := List.mem_map.mp hi
    rw [List.map_cons, List.map_nil, List.mem_singleton] at hi'
    exact absurd hi' ((h.issued r hmem).trans_le hle).ne
  · intro r hmem
    rw [hr, List.mem_append, List.mem_singleton] at hmem
    rcases hmem with hmem | rfl
    · obtain ⟨x, hx, hid⟩ := h.attempt r hmem
      exact ⟨x, ha hx, hid⟩
    · obtain ⟨x, hx, hid⟩ := attempt
      exact ⟨x, ha hx, hid⟩

theorem EdgesOk.keep (h : EdgesOk s) (he : s'.edges = s.edges) (hj : s.jobs ⊆ s'.jobs)
    (ha : s.attempts ⊆ s'.attempts) (hr : s.replies ⊆ s'.replies)
    (hn : s.nextId ≤ s'.nextId) : EdgesOk s' := by
  refine ⟨?_, ?_, ?_, ?_, ?_, ?_, ?_, ?_, fun e hmem => h.below e (he ▸ hmem)⟩
  · intro e hmem
    exact (h.issued e (he ▸ hmem)).trans_le hn
  · rw [he]
    exact h.key
  · rw [he]
    exact h.target
  · intro e hmem
    obtain ⟨r, hr, hid⟩ := h.parent e (he ▸ hmem)
    exact ⟨r, hj hr, hid⟩
  · intro e hmem
    obtain ⟨x, hx, hid⟩ := h.parent_attempt e (he ▸ hmem)
    exact ⟨x, ha hx, hid⟩
  · intro e hmem
    obtain ⟨x, hx, hid⟩ := h.child_attempt e (he ▸ hmem)
    exact ⟨x, ha hx, hid⟩
  · intro e hmem i hi
    obtain ⟨r, hrm, hid⟩ := h.reply e (he ▸ hmem) i hi
    exact ⟨r, hr hrm, hid⟩
  · rw [he]
    exact h.moves

theorem edgeMove_trans {x y z : CallbackEdgeState} (h : Act.edgeMove x y)
    (h' : Act.edgeMove y z) : Act.edgeMove x z := by
  refine ⟨h.1, h.2.1, h.2.2.1, fun hx => ?_⟩
  exact absurd (h.2.2.2 hx) h'.1

/-- The latest row of an edge, with the same ends as any other. -/
theorem EdgesOk.same (h : EdgesOk s) {e current : CallbackEdgeRecord} (he : e ∈ s.edges)
    (hc : s.getEdge e.edgeId = some current) : Act.SameEdge e current := by
  obtain ⟨hmem, hid⟩ := State.getEdge_mem hc
  exact h.key e he current hmem (.inl hid.symm)

theorem EdgesOk.register (h : EdgesOk s) {edge : CallbackEdgeRecord}
    (reg : Act.Registers cfg s edge)
    (he : s'.edges = s.edges ++ [edge]) (hj : s'.jobs = s.jobs)
    (ha : s'.attempts = s.attempts) (hr : s'.replies = s.replies)
    (hn : s.nextId < s'.nextId) : EdgesOk s' := by
  have hother : ∀ e ∈ s.edges, ¬(e.edgeId = edge.edgeId ∨ e.childJobId = edge.childJobId ∨
      e.childMessageId = edge.childMessageId ∨ e.parentJobId = edge.parentJobId) := by
    rintro e hmem (hid | hid | hid | hid)
    · exact absurd (hid.trans reg.edgeId) (h.issued e hmem).ne
    · exact (reg.fresh e hmem).1 hid
    · exact (reg.fresh e hmem).2.1 hid
    · exact (reg.fresh e hmem).2.2 hid
  refine ⟨?_, ?_, ?_, ?_, ?_, ?_, ?_, ?_, ?_⟩
  · intro e hmem
    rw [he, List.mem_append, List.mem_singleton] at hmem
    rcases hmem with hmem | rfl
    · exact (h.issued e hmem).trans hn
    · exact reg.edgeId ▸ hn
  · intro e hmem e' hmem' hk
    rw [he, List.mem_append, List.mem_singleton] at hmem hmem'
    rcases hmem with hmem | rfl
    · rcases hmem' with hmem' | rfl
      · exact h.key e hmem e' hmem' hk
      · exact absurd hk (hother e hmem)
    · rcases hmem' with hmem' | rfl
      · refine absurd ?_ (hother e' hmem')
        rcases hk with hk | hk | hk | hk <;> simp [hk]
      · exact SameEdge.refl _
  · intro e hmem
    rw [he, List.mem_append, List.mem_singleton] at hmem
    rcases hmem with hmem | rfl
    · exact h.target e hmem
    · exact reg.target
  · intro e hmem
    rw [hj]
    rw [he, List.mem_append, List.mem_singleton] at hmem
    rcases hmem with hmem | rfl
    · exact h.parent e hmem
    · obtain ⟨r, hfound, hs, hagent, hcaller⟩ := reg.parent
      obtain ⟨hrmem, hid⟩ := State.getJob_mem hfound
      exact ⟨r, hrmem, hid, hagent, hcaller, by simp [hs, JobStatus.pending]⟩
  · intro e hmem
    rw [ha]
    rw [he, List.mem_append, List.mem_singleton] at hmem
    rcases hmem with hmem | rfl
    · exact h.parent_attempt e hmem
    · exact reg.parent_attempt
  · intro e hmem
    rw [ha]
    rw [he, List.mem_append, List.mem_singleton] at hmem
    rcases hmem with hmem | rfl
    · exact h.child_attempt e hmem
    · exact reg.child_attempt
  · intro e hmem i hi
    rw [hr]
    rw [he, List.mem_append, List.mem_singleton] at hmem
    rcases hmem with hmem | rfl
    · exact h.reply e hmem i hi
    · rw [reg.unanswered] at hi
      contradiction
  · rw [he, List.pairwise_append]
    refine ⟨h.moves, by simp, fun e hmem e' hmem' hid => ?_⟩
    rw [List.mem_singleton] at hmem'
    subst hmem'
    exact absurd (.inl hid) (hother e hmem)
  · intro e hmem
    rw [he, List.mem_append, List.mem_singleton] at hmem
    rcases hmem with hmem | rfl
    · exact h.below e hmem
    · exact reg.below

theorem EdgesOk.update (h : EdgesOk s) {edge current : CallbackEdgeRecord}
    (upd : Act.Updates s edge current) (he : s'.edges = s.edges ++ [edge])
    (hj : s.jobs ⊆ s'.jobs) (ha : s.attempts ⊆ s'.attempts) (hr : s.replies ⊆ s'.replies)
    (hn : s.nextId ≤ s'.nextId) : EdgesOk s' := by
  obtain ⟨hcmem, -⟩ := State.getEdge_mem upd.found
  have hsame : ∀ e ∈ s'.edges, ∃ e' ∈ s.edges, Act.SameEdge e e' := by
    intro e hmem
    rw [he, List.mem_append, List.mem_singleton] at hmem
    rcases hmem with hmem | rfl
    · exact ⟨e, hmem, SameEdge.refl e⟩
    · exact ⟨current, hcmem, upd.same⟩
  refine ⟨?_, ?_, ?_, ?_, ?_, ?_, ?_, ?_, ?_⟩
  · intro e hmem
    obtain ⟨e', hmem', hs⟩ := hsame e hmem
    exact hs.edgeId ▸ (h.issued e' hmem').trans_le hn
  · intro x hx y hy hk
    obtain ⟨x', hx', hsx⟩ := hsame x hx
    obtain ⟨y', hy', hsy⟩ := hsame y hy
    rw [hsx.edgeId, hsx.childJobId, hsx.childMessageId, hsx.parentJobId, hsy.edgeId,
      hsy.childJobId, hsy.childMessageId, hsy.parentJobId] at hk
    exact SameEdge.trans (SameEdge.trans hsx (h.key x' hx' y' hy' hk)) (SameEdge.symm hsy)
  · intro e hmem
    obtain ⟨e', hmem', hs⟩ := hsame e hmem
    rw [hs.callbackTargetAgent, hs.parentAgent]
    exact h.target e' hmem'
  · intro e hmem
    obtain ⟨e', hmem', hs⟩ := hsame e hmem
    obtain ⟨r, hrm, hrest⟩ := h.parent e' hmem'
    rw [hs.parentJobId, hs.parentAgent, hs.originalCaller]
    exact ⟨r, hj hrm, hrest⟩
  · intro e hmem
    obtain ⟨e', hmem', hs⟩ := hsame e hmem
    obtain ⟨x, hx, hrest⟩ := h.parent_attempt e' hmem'
    rw [hs.parentJobId, hs.parentMessageId]
    exact ⟨x, ha hx, hrest⟩
  · intro e hmem
    obtain ⟨e', hmem', hs⟩ := hsame e hmem
    obtain ⟨x, hx, hrest⟩ := h.child_attempt e' hmem'
    rw [hs.childJobId, hs.childMessageId]
    exact ⟨x, ha hx, hrest⟩
  · intro e hmem i hi
    rw [he, List.mem_append, List.mem_singleton] at hmem
    rcases hmem with hmem | rfl
    · obtain ⟨r, hrm, hrest⟩ := h.reply e hmem i hi
      exact ⟨r, hr hrm, hrest⟩
    · rcases upd.reply i hi with hi | ⟨r, hrm, hrest⟩
      · obtain ⟨r, hrm, hrest⟩ := h.reply current hcmem i hi
        rw [← upd.same.childMessageId] at hrest
        exact ⟨r, hr hrm, hrest⟩
      · exact ⟨r, hr hrm, hrest⟩
  · rw [he, List.pairwise_append]
    refine ⟨h.moves, by simp, fun e hmem e' hmem' hid => ?_⟩
    rw [List.mem_singleton] at hmem'
    subst hmem'
    rcases findLast_pairwise h.moves upd.found e hmem (by simpa using hid) with rfl | hmove
    · exact upd.move
    · exact edgeMove_trans (hmove (hid.trans upd.same.edgeId)) upd.move
  · intro e hmem
    obtain ⟨e', hmem', hs⟩ := hsame e hmem
    rw [hs.parentMessageId, hs.childMessageId]
    exact h.below e' hmem'

end CodexBridge.Dispatch
