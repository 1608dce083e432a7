import CodexBridge.Dispatch.Ledger

/-! Every act keeps the logs coherent. The acts that go through several stores are
first brought into the form of one record update. -/

namespace CodexBridge.Dispatch

open AppendLog
open Mailbox (InboundEventRecord NewEvent)

variable {cfg : Config} {s s' : State}

/-! ### Message log -/

/-- The rows of one message differ in state and bookkeeping only. -/
structure SameMessage (m m' : MessageRecord) : Prop where
  messageId : m.messageId = m'.messageId
  fromActor : m.fromActor = m'.fromActor
  targetAgents : m.targetAgents = m'.targetAgents

theorem SameMessage.ok {m m' : MessageRecord} {n : ℕ} (hs : SameMessage m m')
    (h : MessageOk n m') : MessageOk n m :=
  ⟨hs.messageId ▸ h.issued, hs.targetAgents ▸ h.targets, hs.targetAgents ▸ h.nonempty⟩

theorem subset_setMessageLog (messages : List MessageRecord) (id next t) :
    messages ⊆ setMessageLog messages id next t := by
  unfold setMessageLog
  split
  · exact List.Subset.refl _
  · split_ifs
    · exact List.Subset.refl _
    · exact List.subset_append_left _ _

theorem mem_setMessageLog {messages : List MessageRecord} {id next t} {m : MessageRecord}
    (h : m ∈ setMessageLog messages id next t) : ∃ m' ∈ messages, SameMessage m m' := by
  unfold setMessageLog at h
  split at h
  · exact ⟨m, h, rfl, rfl, rfl⟩
  · rename_i current hc
    split_ifs at h
    · exact ⟨m, h, rfl, rfl, rfl⟩
    · rw [List.mem_append, List.mem_singleton] at h
      rcases h with h | rfl
      · exact ⟨m, h, rfl, rfl, rfl⟩
      · exact ⟨current, (findLast_some hc).1, rfl, rfl, rfl⟩

theorem subset_refreshMessageLog (s : State) (id t) : s.messages ⊆ s.refreshMessageLog id t := by
  unfold State.refreshMessageLog
  split_ifs
  · exact List.Subset.refl _
  · exact subset_setMessageLog _ _ _ _

theorem mem_refreshMessageLog {id t} {m : MessageRecord} (h : m ∈ s.refreshMessageLog id t) :
    ∃ m' ∈ s.messages, SameMessage m m' := by
  unfold State.refreshMessageLog at h
  split_ifs at h
  · exact ⟨m, h, rfl, rfl, rfl⟩
  · exact mem_setMessageLog h

/-! ### Normal forms -/

/-- The mailbox of a finished job. -/
def finishMailbox (mailbox : Mailbox) (terminal : JobRecord) (attemptId : AttemptId)
    (finishedAt : Timestamp) : Mailbox :=
  let ended := finishInbound mailbox attemptId terminal.status finishedAt
  if State.isReplyDeliveryJob terminal then State.resolveDelivery ended terminal finishedAt
  else ended

def startedAttempt (attempt : AttemptRecord) (startedAt : Timestamp) : AttemptRecord :=
  { attempt with updatedAt := startedAt, attemptState := .running }

def endedAttempt (attempt : AttemptRecord) (status : JobStatus) (finishedAt : Timestamp) :
    AttemptRecord :=
  { attempt with updatedAt := finishedAt, attemptState := attemptStateForStatus status }

def startedJob (current : JobRecord) (startedAt : Timestamp) : JobRecord :=
  { current with status := .running, updatedAt := startedAt }

namespace State

theorem beginRunningJob_eq {current : JobRecord} {attempt : AttemptRecord} (t : Timestamp)
    (h : s.attemptForJob current.jobId = some attempt) :
    s.beginRunningJob current t = { s with
      jobs := s.jobs ++ [startedJob current t]
      memory := s.memory.markActive current.agentName current.jobId
      attempts := s.attempts ++ [startedAttempt attempt t]
      messages := setMessageLog s.messages attempt.messageId .running t
      mailboxes := Function.update s.mailboxes current.agentName
        (claimForStart (s.mailboxes current.agentName)
          (s.resolveInboundForAttemptStart (startedJob current t) attempt.attemptId) t) } := by
  have h' : s.attemptForJob ({ current with
    status := JobStatus.running, updatedAt := t } : JobRecord).jobId = some attempt := h
  simp only [beginRunningJob, markAttemptStarted, h']
  rfl

theorem finish_eq {terminal : JobRecord} {attempt : AttemptRecord} (t : Timestamp)
    (dequeue : Bool) (h : s.attemptForJob terminal.jobId = some attempt) :
    s.finish terminal t dequeue = { s with
      jobs := s.jobs ++ [terminal]
      memory := s.memory.leave dequeue terminal.agentName terminal.jobId
      attempts := s.attempts ++ [endedAttempt attempt terminal.status t]
      messages := { s with attempts := s.attempts ++ [endedAttempt attempt terminal.status t] }
        |>.refreshMessageLog attempt.messageId t
      mailboxes := Function.update s.mailboxes terminal.agentName
        (finishMailbox (s.mailboxes terminal.agentName) terminal attempt.attemptId t) } := by
  have h' : ({ s.appendJob terminal with
    memory := s.memory.leave dequeue terminal.agentName terminal.jobId } : State).attemptForJob
      terminal.jobId = some attempt := h
  simp only [finish, recordAttemptTerminal, h']
  unfold resolveReplyDeliveryTerminal finishMailbox
  by_cases hd : isReplyDeliveryJob terminal = true
  · simp only [hd, ↓reduceIte, setMailbox, refreshMessageState, Function.update_idem,
      Function.update_self]
    rfl
  · simp only [hd, Bool.false_eq_true, ↓reduceIte]
    rfl

/-- The reply row `appendReply` writes. -/
def replyRow (s : State) (job : JobRecord) (attempt : AttemptRecord)
    (status : ReplyTerminalStatus) (notice : Bool) (finishedAt : Timestamp) : ReplyRecord :=
  { replyId := s.nextId
    messageId := attempt.messageId
    attemptId := attempt.attemptId
    agentName := job.agentName
    terminalStatus := status
    notice := notice
    finishedAt := finishedAt }

/-- The event `appendReply` queues. -/
def replyEvent (s : State) (attempt : AttemptRecord) (finishedAt : Timestamp) : NewEvent :=
  { inboundEventId := s.nextId + 1
    eventType := .taskReply
    messageId := attempt.messageId
    attemptId := some attempt.attemptId
    payloadRef := composeReplyPayload s.nextId none
    priority := 10
    createdAt := finishedAt }

theorem appendReply_silent {recipient : Option Actor} (job attempt status notice t)
    (h : recipient.bind (mailboxActor cfg) = none) :
    appendReply cfg s job attempt status notice recipient t = { s with
      replies := s.replies ++ [s.replyRow job attempt status notice t]
      messages := { s with replies := s.replies ++ [s.replyRow job attempt status notice t] }
        |>.refreshMessageLog attempt.messageId t
      nextId := s.nextId + 1 } := by
  simp only [appendReply, h]
  rfl

theorem appendReply_queued {recipient : Option Actor} {a : AgentName} (job attempt status notice t)
    (h : recipient.bind (mailboxActor cfg) = some a) :
    appendReply cfg s job attempt status notice recipient t = { s with
      replies := s.replies ++ [s.replyRow job attempt status notice t]
      messages := { s with replies := s.replies ++ [s.replyRow job attempt status notice t] }
        |>.refreshMessageLog attempt.messageId t
      mailboxes := Function.update s.mailboxes a
        ((s.mailboxes a).enqueue t (s.replyEvent attempt t) (some t))
      nextId := s.nextId + 2 } := by
  simp only [appendReply, h]
  rfl

theorem claimReplyDeliveryStart_fst (s : State) (job : JobRecord) (t : Timestamp) :
    (s.claimReplyDeliveryStart job t).1 =
      { s with mailboxes := (s.claimReplyDeliveryStart job t).1.mailboxes } := by
  unfold claimReplyDeliveryStart
  split_ifs
  · rfl
  · split
    · rfl
    · split
      · rfl
      · split_ifs <;> rfl

theorem resolveReplyDeliveryTerminal_eq (s : State) (job : JobRecord) (t : Timestamp) :
    s.resolveReplyDeliveryTerminal job t =
      { s with mailboxes := (s.resolveReplyDeliveryTerminal job t).mailboxes } := by
  unfold resolveReplyDeliveryTerminal
  split_ifs <;> rfl

end State

/-! ### One act -/

/-- An act that leaves jobs, attempts, replies and edges alone. -/
theorem Coherent.quiet (h : Coherent cfg s) (hj : s'.jobs = s.jobs) (hmem : s'.memory = s.memory)
    (ha : s'.attempts = s.attempts) (hr : s'.replies = s.replies) (he : s'.edges = s.edges)
    (hm : s.messages ⊆ s'.messages) (hlt : ∀ m ∈ s'.messages, MessageOk s'.nextId m)
    (hn : s.nextId ≤ s'.nextId) : Coherent cfg s' where
  board := by
    have hb : s'.board = s.board := by rw [State.board, hj, hmem, State.board]
    rw [hb]
    exact h.board
  jobs := h.jobs.keep hj hn
  messages := hlt
  attempts := h.attempts.keep ha hj hm hn
  replies := h.replies.keep hr (by rw [ha]; exact List.Subset.refl _) hn
  edges := h.edges.keep he (by rw [hj]; exact List.Subset.refl _)
    (by rw [ha]; exact List.Subset.refl _) (by rw [hr]; exact List.Subset.refl _) hn
  distinct := by
    rw [ha, hj]
    exact h.distinct

/-- Only mailboxes, or nothing, changed. -/
theorem Coherent.mailboxes (h : Coherent cfg s) (mailboxes : AgentName → Mailbox) :
    Coherent cfg { s with mailboxes := mailboxes } :=
  h.quiet rfl rfl rfl rfl rfl (List.Subset.refl _) h.messages le_rfl

/-- The messages after `setMessageLog` were issued before it. -/
theorem Coherent.setMessageLog_issued (h : Coherent cfg s) {id next t} :
    ∀ m ∈ setMessageLog s.messages id next t, MessageOk s.nextId m := by
  intro m hm
  obtain ⟨m', hm', hs⟩ := mem_setMessageLog hm
  exact hs.ok (h.messages m' hm')

/-- A job enters with an attempt on a message; edges follow separately. -/
theorem Coherent.enter (h : Coherent cfg s) (job : JobRecord) {x : AttemptRecord}
    (hj : s'.jobs = s.jobs ++ [job])
    (hmem : s'.memory = s.memory.enqueue job.agentName job.jobId)
    (ha : s'.attempts = s.attempts ++ [x]) (hr : s'.replies = s.replies)
    (he : s'.edges = s.edges) (hm : s.messages ⊆ s'.messages)
    (hlt : ∀ m ∈ s'.messages, MessageOk s'.nextId m) (hn : s.nextId ≤ s'.nextId)
    (fresh : ∀ r ∈ s.jobs, r.jobId ≠ job.jobId)
    (distinct : ∀ x ∈ s.attempts, x.attemptId ≠ job.jobId) (pending : job.status.pending = true)
    (known : job.agentName ∈ cfg.agents) (issued : job.jobId < s'.nextId)
    (edge_issued : ∀ e, job.request.routeOptions.callbackEdgeId = some e → e < s'.nextId)
    (delivery : DeliveryOptions job)
    (hx : x.jobId = job.jobId) (hxa : x.agentName = job.agentName)
    (hle : s.nextId ≤ x.attemptId) (hxjob : x.attemptId ≠ job.jobId)
    (hxlt : x.attemptId < s'.nextId) (hmsg : ∃ m ∈ s'.messages, m.messageId = x.messageId)
    (hstate : x.attemptState.terminal = false) : Coherent cfg s' where
  board := by
    have hb : s'.board =
        ⟨s.board.jobs ++ [job], s.board.memory.enqueue job.agentName job.jobId⟩ := by
      rw [State.board, hj, hmem]
      rfl
    rw [hb]
    exact h.board.enter job fresh pending known
  jobs := h.jobs.append hj hn issued edge_issued delivery
  messages := hlt
  attempts := h.attempts.enter hj ha hm hn fresh hx hxa hle hxlt hmsg
    ((JobStatus.not_terminal_of_pending pending).trans hstate.symm)
  replies := h.replies.keep hr (by rw [ha]; exact List.subset_append_left _ _) hn
  edges := h.edges.keep he (by rw [hj]; exact List.subset_append_left _ _)
    (by rw [ha]; exact List.subset_append_left _ _) (by rw [hr]; exact List.Subset.refl _) hn
  distinct := by
    intro y hy r hr
    rw [ha, List.mem_append, List.mem_singleton] at hy
    rw [hj, List.mem_append, List.mem_singleton] at hr
    rcases hy with hy | rfl <;> rcases hr with hr | rfl
    · exact h.distinct y hy r hr
    · exact distinct y hy
    · exact ((h.jobs.issued r hr).trans_le hle).ne'
    · exact hxjob

/-- A job moves on with its attempt. -/
theorem Coherent.move (h : Coherent cfg s) (job : JobRecord) {current : JobRecord}
    {x y : AttemptRecord}
    (hb : Board.Step cfg s.board s'.board)
    (hj : s'.jobs = s.jobs ++ [job]) (ha : s'.attempts = s.attempts ++ [x])
    (hr : s'.replies = s.replies) (he : s'.edges = s.edges) (hm : s.messages ⊆ s'.messages)
    (hlt : ∀ m ∈ s'.messages, MessageOk s'.nextId m) (hn : s.nextId ≤ s'.nextId)
    (found : s.getJob job.jobId = some current) (same : SameJob job current)
    (hy : s.attemptForJob job.jobId = some y) (sameAttempt : SameAttempt x y)
    (live : job.status.terminal = x.attemptState.terminal) : Coherent cfg s' where
  board := hb.consistent h.board
  jobs := h.jobs.append_same hj hn found same
  messages := hlt
  attempts := h.attempts.move hj ha hm hn found hy sameAttempt live
  replies := h.replies.keep hr (by rw [ha]; exact List.subset_append_left _ _) hn
  edges := h.edges.keep he (by rw [hj]; exact List.subset_append_left _ _)
    (by rw [ha]; exact List.subset_append_left _ _) (by rw [hr]; exact List.Subset.refl _) hn
  distinct := by
    obtain ⟨hcmem, hcid⟩ := State.getJob_mem found
    obtain ⟨hymem, -⟩ := State.attemptForJob_mem hy
    intro z hz r hr
    rw [ha, List.mem_append, List.mem_singleton] at hz
    rw [hj, List.mem_append, List.mem_singleton] at hr
    rcases hz with hz | rfl <;> rcases hr with hr | rfl
    · exact h.distinct z hz r hr
    · exact hcid ▸ h.distinct z hz current hcmem
    · exact sameAttempt.attemptId ▸ h.distinct y hymem r hr
    · exact sameAttempt.attemptId ▸ hcid ▸ h.distinct y hymem current hcmem

theorem attemptStateForStatus_terminal {status : JobStatus} :
    (attemptStateForStatus status).terminal = true := by
  cases status <;> rfl

theorem Coherent.accept (h : Coherent cfg s) {job : JobRecord} {messageId : MessageId} (i t)
    (new : Act.NewJob s cfg job) (hmsg : ∃ m ∈ s.messages, m.messageId = messageId)
    (delivery : DeliveryOptions job) : Coherent cfg (s.accept job messageId i t) := by
  have hlt : s.nextId ≤ s.nextId + 2 := Nat.le_add_right _ _
  refine h.enter job rfl rfl rfl rfl rfl (subset_setMessageLog _ _ _ _) ?_ hlt new.fresh
    new.distinct new.pending new.known (new.issued.trans_le hlt)
    (fun e he => (new.edge_issued e he).trans_le hlt) delivery rfl rfl le_rfl new.issued.ne'
    (Nat.lt_add_of_pos_right Nat.two_pos) ?_ rfl
  · intro m hm
    exact (h.setMessageLog_issued m hm).mono hlt
  · obtain ⟨m, hm, hid⟩ := hmsg
    exact ⟨m, subset_setMessageLog _ _ _ _ hm, hid⟩

theorem deliveryOptions_none {job : JobRecord} (h : job.providerOptions = ProviderOptions.none) :
    DeliveryOptions job := by
  unfold DeliveryOptions
  rw [h]
  exact .inl ⟨rfl, rfl, rfl⟩

theorem Coherent.accept_guard (h : Coherent cfg s) {origin : Origin} {job : JobRecord}
    {messageId : MessageId} {i t} (g : (Act.accept origin job messageId i t).guard cfg s) :
    Act.NewJob s cfg job ∧ (∃ m ∈ s.messages, m.messageId = messageId) ∧
      DeliveryOptions job := by
  cases origin with
  | submitted =>
    obtain ⟨new, sub⟩ := g
    obtain ⟨m, hm, -⟩ := sub.message
    obtain ⟨hmem, hid⟩ := State.getMessage_mem hm
    exact ⟨new, ⟨m, hmem, hid⟩, deliveryOptions_none sub.providerOptions⟩
  | retried source =>
    obtain ⟨new, retry⟩ := g
    obtain ⟨x, hx, -, hid⟩ := retry.attempt
    obtain ⟨m, hm, hmid⟩ := h.attempts.message x hx
    refine ⟨new, ⟨m, hm, hmid.trans hid⟩, ?_⟩
    unfold DeliveryOptions
    rw [retry.providerOptions, retry.fromActor]
    exact h.jobs.delivery source (State.getJob_mem retry.found).1

theorem Coherent.continuation (h : Coherent cfg s) {edge : CallbackEdgeRecord} {job : JobRecord}
    {t : Timestamp} (g : (Act.continuation edge job t).guard cfg s) :
    Coherent cfg ((Act.continuation edge job t).apply cfg s) := by
  obtain ⟨new, cont⟩ := g
  obtain ⟨hemem, -⟩ := State.getEdge_mem cont.found
  obtain ⟨x, hx, -, hid⟩ := h.edges.parent_attempt edge hemem
  obtain ⟨m, hm, hmid⟩ := h.attempts.message x hx
  have hmsg : ∃ m ∈ s.messages, m.messageId = edge.parentMessageId := ⟨m, hm, hmid.trans hid⟩
  have haccept := h.accept (s.nextRetryIndex edge.parentMessageId job.agentName) t new hmsg
    (deliveryOptions_none cont.providerOptions)
  -- the edge moves on in the state the job has entered
  refine ⟨haccept.board, haccept.jobs.keep rfl le_rfl, haccept.messages,
    haccept.attempts.keep rfl rfl (List.Subset.refl _) le_rfl,
    haccept.replies.keep rfl (List.Subset.refl _) le_rfl, ?_, haccept.distinct⟩
  refine haccept.edges.update (show Act.Updates _ (edge.submitted job.jobId t) edge from
    ⟨cont.found, ⟨rfl, rfl, rfl, rfl, rfl, rfl, rfl, rfl, rfl, rfl⟩, ?_,
    fun r hr => .inl hr, fun _ =>
      ⟨job, List.mem_append_right _ (List.mem_singleton.mpr rfl), cont.callbackEdgeId⟩⟩) rfl
    (List.Subset.refl _) (List.Subset.refl _) (List.Subset.refl _) le_rfl
  rw [cont.state]
  exact ⟨by decide, by decide, by decide, fun hc => by contradiction⟩

theorem Coherent.start (h : Coherent cfg s) {agentName : AgentName} {current : JobRecord}
    {t : Timestamp} (mailboxes : AgentName → Mailbox)
    (found : s.getJob current.jobId = some current)
    (queued : current.jobId ∈ s.memory.queue agentName)
    (free : s.memory.active agentName = none) :
    Coherent cfg ((({ s with mailboxes := mailboxes }).dequeue agentName
      current.jobId).beginRunningJob current t) := by
  obtain ⟨x, hx⟩ := h.exists_attemptForJob found
  have hx' : (({ s with mailboxes := mailboxes }).dequeue agentName current.jobId).attemptForJob
      current.jobId = some x := hx
  rw [State.beginRunningJob_eq t hx']
  refine h.move (startedJob current t) (x := startedAttempt x t) ?_ rfl rfl rfl rfl
    (subset_setMessageLog _ _ _ _) ?_ le_rfl found ⟨rfl, rfl, rfl, rfl⟩ hx ⟨rfl, rfl, rfl, rfl⟩ rfl
  · exact .start agentName current t found queued free
  · exact h.setMessageLog_issued

theorem Coherent.finish (h : Coherent cfg s) {current terminal : JobRecord} {t : Timestamp}
    {dequeue : Bool} (g : (Act.finish current terminal t dequeue).guard cfg s) :
    Coherent cfg (s.finish terminal t dequeue) := by
  obtain ⟨found, live, running, same, ends⟩ := g
  have found' : s.getJob terminal.jobId = some current := same.jobId ▸ found
  obtain ⟨x, hx⟩ := h.exists_attemptForJob found'
  rw [State.finish_eq t dequeue hx]
  refine h.move terminal (x := endedAttempt x terminal.status t) ?_ rfl rfl rfl rfl
    ?_ ?_ le_rfl found' same hx ⟨rfl, rfl, rfl, rfl⟩ ?_
  · exact .finish current terminal dequeue found live running same ends
  · exact subset_refreshMessageLog
      { s with attempts := s.attempts ++ [endedAttempt x terminal.status t] } _ _
  · intro m hm
    obtain ⟨m', hm', hs⟩ := mem_refreshMessageLog hm
    exact hs.ok (h.messages m' hm')
  · rw [ends]
    exact attemptStateForStatus_terminal.symm

theorem Coherent.appendReply (h : Coherent cfg s) {job : JobRecord} {attempt : AttemptRecord}
    {status notice recipient t} (hx : attempt ∈ s.attempts) :
    Coherent cfg (State.appendReply cfg s job attempt status notice recipient t) := by
  have key : ∀ (n : ℕ) (mailboxes : AgentName → Mailbox), 0 < n → Coherent cfg { s with
      replies := s.replies ++ [s.replyRow job attempt status notice t]
      messages := { s with replies := s.replies ++ [s.replyRow job attempt status notice t] }
        |>.refreshMessageLog attempt.messageId t
      mailboxes := mailboxes
      nextId := s.nextId + n } := by
    intro n mailboxes hn
    have hle : s.nextId ≤ s.nextId + n := Nat.le_add_right _ _
    have hquiet : Coherent cfg { s with
        messages := { s with replies := s.replies ++ [s.replyRow job attempt status notice t] }
          |>.refreshMessageLog attempt.messageId t
        mailboxes := mailboxes
        nextId := s.nextId + n } := by
      refine h.quiet rfl rfl rfl rfl rfl ?_ ?_ hle
      · exact subset_refreshMessageLog
          { s with replies := s.replies ++ [s.replyRow job attempt status notice t] } _ _
      · intro m hm
        obtain ⟨m', hm', hs⟩ := mem_refreshMessageLog hm
        exact hs.ok ((h.messages m' hm').mono hle)
    refine ⟨hquiet.board, hquiet.jobs.keep rfl le_rfl, hquiet.messages,
      hquiet.attempts.keep rfl rfl (List.Subset.refl _) le_rfl, ?_, ?_, h.distinct⟩
    · exact h.replies.append rfl (List.Subset.refl _) hle le_rfl (Nat.lt_add_of_pos_right hn)
        ⟨attempt, hx, rfl, rfl⟩
    · exact h.edges.keep rfl (List.Subset.refl _) (List.Subset.refl _)
        (List.subset_append_left _ _) hle
  rcases hr : recipient.bind (State.mailboxActor cfg) with _ | a
  · rw [State.appendReply_silent _ _ _ _ _ hr]
    exact key 1 s.mailboxes Nat.one_pos
  · rw [State.appendReply_queued _ _ _ _ _ hr]
    exact key 2 _ Nat.two_pos

theorem State.pendingStatus_pending (s : State) (a : AgentName) :
    (s.pendingStatus a).pending = true := by
  unfold State.pendingStatus
  split_ifs <;> rfl

theorem Coherent.deliver (h : Coherent cfg s) {agentName : AgentName} {head : InboundEventRecord}
    {record : ReplyRecord} {t : Timestamp} (known : agentName ∈ cfg.agents) :
    Coherent cfg (s.buildReplyDeliveryJob cfg agentName head record t).1 := by
  have hle : s.nextId ≤ s.nextId + 1 + 2 := by omega
  refine h.enter (s.buildJobRecord cfg agentName
    (State.replyDeliveryRequest cfg agentName record)
    (State.replyDeliveryOptions head.inboundEventId record.replyId) none t) rfl rfl rfl rfl rfl
    (List.subset_append_left _ _) ?_ hle ?_ ?_ (State.pendingStatus_pending _ _) known ?_ ?_
    (.inr ⟨_, _, rfl, rfl, rfl, rfl⟩) rfl rfl ?_ ?_ ?_ ?_ rfl
  · intro m hm
    simp only [State.buildReplyDeliveryJob, State.rewriteReplyHead, State.setMailbox,
      State.appendReplyDeliveryMessage, State.enqueueJob, State.appendJob, List.mem_append,
      List.mem_singleton] at hm ⊢
    rcases hm with hm | rfl
    · exact (h.messages m hm).mono hle
    · refine ⟨?_, List.nodup_singleton _, List.cons_ne_nil _ _⟩
      show s.nextId + 1 < s.nextId + 1 + 2
      omega
  · intro r hr
    exact (h.jobs.issued r hr).ne
  · intro x hx
    exact (h.attempts.issued x hx).ne
  · show s.nextId < s.nextId + 1 + 2
    omega
  · intro e he
    contradiction
  · show s.nextId ≤ s.nextId + 1 + 1
    omega
  · show s.nextId + 1 + 1 ≠ s.nextId
    omega
  · show s.nextId + 1 + 1 < s.nextId + 1 + 2
    omega
  · exact ⟨_, List.mem_append_right _ (List.mem_singleton.mpr rfl), rfl⟩

/-- Every act keeps the logs coherent. -/
theorem Act.coherent {act : Act} (g : act.guard cfg s) (h : Coherent cfg s) :
    Coherent cfg (act.apply cfg s) := by
  cases act with
  | issue count =>
    refine h.quiet rfl rfl rfl rfl rfl (List.Subset.refl _) ?_ (Nat.le_add_right _ _)
    intro m hm
    exact (h.messages m hm).mono (Nat.le_add_right _ _)
  | newMessage message =>
    refine h.quiet rfl rfl rfl rfl rfl (List.subset_append_left _ _) ?_ (Nat.le_add_right _ _)
    intro m hm
    rcases List.mem_append.mp hm with hm | hm
    · exact (h.messages m hm).mono (Nat.le_succ _)
    · rw [List.mem_singleton.mp hm]
      refine ⟨?_, g.2.2.1, g.2.2.2⟩
      rw [g.1]
      exact Nat.lt_succ_self _
  | accept origin job messageId i t =>
    obtain ⟨new, hmsg, hd⟩ := h.accept_guard g
    exact h.accept i t new hmsg hd
  | continuation edge job t => exact h.continuation g
  | startRequest agentName current t => exact h.start s.mailboxes g.1 g.2.2.1 g.2.2.2
  | startDelivery agentName current t =>
    simp only [Act.apply]
    rw [State.claimReplyDeliveryStart_fst]
    exact h.start _ g.1 g.2.2.1 g.2.2.2.1
  | finish current terminal t dequeue => exact h.finish g
  | touch record =>
    obtain ⟨current, found, same, status⟩ := g
    obtain ⟨hcmem, hcid⟩ := State.getJob_mem found
    refine ⟨?_, ?_, h.messages, ?_, ?_, ?_, ?_⟩
    · exact h.board.touch record current found same status
    · exact h.jobs.append_same rfl le_rfl found same
    · exact h.attempts.touch rfl rfl (List.Subset.refl _) le_rfl found status
    · exact h.replies.keep rfl (List.Subset.refl _) le_rfl
    · exact h.edges.keep rfl (List.subset_append_left _ _) (List.Subset.refl _)
        (List.Subset.refl _) le_rfl
    · intro x hx r hr
      rcases List.mem_append.mp hr with hr | hr
      · exact h.distinct x hx r hr
      · rw [List.mem_singleton.mp hr, ← hcid]
        exact h.distinct x hx current hcmem
  | waiting edge t =>
    exact h.quiet rfl rfl rfl rfl rfl (subset_setMessageLog _ _ _ _) h.setMessageLog_issued le_rfl
  | reply job attempt status recipient t =>
    exact h.appendReply (State.attemptForJob_mem g.1).1
  | notice edge job attempt t =>
    exact h.appendReply (State.attemptForJob_mem g.2.2).1
  | register edge =>
    have hle : s.nextId ≤ s.nextId + 1 := Nat.le_add_right _ _
    refine ⟨h.board, h.jobs.keep rfl hle, fun m hm => (h.messages m hm).mono hle,
      h.attempts.keep rfl rfl (List.Subset.refl _) hle,
      h.replies.keep rfl (List.Subset.refl _) hle, ?_, h.distinct⟩
    exact h.edges.register g rfl rfl rfl rfl (Nat.lt_succ_self _)
  | update edge =>
    obtain ⟨current, upd⟩ := g
    refine ⟨h.board, h.jobs.keep rfl le_rfl, h.messages,
      h.attempts.keep rfl rfl (List.Subset.refl _) le_rfl,
      h.replies.keep rfl (List.Subset.refl _) le_rfl, ?_, h.distinct⟩
    exact h.edges.update upd rfl (List.Subset.refl _) (List.Subset.refl _) (List.Subset.refl _)
      le_rfl
  | deliver agentName head record t => exact h.deliver g.1
  | reset agentName event replyId t => exact h.mailboxes _
  | consumeDelivered agentName head job t =>
    simp only [Act.apply]
    rw [State.resolveReplyDeliveryTerminal_eq]
    exact h.mailboxes _
  | acknowledge agentName head t => exact h.mailboxes _
  | endRequest agentName event status t => exact h.mailboxes _
  | discard agentName head t => exact h.mailboxes _
  | refresh agentName t => exact h.mailboxes _
  | disableAuto => exact h.quiet rfl rfl rfl rfl rfl (List.Subset.refl _) h.messages le_rfl

theorem Coherent.initial (auto : Bool) : Coherent cfg (State.initial auto) := by
  refine ⟨⟨?_, ?_, ?_, ?_, ?_⟩, ⟨?_, ?_, ?_⟩, ?_, ⟨?_, ?_, ?_, ?_, ?_, ?_⟩, ⟨?_, ?_, ?_⟩,
    ⟨?_, ?_, ?_, ?_, ?_, ?_, ?_, ?_, ?_⟩, ?_⟩ <;>
    simp [State.initial, State.board, State.getJob, Board.find, Board.listAgent, Board.pendingIds]

end CodexBridge.Dispatch
