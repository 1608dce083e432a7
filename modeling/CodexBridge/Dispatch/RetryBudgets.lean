import CodexBridge.Dispatch.Lineages
import CodexBridge.Dispatch.OutcomeRuns

/-! Retries have indexes, and automatic ones a budget. The attempts of an agent on a message
are created in the order of their indexes, whoever asks for them. An automatic retry takes
the index after the one of the attempt that has failed, which its policy bounds. -/

namespace CodexBridge.Dispatch

open AppendLog

variable {cfg : Config} {w : World} {s s₀ s' : State}

/-! ### First rows -/

section Firsts
variable {α κ : Type} [DecidableEq κ] {key : α → κ} {log : List α}

/-- The first row of every key, in the order of the log. -/
def firsts (key : α → κ) (log : List α) : List α :=
  log.foldl (fun found row => if key row ∈ found.map key then found else found ++ [row]) []

theorem firsts_concat (row : α) :
    firsts key (log ++ [row]) =
      if key row ∈ (firsts key log).map key then firsts key log else firsts key log ++ [row] := by
  rw [firsts, List.foldl_append]
  rfl

theorem mem_of_mem_firsts {row : α} (h : row ∈ firsts key log) : row ∈ log := by
  induction log using List.reverseRecOn with
  | nil => exact h
  | append_singleton log last ih =>
    rw [firsts_concat] at h
    split_ifs at h
    · exact List.mem_append_left _ (ih h)
    · rcases List.mem_append.mp h with h | h
      · exact List.mem_append_left _ (ih h)
      · exact List.mem_append_right _ h

theorem mem_keys_firsts {row : α} (h : row ∈ log) : key row ∈ (firsts key log).map key := by
  induction log using List.reverseRecOn with
  | nil => exact absurd h List.not_mem_nil
  | append_singleton log last ih =>
    rw [firsts_concat]
    rcases List.mem_append.mp h with h | h
    · split_ifs
      · exact ih h
      · rw [List.map_append]
        exact List.mem_append_left _ (ih h)
    · obtain rfl := List.mem_singleton.mp h
      split_ifs with hfound
      · exact hfound
      · simp

end Firsts

/-! ### Indexes -/

/-- The attempts in the order in which they were created. -/
def State.created (s : State) : List AttemptRecord := firsts AttemptRecord.attemptId s.attempts

/-- The rows of an attempt have one index, and the attempts of an agent on a message are in the
order of their indexes. -/
structure Ascending (s : State) : Prop where
  index : ∀ x ∈ s.attempts, ∀ y ∈ s.attempts, x.attemptId = y.attemptId →
    x.retryIndex = y.retryIndex
  ordered : s.created.Pairwise fun x y =>
    x.messageId = y.messageId → x.agentName = y.agentName → x.retryIndex < y.retryIndex

theorem Ascending.initial (auto : Bool) : Ascending (State.initial auto) :=
  ⟨fun _ hx => absurd hx List.not_mem_nil, List.Pairwise.nil⟩

/-- The attempt of a new job is a new one. -/
theorem Act.newJob_attempt {act : Act} {job : JobRecord} {m : MessageId} {y : AttemptRecord}
    (hnew : act.newJob cfg s = some (job, m))
    (hattempts : (act.apply cfg s).attempts = s.attempts ++ [y]) :
    s.nextId ≤ y.attemptId ∧ y.jobId = job.jobId := by
  cases act <;> simp only [Act.newJob, Option.some.injEq, Prod.mk.injEq, reduceCtorEq] at hnew
  case accept origin job' m' i t =>
    obtain ⟨rfl, -⟩ := hnew
    obtain rfl := List.singleton_injective (List.append_cancel_left hattempts)
    exact ⟨le_rfl, rfl⟩
  case continuation edge job' t =>
    obtain ⟨rfl, -⟩ := hnew
    obtain rfl := List.singleton_injective (List.append_cancel_left hattempts)
    exact ⟨le_rfl, rfl⟩
  case deliver a head record t =>
    obtain ⟨rfl, -⟩ := hnew
    obtain rfl := List.singleton_injective (List.append_cancel_left hattempts)
    exact ⟨Nat.le_add_right s.nextId 2, rfl⟩

theorem index_concat {log : List AttemptRecord} {y : AttemptRecord}
    (h : ∀ x ∈ log, ∀ z ∈ log, x.attemptId = z.attemptId → x.retryIndex = z.retryIndex)
    (hy : ∀ x ∈ log, x.attemptId = y.attemptId → x.retryIndex = y.retryIndex) :
    ∀ x ∈ log ++ [y], ∀ z ∈ log ++ [y], x.attemptId = z.attemptId →
      x.retryIndex = z.retryIndex := by
  intro x hx z hz hid
  rcases List.mem_append.mp hx with hx' | hx'
  · rcases List.mem_append.mp hz with hz' | hz'
    · exact h x hx' z hz' hid
    · obtain rfl := List.mem_singleton.mp hz'
      exact hy x hx' hid
  · obtain rfl := List.mem_singleton.mp hx'
    rcases List.mem_append.mp hz with hz' | hz'
    · exact (hy z hz' hid.symm).symm
    · rw [List.mem_singleton.mp hz']

theorem Act.ascending {act : Act} (h : Sound cfg s) (g : act.guard cfg s) (asc : Ascending s) :
    Ascending (act.apply cfg s) := by
  cases Act.rows h.coherent g with
  | none attempts =>
    refine ⟨attempts ▸ asc.index, ?_⟩
    rw [State.created, attempts]
    exact asc.ordered
  | further x y attempts found live same index =>
    have hkey : y.attemptId ∈ (firsts AttemptRecord.attemptId s.attempts).map
        AttemptRecord.attemptId := same.attemptId ▸ mem_keys_firsts found
    refine ⟨attempts ▸ index_concat asc.index fun z hz hid => ?_, ?_⟩
    · rw [index]
      exact asc.index z hz x found (hid.trans same.attemptId)
    · rw [State.created, attempts, firsts_concat, if_pos hkey]
      exact asc.ordered
  | new y job attempts newJob agent index =>
    obtain ⟨hfresh, -⟩ := Act.newJob_attempt newJob attempts
    have hne : ∀ x ∈ s.attempts, x.attemptId ≠ y.attemptId :=
      fun x hx => ((h.coherent.attempts.issued x hx).trans_le hfresh).ne
    have hkey : y.attemptId ∉ (firsts AttemptRecord.attemptId s.attempts).map
        AttemptRecord.attemptId := by
      intro hmem
      obtain ⟨x, hx, hid⟩ := List.mem_map.mp hmem
      exact hne x (mem_of_mem_firsts hx) hid
    refine ⟨attempts ▸ index_concat asc.index fun z hz hid => absurd hid (hne z hz), ?_⟩
    rw [State.created, attempts, firsts_concat, if_neg hkey, List.pairwise_append]
    refine ⟨asc.ordered, List.pairwise_singleton _ _, ?_⟩
    intro x hx z hz hm ha
    obtain rfl := List.mem_singleton.mp hz
    exact index x (mem_of_mem_firsts hx) hm ha

/-! ### Policies -/

/-- The message of a row was there before, with its policy. -/
def FromMessages (s : State) (m : MessageRecord) : Prop :=
  ∃ m' ∈ s.messages, m'.messageId = m.messageId ∧ m'.retryPolicy = m.retryPolicy

theorem FromMessages.of_mem {m : MessageRecord} (h : m ∈ s.messages) : FromMessages s m :=
  ⟨m, h, rfl, rfl⟩

theorem FromMessages.set {id next t} {m : MessageRecord}
    (h : m ∈ setMessageLog s.messages id next t) : FromMessages s m := by
  unfold setMessageLog at h
  split at h
  · exact .of_mem h
  · rename_i current hc
    split_ifs at h
    · exact .of_mem h
    · rcases List.mem_append.mp h with h | h
      · exact .of_mem h
      · obtain rfl := List.mem_singleton.mp h
        exact ⟨current, (findLast_some hc).1, rfl, rfl⟩

theorem FromMessages.refresh (s₁ : State) (hs : s₁.messages = s.messages) {id t}
    {m : MessageRecord} (h : m ∈ s₁.refreshMessageLog id t) : FromMessages s m := by
  unfold State.refreshMessageLog at h
  split_ifs at h
  · exact .of_mem (hs ▸ h)
  · exact .set (hs ▸ h)

theorem FromMessages.start (hc : Coherent cfg s) {agentName : AgentName} {current : JobRecord}
    {t : Timestamp} (mailboxes : AgentName → Mailbox)
    (found : s.getJob current.jobId = some current) {m : MessageRecord}
    (h : m ∈ ((({ s with mailboxes := mailboxes }).dequeue agentName
      current.jobId).beginRunningJob current t).messages) : FromMessages s m := by
  obtain ⟨x, hx⟩ := hc.exists_attemptForJob found
  have hx' : (({ s with mailboxes := mailboxes }).dequeue agentName current.jobId).attemptForJob
      current.jobId = some x := hx
  rw [State.beginRunningJob_eq t hx'] at h
  exact .set h

theorem FromMessages.reply {job : JobRecord} {attempt : AttemptRecord} {status notice recipient t}
    {m : MessageRecord}
    (h : m ∈ (State.appendReply cfg s job attempt status notice recipient t).messages) :
    FromMessages s m := by
  rcases hr : recipient.bind (State.mailboxActor cfg) with _ | b
  · rw [State.appendReply_silent _ _ _ _ _ hr] at h
    exact .refresh { s with replies := s.replies ++ [s.replyRow job attempt status notice t] } rfl h
  · rw [State.appendReply_queued _ _ _ _ _ hr] at h
    exact .refresh { s with replies := s.replies ++ [s.replyRow job attempt status notice t] } rfl h

/-- What an act does to the messages: it adds a new one, or rows of those there are. -/
inductive Act.Messages (cfg : Config) (s : State) (act : Act) : Prop
  | rows (kept : ∀ m ∈ (act.apply cfg s).messages, FromMessages s m)
  | new (record : MessageRecord) (messages : (act.apply cfg s).messages = s.messages ++ [record])
      (fresh : s.nextId ≤ record.messageId)

theorem Act.messages {act : Act} (hc : Coherent cfg s) (g : act.guard cfg s) :
    Act.Messages cfg s act := by
  cases act with
  | newMessage record => exact .new record rfl g.1.ge
  | deliver agentName head record t => exact .new _ rfl (Nat.le_succ _)
  | accept origin job messageId i t => exact .rows fun m h => .set h
  | continuation edge job t => exact .rows fun m h => .set h
  | startRequest agentName current t => exact .rows fun m h => .start hc s.mailboxes g.1 h
  | startDelivery agentName current t =>
    have happly : (Act.startDelivery agentName current t).apply cfg s = (({ s with
        mailboxes := (s.claimReplyDeliveryStart current t).1.mailboxes }).dequeue agentName
          current.jobId).beginRunningJob current t := by
      rw [← State.claimReplyDeliveryStart_fst]
      rfl
    exact .rows fun m h => .start hc _ g.1 (happly ▸ h)
  | finish current terminal t dequeue =>
    obtain ⟨found, -, -, same, -⟩ := g
    obtain ⟨x, hx⟩ := hc.exists_attemptForJob (same.jobId ▸ found)
    have heq := State.finish_eq t dequeue hx
    exact .rows fun m h =>
      .refresh { s with attempts := s.attempts ++ [endedAttempt x terminal.status t] } rfl
        ((congrArg State.messages heq) ▸ h)
  | waiting edge t => exact .rows fun m h => .set h
  | reply job attempt status recipient t => exact .rows fun m h => .reply h
  | notice edge job attempt t => exact .rows fun m h => .reply h
  | consumeDelivered agentName head job t =>
    refine .rows fun m h => ?_
    simp only [Act.apply] at h
    rw [State.resolveReplyDeliveryTerminal_eq] at h
    exact .of_mem h
  | _ => exact .rows fun m h => .of_mem h

/-- The rows of a message have one policy. -/
def Policies (s : State) : Prop :=
  ∀ m ∈ s.messages, ∀ m' ∈ s.messages, m.messageId = m'.messageId → m.retryPolicy = m'.retryPolicy

theorem Act.policies {act : Act} (hc : Coherent cfg s) (g : act.guard cfg s) (h : Policies s) :
    Policies (act.apply cfg s) := by
  intro m hm m' hm' hid
  cases Act.messages hc g with
  | rows kept =>
    obtain ⟨n, hn, hnid, hnpolicy⟩ := kept m hm
    obtain ⟨n', hn', hnid', hnpolicy'⟩ := kept m' hm'
    rw [← hnpolicy, ← hnpolicy']
    exact h n hn n' hn' (hnid.trans (hid.trans hnid'.symm))
  | new record messages fresh =>
    have hne : ∀ n ∈ s.messages, n.messageId ≠ record.messageId :=
      fun n hn => ((hc.messages n hn).issued.trans_le fresh).ne
    rw [messages] at hm hm'
    rcases List.mem_append.mp hm with hold | hnew
    · rcases List.mem_append.mp hm' with hold' | hnew'
      · exact h m hold m' hold' hid
      · rw [List.mem_singleton.mp hnew'] at hid
        exact absurd hid (hne m hold)
    · rw [List.mem_singleton.mp hnew] at hid ⊢
      rcases List.mem_append.mp hm' with hold' | hnew'
      · exact absurd hid.symm (hne m' hold')
      · rw [List.mem_singleton.mp hnew']

/-! ### Budgets -/

/-- The attempts of the jobs `retried` are retries that the policies of their messages allow. -/
structure Budgeted (retried : List JobId) (s : State) : Prop where
  known : ∀ j ∈ retried, ∃ r ∈ s.jobs, r.jobId = j
  index : ∀ x ∈ s.attempts, x.jobId ∈ retried → 0 < x.retryIndex ∧
    ∀ m ∈ s.messages, m.messageId = x.messageId → x.retryIndex < max m.retryPolicy.maxAttempts 1

theorem Act.budgeted {act : Act} {retried : List JobId} (h : Sound cfg s) (g : act.guard cfg s)
    (b : Budgeted retried s) : Budgeted retried (act.apply cfg s) := by
  have hallowed : ∀ x ∈ s.attempts, x.jobId ∈ retried → ∀ m ∈ (act.apply cfg s).messages,
      m.messageId = x.messageId → x.retryIndex < max m.retryPolicy.maxAttempts 1 := by
    intro x hx hj m hm hid
    cases Act.messages h.coherent g with
    | rows kept =>
      obtain ⟨m', hm', hid', hpolicy⟩ := kept m hm
      rw [← hpolicy]
      exact (b.index x hx hj).2 m' hm' (hid'.trans hid)
    | new record messages fresh =>
      rw [messages] at hm
      rcases List.mem_append.mp hm with hm | hm
      · exact (b.index x hx hj).2 m hm hid
      · rw [List.mem_singleton.mp hm] at hid
        exact absurd hid (h.coherent.message_lt hx |>.trans_le fresh).ne'
  refine ⟨fun j hj => ?_, fun x hx hj => ?_⟩
  · obtain ⟨r, hr, hid⟩ := b.known j hj
    exact ⟨r, (Act.extends h.coherent g).jobs hr, hid⟩
  · cases Act.rows h.coherent g with
    | none attempts =>
      rw [attempts] at hx
      exact ⟨(b.index x hx hj).1, hallowed x hx hj⟩
    | further y z attempts found live same index =>
      rw [attempts] at hx
      rcases List.mem_append.mp hx with hx | hx
      · exact ⟨(b.index x hx hj).1, hallowed x hx hj⟩
      · obtain rfl := List.mem_singleton.mp hx
        rw [same.jobId] at hj
        rw [index, same.messageId]
        exact ⟨(b.index y found hj).1, hallowed y found hj⟩
    | new y job attempts newJob agent index =>
      rw [attempts] at hx
      rcases List.mem_append.mp hx with hx | hx
      · exact ⟨(b.index x hx hj).1, hallowed x hx hj⟩
      · obtain rfl := List.mem_singleton.mp hx
        obtain ⟨-, hyj⟩ := Act.newJob_attempt newJob attempts
        obtain ⟨r, hr, hid⟩ := b.known x.jobId hj
        exact absurd (hid.trans hyj) ((Act.newJob_fresh h g newJob).1 r hr)

/-! ### Automatic retries -/

/-- The job that the completion of `j` schedules to retry it, if it is retried automatically. -/
def State.automaticRetry (cfg : Config) (w : World) (s : State) (j : JobId)
    (decision : CompletionDecision) : Option JobId :=
  (s.getJob j).bind fun current =>
    if current.status.terminal || State.isReplyDeliveryJob current then none
    else
      let finishedAt := decision.finishedAt
      let merged := State.mergeTerminalDecision w j decision
      let terminal := State.terminalJob current merged finishedAt
      let ended := (s.persistTerminalCompletion terminal).recordAttemptTerminal terminal finishedAt
      if (State.settleCompletion cfg w s.jobs.length ended current terminal merged finishedAt).2
      then some ended.nextId else none

/-- A retry is scheduled for a planned failure only. -/
theorem settleCompletion_retried {current terminal : JobRecord} {decision : CompletionDecision}
    {depth : ℕ} {t : Timestamp}
    (h : (State.settleCompletion cfg w depth s current terminal decision t).2 = true) :
    s.automaticRetryPlan cfg current decision = true ∧
      ∃ retried, s.retryAttempt cfg current.jobId (w.clock depth .retry) = .ok retried ∧
        (State.settleCompletion cfg w depth s current terminal decision t).1 = retried.1 := by
  unfold State.settleCompletion at h ⊢
  split at h
  · contradiction
  · split at h
    · rename_i retried hretried
      obtain ⟨hplan, hok⟩ := retried_of_plan hretried
      exact ⟨hplan, retried, hok, rfl⟩
    · contradiction

theorem automaticRetryPlan_lt {current : JobRecord} {decision : CompletionDecision}
    (h : s.automaticRetryPlan cfg current decision = true) :
    ∃ x m, s.attemptForJob current.jobId = some x ∧ s.getMessage x.messageId = some m ∧
      x.retryIndex + 1 < max m.retryPolicy.maxAttempts 1 := by
  unfold State.automaticRetryPlan State.retryableFailureContext at h
  cases hx : s.attemptForJob current.jobId with
  | none =>
    rw [hx] at h
    contradiction
  | some x =>
    cases hm : s.getMessage x.messageId with
    | none =>
      rw [hx, Option.bind_some, hm] at h
      contradiction
    | some m =>
      refine ⟨x, m, rfl, hm, ?_⟩
      rw [hx, Option.bind_some, hm, Option.bind_some] at h
      split_ifs at h
      · simpa using h
      · contradiction

theorem nextRetryIndex_le {m : MessageId} {a : AgentName} {n : ℕ}
    (h : ∀ x ∈ s.attempts, x.messageId = m → x.agentName = a → x.retryIndex < n) :
    s.nextRetryIndex m a ≤ n := by
  unfold State.nextRetryIndex
  generalize s.attempts = l at h
  induction l using List.reverseRecOn with
  | nil => exact Nat.zero_le n
  | append_singleton l y ih =>
    have ih := ih fun x hx => h x (List.mem_append_left _ hx)
    rw [List.foldl_append, List.foldl_cons, List.foldl_nil]
    split_ifs with hy
    · exact max_le ih (h y (by simp) hy.1 hy.2)
    · exact ih

/-- The source of a retry has the greatest index of its agent on the message. -/
theorem RetryOf.greatest (h : Coherent cfg s) (asc : Ascending s) {source job : JobRecord}
    {m : MessageId} {i : ℕ} (r : Act.RetryOf s source job m i) {x : AttemptRecord}
    (hx : s.attemptForJob source.jobId = some x) {y : AttemptRecord} (hy : y ∈ s.attempts)
    (hm : y.messageId = m) (ha : y.agentName = job.agentName) : y.retryIndex ≤ x.retryIndex := by
  obtain ⟨best, hbest, hsource⟩ := r.latest
  obtain ⟨hbmem, -, hgreatest⟩ := State.latestAttemptForAgent_eq hbest
  obtain ⟨hbmem', -⟩ := State.mem_of_latestAttempts hbmem
  obtain ⟨hxmem, hxj⟩ := State.attemptForJob_mem hx
  obtain ⟨z, hz, hzid⟩ := State.exists_latestAttempt hy
  obtain ⟨hzmem, -⟩ := State.mem_of_latestAttempts hz
  have sameZ := h.attempts.key z hzmem y hy (.inl hzid)
  have sameX := h.attempts.key best hbmem' x hxmem (.inr (hsource.trans hxj.symm))
  calc y.retryIndex = z.retryIndex := asc.index y hy z hzmem hzid.symm
    _ ≤ best.retryIndex :=
        Prod.Lex.monotone_fst _ _ (hgreatest z (hm ▸ hz) (sameZ.agentName.trans ha))
    _ = x.retryIndex := asc.index best hbmem' x hxmem sameX.attemptId

theorem retryAttempt_job {target : ℕ} {t : Timestamp} {retried : State × JobId}
    (hok : s.retryAttempt cfg target t = .ok retried) :
    ∃ job, retried.1.jobs = s.jobs ++ [job] ∧ job.jobId = s.nextId := by
  unfold State.retryAttempt at hok
  simp only [bind, Except.bind, pure, Except.pure] at hok
  split at hok
  · contradiction
  · obtain rfl := Except.ok.inj hok
    exact ⟨_, rfl, rfl⟩

/-- The completion of a job that is retried ends with the retry. -/
theorem automaticRetry_acts (h : Sound cfg s) {j r : JobId} {decision : CompletionDecision}
    (admissible : (Op.complete j decision).admissible s)
    (hr : s.automaticRetry cfg w j decision = some r) :
    ∃ ended current source job m i t, Path cfg (fun _ _ => True) s ended ∧
      ended.automaticRetryPlan cfg current (State.mergeTerminalDecision w j decision) = true ∧
      current.jobId = source.jobId ∧
      (Act.accept (.retried source) job m i t).guard cfg ended ∧ job.jobId = r ∧
      exec cfg w s (.complete j decision) =
        (Act.accept (.retried source) job m i t).apply cfg ended := by
  obtain ⟨current, found, hr⟩ := Option.bind_eq_some_iff.mp hr
  split_ifs at hr with hlive
  simp only [Bool.or_eq_true, not_or, Bool.not_eq_true] at hlive
  obtain ⟨live, delivery⟩ := hlive
  obtain rfl : current.jobId = j := (State.getJob_mem found).2
  set terminal := State.completedRow w current decision
  set merged := State.mergeTerminalDecision w current.jobId decision
  have hended : (s.persistTerminalCompletion terminal).recordAttemptTerminal terminal
      decision.finishedAt = s.finish terminal decision.finishedAt false := by
    have hdelivery : State.isReplyDeliveryJob terminal = false := delivery
    rw [State.finish, resolveReplyDeliveryTerminal_of_not _ hdelivery,
      State.persistTerminalCompletion, clearActive_eq_leave]
  dsimp only at hr
  rw [show State.terminalJob current merged decision.finishedAt = terminal from rfl, hended] at hr
  split_ifs at hr with hretried
  obtain rfl := Option.some.inj hr
  obtain ⟨hplan, retried, hok, hsettled⟩ := settleCompletion_retried hretried
  have g : (Act.finish current terminal decision.finishedAt false).guard cfg s :=
    finish_guard decision found live
      fun _ => JobStatus.running_of_live live (admissible current found)
  have hs : Sound cfg (s.finish terminal decision.finishedAt false) := Act.sound g h
  obtain ⟨c, hc, same, -⟩ := (finished_finish h.coherent g rfl).found
  obtain ⟨x, source, job, m, i, hx, -, hsource, gretry, heq⟩ := retryAttempt_acts hs hok
  obtain ⟨job', hjobs, hjob'⟩ := retryAttempt_job hok
  have hxj := (State.attemptForJob_mem (hs.coherent.retryTarget_job hc hx)).2
  refine ⟨(Act.issue 1).apply cfg (s.finish terminal decision.finishedAt false), current, source,
    job, m, i, _, ?_, hplan, ?_, gretry, ?_, ?_⟩
  · exact Relation.ReflTransGen.trans (Path.single (.finish current terminal _ false) trivial g)
      (Path.single (.issue 1) trivial trivial)
  · rw [(State.getJob_mem hsource).2, hxj]
  · rw [heq] at hjobs
    rw [← hjob', List.singleton_injective (List.append_cancel_left hjobs)]
  · show State.completeJob cfg w s.depth s current.jobId decision = _
    rw [State.depth, ← heq, ← hsettled]
    refine (completeJob_eq decision found live (clearActive_eq_leave s.memory _ _)).trans ?_
    have hnot : ¬State.isReplyDeliveryJob current = true := by simp [delivery]
    unfold State.conclude
    dsimp only
    rw [if_neg hnot, if_pos hretried]

/-- An automatic retry takes the index after the one of its source, which the policy bounds. -/
theorem automaticRetry_index (h : Sound cfg s) (asc : Ascending s) (policies : Policies s)
    {current source job : JobRecord} {decision : CompletionDecision} {m : MessageId} {i : ℕ}
    (hplan : s.automaticRetryPlan cfg current decision = true)
    (hsource : current.jobId = source.jobId) (r : Act.RetryOf s source job m i) :
    0 < i ∧ ∀ message ∈ s.messages, message.messageId = m →
      i < max message.retryPolicy.maxAttempts 1 := by
  obtain ⟨x, message, hx, hmessage, hlt⟩ := automaticRetryPlan_lt hplan
  rw [hsource] at hx
  obtain ⟨hxmem, hxj⟩ := State.attemptForJob_mem hx
  obtain ⟨best, hbest, hbestJob⟩ := r.latest
  obtain ⟨hbmem, hagent, -⟩ := State.latestAttemptForAgent_eq hbest
  obtain ⟨hbmem, hbm⟩ := State.mem_of_latestAttempts hbmem
  have same := h.coherent.attempts.key x hxmem best hbmem (.inr (hxj.trans hbestJob.symm))
  have hxm : x.messageId = m := same.messageId.trans hbm
  have hxa : x.agentName = job.agentName := same.agentName.trans hagent
  have hindex : i ≤ x.retryIndex + 1 := by
    rw [r.index]
    refine nextRetryIndex_le fun z hz hzm hza => Nat.lt_succ_of_le ?_
    exact RetryOf.greatest h.coherent asc r hx hz hzm hza
  refine ⟨?_, fun message' hmem hid => ?_⟩
  · rw [r.index, ← hxm, ← hxa]
    exact (Nat.zero_le _).trans_lt (State.lt_nextRetryIndex hxmem)
  · obtain ⟨hmem', hid'⟩ := State.getMessage_mem hmessage
    rw [policies message' hmem message hmem' (hid.trans (hxm.symm.trans hid'.symm))]
    exact hindex.trans_lt hlt

/-! ### Runs -/

/-- The job of the automatic retry that an operation schedules. Other operations than a
completion complete deliveries only, which are not retried, or end their jobs without a
failure. -/
def Op.automaticRetry (cfg : Config) (w : World) (s : State) : Op → Option JobId
  | .complete j decision => s.automaticRetry cfg w j decision
  | _ => none

/-- A run, with the jobs that automatic retries have created in it. -/
inductive RetryRun (cfg : Config) : State → List JobId → Prop
  | initial (autoReplyDelivery : Bool) : RetryRun cfg (State.initial autoReplyDelivery) []
  | step {s : State} {retried : List JobId} (w : World) (op : Op) (run : RetryRun cfg s retried)
      (admissible : op.admissible s) :
      RetryRun cfg (exec cfg w s op) (retried ++ (op.automaticRetry cfg w s).toList)

/-- What holds along a run of retries. -/
structure Retrying (cfg : Config) (retried : List JobId) (s : State) : Prop where
  sound : Sound cfg s
  ascending : Ascending s
  policies : Policies s
  budgeted : Budgeted retried s

theorem Retrying.act {act : Act} {retried : List JobId} (h : Retrying cfg retried s)
    (g : act.guard cfg s) : Retrying cfg retried (act.apply cfg s) :=
  ⟨Act.sound g h.sound, Act.ascending h.sound g h.ascending,
    Act.policies h.sound.coherent g h.policies, Act.budgeted h.sound g h.budgeted⟩

theorem Retrying.path {permits : State → Act → Prop} {retried : List JobId}
    (h : Retrying cfg retried s) (p : Path cfg permits s s') : Retrying cfg retried s' := by
  induction p with
  | refl => exact h
  | tail _ hact ih =>
    obtain ⟨act, -, g, rfl⟩ := hact
    exact ih.act g

/-- An automatic retry uses its budget. -/
theorem Retrying.retry {retried : List JobId} (h : Retrying cfg retried s)
    {current source job : JobRecord} {decision : CompletionDecision} {m : MessageId} {i : ℕ}
    {t : Timestamp} (hplan : s.automaticRetryPlan cfg current decision = true)
    (hsource : current.jobId = source.jobId)
    (g : (Act.accept (.retried source) job m i t).guard cfg s) :
    Retrying cfg (retried ++ [job.jobId])
      ((Act.accept (.retried source) job m i t).apply cfg s) := by
  have h' := h.act g
  obtain ⟨hpos, hbound⟩ := automaticRetry_index h.sound h.ascending h.policies hplan hsource g.2
  have hfresh := (Act.newJob_fresh h.sound g rfl).2
  refine ⟨h'.sound, h'.ascending, h'.policies, ⟨fun j hj => ?_, fun x hx hj => ?_⟩⟩
  · rcases List.mem_append.mp hj with hj | hj
    · exact h'.budgeted.known j hj
    · rw [List.mem_singleton.mp hj]
      exact ⟨job, List.mem_append_right _ (List.mem_singleton_self _), rfl⟩
  · rcases List.mem_append.mp hj with hj | hj
    · exact h'.budgeted.index x hx hj
    · have hj := List.mem_singleton.mp hj
      rcases List.mem_append.mp hx with hx | hx
      · exact absurd hj (hfresh x hx)
      · obtain rfl := List.mem_singleton.mp hx
        refine ⟨hpos, fun message hmessage hid => ?_⟩
        obtain ⟨message', hmem, hid', hpolicy⟩ : FromMessages s message := .set hmessage
        rw [← hpolicy]
        exact hbound message' hmem (hid'.trans hid)

theorem RetryRun.retrying {retried : List JobId} (run : RetryRun cfg s retried) :
    Retrying cfg retried s := by
  induction run with
  | initial auto =>
    exact ⟨Sound.initial auto, Ascending.initial auto, fun _ hm => absurd hm List.not_mem_nil,
      fun _ hj => absurd hj List.not_mem_nil, fun _ hx => absurd hx List.not_mem_nil⟩
  | step w op run admissible ih =>
    cases hretry : op.automaticRetry cfg w _ with
    | none =>
      rw [Option.toList_none, List.append_nil]
      exact ih.path (exec_path ih.sound op admissible)
    | some r =>
      cases op with
      | complete j decision =>
        obtain ⟨ended, current, source, job, m, i, t, p, hplan, hsource, g, rfl, hexec⟩ :=
          automaticRetry_acts ih.sound admissible hretry
        rw [hexec, Option.toList_some]
        exact (ih.path p).retry hplan hsource g
      | _ => contradiction

/-- Numbers that increase below a bound, from one on. -/
theorem length_le_of_pairwise_lt {l : List AttemptRecord} {n : ℕ}
    (increasing : l.Pairwise fun x y => x.retryIndex < y.retryIndex)
    (bounds : ∀ x ∈ l, 0 < x.retryIndex ∧ x.retryIndex < n) : l.length ≤ n - 1 := by
  have hnodup : (l.map AttemptRecord.retryIndex).Nodup :=
    (List.pairwise_map.mpr increasing).imp fun h => h.ne
  have hsubset : (l.map AttemptRecord.retryIndex) ⊆ List.range' 1 (n - 1) := by
    intro i hi
    obtain ⟨x, hx, rfl⟩ := List.mem_map.mp hi
    have := bounds x hx
    rw [List.mem_range'_1]
    omega
  simpa using (List.subperm_of_subset hnodup hsubset).length_le

/-- The attempts of an agent on a message are created in the order of their indexes, and at most
`max_attempts - 1` of them by automatic retries. -/
theorem automatic_retries_bounded {retried : List JobId} (run : RetryRun cfg s retried) :
    s.created.Pairwise (fun x y =>
      x.messageId = y.messageId → x.agentName = y.agentName → x.retryIndex < y.retryIndex) ∧
    ∀ message, s.getMessage message.messageId = some message → ∀ a,
      (s.created.filter fun x => decide (x.messageId = message.messageId ∧ x.agentName = a ∧
        x.jobId ∈ retried)).length ≤ max message.retryPolicy.maxAttempts 1 - 1 := by
  have h := run.retrying
  refine ⟨h.ascending.ordered, fun message hmessage a => length_le_of_pairwise_lt ?_ ?_⟩
  · have hfilter := h.ascending.ordered.filter fun x => decide (x.messageId = message.messageId ∧
      x.agentName = a ∧ x.jobId ∈ retried)
    refine hfilter.imp_of_mem fun {x y} hx hy hlt => ?_
    obtain ⟨-, hx⟩ := List.mem_filter.mp hx
    obtain ⟨-, hy⟩ := List.mem_filter.mp hy
    obtain ⟨hxm, hxa, -⟩ := of_decide_eq_true hx
    obtain ⟨hym, hya, -⟩ := of_decide_eq_true hy
    exact hlt (hxm.trans hym.symm) (hxa.trans hya.symm)
  · intro x hx
    obtain ⟨hmem, hx⟩ := List.mem_filter.mp hx
    obtain ⟨hxm, -, hxj⟩ := of_decide_eq_true hx
    obtain ⟨hpos, hbound⟩ := h.budgeted.index x (mem_of_mem_firsts hmem) hxj
    exact ⟨hpos, hbound message (State.getMessage_mem hmessage).1 hxm.symm⟩

namespace Sample

open Mailbox (sampleTime)

def apiError : CompletionDecision := ⟨.failed, "api_error", "", false, false, sampleTime, none⟩

/-- A request and its two retries all fail on the API. -/
def failures : List (Timestamp × Op) :=
  [(sampleTime, .submit (ask .user "agent1" none)), (sampleTime, .tick),
    (sampleTime, .complete 1 apiError), (sampleTime, .tick), (sampleTime, .complete 5 apiError),
    (sampleTime, .tick), (sampleTime, .complete 8 apiError)]

/-- The jobs that automatic retries create in a run of operations. -/
def retriedIn : State → List (Timestamp × Op) → List JobId
  | _, [] => []
  | s, (t, op) :: ops =>
    (op.automaticRetry config (world t) s).toList ++ retriedIn (exec config (world t) s op) ops

theorem retryRun_foldl {ops : List (Timestamp × Op)} {retried : List JobId}
    (run : RetryRun config s retried) (hops : Admitted (fun _ _ _ => True) s ops) :
    RetryRun config (ops.foldl (fun s op => exec config (world op.1) s op.2) s)
      (retried ++ retriedIn s ops) := by
  induction ops generalizing s retried with
  | nil => rwa [retriedIn, List.append_nil]
  | cons op ops ih =>
    rw [retriedIn, ← List.append_assoc]
    exact ih (run.step (world op.1) op.2 hops.1.1) hops.2

theorem retryRun_failures : RetryRun config (after failures) [5, 8] :=
  retryRun_foldl (.initial true) (by decide +kernel)

end Sample

theorem automatic_retries_bounded_failures :
    (Sample.after Sample.failures).created.map (fun x => (x.jobId, x.retryIndex)) =
      [(1, 0), (5, 1), (8, 2)] ∧
    ∀ message, (Sample.after Sample.failures).getMessage message.messageId = some message → ∀ a,
      ((Sample.after Sample.failures).created.filter fun x => decide
        (x.messageId = message.messageId ∧ x.agentName = a ∧ x.jobId ∈ [5, 8])).length ≤
          max message.retryPolicy.maxAttempts 1 - 1 :=
  ⟨by decide +kernel, (automatic_retries_bounded Sample.retryRun_failures).2⟩

end CodexBridge.Dispatch
