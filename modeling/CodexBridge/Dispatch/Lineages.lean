import CodexBridge.Dispatch.Cancellations

/-! The attempts of an agent on a message. Retries and continuations take the next index,
so the rows of the log are in the order of the indexes as long as only the newest
attempt is started or ended. A callback that is answered while its parent is still
open leaves a live attempt behind the newest one. -/

namespace CodexBridge.Dispatch

open AppendLog

variable {cfg : Config} {w : World} {s s₀ s' : State}

/-! ### Rows in order -/

/-- A row of `y` may follow one of `x`: of the attempts of one agent on one message, `y` is
the newer one or the same. -/
def AttemptRecord.Before (x y : AttemptRecord) : Prop :=
  x.messageId = y.messageId → x.agentName = y.agentName →
    x.retryIndex < y.retryIndex ∨ x.attemptId = y.attemptId ∧ x.retryIndex = y.retryIndex

/-- The log is in order, and no live attempt has been succeeded. -/
structure Lineage (s : State) : Prop where
  ordered : s.attempts.Pairwise AttemptRecord.Before
  newest : ∀ y ∈ s.attempts, s.live y.jobId → ∀ x ∈ s.attempts, x.Before y

theorem Lineage.initial (auto : Bool) : Lineage (State.initial auto) :=
  ⟨List.Pairwise.nil, fun _ hy => absurd hy List.not_mem_nil⟩

theorem AttemptRecord.Before.right {x y z : AttemptRecord} (h : x.Before y) (same : SameAttempt z y)
    (index : z.retryIndex = y.retryIndex) : x.Before z := by
  intro hm ha
  rw [index, same.attemptId]
  exact h (hm.trans same.messageId) (ha.trans same.agentName)

theorem AttemptRecord.Before.left {x y z : AttemptRecord} (h : x.Before y) (same : SameAttempt z x)
    (index : z.retryIndex = x.retryIndex) : z.Before y := by
  intro hm ha
  rw [index, same.attemptId]
  exact h (same.messageId.symm.trans hm) (same.agentName.symm.trans ha)

/-- The next index is above all indexes of the agent on the message. -/
theorem State.lt_nextRetryIndex {x : AttemptRecord} (hx : x ∈ s.attempts) :
    x.retryIndex < s.nextRetryIndex x.messageId x.agentName := by
  unfold State.nextRetryIndex
  generalize s.attempts = l at hx
  induction l using List.reverseRecOn with
  | nil => exact absurd hx List.not_mem_nil
  | append_singleton l y ih =>
    rw [List.foldl_append, List.foldl_cons, List.foldl_nil]
    rcases List.mem_append.mp hx with hx | hx
    · have hlt := ih hx
      split_ifs
      · exact hlt.trans_le (le_max_left _ _)
      · exact hlt
    · obtain rfl := List.mem_singleton.mp hx
      rw [if_pos ⟨rfl, rfl⟩]
      exact (Nat.lt_succ_self _).trans_le (le_max_right _ _)

/-! ### The two latest attempts -/

theorem State.lastAttemptForAgent_eq {m : MessageId} {a : AgentName} {last : AttemptRecord}
    (h : Coherent cfg s) (hlast : s.lastAttemptForAgent m a = some last) :
    last ∈ s.latestAttempts m ∧ last.messageId = m ∧ last.agentName = a := by
  obtain ⟨hmem, hp⟩ := findLast_some hlast
  obtain ⟨hm, ha⟩ := of_decide_eq_true hp
  refine ⟨?_, hm, ha⟩
  -- the last row of its agent on the message is the last row of its attempt
  have hattempt : s.getAttempt last.attemptId = some last := by
    refine findLast_narrow hlast (by simp) fun x hx hid => ?_
    have same := h.attempts.key x hx last hmem (.inl (of_decide_eq_true hid))
    simp [same.messageId, same.agentName, hm, ha]
  refine (findLast_key_some (k := last.attemptId).mp ?_).1
  · rw [findLast_filter]
    · have hattempt : findLast (fun record => decide (record.attemptId = last.attemptId))
        s.attempts = some last := hattempt
      rw [hattempt]
      simp [Option.filter, hm]
    · intro x hx y hy hxid hyid
      have same := h.attempts.key x hx y hy
        (.inl ((of_decide_eq_true hxid).trans (of_decide_eq_true hyid).symm))
      rw [same.messageId]

/-- While the log is in order, its last row is the greatest by the sort key. -/
theorem Lineage.last_eq_latest (lin : Lineage s) (h : Coherent cfg s) (m : MessageId)
    (a : AgentName) : s.lastAttemptForAgent m a = s.latestAttemptForAgent m a := by
  cases hlast : s.lastAttemptForAgent m a with
  | none =>
    cases hbest : s.latestAttemptForAgent m a with
    | none => rfl
    | some best =>
      obtain ⟨hmem, ha, -⟩ := State.latestAttemptForAgent_eq hbest
      obtain ⟨hmem, hm⟩ := State.mem_of_latestAttempts hmem
      have hnone := findLast_none.mp hlast best hmem
      simp [hm, ha] at hnone
  | some last =>
    obtain ⟨hlmem, hlm, hla⟩ := State.lastAttemptForAgent_eq h hlast
    cases hbest : s.latestAttemptForAgent m a with
    | none =>
      have hspec := s.latestAttemptForAgent_spec m a
      rw [hbest] at hspec
      exact absurd hla (hspec last hlmem)
    | some best =>
      obtain ⟨hbmem, hba, hgreatest⟩ := State.latestAttemptForAgent_eq hbest
      obtain ⟨hbmem', hbm⟩ := State.mem_of_latestAttempts hbmem
      have hle : last.retryIndex ≤ best.retryIndex :=
        Prod.Lex.monotone_fst _ _ (hgreatest last hlmem hla)
      have hid : best.attemptId = last.attemptId := by
        rcases findLast_pairwise lin.ordered hlast best hbmem' (by simp [hbm, hba]) with rfl | hb
        · rfl
        · rcases hb (hbm.trans hlm.symm) (hba.trans hla.symm) with hlt | heq
          · exact absurd hle (Nat.not_le.mpr hlt)
          · exact heq.1
      rw [eq_of_key_eq (nodup_latest _) hlmem hbmem hid.symm]

/-- The refusals of a retry that are about its attempt. -/
def DispatchError.lineage : DispatchError → Bool
  | .retryTargetNotFound | .attemptActive | .attemptCompleted | .missingLineage
  | .notLatestAttempt => true
  | _ => false

/-- A job that a recovery finds retryable has an attempt that a retry takes. -/
theorem Lineage.retry_not_refused (lin : Lineage s) (h : Coherent cfg s) {job : JobRecord}
    (found : s.getJob job.jobId = some job) (retryable : s.canRetryJob job = true)
    {t : Timestamp} {e : DispatchError} (refused : s.retryAttempt cfg job.jobId t = .error e) :
    e.lineage = false := by
  obtain ⟨x, hx, hretry⟩ := (Option.any_eq_true _ _).mp retryable
  simp only [Bool.and_eq_true, decide_eq_true_eq] at hretry
  obtain ⟨⟨hlatest, hended⟩, hcompleted⟩ := hretry
  obtain ⟨last, hlast, hid⟩ := (Option.any_eq_true _ _).mp hlatest
  rw [lin.last_eq_latest h] at hlast
  have hid : last.attemptId = x.attemptId := by simpa using hid
  have htarget : (s.getAttempt job.jobId <|> s.attemptForJob job.jobId) = some x := by
    cases hg : s.getAttempt job.jobId with
    | none => simpa using hx
    | some y =>
      obtain ⟨hy, hyid⟩ := State.getAttempt_mem hg
      exact absurd hyid (h.distinct y hy job (State.getJob_mem found).1)
  unfold State.retryAttempt at refused
  simp only [bind, Except.bind, pure, Except.pure] at refused
  split at refused
  · rename_i e' hplan
    obtain rfl := Except.error.inj refused
    unfold State.planRetry at hplan
    simp only [htarget, hended, hcompleted, hlast, hid, bind, Except.bind, pure, Except.pure, throw,
      throwThe, MonadExceptOf.throw, Bool.not_true, Bool.false_eq_true, ↓reduceIte, ne_eq,
      not_true_eq_false] at hplan
    split at hplan
    · split at hplan
      · rename_i e'' hvalid
        obtain rfl := Except.error.inj hplan
        unfold State.validateTargetsAvailable at hvalid
        split_ifs at hvalid
        · exact Except.error.inj hvalid ▸ rfl
        · exact Except.error.inj hvalid ▸ rfl
      · split at hplan
        · contradiction
        · exact Except.error.inj hplan ▸ rfl
    · exact Except.error.inj hplan ▸ rfl
  · contradiction

/-! ### One act -/

/-- What an act adds to the attempts: nothing, a further row of a live attempt, or the
first row of a new job. -/
inductive Act.Rows (cfg : Config) (s : State) (act : Act) : Prop
  | none (attempts : (act.apply cfg s).attempts = s.attempts)
  | further (x y : AttemptRecord) (attempts : (act.apply cfg s).attempts = s.attempts ++ [y])
      (found : x ∈ s.attempts) (live : s.live x.jobId) (same : SameAttempt y x)
      (index : y.retryIndex = x.retryIndex)
  | new (y : AttemptRecord) (job : JobRecord)
      (attempts : (act.apply cfg s).attempts = s.attempts ++ [y])
      (newJob : act.newJob cfg s = some (job, y.messageId)) (agent : y.agentName = job.agentName)
      (index : ∀ x ∈ s.attempts, x.messageId = y.messageId → x.agentName = y.agentName →
        x.retryIndex < y.retryIndex)

theorem Act.Rows.start {act : Act} (h : Coherent cfg s) {agentName : AgentName}
    {current : JobRecord} {t : Timestamp} (mailboxes : AgentName → Mailbox)
    (happly : act.apply cfg s = (({ s with mailboxes := mailboxes }).dequeue agentName
      current.jobId).beginRunningJob current t)
    (found : s.getJob current.jobId = some current)
    (queued : current.jobId ∈ s.memory.queue agentName) : Act.Rows cfg s act := by
  obtain ⟨x, hx, -, ha, -⟩ := State.dequeue_beginRunningJob_logs h agentName mailboxes t found
  obtain ⟨hxmem, hxj⟩ := State.attemptForJob_mem hx
  obtain ⟨-, hpending⟩ := h.agent_of_queue found queued
  refine .further x (startedAttempt x t) (happly ▸ ha) hxmem ?_ ⟨rfl, rfl, rfl, rfl⟩ rfl
  exact hxj.symm ▸ ⟨current, found, JobStatus.not_terminal_of_pending hpending⟩

theorem Act.rows {act : Act} (h : Coherent cfg s) (g : act.guard cfg s) : Act.Rows cfg s act := by
  cases act with
  | accept origin job messageId i t =>
    refine .new _ job rfl rfl rfl fun x hx hm ha => ?_
    cases origin with
    | submitted => exact absurd ha (g.2.first x hx hm)
    | retried source =>
      have hlt := State.lt_nextRetryIndex hx
      rw [hm, ha] at hlt
      exact g.2.index.symm ▸ hlt
  | continuation edge job t =>
    refine .new _ job rfl rfl rfl fun x hx hm ha => ?_
    have hlt := State.lt_nextRetryIndex hx
    rw [hm, ha] at hlt
    exact hlt
  | deliver agentName head record t =>
    refine .new _ _ rfl rfl rfl fun x hx hm => ?_
    have hm : x.messageId = s.nextId + 1 := hm
    exact absurd (hm ▸ h.message_lt hx) (Nat.not_lt.mpr (Nat.le_succ _))
  | startRequest agentName current t => exact .start h s.mailboxes rfl g.1 g.2.2.1
  | startDelivery agentName current t =>
    refine .start (t := t) h (s.claimReplyDeliveryStart current t).1.mailboxes ?_ g.1 g.2.2.1
    rw [← State.claimReplyDeliveryStart_fst]
    rfl
  | finish current terminal t dequeue =>
    obtain ⟨found, live, -, same, -⟩ := g
    obtain ⟨x, hx⟩ := h.exists_attemptForJob (same.jobId ▸ found)
    obtain ⟨hxmem, hxj⟩ := State.attemptForJob_mem hx
    refine .further x (endedAttempt x terminal.status t)
      (congrArg State.attempts (State.finish_eq t dequeue hx)) hxmem ?_ ⟨rfl, rfl, rfl, rfl⟩ rfl
    rw [hxj, same.jobId]
    exact ⟨current, found, live⟩
  | reply job attempt status recipient t =>
    exact .none (State.appendReply_logs cfg s job attempt status false recipient t).2.1
  | notice edge job attempt t =>
    exact .none
      (State.appendReply_logs cfg s job attempt .failed true (some edge.originalCaller) t).2.1
  | consumeDelivered agentName head job t =>
    refine .none ?_
    simp only [Act.apply]
    rw [State.resolveReplyDeliveryTerminal_eq]
  | _ => exact .none rfl

/-- A job that is live was live before, if it was there. -/
theorem Extends.live (ext : Extends s s') (h : Coherent cfg s) (h' : Coherent cfg s')
    {x : AttemptRecord} (hx : x ∈ s.attempts) (hlive : s'.live x.jobId) : s.live x.jobId := by
  obtain ⟨r, hr, hid, -⟩ := h.attempts.job x hx
  obtain ⟨c, hc⟩ := State.exists_getJob hr
  rw [hid] at hc
  refine ⟨c, hc, ?_⟩
  by_contra ht
  obtain ⟨c', hc', hs⟩ := ext.status h' hc (by simpa using ht)
  obtain ⟨r', hr', hl⟩ := hlive
  rw [Option.some.inj (hr'.symm.trans hc'), hs] at hl
  exact ht hl

/-- No attempt of the parent's agent on the parent's message is live. -/
def State.ParentIdle (s : State) (edge : CallbackEdgeRecord) : Prop :=
  ∀ x ∈ s.attempts, x.messageId = edge.parentMessageId → x.agentName = edge.parentAgent →
    ¬s.live x.jobId

/-- A new job finds no live attempt of its agent on its message, if a continuation does
not. -/
theorem Lineage.newJob_idle (lin : Lineage s) (h : Coherent cfg s) {act : Act}
    (g : act.guard cfg s)
    (idle : ∀ edge job t, act = .continuation edge job t → s.ParentIdle edge) {job : JobRecord}
    {m : MessageId} (hnew : act.newJob cfg s = some (job, m)) :
    ∀ x ∈ s.attempts, x.messageId = m → x.agentName = job.agentName → ¬s.live x.jobId := by
  intro x hx hm ha hlive
  cases act <;> simp only [Act.newJob, Option.some.injEq, Prod.mk.injEq, reduceCtorEq] at hnew
  case accept origin job' m' i t =>
    obtain ⟨rfl, rfl⟩ := hnew
    cases origin with
    | submitted => exact g.2.first x hx hm ha
    | retried source =>
      obtain ⟨best, hbest, hsource⟩ := g.2.latest
      obtain ⟨hbmem, hba, hgreatest⟩ := State.latestAttemptForAgent_eq hbest
      obtain ⟨hbmem', hbm⟩ := State.mem_of_latestAttempts hbmem
      obtain ⟨z, hz, hzid⟩ := State.exists_latestAttempt hx
      obtain ⟨hzmem, hzm⟩ := State.mem_of_latestAttempts hz
      have sameZ := h.attempts.key z hzmem x hx (.inl hzid)
      -- the live attempt is not above the latest one, so it is the latest one
      have hzx := lin.newest x hx hlive z hzmem sameZ.messageId sameZ.agentName
      have hxz := lin.newest z hzmem (sameZ.jobId.symm ▸ hlive) x hx sameZ.messageId.symm
        sameZ.agentName.symm
      have hle : z.retryIndex ≤ best.retryIndex :=
        Prod.Lex.monotone_fst _ _ (hgreatest z (hm ▸ hz) (sameZ.agentName.trans ha))
      have hid : best.attemptId = x.attemptId := by
        rcases lin.newest x hx hlive best hbmem' (hbm.trans hm.symm) (hba.trans ha.symm) with
          hlt | heq
        · rcases hxz with hxz | hxz <;> rcases hzx with hzx | hzx <;> omega
        · exact heq.1
      have hj := (h.attempts.key best hbmem' x hx (.inl hid)).jobId
      obtain ⟨r, hr, hl⟩ := hlive
      rw [← hj, hsource, g.2.found] at hr
      rw [← Option.some.inj hr, g.2.ended] at hl
      contradiction
  case continuation edge job' t =>
    obtain ⟨rfl, rfl⟩ := hnew
    refine idle edge job' t rfl x hx hm ?_ hlive
    rw [ha, g.2.agentName]
    exact h.edges.target edge (State.getEdge_mem g.2.found).1
  case deliver a head record t =>
    have hlt := h.message_lt hx
    rw [hm, ← hnew.2] at hlt
    exact absurd hlt (Nat.not_lt.mpr (Nat.le_succ _))

/-- The log stays in order while continuations find idle parents. -/
theorem Act.lineage {act : Act} (h : Sound cfg s) (g : act.guard cfg s) (lin : Lineage s)
    (idle : ∀ edge job t, act = .continuation edge job t → s.ParentIdle edge) :
    Lineage (act.apply cfg s) := by
  have hs := Act.sound g h
  have hlive : ∀ x ∈ s.attempts, (act.apply cfg s).live x.jobId → s.live x.jobId :=
    fun x hx => (Act.extends h.coherent g).live h.coherent hs.coherent hx
  cases Act.rows h.coherent g with
  | none attempts =>
    refine ⟨attempts ▸ lin.ordered, fun y hy hl x hx => ?_⟩
    rw [attempts] at hx hy
    exact lin.newest y hy (hlive y hy hl) x hx
  | further x y attempts found live same index =>
    have hbefore : ∀ z ∈ s.attempts, z.Before y :=
      fun z hz => (lin.newest x found live z hz).right same index
    refine ⟨?_, fun z hz hl u hu => ?_⟩
    · rw [attempts, List.pairwise_append]
      refine ⟨lin.ordered, List.pairwise_singleton _ _, fun z hz y' hy' => ?_⟩
      exact List.mem_singleton.mp hy' ▸ hbefore z hz
    · rw [attempts, List.mem_append, List.mem_singleton] at hz hu
      have hself : x.Before x := lin.newest x found live x found
      rcases hz with hz | rfl
      · have hz' := lin.newest z hz (hlive z hz hl)
        rcases hu with hu | rfl
        · exact hz' u hu
        · exact (hz' x found).left same index
      · rcases hu with hu | rfl
        · exact hbefore u hu
        · exact (hself.right same index).left same index
  | new y job attempts newJob agent index =>
    have hidle := lin.newJob_idle h.coherent g idle newJob
    have hbefore : ∀ z ∈ s.attempts, z.Before y :=
      fun z hz hm ha => .inl (index z hz hm ha)
    refine ⟨?_, fun z hz hl u hu => ?_⟩
    · rw [attempts, List.pairwise_append]
      refine ⟨lin.ordered, List.pairwise_singleton _ _, fun z hz y' hy' => ?_⟩
      exact List.mem_singleton.mp hy' ▸ hbefore z hz
    · rw [attempts, List.mem_append, List.mem_singleton] at hz hu
      rcases hz with hz | rfl
      · have hzlive := hlive z hz hl
        rcases hu with hu | rfl
        · exact lin.newest z hz hzlive u hu
        · intro hm ha
          exact absurd hzlive (hidle z hz hm.symm (ha.symm.trans agent))
      · rcases hu with hu | rfl
        · exact hbefore u hu
        · exact fun _ _ => .inr ⟨rfl, rfl⟩

end CodexBridge.Dispatch
