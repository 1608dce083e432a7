import CodexBridge.Dispatch.Coherence

/-! What an act adds to each log: further rows of jobs and attempts that are there,
and at most one row of something new. -/

namespace CodexBridge.Dispatch

open AppendLog

variable {cfg : Config} {s : State}

namespace Act

/-- The job an act creates, and the message its attempt is on. -/
def newJob (cfg : Config) (s : State) : Act → Option (JobRecord × MessageId)
  | .accept _ job messageId _ _ => some (job, messageId)
  | .continuation edge job _ => some (job, edge.parentMessageId)
  | .deliver agentName head record t =>
    some (s.buildJobRecord cfg agentName (State.replyDeliveryRequest cfg agentName record)
      (State.replyDeliveryOptions head.inboundEventId record.replyId) none t, s.nextId + 1)
  | _ => none

/-- The row an act adds to the edges. -/
def newEdge : Act → Option CallbackEdgeRecord
  | .register edge | .update edge => some edge
  | .continuation edge job t => some (edge.submitted job.jobId t)
  | _ => none

/-- The row an act adds to the replies. -/
def newReply (s : State) : Act → Option ReplyRecord
  | .reply job attempt status _ t => some (s.replyRow job attempt status false t)
  | .notice _ job attempt t => some (s.replyRow job attempt .failed true t)
  | _ => none

end Act

theorem State.appendReply_logs (cfg : Config) (s : State) (job attempt status notice recipient t) :
    (State.appendReply cfg s job attempt status notice recipient t).jobs = s.jobs ∧
      (State.appendReply cfg s job attempt status notice recipient t).attempts = s.attempts ∧
      (State.appendReply cfg s job attempt status notice recipient t).edges = s.edges ∧
      (State.appendReply cfg s job attempt status notice recipient t).replies =
        s.replies ++ [s.replyRow job attempt status notice t] := by
  rcases hr : recipient.bind (State.mailboxActor cfg) with _ | a
  · rw [State.appendReply_silent _ _ _ _ _ hr]
    exact ⟨rfl, rfl, rfl, rfl⟩
  · rw [State.appendReply_queued _ _ _ _ _ hr]
    exact ⟨rfl, rfl, rfl, rfl⟩

theorem State.dequeue_beginRunningJob_logs (h : Coherent cfg s) (agentName : AgentName)
    {current : JobRecord} (mailboxes : AgentName → Mailbox) (t : Timestamp)
    (found : s.getJob current.jobId = some current) :
    ∃ x, s.attemptForJob current.jobId = some x ∧
      ((({ s with mailboxes := mailboxes }).dequeue agentName current.jobId).beginRunningJob current
        t).jobs = s.jobs ++ [startedJob current t] ∧
      ((({ s with mailboxes := mailboxes }).dequeue agentName current.jobId).beginRunningJob current
        t).attempts = s.attempts ++ [startedAttempt x t] ∧
      ((({ s with mailboxes := mailboxes }).dequeue agentName current.jobId).beginRunningJob current
        t).edges = s.edges ∧
      ((({ s with mailboxes := mailboxes }).dequeue agentName current.jobId).beginRunningJob current
        t).replies = s.replies ∧
      ((({ s with mailboxes := mailboxes }).dequeue agentName current.jobId).beginRunningJob current
        t).messages = setMessageLog s.messages x.messageId .running t := by
  obtain ⟨x, hx⟩ := h.exists_attemptForJob found
  have hx' : (({ s with mailboxes := mailboxes }).dequeue agentName current.jobId).attemptForJob
      current.jobId = some x := hx
  refine ⟨x, hx, ?_⟩
  rw [State.beginRunningJob_eq t hx']
  exact ⟨rfl, rfl, rfl, rfl, rfl⟩

/-- What an act does to the four logs, all in one. -/
structure Act.Effects (cfg : Config) (s : State) (act : Act) : Prop where
  jobs : ∀ r ∈ (act.apply cfg s).jobs, (∃ r₀ ∈ s.jobs, SameJob r r₀) ∨
    ∃ m, act.newJob cfg s = some (r, m)
  attempts : ∀ x ∈ (act.apply cfg s).attempts, (∃ x₀ ∈ s.attempts, SameAttempt x x₀) ∨
    (∃ job m, act.newJob cfg s = some (job, m) ∧ x.jobId = job.jobId ∧ x.messageId = m ∧
      x.agentName = job.agentName ∧ s.nextId ≤ x.attemptId)
  edges : (act.apply cfg s).edges = s.edges ++ act.newEdge.toList
  replies : (act.apply cfg s).replies = s.replies ++ (act.newReply s).toList

namespace Act

/-- Nothing happens to jobs and attempts. -/
theorem effects_quiet {act : Act} (hj : (act.apply cfg s).jobs = s.jobs)
    (ha : (act.apply cfg s).attempts = s.attempts)
    (he : (act.apply cfg s).edges = s.edges ++ act.newEdge.toList)
    (hr : (act.apply cfg s).replies = s.replies ++ (act.newReply s).toList) :
    Effects cfg s act := by
  refine ⟨fun r hr => .inl ⟨r, hj ▸ hr, SameJob.refl r⟩,
    fun x hx => .inl ⟨x, ha ▸ hx, SameAttempt.refl x⟩, he, hr⟩

/-- A job that is there gets a further row, with or without its attempt. -/
theorem effects_move (act : Act) {r r₀ : JobRecord} (xs : List AttemptRecord)
    (hj : (act.apply cfg s).jobs = s.jobs ++ [r]) (hr₀ : r₀ ∈ s.jobs) (same : SameJob r r₀)
    (ha : (act.apply cfg s).attempts = s.attempts ++ xs)
    (hxs : ∀ x ∈ xs, ∃ x₀ ∈ s.attempts, SameAttempt x x₀)
    (he : (act.apply cfg s).edges = s.edges ++ act.newEdge.toList)
    (hr : (act.apply cfg s).replies = s.replies ++ (act.newReply s).toList) :
    Effects cfg s act := by
  refine ⟨fun r' hr' => ?_, fun x hx => ?_, he, hr⟩
  · rw [hj, List.mem_append, List.mem_singleton] at hr'
    rcases hr' with hr' | rfl
    · exact .inl ⟨r', hr', SameJob.refl r'⟩
    · exact .inl ⟨r₀, hr₀, same⟩
  · rw [ha, List.mem_append] at hx
    rcases hx with hx | hx
    · exact .inl ⟨x, hx, SameAttempt.refl x⟩
    · exact .inl (hxs x hx)

/-- A new job with its attempt. -/
theorem effects_enter {act : Act} {job : JobRecord} {m : MessageId} {x : AttemptRecord}
    (hnew : act.newJob cfg s = some (job, m)) (hj : (act.apply cfg s).jobs = s.jobs ++ [job])
    (ha : (act.apply cfg s).attempts = s.attempts ++ [x]) (hx : x.jobId = job.jobId)
    (hm : x.messageId = m) (hagent : x.agentName = job.agentName) (hle : s.nextId ≤ x.attemptId)
    (he : (act.apply cfg s).edges = s.edges ++ act.newEdge.toList)
    (hr : (act.apply cfg s).replies = s.replies ++ (act.newReply s).toList) :
    Effects cfg s act := by
  refine ⟨fun r' hr' => ?_, fun y hy => ?_, he, hr⟩
  · rw [hj, List.mem_append, List.mem_singleton] at hr'
    rcases hr' with hr' | rfl
    · exact .inl ⟨r', hr', SameJob.refl r'⟩
    · exact .inr ⟨m, hnew⟩
  · rw [ha, List.mem_append, List.mem_singleton] at hy
    rcases hy with hy | rfl
    · exact .inl ⟨y, hy, SameAttempt.refl y⟩
    · exact .inr ⟨job, m, hnew, hx, hm, hagent, hle⟩

theorem effects {act : Act} (h : Coherent cfg s) (g : act.guard cfg s) : Effects cfg s act := by
  cases act with
  | accept origin job messageId i t =>
    exact effects_enter rfl rfl rfl rfl rfl rfl le_rfl (List.append_nil _).symm
      (List.append_nil _).symm
  | continuation edge job t =>
    exact effects_enter rfl rfl rfl rfl rfl rfl le_rfl rfl (List.append_nil _).symm
  | deliver agentName head record t =>
    refine effects_enter rfl rfl rfl rfl rfl rfl ?_ (List.append_nil _).symm
      (List.append_nil _).symm
    show s.nextId ≤ s.nextId + 1 + 1
    omega
  | startRequest agentName current t =>
    obtain ⟨x, hx, hj, ha, he, hr, -⟩ :=
      State.dequeue_beginRunningJob_logs h agentName s.mailboxes t g.1
    refine effects_move _ _ hj (State.getJob_mem g.1).1 ⟨rfl, rfl, rfl, rfl⟩ ha ?_
      (he.trans (List.append_nil _).symm) (hr.trans (List.append_nil _).symm)
    intro y hy
    rw [List.mem_singleton.mp hy]
    exact ⟨x, (State.attemptForJob_mem hx).1, ⟨rfl, rfl, rfl, rfl⟩⟩
  | startDelivery agentName current t =>
    obtain ⟨x, hx, hj, ha, he, hr, -⟩ := State.dequeue_beginRunningJob_logs h agentName
      (s.claimReplyDeliveryStart current t).1.mailboxes t g.1
    rw [← State.claimReplyDeliveryStart_fst] at hj ha he hr
    refine effects_move _ _ hj (State.getJob_mem g.1).1 ⟨rfl, rfl, rfl, rfl⟩ ha ?_
      (he.trans (List.append_nil _).symm) (hr.trans (List.append_nil _).symm)
    intro y hy
    rw [List.mem_singleton.mp hy]
    exact ⟨x, (State.attemptForJob_mem hx).1, ⟨rfl, rfl, rfl, rfl⟩⟩
  | finish current terminal t dequeue =>
    obtain ⟨found, -, -, same, -⟩ := g
    obtain ⟨x, hx⟩ := h.exists_attemptForJob (same.jobId ▸ found)
    have heq := State.finish_eq t dequeue hx
    refine effects_move (.finish current terminal t dequeue)
      [endedAttempt x terminal.status t] (congrArg State.jobs heq)
      (State.getJob_mem found).1 same (congrArg State.attempts heq) ?_
      ((congrArg State.edges heq).trans (List.append_nil _).symm)
      ((congrArg State.replies heq).trans (List.append_nil _).symm)
    intro y hy
    rw [List.mem_singleton.mp hy]
    exact ⟨x, (State.attemptForJob_mem hx).1, ⟨rfl, rfl, rfl, rfl⟩⟩
  | touch record =>
    obtain ⟨current, found, same, -⟩ := g
    exact effects_move _ [] rfl (State.getJob_mem found).1 same (List.append_nil _).symm
      (by simp) (List.append_nil _).symm (List.append_nil _).symm
  | reply job attempt status recipient t =>
    obtain ⟨hj, ha, he, hr⟩ := State.appendReply_logs cfg s job attempt status false recipient t
    exact effects_quiet hj ha (he.trans (List.append_nil _).symm) hr
  | notice edge job attempt t =>
    obtain ⟨hj, ha, he, hr⟩ :=
      State.appendReply_logs cfg s job attempt .failed true (some edge.originalCaller) t
    exact effects_quiet hj ha (he.trans (List.append_nil _).symm) hr
  | consumeDelivered agentName head job t =>
    have heq := State.resolveReplyDeliveryTerminal_eq s job t
    exact effects_quiet ((congrArg State.jobs heq).trans rfl)
      ((congrArg State.attempts heq).trans rfl)
        ((congrArg State.edges heq).trans (List.append_nil _).symm)
      ((congrArg State.replies heq).trans (List.append_nil _).symm)
  | register edge => exact effects_quiet rfl rfl rfl (List.append_nil _).symm
  | update edge => exact effects_quiet rfl rfl rfl (List.append_nil _).symm
  | _ => exact effects_quiet rfl rfl (List.append_nil _).symm (List.append_nil _).symm

/-- The latest row of a job after an act, unless the job is new: its status is as before, or
the job is started, or this is the row it ends with. -/
theorem getJob_cases {act : Act} (h : Coherent cfg s) (g : act.guard cfg s) {j : JobId}
    {r' : JobRecord} (hr' : (act.apply cfg s).getJob j = some r') :
    (∃ r, s.getJob j = some r ∧ SameJob r' r ∧ (r'.status = r.status ∨ r'.status = .running)) ∨
      (∃ current t dequeue, act = .finish current r' t dequeue) ∨
      ∃ m, act.newJob cfg s = some (r', m) := by
  have hquiet : (act.apply cfg s).jobs = s.jobs → s.getJob j = some r' := by
    intro hj
    rw [State.getJob, hj] at hr'
    exact hr'
  have hrow : ∀ row, (act.apply cfg s).jobs = s.jobs ++ [row] →
      row.jobId = j ∧ row = r' ∨ s.getJob j = some r' := by
    intro row hj
    rw [State.getJob, hj, findLast_append] at hr'
    split_ifs at hr' with hid
    · exact .inl ⟨of_decide_eq_true hid, Option.some.inj hr'⟩
    · exact .inr hr'
  have hkept : s.getJob j = some r' →
      ∃ r, s.getJob j = some r ∧ SameJob r' r ∧ (r'.status = r.status ∨ r'.status = .running) :=
    fun hr => ⟨r', hr, SameJob.refl r', .inl rfl⟩
  have hstart : ∀ current t, s.getJob current.jobId = some current →
      (act.apply cfg s).jobs = s.jobs ++ [startedJob current t] →
      ∃ r, s.getJob j = some r ∧ SameJob r' r ∧
        (r'.status = r.status ∨ r'.status = .running) := by
    intro current t found hj
    rcases hrow _ hj with ⟨rfl, rfl⟩ | hr
    · exact ⟨current, found, ⟨rfl, rfl, rfl, rfl⟩, .inr rfl⟩
    · exact hkept hr
  cases act with
  | accept origin job m k t =>
    rcases hrow job rfl with ⟨-, rfl⟩ | hr
    · exact .inr (.inr ⟨m, rfl⟩)
    · exact .inl (hkept hr)
  | continuation edge job t =>
    rcases hrow job rfl with ⟨-, rfl⟩ | hr
    · exact .inr (.inr ⟨_, rfl⟩)
    · exact .inl (hkept hr)
  | deliver agentName head record t =>
    rcases hrow _ rfl with ⟨-, rfl⟩ | hr
    · exact .inr (.inr ⟨_, rfl⟩)
    · exact .inl (hkept hr)
  | startRequest agentName current t =>
    obtain ⟨-, -, hj, -⟩ := State.dequeue_beginRunningJob_logs h agentName s.mailboxes t g.1
    exact .inl (hstart current t g.1 hj)
  | startDelivery agentName current t =>
    obtain ⟨-, -, hj, -⟩ := State.dequeue_beginRunningJob_logs h agentName
      (s.claimReplyDeliveryStart current t).1.mailboxes t g.1
    rw [← State.claimReplyDeliveryStart_fst] at hj
    exact .inl (hstart current t g.1 hj)
  | finish current terminal t dequeue =>
    obtain ⟨x, hx⟩ := h.exists_attemptForJob (g.2.2.2.1.jobId ▸ g.1)
    rcases hrow terminal (congrArg State.jobs (State.finish_eq t dequeue hx)) with
      ⟨-, rfl⟩ | hr
    · exact .inr (.inl ⟨current, t, dequeue, rfl⟩)
    · exact .inl (hkept hr)
  | touch record =>
    obtain ⟨current, found, same, hstatus⟩ := g
    rcases hrow record rfl with ⟨rfl, rfl⟩ | hr
    · exact .inl ⟨current, found, same, .inl hstatus⟩
    · exact .inl (hkept hr)
  | reply job attempt status recipient t =>
    exact .inl (hkept (hquiet (State.appendReply_logs ..).1))
  | notice edge job attempt t => exact .inl (hkept (hquiet (State.appendReply_logs ..).1))
  | consumeDelivered agentName head job t =>
    have heq := State.resolveReplyDeliveryTerminal_eq s job t
    exact .inl (hkept (hquiet ((congrArg State.jobs heq).trans rfl)))
  | _ => exact .inl (hkept (hquiet rfl))

/-- A new job is pending. -/
theorem newJob_pending {act : Act} (g : act.guard cfg s) {job : JobRecord} {m : MessageId}
    (hnew : act.newJob cfg s = some (job, m)) : job.status.pending = true := by
  cases act <;> simp only [newJob, reduceCtorEq, Option.some.injEq, Prod.mk.injEq] at hnew
  case accept origin job' m' k t =>
    obtain ⟨rfl, -⟩ := hnew
    cases origin with
    | submitted => exact g.1.pending
    | retried source => exact g.1.pending
  case continuation edge job' t =>
    obtain ⟨rfl, -⟩ := hnew
    exact g.1.pending
  case deliver agentName head record t =>
    obtain ⟨rfl, -⟩ := hnew
    exact State.pendingStatus_pending s agentName

end Act

end CodexBridge.Dispatch
