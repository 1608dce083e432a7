import CodexBridge.Dispatch.Paths
import CodexBridge.Dispatch.Effects

/-! The states of messages under each act. A message is written to a live state by the
acts that give it work, and to the state its attempts and replies add up to by
the acts that end work; so a message that has ended has no live job. -/

namespace CodexBridge.Dispatch

open AppendLog

variable {cfg : Config} {s s' : State} {m : MessageId}

/-! ### The message log -/

/-- The state a message has in a log. -/
def stateIn (messages : List MessageRecord) (m : MessageId) : Option MessageState :=
  (findLast (fun record => decide (record.messageId = m)) messages).map MessageRecord.messageState

def State.messageState (s : State) (m : MessageId) : Option MessageState := stateIn s.messages m

theorem stateIn_append (messages : List MessageRecord) (r : MessageRecord) (m : MessageId) :
    stateIn (messages ++ [r]) m =
      if r.messageId = m then some r.messageState else stateIn messages m := by
  unfold stateIn
  rw [findLast_append]
  by_cases h : r.messageId = m <;> simp [h]

theorem stateIn_setMessageLog {messages : List MessageRecord} {id : MessageId}
    (h : ∃ r ∈ messages, r.messageId = id) (next t) (m : MessageId) :
    stateIn (setMessageLog messages id next t) m =
      if id = m then some next else stateIn messages m := by
  obtain ⟨r, hr, hid⟩ := h
  obtain ⟨current, hc⟩ := exists_findLast (p := fun record : MessageRecord =>
    decide (record.messageId = id)) hr (by simpa using hid)
  have hcid : current.messageId = id := by simpa using (findLast_some hc).2
  simp only [setMessageLog, hc]
  split_ifs with hsame hm hm
  · subst hm
    simp [stateIn, hc, hsame]
  · rfl
  · rw [stateIn_append, if_pos (hcid.trans hm)]
  · rw [stateIn_append, if_neg (by rw [hcid]; exact hm)]

theorem latestAttempts_nonempty {x : AttemptRecord} (hx : x ∈ s.attempts) :
    (s.latestAttempts x.messageId).isEmpty = false := by
  obtain ⟨z, hz, -⟩ := State.exists_latestAttempt hx
  cases hl : s.latestAttempts x.messageId with
  | nil =>
    rw [hl] at hz
    exact absurd hz List.not_mem_nil
  | cons y ys => rfl

/-- A message with an attempt is written to the state that its records add up to. -/
theorem stateIn_refreshMessageLog {x : AttemptRecord} (hx : x ∈ s.attempts)
    (h : ∃ r ∈ s.messages, r.messageId = x.messageId) (t) (m : MessageId) :
    stateIn (s.refreshMessageLog x.messageId t) m =
      if x.messageId = m then
        some (nextMessageState (s.latestAttempts x.messageId) (s.listReplies x.messageId))
      else s.messageState m := by
  unfold State.refreshMessageLog
  rw [latestAttempts_nonempty hx, if_neg (by simp)]
  exact stateIn_setMessageLog h _ _ _

theorem replyTerminalState_terminal (l : List ReplyTerminalStatus) :
    (replyTerminalState l).terminal = true := by
  unfold replyTerminalState
  split
  · rfl
  · rename_i status rest
    split_ifs
    · cases status <;> rfl
    · rfl

theorem attemptTerminalState_terminal (l : List AttemptState) :
    (attemptTerminalState l).terminal = true := by
  unfold attemptTerminalState
  split
  · rfl
  · rename_i state rest
    split_ifs
    · cases state <;> rfl
    · rfl

/-- The records add up to an end exactly when every attempt has ended. -/
theorem nextMessageState_terminal (attempts : List AttemptRecord) (replies : List ReplyRecord) :
    (nextMessageState attempts replies).terminal = true ↔
      ∀ x ∈ attempts, x.attemptState.terminal = true := by
  by_cases hlive : (attempts.any fun attempt => !attempt.attemptState.terminal) = true
  · obtain ⟨x, hx, hs⟩ := List.any_eq_true.mp hlive
    refine iff_of_false ?_ fun h => ?_
    · unfold nextMessageState
      rw [if_pos hlive]
      split_ifs <;> simp [MessageState.terminal]
    · simp [h x hx] at hs
  · have hended : ∀ x ∈ attempts, x.attemptState.terminal = true := by simpa using hlive
    refine iff_of_true ?_ hended
    unfold nextMessageState
    rw [if_neg hlive]
    split_ifs
    · exact attemptTerminalState_terminal _
    · exact replyTerminalState_terminal _

theorem replyTerminalState_completed {l : List ReplyTerminalStatus} (hne : l ≠ [])
    (h : ∀ status ∈ l, status = .completed) : replyTerminalState l = .completed := by
  cases l with
  | nil => exact absurd rfl hne
  | cons status rest =>
    obtain rfl := h status List.mem_cons_self
    have hrest : rest.all (· = .completed) = true := by
      simpa using fun status hs => h status (List.mem_cons_of_mem _ hs)
    rw [replyTerminalState, if_pos hrest]
    rfl

theorem attemptTerminalState_completed {l : List AttemptState} (hne : l ≠ [])
    (h : ∀ state ∈ l, state = .completed) : attemptTerminalState l = .completed := by
  cases l with
  | nil => exact absurd rfl hne
  | cons state rest =>
    obtain rfl := h state List.mem_cons_self
    have hrest : rest.all (· = .completed) = true := by
      simpa using fun state hs => h state (List.mem_cons_of_mem _ hs)
    rw [attemptTerminalState, if_pos hrest]
    rfl

/-- The replies decide once every attempt has ended; notices do not count beside them. -/
theorem nextMessageState_completed {attempts : List AttemptRecord} {replies : List ReplyRecord}
    (ended : ∀ x ∈ attempts, x.attemptState.terminal = true)
    (answered : ∃ r ∈ replies, r.notice = false)
    (completed : ∀ r ∈ replies, r.notice = false → r.terminalStatus = .completed) :
    nextMessageState attempts replies = .completed := by
  have hlive : ¬(attempts.any fun attempt => !attempt.attemptState.terminal) = true := by
    simpa using ended
  obtain ⟨r, hr, hn⟩ := answered
  have hmem : r ∈ replies.filter fun reply => !reply.notice :=
    List.mem_filter.mpr ⟨hr, by simp [hn]⟩
  have hterminal : terminalReplies replies = replies.filter fun reply => !reply.notice := by
    rw [terminalReplies, if_neg]
    simpa using ⟨r, hr, hn⟩
  rw [nextMessageState, if_neg hlive, hterminal, if_neg]
  · refine replyTerminalState_completed ?_ fun status hs => ?_
    · simpa using ⟨r, hr, hn⟩
    · obtain ⟨r', hr', rfl⟩ := List.mem_map.mp hs
      obtain ⟨hr', hn'⟩ := List.mem_filter.mp hr'
      exact completed r' hr' (by simpa using hn')
  · simpa using ⟨r, hr, hn⟩

/-- Without replies the attempts decide. -/
theorem nextMessageState_silent {attempts : List AttemptRecord} (hne : attempts ≠ [])
    (completed : ∀ x ∈ attempts, x.attemptState = .completed) :
    nextMessageState attempts [] = .completed := by
  have hlive : ¬(attempts.any fun attempt => !attempt.attemptState.terminal) = true := by
    simp only [List.any_eq_true, not_exists, not_and]
    intro x hx
    rw [completed x hx]
    decide
  have hnone : (terminalReplies []).isEmpty = true := rfl
  rw [nextMessageState, if_neg hlive, if_pos hnone]
  refine attemptTerminalState_completed (by simpa using hne) fun state hs => ?_
  obtain ⟨x, hx, rfl⟩ := List.mem_map.mp hs
  exact completed x hx

/-! ### One act -/

namespace Act

/-- The act gives the message work, or brings it. -/
def reopens (s : State) (m : MessageId) : Act → Prop
  | .newMessage record => record.messageId = m
  | .accept _ _ messageId _ _ => messageId = m
  | .continuation edge _ _ => edge.parentMessageId = m
  | .startRequest _ current _ | .startDelivery _ current _ =>
    ∃ x, s.attemptForJob current.jobId = some x ∧ x.messageId = m
  | .waiting edge _ => edge.parentMessageId = m
  | .deliver .. => s.nextId + 1 = m
  | _ => False

/-- The act adds up the records of the message. -/
def refreshes (s : State) (m : MessageId) : Act → Prop
  | .finish _ terminal _ _ => ∃ x, s.attemptForJob terminal.jobId = some x ∧ x.messageId = m
  | .reply _ attempt _ _ _ | .notice _ _ attempt _ => attempt.messageId = m
  | _ => False

/-- What the act leaves of the state of a message. -/
inductive Restates (cfg : Config) (s : State) (m : MessageId) (act : Act) : Prop
  | kept (same : (act.apply cfg s).messageState m = s.messageState m)
      (reopens : ¬act.reopens s m) (refreshes : ¬act.refreshes s m)
  | reopened (reopens : act.reopens s m) (state : MessageState)
      (written : (act.apply cfg s).messageState m = some state) (live : state.terminal = false)
  | refreshed (refreshes : act.refreshes s m)
      (written : (act.apply cfg s).messageState m = some (nextMessageState
        ((act.apply cfg s).latestAttempts m) ((act.apply cfg s).listReplies m)))

end Act

/-- A write of one message, to a live state. -/
theorem Act.Restates.set {act : Act} {id : MessageId} {next : MessageState} {t : Timestamp}
    (messages : List MessageRecord)
    (happly : (act.apply cfg s).messages = setMessageLog messages id next t)
    (hsame : ∀ m, stateIn messages m = s.messageState m)
    (h : ∃ r ∈ messages, r.messageId = id) (live : next.terminal = false)
    (reopens : act.reopens s m ↔ id = m) (refreshes : ¬act.refreshes s m) :
    Act.Restates cfg s m act := by
  have hstate : (act.apply cfg s).messageState m =
      if id = m then some next else s.messageState m := by
    rw [State.messageState, happly, stateIn_setMessageLog h, hsame]
  by_cases hid : id = m
  · rw [if_pos hid] at hstate
    exact .reopened (reopens.mpr hid) next hstate live
  · rw [if_neg hid] at hstate
    exact .kept hstate (fun hr => hid (reopens.mp hr)) refreshes

/-- The records of one message are added up. -/
theorem Act.Restates.refresh {act : Act} {x : AttemptRecord} {t : Timestamp} (s₁ : State)
    (happly : (act.apply cfg s).messages = s₁.refreshMessageLog x.messageId t)
    (hattempts : (act.apply cfg s).attempts = s₁.attempts)
    (hreplies : (act.apply cfg s).replies = s₁.replies) (hmessages : s₁.messages = s.messages)
    (hx : x ∈ s₁.attempts) (h : ∃ r ∈ s.messages, r.messageId = x.messageId)
    (reopens : ¬act.reopens s m) (refreshes : act.refreshes s m ↔ x.messageId = m) :
    Act.Restates cfg s m act := by
  have hstate : (act.apply cfg s).messageState m = if x.messageId = m then
      some (nextMessageState (s₁.latestAttempts x.messageId) (s₁.listReplies x.messageId))
      else s.messageState m := by
    rw [State.messageState, happly, stateIn_refreshMessageLog hx (hmessages ▸ h)]
    simp only [State.messageState, hmessages]
  by_cases hid : x.messageId = m
  · rw [if_pos hid] at hstate
    refine .refreshed (refreshes.mpr hid) ?_
    rw [hstate, State.latestAttempts, State.latestAttempts, State.listReplies, State.listReplies,
      hattempts, hreplies, hid]
  · rw [if_neg hid] at hstate
    exact .kept hstate reopens fun hr => hid (refreshes.mp hr)

/-- A new message. -/
theorem Act.Restates.enter {act : Act} {r : MessageRecord}
    (happly : (act.apply cfg s).messages = s.messages ++ [r]) (live : r.messageState = .queued)
    (reopens : act.reopens s m ↔ r.messageId = m) (refreshes : ¬act.refreshes s m) :
    Act.Restates cfg s m act := by
  have hstate : (act.apply cfg s).messageState m =
      if r.messageId = m then some r.messageState else s.messageState m := by
    rw [State.messageState, happly, stateIn_append]
    rfl
  by_cases hid : r.messageId = m
  · rw [if_pos hid, live] at hstate
    exact .reopened (reopens.mpr hid) .queued hstate rfl
  · rw [if_neg hid] at hstate
    exact .kept hstate (fun hr => hid (reopens.mp hr)) refreshes

theorem Act.Restates.reply {act : Act} (hc : Coherent cfg s) {job : JobRecord}
    {attempt : AttemptRecord} {status notice recipient t}
    (happly : act.apply cfg s = State.appendReply cfg s job attempt status notice recipient t)
    (hattempt : s.attemptForJob job.jobId = some attempt)
    (reopens : ¬act.reopens s m) (refreshes : act.refreshes s m ↔ attempt.messageId = m) :
    Act.Restates cfg s m act := by
  have hmem := (State.attemptForJob_mem hattempt).1
  refine .refresh (x := attempt) (t := t)
    { s with replies := s.replies ++ [s.replyRow job attempt status notice t] } ?_ ?_ ?_ rfl hmem
    (hc.attempts.message attempt hmem) reopens refreshes
  · rw [happly]
    rcases hr : recipient.bind (State.mailboxActor cfg) with _ | b
    · rw [State.appendReply_silent _ _ _ _ _ hr]
    · rw [State.appendReply_queued _ _ _ _ _ hr]
  · rw [happly]
    exact (State.appendReply_logs cfg s job attempt status notice recipient t).2.1
  · rw [happly]
    exact (State.appendReply_logs cfg s job attempt status notice recipient t).2.2.2

/-- The start of a job sets its message running. -/
theorem Act.Restates.start {act : Act} (hc : Coherent cfg s) {agentName : AgentName}
    {current : JobRecord} {t : Timestamp} (mailboxes : AgentName → Mailbox)
    (happly : act.apply cfg s = (({ s with mailboxes := mailboxes }).dequeue agentName
      current.jobId).beginRunningJob current t)
    (found : s.getJob current.jobId = some current)
    (reopens : act.reopens s m ↔ ∃ x, s.attemptForJob current.jobId = some x ∧ x.messageId = m)
    (refreshes : ¬act.refreshes s m) : Act.Restates cfg s m act := by
  obtain ⟨x, hx⟩ := hc.exists_attemptForJob found
  have hx' : (({ s with mailboxes := mailboxes }).dequeue agentName current.jobId).attemptForJob
      current.jobId = some x := hx
  rw [State.beginRunningJob_eq t hx'] at happly
  refine .set s.messages (congrArg State.messages happly) (fun _ => rfl)
    (hc.attempts.message x (State.attemptForJob_mem hx).1) rfl ?_ refreshes
  rw [reopens]
  constructor
  · rintro ⟨y, hy, hym⟩
    rw [← hym, Option.some.inj (hx.symm.trans hy)]
  · exact fun hm => ⟨x, hx, hm⟩

theorem Act.restates {act : Act} (h : Coherent cfg s) (g : act.guard cfg s) (m : MessageId) :
    Act.Restates cfg s m act := by
  cases act with
  | newMessage record => exact .enter rfl g.2.1 Iff.rfl id
  | accept origin job messageId i t =>
    refine .set s.messages rfl (fun _ => rfl) ?_ rfl Iff.rfl id
    cases origin with
    | submitted =>
      obtain ⟨record, hrecord, -⟩ := g.2.message
      exact ⟨record, State.getMessage_mem hrecord⟩
    | retried source =>
      obtain ⟨x, hx, -, hm⟩ := g.2.attempt
      exact hm ▸ h.attempts.message x hx
  | continuation edge job t =>
    refine .set s.messages rfl (fun _ => rfl) ?_ rfl Iff.rfl id
    obtain ⟨x, hx, -, hm⟩ := h.edges.parent_attempt edge (State.getEdge_mem g.2.found).1
    exact hm ▸ h.attempts.message x hx
  | startRequest agentName current t => exact .start h s.mailboxes rfl g.1 Iff.rfl id
  | startDelivery agentName current t =>
    have happly : (Act.startDelivery agentName current t).apply cfg s = (({ s with
        mailboxes := (s.claimReplyDeliveryStart current t).1.mailboxes }).dequeue agentName
          current.jobId).beginRunningJob current t := by
      rw [← State.claimReplyDeliveryStart_fst]
      rfl
    exact .start h _ happly g.1 Iff.rfl id
  | finish current terminal t dequeue =>
    obtain ⟨found, -, -, same, -⟩ := g
    obtain ⟨x, hx⟩ := h.exists_attemptForJob (same.jobId ▸ found)
    have heq := State.finish_eq t dequeue hx
    have hmem := (State.attemptForJob_mem hx).1
    exact .refresh (x := x) (t := t)
      { s with attempts := s.attempts ++ [endedAttempt x terminal.status t] }
      (congrArg State.messages heq) ((congrArg State.attempts heq).trans rfl)
      ((congrArg State.replies heq).trans rfl) rfl
      (List.mem_append_left _ hmem) (h.attempts.message x hmem) id
      ⟨fun ⟨y, hy, hym⟩ => Option.some.inj (hy.symm.trans hx) ▸ hym, fun hm => ⟨x, hx, hm⟩⟩
  | waiting edge t =>
    refine .set s.messages rfl (fun _ => rfl) ?_ rfl Iff.rfl id
    obtain ⟨hmem, -⟩ := findLast_some g.1
    obtain ⟨x, hx, -, hm⟩ := h.edges.parent_attempt edge hmem
    exact hm ▸ h.attempts.message x hx
  | reply job attempt status recipient t => exact .reply h rfl g.1 id Iff.rfl
  | notice edge job attempt t => exact .reply h rfl g.2.2 id Iff.rfl
  | deliver agentName head record t => exact .enter rfl rfl Iff.rfl id
  | consumeDelivered agentName head job t =>
    refine .kept ?_ id id
    simp only [Act.apply]
    rw [State.resolveReplyDeliveryTerminal_eq]
    rfl
  | _ => exact .kept rfl id id

/-! ### Ended messages -/

/-- Every job on the message has ended. -/
def State.Idle (s : State) (m : MessageId) : Prop :=
  ∀ x ∈ s.attempts, x.messageId = m → ∃ r, s.getJob x.jobId = some r ∧ r.status.terminal = true

/-- The message is in a terminal state. -/
def State.MessageEnded (s : State) (m : MessageId) : Prop :=
  ∃ state, s.messageState m = some state ∧ state.terminal = true

/-- A message that has ended has no live job. -/
def EndedIdle (s : State) : Prop := ∀ m, s.MessageEnded m → s.Idle m

theorem Coherent.idle_iff (h : Coherent cfg s) :
    s.Idle m ↔ ∀ x ∈ s.latestAttempts m, x.attemptState.terminal = true := by
  have hfound : ∀ x ∈ s.attempts, ∃ r y, s.getJob x.jobId = some r ∧
      s.attemptForJob x.jobId = some y ∧ y.attemptId = x.attemptId ∧ y.messageId = x.messageId ∧
      r.status.terminal = y.attemptState.terminal := by
    intro x hx
    obtain ⟨r, hr, hrid, -⟩ := h.attempts.job x hx
    obtain ⟨c, hc⟩ := State.exists_getJob hr
    rw [hrid] at hc
    obtain ⟨y, hy⟩ := h.exists_attemptForJob hc
    obtain ⟨hymem, hyj⟩ := State.attemptForJob_mem hy
    have same := h.attempts.key y hymem x hx (.inr hyj)
    exact ⟨c, y, hc, hy, same.attemptId, same.messageId, h.attempts.ended _ c y hc hy⟩
  have hlatest : ∀ x ∈ s.latestAttempts m, s.attemptForJob x.jobId = some x :=
    fun x hx => h.attempts.attemptForJob_of_latest hx
  constructor
  · intro hidle x hx
    obtain ⟨hmem, hxm⟩ := List.mem_filter.mp (mem_of_mem_latest hx)
    obtain ⟨r, y, hr, hy, -, -, hended⟩ := hfound x hmem
    obtain ⟨r', hr', ht⟩ := hidle x hmem (by simpa using hxm)
    obtain rfl := Option.some.inj (hr.symm.trans hr')
    obtain rfl := Option.some.inj (hy.symm.trans (hlatest x hx))
    exact hended.symm.trans ht
  · intro hall x hx hxm
    obtain ⟨r, y, hr, hy, hyid, hym, hended⟩ := hfound x hx
    refine ⟨r, hr, hended.trans (hall y ?_)⟩
    obtain ⟨z, hz, hzid⟩ := State.exists_latestAttempt hx
    rw [hxm] at hz
    have hzmem := (State.mem_of_latestAttempts hz).1
    have hzj := (h.attempts.key z hzmem x hx (.inl hzid)).jobId
    have hzfound := hlatest z hz
    rw [hzj, hy] at hzfound
    exact Option.some.inj hzfound ▸ hz

/-- The jobs on a message that gets no work stay ended. -/
theorem State.Idle.keep {act : Act} (h : Sound cfg s) (g : act.guard cfg s) (hidle : s.Idle m)
    (hnew : ∀ job, act.newJob cfg s ≠ some (job, m)) : (act.apply cfg s).Idle m := by
  intro x hx hxm
  have hs := Act.sound g h
  rcases (Act.effects h.coherent g).attempts x hx with ⟨x₀, hx₀, same⟩ | ⟨job, m', hjob, -, hm, -⟩
  · obtain ⟨r, hr, ht⟩ := hidle x₀ hx₀ (same.messageId.symm.trans hxm)
    obtain ⟨r', hr', hstatus⟩ := (Act.extends h.coherent g).status hs.coherent hr ht
    exact ⟨r', same.jobId.symm ▸ hr', hstatus ▸ ht⟩
  · rw [hxm] at hm
    exact absurd (hm ▸ hjob) (hnew job)

theorem Act.reopens_of_newJob {act : Act} {job : JobRecord}
    (hnew : act.newJob cfg s = some (job, m)) : act.reopens s m := by
  cases act <;> simp only [newJob, reduceCtorEq, Option.some.injEq, Prod.mk.injEq] at hnew <;>
    exact hnew.2

theorem Act.endedIdle {act : Act} (h : Sound cfg s) (g : act.guard cfg s) (hended : EndedIdle s) :
    EndedIdle (act.apply cfg s) := by
  rintro m ⟨state, hstate, ht⟩
  cases Act.restates h.coherent g m with
  | kept same reopens _ =>
    exact (hended m ⟨state, same ▸ hstate, ht⟩).keep h g fun job hnew =>
      reopens (Act.reopens_of_newJob hnew)
  | reopened _ state' written live =>
    obtain rfl := Option.some.inj (written.symm.trans hstate)
    rw [live] at ht
    contradiction
  | refreshed _ written =>
    obtain rfl := Option.some.inj (written.symm.trans hstate)
    exact (Act.sound g h).coherent.idle_iff.mpr ((nextMessageState_terminal _ _).mp ht)

/-- A message without live jobs that has ended stays so while it gets no work. -/
theorem State.MessageEnded.keep {act : Act} (h : Sound cfg s) (g : act.guard cfg s)
    (hended : s.MessageEnded m) (hidle : s.Idle m) (reopens : ¬act.reopens s m) :
    (act.apply cfg s).MessageEnded m ∧ (act.apply cfg s).Idle m := by
  have hidle' : (act.apply cfg s).Idle m :=
    hidle.keep h g fun job hnew => reopens (Act.reopens_of_newJob hnew)
  refine ⟨?_, hidle'⟩
  obtain ⟨state, hstate, ht⟩ := hended
  cases Act.restates h.coherent g m with
  | kept same _ _ => exact ⟨state, same.trans hstate, ht⟩
  | reopened hreopens _ _ _ => exact absurd hreopens reopens
  | refreshed _ written =>
    exact ⟨_, written, (nextMessageState_terminal _ _).mpr
      ((Act.sound g h).coherent.idle_iff.mp hidle')⟩

end CodexBridge.Dispatch
