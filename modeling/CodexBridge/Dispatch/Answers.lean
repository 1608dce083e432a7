import CodexBridge.Dispatch.EdgeRuns
import CodexBridge.Dispatch.MessageStates

/-! What a completed job leaves on its message. It has been replied to, or a callback of
the message is not over, or one has failed and left a notice. A job that has just ended
is exempt until its reply is recorded. -/

namespace CodexBridge.Dispatch

open AppendLog

variable {cfg : Config} {s s' : State} {m : MessageId} {ended : Option JobId}

/-- A callback of the message is not over. -/
def State.Awaited (s : State) (m : MessageId) : Prop :=
  ∃ edge, s.getEdge edge.edgeId = some edge ∧ edge.parentMessageId = m ∧ edge.state.over = false

/-- A reply other than a notice has been recorded for the message. -/
def State.Answered (s : State) (m : MessageId) : Prop :=
  ∃ r ∈ s.replies, r.messageId = m ∧ r.notice = false

/-- A callback of the message has failed. -/
def State.Broken (s : State) (m : MessageId) : Prop :=
  ∃ edge, s.getEdge edge.edgeId = some edge ∧ edge.parentMessageId = m ∧
    (edge.state = .failed ∨ edge.state = .timedOut)

/-- What is left of a completed job. -/
def State.Cleared (s : State) (m : MessageId) : Prop := s.Answered m ∨ s.Awaited m ∨ s.Broken m

/-- Notices are about callbacks that have failed, and completed requests leave something,
but for the job that has just ended. -/
structure Replied (ended : Option JobId) (s : State) : Prop where
  notices : ∀ r ∈ s.replies, r.notice = true → s.Broken r.messageId
  cleared : ∀ m, ∀ x ∈ s.latestAttempts m, x.attemptState = .completed → some x.jobId ≠ ended →
    (∀ r ∈ s.jobs, r.jobId = x.jobId → State.isReplyDeliveryJob r = false) → s.Cleared m

/-! ### One act -/

/-- A message waits until a row closes its callback. -/
theorem Act.awaited {act : Act} (h : Sound cfg s) (g : act.guard cfg s) (awaited : s.Awaited m)
    (hopen : ∀ edge, act = .update edge → edge.parentMessageId = m → edge.state.over = false) :
    (act.apply cfg s).Awaited m := by
  obtain ⟨edge, found, hm, hstate⟩ := awaited
  obtain ⟨hmem, -⟩ := State.getEdge_mem found
  have hedges := (Act.effects h.coherent g).edges
  have hrow : ∀ row, act.newEdge = some row → row.edgeId = edge.edgeId →
      row.parentMessageId = m ∧ row.state.over = false := by
    intro row hnew hid
    cases act <;> simp only [newEdge, Option.some.injEq, reduceCtorEq] at hnew
    case continuation edge' job t =>
      subst hnew
      have hid : edge'.edgeId = edge.edgeId := hid
      have hget := g.2.found
      rw [hid, found] at hget
      obtain rfl := Option.some.inj hget
      exact ⟨hm, rfl⟩
    case register edge' =>
      subst hnew
      exact absurd (hid.symm.trans g.edgeId) (h.coherent.edges.issued edge hmem).ne
    case update edge' =>
      subst hnew
      obtain ⟨current, upd⟩ := g
      have hget := upd.found
      rw [hid, found] at hget
      obtain rfl := Option.some.inj hget
      have hm' : edge'.parentMessageId = m := upd.same.parentMessageId.trans hm
      exact ⟨hm', hopen edge' rfl hm'⟩
  cases hnew : act.newEdge with
  | none =>
    rw [hnew, Option.toList_none, List.append_nil] at hedges
    exact ⟨edge, by rw [State.getEdge, hedges]; exact found, hm, hstate⟩
  | some row =>
    rw [hnew, Option.toList_some] at hedges
    by_cases hid : row.edgeId = edge.edgeId
    · obtain ⟨hm', hstate'⟩ := hrow row hnew hid
      exact ⟨row, by rw [State.getEdge, hedges]; simp, hm', hstate'⟩
    · refine ⟨edge, ?_, hm, hstate⟩
      rw [State.getEdge, hedges, findLast_append, if_neg (by simpa using hid)]
      exact found

/-- A callback that has failed stays so. -/
theorem Act.broken {act : Act} (h : Sound cfg s) (g : act.guard cfg s) (broken : s.Broken m) :
    (act.apply cfg s).Broken m := by
  obtain ⟨edge, found, hm, hstate⟩ := broken
  obtain ⟨edge', found', same, hmove⟩ := Act.getEdge_move h g found
  have hid : edge'.edgeId = edge.edgeId := (State.getEdge_mem found').2
  refine ⟨edge', hid.symm ▸ found', same.parentMessageId.trans hm, ?_⟩
  rcases hmove with rfl | ⟨-, hfailed, htimed, -⟩
  · exact hstate
  · exact (hstate.elim hfailed htimed).elim

/-- What a completed job leaves stays, unless its callback is done without a reply. -/
theorem Act.cleared {act : Act} (h : Sound cfg s) (g : act.guard cfg s) (cleared : s.Cleared m)
    (hdone : ∀ edge, act = .update edge → edge.parentMessageId = m → edge.state = .done →
      s.Answered m) : (act.apply cfg s).Cleared m := by
  have hanswered : s.Answered m → (act.apply cfg s).Cleared m := by
    rintro ⟨r, hr, hm⟩
    exact .inl ⟨r, (Act.extends h.coherent g).replies hr, hm⟩
  rcases cleared with hreply | hawaited | hbroken
  · exact hanswered hreply
  · by_cases hclose : ∃ edge, act = .update edge ∧ edge.parentMessageId = m ∧
        edge.state.over = true
    · obtain ⟨edge, rfl, hm, hover⟩ := hclose
      rcases (CallbackEdgeState.over_iff edge.state).mp hover with hstate | hstate
      · exact hanswered (hdone edge rfl hm hstate)
      · refine .inr (.inr ⟨edge, ?_, hm, hstate⟩)
        simp [State.getEdge, Act.apply, State.appendEdge]
    · refine .inr (.inl (Act.awaited h g hawaited fun edge hact hm => ?_))
      by_contra hover
      exact hclose ⟨edge, hact, hm, by simpa using hover⟩
  · exact .inr (.inr (Act.broken h g hbroken))

/-- An attempt is completed with its job only. -/
theorem Act.completed_attempt {act : Act} (h : Coherent cfg s) (g : act.guard cfg s)
    {x : AttemptRecord} (hx : x ∈ (act.apply cfg s).latestAttempts m)
    (hstate : x.attemptState = .completed) :
    x ∈ s.latestAttempts m ∨ ∃ current terminal t dequeue,
      act = .finish current terminal t dequeue ∧ x.jobId = terminal.jobId ∧
        terminal.status = .completed := by
  have hsame : (act.apply cfg s).attempts = s.attempts → x ∈ s.latestAttempts m := by
    intro heq
    rw [State.latestAttempts, heq] at hx
    exact hx
  have hadded : ∀ y : AttemptRecord, (act.apply cfg s).attempts = s.attempts ++ [y] →
      x = y ∨ x ∈ s.latestAttempts m := by
    intro y heq
    rw [State.latestAttempts, heq, List.filter_append] at hx
    by_cases hy : y.messageId = m
    · rw [List.filter_cons_of_pos (by simpa using hy), List.filter_nil, mem_latest_append] at hx
      exact hx.imp_right And.left
    · rw [List.filter_cons_of_neg (by simpa using hy), List.filter_nil, List.append_nil] at hx
      exact .inr hx
  have hlive : ∀ y : AttemptRecord, (act.apply cfg s).attempts = s.attempts ++ [y] →
      y.attemptState.terminal = false → x ∈ s.latestAttempts m := by
    intro y heq hy
    refine (hadded y heq).resolve_left fun hxy => ?_
    rw [← hxy, hstate] at hy
    contradiction
  cases act with
  | accept origin job m' i t => exact .inl (hlive _ rfl rfl)
  | continuation edge job t => exact .inl (hlive _ rfl rfl)
  | deliver a head record t => exact .inl (hlive _ rfl rfl)
  | startRequest a current t =>
    obtain ⟨y, -, -, ha, -⟩ := State.dequeue_beginRunningJob_logs h a s.mailboxes t g.1
    exact .inl (hlive (startedAttempt y t) ha rfl)
  | startDelivery a current t =>
    obtain ⟨y, -, -, ha, -⟩ := State.dequeue_beginRunningJob_logs h a
      (s.claimReplyDeliveryStart current t).1.mailboxes t g.1
    rw [← State.claimReplyDeliveryStart_fst] at ha
    exact .inl (hlive (startedAttempt y t) ha rfl)
  | finish current terminal t dequeue =>
    obtain ⟨found, -, -, same, -⟩ := g
    obtain ⟨y, hy⟩ := h.exists_attemptForJob (same.jobId ▸ found)
    have ha : ((Act.finish current terminal t dequeue).apply cfg s).attempts =
        s.attempts ++ [endedAttempt y terminal.status t] := by
      rw [Act.apply, State.finish_eq t dequeue hy]
    rcases hadded _ ha with rfl | hold
    · refine .inr ⟨current, terminal, t, dequeue, rfl, (State.attemptForJob_mem hy).2, ?_⟩
      have hstatus : attemptStateForStatus terminal.status = .completed := hstate
      cases hcase : terminal.status <;> rw [hcase] at hstatus <;>
        first | rfl | exact absurd hstatus (by decide)
    · exact .inl hold
  | reply job attempt status recipient t =>
    exact .inl (hsame (State.appendReply_logs cfg s job attempt status false recipient t).2.1)
  | notice edge job attempt t =>
    exact .inl (hsame (State.appendReply_logs cfg s job attempt .failed true
      (some edge.originalCaller) t).2.1)
  | consumeDelivered a head job t =>
    refine .inl (hsame ?_)
    rw [Act.apply, State.resolveReplyDeliveryTerminal_eq]
  | _ => exact .inl (hsame rfl)

theorem Act.replied {act : Act} (h : Sound cfg s) (g : act.guard cfg s) (ok : Replied ended s)
    (hdone : ∀ edge, act = .update edge → edge.state = .done → s.Answered edge.parentMessageId)
    (hnotice : ∀ edge job attempt t, act = .notice edge job attempt t →
      s.Broken attempt.messageId)
    (hfinish : ∀ current terminal t dequeue, act = .finish current terminal t dequeue →
      terminal.status = .completed →
      some terminal.jobId = ended ∨ State.isReplyDeliveryJob terminal = true) :
    Replied ended (act.apply cfg s) := by
  refine ⟨fun r hr hn => ?_, fun m x hx hstate hne hrequest => ?_⟩
  · rw [(Act.effects h.coherent g).replies, List.mem_append] at hr
    rcases hr with hr | hr
    · exact Act.broken h g (ok.notices r hr hn)
    · cases act <;> simp only [Act.newReply, Option.toList_none, Option.toList_some,
        List.not_mem_nil, List.mem_singleton] at hr
      · rw [hr] at hn
        contradiction
      case notice edge job attempt t =>
        rw [hr]
        exact Act.broken h g (hnotice edge job attempt t rfl)
  · rcases Act.completed_attempt h.coherent g hx hstate with
      hold | ⟨current, terminal, t, dequeue, rfl, hxj, hcompleted⟩
    · have hjobs := (Act.extends h.coherent g).jobs
      refine Act.cleared h g (ok.cleared m x hold hstate hne fun r hr => hrequest r (hjobs hr)) ?_
      rintro edge hact rfl hd
      exact hdone edge hact hd
    · rcases hfinish current terminal t dequeue rfl hcompleted with hj | hdelivery
      · exact absurd (hxj ▸ hj) hne
      · obtain ⟨found, -, -, same, -⟩ := g
        obtain ⟨y, hy⟩ := h.coherent.exists_attemptForJob (same.jobId ▸ found)
        have hmem : terminal ∈ (s.finish terminal t dequeue).jobs := by
          rw [State.finish_eq t dequeue hy]
          exact List.mem_append_right _ (List.mem_singleton.mpr rfl)
        rw [hrequest terminal hmem hxj.symm] at hdelivery
        contradiction

end CodexBridge.Dispatch
