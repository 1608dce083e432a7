import CodexBridge.Dispatch.Answers
import CodexBridge.Dispatch.Carriers
import CodexBridge.Dispatch.Cancellations

/-! What becomes of a message whose jobs have ended. Its state is what its attempts and
replies add up to, or one of its callbacks is not over and it waits. The only write that
can break this is a row that closes a callback; the program adds the records up right
before or right after such a row. -/

namespace CodexBridge.Dispatch

open AppendLog

variable {cfg : Config} {w : World} {s s₀ s' : State} {m : MessageId}
  {permits : State → Act → Prop} {ended : Option JobId}

/-- The message is in the state its records add up to. -/
def State.Settled (s : State) (m : MessageId) : Prop :=
  s.messageState m = some (nextMessageState (s.latestAttempts m) (s.listReplies m))

/-- A message without live jobs is settled, or it waits. -/
def State.Accounted (s : State) (m : MessageId) : Prop :=
  (∃ x ∈ s.attempts, x.messageId = m) → s.Idle m → s.Settled m ∨ s.Awaited m

/-! ### One act -/

theorem Act.not_reopens_of_refreshes {act : Act} (h : act.refreshes s m) : ¬act.reopens s m := by
  cases act <;> first | exact h.elim | exact id

/-- The records of a message that an act is not about. -/
theorem Act.unmoved {act : Act} (h : Coherent cfg s) (g : act.guard cfg s)
    (reopens : ¬act.reopens s m) (refreshes : ¬act.refreshes s m) :
    (act.apply cfg s).attempts.filter (fun x => x.messageId = m) =
        s.attempts.filter (fun x => x.messageId = m) ∧
      (act.apply cfg s).listReplies m = s.listReplies m := by
  have hadd : ∀ (xs : List AttemptRecord) (x : AttemptRecord), x.messageId ≠ m →
      (xs ++ [x]).filter (fun x => x.messageId = m) = xs.filter fun x => x.messageId = m := by
    intro xs x hx
    rw [List.filter_append]
    simp [hx]
  have hreply : ∀ (job : JobRecord) (x : AttemptRecord) status notice recipient t,
      x.messageId ≠ m → (State.appendReply cfg s job x status notice recipient t).attempts.filter
        (fun x => x.messageId = m) = s.attempts.filter (fun x => x.messageId = m) ∧
      (State.appendReply cfg s job x status notice recipient t).listReplies m =
        s.listReplies m := by
    intro job x status notice recipient t hx
    obtain ⟨-, ha, -, hr⟩ := State.appendReply_logs cfg s job x status notice recipient t
    rw [ha, State.listReplies, hr, List.filter_append]
    have hrow : (s.replyRow job x status notice t).messageId ≠ m := hx
    simp [hrow, State.listReplies]
  have hstart : ∀ (a : AgentName) (current : JobRecord) (mailboxes : AgentName → Mailbox) t,
      s.getJob current.jobId = some current →
      (¬∃ x, s.attemptForJob current.jobId = some x ∧ x.messageId = m) →
      ((({ s with mailboxes := mailboxes }).dequeue a current.jobId).beginRunningJob current
        t).attempts.filter (fun x => x.messageId = m) =
          s.attempts.filter (fun x => x.messageId = m) ∧
      ((({ s with mailboxes := mailboxes }).dequeue a current.jobId).beginRunningJob current
        t).listReplies m = s.listReplies m := by
    intro a current mailboxes t found hno
    obtain ⟨x, hx, -, ha, -, hr, -⟩ := State.dequeue_beginRunningJob_logs h a mailboxes t found
    rw [ha, State.listReplies, hr]
    exact ⟨hadd _ _ fun hm => hno ⟨x, hx, hm⟩, rfl⟩
  cases act with
  | accept origin job m' i t => exact ⟨hadd _ _ reopens, rfl⟩
  | continuation edge job t => exact ⟨hadd _ _ reopens, rfl⟩
  | deliver a head record t => exact ⟨hadd _ _ reopens, rfl⟩
  | startRequest a current t => exact hstart a current s.mailboxes t g.1 reopens
  | startDelivery a current t =>
    have hs := hstart a current (s.claimReplyDeliveryStart current t).1.mailboxes t g.1 reopens
    rw [← State.claimReplyDeliveryStart_fst] at hs
    exact hs
  | finish current terminal t dequeue =>
    obtain ⟨found, -, -, same, -⟩ := g
    obtain ⟨x, hx⟩ := h.exists_attemptForJob (same.jobId ▸ found)
    have heq := State.finish_eq t dequeue hx
    simp only [Act.apply]
    rw [State.listReplies, heq]
    exact ⟨hadd _ _ fun hm => refreshes ⟨x, hx, hm⟩, rfl⟩
  | reply job attempt status recipient t =>
    exact hreply job attempt status false recipient t refreshes
  | notice edge job attempt t =>
    exact hreply job attempt .failed true (some edge.originalCaller) t refreshes
  | consumeDelivered a head job t =>
    simp only [Act.apply]
    rw [State.resolveReplyDeliveryTerminal_eq]
    exact ⟨rfl, rfl⟩
  | _ => exact ⟨rfl, rfl⟩

theorem latestAttempts_congr (h : s'.attempts.filter (fun x => x.messageId = m) =
    s.attempts.filter fun x => x.messageId = m) : s'.latestAttempts m = s.latestAttempts m := by
  rw [State.latestAttempts, State.latestAttempts, h]

/-- Adding up the records of a message settles it. -/
theorem Act.settles_refreshed {act : Act} (h : Coherent cfg s) (g : act.guard cfg s)
    (refreshes : act.refreshes s m) : (act.apply cfg s).Settled m := by
  cases Act.restates h g m with
  | kept _ _ hno => exact absurd refreshes hno
  | reopened reopens => exact absurd reopens (Act.not_reopens_of_refreshes refreshes)
  | refreshed _ written => exact written

/-- A settled message stays settled while it gets no work. -/
theorem Act.settled {act : Act} (h : Coherent cfg s) (g : act.guard cfg s) (settled : s.Settled m)
    (reopens : ¬act.reopens s m) : (act.apply cfg s).Settled m := by
  cases Act.restates h g m with
  | kept same _ refreshes =>
    obtain ⟨hattempts, hreplies⟩ := Act.unmoved h g reopens refreshes
    rw [State.Settled, same, latestAttempts_congr hattempts, hreplies]
    exact settled
  | reopened hreopens => exact absurd hreopens reopens
  | refreshed _ written => exact written

/-- An act that gives a message work leaves it a live job, unless it is about to, or a
callback that it waits for. -/
theorem Act.reopens_live {act : Act} (h : Sound cfg s) (g : act.guard cfg s)
    (reopens : act.reopens s m) :
    (∃ x ∈ (act.apply cfg s).attempts, x.messageId = m ∧
      ∃ r, (act.apply cfg s).getJob x.jobId = some r ∧ r.status.terminal = false) ∨
    (act.apply cfg s).Awaited m ∨ ∀ x ∈ (act.apply cfg s).attempts, x.messageId ≠ m := by
  have hstart : ∀ (a : AgentName) (current : JobRecord) (mailboxes : AgentName → Mailbox) t,
      s.getJob current.jobId = some current →
      (∃ x, s.attemptForJob current.jobId = some x ∧ x.messageId = m) →
      ∃ x ∈ ((({ s with mailboxes := mailboxes }).dequeue a current.jobId).beginRunningJob current
        t).attempts, x.messageId = m ∧ ∃ r, ((({ s with mailboxes := mailboxes }).dequeue a
          current.jobId).beginRunningJob current t).getJob x.jobId = some r ∧
            r.status.terminal = false := by
    rintro a current mailboxes t found ⟨y, hy, hym⟩
    obtain ⟨x, hx, hj, ha, -⟩ := State.dequeue_beginRunningJob_logs h.coherent a mailboxes t found
    obtain rfl := Option.some.inj (hx.symm.trans hy)
    refine ⟨startedAttempt x t, ?_, hym, startedJob current t, ?_, rfl⟩
    · rw [ha]
      exact List.mem_append_right _ (List.mem_singleton.mpr rfl)
    · have hxj : (startedAttempt x t).jobId = current.jobId := (State.attemptForJob_mem hx).2
      rw [State.getJob, hj, hxj]
      simp [startedJob]
  have hnew : ∀ (job : JobRecord) (x : AttemptRecord), (act.apply cfg s).jobs = s.jobs ++ [job] →
      (act.apply cfg s).attempts = s.attempts ++ [x] → x.jobId = job.jobId → x.messageId = m →
      job.status.pending = true → ∃ x ∈ (act.apply cfg s).attempts, x.messageId = m ∧
        ∃ r, (act.apply cfg s).getJob x.jobId = some r ∧ r.status.terminal = false := by
    intro job x hjobs hattempts hxj hxm hpending
    refine ⟨x, ?_, hxm, job, ?_, JobStatus.not_terminal_of_pending hpending⟩
    · rw [hattempts]
      exact List.mem_append_right _ (List.mem_singleton.mpr rfl)
    · rw [State.getJob, hjobs, hxj]
      simp
  cases act with
  | newMessage record =>
    refine .inr (.inr fun x hx hm => ?_)
    have hlt := h.coherent.message_lt hx
    have hid : m = s.nextId := reopens.symm.trans g.1
    rw [hm, hid] at hlt
    exact absurd hlt (lt_irrefl s.nextId)
  | accept origin job m' i t =>
    exact .inl (hnew job _ rfl rfl rfl reopens (h.coherent.accept_guard g).1.pending)
  | continuation edge job t => exact .inl (hnew job _ rfl rfl rfl reopens g.1.pending)
  | deliver a head record t =>
    refine .inl (hnew _ _ rfl rfl rfl reopens ?_)
    show (s.pendingStatus a).pending = true
    unfold State.pendingStatus
    split_ifs <;> rfl
  | startRequest a current t => exact .inl (hstart a current s.mailboxes t g.1 reopens)
  | startDelivery a current t =>
    have hs := hstart a current (s.claimReplyDeliveryStart current t).1.mailboxes t g.1 reopens
    rw [← State.claimReplyDeliveryStart_fst] at hs
    exact .inl hs
  | waiting edge t =>
    refine .inr (.inl ⟨edge, ?_, reopens, g.2⟩)
    exact ((h.coherent.edges.edgeForParentJob_iff edge).mp g.1).1
  | _ => exact reopens.elim

/-- Whatever does not close a callback of the message keeps it accounted for. -/
theorem Act.accounted {act : Act} (h : Sound cfg s) (g : act.guard cfg s) (acc : s.Accounted m)
    (hopen : ∀ edge, act = .update edge → edge.parentMessageId = m → edge.state.over = false) :
    (act.apply cfg s).Accounted m := by
  rintro ⟨x, hx, hxm⟩ hidle
  have hs := Act.sound g h
  by_cases hr : act.reopens s m
  · rcases Act.reopens_live h g hr with ⟨y, hy, hym, r, hr, live⟩ | hawaited | hnone
    · obtain ⟨r', hr', ended⟩ := hidle y hy hym
      rw [Option.some.inj (hr.symm.trans hr'), ended] at live
      contradiction
    · exact .inr hawaited
    · exact absurd hxm (hnone x hx)
  · by_cases hf : act.refreshes s m
    · exact .inl (Act.settles_refreshed h.coherent g hf)
    · obtain ⟨hattempts, -⟩ := Act.unmoved h.coherent g hr hf
      have hx' : x ∈ s.attempts := by
        have hmem : x ∈ (act.apply cfg s).attempts.filter fun x => x.messageId = m :=
          List.mem_filter.mpr ⟨hx, decide_eq_true hxm⟩
        rw [hattempts] at hmem
        exact List.mem_of_mem_filter hmem
      have hidle' : s.Idle m := by
        rw [h.coherent.idle_iff, ← latestAttempts_congr hattempts]
        exact hs.coherent.idle_iff.mp hidle
      rcases acc ⟨x, hx', hxm⟩ hidle' with hsettled | hawaited
      · exact .inl (Act.settled h.coherent g hsettled hr)
      · exact .inr (Act.awaited h g hawaited hopen)

theorem Path.settled (p : Path cfg permits s s') (h : Sound cfg s) (settled : s.Settled m)
    (hno : ∀ s act, permits s act → ¬act.reopens s m) : s'.Settled m :=
  p.invariant (fun s act hs hset hp g => Act.settled hs.coherent g hset (hno s act hp)) h settled

/-! ### Everything in order -/

/-- Every message is accounted for and replied to, and the jobs that go on with callbacks
are in order. -/
structure Booked (cfg : Config) (ended : Option JobId) (s : State) : Prop where
  sound : Sound cfg s
  carried : Carried s
  accounted : ∀ m, s.Accounted m
  replied : Replied ended s

/-- The act moves no callback, completes no request, and is no request. -/
def Act.steady : Act → Prop
  | .finish _ terminal _ _ =>
    terminal.status = .completed → State.isReplyDeliveryJob terminal = true
  | .update .. | .notice .. | .accept .submitted .. => False
  | _ => True

theorem Act.steady_of_routine {act : Act} (h : act.routine) (g : act.guard cfg s) :
    act.steady := by
  cases act <;> try trivial
  case finish current terminal t dequeue =>
    obtain ⟨-, -, -, same, -⟩ := g
    intro _
    rw [← h.2]
    simp only [State.isReplyDeliveryJob, same.request, same.providerOptions]

theorem Booked.act {act : Act} (b : Booked cfg ended s) (g : act.guard cfg s)
    (hopen : ∀ edge, act = .update edge → edge.state.over = false)
    (hnotice : ∀ edge job attempt t, act ≠ .notice edge job attempt t)
    (hplain : ∀ job m i t, act = .accept .submitted job m i t →
      job.request.routeOptions.callbackEdgeId = none)
    (hfinish : ∀ current terminal t dequeue, act = .finish current terminal t dequeue →
      terminal.status = .completed →
      some terminal.jobId = ended ∨ State.isReplyDeliveryJob terminal = true) :
    Booked cfg ended (act.apply cfg s) := by
  refine ⟨Act.sound g b.sound, Act.carried b.sound g b.carried hplain,
    fun m => Act.accounted b.sound g (b.accounted m) fun edge hact _ => hopen edge hact,
    Act.replied b.sound g b.replied ?_
      (fun edge job attempt t h => absurd h (hnotice edge job attempt t))
      hfinish⟩
  intro edge hact hdone
  have hover := hopen edge hact
  rw [hdone] at hover
  contradiction

theorem Booked.steady {act : Act} (b : Booked cfg ended s) (g : act.guard cfg s)
    (hsteady : act.steady) : Booked cfg ended (act.apply cfg s) := by
  refine b.act g ?_ ?_ ?_ ?_
  · rintro edge rfl
    exact hsteady.elim
  · rintro edge job attempt t rfl
    exact hsteady
  · rintro job m i t rfl
    exact hsteady.elim
  · rintro current terminal t dequeue rfl hcompleted
    exact .inr (hsteady hcompleted)

theorem Booked.path (b : Booked cfg ended s) (p : Path cfg permits s s')
    (hsteady : ∀ s act, permits s act → act.guard cfg s → act.steady) : Booked cfg ended s' :=
  p.invariant (I := Booked cfg ended) (fun s act _ hb hp g => hb.steady g (hsteady s act hp g))
    b.sound b

theorem Booked.routine (b : Booked cfg ended s) (p : Routine cfg s s') : Booked cfg ended s' :=
  b.path p fun _ _ hr g => Act.steady_of_routine hr g

/-- The job that has just ended may be any one. -/
theorem Booked.any (b : Booked cfg none s) (ended : Option JobId) : Booked cfg ended s :=
  { b with replied := ⟨b.replied.notices,
      fun m x hx hstate _ => b.replied.cleared m x hx hstate (by simp)⟩ }

/-- The job that has just ended has left something. -/
theorem Booked.clear (b : Booked cfg ended s) {j : JobId} (hended : ended = none ∨ ended = some j)
    (cleared : ∀ x ∈ s.attempts, x.jobId = j → s.Cleared x.messageId) : Booked cfg none s := by
  refine { b with replied := ⟨b.replied.notices, fun m x hx hstate _ hrequest => ?_⟩ }
  by_cases hne : some x.jobId = ended
  · rcases hended with rfl | rfl
    · contradiction
    · obtain ⟨hmem, rfl⟩ := State.mem_of_latestAttempts hx
      exact cleared x hmem (Option.some.inj hne)
  · exact b.replied.cleared m x hx hstate hne hrequest

/-! ### Closing a callback -/

/-- Closing a callback leaves every message accounted for but the one that waits for it. -/
theorem Booked.update {edge : CallbackEdgeRecord} (b : Booked cfg ended s)
    (g : (Act.update edge).guard cfg s)
    (hdone : edge.state = .done → s.Answered edge.parentMessageId) :
    Sound cfg (s.appendEdge edge) ∧ Carried (s.appendEdge edge) ∧
      Replied ended (s.appendEdge edge) ∧
      ∀ m ≠ edge.parentMessageId, (s.appendEdge edge).Accounted m := by
  refine ⟨Act.sound g b.sound, Act.carried b.sound g b.carried (by rintro _ _ _ _ ⟨⟩),
    Act.replied b.sound g b.replied ?_ (by rintro _ _ _ _ ⟨⟩) (by rintro _ _ _ _ ⟨⟩), ?_⟩
  · rintro edge' hact hd
    obtain rfl := Act.update.inj hact
    exact hdone hd
  · intro m hm
    refine Act.accounted b.sound g (b.accounted m) ?_
    rintro edge' hact hparent
    obtain rfl := Act.update.inj hact
    exact absurd hparent.symm hm

/-- A callback that fails: a notice follows on the message that waits for it, and adds its
records up. -/
theorem Booked.failCallbackEdge (b : Booked cfg ended s) {edge : CallbackEdgeRecord}
    (he : edge ∈ s.edges) {state : CallbackEdgeState}
    (hstate : state = .failed ∨ state = .timedOut) (t : Timestamp) :
    Booked cfg ended (State.failCallbackEdge cfg s edge state t) := by
  rcases failCallbackEdge_acts b.sound he hstate t with
    heq | ⟨failed, parent, x, g, gn, hx, hfailed, heq⟩
  · rw [heq]
    exact b
  · rw [heq]
    subst hfailed
    obtain ⟨hs, hcarried, hreplied, hothers⟩ := b.update g fun hdone => by
      rw [hdone] at hstate
      rcases hstate with hstate | hstate <;> contradiction
    have hbroken : (s.appendEdge failed).Broken x.messageId :=
      ⟨failed, by simp [State.getEdge, State.appendEdge], hx.symm, hstate⟩
    refine ⟨Act.sound gn hs, Act.carried hs gn hcarried (by rintro _ _ _ _ ⟨⟩), fun m => ?_,
      Act.replied hs gn hreplied (by rintro _ ⟨⟩) ?_ (by rintro _ _ _ _ ⟨⟩)⟩
    · by_cases hm : m = failed.parentMessageId
      · exact fun _ _ => .inl (Act.settles_refreshed hs.coherent gn (hx.trans hm.symm))
      · exact Act.accounted hs gn (hothers m hm) (by rintro _ ⟨⟩)
    · rintro _ _ _ _ ⟨⟩
      exact hbroken

/-- A callback is done after the reply of the job that went on with it. -/
theorem Booked.markCallbackDone (b : Booked cfg ended s) {job : JobRecord}
    (settled : ∀ e edge, job.request.routeOptions.callbackEdgeId = some e →
      s.getEdge e = some edge → s.Settled edge.parentMessageId ∧ s.Answered edge.parentMessageId)
    (t : Timestamp) : Booked cfg ended (s.markCallbackDone job t) := by
  rcases markCallbackDone_act cfg s job t with heq | ⟨edge, g, ⟨current, hget, hp⟩, he, heq⟩
  · rw [heq]
    exact b
  · rw [heq]
    obtain ⟨hsettled, hanswered⟩ := settled _ current he hget
    rw [← hp] at hsettled hanswered
    obtain ⟨hs, hcarried, hreplied, hothers⟩ := b.update g fun _ => hanswered
    refine ⟨hs, hcarried, fun m => ?_, hreplied⟩
    by_cases hm : m = edge.parentMessageId
    · rw [← hm] at hsettled
      exact fun _ _ => .inl (Act.settled b.sound.coherent g hsettled id)
    · exact hothers m hm

/-! ### Continuing a callback -/

theorem Booked.submitCallbackContinuation (b : Booked cfg ended s)
    {edge current : CallbackEdgeRecord} {childJob : JobRecord} {childReplyId : Option ReplyId}
    {decision : CompletionDecision} {t : Timestamp}
    (hcurrent : (s.edgeForChildJob childJob.jobId).getD edge = current)
    (found : s.getEdge current.edgeId = some current)
    (hreply : ∀ r, childReplyId = some r → ∃ reply ∈ s.replies, reply.replyId = r ∧
      reply.messageId = current.childMessageId ∧ reply.notice = false) :
    Booked cfg ended
      (State.submitCallbackContinuation cfg s edge childJob childReplyId decision t) := by
  unfold State.submitCallbackContinuation
  rw [hcurrent]
  dsimp only
  split_ifs with hterm
  · exact b
  · have hopen : current.state.terminal = false := by simpa using hterm
    have hnone := b.carried.existing_none found hopen
    rw [hnone]
    dsimp only
    set updated : CallbackEdgeRecord := { current with
      state := .childCompleted
      childReplyId := childReplyId
      childStatus := some (.job childJob.status)
      updatedAt := t }
    have g : (Act.update updated).guard cfg s := ⟨current, found,
      ⟨rfl, rfl, rfl, rfl, rfl, rfl, rfl, rfl, rfl, rfl⟩, edgeMove_of_open hopen _,
      fun r hr => .inr (hreply r hr), fun hsub => by contradiction⟩
    have hmarked : Booked cfg ended (s.appendEdge updated) := by
      refine b.act g ?_ (by rintro _ _ _ _ ⟨⟩) (by rintro _ _ _ _ ⟨⟩) (by rintro _ _ _ _ ⟨⟩)
      rintro edge' hact
      obtain rfl := Act.update.inj hact
      rfl
    split
    · exact hmarked.failCallbackEdge (List.mem_append_right _ (List.mem_singleton.mpr rfl))
        (.inl rfl) _
    · rename_i submitted j hok
      have hfound : (s.appendEdge updated).getEdge updated.edgeId = some updated := by
        simp [State.getEdge, State.appendEdge]
      have hfirst : ∀ r ∈ (s.appendEdge updated).jobs,
          r.agentName = updated.callbackTargetAgent →
            r.request.routeOptions.callbackEdgeId ≠ some updated.edgeId := by
        intro r hr ha he
        have hno := findLast_none.mp hnone r (List.mem_filter.mpr ⟨hr, by simpa using ha⟩)
        simp [he, updated] at hno
      have p : Path cfg (fun _ act => act.steady) (s.appendEdge updated)
          (submitted.appendEdge (updated.submitted j t)) :=
        submitContinuationJob_path hmarked.sound (fun _ _ => trivial) (fun _ _ _ _ => trivial)
          hfound rfl ⟨rfl, rfl, rfl⟩ hfirst hok
      exact hmarked.path p fun _ _ h _ => h

/-- The reply of a job settles the message it was on; handing it to the parent of the
callback and closing the callback that the job went on with leave it so. -/
theorem Booked.recordCompletionReply (b : Booked cfg ended s) {j : JobId} {terminal : JobRecord}
    (hended : ended = none ∨ ended = some j) (hf : Finished s j terminal)
    (decision : CompletionDecision) (t : Timestamp) :
    Booked cfg none (State.recordCompletionReply cfg s terminal decision t) := by
  obtain ⟨c, hc, same, -⟩ := hf.found
  obtain ⟨hcmem, hcid⟩ := State.getJob_mem hc
  obtain ⟨x, hx⟩ := b.sound.coherent.exists_attemptForJob hc
  obtain ⟨hxmem, hxj⟩ := State.attemptForJob_mem hx
  have hx' : s.attemptForJob terminal.jobId = some x := hf.jobId.symm ▸ hx
  -- a job that goes on with a callback is on the message of the callback's parent
  have hdone : ∀ s', Booked cfg none s' → Extends s s' → s'.Settled x.messageId →
      s'.Answered x.messageId → Booked cfg none (s'.markCallbackDone terminal t) := by
    intro s' b' hgrows hsettled hanswered
    refine b'.markCallbackDone (fun e edge he hedge => ?_) t
    obtain ⟨-, edge', hedge', -, y, hy, hyj, hym⟩ :=
      b'.carried c (hgrows.jobs hcmem) e (same.request ▸ he)
    obtain rfl := Option.some.inj (hedge.symm.trans hedge')
    have sameA := b'.sound.coherent.attempts.key y hy x (hgrows.attempts hxmem)
      (.inr (hyj.trans (hcid.trans hxj.symm)))
    rw [← hym, sameA.messageId]
    exact ⟨hsettled, hanswered⟩
  have hreply : ∀ recipient, recipient = none ∨ recipient = some terminal.request.fromActor →
      Booked cfg none ((Act.reply terminal x (State.replyStatusForJob terminal.status) recipient
        t).apply cfg s) ∧ ((Act.reply terminal x (State.replyStatusForJob terminal.status)
          recipient t).apply cfg s).Settled x.messageId ∧
        ((Act.reply terminal x (State.replyStatusForJob terminal.status) recipient
          t).apply cfg s).Answered x.messageId ∧
        Extends s ((Act.reply terminal x (State.replyStatusForJob terminal.status) recipient
          t).apply cfg s) := by
    intro recipient hrec
    have g : (Act.reply terminal x (State.replyStatusForJob terminal.status) recipient t).guard cfg
        s := hf.reply_guard hx _ t hrec
    have hext := Act.extends b.sound.coherent g
    have hanswered : ((Act.reply terminal x (State.replyStatusForJob terminal.status) recipient
        t).apply cfg s).Answered x.messageId := by
      refine ⟨s.replyRow terminal x (State.replyStatusForJob terminal.status) false t, ?_, rfl, rfl⟩
      rw [(Act.effects b.sound.coherent g).replies]
      exact List.mem_append_right _ (List.mem_singleton.mpr rfl)
    have b' := b.steady g trivial
    refine ⟨b'.clear hended fun y hy hyj => ?_, Act.settles_refreshed b.sound.coherent g rfl,
      hanswered, hext⟩
    have sameA := b'.sound.coherent.attempts.key y hy x (hext.attempts hxmem)
      (.inr (hyj.trans hxj.symm))
    rw [sameA.messageId]
    exact .inl hanswered
  obtain ⟨hsome, hnone⟩ := b.sound.coherent.callbackChildEdge hx'
  obtain ⟨hjobs, hattempts, hedges, hreplies⟩ := State.appendReply_logs cfg s terminal x
    (State.replyStatusForJob terminal.status) false none t
  unfold State.recordCompletionReply
  split
  · rename_i edge hedge
    obtain ⟨found, hchild⟩ := hsome edge hedge
    obtain ⟨b', hsettled, hanswered, hext⟩ := hreply none (.inl rfl)
    simp only [State.recordReply, hx', Bool.false_eq_true, ↓reduceIte]
    simp only [Act.apply] at b' hsettled hanswered hext
    set recorded := State.appendReply cfg s terminal x (State.replyStatusForJob terminal.status)
      false none t
    have found' : recorded.getEdge edge.edgeId = some edge := by
      rw [State.getEdge, hedges]
      exact found
    have hcurrent := b'.sound.coherent.edges.childEdge b'.sound.coherent.attempts.key found'
      (j := terminal.jobId) ⟨x, hattempts ▸ hxmem, hxj.trans hf.jobId.symm, hchild.symm⟩
    have hcarries : ∀ r, some s.nextId = some r → ∃ reply ∈ recorded.replies, reply.replyId = r ∧
        reply.messageId = edge.childMessageId ∧ reply.notice = false := by
      intro r hr
      obtain rfl := Option.some.inj hr
      refine ⟨s.replyRow terminal x (State.replyStatusForJob terminal.status) false t, ?_, rfl,
        hchild.symm, rfl⟩
      exact hreplies ▸ List.mem_append_right _ (List.mem_singleton.mpr rfl)
    -- the continuation is on the message of the parent, which is older
    have p : Path cfg (fun s act => ¬act.reopens s x.messageId) recorded
        (State.submitCallbackContinuation cfg recorded edge terminal (some s.nextId)
          decision t) := by
      refine submitCallbackContinuation_path b'.sound ?_ hcurrent found' hcarries ?_
      · intro s act hact
        cases act <;> first | exact id | exact hact.elim
      · intro s' _ _ e job same hm
        have hbelow := b'.sound.coherent.edges.below edge (State.getEdge_mem found').1
        have hm : e.parentMessageId = x.messageId := hm
        rw [← same.parentMessageId, hm, hchild] at hbelow
        exact lt_irrefl _ hbelow
    have hgrows := p.grows b'.sound
    obtain ⟨r, hr, hrm⟩ := hanswered
    exact hdone _ (b'.submitCallbackContinuation hcurrent found' hcarries) (hext.trans hgrows)
      (p.settled b'.sound hsettled fun _ _ h => h) ⟨r, hgrows.replies hr, hrm⟩
  · obtain ⟨b', hsettled, hanswered, hext⟩ := hreply (some terminal.request.fromActor) (.inr rfl)
    simp only [State.recordReply, hx', ↓reduceIte]
    exact hdone _ b' hext hsettled hanswered

end CodexBridge.Dispatch
