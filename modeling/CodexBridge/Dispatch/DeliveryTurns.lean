import CodexBridge.Dispatch.Deliveries

/-! The events of deliveries, act by act, while no delivery job is retried by hand. The
event waits, is handed to the one delivery job that has not ended, or is consumed; only
a completed delivery or an acknowledgement consumes it. -/

namespace CodexBridge.Dispatch

open AppendLog
open Mailbox (InboundEventRecord InboundEventType InboundEventStatus)

variable {cfg : Config} {w : World} {s s' : State} {a : AgentName} {i : InboundEventId}
variable {e : InboundEventRecord}

/-! ### Jobs -/

/-- `r` is the latest record of a job that delivers the event `i` of the mailbox of `a`. -/
structure DeliveryJob (s : State) (a : AgentName) (i : InboundEventId) (r : JobRecord) : Prop where
  found : s.getJob r.jobId = some r
  agentName : r.agentName = a
  inbound : r.providerOptions.replyDeliveryInboundEventId = some i

/-- No delivery job is the retry of another one. -/
def Unretried (s : State) : Prop :=
  ∀ r ∈ s.jobs, r.providerOptions.replyDelivery = true → scheduled r = true

theorem Unretried.scheduled (hu : Unretried s) (h : Sound cfg s) {r : JobRecord} (hr : r ∈ s.jobs)
    (hi : r.providerOptions.replyDeliveryInboundEventId = some i) : scheduled r = true := by
  rcases h.coherent.jobs.delivery r hr with ⟨-, hnone, -⟩ | ⟨-, -, hyes, -⟩
  · rw [hnone] at hi
    contradiction
  · exact hu r hr hyes

theorem Act.unretried {act : Act} (h : Coherent cfg s) (g : act.guard cfg s) (hu : Unretried s)
    (hretry : ∀ source job m k t, act = .accept (.retried source) job m k t →
      source.providerOptions.replyDelivery = false) : Unretried (act.apply cfg s) := by
  intro r hr hyes
  rcases (Act.effects h g).jobs r hr with ⟨r₀, hr₀, same⟩ | ⟨m, hnew⟩
  · rw [scheduled_congr same]
    exact hu r₀ hr₀ (same.providerOptions ▸ hyes)
  · cases act <;> simp only [newJob, reduceCtorEq, Option.some.injEq, Prod.mk.injEq] at hnew
    case accept origin job m' k t =>
      obtain ⟨rfl, -⟩ := hnew
      cases origin with
      | submitted =>
        rw [g.2.providerOptions] at hyes
        contradiction
      | retried source =>
        rw [g.2.providerOptions] at hyes
        exact absurd ((hretry source job m' k t rfl).symm.trans hyes) Bool.false_ne_true
    case continuation edge job t =>
      obtain ⟨rfl, -⟩ := hnew
      rw [g.2.providerOptions] at hyes
      contradiction
    case deliver agentName head record t =>
      obtain ⟨rfl, -⟩ := hnew
      rfl

/-! ### Heads -/

/-- A reply at the head of a mailbox does not come from a live job of the same agent: the
request of that job would be pending in front of it. -/
theorem Sound.head_answers (h : Sound cfg s) (hhead : (s.mailboxes a).headPendingEvent = some e)
    (ht : e.eventType = .taskReply) {x : AttemptRecord} (hx : x ∈ s.attempts)
    (hid : e.attemptId = some x.attemptId) (hagent : x.agentName = a) {c : JobRecord}
    (hc : s.getJob x.jobId = some c) : c.status.terminal = true := by
  by_contra hlive
  have ok := h.inboxes.ok a
  have hmem := mem_of_mem_latest (Mailbox.headPendingEvent_mem hhead).1
  obtain ⟨-, reply, -, -, -, hreply, -, -, y, hy, hyid, r, hr, hry, hactor, -⟩ :=
    (ok.shape e hmem).resolve_left fun ha => by simp [ha.1] at ht
  have hxy : SameAttempt x y := h.coherent.attempts.key x hx y hy
    (.inl ((Option.some.inj (hid.symm.trans hreply)).trans hyid.symm))
  have same : SameJob r c := h.coherent.same hr (hry.trans hxy.jobId.symm) hc
  -- the job has asked for a reply, so it is not a delivery, and a request announces it
  have hrequest : scheduled r = false := by
    rcases h.coherent.jobs.delivery r hr with ⟨hno, -⟩ | ⟨-, -, -, -, -, hsystem⟩
    · simp [scheduled, hno]
    · rw [hsystem] at hactor
      contradiction
  obtain ⟨r₁, hr₁, hid₁, hagent₁⟩ := h.coherent.attempts.job x hx
  have hra : r.agentName = a := by
    rw [same.agentName, ← (h.coherent.same hr₁ hid₁ hc).agentName, hagent₁, hagent]
  obtain ⟨e₀, he₀, ht₀, hpay₀⟩ := h.inboxes.announced r hr hrequest
  rw [hra] at he₀
  obtain ⟨e₁, he₁⟩ := Mailbox.exists_getLatest he₀
  have hmem₁ := Mailbox.getLatest_mem he₁
  have same₁ := ok.agree e₁ hmem₁ e₀ he₀ (Mailbox.getLatest_id he₁)
  have ht₁ : e₁.eventType = .taskRequest := same₁.eventType.trans ht₀
  obtain ⟨-, x₀, hx₀, -, hatt₀, -, hjob₀, -⟩ :=
    (ok.shape e₀ he₀).resolve_right fun ha => by simp [ha.1] at ht₀
  obtain ⟨-, x₁, hx₁, -, hatt₁, -, hjob₁, -⟩ :=
    (ok.shape e₁ hmem₁).resolve_right fun ha => by simp [ha.1] at ht₁
  have hx₁₀ : SameAttempt x₁ x₀ := h.coherent.attempts.key x₁ hx₁ x₀ hx₀
    (.inl (Option.some.inj (hatt₁.symm.trans (same₁.attemptId.trans hatt₀))))
  have hj₀ : r.jobId = x₀.jobId := by simpa using hpay₀.symm.trans hjob₀
  have hjob : x₁.jobId = x.jobId := by
    rw [hx₁₀.jobId, ← hj₀, hry, hxy.jobId]
  have hpending : e₁.status.terminal = false := by
    refine ok.live e₁ (Mailbox.getLatest_eq_some.mp he₁).1 x₁.jobId hjob₁ c (hjob ▸ hc) ?_
    simpa using hlive
  have hle := ok.head_le hhead (Mailbox.getLatest_eq_some.mp he₁).1 hpending
  have hatt : e₁.attemptId = e.attemptId := by
    rw [hatt₁, hid, (h.coherent.attempts.key x₁ hx₁ x hx (.inr hjob)).attemptId]
  exact absurd (ok.own e₁ hmem₁ e hmem ht₁ ht hatt) (not_lt_of_ge hle)

/-- A reply for which a delivery has been scheduled does not come from a live job of the
agent it is delivered to. -/
def AnswersOver (s : State) : Prop :=
  ∀ r ∈ s.jobs, ∀ i, r.providerOptions.replyDeliveryInboundEventId = some i →
    ∀ e ∈ (s.mailboxes r.agentName).events, e.inboundEventId = i →
      ∀ x ∈ s.attempts, e.attemptId = some x.attemptId → x.agentName = r.agentName →
        ∀ c, s.getJob x.jobId = some c → c.status.terminal = true

theorem Act.answersOver {act : Act} (h : Sound cfg s) (g : act.guard cfg s)
    (hu : Unretried (act.apply cfg s)) (answers : AnswersOver s) :
    AnswersOver (act.apply cfg s) := by
  intro r' hr' i hi e he hid x hx hatt hagent c hc
  have hs' := Act.sound g h
  have ext := Act.extends h.coherent g
  -- the event and the attempt were there before the act, with the job
  have hback : ∀ e₀ ∈ (s.mailboxes r'.agentName).events, e₀.inboundEventId = i →
      (∀ x₀ ∈ s.attempts, e₀.attemptId = some x₀.attemptId → x₀.agentName = r'.agentName →
        ∀ c₀, s.getJob x₀.jobId = some c₀ → c₀.status.terminal = true) →
      c.status.terminal = true := by
    intro e₀ he₀ hid₀ hover
    have hsub := Mailbox.Run.events_subset
      (Act.mailbox_run g h.coherent h.inboxes r'.agentName)
    have same := (hs'.inboxes.ok _).agree e he e₀ (hsub he₀) (hid.trans hid₀.symm)
    obtain ⟨x₀, hx₀, hatt₀⟩ := (h.inboxes.ok _).attempt he₀
    have hxx : SameAttempt x x₀ := hs'.coherent.attempts.key x hx x₀ (ext.attempts hx₀)
      (.inl (Option.some.inj (hatt.symm.trans (same.attemptId.trans hatt₀))))
    obtain ⟨r₀, hr₀, hrid, -⟩ := h.coherent.attempts.job x₀ hx₀
    obtain ⟨c₀, hc₀⟩ := State.exists_getJob hr₀
    rw [hrid] at hc₀
    have hterm := hover x₀ hx₀ hatt₀ (hxx.agentName ▸ hagent) c₀ hc₀
    obtain ⟨c', hc', hstatus⟩ := ext.status hs'.coherent hc₀ hterm
    rw [← hxx.jobId, hc] at hc'
    rw [Option.some.inj hc', hstatus]
    exact hterm
  rcases (Act.effects h.coherent g).jobs r' hr' with ⟨r₀, hr₀, same⟩ | ⟨m, hnew⟩
  · rw [same.providerOptions] at hi
    obtain ⟨e₀, he₀, hid₀, -⟩ := h.inboxes.target r₀ hr₀ i hi
    rw [← same.agentName] at he₀
    refine hback e₀ he₀ hid₀ fun x₀ hx₀ hatt₀ hagent₀ c₀ hc₀ => ?_
    rw [same.agentName] at he₀ hagent₀
    exact answers r₀ hr₀ i hi e₀ he₀ hid₀ x₀ hx₀ hatt₀ hagent₀ c₀ hc₀
  · obtain ⟨agentName, head, record, t, rfl⟩ :=
      Act.newJob_scheduled g hnew (hu.scheduled hs' hr' hi)
    obtain ⟨rfl, -⟩ := Prod.mk.inj (Option.some.inj hnew)
    obtain rfl := Option.some.inj hi
    obtain ⟨hhead, ht⟩ := State.headReplyEvent_eq_some g.2.1
    exact hback head (mem_of_mem_latest (Mailbox.headPendingEvent_mem hhead).1) rfl
      fun x₀ hx₀ hatt₀ hagent₀ c₀ hc₀ => h.head_answers hhead ht hx₀ hatt₀ hagent₀ hc₀

/-! ### The end of a job -/

/-- The attempt of an ending job does not lead to the event of a delivery. -/
theorem AnswersOver.unreached (answers : AnswersOver s) (h : Sound cfg s)
    {current terminal : JobRecord} {t : Timestamp} {dequeue : Bool}
    (g : (Act.finish current terminal t dequeue).guard cfg s) {r : JobRecord} (hr : r ∈ s.jobs)
    (hi : r.providerOptions.replyDeliveryInboundEventId = some e.inboundEventId)
    (hagent : r.agentName = terminal.agentName) {x : AttemptRecord}
    (hx : s.attemptForJob terminal.jobId = some x) :
    (s.mailboxes terminal.agentName).getLatestForAttempt x.attemptId ≠ some e := by
  intro hin
  obtain ⟨found, live, -, same, -⟩ := g
  obtain ⟨hmem, hid⟩ := findLast_some hin
  obtain ⟨hxmem, hxj⟩ := State.attemptForJob_mem hx
  obtain ⟨r₁, hr₁, hid₁, hagent₁⟩ := h.coherent.attempts.job x hxmem
  have hfound : s.getJob x.jobId = some current := by rw [hxj, same.jobId, found]
  have hxa : x.agentName = r.agentName := by
    rw [hagent, ← hagent₁, (h.coherent.same hr₁ hid₁ hfound).agentName, same.agentName]
  rw [← hagent] at hmem
  have hover := answers r hr _ hi e hmem rfl x hxmem (of_decide_eq_true hid) hxa current hfound
  rw [live] at hover
  contradiction

theorem Act.spares {act : Act} (h : Sound cfg s) (g : act.guard cfg s) (hu : Unretried s)
    (answers : AnswersOver s) : act.sparesOwned s := by
  cases act with
  | finish current terminal t dequeue =>
    rintro e d r x he - hd hr - - hx
    obtain ⟨replyId, -, hdelivers⟩ := h.delivers (Mailbox.getLatest_mem he) hd hr
    refine ⟨answers.unreached h g (State.getJob_mem hr).1 hdelivers.inbound hdelivers.agentName hx,
      fun hno hinbound => ?_⟩
    have same := g.2.2.2.1
    rw [same.providerOptions] at hinbound
    rw [scheduled_congr same, hu.scheduled h (State.getJob_mem g.1).1 hinbound] at hno
    contradiction
  | _ => trivial

/-- A completed delivery consumes its event, and any other end puts the event back. -/
theorem Owns.finish (h : Sound cfg s) (answers : AnswersOver s) {current terminal : JobRecord}
    {t : Timestamp} {dequeue : Bool} (g : (Act.finish current terminal t dequeue).guard cfg s)
    (owns : Owns s terminal.agentName i terminal.jobId) :
    ∃ e', (((Act.finish current terminal t dequeue).apply cfg s).mailboxes
        terminal.agentName).getLatest i = some e' ∧
      (terminal.status = .completed ∧ e'.status = .consumed ∨
        terminal.status ≠ .completed ∧ e'.status = .queued ∧
          ∃ replyId, e'.payloadRef = some (.reply replyId none)) := by
  obtain ⟨e, he, hpending, hd⟩ := owns
  have hid := Mailbox.getLatest_id he
  obtain ⟨found, -, -, same, -⟩ := id g
  have hfound : s.getJob terminal.jobId = some current := same.jobId ▸ found
  obtain ⟨x, hx⟩ := h.coherent.exists_attemptForJob hfound
  obtain ⟨replyId, -, hdelivers⟩ := h.delivers (Mailbox.getLatest_mem he) hd hfound
  have hreach := answers.unreached h g (State.getJob_mem found).1 hdelivers.inbound
    hdelivers.agentName hx
  refine ⟨_, (getLatest_finish h g hx i).trans (by rw [he, Option.map_some]), ?_⟩
  rcases finishedRow_cases (s.mailboxes terminal.agentName) terminal x.attemptId t e with
    ⟨-, hother⟩ | ⟨-, hin, -⟩ | ⟨-, -, r, -, -, hrow⟩
  · refine absurd ?_ ((hother hpending).2 replyId (same.providerOptions ▸ hdelivers.reply))
    rw [same.providerOptions]
    exact hdelivers.inbound
  · exact absurd hin hreach
  · rw [hrow]
    split_ifs with hcompleted
    · exact .inl ⟨hcompleted, rfl⟩
    · exact .inr ⟨hcompleted, rfl, r, rfl⟩

/-! ### Acknowledgement -/

/-- An acknowledgement consumes the head or leaves the events as they are. -/
theorem getLatest_acknowledge {mb : Mailbox} {head : InboundEventRecord}
    (hhead : mb.headPendingEvent = some head) (now : Timestamp) {e' : InboundEventRecord}
    (he' : (mb.ackReply now head.inboundEventId (some now) (some now)).1.getLatest i = some e') :
    mb.getLatest i = some e' ∨ e'.status = .consumed := by
  have hrebuild : ∀ t, (mb.rebuildMailboxSummary t).getLatest i = some e' →
      mb.getLatest i = some e' ∨ e'.status = .consumed := by
    intro t he
    rw [Mailbox.getLatest_rebuild] at he
    exact .inl he
  -- a mailbox in which the head is still pending, and nothing else has changed
  have hmark : ∀ (mb₁ : Mailbox) t,
      (∀ j, j ≠ head.inboundEventId → mb₁.getLatest j = mb.getLatest j) →
      (∀ e₁, mb₁.getLatest head.inboundEventId = some e₁ → e₁.status.terminal = false) →
      (mb₁.markTerminal now head.inboundEventId .consumed (some t)).1.getLatest i = some e' →
      mb.getLatest i = some e' ∨ e'.status = .consumed := by
    intro mb₁ t hothers hpending he
    rw [Mailbox.getLatest_markTerminal] at he
    obtain ⟨e₁, he₁, hrow⟩ := Option.map_eq_some_iff.mp he
    by_cases hi : i = head.inboundEventId
    · subst hi
      rw [Mailbox.endedRow, if_pos ⟨Mailbox.getLatest_id he₁, hpending e₁ he₁⟩] at hrow
      exact .inr (by rw [← hrow])
    · rw [Mailbox.endedRow, if_neg fun hid => hi
        ((Mailbox.getLatest_id he₁).symm.trans hid.1)] at hrow
      rw [hothers i hi, hrow] at he₁
      exact .inl he₁
  have hlatest := getLatest_head hhead
  have hlive := (Mailbox.headPendingEvent_mem hhead).2
  unfold Mailbox.ackReply at he'
  dsimp only at he'
  split_ifs at he'
  · exact hrebuild _ he'
  · rw [hlatest] at he'
    dsimp only at he'
    split_ifs at he' with hterm hdelivering
    · exact hrebuild _ he'
    · refine hmark mb _ (fun _ _ => rfl) (fun e₁ he₁ => ?_) he'
      rw [← Option.some.inj (hlatest.symm.trans he₁)]
      exact hlive
    · rcases mb.claim_cases now head.inboundEventId (some now) with
        ⟨hclaim, -⟩ | ⟨current, hcurrent, -, -, -, hclaim⟩
      · split at he'
        · rename_i claimedBox hnone
          have hbox : (mb.claim now head.inboundEventId (some now)).1 = claimedBox :=
            congrArg Prod.fst hnone
          rw [hclaim] at hbox
          subst hbox
          rw [Mailbox.getLatest_rebuild] at he'
          exact hrebuild _ he'
        · rename_i claimedBox claimed hsome
          have hbox : (mb.claim now head.inboundEventId (some now)).1 = claimedBox :=
            congrArg Prod.fst hsome
          rw [hclaim] at hbox
          subst hbox
          refine hmark _ _ (fun _ _ => Mailbox.getLatest_rebuild _ _) (fun e₁ he₁ => ?_) he'
          rw [Mailbox.getLatest_rebuild, hlatest] at he₁
          rw [← Option.some.inj he₁]
          exact hlive
      · obtain rfl := Option.some.inj (hhead.symm.trans hcurrent)
        simp only [Option.getD_some, hclaim] at he'
        have hrow : ∀ j, (mb.claimCurrent head now).1.getLatest j =
            if head.inboundEventId = j then some (Mailbox.deliveryRecord head now)
            else mb.getLatest j :=
          Mailbox.getLatest_of_append (Mailbox.events_claimCurrent mb head now)
        refine hmark (mb.claimCurrent head now).1 _ (fun j hj => ?_) (fun e₁ he₁ => ?_) he'
        · rw [hrow, if_neg]
          exact fun hid => hj hid.symm
        · rw [hrow, if_pos rfl] at he₁
          rw [← Option.some.inj he₁]
          rfl

/-! ### The events of deliveries -/

/-- How the event of a delivery stands: it is consumed, it waits with its reply, or it is
handed to a job that has not ended. -/
inductive Stage (s : State) (e : InboundEventRecord) : Prop
  | consumed (ended : e.status = .consumed)
  | waiting (replyId : ReplyId) (queued : e.status = .queued)
      (free : e.payloadRef = some (.reply replyId none))
  | handed (r : JobRecord) (pending : e.status.terminal = false)
      (named : deliveryJobIdFromPayload e.payloadRef = some r.jobId)
      (found : s.getJob r.jobId = some r) (live : r.status.terminal = false)

/-- Every event with a delivery job stands in one of these ways. -/
def Staged (s : State) : Prop :=
  ∀ r ∈ s.jobs, ∀ i, r.providerOptions.replyDeliveryInboundEventId = some i →
    ∀ e, (s.mailboxes r.agentName).getLatest i = some e → Stage s e

/-- A row that an act leaves alone stands as before, unless its job ends. -/
theorem Stage.keep {act : Act} (h : Sound cfg s) (g : act.guard cfg s) (stage : Stage s e) :
    Stage (act.apply cfg s) e ∨ e.status.terminal = false ∧
      ∃ current terminal t dequeue, act = .finish current terminal t dequeue ∧
        deliveryJobIdFromPayload e.payloadRef = some terminal.jobId := by
  cases stage with
  | consumed ended => exact .inl (.consumed ended)
  | waiting replyId queued free => exact .inl (.waiting replyId queued free)
  | handed r pending named found live =>
    by_cases hfin : ∃ current terminal t dequeue, act = .finish current terminal t dequeue ∧
        current.jobId = r.jobId
    · obtain ⟨current, terminal, t, dequeue, rfl, hid⟩ := hfin
      exact .inr ⟨pending, current, terminal, t, dequeue, rfl, by
        rw [named, ← hid, g.2.2.2.1.jobId]⟩
    · obtain ⟨r', hr', live'⟩ := Act.keeps_live h.coherent g ⟨r, found, live⟩
        fun current terminal t dequeue hact hid => hfin ⟨current, terminal, t, dequeue, hact, hid⟩
      have hid := (State.getJob_mem hr').2
      exact .inl (.handed r' pending (hid ▸ named) (hid ▸ hr') live')

theorem Stage.delivered {agentName : AgentName} {head : InboundEventRecord} {record : ReplyRecord}
    {t : Timestamp} (queued : e.status = .queued)
    (named : e.payloadRef = some (.reply record.replyId (some s.nextId))) :
    Stage ((Act.deliver agentName head record t).apply cfg s) e := by
  refine .handed (s.buildJobRecord cfg agentName (State.replyDeliveryRequest cfg agentName record)
    (State.replyDeliveryOptions head.inboundEventId record.replyId) none t) ?_ ?_ ?_
    (JobStatus.not_terminal_of_pending (State.pendingStatus_pending s agentName))
  · rw [queued]
    rfl
  · rw [named]
    rfl
  · exact (findLast_append _ _ _).trans (if_pos (decide_eq_true rfl))

/-- However an act turns the event of a delivery, it stands in one of the ways. -/
theorem Stage.turn {act : Act} (h : Sound cfg s) (g : act.guard cfg s) (answers : AnswersOver s)
    {r : JobRecord} (hr : r ∈ s.jobs)
    (hi : r.providerOptions.replyDeliveryInboundEventId = some e.inboundEventId)
    (he : (s.mailboxes r.agentName).getLatest e.inboundEventId = some e)
    (ht : e.eventType = .taskReply) (pending : e.status.terminal = false) (stage : Stage s e)
    {e' : InboundEventRecord} (turn : act.Turn s r.agentName e e')
    (he' : ((act.apply cfg s).mailboxes r.agentName).getLatest e.inboundEventId = some e') :
    Stage (act.apply cfg s) e' := by
  have hopen : e.status ≠ .consumed := by
    intro hconsumed
    rw [hconsumed] at pending
    contradiction
  cases act with
  | startRequest agentName current t =>
    obtain ⟨-, hpay, -⟩ := turn
    cases stage with
    | consumed ended => exact absurd ended hopen
    | waiting replyId queued free =>
      have hpayload := Option.some.inj (hpay.symm.trans free)
      contradiction
    | handed c _ named _ _ =>
      rw [hpay] at named
      contradiction
  | startDelivery agentName current t =>
    obtain ⟨-, hd, hstatus, hpay⟩ := turn
    cases stage with
    | consumed ended => exact absurd ended hopen
    | waiting replyId queued free =>
      rw [free] at hd
      contradiction
    | handed c _ named found live =>
      obtain ⟨c', hc', live'⟩ := Act.keeps_live h.coherent g ⟨c, found, live⟩
        fun _ _ _ _ hact => by contradiction
      have hid := (State.getJob_mem hc').2
      refine .handed c' ?_ ?_ (hid ▸ hc') live'
      · rw [hstatus]
        rfl
      · rw [hpay, named, hid]
  | finish current terminal t dequeue =>
    obtain ⟨hagent, ⟨x, hx, hin, -⟩ | ⟨replyId, -, -, hrow⟩⟩ := turn
    · exact absurd (hagent ▸ hin) (answers.unreached h g hr hi hagent hx)
    · rcases hrow with ⟨-, hconsumed, -⟩ | ⟨-, hqueued, hpay⟩
      · exact .consumed hconsumed
      · exact .waiting replyId hqueued hpay
  | deliver agentName head record t => exact .delivered turn.2.2.1 turn.2.2.2
  | reset agentName event replyId t => exact .waiting replyId turn.2.2.1 turn.2.2.2
  | consumeDelivered agentName head job t => exact .consumed turn.2.2.1
  | acknowledge agentName head t =>
    obtain ⟨hagent, rfl, -⟩ := turn
    subst hagent
    have hmb : ((Act.acknowledge r.agentName e t).apply cfg s).mailboxes r.agentName = _ :=
      Function.update_self _ _ _
    rw [hmb] at he'
    rcases getLatest_acknowledge g.1 t he' with hsame | hconsumed
    · obtain rfl := Option.some.inj (he.symm.trans hsame)
      rcases stage.keep h g with hstage | ⟨-, _, _, _, _, hact, -⟩
      · exact hstage
      · contradiction
    · exact .consumed hconsumed
  | endRequest agentName event status t =>
    obtain ⟨-, rfl, -⟩ := turn
    rw [g.2.1] at ht
    contradiction
  | discard agentName head t =>
    obtain ⟨-, rfl, -⟩ := turn
    have hlive := h.eventIsLive (Mailbox.getLatest_mem he) ht
    rw [g.2] at hlive
    contradiction
  | _ => exact turn.elim

theorem Act.staged {act : Act} (h : Sound cfg s) (g : act.guard cfg s)
    (hu : Unretried (act.apply cfg s)) (answers : AnswersOver s) (staged : Staged s) :
    Staged (act.apply cfg s) := by
  intro r' hr' i hi e' he'
  have hs' := Act.sound g h
  rcases (Act.effects h.coherent g).jobs r' hr' with ⟨r, hr, same⟩ | ⟨m, hnew⟩
  · rw [same.providerOptions] at hi
    rw [same.agentName] at he'
    obtain ⟨e₀, he₀, rfl, -, ht₀⟩ := h.inboxes.target r hr i hi
    obtain ⟨e, he⟩ := Mailbox.exists_getLatest he₀
    have hid := Mailbox.getLatest_id he
    have ht : e.eventType = .taskReply := ((h.inboxes.ok _).agree e (Mailbox.getLatest_mem he) e₀
      he₀ hid).eventType.trans ht₀
    have stage := staged r hr _ hi e he
    obtain ⟨e₁, he₁, hrow⟩ := (Act.fate h g r.agentName e₀.inboundEventId).kept e he
    obtain rfl := Option.some.inj (he₁.symm.trans he')
    rw [← hid] at hi he he'
    rcases hrow with rfl | ⟨hpending, turn⟩
    · rcases stage.keep h g with hstage | ⟨hpending, current, terminal, t, dequeue, rfl, hd⟩
      · exact hstage
      · -- the end of the job that the event names does not leave the event alone
        have hfound : s.getJob terminal.jobId = some current := g.2.2.2.1.jobId ▸ g.1
        obtain ⟨replyId, -, hdelivers⟩ := h.delivers (Mailbox.getLatest_mem he) hd hfound
        have hagent : r.agentName = terminal.agentName :=
          hdelivers.agentName.symm.trans g.2.2.2.1.agentName.symm
        rw [hagent] at he he'
        obtain ⟨e₂, he₂, hend⟩ := Owns.finish h answers g ⟨e₁, he, hpending, hd⟩
        obtain rfl := Option.some.inj (he'.symm.trans he₂)
        rcases hend with ⟨-, hconsumed⟩ | ⟨-, hqueued, replyId, hpay⟩
        · exact .consumed hconsumed
        · exact .waiting replyId hqueued hpay
    · exact stage.turn h g answers hr hi he ht hpending turn he'
  · obtain ⟨agentName, head, record, t, rfl⟩ :=
      Act.newJob_scheduled g hnew (hu.scheduled hs' hr' hi)
    obtain ⟨rfl, -⟩ := Prod.mk.inj (Option.some.inj hnew)
    obtain rfl := Option.some.inj hi
    have hmb : ((Act.deliver agentName head record t).apply cfg s).mailboxes agentName = _ :=
      Function.update_self _ _ _
    obtain ⟨hhead, -⟩ := State.headReplyEvent_eq_some g.2.1
    have hrow : ((s.mailboxes agentName).rewriteHead t head.inboundEventId
        (composeReplyPayload record.replyId (some s.nextId)) .queued (some t) true).1.getLatest
          head.inboundEventId = _ := Mailbox.getLatest_rewriteHead _ _ _ _ _ _ _
    rw [getLatest_head hhead, Option.map_some, Mailbox.rewrittenRow,
      if_pos ⟨rfl, (Mailbox.headPendingEvent_mem hhead).2⟩] at hrow
    obtain rfl := Option.some.inj ((hmb ▸ he').symm.trans hrow)
    exact .delivered rfl rfl

/-! ### Deliveries of one event -/

/-- What holds of the deliveries in a run: a live one owns its event and is the newest one
of it, and a completed one is the only one and has consumed it. -/
structure DeliveriesOk (s : State) : Prop where
  unretried : Unretried s
  answers : AnswersOver s
  named : Named s
  staged : Staged s
  newest : ∀ a i r r', DeliveryJob s a i r → DeliveryJob s a i r' → r.status.terminal = false →
    r'.jobId ≤ r.jobId
  completed : ∀ a i r, DeliveryJob s a i r → r.status = .completed →
    ∃ e, (s.mailboxes a).getLatest i = some e ∧ e.status = .consumed
  completed_once : ∀ a i r r', DeliveryJob s a i r → DeliveryJob s a i r' →
    r.status = .completed → r'.status = .completed → r.jobId = r'.jobId

theorem DeliveriesOk.initial (auto : Bool) : DeliveriesOk (State.initial auto) := by
  have hnone : ∀ a i r, ¬DeliveryJob (State.initial auto) a i r := by
    rintro a i r ⟨found, -, -⟩
    exact absurd (State.getJob_mem found).1 (List.not_mem_nil)
  refine ⟨?_, ?_, ?_, ?_, fun a i r _ hr => absurd hr (hnone a i r),
    fun a i r hr => absurd hr (hnone a i r), fun a i r _ hr => absurd hr (hnone a i r)⟩
  · exact fun r hr => absurd hr List.not_mem_nil
  · exact fun r hr => absurd hr List.not_mem_nil
  · exact fun j r i hr => absurd (State.getJob_mem hr).1 List.not_mem_nil
  · exact fun r hr => absurd hr List.not_mem_nil

/-- Where a delivery job comes from: it was there, or the act ends it, or prepares it. -/
theorem DeliveryJob.cases {act : Act} (h : Sound cfg s) (g : act.guard cfg s)
    (hu : Unretried (act.apply cfg s)) {r' : JobRecord}
    (hr' : DeliveryJob (act.apply cfg s) a i r') :
    (∃ r, DeliveryJob s a i r ∧ r.jobId = r'.jobId ∧
        (r'.status = r.status ∨ r'.status = .running)) ∨
      (∃ current t dequeue, act = .finish current r' t dequeue ∧ DeliveryJob s a i current ∧
        current.jobId = r'.jobId ∧ current.status.terminal = false) ∨
      ∃ head record t, act = .deliver a head record t ∧ head.inboundEventId = i ∧
        r'.jobId = s.nextId ∧ r'.status.pending = true := by
  obtain ⟨found, hagent, hi⟩ := hr'
  rcases Act.getJob_cases h.coherent g found with ⟨r, hr, same, hstatus⟩ |
    ⟨current, t, dequeue, rfl⟩ | ⟨m, hnew⟩
  · have hid := (State.getJob_mem hr).2
    exact .inl ⟨r, ⟨hid.symm ▸ hr, same.agentName ▸ hagent, same.providerOptions ▸ hi⟩, hid,
      hstatus⟩
  · obtain ⟨hcurrent, hlive, -, same, -⟩ := g
    exact .inr (.inl ⟨current, t, dequeue, rfl, ⟨hcurrent, same.agentName ▸ hagent,
      same.providerOptions ▸ hi⟩, same.jobId.symm, hlive⟩)
  · have hpending := Act.newJob_pending g hnew
    obtain ⟨agentName, head, record, t, rfl⟩ := Act.newJob_scheduled g hnew
      (hu.scheduled (Act.sound g h) (State.getJob_mem found).1 hi)
    obtain ⟨rfl, -⟩ := Prod.mk.inj (Option.some.inj hnew)
    subst hagent
    exact .inr (.inr ⟨head, record, t, rfl, Option.some.inj hi, rfl, hpending⟩)

/-- A live delivery owns its event. -/
theorem DeliveriesOk.owns (ok : DeliveriesOk s) (h : Sound cfg s) {r : JobRecord}
    (hr : DeliveryJob s a i r) (live : r.status.terminal = false) : Owns s a i r.jobId := by
  have hscheduled := ok.unretried.scheduled h (State.getJob_mem hr.found).1 hr.inbound
  exact hr.agentName ▸ ok.named r.jobId r i hr.found hscheduled live hr.inbound

theorem Act.deliveriesOk {act : Act} (h : Sound cfg s) (g : act.guard cfg s)
    (ok : DeliveriesOk s)
    (hretry : ∀ source job m k t, act = .accept (.retried source) job m k t →
      source.providerOptions.replyDelivery = false) : DeliveriesOk (act.apply cfg s) := by
  have hs' := Act.sound g h
  have hu := Act.unretried h.coherent g ok.unretried hretry
  have hgrows := (Act.extends h.coherent g).grows hs'.coherent
  have hended : ∀ b k e, (s.mailboxes b).getLatest k = some e → e.status = .consumed →
      ((act.apply cfg s).mailboxes b).getLatest k = some e := by
    intro b k e he hconsumed
    obtain ⟨e', he', hrow⟩ := (Act.fate h g b k).kept e he
    rcases hrow with rfl | ⟨hpending, -⟩
    · exact he'
    · rw [hconsumed] at hpending
      contradiction
  have hold : ∀ {c c' : JobRecord}, c'.status = c.status ∨ c'.status = .running →
      c'.status = .completed → c.status = .completed := by
    rintro c c' (hstatus | hstatus) hcompleted
    · rw [← hstatus, hcompleted]
    · rw [hcompleted] at hstatus
      contradiction
  refine ⟨hu, Act.answersOver h g hu ok.answers,
    Act.named h g ok.named (Act.spares h g ok.unretried ok.answers),
    Act.staged h g hu ok.answers ok.staged, ?_, ?_, ?_⟩
  · intro b k r r' hr hr' live
    have hlt : ∀ {c : JobRecord}, DeliveryJob s b k c → c.jobId < s.nextId := fun hc =>
      h.coherent.jobs.issued _ (State.getJob_mem hc.found).1
    -- the newer of two deliveries was prepared when no other one owned the event
    have hprepared : ∀ head record t c, act = .deliver b head record t →
        head.inboundEventId = k → DeliveryJob s b k c → c.status.terminal = true := by
      rintro head record t c rfl rfl hc
      by_contra hlive
      obtain ⟨e, he, -, hd⟩ := ok.owns h hc (by simpa using hlive)
      obtain ⟨-, hhead, hfree, -⟩ := g
      have hlatest := getLatest_head (State.headReplyEvent_eq_some hhead).1
      obtain rfl := Option.some.inj (hlatest.symm.trans he)
      rw [hfree] at hd
      contradiction
    rcases hr.cases h g hu with ⟨c, hc, hid, -⟩ | ⟨c, t, dequeue, rfl, hc, hid, -⟩ |
      ⟨head, record, t, rfl, -, hnew, -⟩
    · have hclive : c.status.terminal = false := hgrows.live (hid ▸ hc.found) hr.found live
      rw [← hid]
      rcases hr'.cases h g hu with ⟨c', hc', hid', -⟩ | ⟨c', t, dequeue, rfl, hc', hid', -⟩ |
        ⟨head, record, t, hact, hk, hnew, -⟩
      · exact hid' ▸ ok.newest b k c c' hc hc' hclive
      · exact hid' ▸ ok.newest b k c c' hc hc' hclive
      · rw [hprepared head record t c hact hk hc] at hclive
        contradiction
    · rw [g.2.2.2.2] at live
      contradiction
    · rw [hnew]
      rcases hr'.cases h g hu with ⟨c', hc', hid', -⟩ | ⟨c', t', dequeue, hact, -⟩ |
        ⟨_, _, _, -, -, hnew', -⟩
      · exact hid' ▸ (hlt hc').le
      · contradiction
      · exact hnew'.le
  · intro b k r hr hcompleted
    rcases hr.cases h g hu with ⟨c, hc, -, hstatus⟩ | ⟨c, t, dequeue, rfl, hc, hid, hlive⟩ |
      ⟨_, _, _, rfl, -, -, hpending⟩
    · obtain ⟨e, he, hconsumed⟩ := ok.completed b k c hc (hold hstatus hcompleted)
      exact ⟨e, hended b k e he hconsumed, hconsumed⟩
    · have howns := ok.owns h hc hlive
      rw [hid, ← hr.agentName] at howns
      obtain ⟨e', he', hend⟩ := Owns.finish h ok.answers g howns
      rcases hend with ⟨-, hconsumed⟩ | ⟨hnot, -⟩
      · exact ⟨e', hr.agentName ▸ he', hconsumed⟩
      · exact absurd hcompleted hnot
    · rw [hcompleted] at hpending
      contradiction
  · -- a live job owns a pending event, which a completed one has consumed
    have hclash : ∀ b k c c', DeliveryJob s b k c → DeliveryJob s b k c' →
        c.status = .completed → c'.status.terminal = true := by
      intro b k c c' hc hc' hcompleted
      by_contra hlive
      obtain ⟨e, he, hconsumed⟩ := ok.completed b k c hc hcompleted
      obtain ⟨e', he', hpending, -⟩ := ok.owns h hc' (by simpa using hlive)
      obtain rfl := Option.some.inj (he.symm.trans he')
      rw [hconsumed] at hpending
      contradiction
    intro b k r r' hr hr' hcompleted hcompleted'
    rcases hr.cases h g hu with ⟨c, hc, hid, hstatus⟩ | ⟨c, t, dequeue, rfl, hc, hid, hlive⟩ |
      ⟨_, _, _, rfl, -, -, hpending⟩
    · rcases hr'.cases h g hu with ⟨c', hc', hid', hstatus'⟩ |
        ⟨c', t', dequeue', rfl, hc', hid', hlive'⟩ | ⟨_, _, _, rfl, -, -, hpending'⟩
      · rw [← hid, ← hid']
        exact ok.completed_once b k c c' hc hc' (hold hstatus hcompleted)
          (hold hstatus' hcompleted')
      · rw [hclash b k c c' hc hc' (hold hstatus hcompleted)] at hlive'
        contradiction
      · rw [hcompleted'] at hpending'
        contradiction
    · rcases hr'.cases h g hu with ⟨c', hc', hid', hstatus'⟩ |
        ⟨c', t', dequeue', hact, -⟩ | ⟨_, _, _, hact, -⟩
      · rw [hclash b k c' c hc' hc (hold hstatus' hcompleted')] at hlive
        contradiction
      · rw [Act.finish.inj hact |>.2.1]
      · contradiction
    · rw [hcompleted] at hpending
      contradiction

end CodexBridge.Dispatch
