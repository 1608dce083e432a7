import CodexBridge.Dispatch.JobRuns
import CodexBridge.Dispatch.EventTurns
import CodexBridge.Dispatch.MessageStates

/-! Delivery jobs and the reply events they deliver. A scheduled delivery that has not
ended owns its event: the event is pending and its payload names the job. What can
break this is the end of another job that reaches the same event. -/

namespace CodexBridge.Dispatch

open AppendLog
open Mailbox (InboundEventRecord InboundEventType InboundEventStatus)

variable {cfg : Config} {w : World} {s s' : State} {a : AgentName}

/-- The event is pending and its payload names the delivery job `j`. -/
def Owns (s : State) (a : AgentName) (i : InboundEventId) (j : JobId) : Prop :=
  ∃ e, (s.mailboxes a).getLatest i = some e ∧ e.status.terminal = false ∧
    deliveryJobIdFromPayload e.payloadRef = some j

/-- Every scheduled delivery that has not ended owns its event. -/
def Named (s : State) : Prop :=
  ∀ j r i, s.getJob j = some r → scheduled r = true → r.status.terminal = false →
    r.providerOptions.replyDeliveryInboundEventId = some i → Owns s r.agentName i j

theorem scheduled_congr {r r' : JobRecord} (h : SameJob r r') : scheduled r = scheduled r' := by
  rw [scheduled, scheduled, h.providerOptions]

/-- A reply event of a sound state is never stale. -/
theorem Sound.eventIsLive (h : Sound cfg s) {e : InboundEventRecord}
    (he : e ∈ (s.mailboxes a).events) (ht : e.eventType = .taskReply) : s.eventIsLive e = true := by
  rcases (h.inboxes.ok a).shape e he with ha | ⟨-, reply, hreply, d, hpay, hid, hmsg, -, -⟩
  · rw [ha.1] at ht
    contradiction
  · obtain ⟨x, hx, hxid, hxm⟩ := h.coherent.replies.attempt reply hreply
    obtain ⟨m, hm, hmid⟩ := h.coherent.attempts.message x hx
    obtain ⟨message, hmessage⟩ := State.exists_getMessage hm
    obtain ⟨y, hy⟩ := exists_findLast (p := fun r : AttemptRecord =>
      decide (r.attemptId = x.attemptId)) hx (by simp)
    obtain ⟨r, hr⟩ := exists_findLast (p := fun r : ReplyRecord =>
      decide (r.replyId = reply.replyId)) hreply (by simp)
    have hy : s.getAttempt x.attemptId = some y := hy
    have hr : s.getReply reply.replyId = some r := hr
    rw [hmid, hxm] at hmessage
    simp [State.eventIsLive, State.replyForEvent, hmsg, hmessage, hid, ← hxid, hy, ht, hpay,
      replyIdFromPayload, hr]

/-! ### New jobs -/

/-- The only jobs that arrive scheduled are those of the preparation. -/
theorem Act.newJob_scheduled {act : Act} (g : act.guard cfg s) {job : JobRecord} {m : MessageId}
    (hnew : act.newJob cfg s = some (job, m)) (hs : scheduled job = true) :
    ∃ agentName head record t, act = .deliver agentName head record t := by
  cases act <;> simp only [newJob, reduceCtorEq, Option.some.injEq, Prod.mk.injEq] at hnew
  case accept origin job' m' i t =>
    obtain ⟨rfl, -⟩ := hnew
    cases origin with
    | submitted =>
      rw [scheduled, g.2.providerOptions] at hs
      contradiction
    | retried source =>
      rw [scheduled, g.2.providerOptions] at hs
      simp [State.retryProviderOptionsForJob] at hs
  case continuation edge job' t =>
    obtain ⟨rfl, -⟩ := hnew
    rw [scheduled, g.2.providerOptions] at hs
    contradiction
  case deliver agentName head record t => exact ⟨agentName, head, record, t, rfl⟩

/-- Preparing a delivery makes it the owner of the head. -/
theorem Owns.deliver {agentName : AgentName} {head : InboundEventRecord} {record : ReplyRecord}
    {t : Timestamp} (g : (Act.deliver agentName head record t).guard cfg s) :
    Owns ((Act.deliver agentName head record t).apply cfg s) agentName head.inboundEventId
      s.nextId := by
  obtain ⟨hhead, -⟩ := State.headReplyEvent_eq_some g.2.1
  obtain ⟨hmem, hlive⟩ := Mailbox.headPendingEvent_mem hhead
  have hmb : ((Act.deliver agentName head record t).apply cfg s).mailboxes agentName =
      ((s.mailboxes agentName).rewriteHead t head.inboundEventId
        (composeReplyPayload record.replyId (some s.nextId)) .queued (some t) true).1 :=
    Function.update_self _ _ _
  refine ⟨Mailbox.rewriteRecord head (composeReplyPayload record.replyId (some s.nextId)) .queued
    true, ?_, rfl, rfl⟩
  rw [hmb, Mailbox.getLatest_rewriteHead, getLatest_head hhead, Option.map_some,
    Mailbox.rewrittenRow, if_pos ⟨rfl, hlive⟩]

/-! ### One act -/

/-- The end of a job leaves the events of other deliveries alone. -/
def Act.sparesOwned (s : State) : Act → Prop
  | .finish _ terminal _ _ => ∀ e d r x,
    (s.mailboxes terminal.agentName).getLatest e.inboundEventId = some e →
    e.status.terminal = false → deliveryJobIdFromPayload e.payloadRef = some d →
    s.getJob d = some r → r.status.terminal = false → d ≠ terminal.jobId →
    s.attemptForJob terminal.jobId = some x →
      (s.mailboxes terminal.agentName).getLatestForAttempt x.attemptId ≠ some e ∧
        (scheduled terminal = false →
          terminal.providerOptions.replyDeliveryInboundEventId ≠ some e.inboundEventId)
  | _ => True

/-- An event owned by a live delivery stays owned by it while the delivery is live. -/
theorem Owns.keep {act : Act} (h : Sound cfg s) (g : act.guard cfg s) (named : Named s)
    (spares : act.sparesOwned s) {i : InboundEventId} {j : JobId} {r r' : JobRecord}
    (hr : s.getJob j = some r) (hlive : r.status.terminal = false)
    (hr' : (act.apply cfg s).getJob j = some r') (hlive' : r'.status.terminal = false)
    (owns : Owns s a i j) : Owns (act.apply cfg s) a i j := by
  obtain ⟨e, he, hpending, hd⟩ := owns
  have hid := Mailbox.getLatest_id he
  have hmem := Mailbox.getLatest_mem he
  obtain ⟨e', he', hrow⟩ := (Act.fate h g a i).kept e he
  rcases hrow with rfl | ⟨-, turn⟩
  · exact ⟨e', he', hpending, hd⟩
  have hreply : e.eventType = .taskReply := by
    rcases (h.inboxes.ok a).shape e hmem with ⟨-, x, -, -, -, -, hpay, -⟩ | ha
    · rw [hpay] at hd
      contradiction
    · exact ha.1
  cases act with
  | startRequest agentName current t =>
    rw [turn.2.1] at hd
    contradiction
  | startDelivery agentName current t =>
    exact ⟨e', he', by rw [turn.2.2.1]; rfl, turn.2.2.2 ▸ hd⟩
  | finish current terminal t dequeue =>
    have same := g.2.2.2.1
    -- the ending job is another one, since this one is still live
    have hne : j ≠ terminal.jobId := by
      rintro rfl
      obtain ⟨-, ⟨c, hc, -, hcs⟩, hended⟩ := finished_finish h.coherent g rfl
      rw [← same.jobId] at hc
      obtain rfl := Option.some.inj (hc.symm.trans hr')
      rw [hcs, hended] at hlive'
      contradiction
    obtain ⟨x, hx⟩ := h.coherent.exists_attemptForJob (same.jobId ▸ g.1)
    obtain ⟨rfl, hturn⟩ := turn
    obtain ⟨hattempt, hinbound⟩ := spares e j r x (hid.symm ▸ he) hpending hd hr hlive hne hx
    rcases hturn with ⟨y, hy, hin, -⟩ | ⟨replyId, hdelivery, -⟩
    · obtain rfl := Option.some.inj (hx.symm.trans hy)
      exact absurd hin hattempt
    · by_cases hs : scheduled terminal = true
      · -- a scheduled delivery owns its event alone
        obtain ⟨e₁, he₁, -, hd₁⟩ := named terminal.jobId current e.inboundEventId
          (same.jobId ▸ g.1) (scheduled_congr same ▸ hs) g.2.1 (same.providerOptions ▸ hdelivery)
        rw [← same.agentName, hid, he] at he₁
        obtain rfl := Option.some.inj he₁
        exact absurd (Option.some.inj (hd.symm.trans hd₁)) hne
      · exact absurd hdelivery (hinbound (by simpa using hs))
  | deliver agentName head record t =>
    obtain ⟨rfl, rfl, -⟩ := turn
    rw [g.2.2.1] at hd
    contradiction
  | reset agentName event replyId t =>
    obtain ⟨rfl, rfl, -⟩ := turn
    have hover := g.2.2 j hd r hr
    rw [failedTerminal_terminal hover] at hlive
    contradiction
  | consumeDelivered agentName head job t =>
    obtain ⟨rfl, rfl, -⟩ := turn
    obtain ⟨-, hd', hjob, hcompleted⟩ := g
    obtain rfl := Option.some.inj (hd.symm.trans hd')
    obtain rfl := Option.some.inj (hr.symm.trans hjob)
    rw [hcompleted] at hlive
    contradiction
  | acknowledge agentName head t =>
    obtain ⟨rfl, rfl, -⟩ := turn
    rw [g.2.2] at hd
    contradiction
  | endRequest agentName event status t =>
    obtain ⟨rfl, rfl, -⟩ := turn
    rw [g.2.1] at hreply
    contradiction
  | discard agentName head t =>
    obtain ⟨rfl, rfl, -⟩ := turn
    obtain ⟨-, hstale⟩ := g
    rw [h.eventIsLive hmem hreply] at hstale
    contradiction
  | _ => exact turn.elim

theorem Act.named {act : Act} (h : Sound cfg s) (g : act.guard cfg s) (named : Named s)
    (spares : act.sparesOwned s) : Named (act.apply cfg s) := by
  intro j r' i hr' hs hlive' hi
  have hs' := Act.sound g h
  obtain ⟨hmem', hid'⟩ := State.getJob_mem hr'
  rcases (Act.effects h.coherent g).jobs r' hmem' with ⟨r₀, hr₀, same⟩ | ⟨m, hnew⟩
  · obtain ⟨r, hr⟩ := State.exists_getJob hr₀
    rw [← same.jobId, hid'] at hr
    have sameR : SameJob r' r := SameJob.trans same (h.coherent.same hr₀ (by
      rw [← same.jobId, hid']) hr)
    have hlive := ((Act.extends h.coherent g).grows hs'.coherent).live hr hr' hlive'
    have howns := named j r i hr (scheduled_congr sameR ▸ hs) hlive (sameR.providerOptions ▸ hi)
    rw [sameR.agentName]
    exact howns.keep h g named spares hr hlive hr' hlive'
  · obtain ⟨agentName, head, record, t, rfl⟩ := Act.newJob_scheduled g hnew hs
    obtain ⟨rfl, -⟩ := Prod.mk.inj (Option.some.inj hnew)
    obtain rfl := Option.some.inj hi
    rw [← hid']
    exact Owns.deliver g

end CodexBridge.Dispatch
