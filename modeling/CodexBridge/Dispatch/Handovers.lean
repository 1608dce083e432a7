import CodexBridge.Dispatch.EdgeRuns
import CodexBridge.Dispatch.EventTurns

/-! The two ways the result of a callback child can reach its parent: a continuation job,
or a reply event in the parent's mailbox. Completions choose the first and record
the reply silently; a cancellation queues the reply without a look at the edge,
and the next repair then submits the continuation as well. -/

namespace CodexBridge.Dispatch

open AppendLog
open Mailbox (InboundEventRecord InboundEventType InboundEventStatus)

variable {cfg : Config} {s s' : State} {a : AgentName}

/-! ### Where events come from -/

/-- Every row of a mailbox after an act is a row of an event that was there, or of the
event the act brings. -/
theorem Act.event_source {act : Act} (h : Sound cfg s) (g : act.guard cfg s)
    {e : InboundEventRecord} (he : e ∈ ((act.apply cfg s).mailboxes a).events) :
    (∃ e₀ ∈ (s.mailboxes a).events, SameEvent e e₀) ∨
      ∃ n, act.newEvent cfg s = some (a, n) ∧ SameEvent e n.record := by
  have hagree := ((Act.sound g h).inboxes.ok a).agree
  obtain ⟨e', he'⟩ := Mailbox.exists_getLatest he
  have same : SameEvent e e' :=
    hagree e he e' (Mailbox.getLatest_mem he') (Mailbox.getLatest_id he').symm
  rcases (Act.fate h g a e.inboundEventId).source e' he' with ⟨e₀, he₀⟩ | ⟨n, hn, rfl⟩
  · have hmem := Mailbox.getLatest_mem he₀
    have hsub := Mailbox.Run.events_subset (Act.mailbox_run g h.coherent h.inboxes a)
    exact .inl ⟨e₀, hmem, hagree e he e₀ (hsub hmem) (Mailbox.getLatest_id he₀).symm⟩
  · exact .inr ⟨n, hn, same⟩

/-- A reply that an act adds has a new identifier. -/
theorem Act.newReply_id {act : Act} {reply : ReplyRecord} (h : act.newReply s = some reply) :
    reply.replyId = s.nextId := by
  cases act <;> simp only [newReply, reduceCtorEq, Option.some.injEq] at h <;> rw [← h] <;> rfl

/-! ### Child replies in mailboxes -/

/-- The event carries a reply to the message, and not a notice. -/
def Carries (s : State) (m : MessageId) (e : InboundEventRecord) : Prop :=
  ∃ reply ∈ s.replies, reply.messageId = m ∧ reply.notice = false ∧
    replyIdFromPayload e.payloadRef = some reply.replyId

/-- A child's reply is queued only once its edge has failed. -/
def QueuedAfterFailure (s : State) : Prop :=
  ∀ a, ∀ e ∈ (s.mailboxes a).events, ∀ edge ∈ s.edges, Carries s edge.childMessageId e →
    ∃ current, s.getEdge edge.edgeId = some current ∧
      (current.state = .failed ∨ current.state = .timedOut)

/-- An act that does not queue a reply of an open edge's child. -/
theorem Act.queuedAfterFailure {act : Act} (h : Sound cfg s) (g : act.guard cfg s)
    (hqueued : QueuedAfterFailure s)
    (hreply : ∀ job attempt status recipient t, act = .reply job attempt status recipient t →
      recipient = none ∨ ∀ edge ∈ s.edges, edge.childMessageId = attempt.messageId →
        ∃ current, s.getEdge edge.edgeId = some current ∧
          (current.state = .failed ∨ current.state = .timedOut)) :
    QueuedAfterFailure (act.apply cfg s) := by
  intro a e he edge hedge hcarries
  obtain ⟨reply, hmem, hmsg, hnotice, hpay⟩ := hcarries
  -- it is enough to find the failed edge before the act
  have key : ∀ edge₀ ∈ s.edges, SameEdge edge edge₀ →
      (∃ current, s.getEdge edge₀.edgeId = some current ∧
        (current.state = .failed ∨ current.state = .timedOut)) →
      ∃ current, (act.apply cfg s).getEdge edge.edgeId = some current ∧
        (current.state = .failed ∨ current.state = .timedOut) := by
    rintro edge₀ - same ⟨current, hcurrent, hstate⟩
    obtain ⟨current', hcurrent', -, hmove⟩ := Act.getEdge_move h g hcurrent
    rw [same.edgeId]
    refine ⟨current', hcurrent', ?_⟩
    rcases hmove with rfl | hmove
    · exact hstate
    · rcases hstate with hstate | hstate
      · exact absurd hstate hmove.2.1
      · exact absurd hstate hmove.2.2.1
  have hreplies := (Act.effects h.coherent g).replies
  -- an edge that is just being registered has an unanswered child
  have hold : reply ∈ s.replies → ∃ edge₀ ∈ s.edges, SameEdge edge edge₀ := by
    intro hr
    rw [(Act.effects h.coherent g).edges, List.mem_append] at hedge
    rcases hedge with hedge | hedge
    · exact ⟨edge, hedge, SameEdge.refl edge⟩
    · cases act <;> simp only [newEdge, Option.toList_none, Option.toList_some, List.not_mem_nil,
        List.mem_singleton] at hedge
      case continuation edge' job t =>
        subst hedge
        exact ⟨edge', (State.getEdge_mem g.2.found).1,
          ⟨rfl, rfl, rfl, rfl, rfl, rfl, rfl, rfl, rfl, rfl⟩⟩
      case register edge' =>
        subst hedge
        exact absurd hmsg (g.unreplied reply hr)
      case update edge' =>
        subst hedge
        obtain ⟨current, upd⟩ := g
        exact ⟨current, (State.getEdge_mem upd.found).1, upd.same⟩
  rw [hreplies, List.mem_append] at hmem
  rcases Act.event_source h g he with ⟨e₀, he₀, same⟩ | ⟨n, hn, same⟩
  · rw [same.reply] at hpay
    rcases hmem with hmem | hmem
    · obtain ⟨edge₀, hedge₀, sameE⟩ := hold hmem
      refine key edge₀ hedge₀ sameE (hqueued a e₀ he₀ edge₀ hedge₀ ?_)
      exact ⟨reply, hmem, hmsg.trans sameE.childMessageId, hnotice, hpay⟩
    · -- an event that is there does not carry a new reply
      have hid := Act.newReply_id (Option.mem_toList.mp hmem)
      rw [hid] at hpay
      exact absurd hpay (h.coherent.inbox_reply_lt (h.inboxes.ok a) he₀)
  · cases act <;> simp only [newEvent, reduceCtorEq, Option.some.injEq, Prod.mk.injEq] at hn
    case accept origin job m i t =>
      obtain ⟨-, rfl⟩ := hn
      rw [same.reply] at hpay
      contradiction
    case continuation edge' job t =>
      obtain ⟨-, rfl⟩ := hn
      rw [same.reply] at hpay
      contradiction
    case reply job attempt status recipient t =>
      obtain ⟨b, hb, hn⟩ := Option.map_eq_some_iff.mp hn
      obtain ⟨-, rfl⟩ := Prod.mk.inj hn
      rw [same.reply] at hpay
      have hid : s.nextId = reply.replyId := Option.some.inj hpay
      have hrow : reply = s.replyRow job attempt status false t := by
        rcases hmem with hmem | hmem
        · exact absurd hid.symm (h.coherent.replies.issued reply hmem).ne
        · exact (Option.some.inj (Option.mem_toList.mp hmem)).symm
      have hedge' : edge ∈ s.edges := by
        rw [(Act.effects h.coherent g).edges] at hedge
        exact (List.append_nil s.edges) ▸ hedge
      refine key edge hedge' (SameEdge.refl edge) ?_
      rcases hreply job attempt status recipient t rfl with rfl | hfailed
      · simp at hb
      · exact hfailed edge hedge' (by rw [← hmsg, hrow]; rfl)
    case notice edge' job attempt t =>
      obtain ⟨b, hb, hn⟩ := Option.map_eq_some_iff.mp hn
      obtain ⟨-, rfl⟩ := Prod.mk.inj hn
      rw [same.reply] at hpay
      have hid : s.nextId = reply.replyId := Option.some.inj hpay
      rcases hmem with hmem | hmem
      · exact absurd hid.symm (h.coherent.replies.issued reply hmem).ne
      · rw [← Option.some.inj (Option.mem_toList.mp hmem)] at hnotice
        contradiction

/-! ### Runs -/

/-- The child of an edge is cancelled with a reply only after the edge has failed. -/
def cancelsFailedChildren (_ : World) (s : State) : Op → Prop
  | .cancel j true => ∀ job, s.getJob j = some job → job.status.terminal = false →
    ∀ edge, s.callbackChildEdge job = some edge → edge.state = .failed ∨ edge.state = .timedOut
  | _ => True

instance (w : World) (s : State) (op : Op) : Decidable (cancelsFailedChildren w s op) :=
  match op with
  | .cancel j true => decidable_of_iff
      ((s.getJob j).all (fun job => job.status.terminal || (s.callbackChildEdge job).all fun edge =>
        decide (edge.state = .failed ∨ edge.state = .timedOut)) = true) (by
      simp only [cancelsFailedChildren, Option.all_eq_true, Bool.or_eq_true, decide_eq_true_eq,
        ← Bool.not_eq_true, or_iff_not_imp_left (b := ∀ _, _)])
  | .cancel _ false | .submit _ | .resubmit _ | .retry _ | .tick | .sweepCallbacks
  | .repairCallbacks | .prepareReplies | .startJobs | .complete _ _ | .ack _ _ | .recover _ _ _
  | .inspect _ | .disableAutoReplyDelivery | .shutdown => isTrue trivial

/-- The replies to a job's message belong to the edge found through the job. -/
theorem cancelsFailedChildren.failed {w : World} {j : JobId} {s₀ : State} (h : Sound cfg s₀)
    (hallowed : cancelsFailedChildren w s₀ (.cancel j true)) (hlive : s₀.live j)
    {x : AttemptRecord} (hx : ∃ y ∈ s₀.attempts, y.jobId = j ∧ y.messageId = x.messageId)
    {edge : CallbackEdgeRecord} (hedge : edge ∈ s₀.edges)
    (hchild : edge.childMessageId = x.messageId) :
    ∃ current, s₀.getEdge edge.edgeId = some current ∧
      (current.state = .failed ∨ current.state = .timedOut) := by
  obtain ⟨job, hjob, live⟩ := hlive
  have hid := (State.getJob_mem hjob).2
  obtain ⟨x₀, hx₀⟩ := h.coherent.exists_attemptForJob hjob
  obtain ⟨hmem₀, hj₀⟩ := State.attemptForJob_mem hx₀
  obtain ⟨y, hy, hyj, hym⟩ := hx
  have hmsg : x₀.messageId = x.messageId := by
    rw [← hym]
    exact (h.coherent.attempts.key x₀ hmem₀ y hy (.inr (hj₀.trans hyj.symm))).messageId
  have hown : s₀.attemptForJob job.jobId = some x₀ := hid.symm ▸ hx₀
  obtain ⟨hsome, hnone⟩ := h.coherent.callbackChildEdge hown
  rcases hc : s₀.callbackChildEdge job with _ | current
  · exact absurd (hchild.trans hmsg.symm) (hnone hc edge hedge)
  · obtain ⟨hget, hmid⟩ := hsome current hc
    have same : Act.SameEdge edge current :=
      h.coherent.edges.key edge hedge current (State.getEdge_mem hget).1
        (.inr (.inr (.inl (hchild.trans (hmsg.symm.trans hmid.symm)))))
    exact ⟨current, same.edgeId.symm ▸ hget, hallowed job hjob live current hc⟩

theorem Reachable.queuedAfterFailure (h : Reachable cfg cancelsFailedChildren s) :
    QueuedAfterFailure s := by
  refine h.invariant (I := QueuedAfterFailure) ?_ ?_
  · intro auto a e he
    simp [State.initial, Mailbox.empty] at he
  · intro w op s₀ s act run hadm hallowed _ p hs hI hp g
    refine Act.queuedAfterFailure hs g hI ?_
    rintro job attempt status recipient t rfl
    have hsettles : ∀ j, (Act.reply job attempt status recipient t).settles j s →
        recipient = none ∨ ∀ edge ∈ s.edges, edge.childMessageId = attempt.messageId →
          ∃ current, s.getEdge edge.edgeId = some current ∧
            (current.state = .failed ∨ current.state = .timedOut) := by
      rintro j ⟨-, hnone | hno⟩
      · exact .inl hnone
      · exact .inr fun edge hedge hchild => absurd hchild (hno edge hedge)
    cases op <;> try exact hp.elim
    case complete j decision => exact hsettles j hp.2
    case cancel j recordReply =>
      rcases hp with hp | hp | ⟨job', attempt', status', recipient', t', heq, hj, rfl,
        hlive, hedges⟩
      · exact hp.elim
      · exact hp.elim
      · cases heq
        refine .inr fun edge hedge hchild => ?_
        have hget : s.getEdge = s₀.getEdge := by
          funext i
          rw [State.getEdge, State.getEdge, hedges]
        rw [hget]
        refine cancelsFailedChildren.failed run.sound hallowed hlive (x := attempt) ?_
          (hedges ▸ hedge) hchild
        -- the attempt of the job was there when the cancellation began
        obtain ⟨r, hr, -⟩ := hlive
        obtain ⟨x₀, hx₀⟩ := run.sound.coherent.exists_attemptForJob hr
        obtain ⟨hmem₀, hj₀⟩ := State.attemptForJob_mem hx₀
        obtain ⟨hmem, hja⟩ := State.attemptForJob_mem g.1
        exact ⟨x₀, hmem₀, hj₀, (hs.coherent.attempts.key x₀ ((p.grows run.sound).attempts hmem₀)
          attempt hmem (.inr (by rw [hj₀, hja, hj]))).messageId⟩
    case ack a i => rcases hp with hp | hp <;> exact hp.elim
    case recover j d hint => rcases hp with hp | hp | hp <;> exact hp.elim
    case shutdown =>
      obtain ⟨j, -, hp | hp⟩ := hp
      · exact hsettles j hp
      · exact hp.elim

/-- The result of an edge's child is handed to the parent at most once: by one
continuation, or by one event for each reply, and not by both. -/
structure HandedOnce (s : State) (edge : CallbackEdgeRecord) : Prop where
  continued_once : ∀ r r', Continues s edge.edgeId r → Continues s edge.edgeId r' →
    r.jobId = r'.jobId
  queued_once : ∀ e ∈ (s.mailboxes edge.parentAgent).events,
    ∀ e' ∈ (s.mailboxes edge.parentAgent).events, Carries s edge.childMessageId e →
      replyIdFromPayload e'.payloadRef = replyIdFromPayload e.payloadRef →
      e.inboundEventId = e'.inboundEventId
  one_channel : ∀ r, Continues s edge.edgeId r →
    ∀ e ∈ (s.mailboxes edge.parentAgent).events, ¬Carries s edge.childMessageId e

theorem child_result_handed_once (run : Reachable cfg cancelsFailedChildren s) :
    ∀ edge ∈ s.edges, HandedOnce s edge := by
  intro edge hedge
  refine ⟨run.continuationsOk.unique edge.edgeId, ?_, ?_⟩
  · rintro e he e' he' ⟨reply, -, -, -, hpay⟩ hsame
    exact (run.sound.inboxes.ok _).reply_unique e he e' he' reply.replyId hpay (hsame.trans hpay)
  · intro r hr e he hcarries
    obtain ⟨current, hcurrent, hsubmitted⟩ := run.continuationsOk.submitted _ _ hr
    obtain ⟨current', hcurrent', hfailed⟩ := run.queuedAfterFailure _ e he edge hedge hcarries
    obtain rfl := Option.some.inj (hcurrent.symm.trans hcurrent')
    rcases hsubmitted with h | h <;> rw [h] at hfailed <;> rcases hfailed with h' | h' <;>
      contradiction

/-- The callback expires before its child is cancelled. -/
def Sample.expiredChildCancelled : List (Timestamp × Op) :=
  Sample.callbackAsk ++ [(Sample.late, .sweepCallbacks), (Mailbox.sampleTime, .cancel 6 true),
    (Mailbox.sampleTime, .tick)]

theorem child_result_handed_once_expired :
    (Sample.after Sample.expiredChildCancelled).edges.map CallbackEdgeRecord.state =
      [.pending, .timedOut] ∧
    ∀ edge ∈ (Sample.after Sample.expiredChildCancelled).edges,
      HandedOnce (Sample.after Sample.expiredChildCancelled) edge :=
  ⟨by decide +kernel, child_result_handed_once (Sample.reachable_after (by decide +kernel))⟩

/-- The child of an open callback is cancelled, and the callback is repaired. -/
def Sample.childCancelled : List (Timestamp × Op) :=
  Sample.callbackAsk ++ [(Mailbox.sampleTime, .cancel 6 true), (Mailbox.sampleTime, .tick)]

/-- The result is in the mailbox of the parent, and a continuation carries it too. -/
theorem child_result_handed_twice :
    Reachable Sample.config (fun _ _ _ => True) (Sample.after Sample.childCancelled) ∧
      ∃ edge ∈ (Sample.after Sample.childCancelled).edges,
        ¬HandedOnce (Sample.after Sample.childCancelled) edge := by
  refine ⟨Sample.reachable_after (by decide +kernel), ?_⟩
  have hcontinued : ∃ r ∈ (Sample.after Sample.childCancelled).jobs,
      r.request.routeOptions.callbackEdgeId = some 10 ∧
      r.providerOptions.retrySourceJobId = none ∧
      ∃ x ∈ (Sample.after Sample.childCancelled).attempts, x.jobId = r.jobId ∧
        ∃ edge ∈ (Sample.after Sample.childCancelled).edges, edge.edgeId = 10 ∧
          edge.parentMessageId = x.messageId := by decide +kernel
  have hqueued : ∃ edge ∈ (Sample.after Sample.childCancelled).edges, edge.edgeId = 10 ∧
      ∃ e ∈ ((Sample.after Sample.childCancelled).mailboxes edge.parentAgent).events,
        ∃ reply ∈ (Sample.after Sample.childCancelled).replies,
          reply.messageId = edge.childMessageId ∧ reply.notice = false ∧
          replyIdFromPayload e.payloadRef = some reply.replyId := by decide +kernel
  obtain ⟨r, hr, hcarries, horiginal, hparent⟩ := hcontinued
  obtain ⟨edge, hedge, hid, e, he, hreply⟩ := hqueued
  refine ⟨edge, hedge, fun handed => handed.one_channel r ?_ e he hreply⟩
  rw [hid]
  exact ⟨hr, hcarries, horiginal, hparent⟩

end CodexBridge.Dispatch
