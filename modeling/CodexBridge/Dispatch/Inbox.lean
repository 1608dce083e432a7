import CodexBridge.Dispatch.Coherence
import CodexBridge.Mailbox.Delivery

/-! What the events of a mailbox say about the logs. A request event announces one
job of the mailbox's agent; a reply event answers a job the agent has asked for.
Rows enter a mailbox in two ways only: a newer event arrives, or a pending event
gets a later row. -/

namespace CodexBridge.Dispatch

open AppendLog
open Mailbox (InboundEventRecord InboundEventType InboundEventStatus NewEvent SingleDelivery)

variable {cfg : Config} {s s' : State} {a : AgentName} {mb mb' : Mailbox}

/-- A delivery job the preparation has scheduled, as opposed to the retry of one. -/
def scheduled (r : JobRecord) : Bool :=
  r.providerOptions.replyDelivery && r.providerOptions.retrySourceJobId.isNone

/-- `r` was scheduled to deliver the reply of an event in the mailbox of `a`. -/
structure Delivers (r : JobRecord) (a : AgentName) (id : InboundEventId) (replyId : ReplyId) :
    Prop where
  scheduled : scheduled r = true
  agentName : r.agentName = a
  inbound : r.providerOptions.replyDeliveryInboundEventId = some id
  reply : r.providerOptions.replyDeliveryReplyId = some replyId

/-- What all rows of one event have in common. -/
structure SameEvent (e e' : InboundEventRecord) : Prop where
  inboundEventId : e.inboundEventId = e'.inboundEventId
  eventType : e.eventType = e'.eventType
  messageId : e.messageId = e'.messageId
  attemptId : e.attemptId = e'.attemptId
  reply : replyIdFromPayload e.payloadRef = replyIdFromPayload e'.payloadRef

theorem SameEvent.symm {e e' : InboundEventRecord} (h : SameEvent e e') : SameEvent e' e :=
  ⟨h.inboundEventId.symm, h.eventType.symm, h.messageId.symm, h.attemptId.symm, h.reply.symm⟩

theorem SameEvent.trans {e e' e'' : InboundEventRecord} (h : SameEvent e e')
    (h' : SameEvent e' e'') : SameEvent e e'' :=
  ⟨h.inboundEventId.trans h'.inboundEventId, h.eventType.trans h'.eventType,
    h.messageId.trans h'.messageId, h.attemptId.trans h'.attemptId, h.reply.trans h'.reply⟩

/-- A request event names a job of the mailbox's agent and its attempt. -/
def Announces (s : State) (a : AgentName) (e : InboundEventRecord) : Prop :=
  e.eventType = .taskRequest ∧ ∃ x ∈ s.attempts, x.agentName = a ∧
    e.attemptId = some x.attemptId ∧ e.messageId = x.messageId ∧
    e.payloadRef = some (.job x.jobId) ∧ ∃ r ∈ s.jobs, r.jobId = x.jobId ∧ scheduled r = false

/-- A reply event carries a reply to a job that the mailbox's agent asked for and
that has been started, and may name the job scheduled to deliver it. -/
def Answers (s : State) (a : AgentName) (e : InboundEventRecord) : Prop :=
  e.eventType = .taskReply ∧
    ∃ reply ∈ s.replies, ∃ d, e.payloadRef = some (.reply reply.replyId d) ∧
    e.attemptId = some reply.attemptId ∧ e.messageId = reply.messageId ∧
    (∀ j, d = some j → ∃ r ∈ s.jobs, r.jobId = j ∧ Delivers r a e.inboundEventId reply.replyId) ∧
    ∃ x ∈ s.attempts, x.attemptId = reply.attemptId ∧ ∃ r ∈ s.jobs, r.jobId = x.jobId ∧
      r.request.fromActor = .agent a ∧ r.status.pending = false

structure InboxOk (s : State) (a : AgentName) (mb : Mailbox) : Prop where
  issued : ∀ e ∈ mb.events, e.inboundEventId < s.nextId
  sorted : (mb.latestEvents.map InboundEventRecord.inboundEventId).Pairwise (· < ·)
  agree : ∀ e ∈ mb.events, ∀ e' ∈ mb.events, e.inboundEventId = e'.inboundEventId → SameEvent e e'
  shape : ∀ e ∈ mb.events, Announces s a e ∨ Answers s a e
  request_unique : ∀ e ∈ mb.events, ∀ e' ∈ mb.events, e.eventType = .taskRequest →
    e'.eventType = .taskRequest → e.attemptId = e'.attemptId →
      e.inboundEventId = e'.inboundEventId
  reply_unique : ∀ e ∈ mb.events, ∀ e' ∈ mb.events, ∀ r, replyIdFromPayload e.payloadRef = some r →
    replyIdFromPayload e'.payloadRef = some r → e.inboundEventId = e'.inboundEventId
  live : ∀ e ∈ mb.latestEvents, ∀ j, e.payloadRef = some (.job j) → ∀ r, s.getJob j = some r →
    r.status.terminal = false → e.status.terminal = false
  own : ∀ e ∈ mb.events, ∀ e' ∈ mb.events, e.eventType = .taskRequest →
    e'.eventType = .taskReply → e.attemptId = e'.attemptId → e.inboundEventId < e'.inboundEventId
  last : ∀ x ∈ s.attempts, ∀ r, s.getJob x.jobId = some r → r.status.terminal = false →
    ∀ e ∈ mb.events, e.eventType = .taskReply → e.attemptId = some x.attemptId →
      ∀ e', mb.getLatestForAttempt x.attemptId = some e' → e'.eventType = .taskReply

theorem InboxOk.empty (s : State) (a name : AgentName) : InboxOk s a (Mailbox.empty name) := by
  constructor <;> simp [Mailbox.empty, Mailbox.latestEvents]

/-! ### Growing logs -/

/-- The logs of `s'` continue those of `s`, and no ended job has come back. -/
structure Grows (s s' : State) : Prop where
  jobs : s.jobs ⊆ s'.jobs
  attempts : s.attempts ⊆ s'.attempts
  replies : s.replies ⊆ s'.replies
  nextId : s.nextId ≤ s'.nextId
  ended : ∀ j r, s.getJob j = some r → r.status.terminal = true →
    ∃ r', s'.getJob j = some r' ∧ r'.status.terminal = true

theorem Announces.grow (g : Grows s s') {e : InboundEventRecord} (h : Announces s a e) :
    Announces s' a e := by
  obtain ⟨ht, x, hx, hxa, hid, hm, hp, r, hr, hrest⟩ := h
  exact ⟨ht, x, g.attempts hx, hxa, hid, hm, hp, r, g.jobs hr, hrest⟩

theorem Answers.grow (g : Grows s s') {e : InboundEventRecord} (h : Answers s a e) :
    Answers s' a e := by
  obtain ⟨ht, reply, hreply, d, hp, hid, hm, hd, x, hx, hxid, r, hr, hrest⟩ := h
  refine ⟨ht, reply, g.replies hreply, d, hp, hid, hm, ?_, x, g.attempts hx, hxid, r, g.jobs hr,
    hrest⟩
  intro j hj
  obtain ⟨r, hr, hrest⟩ := hd j hj
  exact ⟨r, g.jobs hr, hrest⟩

/-- A job that is live later was live before, if it was there. -/
theorem Grows.live (g : Grows s s') {j : JobId} {r r' : JobRecord} (h : s.getJob j = some r)
    (h' : s'.getJob j = some r') (hlive : r'.status.terminal = false) :
    r.status.terminal = false := by
  by_contra ht
  obtain ⟨r'', hr'', ht''⟩ := g.ended j r h (by simpa using ht)
  obtain rfl := Option.some.inj (h'.symm.trans hr'')
  rw [hlive] at ht''
  contradiction

theorem InboxOk.grow (g : Grows s s') (hc' : Coherent cfg s') (h : InboxOk s a mb) :
    InboxOk s' a mb := by
  refine ⟨?_, h.sorted, h.agree, ?_, h.request_unique, h.reply_unique, ?_, h.own, ?_⟩
  · intro e he
    exact (h.issued e he).trans_le g.nextId
  · intro e he
    rcases h.shape e he with ha | ha
    · exact .inl (ha.grow g)
    · exact .inr (ha.grow g)
  · intro e he j hp r' hr' hlive
    rcases h.shape e (mem_of_mem_latest he) with ⟨-, x, hx, -, -, -, hpx, r, hr, hrid, -⟩ |
      ⟨-, reply, -, d, hpx, -⟩
    · rw [hpx] at hp
      obtain rfl : x.jobId = j := by simpa using hp
      obtain ⟨c, hfound⟩ := State.exists_getJob hr
      rw [hrid] at hfound
      exact h.live e he _ hpx c hfound (g.live hfound hr' hlive)
    · simp [hpx] at hp
  · intro x hx r' hr' hlive e he hreply hattempt e' he'
    -- the attempt was there before, since a row of the mailbox carries it
    obtain ⟨-, reply, hrep, d, -, hid, -, -, y, hy, hyid, r, hr, hrid, -⟩ :=
      (h.shape e he).resolve_left fun ha => by simp [ha.1] at hreply
    have hsame : SameAttempt x y := by
      refine hc'.attempts.key x hx y (g.attempts hy) (.inl ?_)
      rw [hyid]
      exact Option.some.inj (hattempt.symm.trans hid)
    obtain ⟨c, hfound⟩ := State.exists_getJob hr
    rw [hrid] at hfound
    have hl := g.live hfound (hsame.jobId ▸ hr') hlive
    refine h.last y hy c hfound hl e he hreply (hsame.attemptId ▸ hattempt) e' ?_
    exact hsame.attemptId ▸ he'

/-! ### Rows -/

/-- The rows one write may add to a mailbox, with the logs at `s`. -/
inductive Rows (s : State) (a : AgentName) (mb : Mailbox) : List InboundEventRecord → Prop
  | none : Rows s a mb []
  | fresh (e : InboundEventRecord) (newer : ∀ r ∈ mb.events, r.inboundEventId < e.inboundEventId)
      (issued : e.inboundEventId < s.nextId) (shape : Announces s a e ∨ Answers s a e)
      (pending : e.status.terminal = false)
      (request : e.eventType = .taskRequest → ∀ r ∈ mb.events, r.attemptId ≠ e.attemptId)
      (reply : ∀ i, replyIdFromPayload e.payloadRef = some i →
        ∀ r ∈ mb.events, replyIdFromPayload r.payloadRef ≠ some i) : Rows s a mb [e]
  | later (e current : InboundEventRecord) (found : current ∈ mb.latestEvents)
      (same : SameEvent e current) (shape : Announces s a e ∨ Answers s a e)
      (ended : e.status.terminal = true → ∀ j, e.payloadRef = some (.job j) →
        ∀ r, s.getJob j = some r → r.status.terminal = true)
      (unanswered : e.eventType = .taskRequest → e.status.terminal = false →
        ∀ r ∈ mb.events, r.attemptId = e.attemptId → r.eventType = .taskRequest) :
      Rows s a mb [e]

theorem InboxOk.fresh (h : InboxOk s a mb) {e : InboundEventRecord}
    (hev : mb'.events = mb.events ++ [e])
    (newer : ∀ r ∈ mb.events, r.inboundEventId < e.inboundEventId)
    (issued : e.inboundEventId < s.nextId) (shape : Announces s a e ∨ Answers s a e)
    (pending : e.status.terminal = false)
    (request : e.eventType = .taskRequest → ∀ r ∈ mb.events, r.attemptId ≠ e.attemptId)
    (reply : ∀ i, replyIdFromPayload e.payloadRef = some i →
      ∀ r ∈ mb.events, replyIdFromPayload r.payloadRef ≠ some i) : InboxOk s a mb' := by
  have hmem : ∀ x, x ∈ mb'.events ↔ x ∈ mb.events ∨ x = e := by
    intro x
    rw [hev, List.mem_append, List.mem_singleton]
  have hlatest : mb'.latestEvents = mb.latestEvents ++ [e] := by
    rw [Mailbox.latestEvents, hev, latest_append]
    apply upsert_of_notMem
    intro hk
    obtain ⟨x, hx, hid⟩ := List.mem_map.mp hk
    exact absurd hid (newer x (mem_of_mem_latest hx)).ne
  refine ⟨?_, ?_, ?_, ?_, ?_, ?_, ?_, ?_, ?_⟩
  · intro x hx
    rcases (hmem x).mp hx with hx | rfl
    · exact h.issued x hx
    · exact issued
  · rw [hlatest, List.map_append, List.pairwise_append]
    refine ⟨h.sorted, by simp, ?_⟩
    intro i hi i' hi'
    obtain ⟨x, hx, rfl⟩ := List.mem_map.mp hi
    rw [List.map_cons, List.map_nil, List.mem_singleton] at hi'
    exact hi' ▸ newer x (mem_of_mem_latest hx)
  · intro x hx y hy hid
    rcases (hmem x).mp hx with hx | rfl
    · rcases (hmem y).mp hy with hy | rfl
      · exact h.agree x hx y hy hid
      · exact absurd hid (newer x hx).ne
    · rcases (hmem y).mp hy with hy | rfl
      · exact absurd hid.symm (newer y hy).ne
      · exact ⟨rfl, rfl, rfl, rfl, rfl⟩
  · intro x hx
    rcases (hmem x).mp hx with hx | rfl
    · exact h.shape x hx
    · exact shape
  · intro x hx y hy htx hty hid
    rcases (hmem x).mp hx with hx | rfl
    · rcases (hmem y).mp hy with hy | rfl
      · exact h.request_unique x hx y hy htx hty hid
      · exact absurd hid (request hty x hx)
    · rcases (hmem y).mp hy with hy | rfl
      · exact absurd hid.symm (request htx y hy)
      · rfl
  · intro x hx y hy i hix hiy
    rcases (hmem x).mp hx with hx | rfl
    · rcases (hmem y).mp hy with hy | rfl
      · exact h.reply_unique x hx y hy i hix hiy
      · exact absurd hix (reply i hiy x hx)
    · rcases (hmem y).mp hy with hy | rfl
      · exact absurd hiy (reply i hix y hy)
      · rfl
  · intro x hx j hp r hr hlive
    rw [hlatest, List.mem_append, List.mem_singleton] at hx
    rcases hx with hx | rfl
    · exact h.live x hx j hp r hr hlive
    · exact pending
  · intro x hx y hy htx hty hid
    rcases (hmem y).mp hy with hy | rfl
    · rcases (hmem x).mp hx with hx | rfl
      · exact h.own x hx y hy htx hty hid
      · exact absurd hid.symm (request htx y hy)
    · rcases (hmem x).mp hx with hx | rfl
      · exact newer x hx
      · rw [htx] at hty
        contradiction
  · intro x hx r hr hlive y hy hty hid e' he'
    unfold Mailbox.getLatestForAttempt at he'
    rw [hev, findLast_append] at he'
    split_ifs at he' with hlast
    · obtain rfl := Option.some.inj he'
      rcases (hmem y).mp hy with hy | rfl
      · rcases shape with ha | ha
        · refine absurd ?_ (request ha.1 y hy)
          rw [hid, (of_decide_eq_true hlast)]
        · exact ha.1
      · exact hty
    · rcases (hmem y).mp hy with hy | rfl
      · exact h.last x hx r hr hlive y hy hty hid e' he'
      · exact absurd (decide_eq_true hid) hlast

theorem InboxOk.later (hc : Coherent cfg s) (h : InboxOk s a mb) {e current : InboundEventRecord}
    (hev : mb'.events = mb.events ++ [e]) (found : current ∈ mb.latestEvents)
    (same : SameEvent e current) (shape : Announces s a e ∨ Answers s a e)
    (ended : e.status.terminal = true → ∀ j, e.payloadRef = some (.job j) →
      ∀ r, s.getJob j = some r → r.status.terminal = true)
    (unanswered : e.eventType = .taskRequest → e.status.terminal = false →
      ∀ r ∈ mb.events, r.attemptId = e.attemptId → r.eventType = .taskRequest) :
    InboxOk s a mb' := by
  have hcur : current ∈ mb.events := mem_of_mem_latest found
  -- every row of the new log looks like a row of the old one
  have hold : ∀ x ∈ mb'.events, ∃ y ∈ mb.events, SameEvent x y := by
    intro x hx
    rw [hev, List.mem_append, List.mem_singleton] at hx
    rcases hx with hx | rfl
    · exact ⟨x, hx, rfl, rfl, rfl, rfl, rfl⟩
    · exact ⟨current, hcur, same⟩
  have hlatest : mb'.latestEvents = upsert InboundEventRecord.inboundEventId e mb.latestEvents := by
    rw [Mailbox.latestEvents, hev, latest_append, Mailbox.latestEvents]
  refine ⟨?_, ?_, ?_, ?_, ?_, ?_, ?_, ?_, ?_⟩
  · intro x hx
    obtain ⟨y, hy, hs⟩ := hold x hx
    exact hs.inboundEventId ▸ h.issued y hy
  · rw [hlatest, map_key_upsert_of_mem]
    · exact h.sorted
    · exact same.inboundEventId ▸ List.mem_map_of_mem found
  · intro x hx y hy hid
    obtain ⟨x', hx', hsx⟩ := hold x hx
    obtain ⟨y', hy', hsy⟩ := hold y hy
    rw [hsx.inboundEventId, hsy.inboundEventId] at hid
    exact (hsx.trans (h.agree x' hx' y' hy' hid)).trans hsy.symm
  · intro x hx
    rw [hev, List.mem_append, List.mem_singleton] at hx
    rcases hx with hx | rfl
    · exact h.shape x hx
    · exact shape
  · intro x hx y hy htx hty hid
    obtain ⟨x', hx', hsx⟩ := hold x hx
    obtain ⟨y', hy', hsy⟩ := hold y hy
    rw [hsx.inboundEventId, hsy.inboundEventId]
    rw [hsx.eventType] at htx
    rw [hsy.eventType] at hty
    rw [hsx.attemptId, hsy.attemptId] at hid
    exact h.request_unique x' hx' y' hy' htx hty hid
  · intro x hx y hy i hix hiy
    obtain ⟨x', hx', hsx⟩ := hold x hx
    obtain ⟨y', hy', hsy⟩ := hold y hy
    rw [hsx.inboundEventId, hsy.inboundEventId]
    rw [hsx.reply] at hix
    rw [hsy.reply] at hiy
    exact h.reply_unique x' hx' y' hy' i hix hiy
  · intro x hx j hp r hr hlive
    rw [hlatest, mem_upsert mb.nodup_latestEvents] at hx
    rcases hx with rfl | ⟨hx, -⟩
    · by_contra ht
      have := ended (by simpa using ht) j hp r hr
      rw [hlive] at this
      contradiction
    · exact h.live x hx j hp r hr hlive
  · intro x hx y hy htx hty hid
    obtain ⟨x', hx', hsx⟩ := hold x hx
    obtain ⟨y', hy', hsy⟩ := hold y hy
    rw [hsx.inboundEventId, hsy.inboundEventId]
    rw [hsx.eventType] at htx
    rw [hsy.eventType] at hty
    rw [hsx.attemptId, hsy.attemptId] at hid
    exact h.own x' hx' y' hy' htx hty hid
  · intro x hx r hr hlive y hy hty hid e' he'
    obtain ⟨y', hy', hsy⟩ := hold y hy
    rw [hsy.eventType] at hty
    rw [hsy.attemptId] at hid
    unfold Mailbox.getLatestForAttempt at he'
    rw [hev, findLast_append] at he'
    split_ifs at he' with hlast
    · obtain rfl := Option.some.inj he'
      have hlast := of_decide_eq_true hlast
      rcases shape with ha | ha
      · -- a request row of a live attempt that has been answered
        obtain ⟨hreq, z, hz, -, hzid, -, hp, -⟩ := ha
        have hsame := hc.attempts.key x hx z hz
          (.inl (Option.some.inj (hlast.symm.trans hzid)))
        by_cases ht : e.status.terminal = true
        · have := ended ht z.jobId hp r (hsame.jobId ▸ hr)
          rw [hlive] at this
          contradiction
        · have := unanswered hreq (by simpa using ht) y' hy' (hid.trans hlast.symm)
          rw [this] at hty
          contradiction
      · exact ha.1
    · exact h.last x hx r hr hlive y' hy' hty hid e' he'

theorem InboxOk.rows (hc : Coherent cfg s) (h : InboxOk s a mb) {rows : List InboundEventRecord}
    (hrows : Rows s a mb rows) (hev : mb'.events = mb.events ++ rows) : InboxOk s a mb' := by
  cases hrows with
  | none =>
    rw [List.append_nil] at hev
    have hlatest := Mailbox.latestEvents_congr hev
    refine ⟨?_, ?_, ?_, ?_, ?_, ?_, ?_, ?_, ?_⟩
    · rw [hev]
      exact h.issued
    · rw [hlatest]
      exact h.sorted
    · rw [hev]
      exact h.agree
    · rw [hev]
      exact h.shape
    · rw [hev]
      exact h.request_unique
    · rw [hev]
      exact h.reply_unique
    · rw [hlatest]
      exact h.live
    · rw [hev]
      exact h.own
    · unfold Mailbox.getLatestForAttempt
      rw [hev]
      exact h.last
  | fresh e newer issued shape pending request reply =>
    exact h.fresh hev newer issued shape pending request reply
  | later e current found same shape ended unanswered =>
    exact h.later hc hev found same shape ended unanswered

/-! ### Operations -/

theorem InboxOk.congr (hc : Coherent cfg s) (h : InboxOk s a mb) (hev : mb'.events = mb.events) :
    InboxOk s a mb' :=
  h.rows hc .none (by rw [hev, List.append_nil])

/-- Claiming is harmless unless the head is a request that has been answered. -/
theorem InboxOk.claim (hc : Coherent cfg s) (h : InboxOk s a mb) (clock id startedAt)
    (unanswered : ∀ e, mb.headPendingEvent = some e → e.eventType = .taskRequest →
      ∀ r ∈ mb.events, r.attemptId = e.attemptId → r.eventType = .taskRequest) :
    InboxOk s a (mb.claim clock id startedAt).1 := by
  rcases Mailbox.claim_cases mb clock id startedAt with ⟨hrefresh, -⟩ | ⟨e, hhead, -, -, -, hclaim⟩
  · exact h.congr hc (by rw [hrefresh, Mailbox.events_rebuild])
  · obtain ⟨hmem, -⟩ := Mailbox.headPendingEvent_mem hhead
    refine h.rows hc (.later (Mailbox.deliveryRecord e (startedAt.getD clock)) e hmem
      ⟨rfl, rfl, rfl, rfl, rfl⟩ (h.shape e (mem_of_mem_latest hmem)) (fun ht => ?_)
      fun hreq _ => unanswered e hhead hreq) (by rw [hclaim, Mailbox.events_claimCurrent])
    simp [Mailbox.deliveryRecord, InboundEventStatus.terminal] at ht

/-- Ending an event is harmless unless it announces a live job. -/
theorem InboxOk.markTerminal (hc : Coherent cfg s) (h : InboxOk s a mb) (clock id) {status}
    (finishedAt) (ends : status.terminal = true)
    (ended : ∀ e ∈ mb.latestEvents, e.inboundEventId = id → ∀ j, e.payloadRef = some (.job j) →
      ∀ r, s.getJob j = some r → r.status.terminal = true) :
    InboxOk s a (mb.markTerminal clock id status finishedAt).1 := by
  rcases Mailbox.markTerminal_cases mb clock id status finishedAt with ⟨hrefresh, -⟩ |
    ⟨e, hmem, hid, -, hmark⟩
  · exact h.congr hc (by rw [hrefresh, Mailbox.events_rebuild])
  · refine h.rows hc (.later
      { e with status := status, finishedAt := some (finishedAt.getD clock) } e hmem
      ⟨rfl, rfl, rfl, rfl, rfl⟩ (h.shape e (mem_of_mem_latest hmem))
      (fun _ => ended e hmem hid) fun _ hlive => ?_) (by rw [hmark]; simp)
    rw [ends] at hlive
    contradiction

/-- A reply keeps its identifier when its payload is rewritten. -/
theorem InboxOk.rewriteHead (hc : Coherent cfg s) (h : InboxOk s a mb) (clock id updatedAt clear)
    {replyId : ReplyId} {d : Option JobId}
    (reply : ∀ e ∈ mb.latestEvents, e.inboundEventId = id →
      replyIdFromPayload e.payloadRef = some replyId)
    (delivers : ∀ j, d = some j → ∃ r ∈ s.jobs, r.jobId = j ∧ Delivers r a id replyId) :
    InboxOk s a (mb.rewriteHead clock id (composeReplyPayload replyId d) .queued updatedAt
      clear).1 := by
  rcases Mailbox.rewriteHead_cases mb clock id (composeReplyPayload replyId d) .queued updatedAt
    clear with ⟨hrefresh, -⟩ | ⟨e, hmem, hid, -, hrewrite⟩
  · exact h.congr hc (by rw [hrefresh, Mailbox.events_rebuild])
  · have hreply := reply e hmem hid
    have hans : Answers s a e := by
      refine (h.shape e (mem_of_mem_latest hmem)).resolve_left ?_
      rintro ⟨-, x, -, -, -, -, hp, -⟩
      rw [hp] at hreply
      contradiction
    obtain ⟨ht, rep, hrep, d', hp, hatt, hmsg, -, hx⟩ := hans
    obtain rfl : rep.replyId = replyId := by
      rw [hp] at hreply
      exact Option.some.inj hreply
    refine h.rows hc (.later
      (Mailbox.rewriteRecord e (composeReplyPayload rep.replyId d) .queued clear) e hmem
      ⟨rfl, rfl, rfl, rfl, hreply.symm⟩
      (.inr ⟨ht, rep, hrep, d, rfl, hatt, hmsg, hid ▸ delivers, hx⟩) (fun hq => ?_)
      fun hreq => ?_) (by rw [hrewrite]; simp)
    · simp [Mailbox.rewriteRecord, InboundEventStatus.terminal] at hq
    · simp [Mailbox.rewriteRecord, ht] at hreq

/-- The identifiers of pending events after the head are greater than its own. -/
theorem InboxOk.head_le (h : InboxOk s a mb) {e x : InboundEventRecord}
    (hhead : mb.headPendingEvent = some e) (hx : x ∈ mb.latestEvents)
    (hlive : x.status.terminal = false) : e.inboundEventId ≤ x.inboundEventId := by
  have hsorted : ((mb.pendingEvents none).map InboundEventRecord.inboundEventId).Pairwise
      (· < ·) := h.sorted.sublist (List.filter_sublist.map _)
  have hxmem : x ∈ mb.pendingEvents none := Mailbox.mem_pendingEvents.mpr ⟨hx, hlive⟩
  obtain ⟨tail, htail⟩ := List.head?_eq_some_iff.mp hhead
  rw [htail] at hsorted hxmem
  rcases List.mem_cons.mp hxmem with rfl | hxmem
  · exact le_rfl
  · rw [List.map_cons, List.pairwise_cons] at hsorted
    exact (hsorted.1 _ (List.mem_map_of_mem hxmem)).le

/-- The event found through an attempt is found in its latest row. -/
theorem InboxOk.getLatest_of_attempt (h : InboxOk s a mb) {id : AttemptId} {e : InboundEventRecord}
    (he : mb.getLatestForAttempt id = some e) : mb.getLatest e.inboundEventId = some e := by
  obtain ⟨hmem, hid⟩ := findLast_some he
  refine findLast_narrow he (by simp) fun x hx hxid => ?_
  have same := h.agree x hx e hmem (by simpa using hxid)
  rw [same.attemptId]
  exact hid

/-- A job that has not been started has not been answered. -/
theorem InboxOk.unanswered (hc : Coherent cfg s) (h : InboxOk s a mb) {x : AttemptRecord}
    {r : JobRecord} (hx : x ∈ s.attempts) (hr : s.getJob x.jobId = some r)
    (hp : r.status.pending = true) {e : InboundEventRecord} (he : e ∈ mb.events)
    (hid : e.attemptId = some x.attemptId) : e.eventType = .taskRequest := by
  rcases h.shape e he with ha | ⟨-, rep, -, d, -, hrep, -, -, y, hy, hyid, r', hr', hrid, -, hs⟩
  · exact ha.1
  · have hsame := hc.attempts.key x hx y hy
      (.inl ((Option.some.inj (hid.symm.trans hrep)).trans hyid.symm))
    have hfound : s.getJob r'.jobId = some r := by
      rw [hrid, ← hsame.jobId]
      exact hr
    rcases hc.board.precedes_latest hr' hfound with heq | hlt
    · rw [heq, hp] at hs
      contradiction
    · rw [JobStatus.rank_of_pending hp] at hlt
      contradiction

/-- The attempt an event carries is known. -/
theorem InboxOk.attempt (h : InboxOk s a mb) {e : InboundEventRecord} (he : e ∈ mb.events) :
    ∃ x ∈ s.attempts, e.attemptId = some x.attemptId := by
  rcases h.shape e he with ⟨-, x, hx, -, hid, -⟩ | ⟨-, rep, -, -, -, hid, -, -, x, hx, hxid, -⟩
  · exact ⟨x, hx, hid⟩
  · exact ⟨x, hx, hxid ▸ hid⟩

end CodexBridge.Dispatch
