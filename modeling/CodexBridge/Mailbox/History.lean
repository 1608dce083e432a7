import CodexBridge.Mailbox.Projection

/-! What a run of the mailbox service leaves behind: the events in the order they came,
the leases its claims have written and the summaries it has stored. An operation is one
call or two, and every call stores one summary. -/

namespace CodexBridge.Mailbox

open AppendLog

/-! ### Operations and calls -/

/-- An operation of the mailbox service. -/
inductive Op where
  | enqueue (clock : Timestamp) (e : NewEvent) (updatedAt : Option Timestamp)
  | claim (clock : Timestamp) (id : InboundEventId) (startedAt : Option Timestamp)
  | claimNext (clock : Timestamp) (eventType : Option InboundEventType)
      (startedAt : Option Timestamp)
  | ackReply (clock : Timestamp) (id : InboundEventId) (startedAt finishedAt : Option Timestamp)
  | markTerminal (clock : Timestamp) (id : InboundEventId) (status : InboundEventStatus)
      (finishedAt : Option Timestamp)
  | rewriteHead (clock : Timestamp) (id : InboundEventId) (payloadRef : Option PayloadRef)
      (updatedAt : Option Timestamp) (clearProgress : Bool)
  | rebuild (updatedAt : Timestamp)

namespace Op

def exec (mb : Mailbox) : Op → Mailbox
  | .enqueue clock e updatedAt => mb.enqueue clock e updatedAt
  | .claim clock id startedAt => (mb.claim clock id startedAt).1
  | .claimNext clock eventType startedAt => (mb.claimNext clock eventType startedAt).1
  | .ackReply clock id startedAt finishedAt => (mb.ackReply clock id startedAt finishedAt).1
  | .markTerminal clock id status finishedAt => (mb.markTerminal clock id status finishedAt).1
  | .rewriteHead clock id payloadRef updatedAt clearProgress =>
    (mb.rewriteHead clock id payloadRef .queued updatedAt clearProgress).1
  | .rebuild updatedAt => mb.rebuildMailboxSummary updatedAt

/-- Identifiers of events are new, and events are ended by terminal states. -/
def admissible (mb : Mailbox) : Op → Prop
  | .enqueue _ e _ => e.inboundEventId ∉ mb.events.map InboundEventRecord.inboundEventId
  | .markTerminal _ _ status _ => status.terminal = true
  | _ => True

instance (mb : Mailbox) (op : Op) : Decidable (op.admissible mb) :=
  match op with
  | .enqueue _ e _ => inferInstanceAs (Decidable (e.inboundEventId ∉ _))
  | .markTerminal _ _ status _ => inferInstanceAs (Decidable (status.terminal = true))
  | .claim .. | .claimNext .. | .ackReply .. | .rewriteHead .. | .rebuild _ => isTrue trivial

theorem step {mb : Mailbox} {op : Op} (h : op.admissible mb) : Step mb (op.exec mb) := by
  cases op with
  | enqueue clock e updatedAt => exact .enqueue clock e updatedAt h
  | claim clock id startedAt => exact .claim clock id startedAt
  | claimNext clock eventType startedAt => exact .claimNext clock eventType startedAt
  | ackReply clock id startedAt finishedAt => exact .ackReply clock id startedAt finishedAt
  | markTerminal clock id status finishedAt => exact .markTerminal clock id status finishedAt h
  | rewriteHead clock id payloadRef updatedAt clear =>
    exact .rewriteHead clock id payloadRef updatedAt clear
  | rebuild updatedAt => exact .rebuild updatedAt

end Op

/-- A call that ends with one summary stored. -/
inductive Call where
  | enqueue (clock : Timestamp) (e : NewEvent) (updatedAt : Option Timestamp)
  | claim (clock : Timestamp) (id : InboundEventId) (startedAt : Option Timestamp)
  | markTerminal (clock : Timestamp) (id : InboundEventId) (status : InboundEventStatus)
      (finishedAt : Option Timestamp)
  | rewriteHead (clock : Timestamp) (id : InboundEventId) (payloadRef : Option PayloadRef)
      (updatedAt : Option Timestamp) (clearProgress : Bool)
  | rebuild (updatedAt : Timestamp)

namespace Call

def exec (mb : Mailbox) : Call → Mailbox
  | .enqueue clock e updatedAt => mb.enqueue clock e updatedAt
  | .claim clock id startedAt => (mb.claim clock id startedAt).1
  | .markTerminal clock id status finishedAt => (mb.markTerminal clock id status finishedAt).1
  | .rewriteHead clock id payloadRef updatedAt clearProgress =>
    (mb.rewriteHead clock id payloadRef .queued updatedAt clearProgress).1
  | .rebuild updatedAt => mb.rebuildMailboxSummary updatedAt

def admissible (mb : Mailbox) : Call → Prop
  | .enqueue _ e _ => e.inboundEventId ∉ mb.events.map InboundEventRecord.inboundEventId
  | .markTerminal _ _ status _ => status.terminal = true
  | _ => True

/-- The event a call brings. -/
def arrival : Call → Option InboundEventId
  | .enqueue _ e _ => some e.inboundEventId
  | _ => none

/-- The lease a call writes: the one it leaves, if that was not there before. -/
def lease (mb : Mailbox) (c : Call) : Option DeliveryLease :=
  if (c.exec mb).lease = mb.lease then none else (c.exec mb).lease

theorem step {mb : Mailbox} {c : Call} (h : c.admissible mb) : Step mb (c.exec mb) := by
  cases c with
  | enqueue clock e updatedAt => exact .enqueue clock e updatedAt h
  | claim clock id startedAt => exact .claim clock id startedAt
  | markTerminal clock id status finishedAt => exact .markTerminal clock id status finishedAt h
  | rewriteHead clock id payloadRef updatedAt clear =>
    exact .rewriteHead clock id payloadRef updatedAt clear
  | rebuild updatedAt => exact .rebuild updatedAt

end Call

/-- The calls an operation makes, in order. An acknowledgement claims its event first if
nobody has. -/
def Op.calls (mb : Mailbox) : Op → List Call
  | .enqueue clock e updatedAt => [.enqueue clock e updatedAt]
  | .claim clock id startedAt => [.claim clock id startedAt]
  | .claimNext clock eventType startedAt =>
    match mb.peekNext eventType with
    | none => [.rebuild (startedAt.getD clock)]
    | some next => [.claim clock next.inboundEventId startedAt]
  | .ackReply clock id startedAt finishedAt =>
    let timestamp := (finishedAt <|> startedAt).getD clock
    let ends := Call.markTerminal clock id .consumed (some (finishedAt.getD timestamp))
    if !headMatchesReply mb.headPendingEvent id then [.rebuild timestamp]
    else
      match mb.getLatest id with
      | none => [.rebuild timestamp]
      | some current =>
        if current.status.terminal then [.rebuild timestamp]
        else if current.status = .delivering then [ends]
        else
          let starts := Call.claim clock id (some (startedAt.getD timestamp))
          match (mb.claim clock id (some (startedAt.getD timestamp))).2 with
          | none => [starts, .rebuild timestamp]
          | some _ => [starts, ends]
  | .markTerminal clock id status finishedAt => [.markTerminal clock id status finishedAt]
  | .rewriteHead clock id payloadRef updatedAt clearProgress =>
    [.rewriteHead clock id payloadRef updatedAt clearProgress]
  | .rebuild updatedAt => [.rebuild updatedAt]

theorem Op.foldl_calls (mb : Mailbox) (op : Op) :
    (op.calls mb).foldl Call.exec mb = op.exec mb := by
  cases op with
  | claimNext clock eventType startedAt =>
    simp only [calls, exec, Mailbox.claimNext]
    cases mb.peekNext eventType <;> rfl
  | ackReply clock id startedAt finishedAt =>
    simp only [calls, exec, Mailbox.ackReply]
    split_ifs with hhead
    · rfl
    · cases mb.getLatest id with
      | none => rfl
      | some current =>
        dsimp only
        split_ifs with hterminal hdelivering
        · rfl
        · rfl
        · rcases hclaim : mb.claim clock id
            (some (startedAt.getD ((finishedAt <|> startedAt).getD clock))) with ⟨claimed, _ | e⟩
          · simp only [List.foldl_cons, List.foldl_nil, Call.exec, hclaim]
          · simp only [List.foldl_cons, List.foldl_nil, Call.exec, hclaim]
  | _ => rfl

/-- All calls but that of an enqueue are admissible anywhere. -/
theorem Op.calls_admissible {mb : Mailbox} {op : Op} (h : op.admissible mb)
    (hop : ∀ clock e updatedAt, op ≠ .enqueue clock e updatedAt) :
    ∀ c ∈ op.calls mb, ∀ mb', c.admissible mb' := by
  intro c hc mb'
  cases op with
  | enqueue clock e updatedAt => exact absurd rfl (hop clock e updatedAt)
  | claim clock id startedAt =>
    obtain rfl := List.mem_singleton.mp hc
    trivial
  | claimNext clock eventType startedAt =>
    simp only [calls] at hc
    split at hc <;> obtain rfl := List.mem_singleton.mp hc <;> trivial
  | ackReply clock id startedAt finishedAt =>
    simp only [calls] at hc
    split_ifs at hc
    · obtain rfl := List.mem_singleton.mp hc
      trivial
    · split at hc
      · obtain rfl := List.mem_singleton.mp hc
        trivial
      · split_ifs at hc
        · obtain rfl := List.mem_singleton.mp hc
          trivial
        · obtain rfl := List.mem_singleton.mp hc
          rfl
        · split at hc <;> rcases List.mem_pair.mp hc with rfl | rfl <;> trivial
  | markTerminal clock id status finishedAt =>
    obtain rfl := List.mem_singleton.mp hc
    exact h
  | rewriteHead clock id payloadRef updatedAt clear =>
    obtain rfl := List.mem_singleton.mp hc
    trivial
  | rebuild updatedAt =>
    obtain rfl := List.mem_singleton.mp hc
    trivial

/-! ### Histories -/

/-- A mailbox with what has happened to it: the events that came, the leases that claims
have written and the summaries that were stored, each in order. -/
structure History where
  mailbox : Mailbox
  arrived : List InboundEventId
  leases : List DeliveryLease
  stored : List MailboxRecord

namespace History

def start (a : AgentName) : History := ⟨Mailbox.empty a, [], [], []⟩

def call (h : History) (c : Call) : History :=
  { mailbox := c.exec h.mailbox
    arrived := h.arrived ++ c.arrival.toList
    leases := h.leases ++ (c.lease h.mailbox).toList
    stored := h.stored ++ (c.exec h.mailbox).summary.toList }

def serve (h : History) (op : Op) : History := (op.calls h.mailbox).foldl call h

/-- The events that have been claimed, in the order of the claims. -/
def claimed (h : History) : List InboundEventId := h.leases.map DeliveryLease.inboundEventId

theorem foldl_call_mailbox (h : History) (calls : List Call) :
    (calls.foldl call h).mailbox = calls.foldl Call.exec h.mailbox := by
  induction calls generalizing h with
  | nil => rfl
  | cons c calls ih => exact ih (h.call c)

/-- The history follows the operations. -/
theorem serve_mailbox (h : History) (op : Op) :
    (h.serve op).mailbox = op.exec h.mailbox := by
  rw [serve, foldl_call_mailbox, op.foldl_calls]

/-- The histories of the runs of the service on one mailbox. -/
inductive Served (a : AgentName) : History → Prop
  | start : Served a (start a)
  | serve {h : History} (served : Served a h) (op : Op) (adm : op.admissible h.mailbox) :
      Served a (h.serve op)

/-- What every admissible call keeps, every operation keeps. -/
theorem serve_keeps {I : History → Prop}
    (step : ∀ h c, I h → c.admissible h.mailbox → I (h.call c)) {h : History} {op : Op}
    (adm : op.admissible h.mailbox) (hI : I h) : I (h.serve op) := by
  by_cases hop : ∃ clock e updatedAt, op = .enqueue clock e updatedAt
  · obtain ⟨clock, e, updatedAt, rfl⟩ := hop
    exact step h (.enqueue clock e updatedAt) hI adm
  · push Not at hop
    exact List.foldlRecOn _ _ hI fun h' hI' c hc =>
      step h' c hI' (Op.calls_admissible adm hop c hc h'.mailbox)

theorem Served.invariant {I : History → Prop} {a : AgentName} {h : History}
    (start : I (History.start a))
    (step : ∀ h c, I h → c.admissible h.mailbox → I (h.call c)) (served : Served a h) : I h := by
  induction served with
  | start => exact start
  | serve _ op adm ih => exact serve_keeps step adm ih

/-- The operations are admissible one after the other. -/
def Admitted : History → List Op → Prop
  | _, [] => True
  | h, op :: ops => op.admissible h.mailbox ∧ Admitted (h.serve op) ops

instance decidableAdmitted : ∀ (h : History) (ops : List Op), Decidable (Admitted h ops)
  | _, [] => isTrue trivial
  | h, op :: ops =>
    have := decidableAdmitted (h.serve op) ops
    inferInstanceAs (Decidable (op.admissible h.mailbox ∧ Admitted (h.serve op) ops))

theorem Served.foldl {a : AgentName} {h : History} {ops : List Op} (served : Served a h)
    (hops : Admitted h ops) : Served a (ops.foldl History.serve h) := by
  induction ops generalizing h with
  | nil => exact served
  | cons op ops ih => exact ih (served.serve op hops.1) hops.2

end History

/-! ### One call -/

/-- A lease that is taken out is newer than the one that is there. -/
theorem deliveryLease_new (mb : Mailbox) (id : InboundEventId) (t : Timestamp) :
    some (mb.deliveryLease id t) ≠ mb.lease := by
  intro hlease
  have hversion : mb.nextLeaseVersion = (mb.deliveryLease id t).leaseVersion + 1 := by
    rw [nextLeaseVersion, ← hlease]
  exact absurd hversion (Nat.lt_succ_self _).ne

/-- A claim writes a lease when it starts the delivery of the head. -/
theorem claim_lease_cases (mb : Mailbox) (clock : Timestamp) (id : InboundEventId)
    (startedAt : Option Timestamp) :
    ((Call.claim clock id startedAt).lease mb = none ∧
      (mb.claim clock id startedAt).1 = mb.rebuildMailboxSummary (startedAt.getD clock)) ∨
    ∃ current, mb.headPendingEvent = some current ∧ current.inboundEventId = id ∧
      (Call.claim clock id startedAt).lease mb =
        some (mb.deliveryLease id (startedAt.getD clock)) ∧
      mb.claim clock id startedAt = mb.claimCurrent current (startedAt.getD clock) := by
  rcases claim_cases mb clock id startedAt with ⟨hc, -⟩ | ⟨current, hh, hid, -, -, hc⟩
  · exact .inl ⟨if_pos (by rw [Call.exec, hc, lease_rebuild]), hc⟩
  · have hlease : ((Call.claim clock id startedAt).exec mb).lease =
        some (mb.deliveryLease id (startedAt.getD clock)) := by
      rw [Call.exec, hc, claimCurrent, lease_refreshClaimed, hid]
      rfl
    have hnew : ((Call.claim clock id startedAt).exec mb).lease ≠ mb.lease := by
      rw [hlease]
      exact deliveryLease_new mb id _
    exact .inr ⟨current, hh, hid, (if_neg hnew).trans hlease, hc⟩

/-- The stored summary has been built from the prior one, and from the log and the lease as
they are. -/
def Refreshed (prior : Option MailboxRecord) (mb : Mailbox) : Prop :=
  ∃ u, mb.summary = some (mb.buildMailboxSummaryRecord prior mb.lease u)

theorem refreshed_rebuild (mb : Mailbox) (t : Timestamp) :
    Refreshed mb.summary (mb.rebuildMailboxSummary t) := by
  rw [rebuildMailboxSummary, saveSummaryRecord_loaded]
  exact ⟨_, rfl⟩

theorem refreshed_applyTransition (mb : Mailbox) (u : SummaryUpdate) :
    Refreshed mb.summary (mb.applyTransitionSummaryUpdate u) := by
  rw [applyTransitionSummaryUpdate, saveSummaryRecord_loaded]
  exact ⟨u, rfl⟩

theorem refreshed_claimed (mb : Mailbox) (r t) : Refreshed mb.summary (mb.refreshClaimed r t) := by
  unfold refreshClaimed
  split
  · exact refreshed_rebuild mb t
  · split_ifs
    · exact refreshed_rebuild mb t
    · exact refreshed_applyTransition mb _

theorem refreshed_terminal (mb : Mailbox) (r t) :
    Refreshed mb.summary (mb.refreshTerminal r t) := by
  unfold refreshTerminal
  split
  · exact refreshed_rebuild mb t
  · split_ifs
    · exact refreshed_rebuild mb t
    · exact refreshed_applyTransition mb _
    · exact refreshed_applyTransition mb _
    · split
      · exact refreshed_rebuild mb t
      · exact refreshed_applyTransition mb _
    · exact refreshed_applyTransition mb _

theorem refreshed_rewritten (mb : Mailbox) (r t) :
    Refreshed mb.summary (mb.refreshRewritten r t) := by
  unfold refreshRewritten
  split
  · exact refreshed_rebuild mb t
  · split_ifs
    · exact refreshed_rebuild mb t
    · exact refreshed_applyTransition mb _

namespace Call

variable {mb : Mailbox} {c : Call}

theorem refreshed (mb : Mailbox) (c : Call) : Refreshed mb.summary (c.exec mb) := by
  cases c with
  | enqueue clock e updatedAt =>
    show Refreshed mb.summary (mb.enqueue clock e updatedAt)
    rw [Mailbox.enqueue, applyIncrementalSummaryUpdate, saveSummaryRecord_loaded]
    exact ⟨_, rfl⟩
  | claim clock id startedAt =>
    simp only [exec]
    rcases claim_lease_cases mb clock id startedAt with ⟨-, hc⟩ | ⟨current, -, -, -, hc⟩
    · rw [hc]
      exact refreshed_rebuild mb _
    · rw [hc]
      exact refreshed_claimed _ _ _
  | markTerminal clock id status finishedAt =>
    simp only [exec]
    rcases markTerminal_cases mb clock id status finishedAt with ⟨hm, -⟩ | ⟨current, -, -, -, hm⟩
    · rw [hm]
      exact refreshed_rebuild mb _
    · rw [hm]
      have h := refreshed_terminal ((mb.append { current with
        status := status, finishedAt := some (finishedAt.getD clock) }).releaseMatchingLease id)
        current (finishedAt.getD clock)
      rwa [summary_releaseMatchingLease, summary_append] at h
  | rewriteHead clock id payloadRef updatedAt clear =>
    simp only [exec]
    rcases rewriteHead_cases mb clock id payloadRef .queued updatedAt clear with
      ⟨hw, -⟩ | ⟨current, -, -, -, hw⟩
    · rw [hw]
      exact refreshed_rebuild mb _
    · rw [hw]
      have h := refreshed_rewritten ((mb.append (rewriteRecord current payloadRef .queued
        clear)).releaseMatchingLease id) (rewriteRecord current payloadRef .queued clear)
        (updatedAt.getD clock)
      rwa [summary_releaseMatchingLease, summary_append] at h
  | rebuild updatedAt => exact refreshed_rebuild mb updatedAt

/-- A call that writes no lease keeps the one that is there, or takes it away. -/
theorem lease_none (h : c.lease mb = none) : (c.exec mb).lease = mb.lease ∨
    (c.exec mb).lease = none := by
  rw [lease] at h
  split_ifs at h with hsame
  · exact .inl hsame
  · exact .inr h

/-- Only a claim writes a lease. -/
theorem lease_other (hc : ∀ clock id startedAt, c ≠ .claim clock id startedAt) :
    c.lease mb = none := by
  have hkept : (c.exec mb).lease = mb.lease ∨ (c.exec mb).lease = none := by
    cases c with
    | enqueue clock e updatedAt => exact .inl (lease_enqueue mb clock e updatedAt)
    | claim clock id startedAt => exact absurd rfl (hc clock id startedAt)
    | markTerminal clock id status finishedAt =>
      rcases markTerminal_cases mb clock id status finishedAt with ⟨hm, -⟩ | ⟨current, -, -, -, hm⟩
      · exact .inl (by rw [exec, hm, lease_rebuild])
      · simp only [exec, hm, lease_refreshTerminal, lease_releaseMatchingLease, lease_append]
        exact (ite_eq_or_eq _ none mb.lease).symm
    | rewriteHead clock id payloadRef updatedAt clear =>
      rcases rewriteHead_cases mb clock id payloadRef .queued updatedAt clear with
        ⟨hw, -⟩ | ⟨current, -, -, -, hw⟩
      · exact .inl (by rw [exec, hw, lease_rebuild])
      · simp only [exec, hw, lease_refreshRewritten, lease_releaseMatchingLease, lease_append]
        exact (ite_eq_or_eq _ none mb.lease).symm
    | rebuild updatedAt => exact .inl (lease_rebuild mb updatedAt)
  rw [lease]
  split_ifs with hsame
  · rfl
  · exact hkept.resolve_left hsame

/-- A call that writes a lease starts the delivery of the head. -/
theorem lease_some {l : DeliveryLease} (h : c.lease mb = some l) :
    ∃ current, mb.headPendingEvent = some current ∧ l.inboundEventId = current.inboundEventId ∧
      l.leaseVersion = mb.nextLeaseVersion ∧ (c.exec mb).lease = some l := by
  cases c with
  | claim clock id startedAt =>
    rcases claim_lease_cases mb clock id startedAt with ⟨hnone, -⟩ | ⟨current, hh, hid, hl, hc⟩
    · rw [hnone] at h
      contradiction
    · obtain rfl := Option.some.inj (hl.symm.trans h)
      refine ⟨current, hh, hid.symm, rfl, ?_⟩
      rw [exec, hc, claimCurrent, lease_refreshClaimed, hid]
      rfl
  | _ =>
    rw [lease_other (by simp)] at h
    contradiction

end Call

/-- A request with a reply behind it: the request is claimed and handed back, claimed again
and consumed, and the reply is acknowledged. -/
def sampleOps : List Op :=
  [.enqueue sampleTime (sampleEvent 4 .taskRequest) none,
    .enqueue sampleTime (sampleEvent 5 .taskReply) none, .claimNext sampleTime none none,
    .rewriteHead sampleTime 4 none none true, .claim sampleTime 4 none,
    .markTerminal sampleTime 4 .consumed none, .ackReply sampleTime 5 none none]

def sampleHistory : History := sampleOps.foldl History.serve (History.start "agent1")

theorem sampleHistory_served : History.Served "agent1" sampleHistory := by
  have hops : (History.start "agent1").Admitted sampleOps := by decide +kernel
  exact History.Served.start.foldl hops

end CodexBridge.Mailbox
