import CodexBridge.Dispatch.Writes

/-! What the stores promise between two writes. A job may be there without its attempt
and an attempt without its event, but identifiers are issued once, the rows of an attempt
and of an edge belong together, and rows for one edge leave the others alone. -/

namespace CodexBridge.Dispatch

open AppendLog
open Mailbox (InboundEventRecord InboundEventType NewEvent)

variable {cfg : Config} {s s' s'' : State} {x y : EdgeId}

/-- The stores after any write. -/
structure Durable (s : State) : Prop where
  jobs : ∀ r ∈ s.jobs, r.jobId < s.nextId
  attempts : ∀ a ∈ s.attempts, a.attemptId < s.nextId
  keyed : AttemptsKeyed s
  worked : ∀ a ∈ s.attempts, ∃ r ∈ s.jobs, r.jobId = a.jobId
  replies : RepliesOk s
  edges : EdgesOk s
  events : ∀ b, ∀ e ∈ (s.mailboxes b).events, e.inboundEventId < s.nextId ∧
    ∀ j, e.payloadRef = some (.job j) → ∃ r ∈ s.jobs, r.jobId = j

theorem Sound.durable (h : Sound cfg s) : Durable s := by
  refine ⟨h.coherent.jobs.issued, h.coherent.attempts.issued, h.coherent.attempts.key, ?_,
    h.coherent.replies, h.coherent.edges, ?_⟩
  · intro a ha
    obtain ⟨r, hr, hid, -⟩ := h.coherent.attempts.job a ha
    exact ⟨r, hr, hid⟩
  · intro b e he
    refine ⟨(h.inboxes.ok b).issued e he, fun j hj => ?_⟩
    rcases (h.inboxes.ok b).shape e he with ⟨-, a, -, -, -, -, hpay, r, hr, hid, -⟩ |
      ⟨-, reply, -, d, hpay, -⟩
    · rw [hpay] at hj
      cases hj
      exact ⟨r, hr, hid⟩
    · rw [hpay] at hj
      cases hj

theorem Durable.memory (h : Durable s) (memory : Memory) :
    Durable { s with memory := memory } :=
  ⟨h.jobs, h.attempts, h.keyed, h.worked,
    h.replies.keep rfl (List.Subset.refl _) le_rfl,
    h.edges.keep rfl (List.Subset.refl _) (List.Subset.refl _) (List.Subset.refl _) le_rfl,
    h.events⟩

/-! ### One write -/

/-- A write made while edge `y` is handled: its rows are about that edge and the job that
goes on with it, or they are notices. -/
def Write.Valid (y : EdgeId) (s : State) : Write → Prop
  | .edge row => row.edgeId = y ∧ ∃ current, Act.Updates s row current
  | .job row => row.jobId = s.nextId ∧ row.request.routeOptions.callbackEdgeId = some y
  | .attempt row => row.attemptId = s.nextId ∧ (∃ r ∈ s.jobs, r.jobId = row.jobId) ∧
    ∀ a ∈ s.attempts, a.jobId ≠ row.jobId
  | .inbound _ event => event.inboundEventId = s.nextId ∧
    ∀ j, event.payloadRef = some (.job j) → (∃ r ∈ s.jobs, r.jobId = j) ∧
      ∀ r ∈ s.jobs, r.jobId = j → r.request.routeOptions.callbackEdgeId = some y
  | .reply row => row.replyId = s.nextId ∧ row.notice = true ∧
    ∃ a ∈ s.attempts, a.attemptId = row.attemptId ∧ a.messageId = row.messageId
  | .summary .. | .message _ => True

/-- The mailboxes after a row has been appended to one of them. -/
theorem events_append (b c : AgentName) (event : NewEvent) :
    ((s.setMailbox b ((s.mailboxes b).append event.record)).mailboxes c).events =
      (s.mailboxes c).events ++ if c = b then [event.record] else [] := by
  by_cases hc : c = b
  · subst hc
    simp [State.setMailbox, Mailbox.append]
  · simp [State.setMailbox, hc]

theorem events_summary (b c : AgentName) (eventType : InboundEventType) (t : Timestamp) :
    (((Write.summary b eventType t).apply s).mailboxes c).events = (s.mailboxes c).events := by
  by_cases hc : c = b
  · subst hc
    simp [Write.apply, State.setMailbox]
  · simp [Write.apply, State.setMailbox, hc]

theorem Durable.apply (h : Durable s) {write : Write} (hw : write.Valid y s) :
    Durable (write.apply s) := by
  have hnext : s.nextId ≤ s.nextId + 1 := Nat.le_succ _
  cases write with
  | edge row =>
    obtain ⟨-, current, upd⟩ := hw
    exact ⟨h.jobs, h.attempts, h.keyed, h.worked,
      h.replies.keep rfl (List.Subset.refl _) le_rfl,
      h.edges.update upd rfl (List.Subset.refl _) (List.Subset.refl _) (List.Subset.refl _) le_rfl,
      h.events⟩
  | job row =>
    have hn : ((Write.job row).apply s).nextId = s.nextId + 1 := congrArg (· + 1) hw.1
    refine ⟨?_, ?_, h.keyed, ?_, h.replies.keep rfl (List.Subset.refl _) (hn ▸ hnext),
      h.edges.keep rfl (List.subset_append_left _ _) (List.Subset.refl _) (List.Subset.refl _)
        (hn ▸ hnext), ?_⟩
    · intro r hr
      rcases List.mem_append.mp hr with hr | hr
      · exact hn ▸ (h.jobs r hr).trans_le hnext
      · rw [List.mem_singleton.mp hr]
        exact Nat.lt_succ_self _
    · intro a ha
      exact hn ▸ (h.attempts a ha).trans_le hnext
    · intro a ha
      obtain ⟨r, hr, hid⟩ := h.worked a ha
      exact ⟨r, List.mem_append_left _ hr, hid⟩
    · intro b e he
      refine ⟨hn ▸ (h.events b e he).1.trans_le hnext, fun j hj => ?_⟩
      obtain ⟨r, hr, hid⟩ := (h.events b e he).2 j hj
      exact ⟨r, List.mem_append_left _ hr, hid⟩
  | attempt row =>
    have hn : ((Write.attempt row).apply s).nextId = s.nextId + 1 := congrArg (· + 1) hw.1
    refine ⟨fun r hr => hn ▸ (h.jobs r hr).trans_le hnext, ?_, ?_, ?_,
      h.replies.keep rfl (List.subset_append_left _ _) (hn ▸ hnext),
      h.edges.keep rfl (List.Subset.refl _) (List.subset_append_left _ _) (List.Subset.refl _)
        (hn ▸ hnext), fun b e he => ⟨hn ▸ (h.events b e he).1.trans_le hnext, (h.events b e he).2⟩⟩
    · intro a ha
      rcases List.mem_append.mp ha with ha | ha
      · exact hn ▸ (h.attempts a ha).trans_le hnext
      · rw [List.mem_singleton.mp ha]
        exact Nat.lt_succ_self _
    · -- the attempt and its job have no other rows
      have hother : ∀ a ∈ s.attempts, ¬(a.attemptId = row.attemptId ∨ a.jobId = row.jobId) := by
        rintro a ha (hid | hid)
        · exact absurd (hid.trans hw.1) (h.attempts a ha).ne
        · exact hw.2.2 a ha hid
      intro a ha b hb hid
      rcases List.mem_append.mp ha with hold | hnew <;>
        rcases List.mem_append.mp hb with hold' | hnew'
      · exact h.keyed a hold b hold' hid
      · rw [List.mem_singleton.mp hnew'] at hid
        exact absurd hid (hother a hold)
      · rw [List.mem_singleton.mp hnew] at hid
        exact absurd (hid.imp Eq.symm Eq.symm) (hother b hold')
      · rw [List.mem_singleton.mp hnew, List.mem_singleton.mp hnew']
        exact SameAttempt.refl row
    · intro a ha
      rcases List.mem_append.mp ha with ha | ha
      · exact h.worked a ha
      · rw [List.mem_singleton.mp ha]
        exact hw.2.1
  | inbound b event =>
    have hn : ((Write.inbound b event).apply s).nextId = s.nextId + 1 := congrArg (· + 1) hw.1
    refine ⟨fun r hr => hn ▸ (h.jobs r hr).trans_le hnext,
      fun a ha => hn ▸ (h.attempts a ha).trans_le hnext, h.keyed, h.worked,
      h.replies.keep rfl (List.Subset.refl _) (hn ▸ hnext),
      h.edges.keep rfl (List.Subset.refl _) (List.Subset.refl _) (List.Subset.refl _)
        (hn ▸ hnext), ?_⟩
    intro c e he
    rw [show (((Write.inbound b event).apply s).mailboxes c).events = _ from
      events_append b c event, List.mem_append] at he
    rcases he with he | he
    · exact ⟨hn ▸ (h.events c e he).1.trans_le hnext, (h.events c e he).2⟩
    · split_ifs at he
      · rw [List.mem_singleton.mp he]
        exact ⟨Nat.lt_succ_self _, fun j hj => (hw.2 j hj).1⟩
      · exact absurd he List.not_mem_nil
  | summary b eventType t =>
    refine ⟨h.jobs, h.attempts, h.keyed, h.worked,
      h.replies.keep rfl (List.Subset.refl _) le_rfl,
      h.edges.keep rfl (List.Subset.refl _) (List.Subset.refl _) (List.Subset.refl _) le_rfl,
      fun c e he => ?_⟩
    rw [events_summary] at he
    exact h.events c e he
  | message row =>
    exact ⟨h.jobs, h.attempts, h.keyed, h.worked,
      h.replies.keep rfl (List.Subset.refl _) le_rfl,
      h.edges.keep rfl (List.Subset.refl _) (List.Subset.refl _) (List.Subset.refl _) le_rfl,
      h.events⟩
  | reply row =>
    have hn : ((Write.reply row).apply s).nextId = s.nextId + 1 := congrArg (· + 1) hw.1
    exact ⟨fun r hr => hn ▸ (h.jobs r hr).trans_le hnext,
      fun a ha => hn ▸ (h.attempts a ha).trans_le hnext, h.keyed, h.worked,
      h.replies.append rfl (List.Subset.refl _) (hn ▸ hnext) hw.1.ge (Nat.lt_succ_self _) hw.2.2,
      h.edges.keep rfl (List.Subset.refl _) (List.Subset.refl _) (List.subset_append_left _ _)
        (hn ▸ hnext),
      fun b e he => ⟨hn ▸ (h.events b e he).1.trans_le hnext, (h.events b e he).2⟩⟩

/-! ### The writes of the program -/

/-- Writes each valid where it is made. -/
def ValidWrites (y : EdgeId) : State → List Write → Prop
  | _, [] => True
  | s, write :: writes => write.Valid y s ∧ ValidWrites y (write.apply s) writes

theorem validWrites_append {writes writes' : List Write} :
    ValidWrites y s (writes ++ writes') ↔
      ValidWrites y s writes ∧ ValidWrites y (s.applyWrites writes) writes' := by
  induction writes generalizing s with
  | nil => exact ⟨fun h => ⟨trivial, h⟩, And.right⟩
  | cons write writes ih => rw [List.cons_append, ValidWrites, ValidWrites, ih, and_assoc]; rfl

theorem ValidWrites.take {writes : List Write} (h : ValidWrites y s writes) (k : ℕ) :
    ValidWrites y s (writes.take k) := by
  rw [← List.take_append_drop k writes] at h
  exact (validWrites_append.mp h).1

theorem Durable.applyWrites (h : Durable s) {writes : List Write} (hw : ValidWrites y s writes) :
    Durable (s.applyWrites writes) := by
  induction writes generalizing s with
  | nil => exact h
  | cons write writes ih => exact ih (h.apply hw.1) hw.2

theorem validWrites_messageWrites (y : EdgeId) (s s' : State) (id next t) :
    ValidWrites y s' (s.messageWrites id next t) := by
  unfold State.messageWrites
  split
  · trivial
  · split_ifs
    · trivial
    · exact ⟨trivial, trivial⟩

theorem validWrites_refreshWrites (y : EdgeId) (s s' : State) (id t) :
    ValidWrites y s' (s.refreshWrites id t) := by
  unfold State.refreshWrites
  split_ifs
  · trivial
  · exact validWrites_messageWrites y s s' _ _ _

/-- A notice is about no edge in particular. -/
theorem validWrites_replyWrites (y : EdgeId) {attempt : AttemptRecord} (ha : attempt ∈ s.attempts)
    (job status recipient t) :
    ValidWrites y s (s.replyWrites cfg job attempt status true recipient t) := by
  refine ⟨⟨rfl, rfl, attempt, ha, rfl, rfl⟩,
    validWrites_append.mpr ⟨?_, validWrites_refreshWrites y _ _ _ _⟩⟩
  cases recipient.bind (State.mailboxActor cfg) with
  | none => trivial
  | some mailbox => exact ⟨⟨rfl, fun j hj => by cases hj⟩, trivial, trivial⟩

theorem validWrites_noticeWrites (y : EdgeId) (s : State) (edge : CallbackEdgeRecord)
    (t : Timestamp) : ValidWrites y s (s.noticeWrites cfg edge t) := by
  unfold State.noticeWrites
  split
  · exact validWrites_messageWrites y s s _ _ _
  · split
    · trivial
    · rename_i attempt hattempt
      exact validWrites_replyWrites y (State.attemptForJob_mem hattempt).1 _ _ _ _

theorem validWrites_failWrites (cfg : Config) {edge : CallbackEdgeRecord} (he : edge ∈ s.edges)
    {state : CallbackEdgeState} (hstate : state ≠ .continuationSubmitted) (t : Timestamp) :
    ValidWrites edge.edgeId s (s.failWrites cfg edge state t) := by
  have found := State.getEdge_of_getD he
  unfold State.failWrites
  dsimp only
  split_ifs with hterm
  · trivial
  · refine ⟨⟨?_, (s.getEdge edge.edgeId).getD edge, found,
      ⟨rfl, rfl, rfl, rfl, rfl, rfl, rfl, rfl, rfl, rfl⟩, edgeMove_of_open (by simpa using hterm) _,
      fun r hr => .inl hr, fun hsub => absurd hsub hstate⟩, validWrites_noticeWrites _ _ _ _⟩
    rcases hg : s.getEdge edge.edgeId with _ | current
    · rfl
    · exact (State.getEdge_mem hg).2

/-- The job is new, its attempt and its event name it, and the edge names the job. -/
theorem validWrites_continuationJobWrites (cfg : Config) (h : Durable s)
    {edge : CallbackEdgeRecord} (found : s.getEdge edge.edgeId = some edge)
    (hopen : edge.state.terminal = false) (childJob decision t) :
    ValidWrites edge.edgeId s (s.continuationJobWrites cfg edge childJob decision t) := by
  have hnew : ∀ r ∈ s.jobs ++ [s.submittedJob cfg edge childJob decision t],
      r.jobId = s.nextId → r.request.routeOptions.callbackEdgeId = some edge.edgeId := by
    intro r hr hid
    rcases List.mem_append.mp hr with hr | hr
    · exact absurd hid (h.jobs r hr).ne
    · rw [List.mem_singleton.mp hr]
      rfl
  have hmem : s.submittedJob cfg edge childJob decision t ∈
      s.jobs ++ [s.submittedJob cfg edge childJob decision t] := by simp
  refine ⟨⟨rfl, rfl⟩, validWrites_append.mpr ⟨⟨⟨rfl, ⟨_, hmem, rfl⟩, fun a ha hid => ?_⟩,
    validWrites_append.mpr ⟨⟨⟨rfl, fun j hj => ?_⟩, trivial, trivial⟩,
      validWrites_messageWrites _ _ _ _ _ _⟩⟩, ?_⟩⟩
  · obtain ⟨r, hr, hrid⟩ := h.worked a ha
    exact absurd (hrid.trans hid) (h.jobs r hr).ne
  · cases hj
    exact ⟨⟨_, hmem, rfl⟩, hnew⟩
  · rw [← State.recordRetryAttempt_eq]
    exact ⟨⟨rfl, edge, found, ⟨rfl, rfl, rfl, rfl, rfl, rfl, rfl, rfl, rfl, rfl⟩,
      edgeMove_of_open hopen _, fun r hr => .inl hr, fun _ => ⟨_, hmem, rfl⟩⟩, trivial⟩

/-- A call that continues an edge, whichever way it finds the edge. -/
structure ContinuationCall (s : State) (edge current : CallbackEdgeRecord) (childJob : JobRecord)
    (childReplyId : Option ReplyId) : Prop where
  leads : (s.edgeForChildJob childJob.jobId).getD edge = current
  found : s.getEdge current.edgeId = some current
  outstanding : current.state.terminal = false
  first : s.existingContinuationJob current = none
  reply : ∀ r, childReplyId = some r → ∃ reply ∈ s.replies, reply.replyId = r ∧
    reply.messageId = current.childMessageId ∧ reply.notice = false

section Call
variable {edge current : CallbackEdgeRecord} {childJob : JobRecord} {childReplyId : Option ReplyId}

theorem ContinuationCall.completed (call : ContinuationCall s edge current childJob childReplyId)
    (t : Timestamp) :
    (Write.edge (State.completedEdge current childJob childReplyId t)).Valid current.edgeId s :=
  ⟨rfl, current, call.found, ⟨rfl, rfl, rfl, rfl, rfl, rfl, rfl, rfl, rfl, rfl⟩,
    edgeMove_of_open call.outstanding _, fun r hr => .inr (call.reply r hr),
    fun hsub => by contradiction⟩

/-- The row is the latest one of its edge. -/
theorem getEdge_appendEdge (s : State) (row : CallbackEdgeRecord) :
    (s.appendEdge row).getEdge row.edgeId = some row := by
  simp [State.getEdge, State.appendEdge]

theorem ContinuationCall.valid (call : ContinuationCall s edge current childJob childReplyId)
    (h : Durable s) (decision t) :
    ValidWrites current.edgeId s
      (s.continuationWrites cfg current childJob childReplyId decision t) := by
  have hc := call.completed t
  refine ⟨hc, ?_⟩
  have hd := h.apply hc
  have hfound := getEdge_appendEdge s (State.completedEdge current childJob childReplyId t)
  split
  · exact validWrites_failWrites cfg (State.getEdge_mem hfound).1 (by decide) t
  · exact validWrites_continuationJobWrites cfg hd hfound rfl childJob decision t

end Call

/-! ### Beside an edge -/

/-- What rows for other edges do: no row of edge `x`, no job that goes on with it, no row
of a job, attempt, reply or event that is there, and no event for a job that goes on with
it; new replies are notices. -/
structure Aside (x : EdgeId) (s s' : State) : Prop where
  jobs : Adds (fun r => r.request.routeOptions.callbackEdgeId ≠ some x ∧
    ∀ z ∈ s.jobs, z.jobId ≠ r.jobId) s.jobs s'.jobs
  attempts : Adds (fun a => ∀ z ∈ s.attempts, z.attemptId ≠ a.attemptId ∧ z.jobId ≠ a.jobId)
    s.attempts s'.attempts
  replies : Adds (fun r => r.notice = true ∧ ∀ z ∈ s.replies, z.replyId ≠ r.replyId)
    s.replies s'.replies
  edges : Adds (fun e => e.edgeId ≠ x) s.edges s'.edges
  events : ∀ b, Adds (fun e =>
    (∀ z ∈ (s.mailboxes b).events, z.inboundEventId ≠ e.inboundEventId) ∧
      ∀ j, e.payloadRef = some (.job j) → ∀ r ∈ s.jobs, r.jobId = j →
        r.request.routeOptions.callbackEdgeId ≠ some x)
    (s.mailboxes b).events (s'.mailboxes b).events

namespace Aside

theorem refl (x : EdgeId) (s : State) : Aside x s s :=
  ⟨Adds.refl _ _, Adds.refl _ _, Adds.refl _ _, Adds.refl _ _, fun _ => Adds.refl _ _⟩

theorem memory (x : EdgeId) (s : State) (memory : Memory) :
    Aside x s { s with memory := memory } :=
  ⟨Adds.refl _ _, Adds.refl _ _, Adds.refl _ _, Adds.refl _ _, fun _ => Adds.refl _ _⟩

theorem trans (h : Aside x s s') (h' : Aside x s' s'') : Aside x s s'' where
  jobs := h.jobs.trans h'.jobs fun _ hr => ⟨hr.1, fun z hz => hr.2 z (h.jobs.subset hz)⟩
  attempts := h.attempts.trans h'.attempts fun _ ha z hz => ha z (h.attempts.subset hz)
  replies := h.replies.trans h'.replies fun _ hr =>
    ⟨hr.1, fun z hz => hr.2 z (h.replies.subset hz)⟩
  edges := h.edges.trans h'.edges fun _ he => he
  events b := (h.events b).trans (h'.events b) fun _ he =>
    ⟨fun z hz => he.1 z ((h.events b).subset hz), fun j hj r hr => he.2 j hj r (h.jobs.subset hr)⟩

/-- A write for one edge is beside every other. -/
theorem write (h : Durable s) {write : Write} (hw : write.Valid y s) (hxy : x ≠ y) :
    Aside x s (write.apply s) := by
  cases write with
  | edge row =>
    exact { refl x s with edges := .single (fun hid => hxy (hid.symm.trans hw.1)) _ }
  | job row =>
    refine { refl x s with jobs := .single ⟨fun hid => ?_, fun z hz hid => ?_⟩ _ }
    · exact hxy (Option.some.inj (hid.symm.trans hw.2))
    · exact absurd (hid.trans hw.1) (h.jobs z hz).ne
  | attempt row =>
    refine { refl x s with attempts := .single (fun z hz => ⟨fun hid => ?_, hw.2.2 z hz⟩) _ }
    exact absurd (hid.trans hw.1) (h.attempts z hz).ne
  | inbound b event =>
    refine { refl x s with events := fun c => ?_ }
    rw [show (((Write.inbound b event).apply s).mailboxes c).events = _ from
      events_append b c event]
    split_ifs
    · refine .single ⟨fun z hz hid => ?_, fun j hj r hr hid hx => ?_⟩ _
      · exact absurd (hid.trans hw.1) (h.events c z hz).1.ne
      · exact hxy (Option.some.inj (hx.symm.trans ((hw.2 j hj).2 r hr hid)))
    · rw [List.append_nil]
      exact Adds.refl _ _
  | summary b eventType t =>
    refine { refl x s with events := fun c => ?_ }
    rw [events_summary]
    exact Adds.refl _ _
  | message row => exact { refl x s with }
  | reply row =>
    refine { refl x s with replies := .single ⟨hw.2.1, fun z hz hid => ?_⟩ _ }
    exact absurd (hid.trans hw.1) (h.replies.issued z hz).ne

theorem writes (h : Durable s) {writes : List Write} (hw : ValidWrites y s writes)
    (hxy : x ≠ y) : Aside x s (s.applyWrites writes) := by
  induction writes generalizing s with
  | nil => exact refl x s
  | cons write writes ih =>
    exact (Aside.write h hw.1 hxy).trans (ih (h.apply hw.1) hw.2)

end Aside

end CodexBridge.Dispatch
