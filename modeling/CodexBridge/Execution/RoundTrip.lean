import CodexBridge.Execution.StateModels

/-! An execution state that is written and read again. The decision, the items and the sequence
numbers come back as they were, and so does the submission, except that missing diagnostics are
read as empty ones. -/

namespace CodexBridge.Execution.StateModels

open Completion (Confidence Cursor Status)
open PosixPath (Path)
open RuntimeState (Python PyDict PyValue)

variable (python : Python)

/-! ### Fields and records -/

@[simp] theorem readText_optText (text : Option String) : readText (optText text) = some text := by
  cases text <;> rfl

@[simp] theorem readInt_elim (n : Option ℤ) : readInt (n.elim .none .int) = some n := by
  cases n <;> rfl

@[simp] theorem readNat_optNat (n : Option ℕ) : readNat (optNat n) = some n := by
  cases n with
  | none => rfl
  | some n =>
    have hnat : ¬ (n : ℤ) < 0 := not_lt.mpr (Int.natCast_nonneg n)
    rw [optNat, Option.elim_some, readNat, if_neg hnat, Int.toNat_natCast]

@[simp] theorem or_str_empty (s : String) : (PyValue.str s).or (.str "") = .str s := by
  by_cases hs : s = ""
  · rw [hs]
    rfl
  · rw [PyValue.or, PyValue.truthy, decide_eq_true hs, if_pos rfl]

theorem or_str {s : String} (h : s ≠ "") (default : String) :
    (PyValue.str s).or (.str default) = .str s := by
  rw [PyValue.or, PyValue.truthy, decide_eq_true h, if_pos rfl]

@[simp] theorem readDict_dict (entries : PyDict) : readDict (.dict entries) = some entries := rfl

@[simp] theorem readDictOrEmpty_dict (entries : PyDict) :
    readDictOrEmpty (.dict entries) = some entries := by
  cases entries <;> rfl

theorem checked_decision (decision : CompletionDecision) :
    decision.toDecisionFields.checked = some decision := by
  rw [DecisionFields.checked, dif_pos decision.wellFormed]

theorem named_item (item : CompletionItem) {name : Except Raised String}
    (hname : name = .ok item.agentName) (h) : item.toItemFields.named name h = some item := by
  have hprovider : lower (strip item.provider) = item.provider := item.provider_normal.1
  subst hname
  rw [ItemFields.named, dif_pos ⟨item.timestamp_nonempty, hprovider.symm ▸ item.provider_normal.2,
    item.reqId_nonempty⟩]
  have hfields : { item.toItemFields with provider := lower (strip item.provider) } =
      item.toItemFields := by
    rw [hprovider]
  exact congrArg some (CompletionItem.ext hfields)

theorem checked_item (item : CompletionItem) : item.toItemFields.checked = some item :=
  named_item item item.agentName_normal _

theorem cursorFromRecord_cursorToRecord (cursor : Cursor) :
    cursorFromRecord python (cursorToRecord cursor) = some cursor := by
  simp [cursorFromRecord, cursorToRecord, requiredText, PyValue.get, List.lookup_cons,
    python.str_str,
    ofValue_value]

theorem status_value_ne (status : Status) : value status ≠ "" := by
  cases status <;> decide

theorem confidence_value_ne (confidence : Confidence) : value confidence ≠ "" := by
  cases confidence <;> decide

theorem readOptional_dict {α β : Type} {read : PyDict → Option α}
    {write : β → PyDict} {given : β → α}
    (h : ∀ b, read (write b) = some (given b)) (value : Option β) :
    readOptional read (value.elim .none fun b => .dict (write b)) = some (value.map given) := by
  cases value with
  | none => rfl
  | some b =>
    rw [Option.elim_some, readOptional, readDict, Option.bind_some, h, Option.map_some,
      Option.map_some]
    intro hnone
    nomatch hnone

@[simp] theorem readConfidence_optText (confidence : Option Confidence) :
    readConfidence python (optText (confidence.map value)) = some confidence := by
  cases confidence with
  | none => rfl
  | some confidence =>
    change (ofValue (python.str (.str (value confidence)))).map some = _
    rw [python.str_str, ofValue_value, Option.map_some]

theorem decisionFromRecord_decisionToRecord (decision : CompletionDecision) :
    decisionFromRecord python (decisionToRecord decision) = some decision := by
  have hcursor := readOptional_dict (cursorFromRecord_cursorToRecord python) decision.sourceCursor
  have hstatus := or_str (status_value_ne decision.status) "incomplete"
  rw [Option.map_id'] at hcursor
  simp [decisionFromRecord, decisionToRecord, textOr, PyValue.get, List.lookup_cons, python.str_str,
    hcursor, hstatus, ofValue_value, PyValue.truthy]
  exact checked_decision decision

theorem itemFromRecord_itemToRecord (item : CompletionItem) :
    itemFromRecord python (itemToRecord item) = some item := by
  simp [itemFromRecord, itemToRecord, requiredText, PyValue.get, List.lookup_cons, python.str_str,
    cursorFromRecord_cursorToRecord, ofValue_value]
  exact checked_item item

/-- Where the runtime was bound is not read back. -/
theorem runtimeContextFromRecord_runtimeContextToRecord (context : ProviderRuntimeContext) :
    runtimeContextFromRecord python (runtimeContextToRecord context) =
      some { context with runtimeBindingSource := none } := by
  simp [runtimeContextFromRecord, runtimeContextToRecord, requiredText, PyValue.get,
    List.lookup_cons,
    python.str_str]

/-! ### Runtime states -/

/-- Without the key of old, nothing is renamed. -/
theorem renameReqId_of_notMem {runtimeState : PyDict} (h : "req_id" ∉ runtimeState.map Prod.fst) :
    renameReqId runtimeState = runtimeState := by
  have hget := RuntimeState.get_of_notMem h
  have hfalsy :
      ¬ ((runtimeState.lookup "request_anchor").isNone && PyValue.truthy .none) = true := by
    rw [PyValue.truthy, Bool.and_false]
    exact Bool.false_ne_true
  rw [renameReqId, hget, if_neg hfalsy, List.filter_eq_self]
  intro entry hentry
  have hne : entry.1 ≠ "req_id" := by
    intro hkey
    exact h (hkey ▸ List.mem_map_of_mem hentry)
  exact decide_eq_true hne

theorem serialize_dict_or (runtimeState : PyDict) {written : PyValue}
    (h : RuntimeState.serialize python (.dict runtimeState) = some written) :
    written.or (.dict []) = written := by
  rw [RuntimeState.serialize] at h
  obtain ⟨entries, -, rfl⟩ := Option.map_eq_some_iff.mp h
  cases entries <;> rfl

/-- A submission with a reason and a plain state is read back, with the diagnostics it lacks. -/
theorem submissionFromRecord_submissionToRecord {submission : ProviderSubmission}
    (hreason : submission.reason ≠ "")
    (hplain : RuntimeState.Plain python (.dict submission.runtimeState))
    (hreqId : "req_id" ∉ submission.runtimeState.map Prod.fst) :
    (submissionToRecord python submission).bind (submissionFromRecord python) =
      some { submission with diagnostics := some (submission.diagnostics.getD []) } := by
  obtain ⟨written, hwritten, hback⟩ := hplain.readsBack
  have hor := serialize_dict_or python _ hwritten
  have hstatus := or_str (status_value_ne submission.status) "incomplete"
  have hconfidence := or_str (confidence_value_ne submission.confidence) "observed"
  rw [submissionToRecord, hwritten, Option.map_some, Option.bind_some]
  simp [submissionFromRecord, requiredText, textOr, PyValue.get, List.lookup_cons, python.str_str,
    hor, hback, hstatus, hconfidence, or_str hreason, ofValue_value,
    renameReqId_of_notMem hreqId]

/-! ### States -/

/-- A list of records is read one by one. -/
theorem mapM_map {α β : Type} {write : α → β} {read : β → Option α}
    (h : ∀ a, read (write a) = some a) (values : List α) :
    (values.map write).mapM read = some values := by
  induction values with
  | nil => rfl
  | cons a values ih => rw [List.map_cons, List.mapM_cons, h, ih]; rfl

/-- A state whose record is read: the reason is given, the runtime state is plain and without the
key of old, and the sequence numbers form a set. -/
structure Recordable (state : PersistedExecutionState) : Prop where
  reason : state.submission.reason ≠ ""
  plain : RuntimeState.Plain python (.dict state.submission.runtimeState)
  reqId : "req_id" ∉ state.submission.runtimeState.map Prod.fst
  seqs : state.appliedEventSeqs.Pairwise (· < ·)

/-- The state that is read from the record of a state. -/
def reread (state : PersistedExecutionState) : Option PersistedExecutionState :=
  (state.toRecord python).bind (PersistedExecutionState.fromRecord python)

namespace PersistedExecutionState

/-- The state with diagnostics, empty ones where there were none. -/
def filled (state : PersistedExecutionState) : PersistedExecutionState :=
  { state with
    submission :=
      { state.submission with diagnostics := some (state.submission.diagnostics.getD []) } }

/-- The state whose runtime is bound at a source. -/
def boundAt (source : Option String) (state : PersistedExecutionState) :
    PersistedExecutionState :=
  { state with
    runtimeContext := state.runtimeContext.map fun context =>
      { context with runtimeBindingSource := source } }

theorem boundAt_self {state : PersistedExecutionState}
    (h : ∀ context ∈ state.runtimeContext, context.runtimeBindingSource = none) :
    state.boundAt none = state := by
  have hcontext : (state.runtimeContext.map fun context =>
      { context with runtimeBindingSource := none }) = state.runtimeContext := by
    cases hstate : state.runtimeContext with
    | none => rfl
    | some context =>
      have hnone := h context hstate
      rw [Option.map_some, ← hnone]
  rw [boundAt, hcontext]

end PersistedExecutionState

theorem sort_seqs {α : Type*} [LinearOrder α] {seqs : List α} (h : seqs.Pairwise (· < ·)) :
    seqs.toFinset.sort (· ≤ ·) = seqs :=
  (List.toFinset_sort (· ≤ ·) (h.imp fun hlt => ne_of_lt hlt)).mpr (h.imp fun hlt => le_of_lt hlt)

/-- The record of a state gives the state, with diagnostics and without a binding. -/
theorem reread_eq {state : PersistedExecutionState} (h : Recordable python state) :
    reread python state = some (state.filled.boundAt none) := by
  have hsubmission := submissionFromRecord_submissionToRecord python h.reason h.plain h.reqId
  obtain ⟨submission, hwritten, hback⟩ := Option.bind_eq_some_iff.mp hsubmission
  have hcontext := readOptional_dict (runtimeContextFromRecord_runtimeContextToRecord python)
    state.runtimeContext
  have hdecision := readOptional_dict (decisionFromRecord_decisionToRecord python)
    state.pendingDecision
  have hitem : ∀ item, (readDict (.dict (itemToRecord item))).bind (itemFromRecord python) =
      some item := by
    intro item
    rw [readDict_dict, Option.bind_some, itemFromRecord_itemToRecord]
  have hitems : (state.pendingItems.map fun item => PyValue.dict (itemToRecord item)).mapM
      (fun item => (readDict item).bind (itemFromRecord python)) = some state.pendingItems :=
    mapM_map hitem state.pendingItems
  have hseqs : (state.appliedEventSeqs.map PyValue.int).mapM python.int =
      some state.appliedEventSeqs := mapM_map python.int_int state.appliedEventSeqs
  rw [Option.map_id'] at hdecision
  rw [reread, PersistedExecutionState.toRecord, hwritten, Option.map_some, Option.bind_some]
  simp [PersistedExecutionState.fromRecord, PyValue.get, List.lookup_cons, hback, hcontext,
    hdecision, iterateKey, iterate, -List.mapM_map, hitems, hseqs, textOr, python.str_str,
    PyValue.truthy, sort_seqs h.seqs, PersistedExecutionState.filled,
    PersistedExecutionState.boundAt]

/-- A state comes back whole, with empty diagnostics where it has none, wherever its runtime was
bound. -/
theorem state_comes_back {state : PersistedExecutionState} (h : Recordable python state) :
    (∃ source, reread python state = some (state.filled.boundAt source)) ∧
      ((∀ context ∈ state.runtimeContext, context.runtimeBindingSource = none) →
        reread python state = some state.filled ∧
          (state.submission.diagnostics ≠ none → reread python state = some state)) := by
  have hreread := reread_eq python h
  refine ⟨⟨none, hreread⟩, fun hunbound => ?_⟩
  have hfilled : state.filled.boundAt none = state.filled :=
    PersistedExecutionState.boundAt_self hunbound
  rw [hreread, hfilled]
  refine ⟨rfl, fun hdiagnostics => ?_⟩
  obtain ⟨diagnostics, hsome⟩ := Option.ne_none_iff_exists'.mp hdiagnostics
  rw [PersistedExecutionState.filled, hsome, Option.getD_some, ← hsome]

/-! ### A state -/

/-- Texts and whole numbers are printed and read. -/
def decimal : Python where
  str
    | .str s => s
    | .int n => toString n
    | _ => ""
  int
    | .int n => some n
    | _ => none
  userHome user := "/home/".toList ++ user.tail
  str_str _ := rfl
  int_int _ := rfl

def logPath : Path := PosixPath.parse "/home/u/session.jsonl".toList

def logCursor : Cursor :=
  ⟨.sessionEventLog, none, some "/home/u/session.jsonl", some 120, some 4, some 2, none⟩

theorem claude_normal : normalizeAgentName "claude" = .ok "claude" :=
  normalizeAgentName_eq_ok.mpr ⟨by decide +kernel, by decide +kernel, by decide +kernel⟩

/-- A submission that waits with a final item and the decision on it. -/
def waitingState : PersistedExecutionState where
  submission :=
    { jobId := "job_1"
      agentName := "claude"
      provider := "claude"
      acceptedAt := "2025-01-01T00:00:00Z"
      readyAt := "2025-01-01T00:00:01Z"
      sourceKind := .sessionEventLog
      reply := "done"
      status := .incomplete
      reason := "in_progress"
      confidence := .observed
      diagnostics := some [("polls", .int 3)]
      runtimeState :=
        [("request_anchor", .str "job_1"), ("log", .path logPath),
          ("state",
            .dict [("seen", .tuple [.bytes [0, 255], .none, .list [.bool true, .int 7]])])] }
  runtimeContext := some ⟨"claude", some "/home/u", none, none, none, some 41, none, none⟩
  resumeCapable := true
  persistedAt := "2025-01-01T00:00:02Z"
  pendingDecision := some
    { terminal := true
      status := .completed
      reason := some "turn_boundary"
      confidence := some .exact
      reply := "done"
      anchorSeen := true
      replyStarted := true
      replyStable := false
      providerTurnRef := none
      sourceCursor := some logCursor
      finishedAt := some "2025-01-01T00:00:02Z"
      diagnostics := []
      wellFormed := by decide }
  pendingItems :=
    [{ kind := .assistantFinal
       timestamp := "2025-01-01T00:00:02Z"
       cursor := logCursor
       provider := "claude"
       agentName := "claude"
       reqId := "job_1"
       payload := [("text", .str "done")]
       timestamp_nonempty := by decide
       provider_normal := by decide +kernel
       agentName_normal := claude_normal
       reqId_nonempty := by decide +kernel }]
  appliedEventSeqs := [1, 2]

theorem waitingState_recordable : Recordable decimal waitingState where
  reason := by decide
  plain := by
    refine .dict _ (by decide) ?_
    have hlist : RuntimeState.Plain decimal (.list [.bool true, .int 7]) := by
      refine .list _ ?_
      simp [RuntimeState.Plain.bool, RuntimeState.Plain.int]
    have htuple : RuntimeState.Plain decimal
        (.tuple [.bytes [0, 255], .none, .list [.bool true, .int 7]]) := by
      refine .tuple _ ?_
      simp [RuntimeState.Plain.bytes, RuntimeState.Plain.none, hlist]
    have hdict : RuntimeState.Plain decimal
        (.dict [("seen", .tuple [.bytes [0, 255], .none, .list [.bool true, .int 7]])]) := by
      refine .dict _ (by decide) ?_
      simp [htuple]
    have hlog : RuntimeState.Plain decimal (.path logPath) := .path _ rfl
    simp [waitingState, RuntimeState.Plain.str, hlog, hdict]
  reqId := by decide
  seqs := by decide

theorem waitingState_comes_back :
    (∃ source, reread decimal waitingState = some (waitingState.filled.boundAt source)) ∧
      reread decimal waitingState = some waitingState := by
  obtain ⟨hback, hunbound⟩ := state_comes_back decimal waitingState_recordable
  have hsource : ∀ context ∈ waitingState.runtimeContext, context.runtimeBindingSource = none := by
    simp [waitingState]
  exact ⟨hback, (hunbound hsource).2 (by simp [waitingState])⟩

/-- A submission without diagnostics. -/
def undiagnosed : PersistedExecutionState :=
  { waitingState with submission := { waitingState.submission with diagnostics := none } }

/-- It comes back with empty diagnostics. -/
theorem undiagnosed_changes :
    Recordable decimal undiagnosed ∧ reread decimal undiagnosed ≠ some undiagnosed := by
  have hwaiting := waitingState_recordable
  have h : Recordable decimal undiagnosed :=
    ⟨hwaiting.reason, hwaiting.plain, hwaiting.reqId, hwaiting.seqs⟩
  refine ⟨h, fun hback => ?_⟩
  rw [reread_eq decimal h] at hback
  have hdiagnostics := congrArg (fun state => state.submission.diagnostics) (Option.some.inj hback)
  nomatch hdiagnostics

end CodexBridge.Execution.StateModels
