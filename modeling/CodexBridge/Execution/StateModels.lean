import CodexBridge.Execution.RuntimeState
import CodexBridge.Names
import Mathlib.Data.Finset.Sort

/-! The record of an execution state: the submission, the context it runs in, and the decision and
the items that wait. Where the runtime of the context is bound is not written. -/

namespace CodexBridge.Execution.StateModels

open Completion (Confidence Cursor ItemKind SourceKind Status)
open RuntimeState (Python PyDict PyValue)

/-! ### States -/

structure ProviderRuntimeContext where
  agentName : String
  workspacePath : Option String
  backendType : Option String
  runtimeRef : Option String
  sessionRef : Option String
  runtimePid : Option ℤ
  runtimeHealth : Option String
  runtimeBindingSource : Option String

structure ProviderSubmission where
  jobId : String
  agentName : String
  provider : String
  acceptedAt : String
  readyAt : String
  sourceKind : SourceKind
  reply : String
  status : Status
  reason : String
  confidence : Confidence
  diagnostics : Option PyDict
  runtimeState : PyDict

structure DecisionFields where
  terminal : Bool
  status : Status
  reason : Option String
  confidence : Option Confidence
  reply : String
  anchorSeen : Bool
  replyStarted : Bool
  replyStable : Bool
  providerTurnRef : Option String
  sourceCursor : Option Cursor
  finishedAt : Option String
  diagnostics : PyDict

structure CompletionDecision extends DecisionFields where
  wellFormed : if terminal then reason.isSome ∧ confidence.isSome ∧ finishedAt.isSome
    else status = .incomplete ∧ reason = none ∧ confidence = none ∧ finishedAt = none

/-- `CompletionDecision(..)`, which may raise. -/
def DecisionFields.checked (fields : DecisionFields) : Option CompletionDecision :=
  if h : if fields.terminal then
        fields.reason.isSome ∧ fields.confidence.isSome ∧ fields.finishedAt.isSome
      else fields.status = .incomplete ∧ fields.reason = none ∧ fields.confidence = none ∧
        fields.finishedAt = none then some ⟨fields, h⟩
  else none

structure ItemFields where
  kind : ItemKind
  timestamp : String
  cursor : Cursor
  provider : String
  agentName : String
  reqId : String
  payload : PyDict

/-- The names of an item are normal. -/
structure CompletionItem extends ItemFields where
  timestamp_nonempty : timestamp ≠ ""
  provider_normal : lower (strip provider) = provider ∧ provider ≠ ""
  agentName_normal : normalizeAgentName agentName = .ok agentName
  reqId_nonempty : strip reqId ≠ ""

theorem CompletionItem.ext {item other : CompletionItem}
    (h : item.toItemFields = other.toItemFields) : item = other := by
  obtain ⟨fields, _, _, _, _⟩ := item
  obtain ⟨otherFields, _, _, _, _⟩ := other
  have hfields : fields = otherFields := h
  subst hfields
  rfl

/-- The item of an agent whose name is normalized. -/
def ItemFields.named (fields : ItemFields) :
    (name : Except Raised String) → (∀ n, name = .ok n → normalizeAgentName n = .ok n) →
      Option CompletionItem
  | .error _, _ => none
  | .ok agentName, hnormal =>
    if h : fields.timestamp ≠ "" ∧ lower (strip fields.provider) ≠ "" ∧ strip fields.reqId ≠ "" then
      some
        { fields with
          provider := lower (strip fields.provider)
          agentName := agentName
          timestamp_nonempty := h.1
          provider_normal := ⟨lower_strip_idem _, h.2.1⟩
          agentName_normal := hnormal agentName rfl
          reqId_nonempty := h.2.2 }
    else none

/-- `CompletionItem(..)`, which normalizes the names and may raise. -/
def ItemFields.checked (fields : ItemFields) : Option CompletionItem :=
  fields.named (normalizeAgentName fields.agentName) fun _ => normalizeAgentName_idem

structure PersistedExecutionState where
  submission : ProviderSubmission
  runtimeContext : Option ProviderRuntimeContext
  resumeCapable : Bool
  persistedAt : String
  pendingDecision : Option CompletionDecision
  pendingItems : List CompletionItem
  appliedEventSeqs : List ℤ

/-! ### Enumerations -/

/-- An enumeration of texts. -/
class StrEnum (α : Type) where
  members : List α
  value : α → String
  find_value : ∀ a, members.find? (fun b => value b = value a) = some a

export StrEnum (value)

/-- The member with a text. -/
def ofValue {α : Type} [StrEnum α] (text : String) : Option α :=
  (StrEnum.members : List α).find? fun a => value a = text

theorem ofValue_value {α : Type} [StrEnum α] (a : α) : ofValue (value a) = some a :=
  StrEnum.find_value a

def sourceKindValue : SourceKind → String
  | .protocolEventStream => "protocol_event_stream"
  | .structuredResultStream => "structured_result_stream"
  | .sessionEventLog => "session_event_log"
  | .sessionSnapshot => "session_snapshot"
  | .terminalText => "terminal_text"

def statusValue : Status → String
  | .completed => "completed"
  | .cancelled => "cancelled"
  | .failed => "failed"
  | .incomplete => "incomplete"

def confidenceValue : Confidence → String
  | .exact => "exact"
  | .observed => "observed"
  | .degraded => "degraded"

def itemKindValue : ItemKind → String
  | .anchorSeen => "anchor_seen"
  | .assistantChunk => "assistant_chunk"
  | .assistantFinal => "assistant_final"
  | .toolCall => "tool_call"
  | .toolResult => "tool_result"
  | .result => "result"
  | .turnBoundary => "turn_boundary"
  | .turnAborted => "turn_aborted"
  | .cancelInfo => "cancel_info"
  | .error => "error"
  | .paneDead => "pane_dead"
  | .sessionSnapshot => "session_snapshot"
  | .sessionMutation => "session_mutation"
  | .sessionRotate => "session_rotate"

instance : StrEnum SourceKind where
  members := [.protocolEventStream, .structuredResultStream, .sessionEventLog, .sessionSnapshot,
    .terminalText]
  value := sourceKindValue
  find_value a := by cases a <;> decide

instance : StrEnum Status where
  members := [.completed, .cancelled, .failed, .incomplete]
  value := statusValue
  find_value a := by cases a <;> decide

instance : StrEnum Confidence where
  members := [.exact, .observed, .degraded]
  value := confidenceValue
  find_value a := by cases a <;> decide

instance : StrEnum ItemKind where
  members := [.anchorSeen, .assistantChunk, .assistantFinal, .toolCall, .toolResult, .result,
    .turnBoundary, .turnAborted, .cancelInfo, .error, .paneDead, .sessionSnapshot,
    .sessionMutation, .sessionRotate]
  value := itemKindValue
  find_value a := by cases a <;> decide

/-! ### Writing records -/

def optText (text : Option String) : PyValue := text.elim .none .str

def optNat (n : Option ℕ) : PyValue := n.elim .none fun n => .int n

/-- `CompletionCursor.to_record` -/
def cursorToRecord (cursor : Cursor) : PyDict :=
  [("schema_version", .int 2), ("record_type", .str "completion_cursor"),
    ("source_kind", .str (value cursor.sourceKind)),
    ("opaque_cursor", optText cursor.opaqueCursor), ("session_path", optText cursor.sessionPath),
    ("offset", optNat cursor.offset), ("line_no", optNat cursor.lineNo),
    ("event_seq", optNat cursor.eventSeq), ("updated_at", optText cursor.updatedAt)]

/-- `CompletionDecision.to_record` -/
def decisionToRecord (decision : CompletionDecision) : PyDict :=
  [("schema_version", .int 2), ("record_type", .str "completion_decision"),
    ("terminal", .bool decision.terminal), ("status", .str (value decision.status)),
    ("reason", optText decision.reason), ("confidence", optText (decision.confidence.map value)),
    ("reply", .str decision.reply), ("anchor_seen", .bool decision.anchorSeen),
    ("reply_started", .bool decision.replyStarted), ("reply_stable", .bool decision.replyStable),
    ("provider_turn_ref", optText decision.providerTurnRef),
    ("source_cursor", decision.sourceCursor.elim .none fun cursor => .dict (cursorToRecord cursor)),
    ("finished_at", optText decision.finishedAt), ("diagnostics", .dict decision.diagnostics)]

/-- `CompletionItem.to_record` -/
def itemToRecord (item : CompletionItem) : PyDict :=
  [("schema_version", .int 2), ("record_type", .str "completion_item"),
    ("kind", .str (value item.kind)), ("timestamp", .str item.timestamp),
    ("cursor", .dict (cursorToRecord item.cursor)), ("provider", .str item.provider),
    ("agent_name", .str item.agentName), ("req_id", .str item.reqId),
    ("payload", .dict item.payload)]

/-- Where the runtime is bound is not written. -/
def runtimeContextToRecord (context : ProviderRuntimeContext) : PyDict :=
  [("agent_name", .str context.agentName), ("workspace_path", optText context.workspacePath),
    ("backend_type", optText context.backendType), ("runtime_ref", optText context.runtimeRef),
    ("session_ref", optText context.sessionRef),
    ("runtime_pid", context.runtimePid.elim .none .int),
    ("runtime_health", optText context.runtimeHealth)]

variable (python : Python)

def submissionToRecord (submission : ProviderSubmission) : Option PyDict :=
  (RuntimeState.serialize python (.dict submission.runtimeState)).map fun runtimeState =>
    [("job_id", .str submission.jobId), ("agent_name", .str submission.agentName),
      ("provider", .str submission.provider), ("accepted_at", .str submission.acceptedAt),
      ("ready_at", .str submission.readyAt),
      ("source_kind", .str (value submission.sourceKind)), ("reply", .str submission.reply),
      ("status", .str (value submission.status)), ("reason", .str submission.reason),
      ("confidence", .str (value submission.confidence)),
      ("diagnostics", .dict (submission.diagnostics.getD [])), ("runtime_state", runtimeState)]

namespace PersistedExecutionState

def toRecord (state : PersistedExecutionState) : Option PyDict :=
  (submissionToRecord python state.submission).map fun submission =>
    [("schema_version", .int 3), ("record_type", .str "execution_state"),
      ("submission", .dict submission),
      ("runtime_context",
        state.runtimeContext.elim .none fun context => .dict (runtimeContextToRecord context)),
      ("resume_capable", .bool state.resumeCapable), ("persisted_at", .str state.persistedAt),
      ("pending_decision",
        state.pendingDecision.elim .none fun decision => .dict (decisionToRecord decision)),
      ("pending_items", .list (state.pendingItems.map fun item => .dict (itemToRecord item))),
      ("applied_event_seqs", .list (state.appliedEventSeqs.map .int))]

end PersistedExecutionState

/-! ### Reading records -/

/-- A field that is a text or nothing. A value of another type is refused. -/
def readText : PyValue → Option (Option String)
  | .none => some none
  | .str s => some (some s)
  | _ => none

def readInt : PyValue → Option (Option ℤ)
  | .none => some none
  | .int n => some (some n)
  | _ => none

/-- A negative number is refused. -/
def readNat : PyValue → Option (Option ℕ)
  | .none => some none
  | .int n => if n < 0 then none else some (some n.toNat)
  | _ => none

/-- `dict(value)`, of a dictionary. -/
def readDict : PyValue → Option PyDict
  | .dict entries => some entries
  | _ => none

/-- `dict(value or {})` -/
def readDictOrEmpty (value : PyValue) : Option PyDict := readDict (value.or (.dict []))

/-- The values of an iteration. -/
def iterate : PyValue → Option (List PyValue)
  | .tuple items => some items
  | .list items => some items
  | .str s => some (s.toList.map fun c => .str (String.singleton c))
  | .bytes data => some (data.map fun byte => .int byte.toNat)
  | .dict entries => some (entries.map fun entry => .str entry.1)
  | _ => none

/-- `str(record.get(key) or default)` -/
def textOr (record : PyDict) (key : String) (default : String) : String :=
  python.str ((PyValue.get record key).or (.str default))

/-- `str(record[key])` -/
def requiredText (record : PyDict) (key : String) : Option String :=
  (record.lookup key).map python.str

def cursorFromRecord (record : PyDict) : Option Cursor := do
  let sourceKind ← ofValue (← requiredText python record "source_kind")
  let opaqueCursor ← readText (PyValue.get record "opaque_cursor")
  let sessionPath ← readText (PyValue.get record "session_path")
  let offset ← readNat (PyValue.get record "offset")
  let lineNo ← readNat (PyValue.get record "line_no")
  let eventSeq ← readNat (PyValue.get record "event_seq")
  let updatedAt ← readText (PyValue.get record "updated_at")
  pure ⟨sourceKind, opaqueCursor, sessionPath, offset, lineNo, eventSeq, updatedAt⟩

/-- A record, or nothing where there is none. -/
def readOptional {α : Type} (read : PyDict → Option α) : PyValue → Option (Option α)
  | .none => some none
  | record => ((readDict record).bind read).map some

def readConfidence : PyValue → Option (Option Confidence)
  | .none => some none
  | confidence => (ofValue (python.str confidence)).map some

def decisionFromRecord (record : PyDict) : Option CompletionDecision := do
  let cursor ← readOptional (cursorFromRecord python) (PyValue.get record "source_cursor")
  let confidence ← readConfidence python (PyValue.get record "confidence")
  let status ← ofValue (textOr python record "status" "incomplete")
  let reason ← readText (PyValue.get record "reason")
  let providerTurnRef ← readText (PyValue.get record "provider_turn_ref")
  let finishedAt ← readText (PyValue.get record "finished_at")
  let diagnostics ← readDictOrEmpty (PyValue.get record "diagnostics")
  DecisionFields.checked
    { terminal := (PyValue.get record "terminal").truthy
      status := status
      reason := reason
      confidence := confidence
      reply := textOr python record "reply" ""
      anchorSeen := (PyValue.get record "anchor_seen").truthy
      replyStarted := (PyValue.get record "reply_started").truthy
      replyStable := (PyValue.get record "reply_stable").truthy
      providerTurnRef := providerTurnRef
      sourceCursor := cursor
      finishedAt := finishedAt
      diagnostics := diagnostics }

def itemFromRecord (record : PyDict) : Option CompletionItem := do
  let cursor ← (← (record.lookup "cursor").bind readDict) |> cursorFromRecord python
  let kind ← ofValue (← requiredText python record "kind")
  let timestamp ← requiredText python record "timestamp"
  let provider ← requiredText python record "provider"
  let agentName ← requiredText python record "agent_name"
  let reqId ← requiredText python record "req_id"
  let payload ← readDictOrEmpty (PyValue.get record "payload")
  ItemFields.checked ⟨kind, timestamp, cursor, provider, agentName, reqId, payload⟩

def runtimeContextFromRecord (record : PyDict) : Option ProviderRuntimeContext := do
  let agentName ← requiredText python record "agent_name"
  let workspacePath ← readText (PyValue.get record "workspace_path")
  let backendType ← readText (PyValue.get record "backend_type")
  let runtimeRef ← readText (PyValue.get record "runtime_ref")
  let sessionRef ← readText (PyValue.get record "session_ref")
  let runtimePid ← readInt (PyValue.get record "runtime_pid")
  let runtimeHealth ← readText (PyValue.get record "runtime_health")
  pure ⟨agentName, workspacePath, backendType, runtimeRef, sessionRef, runtimePid, runtimeHealth,
    none⟩

/-- The anchor of a request had another key once. -/
def renameReqId (runtimeState : PyDict) : PyDict :=
  let reqId := PyValue.get runtimeState "req_id"
  let renamed :=
    if (runtimeState.lookup "request_anchor").isNone && reqId.truthy then
      runtimeState ++ [("request_anchor", reqId)]
    else runtimeState
  renamed.filter fun entry => entry.1 ≠ "req_id"

def submissionFromRecord (record : PyDict) : Option ProviderSubmission := do
  let runtimeState ← RuntimeState.deserialize python
    ((PyValue.get record "runtime_state").or (.dict []))
  let runtimeState ← readDict runtimeState
  let jobId ← requiredText python record "job_id"
  let agentName ← requiredText python record "agent_name"
  let provider ← requiredText python record "provider"
  let acceptedAt ← requiredText python record "accepted_at"
  let readyAt ← requiredText python record "ready_at"
  let sourceKind ← ofValue (← requiredText python record "source_kind")
  let status ← ofValue (textOr python record "status" "incomplete")
  let confidence ← ofValue (textOr python record "confidence" "observed")
  let diagnostics ← readDictOrEmpty (PyValue.get record "diagnostics")
  pure
    { jobId := jobId
      agentName := agentName
      provider := provider
      acceptedAt := acceptedAt
      readyAt := readyAt
      sourceKind := sourceKind
      reply := textOr python record "reply" ""
      status := status
      reason := textOr python record "reason" "in_progress"
      confidence := confidence
      diagnostics := some diagnostics
      runtimeState := renameReqId runtimeState }

/-- The values under a key that an iteration gives, none of them where the key is missing. -/
def iterateKey (record : PyDict) (key : String) : Option (List PyValue) :=
  iterate ((record.lookup key).getD (.list []))

/-- `PersistedExecutionState.from_record` -/
def PersistedExecutionState.fromRecord (record : PyDict) : Option PersistedExecutionState := do
  guard (PyValue.get record "schema_version" matches .int 3)
  guard (PyValue.get record "record_type" matches .str "execution_state")
  let submission ← (← (record.lookup "submission").bind readDict) |> submissionFromRecord python
  let runtimeContext ← readOptional (runtimeContextFromRecord python)
    (PyValue.get record "runtime_context")
  let pendingDecision ← readOptional (decisionFromRecord python)
    (PyValue.get record "pending_decision")
  let pendingItems ← (← iterateKey record "pending_items").mapM fun item =>
    (readDict item).bind (itemFromRecord python)
  let appliedEventSeqs ← (← iterateKey record "applied_event_seqs").mapM python.int
  pure
    { submission := submission
      runtimeContext := runtimeContext
      resumeCapable := (PyValue.get record "resume_capable").truthy
      persistedAt := textOr python record "persisted_at" ""
      pendingDecision := pendingDecision
      pendingItems := pendingItems
      appliedEventSeqs := appliedEventSeqs.toFinset.sort (· ≤ ·) }

end CodexBridge.Execution.StateModels
