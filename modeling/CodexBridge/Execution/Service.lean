import Mathlib.Algebra.Order.Floor.Defs
import Mathlib.Data.Finset.Insert
import Mathlib.Data.Rat.Floor
import CodexBridge.Completion.Records

/-! The execution service, seen from one job: every table of the service is keyed
by the job, and every operation reads and writes under its own key only. The
active submission, its runtime context and the replay are in memory; the
persisted execution state is the durable part. What an adapter does is a
parameter, and so is the world its polls read. -/

namespace CodexBridge.Execution

open Completion

/-! ### Submissions and adapters -/

structure RuntimeContext where
  workspacePath : Option String
  backendType : Option String

/-- `ProviderSubmission`, without the handles of a live pane. -/
structure Submission where
  jobId : String
  provider : String
  acceptedAt : String
  readyAt : String
  sourceKind : SourceKind
  reply : String
  status : Status
  reason : String
  confidence : Confidence
  diagnostics : Payload
  runtimeState : Payload

/-- `int(runtime_state.get('next_seq', 1))` -/
def nextSeq (runtimeState : Payload) : ℕ :=
  match runtimeState.lookup "next_seq" with
  | some (.int n) => n.toNat
  | _ => 1

structure PollResult where
  submission : Submission
  items : List Item
  decision : Option Decision
  terminal : ∀ d ∈ decision, d.terminal = true

theorem PollResult.undecided : ∀ d ∈ (none : Option Decision), d.terminal = true := by
  intro d hd
  cases hd

/-- `CompletionReliabilityPolicy`, with the timeout in effect. -/
structure ReliabilityPolicy where
  noTerminalTimeout : ℚ
  primaryAuthority : String
  backendType : Option String
  timeoutStatus : Status
  timeoutReason : String
  timeoutConfidence : Confidence

/-- The exporter and the resume of an adapter may be missing. -/
structure Adapter (World : Type) where
  start : Option RuntimeContext → World → Submission
  poll : Submission → World → Option PollResult
  exportRuntimeState : Option (Submission → Option Payload)
  resume : Option (Submission → Option RuntimeContext → World → Option Submission)
  restoreCapability : Payload
  reliabilityPolicy : Option ReliabilityPolicy

/-- `ProviderExecutionRegistry.get` -/
abbrev Registry (World : Type) := String → Option (Adapter World)

/-- Python's `str` and the arithmetic on timestamps, which may fail to parse. -/
structure Library where
  str : Value → String
  elapsed : String → String → Option ℚ
  deadlineAt : String → ℚ → Option String

/-- `str(value or '')` -/
def Library.textOf (lib : Library) (value : Value) : String :=
  if value.truthy then lib.str value else ""

/-- `a or b`, on texts -/
def orElse (a b : String) : String := if a = "" then b else a

/-- `{**base, **overlay}` -/
def override (base overlay : Payload) : Payload := overlay ++ base

/-! ### Persisted states -/

structure PersistedExecutionState where
  submission : Submission
  runtimeContext : Option RuntimeContext
  resumeCapable : Bool
  pendingDecision : Option Decision
  pendingItems : List Item
  appliedEventSeqs : Finset ℕ

/-- `(item.cursor.event_seq or -1) in applied` -/
def applied (seqs : Finset ℕ) (item : Item) : Bool :=
  match item.cursor.eventSeq with
  | none | some 0 => false
  | some seq => decide (seq ∈ seqs)

def filterPendingItems (persisted : PersistedExecutionState) : List Item :=
  persisted.pendingItems.filter fun item => !applied persisted.appliedEventSeqs item

structure ExecutionUpdate where
  items : List Item
  decision : Option Decision

/-- The tables of the service under one job id, and its state file. -/
structure Service where
  active : Option Submission
  runtimeContext : Option RuntimeContext
  pendingReplay : Option ExecutionUpdate
  store : Option PersistedExecutionState

namespace Service

variable {World : Type} (lib : Library) (registry : Registry World)

/-- What a restart finds: the state file. -/
def restarted (store : Option PersistedExecutionState) : Service := ⟨none, none, none, store⟩

/-- `_state_store.save` -/
def save (sv : Service) (persisted : PersistedExecutionState) : Service :=
  { sv with store := some persisted }

def acknowledge (sv : Service) : Service :=
  let sv := { sv with pendingReplay := none }
  match sv.store with
  | none => sv
  | some persisted => sv.save { persisted with pendingItems := [], appliedEventSeqs := ∅ }

def acknowledgeItem (sv : Service) (eventSeq : Option ℕ) : Service :=
  match eventSeq, sv.store with
  | some seq, some persisted =>
    if persisted.pendingItems = [] then sv
    else sv.save { persisted with appliedEventSeqs := insert seq persisted.appliedEventSeqs }
  | _, _ => sv

def finish (sv : Service) : Service :=
  { sv with active := none, runtimeContext := none, pendingReplay := none, store := none }

/-- The keys of the reliability monitor are kept whatever the adapter exports. -/
def withReliabilityState (runtimeState sourceState : Payload) : Payload :=
  override runtimeState (sourceState.filter fun entry => "reliability_".toList <+: entry.1.toList)

/-- What the adapter exports of a submission, if it does. -/
def exported (adapter : Option (Adapter World)) (submission : Submission) : Option Payload :=
  adapter.bind fun adapter =>
    adapter.exportRuntimeState.bind fun exporter => exporter submission

def persistedState (submission : Submission) (context : Option RuntimeContext)
    (decision : Option Decision) (items : List Item) (seqs : Finset ℕ) :
    PersistedExecutionState :=
  let adapter := registry submission.provider
  let exportedState := exported adapter submission
  { submission := { submission with
      diagnostics := override submission.diagnostics
        ((adapter.map Adapter.restoreCapability).getD [])
      runtimeState := withReliabilityState (exportedState.getD []) submission.runtimeState }
    runtimeContext := context
    resumeCapable := exportedState.isSome && adapter.any fun adapter => adapter.resume.isSome
    pendingDecision := decision
    pendingItems := items
    appliedEventSeqs := seqs }

def persistSubmission (sv : Service) (decision : Option Decision) (items : List Item)
    (seqs : Finset ℕ) : Service :=
  match sv.active with
  | none => sv
  | some submission =>
    sv.save (persistedState registry submission sv.runtimeContext decision items seqs)

def start (sv : Service) (provider : String) (context : Option RuntimeContext) (w : World) :
    Service :=
  match registry provider with
  | none => sv
  | some adapter =>
    persistSubmission registry
      { sv with active := some (adapter.start context w), runtimeContext := context } none [] ∅

/-! ### Reliability -/

/-- `_SEMANTIC_PROGRESS_ITEM_KINDS` -/
def semanticProgress : ItemKind → Bool
  | .sessionSnapshot | .sessionMutation | .sessionRotate => false
  | _ => true

def semanticProgressMarker (sub : Submission) :
    (String × Status × String × Confidence) × Bool × List String :=
  ((sub.reply, sub.status, sub.reason, sub.confidence),
    (sub.runtimeState.get "anchor_seen").truthy || (sub.runtimeState.get "anchor_emitted").truthy,
    ["bound_turn_id", "bound_task_id", "reply_buffer", "last_agent_message", "last_final_answer",
      "last_assistant_message", "last_assistant_signature", "session_path"].map
        fun key => lib.textOf (sub.runtimeState.get key))

def hasReliabilityProgress (result : PollResult) (previous : Submission) : Bool :=
  (result.items.any fun item => semanticProgress item.kind) || result.decision.isSome ||
    decide (semanticProgressMarker lib result.submission ≠ semanticProgressMarker lib previous)

def withLastProgressAt (sub : Submission) (at_ : String) : Submission :=
  if strip (lib.textOf (sub.runtimeState.get "reliability_last_progress_at")) = at_ then sub
  else { sub with
    runtimeState := override sub.runtimeState [("reliability_last_progress_at", .str at_)] }

def applyReliabilityProgress (result : PollResult) (previous : Submission) (now : String) :
    PollResult :=
  if hasReliabilityProgress lib result previous then
    { result with submission := withLastProgressAt lib result.submission now }
  else result

def lastProgressTimestamp (sub : Submission) : String :=
  orElse (strip (lib.textOf (sub.runtimeState.get "reliability_last_progress_at")))
    (strip (orElse sub.readyAt sub.acceptedAt))

def timeoutElapsed (startedAt now : String) (timeout : ℚ) : Bool :=
  startedAt ≠ "" && (lib.elapsed startedAt now).any fun elapsed => max 0 timeout ≤ elapsed

/-- `request_anchor_from_runtime_state` -/
def requestAnchor (sub : Submission) : String :=
  let first := lib.textOf (sub.runtimeState.get "request_anchor")
  let second := lib.textOf (sub.runtimeState.get "req_id")
  strip (orElse first (orElse second sub.jobId))

def buildTimeoutResult (sub : Submission) (now : String) (lastProgressAt : String)
    (policy : ReliabilityPolicy) : PollResult :=
  let timeout : Value :=
    .float (some ⌊policy.noTerminalTimeout⌋) (decide (policy.noTerminalTimeout ≠ 0))
  let deadline := if lastProgressAt = "" then none
    else lib.deadlineAt lastProgressAt policy.noTerminalTimeout
  let diagnostics := override sub.diagnostics
    [("completion_primary_authority", .str policy.primaryAuthority),
      ("completion_last_progress_at", .str lastProgressAt),
      ("completion_timeout_s", timeout),
      ("completion_timeout_deadline_at", (deadline.map Value.str).getD .null),
      ("completion_reliability_reason", .str policy.timeoutReason),
      ("completion_fallback_source", .str "execution_reliability_monitor")]
  { submission := { sub with
      status := policy.timeoutStatus
      reason := policy.timeoutReason
      confidence := policy.timeoutConfidence
      diagnostics := diagnostics
      runtimeState := override sub.runtimeState
        [("reliability_last_progress_at", .str lastProgressAt),
          ("reliability_timeout_s", timeout),
          ("reliability_timeout_deadline_at", .str (deadline.getD "")),
          ("reliability_terminalized_at", .str now)] }
    items := []
    decision := some
      { terminal := true
        status := policy.timeoutStatus
        reason := some policy.timeoutReason
        confidence := some policy.timeoutConfidence
        reply := sub.reply
        anchorSeen := (sub.runtimeState.get "anchor_seen").truthy ||
          (sub.runtimeState.get "anchor_emitted").truthy
        replyStarted := sub.reply ≠ ""
        replyStable := sub.reply ≠ ""
        providerTurnRef := some (orElse (requestAnchor lib sub) sub.jobId)
        sourceCursor := none
        finishedAt := some now
        diagnostics := diagnostics
        wellFormed := ⟨rfl, rfl, rfl⟩ }
    terminal := by
      intro d hd
      rw [Option.mem_some_iff] at hd
      rw [← hd] }

def timeoutPollResult (adapter : Adapter World) (context : Option RuntimeContext)
    (sub : Submission) (now : String) : Option PollResult :=
  adapter.reliabilityPolicy.bind fun policy =>
    let backendType := (context.bind RuntimeContext.backendType).map fun text => lower (strip text)
    if policy.backendType.isSome ∧ policy.backendType ≠ backendType then none
    else if policy.noTerminalTimeout ≤ 0 then none
    else if timeoutElapsed lib (lastProgressTimestamp lib sub) now policy.noTerminalTimeout then
      some (buildTimeoutResult lib sub now (lastProgressTimestamp lib sub) policy)
    else none

/-! ### Polling -/

/-- The result of a poll with the reliability monitor over it. -/
def monitoredPoll (adapter : Adapter World) (context : Option RuntimeContext) (sub : Submission)
    (w : World) (now : String) : Option PollResult :=
  match adapter.poll sub w with
  | none => timeoutPollResult lib adapter context sub now
  | some polled =>
    let result := applyReliabilityProgress lib polled sub now
    if result.decision.isSome then some result
    else some ((timeoutPollResult lib adapter context result.submission now).getD result)

def processActiveJob (sv : Service) (sub : Submission) (w : World) (now : String) :
    Service × Option ExecutionUpdate :=
  match registry sub.provider with
  | none => ({ sv with active := none }, none)
  | some adapter =>
    match monitoredPoll lib adapter sv.runtimeContext sub w now with
    | none => (sv, none)
    | some result =>
      let polled := persistSubmission registry { sv with active := some result.submission }
        result.decision result.items ∅
      if result.items = [] ∧ result.decision = none then (polled, none)
      else
        (if result.decision.isSome then { polled with active := none, runtimeContext := none }
          else polled,
          some ⟨result.items, result.decision⟩)

/-- A replay comes before the next poll of the adapter; a terminal one of a job that is
not active stays until the job is finished. -/
def poll (sv : Service) (w : World) (now : String) : Service × Option ExecutionUpdate :=
  match sv.pendingReplay with
  | some update =>
    if update.decision.any Decision.terminal && sv.active.isNone then (sv, some update)
    else ({ sv with pendingReplay := none }, some update)
  | none =>
    match sv.active with
    | none => (sv, none)
    | some sub => processActiveJob lib registry sv sub w now

/-! ### Restore -/

inductive RestoreStatus where
  | restored | terminalPending | replayPending | missing | abandoned
  deriving DecidableEq

structure ExecutionRestoreResult where
  status : RestoreStatus
  reason : String
  resumeCapable : Bool
  pendingItemsCount : ℕ
  decision : Option Decision

def ExecutionRestoreResult.restored (result : ExecutionRestoreResult) : Bool :=
  result.status = .restored || result.status = .terminalPending || result.status = .replayPending

/-- `abandon_restore`: the state file is removed. -/
def abandonRestore (sv : Service) (reason : String) (resumeCapable : Bool)
    (pendingItemsCount : ℕ) : Service × ExecutionRestoreResult :=
  ({ sv with store := none }, ⟨.abandoned, reason, resumeCapable, pendingItemsCount, none⟩)

/-- `resume_or_result`: the submission, or why there is none. -/
def resumeOrReason (adapter : Adapter World) (persisted : PersistedExecutionState)
    (context : Option RuntimeContext) (w : World) : Except String Submission :=
  match adapter.resume with
  | none => .error "provider_resume_unsupported"
  | some resume =>
    if !persisted.resumeCapable then .error "provider_resume_unsupported"
    else
      match resume persisted.submission context w with
      | none => .error "provider_resume_rejected"
      | some submission => .ok submission

/-- A replay of the unapplied items is set up before the adapter is asked to resume. -/
def recoverPendingItems (sv : Service) (persisted : PersistedExecutionState) : Service :=
  if filterPendingItems persisted = [] then sv
  else { sv with
    pendingReplay := some ⟨filterPendingItems persisted, persisted.pendingDecision⟩ }

def persistRestoredSubmission (sv : Service) (submission : Submission)
    (context : Option RuntimeContext) (persisted : PersistedExecutionState) : Service :=
  persistSubmission registry { sv with active := some submission, runtimeContext := context }
    persisted.pendingDecision (filterPendingItems persisted) persisted.appliedEventSeqs

def restoredResult (items : List Item) : ExecutionRestoreResult :=
  { status := if items = [] then .restored else .replayPending
    reason := if items = [] then "provider_resumed" else "pending_items_recovered"
    resumeCapable := true
    pendingItemsCount := items.length
    decision := none }

def restoreSubmission (sv : Service) (provider : String) (context : Option RuntimeContext)
    (w : World) : Service × ExecutionRestoreResult :=
  if sv.active.isSome then (sv, ⟨.restored, "already_active", true, 0, none⟩)
  else
    match registry provider with
    | none => sv.abandonRestore "adapter_missing" false 0
    | some adapter =>
      match sv.store with
      | none => (sv, ⟨.missing, "state_missing", false, 0, none⟩)
      | some persisted =>
        if persisted.submission.provider ≠ provider then
          sv.abandonRestore "provider_mismatch" persisted.resumeCapable
            persisted.pendingItems.length
        else
          let items := filterPendingItems persisted
          let recovered := sv.recoverPendingItems persisted
          if persisted.pendingDecision.isSome ∧ items = [] then
            (recovered, ⟨.terminalPending, "terminal_decision_recovered", persisted.resumeCapable,
              0, persisted.pendingDecision⟩)
          else
            let restoredContext := context.or persisted.runtimeContext
            match resumeOrReason adapter persisted restoredContext w with
            | .error reason =>
              recovered.abandonRestore reason persisted.resumeCapable items.length
            | .ok submission =>
              (recovered.persistRestoredSubmission registry submission restoredContext persisted,
                restoredResult items)

end Service

end CodexBridge.Execution
