import CodexBridge.Completion.Records

/-! The completion detectors, one for each family. A detector consumes items, is
ticked, and may be timed out; its state is what it has seen of the turn and its
decision is what it says about it. -/

namespace CodexBridge.Completion

inductive Family where
  | protocolTurn | sessionBoundary | structuredResult | terminalTextQuiet
  | anchoredSessionStability
  deriving DecidableEq

/-- A `datetime`: its reading in microseconds, that of UTC if it has an offset. -/
structure Datetime where
  micros : ℤ
  aware : Bool

/-- The library functions that the detectors call: the text digest, `int` of a text and
`datetime.fromisoformat`. The settle window is in microseconds. -/
structure Library where
  fingerprintText : List Value → String
  intOfText : String → Option ℤ
  fromisoformat : String → Option Datetime
  settleWindow : ℤ

def parseTimestamp (lib : Library) (value : String) : Option Datetime :=
  lib.fromisoformat (String.ofList (value.toList.flatMap fun c =>
    if c = 'Z' then "+00:00".toList else [c]))

/-- `seconds_between`, in microseconds: there is no difference between a reading of UTC and
one without an offset. -/
def microsBetween (lib : Library) (start stop : String) : Option ℤ :=
  match parseTimestamp lib stop, parseTimestamp lib start with
  | some stop, some start =>
    if stop.aware = start.aware then some (stop.micros - start.micros) else none
  | _, _ => none

/-- `CompletionState` -/
structure State where
  anchorSeen : Bool
  replyStarted : Bool
  replyStable : Bool
  toolActive : Bool
  subagentActivitySeen : Bool
  lastReplyHash : Option String
  lastReplyAt : Option String
  stableSince : Option String
  providerTurnRef : Option String
  latestCursor : Option Cursor
  terminal : Bool

structure Detector where
  state : State
  decision : Decision

namespace Detector

/-! ### Shared parts -/

def bind (baseline : Cursor) : Detector :=
  { state :=
      { anchorSeen := false
        replyStarted := false
        replyStable := false
        toolActive := false
        subagentActivitySeen := false
        lastReplyHash := none
        lastReplyAt := none
        stableSince := none
        providerTurnRef := none
        latestCursor := some baseline
        terminal := false }
    decision := Decision.pending (some baseline) }

def syncCursor (s : State) : Option Cursor → State
  | none => s
  | some cursor => { s with latestCursor := some cursor }

def consumeKind (s : State) : ItemKind → State
  | .anchorSeen => { s with anchorSeen := true }
  | .toolCall => { s with toolActive := true }
  | .toolResult => { s with toolActive := false }
  | .sessionRotate =>
    { s with
      anchorSeen := false
      replyStarted := false
      replyStable := false
      toolActive := false
      lastReplyHash := none
      lastReplyAt := none
      stableSince := none }
  | _ => s

def consumeCommonItem (s : State) (item : Item) : State :=
  let s := consumeKind (syncCursor s (some item.cursor)) item.kind
  let s := if (firstNonEmpty item.payload ["subagent_id", "subagent_name"]).isSome then
      { s with subagentActivitySeen := true }
    else s
  match firstNonEmpty item.payload
      ["turn_id", "provider_turn_ref", "message_id", "provider_session_id", "session_id"] with
  | none => s
  | some ref => { s with providerTurnRef := some ref }

def recordReply (lib : Library) (s : State) (item : Item) (text : String) (stable : Bool)
    (fingerprint : Option String) : State :=
  if strip text = "" then s
  else
    { s with
      replyStarted := true
      lastReplyHash := some (fingerprint.getD (lib.fingerprintText [.str (strip text)]))
      lastReplyAt := some item.timestamp
      replyStable := stable }

/-- A reply that is there is recorded. -/
def noteReply (lib : Library) (s : State) (item : Item) (reply : Option String) (stable : Bool) :
    State :=
  match reply with
  | none => s
  | some text => recordReply lib s item text stable none

def terminalDiagnosticsFromItem (item : Item) : Payload :=
  item.payload.filter fun entry =>
    !(["reply", "content", "final_answer", "result_text", "last_agent_message"].contains entry.1)

def setTerminal (s : State) (status : Status) (reason : String) (confidence : Confidence)
    (finishedAt : String) (reply : String) (diagnostics : Payload) : Detector :=
  { state := { s with terminal := true }
    decision :=
      { terminal := true
        status := status
        reason := some reason
        confidence := some confidence
        reply := reply
        anchorSeen := s.anchorSeen
        replyStarted := s.replyStarted
        replyStable := s.replyStable
        providerTurnRef := s.providerTurnRef
        sourceCursor := s.latestCursor
        finishedAt := some finishedAt
        diagnostics := diagnostics
        wellFormed := ⟨rfl, rfl, rfl⟩ } }

def setPending (s : State) : Detector :=
  { state := s
    decision :=
      { Decision.pending s.latestCursor with
        anchorSeen := s.anchorSeen
        replyStarted := s.replyStarted
        replyStable := s.replyStable
        providerTurnRef := s.providerTurnRef } }

def terminalStatusFromAbort (payload : Payload) : Status :=
  match lower (strip (payload.get "status").words) with
  | "completed" => .completed
  | "cancelled" => .cancelled
  | "failed" => .failed
  | "incomplete" => .incomplete
  | _ =>
    let reason := lower (strip (payload.get "reason").words)
    if hasPart "cancel" reason || hasPart "abort" reason then .cancelled else .failed

/-! ### Protocol turns -/

def failTerminal (s : State) (item : Item) (reason : String) : Detector :=
  setTerminal s .failed reason .degraded item.timestamp "" (terminalDiagnosticsFromItem item)

def protocolTurnIngest (lib : Library) (d : Detector) (item : Item) : Detector :=
  let s := consumeCommonItem d.state item
  match item.kind with
  | .assistantChunk | .assistantFinal | .result =>
    let text := firstNonEmpty item.payload
      ["last_agent_message", "final_answer", "reply", "result_text", "text"]
    setPending (noteReply lib s item text false)
  | .turnBoundary =>
    let reply := firstNonEmpty item.payload
      ["last_agent_message", "final_answer", "reply", "text"]
    setTerminal (noteReply lib s item reply true) .completed
      ((firstNonEmpty item.payload ["reason", "completion_reason"]).getD "task_complete") .exact
      item.timestamp (reply.getD "") []
  | .turnAborted =>
    let reply := firstNonEmpty item.payload ["last_agent_message", "reply", "text"]
    setTerminal (noteReply lib s item reply true) (terminalStatusFromAbort item.payload)
      ((firstNonEmpty item.payload ["reason"]).getD "turn_aborted") .exact item.timestamp
      (reply.getD "") (terminalDiagnosticsFromItem item)
  | .error =>
    failTerminal s item ((firstNonEmpty item.payload ["reason", "error"]).getD "transport_error")
  | .paneDead => failTerminal s item ((firstNonEmpty item.payload ["reason"]).getD "pane_dead")
  | _ => setPending s

/-! ### Session boundaries -/

def sessionBoundaryIngest (lib : Library) (d : Detector) (item : Item) : Detector :=
  let s := consumeCommonItem d.state item
  match item.kind with
  | .assistantChunk | .assistantFinal =>
    let text := firstNonEmpty item.payload ["text", "reply", "last_agent_message"]
    setPending (noteReply lib s item text false)
  | .turnBoundary =>
    let reply := firstNonEmpty item.payload ["last_agent_message", "reply", "text"]
    setTerminal (noteReply lib s item reply true) .completed
      ((firstNonEmpty item.payload ["reason", "completion_reason"]).getD "turn_duration") .observed
      item.timestamp (reply.getD "") []
  | .error =>
    setTerminal s .failed ((firstNonEmpty item.payload ["reason", "error"]).getD "api_error")
      .observed item.timestamp "" (terminalDiagnosticsFromItem item)
  | .paneDead =>
    setTerminal s .failed ((firstNonEmpty item.payload ["reason"]).getD "pane_dead") .degraded
      item.timestamp "" (terminalDiagnosticsFromItem item)
  | _ => setPending s

/-! ### Structured results -/

def terminalFromItem (s : State) (item : Item) (status : Status) (reason : String)
    (confidence : Confidence) : Detector :=
  setTerminal s status reason confidence item.timestamp "" (terminalDiagnosticsFromItem item)

def structuredResultIngest (lib : Library) (d : Detector) (item : Item) : Detector :=
  let s := consumeCommonItem d.state item
  match item.kind with
  | .assistantChunk | .assistantFinal =>
    let text := firstNonEmpty item.payload ["reply", "final_answer", "text"]
    setPending (noteReply lib s item text false)
  | .result =>
    let reply := firstNonEmpty item.payload ["reply", "result_text", "final_answer", "text"]
    setTerminal (noteReply lib s item reply true) .completed
      ((firstNonEmpty item.payload ["reason", "completion_reason"]).getD "stream_result") .exact
      item.timestamp (reply.getD "") []
  | .cancelInfo =>
    terminalFromItem s item .cancelled
      ((firstNonEmpty item.payload ["reason"]).getD "cancel_info") .exact
  | .turnAborted =>
    terminalFromItem s item (terminalStatusFromAbort item.payload)
      ((firstNonEmpty item.payload ["reason"]).getD "turn_aborted") .exact
  | .error =>
    terminalFromItem s item .failed
      ((firstNonEmpty item.payload ["reason", "error"]).getD "transport_error") .exact
  | .paneDead =>
    terminalFromItem s item .failed
      ((firstNonEmpty item.payload ["reason"]).getD "pane_dead") .degraded
  | _ => setPending s

/-! ### Quiet terminal text -/

def terminalTextQuietIngest (lib : Library) (d : Detector) (item : Item) : Detector :=
  let s := consumeCommonItem d.state item
  match item.kind with
  | .assistantChunk | .assistantFinal | .result =>
    let reply := firstNonEmpty item.payload ["reply", "result_text", "final_answer", "text"]
    let s := noteReply lib s item reply false
    if (item.payload.get "done_marker").truthy || (item.payload.get "ccb_done").truthy then
      setTerminal s .completed "terminal_done_marker" .degraded item.timestamp (reply.getD "") []
    else setPending s
  | .cancelInfo =>
    setTerminal s .cancelled ((firstNonEmpty item.payload ["reason"]).getD "cancel_info")
      .degraded item.timestamp "" []
  | .error =>
    setTerminal s .failed ((firstNonEmpty item.payload ["reason", "error"]).getD "transport_error")
      .degraded item.timestamp "" []
  | .paneDead =>
    setTerminal s .failed ((firstNonEmpty item.payload ["reason"]).getD "pane_dead") .degraded
      item.timestamp "" []
  | _ => setPending s

/-! ### Anchored session stability -/

/-- `int(value) > 0`, or the truth value where there is no such integer. -/
def positiveCount (lib : Library) (value : Value) : Bool :=
  let integer : Option ℤ := match value with
    | .bool b => some b.toInt
    | .int n => some n
    | .float integer _ => integer
    | .str s => lib.intOfText s
    | .null | .container _ _ => none
  match integer with
  | some n => n > 0
  | none => value.truthy

/-- Another fingerprint than the last one starts the settle window again. -/
def observeReply (lib : Library) (s : State) (item : Item) (reply : String) : State :=
  let fingerprint := lib.fingerprintText
    [.str ((firstNonEmpty item.payload ["message_id"]).getD ""), .str reply,
      item.payload.get "message_count", item.payload.get "last_updated"]
  if some fingerprint = s.lastReplyHash then s
  else
    { recordReply lib s item reply false (some fingerprint) with
      stableSince := some item.timestamp }

def anchoredSessionStabilityIngest (lib : Library) (d : Detector) (item : Item) : Detector :=
  let s := consumeCommonItem d.state item
  match item.kind with
  | .cancelInfo =>
    setTerminal s .cancelled ((firstNonEmpty item.payload ["reason"]).getD "cancel_info")
      .observed item.timestamp "" []
  | .sessionSnapshot | .sessionMutation =>
    let toolCalls := item.payload.get "tool_call_count"
    let s := if toolCalls = .null then s
      else { s with toolActive := positiveCount lib toolCalls }
    match firstNonEmpty item.payload ["reply", "content", "text"] with
    | some reply => setPending (observeReply lib s item reply)
    | none => setPending s
  | .error =>
    setTerminal s .failed ((firstNonEmpty item.payload ["reason", "error"]).getD "session_corrupt")
      .observed item.timestamp "" []
  | .paneDead =>
    setTerminal s .failed ((firstNonEmpty item.payload ["reason"]).getD "pane_dead") .degraded
      item.timestamp "" []
  | _ => setPending s

/-! ### The operations of a detector -/

def ingest (lib : Library) : Family → Detector → Item → Detector
  | .protocolTurn => protocolTurnIngest lib
  | .sessionBoundary => sessionBoundaryIngest lib
  | .structuredResult => structuredResultIngest lib
  | .terminalTextQuiet => terminalTextQuietIngest lib
  | .anchoredSessionStability => anchoredSessionStabilityIngest lib

/-- Timestamps that do not compare end the tick after the cursor is taken over. -/
def settle (lib : Library) (d : Detector) (now : String) : Detector :=
  match d.state.stableSince with
  | none => d
  | some since =>
    if d.decision.terminal || !d.state.replyStarted then d
    else if d.state.toolActive then setPending d.state
    else
      match microsBetween lib since now with
      | none => d
      | some elapsed =>
        if lib.settleWindow ≤ elapsed then
          setTerminal { d.state with replyStable := true } .completed "session_reply_stable"
            .observed now "" []
        else setPending d.state

def tick (lib : Library) (family : Family) (d : Detector) (now : String)
    (cursor : Option Cursor) : Detector :=
  let d := { d with state := syncCursor d.state cursor }
  match family with
  | .anchoredSessionStability => settle lib d now
  | _ => d

def finalizeTimeout (family : Family) (d : Detector) (now : String) (cursor : Option Cursor) :
    Detector :=
  if d.decision.terminal then d
  else
    let s := syncCursor d.state cursor
    if family = .terminalTextQuiet ∧ s.replyStarted then
      setTerminal s .completed "terminal_quiet" .degraded now "" []
    else setTerminal s .incomplete "timeout" .degraded now "" []

end Detector

end CodexBridge.Completion
