import CodexBridge.Providers.Runtime

/-! The Gemini adapter. It has no event log: a poll asks for the last message of the
session and reports it as a snapshot. The prompt is sent once the pane has shown the
same ready prompt for a while. -/

namespace CodexBridge.Providers.Gemini

open Completion Execution

variable (host : Host)

/-! ### Replies -/

def cleanReply (reply reqId : String) : String :=
  if reqId = "" then strip reply
  else
    let extracted :=
      if Protocol.isDoneText reply reqId then strip (Protocol.extractReplyForReq reply reqId)
      else ""
    orElse extracted (strip (Protocol.stripDoneText reply reqId))

/-! ### Hook artifacts -/

def setDefault (payload : Payload) (key : String) (value : Value) : Payload :=
  if (payload.lookup key).isSome then payload else payload ++ [(key, value)]

def hookEventDiagnostics (event : HookEvent) : Payload :=
  let diagnostics := setDefault event.diagnostics "completion_source" (.str "hook_artifact")
  let name := event.fields.get "hook_event_name"
  if name = .null then diagnostics else setDefault diagnostics "hook_event_name" name

def failureDiagnosticsPresent (diagnostics : Payload) : Bool :=
  ["error_type", "error_code", "error_message", "error", "message", "text"].any fun key =>
    strip (host.text diagnostics key) ≠ ""

def hookDecisionReason (status : Status) (diagnostics : Payload) : String :=
  orElse (lower (strip (host.text diagnostics "reason")))
    (match status with
    | .failed =>
      if failureDiagnosticsPresent host diagnostics then "api_error"
      else "hook_after_agent_failure"
    | .cancelled => "hook_after_agent_cancelled"
    | .incomplete => "hook_after_agent_incomplete"
    | .completed => "hook_after_agent")

def fallbackPayloadText (diagnostics : Payload) : String :=
  ((["text", "error_message", "message", "error"].map fun key =>
    strip (host.text diagnostics key)).find? fun text => text ≠ "").getD ""

def hookItemPayload (reqId reply turnRef : String) (status : Status) (hookEventName : Value)
    (diagnostics : Payload) : Payload :=
  let payload : Payload :=
    [("reply", .str reply), ("text", .str (orElse reply (fallbackPayloadText host diagnostics))),
      ("turn_id", .str reqId), ("provider_turn_ref", .str turnRef),
      ("completion_source", .str "hook_artifact"), ("hook_event_name", hookEventName),
      ("status", .str (statusValue status))]
  payload ++ diagnostics.filter fun entry =>
    entry.2 ≠ .null && (payload.lookup entry.1).isNone

/-- `str(event['timestamp'] or now)` -/
def hookTimestamp (event : HookEvent) (now : Active.Now) : Active.Now :=
  let text := host.text event.fields "timestamp"
  if h : text = "" then now else ⟨text, h⟩

def hookResult (sub : Submission) (now : Active.Now) (completionDir requestAnchor reply : String)
    (event : HookEvent) : PollResult :=
  let seq := nextSeq sub.runtimeState
  let turnRef := orElse (host.text event.fields "session_id") requestAnchor
  let diagnostics := hookEventDiagnostics event
  let now := hookTimestamp host event now
  let built := Active.buildItem sub .assistantFinal now seq
    (hookItemPayload host requestAnchor reply turnRef event.status
      (event.fields.get "hook_event_name") diagnostics)
  let cursor := { built.cursor with
    opaqueCursor := some (completionDir ++ "/events/" ++ requestAnchor ++ ".json") }
  { submission := { sub with
      reply := reply
      runtimeState := override sub.runtimeState [("next_seq", .int (seq + 1))] }
    items := [{ built with cursor := cursor }]
    decision := some
      { terminal := true
        status := event.status
        reason := some (hookDecisionReason host event.status diagnostics)
        confidence := some .exact
        reply := reply
        anchorSeen := (sub.runtimeState.get "anchor_emitted").truthy
        replyStarted := reply ≠ ""
        replyStable := reply ≠ ""
        providerTurnRef := some turnRef
        sourceCursor := some cursor
        finishedAt := some now.text
        diagnostics := diagnostics
        wellFormed := ⟨rfl, rfl, rfl⟩ }
    terminal := by
      intro d hd
      rw [Option.mem_some_iff] at hd
      rw [← hd] }

/-- A completed artifact without a reply is not taken. -/
def pollExactHook (sub : Submission) (w : World) : Option PollResult :=
  let completionDir := strip (host.text sub.runtimeState "completion_dir")
  let requestAnchor := Service.requestAnchor host.toLibrary sub
  if completionDir = "" || requestAnchor = "" then none
  else (w.hookEvent completionDir requestAnchor).bind fun event =>
    let reply := strip (host.text event.fields "reply")
    if event.status = .completed ∧ reply = "" then none
    else some (hookResult host sub w.now completionDir requestAnchor reply event)

/-! ### The deferred prompt -/

def looksReady (text : String) : Bool := hasPart "Type your message" text

def withRuntimeState (sub : Submission) (overlay : Payload) : Submission :=
  { sub with runtimeState := override sub.runtimeState overlay }

def readyPromptState (fingerprint seenAt : String) : Payload :=
  [("ready_prompt_fingerprint", .str fingerprint), ("ready_prompt_seen_at", .str seenAt)]

/-- The keys that the sight of the pane changes, and whether the prompt may go out at once:
there is no pane to look at. -/
def observePromptReadiness (sub : Submission) (w : World) : Payload × Bool :=
  match w.paneText with
  | none => ([], true)
  | some text =>
    let fingerprint := host.text sub.runtimeState "ready_prompt_fingerprint"
    let seenAt := host.text sub.runtimeState "ready_prompt_seen_at"
    if looksReady text then
      if strip text ≠ fingerprint ∨ seenAt = "" then
        (readyPromptState (strip text) w.now.text, false)
      else ([], false)
    else if fingerprint ≠ "" ∨ seenAt ≠ "" then (readyPromptState "" "", false)
    else ([], false)

def readyPromptSettled (sub : Submission) (now : Active.Now) : Bool :=
  let seenAt := strip (host.text sub.runtimeState "ready_prompt_seen_at")
  seenAt ≠ "" && (host.elapsed seenAt now.text).any fun elapsed => 3 / 2 ≤ elapsed

def readyWaitTimedOut (sub : Submission) (now : Active.Now) : Bool :=
  let startedAt := strip (host.text sub.runtimeState "ready_wait_started_at")
  let timeout := (host.float (sub.runtimeState.get "ready_timeout_s")).getD 20
  startedAt = "" || match host.elapsed startedAt now.text with
    | none => true
    | some elapsed => max 0 timeout ≤ elapsed

def promptDeliveryDue (sub : Submission) (now : Active.Now) : Bool :=
  (strip (host.text sub.runtimeState "ready_prompt_fingerprint") ≠ "" &&
      readyPromptSettled host sub now) ||
    readyWaitTimedOut host sub now

/-- `bool(runtime_state.get('prompt_sent', True))` -/
def promptSent (sub : Submission) : Bool :=
  match sub.runtimeState.lookup "prompt_sent" with
  | none => true
  | some value => value.truthy

structure Dispatched where
  submission : Submission
  dirty : Bool
  prompt : Option String

def dispatchDeferredPrompt (sub : Submission) (w : World) : Dispatched :=
  if promptSent sub then ⟨sub, false, none⟩
  else
    let observed := observePromptReadiness host sub w
    let updated := withRuntimeState sub observed.1
    if !observed.2 && !promptDeliveryDue host updated w.now then
      ⟨updated, changes sub.runtimeState observed.1, none⟩
    else
      ⟨withRuntimeState updated
          [("prompt_sent", .bool true), ("prompt_sent_at", .str w.now.text)],
        true, some (host.text updated.runtimeState "prompt_text")⟩

/-! ### Session items -/

/-- The session path of a reader state. -/
def stateSessionPath (state : Value) : String := host.statePath state "session_path"

def valueOr (a b : Value) : Value := if a.truthy then a else b

def buildSnapshotItem (sub : Submission) (now : Active.Now) (seq : ℕ)
    (requestAnchor sessionPath : String) (state : Value) (reply cleaned : String) : Item :=
  let counter := fun key => Value.int ((intOf (host.stateGet state key)).getD 0)
  let messageCount := host.stateGet state "msg_count"
  buildItemAt sub .sessionSnapshot now seq
    [("reply", .str cleaned), ("text", .str cleaned), ("content", .str cleaned),
      ("turn_id", .str requestAnchor), ("session_path", orNull sessionPath),
      ("message_count", messageCount), ("message_id", host.stateGet state "last_gemini_id"),
      ("last_updated",
        valueOr (host.stateGet state "mtime_ns") (host.stateGet state "mtime")),
      ("tool_call_count", counter "last_tool_call_count"),
      ("thought_count", counter "last_thought_count"),
      ("done_marker_seen",
        .bool (requestAnchor ≠ "" && Protocol.isDoneText reply requestAnchor))]
    sessionPath ((intOf messageCount).map Int.toNat)

/-- The part of the runtime state that a poll carries along. -/
structure PollState where
  nextSeq : ℕ
  sessionPath : String
  replyBuffer : String
  anchorEmitted : Bool
  items : List Item

def buildPollState (sub : Submission) : PollState :=
  { nextSeq := nextSeq sub.runtimeState
    sessionPath := host.text sub.runtimeState "session_path"
    replyBuffer := host.text sub.runtimeState "reply_buffer"
    anchorEmitted := (sub.runtimeState.get "anchor_emitted").truthy
    items := [] }

def PollState.emit (poll : PollState) (item : Item) : PollState :=
  { poll with items := poll.items ++ [item], nextSeq := poll.nextSeq + 1 }

/-- `build_session_items`: a session change, the anchor once for each session, and the
message. -/
def buildSessionItems (sub : Submission) (now : Active.Now) (requestAnchor : String)
    (reply : Option String) (state : Value) (poll : PollState) : PollState :=
  let newSessionPath := stateSessionPath host state
  let poll :=
    if newSessionPath ≠ "" ∧ newSessionPath ≠ poll.sessionPath then
      { poll.emit (buildItemAt sub .sessionRotate now poll.nextSeq
            [("session_path", .str newSessionPath),
              ("provider_session_id", .str (pathStem newSessionPath))] newSessionPath none) with
        sessionPath := newSessionPath
        replyBuffer := ""
        anchorEmitted := (sub.runtimeState.get "no_wrap").truthy }
    else poll
  let poll :=
    if poll.anchorEmitted then poll
    else
      { poll.emit (buildItemAt sub .anchorSeen now poll.nextSeq
            [("turn_id", .str requestAnchor), ("session_path", orNull poll.sessionPath)]
            poll.sessionPath none) with
        anchorEmitted := true }
  let cleaned := cleanReply (reply.getD "") requestAnchor
  if reply.getD "" = "" ∨ cleaned = "" then poll
  else
    { poll.emit (buildSnapshotItem host sub now poll.nextSeq requestAnchor poll.sessionPath state
          (reply.getD "") cleaned) with
      replyBuffer := cleaned }

/-! ### Polls -/

def polledResult (sub : Submission) (items : List Item) : PollResult :=
  { submission := sub
    items := items
    decision := none
    terminal := PollResult.undecided }

/-- A poll of the session that found nothing new has no result. -/
def readSession (sub : Submission) (dirty : Bool) (w : World) : Option PollResult :=
  let read := w.message (readerState sub)
  let poll := buildSessionItems host sub w.now (Service.requestAnchor host.toLibrary sub) read.1
    read.2 (buildPollState host sub)
  let overlay : Payload :=
    [("state", read.2), ("next_seq", .int poll.nextSeq),
      ("anchor_emitted", .bool poll.anchorEmitted), ("reply_buffer", .str poll.replyBuffer),
      ("session_path", .str poll.sessionPath)]
  if poll.items = [] ∧ dirty = false ∧ poll.replyBuffer = sub.reply ∧
      changes sub.runtimeState overlay = false then none
  else
    some (polledResult { withRuntimeState sub overlay with reply := poll.replyBuffer } poll.items)

/-- The result of a poll, and the prompt if the poll sends it. -/
def pollSubmission (sub : Submission) (w : World) : Option PollResult × Option String :=
  match prepareActivePollWithoutLiveness host sub w with
  | some result => (some result, none)
  | none =>
    let dispatched := dispatchDeferredPrompt host sub w
    let sub := dispatched.submission
    if !promptSent sub then
      ((ensureActivePaneAlive sub w).or
        (if dispatched.dirty then some (polledResult sub []) else none), dispatched.prompt)
    else
      (((pollExactHook host sub w).or (ensureActivePaneAlive sub w)).or
        (readSession host sub dispatched.dirty w), dispatched.prompt)

def poll (sub : Submission) (w : World) : Option PollResult := (pollSubmission host sub w).1

/-! ### Start, export and resume -/

def start (job : Job) (context : Option RuntimeContext) (w : World) : Submission :=
  match prepareActiveStart host job context .sessionSnapshot "missing_gemini_session" w with
  | .error sub => sub
  | .ok prepared =>
    let requestAnchor := strip job.jobId
    activeSubmission job .sessionSnapshot w.now prepared.workDir
      [("mode", .str "active"), ("state", prepared.session.captured),
        ("pane_id", .str prepared.paneId), ("request_anchor", .str requestAnchor),
        ("next_seq", .int 1), ("anchor_emitted", .bool job.noWrap), ("reply_buffer", .str ""),
        ("session_path", .str (stateSessionPath host prepared.session.captured)),
        ("completion_dir", .str prepared.session.completionDir), ("no_wrap", .bool job.noWrap),
        ("prompt_text", .str (if job.noWrap then job.body
          else prepared.session.wrapPrompt job.body requestAnchor)),
        ("prompt_sent", .bool false), ("ready_wait_started_at", .str w.now.text),
        ("ready_timeout_s", prepared.session.readyTimeout),
        ("ready_prompt_fingerprint", .str ""), ("ready_prompt_seen_at", .str "")]

/-- The keys that are exported as they are, `None` when they are missing. -/
def exportedKeys : List String :=
  ["mode", "pane_id", "next_seq", "anchor_emitted", "no_wrap", "reply_buffer", "session_path",
    "completion_dir", "prompt_text", "prompt_sent", "prompt_sent_at", "ready_wait_started_at",
    "ready_timeout_s", "ready_prompt_fingerprint", "ready_prompt_seen_at"]

def exportRuntimeState (sub : Submission) : Payload :=
  [("state", readerState sub),
    ("request_anchor", .str (Service.requestAnchor host.toLibrary sub))] ++
    exportedKeys.map fun key => (key, sub.runtimeState.get key)

def resume (sub : Submission) (context : Option RuntimeContext) (w : World) :
    Option Submission :=
  (resumedSession host sub context w).map fun (_, session, paneId) =>
    let completionDir := orElse (host.text sub.runtimeState "completion_dir") session.completionDir
    { sub with
      runtimeState := override sub.runtimeState
        [("pane_id", .str paneId), ("mode", .str "active"),
          ("session_path", .str (host.text sub.runtimeState "session_path")),
          ("completion_dir", .str completionDir)] }

end CodexBridge.Providers.Gemini
