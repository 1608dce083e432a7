import CodexBridge.Providers.Runtime

/-! The Claude adapter. A poll sends the prompt once the pane is ready for it, looks
for a hook artifact, and then reads the session log the way the Codex adapter does;
a system event can end the job at once. -/

namespace CodexBridge.Providers.Claude

open Completion Execution

variable (host : Host)

/-! ### The parsing state -/

structure PollState where
  requestAnchor : String
  nextSeq : ℕ
  anchorSeen : Bool
  replyBuffer : String
  rawBuffer : String
  sessionPath : String
  lastAssistantUuid : String
  items : List Item
  reachedTurnBoundary : Bool

def buildPollState (sub : Submission) : PollState :=
  let field := host.text sub.runtimeState
  { requestAnchor := Service.requestAnchor host.toLibrary sub
    nextSeq := nextSeq sub.runtimeState
    anchorSeen := (sub.runtimeState.get "anchor_seen").truthy
    replyBuffer := field "reply_buffer"
    rawBuffer := field "raw_buffer"
    sessionPath := field "session_path"
    lastAssistantUuid := field "last_assistant_uuid"
    items := []
    reachedTurnBoundary := false }

/-- An item with the next number. -/
def PollState.emit (poll : PollState) (sub : Submission) (now : Active.Now) (kind : ItemKind)
    (payload : Payload) : PollState :=
  { poll with
    items := poll.items ++ [Active.buildItem sub kind now poll.nextSeq payload]
    nextSeq := poll.nextSeq + 1 }

def applySessionRotation (sub : Submission) (now : Active.Now) (poll : PollState)
    (newSessionPath : String) : PollState :=
  if newSessionPath = "" || newSessionPath = poll.sessionPath then poll
  else
    { poll.emit sub now .sessionRotate
        [("session_path", .str newSessionPath),
          ("provider_session_id", .str (pathStem newSessionPath))] with
      sessionPath := newSessionPath
      anchorSeen := (sub.runtimeState.get "no_wrap").truthy
      replyBuffer := ""
      rawBuffer := ""
      lastAssistantUuid := "" }

/-! ### User and assistant events -/

def handleUserEvent (sub : Submission) (now : Active.Now) (poll : PollState) (text : String) :
    PollState :=
  if Protocol.carriesAnchor poll.requestAnchor text && !poll.anchorSeen then
    { poll.emit sub now .anchorSeen [("turn_id", .str poll.requestAnchor)] with
      anchorSeen := true }
  else poll

def appendBuffer (buffer text : String) : String :=
  if buffer = "" then text else strip (buffer ++ "\n" ++ text)

def cleanedAssistantText (text requestAnchor : String) : String :=
  if requestAnchor = "" then text else Protocol.stripDoneText text requestAnchor

/-- A subagent's chunk does not move the uuid that a turn boundary refers to. -/
def appendChunkItem (sub : Submission) (now : Active.Now) (poll : PollState) (event : LogEvent)
    (cleaned : String) : PollState :=
  let subagentId := strip (host.text event.fields "subagent_id")
  let subagentName := strip (host.text event.fields "subagent_name")
  let uuid := strip (host.text event.fields "uuid")
  let isSubagent := subagentId ≠ "" || subagentName ≠ ""
  let poll := { poll with
    replyBuffer := appendBuffer poll.replyBuffer cleaned
    lastAssistantUuid :=
      if isSubagent then poll.lastAssistantUuid else orElse uuid poll.lastAssistantUuid }
  poll.emit sub now .assistantChunk
    [("text", .str cleaned), ("merged_text", .str poll.replyBuffer),
      ("turn_id", .str poll.requestAnchor), ("session_path", orNull poll.sessionPath),
      ("assistant_uuid", orNull (orElse uuid poll.lastAssistantUuid)),
      ("subagent_id", orNull subagentId), ("subagent_name", orNull subagentName),
      ("stop_reason", event.fields.get "stop_reason")]

def maybeAppendTurnBoundary (sub : Submission) (now : Active.Now) (poll : PollState) :
    PollState :=
  if poll.requestAnchor = "" || !Protocol.isDoneText poll.rawBuffer poll.requestAnchor then poll
  else
    let reply := orElse (Protocol.extractBegunReply poll.rawBuffer poll.requestAnchor)
      poll.replyBuffer
    { poll.emit sub now .turnBoundary
        [("reason", .str "task_complete"), ("last_agent_message", .str reply),
          ("turn_id", .str poll.requestAnchor), ("session_path", orNull poll.sessionPath),
          ("assistant_uuid", orNull poll.lastAssistantUuid)] with
      reachedTurnBoundary := true }

def handleAssistantEvent (sub : Submission) (now : Active.Now) (poll : PollState)
    (event : LogEvent) : PollState :=
  let text := host.text event.fields "text"
  let poll := { poll with rawBuffer := appendBuffer poll.rawBuffer text }
  let cleaned := cleanedAssistantText text poll.requestAnchor
  let poll := if strip cleaned = "" then poll else appendChunkItem host sub now poll event cleaned
  maybeAppendTurnBoundary sub now poll

/-! ### System events -/

/-- `normalized_text` of a field -/
def normalized (event : LogEvent) (key : String) : String :=
  lower (strip (host.text event.fields key))

structure ApiError where
  message : String
  errorCode : String
  errorPath : String
  retryAttempt : ℤ
  maxRetries : ℤ
  timestamp : String

def buildApiErrorMessage (errorCode errorPath : String) : String :=
  "Claude API request failed" ++ (if errorCode = "" then "" else " code=" ++ errorCode) ++
    if errorPath = "" then "" else " path=" ++ errorPath

/-- An API error is terminal once its retries are used up. -/
def exhaustedRetryState (event : LogEvent) : Option (ℤ × ℤ) :=
  match intOf (event.entry.get "retryAttempt"), intOf (event.entry.get "maxRetries") with
  | some attempt, some limit => if limit ≤ 0 ∨ attempt < limit then none else some (attempt, limit)
  | _, _ => none

def terminalApiErrorPayload (event : LogEvent) : Option ApiError :=
  if normalized host event "entry_type" = "system" ∧ normalized host event "subtype" = "api_error"
  then
    (exhaustedRetryState event).map fun (attempt, limit) =>
      let errorCode := strip (host.text event.cause "code")
      let errorPath := strip (host.text event.cause "path")
      { message := buildApiErrorMessage errorCode errorPath
        errorCode := errorCode
        errorPath := errorPath
        retryAttempt := attempt
        maxRetries := limit
        timestamp := host.text event.entry "timestamp" }
  else none

def isTurnBoundaryEvent (event : LogEvent) (lastAssistantUuid : String) : Bool :=
  normalized host event "entry_type" = "system" &&
    normalized host event "subtype" = "turn_duration" && lastAssistantUuid ≠ "" &&
    strip (host.text event.fields "parent_uuid") = lastAssistantUuid

def writtenBack (poll : PollState) (state : Value) : Payload :=
  [("state", state), ("next_seq", .int poll.nextSeq), ("anchor_seen", .bool poll.anchorSeen),
    ("reply_buffer", .str poll.replyBuffer), ("raw_buffer", .str poll.rawBuffer),
    ("session_path", .str poll.sessionPath),
    ("last_assistant_uuid", .str poll.lastAssistantUuid)]

/-- `str(api_error['timestamp'] or now)`, as a clock reading. -/
def ApiError.at (apiError : ApiError) (now : Active.Now) : Active.Now :=
  if h : apiError.timestamp = "" then now else ⟨apiError.timestamp, h⟩

def apiErrorItem (sub : Submission) (now : Active.Now) (poll : PollState) (apiError : ApiError) :
    Item :=
  Active.buildItem sub .error (apiError.at now) poll.nextSeq
    [("reason", .str "api_error"), ("turn_id", .str poll.requestAnchor),
      ("session_path", orNull poll.sessionPath), ("message", .str apiError.message),
      ("error_code", orNull apiError.errorCode), ("error_path", orNull apiError.errorPath),
      ("retry_attempt", .int apiError.retryAttempt), ("max_retries", .int apiError.maxRetries),
      ("timestamp", .str apiError.timestamp)]

/-- The result of a poll that meets a terminal API error: one more item, and the job has
failed. -/
def apiErrorResult (sub : Submission) (now : Active.Now) (poll : PollState) (apiError : ApiError)
    (state : Value) : PollResult :=
  let item := apiErrorItem sub now poll apiError
  { submission := { sub with
      reply := poll.replyBuffer
      runtimeState := override sub.runtimeState
        (("mode", .str "passive") ::
          writtenBack { poll with nextSeq := poll.nextSeq + 1 } state) }
    items := poll.items ++ [item]
    decision := some
      { terminal := true
        status := .failed
        reason := some "api_error"
        confidence := some .observed
        reply := poll.replyBuffer
        anchorSeen := poll.anchorSeen
        replyStarted := poll.replyBuffer ≠ ""
        replyStable := poll.replyBuffer ≠ ""
        providerTurnRef :=
          let ref := orElse poll.requestAnchor poll.sessionPath
          if ref = "" then none else some ref
        sourceCursor := some { item.cursor with
          sessionPath := if poll.sessionPath = "" then none else some poll.sessionPath }
        finishedAt := some (apiError.at now).text
        diagnostics :=
          [("error_code", orNull apiError.errorCode), ("error_path", orNull apiError.errorPath),
            ("retry_attempt", .int apiError.retryAttempt),
            ("max_retries", .int apiError.maxRetries),
            ("error_type", .str "provider_api_error")]
        wellFormed := ⟨rfl, rfl, rfl⟩ }
    terminal := by
      intro d hd
      rw [Option.mem_some_iff] at hd
      rw [← hd] }

/-- The reply of a boundary event is the reply so far. -/
def handleSystemEvent (sub : Submission) (now : Active.Now) (poll : PollState) (event : LogEvent)
    (state : Value) : Except PollResult PollState :=
  match terminalApiErrorPayload host event with
  | some apiError => .error (apiErrorResult sub now poll apiError state)
  | none =>
    if isTurnBoundaryEvent host event poll.lastAssistantUuid then
      .ok { poll.emit sub now .turnBoundary
              [("reason", .str "turn_duration"), ("last_agent_message", .str poll.replyBuffer),
                ("turn_id", .str poll.requestAnchor), ("session_path", orNull poll.sessionPath),
                ("assistant_uuid", orNull poll.lastAssistantUuid)] with
            reachedTurnBoundary := true }
    else .ok poll

/-! ### Reading the log -/

/-- Assistant events wait for the anchor, system events do not. -/
def processEvent (sub : Submission) (now : Active.Now) (state : Value) (poll : PollState)
    (event : LogEvent) : Except PollResult PollState :=
  let role := host.text event.fields "role"
  if role = "user" then .ok (handleUserEvent sub now poll (host.text event.fields "text"))
  else if role = "system" then handleSystemEvent host sub now poll event state
  else if role = "assistant" ∧ poll.anchorSeen then
    .ok (handleAssistantEvent host sub now poll event)
  else .ok poll

def processEvents (sub : Submission) (now : Active.Now) (state : Value) (poll : PollState) :
    List LogEvent → Except PollResult PollState
  | [] => .ok poll
  | event :: rest =>
    match processEvent host sub now state poll event with
    | .error result => .error result
    | .ok poll =>
      if poll.reachedTurnBoundary then .ok poll else processEvents sub now state poll rest

/-- The session path of a reader state. -/
def stateSessionPath (state : Value) : String := host.statePath state "session_path"

def pollEventBatches (sub : Submission) (now : Active.Now) (last : Value) (poll : PollState) :
    List Batch → Except PollResult (PollState × Value)
  | [] => .ok (applySessionRotation sub now poll (stateSessionPath host last), last)
  | batch :: rest =>
    let poll := applySessionRotation sub now poll (stateSessionPath host batch.state)
    match processEvents host sub now batch.state poll batch.events with
    | .error result => .error result
    | .ok poll =>
      if poll.reachedTurnBoundary then .ok (poll, batch.state)
      else pollEventBatches sub now last poll rest

def finalizePollResult (sub : Submission) (poll : PollState) (state : Value) : PollResult :=
  { submission := { sub with
      reply := poll.replyBuffer
      runtimeState := override sub.runtimeState (writtenBack poll state) }
    items := poll.items
    decision := none
    terminal := PollResult.undecided }

/-- What a poll makes of the session log. -/
def readLog (sub : Submission) (w : World) : PollResult :=
  let reads := w.log.reads (readerState sub)
  match pollEventBatches host sub w.now reads.last (buildPollState host sub) reads.batches with
  | .error result => result
  | .ok (poll, state) => finalizePollResult sub poll state

/-! ### Hook artifacts -/

def hookCursorPath (completionDir requestAnchor : String) : String :=
  completionDir ++ "/events/" ++ requestAnchor ++ ".json"

/-- `str(event['timestamp'] or now)` -/
def hookTimestamp (event : HookEvent) (now : Active.Now) : Active.Now :=
  let text := host.text event.fields "timestamp"
  if h : text = "" then now else ⟨text, h⟩

def hookResult (sub : Submission) (now : Active.Now) (completionDir requestAnchor : String)
    (event : HookEvent) : PollResult :=
  let seq := nextSeq sub.runtimeState
  let reply := strip (host.text event.fields "reply")
  let turnRef := orElse (host.text event.fields "session_id") requestAnchor
  let now := hookTimestamp host event now
  let built := Active.buildItem sub .assistantFinal now seq
    [("reply", .str reply), ("text", .str reply), ("turn_id", .str requestAnchor),
      ("provider_turn_ref", .str turnRef), ("completion_source", .str "hook_artifact"),
      ("hook_event_name", event.fields.get "hook_event_name"),
      ("status", .str (statusValue event.status))]
  let cursor := { built.cursor with
    opaqueCursor := some (hookCursorPath completionDir requestAnchor) }
  { submission := { sub with
      reply := reply
      runtimeState := override sub.runtimeState [("next_seq", .int (seq + 1))] }
    items := [{ built with cursor := cursor }]
    decision := some
      { terminal := true
        status := event.status
        reason := some (if event.status = .failed then "hook_stop_failure" else "hook_stop")
        confidence := some .exact
        reply := reply
        anchorSeen := (sub.runtimeState.get "anchor_seen").truthy
        replyStarted := reply ≠ ""
        replyStable := reply ≠ ""
        providerTurnRef := some turnRef
        sourceCursor := some cursor
        finishedAt := some now.text
        diagnostics :=
          [("completion_source", .str "hook_artifact"),
            ("hook_event_name", event.fields.get "hook_event_name")]
        wellFormed := ⟨rfl, rfl, rfl⟩ }
    terminal := by
      intro d hd
      rw [Option.mem_some_iff] at hd
      rw [← hd] }

def pollExactHook (sub : Submission) (w : World) : Option PollResult :=
  let completionDir := strip (host.text sub.runtimeState "completion_dir")
  let requestAnchor := Service.requestAnchor host.toLibrary sub
  if completionDir = "" || requestAnchor = "" then none
  else (w.hookEvent completionDir requestAnchor).map
    (hookResult host sub w.now completionDir requestAnchor)

/-! ### The deferred prompt -/

/-- A prompt line with nothing typed, or one of the hints Claude shows when it is idle. -/
def looksReady (text : String) : Bool :=
  (Protocol.splitLines text).any (fun line =>
    match Protocol.lstrip line with
    | '❯' :: tail => tail.all isSpace
    | _ => false) ||
  ["type your message", "esc to interrupt", "for shortcuts"].any fun hint =>
    hasPart hint (lower text)

def readyWaitTimedOut (sub : Submission) (now : Active.Now) : Bool :=
  let startedAt := strip (host.text sub.runtimeState "ready_wait_started_at")
  let timeout := (host.float (sub.runtimeState.get "ready_timeout_s")).getD 8
  startedAt = "" || match host.elapsed startedAt now.text with
    | none => true
    | some elapsed => max 0 timeout ≤ elapsed

def promptDeliveryDue (sub : Submission) (w : World) : Bool :=
  match w.paneText with
  | none => true
  | some text => looksReady text || readyWaitTimedOut host sub w.now

/-- `bool(runtime_state.get('prompt_sent', True))` -/
def promptSent (sub : Submission) : Bool :=
  match sub.runtimeState.lookup "prompt_sent" with
  | none => true
  | some value => value.truthy

/-- The submission after the prompt stage, and the prompt if this is the poll that sends it.
A prompt that had to wait for the pane counts as the anchor. -/
def dispatchDeferredPrompt (sub : Submission) (w : World) : Submission × Option String :=
  let deferred := (sub.runtimeState.get "prompt_deferred_for_ready").truthy
  if promptSent sub then (sub, none)
  else if !promptDeliveryDue host sub w then
    (if deferred then sub
      else { sub with
        runtimeState := override sub.runtimeState [("prompt_deferred_for_ready", .bool true)] },
      none)
  else
    let seq := nextSeq sub.runtimeState
    let anchorSeen := (sub.runtimeState.get "anchor_seen").truthy
    let anchorEmitted := deferred && !anchorSeen
    ({ sub with
        runtimeState := override sub.runtimeState
          [("prompt_sent", .bool true), ("prompt_sent_at", .str w.now.text),
            ("anchor_seen", .bool (anchorSeen || anchorEmitted)),
            ("next_seq", .int (seq + if anchorEmitted then 1 else 0)),
            ("prompt_deferred_for_ready", .bool false),
            ("prompt_anchor_emitted_at", .str (if anchorEmitted then w.now.text else ""))] },
      some (host.text sub.runtimeState "prompt_text"))

/-- `_prompt_dispatch_items`, of a submission that the prompt stage has just changed. -/
def promptDispatchItems (sub : Submission) (now : Active.Now) : List Item :=
  if !(sub.runtimeState.get "prompt_sent").truthy ||
      strip (host.text sub.runtimeState "prompt_anchor_emitted_at") ≠ now.text then []
  else
    let sessionPath := strip (host.text sub.runtimeState "session_path")
    [buildItemAt sub .anchorSeen now (max 1 (nextSeq sub.runtimeState - 1))
      [("turn_id", .str (Service.requestAnchor host.toLibrary sub)),
        ("session_path", orNull sessionPath)] sessionPath none]

/-- A reply delivery is complete as soon as its prompt is out. -/
def replyDeliveryTerminalIfDispatched (sub : Submission) (now : Active.Now) :
    Option PollResult :=
  let turnRef := strip (orElse (host.text sub.runtimeState "request_anchor")
    (orElse (host.text sub.runtimeState "pane_id") sub.jobId))
  if !(sub.runtimeState.get "reply_delivery_complete_on_dispatch").truthy ||
      !(sub.runtimeState.get "prompt_sent").truthy then none
  else some
    { submission := sub
      items := []
      decision := some
        { terminal := true
          status := .completed
          reason := some "reply_delivery_sent"
          confidence := some .observed
          reply := ""
          anchorSeen := true
          replyStarted := false
          replyStable := true
          providerTurnRef := some (orElse turnRef sub.jobId)
          sourceCursor := none
          finishedAt := some now.text
          diagnostics :=
            [("reply_delivery", .bool true), ("delivery_status", .str "sent"),
              ("provider", .str sub.provider), ("submission_mode", .str "active")]
          wellFormed := ⟨rfl, rfl, rfl⟩ }
      terminal := by
        intro d hd
        rw [Option.mem_some_iff] at hd
        rw [← hd] }

/-! ### Polls -/

/-- `_merge_poll_result_items` -/
def mergePollResultItems (result : PollResult) (prefixItems : List Item) : PollResult :=
  { result with items := prefixItems ++ result.items }

/-- The stages after the prompt: the first that has a result gives it. -/
def afterPrompt (sub : Submission) (w : World) : PollResult :=
  (((replyDeliveryTerminalIfDispatched host sub w.now).or (pollExactHook host sub w)).or
    (ensureActivePaneAlive sub w)).getD (readLog host sub w)

/-- The result of a poll, and the prompt if the poll sends it. -/
def pollSubmission (sub : Submission) (w : World) : Option PollResult × Option String :=
  match prepareActivePollWithoutLiveness host sub w with
  | some result => (some result, none)
  | none =>
    let dispatched := dispatchDeferredPrompt host sub w
    let dispatchItems := if promptSent sub then [] else promptDispatchItems host dispatched.1 w.now
    (some (mergePollResultItems (afterPrompt host dispatched.1 w) dispatchItems), dispatched.2)

def poll (sub : Submission) (w : World) : Option PollResult := (pollSubmission host sub w).1

/-! ### Start, export and resume -/

def start (job : Job) (context : Option RuntimeContext) (w : World) : Submission :=
  match prepareActiveStart host job context .sessionEventLog "missing_claude_session" w with
  | .error sub => sub
  | .ok prepared =>
    let requestAnchor := strip job.jobId
    let replyDelivery := lower (strip job.messageType) = "reply_delivery"
    activeSubmission job .sessionEventLog w.now prepared.workDir
      [("mode", .str "active"), ("state", prepared.session.captured),
        ("pane_id", .str prepared.paneId), ("request_anchor", .str requestAnchor),
        ("next_seq", .int 1), ("anchor_seen", .bool job.noWrap), ("reply_buffer", .str ""),
        ("raw_buffer", .str ""),
        ("session_path", .str (stateSessionPath host prepared.session.captured)),
        ("completion_dir", .str prepared.session.completionDir), ("no_wrap", .bool job.noWrap),
        ("prompt_text", .str (if job.noWrap then job.body
          else prepared.session.wrapPrompt job.body requestAnchor)),
        ("prompt_sent", .bool false),
        ("reply_delivery_complete_on_dispatch", .bool replyDelivery),
        ("reply_delivery_require_ready", .bool replyDelivery),
        ("ready_wait_started_at", .str w.now.text),
        ("ready_timeout_s", prepared.session.readyTimeout)]

/-- The keys that are exported as they are, `None` when they are missing. -/
def exportedKeys : List String :=
  ["mode", "pane_id", "next_seq", "anchor_seen", "no_wrap", "reply_buffer", "raw_buffer",
    "session_path", "last_assistant_uuid", "completion_dir", "prompt_text", "prompt_sent",
    "prompt_sent_at", "reply_delivery_complete_on_dispatch", "reply_delivery_require_ready",
    "ready_wait_started_at", "ready_timeout_s"]

def exportRuntimeState (sub : Submission) : Payload :=
  [("state", readerState sub),
    ("request_anchor", .str (Service.requestAnchor host.toLibrary sub))] ++
    exportedKeys.map fun key => (key, sub.runtimeState.get key)

def resume (sub : Submission) (context : Option RuntimeContext) (w : World) :
    Option Submission :=
  (resumedSession host sub context w).map fun (_, session, paneId) =>
    let completionDir := orElse (host.text sub.runtimeState "completion_dir") session.completionDir
    { sub with
      runtimeState := override sub.runtimeState
        [("pane_id", .str paneId), ("mode", .str "active"),
          ("session_path", .str (host.text sub.runtimeState "session_path")),
          ("completion_dir", .str completionDir)] }

end CodexBridge.Providers.Claude
