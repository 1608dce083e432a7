import CodexBridge.Providers.Runtime

/-! The Codex adapter. A poll rebuilds its parsing state from the runtime state of the
submission, reads the session log batch by batch until a read finds nothing or the
turn has ended, and writes the parsing state back. -/

namespace CodexBridge.Providers.Codex

open Completion Execution

variable (host : Host)

/-! ### Replies -/

/-- The first candidate that is not blank. -/
def selectReply (lastAgentMessage lastFinalAnswer lastAssistantMessage replyBuffer : String) :
    String :=
  let candidates := [lastAgentMessage, lastFinalAnswer, lastAssistantMessage, replyBuffer]
  ((candidates.map strip).find? fun text => text ≠ "").getD ""

def cleanCodexReplyText (text reqId : String) : String :=
  if reqId = "" then text else Protocol.stripDoneText text reqId

def abortStatus (reason : String) : Status :=
  let lowered := lower (strip reason)
  if ["interrupt", "cancel", "abort"].any fun token => hasPart token lowered then .cancelled
  else .failed

/-- Two entries of one timestamp, phase and text are one. -/
def assistantSignature (entry : LogEvent) : String :=
  let text := strip (host.text entry.fields "text")
  let timestamp := strip (host.text entry.fields "timestamp")
  let phase := lower (strip (host.text entry.fields "phase"))
  if text = "" || timestamp = "" then "" else timestamp ++ "\x00" ++ phase ++ "\x00" ++ text

/-! ### The parsing state -/

structure PollState where
  requestAnchor : String
  nextSeq : ℕ
  anchorSeen : Bool
  boundTurnId : String
  boundTaskId : String
  replyBuffer : String
  lastAgentMessage : String
  lastFinalAnswer : String
  lastAssistantMessage : String
  lastAssistantSignature : String
  sessionPath : String
  items : List Item
  reachedTerminal : Bool

def buildPollState (sub : Submission) : PollState :=
  let field := host.text sub.runtimeState
  { requestAnchor := Service.requestAnchor host.toLibrary sub
    nextSeq := nextSeq sub.runtimeState
    anchorSeen := (sub.runtimeState.get "anchor_seen").truthy
    boundTurnId := field "bound_turn_id"
    boundTaskId := field "bound_task_id"
    replyBuffer := field "reply_buffer"
    lastAgentMessage := field "last_agent_message"
    lastFinalAnswer := field "last_final_answer"
    lastAssistantMessage := field "last_assistant_message"
    lastAssistantSignature := field "last_assistant_signature"
    sessionPath := field "session_path"
    items := []
    reachedTerminal := false }

namespace PollState

/-- An item with the next number. -/
def emit (poll : PollState) (sub : Submission) (now : Active.Now) (kind : ItemKind)
    (payload : Payload) : PollState :=
  { poll with
    items := poll.items ++ [Active.buildItem sub kind now poll.nextSeq payload]
    nextSeq := poll.nextSeq + 1 }

def selectedReply (poll : PollState) : String :=
  selectReply poll.lastAgentMessage poll.lastFinalAnswer poll.lastAssistantMessage poll.replyBuffer

end PollState

def applySessionRotation (sub : Submission) (now : Active.Now) (poll : PollState)
    (newSessionPath : String) : PollState :=
  if newSessionPath = "" || newSessionPath = poll.sessionPath then poll
  else
    { poll.emit sub now .sessionRotate
        [("session_path", .str newSessionPath),
          ("provider_session_id", .str (pathStem newSessionPath))] with
      sessionPath := newSessionPath
      anchorSeen := (sub.runtimeState.get "no_wrap").truthy
      boundTurnId := ""
      boundTaskId := ""
      replyBuffer := ""
      lastAgentMessage := ""
      lastFinalAnswer := ""
      lastAssistantMessage := ""
      lastAssistantSignature := "" }

/-! ### Entries -/

def updateBindingRefs (poll : PollState) (entry : LogEvent) : PollState :=
  let turnId := strip (host.text entry.fields "turn_id")
  let taskId := strip (host.text entry.fields "task_id")
  { poll with
    boundTurnId := if turnId = "" then poll.boundTurnId else turnId
    boundTaskId := if taskId = "" then poll.boundTaskId else taskId }

def handleUserEntry (sub : Submission) (now : Active.Now) (poll : PollState) (text : String) :
    PollState :=
  if Protocol.carriesAnchor poll.requestAnchor text && !poll.anchorSeen then
    let turnId := orElse poll.boundTurnId poll.requestAnchor
    { poll.emit sub now .anchorSeen
        (("turn_id", .str turnId) :: optional "task_id" poll.boundTaskId ++
          optional "session_path" poll.sessionPath) with
      anchorSeen := true }
  else poll

def isDuplicateAssistantEntry (poll : PollState) (entry : LogEvent) : Bool :=
  let signature := assistantSignature host entry
  signature ≠ "" && signature == poll.lastAssistantSignature

/-- The signature that `is_duplicate_assistant_entry` leaves behind. -/
def noteSignature (poll : PollState) (entry : LogEvent) : PollState :=
  let signature := assistantSignature host entry
  { poll with
    lastAssistantSignature :=
      if signature = "" then poll.lastAssistantSignature else signature }

def appendReplyText (replyBuffer cleaned : String) : String :=
  if replyBuffer = "" then cleaned else strip (replyBuffer ++ "\n" ++ cleaned)

def assistantPayload (poll : PollState) (cleaned phase : String) : Payload :=
  [("text", .str cleaned), ("merged_text", .str poll.replyBuffer)] ++
    optional "turn_id" poll.boundTurnId ++ optional "task_id" poll.boundTaskId ++
    optional "phase" phase ++ optional "session_path" poll.sessionPath

def handleAssistantEntry (sub : Submission) (now : Active.Now) (poll : PollState)
    (entry : LogEvent) : PollState :=
  if isDuplicateAssistantEntry host poll entry then poll
  else
    let poll := noteSignature host poll entry
    let cleaned := strip (cleanCodexReplyText (host.text entry.fields "text") poll.requestAnchor)
    if cleaned = "" then poll
    else
      let phase := lower (strip (host.text entry.fields "phase"))
      let poll := { poll with
        replyBuffer := appendReplyText poll.replyBuffer cleaned
        lastAssistantMessage := cleaned
        lastFinalAnswer := if phase = "final_answer" then cleaned else poll.lastFinalAnswer }
      poll.emit sub now .assistantChunk (assistantPayload poll cleaned phase)

def bindingPayload (poll : PollState) : Payload :=
  optional "turn_id" (orElse poll.boundTurnId poll.requestAnchor) ++
    optional "task_id" poll.boundTaskId ++ optional "session_path" poll.sessionPath

def appendTaskCompleteItem (sub : Submission) (now : Active.Now) (poll : PollState)
    (entry : LogEvent) : PollState :=
  let terminalText := strip (host.text entry.fields "last_agent_message")
  let poll := { poll with
    lastAgentMessage :=
      if terminalText = "" then poll.lastAgentMessage
      else strip (cleanCodexReplyText terminalText poll.requestAnchor) }
  { poll.emit sub now .turnBoundary
      ([("reason", .str "task_complete"), ("last_agent_message", .str poll.selectedReply)] ++
        bindingPayload poll) with
    reachedTerminal := true }

def appendTurnAbortedItem (sub : Submission) (now : Active.Now) (poll : PollState)
    (entry : LogEvent) : PollState :=
  let reason := orElse (strip (orElse (host.text entry.fields "reason") "turn_aborted"))
    "turn_aborted"
  let errorText := strip (host.text entry.fields "text")
  { poll.emit sub now .turnAborted
      ([("reason", .str reason), ("status", .str (statusValue (abortStatus reason))),
          ("last_agent_message", .str poll.selectedReply)] ++
        optional "text" errorText ++ optional "error_message" errorText ++
        bindingPayload poll) with
    reachedTerminal := true }

def handleTerminalEntry (sub : Submission) (now : Active.Now) (poll : PollState)
    (entry : LogEvent) : PollState :=
  let payloadType := lower (strip
    (orElse (host.text entry.fields "payload_type") (host.text entry.fields "entry_type")))
  if payloadType = "task_complete" then appendTaskCompleteItem host sub now poll entry
  else if payloadType = "turn_aborted" then appendTurnAbortedItem host sub now poll entry
  else poll

/-- Before the anchor only user entries are looked at. -/
def processEntry (sub : Submission) (now : Active.Now) (poll : PollState) (entry : LogEvent) :
    PollState :=
  let poll := updateBindingRefs host poll entry
  let role := lower (strip (host.text entry.fields "role"))
  if role = "user" then handleUserEntry sub now poll (host.text entry.fields "text")
  else if !poll.anchorSeen then poll
  else if role = "assistant" then handleAssistantEntry host sub now poll entry
  else handleTerminalEntry host sub now poll entry

def processEntryBatch (sub : Submission) (now : Active.Now) (poll : PollState) :
    List LogEvent → PollState
  | [] => poll
  | entry :: rest =>
    let poll := processEntry host sub now poll entry
    if poll.reachedTerminal then poll else processEntryBatch sub now poll rest

/-! ### Polls -/

/-- The session path of a reader state. -/
def stateSessionPath (state : Value) : String := host.statePath state "log_path"

def applySessionState (sub : Submission) (now : Active.Now) (poll : PollState) (state : Value) :
    PollState :=
  applySessionRotation sub now poll (stateSessionPath host state)

def pollEntryBatches (sub : Submission) (now : Active.Now) (last : Value) (poll : PollState) :
    List Batch → PollState × Value
  | [] => (applySessionState host sub now poll last, last)
  | batch :: rest =>
    let poll := applySessionState host sub now poll batch.state
    let poll := processEntryBatch host sub now poll batch.events
    if poll.reachedTerminal then (poll, batch.state) else pollEntryBatches sub now last poll rest

def writtenBack (sub : Submission) (poll : PollState) (state : Value) : Submission :=
  { sub with
    reply := if poll.items = [] then sub.reply else poll.selectedReply
    runtimeState := override sub.runtimeState
      [("state", state), ("next_seq", .int poll.nextSeq), ("anchor_seen", .bool poll.anchorSeen),
        ("bound_turn_id", .str poll.boundTurnId), ("bound_task_id", .str poll.boundTaskId),
        ("reply_buffer", .str poll.replyBuffer),
        ("last_agent_message", .str poll.lastAgentMessage),
        ("last_final_answer", .str poll.lastFinalAnswer),
        ("last_assistant_message", .str poll.lastAssistantMessage),
        ("last_assistant_signature", .str poll.lastAssistantSignature),
        ("session_path", .str poll.sessionPath)] }

def polledResult (sub : Submission) (items : List Item) : PollResult :=
  { submission := sub
    items := items
    decision := none
    terminal := PollResult.undecided }

/-- A poll that found nothing and moved nowhere has no result. -/
def finalizePollResult (sub : Submission) (poll : PollState) (state : Value) :
    Option PollResult :=
  if poll.items = [] ∧ readerState sub = state ∧
      host.text sub.runtimeState "session_path" = poll.sessionPath then none
  else some (polledResult (writtenBack sub poll state) poll.items)

/-- `_refresh_reader_for_current_session_binding`: a reader of another log than the one the
session is bound to is replaced, and starts that log from its beginning. -/
def refreshReader (sub : Submission) (w : World) : Submission :=
  let raw := orElse (host.text sub.runtimeState "workspace_path")
    (host.text sub.diagnostics "workspace_path")
  if lower (strip (host.text sub.runtimeState "mode")) ≠ "active" || raw = "" then sub
  else
    match w.currentLog (host.expandUser raw) with
    | none => sub
    | some currentLog =>
      let moved := currentLog ≠ stateSessionPath host (readerState sub)
      if !moved && w.readerBound then sub
      else
        { sub with
          runtimeState := override sub.runtimeState
            (("workspace_path", .str (host.expandUser raw)) ::
              if moved then [("state", host.rebound (readerState sub) currentLog)] else []) }

/-- `poll_submission` -/
def pollSubmission (sub : Submission) (w : World) : Option PollResult :=
  match prepareActivePoll host sub w with
  | some result => some result
  | none =>
    let reads := w.log.reads (readerState sub)
    let polled := pollEntryBatches host sub w.now reads.last (buildPollState host sub)
      reads.batches
    finalizePollResult host sub polled.1 polled.2

def poll (sub : Submission) (w : World) : Option PollResult :=
  pollSubmission host (refreshReader host sub w) w

/-! ### Start, export and resume -/

def start (job : Job) (context : Option RuntimeContext) (w : World) : Submission :=
  match prepareActiveStart host job context .protocolEventStream "missing_codex_session" w with
  | .error sub => sub
  | .ok prepared =>
    activeSubmission job .protocolEventStream w.now prepared.workDir
      [("mode", .str "active"), ("state", prepared.session.captured),
        ("pane_id", .str prepared.paneId), ("request_anchor", .str (strip job.jobId)),
        ("next_seq", .int 1), ("anchor_seen", .bool job.noWrap), ("bound_turn_id", .str ""),
        ("bound_task_id", .str ""), ("reply_buffer", .str ""), ("last_agent_message", .str ""),
        ("last_final_answer", .str ""), ("last_assistant_message", .str ""),
        ("last_assistant_signature", .str ""),
        ("session_path", .str (stateSessionPath host prepared.session.captured)),
        ("workspace_path", .str prepared.workDir), ("no_wrap", .bool job.noWrap)]

/-- The keys that are exported as they are, `None` when they are missing. -/
def exportedKeys : List String :=
  ["mode", "pane_id", "next_seq", "anchor_seen", "no_wrap", "bound_turn_id", "bound_task_id",
    "reply_buffer", "last_agent_message", "last_final_answer", "last_assistant_message",
    "last_assistant_signature", "session_path", "workspace_path"]

def exportRuntimeState (sub : Submission) : Payload :=
  [("state", readerState sub),
    ("request_anchor", .str (Service.requestAnchor host.toLibrary sub))] ++
    exportedKeys.map fun key => (key, sub.runtimeState.get key)

def resume (sub : Submission) (context : Option RuntimeContext) (w : World) :
    Option Submission :=
  (resumedSession host sub context w).map fun (workDir, _, paneId) =>
    let sessionPath := orElse (host.text sub.runtimeState "session_path")
      (stateSessionPath host (readerState sub))
    { sub with
      runtimeState := override sub.runtimeState
        [("pane_id", .str paneId), ("mode", .str "active"), ("session_path", .str sessionPath),
          ("workspace_path", .str workDir)] }

end CodexBridge.Providers.Codex
