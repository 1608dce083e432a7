import CodexBridge.Execution.Service

/-! What the adapters over a terminal pane share: the results that end a submission
whose pane or runtime is gone, and the resume of a submission that is still
active. -/

namespace CodexBridge.Execution.Active

open Completion

/-- A clock reading. -/
structure Now where
  text : String
  nonempty : text ≠ ""

def buildItem (sub : Submission) (kind : ItemKind) (now : Now) (seq : ℕ) (payload : Payload) :
    Item :=
  { kind := kind
    timestamp := now.text
    cursor :=
      { sourceKind := sub.sourceKind
        opaqueCursor := none
        sessionPath := none
        offset := none
        lineNo := none
        eventSeq := some seq
        updatedAt := some now.text }
    payload := payload
    nonempty := now.nonempty }

/-- The submission that no later poll reads: its mode is passive. -/
def passivated (sub : Submission) : Submission :=
  { sub with
    runtimeState := override sub.runtimeState
      [("mode", .str "passive"), ("next_seq", .int (nextSeq sub.runtimeState + 1))] }

/-- One item and the failure it stands for. -/
def failedResult (sub : Submission) (now : Now) (kind : ItemKind) (reason : String)
    (payload diagnostics : Payload) : PollResult :=
  let item := buildItem sub kind now (nextSeq sub.runtimeState) payload
  { submission := passivated sub
    items := [item]
    decision := some
      { terminal := true
        status := .failed
        reason := some reason
        confidence := some .degraded
        reply := ""
        anchorSeen := false
        replyStarted := false
        replyStable := false
        providerTurnRef := none
        sourceCursor := some item.cursor
        finishedAt := some now.text
        diagnostics := diagnostics
        wellFormed := ⟨rfl, rfl, rfl⟩ }
    terminal := by
      intro d hd
      rw [Option.mem_some_iff] at hd
      rw [← hd] }

def paneDeadResult (sub : Submission) (now : Now) (reason : String) : PollResult :=
  failedResult sub now .paneDead reason [("reason", .str reason)] [("reason", .str reason)]

def runtimeErrorResult (sub : Submission) (now : Now) (reason error : String) : PollResult :=
  let errorReason := orElse reason "transport_error"
  failedResult sub now .error errorReason
    [("reason", .str errorReason), ("error", .str error)]
    (("reason", .str errorReason) ::
      if error = "" then [] else [("error", .str error), ("error_message", .str error)])

/-- Only a submission in active mode with a workspace is taken up again; the pane is that of
the session found there. -/
def resumeActiveSubmission (sub : Submission) (context : Option RuntimeContext)
    (paneId : Option String) : Option Submission :=
  let workspace := (context.bind RuntimeContext.workspacePath).getD ""
  if workspace = "" then none
  else if (sub.runtimeState.lookup "mode").getD .null ≠ .str "active" then none
  else
    paneId.map fun paneId =>
      let sessionPath := sub.runtimeState.get "session_path"
      { sub with
        runtimeState := override sub.runtimeState
          [("pane_id", .str paneId), ("mode", .str "active"),
            ("session_path", if sessionPath.truthy then sessionPath else .str "")] }

namespace Sample

def now : Now := ⟨"2026-03-18T00:00:05Z", by decide⟩

end Sample

end CodexBridge.Execution.Active
