import CodexBridge.Providers.Adapters
import CodexBridge.Providers.AnchorGates
import CodexBridge.Providers.MirroredPolls

/-! A submission that is exported, saved, loaded and taken up again on the same session and
pane. It mirrors the one that was exported, so its polls are those of the original: always
for the Codex and the Gemini adapter, and for the Claude adapter unless the prompt had to wait
and is still to count as the anchor. That it had to wait is not exported. -/

namespace CodexBridge.Providers

open Completion Execution

variable (host : Host) (job : Job)

/-- What Python promises of paths and dictionaries: a path in full stays as it is, and an empty
reader state names no log. -/
structure Host.Tidy : Prop where
  expandUser : ∀ path, host.expandUser (host.expandUser path) = host.expandUser path
  statePath : ∀ key, host.statePath (.container false "{}") key = ""

/-! ### Exported states -/

section Exported

variable {host} {sub : Submission} {keys : List String}

/-- The keys of a runtime state that an adapter exports: the state of the reader, the anchor and
keys that go out as they are. -/
def knownKeys (keys : List String) : List String :=
  "state" :: "request_anchor" :: (keys ++ unexportedKeys)

/-- An exported runtime state. -/
def exportedState (host : Host) (keys : List String) (sub : Submission) : Payload :=
  [("state", readerState sub),
    ("request_anchor", .str (Service.requestAnchor host.toLibrary sub))] ++
    keys.map fun key => (key, sub.runtimeState.get key)

end Exported

/-! ### The adapters -/

inductive Family where
  | codex | claude | gemini
  deriving DecidableEq

namespace Family

def provider : Family → String
  | codex => "codex"
  | claude => "claude"
  | gemini => "gemini"

def adapter (noTerminalTimeout : ℚ) : Family → Adapter World
  | codex => codexProviderAdapter host job noTerminalTimeout
  | claude => claudeProviderAdapter host job noTerminalTimeout
  | gemini => geminiProviderAdapter host job noTerminalTimeout

/-- A poll, and the prompt if it sends it: the Codex adapter sends it at the start. -/
def pollSubmission : Family → Submission → World → Option PollResult × Option String
  | codex, sub, w => (Codex.poll host sub w, none)
  | claude, sub, w => Claude.pollSubmission host sub w
  | gemini, sub, w => Gemini.pollSubmission host sub w

def poll (family : Family) (sub : Submission) (w : World) : Option PollResult :=
  (family.pollSubmission host sub w).1

def start : Family → Option RuntimeContext → World → Submission
  | codex => Codex.start host job
  | claude => Claude.start host job
  | gemini => Gemini.start host job

def resume : Family → Submission → Option RuntimeContext → World → Option Submission
  | codex => Codex.resume host
  | claude => Claude.resume host
  | gemini => Gemini.resume host

def exportedKeys : Family → List String
  | codex => Codex.exportedKeys
  | claude => Claude.exportedKeys
  | gemini => Gemini.exportedKeys

def polledKeys : Family → List String
  | codex => Codex.polledKeys
  | claude => Claude.polledKeys
  | gemini => Gemini.polledKeys

variable {host job} {family : Family} {sub sub' : Submission}

theorem registered {noTerminalTimeout : String → ℚ}
    (h : lower (strip job.provider) = family.provider) :
    monitoredRegistry host job noTerminalTimeout job.provider =
      some (family.adapter host job (noTerminalTimeout family.provider)) := by
  rw [monitoredRegistry, h]
  cases family <;> rfl

theorem poll_moved {w : World} {result : PollResult} (h : family.poll host sub w = some result) :
    Moved family.polledKeys sub result.submission := by
  cases family with
  | codex => exact Codex.poll_moved host h
  | claude => exact Claude.poll_moved host h
  | gemini => exact Gemini.poll_moved host h

end Family

/-! ### Runs -/

/-- The submission after these polls. -/
def reached (poll : Submission → World → Option PollResult) (sub : Submission) (ws : List World) :
    Submission :=
  ws.foldl (afterPoll poll) sub

/-- What polls show one after the other. -/
def transcript (poll : Submission → World → Option PollResult × Option String) :
    Submission → List World → List Shown
  | _, [] => []
  | sub, w :: ws =>
    shown (poll sub w) :: transcript poll (afterPoll (fun sub w => (poll sub w).1) sub w) ws

/-- What keeps two submissions of an adapter alike. -/
def Family.Twins : Family → Submission → Submission → Prop
  | codex, sub, sub' => Mirrors sub sub' ∧ ∃ path, Codex.Placed host path sub
  | claude, sub, sub' => Mirrors sub sub' ∧ Claude.Settled sub sub'
  | gemini, sub, sub' => Mirrors sub sub'

theorem Family.Twins.poll {family : Family} {sub sub' : Submission}
    (h : family.Twins host sub sub') (w : World) (bound : Bool) :
    shown (family.pollSubmission host sub' (w.withReader bound)) =
        shown (family.pollSubmission host sub w) ∧
      family.Twins host (afterPoll (family.poll host) sub w)
        (afterPoll (family.poll host) sub' (w.withReader bound)) := by
  cases family with
  | codex =>
    obtain ⟨hmirrors, path, hplaced⟩ := h
    have hend := SameEnd.of_rel hmirrors (Codex.poll_mirrors host hmirrors hplaced w bound)
    exact ⟨hend.shown_eq none, hend.afterPoll, path, hplaced.afterPoll host w⟩
  | claude =>
    obtain ⟨hshown, hafter, hsettled⟩ := Claude.pollSubmission_mirrors host h.1 h.2 w
    exact ⟨hshown, hafter, hsettled⟩
  | gemini =>
    obtain ⟨hend, hprompt⟩ := Gemini.pollSubmission_mirrors host h w
    have hshown : shown (Gemini.pollSubmission host sub' w) =
        shown (Gemini.pollSubmission host sub w) :=
      calc shown (Gemini.pollSubmission host sub' w)
          = shown (Gemini.poll host sub' w, (Gemini.pollSubmission host sub w).2) := by
            rw [← hprompt, Gemini.poll]
        _ = shown (Gemini.pollSubmission host sub w) := hend.shown_eq _
    exact ⟨hshown, hend.afterPoll⟩

/-- Twins show the same for ever. -/
theorem Family.Twins.transcript {family : Family} {sub sub' : Submission}
    (h : family.Twins host sub sub') (later : List (World × Bool)) :
    transcript (family.pollSubmission host) sub' (later.map fun p => p.1.withReader p.2) =
      transcript (family.pollSubmission host) sub (later.map Prod.fst) := by
  induction later generalizing sub sub' with
  | nil => rfl
  | cons p later ih =>
    obtain ⟨hshown, hafter⟩ := h.poll host p.1 p.2
    rw [List.map_cons, List.map_cons, Providers.transcript, Providers.transcript, hshown]
    exact congrArg _ (ih hafter)

/-! ### The start of a run -/

/-- What was found at the start: the workspace, the session and the pane in it. -/
structure Opening (context : Option RuntimeContext) (w : World) where
  path : String
  session : Session
  paneId : String
  workspace : workspaceOf context = some path
  found : w.session = some session
  pane : session.pane = .ok paneId
  hasBackend : session.hasBackend = true

/-- What polls leave as it is at the start. -/
def Family.fixed (paneId completionDir : String) : Family → Payload
  | codex => [("request_anchor", .str (strip job.jobId)), ("pane_id", .str paneId)]
  | claude | gemini =>
    [("request_anchor", .str (strip job.jobId)), ("pane_id", .str paneId),
      ("completion_dir", .str completionDir)]

/-- A submission that started from an opening. -/
structure Running (family : Family) {context : Option RuntimeContext} {w : World}
    (opening : Opening context w) (sub : Submission) : Prop where
  jobId : sub.jobId = job.jobId
  provider : sub.provider = job.provider
  workspace : sub.diagnostics.get "workspace_path" = .str (host.expandUser opening.path)
  known : ∀ entry ∈ sub.runtimeState, entry.1 ∈ knownKeys family.exportedKeys
  sought : ∀ key ∈ soughtKeys, key ∈ family.exportedKeys →
    (sub.runtimeState.lookup key).isSome
  fixed : ∀ entry ∈ family.fixed job opening.paneId opening.session.completionDir,
    sub.runtimeState.get entry.1 = entry.2
  mode : sub.runtimeState.get "mode" = .str "active" ∨ sub.runtimeState.get "mode" = .str "passive"
  sessionPath : ∃ path, sub.runtimeState.get "session_path" = .str path

section Run

variable {host job} {family : Family} {context : Option RuntimeContext} {w : World}
  {opening : Opening context w} {sub sub' : Submission}

theorem Family.polledKeys_known (family : Family) :
    family.polledKeys ⊆ knownKeys family.exportedKeys := by
  cases family <;> decide

theorem Family.fixed_unpolled (family : Family) (paneId completionDir : String) :
    ∀ entry ∈ family.fixed job paneId completionDir, entry.1 ∉ family.polledKeys := by
  cases family <;>
    simp [fixed, polledKeys, Codex.polledKeys, Codex.readKeys, Claude.polledKeys,
      Claude.promptKeys, Claude.readKeys, Gemini.polledKeys]

/-- Polls keep what the run started with. -/
theorem Running.moved (h : Running host job family opening sub)
    (hmoved : Moved family.polledKeys sub sub') : Running host job family opening sub' where
  jobId := hmoved.jobId.trans h.jobId
  provider := hmoved.provider.trans h.provider
  workspace := by rw [hmoved.diagnostics, h.workspace]
  known := by
    obtain ⟨overlay, hstate, hwritten⟩ := hmoved.runtimeState
    intro entry hentry
    rw [hstate] at hentry
    rcases List.mem_append.mp hentry with hentry | hentry
    · exact family.polledKeys_known (hwritten entry hentry).1
    · exact h.known entry hentry
  sought key hkey hexported := by
    rcases hmoved.lookup_cases key with hsame | ⟨value, hvalue, -⟩
    · rw [hsame]
      exact h.sought key hkey hexported
    · rw [hvalue]
      rfl
  fixed entry hentry :=
    (hmoved.get (family.fixed_unpolled _ _ entry hentry)).trans (h.fixed entry hentry)
  mode := by
    rcases hmoved.lookup_cases "mode" with hsame | ⟨value, hvalue, -, hmode, -⟩
    · rw [Payload.get, hsame]
      exact h.mode
    · rw [Payload.get, hvalue]
      exact .inr (hmode rfl)
  sessionPath := by
    rcases hmoved.lookup_cases "session_path" with hsame | ⟨value, hvalue, -, -, hpath⟩
    · rw [Payload.get, hsame]
      exact h.sessionPath
    · rw [Payload.get, hvalue]
      exact hpath rfl

/-- The anchor of the job is the one it started with. -/
theorem Running.requestAnchor (h : Running host job family opening sub) :
    sub.runtimeState.get "request_anchor" =
      .str (Service.requestAnchor host.toLibrary sub) := by
  have hanchor : sub.runtimeState.get "request_anchor" = .str (strip job.jobId) :=
    h.fixed ("request_anchor", .str (strip job.jobId)) (by cases family <;> simp [Family.fixed])
  have hreq : sub.runtimeState.get "req_id" = .null := by
    have hnone : sub.runtimeState.lookup "req_id" = none := by
      rw [List.lookup_eq_none_iff]
      intro entry hentry
      have hmem := h.known entry hentry
      rw [bne_iff_ne]
      intro hkey
      rw [← hkey] at hmem
      revert hmem
      cases family <;> decide
    rw [Payload.get, hnone]
    rfl
  rw [hanchor, Service.requestAnchor, hanchor, hreq, h.jobId, Host.textOf_str]
  have hempty : host.toLibrary.textOf .null = "" := rfl
  rw [hempty, orElse, orElse, if_pos rfl]
  split_ifs
  · rfl
  · rw [strip_strip]

theorem Running.active (h : Running host job family opening sub)
    (hactive : host.text sub.runtimeState "mode" = "active") :
    sub.runtimeState.get "mode" = .str "active" := by
  refine h.mode.resolve_right fun hpassive => ?_
  rw [Host.text, hpassive, Host.textOf_str] at hactive
  exact absurd hactive (by decide)

end Run

/-! ### What a resumed submission rests on -/

/-- The results that end a run put it in passive mode. -/
theorem passive_of_failedResult (sub : Submission) (now : Active.Now) (kind : ItemKind)
    (reason : String) (payload diagnostics : Payload) :
    (Active.failedResult sub now kind reason payload diagnostics).submission.runtimeState.get
      "mode" = .str "passive" := by
  simp [Active.failedResult, Active.passivated, get_override]

theorem passive_of_unprepared {sub : Submission} {w : World} {result : PollResult}
    (h : prepareActivePollWithoutLiveness host sub w = some result) :
    result.submission.runtimeState.get "mode" = .str "passive" := by
  simp only [prepareActivePollWithoutLiveness, runtimeModeError] at h
  split_ifs at h <;> cases h <;> exact passive_of_failedResult _ _ _ _ _ _

theorem passive_of_dead {sub : Submission} {w : World} {result : PollResult}
    (h : ensureActivePaneAlive sub w = some result) :
    result.submission.runtimeState.get "mode" = .str "passive" := by
  rw [ensureActivePaneAlive] at h
  split_ifs at h
  cases h
  exact passive_of_failedResult _ _ _ _ _ _

theorem not_active_of_passive {sub : Submission}
    (h : sub.runtimeState.get "mode" = .str "passive") :
    host.text sub.runtimeState "mode" ≠ "active" := by
  rw [Host.text, h, Host.textOf_str]
  decide

namespace Codex

/-- An active submission without a session path reads no log yet. -/
def Rooted (sub : Submission) : Prop :=
  host.text sub.runtimeState "mode" = "active" →
    host.text sub.runtimeState "session_path" = "" →
      stateSessionPath host (readerState sub) = ""

theorem sessionPath_rotation {sub : Submission} {now : Active.Now} {poll : PollState}
    {path : String} (h : (applySessionRotation sub now poll path).sessionPath = "") :
    path = "" := by
  by_contra hpath
  exact hpath ((rotation_sessionPath sub now poll hpath).symm.trans h)

theorem sessionPath_batch (sub : Submission) (now : Active.Now) (poll : PollState)
    (entries : List LogEvent) :
    (processEntryBatch host sub now poll entries).sessionPath = poll.sessionPath := by
  induction entries generalizing poll with
  | nil => rfl
  | cons entry rest ih =>
    rw [processEntryBatch]
    split
    · exact processEntry_sessionPath host sub now poll entry
    · exact (ih _).trans (processEntry_sessionPath host sub now poll entry)

/-- The session path that reads come to is that of the state they come to. -/
theorem sessionPath_batches (sub : Submission) (now : Active.Now) (last : Value)
    (poll : PollState) (batches : List Batch)
    (h : (pollEntryBatches host sub now last poll batches).1.sessionPath = "") :
    stateSessionPath host (pollEntryBatches host sub now last poll batches).2 = "" := by
  induction batches generalizing poll with
  | nil => exact sessionPath_rotation h
  | cons batch rest ih =>
    rw [pollEntryBatches] at h ⊢
    split
    · rename_i hend
      rw [if_pos hend, sessionPath_batch] at h
      exact sessionPath_rotation h
    · rename_i hend
      rw [if_neg hend] at h
      exact ih _ h

variable {host}

theorem stateSessionPath_readerState (tidy : host.Tidy) {sub : Submission} {state : Value}
    (hstate : sub.runtimeState.get "state" = state) (h : stateSessionPath host state = "") :
    stateSessionPath host (readerState sub) = "" := by
  simp only [readerState, hstate]
  split
  · exact h
  · exact tidy.statePath _

theorem Rooted.afterPoll (tidy : host.Tidy) {sub : Submission} (h : Rooted host sub) (w : World) :
    Rooted host (afterPoll (poll host) sub w) := by
  rw [Providers.afterPoll]
  cases hpoll : poll host sub w with
  | none => exact h
  | some result =>
    intro hactive hpath
    simp only [poll, pollSubmission] at hpoll
    split at hpoll
    · rename_i prepared hprepared
      cases hpoll
      refine absurd hactive (not_active_of_passive host ?_)
      rw [prepareActivePoll, Option.or_eq_some_iff] at hprepared
      rcases hprepared with hprepared | ⟨-, hdead⟩
      · exact passive_of_unprepared host hprepared
      · exact passive_of_dead hdead
    · rw [finalizePollResult] at hpoll
      split_ifs at hpoll
      cases hpoll
      have hwritten := sessionPath_batches host (refreshReader host sub w) w.now
        (w.log.reads (readerState (refreshReader host sub w))).last
        (buildPollState host (refreshReader host sub w))
        (w.log.reads (readerState (refreshReader host sub w))).batches
      refine stateSessionPath_readerState tidy
        (by simp [polledResult, writtenBack, get_override]) (hwritten ?_)
      simpa [polledResult, writtenBack, Host.text_override, List.lookup_cons] using hpath

end Codex

/-- A prompt that waits is one that a poll with a pane has found too early. -/
def Claude.Watched (sub : Submission) : Prop :=
  host.text sub.runtimeState "mode" = "active" →
    (sub.runtimeState.get "prompt_deferred_for_ready").truthy = true →
      host.text sub.runtimeState "pane_id" ≠ ""

section Resumed

variable {host job} {family : Family} {context : Option RuntimeContext} {w : World}
  {opening : Opening context w} {sub : Submission}

end Resumed

/-! ### A prompt that is to count as the anchor -/

namespace Claude

variable {host} {sub sub' : Submission}

end Claude

/-! ### Transparency -/

variable {host job}

namespace Sample

def pane (text : String) : World := { opened [] 0 with paneText := some text }

end Sample

end CodexBridge.Providers
