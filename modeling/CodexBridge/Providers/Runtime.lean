import CodexBridge.Execution.Active
import CodexBridge.Providers.Protocol

/-! What the adapters of the providers share. The runtime state of a submission is a
dictionary with string keys; the live handles in it (reader, backend) are left out. A
log reader keeps its place in an opaque state, of which the adapters read the session
path and a few counters. What a poll meets outside the program is its world: the
clock, the pane, the hook artifact and the session log. -/

namespace CodexBridge.Providers

open Completion Execution

/-! ### Values -/

/-- Python's conversions and what is read of a reader state. -/
structure Host extends Execution.Library where
  float : Value → Option ℚ
  expandUser : String → String
  /-- `state.get(key)` -/
  stateGet : Value → String → Value
  /-- `normalize_session_path(state.get(key))` -/
  statePath : Value → String → String
  /-- The state with `log_path` replaced, at its start. -/
  rebound : Value → String → Value
  str_str : ∀ s, str (.str s) = s
  float_null : float .null = none

variable (host : Host)

/-- `str(payload.get(key) or '')` -/
def Host.text (payload : Payload) (key : String) : String := host.textOf (payload.get key)

@[simp] theorem Host.textOf_str (s : String) : host.textOf (.str s) = s := by
  by_cases hs : s = ""
  · simp [Library.textOf, Value.truthy, hs]
  · simp [Library.textOf, Value.truthy, hs, host.str_str]

theorem lookup_override (base overlay : Payload) (key : String) :
    (override base overlay).lookup key = (overlay.lookup key).or (base.lookup key) :=
  List.lookup_append

/-- A key that is not written keeps its value. -/
theorem lookup_override_of_notMem {base overlay : Payload} {key : String}
    (h : key ∉ overlay.map Prod.fst) : (override base overlay).lookup key = base.lookup key := by
  have hnone : overlay.lookup key = none := by
    rw [List.lookup_eq_none_iff]
    intro entry hentry
    rw [bne_iff_ne]
    intro hkey
    exact h (hkey ▸ List.mem_map_of_mem hentry)
  rw [lookup_override, hnone, Option.none_or]

theorem get_override (base overlay : Payload) (key : String) :
    (override base overlay).get key = (overlay.lookup key).getD (base.get key) := by
  rw [Payload.get, lookup_override]
  cases overlay.lookup key <;> rfl

theorem Host.text_override (base overlay : Payload) (key : String) :
    host.text (override base overlay) key =
      ((overlay.lookup key).map host.textOf).getD (host.text base key) := by
  rw [Host.text, get_override]
  cases overlay.lookup key <;> rfl

/-- The submission has changed at most its reply and what is under these keys. -/
structure Keeps (keys : List String) (sub sub' : Submission) : Prop where
  jobId : sub'.jobId = sub.jobId
  sourceKind : sub'.sourceKind = sub.sourceKind
  lookup : ∀ key ∉ keys, sub'.runtimeState.lookup key = sub.runtimeState.lookup key

namespace Keeps

variable {keys : List String} {sub sub' sub'' : Submission}

theorem refl (sub : Submission) : Keeps keys sub sub := ⟨rfl, rfl, fun _ _ => rfl⟩

theorem trans (h : Keeps keys sub sub') (h' : Keeps keys sub' sub'') : Keeps keys sub sub'' where
  jobId := h'.jobId.trans h.jobId
  sourceKind := h'.sourceKind.trans h.sourceKind
  lookup key hkey := (h'.lookup key hkey).trans (h.lookup key hkey)

theorem symm (h : Keeps keys sub sub') : Keeps keys sub' sub where
  jobId := h.jobId.symm
  sourceKind := h.sourceKind.symm
  lookup key hkey := (h.lookup key hkey).symm

theorem mono {keys' : List String} (h : Keeps keys sub sub') (hkeys : keys ⊆ keys') :
    Keeps keys' sub sub' :=
  ⟨h.jobId, h.sourceKind, fun key hkey => h.lookup key fun hmem => hkey (hkeys hmem)⟩

theorem get (h : Keeps keys sub sub') (key : String) (hkey : key ∉ keys) :
    sub'.runtimeState.get key = sub.runtimeState.get key := by
  rw [Payload.get, h.lookup key hkey, Payload.get]

theorem text (h : Keeps keys sub sub') (key : String) (hkey : key ∉ keys) :
    host.text sub'.runtimeState key = host.text sub.runtimeState key := by
  rw [Host.text, h.get key hkey, Host.text]

theorem requestAnchor (h : Keeps keys sub sub') (hfirst : "request_anchor" ∉ keys)
    (hsecond : "req_id" ∉ keys) :
    Service.requestAnchor host.toLibrary sub' = Service.requestAnchor host.toLibrary sub := by
  simp only [Service.requestAnchor, h.get _ hfirst, h.get _ hsecond, h.jobId]

end Keeps

theorem keeps_override (sub : Submission) (overlay : Payload) :
    Keeps (overlay.map Prod.fst) sub
      { sub with runtimeState := override sub.runtimeState overlay } :=
  ⟨rfl, rfl, fun _ hkey => lookup_override_of_notMem hkey⟩

/-- `int(value)` -/
def intOf : Value → Option ℤ
  | .bool b => some (if b then 1 else 0)
  | .int n => some n
  | .float integer _ => integer
  | .str s => (strip s).toInt?
  | .null | .container _ _ => none

/-- `text or None` -/
def orNull (text : String) : Value := if text = "" then .null else .str text

/-- A key that is left out when its text is empty. -/
def optional (key text : String) : Payload := if text = "" then [] else [(key, .str text)]

/-- `Path(path).stem` -/
def pathStem (path : String) : String :=
  let name := (path.toList.reverse.takeWhile fun c => c != '/').reverse
  let suffix := (name.reverse.takeWhile fun c => c != '.').length
  if name.contains '.' && suffix != 0 && suffix + 1 < name.length then
    String.ofList (name.take (name.length - suffix - 1))
  else String.ofList name

/-- `status.value` -/
def statusValue : Status → String
  | .completed => "completed"
  | .cancelled => "cancelled"
  | .failed => "failed"
  | .incomplete => "incomplete"

/-- `{**base, **overlay} != base` -/
def changes (base overlay : Payload) : Bool :=
  overlay.any fun entry => base.lookup entry.1 != some entry.2

/-! ### Session logs -/

/-- An entry of a session log: the fields the reader gives it, the raw entry and the cause
the raw entry names. -/
structure LogEvent where
  fields : Payload
  entry : Payload
  cause : Payload
  deriving DecidableEq

/-- A read that found something. -/
structure Batch where
  events : List LogEvent
  state : Value
  nonempty : events ≠ []

/-- The reads of one poll, up to the read that finds nothing. -/
structure Reads where
  batches : List Batch
  last : Value

/-- A session log, read from the place a reader is at. A reader that finds something
moves on. -/
structure SessionLog where
  reads : Value → Reads
  moves : ∀ state, (reads state).batches ≠ [] → (reads state).last ≠ state

/-! ### Worlds -/

/-- A hook artifact with a status the program knows. -/
structure HookEvent where
  fields : Payload
  diagnostics : Payload
  status : Status

structure Session where
  /-- `ensure_pane` -/
  pane : Except String String
  hasBackend : Bool
  /-- `completion_dir_from_session_data` -/
  completionDir : String
  /-- `reader.capture_state` -/
  captured : Value
  readyTimeout : Value
  /-- The prompt of a message body, for a request anchor. -/
  wrapPrompt : String → String → String

structure World where
  now : Active.Now
  /-- A clock reading has no space around it. -/
  now_stripped : strip now.text = now.text
  paneAlive : Bool
  /-- `get_pane_content`, unless it is missing or fails. -/
  paneText : Option String
  hookEvent : String → String → Option HookEvent
  /-- The log a workspace's session is bound to, if it exists. -/
  currentLog : String → Option String
  /-- The reader is one for that log. -/
  readerBound : Bool
  log : SessionLog
  /-- `try_get_message` -/
  message : Value → Option String × Value
  session : Option Session

/-! ### Preparing a poll -/

/-- `submission.runtime_state.get('state') or {}` -/
def readerState (sub : Submission) : Value :=
  let state := sub.runtimeState.get "state"
  if state.truthy then state else .container false "{}"

/-- `runtime_mode_error` -/
def runtimeModeError (sub : Submission) (now : Active.Now) : Option PollResult :=
  let mode := orElse (host.text sub.runtimeState "mode") "passive"
  let reason := host.text sub.runtimeState "reason"
  let error := host.text sub.runtimeState "error"
  if mode = "passive" then
    some (Active.runtimeErrorResult sub now (orElse reason "runtime_unavailable") error)
  else if mode = "error" then
    some (Active.runtimeErrorResult sub now (orElse reason "transport_error") error)
  else none

/-- `ensure_active_pane_alive` -/
def ensureActivePaneAlive (sub : Submission) (w : World) : Option PollResult :=
  if w.paneAlive then none else some (Active.paneDeadResult sub w.now "pane_dead")

/-- `prepare_active_poll_without_liveness`: nothing is wrong, or the result of the poll. -/
def prepareActivePollWithoutLiveness (sub : Submission) (w : World) : Option PollResult :=
  match runtimeModeError host sub w.now with
  | some result => some result
  | none =>
    if host.text sub.runtimeState "pane_id" = "" then
      some (Active.runtimeErrorResult sub w.now "runtime_state_corrupt" "")
    else none

/-- `prepare_active_poll` -/
def prepareActivePoll (sub : Submission) (w : World) : Option PollResult :=
  (prepareActivePollWithoutLiveness host sub w).or (ensureActivePaneAlive sub w)

/-- The runtime of the submission is there, in active mode. -/
def pollable (sub : Submission) : Prop :=
  let mode := orElse (host.text sub.runtimeState "mode") "passive"
  mode ≠ "passive" ∧ mode ≠ "error" ∧ host.text sub.runtimeState "pane_id" ≠ ""

instance (sub : Submission) : Decidable (pollable host sub) :=
  inferInstanceAs (Decidable (_ ∧ _ ∧ _))

theorem Keeps.pollable {keys : List String} {sub sub' : Submission} (h : Keeps keys sub sub')
    (hmode : "mode" ∉ keys) (hpane : "pane_id" ∉ keys) :
    pollable host sub' ↔ pollable host sub := by
  simp only [Providers.pollable, h.text host _ hmode, h.text host _ hpane]

theorem prepareActivePollWithoutLiveness_eq_none {sub : Submission} {w : World} :
    prepareActivePollWithoutLiveness host sub w = none ↔ pollable host sub := by
  simp only [prepareActivePollWithoutLiveness, runtimeModeError, pollable]
  split_ifs <;> simp_all

theorem ensureActivePaneAlive_eq_none {sub : Submission} {w : World} :
    ensureActivePaneAlive sub w = none ↔ w.paneAlive = true := by
  simp only [ensureActivePaneAlive]
  split_ifs <;> simp_all

theorem prepareActivePoll_eq_none {sub : Submission} {w : World} :
    prepareActivePoll host sub w = none ↔ pollable host sub ∧ w.paneAlive = true := by
  rw [prepareActivePoll, Option.or_eq_none_iff, prepareActivePollWithoutLiveness_eq_none,
    ensureActivePaneAlive_eq_none]

/-! ### Items -/

/-- `build_item` with the session path and the offset of its cursor. -/
def buildItemAt (sub : Submission) (kind : ItemKind) (now : Active.Now) (seq : ℕ)
    (payload : Payload) (sessionPath : String) (offset : Option ℕ) : Item :=
  let item := Active.buildItem sub kind now seq payload
  { item with
    cursor := { item.cursor with
      sessionPath := if sessionPath = "" then none else some sessionPath
      offset := offset } }

/-! ### Starting and resuming -/

structure Job where
  jobId : String
  provider : String
  body : String
  messageType : String
  noWrap : Bool

structure PreparedActiveStart where
  session : Session
  workDir : String
  paneId : String

def submissionOf (job : Job) (sourceKind : SourceKind) (now : Active.Now)
    (diagnostics runtimeState : Payload) : Submission :=
  { jobId := job.jobId
    provider := job.provider
    acceptedAt := now.text
    readyAt := now.text
    sourceKind := sourceKind
    reply := ""
    status := .incomplete
    reason := "in_progress"
    confidence := .observed
    diagnostics := diagnostics
    runtimeState := runtimeState }

def errorSubmission (job : Job) (sourceKind : SourceKind) (now : Active.Now)
    (reason error : String) : Submission :=
  submissionOf job sourceKind now
    [("provider", .str job.provider), ("mode", .str "error"), ("reason", .str reason),
      ("error", .str error)]
    [("mode", .str "error"), ("reason", .str reason), ("error", .str error), ("next_seq", .int 1)]

def activeSubmission (job : Job) (sourceKind : SourceKind) (now : Active.Now) (workDir : String)
    (runtimeState : Payload) : Submission :=
  submissionOf job sourceKind now
    [("provider", .str job.provider), ("mode", .str "active"), ("workspace_path", .str workDir)]
    runtimeState

/-- The workspace of a context, unless it has none. -/
def workspaceOf (context : Option RuntimeContext) : Option String :=
  (context.bind RuntimeContext.workspacePath).filter fun path => path ≠ ""

def prepareActiveStart (job : Job) (context : Option RuntimeContext) (sourceKind : SourceKind)
    (missingSessionReason : String) (w : World) : Except Submission PreparedActiveStart :=
  let failed := errorSubmission job sourceKind w.now
  match workspaceOf context with
  | none => .error (failed "runtime_unavailable" "missing_runtime_context")
  | some path =>
    match w.session with
    | none => .error (failed "runtime_unavailable" missingSessionReason)
    | some session =>
      match session.pane with
      | .error reason => .error (failed "pane_unavailable" reason)
      | .ok paneId =>
        if session.hasBackend then .ok ⟨session, host.expandUser path, paneId⟩
        else .error (failed "backend_unavailable" "terminal backend not available")

theorem error_of_prepareActiveStart {job : Job} {context : Option RuntimeContext}
    {sourceKind : SourceKind} {missing : String} {w : World} {sub : Submission}
    (h : prepareActiveStart host job context sourceKind missing w = .error sub) :
    ∃ reason error, sub = errorSubmission job sourceKind w.now reason error := by
  rw [prepareActiveStart] at h
  split at h
  · exact ⟨_, _, (Except.error.inj h).symm⟩
  · split at h
    · exact ⟨_, _, (Except.error.inj h).symm⟩
    · split at h
      · exact ⟨_, _, (Except.error.inj h).symm⟩
      · split at h
        · cases h
        · exact ⟨_, _, (Except.error.inj h).symm⟩

/-- The session and the pane of a submission that is taken up again: it is active, its
context has a workspace, and the session found there has a pane and a backend. -/
def resumedSession (sub : Submission) (context : Option RuntimeContext) (w : World) :
    Option (String × Session × String) :=
  match workspaceOf context with
  | none => none
  | some path =>
    if orElse (host.text sub.runtimeState "mode") "passive" ≠ "active" then none
    else
      match w.session with
      | none => none
      | some session =>
        match session.pane with
        | .error _ => none
        | .ok paneId =>
          if session.hasBackend then some (host.expandUser path, session, paneId) else none

/-! ### A sample host -/

namespace Sample

def python : Host :=
  { str := fun
      | .str s => s
      | _ => ""
    elapsed := fun _ _ => none
    deadlineAt := fun _ _ => none
    float := fun _ => none
    expandUser := id
    stateGet := fun _ _ => .null
    statePath := fun _ _ => "/log/a.jsonl"
    rebound := fun state _ => state
    str_str := fun _ => rfl
    float_null := rfl }

/-- A reader state is the number of the events read. -/
def place : Value → ℕ
  | .int n => n.toNat
  | _ => 0

/-- The log has grown to so many events, and a read finds all of them. -/
def log (events : List LogEvent) (upto : ℕ) : SessionLog where
  reads state :=
    let found := (events.take upto).drop (place state)
    if h : found = [] then ⟨[], state⟩ else ⟨[⟨found, .int upto, h⟩], .int upto⟩
  moves state h := by
    dsimp only at h ⊢
    split at h
    · exact absurd rfl h
    · rename_i hfound
      rw [dif_neg hfound]
      intro hsame
      have hstate : Value.int upto = state := hsame
      subst hstate
      exact hfound (List.drop_eq_nil_of_le (by simp [place]))

def world (events : List LogEvent) (upto : ℕ) : World where
  now := Active.Sample.now
  now_stripped := by decide
  paneAlive := true
  paneText := none
  hookEvent _ _ := none
  currentLog _ := none
  readerBound := true
  log := log events upto
  message state := (none, state)
  session := none

def event (role text : String) : LogEvent :=
  ⟨[("role", .str role), ("text", .str text)], [], []⟩

end Sample

end CodexBridge.Providers
