import CodexBridge.Providers.Moves

/-! The adapters with a reliability policy, as the execution service sees them. Whatever a poll or
a resume makes of a submission, it leaves the time the submission was accepted and ready and the
time of its last progress as they are. -/

namespace CodexBridge.Providers

open Completion Execution

variable (host : Host) (job : Job)

/-! ### The adapters -/

/-- `CompletionReliabilityPolicy`, of an adapter over a pane. -/
def paneReliabilityPolicy (primaryAuthority : String) (noTerminalTimeout : ℚ) : ReliabilityPolicy :=
  { noTerminalTimeout := noTerminalTimeout
    primaryAuthority := primaryAuthority
    backendType := some "pane-backed"
    timeoutStatus := .incomplete
    timeoutReason := "completion_timeout"
    timeoutConfidence := .degraded }

/-- `execution_restore_capability`, of an adapter that exports and resumes. -/
def resumableCapability : Payload :=
  [("resume_supported", .bool true), ("restore_mode", .str "provider_resume"),
    ("restore_reason", .null),
    ("restore_detail", .str "provider execution can be resumed after ccbd restart")]

def codexProviderAdapter (noTerminalTimeout : ℚ) : Adapter World :=
  { start := Codex.start host job
    poll := Codex.poll host
    exportRuntimeState := some fun sub => some (Codex.exportRuntimeState host sub)
    resume := some (Codex.resume host)
    restoreCapability := resumableCapability
    reliabilityPolicy := some (paneReliabilityPolicy "protocol_log" noTerminalTimeout) }

def claudeProviderAdapter (noTerminalTimeout : ℚ) : Adapter World :=
  { start := Claude.start host job
    poll := Claude.poll host
    exportRuntimeState := some fun sub => some (Claude.exportRuntimeState host sub)
    resume := some (Claude.resume host)
    restoreCapability := resumableCapability
    reliabilityPolicy :=
      some (paneReliabilityPolicy "hook_artifact_or_session_event_log" noTerminalTimeout) }

def geminiProviderAdapter (noTerminalTimeout : ℚ) : Adapter World :=
  { start := Gemini.start host job
    poll := Gemini.poll host
    exportRuntimeState := some fun sub => some (Gemini.exportRuntimeState host sub)
    resume := some (Gemini.resume host)
    restoreCapability := resumableCapability
    reliabilityPolicy :=
      some (paneReliabilityPolicy "hook_artifact_or_session_snapshot" noTerminalTimeout) }

/-- The registry, of the adapters with a reliability policy: no other one ends a job that is
silent. The timeouts are those in effect. -/
def monitoredRegistry (noTerminalTimeout : String → ℚ) : Registry World := fun provider =>
  let provider := lower (strip provider)
  if provider = "codex" then some (codexProviderAdapter host job (noTerminalTimeout provider))
  else if provider = "claude" then
    some (claudeProviderAdapter host job (noTerminalTimeout provider))
  else if provider = "gemini" then
    some (geminiProviderAdapter host job (noTerminalTimeout provider))
  else none

/-! ### What a submission keeps -/

def lastProgressKey : String := "reliability_last_progress_at"

/-- The submission is of the same provider, ready since the same time, and its last progress is
the same. -/
structure Unstamped (sub sub' : Submission) : Prop where
  provider : sub'.provider = sub.provider
  acceptedAt : sub'.acceptedAt = sub.acceptedAt
  readyAt : sub'.readyAt = sub.readyAt
  lastProgress : sub'.runtimeState.get lastProgressKey = sub.runtimeState.get lastProgressKey

namespace Unstamped

variable {sub : Submission}

/-- Other keys may be written, and the reply may change. -/
theorem written {overlay : Payload} (h : lastProgressKey ∉ overlay.map Prod.fst) (reply : String) :
    Unstamped sub
      { sub with reply := reply, runtimeState := override sub.runtimeState overlay } where
  provider := rfl
  acceptedAt := rfl
  readyAt := rfl
  lastProgress := by rw [Payload.get, lookup_override_of_notMem h, Payload.get]

end Unstamped

theorem Moved.unstamped {keys : List String} {sub sub' : Submission} (h : Moved keys sub sub')
    (hkey : lastProgressKey ∉ keys) : Unstamped sub sub' :=
  ⟨h.provider, h.acceptedAt, h.readyAt, h.get hkey⟩

/-- A submission that is taken up again is written under a few keys of its own. -/
theorem unstamped_of_resumed {α : Type} {sub sub' : Submission} {found : Option α}
    {overlay : α → Payload} (hoverlay : ∀ a, lastProgressKey ∉ (overlay a).map Prod.fst)
    (h : (found.map fun a =>
      { sub with runtimeState := override sub.runtimeState (overlay a) }) = some sub') :
    Unstamped sub sub' := by
  obtain ⟨a, -, rfl⟩ := Option.map_eq_some_iff.mp h
  exact Unstamped.written (hoverlay a) sub.reply

/-! ### Steady adapters -/

/-- A submission as it starts: ready at once, without any progress so far. -/
structure JustStarted (job : Job) (w : World) (sub : Submission) : Prop where
  provider : sub.provider = job.provider
  readyAt : sub.readyAt = w.now.text
  lastProgress : sub.runtimeState.get lastProgressKey = .null

/-- The last progress of a submission is never an adapter's to write. -/
structure Steady (job : Job) (adapter : Adapter World) : Prop where
  start : ∀ context w, JustStarted job w (adapter.start context w)
  poll : ∀ sub w result, adapter.poll sub w = some result → Unstamped sub result.submission
  exported : ∀ exporter sub payload, adapter.exportRuntimeState = some exporter →
    exporter sub = some payload → payload.lookup lastProgressKey = none
  resume : ∀ resume sub context w sub', adapter.resume = some resume →
    resume sub context w = some sub' → Unstamped sub sub'

theorem justStarted_errorSubmission {w : World} (sourceKind : SourceKind) (reason error : String) :
    JustStarted job w (errorSubmission job sourceKind w.now reason error) :=
  ⟨rfl, rfl, by simp [errorSubmission, submissionOf, Payload.get, List.lookup_cons,
    lastProgressKey]⟩

theorem prepareActiveStart_error {context : Option RuntimeContext} {sourceKind : SourceKind}
    {reason : String} {w : World} {sub : Submission}
    (h : prepareActiveStart host job context sourceKind reason w = .error sub) :
    JustStarted job w sub := by
  obtain ⟨reason, error, rfl⟩ := error_of_prepareActiveStart host h
  exact justStarted_errorSubmission job _ _ _

theorem codexProviderAdapter_steady (noTerminalTimeout : ℚ) :
    Steady job (codexProviderAdapter host job noTerminalTimeout) where
  start context w := by
    simp only [codexProviderAdapter, Codex.start]
    split
    · rename_i sub hsub
      exact prepareActiveStart_error host job hsub
    · exact ⟨rfl, rfl, by simp [activeSubmission, submissionOf, Payload.get, List.lookup_cons,
        lastProgressKey]⟩
  poll _ _ _ h := (Codex.poll_moved host h).unstamped (by decide)
  exported := by
    rintro _ sub _ ⟨⟩ ⟨⟩
    simp [Codex.exportRuntimeState, Codex.exportedKeys, List.lookup_cons, lastProgressKey]
  resume := by
    rintro _ sub context w sub' ⟨⟩ h
    exact unstamped_of_resumed (by simp [lastProgressKey]) h

theorem claudeProviderAdapter_steady (noTerminalTimeout : ℚ) :
    Steady job (claudeProviderAdapter host job noTerminalTimeout) where
  start context w := by
    simp only [claudeProviderAdapter, Claude.start]
    split
    · rename_i sub hsub
      exact prepareActiveStart_error host job hsub
    · exact ⟨rfl, rfl, by simp [activeSubmission, submissionOf, Payload.get, List.lookup_cons,
        lastProgressKey]⟩
  poll _ _ _ h := (Claude.poll_moved host h).unstamped (by decide)
  exported := by
    rintro _ sub _ ⟨⟩ ⟨⟩
    simp [Claude.exportRuntimeState, Claude.exportedKeys, List.lookup_cons, lastProgressKey]
  resume := by
    rintro _ sub context w sub' ⟨⟩ h
    exact unstamped_of_resumed (by simp [lastProgressKey]) h

theorem geminiProviderAdapter_steady (noTerminalTimeout : ℚ) :
    Steady job (geminiProviderAdapter host job noTerminalTimeout) where
  start context w := by
    simp only [geminiProviderAdapter, Gemini.start]
    split
    · rename_i sub hsub
      exact prepareActiveStart_error host job hsub
    · exact ⟨rfl, rfl, by simp [activeSubmission, submissionOf, Payload.get, List.lookup_cons,
        lastProgressKey]⟩
  poll _ _ _ h := (Gemini.poll_moved host h).unstamped (by decide)
  exported := by
    rintro _ sub _ ⟨⟩ ⟨⟩
    simp [Gemini.exportRuntimeState, Gemini.exportedKeys, List.lookup_cons, lastProgressKey]
  resume := by
    rintro _ sub context w sub' ⟨⟩ h
    exact unstamped_of_resumed (by simp [lastProgressKey]) h

theorem monitoredRegistry_steady {noTerminalTimeout : String → ℚ} {provider : String}
    {adapter : Adapter World}
    (h : monitoredRegistry host job noTerminalTimeout provider = some adapter) :
    Steady job adapter := by
  simp only [monitoredRegistry] at h
  split_ifs at h <;> cases h
  · exact codexProviderAdapter_steady host job _
  · exact claudeProviderAdapter_steady host job _
  · exact geminiProviderAdapter_steady host job _

end CodexBridge.Providers
