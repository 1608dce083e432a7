import CodexBridge.Providers.ClaudeGates

/-! The jobs of Codex and of Claude whose prompt is wrapped. Until the user event with the anchor
has come in the current session, the log makes no item of a turn and no decision; only the
terminal API errors of Claude are not held back. -/

namespace CodexBridge.Providers

open Completion Execution

/-- What a poll makes of the log: the items of a turn and the decision come after the anchor,
except those of exempt events. -/
structure Gates (host : Host) (isUser exempt : LogEvent → Bool) (anchor : String)
    (origins : List Origin) (result : PollResult) : Prop where
  items : result.items = origins.map Origin.item
  turn : ∀ origin ∈ origins, ofTurn origin.item.kind = true →
    origin.view.Carries host isUser anchor ∨
      origin.item.kind = .error ∧ ∃ event, origin.made = .event event ∧ exempt event = true
  decision : result.decision ≠ none →
    ∃ origin ∈ origins, origin.item.kind = .error ∧
      ∃ event, origin.made = .event event ∧ exempt event = true

variable (host : Host)

/-- The log of a submission that has not been polled. -/
def unread (sub : Submission) : LogView := ⟨host.text sub.runtimeState "session_path", []⟩

/-! ### Jobs -/

variable (job : Job) (context : Option RuntimeContext) (w₀ : World)

namespace Codex

/-- The polls of a job lead to the submission, with the log as read by then. -/
def Reaches : Submission → LogView → Prop :=
  Polled (poll host) (viewAfter host) (fun _ _ => True) (start host job context w₀)
    (unread host (start host job context w₀))

theorem start_armed (hwrap : job.noWrap = false) :
    Armed host (Service.requestAnchor host.toLibrary (start host job context w₀))
      (start host job context w₀) (unread host (start host job context w₀)) := by
  have hkeys : ((start host job context w₀).runtimeState.get "anchor_seen").truthy = false ∧
      ((start host job context w₀).runtimeState.get "no_wrap").truthy = false := by
    rw [start]
    split
    · rename_i sub herror
      obtain ⟨reason, error, rfl⟩ := error_of_prepareActiveStart host herror
      exact ⟨rfl, rfl⟩
    · exact ⟨hwrap, hwrap⟩
  refine ⟨⟨rfl, rfl, fun hseen => ?_⟩, hkeys.2⟩
  have hseen : ((start host job context w₀).runtimeState.get "anchor_seen").truthy = true := hseen
  exact absurd hseen (hkeys.1 ▸ Bool.false_ne_true)

theorem Reaches.armed (hwrap : job.noWrap = false) {sub : Submission} {seen : LogView}
    (h : Reaches host job context w₀ sub seen) :
    Armed host (Service.requestAnchor host.toLibrary (start host job context w₀)) sub seen :=
  Polled.invariant (fun _ _ w _ harmed => harmed.poll host w)
    (start_armed host job context w₀ hwrap) h

end Codex

namespace Claude

/-- The polls of a job, none of which makes the prompt count as the anchor, lead to the
submission, with the log as read by then. -/
def Reaches : Submission → LogView → Prop :=
  Polled (poll host) (viewAfter host) (NoAnchorEmitted host) (start host job context w₀)
    (unread host (start host job context w₀))

theorem start_armed (hwrap : job.noWrap = false) :
    Armed host (Service.requestAnchor host.toLibrary (start host job context w₀))
      (start host job context w₀) (unread host (start host job context w₀)) := by
  have hkeys : ((start host job context w₀).runtimeState.get "anchor_seen").truthy = false ∧
      ((start host job context w₀).runtimeState.get "no_wrap").truthy = false ∧
        host.text (start host job context w₀).runtimeState "last_assistant_uuid" = "" := by
    rw [start]
    split
    · rename_i sub herror
      obtain ⟨reason, error, rfl⟩ := error_of_prepareActiveStart host herror
      exact ⟨rfl, rfl, rfl⟩
    · exact ⟨hwrap, hwrap, rfl⟩
  refine ⟨⟨rfl, rfl, fun hseen => ?_⟩, hkeys.2.1⟩
  obtain hseen | huuid := hseen
  · have hseen : ((start host job context w₀).runtimeState.get "anchor_seen").truthy = true :=
      hseen
    exact absurd hseen (hkeys.1 ▸ Bool.false_ne_true)
  · exact absurd hkeys.2.2 huuid

theorem Reaches.armed (hwrap : job.noWrap = false) {sub : Submission} {seen : LogView}
    (h : Reaches host job context w₀ sub seen) :
    Armed host (Service.requestAnchor host.toLibrary (start host job context w₀)) sub seen :=
  Polled.invariant (fun _ _ _ hquiet harmed => harmed.poll host hquiet)
    (start_armed host job context w₀ hwrap) h

end Claude

/-- Earlier turns do not decide a job, except that a terminal API error of Claude does. -/
theorem earlier_turns_gated (hwrap : job.noWrap = false) :
    (∀ sub seen, Codex.Reaches host job context w₀ sub seen → ∀ w,
      (Codex.ReadsLog host sub w → ∀ result, Codex.poll host sub w = some result →
        Gates host (Codex.isUser host) (fun _ => false)
          (Service.requestAnchor host.toLibrary (Codex.start host job context w₀))
          (Codex.pollOrigins host sub w seen) result) ∧
      (¬ Codex.ReadsLog host sub w → ∀ log : SessionLog,
        Codex.poll host sub { w with log := log } = Codex.poll host sub w)) ∧
    (∀ sub seen, Claude.Reaches host job context w₀ sub seen → ∀ w,
      Claude.NoAnchorEmitted host sub w →
      (Claude.readsLog host sub w = true → ∀ result, Claude.poll host sub w = some result →
        Gates host (Claude.isUser host) (Claude.isApiError host)
          (Service.requestAnchor host.toLibrary (Claude.start host job context w₀))
          (Claude.pollOrigins host sub w seen) result) ∧
      (Claude.readsLog host sub w = false → ∀ log : SessionLog,
        Claude.poll host sub { w with log := log } = Claude.poll host sub w)) := by
  refine ⟨fun sub seen hreached w => ⟨fun hreads result hpoll => ?_, fun hreads log => ?_⟩,
    fun sub seen hreached w hquiet => ⟨fun hreads result hpoll => ?_, fun hreads log => ?_⟩⟩
  · have harmed := hreached.armed host job context w₀ hwrap
    obtain ⟨hitems, hdecision⟩ := Codex.poll_origins host hreads hpoll seen
    exact
      { items := hitems
        turn := fun origin horigin hturn => .inl (harmed.origins host w origin horigin hturn)
        decision := fun hne => absurd hdecision hne }
  · exact Codex.poll_log host hreads log
  · have harmed := hreached.armed host job context w₀ hwrap
    have horigins := harmed.origins host hquiet
    cases (Claude.poll_of_readsLog' host hreads hquiet).symm.trans hpoll
    obtain ⟨hitems, hdecision⟩ := Claude.readLog_origins host sub w seen
    refine ⟨hitems, fun origin horigin hturn => ?_, fun hne => ?_⟩
    · by_cases herror : origin.item.kind = .error
      · exact .inr ⟨herror, (horigins origin horigin).1 herror⟩
      · exact .inl ((horigins origin horigin).2 hturn herror)
    · obtain ⟨origin, horigin, herror⟩ := hdecision hne
      exact ⟨origin, horigin, herror, (horigins origin horigin).1 herror⟩
  · obtain ⟨result, hpoll, -⟩ := Claude.poll_of_not_readsLog host hreads
    exact (hpoll log).trans (hpoll w.log).symm

/-! ### A leftover of the turn before -/

namespace Sample

def wrappedJob : Job := ⟨"job_1", "claude", "hello", "ask", false⟩

def openSession : Session :=
  { pane := .ok "%2"
    hasBackend := true
    completionDir := ""
    captured := .int 0
    readyTimeout := .null
    wrapPrompt := fun body _ => body }

def openContext : Option RuntimeContext := some ⟨some "/work", some "pane-backed"⟩

/-- The requests to the provider have been given up. -/
def apiErrorEvent : LogEvent :=
  ⟨[("role", .str "system"), ("text", .str ""), ("entry_type", .str "system"),
      ("subtype", .str "api_error")],
    [("retryAttempt", .int 3), ("maxRetries", .int 3)], [("code", .str "Unauthorized")]⟩

def opened (events : List LogEvent) (upto : ℕ) : World :=
  { world events upto with session := some openSession }

def turnEvents : List LogEvent :=
  [event "assistant" "earlier", event "user" "CCB_REQ_ID: job_1", event "assistant" "done"]

def codexStart : Submission := Codex.start python wrappedJob openContext (opened turnEvents 0)

def claudeStart : Submission := Claude.start python wrappedJob openContext (opened turnEvents 0)

def failingStart : Submission :=
  Claude.start python wrappedJob openContext (opened [apiErrorEvent] 0)

end Sample

/-- The job makes an item of what comes after its anchor and none of what came before. -/
theorem turn_after_anchor :
    (∃ result, Codex.poll Sample.python Sample.codexStart (Sample.opened Sample.turnEvents 3) =
        some result ∧ result.items.length = 2 ∧
      Gates Sample.python (Codex.isUser Sample.python) (fun _ => false)
        (Service.requestAnchor Sample.python.toLibrary Sample.codexStart)
        (Codex.pollOrigins Sample.python Sample.codexStart (Sample.opened Sample.turnEvents 3)
          (unread Sample.python Sample.codexStart)) result) ∧
    ∃ result, Claude.poll Sample.python Sample.claudeStart (Sample.opened Sample.turnEvents 3) =
        some result ∧ result.items.length = 2 ∧
      Gates Sample.python (Claude.isUser Sample.python) (Claude.isApiError Sample.python)
        (Service.requestAnchor Sample.python.toLibrary Sample.claudeStart)
        (Claude.pollOrigins Sample.python Sample.claudeStart (Sample.opened Sample.turnEvents 3)
          (unread Sample.python Sample.claudeStart)) result := by
  obtain ⟨hcodex, hclaude⟩ := earlier_turns_gated Sample.python Sample.wrappedJob
    Sample.openContext (Sample.opened Sample.turnEvents 0) rfl
  have hcodexItems : (Codex.poll Sample.python Sample.codexStart
      (Sample.opened Sample.turnEvents 3)).map (fun result => result.items.length) = some 2 := by
    decide +kernel
  have hclaudeItems : (Claude.poll Sample.python Sample.claudeStart
      (Sample.opened Sample.turnEvents 3)).map (fun result => result.items.length) = some 2 := by
    decide +kernel
  obtain ⟨result, hpoll, hlength⟩ := Option.map_eq_some_iff.mp hcodexItems
  obtain ⟨result', hpoll', hlength'⟩ := Option.map_eq_some_iff.mp hclaudeItems
  refine ⟨⟨result, hpoll, hlength, ?_⟩, result', hpoll', hlength', ?_⟩
  · exact (hcodex _ _ .start _).1 (by decide +kernel) result hpoll
  · exact (hclaude _ _ .start _ (by decide +kernel)).1 (by decide +kernel) result' hpoll'

/-- A job of Claude fails with an error that came before its anchor. -/
theorem failed_before_anchor :
    Claude.NoAnchorEmitted Sample.python Sample.failingStart
        (Sample.opened [Sample.apiErrorEvent] 1) ∧
      (Claude.pollOrigins Sample.python Sample.failingStart
        (Sample.opened [Sample.apiErrorEvent] 1)
        (unread Sample.python Sample.failingStart)).map
          (fun origin => (origin.item.kind, origin.view.events)) = [(.error, [])] ∧
      (Claude.poll Sample.python Sample.failingStart
        (Sample.opened [Sample.apiErrorEvent] 1)).map
          (fun result => (result.items.map Item.kind, result.decision.isSome)) =
        some ([.error], true) := by
  refine ⟨?_, ?_, ?_⟩ <;> decide +kernel

end CodexBridge.Providers
