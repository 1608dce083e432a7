import CodexBridge.Providers.Claude
import CodexBridge.Providers.LogSteps

/-! The polls of the Claude adapter as a machine over the steps of the session log. A
terminal API error stops it like the end of a turn. The prompt stage comes before the
log and makes at most one item. -/

namespace CodexBridge.Providers

open Completion Execution

namespace Claude

variable (host : Host)

/-! ### The Claude machine -/

/-- The parsing state after a terminal API error. -/
def failed (sub : Submission) (now : Active.Now) (poll : PollState) (apiError : ApiError) :
    PollState :=
  { poll with
    items := poll.items ++ [apiErrorItem sub now poll apiError]
    nextSeq := poll.nextSeq + 1
    reachedTurnBoundary := true }

def stepSystem (sub : Submission) (now : Active.Now) (poll : PollState) (event : LogEvent) :
    PollState :=
  match terminalApiErrorPayload host event with
  | some apiError => failed sub now poll apiError
  | none =>
    if isTurnBoundaryEvent host event poll.lastAssistantUuid then
      { poll.emit sub now .turnBoundary
          [("reason", .str "turn_duration"), ("last_agent_message", .str poll.replyBuffer),
            ("turn_id", .str poll.requestAnchor), ("session_path", orNull poll.sessionPath),
            ("assistant_uuid", orNull poll.lastAssistantUuid)] with
        reachedTurnBoundary := true }
    else poll

def stepEvent (sub : Submission) (now : Active.Now) (poll : PollState) (event : LogEvent) :
    PollState :=
  let role := host.text event.fields "role"
  if role = "user" then handleUserEvent sub now poll (host.text event.fields "text")
  else if role = "system" then stepSystem host sub now poll event
  else if role = "assistant" ∧ poll.anchorSeen then handleAssistantEvent host sub now poll event
  else poll

def step (sub : Submission) (now : Active.Now) (poll : PollState) : LogStep → PollState
  | .session path => applySessionRotation sub now poll path
  | .event event => stepEvent host sub now poll event

/-- The machine comes to what the adapter comes to, and says whether it has failed. -/
def Follows (sub : Submission) (now : Active.Now) (final : PollState) :
    Except PollResult PollState → Prop
  | .ok poll => final = poll
  | .error result => ∃ poll apiError state,
      final = failed sub now poll apiError ∧ result = apiErrorResult sub now poll apiError state

theorem processEvent_follows (sub : Submission) (now : Active.Now) (state : Value)
    (poll : PollState) (event : LogEvent) :
    Follows sub now (stepEvent host sub now poll event)
      (processEvent host sub now state poll event) := by
  have hsystem : Follows sub now (stepSystem host sub now poll event)
      (handleSystemEvent host sub now poll event state) := by
    rw [stepSystem, handleSystemEvent]
    cases terminalApiErrorPayload host event with
    | some apiError => exact ⟨poll, apiError, state, rfl, rfl⟩
    | none =>
      dsimp only
      split <;> rfl
  rw [stepEvent, processEvent]
  split
  · rfl
  · split
    · exact hsystem
    · split <;> rfl

theorem processEvents_follows (sub : Submission) (now : Active.Now) (state : Value)
    {poll : PollState} (h : poll.reachedTurnBoundary = false) (events : List LogEvent) :
    Follows sub now
      (runUntil (step host sub now) PollState.reachedTurnBoundary poll (events.map .event))
      (processEvents host sub now state poll events) := by
  induction events generalizing poll with
  | nil => rfl
  | cons event rest ih =>
    have hstep := processEvent_follows host sub now state poll event
    rw [List.map_cons, Halting.runUntil_cons h, processEvents, step]
    split
    · rename_i result hresult
      rw [hresult] at hstep
      obtain ⟨poll', apiError, state', hfailed, hresult⟩ := hstep
      rw [hfailed, Halting.runUntil_halted rfl]
      exact ⟨poll', apiError, state', rfl, hresult⟩
    · rename_i poll' hpoll
      rw [hpoll] at hstep
      have hsame : stepEvent host sub now poll event = poll' := hstep
      rw [hsame]
      split
      · rename_i hend
        exact Halting.runUntil_halted hend _
      · rename_i hend
        exact ih (by simpa using hend)

theorem reachedTurnBoundary_rotation (sub : Submission) (now : Active.Now) (poll : PollState)
    (path : String) :
    (applySessionRotation sub now poll path).reachedTurnBoundary = poll.reachedTurnBoundary := by
  simp only [applySessionRotation]
  split <;> rfl

/-- Where the reads cut the log makes no difference. -/
theorem pollEventBatches_follows (sub : Submission) (now : Active.Now) (reads : Reads)
    {poll : PollState} (h : poll.reachedTurnBoundary = false) :
    Follows sub now
      (runUntil (step host sub now) PollState.reachedTurnBoundary poll
        (reads.steps (stateSessionPath host)))
      ((pollEventBatches host sub now reads.last poll reads.batches).map Prod.fst) := by
  obtain ⟨batches, last⟩ := reads
  induction batches generalizing poll with
  | nil =>
    rw [Reads.steps, List.flatMap_nil, List.nil_append, Halting.runUntil_cons h]
    rfl
  | cons batch rest ih =>
    have hrot := reachedTurnBoundary_rotation sub now poll (stateSessionPath host batch.state)
    rw [h] at hrot
    have hevents := processEvents_follows host sub now batch.state hrot batch.events
    rw [Reads.steps, List.flatMap_cons, List.append_assoc, List.cons_append,
      Halting.runUntil_cons h, Halting.runUntil_append, pollEventBatches]
    simp only [step]
    split
    · rename_i result hresult
      rw [hresult] at hevents
      obtain ⟨poll', apiError, state', hfailed, hresult⟩ := hevents
      rw [hfailed, Halting.runUntil_halted rfl]
      exact ⟨poll', apiError, state', rfl, hresult⟩
    · rename_i poll' hpoll
      rw [hpoll] at hevents
      have hsame := show _ = poll' from hevents
      rw [hsame]
      split
      · rename_i hend
        exact Halting.runUntil_halted hend _
      · rename_i hend
        exact ih (by simpa using hend)

def emitter : Emitter PollState where
  items := PollState.items
  withItems poll items := { poll with items := items }
  reply := PollState.replyBuffer
  items_withItems _ _ := rfl
  withItems_items _ := rfl
  withItems_withItems _ _ _ := rfl
  reply_withItems _ _ := rfl

section Agreement

attribute [local irreducible] strip

variable {sub sub' : Submission} {now now' : Active.Now}

theorem rotation_agrees (hkind : sub.sourceKind = sub'.sourceKind)
    (hwrap : (sub.runtimeState.get "no_wrap").truthy = (sub'.runtimeState.get "no_wrap").truthy)
    (path : String) :
    emitter.Agree (fun poll => applySessionRotation sub now poll path)
      (fun poll => applySessionRotation sub' now' poll path) := by
  refine Emitter.Agree.ite (fun _ _ => Iff.rfl) (Emitter.Agree.refl) ?_
  refine Emitter.Agree.of_emit (fun _ => rfl) (fun poll l => ?_)
    (fun _ => timeless_buildItem hkind _ now now' _ _)
  rw [hwrap]
  rfl

theorem handleUserEvent_agrees (hkind : sub.sourceKind = sub'.sourceKind) (text : String) :
    emitter.Agree (fun poll => handleUserEvent sub now poll text)
      (fun poll => handleUserEvent sub' now' poll text) := by
  refine Emitter.Agree.ite (fun _ _ => Iff.rfl) ?_ (Emitter.Agree.refl)
  exact Emitter.Agree.of_emit (fun _ => rfl) (fun _ _ => rfl)
    (fun _ => timeless_buildItem hkind _ now now' _ _)

theorem appendChunkItem_agrees (hkind : sub.sourceKind = sub'.sourceKind) (event : LogEvent)
    (cleaned : PollState → String) (hcleaned : ∀ x l, cleaned (emitter.withItems x l) = cleaned x) :
    emitter.Agree (fun poll => appendChunkItem host sub now poll event (cleaned poll))
      (fun poll => appendChunkItem host sub' now' poll event (cleaned poll)) := by
  refine Emitter.Agree.of_emit (fun _ => rfl) (fun x l => ?_)
    (fun _ => timeless_buildItem hkind _ now now' _ _)
  rw [hcleaned]
  rfl

theorem maybeAppendTurnBoundary_agrees (hkind : sub.sourceKind = sub'.sourceKind) :
    emitter.Agree (fun poll => maybeAppendTurnBoundary sub now poll)
      (fun poll => maybeAppendTurnBoundary sub' now' poll) := by
  refine Emitter.Agree.ite (fun _ _ => Iff.rfl) (Emitter.Agree.refl) ?_
  exact Emitter.Agree.of_emit (fun _ => rfl) (fun _ _ => rfl)
    (fun _ => timeless_buildItem hkind _ now now' _ _)

theorem handleAssistantEvent_agrees (hkind : sub.sourceKind = sub'.sourceKind)
    (event : LogEvent) :
    emitter.Agree (fun poll => handleAssistantEvent host sub now poll event)
      (fun poll => handleAssistantEvent host sub' now' poll event) := by
  let text := host.text event.fields "text"
  let cleaned := fun poll : PollState => cleanedAssistantText text poll.requestAnchor
  have hbuffer : emitter.Agree
      (fun poll => { poll with rawBuffer := appendBuffer poll.rawBuffer text })
      (fun poll => { poll with rawBuffer := appendBuffer poll.rawBuffer text }) :=
    Emitter.Agree.of_quiet (fun _ => rfl) (fun _ _ => rfl) (fun _ => rfl)
  have hchunk : emitter.Agree
      (fun poll => if strip (cleaned poll) = "" then poll
        else appendChunkItem host sub now poll event (cleaned poll))
      (fun poll => if strip (cleaned poll) = "" then poll
        else appendChunkItem host sub' now' poll event (cleaned poll)) :=
    Emitter.Agree.ite (fun _ _ => Iff.rfl) Emitter.Agree.refl
      (appendChunkItem_agrees host hkind event cleaned fun _ _ => rfl)
  exact (maybeAppendTurnBoundary_agrees hkind).comp (hchunk.comp hbuffer)

theorem stepSystem_agrees (hkind : sub.sourceKind = sub'.sourceKind) (event : LogEvent) :
    emitter.Agree (fun poll => stepSystem host sub now poll event)
      (fun poll => stepSystem host sub' now' poll event) := by
  simp only [stepSystem]
  cases terminalApiErrorPayload host event with
  | some apiError =>
    exact Emitter.Agree.of_emit (fun _ => rfl) (fun _ _ => rfl)
      (fun _ => timeless_buildItem hkind _ _ _ _ _)
  | none =>
    refine Emitter.Agree.ite (fun _ _ => Iff.rfl) ?_ (Emitter.Agree.refl)
    exact Emitter.Agree.of_emit (fun _ => rfl) (fun _ _ => rfl)
      (fun _ => timeless_buildItem hkind _ now now' _ _)

theorem step_agrees (hkind : sub.sourceKind = sub'.sourceKind)
    (hwrap : (sub.runtimeState.get "no_wrap").truthy = (sub'.runtimeState.get "no_wrap").truthy)
    (logStep : LogStep) :
    emitter.Agree (fun poll => step host sub now poll logStep)
      (fun poll => step host sub' now' poll logStep) := by
  cases logStep with
  | session path => exact rotation_agrees hkind hwrap path
  | event event =>
    exact Emitter.Agree.ite (fun _ _ => Iff.rfl) (handleUserEvent_agrees hkind _)
      (Emitter.Agree.ite (fun _ _ => Iff.rfl) (stepSystem_agrees host hkind event)
        (Emitter.Agree.ite (fun _ _ => Iff.rfl) (handleAssistantEvent_agrees host hkind event)
          Emitter.Agree.refl))

theorem emit_congr {sub sub' : Submission} (h : sub.sourceKind = sub'.sourceKind)
    (poll : PollState) : poll.emit sub = poll.emit sub' := by
  funext now kind payload
  simp only [PollState.emit, buildItem_congr h]

/-- A step reads two things of the submission. -/
theorem step_congr {sub sub' : Submission} (hkind : sub.sourceKind = sub'.sourceKind)
    (hwrap : (sub.runtimeState.get "no_wrap").truthy = (sub'.runtimeState.get "no_wrap").truthy)
    (now : Active.Now) : step host sub now = step host sub' now := by
  funext poll logStep
  cases logStep with
  | session path => simp only [step, applySessionRotation, emit_congr hkind, hwrap]
  | event event =>
    simp only [step, stepEvent, handleUserEvent, stepSystem, failed, apiErrorItem,
      handleAssistantEvent, appendChunkItem, maybeAppendTurnBoundary, emit_congr hkind,
      buildItem_congr hkind]

/-- What the steps of a poll keep: the anchor of the job, and the tally of the items. -/
structure Tally (anchor : String) (first : ℕ) (poll : PollState) : Prop extends
    Tallied first poll.reachedTurnBoundary poll.nextSeq poll.items where
  requestAnchor : poll.requestAnchor = anchor

namespace Tally

variable {anchor : String} {first : ℕ} {poll : PollState}

theorem emit (h : Tally anchor first poll) (sub : Submission) (now : Active.Now)
    (kind : ItemKind) (payload : Payload)
    (hkind : endsTurn (Active.buildItem sub kind now poll.nextSeq payload) = false) :
    Tally anchor first (poll.emit sub now kind payload) := by
  have hover : (poll.reachedTurnBoundary ||
      endsTurn (Active.buildItem sub kind now poll.nextSeq payload)) =
        poll.reachedTurnBoundary := by
    rw [hkind, Bool.or_false]
  exact ⟨h.toTallied.emit sub kind now payload hover, h.requestAnchor⟩

theorem emitLast (h : Tally anchor first poll) (sub : Submission) (now : Active.Now)
    (kind : ItemKind) (payload : Payload)
    (hkind : endsTurn (Active.buildItem sub kind now poll.nextSeq payload) = true) :
    Tally anchor first { poll.emit sub now kind payload with reachedTurnBoundary := true } :=
  ⟨h.toTallied.emit sub kind now payload (by rw [hkind, Bool.or_true]), h.requestAnchor⟩

theorem rotation (h : Tally anchor first poll) (sub : Submission) (now : Active.Now)
    (path : String) : Tally anchor first (applySessionRotation sub now poll path) := by
  rw [applySessionRotation]
  split
  · exact h
  · have := h.emit sub now .sessionRotate
      [("session_path", .str path), ("provider_session_id", .str (pathStem path))] rfl
    exact ⟨this.1, this.2⟩

theorem userEvent (h : Tally anchor first poll) (sub : Submission) (now : Active.Now)
    (text : String) : Tally anchor first (handleUserEvent sub now poll text) := by
  rw [handleUserEvent]
  split
  · have := h.emit sub now .anchorSeen [("turn_id", .str poll.requestAnchor)] rfl
    exact ⟨this.1, this.2⟩
  · exact h

theorem turnBoundary (h : Tally anchor first poll) (sub : Submission) (now : Active.Now) :
    Tally anchor first (maybeAppendTurnBoundary sub now poll) := by
  rw [maybeAppendTurnBoundary]
  split
  · exact h
  · exact emitLast h sub now _ _ rfl

theorem assistantEvent (h : Tally anchor first poll) (sub : Submission) (now : Active.Now)
    (event : LogEvent) : Tally anchor first (handleAssistantEvent host sub now poll event) := by
  rw [handleAssistantEvent]
  refine turnBoundary ?_ sub now
  split
  · exact ⟨h.1, h.2⟩
  · refine emit ?_ sub now _ _ rfl
    exact ⟨h.1, h.2⟩

theorem system (h : Tally anchor first poll) (sub : Submission) (now : Active.Now)
    (event : LogEvent) : Tally anchor first (stepSystem host sub now poll event) := by
  rw [stepSystem]
  split
  · rename_i apiError _
    exact ⟨h.toTallied.emit sub .error (apiError.at now) _ (Bool.or_true _), h.requestAnchor⟩
  · split
    · exact emitLast h sub now _ _ rfl
    · exact h

theorem step (h : Tally anchor first poll) (sub : Submission) (now : Active.Now)
    (logStep : LogStep) : Tally anchor first (step host sub now poll logStep) := by
  cases logStep with
  | session path => exact h.rotation sub now path
  | event event =>
    rw [Claude.step, stepEvent]
    split
    · exact h.userEvent sub now _
    · split
      · exact h.system host sub now event
      · split
        · exact h.assistantEvent host sub now event
        · exact h

end Tally

theorem stepEvent_sessionPath (sub : Submission) (now : Active.Now) (poll : PollState)
    (event : LogEvent) : (stepEvent host sub now poll event).sessionPath = poll.sessionPath := by
  have huser : ∀ text, (handleUserEvent sub now poll text).sessionPath = poll.sessionPath := by
    intro text
    rw [handleUserEvent]
    split <;> rfl
  have hsystem : (stepSystem host sub now poll event).sessionPath = poll.sessionPath := by
    rw [stepSystem]
    split
    · rfl
    · split <;> rfl
  have hboundary : ∀ poll, (maybeAppendTurnBoundary sub now poll).sessionPath =
      poll.sessionPath := by
    intro poll
    rw [maybeAppendTurnBoundary]
    split <;> rfl
  rw [stepEvent]
  split
  · exact huser _
  · split
    · exact hsystem
    · split
      · rw [handleAssistantEvent, hboundary]
        split <;> rfl
      · rfl

theorem rotation_sessionPath (sub : Submission) (now : Active.Now) (poll : PollState)
    {path : String} (h : path ≠ "") :
    (applySessionRotation sub now poll path).sessionPath = path := by
  rw [applySessionRotation]
  split
  · rename_i hsame
    simp only [h, decide_false, Bool.false_or, decide_eq_true_eq] at hsame
    exact hsame.symm
  · rfl

end Agreement

theorem runUntil_settled (sub : Submission) (now : Active.Now) (poll : PollState)
    (steps : List LogStep) :
    runUntil (step host sub now) PollState.reachedTurnBoundary poll
        (settled poll.sessionPath steps) =
      runUntil (step host sub now) PollState.reachedTurnBoundary poll steps := by
  refine Providers.runUntil_settled ?_ ?_ ?_ poll steps
  · intro poll path h
    rw [step, applySessionRotation, if_pos (by simpa using h)]
  · intro poll path h
    exact rotation_sessionPath sub now poll h
  · intro poll event
    exact stepEvent_sessionPath host sub now poll event

/-! ### Between two polls -/

/-- The log as a poll reads it. -/
def logSteps (sub : Submission) (w : World) : List LogStep :=
  (w.log.reads (readerState sub)).steps (stateSessionPath host)

/-- The parsing state at the end of a poll. -/
def finalState (sub : Submission) (w : World) : PollState :=
  runUntil (step host sub w.now) PollState.reachedTurnBoundary (buildPollState host sub)
    (logSteps host sub w)

theorem Tally.run (sub : Submission) (now : Active.Now) (steps : List LogStep) :
    Tally (Service.requestAnchor host.toLibrary sub) (nextSeq sub.runtimeState)
      (runUntil (Claude.step host sub now) PollState.reachedTurnBoundary
        (buildPollState host sub) steps) :=
  Halting.runUntil_invariant (fun _ logStep _ h => h.step host sub now logStep)
    ⟨⟨rfl, rfl, rfl⟩, rfl⟩ _

/-- The runtime state keeps the parsing state. -/
theorem buildPollState_writtenBack (sub : Submission) (poll : PollState) (overlay : Payload)
    (state : Value) (hanchor : poll.requestAnchor = Service.requestAnchor host.toLibrary sub)
    (hoverlay : overlay = writtenBack poll state ∨
      overlay = ("mode", .str "passive") :: writtenBack poll state) (reply : String) :
    buildPollState host { sub with
        reply := reply
        runtimeState := override sub.runtimeState overlay } =
      { poll with items := [], reachedTurnBoundary := false } := by
  obtain ⟨⟩ := poll
  simp only at hanchor
  subst hanchor
  obtain rfl | rfl := hoverlay <;>
    simp [buildPollState, writtenBack, Service.requestAnchor, nextSeq, Host.text_override,
      get_override, lookup_override, List.lookup_cons, Value.truthy]

/-- The keys under which a poll that reads the log writes; the mode only when the job has
failed. -/
def writtenKeys : List String :=
  ["state", "next_seq", "anchor_seen", "reply_buffer", "raw_buffer", "session_path",
    "last_assistant_uuid"]

/-- The keys that polls change while no prompt goes out. -/
def movingKeys : List String := "prompt_deferred_for_ready" :: writtenKeys

/-- What a poll that reads the log comes to. -/
structure Reading (sub : Submission) (w : World) (result : PollResult) : Prop where
  items : result.items = (finalState host sub w).items
  reply : result.submission.reply = (finalState host sub w).replyBuffer
  ended : ended result = (finalState host sub w).reachedTurnBoundary
  load : buildPollState host result.submission =
    { finalState host sub w with items := [], reachedTurnBoundary := false }
  keeps : (finalState host sub w).reachedTurnBoundary = false →
    Keeps movingKeys sub result.submission
  provider : result.submission.sourceKind = sub.sourceKind ∧
    result.submission.runtimeState.get "no_wrap" = sub.runtimeState.get "no_wrap"

theorem readLog_reading (sub : Submission) (w : World) :
    Reading host sub w (readLog host sub w) := by
  have hfollows := pollEventBatches_follows host sub w.now (w.log.reads (readerState sub))
    (show (buildPollState host sub).reachedTurnBoundary = false from rfl)
  have htally := Tally.run host sub w.now (logSteps host sub w)
  rw [← logSteps, ← finalState] at hfollows
  rw [← finalState] at htally
  rw [readLog]
  split
  · rename_i result hresult
    rw [hresult] at hfollows
    obtain ⟨poll, apiError, state, hfinal, rfl⟩ := hfollows
    have hload := buildPollState_writtenBack host sub (finalState host sub w) _ state
      htally.requestAnchor (.inr rfl) poll.replyBuffer
    rw [hfinal] at hload
    exact
      { items := by rw [hfinal]; rfl
        reply := by rw [hfinal]; rfl
        ended := by rw [hfinal]; rfl
        load := by rw [hfinal]; exact hload
        keeps := by
          intro hend
          rw [hfinal] at hend
          cases hend
        provider := ⟨rfl, by simp [apiErrorResult, writtenBack, get_override, List.lookup_cons]⟩ }
  · rename_i poll state hpoll
    rw [hpoll] at hfollows
    have hfinal : finalState host sub w = poll := hfollows
    rw [← hfinal]
    exact
      { items := rfl
        reply := rfl
        ended := htally.terminal
        load := buildPollState_writtenBack host sub _ _ state htally.requestAnchor (.inl rfl) _
        keeps := fun _ => ⟨rfl, rfl, fun _ hkey =>
          lookup_override_of_notMem fun hmem => hkey (List.mem_cons_of_mem _ hmem)⟩
        provider :=
          ⟨rfl, by simp [finalizePollResult, writtenBack, get_override, List.lookup_cons]⟩ }

/-! ### The prompt stage -/

/-- No prompt goes out: it is out already, or the pane is not ready for it. -/
def NoPromptDue (sub : Submission) (w : World) : Prop :=
  promptSent sub = true ∨ promptDeliveryDue host sub w = false

/-- The poll gets to the log: the runtime is there and the pane, the job has no hook
artifact, and it is not complete with its prompt. -/
structure ReadsLog (sub : Submission) (w : World) : Prop where
  pollable : pollable host sub
  alive : w.paneAlive = true
  noHook : pollExactHook host sub w = none
  noReceipt :
    replyDeliveryTerminalIfDispatched host (dispatchDeferredPrompt host sub w).1 w.now = none

section Keeps

variable {sub sub' : Submission} (h : Keeps movingKeys sub sub')
include h

theorem promptSent_congr : promptSent sub' = promptSent sub := by
  rw [promptSent, h.lookup _ (by decide), promptSent]

theorem promptDeliveryDue_congr (w : World) :
    promptDeliveryDue host sub' w = promptDeliveryDue host sub w := by
  have hstarted := h.text host "ready_wait_started_at" (by decide)
  have htimeout := h.get "ready_timeout_s" (by decide)
  simp only [promptDeliveryDue, readyWaitTimedOut, hstarted, htimeout]

theorem noPromptDue_congr (w : World) : NoPromptDue host sub' w ↔ NoPromptDue host sub w := by
  rw [NoPromptDue, promptSent_congr h, promptDeliveryDue_congr host h, NoPromptDue]

theorem pollExactHook_congr (w : World) :
    pollExactHook host sub' w = none ↔ pollExactHook host sub w = none := by
  have hdir := h.text host "completion_dir" (by decide)
  have hanchor := h.requestAnchor host (by decide) (by decide)
  simp only [pollExactHook, hdir, hanchor]
  split
  · rfl
  · rw [Option.map_eq_none_iff, Option.map_eq_none_iff]

theorem replyDeliveryTerminal_congr (now : Active.Now) :
    replyDeliveryTerminalIfDispatched host sub' now = none ↔
      replyDeliveryTerminalIfDispatched host sub now = none := by
  have hdelivery := h.get "reply_delivery_complete_on_dispatch" (by decide)
  have hsent := h.get "prompt_sent" (by decide)
  simp only [replyDeliveryTerminalIfDispatched, hdelivery, hsent]
  split <;> simp

end Keeps

theorem dispatch_of_noPromptDue {sub : Submission} {w : World} (h : NoPromptDue host sub w) :
    Keeps ["prompt_deferred_for_ready"] sub (dispatchDeferredPrompt host sub w).1 ∧
      (promptSent sub = false →
        promptDispatchItems host (dispatchDeferredPrompt host sub w).1 w.now = []) := by
  rw [dispatchDeferredPrompt]
  dsimp only
  split
  · rename_i hsent
    exact ⟨Keeps.refl sub, fun hunsent => absurd hsent (by simp [hunsent])⟩
  · rename_i hunsent
    have hundue : promptDeliveryDue host sub w = false := h.resolve_left hunsent
    rw [hundue]
    have hkeeps : Keeps ["prompt_deferred_for_ready"] sub
        (if (sub.runtimeState.get "prompt_deferred_for_ready").truthy then sub
        else { sub with
          runtimeState :=
            override sub.runtimeState [("prompt_deferred_for_ready", .bool true)] }) := by
      split
      · exact Keeps.refl sub
      · exact keeps_override sub [("prompt_deferred_for_ready", .bool true)]
    refine ⟨hkeeps, fun _ => ?_⟩
    have hsent := hkeeps.get "prompt_sent" (by decide)
    have hfalsy : (sub.runtimeState.get "prompt_sent").truthy = false := by
      rw [promptSent] at hunsent
      rw [Payload.get]
      cases hlookup : sub.runtimeState.lookup "prompt_sent" with
      | none => rfl
      | some value => simpa [hlookup] using hunsent
    rw [promptDispatchItems]
    simp only [Bool.not_false, if_true, hsent, hfalsy, Bool.true_or]

theorem buildPollState_congr {sub sub' : Submission}
    (h : Keeps ["prompt_deferred_for_ready"] sub sub') :
    buildPollState host sub' = buildPollState host sub := by
  simp [buildPollState, h.requestAnchor, nextSeq, h.lookup, h.get, h.text host]

theorem readerState_congr {sub sub' : Submission}
    (h : Keeps ["prompt_deferred_for_ready"] sub sub') : readerState sub' = readerState sub := by
  simp [readerState, h.get]

theorem finalState_congr {sub sub' : Submission}
    (h : Keeps ["prompt_deferred_for_ready"] sub sub') (w : World) :
    finalState host sub' w = finalState host sub w := by
  rw [finalState, finalState, logSteps, logSteps, buildPollState_congr host h,
    readerState_congr h, step_congr host h.sourceKind
      (congrArg Value.truthy (h.get "no_wrap" (by decide)))]

/-- A poll that gets to the log while no prompt goes out reads it. -/
theorem poll_of_readsLog {sub : Submission} {w : World} (h : ReadsLog host sub w)
    (hdue : NoPromptDue host sub w) :
    ∃ result, poll host sub w = some result ∧ Reading host sub w result := by
  obtain ⟨hkeeps, hitems⟩ := dispatch_of_noPromptDue host hdue
  set dispatched := (dispatchDeferredPrompt host sub w).1 with hdispatched
  have hmoving : Keeps movingKeys sub dispatched := hkeeps.mono (by decide)
  have hreading := readLog_reading host dispatched w
  refine ⟨readLog host dispatched w, ?_, ?_⟩
  · rw [poll, pollSubmission, (prepareActivePollWithoutLiveness_eq_none host).mpr h.pollable]
    have hnone : (if promptSent sub then []
        else promptDispatchItems host dispatched w.now) = [] := by
      split
      · rfl
      · rename_i hunsent
        exact hitems (by simpa using hunsent)
    have hafter : afterPrompt host dispatched w = readLog host dispatched w := by
      rw [afterPrompt, h.noReceipt, (pollExactHook_congr host hmoving w).mpr h.noHook,
        ensureActivePaneAlive_eq_none.mpr h.alive]
      rfl
    simp only [← hdispatched, hnone, hafter, mergePollResultItems, List.nil_append]
  · have hfinal := finalState_congr host hkeeps w
    exact
      { items := by rw [← hfinal]; exact hreading.items
        reply := by rw [← hfinal]; exact hreading.reply
        ended := by rw [← hfinal]; exact hreading.ended
        load := by rw [← hfinal]; exact hreading.load
        keeps := fun hend => hmoving.trans (hreading.keeps (by rw [hfinal]; exact hend))
        provider := ⟨hreading.provider.1.trans hkeeps.sourceKind,
          hreading.provider.2.trans (hkeeps.get "no_wrap" (by decide))⟩ }

/-! ### The adapter as a poller -/

def poller : Poller Submission World PollState PollState LogStep (ItemKind × Cursor × Payload)
    (SourceKind × Bool) String where
  source sub := (sub.sourceKind, (sub.runtimeState.get "no_wrap").truthy)
  load := buildPollState host
  log := logSteps host
  step sub w := step host sub w.now
  halted := PollState.reachedTurnBoundary
  core := emitter.core
  out := emitter.out
  next := afterPoll (poll host)
  note := Submission.reply
  rep := PollState.replyBuffer
  eager := true

/-- The polls that get to the log while no prompt goes out. -/
def Quiet (sub : Submission) (w : World) : Prop := ReadsLog host sub w ∧ NoPromptDue host sub w

theorem quiet_congr {sub sub' : Submission} {w : World} (h : Keeps movingKeys sub sub')
    (hquiet : Quiet host sub w) : Quiet host sub' w := by
  obtain ⟨hread, hdue⟩ := hquiet
  have hdue' := (noPromptDue_congr host h w).mpr hdue
  refine ⟨⟨?_, hread.alive, ?_, ?_⟩, hdue'⟩
  · exact (h.pollable host (by decide) (by decide)).mpr hread.pollable
  · exact (pollExactHook_congr host h w).mpr hread.noHook
  · have hdispatched := (dispatch_of_noPromptDue host hdue).1.mono
      (show _ ⊆ movingKeys by decide)
    have hdispatched' := (dispatch_of_noPromptDue host hdue').1.mono
      (show _ ⊆ movingKeys by decide)
    exact (replyDeliveryTerminal_congr host
      ((hdispatched.symm.trans h).trans hdispatched') w.now).mpr hread.noReceipt

section Next

variable {sub : Submission} {w : World} (h : Quiet host sub w)
include h

theorem quiet_next {w' : World} (h' : Quiet host sub w')
    (hend : (finalState host sub w).reachedTurnBoundary = false) :
    Quiet host (afterPoll (poll host) sub w) w' := by
  obtain ⟨result, hpoll, hreading⟩ := poll_of_readsLog host h.1 h.2
  rw [afterPoll_of_some hpoll]
  exact quiet_congr host (hreading.keeps hend) h'

end Next

theorem poller_lawful : (poller host).Lawful (Quiet host) where
  load_out _ := rfl
  halted_core x y h := by
    have hsame : (emitter.core x).reachedTurnBoundary = (emitter.core y).reachedTurnBoundary :=
      congrArg PollState.reachedTurnBoundary h
    exact hsame
  step_agrees s s' w w' x y e hsource hcore := by
    obtain ⟨hkind, hwrap⟩ := Prod.mk.inj hsource
    exact (step_agrees host hkind hwrap e).step hcore
  step_quiet s w x e h :=
    Emitter.Agree.quiet (g := fun poll => step host s w.now poll e) (step_agrees host rfl rfl e) h
  next_source s w h := by
    obtain ⟨result, hpoll, hreading⟩ := poll_of_readsLog host h.1 h.2
    have hnext : (poller host).next s w = result.submission := afterPoll_of_some hpoll
    rw [hnext]
    exact Prod.ext hreading.provider.1 (congrArg Value.truthy hreading.provider.2)
  next_core s w h hend := by
    obtain ⟨result, hpoll, hreading⟩ := poll_of_readsLog host h.1 h.2
    have hnext : (poller host).next s w = result.submission := afterPoll_of_some hpoll
    have hopen : (finalState host s w).reachedTurnBoundary = false := hend
    have hcore : emitter.core (buildPollState host result.submission) =
        emitter.core (finalState host s w) := by
      rw [hreading.load, ← hopen]
      rfl
    rw [hnext]
    exact hcore
  next_note s w h := by
    obtain ⟨result, hpoll, hreading⟩ := poll_of_readsLog host h.1 h.2
    have hnext : (poller host).next s w = result.submission := afterPoll_of_some hpoll
    rw [hnext, if_pos (.inl rfl)]
    exact hreading.reply
  next_ok s w w' h h' hend := quiet_next host h h' hend

/-! ### Polls one after the other -/

theorem poller_final (sub : Submission) (w : World) :
    (poller host).final sub w = finalState host sub w := rfl

theorem poller_halted (poll : PollState) :
    (poller host).halted poll = poll.reachedTurnBoundary := rfl

theorem poller_out (poll : PollState) :
    (poller host).out poll = poll.items.map timeless := rfl

theorem poller_log (sub : Submission) (w : World) :
    (poller host).log sub w = logSteps host sub w := rfl

/-- Polls that get to the log run the poller. -/
theorem pollAll_eq_run {sub : Submission} {ws : List World} (h : ∀ w ∈ ws, Quiet host sub w) :
    (pollAll (poll host) sub ws).1.map timeless = ((poller host).run sub ws).1 ∧
      (pollAll (poll host) sub ws).2 = ((poller host).run sub ws).2 ∧
      logAll (poll host) (logSteps host) sub ws = (poller host).logs sub ws := by
  induction ws generalizing sub with
  | nil => exact ⟨rfl, rfl, rfl⟩
  | cons w ws ih =>
    have hw := h w (List.mem_cons_self ..)
    have hws : ∀ w' ∈ ws, Quiet host sub w' := fun w' hw' => h w' (List.mem_cons_of_mem _ hw')
    obtain ⟨result, hpoll, hreading⟩ := poll_of_readsLog host hw.1 hw.2
    have hnext : (poller host).next sub w = result.submission := afterPoll_of_some hpoll
    rw [pollAll, logAll, Poller.run, Poller.logs, poller_final, poller_halted, poller_out,
      poller_log, hnext, ← hreading.ended, ← hreading.items, hpoll]
    cases hend : ended result with
    | true => simp [hend]
    | false =>
      have hopen : (finalState host sub w).reachedTurnBoundary = false :=
        hreading.ended.symm.trans hend
      have hrest := ih fun w' hw' => by
        have hquiet := quiet_next host hw (hws w' hw') hopen
        rwa [afterPoll_of_some hpoll] at hquiet
      simp [hend, hrest]

/-- The polls bring the machine to where the log that they cut brings it. -/
theorem runUntil_logs {sub : Submission} {ws : List World} {log : List LogStep}
    (h : ∀ w ∈ ws, Quiet host sub w) (w₀ : World)
    (hcuts : Cuts (poll host) (logSteps host) sub (host.text sub.runtimeState "session_path") ws
      log) :
    runUntil (step host sub w₀.now) PollState.reachedTurnBoundary (buildPollState host sub)
        ((poller host).logs sub ws) =
      runUntil (step host sub w₀.now) PollState.reachedTurnBoundary (buildPollState host sub)
        log := by
  obtain ⟨hitems, -, hlogs⟩ := pollAll_eq_run host h
  rw [← hlogs]
  refine runUntil_of_cuts (fun steps => runUntil_settled host sub w₀.now (buildPollState host sub)
    steps) (fun hend => ?_) hcuts
  have htally := Tally.run host sub w₀.now ((poller host).logs sub ws)
  obtain ⟨hout, -⟩ := (poller_lawful host).run_follows w₀ h rfl rfl
  rw [← hitems] at hout
  rw [hlogs, ← htally.terminal, ← hend]
  exact any_endsTurn hout

theorem pollAll_numbered {sub : Submission} {ws : List World} (h : ∀ w ∈ ws, Quiet host sub w) :
    NumberedFrom (nextSeq sub.runtimeState) (pollAll (poll host) sub ws).1 := by
  refine Providers.pollAll_numbered (Quiet host) ?_ ?_ h
  · intro sub w result hquiet hpoll
    obtain ⟨result', hpoll', hreading⟩ := poll_of_readsLog host hquiet.1 hquiet.2
    rw [hpoll, Option.some_inj] at hpoll'
    have htally := Tally.run host sub w.now (logSteps host sub w)
    rw [← finalState] at htally
    have hload := congrArg PollState.nextSeq hreading.load
    rw [hpoll', hreading.items]
    exact ⟨htally.numbered, hload.trans htally.counted⟩
  · intro sub w w' result hquiet hquiet' hpoll hend
    obtain ⟨result', hpoll', hreading⟩ := poll_of_readsLog host hquiet.1 hquiet.2
    rw [← afterPoll_of_some hpoll]
    rw [hpoll, Option.some_inj] at hpoll'
    exact quiet_next host hquiet hquiet' (by rw [← hreading.ended, ← hpoll', hend])

/-- Two ways of cutting one log come to the same, from submissions that hold the same. -/
theorem pollAll_of_quiet {sub sub' : Submission} {ws ws' : List World} {log : List LogStep}
    (hsub : Keeps ["prompt_sent_at", "prompt_anchor_emitted_at"] sub sub')
    (hreply : sub'.reply = sub.reply) (hws : ws ≠ []) (hws' : ws' ≠ [])
    (h : ∀ w ∈ ws, Quiet host sub w) (h' : ∀ w ∈ ws', Quiet host sub' w)
    (hcuts : Cuts (poll host) (logSteps host) sub (host.text sub.runtimeState "session_path") ws
      log)
    (hcuts' : Cuts (poll host) (logSteps host) sub' (host.text sub'.runtimeState "session_path")
      ws' log) :
    (pollAll (poll host) sub ws).1.map timeless = (pollAll (poll host) sub' ws').1.map timeless ∧
      (pollAll (poll host) sub ws).2.reply = (pollAll (poll host) sub' ws').2.reply := by
  obtain ⟨w₀, -⟩ := List.exists_mem_of_ne_nil ws hws
  obtain ⟨hitems, hstore, -⟩ := pollAll_eq_run host h
  obtain ⟨hitems', hstore', -⟩ := pollAll_eq_run host h'
  have hload : buildPollState host sub' = buildPollState host sub := by
    simp [buildPollState, hsub.requestAnchor, nextSeq, hsub.lookup, hsub.get, hsub.text host]
  have hwrap := congrArg Value.truthy (hsub.get "no_wrap" (by decide))
  have hlogs' := runUntil_logs host h' w₀ hcuts'
  rw [hload, step_congr host hsub.sourceKind hwrap] at hlogs'
  obtain ⟨hout, hnote⟩ := (poller_lawful host).run_eq w₀ (Prod.ext hsub.sourceKind hwrap) hload
    hreply hws hws' h h' ((runUntil_logs host h w₀ hcuts).trans hlogs'.symm)
  refine ⟨?_, ?_⟩
  · rw [hitems, hitems', hout]
  · rw [hstore, hstore']
    exact hnote

/-! ### The poll that sends the prompt -/

/-- A prompt that had to wait counts as the anchor, unless the anchor has been seen. -/
def anchorEmitted (sub : Submission) : Bool :=
  (sub.runtimeState.get "prompt_deferred_for_ready").truthy &&
    !(sub.runtimeState.get "anchor_seen").truthy

section Dispatch

variable {sub : Submission} {w : World} (hunsent : promptSent sub = false)
  (hdue : promptDeliveryDue host sub w = true)
include hunsent hdue

/-- The submission once the prompt is out. -/
theorem dispatch_of_due : (dispatchDeferredPrompt host sub w).1 =
    { sub with
      runtimeState := override sub.runtimeState
        [("prompt_sent", .bool true), ("prompt_sent_at", .str w.now.text),
          ("anchor_seen",
            .bool ((sub.runtimeState.get "anchor_seen").truthy || anchorEmitted sub)),
          ("next_seq", .int (nextSeq sub.runtimeState + if anchorEmitted sub then 1 else 0)),
          ("prompt_deferred_for_ready", .bool false),
          ("prompt_anchor_emitted_at", .str (if anchorEmitted sub then w.now.text else ""))] } := by
  rw [dispatchDeferredPrompt, hunsent, hdue]
  rfl

theorem dispatch_keeps :
    Keeps ["prompt_sent", "prompt_sent_at", "anchor_seen", "next_seq", "prompt_deferred_for_ready",
      "prompt_anchor_emitted_at"] sub (dispatchDeferredPrompt host sub w).1 := by
  rw [dispatch_of_due host hunsent hdue]
  exact ⟨rfl, rfl, fun _ hkey => lookup_override_of_notMem hkey⟩

theorem dispatch_sent : (dispatchDeferredPrompt host sub w).1.runtimeState.lookup "prompt_sent" =
    some (.bool true) := by
  rw [dispatch_of_due host hunsent hdue]
  simp [lookup_override]

theorem dispatch_emittedAt :
    host.text (dispatchDeferredPrompt host sub w).1.runtimeState "prompt_anchor_emitted_at" =
      if anchorEmitted sub then w.now.text else "" := by
  rw [dispatch_of_due host hunsent hdue]
  simp [Host.text_override, List.lookup_cons]

theorem dispatch_nextSeq : nextSeq (dispatchDeferredPrompt host sub w).1.runtimeState =
    nextSeq sub.runtimeState + if anchorEmitted sub then 1 else 0 := by
  rw [dispatch_of_due host hunsent hdue]
  cases anchorEmitted sub <;> simp [nextSeq, lookup_override, List.lookup_cons]

theorem dispatch_anchorSeen :
    (dispatchDeferredPrompt host sub w).1.runtimeState.lookup "anchor_seen" =
      some (.bool ((sub.runtimeState.get "anchor_seen").truthy || anchorEmitted sub)) := by
  rw [dispatch_of_due host hunsent hdue]
  simp [lookup_override, List.lookup_cons]

theorem promptSent_dispatch : promptSent (dispatchDeferredPrompt host sub w).1 = true := by
  rw [promptSent, dispatch_sent host hunsent hdue]
  rfl

/-- The prompt stage makes an item when the prompt counts as the anchor. -/
theorem dispatchItems_eq :
    promptDispatchItems host (dispatchDeferredPrompt host sub w).1 w.now =
      if anchorEmitted sub then
        [buildItemAt sub .anchorSeen w.now (max 1 (nextSeq sub.runtimeState))
          [("turn_id", .str (Service.requestAnchor host.toLibrary sub)),
            ("session_path", orNull (strip (host.text sub.runtimeState "session_path")))]
          (strip (host.text sub.runtimeState "session_path")) none]
      else [] := by
  have hkeeps := dispatch_keeps host hunsent hdue
  have hsent : (dispatchDeferredPrompt host sub w).1.runtimeState.get "prompt_sent" =
      .bool true := by
    rw [Payload.get, dispatch_sent host hunsent hdue]
    rfl
  rw [promptDispatchItems, hsent, dispatch_emittedAt host hunsent hdue,
    dispatch_nextSeq host hunsent hdue, hkeeps.text host "session_path" (by decide),
    hkeeps.requestAnchor host (by decide) (by decide)]
  cases anchorEmitted sub with
  | false =>
    have hempty : strip "" ≠ w.now.text := fun h => w.now.nonempty h.symm
    simp [hempty]
  | true =>
    simp only [if_true, w.now_stripped, Value.truthy, Bool.not_true, Bool.false_or,
      Nat.add_sub_cancel, ne_eq, decide_false, Bool.false_eq_true, if_false,
      not_true_eq_false, buildItemAt, buildItem_congr hkeeps.sourceKind]

theorem dispatchItems_numbered (hseq : 1 ≤ nextSeq sub.runtimeState) :
    NumberedFrom (nextSeq sub.runtimeState)
        (promptDispatchItems host (dispatchDeferredPrompt host sub w).1 w.now) ∧
      nextSeq (dispatchDeferredPrompt host sub w).1.runtimeState = nextSeq sub.runtimeState +
        (promptDispatchItems host (dispatchDeferredPrompt host sub w).1 w.now).length := by
  rw [dispatchItems_eq host hunsent hdue, dispatch_nextSeq host hunsent hdue]
  cases anchorEmitted sub with
  | false => exact ⟨NumberedFrom.nil _, rfl⟩
  | true =>
    rw [if_pos rfl, if_pos rfl, Nat.max_eq_right hseq]
    exact ⟨rfl, rfl⟩

/-- Polls of which the first sends the prompt are polls after the prompt, and the item of the
prompt stage before them. -/
theorem pollAll_dispatch (hpollable : pollable host sub) (ws : List World) :
    let dispatched := (dispatchDeferredPrompt host sub w).1
    pollAll (poll host) sub (w :: ws) =
        (promptDispatchItems host dispatched w.now ++ (pollAll (poll host) dispatched (w :: ws)).1,
          (pollAll (poll host) dispatched (w :: ws)).2) ∧
      logAll (poll host) (logSteps host) sub (w :: ws) =
        logAll (poll host) (logSteps host) dispatched (w :: ws) := by
  intro dispatched
  have hkeeps := dispatch_keeps host hunsent hdue
  have hsent := promptSent_dispatch host hunsent hdue
  have hpollable' := (hkeeps.pollable host (by decide) (by decide)).mpr hpollable
  have hpoll : poll host sub w = some (mergePollResultItems (afterPrompt host dispatched w)
      (promptDispatchItems host dispatched w.now)) := by
    rw [poll, pollSubmission, (prepareActivePollWithoutLiveness_eq_none host).mpr hpollable]
    simp only [hunsent, Bool.false_eq_true, if_false]
    rfl
  have hpoll' : poll host dispatched w = some (afterPrompt host dispatched w) := by
    have hself : dispatchDeferredPrompt host dispatched w = (dispatched, none) := by
      rw [dispatchDeferredPrompt]
      simp only [dispatched, hsent, if_true]
    rw [poll, pollSubmission, (prepareActivePollWithoutLiveness_eq_none host).mpr hpollable']
    simp only [hself, dispatched, hsent, if_true, mergePollResultItems, List.nil_append]
  have hended : ended (mergePollResultItems (afterPrompt host dispatched w)
      (promptDispatchItems host dispatched w.now)) = ended (afterPrompt host dispatched w) := by
    rw [ended, ended, mergePollResultItems, List.any_append,
      dispatchItems_eq host hunsent hdue]
    cases anchorEmitted sub <;> rfl
  have hlog : logSteps host sub w = logSteps host dispatched w := by
    rw [logSteps, logSteps, readerState, readerState, hkeeps.get "state" (by decide)]
  rw [pollAll, pollAll, logAll, logAll, hpoll, hpoll', hlog]
  simp only [hended]
  refine ⟨?_, rfl⟩
  split
  · rfl
  · simp only [mergePollResultItems, List.append_assoc]

/-- The item of the prompt stage does not end the turn, so the log is cut as before. -/
theorem cuts_dispatch (hpollable : pollable host sub) {ws : List World} {log : List LogStep}
    (hcuts : Cuts (poll host) (logSteps host) sub (host.text sub.runtimeState "session_path")
      (w :: ws) log) :
    Cuts (poll host) (logSteps host) (dispatchDeferredPrompt host sub w).1
      (host.text (dispatchDeferredPrompt host sub w).1.runtimeState "session_path") (w :: ws)
      log := by
  obtain ⟨hpolls, hlogs⟩ := pollAll_dispatch host hunsent hdue hpollable ws
  have hitems : (promptDispatchItems host (dispatchDeferredPrompt host sub w).1 w.now).any
      endsTurn = false := by
    rw [dispatchItems_eq host hunsent hdue]
    cases anchorEmitted sub <;> rfl
  rw [Cuts, hpolls, hlogs, List.any_append, hitems, Bool.false_or] at hcuts
  rw [Cuts, (dispatch_keeps host hunsent hdue).text host "session_path" (by decide)]
  exact hcuts

/-- Once the prompt is out the polls get to the log as before. -/
theorem quiet_dispatch {w' : World} (h : ReadsLog host sub w) (h' : ReadsLog host sub w') :
    Quiet host (dispatchDeferredPrompt host sub w).1 w' := by
  have hkeeps := dispatch_keeps host hunsent hdue
  have hsent := promptSent_dispatch host hunsent hdue
  have hself : (dispatchDeferredPrompt host (dispatchDeferredPrompt host sub w).1 w').1 =
      (dispatchDeferredPrompt host sub w).1 := by
    rw [dispatchDeferredPrompt]
    simp only [hsent, if_true]
  have hhook : pollExactHook host (dispatchDeferredPrompt host sub w).1 w' = none := by
    have hnone := h'.noHook
    simp only [pollExactHook, hkeeps.text host "completion_dir" (by decide),
      hkeeps.requestAnchor host (by decide) (by decide)] at hnone ⊢
    split at hnone
    · rename_i hblank
      rw [if_pos hblank]
    · rename_i hnamed
      rw [if_neg hnamed, Option.map_eq_none_iff]
      exact Option.map_eq_none_iff.mp hnone
  have hreceipt := h.noReceipt
  refine ⟨⟨?_, h'.alive, hhook, ?_⟩, .inl hsent⟩
  · exact (hkeeps.pollable host (by decide) (by decide)).mpr h'.pollable
  · rw [hself]
    rw [replyDeliveryTerminalIfDispatched] at hreceipt ⊢
    split at hreceipt
    · rename_i hblank
      rw [if_pos hblank]
    · cases hreceipt

end Dispatch

/-- When the prompt went out is all that two dispatches differ in. -/
theorem dispatch_dispatch {sub : Submission} {w w' : World} (hunsent : promptSent sub = false)
    (hdue : promptDeliveryDue host sub w = true) (hdue' : promptDeliveryDue host sub w' = true) :
    Keeps ["prompt_sent_at", "prompt_anchor_emitted_at"] (dispatchDeferredPrompt host sub w).1
      (dispatchDeferredPrompt host sub w').1 := by
  rw [dispatch_of_due host hunsent hdue, dispatch_of_due host hunsent hdue']
  refine ⟨rfl, rfl, fun key hkey => ?_⟩
  simp only [List.mem_cons, List.not_mem_nil, or_false, not_or] at hkey
  have hat : (key == "prompt_sent_at") = false := beq_eq_false_iff_ne.mpr hkey.1
  have hemitted : (key == "prompt_anchor_emitted_at") = false := beq_eq_false_iff_ne.mpr hkey.2
  simp only [lookup_override, List.lookup_cons, hat, hemitted]

/-- Two ways of cutting one log come to the same, when the prompt goes out with the first of
the polls or with none. -/
theorem pollAll_of_cuts {sub : Submission} {ws ws' : List World} {log : List LogStep}
    (hws : ws ≠ []) (hws' : ws' ≠ []) (h : ∀ w ∈ ws, ReadsLog host sub w)
    (h' : ∀ w ∈ ws', ReadsLog host sub w)
    (hprompt : (∀ w, w ∈ ws ∨ w ∈ ws' → NoPromptDue host sub w) ∨
      ∀ w, w ∈ ws.head? ∨ w ∈ ws'.head? → promptDeliveryDue host sub w = true)
    (hseq : 1 ≤ nextSeq sub.runtimeState)
    (hcuts : Cuts (poll host) (logSteps host) sub (host.text sub.runtimeState "session_path") ws
      log)
    (hcuts' : Cuts (poll host) (logSteps host) sub (host.text sub.runtimeState "session_path") ws'
      log) :
    (pollAll (poll host) sub ws).1.map timeless = (pollAll (poll host) sub ws').1.map timeless ∧
      (pollAll (poll host) sub ws).2.reply = (pollAll (poll host) sub ws').2.reply ∧
      NumberedFrom (nextSeq sub.runtimeState) (pollAll (poll host) sub ws).1 := by
  have hquiet : (∀ w, w ∈ ws ∨ w ∈ ws' → NoPromptDue host sub w) →
      (pollAll (poll host) sub ws).1.map timeless = (pollAll (poll host) sub ws').1.map timeless ∧
        (pollAll (poll host) sub ws).2.reply = (pollAll (poll host) sub ws').2.reply ∧
        NumberedFrom (nextSeq sub.runtimeState) (pollAll (poll host) sub ws).1 := by
    intro hnone
    have hall : ∀ w ∈ ws, Quiet host sub w := fun w hw => ⟨h w hw, hnone w (.inl hw)⟩
    have hall' : ∀ w ∈ ws', Quiet host sub w := fun w hw => ⟨h' w hw, hnone w (.inr hw)⟩
    obtain ⟨hitems, hreply⟩ := pollAll_of_quiet host (Keeps.refl sub) rfl hws hws' hall hall'
      hcuts hcuts'
    exact ⟨hitems, hreply, pollAll_numbered host hall⟩
  obtain hnone | hfirst := hprompt
  · exact hquiet hnone
  · cases hunsent : promptSent sub with
    | true => exact hquiet fun w _ => .inl hunsent
    | false =>
      obtain ⟨w, ws, rfl⟩ := List.exists_cons_of_ne_nil hws
      obtain ⟨w', ws', rfl⟩ := List.exists_cons_of_ne_nil hws'
      have hdue := hfirst w (.inl rfl)
      have hdue' := hfirst w' (.inr rfl)
      have hw := h w (List.mem_cons_self ..)
      have hw' := h' w' (List.mem_cons_self ..)
      have hall : ∀ v ∈ w :: ws, Quiet host (dispatchDeferredPrompt host sub w).1 v :=
        fun v hv => quiet_dispatch host hunsent hdue hw (h v hv)
      have hall' : ∀ v ∈ w' :: ws', Quiet host (dispatchDeferredPrompt host sub w').1 v :=
        fun v hv => quiet_dispatch host hunsent hdue' hw' (h' v hv)
      have hreply : (dispatchDeferredPrompt host sub w').1.reply =
          (dispatchDeferredPrompt host sub w).1.reply := by
        rw [dispatch_of_due host hunsent hdue, dispatch_of_due host hunsent hdue']
      have hsame := pollAll_of_quiet host (dispatch_dispatch host hunsent hdue hdue') hreply
        hws hws' hall hall' (cuts_dispatch host hunsent hdue hw.pollable hcuts)
        (cuts_dispatch host hunsent hdue' hw.pollable hcuts')
      have hprefix : (promptDispatchItems host (dispatchDeferredPrompt host sub w).1 w.now).map
          timeless = (promptDispatchItems host (dispatchDeferredPrompt host sub w').1 w'.now).map
            timeless := by
        rw [dispatchItems_eq host hunsent hdue, dispatchItems_eq host hunsent hdue']
        cases anchorEmitted sub <;> rfl
      have hnumbered := dispatchItems_numbered host hunsent hdue hseq
      have hrest := pollAll_numbered host hall
      rw [hnumbered.2] at hrest
      rw [(pollAll_dispatch host hunsent hdue hw.pollable ws).1,
        (pollAll_dispatch host hunsent hdue' hw.pollable ws').1]
      refine ⟨?_, hsame.2, hnumbered.1.append hrest⟩
      rw [List.map_append, List.map_append, hprefix, hsame.1]

end Claude

end CodexBridge.Providers
