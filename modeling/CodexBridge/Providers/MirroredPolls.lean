import CodexBridge.Providers.Mirrors

/-! Polls of submissions that mirror each other, for each adapter. The Codex adapter may write
the workspace again when its reader is not bound to the log; it is the same path. For the
Claude adapter the prompt must have waited for both or for neither, unless it is out or the
anchor has been seen. -/

namespace CodexBridge.Providers

open Completion Execution

variable (host : Host)

/-- The same world, met with another reader. -/
def World.withReader (w : World) (bound : Bool) : World := { w with readerBound := bound }

/-! ### Codex -/

namespace Codex

variable {sub sub' : Submission}

/-- The workspace of the submission is this path, in full. -/
structure Placed (path : String) (sub : Submission) : Prop where
  workspace : sub.runtimeState.get "workspace_path" = .str path
  full : host.expandUser path = path
  blank : path = "" → host.text sub.diagnostics "workspace_path" = ""

/-- The workspace that a refresh of the reader looks at. -/
theorem Placed.raw {path : String} (h : Placed host path sub) :
    orElse (host.text sub.runtimeState "workspace_path")
      (host.text sub.diagnostics "workspace_path") = path := by
  rw [Host.text, h.workspace, Host.textOf_str, orElse]
  split
  · rename_i hblank
    rw [h.blank hblank, hblank]
  · rfl

theorem refreshReader_mirrors {path : String} (h : Mirrors sub sub')
    (hplaced : Placed host path sub) (w : World) (bound : Bool) :
    Mirrors (refreshReader host sub w) (refreshReader host sub' (w.withReader bound)) := by
  have hworkspace : host.text sub'.diagnostics "workspace_path" =
      host.text sub.diagnostics "workspace_path" := by
    rw [Host.text, h.workspace, Host.text]
  have hplaced' : sub'.runtimeState.get "workspace_path" = .str path :=
    (h.get _ (by decide) (by decide)).trans hplaced.workspace
  simp only [refreshReader, World.withReader, hworkspace, h.state,
    h.text host "workspace_path" (by decide) (by decide),
      h.text host "mode" (by decide) (by decide),
    hplaced.raw, hplaced.full]
  split
  · exact h
  · cases w.currentLog path with
    | none => exact h
    | some currentLog =>
      dsimp only
      by_cases hmoved : currentLog ≠ stateSessionPath host (readerState sub)
      · rw [decide_eq_true hmoved, if_pos hmoved, Bool.not_true, Bool.false_and, Bool.false_and,
          if_neg Bool.false_ne_true, if_neg Bool.false_ne_true]
        exact h.written _ sub.reply sub'.reply
      · -- the readers may differ in whether they are bound to the log
        rw [decide_eq_false hmoved, if_neg hmoved, Bool.not_false, Bool.true_and, Bool.true_and]
        have hkept : Mirrors sub { sub with
            runtimeState := override sub.runtimeState [("workspace_path", .str path)] } :=
          Mirrors.rewritten (by simp [hplaced.workspace, soughtKeys])
        have hkept' : Mirrors sub' { sub' with
            runtimeState := override sub'.runtimeState [("workspace_path", .str path)] } :=
          Mirrors.rewritten (by simp [hplaced', soughtKeys])
        split_ifs
        · exact h
        · exact h.trans hkept'
        · exact hkept.symm.trans h
        · exact hkept.symm.trans (h.trans hkept')

/-- A step reads two things of the submission, and both are the same. -/
theorem step_mirrors (h : Mirrors sub sub') (now : Active.Now) :
    step host sub' now = step host sub now :=
  step_congr host h.sourceKind
    (congrArg Value.truthy (h.get "no_wrap" (by decide) (by decide))) now

theorem processEntryBatch_mirrors (h : Mirrors sub sub') (now : Active.Now) (poll : PollState)
    (entries : List LogEvent) :
    processEntryBatch host sub' now poll entries = processEntryBatch host sub now poll entries := by
  induction entries generalizing poll with
  | nil => rfl
  | cons entry rest ih =>
    have hentry : processEntry host sub' now poll entry = processEntry host sub now poll entry :=
      congrFun₂ (step_mirrors host h now) poll (.event entry)
    simp only [processEntryBatch, hentry, ih]

theorem pollEntryBatches_mirrors (h : Mirrors sub sub') (now : Active.Now) (last : Value)
    (poll : PollState) (batches : List Batch) :
    pollEntryBatches host sub' now last poll batches =
      pollEntryBatches host sub now last poll batches := by
  have hstep : step host sub' now = step host sub now := step_mirrors host h now
  have hrotation : ∀ poll state, applySessionState host sub' now poll state =
      applySessionState host sub now poll state := fun poll state =>
    congrFun₂ hstep poll (.session (stateSessionPath host state))
  induction batches generalizing poll with
  | nil => rw [pollEntryBatches, pollEntryBatches, hrotation]
  | cons batch rest ih =>
    simp only [pollEntryBatches, hrotation, processEntryBatch_mirrors host h, ih]

theorem buildPollState_mirrors (h : Mirrors sub sub') :
    buildPollState host sub' = buildPollState host sub := by
  simp (disch := decide) only [buildPollState, h.requestAnchor host, h.nextSeq, h.text host, h.get]

theorem finalizePollResult_mirrors (h : Mirrors sub sub') (poll : PollState) (state : Value) :
    Option.Rel SameResult (finalizePollResult host sub poll state)
      (finalizePollResult host sub' poll state) := by
  simp only [finalizePollResult, h.state, h.text host "session_path" (by decide) (by decide)]
  split_ifs
  · exact .none
  · exact .some ⟨rfl, rfl, h.written _ _ _⟩

theorem pollSubmission_mirrors (h : Mirrors sub sub') (w : World) :
    Option.Rel SameResult (pollSubmission host sub w) (pollSubmission host sub' w) := by
  have hprepared : Option.Rel SameResult (prepareActivePoll host sub w)
      (prepareActivePoll host sub' w) := rel_or (h.prepared host w) (h.ensuredAlive w)
  rw [pollSubmission, pollSubmission]
  generalize prepareActivePoll host sub w = result at hprepared
  generalize prepareActivePoll host sub' w = result' at hprepared
  cases hprepared with
  | some hresult => exact .some hresult
  | none =>
    simp only [h.state, buildPollState_mirrors host h, pollEntryBatches_mirrors host h]
    exact finalizePollResult_mirrors host h _ _

/-- Polls of two such submissions. -/
theorem poll_mirrors {path : String} (h : Mirrors sub sub') (hplaced : Placed host path sub)
    (w : World) (bound : Bool) :
    Option.Rel SameResult (poll host sub w) (poll host sub' (w.withReader bound)) :=
  pollSubmission_mirrors host (refreshReader_mirrors host h hplaced w bound) w

theorem Placed.refreshReader {path : String} (h : Placed host path sub) (w : World) :
    Placed host path (refreshReader host sub w) := by
  have hwritten : ∀ rest : Payload, Placed host path { sub with
      runtimeState := override sub.runtimeState (("workspace_path", .str path) :: rest) } :=
    fun rest => ⟨by simp [get_override], h.full, h.blank⟩
  simp only [Codex.refreshReader, h.raw, h.full]
  split
  · exact h
  · split
    · exact h
    · split
      · exact h
      · exact hwritten _

theorem Placed.afterPoll {path : String} (h : Placed host path sub) (w : World) :
    Placed host path (afterPoll (poll host) sub w) := by
  rw [Providers.afterPoll]
  cases hpoll : poll host sub w with
  | none => exact h
  | some result =>
    have hrefreshed := h.refreshReader host w
    have hmoved : Moved readKeys (Codex.refreshReader host sub w) result.submission :=
      pollSubmission_moved host hpoll
    exact ⟨(hmoved.get (by decide)).trans hrefreshed.workspace, h.full,
      hmoved.diagnostics ▸ hrefreshed.blank⟩

end Codex

/-! ### Claude -/

/-- Two polls come to the same state, or both end the job in the same way. -/
inductive SameOutcome {α : Type} : Except PollResult α → Except PollResult α → Prop
  | ok (a : α) : SameOutcome (.ok a) (.ok a)
  | error {result result' : PollResult} (h : SameResult result result') :
    SameOutcome (.error result) (.error result')

namespace Claude

variable {sub sub' : Submission}

theorem apiErrorResult_mirrors (h : Mirrors sub sub') (now : Active.Now) (poll : PollState)
    (apiError : ApiError) (state : Value) :
    SameResult (apiErrorResult sub now poll apiError state)
      (apiErrorResult sub' now poll apiError state) where
  items := by simp only [apiErrorResult, apiErrorItem, h.buildItem]
  decision := by simp only [apiErrorResult, apiErrorItem, h.buildItem]
  submission := h.written _ _ _

theorem processEvent_mirrors (h : Mirrors sub sub') (now : Active.Now) (state : Value)
    (poll : PollState) (event : LogEvent) :
    SameOutcome (processEvent host sub now state poll event)
      (processEvent host sub' now state poll event) := by
  have hemit : ∀ poll : PollState, poll.emit sub' = poll.emit sub := emit_congr h.sourceKind
  simp only [processEvent, handleUserEvent, handleSystemEvent, handleAssistantEvent,
    appendChunkItem, maybeAppendTurnBoundary, hemit]
  split
  · exact .ok _
  · split
    · split
      · exact .error (apiErrorResult_mirrors h now poll _ state)
      · split <;> exact .ok _
    · split <;> exact .ok _

theorem processEvents_mirrors (h : Mirrors sub sub') (now : Active.Now) (state : Value)
    (poll : PollState) (events : List LogEvent) :
    SameOutcome (processEvents host sub now state poll events)
      (processEvents host sub' now state poll events) := by
  induction events generalizing poll with
  | nil => exact .ok poll
  | cons event rest ih =>
    have hevent := processEvent_mirrors host h now state poll event
    rw [processEvents, processEvents]
    generalize processEvent host sub now state poll event = outcome at hevent
    generalize processEvent host sub' now state poll event = outcome' at hevent
    cases hevent with
    | error hresult => exact .error hresult
    | ok poll =>
      dsimp only
      split
      · exact .ok poll
      · exact ih poll

theorem pollEventBatches_mirrors (h : Mirrors sub sub') (now : Active.Now) (last : Value)
    (poll : PollState) (batches : List Batch) :
    SameOutcome (pollEventBatches host sub now last poll batches)
      (pollEventBatches host sub' now last poll batches) := by
  have hrotation : ∀ poll path, applySessionRotation sub' now poll path =
      applySessionRotation sub now poll path := by
    intro poll path
    simp only [applySessionRotation, emit_congr h.sourceKind,
      h.get "no_wrap" (by decide) (by decide)]
  induction batches generalizing poll with
  | nil =>
    rw [pollEventBatches, pollEventBatches, hrotation]
    exact .ok _
  | cons batch rest ih =>
    simp only [pollEventBatches, hrotation]
    have hevents := processEvents_mirrors host h now batch.state
      (applySessionRotation sub now poll (stateSessionPath host batch.state)) batch.events
    generalize processEvents host sub now batch.state _ batch.events = outcome at hevents
    generalize processEvents host sub' now batch.state _ batch.events = outcome' at hevents
    cases hevents with
    | error hresult => exact .error hresult
    | ok poll =>
      dsimp only
      split
      · exact .ok _
      · exact ih poll

theorem buildPollState_mirrors (h : Mirrors sub sub') :
    buildPollState host sub' = buildPollState host sub := by
  simp (disch := decide) only [buildPollState, h.requestAnchor host, h.nextSeq, h.text host, h.get]

theorem readLog_mirrors (h : Mirrors sub sub') (w : World) :
    SameResult (readLog host sub w) (readLog host sub' w) := by
  simp only [readLog, h.state, buildPollState_mirrors host h]
  have hbatches := pollEventBatches_mirrors host h w.now
    (w.log.reads (readerState sub)).last (buildPollState host sub)
    (w.log.reads (readerState sub)).batches
  generalize pollEventBatches host sub w.now _ _ _ = outcome at hbatches
  generalize pollEventBatches host sub' w.now _ _ _ = outcome' at hbatches
  cases hbatches with
  | error hresult => exact hresult
  | ok final => exact ⟨rfl, rfl, h.written _ _ _⟩

theorem hookResult_mirrors (h : Mirrors sub sub') (now : Active.Now)
    (completionDir requestAnchor : String) (event : HookEvent) :
    SameResult (hookResult host sub now completionDir requestAnchor event)
      (hookResult host sub' now completionDir requestAnchor event) where
  items := by simp only [hookResult, h.buildItem, h.nextSeq]
  decision := by
    simp only [hookResult, h.buildItem, h.nextSeq, h.get "anchor_seen" (by decide) (by decide)]
  submission := by
    simp only [hookResult, h.nextSeq]
    exact h.written _ _ _

theorem pollExactHook_mirrors (h : Mirrors sub sub') (w : World) :
    Option.Rel SameResult (pollExactHook host sub w) (pollExactHook host sub' w) := by
  simp only [pollExactHook, h.requestAnchor host,
    h.text host "completion_dir" (by decide) (by decide)]
  split
  · exact .none
  · cases w.hookEvent _ _ with
    | none => exact .none
    | some event => exact .some (hookResult_mirrors host h w.now _ _ event)

theorem replyDeliveryTerminal_mirrors (h : Mirrors sub sub') (now : Active.Now) :
    Option.Rel SameResult (replyDeliveryTerminalIfDispatched host sub now)
      (replyDeliveryTerminalIfDispatched host sub' now) := by
  simp (disch := decide) only [replyDeliveryTerminalIfDispatched, h.text host, h.get, h.jobId,
    h.provider]
  split
  · exact .none
  · exact .some ⟨rfl, rfl, h⟩

theorem afterPrompt_mirrors (h : Mirrors sub sub') (w : World) :
    SameResult (afterPrompt host sub w) (afterPrompt host sub' w) := by
  have hstages := rel_or (rel_or (replyDeliveryTerminal_mirrors host h w.now)
    (pollExactHook_mirrors host h w)) (h.ensuredAlive w)
  rw [afterPrompt, afterPrompt]
  generalize ((replyDeliveryTerminalIfDispatched host sub w.now).or (pollExactHook host sub w)).or
    (ensureActivePaneAlive sub w) = result at hstages
  generalize ((replyDeliveryTerminalIfDispatched host sub' w.now).or
    (pollExactHook host sub' w)).or (ensureActivePaneAlive sub' w) = result' at hstages
  cases hstages with
  | some hresult => exact hresult
  | none => exact readLog_mirrors host h w

/-- The prompt is out, or it counts as the anchor for both or for neither. -/
def Settled (sub sub' : Submission) : Prop :=
  promptSent sub = true ∨ anchorEmitted sub' = anchorEmitted sub

theorem promptSent_mirrors (h : Mirrors sub sub') : promptSent sub' = promptSent sub := by
  rw [promptSent, h.lookup _ (by decide), promptSent]

theorem promptDeliveryDue_mirrors (h : Mirrors sub sub') (w : World) :
    promptDeliveryDue host sub' w = promptDeliveryDue host sub w := by
  simp (disch := decide) only [promptDeliveryDue, readyWaitTimedOut, h.text host, h.get]

/-- A poll of a pane that is not ready for the prompt. -/
theorem dispatch_of_undue {w : World} (hunsent : promptSent sub = false)
    (hundue : promptDeliveryDue host sub w = false) :
    Mirrors sub (dispatchDeferredPrompt host sub w).1 ∧
      ((dispatchDeferredPrompt host sub w).1.runtimeState.get "prompt_deferred_for_ready").truthy =
        true ∧ (dispatchDeferredPrompt host sub w).2 = none := by
  rw [dispatchDeferredPrompt, hunsent, hundue]
  dsimp only
  rw [if_neg Bool.false_ne_true, if_pos (Bool.not_false)]
  split
  · rename_i hdeferred
    exact ⟨Mirrors.refl sub, hdeferred, rfl⟩
  · refine ⟨Mirrors.kept (fun key hknown value hvalue => ?_) sub.reply, ?_, rfl⟩
    · rw [List.lookup_cons] at hvalue
      split at hvalue
      · rename_i hkey
        exact absurd (beq_iff_eq.mp hkey ▸ List.mem_cons_self ..) hknown
      · cases hvalue
    · simp [get_override, Value.truthy]

theorem dispatch_mirrors (h : Mirrors sub sub') (hsettled : Settled sub sub') (w : World) :
    Mirrors (dispatchDeferredPrompt host sub w).1 (dispatchDeferredPrompt host sub' w).1 ∧
      (promptSent (dispatchDeferredPrompt host sub w).1 = true ∨
        ((dispatchDeferredPrompt host sub' w).1.runtimeState.get
            "prompt_deferred_for_ready").truthy =
          ((dispatchDeferredPrompt host sub w).1.runtimeState.get
            "prompt_deferred_for_ready").truthy) ∧
      (dispatchDeferredPrompt host sub' w).2 = (dispatchDeferredPrompt host sub w).2 ∧
      (promptSent sub = false →
        promptDispatchItems host (dispatchDeferredPrompt host sub' w).1 w.now =
          promptDispatchItems host (dispatchDeferredPrompt host sub w).1 w.now) := by
  have hsent' := promptSent_mirrors h
  have hdue' := promptDeliveryDue_mirrors host h w
  cases hsent : promptSent sub with
  | true =>
    have hself : ∀ sub, promptSent sub = true →
        dispatchDeferredPrompt host sub w = (sub, none) := by
      intro sub hsent
      rw [dispatchDeferredPrompt]
      simp only [hsent, if_true]
    rw [hself sub hsent, hself sub' (hsent'.trans hsent)]
    exact ⟨h, .inl hsent, rfl, fun hunsent => absurd hunsent (by simp)⟩
  | false =>
    rw [hsent] at hsent'
    have hemitted : anchorEmitted sub' = anchorEmitted sub :=
      hsettled.resolve_left (by simp [hsent])
    cases hdue : promptDeliveryDue host sub w with
    | false =>
      rw [hdue] at hdue'
      obtain ⟨hmirrors, hdeferred, hnone⟩ := dispatch_of_undue host hsent hdue
      obtain ⟨hmirrors', hdeferred', hnone'⟩ := dispatch_of_undue host hsent' hdue'
      have hboth := hmirrors.symm.trans (h.trans hmirrors')
      refine ⟨hboth, .inr (hdeferred'.trans hdeferred.symm), hnone'.trans hnone.symm, fun _ => ?_⟩
      · rw [(dispatch_of_noPromptDue host (.inr hdue')).2 hsent',
          (dispatch_of_noPromptDue host (.inr hdue)).2 hsent]
    | true =>
      rw [hdue] at hdue'
      have hanchor := h.get "anchor_seen" (by decide) (by decide)
      refine ⟨?_, .inl (promptSent_dispatch host hsent hdue), ?_, fun _ => ?_⟩
      · rw [dispatch_of_due host hsent hdue, dispatch_of_due host hsent' hdue', hemitted,
          h.nextSeq, hanchor]
        exact h.written _ _ _
      · simp only [dispatchDeferredPrompt, hsent, hsent', hdue, hdue',
          h.text host "prompt_text" (by decide) (by decide), Bool.not_true, Bool.false_eq_true,
          if_false]
      · rw [dispatchItems_eq host hsent hdue, dispatchItems_eq host hsent' hdue', hemitted,
          h.nextSeq, h.text host "session_path" (by decide) (by decide), h.requestAnchor host]
        simp only [buildItemAt, h.buildItem]

theorem Settled.of_deferred (h : Mirrors sub sub')
    (hdeferred : promptSent sub = true ∨
      (sub'.runtimeState.get "prompt_deferred_for_ready").truthy =
        (sub.runtimeState.get "prompt_deferred_for_ready").truthy) : Settled sub sub' := by
  refine hdeferred.imp_right fun hsame => ?_
  rw [anchorEmitted, hsame, h.get "anchor_seen" (by decide) (by decide), anchorEmitted]

theorem pollSubmission_mirrors (h : Mirrors sub sub') (hsettled : Settled sub sub') (w : World) :
    shown (pollSubmission host sub' w) = shown (pollSubmission host sub w) ∧
      Mirrors (afterPoll (poll host) sub w) (afterPoll (poll host) sub' w) ∧
      Settled (afterPoll (poll host) sub w) (afterPoll (poll host) sub' w) := by
  have hprepared := h.prepared host w
  cases hready : prepareActivePollWithoutLiveness host sub w with
  | some result =>
    cases hready' : prepareActivePollWithoutLiveness host sub' w with
    | none =>
      rw [hready, hready'] at hprepared
      cases hprepared
    | some result' =>
      have hpoll : pollSubmission host sub w = (some result, none) := by
        rw [pollSubmission, hready]
      have hpoll' : pollSubmission host sub' w = (some result', none) := by
        rw [pollSubmission, hready']
      have hmoved : Moved ["mode", "next_seq"] sub result.submission :=
        prepareActivePollWithoutLiveness_moved host (by decide) (by decide) hready
      have hmoved' : Moved ["mode", "next_seq"] sub' result'.submission :=
        prepareActivePollWithoutLiveness_moved host (by decide) (by decide) hready'
      rw [hready, hready'] at hprepared
      have hend := SameEnd.of_rel h hprepared
      rw [hpoll, hpoll', afterPoll_of_some (congrArg Prod.fst hpoll),
        afterPoll_of_some (congrArg Prod.fst hpoll')]
      refine ⟨hend.shown_eq none, hend.submission, ?_⟩
      · rw [Settled, promptSent, hmoved.lookup (by decide), anchorEmitted,
          hmoved'.get (by decide), hmoved'.get (by decide), anchorEmitted,
          hmoved.get (by decide), hmoved.get (by decide)]
        exact hsettled
  | none =>
    have hready' : prepareActivePollWithoutLiveness host sub' w = none := by
      rw [hready] at hprepared
      generalize prepareActivePollWithoutLiveness host sub' w = result' at hprepared
      cases hprepared
      rfl
    obtain ⟨hboth, hdeferred, hprompt, hitems⟩ := dispatch_mirrors host h hsettled w
    have hafter := afterPrompt_mirrors host hboth w
    have hmoved : Moved readKeys (dispatchDeferredPrompt host sub w).1
        (afterPrompt host (dispatchDeferredPrompt host sub w).1 w).submission :=
      afterPrompt_moved host
    have hmoved' : Moved readKeys (dispatchDeferredPrompt host sub' w).1
        (afterPrompt host (dispatchDeferredPrompt host sub' w).1 w).submission :=
      afterPrompt_moved host
    have hdispatchItems : (if promptSent sub' then []
          else promptDispatchItems host (dispatchDeferredPrompt host sub' w).1 w.now) =
        if promptSent sub then []
          else promptDispatchItems host (dispatchDeferredPrompt host sub w).1 w.now := by
      rw [promptSent_mirrors h]
      split
      · rfl
      · rename_i hunsent
        exact hitems (by simpa using hunsent)
    refine ⟨?_, ?_, ?_⟩
    · simp only [pollSubmission, hready, hready', hdispatchItems, shown, mergePollResultItems,
        Option.map_some, Option.getD_some, Option.bind_some, hafter.items, hafter.decision, hprompt]
    · simp only [afterPoll, poll, pollSubmission, hready, hready', mergePollResultItems]
      exact hafter.submission
    · simp only [afterPoll, poll, pollSubmission, hready, hready', mergePollResultItems]
      refine Settled.of_deferred hafter.submission ?_
      rw [promptSent, hmoved.lookup (by decide), hmoved.get (by decide), hmoved'.get (by decide)]
      exact hdeferred

end Claude

/-! ### Gemini -/

namespace Gemini

variable {sub sub' : Submission}

theorem hookResult_mirrors (h : Mirrors sub sub') (now : Active.Now)
    (completionDir requestAnchor reply : String) (event : HookEvent) :
    SameResult (hookResult host sub now completionDir requestAnchor reply event)
      (hookResult host sub' now completionDir requestAnchor reply event) where
  items := by simp only [hookResult, h.buildItem, h.nextSeq]
  decision := by
    simp only [hookResult, h.buildItem, h.nextSeq, h.get "anchor_emitted" (by decide) (by decide)]
  submission := by
    simp only [hookResult, h.nextSeq]
    exact h.written _ _ _

theorem pollExactHook_mirrors (h : Mirrors sub sub') (w : World) :
    Option.Rel SameResult (pollExactHook host sub w) (pollExactHook host sub' w) := by
  simp only [pollExactHook, h.requestAnchor host,
    h.text host "completion_dir" (by decide) (by decide)]
  split
  · exact .none
  · cases w.hookEvent _ _ with
    | none => exact .none
    | some event =>
      dsimp only [Option.bind_some]
      split
      · exact .none
      · exact .some (hookResult_mirrors host h w.now _ _ _ event)

theorem promptSent_mirrors (h : Mirrors sub sub') : promptSent sub' = promptSent sub := by
  rw [promptSent, h.lookup _ (by decide), promptSent]

theorem dispatch_mirrors (h : Mirrors sub sub') (w : World) :
    Mirrors (dispatchDeferredPrompt host sub w).submission
        (dispatchDeferredPrompt host sub' w).submission ∧
      (dispatchDeferredPrompt host sub' w).prompt = (dispatchDeferredPrompt host sub w).prompt := by
  have hobserved : observePromptReadiness host sub' w = observePromptReadiness host sub w := by
    simp (disch := decide) only [observePromptReadiness, h.text host]
  have hupdated : Mirrors (withRuntimeState sub (observePromptReadiness host sub w).1)
      (withRuntimeState sub' (observePromptReadiness host sub w).1) := h.written _ _ _
  have hdue : promptDeliveryDue host
        (withRuntimeState sub' (observePromptReadiness host sub w).1) w.now =
      promptDeliveryDue host (withRuntimeState sub (observePromptReadiness host sub w).1)
        w.now := by
    simp (disch := decide) only [promptDeliveryDue, readyPromptSettled, readyWaitTimedOut,
      hupdated.text host, hupdated.get]
  simp only [dispatchDeferredPrompt, promptSent_mirrors h, hobserved, hdue,
    hupdated.text host "prompt_text" (by decide) (by decide)]
  split_ifs
  · exact ⟨h, rfl⟩
  · exact ⟨hupdated, rfl⟩
  · exact ⟨hupdated.written _ _ _, rfl⟩

/-- A prompt stage that is not dirty has changed nothing. -/
theorem dispatch_clean {w : World} (h : (dispatchDeferredPrompt host sub w).dirty = false) :
    Mirrors sub (dispatchDeferredPrompt host sub w).submission := by
  simp only [dispatchDeferredPrompt] at h ⊢
  split_ifs at h ⊢
  · exact Mirrors.refl sub
  · exact Mirrors.unchanged h sub.reply

/-- What a poll comes to that has a result only when there is something to say. -/
theorem sameEnd_of_polled {result result' : Option PollResult} {last last' : Submission}
    {items : List Item} (hlast : Mirrors last last')
    (h : result = none ∧ items = [] ∧ Mirrors sub last ∨ result = some (polledResult last items))
    (h' : result' = none ∧ items = [] ∧ Mirrors sub' last' ∨
      result' = some (polledResult last' items)) : SameEnd sub result sub' result' := by
  rcases h with ⟨rfl, rfl, hsub⟩ | rfl <;> rcases h' with ⟨rfl, hitems, hsub'⟩ | rfl
  · exact ⟨rfl, rfl, hsub.trans (hlast.trans hsub'.symm)⟩
  · exact ⟨rfl, rfl, hsub.trans hlast⟩
  · subst hitems
    exact ⟨rfl, rfl, hlast.trans hsub'.symm⟩
  · exact ⟨rfl, rfl, hlast⟩

/-- The parsing state at the end of a poll of the session. -/
def finalState (sub : Submission) (w : World) : PollState :=
  let read := w.message (readerState sub)
  buildSessionItems host sub w.now (Service.requestAnchor host.toLibrary sub) read.1 read.2
    (buildPollState host sub)

/-- The submission with this state written back. -/
def writtenBack (sub : Submission) (poll : PollState) (state : Value) : Submission :=
  { withRuntimeState sub
      [("state", state), ("next_seq", .int poll.nextSeq),
        ("anchor_emitted", .bool poll.anchorEmitted), ("reply_buffer", .str poll.replyBuffer),
        ("session_path", .str poll.sessionPath)] with
    reply := poll.replyBuffer }

theorem readSession_cases (sub : Submission) (dirty : Bool) (w : World) :
    (readSession host sub dirty w = none ∧ (finalState host sub w).items = [] ∧ dirty = false ∧
        Mirrors sub (writtenBack sub (finalState host sub w) (w.message (readerState sub)).2)) ∨
      readSession host sub dirty w = some (polledResult
        (writtenBack sub (finalState host sub w) (w.message (readerState sub)).2)
        (finalState host sub w).items) := by
  rw [readSession]
  dsimp only
  split
  · rename_i hquiet
    exact .inl ⟨rfl, hquiet.1, hquiet.2.1, Mirrors.unchanged hquiet.2.2.2 _⟩
  · exact .inr rfl

theorem finalState_mirrors (h : Mirrors sub sub') (w : World) :
    finalState host sub' w = finalState host sub w := by
  have hitem : buildItemAt sub' = buildItemAt sub := by
    funext kind now seq payload sessionPath offset
    simp only [buildItemAt, h.buildItem]
  have hitems : buildSessionItems host sub' = buildSessionItems host sub := by
    funext now requestAnchor reply state poll
    simp only [buildSessionItems, buildSnapshotItem, hitem,
      h.get "no_wrap" (by decide) (by decide)]
  have hstate : buildPollState host sub' = buildPollState host sub := by
    simp (disch := decide) only [buildPollState, h.nextSeq, h.text host, h.get]
  rw [finalState, h.state, h.requestAnchor host, hitems, hstate, finalState]

theorem pollSubmission_mirrors (h : Mirrors sub sub') (w : World) :
    SameEnd sub (poll host sub w) sub' (poll host sub' w) ∧
      (pollSubmission host sub' w).2 = (pollSubmission host sub w).2 := by
  have hprepared := h.prepared host w
  rw [poll, poll, pollSubmission, pollSubmission]
  generalize prepareActivePollWithoutLiveness host sub w = result at hprepared
  generalize prepareActivePollWithoutLiveness host sub' w = result' at hprepared
  cases hprepared with
  | some hresult => exact ⟨SameEnd.of_rel h (.some hresult), rfl⟩
  | none =>
    obtain ⟨hboth, hprompt⟩ := dispatch_mirrors host h w
    have hclean : (dispatchDeferredPrompt host sub w).dirty = false →
        Mirrors sub (dispatchDeferredPrompt host sub w).submission := dispatch_clean host
    have hclean' : (dispatchDeferredPrompt host sub' w).dirty = false →
        Mirrors sub' (dispatchDeferredPrompt host sub' w).submission := dispatch_clean host
    generalize dispatchDeferredPrompt host sub w = dispatched at *
    generalize dispatchDeferredPrompt host sub' w = dispatched' at *
    dsimp only
    rw [promptSent_mirrors hboth]
    split
    · -- the prompt waits: the poll has a result only when it noted the pane
      have hwaiting : ∀ {sub : Submission} {dispatched : Dispatched},
          (dispatched.dirty = false → Mirrors sub dispatched.submission) →
            (if dispatched.dirty then some (polledResult dispatched.submission []) else none) =
                none ∧ ([] : List Item) = [] ∧ Mirrors sub dispatched.submission ∨
              (if dispatched.dirty then some (polledResult dispatched.submission []) else none) =
                some (polledResult dispatched.submission []) := by
        intro sub dispatched hclean
        cases hdirty : dispatched.dirty with
        | false => exact .inl ⟨rfl, rfl, hclean hdirty⟩
        | true => exact .inr rfl
      exact ⟨SameEnd.or (hboth.ensuredAlive w)
        (sameEnd_of_polled hboth (hwaiting hclean) (hwaiting hclean')), hprompt⟩
    · have hlast : Mirrors
          (writtenBack dispatched.submission (finalState host dispatched.submission w)
            (w.message (readerState dispatched.submission)).2)
          (writtenBack dispatched'.submission (finalState host dispatched.submission w)
            (w.message (readerState dispatched.submission)).2) := hboth.written _ _ _
      have hread := readSession_cases host dispatched.submission dispatched.dirty w
      have hread' := readSession_cases host dispatched'.submission dispatched'.dirty w
      rw [finalState_mirrors host hboth, hboth.state] at hread'
      have hpolled := sameEnd_of_polled hlast
        (hread.imp_left (by
          rintro ⟨hnone, hitems, hdirty, hsame⟩
          exact ⟨hnone, hitems, (hclean hdirty).trans hsame⟩))
        (hread'.imp_left (by
          rintro ⟨hnone, hitems, hdirty, hsame⟩
          exact ⟨hnone, hitems, (hclean' hdirty).trans hsame⟩))
      exact ⟨SameEnd.or (rel_or (pollExactHook_mirrors host hboth w) (hboth.ensuredAlive w))
        hpolled, hprompt⟩

end Gemini

end CodexBridge.Providers
