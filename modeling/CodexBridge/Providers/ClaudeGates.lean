import CodexBridge.Providers.ClaudePolls
import CodexBridge.Providers.CodexGates

/-! Earlier turns do not decide a job of Claude either, except that a terminal API error is not
held back until the anchor of the prompt has come. -/

namespace CodexBridge.Providers.Claude

open Completion Execution

variable (host : Host)

/-! ### Events -/

def isUser (event : LogEvent) : Bool := host.text event.fields "role" = "user"

/-- A terminal API error of the log. -/
def isApiError (event : LogEvent) : Bool :=
  host.text event.fields "role" = "system" && (terminalApiErrorPayload host event).isSome

/-- The anchor has come in this session; without it no assistant event is taken. -/
def anchored (poll : PollState) : Prop := poll.anchorSeen = true ∨ poll.lastAssistantUuid ≠ ""

/-- The parsing state has seen the anchor only if the log has it. -/
structure Watches (anchor : String) (x : PollState × LogView) : Prop where
  requestAnchor : x.1.requestAnchor = anchor
  sessionPath : x.1.sessionPath = x.2.sessionPath
  anchored : anchored x.1 → x.2.Carries host (isUser host) anchor

/-- What an event changes: an error is a terminal API error, the other items of a turn come only
once the anchor has been seen, and the anchor is seen with the event that carries it. -/
structure Gated (poll poll' : PollState) (event : LogEvent) : Prop where
  items : ∃ new, poll'.items = poll.items ++ new ∧
    ∀ item ∈ new, (item.kind = .error → isApiError host event = true) ∧
      (ofTurn item.kind = true → item.kind ≠ .error → anchored poll)
  requestAnchor : poll'.requestAnchor = poll.requestAnchor
  anchored : anchored poll' → anchored poll ∨
    isUser host event = true ∧
      Protocol.carriesAnchor poll.requestAnchor (host.text event.fields "text") = true

section Events

variable {host} {sub : Submission} {now : Active.Now} {poll poll' poll'' : PollState}
  {event : LogEvent}

/-- Nothing that counts has changed. -/
theorem Gated.quiet (hitems : poll'.items = poll.items)
    (hanchor : poll'.requestAnchor = poll.requestAnchor)
    (hanchored : Claude.anchored poll' → Claude.anchored poll) : Gated host poll poll' event where
  items := ⟨[], by rw [hitems, List.append_nil], fun _ hmem => absurd hmem List.not_mem_nil⟩
  requestAnchor := hanchor
  anchored h := .inl (hanchored h)

/-- An item after the anchor that is no error. -/
theorem Gated.seen {item : Item} (hseen : Claude.anchored poll)
    (hitems : poll'.items = poll.items ++ [item]) (hkind : item.kind ≠ .error)
    (hanchor : poll'.requestAnchor = poll.requestAnchor) : Gated host poll poll' event where
  items := by
    refine ⟨[item], hitems, fun other hother => ?_⟩
    rw [List.mem_singleton.mp hother]
    exact ⟨fun herror => absurd herror hkind, fun _ _ => hseen⟩
  requestAnchor := hanchor
  anchored _ := .inl hseen

theorem Gated.trans (h : Gated host poll poll' event) (h' : Gated host poll' poll'' event)
    (hback : Claude.anchored poll' → Claude.anchored poll) : Gated host poll poll'' event where
  items := by
    obtain ⟨new, hnew, hgate⟩ := h.items
    obtain ⟨more, hmore, hgate'⟩ := h'.items
    refine ⟨new ++ more, by rw [hmore, hnew, List.append_assoc], fun item hitem => ?_⟩
    obtain hfirst | hlast := List.mem_append.mp hitem
    · exact hgate item hfirst
    · exact ⟨(hgate' item hlast).1, fun hturn hkind => hback ((hgate' item hlast).2 hturn hkind)⟩
  requestAnchor := h'.requestAnchor.trans h.requestAnchor
  anchored hanchored := by
    obtain hearlier | hcarries := h'.anchored hanchored
    · exact .inl (hback hearlier)
    · exact .inr ⟨hcarries.1, h.requestAnchor ▸ hcarries.2⟩

variable (host)

theorem userEvent_gated (huser : isUser host event = true) :
    Gated host poll (handleUserEvent sub now poll (host.text event.fields "text")) event := by
  rw [handleUserEvent]
  split
  · rename_i hcarries
    refine ⟨⟨_, rfl, fun item hitem => ?_⟩, rfl, fun _ => .inr ⟨huser, ?_⟩⟩
    · rw [List.mem_singleton.mp hitem]
      refine ⟨fun herror => ?_, fun hturn => ?_⟩
      · cases herror
      · cases hturn
    · exact (Bool.and_eq_true_iff.mp hcarries).1
  · exact Gated.quiet rfl rfl id

theorem systemEvent_gated (hrole : host.text event.fields "role" = "system") :
    Gated host poll (stepSystem host sub now poll event) event := by
  rw [stepSystem]
  split
  · rename_i apiError hpayload
    have herror : isApiError host event = true := by
      rw [isApiError, hrole, hpayload]
      rfl
    refine ⟨⟨[apiErrorItem sub now poll apiError], rfl, fun item hitem => ?_⟩, rfl, .inl⟩
    rw [List.mem_singleton.mp hitem]
    exact ⟨fun _ => herror, fun _ hkind => absurd rfl hkind⟩
  · split
    · rename_i hboundary
      have huuid : poll.lastAssistantUuid ≠ "" := by
        simp only [isTurnBoundaryEvent, Bool.and_eq_true] at hboundary
        exact of_decide_eq_true hboundary.1.2
      exact Gated.seen (.inr huuid) rfl (fun h => by cases h) rfl
    · exact Gated.quiet rfl rfl id

theorem assistantEvent_gated (hseen : poll.anchorSeen = true) :
    Gated host poll (handleAssistantEvent host sub now poll event) event := by
  have hboundary : ∀ poll, poll.anchorSeen = true →
      Gated host poll (maybeAppendTurnBoundary sub now poll) event := by
    intro poll hseen
    rw [maybeAppendTurnBoundary]
    split
    · exact Gated.quiet rfl rfl id
    · exact Gated.seen (.inl hseen) rfl (fun h => by cases h) rfl
  rw [handleAssistantEvent]
  dsimp only
  split
  · refine Gated.trans ?_ (hboundary _ ?_) fun _ => .inl hseen
    · exact Gated.quiet rfl rfl fun _ => .inl hseen
    · exact hseen
  · refine Gated.trans ?_ (hboundary _ ?_) fun _ => .inl hseen
    · exact Gated.seen (.inl hseen) rfl (fun h => by cases h) rfl
    · exact hseen

theorem stepEvent_gated (sub : Submission) (now : Active.Now) (poll : PollState)
    (event : LogEvent) : Gated host poll (stepEvent host sub now poll event) event := by
  rw [stepEvent]
  split
  · rename_i huser
    exact userEvent_gated host (decide_eq_true huser)
  · split
    · rename_i hrole
      exact systemEvent_gated host hrole
    · split
      · rename_i hassistant
        exact assistantEvent_gated host hassistant.2
      · exact Gated.quiet rfl rfl id

end Events

/-! ### Steps -/

theorem watches_step {anchor : String} {sub : Submission}
    (hwrapped : (sub.runtimeState.get "no_wrap").truthy = false) (now : Active.Now)
    {x : PollState × LogView} (h : Watches host anchor x) (logStep : LogStep) :
    Watches host anchor (readStep (step host sub now) x logStep) := by
  obtain ⟨poll, view⟩ := x
  obtain ⟨hanchor, hpath, hanchored⟩ := h
  simp only at hanchor hpath hanchored
  cases logStep with
  | session path =>
    rw [readStep, step, applySessionRotation, LogView.read]
    by_cases hsame : path = "" ∨ path = view.sessionPath
    · have hskip : (decide (path = "") || decide (path = poll.sessionPath)) = true := by
        simpa [hpath] using hsame
      rw [if_pos hsame, if_pos hskip]
      exact ⟨hanchor, hpath, hanchored⟩
    · have hmove : ¬ (decide (path = "") || decide (path = poll.sessionPath)) = true := by
        simpa [hpath] using hsame
      rw [if_neg hsame, if_neg hmove]
      refine ⟨hanchor, rfl, fun hseen => ?_⟩
      obtain hseen | huuid := hseen
      · have hseen : (sub.runtimeState.get "no_wrap").truthy = true := hseen
        exact absurd hseen (hwrapped ▸ Bool.false_ne_true)
      · exact absurd rfl huuid
  | event event =>
    have hgated := stepEvent_gated host sub now poll event
    refine ⟨hgated.requestAnchor.trans hanchor,
      (stepEvent_sessionPath host sub now poll event).trans hpath, fun hseen => ?_⟩
    obtain hearlier | ⟨huser, hcarries⟩ := hgated.anchored hseen
    · exact (hanchored hearlier).event event
    · exact view.carries_read huser (hanchor ▸ hcarries)

theorem append_step (sub : Submission) (now : Active.Now) (poll : PollState) (logStep : LogStep) :
    poll.items <+: (step host sub now poll logStep).items := by
  cases logStep with
  | session path =>
    rw [step, applySessionRotation]
    split
    · exact List.prefix_rfl
    · exact List.prefix_append _ _
  | event event =>
    obtain ⟨new, hnew, -⟩ := (stepEvent_gated host sub now poll event).items
    rw [step, hnew]
    exact List.prefix_append _ _

/-- An error is a terminal API error; the other items of a turn are made once the anchor has been
seen. -/
theorem anchored_of_added {sub : Submission} {now : Active.Now} {poll : PollState}
    {logStep : LogStep} {item : Item}
    (h : item ∈ added (step host sub now) PollState.items poll logStep) :
    (item.kind = .error → ∃ event, logStep = .event event ∧ isApiError host event = true) ∧
      (ofTurn item.kind = true → item.kind ≠ .error → anchored poll) := by
  cases logStep with
  | session path =>
    rw [added, step, applySessionRotation] at h
    split at h
    · rw [List.drop_length] at h
      exact absurd h List.not_mem_nil
    · rw [PollState.emit, List.drop_left, List.mem_singleton] at h
      rw [h]
      refine ⟨fun herror => ?_, fun hturn => ?_⟩
      · cases herror
      · cases hturn
  | event event =>
    obtain ⟨new, hnew, hgate⟩ := (stepEvent_gated host sub now poll event).items
    rw [added, step, hnew, List.drop_left] at h
    exact ⟨fun herror => ⟨event, rfl, (hgate item h).1 herror⟩, (hgate item h).2⟩

/-! ### Polls of Claude -/

/-- The submission that a poll reads the log for: the prompt stage comes first. -/
def dispatched (sub : Submission) (w : World) : Submission := (dispatchDeferredPrompt host sub w).1

/-- The result of the stages between the prompt and the log. -/
def beforeLog (sub : Submission) (w : World) : Option PollResult :=
  ((replyDeliveryTerminalIfDispatched host sub w.now).or (pollExactHook host sub w)).or
    (ensureActivePaneAlive sub w)

/-- No stage before the log has a result. -/
def readsLog (sub : Submission) (w : World) : Bool :=
  (prepareActivePollWithoutLiveness host sub w).isNone &&
    (beforeLog host (dispatched host sub w) w).isNone

/-- The prompt of the poll does not count as the anchor. -/
def NoAnchorEmitted (sub : Submission) (w : World) : Prop :=
  host.text (dispatched host sub w).runtimeState "prompt_anchor_emitted_at" = ""

instance (sub : Submission) (w : World) : Decidable (NoAnchorEmitted host sub w) :=
  inferInstanceAs (Decidable (_ = _))

def readPoll (sub : Submission) (w : World) (seen : LogView) : PollState × LogView :=
  readAll (step host (dispatched host sub w) w.now) PollState.reachedTurnBoundary
    (buildPollState host (dispatched host sub w), seen) (logSteps host (dispatched host sub w) w)

/-- The log after a poll. -/
def viewAfter (sub : Submission) (w : World) (seen : LogView) : LogView :=
  if readsLog host sub w then (readPoll host sub w seen).2 else seen

/-- The items a poll makes of the log, and where they come from. -/
def pollOrigins (sub : Submission) (w : World) (seen : LogView) : List Origin :=
  origins (step host (dispatched host sub w) w.now) PollState.reachedTurnBoundary PollState.items
    (buildPollState host (dispatched host sub w), seen) (logSteps host (dispatched host sub w) w)

/-- A wrapped submission has seen its anchor only if the log has it. -/
structure Armed (anchor : String) (sub : Submission) (seen : LogView) : Prop where
  watches : Watches host anchor (buildPollState host sub, seen)
  wrapped : (sub.runtimeState.get "no_wrap").truthy = false

variable {anchor : String} {sub sub' : Submission} {seen : LogView} {w : World}

theorem Armed.of_seen (h : Armed host anchor sub seen) {keys : List String}
    (hkeeps : Keeps keys sub sub')
    (hkeys : ∀ key ∈ ["session_path", "last_assistant_uuid", "no_wrap", "request_anchor",
      "req_id"], key ∉ keys)
    (hseen : (sub'.runtimeState.get "anchor_seen").truthy =
      (sub.runtimeState.get "anchor_seen").truthy) : Armed host anchor sub' seen := by
  have hpath := hkeeps.text host "session_path" (hkeys _ (by simp))
  have huuid := hkeeps.text host "last_assistant_uuid" (hkeys _ (by simp))
  have hwrap := hkeeps.get "no_wrap" (hkeys _ (by simp))
  have hanchor := hkeeps.requestAnchor host (hkeys _ (by simp)) (hkeys _ (by simp))
  refine ⟨⟨hanchor.trans h.watches.requestAnchor, hpath.trans h.watches.sessionPath,
    fun hanchored => h.watches.anchored ?_⟩, hwrap ▸ h.wrapped⟩
  have hanchored : (sub'.runtimeState.get "anchor_seen").truthy = true ∨
      host.text sub'.runtimeState "last_assistant_uuid" ≠ "" := hanchored
  rw [hseen, huuid] at hanchored
  exact hanchored

theorem Armed.dispatched (h : Armed host anchor sub seen) (hquiet : NoAnchorEmitted host sub w) :
    Armed host anchor (dispatched host sub w) seen := by
  by_cases hdue : NoPromptDue host sub w
  · obtain ⟨hkeeps, -⟩ := dispatch_of_noPromptDue host hdue
    exact h.of_seen host hkeeps (by decide)
      (congrArg Value.truthy (hkeeps.get "anchor_seen" (by decide)))
  · obtain ⟨hunsent, hdue⟩ := not_or.mp hdue
    have hunsent : promptSent sub = false := by simpa using hunsent
    have hdue : promptDeliveryDue host sub w = true := by simpa using hdue
    have hemitted : anchorEmitted sub = false := by
      by_contra hemitted
      have hemitted : anchorEmitted sub = true := by simpa using hemitted
      rw [NoAnchorEmitted, Claude.dispatched, dispatch_emittedAt host hunsent hdue, hemitted,
        if_pos rfl] at hquiet
      exact w.now.nonempty hquiet
    refine h.of_seen host (dispatch_keeps host hunsent hdue) (by decide) ?_
    have hseen := dispatch_anchorSeen host hunsent hdue
    rw [hemitted, Bool.or_false] at hseen
    rw [Claude.dispatched, Payload.get, hseen]
    rfl

theorem poll_of_prepared (h : prepareActivePollWithoutLiveness host sub w = none) :
    poll host sub w = some (mergePollResultItems
      ((beforeLog host (dispatched host sub w) w).getD (readLog host (dispatched host sub w) w))
      (if promptSent sub then [] else promptDispatchItems host (dispatched host sub w) w.now)) := by
  rw [poll, pollSubmission, h]
  rfl

/-- Without an anchor from the prompt stage the poll is what it makes of the log. -/
theorem poll_of_readsLog' (h : readsLog host sub w = true) (hquiet : NoAnchorEmitted host sub w) :
    poll host sub w = some (readLog host (dispatched host sub w) w) := by
  obtain ⟨hprepared, hafter⟩ := Bool.and_eq_true_iff.mp h
  have hafter := Option.isNone_iff_eq_none.mp hafter
  have hitems : (if promptSent sub then []
      else promptDispatchItems host (dispatched host sub w) w.now) = [] := by
    split
    · rfl
    · rw [promptDispatchItems, if_pos]
      rw [hquiet, Bool.or_eq_true, decide_eq_true_eq]
      exact .inr fun hnow => w.now.nonempty hnow.symm
  rw [poll_of_prepared host (Option.isNone_iff_eq_none.mp hprepared), hafter, hitems]
  rfl

theorem submission_of_beforeLog {result : PollResult} (h : beforeLog host sub w = some result) :
    Keeps ["mode", "next_seq"] sub result.submission := by
  obtain hearly | ⟨-, hdead⟩ := Option.or_eq_some_iff.mp h
  · obtain hreceipt | ⟨-, hhook⟩ := Option.or_eq_some_iff.mp hearly
    · rw [replyDeliveryTerminalIfDispatched] at hreceipt
      split at hreceipt
      · cases hreceipt
      · cases hreceipt
        exact Keeps.refl sub
    · rw [pollExactHook] at hhook
      split at hhook
      · cases hhook
      · obtain ⟨event, -, rfl⟩ := Option.map_eq_some_iff.mp hhook
        exact ⟨rfl, rfl, fun key hkey =>
          lookup_override_of_notMem fun hmem => hkey (List.mem_cons_of_mem _ hmem)⟩
  · rw [submission_of_dead hdead]
    exact passivated_keeps sub

/-- A poll that does not come to the log does not depend on it, and changes nothing that counts. -/
theorem poll_of_not_readsLog (h : readsLog host sub w = false) :
    ∃ result, (∀ log, poll host sub { w with log := log } = some result) ∧
      (Keeps ["mode", "next_seq"] sub result.submission ∨
        Keeps ["mode", "next_seq"] (dispatched host sub w) result.submission) := by
  cases hprepared : prepareActivePollWithoutLiveness host sub w with
  | some result =>
    refine ⟨result, fun log => ?_, .inl ?_⟩
    · have hprepared' : prepareActivePollWithoutLiveness host sub { w with log := log } =
          some result := hprepared
      rw [poll, pollSubmission, hprepared']
    · rw [submission_of_unprepared host hprepared]
      exact passivated_keeps sub
  | none =>
    have hbefore : beforeLog host (dispatched host sub w) w ≠ none := by
      intro hnone
      rw [readsLog, hprepared, hnone] at h
      contradiction
    obtain ⟨result, hresult⟩ := Option.ne_none_iff_exists'.mp hbefore
    let items := if promptSent sub then []
      else promptDispatchItems host (dispatched host sub w) w.now
    refine ⟨mergePollResultItems result items, fun log => ?_, .inr ?_⟩
    · have hprepared' : prepareActivePollWithoutLiveness host sub { w with log := log } = none :=
        hprepared
      have hresult' : beforeLog host (dispatched host sub { w with log := log })
          { w with log := log } = some result := hresult
      rw [poll_of_prepared host hprepared', hresult']
      rfl
    · have hkeeps := submission_of_beforeLog host hresult
      exact hkeeps

theorem Armed.readPoll (h : Armed host anchor sub seen) (hquiet : NoAnchorEmitted host sub w) :
    Watches host anchor (readPoll host sub w seen) := by
  have harmed := h.dispatched host hquiet
  have hstep : ∀ x logStep, x.1.reachedTurnBoundary = false → Watches host anchor x →
      Watches host anchor (readStep (step host (Claude.dispatched host sub w) w.now) x logStep) :=
    fun x logStep _ hx => watches_step host harmed.wrapped w.now hx logStep
  exact readAll_invariant hstep harmed.watches _

/-- A poll keeps a submission armed. -/
theorem Armed.poll (h : Armed host anchor sub seen) (hquiet : NoAnchorEmitted host sub w) :
    Armed host anchor (afterPoll (poll host) sub w) (viewAfter host sub w seen) := by
  have harmed := h.dispatched host hquiet
  rw [viewAfter]
  cases hreads : readsLog host sub w with
  | true =>
    have hreading := readLog_reading host (Claude.dispatched host sub w) w
    have hwatches := h.readPoll host hquiet
    have hfinal : (Claude.readPoll host sub w seen).1 =
        finalState host (Claude.dispatched host sub w) w := readAll_fst _ _
    rw [if_pos rfl, afterPoll_of_some (poll_of_readsLog' host hreads hquiet)]
    refine ⟨?_, hreading.provider.2 ▸ harmed.wrapped⟩
    rw [hreading.load, ← hfinal]
    exact ⟨hwatches.requestAnchor, hwatches.sessionPath, hwatches.anchored⟩
  | false =>
    obtain ⟨result, hpoll, hkeeps⟩ := poll_of_not_readsLog host hreads
    rw [if_neg Bool.false_ne_true, afterPoll_of_some (hpoll w.log)]
    obtain hkeeps | hkeeps := hkeeps
    · exact h.of_seen host hkeeps (by decide)
        (congrArg Value.truthy (hkeeps.get "anchor_seen" (by decide)))
    · exact harmed.of_seen host hkeeps (by decide)
        (congrArg Value.truthy (hkeeps.get "anchor_seen" (by decide)))

/-- Where the items of a poll come from. -/
theorem Armed.origins (h : Armed host anchor sub seen) (hquiet : NoAnchorEmitted host sub w) :
    ∀ origin ∈ pollOrigins host sub w seen,
      (origin.item.kind = .error →
        ∃ event, origin.made = .event event ∧ isApiError host event = true) ∧
      (ofTurn origin.item.kind = true → origin.item.kind ≠ .error →
        origin.view.Carries host (isUser host) anchor) := by
  have harmed := h.dispatched host hquiet
  have hstep : ∀ x logStep, x.1.reachedTurnBoundary = false → Watches host anchor x →
      Watches host anchor (readStep (step host (Claude.dispatched host sub w) w.now) x logStep) :=
    fun x logStep _ hx => watches_step host harmed.wrapped w.now hx logStep
  refine origins_invariant hstep ?_ harmed.watches _
  intro x logStep item hx hitem
  obtain ⟨herror, hturn⟩ := anchored_of_added host hitem
  exact ⟨herror, fun hkind hne => hx.anchored (hturn hkind hne)⟩

theorem error_of_decision (h : (readLog host sub w).decision ≠ none) :
    ∃ item ∈ (readLog host sub w).items, item.kind = .error := by
  have hfollows := pollEventBatches_follows host sub w.now (w.log.reads (readerState sub))
    (show (buildPollState host sub).reachedTurnBoundary = false from rfl)
  rw [readLog] at h ⊢
  split at h
  · rename_i result hresult
    rw [hresult] at hfollows
    obtain ⟨poll, apiError, state, -, rfl⟩ := hfollows
    exact ⟨apiErrorItem sub w.now poll apiError, List.mem_append_right _ List.mem_cons_self, rfl⟩
  · exact absurd rfl h

/-- The items of a poll that comes to the log are those that the log makes, and a decision comes
with an error. -/
theorem readLog_origins (sub : Submission) (w : World) (seen : LogView) :
    (readLog host (dispatched host sub w) w).items =
        (pollOrigins host sub w seen).map Origin.item ∧
      ((readLog host (dispatched host sub w) w).decision ≠ none →
        ∃ origin ∈ pollOrigins host sub w seen, origin.item.kind = .error) := by
  have hreading := readLog_reading host (dispatched host sub w) w
  have hitems : (readPoll host sub w seen).1.items =
      [] ++ (pollOrigins host sub w seen).map Origin.item :=
    items_readAll (append_step host (dispatched host sub w) w.now) _ _
  rw [readPoll, readAll_fst] at hitems
  have hall := hreading.items.trans hitems
  refine ⟨hall, fun hdecision => ?_⟩
  obtain ⟨item, hitem, hkind⟩ := error_of_decision host hdecision
  rw [hall, List.nil_append] at hitem
  obtain ⟨origin, horigin, rfl⟩ := List.mem_map.mp hitem
  exact ⟨origin, horigin, hkind⟩

end CodexBridge.Providers.Claude
