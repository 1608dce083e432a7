import CodexBridge.Providers.CodexPolls
import CodexBridge.Providers.Origins

/-! Earlier turns do not decide a job of Codex: before the anchor of its prompt has come in the
current session, the log makes no item of a turn. -/

namespace CodexBridge.Providers.Codex

open Completion Execution

variable (host : Host)

/-! ### Entries -/

def isUser (entry : LogEvent) : Bool := lower (strip (host.text entry.fields "role")) = "user"

/-- The parsing state has seen the anchor only if the log has it. -/
structure Watches (anchor : String) (x : PollState × LogView) : Prop where
  requestAnchor : x.1.requestAnchor = anchor
  sessionPath : x.1.sessionPath = x.2.sessionPath
  anchored : x.1.anchorSeen = true → x.2.Carries host (isUser host) anchor

/-- What an entry changes: it adds items of a turn only once the anchor has been seen, and the
anchor is seen with the entry that carries it. -/
structure Gated (poll poll' : PollState) (entry : LogEvent) : Prop where
  items : ∃ new, poll'.items = poll.items ++ new ∧
    ∀ item ∈ new, ofTurn item.kind = true → poll.anchorSeen = true
  requestAnchor : poll'.requestAnchor = poll.requestAnchor
  anchorSeen : poll'.anchorSeen = true → poll.anchorSeen = true ∨
    isUser host entry = true ∧
      Protocol.carriesAnchor poll.requestAnchor (host.text entry.fields "text") = true

section Entries

attribute [local irreducible] strip

variable {host} {sub : Submission} {now : Active.Now} {poll poll' : PollState} {entry : LogEvent}

/-- Nothing that counts has changed. -/
theorem Gated.quiet (hitems : poll'.items = poll.items)
    (hanchor : poll'.requestAnchor = poll.requestAnchor)
    (hseen : poll'.anchorSeen = poll.anchorSeen) : Gated host poll poll' entry where
  items := ⟨[], by rw [hitems, List.append_nil], fun _ hmem => absurd hmem List.not_mem_nil⟩
  requestAnchor := hanchor
  anchorSeen h := .inl (hseen ▸ h)

/-- An item after the anchor. -/
theorem Gated.seen {item : Item} (hanchored : poll.anchorSeen = true)
    (hitems : poll'.items = poll.items ++ [item])
    (hanchor : poll'.requestAnchor = poll.requestAnchor) : Gated host poll poll' entry where
  items := ⟨[item], hitems, fun _ _ _ => hanchored⟩
  requestAnchor := hanchor
  anchorSeen _ := .inl hanchored

variable (host)

theorem userEntry_gated (huser : isUser host entry = true) :
    Gated host poll (handleUserEntry sub now poll (host.text entry.fields "text")) entry := by
  rw [handleUserEntry]
  split
  · rename_i hcarries
    refine ⟨⟨_, rfl, fun item hitem hturn => ?_⟩, rfl, fun _ => .inr ⟨huser, ?_⟩⟩
    · rw [List.mem_singleton.mp hitem] at hturn
      cases hturn
    · exact (Bool.and_eq_true_iff.mp hcarries).1
  · exact Gated.quiet rfl rfl rfl

theorem assistantEntry_gated (hseen : poll.anchorSeen = true) :
    Gated host poll (handleAssistantEntry host sub now poll entry) entry := by
  rw [handleAssistantEntry]
  split
  · exact Gated.quiet rfl rfl rfl
  · dsimp only
    split
    · exact Gated.quiet rfl rfl rfl
    · exact Gated.seen hseen rfl rfl

theorem terminalEntry_gated (hseen : poll.anchorSeen = true) :
    Gated host poll (handleTerminalEntry host sub now poll entry) entry := by
  rw [handleTerminalEntry]
  split
  · exact Gated.seen hseen rfl rfl
  · split
    · exact Gated.seen hseen rfl rfl
    · exact Gated.quiet rfl rfl rfl

theorem processEntry_gated (sub : Submission) (now : Active.Now) (poll : PollState)
    (entry : LogEvent) : Gated host poll (processEntry host sub now poll entry) entry := by
  have hbound : ∀ {poll'}, Gated host (updateBindingRefs host poll entry) poll' entry →
      Gated host poll poll' entry := fun h => ⟨h.items, h.requestAnchor, h.anchorSeen⟩
  apply hbound
  rw [processEntry]
  split
  · rename_i huser
    exact userEntry_gated host (decide_eq_true huser)
  · split
    · exact Gated.quiet rfl rfl rfl
    · rename_i hseen
      have hseen : (updateBindingRefs host poll entry).anchorSeen = true := by simpa using hseen
      split
      · exact assistantEntry_gated host hseen
      · exact terminalEntry_gated host hseen

end Entries

theorem watches_step {anchor : String} {sub : Submission}
    (hwrapped : (sub.runtimeState.get "no_wrap").truthy = false) (now : Active.Now)
    {x : PollState × LogView} (h : Watches host anchor x) (logStep : LogStep) :
    Watches host anchor (readStep (step host sub now) x logStep) := by
  obtain ⟨poll, view⟩ := x
  obtain ⟨hanchor, hpath, hanchored⟩ := h
  simp only at hanchor hpath hanchored
  cases logStep with
  | session path =>
    rw [readStep, step, applySessionRotation, LogView.read]
    by_cases hsame : path = "" ∨ path = view.sessionPath
    · have hskip : (decide (path = "") || decide (path = poll.sessionPath)) = true := by
        simpa [hpath] using hsame
      rw [if_pos hsame, if_pos hskip]
      exact ⟨hanchor, hpath, hanchored⟩
    · have hmove : ¬ (decide (path = "") || decide (path = poll.sessionPath)) = true := by
        simpa [hpath] using hsame
      rw [if_neg hsame, if_neg hmove]
      refine ⟨hanchor, rfl, fun hseen => ?_⟩
      have hseen : (sub.runtimeState.get "no_wrap").truthy = true := hseen
      exact absurd hseen (hwrapped ▸ Bool.false_ne_true)
  | event entry =>
    have hgated := processEntry_gated host sub now poll entry
    refine ⟨hgated.requestAnchor.trans hanchor,
      (processEntry_sessionPath host sub now poll entry).trans hpath, fun hseen => ?_⟩
    obtain hearlier | ⟨huser, hcarries⟩ := hgated.anchorSeen hseen
    · exact (hanchored hearlier).event entry
    · exact view.carries_read huser (hanchor ▸ hcarries)

/-! ### Polls of Codex -/

instance (sub : Submission) (w : World) : Decidable (ReadsLog host sub w) :=
  inferInstanceAs (Decidable (_ ∧ _))

/-- The log after a poll. -/
def viewAfter (sub : Submission) (w : World) (seen : LogView) : LogView :=
  if ReadsLog host sub w then
    (readAll (step host sub w.now) PollState.reachedTerminal (buildPollState host sub, seen)
      (logSteps host sub w)).2
  else seen

/-- The items a poll makes of the log, and where they come from. -/
def pollOrigins (sub : Submission) (w : World) (seen : LogView) : List Origin :=
  origins (step host sub w.now) PollState.reachedTerminal PollState.items
    (buildPollState host sub, seen) (logSteps host sub w)

/-- A wrapped submission has seen its anchor only if the log has it. -/
structure Armed (anchor : String) (sub : Submission) (seen : LogView) : Prop where
  watches : Watches host anchor (buildPollState host sub, seen)
  wrapped : (sub.runtimeState.get "no_wrap").truthy = false

theorem Armed.keeps {anchor : String} {sub sub' : Submission} {seen : LogView} {keys : List String}
    (h : Armed host anchor sub seen) (hkeeps : Keeps keys sub sub')
    (hkeys : ∀ key ∈ ["session_path", "anchor_seen", "no_wrap", "request_anchor", "req_id"],
      key ∉ keys) : Armed host anchor sub' seen := by
  have hpath := hkeeps.text host "session_path" (hkeys _ (by simp))
  have hseen := hkeeps.get "anchor_seen" (hkeys _ (by simp))
  have hwrap := hkeeps.get "no_wrap" (hkeys _ (by simp))
  have hanchor := hkeeps.requestAnchor host (hkeys _ (by simp)) (hkeys _ (by simp))
  refine ⟨⟨hanchor.trans h.watches.requestAnchor, hpath.trans h.watches.sessionPath,
    fun hanchored => ?_⟩, hwrap ▸ h.wrapped⟩
  have hanchored : (sub'.runtimeState.get "anchor_seen").truthy = true := hanchored
  rw [hseen] at hanchored
  exact h.watches.anchored hanchored

theorem unprepared_of_not_readsLog {sub : Submission} {w : World} (h : ¬ ReadsLog host sub w) :
    ∃ result, prepareActivePoll host (refreshReader host sub w) w = some result ∧
      result.submission = Active.passivated (refreshReader host sub w) := by
  have hready : prepareActivePoll host (refreshReader host sub w) w ≠ none := by
    intro hready
    rw [prepareActivePoll_eq_none, (refreshReader_keeps host sub w).pollable host (by decide)
      (by decide)] at hready
    exact h hready
  obtain ⟨result, hresult⟩ := Option.ne_none_iff_exists'.mp hready
  refine ⟨result, hresult, ?_⟩
  obtain hmode | halive := Option.or_eq_some_iff.mp hresult
  · exact submission_of_unprepared host hmode
  · exact submission_of_dead halive.2

/-- A poll that does not come to the log changes nothing that counts. -/
theorem keeps_of_not_readsLog {sub : Submission} {w : World} (h : ¬ ReadsLog host sub w) :
    Keeps ["mode", "next_seq", "state", "workspace_path"] sub (afterPoll (poll host) sub w) := by
  have hrefresh : Keeps ["mode", "next_seq", "state", "workspace_path"] sub
      (refreshReader host sub w) := (refreshReader_keeps host sub w).mono (by decide)
  have hpassive := (passivated_keeps (refreshReader host sub w)).mono
    (show _ ⊆ ["mode", "next_seq", "state", "workspace_path"] by decide)
  obtain ⟨result, hresult, hsub⟩ := unprepared_of_not_readsLog host h
  have hpoll : poll host sub w = some result := by rw [poll, pollSubmission, hresult]
  rw [afterPoll_of_some hpoll, hsub]
  exact hrefresh.trans hpassive

theorem Armed.readAll {anchor : String} {sub : Submission} {seen : LogView}
    (h : Armed host anchor sub seen) (w : World) :
    Watches host anchor (readAll (step host sub w.now) PollState.reachedTerminal
      (buildPollState host sub, seen) (logSteps host sub w)) := by
  have hstep : ∀ x logStep, x.1.reachedTerminal = false → Watches host anchor x →
      Watches host anchor (readStep (step host sub w.now) x logStep) :=
    fun x logStep _ hx => watches_step host h.wrapped w.now hx logStep
  exact readAll_invariant hstep h.watches (logSteps host sub w)

/-- A poll keeps a submission armed. -/
theorem Armed.poll {anchor : String} {sub : Submission} {seen : LogView}
    (h : Armed host anchor sub seen) (w : World) :
    Armed host anchor (afterPoll (poll host) sub w) (viewAfter host sub w seen) := by
  rw [viewAfter]
  by_cases hreads : ReadsLog host sub w
  · have hwatches := h.readAll host w
    have hfinal : (Providers.readAll (step host sub w.now) PollState.reachedTerminal
        (buildPollState host sub, seen) (logSteps host sub w)).1 = finalState host sub w :=
      readAll_fst _ _
    have hwrap := (next_keeps host hreads).get "no_wrap" (by decide)
    rw [if_pos hreads]
    refine ⟨?_, hwrap ▸ h.wrapped⟩
    rw [next_load host hreads, ← hfinal]
    exact ⟨hwatches.requestAnchor, hwatches.sessionPath, hwatches.anchored⟩
  · rw [if_neg hreads]
    exact h.keeps host (keeps_of_not_readsLog host hreads) (by decide)

theorem append_step (sub : Submission) (now : Active.Now) (poll : PollState) (logStep : LogStep) :
    poll.items <+: (step host sub now poll logStep).items := by
  cases logStep with
  | session path =>
    rw [step, applySessionRotation]
    split
    · exact List.prefix_rfl
    · exact List.prefix_append _ _
  | event entry =>
    obtain ⟨new, hnew, -⟩ := (processEntry_gated host sub now poll entry).items
    rw [step, hnew]
    exact List.prefix_append _ _

/-- The item of a turn is made once the anchor has been seen. -/
theorem anchorSeen_of_added {sub : Submission} {now : Active.Now} {poll : PollState}
    {logStep : LogStep} {item : Item}
    (h : item ∈ added (step host sub now) PollState.items poll logStep)
    (hturn : ofTurn item.kind = true) : poll.anchorSeen = true := by
  cases logStep with
  | session path =>
    rw [added, step, applySessionRotation] at h
    split at h
    · rw [List.drop_length] at h
      exact absurd h List.not_mem_nil
    · rw [PollState.emit, List.drop_left, List.mem_singleton] at h
      rw [h] at hturn
      cases hturn
  | event entry =>
    obtain ⟨new, hnew, hgate⟩ := (processEntry_gated host sub now poll entry).items
    rw [added, step, hnew, List.drop_left] at h
    exact hgate item h hturn

theorem Armed.origins {anchor : String} {sub : Submission} {seen : LogView}
    (h : Armed host anchor sub seen) (w : World) :
    ∀ origin ∈ pollOrigins host sub w seen, ofTurn origin.item.kind = true →
      origin.view.Carries host (isUser host) anchor := by
  have hstep : ∀ x logStep, x.1.reachedTerminal = false → Watches host anchor x →
      Watches host anchor (readStep (step host sub w.now) x logStep) :=
    fun x logStep _ hx => watches_step host h.wrapped w.now hx logStep
  refine origins_invariant hstep ?_ h.watches (logSteps host sub w)
  intro x logStep item hx hitem hturn
  exact hx.anchored (anchorSeen_of_added host hitem hturn)

/-- The items of a poll that comes to the log are those that the log makes. -/
theorem poll_origins {sub : Submission} {w : World} {result : PollResult}
    (h : ReadsLog host sub w) (hpoll : poll host sub w = some result) (seen : LogView) :
    result.items = (pollOrigins host sub w seen).map Origin.item ∧ result.decision = none := by
  have hitems : (readAll (step host sub w.now) PollState.reachedTerminal
      (buildPollState host sub, seen) (logSteps host sub w)).1.items =
        [] ++ (pollOrigins host sub w seen).map Origin.item :=
    items_readAll (append_step host sub w.now) _ _
  rw [readAll_fst] at hitems
  obtain ⟨state, hsome⟩ | ⟨hnone, -⟩ := poll_of_readsLog host h
  · cases hsome.symm.trans hpoll
    exact ⟨hitems, rfl⟩
  · cases hnone.symm.trans hpoll

/-- A poll that does not come to the log does not depend on it. -/
theorem poll_log {sub : Submission} {w : World} (h : ¬ ReadsLog host sub w) (log : SessionLog) :
    poll host sub { w with log := log } = poll host sub w := by
  obtain ⟨result, hresult, -⟩ := unprepared_of_not_readsLog host h
  have hresult' : prepareActivePoll host (refreshReader host sub { w with log := log })
      { w with log := log } = some result := hresult
  rw [poll, poll, pollSubmission, pollSubmission, hresult, hresult']

end CodexBridge.Providers.Codex
