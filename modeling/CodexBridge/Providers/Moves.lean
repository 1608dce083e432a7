import CodexBridge.Providers.Claude
import CodexBridge.Providers.Codex
import CodexBridge.Providers.Gemini

/-! What a poll writes. It leaves a submission as it was but for the reply and for what it
writes over the runtime state, under keys that depend on the adapter. The mode it writes is
the passive one. -/

namespace CodexBridge.Providers

open Completion Execution

variable (host : Host)

theorem mem_of_lookup {payload : Payload} {key : String} {value : Value}
    (h : payload.lookup key = some value) : (key, value) ∈ payload := by
  obtain ⟨before, after, hpayload, -⟩ := List.lookup_eq_some_iff.mp h
  rw [hpayload]
  exact List.mem_append_right _ (List.mem_cons_self ..)

/-- An entry that a poll may write. -/
def Written (keys : List String) (entry : String × Value) : Prop :=
  entry.1 ∈ keys ∧ (entry.1 = "mode" → entry.2 = .str "passive") ∧
    (entry.1 = "session_path" → ∃ path, entry.2 = .str path)

structure Moved (keys : List String) (sub sub' : Submission) : Prop where
  jobId : sub'.jobId = sub.jobId
  provider : sub'.provider = sub.provider
  acceptedAt : sub'.acceptedAt = sub.acceptedAt
  readyAt : sub'.readyAt = sub.readyAt
  sourceKind : sub'.sourceKind = sub.sourceKind
  diagnostics : sub'.diagnostics = sub.diagnostics
  runtimeState : ∃ overlay, sub'.runtimeState = override sub.runtimeState overlay ∧
    ∀ entry ∈ overlay, Written keys entry

namespace Moved

variable {keys keys' : List String} {sub sub' sub'' : Submission}

theorem refl (sub : Submission) : Moved keys sub sub :=
  ⟨rfl, rfl, rfl, rfl, rfl, rfl, [], rfl, List.forall_mem_nil _⟩

theorem trans (h : Moved keys sub sub') (h' : Moved keys sub' sub'') : Moved keys sub sub'' where
  jobId := h'.jobId.trans h.jobId
  provider := h'.provider.trans h.provider
  acceptedAt := h'.acceptedAt.trans h.acceptedAt
  readyAt := h'.readyAt.trans h.readyAt
  sourceKind := h'.sourceKind.trans h.sourceKind
  diagnostics := h'.diagnostics.trans h.diagnostics
  runtimeState := by
    obtain ⟨overlay, hstate, hwritten⟩ := h.runtimeState
    obtain ⟨overlay', hstate', hwritten'⟩ := h'.runtimeState
    refine ⟨overlay' ++ overlay, ?_, ?_⟩
    · rw [hstate', hstate, override, override, override, List.append_assoc]
    · intro entry hentry
      rcases List.mem_append.mp hentry with hentry | hentry
      · exact hwritten' entry hentry
      · exact hwritten entry hentry

theorem mono (h : Moved keys sub sub') (hkeys : keys ⊆ keys') : Moved keys' sub sub' :=
  { h with
    runtimeState := by
      obtain ⟨overlay, hstate, hwritten⟩ := h.runtimeState
      exact ⟨overlay, hstate, fun entry hentry =>
        ⟨hkeys (hwritten entry hentry).1, (hwritten entry hentry).2⟩⟩ }

theorem written {overlay : Payload} (h : ∀ entry ∈ overlay, Written keys entry) (reply : String) :
    Moved keys sub { sub with reply := reply, runtimeState := override sub.runtimeState overlay } :=
  ⟨rfl, rfl, rfl, rfl, rfl, rfl, overlay, rfl, h⟩

theorem lookup (h : Moved keys sub sub') {key : String} (hkey : key ∉ keys) :
    sub'.runtimeState.lookup key = sub.runtimeState.lookup key := by
  obtain ⟨overlay, hstate, hwritten⟩ := h.runtimeState
  rw [hstate]
  refine lookup_override_of_notMem fun hmem => ?_
  obtain ⟨entry, hentry, rfl⟩ := List.mem_map.mp hmem
  exact hkey (hwritten entry hentry).1

theorem get (h : Moved keys sub sub') {key : String} (hkey : key ∉ keys) :
    sub'.runtimeState.get key = sub.runtimeState.get key := by
  rw [Payload.get, h.lookup hkey, Payload.get]

/-- A key is written, or it keeps its value. -/
theorem lookup_cases (h : Moved keys sub sub') (key : String) :
    sub'.runtimeState.lookup key = sub.runtimeState.lookup key ∨
      ∃ value, sub'.runtimeState.lookup key = some value ∧ Written keys (key, value) := by
  obtain ⟨overlay, hstate, hwritten⟩ := h.runtimeState
  rw [hstate, lookup_override]
  cases hvalue : overlay.lookup key with
  | none => exact .inl (Option.none_or)
  | some value => exact .inr ⟨value, Option.some_or, hwritten _ (mem_of_lookup hvalue)⟩

theorem failedResult (hmode : "mode" ∈ keys) (hseq : "next_seq" ∈ keys) (sub : Submission)
    (now : Active.Now) (kind : ItemKind) (reason : String) (payload diagnostics : Payload) :
    Moved keys sub (Active.failedResult sub now kind reason payload diagnostics).submission :=
  written (by simp [Written, hmode, hseq]) sub.reply

end Moved

section Polls

variable {sub : Submission} {w : World} {result : PollResult} {keys : List String}

theorem prepareActivePollWithoutLiveness_moved (hmode : "mode" ∈ keys) (hseq : "next_seq" ∈ keys)
    (h : prepareActivePollWithoutLiveness host sub w = some result) :
    Moved keys sub result.submission := by
  simp only [prepareActivePollWithoutLiveness, runtimeModeError] at h
  split_ifs at h <;> cases h <;> exact Moved.failedResult hmode hseq _ _ _ _ _ _

theorem ensureActivePaneAlive_moved (hmode : "mode" ∈ keys) (hseq : "next_seq" ∈ keys)
    (h : ensureActivePaneAlive sub w = some result) : Moved keys sub result.submission := by
  rw [ensureActivePaneAlive] at h
  split_ifs at h
  cases h
  exact Moved.failedResult hmode hseq _ _ _ _ _ _

/-! ### Codex -/

namespace Codex

/-- The keys of the stages after the reader is refreshed. -/
def readKeys : List String :=
  ["mode", "state", "next_seq", "anchor_seen", "bound_turn_id", "bound_task_id", "reply_buffer",
    "last_agent_message", "last_final_answer", "last_assistant_message",
    "last_assistant_signature", "session_path"]

def polledKeys : List String := "workspace_path" :: readKeys

theorem refreshReader_moved : Moved polledKeys sub (refreshReader host sub w) := by
  simp only [refreshReader]
  split_ifs
  · exact Moved.refl sub
  · split
    · exact Moved.refl sub
    · split_ifs
      · exact Moved.refl sub
      · exact Moved.written (by simp [Written, polledKeys, readKeys]) sub.reply
      · exact Moved.written (by simp [Written, polledKeys]) sub.reply

theorem pollSubmission_moved (h : pollSubmission host sub w = some result) :
    Moved readKeys sub result.submission := by
  simp only [pollSubmission] at h
  split at h
  · rename_i prepared hprepared
    cases h
    rw [prepareActivePoll, Option.or_eq_some_iff] at hprepared
    rcases hprepared with hprepared | ⟨-, hdead⟩
    · exact prepareActivePollWithoutLiveness_moved host (by decide) (by decide) hprepared
    · exact ensureActivePaneAlive_moved (by decide) (by decide) hdead
  · rw [finalizePollResult] at h
    split_ifs at h
    cases h
    exact Moved.written (by simp [Written, readKeys]) _

theorem poll_moved (h : poll host sub w = some result) : Moved polledKeys sub result.submission :=
  (refreshReader_moved host).trans
    ((pollSubmission_moved host h).mono (List.subset_cons_self ..))

end Codex

/-! ### Claude -/

namespace Claude

/-- The keys of the prompt stage. -/
def promptKeys : List String :=
  ["prompt_sent", "prompt_sent_at", "anchor_seen", "next_seq", "prompt_deferred_for_ready",
    "prompt_anchor_emitted_at"]

/-- The keys of the stages after it. -/
def readKeys : List String :=
  ["mode", "state", "next_seq", "anchor_seen", "reply_buffer", "raw_buffer", "session_path",
    "last_assistant_uuid"]

def polledKeys : List String := promptKeys ++ readKeys

theorem dispatchDeferredPrompt_moved :
    Moved promptKeys sub (dispatchDeferredPrompt host sub w).1 := by
  simp only [dispatchDeferredPrompt]
  split_ifs
  · exact Moved.refl sub
  · exact Moved.refl sub
  all_goals exact Moved.written (by simp [Written, promptKeys]) sub.reply

/-- Only an API error ends a poll while it reads. -/
theorem processEvent_moved {now : Active.Now} {state : Value} {poll : PollState}
    {event : LogEvent} (h : processEvent host sub now state poll event = .error result) :
    Moved readKeys sub result.submission := by
  rw [processEvent] at h
  split at h
  · cases h
  · split at h
    · rw [handleSystemEvent] at h
      split at h
      · cases h
        exact Moved.written (by simp [Written, readKeys, writtenBack]) _
      · split at h <;> cases h
    · split at h <;> cases h

theorem processEvents_moved {now : Active.Now} {state : Value} {poll : PollState}
    {events : List LogEvent} (h : processEvents host sub now state poll events = .error result) :
    Moved readKeys sub result.submission := by
  induction events generalizing poll with
  | nil => cases h
  | cons event rest ih =>
    rw [processEvents] at h
    split at h
    · rename_i failed hfailed
      cases h
      exact processEvent_moved host hfailed
    · split at h
      · cases h
      · exact ih h

theorem pollEventBatches_moved {now : Active.Now} {last : Value} {poll : PollState}
    {batches : List Batch} (h : pollEventBatches host sub now last poll batches = .error result) :
    Moved readKeys sub result.submission := by
  induction batches generalizing poll with
  | nil => cases h
  | cons batch rest ih =>
    rw [pollEventBatches] at h
    split at h
    · rename_i failed hfailed
      cases h
      exact processEvents_moved host hfailed
    · split at h
      · cases h
      · exact ih h

theorem readLog_moved : Moved readKeys sub (readLog host sub w).submission := by
  simp only [readLog]
  split
  · rename_i failed hfailed
    exact pollEventBatches_moved host hfailed
  · exact Moved.written (by simp [Written, readKeys, writtenBack]) _

theorem afterPrompt_moved : Moved readKeys sub (afterPrompt host sub w).submission := by
  rw [afterPrompt]
  cases hstage : ((replyDeliveryTerminalIfDispatched host sub w.now).or
      (pollExactHook host sub w)).or (ensureActivePaneAlive sub w) with
  | none => exact readLog_moved host
  | some staged =>
    rw [Option.or_eq_some_iff, Option.or_eq_some_iff] at hstage
    rcases hstage with (hsent | ⟨-, hhook⟩) | ⟨-, hdead⟩
    · simp only [replyDeliveryTerminalIfDispatched] at hsent
      split_ifs at hsent
      cases hsent
      exact Moved.refl sub
    · simp only [pollExactHook] at hhook
      split_ifs at hhook
      obtain ⟨event, -, rfl⟩ := Option.map_eq_some_iff.mp hhook
      exact Moved.written (by simp [Written, readKeys]) _
    · exact ensureActivePaneAlive_moved (by decide) (by decide) hdead

theorem poll_moved (h : poll host sub w = some result) :
    Moved polledKeys sub result.submission := by
  simp only [poll, pollSubmission] at h
  split at h
  · rename_i prepared hprepared
    cases h
    exact prepareActivePollWithoutLiveness_moved host (by decide) (by decide) hprepared
  · cases h
    exact ((dispatchDeferredPrompt_moved host).mono (List.subset_append_left ..)).trans
      ((afterPrompt_moved host).mono (List.subset_append_right ..))

end Claude

/-! ### Gemini -/

namespace Gemini

def polledKeys : List String :=
  ["mode", "state", "next_seq", "anchor_emitted", "reply_buffer", "session_path", "prompt_sent",
    "prompt_sent_at", "ready_prompt_fingerprint", "ready_prompt_seen_at"]

theorem observePromptReadiness_written :
    ∀ entry ∈ (observePromptReadiness host sub w).1, Written polledKeys entry := by
  simp only [observePromptReadiness]
  split
  · exact List.forall_mem_nil _
  · split_ifs <;> simp [Written, polledKeys, readyPromptState]

theorem dispatchDeferredPrompt_moved :
    Moved polledKeys sub (dispatchDeferredPrompt host sub w).submission := by
  have hobserved : Moved polledKeys sub (withRuntimeState sub
      (observePromptReadiness host sub w).1) :=
    Moved.written (observePromptReadiness_written host) sub.reply
  simp only [dispatchDeferredPrompt]
  split_ifs
  · exact Moved.refl sub
  · exact hobserved
  · exact hobserved.trans (Moved.written (by simp [Written, polledKeys]) _)

theorem poll_moved (h : poll host sub w = some result) :
    Moved polledKeys sub result.submission := by
  simp only [poll, pollSubmission] at h
  split at h
  · rename_i prepared hprepared
    cases h
    exact prepareActivePollWithoutLiveness_moved host (by decide) (by decide) hprepared
  · have hdispatched : Moved polledKeys sub (dispatchDeferredPrompt host sub w).submission :=
      dispatchDeferredPrompt_moved host
    refine hdispatched.trans ?_
    split at h
    · rcases Option.or_eq_some_iff.mp h with hdead | ⟨-, hwritten⟩
      · exact ensureActivePaneAlive_moved (by decide) (by decide) hdead
      · split_ifs at hwritten
        cases hwritten
        exact Moved.refl _
    · dsimp only at h
      rw [Option.or_eq_some_iff, Option.or_eq_some_iff] at h
      rcases h with (hhook | ⟨-, hdead⟩) | ⟨-, hread⟩
      · simp only [pollExactHook] at hhook
        split_ifs at hhook
        obtain ⟨event, -, hhook⟩ := Option.bind_eq_some_iff.mp hhook
        split_ifs at hhook
        cases hhook
        exact Moved.written (by simp [Written, polledKeys]) _
      · exact ensureActivePaneAlive_moved (by decide) (by decide) hdead
      · simp only [readSession] at hread
        split_ifs at hread
        cases hread
        exact Moved.written (by simp [Written, polledKeys]) _

end Gemini

end Polls

end CodexBridge.Providers
