import CodexBridge.Providers.ClaudePolls
import CodexBridge.Providers.CodexPolls
import CodexBridge.Providers.Moves

/-! Submissions that polls cannot tell apart. One may have an explicit `None` where the other
has no key, and an empty reader state where the other has none; what is under the keys that
no adapter exports may differ. Polls of the two in one world give the same items and the same
decision, and leave two such submissions behind. -/

namespace CodexBridge.Providers

open Completion Execution

variable (host : Host)

/-- The keys that a poll writes and no adapter exports. -/
def unexportedKeys : List String := ["prompt_deferred_for_ready", "prompt_anchor_emitted_at"]

/-- The keys of which a poll asks whether they are there. -/
def soughtKeys : List String := ["next_seq", "prompt_sent"]

structure Mirrors (sub sub' : Submission) : Prop where
  jobId : sub'.jobId = sub.jobId
  provider : sub'.provider = sub.provider
  sourceKind : sub'.sourceKind = sub.sourceKind
  workspace : sub'.diagnostics.get "workspace_path" = sub.diagnostics.get "workspace_path"
  state : readerState sub' = readerState sub
  get : ∀ key ≠ "state", key ∉ unexportedKeys →
    sub'.runtimeState.get key = sub.runtimeState.get key
  lookup : ∀ key ∈ soughtKeys, sub'.runtimeState.lookup key = sub.runtimeState.lookup key

/-- The results of two polls, of submissions that mirror each other. -/
structure SameResult (result result' : PollResult) : Prop where
  items : result'.items = result.items
  decision : result'.decision = result.decision
  submission : Mirrors result.submission result'.submission

namespace Mirrors

variable {sub sub' sub'' : Submission}

theorem refl (sub : Submission) : Mirrors sub sub :=
  ⟨rfl, rfl, rfl, rfl, rfl, fun _ _ _ => rfl, fun _ _ => rfl⟩

theorem symm (h : Mirrors sub sub') : Mirrors sub' sub :=
  ⟨h.jobId.symm, h.provider.symm, h.sourceKind.symm, h.workspace.symm, h.state.symm,
    fun key hkey hknown => (h.get key hkey hknown).symm, fun key hkey => (h.lookup key hkey).symm⟩

theorem trans (h : Mirrors sub sub') (h' : Mirrors sub' sub'') : Mirrors sub sub'' :=
  ⟨h'.jobId.trans h.jobId, h'.provider.trans h.provider, h'.sourceKind.trans h.sourceKind,
    h'.workspace.trans h.workspace, h'.state.trans h.state,
    fun key hkey hknown => (h'.get key hkey hknown).trans (h.get key hkey hknown),
    fun key hkey => (h'.lookup key hkey).trans (h.lookup key hkey)⟩

/-- What is written over both is read of both. -/
theorem written (h : Mirrors sub sub') (overlay : Payload) (reply reply' : String) :
    Mirrors { sub with reply := reply, runtimeState := override sub.runtimeState overlay }
      { sub' with reply := reply', runtimeState := override sub'.runtimeState overlay } where
  jobId := h.jobId
  provider := h.provider
  sourceKind := h.sourceKind
  workspace := h.workspace
  state := by
    have hstate := h.state
    simp only [readerState, get_override] at hstate ⊢
    cases overlay.lookup "state" with
    | none => exact hstate
    | some state => rfl
  get key hkey hknown := by
    dsimp only
    rw [get_override, get_override, h.get key hkey hknown]
  lookup key hkey := by
    dsimp only
    rw [lookup_override, lookup_override, h.lookup key hkey]

/-- Entries that are there already, or that no export knows, make no difference. -/
theorem kept {overlay : Payload} (h : ∀ key ∉ unexportedKeys, ∀ value,
    overlay.lookup key = some value → sub.runtimeState.get key = value ∧
      (key ∈ soughtKeys → sub.runtimeState.lookup key = some value)) (reply : String) :
    Mirrors sub { sub with reply := reply, runtimeState := override sub.runtimeState overlay } := by
  have hget : ∀ key ∉ unexportedKeys,
      (override sub.runtimeState overlay).get key = sub.runtimeState.get key := by
    intro key hknown
    rw [get_override]
    cases hvalue : overlay.lookup key with
    | none => rfl
    | some value => exact (h key hknown value hvalue).1.symm
  refine ⟨rfl, rfl, rfl, rfl, ?_, fun key _ hknown => hget key hknown, ?_⟩
  · rw [readerState, readerState, hget _ (by decide)]
  · intro key hkey
    have hknown : key ∉ unexportedKeys := by
      simp only [soughtKeys, List.mem_cons, List.not_mem_nil, or_false] at hkey
      rcases hkey with rfl | rfl <;> decide
    dsimp only
    rw [lookup_override]
    cases hvalue : overlay.lookup key with
    | none => exact Option.none_or
    | some value => exact ((h key hknown value hvalue).2 hkey).symm

/-- To write what is there makes no difference. -/
theorem rewritten {overlay : Payload} (h : ∀ entry ∈ overlay,
    sub.runtimeState.get entry.1 = entry.2 ∧ entry.1 ∉ soughtKeys) :
    Mirrors sub { sub with runtimeState := override sub.runtimeState overlay } := by
  refine kept (fun key _ value hvalue => ?_) sub.reply
  obtain ⟨hget, hsought⟩ := h _ (mem_of_lookup hvalue)
  exact ⟨hget, fun hkey => absurd hkey hsought⟩

/-- A poll that finds nothing changed may as well write. -/
theorem unchanged {overlay : Payload} (h : changes sub.runtimeState overlay = false)
    (reply : String) :
    Mirrors sub { sub with reply := reply, runtimeState := override sub.runtimeState overlay } := by
  refine kept (fun key _ value hvalue => ?_) reply
  have hlookup : sub.runtimeState.lookup key = some value := by
    have hsame := List.any_eq_false.mp h _ (mem_of_lookup hvalue)
    simpa using hsame
  refine ⟨?_, fun _ => hlookup⟩
  rw [Payload.get, hlookup]
  rfl

section Reads

variable (h : Mirrors sub sub')
include h

theorem text (key : String) (hkey : key ≠ "state") (hknown : key ∉ unexportedKeys) :
    host.text sub'.runtimeState key = host.text sub.runtimeState key := by
  rw [Host.text, h.get key hkey hknown, Host.text]

theorem nextSeq : nextSeq sub'.runtimeState = nextSeq sub.runtimeState := by
  rw [Execution.nextSeq, h.lookup _ (by decide), Execution.nextSeq]

theorem buildItem : Active.buildItem sub' = Active.buildItem sub :=
  buildItem_congr h.sourceKind

theorem requestAnchor : Service.requestAnchor host.toLibrary sub' =
    Service.requestAnchor host.toLibrary sub := by
  simp only [Service.requestAnchor, h.get "request_anchor" (by decide) (by decide),
    h.get "req_id" (by decide) (by decide), h.jobId]

theorem failedResult (now : Active.Now) (kind : ItemKind) (reason : String)
    (payload diagnostics : Payload) :
    SameResult (Active.failedResult sub now kind reason payload diagnostics)
      (Active.failedResult sub' now kind reason payload diagnostics) where
  items := by simp only [Active.failedResult, h.buildItem, h.nextSeq]
  decision := by simp only [Active.failedResult, h.buildItem, h.nextSeq]
  submission := by
    simp only [Active.failedResult, Active.passivated, h.nextSeq]
    exact h.written _ _ _

theorem prepared (w : World) :
    Option.Rel SameResult (prepareActivePollWithoutLiveness host sub w)
      (prepareActivePollWithoutLiveness host sub' w) := by
  simp only [prepareActivePollWithoutLiveness, runtimeModeError,
    h.text host "mode" (by decide) (by decide), h.text host "reason" (by decide) (by decide),
    h.text host "error" (by decide) (by decide), h.text host "pane_id" (by decide) (by decide)]
  split_ifs <;> first
    | exact .some (h.failedResult _ _ _ _ _)
    | exact .none

theorem ensuredAlive (w : World) :
    Option.Rel SameResult (ensureActivePaneAlive sub w) (ensureActivePaneAlive sub' w) := by
  simp only [ensureActivePaneAlive]
  split_ifs
  · exact .none
  · exact .some (h.failedResult _ _ _ _ _)

end Reads

end Mirrors

theorem rel_or {α β : Type} {r : α → β → Prop} {a b : Option α} {a' b' : Option β}
    (h : Option.Rel r a a') (h' : Option.Rel r b b') : Option.Rel r (a.or b) (a'.or b') := by
  cases h with
  | some h => exact .some h
  | none => exact h'

/-- What a poll shows: its items, its decision and the prompt that it sends. -/
structure Shown where
  items : List Item
  decision : Option Decision
  prompt : Option String

def shown (polled : Option PollResult × Option String) : Shown :=
  ⟨(polled.1.map PollResult.items).getD [], polled.1.bind PollResult.decision, polled.2⟩

/-- Two polls show the same, and the submissions they leave mirror each other. -/
structure SameEnd (sub : Submission) (result : Option PollResult) (sub' : Submission)
    (result' : Option PollResult) : Prop where
  items : (result'.map PollResult.items).getD [] = (result.map PollResult.items).getD []
  decision : result'.bind PollResult.decision = result.bind PollResult.decision
  submission : Mirrors ((result.map PollResult.submission).getD sub)
    ((result'.map PollResult.submission).getD sub')

namespace SameEnd

variable {sub sub' : Submission} {result result' : Option PollResult}

theorem of_rel (h : Mirrors sub sub') (hrel : Option.Rel SameResult result result') :
    SameEnd sub result sub' result' := by
  cases hrel with
  | none => exact ⟨rfl, rfl, h⟩
  | some hresult => exact ⟨hresult.items, hresult.decision, hresult.submission⟩

theorem or {first first' : Option PollResult} (hfirst : Option.Rel SameResult first first')
    (h : SameEnd sub result sub' result') :
    SameEnd sub (first.or result) sub' (first'.or result') := by
  cases hfirst with
  | none => exact h
  | some hresult => exact ⟨hresult.items, hresult.decision, hresult.submission⟩

theorem shown_eq (h : SameEnd sub result sub' result') (prompt : Option String) :
    shown (result', prompt) = shown (result, prompt) := by
  simp only [shown, h.items, h.decision]

theorem afterPoll {poll poll' : Submission → World → Option PollResult} {w w' : World}
    (h : SameEnd sub (poll sub w) sub' (poll' sub' w')) :
    Mirrors (afterPoll poll sub w) (afterPoll poll' sub' w') := by
  have hmirrors := h.submission
  rw [Providers.afterPoll, Providers.afterPoll]
  cases hpoll : poll sub w <;> cases hpoll' : poll' sub' w' <;>
    simpa [hpoll, hpoll'] using hmirrors

end SameEnd

end CodexBridge.Providers
