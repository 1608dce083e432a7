import Mathlib.Data.List.Induction
import CodexBridge.Completion.Detectors

/-! Whether a detector keeps to a terminal decision. A tick and a timeout leave a
terminal decision alone, an item does not: the decision after an item depends on
the family and the item only. So a run keeps to its terminal decision exactly when
every item that arrives afterwards gives the same outcome again. -/

namespace CodexBridge.Completion

inductive Call where
  | ingest (item : Item)
  | tick (now : String) (cursor : Option Cursor)
  | finalizeTimeout (now : String) (cursor : Option Cursor)

/-- What a decision says of a turn: status, reason and reply. -/
abbrev Outcome := Status × Option String × String

def Decision.outcome (d : Decision) : Outcome := (d.status, d.reason, d.reply)

namespace Detector

def call (lib : Library) (family : Family) (d : Detector) : Call → Detector
  | .ingest item => ingest lib family d item
  | .tick now cursor => tick lib family d now cursor
  | .finalizeTimeout now cursor => finalizeTimeout family d now cursor

/-- The detector after a sequence of calls. -/
def run (lib : Library) (family : Family) (baseline : Cursor) (calls : List Call) : Detector :=
  calls.foldl (call lib family) (bind baseline)

@[simp] theorem run_nil (lib : Library) (family : Family) (baseline : Cursor) :
    run lib family baseline [] = bind baseline := rfl

@[simp] theorem run_concat (lib : Library) (family : Family) (baseline : Cursor)
    (calls : List Call) (c : Call) :
    run lib family baseline (calls ++ [c]) = call lib family (run lib family baseline calls) c := by
  simp [run]

end Detector

/-! ### The verdict of an item -/

namespace Item

/-- The reason an item names, or the usual one. -/
def reason (item : Item) (keys : List String) (usual : String) : Option String :=
  some ((firstNonEmpty item.payload keys).getD usual)

def reply (item : Item) (keys : List String) : String := (firstNonEmpty item.payload keys).getD ""

def done (item : Item) : Bool :=
  (item.payload.get "done_marker").truthy || (item.payload.get "ccb_done").truthy

/-- The outcome a detector of a family ends the turn with at an item, if it does. -/
def verdict (item : Item) : Family → Option Outcome
  | .protocolTurn =>
    match item.kind with
    | .turnBoundary => some (.completed, item.reason ["reason", "completion_reason"]
        "task_complete", item.reply ["last_agent_message", "final_answer", "reply", "text"])
    | .turnAborted => some (Detector.terminalStatusFromAbort item.payload,
        item.reason ["reason"] "turn_aborted", item.reply ["last_agent_message", "reply", "text"])
    | .error => some (.failed, item.reason ["reason", "error"] "transport_error", "")
    | .paneDead => some (.failed, item.reason ["reason"] "pane_dead", "")
    | _ => none
  | .sessionBoundary =>
    match item.kind with
    | .turnBoundary => some (.completed, item.reason ["reason", "completion_reason"]
        "turn_duration", item.reply ["last_agent_message", "reply", "text"])
    | .error => some (.failed, item.reason ["reason", "error"] "api_error", "")
    | .paneDead => some (.failed, item.reason ["reason"] "pane_dead", "")
    | _ => none
  | .structuredResult =>
    match item.kind with
    | .result => some (.completed, item.reason ["reason", "completion_reason"] "stream_result",
        item.reply ["reply", "result_text", "final_answer", "text"])
    | .cancelInfo => some (.cancelled, item.reason ["reason"] "cancel_info", "")
    | .turnAborted => some (Detector.terminalStatusFromAbort item.payload,
        item.reason ["reason"] "turn_aborted", "")
    | .error => some (.failed, item.reason ["reason", "error"] "transport_error", "")
    | .paneDead => some (.failed, item.reason ["reason"] "pane_dead", "")
    | _ => none
  | .terminalTextQuiet =>
    match item.kind with
    | .assistantChunk | .assistantFinal | .result =>
      if item.done then some (.completed, some "terminal_done_marker",
        item.reply ["reply", "result_text", "final_answer", "text"])
      else none
    | .cancelInfo => some (.cancelled, item.reason ["reason"] "cancel_info", "")
    | .error => some (.failed, item.reason ["reason", "error"] "transport_error", "")
    | .paneDead => some (.failed, item.reason ["reason"] "pane_dead", "")
    | _ => none
  | .anchoredSessionStability =>
    match item.kind with
    | .cancelInfo => some (.cancelled, item.reason ["reason"] "cancel_info", "")
    | .error => some (.failed, item.reason ["reason", "error"] "session_corrupt", "")
    | .paneDead => some (.failed, item.reason ["reason"] "pane_dead", "")
    | _ => none

end Item

namespace Detector

/-- After a call: the decision is terminal with the outcome `v` and the state says so, or
the decision is pending and the state is left as it was in this. -/
def Gives (d : Detector) (was : Bool) : Option Outcome → Prop
  | some v => d.decision.terminal = true ∧ d.decision.outcome = v ∧ d.state.terminal = true
  | none => d.decision.terminal = false ∧ d.state.terminal = was

theorem setTerminal_gives (s : State) (status : Status) (reason : String)
    (confidence : Confidence) (finishedAt reply : String) (diagnostics : Payload) (was : Bool) :
    (setTerminal s status reason confidence finishedAt reply diagnostics).Gives was
      (some (status, some reason, reply)) :=
  ⟨rfl, rfl, rfl⟩

theorem setPending_gives {s : State} {was : Bool} (h : s.terminal = was) :
    (setPending s).Gives was none :=
  ⟨rfl, h⟩

@[simp] theorem syncCursor_terminal (s : State) (cursor : Option Cursor) :
    (syncCursor s cursor).terminal = s.terminal := by
  cases cursor <;> rfl

@[simp] theorem consumeKind_terminal (s : State) (kind : ItemKind) :
    (consumeKind s kind).terminal = s.terminal := by
  cases kind <;> rfl

@[simp] theorem consumeCommonItem_terminal (s : State) (item : Item) :
    (consumeCommonItem s item).terminal = s.terminal := by
  simp only [consumeCommonItem]
  split <;> split <;> simp

@[simp] theorem recordReply_terminal (lib : Library) (s : State) (item : Item) (text : String)
    (stable : Bool) (fingerprint : Option String) :
    (recordReply lib s item text stable fingerprint).terminal = s.terminal := by
  simp only [recordReply]
  split <;> rfl

@[simp] theorem noteReply_terminal (lib : Library) (s : State) (item : Item)
    (reply : Option String) (stable : Bool) :
    (noteReply lib s item reply stable).terminal = s.terminal := by
  cases reply <;> simp [noteReply]

@[simp] theorem observeReply_terminal (lib : Library) (s : State) (item : Item)
    (reply : String) : (observeReply lib s item reply).terminal = s.terminal := by
  simp only [observeReply]
  split <;> simp

theorem ite_gives {c : Prop} [Decidable c] {d₁ d₂ : Detector} {was : Bool} {v₁ v₂ : Option Outcome}
    (h₁ : d₁.Gives was v₁) (h₂ : d₂.Gives was v₂) :
    (if c then d₁ else d₂).Gives was (if c then v₁ else v₂) := by
  split
  · exact h₁
  · exact h₂

theorem observed_gives (lib : Library) (item : Item) {s : State} {was : Bool}
    (h : s.terminal = was) :
    (match firstNonEmpty item.payload ["reply", "content", "text"] with
      | some reply => setPending (observeReply lib s item reply)
      | none => setPending s).Gives was none := by
  split
  · exact setPending_gives (by simp [h])
  · exact setPending_gives h

/-- What an item does to the decision does not depend on the decision before it. -/
theorem ingest_gives (lib : Library) (family : Family) (d : Detector) (item : Item) :
    (ingest lib family d item).Gives d.state.terminal (item.verdict family) := by
  cases family with
  | protocolTurn =>
    simp only [ingest, protocolTurnIngest, Item.verdict, failTerminal]
    cases item.kind <;>
      first
      | exact setTerminal_gives ..
      | exact setPending_gives (by simp)
  | sessionBoundary =>
    simp only [ingest, sessionBoundaryIngest, Item.verdict]
    cases item.kind <;>
      first
      | exact setTerminal_gives ..
      | exact setPending_gives (by simp)
  | structuredResult =>
    simp only [ingest, structuredResultIngest, Item.verdict, terminalFromItem]
    cases item.kind <;>
      first
      | exact setTerminal_gives ..
      | exact setPending_gives (by simp)
  | terminalTextQuiet =>
    simp only [ingest, terminalTextQuietIngest, Item.verdict, Item.done]
    cases item.kind <;>
      first
      | exact setTerminal_gives ..
      | exact setPending_gives (by simp)
      | exact ite_gives (setTerminal_gives ..) (setPending_gives (by simp))
  | anchoredSessionStability =>
    simp only [ingest, anchoredSessionStabilityIngest, Item.verdict]
    cases item.kind <;>
      first
      | exact setTerminal_gives ..
      | exact setPending_gives (by simp)
      | exact observed_gives lib item (by split <;> simp)

/-! ### Runs -/

/-- A tick or a timeout leaves a terminal decision as it is. -/
theorem tick_terminal (lib : Library) (family : Family) (d : Detector) (now : String)
    (cursor : Option Cursor) (h : d.decision.terminal = true) :
    (tick lib family d now cursor).decision = d.decision ∧
      (tick lib family d now cursor).state.terminal = d.state.terminal := by
  cases family <;> simp only [tick, settle]
  case anchoredSessionStability => split <;> simp [h]
  all_goals simp

theorem finalizeTimeout_terminal (family : Family) (d : Detector) (now : String)
    (cursor : Option Cursor) (h : d.decision.terminal = true) :
    finalizeTimeout family d now cursor = d := by
  simp [finalizeTimeout, h]

/-- The state and the decision agree on whether the turn is over. -/
def Agrees (d : Detector) : Prop := d.state.terminal = d.decision.terminal

theorem settle_agrees (lib : Library) (d : Detector) (now : String) (h : d.Agrees) :
    (settle lib d now).Agrees := by
  simp only [settle]
  split
  · exact h
  · split_ifs with hopen hactive
    · exact h
    · have : d.decision.terminal = false := by simp_all
      exact Eq.trans h this
    · have hpending : d.decision.terminal = false := by simp_all
      split
      · exact h
      · split_ifs
        · rfl
        · exact Eq.trans h hpending

theorem tick_agrees (lib : Library) (family : Family) (d : Detector) (now : String)
    (cursor : Option Cursor) (h : d.Agrees) : (tick lib family d now cursor).Agrees := by
  have hsync : ({ d with state := syncCursor d.state cursor } : Detector).Agrees := by
    simpa [Agrees] using h
  cases family with
  | anchoredSessionStability => exact settle_agrees lib _ now hsync
  | _ => exact hsync

theorem finalizeTimeout_agrees (family : Family) (d : Detector) (now : String)
    (cursor : Option Cursor) (h : d.Agrees) : (finalizeTimeout family d now cursor).Agrees := by
  simp only [finalizeTimeout]
  split_ifs
  · exact h
  · rfl
  · rfl

theorem ingest_agrees (lib : Library) (family : Family) (d : Detector) (item : Item)
    (h : d.Agrees)
    (hsame : d.decision.terminal = true → item.verdict family = some d.decision.outcome) :
    (ingest lib family d item).Agrees := by
  have hgives := ingest_gives lib family d item
  cases hv : item.verdict family with
  | some v =>
    rw [hv] at hgives
    exact hgives.2.2.trans hgives.1.symm
  | none =>
    rw [hv] at hgives
    have hopen : d.decision.terminal = false := by
      by_contra hterminal
      have := hsame (by simpa using hterminal)
      simp [hv] at this
    calc (ingest lib family d item).state.terminal = d.state.terminal := hgives.2
      _ = d.decision.terminal := h
      _ = (ingest lib family d item).decision.terminal := by rw [hopen, hgives.1]

/-- An item that arrives at a terminal decision gives the same outcome again. -/
def Repeats (family : Family) (d : Detector) : Call → Prop
  | .ingest item => d.decision.terminal = true → item.verdict family = some d.decision.outcome
  | _ => True

/-- The outcome of a terminal decision lives on. -/
def Keeps (d d' : Detector) : Prop :=
  d.decision.terminal = true →
    d'.decision.terminal = true ∧ d'.decision.outcome = d.decision.outcome

theorem Keeps.trans {d₁ d₂ d₃ : Detector} (h₁ : d₁.Keeps d₂) (h₂ : d₂.Keeps d₃) : d₁.Keeps d₃ := by
  intro h
  obtain ⟨hterminal, houtcome⟩ := h₁ h
  obtain ⟨hterminal', houtcome'⟩ := h₂ hterminal
  exact ⟨hterminal', houtcome'.trans houtcome⟩

theorem call_agrees (lib : Library) (family : Family) {d : Detector} {c : Call} (h : d.Agrees)
    (hsame : d.Repeats family c) : (call lib family d c).Agrees := by
  cases c with
  | ingest item => exact ingest_agrees lib family d item h hsame
  | tick now cursor => exact tick_agrees lib family d now cursor h
  | finalizeTimeout now cursor => exact finalizeTimeout_agrees family d now cursor h

theorem call_keeps_iff (lib : Library) (family : Family) (d : Detector) (c : Call) :
    d.Keeps (call lib family d c) ↔ d.Repeats family c := by
  cases c with
  | ingest item =>
    have hgives := ingest_gives lib family d item
    constructor
    · intro hkeeps hterminal
      obtain ⟨hterminal', houtcome⟩ := hkeeps hterminal
      simp only [call] at hterminal' houtcome
      cases hv : item.verdict family with
      | some v =>
        rw [hv] at hgives
        rw [← houtcome, hgives.2.1]
      | none =>
        rw [hv] at hgives
        simp [hgives.1] at hterminal'
    · intro hsame hterminal
      rw [hsame hterminal] at hgives
      exact ⟨hgives.1, hgives.2.1⟩
  | tick now cursor =>
    refine iff_of_true ?_ trivial
    intro hterminal
    have hdecision := (tick_terminal lib family d now cursor hterminal).1
    rw [call, hdecision]
    exact ⟨hterminal, rfl⟩
  | finalizeTimeout now cursor =>
    refine iff_of_true ?_ trivial
    intro hterminal
    rw [call, finalizeTimeout_terminal family d now cursor hterminal]
    exact ⟨hterminal, rfl⟩

/-- Once a decision is terminal every later one is, with the same status, reason and reply,
and the state agrees with the decision all along. -/
structure Stable (lib : Library) (family : Family) (baseline : Cursor) (calls : List Call) :
    Prop where
  keeps : ∀ early later, early ++ later <+: calls →
    (run lib family baseline early).Keeps (run lib family baseline (early ++ later))
  agrees : ∀ early, early <+: calls → (run lib family baseline early).Agrees

section Runs

variable (lib : Library) (family : Family) (baseline : Cursor)

theorem run_agrees {calls : List Call}
    (h : ∀ early c, early ++ [c] <+: calls → (run lib family baseline early).Repeats family c)
    {early : List Call} (hearly : early <+: calls) : (run lib family baseline early).Agrees := by
  induction early using List.reverseRec with
  | nil => rfl
  | append_singleton early c ih =>
    rw [run_concat]
    exact call_agrees lib family (ih ((List.prefix_append early [c]).trans hearly))
      (h early c hearly)

theorem run_keeps {calls : List Call}
    (h : ∀ early c, early ++ [c] <+: calls → (run lib family baseline early).Repeats family c)
    (early : List Call) {later : List Call} (hlater : early ++ later <+: calls) :
    (run lib family baseline early).Keeps (run lib family baseline (early ++ later)) := by
  induction later using List.reverseRec with
  | nil =>
    rw [List.append_nil]
    exact fun hterminal => ⟨hterminal, rfl⟩
  | append_singleton later c ih =>
    rw [← List.append_assoc] at hlater ⊢
    rw [run_concat]
    have hbefore := ih ((List.prefix_append (early ++ later) [c]).trans hlater)
    exact hbefore.trans ((call_keeps_iff lib family _ c).mpr (h (early ++ later) c hlater))

/-- Terminal decisions are stable in exactly those runs in which an item that arrives at a
terminal decision brings the same status, reason and reply. -/
theorem stable_iff_repeats (calls : List Call) :
    Stable lib family baseline calls ↔
      ∀ early item, early ++ [.ingest item] <+: calls →
        (run lib family baseline early).decision.terminal = true →
          item.verdict family = some (run lib family baseline early).decision.outcome := by
  constructor
  · intro hstable early item hearly
    have hkeeps := hstable.keeps early [.ingest item] hearly
    rw [run_concat] at hkeeps
    exact (call_keeps_iff lib family _ (.ingest item)).mp hkeeps
  · intro h
    have hrepeats : ∀ early c, early ++ [c] <+: calls →
        (run lib family baseline early).Repeats family c := by
      intro early c hearly
      cases c with
      | ingest item => exact h early item hearly
      | tick now cursor => trivial
      | finalizeTimeout now cursor => trivial
    exact
      { keeps := fun early later hlater => run_keeps lib family baseline hrepeats early hlater
        agrees := fun early hearly => run_agrees lib family baseline hrepeats hearly }

end Runs

/-! ### A reopened turn -/

namespace Sample

def lib : Library :=
  { fingerprintText := fun _ => "digest"
    intOfText := fun _ => none
    fromisoformat := fun _ => none
    settleWindow := 2000000 }

def cursor (eventSeq : ℕ) : Cursor :=
  { sourceKind := .protocolEventStream
    opaqueCursor := none
    sessionPath := none
    offset := none
    lineNo := none
    eventSeq := some eventSeq
    updatedAt := none }

def boundary : Item :=
  { kind := .turnBoundary
    timestamp := "2026-03-18T00:00:01Z"
    cursor := cursor 1
    payload := [("last_agent_message", .str "done")]
    nonempty := by decide }

def chunk : Item :=
  { kind := .assistantChunk
    timestamp := "2026-03-18T00:00:02Z"
    cursor := cursor 2
    payload := [("text", .str "more")]
    nonempty := by decide }

end Sample

/-- A text after the boundary takes the decision back, and the state still calls the turn
over. -/
theorem turn_reopened_by_chunk :
    ¬ ∀ lib family baseline calls, Stable lib family baseline calls := by
  intro h
  have hstable := h Sample.lib .protocolTurn (Sample.cursor 0)
    [.ingest Sample.boundary, .ingest Sample.chunk]
  have hagrees := hstable.agrees _ (List.prefix_refl _)
  have hreopened : ¬ (run Sample.lib .protocolTurn (Sample.cursor 0)
      [.ingest Sample.boundary, .ingest Sample.chunk]).Agrees := by
    unfold Agrees
    decide +kernel
  exact hreopened hagrees

end Detector

end CodexBridge.Completion
