import CodexBridge.Completion.Detectors
import CodexBridge.Names
import Mathlib.Data.List.MinMax

/-! The reply of a turn. An item brings candidates for it, each with the priority of its kind;
a selector keeps them and picks, among those of the best priority, the last one. The tracker
and the orchestrator each drive a detector and a selector through the items of a turn. -/

namespace CodexBridge.Completion

theorem firstNonEmpty_strip {payload : Payload} {keys : List String} {text : String}
    (h : firstNonEmpty payload keys = some text) : strip text = text ∧ text ≠ "" := by
  obtain ⟨key, -, hkey⟩ := List.exists_of_findSome?_eq_some h
  cases hvalue : payload.get key with
  | str s =>
    rw [hvalue, Value.text] at hkey
    split at hkey
    · cases hkey
    · rename_i hne
      obtain rfl := Option.some.inj hkey
      exact ⟨strip_strip s, hne⟩
  | _ => simp [hvalue, Value.text] at hkey

/-! ### Candidates -/

inductive ReplyCandidateKind where
  | lastAgentMessage | finalAnswer | assistantFinal | assistantChunkMerged | sessionReply
  | fallbackText
  deriving DecidableEq

/-- `REPLY_PRIORITY` -/
def ReplyCandidateKind.priority : ReplyCandidateKind → ℕ
  | .lastAgentMessage => 2
  | .finalAnswer => 3
  | .assistantFinal => 4
  | .assistantChunkMerged => 5
  | .sessionReply => 6
  | .fallbackText => 7

structure ReplyCandidate where
  kind : ReplyCandidateKind
  text : String
  timestamp : String
  providerTurnRef : Option String
  priority : ℕ
  cursor : Option Cursor
  text_ne_empty : text ≠ ""

/-- The candidate of a kind, if the item has a text for it. -/
def Item.candidate (item : Item) (kind : ReplyCandidateKind) (keys : List String) :
    List ReplyCandidate :=
  match h : firstNonEmpty item.payload keys with
  | none => []
  | some text =>
    [{ kind := kind
       text := text
       timestamp := item.timestamp
       providerTurnRef := firstNonEmpty item.payload
         ["turn_id", "provider_turn_ref", "message_id", "session_id"]
       priority := kind.priority
       cursor := some item.cursor
       text_ne_empty := (firstNonEmpty_strip h).2 }]

def replyCandidatesFromItem (item : Item) : List ReplyCandidate :=
  item.candidate .lastAgentMessage ["last_agent_message"] ++
    (match item.kind with
    | .result =>
      item.candidate .finalAnswer ["reply", "result_text", "final_answer", "text"]
    | .assistantFinal => item.candidate .assistantFinal ["text", "reply"]
    | .assistantChunk => item.candidate .assistantChunkMerged ["merged_text", "text", "reply"]
    | .sessionSnapshot | .sessionMutation =>
      item.candidate .sessionReply ["reply", "content", "text"]
    | _ => []) ++
    item.candidate .fallbackText ["fallback_text"]

/-! ### Selectors -/

/-- The candidates so far, each with its number. -/
structure Selector where
  candidates : List (ℕ × ReplyCandidate)
  sequence : ℕ

/-- `priority or 999` -/
def ReplyCandidate.rank (c : ReplyCandidate) : ℕ := if c.priority = 0 then 999 else c.priority

namespace Selector

def empty : Selector := ⟨[], 0⟩

def ingestCandidate (s : Selector) (c : ReplyCandidate) : Selector :=
  ⟨s.candidates ++ [(s.sequence, c)], s.sequence + 1⟩

def reset (s : Selector) : Selector := { s with candidates := [] }

/-- The order of the keys `(priority, -number)`. -/
def precedes (a b : ℕ × ReplyCandidate) : Bool :=
  a.2.rank < b.2.rank || (a.2.rank = b.2.rank && b.1 ≤ a.1)

def bestCandidate (s : Selector) : Option ReplyCandidate :=
  (s.candidates.mergeSort precedes).head?.map Prod.snd

def preview (s : Selector) : String := (s.bestCandidate.map ReplyCandidate.text).getD ""

/-- Its callers select for terminal decisions only. -/
def select (s : Selector) (decision : Decision) : String :=
  if decision.reply ≠ "" then decision.reply else s.preview

end Selector

def Decision.withReply (decision : Decision) (reply : String) : Decision :=
  { decision with reply := if reply ≠ "" then reply else decision.reply }

/-! ### The tracker -/

/-- `_ActiveTracker` -/
structure Tracker where
  detector : Detector
  selector : Selector

namespace Tracker

def start (baseline : Cursor) : Tracker := ⟨Detector.bind baseline, .empty⟩

/-- The decision that is reported. -/
def current (t : Tracker) : Decision :=
  let decision := t.detector.decision
  let reply := if decision.terminal then t.selector.select decision else t.selector.preview
  if reply ≠ "" ∧ decision.reply = "" then decision.withReply reply else decision

def ingest (lib : Library) (family : Family) (t : Tracker) (item : Item) : Tracker :=
  let selector := if item.kind = .sessionRotate then t.selector.reset else t.selector
  { detector := Detector.ingest lib family t.detector item
    selector := (replyCandidatesFromItem item).foldl Selector.ingestCandidate selector }

/-- `timedOut` tells whether the request timeout has passed at a time. -/
def tick (lib : Library) (family : Family) (timedOut : String → Bool) (t : Tracker)
    (now : String) : Tracker :=
  let detector := Detector.tick lib family t.detector now t.detector.state.latestCursor
  { t with
    detector := if detector.decision.terminal = false ∧ timedOut now = true then
        Detector.finalizeTimeout family detector now detector.state.latestCursor
      else detector }

end Tracker

/-! ### The orchestrator -/

/-- What a source answers to a poll: an item, or nothing until the time given. -/
inductive SourcePoll where
  | item (item : Item)
  | nothing (now : String)

namespace Orchestrator

def finalize (selector : Selector) (decision : Decision) : Decision :=
  if decision.terminal = false then decision
  else
    let reply := selector.select decision
    if reply ≠ "" ∧ decision.reply = "" then decision.withReply reply else decision

/-- The loop: it ends with the turn, or when the deadline comes after the polls given. -/
def loop (lib : Library) (family : Family) (deadline : String) (detector : Detector)
    (selector : Selector) (cursor : Cursor) : List SourcePoll → Decision
  | [] =>
    finalize selector (Detector.finalizeTimeout family detector deadline (some cursor)).decision
  | .nothing now :: rest =>
    let detector := Detector.tick lib family detector now (some cursor)
    if detector.decision.terminal then finalize selector detector.decision
    else loop lib family deadline detector selector cursor rest
  | .item item :: rest =>
    let selector := (replyCandidatesFromItem item).foldl Selector.ingestCandidate selector
    let detector := Detector.ingest lib family detector item
    if detector.decision.terminal then finalize selector detector.decision
    else loop lib family deadline detector selector item.cursor rest

def run (lib : Library) (family : Family) (baseline : Cursor) (polls : List SourcePoll)
    (deadline : String) : Decision :=
  loop lib family deadline (Detector.bind baseline) .empty baseline polls

end Orchestrator

end CodexBridge.Completion
