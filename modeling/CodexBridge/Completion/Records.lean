import CodexBridge.Basic
import Mathlib.Data.List.Infix

/-! Completion items and decisions. A provider reports what it sees of a turn as
items; a detector turns items into a decision. Item payloads are dictionaries of
which only texts, numbers and truth values are ever read. -/

namespace CodexBridge

/-- `str.strip` -/
def strip (s : String) : String :=
  String.ofList ((s.toList.dropWhile isSpace).reverse.dropWhile isSpace).reverse

/-- `str.lower`, on the letters the program compares with. -/
def lower (s : String) : String := s.map Char.toLower

/-- `part in text` -/
def hasPart (part text : String) : Bool := decide (part.toList <:+: text.toList)

namespace Completion

/-! ### Payloads -/

/-- A payload value; a float is known by its integer part and its truth value, a list or a
dictionary by its truth value and by how it is printed. -/
inductive Value where
  | null
  | bool (b : Bool)
  | int (n : ℤ)
  | float (integer : Option ℤ) (nonzero : Bool)
  | str (s : String)
  | container (nonempty : Bool) (printed : String)
  deriving DecidableEq

/-- `bool(value)` -/
def Value.truthy : Value → Bool
  | .null => false
  | .bool b => b
  | .int n => n ≠ 0
  | .float _ nonzero => nonzero
  | .str s => s ≠ ""
  | .container nonempty _ => nonempty

/-- The words in `str(value or '')`: a number or a truth value is printed without any that
the program looks for. -/
def Value.words : Value → String
  | .str s => s
  | .container true printed => printed
  | _ => ""

abbrev Payload := List (String × Value)

/-- `payload.get(key)` -/
def Payload.get (payload : Payload) (key : String) : Value := (payload.lookup key).getD .null

/-- The text under a key, stripped, unless it is blank or no text at all. -/
def Value.text : Value → Option String
  | .str s => if strip s = "" then none else some (strip s)
  | _ => none

def firstNonEmpty (payload : Payload) (keys : List String) : Option String :=
  keys.findSome? fun key => (payload.get key).text

/-! ### Items -/

inductive ItemKind where
  | anchorSeen | assistantChunk | assistantFinal | toolCall | toolResult | result | turnBoundary
  | turnAborted | cancelInfo | error | paneDead | sessionSnapshot | sessionMutation | sessionRotate
  deriving DecidableEq

inductive SourceKind where
  | protocolEventStream | structuredResultStream | sessionEventLog | sessionSnapshot | terminalText
  deriving DecidableEq

structure Cursor where
  sourceKind : SourceKind
  opaqueCursor : Option String
  sessionPath : Option String
  offset : Option ℕ
  lineNo : Option ℕ
  eventSeq : Option ℕ
  updatedAt : Option String
  deriving DecidableEq

structure Item where
  kind : ItemKind
  timestamp : String
  cursor : Cursor
  payload : Payload
  nonempty : timestamp ≠ ""

/-! ### Decisions -/

inductive Status where
  | completed | cancelled | failed | incomplete
  deriving DecidableEq

inductive Confidence where
  | exact | observed | degraded
  deriving DecidableEq

/-- A terminal decision has a reason, a confidence and an end; any other one has none of
them and the status `incomplete`. -/
structure Decision where
  terminal : Bool
  status : Status
  reason : Option String
  confidence : Option Confidence
  reply : String
  anchorSeen : Bool
  replyStarted : Bool
  replyStable : Bool
  providerTurnRef : Option String
  sourceCursor : Option Cursor
  finishedAt : Option String
  diagnostics : Payload
  wellFormed : if terminal then reason.isSome ∧ confidence.isSome ∧ finishedAt.isSome
    else status = .incomplete ∧ reason = none ∧ confidence = none ∧ finishedAt = none

def Decision.pending (cursor : Option Cursor) : Decision :=
  { terminal := false
    status := .incomplete
    reason := none
    confidence := none
    reply := ""
    anchorSeen := false
    replyStarted := false
    replyStable := false
    providerTurnRef := none
    sourceCursor := cursor
    finishedAt := none
    diagnostics := []
    wellFormed := ⟨rfl, rfl, rfl, rfl⟩ }

end Completion

end CodexBridge
