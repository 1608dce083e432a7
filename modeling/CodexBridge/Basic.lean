import Mathlib.Data.String.Basic
import Mathlib.Order.Lattice

/-! Identifiers, timestamps and payload references. Every identifier the program
issues is a prefix followed by a fresh `uuid4`; here each is a number drawn from
one counter. Records refuse empty identifiers and blank timestamps, so neither
exists as a value. -/

namespace CodexBridge

abbrev AgentName := String
abbrev JobId := ℕ
abbrev MessageId := ℕ
abbrev AttemptId := ℕ
abbrev ReplyId := ℕ
abbrev EdgeId := ℕ
abbrev InboundEventId := ℕ

/-- The characters `str.strip` removes. -/
def isSpace (c : Char) : Bool :=
  let n := c.toNat
  (9 ≤ n && n ≤ 13) || (28 ≤ n && n ≤ 32) || n == 0x85 || n == 0xa0 || n == 0x1680 ||
    (0x2000 ≤ n && n ≤ 0x200a) || n == 0x2028 || n == 0x2029 || n == 0x202f || n == 0x205f ||
    n == 0x3000

/-- A non-blank text, compared as text. -/
structure Timestamp where
  text : String
  nonblank : text.toList.all isSpace = false
  deriving DecidableEq

namespace Timestamp

theorem text_injective : Function.Injective text := by
  rintro ⟨s, _⟩ ⟨t, _⟩ h
  simpa using h

instance : LinearOrder Timestamp := LinearOrder.lift' text text_injective

end Timestamp

/-- What an inbound event refers to: `job:<id>`, or `reply:<id>` with an optional
` delivery:<job id>` once a delivery job has been scheduled for the reply. -/
inductive PayloadRef where
  | job (jobId : JobId)
  | reply (replyId : ReplyId) (deliveryJobId : Option JobId)
  deriving DecidableEq, Repr

def jobIdFromPayloadRef : Option PayloadRef → Option JobId
  | some (.job j) => some j
  | _ => none

def replyIdFromPayload : Option PayloadRef → Option ReplyId
  | some (.reply r _) => some r
  | _ => none

def deliveryJobIdFromPayload : Option PayloadRef → Option JobId
  | some (.reply _ d) => d
  | _ => none

def composeReplyPayload (replyId : ReplyId) (deliveryJobId : Option JobId) : Option PayloadRef :=
  some (.reply replyId deliveryJobId)

@[simp] theorem jobIdFromPayloadRef_job (j : JobId) :
    jobIdFromPayloadRef (some (.job j)) = some j := rfl

@[simp] theorem replyIdFromPayload_compose (r : ReplyId) (d : Option JobId) :
    replyIdFromPayload (composeReplyPayload r d) = some r := rfl

@[simp] theorem deliveryJobIdFromPayload_compose (r : ReplyId) (d : Option JobId) :
    deliveryJobIdFromPayload (composeReplyPayload r d) = d := rfl

end CodexBridge
