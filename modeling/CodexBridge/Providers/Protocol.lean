import CodexBridge.Completion.Records
import CodexBridge.Storage.TextArtifacts

/-! The text protocol between the bridge and an agent: the anchor line of a prompt, the done line
that ends a reply, and how a reply is cut out of a text. A reply ends with a line of its own that
names the request it is for. -/

namespace CodexBridge.Protocol

open Storage (rstripped joinLines)

def reqIdPrefix : String := "CCB_REQ_ID:"
def beginPrefix : String := "CCB_BEGIN:"
def donePrefix : String := "CCB_DONE:"

/-- The text carries the anchor of a prompt. -/
def carriesAnchor (anchor text : String) : Bool :=
  anchor ≠ "" && hasPart (reqIdPrefix ++ " " ++ anchor) text

abbrev Line := List Char

/-! ### Lines -/

/-- The characters that end a line for `str.splitlines`. -/
def isLineBreak (c : Char) : Bool :=
  let n := c.toNat
  (10 ≤ n && n ≤ 13) || (28 ≤ n && n ≤ 30) || n == 0x85 || n == 0x2028 || n == 0x2029

def extendLine (c : Char) : List Line → List Line
  | [] => [[c]]
  | line :: lines => (c :: line) :: lines

/-- `str.splitlines`. A carriage return that a line feed follows ends its line together with it,
and a line break at the end starts no further line. -/
def splitlines : List Char → List Line
  | [] => []
  | c :: cs =>
    if c = '\r' ∧ cs.head? = some '\n' then splitlines cs
    else if isLineBreak c then [] :: splitlines cs
    else extendLine c (splitlines cs)

def splitLines (text : String) : List Line :=
  (splitlines text.toList).map fun line => line.rdropWhile (· = '\n')

def lstrip (line : Line) : Line := line.dropWhile isSpace

def isBlank (line : Line) : Bool := (stripped line).isEmpty

def trimBlankEdges (lines : List Line) : List Line :=
  (lines.dropWhile isBlank).rdropWhile isBlank

/-! ### Regular expressions -/

/-- What a text goes on with after a literal. -/
def dropLiteral (same : Char → Char → Bool) : List Char → List Char → Option (List Char)
  | [], text => some text
  | _ :: _, [] => none
  | p :: ps, c :: cs => if same c p then dropLiteral same ps cs else none

def exactly (c p : Char) : Bool := c = p

/-- `re.IGNORECASE`, for the characters of ASCII in a pattern: four letters outside of it are
taken for some of them. -/
def ignoreCase (c p : Char) : Bool :=
  c.toLower = p.toLower ||
    (p.toLower = 'i' && (c.toNat = 0x130 || c.toNat = 0x131)) ||
    (p.toLower = 'k' && c.toNat = 0x212a) || (p.toLower = 's' && c.toNat = 0x17f)

def jobChars : List Char := "abcdefghijklmnopqrstuvwxyz0123456789".toList

def hexChars : List Char := "0123456789abcdefABCDEF".toList

/-- The zeros of the decimal digits of Unicode. -/
def decimalZeros : List ℕ :=
  [0x30, 0x660, 0x6f0, 0x7c0, 0x966, 0x9e6, 0xa66, 0xae6, 0xb66, 0xbe6, 0xc66, 0xce6, 0xd66, 0xde6,
    0xe50, 0xed0, 0xf20, 0x1040, 0x1090, 0x17e0, 0x1810, 0x1946, 0x19d0, 0x1a80, 0x1a90, 0x1b50,
    0x1bb0, 0x1c40, 0x1c50, 0xa620, 0xa8d0, 0xa900, 0xa9d0, 0xa9f0, 0xaa50, 0xabf0, 0xff10, 0x104a0,
    0x10d30, 0x11066, 0x110f0, 0x11136, 0x111d0, 0x112f0, 0x11450, 0x114d0, 0x11650, 0x116c0,
    0x11730, 0x118e0, 0x11950, 0x11c50, 0x11d50, 0x11da0, 0x16a60, 0x16ac0, 0x16b50, 0x1d7ce,
    0x1d7d8, 0x1d7e2, 0x1d7ec, 0x1d7f6, 0x1e140, 0x1e2f0, 0x1e950, 0x1fbf0]

/-- `\d` -/
def isDecimal (c : Char) : Bool := decimalZeros.any fun z => z ≤ c.toNat && c.toNat ≤ z + 9

/-- `JOB_REQ_ID_PATTERN` -/
def jobReqId (same : Char → Char → Bool) (text : List Char) : Bool :=
  match dropLiteral same "job_".toList text with
  | none => false
  | some rest => !rest.isEmpty && rest.all fun c => jobChars.any (same c)

/-- `LEGACY_HEX_REQ_ID_PATTERN` -/
def legacyHexReqId (same : Char → Char → Bool) (text : List Char) : Bool :=
  text.length = 32 && text.all fun c => hexChars.any (same c)

/-- `LEGACY_TIMESTAMP_REQ_ID_PATTERN` -/
def legacyTimestampReqId (text : List Char) : Bool :=
  match text.splitOn '-' with
  | [date, time, millis, pid, counter] =>
    [date, time, millis, pid, counter].all (fun part => part.all isDecimal) &&
      date.length = 8 && time.length = 6 && millis.length = 3 && !pid.isEmpty && !counter.isEmpty
  | _ => false

/-- `ANY_REQ_ID_PATTERN`, over the whole text. -/
def anyReqId (same : Char → Char → Bool) (text : List Char) : Bool :=
  jobReqId same text || legacyHexReqId same text || legacyTimestampReqId text

/-! ### Marker lines -/

/-- `ANY_DONE_LINE_RE`. What the pattern asks for between its spaces begins and ends with
none. -/
def anyDoneLine (line : Line) : Bool :=
  match dropLiteral ignoreCase donePrefix.toList (stripped line) with
  | none => false
  | some rest => anyReqId ignoreCase (lstrip rest)

/-- A marker and an id on a line of their own, for any id: the spaces before it may be some of
its own. -/
def markedLine (same : Char → Char → Bool) (marker reqId : List Char) (line : Line) : Bool :=
  match dropLiteral same marker (lstrip line) with
  | none => false
  | some rest =>
    (List.range ((rest.takeWhile isSpace).length + 1)).any fun n =>
      match dropLiteral same reqId (rest.drop n) with
      | none => false
      | some after => after.all isSpace

/-- `DONE_LINE_RE_TEMPLATE` -/
def doneLine (same : Char → Char → Bool) (reqId : List Char) (line : Line) : Bool :=
  markedLine same donePrefix.toList reqId line

def beginLine (reqId : List Char) (line : Line) : Bool :=
  markedLine ignoreCase beginPrefix.toList reqId line

def isTagChar (c : Char) : Bool :=
  (65 ≤ c.toNat && c.toNat ≤ 90) || (48 ≤ c.toNat && c.toNat ≤ 57) || c = '_'

/-- The part of `_TRAILING_DONE_TAG_RE` between its spaces. -/
def doneTag (text : List Char) : Bool :=
  let ccbDone :=
    match dropLiteral exactly "CCB_DONE".toList text with
    | none => false
    | some rest => (lstrip rest).head? = some ':'
  let tag := text.takeWhile isTagChar
  let reqId :=
    match lstrip (text.dropWhile isTagChar) with
    | [] => true
    | c :: rest => c = ':' && anyReqId exactly (lstrip rest)
  !ccbDone && (tag.head?.any fun c => 65 ≤ c.toNat && c.toNat ≤ 90) &&
    "_DONE".toList.isSuffixOf tag.tail && reqId

def isTrailingNoiseLine (line : Line) : Bool := isBlank line || doneTag (stripped line)

/-! ### Replies -/

def doneLineIndexes (lines : List Line) : List ℕ :=
  (lines.zipIdx.filter fun p => anyDoneLine p.1).map Prod.snd

def targetDoneIndexes (lines : List Line) (reqId : List Char) (doneIndexes : List ℕ) : List ℕ :=
  doneIndexes.filter fun index => doneLine ignoreCase reqId (lines.getD index [])

def previousDoneIndex (doneIndexes : List ℕ) (targetIndex : ℕ) : ℤ :=
  match doneIndexes.reverse.find? (· < targetIndex) with
  | some index => index
  | none => -1

def extractReplyWindow (lines : List Line) (doneIndexes : List ℕ) (targetIndex : ℕ)
    (startIndex : Option ℕ) : List Char :=
  let start :=
    match startIndex with
    | none => (previousDoneIndex doneIndexes targetIndex + 1).toNat
    | some start => start
  rstripped (joinLines (trimBlankEdges ((lines.take targetIndex).drop start)))

def stripDoneText (text reqId : String) : String :=
  let lines := (splitLines text).rdropWhile isTrailingNoiseLine
  let lines :=
    match lines.getLast? with
    | some last => if doneLine exactly reqId.toList last then lines.dropLast else lines
    | none => lines
  String.ofList (rstripped (joinLines (lines.rdropWhile isTrailingNoiseLine)))

def extractReplyForReq (text reqId : String) : String :=
  let lines := splitLines text
  let doneIndexes := doneLineIndexes lines
  match (targetDoneIndexes lines reqId.toList doneIndexes).getLast? with
  | none => if doneIndexes.isEmpty then stripDoneText text reqId else ""
  | some targetIndex => String.ofList (extractReplyWindow lines doneIndexes targetIndex none)

/-- The last line that is no noise is the done line of the request. -/
def isDoneText (text reqId : String) : Bool :=
  let lines := (splitlines text.toList).map rstripped
  match (lines.reverse.dropWhile isTrailingNoiseLine).head? with
  | none => false
  | some line => doneLine exactly reqId.toList line

def lastBeginIndex (lines : List Line) (reqId : List Char) (targetIndex : ℕ) : Option ℕ :=
  (List.range targetIndex).reverse.find? fun index => beginLine reqId (lines.getD index [])

/-- What Claude is asked for: a reply that starts after the begin line, when there is one. -/
def extractBegunReply (text reqId : String) : String :=
  let lines := splitLines text
  let doneIndexes := doneLineIndexes lines
  match (targetDoneIndexes lines reqId.toList doneIndexes).getLast? with
  | none => stripDoneText text reqId
  | some targetIndex =>
    let startIndex := (lastBeginIndex lines reqId.toList targetIndex).map (· + 1)
    String.ofList (extractReplyWindow lines doneIndexes targetIndex startIndex)

example : stripDoneText "hello\n\nCCB_DONE: job_1a\n" "job_1a" = "hello" := by decide +kernel

example : isDoneText "hello\nCCB_DONE: job_1a\nOTHER_DONE: job_2\n\n" "job_1a" = true := by
  decide +kernel

end CodexBridge.Protocol
