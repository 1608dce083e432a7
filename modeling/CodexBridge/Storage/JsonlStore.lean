import CodexBridge.Names
import CodexBridge.Json
import CodexBridge.Lines
import Mathlib.Data.PNat.Basic

/-! The log store: a file of JSON objects, one on a line. Rows are appended at its end; it is
read forwards as text, and backwards in chunks of bytes. -/

namespace CodexBridge.Storage

abbrev Payload := List (String × Json.Value)

/-- What can be appended. -/
structure Row where
  payload : Payload
  valid : (Json.Value.obj payload).Valid

/-- A file of a log, whether it exists or not. -/
structure File where
  path : String
  bytes : Option (List UInt8)

def encode (cs : List Char) : List UInt8 := cs.flatMap String.utf8EncodeChar

def decode (bytes : List UInt8) : Except Raised (List Char) :=
  match bytes.toByteArray.utf8Decode? with
  | none => throw .unicodeDecode
  | some cs => pure cs.toList

def textBreaks : Breaks Char := ⟨'\n', '\r'⟩

def byteBreaks : Breaks UInt8 := ⟨10, 13⟩

namespace JsonlStore

variable {T : Type}

def append (row : T) (serializer : T → Row) (file : File) : File :=
  let line := encode ((Json.Value.obj (serializer row).payload).dumps ++ ['\n'])
  { file with bytes := some (file.bytes.getD [] ++ line) }

/-- The object that a line of a file holds. -/
def object (path : String) (text : List Char) : Except Raised Payload :=
  match Json.loads text with
  | none => throw .jsonDecode
  | some (.obj payload) => pure payload
  | some _ => throw (.value (path ++ ": expected JSON object rows"))

/-! ### Forwards -/

section Forwards

variable (path : String) (loader : Payload → Except Raised T)

def loadRows : List (List Char) → Except Raised (List T)
  | [] => pure []
  | line :: lines =>
    let text := stripped line
    if text.isEmpty then loadRows lines
    else do
      let payload ← object path text
      let row ← loader payload
      let rows ← loadRows lines
      pure (row :: rows)

/-- The rows behind the first `start` lines. Lines without a row do not count. -/
def loadSince (start : ℕ) : ℕ → List (List Char) → Except Raised (ℕ × List T)
  | current, [] => pure (current, [])
  | current, line :: lines =>
    let text := stripped line
    if text.isEmpty then loadSince start current lines
    else if current + 1 ≤ start then loadSince start (current + 1) lines
    else do
      let payload ← object path text
      let row ← loader payload
      let (last, rows) ← loadSince start (current + 1) lines
      pure (last, row :: rows)

end Forwards

def readAll (loader : Payload → Except Raised T) (file : File) : Except Raised (List T) :=
  match file.bytes with
  | none => pure []
  | some bytes => do loadRows file.path loader (textBreaks.lines (← decode bytes))

def readSince (loader : Payload → Except Raised T) (startLine : ℤ) (file : File) :
    Except Raised (ℤ × List T) :=
  if startLine < 0 then throw (.value "start_line cannot be negative")
  else match file.bytes with
    | none => pure (startLine, [])
    | some bytes => do
      let (current, rows) ←
        loadSince file.path loader startLine.toNat 0 (textBreaks.lines (← decode bytes))
      pure (current, rows)

/-! ### Backwards -/

section Backwards

variable (path : String) (loader : Payload → Except Raised T)

/-- The lines of a chunk, the last one first, for as long as rows are missing. -/
def tailRows (limit : ℕ) : List (List UInt8) → List T → Except Raised (List T)
  | [], rows => pure rows
  | raw :: raws, rows =>
    if limit ≤ rows.length then pure rows
    else do
      let text := stripped (← decode raw)
      if text.isEmpty then tailRows limit raws rows
      else
        let payload ← object path text
        let row ← loader payload
        tailRows limit raws (rows ++ [row])

def tailFrom (chunkSize : ℕ+) (limit : ℕ) (bytes : List UInt8) (r : Breaks.Reader UInt8)
    (rows : List T) : Except Raised (List T) :=
  if _ : 0 < r.position ∧ rows.length < limit then do
    let step := byteBreaks.retreat chunkSize bytes r
    let rows ← tailRows path loader limit step.2.reverse rows
    tailFrom chunkSize limit bytes step.1 rows
  else pure rows
termination_by r.position
decreasing_by
  rename_i h
  exact byteBreaks.retreat_lt chunkSize.pos h.1

/-- The first row of a chunk that satisfies a predicate, from its last line on. -/
def lastRow (predicate : Payload → Bool) : List (List UInt8) → Except Raised (Option T)
  | [] => pure none
  | raw :: raws => do
    let text := stripped (← decode raw)
    if text.isEmpty then lastRow predicate raws
    else
      let payload ← object path text
      if predicate payload then some <$> loader payload else lastRow predicate raws

def lastFrom (chunkSize : ℕ+) (predicate : Payload → Bool) (bytes : List UInt8)
    (r : Breaks.Reader UInt8) : Except Raised (Option T) :=
  if _ : 0 < r.position then do
    let step := byteBreaks.retreat chunkSize bytes r
    match ← lastRow path loader predicate step.2.reverse with
    | some row => pure (some row)
    | none => lastFrom chunkSize predicate bytes step.1
  else if r.buffer.isEmpty then pure none
  else lastRow path loader predicate [r.buffer]
termination_by r.position
decreasing_by
  rename_i h
  exact byteBreaks.retreat_lt chunkSize.pos h

end Backwards

/-- The source reads chunks of 8192 bytes. -/
def readTail (chunkSize : ℕ+) (limit : ℤ) (loader : Payload → Except Raised T) (file : File) :
    Except Raised (List T) :=
  if limit < 0 then throw (.value "limit cannot be negative")
  else if limit = 0 then pure []
  else match file.bytes with
    | none => pure []
    | some bytes =>
      List.reverse <$> tailFrom file.path loader chunkSize limit.toNat bytes ⟨bytes.length, []⟩ []

/-- The source reads chunks of 4096 bytes. -/
def findLast (chunkSize : ℕ+) (predicate : Payload → Bool)
    (loader : Payload → Except Raised T) (file : File) : Except Raised (Option T) :=
  match file.bytes with
  | none => pure none
  | some bytes => lastFrom file.path loader chunkSize predicate bytes ⟨bytes.length, []⟩

end JsonlStore

/-! ### The bytes of a text -/

@[simp] theorem encode_nil : encode [] = [] := rfl

@[simp] theorem encode_cons (c : Char) (cs : List Char) :
    encode (c :: cs) = String.utf8EncodeChar c ++ encode cs := rfl

theorem encode_append (cs cs' : List Char) : encode (cs ++ cs') = encode cs ++ encode cs' :=
  List.flatMap_append

/-- Only the characters of ASCII have small bytes. -/
theorem ascii_of_mem_utf8EncodeChar {c : Char} {b : UInt8} (hb : b ∈ String.utf8EncodeChar c)
    (hsmall : b.toNat < 128) : c.toNat = b.toNat := by
  have hmod (n : ℕ) : (UInt8.ofNat n).toNat = n % 256 := by simp
  have hc : c.val.toNat = c.toNat := rfl
  unfold String.utf8EncodeChar at hb
  simp only at hb
  split_ifs at hb <;>
    simp only [List.mem_cons, List.not_mem_nil, or_false] at hb
  · subst hb
    rw [hmod]
    omega
  · rcases hb with rfl | rfl <;> rw [hmod] at hsmall <;> omega
  · rcases hb with rfl | rfl | rfl <;> rw [hmod] at hsmall <;> omega
  · rcases hb with rfl | rfl | rfl | rfl <;> rw [hmod] at hsmall <;> omega

theorem decode_encode (cs : List Char) : decode (encode cs) = .ok cs := by
  have h : (encode cs).toByteArray.utf8Decode? = some cs.toArray := List.utf8Decode?_utf8Encode
  rw [decode, h]
  rfl

/-- A text without control characters has no end of line among its bytes. -/
theorem ends_encode {cs : List Char} (h : Json.OneLine cs) :
    ∀ b ∈ encode cs, byteBreaks.ends b = false := by
  intro b hb
  obtain ⟨c, hc, hbc⟩ := List.mem_flatMap.mp hb
  have hctrl := h c hc
  have hbreak (n : ℕ) (hn : n < 32) : b.toNat ≠ n := fun hbn =>
    absurd (ascii_of_mem_utf8EncodeChar hbc (by omega)) (by omega)
  refine byteBreaks.ends_eq_false.mpr ⟨?_, ?_⟩
  · rintro rfl
    exact hbreak 10 (by omega) rfl
  · rintro rfl
    exact hbreak 13 (by omega) rfl

theorem ends_text {cs : List Char} (h : Json.OneLine cs) :
    ∀ c ∈ cs, textBreaks.ends c = false := by
  intro c hc
  have hctrl := h c hc
  refine textBreaks.ends_eq_false.mpr ⟨?_, ?_⟩ <;> rintro rfl <;>
    exact absurd hctrl (by decide)

/-! ### The line of a row -/

namespace Row

def text (row : Row) : List Char := (Json.Value.obj row.payload).dumps

variable (row : Row)

theorem text_ne_nil : row.text ≠ [] := by
  simp [text, Json.Value.dumps]

theorem encode_text_ne_nil : encode row.text ≠ [] := by
  obtain ⟨c, cs, hcs⟩ := List.exists_cons_of_ne_nil row.text_ne_nil
  rw [hcs, encode_cons]
  exact List.append_ne_nil_of_left_ne_nil String.utf8EncodeChar_ne_nil _

theorem oneLine : Json.OneLine row.text := row.valid.oneLine

end Row

end CodexBridge.Storage
