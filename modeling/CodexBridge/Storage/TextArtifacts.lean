import CodexBridge.Storage.JsonlStore
import Mathlib.Logic.Function.Basic

/-! Long texts. A text that is too long for a message goes to a file, and the message carries a
stub with the path of the file and a preview. The preview is cut by characters, and what a
message may carry is counted in bytes: whether a stub is short enough depends on how wide the
characters are that the text begins with. -/

namespace CodexBridge.Storage

/-! ### Texts and files -/

def textArtifactSpillBytes : ℕ := 4 * 1024

def textArtifactPreviewChars : ℕ := 1200

/-- `str.rstrip` -/
def rstripped (cs : List Char) : List Char := cs.rdropWhile isSpace

def utf8Size (text : List Char) : ℕ := (encode text).length

def shouldSpillText (text : List Char) : Bool := textArtifactSpillBytes < utf8Size text

/-- The parts of an absolute path. -/
abbrev Path := List String

def pathText (path : Path) : List Char := path.flatMap fun part => '/' :: part.toList

/-- The directory of the texts, and what paths are once their links have been followed. Below
the directory there are none. -/
structure TextLayout where
  textArtifactsDir : Path
  resolve : Path → Path
  resolve_below : ∀ kind file,
    resolve (textArtifactsDir ++ [kind, file]) = resolve textArtifactsDir ++ [kind, file]

/-- SHA-256, as 64 hexadecimal digits. -/
structure Digest where
  hexdigest : List UInt8 → List Char
  length_eq : ∀ data, (hexdigest data).length = 64
  hex : ∀ data, ∀ c ∈ hexdigest data, c ∈ "0123456789abcdef".toList

abbrev Files := Path → Option (List UInt8)

structure TextArtifact where
  path : Path
  bytes : Option ℕ
  sha256 : Option (List Char)
  preview : List Char

/-! ### The stub -/

def truncatedMark : List Char := "\n...[truncated]".toList

def previewText (text : List Char) : List Char :=
  let body := stripped text
  if body.length ≤ textArtifactPreviewChars then body
  else rstripped (body.take textArtifactPreviewChars) ++ truncatedMark

/-- The first line of a stub. -/
def stubHeading (stubPrefix : List Char) : List Char :=
  if (rstripped stubPrefix).isEmpty then "CCB large text artifact.".toList
  else rstripped stubPrefix

def decimal (n : ℕ) : List Char := (toString n).toList

def instructionLine : List Char :=
  ("Instruction: read the full text file above before acting when the preview is " ++
    "insufficient.").toList

def joinLines (lines : List (List Char)) : List Char := List.intercalate ['\n'] lines

def artifactStub (stubPrefix : List Char) (artifact : TextArtifact) : List Char :=
  let preview := rstripped artifact.preview
  let lines :=
    [stubHeading stubPrefix,
      "Full text: ".toList ++ pathText artifact.path,
      "Bytes: ".toList ++ (artifact.bytes.map decimal).getD "None".toList,
      "SHA256: ".toList ++ artifact.sha256.getD "None".toList]
  let previewLines := if preview.isEmpty then [] else [[], "Preview:".toList, preview]
  rstripped (joinLines (lines ++ previewLines ++ [[], instructionLine]))

section Spill

variable (layout : TextLayout) (digest : Digest)

/-- The file is named after the owner and an id of its own. -/
def writeTextArtifact (files : Files) (text : List Char) (kind file : String) :
    TextArtifact × Files :=
  let data := encode text
  let path := layout.textArtifactsDir ++ [kind, file]
  (⟨path, some data.length, some (digest.hexdigest data), previewText text⟩,
    Function.update files path (some data))

def maybeSpillText (files : Files) (text : List Char) (kind file : String)
    (stubPrefix : List Char) : List Char × Option TextArtifact × Files :=
  if shouldSpillText text = false then (text, none, files)
  else
    let (artifact, files) := writeTextArtifact layout digest files text kind file
    (artifactStub stubPrefix artifact, some artifact, files)

/-! ### Checks -/

def validatedArtifactPath (files : Files) (path : Path) : Except Raised (Path × List UInt8) :=
  match files path with
  | none => throw (.value "text artifact path does not exist")
  | some data =>
    if (layout.resolve layout.textArtifactsDir).isPrefixOf (layout.resolve path) then
      pure (layout.resolve path, data)
    else throw (.value "text artifact path escapes CCB artifact directory")

def validateTextArtifactRef (files : Files) (artifact : TextArtifact) :
    Except Raised TextArtifact := do
  let (path, data) ← validatedArtifactPath layout files artifact.path
  if artifact.bytes.any (· ≠ data.length) then throw (.value "text artifact byte size mismatch")
  let expectedSha := stripped (artifact.sha256.getD [])
  let actualSha := digest.hexdigest data
  if !expectedSha.isEmpty && expectedSha ≠ actualSha then
    throw (.value "text artifact sha256 mismatch")
  pure { artifact with path := path, bytes := some data.length, sha256 := some actualSha }

/-- The text of an exception, for those that a check of an artifact raises. -/
def raisedText : Raised → String
  | .value message => message
  | .key name => name
  | .dispatch message => message
  | .unicodeDecode => ""
  | .jsonDecode => ""

/-- `_validate_request_body_artifact` -/
def validateRequestBodyArtifact (files : Files) (body : List Char)
    (bodyArtifact : Option TextArtifact) : Except Raised Unit :=
  match bodyArtifact with
  | some artifact =>
    if shouldSpillText body then
      throw (.dispatch "ask body stub exceeds 4 KiB even though a body artifact is present")
    else
      match validateTextArtifactRef layout digest files artifact with
      | .error e => throw (.dispatch ("invalid ask body artifact: " ++ raisedText e))
      | .ok _ => pure ()
  | none =>
    if shouldSpillText body then
      throw (.dispatch "ask body exceeds 4 KiB and must be submitted with a CCB body artifact")
    else pure ()

end Spill

/-! ### Sizes -/

theorem utf8Size_append (a b : List Char) : utf8Size (a ++ b) = utf8Size a + utf8Size b := by
  rw [utf8Size, encode_append, List.length_append, utf8Size, utf8Size]

theorem rstripped_concat (cs : List Char) {c : Char} (h : isSpace c = false) :
    rstripped (cs ++ [c]) = cs ++ [c] :=
  List.rdropWhile_concat_neg _ _ _ (by simp [h])

theorem joinLines_cons (line line' : List Char) (lines : List (List Char)) :
    joinLines (line :: line' :: lines) = line ++ '\n' :: joinLines (line' :: lines) := by
  simp [joinLines, List.intercalate, List.intersperse]

theorem joinLines_singleton (line : List Char) : joinLines [line] = line := by
  simp [joinLines, List.intercalate]

/-- The ends of a preview are no spaces. -/
theorem rstripped_previewText (text : List Char) :
    rstripped (previewText text) = previewText text := by
  unfold previewText
  dsimp only
  split_ifs
  · exact List.rdropWhile_idempotent ..
  · have hmark : truncatedMark = "\n...[truncated".toList ++ [']'] := by decide
    rw [hmark, ← List.append_assoc]
    exact rstripped_concat _ (by decide)

/-- The bytes of a stub that come from its preview. -/
def shownBytes (text : List Char) : ℕ :=
  let body := stripped text
  if body = [] then 0
  else if body.length ≤ textArtifactPreviewChars then utf8Size body + 11
  else utf8Size (rstripped (body.take textArtifactPreviewChars)) + 26

theorem utf8Size_previewText {text : List Char} (h : stripped text ≠ []) :
    utf8Size (previewText text) + 11 = shownBytes text := by
  have hmark : utf8Size truncatedMark = 15 := by decide
  simp only [previewText, shownBytes, if_neg h]
  split_ifs
  · rfl
  · rw [utf8Size_append, hmark]

theorem previewText_eq_nil {text : List Char} : previewText text = [] ↔ stripped text = [] := by
  simp only [previewText]
  split_ifs with hlength
  · exact Iff.rfl
  · refine ⟨fun h => absurd h (List.append_ne_nil_of_right_ne_nil _ (by decide)), fun h => ?_⟩
    rw [h] at hlength
    exact absurd (Nat.zero_le _) hlength

theorem utf8Size_instructionLine : utf8Size instructionLine = 90 := by decide

theorem utf8Size_lines {line line' : List Char} {lines : List (List Char)} :
    utf8Size (joinLines (line :: line' :: lines)) =
      utf8Size line + 1 + utf8Size (joinLines (line' :: lines)) := by
  have hfeed : utf8Size ['\n'] = 1 := rfl
  rw [joinLines_cons, utf8Size_append, ← List.singleton_append, utf8Size_append, hfeed, add_assoc]

/-- A stub ends with a word. -/
theorem rstripped_joinLines (lines : List (List Char)) :
    rstripped (joinLines (lines ++ [[], instructionLine])) =
      joinLines (lines ++ [[], instructionLine]) := by
  have hlast : ∃ cs, joinLines (lines ++ [[], instructionLine]) = cs ++ ['.'] := by
    induction lines with
    | nil => exact ⟨'\n' :: instructionLine.dropLast, by decide⟩
    | cons line lines ih =>
      obtain ⟨cs, hcs⟩ := ih
      have hcons : joinLines (line :: (lines ++ [[], instructionLine])) =
          line ++ '\n' :: joinLines (lines ++ [[], instructionLine]) := by
        cases lines with
        | nil => exact joinLines_cons ..
        | cons line' lines => exact joinLines_cons ..
      refine ⟨line ++ '\n' :: cs, ?_⟩
      rw [List.cons_append, hcons, hcs, List.append_assoc, List.cons_append]
  obtain ⟨cs, hcs⟩ := hlast
  rw [hcs]
  exact rstripped_concat cs (by decide)

theorem utf8Size_artifactStub (stubPrefix : List Char) (path : Path) (size : ℕ)
    {sha : List Char} (hsha : utf8Size sha = 64) (text : List Char) :
    utf8Size (artifactStub stubPrefix ⟨path, some size, some sha, previewText text⟩) =
      shownBytes text + utf8Size (stubHeading stubPrefix) + utf8Size (pathText path) +
        utf8Size (decimal size) + 185 := by
  have htext : utf8Size "Full text: ".toList = 11 := by decide
  have hbytes : utf8Size "Bytes: ".toList = 7 := by decide
  have hlabel : utf8Size "SHA256: ".toList = 8 := by decide
  have hpreview : utf8Size "Preview:".toList = 8 := by decide
  have hempty : utf8Size [] = 0 := rfl
  simp only [artifactStub, rstripped_previewText, rstripped_joinLines, Option.map_some,
    Option.getD_some]
  by_cases h : stripped text = []
  · have hnil : previewText text = [] := previewText_eq_nil.mpr h
    have hshown : shownBytes text = 0 := if_pos h
    simp only [hnil, List.isEmpty_nil, if_true, List.append_nil, List.cons_append,
      List.nil_append, utf8Size_lines, joinLines_singleton, utf8Size_append, htext, hbytes, hlabel,
      hsha, hempty, utf8Size_instructionLine, hshown]
    omega
  · have hne : (previewText text).isEmpty = false :=
      List.isEmpty_eq_false_iff.mpr fun hnil => h (previewText_eq_nil.mp hnil)
    have hshown := utf8Size_previewText h
    simp only [hne, Bool.false_eq_true, if_false, List.cons_append, List.nil_append,
      utf8Size_lines, joinLines_singleton, utf8Size_append, htext, hbytes, hlabel, hpreview, hsha,
      hempty, utf8Size_instructionLine, ← hshown]
    omega

/-! ### Digests -/

theorem stripped_of_forall {cs : List Char} (h : ∀ c ∈ cs, isSpace c = false) :
    stripped cs = cs := by
  have hdrop : cs.dropWhile isSpace = cs := by
    refine List.dropWhile_eq_self_iff.mpr fun hpos => ?_
    rw [h _ (List.getElem_mem hpos)]
    exact Bool.false_ne_true
  rw [stripped, hdrop, List.rdropWhile_eq_self_iff]
  intro hne
  rw [h _ (List.getLast_mem hne)]
  exact Bool.false_ne_true

theorem hex_narrow {c : Char} (h : c ∈ "0123456789abcdef".toList) :
    (String.utf8EncodeChar c).length = 1 ∧ isSpace c = false := by
  have hall : "0123456789abcdef".toList.all (fun c =>
      (String.utf8EncodeChar c).length = 1 ∧ isSpace c = false) = true := by decide
  exact of_decide_eq_true (List.all_eq_true.mp hall c h)

theorem Digest.utf8Size_hexdigest (digest : Digest) (data : List UInt8) :
    utf8Size (digest.hexdigest data) = 64 := by
  have hnarrow : ∀ cs : List Char, (∀ c ∈ cs, c ∈ "0123456789abcdef".toList) →
      utf8Size cs = cs.length := by
    intro cs hcs
    induction cs with
    | nil => rfl
    | cons c cs ih =>
      obtain ⟨hc, hrest⟩ := List.forall_mem_cons.mp hcs
      rw [utf8Size, encode_cons, List.length_append, (hex_narrow hc).1, List.length_cons,
        ← ih hrest, utf8Size, add_comm]
  rw [hnarrow _ (digest.hex data), digest.length_eq]

theorem Digest.stripped_hexdigest (digest : Digest) (data : List UInt8) :
    stripped (digest.hexdigest data) = digest.hexdigest data :=
  stripped_of_forall fun c hc => (hex_narrow (digest.hex data c hc)).2

/-! ### Spilled bodies -/

/-- An artifact that has just been written is what its reference says. -/
theorem validateTextArtifactRef_written (layout : TextLayout) (digest : Digest) (files : Files)
    (text : List Char) (kind file : String) :
    ∃ ref, validateTextArtifactRef layout digest
      (writeTextArtifact layout digest files text kind file).2
      (writeTextArtifact layout digest files text kind file).1 = .ok ref := by
  have hpath : (layout.resolve layout.textArtifactsDir).isPrefixOf
      (layout.resolve (layout.textArtifactsDir ++ [kind, file])) = true := by
    rw [layout.resolve_below, List.isPrefixOf_iff_prefix]
    exact List.prefix_append ..
  refine ⟨⟨layout.resolve (layout.textArtifactsDir ++ [kind, file]), some (encode text).length,
    some (digest.hexdigest (encode text)), previewText text⟩, ?_⟩
  simp only [validateTextArtifactRef, validatedArtifactPath, writeTextArtifact,
    Function.update_self, hpath, if_true, Option.getD_some, digest.stripped_hexdigest]
  simp [bind, Except.bind, pure, Except.pure]

theorem validateRequestBodyArtifact_written (layout : TextLayout) (digest : Digest) (files : Files)
    (text : List Char) (kind file : String) (body : List Char) :
    validateRequestBodyArtifact layout digest
        (writeTextArtifact layout digest files text kind file).2 body
        (some (writeTextArtifact layout digest files text kind file).1) = .ok () ↔
      utf8Size body ≤ textArtifactSpillBytes := by
  obtain ⟨ref, href⟩ := validateTextArtifactRef_written layout digest files text kind file
  simp only [validateRequestBodyArtifact, href]
  by_cases h : utf8Size body ≤ textArtifactSpillBytes
  · have hshort : shouldSpillText body = false := decide_eq_false (not_lt.mpr h)
    simp [hshort, h, pure, Except.pure]
  · have hlong : shouldSpillText body = true := decide_eq_true (not_le.mp h)
    simp [hlong, h, throw, throwThe, MonadExceptOf.throw]

/-- The stub of a text is within the limit, and so accepted, when what it shows of the text, its
heading, the path and the size of the text leave room for the rest of it. -/
theorem spilled_accepted_iff (layout : TextLayout) (digest : Digest) (files : Files)
    (text : List Char) (kind file : String) (stubPrefix : List Char)
    (hspill : shouldSpillText text = true) :
    let spilled := maybeSpillText layout digest files text kind file stubPrefix
    let fits := shownBytes text + utf8Size (stubHeading stubPrefix) +
      utf8Size (pathText (layout.textArtifactsDir ++ [kind, file])) +
      utf8Size (decimal (utf8Size text)) ≤ 3911
    (utf8Size spilled.1 ≤ textArtifactSpillBytes ↔ fits) ∧
      (validateRequestBodyArtifact layout digest spilled.2.2 spilled.1 spilled.2.1 = .ok () ↔
        fits) := by
  intro spilled fits
  have hspilled : spilled =
      (artifactStub stubPrefix (writeTextArtifact layout digest files text kind file).1,
        some (writeTextArtifact layout digest files text kind file).1,
        (writeTextArtifact layout digest files text kind file).2) := by
    show maybeSpillText layout digest files text kind file stubPrefix = _
    rw [maybeSpillText, hspill, if_neg (by decide)]
  have hsize := utf8Size_artifactStub stubPrefix (layout.textArtifactsDir ++ [kind, file])
    (utf8Size text) (digest.utf8Size_hexdigest (encode text)) text
  have hfits : utf8Size spilled.1 ≤ textArtifactSpillBytes ↔ fits := by
    rw [hspilled]
    show utf8Size (artifactStub stubPrefix ⟨_, some (utf8Size text), _, _⟩) ≤ _ ↔ _
    rw [hsize]
    exact Nat.add_le_add_iff_right
  refine ⟨hfits, ?_⟩
  rw [← hfits, hspilled]
  exact validateRequestBodyArtifact_written layout digest files text kind file _

private def sampleLayout : TextLayout where
  textArtifactsDir := ["work", "project", ".ccb", "ccbd", "artifacts", "text"]
  resolve := id
  resolve_below _ _ := rfl

private def sampleDigest (digits : List Char) (hlength : digits.length = 64)
    (hhex : (digits.all fun c => c ∈ "0123456789abcdef".toList) = true) : Digest where
  hexdigest _ := digits
  length_eq _ := hlength
  hex _ c hc := of_decide_eq_true (List.all_eq_true.mp hhex c hc)

/-- The digest of 4097 letters. -/
private def letterDigest : Digest :=
  sampleDigest "4e369b5618643c3abddd027b650bfa54810be3b418028a7c9d82299a59d008e8".toList
    (by decide) (by decide)

/-- The digest of 1025 smileys. -/
private def smileyDigest : Digest :=
  sampleDigest "ac9e73ef771fc0aa3c40ccc31e12925eaabb8a4ef5392dbea5f7b4f57cbe03d8".toList
    (by decide) (by decide)

private def askPrefix : List Char :=
  "CCB ask request is larger than 4 KiB and was stored as an artifact.".toList

theorem spilled_accepted_letters :
    let spilled := maybeSpillText sampleLayout letterDigest (fun _ => none)
      (List.replicate 4097 'a') "ask-request" "user-to-codex-art_0.txt" askPrefix
    validateRequestBodyArtifact sampleLayout letterDigest spilled.2.2 spilled.1 spilled.2.1 =
      .ok () :=
  (spilled_accepted_iff sampleLayout letterDigest (fun _ => none) (List.replicate 4097 'a')
    "ask-request" "user-to-codex-art_0.txt" askPrefix (by decide +kernel)).2.mpr (by decide +kernel)

/-- A text of 1025 smileys, at four bytes each, is its own preview: the stub is longer still. -/
theorem spilled_smileys_rejected :
    ¬ ∀ (layout : TextLayout) (digest : Digest) (files : Files) (text : List Char)
      (kind file : String) (stubPrefix : List Char), shouldSpillText text = true →
      utf8Size (pathText (layout.textArtifactsDir ++ [kind, file])) ≤ 1024 →
      utf8Size stubPrefix ≤ 1024 →
      let spilled := maybeSpillText layout digest files text kind file stubPrefix
      utf8Size spilled.1 ≤ textArtifactSpillBytes ∧
        validateRequestBodyArtifact layout digest spilled.2.2 spilled.1 spilled.2.1 = .ok () := by
  intro h
  have hstub := (h sampleLayout smileyDigest (fun _ => none) (List.replicate 1025 '😀')
    "ask-request" "user-to-codex-art_0.txt" askPrefix (by decide +kernel) (by decide +kernel)
    (by decide +kernel)).1
  exact absurd hstub (by decide +kernel)

end CodexBridge.Storage
