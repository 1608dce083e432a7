import Mathlib.Data.List.DropRight
import CodexBridge.Names
import CodexBridge.PosixPath
import CodexBridge.Providers.Runtime
import CodexBridge.Shlex

/-! The command that an agent's Codex is started with, as its session file keeps it. When Codex
moves to another session the command is rewritten to resume that one; when the sessions of an
agent are put away the command is rewritten to resume none. However often either happens, the
command is the first one with the last session. -/

namespace CodexBridge.Providers.StartCommands

abbrev Text := List Char

/-- `text.rpartition(separator)`, unless the separator is missing. -/
def rpartition (separator : Char) (text : Text) : Option (Text × Text) :=
  if separator ∈ text then
    some ((text.rdropWhile (· ≠ separator)).dropLast, text.rtakeWhile (· ≠ separator))
  else none

def resume : Text := "resume".toList

/-! ### Reading a command -/

section Search

-- `str.isalnum` of one character, over all of Unicode
variable (isAlnum : Char → Bool)

/-- `\w` -/
def isWordChar (c : Char) : Bool := isAlnum c || c = '_'

/-- `\b`, between two characters or at an end. -/
def boundary (before after : Option Char) : Bool :=
  before.any (isWordChar isAlnum) != after.any (isWordChar isAlnum)

end Search

/-- `Path(token).name == 'codex'` -/
def isCodex (token : Text) : Bool := (PosixPath.parse token).tail.getLast? = some "codex".toList

def findCodexTokenIndex (tokens : List Text) : Option ℕ := tokens.findIdx? isCodex

def isBareResumeCandidate (raw : Text) : Bool :=
  !raw.isEmpty && ';' ∉ raw && !decide ("CODEX_".toList <:+: raw) &&
    !decide (" export ".toList <:+: ' ' :: (raw ++ [' ']))

def tokensFormBareResume (tokens : List Text) : Bool :=
  match findCodexTokenIndex tokens with
  | none => false
  | some codexIndex =>
    3 ≤ tokens.length && codexIndex + 2 = tokens.length - 1 && tokens[codexIndex + 1]? = some resume

def looksLikeBareResumeCmd (command : Text) : Bool :=
  let raw := stripped command
  isBareResumeCandidate raw && (Shlex.split raw).any tokensFormBareResume

/-! ### Rewriting a command -/

/-- What comes before the last semicolon and what comes after it. -/
def splitLastShellSegment (command : Text) : Text × Text :=
  match rpartition ';' command with
  | none => ([], stripped command)
  | some (head, tail) => (stripped head, stripped tail)

/-- The words up to the first `resume` behind `codex`. -/
def baseTokens (tokens : List Text) (codexIndex : ℕ) : List Text :=
  tokens.take (codexIndex + 1) ++ (tokens.drop (codexIndex + 1)).takeWhile (· ≠ resume)

/-- The words of a segment that calls Codex, up to the first `resume`. -/
def codexWords (segment : Text) : Option (List Text) := do
  let tokens ← Shlex.split segment
  let codexIndex ← findCodexTokenIndex tokens
  pure (baseTokens tokens codexIndex)

def rewriteCodexSegment (segment sessionId : Text) : Option Text :=
  (codexWords segment).map fun base => Shlex.join (base ++ [resume, sessionId])

def stripResumeFromCodexSegment (segment : Text) : Option Text :=
  (codexWords segment).map Shlex.join

def withPrefix (shellPrefix segment : Text) : Text :=
  if shellPrefix = [] then segment else shellPrefix ++ ';' :: ' ' :: segment

/-- `codex resume <session>` -/
def bareResume (sessionId : Text) : Text := "codex resume ".toList ++ Shlex.quote sessionId

def buildResumeStartCmd (command sessionId : Text) : Text :=
  let normalized := stripped sessionId
  let raw := stripped command
  if normalized = [] then raw
  else if raw = [] then bareResume normalized
  else
    let (shellPrefix, segment) := splitLastShellSegment raw
    withPrefix shellPrefix ((rewriteCodexSegment segment normalized).getD (bareResume normalized))

def stripResumeStartCmd (command : Text) : Text :=
  let raw := stripped command
  if raw = [] then []
  else
    let (shellPrefix, segment) := splitLastShellSegment raw
    withPrefix shellPrefix ((stripResumeFromCodexSegment segment).getD segment)

/-! ### The session file -/

/-- What a session file says of the command and of the session that is bound. -/
structure SessionData where
  startCmd : Option Text
  codexStartCmd : Option Text
  codexSessionId : Option Text
  codexSessionPath : Option Text

/-- `str(data.get(key) or "").strip()` -/
def stored (value : Option Text) : Text := stripped (value.getD [])

namespace SessionData

variable (data : SessionData)

def resumeTemplateCommand : Text :=
  let startCmd := stored data.startCmd
  if startCmd ≠ [] ∧ looksLikeBareResumeCmd startCmd = false then startCmd
  else if stored data.codexStartCmd ≠ [] then stored data.codexStartCmd
  else startCmd

def persistResumeStartCmdFields (sessionId : Text) : SessionData :=
  if stripped sessionId = [] then data
  else
    let resumeStartCmd := buildResumeStartCmd data.resumeTemplateCommand (stripped sessionId)
    { data with startCmd := some resumeStartCmd, codexStartCmd := some resumeStartCmd }

/-- `update_codex_log_binding`. Without a session of its own the log's name stands for one, but
no command is written for it. -/
def updateCodexLogBinding (logPath sessionId : Option Text) : SessionData :=
  let newPath := stored logPath
  let newId :=
    if stored sessionId = [] ∧ newPath ≠ [] then (pathStem (String.ofList newPath)).toList
    else stored sessionId
  let bound := data.persistResumeStartCmdFields (sessionId.getD [])
  let commandChanged := stored sessionId ≠ [] ∧ (some (stored data.startCmd) ≠ bound.startCmd ∨
    some (stored data.codexStartCmd) ≠ bound.codexStartCmd)
  if (newPath ≠ [] ∧ data.codexSessionPath ≠ some newPath) ∨
      (sessionId.getD [] ≠ [] ∧ data.codexSessionId ≠ sessionId) ∨ commandChanged then
    { bound with
      codexSessionPath := if newPath = [] then bound.codexSessionPath else some newPath
      codexSessionId := if newId = [] then bound.codexSessionId else some newId }
  else bound

/-- The binding itself, in `_apply_binding_updates`. -/
def withSession (logPath sessionId : Text) : SessionData :=
  { data with
    codexSessionPath := some logPath
    codexSessionId := if stripped sessionId = [] then data.codexSessionId
      else some (stripped sessionId) }

/-- `update_project_session_binding`, of a log that is not older than the session. -/
def updateProjectSessionBinding (logPath sessionId : Text) : SessionData :=
  (data.withSession logPath sessionId).persistResumeStartCmdFields sessionId

/-- What is left of a command without its session, if that says anything new. -/
def scrubbed (value : Option Text) : Option Text :=
  let bare := stripResumeStartCmd (value.getD [])
  if bare ≠ [] ∧ bare ≠ stored value then some bare else value

/-- `_scrub_project_session_binding` -/
def scrubProjectSessionBinding : SessionData where
  startCmd := scrubbed data.startCmd
  codexStartCmd := scrubbed data.codexStartCmd
  codexSessionId := none
  codexSessionPath := none

end SessionData

/-! ### Texts -/

theorem stripped_of_edges {text : Text} (hhead : ∀ c cs, text = c :: cs → isSpace c = false)
    (hlast : ∀ cs c, text = cs ++ [c] → isSpace c = false) : stripped text = text := by
  have hdrop : text.dropWhile isSpace = text := by
    cases text with
    | nil => rfl
    | cons c cs => rw [List.dropWhile_cons_of_neg (by simp [hhead c cs rfl])]
  rw [stripped, hdrop, List.rdropWhile_eq_self_iff]
  intro hne
  rw [hlast _ _ (List.dropLast_append_getLast hne).symm]
  exact Bool.false_ne_true

theorem stripped_head {text cs : Text} {c : Char} (h : stripped text = c :: cs) :
    isSpace c = false := by
  have hfront : c :: cs <+: text.dropWhile isSpace := by
    rw [← h]
    exact List.rdropWhile_prefix ..
  obtain ⟨rest, hrest⟩ := hfront
  have hfirst := List.head?_dropWhile_not isSpace text
  rw [← hrest] at hfirst
  simpa using hfirst

theorem stripped_last {text cs : Text} {c : Char} (h : stripped text = cs ++ [c]) :
    isSpace c = false := by
  rw [stripped] at h
  have hne : (text.dropWhile isSpace).rdropWhile isSpace ≠ [] := by simp [h]
  have hlast := List.rdropWhile_last_not isSpace (text.dropWhile isSpace) hne
  rw [List.getLast_congr hne (by simp) h, List.getLast_append_singleton] at hlast
  simpa using hlast

@[simp]
theorem stripped_stripped (text : Text) : stripped (stripped text) = stripped text :=
  stripped_of_edges (fun _ _ h => stripped_head h) fun _ _ h => stripped_last h

theorem mem_of_mem_stripped {text : Text} {c : Char} (h : c ∈ stripped text) : c ∈ text :=
  List.dropWhile_subset _ ((List.rdropWhile_prefix ..).subset h)

theorem isSpace_of_isEdge {c : Char} (h : Shlex.isEdge c = true) : isSpace c = false := by
  have hrange : 33 ≤ c.toNat ∧ c.toNat ≤ 122 := by
    simp only [Shlex.isEdge, Shlex.isSafe, Bool.or_eq_true, Bool.and_eq_true, decide_eq_true_eq,
      List.mem_cons, List.not_mem_nil, or_false] at h
    rcases h with (((h | h) | h) | h) | rfl
    · omega
    · omega
    · omega
    · rcases h with rfl | rfl | rfl | rfl | rfl | rfl | rfl | rfl | rfl | rfl <;> decide
    · decide
  simp only [isSpace, Bool.or_eq_false_iff, Bool.and_eq_false_iff, beq_eq_false_iff_ne,
    decide_eq_false_iff_not]
  omega

theorem stripped_join (tokens : List Text) : stripped (Shlex.join tokens) = Shlex.join tokens := by
  by_cases htokens : tokens = []
  · subst htokens
    rfl
  obtain ⟨c, cs, hhead, hc⟩ := Shlex.join_head htokens
  obtain ⟨ds, d, hlast, hd⟩ := Shlex.join_last htokens
  refine stripped_of_edges (fun x xs hx => ?_) fun xs x hx => ?_
  · rw [hhead] at hx
    rw [← (List.cons.inj hx).1]
    exact isSpace_of_isEdge hc
  · rw [hlast] at hx
    obtain ⟨-, hx⟩ := List.append_inj' hx rfl
    rw [← List.singleton_inj.mp hx]
    exact isSpace_of_isEdge hd

theorem join_ne_nil {tokens : List Text} (h : tokens ≠ []) : Shlex.join tokens ≠ [] := by
  obtain ⟨c, cs, hhead, -⟩ := Shlex.join_head h
  rw [hhead]
  exact List.cons_ne_nil c cs

/-! ### Segments -/

theorem rpartition_none {separator : Char} {text : Text} (h : separator ∉ text) :
    rpartition separator text = none := if_neg h

theorem rpartition_append {separator : Char} (head : Text) {tail : Text} (h : separator ∉ tail) :
    rpartition separator (head ++ separator :: tail) = some (head, tail) := by
  have htail : ∀ c ∈ tail.reverse, decide (c ≠ separator) = true := by
    intro c hc
    rw [decide_eq_true_eq]
    rintro rfl
    exact h (List.mem_reverse.mp hc)
  have hreverse : (head ++ separator :: tail).reverse =
      tail.reverse ++ separator :: head.reverse := by simp
  rw [rpartition, if_pos (by simp), List.rdropWhile, List.rtakeWhile, hreverse,
    List.dropWhile_append_of_pos htail, List.takeWhile_append_of_pos htail,
    List.dropWhile_cons_of_neg (by simp), List.takeWhile_cons_of_neg (by simp)]
  simp

theorem rpartition_spec {separator : Char} {text head tail : Text}
    (h : rpartition separator text = some (head, tail)) :
    text = head ++ separator :: tail ∧ separator ∉ tail := by
  unfold rpartition at h
  split_ifs at h with hmem
  obtain ⟨rfl, rfl⟩ := Prod.mk.inj (Option.some.inj h)
  have hne : text.rdropWhile (fun c => decide (c ≠ separator)) ≠ [] := by
    rw [Ne, List.rdropWhile_eq_nil_iff]
    intro hall
    simpa using hall separator hmem
  have hlast : (text.rdropWhile fun c => decide (c ≠ separator)).getLast hne = separator := by
    simpa using List.rdropWhile_last_not _ text hne
  have hwhole :=
    List.rdropWhile_append_rtakeWhile (p := fun c => decide (c ≠ separator)) (l := text)
  rw [← List.dropLast_append_getLast hne, hlast, List.append_assoc] at hwhole
  exact ⟨hwhole.symm, fun htail => by simpa using List.mem_rtakeWhile_imp htail⟩

theorem splitLastShellSegment_spec {command shellPrefix segment : Text}
    (h : splitLastShellSegment command = (shellPrefix, segment)) :
    stripped shellPrefix = shellPrefix ∧ stripped segment = segment ∧ ';' ∉ segment := by
  unfold splitLastShellSegment at h
  cases hparts : rpartition ';' command with
  | none =>
    have hno : ';' ∉ command := by
      intro hmem
      rw [rpartition, if_pos hmem] at hparts
      contradiction
    rw [hparts] at h
    obtain ⟨rfl, rfl⟩ := Prod.mk.inj h
    exact ⟨rfl, stripped_stripped _, fun hmem => hno (mem_of_mem_stripped hmem)⟩
  | some parts =>
    rw [hparts] at h
    obtain ⟨rfl, rfl⟩ := Prod.mk.inj h
    obtain ⟨-, hno⟩ := rpartition_spec hparts
    exact ⟨stripped_stripped _, stripped_stripped _, fun hmem => hno (mem_of_mem_stripped hmem)⟩

theorem splitLastShellSegment_append (head : Text) {tail : Text} (h : ';' ∉ tail) :
    splitLastShellSegment (head ++ ';' :: tail) = (stripped head, stripped tail) := by
  rw [splitLastShellSegment, rpartition_append head h]

section Parts

variable {shellPrefix segment : Text} (hfront : stripped shellPrefix = shellPrefix)
  (hsegment : stripped segment = segment)

include hfront hsegment

theorem stripped_withPrefix (hne : segment ≠ []) :
    stripped (withPrefix shellPrefix segment) = withPrefix shellPrefix segment := by
  unfold withPrefix
  split_ifs with hnil
  · exact hsegment
  · refine stripped_of_edges (fun c cs hc => ?_) fun cs c hc => ?_
    · obtain ⟨d, ds, rfl⟩ := List.exists_cons_of_ne_nil hnil
      rw [← (List.cons.inj hc).1]
      exact stripped_head hfront
    · have hlast := (List.dropLast_append_getLast hne).symm
      have hwhole : (shellPrefix ++ ';' :: ' ' :: segment.dropLast) ++ [segment.getLast hne] =
          cs ++ [c] := by
        rw [← hc, List.append_assoc]
        exact congrArg (fun text => shellPrefix ++ ';' :: ' ' :: text) hlast.symm
      obtain ⟨-, hsame⟩ := List.append_inj' hwhole rfl
      rw [← List.singleton_inj.mp hsame]
      exact stripped_last (hsegment.trans hlast)

/-- A command that is put together comes apart as it was, also without the blanks around it. -/
theorem splitLastShellSegment_withPrefix (hno : ';' ∉ segment) :
    splitLastShellSegment (stripped (withPrefix shellPrefix segment)) = (shellPrefix, segment) := by
  by_cases hnil : shellPrefix = []
  · rw [withPrefix, if_pos hnil, hsegment, splitLastShellSegment, rpartition_none hno, hnil]
    exact congrArg (Prod.mk []) hsegment
  by_cases hempty : segment = []
  · -- the blank behind the semicolon goes
    obtain ⟨c, cs, rfl⟩ := List.exists_cons_of_ne_nil hnil
    have hbare : stripped (c :: cs ++ [';', ' ']) = c :: cs ++ [';'] := by
      rw [stripped, List.cons_append, List.dropWhile_cons_of_neg (by simp [stripped_head hfront]),
        ← List.cons_append, List.append_cons, List.rdropWhile_concat_pos _ _ _ (by decide),
        List.rdropWhile_concat_neg _ _ _ (by decide)]
    rw [withPrefix, if_neg hnil, hempty, hbare,
      splitLastShellSegment_append (c :: cs) List.not_mem_nil, hfront]
    rfl
  · have hspace : stripped (' ' :: segment) = segment := by
      rw [stripped, List.dropWhile_cons_of_pos (by decide)]
      exact hsegment
    rw [stripped_withPrefix hfront hsegment hempty, withPrefix, if_neg hnil,
      splitLastShellSegment_append shellPrefix (by simpa using hno), hfront, hspace]

end Parts

/-! ### Words -/

/-- Words up to the call of Codex, with the options that come before a session. -/
def IsBase (words : List Text) : Prop :=
  ∃ before codex options, words = before ++ codex :: options ∧
    (∀ word ∈ before, isCodex word = false) ∧ isCodex codex = true ∧ resume ∉ options

theorem findCodexTokenIndex_append {before later : List Text} {codex : Text}
    (hbefore : ∀ word ∈ before, isCodex word = false) (hcodex : isCodex codex = true) :
    findCodexTokenIndex (before ++ codex :: later) = some before.length := by
  rw [findCodexTokenIndex, List.findIdx?_append, List.findIdx?_eq_none_iff.mpr hbefore,
    List.findIdx?_cons, if_pos hcodex]
  simp

theorem baseTokens_append (before later : List Text) (codex : Text) :
    baseTokens (before ++ codex :: later) before.length =
      before ++ codex :: later.takeWhile (· ≠ resume) := by
  rw [baseTokens, List.append_cons, List.take_left' (by simp), List.drop_left' (by simp)]
  simp

theorem isBase_of_findCodexTokenIndex {tokens : List Text} {codexIndex : ℕ}
    (h : findCodexTokenIndex tokens = some codexIndex) : IsBase (baseTokens tokens codexIndex) := by
  obtain ⟨hlt, hcodex, hbefore⟩ := List.findIdx?_eq_some_iff_getElem.mp h
  have htokens : tokens.take codexIndex ++ tokens[codexIndex] :: tokens.drop (codexIndex + 1) =
      tokens := by
    rw [← List.drop_eq_getElem_cons hlt, List.take_append_drop]
  have hlength : (tokens.take codexIndex).length = codexIndex := List.length_take_of_le hlt.le
  have hwords := baseTokens_append (tokens.take codexIndex) (tokens.drop (codexIndex + 1))
    tokens[codexIndex]
  rw [htokens, hlength] at hwords
  refine ⟨_, _, _, hwords, fun word hword => ?_, hcodex, fun hresume => ?_⟩
  · obtain ⟨i, hi, rfl⟩ := List.mem_take_iff_getElem.mp hword
    simpa using hbefore i (by omega)
  · simpa using List.mem_takeWhile_imp hresume

theorem mem_of_mem_baseTokens {tokens : List Text} {codexIndex : ℕ} {word : Text}
    (h : word ∈ baseTokens tokens codexIndex) : word ∈ tokens := by
  rcases List.mem_append.mp h with h | h
  · exact List.mem_of_mem_take h
  · exact List.mem_of_mem_drop ((List.takeWhile_prefix _).subset h)

theorem codexWords_spec {segment : Text} {words : List Text}
    (h : codexWords segment = some words) :
    IsBase words ∧ (';' ∉ segment → ∀ word ∈ words, ';' ∉ word) := by
  unfold codexWords at h
  simp only [Option.bind_eq_bind, Option.bind_eq_some_iff, Option.pure_def, Option.some.injEq] at h
  obtain ⟨tokens, htokens, codexIndex, hindex, rfl⟩ := h
  refine ⟨isBase_of_findCodexTokenIndex hindex, fun hno word hword => ?_⟩
  exact Shlex.not_mem_split htokens (by decide) hno (mem_of_mem_baseTokens hword)

theorem codexWords_join {words later : List Text} (hwords : IsBase words)
    (hlater : later.takeWhile (· ≠ resume) = []) :
    codexWords (Shlex.join (words ++ later)) = some words := by
  obtain ⟨before, codex, options, rfl, hbefore, hcodex, hoptions⟩ := hwords
  have hkeep : ∀ word ∈ options, decide (word ≠ resume) = true := by
    intro word hword
    rw [decide_eq_true_eq]
    rintro rfl
    exact hoptions hword
  rw [codexWords, Shlex.split_join, List.append_assoc, List.cons_append]
  simp only [Option.bind_eq_bind, Option.bind_some, Option.pure_def,
    findCodexTokenIndex_append hbefore hcodex, baseTokens_append,
    List.takeWhile_append_of_pos hkeep, hlater, List.append_nil]

/-! ### What a rewritten command keeps -/

/-- What a command keeps when it is rewritten: what comes before its last segment, and the words
that start Codex there without a session. -/
@[ext]
structure Template where
  shellPrefix : Text
  words : List Text
  shellPrefix_stripped : stripped shellPrefix = shellPrefix
  words_base : IsBase words
  oneSegment : ∀ word ∈ words, ';' ∉ word

def bareWords : List Text := ["codex".toList]

theorem bareWords_base : IsBase bareWords :=
  ⟨[], "codex".toList, [], rfl, List.forall_mem_nil _, by decide, List.not_mem_nil⟩

theorem getD_codexWords_spec {segment : Text} (h : ';' ∉ segment) :
    IsBase ((codexWords segment).getD bareWords) ∧
      ∀ word ∈ (codexWords segment).getD bareWords, ';' ∉ word := by
  cases hwords : codexWords segment with
  | none =>
    refine ⟨bareWords_base, fun word hword => ?_⟩
    rw [List.mem_singleton.mp hword]
    decide
  | some words =>
    obtain ⟨hbase, hno⟩ := codexWords_spec hwords
    exact ⟨hbase, hno h⟩

def template (command : Text) : Template :=
  have hparts := @splitLastShellSegment_spec (stripped command) _ _ rfl
  { shellPrefix := (splitLastShellSegment (stripped command)).1
    words := (codexWords (splitLastShellSegment (stripped command)).2).getD bareWords
    shellPrefix_stripped := hparts.1
    words_base := (getD_codexWords_spec hparts.2.2).1
    oneSegment := (getD_codexWords_spec hparts.2.2).2 }

theorem template_of_parts {command : Text} (segment : Text) {t : Template}
    (hparts : splitLastShellSegment (stripped command) = (t.shellPrefix, segment))
    (hwords : (codexWords segment).getD bareWords = t.words) : template command = t := by
  refine Template.ext ?_ ?_
  · exact congrArg Prod.fst hparts
  · rw [← hwords]
    exact congrArg (fun parts : Text × Text => (codexWords parts.2).getD bareWords) hparts

theorem template_stripped (command : Text) : template (stripped command) = template command := by
  refine template_of_parts (splitLastShellSegment (stripped command)).2 ?_ rfl
  rw [stripped_stripped]
  rfl

namespace Template

variable (t : Template)

theorem words_ne_nil : t.words ≠ [] := by
  obtain ⟨before, codex, options, hwords, -⟩ := t.words_base
  rw [hwords]
  simp

/-- The segment that resumes a session. -/
def resumedSegment (sessionId : Text) : Text := Shlex.join (t.words ++ [resume, sessionId])

/-- The command that resumes a session. -/
def resumed (sessionId : Text) : Text := withPrefix t.shellPrefix (t.resumedSegment sessionId)

/-- The command that resumes none. -/
def bare : Text := withPrefix t.shellPrefix (Shlex.join t.words)

theorem not_mem_resumedSegment {sessionId : Text} (h : ';' ∉ sessionId) :
    ';' ∉ t.resumedSegment sessionId := by
  refine Shlex.not_mem_join (fun word hword => ?_) (by decide) (by decide) (by decide)
  rcases List.mem_append.mp hword with hword | hword
  · exact t.oneSegment word hword
  · rcases List.mem_pair.mp hword with rfl | rfl
    · decide
    · exact h

theorem splitLastShellSegment_resumed {sessionId : Text} (h : ';' ∉ sessionId) :
    splitLastShellSegment (t.resumed sessionId) = (t.shellPrefix, t.resumedSegment sessionId) := by
  have hsegment := stripped_join (t.words ++ [resume, sessionId])
  have hsplit := splitLastShellSegment_withPrefix t.shellPrefix_stripped hsegment
    (t.not_mem_resumedSegment h)
  rw [stripped_withPrefix t.shellPrefix_stripped hsegment (join_ne_nil (by simp))] at hsplit
  exact hsplit

theorem stripped_resumed (sessionId : Text) :
    stripped (t.resumed sessionId) = t.resumed sessionId :=
  stripped_withPrefix t.shellPrefix_stripped (stripped_join _) (join_ne_nil (by simp))

theorem stripped_bare : stripped t.bare = t.bare :=
  stripped_withPrefix t.shellPrefix_stripped (stripped_join _) (join_ne_nil t.words_ne_nil)

theorem splitLastShellSegment_bare :
    splitLastShellSegment t.bare = (t.shellPrefix, Shlex.join t.words) := by
  have hno : ';' ∉ Shlex.join t.words :=
    Shlex.not_mem_join t.oneSegment (by decide) (by decide) (by decide)
  rw [← t.stripped_bare]
  exact splitLastShellSegment_withPrefix t.shellPrefix_stripped (stripped_join _) hno

theorem codexWords_resumed (sessionId : Text) :
    codexWords (t.resumedSegment sessionId) = some t.words :=
  codexWords_join t.words_base (List.takeWhile_cons_of_neg (by simp))

theorem codexWords_bare : codexWords (Shlex.join t.words) = some t.words := by
  have h := @codexWords_join t.words [] t.words_base rfl
  rwa [List.append_nil] at h

theorem template_resumed {sessionId : Text} (h : ';' ∉ sessionId) :
    template (t.resumed sessionId) = t := by
  refine template_of_parts (t.resumedSegment sessionId) ?_ ?_
  · rw [t.stripped_resumed]
    exact t.splitLastShellSegment_resumed h
  · rw [t.codexWords_resumed]
    rfl

theorem template_bare : template t.bare = t := by
  refine template_of_parts (Shlex.join t.words) ?_ ?_
  · rw [t.stripped_bare]
    exact t.splitLastShellSegment_bare
  · rw [t.codexWords_bare]
    rfl

theorem withPrefix_ne_nil {shellPrefix segment : Text} (h : segment ≠ []) :
    withPrefix shellPrefix segment ≠ [] := by
  unfold withPrefix
  split_ifs
  · exact h
  · simp

theorem resumed_ne_nil (sessionId : Text) : t.resumed sessionId ≠ [] :=
  withPrefix_ne_nil (join_ne_nil (by simp))

theorem bare_ne_nil : t.bare ≠ [] := withPrefix_ne_nil (join_ne_nil t.words_ne_nil)

end Template

theorem bareResume_eq (sessionId : Text) :
    bareResume sessionId = Shlex.join (bareWords ++ [resume, sessionId]) := by
  have hcodex : Shlex.quote "codex".toList = "codex".toList := by decide
  have hresume : Shlex.quote resume = resume := by decide
  rw [bareWords, List.singleton_append, Shlex.join_cons, Shlex.join_cons, hcodex, hresume,
    Shlex.join, List.map_singleton, List.intercalate_singleton]
  rfl

/-- Building a command puts the session behind what the command keeps. -/
theorem buildResumeStartCmd_eq (command : Text) {sessionId : Text} (h : stripped sessionId ≠ []) :
    buildResumeStartCmd command sessionId = (template command).resumed (stripped sessionId) := by
  have hsegment : ∀ segment, (rewriteCodexSegment segment (stripped sessionId)).getD
      (bareResume (stripped sessionId)) =
      Shlex.join ((codexWords segment).getD bareWords ++ [resume, stripped sessionId]) := by
    intro segment
    unfold rewriteCodexSegment
    cases codexWords segment with
    | none => exact bareResume_eq _
    | some words => rfl
  unfold buildResumeStartCmd
  simp only [if_neg h]
  split_ifs with hempty
  · rw [bareResume_eq, Template.resumed, Template.resumedSegment, template]
    simp only [hempty]
    rfl
  · exact congrArg (withPrefix _) (hsegment _)

theorem stripResumeStartCmd_resumed (t : Template) {sessionId : Text} (h : ';' ∉ sessionId) :
    stripResumeStartCmd (t.resumed sessionId) = t.bare := by
  rw [stripResumeStartCmd, t.stripped_resumed]
  simp only [if_neg (t.resumed_ne_nil sessionId), t.splitLastShellSegment_resumed h,
    stripResumeFromCodexSegment, t.codexWords_resumed]
  rfl

theorem stripResumeStartCmd_bare (t : Template) : stripResumeStartCmd t.bare = t.bare := by
  rw [stripResumeStartCmd, t.stripped_bare]
  simp only [if_neg t.bare_ne_nil, t.splitLastShellSegment_bare, stripResumeFromCodexSegment,
    t.codexWords_bare]
  rfl

theorem template_stripResumeStartCmd (command : Text) :
    template (stripResumeStartCmd command) = template command := by
  by_cases hempty : stripped command = []
  · rw [← template_stripped command, hempty, stripResumeStartCmd]
    simp only [if_pos hempty]
  have hparts := @splitLastShellSegment_spec (stripped command) _ _ rfl
  have hstrip : stripResumeStartCmd command =
      withPrefix (splitLastShellSegment (stripped command)).1
        ((stripResumeFromCodexSegment (splitLastShellSegment (stripped command)).2).getD
          (splitLastShellSegment (stripped command)).2) := by
    rw [stripResumeStartCmd]
    simp only [if_neg hempty]
  cases hwords : codexWords (splitLastShellSegment (stripped command)).2 with
  | none =>
    rw [stripResumeFromCodexSegment, hwords, Option.map_none, Option.getD_none] at hstrip
    refine template_of_parts (splitLastShellSegment (stripped command)).2 ?_ rfl
    rw [hstrip]
    exact splitLastShellSegment_withPrefix hparts.1 hparts.2.1 hparts.2.2
  | some words =>
    have hbare : stripResumeStartCmd command = (template command).bare := by
      rw [hstrip, stripResumeFromCodexSegment, hwords]
      have hsame : (template command).words = words := by
        rw [template]
        simp only [hwords, Option.getD_some]
      rw [Template.bare, hsame]
      rfl
    rw [hbare, Template.template_bare]

/-- A rewriting of a command: to resume a session, or to resume none. -/
def rewritten (command : Text) : Option Text → Text
  | some sessionId => buildResumeStartCmd command sessionId
  | none => stripResumeStartCmd command

theorem template_rewritten (command : Text) {session : Option Text}
    (h : ∀ sessionId, session = some sessionId → ';' ∉ sessionId) :
    template (rewritten command session) = template command := by
  cases session with
  | none => exact template_stripResumeStartCmd command
  | some sessionId =>
    by_cases hblank : stripped sessionId = []
    · rw [rewritten, buildResumeStartCmd]
      simp only [if_pos hblank]
      exact template_stripped command
    · rw [rewritten, buildResumeStartCmd_eq command hblank]
      exact Template.template_resumed _ fun hmem => h sessionId rfl (mem_of_mem_stripped hmem)

theorem template_foldl_rewritten (command : Text) {sessions : List (Option Text)}
    (h : ∀ sessionId, some sessionId ∈ sessions → ';' ∉ sessionId) :
    template (sessions.foldl rewritten command) = template command := by
  induction sessions generalizing command with
  | nil => rfl
  | cons session sessions ih =>
    rw [List.foldl_cons, ih _ fun sessionId hmem => h sessionId (List.mem_cons_of_mem _ hmem)]
    exact template_rewritten command fun sessionId heq => h sessionId (heq ▸ List.mem_cons_self)

/-- However often a command has been rewritten before, the command that resumes a session is the
one that the first command would have given; without its session it is what it would be without
any other; and its last segment is read as the words that call Codex and the session. -/
theorem start_command_rewritten (command : Text) {sessions : List (Option Text)} {sessionId : Text}
    (hsessions : ∀ earlier, some earlier ∈ sessions → ';' ∉ earlier)
    (hblank : stripped sessionId ≠ []) (hone : ';' ∉ sessionId) :
    let current := buildResumeStartCmd (sessions.foldl rewritten command) sessionId
    current = buildResumeStartCmd command sessionId ∧
    (∀ other, stripped other ≠ [] → ';' ∉ other →
      stripResumeStartCmd current = stripResumeStartCmd (buildResumeStartCmd command other)) ∧
    ∃ segment, splitLastShellSegment current = ((template command).shellPrefix, segment) ∧
      Shlex.split segment = some ((template command).words ++ [resume, stripped sessionId]) := by
  have hid {other : Text} (h : ';' ∉ other) : ';' ∉ stripped other :=
    fun hmem => h (mem_of_mem_stripped hmem)
  have hcurrent : buildResumeStartCmd (sessions.foldl rewritten command) sessionId =
      (template command).resumed (stripped sessionId) := by
    rw [buildResumeStartCmd_eq _ hblank, template_foldl_rewritten command hsessions]
  intro current
  refine ⟨?_, fun other hother hno => ?_,
    (template command).resumedSegment (stripped sessionId), ?_, Shlex.split_join _⟩
  · rw [buildResumeStartCmd_eq command hblank]
    exact hcurrent
  · rw [buildResumeStartCmd_eq command hother, stripResumeStartCmd_resumed _ (hid hno)]
    exact (congrArg _ hcurrent).trans (stripResumeStartCmd_resumed _ (hid hone))
  · rw [← Template.splitLastShellSegment_resumed _ (hid hone)]
    exact congrArg _ hcurrent

theorem start_command_rewritten_thrice :
    let command := "export A=1; codex -c b resume old".toList
    let sessions := [some "new".toList, none, some "newer".toList]
    buildResumeStartCmd (sessions.foldl rewritten command) "last".toList =
      buildResumeStartCmd command "last".toList := by
  intro command sessions
  have hsessions : ∀ earlier, some earlier ∈ sessions → ';' ∉ earlier := by
    intro earlier hmem
    rcases List.mem_cons.mp hmem with h | hmem
    · rw [Option.some.inj h]
      decide
    rcases List.mem_cons.mp hmem with h | hmem
    · cases h
    · rw [Option.some.inj (List.mem_singleton.mp hmem)]
      decide
  exact (start_command_rewritten command hsessions (by decide) (by decide)).1

example : buildResumeStartCmd "export A=1; codex -c b resume old".toList "new".toList =
    "export A=1; codex -c b resume new".toList := by decide

/-! ### The session file, over a run -/

/-- What happens to a session file: Codex is seen with another log or session, or its sessions are
put away. -/
inductive Rebinding where
  | log (logPath sessionId : Option Text)
  | project (logPath sessionId : Text)
  | scrub
  deriving DecidableEq

/-- The session that is bound, if one is. -/
def Rebinding.sessionId : Rebinding → Text
  | .log _ sessionId => stored sessionId
  | .project _ sessionId => stripped sessionId
  | .scrub => []

/-- The command that a rebinding leaves. -/
def Template.after (t : Template) (command : Text) : Rebinding → Text
  | .scrub => t.bare
  | op => if op.sessionId = [] then command else t.resumed op.sessionId

namespace SessionData

def rebind (data : SessionData) : Rebinding → SessionData
  | .log logPath sessionId => data.updateCodexLogBinding logPath sessionId
  | .project logPath sessionId => data.updateProjectSessionBinding logPath sessionId
  | .scrub => data.scrubProjectSessionBinding

/-- Both commands of a session file are one that keeps what a template says. -/
structure Settled (t : Template) (command : Text) (data : SessionData) : Prop where
  startCmd : data.startCmd = some command
  codexStartCmd : data.codexStartCmd = some command
  form : command = t.bare ∨ ∃ sessionId, ';' ∉ sessionId ∧ command = t.resumed sessionId

variable {t : Template} {command : Text} {data : SessionData}

theorem persistResumeStartCmdFields_blank {sessionId : Text} (h : stripped sessionId = []) :
    data.persistResumeStartCmdFields sessionId = data := if_pos h

theorem persistResumeStartCmdFields_eq {sessionId : Text} (h : stripped sessionId ≠ []) :
    data.persistResumeStartCmdFields sessionId =
      { data with
        startCmd := some ((template data.resumeTemplateCommand).resumed (stripped sessionId))
        codexStartCmd :=
          some ((template data.resumeTemplateCommand).resumed (stripped sessionId)) } := by
  have hbuild : buildResumeStartCmd data.resumeTemplateCommand (stripped sessionId) =
      (template data.resumeTemplateCommand).resumed (stripped sessionId) := by
    have hne : stripped (stripped sessionId) ≠ [] := by rwa [stripped_stripped]
    rw [buildResumeStartCmd_eq _ hne, stripped_stripped]
  rw [persistResumeStartCmdFields, if_neg h, hbuild]

/-- Binding a log writes the commands as the session says, and nothing else of them. -/
theorem updateCodexLogBinding_commands (logPath sessionId : Option Text) :
    (data.updateCodexLogBinding logPath sessionId).startCmd =
      (data.persistResumeStartCmdFields (sessionId.getD [])).startCmd ∧
    (data.updateCodexLogBinding logPath sessionId).codexStartCmd =
      (data.persistResumeStartCmdFields (sessionId.getD [])).codexStartCmd := by
  unfold updateCodexLogBinding
  simp only
  split_ifs <;> exact ⟨rfl, rfl⟩

/-- Any binding of a session writes both commands, from the template of those before. -/
theorem rebind_bound {op : Rebinding} (h : op.sessionId ≠ []) :
    let command := (template data.resumeTemplateCommand).resumed op.sessionId
    (data.rebind op).startCmd = some command ∧ (data.rebind op).codexStartCmd = some command := by
  cases op with
  | log logPath sessionId =>
    obtain ⟨hstart, hcodex⟩ := @updateCodexLogBinding_commands data logPath sessionId
    rw [persistResumeStartCmdFields_eq h] at hstart hcodex
    exact ⟨hstart, hcodex⟩
  | project logPath sessionId =>
    rw [rebind, updateProjectSessionBinding, persistResumeStartCmdFields_eq h]
    exact ⟨rfl, rfl⟩
  | scrub => contradiction

theorem rebind_blank {op : Rebinding} (h : op.sessionId = []) (hscrub : op ≠ .scrub) :
    (data.rebind op).startCmd = data.startCmd ∧
      (data.rebind op).codexStartCmd = data.codexStartCmd := by
  cases op with
  | log logPath sessionId =>
    obtain ⟨hstart, hcodex⟩ := @updateCodexLogBinding_commands data logPath sessionId
    rw [persistResumeStartCmdFields_blank h] at hstart hcodex
    exact ⟨hstart, hcodex⟩
  | project logPath sessionId =>
    have hsame := @persistResumeStartCmdFields_blank (data.withSession logPath sessionId) _ h
    rw [rebind, updateProjectSessionBinding, hsame]
    exact ⟨rfl, rfl⟩
  | scrub => contradiction

namespace Settled

variable (h : Settled t command data)

include h

theorem command_ne_nil : command ≠ [] := by
  rcases h.form with rfl | ⟨sessionId, -, rfl⟩
  · exact t.bare_ne_nil
  · exact t.resumed_ne_nil sessionId

theorem stripped_command : stripped command = command := by
  rcases h.form with rfl | ⟨sessionId, -, rfl⟩
  · exact t.stripped_bare
  · exact t.stripped_resumed sessionId

theorem template_command : template command = t := by
  rcases h.form with rfl | ⟨sessionId, hno, rfl⟩
  · exact t.template_bare
  · exact t.template_resumed hno

theorem stored_startCmd : stored data.startCmd = command := by
  rw [h.startCmd]
  exact h.stripped_command

theorem stored_codexStartCmd : stored data.codexStartCmd = command := by
  rw [h.codexStartCmd]
  exact h.stripped_command

/-- Whichever of the two commands is taken for the template, it is the same. -/
theorem resumeTemplateCommand_eq : data.resumeTemplateCommand = command := by
  rw [resumeTemplateCommand, h.stored_startCmd, h.stored_codexStartCmd]
  simp only [if_pos h.command_ne_nil]
  exact ite_self _

theorem strip_command : stripResumeStartCmd command = t.bare := by
  rcases h.form with rfl | ⟨sessionId, hno, rfl⟩
  · exact stripResumeStartCmd_bare t
  · exact stripResumeStartCmd_resumed t hno

theorem scrubbed_command : scrubbed (some command) = some t.bare := by
  have hstored : stored (some command) = command := h.stripped_command
  rw [scrubbed, Option.getD_some, h.strip_command, hstored]
  split_ifs with hnew
  · rfl
  · have hsame : t.bare = command := by
      by_contra hne
      exact hnew ⟨t.bare_ne_nil, hne⟩
    rw [hsame]

/-- One rebinding leaves the command that the template says. -/
theorem rebind {op : Rebinding} (hop : ';' ∉ op.sessionId) :
    Settled t (t.after command op) (data.rebind op) := by
  by_cases hscrub : op = .scrub
  · subst hscrub
    exact ⟨(congrArg scrubbed h.startCmd).trans h.scrubbed_command,
      (congrArg scrubbed h.codexStartCmd).trans h.scrubbed_command, .inl rfl⟩
  have hafter : t.after command op =
      if op.sessionId = [] then command else t.resumed op.sessionId := by
    cases op with
    | scrub => exact absurd rfl hscrub
    | log logPath sessionId => rfl
    | project logPath sessionId => rfl
  rw [hafter]
  split_ifs with hblank
  · obtain ⟨hstart, hcodex⟩ := @rebind_blank data op hblank hscrub
    exact ⟨hstart.trans h.startCmd, hcodex.trans h.codexStartCmd, h.form⟩
  · obtain ⟨hstart, hcodex⟩ := @rebind_bound data op hblank
    rw [h.resumeTemplateCommand_eq, h.template_command] at hstart hcodex
    exact ⟨hstart, hcodex, .inr ⟨_, hop, rfl⟩⟩

theorem run {ops : List Rebinding} (hops : ∀ op ∈ ops, ';' ∉ op.sessionId) :
    Settled t (ops.foldl t.after command) (ops.foldl SessionData.rebind data) := by
  induction ops generalizing command data with
  | nil => exact h
  | cons op ops ih =>
    exact ih (h.rebind (hops op List.mem_cons_self)) fun later hmem =>
      hops later (List.mem_cons_of_mem op hmem)

end Settled

end SessionData

end CodexBridge.Providers.StartCommands
