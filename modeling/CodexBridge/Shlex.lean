import Mathlib.Data.List.Basic
import Mathlib.Tactic.Common

/-! Words of a POSIX shell, as `shlex` splits a text into them and quotes them. A text is split
at blanks that are neither quoted nor escaped; words that are quoted and joined by blanks are
split into themselves again. -/

namespace CodexBridge.Shlex

/-- Where a reader stands: between words, in a word, between quotes, or behind an escape, in a
word or between quotes. -/
inductive Place where
  | outside | word
  | quoted (mark : Char)
  | escaped (inside : Option Char)

def isBlank (c : Char) : Bool := c = ' ' || c = '\t' || c = '\r' || c = '\n'

def isQuote (c : Char) : Bool := c = '\'' || c = '"'

/-- A word that has been read in reverse, if there is one. -/
def ended (token : List Char) (quoted : Bool) : List (List Char) :=
  if token.isEmpty && !quoted then [] else [token.reverse]

/-- The words from a place in a text on, behind what has been read of a word and whether any of
it was quoted. Quotes that are not closed and an escape of nothing are refused. -/
def read : Place → List Char → Bool → List Char → Option (List (List Char))
  | .outside, token, quoted, [] => some (ended token quoted)
  | .outside, token, quoted, c :: cs =>
    if isBlank c then (read .outside [] false cs).map (ended token quoted ++ ·)
    else if c = '\\' then read (.escaped none) token quoted cs
    else if isQuote c then read (.quoted c) token quoted cs
    else read .word (c :: token) quoted cs
  | .word, token, quoted, [] => some (ended token quoted)
  | .word, token, quoted, c :: cs =>
    if isBlank c then (read .outside [] false cs).map (ended token quoted ++ ·)
    else if isQuote c then read (.quoted c) token quoted cs
    else if c = '\\' then read (.escaped none) token quoted cs
    else read .word (c :: token) quoted cs
  | .quoted _, _, _, [] => none
  | .quoted mark, token, _, c :: cs =>
    if c = mark then read .word token true cs
    else if c = '\\' && mark = '"' then read (.escaped (some mark)) token true cs
    else read (.quoted mark) (c :: token) true cs
  | .escaped _, _, _, [] => none
  | .escaped none, token, quoted, c :: cs => read .word (c :: token) quoted cs
  | .escaped (some mark), token, quoted, c :: cs =>
    -- between quotes only the quote and the escape itself are escaped
    if c = '\\' || c = mark then read (.quoted mark) (c :: token) quoted cs
    else read (.quoted mark) (c :: '\\' :: token) quoted cs

/-- `shlex.split` -/
def split (text : List Char) : Option (List (List Char)) := read .outside [] false text

/-- The characters that need no quotes. -/
def isSafe (c : Char) : Bool :=
  (65 ≤ c.toNat && c.toNat ≤ 90) || (97 ≤ c.toNat && c.toNat ≤ 122) ||
    (48 ≤ c.toNat && c.toNat ≤ 57) || c ∈ ['_', '@', '%', '+', '=', ':', ',', '.', '/', '-']

/-- A character between single quotes; a single quote stands between double quotes. -/
def quoteChar (c : Char) : List Char := if c = '\'' then ['\'', '"', '\'', '"', '\''] else [c]

/-- `shlex.quote` -/
def quote (token : List Char) : List Char :=
  if token = [] then ['\'', '\'']
  else if token.all isSafe then token
  else '\'' :: (token.flatMap quoteChar ++ ['\''])

def join (tokens : List (List Char)) : List Char := [' '].intercalate (tokens.map quote)

attribute [grind =] read

example : split "a\\ b '' \"c'd\"e".toList = some ["a b".toList, [], "c'de".toList] := by decide

example : split "'".toList = none := by decide

/-! ### Characters -/

theorem isSafe_spec {c : Char} (h : isSafe c = true) :
    isBlank c = false ∧ isQuote c = false ∧ c ≠ '\\' ∧ c ≠ ';' := by
  have hno {d : Char} (hd : isSafe d = false) : c ≠ d := by
    rintro rfl
    rw [h] at hd
    contradiction
  have hblank : c ≠ ' ' ∧ c ≠ '\t' ∧ c ≠ '\r' ∧ c ≠ '\n' :=
    ⟨hno (by decide), hno (by decide), hno (by decide), hno (by decide)⟩
  have hquote : c ≠ '\'' ∧ c ≠ '"' := ⟨hno (by decide), hno (by decide)⟩
  refine ⟨?_, ?_, hno (by decide), hno (by decide)⟩
  · simp [isBlank, hblank]
  · simp [isQuote, hquote]

/-! ### Reading what is quoted -/

variable {token : List Char} {quoted : Bool} {rest : List Char}

theorem read_safe {text : List Char} (h : ∀ c ∈ text, isSafe c = true) :
    read .word token quoted (text ++ rest) = read .word (text.reverse ++ token) quoted rest := by
  induction text generalizing token with
  | nil => rfl
  | cons c text ih =>
    obtain ⟨hblank, hquote, hescape, -⟩ := isSafe_spec (h c List.mem_cons_self)
    rw [List.cons_append, read, if_neg (by simp [hblank]), if_neg (by simp [hquote]),
      if_neg hescape, ih fun x hx => h x (List.mem_cons_of_mem c hx)]
    simp

/-- The body of a quoted word, with the quote that closes it. -/
theorem read_quoted (text : List Char) :
    read (.quoted '\'') token quoted (text.flatMap quoteChar ++ '\'' :: rest) =
      read .word (text.reverse ++ token) true rest := by
  induction text generalizing token quoted with
  | nil => simp [read]
  | cons c text ih =>
    rw [List.flatMap_cons, List.append_assoc]
    by_cases hc : c = '\''
    · subst hc
      have hfive : read (.quoted '\'') token quoted
          (quoteChar '\'' ++ (text.flatMap quoteChar ++ '\'' :: rest)) =
          read (.quoted '\'') ('\'' :: token) true (text.flatMap quoteChar ++ '\'' :: rest) := by
        simp [quoteChar, read, isBlank, isQuote]
      rw [hfive, ih]
      simp
    · rw [quoteChar, if_neg hc, List.singleton_append, read, if_neg hc, if_neg (by simp), ih]
      simp

/-- A quoted word is read whole. -/
theorem read_quote (word : List Char) :
    ∃ quoted, read .outside [] false (quote word ++ rest) = read .word word.reverse quoted rest ∧
      ended word.reverse quoted = [word] := by
  unfold quote
  split_ifs with hempty hsafe
  · subst hempty
    refine ⟨true, ?_, rfl⟩
    simp [read, isBlank, isQuote]
  · refine ⟨false, ?_, by simp [ended, hempty]⟩
    cases word with
    | nil => contradiction
    | cons c word =>
      rw [List.all_eq_true] at hsafe
      obtain ⟨hblank, hquote, hescape, -⟩ := isSafe_spec (hsafe c List.mem_cons_self)
      rw [List.cons_append, read, if_neg (by simp [hblank]), if_neg hescape,
        if_neg (by simp [hquote]), read_safe fun x hx => hsafe x (List.mem_cons_of_mem c hx),
        List.reverse_cons]
  · refine ⟨true, ?_, by simp [ended]⟩
    rw [List.cons_append, List.append_assoc, List.singleton_append, read,
      if_neg (by simp [isBlank]), if_neg (by simp), if_pos (by simp [isQuote]), read_quoted,
      List.append_nil]

theorem join_cons (word next : List Char) (tokens : List (List Char)) :
    join (word :: next :: tokens) = quote word ++ ' ' :: join (next :: tokens) := by
  simp [join, List.intercalate]

/-- Words that are quoted and joined are split again. -/
theorem split_join (tokens : List (List Char)) : split (join tokens) = some tokens := by
  induction tokens with
  | nil => rfl
  | cons word tokens ih =>
    cases tokens with
    | nil =>
      obtain ⟨quoted, hread, hended⟩ := @read_quote [] word
      rw [join, List.map_singleton, List.intercalate_singleton, split]
      rw [List.append_nil] at hread
      rw [hread, read, hended]
    | cons next tokens =>
      obtain ⟨quoted, hread, hended⟩ :=
        @read_quote (' ' :: join (next :: tokens)) word
      rw [join_cons, split, hread, read, if_pos (by simp [isBlank]), hended]
      rw [split] at ih
      rw [ih]
      rfl

/-! ### Characters of words -/

theorem mem_ended {word : List Char} (h : word ∈ ended token quoted) : word = token.reverse := by
  unfold ended at h
  split_ifs at h
  · contradiction
  · exact List.mem_singleton.mp h

/-- Words have no characters but those of the text, and backslashes. -/
theorem mem_read {place : Place} {text : List Char} {tokens : List (List Char)}
    (h : read place token quoted text = some tokens) {word : List Char} (hword : word ∈ tokens)
    {x : Char} (hx : x ∈ word) : x = '\\' ∨ x ∈ token ∨ x ∈ text := by
  induction text generalizing place token quoted tokens with
  | nil =>
    have hlast : ∀ ts, some (ended token quoted) = some ts → word ∈ ts → x ∈ token := by
      rintro _ ⟨⟩ hw
      rw [mem_ended hw] at hx
      exact List.mem_reverse.mp hx
    cases place with
    | outside => exact .inr (.inl (hlast _ h hword))
    | word => exact .inr (.inl (hlast _ h hword))
    | quoted mark => contradiction
    | escaped inside => cases inside <;> contradiction
  | cons c text ih =>
    have hnext : ∀ {place quoted tokens}, read place token quoted text = some tokens →
        word ∈ tokens → x = '\\' ∨ x ∈ token ∨ x ∈ c :: text := by
      intro place quoted tokens hread hw
      rcases ih hread hw with hx | hx | hx
      · exact .inl hx
      · exact .inr (.inl hx)
      · exact .inr (.inr (List.mem_cons_of_mem c hx))
    have htake : ∀ {place quoted tokens}, read place (c :: token) quoted text = some tokens →
        word ∈ tokens → x = '\\' ∨ x ∈ token ∨ x ∈ c :: text := by
      intro place quoted tokens hread hw
      rcases ih hread hw with hx | hx | hx
      · exact .inl hx
      · rcases List.mem_cons.mp hx with rfl | hx
        · exact .inr (.inr List.mem_cons_self)
        · exact .inr (.inl hx)
      · exact .inr (.inr (List.mem_cons_of_mem c hx))
    have hblank : (read .outside [] false text).map (ended token quoted ++ ·) = some tokens →
        x = '\\' ∨ x ∈ token ∨ x ∈ c :: text := by
      intro hread
      obtain ⟨later, hlater, rfl⟩ := Option.map_eq_some_iff.mp hread
      rcases List.mem_append.mp hword with hw | hw
      · rw [mem_ended hw] at hx
        exact .inr (.inl (List.mem_reverse.mp hx))
      · rcases ih hlater hw with hx | hx | hx
        · exact .inl hx
        · contradiction
        · exact .inr (.inr (List.mem_cons_of_mem c hx))
    cases place with
    | outside =>
      rw [read] at h
      split_ifs at h
      · exact hblank h
      · exact hnext h hword
      · exact hnext h hword
      · exact htake h hword
    | word =>
      rw [read] at h
      split_ifs at h
      · exact hblank h
      · exact hnext h hword
      · exact hnext h hword
      · exact htake h hword
    | quoted mark =>
      rw [read] at h
      split_ifs at h
      · exact hnext h hword
      · exact hnext h hword
      · exact htake h hword
    | escaped inside =>
      cases inside with
      | none => exact htake h hword
      | some mark =>
        rw [read] at h
        split_ifs at h
        · exact htake h hword
        · rcases ih h hword with hx | hx | hx
          · exact .inl hx
          · rcases List.mem_cons.mp hx with rfl | hx
            · exact .inr (.inr List.mem_cons_self)
            · rcases List.mem_cons.mp hx with rfl | hx
              · exact .inl rfl
              · exact .inr (.inl hx)
          · exact .inr (.inr (List.mem_cons_of_mem c hx))

/-- A character that a text does not have, its words do not have. -/
theorem not_mem_split {text : List Char} {tokens : List (List Char)} (h : split text = some tokens)
    {x : Char} (hx : x ≠ '\\') (hno : x ∉ text) {word : List Char} (hword : word ∈ tokens) :
    x ∉ word := by
  intro hmem
  rcases mem_read h hword hmem with heq | hnil | htext
  · exact hx heq
  · contradiction
  · exact hno htext

theorem mem_quote {word : List Char} {x : Char} (hx : x ∈ quote word) :
    x ∈ word ∨ x = '\'' ∨ x = '"' := by
  unfold quote at hx
  split_ifs at hx
  · right
    left
    simpa using hx
  · exact .inl hx
  · rcases List.mem_cons.mp hx with rfl | hx
    · exact .inr (.inl rfl)
    rcases List.mem_append.mp hx with hx | hx
    · obtain ⟨c, hc, hx⟩ := List.mem_flatMap.mp hx
      unfold quoteChar at hx
      split_ifs at hx
      · right
        simp only [List.mem_cons, List.not_mem_nil, or_false] at hx
        rcases hx with rfl | rfl | rfl | rfl | rfl <;> simp
      · rw [List.mem_singleton.mp hx]
        exact .inl hc
    · exact .inr (.inl (List.mem_singleton.mp hx))

/-- A character that words do not have, their text has only where it joins or quotes them. -/
theorem not_mem_join {tokens : List (List Char)} {x : Char} (h : ∀ word ∈ tokens, x ∉ word)
    (hspace : x ≠ ' ') (hsingle : x ≠ '\'') (hdouble : x ≠ '"') : x ∉ join tokens := by
  induction tokens with
  | nil => exact List.not_mem_nil
  | cons word tokens ih =>
    have hquote : x ∉ quote word := by
      intro hx
      rcases mem_quote hx with hx | hx | hx
      · exact h word List.mem_cons_self hx
      · exact hsingle hx
      · exact hdouble hx
    cases tokens with
    | nil => simpa [join] using hquote
    | cons next tokens =>
      rw [join_cons, List.mem_append, List.mem_cons, not_or, not_or]
      exact ⟨hquote, hspace, ih fun w hw => h w (List.mem_cons_of_mem word hw)⟩

/-! ### The ends of a text of words -/

/-- What a quoted word begins and ends with. -/
def isEdge (c : Char) : Bool := isSafe c || c = '\''

theorem quote_head (word : List Char) : ∃ c cs, quote word = c :: cs ∧ isEdge c = true := by
  unfold quote
  split_ifs with hempty hsafe
  · exact ⟨'\'', ['\''], rfl, by decide⟩
  · cases word with
    | nil => contradiction
    | cons c word =>
      have hc := List.all_eq_true.mp hsafe c List.mem_cons_self
      exact ⟨c, word, rfl, by rw [isEdge, hc, Bool.true_or]⟩
  · exact ⟨'\'', _, rfl, by decide⟩

theorem quote_last (word : List Char) : ∃ cs c, quote word = cs ++ [c] ∧ isEdge c = true := by
  unfold quote
  split_ifs with hempty hsafe
  · exact ⟨['\''], '\'', rfl, by decide⟩
  · have hword := List.dropLast_append_getLast hempty
    have hc := List.all_eq_true.mp hsafe _ (List.getLast_mem hempty)
    exact ⟨_, _, hword.symm, by rw [isEdge, hc, Bool.true_or]⟩
  · exact ⟨_, '\'', (List.cons_append ..).symm, by decide⟩

theorem join_head {tokens : List (List Char)} (h : tokens ≠ []) :
    ∃ c cs, join tokens = c :: cs ∧ isEdge c = true := by
  cases tokens with
  | nil => contradiction
  | cons word tokens =>
    obtain ⟨c, cs, hword, hc⟩ := quote_head word
    cases tokens with
    | nil => exact ⟨c, cs, by simp [join, hword], hc⟩
    | cons next tokens => exact ⟨c, _, by rw [join_cons, hword, List.cons_append], hc⟩

theorem join_last {tokens : List (List Char)} (h : tokens ≠ []) :
    ∃ cs c, join tokens = cs ++ [c] ∧ isEdge c = true := by
  induction tokens with
  | nil => contradiction
  | cons word tokens ih =>
    cases tokens with
    | nil =>
      obtain ⟨cs, c, hword, hc⟩ := quote_last word
      exact ⟨cs, c, by simp [join, hword], hc⟩
    | cons next tokens =>
      obtain ⟨cs, c, hlater, hc⟩ := ih (List.cons_ne_nil _ _)
      exact ⟨quote word ++ ' ' :: cs, c, by rw [join_cons, hlater]; simp, hc⟩

end CodexBridge.Shlex
