import Mathlib.Data.List.Basic
import Mathlib.Tactic.Common

/-! POSIX paths as `pathlib` keeps them: a root and the parts below it. A path that is printed and
read again is the same path. -/

namespace CodexBridge.PosixPath

/-- Two slashes at the start of a path are kept, one or more than two count as one. -/
inductive Root where
  | relative | single | double
  deriving DecidableEq

def Root.str : Root → List Char
  | .relative => []
  | .single => ['/']
  | .double => ['/', '/']

def IsPart (part : List Char) : Prop := part ≠ [] ∧ part ≠ ['.'] ∧ '/' ∉ part

instance (part : List Char) : Decidable (IsPart part) := inferInstanceAs (Decidable (_ ∧ _ ∧ _))

@[ext]
structure Path where
  root : Root
  tail : List (List Char)
  parts : ∀ part ∈ tail, IsPart part
  deriving DecidableEq

/-- `str(path)` -/
def Path.str (p : Path) : List Char :=
  if p.root = .relative ∧ p.tail = [] then ['.'] else p.root.str ++ ['/'].intercalate p.tail

def parseRoot : List Char → Root
  | '/' :: '/' :: '/' :: _ => .single
  | '/' :: '/' :: _ => .double
  | '/' :: _ => .single
  | _ => .relative

/-- The parts of a text; empty ones and dots are dropped. -/
def parseTail (text : List Char) : List (List Char) :=
  (text.splitOn '/').filter fun part => part ≠ [] ∧ part ≠ ['.']

theorem not_mem_of_splitOn {text part : List Char} (h : part ∈ text.splitOn '/') : '/' ∉ part := by
  induction text generalizing part with
  | nil =>
    rw [List.splitOn_nil, List.mem_singleton] at h
    rw [h]
    exact List.not_mem_nil
  | cons c text ih =>
    rw [List.splitOn_cons_eq_if_modifyHead] at h
    split at h
    · rcases List.mem_cons.mp h with rfl | h
      · exact List.not_mem_nil
      · exact ih h
    · rename_i hc
      cases hparts : text.splitOn '/' with
      | nil => exact absurd hparts (List.splitOn_ne_nil _ _)
      | cons first rest =>
        rw [hparts] at h ih
        rcases List.mem_cons.mp h with rfl | h
        · refine List.not_mem_cons_of_ne_of_not_mem ?_ (ih List.mem_cons_self)
          rintro rfl
          exact hc (beq_self_eq_true _)
        · exact ih (List.mem_cons_of_mem _ h)

/-- `Path(text)` -/
def parse (text : List Char) : Path where
  root := parseRoot text
  tail := parseTail text
  parts part hpart := by
    obtain ⟨hmem, hkept⟩ := List.mem_filter.mp hpart
    obtain ⟨hne, hdot⟩ := of_decide_eq_true hkept
    exact ⟨hne, hdot, not_mem_of_splitOn hmem⟩

attribute [grind =] parseRoot

/-! ### Printing and reading -/

theorem parseTail_slash (text : List Char) : parseTail ('/' :: text) = parseTail text := by
  rw [parseTail, List.splitOn_cons_eq_if_modifyHead, if_pos (beq_self_eq_true _)]
  rfl

theorem parseTail_intercalate {tail : List (List Char)} (h : ∀ part ∈ tail, IsPart part) :
    parseTail (['/'].intercalate tail) = tail := by
  cases tail with
  | nil => rfl
  | cons part rest =>
    rw [parseTail, List.splitOn_intercalate '/' (fun part hpart => (h part hpart).2.2)
      (List.cons_ne_nil _ _), List.filter_eq_self]
    exact fun part hpart => decide_eq_true ⟨(h part hpart).1, (h part hpart).2.1⟩

/-- Parts do not begin with a slash. -/
theorem intercalate_head {tail : List (List Char)} (h : ∀ part ∈ tail, IsPart part) :
    ['/'].intercalate tail = [] ∨ ∃ c text, ['/'].intercalate tail = c :: text ∧ c ≠ '/' := by
  cases tail with
  | nil => exact .inl rfl
  | cons part rest =>
    obtain ⟨hne, -, hslash⟩ := h part List.mem_cons_self
    cases part with
    | nil => exact absurd rfl hne
    | cons c part =>
      have hc : c ≠ '/' := (List.ne_of_not_mem_cons hslash).symm
      cases rest with
      | nil => exact .inr ⟨c, part, by simp [List.intercalate], hc⟩
      | cons part' rest =>
        exact .inr ⟨c, part ++ '/' :: ['/'].intercalate (part' :: rest),
          by simp [List.intercalate, List.intersperse], hc⟩

theorem parseRoot_relative {c : Char} (h : c ≠ '/') (text : List Char) :
    parseRoot (c :: text) = .relative := by
  rw [parseRoot]
  all_goals simp_all

theorem parseRoot_single {c : Char} (h : c ≠ '/') (text : List Char) :
    parseRoot ('/' :: c :: text) = .single := by
  rw [parseRoot]
  all_goals simp_all

theorem parseRoot_double {c : Char} (h : c ≠ '/') (text : List Char) :
    parseRoot ('/' :: '/' :: c :: text) = .double := by
  rw [parseRoot]
  all_goals simp_all

/-- A path is read back. -/
theorem parse_str (p : Path) : parse p.str = p := by
  obtain ⟨root, tail, hparts⟩ := p
  have htail := parseTail_intercalate hparts
  cases root with
  | relative =>
    rcases intercalate_head hparts with hnil | ⟨c, text, htext, hc⟩
    · have hempty : tail = [] := by
        rw [← htail, hnil]
        rfl
      subst hempty
      rfl
    · have hne : tail ≠ [] := by
        rintro rfl
        cases htext
      have hstr : Path.str ⟨.relative, tail, hparts⟩ = ['/'].intercalate tail := by
        rw [Path.str, if_neg fun h => hne h.2]
        rfl
      refine Path.ext ?_ ?_
      · rw [parse, hstr, htext]
        exact parseRoot_relative hc text
      · rw [parse, hstr]
        exact htail
  | single =>
    have hstr : Path.str ⟨.single, tail, hparts⟩ = '/' :: ['/'].intercalate tail := rfl
    refine Path.ext ?_ ?_
    · rw [parse, hstr]
      rcases intercalate_head hparts with hnil | ⟨c, text, htext, hc⟩
      · rw [hnil]
        rfl
      · rw [htext]
        exact parseRoot_single hc text
    · rw [parse, hstr]
      exact (parseTail_slash _).trans htail
  | double =>
    have hstr : Path.str ⟨.double, tail, hparts⟩ = '/' :: '/' :: ['/'].intercalate tail := rfl
    refine Path.ext ?_ ?_
    · rw [parse, hstr]
      rcases intercalate_head hparts with hnil | ⟨c, text, htext, hc⟩
      · rw [hnil]
        rfl
      · rw [htext]
        exact parseRoot_double hc text
    · rw [parse, hstr]
      exact (parseTail_slash _).trans ((parseTail_slash _).trans htail)

theorem str_ne_nil (p : Path) : p.str ≠ [] := by
  intro h
  have hempty : p = parse [] := by rw [← h, parse_str]
  rw [hempty] at h
  exact absurd h (by decide)

/-! ### Home directories -/

/-- The path of some parts below another path. -/
def Path.below (p : Path) (tail : List (List Char)) (h : ∀ part ∈ tail, IsPart part) : Path :=
  ⟨p.root, p.tail ++ tail, List.forall_mem_append.mpr ⟨p.parts, h⟩⟩

/-- `path.expanduser()`, where `userHome` gives the home that a first part such as `~` or `~user`
stands for, or the part itself where there is none. -/
def expanduser (userHome : List Char → List Char) (p : Path) : Option Path :=
  match p with
  | ⟨.relative, first :: rest, parts⟩ =>
    if first.head? ≠ some '~' then some p
    else if (userHome first).head? = some '~' then none
    else some ((parse (userHome first)).below rest (List.forall_mem_cons.mp parts).2)
  | _ => some p

example : (expanduser (fun _ => "/home/u".toList) (parse "~/a//./b/".toList)).map Path.str =
    some "/home/u/a/b".toList := by
  decide +kernel

end CodexBridge.PosixPath
