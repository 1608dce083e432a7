import Mathlib.Data.List.Basic
import Mathlib.Data.Char
import CodexBridge.AppendLog

/-! JSON texts: the encoder that keeps non-ASCII characters, and the decoder. Encoding a
valid value and decoding the text gives the value back, and the text has no line break. A
number is kept as its literal. -/

namespace CodexBridge.Json

inductive Value where
  | null
  | bool (b : Bool)
  | num (literal : List Char)
  | str (s : String)
  | arr (items : List Value)
  | obj (fields : List (String × Value))

/-! ### Encoding -/

/-- A lower-case hexadecimal digit. -/
def hexDigit (n : ℕ) : Char := if n < 10 then Char.ofNat (48 + n) else Char.ofNat (87 + n)

/-- Quotes, backslashes and control characters are escaped. -/
def escape (c : Char) : List Char :=
  if c = '"' then ['\\', '"']
  else if c = '\\' then ['\\', '\\']
  else if c = '\n' then ['\\', 'n']
  else if c = '\r' then ['\\', 'r']
  else if c = '\t' then ['\\', 't']
  else if c = '\x0c' then ['\\', 'f']
  else if c = '\x08' then ['\\', 'b']
  else if c.toNat < 32 then ['\\', 'u', '0', '0', hexDigit (c.toNat / 16), hexDigit (c.toNat % 16)]
  else [c]

def quote (s : String) : List Char := '"' :: (s.toList.flatMap escape ++ ['"'])

mutual

def Value.dumps : Value → List Char
  | .null => ['n', 'u', 'l', 'l']
  | .bool true => ['t', 'r', 'u', 'e']
  | .bool false => ['f', 'a', 'l', 's', 'e']
  | .num literal => literal
  | .str s => quote s
  | .arr items => '[' :: dumpsItems items
  | .obj fields => '{' :: dumpsFields fields

/-- The rest of an array after its bracket. -/
def dumpsItems : List Value → List Char
  | [] => [']']
  | [v] => v.dumps ++ [']']
  | v :: w :: vs => v.dumps ++ ',' :: ' ' :: dumpsItems (w :: vs)

/-- The rest of an object after its brace. -/
def dumpsFields : List (String × Value) → List Char
  | [] => ['}']
  | [(k, v)] => quote k ++ ':' :: ' ' :: (v.dumps ++ ['}'])
  | (k, v) :: f :: fs => quote k ++ ':' :: ' ' :: (v.dumps ++ ',' :: ' ' :: dumpsFields (f :: fs))

end

/-! ### Decoding -/

def hexVal (c : Char) : Option ℕ :=
  let n := c.toNat
  if 48 ≤ n ∧ n ≤ 57 then some (n - 48)
  else if 97 ≤ n ∧ n ≤ 102 then some (n - 87)
  else if 65 ≤ n ∧ n ≤ 70 then some (n - 55)
  else none

/-- The character of four hexadecimal digits. Surrogates are refused. -/
def codeUnit (a b c d : Char) : Option Char := do
  let n := ((← hexVal a) * 16 + (← hexVal b)) * 256 + (← hexVal c) * 16 + (← hexVal d)
  if n < 0xd800 ∨ 0xdfff < n then some (Char.ofNat n) else none

def unescape (c : Char) : Option Char :=
  if c = '"' ∨ c = '\\' ∨ c = '/' then some c
  else if c = 'n' then some '\n'
  else if c = 'r' then some '\r'
  else if c = 't' then some '\t'
  else if c = 'f' then some '\x0c'
  else if c = 'b' then some '\x08'
  else none

/-- The rest of a string after its opening quote, and what follows it. -/
def unquote : List Char → Option (List Char × List Char)
  | [] => none
  | '\\' :: 'u' :: a :: b :: c :: d :: cs =>
    (codeUnit a b c d).bind fun x => (unquote cs).map fun p => (x :: p.1, p.2)
  | '\\' :: e :: cs => (unescape e).bind fun x => (unquote cs).map fun p => (x :: p.1, p.2)
  | c :: cs =>
    if c = '"' then some ([], cs)
    else if c = '\\' ∨ c.toNat < 32 then none
    else (unquote cs).map fun p => (c :: p.1, p.2)

def isDigit (c : Char) : Bool := 48 ≤ c.toNat && c.toNat ≤ 57

/-- The digits at the start of a text, and the rest. -/
def digits (cs : List Char) : List Char × List Char := (cs.takeWhile isDigit, cs.dropWhile isDigit)

/-- The integer part of a number, without its sign. -/
def whole : List Char → Option (List Char × List Char)
  | [] => none
  | c :: cs =>
    if c = '0' then some ([c], cs) else if isDigit c then some (digits (c :: cs)) else none

/-- A fraction, if there is one. -/
def fraction : List Char → List Char × List Char
  | [] => ([], [])
  | c :: cs =>
    if c = '.' ∧ cs.head?.any isDigit then (c :: (digits cs).1, (digits cs).2) else ([], c :: cs)

def sign : List Char → List Char × List Char
  | [] => ([], [])
  | c :: cs => if c = '+' ∨ c = '-' then ([c], cs) else ([], c :: cs)

/-- An exponent, if there is one. -/
def exponent : List Char → List Char × List Char
  | [] => ([], [])
  | c :: cs =>
    if (c = 'e' ∨ c = 'E') ∧ (sign cs).2.head?.any isDigit then
      (c :: ((sign cs).1 ++ (digits (sign cs).2).1), (digits (sign cs).2).2)
    else ([], c :: cs)

/-- A number without its sign. -/
def magnitude (cs : List Char) : Option (List Char × List Char) :=
  (whole cs).map fun w =>
    let f := fraction w.2
    let e := exponent f.2
    (w.1 ++ f.1 ++ e.1, e.2)

/-- The literals of the numbers that are not finite. -/
def special : List Char → Option (List Char × List Char)
  | 'N' :: 'a' :: 'N' :: cs => some (['N', 'a', 'N'], cs)
  | 'I' :: 'n' :: 'f' :: 'i' :: 'n' :: 'i' :: 't' :: 'y' :: cs =>
    some (['I', 'n', 'f', 'i', 'n', 'i', 't', 'y'], cs)
  | _ => none

/-- The literal at the start of a text. -/
def number : List Char → Option (List Char × List Char)
  | [] => none
  | c :: cs =>
    if c = '-' then
      ((magnitude cs).or ((special cs).filter fun p => p.1.head? = some 'I')).map fun p =>
        (c :: p.1, p.2)
    else (magnitude (c :: cs)).or (special (c :: cs))

def constant : List Char → Option (Value × List Char)
  | 'n' :: 'u' :: 'l' :: 'l' :: cs => some (.null, cs)
  | 't' :: 'r' :: 'u' :: 'e' :: cs => some (.bool true, cs)
  | 'f' :: 'a' :: 'l' :: 's' :: 'e' :: cs => some (.bool false, cs)
  | _ => none

def isBlank (c : Char) : Bool := c = ' ' || c = '\t' || c = '\n' || c = '\r'

def skip (cs : List Char) : List Char := cs.dropWhile isBlank

/-- The fields of an object: a later field overwrites an earlier one of its name. -/
def fieldsOf (fields : List (String × Value)) : List (String × Value) :=
  AppendLog.latest Prod.fst fields

mutual

def value : ℕ → List Char → Option (Value × List Char)
  | 0, _ => none
  | _ + 1, [] => none
  | fuel + 1, c :: cs =>
    if c = '"' then (unquote cs).map fun p => (.str (String.ofList p.1), p.2)
    else if c = '[' then
      match skip cs with
      | ']' :: rest => some (.arr [], rest)
      | cs => (items fuel cs).map fun p => (.arr p.1, p.2)
    else if c = '{' then
      match skip cs with
      | '}' :: rest => some (.obj [], rest)
      | cs => (fields fuel cs).map fun p => (.obj (fieldsOf p.1), p.2)
    else (constant (c :: cs)).or ((number (c :: cs)).map fun p => (.num p.1, p.2))

/-- The items of an array up to its closing bracket. -/
def items : ℕ → List Char → Option (List Value × List Char)
  | 0, _ => none
  | fuel + 1, cs =>
    (value fuel cs).bind fun (v, rest) =>
      match skip rest with
      | ']' :: rest => some ([v], rest)
      | ',' :: rest => (items fuel (skip rest)).map fun p => (v :: p.1, p.2)
      | _ => none

/-- The fields of an object up to its closing brace. -/
def fields : ℕ → List Char → Option (List (String × Value) × List Char)
  | 0, _ => none
  | fuel + 1, cs =>
    match cs with
    | '"' :: cs =>
      (unquote cs).bind fun (k, rest) =>
        match skip rest with
        | ':' :: rest =>
          (value fuel (skip rest)).bind fun (v, rest) =>
            match skip rest with
            | '}' :: rest => some ([(String.ofList k, v)], rest)
            | ',' :: rest =>
              (fields fuel (skip rest)).map fun p => ((String.ofList k, v) :: p.1, p.2)
            | _ => none
        | _ => none
    | _ => none

end

/-- The value of a text, with nothing behind it. A value takes up at least one character
for each turn of the decoder. -/
def loads (cs : List Char) : Option Value :=
  (value (cs.length + 1) (skip cs)).bind fun p => if (skip p.2).isEmpty then some p.1 else none

attribute [grind =] unquote value items fields

/-! ### Strings -/

theorem hexVal_hexDigit : ∀ n < 16, hexVal (hexDigit n) = some n := by decide

theorem unquote_escape (c : Char) (cs : List Char) :
    unquote (escape c ++ cs) = (unquote cs).map fun p => (c :: p.1, p.2) := by
  unfold escape
  split_ifs with hq hb hn hr ht hf hbs hctl
  · subst hq; simp [unquote, unescape]
  · subst hb; simp [unquote, unescape]
  · subst hn; simp [unquote, unescape]
  · subst hr; simp [unquote, unescape]
  · subst ht; simp [unquote, unescape]
  · subst hf; simp [unquote, unescape]
  · subst hbs; simp [unquote, unescape]
  · have hlow := hexVal_hexDigit (c.toNat % 16) (Nat.mod_lt _ (by decide))
    have hhigh := hexVal_hexDigit (c.toNat / 16) (by omega)
    have hzero : hexVal '0' = some 0 := by decide
    have hunit : codeUnit '0' '0' (hexDigit (c.toNat / 16)) (hexDigit (c.toNat % 16)) =
        some c := by
      have hn : (0 * 16 + 0) * 256 + c.toNat / 16 * 16 + c.toNat % 16 = c.toNat := by omega
      simp only [codeUnit, hzero, hhigh, hlow, Option.bind_eq_bind,
        Option.bind_some, hn]
      rw [if_pos (.inl (by omega)), Char.ofNat_toNat]
    simp only [List.cons_append, List.nil_append, unquote, hunit, Option.bind_some]
  · rw [List.singleton_append, unquote.eq_def]
    split
    · contradiction
    · rename_i heq
      exact absurd (List.cons.inj heq).1 hb
    · rename_i heq
      exact absurd (List.cons.inj heq).1 hb
    · rename_i heq
      obtain ⟨rfl, rfl⟩ := List.cons.inj heq
      rw [if_neg hq, if_neg (by simp [hb, hctl])]

theorem unquote_quoted (cs rest : List Char) :
    unquote (cs.flatMap escape ++ '"' :: rest) = some (cs, rest) := by
  induction cs with
  | nil => simp [unquote]
  | cons c cs ih => rw [List.flatMap_cons, List.append_assoc, unquote_escape, ih]; rfl

/-! ### Numbers -/

/-- A character that can go on a number. -/
def numeric (c : Char) : Bool := isDigit c || c = '.' || c = 'e' || c = 'E' || c = '+' || c = '-'

/-- No number goes on in the text. -/
def Ends (cs : List Char) : Prop := cs.head?.any numeric = false

theorem Ends.nil : Ends [] := rfl

theorem Ends.cons {c : Char} (h : numeric c = false) (cs : List Char) : Ends (c :: cs) := h

theorem Ends.head_ne {c x : Char} {cs : List Char} (h : Ends (c :: cs)) (hx : numeric x = true) :
    c ≠ x := by
  rintro rfl
  have hc : numeric c = false := h
  rw [hx] at hc
  contradiction

section Ends
variable {tail : List Char} (h : Ends tail)

include h in
theorem Ends.any_isDigit (cs : List Char) :
    (cs ++ tail).head?.any isDigit = cs.head?.any isDigit := by
  cases cs with
  | cons c cs => rfl
  | nil =>
    cases tail with
    | nil => rfl
    | cons c tail =>
      have hc : numeric c = false := h
      simp only [numeric, Bool.or_eq_false_iff] at hc
      simp [hc.1.1.1.1.1]

include h in
theorem Ends.digits (cs : List Char) :
    digits (cs ++ tail) = ((digits cs).1, (digits cs).2 ++ tail) := by
  induction cs with
  | nil =>
    have hd := h.any_isDigit []
    cases tail with
    | nil => rfl
    | cons c tail =>
      have hc : isDigit c = false := by simpa using hd
      simp [Json.digits, hc]
  | cons c cs ih =>
    by_cases hc : isDigit c = true
    · simp only [Json.digits, Prod.mk.injEq] at ih
      simp [Json.digits, hc, ih.1, ih.2]
    · simp [Json.digits, hc]

include h in
theorem Ends.whole {cs : List Char} {p : List Char × List Char} (hp : whole cs = some p) :
    whole (cs ++ tail) = some (p.1, p.2 ++ tail) := by
  cases cs with
  | nil => contradiction
  | cons c cs =>
    simp only [Json.whole, List.cons_append] at hp ⊢
    split_ifs at hp ⊢ with hzero hdigit
    · obtain rfl := Option.some.inj hp
      rfl
    · obtain rfl := Option.some.inj hp
      exact congrArg some (h.digits (c :: cs))

include h in
theorem Ends.fraction (cs : List Char) :
    fraction (cs ++ tail) = ((fraction cs).1, (fraction cs).2 ++ tail) := by
  cases cs with
  | nil =>
    cases tail with
    | nil => rfl
    | cons c tail =>
      have hc : c ≠ '.' := h.head_ne (by decide)
      simp [Json.fraction, hc]
  | cons c cs =>
    simp only [Json.fraction, List.cons_append, h.any_isDigit, h.digits]
    split_ifs <;> simp

include h in
theorem Ends.sign (cs : List Char) : sign (cs ++ tail) = ((sign cs).1, (sign cs).2 ++ tail) := by
  cases cs with
  | nil =>
    cases tail with
    | nil => rfl
    | cons c tail =>
      have hc : ¬(c = '+' ∨ c = '-') :=
        not_or.mpr ⟨h.head_ne (by decide), h.head_ne (by decide)⟩
      simp [Json.sign, hc]
  | cons c cs =>
    simp only [Json.sign, List.cons_append]
    split_ifs <;> simp

include h in
theorem Ends.exponent (cs : List Char) :
    exponent (cs ++ tail) = ((exponent cs).1, (exponent cs).2 ++ tail) := by
  cases cs with
  | nil =>
    cases tail with
    | nil => rfl
    | cons c tail =>
      have hc : ¬(c = 'e' ∨ c = 'E') :=
        not_or.mpr ⟨h.head_ne (by decide), h.head_ne (by decide)⟩
      simp [Json.exponent, hc]
  | cons c cs =>
    simp only [Json.exponent, List.cons_append, h.sign, h.any_isDigit, h.digits]
    split_ifs <;> simp

include h in
theorem Ends.magnitude {cs : List Char} {p : List Char × List Char} (hp : magnitude cs = some p) :
    magnitude (cs ++ tail) = some (p.1, p.2 ++ tail) := by
  obtain ⟨w, hw, rfl⟩ := Option.map_eq_some_iff.mp hp
  simp only [Json.magnitude, h.whole hw, Option.map_some, h.fraction, h.exponent]

end Ends

theorem special_append {cs : List Char} {p : List Char × List Char} (hp : special cs = some p)
    (tail : List Char) : special (cs ++ tail) = some (p.1, p.2 ++ tail) := by
  unfold special at hp
  split at hp
  · obtain rfl := Option.some.inj hp
    rfl
  · obtain rfl := Option.some.inj hp
    rfl
  · contradiction

/-- A literal that is not finite has no digit. -/
theorem magnitude_of_special {cs : List Char} {p : List Char × List Char}
    (hp : special cs = some p) : magnitude cs = none := by
  unfold special at hp
  split at hp
  · rfl
  · rfl
  · contradiction

theorem Ends.number {tail : List Char} (h : Ends tail) {cs : List Char}
    {p : List Char × List Char} (hp : number cs = some p) :
    number (cs ++ tail) = some (p.1, p.2 ++ tail) := by
  cases cs with
  | nil => contradiction
  | cons c cs =>
    simp only [Json.number, List.cons_append] at hp ⊢
    split_ifs at hp ⊢ with hminus
    · obtain ⟨q, hq, rfl⟩ := Option.map_eq_some_iff.mp hp
      rcases Option.or_eq_some_iff.mp hq with hm | ⟨-, hs⟩
      · rw [h.magnitude hm]
        rfl
      · obtain ⟨hs, hhead⟩ := Option.filter_eq_some_iff.mp hs
        have hs' := special_append hs tail
        rw [magnitude_of_special hs', hs', Option.none_or, Option.filter_some, if_pos hhead]
        rfl
    · rcases Option.or_eq_some_iff.mp hp with hm | ⟨-, hs⟩
      · rw [← List.cons_append, h.magnitude hm]
        rfl
      · have hs' := special_append hs tail
        rw [← List.cons_append, magnitude_of_special hs', hs', Option.none_or]

/-! ### Values -/

/-- Numbers are literals as a whole, and an object has one field of a name. -/
inductive Value.Valid : Value → Prop
  | null : Valid .null
  | bool (b : Bool) : Valid (.bool b)
  | num {literal : List Char} (whole : number literal = some (literal, [])) :
      Valid (.num literal)
  | str (s : String) : Valid (.str s)
  | arr {items : List Value} (valid : ∀ v ∈ items, Valid v) : Valid (.arr items)
  | obj {fields : List (String × Value)} (names : (fields.map Prod.fst).Nodup)
      (valid : ∀ f ∈ fields, Valid f.2) : Valid (.obj fields)

/-- The first character of a number. -/
theorem number_head {cs : List Char} {p : List Char × List Char} (hp : number cs = some p) :
    ∃ c rest, cs = c :: rest ∧ (isDigit c = true ∨ c = '-' ∨ c = 'N' ∨ c = 'I') := by
  cases cs with
  | nil => contradiction
  | cons c cs =>
    refine ⟨c, cs, rfl, ?_⟩
    simp only [number] at hp
    split_ifs at hp with hminus
    · exact .inr (.inl hminus)
    · rcases Option.or_eq_some_iff.mp hp with hm | ⟨-, hs⟩
      · obtain ⟨w, hw, -⟩ := Option.map_eq_some_iff.mp hm
        simp only [whole] at hw
        split_ifs at hw with hzero hdigit
        · exact .inl (by rw [hzero]; decide)
        · exact .inl hdigit
      · unfold special at hs
        split at hs
        · rename_i heq
          exact .inr (.inr (.inl (List.cons.inj heq).1))
        · rename_i heq
          exact .inr (.inr (.inr (List.cons.inj heq).1))
        · contradiction

/-- A value starts with a character that is no blank and closes nothing. -/
theorem Value.Valid.dumps_head {v : Value} (h : v.Valid) :
    ∃ c cs, v.dumps = c :: cs ∧ isBlank c = false ∧ c ≠ ']' := by
  cases h with
  | null => exact ⟨_, _, rfl, by decide, by decide⟩
  | bool b => cases b <;> exact ⟨_, _, rfl, by decide, by decide⟩
  | num whole =>
    obtain ⟨c, cs, rfl, hc⟩ := number_head whole
    refine ⟨c, cs, rfl, ?_, ?_⟩
    · rcases hc with hd | rfl | rfl | rfl
      · simp only [isDigit, Bool.and_eq_true, decide_eq_true_eq] at hd
        simp only [isBlank, Bool.or_eq_false_iff, decide_eq_false_iff_not]
        refine ⟨⟨⟨?_, ?_⟩, ?_⟩, ?_⟩ <;> rintro rfl <;> exact absurd hd (by decide)
      · decide
      · decide
      · decide
    · rcases hc with hd | rfl | rfl | rfl
      · rintro rfl
        exact absurd hd (by decide)
      · decide
      · decide
      · decide
  | str s => exact ⟨_, _, rfl, by decide, by decide⟩
  | arr => exact ⟨_, _, rfl, by decide, by decide⟩
  | obj => exact ⟨_, _, rfl, by decide, by decide⟩

/-! ### The round trip -/

theorem skip_cons {c : Char} (h : isBlank c = false) (cs : List Char) :
    skip (c :: cs) = c :: cs := by
  simp [skip, h]

theorem skip_space (cs : List Char) : skip (' ' :: cs) = skip cs := rfl

theorem constant_number {c : Char} {cs : List Char}
    (hc : isDigit c = true ∨ c = '-' ∨ c = 'N' ∨ c = 'I') : constant (c :: cs) = none := by
  unfold constant
  split
  · rename_i heq
    obtain rfl := (List.cons.inj heq).1
    exact absurd hc (by decide)
  · rename_i heq
    obtain rfl := (List.cons.inj heq).1
    exact absurd hc (by decide)
  · rename_i heq
    obtain rfl := (List.cons.inj heq).1
    exact absurd hc (by decide)
  · rfl

theorem value_array {fuel : ℕ} {cs : List Char} (hskip : skip cs = cs)
    (hne : cs.head? ≠ some ']') :
    value (fuel + 1) ('[' :: cs) = (items fuel cs).map fun p => (.arr p.1, p.2) := by
  rw [value, if_neg (by decide), if_pos rfl, hskip]
  split
  · exact absurd rfl hne
  · rfl

theorem value_object {fuel : ℕ} {cs : List Char} (hskip : skip cs = cs)
    (hne : cs.head? ≠ some '}') :
    value (fuel + 1) ('{' :: cs) = (fields fuel cs).map fun p => (.obj (fieldsOf p.1), p.2) := by
  rw [value, if_neg (by decide), if_neg (by decide), if_pos rfl, hskip]
  split
  · exact absurd rfl hne
  · rfl

theorem value_number {fuel : ℕ} {literal rest : List Char}
    (whole : number literal = some (literal, [])) (h : Ends rest) :
    value (fuel + 1) (literal ++ rest) = some (.num literal, rest) := by
  obtain ⟨c, cs, heq, hc⟩ := number_head whole
  have hnumber := h.number whole
  rw [List.nil_append] at hnumber
  rw [heq, List.cons_append] at hnumber ⊢
  have hne : ∀ x, isDigit x = false → x ≠ '-' → x ≠ 'N' → x ≠ 'I' → c ≠ x := by
    rintro x hd hm hn hi rfl
    rcases hc with hd' | h | h | h
    · rw [hd] at hd'
      contradiction
    · exact hm h
    · exact hn h
    · exact hi h
  rw [value, if_neg (hne '"' (by decide) (by decide) (by decide) (by decide)),
    if_neg (hne '[' (by decide) (by decide) (by decide) (by decide)),
    if_neg (hne '{' (by decide) (by decide) (by decide) (by decide)), constant_number hc, hnumber]
  rfl

theorem items_last {fuel : ℕ} {cs rest : List Char} {v : Value}
    (hv : value fuel cs = some (v, ']' :: rest)) :
    items (fuel + 1) cs = some ([v], rest) := by
  simp [items, hv, skip, isBlank]

theorem items_more {fuel : ℕ} {cs rest : List Char} {v : Value} {vs : List Value} {tail : List Char}
    (hv : value fuel cs = some (v, ',' :: ' ' :: tail)) (hskip : skip tail = tail)
    (hvs : items fuel tail = some (vs, rest)) :
    items (fuel + 1) cs = some (v :: vs, rest) := by
  simp only [items, hv, Option.bind_some, skip_cons (by decide : isBlank ',' = false), skip_space,
    hskip, hvs, Option.map_some]

theorem fields_last {fuel : ℕ} {cs rest : List Char} {k : String} {v : Value}
    (hskip : skip cs = cs) (hv : value fuel cs = some (v, '}' :: rest)) :
    fields (fuel + 1) (quote k ++ ':' :: ' ' :: cs) = some ([(k, v)], rest) := by
  simp only [fields, quote, List.cons_append, List.append_assoc, List.nil_append, unquote_quoted,
    Option.bind_some, skip_cons (by decide : isBlank ':' = false), skip_space, hskip, hv,
    skip_cons (by decide : isBlank '}' = false), String.ofList_toList]

theorem fields_more {fuel : ℕ} {cs rest tail : List Char} {k : String} {v : Value}
    {fs : List (String × Value)} (hskip : skip cs = cs)
    (hv : value fuel cs = some (v, ',' :: ' ' :: tail)) (hskip' : skip tail = tail)
    (hfs : fields fuel tail = some (fs, rest)) :
    fields (fuel + 1) (quote k ++ ':' :: ' ' :: cs) = some ((k, v) :: fs, rest) := by
  simp only [fields, quote, List.cons_append, List.append_assoc, List.nil_append, unquote_quoted,
    Option.bind_some, skip_cons (by decide : isBlank ':' = false), skip_space, hskip, hv,
    skip_cons (by decide : isBlank ',' = false), hskip', hfs, Option.map_some,
    String.ofList_toList]

/-- Names that are distinct are not overwritten. -/
theorem fieldsOf_nodup {fs : List (String × Value)} (h : (fs.map Prod.fst).Nodup) :
    fieldsOf fs = fs := by
  induction fs using List.reverseRecOn with
  | nil => rfl
  | append_singleton fs f ih =>
    rw [List.map_append, List.nodup_append] at h
    have hnew : f.1 ∉ fs.map Prod.fst := fun hmem => h.2.2 _ hmem _ (by simp) rfl
    rw [fieldsOf, AppendLog.latest_append, ← fieldsOf, ih h.1, AppendLog.upsert_of_notMem hnew]

theorem Value.Valid.skip_dumps {v : Value} (h : v.Valid) (cs : List Char) :
    skip (v.dumps ++ cs) = v.dumps ++ cs := by
  obtain ⟨c, rest, heq, hblank, -⟩ := h.dumps_head
  rw [heq, List.cons_append, skip_cons hblank]

theorem skip_dumpsItems {v : Value} (h : v.Valid) (vs : List Value) (cs : List Char) :
    skip (dumpsItems (v :: vs) ++ cs) = dumpsItems (v :: vs) ++ cs ∧
      (dumpsItems (v :: vs) ++ cs).head? ≠ some ']' := by
  obtain ⟨c, rest, heq, hblank, hne⟩ := h.dumps_head
  cases vs <;> simp only [dumpsItems, heq, List.cons_append, List.head?_cons, ne_eq,
    Option.some.injEq] <;> exact ⟨skip_cons hblank _, hne⟩

theorem skip_dumpsFields (f : String × Value) (fs : List (String × Value)) (cs : List Char) :
    skip (dumpsFields (f :: fs) ++ cs) = dumpsFields (f :: fs) ++ cs ∧
      (dumpsFields (f :: fs) ++ cs).head? ≠ some '}' := by
  obtain ⟨k, v⟩ := f
  cases fs <;> simp only [dumpsFields, quote, List.cons_append, List.head?_cons, ne_eq,
    Option.some.injEq] <;> exact ⟨skip_cons (by decide) _, by decide⟩

/-- The decoder reads what the encoder writes: by induction on the fuel, for a value, for
the rest of an array and for the rest of an object. -/
theorem decode_dumps (fuel : ℕ) :
    (∀ v : Value, v.Valid → ∀ rest, Ends rest → v.dumps.length < fuel →
      value fuel (v.dumps ++ rest) = some (v, rest)) ∧
    (∀ v vs, (∀ x ∈ v :: vs, Value.Valid x) → ∀ rest, (dumpsItems (v :: vs)).length < fuel →
      items fuel (dumpsItems (v :: vs) ++ rest) = some (v :: vs, rest)) ∧
    ∀ f fs, (∀ x ∈ f :: fs, Value.Valid x.2) → ∀ rest, (dumpsFields (f :: fs)).length < fuel →
      fields fuel (dumpsFields (f :: fs) ++ rest) = some (f :: fs, rest) := by
  induction fuel with
  | zero => exact ⟨fun _ _ _ _ h => absurd h (Nat.not_lt_zero _),
      fun _ _ _ _ h => absurd h (Nat.not_lt_zero _), fun _ _ _ _ h => absurd h (Nat.not_lt_zero _)⟩
  | succ fuel ih =>
    obtain ⟨ihv, ihi, ihf⟩ := ih
    refine ⟨fun v valid rest ends hlen => ?_, fun v vs valid rest hlen => ?_,
      fun f fs valid rest hlen => ?_⟩
    · cases valid with
      | null => rfl
      | bool b => cases b <;> rfl
      | num whole => exact value_number whole ends
      | str s =>
        simp [Value.dumps, quote, value, unquote_quoted]
      | @arr vs valid =>
        cases vs with
        | nil => rfl
        | cons v vs =>
          simp only [Value.dumps, List.length_cons] at hlen
          obtain ⟨hskip, hne⟩ := skip_dumpsItems (valid v (by simp)) vs rest
          rw [Value.dumps, List.cons_append, value_array hskip hne,
            ihi v vs valid rest (by omega)]
          rfl
      | @obj fs names valid =>
        cases fs with
        | nil => rfl
        | cons f fs =>
          simp only [Value.dumps, List.length_cons] at hlen
          obtain ⟨hskip, hne⟩ := skip_dumpsFields f fs rest
          rw [Value.dumps, List.cons_append, value_object hskip hne,
            ihf f fs valid rest (by omega), Option.map_some, fieldsOf_nodup names]
    · have hv := valid v (by simp)
      cases vs with
      | nil =>
        simp only [dumpsItems, List.length_append, List.length_singleton] at hlen
        rw [dumpsItems, List.append_assoc]
        exact items_last (ihv v hv _ (Ends.cons (by decide) _) (by omega))
      | cons w vs =>
        simp only [dumpsItems, List.length_append, List.length_cons] at hlen
        rw [dumpsItems, List.append_assoc]
        have hvs := fun x hx => valid x (List.mem_cons_of_mem v hx)
        refine items_more (ihv v hv _ (Ends.cons (by decide) _) (by omega))
          (skip_dumpsItems (hvs w (by simp)) vs rest).1 (ihi w vs hvs rest (by omega))
    · obtain ⟨k, v⟩ := f
      have hv : v.Valid := valid (k, v) (by simp)
      cases fs with
      | nil =>
        simp only [dumpsFields, List.length_append, List.length_cons] at hlen
        rw [dumpsFields, List.append_assoc, List.cons_append, List.cons_append, List.append_assoc]
        exact fields_last (hv.skip_dumps _) (ihv v hv _ (Ends.cons (by decide) _) (by omega))
      | cons f fs =>
        simp only [dumpsFields, List.length_append, List.length_cons] at hlen
        rw [dumpsFields, List.append_assoc, List.cons_append, List.cons_append, List.append_assoc]
        have hfs := fun x hx => valid x (List.mem_cons_of_mem (k, v) hx)
        refine fields_more (hv.skip_dumps _) (ihv v hv _ (Ends.cons (by decide) _) (by omega))
          (skip_dumpsFields f fs rest).1 (ihf f fs hfs rest (by omega))

/-- Decoding inverts encoding. -/
theorem loads_dumps {v : Value} (h : v.Valid) : loads v.dumps = some v := by
  obtain ⟨c, cs, heq, hblank, -⟩ := h.dumps_head
  have hskip := h.skip_dumps []
  rw [List.append_nil] at hskip
  have hvalue := (decode_dumps (v.dumps.length + 1)).1 v h [] Ends.nil (Nat.lt_succ_self _)
  rw [List.append_nil] at hvalue
  rw [loads, hskip, hvalue]
  rfl

/-! ### One line -/

/-- A text without control characters. -/
def OneLine (cs : List Char) : Prop := ∀ c ∈ cs, 32 ≤ c.toNat

theorem OneLine.append {cs cs' : List Char} (h : OneLine cs) (h' : OneLine cs') :
    OneLine (cs ++ cs') := by
  intro c hc
  exact (List.mem_append.mp hc).elim (h c) (h' c)

theorem OneLine.cons {c : Char} {cs : List Char} (hc : 32 ≤ c.toNat) (h : OneLine cs) :
    OneLine (c :: cs) := by
  intro x hx
  rcases List.mem_cons.mp hx with rfl | hx
  · exact hc
  · exact h x hx

theorem OneLine.pair {a b : Char} (ha : 32 ≤ a.toNat) (hb : 32 ≤ b.toNat) : OneLine [a, b] :=
  .cons ha (.cons hb (by simp [OneLine]))

theorem oneLine_escape (c : Char) : OneLine (escape c) := by
  have hdigit : ∀ n < 16, 32 ≤ (hexDigit n).toNat := by decide
  unfold escape
  split_ifs with hq hb hn hr ht hf hbs hctl
  · exact .pair (by decide) (by decide)
  · exact .pair (by decide) (by decide)
  · exact .pair (by decide) (by decide)
  · exact .pair (by decide) (by decide)
  · exact .pair (by decide) (by decide)
  · exact .pair (by decide) (by decide)
  · exact .pair (by decide) (by decide)
  · exact .cons (by decide) (.cons (by decide) (.cons (by decide) (.cons (by decide)
      (.pair (hdigit _ (by omega)) (hdigit _ (Nat.mod_lt _ (by decide)))))))
  · exact .cons (by omega) (by simp [OneLine])

theorem oneLine_quote (s : String) : OneLine (quote s) := by
  refine .cons (by decide) (OneLine.append ?_ (.cons (by decide) (by simp [OneLine])))
  intro c hc
  obtain ⟨x, -, hx⟩ := List.mem_flatMap.mp hc
  exact oneLine_escape x c hx

theorem oneLine_digits (cs : List Char) : OneLine (digits cs).1 := by
  intro c hc
  have hd := List.all_eq_true.mp List.all_takeWhile c hc
  simp only [isDigit, Bool.and_eq_true, decide_eq_true_eq] at hd
  omega

theorem oneLine_number {cs : List Char} {p : List Char × List Char} (h : number cs = some p) :
    OneLine p.1 := by
  have hmag : ∀ {cs : List Char} {p}, magnitude cs = some p → OneLine p.1 := by
    intro cs p hp
    obtain ⟨w, hw, rfl⟩ := Option.map_eq_some_iff.mp hp
    refine (OneLine.append ?_ ?_).append ?_
    · cases cs with
      | nil => contradiction
      | cons c cs =>
        simp only [whole] at hw
        split_ifs at hw with hzero
        · obtain rfl := Option.some.inj hw
          rw [hzero]
          exact .cons (by decide) (by simp [OneLine])
        · obtain rfl := Option.some.inj hw
          exact oneLine_digits _
    · unfold fraction
      split
      · simp [OneLine]
      · split_ifs with hdot
        · rw [hdot.1]
          exact .cons (by decide) (oneLine_digits _)
        · simp [OneLine]
    · unfold exponent
      split
      · simp [OneLine]
      · split_ifs with he
        · refine .cons ?_ (.append ?_ (oneLine_digits _))
          · rcases he.1 with rfl | rfl <;> decide
          · unfold sign
            split
            · simp [OneLine]
            · split_ifs with hs
              · refine .cons ?_ (by simp [OneLine])
                rcases hs with rfl | rfl <;> decide
              · simp [OneLine]
        · simp [OneLine]
  have hspecial : ∀ {cs : List Char} {p}, special cs = some p → OneLine p.1 := by
    intro cs p hp
    have hnan : OneLine ['N', 'a', 'N'] := by simp [OneLine]
    have hinfinity : OneLine ['I', 'n', 'f', 'i', 'n', 'i', 't', 'y'] := by simp [OneLine]
    unfold special at hp
    split at hp
    · obtain rfl := Option.some.inj hp
      exact hnan
    · obtain rfl := Option.some.inj hp
      exact hinfinity
    · contradiction
  cases cs with
  | nil => contradiction
  | cons c cs =>
    simp only [number] at h
    split_ifs at h with hminus
    · obtain ⟨q, hq, rfl⟩ := Option.map_eq_some_iff.mp h
      refine .cons (by rw [hminus]; decide) ?_
      rcases Option.or_eq_some_iff.mp hq with hm | ⟨-, hs⟩
      · exact hmag hm
      · exact hspecial (Option.filter_eq_some_iff.mp hs).1
    · rcases Option.or_eq_some_iff.mp h with hm | ⟨-, hs⟩
      · exact hmag hm
      · exact hspecial hs

theorem oneLine_items {vs : List Value} (h : ∀ v ∈ vs, OneLine v.dumps) :
    OneLine (dumpsItems vs) := by
  have hclose : OneLine [']'] := by simp [OneLine]
  induction vs with
  | nil => exact hclose
  | cons v vs ih =>
    have hv := h v (by simp)
    cases vs with
    | nil => exact hv.append hclose
    | cons w vs =>
      exact hv.append (.cons (by decide) (.cons (by decide)
        (ih fun x hx => h x (List.mem_cons_of_mem v hx))))

theorem oneLine_fields {fs : List (String × Value)} (h : ∀ f ∈ fs, OneLine f.2.dumps) :
    OneLine (dumpsFields fs) := by
  have hclose : OneLine ['}'] := by simp [OneLine]
  induction fs with
  | nil => exact hclose
  | cons f fs ih =>
    obtain ⟨k, v⟩ := f
    have hv : OneLine v.dumps := h (k, v) (by simp)
    cases fs with
    | nil =>
      exact (oneLine_quote k).append (.cons (by decide) (.cons (by decide) (hv.append hclose)))
    | cons f fs =>
      refine (oneLine_quote k).append (.cons (by decide) (.cons (by decide) (hv.append
        (.cons (by decide) (.cons (by decide) ?_)))))
      exact ih fun x hx => h x (List.mem_cons_of_mem (k, v) hx)

/-- The text of a value is one line. -/
theorem Value.Valid.oneLine {v : Value} (h : v.Valid) : OneLine v.dumps := by
  induction h with
  | null => simp [OneLine, Value.dumps]
  | bool b => cases b <;> simp [OneLine, Value.dumps]
  | num whole => exact oneLine_number whole
  | str s => exact oneLine_quote s
  | arr valid ih => exact .cons (by decide) (oneLine_items ih)
  | obj names valid ih => exact .cons (by decide) (oneLine_fields ih)

end CodexBridge.Json
