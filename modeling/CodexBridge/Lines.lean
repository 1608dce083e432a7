import Mathlib.Data.List.Basic
import Mathlib.Tactic.Common

/-! Lines of a text, read forwards and backwards. A line ends with a line feed, a carriage
return, or both. Reading backwards in chunks, a reader carries the beginning of a line over
to the next chunk; whatever the chunks are, it meets the lines of the text, but for empty
ones. Nothing here depends on what the characters are. -/

namespace CodexBridge

variable {α : Type*} [DecidableEq α]

/-- The characters that end a line. -/
structure Breaks (α : Type*) where
  feed : α
  carriage : α

namespace Breaks

variable (brk : Breaks α)

def ends (c : α) : Bool := c = brk.feed || c = brk.carriage

theorem ends_eq_false {c : α} : brk.ends c = false ↔ c ≠ brk.feed ∧ c ≠ brk.carriage := by
  simp only [ends, Bool.or_eq_false_iff, decide_eq_false_iff_not]

/-- The lines of a text that goes on with a line, here in reverse, or comes right after a
carriage return. -/
def linesFrom (returned : Bool) (line : List α) : List α → List (List α)
  | [] => if line.isEmpty then [] else [line.reverse]
  | c :: cs =>
    if c = brk.carriage then line.reverse :: linesFrom true [] cs
    else if c = brk.feed then
      if returned then linesFrom false [] cs else line.reverse :: linesFrom false [] cs
    else linesFrom false (c :: line) cs

/-- The lines of a text without their ends. -/
def lines (cs : List α) : List (List α) := brk.linesFrom false [] cs

/-- The lines that are not empty. -/
def filled (cs : List α) : List (List α) := (brk.lines cs).filter fun line => !line.isEmpty

@[simp] theorem filled_nil : brk.filled [] = [] := rfl

/-! ### Forwards -/

/-- After a carriage return a line feed adds no more than an empty line. -/
theorem filled_returned (cs : List α) :
    ((brk.linesFrom true [] cs).filter fun line => !line.isEmpty) = brk.filled cs := by
  cases cs with
  | nil => rfl
  | cons c cs =>
    simp only [filled, lines, linesFrom, ↓reduceIte, List.reverse_nil]
    split_ifs <;> simp

theorem filled_linesFrom_break {b : α} (hb : brk.ends b = true) (y : List α) (x : List α)
    (returned : Bool) (line : List α) (fresh : returned = true → line = []) :
    ((brk.linesFrom returned line (x ++ b :: y)).filter fun line => !line.isEmpty) =
      ((brk.linesFrom returned line x).filter fun line => !line.isEmpty) ++ brk.filled y := by
  induction x generalizing returned line with
  | nil =>
    have hend : ((line.reverse :: brk.linesFrom false [] y).filter fun line => !line.isEmpty) =
        ((brk.linesFrom returned line []).filter fun line => !line.isEmpty) ++ brk.filled y := by
      cases line <;> simp [linesFrom, filled, lines]
    show ((if b = brk.carriage then line.reverse :: brk.linesFrom true [] y
      else if b = brk.feed then
        if returned then brk.linesFrom false [] y else line.reverse :: brk.linesFrom false [] y
      else brk.linesFrom false (b :: line) y).filter fun line => !line.isEmpty) = _
    split_ifs with hcarriage hfeed hreturned
    · rw [← hend, List.filter_cons, List.filter_cons, brk.filled_returned]
      rfl
    · rw [fresh hreturned]
      rfl
    · exact hend
    · simp [ends, hcarriage, hfeed] at hb
  | cons c x ih =>
    simp only [List.cons_append, linesFrom]
    split_ifs with hcarriage hfeed hreturned
    · rw [List.filter_cons, List.filter_cons, ih true [] fun _ => rfl]
      split_ifs <;> rfl
    · exact ih false [] (by simp)
    · rw [List.filter_cons, List.filter_cons, ih false [] (by simp)]
      split_ifs <;> rfl
    · exact ih false (c :: line) (by simp)

/-- An end of line cuts the text in two. -/
theorem filled_break {b : α} (hb : brk.ends b = true) (x y : List α) :
    brk.filled (x ++ b :: y) = brk.filled x ++ brk.filled y :=
  brk.filled_linesFrom_break hb y x false [] (by simp)

/-- A text that begins with the end of a line. -/
def Broken (cs : List α) : Prop := ∃ b y, cs = b :: y ∧ brk.ends b = true

theorem filled_broken {y : List α} (hy : y = [] ∨ brk.Broken y) (x : List α) :
    brk.filled (x ++ y) = brk.filled x ++ brk.filled y := by
  rcases hy with rfl | ⟨b, z, rfl, hb⟩
  · simp
  · have hz := brk.filled_break hb [] z
    rw [List.nil_append, filled_nil, List.nil_append] at hz
    rw [brk.filled_break hb x z, hz]

/-- The first line of a text, and the lines after it. -/
theorem linesFrom_line {u y : List α} (hu : ∀ c ∈ u, brk.ends c = false)
    (hy : y = [] ∨ brk.Broken y) (line : List α) (hne : line ≠ [] ∨ u ≠ []) :
    ∃ rest, brk.linesFrom false line (u ++ y) = (line.reverse ++ u) :: rest ∧
      (rest.filter fun line => !line.isEmpty) = brk.filled y := by
  induction u generalizing line with
  | nil =>
    have hline : line ≠ [] := hne.resolve_right (by simp)
    rcases hy with rfl | ⟨b, z, rfl, hb⟩
    · refine ⟨[], ?_, rfl⟩
      simp [linesFrom, hline]
    · have hz := brk.filled_break hb [] z
      rw [List.nil_append, filled_nil, List.nil_append] at hz
      rw [hz, List.nil_append, List.append_nil]
      by_cases hcarriage : b = brk.carriage
      · refine ⟨brk.linesFrom true [] z, ?_, brk.filled_returned z⟩
        rw [linesFrom, if_pos hcarriage]
      · have hfeed : b = brk.feed := by simpa [ends, hcarriage] using hb
        refine ⟨brk.linesFrom false [] z, ?_, rfl⟩
        rw [linesFrom, if_neg hcarriage, if_pos hfeed, if_neg (by simp)]
  | cons c u ih =>
    have hc := hu c (by simp)
    rw [ends_eq_false] at hc
    obtain ⟨rest, hlines, hfilled⟩ :=
      ih (fun x hx => hu x (List.mem_cons_of_mem c hx)) (c :: line) (.inl (by simp))
    refine ⟨rest, ?_, hfilled⟩
    rw [List.cons_append, linesFrom, if_neg hc.2, if_neg hc.1, hlines]
    simp

/-- A text without an end of line is a line. -/
theorem filled_line {u : List α} (hu : ∀ c ∈ u, brk.ends c = false) (hne : u ≠ []) :
    brk.filled u = [u] := by
  obtain ⟨rest, hlines, hrest⟩ := brk.linesFrom_line hu (.inl rfl) [] (.inr hne)
  rw [List.append_nil, List.reverse_nil, List.nil_append] at hlines
  rw [filled, lines, hlines, List.filter_cons, hrest, filled_nil]
  simp [hne]

/-- A text of lines, each with a line feed behind it. -/
theorem filled_flatMap {rows : List (List α)} (hrows : ∀ r ∈ rows, r ≠ [] ∧
    ∀ c ∈ r, brk.ends c = false) : brk.filled (rows.flatMap fun r => r ++ [brk.feed]) = rows := by
  induction rows with
  | nil => rfl
  | cons r rows ih =>
    obtain ⟨hne, hr⟩ := hrows r (by simp)
    have hfeed : brk.ends brk.feed = true := by simp [ends]
    rw [List.flatMap_cons, List.append_assoc, List.singleton_append, brk.filled_break hfeed,
      brk.filled_line hr hne, ih fun x hx => hrows x (List.mem_cons_of_mem r hx)]
    rfl

/-! ### Backwards -/

/-- How far back a reader is, and the beginning of a line that it carries over. -/
structure Reader (α : Type*) where
  position : ℕ
  buffer : List α

/-- The reader goes back by one chunk, and gives out the lines that are whole. -/
def retreat (chunkSize : ℕ) (text : List α) (r : Reader α) : Reader α × List (List α) :=
  let readSize := min chunkSize r.position
  let position := r.position - readSize
  let chunk := (text.drop position).take readSize
  let buffer := chunk ++ r.buffer
  let lines := brk.lines buffer
  if 0 < position ∧ buffer ≠ [] ∧ buffer.head?.any brk.ends = false then
    (⟨position, lines.head?.getD buffer⟩, lines.tail)
  else (⟨position, []⟩, lines)

/-- The part of the text that is still to be read. -/
def Reader.rest (text : List α) (r : Reader α) : List α := text.take r.position ++ r.buffer

variable {chunkSize : ℕ} {text : List α} {r : Reader α}

theorem retreat_position :
    (brk.retreat chunkSize text r).1.position = r.position - min chunkSize r.position := by
  simp only [retreat]
  split_ifs <;> rfl

theorem retreat_lt (hchunk : 0 < chunkSize) (hr : 0 < r.position) :
    (brk.retreat chunkSize text r).1.position < r.position := by
  rw [retreat_position]
  omega

/-- At the beginning of the text nothing is carried over. -/
theorem retreat_flushed (h : (brk.retreat chunkSize text r).1.position = 0) :
    (brk.retreat chunkSize text r).1.buffer = [] := by
  simp only [retreat] at h ⊢
  split_ifs at h ⊢ with hkeep
  · exact absurd hkeep.1 (Nat.not_lt.mpr (Nat.le_of_eq h))
  · rfl

/-- The lines that were ahead of the reader are those that are ahead of it now and those it
has given out. -/
theorem filled_retreat (chunkSize : ℕ) : brk.filled (r.rest text) =
    brk.filled ((brk.retreat chunkSize text r).1.rest text) ++
      (brk.retreat chunkSize text r).2.filter fun line => !line.isEmpty := by
  set readSize := min chunkSize r.position with hsize
  set position := r.position - readSize with hposition
  set buffer := (text.drop position).take readSize ++ r.buffer with hbuffer
  have hrest : r.rest text = text.take position ++ buffer := by
    have hpos : r.position = position + readSize := by omega
    rw [Reader.rest, hpos, List.take_add, hbuffer, List.append_assoc]
  have hretreat : brk.retreat chunkSize text r =
      if 0 < position ∧ buffer ≠ [] ∧ buffer.head?.any brk.ends = false then
        (⟨position, (brk.lines buffer).head?.getD buffer⟩, (brk.lines buffer).tail)
      else (⟨position, []⟩, brk.lines buffer) := rfl
  rw [hrest, hretreat]
  split_ifs with hkeep
  · -- the first line of the buffer has begun before it
    obtain ⟨-, hne, hhead⟩ := hkeep
    set u := buffer.takeWhile fun c => !brk.ends c with hu
    set y := buffer.dropWhile fun c => !brk.ends c with hy
    have hsplit : buffer = u ++ y := List.takeWhile_append_dropWhile.symm
    have hplain : ∀ c ∈ u, brk.ends c = false := by
      intro c hc
      simpa using List.all_eq_true.mp List.all_takeWhile c hc
    have hbroken : y = [] ∨ brk.Broken y := by
      cases hcase : y with
      | nil => exact .inl rfl
      | cons b z =>
        refine .inr ⟨b, z, rfl, ?_⟩
        have hb := List.head?_dropWhile_not (fun c => !brk.ends c) buffer
        rw [← hy, hcase] at hb
        simpa using hb
    have hune : u ≠ [] := by
      cases hcase : buffer with
      | nil => exact absurd hcase hne
      | cons c cs =>
        have hc : brk.ends c = false := by simpa [hcase] using hhead
        rw [hu, hcase, List.takeWhile_cons, hc]
        simp
    obtain ⟨rest, hlines, hfilled⟩ := brk.linesFrom_line hplain hbroken [] (.inr hune)
    rw [← hsplit, List.reverse_nil, List.nil_append] at hlines
    have hl : brk.lines buffer = u :: rest := hlines
    rw [hl]
    simp only [Reader.rest, List.head?_cons, Option.getD_some, List.tail_cons]
    rw [hfilled, ← brk.filled_broken hbroken, List.append_assoc, ← hsplit]
  · simp only [Reader.rest, List.append_nil]
    rcases Nat.eq_zero_or_pos position with hstart | hstart
    · rw [hstart, List.take_zero, List.nil_append, filled_nil, List.nil_append]
      rfl
    · refine brk.filled_broken ?_ _
      cases hcase : buffer with
      | nil => exact .inl rfl
      | cons b z =>
        refine .inr ⟨b, z, rfl, ?_⟩
        simpa [hcase, hstart] using hkeep

end Breaks

end CodexBridge
