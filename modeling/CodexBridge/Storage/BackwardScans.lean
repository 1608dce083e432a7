import CodexBridge.Storage.Rows
import Mathlib.Data.List.Forall2

/-! Reading a log backwards. Whatever the chunks are, a backward reader meets the rows of the
file from the last one on: what it has not met yet are the rows of the text ahead of it, the
beginning of a line that it carries over included. -/

namespace CodexBridge.Storage

namespace JsonlStore

variable {T : Type} (path : String)

/-! ### Backwards -/

section Backwards

variable (loader : Payload → Except Raised T)

/-- A list is loaded if each of its members is. -/
theorem mapM_eq_ok {α β : Type} {f : α → Except Raised β} {xs : List α} {ys : List β} :
    xs.mapM f = .ok ys ↔ List.Forall₂ (fun x y => f x = .ok y) xs ys := by
  induction xs generalizing ys with
  | nil =>
    rw [List.mapM_nil, List.forall₂_nil_left_iff]
    exact ⟨fun h => (Except.ok.inj h).symm, fun h => by rw [h]; rfl⟩
  | cons x xs ih =>
    rw [List.mapM_cons, List.forall₂_cons_left_iff]
    constructor
    · intro h
      cases hx : f x with
      | error e => rw [hx] at h; contradiction
      | ok y =>
        cases hxs : xs.mapM f with
        | error e => rw [hx, hxs] at h; contradiction
        | ok zs =>
          rw [hx, hxs] at h
          cases h
          exact ⟨y, zs, rfl, ih.mp hxs, rfl⟩
    · rintro ⟨y, zs, hx, hzs, rfl⟩
      rw [hx, ih.mpr hzs]
      rfl

theorem mapM_length {α β : Type} {f : α → Except Raised β} {xs : List α} {ys : List β}
    (h : xs.mapM f = .ok ys) : ys.length = xs.length := (mapM_eq_ok.mp h).length_eq.symm

/-- The rows that a list of lines adds to those read. -/
theorem tailRows_eq {raws : List (List UInt8)} {rest : List Row}
    (hraws : (raws.filter fun raw => !raw.isEmpty) = linesOf rest) (limit : ℕ) (rows : List T) :
    tailRows path loader limit raws rows =
      (rows ++ ·) <$> ((rest.take (limit - rows.length)).map Row.payload).mapM loader := by
  induction raws generalizing rest rows with
  | nil =>
    have hrest : rest = [] := by simpa [linesOf] using hraws.symm
    subst hrest
    simp [tailRows]
  | cons raw raws ih =>
    rw [tailRows]
    by_cases hfull : limit ≤ rows.length
    · simp [hfull]
    rw [if_neg hfull]
    cases raw with
    | nil => exact ih hraws rows
    | cons b raw =>
      rw [List.filter_cons_of_pos (by simp)] at hraws
      cases rest with
      | nil => simp [linesOf] at hraws
      | cons row rest =>
        obtain ⟨hraw, hraws⟩ := List.cons.inj hraws
        have hne : row.text.isEmpty = false := by simpa using row.text_ne_nil
        have hmissing : limit - rows.length = (limit - (rows.length + 1)) + 1 := by omega
        have hread (loaded : T) := ih hraws (rows ++ [loaded])
        simp only [List.length_append, List.length_singleton] at hread
        rw [hraw, decode_encode, hmissing, List.take_succ_cons, List.map_cons, List.mapM_cons]
        simp only [map_bind, map_pure]
        show (if (stripped row.text).isEmpty then _ else _) = _
        rw [row.stripped_text, hne, row.object_text]
        show (loader row.payload >>= _) = _
        refine bind_congr fun loaded => ?_
        rw [hread, ← bind_pure_comp]
        refine bind_congr fun more => ?_
        rw [List.append_assoc]
        rfl

/-- What a retreat gives out are the last of the rows ahead. -/
theorem retreat_rows (chunkSize : ℕ+) {bytes : List UInt8} {r : Breaks.Reader UInt8}
    {rows : List Row} (h : byteBreaks.filled (r.rest bytes) = linesOf rows) :
    ∃ ahead out, rows = ahead ++ out ∧
      byteBreaks.filled ((byteBreaks.retreat chunkSize bytes r).1.rest bytes) = linesOf ahead ∧
      ((byteBreaks.retreat chunkSize bytes r).2.reverse.filter fun raw => !raw.isEmpty) =
        linesOf out.reverse := by
  rw [byteBreaks.filled_retreat chunkSize] at h
  obtain ⟨ahead, out, rfl, hahead, hout⟩ := List.map_eq_append_iff.mp h.symm
  refine ⟨ahead, out, rfl, hahead.symm, ?_⟩
  rw [List.filter_reverse, ← hout, linesOf, List.map_reverse]

/-- The rows a reader still adds are the last of those ahead of it. -/
theorem tailFrom_eq (chunkSize : ℕ+) (limit : ℕ) (bytes : List UInt8) (r : Breaks.Reader UInt8)
    (flushed : r.position = 0 → r.buffer = []) {ahead : List Row}
    (hahead : byteBreaks.filled (r.rest bytes) = linesOf ahead) (rows : List T) :
    tailFrom path loader chunkSize limit bytes r rows =
      (rows ++ ·) <$>
        ((ahead.reverse.take (limit - rows.length)).map Row.payload).mapM loader := by
  induction hpos : r.position using Nat.strong_induction_on generalizing r ahead rows with
  | _ position ih =>
  subst hpos
  rw [tailFrom]
  by_cases hgo : 0 < r.position ∧ rows.length < limit
  · obtain ⟨before, out, rfl, hbefore, hout⟩ := retreat_rows chunkSize hahead
    rw [dif_pos hgo]
    show (tailRows path loader limit _ rows >>= _) = _
    rw [tailRows_eq path loader hout, List.reverse_append, List.take_append, List.map_append,
      List.mapM_append, List.length_reverse]
    cases hmore : ((out.reverse.take (limit - rows.length)).map Row.payload).mapM loader with
    | error e => rfl
    | ok more =>
      have hlength := mapM_length hmore
      rw [List.length_map, List.length_take, List.length_reverse] at hlength
      have hlimit : limit - (rows ++ more).length = limit - rows.length - out.length := by
        rw [List.length_append]
        omega
      have hstep := ih _ (byteBreaks.retreat_lt chunkSize.pos hgo.1) _ byteBreaks.retreat_flushed
        hbefore (rows ++ more) rfl
      rw [hlimit] at hstep
      show tailFrom path loader chunkSize limit bytes _ (rows ++ more) = _
      rw [hstep]
      cases ((before.reverse.take (limit - rows.length - out.length)).map
          Row.payload).mapM loader with
      | error e => rfl
      | ok rest => exact congrArg Except.ok (List.append_assoc ..)
  · rw [dif_neg hgo]
    have hnone : ahead.reverse.take (limit - rows.length) = [] := by
      by_cases hzero : r.position = 0
      · have hempty : linesOf ahead = [] := by
          rw [← hahead, Breaks.Reader.rest, hzero, flushed hzero]
          rfl
        rw [List.map_eq_nil_iff.mp hempty, List.reverse_nil, List.take_nil]
      · have hfull : limit - rows.length = 0 := by omega
        rw [hfull, List.take_zero]
    rw [hnone]
    exact congrArg Except.ok (List.append_nil rows).symm

/-- The row that is found among lines. -/
theorem lastRow_eq (predicate : Payload → Bool) {raws : List (List UInt8)} {rest : List Row}
    (hraws : (raws.filter fun raw => !raw.isEmpty) = linesOf rest) :
    lastRow path loader predicate raws =
      ((rest.map Row.payload).find? predicate).mapM loader := by
  induction raws generalizing rest with
  | nil =>
    have hrest : rest = [] := by simpa [linesOf] using hraws.symm
    subst hrest
    rfl
  | cons raw raws ih =>
    rw [lastRow]
    cases raw with
    | nil => exact ih hraws
    | cons b raw =>
      rw [List.filter_cons_of_pos (by simp)] at hraws
      cases rest with
      | nil => simp [linesOf] at hraws
      | cons row rest =>
        obtain ⟨hraw, hraws⟩ := List.cons.inj hraws
        have hne : row.text.isEmpty = false := by simpa using row.text_ne_nil
        rw [hraw, decode_encode, List.map_cons, List.find?_cons]
        show (if (stripped row.text).isEmpty then _ else _) = _
        rw [row.stripped_text, hne, row.object_text]
        show (if predicate row.payload then _ else _) = _
        cases predicate row.payload with
        | true => rfl
        | false => exact ih hraws

theorem lastFrom_eq (chunkSize : ℕ+) (predicate : Payload → Bool) (bytes : List UInt8)
    (r : Breaks.Reader UInt8) (flushed : r.position = 0 → r.buffer = []) {ahead : List Row}
    (hahead : byteBreaks.filled (r.rest bytes) = linesOf ahead) :
    lastFrom path loader chunkSize predicate bytes r =
      ((ahead.reverse.map Row.payload).find? predicate).mapM loader := by
  induction hpos : r.position using Nat.strong_induction_on generalizing r ahead with
  | _ position ih =>
  subst hpos
  rw [lastFrom]
  by_cases hgo : 0 < r.position
  · obtain ⟨before, out, rfl, hbefore, hout⟩ := retreat_rows chunkSize hahead
    have hstep := ih _ (byteBreaks.retreat_lt chunkSize.pos hgo) _ byteBreaks.retreat_flushed
      hbefore rfl
    rw [dif_pos hgo]
    show (lastRow path loader predicate _ >>= _) = _
    rw [lastRow_eq path loader predicate hout, List.reverse_append, List.map_append,
      List.find?_append]
    cases (out.reverse.map Row.payload).find? predicate with
    | none => exact hstep
    | some payload =>
      show (some <$> loader payload >>= _) = some <$> loader payload
      cases loader payload <;> rfl
  · have hzero : r.position = 0 := by omega
    have hempty : linesOf ahead = [] := by
      rw [← hahead, Breaks.Reader.rest, hzero, flushed hzero]
      rfl
    rw [dif_neg hgo, flushed hzero, List.map_eq_nil_iff.mp hempty]
    rfl

end Backwards

/-! ### Whole files -/

/-- A reader at the end of a file has the whole of it ahead. -/
theorem rest_end (bytes : List UInt8) :
    (⟨bytes.length, []⟩ : Breaks.Reader UInt8).rest bytes = bytes := by
  simp [Breaks.Reader.rest]

variable (loader : Payload → Except Raised T)

theorem readTail_written (chunkSize : ℕ+) (limit : ℕ) (rows : List Row) :
    readTail chunkSize limit loader (written path rows) =
      List.reverse <$> ((rows.reverse.take limit).map Row.payload).mapM loader := by
  rw [readTail, if_neg (by omega)]
  cases limit with
  | zero => rfl
  | succ limit =>
    rw [if_neg (by omega)]
    by_cases hrows : rows = []
    · subst hrows
      rfl
    · have hahead : byteBreaks.filled ((⟨(content rows).length, []⟩ : Breaks.Reader UInt8).rest
          (content rows)) = linesOf rows := by rw [rest_end, filled_content]
      have htail := tailFrom_eq path loader chunkSize (limit + 1) (content rows)
        ⟨(content rows).length, []⟩ (fun _ => rfl) hahead []
      rw [written_of_ne_nil path hrows]
      show List.reverse <$> tailFrom path loader chunkSize (limit + 1) (content rows) _ [] = _
      rw [htail]
      simp

theorem findLast_written (chunkSize : ℕ+) (predicate : Payload → Bool) (rows : List Row) :
    findLast chunkSize predicate loader (written path rows) =
      ((rows.map Row.payload).filter predicate).getLast?.mapM loader := by
  rw [List.getLast?_filter, ← List.map_reverse]
  by_cases hrows : rows = []
  · subst hrows
    rfl
  · have hahead : byteBreaks.filled ((⟨(content rows).length, []⟩ : Breaks.Reader UInt8).rest
        (content rows)) = linesOf rows := by rw [rest_end, filled_content]
    rw [written_of_ne_nil path hrows]
    exact lastFrom_eq path loader chunkSize predicate (content rows) _ (fun _ => rfl) hahead

/-- Reading backwards agrees with reading forwards: of the rows appended to a file, the last
that satisfies a predicate is found, and the last so many are read. -/
theorem backward_scans_agree (chunkSize : ℕ+) (rows : List Row) :
    readAll .ok (written path rows) = .ok (rows.map Row.payload) ∧
    (∀ predicate, findLast chunkSize predicate loader (written path rows) =
      ((rows.map Row.payload).filter predicate).getLast?.mapM loader) ∧
    ∀ all, readAll loader (written path rows) = .ok all →
      ∀ n : ℕ, readTail chunkSize n loader (written path rows) = .ok (all.rtake n) := by
  refine ⟨?_, fun predicate => findLast_written path loader chunkSize predicate rows, ?_⟩
  · rw [readAll_written]
    exact List.mapM_pure.trans (congrArg Except.ok (List.map_id _))
  · intro all hall n
    rw [readAll_written, mapM_eq_ok] at hall
    have htail : ((rows.reverse.take n).map Row.payload).mapM loader =
      .ok (all.reverse.take n) := by
      rw [mapM_eq_ok, List.map_take, List.map_reverse]
      exact List.forall₂_take n (List.forall₂_reverse_iff.mpr hall)
    rw [readTail_written, htail, List.rtake_eq_reverse_take_reverse]
    rfl

def sampleRow (name : String) : Row where
  payload := [("job_id", .str name)]
  valid := .obj (by simp) (by
    intro f hf
    rw [List.mem_singleton.mp hf]
    exact .str name)

/-- Chunks of two bytes cut the rows and the characters of the names in pieces. -/
theorem backward_scans_agree_sample :
    readTail 2 1 .ok (written "jobs.jsonl" [sampleRow "ä", sampleRow "世"]) =
      .ok [(sampleRow "世").payload] :=
  have h := backward_scans_agree "jobs.jsonl" .ok 2 [sampleRow "ä", sampleRow "世"]
  h.2.2 _ h.1 1

end JsonlStore

end CodexBridge.Storage
