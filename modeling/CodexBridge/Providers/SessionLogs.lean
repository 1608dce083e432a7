import Mathlib.Data.List.Basic
import Mathlib.Order.Nat
import Mathlib.Tactic.Common

/-! Reading a session log while it grows. A call reads what is new after its offset, hands out
the entries of the lines that are complete and keeps the rest for the next call. The entries that
are handed out in all do not depend on where the appends and the calls cut the bytes. -/

namespace CodexBridge.Providers

variable {Entry : Type*}

/-- What a caller passes on from one call to the next. -/
structure ReaderState where
  offset : ℕ
  carry : List UInt8
  deriving DecidableEq

def newline : UInt8 := 10

/-- `bytes.strip` -/
def stripBytes (raw : List UInt8) : List UInt8 :=
  let isSpace (b : UInt8) : Bool := b = 32 || (9 ≤ b && b ≤ 13)
  ((raw.dropWhile isSpace).reverse.dropWhile isSpace).reverse

def splitBufferLines (carry data : List UInt8) : List (List UInt8) × List UInt8 :=
  let buffer := carry ++ data
  let lines := buffer.splitOn newline
  if buffer ≠ [] ∧ buffer.getLast? ≠ some newline then
    (lines.dropLast, lines.getLastD [])
  else (lines, [])

section Reader

variable (loads : List UInt8 → Option Entry)

/-- The entry of a line, where `loads` gives the object that a text holds, if it holds one. -/
def parseJsonlEntry (raw : List UInt8) : Option Entry :=
  let line := stripBytes raw
  if line = [] then none else loads line

def parseJsonlEntries (lines : List (List UInt8)) : List Entry :=
  lines.filterMap (parseJsonlEntry loads)

/-- A call: the size of the log, if it could be told, and the content, if it could be read. -/
def readIncrementalJsonl (size : Option ℕ) (content : Option (List UInt8)) (state : ReaderState) :
    List Entry × ReaderState :=
  match size with
  | none => ([], state)
  | some size =>
    let state := if size < state.offset then ⟨0, []⟩ else state
    match content with
    | none => ([], state)
    | some content =>
      let data := content.drop state.offset
      let (lines, carry) := splitBufferLines state.carry data
      (parseJsonlEntries loads lines, ⟨state.offset + data.length, carry⟩)

/-- `read_new_entries`, which keeps the entries that have a structure. -/
def readNewEntries {Event : Type*} (structuredEvent : Entry → Option Event) (size : Option ℕ)
    (content : Option (List UInt8)) (state : ReaderState) : List Event × ReaderState :=
  let (entries, state) := readIncrementalJsonl loads size content state
  (entries.filterMap structuredEvent, state)

/-! ### Runs -/

/-- The log, the reader, and all the entries that it has handed out. -/
structure LogRun (Entry : Type*) where
  log : List UInt8
  state : ReaderState
  entries : List Entry

/-- Bytes are appended, or the reader is called: a call first asks for the size and then reads, and
bytes may be appended between the two. Either can fail. -/
inductive LogAct where
  | append (bytes : List UInt8)
  | read (sizeFails contentFails : Bool) (between : List UInt8)

def LogAct.step (run : LogRun Entry) : LogAct → LogRun Entry
  | .append bytes => { run with log := run.log ++ bytes }
  | .read sizeFails contentFails between =>
    let log := run.log ++ between
    let (entries, state) := readIncrementalJsonl loads
      (if sizeFails then none else some run.log.length) (if contentFails then none else some log)
      run.state
    ⟨log, state, run.entries ++ entries⟩

def runLog (acts : List LogAct) (run : LogRun Entry) : LogRun Entry :=
  acts.foldl (LogAct.step loads) run

end Reader

/-! ### Lines -/

/-- The bytes of some lines, each with its end. -/
def flatLines (lines : List (List UInt8)) : List UInt8 := lines.flatMap (· ++ [newline])

/-- A text is complete lines and the rest of it, which has no end of line. -/
structure Cut (bytes : List UInt8) (lines : List (List UInt8)) (rest : List UInt8) : Prop where
  bytes_eq : bytes = flatLines lines ++ rest
  whole : ∀ line ∈ lines, newline ∉ line
  open_end : newline ∉ rest

theorem exists_cut (bytes : List UInt8) : ∃ lines rest, Cut bytes lines rest := by
  induction bytes with
  | nil => exact ⟨[], [], rfl, by simp, by simp⟩
  | cons b bytes ih =>
    obtain ⟨lines, rest, hbytes, hwhole, hend⟩ := ih
    by_cases hb : b = newline
    · refine ⟨[] :: lines, rest, ?_, ?_, hend⟩
      · rw [hbytes, hb]
        rfl
      · exact List.forall_mem_cons.mpr ⟨List.not_mem_nil, hwhole⟩
    · cases lines with
      | nil =>
        refine ⟨[], b :: rest, by rw [hbytes]; rfl, by simp, ?_⟩
        exact List.not_mem_cons_of_ne_of_not_mem (Ne.symm hb) hend
      | cons line lines =>
        obtain ⟨hline, hlines⟩ := List.forall_mem_cons.mp hwhole
        refine ⟨(b :: line) :: lines, rest, by rw [hbytes]; rfl, ?_, hend⟩
        refine List.forall_mem_cons.mpr ⟨?_, hlines⟩
        exact List.not_mem_cons_of_ne_of_not_mem (Ne.symm hb) hline

theorem Cut.splitOn {bytes rest : List UInt8} {lines : List (List UInt8)}
    (h : Cut bytes lines rest) : bytes.splitOn newline = lines ++ [rest] := by
  obtain ⟨rfl, hwhole, hend⟩ := h
  induction lines with
  | nil => exact List.splitOn_eq_singleton hend
  | cons line lines ih =>
    obtain ⟨hline, hlines⟩ := List.forall_mem_cons.mp hwhole
    have hcons : flatLines (line :: lines) ++ rest =
      line ++ newline :: (flatLines lines ++ rest) := by
      simp [flatLines]
    rw [hcons, List.splitOn_append_cons_self, List.splitOn_eq_singleton hline, ih hlines]
    rfl

/-- What is cut, and what it goes on with, is cut as a whole. -/
theorem Cut.append {bytes rest more rest' : List UInt8} {lines lines' : List (List UInt8)}
    (h : Cut bytes lines rest) (h' : Cut (rest ++ more) lines' rest') :
    Cut (bytes ++ more) (lines ++ lines') rest' := by
  refine ⟨?_, ?_, h'.open_end⟩
  · rw [h.bytes_eq, List.append_assoc, h'.bytes_eq, flatLines, flatLines, flatLines,
      List.flatMap_append, List.append_assoc]
  · intro line hline
    rcases List.mem_append.mp hline with hline | hline
    · exact h.whole line hline
    · exact h'.whole line hline

section Reader

variable (loads : List UInt8 → Option Entry)

/-- The lines that the reader parses are the complete ones and empty ones. -/
theorem splitBufferLines_cut {carry data rest : List UInt8} {lines : List (List UInt8)}
    (h : Cut (carry ++ data) lines rest) :
    parseJsonlEntries loads (splitBufferLines carry data).1 =
        lines.filterMap (parseJsonlEntry loads) ∧
      (splitBufferLines carry data).2 = rest := by
  have hsplit := h.splitOn
  unfold splitBufferLines
  dsimp only
  rw [hsplit]
  by_cases hrest : rest = []
  · have hclosed : ¬ (carry ++ data ≠ [] ∧ (carry ++ data).getLast? ≠ some newline) := by
      rw [h.bytes_eq, hrest, List.append_nil]
      rcases List.eq_nil_or_concat lines with rfl | ⟨lines, line, rfl⟩
      · simp [flatLines]
      · simp [flatLines, List.flatMap_append, ← List.append_assoc]
    have hempty : parseJsonlEntry loads [] = none := rfl
    rw [if_neg hclosed, hrest]
    refine ⟨?_, rfl⟩
    rw [parseJsonlEntries, List.filterMap_append, List.filterMap_cons, hempty]
    exact List.append_nil _
  · have hopen : carry ++ data ≠ [] ∧ (carry ++ data).getLast? ≠ some newline := by
      rw [h.bytes_eq]
      refine ⟨List.append_ne_nil_of_right_ne_nil _ hrest, ?_⟩
      rw [List.getLast?_append_of_ne_nil _ hrest]
      exact fun hlast => h.open_end (List.mem_of_getLast? hlast)
    rw [if_pos hopen, List.dropLast_concat]
    refine ⟨rfl, ?_⟩
    simp

theorem readIncrementalJsonl_cut {size : ℕ} {content rest : List UInt8} {state : ReaderState}
    {lines : List (List UInt8)} (hsize : state.offset ≤ size)
    (hcontent : state.offset ≤ content.length)
    (hcut : Cut (state.carry ++ content.drop state.offset) lines rest) :
    readIncrementalJsonl loads (some size) (some content) state =
      (lines.filterMap (parseJsonlEntry loads), ⟨content.length, rest⟩) := by
  obtain ⟨hentries, hcarry⟩ := splitBufferLines_cut loads hcut
  have hlength : state.offset + (content.drop state.offset).length = content.length := by
    rw [List.length_drop]
    omega
  simp only [readIncrementalJsonl, if_neg (not_lt.mpr hsize)]
  rw [hentries, hcarry, hlength]

/-- A reader that keeps what has a structure is a reader with another `loads`. -/
theorem readNewEntries_eq {Event : Type*} (structuredEvent : Entry → Option Event)
    (size : Option ℕ) (content : Option (List UInt8)) (state : ReaderState) :
    readNewEntries loads structuredEvent size content state =
      readIncrementalJsonl (fun line => (loads line).bind structuredEvent) size content state := by
  have hentry (raw : List UInt8) : (parseJsonlEntry loads raw).bind structuredEvent =
      parseJsonlEntry (fun line => (loads line).bind structuredEvent) raw := by
    simp only [parseJsonlEntry]
    split_ifs <;> rfl
  have hentries (lines : List (List UInt8)) :
      (parseJsonlEntries loads lines).filterMap structuredEvent =
        parseJsonlEntries (fun line => (loads line).bind structuredEvent) lines := by
    rw [parseJsonlEntries, List.filterMap_filterMap, parseJsonlEntries]
    exact List.filterMap_congr fun raw _ => hentry raw
  unfold readNewEntries readIncrementalJsonl
  cases size with
  | none => rfl
  | some size =>
    cases content with
    | none => rfl
    | some content =>
      dsimp only
      rw [hentries]

/-! ### Runs -/

/-- A run in which the lines from a start on have been handed out, up to the offset. -/
structure Follows (start : ℕ) (run : LogRun Entry) (lines : List (List UInt8)) : Prop where
  start_le : start ≤ run.state.offset
  offset_le : run.state.offset ≤ run.log.length
  cut : Cut ((run.log.take run.state.offset).drop start) lines run.state.carry
  entries_eq : run.entries = lines.filterMap (parseJsonlEntry loads)

theorem follows_start {start : ℕ} {log : List UInt8} (h : start ≤ log.length) :
    Follows loads start (⟨log, ⟨start, []⟩, []⟩ : LogRun Entry) [] := by
  refine ⟨le_rfl, h, ⟨?_, by simp, by simp⟩, rfl⟩
  rw [List.drop_eq_nil_of_le (by simp [h])]
  rfl

variable {loads} {start : ℕ} {run : LogRun Entry} {lines : List (List UInt8)}

theorem Follows.append (h : Follows loads start run lines) (bytes : List UInt8) :
    Follows loads start { run with log := run.log ++ bytes } lines := by
  obtain ⟨hstart, hoffset, hcut, hentries⟩ := h
  refine ⟨hstart, hoffset.trans (by simp), ?_, hentries⟩
  dsimp only
  rw [List.take_append_of_le_length hoffset]
  exact hcut

/-- A call that succeeds hands out the lines that have become complete. -/
theorem Follows.read (h : Follows loads start run lines) {size : ℕ}
    (hsize : run.state.offset ≤ size) :
    ∃ lines' rest, Cut (run.log.drop start) (lines ++ lines') rest ∧
      readIncrementalJsonl loads (some size) (some run.log) run.state =
        (lines'.filterMap (parseJsonlEntry loads), ⟨run.log.length, rest⟩) := by
  obtain ⟨lines', rest, hnew⟩ := exists_cut (run.state.carry ++ run.log.drop run.state.offset)
  refine ⟨lines', rest, ?_, readIncrementalJsonl_cut loads hsize h.offset_le hnew⟩
  have hwhole := h.cut.append hnew
  have hsplit : (run.log.take run.state.offset).drop start ++ run.log.drop run.state.offset =
      run.log.drop start := by
    have htake := List.take_append_drop run.state.offset run.log
    have hlength : start ≤ (run.log.take run.state.offset).length := by
      rw [List.length_take, min_eq_left h.offset_le]
      exact h.start_le
    rw [← List.drop_append_of_le_length hlength, htake]
  rwa [hsplit] at hwhole

theorem Follows.step (h : Follows loads start run lines) (act : LogAct) :
    ∃ lines', Follows loads start (act.step loads run) lines' := by
  cases act with
  | append bytes => exact ⟨lines, h.append bytes⟩
  | read sizeFails contentFails between =>
    have hgrown := h.append between
    have hfails : Follows loads start ⟨run.log ++ between, run.state, run.entries ++ []⟩ lines := by
      rw [List.append_nil]
      exact hgrown
    cases sizeFails with
    | true => exact ⟨lines, hfails⟩
    | false =>
      cases contentFails with
      | true =>
        have hkept : readIncrementalJsonl loads (some run.log.length) none run.state =
            ([], run.state) := by
          simp [readIncrementalJsonl, not_lt.mpr h.offset_le]
        refine ⟨lines, ?_⟩
        simp only [LogAct.step, Bool.false_eq_true, if_false, if_true, hkept]
        exact hfails
      | false =>
        obtain ⟨lines', rest, hcut, hread⟩ := hgrown.read h.offset_le
        dsimp only at hcut hread
        refine ⟨lines ++ lines', ?_⟩
        simp only [LogAct.step, Bool.false_eq_true, if_false, hread]
        refine ⟨?_, le_rfl, ?_, ?_⟩
        · exact h.start_le.trans hgrown.offset_le
        · dsimp only
          rw [List.take_length]
          exact hcut
        · rw [List.filterMap_append, h.entries_eq]

theorem Follows.runLog (h : Follows loads start run lines) (acts : List LogAct) :
    ∃ lines', Follows loads start (Providers.runLog loads acts run) lines' := by
  induction acts generalizing run lines with
  | nil => exact ⟨lines, h⟩
  | cons act acts ih =>
    obtain ⟨lines', h'⟩ := h.step act
    exact ih h'

/-- However the bytes come and the calls fall between them: with a last call, the entries handed
out are those of one call on the whole log, one for each complete line that holds one, and what
is carried over is the line that has not ended. -/
theorem read_chunks (loads : List UInt8 → Option Entry) (before rest : List UInt8)
    (acts : List LogAct) :
    let run := runLog loads acts ⟨before ++ rest, ⟨before.length, []⟩, []⟩
    let call := readIncrementalJsonl loads (some run.log.length) (some run.log)
    ∃ lines carry, run.log.drop before.length = flatLines lines ++ carry ∧
      (∀ line ∈ lines, newline ∉ line) ∧ newline ∉ carry ∧
      run.entries ++ (call run.state).1 = lines.filterMap (parseJsonlEntry loads) ∧
      (call run.state).2 = ⟨run.log.length, carry⟩ ∧
      run.entries ++ (call run.state).1 = (call ⟨before.length, []⟩).1 ∧
      (call run.state).2 = (call ⟨before.length, []⟩).2 := by
  intro run call
  have hstart : before.length ≤ (before ++ rest).length := by simp
  obtain ⟨lines, h⟩ := (follows_start loads hstart).runLog acts
  obtain ⟨lines', carry, hcut, hread⟩ := h.read h.offset_le
  have honce : call ⟨before.length, []⟩ =
      ((lines ++ lines').filterMap (parseJsonlEntry loads), ⟨run.log.length, carry⟩) := by
    have hle : before.length ≤ run.log.length := h.start_le.trans h.offset_le
    exact readIncrementalJsonl_cut loads hle hle hcut
  have hentries : run.entries ++ (call run.state).1 =
      (lines ++ lines').filterMap (parseJsonlEntry loads) := by
    rw [show call run.state = _ from hread, List.filterMap_append]
    exact congrArg (· ++ _) h.entries_eq
  refine ⟨lines ++ lines', carry, hcut.bytes_eq, hcut.whole, hcut.open_end, hentries, ?_, ?_, ?_⟩
  · rw [show call run.state = _ from hread]
  · rw [hentries, honce]
  · rw [honce, show call run.state = _ from hread]

end Reader

end CodexBridge.Providers
