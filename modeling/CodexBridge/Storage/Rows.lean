import CodexBridge.Storage.JsonlStore

/-! What appending rows makes of a file, and reading it forwards. Each row is one line of the
file, whatever characters it has, and the lines of a file are its rows. -/

namespace CodexBridge.Storage

/-! ### Rows and their lines -/

namespace Row

theorem text_ends (row : Row) : ∃ cs, row.text = '{' :: cs ++ ['}'] := by
  suffices h : ∀ fs : Payload, ∃ cs, Json.dumpsFields fs = cs ++ ['}'] by
    obtain ⟨cs, hcs⟩ := h row.payload
    exact ⟨cs, by rw [text, Json.Value.dumps, hcs]; rfl⟩
  intro fs
  induction fs with
  | nil => exact ⟨[], by rw [Json.dumpsFields]; rfl⟩
  | cons f fs ih =>
    obtain ⟨k, v⟩ := f
    obtain ⟨cs, hcs⟩ := ih
    cases fs with
    | nil => exact ⟨Json.quote k ++ ':' :: ' ' :: v.dumps, by rw [Json.dumpsFields]; simp⟩
    | cons f fs =>
      refine ⟨Json.quote k ++ ':' :: ' ' :: (v.dumps ++ ',' :: ' ' :: cs), ?_⟩
      rw [Json.dumpsFields, hcs]
      simp

variable (row : Row)

theorem stripped_text : stripped row.text = row.text := by
  obtain ⟨cs, hcs⟩ := row.text_ends
  rw [hcs, stripped, List.cons_append, List.dropWhile_cons_of_neg (by decide),
    ← List.cons_append, List.rdropWhile_concat_neg _ _ _ (by decide)]

theorem object_text (path : String) : JsonlStore.object path row.text = .ok row.payload := by
  rw [JsonlStore.object, text, Json.loads_dumps row.valid]
  rfl

end Row

/-- The lines of rows, as bytes. -/
def linesOf (rows : List Row) : List (List UInt8) := rows.map fun row => encode row.text

namespace JsonlStore

variable {T : Type} (path : String)

/-- A file after rows have been appended to it, one after the other. -/
def written (rows : List Row) : File := rows.foldl (fun file row => append row id file) ⟨path, none⟩

theorem written_concat (rows : List Row) (row : Row) :
    written path (rows ++ [row]) = append row id (written path rows) := List.foldl_concat ..

/-- The bytes of the rows of a file. -/
def content (rows : List Row) : List UInt8 := (linesOf rows).flatMap fun line => line ++ [10]

theorem written_eq (rows : List Row) :
    written path rows = ⟨path, if rows = [] then none else some (content rows)⟩ := by
  induction rows using List.reverseRecOn with
  | nil => rfl
  | append_singleton rows row ih =>
    have hcontent : content (rows ++ [row]) = content rows ++ (encode row.text ++ [10]) := by
      simp [content, linesOf]
    have hline : encode (row.text ++ ['\n']) = encode row.text ++ [10] := encode_append ..
    rw [written_concat, ih, append, if_neg (List.append_ne_nil_of_right_ne_nil _ (by simp)),
      hcontent, ← hline]
    cases rows <;> rfl

theorem written_of_ne_nil {rows : List Row} (h : rows ≠ []) :
    written path rows = ⟨path, some (content rows)⟩ := by
  rw [written_eq, if_neg h]

/-- The lines of a file are its rows. -/
theorem filled_content (rows : List Row) : byteBreaks.filled (content rows) = linesOf rows := by
  refine byteBreaks.filled_flatMap ?_
  intro line hline
  obtain ⟨row, -, rfl⟩ := List.mem_map.mp hline
  exact ⟨row.encode_text_ne_nil, ends_encode row.oneLine⟩

/-! ### Forwards -/

section Forwards

variable (loader : Payload → Except Raised T)

theorem decode_content (rows : List Row) :
    decode (content rows) = .ok ((rows.map Row.text).flatMap fun text => text ++ ['\n']) := by
  have h : content rows = encode ((rows.map Row.text).flatMap fun text => text ++ ['\n']) := by
    induction rows with
    | nil => rfl
    | cons row rows ih =>
      rw [List.map_cons, List.flatMap_cons, encode_append, encode_append, ← ih]
      rfl
  rw [h, decode_encode]

theorem loadRows_filled (lines : List (List Char)) :
    loadRows path loader lines = loadRows path loader (lines.filter fun line => !line.isEmpty) := by
  induction lines with
  | nil => rfl
  | cons line lines ih =>
    cases line with
    | nil => exact ih
    | cons c line =>
      show loadRows path loader ((c :: line) :: lines) = loadRows path loader ((c :: line) :: _)
      rw [loadRows, loadRows, ih]

theorem loadRows_texts (rows : List Row) :
    loadRows path loader (rows.map Row.text) = (rows.map Row.payload).mapM loader := by
  induction rows with
  | nil => rfl
  | cons row rows ih =>
    have hne : row.text.isEmpty = false := by simpa using row.text_ne_nil
    rw [List.map_cons, loadRows, row.stripped_text, hne, row.object_text, ih, List.map_cons,
      List.mapM_cons]
    rfl

theorem textLines_content {rows : List Row} :
    textBreaks.filled ((rows.map Row.text).flatMap fun text => text ++ ['\n']) =
      rows.map Row.text := by
  refine textBreaks.filled_flatMap ?_
  intro line hline
  obtain ⟨row, -, rfl⟩ := List.mem_map.mp hline
  exact ⟨row.text_ne_nil, ends_text row.oneLine⟩

/-- Reading a file of rows gives the rows. -/
theorem readAll_written (rows : List Row) :
    readAll loader (written path rows) = (rows.map Row.payload).mapM loader := by
  by_cases hrows : rows = []
  · subst hrows
    rfl
  · have hload := loadRows_filled path loader
      (textBreaks.lines ((rows.map Row.text).flatMap fun text => text ++ ['\n']))
    rw [written_of_ne_nil path hrows, readAll, ← loadRows_texts path, ← textLines_content]
    simp only [decode_content]
    exact hload

theorem loadSince_filled (start current : ℕ) (lines : List (List Char)) :
    loadSince path loader start current lines =
      loadSince path loader start current (lines.filter fun line => !line.isEmpty) := by
  induction lines generalizing current with
  | nil => rfl
  | cons line lines ih =>
    cases line with
    | nil => exact ih current
    | cons c line =>
      show loadSince path loader start current ((c :: line) :: lines) =
        loadSince path loader start current ((c :: line) :: _)
      rw [loadSince, loadSince, ih, ih]

/-- Every row counts, but only those behind the start are loaded. -/
theorem loadSince_texts (start current : ℕ) (rows : List Row) :
    loadSince path loader start current (rows.map Row.text) =
      (current + rows.length, ·) <$>
        ((rows.map Row.payload).drop (start - current)).mapM loader := by
  induction rows generalizing current with
  | nil => simp [loadSince]
  | cons row rows ih =>
    have hne : row.text.isEmpty = false := by simpa using row.text_ne_nil
    have hlength : current + (row :: rows).length = current + 1 + rows.length := by
      rw [List.length_cons]
      omega
    rw [List.map_cons, loadSince, row.stripped_text, hne, hlength, List.map_cons]
    show (if current + 1 ≤ start then _ else _) = _
    by_cases hskip : current + 1 ≤ start
    · have hdrop : start - current = (start - (current + 1)) + 1 := by omega
      rw [if_pos hskip, ih, hdrop, List.drop_succ_cons]
    · have hdrop : start - current = 0 := by omega
      have hdrop' : start - (current + 1) = 0 := by omega
      rw [if_neg hskip, row.object_text, ih, hdrop, hdrop', List.drop_zero, List.drop_zero,
        List.mapM_cons]
      show (loader row.payload >>= _) = _
      cases loader row.payload with
      | error e => rfl
      | ok loaded => cases (rows.map Row.payload).mapM loader <;> rfl

/-- Reading a file on from a line gives the rows behind it, and how many there are in all. -/
theorem readSince_written {start : ℕ} {rows : List Row} (h : start ≤ rows.length) :
    readSince loader start (written path rows) =
      (((rows.length : ℕ) : ℤ), ·) <$> ((rows.map Row.payload).drop start).mapM loader := by
  rw [readSince, if_neg (by omega)]
  by_cases hrows : rows = []
  · subst hrows
    have hstart : start = 0 := by simpa using h
    subst hstart
    rfl
  · have hload := loadSince_filled path loader start 0
      (textBreaks.lines ((rows.map Row.text).flatMap fun text => text ++ ['\n']))
    have htexts := loadSince_texts path loader start 0 rows
    rw [Nat.zero_add, Nat.sub_zero, ← textLines_content] at htexts
    rw [written_of_ne_nil path hrows]
    simp only [decode_content]
    show (loadSince path loader start 0 _ >>= _) = _
    rw [hload]
    show (loadSince path loader start 0 (textBreaks.filled _) >>= _) = _
    rw [htexts]
    cases ((rows.map Row.payload).drop start).mapM loader <;> rfl

end Forwards

end JsonlStore

end CodexBridge.Storage
