import CodexBridge.Providers.Protocol

/-! Lines of a text and markers among them. A line break ends a line whatever comes after it, the
marker of a request is a line of its own and names no other request, and a line of noise is no
marker. -/

namespace CodexBridge.Protocol

open Storage (rstripped joinLines)

/-! ### Lines -/

theorem isLineBreak_feed : isLineBreak '\n' = true := rfl

theorem extendLine_append (c : Char) {lines : List Line} (h : lines ≠ []) (lines' : List Line) :
    extendLine c (lines ++ lines') = extendLine c lines ++ lines' := by
  cases lines with
  | nil => exact absurd rfl h
  | cons line lines => rfl

theorem extendLine_ne_nil (c : Char) (lines : List Line) : extendLine c lines ≠ [] := by
  cases lines <;> exact List.cons_ne_nil _ _

theorem splitlines_ne_nil {cs : List Char} (h : cs ≠ []) : splitlines cs ≠ [] := by
  induction cs with
  | nil => exact absurd rfl h
  | cons c cs ih =>
    rw [splitlines]
    split_ifs with hreturn
    · refine ih ?_
      rintro rfl
      cases hreturn.2
    · exact List.cons_ne_nil _ _
    · exact extendLine_ne_nil _ _

/-- Where `a` ends with a line break that `b` does not go on with, the lines of both are those of
each. -/
theorem splitlines_append {a b : List Char}
    (h : ∀ c ∈ a.getLast?, isLineBreak c = true ∧ ¬ (c = '\r' ∧ b.head? = some '\n')) :
    splitlines (a ++ b) = splitlines a ++ splitlines b := by
  induction a with
  | nil => rfl
  | cons c a ih =>
    cases a with
    | nil =>
      obtain ⟨hbreak, hreturn⟩ := h c rfl
      rw [List.singleton_append, splitlines, if_neg hreturn, hbreak, if_pos rfl]
      simp [splitlines, hbreak]
    | cons d a =>
      have hlast : (c :: d :: a).getLast? = (d :: a).getLast? := by simp
      rw [hlast] at h
      rw [List.cons_append, splitlines, splitlines, List.cons_append, List.head?_cons,
        List.head?_cons, ← List.cons_append, ih h]
      split_ifs
      · rfl
      · rfl
      · exact extendLine_append c (splitlines_ne_nil (List.cons_ne_nil d a)) _

theorem splitlines_feed_append (a b : List Char) :
    splitlines (a ++ ['\n'] ++ b) = splitlines (a ++ ['\n']) ++ splitlines b := by
  refine splitlines_append fun c hc => ?_
  rw [List.getLast?_append, List.getLast?_singleton, Option.some_or, Option.mem_some] at hc
  subst hc
  exact ⟨rfl, fun h => absurd h.1 (by decide)⟩

/-- One more line feed adds a blank line, or none. -/
theorem splitlines_feed (a : List Char) :
    splitlines (a ++ ['\n']) = splitlines a ∨ splitlines (a ++ ['\n']) = splitlines a ++ [[]] := by
  induction a with
  | nil => exact .inr rfl
  | cons c a ih =>
    cases a with
    | nil =>
      by_cases hreturn : c = '\r'
      · subst hreturn
        exact .inl rfl
      · by_cases hbreak : isLineBreak c = true
        · exact .inr (by simp [splitlines, hreturn, hbreak, isLineBreak_feed])
        · exact .inl (by simp [splitlines, hreturn, hbreak, isLineBreak_feed, extendLine])
    | cons d a =>
      rw [List.cons_append, splitlines, splitlines, List.cons_append, List.head?_cons,
        List.head?_cons, ← List.cons_append]
      split_ifs
      · exact ih
      · exact ih.imp (congrArg _) (congrArg _)
      · rcases ih with ih | ih
        · exact .inl (congrArg _ ih)
        · rw [ih, extendLine_append c (splitlines_ne_nil (List.cons_ne_nil d a))]
          exact .inr rfl

theorem splitlines_line {line : Line} (h : ∀ c ∈ line, isLineBreak c = false) :
    splitlines (line ++ ['\n']) = [line] := by
  induction line with
  | nil => rfl
  | cons c line ih =>
    obtain ⟨hc, hline⟩ := List.forall_mem_cons.mp h
    have hreturn : c ≠ '\r' := by
      rintro rfl
      cases hc
    rw [List.cons_append, splitlines, if_neg fun hcr => hreturn hcr.1, hc,
      if_neg Bool.false_ne_true,
      ih hline]
    rfl

/-- The last line need not end. -/
theorem splitlines_concat {cs : List Char} {c : Char} (h : isLineBreak c = false) :
    splitlines (cs ++ [c] ++ ['\n']) = splitlines (cs ++ [c]) := by
  induction cs with
  | nil =>
    have hreturn : c ≠ '\r' := by
      rintro rfl
      cases h
    simp [splitlines, hreturn, h, isLineBreak_feed, extendLine]
  | cons d cs ih =>
    have hhead : (cs ++ [c] ++ ['\n']).head? = (cs ++ [c]).head? := by cases cs <;> rfl
    rw [List.cons_append, List.cons_append, splitlines, splitlines, hhead, ih]

theorem splitlines_feedless (cs : List Char) : ∀ line ∈ splitlines cs, '\n' ∉ line := by
  induction cs with
  | nil => exact List.forall_mem_nil _
  | cons c cs ih =>
    rw [splitlines]
    split_ifs with hreturn hbreak
    · exact ih
    · exact List.forall_mem_cons.mpr ⟨List.not_mem_nil, ih⟩
    · have hc : '\n' ≠ c := by
        rintro rfl
        exact hbreak rfl
      cases hlines : splitlines cs with
      | nil =>
        intro line hline
        rw [List.mem_singleton.mp hline]
        exact fun hmem => hc (List.mem_singleton.mp hmem)
      | cons line lines =>
        rw [hlines] at ih
        obtain ⟨hline, hrest⟩ := List.forall_mem_cons.mp ih
        refine List.forall_mem_cons.mpr ⟨?_, hrest⟩
        exact List.not_mem_cons_of_ne_of_not_mem hc hline

/-- No line is left with a line feed to take off. -/
theorem splitLines_ofList (cs : List Char) : splitLines (String.ofList cs) = splitlines cs := by
  rw [splitLines, String.toList_ofList]
  conv_rhs => rw [← List.map_id (splitlines cs)]
  refine List.map_congr_left fun line hline => ?_
  rw [id, List.rdropWhile_eq_self_iff]
  intro hne hlast
  have hfeed : line.getLast hne = '\n' := of_decide_eq_true hlast
  exact splitlines_feedless cs line hline (hfeed ▸ List.getLast_mem hne)

/-! ### Spaces -/

theorem trimBlankEdges_concat (lines : List Line) :
    trimBlankEdges (lines ++ [[]]) = trimBlankEdges lines := by
  unfold trimBlankEdges
  rw [List.dropWhile_append]
  split_ifs with hempty
  · rw [List.isEmpty_iff.mp hempty]
    rfl
  · exact List.rdropWhile_concat_pos _ _ _ rfl

theorem stripped_rstripped (cs : List Char) : stripped (rstripped cs) = stripped cs := by
  induction cs using List.reverseRecOn with
  | nil => rfl
  | append_singleton cs c ih =>
    by_cases hc : isSpace c = true
    · have hdrop : stripped (cs ++ [c]) = stripped cs := by
        unfold stripped
        rw [List.dropWhile_append]
        split_ifs with hempty
        · rw [List.isEmpty_iff.mp hempty, List.dropWhile_cons_of_pos hc]
          rfl
        · exact List.rdropWhile_concat_pos _ _ _ hc
      rw [rstripped, List.rdropWhile_concat_pos _ _ _ hc, hdrop]
      exact ih
    · rw [Storage.rstripped_concat _ (Bool.eq_false_iff.mpr hc)]

theorem isTrailingNoiseLine_rstripped (line : Line) :
    isTrailingNoiseLine (rstripped line) = isTrailingNoiseLine line := by
  rw [isTrailingNoiseLine, isBlank, stripped_rstripped]
  rfl

/-- Where neither end of a text is a space, there is nothing to strip. -/
theorem stripped_edges {c d : Char} (hc : isSpace c = false) (hd : isSpace d = false)
    (cs : List Char) : stripped (c :: cs ++ [d]) = c :: cs ++ [d] := by
  have hdrop : (c :: cs ++ [d]).dropWhile isSpace = c :: cs ++ [d] :=
    List.dropWhile_cons_of_neg (by simp [hc])
  rw [stripped, hdrop]
  exact Storage.rstripped_concat (c :: cs) hd

/-! ### Literals -/

theorem dropLiteral_append {same : Char → Char → Bool} (h : ∀ c, same c c = true)
    (ps text : List Char) : dropLiteral same ps (ps ++ text) = some text := by
  induction ps with
  | nil => rfl
  | cons p ps ih => rw [List.cons_append, dropLiteral, if_pos (h p), ih]

/-- Characters that are told apart one by one are told apart as a literal. -/
theorem dropLiteral_eq_append {same : Char → Char → Bool} {chars : List Char}
    (hsame : ∀ c ∈ chars, ∀ p ∈ chars, same c p = true → c = p) {ps text rest : List Char}
    (hps : ∀ p ∈ ps, p ∈ chars) (htext : ∀ c ∈ text, c ∈ chars)
    (h : dropLiteral same ps text = some rest) : text = ps ++ rest := by
  induction ps generalizing text with
  | nil =>
    cases h
    rfl
  | cons p ps ih =>
    cases text with
    | nil => cases h
    | cons c text =>
      obtain ⟨hp, hps⟩ := List.forall_mem_cons.mp hps
      obtain ⟨hc, htext⟩ := List.forall_mem_cons.mp htext
      rw [dropLiteral] at h
      split_ifs at h with hcp
      rw [hsame c hc p hp hcp, ih hps htext h]
      rfl

theorem exactly_self (c : Char) : exactly c c = true := decide_eq_true rfl

theorem ignoreCase_self (c : Char) : ignoreCase c c = true := by simp [ignoreCase]

/-! ### Request ids -/

structure JobReqId where
  text : List Char
  job : jobReqId exactly text = true

/-- The characters of job ids. -/
def idChars : List Char := '_' :: jobChars

theorem idChars_plain {c : Char} (h : c ∈ idChars) :
    isSpace c = false ∧ isLineBreak c = false := by
  have hall : idChars.all (fun c => isSpace c = false ∧ isLineBreak c = false) = true := by
    decide +kernel
  exact of_decide_eq_true (List.all_eq_true.mp hall c h)

/-- Job ids are in lower case, and case is all that `re.IGNORECASE` ignores of them. -/
theorem ignoreCase_idChars : ∀ c ∈ idChars, ∀ p ∈ idChars, ignoreCase c p = true → c = p := by
  have hall : idChars.all (fun c => idChars.all fun p => ignoreCase c p → c = p) = true := by
    decide +kernel
  intro c hc p hp
  exact of_decide_eq_true (List.all_eq_true.mp (List.all_eq_true.mp hall c hc) p hp)

theorem exactly_idChars : ∀ c ∈ idChars, ∀ p ∈ idChars, exactly c p = true → c = p :=
  fun _ _ _ _ => of_decide_eq_true

namespace JobReqId

variable (r : JobReqId)

theorem text_eq : ∃ rest, r.text = "job_".toList ++ rest ∧ rest ≠ [] ∧
    ∀ c ∈ rest, c ∈ jobChars := by
  have hjob := r.job
  unfold jobReqId at hjob
  split at hjob
  · cases hjob
  case h_2 rest hrest =>
    rw [Bool.and_eq_true, Bool.not_eq_true', List.isEmpty_eq_false_iff, List.all_eq_true] at hjob
    refine ⟨rest, ?_, hjob.1, fun c hc => ?_⟩
    · have hexactly : ∀ c ∈ r.text ++ "job_".toList, ∀ p ∈ r.text ++ "job_".toList,
          exactly c p = true → c = p := fun _ _ _ _ => of_decide_eq_true
      exact dropLiteral_eq_append hexactly (fun p => List.mem_append_right _)
        (fun c => List.mem_append_left _) hrest
    · obtain ⟨p, hp, hcp⟩ := List.any_eq_true.mp (hjob.2 c hc)
      exact of_decide_eq_true hcp ▸ hp

theorem mem_idChars {c : Char} (h : c ∈ r.text) : c ∈ idChars := by
  obtain ⟨rest, htext, -, hrest⟩ := r.text_eq
  rw [htext] at h
  rcases List.mem_append.mp h with h | h
  · have hall : "job_".toList.all (· ∈ idChars) = true := by decide +kernel
    exact of_decide_eq_true (List.all_eq_true.mp hall c h)
  · exact List.mem_cons_of_mem _ (hrest c h)

/-- The first character and the last one. -/
theorem edges : ∃ cs c, r.text = 'j' :: cs ++ [c] := by
  obtain ⟨rest, htext, hne, -⟩ := r.text_eq
  obtain ⟨init, c, rfl⟩ := List.eq_nil_or_concat rest |>.resolve_left hne
  exact ⟨"ob_".toList ++ init, c, by simp [htext]⟩

theorem anyReqId : anyReqId ignoreCase r.text = true := by
  obtain ⟨rest, htext, hne, hrest⟩ := r.text_eq
  rw [Protocol.anyReqId, jobReqId, htext, dropLiteral_append ignoreCase_self]
  have hchars : (rest.all fun c => jobChars.any (ignoreCase c)) = true :=
    List.all_eq_true.mpr fun c hc => List.any_eq_true.mpr ⟨c, hrest c hc, ignoreCase_self c⟩
  simp [hne, hchars]

end JobReqId

/-! ### Markers -/

def markerLine (r : JobReqId) : Line := donePrefix.toList ++ ' ' :: r.text

theorem markerLine_edges (r : JobReqId) : ∃ cs c, markerLine r = 'C' :: cs ++ [c] ∧
    isSpace c = false ∧ isLineBreak c = false := by
  obtain ⟨cs, c, hedges⟩ := r.edges
  refine ⟨"CB_DONE: j".toList ++ cs, c, by simp [markerLine, hedges, donePrefix], ?_⟩
  exact idChars_plain (r.mem_idChars (by simp [hedges]))

theorem markerLine_unbroken (r : JobReqId) : ∀ c ∈ markerLine r, isLineBreak c = false := by
  refine List.forall_mem_append.mpr ⟨?_, List.forall_mem_cons.mpr ⟨rfl, fun c hc => ?_⟩⟩
  · have hall : donePrefix.toList.all (isLineBreak · = false) = true := by decide +kernel
    exact fun c hc => of_decide_eq_true (List.all_eq_true.mp hall c hc)
  · exact (idChars_plain (r.mem_idChars hc)).2

@[simp] theorem stripped_markerLine (r : JobReqId) : stripped (markerLine r) = markerLine r := by
  obtain ⟨cs, c, hedges, hc, -⟩ := markerLine_edges r
  rw [hedges]
  exact stripped_edges rfl hc cs

@[simp] theorem rstripped_markerLine (r : JobReqId) : rstripped (markerLine r) = markerLine r := by
  obtain ⟨cs, c, hedges, hc, -⟩ := markerLine_edges r
  rw [hedges]
  exact Storage.rstripped_concat ('C' :: cs) hc

@[simp] theorem lstrip_markerLine (r : JobReqId) : lstrip (markerLine r) = markerLine r := by
  obtain ⟨cs, c, hedges, -⟩ := markerLine_edges r
  rw [hedges]
  exact List.dropWhile_cons_of_neg Bool.false_ne_true

theorem lstrip_text (r : JobReqId) : lstrip (' ' :: r.text) = r.text := by
  obtain ⟨cs, c, hedges⟩ := r.edges
  rw [hedges]
  exact List.dropWhile_cons_of_pos rfl |>.trans (List.dropWhile_cons_of_neg Bool.false_ne_true)

theorem anyDoneLine_markerLine (r : JobReqId) : anyDoneLine (markerLine r) = true := by
  rw [anyDoneLine, stripped_markerLine, markerLine, dropLiteral_append ignoreCase_self]
  exact (congrArg _ (lstrip_text r)).trans r.anyReqId

/-- The marker of a request is the done line of no other. -/
theorem doneLine_markerLine {same : Char → Char → Bool} (hself : ∀ c, same c c = true)
    (hchars : ∀ c ∈ idChars, ∀ p ∈ idChars, same c p = true → c = p)
    (hspace : same ' ' 'j' = false) (r r' : JobReqId) :
    doneLine same r'.text (markerLine r) = true ↔ r'.text = r.text := by
  obtain ⟨cs, c, hedges⟩ := r.edges
  obtain ⟨cs', c', hedges'⟩ := r'.edges
  have htake : (' ' :: r.text).takeWhile isSpace = [' '] := by
    rw [hedges]
    rfl
  have hstart : dropLiteral same r'.text (' ' :: r.text) = none := by
    rw [hedges', List.cons_append, dropLiteral, hspace, if_neg Bool.false_ne_true]
  have hrange : List.range 2 = [0, 1] := rfl
  rw [doneLine, markedLine, lstrip_markerLine, markerLine, dropLiteral_append hself]
  simp only [htake, List.length_singleton, hrange, List.any_cons, List.any_nil, List.drop_zero,
    hstart, List.drop_one, List.tail_cons, Bool.or_false, Bool.false_or]
  refine ⟨fun h => ?_, fun h => ?_⟩
  · split at h
    · cases h
    case h_2 after hafter =>
      have htext := dropLiteral_eq_append hchars (fun _ => r'.mem_idChars)
        (fun _ => r.mem_idChars) hafter
      cases after with
      | nil => rw [htext, List.append_nil]
      | cons a after =>
        have ha : a ∈ r.text := by simp [htext]
        have hplain := (idChars_plain (r.mem_idChars ha)).1
        rw [List.all_cons, hplain, Bool.false_and] at h
        cases h
  · have hdrop := dropLiteral_append hself r.text []
    rw [List.append_nil] at hdrop
    rw [h, hdrop]
    rfl

/-! ### Noise -/

/-- A character that is a capital letter of a tag for `re.IGNORECASE` is no end of a tag, and
it is that letter if it is in a tag itself. -/
def TagLetter (p : Char) : Prop :=
  ∀ c, ignoreCase c p = true →
    isSpace c = false ∧ c ≠ ':' ∧ (isTagChar c = true → c = p)

theorem toLower_cases (c : Char) :
    c = c.toLower ∨ 97 ≤ c.toLower.toNat ∧ c.toLower.toNat = c.toNat + 32 := by
  by_cases hc : 65 ≤ c.toNat ∧ c.toNat ≤ 90
  · right
    rw [toLower_toNat, if_pos hc]
    omega
  · left
    exact Char.toNat_inj.mp (by rw [toLower_toNat, if_neg hc])

theorem tagLetter_of_lower {p : Char} (hcapital : p.toNat < 97)
    (hextra : p.toLower ∉ ['i', 'k', 's'])
    (hp : isSpace p = false ∧ p ≠ ':')
    (hlower : isSpace p.toLower = false ∧ p.toLower ≠ ':' ∧
      (isTagChar p.toLower = true → p.toLower = p)) : TagLetter p := by
  intro c hcp
  have hcase : c.toLower = p.toLower := by
    simp only [List.mem_cons, List.not_mem_nil, or_false, not_or] at hextra
    simpa [ignoreCase, hextra] using hcp
  rcases toLower_cases c with hc | ⟨hc, hcnat⟩
  · rw [hc, hcase]
    exact hlower
  · rcases toLower_cases p with hpp | ⟨-, hpnat⟩
    · rw [hcase, ← hpp] at hc
      omega
    · rw [hcase] at hcnat
      have heq : c = p := Char.toNat_inj.mp (by omega)
      rw [heq]
      exact ⟨hp.1, hp.2, fun _ => rfl⟩

theorem ccbDone_tagLetter : ∀ p ∈ "CCB_DONE".toList, TagLetter p := by
  have hall : "CCB_DONE".toList.all (fun p => p.toNat < 97 ∧ p.toLower ∉ ['i', 'k', 's'] ∧
      (isSpace p = false ∧ p ≠ ':') ∧ isSpace p.toLower = false ∧ p.toLower ≠ ':' ∧
        (isTagChar p.toLower = true → p.toLower = p)) = true := by decide +kernel
  intro p hp
  obtain ⟨hcapital, hextra, hplain, hlower⟩ := of_decide_eq_true (List.all_eq_true.mp hall p hp)
  exact tagLetter_of_lower hcapital hextra hplain hlower

/-- A text that begins like a literal, but for its case, either begins with the literal or has
no tag at its start that ends properly. -/
theorem dropLiteral_tag {ps text rest : List Char} (hps : ∀ p ∈ ps, TagLetter p)
    (h : dropLiteral ignoreCase ps text = some rest) :
    dropLiteral exactly ps text = some rest ∨
      ∃ c after, text.dropWhile isTagChar = c :: after ∧ isSpace c = false ∧ c ≠ ':' := by
  induction ps generalizing text with
  | nil => exact .inl h
  | cons p ps ih =>
    cases text with
    | nil => cases h
    | cons c text =>
      obtain ⟨hp, hps⟩ := List.forall_mem_cons.mp hps
      rw [dropLiteral] at h
      split_ifs at h with hcp
      obtain ⟨hspace, hcolon, htag⟩ := hp c hcp
      by_cases hc : isTagChar c = true
      · rw [List.dropWhile_cons_of_pos hc, dropLiteral, htag hc, if_pos (exactly_self p)]
        exact ih hps h
      · rw [List.dropWhile_cons_of_neg hc]
        exact .inr ⟨c, text, rfl, hspace, hcolon⟩

theorem dropLiteral_bind (same : Char → Char → Bool) (ps qs text : List Char) :
    dropLiteral same (ps ++ qs) text = (dropLiteral same ps text).bind (dropLiteral same qs) := by
  induction ps generalizing text with
  | nil => rfl
  | cons p ps ih =>
    cases text with
    | nil => rfl
    | cons c text =>
      rw [List.cons_append, dropLiteral, dropLiteral, ih]
      split_ifs <;> rfl

theorem ignoreCase_colon {c : Char} (h : ignoreCase c ':' = true) : c = ':' := by
  have hlower : (':' : Char).toLower = ':' := by decide
  have hcase : c.toLower = ':' := by simpa [ignoreCase, hlower] using h
  rcases toLower_cases c with hc | ⟨hc, -⟩
  · rw [hc, hcase]
  · rw [hcase] at hc
    exact absurd hc (by decide)

/-- A line of noise ends no reply. -/
theorem anyDoneLine_of_noise {line : Line} (h : isTrailingNoiseLine line = true) :
    anyDoneLine line = false := by
  by_contra hdone
  rw [Bool.not_eq_false, anyDoneLine] at hdone
  have hparts : donePrefix.toList = "CCB_DONE".toList ++ [':'] := by simp [donePrefix]
  rw [hparts, dropLiteral_bind] at hdone
  cases hdrop : dropLiteral ignoreCase "CCB_DONE".toList (stripped line) with
  | none =>
    rw [hdrop] at hdone
    cases hdone
  | some rest =>
    have hrest : ∃ after, rest = ':' :: after := by
      rw [hdrop, Option.bind_some] at hdone
      cases rest with
      | nil => cases hdone
      | cons c after =>
        rw [dropLiteral] at hdone
        split_ifs at hdone with hc
        exact ⟨after, by rw [ignoreCase_colon hc]⟩
    obtain ⟨after, rfl⟩ := hrest
    rw [isTrailingNoiseLine, isBlank, Bool.or_eq_true, List.isEmpty_iff] at h
    rcases h with h | h
    · rw [h] at hdrop
      cases hdrop
    · rcases dropLiteral_tag ccbDone_tagLetter hdrop with hexact | ⟨c, after', htag, hspace, hcolon⟩
      · rw [doneTag, hexact] at h
        cases h
      · have hafter : lstrip (c :: after') = c :: after' :=
          List.dropWhile_cons_of_neg (by simp [hspace])
        rw [doneTag, htag, hafter] at h
        simp [hcolon] at h

end CodexBridge.Protocol
