import CodexBridge.Layout.Leaves

/-! The text of a layout. The tokens of a rendered tree are the tree's tokens, so that parsing
the text combs the tree. Rendering puts parentheses where the parser needs them and nowhere
else: the comb has the same text. -/

namespace CodexBridge.Layout

/-! ### Characters -/

/-- The characters of rendered layouts. -/
def isPlain (c : Char) : Bool := isNameChar c || c ∈ [':', '(', ')', ';', ',', ' ']

theorem isNameChar_toNat {c : Char} (h : isNameChar c = true) :
    c.toNat = 45 ∨ 48 ≤ c.toNat ∧ c.toNat ≤ 57 ∨ 65 ≤ c.toNat ∧ c.toNat ≤ 90 ∨ c.toNat = 95 ∨
      97 ≤ c.toNat ∧ c.toNat ≤ 122 := by
  have hu : ('_').toNat = 95 := rfl
  have hd : ('-').toNat = 45 := rfl
  simp only [isNameChar, isLetter, Bool.or_eq_true, Bool.and_eq_true, decide_eq_true_eq] at h
  rcases h with ((h | h) | rfl) | rfl <;> omega

theorem symbol_of_isNameChar {c : Char} (h : isNameChar c = true) : symbol c = none := by
  have hrange := isNameChar_toNat h
  unfold symbol
  split_ifs with h1 h2 h3 h4
  · subst h1; revert hrange; decide
  · subst h2; revert hrange; decide
  · subst h3; revert hrange; decide
  · subst h4; revert hrange; decide
  · rfl

theorem isPlain_not_special {c : Char} (h : isPlain c = true) :
    isLineBreak c = false ∧ c ≠ '#' ∧ c ≠ '/' ∧ c ≠ '\r' := by
  rw [isPlain, Bool.or_eq_true] at h
  rcases h with h | h
  · have hrange := isNameChar_toNat h
    refine ⟨?_, ?_, ?_, ?_⟩
    · simp only [isLineBreak, decide_eq_false_iff_not, List.mem_cons, List.not_mem_nil, or_false]
      omega
    all_goals
      rintro rfl
      revert hrange
      decide
  · simp only [List.mem_cons, List.not_mem_nil, or_false, decide_eq_true_eq] at h
    rcases h with rfl | rfl | rfl | rfl | rfl | rfl <;> decide

/-! ### One line -/

theorem splitLines_plain {u : List Char} (h : ∀ c ∈ u, isPlain c = true) (line : List Char)
    (hne : line ≠ [] ∨ u ≠ []) : splitLines line u = [line.reverse ++ u] := by
  induction u generalizing line with
  | nil =>
    have hline : line ≠ [] := hne.resolve_right (by simp)
    simp [splitLines, hline]
  | cons c u ih =>
    obtain ⟨hbreak, -, -, hreturn⟩ := isPlain_not_special (h c (by simp))
    have htail := ih (fun x hx => h x (List.mem_cons_of_mem c hx)) (c :: line) (.inl (by simp))
    rw [splitLines, hbreak, if_neg (by simp), htail]
    · simp
    · rintro rest rfl
      exact absurd rfl hreturn

theorem withoutComment_plain {u : List Char} (h : ∀ c ∈ u, isPlain c = true) :
    withoutComment u = u := by
  have htake : u.takeWhile (· ≠ '#') = u := by
    rw [List.takeWhile_eq_self_iff]
    intro c hc
    simpa using (isPlain_not_special (h c hc)).2.1
  rw [withoutComment, htake]
  clear htake
  induction u with
  | nil => rfl
  | cons c u ih =>
    have hc := (isPlain_not_special (h c (by simp))).2.2.1
    rw [beforeSlashes, ih fun x hx => h x (List.mem_cons_of_mem c hx)]
    rintro rest rfl
    exact absurd rfl hc

/-! ### Tokens -/

/-- Blanks in front of a token. -/
def Blank (buf : List Char) : Prop := ∀ c ∈ buf, isSpace c = true

theorem stripped_blank {buf : List Char} (h : Blank buf) (u : List Char) :
    stripped (buf ++ u) = stripped u := by
  rw [stripped, stripped, List.dropWhile_append_of_pos h]

theorem stripped_self {u : List Char} (h : ∀ c ∈ u, isSpace c = false) : stripped u = u := by
  have hdrop : u.dropWhile isSpace = u := by
    cases u with
    | nil => rfl
    | cons c u => rw [List.dropWhile_cons_of_neg (by simp [h c])]
  rw [stripped, hdrop, List.rdropWhile_eq_self_iff]
  intro hne hlast
  rw [h _ (List.getLast_mem hne)] at hlast
  contradiction

/-- What may follow a leaf or a group. -/
def Stops (rest : List Char) : Prop :=
  rest.head?.all (fun c => c = ')' || c = ';' || c = ',') = true

theorem scan_plain {u : List Char} (h : ∀ c ∈ u, symbol c = none) (buf rest : List Char) :
    scan buf (u ++ rest) = scan (buf ++ u) rest := by
  induction u generalizing buf with
  | nil => rw [List.append_nil, List.nil_append]
  | cons c u ih =>
    have hc := h c (by simp)
    have hparen : c ≠ '(' := by
      rintro rfl
      exact absurd hc (by decide)
    rw [List.cons_append, scan, if_neg (fun h => hparen h.1), hc]
    show scan (buf ++ [c]) (u ++ rest) = _
    rw [ih fun x hx => h x (List.mem_cons_of_mem c hx), List.append_assoc]
    rfl

/-- A symbol other than an opening parenthesis ends the token before it. -/
theorem scan_symbol {c : Char} {token : Token} (hc : c ≠ '(') (h : symbol c = some token)
    (buf rest : List Char) :
    scan buf (c :: rest) = appendLeafToken buf ++ token :: scan [] rest := by
  rw [scan, if_neg (fun h => hc h.1), h]

theorem scan_stops {rest : List Char} (h : Stops rest) (buf : List Char) :
    scan buf rest = appendLeafToken buf ++ scan [] rest := by
  cases rest with
  | nil =>
    rw [scan, scan]
    exact (List.append_nil _).symm
  | cons c rest =>
    have hc : (c = ')' ∨ c = ';') ∨ c = ',' := by simpa [Stops] using h
    have hstop {token : Token} (hne : c ≠ '(') (htoken : symbol c = some token) :
        scan buf (c :: rest) = appendLeafToken buf ++ scan [] (c :: rest) := by
      rw [scan_symbol hne htoken, scan_symbol hne htoken []]
      rfl
    rcases hc with (rfl | rfl) | rfl
    · exact hstop (by decide) rfl
    · exact hstop (by decide) rfl
    · exact hstop (by decide) rfl

/-- A parenthesis behind blanks opens a group. -/
theorem scan_opening {buf : List Char} (h : Blank buf) (rest : List Char) :
    scan buf ('(' :: rest) = .opening :: scan [] rest := by
  have hempty : stripped buf = [] := by
    have hblank := stripped_blank h []
    rwa [List.append_nil] at hblank
  have htoken : appendLeafToken buf = [] := by rw [appendLeafToken, hempty]; rfl
  rw [scan, if_neg (by rw [hempty]; simp)]
  show appendLeafToken buf ++ .opening :: scan [] rest = _
  rw [htoken]
  rfl

/-- A worktree mark behind a provider belongs to its leaf. -/
theorem scan_mark {buf : List Char} (h : stripped buf ≠ []) (rest : List Char) :
    scan buf ("(worktree)".toList ++ rest) = scan (buf ++ "(worktree)".toList) rest := by
  have hmark : "(worktree)".toList ++ rest = '(' :: ("worktree".toList ++ ')' :: rest) := rfl
  have htake : ("worktree".toList ++ ')' :: rest).takeWhile (· ≠ ')') = "worktree".toList := by
    rw [List.takeWhile_append_of_pos (List.all_eq_true.mp (by decide))]
    simp
  have hdrop : ("worktree".toList ++ ')' :: rest).dropWhile (· ≠ ')') = ')' :: rest := by
    rw [List.dropWhile_append_of_pos (List.all_eq_true.mp (by decide))]
    simp
  rw [hmark, scan, if_pos ⟨rfl, by simpa using h, by simp⟩, htake, hdrop]
  rfl

/-! ### Rendered leaves -/

/-- The part of a leaf's text that has no parentheses. -/
theorem LayoutLeaf.Valid.render_cases {leaf : LayoutLeaf} (h : leaf.Valid) :
    ∃ u, u ≠ [] ∧ (∀ c ∈ u, isNameChar c = true ∨ c = ':') ∧
      (leaf.render = u ∨ leaf.render = u ++ "(worktree)".toList) := by
  have hname := agentNamePattern_all h.name
  have hne : leaf.name.toList ≠ [] := by
    intro hnil
    have hpattern := h.name
    rw [hnil] at hpattern
    contradiction
  rw [h.render_eq, LayoutLeaf.suffix]
  cases hprovider : leaf.provider with
  | none =>
    exact ⟨_, hne, fun c hc => .inl (hname c hc), .inl (List.append_nil _)⟩
  | some provider =>
    refine ⟨leaf.name.toList ++ ':' :: provider.toList, by simp, ?_, ?_⟩
    · intro c hc
      rcases List.mem_append.mp hc with hc | hc
      · exact .inl (hname c hc)
      · rcases List.mem_cons.mp hc with rfl | hc
        · exact .inr rfl
        · exact .inl ((h.provider provider hprovider).2 c hc)
    · by_cases hmode : leaf.workspaceMode = none
      · exact .inl (by simp [hmode])
      · exact .inr (by simp [hmode])

theorem LayoutLeaf.Valid.plain {leaf : LayoutLeaf} (h : leaf.Valid) :
    ∀ c ∈ leaf.render, isPlain c = true ∧ isSpace c = false := by
  obtain ⟨u, -, hu, hrender⟩ := h.render_cases
  have hplain : ∀ c ∈ u, isPlain c = true ∧ isSpace c = false := by
    intro c hc
    rcases hu c hc with hname | rfl
    · exact ⟨by simp [isPlain, hname], isNameChar_not_space hname⟩
    · decide
  rcases hrender with hrender | hrender
  · rw [hrender]
    exact hplain
  · rw [hrender]
    intro c hc
    rcases List.mem_append.mp hc with hc | hc
    · exact hplain c hc
    · have hmark : ∀ c ∈ "(worktree)".toList, isPlain c = true ∧ isSpace c = false := by
        have hall : ("(worktree)".toList.all fun c => isPlain c && !isSpace c) = true := by decide
        simpa using List.all_eq_true.mp hall
      exact hmark c hc

theorem LayoutLeaf.Valid.render_ne_nil {leaf : LayoutLeaf} (h : leaf.Valid) :
    leaf.render ≠ [] := by
  obtain ⟨u, hne, -, hrender | hrender⟩ := h.render_cases
  · rw [hrender]
    exact hne
  · rw [hrender]
    exact List.append_ne_nil_of_left_ne_nil hne _

/-- The text of a leaf is one token. -/
theorem LayoutLeaf.Valid.scan {leaf : LayoutLeaf} (h : leaf.Valid) {buf rest : List Char}
    (hbuf : Blank buf) (hrest : Stops rest) :
    scan buf (leaf.render ++ rest) = .leaf leaf.render :: Layout.scan [] rest := by
  have hstripped : stripped (buf ++ leaf.render) = leaf.render := by
    rw [stripped_blank hbuf, stripped_self fun c hc => (h.plain c hc).2]
  have htoken : appendLeafToken (buf ++ leaf.render) = [.leaf leaf.render] := by
    rw [appendLeafToken, hstripped, if_neg (by simpa using h.render_ne_nil)]
  have hread : Layout.scan buf (leaf.render ++ rest) = Layout.scan (buf ++ leaf.render) rest := by
    obtain ⟨u, hne, hu, hrender⟩ := h.render_cases
    have hsymbol : ∀ c ∈ u, symbol c = none := by
      intro c hc
      rcases hu c hc with hname | rfl
      · exact symbol_of_isNameChar hname
      · rfl
    rcases hrender with hrender | hrender
    · rw [hrender, scan_plain hsymbol]
    · have hopen : stripped (buf ++ u) ≠ [] := by
        have hspace : ∀ c ∈ u, isSpace c = false := by
          intro c hc
          exact (h.plain c (by rw [hrender]; exact List.mem_append_left _ hc)).2
        rw [stripped_blank hbuf, stripped_self hspace]
        exact hne
      rw [hrender, List.append_assoc, scan_plain hsymbol, scan_mark hopen, List.append_assoc]
  rw [hread, scan_stops hrest, htoken]
  rfl

/-! ### Rendered trees -/

theorem scan_child {kind : Kind} {t : LayoutNode} {buf rest : List Char}
    (ih : ∀ buf rest, Blank buf → Stops rest →
      scan buf (renderChars t ++ rest) = tokens t ++ scan [] rest)
    (hbuf : Blank buf) (hrest : Stops rest) :
    scan buf (renderChild kind t (renderChars t) ++ rest) = parts kind t ++ scan [] rest := by
  rw [parts, renderChild.eq_def, childTokens.eq_def]
  cases t with
  | leaf leaf => exact ih buf rest hbuf hrest
  | branch k l r =>
    by_cases hweak : k.precedence < kind.precedence
    · simp only [if_pos hweak, List.cons_append, List.append_assoc, List.nil_append]
      rw [scan_opening hbuf, ih [] (')' :: rest) (by simp [Blank]) rfl,
        scan_symbol (by decide) rfl]
      rfl
    · simp only [if_neg hweak]
      exact ih buf rest hbuf hrest

/-- The tokens of a tree's text are its tokens. -/
theorem scan_render {t : LayoutNode} (h : LeavesValid t) (buf rest : List Char)
    (hbuf : Blank buf) (hrest : Stops rest) :
    scan buf (renderChars t ++ rest) = tokens t ++ scan [] rest := by
  induction t generalizing buf rest with
  | leaf leaf => exact (h leaf (List.mem_singleton_self _)).scan hbuf hrest
  | branch kind l r ihl ihr =>
    have ihl := ihl fun leaf hleaf => h leaf (List.mem_append_left _ hleaf)
    have ihr := ihr fun leaf hleaf => h leaf (List.mem_append_right _ hleaf)
    have hblank : Blank [' '] := by
      intro c hc
      rw [List.mem_singleton.mp hc]
      decide
    have hsep : Stops (kind.separator :: ' ' :: (renderChild kind r (renderChars r) ++ rest)) := by
      cases kind <;> rfl
    have hsymbol : symbol kind.separator = some (.separator kind) := by cases kind <;> rfl
    have hne : kind.separator ≠ '(' := by cases kind <;> decide
    have hspace (cs : List Char) : scan [] (' ' :: cs) = scan [' '] cs :=
      scan_plain (u := [' ']) (List.forall_mem_singleton.mpr rfl) [] cs
    rw [renderChars, List.append_assoc, List.cons_append, List.cons_append,
      scan_child ihl hbuf hsep, scan_symbol hne hsymbol, hspace, scan_child ihr hblank hrest]
    show _ = (parts kind l ++ .separator kind :: parts kind r) ++ _
    rw [List.append_assoc]
    rfl

theorem renderChars_plain {t : LayoutNode} (h : LeavesValid t) :
    ∀ c ∈ renderChars t, isPlain c = true := by
  have hchild {kind : Kind} {t : LayoutNode} (ih : ∀ c ∈ renderChars t, isPlain c = true) :
      ∀ c ∈ renderChild kind t (renderChars t), isPlain c = true := by
    rw [renderChild.eq_def]
    cases t with
    | leaf leaf => exact ih
    | branch k l r =>
      by_cases hweak : k.precedence < kind.precedence
      · simp only [if_pos hweak]
        intro c hc
        rcases List.mem_cons.mp hc with rfl | hc
        · decide
        · rcases List.mem_append.mp hc with hc | hc
          · exact ih c hc
          · rw [List.mem_singleton.mp hc]
            decide
      · simp only [if_neg hweak]
        exact ih
  induction t with
  | leaf leaf => exact fun c hc => ((h leaf (List.mem_singleton_self _)).plain c hc).1
  | branch kind l r ihl ihr =>
    intro c hc
    rcases List.mem_append.mp hc with hc | hc
    · exact hchild (ihl fun leaf hleaf => h leaf (List.mem_append_left _ hleaf)) c hc
    · rcases List.mem_cons.mp hc with rfl | hc
      · cases kind <;> decide
      · rcases List.mem_cons.mp hc with rfl | hc
        · decide
        · exact hchild (ihr fun leaf hleaf => h leaf (List.mem_append_right _ hleaf)) c hc

theorem tokenize_render {t : LayoutNode} (h : LeavesValid t) : tokenize (render t) = tokens t := by
  have hplain := renderChars_plain h
  have hne : renderChars t ≠ [] := by
    cases t with
    | leaf leaf => exact (h leaf (List.mem_singleton_self _)).render_ne_nil
    | branch kind l r => exact List.append_ne_nil_of_right_ne_nil _ (List.cons_ne_nil _ _)
  have hscan := scan_render h [] [] (by simp [Blank]) rfl
  rw [List.append_nil] at hscan
  rw [tokenize, render, String.toList_ofList, splitLines_plain hplain [] (.inr hne),
    List.flatMap_singleton, List.reverse_nil, List.nil_append, withoutComment_plain hplain, hscan,
    scan]
  exact List.append_nil _

/-! ### Combs -/

/-- Splits that are associated otherwise have the same text. -/
theorem renderChars_reassoc {t u : LayoutNode} (h : t.Reassoc u) :
    renderChars t = renderChars u ∧ ∀ kind, renderChild kind t (renderChars t) =
      renderChild kind u (renderChars u) := by
  induction h with
  | refl => exact ⟨rfl, fun _ => rfl⟩
  | symm _ ih => exact ⟨ih.1.symm, fun kind => (ih.2 kind).symm⟩
  | trans _ _ ih ih' => exact ⟨ih.1.trans ih'.1, fun kind => (ih.2 kind).trans (ih'.2 kind)⟩
  | rotate kind a b c =>
    have hself (l r : LayoutNode) (text : List Char) :
        renderChild kind (.branch kind l r) text = text := if_neg (lt_irrefl _)
    have hrender : renderChars (.branch kind (.branch kind a b) c) =
        renderChars (.branch kind a (.branch kind b c)) := by
      rw [renderChars, hself, renderChars, renderChars, hself, renderChars]
      simp
    refine ⟨hrender, fun k => ?_⟩
    rw [hrender]
    rfl
  | @congr kind l l' r r' _ _ ihl ihr =>
    have hrender : renderChars (.branch kind l r) = renderChars (.branch kind l' r') := by
      rw [renderChars, renderChars, ihl.2, ihr.2]
    refine ⟨hrender, fun k => ?_⟩
    rw [hrender]
    rfl

theorem parse_render {t : LayoutNode} (h : LeavesValid t) :
    parseLayoutSpec (render t) = .ok t.combed := by
  rw [parseLayoutSpec, tokenize_render h]
  exact parseTokens_tokens fun leaf hleaf => (h leaf hleaf).matchLeaf

/-- Layouts of one text are equal up to the association of their splits. -/
theorem reassoc_of_renderChars {t u : LayoutNode} (ht : LeavesValid t) (hu : LeavesValid u)
    (h : renderChars t = renderChars u) : t.Reassoc u := by
  have hparse : render t = render u := congrArg String.ofList h
  have hcombed := (parse_render ht).symm.trans
    ((congrArg parseLayoutSpec hparse).trans (parse_render hu))
  exact SplitTree.reassoc_iff.mpr (Except.ok.inj hcombed)

/-- A parsed layout is parsed from its own text, up to the association of its splits. -/
theorem layout_round_trip {text : String} {t : LayoutNode} (h : parseLayoutSpec text = .ok t) :
    ∃ u, parseLayoutSpec (render t) = .ok u ∧ u.Reassoc t ∧ u.leaves = t.leaves ∧
      render u = render t := by
  have hvalid := parseLayoutSpec_valid h
  have hcomb := SplitTree.Reassoc.combed t
  exact ⟨t.combed, parse_render hvalid, hcomb, hcomb.leaves,
    congrArg String.ofList (renderChars_reassoc hcomb).1⟩

def sampleLayout : LayoutNode :=
  .branch .vertical (.leaf ⟨"a", some "codex", some "worktree"⟩)
    (.branch .horizontal (.leaf ⟨"b", none, none⟩) (.leaf ⟨"c", some "claude", none⟩))

theorem sampleLayout_matched : ∀ leaf ∈ sampleLayout.leaves, matchLeaf leaf.render = some leaf := by
  decide +kernel

theorem parse_sampleLayout :
    parseLayoutSpec "a:codex(worktree), (b; c:claude)" = .ok sampleLayout := by
  have hrender : render sampleLayout = "a:codex(worktree), (b; c:claude)" := by decide +kernel
  have hvalid : LeavesValid sampleLayout := fun leaf hleaf =>
    matchLeaf_valid (sampleLayout_matched leaf hleaf)
  rw [← hrender]
  exact parse_render hvalid

theorem layout_round_trip_sample : ∃ u, parseLayoutSpec (render sampleLayout) = .ok u ∧
    u.Reassoc sampleLayout ∧ u.leaves = sampleLayout.leaves ∧ render u = render sampleLayout :=
  layout_round_trip parse_sampleLayout

end CodexBridge.Layout
