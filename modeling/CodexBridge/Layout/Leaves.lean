import CodexBridge.Layout.Descent

/-! The leaves of parsed layouts. Their names and providers have the characters that the parser
takes for them, a worktree mark has a provider before it, and so each of them is parsed from its
own text. -/

namespace CodexBridge.Layout

/-! ### Leaves -/

/-- The leaves of parsed layouts. -/
structure LayoutLeaf.Valid (leaf : LayoutLeaf) : Prop where
  name : agentNamePattern leaf.name.toList = true
  provider : ∀ p, leaf.provider = some p → p.toList ≠ [] ∧ ∀ c ∈ p.toList, isNameChar c = true
  workspaceMode : leaf.workspaceMode = none ∨
    leaf.workspaceMode = some "worktree" ∧ leaf.provider ≠ none

theorem takeWhile_all {p : Char → Bool} (cs : List Char) : ∀ c ∈ cs.takeWhile p, p c = true := by
  intro c hc
  exact List.all_eq_true.mp List.all_takeWhile c hc

theorem matchMode_cases {provider : String} {cs : List Char} {r : Option String × Option String}
    (h : matchMode provider cs = some r) :
    r.1 = some provider ∧ (r.2 = none ∨ r.2 = some "worktree") := by
  unfold matchMode at h
  split_ifs at h with hempty
  · obtain rfl := Option.some.inj h
    exact ⟨rfl, .inl rfl⟩
  · split at h
    · split_ifs at h
      obtain rfl := Option.some.inj h
      exact ⟨rfl, .inr rfl⟩
    · contradiction

theorem matchSuffix_cases {cs : List Char} {r : Option String × Option String}
    (h : matchSuffix cs = some r) :
    (∀ p, r.1 = some p → p.toList ≠ [] ∧ ∀ c ∈ p.toList, isNameChar c = true) ∧
      (r.2 = none ∨ r.2 = some "worktree" ∧ r.1 ≠ none) := by
  unfold matchSuffix at h
  split_ifs at h with hempty
  · obtain rfl := Option.some.inj h
    exact ⟨nofun, .inl rfl⟩
  · split at h
    · split_ifs at h with hprovider
      obtain ⟨hr, hmode⟩ := matchMode_cases h
      refine ⟨?_, hmode.imp_right fun hmode => ⟨hmode, by rw [hr]; exact Option.some_ne_none _⟩⟩
      intro p hp
      rw [hr] at hp
      obtain rfl := Option.some.inj hp
      rw [String.toList_ofList]
      exact ⟨by simpa using hprovider, takeWhile_all _⟩
    · contradiction

theorem matchLeaf_valid {token : List Char} {leaf : LayoutLeaf} (h : matchLeaf token = some leaf) :
    leaf.Valid := by
  unfold matchLeaf at h
  split_ifs at h with hname
  obtain ⟨r, hr, rfl⟩ := Option.map_eq_some_iff.mp h
  obtain ⟨hprovider, hmode⟩ := matchSuffix_cases hr
  exact ⟨by rw [String.toList_ofList]; exact hname, hprovider, hmode⟩

theorem takeWhile_append {p : Char → Bool} {cs rest : List Char} (h : ∀ c ∈ cs, p c = true)
    (hrest : rest.head?.all (fun c => !p c) = true) :
    (cs ++ rest).takeWhile p = cs ∧ (cs ++ rest).dropWhile p = rest := by
  induction cs with
  | nil =>
    cases rest with
    | nil => exact ⟨rfl, rfl⟩
    | cons c rest =>
      have hc : p c = false := by simpa using hrest
      simp [hc]
  | cons c cs ih =>
    obtain ⟨htake, hdrop⟩ := ih fun x hx => h x (List.mem_cons_of_mem c hx)
    simp [h c (by simp), htake, hdrop]

/-- What stands behind the name in the text of a leaf. -/
def LayoutLeaf.suffix (leaf : LayoutLeaf) : List Char :=
  match leaf.provider with
  | none => []
  | some provider =>
    ':' :: (provider.toList ++ if leaf.workspaceMode = none then [] else "(worktree)".toList)

theorem LayoutLeaf.Valid.render_eq {leaf : LayoutLeaf} (h : leaf.Valid) :
    leaf.render = leaf.name.toList ++ leaf.suffix := by
  obtain ⟨name, provider, mode⟩ := leaf
  cases provider with
  | none => simp [render, suffix]
  | some provider =>
    have hne : provider ≠ "" := by
      rintro rfl
      exact (h.provider "" rfl).1 rfl
    rcases h.workspaceMode with hmode | ⟨hmode, -⟩
    · have hstrip : strip "" ≠ "worktree" := by decide +kernel
      simp only at hmode
      simp [render, suffix, hne, hmode, hstrip]
    · have hstrip : strip "worktree" = "worktree" := by decide +kernel
      simp only at hmode
      simp [render, suffix, hne, hmode, hstrip]

theorem LayoutLeaf.Valid.matchSuffix {leaf : LayoutLeaf} (h : leaf.Valid) :
    matchSuffix leaf.suffix = some (leaf.provider, leaf.workspaceMode) := by
  obtain ⟨name, provider, mode⟩ := leaf
  cases provider with
  | none =>
    rcases h.workspaceMode with hmode | ⟨-, hprovider⟩
    · simp only at hmode
      subst hmode
      rfl
    · contradiction
  | some provider =>
    obtain ⟨hne, hall⟩ := h.provider provider rfl
    obtain ⟨c, cs, hcs⟩ := List.exists_cons_of_ne_nil hne
    have hc := isNameChar_not_space (hall c (by rw [hcs]; simp))
    have hcolon (rest : List Char) : (':' :: rest).dropWhile isSpace = ':' :: rest :=
      List.dropWhile_cons_of_neg (by decide)
    have hstart (rest : List Char) :
        (provider.toList ++ rest).dropWhile isSpace = provider.toList ++ rest := by
      rw [hcs, List.cons_append, List.dropWhile_cons_of_neg (by simp [hc])]
    have hread (rest : List Char) (hrest : rest.head?.all (fun c => !isNameChar c) = true) :
        Layout.matchSuffix (':' :: (provider.toList ++ rest)) = matchMode provider rest := by
      obtain ⟨htake, hdrop⟩ := takeWhile_append hall hrest
      rw [Layout.matchSuffix, if_neg (by simp), hcolon]
      simp only [hstart, htake, hdrop, String.ofList_toList]
      rw [if_neg (by simpa using hne)]
    rcases h.workspaceMode with hmode | ⟨hmode, -⟩
    · simp only at hmode
      subst hmode
      exact hread [] rfl
    · simp only at hmode
      subst hmode
      refine (hread "(worktree)".toList (by decide)).trans ?_
      rfl

theorem LayoutLeaf.Valid.suffix_head {leaf : LayoutLeaf} :
    leaf.suffix.head?.all (fun c => !isNameChar c) = true := by
  unfold LayoutLeaf.suffix
  split <;> rfl

/-- A leaf is parsed from its text. -/
theorem LayoutLeaf.Valid.matchLeaf {leaf : LayoutLeaf} (h : leaf.Valid) :
    matchLeaf leaf.render = some leaf := by
  obtain ⟨htake, hdrop⟩ := takeWhile_append (agentNamePattern_all h.name) suffix_head
  rw [h.render_eq, Layout.matchLeaf, htake, hdrop, if_pos h.name, h.matchSuffix]
  simp

/-! ### Parsed trees -/

/-- All leaves of a tree are valid. -/
def LeavesValid (t : LayoutNode) : Prop := ∀ leaf ∈ t.leaves, leaf.Valid

theorem LeavesValid.branch {kind : Kind} {l r : LayoutNode} (hl : LeavesValid l)
    (hr : LeavesValid r) : LeavesValid (.branch kind l r) := by
  intro leaf hleaf
  exact (List.mem_append.mp hleaf).elim (hl leaf) (hr leaf)

variable {kind : Kind} {ts rest : List Token} {t : LayoutNode}

theorem operand_length (h : operand kind ts = .ok (t, rest)) : rest.length < ts.length := by
  rw [operand] at h
  cases hparse : parseOperand kind ts with
  | error e =>
    rw [hparse] at h
    contradiction
  | ok p =>
    rw [hparse] at h
    obtain ⟨-, rfl⟩ := Prod.mk.inj (Except.ok.inj h)
    exact p.2.2

/-- An operand of a vertical split is a leaf or a chain in parentheses. -/
theorem operand_vertical_ok (h : operand .vertical ts = .ok (t, rest)) :
    (∃ text leaf, matchLeaf text = some leaf ∧ t = .leaf leaf) ∨
      ∃ inner, ts = .opening :: inner ∧ chain .horizontal inner = .ok (t, .closing :: rest) := by
  cases ts with
  | nil =>
    rw [operand, parseOperand, parsePrimary] at h
    contradiction
  | cons token ts =>
    cases token with
    | opening =>
      refine .inr ⟨ts, rfl, ?_⟩
      rw [operand_group] at h
      cases hchain : chain .horizontal ts with
      | error e =>
        rw [hchain] at h
        contradiction
      | ok p =>
        obtain ⟨inner, found⟩ := p
        rw [hchain] at h
        cases found with
        | nil => contradiction
        | cons token found =>
          cases token with
          | closing =>
            obtain ⟨rfl, rfl⟩ := Prod.mk.inj (Except.ok.inj h)
            rfl
          | opening => contradiction
          | separator k => contradiction
          | leaf text => contradiction
    | leaf text =>
      refine .inl ⟨text, ?_⟩
      cases hmatch : matchLeaf text with
      | none =>
        rw [operand, parseOperand, parsePrimary, hmatch] at h
        contradiction
      | some leaf =>
        rw [operand_leaf ts hmatch] at h
        obtain ⟨rfl, -⟩ := Prod.mk.inj (Except.ok.inj h)
        exact ⟨leaf, rfl, rfl⟩
    | closing =>
      rw [operand, parseOperand, parsePrimary] at h <;> first | contradiction | simp
    | separator k =>
      rw [operand, parseOperand, parsePrimary] at h <;> first | contradiction | simp

/-- The parser's results have valid leaves, on tokens of any number. -/
structure SoundOn (ts : List Token) : Prop where
  operand : ∀ kind t rest, operand kind ts = .ok (t, rest) → LeavesValid t
  chain : ∀ kind t rest, chain kind ts = .ok (t, rest) → LeavesValid t
  more : ∀ kind node t rest, LeavesValid node → more kind node ts = .ok (t, rest) → LeavesValid t

theorem soundOn (ts : List Token) : SoundOn ts := by
  induction hlength : ts.length using Nat.strong_induction_on generalizing ts with
  | _ n ih =>
  subst hlength
  have hvertical : ∀ t rest, Layout.operand .vertical ts = .ok (t, rest) → LeavesValid t := by
    intro t rest h
    rcases operand_vertical_ok h with ⟨text, leaf, hmatch, rfl⟩ | ⟨inner, rfl, hchain⟩
    · intro leaf' hleaf'
      rw [List.mem_singleton.mp hleaf']
      exact matchLeaf_valid hmatch
    · exact (ih _ (Nat.lt_succ_self _) inner rfl).chain _ _ _ hchain
  have hchains (kind : Kind)
      (hoperand : ∀ t rest, Layout.operand kind ts = .ok (t, rest) → LeavesValid t) :
      ∀ t rest, Layout.chain kind ts = .ok (t, rest) → LeavesValid t := by
    intro t rest h
    rw [chain_eq] at h
    cases hfirst : Layout.operand kind ts with
    | error e =>
      rw [hfirst] at h
      contradiction
    | ok p =>
      rw [hfirst] at h
      exact (ih _ (operand_length hfirst) p.2 rfl).more _ _ _ _ (hoperand _ _ hfirst) h
  have hhorizontal : ∀ t rest, Layout.operand .horizontal ts = .ok (t, rest) → LeavesValid t := by
    intro t rest h
    rw [operand_horizontal] at h
    exact hchains .vertical hvertical t rest h
  have hoperand : ∀ kind t rest, Layout.operand kind ts = .ok (t, rest) → LeavesValid t := by
    intro kind
    cases kind with
    | horizontal => exact hhorizontal
    | vertical => exact hvertical
  refine ⟨hoperand, fun kind => hchains kind (hoperand kind), ?_⟩
  intro kind node t rest hnode h
  by_cases hsep : ts.head? = some (.separator kind)
  · obtain ⟨tail, rfl⟩ := List.head?_eq_some_iff.mp hsep
    rw [more_separator] at h
    cases hrhs : Layout.operand kind tail with
    | error e =>
      rw [hrhs] at h
      contradiction
    | ok p =>
      have hshort := operand_length hrhs
      rw [hrhs] at h
      have hbranch : LeavesValid (.branch kind node p.1) :=
        hnode.branch ((ih _ (Nat.lt_succ_self _) tail rfl).operand _ _ _ hrhs)
      exact (ih _ (hshort.trans (Nat.lt_succ_self _)) p.2 rfl).more _ _ _ _ hbranch h
  · rw [more_stop _ _ _ hsep] at h
    obtain ⟨rfl, -⟩ := Prod.mk.inj (Except.ok.inj h)
    exact hnode

theorem parseLayoutSpec_valid {text : String} (h : parseLayoutSpec text = .ok t) :
    LeavesValid t := by
  rw [parseLayoutSpec, parseTokens] at h
  split_ifs at h
  cases hparse : parseChain .horizontal (tokenize text) with
  | error e =>
    rw [hparse] at h
    contradiction
  | ok p =>
    obtain ⟨t', rest, hrest⟩ := p
    rw [hparse] at h
    cases rest with
    | nil =>
      obtain rfl := Except.ok.inj h
      refine (soundOn (tokenize text)).chain .horizontal t' [] ?_
      rw [chain, hparse]
      rfl
    | cons token rest => contradiction

end CodexBridge.Layout
