import CodexBridge.Layout.Parser

/-! What the parser does with the tokens of a tree: it reads all of them, and gives the comb of
the tree back. The proof goes by induction on the tree, for a tree that begins a chain of splits
and for one that continues it; parentheses stand where a chain of the weaker kind is read as an
operand of the stronger. -/

namespace CodexBridge.Layout

/-! ### The parser without its bounds -/

def chain (kind : Kind) (ts : List Token) : Except LayoutParseError (LayoutNode × List Token) :=
  (parseChain kind ts).map fun p => (p.1, p.2.1)

def operand (kind : Kind) (ts : List Token) : Except LayoutParseError (LayoutNode × List Token) :=
  (parseOperand kind ts).map fun p => (p.1, p.2.1)

def more (kind : Kind) (node : LayoutNode) (ts : List Token) :
    Except LayoutParseError (LayoutNode × List Token) :=
  (parseMore kind node ts).map fun p => (p.1, p.2.1)

variable (kind : Kind) (node : LayoutNode) (ts : List Token)

theorem chain_eq : chain kind ts = operand kind ts >>= fun p => more kind p.1 p.2 := by
  rw [chain, operand, parseChain]
  cases parseOperand kind ts with
  | error e => rfl
  | ok p =>
    obtain ⟨first, rest⟩ := p
    show (Except.map _ _ = more kind first rest.1)
    rw [more]
    cases hmore : parseMore kind first rest.1 with
    | error e => simp only [hmore]; rfl
    | ok q => simp only [hmore]; rfl

theorem operand_horizontal : operand .horizontal ts = chain .vertical ts := by
  rw [operand, parseOperand]
  rfl

theorem operand_leaf {text : List Char} {leaf : LayoutLeaf} (h : matchLeaf text = some leaf) :
    operand .vertical (.leaf text :: ts) = .ok (.leaf leaf, ts) := by
  rw [operand, parseOperand, parsePrimary, h]
  rfl

theorem operand_group :
    operand .vertical (.opening :: ts) = chain .horizontal ts >>= fun p =>
      match p.2 with
      | .closing :: rest => .ok (p.1, rest)
      | rest => .error (.expected .closing rest.head?) := by
  rw [operand, parseOperand, parsePrimary, chain]
  cases parseChain .horizontal ts with
  | error e => rfl
  | ok p =>
    obtain ⟨inner, rest, hrest⟩ := p
    cases rest with
    | nil => rfl
    | cons token rest => cases token <;> rfl

theorem more_separator : more kind node (.separator kind :: ts) =
    operand kind ts >>= fun p => more kind (.branch kind node p.1) p.2 := by
  rw [more, operand, parseMore, if_pos rfl]
  cases parseOperand kind ts with
  | error e => rfl
  | ok p =>
    obtain ⟨rhs, rest⟩ := p
    show (Except.map _ _ = more kind (.branch kind node rhs) rest.1)
    rw [more]
    cases hmore : parseMore kind (.branch kind node rhs) rest.1 with
    | error e => simp only [hmore]; rfl
    | ok q => simp only [hmore]; rfl

/-- A chain ends where no separator of its kind follows. -/
theorem more_stop (h : ts.head? ≠ some (.separator kind)) : more kind node ts = .ok (node, ts) := by
  rw [more]
  cases ts with
  | nil => rw [parseMore] <;> first | rfl | simp
  | cons token ts =>
    cases token with
    | separator k =>
      have hk : k ≠ kind := by
        rintro rfl
        exact h rfl
      rw [parseMore, if_neg hk]
      rfl
    | opening => rw [parseMore] <;> first | rfl | simp
    | closing => rw [parseMore] <;> first | rfl | simp
    | leaf text => rw [parseMore] <;> first | rfl | simp

/-! ### The tokens of a tree -/

/-- The tokens of a child, in parentheses if the child binds weaker than its parent. -/
def childTokens (parentKind : Kind) (node : LayoutNode) (ts : List Token) : List Token :=
  match node with
  | .leaf _ => ts
  | .branch kind _ _ =>
    if kind.precedence < parentKind.precedence then .opening :: (ts ++ [.closing]) else ts

def tokens : LayoutNode → List Token
  | .leaf leaf => [.leaf leaf.render]
  | .branch kind l r =>
    childTokens kind l (tokens l) ++ .separator kind :: childTokens kind r (tokens r)

/-- The tokens of a tree as an operand or a part of a chain of a kind. -/
def parts (kind : Kind) (t : LayoutNode) : List Token := childTokens kind t (tokens t)

/-- What may follow an operand of a kind without being taken for a part of it. -/
def Follows (kind : Kind) (ts : List Token) : Prop :=
  kind = .horizontal → ts.head? ≠ some (.separator .vertical)

theorem parts_branch (l r : LayoutNode) :
    parts kind (.branch kind l r) = parts kind l ++ .separator kind :: parts kind r :=
  if_neg (lt_irrefl _)

theorem parts_horizontal (t : LayoutNode) : parts .horizontal t = tokens t := by
  cases t with
  | leaf leaf => rfl
  | branch kind l r => cases kind <;> rfl

theorem parts_group (l r : LayoutNode) :
    parts .vertical (.branch .horizontal l r) =
      .opening :: (tokens (.branch .horizontal l r) ++ [.closing]) := rfl

/-- A tree is read as the beginning of a chain, and as its continuation. -/
structure Reads (kind : Kind) (t : LayoutNode) : Prop where
  chain : ∀ rest, Follows kind rest → chain kind (parts kind t ++ rest) = more kind t.combed rest
  more : ∀ node rest, Follows kind rest →
    more kind node (.separator kind :: (parts kind t ++ rest)) =
      more kind (SplitTree.graft kind node t.combed) rest

variable {kind}

theorem follows_separator : Follows kind (.separator kind :: ts) := by
  rintro rfl
  simp

/-- An operand that is not a split of the kind is one step of the chain. -/
theorem Reads.of_operand {t : LayoutNode}
    (hgraft : ∀ node, SplitTree.graft kind node t.combed = .branch kind node t.combed)
    (h : ∀ rest, Follows kind rest → operand kind (parts kind t ++ rest) = .ok (t.combed, rest)) :
    Reads kind t where
  chain rest hrest := by
    rw [chain_eq, h rest hrest]
    rfl
  more node rest hrest := by
    rw [more_separator, h rest hrest, hgraft]
    rfl

theorem Reads.branch {l r : LayoutNode} (hl : Reads kind l) (hr : Reads kind r) :
    Reads kind (.branch kind l r) where
  chain rest hrest := by
    rw [parts_branch, List.append_assoc, List.cons_append, hl.chain _ (follows_separator _),
      hr.more _ rest hrest]
    rfl
  more node rest hrest := by
    rw [parts_branch, List.append_assoc, List.cons_append, hl.more node _ (follows_separator _),
      hr.more _ rest hrest, SplitTree.combed, SplitTree.graft_graft]

theorem combed_branch_cases (l r : LayoutNode) :
    ∃ l' r', (SplitTree.branch kind l r).combed = .branch kind l' r' := by
  rw [SplitTree.combed]
  cases r.combed with
  | leaf a => exact ⟨_, _, rfl⟩
  | branch k l' r' =>
    by_cases hk : k = kind
    · subst hk
      exact ⟨_, _, SplitTree.graft_branch_self ..⟩
    · exact ⟨_, _, SplitTree.graft_branch_ne hk ..⟩

/-- The tokens of a tree are read as the tree, combed. -/
theorem reads_tokens {t : LayoutNode} (h : ∀ leaf ∈ t.leaves, matchLeaf leaf.render = some leaf) :
    ∀ kind, Reads kind t := by
  induction t with
  | leaf leaf =>
    have hleaf := h leaf (List.mem_singleton_self _)
    have hvertical : Reads .vertical (.leaf leaf) :=
      .of_operand (fun _ => rfl) fun rest _ => operand_leaf rest hleaf
    have hhorizontal : Reads .horizontal (.leaf leaf) := by
      refine .of_operand (fun _ => rfl) fun rest hrest => ?_
      rw [operand_horizontal]
      show chain .vertical (parts .vertical (.leaf leaf) ++ rest) = _
      rw [hvertical.chain rest nofun, more_stop _ _ _ (hrest rfl)]
    intro kind
    cases kind with
    | horizontal => exact hhorizontal
    | vertical => exact hvertical
  | branch k l r ihl ihr =>
    have ihl := ihl fun leaf hleaf => h leaf (List.mem_append_left _ hleaf)
    have ihr := ihr fun leaf hleaf => h leaf (List.mem_append_right _ hleaf)
    have hself : Reads k (.branch k l r) := .branch (ihl k) (ihr k)
    obtain ⟨l', r', hcomb⟩ : ∃ l' r', SplitTree.combed (.branch k l r) = .branch k l' r' :=
      combed_branch_cases l r
    intro kind
    cases k with
    | horizontal =>
      cases kind with
      | horizontal => exact hself
      | vertical =>
        -- the weaker split is an operand in parentheses
        refine .of_operand
          (fun node => by rw [hcomb]; exact SplitTree.graft_branch_ne (by decide) ..) ?_
        intro rest _
        have hinner := hself.chain (.closing :: rest) fun _ => by simp
        rw [parts_horizontal, more_stop _ _ _ (by simp)] at hinner
        rw [parts_group, List.cons_append, operand_group, List.append_assoc,
          List.singleton_append, hinner]
        rfl
    | vertical =>
      cases kind with
      | vertical => exact hself
      | horizontal =>
        refine .of_operand
          (fun node => by rw [hcomb]; exact SplitTree.graft_branch_ne (by decide) ..) ?_
        intro rest hrest
        have hinner := hself.chain rest nofun
        rw [more_stop _ _ _ (hrest rfl)] at hinner
        rw [operand_horizontal, ← hinner]
        rfl

theorem parseTokens_eq (hne : ts ≠ []) {t : LayoutNode} (h : chain .horizontal ts = .ok (t, [])) :
    parseTokens ts = .ok t := by
  rw [parseTokens, if_neg (by simpa using hne)]
  rw [chain] at h
  cases hchain : parseChain .horizontal ts with
  | error e =>
    rw [hchain] at h
    contradiction
  | ok p =>
    obtain ⟨t', rest, hrest⟩ := p
    rw [hchain] at h
    obtain ⟨rfl, rfl⟩ := Prod.mk.inj (Except.ok.inj h)
    rfl

theorem tokens_ne_nil (t : LayoutNode) : tokens t ≠ [] := by
  cases t with
  | leaf leaf => exact List.cons_ne_nil _ _
  | branch kind l r => exact List.append_ne_nil_of_right_ne_nil _ (List.cons_ne_nil _ _)

/-- Parsing the tokens of a tree combs it. -/
theorem parseTokens_tokens {t : LayoutNode}
    (h : ∀ leaf ∈ t.leaves, matchLeaf leaf.render = some leaf) :
    parseTokens (tokens t) = .ok t.combed := by
  refine parseTokens_eq _ (tokens_ne_nil t) ?_
  have hchain := (reads_tokens h .horizontal).chain [] fun _ => by simp
  rw [parts_horizontal, List.append_nil, more_stop _ _ _ (by simp)] at hchain
  exact hchain

end CodexBridge.Layout
