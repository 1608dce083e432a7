import CodexBridge.SplitTrees
import Mathlib.Data.List.Induction

/-! Edits of trees of splits: a leaf is split in two, or leaves are pruned and the splits above
them collapse. A chain of splits, each of the leaf that the one before has added, nests to the
right; a tree that grows split by split around a leaf nests to the left. The two are equal up
to association only if all splits are of one kind. -/

namespace CodexBridge.SplitTree

variable {κ α β : Type*}

/-! ### Relabelling -/

def map (f : α → β) : SplitTree κ α → SplitTree κ β
  | .leaf a => .leaf (f a)
  | .branch kind l r => .branch kind (l.map f) (r.map f)

@[simp] theorem leaves_map (f : α → β) (t : SplitTree κ α) : (t.map f).leaves = t.leaves.map f := by
  induction t with
  | leaf a => rfl
  | branch kind l r ihl ihr =>
    rw [map, leaves, leaves, ihl, ihr, List.map_append]

theorem Reassoc.map (f : α → β) {t u : SplitTree κ α} (h : Reassoc t u) :
    Reassoc (t.map f) (u.map f) := by
  induction h with
  | refl => exact .refl _
  | symm _ ih => exact ih.symm
  | trans _ _ ih ih' => exact ih.trans ih'
  | rotate kind a b c => exact .rotate kind _ _ _
  | congr kind _ _ ih ih' => exact .congr kind ih ih'

/-! ### Cancellation -/

section Cancel
variable [DecidableEq κ]

theorem leaves_graft (kind : κ) (t u : SplitTree κ α) :
    (graft kind t u).leaves = t.leaves ++ u.leaves :=
  (Reassoc.graft kind t u).leaves

theorem graft_ne_left (kind : κ) (t u : SplitTree κ α) : graft kind t u ≠ t := by
  intro h
  have hleaves := leaves_graft kind t u
  rw [h] at hleaves
  exact u.leaves_ne_nil (List.self_eq_append_right.mp hleaves)

theorem graft_right_injective (kind : κ) (t : SplitTree κ α) {u v : SplitTree κ α}
    (h : graft kind t u = graft kind t v) : u = v := by
  induction u generalizing v with
  | leaf a =>
    cases v with
    | leaf b => exact (branch.inj h).2.2
    | branch k l r =>
      by_cases hk : k = kind
      · subst hk
        rw [graft_branch_self] at h
        exact absurd (branch.inj h).2.1.symm (graft_ne_left k t l)
      · rw [graft_branch_ne hk] at h
        exact (branch.inj h).2.2
  | branch k l r ihl _ =>
    by_cases hk : k = kind
    · subst hk
      rw [graft_branch_self] at h
      cases v with
      | leaf b => exact absurd (branch.inj h).2.1 (graft_ne_left k t l)
      | branch k' l' r' =>
        by_cases hk' : k' = k
        · subst hk'
          rw [graft_branch_self] at h
          obtain ⟨-, hl, rfl⟩ := branch.inj h
          rw [ihl hl]
        · rw [graft_branch_ne hk'] at h
          exact absurd (branch.inj h).2.1 (graft_ne_left k t l)
    · rw [graft_branch_ne hk] at h
      cases v with
      | leaf b => exact (branch.inj h).2.2
      | branch k' l' r' =>
        by_cases hk' : k' = kind
        · subst hk'
          rw [graft_branch_self] at h
          exact absurd (branch.inj h).2.1.symm (graft_ne_left k' t l')
        · rw [graft_branch_ne hk'] at h
          exact (branch.inj h).2.2

theorem reassoc_branch_iff (kind : κ) {l l' r r' : SplitTree κ α} (hl : Reassoc l l') :
    Reassoc (.branch kind l r) (.branch kind l' r') ↔ Reassoc r r' := by
  refine ⟨fun h => ?_, .congr kind hl⟩
  have hcombed := h.combed_eq
  rw [combed, combed, hl.combed_eq] at hcombed
  exact reassoc_iff.mpr (graft_right_injective kind _ hcombed)

end Cancel

/-! ### Trees of one kind -/

/-- All splits are of the kind. -/
def Uniform (kind : κ) : SplitTree κ α → Prop
  | .leaf _ => True
  | .branch k l r => k = kind ∧ l.Uniform kind ∧ r.Uniform kind

/-- A tree that grows around a leaf, split by split. -/
def leftComb (a : α) (chain : List (κ × α)) : SplitTree κ α :=
  chain.foldl (fun t p => .branch p.1 t (.leaf p.2)) (.leaf a)

/-- A chain of splits, each of the leaf that the one before has added. -/
def rightComb (a : α) : List (κ × α) → SplitTree κ α
  | [] => .leaf a
  | (kind, b) :: chain => .branch kind (.leaf a) (rightComb b chain)

theorem leftComb_concat (a : α) (chain : List (κ × α)) (p : κ × α) :
    leftComb a (chain ++ [p]) = .branch p.1 (leftComb a chain) (.leaf p.2) := by
  rw [leftComb, List.foldl_append]
  rfl

theorem leaves_leftComb (a : α) (chain : List (κ × α)) :
    (leftComb a chain).leaves = a :: chain.map Prod.snd := by
  induction chain using List.reverseRecOn with
  | nil => rfl
  | append_singleton chain p ih =>
    rw [leftComb_concat, leaves, ih, List.map_append]
    rfl

theorem leaves_rightComb (a : α) (chain : List (κ × α)) :
    (rightComb a chain).leaves = a :: chain.map Prod.snd := by
  induction chain generalizing a with
  | nil => rfl
  | cons p chain ih => exact congrArg (a :: ·) (ih p.2)

theorem uniform_rightComb {kind : κ} {chain : List (κ × α)} (h : ∀ p ∈ chain, p.1 = kind) (a : α) :
    (rightComb a chain).Uniform kind := by
  induction chain generalizing a with
  | nil => trivial
  | cons p chain ih =>
    exact ⟨h p List.mem_cons_self, trivial, ih (fun q hq => h q (List.mem_cons_of_mem p hq)) p.2⟩

theorem uniform_leftComb {kind : κ} {chain : List (κ × α)} (h : ∀ p ∈ chain, p.1 = kind) (a : α) :
    (leftComb a chain).Uniform kind := by
  induction chain using List.reverseRecOn with
  | nil => trivial
  | append_singleton chain p ih =>
    rw [leftComb_concat]
    exact ⟨h p (by simp), ih fun q hq => h q (by simp [hq]), trivial⟩

section Uniform
variable [DecidableEq κ]

theorem graft_leftComb (kind : κ) (t : SplitTree κ α) (b : α) (leaves : List α) :
    graft kind t (leftComb b (leaves.map (kind, ·))) =
      (b :: leaves).foldl (fun t a => .branch kind t (.leaf a)) t := by
  induction leaves using List.reverseRecOn with
  | nil => rfl
  | append_singleton leaves c ih =>
    rw [List.map_append, List.map_singleton, leftComb_concat, graft_branch_self, ih,
      ← List.cons_append, List.foldl_append]
    rfl

/-- The comb of a tree of one kind is given by its leaves. -/
theorem combed_of_uniform {kind : κ} {t : SplitTree κ α} (h : t.Uniform kind)
    {a : α} {rest : List α}
    (hleaves : t.leaves = a :: rest) :
    t.combed = rest.foldl (fun t a => .branch kind t (.leaf a)) (.leaf a) := by
  have hcomb (a : α) (rest : List α) : leftComb a (rest.map (kind, ·)) =
      rest.foldl (fun t a => .branch kind t (.leaf a)) (.leaf a) := List.foldl_map
  induction t generalizing a rest with
  | leaf b =>
    obtain ⟨rfl, rfl⟩ := List.cons.inj hleaves
    rfl
  | branch k l r ihl ihr =>
    obtain ⟨rfl, hl, hr⟩ := h
    obtain ⟨b, bs, hb⟩ := List.exists_cons_of_ne_nil l.leaves_ne_nil
    obtain ⟨c, cs, hc⟩ := List.exists_cons_of_ne_nil r.leaves_ne_nil
    rw [leaves, hb, hc] at hleaves
    obtain ⟨rfl, rfl⟩ := List.cons.inj hleaves
    rw [combed, ihl hl hb, ihr hr hc, ← hcomb c cs, graft_leftComb, ← List.foldl_append]
    rfl

theorem Uniform.reassoc {kind : κ} {t u : SplitTree κ α} (ht : t.Uniform kind)
    (hu : u.Uniform kind) (h : t.leaves = u.leaves) : Reassoc t u := by
  obtain ⟨a, rest, ha⟩ := List.exists_cons_of_ne_nil t.leaves_ne_nil
  exact reassoc_iff.mpr ((combed_of_uniform ht ha).trans (combed_of_uniform hu (h ▸ ha)).symm)

/-- A chain whose comb ends in a leaf has splits of one kind. -/
theorem kinds_of_rightComb {a : α} {chain : List (κ × α)} {kind : κ} {l : SplitTree κ α} {b : α}
    (h : (rightComb a chain).combed = .branch kind l (.leaf b)) : ∀ p ∈ chain, p.1 = kind := by
  induction chain generalizing a l with
  | nil => exact fun p hp => absurd hp List.not_mem_nil
  | cons p chain ih =>
    obtain ⟨k, c⟩ := p
    rw [rightComb, combed, combed] at h
    cases hrest : (rightComb c chain).combed with
    | leaf d =>
      rw [hrest] at h
      obtain ⟨rfl, -, -⟩ := branch.inj h
      have hlength := congrArg List.length (leaves_combed (rightComb c chain))
      rw [hrest, leaves_rightComb] at hlength
      simp only [leaves, List.length_cons, List.length_nil, List.length_map] at hlength
      obtain rfl : chain = [] := List.length_eq_zero_iff.mp (by omega)
      exact fun p hp => congrArg Prod.fst (List.mem_singleton.mp hp)
    | branch k' l' r' =>
      rw [hrest] at h
      by_cases hk : k' = k
      · subst hk
        rw [graft_branch_self] at h
        obtain ⟨rfl, -, rfl⟩ := branch.inj h
        intro p hp
        rcases List.mem_cons.mp hp with rfl | htail
        · rfl
        · exact ih hrest p htail
      · rw [graft_branch_ne hk] at h
        have hright := (branch.inj h).2.2
        contradiction

/-- The two combs of a chain are equal up to association when its splits are of one kind. -/
theorem reassoc_combs_iff (a : α) (chain : List (κ × α)) :
    Reassoc (rightComb a chain) (leftComb a chain) ↔ ∀ p ∈ chain, ∀ q ∈ chain, p.1 = q.1 := by
  constructor
  · intro h
    rcases List.eq_nil_or_concat' chain with rfl | ⟨front, last, rfl⟩
    · exact fun p hp => absurd hp List.not_mem_nil
    · have hcombed := h.combed_eq
      rw [leftComb_concat, combed, combed] at hcombed
      have hkinds := kinds_of_rightComb hcombed
      exact fun p hp q hq => (hkinds p hp).trans (hkinds q hq).symm
  · intro h
    rcases chain with _ | ⟨p, chain⟩
    · exact .refl _
    · have hkind : ∀ q ∈ p :: chain, q.1 = p.1 := fun q hq => h q hq p List.mem_cons_self
      refine (uniform_rightComb hkind a).reassoc (uniform_leftComb hkind a) ?_
      rw [leaves_rightComb, leaves_leftComb]

end Uniform

/-! ### Splitting -/

section Edits
variable [DecidableEq α]

/-- Splits a leaf; the new leaf comes second. -/
def splitLeaf (kind : κ) (target new : α) : SplitTree κ α → SplitTree κ α
  | .leaf a => if a = target then .branch kind (.leaf a) (.leaf new) else .leaf a
  | .branch k l r => .branch k (l.splitLeaf kind target new) (r.splitLeaf kind target new)

/-- Splits a leaf, then each new leaf in turn. -/
def splitChain (target : α) : List (κ × α) → SplitTree κ α → SplitTree κ α
  | [], t => t
  | (kind, a) :: chain, t => splitChain a chain (t.splitLeaf kind target a)

theorem splitLeaf_of_notMem {kind : κ} {target new : α} {t : SplitTree κ α}
    (h : target ∉ t.leaves) : t.splitLeaf kind target new = t := by
  induction t with
  | leaf a =>
    exact if_neg fun ha => h (List.mem_singleton.mpr ha.symm)
  | branch k l r ihl ihr =>
    rw [leaves, List.mem_append, not_or] at h
    rw [splitLeaf, ihl h.1, ihr h.2]

theorem splitChain_branch {k : κ} {target : α} {chain : List (κ × α)} {l : SplitTree κ α}
    (htarget : target ∉ l.leaves) (hchain : ∀ p ∈ chain, p.2 ∉ l.leaves) (r : SplitTree κ α) :
    splitChain target chain (.branch k l r) = .branch k l (splitChain target chain r) := by
  induction chain generalizing target r with
  | nil => rfl
  | cons p chain ih =>
    obtain ⟨kind, a⟩ := p
    rw [splitChain, splitChain, splitLeaf, splitLeaf_of_notMem htarget]
    exact ih (hchain _ List.mem_cons_self) (fun q hq => hchain q (List.mem_cons_of_mem _ hq)) _

theorem splitChain_leaf {target : α} {chain : List (κ × α)}
    (h : (target :: chain.map Prod.snd).Nodup) :
    splitChain target chain (.leaf target) = rightComb target chain := by
  induction chain generalizing target with
  | nil => rfl
  | cons p chain ih =>
    obtain ⟨kind, a⟩ := p
    obtain ⟨hnot, hnodup⟩ := List.nodup_cons.mp h
    have hne : ∀ b ∈ a :: chain.map Prod.snd, b ∉ (leaf target : SplitTree κ α).leaves := by
      intro b hb hmem
      rw [List.mem_singleton.mp hmem] at hb
      exact hnot hb
    rw [splitChain, splitLeaf, if_pos rfl, splitChain_branch (hne a List.mem_cons_self), ih hnodup,
      rightComb]
    exact fun p hp => hne p.2 (List.mem_cons_of_mem a (List.mem_map_of_mem hp))

theorem Uniform.splitLeaf {kind : κ} {t : SplitTree κ α} (h : t.Uniform kind) (target new : α) :
    (t.splitLeaf kind target new).Uniform kind := by
  induction t with
  | leaf a =>
    rw [SplitTree.splitLeaf]
    split_ifs
    · exact ⟨rfl, trivial, trivial⟩
    · trivial
  | branch k l r ihl ihr => exact ⟨h.1, ihl h.2.1, ihr h.2.2⟩

theorem Uniform.splitChain {kind : κ} {t : SplitTree κ α} {chain : List (κ × α)}
    (h : t.Uniform kind) (hchain : ∀ p ∈ chain, p.1 = kind) (target : α) :
    (splitChain target chain t).Uniform kind := by
  induction chain generalizing t target with
  | nil => exact h
  | cons p chain ih =>
    obtain ⟨k, a⟩ := p
    obtain rfl : k = kind := hchain _ List.mem_cons_self
    exact ih (h.splitLeaf target a) (fun q hq => hchain q (List.mem_cons_of_mem _ hq)) a

theorem leaves_splitLeaf_last (kind : κ) (new : α) {target : α} {front : List α}
    {t : SplitTree κ α} (h : t.leaves = front ++ [target]) (hfront : target ∉ front) :
    (t.splitLeaf kind target new).leaves = front ++ [target, new] := by
  induction t generalizing front with
  | leaf a =>
    obtain ⟨rfl, hlast⟩ := List.append_eq_singleton_iff.mp h.symm |>.resolve_right (by simp)
    obtain rfl := List.singleton_inj.mp hlast
    rw [splitLeaf, if_pos rfl]
    rfl
  | branch k l r _ ihr =>
    obtain ⟨rest, last, hr⟩ := (List.eq_nil_or_concat' r.leaves).resolve_left r.leaves_ne_nil
    rw [leaves, hr, ← List.append_assoc] at h
    obtain ⟨rfl, hlast⟩ := List.append_inj' h rfl
    obtain rfl := List.singleton_inj.mp hlast
    rw [List.mem_append, not_or] at hfront
    rw [splitLeaf, leaves, splitLeaf_of_notMem hfront.1, ihr hr hfront.2, List.append_assoc]

theorem leaves_splitChain_last {target : α} {front : List α} {chain : List (κ × α)}
    {t : SplitTree κ α} (h : t.leaves = front ++ [target])
    (hnodup : (front ++ target :: chain.map Prod.snd).Nodup) :
    (splitChain target chain t).leaves = front ++ target :: chain.map Prod.snd := by
  induction chain generalizing t target front with
  | nil => exact h
  | cons p chain ih =>
    obtain ⟨kind, a⟩ := p
    have hfront : target ∉ front := fun hmem =>
      (List.nodup_append.mp hnodup).2.2 target hmem target List.mem_cons_self rfl
    have hsplit : (t.splitLeaf kind target a).leaves = (front ++ [target]) ++ [a] := by
      rw [leaves_splitLeaf_last kind a h hfront, List.append_assoc]
      rfl
    rw [splitChain, ih hsplit (by simpa using hnodup)]
    simp

end Edits

/-! ### Pruning -/

/-- The tree of the leaves that are kept; a split with one child left collapses. -/
def prune (p : α → Bool) : SplitTree κ α → Option (SplitTree κ α)
  | .leaf a => if p a then some (.leaf a) else none
  | .branch kind l r =>
    match l.prune p, r.prune p with
    | none, right => right
    | left, none => left
    | some left, some right => some (.branch kind left right)

theorem prune_eq_self {p : α → Bool} {t : SplitTree κ α} (h : ∀ a ∈ t.leaves, p a = true) :
    t.prune p = some t := by
  induction t with
  | leaf a => exact if_pos (h a List.mem_cons_self)
  | branch kind l r ihl ihr =>
    rw [prune, ihl fun a ha => h a (List.mem_append_left _ ha),
      ihr fun a ha => h a (List.mem_append_right _ ha)]

theorem prune_congr {p q : α → Bool} {t : SplitTree κ α} (h : ∀ a ∈ t.leaves, p a = q a) :
    t.prune p = t.prune q := by
  induction t with
  | leaf a => rw [prune, prune, h a List.mem_cons_self]
  | branch kind l r ihl ihr =>
    rw [prune, prune, ihl fun a ha => h a (List.mem_append_left _ ha),
      ihr fun a ha => h a (List.mem_append_right _ ha)]

theorem prune_prune (p q : α → Bool) (t : SplitTree κ α) :
    (t.prune p).bind (prune q) = t.prune fun a => p a && q a := by
  induction t with
  | leaf a =>
    rw [prune, prune]
    cases hp : p a <;> simp [prune]
  | branch kind l r ihl ihr =>
    rw [prune, prune, ← ihl, ← ihr]
    cases l.prune p with
    | none => cases r.prune p <;> rfl
    | some left =>
      cases r.prune p with
      | none =>
        rw [Option.bind_some]
        cases left.prune q <;> rfl
      | some right => rfl

/-- Pruning leaf by leaf is pruning all of them. -/
theorem foldl_prune [DecidableEq α] (removed : List α) (t : SplitTree κ α) :
    removed.foldl (fun tree a => tree.bind (prune (· ≠ a))) (some t) = t.prune (· ∉ removed) := by
  induction removed using List.reverseRecOn with
  | nil =>
    rw [prune_eq_self fun a _ => by simp]
    rfl
  | append_singleton removed b ih =>
    rw [List.foldl_append, ih, List.foldl_cons, List.foldl_nil, prune_prune]
    refine prune_congr fun a _ => ?_
    simp

end CodexBridge.SplitTree
