import Mathlib.Tactic.Common
import Mathlib.Data.List.Basic

/-! Trees of splits. A branch splits an area in two, and each split has a kind; splits of one
kind that are nested in each other can be associated in several ways. Nothing here depends on
what the kinds and the leaves are. -/

namespace CodexBridge

variable {κ α : Type*}

inductive SplitTree (κ α : Type*) where
  | leaf (a : α)
  | branch (kind : κ) (left right : SplitTree κ α)
  deriving DecidableEq

namespace SplitTree

def leaves : SplitTree κ α → List α
  | .leaf a => [a]
  | .branch _ l r => l.leaves ++ r.leaves

theorem leaves_ne_nil (t : SplitTree κ α) : t.leaves ≠ [] := by
  induction t with
  | leaf a => exact List.cons_ne_nil a []
  | branch kind l r ihl ihr => exact List.append_ne_nil_of_left_ne_nil ihl _

/-- Equal up to the association of nested splits of one kind. -/
inductive Reassoc : SplitTree κ α → SplitTree κ α → Prop
  | refl (t) : Reassoc t t
  | symm {t u} : Reassoc t u → Reassoc u t
  | trans {t u v} : Reassoc t u → Reassoc u v → Reassoc t v
  | rotate (kind a b c) :
    Reassoc (.branch kind (.branch kind a b) c) (.branch kind a (.branch kind b c))
  | congr (kind) {l l' r r'} : Reassoc l l' → Reassoc r r' →
    Reassoc (.branch kind l r) (.branch kind l' r')

theorem Reassoc.leaves {t u : SplitTree κ α} (h : Reassoc t u) : t.leaves = u.leaves := by
  induction h with
  | refl => rfl
  | symm _ ih => exact ih.symm
  | trans _ _ ih ih' => exact ih.trans ih'
  | rotate kind a b c => exact List.append_assoc ..
  | congr kind _ _ ih ih' =>
    rw [SplitTree.leaves, SplitTree.leaves, ih, ih']

/-! ### Combs -/

variable [DecidableEq κ]

/-- Splits a tree off after another, along the left spine of splits of the kind. -/
def graft (kind : κ) (t : SplitTree κ α) : SplitTree κ α → SplitTree κ α
  | .leaf a => .branch kind t (.leaf a)
  | .branch k l r => if k = kind then .branch kind (graft kind t l) r
      else .branch kind t (.branch k l r)

/-- All nested splits of one kind associated to the left. -/
def combed : SplitTree κ α → SplitTree κ α
  | .leaf a => .leaf a
  | .branch kind l r => graft kind l.combed r.combed

theorem graft_branch_self (kind : κ) (t l r : SplitTree κ α) :
    graft kind t (.branch kind l r) = .branch kind (graft kind t l) r := if_pos rfl

theorem graft_branch_ne {kind k : κ} (h : k ≠ kind) (t l r : SplitTree κ α) :
    graft kind t (.branch k l r) = .branch kind t (.branch k l r) := if_neg h

theorem graft_graft (kind : κ) (t u v : SplitTree κ α) :
    graft kind t (graft kind u v) = graft kind (graft kind t u) v := by
  induction v with
  | leaf a => exact graft_branch_self ..
  | branch k l r ihl _ =>
    by_cases hk : k = kind
    · subst hk
      rw [graft_branch_self, graft_branch_self, ihl, graft_branch_self]
    · rw [graft_branch_ne hk, graft_branch_self, graft_branch_ne hk]

theorem Reassoc.graft (kind : κ) (t u : SplitTree κ α) :
    Reassoc (SplitTree.graft kind t u) (.branch kind t u) := by
  induction u with
  | leaf a => exact .refl _
  | branch k l r ihl _ =>
    by_cases hk : k = kind
    · subst hk
      rw [graft_branch_self]
      exact (Reassoc.congr k ihl (.refl r)).trans (.rotate k t l r)
    · rw [graft_branch_ne hk]
      exact .refl _

theorem Reassoc.combed (t : SplitTree κ α) : Reassoc t.combed t := by
  induction t with
  | leaf a => exact .refl _
  | branch kind l r ihl ihr => exact (Reassoc.graft kind _ _).trans (.congr kind ihl ihr)

theorem leaves_combed (t : SplitTree κ α) : t.combed.leaves = t.leaves :=
  (Reassoc.combed t).leaves

/-- The combs of trees that are equal up to association are equal. -/
theorem Reassoc.combed_eq {t u : SplitTree κ α} (h : Reassoc t u) : t.combed = u.combed := by
  induction h with
  | refl => rfl
  | symm _ ih => exact ih.symm
  | trans _ _ ih ih' => exact ih.trans ih'
  | rotate kind a b c => exact (graft_graft ..).symm
  | congr kind _ _ ih ih' => rw [SplitTree.combed, SplitTree.combed, ih, ih']

theorem reassoc_iff {t u : SplitTree κ α} : Reassoc t u ↔ t.combed = u.combed := by
  refine ⟨Reassoc.combed_eq, fun h => ?_⟩
  have hu := Reassoc.combed u
  rw [← h] at hu
  exact (Reassoc.combed t).symm.trans hu

end SplitTree

end CodexBridge
