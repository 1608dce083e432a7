import Mathlib.Data.List.Nodup
import Mathlib.Logic.Relation
import Mathlib.Order.Basic
import Mathlib.Order.Nat

/-! Forests given by links upwards. A node has at most one link, and a link names
its upper node and a label for each of its two ends. A forest that grows only
downwards, by links that are checked when they are added, stays bounded in depth
and keeps the labels of every way up distinct. -/

namespace CodexBridge

variable {α : Type*}

structure Link (α : Type*) where
  parent : ℕ
  upper : α
  lower : α

/-- The whole way up from a node, to where there is no further link. -/
inductive Climbs (up : ℕ → Option (Link α)) : ℕ → List (Link α) → Prop
  | top {m : ℕ} (h : up m = none) : Climbs up m []
  | step {m : ℕ} {l : Link α} {links : List (Link α)} (h : up m = some l)
      (rest : Climbs up l.parent links) : Climbs up m (l :: links)

/-- The way up as a loop takes it that stops at nodes it has seen. -/
def climb (up : ℕ → Option (Link α)) : ℕ → List ℕ → ℕ → List (Link α)
  | 0, _, _ => []
  | fuel + 1, seen, m =>
    if m ∈ seen then []
    else
      match up m with
      | none => []
      | some l => l :: climb up fuel (m :: seen) l.parent

variable {up : ℕ → Option (Link α)} {m : ℕ} {links : List (Link α)}

theorem Climbs.unique {links' : List (Link α)} (h : Climbs up m links) (h' : Climbs up m links') :
    links = links' := by
  induction h generalizing links' with
  | top hm =>
    cases h' with
    | top => rfl
    | step hl => simp [hm] at hl
  | step hm _ ih =>
    cases h' with
    | top hn => simp [hm] at hn
    | step hl rest =>
      obtain rfl := Option.some.inj (hm.symm.trans hl)
      rw [ih rest]

/-- Links lead to smaller nodes. -/
def Descending (up : ℕ → Option (Link α)) : Prop := ∀ m l, up m = some l → l.parent < m

theorem Descending.exists_climbs (h : Descending up) (m : ℕ) : ∃ links, Climbs up m links := by
  induction m using Nat.strongRecOn with
  | _ m ih =>
    rcases hm : up m with _ | l
    · exact ⟨[], .top hm⟩
    · obtain ⟨links, hl⟩ := ih l.parent (h m l hm)
      exact ⟨l :: links, .step hm hl⟩

/-- Every node on the way but the last has a link. -/
theorem Descending.length_le (h : Descending up) {support : List ℕ}
    (hs : ∀ m l, up m = some l → m ∈ support) (hm : Climbs up m links) :
    links.length ≤ (support.filter (· ≤ m)).length := by
  induction hm with
  | top => simp
  | @step m l links hl _ ih =>
    have hlt := h m l hl
    have hsub : support.filter (· ≤ l.parent) =
        (support.filter (· ≤ m)).filter (· ≤ l.parent) := by
      rw [List.filter_filter]
      apply List.filter_congr
      intro x _
      rw [Bool.eq_iff_iff, Bool.and_eq_true, decide_eq_true_eq, decide_eq_true_eq]
      omega
    have hless : (support.filter (· ≤ l.parent)).length < (support.filter (· ≤ m)).length := by
      rw [hsub, List.length_filter_lt_length_iff_exists]
      exact ⟨m, by simp [hs m l hl], by simpa using hlt⟩
    simp only [List.length_cons]
    omega

/-- With fuel for every node that has a link, the loop takes the whole way. -/
theorem Descending.climb_eq (h : Descending up) {fuel : ℕ} {seen : List ℕ}
    (hm : Climbs up m links) (hseen : ∀ x ∈ seen, m < x) (hfuel : links.length < fuel) :
    climb up fuel seen m = links := by
  induction hm generalizing fuel seen with
  | @top m hn =>
    cases fuel with
    | zero => rfl
    | succ fuel => simp [climb, hn]
  | @step m l links hl _ ih =>
    cases fuel with
    | zero => simp at hfuel
    | succ fuel =>
      have hm : m ∉ seen := fun hmem => lt_irrefl m (hseen m hmem)
      have hlt := h m l hl
      simp only [climb, hm, ↓reduceIte, hl, List.cons.injEq, true_and]
      apply ih
      · intro x hx
        rcases List.mem_cons.mp hx with rfl | hx
        · exact hlt
        · exact hlt.trans (hseen x hx)
      · simp only [List.length_cons] at hfuel
        omega

/-- No node is above itself. -/
theorem Descending.acyclic (h : Descending up) (m : ℕ) :
    ¬Relation.TransGen (fun x y => ∃ l, up y = some l ∧ l.parent = x) m m := by
  have hlt : ∀ x y, Relation.TransGen (fun x y => ∃ l, up y = some l ∧ l.parent = x) x y →
      x < y := by
    intro x y hxy
    induction hxy with
    | single hl =>
      obtain ⟨l, hl, rfl⟩ := hl
      exact h _ l hl
    | tail _ hl ih =>
      obtain ⟨l, hl, rfl⟩ := hl
      exact ih.trans (h _ l hl)
  exact fun hm => lt_irrefl m (hlt m m hm)

/-- A forest of bounded depth whose labels agree where links meet and differ along
every way up. -/
structure Linked (bound : ℕ) (up : ℕ → Option (Link α)) : Prop where
  descending : Descending up
  joined : ∀ m l l', up m = some l → up l.parent = some l' → l'.lower = l.upper
  bounded : ∀ m links, Climbs up m links → links.length ≤ bound
  distinct : ∀ m l links, up m = some l → Climbs up l.parent links →
    (l.lower :: l.upper :: links.map Link.upper).Nodup

theorem Linked.empty (bound : ℕ) : Linked bound (fun _ => (none : Option (Link α))) := by
  refine ⟨?_, ?_, ?_, ?_⟩
  · intro m l h
    contradiction
  · intro m l l' h
    contradiction
  · intro m links h
    cases h with
    | top => simp
    | step h => contradiction
  · intro m l links h
    contradiction

/-- The labels on the way up from a node whose own label is `a`. -/
theorem Linked.nodup {bound : ℕ} (h : Linked bound up) {a : α} (hm : Climbs up m links)
    (ha : ∀ l, up m = some l → l.lower = a) : (a :: links.map Link.upper).Nodup := by
  cases hm with
  | top => simp
  | @step _ l links hl rest =>
    rw [← ha l hl]
    exact h.distinct m l links hl rest

variable {l : Link α}

/-- A link at a node no link leads to takes part in no other way up. -/
theorem Climbs.of_update (hparent : ∀ k l', up k = some l' → l'.parent ≠ m) {k : ℕ}
    (hk : k ≠ m) : Climbs (Function.update up m (some l)) k links → Climbs up k links := by
  intro h
  induction h with
  | @top k hn =>
    rw [Function.update_of_ne hk] at hn
    exact .top hn
  | @step k l' links hl _ ih =>
    rw [Function.update_of_ne hk] at hl
    exact .step hl (ih (hparent k l' hl))

theorem Linked.update {bound : ℕ} (h : Linked bound up)
    (hparent : ∀ k l', up k = some l' → l'.parent ≠ m) (hlt : l.parent < m)
    (hjoined : ∀ l', up l.parent = some l' → l'.lower = l.upper)
    (hbound : ∀ links, Climbs up l.parent links → links.length + 1 ≤ bound)
    (hnew : ∀ links, Climbs up l.parent links → l.lower ∉ l.upper :: links.map Link.upper) :
    Linked bound (Function.update up m (some l)) := by
  have hne : l.parent ≠ m := hlt.ne
  refine ⟨?_, ?_, ?_, ?_⟩
  · intro k l' hk
    by_cases he : k = m
    · subst he
      rw [Function.update_self] at hk
      obtain rfl := Option.some.inj hk
      exact hlt
    · rw [Function.update_of_ne he] at hk
      exact h.descending k l' hk
  · intro k l' l'' hk hl
    by_cases he : k = m
    · subst he
      rw [Function.update_self] at hk
      obtain rfl := Option.some.inj hk
      rw [Function.update_of_ne hne] at hl
      exact hjoined l'' hl
    · rw [Function.update_of_ne he] at hk
      rw [Function.update_of_ne (hparent k l' hk)] at hl
      exact h.joined k l' l'' hk hl
  · intro k links hk
    by_cases he : k = m
    · subst he
      cases hk with
      | top => simp
      | step hl rest =>
        rw [Function.update_self] at hl
        obtain rfl := Option.some.inj hl
        exact hbound _ (rest.of_update hparent hne)
    · exact h.bounded k links (hk.of_update hparent he)
  · intro k l' links hk rest
    by_cases he : k = m
    · subst he
      rw [Function.update_self] at hk
      obtain rfl := Option.some.inj hk
      have rest' := rest.of_update hparent hne
      exact List.nodup_cons.mpr ⟨hnew links rest', h.nodup rest' hjoined⟩
    · rw [Function.update_of_ne he] at hk
      exact h.distinct k l' links hk (rest.of_update hparent (hparent k l' hk))

end CodexBridge
