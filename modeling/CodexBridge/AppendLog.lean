import Mathlib.Data.List.Induction
import Mathlib.Data.List.Nodup

/-! Append-only logs read through the latest record of each key. A reader keeps
one slot per key, in order of first appearance, and every later record of the
key overwrites its slot. Nothing here depends on what the records are. -/

namespace CodexBridge.AppendLog

variable {α κ : Type*}

/-- The last record of the log that satisfies `p`. -/
def findLast (p : α → Bool) (log : List α) : Option α :=
  log.foldl (fun acc r => if p r then some r else acc) none

@[simp] theorem findLast_nil (p : α → Bool) : findLast p [] = none := rfl

@[simp] theorem findLast_append (p : α → Bool) (log : List α) (r : α) :
    findLast p (log ++ [r]) = if p r then some r else findLast p log := by
  simp [findLast]

theorem findLast_some {p : α → Bool} {log : List α} {r : α} (h : findLast p log = some r) :
    r ∈ log ∧ p r = true := by
  induction log using List.reverseRecOn with
  | nil => simp at h
  | append_singleton log x ih =>
    rw [findLast_append] at h
    split_ifs at h with hx
    · obtain rfl := Option.some.inj h
      exact ⟨by simp, hx⟩
    · exact ⟨List.mem_append_left _ (ih h).1, (ih h).2⟩

theorem findLast_none {p : α → Bool} {log : List α} :
    findLast p log = none ↔ ∀ r ∈ log, p r = false := by
  induction log using List.reverseRecOn with
  | nil => simp
  | append_singleton log x ih =>
    rw [findLast_append]
    split_ifs with hx
    · simp [hx]
    · simp [ih, or_imp, forall_and, hx]

/-- Rows of another kind do not matter. -/
theorem findLast_append_of_none {p : α → Bool} {log log' : List α}
    (h : ∀ r ∈ log', p r = false) : findLast p (log ++ log') = findLast p log := by
  induction log' using List.reverseRecOn with
  | nil => rw [List.append_nil]
  | append_singleton log' r ih =>
    rw [← List.append_assoc, findLast_append, h r (by simp)]
    exact ih fun x hx => h x (by simp [hx])

/-- Rows looked for hide all earlier ones. -/
theorem findLast_append_of_all {p : α → Bool} (log : List α) {log' : List α} (hne : log' ≠ [])
    (h : ∀ r ∈ log', p r = true) : ∃ r ∈ log', findLast p (log ++ log') = some r := by
  rcases List.eq_nil_or_concat log' with rfl | ⟨init, r, rfl⟩
  · exact absurd rfl hne
  · refine ⟨r, by simp, ?_⟩
    rw [List.concat_eq_append, ← List.append_assoc, findLast_append, h r (by simp), if_pos rfl]

theorem findLast_eq_getLast? (p : α → Bool) (log : List α) :
    findLast p log = (log.filter p).getLast? := by
  induction log using List.reverseRecOn with
  | nil => rfl
  | append_singleton log r ih =>
    rw [findLast_append, List.filter_append]
    by_cases hp : p r = true
    · simp [hp]
    · simp [hp, ih]

/-- Scanning a selection, when the rows looked for are selected together. -/
theorem findLast_filter {p q : α → Bool} {log : List α}
    (h : ∀ x ∈ log, ∀ y ∈ log, p x = true → p y = true → q x = q y) :
    findLast p (log.filter q) = (findLast p log).filter q := by
  induction log using List.reverseRecOn with
  | nil => rfl
  | append_singleton log r ih =>
    have ih := ih fun x hx y hy => h x (by simp [hx]) y (by simp [hy])
    rw [List.filter_append, findLast_append]
    by_cases hq : q r = true
    · by_cases hp : p r = true
      · simp [hq, hp, Option.filter]
      · simp [hq, hp, ih]
    · by_cases hp : p r = true
      · -- no other row looked for is selected either
        have hnone : findLast p (log.filter q) = none := by
          refine findLast_none.mpr fun x hx => ?_
          rw [List.mem_filter] at hx
          by_contra hpx
          have hqx := h x (by simp [hx.1]) r (by simp) (by simpa using hpx) hp
          exact hq (hqx ▸ hx.2)
        simp [hq, hp, hnone, Option.filter]
      · simp [hq, hp, ih]

/-- The last record of a kind is also the last of any narrower kind it belongs to. -/
theorem findLast_narrow {p q : α → Bool} {log : List α} {c : α} (h : findLast p log = some c)
    (hc : q c = true) (hpq : ∀ x ∈ log, q x = true → p x = true) : findLast q log = some c := by
  induction log using List.reverseRecOn with
  | nil => simp at h
  | append_singleton log r ih =>
    rw [findLast_append] at h ⊢
    by_cases hr : q r = true
    · rw [if_pos (hpq r (by simp) hr)] at h
      rw [if_pos hr, h]
    · rw [if_neg hr]
      split_ifs at h with hp
      · rw [Option.some.inj h, hc] at hr
        contradiction
      · exact ih h fun x hx => hpq x (by simp [hx])

/-- The last row found comes after every other row found. -/
theorem findLast_pairwise {R : α → α → Prop} {p : α → Bool} {log : List α} {c : α}
    (hlog : log.Pairwise R) (h : findLast p log = some c) :
    ∀ x ∈ log, p x = true → x = c ∨ R x c := by
  induction log using List.reverseRecOn with
  | nil => simp at h
  | append_singleton log r ih =>
    rw [List.pairwise_append] at hlog
    intro x hx hp
    rw [findLast_append] at h
    rcases List.mem_append.mp hx with hx | hx
    · split_ifs at h with hr
      · obtain rfl := Option.some.inj h
        exact .inr (hlog.2.2 x hx r (by simp))
      · exact ih hlog.1 h x hx hp
    · obtain rfl := List.mem_singleton.mp hx
      rw [if_pos hp] at h
      exact .inl (Option.some.inj h)

section Keyed
variable [DecidableEq κ] (key : α → κ)

/-- Write `r` over the slot of its key, or at the end when the key is new. -/
def upsert (r : α) : List α → List α
  | [] => [r]
  | x :: xs => if key x = key r then r :: xs else x :: upsert r xs

/-- The latest record of every key, in order of first appearance. -/
def latest (log : List α) : List α :=
  log.foldl (fun acc r => upsert key r acc) []

@[simp] theorem latest_nil : latest key [] = [] := rfl

@[simp] theorem latest_append (log : List α) (r : α) :
    latest key (log ++ [r]) = upsert key r (latest key log) := by
  simp [latest]

variable {key}

theorem upsert_of_notMem {r : α} {l : List α} (h : key r ∉ l.map key) :
    upsert key r l = l ++ [r] := by
  induction l with
  | nil => rfl
  | cons x xs ih =>
    simp only [List.map_cons, List.mem_cons, not_or] at h
    simp [upsert, Ne.symm h.1, ih h.2]

theorem map_key_upsert_of_mem {r : α} {l : List α} (h : key r ∈ l.map key) :
    (upsert key r l).map key = l.map key := by
  induction l with
  | nil => simp at h
  | cons x xs ih =>
    by_cases hx : key x = key r
    · simp [upsert, hx]
    · have hmem : key r ∈ xs.map key := by simpa [Ne.symm hx] using h
      simp [upsert, hx, ih hmem]

theorem map_key_upsert (r : α) (l : List α) :
    (upsert key r l).map key = if key r ∈ l.map key then l.map key else l.map key ++ [key r] := by
  split_ifs with h
  · exact map_key_upsert_of_mem h
  · simp [upsert_of_notMem h]

theorem length_upsert_of_mem {r : α} {l : List α} (h : key r ∈ l.map key) :
    (upsert key r l).length = l.length := by
  simpa using congrArg List.length (map_key_upsert_of_mem h)

theorem nodup_upsert {r : α} {l : List α} (h : (l.map key).Nodup) :
    ((upsert key r l).map key).Nodup := by
  rw [map_key_upsert]
  split_ifs with hr
  · exact h
  · exact List.Nodup.append h (by simp) (by simpa using hr)

theorem nodup_latest (log : List α) : ((latest key log).map key).Nodup := by
  induction log using List.reverseRecOn with
  | nil => simp
  | append_singleton log r ih => simpa using nodup_upsert ih

theorem mem_upsert {r x : α} {l : List α} (h : (l.map key).Nodup) :
    x ∈ upsert key r l ↔ x = r ∨ x ∈ l ∧ key x ≠ key r := by
  induction l with
  | nil => simp [upsert]
  | cons y ys ih =>
    rw [List.map_cons, List.nodup_cons] at h
    by_cases hy : key y = key r
    · have hys : ∀ z ∈ ys, key z ≠ key r := fun z hz he =>
        h.1 (hy ▸ he ▸ List.mem_map_of_mem hz)
      simp only [upsert, hy, ↓reduceIte, List.mem_cons]
      constructor
      · rintro (rfl | hx)
        · exact .inl rfl
        · exact .inr ⟨.inr hx, hys x hx⟩
      · rintro (rfl | ⟨rfl | hx, hne⟩)
        · exact .inl rfl
        · exact absurd hy hne
        · exact .inr hx
    · simp only [upsert, hy, ↓reduceIte, List.mem_cons, ih h.2]
      constructor
      · rintro (rfl | rfl | ⟨hx, hne⟩)
        · exact .inr ⟨.inl rfl, hy⟩
        · exact .inl rfl
        · exact .inr ⟨.inr hx, hne⟩
      · rintro (rfl | ⟨rfl | hx, hne⟩)
        · exact .inr (.inl rfl)
        · exact .inl rfl
        · exact .inr (.inr ⟨hx, hne⟩)

theorem mem_latest_append {r x : α} {log : List α} :
    x ∈ latest key (log ++ [r]) ↔ x = r ∨ x ∈ latest key log ∧ key x ≠ key r := by
  rw [latest_append, mem_upsert (nodup_latest log)]

theorem mem_of_mem_latest {x : α} {log : List α} (h : x ∈ latest key log) : x ∈ log := by
  induction log using List.reverseRecOn with
  | nil => simp at h
  | append_singleton log r ih =>
    rcases mem_latest_append.mp h with rfl | ⟨hx, _⟩
    · simp
    · exact List.mem_append_left _ (ih hx)

theorem mem_map_key_latest {k : κ} {log : List α} :
    k ∈ (latest key log).map key ↔ k ∈ log.map key := by
  induction log using List.reverseRecOn with
  | nil => simp
  | append_singleton log r ih =>
    rw [latest_append, map_key_upsert, List.map_append, List.mem_append, ← ih]
    split_ifs with hr
    · simp only [List.map_cons, List.map_nil, List.mem_singleton]
      constructor
      · exact .inl
      · rintro (hk | rfl)
        · exact hk
        · exact hr
    · simp

/-- A further row comes after the first row of every key that is there. -/
theorem findIdx_key_append {k : κ} {log : List α} (h : k ∈ log.map key) (r : α) :
    (log ++ [r]).findIdx (fun x => decide (key x = k)) =
        log.findIdx (fun x => decide (key x = k)) ∧
      log.findIdx (fun x => decide (key x = k)) < log.length := by
  obtain ⟨x, hx, hxk⟩ := List.mem_map.mp h
  have hlt : log.findIdx (fun x => decide (key x = k)) < log.length :=
    List.findIdx_lt_length_of_exists ⟨x, hx, decide_eq_true hxk⟩
  rw [List.findIdx_append, if_pos hlt]
  exact ⟨rfl, hlt⟩

/-- The latest rows stand in the order in which their keys entered the log. -/
theorem pairwise_latest (log : List α) :
    ((latest key log).map key).Pairwise fun k k' =>
      log.findIdx (fun x => decide (key x = k)) < log.findIdx (fun x => decide (key x = k')) := by
  induction log using List.reverseRecOn with
  | nil => exact List.Pairwise.nil
  | append_singleton log r ih =>
    have hold := fun k (hk : k ∈ (latest key log).map key) =>
      findIdx_key_append (mem_map_key_latest.mp hk) r
    have hih : ((latest key log).map key).Pairwise fun k k' =>
        (log ++ [r]).findIdx (fun x => decide (key x = k)) <
          (log ++ [r]).findIdx (fun x => decide (key x = k')) := by
      apply ih.imp_of_mem
      intro k k' hk hk' hlt
      rw [(hold k hk).1, (hold k' hk').1]
      exact hlt
    rw [latest_append, map_key_upsert]
    split_ifs with hr
    · exact hih
    · refine List.pairwise_append.mpr ⟨hih, List.pairwise_singleton _ _, ?_⟩
      intro k hk k' hk'
      obtain rfl := List.mem_singleton.mp hk'
      have hnew : log.findIdx (fun x => decide (key x = key r)) = log.length := by
        apply List.findIdx_eq_length_of_false
        intro x hx
        have hne : key x ≠ key r := by
          intro he
          exact hr (mem_map_key_latest.mpr (he ▸ List.mem_map_of_mem hx))
        simpa using hne
      rw [(hold k hk).1, List.findIdx_append, hnew, if_neg (Nat.lt_irrefl _)]
      have hlt := (hold k hk).2
      omega

omit [DecidableEq κ] in
theorem eq_of_key_eq {l : List α} (h : (l.map key).Nodup) {x y : α} (hx : x ∈ l) (hy : y ∈ l)
    (he : key x = key y) : x = y :=
  List.inj_on_of_nodup_map h hx hy he

theorem find?_upsert (r : α) (k : κ) (l : List α) :
    (upsert key r l).find? (fun x => key x = k) =
      if key r = k then some r else l.find? (fun x => key x = k) := by
  induction l with
  | nil => by_cases hr : key r = k <;> simp [upsert, hr]
  | cons x xs ih =>
    by_cases hx : key x = key r
    · by_cases hr : key r = k <;> simp [upsert, hx, hr]
    · by_cases hk : key x = k
      · have hr : key r ≠ k := fun h => hx (hk.trans h.symm)
        simp [upsert, hk, hr, Ne.symm hr]
      · by_cases hr : key r = k <;> simp [upsert, hx, hk, ih, hr]

theorem head?_upsert (r : α) (l : List α) :
    (upsert key r l).head? =
      some (match l.head? with
        | none => r
        | some x => if key x = key r then r else x) := by
  cases l with
  | nil => rfl
  | cons x xs =>
    by_cases hx : key x = key r
    · simp [upsert, hx]
    · simp [upsert, hx]

/-- Overwriting a slot with a record of the same kind keeps every count. -/
theorem countP_upsert {p : α → Bool} {r : α} {l : List α} (hr : key r ∈ l.map key)
    (hp : ∀ x ∈ l, key x = key r → p x = p r) :
    (upsert key r l).countP p = l.countP p := by
  induction l with
  | nil => simp at hr
  | cons x xs ih =>
    by_cases hx : key x = key r
    · simp [upsert, hx, List.countP_cons, hp x (by simp) hx]
    · have hmem : key r ∈ xs.map key := by simpa [Ne.symm hx] using hr
      simp [upsert, hx, List.countP_cons, ih hmem fun y hy => hp y (by simp [hy])]

/-- Dropping the slot of one record lowers a count by that record alone. -/
theorem countP_filter_key_ne {p : α → Bool} {c : α} {l : List α} (h : (l.map key).Nodup)
    (hc : c ∈ l) :
    (l.filter fun x => decide (key x ≠ key c)).countP p + (if p c then 1 else 0) =
      l.countP p := by
  induction l with
  | nil => simp at hc
  | cons x xs ih =>
    rw [List.map_cons, List.nodup_cons] at h
    rcases List.mem_cons.mp hc with rfl | hc
    · have hxs : xs.filter (fun x => decide (key x ≠ key c)) = xs := by
        refine List.filter_eq_self.mpr fun z hz => ?_
        have hne : key z ≠ key c := fun he => h.1 (he ▸ List.mem_map_of_mem hz)
        simpa using hne
      simp only [List.filter_cons, ne_eq, not_true_eq_false, decide_false, Bool.false_eq_true,
        ↓reduceIte, List.countP_cons]
      rw [hxs]
    · have hx : key x ≠ key c := fun he => h.1 (he ▸ List.mem_map_of_mem hc)
      have hrec := ih h.2 hc
      simp only [List.filter_cons, hx, ne_eq, not_false_eq_true, decide_true, ↓reduceIte,
        List.countP_cons] at hrec ⊢
      omega

/-- Scanning the log backwards for a key reads the slot of that key. -/
theorem findLast_key (k : κ) (log : List α) :
    findLast (fun x => decide (key x = k)) log = (latest key log).find? (fun x => key x = k) := by
  induction log using List.reverseRecOn with
  | nil => rfl
  | append_singleton log r ih => simp [find?_upsert, ih]

theorem findLast_key_some {k : κ} {log : List α} {r : α} :
    findLast (fun x => decide (key x = k)) log = some r ↔ r ∈ latest key log ∧ key r = k := by
  rw [findLast_key]
  constructor
  · intro h
    exact ⟨List.mem_of_find?_eq_some h, by simpa using List.find?_some h⟩
  · rintro ⟨hr, rfl⟩
    obtain ⟨x, hx⟩ := Option.isSome_iff_exists.mp
      (List.find?_isSome (p := fun x => decide (key x = key r)).mpr ⟨r, hr, by simp⟩)
    have hk : key x = key r := by simpa using List.find?_some hx
    rw [hx, eq_of_key_eq (nodup_latest log) (List.mem_of_find?_eq_some hx) hr hk]

theorem findLast_key_none {k : κ} {log : List α} :
    findLast (fun x => decide (key x = k)) log = none ↔ k ∉ log.map key := by
  rw [findLast_none]
  simp

/-- Overwriting with a record outside `p` drops its key from the selection. -/
theorem filter_upsert_of_neg {p : α → Bool} {r : α} {l : List α} (h : (l.map key).Nodup)
    (hr : p r = false) :
    (upsert key r l).filter p = (l.filter p).filter (fun x => key x ≠ key r) := by
  induction l with
  | nil => simp [upsert, hr]
  | cons x xs ih =>
    rw [List.map_cons, List.nodup_cons] at h
    by_cases hx : key x = key r
    · have hxs : ∀ z ∈ xs.filter p, decide (key z ≠ key r) = true := fun z hz => by
        have hne : key z ≠ key r := fun he =>
          h.1 (hx.trans he.symm ▸ List.mem_map_of_mem (List.mem_of_mem_filter hz))
        simpa using hne
      by_cases hp : p x = true
      · simpa [upsert, hx, hr, hp] using (List.filter_eq_self.mpr hxs).symm
      · simpa [upsert, hx, hr, hp] using (List.filter_eq_self.mpr hxs).symm
    · by_cases hp : p x = true
      · simp [upsert, hx, hp, ih h.2]
      · simp [upsert, hx, hp, ih h.2]

/-- Overwriting inside `p` overwrites the slot of the selection. -/
theorem filter_upsert_of_pos {p : α → Bool} {r : α} {l : List α} (hr : p r = true)
    (hp : ∀ x ∈ l, key x = key r → p x = true) :
    (upsert key r l).filter p = upsert key r (l.filter p) := by
  induction l with
  | nil => simp [upsert, hr]
  | cons x xs ih =>
    by_cases hx : key x = key r
    · have hpx := hp x (by simp) hx
      simp [upsert, hx, hr, hpx]
    · have ih' := ih (fun y hy => hp y (by simp [hy]))
      by_cases hpx : p x = true
      · simp [upsert, hx, hpx, ih']
      · simp [upsert, hx, hpx, ih']

end Keyed

/-! ### Further rows -/

/-- The log goes on with rows that satisfy `p`. -/
def Adds (p : α → Prop) (log log' : List α) : Prop := ∃ l, log' = log ++ l ∧ ∀ r ∈ l, p r

theorem Adds.refl (p : α → Prop) (log : List α) : Adds p log log :=
  ⟨[], (List.append_nil log).symm, by simp⟩

theorem Adds.single {p : α → Prop} {r : α} (h : p r) (log : List α) : Adds p log (log ++ [r]) :=
  ⟨[r], rfl, by simpa using h⟩

theorem Adds.trans {p q : α → Prop} {log log' log'' : List α} (h : Adds p log log')
    (h' : Adds q log' log'') (hqp : ∀ r, q r → p r) : Adds p log log'' := by
  obtain ⟨l, rfl, hl⟩ := h
  obtain ⟨l', rfl, hl'⟩ := h'
  refine ⟨l ++ l', List.append_assoc _ _ _, fun r hr => ?_⟩
  rcases List.mem_append.mp hr with hr | hr
  · exact hl r hr
  · exact hqp r (hl' r hr)

theorem Adds.subset {p : α → Prop} {log log' : List α} (h : Adds p log log') : log ⊆ log' := by
  obtain ⟨l, rfl, -⟩ := h
  exact List.subset_append_left _ _

theorem Adds.filter {p : α → Prop} {q : α → Bool} {log log' : List α} (h : Adds p log log')
    (hpq : ∀ r, p r → q r = false) : log'.filter q = log.filter q := by
  obtain ⟨l, rfl, hl⟩ := h
  have hnone : l.filter q = [] :=
    List.filter_eq_nil_iff.mpr fun r hr => by simp [hpq r (hl r hr)]
  rw [List.filter_append, hnone, List.append_nil]

theorem Adds.findLast {p : α → Prop} {q : α → Bool} {log log' : List α} (h : Adds p log log')
    (hpq : ∀ r, p r → q r = false) : AppendLog.findLast q log' = AppendLog.findLast q log := by
  rw [findLast_eq_getLast?, h.filter hpq, findLast_eq_getLast?]

end CodexBridge.AppendLog
