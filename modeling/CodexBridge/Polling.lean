import Mathlib.Data.List.Basic
import Mathlib.Tactic.ByContra
import Mathlib.Tactic.SplitIfs
import CodexBridge.Halting

/-! A poller keeps a state between its polls in a store. A poll loads the state, takes
what there is of a log, one event after the other, until the log is read or the
state has halted, and stores the state again; what came out on the way is handed out
and forgotten. Where the polls cut the log makes no difference to what comes out. -/

namespace CodexBridge

variable {S W σ κ ε ι χ ρ : Type*}

/-- The core of a state is what the store keeps of it; the source of a store is what the
steps read of it besides. The note is a value in the store that follows the core, at
every poll or only at those with an output. -/
structure Poller (S W σ κ ε ι χ ρ : Type*) where
  source : S → χ
  load : S → σ
  log : S → W → List ε
  step : S → W → σ → ε → σ
  halted : σ → Bool
  core : σ → κ
  out : σ → List ι
  next : S → W → S
  note : S → ρ
  rep : κ → ρ
  eager : Bool

namespace Poller

variable (P : Poller S W σ κ ε ι χ ρ)

/-- The state at the end of a poll. -/
def final (s : S) (w : W) : σ := runUntil (P.step s w) P.halted (P.load s) (P.log s w)

/-- Polls one after the other, up to one that halts: what comes out, and the store. -/
def run : S → List W → List ι × S
  | s, [] => ([], s)
  | s, w :: ws =>
    if P.halted (P.final s w) then (P.out (P.final s w), P.next s w)
    else (P.out (P.final s w) ++ (run (P.next s w) ws).1, (run (P.next s w) ws).2)

/-- The log as these polls read it. -/
def logs : S → List W → List ε
  | _, [] => []
  | s, w :: ws =>
    P.log s w ++ if P.halted (P.final s w) then [] else logs (P.next s w) ws

/-- The laws of a poller, over the polls that are `ok`. -/
structure Lawful (ok : S → W → Prop) : Prop where
  load_out : ∀ s, P.out (P.load s) = []
  halted_core : ∀ x y, P.core x = P.core y → P.halted x = P.halted y
  step_agrees : ∀ s s' w w' x y e, P.source s = P.source s' → P.core x = P.core y →
    P.core (P.step s w x e) = P.core (P.step s' w' y e) ∧
      ∃ new, P.out (P.step s w x e) = P.out x ++ new ∧ P.out (P.step s' w' y e) = P.out y ++ new
  step_quiet : ∀ s w x e, P.out (P.step s w x e) = P.out x →
    P.rep (P.core (P.step s w x e)) = P.rep (P.core x)
  next_source : ∀ s w, ok s w → P.source (P.next s w) = P.source s
  next_core : ∀ s w, ok s w → P.halted (P.final s w) = false →
    P.core (P.load (P.next s w)) = P.core (P.final s w)
  next_note : ∀ s w, ok s w → P.note (P.next s w) =
    if P.eager ∨ P.out (P.final s w) ≠ [] then P.rep (P.core (P.final s w)) else P.note s
  next_ok : ∀ s w w', ok s w → ok s w' → P.halted (P.final s w) = false → ok (P.next s w) w'

namespace Lawful

variable {P} {ok : S → W → Prop} (law : P.Lawful ok)
include law

theorem out_prefix (s : S) (w : W) (x : σ) (es : List ε) :
    ∃ new, P.out (runUntil (P.step s w) P.halted x es) = P.out x ++ new := by
  induction es generalizing x with
  | nil => exact ⟨[], (List.append_nil _).symm⟩
  | cons e rest ih =>
    cases hx : P.halted x with
    | true =>
      rw [Halting.runUntil_halted hx]
      exact ⟨[], (List.append_nil _).symm⟩
    | false =>
      rw [Halting.runUntil_cons hx]
      obtain ⟨first, hfirst, -⟩ := (law.step_agrees s s w w x x e rfl rfl).2
      obtain ⟨new, hnew⟩ := ih (P.step s w x e)
      exact ⟨first ++ new, by rw [hnew, hfirst, List.append_assoc]⟩

/-- Steps that nothing comes out of leave the note alone. -/
theorem rep_of_quiet (s : S) (w : W) {x : σ} {es : List ε}
    (h : P.out (runUntil (P.step s w) P.halted x es) = P.out x) :
    P.rep (P.core (runUntil (P.step s w) P.halted x es)) = P.rep (P.core x) := by
  induction es generalizing x with
  | nil => rfl
  | cons e rest ih =>
    cases hx : P.halted x with
    | true => rw [Halting.runUntil_halted hx]
    | false =>
      rw [Halting.runUntil_cons hx] at h ⊢
      obtain ⟨first, hfirst, -⟩ := (law.step_agrees s s w w x x e rfl rfl).2
      obtain ⟨new, hnew⟩ := law.out_prefix s w (P.step s w x e) rest
      have hnil : first ++ new = [] := by
        rw [hnew, hfirst, List.append_assoc] at h
        exact List.append_right_eq_self.mp h
      obtain ⟨rfl, rfl⟩ := List.append_eq_nil_iff.mp hnil
      have hquiet : P.out (P.step s w x e) = P.out x := by rw [hfirst, List.append_nil]
      rw [ih (by rw [hnew, List.append_nil]), law.step_quiet s w x e hquiet]

/-- One poll, seen from a machine that has come to the same core by other polls. -/
theorem final_agrees {s s₀ : S} (w w₀ : W) (hsource : P.source s = P.source s₀) {x : σ}
    (hcore : P.core (P.load s) = P.core x) :
    P.core (P.final s w) = P.core (runUntil (P.step s₀ w₀) P.halted x (P.log s w)) ∧
      P.out (runUntil (P.step s₀ w₀) P.halted x (P.log s w)) =
        P.out x ++ P.out (P.final s w) := by
  refine Halting.runUntil_related
    (R := fun a b => P.core a = P.core b ∧ P.out b = P.out x ++ P.out a) ?_ ?_
    ⟨hcore, by rw [law.load_out, List.append_nil]⟩ _
  · intro a b hab
    exact law.halted_core a b hab.1
  · intro a b e hab
    obtain ⟨hstep, new, hnew, hnew'⟩ := law.step_agrees s s₀ w w₀ a b e hsource hab.1
    exact ⟨hstep, by rw [hnew, hnew', hab.2, List.append_assoc]⟩

/-- A run comes to what the machine comes to that takes the whole log at once. -/
theorem run_follows {s s₀ : S} (w₀ : W) {ws : List W} (hok : ∀ w ∈ ws, ok s w)
    (hsource : P.source s = P.source s₀) {x : σ} (hcore : P.core (P.load s) = P.core x) :
    let y := runUntil (P.step s₀ w₀) P.halted x (P.logs s ws)
    P.out y = P.out x ++ (P.run s ws).1 ∧
      P.note (P.run s ws).2 =
        if ws ≠ [] ∧ (P.eager ∨ (P.run s ws).1 ≠ []) then P.rep (P.core y) else P.note s := by
  induction ws generalizing s x with
  | nil => simp [logs, run]
  | cons w ws ih =>
    obtain ⟨hfinal, hout⟩ := law.final_agrees w w₀ hsource hcore
    have hokw := hok w (List.mem_cons_self ..)
    have hnote := law.next_note s w hokw
    simp only [logs, run, Halting.runUntil_append]
    have hhalt := law.halted_core _ _ hfinal
    cases hend : P.halted (P.final s w) with
    | true =>
      simp only [if_true, Halting.runUntil_nil]
      refine ⟨hout, ?_⟩
      rw [hnote, hfinal]
      simp
    | false =>
      simp only [Bool.false_eq_true, if_false]
      have hrest : ∀ w' ∈ ws, ok (P.next s w) w' := by
        intro w' hw'
        exact law.next_ok s w w' hokw (hok w' (List.mem_cons_of_mem _ hw')) hend
      obtain ⟨hall, hlast⟩ := ih hrest ((law.next_source s w hokw).trans hsource)
        ((law.next_core s w hokw hend).trans hfinal)
      refine ⟨by rw [hall, hout, List.append_assoc], ?_⟩
      rw [hlast, hnote, hfinal]
      -- the last polls may have been quiet, and then the note is that of the poll before them
      by_cases hquiet : ws ≠ [] ∧ (P.eager ∨ (P.run (P.next s w) ws).1 ≠ [])
      · rw [if_pos hquiet, if_pos]
        exact ⟨List.cons_ne_nil _ _, hquiet.2.imp id fun h => by simp [h]⟩
      · have hnil : (P.run (P.next s w) ws).1 = [] := by
          by_contra hne
          cases ws with
          | nil => exact hne rfl
          | cons w' ws => exact hquiet ⟨List.cons_ne_nil _ _, .inr hne⟩
        have hrep := law.rep_of_quiet s₀ w₀ (by rw [hall, hnil, List.append_nil])
        rw [if_neg hquiet, hrep, hnil, List.append_nil]
        simp

/-- Two runs, from stores that hold the same, whose logs bring the machine to the same
state come to the same. -/
theorem run_eq {s s' : S} (w₀ : W) (hsource : P.source s' = P.source s)
    (hload : P.load s' = P.load s) (hnotes : P.note s' = P.note s) {ws ws' : List W}
    (hws : ws ≠ []) (hws' : ws' ≠ []) (hok : ∀ w ∈ ws, ok s w) (hok' : ∀ w ∈ ws', ok s' w)
    (hlogs : runUntil (P.step s w₀) P.halted (P.load s) (P.logs s ws) =
      runUntil (P.step s w₀) P.halted (P.load s) (P.logs s' ws')) :
    (P.run s ws).1 = (P.run s' ws').1 ∧ P.note (P.run s ws).2 = P.note (P.run s' ws').2 := by
  obtain ⟨hout, hnote⟩ := law.run_follows w₀ hok rfl rfl
  obtain ⟨hout', hnote'⟩ := law.run_follows w₀ hok' hsource (congrArg P.core hload)
  have hsame : (P.run s ws).1 = (P.run s' ws').1 := by
    rw [hlogs, hout', law.load_out, List.nil_append, List.nil_append] at hout
    exact hout.symm
  refine ⟨hsame, ?_⟩
  rw [hnote, hnote', hlogs, hsame, hnotes]
  simp [hws, hws']

end Lawful

end Poller

end CodexBridge
