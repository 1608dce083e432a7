import Mathlib.Logic.Basic
import Mathlib.Order.Basic

/-! Folds that stop. A machine takes the elements of a list one after the other
and takes no more once it has halted. Cutting the list changes nothing, and two
machines that agree on every step agree on the whole list. -/

namespace CodexBridge

variable {σ τ ε : Type*}

/-- The state after the elements up to the one that halts the machine. -/
def runUntil (step : σ → ε → σ) (halted : σ → Bool) (s : σ) : List ε → σ
  | [] => s
  | e :: rest => if halted s then s else runUntil step halted (step s e) rest

namespace Halting

variable {step : σ → ε → σ} {halted : σ → Bool}

@[simp] theorem runUntil_nil (s : σ) : runUntil step halted s [] = s := rfl

theorem runUntil_cons {s : σ} (h : halted s = false) (e : ε) (rest : List ε) :
    runUntil step halted s (e :: rest) = runUntil step halted (step s e) rest := by
  rw [runUntil, h]
  rfl

theorem runUntil_halted {s : σ} (h : halted s = true) (es : List ε) :
    runUntil step halted s es = s := by
  cases es with
  | nil => rfl
  | cons e rest => rw [runUntil, h, if_pos rfl]

theorem runUntil_append (s : σ) (xs ys : List ε) :
    runUntil step halted s (xs ++ ys) =
      runUntil step halted (runUntil step halted s xs) ys := by
  induction xs generalizing s with
  | nil => rfl
  | cons x rest ih =>
    cases hs : halted s with
    | true => rw [runUntil_halted hs, runUntil_halted hs, runUntil_halted hs]
    | false => rw [List.cons_append, runUntil_cons hs, runUntil_cons hs, ih]

/-- What every step keeps, a run keeps. -/
theorem runUntil_invariant {P : σ → Prop} (hstep : ∀ s e, halted s = false → P s → P (step s e))
    {s : σ} (h : P s) (es : List ε) : P (runUntil step halted s es) := by
  induction es generalizing s with
  | nil => exact h
  | cons e rest ih =>
    cases hs : halted s with
    | true => rwa [runUntil_halted hs]
    | false =>
      rw [runUntil_cons hs]
      exact ih (hstep s e hs h)

/-- A relation that both machines keep and under which they halt together. -/
theorem runUntil_related {step' : τ → ε → τ} {halted' : τ → Bool} {R : σ → τ → Prop}
    (hhalt : ∀ s t, R s t → halted s = halted' t)
    (hstep : ∀ s t e, R s t → R (step s e) (step' t e)) {s : σ} {t : τ} (h : R s t)
    (es : List ε) : R (runUntil step halted s es) (runUntil step' halted' t es) := by
  induction es generalizing s t with
  | nil => exact h
  | cons e rest ih =>
    have hsame := hhalt s t h
    cases hs : halted s with
    | true =>
      rw [runUntil_halted hs, runUntil_halted (hsame ▸ hs)]
      exact h
    | false =>
      rw [runUntil_cons hs, runUntil_cons (hsame ▸ hs)]
      exact ih (hstep s t e h)

end Halting

end CodexBridge
