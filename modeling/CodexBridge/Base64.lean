import Mathlib.Data.List.Basic
import Mathlib.Tactic.Common

/-! Base64. The encoder writes three bytes as four characters and fills up the last group; the
decoder skips what is no digit and stops at the padding. Decoding what was encoded gives the bytes
back. -/

namespace CodexBridge.Base64

/-! ### Digits -/

def alphabet : List Char :=
  "ABCDEFGHIJKLMNOPQRSTUVWXYZabcdefghijklmnopqrstuvwxyz0123456789+/".toList

def digit (n : ℕ) : Char := alphabet.getD n '='

def sextet (c : Char) : Option ℕ := alphabet.findIdx? (· = c)

theorem digit_spec {n : ℕ} (h : n < 64) : sextet (digit n) = some n ∧ digit n ≠ '=' := by
  have hall : (List.range 64).all (fun n => sextet (digit n) = some n ∧ digit n ≠ '=') = true := by
    decide +kernel
  exact of_decide_eq_true (List.all_eq_true.mp hall n (List.mem_range.mpr h))

/-! ### Encoding -/

def encode : List UInt8 → List Char
  | [] => []
  | [a] => [digit (a.toNat / 4), digit (a.toNat % 4 * 16), '=', '=']
  | [a, b] =>
    [digit (a.toNat / 4), digit (a.toNat % 4 * 16 + b.toNat / 16), digit (b.toNat % 16 * 4), '=']
  | a :: b :: c :: rest =>
    digit (a.toNat / 4) :: digit (a.toNat % 4 * 16 + b.toNat / 16) ::
      digit (b.toNat % 16 * 4 + c.toNat / 64) :: digit (c.toNat % 64) :: encode rest

/-! ### Decoding -/

/-- The bytes from a place in a group on, with the bits left over from the digit before and the
number of paddings since. -/
def decodeFrom (quad left pads : ℕ) : List Char → Option (List UInt8)
  | [] => if quad = 0 then some [] else none
  | c :: cs =>
    if c = '=' then
      if quad < 2 then decodeFrom quad left pads cs
      else if 4 ≤ quad + (pads + 1) then some []
      else decodeFrom quad left (pads + 1) cs
    else
      match sextet c with
      | none => decodeFrom quad left pads cs
      | some n =>
        if quad = 0 then decodeFrom 1 n 0 cs
        else if quad = 1 then
          (decodeFrom 2 (n % 16) 0 cs).map (UInt8.ofNat (left * 4 + n / 16) :: ·)
        else if quad = 2 then
          (decodeFrom 3 (n % 4) 0 cs).map (UInt8.ofNat (left * 16 + n / 4) :: ·)
        else (decodeFrom 0 0 0 cs).map (UInt8.ofNat (left * 64 + n) :: ·)

def decode (text : List Char) : Option (List UInt8) := decodeFrom 0 0 0 text

attribute [grind =] encode decodeFrom

section Digits

variable {n : ℕ} (h : n < 64) (left pads : ℕ) (cs : List Char)
include h

theorem decodeFrom_zero : decodeFrom 0 left pads (digit n :: cs) = decodeFrom 1 n 0 cs := by
  rw [decodeFrom, if_neg (digit_spec h).2, (digit_spec h).1]
  rfl

theorem decodeFrom_one : decodeFrom 1 left pads (digit n :: cs) =
    (decodeFrom 2 (n % 16) 0 cs).map (UInt8.ofNat (left * 4 + n / 16) :: ·) := by
  rw [decodeFrom, if_neg (digit_spec h).2, (digit_spec h).1]
  rfl

theorem decodeFrom_two : decodeFrom 2 left pads (digit n :: cs) =
    (decodeFrom 3 (n % 4) 0 cs).map (UInt8.ofNat (left * 16 + n / 4) :: ·) := by
  rw [decodeFrom, if_neg (digit_spec h).2, (digit_spec h).1]
  rfl

theorem decodeFrom_three : decodeFrom 3 left pads (digit n :: cs) =
    (decodeFrom 0 0 0 cs).map (UInt8.ofNat (left * 64 + n) :: ·) := by
  rw [decodeFrom, if_neg (digit_spec h).2, (digit_spec h).1]
  rfl

end Digits

theorem ofNat_eq (a : UInt8) {n : ℕ} (h : n = a.toNat) : UInt8.ofNat n = a := by
  rw [h, UInt8.ofNat_toNat]

theorem decode_encode (bytes : List UInt8) : decode (encode bytes) = some bytes := by
  induction bytes using encode.induct with
  | case1 => rfl
  | case2 a =>
    have ha := a.toNat_lt
    have hpadding : decodeFrom 2 (a.toNat % 4 * 16 % 16) 0 ['=', '='] = some [] := rfl
    rw [encode, decode, decodeFrom_zero (by omega), decodeFrom_one (by omega), hpadding,
      Option.map_some, ofNat_eq a (by omega)]
  | case3 a b =>
    have ha := a.toNat_lt
    have hb := b.toNat_lt
    have hpadding : decodeFrom 3 (b.toNat % 16 * 4 % 4) 0 ['='] = some [] := rfl
    rw [encode, decode, decodeFrom_zero (by omega), decodeFrom_one (by omega),
      decodeFrom_two (by omega), hpadding, Option.map_some, Option.map_some, ofNat_eq a (by omega),
      ofNat_eq b (by omega)]
  | case4 a b c rest ih =>
    have ha := a.toNat_lt
    have hb := b.toNat_lt
    have hc := c.toNat_lt
    rw [decode] at ih
    rw [encode, decode, decodeFrom_zero (by omega), decodeFrom_one (by omega),
      decodeFrom_two (by omega), decodeFrom_three (by omega), ih, Option.map_some, Option.map_some,
      Option.map_some, ofNat_eq a (by omega), ofNat_eq b (by omega), ofNat_eq c (by omega)]

theorem encode_eq_nil {bytes : List UInt8} : encode bytes = [] ↔ bytes = [] := by
  cases bytes using encode.fun_cases <;> simp [encode]

theorem digit_ascii (n : ℕ) : (digit n).toNat < 128 := by
  have hall : alphabet.all (fun c => c.toNat < 128) = true := by decide +kernel
  rw [digit, List.getD]
  cases hdigit : alphabet[n]? with
  | none => exact (by decide : ('=').toNat < 128)
  | some c => exact of_decide_eq_true (List.all_eq_true.mp hall c (List.mem_of_getElem? hdigit))

theorem encode_ascii (bytes : List UInt8) : ∀ c ∈ encode bytes, c.toNat < 128 := by
  induction bytes using encode.induct with
  | case1 => exact List.forall_mem_nil _
  | case2 a => simp [encode, digit_ascii]
  | case3 a b => simp [encode, digit_ascii]
  | case4 a b c rest ih =>
    simp only [encode, List.forall_mem_cons]
    exact ⟨digit_ascii _, digit_ascii _, digit_ascii _, digit_ascii _, ih⟩

end CodexBridge.Base64
