import Mathlib.Data.Nat.Notation
import Mathlib.Tactic.Common

/-!
# Numbers in network order

A number of a fixed width is written with its most significant byte first.
-/

namespace FlyHub.Lib

/-- The `width` lowest bytes of `n`, the most significant one first. -/
def toBE : Nat → Nat → List UInt8
  | 0, _ => []
  | width + 1, n => toBE width (n / 256) ++ [UInt8.ofNat n]

def ofBE (bytes : List UInt8) : Nat := bytes.foldl (fun n c => n * 256 + c.toNat) 0

@[simp] theorem toBE_length (width n : Nat) : (toBE width n).length = width := by
  induction width generalizing n with
  | zero => rfl
  | succ width ih => simp [toBE, ih]

theorem ofBE_toBE (width n : Nat) (small : n < Nat.pow 256 width) : ofBE (toBE width n) = n := by
  induction width generalizing n with
  | zero =>
    have zero : n = 0 := Nat.lt_one_iff.mp small
    rw [zero]
    rfl
  | succ width ih =>
    have high : n / 256 < Nat.pow 256 width :=
      Nat.div_lt_of_lt_mul (by rw [Nat.mul_comm]; exact small)
    have rest := ih (n / 256) high
    rw [ofBE] at rest
    rw [toBE, ofBE, List.foldl_append, rest]
    simp
    omega

/-- A number cannot be below zero: the subtraction of unsigned numbers with `m` values
goes round. -/
def wrapSub (m a b : Nat) : Nat := if b ≤ a then a - b else a + m - b

theorem wrapSub_of_le {m a b : Nat} (h : b ≤ a) : wrapSub m a b = a - b := if_pos h

end FlyHub.Lib
