import Mathlib.Data.Nat.Notation
import Mathlib.Tactic.Common

/-!
# Bits of a word

A word has the bits of a mask if they are all set in it. Setting some bits keeps all others.
-/

namespace FlyHub.Lib

section
variable {width : ℕ}

def HasBits (word mask : BitVec width) : Prop := word &&& mask = mask

instance (word mask : BitVec width) : Decidable (HasBits word mask) :=
  inferInstanceAs (Decidable (_ = _))

variable {word word' mask bits : BitVec width}

theorem hasBits_self (mask : BitVec width) : HasBits mask mask := BitVec.and_self

theorem HasBits.or (has : HasBits word mask) (bits : BitVec width) :
    HasBits (word ||| bits) mask := by
  unfold HasBits at has ⊢
  rw [BitVec.and_or_distrib_right, has]
  ext i lt
  rw [BitVec.getElem_or, BitVec.getElem_and]
  cases mask[i] <;> simp

theorem hasBits_or (word mask : BitVec width) : HasBits (word ||| mask) mask := by
  rw [BitVec.or_comm]
  exact (hasBits_self mask).or word

/-- Only the bits that are set change. -/
theorem hasBits_or_iff (others : bits &&& mask = 0) :
    HasBits (word ||| bits) mask ↔ HasBits word mask := by
  unfold HasBits
  rw [BitVec.and_or_distrib_right, others]
  exact Iff.of_eq (congrArg (· = mask) BitVec.or_zero)

/-- Words that are the same under a mask have the same bits of it. -/
theorem hasBits_congr {kept : BitVec width} (part : HasBits kept mask)
    (same : word &&& kept = word' &&& kept) : HasBits word mask ↔ HasBits word' mask := by
  unfold HasBits at part ⊢
  have whole : ∀ w : BitVec width, w &&& mask = w &&& kept &&& mask := by
    intro w
    rw [BitVec.and_assoc, part]
  rw [whole word, whole word', same]

end

end FlyHub.Lib
