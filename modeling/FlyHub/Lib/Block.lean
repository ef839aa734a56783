import Mathlib.Data.List.Basic
import Mathlib.Tactic.Common

/-!
# Blocks of memory with checked access

A block is the list of its cells. Reading and writing are defined inside the
block only: `none` is an access that leaves it.
-/

namespace FlyHub.Lib

section
variable {α : Type*}

/-- The `n` cells from `off` on. -/
def readAt (b : List α) (off n : Nat) : Option (List α) :=
  if off + n ≤ b.length then some ((b.drop off).take n) else none

/-- `memcpy` and `memmove` of `data` to `off`, where it fits. -/
def overwrite (b : List α) (off : Nat) (data : List α) : List α :=
  b.take off ++ data ++ b.drop (off + data.length)

def writeAt (b : List α) (off : Nat) (data : List α) : Option (List α) :=
  if off + data.length ≤ b.length then some (overwrite b off data) else none

variable {b b' data : List α} {off n : Nat}

theorem readAt_of_le (h : off + n ≤ b.length) : readAt b off n = some ((b.drop off).take n) :=
  if_pos h

/-- What a successful write leaves behind. -/
structure Written (b : List α) (off : Nat) (data b' : List α) : Prop where
  fits : off + data.length ≤ b.length
  length : b'.length = b.length
  upTo : b'.take (off + data.length) = b.take off ++ data
  after : b'.drop (off + data.length) = b.drop (off + data.length)

theorem overwrite_written (h : off + data.length ≤ b.length) :
    Written b off data (overwrite b off data) := by
  have front : (b.take off ++ data).length = off + data.length := by
    rw [List.length_append, List.length_take]
    omega
  refine ⟨h, ?_, ?_, ?_⟩
  · rw [overwrite, List.length_append, front, List.length_drop]
    omega
  · rw [overwrite, List.take_left' front]
  · rw [overwrite, List.drop_left' front]

theorem writeAt_of_le (b : List α) (off : Nat) (data : List α) (h : off + data.length ≤ b.length) :
    ∃ b', writeAt b off data = some b' ∧ Written b off data b' :=
  ⟨overwrite b off data, if_pos h, overwrite_written h⟩

theorem writeAt_some (done : writeAt b off data = some b') : Written b off data b' := by
  unfold writeAt at done
  split at done
  · rename_i fits
    cases done
    exact overwrite_written fits
  · cases done

/-- A cell that was written can be read. -/
theorem Written.cell {x : α} (written : Written b off [x] b') : b'[off]? = some x := by
  have fits := written.fits
  have upTo := congrArg (fun l : List α => l[off]?) written.upTo
  rw [List.length_singleton] at fits
  rw [List.length_singleton, List.getElem?_take_of_lt (Nat.lt_succ_self off),
    List.getElem?_append_right (List.length_take_le _ _), List.length_take,
    Nat.min_eq_left (by omega), Nat.sub_self] at upTo
  exact upTo

/-- The cells before the write are as they were. -/
theorem Written.before (written : Written b off data b') (h : n ≤ off) :
    b'.take n = b.take n := by
  have fits := written.fits
  have inside := congrArg (List.take n) written.upTo
  rw [List.take_take, Nat.min_eq_left (by omega),
    List.take_append_of_le_length (by simp; omega), List.take_take, Nat.min_eq_left h] at inside
  exact inside

end

/-- What follows a call that has returned. -/
@[simp] theorem ok_bind {ε α β : Type} (a : α) (f : α → Except ε β) :
    (Except.ok a >>= f) = f a := rfl

theorem bind_ok {ε α β : Type} {x : Except ε α} {f : α → Except ε β} {b : β}
    (returned : (x >>= f) = .ok b) : ∃ a, x = .ok a ∧ f a = .ok b := by
  cases x with
  | error failure => cases returned
  | ok a => exact ⟨a, rfl, returned⟩

theorem except_map_ok {ε α β : Type} {x : Except ε α} {f : α → β} {b : β}
    (returned : x.map f = .ok b) : ∃ a, x = .ok a ∧ f a = b := by
  cases x with
  | error failure => cases returned
  | ok a => exact ⟨a, rfl, Except.ok.inj returned⟩

end FlyHub.Lib
