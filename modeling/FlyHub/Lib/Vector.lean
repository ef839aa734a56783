import Mathlib.Data.List.Basic
import Mathlib.Tactic.Common

/-!
# Growable blocks of memory

A block reserves `cap` elements of which the first `size` are in use. Only the
elements in use survive a reallocation: the ones a caller wrote between `size`
and `cap` are left behind, and the new elements in use are zero.
-/

namespace FlyHub.Lib

section
variable {α : Type*}

/-- The first `n` elements of a memory. -/
def slice (mem : Nat → α) (n : Nat) : List α := (List.range n).map mem

/-- `memcpy` of `data` to offset `off`. -/
def memcpy (mem : Nat → α) (off : Nat) (data : List α) : Nat → α := fun i =>
  if off ≤ i then (data[i - off]?).getD (mem i) else mem i

@[simp] theorem slice_length (mem : Nat → α) (n : Nat) : (slice mem n).length = n := by
  simp [slice]

@[simp] theorem slice_zero (mem : Nat → α) : slice mem 0 = [] := rfl

theorem slice_getElem? (mem : Nat → α) (n i : Nat) :
    (slice mem n)[i]? = if i < n then some (mem i) else none := by
  by_cases h : i < n <;> simp [slice, h]

theorem slice_congr {mem mem' : Nat → α} {n : Nat} (h : ∀ i < n, mem i = mem' i) :
    slice mem n = slice mem' n := by
  simp only [slice, List.map_inj_left, List.mem_range]
  exact h

theorem slice_take (mem : Nat → α) {m n : Nat} (h : m ≤ n) :
    (slice mem n).take m = slice mem m := by
  rw [slice, ← List.map_take, List.take_range, Nat.min_eq_left h, slice]

/-- Copying to the end of a prefix appends to it. -/
theorem slice_memcpy (mem : Nat → α) (n : Nat) (data : List α) :
    slice (memcpy mem n data) (n + data.length) = slice mem n ++ data := by
  apply List.ext_getElem?
  intro i
  rw [slice_getElem?, List.getElem?_append, slice_getElem?, slice_length]
  by_cases hn : i < n
  · have below : ¬ n ≤ i := by omega
    simp [memcpy, hn, below, show i < n + data.length by omega]
  · by_cases hd : i - n < data.length
    · have inside : i < n + data.length := by omega
      simp [memcpy, hn, inside, hd, show n ≤ i by omega]
    · have past : ¬ i < n + data.length := by omega
      simp [hn, past, show data.length ≤ i - n by omega]

/-- Copying after a prefix leaves it as it was. -/
theorem slice_memcpy_of_le (mem : Nat → α) {n off : Nat} (h : n ≤ off) (data : List α) :
    slice (memcpy mem off data) n = slice mem n := by
  apply slice_congr
  intro i hi
  simp [memcpy, show ¬ off ≤ i by omega]

end

/-- A block of memory that owns `cap` elements, `size` of them in use. -/
structure Vec (α : Type*) where
  mem : Nat → α
  size : Nat
  cap : Nat
  size_le : size ≤ cap

namespace Vec

section
variable {α : Type*}

/-- A new block of `n` elements, all `zero`. What lies past its capacity is
never read. -/
def filled (zero : α) (n : Nat) : Vec α := ⟨fun _ => zero, n, n, Nat.le_refl n⟩

/-- `resize`: in place while the capacity allows it, otherwise into a block at
least twice as large that only the elements in use move to. The elements past
the new size come from the allocator as `uninit`. -/
def resize (uninit : Nat → α) (zero : α) (v : Vec α) (n : Nat) : Vec α :=
  if h : n ≤ v.cap then
    ⟨fun i => if v.size ≤ i ∧ i < n then zero else v.mem i, n, v.cap, h⟩
  else
    ⟨fun i => if i < v.size then v.mem i else if i < n then zero else uninit i, n,
      v.size + max v.size (n - v.size), by omega⟩

/-- `memcpy` into the block, whatever part of it is in use. -/
def write (v : Vec α) (off : Nat) (data : List α) : Vec α :=
  { v with mem := memcpy v.mem off data }

@[simp] theorem write_size (v : Vec α) (off : Nat) (data : List α) :
    (v.write off data).size = v.size := rfl

@[simp] theorem write_cap (v : Vec α) (off : Nat) (data : List α) :
    (v.write off data).cap = v.cap := rfl

@[simp] theorem resize_size (uninit : Nat → α) (zero : α) (v : Vec α) (n : Nat) :
    (v.resize uninit zero n).size = n := by
  unfold resize; split <;> rfl

theorem resize_cap (uninit : Nat → α) (zero : α) (v : Vec α) {n : Nat} (h : v.cap < n) :
    (v.resize uninit zero n).cap = v.size + max v.size (n - v.size) := by
  simp [resize, show ¬ n ≤ v.cap by omega]

/-- A reallocation keeps the elements in use and zeroes the others. -/
theorem slice_resize (uninit : Nat → α) (zero : α) (v : Vec α) {n len : Nat} (h : v.cap < n)
    (hlen : len ≤ n) :
    slice (v.resize uninit zero n).mem len =
      (slice v.mem len).take v.size ++ List.replicate (len - v.size) zero := by
  apply List.ext_getElem?
  intro i
  rw [slice_getElem?, List.getElem?_append, List.length_take, slice_length, List.getElem?_take,
    slice_getElem?, List.getElem?_replicate]
  simp only [resize, show ¬ n ≤ v.cap by omega, dite_false]
  by_cases hi : i < len
  · by_cases hs : i < v.size
    · have kept : i < min v.size len := by omega
      simp only [if_pos hi, if_pos hs, if_pos kept]
    · have lost : ¬ i < min v.size len := by omega
      have rest : i - min v.size len < len - v.size := by omega
      have fits : i < n := by omega
      simp only [if_pos hi, if_neg hs, if_neg lost, if_pos rest, if_pos fits]
  · have out : ¬ i < min v.size len := by omega
    have past : ¬ i - min v.size len < len - v.size := by omega
    simp only [if_neg hi, if_neg out, if_neg past]

end

end Vec

end FlyHub.Lib
