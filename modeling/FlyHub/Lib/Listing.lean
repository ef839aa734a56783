import Mathlib.Data.List.Nodup
import Mathlib.Data.List.Sort
import Mathlib.Tactic.Common

/-!
# A selection in the order of a list

A selection of the entries of a list is kept in their order by putting a new one before the first
one that comes later.
-/

namespace FlyHub.Lib

variable {α : Type*} {l : List α} {a : α}

/-- The entries of a list without duplicates are in the order of their positions. -/
theorem pairwise_idxOf [DecidableEq α] (nodup : l.Nodup) :
    l.Pairwise fun x y => l.idxOf x < l.idxOf y := by
  rw [List.pairwise_iff_getElem]
  intro i j hi hj before
  rw [nodup.idxOf_getElem i hi, nodup.idxOf_getElem j hj]
  exact before

theorem orderedInsert_first {pos : α → Nat} {xs : List α} (first : ∀ x ∈ xs, pos a < pos x) :
    xs.orderedInsert (fun x y => pos x < pos y) a = a :: xs := by
  cases xs with
  | nil => rfl
  | cons x xs => exact List.orderedInsert_cons_of_le _ xs (first x List.mem_cons_self)

/-- An entry that is put into a selection comes to its place. -/
theorem orderedInsert_filter [DecidableEq α] {pos : α → Nat} {p : α → Bool}
    (sorted : l.Pairwise fun x y => pos x < pos y) (mem : a ∈ l) (free : p a = false) :
    (l.filter p).orderedInsert (fun x y => pos x < pos y) a = l.filter fun x => p x || x = a := by
  induction l with
  | nil => cases mem
  | cons x xs ih =>
    obtain ⟨before, sorted⟩ := List.pairwise_cons.1 sorted
    rcases List.mem_cons.1 mem with rfl | mem
    · have rest : xs.filter (fun x => p x || x = a) = xs.filter p := by
        apply List.filter_congr
        intro x hx
        have other : x ≠ a := fun eq => Nat.lt_irrefl _ (eq ▸ before x hx)
        simp [other]
      rw [List.filter_cons_of_neg (by simp [free]), List.filter_cons_of_pos (by simp), rest]
      exact orderedInsert_first fun x hx => before x (List.mem_of_mem_filter hx)
    · have later := before a mem
      have other : x ≠ a := fun eq => Nat.lt_irrefl _ (eq ▸ later)
      cases kept : p x with
      | true =>
        rw [List.filter_cons_of_pos kept, List.filter_cons_of_pos (by simp [kept]),
          List.orderedInsert_cons, if_neg (Nat.not_lt.2 (Nat.le_of_lt later)), ih sorted mem]
      | false =>
        rw [List.filter_cons_of_neg (by simp [kept]),
          List.filter_cons_of_neg (by simp [kept, other]), ih sorted mem]

end FlyHub.Lib
