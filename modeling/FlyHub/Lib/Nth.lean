import Mathlib.Data.List.Basic
import Mathlib.Data.List.Infix
import Mathlib.Tactic.Common

/-!
# The n-th place of an element

What is behind the n-th place of an element in a list is there if the element comes n times,
and then has n of them fewer.
-/

namespace FlyHub.Lib

section
variable {α : Type*} [DecidableEq α]

/-- What is behind the `n`-th place of `c`. -/
def behind (c : α) : Nat → List α → Option (List α)
  | 0, s => some s
  | _ + 1, [] => none
  | n + 1, a :: s => if a = c then behind c n s else behind c (n + 1) s

variable {c a : α} {n : Nat} {s t rest : List α}

@[simp] theorem behind_zero (s : List α) : behind c 0 s = some s := by cases s <;> rfl

theorem behind_suffix (found : behind c n s = some rest) :
    rest <:+ s ∧ s.count c = n + rest.count c := by
  induction s generalizing n with
  | nil =>
    cases n with
    | zero =>
      cases found
      exact ⟨List.suffix_refl _, by simp⟩
    | succ n => cases found
  | cons a s ih =>
    cases n with
    | zero =>
      cases found
      exact ⟨List.suffix_refl _, by simp⟩
    | succ n =>
      rw [behind] at found
      split at found
      · rename_i here
        obtain ⟨suffix, count⟩ := ih found
        refine ⟨suffix.trans (List.suffix_cons a s), ?_⟩
        rw [here, List.count_cons_self, count]
        omega
      · rename_i other
        obtain ⟨suffix, count⟩ := ih found
        refine ⟨suffix.trans (List.suffix_cons a s), ?_⟩
        rw [List.count_cons_of_ne other, count]

/-- The place itself comes right before what is behind it. -/
theorem behind_cons_suffix (found : behind c (n + 1) s = some rest) : c :: rest <:+ s := by
  induction s generalizing n with
  | nil => cases found
  | cons a s ih =>
    rw [behind] at found
    split at found
    · rename_i here
      subst here
      cases n with
      | zero =>
        rw [behind_zero] at found
        cases found
        exact List.suffix_refl _
      | succ n => exact (ih found).trans (List.suffix_cons a s)
    · exact (ih found).trans (List.suffix_cons a s)

theorem behind_eq_none (missing : behind c n s = none) : s.count c < n := by
  induction s generalizing n with
  | nil =>
    cases n with
    | zero => cases missing
    | succ n => simp
  | cons a s ih =>
    cases n with
    | zero => cases missing
    | succ n =>
      rw [behind] at missing
      split at missing
      · rename_i here
        rw [here, List.count_cons_self]
        have fewer := ih missing
        omega
      · rename_i other
        rw [List.count_cons_of_ne other]
        exact ih missing

theorem behind_of_le (le : n ≤ s.count c) : ∃ rest, behind c n s = some rest := by
  cases found : behind c n s with
  | none =>
    have fewer := behind_eq_none found
    omega
  | some rest => exact ⟨rest, rfl⟩

/-- What comes first is passed with all its places. -/
theorem behind_append (s : List α) :
    behind c (s.count c + n + 1) (s ++ t) = behind c (n + 1) t := by
  induction s with
  | nil => simp
  | cons a s ih =>
    rw [List.cons_append, behind]
    split
    · rename_i here
      have count : List.count c (a :: s) + n = s.count c + n + 1 := by
        rw [here, List.count_cons_self]
        omega
      rw [count, ih]
    · rename_i other
      rw [List.count_cons_of_ne other, ih]

theorem behind_concat (other : a ≠ c) (n : Nat) (s : List α) :
    behind c n (s ++ [a]) = (behind c n s).map (· ++ [a]) := by
  induction s generalizing n with
  | nil =>
    cases n with
    | zero => rfl
    | succ n => simp [behind, other]
  | cons b s ih =>
    cases n with
    | zero => rfl
    | succ n =>
      rw [List.cons_append, behind, behind]
      split
      · exact ih n
      · exact ih (n + 1)

/-- Behind a place, a rest of the list with as many places is no longer. -/
theorem length_le_of_count {r : List α} (place : c :: rest <:+ s) (suffix : r <:+ s)
    (count : r.count c ≤ rest.count c) : r.length ≤ rest.length := by
  by_contra longer
  have inside : c :: rest <:+ r :=
    List.suffix_of_suffix_length_le place suffix (by rw [List.length_cons]; omega)
  have more := inside.sublist.count_le c
  rw [List.count_cons_self] at more
  omega

end

end FlyHub.Lib
