import Mathlib.Data.Nat.Notation
import Mathlib.Order.Lattice
import Mathlib.Tactic.Common

/-!
# Search for an upper bound

The search looks at the value in the middle of what is left of a table, and goes on in one half.
In a sorted table it ends behind the last value that isn't greater than the one looked for. In a
table that isn't sorted it doesn't end behind each value when it looks for it.
-/

namespace FlyHub.Lib

section
variable {α : Type*} [LinearOrder α] (a : ℕ → α) (val : α)

/-- The search in the `len` values from `first`. -/
def searchUpper (first len : ℕ) : ℕ :=
  if len = 0 then first
  else
    let half := len / 2
    if val < a (first + half) then searchUpper first half
    else searchUpper (first + half + 1) (len - half - 1)
termination_by len

variable {a val} {first len : ℕ}

theorem searchUpper_left (some_ : len ≠ 0) (lt : val < a (first + len / 2)) :
    searchUpper a val first len = searchUpper a val first (len / 2) := by
  rw [searchUpper, if_neg some_]
  exact if_pos lt

theorem searchUpper_right (some_ : len ≠ 0) (le : a (first + len / 2) ≤ val) :
    searchUpper a val first len =
      searchUpper a val (first + len / 2 + 1) (len - len / 2 - 1) := by
  rw [searchUpper, if_neg some_]
  exact if_neg (not_lt.mpr le)

theorem searchUpper_bounds (a : ℕ → α) (val : α) (first len : ℕ) :
    first ≤ searchUpper a val first len ∧ searchUpper a val first len ≤ first + len := by
  fun_induction searchUpper a val first len with
  | case1 first => exact ⟨Nat.le_refl _, Nat.le_refl _⟩
  | case2 first len some_ half lt ih => omega
  | case3 first len some_ half le ih => omega

/-- The value before the end isn't greater. -/
theorem le_of_searchUpper {i : ℕ} (at_ : searchUpper a val first len = i + 1) (le : first ≤ i) :
    a i ≤ val := by
  fun_induction searchUpper a val first len with
  | case1 first => omega
  | case2 first len some_ half lt ih => exact ih at_ le
  | case3 first len some_ half not_lt' ih =>
    have bounds := searchUpper_bounds a val (first + half + 1) (len - half - 1)
    by_cases last : i = first + half
    · rw [last]
      exact not_lt.mp not_lt'
    · exact ih at_ (by omega)

/-- The search finds where the values end that aren't greater, if they come first. -/
theorem searchUpper_eq {k : ℕ} (from_ : first ≤ k) (to_ : k ≤ first + len)
    (before : ∀ j, first ≤ j → j < k → a j ≤ val)
    (after : ∀ j, k ≤ j → j < first + len → val < a j) : searchUpper a val first len = k := by
  fun_induction searchUpper a val first len with
  | case1 first => omega
  | case2 first len some_ half lt ih =>
    have le : k ≤ first + half := by
      by_contra past
      exact absurd lt (not_lt.mpr (before _ (by omega) (by omega)))
    exact ih from_ le before fun j from_ to_ => after j from_ (by omega)
  | case3 first len some_ half not_lt' ih =>
    have past : first + half + 1 ≤ k := by
      by_contra early
      exact not_lt' (after _ (by omega) (by omega))
    apply ih past (by omega)
    · intro j from_ to_
      exact before j (by omega) to_
    · intro j from_ to_
      exact after j from_ (by omega)

/-- A table is sorted in which the search ends behind each value that it looks for. -/
theorem sorted_of_searchUpper (a : ℕ → α) (first len : ℕ)
    (found : ∀ k, first ≤ k → k < first + len → searchUpper a (a k) first len = k + 1) :
    ∀ i j, first ≤ i → i < j → j < first + len → a i ≤ a j := by
  induction len using Nat.strongRecOn generalizing first with
  | ind len ih =>
    intro i j from_ lt to_
    have some_ : len ≠ 0 := by omega
    have shorter : len / 2 < len := Nat.div_lt_self (Nat.pos_of_ne_zero some_) (by decide)
    let mid := first + len / 2
    have left : ∀ k, first ≤ k → k < mid →
        a k < a mid ∧ searchUpper a (a k) first (len / 2) = k + 1 := by
      intro k from_ to_
      have end_ := found k from_ (by omega)
      rcases lt_or_ge (a k) (a mid) with less | ge
      · rw [searchUpper_left some_ less] at end_
        exact ⟨less, end_⟩
      · rw [searchUpper_right some_ ge] at end_
        have bounds := searchUpper_bounds a (a k) (first + len / 2 + 1) (len - len / 2 - 1)
        omega
    have right : ∀ k, mid < k → k < first + len →
        a mid ≤ a k ∧ searchUpper a (a k) (mid + 1) (len - len / 2 - 1) = k + 1 := by
      intro k from_ to_
      have end_ := found k (by omega) to_
      rcases lt_or_ge (a k) (a mid) with less | ge
      · rw [searchUpper_left some_ less] at end_
        have bounds := searchUpper_bounds a (a k) first (len / 2)
        omega
      · rw [searchUpper_right some_ ge] at end_
        exact ⟨ge, end_⟩
    -- the value in the middle is between all others
    rcases Nat.lt_trichotomy j mid with before | rfl | after
    · exact ih (len / 2) shorter first (fun k from_ to_ => (left k from_ to_).2) i j from_ lt before
    · exact le_of_lt (left i from_ lt).1
    · rcases Nat.lt_trichotomy i mid with before | rfl | past
      · exact le_trans (le_of_lt (left i from_ before).1) (right j after to_).1
      · exact (right j after to_).1
      · refine ih (len - len / 2 - 1) (by omega) (mid + 1) (fun k from_ to_ => ?_) i j past lt
          (by omega)
        exact (right k from_ (by omega)).2

end

end FlyHub.Lib
