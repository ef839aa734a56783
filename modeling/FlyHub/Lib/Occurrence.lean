import FlyHub.Lib.Field

/-!
# Occurrences

A text occurs first at some place of another, and can be taken out there. Who reads a text
that ends early looks at its field only.
-/

namespace FlyHub.Lib

section
variable {α : Type*} [DecidableEq α]

/-- Where a text first occurs in another. -/
def firstAt (needle : List α) : List α → Option Nat
  | [] => if needle = [] then some 0 else none
  | a :: s => if needle.isPrefixOf (a :: s) then some 0 else (firstAt needle s).map (· + 1)

/-- The first occurrence that a reader finds is taken out. -/
def removeSeen (stops : α → Bool) (needle s : List α) : List α :=
  match firstAt needle (field stops s) with
  | none => s
  | some i => s.take i ++ s.drop (i + needle.length)

def removeFirst (needle s : List α) : List α := removeSeen (fun _ => false) needle s

variable {stops : α → Bool} {needle s t : List α} {i : Nat}

theorem firstAt_le (found : firstAt needle s = some i) : i + needle.length ≤ s.length := by
  induction s generalizing i with
  | nil =>
    unfold firstAt at found
    split at found
    · rename_i none_
      cases found
      rw [none_]
      exact Nat.le_refl _
    · cases found
  | cons a s ih =>
    unfold firstAt at found
    split at found
    · rename_i starts
      cases found
      rw [Nat.zero_add]
      exact (List.isPrefixOf_iff_prefix.mp starts).length_le
    · obtain ⟨j, later, rfl⟩ := Option.map_eq_some_iff.mp found
      have le := ih later
      rw [List.length_cons]
      omega

/-- In a text that doesn't end early a reader finds what there is. -/
theorem removeSeen_of_free (free : ∀ c ∈ s, stops c = false) :
    removeSeen stops needle s = removeFirst needle s := by
  rw [removeFirst, removeSeen, removeSeen, field_of_free free, field_never]

theorem removeSeen_none (none_ : firstAt needle (field stops s) = none) :
    removeSeen stops needle s = s := by
  rw [removeSeen, none_]

theorem removeSeen_some (found : firstAt needle (field stops s) = some i) :
    removeSeen stops needle s = s.take i ++ s.drop (i + needle.length) := by
  rw [removeSeen, found]

theorem removeSeen_subset {a : α} (mem : a ∈ removeSeen stops needle s) : a ∈ s := by
  unfold removeSeen at mem
  split at mem
  · exact mem
  · cases List.mem_append.mp mem with
    | inl before => exact List.mem_of_mem_take before
    | inr behind => exact List.mem_of_mem_drop behind

end

end FlyHub.Lib
