import Mathlib.Data.List.Perm.Basic
import Mathlib.Logic.Function.Basic
import Mathlib.Tactic.Common

/-!
# Multimaps beside lists

A multimap keeps the elements of a list under their keys, those of one key in an
order of its own. Whatever that order is, a search under a key finds an element
exactly when the list has one.
-/

namespace FlyHub.Lib

/-- Where a multimap puts a new element among those of its key. -/
structure Placement (α : Type*) where
  insert : α → List α → List α
  perm : ∀ a l, (insert a l).Perm (a :: l)

/-- New elements in front. -/
def Placement.front (α : Type*) : Placement α := ⟨List.cons, fun _ _ => .refl _⟩

section
variable {κ α : Type*} [DecidableEq κ] [DecidableEq α] (key : α → κ)

/-- The multimap has the elements of the list, each as often as the list. -/
def Keyed (table : κ → List α) (l : List α) : Prop :=
  ∀ k, (table k).Perm (l.filter (key · = k))

variable {key} {table : κ → List α} {l : List α} {a : α}

omit [DecidableEq α] in
theorem keyed_empty : Keyed key (fun _ => []) [] := fun _ => .refl _

omit [DecidableEq α] in
theorem Keyed.add (keyed : Keyed key table l) (place : Placement α) (a : α) :
    Keyed key (Function.update table (key a) (place.insert a (table (key a)))) (l ++ [a]) := by
  intro k
  rw [List.filter_append, Function.update_apply]
  by_cases here : k = key a
  · subst here
    rw [if_pos rfl]
    have one : [a].filter (key · = key a) = [a] := by simp
    rw [one]
    exact ((place.perm a _).trans ((keyed _).cons a)).trans (List.perm_append_singleton a _).symm
  · have none_ : [a].filter (key · = k) = [] := by simp [Ne.symm here]
    rw [if_neg here, none_, List.append_nil]
    exact keyed k

theorem Keyed.erase (keyed : Keyed key table l) (a : α) :
    Keyed key (Function.update table (key a) ((table (key a)).erase a)) (l.erase a) := by
  intro k
  rw [← List.erase_filter, Function.update_apply]
  by_cases here : k = key a
  · subst here
    rw [if_pos rfl]
    exact (keyed _).erase a
  · have absent : a ∉ l.filter (key · = k) := by
      rw [List.mem_filter, decide_eq_true_eq]
      exact fun both => here both.2.symm
    rw [if_neg here, List.erase_of_not_mem absent]
    exact keyed k

omit [DecidableEq α] in
theorem Keyed.mem_iff (keyed : Keyed key table l) {k : κ} : a ∈ table k ↔ a ∈ l ∧ key a = k := by
  rw [(keyed k).mem_iff, List.mem_filter, decide_eq_true_eq]

omit [DecidableEq α] in
/-- A search under a key. -/
theorem Keyed.find?_isSome (keyed : Keyed key table l) {k : κ} {p : α → Bool} :
    ((table k).find? p).isSome ↔ ∃ a ∈ l, key a = k ∧ p a = true := by
  rw [List.find?_isSome]
  constructor
  · rintro ⟨a, mem, found⟩
    obtain ⟨inList, here⟩ := keyed.mem_iff.mp mem
    exact ⟨a, inList, here, found⟩
  · rintro ⟨a, inList, here, found⟩
    exact ⟨a, keyed.mem_iff.mpr ⟨inList, here⟩, found⟩

omit [DecidableEq α] in
/-- Only the keys of the elements matter. -/
theorem Keyed.congr {key' : α → κ} (keyed : Keyed key table l) (same : ∀ a ∈ l, key' a = key a) :
    Keyed key' table l := by
  intro k
  have filtered : l.filter (key' · = k) = l.filter (key · = k) :=
    List.filter_congr fun a mem => by rw [same a mem]
  rw [filtered]
  exact keyed k

end

end FlyHub.Lib
