import Mathlib.Data.List.TakeWhile
import Mathlib.Tactic.Common

/-!
# Fields

A field of a text goes up to the first element that stops it, or to the end.
-/

namespace FlyHub.Lib

section
variable {α : Type*} (stops : α → Bool)

def field (s : List α) : List α := s.takeWhile fun c => !stops c

variable {stops} {s w rest : List α} {c : α}

theorem field_append (inside : ∀ c ∈ w, stops c = false) (stop : stops c = true) :
    field stops (w ++ c :: rest) = w := by
  have all : ∀ a ∈ w, (!stops a) = true := fun a mem => by rw [inside a mem]; rfl
  rw [field, List.takeWhile_append_of_pos all, List.takeWhile_cons_of_neg (by simp [stop]),
    List.append_nil]

/-- What comes after the first stop doesn't matter. -/
theorem field_append_stop (stop : stops c = true) : field stops (w ++ c :: rest) = field stops w := by
  induction w with
  | nil => exact List.takeWhile_cons_of_neg (by simp [stop])
  | cons a w ih =>
    unfold field at ih ⊢
    rw [List.cons_append, List.takeWhile_cons, List.takeWhile_cons, ih]

theorem field_of_prefix (inside : ∀ c ∈ w, stops c = false) (stop : stops c = true)
    (starts : w ++ [c] <+: s) : field stops s = w := by
  obtain ⟨rest, rfl⟩ := starts
  rw [List.append_assoc, List.singleton_append, field_append inside stop]

theorem field_inside (s : List α) : ∀ c ∈ field stops s, stops c = false := by
  intro c mem
  have here := List.mem_takeWhile_imp mem
  rwa [Bool.not_eq_true'] at here

theorem field_length_le (stops : α → Bool) (s : List α) : (field stops s).length ≤ s.length :=
  (List.takeWhile_prefix _).length_le

theorem field_never (s : List α) : field (fun _ => false) s = s :=
  List.takeWhile_eq_self_iff.mpr fun _ _ => rfl

theorem field_of_free (free : ∀ c ∈ s, stops c = false) : field stops s = s :=
  List.takeWhile_eq_self_iff.mpr fun c mem => by rw [free c mem]; rfl

/-- A text in which something stops is its field with what stops it after it. -/
theorem field_prefix (some_ : ∃ c ∈ s, stops c = true) :
    ∃ c, stops c = true ∧ field stops s ++ [c] <+: s := by
  induction s with
  | nil => simp at some_
  | cons a s ih =>
    by_cases stop : stops a = true
    · refine ⟨a, stop, ?_⟩
      rw [field, List.takeWhile_cons_of_neg (by simp [stop])]
      exact ⟨s, rfl⟩
    · have later : ∃ c ∈ s, stops c = true := by
        obtain ⟨c, mem, stops'⟩ := some_
        cases List.mem_cons.mp mem with
        | inl eq => exact absurd (eq ▸ stops') stop
        | inr mem => exact ⟨c, mem, stops'⟩
      obtain ⟨c, stop', rest, eq⟩ := ih later
      refine ⟨c, stop', rest, ?_⟩
      rw [field, List.takeWhile_cons_of_pos (by simp [stop])]
      exact congrArg (a :: ·) eq

/-- The first place of an element splits the list. -/
theorem split_idxOf? [DecidableEq α] {i : Nat} (at_ : s.idxOf? c = some i) :
    s = s.take i ++ c :: s.drop (i + 1) := by
  obtain ⟨lt, same, -⟩ := List.idxOf?_eq_some_iff.mp at_
  rw [← same, List.getElem_cons_drop lt, List.take_append_drop]

theorem not_mem_take_idxOf? [DecidableEq α] {i : Nat} (at_ : s.idxOf? c = some i) :
    c ∉ s.take i := by
  obtain ⟨lt, -, before⟩ := List.idxOf?_eq_some_iff.mp at_
  intro mem
  obtain ⟨j, short, eq⟩ := List.getElem_of_mem mem
  rw [List.length_take] at short
  rw [List.getElem_take] at eq
  exact before j (by omega) eq

end

end FlyHub.Lib
