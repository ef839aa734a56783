import Mathlib.Data.List.Basic
import Mathlib.Tactic.Common

/-!
# Cutting a stream after its separators

A stream is cut after every separator. The pieces do not depend on how the
stream arrives: the rest of one part is put before the next.
-/

namespace FlyHub.Lib

section
variable {α : Type*} (sep : α → Bool)

/-- The pieces that end with a separator, and what follows the last one. -/
def cutAfter : List α → List (List α) × List α
  | [] => ([], [])
  | c :: s =>
    let rest := cutAfter s
    if sep c then ([c] :: rest.1, rest.2)
    else
      match rest.1 with
      | [] => ([], c :: rest.2)
      | w :: ws => ((c :: w) :: ws, rest.2)

variable {sep} {s w : List α}

/-- A piece and its separator come first. -/
theorem cutAfter_piece (clean : ∀ c ∈ w, sep c = false) {c : α} (hc : sep c = true) (s : List α) :
    cutAfter sep (w ++ c :: s) = ((w ++ [c]) :: (cutAfter sep s).1, (cutAfter sep s).2) := by
  induction w with
  | nil => simp [cutAfter, hc]
  | cons d w ih =>
    have hd := clean d List.mem_cons_self
    have rest := ih fun c hc => clean c (List.mem_cons_of_mem _ hc)
    simp [cutAfter, hd, rest]

theorem cutAfter_clean (clean : ∀ c ∈ s, sep c = false) : cutAfter sep s = ([], s) := by
  induction s with
  | nil => rfl
  | cons d s ih =>
    have hd := clean d List.mem_cons_self
    have rest := ih fun c hc => clean c (List.mem_cons_of_mem _ hc)
    simp [cutAfter, hd, rest]

variable (sep)

/-- A stream is a clean rest, or starts with a piece. -/
theorem clean_or_piece (s : List α) : (∀ c ∈ s, sep c = false) ∨
    ∃ w c t, s = w ++ c :: t ∧ (∀ c ∈ w, sep c = false) ∧ sep c = true := by
  induction s with
  | nil => exact .inl (by simp)
  | cons d s ih =>
    cases hd : sep d with
    | true => exact .inr ⟨[], d, s, rfl, by simp, hd⟩
    | false =>
      cases ih with
      | inl clean => exact .inl (by simpa [hd] using clean)
      | inr piece =>
        obtain ⟨w, c, t, rfl, clean, hc⟩ := piece
        exact .inr ⟨d :: w, c, t, rfl, by simpa [hd] using clean, hc⟩

/-- Induction over the pieces of a stream. -/
@[elab_as_elim]
theorem piece_induction {motive : List α → Prop} (s : List α)
    (clean : ∀ s, (∀ c ∈ s, sep c = false) → motive s)
    (piece : ∀ w c u, (∀ c ∈ w, sep c = false) → sep c = true → motive u → motive (w ++ c :: u)) :
    motive s := by
  induction length : s.length using Nat.strongRecOn generalizing s with
  | _ n ih =>
    cases clean_or_piece sep s with
    | inl none => exact clean s none
    | inr found =>
      obtain ⟨w, c, u, rfl, none, hc⟩ := found
      have shorter : u.length < n := by
        simp at length
        omega
      exact piece w c u none hc (ih u.length shorter u rfl)

/-- The rest of the first part goes before the second. -/
theorem cutAfter_append (s t : List α) : cutAfter sep (s ++ t) =
    ((cutAfter sep s).1 ++ (cutAfter sep ((cutAfter sep s).2 ++ t)).1,
      (cutAfter sep ((cutAfter sep s).2 ++ t)).2) := by
  induction s using piece_induction sep with
  | clean s clean => simp [cutAfter_clean clean]
  | piece w c u clean hc ih =>
    rw [List.append_assoc, List.cons_append, cutAfter_piece clean hc, cutAfter_piece clean hc, ih]
    simp

/-- What follows the last piece has no separator. -/
theorem cutAfter_rest (s : List α) : ∀ c ∈ (cutAfter sep s).2, sep c = false := by
  induction s using piece_induction sep with
  | clean s clean => simpa [cutAfter_clean clean] using clean
  | piece w c u clean hc ih =>
    rw [cutAfter_piece clean hc]
    exact ih

/-- Nothing is lost and nothing comes twice. -/
theorem cutAfter_flatten (s : List α) : (cutAfter sep s).1.flatten ++ (cutAfter sep s).2 = s := by
  induction s using piece_induction sep with
  | clean s clean => simp [cutAfter_clean clean]
  | piece w c u clean hc ih =>
    rw [cutAfter_piece clean hc]
    simp only [List.flatten_cons, List.append_assoc, List.cons_append, List.nil_append]
    rw [ih]

end

end FlyHub.Lib
