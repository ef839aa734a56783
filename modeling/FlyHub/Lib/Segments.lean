import Mathlib.Data.List.Basic
import Mathlib.Tactic.Common

/-!
# Texts made of segments

Every segment of a text starts with the separator and has no other one. A text
occurs in another one only where a segment starts, and then its segments are
those of the other text, the last one possibly cut short.
-/

namespace FlyHub.Lib

section
variable {α : Type*} (sep : α)

/-- The segments, each after a separator. -/
def joined (segments : List (List α)) : List α := segments.flatMap (sep :: ·)

/-- No segment has the separator in it. -/
def Whole (segments : List (List α)) : Prop := ∀ w ∈ segments, sep ∉ w

/-- The first segments are those of `p`, up to a rest of the last one. -/
def StartsWith : List (List α) → List (List α) → Prop
  | [], _ => True
  | _ :: _, [] => False
  | [w], v :: _ => w <+: v
  | w :: w' :: p, v :: s => w = v ∧ StartsWith (w' :: p) s

variable {sep} {p s t : List (List α)} {v w : List α}

@[simp] theorem joined_nil : joined sep ([] : List (List α)) = [] := rfl

@[simp] theorem joined_cons : joined sep (w :: s) = sep :: (w ++ joined sep s) := by
  simp [joined]

@[simp] theorem joined_append : joined sep (s ++ t) = joined sep s ++ joined sep t := by
  simp [joined]

theorem joined_flatten (texts : List (List (List α))) :
    joined sep texts.flatten = (texts.map (joined sep)).flatten := by
  induction texts with
  | nil => rfl
  | cons s texts ih => rw [List.flatten_cons, joined_append, ih, List.map_cons, List.flatten_cons]

/-- Two texts that start with a whole word start with the same one. -/
theorem prefix_at_separator (hw : sep ∉ w) (hv : sep ∉ v) {x y : List α} :
    w ++ sep :: x <+: v ++ sep :: y ↔ w = v ∧ x <+: y := by
  induction w generalizing v with
  | nil =>
    cases v with
    | nil => simp
    | cons b v =>
      have differs : sep ≠ b := fun eq => hv (eq ▸ List.mem_cons_self)
      simp [differs]
  | cons a w ih =>
    have ha : sep ≠ a := fun eq => hw (eq ▸ List.mem_cons_self)
    cases v with
    | nil => simp [ha.symm]
    | cons b v =>
      have rest := ih (fun mem => hw (List.mem_cons_of_mem _ mem))
        (fun mem => hv (List.mem_cons_of_mem _ mem))
      simp [rest, and_assoc]

/-- A word before no separator ends inside the segment it starts in. -/
theorem prefix_in_segment (hw : sep ∉ w) {y : List α} : w <+: v ++ sep :: y ↔ w <+: v := by
  constructor
  · intro h
    rcases List.prefix_or_prefix_of_prefix h (List.prefix_append v (sep :: y)) with short | long
    · exact short
    · obtain ⟨u, rfl⟩ := long
      cases u with
      | nil => simp
      | cons a u =>
        have eq : a = sep := (List.cons_prefix_cons.mp ((List.prefix_append_right_inj v).mp h)).1
        exact absurd (eq ▸ List.mem_append_right v List.mem_cons_self) hw
  · intro h
    exact h.trans (List.prefix_append v _)

/-- Where a text starts at a segment its segments are those of the other text. -/
theorem joined_prefix (hp : Whole sep p) (hs : Whole sep s) :
    joined sep p <+: joined sep s ↔ StartsWith p s := by
  induction p generalizing s with
  | nil => simp [StartsWith]
  | cons w p ih =>
    have hw := hp w List.mem_cons_self
    cases s with
    | nil => simp [StartsWith]
    | cons v s =>
      have hv := hs v List.mem_cons_self
      have rest := ih (fun u mem => hp u (List.mem_cons_of_mem _ mem))
        (s := s) (fun u mem => hs u (List.mem_cons_of_mem _ mem))
      rw [joined_cons, joined_cons, List.cons_prefix_cons, and_iff_right rfl]
      cases p with
      | nil =>
        rw [joined_nil, List.append_nil]
        cases s with
        | nil => rw [joined_nil, List.append_nil]; rfl
        | cons u s => rw [joined_cons, prefix_in_segment hw]; rfl
      | cons w' p =>
        cases s with
        | nil =>
          rw [joined_cons, joined_nil, List.append_nil, StartsWith]
          refine iff_of_false ?_ fun h => h.2
          intro h
          exact hv (h.subset (List.mem_append_right _ List.mem_cons_self))
        | cons u s =>
          rw [joined_cons, joined_cons] at rest ⊢
          rw [List.cons_prefix_cons, and_iff_right rfl] at rest
          rw [prefix_at_separator hw hv, rest, StartsWith]

end

end FlyHub.Lib
