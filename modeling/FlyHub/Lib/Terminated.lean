import FlyHub.Lib.Block

/-!
# Texts that grow in a block

A text is at the front of a block, and the cell behind it is its end. What comes next is put
behind the text, in a larger block if there is no room for it.
-/

namespace FlyHub.Lib

section
variable {α β : Type*}

/-- The part is put behind the first `len` cells, and an end behind it. -/
def appendAt (z : α) (b : List α) (len : Nat) (part : List α) : Option (List α) := do
  let b ← writeAt b len part
  writeAt b (len + part.length) [z]

/-- The size of a block that is to have `wanted` cells. -/
def sizeFor (grow : Nat → Nat) (size wanted : Nat) : Nat :=
  if wanted ≤ size then size else grow wanted

/-- The block of that size, with the old cells at its front. -/
def reserve (grow : Nat → Nat) (z : α) (b : List α) (wanted : Nat) : List α :=
  if wanted ≤ b.length then b else b ++ List.replicate (grow wanted - b.length) z

/-- Every text ends before the block does, with the room that it asks for. -/
def endsInside (grow : Nat → Nat) (text : β → List α) (wanted : β → Nat) :
    Nat → Nat → List β → Bool
  | _, _, [] => true
  | size, len, x :: xs =>
    let size := sizeFor grow size (len + wanted x)
    len + (text x).length < size && endsInside grow text wanted size (len + (text x).length) xs

/-- The step asks for room and puts its text behind the one that is there, with its end. -/
structure Appends (grow : Nat → Nat) (add : List α × Nat → β → Option (List α × Nat))
    (text : β → List α) (wanted : β → Nat) : Prop where
  inside : ∀ {b t : List α} (x : β), t <+: b →
    t.length + (text x).length < sizeFor grow b.length (t.length + wanted x) →
    ∃ b', add (b, t.length) x = some (b', t.length + (text x).length) ∧ t ++ text x <+: b' ∧
      b'.length = sizeFor grow b.length (t.length + wanted x)
  outside : ∀ {b t : List α} (x : β), t <+: b →
    sizeFor grow b.length (t.length + wanted x) ≤ t.length + (text x).length →
    add (b, t.length) x = none

variable {z : α} {b t part : List α} {grow : Nat → Nat} {size wanted : Nat}

theorem writeAt_behind (front : t <+: b) (fits : t.length + part.length ≤ b.length) :
    ∃ b', writeAt b t.length part = some b' ∧ t ++ part <+: b' ∧ b'.length = b.length := by
  obtain ⟨b', done, written⟩ := writeAt_of_le b t.length part fits
  have same : b.take t.length = t := (List.prefix_iff_eq_take.mp front).symm
  have upTo := written.upTo
  rw [same] at upTo
  exact ⟨b', done, upTo ▸ List.take_prefix _ _, written.length⟩

theorem appendAt_behind (front : t <+: b) (fits : t.length + part.length < b.length) :
    ∃ b', appendAt z b t.length part = some b' ∧ t ++ part <+: b' ∧ b'.length = b.length := by
  obtain ⟨b₁, first, front₁, length₁⟩ := writeAt_behind front (Nat.le_of_lt fits)
  have room : (t ++ part).length + [z].length ≤ b₁.length := by
    rw [length₁, List.length_append, List.length_singleton]
    exact fits
  obtain ⟨b₂, second, front₂, length₂⟩ := writeAt_behind front₁ room
  rw [List.length_append] at second
  refine ⟨b₂, ?_, (List.prefix_append _ _).trans front₂, length₂.trans length₁⟩
  rw [appendAt, first]
  exact second

theorem appendAt_outside {len : Nat} (full : b.length ≤ len + part.length) :
    appendAt z b len part = none := by
  unfold appendAt
  cases first : writeAt b len part with
  | none => rfl
  | some b' =>
    have length := (writeAt_some first).length
    apply if_neg
    rw [List.length_singleton, length]
    omega

theorem le_sizeFor (big : ∀ n, n ≤ grow n) : wanted ≤ sizeFor grow size wanted := by
  unfold sizeFor
  split
  · assumption
  · exact big wanted

theorem size_le_sizeFor (big : ∀ n, n ≤ grow n) : size ≤ sizeFor grow size wanted := by
  unfold sizeFor
  split
  · exact Nat.le_refl size
  · have := big wanted
    omega

theorem reserve_length (big : ∀ n, n ≤ grow n) :
    (reserve grow z b wanted).length = sizeFor grow b.length wanted := by
  unfold reserve sizeFor
  split
  · rfl
  · have := big wanted
    rw [List.length_append, List.length_replicate]
    omega

theorem reserve_front (front : t <+: b) : t <+: reserve grow z b wanted := by
  unfold reserve
  split
  · exact front
  · exact front.trans (List.prefix_append _ _)

namespace Appends

variable {add : List α × Nat → β → Option (List α × Nat)} {text : β → List α} {wanted : β → Nat}

/-- The texts end up one behind the other. -/
theorem run (appends : Appends grow add text wanted) (big : ∀ n, n ≤ grow n) {xs : List β}
    (front : t <+: b) (inside : endsInside grow text wanted b.length t.length xs = true) :
    ∃ b', xs.foldlM add (b, t.length) = some (b', (t ++ xs.flatMap text).length) ∧
      t ++ xs.flatMap text <+: b' ∧ b.length ≤ b'.length := by
  induction xs generalizing b t with
  | nil => exact ⟨b, by simp, by simpa using front, Nat.le_refl _⟩
  | cons x xs ih =>
    simp only [endsInside, Bool.and_eq_true, decide_eq_true_eq] at inside
    obtain ⟨b₁, added, front₁, length₁⟩ := appends.inside x front inside.1
    rw [← length₁, ← List.length_append] at inside
    obtain ⟨b₂, rest, front₂, length₂⟩ := ih front₁ inside.2
    rw [List.append_assoc, ← List.flatMap_cons] at rest front₂
    refine ⟨b₂, ?_, front₂, ?_⟩
    · rw [List.foldlM_cons, added, ← List.length_append]
      exact rest
    · exact Nat.le_trans (size_le_sizeFor big) (length₁ ▸ length₂)

/-- Where a text ends with the block, its end is written outside. -/
theorem run_none (appends : Appends grow add text wanted) {xs : List β} (front : t <+: b)
    (outside : endsInside grow text wanted b.length t.length xs = false) :
    xs.foldlM add (b, t.length) = none := by
  induction xs generalizing b t with
  | nil => cases outside
  | cons x xs ih =>
    rw [List.foldlM_cons]
    by_cases fits : t.length + (text x).length < sizeFor grow b.length (t.length + wanted x)
    · obtain ⟨b₁, added, front₁, length₁⟩ := appends.inside x front fits
      simp only [endsInside, fits, decide_true, Bool.true_and] at outside
      rw [← length₁, ← List.length_append] at outside
      rw [added, ← List.length_append]
      exact ih front₁ outside
    · rw [appends.outside x front (Nat.le_of_not_lt fits)]
      rfl

end Appends

end

end FlyHub.Lib
