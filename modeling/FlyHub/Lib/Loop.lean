import Mathlib.Order.WellFounded
import Mathlib.Tactic.Common

/-!
# Loops that may not end

A loop repeats a step until the step has a result. As a function it takes fuel; it ends if some
fuel is enough. What every step keeps is kept to the end, a measure that every step makes smaller
ends the loop, and a loop whose steps keep a property that no result comes from goes on for ever.
-/

namespace FlyHub.Lib

section
variable {State Result : Type*} (step : State → State ⊕ Result)

def loopWith : Nat → State → Option Result
  | 0, _ => none
  | fuel + 1, s =>
    match step s with
    | .inl s => loopWith fuel s
    | .inr r => some r

/-- Some fuel is enough. -/
def LoopEnds (s : State) : Prop := ∃ fuel r, loopWith step fuel s = some r

variable {step} {s s' : State} {r r' : Result} {fuel fuel' : Nat}

theorem loop_inl (next : step s = .inl s') :
    loopWith step (fuel + 1) s = loopWith step fuel s' := by
  rw [loopWith, next]

theorem loop_inr (result : step s = .inr r) : loopWith step (fuel + 1) s = some r := by
  rw [loopWith, result]

theorem loop_mono (ended : loopWith step fuel s = some r) (le : fuel ≤ fuel') :
    loopWith step fuel' s = some r := by
  induction fuel generalizing s fuel' with
  | zero => cases ended
  | succ fuel ih =>
    obtain ⟨more, rfl⟩ := Nat.exists_eq_add_of_le' (Nat.le_trans (Nat.le_add_left 1 fuel) le)
    cases next : step s with
    | inl s' =>
      rw [loop_inl next] at ended ⊢
      exact ih ended (Nat.le_of_succ_le_succ le)
    | inr r' =>
      rw [loop_inr next] at ended ⊢
      exact ended

theorem loop_unique (ended : loopWith step fuel s = some r)
    (ended' : loopWith step fuel' s = some r') : r = r' := by
  have first := loop_mono ended (Nat.le_max_left fuel fuel')
  have second := loop_mono ended' (Nat.le_max_right fuel fuel')
  exact Option.some.inj (first.symm.trans second)

/-- The loop rule: what every step keeps holds when the step with the result is made. -/
theorem loop_invariant (Inv : State → Prop) (Post : Result → Prop)
    (keeps : ∀ s s', Inv s → step s = .inl s' → Inv s')
    (result : ∀ s r, Inv s → step s = .inr r → Post r) (inv : Inv s)
    (ended : loopWith step fuel s = some r) : Post r := by
  induction fuel generalizing s with
  | zero => cases ended
  | succ fuel ih =>
    cases next : step s with
    | inl s' =>
      rw [loop_inl next] at ended
      exact ih (keeps s s' inv next) ended
    | inr r' =>
      rw [loop_inr next] at ended
      cases ended
      exact result s _ inv next

theorem ends_inl (next : step s = .inl s') (ends : LoopEnds step s') : LoopEnds step s := by
  obtain ⟨fuel, r, ended⟩ := ends
  exact ⟨fuel + 1, r, (loop_inl next).trans ended⟩

/-- A loop ends whose steps make a measure smaller. -/
theorem ends_of_measure {Size : Type*} [Preorder Size] [WellFoundedLT Size]
    (measure : State → Size) (Inv : State → Prop)
    (down : ∀ s s', Inv s → step s = .inl s' → Inv s' ∧ measure s' < measure s) (inv : Inv s) :
    LoopEnds step s := by
  induction size : measure s using WellFoundedLT.induction generalizing s with
  | ind size' ih =>
    subst size
    cases next : step s with
    | inl s' =>
      obtain ⟨inv', smaller⟩ := down s s' inv next
      exact ends_inl next (ih (measure s') smaller inv' rfl)
    | inr r => exact ⟨1, r, loop_inr next⟩

/-- A loop doesn't end whose steps keep a property that no result comes from. -/
theorem not_ends (Inv : State → Prop)
    (keeps : ∀ s, Inv s → ∃ s', step s = .inl s' ∧ Inv s') (inv : Inv s) : ¬ LoopEnds step s := by
  rintro ⟨fuel, r, ended⟩
  refine loop_invariant Inv (fun _ => False) ?_ ?_ inv ended
  · intro s s' inv next
    obtain ⟨t, next', inv'⟩ := keeps s inv
    rw [next] at next'
    cases next'
    exact inv'
  · intro s r inv result
    obtain ⟨t, next', -⟩ := keeps s inv
    rw [result] at next'
    cases next'

end

end FlyHub.Lib
