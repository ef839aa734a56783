import Mathlib.Data.List.Basic
import Mathlib.Tactic.Common

/-!
# Guarded updates

An update sets some bits unless one of them, its guard, is set already. Updates may come in
any order, any number of times, where none of them sets the guard of another without its
other bits.
-/

namespace FlyHub.Lib

/-- What an update looks at and what it sets. -/
structure GuardedUpdates (Update Bit : Type*) where
  guard : Update → Bit
  sets : Update → List Bit
  guard_mem : ∀ f, guard f ∈ sets f

namespace GuardedUpdates

section
variable {Update Bit : Type*} [DecidableEq Bit] (G : GuardedUpdates Update Bit)

def apply (s : Bit → Bool) (f : Update) : Bit → Bool :=
  if s (G.guard f) then s else fun b => s b || decide (b ∈ G.sets f)

def applyAll (s : Bit → Bool) (fs : List Update) : Bit → Bool := fs.foldl G.apply s

/-- After `f`, the update `g` is of no use, although it would have set more. -/
structure Blocks (s : Bit → Bool) (f g : Update) : Prop where
  new : s (G.guard f) = false
  guard : G.guard g ∈ G.sets f
  unset : s (G.guard g) = false
  more : ∃ b ∈ G.sets g, b ∉ G.sets f ∧ s b = false

variable {G} {s : Bit → Bool} {f : Update} {fs fs' : List Update} {b : Bit}

theorem applyAll_cons : G.applyAll s (f :: fs) = G.applyAll (G.apply s f) fs := rfl

theorem apply_of_set (isSet : s (G.guard f) = true) : G.apply s f = s := by
  rw [apply, if_pos isSet]

theorem apply_iff : G.apply s f b = true ↔ s b = true ∨ s (G.guard f) = false ∧ b ∈ G.sets f := by
  unfold apply
  cases s (G.guard f) <;> simp

theorem apply_guard : G.apply s f (G.guard f) = true := by
  rw [apply_iff]
  cases isSet : s (G.guard f) with
  | true => exact .inl rfl
  | false => exact .inr ⟨rfl, G.guard_mem f⟩

theorem apply_mono (isSet : s b = true) : G.apply s f b = true := apply_iff.mpr (.inl isSet)

theorem applyAll_mono (isSet : s b = true) : G.applyAll s fs b = true := by
  induction fs generalizing s with
  | nil => exact isSet
  | cons f fs ih => exact ih (apply_mono isSet)

/-- A bit stays unset if the guards of the updates that set it are set. -/
theorem applyAll_blocked (unset : s b = false)
    (blocked : ∀ f ∈ fs, b ∈ G.sets f → s (G.guard f) = true) : G.applyAll s fs b = false := by
  induction fs generalizing s with
  | nil => exact unset
  | cons f fs ih =>
    apply ih
    · rw [← Bool.not_eq_true, apply_iff]
      rintro (isSet | ⟨open_, sets⟩)
      · exact absurd (unset.symm.trans isSet) Bool.false_ne_true
      · exact absurd (open_.symm.trans (blocked f List.mem_cons_self sets)) Bool.false_ne_true
    · intro g mem sets
      exact apply_mono (blocked g (List.mem_cons_of_mem _ mem) sets)

/-- Without updates that block others, a bit is set by whatever update would set it first. -/
theorem applyAll_iff (free : ∀ f ∈ fs, ∀ g ∈ fs, ¬ G.Blocks s f g) :
    G.applyAll s fs b = true ↔ s b = true ∨ ∃ f ∈ fs, s (G.guard f) = false ∧ b ∈ G.sets f := by
  induction fs generalizing s with
  | nil => simp [applyAll]
  | cons f fs ih =>
    have later : ∀ f' ∈ fs, ∀ g ∈ fs, ¬ G.Blocks (G.apply s f) f' g := by
      intro f' mem g mem' blocks
      have old : ∀ {b}, G.apply s f b = false → s b = false := by
        intro b unset
        rw [← Bool.not_eq_true] at unset ⊢
        exact fun isSet => unset (apply_mono isSet)
      obtain ⟨b, sets, more, unset⟩ := blocks.more
      exact free f' (List.mem_cons_of_mem _ mem) g (List.mem_cons_of_mem _ mem')
        ⟨old blocks.new, blocks.guard, old blocks.unset, b, sets, more, old unset⟩
    rw [applyAll_cons, ih later, apply_iff]
    constructor
    · rintro ((isSet | ⟨new, sets⟩) | ⟨g, mem, new, sets⟩)
      · exact .inl isSet
      · exact .inr ⟨f, List.mem_cons_self, new, sets⟩
      · refine .inr ⟨g, List.mem_cons_of_mem _ mem, ?_, sets⟩
        rw [← Bool.not_eq_true] at new ⊢
        exact fun isSet => new (apply_mono isSet)
    · rintro (isSet | ⟨g, mem, new, sets⟩)
      · exact .inl (.inl isSet)
      · rcases List.mem_cons.mp mem with rfl | mem'
        · exact .inl (.inr ⟨new, sets⟩)
        · cases still : G.apply s f (G.guard g) with
          | false => exact .inr ⟨g, mem', still, sets⟩
          | true =>
            -- `f` has set the guard of `g`, and so the bit
            rcases apply_iff.mp still with isSet | ⟨open_, guard⟩
            · exact absurd (new.symm.trans isSet) Bool.false_ne_true
            · by_contra unset
              rw [not_or, not_or] at unset
              refine free f List.mem_cons_self g mem ⟨open_, guard, new, b, sets, ?_, ?_⟩
              · exact fun mem => unset.1.2 ⟨open_, mem⟩
              · exact Bool.eq_false_iff.mpr unset.1.1

theorem applyAll_congr (same : ∀ f, f ∈ fs ↔ f ∈ fs')
    (free : ∀ f ∈ fs, ∀ g ∈ fs, ¬ G.Blocks s f g) : G.applyAll s fs = G.applyAll s fs' := by
  have free' : ∀ f ∈ fs', ∀ g ∈ fs', ¬ G.Blocks s f g := fun f mem g mem' =>
    free f ((same f).mpr mem) g ((same g).mpr mem')
  funext b
  rw [Bool.eq_iff_iff, applyAll_iff free, applyAll_iff free']
  simp only [same]

end

end GuardedUpdates

end FlyHub.Lib
