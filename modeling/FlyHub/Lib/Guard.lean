import Mathlib.Tactic.Common

/-!
# A value behind a mutex

A thread that locks a mutex it already holds never gets on. A section under the lock is a
function on the guarded value; it may call other sections, and has no result if one of them
locks again.
-/

namespace FlyHub.Lib

/-- A value, and whether the thread holds its mutex. -/
structure Guarded (α : Type*) where
  held : Bool
  value : α
  deriving DecidableEq

namespace Guarded

variable {α β : Type*}

/-- The section under the lock, which is given back at its end. -/
def locked (body : Guarded α → Option (Guarded α × β)) (g : Guarded α) : Option (Guarded α × β) :=
  if g.held then none else (body ⟨true, g.value⟩).map fun r => (⟨false, r.1.value⟩, r.2)

/-- A section that locks nothing. -/
def alone (body : α → α × β) (g : Guarded α) : Option (Guarded α × β) :=
  some (⟨g.held, (body g.value).1⟩, (body g.value).2)

variable {body : Guarded α → Option (Guarded α × β)} {f : α → α × β} {a : α} {r : Guarded α × β}

@[simp] theorem locked_held : locked body ⟨true, a⟩ = none := rfl

theorem locked_free :
    locked body ⟨false, a⟩ = (body ⟨true, a⟩).map fun r => (⟨false, r.1.value⟩, r.2) := rfl

theorem locked_alone : locked (alone f) ⟨false, a⟩ = some (⟨false, (f a).1⟩, (f a).2) := rfl

end Guarded

end FlyHub.Lib
