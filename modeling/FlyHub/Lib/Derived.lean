import Mathlib.Data.List.Induction
import Mathlib.Logic.Function.Basic
import Mathlib.Tactic.Common

/-!
# Values kept beside what they are made from

Each cell has a value that is made from a source and from other cells. When the source changes,
some cells are made again, one after the other. The cells are fresh if each is what it would be
if it were made now.
-/

namespace FlyHub.Lib

section
variable {Cell : Type*} [DecidableEq Cell] {α : Cell → Type*} {Source : Type*}
  (compute : Source → (∀ k, α k) → ∀ k, α k)

def refresh (s : Source) (c : ∀ k, α k) (k : Cell) : ∀ k, α k :=
  Function.update c k (compute s c k)

def refreshAll (s : Source) (c : ∀ k, α k) (ks : List Cell) : ∀ k, α k :=
  ks.foldl (refresh compute s) c

def Fresh (s : Source) (c : ∀ k, α k) : Prop := ∀ k, c k = compute s c k

/-- `reads k j`: the cell `k` is made from `j`. -/
def ReadsOnly (s : Source) (reads : Cell → Cell → Prop) : Prop :=
  ∀ c c' k, (∀ j, reads k j → c j = c' j) → compute s c k = compute s c' k

variable {compute} {s : Source} {c : ∀ k, α k} {ks : List Cell} {k : Cell}
  {reads : Cell → Cell → Prop}

theorem refreshAll_of_not_mem (other : k ∉ ks) : refreshAll compute s c ks k = c k := by
  induction ks generalizing c with
  | nil => rfl
  | cons k' ks ih =>
    rw [List.mem_cons, not_or] at other
    exact (ih other.2).trans (Function.update_of_ne other.1 ..)

/-- A cell that is made again before the cells that are made from it is fresh. -/
theorem refreshAll_of_mem (only : ReadsOnly compute s reads)
    (ordered : (ks.Pairwise fun k j => ¬ reads k j) ∧ ∀ k, ¬ reads k k) (mem : k ∈ ks) :
    refreshAll compute s c ks k = compute s (refreshAll compute s c ks) k := by
  induction ks generalizing c with
  | nil => cases mem
  | cons k' ks ih =>
    obtain ⟨sorted, self⟩ := ordered
    rw [List.pairwise_cons] at sorted
    change refreshAll compute s (refresh compute s c k') ks k =
      compute s (refreshAll compute s (refresh compute s c k') ks) k
    by_cases later : k ∈ ks
    · exact ih ⟨sorted.2, self⟩ later
    · obtain rfl := (List.mem_cons.mp mem).resolve_right later
      rw [refreshAll_of_not_mem later, refresh, Function.update_self]
      -- What the cell is made from is not touched after it.
      refine only _ _ k fun j read => ?_
      have unread : j ∉ ks := fun mem => sorted.1 j mem read
      have ne : j ≠ k := fun eq => self k (eq ▸ read)
      rw [refreshAll_of_not_mem unread, Function.update_of_ne ne]

/-- The cells are fresh after the source changed, if those that are not made again would stay
as they are, and what they are made from does. -/
theorem fresh_refreshAll (only : ReadsOnly compute s reads)
    (ordered : (ks.Pairwise fun k j => ¬ reads k j) ∧ ∀ k, ¬ reads k k)
    (rest : ∀ k ∉ ks, c k = compute s c k ∧
      ∀ j ∈ ks, reads k j → refreshAll compute s c ks j = c j) :
    Fresh compute s (refreshAll compute s c ks) := by
  intro k
  by_cases mem : k ∈ ks
  · exact refreshAll_of_mem only ordered mem
  · obtain ⟨same, kept⟩ := rest k mem
    rw [refreshAll_of_not_mem mem, same]
    refine only _ _ k fun j read => ?_
    by_cases again : j ∈ ks
    · exact (kept j again read).symm
    · exact (refreshAll_of_not_mem again).symm

/-- A cell whose value would be another one stays behind when it is not made again. -/
theorem not_fresh_of_stale (other : k ∉ ks)
    (stale : compute s (refreshAll compute s c ks) k ≠ c k) :
    ¬ Fresh compute s (refreshAll compute s c ks) := by
  intro fresh
  have now := fresh k
  rw [refreshAll_of_not_mem other] at now
  exact stale now.symm

end

end FlyHub.Lib
