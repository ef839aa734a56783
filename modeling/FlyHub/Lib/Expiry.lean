import FlyHub.Lib.Run

/-!
# Entries that pass

What was put down is asked for later. An entry that is past is taken out only when the search for
another one comes by. Where what was past stays past, this is not seen from outside.
-/

namespace FlyHub.Lib

section
variable {α : Type*}

/-- Searches for an entry, and takes out those that are past on the way to it. -/
def look (past hit : α → Bool) : List α → Option α × List α
  | [] => (none, [])
  | a :: entries =>
    if past a then look past hit entries
    else if hit a then (some a, a :: entries)
    else
      let found := look past hit entries
      (found.1, a :: found.2)

theorem look_found (past hit : α → Bool) (entries : List α) :
    (look past hit entries).1.isSome = true ↔ ∃ a ∈ entries, past a = false ∧ hit a = true := by
  induction entries with
  | nil => simp [look]
  | cons a entries ih =>
    simp only [look, List.mem_cons, exists_eq_or_imp]
    split
    · rename_i isPast
      simp [ih, isPast]
    · rename_i current
      rw [Bool.not_eq_true] at current
      split
      · rename_i isHit
        simp [current, isHit]
      · rename_i other
        simp [ih, other]

theorem look_sublist (past hit : α → Bool) (entries : List α) :
    (look past hit entries).2.Sublist entries := by
  induction entries with
  | nil => exact .slnil
  | cons a entries ih =>
    rw [look]
    split
    · exact ih.cons a
    · split
      · exact .refl _
      · exact ih.cons_cons a

/-- Only what is past is taken out. -/
theorem mem_look {past hit : α → Bool} {entries : List α} {a : α} (mem : a ∈ entries)
    (current : past a = false) : a ∈ (look past hit entries).2 := by
  induction entries with
  | nil => cases mem
  | cons b entries ih =>
    rw [look]
    split
    · rename_i isPast
      refine ih ((List.mem_cons.mp mem).resolve_left ?_)
      rintro rfl
      rw [current] at isPast
      cases isPast
    · split
      · exact mem
      · exact List.mem_cons.mpr ((List.mem_cons.mp mem).imp_right ih)

/-- What happens to the entries. -/
inductive Visit (α : Type*) where
  | put (a : α)
  | ask (past hit : α → Bool)

def visit (entries : List α) : Visit α → List α
  | .put a => a :: entries
  | .ask past hit => (look past hit entries).2

variable {es : List (Visit α)} {a : α}

/-- Entries come from what was put down. -/
theorem put_of_mem (mem : a ∈ run visit [] es) : .put a ∈ es := by
  induction es using List.reverseRecOn with
  | nil => cases mem
  | append_singleton es e ih =>
    rw [run_concat] at mem
    cases e with
    | put b =>
      rcases List.mem_cons.mp mem with rfl | mem
      · exact List.mem_append_right _ List.mem_cons_self
      · exact List.mem_append_left _ (ih mem)
    | ask past hit =>
      exact List.mem_append_left _ (ih ((look_sublist past hit _).subset mem))

/-- An entry that no search finds to be past is kept. -/
theorem mem_of_put (put : .put a ∈ es)
    (current : ∀ past hit, .ask past hit ∈ es → past a = false) : a ∈ run visit [] es := by
  induction es using List.reverseRecOn with
  | nil => cases put
  | append_singleton es e ih =>
    have earlier := fun put =>
      ih put fun past hit mem => current past hit (List.mem_append_left _ mem)
    rw [run_concat]
    rcases List.mem_append.mp put with before | now
    · cases e with
      | put b => exact List.mem_cons_of_mem _ (earlier before)
      | ask past hit =>
        exact mem_look (earlier before)
          (current past hit (List.mem_append_right _ List.mem_cons_self))
    · rw [← List.mem_singleton.mp now]
      exact List.mem_cons_self

/-- Where everything that a search found past is past now, a search finds what was ever put down
and is not past. -/
theorem found_iff {past hit : α → Bool}
    (steady : ∀ past' hit', .ask past' hit' ∈ es → ∀ a, past' a = true → past a = true) :
    (look past hit (run visit [] es)).1.isSome = true ↔
      ∃ a, .put a ∈ es ∧ past a = false ∧ hit a = true := by
  rw [look_found]
  constructor
  · rintro ⟨a, mem, current, isHit⟩
    exact ⟨a, put_of_mem mem, current, isHit⟩
  · rintro ⟨a, put, current, isHit⟩
    refine ⟨a, mem_of_put put fun past' hit' asked => ?_, current, isHit⟩
    cases was : past' a with
    | false => rfl
    | true => rw [steady past' hit' asked a was] at current; cases current

end

end FlyHub.Lib
