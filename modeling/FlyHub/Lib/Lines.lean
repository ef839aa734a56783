import FlyHub.Lib.Occurrence
import FlyHub.Lib.Segments

/-!
# Texts made of lines

A line ends with a stop and has no other one. A line occurs in a text of lines only at the end
of one of them.
-/

namespace FlyHub.Lib

/-- The text ends with its only stop. -/
def Closed {α : Type*} (stop : α) (w : List α) : Prop := ∃ v, stop ∉ v ∧ w = v ++ [stop]

section
variable {α : Type*} [DecidableEq α] {stop : α} {t e : List α} {lines front back : List (List α)}

omit [DecidableEq α] in
theorem Closed.ne_nil (ht : Closed stop t) : t ≠ [] := by
  obtain ⟨v, -, rfl⟩ := ht
  simp

omit [DecidableEq α] in
theorem Closed.prefix_append (ht : Closed stop t) (he : Closed stop e) (rest : List α) :
    t <+: e ++ rest ↔ t = e := by
  obtain ⟨v, hv, rfl⟩ := ht
  obtain ⟨w, hw, rfl⟩ := he
  rw [List.append_assoc, List.singleton_append, prefix_at_separator hv hw]
  simp

omit [DecidableEq α] in
theorem Closed.tail {a : α} {w : List α} (he : Closed stop (a :: w)) (more : w ≠ []) :
    Closed stop w := by
  obtain ⟨v, hv, eq⟩ := he
  cases v with
  | nil =>
    rw [List.nil_append, List.cons.injEq] at eq
    exact absurd eq.2 more
  | cons b v =>
    rw [List.cons_append, List.cons.injEq] at eq
    exact ⟨v, fun mem => hv (List.mem_cons_of_mem _ mem), eq.2⟩

/-- Where a line first occurs, when the text begins with one. -/
theorem firstAt_line (ht : Closed stop t) (he : Closed stop e) (rest : List α) :
    firstAt t (e ++ rest) =
      if t <:+ e then some (e.length - t.length)
      else (firstAt t rest).map (e.length + ·) := by
  induction e with
  | nil => exact absurd rfl he.ne_nil
  | cons a w ih =>
    rw [List.cons_append, firstAt, ← List.cons_append]
    by_cases whole : t = a :: w
    · subst whole
      simp
    · have later : ¬ t.isPrefixOf (a :: w ++ rest) := by
        rw [List.isPrefixOf_iff_prefix, ht.prefix_append he]
        exact whole
      rw [if_neg later]
      by_cases more : w = []
      · subst more
        have short : ¬ t <:+ [a] := by
          rw [List.suffix_cons_iff, List.suffix_nil, not_or]
          exact ⟨whole, ht.ne_nil⟩
        rw [if_neg short, List.nil_append]
        congr 1
        funext i
        simp [Nat.add_comm]
      · rw [ih (he.tail more)]
        by_cases ends : t <:+ w
        · have le := ends.length_le
          rw [if_pos ends, if_pos (List.suffix_cons_iff.2 (.inr ends)), Option.map_some]
          congr 1
          simp only [List.length_cons]
          omega
        · have none_ : ¬ t <:+ a :: w := by
            rw [List.suffix_cons_iff, not_or]
            exact ⟨whole, ends⟩
          rw [if_neg ends, if_neg none_, Option.map_map]
          congr 1
          funext i
          simp only [Function.comp, List.length_cons]
          omega

theorem firstAt_lines_none (ht : Closed stop t) (lines_ : ∀ e ∈ lines, Closed stop e) :
    firstAt t lines.flatten = none ↔ ∀ e ∈ lines, ¬ t <:+ e := by
  induction lines with
  | nil => simp [firstAt, ht.ne_nil]
  | cons e es ih =>
    have rest := ih fun f hf => lines_ f (List.mem_cons_of_mem _ hf)
    rw [List.flatten_cons, firstAt_line ht (lines_ e List.mem_cons_self), List.forall_mem_cons]
    by_cases ends : t <:+ e
    · simp [ends]
    · simp [ends, rest]

/-- A line is found at the end of the first line that ends like it. -/
theorem firstAt_lines (ht : Closed stop t) (lines_ : ∀ e ∈ lines, Closed stop e) {i : Nat} :
    firstAt t lines.flatten = some i ↔ ∃ front x back, lines = front ++ (x ++ t) :: back ∧
      (∀ f ∈ front, ¬ t <:+ f) ∧ i = (front.flatten ++ x).length := by
  induction lines generalizing i with
  | nil => simp [firstAt, ht.ne_nil]
  | cons e es ih =>
    have rest := fun i => ih (i := i) fun f hf => lines_ f (List.mem_cons_of_mem _ hf)
    rw [List.flatten_cons, firstAt_line ht (lines_ e List.mem_cons_self)]
    by_cases ends : t <:+ e
    · rw [if_pos ends]
      constructor
      · rintro ⟨⟩
        obtain ⟨x, rfl⟩ := ends
        exact ⟨[], x, es, rfl, nofun, by simp⟩
      · rintro ⟨front, x, back, eq, before, rfl⟩
        cases front with
        | nil =>
          rw [List.nil_append, List.cons.injEq] at eq
          rw [eq.1]
          simp
        | cons f front =>
          rw [List.cons_append, List.cons.injEq] at eq
          exact absurd (eq.1 ▸ ends) (before f List.mem_cons_self)
    · rw [if_neg ends, Option.map_eq_some_iff]
      constructor
      · rintro ⟨j, found, rfl⟩
        obtain ⟨front, x, back, rfl, before, rfl⟩ := (rest j).1 found
        refine ⟨e :: front, x, back, rfl, List.forall_mem_cons.2 ⟨ends, before⟩, ?_⟩
        simp
      · rintro ⟨front, x, back, eq, before, rfl⟩
        cases front with
        | nil =>
          rw [List.nil_append, List.cons.injEq] at eq
          exact absurd ⟨x, eq.1.symm⟩ ends
        | cons f front =>
          rw [List.cons_append, List.cons.injEq] at eq
          obtain ⟨rfl, rfl⟩ := eq
          refine ⟨(front.flatten ++ x).length, (rest _).2 ⟨front, x, back, rfl, ?_, rfl⟩, ?_⟩
          · exact fun g hg => before g (List.mem_cons_of_mem _ hg)
          · simp

theorem removeFirst_none (ht : Closed stop t) (lines_ : ∀ e ∈ lines, Closed stop e)
    (none_ : ∀ e ∈ lines, ¬ t <:+ e) : removeFirst t lines.flatten = lines.flatten := by
  apply removeSeen_none
  rw [field_never]
  exact (firstAt_lines_none ht lines_).2 none_

/-- The end of a line is taken out. -/
theorem removeFirst_end (ht : Closed stop t) {x : List α}
    (lines_ : ∀ e ∈ front ++ (x ++ t) :: back, Closed stop e) (before : ∀ f ∈ front, ¬ t <:+ f) :
    removeFirst t (front ++ (x ++ t) :: back).flatten = front.flatten ++ x ++ back.flatten := by
  have found := (firstAt_lines ht lines_).2 ⟨front, x, back, rfl, before, rfl⟩
  rw [removeFirst, removeSeen_some (by rw [field_never]; exact found)]
  have split : (front ++ (x ++ t) :: back).flatten =
      (front.flatten ++ x) ++ (t ++ back.flatten) := by
    simp
  rw [split, List.take_left, ← List.drop_drop, List.drop_left, List.drop_left]

/-- A line is taken out where no line before it ends like it. -/
theorem removeFirst_line (ht : Closed stop t) (lines_ : ∀ e ∈ front ++ t :: back, Closed stop e)
    (before : ∀ f ∈ front, ¬ t <:+ f) :
    removeFirst t (front ++ t :: back).flatten = (front ++ back).flatten := by
  have removed := removeFirst_end (x := []) ht lines_ before
  rw [List.nil_append, List.append_nil] at removed
  rw [removed, List.flatten_append]

/-- What is found at the beginning of a line, or right before the line itself, can be taken out
without harm. -/
theorem removeFirst_found (ht : Closed stop t) (lines_ : ∀ e ∈ lines, Closed stop e) {i : Nat}
    (found : firstAt t lines.flatten = some i)
    (own : i = 0 ∨ lines.flatten[i - 1]? = some stop ∨ t <+: lines.flatten.drop (i + t.length)) :
    ∃ front back, lines = front ++ t :: back ∧
      removeFirst t lines.flatten = (front ++ back).flatten := by
  obtain ⟨front, x, back, rfl, before, rfl⟩ := (firstAt_lines ht lines_).1 found
  have he : Closed stop (x ++ t) := lines_ _ (by simp)
  have split : (front ++ (x ++ t) :: back).flatten =
      (front.flatten ++ x) ++ (t ++ back.flatten) := by
    simp
  have removed := removeFirst_end ht lines_ before
  cases hx : x.reverse with
  | nil =>
    rw [List.reverse_eq_nil_iff] at hx
    subst hx
    exact ⟨front, back, rfl, by simpa using removed⟩
  | cons b y =>
    -- the byte before the text found is inside a line, and so no stop
    have last : x = y.reverse ++ [b] := by
      rw [← List.reverse_reverse x, hx, List.reverse_cons]
    have inside : b ≠ stop := by
      rintro rfl
      obtain ⟨v, hv, eq⟩ := he
      obtain ⟨w, -, rfl⟩ := ht
      rw [← List.append_assoc, List.append_cancel_right_eq] at eq
      apply hv
      rw [← eq, last]
      simp
    rcases own with first | stops | doubled
    · rw [last] at first
      simp at first
    · have before_ : (front ++ (x ++ t) :: back).flatten =
          (front.flatten ++ y.reverse) ++ b :: (t ++ back.flatten) := by
        rw [split, last]
        simp
      have place : (front.flatten ++ x).length - 1 = (front.flatten ++ y.reverse).length := by
        rw [last]
        simp [← Nat.add_assoc]
      rw [before_, place, List.getElem?_append_right (Nat.le_refl _), Nat.sub_self] at stops
      exact absurd (Option.some.inj stops) inside
    · rw [split, ← List.drop_drop, List.drop_left, List.drop_left] at doubled
      cases back with
      | nil =>
        rw [List.flatten_nil, List.prefix_nil] at doubled
        exact absurd doubled ht.ne_nil
      | cons c back =>
        rw [List.flatten_cons, ht.prefix_append (lines_ c (by simp))] at doubled
        subst doubled
        refine ⟨front ++ [x ++ t], back, by simp, ?_⟩
        rw [removed]
        simp

end

/-! ## Reading line by line -/

section
variable {α : Type*} [DecidableEq α] (stop : α) (room : Nat)

/-- What is read piece by piece: each piece ends with a stop or where it has `room + 1` characters.
`left` more fit in the piece that is being read. -/
def pieces : Nat → List α → List (List α)
  | _, [] => []
  | left, c :: s =>
    if c = stop ∨ left = 0 then [c] :: pieces room s
    else
      match pieces (left - 1) s with
      | [] => [[c]]
      | piece :: rest => (c :: piece) :: rest

variable {stop room}

theorem pieces_line {e : List α} (line : Closed stop e) {left : Nat} (short : e.length ≤ left + 1)
    (s : List α) : pieces stop room left (e ++ s) = e :: pieces stop room room s := by
  induction e generalizing left with
  | nil => exact absurd rfl line.ne_nil
  | cons c w ih =>
    rw [List.cons_append, pieces]
    by_cases last : w = []
    · obtain ⟨v, -, eq⟩ := line
      have stopped : c = stop := by
        subst last
        cases v with
        | nil => exact (List.cons.inj eq).1
        | cons b v => simp at eq
      subst last
      rw [if_pos (.inl stopped), List.nil_append]
    · have inner : Closed stop w := line.tail last
      have going : c ≠ stop := by
        obtain ⟨v, hv, eq⟩ := line
        cases v with
        | nil => exact absurd (List.cons.inj eq).2 last
        | cons b v =>
          rw [List.cons_append, List.cons.injEq] at eq
          rw [eq.1]
          exact fun stopped => hv (stopped ▸ List.mem_cons_self)
      have one : 1 ≤ w.length := List.length_pos_iff.mpr last
      rw [List.length_cons] at short
      rw [if_neg (by simp only [going, false_or]; omega), ih inner (by omega)]

/-- Short lines are read back as they are. -/
theorem pieces_lines {lines : List (List α)} (lines_ : ∀ e ∈ lines, Closed stop e)
    (short : ∀ e ∈ lines, e.length ≤ room + 1) : pieces stop room room lines.flatten = lines := by
  induction lines with
  | nil => rfl
  | cons e lines ih =>
    rw [List.forall_mem_cons] at lines_ short
    rw [List.flatten_cons, pieces_line lines_.1 short.1, ih lines_.2 short.2]

/-- A piece has a stop at its end only. -/
theorem stop_not_mem_dropLast {s : List α} :
    ∀ {left : Nat}, ∀ piece ∈ pieces stop room left s, stop ∉ piece.dropLast := by
  induction s with
  | nil => simp [pieces]
  | cons c s ih =>
    intro left piece mem
    rw [pieces] at mem
    split at mem
    · rcases List.mem_cons.mp mem with rfl | mem
      · simp
      · exact ih piece mem
    · rename_i going
      rw [not_or] at going
      cases found : pieces stop room (left - 1) s with
      | nil =>
        simp only [found, List.mem_singleton] at mem
        simp [mem]
      | cons first rest =>
        simp only [found] at mem
        rcases List.mem_cons.mp mem with rfl | mem
        · have front : first ∈ pieces stop room (left - 1) s := by
            rw [found]
            exact List.mem_cons_self
          have inner := ih first front
          cases first with
          | nil => simp
          | cons a first =>
            rw [List.dropLast_cons_cons, List.mem_cons, not_or]
            exact ⟨fun eq => going.1 eq.symm, inner⟩
        · have later : piece ∈ pieces stop room (left - 1) s := by
            rw [found]
            exact List.mem_cons_of_mem _ mem
          exact ih piece later

end

end FlyHub.Lib
