import Mathlib.Algebra.BigOperators.Group.List.Basic
import Mathlib.Algebra.GroupWithZero.Nat
import Mathlib.Data.List.Induction
import Mathlib.Tactic.Common

/-!
# Spans of time

Elements with a time and a weight come one after another. A span begins with the first
element that no span has, and has every later one up to its length after it, that time not
included.
-/

namespace FlyHub.Lib

/-- The span of the next element: its begin, and its weight so far. -/
def nextSpan (length : Nat) : Option (Nat × Nat) → Nat × Nat → Nat × Nat
  | none, e => e
  | some s, e => if e.1 < s.1 + length then (s.1, s.2 + e.2) else e

/-- The span of the last element. -/
def span (length : Nat) (es : List (Nat × Nat)) : Option (Nat × Nat) :=
  es.foldl (fun s e => some (nextSpan length s e)) none

/-- No span ever weighs more than `bound`. -/
def Light (length bound : Nat) (es : List (Nat × Nat)) : Prop :=
  ∀ pre, pre <+: es → ∀ s, span length pre = some s → s.2 ≤ bound

/-- What the times weigh from `a` on, during `length`. -/
def weightFrom (length a : Nat) (es : List (Nat × Nat)) : Nat :=
  ((es.filter fun e => a ≤ e.1 ∧ e.1 < a + length).map Prod.snd).sum

section
variable {length bound a : Nat} {es : List (Nat × Nat)} {e s : Nat × Nat}

@[simp] theorem span_nil (length : Nat) : span length [] = none := rfl

theorem span_concat (length : Nat) (es : List (Nat × Nat)) (e : Nat × Nat) :
    span length (es ++ [e]) = some (nextSpan length (span length es) e) := by
  rw [span, List.foldl_append]
  rfl

theorem nextSpan_inside (inside : e.1 < s.1 + length) :
    nextSpan length (some s) e = (s.1, s.2 + e.2) := if_pos inside

theorem nextSpan_outside (outside : ¬e.1 < s.1 + length) : nextSpan length (some s) e = e :=
  if_neg outside

theorem span_eq_none : span length es = none ↔ es = [] := by
  cases es using List.reverseRecOn with
  | nil => exact iff_of_true rfl rfl
  | append_singleton es e =>
    rw [span_concat]
    exact iff_of_false (Option.some_ne_none _) (by simp)

/-- A span takes in everything until it is over. -/
theorem span_append {es' : List (Nat × Nat)} (found : span length es = some s)
    (inside : ∀ e ∈ es', e.1 < s.1 + length) :
    span length (es ++ es') = some (s.1, s.2 + (es'.map Prod.snd).sum) := by
  induction es' using List.reverseRecOn with
  | nil => simpa using found
  | append_singleton es' e ih =>
    have before := ih fun e' mem => inside e' (List.mem_append_left _ mem)
    have last := inside e (List.mem_append_right _ (List.mem_singleton_self e))
    rw [← List.append_assoc, span_concat, before, nextSpan, if_pos last]
    simp [Nat.add_assoc]

/-- A span begins at a time that it has. -/
theorem span_begin_mem (found : span length es = some s) : ∃ e ∈ es, e.1 = s.1 := by
  induction es using List.reverseRecOn generalizing s with
  | nil => cases found
  | append_singleton es e ih =>
    rw [span_concat, Option.some.injEq] at found
    subst found
    cases before : span length es with
    | none => exact ⟨e, by simp, rfl⟩
    | some s' =>
      by_cases inside : e.1 < s'.1 + length
      · rw [nextSpan_inside inside]
        obtain ⟨e', mem, same⟩ := ih before
        exact ⟨e', List.mem_append_left _ mem, same⟩
      · rw [nextSpan_outside inside]
        exact ⟨e, by simp, rfl⟩

theorem Light.shorter {es' : List (Nat × Nat)} (light : Light length bound es) (pre : es' <+: es) :
    Light length bound es' :=
  fun pre' h => light pre' (h.trans pre)

theorem light_nil (length bound : Nat) : Light length bound [] := by
  intro pre h s found
  rw [List.prefix_nil.mp h] at found
  cases found

theorem light_concat : Light length bound (es ++ [e]) ↔
    Light length bound es ∧ (nextSpan length (span length es) e).2 ≤ bound := by
  constructor
  · intro light
    exact ⟨light.shorter (List.prefix_append _ _),
      light _ (List.prefix_refl _) _ (span_concat length es e)⟩
  · rintro ⟨light, last⟩ pre h s found
    rcases List.prefix_concat_iff.mp h with rfl | h
    · rw [span_concat, Option.some.injEq] at found
      rw [← found]
      exact last
    · exact light pre h s found

@[simp] theorem weightFrom_nil (length a : Nat) : weightFrom length a [] = 0 := rfl

theorem weightFrom_concat (length a : Nat) (es : List (Nat × Nat)) (e : Nat × Nat) :
    weightFrom length a (es ++ [e]) =
      weightFrom length a es + if a ≤ e.1 ∧ e.1 < a + length then e.2 else 0 := by
  rw [weightFrom, weightFrom, List.filter_append, List.map_append, List.sum_append]
  congr 1
  by_cases inside : a ≤ e.1 ∧ e.1 < a + length
  · simp [inside]
  · simp [inside]

theorem weightFrom_early (early : ∀ e ∈ es, e.1 < a) : weightFrom length a es = 0 := by
  rw [weightFrom, List.filter_eq_nil_iff.mpr]
  · rfl
  · intro e mem inside
    exact absurd (early e mem) (Nat.not_lt.mpr (of_decide_eq_true inside).1)

/-- What the times from `a` on weigh, by where the last span begins. -/
structure WeightFrom (length bound a : Nat) (es : List (Nat × Nat)) (s : Nat × Nat) : Prop where
  before : s.1 < a → weightFrom length a es ≤ s.2
  within : a ≤ s.1 → s.1 < a + length → weightFrom length a es ≤ bound + s.2
  all : weightFrom length a es ≤ 2 * bound

theorem WeightFrom.inside (weighs : WeightFrom length bound a es s) (later : s.1 ≤ e.1)
    (light : s.2 + e.2 ≤ bound) :
    WeightFrom length bound a (es ++ [e]) (s.1, s.2 + e.2) := by
  have grown : weightFrom length a (es ++ [e]) ≤ weightFrom length a es + e.2 := by
    rw [weightFrom_concat]
    split
    · exact Nat.le_refl _
    · exact Nat.le_add_right _ _
  refine ⟨fun early => ?_, fun from_ until_ => ?_, ?_⟩
  · have := weighs.before early
    dsimp only
    omega
  · have := weighs.within from_ until_
    dsimp only
    omega
  · by_cases early : s.1 < a
    · have := weighs.before early
      omega
    · by_cases until_ : s.1 < a + length
      · have := weighs.within (Nat.not_lt.mp early) until_
        omega
      · rw [weightFrom_concat, if_neg (by omega)]
        exact weighs.all

/-- A new span: only one before it can have times from `a` on. -/
theorem WeightFrom.outside (past : weightFrom length a es ≤ 2 * bound)
    (early : ∀ e' ∈ es, e'.1 ≤ e.1)
    (one : e.1 < a + length → a ≤ e.1 → weightFrom length a es ≤ bound) (light : e.2 ≤ bound) :
    WeightFrom length bound a (es ++ [e]) e := by
  have next := weightFrom_concat length a es e
  refine ⟨fun early' => ?_, fun from_ until_ => ?_, ?_⟩
  · rw [next, if_neg (by omega), weightFrom_early fun e' mem => Nat.lt_of_le_of_lt (early e' mem) early']
    exact Nat.zero_le _
  · have := one until_ from_
    rw [next, if_pos ⟨from_, until_⟩]
    omega
  · rw [next]
    split
    · rename_i inside
      have := one inside.2 inside.1
      omega
    · exact past

theorem weightFrom_span (ordered : es.Pairwise fun e e' => e.1 ≤ e'.1)
    (light : Light length bound es) (found : span length es = some s) :
    WeightFrom length bound a es s := by
  induction es using List.reverseRecOn generalizing s with
  | nil => cases found
  | append_singleton es e ih =>
    obtain ⟨sorted, -, last⟩ := List.pairwise_append.mp ordered
    have early : ∀ e' ∈ es, e'.1 ≤ e.1 := fun e' mem => last e' mem e (List.mem_singleton_self e)
    obtain ⟨lighter, fits⟩ := light_concat.mp light
    rw [span_concat, Option.some.injEq] at found
    subst found
    cases before : span length es with
    | none =>
      obtain rfl := span_eq_none.mp before
      rw [before] at fits
      exact .outside (Nat.zero_le _) early (fun _ _ => Nat.zero_le _) fits
    | some s' =>
      have weighs := ih sorted lighter before
      rw [before] at fits
      obtain ⟨e', mem, begins⟩ := span_begin_mem before
      by_cases inside : e.1 < s'.1 + length
      · rw [nextSpan_inside inside] at fits ⊢
        exact weighs.inside (begins ▸ early e' mem) fits
      · rw [nextSpan_outside inside] at fits ⊢
        refine .outside weighs.all early (fun until_ from_ => ?_) fits
        have := weighs.before (by omega)
        have := lighter es (List.prefix_refl _) s' before
        omega

/-- As many times as a span is long meet two spans at most. -/
theorem weightFrom_le (ordered : es.Pairwise fun e e' => e.1 ≤ e'.1)
    (light : Light length bound es) (a : Nat) : weightFrom length a es ≤ 2 * bound := by
  cases found : span length es with
  | none =>
    rw [span_eq_none.mp found]
    exact Nat.zero_le _
  | some s => exact (weightFrom_span ordered light found).all

/-- Where spans are not all light, a first element makes one too heavy. -/
theorem light_or_heavy (length bound : Nat) (es : List (Nat × Nat)) :
    Light length bound es ∨ ∃ pre e rest, es = pre ++ e :: rest ∧ Light length bound pre ∧
      bound < (nextSpan length (span length pre) e).2 := by
  induction es using List.reverseRecOn with
  | nil => exact .inl (light_nil length bound)
  | append_singleton es e ih =>
    rcases ih with light | ⟨pre, e', rest, rfl, light, heavy⟩
    · by_cases fits : (nextSpan length (span length es) e).2 ≤ bound
      · exact .inl (light_concat.mpr ⟨light, fits⟩)
      · exact .inr ⟨es, e, [], rfl, light, Nat.not_le.mp fits⟩
    · exact .inr ⟨pre, e', rest ++ [e], by simp, light, heavy⟩

end

end FlyHub.Lib
