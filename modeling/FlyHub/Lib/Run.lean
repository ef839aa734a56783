import Mathlib.Data.List.Induction
import Mathlib.Tactic.Common

/-!
# Runs of a deterministic machine

A machine is a function from a state and an event to the next state. A guard
says which events are allowed in which states; an invariant that every allowed
event keeps holds after every allowed run.
-/

namespace FlyHub.Lib

section
variable {State Event : Type*} (step : State → Event → State)

/-- The state reached from `s` by handling `es` in order. -/
def run (s : State) (es : List Event) : State := es.foldl step s

/-- Every event of the run is allowed in the state it is handled in. -/
def Allowed (ok : State → Event → Prop) : State → List Event → Prop
  | _, [] => True
  | s, e :: es => ok s e ∧ Allowed ok (step s e) es

@[simp] theorem run_nil (s : State) : run step s [] = s := rfl

@[simp] theorem run_cons (s : State) (e : Event) (es : List Event) :
    run step s (e :: es) = run step (step s e) es := rfl

theorem run_append (s : State) (es fs : List Event) :
    run step s (es ++ fs) = run step (run step s es) fs :=
  List.foldl_append

@[simp] theorem run_concat (s : State) (es : List Event) (e : Event) :
    run step s (es ++ [e]) = step (run step s es) e := by
  simp [run_append]

/-- What is seen of the events of a run, in order. -/
def trace {α : Type*} (see : State → Event → Option α) : State → List Event → List α
  | _, [] => []
  | s, e :: es => (see s e).toList ++ trace see (step s e) es

theorem trace_concat {α : Type*} (see : State → Event → Option α) (s : State) (es : List Event)
    (e : Event) :
    trace step see s (es ++ [e]) = trace step see s es ++ (see (run step s es) e).toList := by
  induction es generalizing s with
  | nil => simp [trace]
  | cons e' es ih => simp [trace, ih]

variable {step} {ok : State → Event → Prop}

instance decidableAllowed [∀ s e, Decidable (ok s e)] :
    ∀ (s : State) (es : List Event), Decidable (Allowed step ok s es)
  | _, [] => .isTrue trivial
  | s, e :: es =>
    have := decidableAllowed (step s e) es
    inferInstanceAs (Decidable (ok s e ∧ Allowed step ok (step s e) es))

theorem allowed_append {s : State} {es fs : List Event} :
    Allowed step ok s (es ++ fs) ↔ Allowed step ok s es ∧ Allowed step ok (run step s es) fs := by
  induction es generalizing s with
  | nil => simp [Allowed]
  | cons e es ih => simp [Allowed, ih, and_assoc]

/-- A run is allowed if each of its events is, after those before it. -/
theorem allowed_iff_steps {s : State} {es : List Event} :
    Allowed step ok s es ↔ ∀ pre e, pre ++ [e] <+: es → ok (run step s pre) e := by
  constructor
  · rintro allowed pre e ⟨rest, rfl⟩
    exact (allowed_append.mp (allowed_append.mp allowed).1).2.1
  · intro all
    induction es generalizing s with
    | nil => exact trivial
    | cons e es ih =>
      refine ⟨all [] e ⟨es, rfl⟩, ih fun pre e' h => ?_⟩
      exact all (e :: pre) e' (List.cons_prefix_cons.mpr ⟨rfl, h⟩)

theorem Allowed.mono {weaker : State → Event → Prop} (hw : ∀ s e, ok s e → weaker s e)
    {s : State} {es : List Event} (h : Allowed step ok s es) : Allowed step weaker s es := by
  induction es generalizing s with
  | nil => exact trivial
  | cons e es ih => exact ⟨hw s e h.1, ih h.2⟩

theorem Allowed.and {other : State → Event → Prop} {s : State} {es : List Event}
    (h : Allowed step ok s es) (h' : Allowed step other s es) :
    Allowed step (fun s e => ok s e ∧ other s e) s es := by
  induction es generalizing s with
  | nil => exact trivial
  | cons e es ih => exact ⟨⟨h.1, h'.1⟩, ih h.2 h'.2⟩

/-- Two guards that agree where the invariant holds allow the same runs. -/
theorem allowed_congr {other : State → Event → Prop} (Inv : State → Prop)
    (same : ∀ s e, Inv s → (other s e ↔ ok s e)) (hstep : ∀ s e, Inv s → ok s e → Inv (step s e))
    {s : State} {es : List Event} (hs : Inv s) :
    Allowed step other s es ↔ Allowed step ok s es := by
  induction es generalizing s with
  | nil => exact Iff.rfl
  | cons e es ih =>
    constructor
    · rintro ⟨first, rest⟩
      have allowed := (same s e hs).mp first
      exact ⟨allowed, (ih (hstep s e hs allowed)).mp rest⟩
    · rintro ⟨first, rest⟩
      exact ⟨(same s e hs).mpr first, (ih (hstep s e hs first)).mpr rest⟩

/-- The invariant rule: what every allowed event keeps, every allowed run keeps. -/
theorem allowed_invariant (Inv : State → Prop)
    (hstep : ∀ s e, Inv s → ok s e → Inv (step s e)) {s : State} {es : List Event}
    (hs : Inv s) (h : Allowed step ok s es) : Inv (run step s es) := by
  induction es generalizing s with
  | nil => exact hs
  | cons e es ih => exact ih (hstep s e hs h.1) h.2

/-- The invariant rule for an invariant that looks back on what has been seen. -/
theorem trace_invariant {α : Type*} {see : State → Event → Option α}
    (Inv : State → List α → Prop)
    (hstep : ∀ s e seen, Inv s seen → ok s e → Inv (step s e) (seen ++ (see s e).toList))
    {s : State} {es : List Event} (hs : Inv s []) (h : Allowed step ok s es) :
    Inv (run step s es) (trace step see s es) := by
  induction es using List.reverseRecOn with
  | nil => exact hs
  | append_singleton es e ih =>
    have split := allowed_append.mp h
    rw [run_concat, trace_concat]
    exact hstep _ e _ (ih split.1) split.2.1

/-- The invariant rule for a machine with no guard. -/
theorem run_invariant (Inv : State → Prop) (hstep : ∀ s e, Inv s → Inv (step s e))
    {s : State} (es : List Event) (hs : Inv s) : Inv (run step s es) := by
  induction es generalizing s with
  | nil => exact hs
  | cons e es ih => exact ih (hstep s e hs)

/-- When an event keeps `Good` exactly if it is allowed, `Good` holds all along a
run exactly if the run is allowed. -/
theorem forall_prefix_iff_allowed (Inv Good : State → Prop)
    (hinv : ∀ s e, Inv s → Inv (step s e))
    (hstep : ∀ s e, Inv s → Good s → (Good (step s e) ↔ ok s e))
    {s : State} {es : List Event} (hs : Inv s) (good : Good s) :
    (∀ pre, pre <+: es → Good (run step s pre)) ↔ Allowed step ok s es := by
  induction es generalizing s with
  | nil => simp [Allowed, good]
  | cons e es ih =>
    constructor
    · intro all
      have next : Good (step s e) := all [e] (by simp)
      refine ⟨(hstep s e hs good).mp next, (ih (hinv s e hs) next).mp fun pre hpre => ?_⟩
      exact all (e :: pre) (List.cons_prefix_cons.mpr ⟨rfl, hpre⟩)
    · rintro ⟨ok, rest⟩ pre hpre
      have next := (hstep s e hs good).mpr ok
      cases pre with
      | nil => exact good
      | cons f pre =>
        obtain ⟨rfl, tail⟩ := List.cons_prefix_cons.mp hpre
        exact (ih (hinv s f hs) next).mpr rest pre tail

/-- Where a good state comes only from a good one, so does the end of a run. -/
theorem run_back (Good : State → Prop) (back : ∀ s e, Good (step s e) → Good s) {s : State}
    {es : List Event} (good : Good (run step s es)) : Good s := by
  induction es generalizing s with
  | nil => exact good
  | cons e es ih => exact back s e (ih good)

/-- The end of a run is good exactly if the run is allowed, when a good state comes only from
a good one. -/
theorem good_iff_allowed (Inv Good : State → Prop)
    (hinv : ∀ s e, Inv s → Inv (step s e)) (back : ∀ s e, Good (step s e) → Good s)
    (hstep : ∀ s e, Inv s → Good s → (Good (step s e) ↔ ok s e))
    {s : State} {es : List Event} (hs : Inv s) (good : Good s) :
    Good (run step s es) ↔ Allowed step ok s es := by
  induction es using List.reverseRecOn with
  | nil => exact ⟨fun _ => trivial, fun _ => good⟩
  | append_singleton es e ih =>
    have inv : Inv (run step s es) := run_invariant Inv hinv es hs
    rw [run_concat, allowed_append, ← ih]
    constructor
    · intro next
      have before := back _ e next
      exact ⟨before, (hstep _ e inv before).mp next, trivial⟩
    · rintro ⟨before, now, -⟩
      exact (hstep _ e inv before).mpr now

end

/-! ## Machines that may stop -/

section
variable {State Event : Type*} {step : State → Event → Option State}

/-- What every step that succeeds keeps holds after a run that succeeds. -/
theorem foldlM_invariant (Inv : State → Prop) {es : List Event} {s s' : State}
    (kept : ∀ s e s', e ∈ es → Inv s → step s e = some s' → Inv s') (hs : Inv s)
    (reached : es.foldlM step s = some s') : Inv s' := by
  induction es generalizing s with
  | nil => exact Option.some.inj reached ▸ hs
  | cons e es ih =>
    rw [List.foldlM_cons, Option.bind_eq_bind, Option.bind_eq_some_iff] at reached
    obtain ⟨next, stepped, rest⟩ := reached
    exact ih (fun s e' s' mem => kept s e' s' (List.mem_cons_of_mem _ mem))
      (kept s e next List.mem_cons_self hs stepped) rest

end

end FlyHub.Lib
