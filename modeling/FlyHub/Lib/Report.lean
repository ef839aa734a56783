import Mathlib.Tactic.Common

/-!
# The latest report

A message may report a value. Of a sequence of messages counts the latest one that
reports anything. A reader that does what each message reports ends up with that.
-/

namespace FlyHub.Lib

section
variable {Message Value : Type*} (report : Message → Option Value)

/-- What the latest of the messages with a report reports. -/
def latest (ms : List Message) : Option Value := ms.foldl (fun r m => (report m).or r) none

@[simp] theorem latest_nil : latest report [] = none := rfl

variable {report} {ms ns : List Message} {m : Message} {v : Value}

theorem foldl_latest (r : Option Value) :
    ms.foldl (fun r m => (report m).or r) r = (latest report ms).or r := by
  induction ms generalizing r with
  | nil => rfl
  | cons m ms ih =>
    rw [latest, List.foldl_cons, List.foldl_cons, ih, ih, Option.or_none, Option.or_assoc]

/-- Later messages come first. -/
theorem latest_append : latest report (ms ++ ns) = (latest report ns).or (latest report ms) := by
  rw [latest, List.foldl_append, foldl_latest]
  rfl

theorem latest_cons : latest report (m :: ms) = (latest report ms).or (report m) := by
  rw [latest, List.foldl_cons, foldl_latest, Option.or_none]

@[simp] theorem latest_singleton : latest report [m] = report m := by
  rw [latest_cons, latest_nil, Option.none_or]

theorem latest_eq_none : latest report ms = none ↔ ∀ m ∈ ms, report m = none := by
  induction ms with
  | nil => exact iff_of_true rfl (fun _ mem => absurd mem List.not_mem_nil)
  | cons m ms ih =>
    rw [latest_cons, Option.or_eq_none_iff, ih, List.forall_mem_cons, and_comm]

/-- What is reported last is reported by a message. -/
theorem exists_of_latest (found : latest report ms = some v) : ∃ m ∈ ms, report m = some v := by
  induction ms with
  | nil => cases found
  | cons m ms ih =>
    rw [latest_cons, Option.or_eq_some_iff] at found
    rcases found with later | ⟨-, here⟩
    · obtain ⟨m', mem, reports⟩ := ih later
      exact ⟨m', List.mem_cons_of_mem _ mem, reports⟩
    · exact ⟨m, List.mem_cons_self, here⟩

/-- Where all reports agree, one report is enough. -/
theorem latest_of_agree (agree : ∀ m ∈ ms, ∀ w, report m = some w → w = v)
    (one : ∃ m ∈ ms, report m ≠ none) : latest report ms = some v := by
  cases found : latest report ms with
  | none =>
    obtain ⟨m, mem, reports⟩ := one
    exact absurd (latest_eq_none.mp found m mem) reports
  | some w =>
    obtain ⟨m, mem, reports⟩ := exists_of_latest found
    rw [agree m mem w reports]

/-- A reader keeps a property of what it knows up to date if every message does. -/
theorem foldl_reads {State : Type*} {read : State → Message → State} {Holds : State → Prop}
    {report : Message → Option Bool}
    (reads : ∀ s m, Holds (read s m) ↔ (report m).elim (Holds s) (· = true)) (s : State)
    (ms : List Message) :
    Holds (ms.foldl read s) ↔ (latest report ms).elim (Holds s) (· = true) := by
  induction ms generalizing s with
  | nil => exact Iff.rfl
  | cons m ms ih =>
    rw [List.foldl_cons, ih, latest_cons]
    cases latest report ms with
    | some b => exact Iff.rfl
    | none => exact reads s m

end

end FlyHub.Lib
