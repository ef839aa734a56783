import Mathlib.Data.List.Induction
import Mathlib.Tactic.Common

/-!
# Windows of time

Times come one after another. A window begins with the first time that no window has,
and has every later time up to its length after it. Elements that come again and again
are lined up in the order in which they first came.
-/

namespace FlyHub.Lib

/-- The window of the next time: its begin, and how many times it has then. -/
def nextWindow (length : Nat) : Option (Nat × Nat) → Nat → Nat × Nat
  | none, t => (t, 1)
  | some (start, n), t => if t ≤ start + length then (start, n + 1) else (t, 1)

/-- The window of the last time. -/
def window (length : Nat) (ts : List Nat) : Option (Nat × Nat) :=
  ts.foldl (fun w t => some (nextWindow length w t)) none

section
variable {length start n t : Nat} {ts : List Nat}

theorem window_concat (length : Nat) (ts : List Nat) (t : Nat) :
    window length (ts ++ [t]) = some (nextWindow length (window length ts) t) := by
  rw [window, List.foldl_append]
  rfl

theorem nextWindow_positive (w : Option (Nat × Nat)) : 1 ≤ (nextWindow length w t).2 := by
  unfold nextWindow
  split
  · exact Nat.le_refl 1
  · split
    · exact Nat.le_add_left 1 _
    · exact Nat.le_refl 1

/-- A window begins at a time that it has. -/
theorem window_start_mem (found : window length ts = some (start, n)) : start ∈ ts := by
  induction ts using List.reverseRecOn generalizing start n with
  | nil => cases found
  | append_singleton ts t ih =>
    rw [window_concat] at found
    cases before : window length ts with
    | none =>
      rw [before] at found
      cases found
      simp
    | some w =>
      obtain ⟨start', n'⟩ := w
      rw [before, Option.some.injEq] at found
      simp only [nextWindow] at found
      split at found
      · obtain ⟨rfl, -⟩ := Prod.mk.inj found
        exact List.mem_append_left _ (ih before)
      · obtain ⟨rfl, -⟩ := Prod.mk.inj found
        simp

/-- A time that comes when all the others are long past begins a window. -/
theorem nextWindow_quiet (quiet : ∀ t' ∈ ts, t' + length < t) :
    nextWindow length (window length ts) t = (t, 1) := by
  cases before : window length ts with
  | none => rfl
  | some w =>
    have past := quiet w.1 (window_start_mem before)
    exact if_neg (Nat.not_le.mpr past)

theorem window_some (mem : t ∈ ts) : ∃ w, window length ts = some w := by
  induction ts using List.reverseRecOn with
  | nil => cases mem
  | append_singleton ts t' ih => exact ⟨_, window_concat _ _ _⟩

theorem window_positive (found : window length ts = some (start, n)) : 1 ≤ n := by
  cases ts using List.reverseRecOn with
  | nil => cases found
  | append_singleton ts t =>
    rw [window_concat, Option.some.injEq] at found
    have positive : 1 ≤ (nextWindow length (window length ts) t).2 := nextWindow_positive _
    rw [found] at positive
    exact positive

theorem window_le_length (found : window length ts = some (start, n)) : n ≤ ts.length := by
  induction ts using List.reverseRecOn generalizing start n with
  | nil => cases found
  | append_singleton ts t ih =>
    rw [List.length_append, List.length_singleton]
    rw [window_concat, Option.some.injEq] at found
    cases before : window length ts with
    | none =>
      rw [before] at found
      cases found
      exact Nat.le_add_left 1 _
    | some w =>
      have shorter := ih before
      rw [before, nextWindow] at found
      split at found
      · obtain ⟨-, rfl⟩ := Prod.mk.inj found
        exact Nat.succ_le_succ shorter
      · obtain ⟨-, rfl⟩ := Prod.mk.inj found
        exact Nat.le_add_left 1 _

/-- Times that are all the same are in one window. -/
theorem window_replicate (length k : Nat) :
    window length (List.replicate (k + 1) t) = some (t, k + 1) := by
  induction k with
  | zero => rfl
  | succ k ih =>
    rw [List.replicate_succ', window_concat, ih]
    exact congrArg some (if_pos (Nat.le_add_right _ _))

end

section
variable {α : Type*} [DecidableEq α] {ks : List α} {k : α} {n : Nat}

/-- The first `n` elements to come. -/
def firstComers (n : Nat) (ks : List α) : List α := ks.eraseDups.take n

theorem eraseDups_concat (ks : List α) (k : α) :
    (ks ++ [k]).eraseDups = if k ∈ ks then ks.eraseDups else ks.eraseDups ++ [k] := by
  rw [List.eraseDups_append]
  by_cases mem : k ∈ ks
  · rw [if_pos mem]
    simp [List.removeAll, mem]
  · rw [if_neg mem]
    simp [List.removeAll, mem, List.eraseDups_cons]

theorem eraseDups_of_nodup (nodup : ks.Nodup) : ks.eraseDups = ks := by
  induction ks using List.reverseRecOn with
  | nil => rfl
  | append_singleton ks k ih =>
    obtain ⟨before, -, apart⟩ := List.nodup_append.mp nodup
    have new : k ∉ ks := fun mem => apart k mem k (List.mem_singleton_self k) rfl
    rw [eraseDups_concat, if_neg new, ih before]

/-- Who has come before changes nothing. -/
theorem firstComers_again (mem : k ∈ ks) : firstComers n (ks ++ [k]) = firstComers n ks := by
  rw [firstComers, eraseDups_concat, if_pos mem, firstComers]

theorem firstComers_full (full : n ≤ (firstComers n ks).length) :
    firstComers n (ks ++ [k]) = firstComers n ks := by
  have long : n ≤ ks.eraseDups.length := by
    rw [firstComers, List.length_take] at full
    exact Nat.le_trans full (Nat.min_le_right _ _)
  rw [firstComers, eraseDups_concat]
  split
  · rfl
  · exact List.take_append_of_le_length long

theorem firstComers_room (new : k ∉ ks) (room : (firstComers n ks).length < n) :
    firstComers n (ks ++ [k]) = firstComers n ks ++ [k] := by
  have short : ks.eraseDups.length < n := by
    rw [firstComers, List.length_take] at room
    omega
  rw [firstComers, firstComers, eraseDups_concat, if_neg new,
    List.take_of_length_le (by simp; omega), List.take_of_length_le (Nat.le_of_lt short)]

theorem head_mem_firstComers (n : Nat) (ks : List α) (k : α) :
    k ∈ firstComers (n + 1) (k :: ks) := by
  rw [firstComers, List.eraseDups_cons, List.take_succ_cons]
  exact List.mem_cons_self

theorem mem_of_mem_firstComers (mem : k ∈ firstComers n ks) : k ∈ ks :=
  List.mem_eraseDups.mp (List.mem_of_mem_take mem)

theorem firstComers_length_le (n : Nat) (ks : List α) : (firstComers n ks).length ≤ n := by
  rw [firstComers, List.length_take]
  exact Nat.min_le_left _ _

/-- Who is not among the first, though he has come, has found no room. -/
theorem firstComers_mem_of_room (mem : k ∈ ks) (room : (firstComers n ks).length < n) :
    k ∈ firstComers n ks := by
  rw [firstComers, List.length_take] at room
  rw [firstComers, List.take_of_length_le (by omega)]
  exact List.mem_eraseDups.mpr mem

end

end FlyHub.Lib
