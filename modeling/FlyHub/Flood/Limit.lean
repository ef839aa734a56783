import FlyHub.Flood.Check
import FlyHub.Lib.Run
import FlyHub.Lib.Span

/-!
# Flood limits

With the drop action no more messages get through in a window than the limit, and no more
than twice as many in any time that is as long. The counter has sixteen bits: a window with
more messages than they can count begins to let messages through again.
-/

namespace FlyHub.Flood

open FlyHub.Lib

/-- A check with the drop action. -/
structure DropCheck where
  type : DefloodTypes
  cfg : WarnSettings
  defloodCount : Int16
  defloodTime : UInt32
  positive : 1 ≤ defloodCount.toInt

namespace DropCheck

variable (d : DropCheck)

def check (s : Checked) (now : Nat) : Checked :=
  s.counter.deFloodCheckForFlood ⟨1, d.defloodCount, d.defloodTime⟩ now d.cfg d.type s.user

/-- After messages in the seconds `ts`. -/
def after (s : Checked) (ts : List Nat) : Checked := run d.check s ts

/-- The messages, each of which weighs nothing if it was rejected. -/
def passed (s : Checked) (ts : List Nat) : List (Nat × Nat) :=
  trace d.check (fun s now => some (now, if (d.check s now).flood then 0 else 1)) s ts

/-- The limit is kept: in a window, after it was exceeded, and in any time as long. -/
structure Keeps (s : Checked) (ts : List Nat) : Prop where
  window : ∀ pre, pre <+: ts → ∀ w, span d.defloodTime.toNat (d.passed s pre) = some w →
    (w.2 : Int) ≤ d.defloodCount.toInt
  rejects : ∀ pre t mid u, pre ++ t :: (mid ++ [u]) <+: ts → (d.after s (pre ++ [t])).flood →
    u < (d.after s (pre ++ [t])).counter.lastOkTick + d.defloodTime.toNat →
    (d.after s (pre ++ t :: (mid ++ [u]))).flood
  consecutive : ∀ a, (weightFrom d.defloodTime.toNat a (d.passed s ts) : Int) ≤
    2 * d.defloodCount.toInt

/-- A user of whom nothing was counted. -/
def fresh (u : FloodUser) (lastOkTick : Nat) : Checked := ⟨u, ⟨0, lastOkTick⟩, false⟩

/-- The messages of a run. -/
def messages (ts : List Nat) : List (Nat × Nat) := ts.map fun t => (t, 1)

/-! ## What one message does -/

section
variable {s : Checked} {w : Nat × Nat} {now n : Nat}

/-- The limit, as a natural number. -/
def limit : Nat := d.defloodCount.toInt.toNat

theorem limit_eq : (d.limit : Int) = d.defloodCount.toInt :=
  Int.toNat_of_nonneg (Int.le_trans (by decide) d.positive)

theorem limit_pos : 1 ≤ d.limit := by
  have := d.limit_eq
  have := d.positive
  omega

theorem limit_lt : d.limit < 32768 := by
  have := d.limit_eq
  have := d.defloodCount.toInt_lt
  omega

/-- What is counted after `n` messages of a window. Downloaded data is not counted here. -/
def counted (n : Nat) : Nat := if d.type = .maxDown then min n d.limit else n % 65536

/-- The counter and its window, as they are to be. -/
structure Counts (s : Checked) (w : Nat × Nat) : Prop where
  lastOkTick : s.counter.lastOkTick = w.1
  some_message : 1 ≤ w.2
  count : s.counter.count.toNat = d.counted w.2

variable {d}

theorem isOpen_iff (lim : Limit) (counts : d.Counts s w) :
    s.counter.isOpen lim now ↔ now < w.1 + lim.defloodTime.toNat := by
  rw [Counter.isOpen, counts.lastOkTick]

/-- The first message of a window. -/
theorem counts_first (u : FloodUser) (flood : Bool) : d.Counts ⟨u, ⟨1, now⟩, flood⟩ (now, 1) := by
  refine ⟨rfl, Nat.le_refl 1, ?_⟩
  have := d.limit_pos
  rw [counted]
  split
  · rw [Nat.min_eq_left this]
    rfl
  · rfl

/-- With nothing counted, a message begins a window. -/
theorem check_zero (d : DropCheck) (now : Nat) (zero : s.counter.count = 0) :
    (d.check s now).flood = false ∧ d.Counts (d.check s now) (now, 1) := by
  rw [check, Counter.deFloodCheckForFlood, if_pos zero, zero]
  exact ⟨rfl, counts_first _ _⟩

/-- After its time a window ends, whatever was counted. -/
theorem check_outside (counts : d.Counts s w) (outside : ¬now < w.1 + d.defloodTime.toNat) :
    (d.check s now).flood = false ∧ d.Counts (d.check s now) (now, 1) := by
  by_cases zero : s.counter.count = 0
  · exact check_zero d now zero
  · have closed : ¬s.counter.isOpen ⟨1, d.defloodCount, d.defloodTime⟩ now :=
      fun opened => outside ((isOpen_iff _ counts).mp opened)
    rw [check, Counter.deFloodCheckForFlood, if_neg zero, if_neg closed, if_neg closed, if_neg closed]
    split
    · exact ⟨rfl, counts_first _ _⟩
    · split
      · exact ⟨rfl, counts_first _ _⟩
      · exact ⟨rfl, counts_first _ _⟩

theorem counted_lt (under : n < d.limit) : d.counted n = n := by
  have := d.limit_lt
  rw [counted]
  split <;> omega

theorem counted_ge (least : 1 ≤ n) (few : d.type = .maxDown ∨ n < 65536) (above : d.limit ≤ n) :
    d.limit ≤ d.counted n := by
  rw [counted]
  split
  · omega
  · rename_i other
    have := few.resolve_left other
    omega

/-- What the last message was counted to, one more is counted from. -/
theorem counted_next {count : UInt16} (count_ : count.toNat = d.counted n)
    (free : d.type = .maxDown → n < d.limit) :
    (count + 1).toNat = d.counted (n + 1) := by
  have small := d.limit_lt
  rw [UInt16.toNat_add, count_]
  simp only [counted, UInt16.reduceToNat, Nat.reducePow]
  by_cases type : d.type = .maxDown
  · have := free type
    rw [if_pos type, if_pos type]
    omega
  · rw [if_neg type, if_neg type]
    omega

/-- In a window a message is rejected exactly if the limit is reached. -/
theorem check_inside (counts : d.Counts s w) (inside : now < w.1 + d.defloodTime.toNat)
    (few : d.type = .maxDown ∨ w.2 < 65536) :
    ((d.check s now).flood = true ↔ d.limit ≤ w.2) ∧ d.Counts (d.check s now) (w.1, w.2 + 1) := by
  have limit := d.limit_eq
  have least := d.limit_pos
  have count := counts.count
  have opened : s.counter.isOpen ⟨1, d.defloodCount, d.defloodTime⟩ now :=
    (isOpen_iff _ counts).mpr inside
  have some_count : s.counter.count ≠ 0 := by
    intro zero
    have none_counted : d.counted w.2 = 0 := by
      rw [← count, zero]
      rfl
    by_cases under : w.2 < d.limit
    · have := counted_lt under
      have := counts.some_message
      omega
    · have := counted_ge counts.some_message few (Nat.not_lt.mp under)
      omega
  have counted : ∀ n u flood, n.toNat = d.counted (w.2 + 1) →
      d.Counts ⟨u, ⟨n, s.counter.lastOkTick⟩, flood⟩ (w.1, w.2 + 1) :=
    fun n u flood eq => ⟨counts.lastOkTick, Nat.le_add_left 1 _, eq⟩
  rw [check, Counter.deFloodCheckForFlood, if_neg some_count, if_pos opened, if_pos opened,
    if_pos opened]
  by_cases under : w.2 < d.limit
  · have := counted_lt under
    rw [if_neg (by simp only; omega), if_neg (by simp only; omega)]
    refine ⟨iff_of_false Bool.false_ne_true (Nat.not_le.mpr under), counted _ _ _ ?_⟩
    exact counted_next count fun _ => under
  · have above := Nat.not_lt.mp under
    have := counted_ge counts.some_message few above
    split
    · -- the limit is just reached, or it is of data, which is not counted on
      refine ⟨iff_of_true rfl above, counted _ _ _ ?_⟩
      rw [FloodUser.deFloodDoAction, if_pos rfl]
      by_cases type : d.type = .maxDown
      · rw [if_pos type, count, DropCheck.counted, DropCheck.counted, if_pos type, if_pos type]
        omega
      · rw [if_neg type]
        exact counted_next count fun type' => absurd type' type
    · rename_i differs
      simp only at differs
      rw [if_pos (by simp only; omega), if_neg (by simp)]
      refine ⟨iff_of_true rfl above, counted _ _ _ (counted_next count fun type => ?_)⟩
      rw [DropCheck.counted, if_pos type] at count
      omega

end

/-! ## What a run does -/

section
variable {d} {s : Checked} {ts pre : List Nat} {t : Nat} {w : Nat × Nat}

theorem after_concat (d : DropCheck) (s : Checked) (pre : List Nat) (t : Nat) :
    d.after s (pre ++ [t]) = d.check (d.after s pre) t := run_concat _ _ _ _

theorem passed_concat (d : DropCheck) (s : Checked) (pre : List Nat) (t : Nat) :
    d.passed s (pre ++ [t]) =
      d.passed s pre ++ [(t, if (d.check (d.after s pre) t).flood then 0 else 1)] :=
  trace_concat _ _ _ _ _

theorem messages_concat (pre : List Nat) (t : Nat) :
    messages (pre ++ [t]) = messages pre ++ [(t, 1)] := List.map_append

theorem messages_weight (ts : List Nat) : ((messages ts).map Prod.snd).sum = ts.length := by
  simp [messages, Function.comp_def]

theorem prefix_messages (h : pre <+: ts) : messages pre <+: messages ts := h.map _

/-- Never more messages in a window than the counter can count. -/
def Countable (d : DropCheck) (ts : List Nat) : Prop :=
  d.type = .maxDown ∨ Light d.defloodTime.toNat 65536 (messages ts)

theorem Countable.shorter (few : d.Countable ts) (h : pre <+: ts) : d.Countable pre :=
  few.imp_right fun light => light.shorter (prefix_messages h)

/-- Before its last message a window had room for it. -/
theorem Countable.room (few : d.Countable (pre ++ [t]))
    (found : span d.defloodTime.toNat (messages pre) = some w)
    (inside : t < w.1 + d.defloodTime.toNat) : d.type = .maxDown ∨ w.2 < 65536 := by
  refine few.imp_right fun light => ?_
  rw [messages_concat] at light
  have fits := (light_concat.mp light).2
  rw [found, nextSpan_inside inside] at fits
  exact fits

/-- What was counted, and what got through, in the window of the last message. -/
def Follows (d : DropCheck) (s : Checked) (ts : List Nat) : Option (Nat × Nat) → Prop
  | none => (d.after s ts).counter.count = 0 ∧ span d.defloodTime.toNat (d.passed s ts) = none
  | some w => d.Counts (d.after s ts) w ∧
      span d.defloodTime.toNat (d.passed s ts) = some (w.1, min w.2 d.limit)

/-- A message begins a window, or it is in the window and is rejected if the limit is reached. -/
theorem Follows.next (follows : d.Follows s pre (span d.defloodTime.toNat (messages pre)))
    (few : d.Countable (pre ++ [t])) :
    d.Follows s (pre ++ [t]) (span d.defloodTime.toNat (messages (pre ++ [t]))) ∧
      ((d.check (d.after s pre) t).flood = true ↔ ∃ w,
        span d.defloodTime.toNat (messages pre) = some w ∧ t < w.1 + d.defloodTime.toNat ∧
          d.limit ≤ w.2) := by
  have least := d.limit_pos
  have first : nextSpan d.defloodTime.toNat (span d.defloodTime.toNat (d.passed s pre)) (t, 1) = (t, 1) →
      (d.check (d.after s pre) t).flood = false → d.Counts (d.check (d.after s pre) t) (t, 1) →
      d.Follows s (pre ++ [t]) (some (t, 1)) := by
    intro begins passes counts
    refine ⟨by rwa [after_concat], ?_⟩
    rw [passed_concat, span_concat, passes, Nat.min_eq_left least]
    exact congrArg some begins
  rw [messages_concat, span_concat]
  cases found : span d.defloodTime.toNat (messages pre) with
  | none =>
    rw [found] at follows
    obtain ⟨passes, counts⟩ := check_zero d t follows.1
    refine ⟨first ?_ passes counts, ?_⟩
    · rw [follows.2]
      rfl
    · rw [passes]
      exact iff_of_false Bool.false_ne_true nofun
  | some w =>
    rw [found] at follows
    obtain ⟨counts, through⟩ := follows
    by_cases inside : t < w.1 + d.defloodTime.toNat
    · obtain ⟨rejected, counts'⟩ := check_inside counts inside (few.room found inside)
      refine ⟨?_, rejected.trans ⟨fun above => ⟨w, rfl, inside, above⟩, ?_⟩⟩
      · rw [nextSpan_inside inside]
        refine ⟨by rwa [after_concat], ?_⟩
        rw [passed_concat, span_concat, through, nextSpan_inside inside, Option.some.injEq,
          Prod.mk.injEq]
        refine ⟨rfl, ?_⟩
        by_cases above : d.limit ≤ w.2
        · rw [if_pos (rejected.mpr above)]
          simp only
          omega
        · rw [if_neg (fun flood => above (rejected.mp flood))]
          simp only
          omega
      · rintro ⟨w', same, -, above⟩
        cases same
        exact above
    · obtain ⟨passes, counts'⟩ := check_outside counts inside
      refine ⟨?_, ?_⟩
      · rw [nextSpan_outside inside]
        refine first ?_ passes counts'
        rw [through]
        exact nextSpan_outside inside
      · rw [passes]
        refine iff_of_false Bool.false_ne_true ?_
        rintro ⟨w', same, inside', -⟩
        cases same
        exact inside inside'

theorem follows_after (zero : s.counter.count = 0) (few : d.Countable ts) :
    d.Follows s ts (span d.defloodTime.toNat (messages ts)) := by
  induction ts using List.reverseRecOn with
  | nil => exact ⟨zero, rfl⟩
  | append_singleton ts t ih =>
    exact ((ih (few.shorter (List.prefix_append _ _))).next few).1

/-- Exactly what comes after the limit of a window is rejected. -/
theorem rejected_iff (zero : s.counter.count = 0) (few : d.Countable (pre ++ [t])) :
    (d.after s (pre ++ [t])).flood = true ↔ ∃ w, span d.defloodTime.toNat (messages pre) = some w ∧
      t < w.1 + d.defloodTime.toNat ∧ d.limit ≤ w.2 := by
  rw [after_concat]
  exact ((follows_after zero (few.shorter (List.prefix_append _ _))).next few).2

theorem passed_times (s : Checked) (ts : List Nat) : (d.passed s ts).map Prod.fst = ts := by
  induction ts using List.reverseRecOn with
  | nil => rfl
  | append_singleton ts t ih => rw [passed_concat, List.map_append, ih]; rfl

theorem passed_light (zero : s.counter.count = 0) (few : d.Countable ts) :
    Light d.defloodTime.toNat d.limit (d.passed s ts) := by
  induction ts using List.reverseRecOn with
  | nil => exact light_nil _ _
  | append_singleton ts t ih =>
    have follows := follows_after zero few
    rw [messages_concat, span_concat] at follows
    have last := follows.2
    rw [passed_concat, span_concat, Option.some.injEq] at last
    rw [passed_concat, light_concat]
    refine ⟨ih (few.shorter (List.prefix_append _ _)), ?_⟩
    rw [last]
    exact Nat.min_le_right _ _

/-- After a rejected message all the others of its window are rejected. -/
theorem rejects_on (zero : s.counter.count = 0) (ordered : ts.Pairwise (· ≤ ·))
    (few : d.Countable ts) {mid : List Nat} {u : Nat} (here : pre ++ t :: (mid ++ [u]) <+: ts)
    (rejected : (d.after s (pre ++ [t])).flood)
    (inside : u < (d.after s (pre ++ [t])).counter.lastOkTick + d.defloodTime.toNat) :
    (d.after s (pre ++ t :: (mid ++ [u]))).flood := by
  have split : pre ++ t :: (mid ++ [u]) = (pre ++ t :: mid) ++ [u] := by simp
  have few' : d.Countable ((pre ++ t :: mid) ++ [u]) := few.shorter (split ▸ here)
  have few_t : d.Countable (pre ++ [t]) :=
    few.shorter (List.IsPrefix.trans ⟨mid ++ [u], by simp⟩ here)
  obtain ⟨w, found, inside_t, above⟩ := (rejected_iff zero few_t).mp rejected
  have begins : (d.after s (pre ++ [t])).counter.lastOkTick = w.1 := by
    have follows := follows_after zero few_t
    rw [messages_concat, span_concat, found, nextSpan_inside inside_t] at follows
    exact follows.1.lastOkTick
  rw [begins] at inside
  rw [split, rejected_iff zero few']
  refine ⟨(w.1, w.2 + (t :: mid).length), ?_, inside, Nat.le_trans above (Nat.le_add_right _ _)⟩
  rw [messages, List.map_append, ← messages, ← messages, span_append found, messages_weight]
  · -- what comes before `u` is in its window too
    intro e mem
    obtain ⟨t', mem', rfl⟩ := List.mem_map.mp mem
    have sorted : (pre ++ ((t :: mid) ++ [u])).Pairwise (· ≤ ·) :=
      ordered.sublist (by simpa using here.sublist)
    have apart := (List.pairwise_append.mp (List.pairwise_append.mp sorted).2.1).2.2
    exact Nat.lt_of_le_of_lt (apart t' mem' u (List.mem_singleton_self u)) inside

theorem keeps_windows_of_countable (zero : s.counter.count = 0) (ordered : ts.Pairwise (· ≤ ·))
    (few : d.Countable ts) : d.Keeps s ts where
  window := by
    intro pre h w found
    have light := passed_light zero (few.shorter h) _ (List.prefix_refl _) w found
    have := d.limit_eq
    omega
  rejects := fun _ _ _ _ here => rejects_on zero ordered few here
  consecutive := by
    intro a
    have sorted : (d.passed s ts).Pairwise fun e e' => e.1 ≤ e'.1 := by
      rw [← List.pairwise_map (f := Prod.fst) (R := (· ≤ ·)), passed_times]
      exact ordered
    have twice := weightFrom_le sorted (passed_light zero few) a
    have := d.limit_eq
    omega

/-- With more than one message in its window, a message did not begin it. -/
theorem inside_of_many {length : Nat} {before : Option (Nat × Nat)}
    (many : 1 < (nextSpan length before (t, 1)).2) :
    ∃ w, before = some w ∧ t < w.1 + length ∧
      nextSpan length before (t, 1) = (w.1, w.2 + 1) := by
  cases before with
  | none => exact absurd many (Nat.lt_irrefl 1)
  | some w =>
    by_cases inside : t < w.1 + length
    · exact ⟨w, rfl, inside, nextSpan_inside inside⟩
    · rw [nextSpan_outside inside] at many
      exact absurd many (Nat.lt_irrefl 1)

/-- The message for which the counter wraps gets through, after the one before it was rejected. -/
theorem countable_of_keeps (zero : s.counter.count = 0) (keeps : d.Keeps s ts) : d.Countable ts := by
  by_cases type : d.type = .maxDown
  · exact .inl type
  rcases light_or_heavy d.defloodTime.toNat 65536 (messages ts) with light | heavy
  · exact .inr light
  obtain ⟨before, e, rest, split, light, heavy⟩ := heavy
  obtain ⟨pre, last, rfl, rfl, at_last⟩ := List.map_eq_append_iff.mp split
  obtain ⟨u, rest', rfl, rfl, rfl⟩ := List.map_eq_cons_iff.mp at_last
  obtain ⟨w, found, inside, grown⟩ := inside_of_many (Nat.lt_trans (by decide) heavy)
  have full : w.2 = 65536 := by
    have fits := light _ (List.prefix_refl _) w found
    rw [grown] at heavy
    omega
  have few : d.Countable pre := .inr light
  have followed := follows_after zero few
  rw [messages, found] at followed
  have wrapped : (d.after s pre).counter.count = 0 := by
    have count := followed.1.count
    rw [counted, if_neg type, full] at count
    exact UInt16.toNat_inj.mp count
  -- the message before it is the last one that the counter can count
  cases pre using List.reverseRecOn with
  | nil => cases found
  | append_singleton pre t =>
    rw [← messages, messages_concat, span_concat, Option.some.injEq] at found
    have many : 1 < (nextSpan d.defloodTime.toNat
        (span d.defloodTime.toNat (messages pre)) (t, 1)).2 := by
      rw [found, full]
      decide
    obtain ⟨w', found', inside', grown'⟩ := inside_of_many many
    have above : d.limit ≤ w'.2 := by
      have small := d.limit_lt
      rw [found] at grown'
      rw [grown'] at full
      simp only at full
      omega
    have rejected := (rejected_iff zero few).mpr ⟨w', found', inside', above⟩
    have rejects := keeps.rejects pre t [] u ⟨rest', by simp⟩ rejected
      (by rw [followed.1.lastOkTick]; exact inside)
    have passes := (check_zero d u wrapped).1
    rw [← after_concat, List.append_assoc] at passes
    exact absurd (passes.symm.trans rejects) Bool.false_ne_true

end

end DropCheck

open DropCheck

/-- The limit is kept exactly if no window has more messages than the counter can count. -/
theorem rate_limited_iff (d : DropCheck) (u : FloodUser) (lastOkTick : Nat) (ts : List Nat)
    (ordered : ts.Pairwise (· ≤ ·)) :
    d.Keeps (fresh u lastOkTick) ts ↔
      d.type = .maxDown ∨ Light d.defloodTime.toNat 65536 (messages ts) :=
  ⟨countable_of_keeps rfl, keeps_windows_of_countable rfl ordered⟩

/-- One message in ten seconds. -/
def slowChat : DropCheck := ⟨.chat, ⟨3, 0⟩, 1, 10, by decide⟩

def calmUser : FloodUser := ⟨0, false, [], []⟩

theorem rate_limited_three :
    slowChat.Keeps (fresh calmUser 0) [7, 8, 17] ↔
      slowChat.type = .maxDown ∨ Light slowChat.defloodTime.toNat 65536 (messages [7, 8, 17]) :=
  rate_limited_iff slowChat calmUser 0 [7, 8, 17] (by decide)

/-- The 65537th message of one second gets through. -/
theorem flood_passes :
    ¬∀ (d : DropCheck) (u : FloodUser) (lastOkTick : Nat) (ts : List Nat),
      ts.Pairwise (· ≤ ·) → d.Keeps (fresh u lastOkTick) ts := by
  intro all
  have keeps := all slowChat calmUser 0 (List.replicate 65537 7)
    (List.pairwise_replicate.mpr (.inr (Nat.le_refl 7)))
  rcases countable_of_keeps rfl keeps with type | light
  · cases type
  · have found : span 10 (messages (List.replicate 65537 7)) = some (7, 65537) := by
      have first : span 10 (messages [7]) = some (7, 1) := rfl
      have inside : ∀ e ∈ messages (List.replicate 65536 7), e.1 < 7 + 10 := by
        intro e mem
        obtain ⟨t, again, rfl⟩ := List.mem_map.mp mem
        rw [List.eq_of_mem_replicate again]
        decide
      have all_of_them := span_append first inside
      rw [messages_weight, List.length_replicate] at all_of_them
      exact all_of_them
    exact absurd (light _ (List.prefix_refl _) _ found) (by decide)

end FlyHub.Flood
