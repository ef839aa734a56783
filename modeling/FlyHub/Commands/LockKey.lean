import FlyHub.Text
import Mathlib.Data.List.Basic

/-!
# The key to a lock

The hub sends a lock of random bytes, and a client answers with the key made of it. `Lock2Key`
writes the key for a lock, `VerifyLockKey` goes along a received key and stops at the first
byte that is not right.
-/

namespace FlyHub.Commands

/-- A lock as long as those that `MakeLock` makes, or longer. -/
structure Lock where
  text : Text
  long : 63 ≤ text.length

/-- A key in a buffer that ends it. -/
structure ReceivedKey where
  buffer : Text
  ended : 0 ∈ buffer

def ReceivedKey.text (key : ReceivedKey) : Text := cText key.buffer

/-- `ui8LockSize`. -/
def lockSize : Nat := 46

namespace Lock

/-- `sLock[i]`, after `$Lock `. -/
def byte (lock : Lock) (i : Nat) : UInt8 := lock.text.getD (6 + i) 0

/-- A byte of the key with its nibbles swapped. -/
def value (lock : Lock) (i : Nat) : UInt8 :=
  let v : UInt8 :=
    if i = 0 then lock.byte 0 ^^^ lock.byte 45 ^^^ lock.byte 44 ^^^ 5
    else lock.byte i ^^^ lock.byte (i - 1)
  ((v <<< 4) &&& (0xF0 : UInt8)) ||| ((v >>> 4) &&& (0x0F : UInt8))

end Lock

/-- Bytes that have a meaning of their own in the protocol are escaped. -/
def encoded (v : UInt8) : Text :=
  match v with
  | 0 => ascii "/%DCN000%/"
  | 5 => ascii "/%DCN005%/"
  | 36 => ascii "/%DCN036%/"
  | 96 => ascii "/%DCN096%/"
  | 124 => ascii "/%DCN124%/"
  | 126 => ascii "/%DCN126%/"
  | v => [v]

/-- `Lock2Key` from the byte `i` on, with `n` bytes left. -/
def lock2KeyLoop (lock : Lock) : Nat → Nat → Text → Text
  | 0, _, result => result
  | n + 1, i, result =>
    if 460 ≤ result.length then result
    else lock2KeyLoop lock n (i + 1) (result ++ encoded (lock.value i))

def lock2Key (lock : Lock) : Text := lock2KeyLoop lock lockSize 0 []

/-- The comparison with an expected text: where it ends, if the text is there. No result is
a read past the end of the buffer. -/
def compareAt (buffer : Text) : Nat → Text → Option (Option Nat)
  | pos, [] => some (some pos)
  | pos, c :: cs =>
    match buffer[pos]? with
    | none => none
    | some b => if b ≠ c then some none else compareAt buffer (pos + 1) cs

/-- `VerifyLockKey` from the byte `i` on, with `n` bytes left. -/
def verifyLoop (lock : Lock) (buffer : Text) : Nat → Nat → Nat → Option Bool
  | 0, _, pos => buffer[pos]?.map fun b => b = 0
  | n + 1, i, pos =>
    match compareAt buffer pos (encoded (lock.value i)) with
    | none => none
    | some none => some false
    | some (some pos) => verifyLoop lock buffer n (i + 1) pos

def verifyLockKey (lock : Lock) (sReceivedKey : Option Text) : Option Bool :=
  match sReceivedKey with
  | none => some false
  | some buffer => verifyLoop lock buffer lockSize 0 0

section
variable {lock : Lock} {key rest code buffer : Text}

/-! ## The key -/

theorem encoded_length (v : UInt8) : 0 < (encoded v).length ∧ (encoded v).length ≤ 10 := by
  unfold encoded
  split
  case h_7 => exact ⟨by simp, by simp⟩
  all_goals decide

theorem encoded_clean (v : UInt8) : 0 ∉ encoded v := by
  unfold encoded
  split
  case h_7 none_ _ _ _ _ _ =>
    intro mem
    exact none_ (List.mem_singleton.mp mem).symm
  all_goals decide

/-- The codes of `n` bytes from `i` on. -/
def codes (lock : Lock) (i n : Nat) : Text :=
  (List.range' i n).flatMap fun i => encoded (lock.value i)

theorem codes_succ (i n : Nat) :
    codes lock i (n + 1) = encoded (lock.value i) ++ codes lock (i + 1) n := rfl

/-- The result never comes to the size at which the loop breaks off. -/
theorem lock2KeyLoop_eq (n i : Nat) (result : Text) (fits : result.length + 10 * n ≤ 460) :
    lock2KeyLoop lock n i result = result ++ codes lock i n := by
  induction n generalizing i result with
  | zero => simp [lock2KeyLoop, codes]
  | succ n ih =>
    have short := (encoded_length (lock.value i)).2
    rw [lock2KeyLoop, if_neg (by omega), ih, codes_succ, List.append_assoc]
    rw [List.length_append]
    omega

theorem lock2Key_eq (lock : Lock) : lock2Key lock = codes lock 0 lockSize := by
  have loop := @lock2KeyLoop_eq lock lockSize 0 [] (by decide)
  rw [List.nil_append] at loop
  rw [lock2Key, loop]

/-! ## The comparison -/

/-- A comparison stops at the end of the key at the latest. -/
theorem compareAt_eq (clean : 0 ∉ code) (done : Text) :
    compareAt (done ++ key ++ 0 :: rest) done.length code =
      some (if code <+: key then some (done ++ code).length else none) := by
  induction code generalizing done key with
  | nil => simp [compareAt]
  | cons c code ih =>
    rw [List.mem_cons, not_or] at clean
    cases key with
    | nil =>
      simp [compareAt, clean.1]
    | cons k key =>
      have first : (done ++ k :: key ++ 0 :: rest)[done.length]? = some k := by simp
      unfold compareAt
      rw [first]
      by_cases same : k = c
      · subst same
        have later := @ih key clean.2 (done ++ [k])
        simp only [List.append_assoc, List.singleton_append, List.length_append,
          List.length_singleton] at later
        simpa [List.cons_prefix_cons] using later
      · have differs : ¬ c :: code <+: k :: key := fun starts =>
          same (List.cons_prefix_cons.mp starts).1.symm
        simp [same, differs]

theorem verifyLoop_eq (clean : 0 ∉ key) (n i : Nat) (done : Text) :
    verifyLoop lock (done ++ key ++ 0 :: rest) n i done.length =
      some (decide (key = codes lock i n)) := by
  induction n generalizing i done key with
  | zero =>
    unfold verifyLoop
    cases key with
    | nil => simp [codes]
    | cons k key =>
      have first : (done ++ k :: key ++ 0 :: rest)[done.length]? = some k := by simp
      rw [List.mem_cons, not_or] at clean
      rw [first]
      simp [codes, Ne.symm clean.1]
  | succ n ih =>
    rw [verifyLoop, compareAt_eq (encoded_clean _), codes_succ]
    by_cases starts : encoded (lock.value i) <+: key
    · obtain ⟨tail, rfl⟩ := starts
      rw [List.mem_append, not_or] at clean
      have later := ih clean.2 (i + 1) (done ++ encoded (lock.value i))
      simp only [List.prefix_append, if_true]
      simpa using later
    · have differs : key ≠ encoded (lock.value i) ++ codes lock (i + 1) n := by
        rintro rfl
        exact starts (List.prefix_append ..)
      simp [starts, differs]

theorem ReceivedKey.buffer_eq (key : ReceivedKey) :
    0 ∉ key.text ∧ ∃ rest, key.buffer = key.text ++ 0 :: rest := by
  constructor
  · intro mem
    have nonzero := List.mem_takeWhile_imp mem
    simp at nonzero
  · have split := List.takeWhile_append_dropWhile (p := fun c : UInt8 => c ≠ 0) (l := key.buffer)
    cases tail : key.buffer.dropWhile (fun c : UInt8 => c ≠ 0) with
    | nil =>
      have all := List.dropWhile_eq_nil_iff.mp tail 0 key.ended
      simp at all
    | cons b rest =>
      have stops := List.head?_dropWhile_not (fun c : UInt8 => c ≠ 0) key.buffer
      rw [tail] at stops
      have zero : b = 0 := by simpa using stops
      refine ⟨rest, ?_⟩
      rw [tail, zero] at split
      exact split.symm

/-- A received key is verified exactly if it is the key for the lock, without a read past
its end. -/
theorem verifyLockKey_iff (lock : Lock) (key : ReceivedKey) :
    verifyLockKey lock (some key.buffer) = some (decide (key.text = lock2Key lock)) := by
  obtain ⟨clean, rest, eq⟩ := key.buffer_eq
  have verifies := @verifyLoop_eq lock _ rest clean lockSize 0 []
  rw [List.nil_append, List.length_nil, ← eq, ← lock2Key_eq] at verifies
  rw [verifyLockKey, verifies]

end

end FlyHub.Commands
