import Mathlib.Data.List.Induction
import FlyHub.Lib.Vector
import FlyHub.Lib.Run

/-!
# The broadcast buffer

`CFlyBuffer` keeps its own length beside the size of its vector. The length
runs ahead of the size, and a reallocation keeps only what lies below the size.
-/

namespace FlyHub.Broadcast

open FlyHub.Lib

def initialQueueBufferSize : Nat := 256

def alignUp (n : Nat) : Nat := n + 1

/-- `CFlyBuffer`: the vector and the number of bytes queued in it. -/
structure Buffer where
  pBuffer : Vec UInt8
  szLen : Nat

namespace Buffer

section
variable (uninit : Nat → UInt8)

/-- The buffer as the constructor of the queue leaves it. -/
def init : Buffer := ⟨(Vec.filled 0 0).resize uninit 0 initialQueueBufferSize, 0⟩

/-- The bytes that are sent. -/
def content (q : Buffer) : List UInt8 := slice q.pBuffer.mem q.szLen

def addDataToQueue (q : Buffer) (sData : List UInt8) : Buffer :=
  let pBuffer :=
    if q.pBuffer.cap < q.szLen + sData.length + 1 then
      q.pBuffer.resize uninit 0 (alignUp (q.szLen + sData.length))
    else q.pBuffer
  ⟨(pBuffer.write q.szLen sData).write (q.szLen + sData.length) [0], q.szLen + sData.length⟩

def clean (q : Buffer) : Buffer :=
  if q.szLen = 0 ∧ 256 < q.pBuffer.cap then { q with pBuffer := .filled 0 256 } else q

/-- What `ClearQueues` does to the buffer of a created queue. -/
def clear (q : Buffer) : Buffer := clean { q with szLen := 0 }

def addAll (q : Buffer) (payloads : List (List UInt8)) : Buffer :=
  run (addDataToQueue uninit) q payloads

/-- A buffer that has been through `rounds`, each a list of payloads and a clear. -/
def afterRounds (rounds : List (List (List UInt8))) : Buffer :=
  run (fun q payloads => (q.addAll uninit payloads).clear) (init uninit) rounds

end

end Buffer

/-- The three lengths of a buffer. They depend on the lengths of the payloads
only, never on their bytes. -/
structure Extent where
  size : Nat
  cap : Nat
  len : Nat

namespace Extent

def start : Extent := ⟨256, 256, 0⟩

/-- Appending `n` bytes needs a larger block. -/
abbrev Grows (e : Extent) (n : Nat) : Prop := e.cap < e.len + n + 1

def add (e : Extent) (n : Nat) : Extent :=
  if e.Grows n then
    ⟨e.len + n + 1, e.size + max e.size (e.len + n + 1 - e.size), e.len + n⟩
  else { e with len := e.len + n }

/-- The lengths after a sequence of payloads. -/
def after (payloads : List (List UInt8)) : Extent :=
  run (fun e p => e.add p.length) start payloads

/-- A buffer that never grew has its initial size; one that grew is larger. -/
def Grown (e : Extent) : Prop := (e.size = 256 ∧ e.cap = 256) ∨ 256 < e.cap

theorem add_grown {e : Extent} (h : e.Grown) (n : Nat) : (e.add n).Grown := by
  unfold add
  split
  · rename_i grows
    right
    simp only [Grows] at grows
    rcases h with h | h <;> simp only <;> omega
  · exact h

end Extent

namespace Buffer

section
variable {uninit : Nat → UInt8}

def extent (q : Buffer) : Extent := ⟨q.pBuffer.size, q.pBuffer.cap, q.szLen⟩

@[simp] theorem extent_len (q : Buffer) : q.extent.len = q.szLen := rfl

@[simp] theorem content_length (q : Buffer) : q.content.length = q.szLen := slice_length _ _

@[simp] theorem addDataToQueue_szLen (q : Buffer) (d : List UInt8) :
    (q.addDataToQueue uninit d).szLen = q.szLen + d.length := rfl

theorem extent_addDataToQueue (q : Buffer) (d : List UInt8) :
    (q.addDataToQueue uninit d).extent = q.extent.add d.length := by
  simp only [addDataToQueue, extent, Extent.add, Extent.Grows, alignUp, Vec.write_size,
    Vec.write_cap]
  by_cases grows : q.pBuffer.cap < q.szLen + d.length + 1
  · simp only [grows, ↓reduceIte, Vec.resize_size, Vec.resize_cap _ _ _ grows]
  · simp only [grows, ↓reduceIte]

theorem extent_addAll (q : Buffer) (ps : List (List UInt8)) :
    (q.addAll uninit ps).extent = run (fun e p => e.add p.length) q.extent ps := by
  induction ps using List.reverseRecOn with
  | nil => rfl
  | append_singleton ps p ih =>
    simp only [addAll, run_concat] at ih ⊢
    rw [extent_addDataToQueue, ih]

/-- One append: where the block is replaced, the bytes past the old size turn
into zeros before the payload is copied behind them. -/
theorem content_addDataToQueue (q : Buffer) (d : List UInt8) :
    (q.addDataToQueue uninit d).content =
      (if q.extent.Grows d.length then
        q.content.take q.extent.size ++ List.replicate (q.szLen - q.extent.size) 0
      else q.content) ++ d := by
  simp only [content, addDataToQueue, Vec.write]
  rw [slice_memcpy_of_le _ (Nat.le_refl _), slice_memcpy]
  congr 1
  simp only [extent, Extent.Grows, alignUp]
  by_cases grows : q.pBuffer.cap < q.szLen + d.length + 1
  · simp only [grows, ↓reduceIte]
    exact Vec.slice_resize _ _ _ grows (by omega)
  · simp only [grows, ↓reduceIte]

theorem extent_init : (init uninit).extent = .start := rfl

theorem extent_clear {q : Buffer} (h : q.extent.Grown) : q.clear.extent = .start := by
  rcases h with ⟨hs, hc⟩ | h
  · simp only [extent] at hs hc
    simp [clear, clean, extent, Extent.start, hs, hc]
  · simp only [extent] at h
    simp [clear, clean, extent, Extent.start, h, Vec.filled]

theorem addAll_grown {q : Buffer} (h : q.extent.Grown) (ps : List (List UInt8)) :
    (q.addAll uninit ps).extent.Grown :=
  run_invariant (fun q : Buffer => q.extent.Grown)
    (fun q d hq => by rw [extent_addDataToQueue]; exact Extent.add_grown hq _) ps h

/-- Between two rounds a buffer has its initial lengths again. -/
theorem extent_afterRounds (rounds : List (List (List UInt8))) :
    (afterRounds uninit rounds).extent = .start := by
  refine run_invariant (fun q : Buffer => q.extent = .start) ?_ rounds extent_init
  intro q ps hq
  exact extent_clear (addAll_grown (by rw [hq]; left; exact ⟨rfl, rfl⟩) ps)

end

end Buffer

/-- What a reallocation makes of the bytes queued so far when only the first
`size` of them move. -/
def zeroPast (bytes : List UInt8) (size : Nat) : List UInt8 :=
  bytes.take size ++ List.replicate (bytes.length - size) 0

/-- Every byte is the one queued or a zero in its place. -/
def Faded (sent queued : List UInt8) : Prop :=
  sent.length = queued.length ∧ ∀ i : Nat, sent[i]? = queued[i]? ∨ sent[i]? = some 0

theorem zeroPast_getElem? (bytes : List UInt8) (size i : Nat) :
    (zeroPast bytes size)[i]? =
      if i < size then bytes[i]? else if i < bytes.length then some 0 else none := by
  rw [zeroPast, List.getElem?_append, List.length_take, List.getElem?_take,
    List.getElem?_replicate]
  by_cases hi : i < bytes.length
  · by_cases hs : i < size
    · have kept : i < min size bytes.length := by omega
      simp only [hs, kept, ↓reduceIte]
    · have lost : ¬ i < min size bytes.length := by omega
      have rest : i - min size bytes.length < bytes.length - size := by omega
      simp only [hi, hs, lost, rest, ↓reduceIte]
  · have out : ¬ i < min size bytes.length := by omega
    have past : ¬ i - min size bytes.length < bytes.length - size := by omega
    have none : bytes[i]? = none := List.getElem?_eq_none (by omega)
    simp only [hi, out, past, none, ↓reduceIte, ite_self]

theorem Faded.zeroPast {sent queued : List UInt8} (h : Faded sent queued) (size : Nat) :
    Faded (zeroPast sent size) queued := by
  refine ⟨?_, fun i => ?_⟩
  · simp only [Broadcast.zeroPast, List.length_append, List.length_take, List.length_replicate]
    have := h.1
    omega
  · rw [zeroPast_getElem?]
    by_cases hs : i < size
    · simpa only [hs, ↓reduceIte] using h.2 i
    · by_cases hi : i < sent.length
      · simp only [hs, hi, ↓reduceIte, or_true]
      · left
        have := h.1
        simp only [hs, hi, ↓reduceIte]
        exact (List.getElem?_eq_none (by omega)).symm

theorem Faded.append {sent queued : List UInt8} (h : Faded sent queued) (p : List UInt8) :
    Faded (sent ++ p) (queued ++ p) := by
  refine ⟨by simp [h.1], fun i => ?_⟩
  by_cases hi : i < sent.length
  · rw [List.getElem?_append_left hi, List.getElem?_append_left (h.1 ▸ hi)]
    exact h.2 i
  · left
    rw [List.getElem?_append_right (by omega), List.getElem?_append_right (by rw [← h.1]; omega),
      h.1]

/-- A reallocation never repairs a byte, and it damages every byte past the
size that is not a zero already. -/
theorem zeroPast_eq_iff {sent queued : List UInt8} (h : Faded sent queued) (size : Nat) :
    zeroPast sent size = queued ↔ sent = queued ∧ ∀ b ∈ queued.drop size, b = 0 := by
  constructor
  · intro eq
    have at_ : ∀ i : Nat, (zeroPast sent size)[i]? = queued[i]? := fun i => by rw [eq]
    have zeros : ∀ i : Nat, size ≤ i → i < sent.length → queued[i]? = some 0 := by
      intro i hs hi
      rw [← at_, zeroPast_getElem?]
      simp only [show ¬ i < size by omega, hi, ↓reduceIte]
    refine ⟨List.ext_getElem? fun i => ?_, ?_⟩
    · by_cases hs : i < size
      · rw [← at_, zeroPast_getElem?]
        simp only [hs, ↓reduceIte]
      · by_cases hi : i < sent.length
        · rcases h.2 i with same | zero
          · exact same
          · rw [zero, zeros i (by omega) hi]
        · rw [List.getElem?_eq_none (by omega), List.getElem?_eq_none (by rw [← h.1]; omega)]
    · intro b hb
      obtain ⟨i, hi, rfl⟩ := List.mem_iff_getElem.mp hb
      have bound : size + i < queued.length := by simp only [List.length_drop] at hi; omega
      have zero := zeros (size + i) (by omega) (by rw [h.1]; exact bound)
      rw [List.getElem?_eq_getElem bound, Option.some.injEq] at zero
      simpa only [List.getElem_drop] using zero
  · rintro ⟨rfl, zero⟩
    have rest : sent.drop size = List.replicate (sent.length - size) 0 :=
      List.eq_replicate_iff.mpr ⟨List.length_drop, zero⟩
    rw [zeroPast, ← rest, List.take_append_drop]

/-- Whenever a payload makes the block grow, everything queued past the block's
size, that is everything since the growth before except one byte, is zero. -/
def Intact (payloads : List (List UInt8)) : Prop :=
  ∀ before p rest, payloads = before ++ p :: rest → (Extent.after before).Grows p.length →
    ∀ b ∈ before.flatten.drop (Extent.after before).size, b = 0

theorem intact_concat {ps : List (List UInt8)} {p : List UInt8} :
    Intact (ps ++ [p]) ↔ Intact ps ∧
      ((Extent.after ps).Grows p.length → ∀ b ∈ ps.flatten.drop (Extent.after ps).size, b = 0) := by
  constructor
  · intro h
    refine ⟨fun before q rest eq => ?_, h ps p [] rfl⟩
    exact h before q (rest ++ [p]) (by simp [eq])
  · rintro ⟨earlier, last⟩ before q rest eq
    rcases List.eq_nil_or_concat rest with rfl | ⟨rest, r, rfl⟩
    · obtain ⟨rfl, same⟩ := List.append_inj' eq rfl
      obtain rfl : p = q := by simpa using same
      exact last
    · have eq' : ps ++ [p] = (before ++ q :: rest) ++ [r] := by simpa using eq
      exact earlier before q rest (List.append_inj' eq' rfl).1

section
variable {uninit : Nat → UInt8}

/-- From a buffer with its initial lengths and nothing queued, what is sent is a
faded copy of what was queued, and an intact one exactly when `Intact` says so. -/
theorem content_addAll {q : Buffer} (h : q.extent = .start) (ps : List (List UInt8)) :
    Faded (q.addAll uninit ps).content ps.flatten ∧
      ((q.addAll uninit ps).content = ps.flatten ↔ Intact ps) := by
  induction ps using List.reverseRecOn with
  | nil =>
    have empty : q.szLen = 0 := congrArg Extent.len h
    refine ⟨⟨by simp [Buffer.addAll, empty], fun i => ?_⟩, ?_⟩
    · left; simp [Buffer.addAll, Buffer.content, empty]
    · simp [Buffer.addAll, Buffer.content, empty, Intact]
  | append_singleton ps p ih =>
    obtain ⟨faded, exact_⟩ := ih
    have ext : (q.addAll uninit ps).extent = Extent.after ps := by
      rw [Buffer.extent_addAll, h]; rfl
    have next : (q.addAll uninit (ps ++ [p])).content =
        (if (Extent.after ps).Grows p.length then
          zeroPast (q.addAll uninit ps).content (Extent.after ps).size
        else (q.addAll uninit ps).content) ++ p := by
      rw [Buffer.addAll, run_concat, Buffer.content_addDataToQueue, ← ext, zeroPast,
        Buffer.content_length]
      rfl
    rw [next, List.flatten_concat, intact_concat, ← exact_]
    by_cases grows : (Extent.after ps).Grows p.length
    · simp only [grows, ↓reduceIte, forall_const, List.append_left_inj]
      exact ⟨(faded.zeroPast _).append p, zeroPast_eq_iff faded _⟩
    · simp only [grows, ↓reduceIte, List.append_left_inj, false_implies, and_true]
      exact faded.append p

/-- In any round, the bytes sent are the payloads in order if and only if no
growth of the block finds a byte to lose. -/
theorem content_eq_flatten_iff (uninit : Nat → UInt8) (rounds : List (List (List UInt8)))
    (payloads : List (List UInt8)) :
    ((Buffer.afterRounds uninit rounds).addAll uninit payloads).content = payloads.flatten ↔
      Intact payloads :=
  (content_addAll (Buffer.extent_afterRounds rounds) payloads).2

/-- Three payloads of 300, 100 and 200 bytes: the second growth loses most of
the second payload. -/
theorem three_payloads_lose_bytes :
    ((Buffer.afterRounds (fun _ => 0) []).addAll (fun _ => 0)
      [.replicate 300 1, .replicate 100 1, .replicate 200 1]).content ≠
    [List.replicate 300 1, List.replicate 100 1, List.replicate 200 1].flatten := by
  intro same
  have intact := (content_addAll (Buffer.extent_afterRounds []) _).2.mp same
  have lengths : Extent.after [.replicate 300 1, .replicate 100 1] = ⟨301, 512, 400⟩ := by
    simp only [Extent.after, run_cons, run_nil, List.length_replicate]
    simp [Extent.add, Extent.start]
  have zero := intact [.replicate 300 1, .replicate 100 1] (.replicate 200 1) [] rfl
    (by rw [lengths, List.length_replicate]; decide)
  rw [lengths] at zero
  have lost := zero 1 (by simp [-List.reduceReplicate])
  exact absurd lost (by decide)

end

end FlyHub.Broadcast
