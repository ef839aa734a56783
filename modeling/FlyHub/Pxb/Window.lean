import FlyHub.Pxb.Format

/-!
# The window on the file

The reader sees the file through the global buffer. What lies ahead of its position,
with what was not read yet, is the rest of the file, wherever the parts end.
-/

namespace FlyHub.Pxb

open FlyHub.Lib

namespace PXBReader

/-- The bytes in the buffer from the position on. -/
def ahead (r : PXBReader) : Text := r.buffer.drop r.actualPosition

/-- The rest of the file. -/
def rest (r : PXBReader) : Text := r.ahead ++ r.file

/-- The position and the remaining size agree with the bytes that were read. -/
structure Valid (r : PXBReader) : Prop where
  window : r.actualPosition + r.remainingSize = r.buffer.length
  fits : r.buffer.length ≤ globalBuffSize
  full : r.fullRead = true → r.file = []
  arrays : r.itemLengths.length = r.itemDatas.length

section
variable {r r' : PXBReader} {off n : Nat}

theorem Valid.ahead_length (valid : r.Valid) : r.ahead.length = r.remainingSize := by
  have window := valid.window
  rw [ahead, List.length_drop]
  omega

theorem Valid.look (valid : r.Valid) (inside : off + n ≤ r.remainingSize) :
    r.look off n = some ((r.ahead.drop off).take n) := by
  have window := valid.window
  rw [PXBReader.look, readAt_of_le (by omega), ahead, List.drop_drop]

/-- What the reader sees in the buffer is what comes next in the file. -/
theorem Valid.ahead_take (valid : r.Valid) (inside : n ≤ r.remainingSize) :
    r.ahead.take n = r.rest.take n := by
  have length := valid.ahead_length
  rw [rest, List.take_append_of_le_length (by omega)]

theorem Valid.remaining_le (valid : r.Valid) : r.remainingSize ≤ r.rest.length := by
  have length := valid.ahead_length
  rw [rest, List.length_append]
  omega

theorem Valid.remaining_fits (valid : r.Valid) : r.remainingSize ≤ globalBuffSize := by
  have window := valid.window
  have fits := valid.fits
  omega

theorem Valid.advance (valid : r.Valid) (inside : n ≤ r.remainingSize) :
    (r.advance n).Valid ∧ (r.advance n).ahead = r.ahead.drop n ∧
      (r.advance n).remainingSize = r.remainingSize - n := by
  have window := valid.window
  have less := wrapSub_of_le (m := sizeT) inside
  refine ⟨⟨?_, valid.fits, valid.full, valid.arrays⟩, ?_, less⟩
  · simp only [PXBReader.advance, less]
    omega
  · rw [ahead, ahead, List.drop_drop]
    rfl

theorem Valid.advance_rest (valid : r.Valid) (inside : n ≤ r.remainingSize) :
    (r.advance n).rest = r.rest.drop n := by
  have length := valid.ahead_length
  rw [rest, (valid.advance inside).2.1, rest, List.drop_append_of_le_length (by omega)]
  rfl

/-- The same rest of the file, and the same arrays. -/
structure SameFile (r r' : PXBReader) : Prop where
  rest : r'.rest = r.rest
  datas : r'.itemDatas = r.itemDatas
  lengths : r'.itemLengths = r.itemLengths

/-- After a part is read the window is as large as the buffer, or the file ends in it. -/
theorem Valid.readNextFilePart (valid : r.Valid) :
    ∃ r', r.readNextFilePart = some r' ∧ r'.Valid ∧ SameFile r r' ∧
      r'.remainingSize = min globalBuffSize r.rest.length ∧
      (r'.fullRead = false → r'.remainingSize = globalBuffSize) := by
  have length := valid.ahead_length
  have fits := valid.remaining_fits
  have room : wrapSub sizeT globalBuffSize r.remainingSize = globalBuffSize - r.remainingSize :=
    wrapSub_of_le fits
  have moved : r.look 0 r.remainingSize = some r.ahead := by
    rw [valid.look (by omega), List.drop_zero, List.take_of_length_le (by omega)]
  have all := List.take_append_drop (globalBuffSize - r.remainingSize) r.file
  have size := List.length_take (i := globalBuffSize - r.remainingSize) (l := r.file)
  have read : r.readNextFilePart = some
      { r with
        file := r.file.drop (globalBuffSize - r.remainingSize)
        buffer := r.ahead ++ r.file.take (globalBuffSize - r.remainingSize)
        actualPosition := 0
        remainingSize := r.remainingSize + (r.file.take (globalBuffSize - r.remainingSize)).length
        fullRead := r.fullRead || (r.file.take (globalBuffSize - r.remainingSize)).length ≠
          globalBuffSize - r.remainingSize } := by
    rw [PXBReader.readNextFilePart, moved, room]
    rfl
  refine ⟨_, read, ?_, ⟨?_, rfl, rfl⟩, ?_, ?_⟩
  · refine ⟨?_, ?_, ?_, valid.arrays⟩
    · simp only [List.length_append]
      omega
    · simp only [List.length_append]
      omega
    · intro full
      simp only [Bool.or_eq_true, decide_eq_true_eq] at full
      rw [List.drop_eq_nil_iff]
      cases full with
      | inl full =>
        rw [valid.full full]
        exact Nat.zero_le _
      | inr short => omega
  · simp only [rest, ahead, List.drop_zero]
    rw [List.append_assoc, all]
  · simp only [rest, List.length_append]
    omega
  · intro more
    simp only [Bool.or_eq_false_iff, decide_eq_false_iff_not, not_not] at more
    dsimp only
    omega

/-- When the next `n` bytes of the file can be in the buffer, the call goes on with them. -/
theorem Valid.ensure_enough (valid : r.Valid) (next : PXBReader → Outcome)
    (enough : n ≤ min globalBuffSize r.rest.length) :
    ∃ r', r.ensure n next = next r' ∧ r'.Valid ∧ SameFile r r' ∧ n ≤ r'.remainingSize ∧
      if n ≤ r.remainingSize then r' = r
      else r.fullRead = false ∧ (r'.fullRead = false → r'.remainingSize = globalBuffSize) := by
  unfold ensure
  split
  · rename_i short
    have more : r.fullRead = false := by
      cases full : r.fullRead with
      | false => rfl
      | true =>
        have all := valid.ahead_length
        rw [rest, valid.full full, List.append_nil] at enough
        omega
    obtain ⟨r', read, valid', same, size, window⟩ := valid.readNextFilePart
    refine ⟨r', ?_, valid', same, by omega, ?_⟩
    · rw [more, read]
      dsimp only
      rw [if_neg (by decide), if_neg (by omega)]
    · rw [if_neg (by omega)]
      exact ⟨more, window⟩
  · rename_i here
    refine ⟨r, rfl, valid, ⟨rfl, rfl, rfl⟩, by omega, ?_⟩
    rw [if_pos (by omega)]

theorem Valid.ensure_short (valid : r.Valid) (next : PXBReader → Outcome)
    (short : min globalBuffSize r.rest.length < n) :
    ∃ r', r.ensure n next = .returned false r' ∧ r'.Valid := by
  have remaining := valid.remaining_le
  have fits := valid.remaining_fits
  unfold ensure
  rw [if_pos (by omega)]
  split
  · exact ⟨r, rfl, valid⟩
  · obtain ⟨r', read, valid', -, size, -⟩ := valid.readNextFilePart
    refine ⟨r', ?_, valid'⟩
    rw [read]
    dsimp only
    rw [if_pos (by omega)]

theorem Valid.clear (valid : r.Valid) : r.clear.Valid := by
  refine ⟨valid.window, valid.fits, valid.full, ?_⟩
  simp [PXBReader.clear, valid.arrays]

end

end PXBReader

/-- The size of the item at the front of the file, if all of it can be in the buffer. -/
def itemSize (rest : Text) : Option Nat :=
  if 4 ≤ rest.length ∧ ofBE (rest.take 4) ≤ min globalBuffSize rest.length then
    some (ofBE (rest.take 4))
  else none

namespace PXBReader

section
variable {r : PXBReader} {size : Nat}

theorem lt_globalBuffSize : 4 ≤ globalBuffSize := by decide

/-- The loop is entered with an item that lies in the buffer. -/
theorem Valid.enter_item (valid : r.Valid) (some_ : r.remainingSize ≠ 0)
    (item : itemSize r.rest = some size) :
    ∃ r', r.enter = .running ⟨r'.advance 4, wrapSub uint32T size 4, 0⟩ ∧ r'.Valid ∧
      SameFile r.clear r' ∧ 4 ≤ r'.remainingSize ∧ size ≤ r'.remainingSize ∧
      (4 ≤ size → if size ≤ r.remainingSize then r' = r.clear
        else r.fullRead = false ∧ (r'.fullRead = false → r'.remainingSize = globalBuffSize)) := by
  have big := lt_globalBuffSize
  obtain ⟨⟨header, whole⟩, some_size⟩ := Option.ite_none_right_eq_some.mp item
  obtain rfl := Option.some.inj some_size
  have cleared : r.clear.rest = r.rest := rfl
  have remaining : r.clear.remainingSize = r.remainingSize := rfl
  obtain ⟨r₁, first, valid₁, same₁, header₁, window₁⟩ := valid.clear.ensure_enough (n := 4)
    enterItem (by rw [cleared]; omega)
  have bytes : r₁.look 0 4 = some (r.rest.take 4) := by
    rw [valid₁.look header₁, List.drop_zero, valid₁.ahead_take header₁, same₁.rest, cleared]
  obtain ⟨r₂, second, valid₂, same₂, whole₂, window₂⟩ :=
    valid₁.ensure_enough (n := ofBE (r.rest.take 4))
    (fun r' => .running ⟨r'.advance 4, wrapSub uint32T (ofBE (r.rest.take 4)) 4, 0⟩)
    (by rw [same₁.rest, cleared]; exact whole)
  have header₂ : 4 ≤ r₂.remainingSize := by
    split at window₂
    · rw [window₂]
      exact header₁
    · omega
  refine ⟨r₂, ?_, valid₂, ?_, header₂, whole₂, ?_⟩
  · rw [enter, if_neg some_, first, enterItem, bytes]
    exact second
  · exact ⟨same₂.rest.trans same₁.rest, same₂.datas.trans same₁.datas,
      same₂.lengths.trans same₁.lengths⟩
  · intro proper
    rw [remaining] at window₁
    split
    · rw [if_pos (by omega)] at window₁
      subst window₁
      rw [remaining, if_pos (by omega)] at window₂
      exact window₂
    · split at window₁
      · subst window₁
        rw [remaining, if_neg (by omega)] at window₂
        exact window₂
      · split at window₂
        · rw [window₂]
          exact window₁
        · exact ⟨window₁.1, window₂.2⟩

theorem Valid.enter_none (valid : r.Valid)
    (none_ : r.remainingSize = 0 ∨ itemSize r.rest = none) :
    ∃ r', r.enter = .returned false r' ∧ r'.Valid := by
  by_cases zero : r.remainingSize = 0
  · exact ⟨r, by rw [enter, if_pos zero], valid⟩
  · have item := none_.resolve_left zero
    have big := lt_globalBuffSize
    have cleared : r.clear.rest = r.rest := rfl
    rw [enter, if_neg zero]
    by_cases header : 4 ≤ r.rest.length
    · obtain ⟨r₁, first, valid₁, same₁, header₁, -⟩ := valid.clear.ensure_enough (n := 4)
        enterItem (by rw [cleared]; omega)
      have bytes : r₁.look 0 4 = some (r.rest.take 4) := by
        rw [valid₁.look header₁, List.drop_zero, valid₁.ahead_take header₁, same₁.rest, cleared]
      rw [first, enterItem, bytes]
      apply valid₁.ensure_short
      rw [same₁.rest, cleared]
      unfold itemSize at item
      split at item
      · contradiction
      · omega
    · apply valid.clear.ensure_short
      rw [cleared]
      omega

end

end PXBReader

theorem openFileRead_valid (file : Text) (ui8SubItems : UInt8) :
    (PXBReader.openFileRead file ui8SubItems).2.Valid := by
  unfold PXBReader.openFileRead
  dsimp only
  split
  · refine ⟨rfl, Nat.zero_le _, by simp, by simp⟩
  · refine ⟨?_, ?_, ?_, by simp⟩
    · simp
    · rw [List.length_take]
      omega
    · intro full
      simp only [decide_eq_true_eq] at full
      rw [List.drop_eq_nil_iff]
      omega

end FlyHub.Pxb
