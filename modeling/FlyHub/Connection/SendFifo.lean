import FlyHub.Connection.SendBuffer

/-!
# The send buffer is a queue

What the socket has taken, followed by what is still in the buffer, is what was
put in, whatever the sizes of the texts and of the pieces the socket takes; and
no copy leaves the block.
-/

namespace FlyHub.Connection

open FlyHub.Lib

/-- The call returns a result with `P`, or the buffer has reached its maximum. -/
def Ends {α : Type} (r : Except Stop α) (P : α → Prop) : Prop :=
  match r with
  | .ok x => P x
  | .error e => e = .overflow

section
variable {α β : Type} {r : Except Stop α} {P : α → Prop}

theorem Ends.bind {f : α → Except Stop β} {Q : β → Prop} (first : Ends r P)
    (rest : ∀ x, P x → Ends (f x) Q) : Ends (r >>= f) Q := by
  cases r with
  | ok x => exact rest x first
  | error e => exact first

theorem ends_pure {x : α} (h : P x) : Ends (pure x) P := h

theorem inside_bind {o : Option α} {x : α} {f : α → Except Stop β} (h : o = some x) :
    (inside o >>= f) = f x := by
  rw [h]
  rfl

end

namespace SendBuffer

/-- The head lies in the data, the data in the buffer, and the block has one byte
more than the buffer. -/
structure Valid (s : SendBuffer) : Prop where
  head_le : s.head ≤ s.sendBufDataLen
  data_le : s.sendBufDataLen ≤ s.sendBufLen
  block : s.pSendBuf.elim 0 List.length = if s.pSendBuf.isSome then s.sendBufLen + 1 else s.sendBufLen

/-- The bytes still to be sent. -/
def pending (s : SendBuffer) : Text :=
  (s.pSendBuf.elim [] fun buf => buf.take s.sendBufDataLen).drop s.head

section
variable {s : SendBuffer} {buf : List UInt8}

theorem Valid.length (valid : s.Valid) (some_ : s.pSendBuf = some buf) :
    buf.length = s.sendBufLen + 1 := by
  have block := valid.block
  simpa [some_] using block

theorem Valid.empty (valid : s.Valid) (none_ : s.pSendBuf = none) :
    s.sendBufLen = 0 ∧ s.sendBufDataLen = 0 ∧ s.head = 0 := by
  have block := valid.block
  have data := valid.data_le
  have head := valid.head_le
  simp only [none_, Option.elim_none, Option.isSome_none] at block
  simp at block
  omega

theorem pending_some (some_ : s.pSendBuf = some buf) :
    s.pending = (buf.take s.sendBufDataLen).drop s.head := by
  simp [pending, some_]

/-- Moving the data to the front makes room for as many bytes as were sent. -/
theorem compact_ends (valid : s.Valid) (some_ : s.pSendBuf = some buf) :
    Ends (s.compact buf) fun s' => s'.Valid ∧ s'.pending = s.pending ∧ s'.pSendBuf.isSome ∧
      s'.sendBufDataLen = s.sendBufDataLen - s.head ∧ s'.sendBufLen = s.sendBufLen := by
  have length := valid.length some_
  have head_le := valid.head_le
  have data_le := valid.data_le
  have read : readAt buf s.head (s.sendBufDataLen - s.head) =
      some ((buf.drop s.head).take (s.sendBufDataLen - s.head)) := readAt_of_le (by omega)
  have size : ((buf.drop s.head).take (s.sendBufDataLen - s.head)).length =
      s.sendBufDataLen - s.head := by
    simp
    omega
  obtain ⟨buf', write, written⟩ := writeAt_of_le buf 0
    ((buf.drop s.head).take (s.sendBufDataLen - s.head)) (by omega)
  have front := written.upTo
  rw [size] at front
  simp only [Nat.zero_add, List.take_zero, List.nil_append] at front
  rw [compact, inside_bind read, inside_bind write]
  refine ⟨⟨Nat.zero_le _, ?_, ?_⟩, ?_, rfl, rfl, rfl⟩
  · dsimp only
    omega
  · simp [written.length, length]
  · rw [pending_some some_, pending_some rfl, List.drop_zero]
    rw [front, List.take_drop]
    congr 2
    omega

/-- The data keeps its place in the new block. -/
theorem realloc_ends {n : Nat} (valid : s.Valid) (room : s.sendBufDataLen < n) :
    Ends (s.realloc n) fun s' => s'.Valid ∧ s'.pending = s.pending ∧ s'.pSendBuf.isSome ∧
      s'.sendBufDataLen = s.sendBufDataLen ∧ s'.sendBufLen = n - 1 := by
  cases old : s.pSendBuf with
  | none =>
    obtain ⟨-, data, head⟩ := valid.empty old
    simp only [realloc, old]
    refine ⟨⟨Nat.zero_le _, ?_, ?_⟩, ?_, rfl, rfl, rfl⟩
    · dsimp only
      omega
    · simp
      omega
    · simp [pending, old, data]
  | some buf =>
    have length := valid.length old
    have head_le := valid.head_le
    have data_le := valid.data_le
    have read : readAt buf 0 s.sendBufDataLen = some (buf.take s.sendBufDataLen) := by
      rw [readAt_of_le (by omega), List.drop_zero]
    have size : (buf.take s.sendBufDataLen).length = s.sendBufDataLen := by
      simp
      omega
    obtain ⟨buf', write, written⟩ := writeAt_of_le (List.replicate n (0 : UInt8)) 0
      (buf.take s.sendBufDataLen) (by simp; omega)
    have front := written.upTo
    rw [size] at front
    simp only [Nat.zero_add, List.take_zero, List.nil_append] at front
    have step : s.realloc n =
        pure { s with pSendBuf := some buf', sendBufLen := n - 1, head := s.head } := by
      simp only [realloc, old]
      rw [inside_bind read, write]
      rfl
    rw [step]
    refine ⟨⟨head_le, ?_, ?_⟩, ?_, rfl, rfl, rfl⟩
    · dsimp only
      omega
    · simp [written.length]
      omega
    · rw [pending_some old, pending_some rfl, front]

/-- There is room for a text of `txt` bytes, or will be in a new block of `n`. -/
structure Room (s s' : SendBuffer) (txt n : Nat) : Prop where
  valid : s'.Valid
  pending : s'.pending = s.pending
  stays : n = 0 → s'.pSendBuf.isSome ∧ s'.sendBufDataLen + txt ≤ s'.sendBufLen
  moves : n ≠ 0 → s'.sendBufDataLen + txt < n

theorem makeRoom_ends {txt : Nat} (valid : s.Valid) (full : 0 < txt)
    (myInfosTagLen myInfosLen : UInt32) :
    Ends (s.makeRoom txt myInfosTagLen myInfosLen) fun room => Room s room.1 txt room.2 := by
  have head_le := valid.head_le
  have data_le := valid.data_le
  have grown := lt_allign (s.sendBufDataLen + txt)
  unfold makeRoom
  dsimp only
  split
  · have grow : Room s s txt (allign (s.sendBufDataLen + txt)) :=
      ⟨valid, rfl, fun zero => by omega, fun _ => grown⟩
    cases old : s.pSendBuf with
    | none => exact grow
    | some buf =>
      dsimp only
      split
      · rename_i free
        apply (compact_ends valid old).bind
        rintro s' ⟨valid', pending', some', data', len'⟩
        refine ends_pure ⟨valid', pending', fun _ => ⟨some', ?_⟩, fun ne => absurd rfl ne⟩
        dsimp only
        rw [data', len']
        omega
      · split
        · rfl
        · exact grow
  · rename_i fits
    have some_ : s.pSendBuf.isSome := by
      cases old : s.pSendBuf with
      | some buf => rfl
      | none =>
        have empty := valid.empty old
        omega
    split
    · apply ends_pure
      have shrunk : ({ s with sendCalled := 0 } : SendBuffer).Valid :=
        ⟨valid.head_le, valid.data_le, valid.block⟩
      refine ⟨shrunk, rfl, fun _ => ⟨some_, ?_⟩, fun ne => ?_⟩
      · dsimp only
        omega
      · split at ne
        · exact absurd rfl ne
        · rename_i smaller
          rw [if_neg smaller]
          exact grown
    · refine ends_pure ⟨valid, rfl, fun _ => ⟨some_, ?_⟩, fun ne => absurd rfl ne⟩
      dsimp only
      omega

theorem append_ends {sText : Text} (valid : s.Valid) (some_ : s.pSendBuf.isSome)
    (room : s.sendBufDataLen + sText.length ≤ s.sendBufLen) :
    Ends (s.append sText) fun s' => s'.Valid ∧ s'.pending = s.pending ++ sText := by
  obtain ⟨buf, old⟩ := Option.isSome_iff_exists.mp some_
  have length := valid.length old
  have head_le := valid.head_le
  obtain ⟨buf₁, write₁, written₁⟩ := writeAt_of_le buf s.sendBufDataLen sText (by omega)
  have length₁ := written₁.length
  obtain ⟨buf₂, write₂, written₂⟩ := writeAt_of_le buf₁
    (s.sendBufDataLen + sText.length) [0] (by simp; omega)
  have front := (written₂.before (Nat.le_refl _)).trans written₁.upTo
  rw [append, inside_bind old, inside_bind write₁, inside_bind write₂]
  refine ⟨⟨?_, room, ?_⟩, ?_⟩
  · dsimp only
    omega
  · simp [written₂.length, length₁, length]
  · rw [pending_some old, pending_some rfl, front]
    rw [List.drop_append_of_le_length (by simp; omega)]

theorem putInSendBuf_ends {sText : Text} (valid : s.Valid) (full : sText ≠ [])
    (myInfosTagLen myInfosLen : UInt32) :
    Ends (s.putInSendBuf sText myInfosTagLen myInfosLen) fun s' =>
      s'.Valid ∧ s'.pending = s.pending ++ sText := by
  have called : ({ s with sendCalled := s.sendCalled + 1 } : SendBuffer).Valid :=
    ⟨valid.head_le, valid.data_le, valid.block⟩
  unfold putInSendBuf
  apply (makeRoom_ends called (List.length_pos_iff.mpr full) myInfosTagLen myInfosLen).bind
  rintro ⟨s', n⟩ room
  have same : s'.pending = s.pending := room.pending
  dsimp only at room ⊢
  split
  · rename_i moves
    have enough := room.moves moves
    apply (realloc_ends room.valid (by omega)).bind
    rintro s'' ⟨valid', pending', some', data', len'⟩
    rw [← same, ← pending']
    apply append_ends valid' some'
    omega
  · rename_i stays
    have enough := room.stays (by simpa using stays)
    rw [← same]
    exact append_ends room.valid enough.1 enough.2

theorem drained_ends (valid : s.Valid) : s.drained.Valid ∧ s.drained.pending = [] := by
  unfold drained
  split
  · exact ⟨⟨Nat.le_refl _, Nat.le_refl _, rfl⟩, rfl⟩
  · refine ⟨⟨Nat.le_refl _, Nat.zero_le _, ?_⟩, ?_⟩
    · have block := valid.block
      cases old : s.pSendBuf with
      | none => simpa [old] using block
      | some buf => simpa [old] using block
    · cases s.pSendBuf <;> simp [pending]

/-- The socket takes bytes from the front of the data. -/
theorem try2Send_ends (valid : s.Valid) (result : SocketResult) :
    Ends (s.try2Send result) fun r => r.1.Valid ∧ r.2 ++ r.1.pending = s.pending := by
  have head_le := valid.head_le
  have data_le := valid.data_le
  unfold try2Send
  split
  · exact ends_pure ⟨valid, rfl⟩
  · rename_i ready
    have full : s.sendBufDataLen ≠ 0 := by simp at ready; exact ready.2
    rw [if_neg (by omega)]
    cases result with
    | wouldBlock => exact ends_pure ⟨valid, rfl⟩
    | failed => exact ends_pure ⟨⟨head_le, data_le, valid.block⟩, rfl⟩
    | sent n =>
      obtain ⟨buf, old⟩ : ∃ buf, s.pSendBuf = some buf := by
        cases old : s.pSendBuf with
        | some buf => exact ⟨buf, rfl⟩
        | none => exact absurd (valid.empty old).2.1 full
      have length := valid.length old
      dsimp only
      have read : readAt buf s.head (min (s.sendBufDataLen - s.head) 32768) =
          some ((buf.drop s.head).take (min (s.sendBufDataLen - s.head) 32768)) :=
        readAt_of_le (by omega)
      have data : s.pending = (buf.drop s.head).take (s.sendBufDataLen - s.head) := by
        rw [pending_some old, List.drop_take]
      have taken (m : Nat) (le : m ≤ min (s.sendBufDataLen - s.head) 32768) :
          ((buf.drop s.head).take (min (s.sendBufDataLen - s.head) 32768)).take m =
            s.pending.take m := by
        rw [data, List.take_take, List.take_take]
        congr 1
        omega
      rw [inside_bind old, inside_bind read, taken _ (by omega)]
      split
      · rename_i rest
        refine ends_pure ⟨⟨?_, data_le, valid.block⟩, ?_⟩
        · dsimp only
          omega
        · have later (m : Nat) : ({ s with head := s.head + m } : SendBuffer).pending =
              s.pending.drop m := by simp only [pending, List.drop_drop]
          dsimp only
          rw [later, List.take_append_drop]
      · rename_i all
        have drained := drained_ends valid
        refine ends_pure ⟨drained.1, ?_⟩
        rw [drained.2, List.append_nil, List.take_of_length_le]
        rw [data, List.length_take, List.length_drop]
        omega

end

end SendBuffer

/-- What happens to the send buffer of a user. `bigList` is the mark that a list
of users is about to be put in. -/
inductive SendEvent where
  | put (sText : Text) (full : sText ≠ []) (myInfosTagLen myInfosLen : UInt32)
  | send (result : SocketResult)
  | bigList

/-- The send buffer, what the socket has taken and the texts that were put in. -/
structure SendTrace where
  buffer : SendBuffer
  socket : Text
  accepted : List Text

namespace SendTrace

def init : SendTrace := ⟨.init, [], []⟩

def step (t : SendTrace) : SendEvent → Except Stop SendTrace
  | .put sText _ myInfosTagLen myInfosLen => do
    let buffer ← t.buffer.putInSendBuf sText myInfosTagLen myInfosLen
    pure { t with buffer := buffer, accepted := t.accepted ++ [sText] }
  | .send result => do
    let sent ← t.buffer.try2Send result
    pure { t with buffer := sent.1, socket := t.socket ++ sent.2 }
  | .bigList => pure { t with buffer := { t.buffer with bigSendBuffer := true } }

/-- What was put in is what the socket took and what is still in the buffer. -/
structure Fifo (t : SendTrace) : Prop where
  valid : t.buffer.Valid
  order : t.socket ++ t.buffer.pending = t.accepted.flatten

theorem step_fifo {t : SendTrace} (fifo : t.Fifo) (e : SendEvent) : Ends (t.step e) Fifo := by
  cases e with
  | put sText full myInfosTagLen myInfosLen =>
    apply (SendBuffer.putInSendBuf_ends fifo.valid full myInfosTagLen myInfosLen).bind
    rintro buffer ⟨valid, pending⟩
    refine ends_pure ⟨valid, ?_⟩
    dsimp only
    rw [pending, ← List.append_assoc, fifo.order]
    simp
  | send result =>
    apply (SendBuffer.try2Send_ends fifo.valid result).bind
    rintro ⟨buffer, bytes⟩ ⟨valid, pending⟩
    refine ends_pure ⟨valid, ?_⟩
    dsimp only at pending ⊢
    rw [List.append_assoc, pending, fifo.order]
  | bigList => exact ends_pure ⟨⟨fifo.valid.head_le, fifo.valid.data_le, fifo.valid.block⟩, fifo.order⟩

/-- Whatever is put in and whatever the socket takes, the buffer is a queue until a
text would make it grow over its maximum, and no copy ever leaves the block. -/
theorem send_buffer_fifo (es : List SendEvent) : Ends (es.foldlM step init) Fifo := by
  have keeps (t : SendTrace) (fifo : t.Fifo) : Ends (es.foldlM step t) Fifo := by
    induction es generalizing t with
    | nil => exact fifo
    | cons e es ih =>
      rw [List.foldlM_cons]
      exact (step_fifo fifo e).bind fun t' fifo' => ih t' fifo'
  exact keeps init ⟨⟨Nat.le_refl _, Nat.le_refl _, rfl⟩, rfl⟩

end SendTrace

end FlyHub.Connection
