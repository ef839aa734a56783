import FlyHub.Connection.KeepSlow
import FlyHub.Lib.Occurrence

/-!
# Own searches

A user is not to be sent what he has searched for himself. In a round of searches
`ProcessQueues` puts the whole queue into his send buffer and takes his own searches out
again.
-/

namespace FlyHub.Connection

open FlyHub.Lib

def isZero (c : UInt8) : Bool := c = 0

/-- A search that waits for the round of searches. -/
structure PendingSearch where
  text : Text
  some_ : text ≠ []
  noZero : ∀ c ∈ text, isZero c = false

/-- What sending a queue reads of a user. One of IPv4 has no search of IPv6. -/
structure Recipient where
  buf : SendBuffer
  sharedSize : Nat
  ipv6 : Bool
  zpipe : Bool
  active6 : Option PendingSearch
  active4 : Option PendingSearch
  closed : Bool
  only : ipv6 = false → active6 = none

structure SendSettings where
  searchRound : Bool
  keepSlowUsers : Bool
  myInfosTagLen : UInt32
  myInfosLen : UInt32

/-- Why `ProcessQueues` does not return. -/
inductive Fault where
  | outside
  /-- A search is read that is no more. -/
  | released
  deriving DecidableEq

namespace SendBuffer

/-- `RemFromSendBuf`. `strstr` reads up to an end of text, which has to be in the block. -/
def remFromSendBuf (s : SendBuffer) (sData : Text) (sbLen : Nat) : Except Stop SendBuffer := do
  let buf ← inside s.pSendBuf
  if 0 ∉ buf.drop sbLen then .error .outside
  else
    match firstAt sData (field isZero (buf.drop sbLen)) with
    | none => pure s
    | some i => do
      let match_ := sbLen + i
      if s.sendBufDataLen < match_ + sData.length then .error .outside
      else
        let rest ← inside
          (readAt buf (match_ + sData.length) (s.sendBufDataLen - (match_ + sData.length)))
        let buf ← inside (writeAt buf match_ rest)
        let buf ← inside (writeAt buf (s.sendBufDataLen - sData.length) [0])
        pure { s with pSendBuf := some buf, sendBufDataLen := s.sendBufDataLen - sData.length }

end SendBuffer

namespace Recipient

variable (set : SendSettings) (u : Recipient)

/-- What `Close` does to the buffer and the searches. -/
def close : Recipient :=
  { u with
    buf := { u.buf with sendCalled := u.buf.sendCalled + 1, error := true }
    active6 := none
    active4 := none
    closed := true
    only := fun _ => rfl }

def dropSearches : Recipient := { u with active6 := none, active4 := none, only := fun _ => rfl }

/-- `PutInSendBuf`, which closes a slow user or keeps him. -/
def put (sText : Text) : Except Fault Recipient :=
  match u.buf.putInSendBuf sText set.myInfosTagLen set.myInfosLen with
  | .ok s => pure { u with buf := s }
  | .error .outside => .error .outside
  | .error .overflow =>
    if !set.keepSlowUsers || u.zpipe then pure u.close
    else
      match u.buf.putKeeping sText set.myInfosTagLen set.myInfosLen with
      | .ok s => pure { u with buf := s }
      | .error _ => .error .outside

def rem (sData : Text) (sbLen : Nat) : Except Fault Recipient :=
  match u.buf.remFromSendBuf sData sbLen with
  | .ok s => pure { u with buf := s }
  | .error _ => .error .outside

/-- A user whose own searches have to be taken out. -/
def removes : Bool :=
  set.searchRound && u.sharedSize ≠ 0 && (u.ipv6 || u.active4.isSome)

def searchLens : Nat :=
  (u.active6.elim 0 fun c => c.text.length) + u.active4.elim 0 fun c => c.text.length

/-- The compressed queue is sent, the own searches with it, where that is shorter than the
queue without them. The lengths are of 64 bits. -/
def zipped (queue z : Text) : Bool :=
  u.zpipe && z ≠ [] &&
    (!u.removes set || z.length ≤ (queue.length + 18446744073709551616 - u.searchLens) %
      18446744073709551616)

/-- Where the queue begins in the send buffer, from the length that is remembered: "check if
adding of searchs not cause buffer overflow". -/
def queueAt (sbLen : Nat) : Nat := if u.buf.sendBufDataLen ≤ sbLen then 0 else sbLen

def remove6 (sbLen : Nat) : Except Fault Recipient :=
  match u.active6 with
  | some c => do
    let u ← u.rem c.text sbLen
    pure { u with active6 := none, only := fun _ => rfl }
  | none => pure u

def remove4 (sbLen : Nat) : Except Fault Recipient :=
  match u.active4 with
  | some c => do
    let u ← u.rem c.text sbLen
    pure { u with active4 := none }
  | none => pure u

/-- What `ProcessQueues` does with the queue of a user, and with `z`, the queue compressed. -/
def processQueues (queue z : Text) : Except Fault Recipient :=
  if queue = [] then pure (if set.searchRound then u.dropSearches else u)
  else if u.removes set then
    if u.zipped set queue z then do
      let u ← u.put set z
      pure u.dropSearches
    else do
      let sbLen := u.buf.sendBufDataLen
      let after ← u.put set queue
      if u.ipv6 then do
        let v ← after.remove6 (after.queueAt sbLen)
        v.remove4 (after.queueAt sbLen)
      else if after.active4.isNone then .error .released
      else after.remove4 (after.queueAt sbLen)
  else
    let kept := if set.searchRound && u.sharedSize = 0 then u.dropSearches else u
    kept.put set (if u.zipped set queue z then z else queue)

end Recipient

/-! ## Where a text is put -/

namespace SendBuffer

/-- The data is moved to the front of the block to make room for a text of `n` bytes. -/
def Moves (s : SendBuffer) (n : Nat) : Prop :=
  s.sendBufLen < s.sendBufDataLen + n ∧ s.pSendBuf.isSome ∧ n < s.head

/-- A text of `n` bytes would make the buffer grow past its maximum. -/
def Overflows (s : SendBuffer) (n : Nat) (myInfosTagLen myInfosLen : UInt32) : Prop :=
  s.sendBufLen < s.sendBufDataLen + n ∧ s.pSendBuf.isSome ∧ s.head ≤ n ∧
    maxBufLen s.bigSendBuffer myInfosTagLen myInfosLen < allign (s.sendBufDataLen + n)

/-- An end of text stands behind the data. -/
def Terminated (s : SendBuffer) : Prop :=
  ∃ buf, s.pSendBuf = some buf ∧ buf[s.sendBufDataLen]? = some 0

section
variable {s s' : SendBuffer} {sText : Text} {n m : Nat} {myInfosTagLen myInfosLen : UInt32}

theorem inside_ok {α : Type} {o : Option α} {x : α} (done : inside o = .ok x) : o = some x := by
  cases o with
  | none => cases done
  | some y => exact congrArg some (Except.ok.inj done)

theorem compact_place {buf : List UInt8} (done : s.compact buf = .ok s') :
    s'.head = 0 ∧ s'.sendBufDataLen = s.sendBufDataLen - s.head := by
  obtain ⟨_, -, done⟩ := bind_ok done
  obtain ⟨_, -, done⟩ := bind_ok done
  cases done
  exact ⟨rfl, rfl⟩

theorem compact_ne {buf : List UInt8} : s.compact buf ≠ .error .overflow :=
  inside_bind_ne fun _ => inside_bind_ne fun _ eq => nomatch eq

/-- Room is made by moving the data, or leaves it where it is. -/
theorem makeRoom_place (done : s.makeRoom n myInfosTagLen myInfosLen = .ok (s', m)) :
    ¬s.Overflows n myInfosTagLen myInfosLen ∧
      (s.Moves n → s'.head = 0 ∧ s'.sendBufDataLen = s.sendBufDataLen - s.head ∧ m = 0) ∧
      (¬s.Moves n → s'.head = s.head ∧ s'.sendBufDataLen = s.sendBufDataLen ∧
        s'.pSendBuf = s.pSendBuf) := by
  unfold makeRoom at done
  dsimp only at done
  split at done
  · rename_i full
    split at done
    · rename_i none_
      cases done
      refine ⟨fun past => ?_, fun moves => ?_, fun _ => ⟨rfl, rfl, rfl⟩⟩
      · have some_ := past.2.1
        rw [none_] at some_
        cases some_
      · have some_ := moves.2.1
        rw [none_] at some_
        cases some_
    · rename_i buf at_
      split at done
      · rename_i free
        obtain ⟨t, moved, done⟩ := bind_ok done
        cases done
        obtain ⟨head, data⟩ := compact_place moved
        refine ⟨fun past => ?_, fun _ => ⟨head, data, rfl⟩, fun stays => ?_⟩
        · exact absurd free (Nat.not_lt.mpr past.2.2.1)
        · exact absurd ⟨full, by rw [at_]; rfl, free⟩ stays
      · rename_i sent
        split at done
        · cases done
        · rename_i small
          cases done
          exact ⟨fun past => small past.2.2.2, fun moves => absurd moves.2.2 sent,
            fun _ => ⟨rfl, rfl, rfl⟩⟩
  · rename_i fits
    split at done
    · cases done
      exact ⟨fun past => fits past.1, fun moves => absurd moves.1 fits, fun _ => ⟨rfl, rfl, rfl⟩⟩
    · cases done
      exact ⟨fun past => fits past.1, fun moves => absurd moves.1 fits, fun _ => ⟨rfl, rfl, rfl⟩⟩

theorem makeRoom_overflows
    (stopped : s.makeRoom n myInfosTagLen myInfosLen = .error .overflow) :
    s.Overflows n myInfosTagLen myInfosLen := by
  unfold makeRoom at stopped
  dsimp only at stopped
  split at stopped
  · rename_i full
    split at stopped
    · cases stopped
    · rename_i buf at_
      split at stopped
      · cases moved : s.compact buf with
        | ok t =>
          rw [moved] at stopped
          cases stopped
        | error e =>
          rw [moved] at stopped
          exact absurd (moved.trans (congrArg _ (Except.error.inj stopped))) compact_ne
      · rename_i sent
        split at stopped
        · rename_i big
          exact ⟨full, by rw [at_]; rfl, Nat.not_lt.mp sent, big⟩
        · cases stopped
  · split at stopped <;> cases stopped

theorem realloc_place (done : s.realloc n = .ok s') : s'.sendBufDataLen = s.sendBufDataLen ∧
    s'.head = if s.pSendBuf.isNone then 0 else s.head := by
  unfold realloc at done
  cases old : s.pSendBuf with
  | none =>
    simp only [old] at done
    cases done
    exact ⟨rfl, rfl⟩
  | some buf =>
    simp only [old] at done
    obtain ⟨_, -, done⟩ := bind_ok done
    obtain ⟨_, -, done⟩ := bind_ok done
    cases done
    exact ⟨rfl, rfl⟩

theorem realloc_ne : s.realloc n ≠ .error .overflow := by
  unfold realloc
  cases old : s.pSendBuf with
  | none => exact fun eq => nomatch eq
  | some buf => exact inside_bind_ne fun _ => inside_bind_ne fun _ eq => nomatch eq

theorem append_place (done : s.append sText = .ok s') :
    s'.sendBufDataLen = s.sendBufDataLen + sText.length ∧ s'.head = s.head ∧ s'.Terminated := by
  obtain ⟨_, -, done⟩ := bind_ok done
  obtain ⟨_, -, done⟩ := bind_ok done
  obtain ⟨buf, written, done⟩ := bind_ok done
  cases done
  refine ⟨rfl, rfl, buf, rfl, ?_⟩
  exact (writeAt_some (inside_ok written)).cell

/-- Where the text lies after a call that has found room for it. -/
structure Put (s s' : SendBuffer) (sText : Text) : Prop where
  valid : s'.Valid
  pending : s'.pending = s.pending ++ sText
  terminated : s'.Terminated
  moved : s.Moves sText.length → s'.head = 0 ∧
    s'.sendBufDataLen = s.sendBufDataLen - s.head + sText.length
  stayed : ¬s.Moves sText.length → s'.head = s.head ∧
    s'.sendBufDataLen = s.sendBufDataLen + sText.length

theorem putInSendBuf_place (valid : s.Valid)
    (done : s.putInSendBuf sText myInfosTagLen myInfosLen = .ok s') :
    ¬s.Overflows sText.length myInfosTagLen myInfosLen ∧ s'.Terminated ∧
      (s.Moves sText.length → s'.head = 0 ∧
        s'.sendBufDataLen = s.sendBufDataLen - s.head + sText.length) ∧
      (¬s.Moves sText.length → s'.head = s.head ∧
        s'.sendBufDataLen = s.sendBufDataLen + sText.length) := by
  unfold putInSendBuf at done
  dsimp only at done
  obtain ⟨⟨t, m⟩, room, done⟩ := bind_ok done
  obtain ⟨small, moved, stayed⟩ := makeRoom_place room
  have front : t.pSendBuf.isNone → t.head = 0 := by
    intro none_
    by_cases moves : s.Moves sText.length
    · exact (moved moves).1
    · obtain ⟨head, -, same⟩ := stayed moves
      rw [same] at none_
      rw [head]
      exact (valid.empty (Option.isNone_iff_eq_none.mp none_)).2.2
  have placed : ∃ t' : SendBuffer, t'.head = t.head ∧ t'.sendBufDataLen = t.sendBufDataLen ∧
      t'.append sText = .ok s' := by
    dsimp only at done
    split at done
    · obtain ⟨t', new, done⟩ := bind_ok done
      obtain ⟨data, head⟩ := realloc_place new
      refine ⟨t', ?_, data, done⟩
      rw [head]
      split
      · rename_i none_
        exact (front none_).symm
      · rfl
    · exact ⟨t, rfl, rfl, done⟩
  obtain ⟨t', head, data, done⟩ := placed
  obtain ⟨data', head', terminated⟩ := append_place done
  refine ⟨small, terminated, fun moves => ?_, fun stays => ?_⟩
  · obtain ⟨front, len, -⟩ := moved moves
    exact ⟨by rw [head', head, front], by rw [data', data, len]⟩
  · obtain ⟨front, len, -⟩ := stayed stays
    exact ⟨by rw [head', head, front], by rw [data', data, len]⟩

theorem putInSendBuf_overflows
    (stopped : s.putInSendBuf sText myInfosTagLen myInfosLen = .error .overflow) :
    s.Overflows sText.length myInfosTagLen myInfosLen := by
  unfold putInSendBuf at stopped
  dsimp only at stopped
  cases room : ({ s with sendCalled := s.sendCalled + 1 } : SendBuffer).makeRoom sText.length
      myInfosTagLen myInfosLen with
  | error e =>
    rw [room] at stopped
    have past := makeRoom_overflows (room.trans (congrArg _ (Except.error.inj stopped)))
    exact past
  | ok r =>
    rw [room, ok_bind] at stopped
    split at stopped
    · cases new : r.1.realloc r.2 with
      | error e =>
        rw [new] at stopped
        exact absurd (new.trans (congrArg _ (Except.error.inj stopped))) realloc_ne
      | ok t =>
        rw [new] at stopped
        exact absurd stopped (append_ne sText)
    · exact absurd stopped (append_ne sText)

/-- A text is put behind the data, or would make the buffer grow past its maximum. -/
theorem putInSendBuf_spec (valid : s.Valid) (full : sText ≠ []) (myInfosTagLen myInfosLen : UInt32) :
    (s.Overflows sText.length myInfosTagLen myInfosLen ∧
        s.putInSendBuf sText myInfosTagLen myInfosLen = .error .overflow) ∨
      (¬s.Overflows sText.length myInfosTagLen myInfosLen ∧
        ∃ s', s.putInSendBuf sText myInfosTagLen myInfosLen = .ok s' ∧ Put s s' sText) := by
  have ends := putInSendBuf_ends valid full myInfosTagLen myInfosLen
  cases done : s.putInSendBuf sText myInfosTagLen myInfosLen with
  | ok s' =>
    rw [done] at ends
    obtain ⟨small, terminated, moved, stayed⟩ := putInSendBuf_place valid done
    exact .inr ⟨small, s', rfl, ends.1, ends.2, terminated, moved, stayed⟩
  | error e =>
    rw [done] at ends
    have overflow : e = .overflow := ends
    subst overflow
    exact .inl ⟨putInSendBuf_overflows done, rfl⟩

/-- A search is taken out behind a place in the data. -/
theorem remFromSendBuf_spec (valid : s.Valid) (terminated : s.Terminated) (c : PendingSearch)
    {off : Nat} (lo : s.head ≤ off) (hi : off ≤ s.sendBufDataLen) :
    ∃ s', s.remFromSendBuf c.text off = .ok s' ∧ s'.Valid ∧ s'.Terminated ∧ s'.head = s.head ∧
      off ≤ s'.sendBufDataLen ∧ s'.pending = s.pending.take (off - s.head) ++
        removeSeen isZero c.text (s.pending.drop (off - s.head)) := by
  obtain ⟨buf, some_, zero⟩ := terminated
  have length := valid.length some_
  have data_le := valid.data_le
  have pending := pending_some some_
  have tail : s.pending.drop (off - s.head) = (buf.take s.sendBufDataLen).drop off := by
    rw [pending, List.drop_drop, Nat.add_sub_cancel' lo]
  have size : ((buf.take s.sendBufDataLen).drop off).length = s.sendBufDataLen - off := by
    rw [List.length_drop, List.length_take, Nat.min_eq_left (by omega)]
  have split_ : buf.drop off = (buf.take s.sendBufDataLen).drop off ++
      0 :: buf.drop (s.sendBufDataLen + 1) := by
    obtain ⟨lt, here⟩ := List.getElem?_eq_some_iff.mp zero
    have whole : buf = buf.take s.sendBufDataLen ++ 0 :: buf.drop (s.sendBufDataLen + 1) := by
      rw [← here, List.getElem_cons_drop lt, List.take_append_drop]
    have short : off ≤ (buf.take s.sendBufDataLen).length := by
      rw [List.length_take]
      omega
    conv_lhs => rw [whole, List.drop_append_of_le_length short]
  have ends : ¬(0 : UInt8) ∉ buf.drop off := by
    rw [split_]
    exact not_not.mpr (List.mem_append_right _ List.mem_cons_self)
  have seen : field isZero (buf.drop off) =
      field isZero ((buf.take s.sendBufDataLen).drop off) := by
    rw [split_, field_append_stop rfl]
  unfold remFromSendBuf
  rw [inside_bind some_, if_neg ends, seen, ← tail]
  cases found : firstAt c.text (field isZero (s.pending.drop (off - s.head))) with
  | none =>
    refine ⟨s, rfl, valid, ⟨buf, some_, zero⟩, rfl, hi, ?_⟩
    rw [removeSeen_none found, List.take_append_drop]
  | some i =>
    have inside_ := firstAt_le found
    have short := field_length_le isZero (s.pending.drop (off - s.head))
    rw [tail, size] at short
    rw [tail] at inside_
    have fits : off + i + c.text.length ≤ s.sendBufDataLen := by omega
    have read : readAt buf (off + i + c.text.length)
        (s.sendBufDataLen - (off + i + c.text.length)) =
        some ((buf.take s.sendBufDataLen).drop (off + i + c.text.length)) := by
      rw [readAt_of_le (by omega), List.drop_take]
    have restSize : ((buf.take s.sendBufDataLen).drop (off + i + c.text.length)).length =
        s.sendBufDataLen - (off + i + c.text.length) := by
      rw [List.length_drop, List.length_take, Nat.min_eq_left (by omega)]
    obtain ⟨buf₁, write₁, written₁⟩ := writeAt_of_le buf (off + i)
      ((buf.take s.sendBufDataLen).drop (off + i + c.text.length)) (by omega)
    have length₁ := written₁.length
    obtain ⟨buf₂, write₂, written₂⟩ := writeAt_of_le buf₁ (s.sendBufDataLen - c.text.length) [0]
      (by rw [List.length_singleton]; omega)
    have length₂ := written₂.length
    dsimp only
    rw [if_neg (Nat.not_lt.mpr fits), inside_bind read, inside_bind write₁, inside_bind write₂]
    have front : buf₂.take (s.sendBufDataLen - c.text.length) =
        buf.take (off + i) ++ (buf.take s.sendBufDataLen).drop (off + i + c.text.length) := by
      rw [written₂.before (Nat.le_refl _), ← written₁.upTo, restSize]
      congr 1
      omega
    refine ⟨_, rfl, ⟨?_, ?_, ?_⟩, ⟨buf₂, rfl, written₂.cell⟩, rfl, ?_, ?_⟩
    · dsimp only
      omega
    · dsimp only
      omega
    · simp only [Option.elim_some, Option.isSome_some, if_true]
      omega
    · dsimp only
      omega
    · have later : s.head ≤ (buf.take (off + i)).length := by
        rw [List.length_take]
        omega
      rw [pending_some rfl, removeSeen_some found]
      dsimp only
      rw [front, List.drop_append_of_le_length later, ← List.append_assoc, ← List.take_add, tail,
        List.drop_drop, pending]
      congr 1
      · rw [List.take_drop, List.take_take]
        congr 2
        omega
      · congr 1
        omega

end

end SendBuffer

namespace Recipient

/-- The searches of a user that wait. -/
def own (u : Recipient) : List PendingSearch := u.active6.toList ++ u.active4.toList

/-- A text without the first occurrence of each search. -/
def without (cs : List PendingSearch) (text : Text) : Text :=
  cs.foldl (fun t c => removeFirst c.text t) text

/-- The same for a reader who stops at an end of text. -/
def seenWithout (cs : List PendingSearch) (text : Text) : Text :=
  cs.foldl (fun t c => removeSeen isZero c.text t) text

section
variable (set : SendSettings) (u : Recipient) (queue z : Text)

def Overflows : Prop := u.buf.Overflows queue.length set.myInfosTagLen set.myInfosLen

/-- What is to be sent behind what still waits: the queue without the user's own searches,
none of which is left. Or the user is closed. -/
def Sends : Prop :=
  ∃ v, u.processQueues set queue z = .ok v ∧ (set.searchRound = true → v.own = []) ∧
    ((v.closed = true ∧ v.buf.pending = u.buf.pending) ∨
      (v.closed = false ∧ ¬u.Overflows set queue ∧
        v.buf.pending = u.buf.pending ++ without u.own queue))

/-- When it goes right. -/
structure GoesRight : Prop where
  full : u.Overflows set queue →
    (!set.keepSlowUsers || u.zpipe) = true ∧ (u.removes set = true → u.ipv6 = true)
  moved : u.removes set = true → u.buf.Moves queue.length →
    seenWithout u.own (u.buf.pending ++ queue) = u.buf.pending ++ without u.own queue
  stayed : ¬u.Overflows set queue → u.removes set = true → ¬u.buf.Moves queue.length →
    seenWithout u.own queue = without u.own queue
  unread : ¬u.Overflows set queue → u.removes set = false → without u.own queue = queue

end

section
variable {set : SendSettings} {u v w : Recipient} {queue z sText : Text} {off : Nat}

/-- A reader misses nothing in a text without an end of text. -/
theorem seenWithout_of_free {cs : List PendingSearch} (free : ∀ c ∈ queue, isZero c = false) :
    seenWithout cs queue = without cs queue := by
  induction cs generalizing queue with
  | nil => rfl
  | cons c cs ih =>
    have same : removeSeen isZero c.text queue = removeFirst c.text queue := removeSeen_of_free free
    have free' : ∀ a ∈ removeFirst c.text queue, isZero a = false :=
      fun a mem => free a (removeSeen_subset mem)
    rw [seenWithout, without, List.foldl_cons, List.foldl_cons, same]
    exact ih free'

theorem put_full (past : u.Overflows set sText) (full : sText ≠ []) (valid : u.buf.Valid) :
    ((!set.keepSlowUsers || u.zpipe) = true → u.put set sText = .ok u.close) ∧
      ((!set.keepSlowUsers || u.zpipe) = false → ∀ v, u.put set sText = .ok v →
        v.closed = u.closed) := by
  rcases SendBuffer.putInSendBuf_spec valid full set.myInfosTagLen set.myInfosLen with
    ⟨-, stopped⟩ | ⟨small, -⟩
  · unfold put
    rw [stopped]
    refine ⟨fun closes => if_pos closes, fun keeps v done => ?_⟩
    dsimp only at done
    rw [if_neg (by rw [keeps]; exact Bool.false_ne_true)] at done
    split at done
    · cases done
      rfl
    · cases done
  · exact absurd past small

theorem put_fits (fits : ¬u.Overflows set sText) (full : sText ≠ []) (valid : u.buf.Valid) :
    ∃ s, u.put set sText = .ok { u with buf := s } ∧ u.buf.Put s sText := by
  rcases SendBuffer.putInSendBuf_spec valid full set.myInfosTagLen set.myInfosLen with
    ⟨past, -⟩ | ⟨-, s, done, put_⟩
  · exact absurd past fits
  · refine ⟨s, ?_, put_⟩
    unfold put
    rw [done]
    rfl

/-- Some searches have been taken out behind a place. -/
structure Removed (v w : Recipient) (off : Nat) (cs : List PendingSearch) : Prop where
  valid : w.buf.Valid
  terminated : w.buf.Terminated
  head : w.buf.head = v.buf.head
  off_le : off ≤ w.buf.sendBufDataLen
  closed : w.closed = v.closed
  pending : w.buf.pending = v.buf.pending.take (off - v.buf.head) ++
    seenWithout cs (v.buf.pending.drop (off - v.buf.head))

theorem rem_removed (valid : v.buf.Valid) (terminated : v.buf.Terminated) (c : PendingSearch)
    (lo : v.buf.head ≤ off) (hi : off ≤ v.buf.sendBufDataLen) :
    ∃ s, v.rem c.text off = .ok { v with buf := s } ∧ Removed v { v with buf := s } off [c] := by
  obtain ⟨s, done, valid', terminated', head, le, pending⟩ :=
    SendBuffer.remFromSendBuf_spec valid terminated c lo hi
  refine ⟨s, ?_, valid', terminated', head, le, rfl, pending⟩
  unfold rem
  rw [done]
  rfl

theorem removed_none (valid : v.buf.Valid) (terminated : v.buf.Terminated)
    (hi : off ≤ v.buf.sendBufDataLen) : Removed v v off [] :=
  ⟨valid, terminated, rfl, hi, rfl, (List.take_append_drop _ _).symm⟩

/-- The searches that a user keeps beside the buffer are of no matter. -/
theorem Removed.congr {x : Recipient} {cs : List PendingSearch} (removed : Removed v w off cs)
    (buf : x.buf = w.buf) (closed : x.closed = w.closed) : Removed v x off cs where
  valid := buf ▸ removed.valid
  terminated := buf ▸ removed.terminated
  head := buf ▸ removed.head
  off_le := buf ▸ removed.off_le
  closed := closed.trans removed.closed
  pending := buf ▸ removed.pending

theorem remove6_removed (valid : v.buf.Valid) (terminated : v.buf.Terminated)
    (lo : v.buf.head ≤ off) (hi : off ≤ v.buf.sendBufDataLen) :
    ∃ w, v.remove6 off = .ok w ∧ Removed v w off v.active6.toList ∧ w.active6 = none ∧
      w.active4 = v.active4 := by
  unfold remove6
  cases at_ : v.active6 with
  | none => exact ⟨v, rfl, removed_none valid terminated hi, at_, rfl⟩
  | some c =>
    obtain ⟨s, done, removed⟩ := rem_removed valid terminated c lo hi
    dsimp only
    rw [done]
    exact ⟨_, rfl, removed.congr rfl rfl, rfl, rfl⟩

theorem remove4_removed (valid : v.buf.Valid) (terminated : v.buf.Terminated)
    (lo : v.buf.head ≤ off) (hi : off ≤ v.buf.sendBufDataLen) :
    ∃ w, v.remove4 off = .ok w ∧ Removed v w off v.active4.toList ∧ w.active4 = none ∧
      w.active6 = v.active6 := by
  unfold remove4
  cases at_ : v.active4 with
  | none => exact ⟨v, rfl, removed_none valid terminated hi, at_, rfl⟩
  | some c =>
    obtain ⟨s, done, removed⟩ := rem_removed valid terminated c lo hi
    dsimp only
    rw [done]
    exact ⟨_, rfl, removed.congr rfl rfl, rfl, rfl⟩

theorem pending_length (valid : v.buf.Valid) (terminated : v.buf.Terminated) :
    v.buf.pending.length = v.buf.sendBufDataLen - v.buf.head := by
  obtain ⟨buf, some_, -⟩ := terminated
  have length := valid.length some_
  have data_le := valid.data_le
  rw [SendBuffer.pending_some some_, List.length_drop, List.length_take, Nat.min_eq_left (by omega)]

theorem Removed.trans {x : Recipient} {cs cs' : List PendingSearch} (first : Removed v w off cs)
    (second : Removed w x off cs') (valid : v.buf.Valid) (terminated : v.buf.Terminated)
    (hi : off ≤ v.buf.sendBufDataLen) : Removed v x off (cs ++ cs') := by
  have front : (v.buf.pending.take (off - v.buf.head)).length = off - v.buf.head := by
    rw [List.length_take, pending_length valid terminated]
    omega
  refine ⟨second.valid, second.terminated, second.head.trans first.head, second.off_le,
    second.closed.trans first.closed, ?_⟩
  rw [second.pending, first.head, first.pending, List.take_left' front, List.drop_left' front,
    seenWithout, seenWithout, seenWithout, List.foldl_append]

/-- What is left of the searches in the buffer after the queue has been put. -/
theorem removed_pending {s : SendBuffer} (valid : u.buf.Valid) (full : queue ≠ [])
    (put_ : u.buf.Put s queue) {cs : List PendingSearch}
    (removed : Removed { u with buf := s } w
      (Recipient.queueAt { u with buf := s } u.buf.sendBufDataLen) cs) :
    (u.buf.Moves queue.length → w.buf.pending = seenWithout cs (u.buf.pending ++ queue)) ∧
      (¬u.buf.Moves queue.length →
        w.buf.pending = u.buf.pending ++ seenWithout cs queue) := by
  have positive := List.length_pos_iff.mpr full
  have head_le := valid.head_le
  have pending := removed.pending
  dsimp only at pending
  rw [put_.pending] at pending
  constructor
  · intro moves
    obtain ⟨head, len⟩ := put_.moved moves
    have free := moves.2.2
    have off : Recipient.queueAt { u with buf := s } u.buf.sendBufDataLen = 0 :=
      if_pos (by dsimp only; omega)
    rw [off, Nat.zero_sub, List.take_zero, List.drop_zero] at pending
    exact pending
  · intro stays
    obtain ⟨head, len⟩ := put_.stayed stays
    have off : Recipient.queueAt { u with buf := s } u.buf.sendBufDataLen = u.buf.sendBufDataLen :=
      if_neg (by dsimp only; omega)
    have whole := congrArg List.length put_.pending
    have size : s.pending.length = s.sendBufDataLen - s.head :=
      pending_length (v := { u with buf := s }) put_.valid put_.terminated
    rw [List.length_append, size] at whole
    have front : u.buf.pending.length = u.buf.sendBufDataLen - s.head := by omega
    rw [off, ← front, List.take_left, List.drop_left] at pending
    exact pending

/-- A queue that finds room is put into the buffer, and the own searches are taken out. -/
theorem processQueues_removes (valid : u.buf.Valid) (full : queue ≠ [])
    (fits : ¬u.Overflows set queue) (removes : u.removes set = true)
    (plain : u.zipped set queue z = false) :
    ∃ w, u.processQueues set queue z = .ok w ∧ w.own = [] ∧ w.closed = u.closed ∧
      (u.buf.Moves queue.length → w.buf.pending = seenWithout u.own (u.buf.pending ++ queue)) ∧
      (¬u.buf.Moves queue.length →
        w.buf.pending = u.buf.pending ++ seenWithout u.own queue) := by
  obtain ⟨s, done, put_⟩ := put_fits fits full valid
  have head_le := valid.head_le
  have positive := List.length_pos_iff.mpr full
  have place : s.head ≤ Recipient.queueAt { u with buf := s } u.buf.sendBufDataLen ∧
      Recipient.queueAt { u with buf := s } u.buf.sendBufDataLen ≤ s.sendBufDataLen := by
    unfold Recipient.queueAt
    by_cases moves : u.buf.Moves queue.length
    · obtain ⟨head, len⟩ := put_.moved moves
      split
      · omega
      · dsimp only at *
        omega
    · obtain ⟨head, len⟩ := put_.stayed moves
      rw [if_neg (by dsimp only; omega)]
      omega
  unfold processQueues
  rw [if_neg full, if_pos removes, if_neg (by rw [plain]; exact Bool.false_ne_true)]
  dsimp only
  rw [done, ok_bind]
  dsimp only
  split
  · obtain ⟨v, first, removed6, none6, same4⟩ := remove6_removed
      (v := { u with buf := s }) put_.valid put_.terminated place.1 place.2
    obtain ⟨w, second, removed4, none4, same6⟩ := remove4_removed (v := v) removed6.valid
      removed6.terminated (removed6.head ▸ place.1) removed6.off_le
    rw [first, ok_bind]
    have both := removed6.trans removed4 put_.valid put_.terminated place.2
    rw [same4] at both
    refine ⟨w, second, ?_, both.closed, removed_pending valid full put_ both⟩
    rw [own, same6, none6, none4]
    rfl
  · rename_i four
    have ipv4 : u.ipv6 = false := by simpa using four
    have some_ : u.active4.isNone = false := by
      unfold Recipient.removes at removes
      rw [ipv4, Bool.false_or, Bool.and_eq_true] at removes
      simpa using removes.2
    obtain ⟨w, only4, removed4, none4, same6⟩ := remove4_removed
      (v := { u with buf := s }) put_.valid put_.terminated place.1 place.2
    rw [if_neg (by rw [some_]; exact Bool.false_ne_true)]
    have none6 := u.only ipv4
    have all : u.own = u.active4.toList := by rw [own, none6]; rfl
    refine ⟨w, only4, ?_, removed4.closed, ?_⟩
    · rw [own, same6, none4]
      dsimp only
      rw [none6]
      rfl
    · rw [all]
      exact removed_pending valid full put_ removed4

theorem without_nil (cs : List PendingSearch) : without cs [] = [] := by
  induction cs with
  | nil => rfl
  | cons c cs ih =>
    rw [without, List.foldl_cons]
    have none_ : removeFirst c.text [] = [] := by
      apply List.eq_nil_iff_forall_not_mem.mpr
      intro a mem
      exact List.not_mem_nil (removeSeen_subset mem)
    rw [none_]
    exact ih

theorem rem_closed {sData : Text} (done : v.rem sData off = .ok w) : w.closed = v.closed := by
  unfold rem at done
  split at done
  · cases done
    rfl
  · cases done

theorem remove6_closed (done : v.remove6 off = .ok w) : w.closed = v.closed := by
  unfold remove6 at done
  split at done
  · obtain ⟨x, taken, done⟩ := bind_ok done
    cases done
    have closed : x.closed = v.closed := rem_closed taken
    exact closed
  · cases done
    rfl

theorem remove4_closed (done : v.remove4 off = .ok w) : w.closed = v.closed := by
  unfold remove4 at done
  split at done
  · obtain ⟨x, taken, done⟩ := bind_ok done
    cases done
    have closed : x.closed = v.closed := rem_closed taken
    exact closed
  · cases done
    rfl

/-- A user that a text would make too slow stays online or is closed. -/
theorem sends_of_closes {v : Recipient} (done : u.processQueues set queue z = .ok v)
    (own : v.own = []) (closed : v.closed = true) (pending : v.buf.pending = u.buf.pending) :
    u.Sends set queue z :=
  ⟨v, done, fun _ => own, .inl ⟨closed, pending⟩⟩

theorem not_sends_of_keeps (past : u.Overflows set queue)
    (stays : ∀ v, u.processQueues set queue z = .ok v → v.closed = false) :
    ¬u.Sends set queue z := by
  rintro ⟨v, done, -, ⟨closed, -⟩ | ⟨-, fits, -⟩⟩
  · rw [stays v done] at closed
    cases closed
  · exact fits past

theorem not_moves_of_overflows (past : u.Overflows set queue) : ¬u.buf.Moves queue.length :=
  fun moves => Nat.lt_irrefl _ (Nat.lt_of_lt_of_le moves.2.2 past.2.2.1)

/-- The search of a user of IPv4 is read after he was closed. -/
theorem processQueues_released (full : queue ≠ []) (removes : u.removes set = true)
    (plain : u.zipped set queue z = false) (closes : u.put set queue = .ok u.close)
    (four : u.ipv6 = false) : u.processQueues set queue z = .error .released := by
  unfold processQueues
  rw [if_neg full, if_pos removes, if_neg (by rw [plain]; exact Bool.false_ne_true)]
  dsimp only
  rw [closes, ok_bind, four, if_neg Bool.false_ne_true]
  rfl

theorem sends_iff_removes (valid : u.buf.Valid) (open_ : u.closed = false) (full : queue ≠ [])
    (removes : u.removes set = true) (plain : u.zipped set queue z = false) :
    u.Sends set queue z ↔ u.GoesRight set queue := by
  have notZipped : ¬u.zipped set queue z = true := by
    rw [plain]
    exact Bool.false_ne_true
  by_cases past : u.Overflows set queue
  · obtain ⟨closes, keeps⟩ := put_full past full valid
    cases slow : !set.keepSlowUsers || u.zpipe with
    | false =>
      refine iff_of_false (not_sends_of_keeps past fun w done => ?_) fun right => ?_
      · unfold processQueues at done
        rw [if_neg full, if_pos removes, if_neg notZipped] at done
        obtain ⟨v, put_, done⟩ := bind_ok done
        have same := (keeps slow v put_).trans open_
        split at done
        · obtain ⟨x, first, done⟩ := bind_ok done
          rw [remove4_closed done, remove6_closed first, same]
        · split at done
          · cases done
          · rw [remove4_closed done, same]
      · have closes := (right.full past).1
        rw [slow] at closes
        cases closes
    | true =>
      have put_ := closes slow
      cases six : u.ipv6 with
      | true =>
        refine iff_of_true (sends_of_closes (v := u.close) ?_ rfl rfl rfl) ?_
        · unfold processQueues
          rw [if_neg full, if_pos removes, if_neg notZipped]
          dsimp only
          rw [put_, ok_bind, six, if_pos rfl]
          rfl
        · exact ⟨fun _ => ⟨slow, fun _ => six⟩,
            fun _ moves => absurd moves (not_moves_of_overflows past),
            fun fits => absurd past fits, fun fits => absurd past fits⟩
      | false =>
        refine iff_of_false ?_ fun right => ?_
        · rintro ⟨v, done, -⟩
          rw [processQueues_released full removes plain put_ six] at done
          cases done
        · have ipv6 := (right.full past).2 removes
          rw [six] at ipv6
          cases ipv6
  · obtain ⟨w, done, own, closed, moved, stayed⟩ :=
      processQueues_removes valid full past removes plain
    have same : u.Sends set queue z ↔ w.buf.pending = u.buf.pending ++ without u.own queue := by
      constructor
      · rintro ⟨v, done', -, ⟨closed', -⟩ | ⟨-, -, pending⟩⟩
        · rw [done] at done'
          cases done'
          rw [closed, open_] at closed'
          cases closed'
        · rw [done] at done'
          cases done'
          exact pending
      · exact fun pending => ⟨w, done, fun _ => own, .inr ⟨closed.trans open_, past, pending⟩⟩
    rw [same]
    constructor
    · intro pending
      refine ⟨fun h => absurd h past, fun _ moves => ?_, fun _ _ stays => ?_, fun _ unread => ?_⟩
      · rw [← moved moves, pending]
      · rw [stayed stays] at pending
        exact List.append_cancel_left pending
      · rw [removes] at unread
        cases unread
    · intro right
      by_cases moves : u.buf.Moves queue.length
      · rw [moved moves, right.moved removes moves]
      · rw [stayed moves, right.stayed past removes moves]

/-- Where there is nothing to take out the queue is sent as it is. -/
theorem sends_iff_unread (valid : u.buf.Valid) (open_ : u.closed = false) (full : queue ≠ [])
    (unread : u.removes set = false) (plain : u.zipped set queue z = false) :
    u.Sends set queue z ↔ u.GoesRight set queue := by
  have notRemoves : ¬u.removes set = true := by
    rw [unread]
    exact Bool.false_ne_true
  obtain ⟨kept, eq, buf, zpipe, closed, own⟩ : ∃ kept : Recipient,
      u.processQueues set queue z = kept.put set queue ∧ kept.buf = u.buf ∧
        kept.zpipe = u.zpipe ∧ kept.closed = u.closed ∧
        (set.searchRound = true → kept.own = []) := by
    have path : u.processQueues set queue z =
        (if set.searchRound && u.sharedSize = 0 then u.dropSearches else u).put set queue := by
      unfold processQueues
      rw [if_neg full, if_neg notRemoves, plain]
      rfl
    refine ⟨_, path, ?_, ?_, ?_, fun round => ?_⟩
    · split <;> rfl
    · split <;> rfl
    · split <;> rfl
    · split
      · rfl
      · rename_i shares
        have some_ : u.sharedSize ≠ 0 := by simpa [round] using shares
        have nothing : u.ipv6 = false ∧ u.active4 = none := by
          simpa [Recipient.removes, round, some_] using unread
        rw [Recipient.own, u.only nothing.1, nothing.2]
        rfl
  have valid' : kept.buf.Valid := buf ▸ valid
  have overflows : kept.Overflows set queue ↔ u.Overflows set queue := by
    unfold Overflows
    rw [buf]
  by_cases past : u.Overflows set queue
  · obtain ⟨closes, keeps⟩ := put_full (overflows.mpr past) full valid'
    rw [zpipe] at closes keeps
    cases slow : !set.keepSlowUsers || u.zpipe with
    | false =>
      refine iff_of_false (not_sends_of_keeps past fun w done => ?_) fun right => ?_
      · rw [eq] at done
        rw [keeps slow w done, closed, open_]
      · have closes := (right.full past).1
        rw [slow] at closes
        cases closes
    | true =>
      refine iff_of_true (sends_of_closes (eq.trans (closes slow)) rfl rfl ?_) ?_
      · change kept.buf.pending = u.buf.pending
        rw [buf]
      · exact ⟨fun _ => ⟨slow, fun h => absurd h notRemoves⟩, fun h => absurd h notRemoves,
          fun fits => absurd past fits, fun fits => absurd past fits⟩
  · obtain ⟨s, done, put_⟩ := put_fits (fun h => past (overflows.mp h)) full valid'
    have pending : s.pending = u.buf.pending ++ queue := by rw [put_.pending, buf]
    have sent : u.processQueues set queue z = .ok { kept with buf := s } := eq.trans done
    constructor
    · rintro ⟨v, done', -, ⟨closed', -⟩ | ⟨-, -, pending'⟩⟩
      · rw [sent] at done'
        cases done'
        have open' : kept.closed = false := closed.trans open_
        rw [open'] at closed'
        cases closed'
      · rw [sent] at done'
        cases done'
        rw [pending] at pending'
        exact ⟨fun h => absurd h past, fun h => absurd h notRemoves,
          fun _ h => absurd h notRemoves, fun _ _ => (List.append_cancel_left pending').symm⟩
    · intro right
      refine ⟨_, sent, own, .inr ⟨closed.trans open_, past, ?_⟩⟩
      rw [right.unread past unread]
      exact pending

end

/-- What a user is sent is right exactly when the search for his own searches begins at
the queue or finds nothing before it, meets no end of text, and comes to a search that is
still there. -/
theorem sends_iff (set : SendSettings) {u : Recipient} {queue z : Text} (valid : u.buf.Valid)
    (open_ : u.closed = false) (plain : u.zipped set queue z = false) :
    u.Sends set queue z ↔ u.GoesRight set queue := by
  by_cases empty : queue = []
  · subst empty
    have fits : ¬u.Overflows set [] := fun past => Nat.not_lt.mpr valid.data_le past.1
    have done : u.processQueues set [] z =
        .ok (if set.searchRound then u.dropSearches else u) := if_pos rfl
    refine iff_of_true ⟨_, done, fun round => ?_, .inr ⟨?_, fits, ?_⟩⟩ ?_
    · rw [if_pos round]
      rfl
    · split
      · exact open_
      · exact open_
    · rw [without_nil, List.append_nil]
      split <;> rfl
    · refine ⟨fun past => absurd past fits, fun _ moves => ?_, fun _ _ _ => ?_, fun _ _ => ?_⟩
      · exact absurd moves.1 (Nat.not_lt.mpr valid.data_le)
      · exact seenWithout_of_free fun c mem => absurd mem List.not_mem_nil
      · exact without_nil _
  · cases removes : u.removes set with
    | true => exact sends_iff_removes valid open_ empty removes plain
    | false => exact sends_iff_unread valid open_ empty removes plain

/-- An active search of a user of IPv4. -/
def oneSearch : PendingSearch where
  text := ascii "$Search 10.0.0.1:412 F?F?0?1?test|"
  some_ := by decide
  noZero := by decide +kernel

/-- A user of IPv4 with one search. -/
def searcher (buf : SendBuffer) : Recipient where
  buf := buf
  sharedSize := 1
  ipv6 := false
  zpipe := false
  active6 := none
  active4 := some oneSearch
  closed := false
  only := fun _ => rfl

def searchRound : SendSettings := ⟨true, false, 0, 0⟩

/-- The queue of a round in which one more user has searched. -/
def twoSearches : Text :=
  ascii "$Search 10.0.0.2:412 F?F?0?1?test|$Search 10.0.0.1:412 F?F?0?1?test|"

/-- What a user with nothing in his buffer is sent is the search of the other. -/
theorem sends_other : (searcher .init).Sends searchRound twoSearches [] := by
  refine (sends_iff searchRound ⟨Nat.le_refl _, Nat.le_refl _, rfl⟩ rfl (by decide +kernel)).mpr
    ⟨fun past => ?_, fun _ moves => ?_, fun _ _ _ => ?_, fun _ unread => ?_⟩
  · cases past.2.1
  · cases moves.2.1
  · exact seenWithout_of_free (by decide +kernel)
  · cases unread

/-- A buffer with a search of the user in what still waits, and much that has been sent. -/
def quoted : SendBuffer where
  pSendBuf := some (List.replicate 100 pipe ++ oneSearch.text ++ [0])
  head := 100
  sendBufLen := 134
  sendBufDataLen := 134
  sendCalled := 0
  bigSendBuffer := false
  error := false

theorem quoted_fits : ¬(searcher quoted).Overflows searchRound twoSearches :=
  fun past => absurd past.2.2.1 (by decide +kernel)

theorem quoted_moves : quoted.Moves twoSearches.length :=
  ⟨by decide +kernel, rfl, by decide +kernel⟩

theorem quoted_valid : quoted.Valid := ⟨by decide, by decide, by decide +kernel⟩

/-- A user with an IPv4 search who is closed for his slowness: the search is read after it
was released. A user whose data is moved in the buffer: what waited before is taken out, and
the search stays in the queue. -/
theorem own_search_fails :
    ((searcher (.pipes 100000)).processQueues searchRound (List.replicate 100000 pipe) [] =
        .error .released ∧
      ¬(searcher (.pipes 100000)).Sends searchRound (List.replicate 100000 pipe) []) ∧
    ¬(searcher quoted).Sends searchRound twoSearches [] := by
  have released : (searcher (.pipes 100000)).processQueues searchRound
      (List.replicate 100000 pipe) [] = .error .released := by
    have full : List.replicate 100000 pipe ≠ [] := by
      intro empty
      have zero := congrArg List.length empty
      rw [List.length_replicate] at zero
      cases zero
    have past : (searcher (.pipes 100000)).Overflows searchRound (List.replicate 100000 pipe) :=
      SendBuffer.putInSendBuf_overflows SendBuffer.pipes_overflow
    have closes := (put_full past full (SendBuffer.pipes_framed (by decide)).valid).1 rfl
    exact processQueues_released full rfl rfl closes rfl
  refine ⟨⟨released, ?_⟩, ?_⟩
  · rintro ⟨v, done, -⟩
    rw [released] at done
    cases done
  · have removed := @processQueues_removes searchRound (searcher quoted) twoSearches []
      quoted_valid (by decide) quoted_fits rfl rfl
    rintro ⟨v, done, -, ⟨closed, -⟩ | ⟨-, -, pending⟩⟩
    · obtain ⟨w, done', -, open_, -⟩ := removed
      rw [done] at done'
      cases done'
      rw [open_] at closed
      cases closed
    · obtain ⟨w, done', -, -, moved, -⟩ := removed
      rw [done] at done'
      cases done'
      rw [moved quoted_moves] at pending
      exact absurd pending (by decide +kernel)

end Recipient

end FlyHub.Connection
