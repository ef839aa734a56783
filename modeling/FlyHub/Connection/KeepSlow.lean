import FlyHub.Connection.RecvBuffer
import FlyHub.Connection.SendFifo
import FlyHub.Lib.Cut

/-!
# A slow client is kept

A client that does not take what it is sent fast enough may stay online, and loses some of
the commands in its full buffer instead. It must not lose a part of a command.
-/

namespace FlyHub.Connection

open FlyHub.Lib

/-- `memchr`: where the first `c` of the `n` bytes from `off` on is. -/
def memchr (buf : List UInt8) (off n : Nat) (c : UInt8) : Except Stop (Option Nat) := do
  let bytes ← inside (readAt buf off n)
  pure ((bytes.idxOf? c).map (off + ·))

/-- `memmove` inside a block. -/
def memmove (buf : List UInt8) (dst src n : Nat) : Except Stop (List UInt8) := do
  let data ← inside (readAt buf src n)
  inside (writeAt buf dst data)

def toFront (buf : List UInt8) (src n : Nat) : Except Stop (List UInt8) :=
  if src ≠ 0 then memmove buf 0 src n else pure buf

namespace SendBuffer

section
variable (s : SendBuffer)

/-- Behind the command that ends at `sTemp` commands are given up until there is room for
the text. `buf` and `iRestCommandLen` are what has been kept so far. -/
def keepTail (buf : List UInt8) (sTemp iRestCommandLen szTxtLen szMaxBufLen : Nat) :
    Except Stop (List UInt8 × Nat) :=
  if szTxtLen < szMaxBufLen ∧ sTemp + 1 < s.sendBufDataLen ∧
      szTxtLen < s.sendBufDataLen - (sTemp + 1) then do
    let half := s.sendBufLen / 2
    let start := if half < s.sendBufDataLen ∧ sTemp + 1 + szTxtLen < half then half
      else sTemp + 1 + szTxtLen
    match ← memchr buf start (s.sendBufDataLen - start) pipe with
    | none => pure (buf, iRestCommandLen)
    | some sTemp1 => do
      let rest := s.sendBufDataLen - (sTemp1 + 1)
      let buf ← memmove buf iRestCommandLen (sTemp1 + 1) rest
      pure (buf, iRestCommandLen + rest)
  else pure (buf, iRestCommandLen)

/-- What is kept of the data, at the front of the block. -/
def keepData (buf : List UInt8) (szTxtLen szMaxBufLen : Nat) : Except Stop (List UInt8 × Nat) := do
  match ← memchr buf s.head (s.sendBufDataLen - s.head) pipe with
  | some sTemp => do
    let iRestCommandLen := sTemp - s.head + 1
    let buf ← toFront buf s.head iRestCommandLen
    s.keepTail buf sTemp iRestCommandLen szTxtLen szMaxBufLen
  | none => do
    let buf ← inside (writeAt buf 0 [pipe, 0])
    pure (buf, 1)

/-- The branch of `PutInSendBuf` for a client that is slow. -/
def keepSlow (szTxtLen szMaxBufLen : Nat) : Except Stop SendBuffer := do
  let buf ← inside s.pSendBuf
  let kept ← s.keepData buf szTxtLen szMaxBufLen
  let n := allign (szTxtLen + kept.2)
  let data ← inside (readAt kept.1 0 kept.2)
  let buf ← inside (writeAt (List.replicate n 0) 0 data)
  pure { s with pSendBuf := some buf, head := 0, sendBufLen := n - 1, sendBufDataLen := kept.2 }

/-- `PutInSendBuf` when slow clients are kept. -/
def putKeeping (sText : Text) (myInfosTagLen myInfosLen : UInt32) : Except Stop SendBuffer :=
  match s.putInSendBuf sText myInfosTagLen myInfosLen with
  | .error .overflow => do
    let s ← { s with sendCalled := s.sendCalled + 1 }.keepSlow sText.length
      (maxBufLen s.bigSendBuffer myInfosTagLen myInfosLen)
    s.append sText
  | r => r

end

/-- The data still to be sent is a row of commands, and there is a block for it. -/
structure Framed (s : SendBuffer) : Prop where
  valid : s.Valid
  some_ : s.pSendBuf.isSome → 0 < s.sendBufLen
  ends : s.pending = [] ∨ s.pending.getLast? = some pipe

end SendBuffer

/-- What is kept of the data that was still to be sent: what is left of its first command,
and commands from its end. An end of a command stands for no data at all. -/
inductive Keeps : Text → Text → Text → Prop where
  | nothing : Keeps [] [pipe] []
  | some_ (command skipped suffix : Text) (whole : pipe ∉ command)
    (boundary : skipped = [] ∨ skipped.getLast? = some pipe) :
    Keeps (command ++ [pipe] ++ skipped ++ suffix) (command ++ [pipe]) suffix

section
variable {buf : List UInt8} {off n dst src : Nat} {c : UInt8}

variable (buf off n c) in
/-- The bytes before the one that is found are others. -/
theorem memchr_ok (fits : off + n ≤ buf.length) :
    (memchr buf off n c = .ok none ∧ c ∉ (buf.drop off).take n) ∨
      ∃ k before, memchr buf off n c = .ok (some (off + k)) ∧ k < n ∧ buf[off + k]? = some c ∧
        (buf.drop off).take (k + 1) = before ++ [c] ∧ c ∉ before := by
  unfold memchr
  rw [inside_bind (readAt_of_le fits)]
  cases at_ : ((buf.drop off).take n).idxOf? c with
  | none =>
    left
    rw [List.idxOf?_eq_none_iff] at at_
    exact ⟨rfl, at_⟩
  | some k =>
    right
    obtain ⟨lt, same, others⟩ := List.findIdx?_eq_some_iff_getElem.mp at_
    have small : k < n := by
      rw [List.length_take] at lt
      omega
    have here : ((buf.drop off).take n)[k] = c := by simpa using same
    rw [List.getElem_take] at here
    refine ⟨k, (buf.drop off).take k, rfl, small, ?_, ?_, fun mem => ?_⟩
    · rw [← List.getElem?_drop, List.getElem?_eq_getElem (by simp; omega), here]
    · rw [List.take_succ_eq_append_getElem (by simp; omega), here]
    · obtain ⟨i, lt', here⟩ := List.getElem_of_mem mem
      rw [List.length_take] at lt'
      have other := others i (by omega)
      rw [List.getElem_take] at here other
      rw [here] at other
      simp at other

variable (buf n dst src) in
/-- The bytes move, and the block beyond them stays. -/
theorem memmove_ok (inBlock : src + n ≤ buf.length) (fits : dst + n ≤ buf.length) :
    ∃ buf', memmove buf dst src n = .ok buf' ∧ buf'.length = buf.length ∧
      buf'.take (dst + n) = buf.take dst ++ (buf.drop src).take n ∧
      buf'.drop (dst + n) = buf.drop (dst + n) := by
  have size : ((buf.drop src).take n).length = n := by
    rw [List.length_take, List.length_drop]
    omega
  obtain ⟨buf', write, written⟩ :=
    writeAt_of_le buf dst ((buf.drop src).take n) (by rw [size]; exact fits)
  have front := written.upTo
  have after := written.after
  rw [size] at front after
  refine ⟨buf', ?_, written.length, front, after⟩
  rw [memmove, inside_bind (readAt_of_le inBlock), write]
  rfl

end

namespace SendBuffer

section
variable {s : SendBuffer} {buf buf' : List UInt8} {sTemp szTxtLen szMaxBufLen : Nat} {rest : Text}

variable (szTxtLen szMaxBufLen) in
/-- What follows the first command is kept from a command on, or not at all. -/
theorem keepTail_ok (length : buf'.length = buf.length) (data : s.sendBufDataLen ≤ buf.length)
    (inData : sTemp < s.sendBufDataLen) (front : buf'.take rest.length = rest)
    (short : rest.length ≤ sTemp + 1) (same : buf'.drop (sTemp + 1) = buf.drop (sTemp + 1))
    (ends : (buf.take s.sendBufDataLen).getLast? = some pipe) :
    ∃ kept skipped suffix, s.keepTail buf' sTemp rest.length szTxtLen szMaxBufLen = .ok kept ∧
      (buf.take s.sendBufDataLen).drop (sTemp + 1) = skipped ++ suffix ∧
      (skipped = [] ∨ skipped.getLast? = some pipe) ∧
      kept.1.length = buf.length ∧ kept.2 ≤ s.sendBufDataLen ∧
      kept.1.take kept.2 = rest ++ suffix := by
  have later_ends : (buf.take s.sendBufDataLen).drop (sTemp + 1) = [] ∨
      ((buf.take s.sendBufDataLen).drop (sTemp + 1)).getLast? = some pipe := by
    rw [List.getLast?_drop, ends]
    split
    · rename_i short
      exact .inl (List.drop_eq_nil_of_le short)
    · exact .inr rfl
  have none_ : ∃ kept skipped suffix, (Except.ok (buf', rest.length) : Except Stop _) = .ok kept ∧
      (buf.take s.sendBufDataLen).drop (sTemp + 1) = skipped ++ suffix ∧
      (skipped = [] ∨ skipped.getLast? = some pipe) ∧
      kept.1.length = buf.length ∧ kept.2 ≤ s.sendBufDataLen ∧
      kept.1.take kept.2 = rest ++ suffix :=
    ⟨_, _, [], rfl, (List.append_nil _).symm, later_ends, length, by dsimp only; omega,
      by rw [front, List.append_nil]⟩
  unfold keepTail
  split
  · rename_i room
    dsimp only
    generalize start_ : (if s.sendBufLen / 2 < s.sendBufDataLen ∧
      sTemp + 1 + szTxtLen < s.sendBufLen / 2 then s.sendBufLen / 2
      else sTemp + 1 + szTxtLen) = start
    have after : sTemp + 1 ≤ start ∧ start < s.sendBufDataLen := by
      split at start_ <;> omega
    rcases memchr_ok buf' start (s.sendBufDataLen - start) pipe (by omega) with
      ⟨search, -⟩ | ⟨k, before, search, lt, at_, -⟩
    · rw [search]
      exact none_
    · obtain ⟨buf₂, moves, length₂, front₂, -⟩ := memmove_ok buf'
        (s.sendBufDataLen - (start + k + 1)) rest.length (start + k + 1) (by omega) (by omega)
      have beyond (i : Nat) (le : sTemp + 1 ≤ i) : buf'.drop i = buf.drop i := by
        have eq := congrArg (List.drop (i - (sTemp + 1))) same
        rw [List.drop_drop, List.drop_drop] at eq
        rwa [Nat.add_sub_cancel' le] at eq
      have pipe_ : (buf.take s.sendBufDataLen)[start + k]? = some pipe := by
        rw [List.getElem?_take_of_lt (by omega), ← at_, ← Nat.add_zero (start + k),
          ← List.getElem?_drop, ← List.getElem?_drop, beyond _ (by omega)]
      refine ⟨(buf₂, rest.length + (s.sendBufDataLen - (start + k + 1))),
        ((buf.take s.sendBufDataLen).drop (sTemp + 1)).take (start + k - sTemp),
        (buf.take s.sendBufDataLen).drop (start + k + 1), ?_, ?_, .inr ?_,
        length₂.trans length, by dsimp only; omega, ?_⟩
      · rw [search, ok_bind]
        dsimp only
        rw [moves]
        rfl
      · have next : start + k + 1 = sTemp + 1 + (start + k - sTemp) := by omega
        have parts := List.take_append_drop (start + k - sTemp)
          ((buf.take s.sendBufDataLen).drop (sTemp + 1))
        rw [List.drop_drop, ← next] at parts
        exact parts.symm
      · rw [List.getLast?_take, if_neg (by omega), List.getElem?_drop]
        have last : sTemp + 1 + (start + k - sTemp - 1) = start + k := by omega
        rw [last, pipe_]
        rfl
      · rw [front₂, front, beyond _ (by omega), List.drop_take]
  · exact none_

variable (szTxtLen szMaxBufLen) in
theorem keepData_ok (framed : s.Framed) (at_ : s.pSendBuf = some buf) :
    ∃ kept rest suffix, s.keepData buf szTxtLen szMaxBufLen = .ok kept ∧
      Keeps s.pending rest suffix ∧ kept.1.length = buf.length ∧ kept.2 ≤ buf.length ∧
      kept.1.take kept.2 = rest ++ suffix := by
  have length := framed.valid.length at_
  have head_le := framed.valid.head_le
  have data_le := framed.valid.data_le
  have positive := framed.some_ (by rw [at_]; rfl)
  have pending := pending_some at_
  have pending' : s.pending = (buf.drop s.head).take (s.sendBufDataLen - s.head) := by
    rw [pending, List.drop_take]
  unfold keepData
  rcases memchr_ok buf s.head (s.sendBufDataLen - s.head) pipe (by omega) with
    ⟨search, none_⟩ | ⟨k, command, search, lt, -, upTo, whole⟩
  · -- the data has no pipe, so there is none
    have empty : s.pending = [] := by
      rcases framed.ends with empty | ends
      · exact empty
      · rw [pending'] at ends
        exact absurd (List.mem_of_getLast? ends) none_
    obtain ⟨buf', write, written⟩ := writeAt_of_le buf 0 [pipe, 0] (by simp; omega)
    refine ⟨(buf', 1), [pipe], [], ?_, ?_, written.length, by dsimp only; omega, ?_⟩
    · rw [search, ok_bind]
      dsimp only
      rw [inside_bind write]
      rfl
    · rw [empty]
      exact .nothing
    · have front := congrArg (List.take 1) written.upTo
      rw [List.take_take] at front
      simpa using front
  · have ends : (buf.take s.sendBufDataLen).getLast? = some pipe := by
      rcases framed.ends with empty | ends
      · have size := congrArg List.length pending'
        rw [empty, List.length_take, List.length_drop, List.length_nil] at size
        omega
      · rw [pending, List.getLast?_drop] at ends
        split at ends
        · cases ends
        · exact ends
    have size : (command ++ [pipe]).length = k + 1 := by
      rw [← upTo, List.length_take, List.length_drop]
      omega
    obtain ⟨buf', moved, length', front, same⟩ : ∃ buf' : List UInt8,
        toFront buf s.head (s.head + k - s.head + 1) = .ok buf' ∧ buf'.length = buf.length ∧
        buf'.take (command ++ [pipe]).length = command ++ [pipe] ∧
        buf'.drop (s.head + k + 1) = buf.drop (s.head + k + 1) := by
      have one : s.head + k - s.head + 1 = k + 1 := by omega
      rw [size, ← upTo, one]
      unfold toFront
      split
      · obtain ⟨buf', moves, length', front, after⟩ := memmove_ok buf (k + 1) 0 s.head
          (by omega) (by omega)
        rw [Nat.zero_add] at front after
        refine ⟨buf', moves, length', by rw [front]; rfl, ?_⟩
        have eq := congrArg (List.drop s.head) after
        rw [List.drop_drop, List.drop_drop] at eq
        have sum : k + 1 + s.head = s.head + k + 1 := by omega
        rwa [sum] at eq
      · rename_i zero
        have zero : s.head = 0 := by simpa using zero
        exact ⟨buf, rfl, rfl, by rw [zero, List.drop_zero], rfl⟩
    obtain ⟨kept, skipped, suffix, tail, later, boundary, keptLength, keptLe, keptData⟩ :=
      keepTail_ok szTxtLen szMaxBufLen length' (by omega) (by omega : s.head + k < s.sendBufDataLen)
        front (by omega) same ends
    refine ⟨kept, command ++ [pipe], suffix, ?_, ?_, keptLength, by omega, keptData⟩
    · have one : s.head + k - s.head + 1 = (command ++ [pipe]).length := by omega
      rw [search, ok_bind]
      dsimp only
      rw [moved, ok_bind, one, tail]
    · have split : s.pending = command ++ [pipe] ++ skipped ++ suffix := by
        have parts := List.take_append_drop (k + 1) s.pending
        have first : s.pending.take (k + 1) = command ++ [pipe] := by
          rw [pending', List.take_take, Nat.min_eq_left (by omega), upTo]
        have second : s.pending.drop (k + 1) = skipped ++ suffix := by
          rw [pending, List.drop_drop, ← later]
          rfl
        rw [← parts, first, second, ← List.append_assoc]
      rw [split]
      exact .some_ command skipped suffix whole boundary

variable (szTxtLen szMaxBufLen) in
theorem keepSlow_ok (framed : s.Framed) (some_ : s.pSendBuf.isSome) :
    ∃ s' rest suffix, s.keepSlow szTxtLen szMaxBufLen = .ok s' ∧ Keeps s.pending rest suffix ∧
      s'.pending = rest ++ suffix ∧ s'.Valid ∧ s'.pSendBuf.isSome ∧
      s'.sendBufDataLen + szTxtLen ≤ s'.sendBufLen := by
  obtain ⟨buf, at_⟩ := Option.isSome_iff_exists.mp some_
  obtain ⟨⟨buf', n⟩, rest, suffix, keeps, what, length, le, data⟩ :=
    keepData_ok szTxtLen szMaxBufLen framed at_
  dsimp only at length le data
  have room := lt_allign (szTxtLen + n)
  have read : readAt buf' 0 n = some (buf'.take n) := by
    rw [readAt_of_le (by omega), List.drop_zero]
  have size : (buf'.take n).length = n := by
    rw [List.length_take]
    omega
  obtain ⟨new, write, written⟩ := writeAt_of_le
    (List.replicate (allign (szTxtLen + n)) (0 : UInt8)) 0 (buf'.take n) (by simp; omega)
  have front := written.upTo
  have newLength := written.length
  rw [size] at front
  rw [List.length_replicate] at newLength
  let s' : SendBuffer := { s with
    pSendBuf := some new
    head := 0
    sendBufLen := allign (szTxtLen + n) - 1
    sendBufDataLen := n }
  refine ⟨s', rest, suffix, ?_, what, ?_, ⟨Nat.zero_le _, ?_, ?_⟩, rfl, ?_⟩
  · rw [keepSlow, inside_bind at_, keeps, ok_bind]
    dsimp only
    rw [inside_bind read, inside_bind write]
    rfl
  · rw [pending_some (s := s') rfl]
    simpa [s', data] using front
  · dsimp only [s']
    omega
  · simp [s', newLength]
    omega
  · dsimp only [s']
    omega

theorem inside_bind_ne {α β : Type} {o : Option α} {f : α → Except Stop β}
    (rest : ∀ x, f x ≠ .error .overflow) : (inside o >>= f) ≠ .error .overflow := by
  cases o with
  | none => exact fun eq => nomatch (show Except.error Stop.outside = Except.error _ from eq)
  | some x => exact rest x

theorem append_ne (sText : Text) : s.append sText ≠ .error .overflow :=
  inside_bind_ne fun _ => inside_bind_ne fun _ => inside_bind_ne fun _ eq => nomatch eq

/-- A buffer that has no block yet can grow. -/
theorem overflow_some {sText : Text} {myInfosTagLen myInfosLen : UInt32}
    (overflows : s.putInSendBuf sText myInfosTagLen myInfosLen = .error .overflow) :
    s.pSendBuf.isSome := by
  cases at_ : s.pSendBuf with
  | some buf => rfl
  | none =>
    obtain ⟨t, n, made, none_⟩ : ∃ t n, { s with sendCalled := s.sendCalled + 1 }.makeRoom
        sText.length myInfosTagLen myInfosLen = .ok (t, n) ∧ t.pSendBuf = none := by
      unfold makeRoom
      simp only [at_]
      split
      · exact ⟨_, _, rfl, rfl⟩
      · split <;> exact ⟨_, _, rfl, rfl⟩
    have new : ∃ t', t.realloc n = .ok t' := by
      simp only [realloc, none_]
      exact ⟨_, rfl⟩
    obtain ⟨t', new⟩ := new
    unfold putInSendBuf at overflows
    dsimp only at overflows
    rw [made, ok_bind] at overflows
    dsimp only at overflows
    rw [new] at overflows
    split at overflows
    · exact absurd overflows (append_ne sText)
    · exact absurd overflows (append_ne sText)

end

end SendBuffer

section
variable {s t rest suffix : Text}

theorem cutAfter_ends (ends : s = [] ∨ s.getLast? = some pipe) : (cutAfter isPipe s).2 = [] := by
  rcases ends with rfl | ends
  · rfl
  · by_contra some_
    have clean := cutAfter_rest isPipe s
    have last := ends
    rw [← cutAfter_flatten isPipe s, List.getLast?_append_of_ne_nil _ some_] at last
    exact absurd (clean pipe (List.mem_of_getLast? last)) (by decide)

theorem cutAfter_whole (whole : (cutAfter isPipe s).2 = []) (t : Text) :
    cutAfter isPipe (s ++ t) =
      ((cutAfter isPipe s).1 ++ (cutAfter isPipe t).1, (cutAfter isPipe t).2) := by
  rw [cutAfter_append, whole, List.nil_append]

/-- Where the data was a row of commands the client is left with some of them. -/
theorem Keeps.commands {pending : Text} (keeps : Keeps pending rest suffix) (sent text : Text)
    (whole : (cutAfter isPipe (sent ++ pending)).2 = []) :
    ∃ kept, kept.Sublist (cutAfter isPipe (sent ++ pending)).1 ∧
      (cutAfter isPipe (sent ++ (rest ++ suffix ++ text))).1 =
        kept ++ (if pending = [] then [[pipe]] else []) ++ (cutAfter isPipe text).1 := by
  cases keeps with
  | nothing =>
    rw [List.append_nil] at whole ⊢
    refine ⟨_, List.Sublist.refl _, ?_⟩
    have one : cutAfter isPipe [pipe] = ([[pipe]], []) := rfl
    rw [if_pos rfl, List.append_nil, cutAfter_whole whole, cutAfter_whole (by rw [one]), one]
    simp
  | some_ command skipped suffix clean boundary =>
    have first : (cutAfter isPipe (sent ++ (command ++ [pipe]))).2 = [] :=
      cutAfter_ends (.inr (by simp))
    have second := cutAfter_ends boundary
    have parts : sent ++ (command ++ [pipe] ++ skipped ++ suffix) =
        sent ++ (command ++ [pipe]) ++ (skipped ++ suffix) := by simp
    have parts' : sent ++ (command ++ [pipe] ++ suffix ++ text) =
        sent ++ (command ++ [pipe]) ++ (suffix ++ text) := by simp
    rw [parts, cutAfter_whole first, cutAfter_whole second] at whole ⊢
    dsimp only at whole ⊢
    refine ⟨(cutAfter isPipe (sent ++ (command ++ [pipe]))).1 ++ (cutAfter isPipe suffix).1,
      (List.sublist_append_right _ _).append_left _, ?_⟩
    rw [parts', cutAfter_whole first, cutAfter_whole whole, if_neg (by simp)]
    simp

end

namespace SendBuffer

section
variable {s : SendBuffer} {sText : Text}

theorem append_ok (valid : s.Valid) (some_ : s.pSendBuf.isSome)
    (room : s.sendBufDataLen + sText.length ≤ s.sendBufLen) :
    ∃ s', s.append sText = .ok s' ∧ s'.Valid ∧ s'.pending = s.pending ++ sText := by
  have appended := append_ends valid some_ room
  cases done : s.append sText with
  | ok s' =>
    rw [done] at appended
    exact ⟨s', rfl, appended⟩
  | error stop =>
    rw [done] at appended
    rw [show stop = .overflow from appended] at done
    exact absurd done (append_ne sText)

/-- With a command at its end the data takes room. -/
theorem framed_put {before : Text} (valid : s.Valid) (pending : s.pending = before ++ sText)
    (ends : sText.getLast? = some pipe) : s.Framed := by
  have last : s.pending.getLast? = some pipe := by
    rw [pending, List.getLast?_append, ends]
    rfl
  refine ⟨valid, fun some_ => ?_, .inr last⟩
  obtain ⟨buf, at_⟩ := Option.isSome_iff_exists.mp some_
  have data_le := valid.data_le
  by_contra none_
  have empty : s.sendBufDataLen = 0 := by omega
  rw [pending_some at_, empty] at last
  simp at last

theorem putKeeping_slow (framed : s.Framed) (ends : sText.getLast? = some pipe)
    {myInfosTagLen myInfosLen : UInt32}
    (overflows : s.putInSendBuf sText myInfosTagLen myInfosLen = .error .overflow) :
    ∃ s' rest suffix, s.putKeeping sText myInfosTagLen myInfosLen = .ok s' ∧ s'.Framed ∧
      Keeps s.pending rest suffix ∧ s'.pending = rest ++ suffix ++ sText := by
  have called : Framed { s with sendCalled := s.sendCalled + 1 } :=
    ⟨⟨framed.valid.head_le, framed.valid.data_le, framed.valid.block⟩, framed.some_, framed.ends⟩
  obtain ⟨kept, rest, suffix, slow, keeps, pending, valid, some_, room⟩ :=
    keepSlow_ok sText.length (maxBufLen s.bigSendBuffer myInfosTagLen myInfosLen) called
      (overflow_some (s := s) overflows)
  have put : s.putKeeping sText myInfosTagLen myInfosLen = kept.append sText := by
    unfold putKeeping
    rw [overflows]
    dsimp only
    rw [slow, ok_bind]
  obtain ⟨s', done, valid', pending'⟩ := append_ok valid some_ room
  rw [pending] at pending'
  exact ⟨s', rest, suffix, put.trans done, framed_put valid' pending' ends, keeps, pending'⟩

/-- When the branch for slow clients is taken the client gets the rest of the command it has
begun to get, then later ones from the beginning of one on, then the new text. No access
leaves the buffer. -/
theorem slow_client_keeps_commands (framed : s.Framed) (ends : sText.getLast? = some pipe)
    (myInfosTagLen myInfosLen : UInt32)
    (overflows : s.putInSendBuf sText myInfosTagLen myInfosLen = .error .overflow) :
    ∃ s' rest suffix, s.putKeeping sText myInfosTagLen myInfosLen = .ok s' ∧ s'.Framed ∧
      Keeps s.pending rest suffix ∧ s'.pending = rest ++ suffix ++ sText ∧
      ∀ sent, (cutAfter isPipe (sent ++ s.pending)).2 = [] →
        ∃ kept, kept.Sublist (cutAfter isPipe (sent ++ s.pending)).1 ∧
          (cutAfter isPipe (sent ++ s'.pending)).1 =
            kept ++ (if s.pending = [] then [[pipe]] else []) ++ (cutAfter isPipe sText).1 := by
  obtain ⟨s', rest, suffix, done, framed', keeps, pending⟩ := putKeeping_slow framed ends overflows
  refine ⟨s', rest, suffix, done, framed', keeps, pending, fun sent whole => ?_⟩
  rw [pending]
  exact keeps.commands sent sText whole

theorem overflows_of {buf : List UInt8} (at_ : s.pSendBuf = some buf)
    (full : s.sendBufLen < s.sendBufDataLen + sText.length) (sent : s.head ≤ sText.length)
    {myInfosTagLen myInfosLen : UInt32} (most : maxBufLen s.bigSendBuffer myInfosTagLen myInfosLen <
      allign (s.sendBufDataLen + sText.length)) :
    s.putInSendBuf sText myInfosTagLen myInfosLen = .error .overflow := by
  simp only [putInSendBuf, makeRoom, at_]
  rw [if_pos full, if_neg (by omega), if_pos most]
  rfl

/-- A buffer full of empty commands. -/
def pipes (n : Nat) : SendBuffer :=
  { init with pSendBuf := some (List.replicate (n + 1) pipe), sendBufLen := n, sendBufDataLen := n }

theorem pipes_pending (n : Nat) : (pipes n).pending = List.replicate n pipe := by
  rw [pending_some rfl]
  simp [pipes, init, List.take_replicate]

theorem pipes_framed {n : Nat} (positive : 0 < n) : (pipes n).Framed := by
  obtain ⟨m, rfl⟩ := Nat.exists_eq_succ_of_ne_zero (Nat.ne_of_gt positive)
  refine ⟨⟨Nat.zero_le _, Nat.le_refl _, ?_⟩, fun _ => positive, .inr ?_⟩
  · simp [pipes, init]
  · rw [pipes_pending, List.replicate_succ', List.getLast?_concat]

theorem pipes_overflow : (pipes 100000).putInSendBuf (List.replicate 100000 pipe) 0 0 =
    .error .overflow := by
  refine overflows_of (rfl : _ = some (List.replicate 100001 pipe)) ?_ (Nat.zero_le _) ?_ <;>
    rw [List.length_replicate]
  · exact Nat.lt_add_of_pos_right (by decide)
  · exact (by decide : maxBufLen false 0 0 < allign (100000 + 100000))

/-- A buffer full of empty commands makes room for as many. -/
theorem pipes_keep_commands : ∃ s' rest suffix,
    (pipes 100000).putKeeping (List.replicate 100000 pipe) 0 0 = .ok s' ∧ s'.Framed ∧
      Keeps (pipes 100000).pending rest suffix ∧
      s'.pending = rest ++ suffix ++ List.replicate 100000 pipe ∧
      ∀ sent, (cutAfter isPipe (sent ++ (pipes 100000).pending)).2 = [] →
        ∃ kept, kept.Sublist (cutAfter isPipe (sent ++ (pipes 100000).pending)).1 ∧
          (cutAfter isPipe (sent ++ s'.pending)).1 =
            kept ++ (if (pipes 100000).pending = [] then [[pipe]] else []) ++
              (cutAfter isPipe (List.replicate 100000 pipe)).1 :=
  slow_client_keeps_commands (pipes_framed (by decide))
    (by rw [List.replicate_succ', List.getLast?_concat]) 0 0 pipes_overflow

end

/-- What happens to the buffer of a slow client that is kept. -/
inductive KeepEvent where
  | put (sText : Text) (ends : sText.getLast? = some pipe) (myInfosTagLen myInfosLen : UInt32)
  | send (result : SocketResult)
  | bigList

def stepKeeping (s : SendBuffer) : KeepEvent → Except Stop SendBuffer
  | .put sText _ myInfosTagLen myInfosLen => s.putKeeping sText myInfosTagLen myInfosLen
  | .send result => do
    let sent ← s.try2Send result
    pure sent.1
  | .bigList => pure { s with bigSendBuffer := true }

section
variable {s : SendBuffer}

theorem framed_putKeeping (framed : s.Framed) {sText : Text} (ends : sText.getLast? = some pipe)
    (myInfosTagLen myInfosLen : UInt32) :
    ∃ s', s.putKeeping sText myInfosTagLen myInfosLen = .ok s' ∧ s'.Framed := by
  have some_ : sText ≠ [] := by
    rintro rfl
    cases ends
  have put := putInSendBuf_ends framed.valid some_ myInfosTagLen myInfosLen
  cases done : s.putInSendBuf sText myInfosTagLen myInfosLen with
  | ok s' =>
    rw [done] at put
    refine ⟨s', ?_, framed_put put.1 put.2 ends⟩
    rw [putKeeping, done]
  | error stop =>
    rw [done] at put
    rw [show stop = .overflow from put] at done
    obtain ⟨s', -, -, kept, framed', -, -⟩ := putKeeping_slow framed ends done
    exact ⟨s', kept, framed'⟩

/-- After everything was sent the block is gone or is the same. -/
theorem drained_some (some_ : s.drained.pSendBuf.isSome) :
    s.pSendBuf.isSome ∧ s.drained.sendBufLen = s.sendBufLen := by
  unfold drained at some_ ⊢
  split at some_
  · cases some_
  · rename_i small
    rw [if_neg small]
    exact ⟨by simpa using some_, rfl⟩

theorem try2Send_some {result : SocketResult} :
    (∀ r, s.try2Send result = .ok r → r.1.pSendBuf.isSome →
      s.pSendBuf.isSome ∧ r.1.sendBufLen = s.sendBufLen) ∧
    s.try2Send result ≠ .error .overflow := by
  have same {r t : SendBuffer × Text} (done : (Except.ok t : Except Stop _) = .ok r)
      (block : t.1.pSendBuf = s.pSendBuf ∧ t.1.sendBufLen = s.sendBufLen)
      (some_ : r.1.pSendBuf.isSome) : s.pSendBuf.isSome ∧ r.1.sendBufLen = s.sendBufLen := by
    obtain rfl := Except.ok.inj done
    exact ⟨block.1 ▸ some_, block.2⟩
  unfold try2Send
  split
  · exact ⟨fun r done => same done ⟨rfl, rfl⟩, (nomatch ·)⟩
  · split
    · exact ⟨fun r done => same done ⟨rfl, rfl⟩, (nomatch ·)⟩
    · cases result with
      | wouldBlock => exact ⟨fun r done => same done ⟨rfl, rfl⟩, (nomatch ·)⟩
      | failed => exact ⟨fun r done => same done ⟨rfl, rfl⟩, (nomatch ·)⟩
      | sent n =>
        dsimp only
        constructor
        · intro r done some_
          cases at_ : s.pSendBuf with
          | none =>
            rw [at_] at done
            cases done
          | some buf =>
            rw [inside_bind at_] at done
            cases read : readAt buf s.head (min (s.sendBufDataLen - s.head) 32768) with
            | none =>
              rw [read] at done
              cases done
            | some handed =>
              rw [inside_bind read] at done
              split at done
              · obtain ⟨some', len⟩ := same done ⟨rfl, rfl⟩ some_
                exact ⟨rfl, len⟩
              · obtain rfl := Except.ok.inj done
                exact ⟨rfl, (drained_some some_).2⟩
        · refine inside_bind_ne fun _ => inside_bind_ne fun _ => ?_
          split <;> exact (nomatch ·)

theorem framed_try2Send (framed : s.Framed) (result : SocketResult) :
    ∃ r, s.try2Send result = .ok r ∧ r.1.Framed := by
  have sends := try2Send_ends framed.valid result
  cases done : s.try2Send result with
  | error stop =>
    rw [done] at sends
    rw [show stop = .overflow from sends] at done
    exact absurd done try2Send_some.2
  | ok r =>
    rw [done] at sends
    obtain ⟨valid, pending⟩ := sends
    refine ⟨r, rfl, valid, fun some_ => ?_, ?_⟩
    · obtain ⟨some', len⟩ := try2Send_some.1 r done some_
      rw [len]
      exact framed.some_ some'
    · rcases framed.ends with empty | last
      · rw [empty] at pending
        exact .inl (List.append_eq_nil_iff.mp pending).2
      · rw [← pending] at last
        by_cases rest : r.1.pending = []
        · exact .inl rest
        · rw [List.getLast?_append_of_ne_nil _ rest] at last
          exact .inr last

/-- In every run the buffer of a client that is kept holds commands, and no access leaves it. -/
theorem keeping_framed (es : List KeepEvent) : ∃ s, es.foldlM stepKeeping init = .ok s ∧ s.Framed := by
  have keeps (s : SendBuffer) (framed : s.Framed) :
      ∃ s', es.foldlM stepKeeping s = .ok s' ∧ s'.Framed := by
    induction es generalizing s with
    | nil => exact ⟨s, rfl, framed⟩
    | cons e es ih =>
      obtain ⟨s', done, framed'⟩ : ∃ s', s.stepKeeping e = .ok s' ∧ s'.Framed := by
        cases e with
        | put sText ends myInfosTagLen myInfosLen =>
          exact framed_putKeeping framed ends myInfosTagLen myInfosLen
        | send result =>
          obtain ⟨r, done, framed'⟩ := framed_try2Send framed result
          exact ⟨r.1, by rw [stepKeeping, done]; rfl, framed'⟩
        | bigList =>
          exact ⟨_, rfl, ⟨framed.valid.head_le, framed.valid.data_le, framed.valid.block⟩,
            framed.some_, framed.ends⟩
      rw [List.foldlM_cons, done, ok_bind]
      exact ih s' framed'
  exact keeps init ⟨⟨Nat.le_refl _, Nat.le_refl _, rfl⟩, (nomatch ·), .inl rfl⟩

end

end SendBuffer

end FlyHub.Connection
