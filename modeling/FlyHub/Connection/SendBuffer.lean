import FlyHub.Lib.Block
import FlyHub.Text

/-!
# The send buffer of a user

`PutInSendBuf` appends a text to a block of memory and `Try2Send` hands bytes
from its front to the socket. Three numbers say where the data is: the offset of
the head, the length of the data and the length of the buffer.
-/

namespace FlyHub.Connection

open FlyHub.Lib

/-- `Allign`. -/
def allign (n : Nat) : Nat := n + n / 2 + 1

theorem lt_allign (n : Nat) : n < allign n := by
  unfold allign
  omega

/-- The send buffer. `head` is the offset of `m_pSendBufHead` in the block. -/
structure SendBuffer where
  pSendBuf : Option (List UInt8)
  head : Nat
  sendBufLen : Nat
  sendBufDataLen : Nat
  sendCalled : Nat
  bigSendBuffer : Bool
  error : Bool

/-- Why a call does not return in the usual way. -/
inductive Stop where
  /-- The buffer would grow over its maximum. -/
  | overflow
  /-- A copy leaves the block. -/
  | outside
  deriving DecidableEq

/-- A copy that has to stay inside its block. -/
def inside {α : Type} : Option α → Except Stop α
  | some x => .ok x
  | none => .error .outside

/-- What the socket does with the bytes it is handed. -/
inductive SocketResult where
  | sent (n : Nat)
  | wouldBlock
  | failed

namespace SendBuffer

def init : SendBuffer := ⟨none, 0, 0, 0, 0, false, false⟩

/-- `szMaxBufLen`, from the lengths of the two lists of MyINFOs. -/
def maxBufLen (big : Bool) (myInfosTagLen myInfosLen : UInt32) : Nat :=
  let longest := if myInfosLen < myInfosTagLen then myInfosTagLen else myInfosLen
  max 262144 (if big then longest * 2 else longest).toNat

/-- The data moves to the front of the block. -/
def compact (s : SendBuffer) (buf : List UInt8) : Except Stop SendBuffer := do
  let data ← inside (readAt buf s.head (s.sendBufDataLen - s.head))
  let buf ← inside (writeAt buf 0 data)
  pure { s with pSendBuf := some buf, head := 0, sendBufDataLen := s.sendBufDataLen - s.head }

/-- The data moves to a block of `n` bytes, at the same offsets. -/
def realloc (s : SendBuffer) (n : Nat) : Except Stop SendBuffer := do
  let new : List UInt8 := List.replicate n 0
  let buf ← match s.pSendBuf with
    | some old => do
      let data ← inside (readAt old 0 s.sendBufDataLen)
      inside (writeAt new 0 data)
    | none => pure new
  pure { s with
    pSendBuf := some buf
    sendBufLen := n - 1
    head := if s.pSendBuf.isNone then 0 else s.head }

/-- The first half of `PutInSendBuf`: the size of the block to move to, 0 for none. -/
def makeRoom (s : SendBuffer) (szTxtLen : Nat) (myInfosTagLen myInfosLen : UInt32) :
    Except Stop (SendBuffer × Nat) :=
  let szAllignLen := allign (s.sendBufDataLen + szTxtLen)
  if s.sendBufLen < s.sendBufDataLen + szTxtLen then
    match s.pSendBuf with
    | none => pure (s, szAllignLen)
    | some buf =>
      if szTxtLen < s.head then do
        let s ← s.compact buf
        pure (s, 0)
      else if maxBufLen s.bigSendBuffer myInfosTagLen myInfosLen < szAllignLen then .error .overflow
      else pure (s, szAllignLen)
  else if 100 < s.sendCalled then
    pure ({ s with sendCalled := 0 }, if s.sendBufLen ≤ szAllignLen then 0 else szAllignLen)
  else pure (s, 0)

/-- The text goes after the data, and a NUL after it. -/
def append (s : SendBuffer) (sText : Text) : Except Stop SendBuffer := do
  let buf ← inside s.pSendBuf
  let buf ← inside (writeAt buf s.sendBufDataLen sText)
  let buf ← inside (writeAt buf (s.sendBufDataLen + sText.length) [0])
  pure { s with pSendBuf := some buf, sendBufDataLen := s.sendBufDataLen + sText.length }

/-- `PutInSendBuf`, with the lengths of the lists of MyINFOs at the time. -/
def putInSendBuf (s : SendBuffer) (sText : Text) (myInfosTagLen myInfosLen : UInt32) :
    Except Stop SendBuffer := do
  let s := { s with sendCalled := s.sendCalled + 1 }
  let room ← s.makeRoom sText.length myInfosTagLen myInfosLen
  let s ← if room.2 ≠ 0 then room.1.realloc room.2 else pure room.1
  s.append sText

/-- After everything has been sent a big block is given back. -/
def drained (s : SendBuffer) : SendBuffer :=
  if s.bigSendBuffer || 1024 < s.sendBufLen then
    { s with
      pSendBuf := none
      head := 0
      sendBufLen := 0
      sendBufDataLen := 0
      bigSendBuffer := false }
  else
    { s with pSendBuf := s.pSendBuf.map fun buf => buf.set 0 0, head := 0, sendBufDataLen := 0 }

/-- `Try2Send`, with the bytes the socket took of those it was handed. -/
def try2Send (s : SendBuffer) (result : SocketResult) : Except Stop (SendBuffer × Text) :=
  if s.error || s.sendBufDataLen = 0 then pure (s, [])
  else if s.sendBufDataLen < s.head then pure ({ s with error := true }, [])
  else
    let len := s.sendBufDataLen - s.head
    match result with
    | .wouldBlock => pure (s, [])
    | .failed => pure ({ s with error := true }, [])
    | .sent n => do
      let buf ← inside s.pSendBuf
      let handed ← inside (readAt buf s.head (min len 32768))
      let n := min n (min len 32768)
      if n < len then pure ({ s with head := s.head + n }, handed.take n)
      else pure (s.drained, handed.take n)

end SendBuffer

end FlyHub.Connection
