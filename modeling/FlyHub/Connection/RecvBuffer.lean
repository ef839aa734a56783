import FlyHub.Connection.SendBuffer

/-!
# The receive buffer of a user

`DoRecv` puts what the socket delivers after the bytes left over from the reads
before, and `UserProcessLines` hands every command, up to its `|`, to
`PreProcessData`. What follows the last `|` moves to the front of the buffer.
-/

namespace FlyHub.Connection

open FlyHub.Lib

def pipe : UInt8 := 124

def isPipe (c : UInt8) : Bool := c = pipe

/-- A NUL in the stream becomes the digit zero. -/
def replaceNul (c : UInt8) : UInt8 := if c = 0 then 48 else c

/-- What the commands do to the user, and what the reading of them looks at. -/
structure Handler (σ : Type) where
  preProcessData : σ → Text → σ
  processCmds : σ → σ
  close : σ → σ
  isPastLogin : σ → Bool
  beforeAddMe : σ → Bool
  close_past : ∀ u, isPastLogin (close u) = true

/-- What a connection has received. `incoming` is what the client has sent and the hub not read;
`passed` are the commands handed on, each with the user as it was then. -/
structure RecvState (σ : Type) where
  recvBuf : List UInt8
  recvBufLen : Nat
  recvBufDataLen : Nat
  recvCalled : Nat
  incoming : Text
  user : σ
  passed : List (σ × Text)

/-- What `recv` finds. -/
inductive RecvResult where
  | data (n : Nat)
  | wouldBlock
  | closed

/-- What happens to a connection: a read, or something that other parts of the hub
do to its user. `probe` tells that a read is due though nothing is available. -/
inductive RecvEvent (σ : Type) where
  | doRecv (availBytes : Nat) (flooded probe : Bool) (result : RecvResult)
  | elsewhere (change : σ → σ)

section
variable {σ : Type} (H : Handler σ)

/-- The longest command the user may send. -/
def Handler.limit (u : σ) : Nat := if H.beforeAddMe u then 1024 else 65536

namespace RecvState

def init (stream : Text) (user : σ) : RecvState σ := ⟨[], 0, 0, 0, stream, user, []⟩

/-- The bytes left in the buffer. -/
def leftover (k : RecvState σ) : Text := k.recvBuf.take k.recvBufDataLen

/-- The loop of `UserProcessLines` over `n` bytes from `i` on, where the command
begins at `p`. The result is where the next command begins, if the user is still there. -/
def scan : Nat → Nat → Nat → RecvState σ → RecvState σ × Option Nat
  | 0, _, p, k => (k, some p)
  | n + 1, i, p, k =>
    let byte := k.recvBuf.getD i 0
    if byte = pipe then
      let c := k.recvBuf.getD (i + 1) 0
      let marked := k.recvBuf.set (i + 1) 0
      let commandLen := i - p + 1
      if commandLen ≤ H.limit k.user then
        let command := (marked.drop p).take commandLen
        let next : RecvState σ :=
          { k with
            recvBuf := marked.set (i + 1) c
            user := H.preProcessData k.user command
            passed := k.passed ++ [(k.user, command)] }
        if H.isPastLogin next.user then (next, none) else scan n (i + 1) (p + commandLen) next
      else ({ k with recvBuf := marked, user := H.close k.user }, none)
    else if byte = 0 then scan n (i + 1) p { k with recvBuf := k.recvBuf.set i 48 }
    else scan n (i + 1) p k

/-- The end of `UserProcessLines`: what is left over moves to the front. -/
def shift (k : RecvState σ) (p : Nat) : RecvState σ :=
  let rest := k.recvBufDataLen - p
  let k := { k with recvBufDataLen := rest }
  if rest = 0 then { k with user := H.processCmds k.user, recvBuf := k.recvBuf.set 0 0 }
  else if rest = 1 then
    { k with
      user := H.processCmds k.user
      recvBuf := (k.recvBuf.set 0 (k.recvBuf.getD p 0)).set 1 0 }
  else if H.limit k.user < rest then { k with user := H.close k.user }
  else
    { k with
      user := H.processCmds k.user
      recvBuf := (overwrite k.recvBuf 0 ((k.recvBuf.drop p).take rest)).set rest 0 }

/-- `UserProcessLines`, where the new data begins at `newDataStart`. -/
def userProcessLines (k : RecvState σ) (newDataStart : Nat) : RecvState σ :=
  let scanned := scan H (k.recvBufDataLen - newDataStart) newDataStart 0 k
  match scanned.2 with
  | some p => scanned.1.shift H p
  | none => scanned.1

/-- The data moves to a block of `n` bytes. -/
def realloc (k : RecvState σ) (n : Nat) : RecvState σ :=
  { k with
    recvBuf := overwrite (List.replicate n 0) 0 (k.recvBuf.take k.recvBufDataLen)
    recvBufLen := n - 1 }

/-- The part of `DoRecv` that makes room for `avail` bytes. The buffer grows up to
one megabyte, and from time to time it shrinks. -/
def makeRoom (k : RecvState σ) (avail : Nat) : Option (RecvState σ) :=
  let szAllignLen := allign (k.recvBufDataLen + avail)
  if k.recvBufLen < k.recvBufDataLen + avail then
    if 1048576 < k.recvBufDataLen + avail then none else some (k.realloc szAllignLen)
  else if 60 < k.recvCalled then
    let k := { k with recvCalled := 0 }
    some (if k.recvBufLen ≤ szAllignLen then k else k.realloc szAllignLen)
  else some k

/-- The call of `recv` and what is done with its result. -/
def receive (k : RecvState σ) (result : RecvResult) : RecvState σ :=
  let k := { k with recvCalled := k.recvCalled + 1 }
  match result with
  | .wouldBlock => k
  | .closed => { k with user := H.close k.user }
  | .data n =>
    let bytes := k.incoming.take (min n (k.recvBufLen - k.recvBufDataLen))
    if bytes = [] then k
    else
      let dataLen := k.recvBufDataLen + bytes.length
      let k :=
        { k with
          recvBuf := (overwrite k.recvBuf k.recvBufDataLen bytes).set dataLen 0
          recvBufDataLen := dataLen
          incoming := k.incoming.drop bytes.length }
      k.userProcessLines H (dataLen - bytes.length)

/-- `DoRecv`. -/
def doRecv (k : RecvState σ) (availBytes : Nat) (flooded probe : Bool) (result : RecvResult) :
    RecvState σ :=
  if H.isPastLogin k.user || availBytes ≠ 0 && flooded || availBytes = 0 && !probe then k
  else
    match k.makeRoom (if availBytes = 0 then 16 else min availBytes 8192) with
    | none => { k with user := H.close k.user }
    | some k => k.receive H result

def step (k : RecvState σ) : RecvEvent σ → RecvState σ
  | .doRecv availBytes flooded probe result => k.doRecv H availBytes flooded probe result
  | .elsewhere change => { k with user := change k.user }

end RecvState

end

end FlyHub.Connection
