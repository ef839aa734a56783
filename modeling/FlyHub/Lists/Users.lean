import FlyHub.Lib.Run
import FlyHub.Lists.NickText

/-!
# The lists of the users

`Users` keeps five texts ready for the clients: the nicks, the operators, the
addresses, and the MyINFOs in their short and long forms. Each has a cache of
its compression, which is made when the list is sent and dropped by setting its
length to zero.
-/

namespace FlyHub.Lists

open FlyHub.Lib

/-- A list with its cache. `allocated` is false as long as the block of memory
has not been made. -/
structure UserList where
  text : Text
  len : Nat
  zBuf : Text
  zLen : Nat
  allocated : Bool
  deriving DecidableEq

/-- `FullMyINFOOption`: long MyINFOs for all, for those who may have them, or for
nobody. -/
inductive FullMyInfo where
  | long
  | both
  | short
  deriving DecidableEq, Repr

namespace UserList

variable (l : UserList)

def init (text : Text) (allocated : Bool) : UserList := ⟨text, text.length, [], 0, allocated⟩

/-- The bytes in use. -/
def bytes : Text := l.text.take l.len

/-- A nick is put over the closing pipe. -/
def addNick (nick : Text) : UserList :=
  { l with text := add2NickList l.bytes nick, len := l.len + nick.length + 2, zLen := 0 }

/-- A nick is cut out if it is found. -/
def delNick (mark : Nat) (nick : Text) : UserList :=
  match findNick mark l.bytes nick with
  | some i =>
    { l with text := cutNick mark l.bytes nick i, len := l.len - (nick.length + 2), zLen := 0 }
  | none => { l with text := restored mark l.text }

/-- `Add2MyInfos` and `Add2MyInfosTag`. The first text makes the block. -/
def addInfo (sMyInfo : Text) : UserList :=
  { l with
    text := l.bytes ++ sMyInfo
    len := l.len + sMyInfo.length
    zLen := 0
    allocated := l.allocated || 0 < sMyInfo.length }

/-- `DelFromMyInfos` and `DelFromMyInfosTag`, which do not look for the `$MyINFO `
at the start. -/
def delInfo (sMyInfo : Text) : UserList :=
  match memmem (sMyInfo.drop 8) l.bytes with
  | some i =>
    { l with
      text := l.bytes.take (i - 8) ++ l.bytes.drop (i - 8 + sMyInfo.length)
      len := l.len - sMyInfo.length
      zLen := 0 }
  | none => l

/-- The MyINFO of a bot will be appended. -/
def lacksBot (sMyInfo : Text) : Bool := l.allocated && (memmem sMyInfo l.bytes).isNone

/-- The MyINFO of a bot is appended unless it is there. The cache is left to the caller. -/
def addBotInfo (sMyInfo : Text) : UserList :=
  if l.lacksBot sMyInfo then
    { l with text := l.bytes ++ sMyInfo, len := l.len + sMyInfo.length }
  else l

def delBotInfo (sMyInfo : Text) : UserList :=
  if l.allocated then
    match memmem sMyInfo l.bytes with
    | some i =>
      { l with
        text := l.bytes.take i ++ l.bytes.drop (i + sMyInfo.length)
        len := l.len - sMyInfo.length
        zLen := 0 }
    | none => l
  else l

def dropCache : UserList := { l with zLen := 0 }

/-- The first bytes of every compressed text. -/
def zOn : Text := ascii "$ZOn|"

/-- `CreateZPipe`. A text that is short or does not get shorter is not compressed. -/
def createZPipe (deflate : Text → Option Text) : UserList :=
  if l.bytes.length < 128 then l
  else
    match deflate l.bytes with
    | none => l
    | some out =>
      let data := zOn ++ out
      if l.bytes.length ≤ data.length then l.dropCache
      else { l with zBuf := data ++ l.zBuf.drop data.length, zLen := data.length }

/-- `SendCompressedOrPlain`: the list after it, and the bytes sent. -/
def send (deflate : Text → Option Text) (supportZpipe : Bool) : UserList × Text :=
  if !supportZpipe then (l, l.bytes)
  else
    let l := if l.zLen = 0 then l.createZPipe deflate else l
    if l.zLen = 0 then (l, l.bytes) else (l, l.zBuf.take l.zLen)

end UserList

/-- The lists of `Users`. -/
structure Users where
  nickList : UserList
  opList : UserList
  userIPList : UserList
  myInfos : UserList
  myInfosTag : UserList
  deriving DecidableEq

/-- What is done to the lists. `isOp` is for an operator whose key is shown. -/
inductive ListOp where
  | add2NickList (sNick : Text) (isOp : Bool)
  | addBot2NickList (sNick : Text) (isOp : Bool)
  | add2OpList (sNick : Text)
  | delFromNickList (sNick : Text) (isOp : Bool)
  | delFromOpList (sNick : Text)
  | add2MyInfos (sMyInfoShort : Text)
  | add2MyInfosTag (sMyInfoLong : Text)
  | delFromMyInfos (sMyInfoShort : Text)
  | delFromMyInfosTag (sMyInfoLong : Text)
  | addBot2MyInfos (sMyInfo : Text)
  | delBotFromMyInfos (sMyInfo : Text)
  | add2UserIP (sNick sIP : Text)
  | delFromUserIP (sNick sIP : Text)
  | sendNickList (supportZpipe : Bool)
  | sendOpList (supportZpipe : Bool)
  | sendUserIPList (supportZpipe : Bool)
  | sendMyInfos (supportZpipe : Bool)
  | sendMyInfosTag (supportZpipe : Bool)

namespace Users

def init (option : FullMyInfo) : Users where
  nickList := .init (ascii "$NickList |") true
  opList := .init (ascii "$OpList |") true
  userIPList := .init (ascii "$UserIP |") true
  myInfos := .init [] (option ≠ .long)
  myInfosTag := .init [] (option ≠ .short)

variable (u : Users)

def add2OpList (sNick : Text) : Users := { u with opList := u.opList.addNick sNick }

def addBot2NickList (sNick : Text) (isOp : Bool) : Users :=
  let u := { u with nickList := u.nickList.addNick sNick }
  if isOp then u.add2OpList sNick else u

def add2NickList (sNick : Text) (isOp : Bool) : Users := u.addBot2NickList sNick isOp

def delFromOpList (sNick : Text) : Users := { u with opList := u.opList.delNick 7 sNick }

def delFromNickList (sNick : Text) (isOp : Bool) : Users :=
  let u := { u with nickList := u.nickList.delNick 9 sNick }
  if isOp then u.delFromOpList sNick else u

/-- `AddBot2MyInfos`. Each list that grows has the cache of the other one dropped. -/
def addBot2MyInfos (sMyInfo : Text) : Users :=
  let tagGrows := u.myInfosTag.lacksBot sMyInfo
  let infosGrow := u.myInfos.lacksBot sMyInfo
  let tag := u.myInfosTag.addBotInfo sMyInfo
  let infos := u.myInfos.addBotInfo sMyInfo
  { u with
    myInfosTag := if infosGrow then tag.dropCache else tag
    myInfos := if tagGrows then infos.dropCache else infos }

def delBotFromMyInfos (sMyInfo : Text) : Users :=
  { u with
    myInfosTag := u.myInfosTag.delBotInfo sMyInfo
    myInfos := u.myInfos.delBotInfo sMyInfo }

/-- The entry of a user in the list of addresses. -/
def userIP (sNick sIP : Text) : Text := sNick ++ blank :: sIP

def step (deflate : Text → Option Text) : ListOp → Users
  | .add2NickList sNick isOp => u.add2NickList sNick isOp
  | .addBot2NickList sNick isOp => u.addBot2NickList sNick isOp
  | .add2OpList sNick => u.add2OpList sNick
  | .delFromNickList sNick isOp => u.delFromNickList sNick isOp
  | .delFromOpList sNick => u.delFromOpList sNick
  | .add2MyInfos s => { u with myInfos := u.myInfos.addInfo s }
  | .add2MyInfosTag s => { u with myInfosTag := u.myInfosTag.addInfo s }
  | .delFromMyInfos s => { u with myInfos := u.myInfos.delInfo s }
  | .delFromMyInfosTag s => { u with myInfosTag := u.myInfosTag.delInfo s }
  | .addBot2MyInfos s => u.addBot2MyInfos s
  | .delBotFromMyInfos s => u.delBotFromMyInfos s
  | .add2UserIP sNick sIP => { u with userIPList := u.userIPList.addNick (userIP sNick sIP) }
  | .delFromUserIP sNick sIP => { u with userIPList := u.userIPList.delNick 7 (userIP sNick sIP) }
  | .sendNickList z => { u with nickList := (u.nickList.send deflate z).1 }
  | .sendOpList z => { u with opList := (u.opList.send deflate z).1 }
  | .sendUserIPList z => { u with userIPList := (u.userIPList.send deflate z).1 }
  | .sendMyInfos z => { u with myInfos := (u.myInfos.send deflate z).1 }
  | .sendMyInfosTag z => { u with myInfosTag := (u.myInfosTag.send deflate z).1 }

/-- The lists after `ops`. -/
def reach (deflate : Text → Option Text) (option : FullMyInfo) (ops : List ListOp) : Users :=
  run (fun u op => u.step deflate op) (init option) ops

end Users

end FlyHub.Lists
