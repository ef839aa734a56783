import FlyHub.Ban.Operations
import FlyHub.Pxb.File

/-!
# The ban files

`Save` writes the bans to one PXB file and the range bans to another. `Load` reads
them back into the store, checks their sizes and leaves out what has expired.
-/

namespace FlyHub.Ban

open FlyHub.Lib FlyHub.Pxb

/-- `sBanIds`. -/
def banIds : List Ident :=
  [ident 'B' 'T', ident 'N' 'I', ident 'N' 'B', ident 'I' 'P', ident 'I' 'B', ident 'F' 'B',
    ident 'R' 'E', ident 'B' 'Y', ident 'E' 'X']

/-- `sRangeBanIds`. -/
def rangeBanIds : List Ident :=
  [ident 'B' 'T', ident 'R' 'F', ident 'R' 'T', ident 'F' 'B', ident 'R' 'E', ident 'B' 'Y',
    ident 'E' 'X']

/-- `sPtokaXBans` and `sPtokaXRangeBans`. -/
def ptokaXBans : Text := ascii "PtokaX Bans"
def ptokaXRangeBans : Text := ascii "PtokaX RangeBans"

def ipBytes (ip : IpHash) : Text := toBE 16 ip.toNat

def bytesIp (bytes : Text) : IpHash := BitVec.ofNat 128 (ofBE bytes)

/-- A `time_t` is written as the unsigned number with the same 64 bits. -/
def timeValue (t : Int) : Value := .eightBytes (Int64.ofInt t).toUInt64

def bytesTime (bytes : Text) : Int := (UInt64.ofNat (ofBE bytes)).toInt64.toInt

/-- The sub-items of a ban. -/
def BanItem.values (b : BanItem) : List Value :=
  [.byte !b.perm, textValue b.sNick, .byte b.nick, .string (ipBytes b.ipHash), .byte b.ip,
    .byte b.full, textValue b.sReason, textValue b.sBy, timeValue b.tempBanExpire]

def RangeBanItem.values (r : RangeBanItem) : List Value :=
  [.byte !r.perm, .string (ipBytes r.fromIpHash), .string (ipBytes r.toIpHash), .byte r.full,
    textValue r.sReason, textValue r.sBy, timeValue r.tempBanExpire]

def banFile : RecordFile BanItem := ⟨ptokaXBans, 9, fun _ => banIds, BanItem.values⟩

def rangeBanFile : RecordFile RangeBanItem :=
  ⟨ptokaXRangeBans, 7, fun _ => rangeBanIds, RangeBanItem.values⟩

/-- The two files. -/
structure Files where
  bans : Text
  rangeBans : Text

namespace BanManager

/-- `Save`, when it is forced or called often enough. -/
def save (m : BanManager) : Option Files := do
  let bans ← banFile.save ((m.tempBanList ++ m.permBanList).map m.ban)
  let rangeBans ← rangeBanFile.save m.rangeBanList
  pure ⟨bans, rangeBans⟩

end BanManager

section
variable (r : PXBReader)

/-- A byte is set unless it is a zero digit. -/
def readFlag (k : Nat) : Except Failure Bool := do
  let bytes ← itemData r k 1
  pure (bytes ≠ [48])

def readExpire (k : Nat) : Except Failure Int :=
  if itemLength r k ≠ 8 then throw .exits
  else do
    let bytes ← itemData r k 8
    pure (bytesTime bytes)

/-- "Do we have some nick?" -/
def readNick (b : BanItem) : Except Failure BanItem :=
  if itemLength r 1 = 0 then pure b
  else if 64 < itemLength r 1 then throw .exits
  else do
    let sNick ← itemData r 1 (itemLength r 1)
    let nick ← readFlag r 2
    pure { b with sNick := sNick, nickHash := hashNick sNick, nick := nick }

section
variable (ipText : IpHash → Text)

/-- "Do we have some IP address?" `ipText` is `inet_ntop`. -/
def readIp (b : BanItem) : Except Failure BanItem :=
  if itemLength r 3 = 0 then pure b
  else do
    let bytes ← itemData r 3 16
    if bytesIp bytes = 0 then pure b
    else if itemLength r 3 ≠ 16 then throw .exits
    else do
      let ip ← readFlag r 4
      let full ← readFlag r 5
      pure { b with ipHash := bytesIp bytes, sIp := ipText (bytesIp bytes), ip := ip, full := full }

def readBan : Except Failure BanItem := do
  let temp ← readFlag r 0
  let b ← readNick r { perm := !temp, temp := temp }
  let b ← readIp r ipText b
  let sReason ← readText r 6 511
  let sBy ← readText r 7 64
  let b := { b with sReason := sReason, sBy := sBy }
  if b.temp then do
    let tempBanExpire ← readExpire r 8
    pure { b with tempBanExpire := tempBanExpire }
  else pure b

/-- An end of a range. -/
def readRangeEnd (k : Nat) : Except Failure IpHash :=
  if itemLength r k ≠ 16 then throw .exits
  else do
    let bytes ← itemData r k 16
    pure (bytesIp bytes)

def readRangeBan : Except Failure RangeBanItem := do
  let temp ← readFlag r 0
  let fromIp ← readRangeEnd r 1
  let toIp ← readRangeEnd r 2
  let full ← readFlag r 3
  let sReason ← readText r 4 511
  let sBy ← readText r 5 64
  let b : RangeBanItem :=
    { perm := !temp, temp := temp, full := full, sReason := sReason, sBy := sBy
      fromIpHash := fromIp, toIpHash := toIp, sIpFrom := ipText fromIp, sIpTo := ipText toIp }
  if b.temp then do
    let tempBanExpire ← readExpire r 6
    pure { b with tempBanExpire := tempBanExpire }
  else pure b

end

end

def banRequest : Pxb.Request 9 := ⟨banIds, 9, Nat.le_refl 9, by decide⟩

def rangeBanRequest : Pxb.Request 7 := ⟨rangeBanIds, 7, Nat.le_refl 7, by decide⟩

namespace BanManager

section
variable (cfg : Config) (ipText : IpHash → Text) (now : Int)

/-- A ban that was read goes into the store unless it has expired. -/
def addRead (m : BanManager) (b : BanItem) : BanManager :=
  if b.expired now then m.discard b else m.store cfg.place b

def addReadRange (m : BanManager) (r : RangeBanItem) : BanManager :=
  if r.expired now then m else { m with rangeBanList := m.rangeBanList ++ [r] }

def takeBan (m : BanManager) (r : PXBReader) : Except Failure BanManager := do
  let b ← readBan r ipText
  pure (m.addRead cfg now b)

def takeRangeBan (m : BanManager) (r : PXBReader) : Except Failure BanManager := do
  let b ← readRangeBan r ipText
  pure (m.addReadRange now b)

/-- `Load` at the time `now`. No loop runs more than `turns` turns. -/
def load (turns : Nat) (files : Files) (m : BanManager) : Except Failure BanManager := do
  let (m, ours) ← readFile (by decide) ptokaXBans banRequest (takeBan cfg ipText now) turns
    files.bans m
  if !ours then pure m
  else do
    let (m, _) ← readFile (by decide) ptokaXRangeBans rangeBanRequest (takeRangeBan ipText now)
      turns files.rangeBans m
    pure m

end

end BanManager

end FlyHub.Ban
