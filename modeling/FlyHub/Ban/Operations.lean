import FlyHub.Ban.Manager
import FlyHub.Lib.Run

/-!
# Operations of the ban store

The adders, the unbans, the lookups and the clears, and the store as a machine
whose events are these operations, each at its own time.
-/

namespace FlyHub.Ban

open FlyHub.Lib

/-- What an operation returns. Codes are those of `BanIp`: 0 is added, 1 is no
IP, 2 is already banned. -/
inductive Reply where
  | void
  | ok (added : Bool)
  | code (c : Nat)
  | found (b : Option BanId)
  | foundRange (r : Option RangeBanItem)

/-- What a scan of the range bans leaves. -/
structure RangeScan where
  list : List RangeBanItem
  stopped : Option RangeBanItem

def scanRanges (verdict : RangeBanItem → Verdict) : List RangeBanItem → RangeScan
  | [] => ⟨[], none⟩
  | r :: rs =>
    match verdict r with
    | .remove => scanRanges verdict rs
    | .stop => ⟨r :: rs, some r⟩
    | .keep =>
      let rest := scanRanges verdict rs
      ⟨r :: rest.list, rest.stopped⟩

def RangeBanItem.covers (r : RangeBanItem) (ipHash : IpHash) : Bool :=
  r.fromIpHash ≤ ipHash && ipHash ≤ r.toIpHash

def RangeBanItem.sameRange (r r' : RangeBanItem) : Bool :=
  r.fromIpHash = r'.fromIpHash && r.toIpHash = r'.toIpHash

/-- The scan of `RangeBan`. -/
def rangeBanScan (new cur : RangeBanItem) : Verdict :=
  if !cur.sameRange new then .keep
  else if cur.temp then .keep
  else if !cur.full && new.full then .remove
  else .stop

/-- The scan of `RangeTempBan`. -/
def rangeTempBanScan (new cur : RangeBanItem) : Verdict :=
  if !cur.sameRange new then .keep
  else if cur.temp && cur.tempBanExpire < new.tempBanExpire then
    if !cur.full || new.full then .remove else .keep
  else if !cur.full && new.full then .keep
  else .stop

def rangeLookup (ipHash : IpHash) (now : Int) (bits : RangeBanItem → Bool) (cur : RangeBanItem) :
    Verdict :=
  if !cur.covers ipHash then .keep
  else if cur.expired now then .remove
  else if bits cur then .stop
  else .keep

def rangeExactLookup (fromHash toHash : IpHash) (now : Int) (cur : RangeBanItem) : Verdict :=
  if cur.fromIpHash = fromHash && cur.toIpHash = toHash then
    if cur.expired now then .remove else .stop
  else .keep

namespace BanManager

/-- `FindRangeBanGeneric`: without a ban that has the bits, the first unexpired
one that covers the IP. -/
def findRangeBanGeneric (m : BanManager) (ipHash : IpHash) (now : Int) (bits : RangeBanItem → Bool) :
    BanManager × Option RangeBanItem :=
  let scan := scanRanges (rangeLookup ipHash now bits) m.rangeBanList
  ({ m with rangeBanList := scan.list },
    scan.stopped.or (scan.list.find? (fun r => r.covers ipHash)))

def findRange (m : BanManager) (ipHash : IpHash) (now : Int) : BanManager × Option RangeBanItem :=
  m.findRangeBanGeneric ipHash now (fun _ => true)

def findFullRange (m : BanManager) (ipHash : IpHash) (now : Int) :
    BanManager × Option RangeBanItem :=
  m.findRangeBanGeneric ipHash now RangeBanItem.full

def findRangeExact (m : BanManager) (fromHash toHash : IpHash) (now : Int) :
    BanManager × Option RangeBanItem :=
  let scan := scanRanges (rangeExactLookup fromHash toHash now) m.rangeBanList
  ({ m with rangeBanList := scan.list }, scan.stopped)

variable (cfg : Config)

/-- The texts every adder puts into the new ban last. -/
def describe (pBan : BanItem) (sReason sBy : Option Text) : BanItem :=
  { pBan with sReason := createReason sReason, sBy := addBanInternal sBy }

/-- `Ban` and `TempBan` ban the nick too unless it starts with `<`. -/
def banNickOf (m : BanManager) (now : Int) (clash : BanItem → BanItem → Clash) (u : BanUser)
    (pBan : BanItem) : BanManager × Option BanItem :=
  if !startsWith u.sNick 60 then
    m.resolveNick clash now { pBan with sNick := u.sNick, nickHash := u.nickHash, nick := true }
  else (m, some pBan)

/-- What `Ban` and `TempBan` share: the clash of nicks, then the scan of the IP. -/
def addUser (m : BanManager) (now : Int) (clash : BanItem → BanItem → Clash)
    (verdict : BanItem → BanItem → Verdict) (u : BanUser) (pBan : BanItem)
    (sReason sBy : Option Text) : BanManager :=
  match m.banNickOf now clash u (pBan.initIP u) with
  | (m, none) => m
  | (m, some pBan) =>
    (m.scanIp now (verdict pBan) pBan.ipHash).state.store cfg.place (describe pBan sReason sBy)

def banUser (m : BanManager) (now : Int) (u : BanUser) (sReason sBy : Option Text) (bFull : Bool) :
    BanManager :=
  m.addUser cfg now banClash banScan u { perm := true, ip := true, full := bFull } sReason sBy

/-- The IP a new ban is for: the user's, or the one written in `sIp`. -/
def targetIp (pBan : BanItem) (pUser : Option BanUser) (sIp : Option Text) : Option BanItem :=
  match pUser with
  | some u => some { pBan.initIP u with ip := true }
  | none =>
    match sIp.bind fun s => (cfg.hashIP s).map fun hash => (s, hash) with
    | some (s, hash) => some { pBan with ipHash := hash, sIp := safeStrCopy s, ip := true }
    | none => none

/-- The rest of the IP adders once the target is known. -/
def addIp (m : BanManager) (now : Int) (verdict : BanItem → BanItem → Verdict) (pBan : BanItem)
    (sReason sBy : Option Text) : BanManager × Nat :=
  let scan := m.scanIp now (verdict pBan) pBan.ipHash
  match scan.stopped with
  | some _ => (scan.state.discard pBan, 2)
  | none =>
    (scan.state.store cfg.place (describe pBan sReason sBy), 0)

def banIp (m : BanManager) (now : Int) (pUser : Option BanUser) (sIp sReason sBy : Option Text)
    (bFull : Bool) : BanManager × Nat :=
  match targetIp cfg { perm := true } pUser sIp with
  | none => (m.discard { perm := true }, 1)
  | some pBan => m.addIp cfg now banIpScan { pBan with full := bFull } sReason sBy

/-- The nick a new ban is for, unless there is none or it starts with `<`. -/
def targetNick (pBan : BanItem) (pUser : Option BanUser) (sNick : Option Text) : Option BanItem :=
  match pUser with
  | none =>
    match sNick with
    | none => none
    | some s =>
      if startsWith s 60 then none
      else some { pBan with sNick := s, nickHash := hashNick s, nick := true }
  | some u =>
    if startsWith u.sNick 60 then none
    else some { pBan.initIP u with sNick := u.sNick, nickHash := u.nickHash, nick := true }

/-- The rest of the nick adders once the target is known. -/
def addNick (m : BanManager) (now : Int) (clash : BanItem → BanItem → Clash) (pBan : BanItem)
    (sReason sBy : Option Text) : BanManager × Bool :=
  match m.resolveNick clash now pBan with
  | (m, none) => (m, false)
  | (m, some pBan) =>
    (m.store cfg.place (describe pBan sReason sBy), true)

def nickBan (m : BanManager) (now : Int) (pUser : Option BanUser) (sNick sReason sBy : Option Text) :
    BanManager × Bool :=
  match targetNick { perm := true } pUser sNick with
  | none => (m.discard { perm := true }, false)
  | some pBan => m.addNick cfg now nickBanClash pBan sReason sBy

def tempBan (m : BanManager) (now : Int) (u : BanUser) (sReason sBy : Option Text)
    (minutes : UInt32) (expiretime : Int) (bFull : Bool) : BanManager :=
  m.addUser cfg now tempBanClash tempBanScan u
    { temp := true, ip := true, full := bFull
      tempBanExpire := expireTime now minutes expiretime cfg.defaultTempBanTime } sReason sBy

def tempBanIp (m : BanManager) (now : Int) (pUser : Option BanUser) (sIp sReason sBy : Option Text)
    (minutes : UInt32) (expiretime : Int) (bFull : Bool) : BanManager × Nat :=
  match targetIp cfg { temp := true } pUser sIp with
  | none => (m.discard { temp := true }, 1)
  | some pBan =>
    m.addIp cfg now tempBanIpScan
      { pBan with
        full := bFull
        tempBanExpire := expireTime now minutes expiretime cfg.defaultTempBanTime } sReason sBy

def nickTempBan (m : BanManager) (now : Int) (pUser : Option BanUser)
    (sNick sReason sBy : Option Text) (minutes : UInt32) (expiretime : Int) : BanManager × Bool :=
  match targetNick { temp := true } pUser sNick with
  | none => (m.discard { temp := true }, false)
  | some pBan =>
    m.addNick cfg now nickTempBanClash
      { pBan with
        tempBanExpire := expireTime now minutes expiretime cfg.defaultTempBanTime } sReason sBy

/-- What the unbans share: remove the ban found for the nick, else the one found
for the IP the text may write. -/
def unbanWith (m : BanManager) (findNick : BanManager → BanManager × Option BanId)
    (findIP : BanManager → IpHash → BanManager × Option BanId) (sWhat : Text) :
    BanManager × Bool :=
  match findNick m with
  | (m, some b) => (m.remove b, true)
  | (m, none) =>
    match cfg.hashIP sWhat with
    | none => (m, false)
    | some hash =>
      match findIP m hash with
      | (m, some b) => (m.remove b, true)
      | (m, none) => (m, false)

def unban (m : BanManager) (now : Int) (sWhat : Text) : BanManager × Bool :=
  m.unbanWith cfg (fun m => m.findNick sWhat now) (fun m hash => m.findIP hash now) sWhat

def permUnban (m : BanManager) (sWhat : Text) : BanManager × Bool :=
  m.unbanWith cfg (fun m => m.findPermNick sWhat) (fun m hash => m.findPermIP hash) sWhat

def tempUnban (m : BanManager) (now : Int) (sWhat : Text) : BanManager × Bool :=
  m.unbanWith cfg (fun m => m.findTempNick sWhat now) (fun m hash => m.findTempIP hash now) sWhat

/-- The end of the range adders. -/
def addRange (m : BanManager) (verdict : RangeBanItem → RangeBanItem → Verdict)
    (pRangeBan : RangeBanItem) (sReason sBy : Option Text) : BanManager × Bool :=
  let scan := scanRanges (verdict pRangeBan) m.rangeBanList
  match scan.stopped with
  | some _ => ({ m with rangeBanList := scan.list }, false)
  | none =>
    ({ m with rangeBanList := scan.list ++
        [{ pRangeBan with sReason := createReason sReason, sBy := addBanInternal sBy }] }, true)

def rangeBan (m : BanManager) (sIpFrom : Text) (fromHash : IpHash) (sIpTo : Text) (toHash : IpHash)
    (sReason sBy : Option Text) (bFull : Bool) : BanManager × Bool :=
  m.addRange rangeBanScan
    { perm := true, full := bFull, sIpFrom := safeStrCopy sIpFrom, fromIpHash := fromHash
      sIpTo := safeStrCopy sIpTo, toIpHash := toHash } sReason sBy

def rangeTempBan (m : BanManager) (now : Int) (sIpFrom : Text) (fromHash : IpHash) (sIpTo : Text)
    (toHash : IpHash) (sReason sBy : Option Text) (minutes : UInt32) (expiretime : Int)
    (bFull : Bool) : BanManager × Bool :=
  m.addRange rangeTempBanScan
    { temp := true, full := bFull, sIpFrom := safeStrCopy sIpFrom, fromIpHash := fromHash
      sIpTo := safeStrCopy sIpTo, toIpHash := toHash
      tempBanExpire := expireTime now minutes expiretime cfg.defaultTempBanTime } sReason sBy

def rangeUnban (m : BanManager) (bits : RangeBanItem → Bool) (fromHash toHash : IpHash) :
    BanManager × Bool :=
  let hit (r : RangeBanItem) : Bool :=
    bits r && (r.fromIpHash = fromHash && r.toIpHash = toHash)
  ({ m with rangeBanList := m.rangeBanList.eraseP hit }, m.rangeBanList.any hit)

end BanManager

/-- The operations of the store. -/
inductive Op where
  | ban (u : BanUser) (sReason sBy : Option Text) (bFull : Bool)
  | banIp (pUser : Option BanUser) (sIp sReason sBy : Option Text) (bFull : Bool)
  | nickBan (pUser : Option BanUser) (sNick sReason sBy : Option Text)
  | tempBan (u : BanUser) (sReason sBy : Option Text) (minutes : UInt32) (expiretime : Int)
      (bFull : Bool)
  | tempBanIp (pUser : Option BanUser) (sIp sReason sBy : Option Text) (minutes : UInt32)
      (expiretime : Int) (bFull : Bool)
  | nickTempBan (pUser : Option BanUser) (sNick sReason sBy : Option Text) (minutes : UInt32)
      (expiretime : Int)
  | unban (sWhat : Text)
  | permUnban (sWhat : Text)
  | tempUnban (sWhat : Text)
  | removeAllIP (ipHash : IpHash)
  | removePermAllIP (ipHash : IpHash)
  | removeTempAllIP (ipHash : IpHash)
  | find (b : BanId)
  | remove (b : BanId)
  | findNick (sNick : Text)
  | findTempNick (sNick : Text)
  | findPermNick (sNick : Text)
  | findIP (ipHash : IpHash)
  | findFull (ipHash : IpHash)
  | findTempIP (ipHash : IpHash)
  | findPermIP (ipHash : IpHash)
  | clearTemp
  | clearPerm
  | rangeBan (sIpFrom : Text) (fromHash : IpHash) (sIpTo : Text) (toHash : IpHash)
      (sReason sBy : Option Text) (bFull : Bool)
  | rangeTempBan (sIpFrom : Text) (fromHash : IpHash) (sIpTo : Text) (toHash : IpHash)
      (sReason sBy : Option Text) (minutes : UInt32) (expiretime : Int) (bFull : Bool)
  | rangeUnban (fromHash toHash : IpHash)
  | rangeUnbanPerm (fromHash toHash : IpHash)
  | rangeUnbanTemp (fromHash toHash : IpHash)
  | findRange (ipHash : IpHash)
  | findFullRange (ipHash : IpHash)
  | findRangeExact (fromHash toHash : IpHash)
  | clearRange
  | clearTempRange
  | clearPermRange

namespace BanManager

def exec (cfg : Config) (m : BanManager) (now : Int) : Op → BanManager × Reply
  | .ban u r by_ full => (m.banUser cfg now u r by_ full, .void)
  | .banIp u s r by_ full => (m.banIp cfg now u s r by_ full).map id .code
  | .nickBan u s r by_ => (m.nickBan cfg now u s r by_).map id .ok
  | .tempBan u r by_ mins till full => (m.tempBan cfg now u r by_ mins till full, .void)
  | .tempBanIp u s r by_ mins till full =>
    (m.tempBanIp cfg now u s r by_ mins till full).map id .code
  | .nickTempBan u s r by_ mins till => (m.nickTempBan cfg now u s r by_ mins till).map id .ok
  | .unban s => (m.unban cfg now s).map id .ok
  | .permUnban s => (m.permUnban cfg s).map id .ok
  | .tempUnban s => (m.tempUnban cfg now s).map id .ok
  | .removeAllIP ip => (m.removeAllIP ip, .void)
  | .removePermAllIP ip => (m.removePermAllIP ip, .void)
  | .removeTempAllIP ip => (m.removeTempAllIP ip, .void)
  | .find b => (m.find b now).map id .found
  | .remove b => (m.removeGui b now, .void)
  | .findNick s => (m.findNick s now).map id .found
  | .findTempNick s => (m.findTempNick s now).map id .found
  | .findPermNick s => (m.findPermNick s).map id .found
  | .findIP ip => (m.findIP ip now).map id .found
  | .findFull ip => (m.findFull ip now).map id .found
  | .findTempIP ip => (m.findTempIP ip now).map id .found
  | .findPermIP ip => (m.findPermIP ip).map id .found
  | .clearTemp => (m.clearTemp, .void)
  | .clearPerm => (m.clearPerm, .void)
  | .rangeBan sf f st t r by_ full => (m.rangeBan sf f st t r by_ full).map id .ok
  | .rangeTempBan sf f st t r by_ mins till full =>
    (m.rangeTempBan cfg now sf f st t r by_ mins till full).map id .ok
  | .rangeUnban f t => (m.rangeUnban (fun _ => true) f t).map id .ok
  | .rangeUnbanPerm f t => (m.rangeUnban RangeBanItem.perm f t).map id .ok
  | .rangeUnbanTemp f t => (m.rangeUnban RangeBanItem.temp f t).map id .ok
  | .findRange ip => (m.findRange ip now).map id .foundRange
  | .findFullRange ip => (m.findFullRange ip now).map id .foundRange
  | .findRangeExact f t => (m.findRangeExact f t now).map id .foundRange
  | .clearRange => ({ m with rangeBanList := [] }, .void)
  | .clearTempRange =>
    ({ m with rangeBanList := m.rangeBanList.filter (fun r => !r.temp) }, .void)
  | .clearPermRange =>
    ({ m with rangeBanList := m.rangeBanList.filter (fun r => !r.perm) }, .void)

/-- One operation at one time. -/
structure Event where
  now : Int
  op : Op

def step (cfg : Config) (m : BanManager) (e : Event) : BanManager := (m.exec cfg e.now e.op).1

/-- The stores the operations lead to from the empty one. -/
def reach (cfg : Config) (es : List Event) : BanManager := run (step cfg) empty es

end BanManager

end FlyHub.Ban
