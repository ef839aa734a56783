import Mathlib.Logic.Function.Basic
import FlyHub.Ban.Record
import FlyHub.Lib.Chain

/-!
# The ban store

Every ban has an identity. A ban in the store is in one of two lists, which own
it, and is indexed by nick in a multimap and by IP in a chain whose links the
bans carry themselves.
-/

namespace FlyHub.Ban

open FlyHub.Lib

abbrev BanId := Nat

structure IpTableItem where
  pFirstBan : Option BanId

/-- Where the multimap puts a new entry among the entries of its key. -/
structure Placement where
  insert : BanId → List BanId → List BanId
  perm : ∀ b l, (insert b l).Perm (b :: l)

/-- What the store takes from the rest of the program. -/
structure Config where
  place : Placement
  hashIP : Text → Option IpHash
  defaultTempBanTime : Int

/-- New entries in front, no IP texts, temporary bans of ten minutes. -/
def Config.plain : Config := ⟨⟨List.cons, fun _ _ => .refl _⟩, fun _ => none, 10⟩

/-- `next` is the first identity not yet given out. `released` counts how often
each ban has been deleted; nothing in the program looks at it. -/
structure BanManager where
  ban : BanId → BanItem
  links : Links BanId
  next : BanId
  nickBanTable : UInt32 → List BanId
  ipBanTable : IpHash → Option IpTableItem
  tempBanList : List BanId
  permBanList : List BanId
  rangeBanList : List RangeBanItem
  released : BanId → Nat

/-- What a scan leaves: the store, the bans it passed by and the one it stopped at. -/
structure Scan where
  state : BanManager
  kept : List BanId
  stopped : Option BanId

namespace BanManager

def empty : BanManager where
  ban := fun _ => {}
  links := Links.empty
  next := 0
  nickBanTable := fun _ => []
  ipBanTable := fun _ => none
  tempBanList := []
  permBanList := []
  rangeBanList := []
  released := fun _ => 0

def add2NickTable (place : Placement) (m : BanManager) (b : BanId) : BanManager :=
  let key := (m.ban b).nickHash
  { m with nickBanTable := Function.update m.nickBanTable key (place.insert b (m.nickBanTable key)) }

def add2IpTable (m : BanManager) (b : BanId) : BanManager :=
  let key := (m.ban b).ipHash
  match m.ipBanTable key with
  | none => { m with ipBanTable := Function.update m.ipBanTable key (some ⟨some b⟩) }
  | some item =>
    { m with
      links := m.links.pushFront b item.pFirstBan
      ipBanTable := Function.update m.ipBanTable key (some ⟨some b⟩) }

def add2Table (place : Placement) (m : BanManager) (b : BanId) : BanManager :=
  let m := if (m.ban b).ip then m.add2IpTable b else m
  if (m.ban b).nick then m.add2NickTable place b else m

def add (place : Placement) (m : BanManager) (b : BanId) : BanManager :=
  let m := m.add2Table place b
  if (m.ban b).perm then { m with permBanList := m.permBanList ++ [b] }
  else { m with tempBanList := m.tempBanList ++ [b] }

def remFromNickTable (m : BanManager) (b : BanId) : BanManager :=
  let key := (m.ban b).nickHash
  { m with nickBanTable := Function.update m.nickBanTable key ((m.nickBanTable key).erase b) }

def remFromIpTable (m : BanManager) (b : BanId) : BanManager :=
  match m.links.prev b with
  | none =>
    let key := (m.ban b).ipHash
    match m.ipBanTable key with
    | none => { m with links := m.links.clear b }
    | some _ =>
      { m with
        links := m.links.unlink b
        ipBanTable := Function.update m.ipBanTable key
          ((m.links.next b).map fun next => ⟨some next⟩) }
  | some _ => { m with links := m.links.unlink b }

def remFromTable (m : BanManager) (b : BanId) : BanManager :=
  let m := if (m.ban b).ip then m.remFromIpTable b else m
  if (m.ban b).nick then m.remFromNickTable b else m

/-- The end of life of a `unique_ptr` to `b`. -/
def release (m : BanManager) (b : BanId) : BanManager :=
  { m with released := Function.update m.released b (m.released b + 1) }

/-- `Rem`: the list owns the ban, so erasing it there deletes it. -/
def rem (m : BanManager) (b : BanId) : BanManager :=
  let m := m.remFromTable b
  if (m.ban b).perm then
    if b ∈ m.permBanList then { m with permBanList := m.permBanList.erase b }.release b else m
  else
    if b ∈ m.tempBanList then { m with tempBanList := m.tempBanList.erase b }.release b else m

/-- `Rem`, and the guard every caller of it puts around the raw pointer. -/
def remove (m : BanManager) (b : BanId) : BanManager := (m.rem b).release b

/-- Set a ban to an IP ban only. -/
def stripNick (m : BanManager) (b : BanId) : BanManager :=
  let m := m.remFromNickTable b
  { m with ban := Function.update m.ban b { m.ban b with nick := false } }

/-- `make_unique`: a new record, in no table yet. -/
def alloc (m : BanManager) (item : BanItem) : BanManager :=
  { m with ban := Function.update m.ban m.next item, next := m.next + 1 }

/-- The new ban goes out of scope unused. -/
def discard (m : BanManager) (item : BanItem) : BanManager := (m.alloc item).release m.next

/-- The new ban is handed to the store. -/
def store (place : Placement) (m : BanManager) (item : BanItem) : BanManager :=
  (m.alloc item).add place m.next

/-- A loop over a bucket or a list, which may remove the ban it is at. -/
def scanList (verdict : BanId → BanItem → Verdict) : List BanId → BanManager → Scan
  | [], m => ⟨m, [], none⟩
  | b :: bs, m =>
    match verdict b (m.ban b) with
    | .remove => scanList verdict bs (m.remove b)
    | .stop => ⟨m, [], some b⟩
    | .keep =>
      let rest := scanList verdict bs m
      ⟨rest.state, b :: rest.kept, rest.stopped⟩

/-- A loop over a chain. The link to the next ban is read before the current one
may be removed. No chain is longer than the number of bans, which is the fuel. -/
def scanChain (verdict : BanId → BanItem → Verdict) : Nat → Option BanId → BanManager → Scan
  | fuel + 1, some b, m =>
    let next := m.links.next b
    match verdict b (m.ban b) with
    | .remove => scanChain verdict fuel next (m.remove b)
    | .stop => ⟨m, [], some b⟩
    | .keep =>
      let rest := scanChain verdict fuel next m
      ⟨rest.state, b :: rest.kept, rest.stopped⟩
  | _, _, m => ⟨m, [], none⟩

def scanFrom (m : BanManager) (verdict : BanId → BanItem → Verdict) (b : Option BanId) : Scan :=
  scanChain verdict m.next b m

/-- `FindIpBanGeneric`: without a ban that has the bits, the first unexpired one. -/
def findIpBanGeneric (m : BanManager) (ipHash : IpHash) (now : Int) (bits : BanItem → Bool) :
    BanManager × Option BanId :=
  match m.ipBanTable ipHash with
  | none => (m, none)
  | some item =>
    let scan := m.scanFrom (fun _ => lookup now bits) item.pFirstBan
    (scan.state, scan.stopped.or scan.kept.head?)

def nickLookup (now : Int) (sNick : Text) (bits : BanItem → Bool) (cur : BanItem) : Verdict :=
  if !iequals cur.sNick sNick then .keep else lookup now bits cur

def findNickBanGeneric (m : BanManager) (hash : UInt32) (now : Int) (sNick : Text)
    (bits : BanItem → Bool) : BanManager × Option BanId :=
  let scan := scanList (fun _ => nickLookup now sNick bits) (m.nickBanTable hash) m
  (scan.state, scan.stopped)

/-- Any ban will do: `ui8MatchBits` is 0. -/
def anyBits (_ : BanItem) : Bool := true

def findNick (m : BanManager) (sNick : Text) (now : Int) : BanManager × Option BanId :=
  m.findNickBanGeneric (hashNick sNick) now sNick anyBits

def findTempNick (m : BanManager) (sNick : Text) (now : Int) : BanManager × Option BanId :=
  m.findNickBanGeneric (hashNick sNick) now sNick BanItem.temp

def findPermNick (m : BanManager) (sNick : Text) : BanManager × Option BanId :=
  m.findNickBanGeneric (hashNick sNick) 0 sNick BanItem.perm

def findIP (m : BanManager) (ipHash : IpHash) (now : Int) : BanManager × Option BanId :=
  m.findIpBanGeneric ipHash now anyBits

def findFull (m : BanManager) (ipHash : IpHash) (now : Int) : BanManager × Option BanId :=
  m.findIpBanGeneric ipHash now BanItem.full

def findTempIP (m : BanManager) (ipHash : IpHash) (now : Int) : BanManager × Option BanId :=
  m.findIpBanGeneric ipHash now BanItem.temp

def findPermIP (m : BanManager) (ipHash : IpHash) : BanManager × Option BanId :=
  m.findIpBanGeneric ipHash 0 BanItem.perm

/-- The loop of `Find` and `Remove` over the temporary bans. -/
def guiScan (now : Int) (target b : BanId) (cur : BanItem) : Verdict :=
  if cur.tempBanExpire < now then .remove
  else if b = target then .stop
  else .keep

def find (m : BanManager) (b : BanId) (now : Int) : BanManager × Option BanId :=
  let scan := scanList (guiScan now b) m.tempBanList m
  match scan.stopped with
  | some found => (scan.state, some found)
  | none => (scan.state, if b ∈ scan.state.permBanList then some b else none)

/-- `Remove`, used by the GUI. -/
def removeGui (m : BanManager) (b : BanId) (now : Int) : BanManager :=
  let scan := scanList (guiScan now b) m.tempBanList m
  match scan.stopped with
  | some found => scan.state.remove found
  | none => if b ∈ scan.state.permBanList then scan.state.remove b else scan.state

/-- `ClearTemp` and `ClearPerm` take the front of their list until it is empty. -/
def clearFront (list : BanManager → List BanId) : Nat → BanManager → BanManager
  | fuel + 1, m =>
    match list m with
    | [] => m
    | b :: _ => clearFront list fuel (m.remove b)
  | 0, m => m

def clearTemp (m : BanManager) : BanManager := clearFront tempBanList m.tempBanList.length m

def clearPerm (m : BanManager) : BanManager := clearFront permBanList m.permBanList.length m

/-- The loop over all bans of one IP that `RemoveAllIP`, `RemovePermAllIP` and
`RemoveTempAllIP` share. -/
def removeIpWhere (m : BanManager) (bits : BanItem → Bool) (ipHash : IpHash) : BanManager :=
  match m.ipBanTable ipHash with
  | none => m
  | some item =>
    (m.scanFrom (fun _ cur => if bits cur then .remove else .keep) item.pFirstBan).state

def removeAllIP (m : BanManager) (ipHash : IpHash) : BanManager := m.removeIpWhere anyBits ipHash

def removePermAllIP (m : BanManager) (ipHash : IpHash) : BanManager :=
  m.removeIpWhere BanItem.perm ipHash

def removeTempAllIP (m : BanManager) (ipHash : IpHash) : BanManager :=
  m.removeIpWhere BanItem.temp ipHash

/-- Settle a clash between the new ban and an old one. The second component is
the new ban as it goes on, if it does. -/
def settle (m : BanManager) (pBan : BanItem) (old : BanId) : Clash → BanManager × Option BanItem
  | .dropNew => (m.discard pBan, none)
  | .stripNew => (m, some { pBan with nick := false })
  | .removeOld => (m.remove old, some pBan)
  | .stripOld => (m.stripNick old, some pBan)
  | .keepBoth => (m, some pBan)

/-- The part of the nick adders that looks for a ban of the same nick. -/
def resolveNick (m : BanManager) (clash : BanItem → BanItem → Clash) (now : Int)
    (pBan : BanItem) : BanManager × Option BanItem :=
  let (m, nxtBan) := m.findNickBanGeneric pBan.nickHash now pBan.sNick anyBits
  match nxtBan with
  | none => (m, some pBan)
  | some old => m.settle pBan old (clash pBan (m.ban old))

/-- The part of the IP adders that goes over the bans of the new ban's IP. -/
def scanIp (m : BanManager) (now : Int) (verdict : BanItem → Verdict) (ipHash : IpHash) : Scan :=
  let (m, nxtBan) := m.findIP ipHash now
  m.scanFrom (fun _ => verdict) nxtBan

end BanManager

end FlyHub.Ban
