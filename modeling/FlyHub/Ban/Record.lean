import FlyHub.Text

/-!
# Ban records

A ban is permanent or temporary and names a nick, an IP or both. This module has
the records and the decisions the adders take by looking at the new ban and one
old one; the store itself is in the next module.
-/

namespace FlyHub.Ban

/-- An IP as the 16 bytes it is hashed to. Comparing them with `memcmp` is
comparing the number they write. -/
abbrev IpHash := BitVec 128

/-- The flags of `m_ui8Bits` and the data of a `BanItem`. Its chain links are
kept by the store. -/
structure BanItem where
  perm : Bool := false
  temp : Bool := false
  full : Bool := false
  ip : Bool := false
  nick : Bool := false
  tempBanExpire : Int := 0
  sReason : Text := []
  sBy : Text := []
  sNick : Text := []
  nickHash : UInt32 := 0
  ipHash : IpHash := 0
  sIp : Text := []

structure RangeBanItem where
  perm : Bool := false
  temp : Bool := false
  full : Bool := false
  tempBanExpire : Int := 0
  sReason : Text := []
  sBy : Text := []
  fromIpHash : IpHash := 0
  toIpHash : IpHash := 0
  sIpFrom : Text := []
  sIpTo : Text := []

/-- What the adders read of a `User`; its nick hash is always that of its nick. -/
structure BanUser where
  sNick : Text
  sIP : Text
  ipHash : IpHash

def BanUser.nickHash (u : BanUser) : UInt32 := hashNick u.sNick

/-- A copy into a buffer of 40 characters. -/
def safeStrCopy (s : Text) : Text := s.take 39

def createReason (sReason : Option Text) : Text :=
  match sReason with
  | none => []
  | some r => if 511 < r.length then r.take 508 ++ ascii "..." else r

def addBanInternal (sBy : Option Text) : Text :=
  match sBy with
  | none => []
  | some b => b.take 63

/-- When a temporary ban of `minutes` ends, the product being one of 32 bits. -/
def expireTime (now : Int) (minutes : UInt32) (expiretime defaultTempBanTime : Int) : Int :=
  if 0 < expiretime then expiretime
  else if 0 < minutes then now + (minutes * 60).toNat
  else now + defaultTempBanTime * 60

namespace BanItem

def initIP (b : BanItem) (u : BanUser) : BanItem :=
  { b with sIp := safeStrCopy u.sIP, ipHash := u.ipHash }

/-- The test by which lookups sweep a ban away. -/
def expired (b : BanItem) (now : Int) : Bool := b.temp && b.tempBanExpire ≤ now

theorem expired_temp {b : BanItem} {now : Int} (temp : b.temp = true) :
    b.expired now = false ↔ now < b.tempBanExpire := by
  simp [expired, temp]

theorem expired_mono {b : BanItem} {now t : Int} (le : now ≤ t) (h : b.expired now = true) :
    b.expired t = true := by
  simp only [expired, Bool.and_eq_true, decide_eq_true_eq] at h ⊢
  exact ⟨h.1, by omega⟩

end BanItem

def RangeBanItem.expired (b : RangeBanItem) (now : Int) : Bool :=
  b.temp && b.tempBanExpire ≤ now

/-- What an adder does about an unexpired ban of the same nick. -/
inductive Clash where
  | dropNew
  | stripNew
  | removeOld
  | stripOld
  | keepBoth
  deriving DecidableEq, Repr

/-- What a scan does with a ban it comes to. -/
inductive Verdict where
  | keep
  | remove
  | stop
  deriving DecidableEq, Repr

/-- The clash handling of `Ban`. -/
def banClash (new old : BanItem) : Clash :=
  if old.perm then
    if old.ip then
      if new.ipHash = old.ipHash then
        if !new.full then .dropNew
        else if old.full then .dropNew
        else .removeOld
      else .stripNew
    else .removeOld
  else
    if old.ip then
      if new.ipHash = old.ipHash then
        if !old.full then .removeOld
        else if new.full then .removeOld
        else .stripOld
      else .stripOld
    else .removeOld

/-- The clash handling of `NickBan`. -/
def nickBanClash (_new old : BanItem) : Clash :=
  if old.perm then .dropNew
  else if old.ip then .stripOld
  else .removeOld

/-- The clash handling of `TempBan`. A permanent ban of the nick on another IP
is the one case in which neither ban loses its nick. -/
def tempBanClash (new old : BanItem) : Clash :=
  if old.perm then
    if old.ip then
      if new.ipHash = old.ipHash then
        if !new.full then .dropNew
        else if old.full then .dropNew
        else .stripNew
      else .keepBoth
    else .stripNew
  else if old.tempBanExpire < new.tempBanExpire then
    if old.ip then
      if new.ipHash = old.ipHash then
        if !old.full then .removeOld
        else if !new.full then .stripOld
        else .removeOld
      else .stripOld
    else .removeOld
  else
    if old.ip then
      if new.ipHash = old.ipHash then
        if !new.full then .dropNew
        else if !old.full then .stripNew
        else .dropNew
      else .stripNew
    else .stripNew

/-- The clash handling of `NickTempBan`. -/
def nickTempBanClash (new old : BanItem) : Clash :=
  if old.perm then .dropNew
  else if old.tempBanExpire < new.tempBanExpire then
    if old.ip then .stripOld else .removeOld
  else .dropNew

/-- The scan of `Ban` over the bans of its IP. -/
def banScan (new cur : BanItem) : Verdict :=
  if cur.nick then .keep
  else if cur.full && !new.full then .keep
  else .remove

/-- The scan of `BanIp`. -/
def banIpScan (new cur : BanItem) : Verdict :=
  if cur.temp then
    if !cur.full || new.full then
      if !cur.nick then .remove else .keep
    else .keep
  else if !cur.full && new.full then
    if !cur.nick then .remove else .keep
  else .stop

/-- The scan of `TempBan`. -/
def tempBanScan (new cur : BanItem) : Verdict :=
  if cur.perm then .keep
  else if cur.nick then .keep
  else if cur.full && !new.full then .keep
  else if new.tempBanExpire < cur.tempBanExpire then .keep
  else .remove

/-- The scan of `TempBanIp`. -/
def tempBanIpScan (new cur : BanItem) : Verdict :=
  if cur.temp && cur.tempBanExpire < new.tempBanExpire then
    if !cur.full || new.full then
      if !cur.nick then .remove else .keep
    else .keep
  else if !cur.full && new.full then .keep
  else .stop

/-- The scan of the lookups: expired bans are swept, a ban with the wanted bits
ends the search. -/
def lookup (now : Int) (bits : BanItem → Bool) (cur : BanItem) : Verdict :=
  if cur.expired now then .remove
  else if bits cur then .stop
  else .keep

end FlyHub.Ban
