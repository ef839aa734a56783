import FlyHub.Ban.File

/-!
# A ban is read as it was written

An item of a ban file gives its values back under their places, and a record that the
files can hold is read from them as it was, but for the text of its IP and the hash of
its nick, which are made anew.
-/

namespace FlyHub.Ban

open FlyHub.Lib FlyHub.Pxb

section
variable {r : PXBReader} {values : List Value} {k : Nat}

theorem holds_flag (holds : Holds r values) {set_ : Bool} (at_ : values[k]? = some (.byte set_)) :
    readFlag r k = .ok set_ := by
  have data : itemData r k 1 = .ok [if set_ then 49 else 48] := (holds k _ at_).2
  rw [readFlag, data]
  cases set_ <;> rfl

theorem bytesIp_ipBytes (ip : IpHash) : bytesIp (ipBytes ip) = ip := by
  rw [bytesIp, ipBytes, ofBE_toBE 16 _ ip.isLt]
  simp

theorem holds_ip (holds : Holds r values) {ip : IpHash}
    (at_ : values[k]? = some (.string (ipBytes ip))) :
    itemLength r k = 16 ∧ itemData r k 16 = .ok (ipBytes ip) := by
  have length : (Value.string (ipBytes ip)).bytes.length = 16 := toBE_length 16 _
  have given := holds k _ at_
  rwa [length] at given

/-- A time that a `time_t` can hold. -/
def IsTime (t : Int) : Prop := -9223372036854775808 ≤ t ∧ t < 9223372036854775808

theorem timeValue_bytes (t : Int) : (timeValue t).bytes.length = 8 := toBE_length 8 _

theorem bytesTime_timeValue {t : Int} (time : IsTime t) : bytesTime (timeValue t).bytes = t := by
  have small := (Int64.ofInt t).toUInt64.toNat_lt
  rw [timeValue, Value.bytes, bytesTime, ofBE_toBE 8 _ small, UInt64.ofNat_toNat,
    Int64.toInt64_toUInt64]
  exact Int64.toInt_ofInt_of_le time.1 time.2

theorem holds_expire (holds : Holds r values) {t : Int} (at_ : values[k]? = some (timeValue t))
    (time : IsTime t) : readExpire r k = .ok t := by
  obtain ⟨length, data⟩ := holds k _ at_
  rw [timeValue_bytes] at length data
  rw [readExpire, if_neg (by rw [length]; decide), data, ok_bind, bytesTime_timeValue time]
  rfl

end

/-- A record the files can hold. -/
structure BanItem.Fileable (b : BanItem) : Prop where
  kind : b.temp = !b.perm
  nickSome : b.nick = true → b.sNick ≠ []
  nickShort : b.sNick.length ≤ 64
  ipSome : b.ip = true → b.ipHash ≠ 0
  fullIp : b.full = true → b.ip = true
  reason : b.sReason.length ≤ 511
  by_ : b.sBy.length ≤ 64
  time : IsTime b.tempBanExpire
  permTime : b.perm = true → b.tempBanExpire = 0

/-- The record that is made of one in the files. -/
def BanItem.reread (ipText : IpHash → Text) (b : BanItem) : BanItem :=
  { b with
    nickHash := if b.sNick = [] then 0 else hashNick b.sNick
    sIp := if b.ipHash = 0 then [] else ipText b.ipHash }

structure RangeBanItem.Fileable (b : RangeBanItem) : Prop where
  kind : b.temp = !b.perm
  reason : b.sReason.length ≤ 511
  by_ : b.sBy.length ≤ 64
  time : IsTime b.tempBanExpire
  permTime : b.perm = true → b.tempBanExpire = 0

def RangeBanItem.reread (ipText : IpHash → Text) (r : RangeBanItem) : RangeBanItem :=
  { r with sIpFrom := ipText r.fromIpHash, sIpTo := ipText r.toIpHash }

section
variable {r : PXBReader} {b : BanItem} (ipText : IpHash → Text)

theorem holds_nick (holds : Holds r b.values) (fileable : b.Fileable) (b₀ : BanItem)
    (fresh : b₀.sNick = [] ∧ b₀.nickHash = 0 ∧ b₀.nick = false) :
    readNick r b₀ = .ok { b₀ with
      sNick := b.sNick
      nickHash := if b.sNick = [] then 0 else hashNick b.sNick
      nick := b.nick } := by
  have short := fileable.nickShort
  obtain ⟨length, data⟩ := holds.text (k := 1) rfl
    (Nat.lt_of_le_of_lt short (by decide : 64 < uint16T))
  have flag : readFlag r 2 = .ok b.nick := holds_flag holds rfl
  obtain ⟨noText, noHash, noBit⟩ := fresh
  unfold readNick
  rw [length]
  split
  · rename_i none_
    have empty := List.length_eq_zero_iff.mp none_
    have noNick : b.nick = false := by
      cases nick : b.nick with
      | false => rfl
      | true => exact absurd empty (fileable.nickSome nick)
    rw [empty, noNick, if_pos rfl, ← noText, ← noHash, ← noBit]
    rfl
  · rename_i some_
    have nonempty : b.sNick ≠ [] := fun empty => some_ (by rw [empty]; rfl)
    rw [if_neg (by omega), data, ok_bind, flag, ok_bind, if_neg nonempty]
    rfl

theorem holds_ipBan (holds : Holds r b.values) (fileable : b.Fileable) (b₀ : BanItem)
    (fresh : b₀.ipHash = 0 ∧ b₀.sIp = [] ∧ b₀.ip = false ∧ b₀.full = false) :
    readIp r ipText b₀ = .ok { b₀ with
      ipHash := b.ipHash
      sIp := if b.ipHash = 0 then [] else ipText b.ipHash
      ip := b.ip
      full := b.full } := by
  obtain ⟨length, data⟩ := holds_ip holds (k := 3) rfl
  have ipBit : readFlag r 4 = .ok b.ip := holds_flag holds rfl
  have fullBit : readFlag r 5 = .ok b.full := holds_flag holds rfl
  obtain ⟨noHash, noText, noIp, noFull⟩ := fresh
  unfold readIp
  rw [length, if_neg (by decide), data, ok_bind, bytesIp_ipBytes]
  by_cases zero : b.ipHash = 0
  · have ip : b.ip = false := by
      cases ip : b.ip with
      | false => rfl
      | true => exact absurd zero (fileable.ipSome ip)
    have full : b.full = false := by
      cases full : b.full with
      | false => rfl
      | true => rw [fileable.fullIp full] at ip; cases ip
    rw [if_pos zero, if_pos zero, zero, ip, full]
    cases b₀
    dsimp only at noHash noText noIp noFull
    subst noHash noText noIp noFull
    rfl
  · rw [if_neg zero, if_neg zero, if_neg (by decide), ipBit, ok_bind, fullBit, ok_bind]
    rfl

/-- A ban of the files is read as it is. -/
theorem readBan_holds (holds : Holds r b.values) (fileable : b.Fileable) :
    readBan r ipText = .ok (b.reread ipText) := by
  have temp : readFlag r 0 = .ok (!b.perm) := holds_flag holds rfl
  have reason : readText r 6 511 = .ok b.sReason := holds.readText rfl fileable.reason (by decide)
  have by_ : readText r 7 64 = .ok b.sBy := holds.readText rfl fileable.by_ (by decide)
  have expire : readExpire r 8 = .ok b.tempBanExpire := holds_expire holds rfl fileable.time
  have kind := fileable.kind
  unfold readBan
  rw [temp, ok_bind, holds_nick holds fileable _ ⟨rfl, rfl, rfl⟩, ok_bind,
    holds_ipBan ipText holds fileable _ ⟨rfl, rfl, rfl, rfl⟩, ok_bind, reason, ok_bind, by_, ok_bind]
  cases perm : b.perm with
  | true =>
    have none_ := fileable.permTime perm
    rw [perm] at kind
    simp [BanItem.reread, perm, kind, none_, pure, Except.pure]
  | false =>
    rw [perm] at kind
    simp [BanItem.reread, perm, kind, expire, pure, Except.pure]

theorem readRangeBan_holds {b : RangeBanItem} (holds : Holds r b.values)
    (fileable : b.Fileable) : readRangeBan r ipText = .ok (b.reread ipText) := by
  have temp : readFlag r 0 = .ok (!b.perm) := holds_flag holds rfl
  have end_ {k : Nat} {ip : IpHash} (at_ : b.values[k]? = some (.string (ipBytes ip))) :
      readRangeEnd r k = .ok ip := by
    obtain ⟨length, data⟩ := holds_ip holds at_
    rw [readRangeEnd, if_neg (by rw [length]; decide), data, ok_bind, bytesIp_ipBytes]
    rfl
  have fromIp : readRangeEnd r 1 = .ok b.fromIpHash := end_ rfl
  have toIp : readRangeEnd r 2 = .ok b.toIpHash := end_ rfl
  have full : readFlag r 3 = .ok b.full := holds_flag holds rfl
  have reason : readText r 4 511 = .ok b.sReason := holds.readText rfl fileable.reason (by decide)
  have by_ : readText r 5 64 = .ok b.sBy := holds.readText rfl fileable.by_ (by decide)
  have expire : readExpire r 6 = .ok b.tempBanExpire := holds_expire holds rfl fileable.time
  have kind := fileable.kind
  unfold readRangeBan
  rw [temp, ok_bind, fromIp, ok_bind, toIp, ok_bind, full, ok_bind, reason, ok_bind, by_, ok_bind,
    expire]
  cases perm : b.perm with
  | true =>
    have none_ := fileable.permTime perm
    rw [perm] at kind
    simp [RangeBanItem.reread, perm, kind, none_, pure, Except.pure]
  | false =>
    rw [perm] at kind
    simp [RangeBanItem.reread, perm, kind, pure, Except.pure]

end

end FlyHub.Ban
