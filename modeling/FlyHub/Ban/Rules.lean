import FlyHub.Ban.Operations

/-!
# What the rules of the adders decide

Facts about one new ban and one old one. Whatever gives way to the new ban is
covered by it, and whatever stops the new ban covers it.
-/

namespace FlyHub.Ban

/-- What can be banned. With `full`, at FULL level. -/
inductive Target where
  | nick (sNick : Text)
  | ip (ipHash : IpHash) (full : Bool)
  | range (fromHash toHash : IpHash) (full : Bool)

namespace BanItem

/-- The ban is one of the target and in force at `t`. -/
def Stops (r : BanItem) (t : Int) : Target → Prop
  | .nick s => r.nick = true ∧ iequals r.sNick s = true ∧ r.expired t = false
  | .ip h full =>
    r.ip = true ∧ r.ipHash = h ∧ (full = true → r.full = true) ∧ r.expired t = false
  | .range _ _ _ => False

def Outlasts (r r' : BanItem) : Prop := ∀ t, r'.expired t = false → r.expired t = false

theorem Stops.unexpired {r : BanItem} {t : Int} {target : Target} (stops : r.Stops t target) :
    r.expired t = false := by
  cases target with
  | nick s => exact stops.2.2
  | ip h full => exact stops.2.2.2
  | range => exact stops.elim

theorem outlasts_of_perm {r r' : BanItem} (h : r.temp = false) : r.Outlasts r' := fun t _ => by
  simp [expired, h]

theorem outlasts_of_le {r r' : BanItem} (temp : r'.temp = true)
    (le : r'.tempBanExpire ≤ r.tempBanExpire) : r.Outlasts r' := by
  intro t unexpired
  simp only [expired, temp, Bool.true_and, decide_eq_false_iff_not, Int.not_le] at unexpired
  have later : ¬ r.tempBanExpire ≤ t := by omega
  simp [expired, later]

end BanItem

theorem banClash_ne_keepBoth (new old : BanItem) : banClash new old ≠ .keepBoth := by
  unfold banClash
  repeat' split
  all_goals simp

theorem nickBanClash_ne_keepBoth (new old : BanItem) : nickBanClash new old ≠ .keepBoth := by
  unfold nickBanClash
  repeat' split
  all_goals simp

theorem nickTempBanClash_ne_keepBoth (new old : BanItem) :
    nickTempBanClash new old ≠ .keepBoth := by
  unfold nickTempBanClash
  repeat' split
  all_goals simp

theorem tempBanClash_keepBoth {new old : BanItem} : tempBanClash new old = .keepBoth ↔
    old.perm = true ∧ old.ip = true ∧ old.ipHash ≠ new.ipHash := by
  rw [ne_comm]
  unfold tempBanClash
  repeat' split
  all_goals simp_all

theorem banScan_nick (new : BanItem) {old : BanItem} (nick : old.nick = true) :
    banScan new old ≠ .remove := by simp [banScan, nick]

theorem tempBanScan_nick (new : BanItem) {old : BanItem} (nick : old.nick = true) :
    tempBanScan new old ≠ .remove := by
  cases perm : old.perm <;> simp [tempBanScan, nick, perm]

/-- Of two bans of one IP only a full old one is left beside a new one. -/
theorem banClash_stripOld {new old : BanItem} (strip : banClash new old = .stripOld)
    (key : old.ipHash = new.ipHash) : old.full = true ∧ new.full = false := by
  simp only [banClash, key, ↓reduceIte] at strip
  revert strip
  repeat' split
  all_goals simp_all

theorem tempBanClash_stripOld {new old : BanItem} (strip : tempBanClash new old = .stripOld)
    (key : old.ipHash = new.ipHash) : old.full = true ∧ new.full = false := by
  simp only [tempBanClash, key, ↓reduceIte] at strip
  revert strip
  repeat' split
  all_goals simp_all

/-- The rules of a clash: an old ban that goes, or loses its nick, is outlasted
by the new one; one that goes and was of an IP too gives way to a ban of that IP
that is at least as full. -/
structure ClashSound (clash : BanItem → BanItem → Clash) (new : BanItem) : Prop where
  removes : ∀ old : BanItem, (old.temp = !old.perm) → clash new old = .removeOld →
    new.Outlasts old ∧ (old.ip = true →
      new.ip = true ∧ new.ipHash = old.ipHash ∧ (old.full = true → new.full = true))
  strips : ∀ old : BanItem, (old.temp = !old.perm) → clash new old = .stripOld → new.Outlasts old

/-- The rules of a scan: a ban that goes has no nick and is covered by the new
one, a ban that stops the scan covers the new one. -/
structure ScanSound (verdict : BanItem → BanItem → Verdict) (new : BanItem) : Prop where
  removes : ∀ old : BanItem, (old.temp = !old.perm) → verdict new old = .remove →
    old.nick = false ∧ new.Outlasts old ∧ (old.full = true → new.full = true)
  stops : ∀ old : BanItem, (old.temp = !old.perm) → verdict new old = .stop →
    old.Outlasts new ∧ (new.full = true → old.full = true)

section
variable {new : BanItem}

theorem clashSound_ban (ip : new.ip = true) (temp : new.temp = false) :
    ClashSound banClash new where
  removes old _ way := by
    refine ⟨BanItem.outlasts_of_perm temp, fun hip => ⟨ip, ?_⟩⟩
    revert way
    unfold banClash
    repeat' split
    all_goals simp_all
  strips old _ _ := BanItem.outlasts_of_perm temp

theorem clashSound_nickBan (temp : new.temp = false) : ClashSound nickBanClash new where
  removes old _ way := by
    refine ⟨BanItem.outlasts_of_perm temp, fun hip => ?_⟩
    revert way
    unfold nickBanClash
    repeat' split
    all_goals simp_all
  strips old _ _ := BanItem.outlasts_of_perm temp

/-- In a clash of temporary bans the one that ends first gives way. -/
theorem tempBanClash_expire {old : BanItem}
    (way : tempBanClash new old = .removeOld ∨ tempBanClash new old = .stripOld) :
    old.perm = false ∧ old.tempBanExpire < new.tempBanExpire := by
  revert way
  unfold tempBanClash
  repeat' split
  all_goals simp_all

theorem clashSound_tempBan (ip : new.ip = true) : ClashSound tempBanClash new where
  removes old bits way := by
    obtain ⟨perm, sooner⟩ := tempBanClash_expire (.inl way)
    refine ⟨BanItem.outlasts_of_le (by simp [bits, perm]) (by omega), fun hip => ⟨ip, ?_⟩⟩
    revert way
    unfold tempBanClash
    simp only [perm, sooner, hip]
    repeat' split
    all_goals simp_all
  strips old bits way := by
    obtain ⟨perm, sooner⟩ := tempBanClash_expire (.inr way)
    exact BanItem.outlasts_of_le (by simp [bits, perm]) (by omega)

theorem nickTempBanClash_expire {old : BanItem}
    (way : nickTempBanClash new old = .removeOld ∨ nickTempBanClash new old = .stripOld) :
    old.perm = false ∧ old.tempBanExpire < new.tempBanExpire := by
  revert way
  unfold nickTempBanClash
  repeat' split
  all_goals simp_all

theorem clashSound_nickTempBan : ClashSound nickTempBanClash new where
  removes old bits way := by
    obtain ⟨perm, sooner⟩ := nickTempBanClash_expire (.inl way)
    refine ⟨BanItem.outlasts_of_le (by simp [bits, perm]) (by omega), fun hip => ?_⟩
    simp [nickTempBanClash, perm, sooner, hip] at way
  strips old bits way := by
    obtain ⟨perm, sooner⟩ := nickTempBanClash_expire (.inr way)
    exact BanItem.outlasts_of_le (by simp [bits, perm]) (by omega)

theorem banScan_remove {cur : BanItem} : banScan new cur = .remove ↔
    cur.nick = false ∧ (cur.full = true → new.full = true) := by
  unfold banScan
  cases cur.nick <;> cases cur.full <;> cases new.full <;> simp

theorem banIpScan_remove {cur : BanItem} (way : banIpScan new cur = .remove) :
    cur.nick = false ∧ (cur.full = true → new.full = true) := by
  revert way
  unfold banIpScan
  cases cur.nick <;> cases cur.temp <;> cases cur.full <;> cases new.full <;> simp

theorem banIpScan_stop {cur : BanItem} : banIpScan new cur = .stop ↔
    cur.temp = false ∧ (new.full = true → cur.full = true) := by
  unfold banIpScan
  cases cur.nick <;> cases cur.temp <;> cases cur.full <;> cases new.full <;> simp

theorem tempBanScan_remove {cur : BanItem} : tempBanScan new cur = .remove ↔
    cur.perm = false ∧ cur.nick = false ∧ (cur.full = true → new.full = true) ∧
      cur.tempBanExpire ≤ new.tempBanExpire := by
  unfold tempBanScan
  cases cur.perm <;> cases cur.nick <;> cases cur.full <;> cases new.full <;> simp

theorem tempBanIpScan_remove {cur : BanItem} : tempBanIpScan new cur = .remove ↔
    (cur.temp = true ∧ cur.tempBanExpire < new.tempBanExpire) ∧ cur.nick = false ∧
      (cur.full = true → new.full = true) := by
  unfold tempBanIpScan
  by_cases sooner : cur.tempBanExpire < new.tempBanExpire <;> cases cur.temp <;>
    cases cur.nick <;> cases cur.full <;> cases new.full <;> simp [sooner]

theorem tempBanIpScan_stop {cur : BanItem} : tempBanIpScan new cur = .stop ↔
    (cur.temp = true → new.tempBanExpire ≤ cur.tempBanExpire) ∧
      (new.full = true → cur.full = true) := by
  unfold tempBanIpScan
  rw [← Int.not_lt]
  by_cases sooner : cur.tempBanExpire < new.tempBanExpire <;> cases cur.temp <;>
    cases cur.nick <;> cases cur.full <;> cases new.full <;> simp [sooner]

/-- A nick adder drops its ban only over one that lasts as long. -/
theorem nickBanClash_drop {old : BanItem} (bits : old.temp = !old.perm)
    (way : nickBanClash new old = .dropNew) : old.Outlasts new := by
  unfold nickBanClash at way
  cases perm : old.perm with
  | true => exact BanItem.outlasts_of_perm (by simp [bits, perm])
  | false => cases ip : old.ip <;> simp [perm, ip] at way

theorem nickTempBanClash_drop {old : BanItem} (bits : old.temp = !old.perm)
    (temp : new.temp = true) (way : nickTempBanClash new old = .dropNew) : old.Outlasts new := by
  unfold nickTempBanClash at way
  cases perm : old.perm with
  | true => exact BanItem.outlasts_of_perm (by simp [bits, perm])
  | false =>
    by_cases sooner : old.tempBanExpire < new.tempBanExpire
    · cases ip : old.ip <;> simp [perm, sooner, ip] at way
    · exact BanItem.outlasts_of_le temp (by omega)

theorem scanSound_ban (temp : new.temp = false) : ScanSound banScan new where
  removes old _ way := by
    obtain ⟨nick, full⟩ := banScan_remove.mp way
    exact ⟨nick, BanItem.outlasts_of_perm temp, full⟩
  stops old _ way := by
    unfold banScan at way
    repeat' split at way
    all_goals cases way

theorem scanSound_banIp (temp : new.temp = false) : ScanSound banIpScan new where
  removes old _ way := by
    obtain ⟨nick, full⟩ := banIpScan_remove way
    exact ⟨nick, BanItem.outlasts_of_perm temp, full⟩
  stops old _ way := by
    obtain ⟨perm, full⟩ := banIpScan_stop.mp way
    exact ⟨BanItem.outlasts_of_perm perm, full⟩

theorem scanSound_tempBan : ScanSound tempBanScan new where
  removes old bits way := by
    obtain ⟨perm, nick, full, sooner⟩ := tempBanScan_remove.mp way
    exact ⟨nick, BanItem.outlasts_of_le (by simp [bits, perm]) sooner, full⟩
  stops old _ way := by
    unfold tempBanScan at way
    repeat' split at way
    all_goals cases way

theorem scanSound_tempBanIp (temp : new.temp = true) : ScanSound tempBanIpScan new where
  removes old _ way := by
    obtain ⟨⟨oldTemp, sooner⟩, nick, full⟩ := tempBanIpScan_remove.mp way
    exact ⟨nick, BanItem.outlasts_of_le oldTemp (by omega), full⟩
  stops old _ way := by
    obtain ⟨later, full⟩ := tempBanIpScan_stop.mp way
    refine ⟨?_, full⟩
    cases oldTemp : old.temp with
    | false => exact BanItem.outlasts_of_perm oldTemp
    | true => exact BanItem.outlasts_of_le temp (later oldTemp)

end

namespace RangeBanItem

def Stops (r : RangeBanItem) (t : Int) : Target → Prop
  | .range f h full =>
    (r.fromIpHash = f ∧ r.toIpHash = h) ∧ (full = true → r.full = true) ∧ r.expired t = false
  | _ => False

def Outlasts (r r' : RangeBanItem) : Prop := ∀ t, r'.expired t = false → r.expired t = false

end RangeBanItem

theorem sameRange_iff {r r' : RangeBanItem} : r.sameRange r' = true ↔
    r.fromIpHash = r'.fromIpHash ∧ r.toIpHash = r'.toIpHash := by
  simp [RangeBanItem.sameRange]

/-- The rules of a scan of the ranges: only bans of the same range go or stop it,
and they are covered by the new one or cover it. -/
structure RangeSound (verdict : RangeBanItem → RangeBanItem → Verdict) (new : RangeBanItem) :
    Prop where
  removes : ∀ old : RangeBanItem, verdict new old = .remove →
    (old.fromIpHash = new.fromIpHash ∧ old.toIpHash = new.toIpHash) ∧
      new.Outlasts old ∧ (old.full = true → new.full = true)
  stops : ∀ old : RangeBanItem, verdict new old = .stop →
    (old.fromIpHash = new.fromIpHash ∧ old.toIpHash = new.toIpHash) ∧
      old.Outlasts new ∧ (new.full = true → old.full = true)

section
variable {new cur : RangeBanItem}

theorem rangeBanScan_remove : rangeBanScan new cur = .remove ↔
    cur.sameRange new = true ∧ cur.temp = false ∧ cur.full = false ∧ new.full = true := by
  unfold rangeBanScan
  cases cur.sameRange new <;> cases cur.temp <;> cases cur.full <;> cases new.full <;> simp

theorem rangeBanScan_stop : rangeBanScan new cur = .stop ↔
    cur.sameRange new = true ∧ cur.temp = false ∧ (new.full = true → cur.full = true) := by
  unfold rangeBanScan
  cases cur.sameRange new <;> cases cur.temp <;> cases cur.full <;> cases new.full <;> simp

theorem rangeTempBanScan_remove : rangeTempBanScan new cur = .remove ↔
    cur.sameRange new = true ∧ (cur.temp = true ∧ cur.tempBanExpire < new.tempBanExpire) ∧
      (cur.full = true → new.full = true) := by
  unfold rangeTempBanScan
  by_cases sooner : cur.tempBanExpire < new.tempBanExpire <;> cases cur.sameRange new <;>
    cases cur.temp <;> cases cur.full <;> cases new.full <;> simp [sooner]

theorem rangeTempBanScan_stop : rangeTempBanScan new cur = .stop ↔
    cur.sameRange new = true ∧ (cur.temp = true → new.tempBanExpire ≤ cur.tempBanExpire) ∧
      (new.full = true → cur.full = true) := by
  unfold rangeTempBanScan
  rw [← Int.not_lt]
  by_cases sooner : cur.tempBanExpire < new.tempBanExpire <;> cases cur.sameRange new <;>
    cases cur.temp <;> cases cur.full <;> cases new.full <;> simp [sooner]

theorem RangeBanItem.outlasts_of_perm {r r' : RangeBanItem} (h : r.temp = false) :
    r.Outlasts r' := fun t _ => by simp [expired, h]

theorem RangeBanItem.outlasts_of_le {r r' : RangeBanItem} (temp : r'.temp = true)
    (le : r'.tempBanExpire ≤ r.tempBanExpire) : r.Outlasts r' := by
  intro t unexpired
  simp only [expired, temp, Bool.true_and, decide_eq_false_iff_not, Int.not_le] at unexpired
  have later : ¬ r.tempBanExpire ≤ t := by omega
  simp [expired, later]

theorem rangeSound_rangeBan (temp : new.temp = false) : RangeSound rangeBanScan new where
  removes old way := by
    obtain ⟨same, -, -, full⟩ := rangeBanScan_remove.mp way
    exact ⟨sameRange_iff.mp same, RangeBanItem.outlasts_of_perm temp, fun _ => full⟩
  stops old way := by
    obtain ⟨same, perm, full⟩ := rangeBanScan_stop.mp way
    exact ⟨sameRange_iff.mp same, RangeBanItem.outlasts_of_perm perm, full⟩

theorem rangeSound_rangeTempBan (temp : new.temp = true) : RangeSound rangeTempBanScan new where
  removes old way := by
    obtain ⟨same, ⟨oldTemp, sooner⟩, full⟩ := rangeTempBanScan_remove.mp way
    exact ⟨sameRange_iff.mp same, RangeBanItem.outlasts_of_le oldTemp (by omega), full⟩
  stops old way := by
    obtain ⟨same, later, full⟩ := rangeTempBanScan_stop.mp way
    refine ⟨sameRange_iff.mp same, ?_, full⟩
    cases oldTemp : old.temp with
    | false => exact RangeBanItem.outlasts_of_perm oldTemp
    | true => exact RangeBanItem.outlasts_of_le temp (later oldTemp)

end

end FlyHub.Ban
