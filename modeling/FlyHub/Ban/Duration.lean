import FlyHub.Ban.Added

/-!
# How long a temporary ban lasts

The four operations that ban for some minutes multiply them by 60 in 32 bits, before the
product is added to the time.
-/

namespace FlyHub.Ban

/-- The minutes a temporary ban is asked for, where no end is. -/
def Op.duration : Op → Option UInt32
  | .tempBan _ _ _ minutes expiretime _ | .tempBanIp _ _ _ _ minutes expiretime _
  | .nickTempBan _ _ _ _ minutes expiretime | .rangeTempBan _ _ _ _ _ _ minutes expiretime _ =>
    if expiretime ≤ 0 ∧ 0 < minutes then some minutes else none
  | _ => none

namespace BanManager

/-- The operation adds a ban that ends then. -/
inductive AddsUntil (cfg : Config) (m : BanManager) (e : Event) : Int → Prop where
  | ban {b : BanId} (added : Added m (step cfg m e) b) :
      AddsUntil cfg m e ((step cfg m e).ban b).tempBanExpire
  | range {r : RangeBanItem} (ranges : e.op.onRanges = true)
      (added : (m.exec cfg e.now e.op).2 = .ok true)
      (last : (step cfg m e).rangeBanList.getLast? = some r) :
      AddsUntil cfg m e r.tempBanExpire

section
variable {cfg : Config} {m : BanManager} {now expiretime default t : Int} {minutes m₀ : UInt32}
  {e : Event} {b : BanId} {sReason sBy : Option Text}

/-- The minutes count, and they are taken to seconds in 32 bits. -/
theorem expireTime_duration
    (asked : (if expiretime ≤ 0 ∧ 0 < m₀ then some m₀ else none) = some minutes) :
    expireTime now m₀ expiretime default = now + (minutes * 60).toNat := by
  rw [Option.ite_none_right_eq_some] at asked
  obtain ⟨⟨noEnd, positive⟩, same⟩ := asked
  obtain rfl := Option.some.inj same
  rw [expireTime, if_neg (by omega), if_pos positive]

theorem expire_addUser (h : Inv m) {clash : BanItem → BanItem → Clash}
    {verdict : BanItem → BanItem → Verdict} {u : BanUser} {pBan : BanItem}
    (added : Added m (m.addUser cfg now clash verdict u pBan sReason sBy) b) :
    ((m.addUser cfg now clash verdict u pBan sReason sBy).ban b).tempBanExpire =
      pBan.tempBanExpire := by
  obtain ⟨item, eq, ⟨keep, rfl⟩ | rfl⟩ := added_addUser_item h added <;> rw [eq] <;> rfl

theorem expire_tempBanIp (h : Inv m) {pUser : Option BanUser} {sIp : Option Text} {bFull : Bool}
    (added : Added m (m.tempBanIp cfg now pUser sIp sReason sBy minutes expiretime bFull).1 b) :
    ((m.tempBanIp cfg now pUser sIp sReason sBy minutes expiretime bFull).1.ban b).tempBanExpire =
      expireTime now minutes expiretime cfg.defaultTempBanTime := by
  unfold tempBanIp at added ⊢
  cases target : targetIp cfg { temp := true } pUser sIp with
  | none =>
    simp only [target] at added
    exact absurd added (not_added_discard _)
  | some p =>
    simp only [target] at added ⊢
    rw [added_addIp h added]
    rfl

theorem expire_nickTempBan (h : Inv m) {pUser : Option BanUser} {sNick : Option Text}
    (added : Added m (m.nickTempBan cfg now pUser sNick sReason sBy minutes expiretime).1 b) :
    ((m.nickTempBan cfg now pUser sNick sReason sBy minutes expiretime).1.ban b).tempBanExpire =
      expireTime now minutes expiretime cfg.defaultTempBanTime := by
  unfold nickTempBan at added ⊢
  cases target : targetNick { temp := true } pUser sNick with
  | none =>
    simp only [target] at added
    exact absurd added (not_added_discard _)
  | some p =>
    simp only [target] at added ⊢
    obtain ⟨-, hash, -, -⟩ := targetNick_some target
    obtain ⟨keep, eq⟩ := added_addNick_item h _ (by exact hash) added
    rw [eq]
    rfl

/-- A range ban that was not refused is the last one of the list. -/
theorem last_addRange {verdict : RangeBanItem → RangeBanItem → Verdict}
    {new : RangeBanItem} (done : (m.addRange verdict new sReason sBy).2 = true) :
    (m.addRange verdict new sReason sBy).1.rangeBanList.getLast? =
      some { new with sReason := createReason sReason, sBy := addBanInternal sBy } := by
  unfold addRange at done ⊢
  dsimp only at done ⊢
  split at done
  case h_1 => cases done
  case h_2 => exact List.getLast?_concat

theorem not_added_rangeTempBan {sIpFrom sIpTo : Text} {fromHash toHash : IpHash} {bFull : Bool} :
    ¬ Added m (m.rangeTempBan cfg now sIpFrom fromHash sIpTo toHash sReason sBy minutes expiretime
      bFull).1 b := by
  have onRanges : (Op.rangeTempBan sIpFrom fromHash sIpTo toHash sReason sBy minutes expiretime
    bFull).onRanges = true := rfl
  obtain ⟨l, eq⟩ := exec_ranges (m := m) cfg now onRanges
  intro added
  have live : ({ m with rangeBanList := l } : BanManager).Live b := eq ▸ added.1
  exact added.2 live

/-- A ban asked for some minutes ends after so many seconds, taken in 32 bits. -/
theorem AddsUntil.eq (h : Inv m) (duration : e.op.duration = some minutes)
    (ends : AddsUntil cfg m e t) : t = e.now + (minutes * 60).toNat := by
  obtain ⟨now, op⟩ := e
  cases ends with
  | ban added =>
    cases op with
    | tempBan => exact (expire_addUser h added).trans (expireTime_duration duration)
    | tempBanIp => exact (expire_tempBanIp h added).trans (expireTime_duration duration)
    | nickTempBan => exact (expire_nickTempBan h added).trans (expireTime_duration duration)
    | rangeTempBan => exact absurd added not_added_rangeTempBan
    | _ => cases duration
  | range ranges added last =>
    cases op with
    | rangeTempBan =>
      have done := Reply.ok.inj added
      have end_ := (last_addRange done).symm.trans last
      rw [← Option.some.inj end_]
      exact expireTime_duration duration
    | tempBan | tempBanIp | nickTempBan => cases ranges
    | _ => cases duration

theorem seconds_eq (minutes : UInt32) :
    (minutes * 60).toNat = 60 * minutes.toNat % UInt32.size := by
  rw [UInt32.toNat_mul, Nat.mul_comm]
  rfl

/-- A temporary ban ends when it was asked to, and not before one that was asked for fewer
minutes, exactly if its seconds are a number of 32 bits. -/
theorem lasts_as_asked (cfg : Config) (es : List Event) (e : Event) {minutes : UInt32} {t : Int}
    (duration : e.op.duration = some minutes) (ends : AddsUntil cfg (reach cfg es) e t) :
    (t = e.now + 60 * minutes.toNat ∧
      ∀ es' e' shorter t', e'.op.duration = some shorter → shorter ≤ minutes → e'.now = e.now →
        AddsUntil cfg (reach cfg es') e' t' → t' ≤ t) ↔
    60 * minutes.toNat < UInt32.size := by
  have exact_ := ends.eq (inv_reach cfg es) duration
  rw [seconds_eq] at exact_
  constructor
  · rintro ⟨asked, -⟩
    have bound : 60 * minutes.toNat % UInt32.size < UInt32.size := Nat.mod_lt _ (by decide)
    omega
  · intro fits
    rw [Nat.mod_eq_of_lt fits] at exact_
    refine ⟨by omega, fun es' e' shorter t' duration' le sameTime ends' => ?_⟩
    have earlier := ends'.eq (inv_reach cfg es') duration'
    have fewer : shorter.toNat ≤ minutes.toNat := UInt32.le_iff_toNat_le.mp le
    rw [seconds_eq, Nat.mod_eq_of_lt (by omega)] at earlier
    omega

end

/-- Bob is banned for some minutes, at the time 0. -/
def bobFor (minutes : UInt32) : Event :=
  ⟨0, .nickTempBan none (some (ascii "bob")) none none minutes 0⟩

theorem bob_hour : (3600 : Int) = (bobFor 60).now + 60 * (60 : UInt32).toNat := by
  have ends : AddsUntil Config.plain (reach Config.plain []) (bobFor 60) 3600 :=
    .ban (b := 0) ⟨by decide, by decide⟩
  exact ((lasts_as_asked Config.plain [] (bobFor 60) rfl ends).mpr (by decide)).1

/-- Of the bans for a minute and for 71582789 minutes the longer one ends first. -/
theorem longer_ends_first :
    AddsUntil Config.plain (reach Config.plain []) (bobFor 1) 60 ∧
      AddsUntil Config.plain (reach Config.plain []) (bobFor 71582789) 44 ∧
      (44 : Int) ≠ (bobFor 71582789).now + 60 * (71582789 : UInt32).toNat :=
  ⟨.ban (b := 0) ⟨by decide, by decide⟩, .ban (b := 0) ⟨by decide, by decide⟩, by decide⟩

end BanManager

end FlyHub.Ban
