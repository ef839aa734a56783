import FlyHub.Ban.Protect

/-!
# What is found when an address comes

The lookups made for a new connection find a FULL ban if there is one, and
otherwise some ban if there is any.
-/

namespace FlyHub.Ban

namespace BanManager

/-- A ban or a range ban of the address is in force, with `full` at FULL level. -/
def Covers (m : BanManager) (now : Int) (ip : IpHash) (full : Bool) : Prop :=
  m.Banned now (.ip ip full) ∨
    ∃ r ∈ m.rangeBanList, r.covers ip = true ∧ (full = true → r.full = true) ∧
      r.expired now = false

section
variable {m : BanManager} {now : Int} {ip : IpHash}

theorem banned_ip {full : Bool} : m.Banned now (.ip ip full) ↔
    ∃ b, m.Live b ∧ (m.ban b).ip = true ∧ (m.ban b).ipHash = ip ∧
      (full = true → (m.ban b).full = true) ∧ (m.ban b).expired now = false := by
  constructor
  · rintro (⟨b, live, onIp, key, level, unexpired⟩ | ⟨r, -, stops⟩)
    · exact ⟨b, live, onIp, key, level, unexpired⟩
    · exact stops.elim
  · rintro ⟨b, live, onIp, key, level, unexpired⟩
    exact .inl ⟨b, live, onIp, key, level, unexpired⟩

/-- A lookup by IP sweeps no range and changes no record. -/
theorem findFull_keeps (now : Int) (ip : IpHash) (h : Inv m) :
    (m.findFull ip now).1.ban = m.ban ∧ (m.findFull ip now).1.rangeBanList = m.rangeBanList := by
  obtain ⟨rs, swept, -⟩ := findIpBanGeneric_spec h ip now BanItem.full
  obtain ⟨-, -, ban, -, ranges⟩ := swept.spec h
  exact ⟨ban, ranges⟩

theorem findFull_full (h : Inv m) (banned : m.Banned now (.ip ip true)) :
    ∃ b, (m.findFull ip now).2 = some b ∧ (m.ban b).full = true := by
  obtain ⟨b, live, onIp, key, level, unexpired⟩ := banned_ip.mp banned
  obtain ⟨c, hc⟩ := h.ipTable ip
  unfold findFull
  rw [findIpBanGeneric_eq h hc]
  dsimp only
  cases stopped : (plan (fun b => lookup now BanItem.full (m.ban b)) c).stopped with
  | some found => exact ⟨found, rfl, (lookup_stop.mp (plan_stopped stopped).2).2⟩
  | none =>
    have mem := (hc.mem b).mpr ⟨live, onIp, key⟩
    rcases plan_complete stopped mem with ⟨removed, -⟩ | ⟨kept, -⟩
    · rw [lookup_remove.mp removed] at unexpired
      cases unexpired
    · have plain := (lookup_keep.mp kept).2
      rw [level rfl] at plain
      cases plain

theorem findFull_some (h : Inv m) (banned : m.Banned now (.ip ip false)) :
    (m.findFull ip now).2.isSome = true := by
  obtain ⟨b, live, onIp, key, -, unexpired⟩ := banned_ip.mp banned
  obtain ⟨rs, -, found⟩ := findIpBanGeneric_spec h ip now BanItem.full
  cases eq : (m.findFull ip now).2 with
  | some b => rfl
  | none =>
    unfold findFull at eq
    rw [eq] at found
    rw [found b live onIp key] at unexpired
    cases unexpired

/-- A scan of the ranges that does not stop has met nothing to stop at. -/
theorem scanRanges_complete {verdict : RangeBanItem → Verdict} {l : List RangeBanItem}
    (all : (scanRanges verdict l).stopped = none) {r : RangeBanItem} (mem : r ∈ l) :
    verdict r ≠ .stop := by
  induction l with
  | nil => cases mem
  | cons a l ih =>
    unfold scanRanges at all
    rcases List.mem_cons.mp mem with rfl | mem
    · intro stop
      simp [stop] at all
    · cases way : verdict a with
      | remove => exact ih (by simpa [way] using all) mem
      | stop => simp [way] at all
      | keep => exact ih (by simpa [way] using all) mem

theorem findFullRange_full {r : RangeBanItem} (mem : r ∈ m.rangeBanList)
    (covers : r.covers ip = true) (full : r.full = true) (unexpired : r.expired now = false) :
    ∃ found, (m.findFullRange ip now).2 = some found ∧ found.full = true := by
  unfold findFullRange findRangeBanGeneric
  dsimp only
  cases stopped : (scanRanges (rangeLookup ip now RangeBanItem.full) m.rangeBanList).stopped with
  | some found =>
    obtain ⟨-, -, way⟩ := scanRanges_stopped stopped
    refine ⟨found, rfl, ?_⟩
    unfold rangeLookup at way
    split at way
    · cases way
    split at way
    · cases way
    split at way
    · assumption
    · cases way
  | none =>
    exact absurd (by simp [rangeLookup, covers, full, unexpired])
      (scanRanges_complete stopped mem)

theorem findFullRange_some {r : RangeBanItem} (mem : r ∈ m.rangeBanList)
    (covers : r.covers ip = true) (unexpired : r.expired now = false) :
    (m.findFullRange ip now).2.isSome = true := by
  unfold findFullRange findRangeBanGeneric
  dsimp only
  have kept : r ∈ (scanRanges (rangeLookup ip now RangeBanItem.full) m.rangeBanList).list := by
    refine (scanRanges_keeps mem).resolve_right fun way => ?_
    cases full : r.full <;> simp [rangeLookup, covers, unexpired, full] at way
  have found : ((scanRanges (rangeLookup ip now RangeBanItem.full) m.rangeBanList).list.find?
      fun r => r.covers ip).isSome = true := List.find?_isSome.mpr ⟨r, kept, covers⟩
  cases (scanRanges (rangeLookup ip now RangeBanItem.full) m.rangeBanList).stopped with
  | some found => rfl
  | none => exact found

/-- A full ban that a lookup finds is in force after it. -/
theorem findFull_banned (h : Inv m) {b : BanId} (found : (m.findFull ip now).2 = some b)
    (full : (m.ban b).full = true) : (m.findFull ip now).1.Banned now (.ip ip true) := by
  obtain ⟨rs, swept, result⟩ := findIpBanGeneric_spec h ip now BanItem.full
  obtain ⟨-, live, ban, -, -⟩ := swept.spec h
  unfold findFull at found ⊢
  rw [found] at result
  obtain ⟨lives, stays, onIp, key, unexpired⟩ := result
  refine banned_ip.mpr ⟨b, (live b).mpr ⟨lives, stays⟩, ?_⟩
  rw [ban]
  exact ⟨onIp, key, fun _ => full, unexpired⟩

variable {t : Int} (cfg : Config)

/-- After an IP adder its address is banned, by the new ban or by the one that refused it. -/
theorem addIp_bans (h : Inv m) {verdict : BanItem → BanItem → Verdict} {pBan : BanItem}
    (sound : ScanSound verdict pBan) (onIp : pBan.ip = true) (asked : pBan.expired t = false)
    (sReason sBy : Option Text) :
    (m.addIp cfg now verdict pBan sReason sBy).1.Banned t (.ip pBan.ipHash pBan.full) := by
  obtain ⟨m₁, r, ⟨⟨b, live, oldIp, key, way⟩, eq⟩ | eq⟩ :=
    addIp_cases cfg h now verdict pBan sReason sBy <;> rw [eq]
  · obtain ⟨outlasts, level⟩ := sound.stops _ ((inv_reduces h r).bits live) way
    exact banned_ip.mpr ⟨b, live, oldIp, key, level, outlasts t asked⟩
  · refine banned_store (inv_reduces h r) cfg.place sReason sBy (.inr ?_)
    exact ⟨onIp, rfl, id, asked⟩

theorem banIp_bans (h : Inv m) (u : BanUser) (sIp sReason sBy : Option Text) :
    (m.banIp cfg now (some u) sIp sReason sBy true).1.Banned t (.ip u.ipHash true) :=
  addIp_bans cfg h (scanSound_banIp rfl) rfl rfl sReason sBy

theorem tempBanIp_bans (h : Inv m) (u : BanUser) (sIp sReason sBy : Option Text)
    {minutes : UInt32} {expiretime : Int}
    (lasts : t < expireTime now minutes expiretime cfg.defaultTempBanTime) :
    (m.tempBanIp cfg now (some u) sIp sReason sBy minutes expiretime true).1.Banned t
      (.ip u.ipHash true) :=
  addIp_bans cfg h (scanSound_tempBanIp rfl) rfl ((BanItem.expired_temp rfl).mpr lasts) sReason sBy

end

end BanManager

end FlyHub.Ban
