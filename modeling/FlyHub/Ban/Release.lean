import FlyHub.Ban.Representation
import FlyHub.Ban.Rules

/-!
# Who deletes a ban

`Rem` erases a ban from the list that owns it, which deletes it, and every caller
deletes it again through a guard of its own. The count of deletions is right only
as long as nothing is removed; the conditions below say, from the store before an
operation, whether it removes something.
-/

namespace FlyHub.Ban

open FlyHub.Lib Relation

theorem plan_congr {verdict : BanId → Verdict} (verdict' : BanId → Verdict) {l : List BanId}
    (same : ∀ x ∈ l, verdict x = verdict' x) : plan verdict l = plan verdict' l := by
  induction l with
  | nil => rfl
  | cons b l ih =>
    have tail := ih fun x hx => same x (List.mem_cons_of_mem _ hx)
    unfold plan
    rw [same b List.mem_cons_self, tail]

namespace BanManager

/-- The first entry for a nick in its bucket. -/
def firstNick (m : BanManager) (sNick : Text) : Option BanId :=
  (m.nickBanTable (hashNick sNick)).find? fun b => iequals (m.ban b).sNick sNick

/-- A lookup of the nick comes to a ban that has expired. -/
def NickSweeps (m : BanManager) (now : Int) (sNick : Text) (bits : BanItem → Bool) : Prop :=
  (plan (fun b => nickLookup now sNick bits (m.ban b)) (m.nickBanTable (hashNick sNick))).removed ≠ []

/-- A loop over the bans of the IP comes to one that its verdict condemns. -/
def ChainRemoves (m : BanManager) (ip : IpHash) (verdict : BanItem → Verdict) : Prop :=
  ∃ c, m.Chain ip c ∧ (plan (fun b => verdict (m.ban b)) c).removed ≠ []

/-- The loop of `Find` and `Remove` comes to an expired ban before its target. -/
def GuiSweeps (m : BanManager) (now : Int) (target : BanId) : Prop :=
  (plan (fun b => guiScan now target b (m.ban b)) m.tempBanList).removed ≠ []

/-- The clash of nicks is to remove the old ban. -/
def ClashRemoves (m : BanManager) (now : Int) (clash : BanItem → BanItem → Clash)
    (pBan : BanItem) : Prop :=
  ∃ old ∈ m.firstNick pBan.sNick,
    (m.ban old).expired now = true ∨ clash pBan (m.ban old) = .removeOld

/-- The clash of nicks is to drop the new ban. -/
def ClashDrops (m : BanManager) (clash : BanItem → BanItem → Clash) (pBan : BanItem) : Prop :=
  ∃ old ∈ m.firstNick pBan.sNick, clash pBan (m.ban old) = .dropNew

/-- The scan of the new ban's IP is to remove something. -/
def ScanRemoves (m : BanManager) (now : Int) (ip : IpHash) (verdict : BanItem → Verdict) : Prop :=
  (∃ c, m.Chain ip c ∧ ∃ b ∈ c.head?, (m.ban b).expired now = true) ∨ m.ChainRemoves ip verdict

def UserRemoves (m : BanManager) (now : Int) (clash : BanItem → BanItem → Clash)
    (verdict : BanItem → BanItem → Verdict) (u : BanUser) (pBan : BanItem) : Prop :=
  (startsWith u.sNick 60 = false ∧ m.ClashRemoves now clash (withNick pBan u)) ∨
    (¬ (startsWith u.sNick 60 = false ∧ m.ClashDrops clash (withNick pBan u)) ∧
      m.ScanRemoves now u.ipHash (verdict pBan))

def UnbanRemoves (cfg : Config) (m : BanManager) (now : Int) (bits : BanItem → Bool)
    (sWhat : Text) : Prop :=
  (∃ b, m.Live b ∧ (m.ban b).nick = true ∧ iequals (m.ban b).sNick sWhat = true ∧
      ((m.ban b).expired now = true ∨ bits (m.ban b) = true)) ∨
    ∃ ip ∈ cfg.hashIP sWhat, ∃ b, m.Live b ∧ (m.ban b).ip = true ∧ (m.ban b).ipHash = ip

/-- The operation is to remove a ban from the lists. -/
def Removes (cfg : Config) (m : BanManager) (now : Int) : Op → Prop
  | .ban u _ _ full => m.UserRemoves now banClash banScan u { perm := true, ip := true, full }
  | .tempBan u _ _ minutes expiretime full =>
    m.UserRemoves now tempBanClash tempBanScan u
      { temp := true, ip := true, full
        tempBanExpire := expireTime now minutes expiretime cfg.defaultTempBanTime }
  | .banIp pUser sIp _ _ full =>
    ∃ p ∈ targetIp cfg { perm := true } pUser sIp,
      m.ScanRemoves now p.ipHash (banIpScan { p with full })
  | .tempBanIp pUser sIp _ _ minutes expiretime full =>
    ∃ p ∈ targetIp cfg { temp := true } pUser sIp,
      m.ScanRemoves now p.ipHash (tempBanIpScan
        { p with full
                 tempBanExpire := expireTime now minutes expiretime cfg.defaultTempBanTime })
  | .nickBan pUser sNick _ _ =>
    ∃ p ∈ targetNick { perm := true } pUser sNick, m.ClashRemoves now nickBanClash p
  | .nickTempBan pUser sNick _ _ minutes expiretime =>
    ∃ p ∈ targetNick { temp := true } pUser sNick,
      m.ClashRemoves now nickTempBanClash
        { p with tempBanExpire := expireTime now minutes expiretime cfg.defaultTempBanTime }
  | .unban s => m.UnbanRemoves cfg now anyBits s
  | .permUnban s => m.UnbanRemoves cfg 0 BanItem.perm s
  | .tempUnban s => m.UnbanRemoves cfg now BanItem.temp s
  | .removeAllIP ip => ∃ b, m.Live b ∧ (m.ban b).ip = true ∧ (m.ban b).ipHash = ip
  | .removePermAllIP ip =>
    ∃ b, m.Live b ∧ (m.ban b).ip = true ∧ (m.ban b).ipHash = ip ∧ (m.ban b).perm = true
  | .removeTempAllIP ip =>
    ∃ b, m.Live b ∧ (m.ban b).ip = true ∧ (m.ban b).ipHash = ip ∧ (m.ban b).temp = true
  | .find b => m.GuiSweeps now b
  | .remove b => m.GuiSweeps now b ∨ m.Live b
  | .findNick s => m.NickSweeps now s anyBits
  | .findTempNick s => m.NickSweeps now s BanItem.temp
  | .findPermNick s => m.NickSweeps 0 s BanItem.perm
  | .findIP ip => m.ChainRemoves ip (lookup now anyBits)
  | .findFull ip => m.ChainRemoves ip (lookup now BanItem.full)
  | .findTempIP ip => m.ChainRemoves ip (lookup now BanItem.temp)
  | .findPermIP ip => m.ChainRemoves ip (lookup 0 BanItem.perm)
  | .clearTemp => m.tempBanList ≠ []
  | .clearPerm => m.permBanList ≠ []
  | _ => False

/-- Each ban given out is deleted once if it is in neither list, and never if it
is in one. -/
def Accounted (m : BanManager) : Prop :=
  ∀ b, m.released b = if b < m.next ∧ ¬ m.Live b then 1 else 0

section
variable {m m' : BanManager}

theorem accounted_empty : Accounted empty := fun b => by simp [empty]

theorem accounted_change (h : Inv m) (a : m.Accounted) (c : Change Never Anything m m') :
    m'.Accounted := by
  cases c with
  | remove _ no => exact no.elim
  | stripNick => exact a
  | discard item =>
    intro b
    have notLive : ¬ m.Live m.next := fun hl => Nat.lt_irrefl _ (h.bounded _ hl)
    have same : (m.discard item).Live b ↔ m.Live b := Iff.rfl
    have next : (m.discard item).next = m.next + 1 := rfl
    have released : (m.discard item).released =
        Function.update m.released m.next (m.released m.next + 1) := rfl
    simp only [same, next, released]
    by_cases new : b = m.next
    · subst new
      have zero : m.released m.next = 0 := by simp [a m.next]
      simp [zero, notLive]
    · have lt : b < m.next + 1 ↔ b < m.next :=
        ⟨fun lt => Nat.lt_of_le_of_ne (Nat.le_of_lt_succ lt) new, fun lt => Nat.lt_succ_of_lt lt⟩
      rw [Function.update_of_ne new, a b]
      simp only [lt]

theorem accounted_reduces (h : Inv m) (a : m.Accounted) (r : Reduces Never Anything m m') :
    m'.Accounted := by
  induction r with
  | refl => exact a
  | tail r c ih => exact accounted_change (inv_reduces h r) ih c

theorem accounted_store (a : m.Accounted) (place : Placement) (item : BanItem) :
    (m.store place item).Accounted := by
  intro b
  have next : (m.store place item).next = m.next + 1 := by simp [store, add_eq, alloc]
  have released : (m.store place item).released = m.released := by simp [store, add_eq, alloc]
  simp only [store_live, next, released, a b]
  by_cases new : b = m.next
  · subst new
    simp
  · have lt : b < m.next + 1 ↔ b < m.next :=
      ⟨fun lt => Nat.lt_of_le_of_ne (Nat.le_of_lt_succ lt) new, fun lt => Nat.lt_succ_of_lt lt⟩
    simp only [lt, new, or_false]

theorem removeAll_plan {verdict : BanId → Verdict} {l : List BanId}
    (calm : ¬ (plan verdict l).removed ≠ []) : m.removeAll (plan verdict l).removed = m := by
  rw [not_not.mp calm, removeAll_nil]

theorem findNickBanGeneric_calm {now : Int} {sNick : Text} {bits : BanItem → Bool}
    (calm : ¬ m.NickSweeps now sNick bits) :
    (m.findNickBanGeneric (hashNick sNick) now sNick bits).1 = m := by
  rw [findNickBanGeneric, scanList_eq]
  exact removeAll_plan calm

theorem findIpBanGeneric_calm (h : Inv m) {now : Int} {ip : IpHash} {bits : BanItem → Bool}
    (calm : ¬ m.ChainRemoves ip (lookup now bits)) :
    (m.findIpBanGeneric ip now bits).1 = m := by
  obtain ⟨c, hc⟩ := h.ipTable ip
  rw [findIpBanGeneric_eq h hc]
  exact removeAll_plan fun hits => calm ⟨c, hc, hits⟩

/-- The plan of a nick lookup that has no expired ban in its way: it stops at the
first entry of the nick. -/
theorem plan_nickLookup {now : Int} {sNick : Text} {l : List BanId}
    (unexpired : ∀ b ∈ l.find? fun b => iequals (m.ban b).sNick sNick,
      (m.ban b).expired now = false) :
    (plan (fun b => nickLookup now sNick anyBits (m.ban b)) l).removed = [] ∧
      (plan (fun b => nickLookup now sNick anyBits (m.ban b)) l).stopped =
        l.find? fun b => iequals (m.ban b).sNick sNick := by
  induction l with
  | nil => exact ⟨rfl, rfl⟩
  | cons b l ih =>
    unfold plan
    cases same : iequals (m.ban b).sNick sNick with
    | false =>
      have verdict : nickLookup now sNick anyBits (m.ban b) = .keep := by simp [nickLookup, same]
      rw [verdict]
      rw [List.find?_cons_of_neg (by simp [same])] at unexpired ⊢
      exact ih unexpired
    | true =>
      rw [List.find?_cons_of_pos (by simp [same])] at unexpired ⊢
      have verdict : nickLookup now sNick anyBits (m.ban b) = .stop := by
        simp [nickLookup, same, lookup, unexpired b rfl, anyBits]
      rw [verdict]
      exact ⟨rfl, rfl⟩

/-- A clash of nicks that removes nothing. -/
theorem resolveNick_calm {now : Int} {clash : BanItem → BanItem → Clash} {pBan : BanItem}
    (hash : pBan.nickHash = hashNick pBan.sNick) (calm : ¬ m.ClashRemoves now clash pBan) :
    m.resolveNick clash now pBan =
      match m.firstNick pBan.sNick with
      | none => (m, some pBan)
      | some old => m.settle pBan old (clash pBan (m.ban old)) := by
  have unexpired : ∀ b ∈ m.firstNick pBan.sNick, (m.ban b).expired now = false := fun b hb => by
    rw [← Bool.not_eq_true]
    exact fun expired => calm ⟨b, hb, .inl expired⟩
  obtain ⟨removed, stopped⟩ := plan_nickLookup unexpired
  rw [resolveNick, findNickBanGeneric, scanList_eq, hash]
  simp only [removed, stopped, removeAll_nil]
  rfl

theorem settle_reduces {pBan : BanItem} {old : BanId} {c : Clash}
    (hold : m.Live old ∧ (m.ban old).nick = true) (calm : c ≠ .removeOld) :
    Reduces Never Anything m (m.settle pBan old c).1 := by
  cases c with
  | dropNew => exact .single (.discard pBan)
  | stripNew => exact .refl
  | removeOld => exact absurd rfl calm
  | stripOld => exact .single (.stripNick hold.1 hold.2 trivial)
  | keepBoth => exact .refl

theorem firstNick_live (h : Inv m) {sNick : Text} {b : BanId} (hb : b ∈ m.firstNick sNick) :
    m.Live b ∧ (m.ban b).nick = true := by
  have mem := List.mem_of_find?_eq_some hb
  obtain ⟨live, nick, -⟩ := (h.nickTable _ b).mp mem
  exact ⟨live, nick⟩

theorem resolveNick_reduces (h : Inv m) {now : Int} {clash : BanItem → BanItem → Clash}
    (pBan : BanItem) (hash : pBan.nickHash = hashNick pBan.sNick)
    (calm : ¬ m.ClashRemoves now clash pBan) :
    Reduces Never Anything m (m.resolveNick clash now pBan).1 := by
  rw [resolveNick_calm hash calm]
  cases first : m.firstNick pBan.sNick with
  | none => exact .refl
  | some old =>
    exact settle_reduces (firstNick_live h first) fun remove => calm ⟨old, first, .inr remove⟩

/-- A scan of the new ban's IP that removes nothing. -/
theorem scanIp_calm (h : Inv m) {now : Int} {ip : IpHash} {verdict : BanItem → Verdict}
    (calm : ¬ m.ScanRemoves now ip verdict) : (m.scanIp now verdict ip).state = m := by
  obtain ⟨c, hc⟩ := h.ipTable ip
  have unexpired : ∀ b ∈ c.head?, (m.ban b).expired now = false := fun b hb => by
    rw [← Bool.not_eq_true]
    exact fun expired => calm (.inl ⟨c, hc, b, hb, expired⟩)
  -- the lookup stops at the head of the chain
  have front : (plan (fun b => lookup now anyBits (m.ban b)) c).removed = [] ∧
      (plan (fun b => lookup now anyBits (m.ban b)) c).stopped = c.head? ∧
      (plan (fun b => lookup now anyBits (m.ban b)) c).kept = [] := by
    cases c with
    | nil => exact ⟨rfl, rfl, rfl⟩
    | cons b c =>
      have stop : lookup now anyBits (m.ban b) = .stop :=
        lookup_stop.mpr ⟨unexpired b rfl, rfl⟩
      unfold plan
      rw [stop]
      exact ⟨rfl, rfl, rfl⟩
  obtain ⟨removed, stopped, kept⟩ := front
  rw [scanIp, findIP, findIpBanGeneric_eq h hc]
  simp only [removed, stopped, kept, removeAll_nil, List.head?_nil, Option.or_none]
  rw [scanFrom_eq _ h hc]
  exact removeAll_plan fun hits => calm (.inr ⟨c, hc, hits⟩)

/-- What an operation that removes nothing does. -/
inductive Grows (m : BanManager) : BanManager → Prop
  | keeps {m₁ : BanManager} : Reduces Never Anything m m₁ → Grows m m₁
  | stores {m₁ : BanManager} (place : Placement) (item : BanItem) :
      Reduces Never Anything m m₁ → Grows m (m₁.store place item)
  | ranges (l : List RangeBanItem) : Grows m { m with rangeBanList := l }

theorem Grows.accounted (h : Inv m) (a : m.Accounted) (g : m.Grows m') : m'.Accounted := by
  cases g with
  | keeps r => exact accounted_reduces h a r
  | stores place item r => exact accounted_store (accounted_reduces h a r) place item
  | ranges l => exact a

/-- The scan of an IP reads the new ban's level and expiry alone, and leaves the
old bans with a nick and those that the clash takes it from. -/
structure ScanFits (clash : BanItem → BanItem → Clash) (verdict : BanItem → BanItem → Verdict)
    (pBan : BanItem) : Prop where
  same : ∀ p : BanItem, p.full = pBan.full → p.tempBanExpire = pBan.tempBanExpire →
    verdict p = verdict pBan
  nick : ∀ old : BanItem, old.nick = true → verdict pBan old = .keep
  strip : ∀ p old : BanItem, p.full = pBan.full → p.tempBanExpire = pBan.tempBanExpire →
    clash p old = .stripOld → old.ipHash = p.ipHash →
    verdict pBan { old with nick := false } = .keep

theorem scanFits_ban (full : Bool) :
    ScanFits banClash banScan { perm := true, ip := true, full } where
  same p hf _ := by funext cur; simp [banScan, hf]
  nick old hn := by simp [banScan, hn]
  strip p old hf _ strip key := by
    obtain ⟨hold, hnew⟩ := banClash_stripOld strip key
    rw [hf] at hnew
    simp only at hnew
    simp [banScan, hold, hnew]

theorem scanFits_tempBan (full : Bool) (expire : Int) :
    ScanFits tempBanClash tempBanScan
      { temp := true, ip := true, full, tempBanExpire := expire } where
  same p hf he := by funext cur; simp [tempBanScan, hf, he]
  nick old hn := by cases hp : old.perm <;> simp [tempBanScan, hn, hp]
  strip p old hf _ strip key := by
    obtain ⟨hold, hnew⟩ := tempBanClash_stripOld strip key
    rw [hf] at hnew
    simp only at hnew
    cases hp : old.perm <;> simp [tempBanScan, hold, hnew]

/-- Taking the nick off the old ban gives the scan nothing more to remove. -/
theorem scanRemoves_stripNick {clash : BanItem → BanItem → Clash}
    {verdict : BanItem → BanItem → Verdict} {pBan p : BanItem}
    (fits : ScanFits clash verdict pBan) (full : p.full = pBan.full)
    (expire : p.tempBanExpire = pBan.tempBanExpire) {old : BanId}
    (nick : (m.ban old).nick = true) (strip : clash p (m.ban old) = .stripOld) {now : Int}
    (removes : (m.stripNick old).ScanRemoves now p.ipHash (verdict pBan)) :
    m.ScanRemoves now p.ipHash (verdict pBan) := by
  have back : ∀ {c}, (m.stripNick old).Chain p.ipHash c → m.Chain p.ipHash c := fun hc =>
    ⟨hc.nodup, hc.linked, fun x => by
      have mem := hc.mem x
      simp only [stripNick_ban_eq] at mem
      exact mem, hc.head⟩
  rcases removes with ⟨c, hc, b, hb, expired⟩ | ⟨c, hc, hits⟩
  · rw [stripNick_ban_eq] at expired
    exact .inl ⟨c, back hc, b, hb, expired⟩
  · refine .inr ⟨c, back hc, ?_⟩
    rw [plan_congr fun b => verdict pBan (m.ban b)] at hits
    · exact hits
    · intro x hx
      by_cases eq : x = old
      · subst eq
        obtain ⟨-, -, key⟩ := ((back hc).mem x).mp hx
        have stripped : (m.stripNick x).ban x = { m.ban x with nick := false } := by
          simp [stripNick_ban_eq]
        simp only [stripped]
        rw [fits.nick _ nick, fits.strip p _ full expire strip key]
      · have same : (m.stripNick old).ban x = m.ban x := by simp [stripNick_ban_eq, eq]
        simp only [same]

variable (cfg : Config)

theorem grows_addUser (h : Inv m) (now : Int) {clash : BanItem → BanItem → Clash}
    {verdict : BanItem → BanItem → Verdict} (u : BanUser) {pBan : BanItem}
    (fits : ScanFits clash verdict pBan) (sReason sBy : Option Text)
    (calm : ¬ m.UserRemoves now clash verdict u pBan) :
    m.Grows (m.addUser cfg now clash verdict u pBan sReason sBy) := by
  rw [UserRemoves, not_or] at calm
  obtain ⟨calmNick, calmScan⟩ := calm
  -- what is left to do once the store `m₁` and the new ban `item` are settled
  have finish : ∀ {m₁ item}, Reduces Never Anything m m₁ → item.full = pBan.full →
      item.tempBanExpire = pBan.tempBanExpire → item.ipHash = u.ipHash →
      ¬ m₁.ScanRemoves now u.ipHash (verdict pBan) →
      m.Grows ((m₁.scanIp now (verdict item) item.ipHash).state.store cfg.place
        (describe item sReason sBy)) := by
    intro m₁ item r full expire key calm
    rw [fits.same item full expire, key, scanIp_calm (inv_reduces h r) calm]
    exact .stores _ _ r
  unfold addUser
  cases plain : startsWith u.sNick 60 with
  | true =>
    have part : m.banNickOf now clash u (pBan.initIP u) = (m, some (pBan.initIP u)) := by
      simp [banNickOf, plain]
    rw [part]
    exact finish .refl rfl rfl rfl fun removes => calmScan ⟨by simp [plain], removes⟩
  | false =>
    have calmClash : ¬ m.ClashRemoves now clash (withNick pBan u) := fun removes =>
      calmNick ⟨plain, removes⟩
    have part : m.banNickOf now clash u (pBan.initIP u) =
        m.resolveNick clash now (withNick pBan u) := by
      simp only [banNickOf, plain, Bool.not_false, ↓reduceIte]
      rfl
    have reduces := resolveNick_reduces h (withNick pBan u) rfl calmClash
    rw [part]
    rw [resolveNick_calm rfl calmClash] at reduces ⊢
    cases first : m.firstNick (withNick pBan u).sNick with
    | none =>
      have kept : ¬ m.ClashDrops clash (withNick pBan u) := by
        rintro ⟨old, mem, -⟩
        rw [first] at mem
        cases mem
      exact finish .refl rfl rfl rfl fun removes => calmScan ⟨fun drops => kept drops.2, removes⟩
    | some old =>
      simp only [first] at reduces ⊢
      have kept : clash (withNick pBan u) (m.ban old) ≠ .dropNew →
          ¬ m.ScanRemoves now u.ipHash (verdict pBan) := by
        intro other removes
        refine calmScan ⟨fun drops => ?_, removes⟩
        obtain ⟨-, old', mem, drop⟩ := drops
        rw [first] at mem
        obtain rfl : old = old' := by simpa using mem
        exact other drop
      cases way : clash (withNick pBan u) (m.ban old) with
      | dropNew => exact .keeps (.single (.discard _))
      | removeOld => exact absurd ⟨old, first, .inr way⟩ calmClash
      | stripNew => exact finish .refl rfl rfl rfl (kept (by simp [way]))
      | keepBoth => exact finish .refl rfl rfl rfl (kept (by simp [way]))
      | stripOld =>
        rw [way] at reduces
        refine finish reduces rfl rfl rfl fun removes => kept (by simp [way]) ?_
        exact scanRemoves_stripNick (p := withNick pBan u) fits rfl rfl
          (firstNick_live h first).2 way removes

theorem grows_addNick {now : Int} {clash : BanItem → BanItem → Clash} (h : Inv m)
    (pBan : BanItem) (hash : pBan.nickHash = hashNick pBan.sNick) (sReason sBy : Option Text)
    (calm : ¬ m.ClashRemoves now clash pBan) :
    m.Grows (m.addNick cfg now clash pBan sReason sBy).1 := by
  have reduces := resolveNick_reduces h pBan hash calm
  unfold addNick
  generalize m.resolveNick clash now pBan = r at reduces
  obtain ⟨m₁, next⟩ := r
  cases next with
  | none => exact .keeps reduces
  | some item => exact .stores _ _ reduces

theorem grows_addIp {now : Int} {verdict : BanItem → BanItem → Verdict} {pBan : BanItem}
    (h : Inv m) (sReason sBy : Option Text)
    (calm : ¬ m.ScanRemoves now pBan.ipHash (verdict pBan)) :
    m.Grows (m.addIp cfg now verdict pBan sReason sBy).1 := by
  have same := scanIp_calm h calm
  unfold addIp
  simp only
  split
  · rw [same]
    exact .keeps (.single (.discard _))
  · rw [same]
    exact .stores _ _ .refl

theorem unbanWith_calm (h : Inv m) {now : Int} {bits : BanItem → Bool} {sWhat : Text}
    (calm : ¬ m.UnbanRemoves cfg now bits sWhat) :
    (m.unbanWith cfg (fun m => m.findNickBanGeneric (hashNick sWhat) now sWhat bits)
      (fun m hash => m.findIpBanGeneric hash now bits) sWhat).1 = m := by
  rw [UnbanRemoves, not_or] at calm
  obtain ⟨calmNick, calmIp⟩ := calm
  have keeps : ∀ b ∈ m.nickBanTable (hashNick sWhat),
      nickLookup now sWhat bits (m.ban b) = .keep := by
    intro b hb
    obtain ⟨live, nick, -⟩ := (h.nickTable _ b).mp hb
    unfold nickLookup
    cases same : iequals (m.ban b).sNick sWhat with
    | false => rfl
    | true =>
      refine lookup_keep.mpr ⟨?_, ?_⟩ <;> rw [← Bool.not_eq_true]
      · exact fun expired => calmNick ⟨b, live, nick, same, .inl expired⟩
      · exact fun has => calmNick ⟨b, live, nick, same, .inr has⟩
  have nothing : m.findNickBanGeneric (hashNick sWhat) now sWhat bits = (m, none) := by
    have removed : ¬ m.NickSweeps now sWhat bits := by
      rw [NickSweeps, not_not, List.eq_nil_iff_forall_not_mem]
      intro b hb
      have verdict := plan_removed hb
      rw [keeps b (plan_removed_sublist.subset hb)] at verdict
      cases verdict
    have state := findNickBanGeneric_calm removed
    cases found : (m.findNickBanGeneric (hashNick sWhat) now sWhat bits).2 with
    | none => exact Prod.ext state found
    | some b =>
      rw [findNickBanGeneric, scanList_eq] at found
      obtain ⟨mem, stop⟩ := plan_stopped found
      rw [keeps b mem] at stop
      cases stop
  unfold unbanWith
  simp only [nothing]
  cases hash : cfg.hashIP sWhat with
  | none => rfl
  | some ip =>
    obtain ⟨c, hc⟩ := h.ipTable ip
    have noChain : c = [] := List.eq_nil_iff_forall_not_mem.mpr fun b hb =>
      calmIp ⟨ip, hash, b, (hc.mem b).mp hb⟩
    subst noChain
    simp only [findIpBanGeneric, hc.head, List.head?_nil, Option.map_none]

theorem removeIpWhere_calm (h : Inv m) {bits : BanItem → Bool} {ip : IpHash}
    (calm : ¬ ∃ b, m.Live b ∧ (m.ban b).ip = true ∧ (m.ban b).ipHash = ip ∧
      bits (m.ban b) = true) : m.removeIpWhere bits ip = m := by
  obtain ⟨c, hc⟩ := h.ipTable ip
  rw [removeIpWhere_eq h hc]
  refine removeAll_plan (not_not.mpr (List.eq_nil_iff_forall_not_mem.mpr fun b hb => ?_))
  obtain ⟨live, ipBit, key⟩ := (hc.mem b).mp (plan_removed_sublist.subset hb)
  have verdict := plan_removed hb
  split at verdict
  · rename_i has
    exact calm ⟨b, live, ipBit, key, has⟩
  · cases verdict

theorem guiScan_calm {now : Int} {target : BanId} (calm : ¬ m.GuiSweeps now target) :
    (scanList (guiScan now target) m.tempBanList m).state = m := by
  rw [scanList_eq]
  exact removeAll_plan calm

theorem removeGui_calm {now : Int} {target : BanId}
    (calm : ¬ (m.GuiSweeps now target ∨ m.Live target)) : m.removeGui target now = m := by
  rw [not_or] at calm
  have state := guiScan_calm calm.1
  have missed : (scanList (guiScan now target) m.tempBanList m).stopped = none := by
    cases found : (scanList (guiScan now target) m.tempBanList m).stopped with
    | none => rfl
    | some b =>
      rw [scanList_eq] at found
      obtain ⟨mem, stop⟩ := plan_stopped found
      unfold guiScan at stop
      split at stop
      · cases stop
      · split at stop
        · rename_i eq
          exact absurd (.inl (eq ▸ mem)) calm.2
        · cases stop
  have notPerm : target ∉ m.permBanList := fun hp => calm.2 (.inr hp)
  unfold removeGui
  simp only [missed, state, notPerm, ↓reduceIte]

/-- An operation that is to remove nothing removes nothing. -/
theorem grows_exec (h : Inv m) (now : Int) (op : Op) (calm : ¬ m.Removes cfg now op) :
    m.Grows (m.exec cfg now op).1 := by
  have still : ∀ {m'}, m' = m → m.Grows m' := fun eq => eq ▸ .keeps .refl
  cases op with
  | ban u r by_ full => exact grows_addUser cfg h now u (scanFits_ban full) r by_ calm
  | tempBan u r by_ mins till full =>
    exact grows_addUser cfg h now u (scanFits_tempBan full _) r by_ calm
  | banIp u s r by_ full =>
    simp only [exec, Prod.map_fst, id_eq, banIp]
    split
    · exact .keeps (.single (.discard _))
    · rename_i p eq
      exact grows_addIp cfg h r by_ fun removes => calm ⟨p, eq, removes⟩
  | tempBanIp u s r by_ mins till full =>
    simp only [exec, Prod.map_fst, id_eq, tempBanIp]
    split
    · exact .keeps (.single (.discard _))
    · rename_i p eq
      exact grows_addIp cfg h r by_ fun removes => calm ⟨p, eq, removes⟩
  | nickBan u s r by_ =>
    simp only [exec, Prod.map_fst, id_eq, nickBan]
    split
    · exact .keeps (.single (.discard _))
    · rename_i p eq
      exact grows_addNick cfg h p (targetNick_some eq).2.1 r by_ fun removes =>
        calm ⟨p, eq, removes⟩
  | nickTempBan u s r by_ mins till =>
    simp only [exec, Prod.map_fst, id_eq, nickTempBan]
    split
    · exact .keeps (.single (.discard _))
    · rename_i p eq
      exact grows_addNick cfg h
        { p with tempBanExpire := expireTime now mins till cfg.defaultTempBanTime }
        (targetNick_some eq).2.1 r by_ fun removes => calm ⟨p, eq, removes⟩
  | unban s => exact still (unbanWith_calm cfg h calm)
  | permUnban s => exact still (unbanWith_calm cfg h calm)
  | tempUnban s => exact still (unbanWith_calm cfg h calm)
  | removeAllIP ip =>
    refine still (removeIpWhere_calm h fun hit => calm ?_)
    obtain ⟨b, live, ipBit, key, -⟩ := hit
    exact ⟨b, live, ipBit, key⟩
  | removePermAllIP ip => exact still (removeIpWhere_calm h calm)
  | removeTempAllIP ip => exact still (removeIpWhere_calm h calm)
  | find b =>
    refine still ?_
    have state := guiScan_calm calm
    simp only [exec, Prod.map_fst, id_eq, find]
    split <;> exact state
  | remove b => exact still (removeGui_calm calm)
  | findNick s => exact still (findNickBanGeneric_calm calm)
  | findTempNick s => exact still (findNickBanGeneric_calm calm)
  | findPermNick s => exact still (findNickBanGeneric_calm calm)
  | findIP ip => exact still (findIpBanGeneric_calm h calm)
  | findFull ip => exact still (findIpBanGeneric_calm h calm)
  | findTempIP ip => exact still (findIpBanGeneric_calm h calm)
  | findPermIP ip => exact still (findIpBanGeneric_calm h calm)
  | clearTemp =>
    have none : m.tempBanList = [] := not_not.mp calm
    exact still (by simp [exec, clearTemp, none, clearFront])
  | clearPerm =>
    have none : m.permBanList = [] := not_not.mp calm
    exact still (by simp [exec, clearPerm, none, clearFront])
  | rangeBan =>
    simp only [exec, Prod.map_fst, id_eq, rangeBan, addRange]
    split <;> exact .ranges _
  | rangeTempBan =>
    simp only [exec, Prod.map_fst, id_eq, rangeTempBan, addRange]
    split <;> exact .ranges _
  | rangeUnban | rangeUnbanPerm | rangeUnbanTemp | findRange | findFullRange | findRangeExact
  | clearRange | clearTempRange | clearPermRange => exact .ranges _

/-- In a run none of whose operations is to remove a ban, every ban is deleted at
most once, and exactly if it is in neither list. -/
theorem ban_released_once {es : List Event}
    (calm : Allowed (step cfg) (fun m e => ¬ m.Removes cfg e.now e.op) empty es) :
    ∀ b < (reach cfg es).next, (reach cfg es).released b ≤ 1 ∧
      ((reach cfg es).released b = 1 ↔
        b ∉ (reach cfg es).tempBanList ∧ b ∉ (reach cfg es).permBanList) := by
  have kept : Inv (reach cfg es) ∧ (reach cfg es).Accounted := by
    refine allowed_invariant (fun m => Inv m ∧ m.Accounted)
      (fun m e h calm => ⟨inv_exec cfg h.1 e.now e.op, ?_⟩) ⟨inv_empty, accounted_empty⟩ calm
    exact (grows_exec cfg h.1 e.now e.op calm).accounted h.1 h.2
  intro b hb
  have live : (reach cfg es).Live b ↔
      b ∈ (reach cfg es).tempBanList ∨ b ∈ (reach cfg es).permBanList := Iff.rfl
  rw [← not_or, ← live, kept.2 b]
  by_cases hl : (reach cfg es).Live b <;> simp [hl, hb]

end

/-- Bob's nick is banned, and the second time the new ban is dropped. -/
def bannedTwice : List Event :=
  [⟨0, .nickBan none (some (ascii "bob")) none none⟩,
   ⟨5, .nickBan none (some (ascii "bob")) none none⟩]

theorem bannedTwice_released_once : (reach Config.plain bannedTwice).released 1 = 1 := by
  have calm : Allowed (step Config.plain)
      (fun m e => ¬ m.Removes Config.plain e.now e.op) empty bannedTwice := by
    refine ⟨?_, ?_, trivial⟩
    · rintro ⟨p, hp, old, first, -⟩
      obtain rfl : _ = p := Option.some.inj hp
      cases first
    · rintro ⟨p, hp, old, first, gone⟩
      obtain rfl : _ = p := Option.some.inj hp
      obtain rfl : 0 = old := Option.some.inj first
      revert gone
      decide
  exact (ban_released_once Config.plain calm 1 (by decide)).2.mpr (by decide)

/-- A ban that is removed again is deleted twice. -/
theorem unban_releases_twice :
    ¬ ∀ (cfg : Config) (es : List Event) (b : BanId),
      b < (reach cfg es).next → (reach cfg es).released b ≤ 1 := by
  intro all
  have once := all Config.plain [⟨0, .nickBan none (some (ascii "bob")) none none⟩,
    ⟨1, .unban (ascii "bob")⟩] 0 (by decide)
  revert once
  decide

end BanManager

end FlyHub.Ban
