import FlyHub.Ban.Representation
import FlyHub.Ban.Rules

/-!
# Adding a ban never weakens protection

What was banned before a ban is added is banned after it, and an adder refuses
only what is banned already.
-/

namespace FlyHub.Ban

open FlyHub.Lib Relation

namespace BanManager

/-- A ban of the target is in force at `t`. -/
def Banned (m : BanManager) (t : Int) (target : Target) : Prop :=
  (∃ b, m.Live b ∧ (m.ban b).Stops t target) ∨ ∃ r ∈ m.rangeBanList, r.Stops t target

section
variable {m m' : BanManager} {now t : Int} {target : Target}

/-- The changes of a store keep a target banned, unless they removed a ban of it
for one of their reasons or took its nick. -/
theorem reduces_banned {P Q : BanItem → Prop} (h : Inv m) (r : Reduces P Q m m') {Z : Prop}
    (removed : ∀ x : BanItem, (x.temp = !x.perm) → P x → x.Stops t target → Z)
    (stripped : ∀ (x : BanItem) s, (x.temp = !x.perm) → Q x → target = .nick s →
      x.Stops t target → Z)
    (banned : m.Banned t target) : m'.Banned t target ∨ Z := by
  rcases banned with ⟨b, live, stops⟩ | ⟨range, mem, stops⟩
  · have bits := h.bits live
    -- without its nick the record still stops what it does by its IP
    have unnamed : (∃ s, target = .nick s) ∨
        ({ m.ban b with nick := false } : BanItem).Stops t target := by
      cases target with
      | nick s => exact .inl ⟨s, rfl⟩
      | ip | range => exact .inr stops
    rcases reduces_fate h r live with ⟨live', eq | ⟨eq, strip⟩⟩ | gone | ⟨strip, gone⟩
    · exact .inl (.inl ⟨b, live', by rw [eq]; exact stops⟩)
    · rcases unnamed with ⟨s, nick⟩ | rest
      · exact .inr (stripped _ s bits strip nick stops)
      · exact .inl (.inl ⟨b, live', by rw [eq]; exact rest⟩)
    · exact .inr (removed _ bits gone stops)
    · rcases unnamed with ⟨s, nick⟩ | rest
      · exact .inr (stripped _ s bits strip nick stops)
      · exact .inr (removed { m.ban b with nick := false } bits gone rest)
  · exact .inl (.inr ⟨range, by rw [(reduces_shrinks h r).ranges]; exact mem, stops⟩)

theorem not_expired_now {r : BanItem} (le : now ≤ t) (stops : r.Stops t target) :
    ¬ r.expired now = true := fun expired => by
  have unexpired := stops.unexpired
  rw [r.expired_mono le expired] at unexpired
  cases unexpired

theorem sweeps_banned (h : Inv m) (le : now ≤ t) (r : Sweeps now m m')
    (banned : m.Banned t target) : m'.Banned t target := by
  refine (reduces_banned (Z := False) h r ?_ ?_ banned).resolve_right id
  · exact fun x _ expired stops => not_expired_now le stops expired
  · exact fun x s _ no => no.elim

/-- After the clash of nicks a target is still banned, or the new ban is one of
it. -/
theorem nickOutcome_banned {clash : BanItem → BanItem → Clash} {pBan : BanItem} (h : Inv m)
    (le : now ≤ t) (sound : ClashSound clash pBan) (nick : pBan.nick = true)
    (r : Reduces (NickRemoval clash now pBan) (NickStrip clash pBan) m m')
    {next : Option BanItem} (o : NickOutcome clash now pBan m m' next)
    (banned : m.Banned t target) :
    m'.Banned t target ∨ ∃ item, next = some item ∧ item.Stops t target := by
  cases o with
  | dropped _ sweeps | stripped _ sweeps | both _ sweeps =>
    exact .inl (sweeps_banned h le sweeps banned)
  | alone =>
    refine (reduces_banned h r ?_ ?_ banned).imp_right fun stops => ⟨pBan, rfl, stops⟩
    · rintro x bits (expired | ⟨-, same, way⟩) stops
      · exact (not_expired_now le stops expired).elim
      · obtain ⟨outlasts, onIp⟩ := sound.removes x bits way
        cases target with
        | nick s =>
          rw [iequals_comm] at same
          exact ⟨nick, iequals_trans same stops.2.1, outlasts t stops.2.2⟩
        | ip hash full =>
          obtain ⟨ip, key, level, unexpired⟩ := stops
          obtain ⟨newIp, newKey, newLevel⟩ := onIp ip
          exact ⟨newIp, newKey.trans key, fun hf => newLevel (level hf), outlasts t unexpired⟩
        | range => exact stops
    · rintro x s bits ⟨same, way⟩ rfl stops
      rw [iequals_comm] at same
      exact ⟨nick, iequals_trans same stops.2.1, sound.strips x bits way t stops.2.2⟩

/-- After the scan of an IP a target is still banned, or the new ban is one of it. -/
theorem scan_banned {verdict : BanItem → BanItem → Verdict} {item : BanItem} (h : Inv m)
    (le : now ≤ t) (sound : ScanSound verdict item) (ip : item.ip = true)
    (r : Reduces (IpRemoval (verdict item) now item.ipHash) Never m m')
    (banned : m.Banned t target) : m'.Banned t target ∨ item.Stops t target := by
  refine reduces_banned h r ?_ (fun x s _ no => no.elim) banned
  rintro x bits (expired | ⟨-, key, way⟩) stops
  · exact (not_expired_now le stops expired).elim
  · obtain ⟨noNick, outlasts, level⟩ := sound.removes x bits way
    cases target with
    | nick s => cases noNick.symm.trans stops.1
    | ip hash full =>
      exact ⟨ip, key.symm.trans stops.2.1, fun hf => level (stops.2.2.1 hf),
        outlasts t stops.2.2.2⟩
    | range => exact stops

theorem banned_store (h : Inv m) (place : Placement) {item : BanItem} (sReason sBy : Option Text)
    (banned : m.Banned t target ∨ item.Stops t target) :
    (m.store place (describe item sReason sBy)).Banned t target := by
  rcases banned with (⟨b, live, stops⟩ | ⟨r, mem, stops⟩) | stops
  · have old : b ≠ m.next := fun e => Nat.lt_irrefl _ (e ▸ h.bounded b live)
    refine .inl ⟨b, (store_live place).mpr (.inl live), ?_⟩
    rw [store_ban, Function.update_of_ne old]
    exact stops
  · refine .inr ⟨r, ?_, stops⟩
    simpa [store, add_eq, alloc] using mem
  · refine .inl ⟨m.next, (store_live place).mpr (.inr rfl), ?_⟩
    rw [store_ban, Function.update_self]
    exact stops

theorem banned_discard (h : Inv m) (item : BanItem) (banned : m.Banned t target) :
    (m.discard item).Banned t target :=
  sweeps_banned h (Int.le_refl t) (.single (.discard item)) banned

variable (cfg : Config)

theorem banned_addUser (h : Inv m) (le : now ≤ t) {clash : BanItem → BanItem → Clash}
    {verdict : BanItem → BanItem → Verdict} {u : BanUser} {pBan : BanItem}
    (clashSound : ClashSound clash (withNick pBan u)) (ip : pBan.ip = true)
    (scanSound : ∀ item : BanItem, item.temp = pBan.temp → ScanSound verdict item)
    (sReason sBy : Option Text) (banned : m.Banned t target) :
    (m.addUser cfg now clash verdict u pBan sReason sBy).Banned t target := by
  obtain ⟨m₁, r₁, ⟨outcome, eq⟩ | ⟨item, m₂, next, r₂, eq⟩⟩ :=
    addUser_cases cfg h now clash verdict u pBan sReason sBy <;> rw [eq]
  · have kept := nickOutcome_banned h le clashSound rfl r₁ outcome banned
    simpa using kept
  · have inv₁ := inv_reduces h r₁
    have settled : (item.ip = true ∧ item.temp = pBan.temp) ∧
        (m₁.Banned t target ∨ item.Stops t target) := by
      rcases next with ⟨-, outcome⟩ | ⟨-, rfl, rfl⟩
      · have kept := nickOutcome_banned h le clashSound rfl r₁ outcome banned
        simp only [Option.some.injEq, exists_eq_left'] at kept
        refine ⟨?_, kept⟩
        cases outcome <;> exact ⟨ip, rfl⟩
      · exact ⟨⟨ip, rfl⟩, .inl banned⟩
    obtain ⟨⟨itemIp, temp⟩, kept⟩ := settled
    refine banned_store (inv_reduces inv₁ r₂) cfg.place sReason sBy ?_
    rcases kept with banned | stops
    · exact scan_banned inv₁ le (scanSound item temp) itemIp r₂ banned
    · exact .inr stops

theorem banned_addNick (h : Inv m) (le : now ≤ t) {clash : BanItem → BanItem → Clash}
    (pBan : BanItem) (sound : ClashSound clash pBan) (nick : pBan.nick = true)
    (hash : pBan.nickHash = hashNick pBan.sNick) (sReason sBy : Option Text)
    (banned : m.Banned t target) :
    (m.addNick cfg now clash pBan sReason sBy).1.Banned t target := by
  obtain ⟨m₁, r, ⟨outcome, eq⟩ | ⟨item, outcome, eq⟩⟩ :=
    addNick_cases cfg h now clash hash sReason sBy <;> rw [eq]
  · have kept := nickOutcome_banned h le sound nick r outcome banned
    simpa using kept
  · have kept := nickOutcome_banned h le sound nick r outcome banned
    simp only [Option.some.injEq, exists_eq_left'] at kept
    exact banned_store (inv_reduces h r) cfg.place sReason sBy kept

/-- A nick that is refused is banned for as long as the new ban would last. -/
theorem addNick_refused (h : Inv m) {clash : BanItem → BanItem → Clash} (pBan : BanItem)
    (hash : pBan.nickHash = hashNick pBan.sNick)
    (drops : ∀ old : BanItem, (old.temp = !old.perm) → clash pBan old = .dropNew →
      old.Outlasts pBan) (sReason sBy : Option Text)
    (refused : (m.addNick cfg now clash pBan sReason sBy).2 = false)
    (asked : pBan.expired t = false) : m.Banned t (.nick pBan.sNick) := by
  obtain ⟨m₁, r, ⟨outcome, -⟩ | ⟨item, -, eq⟩⟩ := addNick_cases cfg h now clash hash sReason sBy
  · cases outcome with
    | dropped old _ active way =>
      have s := reduces_shrinks h r
      rw [s.ban_of_nick active.1 active.2.1] at way
      obtain ⟨live, nick, same, -⟩ := s.nickActive active
      exact .inl ⟨old, live, nick, same, drops _ (h.bits live) way t asked⟩
  · rw [eq] at refused
    cases refused

theorem banned_addIp (h : Inv m) (le : now ≤ t) {verdict : BanItem → BanItem → Verdict}
    {pBan : BanItem} (sound : ScanSound verdict pBan) (ip : pBan.ip = true)
    (noNick : pBan.nick = false) (sReason sBy : Option Text) (banned : m.Banned t target) :
    (m.addIp cfg now verdict pBan sReason sBy).1.Banned t target := by
  obtain ⟨m₁, r, ⟨⟨b, live, onIp, key, way⟩, eq⟩ | eq⟩ :=
    addIp_cases cfg h now verdict pBan sReason sBy <;> rw [eq]
  · -- what the scan removed on its way is covered by the ban it stopped at
    have inv := inv_reduces h r
    obtain ⟨outlasts, level⟩ := sound.stops _ (inv.bits live) way
    rcases scan_banned h le sound ip r banned with kept | stops
    · exact kept
    · refine .inl ⟨b, live, ?_⟩
      cases target with
      | nick s => cases noNick.symm.trans stops.1
      | ip hash full =>
        exact ⟨onIp, key.trans stops.2.1, fun hf => level (stops.2.2.1 hf),
          outlasts t stops.2.2.2⟩
      | range => exact stops
  · exact banned_store (inv_reduces h r) cfg.place sReason sBy (scan_banned h le sound ip r banned)

/-- An IP that is refused is banned for as long as the new ban would last and as
fully. -/
theorem addIp_refused (h : Inv m) {verdict : BanItem → BanItem → Verdict} {pBan : BanItem}
    (sound : ScanSound verdict pBan) (sReason sBy : Option Text)
    (refused : (m.addIp cfg now verdict pBan sReason sBy).2 = 2)
    (asked : pBan.expired t = false) : m.Banned t (.ip pBan.ipHash pBan.full) := by
  obtain ⟨m₁, r, ⟨⟨b, live, onIp, key, way⟩, -⟩ | eq⟩ :=
    addIp_cases cfg h now verdict pBan sReason sBy
  · have s := reduces_shrinks h r
    obtain ⟨outlasts, level⟩ := sound.stops _ ((inv_reduces h r).bits live) way
    obtain ⟨keep, same⟩ := s.ban b live
    have asked := outlasts t asked
    rw [same] at onIp key level asked
    exact .inl ⟨b, s.live b live, onIp, key, level, asked⟩
  · rw [eq] at refused
    cases refused

end

/-! ### Ranges -/

section
variable {verdict : RangeBanItem → Verdict} {l : List RangeBanItem}

/-- A scan of the ranges loses only what it removes. -/
theorem scanRanges_keeps {r : RangeBanItem} (mem : r ∈ l) :
    r ∈ (scanRanges verdict l).list ∨ verdict r = .remove := by
  induction l with
  | nil => cases mem
  | cons a l ih =>
    unfold scanRanges
    rcases List.mem_cons.mp mem with rfl | mem
    · cases way : verdict r <;> simp
    · cases verdict a with
      | remove => exact ih mem
      | stop => exact .inl (List.mem_cons_of_mem _ mem)
      | keep => exact (ih mem).imp_left (List.mem_cons_of_mem _)

theorem scanRanges_stopped {r : RangeBanItem} (stop : (scanRanges verdict l).stopped = some r) :
    r ∈ l ∧ r ∈ (scanRanges verdict l).list ∧ verdict r = .stop := by
  induction l with
  | nil => cases stop
  | cons a l ih =>
    unfold scanRanges at stop ⊢
    cases way : verdict a with
    | remove =>
      simp only [way] at stop ⊢
      obtain ⟨mem, kept, hr⟩ := ih stop
      exact ⟨List.mem_cons_of_mem _ mem, kept, hr⟩
    | stop =>
      simp only [way, Option.some.injEq] at stop ⊢
      subst stop
      exact ⟨List.mem_cons_self, List.mem_cons_self, way⟩
    | keep =>
      simp only [way] at stop ⊢
      obtain ⟨mem, kept, hr⟩ := ih stop
      exact ⟨List.mem_cons_of_mem _ mem, List.mem_cons_of_mem _ kept, hr⟩

end

section
variable {m : BanManager} {t : Int} {target : Target}
  {verdict : RangeBanItem → RangeBanItem → Verdict} {new : RangeBanItem}

theorem banned_addRange (sound : RangeSound verdict new) (sReason sBy : Option Text)
    (banned : m.Banned t target) : (m.addRange verdict new sReason sBy).1.Banned t target := by
  rcases banned with ⟨b, live, stops⟩ | ⟨r, mem, stops⟩
  · unfold addRange
    simp only
    split <;> exact .inl ⟨b, live, stops⟩
  · -- a ban the scan removed is covered by the new one
    have kept : r ∈ (scanRanges (verdict new) m.rangeBanList).list ∨ new.Stops t target := by
      refine (scanRanges_keeps mem).imp_right fun way => ?_
      obtain ⟨⟨f, h⟩, outlasts, level⟩ := sound.removes r way
      cases target with
      | nick | ip => exact stops
      | range =>
        obtain ⟨⟨rf, rh⟩, hl, unexpired⟩ := stops
        exact ⟨⟨f.symm.trans rf, h.symm.trans rh⟩, fun hf => level (hl hf), outlasts t unexpired⟩
    unfold addRange
    simp only
    split
    · rename_i old stop
      obtain ⟨-, inList, way⟩ := scanRanges_stopped stop
      obtain ⟨⟨f, h⟩, outlasts, level⟩ := sound.stops old way
      rcases kept with mem | new
      · exact .inr ⟨r, mem, stops⟩
      · refine .inr ⟨old, inList, ?_⟩
        cases target with
        | nick | ip => exact new
        | range =>
          obtain ⟨⟨rf, rh⟩, hl, unexpired⟩ := new
          exact ⟨⟨f.trans rf, h.trans rh⟩, fun hf => level (hl hf), outlasts t unexpired⟩
    · rcases kept with mem | new
      · exact .inr ⟨r, List.mem_append_left _ mem, stops⟩
      · exact .inr ⟨_, List.mem_append_right _ (List.mem_singleton.mpr rfl), by
          cases target <;> exact new⟩

theorem addRange_refused (sound : RangeSound verdict new) (sReason sBy : Option Text)
    (refused : (m.addRange verdict new sReason sBy).2 = false) (asked : new.expired t = false) :
    m.Banned t (.range new.fromIpHash new.toIpHash new.full) := by
  unfold addRange at refused
  simp only at refused
  split at refused
  · rename_i old stop
    obtain ⟨mem, -, way⟩ := scanRanges_stopped stop
    obtain ⟨same, outlasts, level⟩ := sound.stops old way
    exact .inr ⟨old, mem, same, level, outlasts t asked⟩
  · cases refused

end

end BanManager

/-! ### Every adder -/

/-- The operations that add a ban. -/
def Op.isAdder : Op → Bool
  | .rangeBan .. | .rangeTempBan .. => true
  | op => op.adds

/-- What an adder is asked to ban, and until when. -/
structure Request where
  target : Target
  expiry : Option Int

/-- The end that a temporary ban of `minutes` is asked to have. -/
def requestedExpire (now : Int) (minutes : UInt32) (expiretime defaultTempBanTime : Int) : Int :=
  if 0 < expiretime then expiretime
  else if 0 < minutes then now + 60 * minutes.toNat
  else now + defaultTempBanTime * 60

/-- The nick to ban. One that starts with `<` is not taken. -/
def askedNick (pUser : Option BanUser) (sNick : Option Text) : Option Text :=
  ((pUser.map BanUser.sNick).or sNick).filter fun s => !startsWith s 60

/-- The IP to ban. -/
def askedIp (cfg : Config) (pUser : Option BanUser) (sIp : Option Text) : Option IpHash :=
  (pUser.map BanUser.ipHash).or (sIp.bind cfg.hashIP)

/-- The request that an adder takes. `Ban` and `TempBan` do not say whether they
refused theirs. -/
def Op.request (cfg : Config) (now : Int) : Op → Option Request
  | .nickBan u s _ _ => (askedNick u s).map fun s => ⟨.nick s, none⟩
  | .nickTempBan u s _ _ mins till => (askedNick u s).map fun s =>
      ⟨.nick s, some (requestedExpire now mins till cfg.defaultTempBanTime)⟩
  | .banIp u s _ _ full => (askedIp cfg u s).map fun ip => ⟨.ip ip full, none⟩
  | .tempBanIp u s _ _ mins till full => (askedIp cfg u s).map fun ip =>
      ⟨.ip ip full, some (requestedExpire now mins till cfg.defaultTempBanTime)⟩
  | .rangeBan _ f _ h _ _ full => some ⟨.range f h full, none⟩
  | .rangeTempBan _ f _ h _ _ mins till full =>
      some ⟨.range f h full, some (requestedExpire now mins till cfg.defaultTempBanTime)⟩
  | _ => none

/-- The minutes, if they count, make a number of seconds of 32 bits. -/
def Op.MinutesFit : Op → Prop
  | .nickTempBan _ _ _ _ mins till | .tempBanIp _ _ _ _ mins till _
  | .rangeTempBan _ _ _ _ _ _ mins till _ => 0 < till ∨ 60 * mins.toNat < UInt32.size
  | _ => True

/-- The answers by which an adder refuses. -/
def Reply.refused : Reply → Bool
  | .ok added => !added
  | .code c => c == 2
  | _ => false

theorem expireTime_eq {now till default : Int} {mins : UInt32}
    (fit : 0 < till ∨ 60 * mins.toNat < UInt32.size) :
    expireTime now mins till default = requestedExpire now mins till default := by
  unfold expireTime requestedExpire
  split
  · rfl
  · rename_i noTime
    have small : 60 * mins.toNat < UInt32.size := fit.resolve_left noTime
    have product : (mins * 60).toNat = 60 * mins.toNat := by
      rw [UInt32.toNat_mul, Nat.mod_eq_of_lt (by simpa [Nat.mul_comm] using small)]
      simp [Nat.mul_comm]
    rw [product]
    rfl

namespace BanManager

theorem targetNick_sNick (pBan : BanItem) (pUser : Option BanUser) (sNick : Option Text) :
    (targetNick pBan pUser sNick).map BanItem.sNick = askedNick pUser sNick := by
  unfold targetNick askedNick
  cases pUser with
  | none =>
    cases sNick with
    | none => rfl
    | some s => cases plain : startsWith s 60 <;> simp [plain, Option.filter_some]
  | some u => cases plain : startsWith u.sNick 60 <;> simp [plain, Option.filter_some]

theorem targetIp_ipHash (cfg : Config) (pBan : BanItem) (pUser : Option BanUser)
    (sIp : Option Text) :
    (targetIp cfg pBan pUser sIp).map BanItem.ipHash = askedIp cfg pUser sIp := by
  unfold targetIp askedIp
  cases pUser with
  | some u => rfl
  | none =>
    cases sIp with
    | none => rfl
    | some s => cases hash : cfg.hashIP s <;> simp [hash]

section
variable {m : BanManager} {now t : Int} {target : Target} (cfg : Config)

/-- What an adder finds banned it leaves banned, from now on. -/
theorem banned_exec (h : Inv m) (le : now ≤ t) {op : Op} (adder : op.isAdder = true)
    (banned : m.Banned t target) : (m.exec cfg now op).1.Banned t target := by
  cases op with
  | ban u r by_ full =>
    exact banned_addUser cfg h le (clashSound_ban rfl rfl) rfl (fun _ temp => scanSound_ban temp)
      r by_ banned
  | tempBan u r by_ mins till full =>
    exact banned_addUser cfg h le (clashSound_tempBan rfl) rfl (fun _ _ => scanSound_tempBan)
      r by_ banned
  | banIp u s r by_ full =>
    simp only [exec, Prod.map_fst, id_eq, banIp]
    split
    · exact banned_discard h _ banned
    · rename_i p eq
      obtain ⟨hash, text, rfl⟩ := targetIp_some cfg eq
      exact banned_addIp cfg h le (scanSound_banIp rfl) rfl rfl r by_ banned
  | tempBanIp u s r by_ mins till full =>
    simp only [exec, Prod.map_fst, id_eq, tempBanIp]
    split
    · exact banned_discard h _ banned
    · rename_i p eq
      obtain ⟨hash, text, rfl⟩ := targetIp_some cfg eq
      exact banned_addIp cfg h le (scanSound_tempBanIp rfl) rfl rfl r by_ banned
  | nickBan u s r by_ =>
    simp only [exec, Prod.map_fst, id_eq, nickBan]
    split
    · exact banned_discard h _ banned
    · rename_i p eq
      obtain ⟨nick, hash, temp, -⟩ := targetNick_some eq
      exact banned_addNick cfg h le p (clashSound_nickBan temp) nick hash r by_ banned
  | nickTempBan u s r by_ mins till =>
    simp only [exec, Prod.map_fst, id_eq, nickTempBan]
    split
    · exact banned_discard h _ banned
    · rename_i p eq
      obtain ⟨nick, hash, -, -⟩ := targetNick_some eq
      exact banned_addNick cfg h le
        { p with tempBanExpire := expireTime now mins till cfg.defaultTempBanTime } clashSound_nickTempBan
        nick hash r by_ banned
  | rangeBan _ _ _ _ r by_ _ => exact banned_addRange (rangeSound_rangeBan rfl) r by_ banned
  | rangeTempBan _ _ _ _ r by_ _ _ _ =>
    exact banned_addRange (rangeSound_rangeTempBan rfl) r by_ banned
  | _ => cases adder

/-- A request that is refused is for a target that is banned until the requested
end, at the requested level. -/
theorem refused_exec (h : Inv m) {op : Op} (fit : op.MinutesFit)
    (refused : (m.exec cfg now op).2.refused = true) {request : Request}
    (asked : op.request cfg now = some request) (until_ : ∀ e ∈ request.expiry, t < e) :
    m.Banned t request.target := by
  -- the end the code computes is the requested one
  have ends : ∀ {till mins}, (0 < till ∨ 60 * mins.toNat < UInt32.size) →
      t < requestedExpire now mins till cfg.defaultTempBanTime →
      t < expireTime now mins till cfg.defaultTempBanTime := fun fit before => by
    rwa [expireTime_eq fit]
  cases op with
  | nickBan u s r by_ =>
    simp only [Op.request, ← targetNick_sNick { perm := true }, Option.map_map,
      Option.map_eq_some_iff, Function.comp] at asked
    obtain ⟨p, eq, rfl⟩ := asked
    obtain ⟨-, hash, temp, -⟩ := targetNick_some eq
    simp only [exec, nickBan, eq, Prod.map_snd, Reply.refused, Bool.not_eq_true'] at refused
    refine addNick_refused cfg h p hash (fun old bits => nickBanClash_drop bits) r by_ refused ?_
    simp [BanItem.expired, temp]
  | nickTempBan u s r by_ mins till =>
    simp only [Op.request, ← targetNick_sNick { temp := true }, Option.map_map,
      Option.map_eq_some_iff, Function.comp] at asked
    obtain ⟨p, eq, rfl⟩ := asked
    obtain ⟨-, hash, temp, -⟩ := targetNick_some eq
    simp only [exec, nickTempBan, eq, Prod.map_snd, Reply.refused, Bool.not_eq_true'] at refused
    refine addNick_refused cfg h
      { p with tempBanExpire := expireTime now mins till cfg.defaultTempBanTime }
      hash (fun old bits => nickTempBanClash_drop bits temp) r by_ refused ?_
    have before := ends fit (until_ _ rfl)
    simpa [BanItem.expired, temp] using before
  | banIp u s r by_ full =>
    simp only [Op.request, ← targetIp_ipHash cfg { perm := true }, Option.map_map,
      Option.map_eq_some_iff, Function.comp] at asked
    obtain ⟨p, eq, rfl⟩ := asked
    obtain ⟨hash, text, rfl⟩ := targetIp_some cfg eq
    simp only [exec, banIp, eq, Prod.map_snd, Reply.refused, beq_iff_eq] at refused
    exact addIp_refused cfg h (scanSound_banIp rfl) r by_ refused rfl
  | tempBanIp u s r by_ mins till full =>
    simp only [Op.request, ← targetIp_ipHash cfg { temp := true }, Option.map_map,
      Option.map_eq_some_iff, Function.comp] at asked
    obtain ⟨p, eq, rfl⟩ := asked
    obtain ⟨hash, text, rfl⟩ := targetIp_some cfg eq
    simp only [exec, tempBanIp, eq, Prod.map_snd, Reply.refused, beq_iff_eq] at refused
    exact addIp_refused cfg h (scanSound_tempBanIp rfl) r by_ refused
      ((BanItem.expired_temp rfl).mpr (ends fit (until_ _ rfl)))
  | rangeBan _ f _ h' r by_ full =>
    obtain rfl := Option.some.inj asked
    simp only [exec, rangeBan, Prod.map_snd, Reply.refused, Bool.not_eq_true'] at refused
    exact addRange_refused (rangeSound_rangeBan rfl) r by_ refused rfl
  | rangeTempBan _ f _ h' r by_ mins till full =>
    obtain rfl := Option.some.inj asked
    simp only [exec, rangeTempBan, Prod.map_snd, Reply.refused, Bool.not_eq_true'] at refused
    exact addRange_refused (rangeSound_rangeTempBan rfl) r by_ refused
      (by simpa [RangeBanItem.expired] using ends fit (until_ _ rfl))
  | _ => cases asked

/-- From a reachable store, an adder leaves banned whatever was banned, and
refuses a request only if it was met already. -/
theorem adders_protect (es : List Event) (now : Int) {op : Op} (adder : op.isAdder = true) :
    (∀ t target, now ≤ t → (reach cfg es).Banned t target →
      ((reach cfg es).exec cfg now op).1.Banned t target) ∧
    (op.MinutesFit → ((reach cfg es).exec cfg now op).2.refused = true →
      ∀ request ∈ op.request cfg now, ∀ t, (∀ e ∈ request.expiry, t < e) →
        (reach cfg es).Banned t request.target) :=
  ⟨fun _ _ le banned => banned_exec cfg (inv_reach cfg es) le adder banned,
    fun fit refused _ asked _ before => refused_exec cfg (inv_reach cfg es) fit refused asked before⟩

end

def bobBanned : List Event := [⟨0, .nickBan none (some (ascii "bob")) none none⟩]

/-- Bob is banned for good when he is to be banned for ten minutes. -/
theorem bobBanned_protected :
    ((reach Config.plain bobBanned).exec Config.plain 5
      (.nickTempBan none (some (ascii "BOB")) none none 10 0)).1.Banned 600
        (.nick (ascii "BOB")) := by
  have adder : (Op.nickTempBan none (some (ascii "BOB")) none none 10 0).isAdder = true := rfl
  obtain ⟨keeps, refuses⟩ := adders_protect Config.plain bobBanned 5 adder
  refine keeps 600 _ (by decide) ?_
  refine refuses (.inr (by decide)) (by decide) ⟨.nick (ascii "BOB"), some 605⟩ rfl 600 ?_
  rintro e ⟨⟩
  decide

/-- A nick that starts with `<` is refused although it is not banned. -/
theorem unknown_nick_refused :
    ((reach Config.plain []).exec Config.plain 0
        (.nickBan none (some (ascii "<bob")) none none)).2.refused = true ∧
      ¬ (reach Config.plain []).Banned 0 (.nick (ascii "<bob")) := by
  refine ⟨by decide, ?_⟩
  rintro (⟨b, live, -⟩ | ⟨r, mem, -⟩)
  · simp [reach, Live, empty] at live
  · simp [reach, empty] at mem

end BanManager

end FlyHub.Ban
