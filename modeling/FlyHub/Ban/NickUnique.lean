import FlyHub.Ban.Representation
import FlyHub.Ban.Rules

/-!
# One nick ban for a nick

Every adder settles the clash of a new nick ban with an old one, and all but one
case of `TempBan` leave at most one of the two with its nick.
-/

namespace FlyHub.Ban

open FlyHub.Lib Relation

/-- The store at a time. -/
structure Clock where
  now : Int
  store : BanManager

namespace BanManager

/-- No two unexpired bans name nicks that are equal up to case. -/
def NickUnique (m : BanManager) (now : Int) : Prop :=
  ∀ b b', m.Live b → m.Live b' → (m.ban b).nick = true → (m.ban b').nick = true →
    (m.ban b).expired now = false → (m.ban b').expired now = false →
    iequals (m.ban b).sNick (m.ban b').sNick = true → b = b'

section
variable {m m' : BanManager} {now : Int}

theorem nickUnique_iff : m.NickUnique now ↔
    ∀ sNick b b', m.NickActive now sNick b → m.NickActive now sNick b' → b = b' := by
  constructor
  · rintro u sNick b b' ⟨live, nick, same, unexpired⟩ ⟨live', nick', same', unexpired'⟩
    rw [iequals_comm] at same'
    exact u b b' live live' nick nick' unexpired unexpired' (iequals_trans same same')
  · intro u b b' live live' nick nick' unexpired unexpired' same
    exact u _ b b' ⟨live, nick, same, unexpired⟩ ⟨live', nick', iequals_refl _, unexpired'⟩

theorem NickUnique.shrinks (u : m.NickUnique now) (s : Shrinks m m') : m'.NickUnique now := by
  rw [nickUnique_iff] at u ⊢
  exact fun sNick b b' hb hb' => u sNick b b' (s.nickActive hb) (s.nickActive hb')

/-- Bans that are in force later are in force now. -/
theorem NickUnique.later (u : m.NickUnique now) {t : Int} (le : now ≤ t) : m.NickUnique t := by
  have earlier : ∀ r : BanItem, r.expired t = false → r.expired now = false := by
    intro r unexpired
    rw [← Bool.not_eq_true] at unexpired ⊢
    exact fun expired => unexpired (r.expired_mono le expired)
  intro b b' live live' nick nick' unexpired unexpired'
  exact u b b' live live' nick nick' (earlier _ unexpired) (earlier _ unexpired')

theorem NickUnique.congr (u : m.NickUnique now) {l : List RangeBanItem} :
    ({ m with rangeBanList := l } : BanManager).NickUnique now := u

theorem store_nickActive (h : Inv m) (place : Placement) (item : BanItem) (sNick : Text)
    (b : BanId) : (m.store place item).NickActive now sNick b ↔
      m.NickActive now sNick b ∨
        (b = m.next ∧ item.nick = true ∧ iequals item.sNick sNick = true ∧
          item.expired now = false) := by
  have old : ∀ x, m.Live x → x ≠ m.next := fun x hx e => Nat.lt_irrefl _ (e ▸ h.bounded x hx)
  unfold NickActive
  rw [store_live, store_ban]
  by_cases new : b = m.next
  · subst new
    have notLive : ¬ m.Live m.next := fun hl => old _ hl rfl
    simp [notLive]
  · simp [new]

/-- A new ban is no rival unless an old ban of its nick is in force. -/
theorem nickUnique_store (h : Inv m) (place : Placement) (item : BanItem) :
    (m.store place item).NickUnique now ↔ m.NickUnique now ∧
      ¬ (item.nick = true ∧ item.expired now = false ∧ ∃ b, m.NickActive now item.sNick b) := by
  simp only [nickUnique_iff, store_nickActive h]
  have old : ∀ sNick b, m.NickActive now sNick b → b ≠ m.next := fun _ b hb e =>
    Nat.lt_irrefl _ (e ▸ h.bounded b hb.1)
  constructor
  · intro u
    refine ⟨fun sNick b b' hb hb' => u sNick b b' (.inl hb) (.inl hb'), ?_⟩
    rintro ⟨nick, unexpired, b, hb⟩
    exact old _ b hb (u _ _ _ (.inl hb) (.inr ⟨rfl, nick, iequals_refl _, unexpired⟩))
  · rintro ⟨u, alone⟩ sNick b b' hb hb'
    have rival : ∀ x, m.NickActive now sNick x → item.nick = true →
        iequals item.sNick sNick = true → item.expired now = false → False := by
      rintro x ⟨live, nick, same, unexpired⟩ hn hs he
      rw [iequals_comm] at hs
      exact alone ⟨hn, he, x, live, nick, iequals_trans same hs, unexpired⟩
    rcases hb with hb | ⟨rfl, hn, hs, he⟩ <;> rcases hb' with hb' | ⟨rfl, hn', hs', he'⟩
    · exact u sNick b b' hb hb'
    · exact (rival b hb hn' hs' he').elim
    · exact (rival b' hb' hn hs he).elim
    · rfl

/-- The new ban and an old one of its nick would both keep their nick. -/
def Clashing (m : BanManager) (now : Int) (clash : BanItem → BanItem → Clash) (pBan : BanItem) :
    Prop :=
  pBan.expired now = false ∧
    ∃ old, m.NickActive now pBan.sNick old ∧ clash pBan (m.ban old) = .keepBoth

/-- A ban in force that is to stay beside the new one is still there after the
clash of nicks. -/
theorem nickActive_reduces {clash : BanItem → BanItem → Clash} {pBan : BanItem} (h : Inv m)
    (r : Reduces (NickRemoval clash now pBan) (NickStrip clash pBan) m m') {old : BanId}
    (active : m.NickActive now pBan.sNick old) (keep : clash pBan (m.ban old) = .keepBoth) :
    m'.NickActive now pBan.sNick old := by
  obtain ⟨live, nick, same, unexpired⟩ := active
  have unexpired' : ({ m.ban old with nick := false } : BanItem).expired now = false := unexpired
  rcases reduces_fate h r live with ⟨live', eq | ⟨-, -, strip⟩⟩ | gone | ⟨-, gone⟩
  · exact ⟨live', by rw [eq]; exact ⟨nick, same, unexpired⟩⟩
  · rw [strip] at keep
    cases keep
  · rcases gone with expired | ⟨-, -, remove⟩
    · rw [expired] at unexpired
      cases unexpired
    · rw [remove] at keep
      cases keep
  · rcases gone with expired | ⟨nick', -, -⟩
    · rw [expired] at unexpired'
      cases unexpired'
    · cases nick'

/-- Only a clash that keeps both leaves a rival of the new ban. -/
theorem NickOutcome.rival_iff {clash : BanItem → BanItem → Clash} {pBan : BanItem} (h : Inv m)
    (u : m.NickUnique now) (nick : pBan.nick = true)
    (r : Reduces (NickRemoval clash now pBan) (NickStrip clash pBan) m m')
    {next : Option BanItem} (o : NickOutcome clash now pBan m m' next) :
    (∃ item, next = some item ∧ item.nick = true ∧ item.expired now = false ∧
      ∃ b, m'.NickActive now item.sNick b) ↔ m.Clashing now clash pBan := by
  rw [nickUnique_iff] at u
  have s := reduces_shrinks h r
  -- the ban the clash was settled with is the only one of the nick
  have only : ∀ {old}, m'.NickActive now pBan.sNick old → clash pBan (m'.ban old) ≠ .keepBoth →
      ¬ m.Clashing now clash pBan := by
    rintro old active other ⟨-, old', active', keep⟩
    obtain rfl := u _ _ _ (s.nickActive active) active'
    rw [s.ban_of_nick active.1 active.2.1] at other
    exact other keep
  cases o with
  | dropped old _ active verdict =>
    have none := only active (by rw [verdict]; simp)
    simp [none]
  | stripped old _ active verdict =>
    have none := only active (by rw [verdict]; simp)
    simp [none]
  | both old _ active verdict =>
    rw [s.ban_of_nick active.1 active.2.1] at verdict
    constructor
    · rintro ⟨item, eq, -, unexpired, -⟩
      obtain rfl : pBan = item := by simpa using eq
      exact ⟨unexpired, old, s.nickActive active, verdict⟩
    · rintro ⟨unexpired, -⟩
      exact ⟨pBan, rfl, nick, unexpired, old, active⟩
  | alone gone =>
    -- a ban that stayed would have had a rival before
    have nobody : ∀ b, ¬ m'.NickActive now pBan.sNick b := fun b hb => by
      obtain ⟨old, ne, active⟩ := gone b hb
      exact ne (u _ _ _ active (s.nickActive hb))
    constructor
    · rintro ⟨item, eq, -, -, b, hb⟩
      obtain rfl : pBan = item := by simpa using eq
      exact (nobody b hb).elim
    · rintro ⟨-, old, active, keep⟩
      exact (nobody old (nickActive_reduces h r active keep)).elim

variable (cfg : Config)

/-- `NickBan` and `NickTempBan` never keep both. -/
theorem nickUnique_addNick (h : Inv m) (u : m.NickUnique now) {clash : BanItem → BanItem → Clash}
    (never : ∀ new old, clash new old ≠ .keepBoth) (pBan : BanItem) (nick : pBan.nick = true)
    (hash : pBan.nickHash = hashNick pBan.sNick) (sReason sBy : Option Text) :
    (m.addNick cfg now clash pBan sReason sBy).1.NickUnique now := by
  obtain ⟨m₁, r, ⟨-, eq⟩ | ⟨item, outcome, eq⟩⟩ :=
    addNick_cases cfg h now clash hash sReason sBy <;> rw [eq]
  · exact u.shrinks (reduces_shrinks h r)
  · refine (nickUnique_store (inv_reduces h r) _ _).mpr ⟨u.shrinks (reduces_shrinks h r), ?_⟩
    rintro ⟨hn, he, b, hb⟩
    obtain ⟨-, old, -, keep⟩ := (outcome.rival_iff h u nick r).mp ⟨item, rfl, hn, he, b, hb⟩
    exact never _ _ keep

theorem nickUnique_addIp (h : Inv m) (u : m.NickUnique now)
    (verdict : BanItem → BanItem → Verdict) {pBan : BanItem} (noNick : pBan.nick = false)
    (sReason sBy : Option Text) :
    (m.addIp cfg now verdict pBan sReason sBy).1.NickUnique now := by
  obtain ⟨m₁, r, ⟨-, eq⟩ | eq⟩ := addIp_cases cfg h now verdict pBan sReason sBy <;> rw [eq]
  · exact u.shrinks (reduces_shrinks h r)
  · refine (nickUnique_store (inv_reduces h r) _ _).mpr ⟨u.shrinks (reduces_shrinks h r), ?_⟩
    simp [describe, noNick]

theorem NickUnique.discard (u : m.NickUnique now) (h : Inv m) (item : BanItem) :
    (m.discard item).NickUnique now :=
  u.shrinks ((Change.discard (P := Anything) (Q := Anything) item).shrinks h)

theorem nickUnique_addUser (h : Inv m) (u : m.NickUnique now)
    {clash : BanItem → BanItem → Clash} {verdict : BanItem → BanItem → Verdict}
    (keepNick : ∀ new old, old.nick = true → verdict new old ≠ .remove) (user : BanUser)
    {pBan : BanItem} (noNick : pBan.nick = false) (sReason sBy : Option Text) :
    (m.addUser cfg now clash verdict user pBan sReason sBy).NickUnique now ↔
      ¬ (startsWith user.sNick 60 = false ∧ m.Clashing now clash (withNick pBan user)) := by
  obtain ⟨m₁, r₁, ⟨outcome, eq⟩ | ⟨item, m₂, next, r₂, eq⟩⟩ :=
    addUser_cases cfg h now clash verdict user pBan sReason sBy <;> rw [eq]
  · have rival := outcome.rival_iff h u rfl r₁
    simp only [reduceCtorEq, false_and, exists_false, false_iff] at rival
    simp [rival, u.shrinks (reduces_shrinks h r₁)]
  · have inv₁ := inv_reduces h r₁
    have unique₂ := (u.shrinks (reduces_shrinks h r₁)).shrinks (reduces_shrinks inv₁ r₂)
    rw [nickUnique_store (inv_reduces inv₁ r₂)]
    rcases next with ⟨nick, outcome⟩ | ⟨plain, rfl, -⟩
    · have rival := outcome.rival_iff h u rfl r₁
      -- the scan of the IP leaves every ban with a nick
      have same : ∀ b, m₂.NickActive now item.sNick b ↔ m₁.NickActive now item.sNick b := by
        refine fun b => ⟨(reduces_shrinks inv₁ r₂).nickActive, ?_⟩
        rintro ⟨live, hn, same, unexpired⟩
        rcases reduces_fate inv₁ r₂ live with ⟨live', eq | ⟨-, no⟩⟩ | gone | ⟨no, -⟩
        · exact ⟨live', by rw [eq]; exact ⟨hn, same, unexpired⟩⟩
        · exact no.elim
        · rcases gone with expired | ⟨-, -, remove⟩
          · rw [expired] at unexpired
            cases unexpired
          · exact (keepNick _ _ hn remove).elim
        · exact no.elim
      simp only [Option.some.injEq, exists_eq_left'] at rival
      simp only [describe, same, nick, true_and, unique₂]
      rw [not_iff_not]
      exact rival
    · simp [describe, BanItem.initIP, noNick, plain, unique₂]

/-- `TempBan` is about to ban, beyond now, a nick that a permanent ban of another
IP names. -/
def Rival (m : BanManager) (now : Int) : Op → Prop
  | .tempBan u _ _ minutes expiretime _ =>
    startsWith u.sNick 60 = false ∧
      now < expireTime now minutes expiretime cfg.defaultTempBanTime ∧
      ∃ b, m.NickActive now u.sNick b ∧ (m.ban b).perm = true ∧ (m.ban b).ip = true ∧
        (m.ban b).ipHash ≠ u.ipHash
  | _ => False

/-- One operation keeps nick bans unique unless it sets up a rival. -/
theorem nickUnique_exec (h : Inv m) (u : m.NickUnique now) (op : Op) :
    (m.exec cfg now op).1.NickUnique now ↔ ¬ m.Rival cfg now op := by
  cases noAdd : op.adds with
  | false =>
    have calm : ¬ m.Rival cfg now op := by
      cases op with
      | tempBan => cases noAdd
      | _ => exact id
    rcases exec_reduces cfg h now noAdd with r | ⟨l, eq⟩
    · exact iff_of_true (u.shrinks (reduces_shrinks h r)) calm
    · rw [eq]
      exact iff_of_true u.congr calm
  | true =>
    cases op with
    | ban user r by_ full =>
      refine (nickUnique_addUser cfg h u (fun _ _ => banScan_nick _) user rfl r by_).trans ?_
      simp [Clashing, banClash_ne_keepBoth, Rival]
    | tempBan user r by_ mins till full =>
      refine (nickUnique_addUser cfg h u (fun _ _ => tempBanScan_nick _) user rfl r by_).trans ?_
      simp only [Clashing, tempBanClash_keepBoth, Rival]
      rw [BanItem.expired_temp (b := withNick _ user) rfl]
      rfl
    | banIp user s r by_ full =>
      refine iff_of_true ?_ id
      simp only [exec, Prod.map_fst, id_eq, banIp]
      split
      · exact u.discard h _
      · rename_i p eq
        obtain ⟨hash, text, rfl⟩ := targetIp_some cfg eq
        exact nickUnique_addIp cfg h u _ rfl r by_
    | tempBanIp user s r by_ mins till full =>
      refine iff_of_true ?_ id
      simp only [exec, Prod.map_fst, id_eq, tempBanIp]
      split
      · exact u.discard h _
      · rename_i p eq
        obtain ⟨hash, text, rfl⟩ := targetIp_some cfg eq
        exact nickUnique_addIp cfg h u _ rfl r by_
    | nickBan user s r by_ =>
      refine iff_of_true ?_ id
      simp only [exec, Prod.map_fst, id_eq, nickBan]
      split
      · exact u.discard h _
      · rename_i p eq
        obtain ⟨nick, hash, -, -⟩ := targetNick_some eq
        exact nickUnique_addNick cfg h u nickBanClash_ne_keepBoth p nick hash r by_
    | nickTempBan user s r by_ mins till =>
      refine iff_of_true ?_ id
      simp only [exec, Prod.map_fst, id_eq, nickTempBan]
      split
      · exact u.discard h _
      · rename_i p eq
        obtain ⟨nick, hash, -, -⟩ := targetNick_some eq
        exact nickUnique_addNick cfg h u nickTempBanClash_ne_keepBoth
          { p with tempBanExpire := expireTime now mins till cfg.defaultTempBanTime }
          nick hash r by_
    | _ => cases noAdd

/-- An operation after some time has passed. -/
def tick (s : Clock) (e : Nat × Op) : Clock :=
  let now := s.now + e.1
  ⟨now, (s.store.exec cfg now e.2).1⟩

/-- Nick bans are unique all along a run from the empty store exactly if no step
of it sets up a rival. -/
theorem nick_bans_unique_iff (start : Int) (es : List (Nat × Op)) :
    (∀ pre, pre <+: es →
      (run (tick cfg) ⟨start, empty⟩ pre).store.NickUnique
        (run (tick cfg) ⟨start, empty⟩ pre).now) ↔
    Allowed (tick cfg) (fun s e => ¬ s.store.Rival cfg (s.now + e.1) e.2) ⟨start, empty⟩ es := by
  refine forall_prefix_iff_allowed (fun s : Clock => Inv s.store)
    (fun s => s.store.NickUnique s.now) ?_ ?_ inv_empty ?_
  · exact fun s e h => inv_exec cfg h _ e.2
  · intro s e h u
    have le : s.now ≤ s.now + (e.1 : Int) := by omega
    exact nickUnique_exec cfg h (u.later le) e.2
  · intro b b' live
    simp [Live, empty] at live

end

/-- The address a nick was banned with, and another one it comes back from. -/
def home : BanUser := ⟨ascii "bob", ascii "1.1.1.1", 1⟩
def away : BanUser := ⟨ascii "BOB", ascii "2.2.2.2", 2⟩

/-- A ban and then a temporary ban of the same nick from another address. -/
theorem tempBan_beside_ban :
    ¬ (run (tick Config.plain) ⟨0, empty⟩
      [(0, .ban home none none false), (0, .tempBan away none none 5 0 false)]).store.NickUnique 0 := by
  intro u
  have same := u 0 1 (by decide) (by decide) (by decide) (by decide) (by decide) (by decide)
    (by decide)
  cases same

end BanManager

end FlyHub.Ban
