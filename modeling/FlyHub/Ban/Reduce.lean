import Mathlib.Logic.Relation
import FlyHub.Ban.Scan
import FlyHub.Ban.Operations

/-!
# What an operation can do

Before a new ban goes in, an operation only removes bans, sets bans to IP bans
only, or drops the new ban. Every operation is broken up into such changes here,
each with the reason the code has for it; what the changes keep, the operations
keep.
-/

namespace FlyHub.Ban

open FlyHub.Lib Relation

namespace BanManager

/-- One change of the store. `P` holds of a record that is removed, `Q` of one
that loses its nick. -/
inductive Change (P Q : BanItem → Prop) : BanManager → BanManager → Prop
  | remove {m b} : m.Live b → P (m.ban b) → Change P Q m (m.remove b)
  | stripNick {m b} : m.Live b → (m.ban b).nick = true → Q (m.ban b) →
      Change P Q m (m.stripNick b)
  | discard {m} (item) : Change P Q m (m.discard item)

abbrev Reduces (P Q : BanItem → Prop) : BanManager → BanManager → Prop :=
  ReflTransGen (Change P Q)

abbrev Anything : BanItem → Prop := fun _ => True

abbrev Never : BanItem → Prop := fun _ => False

/-- Bans that have expired are removed. -/
abbrev Sweeps (now : Int) : BanManager → BanManager → Prop :=
  Reduces (fun r => r.expired now = true) Never

/-- A nick ban of this nick is in force. -/
def NickActive (m : BanManager) (now : Int) (sNick : Text) (b : BanId) : Prop :=
  m.Live b ∧ (m.ban b).nick = true ∧ iequals (m.ban b).sNick sNick = true ∧
    (m.ban b).expired now = false

section
variable {P Q : BanItem → Prop} {m m' : BanManager}

theorem Change.inv (h : Inv m) (c : Change P Q m m') : Inv m' := by
  cases c with
  | remove live _ => exact inv_remove h live
  | stripNick _ nick _ => exact inv_stripNick h nick
  | discard item => exact inv_discard h item

theorem inv_reduces (h : Inv m) (r : Reduces P Q m m') : Inv m' := by
  induction r with
  | refl => exact h
  | tail _ c ih => exact c.inv ih

/-- No ban appears, and what is left of a record is the record, perhaps without
its nick. -/
structure Shrinks (m m' : BanManager) : Prop where
  live : ∀ b, m'.Live b → m.Live b
  ban : ∀ b, m'.Live b → ∃ keep : Bool, m'.ban b = { m.ban b with nick := (m.ban b).nick && keep }
  ranges : m'.rangeBanList = m.rangeBanList
  next : m.next ≤ m'.next

theorem Shrinks.refl (m : BanManager) : Shrinks m m :=
  ⟨fun _ h => h, fun b _ => ⟨true, by simp⟩, rfl, Nat.le_refl _⟩

theorem Shrinks.trans {m'' : BanManager} (h : Shrinks m m') (h' : Shrinks m' m'') :
    Shrinks m m'' := by
  refine ⟨fun b hb => h.live b (h'.live b hb), fun b hb => ?_, h'.ranges.trans h.ranges,
    Nat.le_trans h.next h'.next⟩
  obtain ⟨keep', eq'⟩ := h'.ban b hb
  obtain ⟨keep, eq⟩ := h.ban b (h'.live b hb)
  exact ⟨keep && keep', by rw [eq', eq]; simp [Bool.and_assoc]⟩

theorem Change.shrinks (h : Inv m) (c : Change P Q m m') : Shrinks m m' := by
  cases c with
  | remove live _ =>
    exact ⟨fun x hx => ((live_remove h live).mp hx).1, fun x _ => ⟨true, by simp⟩, by simp, by simp⟩
  | stripNick _ _ _ =>
    exact ⟨fun x hx => hx, fun x _ => ⟨_, stripNick_ban_eq x⟩, rfl, Nat.le_refl _⟩
  | discard item =>
    refine ⟨fun x hx => hx, fun x hx => ⟨true, ?_⟩, rfl, Nat.le_succ _⟩
    have same : (m.discard item).ban x = m.ban x := alloc_ban_of_live h hx
    rw [same, Bool.and_true]

theorem reduces_shrinks (h : Inv m) (r : Reduces P Q m m') : Shrinks m m' := by
  induction r with
  | refl => exact Shrinks.refl m
  | tail r c ih => exact ih.trans (c.shrinks (inv_reduces h r))

theorem Shrinks.nickActive (s : Shrinks m m') {now : Int} {sNick : Text} {b : BanId}
    (h : m'.NickActive now sNick b) : m.NickActive now sNick b := by
  obtain ⟨live, nick, same, unexpired⟩ := h
  obtain ⟨keep, eq⟩ := s.ban b live
  rw [eq] at nick same unexpired
  simp only [Bool.and_eq_true] at nick
  exact ⟨s.live b live, nick.1, same, unexpired⟩

/-- A record that still has its nick is the one it was. -/
theorem Shrinks.ban_of_nick (s : Shrinks m m') {b : BanId} (live : m'.Live b)
    (nick : (m'.ban b).nick = true) : m'.ban b = m.ban b := by
  obtain ⟨keep, eq⟩ := s.ban b live
  rw [eq] at nick
  simp only [Bool.and_eq_true] at nick
  rw [eq, nick.2, Bool.and_true]

/-- A ban of the store stays as it is, loses its nick for a reason, or is removed
for a reason, with its nick or after losing it. -/
theorem reduces_fate (h : Inv m) (r : Reduces P Q m m') {b : BanId} (live : m.Live b) :
    (m'.Live b ∧ (m'.ban b = m.ban b ∨
      (m'.ban b = { m.ban b with nick := false } ∧ Q (m.ban b)))) ∨
    P (m.ban b) ∨ (Q (m.ban b) ∧ P { m.ban b with nick := false }) := by
  induction r with
  | refl => exact .inl ⟨live, .inl rfl⟩
  | @tail m₁ _ r c ih =>
    rcases ih with ⟨live', eq⟩ | gone
    · have inv := inv_reduces h r
      cases c with
      | @remove x hx reason =>
        by_cases same : b = x
        · subst same
          rcases eq with eq | ⟨eq, strip⟩ <;> rw [eq] at reason
          · exact .inr (.inl reason)
          · exact .inr (.inr ⟨strip, reason⟩)
        · rw [remove_ban]
          exact .inl ⟨(live_remove inv hx).mpr ⟨live', same⟩, eq⟩
      | @stripNick x hx nick reason =>
        by_cases same : b = x
        · subst same
          rcases eq with eq | ⟨eq, -⟩ <;> rw [eq] at nick reason
          · exact .inl ⟨live', .inr ⟨by rw [stripNick_ban_eq, eq]; simp, reason⟩⟩
          · cases nick
        · have keep : (m₁.stripNick x).ban b = m₁.ban b := by
            rw [stripNick_ban_eq]
            simp [same]
          rw [keep]
          exact .inl ⟨live', eq⟩
      | discard item =>
        have keep : (m₁.discard item).ban b = m₁.ban b := alloc_ban_of_live inv live'
        rw [keep]
        exact .inl ⟨live', eq⟩
    · exact .inr gone

/-- Removing distinct bans, all for one reason. -/
theorem reduces_removeAll (h : Inv m) {rs : List BanId} (nodup : rs.Nodup)
    (live : ∀ b ∈ rs, m.Live b) (reason : ∀ b ∈ rs, P (m.ban b)) :
    Reduces P Q m (m.removeAll rs) := by
  induction rs generalizing m with
  | nil => exact .refl
  | cons b rs ih =>
    obtain ⟨notin, nodup⟩ := List.nodup_cons.mp nodup
    have hb := live b (by simp)
    have rest : ∀ x ∈ rs, (m.remove b).Live x := fun x hx =>
      (live_remove h hb).mpr ⟨live x (by simp [hx]), by rintro rfl; exact notin hx⟩
    refine .head (.remove hb (reason b (by simp))) ?_
    exact ih (inv_remove h hb) nodup rest fun x hx => by
      rw [remove_ban]
      exact reason x (by simp [hx])

/-- A scan over distinct bans removes those its verdict condemns. -/
theorem reduces_plan (h : Inv m) {l : List BanId} (nodup : l.Nodup) (live : ∀ b ∈ l, m.Live b)
    {verdict : BanId → Verdict} (reason : ∀ b ∈ l, verdict b = .remove → P (m.ban b)) :
    Reduces P Q m (m.removeAll (plan verdict l).removed) :=
  reduces_removeAll h (nodup.sublist plan_removed_sublist)
    (fun b hb => live b (plan_removed_sublist.subset hb))
    (fun b hb => reason b (plan_removed_sublist.subset hb) (plan_removed hb))

/-- The ban a scan stops at is left in the store. -/
theorem live_plan_stopped (h : Inv m) {l : List BanId} (nodup : l.Nodup)
    (live : ∀ b ∈ l, m.Live b) {verdict : BanId → Verdict} {b : BanId}
    (stop : (plan verdict l).stopped = some b) :
    (m.removeAll (plan verdict l).removed).Live b := by
  obtain ⟨mem, stop⟩ := plan_stopped stop
  have spec := removeAll_spec h (nodup.sublist (plan_removed_sublist :
    (plan verdict l).removed.Sublist l))
    (fun x hx => live x (plan_removed_sublist.subset hx))
  refine (spec.2.1 b).mpr ⟨live b mem, fun hr => ?_⟩
  rw [plan_removed hr] at stop
  cases stop

theorem Swept.reduces {now : Int} {rs : List BanId} (h : Inv m) (s : Swept now m m' rs)
    (hP : ∀ r, r.expired now = true → P r) : Reduces P Q m m' := by
  rw [s.eq]
  exact reduces_removeAll h s.nodup s.live fun b hb => hP _ (s.expired b hb)

theorem reduces_findIp (h : Inv m) (ip : IpHash) (now : Int) (bits : BanItem → Bool)
    (hP : ∀ r, r.expired now = true → P r) :
    Reduces P Q m (m.findIpBanGeneric ip now bits).1 ∧
      ∀ b, (m.findIpBanGeneric ip now bits).2 = some b →
        (m.findIpBanGeneric ip now bits).1.Live b := by
  obtain ⟨rs, swept, spec⟩ := findIpBanGeneric_spec h ip now bits
  refine ⟨swept.reduces h hP, fun b found => ?_⟩
  simp only [found] at spec
  exact ((swept.spec h).2.1 b).mpr ⟨spec.1, spec.2.1⟩

theorem reduces_findNick (h : Inv m) (sNick : Text) (now : Int) (bits : BanItem → Bool)
    (hP : ∀ r, r.expired now = true → P r) :
    Reduces P Q m (m.findNickBanGeneric (hashNick sNick) now sNick bits).1 ∧
      ∀ b, (m.findNickBanGeneric (hashNick sNick) now sNick bits).2 = some b →
        (m.findNickBanGeneric (hashNick sNick) now sNick bits).1.Live b := by
  obtain ⟨rs, swept, spec⟩ := findNickBanGeneric_spec h sNick now bits
  refine ⟨swept.reduces h hP, fun b found => ?_⟩
  simp only [found] at spec
  exact ((swept.spec h).2.1 b).mpr ⟨spec.1, spec.2.1⟩

end

/-- Why an adder removes a record while it resolves its nick: it has expired, or
it is the old nick ban and the clash says so. -/
def NickRemoval (clash : BanItem → BanItem → Clash) (now : Int) (pBan r : BanItem) : Prop :=
  r.expired now = true ∨
    (r.nick = true ∧ iequals r.sNick pBan.sNick = true ∧ clash pBan r = .removeOld)

/-- Why an adder takes the nick off a record. -/
def NickStrip (clash : BanItem → BanItem → Clash) (pBan r : BanItem) : Prop :=
  iequals r.sNick pBan.sNick = true ∧ clash pBan r = .stripOld

/-- How an adder comes out of the clash of nicks: `m` is the store it started
from, `m₁` the one it goes on with or leaves. -/
inductive NickOutcome (clash : BanItem → BanItem → Clash) (now : Int) (pBan : BanItem)
    (m m₁ : BanManager) : Option BanItem → Prop
  /-- An old ban is in force and the new one is dropped. -/
  | dropped (old : BanId) : Sweeps now m m₁ → m₁.NickActive now pBan.sNick old →
      clash pBan (m₁.ban old) = .dropNew → NickOutcome clash now pBan m m₁ none
  /-- The new ban goes on without its nick. -/
  | stripped (old : BanId) : Sweeps now m m₁ → m₁.NickActive now pBan.sNick old →
      clash pBan (m₁.ban old) = .stripNew →
      NickOutcome clash now pBan m m₁ (some { pBan with nick := false })
  /-- The new ban goes on with its nick beside an old ban. -/
  | both (old : BanId) : Sweeps now m m₁ → m₁.NickActive now pBan.sNick old →
      clash pBan (m₁.ban old) = .keepBoth → NickOutcome clash now pBan m m₁ (some pBan)
  /-- The new ban goes on with its nick; a nick ban still in force had a rival. -/
  | alone : (∀ b, m₁.NickActive now pBan.sNick b →
        ∃ old, old ≠ b ∧ m.NickActive now pBan.sNick old) →
      NickOutcome clash now pBan m m₁ (some pBan)

section
variable {m : BanManager}

theorem resolveNick_outcome (h : Inv m) (clash : BanItem → BanItem → Clash) (now : Int)
    (pBan : BanItem) (hash : pBan.nickHash = hashNick pBan.sNick) :
    Reduces (NickRemoval clash now pBan) (NickStrip clash pBan) m
        (m.resolveNick clash now pBan).1 ∧
      NickOutcome clash now pBan m (m.resolveNick clash now pBan).1
        (m.resolveNick clash now pBan).2 := by
  obtain ⟨rs, swept, found⟩ := findNickBanGeneric_spec h pBan.sNick now anyBits
  have swept₁ : Sweeps now m _ := swept.reduces h fun _ e => e
  have sweep : Reduces (NickRemoval clash now pBan) (NickStrip clash pBan) m _ :=
    swept.reduces h fun _ e => .inl e
  obtain ⟨inv, live, ban, -⟩ := swept.spec h
  unfold resolveNick
  rw [hash]
  generalize eq : m.findNickBanGeneric (hashNick pBan.sNick) now pBan.sNick anyBits = r
    at found swept₁ sweep inv live ban
  obtain ⟨m₁, nxt⟩ := r
  simp only at found swept₁ sweep inv live ban ⊢
  cases nxt with
  | none =>
    refine ⟨sweep, .alone fun b hb => ?_⟩
    obtain ⟨hl, hn, same, unexpired⟩ := hb
    rw [ban] at hn same unexpired
    have none := found b ((live b).mp hl).1 hn same unexpired
    simp [anyBits] at none
  | some old =>
    obtain ⟨hl, notin, hn, same, unexpired⟩ := found
    have active : m.NickActive now pBan.sNick old := ⟨hl, hn, same, unexpired⟩
    have hl₁ := (live old).mpr ⟨hl, notin⟩
    have active₁ : m₁.NickActive now pBan.sNick old := by
      rw [← ban] at hn same unexpired
      exact ⟨hl₁, hn, same, unexpired⟩
    simp only
    cases verdict : clash pBan (m₁.ban old) with
    | dropNew =>
      have keep : (m₁.discard pBan).ban old = m₁.ban old := alloc_ban_of_live inv hl₁
      obtain ⟨-, hn₁, same₁, unexpired₁⟩ := active₁
      rw [← keep] at hn₁ same₁ unexpired₁ verdict
      exact ⟨sweep.tail (.discard pBan),
        .dropped old (swept₁.tail (.discard pBan)) ⟨hl₁, hn₁, same₁, unexpired₁⟩ verdict⟩
    | stripNew => exact ⟨sweep, .stripped old swept₁ active₁ verdict⟩
    | keepBoth => exact ⟨sweep, .both old swept₁ active₁ verdict⟩
    | removeOld =>
      have change : Change (NickRemoval clash now pBan) (NickStrip clash pBan) m₁
          (m₁.remove old) := .remove hl₁ (.inr ⟨active₁.2.1, active₁.2.2.1, verdict⟩)
      refine ⟨sweep.tail change, .alone fun b hb => ⟨old, ?_, active⟩⟩
      rintro rfl
      exact ((live_remove inv hl₁).mp hb.1).2 rfl
    | stripOld =>
      have change : Change (NickRemoval clash now pBan) (NickStrip clash pBan) m₁
          (m₁.stripNick old) := .stripNick hl₁ active₁.2.1 ⟨active₁.2.2.1, verdict⟩
      refine ⟨sweep.tail change, .alone fun b hb => ⟨old, ?_, active⟩⟩
      rintro rfl
      have nick := hb.2.1
      simp [settle, stripNick_ban_eq] at nick

/-- Why an IP adder removes a record: it has expired, or it is a ban of the same
IP and the scan says so. -/
def IpRemoval (verdict : BanItem → Verdict) (now : Int) (ip : IpHash) (r : BanItem) : Prop :=
  r.expired now = true ∨ (r.ip = true ∧ r.ipHash = ip ∧ verdict r = .remove)

theorem scanIp_outcome {Q : BanItem → Prop} (h : Inv m) (ip : IpHash) (now : Int)
    (verdict : BanItem → Verdict) :
    Reduces (IpRemoval verdict now ip) Q m (m.scanIp now verdict ip).state ∧
      ∀ b, (m.scanIp now verdict ip).stopped = some b →
        (m.scanIp now verdict ip).state.Live b ∧
          ((m.scanIp now verdict ip).state.ban b).ip = true ∧
          ((m.scanIp now verdict ip).state.ban b).ipHash = ip ∧
          verdict ((m.scanIp now verdict ip).state.ban b) = .stop := by
  obtain ⟨rs, rest, swept, chain, eq⟩ := scanIp_spec h ip now verdict
  obtain ⟨inv, -, ban, -⟩ := swept.spec h
  have live : ∀ b ∈ rest, (m.removeAll rs).Live b := fun b hb => ((chain.mem b).mp hb).1
  rw [eq]
  refine ⟨(swept.reduces h fun _ e => .inl e).trans
    (reduces_plan inv chain.nodup live fun b hb hv => ?_), fun b hb => ?_⟩
  · obtain ⟨-, ipBit, key⟩ := (chain.mem b).mp hb
    rw [ban] at ipBit key ⊢
    exact .inr ⟨ipBit, key, hv⟩
  · obtain ⟨mem, stop⟩ := plan_stopped hb
    obtain ⟨-, ipBit, key⟩ := (chain.mem b).mp mem
    simp only [removeAll_ban] at ipBit key ⊢
    exact ⟨live_plan_stopped inv chain.nodup live hb, ipBit, key, stop⟩

variable (cfg : Config)

/-- The new ban of `Ban` and `TempBan` with the nick of the user. -/
def withNick (pBan : BanItem) (u : BanUser) : BanItem :=
  { pBan.initIP u with sNick := u.sNick, nickHash := u.nickHash, nick := true }

/-- `Ban` and `TempBan`: the new ban is dropped over its nick, or it is stored
after the clash of nicks, if there is one, and the scan of its IP. -/
theorem addUser_cases (h : Inv m) (now : Int) (clash : BanItem → BanItem → Clash)
    (verdict : BanItem → BanItem → Verdict) (u : BanUser) (pBan : BanItem)
    (sReason sBy : Option Text) :
    ∃ m₁, Reduces (NickRemoval clash now (withNick pBan u)) (NickStrip clash (withNick pBan u)) m m₁ ∧
      ((NickOutcome clash now (withNick pBan u) m m₁ none ∧
          m.addUser cfg now clash verdict u pBan sReason sBy = m₁) ∨
        ∃ item m₂, (startsWith u.sNick 60 = false ∧
              NickOutcome clash now (withNick pBan u) m m₁ (some item) ∨
            startsWith u.sNick 60 = true ∧ item = pBan.initIP u ∧ m₁ = m) ∧
          Reduces (IpRemoval (verdict item) now item.ipHash) Never m₁ m₂ ∧
          m.addUser cfg now clash verdict u pBan sReason sBy =
            m₂.store cfg.place (describe item sReason sBy)) := by
  unfold addUser
  cases plain : startsWith u.sNick 60 with
  | true =>
    have part : m.banNickOf now clash u (pBan.initIP u) = (m, some (pBan.initIP u)) := by
      simp [banNickOf, plain]
    rw [part]
    exact ⟨m, .refl, .inr ⟨_, _, .inr ⟨rfl, rfl, rfl⟩, (scanIp_outcome h _ now _).1, rfl⟩⟩
  | false =>
    have part : m.banNickOf now clash u (pBan.initIP u) =
        m.resolveNick clash now (withNick pBan u) := by
      simp only [banNickOf, plain, Bool.not_false, ↓reduceIte]
      rfl
    obtain ⟨reduces, outcome⟩ := resolveNick_outcome h clash now (withNick pBan u) rfl
    rw [part]
    generalize m.resolveNick clash now (withNick pBan u) = r at reduces outcome
    obtain ⟨m₁, next⟩ := r
    refine ⟨m₁, reduces, ?_⟩
    cases next with
    | none => exact .inl ⟨outcome, rfl⟩
    | some item =>
      exact .inr ⟨item, _, .inl ⟨rfl, outcome⟩,
        (scanIp_outcome (inv_reduces h reduces) _ now _).1, rfl⟩

/-- `NickBan` and `NickTempBan` once their target is known. -/
theorem addNick_cases (h : Inv m) (now : Int) (clash : BanItem → BanItem → Clash) {pBan : BanItem}
    (hash : pBan.nickHash = hashNick pBan.sNick) (sReason sBy : Option Text) :
    ∃ m₁, Reduces (NickRemoval clash now pBan) (NickStrip clash pBan) m m₁ ∧
      ((NickOutcome clash now pBan m m₁ none ∧
          m.addNick cfg now clash pBan sReason sBy = (m₁, false)) ∨
        ∃ item, NickOutcome clash now pBan m m₁ (some item) ∧
          m.addNick cfg now clash pBan sReason sBy =
            (m₁.store cfg.place (describe item sReason sBy), true)) := by
  obtain ⟨reduces, outcome⟩ := resolveNick_outcome h clash now pBan hash
  unfold addNick
  generalize m.resolveNick clash now pBan = r at reduces outcome
  obtain ⟨m₁, next⟩ := r
  refine ⟨m₁, reduces, ?_⟩
  cases next with
  | none => exact .inl ⟨outcome, rfl⟩
  | some item => exact .inr ⟨item, outcome, rfl⟩

/-- `BanIp` and `TempBanIp` once their target is known. -/
theorem addIp_cases (h : Inv m) (now : Int) (verdict : BanItem → BanItem → Verdict)
    (pBan : BanItem) (sReason sBy : Option Text) :
    ∃ m₁, Reduces (IpRemoval (verdict pBan) now pBan.ipHash) Never m m₁ ∧
      (((∃ b, m₁.Live b ∧ (m₁.ban b).ip = true ∧ (m₁.ban b).ipHash = pBan.ipHash ∧
            verdict pBan (m₁.ban b) = .stop) ∧
          m.addIp cfg now verdict pBan sReason sBy = (m₁, 2)) ∨
        m.addIp cfg now verdict pBan sReason sBy =
          (m₁.store cfg.place (describe pBan sReason sBy), 0)) := by
  obtain ⟨reduces, stop⟩ :=
    scanIp_outcome (Q := Never) h pBan.ipHash now (verdict pBan)
  unfold addIp
  generalize m.scanIp now (verdict pBan) pBan.ipHash = scan at reduces stop
  simp only
  cases stopped : scan.stopped with
  | none => exact ⟨_, reduces, .inr rfl⟩
  | some b =>
    obtain ⟨live, ip, key, stop⟩ := stop b stopped
    have same : (scan.state.discard pBan).ban b = scan.state.ban b :=
      alloc_ban_of_live (inv_reduces h reduces) live
    rw [← same] at ip key stop
    exact ⟨_, reduces.tail (.discard pBan), .inl ⟨⟨b, live, ip, key, stop⟩, rfl⟩⟩

end

end BanManager

end FlyHub.Ban
