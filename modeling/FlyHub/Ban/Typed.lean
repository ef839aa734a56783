import FlyHub.Ban.Representation

/-!
# Unbanning by type

`TempUnban` and `PermUnban` are to remove a ban of their type: one of the nick, or else
one of the IP. A lookup by IP that finds no ban of the type falls back to any other one.
-/

namespace FlyHub.Ban

open FlyHub.Lib

/-- The types of bans. -/
inductive Kind where
  | temp
  | perm

def Kind.bits : Kind → BanItem → Bool
  | .temp => BanItem.temp
  | .perm => BanItem.perm

/-- The time at which the lookups of the unban look: for permanent bans it is not read. -/
def Kind.time : Kind → Int → Int
  | .temp, now => now
  | .perm, _ => 0

namespace BanManager

section
variable {m : BanManager}

/-- A lookup by nick stops at a ban that has the bits. -/
theorem findNickBanGeneric_bits {hash : UInt32} {sNick : Text} {now : Int} {bits : BanItem → Bool}
    {b : BanId} (found : (m.findNickBanGeneric hash now sNick bits).2 = some b) :
    bits (m.ban b) = true := by
  rw [findNickBanGeneric, scanList_eq] at found
  have stop := (plan_stopped found).2
  unfold nickLookup at stop
  split at stop
  · cases stop
  · exact (lookup_stop.mp stop).2

/-- A lookup by IP finds a ban without the bits only where none has them. -/
theorem findIpBanGeneric_bits (h : Inv m) {ip : IpHash} {now : Int} {bits : BanItem → Bool}
    {b : BanId} (found : (m.findIpBanGeneric ip now bits).2 = some b)
    (other : bits (m.ban b) = false) (x : BanId) (live : m.Live x) (ipBit : (m.ban x).ip = true)
    (key : (m.ban x).ipHash = ip) (unexpired : (m.ban x).expired now = false) :
    bits (m.ban x) = false := by
  obtain ⟨c, hc⟩ := h.ipTable ip
  rw [findIpBanGeneric_eq h hc] at found
  dsimp only at found
  cases stopped : (plan (fun b => lookup now bits (m.ban b)) c).stopped with
  | some y =>
    rw [stopped] at found
    obtain rfl : y = b := by simpa using found
    rw [(lookup_stop.mp (plan_stopped stopped).2).2] at other
    contradiction
  | none =>
    cases plan_complete stopped ((hc.mem x).mpr ⟨live, ipBit, key⟩) with
    | inl removed =>
      rw [lookup_remove.mp removed.1] at unexpired
      contradiction
    | inr kept => exact (lookup_keep.mp kept.1).2

end

/-- An unexpired ban of the IP. -/
def IpActive (m : BanManager) (now : Int) (ip : IpHash) (b : BanId) : Prop :=
  m.Live b ∧ (m.ban b).ip = true ∧ (m.ban b).ipHash = ip ∧ (m.ban b).expired now = false

/-- The unban of a type. -/
def unbanKind (cfg : Config) (m : BanManager) (kind : Kind) (now : Int) (sWhat : Text) :
    BanManager × Bool :=
  match kind with
  | .temp => m.tempUnban cfg now sWhat
  | .perm => m.permUnban cfg sWhat

/-- A ban of the type for the nick. -/
def NickOfKind (m : BanManager) (kind : Kind) (now : Int) (sWhat : Text) (b : BanId) : Prop :=
  m.NickActive now sWhat b ∧ kind.bits (m.ban b) = true

/-- A ban of the type for the IP. -/
def IpOfKind (m : BanManager) (kind : Kind) (now : Int) (ip : IpHash) (b : BanId) : Prop :=
  m.IpActive now ip b ∧ kind.bits (m.ban b) = true

/-- A ban the unban is asked to remove: one of the nick or, failing that, of the IP. -/
def Asked (cfg : Config) (m : BanManager) (kind : Kind) (now : Int) (sWhat : Text) (b : BanId) : Prop :=
  m.NickOfKind kind now sWhat b ∨
    (∀ x, ¬ m.NickOfKind kind now sWhat x) ∧
      ∃ ip, cfg.hashIP sWhat = some ip ∧ m.IpOfKind kind now ip b

/-- The unban removes one ban it is asked to, if there is one, and no other unexpired ban. -/
structure RemovesAsked (m : BanManager) (now : Int) (asked : BanId → Prop) (r : BanManager × Bool) :
    Prop where
  answer : r.2 = true ↔ ∃ b, asked b
  removed : r.2 = true → ∃ b, asked b ∧ ¬ r.1.Live b ∧
    ∀ x, m.Live x → (m.ban x).expired now = false → x ≠ b → r.1.Live x
  stays : r.2 = false → ∀ x, m.Live x → (m.ban x).expired now = false → r.1.Live x
  records : r.1.ban = m.ban

/-- No ban of the type is there, but the lookup by IP falls back to another one. -/
def FallsBack (cfg : Config) (m : BanManager) (kind : Kind) (now : Int) (sWhat : Text) : Prop :=
  (∀ b, ¬ Asked cfg m kind now sWhat b) ∧
    ∃ ip, cfg.hashIP sWhat = some ip ∧ ∃ b, m.IpActive (kind.time now) ip b

section
variable {m m' : BanManager} {kind : Kind} {now : Int} {rs : List BanId} {sWhat : Text}

/-- What a lookup sweeps away has expired. -/
theorem Swept.keeps (h : Inv m) (le : kind.time now ≤ now) (swept : Swept (kind.time now) m m' rs)
    {x : BanId} (live : m.Live x) (unexpired : (m.ban x).expired now = false) : m'.Live x := by
  refine ((swept.spec h).2.1 x).mpr ⟨live, fun mem => ?_⟩
  rw [BanItem.expired_mono le (swept.expired x mem)] at unexpired
  contradiction

/-- The time of the lookup decides whether a ban of the type has expired. -/
theorem expired_kind (h : Inv m) {b : BanId} (live : m.Live b) (bits : kind.bits (m.ban b) = true) :
    (m.ban b).expired now = (m.ban b).expired (kind.time now) := by
  cases kind with
  | temp => rfl
  | perm =>
    have temp := h.bits live
    rw [show (m.ban b).perm = true from bits] at temp
    simp [BanItem.expired, temp]

/-- The removal of a ban that was asked for, after the lookups. -/
theorem removesAsked_remove {asked : BanId → Prop} (h' : Inv m') (same : m'.ban = m.ban)
    (keeps : ∀ x, m.Live x → (m.ban x).expired now = false → m'.Live x) {b : BanId}
    (wanted : asked b) (live : m'.Live b) : RemovesAsked m now asked (m'.remove b, true) := by
  have alive (x : BanId) := live_remove h' live (x := x)
  refine ⟨⟨fun _ => ⟨b, wanted⟩, fun _ => rfl⟩, fun _ => ⟨b, wanted, ?_, ?_⟩, by simp, ?_⟩
  · simp [alive]
  · intro x live_x unexpired other
    exact (alive x).mpr ⟨keeps x live_x unexpired, other⟩
  · rw [remove_ban, same]

/-- The lookups found nothing. -/
theorem removesAsked_none {asked : BanId → Prop} (same : m'.ban = m.ban)
    (keeps : ∀ x, m.Live x → (m.ban x).expired now = false → m'.Live x) (none_ : ∀ b, ¬ asked b) :
    RemovesAsked m now asked (m', false) := by
  refine ⟨?_, by simp, fun _ => keeps, same⟩
  constructor
  · simp
  · rintro ⟨b, wanted⟩
    exact absurd wanted (none_ b)

variable (cfg : Config)

theorem unbanKind_eq : m.unbanKind cfg kind now sWhat = m.unbanWith cfg
    (fun m => m.findNickBanGeneric (hashNick sWhat) (kind.time now) sWhat kind.bits)
    (fun m hash => m.findIpBanGeneric hash (kind.time now) kind.bits) sWhat := by
  cases kind <;> rfl

/-- The unban removes what it is asked to exactly if it does not fall back. -/
theorem unbanKind_iff (h : Inv m) (le : kind.time now ≤ now) :
    RemovesAsked m now (Asked cfg m kind now sWhat) (m.unbanKind cfg kind now sWhat) ↔
      ¬ FallsBack cfg m kind now sWhat := by
  obtain ⟨rs, swept, nickSpec⟩ := findNickBanGeneric_spec h sWhat (kind.time now) kind.bits
  have nickBits (b : BanId) (found : (m.findNickBanGeneric (hashNick sWhat) (kind.time now) sWhat
      kind.bits).2 = some b) : kind.bits (m.ban b) = true := findNickBanGeneric_bits found
  rw [unbanKind_eq, unbanWith]
  generalize m.findNickBanGeneric (hashNick sWhat) (kind.time now) sWhat kind.bits = r
    at swept nickSpec nickBits ⊢
  obtain ⟨m₁, nickBan⟩ := r
  obtain ⟨h₁, live₁, ban₁, -⟩ := swept.spec h
  have keeps₁ (x : BanId) := swept.keeps h le (x := x)
  cases nickBan with
  | some b =>
    obtain ⟨live, notSwept, nick, same, unexpired⟩ := nickSpec
    have bits := nickBits b rfl
    have wanted : Asked cfg m kind now sWhat b :=
      .inl ⟨⟨live, nick, same, by rw [expired_kind h live bits]; exact unexpired⟩, bits⟩
    refine iff_of_true ?_ fun fallsBack => fallsBack.1 b wanted
    exact removesAsked_remove h₁ ban₁ keeps₁ wanted ((live₁ b).mpr ⟨live, notSwept⟩)
  | none =>
    have noNick (x : BanId) : ¬ m.NickOfKind kind now sWhat x := by
      rintro ⟨⟨live, nick, same, unexpired⟩, bits⟩
      rw [expired_kind h live bits] at unexpired
      rw [nickSpec x live nick same unexpired] at bits
      contradiction
    dsimp only
    cases hash : cfg.hashIP sWhat with
    | none =>
      have none_ (b : BanId) : ¬ Asked cfg m kind now sWhat b := by
        simp [Asked, noNick, hash]
      refine iff_of_true (removesAsked_none ban₁ keeps₁ none_) ?_
      simp [FallsBack, hash]
    | some ip =>
      have asked (b : BanId) : Asked cfg m kind now sWhat b ↔ m.IpOfKind kind now ip b := by
        simp [Asked, noNick, hash]
      obtain ⟨rs₂, swept₂, ipSpec⟩ := findIpBanGeneric_spec h₁ ip (kind.time now) kind.bits
      have ipBits (b : BanId)
          (found : (m₁.findIpBanGeneric ip (kind.time now) kind.bits).2 = some b) :=
        findIpBanGeneric_bits h₁ found
      dsimp only
      generalize m₁.findIpBanGeneric ip (kind.time now) kind.bits = r at swept₂ ipSpec ipBits ⊢
      obtain ⟨m₂, ipBan⟩ := r
      obtain ⟨h₂, live₂, ban₂, -⟩ := swept₂.spec h₁
      have ban : m₂.ban = m.ban := ban₂.trans ban₁
      have keeps₂ (x : BanId) (live : m.Live x) (unexpired : (m.ban x).expired now = false) :
          m₂.Live x := by
        apply swept₂.keeps h₁ le (keeps₁ x live unexpired)
        rw [ban₁]
        exact unexpired
      have live₁' (x : BanId) (active : m.IpActive (kind.time now) ip x) : m₁.Live x := by
        obtain ⟨live, -, -, unexpired⟩ := active
        refine (live₁ x).mpr ⟨live, fun mem => ?_⟩
        rw [swept.expired x mem] at unexpired
        contradiction
      have active (x : BanId) (wanted : m.IpOfKind kind now ip x) :
          m.IpActive (kind.time now) ip x := by
        obtain ⟨⟨live, ipBit, key, unexpired⟩, bits⟩ := wanted
        rw [expired_kind h live bits] at unexpired
        exact ⟨live, ipBit, key, unexpired⟩
      rw [ban₁] at ipSpec ipBits
      cases ipBan with
      | some b =>
        obtain ⟨live, notSwept, ipBit, key, unexpired⟩ := ipSpec
        have liveM : m.Live b := ((live₁ b).mp live).1
        cases bits : kind.bits (m.ban b) with
        | true =>
          have wanted : Asked cfg m kind now sWhat b := by
            refine (asked b).mpr ⟨⟨liveM, ipBit, key, ?_⟩, bits⟩
            rw [expired_kind h liveM bits]
            exact unexpired
          refine iff_of_true ?_ fun fallsBack => fallsBack.1 b wanted
          exact removesAsked_remove h₂ ban keeps₂ wanted ((live₂ b).mpr ⟨live, notSwept⟩)
        | false =>
          -- the ban found has the other type, so there is none of the type to ask for
          have none_ (x : BanId) : ¬ Asked cfg m kind now sWhat x := by
            intro wanted
            have ofKind := (asked x).mp wanted
            have at_ := active x ofKind
            have other := ipBits b rfl bits x (live₁' x at_) at_.2.1 at_.2.2.1 at_.2.2.2
            rw [ofKind.2] at other
            contradiction
          refine iff_of_false (fun removes => ?_) fun holds => ?_
          · obtain ⟨x, wanted⟩ := removes.answer.mp rfl
            exact none_ x wanted
          · exact holds ⟨none_, ip, hash, b, liveM, ipBit, key, unexpired⟩
      | none =>
        have gone (x : BanId) : ¬ m.IpActive (kind.time now) ip x := by
          intro at_
          have expired := ipSpec x (live₁' x at_) at_.2.1 at_.2.2.1
          rw [at_.2.2.2] at expired
          contradiction
        have none_ (x : BanId) : ¬ Asked cfg m kind now sWhat x := fun wanted =>
          gone x (active x ((asked x).mp wanted))
        refine iff_of_true (removesAsked_none ban keeps₂ none_) ?_
        rintro ⟨-, ip', hash', b, at_⟩
        rw [hash] at hash'
        obtain rfl := Option.some.inj hash'
        exact gone b at_

end

/-- In every reachable store an unban by type removes what it is asked to exactly if it
does not fall back to a ban of the other type. -/
theorem typed_unban_iff (cfg : Config) (es : List Event) (kind : Kind) (now : Nat) (sWhat : Text) :
    RemovesAsked (reach cfg es) now (Asked cfg (reach cfg es) kind now sWhat)
        ((reach cfg es).unbanKind cfg kind now sWhat) ↔
      ¬ FallsBack cfg (reach cfg es) kind now sWhat := by
  apply unbanKind_iff cfg (inv_reach cfg es)
  cases kind with
  | temp => exact Int.le_refl _
  | perm => exact Int.natCast_nonneg _

/-- Every text that starts with 1 writes the one IP there is. -/
def oneIp : Config :=
  { Config.plain with hashIP := fun s => if startsWith s 49 then some 1 else none }

def bobIp : BanUser := ⟨ascii "<bob", ascii "1.1.1.1", 1⟩

/-- A permanent ban of an IP. -/
def permIpBan : List Event := [⟨0, .banIp (some bobIp) none none none false⟩]

/-- A temporary unban of the IP removes the permanent ban. -/
theorem tempUnban_removes_perm : ¬ ∀ (cfg : Config) (es : List Event) (kind : Kind) (now : Nat)
    (sWhat : Text), RemovesAsked (reach cfg es) now (Asked cfg (reach cfg es) kind now sWhat)
      ((reach cfg es).unbanKind cfg kind now sWhat) := by
  intro all
  have removes := all oneIp permIpBan .temp 1 (ascii "1.1.1.1")
  have lists : (reach oneIp permIpBan).tempBanList = [] ∧
      (reach oneIp permIpBan).permBanList = [0] := ⟨rfl, rfl⟩
  have perm : ((reach oneIp permIpBan).ban 0).temp = false := rfl
  have temp (b : BanId) (live : (reach oneIp permIpBan).Live b) :
      Kind.temp.bits ((reach oneIp permIpBan).ban b) = false := by
    rw [Live, lists.1, lists.2] at live
    obtain rfl : b = 0 := by simpa using live
    exact perm
  obtain ⟨b, wanted⟩ := removes.answer.mp rfl
  cases wanted with
  | inl ofNick =>
    have bits := temp b ofNick.1.1
    rw [ofNick.2] at bits
    contradiction
  | inr ofIp =>
    obtain ⟨-, ip, -, active, kind⟩ := ofIp
    have bits := temp b active.1
    rw [kind] at bits
    contradiction

end BanManager

end FlyHub.Ban
