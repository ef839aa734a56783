import FlyHub.Ban.Cover

/-!
# The ban that is new

An adder puts at most one new ban into the store. It has the nick, the address or both that
the adder was asked for.
-/

namespace FlyHub.Ban

namespace BanManager

/-- The ban has come in between. -/
def Added (m m' : BanManager) (b : BanId) : Prop := m'.Live b ∧ ¬ m.Live b

section
variable {cfg : Config} {m m₁ : BanManager} {now : Int} {b : BanId}
  {clash : BanItem → BanItem → Clash} {verdict : BanItem → BanItem → Verdict} {pBan : BanItem}
  {sReason sBy : Option Text}

theorem not_added_of_shrinks (shrinks : Shrinks m m₁) : ¬ Added m m₁ b := by
  intro added
  exact added.2 (shrinks.live b added.1)

theorem not_added_discard (item : BanItem) : ¬ Added m (m.discard item) b := by
  intro added
  exact added.2 added.1

theorem ban_of_added_store (shrinks : Shrinks m m₁) {item : BanItem}
    (added : Added m (m₁.store cfg.place item) b) : (m₁.store cfg.place item).ban b = item := by
  have new : b = m₁.next := by
    rcases (store_live cfg.place).mp added.1 with old | new
    · exact absurd (shrinks.live b old) added.2
    · exact new
  rw [new, store_ban, Function.update_self]

/-- The new ban comes out of the clash of nicks with its nick or without. -/
theorem NickOutcome.item_eq {item : BanItem}
    (outcome : NickOutcome clash now pBan m m₁ (some item)) :
    ∃ keep : Bool, item = { pBan with nick := pBan.nick && keep } := by
  cases outcome with
  | stripped => exact ⟨false, by simp⟩
  | both => exact ⟨true, by simp⟩
  | alone => exact ⟨true, by simp⟩

theorem added_addUser_item (h : Inv m) {u : BanUser}
    (added : Added m (m.addUser cfg now clash verdict u pBan sReason sBy) b) :
    ∃ item, (m.addUser cfg now clash verdict u pBan sReason sBy).ban b = describe item sReason sBy ∧
      ((∃ keep : Bool, item = { withNick pBan u with nick := (withNick pBan u).nick && keep }) ∨
        item = pBan.initIP u) := by
  obtain ⟨m₁, reduces, ⟨-, eq⟩ | ⟨item, m₂, next, scanned, eq⟩⟩ :=
    addUser_cases cfg h now clash verdict u pBan sReason sBy
  · rw [eq] at added
    exact absurd added (not_added_of_shrinks (reduces_shrinks h reduces))
  · rw [eq] at added ⊢
    have shrinks : Shrinks m m₂ :=
      (reduces_shrinks h reduces).trans (reduces_shrinks (inv_reduces h reduces) scanned)
    refine ⟨item, ban_of_added_store shrinks added, ?_⟩
    rcases next with ⟨-, outcome⟩ | ⟨-, same, -⟩
    · exact .inl outcome.item_eq
    · exact .inr same

theorem added_addUser (h : Inv m) {u : BanUser} (noNick : pBan.nick = false)
    (added : Added m (m.addUser cfg now clash verdict u pBan sReason sBy) b) :
    ((m.addUser cfg now clash verdict u pBan sReason sBy).ban b).ipHash = u.ipHash ∧
    (((m.addUser cfg now clash verdict u pBan sReason sBy).ban b).nick = true →
      ((m.addUser cfg now clash verdict u pBan sReason sBy).ban b).sNick = u.sNick) := by
  obtain ⟨item, eq, ⟨keep, rfl⟩ | rfl⟩ := added_addUser_item h added
  · rw [eq]
    exact ⟨rfl, fun _ => rfl⟩
  · rw [eq]
    refine ⟨rfl, fun nick => ?_⟩
    simp [describe, BanItem.initIP, noNick] at nick

theorem added_addNick_item (h : Inv m) (pBan : BanItem)
    (hash : pBan.nickHash = hashNick pBan.sNick)
    (added : Added m (m.addNick cfg now clash pBan sReason sBy).1 b) :
    ∃ keep : Bool, (m.addNick cfg now clash pBan sReason sBy).1.ban b =
      describe { pBan with nick := pBan.nick && keep } sReason sBy := by
  obtain ⟨m₁, reduces, ⟨-, eq⟩ | ⟨item, outcome, eq⟩⟩ :=
    addNick_cases cfg h now clash hash sReason sBy
  · rw [eq] at added
    exact absurd added (not_added_of_shrinks (reduces_shrinks h reduces))
  · rw [eq] at added ⊢
    obtain ⟨keep, same⟩ := outcome.item_eq
    subst same
    exact ⟨keep, ban_of_added_store (reduces_shrinks h reduces) added⟩

theorem added_addNick (h : Inv m) (pBan : BanItem) (hash : pBan.nickHash = hashNick pBan.sNick)
    (added : Added m (m.addNick cfg now clash pBan sReason sBy).1 b) :
    ((m.addNick cfg now clash pBan sReason sBy).1.ban b).ip = pBan.ip ∧
    ((m.addNick cfg now clash pBan sReason sBy).1.ban b).sNick = pBan.sNick := by
  obtain ⟨keep, eq⟩ := added_addNick_item h pBan hash added
  rw [eq]
  exact ⟨rfl, rfl⟩

theorem added_addIp (h : Inv m)
    (added : Added m (m.addIp cfg now verdict pBan sReason sBy).1 b) :
    (m.addIp cfg now verdict pBan sReason sBy).1.ban b = describe pBan sReason sBy := by
  obtain ⟨m₁, reduces, ⟨-, eq⟩ | eq⟩ := addIp_cases cfg h now verdict pBan sReason sBy
  · rw [eq] at added
    exact absurd added (not_added_of_shrinks (reduces_shrinks h reduces))
  · rw [eq] at added ⊢
    exact ban_of_added_store (reduces_shrinks h reduces) added

theorem targetNick_ip {p : BanItem} {pUser : Option BanUser} {sNick : Option Text}
    (target : targetNick pBan pUser sNick = some p) : p.ip = pBan.ip := by
  unfold targetNick at target
  cases pUser with
  | none =>
    cases sNick with
    | none => simp at target
    | some s =>
      simp only [Option.ite_none_left_eq_some, Option.some.injEq] at target
      rw [← target.2]
  | some u =>
    simp only [Option.ite_none_left_eq_some, Option.some.injEq] at target
    rw [← target.2]
    rfl

/-- What is new after an operation that bans nicks only. -/
structure NickAdded (m' : BanManager) (asked : Option Text) (b : BanId) : Prop where
  ip : (m'.ban b).ip = false
  sNick : asked = some (m'.ban b).sNick

theorem added_nickBan (h : Inv m) {pUser : Option BanUser} {sNick : Option Text}
    (added : Added m (m.nickBan cfg now pUser sNick sReason sBy).1 b) :
    NickAdded (m.nickBan cfg now pUser sNick sReason sBy).1 (askedNick pUser sNick) b := by
  have asked := targetNick_sNick { perm := true } pUser sNick
  unfold nickBan at added ⊢
  cases target : targetNick { perm := true } pUser sNick with
  | none =>
    simp only [target] at added
    exact absurd added (not_added_discard _)
  | some p =>
    simp only [target] at added asked ⊢
    obtain ⟨-, hash, -, -⟩ := targetNick_some target
    obtain ⟨ip, nick⟩ := added_addNick h _ hash added
    exact ⟨ip.trans (targetNick_ip target), by rw [nick, ← asked]; rfl⟩

theorem added_nickTempBan (h : Inv m) {pUser : Option BanUser} {sNick : Option Text}
    {minutes : UInt32} {expiretime : Int}
    (added : Added m (m.nickTempBan cfg now pUser sNick sReason sBy minutes expiretime).1 b) :
    NickAdded (m.nickTempBan cfg now pUser sNick sReason sBy minutes expiretime).1
      (askedNick pUser sNick) b := by
  have asked := targetNick_sNick { temp := true } pUser sNick
  unfold nickTempBan at added ⊢
  cases target : targetNick { temp := true } pUser sNick with
  | none =>
    simp only [target] at added
    exact absurd added (not_added_discard _)
  | some p =>
    simp only [target] at added asked ⊢
    obtain ⟨-, hash, -, -⟩ := targetNick_some target
    obtain ⟨ip, nick⟩ := added_addNick h _ (by exact hash) added
    exact ⟨ip.trans (targetNick_ip target), by rw [nick, ← asked]; rfl⟩

theorem askedNick_some {pUser : Option BanUser} {sNick : Option Text} {s : Text}
    (asked : askedNick pUser sNick = some s) : (pUser.map BanUser.sNick).or sNick = some s :=
  (Option.filter_eq_some_iff.mp asked).1

/-- All that is new has the nick of this user, its address or both. -/
def NewOf (u : BanUser) (m m' : BanManager) : Prop :=
  ∀ b, Added m m' b → ((m'.ban b).nick = true → (m'.ban b).sNick = u.sNick) ∧
    ((m'.ban b).ip = true → (m'.ban b).ipHash = u.ipHash)

variable (cfg) (now) (sReason sBy)

theorem newOf_banUser (h : Inv m) (u : BanUser) (bFull : Bool) :
    NewOf u m (m.banUser cfg now u sReason sBy bFull) := by
  intro b added
  obtain ⟨ip, nick⟩ := added_addUser h rfl added
  exact ⟨nick, fun _ => ip⟩

theorem newOf_tempBan (h : Inv m) (u : BanUser) (minutes : UInt32) (expiretime : Int)
    (bFull : Bool) : NewOf u m (m.tempBan cfg now u sReason sBy minutes expiretime bFull) := by
  intro b added
  obtain ⟨ip, nick⟩ := added_addUser h rfl added
  exact ⟨nick, fun _ => ip⟩

theorem NickAdded.of {u : BanUser} (new : NickAdded m₁ (askedNick (some u) none) b) :
    ((m₁.ban b).nick = true → (m₁.ban b).sNick = u.sNick) ∧
      ((m₁.ban b).ip = true → (m₁.ban b).ipHash = u.ipHash) := by
  have nick := askedNick_some new.sNick
  exact ⟨fun _ => (Option.some.inj nick).symm, fun ip => absurd ip (by simp [new.ip])⟩

theorem newOf_nickBan (h : Inv m) (u : BanUser) :
    NewOf u m (m.nickBan cfg now (some u) none sReason sBy).1 :=
  fun _ added => (added_nickBan h added).of

theorem newOf_nickTempBan (h : Inv m) (u : BanUser) (minutes : UInt32) (expiretime : Int) :
    NewOf u m (m.nickTempBan cfg now (some u) none sReason sBy minutes expiretime).1 :=
  fun _ added => (added_nickTempBan h added).of

end

end BanManager

end FlyHub.Ban
