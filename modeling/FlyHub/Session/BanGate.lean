import FlyHub.Ban.Cover
import FlyHub.Session.Password

/-!
# Bans at the login

A connection from a banned address is refused when it comes or carries the ban
along. With the ban it gets a nick only under a registration that is let in
from banned addresses, but for one exit that drops the ban and nothing else.
-/

namespace FlyHub.Session

open FlyHub.Ban FlyHub.Lib

namespace Hub

/-- The registration of a nick is let in from banned addresses. -/
def isExempt (cfg : Config) (h : Hub) (nick : Text) : Bool :=
  (h.findReg nick).any fun r => cfg.profiles.isProfileAllowed r.profile.toNat .enterIfIpBan

/-- The nick with such a registration that the action validates for `c`. -/
def exemptNick (cfg : Config) (c : UserId) (h : Hub) (a : Action) : Option Text :=
  match namedNick cfg h a with
  | some (d, nick) => if d = c && h.isExempt cfg nick then some nick else none
  | none => none

/-- `ValidateUserNick` drops the ban of `c` and leaves it at that: the nick is let in
from banned addresses, and its holder turns out to have a dead socket. -/
def deadExit (cfg : Config) (c : UserId) (h : Hub) (a : Action) : Bool :=
  match exemptNick cfg c h a, a with
  | some nick, .command _ _ answers =>
    answers.deadSocket && h.HeldLive nick && h.admits cfg c answers nick
  | _, _ => false

/-- All nicks let in from banned addresses that `c` has named in a run. -/
def exemptNicks (cfg : Config) (c : UserId) (h : Hub) (es : List Event) : List Text :=
  trace (step cfg) (fun h e => (h.advance e).exemptNick cfg c e.action) h es

/-- When `c` is in the index or logged in after the run, it has entered under one of
these nicks. -/
def EntersExempt (cfg : Config) (c : UserId) (h : Hub) (es : List Event) : Prop :=
  ((run (step cfg) h es).users c).hashed = true ∨
    ((run (step cfg) h es).users c).state.isLoggedIn = true →
  ((run (step cfg) h es).users c).sNick ∈ exemptNicks cfg c h es

/-- The event is not that exit. -/
def NoDeadExit (cfg : Config) (c : UserId) (h : Hub) (e : Event) : Prop :=
  deadExit cfg c (h.advance e) e.action = false

instance (cfg : Config) (c : UserId) (h : Hub) (e : Event) : Decidable (NoDeadExit cfg c h e) :=
  inferInstanceAs (Decidable (_ = _))

/-- The ban is held as long as the user has no nick; what the user enters under is
one of the nicks named. -/
structure Gated (named : List Text) (l : Login) : Prop where
  hashed : l.hashed = true → l.sNick ∈ named
  entered : l.state.isPastLogin = false → UserState.validate.toNat < l.state.toNat → l.sNick ∈ named
  held : l.state.toNat ≤ UserState.validate.toNat → l.pBan.isSome = true ∧ l.hashed = false

section
variable {cfg : Config} {h₀ x y : Hub} {a : Action} {c d : UserId}

/-! ## The ban store of the hub -/

/-- An action does to the bans what some operations on them do. -/
theorem Move.bansRun (move : Move cfg h₀ a x y) :
    ∃ es, y.bans = run (BanManager.step cfg.ban) x.bans es := by
  cases move with
  | bans es => exact ⟨es, rfl⟩
  | opChat c msgs | pingerLists c msgs | roundSend c msgs => exact ⟨[], (same_sendAll msgs).bans⟩
  | flush c => exact ⟨[], same_flush.bans⟩
  | shut c f msgs => exact ⟨[], (closeWith_bans false).trans (same_sendAll msgs).bans⟩
  | deadSocket c other => exact ⟨[], closeWith_bans false⟩
  | pass c r password items =>
    refine ⟨[], ?_⟩
    unfold takeNick
    split
    · rfl
    · dsimp only
      cases findUser (x.passed cfg c r items) ((x.passed cfg c r items).users c).sNick with
      | none => rfl
      | some other => exact closeWith_bans _
  | reg change =>
    cases change with
    | add r | change r | delete r => exact ⟨[], (same_modifyOnline r.sNick _).bans⟩
    | self => exact ⟨[], rfl⟩
  | keyLost c => exact ⟨[], same_tellKeyLost.bans⟩
  | enlist c => exact ⟨[], same_enlist.bans⟩
  | refresh c due => exact ⟨[], (same_refresh due).bans⟩
  | _ => exact ⟨[], rfl⟩

/-- The bans are those of a store that is used by its operations only. -/
structure BansReached (cfg : Config) (h : Hub) : Prop where
  wf : WellFormed h
  bans : ∃ es, h.bans = BanManager.reach cfg.ban es

theorem step_bansReached (reached : BansReached cfg x) (e : Event) :
    BansReached cfg (step cfg x e) where
  wf := step_wellFormed reached.wf e
  bans := by
    refine (act_moves cfg (advance_wellFormed reached.wf e) e.action).invariant
      (P := fun z => ∃ es, z.bans = BanManager.reach cfg.ban es) (fun z z' before move => ?_)
      reached.bans
    obtain ⟨es, eq⟩ := before
    obtain ⟨es', eq'⟩ := move.bansRun
    refine ⟨es ++ es', ?_⟩
    rw [eq', eq]
    exact (run_append ..).symm

theorem reach_bans (cfg : Config) (regs : RegManager) (es : List Event) :
    BansReached cfg (reach cfg regs es) :=
  run_invariant (BansReached cfg) (fun _ e reached => step_bansReached reached e) es
    ⟨start_wellFormed regs, [], rfl⟩

theorem BansReached.inv (reached : BansReached cfg x) : x.bans.Inv := by
  obtain ⟨es, eq⟩ := reached.bans
  rw [eq]
  exact BanManager.inv_reach cfg.ban es

/-! ## A connection comes -/

theorem acceptUser_full (inv : x.bans.Inv) (sIP : Text) {ip : IpHash} (ipv6 : Bool)
    (full : x.bans.Covers x.clock ip true) :
    ∃ bans, x.acceptUser sIP ip ipv6 = x.setBans bans := by
  obtain ⟨ban, ranges⟩ := BanManager.findFull_keeps x.clock ip inv
  unfold acceptUser
  dsimp only
  split
  · exact ⟨_, rfl⟩
  · rename_i notFull
    rcases full with banned | ⟨r, mem, covers, level, unexpired⟩
    · obtain ⟨b, found, full⟩ := BanManager.findFull_full inv banned
      simp [found, setBans, ban, full] at notFull
    · obtain ⟨r', found, full⟩ := BanManager.findFullRange_full
        (m := (x.bans.findFull ip x.clock).1) (by rw [ranges]; exact mem) covers (level rfl) unexpired
      rw [if_pos]
      · exact ⟨_, rfl⟩
      · simp [setBans, found, full]

theorem acceptUser_covered (inv : x.bans.Inv) (sIP : Text) {ip : IpHash} (ipv6 : Bool)
    (covered : x.bans.Covers x.clock ip false) :
    ∃ bans, x.acceptUser sIP ip ipv6 = x.setBans bans ∨
      ∃ u, x.acceptUser sIP ip ipv6 = (x.setBans bans).newUser u ∧ u.pBan.isSome = true ∧
        u.state = .socketAccepted ∧ u.hashed = false := by
  obtain ⟨ban, ranges⟩ := BanManager.findFull_keeps x.clock ip inv
  unfold acceptUser
  dsimp only
  split
  · exact ⟨_, .inl rfl⟩
  split
  · exact ⟨_, .inl rfl⟩
  · refine ⟨_, .inr ⟨_, rfl, ?_, rfl, rfl⟩⟩
    rcases covered with banned | ⟨r, mem, covers, -, unexpired⟩
    · obtain ⟨b, found⟩ := Option.isSome_iff_exists.mp (BanManager.findFull_some inv banned)
      simp [found]
    · have found := BanManager.findFullRange_some
        (m := (x.bans.findFull ip x.clock).1) (by rw [ranges]; exact mem) covers unexpired
      obtain ⟨r', found⟩ := Option.isSome_iff_exists.mp found
      cases (x.bans.findFull ip x.clock).2 <;> simp [setBans, found]

/-! ## The login -/

theorem isExempt_of_exempt (same : SameProfiles h₀ x) {nick : Text} {r : RegUser}
    (reg : x.findReg nick = some r) (exempt : Exempt cfg r) : h₀.isExempt cfg nick = true := by
  have profile := same nick
  unfold isExempt
  cases found : h₀.findReg nick with
  | none => simp [reg, found, regProfile] at profile
  | some r₀ =>
    rw [reg, found] at profile
    simp only [regProfile] at profile
    simpa [← profile, Exempt] using exempt

theorem Gated.mono {named named' : List Text} {l : Login} (gated : Gated named l)
    (grows : named ⊆ named') : Gated named' l where
  hashed := fun hashed => grows (gated.hashed hashed)
  entered := fun live late => grows (gated.entered live late)
  held := gated.held

/-- Whoever has a nick from among those named. -/
theorem Gated.of_late {named : List Text} {l : Login} (st : UserState) (member : l.sNick ∈ named)
    (state : l.state = st) (late : UserState.validate.toNat < st.toNat) : Gated named l where
  hashed := fun _ => member
  entered := fun _ _ => member
  held := fun early => by
    rw [state] at early
    exact absurd late (Nat.not_lt.mpr early)

/-- A step of a gated user, among whose nicks is the exempt one it names. -/
theorem LoginStep.gated {l l' : Login} {named : List Text}
    (step : LoginStep cfg h₀ a x y d l l') (old : Old x y d) (gated : Gated named l)
    (exit : deadExit cfg d h₀ a = false)
    (same : ∀ nick, namedNick cfg h₀ a = some (d, nick) → SameProfiles h₀ x)
    (exempt : ∀ nick, exemptNick cfg d h₀ a = some nick → nick ∈ named) : Gated named l' := by
  have held_ (validate : l.state = .validate) : l.pBan ≠ none ∧ l.hashed = false := by
    have held := gated.held (Nat.le_of_eq (congrArg UserState.toNat validate))
    exact ⟨fun none => by simp [none] at held, held.2⟩
  have named_ {r : RegUser} (name : namedNick cfg h₀ a = some (d, l.sNick))
      (reg : x.findReg l.sNick = some r) (allowed : Exempt cfg r) :
      exemptNick cfg d h₀ a = some l.sNick := by
    simp [exemptNick, name, isExempt_of_exempt (same _ name) reg allowed]
  cases step with
  | stay => exact gated
  | fresh _ event new grown =>
    rw [old new] at grown
    exact absurd grown (Nat.ne_of_lt (Nat.lt_succ_self _))
  | shut _ past nick ip hashed =>
    constructor
    · rw [hashed, nick]
      exact gated.hashed
    · intro live
      simp [past] at live
    · intro early
      cases state : l'.state <;> simp_all [UserState.isPastLogin, UserState.toNat]
  | handshake st pinger early stays =>
    constructor
    · exact gated.hashed
    · intro live late
      exact absurd late (Nat.not_lt.mpr stays)
    · intro _
      exact gated.held early
  | name nick validate =>
    constructor
    · intro hashed
      exact absurd hashed (by simp [(held_ validate).2])
    · intro live late
      rw [validate] at late
      exact absurd late (Nat.lt_irrefl _)
    · exact gated.held
  | enterFree validate name free unbanned => exact absurd unbanned (held_ validate).1
  | helloLater validate name hashed =>
    rw [(held_ validate).2] at hashed
    exact absurd hashed (by simp)
  | ask r hashed validate name reg open_ passes =>
    have member : l.sNick ∈ named :=
      exempt _ (named_ name reg (passes.resolve_left (held_ validate).1))
    exact .of_late .versionOrMyPass member rfl (by decide)
  | deadSocket validate name held dead passes =>
    obtain ⟨r, reg, allowed⟩ := passes.resolve_left (held_ validate).1
    obtain ⟨cmd, answers, rfl, dead, admits⟩ := dead
    simp [deadExit, named_ name reg allowed, dead, held, admits] at exit
  | version state =>
    have member := gated.entered (by rw [state]; rfl) (by rw [state]; decide)
    exact .of_late .getNickListOrMyInfo member rfl (by decide)
  | addMe st early late name hashed done user next =>
    have member := gated.hashed hashed
    rcases next with rfl | rfl
    · exact .of_late .ipv4Check member rfl (by decide)
    · exact .of_late .addMe member rfl (by decide)
  | added state =>
    have member := gated.entered (by rw [state]; rfl) (by rw [state]; decide)
    exact .of_late .added member rfl (by decide)
  | advance st loggedIn stays =>
    have member := gated.entered (UserState.live_of_isLoggedIn loggedIn)
      (UserState.late_of_isLoggedIn loggedIn)
    exact .of_late st member rfl (UserState.late_of_isLoggedIn stays)
  | pass r password state =>
    have member := gated.entered (by rw [state]; rfl) (by rw [state]; decide)
    exact .of_late .versionOrMyPass member state (by decide)
  | unwait | grant | askReg => exact ⟨gated.hashed, gated.entered, gated.held⟩

/-- What holds of a hub after `c` has named the nicks. -/
structure GateInv (c : UserId) (h : Hub) (named : List Text) : Prop where
  wf : WellFormed h
  born : c < h.nextUser
  gated : Gated named (h.users c).login

theorem act_gateInv {named : List Text} (inv : GateInv c x named) (a : Action)
    (exit : deadExit cfg c x a = false) :
    GateInv c (x.act cfg a) (named ++ (exemptNick cfg c x a).toList) := by
  have grown : GateInv c x (named ++ (exemptNick cfg c x a).toList) :=
    ⟨inv.wf, inv.born, inv.gated.mono (List.subset_append_left _ _)⟩
  have both : Moves cfg x a x (x.act cfg a) ∧
      GateInv c (x.act cfg a) (named ++ (exemptNick cfg c x a).toList) := by
    refine (act_moves cfg inv.wf a).invariant
      (P := fun z => Moves cfg x a x z ∧ GateInv c z (named ++ (exemptNick cfg c x a).toList))
      (fun z z' now move => ?_) ⟨.refl, grown⟩
    have old : Old z z' c := fun new => absurd new (Nat.ne_of_lt now.2.born)
    refine ⟨now.1.tail move, move.wellFormed now.2.wf, ?_, ?_⟩
    · cases move.born with
      | inl same => exact same ▸ now.2.born
      | inr grown =>
        rw [grown]
        exact Nat.lt_succ_of_lt now.2.born
    · apply (move.login c).gated old now.2.gated exit
      · intro nick name
        exact now.1.sameProfiles name
      · intro nick name
        simp [name]
  exact both.2

theorem step_gateInv {named : List Text} (inv : GateInv c x named) (e : Event)
    (keeps : NoDeadExit cfg c x e) :
    GateInv c (step cfg x e) (named ++ ((x.advance e).exemptNick cfg c e.action).toList) :=
  act_gateInv ⟨advance_wellFormed inv.wf e, inv.born, inv.gated⟩ e.action keeps

/-- The connection that has come with a ban. -/
theorem newUser_gateInv (reached : BansReached cfg x) {sIP : Text} {ip : IpHash} {ipv6 : Bool}
    (covered : x.bans.Covers x.clock ip false)
    (taken : x.nextUser < (x.acceptUser sIP ip ipv6).nextUser) :
    GateInv x.nextUser (x.acceptUser sIP ip ipv6) [] where
  wf := act_wellFormed cfg reached.wf (.accept sIP ip ipv6)
  born := taken
  gated := by
    obtain ⟨bans, refused | ⟨u, accepted, ban, state, new⟩⟩ :=
      acceptUser_covered reached.inv sIP ipv6 covered
    · rw [refused] at taken
      exact absurd taken (Nat.lt_irrefl _)
    · have user : (x.acceptUser sIP ip ipv6).users x.nextUser = u := by
        rw [accepted]
        exact Function.update_self ..
      rw [user]
      constructor
      · intro hashed
        exact absurd hashed (by simp [User.login, new])
      · intro live late
        exact absurd late (by rw [User.login, state]; exact Nat.not_lt_zero _)
      · exact fun _ => ⟨ban, new⟩

/-- A connection from a banned address is refused if the ban is FULL, and otherwise
comes to nothing but under a nick that is let in, as long as it does not take the exit
that drops its ban. -/
structure BanEnforced (cfg : Config) (h : Hub) (e : Event) (ip : IpHash) : Prop where
  full : h.bans.Covers (h.advance e).clock ip true →
    (step cfg h e).users = h.users ∧ (step cfg h e).nextUser = h.nextUser
  plain : h.bans.Covers (h.advance e).clock ip false → h.nextUser < (step cfg h e).nextUser →
    ∀ es, Allowed (step cfg) (NoDeadExit cfg h.nextUser) (step cfg h e) es →
      EntersExempt cfg h.nextUser (step cfg h e) es

/-- The profile 2 is let in from banned addresses. -/
def guarded : Config :=
  { Config.plain with profiles := fun profile option => profile = 2 && option = .enterIfIpBan }

/-- Bob is online, and the address 5 is banned. -/
def addressBanned : List Event :=
  arrival 0 (ascii "$Supports QuickList|") ++ [bobNames, ⟨0, .command 0 (ascii "$MyPass pass|") {}⟩,
    ⟨0, .ban (.banIp (some ⟨[], [], 5⟩) none none none false)⟩]

/-- A connection from the address asks for the nick of Bob, whose socket is dead, and
then comes in as Ann. -/
def annFollows : List Event :=
  [⟨0, .receive 1 {}⟩, ⟨0, .command 1 (ascii "$Supports QuickList|") {}⟩,
    ⟨0, .command 1 (ascii "$MyINFO $ALL Bob x$ $56K$$0$|") { deadSocket := true }⟩,
    ⟨0, .command 1 (ascii "$MyINFO $ALL ann x$ $56K$$0$|") {}⟩]

end

end Hub

end FlyHub.Session
