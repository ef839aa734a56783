import FlyHub.Session.Index

/-!
# Profiles follow registrations

A logged-in user has the profile of its registration, and the key only by its
profile, as long as every operation on the registrations finds the users it
concerns under the one spelling it looks for.
-/

namespace FlyHub.Session

open FlyHub.Ban FlyHub.Lib

/-- The profile of this login has been settled: a password, if one was asked for,
has been given. A pinger comes to nothing. -/
def Login.settles (l : Login) : Bool :=
  l.state.isLoggedIn || !l.state.isPastLogin && l.hashed && !l.waitingForPass && !l.pinger

namespace Hub

section
variable {cfg : Config} {h₀ x y : Hub} {a : Action} {c d : UserId}

/-- The login has the profile that the registrations say. -/
structure Follows (cfg : Config) (x : Hub) (l : Login) : Prop where
  profile : l.settles = true → l.profile = regProfile (x.findReg l.sNick)
  operator : l.settles = true → l.operator = cfg.profiles.isProfileAllowed l.profile .hasKeyIcon
  none : l.state.isPastLogin = false → l.hashed = false → l.profile = -1 ∧ l.operator = false

/-- The registrations of `y` give the profiles of those of `x`. -/
def SameProfiles (x y : Hub) : Prop :=
  ∀ nick, regProfile (y.findReg nick) = regProfile (x.findReg nick)

/-! ## The login alone -/

theorem settles_of_loggedIn {l : Login} (loggedIn : l.state.isLoggedIn = true) :
    l.settles = true := by
  simp [Login.settles, loggedIn]

theorem not_settles_of_past {l : Login} (past : l.state.isPastLogin = true) :
    l.settles = false := by
  cases state : l.state <;>
    simp_all [Login.settles, UserState.isPastLogin, UserState.isLoggedIn, UserState.toNat]

theorem settles_live {l : Login} (settles : l.settles = true) : l.state.isPastLogin = false := by
  cases past : l.state.isPastLogin with
  | false => rfl
  | true => rw [not_settles_of_past past] at settles; simp at settles

/-- Before the end of the login it is settled by a name and no open question. -/
theorem settles_early {l : Login} (early : l.state.toNat ≤ UserState.getNickListOrMyInfo.toNat) :
    l.settles = (l.hashed && !l.waitingForPass && !l.pinger) := by
  cases state : l.state <;>
    simp_all [Login.settles, UserState.isPastLogin, UserState.isLoggedIn, UserState.toNat]

/-- The registrations may change as long as nobody's profile does. -/
theorem Follows.of_same {l : Login} (follows : Follows cfg x l) (same : SameProfiles x y) :
    Follows cfg y l where
  profile := fun settles => (follows.profile settles).trans (same l.sNick).symm
  operator := follows.operator
  none := follows.none

/-- A login that is settled no earlier and has the same profile and nick. -/
theorem Follows.congr {l l' : Login} (follows : Follows cfg x l)
    (settled : l'.settles = true → l.settles = true) (nick : l'.sNick = l.sNick)
    (profile : l'.profile = l.profile) (operator : l'.operator = l.operator)
    (unnamed : l'.state.isPastLogin = false → l'.hashed = false →
      l.state.isPastLogin = false ∧ l.hashed = false) : Follows cfg x l' where
  profile := fun settles => by rw [profile, nick, follows.profile (settled settles)]
  operator := fun settles => by rw [operator, profile, follows.operator (settled settles)]
  none := fun live new => by
    rw [profile, operator]
    exact follows.none (unnamed live new).1 (unnamed live new).2

theorem Follows.of_past {l : Login} (past : l.state.isPastLogin = true) : Follows cfg x l where
  profile := fun settles => by simp [not_settles_of_past past] at settles
  operator := fun settles => by simp [not_settles_of_past past] at settles
  none := fun live => by simp [past] at live

/-- A step of a login that changes no registration keeps it to its profile. -/
theorem LoginStep.follows {l l' : Login} (step : LoginStep cfg h₀ a x y d l l')
    (once : namesOnce cfg h₀ a = true) (follows : Follows cfg x l) :
    Follows cfg x l' ∨ RegChange cfg h₀ a x y := by
  cases step with
  | grant profile operator change => exact .inr change
  | stay => exact .inl follows
  | shut _ past => exact .inl (.of_past past)
  | fresh _ event new grown state hashed waiting profile operator =>
    left
    have unsettled : l'.settles = false := by
      rw [settles_early (by rw [state]; decide), hashed]
      rfl
    exact ⟨fun settles => by simp [unsettled] at settles,
      fun settles => by simp [unsettled] at settles, fun _ _ => ⟨profile, operator⟩⟩
  | handshake st pinger early stays grows =>
    left
    refine follows.congr (fun settles => ?_) rfl rfl rfl fun _ new =>
      ⟨early_live (Nat.le_trans early (by decide)), new⟩
    rw [settles_early (Nat.le_trans stays (by decide))] at settles
    rw [settles_early (Nat.le_trans early (by decide))]
    cases pinger with
    | true => simp at settles
    | false =>
      have user : l.pinger = false := by
        cases now : l.pinger with
        | false => rfl
        | true => exact absurd (grows now) (by simp)
      simpa [user] using settles
  | name nick validate named legal same =>
    left
    have early : l.state.toNat ≤ UserState.getNickListOrMyInfo.toNat := by rw [validate]; decide
    by_cases hashed : l.hashed = true
    · have own : nick = l.sNick := by
        have hashed₀ : (h₀.users d).hashed = true := (congrArg Login.hashed same).symm.trans hashed
        have nick₀ : (h₀.users d).sNick = l.sNick := (congrArg Login.sNick same).symm
        rw [← nick₀]
        simpa [namesOnce, named, hashed₀, legal] using once
      exact follows.congr (fun settles => settles) own rfl rfl fun live new => ⟨live, new⟩
    · have new : l.hashed = false := Bool.eq_false_iff.mpr hashed
      have unsettled : ({ l with sNick := nick } : Login).settles = false :=
        (settles_early early).trans (by simp [new])
      exact ⟨fun settles => by simp [unsettled] at settles,
        fun settles => by simp [unsettled] at settles, follows.none⟩
  | enterFree validate named free unbanned =>
    left
    have early : l.state.toNat ≤ UserState.getNickListOrMyInfo.toNat := by rw [validate]; decide
    by_cases hashed : l.hashed = true
    · refine follows.congr (fun settles => ?_) rfl rfl rfl fun _ new => by simp at new
      have now : ({ l with hashed := true } : Login).settles = _ := settles_early early
      rw [now] at settles
      rw [settles_early early]
      simpa [hashed] using settles
    · have unnamed := follows.none (early_live early) (Bool.eq_false_iff.mpr hashed)
      constructor
      · intro _
        rw [free]
        exact unnamed.1
      · intro _
        rw [unnamed.1, unnamed.2]
        rfl
      · exact fun _ new => by simp at new
  | helloLater validate named hashed free =>
    left
    refine follows.congr (fun settles => ?_) rfl rfl rfl fun _ new => by simp [hashed] at new
    rw [settles_early (by rw [validate]; decide)]
    rw [settles_early (by dsimp only; decide)] at settles
    exact settles
  | ask r hashed validate named reg open_ passes grows =>
    left
    have unsettled : ({ l with
        pBan := none, hashed := hashed, state := .versionOrMyPass, waitingForPass := true } :
        Login).settles = false := by
      rw [settles_early (by dsimp only; decide)]
      simp
    refine ⟨fun settles => by simp [unsettled] at settles,
      fun settles => by simp [unsettled] at settles, fun _ new => ?_⟩
    apply follows.none
    · rw [validate]
      rfl
    · cases before : l.hashed with
      | false => rfl
      | true => exact absurd (grows before) (by simp [show hashed = false from new])
  | deadSocket =>
    exact .inl (follows.congr (fun settles => settles) rfl rfl rfl fun live new => ⟨live, new⟩)
  | version state =>
    left
    refine follows.congr (fun settles => ?_) rfl rfl rfl fun _ new => ⟨by rw [state]; rfl, new⟩
    rw [settles_early (by rw [state]; decide)]
    rw [settles_early (Nat.le_refl _)] at settles
    exact settles
  | addMe st early late named hashed done user =>
    left
    refine follows.congr (fun settles => ?_) rfl rfl rfl fun _ new => by simp [hashed] at new
    rw [settles_early late]
    simp [hashed, done, user]
  | added state =>
    left
    exact follows.congr (fun _ => settles_of_loggedIn (by rw [state]; rfl)) rfl rfl rfl
      fun _ new => ⟨by rw [state]; rfl, new⟩
  | advance st loggedIn =>
    left
    refine follows.congr (fun _ => settles_of_loggedIn loggedIn) rfl rfl rfl fun _ new => ⟨?_, new⟩
    exact settles_live (settles_of_loggedIn loggedIn)
  | unwait state =>
    left
    exact follows.congr (fun _ => settles_of_loggedIn (by rw [state]; rfl)) rfl rfl rfl
      fun live new => ⟨live, new⟩
  | pass r password state compared right reg =>
    left
    constructor
    · intro _
      rw [reg]
      rfl
    · exact fun _ => rfl
    · exact fun _ new => by simp at new
  | askReg event =>
    left
    refine follows.congr (fun settles => ?_) rfl rfl rfl fun live new => ⟨live, new⟩
    simp only [Login.settles, Bool.not_true, Bool.and_false, Bool.or_false, Bool.false_and] at settles
    exact settles_of_loggedIn settles

/-! ## The registrations -/

/-- Whoever has a settled login under the nick that a registration is looked up
for has it in this spelling. -/
def spelled (cfg : Config) (h : Hub) (a : Action) : Bool :=
  match h.regLookup cfg a with
  | some nick => (List.range h.nextUser).all fun d =>
      let u := h.users d
      !u.login.settles || !iequals u.sNick nick || u.sNick = nick
  | none => true

/-- A user that gives itself a profile is not registered with another one. -/
def selfFits (cfg : Config) (h : Hub) (a : Action) : Bool :=
  match h.selfProfile cfg a with
  | some (c, profile) => (h.regLookup cfg a).isSome ||
      regProfile (h.findReg (h.users c).sNick) = profile.toNat
  | none => true

theorem settles_of_sameUsers (same : SameUsers h₀ x) (settles : (x.users d).login.settles = true) :
    (h₀.users d).login.settles = true ∧ (x.users d).sNick = (h₀.users d).sNick := by
  cases same d with
  | inl eq =>
    rw [eq] at settles ⊢
    exact ⟨settles, rfl⟩
  | inr waited =>
    obtain ⟨state, eq⟩ := waited
    rw [eq]
    exact ⟨settles_of_loggedIn (by simp [User.login, state]; rfl), rfl⟩

/-- A settled user of the nick is the one found under the spelling looked up. -/
theorem found_of_spelled (wf₀ : WellFormed h₀) (wf : WellFormed x) (index : x.Indexed) {nick : Text}
    (spells : h₀.spelled cfg a = true) (looked : regLookup cfg h₀ a = some nick)
    (same : SameUsers h₀ x) (settles : (x.users d).login.settles = true)
    (eq : iequals (x.users d).sNick nick = true) : x.findUser nick = some d := by
  obtain ⟨settles₀, nick₀⟩ := settles_of_sameUsers same settles
  have born : d < h₀.nextUser := by
    apply Nat.lt_of_not_le
    intro unborn
    have past := (wf₀.unborn d unborn).1
    have live := settles_live settles₀
    exact absurd (past.symm.trans live) (by simp)
  have spelling : (x.users d).sNick = nick := by
    unfold spelled at spells
    rw [looked] at spells
    have one := List.all_eq_true.mp spells d (List.mem_range.mpr born)
    rw [nick₀] at eq ⊢
    simpa [settles₀, eq] using one
  have live := settles_live settles
  have hashed : (x.users d).hashed = true := by
    cases loggedIn : (x.users d).state.isLoggedIn with
    | true => exact (loggedIn_online wf loggedIn).2
    | false =>
      have open_ : (!(x.users d).state.isPastLogin && (x.users d).hashed &&
          !(x.users d).waitingForPass && !(x.users d).pinger) = true := by
        simpa [Login.settles, User.login, loggedIn] using settles
      simp only [Bool.and_eq_true] at open_
      exact open_.1.1.2
  exact (index.nick nick d).mpr ⟨⟨live, hashed⟩, spelling⟩

/-- The one found online has the nick. -/
theorem nick_of_found (index : x.Indexed) {nick : Text} (found : x.findUser nick = some d) :
    (x.users d).sNick = nick := ((index.nick nick d).mp found).2

/-- Every login has the profile the registrations say. -/
def ProfilesRight (cfg : Config) (h : Hub) : Prop := ∀ c, Follows cfg h (h.users c).login

/-- A change of the registration of one nick, carried over to the user online. -/
theorem follows_of_lookup {nick : Text} {f : User → User} (wf₀ : WellFormed h₀)
    (wf : WellFormed x) (index : x.Indexed) (right : ProfilesRight cfg x)
    (spells : h₀.spelled cfg a = true) (looked : regLookup cfg h₀ a = some nick)
    (same : SameUsers h₀ x) (users : y.users = (x.modifyOnline nick f).users)
    (others : ∀ n, iequals n nick = false → y.findReg n = x.findReg n)
    (kept : ∀ u, ∃ p o, (f u).login = { u.login with profile := p, operator := o })
    (granted : ∀ u : User, u.sNick = nick → Follows cfg x u.login → u.login.settles = true →
      (f u).profile = regProfile (y.findReg nick) ∧
        (f u).operator = cfg.profiles.isProfileAllowed (f u).profile .hasKeyIcon) :
    ProfilesRight cfg y := by
  intro d
  rw [users]
  by_cases found : x.findUser nick = some d
  · rw [modifyOnline_self f found]
    obtain ⟨p, o, eq⟩ := kept (x.users d)
    have own := nick_of_found index found
    have nick' : (f (x.users d)).sNick = nick := (congrArg Login.sNick eq).trans own
    have settles' (settles : (f (x.users d)).login.settles = true) :
        (x.users d).login.settles = true := by
      rw [eq] at settles
      exact settles
    constructor
    · intro settles
      have profile := (granted _ own (right d) (settles' settles)).1
      exact profile.trans (by rw [show (f (x.users d)).login.sNick = nick from nick'])
    · exact fun settles => (granted _ own (right d) (settles' settles)).2
    · intro _ new
      have hashed := ((index.nick nick d).mp found).1.2
      have same : (f (x.users d)).hashed = (x.users d).hashed := congrArg Login.hashed eq
      exact absurd (same.symm.trans new) (by simp [hashed])
  · rw [modifyOnline_other f found]
    constructor
    · intro settles
      have differs : iequals (x.users d).sNick nick = false := by
        apply Bool.eq_false_iff.mpr
        intro eq
        exact found (found_of_spelled wf₀ wf index spells looked same settles eq)
      have reg : y.findReg (x.users d).login.sNick = x.findReg (x.users d).login.sNick :=
        others _ differs
      rw [reg]
      exact (right d).profile settles
    · exact (right d).operator
    · exact (right d).none

theorem findReg_setReg_self {r : RegUser} : (x.setReg r).findReg r.sNick = some r := by
  unfold setReg findReg
  rw [RegManager.find_put, iequals_refl, if_pos rfl]

theorem findReg_setReg_other {r : RegUser} {n : Text} (differs : iequals n r.sNick = false) :
    (x.setReg r).findReg n = x.findReg n := by
  unfold setReg findReg
  rw [RegManager.find_put, differs]
  rfl

/-- A registration brought up to date in place gives the same profile. -/
theorem sameProfiles_setReg {r s : RegUser} {nick : Text} (found : x.findReg nick = some s)
    (same : r.sNick = s.sNick) (profile : r.profile = s.profile) :
    SameProfiles x (x.setReg r) := by
  intro other
  unfold setReg findReg at *
  rw [RegManager.find_put_of_find found same]
  split
  · rename_i eq
    rw [RegManager.find_congr eq, found]
    simp [regProfile, profile]
  · rfl

theorem closeWith_regs (bNoQuit : Bool) : (x.closeWith cfg c bNoQuit).regs = x.regs := by
  cases past : (x.users c).state.isPastLogin with
  | true => rw [closeWith_pastLogin past]; rfl
  | false => rw [closeWith_eq past]

theorem takeNick_regs : (x.takeNick cfg c).regs = x.regs := by
  unfold takeNick
  split
  · rfl
  · cases x.findUser (x.users c).sNick with
    | none => rfl
    | some other => exact closeWith_regs _

theorem modifyOnline_regs (sNick : Text) (f : User → User) :
    (x.modifyOnline sNick f).regs = x.regs := (same_modifyOnline sNick f).regs

theorem setReg_online {r : RegUser} (sNick : Text) (f : User → User) :
    ((x.setReg r).modifyOnline sNick f).users = (x.modifyOnline sNick f).users := by
  rw [modifyOnline_users, modifyOnline_users]
  rfl

theorem sameProfiles_of_regs (same : y.regs = x.regs) : SameProfiles x y := by
  intro nick
  unfold findReg
  rw [same]

/-- What a move does to the registrations. -/
inductive RegsStep (cfg : Config) (h₀ : Hub) (a : Action) (x y : Hub) : Prop where
  | same (regs : y.regs = x.regs)
  | good (c r pass) (compared : PassCompared h₀ a c r pass)
      (right : r.passMatches cfg pass = true) (found : x.findReg (h₀.users c).sNick = some r)
      (regs : y.regs = x.regs.put { r with badPassCount := 0 })
  | bad (c r pass) (compared : PassCompared h₀ a c r pass)
      (wrong : r.passMatches cfg pass = false) (found : x.findReg (h₀.users c).sNick = some r)
      (regs : y.regs = x.regs.put (r.noteBadPass cfg x.clock))
  | change (change : RegChange cfg h₀ a x y)

theorem Move.regs (move : Move cfg h₀ a x y) : RegsStep cfg h₀ a x y := by
  cases move with
  | reg change => exact .change change
  | opChat c msgs | pingerLists c msgs | roundSend c msgs => exact .same (same_sendAll msgs).regs
  | flush c => exact .same same_flush.regs
  | shut c f msgs => exact .same ((closeWith_regs false).trans (same_sendAll msgs).regs)
  | deadSocket c other => exact .same (closeWith_regs (x := (x.dropBan c).modify other _) false)
  | pass c r password items compared right same =>
    apply RegsStep.good c r password compared right
    · rw [same]
      exact compared.reg
    · rw [takeNick_regs]
      rfl
  | notePass c r password compared wrong same time =>
    apply RegsStep.bad c r password compared wrong
    · unfold findReg
      rw [same]
      exact compared.reg
    · rfl
  | keyLost c => exact .same same_tellKeyLost.regs
  | enlist c => exact .same same_enlist.regs
  | refresh c due => exact .same (same_refresh due).regs
  | _ => exact .same rfl

theorem noteBadPass_sNick (r : RegUser) (now : Nat) : (r.noteBadPass cfg now).sNick = r.sNick := by
  unfold RegUser.noteBadPass
  split <;> rfl

theorem noteBadPass_profile (r : RegUser) (now : Nat) :
    (r.noteBadPass cfg now).profile = r.profile := by
  unfold RegUser.noteBadPass
  split <;> rfl

/-- The other moves change no registration but for its counter of bad passwords. -/
theorem Move.sameProfiles (move : Move cfg h₀ a x y) :
    SameProfiles x y ∨ RegChange cfg h₀ a x y := by
  cases move.regs with
  | same regs => exact .inl (sameProfiles_of_regs regs)
  | good c r pass compared right found regs =>
    have put : SameProfiles x (x.setReg { r with badPassCount := 0 }) :=
      sameProfiles_setReg found rfl rfl
    exact .inl fun nick => (sameProfiles_of_regs (x := x.setReg _) regs nick).trans (put nick)
  | bad c r pass compared wrong found regs =>
    have put : SameProfiles x (x.setReg (r.noteBadPass cfg x.clock)) :=
      sameProfiles_setReg found (noteBadPass_sNick r _) (noteBadPass_profile r _)
    exact .inl fun nick => (sameProfiles_of_regs (x := x.setReg _) regs nick).trans (put nick)
  | change change => exact .inr change

/-- What the events of a run are to heed. -/
structure KeepsProfiles (cfg : Config) (h : Hub) (e : Event) : Prop where
  once : namesOnce cfg (h.advance e) e.action = true
  spells : spelled cfg (h.advance e) e.action = true
  fits : selfFits cfg (h.advance e) e.action = true

instance (cfg : Config) (h : Hub) (e : Event) : Decidable (KeepsProfiles cfg h e) :=
  decidable_of_iff (namesOnce cfg (h.advance e) e.action = true ∧
      spelled cfg (h.advance e) e.action = true ∧ selfFits cfg (h.advance e) e.action = true)
    ⟨fun all => ⟨all.1, all.2.1, all.2.2⟩, fun keeps => ⟨keeps.once, keeps.spells, keeps.fits⟩⟩

theorem RegChange.right (change : RegChange cfg h₀ a x y) (wf₀ : WellFormed h₀)
    (wf : WellFormed x) (index : x.Indexed) (spells : spelled cfg h₀ a = true)
    (fits : selfFits cfg h₀ a = true) (right : ProfilesRight cfg x) : ProfilesRight cfg y := by
  cases change with
  | add r looked new same =>
    have table : ((x.setReg r).modifyOnline r.sNick (User.giveProfile cfg r.profile)).findReg =
        (x.setReg r).findReg := by
      unfold findReg
      rw [modifyOnline_regs]
    refine follows_of_lookup wf₀ wf index right spells looked same
      (setReg_online r.sNick _) (fun n differs => ?_)
      (giveProfile_login r.profile) fun u own follows settles => ?_
    · rw [table]
      exact findReg_setReg_other differs
    · rw [table, findReg_setReg_self]
      refine ⟨rfl, ?_⟩
      have profile := follows.profile settles
      have operator := follows.operator settles
      simp only [User.login, own, new, regProfile] at profile operator
      rw [profile] at operator
      simp [User.giveProfile, operator]
  | change r s looked found same event =>
    have table : ((x.setReg r).modifyOnline r.sNick (User.changeProfile cfg r.profile)).findReg =
        (x.setReg r).findReg := by
      unfold findReg
      rw [modifyOnline_regs]
    refine follows_of_lookup wf₀ wf index right spells looked same
      (setReg_online r.sNick _) (fun n differs => ?_)
      (changeProfile_login r.profile) fun u own follows settles => ?_
    · rw [table]
      exact findReg_setReg_other differs
    · rw [table, findReg_setReg_self]
      unfold User.changeProfile
      split
      · rename_i already
        exact ⟨already, follows.operator settles⟩
      · exact ⟨rfl, rfl⟩
  | delete r looked found same event =>
    have table (n : Text) : ((x.modifyOnline r.sNick User.loseProfile).remReg r).findReg n =
        if iequals n r.sNick then none else x.findReg n := by
      unfold remReg findReg
      dsimp only
      rw [RegManager.find_rem, modifyOnline_regs]
    refine follows_of_lookup wf₀ wf index right spells looked same rfl (fun n differs => ?_)
      loseProfile_login fun u own follows settles => ?_
    · rw [table, differs]
      rfl
    · rw [table, iequals_refl, if_pos rfl]
      exact ⟨rfl, rfl⟩
  | self c profile own state nick reg =>
    have loggedIn : (x.users c).login.state.isLoggedIn = true := by
      simp [User.login, state]
      rfl
    have settles := settles_of_loggedIn loggedIn
    have fit : regProfile (x.findReg (x.users c).sNick) = profile.toNat := by
      cases reg with
      | inl refused =>
        have same : x.findReg (x.users c).sNick = h₀.findReg (h₀.users c).sNick := by
          unfold findReg
          rw [refused.2, nick]
        rw [same]
        simpa [selfFits, own, refused.1] using fits
      | inr made =>
        obtain ⟨r, found, eq⟩ := made
        rw [found, ← eq]
        rfl
    have before : (x.users c).profile = profile.toNat := ((right c).profile settles).trans fit
    have key : (x.users c).operator =
        cfg.profiles.isProfileAllowed (x.users c).profile .hasKeyIcon := (right c).operator settles
    have unchanged : (x.users c).giveProfile cfg profile = x.users c := by
      unfold User.giveProfile
      rw [← before, ← key, Bool.or_self]
    intro d
    rw [modify_users]
    split
    · rename_i eq
      rw [unchanged, ← eq]
      exact (right d).of_same fun _ => rfl
    · exact (right d).of_same fun _ => rfl

theorem Move.right (move : Move cfg h₀ a x y) (wf₀ : WellFormed h₀) (wf : WellFormed x)
    (index : x.Indexed) (once : namesOnce cfg h₀ a = true) (spells : spelled cfg h₀ a = true)
    (fits : selfFits cfg h₀ a = true) (right : ProfilesRight cfg x) : ProfilesRight cfg y := by
  cases move.sameProfiles with
  | inr change => exact change.right wf₀ wf index spells fits right
  | inl same =>
    by_cases change : RegChange cfg h₀ a x y
    · exact change.right wf₀ wf index spells fits right
    · intro d
      have follows := ((move.login d).follows once (right d)).resolve_right change
      exact follows.of_same same

/-- The profiles of a hub whose users were accepted by it. -/
structure ProfilesInv (cfg : Config) (h : Hub) : Prop where
  wf : WellFormed h
  index : h.Indexed
  right : ProfilesRight cfg h

theorem start_profilesInv (regs : RegManager) : ProfilesInv cfg (start cfg regs) where
  wf := start_wellFormed regs
  index := (start_indexInv regs).index
  right := fun _ => .of_past rfl

theorem step_profilesInv (inv : ProfilesInv cfg x) (e : Event) (keeps : KeepsProfiles cfg x e) :
    ProfilesInv cfg (step cfg x e) := by
  have before : ProfilesInv cfg (x.advance e) := {
    wf := advance_wellFormed inv.wf e
    index := inv.index.of_keys rfl fun _ => rfl
    right := fun d => (inv.right d).of_same fun _ => rfl }
  apply (act_moves cfg before.wf e.action).invariant (P := ProfilesInv cfg) ?_ before
  intro z z' now move
  exact {
    wf := move.wellFormed now.wf
    index := move.indexed keeps.once now.wf now.index
    right := move.right before.wf now.wf now.index keeps.once keeps.spells keeps.fits now.right }

/-- Logged-in users have the profiles of their registrations, and the key only by
their profiles. -/
structure ProfilesFollow (cfg : Config) (h : Hub) : Prop where
  profile : ∀ c, (h.users c).state.isLoggedIn = true →
    (h.users c).profile = regProfile (h.findReg (h.users c).sNick)
  operator : ∀ c, (h.users c).state.isLoggedIn = true →
    (h.users c).operator = cfg.profiles.isProfileAllowed (h.users c).profile .hasKeyIcon

/-- A user with QuickList logs in as Bob. -/
def bobComes : List Event :=
  arrival 0 (ascii "$Supports QuickList|") ++
    [⟨0, .command 0 (ascii "$MyINFO $ALL Bob x$ $56K$$0$|") {}⟩]

/-- The steps from the last login command into the list. -/
def bobEnters : List Event :=
  [⟨0, .receive 0 {}⟩, ⟨0, .receive 0 {}⟩, ⟨0, .sendLoop fun _ => .all⟩]

end

end Hub

end FlyHub.Session
