import FlyHub.Session.Move

/-!
# The login of one user

Seen from one user a move is a step of a small machine: it shakes hands, names a
nick, is let in or asked for a password, and goes through the loops into the
list. Each step carries what has been checked.
-/

namespace FlyHub.Session

open FlyHub.Broadcast FlyHub.Ban FlyHub.Lists

/-- What the login machine knows of a user. -/
@[ext] structure Login where
  state : UserState
  sNick : Text
  ipHash : IpHash
  pBan : Option UserBan
  profile : Int
  operator : Bool
  hashed : Bool
  waitingForPass : Bool
  pinger : Bool

def User.login (u : User) : Login where
  state := u.state
  sNick := u.sNick
  ipHash := u.ipHash
  pBan := u.pBan
  profile := u.profile
  operator := u.operator
  hashed := u.hashed
  waitingForPass := u.waitingForPass
  pinger := u.pinger

/-- A user who has named its nick is hashed, unless it is still to give its
password. -/
def Login.Settled (l : Login) : Prop :=
  l.state.isPastLogin = false → UserState.versionOrMyPass.toNat ≤ l.state.toNat →
    l.waitingForPass = false ∨ l.state.isLoggedIn = true → l.hashed = true

/-- The login in the core. -/
def Core.login (k : Core) : Login where
  state := k.state
  sNick := k.sNick
  ipHash := k.ipHash
  pBan := k.pBan
  profile := k.profile
  operator := k.operator
  hashed := k.hashed
  waitingForPass := k.waitingForPass
  pinger := k.pinger

namespace Hub

/-- The steps of the login of `d` while the hub goes from `x` to `y`. -/
inductive LoginStep (cfg : Config) (h₀ : Hub) (a : Action) (x y : Hub) (d : UserId) :
    Login → Login → Prop where
  | stay (l) : LoginStep cfg h₀ a x y d l l
  | fresh (l l') (event : ∃ s ip v6, a = .accept s ip v6) (new : d = x.nextUser)
      (grown : y.nextUser = x.nextUser + 1)
      (state : l'.state = .socketAccepted)
      (hashed : l'.hashed = false) (waiting : l'.waitingForPass = false) (profile : l'.profile = -1)
      (operator : l'.operator = false) :
      LoginStep cfg h₀ a x y d l l'
  | shut (l l') (past : l'.state.isPastLogin = true) (nick : l'.sNick = l.sNick)
      (ip : l'.ipHash = l.ipHash) (hashed : l'.hashed = l.hashed) (profile : l'.profile = l.profile) :
      LoginStep cfg h₀ a x y d l l'
  | handshake (l st pinger) (early : l.state.toNat ≤ UserState.validate.toNat)
      (stays : st.toNat ≤ UserState.validate.toNat) (grows : l.pinger = true → pinger = true) :
      LoginStep cfg h₀ a x y d l { l with state := st, pinger := pinger }
  | name (l nick) (validate : l.state = .validate) (named : namedNick cfg h₀ a = some (d, nick))
      (legal : illegalCharacter nick = none) (same : l = (h₀.users d).login) :
      LoginStep cfg h₀ a x y d l { l with sNick := nick }
  | enterFree (l) (validate : l.state = .validate) (named : namedNick cfg h₀ a = some (d, l.sNick))
      (free : x.findReg l.sNick = none)
      (unbanned : l.pBan = none) : LoginStep cfg h₀ a x y d l { l with hashed := true }
  | helloLater (l) (validate : l.state = .validate)
      (named : namedNick cfg h₀ a = some (d, l.sNick)) (hashed : l.hashed = true)
      (free : x.findReg l.sNick = none) :
      LoginStep cfg h₀ a x y d l { l with state := .versionOrMyPass }
  | ask (l r hashed) (validate : l.state = .validate)
      (named : namedNick cfg h₀ a = some (d, l.sNick)) (reg : x.findReg l.sNick = some r)
      (open_ : r.isLocked cfg x.clock = false) (passes : l.pBan = none ∨ Exempt cfg r)
      (grows : l.hashed = true → hashed = true) :
      LoginStep cfg h₀ a x y d l
        { l with pBan := none, hashed := hashed, state := .versionOrMyPass, waitingForPass := true }
  | deadSocket (l) (validate : l.state = .validate)
      (named : namedNick cfg h₀ a = some (d, l.sNick))
      (held : h₀.HeldLive l.sNick) (dead : ∃ cmd answers, a = .command d cmd answers ∧
        answers.deadSocket = true ∧ h₀.admits cfg d answers l.sNick = true)
      (passes : l.pBan = none ∨ ∃ r, x.findReg l.sNick = some r ∧ Exempt cfg r) :
      LoginStep cfg h₀ a x y d l { l with pBan := none }
  | version (l) (state : l.state = .versionOrMyPass) :
      LoginStep cfg h₀ a x y d l { l with state := .getNickListOrMyInfo }
  | addMe (l st) (early : UserState.validate.toNat ≤ l.state.toNat)
      (late : l.state.toNat ≤ UserState.getNickListOrMyInfo.toNat)
      (named : l.state = .validate →
        namedNick cfg h₀ a = some (d, l.sNick) ∧ x.findReg l.sNick = none)
      (hashed : l.hashed = true) (done : l.waitingForPass = false)
      (user : l.pinger = false) (next : st = .ipv4Check ∨ st = .addMe) :
      LoginStep cfg h₀ a x y d l { l with state := st }
  | added (l) (state : l.state = .addMe2Loop) :
      LoginStep cfg h₀ a x y d l { l with state := .added, pBan := none }
  | advance (l st) (loggedIn : l.state.isLoggedIn = true) (stays : st.isLoggedIn = true)
      (list : st.isListed = true → ∃ tick, a = .receive d tick) :
      LoginStep cfg h₀ a x y d l { l with state := st }
  | unwait (l) (state : l.state = .added) : LoginStep cfg h₀ a x y d l { l with waitingForPass := false }
  | pass (l r password) (state : l.state = .versionOrMyPass)
      (compared : PassCompared h₀ a d r password) (right : r.passMatches cfg password = true)
      (reg : x.findReg l.sNick = some r) :
      LoginStep cfg h₀ a x y d l
        { l with
          waitingForPass := false
          profile := r.profile.toNat
          operator := cfg.profiles.isProfileAllowed r.profile.toNat .hasKeyIcon
          hashed := true }
  | grant (l profile operator) (change : RegChange cfg h₀ a x y) :
      LoginStep cfg h₀ a x y d l { l with profile := profile, operator := operator }
  | askReg (l) (event : (∃ op, a = .reg op) ∨ l.state = .added) :
      LoginStep cfg h₀ a x y d l { l with waitingForPass := true }

section
variable {cfg : Config} {h₀ x y : Hub} {a : Action} {c d : UserId}

/-! ## What the operations do to the login -/

theorem login_of_core {u v : User} (core : u.core = v.core) : u.login = v.login := by
  simp only [User.core, Core.mk.injEq] at core
  simp only [User.login, core]

@[simp] theorem login_put (u : User) (msg : Msg) : (u.put msg).login = u.login := by
  unfold User.put
  split <;> rfl

@[simp] theorem send_login (msg : Msg) : ((x.send c msg).users d).login = (x.users d).login := by
  rw [send, modify_users]
  split <;> simp [*]

@[simp] theorem sendAll_login (msgs : List Msg) :
    ((x.sendAll c msgs).users d).login = (x.users d).login := by
  induction msgs generalizing x with
  | nil => rfl
  | cons msg msgs ih => exact (ih (x := x.send c msg)).trans (send_login msg)

theorem modify_login {f : User → User} (other : d ≠ c) :
    ((x.modify c f).users d).login = (x.users d).login := by
  rw [modify_ne other]

theorem modify_login_same {f : User → User} (same : ∀ u, (f u).login = u.login) :
    ((x.modify c f).users d).login = (x.users d).login := by
  rw [modify_users]
  split <;> simp [*]

@[simp] theorem addQueueItem_users (eCmdType : Cmd) (command0 command1 : List Msg) :
    (x.addQueueItem eCmdType command0 command1).users = x.users := rfl

@[simp] theorem forgetLong_users : (x.forgetLong cfg c).users = x.users := by rw [forgetLong_eq]

@[simp] theorem forgetShort_users : (x.forgetShort cfg c).users = x.users := by rw [forgetShort_eq]

@[simp] theorem generateMyInfoLong_login :
    ((x.generateMyInfoLong cfg c).1.users d).login = (x.users d).login := by
  unfold generateMyInfoLong
  dsimp only
  split
  · rfl
  · dsimp only
    rw [modify_login_same, forgetLong_users]
    exact fun _ => rfl

@[simp] theorem generateMyInfoShort_login :
    ((x.generateMyInfoShort cfg c).1.users d).login = (x.users d).login := by
  unfold generateMyInfoShort
  dsimp only
  split
  · rfl
  · dsimp only
    rw [modify_login_same, forgetShort_users]
    exact fun _ => rfl

@[simp] theorem add2MyInfosTag_users : (x.add2MyInfosTag c).users = x.users := rfl

@[simp] theorem add2MyInfos_users : (x.add2MyInfos c).users = x.users := rfl

@[simp] theorem add2Userlist_login :
    ((x.add2Userlist cfg c).users d).login = (x.users d).login := by
  unfold add2Userlist
  dsimp only
  split <;> simp

@[simp] theorem announce_users : (x.announce cfg c).users = x.users := by
  unfold announce
  dsimp only
  split <;> simp

@[simp] theorem refreshMyInfo_login (due : Bool) :
    ((x.refreshMyInfo cfg c due).users d).login = (x.users d).login := by
  unfold refreshMyInfo
  dsimp only
  split
  · split <;> simp
  · split
    · simp
    · split <;> simp
  · split <;> simp

theorem foldl_processCmd_login (cmds : List PrcsdUsrCmd) :
    ((cmds.foldl (fun h cmd => h.processCmd c cmd) x).users d).login = (x.users d).login := by
  induction cmds generalizing x with
  | nil => rfl
  | cons cmd cmds ih =>
    rw [List.foldl_cons, ih]
    cases cmd <;> exact send_login _

theorem flush_login : ((x.flush c).users d).login = (x.users d).login := by
  unfold flush
  rw [foldl_processCmd_login, modify_login_same]
  exact fun _ => rfl

/-- A change of the login of `c` is a step of `c` and no step of the others. -/
theorem LoginStep.of_modify {f : User → User} {l : Login} (after : (f (x.users c)).login = l)
    (step : LoginStep cfg h₀ a x y c (x.users c).login l) :
    LoginStep cfg h₀ a x y d (x.users d).login ((x.modify c f).users d).login := by
  by_cases eq : d = c
  · subst eq
    rw [modify_self, after]
    exact step
  · rw [modify_login eq]
    exact .stay _

theorem LoginStep.of_close {z : Hub} (nick : (z.users c).sNick = (x.users c).sNick)
    (ip : (z.users c).ipHash = (x.users c).ipHash)
    (hashed : (z.users c).hashed = (x.users c).hashed)
    (profile : (z.users c).profile = (x.users c).profile) (bNoQuit : Bool) :
    LoginStep cfg h₀ a x y c (x.users c).login ((z.closeWith cfg c bNoQuit).users c).login := by
  have kept : ((z.closeWith cfg c bNoQuit).users c).login =
      { (z.users c).login with state := ((z.closeWith cfg c bNoQuit).users c).state } := by
    cases past : (z.users c).state.isPastLogin with
    | true => simp [closeWith_pastLogin past, User.login]
    | false => simp [closeWith_eq past, User.login, closedUser]
  apply LoginStep.shut
  · exact closeWith_past bNoQuit c
  · rw [kept]
    exact nick
  · rw [kept]
    exact ip
  · rw [kept]
    exact hashed
  · rw [kept]
    exact profile

theorem enterFree_users : (x.enterFree c).users =
    (x.modify c fun u => { u with pBan := none, hashed := true }).users := by
  simp [enterFree, dropBan, hashAdd, modify]

theorem helloLater_users : (x.helloLater c).users = (x.modify c fun u =>
    { u with state := .versionOrMyPass, cmdList := u.cmdList ++ [.loginHello] }).users := by
  simp [helloLater, addPrcsdCmd, modify]

theorem enterReg_users : (x.enterReg c).users = (x.modify c fun u =>
    { u with
      pBan := none
      hashed := true
      state := .versionOrMyPass
      waitingForPass := true
      cmdList := u.cmdList ++ [.getPass] }).users := by
  simp [enterReg, dropBan, hashAdd, addPrcsdCmd, modify]

theorem awaitPass_users : (x.awaitPass c).users = (x.modify c fun u =>
    { u with
      pBan := none
      state := .versionOrMyPass
      waitingForPass := true
      cmdList := u.cmdList ++ [.getPass] }).users := by
  simp [awaitPass, dropBan, addPrcsdCmd, modify]

theorem passed_users (r : RegUser) (items : List PassBf) : (x.passed cfg c r items).users =
    (x.modify c fun u =>
      { u with
        waitingForPass := false
        profile := r.profile.toNat
        operator := cfg.profiles.isProfileAllowed r.profile.toNat .hasKeyIcon }).users := rfl

/-- The one who takes its nick is hashed. It does not close itself, the index
leading to hashed users only. -/
theorem takeNick_user (self : x.findUser (x.users c).sNick = some c → (x.users c).hashed = true) :
    (x.takeNick cfg c).users c = { x.users c with hashed := true } := by
  unfold takeNick
  split
  · rename_i hashed
    rw [← hashed]
  · rename_i new
    cases holder : x.findUser (x.users c).sNick with
    | none => simp [hashAdd]
    | some other =>
      have differs : c ≠ other := by
        intro eq
        rw [← eq] at holder
        exact new (self holder)
      have kept : (x.closeWith cfg other (x.users c).quickList).users c = x.users c :=
        closeWith_users _ differs
      dsimp only
      rw [modify_self, hashAdd, kept]

/-- The others stay, but for the ghost. -/
theorem takeNick_other (cfg : Config) (x : Hub) (differs : d ≠ c) :
    (x.takeNick cfg c).users d = x.users d ∨
      ∃ bNoQuit, (x.takeNick cfg c).users d = (x.closeWith cfg d bNoQuit).users d := by
  unfold takeNick
  split
  · exact .inl rfl
  · dsimp only
    rw [modify_ne differs]
    cases holder : x.findUser (x.users c).sNick with
    | none => exact .inl rfl
    | some other =>
      by_cases eq : d = other
      · rw [eq]
        exact .inr ⟨_, rfl⟩
      · exact .inl (closeWith_users _ eq)

theorem modifyOnline_users (sNick : Text) (f : User → User) :
    (x.modifyOnline sNick f).users =
      match x.findUser sNick with
      | some c => (x.modify c f).users
      | none => x.users := by
  unfold modifyOnline
  cases x.findUser sNick <;> rfl

theorem modifyOnline_other {sNick : Text} (f : User → User) (other : x.findUser sNick ≠ some d) :
    (x.modifyOnline sNick f).users d = x.users d := by
  rw [modifyOnline_users]
  cases found : x.findUser sNick with
  | none => rfl
  | some c =>
    apply modify_ne
    intro eq
    rw [eq] at other
    exact other found

theorem modifyOnline_self {sNick : Text} (f : User → User) (found : x.findUser sNick = some d) :
    (x.modifyOnline sNick f).users d = f (x.users d) := by
  rw [modifyOnline_users, found]
  exact modify_self

theorem LoginStep.of_online {z : Hub} {sNick : Text} {f : User → User}
    (grants : ∀ u, ∃ profile operator, (f u).login =
      { u.login with profile := profile, operator := operator })
    (change : RegChange cfg h₀ a x y) (same : z.users = x.users) :
    LoginStep cfg h₀ a x y d (x.users d).login ((z.modifyOnline sNick f).users d).login := by
  rw [← same]
  by_cases found : z.findUser sNick = some d
  · obtain ⟨profile, operator, eq⟩ := grants (z.users d)
    rw [modifyOnline_self f found, eq]
    exact .grant _ profile operator change
  · rw [modifyOnline_other f found]
    exact .stay _

theorem giveProfile_login (profile : UInt16) (u : User) : ∃ p o,
    (u.giveProfile cfg profile).login = { u.login with profile := p, operator := o } :=
  ⟨_, _, rfl⟩

theorem changeProfile_login (profile : UInt16) (u : User) : ∃ p o,
    (u.changeProfile cfg profile).login = { u.login with profile := p, operator := o } := by
  unfold User.changeProfile
  split
  · exact ⟨_, _, rfl⟩
  · exact ⟨_, _, rfl⟩

theorem loseProfile_login (u : User) : ∃ p o,
    u.loseProfile.login = { u.login with profile := p, operator := o } := ⟨_, _, rfl⟩

@[simp] theorem tellKeyLost_users : (x.tellKeyLost cfg c).users = x.users := by
  unfold tellKeyLost
  dsimp only
  split <;> rfl

/-- A registration is looked up by an operation on the registrations or by a user
that registers itself. -/
theorem event_of_regLookup {nick : Text} (looked : regLookup cfg h₀ a = some nick) :
    (∃ op, a = .reg op) ∨ ∃ c p, Hub.selfProfile cfg h₀ a = some (c, p) := by
  cases a with
  | reg op => exact .inl ⟨op, rfl⟩
  | command c cmd answers =>
    cases own : Hub.selfProfile cfg h₀ (.command c cmd answers) with
    | none => simp [regLookup, own] at looked
    | some found => exact .inr ⟨found.1, found.2, rfl⟩
  | _ => simp [regLookup] at looked

theorem RegChange.event (change : RegChange cfg h₀ a x y) :
    (∃ op, a = .reg op) ∨ ∃ c p, Hub.selfProfile cfg h₀ a = some (c, p) := by
  cases change with
  | add r looked | change r s looked | delete r looked => exact event_of_regLookup looked
  | self c profile own => exact .inr ⟨c, profile, own⟩

theorem RegChange.login (change : RegChange cfg h₀ a x y) (d : UserId) :
    LoginStep cfg h₀ a x y d (x.users d).login (y.users d).login := by
  have whole := change
  cases change with
  | add r looked new same => exact .of_online (giveProfile_login r.profile) whole rfl
  | change r s looked found same event => exact .of_online (changeProfile_login r.profile) whole rfl
  | delete r looked found same event =>
    exact .of_online (z := x) loseProfile_login whole rfl
  | self c profile own state nick reg => exact .of_modify rfl (.grant _ _ _ whole)

/-- Every move is a step of the login of every user. -/
theorem Move.login (move : Move cfg h₀ a x y) (d : UserId) :
    LoginStep cfg h₀ a x y d (x.users d).login (y.users d).login := by
  cases move with
  | adjust c f same =>
    rw [modify_login_same fun u => login_of_core (same u)]
    exact .stay _
  | send c msg => rw [send_login]; exact .stay _
  | opChat c msgs => rw [sendAll_login]; exact .stay _
  | pingerLists c msgs => rw [sendAll_login]; exact .stay _
  | flush c => rw [flush_login]; exact .stay _
  | shut c f msgs same =>
    by_cases eq : d = c
    · subst eq
      have kept := same (x.users d)
      have put := sendAll_login (x := x.modify d f) (c := d) (d := d) msgs
      rw [modify_self] at put
      apply LoginStep.of_close
      · exact (congrArg Login.sNick put).trans (congrArg Core.sNick kept)
      · exact (congrArg Login.ipHash put).trans (congrArg Core.ipHash kept)
      · exact (congrArg Login.hashed put).trans (congrArg Core.hashed kept)
      · exact (congrArg Login.profile put).trans (congrArg Core.profile kept)
    · rw [close, closeWith_users false eq, sendAll_login, modify_login eq]
      exact .stay _
  | handshake c f st pinger early stays grows core =>
    have after := congrArg Core.login core
    exact .of_modify after (.handshake _ st pinger early stays grows)
  | queueCmd c cmd =>
    rw [addPrcsdCmd, modify_login_same]
    · exact .stay _
    · exact fun _ => rfl
  | name c nick validate named same legal =>
    exact .of_modify rfl (.name _ nick validate named legal (congrArg User.login same))
  | enterFree c validate named free vacant unbanned =>
    rw [enterFree_users]
    apply LoginStep.of_modify rfl
    have step : LoginStep cfg h₀ a x (x.enterFree c) c (x.users c).login
        { (x.users c).login with hashed := true } :=
      .enterFree _ validate named free unbanned
    simpa [User.login, unbanned] using step
  | helloLater c validate named hashed free =>
    rw [helloLater_users]
    exact .of_modify rfl (.helloLater _ validate named hashed free)
  | enterReg c r validate named reg open_ vacant passes =>
    rw [enterReg_users]
    exact .of_modify rfl (.ask _ r true validate named reg open_ passes fun _ => rfl)
  | awaitPass c r validate named reg open_ passes =>
    rw [awaitPass_users]
    exact .of_modify rfl (.ask _ r _ validate named reg open_ passes id)
  | deadSocket c other validate named holder live held dead passes =>
    by_cases eq : d = other
    · subst eq
      apply LoginStep.of_close
      · simp only [dropBan, modify_self, modify_users]
        split <;> simp [*]
      · simp only [dropBan, modify_self, modify_users]
        split <;> simp [*]
      · simp only [dropBan, modify_self, modify_users]
        split <;> simp [*]
      · simp only [dropBan, modify_self, modify_users]
        split <;> simp [*]
    · rw [fail, close, closeWith_users false eq, modify_ne eq]
      apply LoginStep.of_modify rfl
      exact .deadSocket _ validate named held dead passes
  | version c state => exact .of_modify rfl (.version _ state)
  | addMe c st early late named hashed done user next =>
    exact .of_modify rfl (.addMe _ st early late named hashed done user next)
  | ipv4Done c f state core =>
    have after := congrArg Core.login core
    exact .of_modify after (.advance _ .addMe (by simp [User.login, state]; rfl) rfl nofun)
  | firstLoop c state =>
    exact .of_modify rfl (.advance _ .addMe1Loop (by simp [User.login, state]; rfl) rfl nofun)
  | enlist c state event =>
    rw [Hub.enlist, announce_users, modify_users]
    split
    · rename_i eq
      subst eq
      have list : ((x.add2Userlist cfg d).users d).login = (x.users d).login :=
        add2Userlist_login
      have after : ({ (x.add2Userlist cfg d).users d with state := .addMe2Loop } : User).login =
          { (x.users d).login with state := .addMe2Loop } := by
        rw [← list]
        rfl
      rw [after]
      exact .advance _ .addMe2Loop (by simp [User.login, state]; rfl) rfl fun _ => event
    · rw [add2Userlist_login]
      exact .stay _
  | newInfo c state =>
    rw [modify_login_same]
    · exact .stay _
    · exact fun _ => rfl
  | refresh c due =>
    rw [Hub.refresh, refreshMyInfo_login, modify_login_same]
    · exact .stay _
    · exact fun _ => rfl
  | unwait c state => exact .of_modify rfl (.unwait _ state)
  | pass c r password items compared right same self =>
    have state : (x.users c).state = .versionOrMyPass := by
      rw [same]
      exact compared.state
    by_cases eq : d = c
    · subst eq
      have user : (x.passed cfg d r items).users d =
          { x.users d with
            waitingForPass := false
            profile := r.profile.toNat
            operator := cfg.profiles.isProfileAllowed r.profile.toNat .hasKeyIcon } := by
        rw [passed_users, modify_self]
      rw [takeNick_user, user]
      · apply LoginStep.pass _ r password state compared right
        rw [same]
        exact compared.reg
      · rw [user]
        exact self
    · have kept : (x.passed cfg c r items).users d = x.users d := by
        rw [passed_users, modify_ne eq]
      cases takeNick_other cfg (x.passed cfg c r items) eq with
      | inl same =>
        rw [same, kept]
        exact .stay _
      | inr ghost =>
        obtain ⟨bNoQuit, closed⟩ := ghost
        rw [closed]
        exact .of_close (by rw [kept]) (by rw [kept]) (by rw [kept]) (by rw [kept]) bNoQuit
  | notePass c r password compared wrong same => exact .stay _
  | hello c state => rw [send_login]; exact .stay _
  | bans bans => exact .stay _
  | reg change => exact change.login d
  | keyLost c => rw [tellKeyLost_users]; exact .stay _
  | askReg c nick online event =>
    obtain ⟨op, eq⟩ := event
    exact .of_modify rfl (.askReg _ (.inl ⟨op, eq⟩))
  | askAgain c state => exact .of_modify rfl (.askReg _ (.inr state))
  | passwdBf items => exact .stay _
  | post eCmdType text text1 => exact .stay _
  | accept u fresh event =>
    by_cases eq : d = x.nextUser
    · subst eq
      simp only [User.core, Core.mk.injEq] at fresh
      simp only [newUser, Function.update_self]
      obtain ⟨state, -, -, -, profile, operator, hashed, waiting, -⟩ := fresh
      exact .fresh _ _ event rfl rfl state hashed waiting profile operator
    · simp only [newUser, Function.update_of_ne eq]
      exact .stay _
  | endClosing c state =>
    by_cases eq : d = c
    · subst eq
      rw [modify_self]
      exact .shut _ _ rfl rfl rfl rfl rfl
    · rw [modify_ne eq]
      exact .stay _
  | remove c state => exact .stay _
  | round queue event => exact .stay _
  | roundSend c msgs event => rw [sendAll_login]; exact .stay _
  | roundAdd c f event state core =>
    have after := congrArg Core.login core
    exact .of_modify after (.added _ state)

/-- The user is not the one just accepted. -/
def Old (x y : Hub) (d : UserId) : Prop := d = x.nextUser → y.nextUser = x.nextUser

/-- A login that has ended stays ended, and nothing more is done for it. -/
theorem LoginStep.past {l l' : Login} (step : LoginStep cfg h₀ a x y d l l')
    (past : l.state.isPastLogin = true) (old : Old x y d) :
    l'.state.isPastLogin = true ∧ l'.hashed = l.hashed := by
  cases step with
  | stay => exact ⟨past, rfl⟩
  | fresh _ event new grown =>
    rw [old new] at grown
    exact absurd grown (Nat.ne_of_lt (Nat.lt_succ_self _))
  | shut _ past' nick ip hashed => exact ⟨past', hashed⟩
  | handshake st pinger early =>
    cases state : l.state <;> simp_all [UserState.isPastLogin, UserState.toNat]
  | addMe st early late =>
    cases state : l.state <;> simp_all [UserState.isPastLogin, UserState.toNat]
  | advance st loggedIn =>
    cases state : l.state <;> simp_all [UserState.isPastLogin, UserState.isLoggedIn, UserState.toNat]
  | _ => simp_all [UserState.isPastLogin, UserState.toNat]

/-- What is settled stays settled. -/
theorem LoginStep.settled {l l' : Login} (step : LoginStep cfg h₀ a x y d l l')
    (settled : l.Settled) : l'.Settled := by
  cases step with
  | stay => exact settled
  | fresh _ event new grown state =>
    intro _ named
    rw [state] at named
    exact absurd named (by decide)
  | shut _ past => exact fun live => by simp [past] at live
  | handshake st pinger early stays =>
    exact fun _ named => absurd (Nat.le_trans named stays) (by decide)
  | name nick validate | deadSocket validate =>
    intro _ named
    rw [validate] at named
    exact absurd named (by decide)
  | enterFree => exact fun _ _ _ => rfl
  | helloLater validate named hashed => exact fun _ _ _ => hashed
  | ask r hashed => exact fun _ _ done => by simp [UserState.isLoggedIn, UserState.toNat] at done
  | version state =>
    intro _ _ done
    exact settled (by simp [state, UserState.isPastLogin, UserState.toNat])
      (by simp [state]) (.inl (by simpa [UserState.isLoggedIn, UserState.toNat] using done))
  | addMe st early late named hashed => exact fun _ _ _ => hashed
  | added state =>
    intro _ _ _
    apply settled <;> simp [state, UserState.isPastLogin, UserState.isLoggedIn, UserState.toNat]
  | advance st loggedIn =>
    intro _ _ _
    apply settled
    · cases state : l.state <;> simp_all [UserState.isPastLogin, UserState.isLoggedIn, UserState.toNat]
    · cases state : l.state <;> simp_all [UserState.isLoggedIn, UserState.toNat]
    · exact .inr loggedIn
  | unwait state =>
    intro _ _ _
    apply settled <;> simp [state, UserState.isPastLogin, UserState.isLoggedIn, UserState.toNat]
  | pass => exact fun _ _ _ => rfl
  | grant => exact settled
  | askReg event =>
    intro live named done
    exact settled live named (.inr (by simpa using done))

/-- A user that has been hashed keeps the mark. -/
theorem LoginStep.hashed {l l' : Login} (step : LoginStep cfg h₀ a x y d l l')
    (hashed : l.hashed = true) (old : Old x y d) : l'.hashed = true := by
  cases step with
  | fresh _ event new grown =>
    rw [old new] at grown
    exact absurd grown (Nat.ne_of_lt (Nat.lt_succ_self _))
  | shut _ past nick ip same => exact same.trans hashed
  | ask r hashed' validate named reg open_ passes grows => exact grows hashed
  | _ => first | exact hashed | rfl

end

end Hub

end FlyHub.Session
