import Mathlib.Logic.Relation
import FlyHub.Session.Frame

/-!
# What an action can do

An action is a sequence of moves. A move is a small change of the hub together
with what the code has checked before making it, so that an invariant is proved
for the moves and not for every path of the commands.
-/

namespace FlyHub.Session

open FlyHub.Broadcast FlyHub.Ban FlyHub.Lists FlyHub.Lib

/-- The part of a user's record that decides who is logged in and what the
clients are told. -/
structure Core where
  state : UserState
  sNick : Text
  ipHash : IpHash
  pBan : Option UserBan
  profile : Int
  operator : Bool
  hashed : Bool
  waitingForPass : Bool
  pinger : Bool
  prcsdMyInfo : Bool
  myInfoLong : Option MyInfo
  myInfoShort : Option MyInfo
  cmdList : List PrcsdUsrCmd
  sendBuf : List Msg

def User.core (u : User) : Core where
  state := u.state
  sNick := u.sNick
  ipHash := u.ipHash
  pBan := u.pBan
  profile := u.profile
  operator := u.operator
  hashed := u.hashed
  waitingForPass := u.waitingForPass
  pinger := u.pinger
  prcsdMyInfo := u.prcsdMyInfo
  myInfoLong := u.myInfoLong
  myInfoShort := u.myInfoShort
  cmdList := u.cmdList
  sendBuf := u.sendBuf

/-- What `Close` reads of the core. -/
def Core.toClose (k : Core) : Core := { k with pBan := none, waitingForPass := false }

/-- A message that tells nothing about who is in the list. -/
def Msg.IsPlain : Msg → Prop
  | .hello _ | .nickList _ | .myInfo _ | .quit _ => False
  | _ => True

/-- A message about the bot of the operators' chat. -/
def Msg.IsOpChat (cfg : Config) (msg : Msg) : Prop :=
  msg.IsPlain ∨ ∃ nick, cfg.opChatNick = some nick ∧
    (msg = .hello nick ∨ msg = .myInfo ⟨nick, []⟩ ∨ msg = .quit nick)

namespace Hub

/-- The user whose nick the action has validated, and the nick. -/
def namedNick (cfg : Config) (h : Hub) : Action → Option (UserId × Text)
  | .command c cmd a =>
    if (h.users c).state ≠ .validate || cmd.length < 5 || isCommand cmd "$Key " then none
    else if isCommand cmd "$ValidateNick " then
      if (h.users c).quickList || cmd.length < 16 then none else some (c, validateNickArg cmd)
    else if isCommand cmd "$MyINFO $ALL " then
      if (h.users c).quickList && (h.myInfoDeflood cfg c a cmd).2 then
        (myInfoNick cmd).map fun nick => (c, nick)
      else none
    else none
  | _ => none

/-- The profile that a `$MyPass` in the list gives its user. -/
def selfProfile (cfg : Config) (h : Hub) : Action → Option (UserId × UInt16)
  | .command c cmd _ =>
    if (h.users c).state = .added && isCommand cmd "$MyPass " && (h.users c).waitingForPass &&
        10 ≤ cmd.length && cmd.length ≤ 73 then
      ((h.users c).buffer.bind cfg.profileIndex).map fun profile => (c, profile)
    else none
  | _ => none

/-- A registration can be made. -/
def canRegister (cfg : Config) (h : Hub) (sNick sPasswd : Text) (profile : UInt16) : Bool :=
  (h.findReg sNick).isNone &&
    (RegManager.createReg cfg.hashPasswords cfg.hashPassword sNick sPasswd profile).isSome

/-- The spelling under which the action looks for the user of a registration that
it makes, changes or deletes. -/
def regLookup (cfg : Config) (h : Hub) (a : Action) : Option Text :=
  match a with
  | .reg (.addNew sNick sPasswd iProfile) =>
    if h.canRegister cfg sNick sPasswd iProfile then some sNick else none
  | .reg (.changeReg sNick _ _) | .reg (.delete sNick) => (h.findReg sNick).map RegUser.sNick
  | .command _ cmd _ =>
    match h.selfProfile cfg a with
    | some (c, profile) =>
      if h.canRegister cfg (h.users c).sNick (myPassArg cmd) profile then some (h.users c).sNick
      else none
    | none => none
  | _ => none

/-- A `$MyPass` of `c` is compared with the password of `r`. -/
structure PassCompared (h : Hub) (a : Action) (c : UserId) (r : RegUser) (pass : Text) : Prop where
  command : ∃ cmd answers, a = .command c cmd answers ∧ isCommand cmd "$MyPass " = true ∧
    10 ≤ cmd.length ∧ cmd.length ≤ 73 ∧ pass = myPassArg cmd
  state : (h.users c).state = .versionOrMyPass
  reg : h.findReg (h.users c).sNick = some r
  waiting : (h.users c).waitingForPass = true

/-- The users are as they were when the action began, but for a user in the list
who is not waited for any more. -/
def SameUsers (h₀ x : Hub) : Prop :=
  ∀ d, x.users d = h₀.users d ∨ (h₀.users d).state = .added ∧
    x.users d = { h₀.users d with waitingForPass := false }

/-- The registration lets its user in from a banned address. -/
def Exempt (cfg : Config) (r : RegUser) : Prop :=
  cfg.profiles.isProfileAllowed r.profile.toNat .enterIfIpBan = true

/-- Nobody holds the nick, or one that is on its way out. -/
def Vacant (h : Hub) (nick : Text) : Prop :=
  ∀ other, h.findUser nick = some other → (h.users other).state.isPastLogin = true

/-- Somebody who is not on its way out holds the nick. -/
def HeldLive (h : Hub) (nick : Text) : Bool :=
  (h.findUser nick).any fun other => !(h.users other).state.isPastLogin

/-- The answers let in a user under the registration. -/
def lets (cfg : Config) (answers : Answers) (reg : Option RegUser) (pinger : Bool) : Bool :=
  let allowed := cfg.profiles.isProfileAllowed (regProfile reg)
  (allowed .enterFullHub || pinger || !answers.hubFull) &&
    (allowed .noUsrSameIp || !answers.maxIpConns) &&
    (allowed .noReconnTime || !answers.fastReconnect)

/-- Nothing but its holder and the ban found at accept can stop `c` from taking the
nick. -/
def admits (cfg : Config) (h : Hub) (c : UserId) (answers : Answers) (nick : Text) : Bool :=
  (illegalCharacter nick).isNone && !cfg.reserved nick && (h.users c).pBan ≠ some ⟨hashNick nick⟩ &&
    (h.bans.findNick nick h.clock).2.isNone &&
    !(h.findReg nick).any (fun r => r.isLocked cfg h.clock) &&
    lets cfg answers (h.findReg nick) (h.users c).pinger

/-- The ban found at accept does not stop `c` under the registration `r`. -/
def PassesBan (cfg : Config) (h : Hub) (c : UserId) (r : RegUser) : Prop :=
  (h.users c).pBan = none ∨ Exempt cfg r

section
variable (cfg : Config) (c : UserId)

def dropBan (h : Hub) : Hub := h.modify c fun u => { u with pBan := none }

def enterFree (h : Hub) : Hub :=
  ((h.dropBan c).hashAdd c).modify c fun u => { u with hashed := true }

def enterReg (h : Hub) : Hub :=
  (((h.dropBan c).hashAdd c).modify c fun u =>
    { u with hashed := true, state := .versionOrMyPass, waitingForPass := true }).addPrcsdCmd c
      .getPass

def awaitPass (h : Hub) : Hub :=
  ((h.dropBan c).modify c fun u =>
    { u with state := .versionOrMyPass, waitingForPass := true }).addPrcsdCmd c .getPass

def helloLater (h : Hub) : Hub :=
  (h.modify c fun u => { u with state := .versionOrMyPass }).addPrcsdCmd c .loginHello

def flush (h : Hub) : Hub :=
  (h.users c).cmdList.foldl (fun h cmd => h.processCmd c cmd)
    (h.modify c fun u => { u with cmdList := [] })

def enlist (h : Hub) : Hub :=
  ((h.add2Userlist cfg c).modify c fun u => { u with state := .addMe2Loop }).announce cfg c

def refresh (due : Bool) (h : Hub) : Hub :=
  (h.modify c fun u => { u with prcsdMyInfo := false }).refreshMyInfo cfg c due

/-- The right password for `r`, up to the taking of the nick. -/
def passed (r : RegUser) (items : List PassBf) (h : Hub) : Hub :=
  ((h.modify c fun u =>
    { u with
      waitingForPass := false
      profile := r.profile.toNat
      operator := cfg.profiles.isProfileAllowed r.profile.toNat .hasKeyIcon }).setReg
    { r with badPassCount := 0 }).setPasswdBf items

/-- A change for the user online under the nick. -/
def modifyOnline (sNick : Text) (f : User → User) (h : Hub) : Hub :=
  match h.findUser sNick with
  | some c => h.modify c f
  | none => h

end

/-- The changes of the registrations, each carried over to the user online, and
the profile that a user gives itself. -/
inductive RegChange (cfg : Config) (h₀ : Hub) (a : Action) : Hub → Hub → Prop where
  | add {x} (r) (looked : regLookup cfg h₀ a = some r.sNick) (new : x.findReg r.sNick = none)
      (same : SameUsers h₀ x) :
      RegChange cfg h₀ a x ((x.setReg r).modifyOnline r.sNick (User.giveProfile cfg r.profile))
  | change {x} (r s) (looked : regLookup cfg h₀ a = some r.sNick)
      (found : x.findReg r.sNick = some s) (same : SameUsers h₀ x)
      (event : ∃ nick pass profile, a = .reg (.changeReg nick pass profile)) :
      RegChange cfg h₀ a x ((x.setReg r).modifyOnline r.sNick (User.changeProfile cfg r.profile))
  | delete {x} (r) (looked : regLookup cfg h₀ a = some r.sNick)
      (found : x.findReg r.sNick = some r) (same : SameUsers h₀ x)
      (event : ∃ nick, a = .reg (.delete nick)) :
      RegChange cfg h₀ a x ((x.modifyOnline r.sNick User.loseProfile).remReg r)
  | self {x} (c profile) (own : selfProfile cfg h₀ a = some (c, profile))
      (state : (x.users c).state = .added) (nick : (x.users c).sNick = (h₀.users c).sNick)
      (reg : regLookup cfg h₀ a = none ∧ x.regs = h₀.regs ∨
        ∃ r, x.findReg (x.users c).sNick = some r ∧ r.profile = profile) :
      RegChange cfg h₀ a x (x.modify c (User.giveProfile cfg profile))

/-- The moves of an action `a` in a hub that was `h₀` when the action began. -/
inductive Move (cfg : Config) (h₀ : Hub) (a : Action) : Hub → Hub → Prop where
  | adjust {x} (c f) (same : ∀ u, (f u).core = u.core) : Move cfg h₀ a x (x.modify c f)
  | send {x} (c msg) (plain : msg.IsPlain) : Move cfg h₀ a x (x.send c msg)
  | opChat {x} (c msgs) (bot : ∀ msg ∈ msgs, Msg.IsOpChat cfg msg) :
      Move cfg h₀ a x (x.sendAll c msgs)
  | pingerLists {x} (c msgs) (pinger : (x.users c).pinger = true) :
      Move cfg h₀ a x (x.sendAll c msgs)
  | flush {x} (c) (live : (x.users c).state.isPastLogin = false) : Move cfg h₀ a x (x.flush c)
  | shut {x} (c f msgs) (same : ∀ u, (f u).core.toClose = u.core.toClose)
      (plain : ∀ msg ∈ msgs, Msg.IsPlain msg) :
      Move cfg h₀ a x (((x.modify c f).sendAll c msgs).close cfg c)
  | handshake {x} (c f st pinger) (early : (x.users c).state.toNat ≤ UserState.validate.toNat)
      (stays : st.toNat ≤ UserState.validate.toNat)
      (grows : (x.users c).pinger = true → pinger = true)
      (core : (f (x.users c)).core = { (x.users c).core with state := st, pinger := pinger }) :
      Move cfg h₀ a x (x.modify c f)
  | queueCmd {x} (c cmd) (other : cmd ≠ .loginHello) : Move cfg h₀ a x (x.addPrcsdCmd c cmd)
  | name {x} (c nick) (validate : (x.users c).state = .validate)
      (named : namedNick cfg h₀ a = some (c, nick))
      (same : x.users c = h₀.users c) (legal : illegalCharacter nick = none) :
      Move cfg h₀ a x (x.modify c fun u => { u with sNick := nick })
  | enterFree {x} (c) (validate : (x.users c).state = .validate)
      (named : namedNick cfg h₀ a = some (c, (x.users c).sNick))
      (free : x.findReg (x.users c).sNick = none) (vacant : x.Vacant (x.users c).sNick)
      (unbanned : (x.users c).pBan = none) : Move cfg h₀ a x (x.enterFree c)
  | helloLater {x} (c) (validate : (x.users c).state = .validate)
      (named : namedNick cfg h₀ a = some (c, (x.users c).sNick))
      (hashed : (x.users c).hashed = true)
      (free : x.findReg (x.users c).sNick = none) : Move cfg h₀ a x (x.helloLater c)
  | enterReg {x} (c r) (validate : (x.users c).state = .validate)
      (named : namedNick cfg h₀ a = some (c, (x.users c).sNick))
      (reg : x.findReg (x.users c).sNick = some r) (open_ : r.isLocked cfg x.clock = false)
      (vacant : x.Vacant (x.users c).sNick) (passes : x.PassesBan cfg c r) :
      Move cfg h₀ a x (x.enterReg c)
  | awaitPass {x} (c r) (validate : (x.users c).state = .validate)
      (named : namedNick cfg h₀ a = some (c, (x.users c).sNick))
      (reg : x.findReg (x.users c).sNick = some r) (open_ : r.isLocked cfg x.clock = false)
      (passes : x.PassesBan cfg c r) : Move cfg h₀ a x (x.awaitPass c)
  | deadSocket {x} (c other) (validate : (x.users c).state = .validate)
      (named : namedNick cfg h₀ a = some (c, (x.users c).sNick))
      (holder : x.findUser (x.users c).sNick = some other)
      (live : (x.users other).state.isPastLogin = false)
      (held : h₀.HeldLive (x.users c).sNick)
      (dead : ∃ cmd answers, a = .command c cmd answers ∧ answers.deadSocket = true ∧
        h₀.admits cfg c answers (x.users c).sNick = true)
      (passes : (x.users c).pBan = none ∨
        ∃ r, x.findReg (x.users c).sNick = some r ∧ Exempt cfg r) :
      Move cfg h₀ a x ((x.dropBan c).fail cfg other)
  | version {x} (c) (state : (x.users c).state = .versionOrMyPass) :
      Move cfg h₀ a x (x.modify c fun u => { u with state := .getNickListOrMyInfo })
  | addMe {x} (c st) (early : UserState.validate.toNat ≤ (x.users c).state.toNat)
      (late : (x.users c).state.toNat ≤ UserState.getNickListOrMyInfo.toNat)
      (named : (x.users c).state = .validate →
        namedNick cfg h₀ a = some (c, (x.users c).sNick) ∧ x.findReg (x.users c).sNick = none)
      (hashed : (x.users c).hashed = true) (done : (x.users c).waitingForPass = false)
      (user : (x.users c).pinger = false) (next : st = .ipv4Check ∨ st = .addMe) :
      Move cfg h₀ a x (x.modify c fun u => { u with state := st })
  | ipv4Done {x} (c f) (state : (x.users c).state = .ipv4Check)
      (core : (f (x.users c)).core = { (x.users c).core with state := .addMe }) :
      Move cfg h₀ a x (x.modify c f)
  | firstLoop {x} (c) (state : (x.users c).state = .addMe) :
      Move cfg h₀ a x (x.modify c fun u => { u with state := .addMe1Loop })
  | enlist {x} (c) (state : (x.users c).state = .addMe1Loop) (event : ∃ tick, a = .receive c tick) :
      Move cfg h₀ a x (x.enlist cfg c)
  | newInfo {x} (c) (state : (x.users c).state = .added) :
      Move cfg h₀ a x (x.modify c fun u => { u with prcsdMyInfo := true })
  | refresh {x} (c due) (live : (x.users c).state.isPastLogin = false)
      (new : (x.users c).prcsdMyInfo = true) : Move cfg h₀ a x (x.refresh cfg c due)
  | unwait {x} (c) (state : (x.users c).state = .added) :
      Move cfg h₀ a x (x.modify c fun u => { u with waitingForPass := false })
  | pass {x} (c r password items) (compared : PassCompared h₀ a c r password)
      (right : r.passMatches cfg password = true) (same : x = h₀)
      (self : x.findUser (x.users c).sNick = some c → (x.users c).hashed = true) :
      Move cfg h₀ a x ((x.passed cfg c r items).takeNick cfg c)
  | notePass {x} (c r password) (compared : PassCompared h₀ a c r password)
      (wrong : r.passMatches cfg password = false) (same : x.regs = h₀.regs)
      (time : x.clock = h₀.clock) : Move cfg h₀ a x (x.setReg (r.noteBadPass cfg x.clock))
  | hello {x} (c) (state : (x.users c).state = .versionOrMyPass) :
      Move cfg h₀ a x (x.send c (.hello (x.users c).sNick))
  | bans {x} (es) : Move cfg h₀ a x (x.setBans (run (BanManager.step cfg.ban) x.bans es))
  | reg {x y} (change : RegChange cfg h₀ a x y) : Move cfg h₀ a x y
  | keyLost {x} (c) (event : ∃ nick pass profile, a = .reg (.changeReg nick pass profile)) :
      Move cfg h₀ a x (x.tellKeyLost cfg c)
  | askReg {x} (c nick) (online : x.findUser nick = some c) (event : ∃ op, a = .reg op) :
      Move cfg h₀ a x (x.modify c fun u => { u with waitingForPass := true })
  | askAgain {x} (c) (state : (x.users c).state = .added) :
      Move cfg h₀ a x (x.modify c fun u => { u with waitingForPass := true })
  | passwdBf {x} (items) : Move cfg h₀ a x (x.setPasswdBf items)
  | post {x} (eCmdType text text1) :
      Move cfg h₀ a x (x.addQueueItem eCmdType [.other text] [.other text1])
  | accept {x} (u : User) (fresh : u.core = { ({} : User).core with
      state := .socketAccepted, ipHash := u.ipHash, pBan := u.pBan })
      (event : ∃ s ip v6, a = .accept s ip v6) :
      Move cfg h₀ a x (x.newUser u)
  | endClosing {x} (c) (state : (x.users c).state = .closing) :
      Move cfg h₀ a x (x.modify c fun u => { u with state := .remMe })
  | remove {x} (c) (state : (x.users c).state = .remMe) :
      Move cfg h₀ a x (x.remUser c)
  | round {x} (queue) (event : ∃ results, a = .sendLoop results) :
      Move cfg h₀ a x (x.setQueue queue)
  | roundSend {x} (c msgs) (event : ∃ results, a = .sendLoop results) :
      Move cfg h₀ a x (x.sendAll c msgs)
  | roundAdd {x} (c f) (event : ∃ results, a = .sendLoop results)
      (state : (x.users c).state = .addMe2Loop)
      (core : (f (x.users c)).core = { (x.users c).core with state := .added, pBan := none }) :
      Move cfg h₀ a x (x.modify c f)

/-- A sequence of moves. -/
abbrev Moves (cfg : Config) (h₀ : Hub) (a : Action) : Hub → Hub → Prop :=
  Relation.ReflTransGen (Move cfg h₀ a)

/-- What every move keeps, every action keeps. -/
theorem Moves.invariant {cfg : Config} {h₀ : Hub} {a : Action} {P : Hub → Prop}
    (keeps : ∀ x y, P x → Move cfg h₀ a x y → P y) {x y : Hub} (moves : Moves cfg h₀ a x y)
    (hx : P x) : P y := by
  induction moves with
  | refl => exact hx
  | tail _ move ih => exact keeps _ _ ih move

end Hub

end FlyHub.Session
