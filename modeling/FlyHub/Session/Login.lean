import FlyHub.Session.Registration

/-!
# The login commands

A command is its bytes, the closing pipe included. What the hub finds out by
other means than its own state comes with the command: whether a flood limit is
reached, whether the key fits the lock, what a look at another socket says.
-/

namespace FlyHub.Session

open FlyHub.Broadcast FlyHub.Ban FlyHub.Lists

/-- What `DeFloodCheckForFlood` does about a command. -/
inductive Flood where
  | pass
  | drop
  | close
  deriving DecidableEq, Repr

/-- The answers from outside the model. `deadSocket` is about the user that holds
the nick asked for. -/
structure Answers where
  flood : Flood := .pass
  validKey : Bool := true
  validJson : Bool := true
  rulesOk : Bool := true
  hubFull : Bool := false
  maxIpConns : Bool := false
  fastReconnect : Bool := false
  deadSocket : Bool := false
  sent : Hub.SendResult := .all

def isCommand (cmd : Text) (name : String) : Bool := (ascii name).isPrefixOf cmd

/-- The exact length makes it a `$GetNickList` and no longer command. -/
def isGetNickList (cmd : Text) : Bool := cmd.length = 13 && isCommand cmd "$GetNickList"

/-- The nick in a `$ValidateNick`, without the pipe. -/
def validateNickArg (cmd : Text) : Text := (cmd.drop 14).take (cmd.length - 15)

/-- The nick in a `$MyINFO $ALL`, if a blank ends it. -/
def myInfoNick (cmd : Text) : Option Text :=
  if 32 ∈ cmd.drop 13 then some ((cmd.drop 13).takeWhile (· ≠ 32)) else none

/-- The password in a `$MyPass`, without the pipe. -/
def myPassArg (cmd : Text) : Text := (cmd.drop 8).take (cmd.length - 9)

/-- The tokens of a `$Supports`, a blank at the end starting no new one. -/
def supportTokens : Text → List Text
  | [] => []
  | c :: s =>
    if c = 32 then [] :: supportTokens s
    else
      match supportTokens s with
      | [] => [[c]]
      | t :: ts => (c :: t) :: ts

namespace RegUser

/-- The comparison in `MyPass`. -/
def passMatches (cfg : Config) (r : RegUser) (pass : Text) : Bool :=
  if r.passHash then cfg.hashPassword pass = some r.passData else r.passData = pass

/-- `iMinutes2Wait`. From the 33rd bad password on the power does not fit. -/
def minutes2Wait (cfg : Config) (r : RegUser) : UInt32 :=
  if r.badPassCount ≤ 32 then UInt32.ofNat (Nat.pow 2 (r.badPassCount - 1))
  else cfg.narrow (r.badPassCount - 1)

/-- When the next password may be tried, the product being one of 32 bits. -/
def lockedUntil (cfg : Config) (r : RegUser) : Nat :=
  r.lastBadPass + (60 * r.minutes2Wait cfg).toNat

/-- The test in `ValidateUserNick`. -/
def isLocked (cfg : Config) (r : RegUser) (now : Nat) : Bool :=
  cfg.advancedPassProtection && r.badPassCount ≠ 0 && now < r.lockedUntil cfg

/-- The bookkeeping of `MyPass` for a bad password. -/
def noteBadPass (cfg : Config) (r : RegUser) (now : Nat) : RegUser :=
  if cfg.advancedPassProtection then
    { r with
      lastBadPass := now
      badPassCount := if r.badPassCount < 255 then r.badPassCount + 1 else r.badPassCount }
  else r

end RegUser

/-- The first character that no nick may have, and what is said about it. -/
def illegalCharacter (nick : Text) : Option Notice :=
  match nick.find? fun c => c = 32 || c = 36 || c = 124 || c < 32 with
  | none => none
  | some c =>
    if c = 32 ∨ c = 36 ∨ c = 124 then some (.nickIllegalCharacter c)
    else some .nickIllegalWhiteCharacter

namespace Hub

section
variable (cfg : Config) (h : Hub) (c : UserId)

/-- The user is told why, and closed. -/
def refuse (msg : Msg) : Hub := (h.send c msg).close cfg c

/-- `AddMeOrIPv4Check`. -/
def addMeOrIPv4Check : Hub :=
  if (h.users c).ipv6 && (h.users c).supportIPv4 && cfg.useIPv4 then
    let h := h.modify c fun u => { u with state := .ipv4Check }
    h.send c (.connectToMe (h.users c).sNick)
  else h.modify c fun u => { u with state := .addMe }

def key (a : Answers) (cmd : Text) : Hub :=
  if (h.users c).haveKey then h.close cfg c
  else
    let h := h.modify c fun u => { u with haveKey := true }
    if cmd.length < 6 || !a.validKey then h.close cfg c
    else h.modify c fun u => { u with state := .validate, buffer := none }

/-- One token of `Supports`. False if the user has been closed. -/
def supportToken (token : Text) : Hub × Bool :=
  if token = [] then (h.close cfg c, false)
  else if token = ascii "NoHello" then (h.modify c fun u => { u with noHello := true }, true)
  else if token = ascii "QuickList" then
    (h.modify c fun u => { u with quickList := true, noHello := true }, true)
  else if token = ascii "UserIP2" then (h.modify c fun u => { u with userIP2 := true }, true)
  else if token = ascii "IPv4" then (h.modify c fun u => { u with supportIPv4 := true }, true)
  else if token = ascii "ExtJSON2" then (h.modify c fun u => { u with isJsonUser := true }, true)
  else if token = ascii "BotINFO" && !(h.users c).pinger then
    if cfg.dontAllowPingers then (h.refuse cfg c (.notice .pingersNotAllowed), false)
    else ((h.modify c fun u => { u with pinger := true }).send c .hubName, true)
  else (h, true)

end

def supportLoop (cfg : Config) (c : UserId) : List Text → Hub → Hub
  | [], h => (h.modify c fun u => { u with state := .validate }).addPrcsdCmd c .supports
  | token :: tokens, h =>
    let next := h.supportToken cfg c token
    if next.2 then supportLoop cfg c tokens next.1 else next.1

section
variable (cfg : Config) (h : Hub) (c : UserId)

def supports (cmd : Text) : Hub :=
  if (h.users c).haveSupports then h.close cfg c
  else
    let h := h.modify c fun u => { u with haveSupports := true }
    if cmd.length < 13 then h.close cfg c
    else
      let tokens := supportTokens ((cmd.drop 10).take (cmd.length - 11))
      if cmd[cmd.length - 2]? = some 32 then
        if cfg.noQuackSupports then h.refuse cfg c (.notice .quackSupports)
        else supportLoop cfg c tokens (h.modify c fun u => { u with quackSupports := true })
      else supportLoop cfg c tokens h

/-- `MyNick`, the second connection of a user that is asked for its IPv4. -/
def myNick (cmd : Text) : Hub :=
  if (h.users c).ipv6 || cmd.length < 10 then h.refuse cfg c .ctmToHub
  else
    match h.findUser ((cmd.drop 8).take (cmd.length - 9)) with
    | none => h.refuse cfg c .ctmToHub
    | some other =>
      if (h.users other).state ≠ .ipv4Check then h.refuse cfg c .ctmToHub
      else (h.modify other fun u => { u with ipv4 := true, state := .addMe }).close cfg c

def botInfo (cmd : Text) : Hub :=
  if !(h.users c).pinger || (h.users c).haveBotInfo then h.close cfg c
  else if cmd.length < 9 then h.close cfg c
  else
    let h := (h.modify c fun u => { u with haveBotInfo := true }).send c .hubInfo
    if (h.users c).haveGetNickList then h.close cfg c else h

/-- The lists a pinger is sent. -/
def pingerLists : List Msg :=
  (if !(h.users c).noHello && 11 < h.nickList.length then [.nickList h.nickList] else []) ++
    infoMsgs (if cfg.fullMyINFOOption.val = 2 then h.myInfos else h.myInfosTag)

/-- `GetNickList`. True if the caller is to note that the list was asked for. -/
def getNickList (a : Answers) : Hub × Bool :=
  let u := h.users c
  if u.quickList && u.haveGetNickList then (h.close cfg c, false)
  else if u.pinger then
    if !u.haveGetNickList then
      let h := (h.sendAll c (h.pingerLists cfg c)).try2Send cfg c a.sent
      let h := h.modify c fun u => { u with haveGetNickList := true }
      if (h.users c).haveBotInfo then (h.close cfg c, false) else (h, false)
    else (h.close cfg c, false)
  else
    let h := h.modify c fun u => { u with haveGetNickList := true }
    match a.flood with
    | .drop => (h, false)
    | .close => (h.close cfg c, false)
    | .pass => (h, !u.quickList)

/-- `GetNickList` and what its callers after the nick is known do with the answer. -/
def getNickListLater (a : Answers) : Hub :=
  let asked := h.getNickList cfg c a
  if asked.2 then asked.1.modify c fun u => { u with getNickList := true } else asked.1

/-- `ValidateUserNickFinally`. -/
def validateUserNickFinally (isNotReg : Bool) (nickLen : Nat) (validateNick : Bool) : Hub × Bool :=
  if isNotReg then
    if cfg.minNickLen ≠ 0 && nickLen < cfg.minNickLen ||
        cfg.maxNickLen ≠ 0 && cfg.maxNickLen < nickLen then
      (h.refuse cfg c (.notice .nickLimit), false)
    else if cfg.regOnly && !(h.users c).pinger then (h.refuse cfg c (.notice .regOnly), false)
    else
      let h := (h.hashAdd c).modify c fun u => { u with hashed := true }
      if validateNick then
        ((h.modify c fun u => { u with state := .versionOrMyPass }).addPrcsdCmd c .loginHello, true)
      else (h, true)
  else
    let h := (h.hashAdd c).modify c fun u =>
      { u with hashed := true, state := .versionOrMyPass, waitingForPass := true }
    (h.addPrcsdCmd c .getPass, true)

/-- The end of `ValidateUserNick`, where the nick may be in use. -/
def claimNick (a : Answers) (isNotReg : Bool) (nick : Text) (validateNick : Bool) : Hub × Bool :=
  let finally_ := h.validateUserNickFinally cfg c isNotReg nick.length validateNick
  match h.findUser nick with
  | none => finally_
  | some other =>
    if (h.users other).state.isPastLogin then finally_
    else if a.deadSocket then (h.fail cfg other, false)
    else if isNotReg then (h.refuse cfg c (.validateDenide nick), false)
    else
      let h := h.modify c fun u => { u with state := .versionOrMyPass, waitingForPass := true }
      (h.addPrcsdCmd c .getPass, true)

/-- The profile a nick is let in under. -/
def regProfile : Option RegUser → Int
  | some r => r.profile.toNat
  | none => -1

/-- `ValidateUserNick` from where the registration has been looked up. -/
def admitNick (a : Answers) (reg : Option RegUser) (nick : Text) (validateNick : Bool) :
    Hub × Bool :=
  let allowed := cfg.profiles.isProfileAllowed (regProfile reg)
  if !allowed .enterIfIpBan && (h.users c).pBan.isSome then (h.refuse cfg c (.notice .ban), false)
  else
    let h := h.modify c fun u => { u with pBan := none }
    if !allowed .enterFullHub && !(h.users c).pinger && a.hubFull then
      (h.refuse cfg c .hubIsFull, false)
    else if !allowed .noUsrSameIp && a.maxIpConns then
      (h.refuse cfg c (.notice .maxIpConns), false)
    else if !allowed .noReconnTime && a.fastReconnect then (h.close cfg c, false)
    else h.claimNick cfg c a reg.isNone nick validateNick

/-- The part of `ValidateUserNick` that looks for a registration. -/
def checkReg (a : Answers) (nick : Text) (validateNick : Bool) : Hub × Bool :=
  match h.findReg nick with
  | none => h.admitNick cfg c a none nick validateNick
  | some r =>
    if r.isLocked cfg h.clock then
      (h.refuse cfg c (.notice (.lastPassWasWrong (r.lockedUntil cfg - h.clock))), false)
    else h.admitNick cfg c a (some r) nick validateNick

/-- `ValidateUserNick`. False if the caller is to stop. -/
def validateUserNick (a : Answers) (nick : Text) (validateNick : Bool) : Hub × Bool :=
  match illegalCharacter nick with
  | some notice => (h.refuse cfg c (.notice notice), false)
  | none =>
    let h := h.modify c fun u => { u with sNick := nick }
    if cfg.reserved nick then
      ((h.send c (.notice .nickReserved)).refuse cfg c (.validateDenide nick), false)
    else if (h.users c).pBan = some ⟨hashNick nick⟩ then
      (h.refuse cfg c (.notice .ban), false)
    else
      let found := h.bans.findNick nick h.clock
      let h := h.setBans found.1
      if found.2.isSome then (h.refuse cfg c (.notice .ban), false)
      else h.checkReg cfg c a nick validateNick

def validateNick (a : Answers) (cmd : Text) : Hub :=
  if (h.users c).quickList then h.close cfg c
  else if cmd.length < 16 then h.close cfg c
  else (h.validateUserNick cfg c a (validateNickArg cmd) true).1

def version (cmd : Text) : Hub :=
  if cmd.length < 11 then h.close cfg c
  else h.modify c fun u => { u with state := .getNickListOrMyInfo }

/-- `MyINFODeflood`. True if the MyINFO is to be looked at. -/
def myInfoDeflood (a : Answers) (cmd : Text) : Hub × Bool :=
  if cmd.length < 22 + (h.users c).sNick.length then (h.close cfg c, false)
  else
    match a.flood with
    | .drop => (h, false)
    | .close => (h.close cfg c, false)
    | .pass =>
      if cfg.maxMyInfoLen < cmd.length then (h.refuse cfg c (.notice .myInfoTooLong), false)
      else (h, true)

/-- The MyINFO says what the last one said, the nick aside. -/
def sameMyInfo (cmd : Text) : Bool :=
  let u := h.users c
  u.myInfoOriginal ≠ [] && cmd.length = u.myInfoOriginal.length &&
    u.myInfoOriginal.drop (14 + u.sNick.length) = cmd.drop (14 + u.sNick.length)

/-- `MyINFO`. True if there is a new one. -/
def myInfo (a : Answers) (cmd : Text) : Hub × Bool :=
  if h.sameMyInfo c cmd then (h, false)
  else if 65535 < cmd.length then (h.refuse cfg c (.notice .myInfoCorrupted), false)
  else
    let d := cfg.parseMyInfo cmd
    let h := h.modify c fun u =>
      { u with
        myInfoOriginal := cmd
        sharedSize := d.sharedSize
        ipv4Active := d.ipv4Active
        ipv6Active := d.ipv6Active }
    if !a.rulesOk then (h.close cfg c, false) else (h, true)

/-- The end of the first MyINFO, after which the user goes into the list. -/
def firstMyInfo (a : Answers) (cmd : Text) : Hub :=
  let info := h.myInfo cfg c a cmd
  let u := info.1.users c
  if !info.2 || u.waitingForPass || u.pinger then info.1 else info.1.addMeOrIPv4Check cfg c

/-- The nick in the MyINFO is not the user's own. -/
def isSpoof (cmd : Text) : Bool :=
  !((h.users c).sNick ++ [32]).isPrefixOf (cmd.drop 13)

/-- A MyINFO of a user whose nick has been validated. -/
def loginMyInfo (a : Answers) (cmd : Text) : Hub :=
  let next := h.myInfoDeflood cfg c a cmd
  if !next.2 then next.1
  else if next.1.isSpoof c cmd then next.1.close cfg c
  else next.1.firstMyInfo cfg c a cmd

/-- A MyINFO of a user that has no nick yet. -/
def quickListMyInfo (a : Answers) (cmd : Text) : Hub :=
  if !(h.users c).quickList then h.close cfg c
  else
    let next := h.myInfoDeflood cfg c a cmd
    if !next.2 then next.1
    else
      match myInfoNick cmd with
      | none => next.1.close cfg c
      | some nick =>
        let named := next.1.validateUserNick cfg c a nick false
        if named.2 then named.1.firstMyInfo cfg c a cmd else named.1

def findPassBf : Option PassBf := h.passwdBfCheck.find? fun p => p.ipHash = (h.users c).ipHash

def removePassBf : Hub :=
  h.setPasswdBf (h.passwdBfCheck.eraseP fun p => p.ipHash = (h.users c).ipHash)

/-- The address is banned, unless it is already banned in full. -/
def banBruteForce : Hub :=
  let u := h.users c
  let found := h.bans.findFull u.ipHash h.clock
  let h := h.setBans found.1
  match found.2.filter fun b => (h.bans.ban b).full with
  | some _ => h.send c (.notice .isBanned)
  | none =>
    let reason := ascii "3x bad password for nick " ++ u.sNick
    let user : BanUser := ⟨u.sNick, u.sIP, u.ipHash⟩
    let bans :=
      if cfg.bruteForceBanType = 1 then
        (h.bans.banIp cfg.ban h.clock (some user) none (some reason) none true).1
      else
        (h.bans.tempBanIp cfg.ban h.clock (some user) none (some reason) none
          (cfg.bruteForceTempBanTime * 60) 0 true).1
    ((h.setBans bans).removePassBf c).send c (.notice .ipBannedBruteForce)

/-- The user hears that the password was wrong, and is closed. -/
def tellBadPass : Hub := (h.send c .badPass).refuse cfg c (.notice .incorrectPassword)

/-- `MyPass` when the password is wrong. -/
def badPass (r : RegUser) : Hub :=
  let h := h.setReg (r.noteBadPass cfg h.clock)
  if cfg.bruteForceBanType = 0 then h.tellBadPass cfg c
  else
    match h.findPassBf c with
    | none => (h.setPasswdBf (⟨(h.users c).ipHash, 1⟩ :: h.passwdBfCheck)).tellBadPass cfg c
    | some p =>
      if p.iCount = 2 then (h.banBruteForce cfg c).close cfg c
      else
        (h.setPasswdBf (h.passwdBfCheck.map fun q =>
          if q.ipHash = p.ipHash then ⟨q.ipHash, q.iCount + 1⟩ else q)).tellBadPass cfg c

/-- The part of `MyPass` that takes the nick, from its ghost if there is one. -/
def takeNick : Hub :=
  if (h.users c).hashed then h
  else
    let h := match h.findUser (h.users c).sNick with
      | some other => h.closeWith cfg other (h.users c).quickList
      | none => h
    (h.hashAdd c).modify c fun u => { u with hashed := true }

/-- The end of `MyPass`. A QuickList user has already given its MyINFO. -/
def welcome : Hub :=
  let u := h.users c
  if !u.quickList then
    let h := h.send c (.hello u.sNick)
    if u.operator then h.send c (.logedIn u.sNick) else h
  else if !u.pinger then h.addMeOrIPv4Check cfg c
  else h

/-- `MyPass` when the password is right. -/
def goodPass (r : RegUser) : Hub :=
  let h := h.modify c fun u => { u with profile := r.profile.toNat }
  let h := h.setReg { r with badPassCount := 0 }
  let h := h.removePassBf c
  let operator := h.isAllowed cfg c .hasKeyIcon
  let h := h.modify c fun u => { u with operator := operator }
  (h.takeNick cfg c).welcome cfg c

def myPass (cmd : Text) : Hub :=
  match h.findReg (h.users c).sNick with
  | none => h.close cfg c
  | some r =>
    if !(h.users c).waitingForPass then h.close cfg c
    else
      let h := h.modify c fun u => { u with waitingForPass := false }
      if cmd.length < 10 || 73 < cmd.length then h.close cfg c
      else if r.passMatches cfg (myPassArg cmd) then h.goodPass cfg c r
      else h.badPass cfg c r

/-- A command out of place: all but two close the user. -/
def badState (cmd : Text) : Hub :=
  if isCommand cmd "$BotINFO" then h.botInfo cfg c cmd
  else if isCommand cmd "$ExtJSON " then h
  else h.close cfg c

end

end Hub

end FlyHub.Session
