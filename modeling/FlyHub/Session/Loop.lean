import FlyHub.Session.Login

/-!
# The service loop

The hub accepts connections, reads the commands of each user, moves the logins
on and sends what is queued. A run is any sequence of these actions; the clock
never goes back.
-/

namespace FlyHub.Session

open FlyHub.Broadcast FlyHub.Ban FlyHub.Lists FlyHub.Lib

/-- What `ReceiveLoop` finds when it comes to a user. -/
structure Tick where
  newTick : Bool := true
  lockMade : Bool := true
  timeout : Bool := false
  delayed : Bool := false
  closeLoopsLeft : Bool := false
  sent : Hub.SendResult := .all

/-- The commands of a user in the list whose work is done elsewhere. -/
def otherCommands : List String :=
  ["$Search ", "$SR ", "$ConnectToMe ", "$Close ", "$RevConnectToMe ", "$ExtJSON ",
    "$MultiSearch ", "$MultiConnectToMe ", "$GetINFO ", "$To: ", "$Kick ", "$OpForceMove $Who:", "<"]

namespace Hub

section
variable (cfg : Config) (h : Hub) (c : UserId)

/-- The user is closed if the flood limit says so. -/
def deflood (a : Answers) : Hub := if a.flood = .close then h.close cfg c else h

def preProcessKeyOrSup (a : Answers) (cmd : Text) : Hub :=
  if isCommand cmd "$Supports " then h.supports cfg c cmd
  else if isCommand cmd "$Key " then h.key cfg c a cmd
  else if isCommand cmd "$MyNick " then h.myNick cfg c cmd
  else h.badState cfg c cmd

def preProcessValidate (a : Answers) (cmd : Text) : Hub :=
  if isCommand cmd "$Key " then
    if !(h.users c).haveSupports then h.key cfg c a cmd
    else h.modify c fun u => { u with buffer := none }
  else if isCommand cmd "$ValidateNick " then h.validateNick cfg c a cmd
  else if isCommand cmd "$MyINFO $ALL " then h.quickListMyInfo cfg c a cmd
  else if isGetNickList cmd then
    if !(h.users c).quickList && !(h.users c).pinger then h.close cfg c
    else (h.getNickList cfg c a).1
  else h.badState cfg c cmd

def preProcessVersionOrMyPass (a : Answers) (cmd : Text) : Hub :=
  if isCommand cmd "$Version " then h.version cfg c cmd
  else if isGetNickList cmd then h.getNickListLater cfg c a
  else if isCommand cmd "$MyINFO $ALL " then h.loginMyInfo cfg c a cmd
  else if isCommand cmd "$MyPass " then h.myPass cfg c cmd
  else h.badState cfg c cmd

def preProcessGetNickListOrMyInfo (a : Answers) (cmd : Text) : Hub :=
  if isGetNickList cmd then h.getNickListLater cfg c a
  else if isCommand cmd "$MyINFO $ALL " then h.loginMyInfo cfg c a cmd
  else h.badState cfg c cmd

/-- A MyINFO after the login commands, and whether it says something new. -/
def laterMyInfo (a : Answers) (cmd : Text) : Hub × Bool :=
  let next := h.myInfoDeflood cfg c a cmd
  if !next.2 then (next.1, false)
  else if next.1.isSpoof c cmd then (next.1.close cfg c, false)
  else next.1.myInfo cfg c a cmd

/-- The user has given all login commands and is not yet in `ADDED`. -/
def preProcessAddMe (a : Answers) (cmd : Text) : Hub :=
  if isGetNickList cmd then h.getNickListLater cfg c a
  else if isCommand cmd "$ExtJSON " then
    match a.flood with
    | .drop => h
    | .close => h.close cfg c
    | .pass => if !a.validJson then h.close cfg c else h.badState cfg c cmd
  else if isCommand cmd "$MyINFO $ALL " then (h.laterMyInfo cfg c a cmd).1
  else if isCommand cmd "$MultiSearch " || isCommand cmd "$Search " || isCommand cmd "<" then
    h.deflood cfg c a
  else h.badState cfg c cmd

/-- The `$MyPass` of a user that an operator wants to register. The user gets the
profile also when it is registered already. -/
def registerMyself (name cmd : Text) : Hub :=
  match cfg.profileIndex name with
  | none => (h.send c (.notice .noProfile)).modify c fun u => { u with buffer := none }
  | some profile =>
    if cmd.length < 10 then
      (h.send c (.notice .passMustSpecified)).modify c fun u => { u with waitingForPass := true }
    else if 73 < cmd.length then
      (h.send c (.notice .maxAlwdPassLen)).modify c fun u => { u with waitingForPass := true }
    else
      let added := h.addNew cfg (h.users c).sNick (myPassArg cmd) profile
      let text := if added.2 then .nowRegisteredAs name else .alreadyRegistered
      let h := (added.1.send c (.notice text)).modify c fun u => { u with buffer := none }
      let wasOperator := (h.users c).operator
      let h := h.modify c fun u => u.giveProfile cfg profile
      if !wasOperator && (h.users c).operator && h.isAllowed cfg c .allowedOpChat then
        h.enterOpChat cfg c
      else h

def addedMyPass (cmd : Text) : Hub :=
  let h := h.modify c fun u => { u with waitingForPass := false }
  match (h.users c).buffer with
  | none => h
  | some name => h.registerMyself cfg c name cmd

/-- A user in the list. -/
def preProcessAdded (a : Answers) (cmd : Text) : Hub :=
  if isCommand cmd "$MyINFO $ALL " then
    let next := h.laterMyInfo cfg c a cmd
    if next.2 then next.1.modify c fun u => { u with prcsdMyInfo := true } else next.1
  else if isCommand cmd "$MyPass " && (h.users c).waitingForPass then h.addedMyPass cfg c cmd
  else if isGetNickList cmd then h.getNickListLater cfg c a
  else if otherCommands.any (isCommand cmd) then h.deflood cfg c a
  else h.badState cfg c cmd

/-- `PreProcessData`. -/
def preProcessData (a : Answers) (cmd : Text) : Hub :=
  match (h.users c).state with
  | .closing | .remMe => h
  | state =>
    if cmd.length < 5 then h.close cfg c
    else
      match state with
      | .socketAccepted =>
        if isCommand cmd "$MyNick " then h.myNick cfg c cmd else h.badState cfg c cmd
      | .keyOrSup => h.preProcessKeyOrSup cfg c a cmd
      | .validate => h.preProcessValidate cfg c a cmd
      | .versionOrMyPass => h.preProcessVersionOrMyPass cfg c a cmd
      | .getNickListOrMyInfo => h.preProcessGetNickListOrMyInfo cfg c a cmd
      | .ipv4Check | .addMe | .addMe1Loop | .addMe2Loop => h.preProcessAddMe cfg c a cmd
      | .added => h.preProcessAdded cfg c a cmd
      | .closing | .remMe => h

/-- `GenerateMyInfoLong`. True if the text has changed; the old one leaves the list. -/
def generateMyInfoLong : Hub × Bool :=
  let u := h.users c
  let info : MyInfo := ⟨u.sNick, cfg.longFields u⟩
  if u.myInfoLong = some info then (h, false)
  else ((h.forgetLong cfg c).modify c fun u => { u with myInfoLong := some info }, true)

def generateMyInfoShort : Hub × Bool :=
  let u := h.users c
  let info : MyInfo := ⟨u.sNick, cfg.shortFields u⟩
  if u.myInfoShort = some info then (h, false)
  else ((h.forgetShort cfg c).modify c fun u => { u with myInfoShort := some info }, true)

def longMsg : List Msg := infoMsgs (h.users c).myInfoLong.toList

def shortMsg : List Msg := infoMsgs (h.users c).myInfoShort.toList

def add2MyInfosTag : Hub :=
  { h with myInfosTag := h.myInfosTag ++ (h.users c).myInfoLong.toList }

def add2MyInfos : Hub := { h with myInfos := h.myInfos ++ (h.users c).myInfoShort.toList }

/-- The end of `ProcessCmds`, a MyINFO that has changed. `due` tells that
`MYINFO_DELAY` has gone by, so that it is for everyone and not for the operators. -/
def refreshMyInfo (due : Bool) : Hub :=
  let everyone : Cmd := if due then .myInfo else .ops
  match cfg.fullMyINFOOption with
  | 0 =>
    let long := h.generateMyInfoLong cfg c
    if !long.2 then long.1
    else
      let h := long.1.add2MyInfosTag c
      h.addQueueItem everyone (h.longMsg c) []
  | 1 =>
    let long := h.generateMyInfoLong cfg c
    if !long.2 then long.1
    else
      let h := long.1.add2MyInfosTag c
      let short := h.generateMyInfoShort cfg c
      if !short.2 then short.1.addQueueItem .myInfo [] (short.1.longMsg c)
      else
        let h := short.1.add2MyInfos c
        h.addQueueItem .myInfo (if due then h.shortMsg c else []) (h.longMsg c)
  | 2 =>
    let short := h.generateMyInfoShort cfg c
    if !short.2 then short.1
    else
      let h := short.1.add2MyInfos c
      h.addQueueItem everyone (h.shortMsg c) []

def processCmd (cmd : PrcsdUsrCmd) : Hub :=
  match cmd with
  | .supports => h.send c .supports
  | .loginHello => h.send c (.hello (h.users c).sNick)
  | .getPass => h.send c .getPass

/-- `ProcessCmds`, which `UserProcessLines` calls unless the user has been closed. -/
def processCmds (due : Bool) : Hub :=
  if (h.users c).state.isPastLogin then h
  else
    let queue := (h.users c).cmdList
    let h := h.modify c fun u => { u with cmdList := [] }
    let h := queue.foldl (fun h cmd => h.processCmd c cmd) h
    if (h.users c).prcsdMyInfo then
      (h.modify c fun u => { u with prcsdMyInfo := false }).refreshMyInfo cfg c due
    else h

/-- `Add2Userlist`. -/
def add2Userlist : Hub :=
  let h := { h with nickList := add2NickList h.nickList (h.users c).sNick }
  match cfg.fullMyINFOOption with
  | 0 => (h.generateMyInfoLong cfg c).1.add2MyInfosTag c
  | 1 =>
    let h := (h.generateMyInfoLong cfg c).1.add2MyInfosTag c
    (h.generateMyInfoShort cfg c).1.add2MyInfos c
  | 2 => (h.generateMyInfoShort cfg c).1.add2MyInfos c

/-- The hello and the MyINFO of a user that has come into the list. -/
def announce : Hub :=
  let h := h.addQueueItem .hello [.hello (h.users c).sNick] []
  match cfg.fullMyINFOOption with
  | 0 => h.addQueueItem .myInfo (h.longMsg c) []
  | 1 => h.addQueueItem .myInfo (h.shortMsg c) (h.longMsg c)
  | 2 => h.addQueueItem .myInfo (h.shortMsg c) []

/-- The state machine of `ReceiveLoop`. -/
def receiveUser (t : Tick) : Hub :=
  let u := h.users c
  match u.state with
  | .socketAccepted =>
    if !t.newTick then h
    else if !t.lockMade then h.close cfg c
    else (h.send c .lock).modify c fun u => { u with state := .keyOrSup }
  | .keyOrSup | .validate | .versionOrMyPass | .getNickListOrMyInfo =>
    if t.timeout then h.close cfg c else h
  | .ipv4Check => if t.timeout then h.modify c fun u => { u with state := .addMe } else h
  | .addMe =>
    if !u.getNickList && !u.quickList && u.pinger then h
    else (h.send c .hubName).modify c fun u => { u with state := .addMe1Loop }
  | .addMe1Loop =>
    if t.delayed && !u.operator then if t.timeout then h.close cfg c else h
    else
      let h := h.modify c fun u => { u with buffer := none }
      let h := if u.ipv6 && cfg.isTunnel u.ipHash then
        h.modify c fun u => { u with ipv4 := true } else h
      let h := (h.add2Userlist cfg c).modify c fun u => { u with state := .addMe2Loop }
      h.announce cfg c
  | .addMe2Loop => if t.timeout then h.close cfg c else h
  | .added => h
  | .closing =>
    if !u.error && u.pending && t.closeLoopsLeft then h.try2Send cfg c t.sent
    else h.modify c fun u => { u with state := .remMe }
  | .remMe => h.remUser c

/-- The text of the nick list for this user. The bot of the operators' chat is
added for those who may see it. -/
def nickListFor : Text :=
  match cfg.opChatNick with
  | some nick => if h.isAllowed cfg c .allowedOpChat then add2NickList h.nickList nick else h.nickList
  | none => h.nickList

/-- `AddUserList`. -/
def addUserList : Hub :=
  let hello : List Msg := if (h.users c).noHello then [] else [.nickList (h.nickListFor cfg c)]
  let long := cfg.fullMyINFOOption.val = 0 || cfg.fullMyINFOOption.val = 1 &&
    h.isAllowed cfg c .sendFullMyInfos
  h.sendAll c (hello ++ infoMsgs (if long then h.myInfosTag else h.myInfos))

/-- What `ProcessQueues` reads of a user. -/
def queueUser : QueueUser :=
  let u := h.users c
  { sharedSize := u.sharedSize
    profile := u.profile
    ipv6 := u.ipv6
    ipv4 := u.ipv4
    ipv6Active := u.ipv6Active
    ipv4Active := u.ipv4Active
    operator := u.operator
    noHello := u.noHello
    userIP2 := u.userIP2 && !u.quackSupports
    isJsonUser := u.isJsonUser }

/-- The user is sent the queue of its type. -/
def processQueues : Hub :=
  let user := h.queueUser c
  let queue := h.queue.processQueues msgSink matchExtJson cfg.queueSettings user
  (h.setQueue queue).sendAll c (queue.selected msgSink cfg.queueSettings user)

/-- `SendLoop` for one user. -/
def sendUser (result : SendResult) : Hub :=
  match (h.users c).state with
  | .addMe2Loop =>
    let h := h.modify c fun u => { u with state := .added, pBan := none, buffer := none }
    let h := h.addUserList cfg c
    (h.modify c fun u => { u with getNickList := false }).try2Send cfg c result
  | .added =>
    let h := if (h.users c).getNickList then
      (h.addUserList cfg c).modify c fun u => { u with getNickList := false } else h
    let h := if h.queue.haveItems then h.processQueues cfg c else h
    h.try2Send cfg c result
  | .closing | .remMe => h
  | _ => h.try2Send cfg c result

def sendLoop (results : UserId → SendResult) : Hub :=
  let h := h.setQueue h.queue.prepareQueueItems
  let h := h.userList.foldl (fun h c => h.sendUser cfg c (results c)) h
  h.setQueue (h.queue.clearQueues msgSink)

/-- `AcceptUser` from the ban checks on. -/
def acceptUser (sIP : Text) (ipHash : IpHash) (ipv6 : Bool) : Hub :=
  let found := h.bans.findFull ipHash h.clock
  let h := h.setBans found.1
  let ban := found.2.map h.bans.ban
  if ban.any BanItem.full then h
  else
    let range := h.bans.findFullRange ipHash h.clock
    let h := h.setBans range.1
    if range.2.any RangeBanItem.full then h
    else
      let pBan : Option UserBan :=
        match ban, range.2 with
        | some b, _ => some ⟨if b.nick then b.nickHash else 0⟩
        | none, some _ => some ⟨0⟩
        | none, none => none
      let u : User :=
        { state := .socketAccepted, sIP := sIP, ipHash := ipHash, pBan := pBan,
          ipv6 := ipv6, ipv4 := !ipv6 }
      h.newUser u

end

end Hub

/-- What the hub does next. `post` is a broadcast of another part of the hub,
`ban` an operation on the bans, `reg` one on the registrations, and `close` any
other reason to close a user. -/
inductive Action where
  | accept (sIP : Text) (ipHash : IpHash) (ipv6 : Bool)
  | command (c : UserId) (cmd : Text) (answers : Answers)
  | processCmds (c : UserId) (due : Bool)
  | receive (c : UserId) (tick : Tick)
  | sendLoop (results : UserId → Hub.SendResult)
  | close (c : UserId) (error : Bool)
  | post (eCmdType : Cmd) (text text1 : Text)
  | ban (op : Op)
  | reg (op : RegOp)

/-- An action, and the seconds that have gone by since the one before. -/
structure Event where
  elapsed : Nat
  action : Action

namespace Hub

def act (cfg : Config) (h : Hub) : Action → Hub
  | .accept sIP ipHash ipv6 => h.acceptUser sIP ipHash ipv6
  | .command c cmd a => h.preProcessData cfg c a cmd
  | .processCmds c due => h.processCmds cfg c due
  | .receive c t => h.receiveUser cfg c t
  | .sendLoop results => h.sendLoop cfg results
  | .close c error => if error then h.fail cfg c else h.close cfg c
  | .post eCmdType text text1 => h.addQueueItem eCmdType [.other text] [.other text1]
  | .ban op => h.setBans (h.bans.exec cfg.ban h.clock op).1
  | .reg op => h.execReg cfg op

/-- The hub at the time of an event. -/
def advance (h : Hub) (e : Event) : Hub := { h with clock := h.clock + e.elapsed }

def step (cfg : Config) (h : Hub) (e : Event) : Hub := (h.advance e).act cfg e.action

/-- The hubs the events lead to from the empty one. -/
def reach (cfg : Config) (regs : RegManager) (es : List Event) : Hub :=
  run (step cfg) (start cfg regs) es

end Hub

end FlyHub.Session
