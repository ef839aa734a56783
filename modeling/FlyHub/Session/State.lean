import Mathlib.Logic.Function.Basic
import FlyHub.Ban.Operations
import FlyHub.Broadcast.Queue
import FlyHub.Lists.NickText
import FlyHub.Session.HashManager
import FlyHub.Session.RegManager

/-!
# The hub

The state of the hub as the service loop sees it: the connections, the index of
the hashed ones, the registrations, the bans, the lists sent at login and the
broadcast queue. The small operations every command is made of are here too.
-/

namespace FlyHub.Session

open FlyHub.Broadcast FlyHub.Ban FlyHub.Lists

/-- The steps of a login in the order of `UserStates`. -/
inductive UserState where
  | socketAccepted
  | keyOrSup
  | validate
  | versionOrMyPass
  | getNickListOrMyInfo
  | ipv4Check
  | addMe
  | addMe1Loop
  | addMe2Loop
  | added
  | closing
  | remMe
  deriving DecidableEq, Repr

namespace UserState

def toNat : UserState → Nat
  | socketAccepted => 0
  | keyOrSup => 1
  | validate => 2
  | versionOrMyPass => 3
  | getNickListOrMyInfo => 4
  | ipv4Check => 5
  | addMe => 6
  | addMe1Loop => 7
  | addMe2Loop => 8
  | added => 9
  | closing => 10
  | remMe => 11

def isPastLogin (s : UserState) : Bool := closing.toNat ≤ s.toNat

/-- The user has gone through the whole exchange of login commands. -/
def isLoggedIn (s : UserState) : Bool := ipv4Check.toNat ≤ s.toNat && s.toNat ≤ added.toNat

/-- The user stands in the nick list. -/
def isListed (s : UserState) : Bool := s = addMe2Loop || s = added

theorem live_of_isLoggedIn {s : UserState} (loggedIn : s.isLoggedIn = true) :
    s.isPastLogin = false := by
  cases s <;> first | rfl | exact absurd loggedIn (by decide)

theorem late_of_isLoggedIn {s : UserState} (loggedIn : s.isLoggedIn = true) :
    validate.toNat < s.toNat := by
  cases s <;> first | decide | exact absurd loggedIn (by decide)

end UserState

/-- A MyINFO text: the nick and what follows it. -/
structure MyInfo where
  nick : Text
  fields : Text
  deriving DecidableEq

/-- What a user is told before its connection is closed. -/
inductive Notice where
  | nickIllegalCharacter (c : UInt8)
  | nickIllegalWhiteCharacter
  | nickReserved
  | ban
  | lastPassWasWrong (secondsToWait : Int)
  | maxIpConns
  | nickLimit
  | regOnly
  | ipBannedBruteForce
  | isBanned
  | incorrectPassword
  | quackSupports
  | pingersNotAllowed
  | myInfoTooLong
  | myInfoCorrupted
  | noProfile
  | passMustSpecified
  | maxAlwdPassLen
  | alreadyRegistered
  | nowRegisteredAs (profile : Text)
  | enterYourPassword
  deriving DecidableEq

/-- The messages put into a send buffer. -/
inductive Msg where
  | lock
  | supports
  | hubName
  | hubInfo
  | getPass
  | badPass
  | hubIsFull
  | ctmToHub
  | hello (nick : Text)
  | logedIn (nick : Text)
  | validateDenide (nick : Text)
  | connectToMe (nick : Text)
  | nickList (list : Text)
  | myInfo (info : MyInfo)
  | quit (nick : Text)
  | notice (text : Notice)
  | other (text : Text)
  deriving DecidableEq

/-- What the hub remembers to do for a user when its commands are read. -/
inductive PrcsdUsrCmd where
  | supports
  | loginHello
  | getPass
  deriving DecidableEq

/-- `m_LogInOut.m_pBan`, the ban found when the connection was accepted. -/
structure UserBan where
  nickHash : UInt32
  deriving DecidableEq

/-- A connection. `pending` tells that the send buffer is not empty; `sendBuf` is
everything ever put into it. `buffer` is `m_LogInOut.m_Buffer` but for the lock
that is kept there at first. A user that was never accepted is past login. -/
structure User where
  state : UserState := .remMe
  sNick : Text := []
  sIP : Text := []
  ipHash : IpHash := 0
  pBan : Option UserBan := none
  buffer : Option Text := none
  profile : Int := -1
  hashed : Bool := false
  waitingForPass : Bool := false
  operator : Bool := false
  error : Bool := false
  getNickList : Bool := false
  haveSupports : Bool := false
  haveKey : Bool := false
  haveBotInfo : Bool := false
  haveGetNickList : Bool := false
  pinger : Bool := false
  quackSupports : Bool := false
  prcsdMyInfo : Bool := false
  ipv4 : Bool := false
  ipv6 : Bool := false
  ipv4Active : Bool := false
  ipv6Active : Bool := false
  quickList : Bool := false
  noHello : Bool := false
  userIP2 : Bool := false
  supportIPv4 : Bool := false
  isJsonUser : Bool := false
  sharedSize : Nat := 0
  myInfoOriginal : Text := []
  myInfoLong : Option MyInfo := none
  myInfoShort : Option MyInfo := none
  cmdList : List PrcsdUsrCmd := []
  sendBuf : List Msg := []
  pending : Bool := false

namespace User

def nickHash (u : User) : UInt32 := hashNick u.sNick

/-- `SendFormat` and its like: nothing is put into the buffer after the login has
ended. -/
def put (u : User) (msg : Msg) : User :=
  if u.state.isPastLogin then u else { u with sendBuf := u.sendBuf ++ [msg], pending := true }

end User

/-- An address with bad passwords on record. -/
structure PassBf where
  ipHash : IpHash
  iCount : Nat

/-- What `UserParseMyInfo` makes of a MyINFO. -/
structure InfoData where
  sharedSize : Nat
  ipv4Active : Bool
  ipv6Active : Bool

/-- The settings, and the functions of other parts of the hub. `narrow` is the
conversion of a power of two to 32 bits where the standard leaves it open;
`longFields` and `shortFields` are the texts `GenerateMyInfoLong` and
`GenerateMyInfoShort` put after the nick. -/
structure Config where
  ban : Ban.Config
  profiles : ProfileManager
  profileIndex : Text → Option UInt16
  reserved : Text → Bool
  hashPasswords : Bool
  hashPassword : Text → Option Text
  narrow : Nat → UInt32
  parseMyInfo : Text → InfoData
  longFields : User → Text
  shortFields : User → Text
  isTunnel : IpHash → Bool
  advancedPassProtection : Bool
  regOnly : Bool
  noQuackSupports : Bool
  dontAllowPingers : Bool
  useIPv4 : Bool
  minNickLen : Nat
  maxNickLen : Nat
  maxMyInfoLen : Nat
  bruteForceBanType : Nat
  bruteForceTempBanTime : UInt32
  fullMyINFOOption : Fin 3
  bots : List Text
  opChatNick : Option Text

namespace Config

def queueSettings (cfg : Config) : QueueSettings := ⟨cfg.fullMyINFOOption.val, cfg.profiles⟩

/-- The option under which clients get the long MyINFO. -/
def keepsLong (cfg : Config) : Bool := cfg.fullMyINFOOption ≠ 2

def keepsShort (cfg : Config) : Bool := cfg.fullMyINFOOption ≠ 0

end Config

/-- A hub that asks nothing of its users. -/
def Config.plain : Config where
  ban := .plain
  profiles := fun _ _ => false
  profileIndex := fun _ => none
  reserved := fun _ => false
  hashPasswords := false
  hashPassword := fun _ => none
  narrow := fun _ => 0
  parseMyInfo := fun _ => ⟨0, false, false⟩
  longFields := fun _ => []
  shortFields := fun _ => []
  isTunnel := fun _ => false
  advancedPassProtection := false
  regOnly := false
  noQuackSupports := false
  dontAllowPingers := false
  useIPv4 := false
  minNickLen := 0
  maxNickLen := 0
  maxMyInfoLen := 65535
  bruteForceBanType := 0
  bruteForceTempBanTime := 0
  fullMyINFOOption := 0
  bots := []
  opChatNick := none

/-- A global queue keeps the messages appended to it. -/
def msgSink : Sink Msg (List Msg) where
  init := []
  add := fun q sData => q ++ sData
  clear := fun _ => []
  content := id

def matchExtJson : List Msg → Bool
  | .other text :: _ => (ascii "$ExtJSON ").isPrefixOf text
  | _ => false

/-- The hub. `users` gives every connection ever accepted its record, `userList`
the ones still there, in the order of the service loop. -/
structure Hub where
  users : UserId → User
  userList : List UserId
  nextUser : UserId
  hash : HashManager
  regs : RegManager
  bans : BanManager
  passwdBfCheck : List PassBf
  nickList : Text
  myInfos : List MyInfo
  myInfosTag : List MyInfo
  queue : GlobalDataQueue Msg (List Msg)
  clock : Nat

namespace Hub

/-- An empty hub with its bots and registrations. -/
def start (cfg : Config) (regs : RegManager) : Hub where
  users := fun _ => {}
  userList := []
  nextUser := 0
  hash := HashManager.empty
  regs := regs
  bans := BanManager.empty
  passwdBfCheck := []
  nickList := cfg.bots.foldl add2NickList (ascii "$NickList |")
  myInfos := cfg.bots.map fun nick => ⟨nick, []⟩
  myInfosTag := cfg.bots.map fun nick => ⟨nick, []⟩
  queue := GlobalDataQueue.init msgSink
  clock := 0

def modify (h : Hub) (c : UserId) (f : User → User) : Hub :=
  { h with users := Function.update h.users c (f (h.users c)) }

def send (h : Hub) (c : UserId) (msg : Msg) : Hub := h.modify c fun u => u.put msg

def sendAll (h : Hub) (c : UserId) (msgs : List Msg) : Hub := msgs.foldl (fun h m => h.send c m) h

def addPrcsdCmd (h : Hub) (c : UserId) (cmd : PrcsdUsrCmd) : Hub :=
  h.modify c fun u => { u with cmdList := u.cmdList ++ [cmd] }

def findUser (h : Hub) (nick : Text) : Option UserId := h.hash.findUser nick

def hashAdd (h : Hub) (c : UserId) : Hub :=
  { h with hash := h.hash.add c (h.users c).sNick (h.users c).ipHash }

def hashRemove (h : Hub) (c : UserId) : Hub :=
  { h with hash := h.hash.remove c (h.users c).sNick (h.users c).ipHash }

def findReg (h : Hub) (nick : Text) : Option RegUser := h.regs.find nick

def setReg (h : Hub) (r : RegUser) : Hub := { h with regs := h.regs.put r }

def setBans (h : Hub) (bans : BanManager) : Hub := { h with bans := bans }

def setPasswdBf (h : Hub) (items : List PassBf) : Hub := { h with passwdBfCheck := items }

def addQueueItem (h : Hub) (eCmdType : Cmd) (command0 command1 : List Msg) : Hub :=
  { h with queue := h.queue.addQueueItem ⟨eCmdType, command0, command1⟩ }

def setQueue (h : Hub) (queue : GlobalDataQueue Msg (List Msg)) : Hub := { h with queue := queue }

/-- A new connection is put at the end of the list. -/
def newUser (h : Hub) (u : User) : Hub :=
  { h with
    users := Function.update h.users h.nextUser u
    userList := h.userList ++ [h.nextUser]
    nextUser := h.nextUser + 1 }

def remUser (h : Hub) (c : UserId) : Hub := { h with userList := h.userList.erase c }

def isAllowed (cfg : Config) (h : Hub) (c : UserId) (option : Permission) : Bool :=
  cfg.profiles.isProfileAllowed (h.users c).profile option

/-- `DelFromMyInfosTag`. A MyINFO text starts with `$MyINFO $ALL` and the nick
and has no such part further on, so that only a whole entry can be found. -/
def delFromMyInfosTag (h : Hub) (info : MyInfo) : Hub :=
  { h with myInfosTag := h.myInfosTag.erase info }

def delFromMyInfos (h : Hub) (info : MyInfo) : Hub :=
  { h with myInfos := h.myInfos.erase info }

def unhash (h : Hub) (c : UserId) : Hub := if (h.users c).hashed then h.hashRemove c else h

/-- The part of `Close` for a user that stood in the nick list. -/
def unlist (h : Hub) (c : UserId) (oldState : UserState) (bNoQuit : Bool) : Hub :=
  let nick := (h.users c).sNick
  if UserState.addMe2Loop.toNat ≤ oldState.toNat then
    let h := { h with nickList := delFromNickList h.nickList nick }
    if bNoQuit then h else h.addQueueItem .quit [.quit nick] []
  else h

def forgetLong (cfg : Config) (h : Hub) (c : UserId) : Hub :=
  match (h.users c).myInfoLong with
  | some info => if cfg.keepsLong then h.delFromMyInfosTag info else h
  | none => h

def forgetShort (cfg : Config) (h : Hub) (c : UserId) : Hub :=
  match (h.users c).myInfoShort with
  | some info => if cfg.keepsShort then h.delFromMyInfos info else h
  | none => h

/-- Nothing is left to send, or nothing can be sent. -/
def endClose (h : Hub) (c : UserId) : Hub :=
  if !(h.users c).pending || (h.users c).error then
    h.modify c fun u => { u with state := .remMe }
  else h

/-- `Close`. -/
def closeWith (cfg : Config) (h : Hub) (c : UserId) (bNoQuit : Bool) : Hub :=
  let oldState := (h.users c).state
  let h := h.modify c fun u => { u with isJsonUser := false }
  if oldState.isPastLogin then h
  else
    let h := h.modify c fun u => { u with state := .closing, cmdList := [] }
    ((((h.unhash c).unlist c oldState bNoQuit).forgetLong cfg c).forgetShort cfg c).endClose c

def close (cfg : Config) (h : Hub) (c : UserId) : Hub := h.closeWith cfg c false

/-- `BIT_ERROR` is set and the user closed. -/
def fail (cfg : Config) (h : Hub) (c : UserId) : Hub :=
  (h.modify c fun u => { u with error := true }).close cfg c

/-- What the socket does with the data in the send buffer. -/
inductive SendResult where
  | all
  | rest
  | error
  deriving DecidableEq, Repr

def try2Send (cfg : Config) (h : Hub) (c : UserId) (result : SendResult) : Hub :=
  if (h.users c).error || !(h.users c).pending then h
  else
    match result with
    | .all => h.modify c fun u => { u with pending := false }
    | .rest => h
    | .error => h.fail cfg c

/-- The messages of a list of MyINFOs. -/
def infoMsgs (infos : List MyInfo) : List Msg := infos.map .myInfo

end Hub

end FlyHub.Session
