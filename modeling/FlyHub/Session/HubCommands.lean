import FlyHub.Lists.Tag
import FlyHub.Session.BanGate

/-!
# The commands that ban

An operator bans a nick, for good or for a time, together with the address of the user that
has it or without. A user found under the nick is judged by its own profile, a nick without a
user by its registration.
-/

namespace FlyHub.Session

open FlyHub.Ban FlyHub.Lists

/-- The permissions of a profile that the commands ask for. -/
inductive CommandRight where
  | ban
  | tempBan
  | drop
  deriving DecidableEq, Repr

inductive BanCommand where
  | ban
  | fullBan
  | tempBan
  | fullTempBan
  | nickBan
  | nickTempBan
  | drop
  deriving DecidableEq, Repr

namespace BanCommand

/-- What `DoCommand` tells the command by, in any case. -/
def word : BanCommand → Text
  | ban => ascii "ban "
  | fullBan => ascii "fullban "
  | tempBan => ascii "tempban "
  | fullTempBan => ascii "fulltempban "
  | nickBan => ascii "nickban "
  | nickTempBan => ascii "nicktempban "
  | drop => ascii "drop "

def right : BanCommand → CommandRight
  | ban | fullBan | nickBan => .ban
  | tempBan | fullTempBan | nickTempBan => .tempBan
  | drop => .drop

/-- A shorter command has no parameters. -/
def minLen : BanCommand → Nat
  | ban => 5
  | fullBan => 9
  | tempBan => 11
  | fullTempBan => 16
  | nickBan => 9
  | nickTempBan => 15
  | drop => 6

/-- The command has a time between the nick and the reason. -/
def timed : BanCommand → Bool
  | tempBan | fullTempBan | nickTempBan => true
  | ban | fullBan | nickBan | drop => false

def all : List BanCommand := [ban, fullBan, tempBan, fullTempBan, nickBan, nickTempBan, drop]

/-- The command that a text is, the prefix and the pipe aside. -/
def ofText (sCommand : Text) : Option BanCommand :=
  all.find? fun k => iequals (sCommand.take k.word.length) k.word

end BanCommand

/-- What an operator is told, and the user that it bans. -/
inductive BanAnswer where
  | noPermission
  | noParamGiven
  | badParamsGiven
  | noNickSpecified
  | maxNickLen
  | badTimeSpecified
  | yourself
  | notAllowedTo (sNick : Text)
  | notOnline (sNick : Text)
  | alreadyBanned (sNick : Text)
  | youHadBeenBanned (sReason : Option Text)
  | youHadBeenTempBanned (till : Int) (sReason : Option Text)
  | hasBeenBanned (sNick : Text) (sReason : Option Text)
  | hasBeenTempBanned (sNick : Text) (till : Int) (sReason : Option Text)

/-- The part of the local time that the unit of a time changes. -/
inductive TmField where
  | min
  | hour
  | mday
  | mon
  | year
  deriving DecidableEq, Repr

/-- `mktime` is the time at which a part of the local time is so much later, if there is one.
A status message goes to the operators by the queue unless it is a PM. -/
structure CommandSettings where
  rights : Int → CommandRight → Bool
  answer : BanCommand → BanAnswer → Text
  sendStatus : Bool
  statusAsPm : Bool
  mktime : Nat → TmField → Int → Option Int

/-- `IsAllowed`. -/
def CommandSettings.allows (set : CommandSettings) (profile : Int) (right : CommandRight) : Bool :=
  if profile = -1 then false else set.rights profile right

/-! ## The parameters -/

/-- `TruncateReason`, in place. -/
def truncateReason (mem : Text) : Text :=
  if 511 < (cText mem).length then mem.take 508 ++ ascii "..." ++ 0 :: mem.drop 512 else mem

/-- The nick of a command without a time, and the reason if something is behind the nick. -/
def nickAndReason (args : Text) : Text × Option Text :=
  let sNick := args.takeWhile (· ≠ 32)
  let rest := args.drop (sNick.length + 1)
  (sNick, if rest = [] then none else some (cText (truncateReason rest)))

/-- A nick, a time and a reason. The lengths are numbers of 16 bits; `time` is the memory
from the time on, which the reason and the end of the text lie in. -/
structure CmdParts where
  nick : Text
  nickLen : Nat
  time : Option Text
  timeLen : Nat
  reason : Option Text

/-- `ParseCmdParts` for three parts. -/
def parseCmdParts (args : Text) : CmdParts :=
  let nick := args.takeWhile (· ≠ 32)
  let nickLen := nick.length % 65536
  if nick.length = args.length then ⟨nick, nickLen, none, 0, none⟩
  else
    let rest := args.drop (nick.length + 1)
    let time := rest.takeWhile (· ≠ 32)
    if time.length = rest.length then
      let timeLen := rest.length % 65536
      if timeLen = 0 then ⟨nick, nickLen, none, 0, none⟩
      else
        let time := if 511 < timeLen then truncateReason rest else rest
        ⟨nick, nickLen, some time, timeLen, none⟩
    else
      let reason := rest.drop (time.length + 1)
      let timeLen := time.length % 65536
      let reasonLen := reason.length % 65536
      if reasonLen = 0 then
        ⟨nick, nickLen, some (time ++ 0 :: reason),
          if timeLen = 0 then rest.length % 65536 else timeLen, none⟩
      else
        let reason := if 511 < reasonLen then truncateReason reason else reason
        ⟨nick, nickLen, some (time ++ 0 :: reason), timeLen, some (cText reason)⟩

/-- An `int` made of an `unsigned int`. -/
def toInt (n : UInt32) : Int := n.toBitVec.toInt

/-- `GenerateTempBanTime`. -/
def generateTempBanTime (set : CommandSettings) (now : Nat) (multiplier : UInt8) (n : UInt32) :
    Option Int :=
  if multiplier = 109 then set.mktime now .min (toInt n)
  else if multiplier = 104 then set.mktime now .hour (toInt n)
  else if multiplier = 100 then set.mktime now .mday (toInt n)
  else if multiplier = 119 then set.mktime now .mday (toInt (n * 7))
  else if multiplier = 77 then set.mktime now .mon (toInt n)
  else if multiplier = 89 then set.mktime now .year (toInt n)
  else none

/-- When the ban ends. The last byte of the time is its unit. -/
def CmdParts.banTime (set : CommandSettings) (now : Nat) (p : CmdParts) : Option Int :=
  let time := p.time.getD []
  match safeStoi (cText (time.take (p.timeLen - 1))) with
  | none => none
  | some iTime =>
    if iTime ≤ 0 then none
    else generateTempBanTime set now (time.getD (p.timeLen - 1) 0) (UInt32.ofNat iTime.toNat)

namespace Hub

/-! ## The commands -/

/-- The user as the bans take it. -/
def banUser (h : Hub) (c : UserId) : BanUser :=
  ⟨(h.users c).sNick, (h.users c).sIP, (h.users c).ipHash⟩

section
variable (cfg : Config) (set : CommandSettings) (k : BanCommand) (h : Hub) (op : UserId)

def reply (answer : BanAnswer) : Hub := h.send op (.other (set.answer k answer))

/-- The user is told at once, as far as its socket takes it. -/
def tell (other : UserId) (answer : BanAnswer) (sent : SendResult) : Hub :=
  (h.send other (.other (set.answer k answer))).try2Send cfg other sent

/-- The status message, and the reply to an operator that doesn't get it. -/
def report (answer : BanAnswer) : Hub :=
  let text := set.answer k answer
  let h := if set.sendStatus && !set.statusAsPm then h.addQueueItem .ops [.other text] [] else h
  if !set.sendStatus || !(h.users op).operator then h.reply set k op answer else h

/-- `CheckSelfPermission`, the other way round. -/
def isSelf (sNick : Text) : Bool := iequals sNick (h.users op).sNick

/-- `CheckHigherProfile`: a user without a profile may be banned by everyone. -/
def checkHigherProfile (other : UserId) : Bool :=
  !((h.users other).profile ≠ -1 && (h.users other).profile < (h.users op).profile)

/-- The nick is registered with a higher profile. -/
def outranked (sNick : Text) : Bool :=
  (h.findReg sNick).any fun r => (r.profile.toNat : Int) < (h.users op).profile

/-- `NickBan` for a nick that nobody is found under. -/
def nickBanOffline (sNick : Text) (sReason : Option Text) : Hub :=
  if h.outranked op sNick then h.reply set k op (.notAllowedTo sNick)
  else
    let banned := h.bans.nickBan cfg.ban h.clock none (some sNick) sReason (some (h.users op).sNick)
    let h := h.setBans banned.1
    if banned.2 then h.report set k op (.hasBeenBanned sNick sReason)
    else h.reply set k op (.alreadyBanned sNick)

/-- `TempNickBan`. -/
def tempNickBan (p : CmdParts) : Hub :=
  if h.outranked op p.nick then h.reply set k op (.notAllowedTo p.nick)
  else
    match p.banTime set h.clock with
    | none => h.reply set k op .badTimeSpecified
    | some till =>
      let banned := h.bans.nickTempBan cfg.ban h.clock none (some p.nick) p.reason
        (some (h.users op).sNick) 0 till
      let h := h.setBans banned.1
      if banned.2 then h.report set k op (.hasBeenTempBanned p.nick till p.reason)
      else h.reply set k op (.alreadyBanned p.nick)

/-- `Ban`. -/
def ban (bFull : Bool) (args : Text) (sent : SendResult) : Hub :=
  let sNick := (nickAndReason args).1
  let sReason := (nickAndReason args).2
  if sNick = [] then h.reply set k op .badParamsGiven
  else if 100 < sNick.length then h.reply set k op .maxNickLen
  else if h.isSelf op sNick then h.reply set k op .yourself
  else
    match h.findUser sNick with
    | some other =>
      if !h.checkHigherProfile op other then
        h.reply set k op (.notAllowedTo (h.users other).sNick)
      else
        let h := h.setBans (h.bans.banUser cfg.ban h.clock (h.banUser other) sReason
          (some (h.users op).sNick) bFull)
        let h := h.tell cfg set k other (.youHadBeenBanned sReason) sent
        (h.report set k op (.hasBeenBanned sNick sReason)).close cfg other
    | none =>
      if bFull then h.reply set k op (.notOnline sNick)
      else h.nickBanOffline cfg set k op sNick sReason

/-- `TempBan`. -/
def tempBan (bFull : Bool) (args : Text) (sent : SendResult) : Hub :=
  let p := parseCmdParts args
  if p.nickLen = 0 || p.timeLen = 0 || p.time.isNone then h.reply set k op .badParamsGiven
  else if 100 < p.nickLen then h.reply set k op .maxNickLen
  else if h.isSelf op p.nick then h.reply set k op .yourself
  else
    match h.findUser (p.nick.take p.nickLen) with
    | some other =>
      if !h.checkHigherProfile op other then
        h.reply set k op (.notAllowedTo (h.users other).sNick)
      else
        match p.banTime set h.clock with
        | none => h.reply set k op .badTimeSpecified
        | some till =>
          let h := h.setBans (h.bans.tempBan cfg.ban h.clock (h.banUser other) p.reason
            (some (h.users op).sNick) 0 till bFull)
          let h := h.tell cfg set k other (.youHadBeenTempBanned till p.reason) sent
          (h.report set k op (.hasBeenTempBanned p.nick till p.reason)).close cfg other
    | none =>
      if bFull then h.reply set k op (.notOnline p.nick)
      else h.tempNickBan cfg set k op p

/-- `NickBan`. The user is told before it is known whether there is a new ban, and closed in
any case. -/
def nickBan (args : Text) (sent : SendResult) : Hub :=
  let sNick := (nickAndReason args).1
  let sReason := (nickAndReason args).2
  if sNick = [] then h.reply set k op .noNickSpecified
  else if 100 < sNick.length then h.reply set k op .maxNickLen
  else if h.isSelf op sNick then h.reply set k op .yourself
  else
    match h.findUser sNick with
    | some other =>
      if !h.checkHigherProfile op other then
        h.reply set k op (.notAllowedTo (h.users other).sNick)
      else
        let h := h.tell cfg set k other (.youHadBeenBanned sReason) sent
        let banned := h.bans.nickBan cfg.ban h.clock (some (h.banUser other)) none sReason
          (some (h.users op).sNick)
        let h := h.setBans banned.1
        if banned.2 then
          (h.close cfg other).report set k op (.hasBeenBanned sNick sReason)
        else (h.reply set k op (.alreadyBanned (h.users other).sNick)).close cfg other
    | none => h.nickBanOffline cfg set k op sNick sReason

/-- `NickTempBan`. -/
def nickTempBan (args : Text) (sent : SendResult) : Hub :=
  let p := parseCmdParts args
  if p.nickLen = 0 || p.timeLen = 0 || p.time.isNone then h.reply set k op .badParamsGiven
  else if 100 < p.nickLen then h.reply set k op .maxNickLen
  else if h.isSelf op p.nick then h.reply set k op .yourself
  else
    match h.findUser (p.nick.take p.nickLen) with
    | some other =>
      if !h.checkHigherProfile op other then
        h.reply set k op (.notAllowedTo (h.users other).sNick)
      else
        match p.banTime set h.clock with
        | none => h.reply set k op .badTimeSpecified
        | some till =>
          let banned := h.bans.nickTempBan cfg.ban h.clock (some (h.banUser other)) none p.reason
            (some (h.users op).sNick) 0 till
          let h := h.setBans banned.1
          if banned.2 then
            let h := h.tell cfg set k other (.youHadBeenTempBanned till p.reason) sent
            (h.report set k op (.hasBeenTempBanned p.nick till p.reason)).close cfg other
          else (h.reply set k op (.alreadyBanned (h.users other).sNick)).close cfg other
    | none => h.tempNickBan cfg set k op p

/-- `Drop`: a temporary ban of the shortest kind. -/
def drop (args : Text) : Hub :=
  let sNick := (nickAndReason args).1
  let sReason := (nickAndReason args).2
  if 100 < sNick.length then h.reply set k op .maxNickLen
  else if sNick = [] then h.reply set k op .noParamGiven
  else if h.isSelf op sNick then h.reply set k op .yourself
  else
    match h.findUser sNick with
    | some other =>
      if !h.checkHigherProfile op other then
        h.reply set k op (.notAllowedTo (h.users other).sNick)
      else
        let h := h.setBans (h.bans.tempBan cfg.ban h.clock (h.banUser other) sReason
          (some (h.users op).sNick) 0 0 false)
        (h.report set k op (.hasBeenBanned sNick sReason)).close cfg other
    | none => h.reply set k op (.notOnline sNick)

/-- The command once it is told from the others. -/
def banCommand (args : Text) (sent : SendResult) : Hub :=
  match k with
  | .ban => h.ban cfg set k op false args sent
  | .fullBan => h.ban cfg set k op true args sent
  | .tempBan => h.tempBan cfg set k op false args sent
  | .fullTempBan => h.tempBan cfg set k op true args sent
  | .nickBan => h.nickBan cfg set k op args sent
  | .nickTempBan => h.nickTempBan cfg set k op args sent
  | .drop => h.drop cfg set k op args

end

/-- `DoCommand`, as far as the commands that ban go. -/
def doCommand (cfg : Config) (set : CommandSettings) (h : Hub) (op : UserId) (sCommand : Text)
    (sent : SendResult) : Hub :=
  match BanCommand.ofText sCommand with
  | none => h
  | some k =>
    if !set.allows (h.users op).profile k.right then h.reply set k op .noPermission
    else if sCommand.length < k.minLen then h.reply set k op .noParamGiven
    else h.banCommand cfg set k op (sCommand.drop k.word.length) sent

end Hub

end FlyHub.Session
