import FlyHub.Lib.Occurrence
import FlyHub.Session.Loop

/-!
# The commands about registrations

An operator registers a nick with a password, or asks the user online under it for one. It
deletes registrations, makes a user an operator for the time it stays, and everyone registered
may change its own password. A profile is given by those above it, the lowest number first.
-/

namespace FlyHub.Session

open FlyHub.Broadcast FlyHub.Lib

/-- The permissions of a profile that the commands ask for. -/
inductive RegRight where
  | addRegUser
  | delRegUser
  | tempOp
  | kick
  deriving DecidableEq, Repr

inductive RegCommand where
  | addRegUser
  | regNewUser
  | delRegUser
  | op
  | passwd
  deriving DecidableEq, Repr

namespace RegCommand

/-- What `DoCommand` tells the command by, in any case. -/
def word : RegCommand → Text
  | addRegUser => ascii "addreguser "
  | regNewUser => ascii "reguser "
  | delRegUser => ascii "delreguser "
  | op => ascii "op "
  | passwd => ascii "passwd "

def all : List RegCommand := [addRegUser, regNewUser, delRegUser, op, passwd]

/-- The command that a text is, the prefix and the pipe aside. -/
def ofText (sCommand : Text) : Option RegCommand :=
  all.find? fun k => iequals (sCommand.take k.word.length) k.word

end RegCommand

/-- What an operator is told, and the user that it is about. -/
inductive RegAnswer where
  | noPermission
  | cmdTooLong
  | badParamsGiven
  | noParamGiven
  | maxNickLen
  | maxPassLen
  | badCharsInNick
  | pipeInPass
  | noProfileGivenName
  | notAllowedToAdd
  | notAllowedToDelete
  | alreadyRegistered (sNick : Text)
  | addedToRegs (sNick : Text)
  | registeredAs (sNick sProfile : Text)
  | notInRegs (sNick : Text)
  | removedFromRegs (sNick : Text)
  | notOnline (sNick : Text)
  | notInUserList (sNick : Text)
  | alreadyIsOp (sNick : Text)
  | operatorProfileMissing
  | gotTempOp
  | setsOpModeTo (sNick : Text)
  | notAllowedToChangePass
  | passMustSpecified
  | passwordUpdated

/-- A status message goes to the operators by the queue unless it is a PM. -/
structure RegSettings where
  rights : Int → RegRight → Bool
  answer : RegAnswer → Text
  sendStatus : Bool
  statusAsPm : Bool

/-- `IsAllowed`. -/
def RegSettings.allows (set : RegSettings) (profile : Int) (right : RegRight) : Bool :=
  if profile = -1 then false else set.rights profile right

/-! ## The parameters -/

structure RegParts where
  nick : Text
  pass : Text
  profile : Text

/-- The nick ends at the first blank and the name of the profile starts behind the last one.
What is between them is the password, blanks and all. -/
def regParts (args : Text) : Option RegParts :=
  let nick := args.takeWhile (· ≠ 32)
  let rest := args.drop (nick.length + 1)
  let profile := (rest.reverse.takeWhile (· ≠ 32)).reverse
  let pass := rest.take (rest.length - profile.length - 1)
  if nick = [] || pass = [] || profile = [] then none else some ⟨nick, pass, profile⟩

/-- `stristr`. -/
def stristr (str1 str2 : Text) : Option Nat :=
  firstAt (str2.map lowerCase) ((cText str1).map lowerCase)

/-- A kick message in the chat, from behind the nick of who says it to the pipe: the nick and
the reason that is put by for the kick. Only the first line is looked at, but the reason goes
on to the end. -/
def kickMessage (text : Text) : Option (Text × Text) :=
  let line := (cText text).takeWhile (· ≠ 10)
  let mem :=
    if line.length = (cText text).length then text else line ++ 0 :: text.drop (line.length + 1)
  match stristr mem (ascii "is kicking ") with
  | none => none
  | some kicking =>
    match stristr (mem.drop (kicking + 12)) (ascii " because: ") with
    | none => none
    | some n =>
      let because := kicking + 12 + n
      if mem[because + 10]? = some 124 then none
      else
        some ((mem.drop (kicking + 11)).take (n + 1),
          (mem.drop (because + 10)).take (mem.length - because - 11))

/-- The hub, and the users that are operators for the time they stay. -/
structure Staff where
  hub : Hub
  tempOperator : UserId → Bool

namespace Hub

/-! ## The commands -/

section
variable (cfg : Config) (set : RegSettings) (h : Hub) (op : UserId)

def answerReg (answer : RegAnswer) : Hub := h.send op (.other (set.answer answer))

/-- The status message, and the reply to an operator that doesn't get it. -/
def reportReg (answer : RegAnswer) : Hub :=
  let text := set.answer answer
  let h := if set.sendStatus && !set.statusAsPm then h.addQueueItem .ops [.other text] [] else h
  if !set.sendStatus || !(h.users op).operator then h.answerReg set op answer else h

/-- The operator is no Master and not above the profile. -/
def tooHigh (profile : UInt16) : Bool :=
  0 < (h.users op).profile && (profile.toNat : Int) ≤ (h.users op).profile

/-- `AddRegUser` with the parts that have been found right. `AddNew` has given the user online
its profile already. -/
def addRegistered (parts : RegParts) (iProfile : UInt16) : Hub :=
  let sNick := cText parts.nick
  let added := h.addNew cfg sNick (cText parts.pass) iProfile
  if !added.2 then added.1.answerReg set op (.alreadyRegistered sNick)
  else
    let h := added.1.reportReg set op (.addedToRegs sNick)
    match h.findUser parts.nick with
    | none => h
    | some other => h.grantNew cfg other iProfile

/-- `AddRegUser`. -/
def addRegUser (sCommand : Text) : Hub :=
  if !set.allows (h.users op).profile .addRegUser then h.answerReg set op .noPermission
  else if 255 < sCommand.length then h.answerReg set op .cmdTooLong
  else
    match regParts (sCommand.drop 11) with
    | none => h.answerReg set op .badParamsGiven
    | some parts =>
      if 65 < parts.nick.length then h.answerReg set op .maxNickLen
      else if (cText parts.nick).any fun c => c = 36 || c = 124 then
        h.answerReg set op .badCharsInNick
      else if 65 < parts.pass.length then h.answerReg set op .maxPassLen
      else if (cText parts.pass).contains 124 then h.answerReg set op .pipeInPass
      else
        match cfg.profileIndex (cText parts.profile) with
        | none => h.answerReg set op .noProfileGivenName
        | some iProfile =>
          if h.tooHigh op iProfile then h.answerReg set op .notAllowedToAdd
          else h.addRegistered cfg set op parts iProfile

/-- `RegNewUser`. -/
def regNewUserCommand (sCommand : Text) : Hub :=
  let args := cText (sCommand.drop 8)
  let sNick := args.takeWhile (· ≠ 32)
  let sProfile := args.drop (sNick.length + 1)
  if !set.allows (h.users op).profile .addRegUser then h.answerReg set op .noPermission
  else if 255 < sCommand.length then h.answerReg set op .cmdTooLong
  else if sNick.length = args.length then h.answerReg set op .badParamsGiven
  else
    match cfg.profileIndex sProfile with
    | none => h.answerReg set op .noProfileGivenName
    | some profile =>
      if h.tooHigh op profile then h.answerReg set op .notAllowedToAdd
      else if (h.findReg sNick).isSome then h.answerReg set op (.alreadyRegistered sNick)
      else if (h.findUser sNick).isNone then h.answerReg set op (.notOnline sNick)
      else (h.regNewUser cfg sNick sProfile).reportReg set op (.registeredAs sNick sProfile)

/-- `DelRegUser`. -/
def delRegUser (sCommand : Text) : Hub :=
  let sNick := sCommand.drop 11
  if !set.allows (h.users op).profile .delRegUser then h.answerReg set op .noPermission
  else if 255 < sCommand.length then h.answerReg set op .cmdTooLong
  else if sCommand.length < 13 then h.answerReg set op .noParamGiven
  else
    match h.findReg sNick with
    | none => h.answerReg set op (.notInRegs sNick)
    | some r =>
      if h.tooHigh op r.profile then h.answerReg set op .notAllowedToDelete
      else (h.delete cfg r).reportReg set op (.removedFromRegs sNick)

/-- The user becomes an operator, whatever it has been. -/
def makeTempOp (other : UserId) (profile : UInt16) : Hub :=
  let chat := h.isAllowed cfg other .allowedOpChat
  let h := h.modify other fun u => { u with operator := true, profile := profile.toNat }
  let u := h.users other
  let logedIn : List Msg := if u.quickList then [] else [.logedIn u.sNick]
  let h := h.sendAll other (logedIn ++ [.other (set.answer .gotTempOp)])
  if chat ≠ h.isAllowed cfg other .allowedOpChat then h.enterOpChat cfg other else h

/-- `Passwd`. The password is changed in the registration found for the user's nick. -/
def passwd (sCommand : Text) : Hub :=
  let pass := sCommand.drop 7
  match h.findReg (h.users op).sNick with
  | none => h.answerReg set op .notAllowedToChangePass
  | some r =>
    if (h.users op).profile = -1 then h.answerReg set op .notAllowedToChangePass
    else if sCommand.length < 8 then h.answerReg set op .passMustSpecified
    else if 71 < sCommand.length then h.answerReg set op .maxPassLen
    else if (cText pass).contains 124 then h.answerReg set op .pipeInPass
    else
      (h.setReg (r.updatePassword cfg.hashPasswords cfg.hashPassword pass)).answerReg set op
        .passwordUpdated

/-- The reason of a kick is put by for the user, where the name of a profile is kept as well. -/
def keepKickReason (text : Text) : Hub :=
  if !set.allows (h.users op).profile .kick || text.length < 19 then h
  else
    match kickMessage text with
    | none => h
    | some (sNick, sReason) =>
      match h.findUser sNick with
      | none => h
      | some other => h.modify other fun u => { u with buffer := some (cText (bufferText sReason)) }

end

end Hub

namespace Staff

section
variable (cfg : Config) (set : RegSettings) (s : Staff) (op : UserId)

/-- `Op`. -/
def opCommand (sCommand : Text) : Staff :=
  let sNick := sCommand.drop 3
  let answer (a : RegAnswer) : Staff := { s with hub := s.hub.answerReg set op a }
  if !set.allows (s.hub.users op).profile .tempOp || s.tempOperator op then answer .noPermission
  else if sCommand.length < 4 || sCommand[3]? = some 0 then answer .noParamGiven
  else if 100 < sCommand.length then answer .maxNickLen
  else
    match s.hub.findUser sNick with
    | none => answer (.notInUserList sNick)
    | some other =>
      if (s.hub.users other).operator then answer (.alreadyIsOp (s.hub.users other).sNick)
      else
        match cfg.profileIndex (ascii "Operator") with
        | none => answer .operatorProfileMissing
        | some profile =>
          let h := s.hub.makeTempOp cfg set other profile
          { hub := h.reportReg set op (.setsOpModeTo (h.users other).sNick)
            tempOperator := Function.update s.tempOperator other true }

/-- `DoCommand`, as far as the registrations go. -/
def doCommand (sCommand : Text) : Staff :=
  match RegCommand.ofText sCommand with
  | none => s
  | some .addRegUser => { s with hub := s.hub.addRegUser cfg set op sCommand }
  | some .regNewUser => { s with hub := s.hub.regNewUserCommand cfg set op sCommand }
  | some .delRegUser => { s with hub := s.hub.delRegUser cfg set op sCommand }
  | some .op => s.opCommand cfg set op sCommand
  | some .passwd => { s with hub := s.hub.passwd cfg set op sCommand }

end

def start (cfg : Config) (regs : RegManager) : Staff := ⟨.start cfg regs, fun _ => false⟩

end Staff

/-- What happens in a hub with operators: anything else, a command that a user gives, or a
line of the chat, from behind the nick on. -/
inductive StaffEvent where
  | hub (e : Event)
  | command (op : UserId) (sCommand : Text)
  | chat (op : UserId) (text : Text)

namespace Staff

def step (cfg : Config) (set : RegSettings) (s : Staff) : StaffEvent → Staff
  | .hub e => { s with hub := s.hub.step cfg e }
  | .command op sCommand => s.doCommand cfg set op sCommand
  | .chat op text => { s with hub := s.hub.keepKickReason set op text }

end Staff

end FlyHub.Session
