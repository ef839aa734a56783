import FlyHub.Session.State

/-!
# Registrations and the users online

A change of a registration is carried over to the user online under its nick.
That user is looked up by the very spelling, while a login finds a registration
in any spelling.
-/

namespace FlyHub.Session

open FlyHub.Broadcast FlyHub.Lists

/-- What an operator or a script does to the registrations. The nick and the
profile have been checked; `regNewUser` leaves the choice of a password to the
user, and `kickReason` is a text put by for a later kick. -/
inductive RegOp where
  | addNew (sNick sPasswd : Text) (iProfile : UInt16)
  | changeReg (sNick : Text) (sNewPasswd : Option Text) (ui16NewProfile : UInt16)
  | delete (sNick : Text)
  | regNewUser (sNick sProfile : Text)
  | kickReason (sNick sReason : Text)

/-- `SetBuffer`. -/
def bufferText (sKickMsg : Text) : Text :=
  if sKickMsg.length < 512 then sKickMsg else sKickMsg.take 508 ++ ascii "..."

namespace User

/-- The profile of a new registration. Nobody loses the key by it. -/
def giveProfile (cfg : Config) (profile : UInt16) (u : User) : User :=
  { u with
    profile := profile.toNat
    operator := u.operator || cfg.profiles.isProfileAllowed profile.toNat .hasKeyIcon }

/-- The profile of a registration that has changed. -/
def changeProfile (cfg : Config) (profile : UInt16) (u : User) : User :=
  if u.profile = profile.toNat then u
  else
    { u with
      profile := profile.toNat
      operator := cfg.profiles.isProfileAllowed profile.toNat .hasKeyIcon }

def loseProfile (u : User) : User := { u with profile := -1, operator := false }

end User

namespace Hub

section
variable (cfg : Config) (h : Hub) (c : UserId)

/-- The user is shown the operators' chat. -/
def enterOpChat : Hub :=
  match cfg.opChatNick with
  | none => h
  | some nick =>
    let hello := if (h.users c).noHello then [] else [Msg.hello nick]
    h.sendAll c (hello ++ [.myInfo ⟨nick, []⟩, .other (ascii "$OpList " ++ nick ++ ascii "$$|")])

def leaveOpChat : Hub :=
  match cfg.opChatNick with
  | none => h
  | some nick => h.send c (.quit nick)

/-- `AddNew` for the user online. -/
def grantNew (profile : UInt16) : Hub :=
  let before := h.users c
  let h := h.modify c fun u => u.giveProfile cfg profile
  if !before.operator && (h.users c).operator &&
      cfg.profiles.isProfileAllowed before.profile .allowedOpChat ≠ h.isAllowed cfg c .allowedOpChat
    then h.enterOpChat cfg c
  else h

/-- `AddNew`. -/
def addNew (sNick sPasswd : Text) (iProfile : UInt16) : Hub × Bool :=
  if (h.findReg sNick).isSome then (h, false)
  else
    match RegManager.createReg cfg.hashPasswords cfg.hashPassword sNick sPasswd iProfile with
    | none => (h, false)
    | some r =>
      let h := h.setReg r
      match h.findUser r.sNick with
      | none => (h, true)
      | some c => (h.grantNew cfg c iProfile, true)

/-- Everyone is told that the user has lost its key: it leaves and comes back. -/
def tellKeyLost : Hub :=
  let u := h.users c
  let h := h.addQueueItem .quit [.quit u.sNick] []
  let long : List Msg := u.myInfoLong.toList.map .myInfo
  let short : List Msg := u.myInfoShort.toList.map .myInfo
  match cfg.fullMyINFOOption with
  | 0 => h.addQueueItem .myInfo long []
  | 1 => h.addQueueItem .myInfo short long
  | 2 => h.addQueueItem .myInfo short []

/-- `ChangeReg` for the user online. -/
def grantChanged (profile : UInt16) : Hub :=
  let before := h.users c
  if before.profile = profile.toNat then h
  else
    let h := h.modify c fun u => u.changeProfile cfg profile
    let h := if before.operator && !(h.users c).operator then h.tellKeyLost cfg c else h
    let chat := h.isAllowed cfg c .allowedOpChat
    if cfg.profiles.isProfileAllowed before.profile .allowedOpChat = chat then h
    else if chat then h.enterOpChat cfg c
    else h.leaveOpChat cfg c

/-- `ChangeReg`. -/
def changeReg (r : RegUser) (sNewPasswd : Option Text) (ui16NewProfile : UInt16) : Hub :=
  let r :=
    match sNewPasswd with
    | some pass => r.updatePassword cfg.hashPasswords cfg.hashPassword pass
    | none => r
  let h := h.setReg { r with profile := ui16NewProfile }
  match h.findUser r.sNick with
  | none => h
  | some c => h.grantChanged cfg c ui16NewProfile

/-- `Delete` for the user online. -/
def revoke : Hub :=
  let before := h.users c
  let h := h.modify c User.loseProfile
  if before.operator then h.leaveOpChat cfg c else h

def remReg (r : RegUser) : Hub := { h with regs := h.regs.rem r }

/-- `Delete`. -/
def delete (r : RegUser) : Hub :=
  match h.findUser r.sNick with
  | none => h.remReg r
  | some c => (h.revoke cfg c).remReg r

/-- `RegNewUser`. The user is asked for a password. -/
def regNewUser (sNick sProfile : Text) : Hub :=
  if (cfg.profileIndex sProfile).isNone || (h.findReg sNick).isSome then h
  else
    match h.findUser sNick with
    | none => h
    | some c =>
      (h.modify c fun u =>
        { u with buffer := some (bufferText sProfile), waitingForPass := true }).sendAll c
          [.notice .enterYourPassword, .getPass]

def kickReason (sNick sReason : Text) : Hub :=
  match h.findUser sNick with
  | none => h
  | some c => h.modify c fun u => { u with buffer := some (bufferText sReason) }

def execReg (op : RegOp) : Hub :=
  match op with
  | .addNew sNick sPasswd iProfile => (h.addNew cfg sNick sPasswd iProfile).1
  | .changeReg sNick sNewPasswd ui16NewProfile =>
    match h.findReg sNick with
    | none => h
    | some r => h.changeReg cfg r sNewPasswd ui16NewProfile
  | .delete sNick =>
    match h.findReg sNick with
    | none => h
    | some r => h.delete cfg r
  | .regNewUser sNick sProfile => h.regNewUser cfg sNick sProfile
  | .kickReason sNick sReason => h.kickReason sNick sReason

end

end Hub

end FlyHub.Session
