import FlyHub.Reg.Store
import FlyHub.Pxb.File

/-!
# The file of the registrations

`Save` writes a hashed password under one identifier and a plain one under another.
`Load` looks for both, hashes what is plain if it is told to, and puts every record
that passes its checks into the store. An old file in XML is read where there is no
other.
-/

namespace FlyHub.Reg

open FlyHub.Lib FlyHub.Pxb

/-- `sPtokaXRegiteredUsers`. -/
def ptokaXRegiteredUsers : Text := ascii "PtokaX Registered Users"

def nickId : Ident := ident 'N' 'I'
def hashedId : Ident := ident 'P' 'S'
def plainId : Ident := ident 'P' 'A'
def profileId : Ident := ident 'P' 'R'

def Password.ident : Password → Ident
  | .hashed _ => hashedId
  | .plain _ => plainId

def Password.value : Password → Value
  | .hashed h => .string h.val
  | .plain s => textValue s

/-- The sub-items of a registration. -/
def RegUser.idents (u : RegUser) : List Ident := [nickId, u.password.ident, profileId]

def RegUser.values (u : RegUser) : List Value :=
  [textValue u.sNick, u.password.value, .twoBytes u.profile]

def regFile : RecordFile RegUser := ⟨ptokaXRegiteredUsers, 3, RegUser.idents, RegUser.values⟩

/-- "Read regs =)". The last identifier is an extra one. -/
def regRequest : Pxb.Request 4 :=
  ⟨[nickId, hashedId, profileId, plainId], 3, by decide, Nat.le_refl 4⟩

theorem regRoom : headerIds.length ≤ (4 : UInt8).toNat := by decide

/-- What a load takes from the settings and the profiles. -/
structure LoadSettings where
  hashPasswords : Bool
  profileCount : UInt16

/-- `iProfilesCount`. -/
def LoadSettings.lastProfile (set : LoadSettings) : UInt16 := set.profileCount - 1

section
variable (cfg : Config) (set : LoadSettings) (r : PXBReader)

/-- A plain password that cannot be hashed stays as it is. -/
def plainPassword (hashPasswords : Bool) (sPasswd : Text) : Password :=
  if hashPasswords then
    match cfg.hashPassword sPasswd with
    | some h => .hashed h
    | none => .plain sPasswd
  else .plain sPasswd

def hashedPassword (bytes : Text) : Option Password :=
  if length : bytes.length = 64 then some (.hashed ⟨bytes, length⟩) else none

def readPassword : Except Failure (Option Password) :=
  if itemLength r 3 ≠ 0 then do
    let sPasswd ← itemData r 3 (itemLength r 3)
    pure (some (plainPassword cfg set.hashPasswords sPasswd))
  else if itemLength r 1 = 64 then do
    let bytes ← itemData r 1 64
    pure (hashedPassword bytes)
  else pure none

/-- A profile that is not there becomes the last one. -/
def clampProfile (profile : UInt16) : UInt16 :=
  if set.lastProfile < profile then set.lastProfile else profile

/-- The registration of a record: none if its sizes are wrong or it has no password. -/
def readReg : Except Failure (Option RegUser) :=
  if itemLength r 0 < 65 ∧ itemLength r 1 < 65 ∧ itemLength r 2 = 2 then do
    let profile ← itemData r 2 2
    let password ← readPassword cfg set r
    let sNick ← readText r 0 64
    pure (password.map fun p =>
      createReg sNick p (clampProfile set (UInt16.ofNat (ofBE profile))))
  else pure none

/-- The next registration of a file is put behind those before it. -/
def collectReg (us : List RegUser) (r : PXBReader) : Except Failure (List RegUser) := do
  let u ← readReg cfg set r
  pure (us ++ u.toList)

/-- The registrations of a PXB file, one after another. -/
def fileRegs (turns : Nat) (file : Text) : Except Failure (List RegUser) :=
  (readFile regRoom ptokaXRegiteredUsers regRequest (collectReg cfg set) turns file []).map Prod.fst

end

/-- A child of the document: what it has of the texts and of the number. -/
structure XmlReg where
  nick : Option Text
  pass : Option Text
  profile : Option Int32

/-- What there is to be loaded. -/
inductive RegFile where
  | pxb (file : Text)
  | xml (children : List XmlReg)

namespace RegManager

section
variable (cfg : Config) (set : LoadSettings)

def takeReg (m : RegManager) (r : PXBReader) : Except Failure RegManager := do
  let u ← readReg cfg set r
  pure (u.toList.foldl (add cfg) m)

/-- A child of the document in `LoadXML`. The number is cut to the bits of a profile. -/
def takeXml (m : RegManager) (child : XmlReg) : RegManager :=
  match child.nick, child.pass, child.profile with
  | some nick, some pass, some profile =>
    if 64 < nick.length ∨ 64 < pass.length then m
    else
      let profile :=
        if (set.lastProfile.toNat : Int) < profile.toInt then set.lastProfile
        else UInt16.ofInt profile.toInt
      if (m.find nick).isSome then m else m.add cfg (createReg nick (.plain pass) profile)
  | _, _, _ => m

/-- `Load`, into the store as it starts. No loop runs more than `turns` turns. -/
def load (turns : Nat) : RegFile → Except Failure RegManager
  | .pxb file =>
    (readFile regRoom ptokaXRegiteredUsers regRequest (takeReg cfg set) turns file empty).map Prod.fst
  | .xml children => pure (children.foldl (takeXml cfg set) empty)

end

/-- `Save`, when it is forced or called often enough. -/
def save (m : RegManager) : Option Text := regFile.save m.users

end RegManager

end FlyHub.Reg
