import Mathlib.Logic.Function.Basic
import FlyHub.Text

/-!
# The registrations

A registration is found by its nick in any spelling and keeps the spelling it
was made with.
-/

namespace FlyHub.Session

structure RegUser where
  sNick : Text
  profile : UInt16
  passHash : Bool
  passData : Text
  badPassCount : Nat := 0
  lastBadPass : Nat := 0

/-- The registrations by their nicks in lower case. -/
structure RegManager where
  table : Text → Option RegUser
  keyed : ∀ key r, table key = some r → r.sNick.map lowerCase = key

namespace RegManager

def empty : RegManager := ⟨fun _ => none, by simp⟩

def find (m : RegManager) (sNick : Text) : Option RegUser := m.table (sNick.map lowerCase)

/-- The registration of the nick of `r` becomes `r`. -/
def put (m : RegManager) (r : RegUser) : RegManager where
  table := Function.update m.table (r.sNick.map lowerCase) (some r)
  keyed := by
    intro key r' found
    rw [Function.update_apply] at found
    split at found
    · rename_i same
      rw [← Option.some.inj found, same]
    · exact m.keyed key r' found

/-- `Rem`. -/
def rem (m : RegManager) (r : RegUser) : RegManager where
  table := Function.update m.table (r.sNick.map lowerCase) none
  keyed := by
    intro key r' found
    rw [Function.update_apply] at found
    split at found
    · simp at found
    · exact m.keyed key r' found

/-- The password is hashed, unless the hub keeps passwords as they are. -/
def createReg (hashPasswords : Bool) (hashPassword : Text → Option Text) (sNick sPasswd : Text)
    (profile : UInt16) : Option RegUser :=
  if hashPasswords then
    (hashPassword sPasswd).map fun hash =>
      { sNick := sNick, profile := profile, passHash := true, passData := hash }
  else some { sNick := sNick, profile := profile, passHash := false, passData := sPasswd }

section
variable {m : RegManager} {r : RegUser} {nick : Text}

theorem find_congr {a b : Text} (same : iequals a b = true) : m.find a = m.find b := by
  unfold find
  rw [iequals_iff.mp same]

theorem iequals_of_find (found : m.find nick = some r) : iequals r.sNick nick = true :=
  iequals_iff.mpr (m.keyed _ r found)

theorem find_put : (m.put r).find nick = if iequals nick r.sNick then some r else m.find nick := by
  simp only [find, put, Function.update_apply, iequals_iff]

theorem find_rem : (m.rem r).find nick = if iequals nick r.sNick then none else m.find nick := by
  simp only [find, rem, Function.update_apply, iequals_iff]

/-- A registration that has been found may be brought up to date in place. -/
theorem find_put_of_find {s : RegUser} (found : m.find nick = some s) (same : r.sNick = s.sNick)
    (other : Text) :
    (m.put r).find other = if iequals other nick then some r else m.find other := by
  have eq := iequals_of_find found
  rw [find_put, same]
  have swap : iequals other s.sNick = iequals other nick := by
    rw [Bool.eq_iff_iff]
    exact ⟨fun h => iequals_trans h eq, fun h => iequals_trans h (iequals_comm.trans eq)⟩
  rw [swap]

theorem sNick_of_createReg {hashPasswords : Bool} {hashPassword : Text → Option Text}
    {sPasswd : Text} {profile : UInt16}
    (created : createReg hashPasswords hashPassword nick sPasswd profile = some r) :
    r.sNick = nick ∧ r.profile = profile := by
  unfold createReg at created
  split at created
  · obtain ⟨hash, -, eq⟩ := Option.map_eq_some_iff.mp created
    exact eq ▸ ⟨rfl, rfl⟩
  · exact Option.some.inj created ▸ ⟨rfl, rfl⟩

end

end RegManager

namespace RegUser

/-- `UpdatePassword`. A password that cannot be hashed is not taken over. -/
def updatePassword (hashPasswords : Bool) (hashPassword : Text → Option Text) (r : RegUser)
    (sNewPass : Text) : RegUser :=
  if hashPasswords then
    match hashPassword sNewPass with
    | some hash => { r with passData := hash, passHash := true }
    | none => r
  else { r with passData := sNewPass, passHash := false }

end RegUser

end FlyHub.Session
