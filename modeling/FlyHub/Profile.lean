import Mathlib.Tactic.Common

/-!
# Profiles

A registered user has a profile number; `-1` is no profile. A profile is the
set of permissions it grants.
-/

namespace FlyHub

/-- The permissions of a profile that the modelled code asks for. -/
inductive Permission where
  | hasKeyIcon
  | enterFullHub
  | enterIfIpBan
  | sendAllUserIp
  | sendFullMyInfos
  | noUsrSameIp
  | noReconnTime
  | allowedOpChat
  deriving DecidableEq, Repr

/-- The table of profiles: the permissions each profile number grants. -/
abbrev ProfileManager := Int → Permission → Bool

namespace ProfileManager

def isProfileAllowed (profiles : ProfileManager) (profile : Int) (option : Permission) : Bool :=
  if profile = -1 then false else profiles profile option

@[simp] theorem isProfileAllowed_none (profiles : ProfileManager) (option : Permission) :
    profiles.isProfileAllowed (-1) option = false := rfl

end ProfileManager

end FlyHub
