import FlyHub.Lib.Run
import FlyHub.Session.RegManager
import Mathlib.Data.List.Forall2

/-!
# The table of profiles

Registrations and users name their profile by its place in the table. Where a profile
is removed or moved, the places they name move with it.
-/

namespace FlyHub.Profile

open FlyHub.Lib FlyHub.Session

structure ProfileItem where
  sName : Text
  permissions : Fin 256 → Bool

/-- The table and its count, and those who name profiles: the registrations, and the
users online by their `m_i32Profile`. Nobody is online unless the server is running. -/
structure Profiles where
  table : List (Option ProfileItem)
  count : UInt16
  regs : List RegUser
  users : List Int
  running : Bool
  offline : running = false → users = []

/-- What the scripts ask for. -/
inductive Event where
  | addProfile (sName : Text)
  | removeProfileByName (sName : Text)
  | removeProfile (ui16Profile : UInt16)
  | moveDown (ui16Profile : UInt16)
  | moveUp (ui16Profile : UInt16)

/-- Whether a profile has the name. None if an empty entry is met before it. -/
def hasName (sName : Text) : List (Option ProfileItem) → Option Bool
  | [] => some false
  | none :: _ => none
  | some p :: rest => if iequals p.sName sName then some true else hasName sName rest

/-- No control character, no blank, no `|`. A `char` is signed. -/
def legalName (sName : Text) : Bool := sName.all fun c => 33 ≤ c && c < 128 && c ≠ 124

/-- The place of the name among the `n` entries from `i` on. None as above. -/
def indexOfName (table : List (Option ProfileItem)) (sName : Text) : Nat → Nat → Option (Option Nat)
  | 0, _ => some none
  | n + 1, i =>
    match table[i]? with
    | some (some p) => if iequals p.sName sName then some (some i) else indexOfName table sName n (i + 1)
    | _ => none

/-- Each of the `n` entries from `i` on becomes the next one, whose place is left empty. -/
def moveFront : Nat → Nat → List (Option ProfileItem) → Option (List (Option ProfileItem))
  | 0, _, table => some table
  | n + 1, i, table =>
    match table[i + 1]? with
    | none => none
    | some p => moveFront n (i + 1) ((table.set i p).set (i + 1) none)

/-- `std::swap`. None if one of the entries is not there. -/
def swap (table : List (Option ProfileItem)) (i j : Nat) : Option (List (Option ProfileItem)) :=
  match table[i]?, table[j]? with
  | some a, some b => some ((table.set i b).set j a)
  | _, _ => none

/-- The entry is deleted. None if it is not there. -/
def reset (table : List (Option ProfileItem)) (i : Nat) : Option (List (Option ProfileItem)) :=
  if i < table.length then some (table.set i none) else none

namespace Profiles

/-- Everybody online gets another profile number. -/
def renumber (s : Profiles) (reg : UInt16 → UInt16) (user : Int → Int) : Profiles :=
  { s with
    regs := s.regs.map fun r => { r with profile := reg r.profile }
    users := s.users.map user
    offline := fun stopped => by rw [s.offline stopped, List.map_nil] }

/-- `CreateProfile`. It ends with a look at the entry before the count. -/
def createProfile (s : Profiles) (sName : Text) : Option Profiles :=
  let s := { s with count := s.count + 1, table := s.table ++ [some ⟨sName, fun _ => false⟩] }
  if s.count ≠ 0 && s.count.toNat - 1 < s.table.length then some s else none

/-- `AddProfile`, with what it returns. -/
def addProfile (s : Profiles) (sName : Text) : Option (Profiles × Int) :=
  match hasName sName s.table with
  | none => none
  | some true => some (s, -1)
  | some false =>
    if !legalName sName then some (s, -2)
    else (s.createProfile sName).map fun s => (s, s.count.toNat - 1)

/-- A registration has the profile, which is not deleted then. -/
def inUse (s : Profiles) (ui16Profile : UInt16) : Bool :=
  s.regs.any fun r => r.profile = ui16Profile

def removeProfile (s : Profiles) (ui16Profile : UInt16) : Option (Profiles × Bool) :=
  if s.inUse ui16Profile then some (s, false)
  else do
    let i := ui16Profile.toNat
    let count := s.count - 1
    let table ← reset s.table i
    let table ← moveFront (count.toNat - i) i table
    let table ← reset table count.toNat
    let s := { s with table := table, count := count }
    let s := s.renumber (fun p => if ui16Profile < p then p - 1 else p)
      (fun p => if s.running && i < p then p - 1 else p)
    pure (s, true)

def removeProfileByName (s : Profiles) (sName : Text) : Option (Profiles × Int) := do
  let found ← indexOfName s.table sName s.count.toNat 0
  match found with
  | none => pure (s, 0)
  | some i => do
    let (s, removed) ← s.removeProfile (UInt16.ofNat i)
    pure (s, if removed then 1 else -1)

def moveProfileDown (s : Profiles) (ui16Profile : UInt16) : Option Profiles := do
  let i := ui16Profile.toNat
  let table ← swap s.table i (i + 1)
  pure ({ s with table := table }.renumber
    (fun p => if p = ui16Profile then p + 1 else if p.toNat = i + 1 then p - 1 else p)
    (fun p => if p = i then p + 1 else if p = i + 1 then p - 1 else p))

def moveProfileUp (s : Profiles) (ui16Profile : UInt16) : Option Profiles := do
  let i := ui16Profile.toNat
  let table ← swap s.table (i - 1) i
  pure ({ s with table := table }.renumber
    (fun p => if p = ui16Profile then p - 1 else if p.toNat = i - 1 then p + 1 else p)
    (fun p => if p = i then p - 1 else if p = i - 1 then p + 1 else p))

/-- One call of a script, with its checks of lengths and places, and the place that
`AddProfile` returns. -/
def exec (s : Profiles) : Event → Option (Profiles × Option Int)
  | .addProfile sName =>
    if sName.length = 0 || 64 < sName.length then some (s, none)
    else (s.addProfile sName).map fun r => (r.1, some r.2)
  | .removeProfileByName sName =>
    if sName.length = 0 then some (s, none)
    else (s.removeProfileByName sName).map fun r => (r.1, none)
  | .removeProfile i =>
    if s.count ≤ i then some (s, none) else (s.removeProfile i).map fun r => (r.1, none)
  | .moveDown i =>
    if s.count.toNat ≤ i.toNat + 1 then some (s, none)
    else (s.moveProfileDown i).map fun s => (s, none)
  | .moveUp i =>
    if i = 0 || s.count ≤ i then some (s, none) else (s.moveProfileUp i).map fun s => (s, none)

end Profiles

/-- None: the program has looked at an entry that is empty or not there. -/
def step (s : Option Profiles) (e : Event) : Option Profiles :=
  s.bind fun s => (s.exec e).map Prod.fst

end FlyHub.Profile
