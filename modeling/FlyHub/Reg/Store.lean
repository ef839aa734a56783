import FlyHub.Lib.Multimap
import Mathlib.Data.List.Pairwise
import FlyHub.Lib.Run
import FlyHub.Text

/-!
# The store of the registrations

`RegManager` owns the registered users in a list and finds them through a hash table
of their nicks. The setting that says whether passwords are hashed may change between
any two operations.
-/

namespace FlyHub.Reg

open FlyHub.Lib

abbrev RegId := Nat

/-- What `HashPassword` makes of a password. -/
abbrev PassHash := { h : Text // h.length = 64 }

/-- `m_vPassData`, by `m_bPassHash`. The closing zero of a plain password is left out. -/
inductive Password where
  | plain (s : Text)
  | hashed (h : PassHash)
  deriving DecidableEq

structure RegUser where
  sNick : Text
  password : Password
  profile : UInt16
  hash : UInt32
  hash_eq : hash = hashNick sNick
  deriving DecidableEq

/-- What the store takes from the rest of the program. -/
structure Config where
  hashPassword : Text → Option PassHash
  place : Placement RegId

/-- `CreateReg`. -/
def createReg (sNick : Text) (password : Password) (profile : UInt16) : RegUser :=
  ⟨sNick, password, profile, hashNick sNick, rfl⟩

/-- `UpdatePassword`. A password that cannot be hashed is not taken over, and a plain one
that is there already is not written again. -/
def RegUser.updatePassword (cfg : Config) (hashPasswords : Bool) (u : RegUser)
    (sNewPass : Text) : RegUser :=
  if hashPasswords then
    match cfg.hashPassword sNewPass with
    | some h => { u with password := .hashed h }
    | none => u
  else
    match u.password with
    | .hashed _ => { u with password := .plain sNewPass }
    | .plain stored => if cText stored = sNewPass then u else { u with password := .plain sNewPass }

/-- `next` is the first identity not yet given out. -/
structure RegManager where
  reg : RegId → RegUser
  next : RegId
  regTable : UInt32 → List RegId
  regList : List RegId

namespace RegManager

def empty : RegManager where
  reg := fun _ => createReg [] (.plain []) 0
  next := 0
  regTable := fun _ => []
  regList := []

def add2Table (cfg : Config) (m : RegManager) (r : RegId) : RegManager :=
  let key := (m.reg r).hash
  { m with regTable := Function.update m.regTable key (cfg.place.insert r (m.regTable key)) }

/-- `Add`, of a user that has just been made. -/
def add (cfg : Config) (m : RegManager) (u : RegUser) : RegManager :=
  let m := { m with reg := Function.update m.reg m.next u, next := m.next + 1 }
  let m := m.add2Table cfg (m.next - 1)
  { m with regList := m.regList ++ [m.next - 1] }

def remFromTable (m : RegManager) (r : RegId) : RegManager :=
  let key := (m.reg r).hash
  { m with regTable := Function.update m.regTable key ((m.regTable key).erase r) }

/-- `Rem`. -/
def rem (m : RegManager) (r : RegId) : RegManager :=
  let m := m.remFromTable r
  { m with regList := m.regList.erase r }

def find (m : RegManager) (sNick : Text) : Option RegId :=
  (m.regTable (hashNick sNick)).find? fun r => iequals (m.reg r).sNick sNick

/-- The user `AddNew` makes. A password that cannot be hashed makes none. -/
def newReg (cfg : Config) (hashPasswords : Bool) (sNick sPasswd : Text) (profile : UInt16) :
    Option RegUser :=
  if hashPasswords then
    (cfg.hashPassword sPasswd).map fun h => createReg sNick (.hashed h) profile
  else some (createReg sNick (.plain sPasswd) profile)

/-- `AddNew`, as far as the store goes. Nick and password come in their buffers. -/
def addNew (cfg : Config) (hashPasswords : Bool) (m : RegManager) (sNick sPasswd : Text)
    (profile : UInt16) : RegManager × Bool :=
  if (m.find (cText sNick)).isSome then (m, false)
  else
    match newReg cfg hashPasswords (cText sNick) (cText sPasswd) profile with
    | some u => (m.add cfg u, true)
    | none => (m, false)

/-- `ChangeReg`, of a registration that is in the store. -/
def changeReg (cfg : Config) (hashPasswords : Bool) (m : RegManager) (r : RegId)
    (sNewPasswd : Option Text) (newProfile : UInt16) : RegManager :=
  let u := match sNewPasswd with
    | some s => (m.reg r).updatePassword cfg hashPasswords (cText s)
    | none => m.reg r
  { m with reg := Function.update m.reg r { u with profile := newProfile } }

/-- `Delete`, of a registration that is in the store. -/
def delete (m : RegManager) (r : RegId) : RegManager := m.rem r

/-- The registrations, in their order. -/
def users (m : RegManager) : List RegUser := m.regList.map m.reg

end RegManager

/-- An operation on the store. The callers of the last two hold a registration. -/
inductive Op where
  | addNew (sNick sPasswd : Text) (profile : UInt16)
  | changeReg (r : RegId) (sNewPasswd : Option Text) (newProfile : UInt16)
  | delete (r : RegId)

/-- An operation under a setting. -/
structure Event where
  hashPasswords : Bool
  op : Op

namespace RegManager

def step (cfg : Config) (m : RegManager) (e : Event) : RegManager :=
  match e.op with
  | .addNew sNick sPasswd profile => (m.addNew cfg e.hashPasswords sNick sPasswd profile).1
  | .changeReg r sNewPasswd newProfile =>
    if r ∈ m.regList then m.changeReg cfg e.hashPasswords r sNewPasswd newProfile else m
  | .delete r => if r ∈ m.regList then m.delete r else m

/-! ## What always holds -/

/-- List and table hold the same registrations, each once. -/
structure Inv (m : RegManager) : Prop where
  nodup : m.regList.Nodup
  fresh : ∀ r ∈ m.regList, r < m.next
  keyed : Keyed (fun r => (m.reg r).hash) m.regTable m.regList

section
variable {cfg : Config} {m : RegManager} {u : RegUser} {r : RegId} {sNick : Text}

theorem inv_empty : Inv empty :=
  ⟨List.nodup_nil, by simp [empty], keyed_empty⟩

theorem add_reg (cfg : Config) (u : RegUser) (inv : Inv m) :
    ∀ r ∈ m.regList, (m.add cfg u).reg r = m.reg r := by
  intro r mem
  exact Function.update_of_ne (Nat.ne_of_lt (inv.fresh r mem)) _ _

theorem add_new (cfg : Config) (m : RegManager) (u : RegUser) : (m.add cfg u).reg m.next = u :=
  Function.update_self _ _ _

theorem add_list (m : RegManager) (u : RegUser) :
    (m.add cfg u).regList = m.regList ++ [m.next] := rfl

theorem inv_add (inv : Inv m) : Inv (m.add cfg u) := by
  have same := add_reg cfg u inv
  refine ⟨?_, ?_, ?_⟩
  · rw [add_list, List.nodup_append]
    refine ⟨inv.nodup, by simp, ?_⟩
    intro r mem s mem' eq
    rw [List.mem_singleton] at mem'
    exact Nat.ne_of_lt (inv.fresh r mem) (eq.trans mem')
  · intro r mem
    show r < m.next + 1
    rw [add_list, List.mem_append, List.mem_singleton] at mem
    cases mem with
    | inl old => exact Nat.lt_succ_of_lt (inv.fresh r old)
    | inr eq => exact eq ▸ Nat.lt_succ_self m.next
  · have keyed : Keyed (fun r => ((m.add cfg u).reg r).hash) m.regTable m.regList :=
      inv.keyed.congr fun r mem => by rw [same r mem]
    exact keyed.add cfg.place m.next

theorem inv_rem (inv : Inv m) (r : RegId) : Inv (m.rem r) := by
  refine ⟨inv.nodup.erase r, ?_, inv.keyed.erase r⟩
  intro s mem
  exact inv.fresh s (List.mem_of_mem_erase mem)

theorem updatePassword_sNick (hashPasswords : Bool) (sNewPass : Text) :
    (u.updatePassword cfg hashPasswords sNewPass).sNick = u.sNick := by
  unfold RegUser.updatePassword
  split
  · cases cfg.hashPassword sNewPass with
    | none => rfl
    | some h => rfl
  · cases u.password with
    | hashed h => rfl
    | plain stored =>
      dsimp only
      split
      · rfl
      · rfl

/-- A change keeps the nick. -/
theorem changeReg_sNick (cfg : Config) (m : RegManager) (r : RegId) (hashPasswords : Bool)
    (sNewPasswd : Option Text) (newProfile : UInt16) (s : RegId) :
    ((m.changeReg cfg hashPasswords r sNewPasswd newProfile).reg s).sNick = (m.reg s).sNick := by
  unfold changeReg
  dsimp only
  rw [Function.update_apply]
  by_cases here : s = r
  · rw [if_pos here, here]
    cases sNewPasswd with
    | none => rfl
    | some t => exact updatePassword_sNick hashPasswords (cText t)
  · rw [if_neg here]

theorem inv_changeReg (inv : Inv m) (hashPasswords : Bool) (sNewPasswd : Option Text)
    (newProfile : UInt16) : Inv (m.changeReg cfg hashPasswords r sNewPasswd newProfile) := by
  refine ⟨inv.nodup, inv.fresh, inv.keyed.congr fun s _ => ?_⟩
  rw [RegUser.hash_eq, RegUser.hash_eq, changeReg_sNick]

theorem newReg_sNick {hashPasswords : Bool} {sPasswd : Text} {profile : UInt16}
    (made : newReg cfg hashPasswords sNick sPasswd profile = some u) : u.sNick = sNick := by
  unfold newReg at made
  split at made
  · obtain ⟨h, -, rfl⟩ := Option.map_eq_some_iff.mp made
    rfl
  · cases made
    rfl

/-- What a step does: nothing, or it adds a user whose nick is not there, changes a
registration, or deletes one. -/
theorem step_cases (cfg : Config) (m : RegManager) (e : Event) :
    m.step cfg e = m ∨
      (∃ sNick sPasswd profile u,
        newReg cfg e.hashPasswords (cText sNick) (cText sPasswd) profile = some u ∧
          m.step cfg e = m.add cfg u ∧ (m.find u.sNick).isSome = false) ∨
      (∃ r ∈ m.regList, ∃ pass profile,
        m.step cfg e = m.changeReg cfg e.hashPasswords r pass profile) ∨
      ∃ r ∈ m.regList, m.step cfg e = m.rem r := by
  obtain ⟨hashPasswords, op⟩ := e
  cases op with
  | addNew sNick sPasswd profile =>
    unfold step addNew
    dsimp only
    split
    · exact .inl rfl
    · rename_i free
      cases made : newReg cfg hashPasswords (cText sNick) (cText sPasswd) profile with
      | none => exact .inl rfl
      | some u =>
        refine .inr (.inl ⟨sNick, sPasswd, profile, u, made, rfl, ?_⟩)
        rw [newReg_sNick made]
        simpa using free
  | changeReg r sNewPasswd newProfile =>
    unfold step
    dsimp only
    split
    · rename_i mem
      exact .inr (.inr (.inl ⟨r, mem, sNewPasswd, newProfile, rfl⟩))
    · exact .inl rfl
  | delete r =>
    unfold step
    dsimp only
    split
    · rename_i mem
      exact .inr (.inr (.inr ⟨r, mem, rfl⟩))
    · exact .inl rfl

theorem inv_step (inv : Inv m) (e : Event) : Inv (m.step cfg e) := by
  obtain eq | ⟨-, -, -, u, -, eq, -⟩ | ⟨r, -, pass, profile, eq⟩ | ⟨r, -, eq⟩ := step_cases cfg m e
  · rw [eq]
    exact inv
  · rw [eq]
    exact inv_add inv
  · rw [eq]
    exact inv_changeReg inv _ _ _
  · rw [eq]
    exact inv_rem inv r

/-- `Find` finds what there is, in any spelling. -/
theorem find_isSome (inv : Inv m) :
    (m.find sNick).isSome ↔ ∃ r ∈ m.regList, iequals (m.reg r).sNick sNick = true := by
  rw [find, inv.keyed.find?_isSome]
  constructor
  · rintro ⟨r, mem, -, same⟩
    exact ⟨r, mem, same⟩
  · rintro ⟨r, mem, same⟩
    exact ⟨r, mem, (m.reg r).hash_eq.trans (hashNick_congr same), same⟩

theorem find_mem (inv : Inv m) (found : m.find sNick = some r) :
    r ∈ m.regList ∧ iequals (m.reg r).sNick sNick = true := by
  have mem := List.mem_of_find?_eq_some found
  have same := List.find?_some found
  exact ⟨(inv.keyed.mem_iff.mp mem).1, same⟩

end

/-! ## One registration for a nick -/

/-- No two registrations have nicks equal up to case. -/
def Unique (m : RegManager) : Prop :=
  m.regList.Pairwise fun a b => iequals (m.reg a).sNick (m.reg b).sNick = false

/-- What the store is for: list and table hold the same registrations, a nick in any
spelling leads to its only one, and to none after that one is deleted. -/
structure Sound (m : RegManager) : Prop where
  keyed : Keyed (fun r => (m.reg r).hash) m.regTable m.regList
  unique : m.Unique
  find : ∀ sNick, (∃ r, m.find sNick = some r) ↔
    ∃ r ∈ m.regList, iequals (m.reg r).sNick sNick = true
  delete : ∀ sNick r, m.find sNick = some r → (m.delete r).find sNick = none
  hashes : ∀ a b : Text, iequals a b = true → hashNick a = hashNick b

section
variable {cfg : Config} {m : RegManager} {u : RegUser} {r : RegId} {sNick : Text}

/-- A user goes in without a second one only if no registration has the nick. -/
theorem unique_add_iff (inv : Inv m) :
    (m.add cfg u).Unique ↔
      m.Unique ∧ ∀ r ∈ m.regList, iequals (m.reg r).sNick u.sNick = false := by
  have same := add_reg cfg u inv
  have old : (m.regList.Pairwise fun a b =>
      iequals ((m.add cfg u).reg a).sNick ((m.add cfg u).reg b).sNick = false) ↔ m.Unique := by
    apply List.Pairwise.iff_of_mem
    intro a b memA memB
    rw [same a memA, same b memB]
  unfold Unique at old ⊢
  rw [add_list, List.pairwise_append, old]
  constructor
  · rintro ⟨unique, -, new⟩
    refine ⟨unique, fun r mem => ?_⟩
    have apart := new r mem m.next (by simp)
    rwa [same r mem, add_new] at apart
  · rintro ⟨unique, new⟩
    refine ⟨unique, by simp, fun a mem b mem' => ?_⟩
    rw [List.mem_singleton] at mem'
    rw [mem', same a mem, add_new, new a mem]

theorem unique_step (inv : Inv m) (unique : m.Unique) (e : Event) : (m.step cfg e).Unique := by
  obtain eq | ⟨-, -, -, u, -, eq, none_⟩ | ⟨r, -, pass, profile, eq⟩ | ⟨r, -, eq⟩ := step_cases cfg m e
  · rw [eq]
    exact unique
  · rw [eq]
    refine (unique_add_iff inv).mpr ⟨unique, ?_⟩
    intro r mem
    by_contra same
    rw [Bool.not_eq_false] at same
    have found := (find_isSome inv).mpr ⟨r, mem, same⟩
    rw [found] at none_
    contradiction
  · rw [eq]
    apply List.Pairwise.imp _ unique
    intro a b apart
    rw [changeReg_sNick, changeReg_sNick, apart]
  · rw [eq]
    exact unique.sublist List.erase_sublist

theorem find_delete (inv : Inv m) (unique : m.Unique) (found : m.find sNick = some r) :
    (m.delete r).find sNick = none := by
  obtain ⟨mem, same⟩ := find_mem inv found
  rw [← Option.not_isSome_iff_eq_none, delete, find_isSome (inv_rem inv r)]
  rintro ⟨s, mem', same'⟩
  obtain ⟨apart, memS⟩ := (inv.nodup.mem_erase_iff).mp mem'
  have both : iequals (m.reg s).sNick (m.reg r).sNick = true :=
    iequals_trans same' (iequals_comm.trans same)
  have : Std.Symm fun a b => iequals (m.reg a).sNick (m.reg b).sNick = false :=
    ⟨fun a b apart => iequals_comm.trans apart⟩
  have different := List.Pairwise.forall unique memS mem apart
  rw [both] at different
  contradiction

theorem sound (inv : Inv m) (unique : m.Unique) : m.Sound where
  keyed := inv.keyed
  unique := unique
  find := by
    intro sNick
    rw [← find_isSome inv, Option.isSome_iff_exists]
  delete := fun _ _ found => find_delete inv unique found
  hashes := fun _ _ => hashNick_congr

end

end RegManager

end FlyHub.Reg
