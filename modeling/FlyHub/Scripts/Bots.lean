import FlyHub.Lib.Run
import FlyHub.Text
import Mathlib.Data.List.Pairwise

/-!
# Reserved nicks

The nicks of the bots of scripts and of the hub are reserved, so that no user comes with one. A
user that waits to close its own ghost has been checked but is not found by its nick yet, and the
two nicks of the hub share what reserves them.
-/

namespace FlyHub.Scripts

open FlyHub.Lib

structure ReservedNick where
  sNick : Text
  fromScript : Bool
  deriving DecidableEq

namespace ReservedNick

variable (reserved : List ReservedNick)

def checkReserved (sNick : Text) (hash : UInt32) : Bool :=
  reserved.any fun r => hashNick r.sNick = hash && iequals r.sNick sNick

def addReservedNick (sNick : Text) (fromScript : Bool) : List ReservedNick :=
  if checkReserved reserved sNick (hashNick sNick) then reserved
  else reserved ++ [⟨sNick, fromScript⟩]

def delReservedNick (sNick : Text) (fromScript : Bool) : List ReservedNick :=
  reserved.eraseP fun r =>
    hashNick r.sNick = hashNick sNick && r.sNick = sNick && (!fromScript || r.fromScript)

end ReservedNick

open ReservedNick

/-- A bot of the hub itself. -/
inductive HubBot where
  | bot
  | opChat
  deriving DecidableEq

def HubBot.other : HubBot → HubBot
  | bot => opChat
  | opChat => bot

/-- A user from `ValidateNick` on. One that is not hashed waits for the password to close its
ghost. -/
structure Login where
  id : Nat
  sNick : Text
  hashed : Bool
  deriving DecidableEq

structure NickHub where
  reserved : List ReservedNick
  /-- The bots of each script, the last one first. -/
  bots : Nat → List Text
  botsCount : Nat
  users : List Login
  nick : HubBot → Text
  reg : HubBot → Bool
  botsSameNick : Bool

/-- `validateNick` comes after the other checks of a login; `registered` and `dead` say whether the
nick has a password and whether the connection of the user that has it is gone. `setHubBot` is
`SetHubBot` or `SetOpChat`. -/
inductive NickEvent where
  | validateNick (id : Nat) (sNick : Text) (registered dead : Bool)
  | myPass (id : Nat)
  | close (id : Nat)
  | regBot (script : Nat) (sNick : Text)
  | unregBot (script : Nat) (sNick : Text)
  | scriptStop (script : Nat)
  | setText (w : HubBot) (sTxt : Text)
  | setBool (w : HubBot) (bValue : Bool)
  | setHubBot (w : HubBot) (bEnable : Bool) (sNick : Text)

def legalNick (sNick : Text) : Bool :=
  sNick.all fun c => c ≠ 32 && c ≠ 36 && c ≠ 124

/-- What is checked of the nick of a bot. -/
def botNick (sNick : Text) : Bool := sNick ≠ [] && sNick.length ≤ 64 && legalNick sNick

namespace NickHub

variable (h : NickHub)

def findUser (sNick : Text) : Option Login :=
  h.users.find? fun u => u.hashed && iequals u.sNick sNick

def close (id : Nat) : NickHub := { h with users := h.users.filter (·.id ≠ id) }

def validateNick (id : Nat) (sNick : Text) (registered dead : Bool) : NickHub :=
  if h.users.any (·.id = id) then h
  else if !(legalNick sNick && sNick.all (32 ≤ ·)) then h
  else if checkReserved h.reserved sNick (hashNick sNick) then h
  else
    match h.findUser sNick with
    | none => { h with users := ⟨id, sNick, true⟩ :: h.users }
    | some other =>
      if dead then h.close other.id
      else if registered then { h with users := ⟨id, sNick, false⟩ :: h.users }
      else h

def myPass (id : Nat) : NickHub :=
  match h.users.find? (·.id = id) with
  | none => h
  | some u =>
    if u.hashed then h
    else
      let h := match h.findUser u.sNick with
        | none => h
        | some ghost => h.close ghost.id
      { h with users := ⟨id, u.sNick, true⟩ :: h.users.filter (·.id ≠ id) }

/-- The nick is looked up as far as a NUL, but its hash is that of all of it. -/
def regBot (script : Nat) (sNick : Text) : NickHub :=
  if 63 < h.botsCount then h
  else if !botNick sNick || (h.findUser sNick).isSome ||
      checkReserved h.reserved (cText sNick) (hashNick sNick) then h
  else if (h.bots script).any (iequals sNick ·) then h
  else
    { h with
      bots := Function.update h.bots script (sNick :: h.bots script)
      botsCount := h.botsCount + 1
      reserved := addReservedNick h.reserved (cText sNick) true }

def unregBot (script : Nat) (sNick : Text) : NickHub :=
  match (h.bots script).find? (iequals (cText sNick) ·) with
  | none => h
  | some cur =>
    { h with
      bots := Function.update h.bots script ((h.bots script).erase cur)
      botsCount := h.botsCount - 1
      reserved := delReservedNick h.reserved (cText cur) true }

def scriptStop (script : Nat) : NickHub :=
  { h with
    bots := Function.update h.bots script []
    botsCount := h.botsCount - (h.bots script).length
    reserved := (h.bots script).foldl (fun rs sNick => delReservedNick rs (cText sNick) true)
      h.reserved }

def updateBotsSameNick : NickHub :=
  { h with botsSameNick :=
      h.nick .bot ≠ [] && h.nick .opChat ≠ [] && h.reg .bot && h.reg .opChat &&
        iequals (h.nick .bot) (h.nick .opChat) }

/-- The nick that is left is no longer reserved. -/
def setNick (w : HubBot) (sTxt : Text) : NickHub :=
  { h with
    reserved := if h.botsSameNick then h.reserved
      else delReservedNick h.reserved (cText (h.nick w)) false
    nick := Function.update h.nick w sTxt }

def reserveNick (w : HubBot) : NickHub :=
  { h with reserved := if h.botsSameNick then h.reserved
      else addReservedNick h.reserved (cText (h.nick w)) false }

/-- `locked` says whether `m_bUpdateLocked` keeps `UpdateBotsSameNick` from its work. -/
def setText (locked : Bool) (w : HubBot) (sTxt : Text) : NickHub :=
  if h.nick w = sTxt || !botNick sTxt then h
  else
    let h := h.setNick w sTxt
    let h := if locked then h else h.updateBotsSameNick
    h.reserveNick w

def setBool (locked : Bool) (w : HubBot) (bValue : Bool) : NickHub :=
  if h.reg w = bValue then h
  else
    let h := { h with reg := Function.update h.reg w bValue }
    if locked then h else h.updateBotsSameNick

def setHubBot (w : HubBot) (bEnable : Bool) (sNick : Text) : NickHub :=
  if !botNick sNick || (h.findUser sNick).isSome then h
  else
    let h := h.setBool true w bEnable
    let h := if h.nick w ≠ cText sNick then h.setText true w (cText sNick) else h
    h.updateBotsSameNick

def step (h : NickHub) : NickEvent → NickHub
  | .validateNick id sNick registered dead => h.validateNick id sNick registered dead
  | .myPass id => h.myPass id
  | .close id => h.close id
  | .regBot script sNick => h.regBot script sNick
  | .unregBot script sNick => h.unregBot script sNick
  | .scriptStop script => h.scriptStop script
  | .setText w sTxt => h.setText false w sTxt
  | .setBool w bValue => h.setBool false w bValue
  | .setHubBot w bEnable sNick => h.setHubBot w bEnable sNick

/-- The hub starts with the nicks of the file, and reserves its own. -/
def start (file : List Text) (nick : HubBot → Text) (reg : HubBot → Bool) (adminNick : Text) :
    NickHub :=
  let reserved := (file ++ [nick .bot, nick .opChat, adminNick]).foldl
    (fun rs sNick => addReservedNick rs (cText sNick) false) []
  updateBotsSameNick ⟨reserved, fun _ => [], 0, [], nick, reg, false⟩

end NickHub

/-! ## The reserved nicks -/

section
variable {reserved : List ReservedNick} {sNick : Text} {fromScript : Bool} {r : ReservedNick}

def Differ (r r' : ReservedNick) : Prop := iequals r.sNick r'.sNick = false

instance : Std.Symm Differ := ⟨fun _ _ h => iequals_comm.trans h⟩

/-- No nick is there twice, in any case of its letters. -/
def Apart (reserved : List ReservedNick) : Prop := reserved.Pairwise Differ

theorem Apart.eq {r' : ReservedNick} (apart : Apart reserved) (hr : r ∈ reserved)
    (hr' : r' ∈ reserved) (same : iequals r.sNick r'.sNick = true) : r = r' := by
  by_contra ne
  have differ : iequals r.sNick r'.sNick = false := List.Pairwise.forall apart hr hr' ne
  rw [same] at differ
  cases differ

theorem check_iff : checkReserved reserved sNick (hashNick sNick) = true ↔
    ∃ r ∈ reserved, iequals r.sNick sNick = true := by
  rw [checkReserved, List.any_eq_true]
  constructor
  · rintro ⟨r, mem, found⟩
    exact ⟨r, mem, (Bool.and_eq_true_iff.mp found).2⟩
  · rintro ⟨r, mem, same⟩
    exact ⟨r, mem, Bool.and_eq_true_iff.mpr ⟨decide_eq_true (hashNick_congr same), same⟩⟩

theorem mem_add : r ∈ addReservedNick reserved sNick fromScript ↔
    r ∈ reserved ∨ r = ⟨sNick, fromScript⟩ ∧ ∀ r' ∈ reserved, iequals r'.sNick sNick = false := by
  unfold addReservedNick
  split
  · rename_i taken
    obtain ⟨r', mem, same⟩ := check_iff.mp taken
    constructor
    · exact .inl
    · rintro (mem | ⟨-, free⟩)
      · exact mem
      · rw [free r' mem] at same
        cases same
  · rename_i free
    rw [check_iff] at free
    push Not at free
    rw [List.mem_append, List.mem_singleton]
    simp only [and_iff_left fun r' mem => Bool.eq_false_iff.mpr (free r' mem)]

theorem apart_add (apart : Apart reserved) :
    Apart (addReservedNick reserved sNick fromScript) := by
  unfold addReservedNick
  split
  · exact apart
  · rename_i free
    rw [check_iff] at free
    push Not at free
    refine List.pairwise_append.mpr ⟨apart, List.pairwise_singleton _ _, fun r mem r' mem' => ?_⟩
    rw [List.mem_singleton.mp mem']
    exact Bool.eq_false_iff.mpr (free r mem)

theorem eraseP_eq_filter {α : Type*} {p : α → Bool} {l : List α}
    (once : l.Pairwise fun a b => ¬ (p a = true ∧ p b = true)) :
    l.eraseP p = l.filter fun a => !p a := by
  induction l with
  | nil => rfl
  | cons a l ih =>
    rw [List.pairwise_cons] at once
    by_cases found : p a = true
    · have others : l.filter (fun b => !p b) = l := by
        refine List.filter_eq_self.mpr fun b mem => ?_
        rw [Bool.not_eq_true']
        exact Bool.eq_false_iff.mpr fun hb => once.1 b mem ⟨found, hb⟩
      rw [List.eraseP_cons_of_pos found, List.filter_cons_of_neg (by simp [found]), others]
    · rw [List.eraseP_cons_of_neg found, List.filter_cons_of_pos (by simp [found]), ih once.2]

theorem del_eq (apart : Apart reserved) (sNick : Text) (fromScript : Bool) :
    delReservedNick reserved sNick fromScript =
      reserved.filter fun r => !(r.sNick = sNick && (!fromScript || r.fromScript)) := by
  have one : ∀ r : ReservedNick, (hashNick r.sNick = hashNick sNick && r.sNick = sNick &&
      (!fromScript || r.fromScript)) = (r.sNick = sNick && (!fromScript || r.fromScript)) := by
    intro r
    by_cases same : r.sNick = sNick
    · simp [same]
    · simp [same]
  rw [delReservedNick]
  simp only [one]
  refine eraseP_eq_filter (apart.imp fun differ both => ?_)
  simp only [Bool.and_eq_true, decide_eq_true_eq] at both
  rw [Differ, both.1.1, both.2.1, iequals_refl] at differ
  cases differ

theorem mem_del (apart : Apart reserved) : r ∈ delReservedNick reserved sNick fromScript ↔
    r ∈ reserved ∧ ¬ (r.sNick = sNick ∧ (fromScript = true → r.fromScript = true)) := by
  rw [del_eq apart, List.mem_filter]
  cases fromScript <;> simp [imp_iff_not_or]

theorem apart_del (apart : Apart reserved) (sNick : Text) (fromScript : Bool) :
    Apart (delReservedNick reserved sNick fromScript) := by
  rw [del_eq apart]
  exact List.Pairwise.filter _ apart

theorem apart_dels (apart : Apart reserved) (nicks : List Text) :
    Apart (nicks.foldl (fun rs sNick => delReservedNick rs (cText sNick) true) reserved) := by
  induction nicks generalizing reserved with
  | nil => exact apart
  | cons sNick nicks ih => exact ih (apart_del apart _ _)

theorem mem_dels (apart : Apart reserved) (nicks : List Text) :
    r ∈ nicks.foldl (fun rs sNick => delReservedNick rs (cText sNick) true) reserved ↔
      r ∈ reserved ∧ ¬ (r.sNick ∈ nicks.map cText ∧ r.fromScript = true) := by
  induction nicks generalizing reserved with
  | nil => simp
  | cons sNick nicks ih =>
    rw [List.foldl_cons, ih (apart_del apart _ _), mem_del apart, List.map_cons, List.mem_cons]
    grind

end

namespace NickHub

variable {h : NickHub}

/-- Nothing else is done about the nicks that are in use. -/
structure Inv (h : NickHub) : Prop where
  apart : Apart h.reserved
  /-- What scripts have reserved is what their bots have. -/
  bots : ∀ sNick, ⟨sNick, true⟩ ∈ h.reserved ↔ ∃ script, sNick ∈ h.bots script
  whole : ∀ script, ∀ sNick ∈ h.bots script, 0 ∉ sNick
  once : ∀ script, (h.bots script).Nodup
  own : ∀ script script' sNick, sNick ∈ h.bots script → sNick ∈ h.bots script' → script = script'
  hub : ∀ w, ∃ r ∈ h.reserved, r.fromScript = false ∧ iequals r.sNick (h.nick w) = true
  hubWhole : ∀ w, 0 ∉ h.nick w
  same : h.botsSameNick = true → iequals (h.nick .bot) (h.nick .opChat) = true
  users : ∀ u ∈ h.users, ∀ r ∈ h.reserved, iequals r.sNick u.sNick = false

/-- A nick for the hub: no bot of a script has it, and no user of those that are looked for. -/
structure Free (h : NickHub) (users : Login → Prop) (sNick : Text) : Prop where
  whole : 0 ∉ sNick
  users : ∀ u ∈ h.users, users u → iequals u.sNick sNick = false
  bots : ∀ script, ∀ bot ∈ h.bots script, iequals bot sNick = false

/-- The other nick of the hub has a reserved nick of its own. -/
def Own (h : NickHub) (w : HubBot) : Prop := iequals (h.nick w) (h.nick w.other) = false

/-- What has to hold so that an event leaves no nick in use unreserved. `RegBot` does not find a
user that waits to close its ghost, a hub nick is set whoever has it, and where the hub has one
nick for both bots `SetHubBot` and `SetOpChat` reserve none. -/
def Clear (h : NickHub) : NickEvent → Prop
  | .regBot _ sNick => 0 ∉ sNick ∧ ∀ u ∈ h.users, u.hashed = false → iequals u.sNick sNick = false
  | .setText w sTxt =>
    h.nick w = sTxt ∨ h.Free (fun _ => True) sTxt ∧ (h.botsSameNick = false → h.Own w)
  | .setHubBot w _ sNick =>
    h.nick w = sNick ∨ h.Free (·.hashed = false) sNick ∧
      if h.botsSameNick then iequals sNick (h.nick w.other) = true else h.Own w
  | _ => True

/-! ## What an event keeps -/

theorem Inv.withUsers (inv : Inv h) {users : List Login}
    (unreserved : ∀ u ∈ users, ∀ r ∈ h.reserved, iequals r.sNick u.sNick = false) :
    Inv { h with users := users } :=
  ⟨inv.apart, inv.bots, inv.whole, inv.once, inv.own, inv.hub, inv.hubWhole, inv.same, unreserved⟩

theorem Inv.withReg (inv : Inv h) (reg : HubBot → Bool) : Inv { h with reg := reg } :=
  ⟨inv.apart, inv.bots, inv.whole, inv.once, inv.own, inv.hub, inv.hubWhole, inv.same, inv.users⟩

theorem Inv.updateBotsSameNick (inv : Inv h) : Inv h.updateBotsSameNick :=
  ⟨inv.apart, inv.bots, inv.whole, inv.once, inv.own, inv.hub, inv.hubWhole,
    fun same => (Bool.and_eq_true_iff.mp same).2, inv.users⟩

theorem Inv.close (inv : Inv h) (id : Nat) : Inv (h.close id) :=
  inv.withUsers fun u mem => inv.users u (List.mem_filter.mp mem).1

theorem Inv.validateNick (inv : Inv h) (id : Nat) (sNick : Text) (registered dead : Bool) :
    Inv (h.validateNick id sNick registered dead) := by
  unfold NickHub.validateNick
  split
  · exact inv
  split
  · exact inv
  split
  · exact inv
  rename_i free
  rw [check_iff] at free
  push Not at free
  have added : ∀ hashed, Inv { h with users := ⟨id, sNick, hashed⟩ :: h.users } := by
    intro hashed
    refine inv.withUsers fun u mem r hr => ?_
    rcases List.mem_cons.mp mem with rfl | mem
    · exact Bool.eq_false_iff.mpr (free r hr)
    · exact inv.users u mem r hr
  split
  · exact added true
  · split
    · exact inv.close _
    · split
      · exact added false
      · exact inv

theorem Inv.myPass (inv : Inv h) (id : Nat) : Inv (h.myPass id) := by
  unfold NickHub.myPass
  split
  · exact inv
  rename_i u found
  have mem : u ∈ h.users := List.mem_of_find?_eq_some found
  split
  · exact inv
  have back : ∀ h' : NickHub, Inv h' → h'.reserved = h.reserved →
      Inv { h' with users := ⟨id, u.sNick, true⟩ :: h'.users.filter (·.id ≠ id) } := by
    intro h' inv' same
    refine inv'.withUsers fun v mem' r hr => ?_
    rcases List.mem_cons.mp mem' with rfl | mem'
    · exact inv.users u mem r (same ▸ hr)
    · exact inv'.users v (List.mem_filter.mp mem').1 r hr
  simp only
  split
  · exact back h inv rfl
  · rename_i ghost _
    exact back (h.close ghost.id) (inv.close _) rfl

theorem findUser_none {sNick : Text} (none : (h.findUser sNick).isSome = false) :
    ∀ u ∈ h.users, u.hashed = true → iequals u.sNick sNick = false := by
  intro u mem hashed
  rw [Option.isSome_eq_false_iff, Option.isNone_iff_eq_none, findUser,
    List.find?_eq_none] at none
  have := none u mem
  simpa [hashed] using this

theorem Inv.regBot (inv : Inv h) {script : Nat} {sNick : Text} (whole : 0 ∉ sNick)
    (waiting : ∀ u ∈ h.users, u.hashed = false → iequals u.sNick sNick = false) :
    Inv (h.regBot script sNick) := by
  unfold NickHub.regBot
  split
  · exact inv
  split
  · exact inv
  rename_i checked
  split
  · exact inv
  rw [cText_of_not_mem whole] at checked ⊢
  simp only [Bool.or_eq_true, not_or, Bool.not_eq_true] at checked
  have noUser : ∀ u ∈ h.users, iequals u.sNick sNick = false := by
    intro u mem
    cases hashed : u.hashed with
    | true => exact findUser_none checked.1.2 u mem hashed
    | false => exact waiting u mem hashed
  have free : ∀ r ∈ h.reserved, iequals r.sNick sNick = false := by
    have := checked.2
    rw [← Bool.not_eq_true, check_iff] at this
    push Not at this
    exact fun r mem => Bool.eq_false_iff.mpr (this r mem)
  have new : ∀ script', sNick ∉ h.bots script' := by
    intro script' mem
    have := free _ ((inv.bots sNick).mpr ⟨script', mem⟩)
    rw [iequals_refl] at this
    cases this
  have mem_bots : ∀ script' n, n ∈ Function.update h.bots script (sNick :: h.bots script) script' ↔
      n ∈ h.bots script' ∨ script' = script ∧ n = sNick := by
    intro script' n
    by_cases same : script' = script
    · subst same
      rw [Function.update_self, List.mem_cons]
      tauto
    · rw [Function.update_of_ne same]
      tauto
  refine ⟨apart_add inv.apart, fun n => ?_, fun script' n mem => ?_, fun script' => ?_,
    fun s s' n hs hs' => ?_, fun w => ?_, inv.hubWhole, inv.same, fun u mem r hr => ?_⟩
  · rw [mem_add, inv.bots]
    simp only [mem_bots, ReservedNick.mk.injEq, and_true]
    constructor
    · rintro (⟨script', mem⟩ | ⟨rfl, -⟩)
      · exact ⟨script', .inl mem⟩
      · exact ⟨script, .inr ⟨rfl, rfl⟩⟩
    · rintro ⟨script', mem | ⟨-, rfl⟩⟩
      · exact .inl ⟨script', mem⟩
      · exact .inr ⟨rfl, free⟩
  · rcases (mem_bots script' n).mp mem with mem | ⟨-, rfl⟩
    · exact inv.whole script' n mem
    · exact whole
  · by_cases same : script' = script
    · subst same
      simp only [Function.update_self, List.nodup_cons]
      exact ⟨new script', inv.once script'⟩
    · simp only [Function.update_of_ne same]
      exact inv.once script'
  · rcases (mem_bots s n).mp hs with old | ⟨rfl, rfl⟩
    · rcases (mem_bots s' n).mp hs' with old' | ⟨rfl, rfl⟩
      · exact inv.own s s' n old old'
      · exact absurd old (new s)
    · rcases (mem_bots s' n).mp hs' with old' | ⟨rfl, -⟩
      · exact absurd old' (new s')
      · rfl
  · obtain ⟨r, mem, hub⟩ := inv.hub w
    exact ⟨r, mem_add.mpr (.inl mem), hub⟩
  · rcases mem_add.mp hr with hr | ⟨rfl, -⟩
    · exact inv.users u mem r hr
    · rw [iequals_comm]
      exact noUser u mem

theorem Inv.unregBot (inv : Inv h) (script : Nat) (sNick : Text) :
    Inv (h.unregBot script sNick) := by
  unfold NickHub.unregBot
  split
  · exact inv
  rename_i cur found
  have mem : cur ∈ h.bots script := List.mem_of_find?_eq_some found
  rw [cText_of_not_mem (inv.whole script cur mem)]
  have mem_bots : ∀ script' n,
      n ∈ Function.update h.bots script ((h.bots script).erase cur) script' ↔
        n ∈ h.bots script' ∧ n ≠ cur := by
    intro script' n
    by_cases same : script' = script
    · subst same
      rw [Function.update_self, (inv.once script').mem_erase_iff]
      tauto
    · rw [Function.update_of_ne same]
      refine ⟨fun hn => ⟨hn, ?_⟩, And.left⟩
      rintro rfl
      exact same (inv.own _ _ _ hn mem)
  refine ⟨apart_del inv.apart _ _, fun n => ?_, fun script' n hn => ?_, fun script' => ?_,
    fun s s' n hs hs' => ?_, fun w => ?_, inv.hubWhole, inv.same, fun u hu r hr => ?_⟩
  · rw [mem_del inv.apart, inv.bots]
    simp only [mem_bots, exists_and_right, forall_const, and_true]
  · exact inv.whole script' n ((mem_bots script' n).mp hn).1
  · by_cases same : script' = script
    · subst same
      simp only [Function.update_self]
      exact (inv.once script').erase cur
    · simp only [Function.update_of_ne same]
      exact inv.once script'
  · exact inv.own s s' n ((mem_bots s n).mp hs).1 ((mem_bots s' n).mp hs').1
  · obtain ⟨r, hr, own, hub⟩ := inv.hub w
    refine ⟨r, (mem_del inv.apart).mpr ⟨hr, ?_⟩, own, hub⟩
    rintro ⟨-, taken⟩
    rw [own] at taken
    cases taken rfl
  · exact inv.users u hu r ((mem_del inv.apart).mp hr).1

theorem Inv.scriptStop (inv : Inv h) (script : Nat) : Inv (h.scriptStop script) := by
  have names : (h.bots script).map cText = h.bots script :=
    (List.map_congr_left fun n mem => cText_of_not_mem (inv.whole script n mem)).trans
      (List.map_id _)
  have mem_left : ∀ r, r ∈ (h.scriptStop script).reserved ↔
      r ∈ h.reserved ∧ ¬ (r.sNick ∈ h.bots script ∧ r.fromScript = true) := by
    intro r
    rw [NickHub.scriptStop, mem_dels inv.apart, names]
  have mem_bots : ∀ script' n, n ∈ (h.scriptStop script).bots script' ↔
      n ∈ h.bots script' ∧ script' ≠ script := by
    intro script' n
    by_cases same : script' = script
    · subst same
      simp [NickHub.scriptStop]
    · simp [NickHub.scriptStop, same]
  refine ⟨apart_dels inv.apart _, fun n => ?_, fun script' n hn => ?_, fun script' => ?_,
    fun s s' n hs hs' => ?_, fun w => ?_, inv.hubWhole, inv.same, fun u hu r hr => ?_⟩
  · rw [mem_left, inv.bots]
    simp only [mem_bots, and_true]
    constructor
    · rintro ⟨⟨script', mem⟩, gone⟩
      exact ⟨script', mem, fun same => gone (same ▸ mem)⟩
    · rintro ⟨script', mem, other⟩
      exact ⟨⟨script', mem⟩, fun mem' => other (inv.own script' script n mem mem')⟩
  · exact inv.whole script' n ((mem_bots script' n).mp hn).1
  · by_cases same : script' = script
    · subst same
      simp [NickHub.scriptStop]
    · simpa [NickHub.scriptStop, same] using inv.once script'
  · exact inv.own s s' n ((mem_bots s n).mp hs).1 ((mem_bots s' n).mp hs').1
  · obtain ⟨r, hr, own, hub⟩ := inv.hub w
    refine ⟨r, (mem_left r).mpr ⟨hr, ?_⟩, own, hub⟩
    rintro ⟨-, taken⟩
    rw [own] at taken
    cases taken
  · exact inv.users u hu r ((mem_left r).mp hr).1

theorem other_of_ne {w w' : HubBot} (ne : w' ≠ w) : w' = w.other := by
  cases w <;> cases w' <;> first | rfl | exact absurd rfl ne

/-- The two nicks after one is set. -/
theorem same_update {w : HubBot} {sTxt : Text} :
    iequals (Function.update h.nick w sTxt .bot) (Function.update h.nick w sTxt .opChat) =
      iequals sTxt (h.nick w.other) := by
  cases w with
  | bot => simp [HubBot.other]
  | opChat =>
    rw [iequals_comm]
    simp [HubBot.other]

/-- A nick of the hub is set, and reserved unless `flag` says that the other bot has it too. -/
theorem Inv.named (inv : Inv h) {w : HubBot} {sTxt : Text} (free : h.Free (fun _ => True) sTxt)
    (own : h.botsSameNick = false → h.Own w) {flag botsSameNick : Bool}
    (covered : flag = true → iequals sTxt (h.nick w.other) = true)
    (same : botsSameNick = true → iequals sTxt (h.nick w.other) = true) :
    Inv { h.setNick w sTxt with
      reserved := if flag then (h.setNick w sTxt).reserved
        else addReservedNick (h.setNick w sTxt).reserved sTxt false
      botsSameNick := botsSameNick } := by
  obtain ⟨hubNick, hubMem, hubOwn, hubSame⟩ := inv.hub w
  obtain ⟨otherNick, otherMem, otherOwn, otherSame⟩ := inv.hub w.other
  -- What is left when the old nick of the bot is no longer reserved.
  have left : Apart (h.setNick w sTxt).reserved ∧
      (∀ r ∈ (h.setNick w sTxt).reserved, r ∈ h.reserved) ∧
      (∀ n, ⟨n, true⟩ ∈ h.reserved → ⟨n, true⟩ ∈ (h.setNick w sTxt).reserved) ∧
      otherNick ∈ (h.setNick w sTxt).reserved := by
    unfold setNick
    cases kept : h.botsSameNick with
    | true => exact ⟨inv.apart, fun _ mem => mem, fun _ mem => mem, otherMem⟩
    | false =>
      simp only [Bool.false_eq_true, ↓reduceIte]
      rw [cText_of_not_mem (inv.hubWhole w)]
      refine ⟨apart_del inv.apart _ _, fun r mem => ((mem_del inv.apart).mp mem).1,
        fun n mem => (mem_del inv.apart).mpr ⟨mem, ?_⟩, (mem_del inv.apart).mpr ⟨otherMem, ?_⟩⟩
      · rintro ⟨rfl, -⟩
        have eq := inv.apart.eq hubMem mem hubSame
        rw [eq] at hubOwn
        cases hubOwn
      · rintro ⟨eq, -⟩
        have differ : iequals (h.nick w) (h.nick w.other) = false := own kept
        rw [← eq, otherSame] at differ
        cases differ
  obtain ⟨apart, sub, scripts, other⟩ := left
  have mem_iff : ∀ r, r ∈ (if flag then (h.setNick w sTxt).reserved
      else addReservedNick (h.setNick w sTxt).reserved sTxt false) →
      r ∈ h.reserved ∨ r = ⟨sTxt, false⟩ := by
    intro r mem
    split at mem
    · exact .inl (sub r mem)
    · exact (mem_add.mp mem).imp (sub r) And.left
  have mem_of : ∀ r ∈ (h.setNick w sTxt).reserved, r ∈ (if flag then (h.setNick w sTxt).reserved
      else addReservedNick (h.setNick w sTxt).reserved sTxt false) := by
    intro r mem
    split
    · exact mem
    · exact mem_add.mpr (.inl mem)
  refine ⟨?_, fun n => ?_, inv.whole, inv.once, inv.own, fun w' => ?_, fun w' => ?_,
    fun on => same_update.trans (same on), fun u hu r hr => ?_⟩
  · simp only
    split
    · exact apart
    · exact apart_add apart
  · constructor
    · intro mem
      rcases mem_iff _ mem with mem | eq
      · exact (inv.bots n).mp mem
      · cases eq
    · exact fun mem => mem_of _ (scripts n ((inv.bots n).mpr mem))
  · by_cases this : w' = w
    · subst this
      simp only [setNick, Function.update_self]
      cases flag with
      | true =>
        refine ⟨otherNick, mem_of _ other, otherOwn, ?_⟩
        exact iequals_trans otherSame (iequals_comm.trans (covered rfl))
      | false =>
        by_cases taken : ∃ r ∈ (h.setNick w' sTxt).reserved, iequals r.sNick sTxt = true
        · obtain ⟨r, mem, eq⟩ := taken
          refine ⟨r, mem_of r mem, ?_, eq⟩
          -- A bot of a script does not have the nick.
          cases script : r.fromScript with
          | false => rfl
          | true =>
            obtain ⟨s, bot⟩ := (inv.bots r.sNick).mp (script ▸ sub r mem)
            rw [free.bots s _ bot] at eq
            cases eq
        · push Not at taken
          exact ⟨⟨sTxt, false⟩, mem_add.mpr (.inr ⟨rfl, fun r mem =>
            Bool.eq_false_iff.mpr (taken r mem)⟩), rfl, iequals_refl _⟩
    · obtain rfl := other_of_ne this
      simp only [setNick, Function.update_of_ne this]
      exact ⟨otherNick, mem_of _ other, otherOwn, otherSame⟩
  · by_cases this : w' = w
    · subst this
      simp only [setNick, Function.update_self]
      exact free.whole
    · simp only [setNick, Function.update_of_ne this]
      exact inv.hubWhole w'
  · rcases mem_iff r hr with mem | rfl
    · exact inv.users u hu r mem
    · rw [iequals_comm]
      exact free.users u hu trivial

theorem Inv.setText (inv : Inv h) {w : HubBot} {sTxt : Text}
    (clear : h.nick w = sTxt ∨ h.Free (fun _ => True) sTxt ∧ (h.botsSameNick = false → h.Own w)) :
    Inv (h.setText false w sTxt) := by
  unfold NickHub.setText
  split
  · exact inv
  rename_i changed
  simp only [Bool.or_eq_true, decide_eq_true_eq, not_or] at changed
  obtain ⟨free, own⟩ := clear.resolve_left changed.1
  have nick : cText ((h.setNick w sTxt).updateBotsSameNick.nick w) = sTxt := by
    simp only [NickHub.updateBotsSameNick, setNick, Function.update_self]
    exact cText_of_not_mem free.whole
  simp only [reserveNick, nick, Bool.false_eq_true, ↓reduceIte]
  have covered : (h.setNick w sTxt).updateBotsSameNick.botsSameNick = true →
      iequals sTxt (h.nick w.other) = true := fun on =>
    same_update.symm.trans (Bool.and_eq_true_iff.mp on).2
  exact inv.named free own covered covered

theorem Inv.setBool (inv : Inv h) (w : HubBot) (bValue : Bool) :
    Inv (h.setBool false w bValue) := by
  unfold NickHub.setBool
  split
  · exact inv
  · exact (inv.withReg _).updateBotsSameNick

theorem setBool_locked (h : NickHub) (w : HubBot) (bValue : Bool) :
    ∃ reg, h.setBool true w bValue = { h with reg := reg } := by
  unfold NickHub.setBool
  split
  · exact ⟨h.reg, rfl⟩
  · exact ⟨_, rfl⟩

theorem Inv.setHubBot (inv : Inv h) {w : HubBot} {bEnable : Bool} {sNick : Text}
    (clear : h.Clear (.setHubBot w bEnable sNick)) : Inv (h.setHubBot w bEnable sNick) := by
  unfold NickHub.setHubBot
  split
  · exact inv
  rename_i checked
  simp only [Bool.or_eq_true, not_or, Bool.not_eq_true] at checked
  have whole : cText sNick = sNick := by
    refine cText_of_not_mem ?_
    rcases clear with eq | ⟨free, -⟩
    · exact eq ▸ inv.hubWhole w
    · exact free.whole
  simp only [whole]
  refine Inv.updateBotsSameNick ?_
  obtain ⟨reg, eq⟩ := setBool_locked h w bEnable
  rw [eq]
  split
  · rename_i changed
    rcases clear with same | ⟨free, shared⟩
    · exact absurd same changed
    have free : h.Free (fun _ => True) sNick := by
      refine ⟨free.whole, fun u mem _ => ?_, free.bots⟩
      cases hashed : u.hashed with
      | true => exact findUser_none checked.2 u mem hashed
      | false => exact free.users u mem hashed
    have own : h.botsSameNick = false → h.Own w := by
      intro off
      simpa only [off, Bool.false_eq_true, ↓reduceIte] using shared
    have covered : h.botsSameNick = true → iequals sNick (h.nick w.other) = true := by
      intro on
      simpa only [on, ↓reduceIte] using shared
    unfold NickHub.setText
    split
    · exact inv.withReg reg
    · have nick : cText (({ h with reg := reg } : NickHub).setNick w sNick |>.nick w) = sNick := by
        simp only [setNick, Function.update_self]
        exact whole
      simp only [reserveNick, nick, ↓reduceIte]
      exact (inv.named free own covered covered).withReg reg
  · exact inv.withReg reg

theorem Inv.step (inv : Inv h) {e : NickEvent} (clear : h.Clear e) : Inv (h.step e) := by
  cases e with
  | validateNick id sNick registered dead => exact inv.validateNick id sNick registered dead
  | myPass id => exact inv.myPass id
  | close id => exact inv.close id
  | regBot script sNick => exact inv.regBot clear.1 clear.2
  | unregBot script sNick => exact inv.unregBot script sNick
  | scriptStop script => exact inv.scriptStop script
  | setText w sTxt => exact inv.setText clear
  | setBool w bValue => exact inv.setBool w bValue
  | setHubBot w bEnable sNick => exact inv.setHubBot clear

/-! ## Runs -/

theorem adds_spec (nicks : List Text) (reserved : List ReservedNick) (apart : Apart reserved)
    (own : ∀ r ∈ reserved, r.fromScript = false) :
    let reserved' := nicks.foldl (fun rs sNick => addReservedNick rs (cText sNick) false) reserved
    Apart reserved' ∧ (∀ r ∈ reserved', r.fromScript = false) ∧ (∀ r ∈ reserved, r ∈ reserved') ∧
      ∀ sNick ∈ nicks, ∃ r ∈ reserved', iequals r.sNick (cText sNick) = true := by
  induction nicks generalizing reserved with
  | nil => exact ⟨apart, own, fun _ mem => mem, by simp⟩
  | cons sNick nicks ih =>
    have own' : ∀ r ∈ addReservedNick reserved (cText sNick) false, r.fromScript = false := by
      intro r mem
      rcases mem_add.mp mem with mem | ⟨rfl, -⟩
      · exact own r mem
      · rfl
    obtain ⟨apart', owns, grows, all⟩ :=
      ih (addReservedNick reserved (cText sNick) false) (apart_add apart) own'
    refine ⟨apart', owns, fun r mem => grows r (mem_add.mpr (.inl mem)), ?_⟩
    rw [List.forall_mem_cons]
    refine ⟨?_, all⟩
    by_cases taken : ∃ r ∈ reserved, iequals r.sNick (cText sNick) = true
    · obtain ⟨r, mem, same⟩ := taken
      exact ⟨r, grows r (mem_add.mpr (.inl mem)), same⟩
    · push Not at taken
      exact ⟨⟨cText sNick, false⟩, grows _ (mem_add.mpr (.inr ⟨rfl, fun r mem =>
        Bool.eq_false_iff.mpr (taken r mem)⟩)), iequals_refl _⟩

theorem inv_start {file : List Text} {nick : HubBot → Text} {reg : HubBot → Bool}
    {adminNick : Text} (whole : ∀ w, 0 ∉ nick w) : Inv (start file nick reg adminNick) := by
  obtain ⟨apart, own, -, all⟩ := adds_spec (file ++ [nick .bot, nick .opChat, adminNick]) []
    List.Pairwise.nil (by simp)
  refine Inv.updateBotsSameNick ⟨apart, fun n => ⟨fun mem => ?_, ?_⟩, ?_, ?_, ?_, fun w => ?_,
    whole, ?_, ?_⟩
  · cases own _ mem
  · rintro ⟨_, mem⟩
    cases mem
  · exact fun _ _ mem => absurd mem List.not_mem_nil
  · exact fun _ => List.nodup_nil
  · exact fun _ _ _ mem => absurd mem List.not_mem_nil
  · obtain ⟨r, mem, same⟩ := all (nick w) (by cases w <;> simp)
    rw [cText_of_not_mem (whole w)] at same
    exact ⟨r, mem, own r mem, same⟩
  · exact fun on => absurd on Bool.false_ne_true
  · exact fun _ mem => absurd mem List.not_mem_nil

/-- A hub with two bots, a user, and a script that registers a bot. -/
def hubNicks : HubBot → Text
  | .bot => ascii "PtokaX"
  | .opChat => ascii "OpChat"

def annAndHelper : List NickEvent :=
  [.validateNick 1 (ascii "ann") false false, .regBot 0 (ascii "helper"),
    .validateNick 2 (ascii "Helper") false false]

def twoBots : NickHub := start [] hubNicks (fun _ => true) (ascii "Admin")

theorem allowed_annAndHelper : Allowed step Clear twoBots annAndHelper :=
  ⟨trivial, ⟨by decide, by decide⟩, trivial, trivial⟩

theorem setHubBot_shared {w : HubBot} {sNick : Text} (shared : h.botsSameNick = true)
    (accepted : botNick sNick = true) (whole : 0 ∉ sNick) (changed : h.nick w ≠ sNick)
    (noUser : h.findUser sNick = none) (bEnable : Bool) :
    (h.setHubBot w bEnable sNick).reserved = h.reserved ∧
      (h.setHubBot w bEnable sNick).users = h.users ∧
      (h.setHubBot w bEnable sNick).nick = Function.update h.nick w sNick := by
  obtain ⟨reg, eq⟩ := setBool_locked h w bEnable
  unfold setHubBot
  rw [eq]
  simp [accepted, noUser, cText_of_not_mem whole, changed, updateBotsSameNick, setText, reserveNick,
    setNick, shared]

/-- Where the hub has one nick for both bots, a nick that a script sets for one of them is not
reserved: the next user who asks for it gets it. -/
theorem hub_nick_taken {w : HubBot} {sNick : Text} (shared : h.botsSameNick = true)
    (accepted : botNick sNick = true) (printed : sNick.all (32 ≤ ·) = true)
    (changed : h.nick w ≠ sNick)
    (free : ∀ r ∈ h.reserved, iequals r.sNick sNick = false)
    (noUser : h.findUser sNick = none) {id : Nat} (new : h.users.any (·.id = id) = false)
    (bEnable registered dead : Bool) :
    let h' := (h.setHubBot w bEnable sNick).validateNick id sNick registered dead
    h'.nick w = sNick ∧ ⟨id, sNick, true⟩ ∈ h'.users := by
  have whole : 0 ∉ sNick := fun mem => absurd (List.all_eq_true.mp printed 0 mem) (by decide)
  obtain ⟨reserved, users, nick⟩ := setHubBot_shared shared accepted whole changed noUser bEnable
  have legal : legalNick sNick = true := (Bool.and_eq_true_iff.mp accepted).2
  have unreserved : checkReserved h.reserved sNick (hashNick sNick) = false := by
    rw [← Bool.not_eq_true, check_iff]
    push Not
    exact fun r mem => Bool.eq_false_iff.mp (free r mem)
  have noUser' : (h.setHubBot w bEnable sNick).findUser sNick = none := by
    rw [findUser, users]
    exact noUser
  simp only [validateNick, users, new, legal, printed, reserved, unreserved, noUser', Bool.and_self,
    Bool.not_true, Bool.false_eq_true, ↓reduceIte, nick, Function.update_self, List.mem_cons_self,
    and_self]

/-- A hub with one nick for both bots. -/
def oneNick : NickHub := start [] (fun _ => ascii "PtokaX") (fun _ => true) (ascii "Admin")

theorem hub_nick_taken_oneNick :
    ⟨7, ascii "Opers", true⟩ ∈
      ((oneNick.setHubBot .opChat true (ascii "Opers")).validateNick 7 (ascii "Opers") false
        false).users :=
  (hub_nick_taken (by decide) (by decide) (by decide) (by decide) (by decide) (by decide)
    (by decide) true false false).2

end NickHub

end FlyHub.Scripts
