import FlyHub.Session.Loop

/-!
# What the small operations change

Every command is made of a few operations on the hub. For each of them this
module says which parts of the hub it leaves alone and what it does to the rest.
-/

namespace FlyHub.Session

open FlyHub.Broadcast FlyHub.Ban FlyHub.Lists

namespace Hub

section
variable {cfg : Config} {h : Hub} {c d : UserId} {f g : User → User} {msg : Msg}

/-! ## A change of one record -/

@[simp] theorem modify_self : (h.modify c f).users c = f (h.users c) := by simp [modify]

theorem modify_ne (ne : d ≠ c) : (h.modify c f).users d = h.users d := by
  simp [modify, Function.update_of_ne ne]

theorem modify_users : (h.modify c f).users d = if d = c then f (h.users c) else h.users d := by
  simp [modify, Function.update_apply]

@[simp] theorem modify_modify : (h.modify c f).modify c g = h.modify c (g ∘ f) := by
  simp [modify]

@[simp] theorem modify_id : h.modify c id = h := by simp [modify]

@[simp] theorem modify_userList : (h.modify c f).userList = h.userList := rfl
@[simp] theorem modify_nextUser : (h.modify c f).nextUser = h.nextUser := rfl
@[simp] theorem modify_hash : (h.modify c f).hash = h.hash := rfl
@[simp] theorem modify_findUser : (h.modify c f).findUser = h.findUser := rfl
@[simp] theorem modify_regs : (h.modify c f).regs = h.regs := rfl
@[simp] theorem modify_findReg : (h.modify c f).findReg = h.findReg := rfl
@[simp] theorem modify_bans : (h.modify c f).bans = h.bans := rfl
@[simp] theorem modify_nickList : (h.modify c f).nickList = h.nickList := rfl
@[simp] theorem modify_myInfos : (h.modify c f).myInfos = h.myInfos := rfl
@[simp] theorem modify_myInfosTag : (h.modify c f).myInfosTag = h.myInfosTag := rfl
@[simp] theorem modify_queue : (h.modify c f).queue = h.queue := rfl
@[simp] theorem modify_clock : (h.modify c f).clock = h.clock := rfl

@[simp] theorem setBans_users {bans : BanManager} : (h.setBans bans).users = h.users := rfl
@[simp] theorem setBans_findReg {bans : BanManager} : (h.setBans bans).findReg = h.findReg := rfl

/-! ## A message -/

@[simp] theorem put_pastLogin {u : User} (past : u.state.isPastLogin) : u.put msg = u := by
  simp [User.put, past]

theorem sendAll_eq (msgs : List Msg) :
    h.sendAll c msgs = h.modify c fun u => msgs.foldl User.put u := by
  induction msgs generalizing h with
  | nil => simp [sendAll, modify]
  | cons msg msgs ih =>
    have rest := ih (h := h.send c msg)
    simp only [sendAll, List.foldl_cons] at rest ⊢
    rw [rest, send, modify_modify]
    rfl

/-! ## The closing of a user -/

/-- The record of a user that has just been closed. -/
def closedUser (u : User) : User :=
  { u with
    isJsonUser := false
    cmdList := []
    state := if !u.pending || u.error then .remMe else .closing }

theorem unhash_eq : h.unhash c =
    { h with hash := if (h.users c).hashed then
        h.hash.remove c (h.users c).sNick (h.users c).ipHash else h.hash } := by
  unfold unhash hashRemove
  split <;> simp [*]

theorem unlist_eq (old : UserState) (bNoQuit : Bool) : h.unlist c old bNoQuit =
    { h with
      nickList := if UserState.addMe2Loop.toNat ≤ old.toNat then
        delFromNickList h.nickList (h.users c).sNick else h.nickList
      queue := if UserState.addMe2Loop.toNat ≤ old.toNat ∧ bNoQuit = false then
        h.queue.addQueueItem ⟨.quit, [.quit (h.users c).sNick], []⟩ else h.queue } := by
  unfold unlist
  cases bNoQuit <;> by_cases listed : UserState.addMe2Loop.toNat ≤ old.toNat <;>
    simp [listed, addQueueItem]

/-- What is left of a list of MyINFOs when one of them goes. -/
def without (keeps : Bool) (info : Option MyInfo) (infos : List MyInfo) : List MyInfo :=
  match info with
  | some i => if keeps then infos.erase i else infos
  | none => infos

theorem forgetLong_eq : h.forgetLong cfg c =
    { h with myInfosTag := without cfg.keepsLong (h.users c).myInfoLong h.myInfosTag } := by
  unfold forgetLong without delFromMyInfosTag
  cases (h.users c).myInfoLong <;> cases cfg.keepsLong <;> rfl

theorem forgetShort_eq : h.forgetShort cfg c =
    { h with myInfos := without cfg.keepsShort (h.users c).myInfoShort h.myInfos } := by
  unfold forgetShort without delFromMyInfos
  cases (h.users c).myInfoShort <;> cases cfg.keepsShort <;> rfl

theorem closeWith_eq (live : (h.users c).state.isPastLogin = false) (bNoQuit : Bool) :
    h.closeWith cfg c bNoQuit =
      { h with
        users := Function.update h.users c (closedUser (h.users c))
        hash := if (h.users c).hashed then
          h.hash.remove c (h.users c).sNick (h.users c).ipHash else h.hash
        nickList := if UserState.addMe2Loop.toNat ≤ (h.users c).state.toNat then
          delFromNickList h.nickList (h.users c).sNick else h.nickList
        queue := if UserState.addMe2Loop.toNat ≤ (h.users c).state.toNat ∧ bNoQuit = false then
          h.queue.addQueueItem ⟨.quit, [.quit (h.users c).sNick], []⟩ else h.queue
        myInfosTag := without cfg.keepsLong (h.users c).myInfoLong h.myInfosTag
        myInfos := without cfg.keepsShort (h.users c).myInfoShort h.myInfos } := by
  unfold closeWith
  simp only [live, Bool.false_eq_true, if_false, unhash_eq, unlist_eq, forgetLong_eq,
    forgetShort_eq, modify_modify]
  unfold endClose closedUser
  by_cases gone : !(h.users c).pending || (h.users c).error <;>
    simp [modify, gone]

theorem closeWith_pastLogin (past : (h.users c).state.isPastLogin = true) (bNoQuit : Bool) :
    h.closeWith cfg c bNoQuit = h.modify c fun u => { u with isJsonUser := false } := by
  simp [closeWith, past]

theorem closeWith_bans (bNoQuit : Bool) : (h.closeWith cfg c bNoQuit).bans = h.bans := by
  cases past : (h.users c).state.isPastLogin with
  | true => rw [closeWith_pastLogin past]; rfl
  | false => rw [closeWith_eq past]

theorem closeWith_past (bNoQuit : Bool) (d : UserId) :
    ((h.closeWith cfg d bNoQuit).users d).state.isPastLogin = true := by
  cases past : (h.users d).state.isPastLogin with
  | true => simp [closeWith_pastLogin past, past]
  | false =>
    rw [closeWith_eq past]
    simp only [Function.update_self, closedUser]
    split <;> rfl

theorem closeWith_users (bNoQuit : Bool) {d : UserId} (other : d ≠ c) :
    (h.closeWith cfg c bNoQuit).users d = h.users d := by
  cases past : (h.users c).state.isPastLogin with
  | true => rw [closeWith_pastLogin past, modify_ne other]
  | false => simp [closeWith_eq past, Function.update_of_ne other]

end

end Hub

end FlyHub.Session
