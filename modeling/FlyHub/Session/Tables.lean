import FlyHub.Session.Machine

/-!
# The tables of the hub

Most moves change the record of one user and leave the index of users, the
registrations, the bans and the clock alone.
-/

namespace FlyHub.Session

open FlyHub.Broadcast FlyHub.Ban FlyHub.Lists

namespace Hub

/-- `y` has the tables of `x`. -/
structure SameTables (x y : Hub) : Prop where
  hash : y.hash = x.hash
  nextUser : y.nextUser = x.nextUser
  regs : y.regs = x.regs
  bans : y.bans = x.bans
  clock : y.clock = x.clock

theorem SameTables.trans {x y z : Hub} (first : SameTables x y) (second : SameTables y z) :
    SameTables x z where
  hash := second.hash.trans first.hash
  nextUser := second.nextUser.trans first.nextUser
  regs := second.regs.trans first.regs
  bans := second.bans.trans first.bans
  clock := second.clock.trans first.clock

section
variable {cfg : Config} {h₀ x y : Hub} {a : Action} {c : UserId}

theorem same_modify (c : UserId) (f : User → User) : SameTables x (x.modify c f) :=
  ⟨rfl, rfl, rfl, rfl, rfl⟩

theorem same_send (msg : Msg) : SameTables x (x.send c msg) := same_modify c _

theorem same_sendAll (msgs : List Msg) : SameTables x (x.sendAll c msgs) := by
  rw [sendAll_eq]
  exact same_modify c _

theorem same_addQueueItem (eCmdType : Cmd) (command0 command1 : List Msg) :
    SameTables x (x.addQueueItem eCmdType command0 command1) := ⟨rfl, rfl, rfl, rfl, rfl⟩

theorem same_generateMyInfoLong : SameTables x (x.generateMyInfoLong cfg c).1 := by
  unfold generateMyInfoLong
  dsimp only
  rw [forgetLong_eq]
  split <;> exact ⟨rfl, rfl, rfl, rfl, rfl⟩

theorem same_generateMyInfoShort : SameTables x (x.generateMyInfoShort cfg c).1 := by
  unfold generateMyInfoShort
  dsimp only
  rw [forgetShort_eq]
  split <;> exact ⟨rfl, rfl, rfl, rfl, rfl⟩

theorem same_add2MyInfosTag : SameTables x (x.add2MyInfosTag c) := ⟨rfl, rfl, rfl, rfl, rfl⟩

theorem same_add2MyInfos : SameTables x (x.add2MyInfos c) := ⟨rfl, rfl, rfl, rfl, rfl⟩

theorem same_addLong : SameTables x ((x.generateMyInfoLong cfg c).1.add2MyInfosTag c) :=
  same_generateMyInfoLong.trans same_add2MyInfosTag

theorem same_addShort : SameTables x ((x.generateMyInfoShort cfg c).1.add2MyInfos c) :=
  same_generateMyInfoShort.trans same_add2MyInfos

theorem same_add2Userlist : SameTables x (x.add2Userlist cfg c) := by
  unfold add2Userlist
  have listed : SameTables x
      { x with nickList := add2NickList x.nickList (x.users c).sNick } := ⟨rfl, rfl, rfl, rfl, rfl⟩
  dsimp only
  split
  · exact listed.trans same_addLong
  · exact (listed.trans same_addLong).trans same_addShort
  · exact listed.trans same_addShort

theorem same_announce : SameTables x (x.announce cfg c) := by
  unfold announce
  dsimp only
  split <;> exact (same_addQueueItem ..).trans (same_addQueueItem ..)

theorem same_enlist : SameTables x (x.enlist cfg c) :=
  (same_add2Userlist.trans (same_modify c _)).trans same_announce

theorem same_refreshMyInfo (due : Bool) : SameTables x (x.refreshMyInfo cfg c due) := by
  unfold refreshMyInfo
  dsimp only
  split
  · split
    · exact same_generateMyInfoLong
    · exact same_addLong.trans (same_addQueueItem ..)
  · split
    · exact same_generateMyInfoLong
    · split
      · exact (same_addLong.trans same_generateMyInfoShort).trans (same_addQueueItem ..)
      · exact (same_addLong.trans same_addShort).trans (same_addQueueItem ..)
  · split
    · exact same_generateMyInfoShort
    · exact same_addShort.trans (same_addQueueItem ..)

theorem same_refresh (due : Bool) : SameTables x (x.refresh cfg c due) :=
  (same_modify c _).trans (same_refreshMyInfo due)

theorem same_processCmds (cmds : List PrcsdUsrCmd) :
    SameTables x (cmds.foldl (fun h cmd => h.processCmd c cmd) x) := by
  induction cmds generalizing x with
  | nil => exact ⟨rfl, rfl, rfl, rfl, rfl⟩
  | cons cmd cmds ih =>
    have one : SameTables x (x.processCmd c cmd) := by
      cases cmd <;> exact same_send _
    exact one.trans ih

theorem same_flush : SameTables x (x.flush c) := (same_modify c _).trans (same_processCmds _)

/-- A close only takes from the table of nicks. -/
theorem closeWith_table {bNoQuit : Bool} {nick : Text} {d : UserId}
    (found : (x.closeWith cfg c bNoQuit).findUser nick = some d) : x.findUser nick = some d := by
  cases past : (x.users c).state.isPastLogin with
  | true => simpa [closeWith_pastLogin past] using found
  | false =>
    simp only [closeWith_eq past, findUser, HashManager.findUser] at found
    split at found
    · rw [HashManager.remove_nickTable, Function.update_apply] at found
      split at found
      · exact absurd found (by simp)
      · exact found
    · exact found

theorem same_modifyOnline (sNick : Text) (f : User → User) :
    SameTables x (x.modifyOnline sNick f) := by
  unfold modifyOnline
  split
  · exact same_modify _ f
  · exact ⟨rfl, rfl, rfl, rfl, rfl⟩

theorem RegChange.hash (change : RegChange cfg h₀ a x y) : y.hash = x.hash := by
  cases change with
  | add r | change r | delete r => exact (same_modifyOnline r.sNick _).hash
  | self => rfl

theorem RegChange.nextUser (change : RegChange cfg h₀ a x y) : y.nextUser = x.nextUser := by
  cases change with
  | add r | change r | delete r => exact (same_modifyOnline r.sNick _).nextUser
  | self => rfl

theorem same_tellKeyLost : SameTables x (x.tellKeyLost cfg c) := by
  unfold tellKeyLost
  dsimp only
  split <;> exact (same_addQueueItem ..).trans (same_addQueueItem ..)

/-! ## The nicks of the index -/

/-- Connections that do not exist yet have no login, the index leads to hashed
users, and a user is hashed when its nick has been settled. -/
structure WellFormed (h : Hub) : Prop where
  unborn : ∀ c, h.nextUser ≤ c → (h.users c).state.isPastLogin = true ∧ (h.users c).hashed = false
  table : ∀ nick c, h.findUser nick = some c → (h.users c).hashed = true
  settled : ∀ c, (h.users c).login.Settled

/-- The one who has just been hashed is found, the others as before. -/
theorem hashAdd_table {nick : Text} {d : UserId} (found : (x.hashAdd c).findUser nick = some d) :
    x.findUser nick = some d ∨ d = c := by
  simp only [hashAdd, findUser, HashManager.findUser, HashManager.add, Function.update_apply] at found
  split at found
  · exact .inr (Option.some.inj found).symm
  · exact .inl found

theorem takeNick_table {nick : Text} {d : UserId}
    (found : (x.takeNick cfg c).findUser nick = some d) :
    x.findUser nick = some d ∨ ((x.takeNick cfg c).users d).hashed = true := by
  unfold takeNick at found ⊢
  split
  · rename_i hashed
    rw [if_pos hashed] at found
    exact .inl found
  · rename_i new
    rw [if_neg new] at found
    dsimp only at found ⊢
    cases hashAdd_table found with
    | inl old =>
      cases holder : x.findUser (x.users c).sNick with
      | none =>
        rw [holder] at old
        exact .inl old
      | some other =>
        rw [holder] at old
        exact .inl (closeWith_table old)
    | inr new =>
      rw [new, modify_self]
      exact .inr rfl

/-- An entry of the index is old or that of a user hashed just now. -/
theorem Move.table (move : Move cfg h₀ a x y) {nick : Text} {d : UserId}
    (found : y.findUser nick = some d) :
    x.findUser nick = some d ∨ (y.users d).hashed = true := by
  have kept (same : SameTables x y) : x.findUser nick = some d := by
    unfold findUser at found ⊢
    rw [← same.hash]
    exact found
  cases move with
  | opChat c msgs | pingerLists c msgs | roundSend c msgs => exact .inl (kept (same_sendAll msgs))
  | flush c => exact .inl (kept same_flush)
  | shut c f msgs =>
    have before := closeWith_table found
    unfold findUser at before
    rw [(same_sendAll msgs).hash] at before
    exact .inl before
  | enterFree c =>
    cases hashAdd_table (x := x.dropBan c) found with
    | inl old => exact .inl old
    | inr new => simp [new, enterFree_users]
  | enterReg c =>
    cases hashAdd_table (x := x.dropBan c) found with
    | inl old => exact .inl old
    | inr new => simp [new, enterReg_users]
  | pass c => exact takeNick_table found
  | deadSocket c other =>
    have before := closeWith_table (x := (x.dropBan c).modify other _) found
    exact .inl before
  | reg change =>
    unfold findUser at found
    rw [change.hash] at found
    exact .inl found
  | keyLost c => exact .inl (kept same_tellKeyLost)
  | enlist c => exact .inl (kept same_enlist)
  | refresh c due => exact .inl (kept (same_refresh due))
  | _ => exact .inl found

/-- Only the acceptance of a connection makes a new one. -/
theorem Move.born (move : Move cfg h₀ a x y) :
    y.nextUser = x.nextUser ∨ y.nextUser = x.nextUser + 1 := by
  have close (z : Hub) (c : UserId) (bNoQuit : Bool) :
      (z.closeWith cfg c bNoQuit).nextUser = z.nextUser := by
    cases past : (z.users c).state.isPastLogin with
    | true => rw [closeWith_pastLogin past]; rfl
    | false => rw [closeWith_eq past]
  have took (z : Hub) (c : UserId) : (z.takeNick cfg c).nextUser = z.nextUser := by
    unfold takeNick
    split
    · rfl
    · cases holder : z.findUser (z.users c).sNick with
      | none => rfl
      | some other => exact close z other _
  cases move with
  | opChat c msgs | pingerLists c msgs | roundSend c msgs => exact .inl (same_sendAll msgs).nextUser
  | flush c => exact .inl same_flush.nextUser
  | shut c f msgs => exact .inl ((close _ c false).trans (same_sendAll msgs).nextUser)
  | deadSocket c other => exact .inl (close _ other false)
  | pass c => exact .inl (took _ c)
  | reg change => exact .inl change.nextUser
  | keyLost c => exact .inl same_tellKeyLost.nextUser
  | enlist c => exact .inl same_enlist.nextUser
  | refresh c due => exact .inl (same_refresh due).nextUser
  | accept u => exact .inr rfl
  | _ => exact .inl rfl

theorem Move.wellFormed (move : Move cfg h₀ a x y) (wf : WellFormed x) : WellFormed y where
  unborn := by
    intro d after
    have known : x.nextUser ≤ d ∧ Old x y d := by
      cases move.born with
      | inl same =>
        rw [same] at after
        exact ⟨after, fun _ => same⟩
      | inr grown =>
        rw [grown] at after
        exact ⟨Nat.le_of_succ_le after, fun eq => absurd eq (Nat.ne_of_gt after)⟩
    have before := wf.unborn d known.1
    have step := (move.login d).past before.1 known.2
    exact ⟨step.1, step.2.trans before.2⟩
  table := by
    intro nick d found
    cases move.table found with
    | inl old =>
      have hashed := wf.table nick d old
      have born : d ≠ x.nextUser := by
        intro eq
        have unborn := (wf.unborn d (Nat.le_of_eq eq.symm)).2
        exact absurd hashed (by simp [unborn])
      exact (move.login d).hashed hashed fun eq => absurd eq born
    | inr new => exact new
  settled := fun c => (move.login c).settled (wf.settled c)

end

end Hub

end FlyHub.Session
