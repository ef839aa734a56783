import FlyHub.Session.Frame
import FlyHub.Session.Refine

/-!
# What the commands leave aside

Few commands do anything about the bad passwords the hub has counted, or about the text it
keeps for a user: the name of a profile, or the reason of a kick.
-/

namespace FlyHub.Session

open FlyHub.Ban FlyHub.Broadcast FlyHub.Lists FlyHub.Lib

namespace Hub

/-- The texts kept for the users. -/
def texts (h : Hub) : UserId → Option Text := fun d => (h.users d).buffer

/-- The counts of bad passwords and the texts. -/
def aside (h : Hub) : List PassBf × (UserId → Option Text) := ⟨h.passwdBfCheck, h.texts⟩

section
variable {cfg : Config} {h : Hub} {c : UserId}

@[simp] theorem modify_aside {f : User → User} (same : ∀ u, (f u).buffer = u.buffer) :
    (h.modify c f).aside = h.aside := by
  refine Prod.ext rfl (funext fun d => ?_)
  show ((h.modify c f).users d).buffer = (h.users d).buffer
  rw [modify_users]
  split
  · rename_i eq
    rw [same, eq]
  · rfl

theorem put_buffer (u : User) (msg : Msg) : (u.put msg).buffer = u.buffer := by
  unfold User.put
  split <;> rfl

@[simp] theorem send_aside (msg : Msg) : (h.send c msg).aside = h.aside :=
  modify_aside fun u => put_buffer u msg

@[simp] theorem sendAll_aside (msgs : List Msg) : (h.sendAll c msgs).aside = h.aside := by
  induction msgs generalizing h with
  | nil => rfl
  | cons msg msgs ih => exact (ih (h := h.send c msg)).trans (send_aside msg)

@[simp] theorem setReg_aside (r : RegUser) : (h.setReg r).aside = h.aside := rfl

@[simp] theorem remReg_aside (r : RegUser) : (h.remReg r).aside = h.aside := rfl

@[simp] theorem setBans_aside (bans : BanManager) : (h.setBans bans).aside = h.aside := rfl

@[simp] theorem setQueue_aside (queue : GlobalDataQueue Msg (List Msg)) :
    (h.setQueue queue).aside = h.aside := rfl

@[simp] theorem addQueueItem_aside (eCmdType : Cmd) (command0 command1 : List Msg) :
    (h.addQueueItem eCmdType command0 command1).aside = h.aside := rfl

@[simp] theorem add2MyInfosTag_aside : (h.add2MyInfosTag c).aside = h.aside := rfl

@[simp] theorem add2MyInfos_aside : (h.add2MyInfos c).aside = h.aside := rfl

@[simp] theorem forgetLong_aside : (h.forgetLong cfg c).aside = h.aside := by
  rw [forgetLong_eq]
  rfl

@[simp] theorem forgetShort_aside : (h.forgetShort cfg c).aside = h.aside := by
  rw [forgetShort_eq]
  rfl

@[simp] theorem remUser_aside : (h.remUser c).aside = h.aside := rfl

@[simp] theorem hashAdd_aside : (h.hashAdd c).aside = h.aside := rfl

@[simp] theorem addPrcsdCmd_aside (cmd : PrcsdUsrCmd) : (h.addPrcsdCmd c cmd).aside = h.aside :=
  modify_aside fun _ => rfl

@[simp] theorem closeWith_aside (bNoQuit : Bool) :
    (h.closeWith cfg c bNoQuit).aside = h.aside := by
  cases past : (h.users c).state.isPastLogin with
  | true =>
    rw [closeWith_pastLogin past]
    exact modify_aside fun _ => rfl
  | false =>
    rw [closeWith_eq past]
    exact modify_aside (f := closedUser) fun u => rfl

@[simp] theorem close_aside : (h.close cfg c).aside = h.aside := closeWith_aside false

@[simp] theorem fail_aside : (h.fail cfg c).aside = h.aside :=
  close_aside.trans (modify_aside fun _ => rfl)

@[simp] theorem refuse_aside (msg : Msg) : (h.refuse cfg c msg).aside = h.aside :=
  close_aside.trans (send_aside msg)

@[simp] theorem try2Send_aside (result : SendResult) :
    (h.try2Send cfg c result).aside = h.aside := by
  unfold try2Send
  split
  · rfl
  · cases result <;> simp

@[simp] theorem addMeOrIPv4Check_aside :
    (h.addMeOrIPv4Check cfg c).aside = h.aside := by
  unfold addMeOrIPv4Check
  simp only
  split <;> simp

@[simp] theorem supportToken_aside (token : Text) :
    (h.supportToken cfg c token).1.aside = h.aside := by
  unfold supportToken
  repeat' split
  all_goals simp

@[simp] theorem supportLoop_aside (tokens : List Text) (h : Hub) :
    (supportLoop cfg c tokens h).aside = h.aside := by
  induction tokens generalizing h with
  | nil =>
    unfold supportLoop
    simp
  | cons token tokens ih =>
    unfold supportLoop
    simp only
    split
    · rw [ih, supportToken_aside]
    · exact supportToken_aside token

@[simp] theorem supports_aside (cmd : Text) :
    (h.supports cfg c cmd).aside = h.aside := by
  unfold supports
  simp only
  repeat' split
  all_goals simp

@[simp] theorem myNick_aside (cmd : Text) : (h.myNick cfg c cmd).aside = h.aside := by
  unfold myNick
  repeat' split
  all_goals simp

@[simp] theorem botInfo_aside (cmd : Text) :
    (h.botInfo cfg c cmd).aside = h.aside := by
  unfold botInfo
  simp only
  repeat' split
  all_goals simp

@[simp] theorem getNickList_aside (a : Answers) :
    (h.getNickList cfg c a).1.aside = h.aside := by
  unfold getNickList
  simp only
  repeat' split
  all_goals simp

@[simp] theorem getNickListLater_aside (a : Answers) :
    (h.getNickListLater cfg c a).aside = h.aside := by
  unfold getNickListLater
  simp only
  split <;> simp

@[simp] theorem validateUserNickFinally_aside (isNotReg : Bool) (nickLen : Nat) (b : Bool) :
    (h.validateUserNickFinally cfg c isNotReg nickLen b).1.aside = h.aside := by
  unfold validateUserNickFinally
  simp only
  repeat' split
  all_goals simp

@[simp] theorem claimNick_aside (a : Answers) (isNotReg : Bool) (nick : Text) (b : Bool) :
    (h.claimNick cfg c a isNotReg nick b).1.aside = h.aside := by
  unfold claimNick
  simp only
  repeat' split
  all_goals simp

@[simp] theorem admitNick_aside (a : Answers) (reg : Option RegUser) (nick : Text) (b : Bool) :
    (h.admitNick cfg c a reg nick b).1.aside = h.aside := by
  unfold admitNick
  simp only
  repeat' split
  all_goals simp

@[simp] theorem checkReg_aside (a : Answers) (nick : Text) (b : Bool) :
    (h.checkReg cfg c a nick b).1.aside = h.aside := by
  unfold checkReg
  repeat' split
  all_goals simp

@[simp] theorem validateUserNick_aside (a : Answers) (nick : Text) (b : Bool) :
    (h.validateUserNick cfg c a nick b).1.aside = h.aside := by
  unfold validateUserNick
  cases illegalCharacter nick with
  | some notice => simp
  | none =>
    simp only
    split
    · simp
    · split
      · simp
      · split <;> simp

@[simp] theorem validateNick_aside (a : Answers) (cmd : Text) :
    (h.validateNick cfg c a cmd).aside = h.aside := by
  unfold validateNick
  repeat' split
  all_goals simp

@[simp] theorem version_aside (cmd : Text) :
    (h.version cfg c cmd).aside = h.aside := by
  unfold version
  split <;> simp

@[simp] theorem myInfoDeflood_aside (a : Answers) (cmd : Text) :
    (h.myInfoDeflood cfg c a cmd).1.aside = h.aside := by
  unfold myInfoDeflood
  repeat' split
  all_goals simp

@[simp] theorem myInfo_aside (a : Answers) (cmd : Text) :
    (h.myInfo cfg c a cmd).1.aside = h.aside := by
  unfold myInfo
  simp only
  repeat' split
  all_goals simp

@[simp] theorem firstMyInfo_aside (a : Answers) (cmd : Text) :
    (h.firstMyInfo cfg c a cmd).aside = h.aside := by
  unfold firstMyInfo
  simp only
  split <;> simp

@[simp] theorem loginMyInfo_aside (a : Answers) (cmd : Text) :
    (h.loginMyInfo cfg c a cmd).aside = h.aside := by
  unfold loginMyInfo
  simp only
  repeat' split
  all_goals simp

@[simp] theorem quickListMyInfo_aside (a : Answers) (cmd : Text) :
    (h.quickListMyInfo cfg c a cmd).aside = h.aside := by
  unfold quickListMyInfo
  simp only
  repeat' split
  all_goals simp

@[simp] theorem badState_aside (cmd : Text) :
    (h.badState cfg c cmd).aside = h.aside := by
  unfold badState
  repeat' split
  all_goals simp

@[simp] theorem deflood_aside (a : Answers) : (h.deflood cfg c a).aside = h.aside := by
  unfold deflood
  split <;> simp

@[simp] theorem laterMyInfo_aside (a : Answers) (cmd : Text) :
    (h.laterMyInfo cfg c a cmd).1.aside = h.aside := by
  unfold laterMyInfo
  simp only
  repeat' split
  all_goals simp

@[simp] theorem enterOpChat_aside : (h.enterOpChat cfg c).aside = h.aside := by
  unfold enterOpChat
  split <;> simp

@[simp] theorem leaveOpChat_aside : (h.leaveOpChat cfg c).aside = h.aside := by
  unfold leaveOpChat
  split <;> simp

@[simp] theorem giveProfile_aside (profile : UInt16) :
    (h.modify c fun u => u.giveProfile cfg profile).aside = h.aside := modify_aside fun _ => rfl

@[simp] theorem changeProfile_aside (profile : UInt16) :
    (h.modify c fun u => u.changeProfile cfg profile).aside = h.aside := by
  refine modify_aside fun u => ?_
  unfold User.changeProfile
  split <;> rfl

@[simp] theorem loseProfile_aside : (h.modify c User.loseProfile).aside = h.aside :=
  modify_aside fun _ => rfl

@[simp] theorem grantNew_aside (profile : UInt16) :
    (h.grantNew cfg c profile).aside = h.aside := by
  unfold grantNew
  simp only
  split <;> simp

@[simp] theorem addNew_aside (sNick sPasswd : Text) (iProfile : UInt16) :
    (h.addNew cfg sNick sPasswd iProfile).1.aside = h.aside := by
  unfold addNew
  simp only
  repeat' split
  all_goals simp

@[simp] theorem grantChanged_aside (profile : UInt16) :
    (h.grantChanged cfg c profile).aside = h.aside := by
  have told (h : Hub) : (h.tellKeyLost cfg c).aside = h.aside := by
    unfold tellKeyLost
    simp only
    split <;> rfl
  unfold grantChanged
  simp only
  repeat' split
  all_goals simp [told]

@[simp] theorem changeReg_aside (r : RegUser) (sNewPasswd : Option Text) (profile : UInt16) :
    (h.changeReg cfg r sNewPasswd profile).aside = h.aside := by
  unfold changeReg
  simp only
  split <;> simp

@[simp] theorem delete_aside (r : RegUser) : (h.delete cfg r).aside = h.aside := by
  unfold delete revoke
  simp only
  split
  · rfl
  · split <;> simp

@[simp] theorem generateMyInfoLong_aside :
    (h.generateMyInfoLong cfg c).1.aside = h.aside := by
  unfold generateMyInfoLong
  simp only
  split <;> simp

@[simp] theorem generateMyInfoShort_aside :
    (h.generateMyInfoShort cfg c).1.aside = h.aside := by
  unfold generateMyInfoShort
  simp only
  split <;> simp

@[simp] theorem refreshMyInfo_aside (due : Bool) :
    (h.refreshMyInfo cfg c due).aside = h.aside := by
  unfold refreshMyInfo
  simp only
  repeat' split
  all_goals simp

theorem processCmds_aside (due : Bool) :
    (h.processCmds cfg c due).aside = h.aside := by
  have all (queue : List PrcsdUsrCmd) (h : Hub) :
      (queue.foldl (fun h cmd => h.processCmd c cmd) h).aside = h.aside := by
    induction queue generalizing h with
    | nil => rfl
    | cons cmd queue ih =>
      rw [List.foldl_cons, ih]
      cases cmd <;> exact send_aside _
  unfold processCmds
  simp only
  repeat' split
  all_goals simp [all]

@[simp] theorem add2Userlist_aside : (h.add2Userlist cfg c).aside = h.aside := by
  have listed (list : Text) : ({ h with nickList := list } : Hub).aside = h.aside := rfl
  unfold add2Userlist
  simp only
  split <;> simp [listed]

@[simp] theorem announce_aside : (h.announce cfg c).aside = h.aside := by
  unfold announce
  simp only
  split <;> simp

@[simp] theorem addUserList_aside : (h.addUserList cfg c).aside = h.aside := by
  simp [addUserList]

@[simp] theorem preProcessAddMe_aside (a : Answers) (cmd : Text) :
    (h.preProcessAddMe cfg c a cmd).aside = h.aside := by
  unfold preProcessAddMe
  repeat' split
  all_goals simp

@[simp] theorem preProcessGetNickListOrMyInfo_aside (a : Answers) (cmd : Text) :
    (h.preProcessGetNickListOrMyInfo cfg c a cmd).aside = h.aside := by
  unfold preProcessGetNickListOrMyInfo
  repeat' split
  all_goals simp

@[simp] theorem takeNick_aside : (h.takeNick cfg c).aside = h.aside := by
  unfold takeNick
  split
  · rfl
  · simp only
    split <;> simp

@[simp] theorem welcome_aside : (h.welcome cfg c).aside = h.aside := by
  unfold welcome
  simp only
  repeat' split
  all_goals simp

/-! ## What forgets -/

/-- Nothing is counted, and the text that was kept for a user still is or is gone. -/
structure Forgets (x y : Hub) : Prop where
  counts : y.passwdBfCheck = x.passwdBfCheck
  texts : ∀ d, y.texts d = x.texts d ∨ y.texts d = none

theorem Forgets.of_aside {x y : Hub} (same : y.aside = x.aside) : Forgets x y where
  counts := congrArg Prod.fst same
  texts d := .inl (congrFun (congrArg Prod.snd same) d)

theorem Forgets.trans {x y z : Hub} (first : Forgets x y) (second : Forgets y z) : Forgets x z where
  counts := second.counts.trans first.counts
  texts d := by
    cases second.texts d with
    | inl kept =>
      rw [kept]
      exact first.texts d
    | inr gone => exact .inr gone

theorem forgets_modify {f : User → User} (gone : ∀ u, (f u).buffer = none) :
    Forgets h (h.modify c f) where
  counts := rfl
  texts d := by
    unfold Hub.texts
    rw [modify_users]
    split
    · exact .inr (gone _)
    · exact .inl rfl

theorem forgets_key (a : Answers) (cmd : Text) : Forgets h (h.key cfg c a cmd) := by
  unfold key
  split
  · exact .of_aside close_aside
  · simp only
    have shaken : Forgets h (h.modify c fun u => { u with haveKey := true }) :=
      .of_aside (modify_aside fun _ => rfl)
    split
    · exact shaken.trans (.of_aside close_aside)
    · exact shaken.trans (forgets_modify fun _ => rfl)

theorem forgets_registerMyself (name cmd : Text) :
    Forgets h (h.registerMyself cfg c name cmd) := by
  unfold registerMyself
  split
  · exact Forgets.trans (.of_aside (send_aside _)) (forgets_modify fun _ => rfl)
  rename_i profile _
  split
  · exact .of_aside (by simp)
  split
  · exact .of_aside (by simp)
  · let added := h.addNew cfg (h.users c).sNick (myPassArg cmd) profile
    have registered : Forgets h added.1 := .of_aside (addNew_aside _ _ profile)
    have cleared (text : Msg) : Forgets h
        ((added.1.send c text).modify c fun u => { u with buffer := none }) :=
      (registered.trans (.of_aside (send_aside text))).trans (forgets_modify fun _ => rfl)
    have finish (text : Notice) (chat : Bool) : Forgets h
        (let h := (added.1.send c (.notice text)).modify c fun u => { u with buffer := none }
        let h := h.modify c fun u => u.giveProfile cfg profile
        if chat then h.enterOpChat cfg c else h) := by
      refine (cleared (.notice text)).trans (.of_aside ?_)
      dsimp only
      split
      · exact enterOpChat_aside.trans (giveProfile_aside profile)
      · exact giveProfile_aside profile
    exact finish _ _

theorem forgets_addedMyPass (cmd : Text) : Forgets h (h.addedMyPass cfg c cmd) := by
  have unwait : Forgets h (h.modify c fun u => { u with waitingForPass := false }) :=
    .of_aside (modify_aside fun _ => rfl)
  unfold addedMyPass
  simp only
  split
  · exact unwait
  · exact unwait.trans (forgets_registerMyself _ cmd)

theorem forgets_preProcessKeyOrSup (a : Answers) (cmd : Text) :
    Forgets h (h.preProcessKeyOrSup cfg c a cmd) := by
  unfold preProcessKeyOrSup
  split
  · exact .of_aside (supports_aside cmd)
  split
  · exact forgets_key a cmd
  · exact .of_aside (by split <;> simp)

theorem forgets_preProcessValidate (a : Answers) (cmd : Text) :
    Forgets h (h.preProcessValidate cfg c a cmd) := by
  unfold preProcessValidate
  split
  · split
    · exact forgets_key a cmd
    · exact forgets_modify fun _ => rfl
  · refine .of_aside ?_
    repeat' split
    all_goals simp

theorem forgets_preProcessAdded (a : Answers) (cmd : Text) :
    Forgets h (h.preProcessAdded cfg c a cmd) := by
  unfold preProcessAdded
  simp only
  split
  · refine .of_aside ?_
    split <;> simp
  split
  · exact forgets_addedMyPass cmd
  · refine .of_aside ?_
    repeat' split
    all_goals simp

theorem forgets_receiveUser (t : Tick) : Forgets h (h.receiveUser cfg c t) := by
  unfold receiveUser
  simp only
  split
  case h_8 =>
    split
    · refine .of_aside ?_
      split <;> simp
    · have forgot : Forgets h (h.modify c fun u => { u with buffer := none }) :=
        forgets_modify fun _ => rfl
      refine forgot.trans (.of_aside ?_)
      split <;> simp [-modify_modify]
  all_goals
    refine .of_aside ?_
    repeat' split
    all_goals simp

theorem forgets_sendUser (result : SendResult) : Forgets h (h.sendUser cfg c result) := by
  unfold sendUser processQueues
  simp only
  split
  · have forgot : Forgets h
        (h.modify c fun u => { u with state := .added, pBan := none, buffer := none }) :=
      forgets_modify fun _ => rfl
    refine forgot.trans (.of_aside ?_)
    simp
  all_goals
    refine .of_aside ?_
    repeat' split
    all_goals simp

theorem forgets_sendLoop (results : UserId → SendResult) : Forgets h (h.sendLoop cfg results) := by
  have all (cs : List UserId) (h : Hub) :
      Forgets h (cs.foldl (fun h c => h.sendUser cfg c (results c)) h) := by
    induction cs generalizing h with
    | nil => exact .of_aside rfl
    | cons c cs ih => exact (forgets_sendUser (results c)).trans (ih _)
  have prepared : Forgets h (h.setQueue h.queue.prepareQueueItems) := .of_aside rfl
  have looped := prepared.trans (all h.userList _)
  exact ⟨looped.counts, looped.texts⟩

theorem forgets_acceptUser (sIP : Text) (ipHash : IpHash) (ipv6 : Bool) :
    Forgets h (h.acceptUser sIP ipHash ipv6) := by
  unfold acceptUser
  simp only
  split
  · exact .of_aside rfl
  split
  · exact .of_aside rfl
  · refine ⟨rfl, fun d => ?_⟩
    simp only [texts, newUser, setBans, Function.update_apply]
    split
    · exact .inr rfl
    · exact .inl rfl

/-! ## The password -/

theorem counts_of_aside {x y : Hub} (same : y.aside = x.aside) :
    y.passwdBfCheck = x.passwdBfCheck := congrArg Prod.fst same

theorem texts_of_aside {x y : Hub} (same : y.aside = x.aside) : y.texts = x.texts :=
  congrArg Prod.snd same

@[simp] theorem modify_texts {f : User → User} (same : ∀ u, (f u).buffer = u.buffer) :
    (h.modify c f).texts = h.texts := texts_of_aside (modify_aside same)

@[simp] theorem send_texts (msg : Msg) : (h.send c msg).texts = h.texts :=
  texts_of_aside (send_aside msg)

@[simp] theorem setReg_texts (r : RegUser) : (h.setReg r).texts = h.texts := rfl

@[simp] theorem setBans_texts (bans : BanManager) : (h.setBans bans).texts = h.texts := rfl

@[simp] theorem setPasswdBf_texts (items : List PassBf) : (h.setPasswdBf items).texts = h.texts :=
  rfl

@[simp] theorem removePassBf_texts : (h.removePassBf c).texts = h.texts := rfl

@[simp] theorem tellBadPass_texts : (h.tellBadPass cfg c).texts = h.texts :=
  texts_of_aside (by simp [tellBadPass])

theorem banBruteForce_texts : (h.banBruteForce cfg c).texts = h.texts := by
  unfold banBruteForce
  simp only
  split <;> simp

theorem badPass_texts (r : RegUser) : (h.badPass cfg c r).texts = h.texts := by
  unfold badPass
  simp only
  split
  · simp
  split
  · simp
  split
  · rw [texts_of_aside close_aside, banBruteForce_texts, setReg_texts]
  · simp

theorem goodPass_texts (r : RegUser) : (h.goodPass cfg c r).texts = h.texts := by
  unfold goodPass
  simp only
  rw [texts_of_aside (welcome_aside.trans takeNick_aside)]
  simp [-modify_modify]

theorem myPass_texts (cmd : Text) : (h.myPass cfg c cmd).texts = h.texts := by
  have unwait : (h.modify c fun u => { u with waitingForPass := false }).texts = h.texts :=
    texts_of_aside (modify_aside fun _ => rfl)
  unfold myPass
  simp only
  split
  · exact texts_of_aside close_aside
  split
  · exact texts_of_aside close_aside
  split
  · exact (texts_of_aside close_aside).trans unwait
  split
  · exact (goodPass_texts _).trans unwait
  · exact (badPass_texts _).trans unwait

/-- A command before the list that is no password leaves both aside. -/
theorem versionOrMyPass_aside (a : Answers) {cmd : Text}
    (other : isCommand cmd "$MyPass " = false) :
    (h.preProcessVersionOrMyPass cfg c a cmd).aside = h.aside := by
  unfold preProcessVersionOrMyPass
  rw [other]
  repeat' split
  all_goals simp_all

theorem versionOrMyPass_texts (a : Answers) (cmd : Text) :
    (h.preProcessVersionOrMyPass cfg c a cmd).texts = h.texts := by
  cases isMyPass : isCommand cmd "$MyPass " with
  | false => exact texts_of_aside (versionOrMyPass_aside a isMyPass)
  | true =>
    unfold preProcessVersionOrMyPass
    rw [isMyPass]
    repeat' split
    all_goals first
      | exact myPass_texts cmd
      | exact texts_of_aside (by simp)

theorem forgets_preProcessData (a : Answers) (cmd : Text)
    (other : (h.users c).state ≠ .versionOrMyPass) : Forgets h (h.preProcessData cfg c a cmd) := by
  unfold preProcessData
  cases state : (h.users c).state
  case versionOrMyPass => exact absurd state other
  case closing | remMe => exact .of_aside rfl
  all_goals
    simp only
    split
    · exact .of_aside close_aside
  case socketAccepted =>
    refine .of_aside ?_
    split <;> simp
  case keyOrSup => exact forgets_preProcessKeyOrSup a cmd
  case validate => exact forgets_preProcessValidate a cmd
  case getNickListOrMyInfo => exact .of_aside (preProcessGetNickListOrMyInfo_aside a cmd)
  case added => exact forgets_preProcessAdded a cmd
  all_goals exact .of_aside (preProcessAddMe_aside a cmd)

/-- Everything but a command and an operation on the registrations. -/
theorem forgets_loop (a : Action) (noCommand : ∀ c cmd answers, a ≠ .command c cmd answers)
    (noReg : ∀ op, a ≠ .reg op) : Forgets h (h.act cfg a) := by
  cases a with
  | accept sIP ipHash ipv6 => exact forgets_acceptUser sIP ipHash ipv6
  | command c cmd answers => exact absurd rfl (noCommand c cmd answers)
  | processCmds c due => exact .of_aside (processCmds_aside due)
  | receive c t => exact forgets_receiveUser t
  | sendLoop results => exact forgets_sendLoop results
  | close c error =>
    refine .of_aside ?_
    simp only [act]
    split <;> simp
  | post | ban => exact .of_aside rfl
  | reg op => exact absurd rfl (noReg op)

/-- Only an operation on the registrations puts a text by for a user. -/
theorem act_texts (a : Action) (noReg : ∀ op, a ≠ .reg op) (d : UserId) :
    (h.act cfg a).texts d = h.texts d ∨ (h.act cfg a).texts d = none := by
  cases a with
  | command c cmd answers =>
    by_cases other : (h.users c).state = .versionOrMyPass
    · left
      simp only [act, preProcessData, other]
      split
      · rw [texts_of_aside close_aside]
      · rw [versionOrMyPass_texts]
    · exact (forgets_preProcessData answers cmd other).texts d
  | _ => exact (forgets_loop _ (by simp) noReg).texts d

theorem execReg_counts (op : RegOp) : (h.execReg cfg op).passwdBfCheck = h.passwdBfCheck := by
  unfold execReg
  cases op with
  | addNew sNick sPasswd iProfile => exact counts_of_aside (addNew_aside sNick sPasswd iProfile)
  | changeReg sNick sNewPasswd ui16NewProfile =>
    simp only
    split
    · rfl
    · exact counts_of_aside (changeReg_aside _ sNewPasswd ui16NewProfile)
  | delete sNick =>
    simp only
    split
    · rfl
    · exact counts_of_aside (delete_aside _)
  | regNewUser sNick sProfile =>
    have sent (h : Hub) (c : UserId) (msgs : List Msg) :
        (h.sendAll c msgs).passwdBfCheck = h.passwdBfCheck :=
      counts_of_aside (sendAll_aside msgs)
    simp only [regNewUser]
    split
    · rfl
    · split
      · rfl
      · exact sent _ _ _
  | kickReason sNick sReason =>
    simp only [kickReason]
    split <;> rfl

end

end Hub

end FlyHub.Session
