import FlyHub.Session.Tables

/-!
# Every action is a sequence of moves

One lemma for each function of the login commands and of the service loop.
-/

namespace FlyHub.Session

open FlyHub.Broadcast FlyHub.Ban FlyHub.Lists FlyHub.Lib

namespace Hub

section
variable {cfg : Config} {h₀ x : Hub} {a : Action} {c : UserId}

/-! ## Closing -/

theorem move_close : Move cfg h₀ a x (x.close cfg c) := by
  have move : Move cfg h₀ a x (((x.modify c id).sendAll c []).close cfg c) :=
    .shut c id [] (fun _ => rfl) (by simp)
  rw [modify_id] at move
  exact move

theorem move_refuse (msg : Msg) (plain : msg.IsPlain) : Move cfg h₀ a x (x.refuse cfg c msg) := by
  have move : Move cfg h₀ a x (((x.modify c id).sendAll c [msg]).close cfg c) :=
    .shut c id [msg] (fun _ => rfl) (by simpa using plain)
  rw [modify_id] at move
  exact move

theorem move_fail : Move cfg h₀ a x (x.fail cfg c) :=
  Move.shut c (fun u => { u with error := true }) [] (fun _ => rfl) (by simp)

theorem moves_close : Moves cfg h₀ a x (x.close cfg c) := .single move_close

theorem moves_refuse {msg : Msg} (plain : msg.IsPlain) : Moves cfg h₀ a x (x.refuse cfg c msg) :=
  .single (move_refuse msg plain)

theorem moves_adjust (c : UserId) (f : User → User) (same : ∀ u, (f u).core = u.core) :
    Moves cfg h₀ a x (x.modify c f) := .single (.adjust c f same)

theorem moves_send (c : UserId) (msg : Msg) (plain : msg.IsPlain) :
    Moves cfg h₀ a x (x.send c msg) := .single (.send c msg plain)

theorem moves_try2Send (result : SendResult) : Moves cfg h₀ a x (x.try2Send cfg c result) := by
  unfold try2Send
  split
  · exact .refl
  · cases result with
    | all => exact moves_adjust c _ fun _ => rfl
    | rest => exact .refl
    | error => exact .single move_fail

theorem moves_deflood (answers : Answers) : Moves cfg h₀ a x (x.deflood cfg c answers) := by
  unfold deflood
  split
  · exact moves_close
  · exact .refl

/-! ## The handshake -/

theorem moves_key (early : (x.users c).state.toNat ≤ UserState.validate.toNat) (answers : Answers)
    (cmd : Text) : Moves cfg h₀ a x (x.key cfg c answers cmd) := by
  unfold key
  split
  · exact moves_close
  · apply Relation.ReflTransGen.trans (moves_adjust c (fun u => { u with haveKey := true }) fun _ => rfl)
    dsimp only
    split
    · exact moves_close
    · apply Relation.ReflTransGen.single
      apply Move.handshake c _ .validate (x.users c).pinger
      · simpa using early
      · exact Nat.le_refl _
      · simp
      · simp [User.core]

theorem supportToken_state (token : Text) :
    ((x.supportToken cfg c token).1.users c).state = (x.users c).state ∨
      (x.supportToken cfg c token).2 = false := by
  unfold supportToken
  repeat' split
  all_goals first | exact .inr rfl | left; simp [send, User.put]
  all_goals split <;> rfl

theorem moves_supportToken (early : (x.users c).state.toNat ≤ UserState.validate.toNat)
    (token : Text) : Moves cfg h₀ a x (x.supportToken cfg c token).1 := by
  unfold supportToken
  split
  · exact moves_close
  split
  · dsimp only
    exact moves_adjust c _ fun _ => rfl
  split
  · dsimp only
    exact moves_adjust c _ fun _ => rfl
  split
  · dsimp only
    exact moves_adjust c _ fun _ => rfl
  split
  · dsimp only
    exact moves_adjust c _ fun _ => rfl
  split
  · dsimp only
    exact moves_adjust c _ fun _ => rfl
  split
  · split
    · exact moves_refuse trivial
    · refine .tail (.single ?_) (.send c .hubName trivial)
      apply Move.handshake c _ (x.users c).state true early early
      · simp
      · simp [User.core]
  · exact .refl

theorem moves_supportLoop (tokens : List Text)
    (early : (x.users c).state.toNat ≤ UserState.validate.toNat) :
    Moves cfg h₀ a x (supportLoop cfg c tokens x) := by
  induction tokens generalizing x with
  | nil =>
    refine .tail (.single ?_) (.queueCmd c .supports (by simp))
    exact Move.handshake c _ .validate (x.users c).pinger early (Nat.le_refl _) id (by simp [User.core])
  | cons token tokens ih =>
    have first : Moves cfg h₀ a x (x.supportToken cfg c token).1 := moves_supportToken early token
    unfold supportLoop
    dsimp only
    split
    · rename_i goesOn
      apply first.trans
      apply ih
      cases supportToken_state token with
      | inl same => rwa [same]
      | inr stop => exact absurd (stop.symm.trans goesOn) (by simp)
    · exact first

theorem moves_supports (early : (x.users c).state.toNat ≤ UserState.validate.toNat) (cmd : Text) :
    Moves cfg h₀ a x (x.supports cfg c cmd) := by
  unfold supports
  split
  · exact moves_close
  · apply Relation.ReflTransGen.trans
      (moves_adjust c (fun u => { u with haveSupports := true }) fun _ => rfl)
    dsimp only
    split
    · exact moves_close
    split
    · split
      · exact moves_refuse trivial
      · apply Relation.ReflTransGen.trans
          (moves_adjust c (fun u => { u with quackSupports := true }) fun _ => rfl)
        exact moves_supportLoop _ (by simpa using early)
    · exact moves_supportLoop _ (by simpa using early)

theorem moves_myNick (cmd : Text) : Moves cfg h₀ a x (x.myNick cfg c cmd) := by
  unfold myNick
  split
  · exact moves_refuse trivial
  · split
    · exact moves_refuse trivial
    · split
      · exact moves_refuse trivial
      · rename_i other _ state
        refine .tail (.single ?_) move_close
        exact Move.ipv4Done other _ (by simpa using state) (by simp [User.core])

theorem moves_botInfo (cmd : Text) : Moves cfg h₀ a x (x.botInfo cfg c cmd) := by
  unfold botInfo
  split
  · exact moves_close
  split
  · exact moves_close
  · apply Relation.ReflTransGen.trans
      (moves_adjust c (fun u => { u with haveBotInfo := true }) fun _ => rfl)
    apply Relation.ReflTransGen.trans (moves_send c .hubInfo trivial)
    dsimp only
    split
    · exact moves_close
    · exact .refl

theorem moves_badState (cmd : Text) : Moves cfg h₀ a x (x.badState cfg c cmd) := by
  unfold badState
  split
  · exact moves_botInfo cmd
  split
  · exact .refl
  · exact moves_close

/-! ## The nick list -/

theorem moves_getNickList (answers : Answers) :
    Moves cfg h₀ a x (x.getNickList cfg c answers).1 := by
  unfold getNickList
  dsimp only
  split
  · exact moves_close
  split
  · rename_i pinger
    split
    · have lists : Moves cfg h₀ a x (x.sendAll c (x.pingerLists cfg c)) :=
        .single (.pingerLists c _ pinger)
      apply Relation.ReflTransGen.trans lists
      apply Relation.ReflTransGen.trans (moves_try2Send answers.sent)
      apply Relation.ReflTransGen.trans
        (moves_adjust c (fun u => { u with haveGetNickList := true }) fun _ => rfl)
      split
      · exact moves_close
      · exact .refl
    · exact moves_close
  · apply Relation.ReflTransGen.trans
      (moves_adjust c (fun u => { u with haveGetNickList := true }) fun _ => rfl)
    cases answers.flood with
    | pass => exact .refl
    | drop => exact .refl
    | close => exact moves_close

theorem moves_getNickListLater (answers : Answers) :
    Moves cfg h₀ a x (x.getNickListLater cfg c answers) := by
  unfold getNickListLater
  dsimp only
  split
  · exact (moves_getNickList answers).trans (moves_adjust c _ fun _ => rfl)
  · exact moves_getNickList answers

/-! ## The nick -/

theorem moves_validateUserNickFinally (isNotReg : Bool) (nickLen : Nat) (validateNick : Bool)
    (validate : (x.users c).state = .validate)
    (named : namedNick cfg h₀ a = some (c, (x.users c).sNick))
    (reg : isNotReg = (x.findReg (x.users c).sNick).isNone)
    (open_ : ∀ r, x.findReg (x.users c).sNick = some r → r.isLocked cfg x.clock = false)
    (vacant : x.Vacant (x.users c).sNick)
    (passes : (x.users c).pBan = none ∨ ∃ r, x.findReg (x.users c).sNick = some r ∧ Exempt cfg r) :
    Moves cfg h₀ a x
      ((x.dropBan c).validateUserNickFinally cfg c isNotReg nickLen validateNick).1 := by
  have turnAway (msg : Msg) (plain : msg.IsPlain) :
      Moves cfg h₀ a x ((x.dropBan c).refuse cfg c msg) :=
    .single (.shut c (fun u => { u with pBan := none }) [msg] (fun _ => rfl) (by simpa using plain))
  unfold validateUserNickFinally
  cases found : x.findReg (x.users c).sNick with
  | none =>
    have notReg : isNotReg = true := by simp [reg, found]
    have unbanned : (x.users c).pBan = none := by simpa [found] using passes
    rw [if_pos notReg]
    split
    · exact turnAway _ trivial
    split
    · exact turnAway _ trivial
    · have enter : Moves cfg h₀ a x (x.enterFree c) :=
        .single (.enterFree c validate named found vacant unbanned)
      dsimp only
      split
      · refine enter.tail (.helloLater c ?_ ?_ ?_ ?_)
        · simp [enterFree, dropBan, hashAdd, validate]
        · simpa [enterFree, dropBan, hashAdd] using named
        · simp [enterFree]
        · simpa [enterFree, dropBan, hashAdd, findReg] using found
      · exact enter
  | some r =>
    have isReg : isNotReg ≠ true := by simp [reg, found]
    rw [if_neg isReg]
    have passes : x.PassesBan cfg c r := by simpa [PassesBan, found] using passes
    exact .single (.enterReg c r validate named found (open_ r found) vacant passes)

/-- The index and the states of the users are as they were. -/
structure SameStates (h₀ x : Hub) : Prop where
  hash : x.hash = h₀.hash
  state : ∀ d, (x.users d).state = (h₀.users d).state

theorem SameStates.heldLive (like : SameStates h₀ x) {nick : Text} {other : UserId}
    (holder : x.findUser nick = some other) (live : (x.users other).state.isPastLogin = false) :
    h₀.HeldLive nick = true := by
  unfold findUser at holder
  rw [like.hash] at holder
  rw [like.state] at live
  simp [HeldLive, findUser, holder, live]

theorem modify_state {f : User → User} {d : UserId} (same : (f (x.users c)).state = (x.users c).state) :
    ((x.modify c f).users d).state = (x.users d).state := by
  rw [modify_users]
  split
  · rename_i eq
    rw [same, eq]
  · rfl

theorem SameStates.name {nick : Text} {bans : BanManager} (same : x = h₀) :
    SameStates h₀ ((x.modify c fun u => { u with sNick := nick }).setBans bans) := by
  rw [← same]
  constructor
  · rfl
  · intro d
    exact modify_state (f := fun u => { u with sNick := nick }) rfl

theorem or_of_checked {allowed full : Bool} (checked : ¬ (!allowed && full) = true) :
    (allowed || !full) = true := by
  cases allowed <;> cases full <;> simp_all

theorem lets_of_checks {answers : Answers} {reg : Option RegUser} {pinger : Bool}
    (room : ¬ (!cfg.profiles.isProfileAllowed (regProfile reg) .enterFullHub && !pinger &&
      answers.hubFull) = true)
    (conns : ¬ (!cfg.profiles.isProfileAllowed (regProfile reg) .noUsrSameIp &&
      answers.maxIpConns) = true)
    (slow : ¬ (!cfg.profiles.isProfileAllowed (regProfile reg) .noReconnTime &&
      answers.fastReconnect) = true) : lets cfg answers reg pinger = true := by
  rw [← Bool.not_or] at room
  simp only [lets, or_of_checked room, or_of_checked conns, or_of_checked slow, Bool.and_self]

/-- The checks made before the registration is looked at. -/
theorem admits_of_checks {answers : Answers} {nick : Text} (legal : illegalCharacter nick = none)
    (free : cfg.reserved nick = false) (unbanned : (x.users c).pBan ≠ some ⟨hashNick nick⟩)
    (nickOk : (x.bans.findNick nick x.clock).2 = none)
    (open_ : ∀ r, x.findReg nick = some r → r.isLocked cfg x.clock = false)
    (lets : lets cfg answers (x.findReg nick) (x.users c).pinger = true) :
    x.admits cfg c answers nick = true := by
  have unlocked : (x.findReg nick).any (fun r => r.isLocked cfg x.clock) = false := by
    cases found : x.findReg nick with
    | none => rfl
    | some r => exact open_ r found
  simp [admits, legal, free, unbanned, nickOk, unlocked, lets]

theorem moves_claimNick (answers : Answers) (nick : Text) (validateNick : Bool)
    (event : ∃ cmd, a = .command c cmd answers)
    (validate : (x.users c).state = .validate) (named : namedNick cfg h₀ a = some (c, nick))
    (nickIs : (x.users c).sNick = nick) (like : SameStates h₀ x)
    (admitted : h₀.admits cfg c answers nick = true)
    (open_ : ∀ r, x.findReg nick = some r → r.isLocked cfg x.clock = false)
    (passes : (x.users c).pBan = none ∨ ∃ r, x.findReg nick = some r ∧ Exempt cfg r) :
    Moves cfg h₀ a x
      ((x.dropBan c).claimNick cfg c answers (x.findReg nick).isNone nick validateNick).1 := by
  subst nickIs
  have finally_ (vacant : x.Vacant (x.users c).sNick) := moves_validateUserNickFinally
    (x.findReg (x.users c).sNick).isNone (x.users c).sNick.length validateNick validate named rfl
    open_ vacant passes
  unfold claimNick
  dsimp only
  have table : (x.dropBan c).findUser = x.findUser := rfl
  rw [table]
  cases holder : x.findUser (x.users c).sNick with
  | none => exact finally_ fun other eq => by simp [holder] at eq
  | some other =>
    have state : ((x.dropBan c).users other).state = (x.users other).state := by
      simp only [dropBan, modify_users]
      split <;> simp [*]
    simp only [state]
    split
    · rename_i past
      exact finally_ fun other' eq => by simp_all
    split
    · rename_i live dead
      obtain ⟨cmd, rfl⟩ := event
      have live : (x.users other).state.isPastLogin = false := by simpa using live
      exact .single (.deadSocket c other validate named holder live (like.heldLive holder live)
        ⟨cmd, answers, rfl, dead, admitted⟩ passes)
    split
    · exact .single (.shut c (fun u => { u with pBan := none }) [_] (fun _ => rfl)
        (by simp [Msg.IsPlain]))
    · rename_i registered
      obtain ⟨r, reg⟩ : ∃ r, x.findReg (x.users c).sNick = some r := by
        cases found : x.findReg (x.users c).sNick with
        | none => simp [found] at registered
        | some r => exact ⟨r, rfl⟩
      have passes : x.PassesBan cfg c r := by simpa [PassesBan, reg] using passes
      exact .single (.awaitPass c r validate named reg (open_ r reg) passes)

theorem moves_admitNick (answers : Answers) (nick : Text) (validateNick : Bool)
    (event : ∃ cmd, a = .command c cmd answers)
    (validate : (x.users c).state = .validate) (named : namedNick cfg h₀ a = some (c, nick))
    (nickIs : (x.users c).sNick = nick) (like : SameStates h₀ x)
    (admitted : lets cfg answers (x.findReg nick) (x.users c).pinger = true →
      h₀.admits cfg c answers nick = true)
    (open_ : ∀ r, x.findReg nick = some r → r.isLocked cfg x.clock = false) :
    Moves cfg h₀ a x (x.admitNick cfg c answers (x.findReg nick) nick validateNick).1 := by
  have turnAway (msg : Msg) (plain : msg.IsPlain) :
      Moves cfg h₀ a x ((x.dropBan c).refuse cfg c msg) :=
    .single (.shut c (fun u => { u with pBan := none }) [msg] (fun _ => rfl) (by simpa using plain))
  unfold admitNick
  dsimp only
  split
  · exact moves_refuse trivial
  · rename_i allowed
    split
    · exact turnAway _ trivial
    rename_i room
    split
    · exact turnAway _ trivial
    rename_i conns
    split
    · exact .single (.shut c (fun u => { u with pBan := none }) [] (fun _ => rfl) (by simp))
    · rename_i slow
      have admitted := admitted (lets_of_checks (by simpa using room) conns slow)
      apply moves_claimNick answers nick validateNick event validate named nickIs like admitted open_
      cases ban : (x.users c).pBan with
      | none => exact .inl rfl
      | some b =>
        cases found : x.findReg nick with
        | none => simp [ban, found, regProfile] at allowed
        | some r => exact .inr ⟨r, rfl, by simpa [ban, found, regProfile, Exempt] using allowed⟩

theorem moves_checkReg (answers : Answers) (nick : Text) (validateNick : Bool)
    (event : ∃ cmd, a = .command c cmd answers)
    (validate : (x.users c).state = .validate) (named : namedNick cfg h₀ a = some (c, nick))
    (nickIs : (x.users c).sNick = nick) (like : SameStates h₀ x)
    (admitted : (∀ r, x.findReg nick = some r → r.isLocked cfg x.clock = false) →
      lets cfg answers (x.findReg nick) (x.users c).pinger = true →
      h₀.admits cfg c answers nick = true) :
    Moves cfg h₀ a x (x.checkReg cfg c answers nick validateNick).1 := by
  have moves (open_ : ∀ r, x.findReg nick = some r → r.isLocked cfg x.clock = false) :=
    moves_admitNick answers nick validateNick event validate named nickIs like (admitted open_) open_
  unfold checkReg
  cases found : x.findReg nick with
  | none =>
    rw [found] at moves
    exact moves (by simp)
  | some r =>
    rw [found] at moves
    dsimp only
    split
    · exact moves_refuse trivial
    · rename_i open_
      exact moves (by simpa using open_)

theorem moves_validateUserNick (answers : Answers) (nick : Text) (validateNick : Bool)
    (event : ∃ cmd, a = .command c cmd answers)
    (validate : (x.users c).state = .validate) (named : namedNick cfg h₀ a = some (c, nick))
    (same : x = h₀) :
    Moves cfg h₀ a x (x.validateUserNick cfg c answers nick validateNick).1 := by
  unfold validateUserNick
  cases legal : illegalCharacter nick with
  | some notice => exact moves_refuse trivial
  | none =>
    have name : Moves cfg h₀ a x (x.modify c fun u => { u with sNick := nick }) :=
      .single (.name c nick validate named (by rw [same]) legal)
    apply name.trans
    dsimp only
    split
    · exact (moves_send c (.notice .nickReserved) trivial).trans (moves_refuse trivial)
    rename_i free
    split
    · exact moves_refuse trivial
    rename_i unbanned
    · apply Relation.ReflTransGen.trans (.single (.bans [⟨x.clock, .findNick nick⟩]))
      split
      · exact moves_refuse trivial
      · rename_i nickOk
        apply moves_checkReg answers nick validateNick event (by simpa [setBans] using validate)
          named (by simp [setBans]) (.name same)
        intro open_ letsIn
        subst same
        refine admits_of_checks legal (by simpa using free) (by simpa using unbanned)
          (by simpa using nickOk) (fun r found => open_ r found) ?_
        simpa using letsIn

theorem moves_validateNick (answers : Answers) (cmd : Text)
    (event : a = .command c cmd answers) (validate : (x.users c).state = .validate)
    (named : (x.users c).quickList = false → 16 ≤ cmd.length →
      namedNick cfg h₀ a = some (c, validateNickArg cmd))
    (same : x = h₀) :
    Moves cfg h₀ a x (x.validateNick cfg c answers cmd) := by
  unfold validateNick
  split
  · exact moves_close
  split
  · exact moves_close
  · rename_i classic long
    exact moves_validateUserNick answers _ true ⟨cmd, event⟩ validate
      (named (by simpa using classic) (by omega)) same

/-! ## The MyINFO -/

theorem moves_myInfoDeflood (answers : Answers) (cmd : Text) :
    Moves cfg h₀ a x (x.myInfoDeflood cfg c answers cmd).1 := by
  unfold myInfoDeflood
  split
  · exact moves_close
  · cases answers.flood with
    | drop => exact .refl
    | close => exact moves_close
    | pass =>
      dsimp only
      split
      · exact moves_refuse trivial
      · exact .refl

theorem myInfoDeflood_same {answers : Answers} {cmd : Text}
    (pass : (x.myInfoDeflood cfg c answers cmd).2 = true) :
    (x.myInfoDeflood cfg c answers cmd).1 = x := by
  unfold myInfoDeflood at pass ⊢
  split at pass
  · exact absurd pass (by simp)
  · rename_i long
    rw [if_neg long]
    cases flood : answers.flood with
    | drop => rfl
    | close => simp [flood] at pass
    | pass =>
      simp only [flood] at pass ⊢
      split at pass
      · exact absurd pass (by simp)
      · rename_i short
        rw [if_neg short]

theorem moves_myInfo (answers : Answers) (cmd : Text) :
    Moves cfg h₀ a x (x.myInfo cfg c answers cmd).1 := by
  unfold myInfo
  split
  · exact .refl
  split
  · exact moves_refuse trivial
  · have store (d : InfoData) : Moves cfg h₀ a x (x.modify c fun u =>
        { u with
          myInfoOriginal := cmd
          sharedSize := d.sharedSize
          ipv4Active := d.ipv4Active
          ipv6Active := d.ipv6Active }) := moves_adjust c _ fun _ => rfl
    apply (store (cfg.parseMyInfo cmd)).trans
    dsimp only
    split
    · exact moves_close
    · exact .refl

theorem myInfo_core {answers : Answers} {cmd : Text}
    (new : (x.myInfo cfg c answers cmd).2 = true) :
    ((x.myInfo cfg c answers cmd).1.users c).core = (x.users c).core := by
  unfold myInfo at new ⊢
  split at new
  · exact absurd new (by simp)
  · rename_i changed
    rw [if_neg changed]
    split at new
    · exact absurd new (by simp)
    · rename_i short
      rw [if_neg short]
      dsimp only at new ⊢
      split at new
      · exact absurd new (by simp)
      · rename_i ok
        rw [if_neg ok, modify_self]
        rfl

/-- The nick that the action names is not registered. -/
def NamesFree (cfg : Config) (h₀ : Hub) (a : Action) (c : UserId) (x : Hub) : Prop :=
  namedNick cfg h₀ a = some (c, (x.users c).sNick) ∧ x.findReg (x.users c).sNick = none

theorem moves_addMeOrIPv4Check (early : UserState.validate.toNat ≤ (x.users c).state.toNat)
    (late : (x.users c).state.toNat ≤ UserState.getNickListOrMyInfo.toNat)
    (free : (x.users c).state = .validate → NamesFree cfg h₀ a c x)
    (hashed : (x.users c).hashed = true)
    (done : (x.users c).waitingForPass = false) (user : (x.users c).pinger = false) :
    Moves cfg h₀ a x (x.addMeOrIPv4Check cfg c) := by
  unfold addMeOrIPv4Check
  split
  · have check : Moves cfg h₀ a x (x.modify c fun u => { u with state := .ipv4Check }) :=
      .single (.addMe c _ early late free hashed done user (.inl rfl))
    exact check.trans (moves_send c (.connectToMe _) trivial)
  · exact .single (.addMe c _ early late free hashed done user (.inr rfl))

/-- What is known of a user that may now go into the list. `free` is to hold if it
has not been asked for anything since it named its nick. -/
structure Ready (u : User) (free : Prop) : Prop where
  early : UserState.validate.toNat ≤ u.state.toNat
  late : u.state.toNat ≤ UserState.getNickListOrMyInfo.toNat
  free : u.state = .validate → free
  hashed : u.waitingForPass = false → u.hashed = true

theorem Ready.ofSettled {u : User} {free : Prop} (settled : u.login.Settled)
    (state : u.state = .versionOrMyPass ∨ u.state = .getNickListOrMyInfo) : Ready u free := by
  have live : u.state.isPastLogin = false := by
    cases state with
    | inl eq => rw [eq]; rfl
    | inr eq => rw [eq]; rfl
  have named : UserState.versionOrMyPass.toNat ≤ u.state.toNat := by
    cases state with
    | inl eq => exact Nat.le_of_eq (by rw [eq])
    | inr eq => rw [eq]; decide
  constructor
  · exact Nat.le_trans (by decide) named
  · cases state with
    | inl eq => rw [eq]; decide
    | inr eq => exact Nat.le_of_eq (by rw [eq])
  · intro validate
    rw [validate] at named
    exact absurd named (by decide)
  · exact fun done => settled live named (.inl done)

theorem Ready.ofAsked {u : User} {free : Prop} (state : u.state = .versionOrMyPass)
    (waiting : u.waitingForPass = true) : Ready u free where
  early := by rw [state]; decide
  late := by rw [state]; decide
  free := fun validate => by simp [state] at validate
  hashed := fun done => by simp [waiting] at done

theorem Ready.ofValidate {u : User} {free : Prop} (state : u.state = .validate)
    (hashed : u.hashed = true) (isFree : free) : Ready u free where
  early := by simp [state]
  late := by rw [state]; decide
  free := fun _ => isFree
  hashed := fun _ => hashed

theorem myInfo_regs {answers : Answers} {cmd : Text}
    (new : (x.myInfo cfg c answers cmd).2 = true) :
    (x.myInfo cfg c answers cmd).1.regs = x.regs := by
  unfold myInfo at new ⊢
  split
  · rfl
  split
  · rename_i changed long
    rw [if_neg changed, if_pos long] at new
    exact absurd new (by simp)
  · dsimp only
    split
    · rename_i changed short unruly
      rw [if_neg changed, if_neg short] at new
      simp [unruly] at new
    · rfl

theorem moves_firstMyInfo (ready : Ready (x.users c) (NamesFree cfg h₀ a c x))
    (answers : Answers) (cmd : Text) :
    Moves cfg h₀ a x (x.firstMyInfo cfg c answers cmd) := by
  unfold firstMyInfo
  dsimp only
  split
  · exact moves_myInfo answers cmd
  · rename_i go
    obtain ⟨⟨new, done⟩, user⟩ : ((x.myInfo cfg c answers cmd).2 = true ∧
        ((x.myInfo cfg c answers cmd).1.users c).waitingForPass = false) ∧
        ((x.myInfo cfg c answers cmd).1.users c).pinger = false := by
      simpa [not_or] using go
    have core := myInfo_core new
    have state := congrArg Core.state core
    have hashed := congrArg Core.hashed core
    have waiting := congrArg Core.waitingForPass core
    have nick := congrArg Core.sNick core
    simp only [User.core] at state hashed waiting nick
    apply (moves_myInfo answers cmd).trans
    apply moves_addMeOrIPv4Check
    · rw [state]
      exact ready.early
    · rw [state]
      exact ready.late
    · intro validate
      unfold NamesFree findReg
      rw [nick, myInfo_regs new]
      exact ready.free (state.symm.trans validate)
    · rw [hashed]
      exact ready.hashed (waiting.symm.trans done)
    · exact done
    · exact user

theorem moves_loginMyInfo (ready : Ready (x.users c) (NamesFree cfg h₀ a c x))
    (answers : Answers) (cmd : Text) :
    Moves cfg h₀ a x (x.loginMyInfo cfg c answers cmd) := by
  unfold loginMyInfo
  dsimp only
  split
  · exact moves_myInfoDeflood answers cmd
  · rename_i pass
    rw [myInfoDeflood_same (by simpa using pass)]
    split
    · exact moves_close
    · exact moves_firstMyInfo ready answers cmd

theorem moves_laterMyInfo (answers : Answers) (cmd : Text) :
    Moves cfg h₀ a x (x.laterMyInfo cfg c answers cmd).1 := by
  unfold laterMyInfo
  dsimp only
  split
  · exact moves_myInfoDeflood answers cmd
  · rename_i pass
    rw [myInfoDeflood_same (by simpa using pass)]
    split
    · exact moves_close
    · exact moves_myInfo answers cmd

theorem laterMyInfo_core {answers : Answers} {cmd : Text}
    (new : (x.laterMyInfo cfg c answers cmd).2 = true) :
    ((x.laterMyInfo cfg c answers cmd).1.users c).core = (x.users c).core := by
  unfold laterMyInfo at new ⊢
  dsimp only at new ⊢
  split at new
  · exact absurd new (by simp)
  · rename_i pass
    rw [if_neg pass]
    rw [myInfoDeflood_same (by simpa using pass)] at new ⊢
    split at new
    · exact absurd new (by simp)
    · rename_i own
      rw [if_neg own]
      exact myInfo_core new

/-! ## The MyINFO that brings the nick -/

/-- What a validation that lets the user go on has done: the nick and the
registrations are the same, and a registered nick has been asked for its
password. -/
structure Admitted (x y : Hub) (c : UserId) (isNotReg : Bool) : Prop where
  ready : Ready (y.users c) (isNotReg = true)
  nick : (y.users c).sNick = (x.users c).sNick
  regs : y.regs = x.regs

theorem ready_validateUserNickFinally {isNotReg : Bool} {nickLen : Nat}
    (validate : (x.users c).state = .validate)
    (go : (x.validateUserNickFinally cfg c isNotReg nickLen false).2 = true) :
    Admitted x (x.validateUserNickFinally cfg c isNotReg nickLen false).1 c isNotReg := by
  unfold validateUserNickFinally at go ⊢
  cases isNotReg with
  | false =>
    exact ⟨.ofAsked (by simp [addPrcsdCmd]) (by simp [addPrcsdCmd]),
      by simp [addPrcsdCmd, hashAdd], rfl⟩
  | true =>
    rw [if_pos rfl] at go ⊢
    split at go
    · exact absurd go (by simp)
    · rename_i length
      rw [if_neg length]
      split at go
      · exact absurd go (by simp)
      · rename_i open_
        rw [if_neg open_]
        exact ⟨.ofValidate (by simp [hashAdd, validate]) (by simp) rfl, by simp [hashAdd], rfl⟩

theorem ready_claimNick {answers : Answers} {isNotReg : Bool} {nick : Text}
    (validate : (x.users c).state = .validate)
    (go : (x.claimNick cfg c answers isNotReg nick false).2 = true) :
    Admitted x (x.claimNick cfg c answers isNotReg nick false).1 c isNotReg := by
  unfold claimNick at go ⊢
  cases holder : x.findUser nick with
  | none =>
    simp only [holder] at go ⊢
    exact ready_validateUserNickFinally validate go
  | some other =>
    simp only [holder] at go ⊢
    split at go
    · rename_i past
      rw [if_pos past]
      exact ready_validateUserNickFinally validate go
    · rename_i live
      rw [if_neg live]
      split at go
      · exact absurd go (by simp)
      · rename_i alive
        rw [if_neg alive]
        split at go
        · exact absurd go (by simp)
        · rename_i registered
          rw [if_neg registered]
          exact ⟨.ofAsked (by simp [addPrcsdCmd]) (by simp [addPrcsdCmd]),
            by simp [addPrcsdCmd], rfl⟩

theorem ready_admitNick {answers : Answers} {reg : Option RegUser} {nick : Text}
    (validate : (x.users c).state = .validate)
    (go : (x.admitNick cfg c answers reg nick false).2 = true) :
    Admitted x (x.admitNick cfg c answers reg nick false).1 c reg.isNone := by
  unfold admitNick at go ⊢
  dsimp only at go ⊢
  split at go
  · exact absurd go (by simp)
  · rename_i allowed
    rw [if_neg allowed]
    split at go
    · exact absurd go (by simp)
    · rename_i room
      rw [if_neg room]
      split at go
      · exact absurd go (by simp)
      · rename_i conns
        rw [if_neg conns]
        split at go
        · exact absurd go (by simp)
        · rename_i slow
          rw [if_neg slow]
          have claimed := ready_claimNick (by simpa using validate) go
          exact ⟨claimed.ready, claimed.nick.trans (by simp), claimed.regs⟩

theorem Admitted.named {z y : Hub} {nick : Text} {isNotReg : Bool}
    (admitted : Admitted z y c isNotReg) (named : namedNick cfg h₀ a = some (c, nick))
    (nickIs : (z.users c).sNick = nick) (reg : isNotReg = true → z.findReg nick = none) :
    Ready (y.users c) (NamesFree cfg h₀ a c y) where
  early := admitted.ready.early
  late := admitted.ready.late
  hashed := admitted.ready.hashed
  free := by
    intro state
    unfold NamesFree findReg
    rw [admitted.nick, nickIs, admitted.regs]
    exact ⟨named, reg (admitted.ready.free state)⟩

theorem ready_checkReg {answers : Answers} {nick : Text}
    (validate : (x.users c).state = .validate) (nickIs : (x.users c).sNick = nick)
    (named : namedNick cfg h₀ a = some (c, nick))
    (go : (x.checkReg cfg c answers nick false).2 = true) :
    Ready ((x.checkReg cfg c answers nick false).1.users c)
      (NamesFree cfg h₀ a c (x.checkReg cfg c answers nick false).1) := by
  unfold checkReg at go ⊢
  cases found : x.findReg nick with
  | none =>
    simp only [found] at go ⊢
    exact (ready_admitNick validate go).named named nickIs (fun _ => found)
  | some r =>
    simp only [found] at go ⊢
    split at go
    · exact absurd go (by simp)
    · rename_i unlocked
      rw [if_neg unlocked]
      exact (ready_admitNick validate go).named named nickIs (by simp)

theorem ready_validateUserNick {answers : Answers} {nick : Text}
    (validate : (x.users c).state = .validate) (named : namedNick cfg h₀ a = some (c, nick))
    (go : (x.validateUserNick cfg c answers nick false).2 = true) :
    Ready ((x.validateUserNick cfg c answers nick false).1.users c)
      (NamesFree cfg h₀ a c (x.validateUserNick cfg c answers nick false).1) := by
  unfold validateUserNick at go ⊢
  cases legal : illegalCharacter nick with
  | some notice => simp [legal] at go
  | none =>
    simp only [legal] at go ⊢
    split at go
    · exact absurd go (by simp)
    · rename_i free_
      rw [if_neg free_]
      split at go
      · exact absurd go (by simp)
      · rename_i unbanned
        rw [if_neg unbanned]
        split at go
        · exact absurd go (by simp)
        · rename_i nickOk
          rw [if_neg nickOk]
          exact ready_checkReg (by simpa [setBans] using validate) (by simp [setBans]) named go

theorem moves_quickListMyInfo (answers : Answers) (cmd : Text)
    (event : a = .command c cmd answers) (validate : (x.users c).state = .validate)
    (named : ∀ nick, (x.users c).quickList = true →
      (x.myInfoDeflood cfg c answers cmd).2 = true → myInfoNick cmd = some nick →
      namedNick cfg h₀ a = some (c, nick))
    (same : x = h₀) :
    Moves cfg h₀ a x (x.quickListMyInfo cfg c answers cmd) := by
  unfold quickListMyInfo
  split
  · exact moves_close
  · rename_i quick
    dsimp only
    split
    · exact moves_myInfoDeflood answers cmd
    · rename_i pass
      have pass : (x.myInfoDeflood cfg c answers cmd).2 = true := by simpa using pass
      rw [myInfoDeflood_same pass]
      cases nick : myInfoNick cmd with
      | none => exact moves_close
      | some nick' =>
        have named := named nick' (by simpa using quick) pass nick
        have moves : Moves cfg h₀ a x (x.validateUserNick cfg c answers nick' false).1 :=
          moves_validateUserNick answers nick' false ⟨cmd, event⟩ validate named same
        dsimp only
        split
        · rename_i go
          exact moves.trans (moves_firstMyInfo (ready_validateUserNick validate named go) answers cmd)
        · exact moves

/-! ## The password -/

/-- The messages and the close come last, after the bans and the addresses with
bad passwords have been brought up to date. -/
structure Punished (cfg : Config) (c : UserId) (x y : Hub) : Prop where
  shape : ∃ es items msgs, (∀ msg ∈ msgs, Msg.IsPlain msg) ∧
    y = (((x.setBans (run (BanManager.step cfg.ban) x.bans es)).setPasswdBf items).sendAll c
      msgs).close cfg c

theorem punished_tellBadPass (items : List PassBf) :
    Punished cfg c x ((x.setPasswdBf items).tellBadPass cfg c) :=
  ⟨[], items, [.badPass, .notice .incorrectPassword], by simp [Msg.IsPlain], rfl⟩

theorem punished_banBruteForce : Punished cfg c x ((x.banBruteForce cfg c).close cfg c) := by
  let found : BanManager.Event := ⟨x.clock, .findFull (x.users c).ipHash⟩
  let user : BanUser := ⟨(x.users c).sNick, (x.users c).sIP, (x.users c).ipHash⟩
  let reason := ascii "3x bad password for nick " ++ (x.users c).sNick
  unfold banBruteForce
  dsimp only
  split
  · exact ⟨[found], x.passwdBfCheck, [.notice .isBanned], by simp [Msg.IsPlain], rfl⟩
  · split
    · exact ⟨[found, ⟨x.clock, .banIp (some user) none (some reason) none true⟩], _,
        [.notice .ipBannedBruteForce], by simp [Msg.IsPlain], rfl⟩
    · exact ⟨[found, ⟨x.clock, .tempBanIp (some user) none (some reason) none
          (cfg.bruteForceTempBanTime * 60) 0 true⟩], _,
        [.notice .ipBannedBruteForce], by simp [Msg.IsPlain], rfl⟩

theorem punished_badPass (r : RegUser) :
    Punished cfg c (x.setReg (r.noteBadPass cfg x.clock)) (x.badPass cfg c r) := by
  unfold badPass
  dsimp only
  split
  · exact punished_tellBadPass _
  · split
    · exact punished_tellBadPass _
    · split
      · exact punished_banBruteForce
      · exact punished_tellBadPass _

/-- The password has been waited for; the wait ends, the failure is noted and the
user closed. -/
theorem moves_badPass {r : RegUser} {pass : Text} (compared : PassCompared x a c r pass)
    (wrong : r.passMatches cfg pass = false) :
    Moves cfg x a x ((x.modify c fun u => { u with waitingForPass := false }).badPass cfg c r) := by
  let x' := x.modify c fun u => { u with waitingForPass := false }
  have punished : Punished cfg c (x'.setReg (r.noteBadPass cfg x'.clock))
      (x'.badPass cfg c r) := punished_badPass r
  obtain ⟨es, items, msgs, plain, eq⟩ := punished.shape
  rw [eq]
  have note : Moves cfg x a x (x.setReg (r.noteBadPass cfg x.clock)) :=
    .single (.notePass c r pass compared wrong rfl rfl)
  apply note.trans
  apply Relation.ReflTransGen.trans (.single (.bans es))
  apply Relation.ReflTransGen.trans (.single (.passwdBf items))
  exact .single (.shut c (fun u => { u with waitingForPass := false }) msgs (fun _ => rfl) plain)

theorem moves_welcome (state : (x.users c).state = .versionOrMyPass)
    (hashed : (x.users c).hashed = true) (done : (x.users c).waitingForPass = false) :
    Moves cfg h₀ a x (x.welcome cfg c) := by
  unfold welcome
  dsimp only
  split
  · have hello : Moves cfg h₀ a x (x.send c (.hello (x.users c).sNick)) :=
      .single (.hello c state)
    split
    · exact hello.trans (moves_send c (.logedIn _) trivial)
    · exact hello
  split
  · rename_i user
    exact moves_addMeOrIPv4Check (by rw [state]; decide) (by rw [state]; decide)
      (fun validate => by simp [state] at validate) hashed done (by simpa using user)
  · exact .refl

theorem moves_goodPass {r : RegUser} {pass : Text} (wf : WellFormed x)
    (compared : PassCompared x a c r pass) (right : r.passMatches cfg pass = true) :
    Moves cfg x a x ((x.modify c fun u => { u with waitingForPass := false }).goodPass cfg c r) := by
  let items := x.passwdBfCheck.eraseP fun p => p.ipHash = (x.users c).ipHash
  let z := x.passed cfg c r items
  have eq : (x.modify c fun u => { u with waitingForPass := false }).goodPass cfg c r =
      (z.takeNick cfg c).welcome cfg c := by
    simp [goodPass, passed, removePassBf, setPasswdBf, setReg, isAllowed, modify, z, items]
  have self : x.findUser (x.users c).sNick = some c → (x.users c).hashed = true := wf.table _ c
  have user : z.users c =
      { x.users c with
        waitingForPass := false
        profile := r.profile.toNat
        operator := cfg.profiles.isProfileAllowed r.profile.toNat .hasKeyIcon } := by
    rw [passed_users, modify_self]
  have took : (z.takeNick cfg c).users c = { z.users c with hashed := true } := by
    apply takeNick_user
    rw [user]
    exact self
  rw [eq]
  apply Relation.ReflTransGen.trans (.single (.pass c r pass items compared right rfl self))
  apply moves_welcome
  · rw [took, user]
    exact compared.state
  · rw [took]
  · rw [took, user]

theorem moves_myPass (wf : WellFormed x) (cmd : Text) (answers : Answers)
    (event : a = .command c cmd answers) (isMyPass : isCommand cmd "$MyPass " = true)
    (state : (x.users c).state = .versionOrMyPass) : Moves cfg x a x (x.myPass cfg c cmd) := by
  unfold myPass
  split
  · exact moves_close
  · rename_i r reg
    split
    · exact moves_close
    · rename_i waiting
      dsimp only
      split
      · exact .single (.shut c (fun u => { u with waitingForPass := false }) [] (fun _ => rfl)
          (by simp))
      rename_i fits
      simp only [Bool.or_eq_true, decide_eq_true_eq, not_or, Nat.not_lt] at fits
      have compared : PassCompared x a c r (myPassArg cmd) :=
        ⟨⟨cmd, answers, event, isMyPass, fits.1, fits.2, rfl⟩, state, reg, by simpa using waiting⟩
      split
      · rename_i right
        exact moves_goodPass wf compared right
      · rename_i wrong
        exact moves_badPass compared (by simpa using wrong)

/-! ## The registrations -/

theorem moves_enterOpChat : Moves cfg h₀ a x (x.enterOpChat cfg c) := by
  unfold enterOpChat
  cases bot : cfg.opChatNick with
  | none => exact .refl
  | some nick =>
    dsimp only
    refine .single (.opChat c _ fun msg sent => ?_)
    rw [List.mem_append] at sent
    cases sent with
    | inl hello =>
      split at hello
      · simp at hello
      · exact .inr ⟨nick, bot, .inl (List.mem_singleton.mp hello)⟩
    | inr rest =>
      rw [List.mem_cons, List.mem_singleton] at rest
      cases rest with
      | inl info => exact .inr ⟨nick, bot, .inr (.inl info)⟩
      | inr list => exact .inl (by rw [list]; trivial)

theorem moves_leaveOpChat : Moves cfg h₀ a x (x.leaveOpChat cfg c) := by
  unfold leaveOpChat
  cases bot : cfg.opChatNick with
  | none => exact .refl
  | some nick =>
    have quit : Moves cfg h₀ a x (x.sendAll c [.quit nick]) := by
      refine .single (.opChat c _ fun msg sent => ?_)
      exact .inr ⟨nick, bot, .inr (.inr (List.mem_singleton.mp sent))⟩
    exact quit

theorem modifyOnline_found {sNick : Text} (f : User → User) (found : x.findUser sNick = some c) :
    x.modifyOnline sNick f = x.modify c f := by
  unfold modifyOnline
  rw [found]

theorem modifyOnline_nobody {sNick : Text} (f : User → User) (nobody : x.findUser sNick = none) :
    x.modifyOnline sNick f = x := by
  unfold modifyOnline
  rw [nobody]

theorem moves_addNew {sNick sPasswd : Text} {iProfile : UInt16}
    (looked : x.canRegister cfg sNick sPasswd iProfile = true → regLookup cfg h₀ a = some sNick)
    (same : SameUsers h₀ x) :
    Moves cfg h₀ a x (x.addNew cfg sNick sPasswd iProfile).1 := by
  unfold addNew
  split
  · exact .refl
  · rename_i new
    cases created : RegManager.createReg cfg.hashPasswords cfg.hashPassword sNick sPasswd
        iProfile with
    | none => exact .refl
    | some r =>
      have new : x.findReg sNick = none := by simpa using new
      obtain ⟨nick, profile⟩ := RegManager.sNick_of_createReg created
      have found := looked (by simp [canRegister, new, created])
      subst nick profile
      have add : Move cfg h₀ a x _ := .reg (.add r found new same)
      dsimp only
      cases online : (x.setReg r).findUser r.sNick with
      | none =>
        rw [modifyOnline_nobody _ online] at add
        exact .single add
      | some c =>
        rw [modifyOnline_found _ online] at add
        apply Relation.ReflTransGen.trans (.single add)
        unfold grantNew
        dsimp only
        split
        · exact moves_enterOpChat
        · exact .refl

theorem moves_regChanged {r s : RegUser}
    (event : ∃ nick pass profile, a = .reg (.changeReg nick pass profile))
    (looked : regLookup cfg h₀ a = some s.sNick) (found : x.findReg s.sNick = some r)
    (same : SameUsers h₀ x) :
    Moves cfg h₀ a x
      (match (x.setReg s).findUser s.sNick with
      | none => x.setReg s
      | some c => (x.setReg s).grantChanged cfg c s.profile) := by
  have change : Move cfg h₀ a x _ := .reg (.change s r looked found same event)
  cases holder : (x.setReg s).findUser s.sNick with
  | none =>
    rw [modifyOnline_nobody _ holder] at change
    exact .single change
  | some c =>
    rw [modifyOnline_found _ holder] at change
    dsimp only
    unfold grantChanged
    dsimp only
    split
    · rename_i already
      have unchanged : (x.setReg s).modify c (User.changeProfile cfg s.profile) = x.setReg s := by
        have eq : ((x.setReg s).users c).changeProfile cfg s.profile = (x.setReg s).users c := by
          unfold User.changeProfile
          rw [if_pos already]
        unfold modify
        rw [eq, Function.update_eq_self]
      rw [unchanged] at change
      exact .single change
    · have chat (y : Hub) (was : Bool) : Moves cfg h₀ a y
          (let chat := y.isAllowed cfg c .allowedOpChat
          if was = chat then y else if chat then y.enterOpChat cfg c else y.leaveOpChat cfg c) := by
        dsimp only
        split
        · exact .refl
        split
        · exact moves_enterOpChat
        · exact moves_leaveOpChat
      have tell (y : Hub) (lost : Bool) :
          Moves cfg h₀ a y (if lost then y.tellKeyLost cfg c else y) := by
        split
        · exact .single (.keyLost c event)
        · exact .refl
      exact ((Relation.ReflTransGen.single change).trans (tell _ _)).trans (chat _ _)

theorem updatePassword_sNick (cfg : Config) (r : RegUser) (pass : Text) :
    (r.updatePassword cfg.hashPasswords cfg.hashPassword pass).sNick = r.sNick := by
  unfold RegUser.updatePassword
  split
  · split <;> rfl
  · rfl

theorem moves_changeReg {r : RegUser} {nick : Text} {sNewPasswd : Option Text} {profile : UInt16}
    (event : a = .reg (.changeReg nick sNewPasswd profile))
    (looked : regLookup cfg h₀ a = some r.sNick) (found : x.findReg r.sNick = some r)
    (users : SameUsers h₀ x) :
    Moves cfg h₀ a x (x.changeReg cfg r sNewPasswd profile) := by
  have event' : ∃ nick pass profile, a = .reg (.changeReg nick pass profile) := ⟨_, _, _, event⟩
  unfold changeReg
  cases sNewPasswd with
  | none => exact moves_regChanged (s := { r with profile := profile }) event' looked found users
  | some pass =>
    have same := updatePassword_sNick cfg r pass
    rw [← same] at looked found
    exact moves_regChanged
      (s := { r.updatePassword cfg.hashPasswords cfg.hashPassword pass with profile := profile })
      event' looked found users

theorem moves_delete {r : RegUser} {nick : Text} (event : a = .reg (.delete nick))
    (looked : regLookup cfg h₀ a = some r.sNick) (found : x.findReg r.sNick = some r)
    (same : SameUsers h₀ x) :
    Moves cfg h₀ a x (x.delete cfg r) := by
  have del : Move cfg h₀ a x _ := .reg (.delete r looked found same ⟨nick, event⟩)
  unfold delete
  cases online : x.findUser r.sNick with
  | none =>
    rw [modifyOnline_nobody _ online] at del
    exact .single del
  | some c =>
    rw [modifyOnline_found _ online] at del
    dsimp only
    unfold revoke
    dsimp only
    split
    · have swap : ((x.modify c User.loseProfile).leaveOpChat cfg c).remReg r =
          ((x.modify c User.loseProfile).remReg r).leaveOpChat cfg c := by
        unfold leaveOpChat
        cases cfg.opChatNick <;> rfl
      rw [swap]
      exact .trans (.single del) moves_leaveOpChat
    · exact .single del

theorem moves_regNewUser {sNick sProfile : Text} (event : ∃ op, a = .reg op) :
    Moves cfg h₀ a x (x.regNewUser cfg sNick sProfile) := by
  unfold regNewUser
  split
  · exact .refl
  · cases online : x.findUser sNick with
    | none => exact .refl
    | some c =>
      dsimp only
      have ask : Moves cfg h₀ a x (x.modify c fun u => { u with waitingForPass := true }) :=
        .single (.askReg c sNick online event)
      have buffer := ask.trans (moves_adjust c
        (fun u => { u with buffer := some (bufferText sProfile) }) fun _ => rfl)
      rw [modify_modify] at buffer
      apply buffer.trans
      refine .single (.opChat c _ fun msg sent => .inl ?_)
      rw [List.mem_cons, List.mem_singleton] at sent
      cases sent with
      | inl eq => rw [eq]; trivial
      | inr eq => rw [eq]; trivial

/-- A registration is found under its own nick. -/
theorem findReg_own {sNick : Text} {r : RegUser} (found : x.findReg sNick = some r) :
    x.findReg r.sNick = some r := by
  rw [← found]
  exact RegManager.find_congr (RegManager.iequals_of_find found)

theorem moves_execReg (op : RegOp) (event : a = .reg op) : Moves cfg x a x (x.execReg cfg op) := by
  unfold execReg
  cases op with
  | addNew sNick sPasswd iProfile =>
    refine moves_addNew (fun can => ?_) fun _ => .inl rfl
    subst event
    simp [regLookup, can]
  | changeReg sNick sNewPasswd profile =>
    dsimp only
    cases found : x.findReg sNick with
    | none => exact .refl
    | some r =>
      have own := findReg_own found
      refine moves_changeReg event ?_ own fun _ => .inl rfl
      subst event
      simp [regLookup, found]
  | delete sNick =>
    dsimp only
    cases found : x.findReg sNick with
    | none => exact .refl
    | some r =>
      have own := findReg_own found
      refine moves_delete event ?_ own fun _ => .inl rfl
      subst event
      simp [regLookup, found]
  | regNewUser sNick sProfile => exact moves_regNewUser ⟨_, event⟩
  | kickReason sNick sReason =>
    unfold kickReason
    dsimp only
    split
    · exact .refl
    · exact moves_adjust _ _ fun _ => rfl

/-! ## A user that registers itself -/

theorem enterOpChat_login {d : UserId} :
    ((x.enterOpChat cfg c).users d).login = (x.users d).login := by
  unfold enterOpChat
  cases cfg.opChatNick with
  | none => rfl
  | some nick => exact sendAll_login _

/-- `AddNew` touches the profile and the key of a user and nothing else of its
login. -/
theorem addNew_login (cfg : Config) (x : Hub) (d : UserId) (sNick sPasswd : Text)
    (iProfile : UInt16) : ∃ p o,
    ((x.addNew cfg sNick sPasswd iProfile).1.users d).login =
      { (x.users d).login with profile := p, operator := o } := by
  unfold addNew
  split
  · exact ⟨_, _, rfl⟩
  · cases RegManager.createReg cfg.hashPasswords cfg.hashPassword sNick sPasswd iProfile with
    | none => exact ⟨_, _, rfl⟩
    | some r =>
      dsimp only
      cases (x.setReg r).findUser r.sNick with
      | none => exact ⟨_, _, rfl⟩
      | some c =>
        have granted : ∃ p o,
            (((x.setReg r).modify c (User.giveProfile cfg iProfile)).users d).login =
              { (x.users d).login with profile := p, operator := o } := by
          rw [modify_users]
          split
          · rename_i eq
            rw [eq]
            exact ⟨_, _, rfl⟩
          · exact ⟨_, _, rfl⟩
        dsimp only
        unfold grantNew
        dsimp only
        split
        · rw [enterOpChat_login]
          exact granted
        · exact granted

theorem enterOpChat_regs : (x.enterOpChat cfg c).regs = x.regs := by
  unfold enterOpChat
  cases cfg.opChatNick with
  | none => rfl
  | some nick => exact (same_sendAll _).regs

/-- `AddNew` makes a registration with the profile or changes none. -/
theorem addNew_regs (cfg : Config) (x : Hub) (sNick sPasswd : Text) (iProfile : UInt16) :
    x.canRegister cfg sNick sPasswd iProfile = false ∧
        (x.addNew cfg sNick sPasswd iProfile).1.regs = x.regs ∨
      ∃ r, (x.addNew cfg sNick sPasswd iProfile).1.findReg sNick = some r ∧
        r.profile = iProfile := by
  unfold addNew canRegister
  cases found : x.findReg sNick with
  | some r => exact .inl ⟨by simp, by simp⟩
  | none =>
    cases created : RegManager.createReg cfg.hashPasswords cfg.hashPassword sNick sPasswd
        iProfile with
    | none => exact .inl ⟨by simp, by simp⟩
    | some r =>
      obtain ⟨nick, profile⟩ := RegManager.sNick_of_createReg created
      have made : (x.setReg r).findReg sNick = some r := by
        unfold setReg findReg
        rw [RegManager.find_put, nick, iequals_refl, if_pos rfl]
      refine .inr ⟨r, ?_, profile⟩
      simp only [Option.isSome_none, Bool.false_eq_true, if_false]
      cases (x.setReg r).findUser r.sNick with
      | none => exact made
      | some c =>
        rw [← made]
        unfold findReg
        dsimp only
        unfold grantNew
        dsimp only
        split
        · rw [enterOpChat_regs]
          rfl
        · rfl

/-! ## The commands by state -/

theorem moves_preProcessKeyOrSup (state : (x.users c).state = .keyOrSup) (answers : Answers)
    (cmd : Text) : Moves cfg h₀ a x (x.preProcessKeyOrSup cfg c answers cmd) := by
  have early : (x.users c).state.toNat ≤ UserState.validate.toNat := by
    rw [state]
    decide
  unfold preProcessKeyOrSup
  split
  · exact moves_supports early cmd
  split
  · exact moves_key early answers cmd
  split
  · exact moves_myNick cmd
  · exact moves_badState cmd

theorem moves_preProcessValidate (state : (x.users c).state = .validate) (answers : Answers)
    (cmd : Text) (long : ¬ cmd.length < 5) (event : a = .command c cmd answers) :
    Moves cfg x a x (x.preProcessValidate cfg c answers cmd) := by
  unfold preProcessValidate
  split
  · split
    · exact moves_key (Nat.le_of_eq (by rw [state])) answers cmd
    · exact moves_adjust c _ fun _ => rfl
  rename_i notKey
  split
  · rename_i isValidate
    refine moves_validateNick answers cmd event state ?_ rfl
    intro classic enough
    subst event
    simp [namedNick, state, long, notKey, isValidate, classic, enough]
  rename_i notValidate
  split
  · rename_i isMyInfo
    refine moves_quickListMyInfo answers cmd event state ?_ rfl
    intro nick quick pass named
    subst event
    simp [namedNick, state, long, notKey, notValidate, isMyInfo, quick, pass, named]
  split
  · split
    · exact moves_close
    · exact moves_getNickList answers
  · exact moves_badState cmd

theorem moves_preProcessVersionOrMyPass (wf : WellFormed x)
    (state : (x.users c).state = .versionOrMyPass) (answers : Answers) (cmd : Text)
    (event : a = .command c cmd answers) :
    Moves cfg x a x (x.preProcessVersionOrMyPass cfg c answers cmd) := by
  unfold preProcessVersionOrMyPass
  split
  · unfold version
    split
    · exact moves_close
    · exact .single (.version c state)
  split
  · exact moves_getNickListLater answers
  split
  · exact moves_loginMyInfo (.ofSettled (wf.settled c) (.inl state)) answers cmd
  split
  · rename_i isMyPass
    exact moves_myPass wf cmd answers event isMyPass state
  · exact moves_badState cmd

theorem moves_preProcessGetNickListOrMyInfo (wf : WellFormed x)
    (state : (x.users c).state = .getNickListOrMyInfo) (answers : Answers) (cmd : Text) :
    Moves cfg h₀ a x (x.preProcessGetNickListOrMyInfo cfg c answers cmd) := by
  unfold preProcessGetNickListOrMyInfo
  split
  · exact moves_getNickListLater answers
  split
  · exact moves_loginMyInfo (.ofSettled (wf.settled c) (.inr state)) answers cmd
  · exact moves_badState cmd

theorem moves_preProcessAddMe (answers : Answers) (cmd : Text) :
    Moves cfg h₀ a x (x.preProcessAddMe cfg c answers cmd) := by
  unfold preProcessAddMe
  split
  · exact moves_getNickListLater answers
  split
  · cases answers.flood with
    | drop => exact .refl
    | close => exact moves_close
    | pass =>
      dsimp only
      split
      · exact moves_close
      · exact moves_badState cmd
  split
  · exact moves_laterMyInfo answers cmd
  split
  · exact moves_deflood answers
  · exact moves_badState cmd

theorem moves_registerMyself {y : Hub} (answers : Answers) (cmd name : Text)
    (event : a = .command c cmd answers) (isMyPass : isCommand cmd "$MyPass " = true)
    (state : (x.users c).state = .added) (waiting : (x.users c).waitingForPass = true)
    (buffer : (x.users c).buffer = some name)
    (login : (y.users c).login = { (x.users c).login with waitingForPass := false })
    (same : SameUsers x y) (regs : y.regs = x.regs) :
    Moves cfg x a y (y.registerMyself cfg c name cmd) := by
  have added : (y.users c).state = .added := (congrArg Login.state login).trans state
  have nick : (y.users c).sNick = (x.users c).sNick := congrArg Login.sNick login
  have say (text : Notice) : Moves cfg x a y (y.send c (.notice text)) :=
    moves_send c _ trivial
  have said (text : Notice) : ((y.send c (.notice text)).users c).state = .added :=
    (congrArg Login.state (send_login (d := c) _)).trans added
  unfold registerMyself
  cases profile : cfg.profileIndex name with
  | none => exact (say _).trans (moves_adjust c _ fun _ => rfl)
  | some profile' =>
    dsimp only
    split
    · exact (say _).tail (.askAgain c (said _))
    split
    · exact (say _).tail (.askAgain c (said _))
    · rename_i long short
      have own : Hub.selfProfile cfg x a = some (c, profile') := by
        subst event
        have length : 10 ≤ cmd.length ∧ cmd.length ≤ 73 := by omega
        simp [Hub.selfProfile, state, isMyPass, waiting, length, buffer, profile]
      have sameReg : y.canRegister cfg (y.users c).sNick (myPassArg cmd) profile' =
          x.canRegister cfg (x.users c).sNick (myPassArg cmd) profile' := by
        simp only [canRegister, findReg, regs, nick]
      have looked : regLookup cfg x a = if x.canRegister cfg (x.users c).sNick (myPassArg cmd)
          profile' then some (x.users c).sNick else none := by
        subst event
        simp only [regLookup, own]
      let z := (y.addNew cfg (y.users c).sNick (myPassArg cmd) profile').1
      have add : Moves cfg x a y z := by
        refine moves_addNew (fun can => ?_) same
        rw [looked, ← sameReg, can, nick]
        rfl
      obtain ⟨p, o, afterLogin⟩ := addNew_login cfg y c (y.users c).sNick
        (myPassArg cmd) profile'
      have told (text : Msg) : ((z.send c text).users c).login =
          { (y.users c).login with profile := p, operator := o } :=
        (send_login text).trans afterLogin
      have grant (text : Msg) (plain : text.IsPlain) : Moves cfg x a y
          (((z.send c text).modify c fun u => { u with buffer := none }).modify c
            (User.giveProfile cfg profile')) := by
        apply add.trans
        apply Relation.ReflTransGen.trans (moves_send c text plain)
        apply Relation.ReflTransGen.trans
          (moves_adjust c (fun u => { u with buffer := none }) fun _ => rfl)
        refine .single (.reg (.self c profile' own ?_ ?_ ?_))
        · rw [modify_self]
          exact (congrArg Login.state (told text)).trans added
        · rw [modify_self]
          exact (congrArg Login.sNick (told text)).trans nick
        · rw [modify_self]
          have same : ((z.send c text).users c).sNick = (y.users c).sNick :=
            congrArg Login.sNick (told text)
          cases addNew_regs cfg y (y.users c).sNick (myPassArg cmd) profile' with
          | inl refused =>
            refine .inl ⟨?_, refused.2.trans regs⟩
            rw [looked, ← sameReg, refused.1]
            rfl
          | inr made =>
            obtain ⟨r, found, eq⟩ := made
            refine .inr ⟨r, ?_, eq⟩
            dsimp only
            rw [same]
            exact found
      have finish (text : Notice) (chat : Bool) : Moves cfg x a y
          (let h := ((z.send c (.notice text)).modify c fun u => { u with buffer := none }).modify c
            (User.giveProfile cfg profile')
          if chat then h.enterOpChat cfg c else h) := by
        dsimp only
        split
        · exact (grant (.notice text) trivial).trans moves_enterOpChat
        · exact grant (.notice text) trivial
      exact finish _ _

theorem moves_addedMyPass (answers : Answers) (cmd : Text) (event : a = .command c cmd answers)
    (isMyPass : isCommand cmd "$MyPass " = true) (state : (x.users c).state = .added)
    (waiting : (x.users c).waitingForPass = true) :
    Moves cfg x a x (x.addedMyPass cfg c cmd) := by
  have unwait : Moves cfg x a x (x.modify c fun u => { u with waitingForPass := false }) :=
    .single (.unwait c state)
  unfold addedMyPass
  dsimp only
  rw [modify_self]
  cases buffer : (x.users c).buffer with
  | none => exact unwait
  | some name =>
    apply unwait.trans
    apply moves_registerMyself answers cmd name event isMyPass state waiting buffer
    · rw [modify_self]
      rfl
    · intro d
      rw [modify_users]
      split
      · rename_i eq
        rw [eq]
        exact .inr ⟨state, rfl⟩
      · exact .inl rfl
    · rfl

theorem moves_preProcessAdded (state : (x.users c).state = .added) (answers : Answers)
    (cmd : Text) (event : a = .command c cmd answers) :
    Moves cfg x a x (x.preProcessAdded cfg c answers cmd) := by
  unfold preProcessAdded
  split
  · dsimp only
    split
    · rename_i new
      have added := congrArg Core.state (laterMyInfo_core new)
      refine .tail (moves_laterMyInfo answers cmd) (.newInfo c ?_)
      exact added.trans state
    · exact moves_laterMyInfo answers cmd
  split
  · rename_i isMyPass
    simp only [Bool.and_eq_true] at isMyPass
    exact moves_addedMyPass answers cmd event isMyPass.1 state isMyPass.2
  split
  · exact moves_getNickListLater answers
  split
  · exact moves_deflood answers
  · exact moves_badState cmd

theorem moves_preProcessData (wf : WellFormed x) (answers : Answers) (cmd : Text)
    (event : a = .command c cmd answers) :
    Moves cfg x a x (x.preProcessData cfg c answers cmd) := by
  unfold preProcessData
  cases state : (x.users c).state with
  | closing | remMe => exact .refl
  | socketAccepted =>
    dsimp only
    split
    · exact moves_close
    split
    · exact moves_myNick cmd
    · exact moves_badState cmd
  | keyOrSup =>
    dsimp only
    split
    · exact moves_close
    · exact moves_preProcessKeyOrSup state answers cmd
  | validate =>
    dsimp only
    split
    · exact moves_close
    · rename_i long
      exact moves_preProcessValidate state answers cmd long event
  | versionOrMyPass =>
    dsimp only
    split
    · exact moves_close
    · exact moves_preProcessVersionOrMyPass wf state answers cmd event
  | getNickListOrMyInfo =>
    dsimp only
    split
    · exact moves_close
    · exact moves_preProcessGetNickListOrMyInfo wf state answers cmd
  | ipv4Check | addMe | addMe1Loop | addMe2Loop =>
    dsimp only
    split
    · exact moves_close
    · exact moves_preProcessAddMe answers cmd
  | added =>
    dsimp only
    split
    · exact moves_close
    · exact moves_preProcessAdded state answers cmd event

/-! ## The loops -/

theorem flush_state : ((x.flush c).users c).state = (x.users c).state :=
  congrArg Login.state flush_login

theorem moves_processCmds (due : Bool) : Moves cfg h₀ a x (x.processCmds cfg c due) := by
  unfold processCmds
  split
  · exact .refl
  · rename_i live
    have live : (x.users c).state.isPastLogin = false := by simpa using live
    have flush : Moves cfg h₀ a x (x.flush c) := .single (.flush c live)
    apply flush.trans
    change Moves cfg h₀ a (x.flush c)
      (if ((x.flush c).users c).prcsdMyInfo then (x.flush c).refresh cfg c due else x.flush c)
    split
    · rename_i new
      refine .single (.refresh c due ?_ new)
      rw [flush_state]
      exact live
    · exact .refl

theorem moves_receiveUser {t : Tick} (event : a = .receive c t) :
    Moves cfg h₀ a x (x.receiveUser cfg c t) := by
  unfold receiveUser
  dsimp only
  cases state : (x.users c).state with
  | socketAccepted =>
    dsimp only
    split
    · exact .refl
    split
    · exact moves_close
    · apply (moves_send c .lock trivial).trans
      have same := congrArg Login.state (send_login (x := x) (c := c) (d := c) .lock)
      have early : ((x.send c .lock).users c).state = .socketAccepted := same.trans state
      apply Relation.ReflTransGen.single
      apply Move.handshake c _ .keyOrSup ((x.send c .lock).users c).pinger
      · rw [early]
        decide
      · decide
      · exact id
      · rfl
  | keyOrSup | validate | versionOrMyPass | getNickListOrMyInfo =>
    dsimp only
    split
    · exact moves_close
    · exact .refl
  | ipv4Check =>
    dsimp only
    split
    · exact .single (.ipv4Done c _ state rfl)
    · exact .refl
  | addMe =>
    dsimp only
    split
    · exact .refl
    · apply (moves_send c .hubName trivial).trans
      have same := congrArg Login.state (send_login (x := x) (c := c) (d := c) .hubName)
      exact .single (.firstLoop c (same.trans state))
  | addMe1Loop =>
    dsimp only
    split
    · split
      · exact moves_close
      · exact .refl
    · apply Relation.ReflTransGen.trans
        (moves_adjust c (fun u => { u with buffer := none }) fun _ => rfl)
      split
      · apply Relation.ReflTransGen.trans
          (moves_adjust c (fun u => { u with ipv4 := true }) fun _ => rfl)
        exact .single (.enlist c (by simpa using state) ⟨t, event⟩)
      · exact .single (.enlist c (by simpa using state) ⟨t, event⟩)
  | addMe2Loop =>
    dsimp only
    split
    · exact moves_close
    · exact .refl
  | added => exact .refl
  | closing =>
    dsimp only
    split
    · exact moves_try2Send _
    · exact .single (.endClosing c state)
  | remMe => exact .single (.remove c state)

theorem moves_acceptUser {sIP : Text} {ipHash : IpHash} {ipv6 : Bool}
    (event : a = .accept sIP ipHash ipv6) :
    Moves cfg h₀ a x (x.acceptUser sIP ipHash ipv6) := by
  unfold acceptUser
  dsimp only
  split
  · exact .single (.bans [⟨x.clock, .findFull ipHash⟩])
  · apply Relation.ReflTransGen.trans (.single (.bans [⟨x.clock, .findFull ipHash⟩]))
    split
    · exact .single (.bans [⟨x.clock, .findFullRange ipHash⟩])
    · apply Relation.ReflTransGen.trans (.single (.bans [⟨x.clock, .findFullRange ipHash⟩]))
      exact .single (.accept _ rfl ⟨_, _, _, event⟩)

theorem moves_addUserList (event : ∃ results, a = .sendLoop results) :
    Moves cfg h₀ a x (x.addUserList cfg c) := .single (.roundSend c _ event)

theorem moves_processQueues (event : ∃ results, a = .sendLoop results) :
    Moves cfg h₀ a x (x.processQueues cfg c) := by
  unfold processQueues
  exact .trans (.single (.round _ event)) (.single (.roundSend c _ event))

theorem moves_sendQueue (event : ∃ results, a = .sendLoop results) (result : SendResult) :
    Moves cfg h₀ a x
      ((if x.queue.haveItems then x.processQueues cfg c else x).try2Send cfg c result) := by
  split
  · exact (moves_processQueues event).trans (moves_try2Send result)
  · exact moves_try2Send result

theorem moves_sendUser (event : ∃ results, a = .sendLoop results) (result : SendResult) :
    Moves cfg h₀ a x (x.sendUser cfg c result) := by
  unfold sendUser
  cases state : (x.users c).state with
  | addMe2Loop =>
    apply Relation.ReflTransGen.trans (.single (.roundAdd c
      (fun u => { u with state := .added, pBan := none, buffer := none }) event state rfl))
    apply (moves_addUserList event).trans
    apply Relation.ReflTransGen.trans
      (moves_adjust c (fun u => { u with getNickList := false }) fun _ => rfl)
    exact moves_try2Send result
  | added =>
    dsimp only
    have lists : Moves cfg h₀ a x (if (x.users c).getNickList then
        (x.addUserList cfg c).modify c fun u => { u with getNickList := false } else x) := by
      split
      · exact (moves_addUserList event).trans (moves_adjust c _ fun _ => rfl)
      · exact .refl
    exact lists.trans (moves_sendQueue event result)
  | closing | remMe => exact .refl
  | socketAccepted | keyOrSup | validate | versionOrMyPass | getNickListOrMyInfo | ipv4Check
  | addMe | addMe1Loop => exact moves_try2Send result

theorem moves_sendLoop (results : UserId → SendResult) (event : a = .sendLoop results) :
    Moves cfg h₀ a x (x.sendLoop cfg results) := by
  have everyone (cs : List UserId) (y : Hub) :
      Moves cfg h₀ a y (cs.foldl (fun h c => h.sendUser cfg c (results c)) y) := by
    induction cs generalizing y with
    | nil => exact .refl
    | cons c cs ih => exact (moves_sendUser ⟨results, event⟩ (results c)).trans (ih _)
  unfold sendLoop
  apply Relation.ReflTransGen.trans (.single (.round _ ⟨results, event⟩))
  exact (everyone _ _).tail (.round _ ⟨results, event⟩)

/-- Every action is a sequence of moves. -/
theorem act_moves (cfg : Config) (wf : WellFormed x) (a : Action) : Moves cfg x a x (x.act cfg a) := by
  cases a with
  | accept sIP ipHash ipv6 => exact moves_acceptUser rfl
  | command c cmd answers => exact moves_preProcessData wf answers cmd rfl
  | processCmds c due => exact moves_processCmds due
  | receive c tick => exact moves_receiveUser rfl
  | sendLoop results => exact moves_sendLoop results rfl
  | close c error =>
    simp only [act]
    split
    · exact .single move_fail
    · exact moves_close
  | post eCmdType text text1 => exact .single (.post eCmdType text text1)
  | ban op => exact .single (.bans [⟨x.clock, op⟩])
  | reg op => exact moves_execReg op rfl

theorem act_wellFormed (cfg : Config) (wf : WellFormed x) (a : Action) : WellFormed (x.act cfg a) :=
  (act_moves cfg wf a).invariant (fun _ _ wf move => move.wellFormed wf) wf

theorem advance_wellFormed (wf : WellFormed x) (e : Event) : WellFormed (x.advance e) :=
  ⟨wf.unborn, wf.table, wf.settled⟩

theorem step_wellFormed (wf : WellFormed x) (e : Event) : WellFormed (step cfg x e) :=
  act_wellFormed cfg (advance_wellFormed wf e) e.action

theorem start_wellFormed (regs : RegManager) : WellFormed (start cfg regs) where
  unborn := fun _ _ => ⟨rfl, rfl⟩
  table := fun _ _ found => by simp [start, findUser, HashManager.findUser, HashManager.empty] at found
  settled := fun _ live => by simp [start, User.login, UserState.isPastLogin, UserState.toNat] at live

end

end Hub

end FlyHub.Session
