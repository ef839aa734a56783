import FlyHub.Session.Aside
import FlyHub.Session.Hierarchy
import FlyHub.Session.Known
import FlyHub.Session.Lockout
import FlyHub.Session.Profiles
import FlyHub.Session.RegCommands

/-!
# Nobody gains a profile unless it is given

A profile comes from a registration, and a registration from a user above it. What no user
above a profile does can't make anyone gain that profile: neither a command of somebody else,
nor any way to log in, nor any order of them.
-/

namespace FlyHub.Session

open FlyHub.Ban FlyHub.Broadcast FlyHub.Lib

namespace Hub

/-- What a change does to those who have the profile `q`: it makes nobody gain it. -/
structure Regraded (cfg : Config) (q : UInt16) (x y : Hub) : Prop where
  hash : y.hash = x.hash
  nextUser : y.nextUser = x.nextUser
  regs : ∀ nick, regProfile (y.findReg nick) = q.toNat → regProfile (x.findReg nick) = q.toNat
  profile : ∀ d, (y.users d).profile = q.toNat → (x.users d).profile = q.toNat
  state : ∀ d, (y.users d).state = (x.users d).state
  nick : ∀ d, (y.users d).sNick = (x.users d).sNick
  hashed : ∀ d, (y.users d).hashed = (x.users d).hashed
  waits : ∀ d, (y.users d).waitingForPass = false →
    (x.users d).waitingForPass = false ∨ (x.users d).state.isLoggedIn = true
  texts : ∀ d, (y.texts d).bind cfg.profileIndex = some q →
    (x.texts d).bind cfg.profileIndex = some q

namespace Regraded

variable {cfg : Config} {q : UInt16} {x y z : Hub} {c : UserId}

theorem refl (x : Hub) : Regraded cfg q x x :=
  ⟨rfl, rfl, fun _ => id, fun _ => id, fun _ => rfl, fun _ => rfl, fun _ => rfl,
    fun _ => .inl, fun _ => id⟩

theorem trans (first : Regraded cfg q x y) (second : Regraded cfg q y z) : Regraded cfg q x z where
  hash := second.hash.trans first.hash
  nextUser := second.nextUser.trans first.nextUser
  regs nick has := first.regs nick (second.regs nick has)
  profile d has := first.profile d (second.profile d has)
  state d := (second.state d).trans (first.state d)
  nick d := (second.nick d).trans (first.nick d)
  hashed d := (second.hashed d).trans (first.hashed d)
  waits d done := by
    cases second.waits d done with
    | inl done => exact first.waits d done
    | inr loggedIn =>
      rw [first.state d] at loggedIn
      exact .inr loggedIn
  texts d names := first.texts d (second.texts d names)

/-- Something that is done only if it is due. -/
theorem also {P : Prop} [Decidable P] (first : Regraded cfg q x y) (second : Regraded cfg q y z) :
    Regraded cfg q x (if P then z else y) := by
  split
  · exact first.trans second
  · exact first

/-- A change of one user. -/
theorem modify {f : User → User} (profile : (f (x.users c)).profile = q.toNat →
      (x.users c).profile = q.toNat)
    (state : (f (x.users c)).state = (x.users c).state)
    (nick : (f (x.users c)).sNick = (x.users c).sNick)
    (hashed : (f (x.users c)).hashed = (x.users c).hashed)
    (waits : (f (x.users c)).waitingForPass = false →
      (x.users c).waitingForPass = false ∨ (x.users c).state.isLoggedIn = true)
    (texts : (f (x.users c)).buffer.bind cfg.profileIndex = some q →
      (x.users c).buffer.bind cfg.profileIndex = some q) :
    Regraded cfg q x (x.modify c f) := by
  have each {P : User → User → Prop} (self : P (x.users c) (f (x.users c)))
      (same : ∀ u, P u u) (d : UserId) : P (x.users d) ((x.modify c f).users d) := by
    rw [modify_users]
    split
    · rename_i eq
      rw [eq]
      exact self
    · exact same _
  exact {
    hash := rfl
    nextUser := rfl
    regs := fun _ => id
    profile := each (P := fun u v => v.profile = q.toNat → u.profile = q.toNat) profile fun _ => id
    state := each (P := fun u v => v.state = u.state) state fun _ => rfl
    nick := each (P := fun u v => v.sNick = u.sNick) nick fun _ => rfl
    hashed := each (P := fun u v => v.hashed = u.hashed) hashed fun _ => rfl
    waits := each (P := fun u v => v.waitingForPass = false →
      u.waitingForPass = false ∨ u.state.isLoggedIn = true) waits fun _ => .inl
    texts := each (P := fun u v => v.buffer.bind cfg.profileIndex = some q →
      u.buffer.bind cfg.profileIndex = some q) texts fun _ => id }

/-- A change of a user that only its profile and its key come of. -/
theorem grade {f : User → User} (profile : (f (x.users c)).profile = q.toNat →
      (x.users c).profile = q.toNat)
    (same : ∃ p o, f (x.users c) = { x.users c with profile := p, operator := o }) :
    Regraded cfg q x (x.modify c f) := by
  obtain ⟨p, o, eq⟩ := same
  apply modify profile <;> rw [eq]
  · exact .inl
  · exact id

theorem send (msg : Msg) : Regraded cfg q x (x.send c msg) := by
  have put : ∃ s p, (x.users c).put msg = { x.users c with sendBuf := s, pending := p } := by
    unfold User.put
    split
    · exact ⟨_, _, rfl⟩
    · exact ⟨_, _, rfl⟩
  obtain ⟨s, p, eq⟩ := put
  apply modify <;> rw [eq]
  · exact id
  · exact .inl
  · exact id

theorem sendAll (msgs : List Msg) : Regraded cfg q x (x.sendAll c msgs) := by
  induction msgs generalizing x with
  | nil => exact .refl x
  | cons msg msgs ih => exact (send msg).trans ih

theorem addQueueItem (eCmdType : Cmd) (command0 command1 : List Msg) :
    Regraded cfg q x (x.addQueueItem eCmdType command0 command1) := {
  refl x with hash := rfl }

/-- Whoever has a registration has it with another profile, or had the profile before. -/
theorem setReg {r : RegUser} (other : r.profile = q →
      ∀ nick, iequals nick r.sNick = true → regProfile (x.findReg nick) = q.toNat) :
    Regraded cfg q x (x.setReg r) := {
  refl x with
  hash := rfl
  regs := by
    intro nick has
    unfold findReg Hub.setReg at has
    rw [RegManager.find_put] at has
    split at has
    · rename_i own
      refine other (UInt16.toNat_inj.mp ?_) nick own
      exact Int.ofNat.inj has
    · exact has }

theorem remReg (r : RegUser) : Regraded cfg q x (x.remReg r) := {
  refl x with
  hash := rfl
  regs := by
    intro nick has
    unfold findReg Hub.remReg at has
    rw [RegManager.find_rem] at has
    split at has
    · simp [regProfile] at has
    · exact has }

/-! ## The operations on the registrations -/

theorem enterOpChat : Regraded cfg q x (x.enterOpChat cfg c) := by
  unfold Hub.enterOpChat
  split
  · exact .refl x
  · exact sendAll _

theorem leaveOpChat : Regraded cfg q x (x.leaveOpChat cfg c) := by
  unfold Hub.leaveOpChat
  split
  · exact .refl x
  · exact send _

theorem giveProfile {profile : UInt16} (other : profile ≠ q) :
    Regraded cfg q x (x.modify c fun u => u.giveProfile cfg profile) := by
  refine grade (fun has => absurd (UInt16.toNat_inj.mp ?_) other) ⟨_, _, rfl⟩
  exact Int.ofNat.inj has

theorem grantNew {profile : UInt16} (other : profile ≠ q) :
    Regraded cfg q x (x.grantNew cfg c profile) := by
  unfold Hub.grantNew
  exact also (giveProfile other) enterOpChat

theorem addNew {iProfile : UInt16} (other : iProfile ≠ q) (sNick sPasswd : Text) :
    Regraded cfg q x (x.addNew cfg sNick sPasswd iProfile).1 := by
  unfold Hub.addNew
  split
  · exact .refl x
  split
  · exact .refl x
  rename_i r created
  have put : Regraded cfg q x (x.setReg r) := by
    apply setReg
    intro same
    rw [(RegManager.sNick_of_createReg created).2] at same
    exact absurd same other
  dsimp only
  split
  · exact put
  · exact put.trans (grantNew other)

theorem revoke : Regraded cfg q x (x.revoke cfg c) := by
  have lose : Regraded cfg q x (x.modify c User.loseProfile) :=
    grade (fun has => absurd has (by simp [User.loseProfile])) ⟨_, _, rfl⟩
  unfold Hub.revoke
  exact also lose leaveOpChat

theorem delete (r : RegUser) : Regraded cfg q x (x.delete cfg r) := by
  unfold Hub.delete
  split
  · exact remReg r
  · exact revoke.trans (remReg r)

theorem regNewUser {sProfile : Text} (other : cfg.profileIndex (bufferText sProfile) ≠ some q)
    (sNick : Text) : Regraded cfg q x (x.regNewUser cfg sNick sProfile) := by
  unfold Hub.regNewUser
  split
  · exact .refl x
  split
  · exact .refl x
  · refine (modify id rfl rfl rfl ?_ ?_).trans (sendAll _)
    · exact fun done => absurd done (by simp)
    · exact fun names => absurd names other

theorem registerMyself {name : Text} {profile : UInt16} (named : cfg.profileIndex name = some profile)
    (other : profile ≠ q) (cmd : Text) : Regraded cfg q x (x.registerMyself cfg c name cmd) := by
  have asked (text : Notice) : Regraded cfg q x
      ((x.send c (.notice text)).modify c fun u => { u with waitingForPass := true }) :=
    (send _).trans (modify id rfl rfl rfl (fun done => absurd done (by simp)) id)
  have finish (text : Notice) (chat : Bool) : Regraded cfg q x
      (let h := ((x.addNew cfg (x.users c).sNick (myPassArg cmd) profile).1.send c
        (.notice text)).modify c fun u => { u with buffer := none }
      let h := h.modify c fun u => u.giveProfile cfg profile
      if chat then h.enterOpChat cfg c else h) := by
    have given : Regraded cfg q x _ := (((addNew other (x.users c).sNick (myPassArg cmd)).trans
      (send (c := c) (.notice text))).trans (modify (c := c) (f := fun u => { u with buffer := none })
        id rfl rfl rfl .inl fun names => absurd names (by simp))).trans
          (giveProfile (c := c) other)
    exact also given enterOpChat
  unfold Hub.registerMyself
  rw [named]
  dsimp only
  split
  · exact asked _
  split
  · exact asked _
  · exact finish _ _

/-! ## The commands -/

theorem answerReg {set : RegSettings} {op : UserId} (answer : RegAnswer) :
    Regraded cfg q x (x.answerReg set op answer) := send _

theorem reportReg {set : RegSettings} {op : UserId} (answer : RegAnswer) :
    Regraded cfg q x (x.reportReg set op answer) := by
  have post : Regraded cfg q x (if set.sendStatus && !set.statusAsPm then
      x.addQueueItem .ops [.other (set.answer answer)] [] else x) :=
    also (.refl x) (addQueueItem _ _ _)
  unfold Hub.reportReg
  exact also post (answerReg answer)

/-- A check that fails changes nothing that counts. -/
theorem check {set : RegSettings} {op : UserId} {P : Prop} [Decidable P] {answer : RegAnswer}
    (go : ¬ P → Regraded cfg q x y) :
    Regraded cfg q x (if P then x.answerReg set op answer else y) := by
  split
  · exact answerReg answer
  · rename_i passes
    exact go passes

theorem addRegistered {set : RegSettings} {op : UserId} {iProfile : UInt16} (other : iProfile ≠ q)
    (parts : RegParts) : Regraded cfg q x (x.addRegistered cfg set op parts iProfile) := by
  have added : Regraded cfg q x _ := addNew other (cText parts.nick) (cText parts.pass)
  unfold Hub.addRegistered
  dsimp only
  split
  · exact added.trans (answerReg _)
  split
  · exact added.trans (reportReg _)
  · exact (added.trans (reportReg _)).trans (grantNew other)

end Regraded

/-- The user has a profile above `q`, or is a Master. -/
def isAbove (h : Hub) (op : UserId) (q : UInt16) : Bool :=
  (h.users op).profile ≠ -1 && !h.tooHigh op q

section
variable {cfg : Config} {set : RegSettings} {q : UInt16} {x : Hub} {op : UserId}

theorem other_of_given {profile : UInt16} {right : RegRight} (low : x.isAbove op q = false)
    (allowed : ¬ (!set.allows (x.users op).profile right) = true)
    (given : ¬ x.tooHigh op profile = true) : profile ≠ q := by
  rintro rfl
  apply allowed
  have without : (x.users op).profile = -1 := by simpa [isAbove, given] using low
  simp [RegSettings.allows, without]

theorem addRegUser_regraded (low : x.isAbove op q = false) (sCommand : Text) :
    Regraded cfg q x (x.addRegUser cfg set op sCommand) := by
  unfold addRegUser
  refine .check fun allowed => .check fun _ => ?_
  split
  · exact .answerReg _
  refine .check fun _ => .check fun _ => .check fun _ => .check fun _ => ?_
  split
  · exact .answerReg _
  · exact .check fun given => .addRegistered (other_of_given low allowed given) _

theorem bufferText_short {text : Text} (short : text.length < 512) : bufferText text = text :=
  if_pos short

theorem regNewUserCommand_regraded (low : x.isAbove op q = false) (sCommand : Text) :
    Regraded cfg q x (x.regNewUserCommand cfg set op sCommand) := by
  unfold regNewUserCommand
  dsimp only
  refine .check fun allowed => .check fun long => .check fun _ => ?_
  split
  · exact .answerReg _
  rename_i profile named
  refine .check fun given => .check fun _ => .check fun _ => ?_
  refine Regraded.trans (.regNewUser ?_ _) (.reportReg _)
  -- The command is too short for the name of the profile to be cut off.
  rw [bufferText_short]
  · rw [named]
    exact fun same => other_of_given low allowed given (Option.some.inj same)
  · have whole : (cText (sCommand.drop 8)).length ≤ (sCommand.drop 8).length :=
      (List.takeWhile_sublist _).length_le
    rw [List.length_drop] at whole ⊢
    omega

theorem delRegUser_regraded (sCommand : Text) :
    Regraded cfg q x (x.delRegUser cfg set op sCommand) := by
  unfold delRegUser
  dsimp only
  refine .check fun _ => .check fun _ => .check fun _ => ?_
  split
  · exact .answerReg _
  · exact .check fun _ => (Regraded.delete _).trans (.reportReg _)

theorem updatePassword_profile (hashPasswords : Bool) (hashPassword : Text → Option Text)
    (r : RegUser) (pass : Text) :
    (r.updatePassword hashPasswords hashPassword pass).profile = r.profile ∧
      (r.updatePassword hashPasswords hashPassword pass).sNick = r.sNick := by
  unfold RegUser.updatePassword
  split
  · split
    · exact ⟨rfl, rfl⟩
    · exact ⟨rfl, rfl⟩
  · exact ⟨rfl, rfl⟩

theorem passwd_regraded (sCommand : Text) : Regraded cfg q x (x.passwd cfg set op sCommand) := by
  unfold passwd
  dsimp only
  split
  · exact .answerReg _
  rename_i r found
  refine .check fun _ => .check fun _ => .check fun _ => .check fun _ => ?_
  refine Regraded.trans (.setReg fun same nick own => ?_) (.answerReg _)
  obtain ⟨profile, sNick⟩ :=
    updatePassword_profile cfg.hashPasswords cfg.hashPassword r (sCommand.drop 7)
  rw [sNick] at own
  have holder := iequals_trans own (RegManager.iequals_of_find found)
  rw [findReg, RegManager.find_congr holder]
  rw [findReg] at found
  rw [found, ← same, profile]
  rfl

theorem makeTempOp_regraded {profile : UInt16} (other : profile ≠ q) (c : UserId) :
    Regraded cfg q x (x.makeTempOp cfg set c profile) := by
  have grade : Regraded cfg q x
      (x.modify c fun u => { u with operator := true, profile := profile.toNat }) := by
    refine .grade (fun has => absurd (UInt16.toNat_inj.mp ?_) other) ⟨_, _, rfl⟩
    exact Int.ofNat.inj has
  unfold makeTempOp
  exact .also (grade.trans (.sendAll _)) .enterOpChat

theorem keepKickReason_regraded {text : Text}
    (harmless : ∀ nick reason, kickMessage text = some (nick, reason) →
      cfg.profileIndex (cText (bufferText reason)) ≠ some q) :
    Regraded cfg q x (x.keepKickReason set op text) := by
  unfold keepKickReason
  split
  · exact .refl x
  split
  · exact .refl x
  rename_i nick reason message
  split
  · exact .refl x
  · exact .modify id rfl rfl rfl .inl fun names => absurd names (harmless nick reason message)

end

/-! ## The hub without the commands -/

section
variable {cfg : Config} {q : UInt16} {regs : RegManager} {h₀ x y : Hub} {a : Action} {d : UserId}

/-- The login has the profile only by a registration of `regs`, and after it has named its
nick. -/
def Ranked (regs : RegManager) (q : UInt16) (l : Login) : Prop :=
  l.profile = q.toNat →
    UserState.validate.toNat < l.state.toNat ∧ regProfile (regs.find l.sNick) = q.toNat

/-- Those who have the profile `q` had it from the beginning. -/
structure Graded (cfg : Config) (q : UInt16) (regs : RegManager) (h : Hub) : Prop where
  wf : WellFormed h
  table : ∀ nick, regProfile (h.findReg nick) = q.toNat → regProfile (regs.find nick) = q.toNat
  users : ∀ d, Ranked regs q (h.users d).login
  texts : ∀ d, (h.texts d).bind cfg.profileIndex ≠ some q

theorem Graded.regraded (graded : Graded cfg q regs x) (change : Regraded cfg q x y) :
    Graded cfg q regs y where
  wf := {
    unborn := fun c late => by
      rw [change.state, change.hashed]
      rw [change.nextUser] at late
      exact graded.wf.unborn c late
    table := fun nick c found => by
      rw [findUser, change.hash] at found
      rw [change.hashed]
      exact graded.wf.table nick c found
    settled := fun c live named done => by
      have before := graded.wf.settled c
      simp only [Login.Settled, User.login] at before live named done ⊢
      rw [change.state] at live named done
      rw [change.hashed]
      refine before live named ?_
      cases done with
      | inl done => exact change.waits c done
      | inr loggedIn => exact .inr loggedIn }
  table nick has := graded.table nick (change.regs nick has)
  users d has := by
    have before := graded.users d (change.profile d has)
    simp only [User.login] at before ⊢
    rw [change.state, change.nick]
    exact before
  texts d names := graded.texts d (change.texts d names)

/-- A step of a login without a change of the registrations. -/
theorem LoginStep.ranked {l l' : Login} (step : LoginStep cfg h₀ a x y d l l')
    (noChange : ¬ RegChange cfg h₀ a x y)
    (regs' : ∀ nick, regProfile (x.findReg nick) = q.toNat → regProfile (regs.find nick) = q.toNat)
    (ranked : Ranked regs q l) : Ranked regs q l' := by
  have early {P : Prop} (validate : l.state = .validate) (has : l.profile = q.toNat) : P := by
    have late := (ranked has).1
    rw [validate] at late
    exact absurd late (Nat.lt_irrefl _)
  cases step with
  | stay => exact ranked
  | grant profile operator change => exact absurd change noChange
  | fresh _ event new grown state hashed waiting profile =>
    intro has
    rw [profile] at has
    omega
  | shut _ past nick ip hashed profile =>
    intro has
    rw [profile] at has
    rw [nick]
    refine ⟨?_, (ranked has).2⟩
    simp only [UserState.isPastLogin, decide_eq_true_eq] at past
    exact Nat.lt_of_lt_of_le (by decide) past
  | handshake st pinger early => exact fun has => absurd (ranked has).1 (Nat.not_lt_of_le early)
  | name nick validate => exact early validate
  | enterFree validate => exact early validate
  | helloLater validate => exact early validate
  | ask r hashed validate => exact early validate
  | deadSocket validate => exact early validate
  | version state => exact fun has => ⟨Nat.lt_add_of_pos_right (Nat.succ_pos 1), (ranked has).2⟩
  | addMe st early late named hashed done user next =>
    intro has
    refine ⟨?_, (ranked has).2⟩
    rcases next with rfl | rfl
    · exact UserState.late_of_isLoggedIn rfl
    · exact UserState.late_of_isLoggedIn rfl
  | added state => exact fun has => ⟨UserState.late_of_isLoggedIn rfl, (ranked has).2⟩
  | advance st loggedIn stays =>
    exact fun has => ⟨UserState.late_of_isLoggedIn stays, (ranked has).2⟩
  | unwait state => exact ranked
  | pass r password state compared right reg =>
    intro has
    refine ⟨?_, regs' l.sNick ?_⟩
    · rw [state]
      decide
    · rw [reg]
      exact has
  | askReg event => exact ranked

/-- An action that gives nobody a profile. -/
theorem act_graded (graded : Graded cfg q regs x) (noReg : ∀ op, a ≠ .reg op)
    (noSelf : selfProfile cfg x a = none) : Graded cfg q regs (x.act cfg a) := by
  have noChange (z z' : Hub) : ¬ RegChange cfg x a z z' := by
    intro change
    cases change.event with
    | inl event =>
      obtain ⟨op, eq⟩ := event
      exact noReg op eq
    | inr event =>
      obtain ⟨c, p, own⟩ := event
      rw [noSelf] at own
      cases own
  have kept : WellFormed (x.act cfg a) ∧
      (∀ nick, regProfile ((x.act cfg a).findReg nick) = q.toNat →
        regProfile (regs.find nick) = q.toNat) ∧
      ∀ d, Ranked regs q ((x.act cfg a).users d).login := by
    apply (act_moves cfg graded.wf a).invariant (P := fun z => WellFormed z ∧
      (∀ nick, regProfile (z.findReg nick) = q.toNat → regProfile (regs.find nick) = q.toNat) ∧
      ∀ d, Ranked regs q (z.users d).login) ?_ ⟨graded.wf, graded.table, graded.users⟩
    rintro z z' ⟨wf, regs', users⟩ move
    refine ⟨move.wellFormed wf, fun nick has => ?_, fun d => ?_⟩
    · have same := move.sameProfiles.resolve_right (noChange z z')
      rw [same nick] at has
      exact regs' nick has
    · exact (move.login d).ranked (noChange z z') regs' (users d)
  refine ⟨kept.1, kept.2.1, kept.2.2, fun d => ?_⟩
  have texts : (x.act cfg a).texts d = x.texts d ∨ (x.act cfg a).texts d = none :=
    act_texts a noReg d
  cases texts with
  | inl same =>
    rw [same]
    exact graded.texts d
  | inr gone =>
    rw [gone]
    exact nofun

/-- The `$MyPass` of a user that gives itself the profile it has been offered. -/
theorem act_selfProfile {c : UserId} {p : UInt16} (own : selfProfile cfg x a = some (c, p)) :
    ∃ cmd name, (x.users c).state = .added ∧ x.texts c = some name ∧
      cfg.profileIndex name = some p ∧
      x.act cfg a =
        (x.modify c fun u => { u with waitingForPass := false }).registerMyself cfg c name cmd := by
  cases a with
  | command c' cmd answers =>
    simp only [selfProfile] at own
    split at own
    · rename_i checked
      simp only [Bool.and_eq_true, decide_eq_true_eq] at checked
      obtain ⟨⟨⟨⟨state, isMyPass⟩, waits⟩, long⟩, short⟩ := checked
      obtain ⟨profile, named, eq⟩ := Option.map_eq_some_iff.mp own
      obtain ⟨rfl, rfl⟩ := Prod.mk.inj eq
      obtain ⟨name, text, index⟩ := Option.bind_eq_some_iff.mp named
      refine ⟨cmd, name, state, text, index, ?_⟩
      have other : isCommand cmd "$MyINFO $ALL " = false := not_isCommand isMyPass (by decide)
      have five : ¬ cmd.length < 5 := by omega
      simp [act, preProcessData, state, five, preProcessAdded, other, isMyPass, waits, addedMyPass,
        text]
    · cases own
  | _ => simp [selfProfile] at own

theorem step_graded (graded : Graded cfg q regs x) (e : Event) (noReg : ∀ op, e.action ≠ .reg op) :
    Graded cfg q regs (step cfg x e) := by
  have before : Graded cfg q regs (x.advance e) := {
    wf := advance_wellFormed graded.wf e
    table := graded.table
    users := graded.users
    texts := graded.texts }
  unfold step
  cases own : selfProfile cfg (x.advance e) e.action with
  | none => exact act_graded before noReg own
  | some found =>
    obtain ⟨c, p⟩ := found
    obtain ⟨cmd, name, state, text, index, eq⟩ := act_selfProfile own
    have other : p ≠ q := by
      rintro rfl
      apply before.texts c
      rw [text]
      exact index
    have unwait : Regraded cfg q (x.advance e)
        ((x.advance e).modify c fun u => { u with waitingForPass := false }) :=
      .modify id rfl rfl rfl (fun _ => .inr (by rw [state]; rfl)) id
    rw [eq]
    exact before.regraded (unwait.trans (.registerMyself index other cmd))

end

end Hub

namespace Staff

open Hub

/-- What may give the profile `q`: an operation of a script, a registration by somebody above
it, a temporary operator if it is the profile of these, and a kick with its name for a reason. -/
def grants (cfg : Config) (q : UInt16) (s : Staff) : StaffEvent → Bool
  | .hub e => match e.action with
    | .reg _ => true
    | _ => false
  | .command op sCommand => match RegCommand.ofText sCommand with
    | some .addRegUser | some .regNewUser => s.hub.isAbove op q
    | some .op => cfg.profileIndex (ascii "Operator") = some q
    | some .delRegUser | some .passwd | none => false
  | .chat _ text =>
    (kickMessage text).any fun kick => cfg.profileIndex (cText (bufferText kick.2)) = some q

section
variable {cfg : Config} {set : RegSettings} {q : UInt16} {s : Staff}

theorem opCommand_regraded (other : cfg.profileIndex (ascii "Operator") ≠ some q) (op : UserId)
    (sCommand : Text) : Regraded cfg q s.hub (s.opCommand cfg set op sCommand).hub := by
  unfold opCommand
  dsimp only
  split
  · exact .answerReg _
  split
  · exact .answerReg _
  split
  · exact .answerReg _
  split
  · exact .answerReg _
  split
  · exact .answerReg _
  split
  · exact .answerReg _
  · rename_i profile named
    refine (makeTempOp_regraded ?_ _).trans (.reportReg _)
    rintro rfl
    exact other named

theorem doCommand_regraded {op : UserId} {sCommand : Text}
    (noGrant : grants cfg q s (.command op sCommand) = false) :
    Regraded cfg q s.hub (s.doCommand cfg set op sCommand).hub := by
  unfold doCommand
  cases kind : RegCommand.ofText sCommand with
  | none => exact .refl _
  | some k =>
    simp only [grants, kind] at noGrant
    cases k with
    | addRegUser => exact addRegUser_regraded noGrant sCommand
    | regNewUser => exact regNewUserCommand_regraded noGrant sCommand
    | delRegUser => exact delRegUser_regraded sCommand
    | op => exact opCommand_regraded (of_decide_eq_false noGrant) op sCommand
    | passwd => exact passwd_regraded sCommand

theorem step_graded {regs : RegManager} (graded : Graded cfg q regs s.hub) (e : StaffEvent)
    (noGrant : grants cfg q s e = false) : Graded cfg q regs (s.step cfg set e).hub := by
  cases e with
  | hub e =>
    apply Hub.step_graded graded e
    intro op eq
    simp [grants, eq] at noGrant
  | command op sCommand => exact graded.regraded (doCommand_regraded noGrant)
  | chat op text =>
    apply graded.regraded
    apply keepKickReason_regraded
    intro nick reason message
    simpa [grants, message] using noGrant

theorem start_graded (regs : RegManager) : Graded cfg q regs (start cfg regs).hub where
  wf := start_wellFormed regs
  table _ := id
  users _ has := absurd has (by simp [start, Hub.start, User.login])
  texts _ := nofun

end

/-- The profiles of a hub, the lowest number first. -/
def ranks : List Text := [ascii "Master", ascii "Operator", ascii "VIP", ascii "Reg"]

def ranked : Config :=
  { Config.plain with profileIndex := fun name => (ranks.idxOf? name).map UInt16.ofNat }

def free : RegSettings := ⟨fun _ _ => true, fun _ => [], false, false⟩

def bobJoins : List Event :=
  opEnters ++ joins 1 "$MyINFO $ALL bob x$ $56K$$0$|" ++ [⟨0, .sendLoop fun _ => .all⟩]

/-- The operator comes, and a user that it then registers. -/
def regsBob : List StaffEvent := bobJoins.map .hub ++ [.command 0 (ascii "reguser bob Reg")]

def bobPass : StaffEvent := .hub ⟨0, .command 1 (ascii "$MyPass pass|") {}⟩

-- The reason of a kick is kept where the name of the profile is: the operator makes a Master.
example : ((run (step ranked free) (start ranked twoRegs)
    (regsBob ++ [.chat 0 (ascii "is kicking bob because: Master|"), bobPass])).hub.users 1).profile
      = 0 := by
  decide +kernel

end Staff

end FlyHub.Session
