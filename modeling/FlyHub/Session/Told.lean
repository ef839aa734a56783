import FlyHub.Session.Entry
import FlyHub.Session.Password

/-!
# Every move keeps the list

Outside of `SendLoop` a move is calm, brings a user into the list, renews its MyINFO, or
closes a user. A close tells everyone, but for that of a ghost whose nick a QuickList user
takes.
-/

namespace FlyHub.Session

open FlyHub.Broadcast FlyHub.Lists FlyHub.Lib

namespace Hub

/-- A QuickList user takes its nick from a ghost that stands in the list: nobody is told
that the ghost leaves. -/
def hushes (cfg : Config) (h : Hub) (a : Action) : Bool :=
  match acceptedPass cfg h a with
  | some c => (h.users c).quickList && !(h.users c).hashed &&
      (h.findUser (h.users c).sNick).any fun other => (h.users other).state.isListed
  | none => false

section
variable {cfg : Config} {h₀ x y : Hub} {a : Action} {c d : UserId} {nick : Text}
  {due : UserId → List (QueueItem Msg)} {L : Text → Prop} {u v : User} {msgs : List Msg}

/-! ## Users -/

theorem foldl_put (u : User) (msgs : List Msg) : (msgs.foldl User.put u).sight =
    { u.sight with sendBuf := if u.state.isPastLogin then u.sendBuf else u.sendBuf ++ msgs } := by
  induction msgs generalizing u with
  | nil => simp [User.sight]
  | cons msg msgs ih =>
    rw [List.foldl_cons, ih]
    unfold User.put
    cases past : u.state.isPastLogin with
    | true => simp [past, User.sight]
    | false => simp [past, User.sight]

/-- Messages for one user. While it is not in the list they are about itself. -/
theorem calmUser_put
    (listed : u.state.isListed = true → ∀ nick, ¬ cfg.IsBot nick →
      told nick msgs = none ∨ told nick msgs = some true ∧ L nick)
    (own : u.state.isPastLogin = false → u.state ≠ .added → u.pinger = false →
      ∀ nick, ¬ cfg.IsBot nick → ∀ b, told nick msgs = some b →
        b = true ∧ nick = u.sNick ∧ UserState.versionOrMyPass.toNat ≤ u.state.toNat) :
    CalmUser cfg L u (msgs.foldl User.put u) := by
  have after := foldl_put u msgs
  generalize msgs.foldl User.put u = v at after
  simp only [User.sight, Sight.mk.injEq] at after
  obtain ⟨state, sNick, pinger, news, long, short, cmdList, sendBuf⟩ := after
  refine ⟨⟨?_, fun _ => ⟨sNick, long, short⟩, fun modest => ?_⟩, ?_, fun inList => ?_⟩
  · rw [state]
  · refine ⟨?_, ?_, ?_, ?_, ?_, ?_⟩
    · rw [sNick]
      exact modest.valid
    · rw [state, pinger]
      exact modest.user
    · rw [state, long, short]
      exact modest.infos
    · rw [state, news]
      exact modest.news
    · rw [state, cmdList]
      exact modest.hello
    · rw [state, pinger, sNick]
      intro live waits user nick human b last
      rw [sendBuf, live, if_neg Bool.false_ne_true, told_append] at last
      cases new : told nick msgs with
      | some w =>
        rw [new, Option.some_or] at last
        exact own live waits user nick human b (new.trans last)
      | none =>
        rw [new, Option.none_or] at last
        exact modest.own live waits user nick human b last
  · rw [state]
    exact id
  · refine ⟨msgs, ?_, listed inList⟩
    rw [sendBuf, live_of_isListed inList, if_neg Bool.false_ne_true]

/-- A step that leaves the state, the nick, the MyINFOs and the buffer alone. -/
theorem calmUser_same (state : v.state = u.state) (sNick : v.sNick = u.sNick)
    (infos : (v.myInfoLong, v.myInfoShort) = (u.myInfoLong, u.myInfoShort))
    (sendBuf : v.sendBuf = u.sendBuf) (modest : Modest cfg u → Modest cfg v) :
    CalmUser cfg L u v := by
  rw [Prod.mk.injEq] at infos
  refine ⟨⟨by rw [state], fun _ => ⟨sNick, infos⟩, modest⟩, fun added => state.symm.trans added,
    fun _ => ⟨[], ?_, fun _ _ => .inl rfl⟩⟩
  rw [sendBuf, List.append_nil]

/-- Messages that tell of no user. -/
theorem calmUser_silent (silent : ∀ nick, ¬ cfg.IsBot nick → told nick msgs = none) :
    CalmUser cfg L u (msgs.foldl User.put u) := by
  apply calmUser_put
  · exact fun _ nick human => .inl (silent nick human)
  · intro _ _ _ nick human b last
    rw [silent nick human] at last
    cases last

theorem unlisted_of_early {s : UserState} (early : s.toNat ≤ UserState.addMe1Loop.toNat) :
    s.isPastLogin = false ∧ s.isListed = false := by
  cases s <;> simp_all [UserState.isListed, UserState.isPastLogin, UserState.toNat]

/-- A step on the way into the list. -/
theorem calmUser_advance {st : UserState} {nick : Text} {pinger : Bool} {cmds : List PrcsdUsrCmd}
    (after : v.sight =
      { u.sight with state := st, sNick := nick, pinger := pinger, cmdList := cmds })
    (early : u.state.toNat ≤ UserState.addMe1Loop.toNat)
    (early' : st.toNat ≤ UserState.addMe1Loop.toNat)
    (valid : ValidNick u.sNick → ValidNick nick)
    (rank : UserState.versionOrMyPass.toNat ≤ u.state.toNat →
      UserState.versionOrMyPass.toNat ≤ st.toNat ∧ nick = u.sNick)
    (hello : PrcsdUsrCmd.loginHello ∈ cmds →
      PrcsdUsrCmd.loginHello ∈ u.cmdList ∨ UserState.versionOrMyPass.toNat ≤ st.toNat)
    (grows : u.pinger = true → pinger = true)
    (user : st.isLoggedIn = true → u.state.isLoggedIn = true ∧ pinger = u.pinger ∨ pinger = false) :
    CalmUser cfg L u v := by
  obtain ⟨live, unlisted⟩ := unlisted_of_early early
  obtain ⟨live', unlisted'⟩ := unlisted_of_early early'
  simp only [User.sight, Sight.mk.injEq] at after
  obtain ⟨rfl, rfl, rfl, news, long, short, rfl, sendBuf⟩ := after
  refine ⟨⟨unlisted'.trans unlisted.symm, fun listed => ?_, fun modest => ?_⟩,
    fun added => ?_, fun listed => ?_⟩
  · rw [unlisted] at listed
    cases listed
  · refine ⟨valid modest.valid, fun loggedIn => ?_, fun _ _ => ?_, fun _ new => ?_,
      fun _ mem => ?_, fun _ _ user nick human b last => ?_⟩
    · rcases user loggedIn with ⟨before, same⟩ | done
      · exact same.trans (modest.user before)
      · exact done
    · rw [long, short]
      exact modest.infos live unlisted
    · rw [news] at new
      have listed := modest.news live new
      rw [unlisted] at listed
      cases listed
    · rcases hello mem with old | late
      · exact (rank (modest.hello live old)).1
      · exact late
    · rw [sendBuf] at last
      have user' : u.pinger = false := by
        cases pinger : u.pinger with
        | false => rfl
        | true => exact absurd (grows pinger) (by simp [user])
      have waits : u.state ≠ .added := fun added => by simp [isListed_of_added added] at unlisted
      have own := modest.own live waits user' nick human b last
      have later := rank own.2.2
      exact ⟨own.1, own.2.1.trans later.2.symm, later.1⟩
  · rw [isListed_of_added added] at unlisted'
    cases unlisted'
  · rw [unlisted] at listed
    cases listed

/-- A step to a later state before the list. -/
theorem calmUser_goesOn (st : UserState) (after : v.sight = { u.sight with state := st })
    (later : u.state.toNat ≤ st.toNat) (early : st.toNat ≤ UserState.addMe1Loop.toNat)
    (user : st.isLoggedIn = true → u.state.isLoggedIn = true ∨ u.pinger = false) :
    CalmUser cfg L u v := by
  apply calmUser_advance after (Nat.le_trans later early) early id
  · exact fun late => ⟨Nat.le_trans late later, rfl⟩
  · exact .inl
  · exact id
  · exact fun loggedIn => (user loggedIn).imp_left fun before => ⟨before, rfl⟩

/-- A nick is named. -/
theorem calmUser_name {nick : Text} (after : v.sight = { u.sight with sNick := nick })
    (validate : u.state = .validate) (valid : ValidNick nick) : CalmUser cfg L u v := by
  have early : u.state.toNat ≤ UserState.addMe1Loop.toNat := by rw [validate]; decide
  apply calmUser_advance after early early fun _ => valid
  · intro late
    rw [validate] at late
    exact absurd late (by decide)
  · exact .inl
  · exact id
  · exact fun loggedIn => .inl ⟨loggedIn, rfl⟩

/-- The nick that has been named is kept. -/
theorem calmUser_named {cmds : List PrcsdUsrCmd}
    (after : v.sight = { u.sight with state := .versionOrMyPass, cmdList := cmds })
    (validate : u.state = .validate) : CalmUser cfg L u v := by
  apply calmUser_advance after (by rw [validate]; decide) (by decide) id
  · exact fun _ => ⟨Nat.le_refl _, rfl⟩
  · exact fun _ => .inr (Nat.le_refl _)
  · exact id
  · exact fun loggedIn => by cases loggedIn

/-! ## Small moves -/

theorem Scene.modify (scene : x.Scene cfg due) {f : User → User}
    (self : CalmUser cfg x.Listed (x.users c) (f (x.users c))) : (x.modify c f).Scene cfg due :=
  scene.calm (calm_modify self)

theorem Scene.sendAll (scene : x.Scene cfg due)
    (silent : ∀ nick, ¬ cfg.IsBot nick → told nick msgs = none) :
    (x.sendAll c msgs).Scene cfg due := by
  rw [sendAll_eq]
  exact scene.modify (calmUser_silent silent)

theorem Scene.send (scene : x.Scene cfg due) {msg : Msg} (plain : msg.IsPlain) :
    (x.send c msg).Scene cfg due :=
  scene.modify (calmUser_silent fun _ _ => told_singleton.trans (tells_plain plain))

/-- A pinger may be told of everyone, as it never comes into the list. -/
theorem Scene.sendPinger (scene : x.Scene cfg due) (pinger : (x.users c).pinger = true) :
    (x.sendAll c msgs).Scene cfg due := by
  rw [sendAll_eq]
  apply scene.modify
  apply calmUser_put
  · intro listed
    have loggedIn : (x.users c).state.isLoggedIn = true := by
      cases state : (x.users c).state <;>
        simp_all [UserState.isListed, UserState.isLoggedIn, UserState.toNat]
    have user := (scene.modest c).user loggedIn
    rw [pinger] at user
    cases user
  · intro _ _ user
    rw [pinger] at user
    cases user

/-- A user is told of itself. -/
theorem Scene.sendOwn (scene : x.Scene cfg due)
    (own : ∀ nick b, told nick msgs = some b → b = true ∧ nick = (x.users c).sNick ∧
      ((x.users c).state.isPastLogin = false →
        UserState.versionOrMyPass.toNat ≤ (x.users c).state.toNat)) :
    (x.sendAll c msgs).Scene cfg due := by
  rw [sendAll_eq]
  apply scene.modify
  apply calmUser_put
  · intro listed nick human
    cases last : told nick msgs with
    | none => exact .inl rfl
    | some b =>
      obtain ⟨rfl, rfl, -⟩ := own nick b last
      exact .inr ⟨rfl, listed_of_user listed⟩
  · intro live _ _ nick human b last
    obtain ⟨eq, same, late⟩ := own nick b last
    exact ⟨eq, same, late live⟩

/-- What `ProcessCmds` says for a command it has kept. -/
def cmdMsg (own : Text) : PrcsdUsrCmd → Msg
  | .supports => .supports
  | .loginHello => .hello own
  | .getPass => .getPass

theorem foldl_processCmd (cmds : List PrcsdUsrCmd) {own : Text} (same : (x.users c).sNick = own) :
    cmds.foldl (fun h cmd => h.processCmd c cmd) x = x.sendAll c (cmds.map (cmdMsg own)) := by
  induction cmds generalizing x with
  | nil => rfl
  | cons cmd cmds ih =>
    have one : x.processCmd c cmd = x.send c (cmdMsg own cmd) := by
      rw [← same]
      cases cmd <;> rfl
    rw [List.foldl_cons, one, ih]
    · rfl
    · exact (congrArg Login.sNick (send_login _)).trans same

theorem Scene.flush (scene : x.Scene cfg due) : (x.flush c).Scene cfg due := by
  have emptied : (x.modify c fun u => { u with cmdList := [] }).Scene cfg due := by
    apply scene.modify
    refine calmUser_same rfl rfl rfl rfl fun modest => ?_
    exact ⟨modest.valid, modest.user, modest.infos, modest.news,
      fun _ mem => absurd mem List.not_mem_nil, modest.own⟩
  have hello := (scene.modest c).hello
  have same : ((x.modify c fun u => { u with cmdList := [] }).users c).sNick =
      (x.users c).sNick := by rw [modify_self]
  have state : ((x.modify c fun u => { u with cmdList := [] }).users c).state =
      (x.users c).state := by rw [modify_self]
  unfold Hub.flush
  rw [foldl_processCmd _ same]
  apply emptied.sendOwn
  intro nick b last
  rw [same, state]
  obtain ⟨msg, mem, tells⟩ := exists_of_latest last
  obtain ⟨cmd, inside, rfl⟩ := List.mem_map.mp mem
  cases cmd with
  | supports => cases tells
  | getPass => cases tells
  | loginHello =>
    simp only [cmdMsg, Msg.tells] at tells
    split at tells
    · rename_i eq
      exact ⟨(Option.some.inj tells).symm, eq.symm, fun live => hello live inside⟩
    · cases tells

/-- A user is closed after it has been told something. -/
theorem Scene.shut (scene : x.Scene cfg due) {f : User → User}
    (same : ∀ u, (f u).core.toClose = u.core.toClose) (plain : ∀ msg ∈ msgs, Msg.IsPlain msg)
    (cut : (x.users c).state.isListed = true →
      Deletable nickListWord (readNickList x.nickList) (x.users c).sNick) :
    (((x.modify c f).sendAll c msgs).close cfg c).Scene cfg due := by
  have kept := same (x.users c)
  have said : ((x.modify c f).sendAll c msgs).Scene cfg due := by
    apply Scene.sendAll
    · apply scene.modify
      apply calmUser_of_sight
      simp only [Core.toClose, User.core, Core.mk.injEq] at kept
      simp only [User.sight, kept]
    · exact fun _ _ => told_plain plain
  have login : (((x.modify c f).sendAll c msgs).users c).login = (f (x.users c)).login := by
    rw [sendAll_login, modify_self]
  have state : (((x.modify c f).sendAll c msgs).users c).state = (x.users c).state :=
    (congrArg Login.state login).trans (congrArg Core.state kept)
  have nick : (((x.modify c f).sendAll c msgs).users c).sNick = (x.users c).sNick :=
    (congrArg Login.sNick login).trans (congrArg Core.sNick kept)
  have list : ((x.modify c f).sendAll c msgs).nickList = x.nickList := by
    rw [sendAll_eq]
    rfl
  apply said.closeWith
  intro listed
  rw [state] at listed
  rw [nick, list]
  exact ⟨rfl, cut listed⟩

/-! ## Moves -/

theorem loggedIn_of_isListed {s : UserState} (listed : s.isListed = true) :
    s.isLoggedIn = true := by
  cases s <;> simp_all [UserState.isListed, UserState.isLoggedIn, UserState.toNat]

/-- Nobody in the list has the nick of a hashed user that is not. -/
theorem fresh_of_online (wf : WellFormed x) (index : x.Indexed) (online : x.Online c)
    (unlisted : (x.users c).state.isListed = false) : ¬ x.Listed (x.users c).sNick := by
  rintro ⟨d, listed, same⟩
  have other := (index.nick (x.users c).sNick d).mpr
    ⟨loggedIn_online wf (loggedIn_of_isListed listed), same⟩
  have own := (index.nick (x.users c).sNick c).mpr ⟨online, rfl⟩
  rw [Option.some.inj (other.symm.trans own), unlisted] at listed
  cases listed

theorem validNick_of_legal (legal : illegalCharacter nick = none) : ValidNick nick := by
  unfold illegalCharacter at legal
  cases found : nick.find? fun c => c = 32 || c = 36 || c = 124 || c < 32 with
  | some c =>
    rw [found] at legal
    dsimp only at legal
    split at legal <;> cases legal
  | none =>
    intro c mem
    have none_ := List.find?_eq_none.mp found c mem
    simp only [Bool.or_eq_true, decide_eq_true_eq, not_or] at none_
    exact ⟨none_.1.1.1, none_.1.1.2, none_.1.2⟩

/-- The nick is taken, from its ghost if there is one. -/
theorem Scene.takeNick (scene : x.Scene cfg due)
    (fair : ∀ other, (x.users c).hashed = false → x.findUser (x.users c).sNick = some other →
      (x.users other).state.isListed = true → (x.users c).quickList = false ∧
        Deletable nickListWord (readNickList x.nickList) (x.users other).sNick) :
    (x.takeNick cfg c).Scene cfg due := by
  unfold Hub.takeNick
  split
  · exact scene
  · rename_i new
    have new : (x.users c).hashed = false := by simpa using new
    dsimp only
    have entered (z : Hub) (closed : z.Scene cfg due) :
        ((z.hashAdd c).modify c fun u => { u with hashed := true }).Scene cfg due := by
      apply Scene.modify
      · exact closed.calm (calm_of_tables ⟨rfl, rfl, rfl, rfl⟩ rfl)
      · exact calmUser_of_sight rfl
    apply entered
    cases holder : x.findUser (x.users c).sNick with
    | none => exact scene
    | some other => exact scene.closeWith _ (fair other new holder)

theorem Scene.modifyOnline (scene : x.Scene cfg due) (sNick : Text) {f : User → User}
    (same : ∀ u, (f u).sight = u.sight) : (x.modifyOnline sNick f).Scene cfg due := by
  unfold Hub.modifyOnline
  split
  · exact scene.modify (calmUser_of_sight (same _))
  · exact scene

theorem Scene.reg (scene : x.Scene cfg due) (change : RegChange cfg h₀ a x y) :
    y.Scene cfg due := by
  cases change with
  | add r =>
    have made : (x.setReg r).Scene cfg due :=
      scene.calm (calm_of_tables ⟨rfl, rfl, rfl, rfl⟩ rfl)
    exact made.modifyOnline _ fun _ => rfl
  | change r =>
    have made : (x.setReg r).Scene cfg due :=
      scene.calm (calm_of_tables ⟨rfl, rfl, rfl, rfl⟩ rfl)
    apply made.modifyOnline
    intro u
    unfold User.changeProfile
    split <;> rfl
  | delete r =>
    have made := scene.modifyOnline r.sNick (f := User.loseProfile) fun _ => rfl
    exact made.calm (calm_of_tables ⟨rfl, rfl, rfl, rfl⟩ rfl)
  | self c => exact scene.modify (calmUser_of_sight rfl)

/-- The user in question is at no other place than where its move finds it. -/
theorem Move.scene (move : Move cfg h₀ a x y) (wf : WellFormed x) (index : x.Indexed)
    (noLoop : ∀ results, a ≠ .sendLoop results)
    (noChange : ∀ nick pass profile, a ≠ .reg (.changeReg nick pass profile))
    (heard : hushes cfg h₀ a = false)
    (cut : ∀ c, (x.users c).state.isListed = true → (y.users c).state.isPastLogin = true →
      Deletable nickListWord (readNickList x.nickList) (x.users c).sNick)
    (scene : x.Scene cfg due) : y.Scene cfg due := by
  cases move with
  | adjust c f same => exact scene.modify (calmUser_of_sight (sight_of_core (same _)))
  | send c msg plain => exact scene.send plain
  | opChat c msgs bot =>
    exact scene.sendAll fun nick human =>
      told_none.mpr fun msg mem => tells_opChat (bot msg mem) human
  | pingerLists c msgs pinger => exact scene.sendPinger pinger
  | flush c => exact scene.flush
  | shut c f msgs same plain =>
    exact scene.shut same plain fun listed => cut c listed (closeWith_past false c)
  | handshake c f st pinger early stays grows core =>
    apply scene.modify
    apply calmUser_advance (congrArg Core.sight core) (Nat.le_trans early (by decide))
      (Nat.le_trans stays (by decide)) id
    · exact fun late => absurd (Nat.le_trans late early) (by decide)
    · exact .inl
    · exact grows
    · exact fun loggedIn => absurd stays (Nat.not_le.mpr (UserState.late_of_isLoggedIn loggedIn))
  | queueCmd c cmd other =>
    apply scene.modify
    refine calmUser_same rfl rfl rfl rfl fun modest => ?_
    refine ⟨modest.valid, modest.user, modest.infos, modest.news, fun live mem => ?_, modest.own⟩
    cases List.mem_append.mp mem with
    | inl old => exact modest.hello live old
    | inr last => exact absurd (List.mem_singleton.mp last).symm other
  | name c nick validate named same legal =>
    exact scene.modify (calmUser_name rfl validate (validNick_of_legal legal))
  | enterFree c =>
    have same : ((x.modify c fun u => { u with pBan := none, hashed := true })).Scene cfg due :=
      scene.modify (calmUser_of_sight rfl)
    exact same.calm (calm_of_tables ⟨rfl, rfl, rfl, rfl⟩ enterFree_users)
  | helloLater c validate =>
    have named : (x.modify c fun u => { u with
        state := .versionOrMyPass, cmdList := u.cmdList ++ [.loginHello] }).Scene cfg due :=
      scene.modify (calmUser_named rfl validate)
    exact named.calm (calm_of_tables ⟨rfl, rfl, rfl, rfl⟩ helloLater_users)
  | enterReg c r validate =>
    have named : (x.modify c fun u => { u with
        pBan := none, hashed := true, state := .versionOrMyPass, waitingForPass := true
        cmdList := u.cmdList ++ [.getPass] }).Scene cfg due :=
      scene.modify (calmUser_named rfl validate)
    exact named.calm (calm_of_tables ⟨rfl, rfl, rfl, rfl⟩ enterReg_users)
  | awaitPass c r validate =>
    have named : (x.modify c fun u => { u with
        pBan := none, state := .versionOrMyPass, waitingForPass := true
        cmdList := u.cmdList ++ [.getPass] }).Scene cfg due :=
      scene.modify (calmUser_named rfl validate)
    exact named.calm (calm_of_tables ⟨rfl, rfl, rfl, rfl⟩ awaitPass_users)
  | deadSocket c other =>
    have dropped : (x.dropBan c).Scene cfg due := scene.modify (calmUser_of_sight rfl)
    have broken : ((x.dropBan c).modify other fun u => { u with error := true }).Scene cfg due :=
      dropped.modify (calmUser_of_sight rfl)
    have same : (((x.dropBan c).modify other fun u => { u with error := true }).users other).sight =
        (x.users other).sight := by
      rw [modify_self, dropBan, modify_users]
      split
      · rename_i eq
        rw [eq]
        rfl
      · rfl
    apply broken.closeWith
    intro listed
    have state := congrArg Sight.state same
    have nick := congrArg Sight.sNick same
    simp only [User.sight] at state nick
    rw [state] at listed
    rw [nick]
    exact ⟨rfl, cut other listed (closeWith_past false other)⟩
  | version c state =>
    apply scene.modify
    exact calmUser_goesOn .getNickListOrMyInfo rfl (by rw [state]; decide) (by decide)
      fun loggedIn => by cases loggedIn
  | addMe c st early late named hashed done user next =>
    apply scene.modify
    have later : UserState.ipv4Check.toNat ≤ st.toNat ∧ st.toNat ≤ UserState.addMe1Loop.toNat := by
      rcases next with rfl | rfl <;> decide
    exact calmUser_goesOn st rfl (Nat.le_trans (Nat.le_trans late (by decide)) later.1) later.2
      fun _ => .inr user
  | ipv4Done c f state core =>
    apply scene.modify
    exact calmUser_goesOn .addMe (congrArg Core.sight core) (by rw [state]; decide) (by decide)
      fun _ => .inl (by rw [state]; rfl)
  | firstLoop c state =>
    apply scene.modify
    exact calmUser_goesOn .addMe1Loop rfl (by rw [state]; decide) (by decide)
      fun _ => .inl (by rw [state]; rfl)
  | enlist c state =>
    apply scene.renewal (enlist_renewal scene state)
    intro unlisted
    apply fresh_of_online wf index (loggedIn_online wf _) unlisted
    rw [state]
    rfl
  | newInfo c state =>
    apply scene.modify
    refine calmUser_same rfl rfl rfl rfl fun modest => ?_
    exact ⟨modest.valid, modest.user, modest.infos, fun _ _ => isListed_of_added state,
      modest.hello, modest.own⟩
  | refresh c isDue live new =>
    have listed := (scene.modest c).news live new
    have noted : (x.modify c fun u => { u with prcsdMyInfo := false }).Scene cfg due := by
      apply scene.modify
      refine calmUser_same rfl rfl rfl rfl fun modest => ?_
      exact ⟨modest.valid, modest.user, modest.infos,
        fun _ none_ => absurd none_ Bool.false_ne_true, modest.hello, modest.own⟩
    have listed' : ((x.modify c fun u => { u with prcsdMyInfo := false }).users c).state.isListed =
        true := by
      rw [modify_self]
      exact listed
    apply noted.renewal (refreshMyInfo_renewal listed' isDue)
    intro unlisted
    rw [listed'] at unlisted
    cases unlisted
  | unwait c | askReg c | askAgain c => exact scene.modify (calmUser_of_sight rfl)
  | pass c r password items compared right same self =>
    have passed : (x.passed cfg c r items).Scene cfg due := by
      have changed : (x.modify c fun u =>
          { u with
            waitingForPass := false
            profile := r.profile.toNat
            operator :=
              cfg.profiles.isProfileAllowed r.profile.toNat .hasKeyIcon }).Scene cfg due :=
        scene.modify (calmUser_of_sight rfl)
      exact changed.calm (calm_of_tables ⟨rfl, rfl, rfl, rfl⟩ (passed_users r items))
    have state : (x.users c).state = .versionOrMyPass := by
      rw [same]
      exact compared.state
    have own : ((x.passed cfg c r items).users c).hashed = (x.users c).hashed ∧
        ((x.passed cfg c r items).users c).sNick = (x.users c).sNick ∧
        ((x.passed cfg c r items).users c).quickList = (x.users c).quickList := by
      rw [passed_users, modify_self]
      exact ⟨rfl, rfl, rfl⟩
    apply passed.takeNick
    intro other new holder listed
    rw [own.1] at new
    rw [own.2.1] at holder
    have differs : other ≠ c := by
      rintro rfl
      rw [passed_users, modify_self] at listed
      simp only [state] at listed
      cases listed
    have kept : (x.passed cfg c r items).users other = x.users other := by
      rw [passed_users, modify_ne differs]
    rw [kept] at listed ⊢
    rw [own.2.2]
    constructor
    · have accepted : acceptedPass cfg h₀ a = some c := acceptedPass_of_compared compared right
      rw [hushes, accepted, ← same] at heard
      have holder : x.findUser (x.users c).sNick = some other := holder
      simpa [new, holder, listed] using heard
    · apply cut other listed
      have closed : ((x.passed cfg c r items).takeNick cfg c).users other =
          ((x.passed cfg c r items).closeWith cfg other
            ((x.passed cfg c r items).users c).quickList).users other := by
        have found : (x.passed cfg c r items).findUser
            ((x.passed cfg c r items).users c).sNick = some other := by
          rw [own.2.1]
          exact holder
        unfold Hub.takeNick
        rw [own.1, new, if_neg Bool.false_ne_true, found]
        dsimp only
        rw [modify_ne differs]
        rfl
      rw [closed]
      exact closeWith_past _ other
  | notePass c r => exact scene.calm (calm_of_tables ⟨rfl, rfl, rfl, rfl⟩ rfl)
  | hello c state =>
    have own : (x.sendAll c [.hello (x.users c).sNick]).Scene cfg due := by
      apply scene.sendOwn
      intro nick b last
      rw [told_hello] at last
      split at last
      · rename_i eq
        exact ⟨(Option.some.inj last).symm, eq.symm, fun _ => by rw [state]⟩
      · cases last
    exact own
  | bans | passwdBf => exact scene.calm (calm_of_tables ⟨rfl, rfl, rfl, rfl⟩ rfl)
  | reg change => exact scene.reg change
  | keyLost c event =>
    obtain ⟨nick, pass, profile, eq⟩ := event
    exact absurd eq (noChange nick pass profile)
  | post eCmdType text text1 =>
    have queue : (x.addQueueItem eCmdType [.other text] [.other text1]).queue.newQueueItems =
        x.queue.newQueueItems ++ [⟨eCmdType, [.other text], [.other text1]⟩] := rfl
    refine scene.posts ⟨rfl, rfl, rfl⟩ rfl queue ?_
    intro nick v b last
    obtain ⟨msg, mem, tells⟩ := exists_of_latest last
    rw [delivered_singleton] at mem
    rcases itemData_mem mem with first | second
    · rw [List.mem_singleton.mp first] at tells
      cases tells
    · rw [List.mem_singleton.mp second] at tells
      cases tells
  | accept u fresh =>
    have unborn := (wf.unborn x.nextUser (Nat.le_refl _)).1
    have sight := congrArg Core.sight fresh
    apply scene.calm
    refine calm_of_user (c := x.nextUser) ⟨rfl, rfl, rfl, rfl⟩ ?_ ?_
    · simp only [newUser, Function.update_self]
      have unlisted : (x.users x.nextUser).state.isListed = false := by
        cases listed : (x.users x.nextUser).state.isListed with
        | false => rfl
        | true => exact absurd unborn (by simp [live_of_isListed listed])
      simp only [Core.sight, Sight.mk.injEq] at sight
      obtain ⟨state, sNick, pinger, news, long, short, cmdList, sendBuf⟩ := sight
      have state : u.state = .socketAccepted := state
      refine ⟨⟨?_, fun listed => ?_, fun _ => ?_⟩, fun added => ?_, fun listed => ?_⟩
      · rw [state, unlisted]
        rfl
      · rw [unlisted] at listed
        cases listed
      · refine ⟨?_, ?_, fun _ _ => ⟨long, short⟩, ?_, ?_, ?_⟩
        · have nick : u.sNick = [] := sNick
          rw [nick]
          exact fun c mem => absurd mem List.not_mem_nil
        · exact fun _ => pinger
        · intro _ new
          have none_ : u.prcsdMyInfo = false := news
          rw [none_] at new
          cases new
        · intro _ mem
          have none_ : u.cmdList = [] := cmdList
          rw [none_] at mem
          cases mem
        · intro _ _ _ nick _ b last
          have none_ : u.sendBuf = [] := sendBuf
          rw [none_] at last
          cases last
      · rw [state] at added
        cases added
      · rw [unlisted] at listed
        cases listed
    · exact fun d differs => Function.update_of_ne differs ..
  | endClosing c state =>
    apply scene.modify
    refine ⟨⟨by rw [state]; rfl, fun listed => ?_, fun modest => ?_⟩, fun added => ?_,
      fun listed => ?_⟩
    · rw [state] at listed
      cases listed
    · exact modest_of_past rfl modest.valid
    · cases added
    · rw [state] at listed
      cases listed
  | remove c => exact scene.calm (calm_of_tables ⟨rfl, rfl, rfl, rfl⟩ rfl)
  | round _ event | roundSend _ _ event | roundAdd _ _ event =>
    obtain ⟨results, eq⟩ := event
    exact absurd eq (noLoop results)

/-! ## A changed registration -/

theorem Scene.enterOpChat (scene : x.Scene cfg due) (c : UserId) :
    (x.enterOpChat cfg c).Scene cfg due := by
  unfold Hub.enterOpChat
  cases chat : cfg.opChatNick with
  | none => exact scene
  | some bot =>
    apply scene.sendAll
    intro nick human
    apply told_none.mpr
    intro msg mem
    apply tells_opChat _ human
    rcases List.mem_append.mp mem with hello | rest
    · split at hello
      · cases hello
      · exact .inr ⟨bot, chat, .inl (List.mem_singleton.mp hello)⟩
    · rcases List.mem_cons.mp rest with info | other
      · exact .inr ⟨bot, chat, .inr (.inl info)⟩
      · rw [List.mem_singleton.mp other]
        exact .inl trivial

theorem Scene.leaveOpChat (scene : x.Scene cfg due) (c : UserId) :
    (x.leaveOpChat cfg c).Scene cfg due := by
  unfold Hub.leaveOpChat
  cases chat : cfg.opChatNick with
  | none => exact scene
  | some bot =>
    have left : (x.sendAll c [.quit bot]).Scene cfg due := by
      apply scene.sendAll
      intro nick human
      exact told_singleton.trans (tells_opChat (.inr ⟨bot, chat, .inr (.inr rfl)⟩) human)
    exact left

theorem Scene.grantChanged (scene : x.Scene cfg due) (wf : WellFormed x) (index : x.Indexed)
    (online : x.Online c) (profile : UInt16) : (x.grantChanged cfg c profile).Scene cfg due := by
  have same : ((x.users c).changeProfile cfg profile).sight = (x.users c).sight := by
    unfold User.changeProfile
    split <;> rfl
  have calm : Calm cfg x (x.modify c fun u => u.changeProfile cfg profile) :=
    calm_modify (calmUser_of_sight same)
  have state := congrArg Sight.state same
  have nick := congrArg Sight.sNick same
  simp only [User.sight] at state nick
  have changed := scene.calm calm
  have lost : ((x.modify c fun u => u.changeProfile cfg profile).tellKeyLost cfg c).Scene
      cfg due := by
    apply changed.tellKeyLost
    · rw [modify_self, state]
      exact online.1
    · rw [modify_self, state, nick, calm.listed]
      exact fresh_of_online wf index online
  have chat (z : Hub) (kept : z.Scene cfg due) (p : Prop) [Decidable p] (b : Bool) :
      (if p then z else if b then z.enterOpChat cfg c else z.leaveOpChat cfg c).Scene cfg due := by
    split
    · exact kept
    split
    · exact kept.enterOpChat c
    · exact kept.leaveOpChat c
  unfold Hub.grantChanged
  dsimp only
  split
  · exact scene
  split
  · exact chat _ lost _ _
  · exact chat _ changed _ _

theorem Scene.changeReg (scene : x.Scene cfg due) (wf : WellFormed x) (index : x.Indexed)
    (r : RegUser) (sNewPasswd : Option Text) (profile : UInt16) :
    (x.changeReg cfg r sNewPasswd profile).Scene cfg due := by
  have made (s : RegUser) : (x.setReg s).Scene cfg due :=
    scene.calm (calm_of_tables ⟨rfl, rfl, rfl, rfl⟩ rfl)
  unfold Hub.changeReg
  dsimp only
  split
  · exact made _
  · rename_i c found
    have online : x.Online c := ((index.nick _ c).mp found).1
    exact (made _).grantChanged ⟨wf.unborn, wf.table, wf.settled⟩
      (index.of_keys rfl fun _ => rfl) online profile

end

end Hub

end FlyHub.Session
