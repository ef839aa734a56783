import FlyHub.Session.Roster

/-!
# What the users in the list have been told

A user in `ADDED` has been sent the lists once and is sent every broadcast after that. What
it knows when the broadcasts that wait have reached it too is the list. A user that is not
there yet has been told of nobody but itself.
-/

namespace FlyHub.Session

open FlyHub.Broadcast FlyHub.Lists FlyHub.Lib

/-- What of the broadcasts reaches a user. -/
def delivered (cfg : Config) (u : QueueUser) (items : List (QueueItem Msg)) : List Msg :=
  items.flatMap (itemData matchExtJson u (u.queueBits cfg.queueSettings))

/-- What of a user bears on who is in the list and what is known of it. -/
structure Sight where
  state : UserState
  sNick : Text
  pinger : Bool
  prcsdMyInfo : Bool
  myInfoLong : Option MyInfo
  myInfoShort : Option MyInfo
  cmdList : List PrcsdUsrCmd
  sendBuf : List Msg

def User.sight (u : User) : Sight where
  state := u.state
  sNick := u.sNick
  pinger := u.pinger
  prcsdMyInfo := u.prcsdMyInfo
  myInfoLong := u.myInfoLong
  myInfoShort := u.myInfoShort
  cmdList := u.cmdList
  sendBuf := u.sendBuf

def Core.sight (k : Core) : Sight where
  state := k.state
  sNick := k.sNick
  pinger := k.pinger
  prcsdMyInfo := k.prcsdMyInfo
  myInfoLong := k.myInfoLong
  myInfoShort := k.myInfoShort
  cmdList := k.cmdList
  sendBuf := k.sendBuf

theorem sight_of_core {u v : User} (core : v.core = u.core) : v.sight = u.sight :=
  congrArg Core.sight core

/-- What holds of a user by itself, above all while it is on its way into the list. -/
structure Modest (cfg : Config) (u : User) : Prop where
  valid : ValidNick u.sNick
  user : u.state.isLoggedIn = true → u.pinger = false
  infos : u.state.isPastLogin = false → u.state.isListed = false →
    u.myInfoLong = none ∧ u.myInfoShort = none
  news : u.state.isPastLogin = false → u.prcsdMyInfo = true → u.state.isListed = true
  hello : u.state.isPastLogin = false → PrcsdUsrCmd.loginHello ∈ u.cmdList →
    UserState.versionOrMyPass.toNat ≤ u.state.toNat
  own : u.state.isPastLogin = false → u.state ≠ .added → u.pinger = false →
    ∀ nick, ¬ cfg.IsBot nick → ∀ b, told nick u.sendBuf = some b →
      b = true ∧ nick = u.sNick ∧ UserState.versionOrMyPass.toNat ≤ u.state.toNat

namespace Hub

/-- What users know and what is on its way to them. `due` are broadcasts of this round that
a user has not been sent yet. -/
structure Views (cfg : Config) (h : Hub) (due : UserId → List (QueueItem Msg)) : Prop where
  agree : ∀ c nick, ¬ cfg.IsBot nick → ∀ u v b,
    told nick (delivered cfg u (due c) ++ delivered cfg v h.queue.newQueueItems) = some b →
      (b = true ↔ h.Listed nick)
  shown : ∀ c, (h.users c).state = .added → ∀ nick, ¬ cfg.IsBot nick → ∀ u v,
    told nick ((h.users c).sendBuf ++
      (delivered cfg u (due c) ++ delivered cfg v h.queue.newQueueItems)) = some true ↔
        h.Listed nick

/-- The list is as it should be in the hub. -/
structure Standing (cfg : Config) (h : Hub) : Prop where
  named : ∃ words, h.Named cfg words
  long : cfg.keepsLong = true → h.Described cfg h.myInfosTag User.myInfoLong
  short : cfg.keepsShort = true → h.Described cfg h.myInfos User.myInfoShort
  alone : h.Alone
  modest : ∀ c, Modest cfg (h.users c)

/-- The list is as it should be in the hub and for the clients. -/
structure Scene (cfg : Config) (h : Hub) (due : UserId → List (QueueItem Msg)) : Prop extends
    Standing cfg h where
  views : h.Views cfg due

end Hub

/-- A user that neither comes into the list nor leaves it. -/
structure SteadyUser (cfg : Config) (u v : User) : Prop where
  listed : v.state.isListed = u.state.isListed
  kept : u.state.isListed = true →
    v.sNick = u.sNick ∧ v.myInfoLong = u.myInfoLong ∧ v.myInfoShort = u.myInfoShort
  modest : Modest cfg u → Modest cfg v

/-- Nor is it told of anyone. `Listed` are the nicks it may be told of all the same. -/
structure CalmUser (cfg : Config) (Listed : Text → Prop) (u v : User) : Prop extends
    SteadyUser cfg u v where
  added : v.state = .added → u.state = .added
  sent : u.state.isListed = true → ∃ msgs, v.sendBuf = u.sendBuf ++ msgs ∧
    ∀ nick, ¬ cfg.IsBot nick → told nick msgs = none ∨ told nick msgs = some true ∧ Listed nick

namespace Hub

/-- Nobody comes into the list or leaves it, and no broadcast says so. -/
structure Calm (cfg : Config) (x y : Hub) : Prop where
  nickList : y.nickList = x.nickList
  myInfosTag : y.myInfosTag = x.myInfosTag
  myInfos : y.myInfos = x.myInfos
  queue : ∃ items, y.queue.newQueueItems = x.queue.newQueueItems ++ items ∧
    ∀ v nick, ¬ cfg.IsBot nick → told nick (delivered cfg v items) = none
  users : ∀ d, CalmUser cfg x.Listed (x.users d) (y.users d)

section
variable {cfg : Config} {x y : Hub} {c d : UserId} {nick : Text}
  {due : UserId → List (QueueItem Msg)} {items more : List (QueueItem Msg)} {u v : QueueUser}

theorem delivered_append :
    delivered cfg u (items ++ more) = delivered cfg u items ++ delivered cfg u more :=
  List.flatMap_append

@[simp] theorem delivered_nil : delivered cfg u [] = [] := rfl

theorem delivered_singleton (item : QueueItem Msg) :
    delivered cfg u [item] = itemData matchExtJson u (u.queueBits cfg.queueSettings) item := by
  simp [delivered]

/-! ## One step of the views -/

/-- What is posted last, if anything is, tells the truth about the list as it is now. -/
theorem Views.step (views : x.Views cfg due)
    (queue : y.queue.newQueueItems = x.queue.newQueueItems ++ items)
    (posted : ∀ nick, ¬ cfg.IsBot nick → ∀ v,
      told nick (delivered cfg v items) = none ∧ (y.Listed nick ↔ x.Listed nick) ∨
        ∃ b, told nick (delivered cfg v items) = some b ∧ (b = true ↔ y.Listed nick))
    (sent : ∀ c, (y.users c).state = .added → (x.users c).state = .added ∧
      ∃ msgs, (y.users c).sendBuf = (x.users c).sendBuf ++ msgs ∧
        ∀ nick, ¬ cfg.IsBot nick →
          told nick msgs = none ∨ told nick msgs = some true ∧ y.Listed nick) :
    y.Views cfg due where
  agree := by
    intro c nick human u v b last
    rw [queue, delivered_append, ← List.append_assoc, told_append] at last
    rcases posted nick human v with ⟨silent, same⟩ | ⟨w, tells, true_⟩
    · rw [silent, Option.none_or] at last
      exact (views.agree c nick human u v b last).trans same.symm
    · rw [tells, Option.some_or, Option.some.injEq] at last
      rw [← last]
      exact true_
  shown := by
    intro c added nick human u v
    obtain ⟨before, msgs, sendBuf, own⟩ := sent c added
    have shown := views.shown c before nick human u v
    have agree := views.agree c nick human u v
    rw [queue, delivered_append, sendBuf, ← List.append_assoc (delivered cfg u (due c))]
    generalize delivered cfg u (due c) ++ delivered cfg v x.queue.newQueueItems = waiting at *
    rw [told_append] at shown
    rw [told_append, told_append]
    rcases posted nick human v with ⟨silent, same⟩ | ⟨w, tells, true_⟩
    · rw [silent, Option.none_or, same]
      cases last : told nick waiting with
      | some b =>
        rw [last] at shown
        exact shown
      | none =>
        rw [last, Option.none_or] at shown
        rw [Option.none_or, told_append]
        rcases own nick human with silent' | ⟨tells, listed⟩
        · rw [silent']
          exact shown
        · rw [tells]
          exact iff_of_true rfl (same.mp listed)
    · rw [tells, Option.some_or, Option.some_or, Option.some.injEq]
      exact true_

theorem steady_listed (users : ∀ d, SteadyUser cfg (x.users d) (y.users d)) (nick : Text) :
    y.Listed nick ↔ x.Listed nick :=
  listed_congr (fun d => (users d).listed) (fun d before => ((users d).kept before).1) nick

theorem Standing.steady (standing : x.Standing cfg)
    (lists : y.nickList = x.nickList ∧ y.myInfosTag = x.myInfosTag ∧ y.myInfos = x.myInfos)
    (users : ∀ d, SteadyUser cfg (x.users d) (y.users d)) : y.Standing cfg where
  named := by
    obtain ⟨words, named⟩ := standing.named
    exact ⟨words, named.congr lists.1 (steady_listed users)⟩
  long := by
    intro keeps
    rw [lists.2.1]
    exact (standing.long keeps).congr (fun d => (users d).listed) fun d before =>
      ⟨((users d).kept before).1, ((users d).kept before).2.1⟩
  short := by
    intro keeps
    rw [lists.2.2]
    exact (standing.short keeps).congr (fun d => (users d).listed) fun d before =>
      ⟨((users d).kept before).1, ((users d).kept before).2.2⟩
  alone := by
    intro c d listed listed' same
    have before := (users c).listed.symm.trans listed
    have before' := (users d).listed.symm.trans listed'
    apply standing.alone c d before before'
    rw [← ((users c).kept before).1, same]
    exact ((users d).kept before').1
  modest := fun c => (users c).modest (standing.modest c)

theorem Calm.listed (calm : Calm cfg x y) (nick : Text) : y.Listed nick ↔ x.Listed nick :=
  steady_listed (fun d => (calm.users d).toSteadyUser) nick

theorem isListed_of_added {s : UserState} (added : s = .added) : s.isListed = true := by
  rw [added]
  rfl

theorem Scene.calm (scene : x.Scene cfg due) (calm : Calm cfg x y) : y.Scene cfg due where
  toStanding := scene.steady ⟨calm.nickList, calm.myInfosTag, calm.myInfos⟩
    fun d => (calm.users d).toSteadyUser
  views := by
    obtain ⟨items, queue, silent⟩ := calm.queue
    apply scene.views.step queue
    · intro nick human v
      exact .inl ⟨silent v nick human, calm.listed nick⟩
    · intro c added
      have before := (calm.users c).added added
      obtain ⟨msgs, sendBuf, tell⟩ := (calm.users c).sent (isListed_of_added before)
      refine ⟨before, msgs, sendBuf, fun nick human => (tell nick human).imp_right ?_⟩
      exact fun tells => ⟨tells.1, (calm.listed nick).mpr tells.2⟩

/-! ## Calm steps -/

theorem modest_of_past {u : User} (past : u.state.isPastLogin = true) (valid : ValidNick u.sNick) :
    Modest cfg u where
  valid := valid
  user := fun loggedIn => by simp [UserState.live_of_isLoggedIn loggedIn] at past
  infos := fun live => by simp [past] at live
  news := fun live => by simp [past] at live
  hello := fun live => by simp [past] at live
  own := fun live => by simp [past] at live

theorem calmUser_of_sight {L : Text → Prop} {u v : User} (same : v.sight = u.sight) :
    CalmUser cfg L u v := by
  simp only [User.sight, Sight.mk.injEq] at same
  obtain ⟨state, sNick, pinger, news, long, short, cmdList, sendBuf⟩ := same
  refine ⟨⟨?_, ?_, ?_⟩, ?_, ?_⟩
  · rw [state]
  · exact fun _ => ⟨sNick, long, short⟩
  · rintro ⟨valid, user, infos, news', hello, own⟩
    constructor
    · rwa [sNick]
    · rwa [state, pinger]
    · rwa [state, long, short]
    · rwa [state, news]
    · rwa [state, cmdList]
    · rwa [state, pinger, sendBuf, sNick]
  · rw [state]
    exact id
  · exact fun _ => ⟨[], by rw [sendBuf, List.append_nil], fun _ _ => .inl rfl⟩

theorem calmUser_refl (L : Text → Prop) (u : User) : CalmUser cfg L u u := calmUser_of_sight rfl

/-- A step of one user alone. -/
theorem calm_of_user (lists : y.nickList = x.nickList ∧ y.myInfosTag = x.myInfosTag ∧
    y.myInfos = x.myInfos ∧ y.queue = x.queue)
    (self : CalmUser cfg x.Listed (x.users c) (y.users c))
    (others : ∀ d, d ≠ c → y.users d = x.users d) : Calm cfg x y where
  nickList := lists.1
  myInfosTag := lists.2.1
  myInfos := lists.2.2.1
  queue := ⟨[], by rw [lists.2.2.2, List.append_nil], fun _ _ _ => rfl⟩
  users := by
    intro d
    by_cases same : d = c
    · rw [same]
      exact self
    · rw [others d same]
      exact calmUser_refl _ _

theorem calm_modify {f : User → User}
    (self : CalmUser cfg x.Listed (x.users c) (f (x.users c))) : Calm cfg x (x.modify c f) :=
  calm_of_user ⟨rfl, rfl, rfl, rfl⟩ (by rwa [modify_self]) fun _ other => modify_ne other

/-- A step that only changes what the list does not depend on. -/
theorem calm_of_tables (lists : y.nickList = x.nickList ∧ y.myInfosTag = x.myInfosTag ∧
    y.myInfos = x.myInfos ∧ y.queue = x.queue) (users : y.users = x.users) : Calm cfg x y :=
  calm_of_user (c := 0) lists (by rw [users]; exact calmUser_refl _ _) fun _ _ => by rw [users]

/-! ## Closing -/

theorem closedUser_past (u : User) : (closedUser u).state.isPastLogin = true := by
  unfold closedUser
  dsimp only
  split <;> rfl

theorem closedUser_unlisted (u : User) : (closedUser u).state.isListed = false := by
  unfold closedUser
  dsimp only
  split <;> rfl

/-- A user that was not in the list is closed. -/
theorem calm_closeWith (scene : x.Scene cfg due) (live : (x.users c).state.isPastLogin = false)
    (unlisted : (x.users c).state.isListed = false) (bNoQuit : Bool) :
    Calm cfg x (x.closeWith cfg c bNoQuit) := by
  have early : ¬ UserState.addMe2Loop.toNat ≤ (x.users c).state.toNat := by
    rw [← isListed_iff live, unlisted]
    exact Bool.false_ne_true
  obtain ⟨long, short⟩ := (scene.modest c).infos live unlisted
  have eq : x.closeWith cfg c bNoQuit = _ := closeWith_eq live bNoQuit
  simp only [early, if_false, false_and, long, short, without] at eq
  apply calm_of_user (c := c)
  · rw [eq]
    exact ⟨rfl, rfl, rfl, rfl⟩
  · have closed : (x.closeWith cfg c bNoQuit).users c = closedUser (x.users c) := by
      rw [eq]
      exact Function.update_self ..
    rw [closed]
    refine ⟨⟨?_, fun listed => ?_, fun modest => ?_⟩, fun added => ?_, fun listed => ?_⟩
    · rw [closedUser_unlisted, unlisted]
    · rw [unlisted] at listed
      cases listed
    · exact modest_of_past (closedUser_past _) modest.valid
    · have listed := isListed_of_added added
      rw [closedUser_unlisted] at listed
      cases listed
    · rw [unlisted] at listed
      cases listed
  · exact fun d other => closeWith_users bNoQuit other

/-- A user in the list is closed. Its nick leaves the lists, and everyone is told. -/
theorem Scene.closeListed (scene : x.Scene cfg due) (listed : (x.users c).state.isListed = true)
    (deletable : Deletable nickListWord (readNickList x.nickList) (x.users c).sNick) :
    (x.closeWith cfg c false).Scene cfg due := by
  have live := live_of_isListed listed
  have late := (isListed_iff live).mp listed
  have eq : x.closeWith cfg c false = _ := closeWith_eq live false
  simp only [late, if_true, and_self] at eq
  generalize x.closeWith cfg c false = y at eq
  have self : y.users c = closedUser (x.users c) := by
    rw [eq]
    exact Function.update_self ..
  have others (d : UserId) (differs : d ≠ c) : y.users d = x.users d := by
    rw [eq]
    exact Function.update_of_ne differs ..
  have gone : (y.users c).state.isListed = false := by
    rw [self]
    exact closedUser_unlisted _
  have differs (d : UserId) (now : (y.users d).state.isListed = true) : d ≠ c := by
    rintro rfl
    rw [gone] at now
    cases now
  have left : ¬ y.Listed (x.users c).sNick := by
    rintro ⟨d, now, same⟩
    have hd := differs d now
    rw [others d hd] at now same
    exact hd (scene.alone d c now listed same)
  have stay (nick : Text) (other : nick ≠ (x.users c).sNick) : y.Listed nick ↔ x.Listed nick := by
    constructor
    · rintro ⟨d, now, same⟩
      have hd := differs d now
      rw [others d hd] at now same
      exact ⟨d, now, same⟩
    · rintro ⟨d, now, same⟩
      have hd : d ≠ c := by
        rintro rfl
        exact other same.symm
      rw [← others d hd] at now same
      exact ⟨d, now, same⟩
  refine ⟨⟨?_, ?_, ?_, ?_, ?_⟩, ?_⟩
  · obtain ⟨words, named⟩ := scene.named
    rw [named.read] at deletable
    refine ⟨_, named.remove (scene.modest c).valid deletable ?_ (fun _ => left) stay⟩
    rw [eq]
  · intro keeps
    have lists : y.myInfosTag = without true (x.users c).myInfoLong x.myInfosTag := by
      rw [eq, ← keeps]
    rw [lists]
    exact (scene.long keeps).remove scene.alone listed gone others
  · intro keeps
    have lists : y.myInfos = without true (x.users c).myInfoShort x.myInfos := by
      rw [eq, ← keeps]
    rw [lists]
    exact (scene.short keeps).remove scene.alone listed gone others
  · intro d e now now' same
    have hd := differs d now
    have he := differs e now'
    rw [others d hd] at now same
    rw [others e he] at now' same
    exact scene.alone d e now now' same
  · intro d
    by_cases same : d = c
    · rw [same, self]
      exact modest_of_past (closedUser_past _) (scene.modest c).valid
    · rw [others d same]
      exact scene.modest d
  · have queue : y.queue.newQueueItems = x.queue.newQueueItems ++
        [⟨.quit, [.quit (x.users c).sNick], []⟩] := by
      rw [eq]
      rfl
    apply scene.views.step queue
    · intro nick human v
      rw [delivered_singleton]
      change told nick [.quit (x.users c).sNick] = none ∧ _ ∨
        ∃ b, told nick [.quit (x.users c).sNick] = some b ∧ _
      rw [told_quit]
      by_cases same : (x.users c).sNick = nick
      · subst same
        exact .inr ⟨false, if_pos rfl, by simp [left]⟩
      · exact .inl ⟨if_neg same, stay nick (Ne.symm same)⟩
    · intro d added
      have hd := differs d (isListed_of_added added)
      rw [others d hd] at added ⊢
      exact ⟨added, [], (List.append_nil _).symm, fun _ _ => .inl rfl⟩

theorem Scene.closeWith (scene : x.Scene cfg due) (bNoQuit : Bool)
    (fair : (x.users c).state.isListed = true → bNoQuit = false ∧
      Deletable nickListWord (readNickList x.nickList) (x.users c).sNick) :
    (x.closeWith cfg c bNoQuit).Scene cfg due := by
  cases past : (x.users c).state.isPastLogin with
  | true =>
    rw [closeWith_pastLogin past]
    exact scene.calm (calm_modify (calmUser_of_sight rfl))
  | false =>
    cases listed : (x.users c).state.isListed with
    | true =>
      obtain ⟨rfl, deletable⟩ := fair listed
      exact scene.closeListed listed deletable
    | false => exact scene.calm (calm_closeWith scene past listed bNoQuit)

end

end Hub

end FlyHub.Session
