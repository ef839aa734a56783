import FlyHub.Session.View

/-!
# Coming into the list

A user comes into the list with its nick and its MyINFOs, and everyone is told. Later it
may have new MyINFOs.
-/

namespace FlyHub.Session

open FlyHub.Broadcast FlyHub.Lists FlyHub.Lib

namespace Hub

/-- The MyINFO of `c` is the old one of a user in the list, or has been put to the end. -/
def Renewed (x y : Hub) (c : UserId) (get : User → Option MyInfo) (infos infos' : List MyInfo) :
    Prop :=
  (x.users c).state.isListed = true ∧ get (y.users c) = get (x.users c) ∧ infos' = infos ∨
    ∃ info, info.nick = (x.users c).sNick ∧ get (y.users c) = some info ∧
      infos' = without true (get (x.users c)) infos ++ [info]

/-- What is said of `c` alone, if anything: that it is in the list. -/
structure Announced (cfg : Config) (x y : Hub) (c : UserId) (items : List (QueueItem Msg)) :
    Prop where
  queue : y.queue.newQueueItems = x.queue.newQueueItems ++ items
  self : ∀ v, told (x.users c).sNick (delivered cfg v items) = some true ∨
    (x.users c).state.isListed = true ∧ told (x.users c).sNick (delivered cfg v items) = none
  others : ∀ v nick, nick ≠ (x.users c).sNick → told nick (delivered cfg v items) = none

/-- `c` comes into the list, or is in it and has new MyINFOs. -/
structure Renewal (cfg : Config) (x y : Hub) (c : UserId) : Prop where
  others : ∀ d, d ≠ c → y.users d = x.users d
  before : (x.users c).state.isLoggedIn = true
  listed : (y.users c).state.isListed = true
  added : (y.users c).state = .added ↔ (x.users c).state = .added
  sNick : (y.users c).sNick = (x.users c).sNick
  pinger : (y.users c).pinger = (x.users c).pinger
  sendBuf : (y.users c).sendBuf = (x.users c).sendBuf
  long : cfg.keepsLong = true → Renewed x y c User.myInfoLong x.myInfosTag y.myInfosTag
  short : cfg.keepsShort = true → Renewed x y c User.myInfoShort x.myInfos y.myInfos
  nickList : y.nickList = if (x.users c).state.isListed then x.nickList
    else add2NickList x.nickList (x.users c).sNick
  queue : ∃ items, Announced cfg x y c items

section
variable {cfg : Config} {x y : Hub} {c d : UserId} {nick : Text} {get : User → Option MyInfo}
  {due : UserId → List (QueueItem Msg)} {infos infos' : List MyInfo}

theorem Renewal.listed_iff (renewal : Renewal cfg x y c) (nick : Text) :
    y.Listed nick ↔ x.Listed nick ∨ nick = (x.users c).sNick := by
  constructor
  · rintro ⟨d, listed, same⟩
    by_cases eq : d = c
    · subst eq
      exact .inr (same.symm.trans renewal.sNick)
    · rw [renewal.others d eq] at listed same
      exact .inl ⟨d, listed, same⟩
  · rintro (⟨d, listed, same⟩ | rfl)
    · by_cases eq : d = c
      · subst eq
        exact ⟨d, renewal.listed, renewal.sNick.trans same⟩
      · rw [← renewal.others d eq] at listed same
        exact ⟨d, listed, same⟩
    · exact ⟨c, renewal.listed, renewal.sNick⟩

theorem Renewal.alone (renewal : Renewal cfg x y c) (alone : x.Alone)
    (fresh : (x.users c).state.isListed = false → ¬ x.Listed (x.users c).sNick) : y.Alone := by
  have only (d : UserId) (listed : (y.users d).state.isListed = true)
      (same : (y.users d).sNick = (x.users c).sNick) : d = c := by
    by_contra differs
    rw [renewal.others d differs] at listed same
    cases before : (x.users c).state.isListed with
    | true => exact differs (alone d c listed before same)
    | false => exact fresh before ⟨d, listed, same⟩
  intro d e listed listed' same
  by_cases eq : d = c
  · subst eq
    exact (only e listed' (same.symm.trans renewal.sNick)).symm
  by_cases eq' : e = c
  · subst eq'
    exact only d listed (same.trans renewal.sNick)
  · rw [renewal.others d eq] at listed same
    rw [renewal.others e eq'] at listed' same
    exact alone d e listed listed' same

theorem Renewal.described (renewal : Renewal cfg x y c) (alone : y.Alone)
    (renewed : Renewed x y c get infos infos') (described : x.Described cfg infos get)
    (none_ : (x.users c).state.isListed = false → get (x.users c) = none) :
    y.Described cfg infos' get := by
  rcases renewed with ⟨before, same, rfl⟩ | ⟨info, nick, has, rfl⟩
  · have kept (d : UserId) : (y.users d).state.isListed = (x.users d).state.isListed ∧
        (y.users d).sNick = (x.users d).sNick ∧ get (y.users d) = get (x.users d) := by
      by_cases eq : d = c
      · subst eq
        exact ⟨renewal.listed.trans before.symm, renewal.sNick, same⟩
      · rw [renewal.others d eq]
        exact ⟨rfl, rfl, rfl⟩
    exact described.congr (fun d => (kept d).1) fun d _ => (kept d).2
  · apply described.renew alone renewal.listed has (nick.trans renewal.sNick.symm)
    · cases before : (x.users c).state.isListed with
      | true => exact .inl ⟨rfl, renewal.sNick⟩
      | false => exact .inr ⟨rfl, none_ before⟩
    · intro d differs
      rw [renewal.others d differs]
      exact ⟨rfl, rfl, rfl⟩

theorem Renewal.modest (renewal : Renewal cfg x y c) (modest : Modest cfg (x.users c)) :
    Modest cfg (y.users c) where
  valid := by
    rw [renewal.sNick]
    exact modest.valid
  user := fun _ => renewal.pinger.trans (modest.user renewal.before)
  infos := fun _ unlisted => by simp [renewal.listed] at unlisted
  news := fun _ _ => renewal.listed
  hello := by
    intro live _
    have late := (isListed_iff live).mp renewal.listed
    exact Nat.le_trans (by decide) late
  own := by
    intro live waits user nick human b last
    rw [renewal.sendBuf] at last
    rw [renewal.sNick]
    have own := modest.own (UserState.live_of_isLoggedIn renewal.before)
      (fun added => waits (renewal.added.mpr added)) (renewal.pinger.symm.trans user)
      nick human b last
    have late := (isListed_iff live).mp renewal.listed
    exact ⟨own.1, own.2.1, Nat.le_trans (by decide) late⟩

theorem Scene.renewal (scene : x.Scene cfg due) (renewal : Renewal cfg x y c)
    (fresh : (x.users c).state.isListed = false → ¬ x.Listed (x.users c).sNick) :
    y.Scene cfg due := by
  have live := UserState.live_of_isLoggedIn renewal.before
  have alone := renewal.alone scene.alone fresh
  refine ⟨⟨?_, ?_, ?_, ?_, ?_⟩, ?_⟩
  · obtain ⟨words, named⟩ := scene.named
    have text := renewal.nickList
    cases before : (x.users c).state.isListed with
    | true =>
      rw [before, if_pos rfl] at text
      refine ⟨words, named.congr text fun nick => (renewal.listed_iff nick).trans ?_⟩
      refine or_iff_left_of_imp ?_
      rintro rfl
      exact listed_of_user before
    | false =>
      rw [before, if_neg Bool.false_ne_true] at text
      exact ⟨_, named.add (scene.modest c).valid (fresh before) text renewal.listed_iff⟩
  · intro keeps
    exact renewal.described alone (renewal.long keeps) (scene.long keeps)
      fun before => ((scene.modest c).infos live before).1
  · intro keeps
    exact renewal.described alone (renewal.short keeps) (scene.short keeps)
      fun before => ((scene.modest c).infos live before).2
  · exact alone
  · intro d
    by_cases same : d = c
    · rw [same]
      exact renewal.modest (scene.modest c)
    · rw [renewal.others d same]
      exact scene.modest d
  · obtain ⟨items, announced⟩ := renewal.queue
    apply scene.views.step announced.queue
    · intro nick human v
      by_cases same : nick = (x.users c).sNick
      · subst same
        have now := (renewal.listed_iff (x.users c).sNick).mpr (.inr rfl)
        rcases announced.self v with tells | ⟨before, silent⟩
        · exact .inr ⟨true, tells, iff_of_true rfl now⟩
        · exact .inl ⟨silent, iff_of_true now (listed_of_user before)⟩
      · refine .inl ⟨announced.others v nick same, (renewal.listed_iff nick).trans ?_⟩
        exact or_iff_left same
    · intro d added
      by_cases same : d = c
      · subst same
        refine ⟨renewal.added.mp added, [], ?_, fun _ _ => .inl rfl⟩
        rw [renewal.sendBuf, List.append_nil]
      · rw [renewal.others d same] at added ⊢
        exact ⟨added, [], (List.append_nil _).symm, fun _ _ => .inl rfl⟩

/-! ## MyINFOs -/

/-- The hub after `GenerateMyInfoLong` and `Add2MyInfosTag` for a MyINFO that has changed. -/
def newLong (cfg : Config) (x : Hub) (c : UserId) (info : MyInfo) : Hub :=
  { x with
    users := Function.update x.users c { x.users c with myInfoLong := some info }
    myInfosTag := without cfg.keepsLong (x.users c).myInfoLong x.myInfosTag ++ [info] }

def newShort (cfg : Config) (x : Hub) (c : UserId) (info : MyInfo) : Hub :=
  { x with
    users := Function.update x.users c { x.users c with myInfoShort := some info }
    myInfos := without cfg.keepsShort (x.users c).myInfoShort x.myInfos ++ [info] }

theorem generateMyInfoLong_cases (cfg : Config) (x : Hub) (c : UserId) :
    (x.users c).myInfoLong ≠ none ∧ x.generateMyInfoLong cfg c = (x, false) ∨
      ∃ info, info.nick = (x.users c).sNick ∧ (x.generateMyInfoLong cfg c).2 = true ∧
        (x.generateMyInfoLong cfg c).1.add2MyInfosTag c = x.newLong cfg c info := by
  unfold generateMyInfoLong
  dsimp only
  split
  · rename_i same
    refine .inl ⟨?_, rfl⟩
    rw [same]
    exact Option.some_ne_none _
  · refine .inr ⟨⟨(x.users c).sNick, cfg.longFields (x.users c)⟩, rfl, rfl, ?_⟩
    simp only [forgetLong_eq, add2MyInfosTag, modify, Function.update_self, Option.toList_some]
    rfl

theorem generateMyInfoShort_cases (cfg : Config) (x : Hub) (c : UserId) :
    (x.users c).myInfoShort ≠ none ∧ x.generateMyInfoShort cfg c = (x, false) ∨
      ∃ info, info.nick = (x.users c).sNick ∧ (x.generateMyInfoShort cfg c).2 = true ∧
        (x.generateMyInfoShort cfg c).1.add2MyInfos c = x.newShort cfg c info := by
  unfold generateMyInfoShort
  dsimp only
  split
  · rename_i same
    refine .inl ⟨?_, rfl⟩
    rw [same]
    exact Option.some_ne_none _
  · refine .inr ⟨⟨(x.users c).sNick, cfg.shortFields (x.users c)⟩, rfl, rfl, ?_⟩
    simp only [forgetShort_eq, add2MyInfos, modify, Function.update_self, Option.toList_some]
    rfl

/-- The broadcast with the MyINFOs of a user, as the settings ask for them. -/
def infoItem (cfg : Config) (x : Hub) (c : UserId) : QueueItem Msg :=
  match cfg.fullMyINFOOption with
  | 0 => ⟨.myInfo, x.longMsg c, []⟩
  | 1 => ⟨.myInfo, x.shortMsg c, x.longMsg c⟩
  | 2 => ⟨.myInfo, x.shortMsg c, []⟩

theorem announce_queue : (x.announce cfg c).queue.newQueueItems = x.queue.newQueueItems ++
    [⟨.hello, [.hello (x.users c).sNick], []⟩, x.infoItem cfg c] := by
  unfold announce infoItem
  dsimp only
  split <;> rename_i mode <;>
    simp [addQueueItem, GlobalDataQueue.addQueueItem, longMsg, shortMsg, mode]

theorem tellKeyLost_queue : (x.tellKeyLost cfg c).queue.newQueueItems = x.queue.newQueueItems ++
    [⟨.quit, [.quit (x.users c).sNick], []⟩, x.infoItem cfg c] := by
  unfold tellKeyLost infoItem
  dsimp only
  split <;> rename_i mode <;>
    simp [addQueueItem, GlobalDataQueue.addQueueItem, longMsg, shortMsg, infoMsgs, mode]

/-- The MyINFOs that a user has are those that the settings ask for. -/
def HasInfos (cfg : Config) (u : User) : Prop :=
  (cfg.keepsLong = true → ∃ info, u.myInfoLong = some info ∧ info.nick = u.sNick) ∧
    (cfg.keepsShort = true → ∃ info, u.myInfoShort = some info ∧ info.nick = u.sNick)

theorem told_info {info : MyInfo} :
    told nick (infoMsgs [info]) = if info.nick = nick then some true else none := told_singleton

theorem told_infoItem (has : HasInfos cfg (x.users c)) (v : QueueUser) (nick : Text) :
    told nick (delivered cfg v [x.infoItem cfg c]) =
      if (x.users c).sNick = nick then some true else none := by
  rw [delivered_singleton]
  unfold infoItem
  split
  · rename_i mode
    obtain ⟨info, long, same⟩ := has.1 (by simp [Config.keepsLong, mode])
    have short : v.longMyInfo cfg.queueSettings = false := by
      simp [QueueUser.longMyInfo, Config.queueSettings, mode]
    simp only [itemData, QueueUser.queueBits, short, Bool.false_eq_true, if_false, longMsg, long,
      Option.toList_some, told_info, same]
  · rename_i mode
    obtain ⟨info, long, same⟩ := has.1 (by simp [Config.keepsLong, mode])
    obtain ⟨info', short, same'⟩ := has.2 (by simp [Config.keepsShort, mode])
    simp only [itemData, longMsg, shortMsg, long, short, Option.toList_some]
    split <;> simp only [told_info, same, same']
  · rename_i mode
    obtain ⟨info, short, same⟩ := has.2 (by simp [Config.keepsShort, mode])
    have not_long : v.longMyInfo cfg.queueSettings = false := by
      simp [QueueUser.longMyInfo, Config.queueSettings, mode]
    simp only [itemData, QueueUser.queueBits, not_long, Bool.false_eq_true, if_false, shortMsg,
      short, Option.toList_some, told_info, same]

/-- A `$Hello` reaches those who want it. -/
theorem told_helloItem (own : Text) (v : QueueUser) (nick : Text) :
    told nick (delivered cfg v [⟨.hello, [.hello own], []⟩]) = none ∨
      told nick (delivered cfg v [⟨.hello, [.hello own], []⟩]) =
        if own = nick then some true else none := by
  rw [delivered_singleton]
  simp only [itemData]
  split
  · exact .inr told_hello
  · exact .inl told_nil

/-! ## The entry -/

theorem announce_lists (cfg : Config) (x : Hub) (c : UserId) :
    (x.announce cfg c).nickList = x.nickList ∧
      (x.announce cfg c).myInfosTag = x.myInfosTag ∧
      (x.announce cfg c).myInfos = x.myInfos := by
  unfold announce
  dsimp only
  split <;> exact ⟨rfl, rfl, rfl⟩

/-- A user that comes into the list gets the MyINFOs that the settings ask for. -/
theorem add2Userlist_new (cfg : Config) (long : (x.users c).myInfoLong = none)
    (short : (x.users c).myInfoShort = none) : ∃ l s : Option MyInfo,
    (cfg.keepsLong = true → ∃ info, l = some info ∧ info.nick = (x.users c).sNick) ∧
    (cfg.keepsShort = true → ∃ info, s = some info ∧ info.nick = (x.users c).sNick) ∧
    x.add2Userlist cfg c =
      { x with
        users := Function.update x.users c { x.users c with myInfoLong := l, myInfoShort := s }
        nickList := add2NickList x.nickList (x.users c).sNick
        myInfosTag := x.myInfosTag ++ l.toList
        myInfos := x.myInfos ++ s.toList } := by
  unfold add2Userlist
  dsimp only
  generalize start : ({ x with
    nickList := add2NickList x.nickList (x.users c).sNick } : Hub) = y
  have users : y.users = x.users := by rw [← start]
  have newLong_of (z : Hub) (none_ : (z.users c).myInfoLong = none) : ∃ info,
      info.nick = (z.users c).sNick ∧
        (z.generateMyInfoLong cfg c).1.add2MyInfosTag c = z.newLong cfg c info := by
    rcases generateMyInfoLong_cases cfg z c with ⟨some_, -⟩ | ⟨info, nick, -, eq⟩
    · exact absurd none_ some_
    · exact ⟨info, nick, eq⟩
  have newShort_of (z : Hub) (none_ : (z.users c).myInfoShort = none) : ∃ info,
      info.nick = (z.users c).sNick ∧
        (z.generateMyInfoShort cfg c).1.add2MyInfos c = z.newShort cfg c info := by
    rcases generateMyInfoShort_cases cfg z c with ⟨some_, -⟩ | ⟨info, nick, -, eq⟩
    · exact absurd none_ some_
    · exact ⟨info, nick, eq⟩
  split
  · rename_i mode
    obtain ⟨info, nick, eq⟩ := newLong_of y (by rw [users, long])
    rw [users] at nick
    refine ⟨some info, none, fun _ => ⟨info, rfl, nick⟩, ?_, ?_⟩
    · simp [Config.keepsShort, mode]
    · rw [eq, newLong, ← start]
      simp [long, short, without]
  · obtain ⟨info, nick, eq⟩ := newLong_of y (by rw [users, long])
    rw [users] at nick
    obtain ⟨info', nick', eq'⟩ :=
      newShort_of (y.newLong cfg c info) (by simp [newLong, users, short])
    have same : ((y.newLong cfg c info).users c).sNick = (x.users c).sNick := by
      simp [newLong, users]
    refine ⟨some info, some info', fun _ => ⟨info, rfl, nick⟩,
      fun _ => ⟨info', rfl, nick'.trans same⟩, ?_⟩
    rw [eq, eq', newShort, newLong, ← start]
    simp [long, short, without]
  · rename_i mode
    obtain ⟨info, nick, eq⟩ := newShort_of y (by rw [users, short])
    rw [users] at nick
    refine ⟨none, some info, ?_, fun _ => ⟨info, rfl, nick⟩, ?_⟩
    · simp [Config.keepsLong, mode]
    · rw [eq, newShort, ← start]
      simp [long, short, without]

theorem enlist_renewal (scene : x.Scene cfg due) (state : (x.users c).state = .addMe1Loop) :
    Renewal cfg x (x.enlist cfg c) c := by
  have live : (x.users c).state.isPastLogin = false := by rw [state]; rfl
  have unlisted : (x.users c).state.isListed = false := by rw [state]; rfl
  obtain ⟨long, short⟩ := (scene.modest c).infos live unlisted
  obtain ⟨l, s, hasLong, hasShort, eq⟩ := add2Userlist_new cfg long short
  unfold enlist
  rw [eq]
  generalize entered : Hub.modify _ c _ = z
  have self : z.users c =
      { x.users c with myInfoLong := l, myInfoShort := s, state := .addMe2Loop } := by
    rw [← entered]
    simp only [modify, Function.update_self]
  obtain ⟨nickList, myInfosTag, myInfos⟩ := announce_lists cfg z c
  constructor
  · intro d differs
    rw [announce_users, ← entered, modify_ne differs]
    exact Function.update_of_ne differs ..
  · rw [state]
    rfl
  · rw [announce_users, self]
    rfl
  · rw [announce_users, self, state]
    exact iff_of_false (by simp) (by simp)
  · rw [announce_users, self]
  · rw [announce_users, self]
  · rw [announce_users, self]
  · intro keeps
    obtain ⟨info, rfl, nick⟩ := hasLong keeps
    refine .inr ⟨info, nick, ?_, ?_⟩
    · rw [announce_users, self]
    · rw [myInfosTag, ← entered, long]
      rfl
  · intro keeps
    obtain ⟨info, rfl, nick⟩ := hasShort keeps
    refine .inr ⟨info, nick, ?_, ?_⟩
    · rw [announce_users, self]
    · rw [myInfos, ← entered, short]
      rfl
  · rw [nickList, ← entered, unlisted]
    rfl
  · have nick : (z.users c).sNick = (x.users c).sNick := by rw [self]
    have has : HasInfos cfg (z.users c) := by
      rw [self]
      exact ⟨hasLong, hasShort⟩
    have queue : z.queue = x.queue := by
      rw [← entered]
      rfl
    have told_both (v : QueueUser) (n : Text) : told n (delivered cfg v
        [⟨.hello, [.hello (z.users c).sNick], []⟩, z.infoItem cfg c]) =
          if (x.users c).sNick = n then some true else none := by
      rw [← List.singleton_append, delivered_append, told_append, told_infoItem has, nick]
      rcases told_helloItem (x.users c).sNick v n with silent | tells
      · rw [silent, Option.or_none]
      · rw [tells]
        split <;> rfl
    refine ⟨_, by rw [announce_queue, queue], fun v => .inl ?_, fun v other differs => ?_⟩
    · rw [told_both, if_pos rfl]
    · rw [told_both, if_neg (Ne.symm differs)]

/-! ## A new MyINFO -/

theorem itemData_mem {v : QueueUser} {bits : QueueBits} {item : QueueItem Msg} {msg : Msg}
    (mem : msg ∈ itemData matchExtJson v bits item) :
    msg ∈ item.command0 ∨ msg ∈ item.command1 := by
  unfold itemData at mem
  dsimp only at mem
  split at mem <;> grind

/-- MyINFOs of one user. -/
def OwnInfos (own : Text) (msgs : List Msg) : Prop :=
  ∀ msg ∈ msgs, ∃ info : MyInfo, msg = .myInfo info ∧ info.nick = own

theorem ownInfos_toList {info : Option MyInfo} {own : Text}
    (nick : ∀ i, info = some i → i.nick = own) : OwnInfos own (infoMsgs info.toList) := by
  intro msg mem
  obtain ⟨i, inside, rfl⟩ := List.mem_map.mp mem
  exact ⟨i, rfl, nick i (Option.mem_toList.mp inside)⟩

theorem announced_own {item : QueueItem Msg} (listed : (x.users c).state.isListed = true)
    (queue : y.queue.newQueueItems = x.queue.newQueueItems ++ [item])
    (own0 : OwnInfos (x.users c).sNick item.command0)
    (own1 : OwnInfos (x.users c).sNick item.command1) : Announced cfg x y c [item] := by
  have own (v : QueueUser) : OwnInfos (x.users c).sNick (delivered cfg v [item]) := by
    rw [delivered_singleton]
    intro msg mem
    cases itemData_mem mem with
    | inl first => exact own0 msg first
    | inr second => exact own1 msg second
  refine ⟨queue, fun v => ?_, fun v nick differs => ?_⟩
  · cases last : told (x.users c).sNick (delivered cfg v [item]) with
    | none => exact .inr ⟨listed, rfl⟩
    | some b =>
      obtain ⟨msg, mem, tells⟩ := exists_of_latest last
      obtain ⟨info, rfl, nick⟩ := own v msg mem
      rw [Msg.tells, if_pos nick] at tells
      rw [← tells]
      exact .inl rfl
  · apply told_none.mpr
    intro msg mem
    obtain ⟨info, rfl, nick'⟩ := own v msg mem
    exact if_neg fun same => differs (same.symm.trans nick')

/-- A user in the list stays there, with other MyINFOs perhaps. -/
theorem renewal_of_listed {l s : Option MyInfo} (listed : (x.users c).state.isListed = true)
    (users : y.users = Function.update x.users c
      { x.users c with myInfoLong := l, myInfoShort := s })
    (long : cfg.keepsLong = true → Renewed x y c User.myInfoLong x.myInfosTag y.myInfosTag)
    (short : cfg.keepsShort = true → Renewed x y c User.myInfoShort x.myInfos y.myInfos)
    (nickList : y.nickList = x.nickList) (queue : ∃ items, Announced cfg x y c items) :
    Renewal cfg x y c := by
  have self : y.users c = { x.users c with myInfoLong := l, myInfoShort := s } := by
    rw [users]
    exact Function.update_self ..
  constructor
  · intro d differs
    rw [users]
    exact Function.update_of_ne differs ..
  · cases state : (x.users c).state <;> simp_all [UserState.isListed, UserState.isLoggedIn,
      UserState.toNat]
  · rw [self]
    exact listed
  · rw [self]
  · rw [self]
  · rw [self]
  · rw [self]
  · exact long
  · exact short
  · rw [listed, if_pos rfl]
    exact nickList
  · exact queue

theorem announced_nothing (listed : (x.users c).state.isListed = true)
    (queue : y.queue.newQueueItems = x.queue.newQueueItems) : Announced cfg x y c [] where
  queue := by rw [queue, List.append_nil]
  self := fun _ => .inr ⟨listed, rfl⟩
  others := fun _ _ _ => rfl

theorem refreshMyInfo_renewal (listed : (x.users c).state.isListed = true) (isDue : Bool) :
    Renewal cfg x (x.refreshMyInfo cfg c isDue) c := by
  have idle : Renewal cfg x x c :=
    renewal_of_listed listed (Function.update_eq_self ..).symm (fun _ => .inl ⟨listed, rfl, rfl⟩)
      (fun _ => .inl ⟨listed, rfl, rfl⟩) rfl ⟨[], announced_nothing listed rfl⟩
  have ownLong (info : MyInfo) (nick : info.nick = (x.users c).sNick) :
      OwnInfos (x.users c).sNick ((x.newLong cfg c info).longMsg c) := by
    have has : ((x.newLong cfg c info).users c).myInfoLong = some info := by simp [newLong]
    rw [longMsg, has]
    exact ownInfos_toList fun i eq => Option.some.inj eq ▸ nick
  have ownShort (info : MyInfo) (nick : info.nick = (x.users c).sNick) :
      OwnInfos (x.users c).sNick ((x.newShort cfg c info).shortMsg c) := by
    have has : ((x.newShort cfg c info).users c).myInfoShort = some info := by simp [newShort]
    rw [shortMsg, has]
    exact ownInfos_toList fun i eq => Option.some.inj eq ▸ nick
  have none_own : OwnInfos (x.users c).sNick [] := fun msg mem => absurd mem List.not_mem_nil
  unfold refreshMyInfo
  dsimp only
  split
  · rename_i mode
    have dropped : cfg.keepsShort = false := by simp [Config.keepsShort, mode]
    rcases generateMyInfoLong_cases cfg x c with ⟨-, eq⟩ | ⟨info, nick, new, eq⟩
    · rw [eq]
      exact idle
    · rw [eq, if_neg (by simp [new])]
      refine renewal_of_listed listed rfl (fun keeps => .inr ⟨info, nick, ?_, ?_⟩) ?_ rfl
        ⟨_, announced_own listed rfl (ownLong info nick) none_own⟩
      · simp [newLong, addQueueItem]
      · simp [newLong, addQueueItem, keeps]
      · simp [dropped]
  · have keepsLong : cfg.keepsLong = true := by simp_all [Config.keepsLong]
    have keepsShort : cfg.keepsShort = true := by simp_all [Config.keepsShort]
    rcases generateMyInfoLong_cases cfg x c with ⟨-, eq⟩ | ⟨info, nick, new, eq⟩
    · rw [eq]
      exact idle
    · rw [eq, if_neg (by simp [new])]
      have same : ((x.newLong cfg c info).users c).sNick = (x.users c).sNick := by simp [newLong]
      rcases generateMyInfoShort_cases cfg (x.newLong cfg c info) c with
        ⟨-, eq'⟩ | ⟨info', nick', new', eq'⟩
      · rw [eq']
        refine renewal_of_listed listed rfl (fun _ => .inr ⟨info, nick, ?_, ?_⟩)
          (fun _ => .inl ⟨listed, ?_, rfl⟩) rfl
          ⟨_, announced_own listed rfl none_own (ownLong info nick)⟩
        · simp [newLong, addQueueItem]
        · simp [newLong, addQueueItem, keepsLong]
        · simp [newLong, addQueueItem]
      · rw [eq', if_neg (by simp [new'])]
        have both (l s : Option MyInfo) (hl : l = some info) (hs : s = some info') :
            ((x.newLong cfg c info).newShort cfg c info').users = Function.update x.users c
              { x.users c with myInfoLong := l, myInfoShort := s } := by
          rw [hl, hs]
          simp [newLong, newShort]
        have nick' : info'.nick = (x.users c).sNick := nick'.trans same
        have own0 : OwnInfos (x.users c).sNick
            (if isDue then ((x.newLong cfg c info).newShort cfg c info').shortMsg c else []) := by
          split
          · have has : (((x.newLong cfg c info).newShort cfg c info').users c).myInfoShort =
              some info' := by simp [newShort]
            rw [shortMsg, has]
            exact ownInfos_toList fun i eq => Option.some.inj eq ▸ nick'
          · exact none_own
        have own1 : OwnInfos (x.users c).sNick
            (((x.newLong cfg c info).newShort cfg c info').longMsg c) := by
          have has : (((x.newLong cfg c info).newShort cfg c info').users c).myInfoLong =
            some info := by simp [newShort, newLong]
          rw [longMsg, has]
          exact ownInfos_toList fun i eq => Option.some.inj eq ▸ nick
        refine renewal_of_listed listed (both _ _ rfl rfl) (fun _ => .inr ⟨info, nick, ?_, ?_⟩)
          (fun _ => .inr ⟨info', nick', ?_, ?_⟩) rfl ⟨_, announced_own listed rfl own0 own1⟩
        · simp [newLong, newShort, addQueueItem]
        · simp [newLong, newShort, addQueueItem, keepsLong]
        · simp [newLong, newShort, addQueueItem]
        · simp [newLong, newShort, addQueueItem, keepsShort]
  · rename_i mode
    have dropped : cfg.keepsLong = false := by simp [Config.keepsLong, mode]
    rcases generateMyInfoShort_cases cfg x c with ⟨-, eq⟩ | ⟨info, nick, new, eq⟩
    · rw [eq]
      exact idle
    · rw [eq, if_neg (by simp [new])]
      refine renewal_of_listed listed rfl ?_ (fun keeps => .inr ⟨info, nick, ?_, ?_⟩) rfl
        ⟨_, announced_own listed rfl (ownShort info nick) none_own⟩
      · simp [dropped]
      · simp [newShort, addQueueItem]
      · simp [newShort, addQueueItem, keeps]

/-! ## A user that leaves and comes back -/

/-- Broadcasts that tell the truth change nothing. -/
theorem Scene.posts (scene : x.Scene cfg due) {items : List (QueueItem Msg)}
    (lists : y.nickList = x.nickList ∧ y.myInfosTag = x.myInfosTag ∧ y.myInfos = x.myInfos)
    (users : y.users = x.users) (queue : y.queue.newQueueItems = x.queue.newQueueItems ++ items)
    (true_ : ∀ nick v b, told nick (delivered cfg v items) = some b → (b = true ↔ x.Listed nick)) :
    y.Scene cfg due where
  toStanding := scene.steady lists fun d => by
    rw [users]
    exact (calmUser_refl x.Listed _).toSteadyUser
  views := by
    have same (nick : Text) : y.Listed nick ↔ x.Listed nick := by rw [Listed, Listed, users]
    apply scene.views.step queue
    · intro nick human v
      rw [same]
      cases last : told nick (delivered cfg v items) with
      | none => exact .inl ⟨rfl, Iff.rfl⟩
      | some b => exact .inr ⟨b, rfl, true_ nick v b last⟩
    · intro c added
      rw [users] at added ⊢
      exact ⟨added, [], (List.append_nil _).symm, fun _ _ => .inl rfl⟩

theorem tellKeyLost_lists : (x.tellKeyLost cfg c).nickList = x.nickList ∧
    (x.tellKeyLost cfg c).myInfosTag = x.myInfosTag ∧
      (x.tellKeyLost cfg c).myInfos = x.myInfos := by
  unfold tellKeyLost
  dsimp only
  split <;> exact ⟨rfl, rfl, rfl⟩

theorem told_quitItem (own : Text) (v : QueueUser) (nick : Text) :
    told nick (delivered cfg v [⟨.quit, [.quit own], []⟩]) =
      if own = nick then some false else none := by
  rw [delivered_singleton]
  exact told_quit

/-- Who has lost its key leaves for the clients, and comes back if it is in the list. -/
theorem Scene.tellKeyLost (scene : x.Scene cfg due)
    (live : (x.users c).state.isPastLogin = false)
    (fresh : (x.users c).state.isListed = false → ¬ x.Listed (x.users c).sNick) :
    (x.tellKeyLost cfg c).Scene cfg due := by
  apply scene.posts tellKeyLost_lists tellKeyLost_users tellKeyLost_queue
  intro nick v b last
  rw [← List.singleton_append, delivered_append, told_append, told_quitItem] at last
  cases listed : (x.users c).state.isListed with
  | true =>
    have has : HasInfos cfg (x.users c) :=
      ⟨fun keeps => (scene.long keeps).own c listed, fun keeps => (scene.short keeps).own c listed⟩
    rw [told_infoItem has] at last
    by_cases same : (x.users c).sNick = nick
    · rw [if_pos same, Option.some_or, Option.some.injEq] at last
      rw [← last, ← same]
      exact iff_of_true rfl (listed_of_user listed)
    · rw [if_neg same, if_neg same] at last
      cases last
  | false =>
    obtain ⟨long, short⟩ := (scene.modest c).infos live listed
    have empty : delivered cfg v [x.infoItem cfg c] = [] := by
      rw [delivered_singleton, List.eq_nil_iff_forall_not_mem]
      intro msg mem
      have none_there := itemData_mem mem
      unfold infoItem longMsg shortMsg at none_there
      rw [long, short] at none_there
      split at none_there <;> simp [infoMsgs] at none_there
    rw [empty, told_nil, Option.none_or] at last
    split at last
    · rename_i same
      rw [← Option.some.inj last, ← same]
      exact iff_of_false Bool.false_ne_true (fresh listed)
    · cases last

end

end Hub

end FlyHub.Session
