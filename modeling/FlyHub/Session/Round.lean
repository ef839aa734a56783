import FlyHub.Session.Leave

/-!
# A round of `SendLoop`

Each user in turn is sent the lists if it is new, or else the broadcasts of the round. Those
who are still to come have not been sent them yet.
-/

namespace FlyHub.Session

open FlyHub.Broadcast FlyHub.Lists FlyHub.Lib

namespace Hub

/-- What of the round a user has not been sent while the loop has `rest` to go. -/
def dueTo (items : List (QueueItem Msg)) (rest : List UserId) (c : UserId) :
    List (QueueItem Msg) :=
  if c ∈ rest then items else []

/-- The queue in the middle of a round: a global queue has the text of one of its users. -/
structure Filled (cfg : Config) (items : List (QueueItem Msg))
    (q : GlobalDataQueue Msg (List Msg)) : Prop where
  round : q.queueItems = items
  opList : q.opListQueue = []
  userIP : q.userIPQueue = []
  empty : ∀ t, (q.globalQueues t).created = false → (q.globalQueues t).buffer = []
  full : ∀ t, (q.globalQueues t).created = true → t ∈ q.createdGlobalQueues ∧
    ∃ u, (q.globalQueues t).buffer = delivered cfg u items

/-- The MyINFOs that `AddUserList` sends. -/
def infosFor (cfg : Config) (x : Hub) (c : UserId) : List MyInfo :=
  if cfg.fullMyINFOOption.val = 0 || cfg.fullMyINFOOption.val = 1 &&
    x.isAllowed cfg c .sendFullMyInfos then x.myInfosTag else x.myInfos

/-- The texts of `AddUserList`. -/
def userListMsgs (cfg : Config) (x : Hub) (c : UserId) : List Msg :=
  (if (x.users c).noHello then [] else [.nickList (x.nickListFor cfg c)]) ++
    infoMsgs (x.infosFor cfg c)

section
variable {cfg : Config} {x y : Hub} {c : UserId} {nick : Text}
  {items : List (QueueItem Msg)} {rest : List UserId} {u : QueueUser}
  {q : GlobalDataQueue Msg (List Msg)} {due due' : UserId → List (QueueItem Msg)}

/-! ## The queue -/

theorem addData_eq (q data : List Msg) : msgSink.addDataToQueueStr q data = q ++ data := by
  unfold Sink.addDataToQueueStr
  cases data with
  | nil => simp
  | cons msg data => rfl

theorem foldl_addData (q : List Msg) (items : List (QueueItem Msg)) :
    items.foldl (fun q item => msgSink.addDataToQueueStr q
      (itemData matchExtJson u (u.queueBits cfg.queueSettings) item)) q =
      q ++ delivered cfg u items := by
  induction items generalizing q with
  | nil => simp
  | cons item items ih =>
    rw [List.foldl_cons, ih, addData_eq, List.append_assoc, ← delivered_singleton,
      ← delivered_append]
    rfl

theorem Filled.fillQueue (filled : Filled cfg items q) (u : QueueUser) :
    q.fillQueue msgSink matchExtJson cfg.queueSettings u [] = delivered cfg u items := by
  unfold GlobalDataQueue.fillQueue
  dsimp only
  rw [foldl_addData, filled.opList, filled.userIP, addData_eq, addData_eq, filled.round]
  simp

/-- A user is sent what one of its kind is sent. -/
theorem Filled.processQueues (filled : Filled cfg items q) (u : QueueUser) :
    Filled cfg items (q.processQueues msgSink matchExtJson cfg.queueSettings u) ∧
      ∃ v, (q.processQueues msgSink matchExtJson cfg.queueSettings u).selected msgSink
        cfg.queueSettings u = delivered cfg v items := by
  unfold GlobalDataQueue.processQueues GlobalDataQueue.selected
  dsimp only
  cases created : (q.globalQueues (u.queueType cfg.queueSettings)).created with
  | true =>
    rw [if_pos rfl]
    exact ⟨filled, (filled.full _ created).2⟩
  | false =>
    rw [if_neg Bool.false_ne_true, filled.empty _ created, filled.fillQueue]
    dsimp only
    refine ⟨⟨filled.round, filled.opList, filled.userIP, fun t none_ => ?_, fun t done => ?_⟩,
      u, ?_⟩
    · by_cases same : t = u.queueType cfg.queueSettings
      · dsimp only at none_
        rw [same, Function.update_self] at none_
        cases none_
      · dsimp only at none_ ⊢
        rw [Function.update_of_ne same] at none_ ⊢
        exact filled.empty t none_
    · by_cases same : t = u.queueType cfg.queueSettings
      · dsimp only
        rw [same, Function.update_self]
        exact ⟨List.mem_cons_self, u, rfl⟩
      · dsimp only at done ⊢
        rw [Function.update_of_ne same] at done ⊢
        obtain ⟨mem, full⟩ := filled.full t done
        exact ⟨List.mem_cons_of_mem _ mem, full⟩
    · rw [Function.update_self]
      rfl

theorem Filled.posted (filled : Filled cfg items x.queue) (posted : Posted x y) :
    Filled cfg items y.queue := by
  obtain ⟨more, eq⟩ := posted.queue
  rw [eq]
  exact ⟨filled.round, filled.opList, filled.userIP, filled.empty, filled.full⟩

/-- Nothing waits when there are no items. -/
theorem Filled.haveItems (filled : Filled cfg items q) : q.haveItems = !items.isEmpty := by
  unfold GlobalDataQueue.haveItems
  rw [filled.round, filled.opList, filled.userIP]
  simp

/-! ## The lists -/

theorem mem_infosFor (standing : x.Standing cfg) (human : ¬ cfg.IsBot nick) :
    nick ∈ (x.infosFor cfg c).map MyInfo.nick ↔ x.Listed nick := by
  unfold infosFor
  split
  · rename_i long
    have keeps : cfg.keepsLong = true := by
      unfold Config.keepsLong
      rw [decide_eq_true_eq]
      rintro mode
      simp [mode] at long
    exact (standing.long keeps).nicks human
  · rename_i long
    have keeps : cfg.keepsShort = true := by
      unfold Config.keepsShort
      rw [decide_eq_true_eq]
      rintro mode
      simp [mode] at long
    exact (standing.short keeps).nicks human

theorem mem_nickListFor (standing : x.Standing cfg) (valid : cfg.BotsValid)
    (human : ¬ cfg.IsBot nick) : nick ∈ readNickList (x.nickListFor cfg c) ↔ x.Listed nick := by
  obtain ⟨words, named⟩ := standing.named
  have plain : nick ∈ readNickList x.nickList ↔ x.Listed nick := by
    rw [named.read]
    exact named.listed nick human
  unfold nickListFor
  cases chat : cfg.opChatNick with
  | none => exact plain
  | some bot =>
    dsimp only
    split
    · have clean : Clean (words ++ [bot]) := by
        intro w mem
        cases List.mem_append.mp mem with
        | inl old => exact (named.valid w old).clean
        | inr last =>
          rw [List.mem_singleton.mp last]
          exact (valid bot (.inr chat)).clean
      have other : nick ≠ bot := by
        rintro rfl
        exact human (.inr chat)
      rw [named.text, add_render, read_render clean, List.mem_append, List.mem_singleton,
        or_iff_left other]
      exact named.listed nick human
    · exact plain

/-- The lists tell of everyone in the list, and of nobody else but the bots. -/
theorem told_userListMsgs (standing : x.Standing cfg) (valid : cfg.BotsValid)
    (human : ¬ cfg.IsBot nick) :
    (x.Listed nick → told nick (x.userListMsgs cfg c) = some true) ∧
      (¬ x.Listed nick → told nick (x.userListMsgs cfg c) = none) := by
  have infos := told_infos nick (x.infosFor cfg c)
  have mem := mem_infosFor standing human (c := c)
  unfold userListMsgs
  rw [told_append, infos]
  constructor
  · intro listed
    rw [if_pos (mem.mpr listed), Option.some_or]
  · intro unlisted
    rw [if_neg (mt mem.mp unlisted), Option.none_or]
    split
    · rfl
    · have missing := mt (mem_nickListFor standing valid human (c := c)).mp unlisted
      rw [told_singleton]
      exact if_neg (mt any_eq.mp missing)

/-! ## Steps of the round -/

theorem Views.agree_new (views : x.Views cfg due) (c : UserId) (human : ¬ cfg.IsBot nick)
    (v : QueueUser) (b : Bool)
    (last : told nick (delivered cfg v x.queue.newQueueItems) = some b) :
    b = true ↔ x.Listed nick := by
  apply views.agree c nick human v v b
  rw [told_append, last, Option.some_or]

/-- Nothing is due any more to users who are not in `ADDED`. -/
theorem Scene.redue (scene : x.Scene cfg due)
    (same : ∀ c, due' c = due c ∨ due' c = [] ∧ (x.users c).state ≠ .added) :
    x.Scene cfg due' where
  toStanding := scene.toStanding
  views := by
    constructor
    · intro c nick human u v b last
      rcases same c with eq | ⟨none_, -⟩
      · rw [eq] at last
        exact scene.views.agree c nick human u v b last
      · rw [none_] at last
        exact scene.views.agree_new c human v b last
    · intro c added nick human u v
      rcases same c with eq | ⟨-, other⟩
      · rw [eq]
        exact scene.views.shown c added nick human u v
      · exact absurd added other

/-- A user in `ADDED` is sent the lists again. -/
theorem Scene.sendLists (scene : x.Scene cfg due) (valid : cfg.BotsValid)
    (added : (x.users c).state = .added) : (x.addUserList cfg c).Scene cfg due := by
  have same : x.addUserList cfg c = x.sendAll c (x.userListMsgs cfg c) := rfl
  rw [same, sendAll_eq]
  apply scene.modify
  apply calmUser_put
  · intro _ nick human
    by_cases listed : x.Listed nick
    · exact .inr ⟨(told_userListMsgs scene.toStanding valid human).1 listed, listed⟩
    · exact .inl ((told_userListMsgs scene.toStanding valid human).2 listed)
  · exact fun _ waits => absurd added waits

/-- A step that only changes one user, to whom nothing is due after it. -/
theorem Scene.turn (scene : x.Scene cfg due)
    (lists : y.nickList = x.nickList ∧ y.myInfosTag = x.myInfosTag ∧ y.myInfos = x.myInfos)
    (queue : y.queue.newQueueItems = x.queue.newQueueItems)
    (self : SteadyUser cfg (x.users c) (y.users c))
    (others : ∀ d, d ≠ c → y.users d = x.users d) (none_ : due' c = [])
    (same : ∀ d, d ≠ c → due' d = due d)
    (shown : ∀ nick, ¬ cfg.IsBot nick → ∀ v,
      told nick ((y.users c).sendBuf ++ delivered cfg v x.queue.newQueueItems) = some true ↔
        x.Listed nick) : y.Scene cfg due' := by
  have users (d : UserId) : SteadyUser cfg (x.users d) (y.users d) := by
    by_cases eq : d = c
    · rw [eq]
      exact self
    · rw [others d eq]
      exact (calmUser_refl x.Listed _).toSteadyUser
  have listed := steady_listed users
  refine ⟨scene.steady lists users, ⟨?_, ?_⟩⟩
  · intro d nick human w w' b last
    rw [queue] at last
    rw [listed]
    by_cases eq : d = c
    · rw [eq, none_] at last
      exact scene.views.agree_new c human w' b last
    · rw [same d eq] at last
      exact scene.views.agree d nick human w w' b last
  · intro d now nick human w w'
    rw [listed, queue]
    by_cases eq : d = c
    · rw [eq, none_, delivered_nil, List.nil_append]
      exact shown nick human w'
    · rw [same d eq]
      rw [others d eq] at now ⊢
      exact scene.views.shown d now nick human w w'

/-- A user in `ADDED` is sent what is due to it. -/
theorem Scene.serve (scene : x.Scene cfg due) (v : QueueUser) (added : (x.users c).state = .added)
    (lists : y.nickList = x.nickList ∧ y.myInfosTag = x.myInfosTag ∧ y.myInfos = x.myInfos)
    (queue : y.queue.newQueueItems = x.queue.newQueueItems)
    (self : (y.users c).sight =
      { (x.users c).sight with sendBuf := (x.users c).sendBuf ++ delivered cfg v (due c) })
    (others : ∀ d, d ≠ c → y.users d = x.users d) (none_ : due' c = [])
    (same : ∀ d, d ≠ c → due' d = due d) : y.Scene cfg due' := by
  simp only [User.sight, Sight.mk.injEq] at self
  obtain ⟨state, sNick, pinger, news, long, short, cmdList, sendBuf⟩ := self
  refine scene.turn lists queue ?_ others none_ same fun nick human w => ?_
  · refine ⟨by rw [state], fun _ => ⟨sNick, long, short⟩, fun modest => ?_⟩
    refine ⟨sNick ▸ modest.valid, ?_, ?_, ?_, ?_, fun _ waits => absurd (state.trans added) waits⟩
    · rw [state, pinger]
      exact modest.user
    · rw [state, long, short]
      exact modest.infos
    · rw [state, news]
      exact modest.news
    · rw [state, cmdList]
      exact modest.hello
  · rw [sendBuf, List.append_assoc]
    exact scene.views.shown c added nick human v w

/-- A user comes to `ADDED` and is sent the lists. -/
theorem Scene.enter (scene : x.Scene cfg due) (valid : cfg.BotsValid)
    (waits : (x.users c).state = .addMe2Loop)
    (lists : y.nickList = x.nickList ∧ y.myInfosTag = x.myInfosTag ∧ y.myInfos = x.myInfos)
    (queue : y.queue.newQueueItems = x.queue.newQueueItems)
    (self : (y.users c).sight = { (x.users c).sight with
      state := .added, sendBuf := (x.users c).sendBuf ++ x.userListMsgs cfg c })
    (others : ∀ d, d ≠ c → y.users d = x.users d) (none_ : due' c = [])
    (same : ∀ d, d ≠ c → due' d = due d) : y.Scene cfg due' := by
  simp only [User.sight, Sight.mk.injEq] at self
  obtain ⟨state, sNick, pinger, news, long, short, cmdList, sendBuf⟩ := self
  have modest := scene.modest c
  have user : (x.users c).pinger = false := modest.user (by rw [waits]; rfl)
  refine scene.turn lists queue ?_ others none_ same fun nick human w => ?_
  · refine ⟨by rw [state, waits]; rfl, fun _ => ⟨sNick, long, short⟩, fun _ => ?_⟩
    refine ⟨sNick ▸ modest.valid, fun _ => pinger.trans user, fun _ unlisted => ?_, fun _ _ => ?_,
      fun _ _ => ?_, fun _ waits => absurd state waits⟩
    · rw [isListed_of_added state] at unlisted
      cases unlisted
    · exact isListed_of_added state
    · rw [state]
      decide
  · rw [sendBuf, told_append, told_append]
    cases last : told nick (delivered cfg w x.queue.newQueueItems) with
    | some b =>
      rw [Option.some_or, Option.some.injEq]
      exact scene.views.agree_new c human w b last
    | none =>
      rw [Option.none_or]
      by_cases inList : x.Listed nick
      · rw [(told_userListMsgs scene.toStanding valid human).1 inList, Option.some_or]
        exact iff_of_true rfl inList
      · rw [(told_userListMsgs scene.toStanding valid human).2 inList, Option.none_or]
        -- all it has been told before is its own nick, which is in the list
        refine iff_of_false (fun before => ?_) inList
        have own :=
          modest.own (by rw [waits]; rfl) (by rw [waits]; simp) user nick human true before
        exact inList ⟨c, by rw [waits]; rfl, own.2.1.symm⟩

/-! ## One user's turn -/

/-- `c` has had its turn. -/
structure Served (cfg : Config) (items : List (QueueItem Msg)) (rest : List UserId) (x z : Hub)
    (c : UserId) : Prop where
  scene : z.Scene cfg (dueTo items rest)
  filled : Filled cfg items z.queue
  struck : Struck x z
  listed : (z.users c).state.isListed = true → (x.users c).state.isListed = true ∧
    (z.users c).sNick = (x.users c).sNick ∧ (z.users c).state = .added
  others : ∀ d, d ≠ c → z.users d = x.users d

/-- `c` has had its turn, what the socket does aside. -/
structure Serving (cfg : Config) (items : List (QueueItem Msg)) (rest : List UserId) (x z : Hub)
    (c : UserId) : Prop extends Served cfg items rest x z c where
  nickList : z.nickList = x.nickList
  sNick : (z.users c).sNick = (x.users c).sNick

theorem dueTo_head : dueTo items (c :: rest) c = items := if_pos List.mem_cons_self

theorem dueTo_served (fresh : c ∉ rest) : dueTo items rest c = [] := if_neg fresh

theorem dueTo_tail {d : UserId} (differs : d ≠ c) :
    dueTo items rest d = dueTo items (c :: rest) d := by
  unfold dueTo
  simp only [List.mem_cons, differs, false_or]

theorem addUserList_eq : x.addUserList cfg c = x.modify c fun u =>
    (x.userListMsgs cfg c).foldl User.put u := sendAll_eq _

/-- A user in `ADDME_2LOOP`. -/
theorem served_new (scene : x.Scene cfg (dueTo items (c :: rest))) (valid : cfg.BotsValid)
    (filled : Filled cfg items x.queue) (fresh : c ∉ rest)
    (waits : (x.users c).state = .addMe2Loop) :
    Serving cfg items rest x
      (((x.modify c fun u => { u with state := .added, pBan := none, buffer := none }).addUserList
        cfg c).modify c fun u => { u with getNickList := false }) c := by
  have msgs : (x.modify c fun u =>
      { u with state := .added, pBan := none, buffer := none }).userListMsgs cfg c =
        x.userListMsgs cfg c := by
    unfold userListMsgs infosFor nickListFor isAllowed
    rw [modify_self]
    rfl
  have after := foldl_put { x.users c with state := .added, pBan := none, buffer := none }
    (x.userListMsgs cfg c)
  have live : UserState.added.isPastLogin = false := rfl
  simp only [live, Bool.false_eq_true, if_false] at after
  generalize eq : Hub.modify _ c (fun u => { u with getNickList := false }) = z
  have self : (z.users c).sight = { (x.users c).sight with
      state := .added, sendBuf := (x.users c).sendBuf ++ x.userListMsgs cfg c } := by
    rw [← eq, modify_self, addUserList_eq, modify_self, modify_self, msgs]
    exact after
  have others (d : UserId) (differs : d ≠ c) : z.users d = x.users d := by
    rw [← eq, modify_ne differs, addUserList_eq, modify_ne differs, modify_ne differs]
  have lists : z.nickList = x.nickList ∧ z.myInfosTag = x.myInfosTag ∧ z.myInfos = x.myInfos ∧
      z.queue = x.queue := by
    rw [← eq, addUserList_eq]
    exact ⟨rfl, rfl, rfl, rfl⟩
  have sNick : (z.users c).sNick = (x.users c).sNick := congrArg Sight.sNick self
  refine ⟨⟨?_, by rw [lists.2.2.2]; exact filled, .inl lists.1,
    fun _ => ⟨by rw [waits]; rfl, sNick, congrArg Sight.state self⟩, others⟩, lists.1, sNick⟩
  exact scene.enter valid waits ⟨lists.1, lists.2.1, lists.2.2.1⟩ (by rw [lists.2.2.2]) self others
    (dueTo_served fresh) fun d differs => dueTo_tail differs

/-- A user in `ADDED` that has asked for the lists. -/
theorem Scene.again (scene : x.Scene cfg due) (valid : cfg.BotsValid)
    (added : (x.users c).state = .added) : (if (x.users c).getNickList then
      (x.addUserList cfg c).modify c fun u => { u with getNickList := false } else x).Scene
        cfg due := by
  split
  · exact (scene.sendLists valid added).modify (calmUser_of_sight rfl)
  · exact scene

theorem again_same (cfg : Config) (x : Hub) (c : UserId) :
    ∃ f : User → User,
      (if (x.users c).getNickList then
        (x.addUserList cfg c).modify c fun u => { u with getNickList := false } else x) =
        x.modify c f ∧ (∀ u, (f u).state = u.state ∧ (f u).sNick = u.sNick) := by
  split
  · refine ⟨(fun u => { u with getNickList := false }) ∘
      fun u => (x.userListMsgs cfg c).foldl User.put u, ?_, fun u => ?_⟩
    · rw [addUserList_eq, modify_modify]
    · have after := foldl_put u (x.userListMsgs cfg c)
      exact ⟨congrArg Sight.state after, congrArg Sight.sNick after⟩
  · exact ⟨id, modify_id.symm, fun _ => ⟨rfl, rfl⟩⟩

/-- A user in `ADDED`. -/
theorem served_added (scene : x.Scene cfg (dueTo items (c :: rest)))
    (filled : Filled cfg items x.queue) (fresh : c ∉ rest) (added : (x.users c).state = .added) :
    Serving cfg items rest x (if x.queue.haveItems then x.processQueues cfg c else x) c := by
  rw [filled.haveItems]
  cases items with
  | nil =>
    have same : x.Scene cfg (dueTo [] rest) := by
      apply scene.redue
      intro d
      unfold dueTo
      split <;> split <;> exact .inl rfl
    exact ⟨⟨same, filled, .inl rfl, fun listed => ⟨listed, rfl, added⟩, fun _ _ => rfl⟩, rfl, rfl⟩
  | cons item items =>
    obtain ⟨filled', v, text⟩ := filled.processQueues (x.queueUser c)
    have eq : x.processQueues cfg c = (x.setQueue (x.queue.processQueues msgSink matchExtJson
        cfg.queueSettings (x.queueUser c))).modify c fun u =>
          (delivered cfg v (item :: items)).foldl User.put u := by
      unfold Hub.processQueues
      dsimp only
      rw [text, sendAll_eq]
    have after := foldl_put (x.users c) (delivered cfg v (item :: items))
    have live : (x.users c).state.isPastLogin = false := by rw [added]; rfl
    rw [live, if_neg Bool.false_ne_true] at after
    have new (q : GlobalDataQueue Msg (List Msg)) (u : QueueUser) : (q.processQueues msgSink
        matchExtJson cfg.queueSettings u).newQueueItems = q.newQueueItems := by
      unfold GlobalDataQueue.processQueues
      dsimp only
      split <;> rfl
    change Serving cfg (item :: items) rest x (x.processQueues cfg c) c
    rw [eq]
    have sNick : ((x.modify c fun u =>
        (delivered cfg v (item :: items)).foldl User.put u).users c).sNick = (x.users c).sNick := by
      rw [modify_self]
      exact congrArg Sight.sNick after
    refine ⟨⟨?_, filled', .inl rfl, fun _ => ⟨isListed_of_added added, sNick, ?_⟩,
      fun d differs => ?_⟩, rfl, sNick⟩
    · refine scene.serve v added ⟨rfl, rfl, rfl⟩ (new _ _) ?_ (fun d differs => modify_ne differs)
        (dueTo_served fresh) fun d differs => dueTo_tail differs
      rw [modify_self, dueTo_head]
      exact after
    · rw [modify_self]
      exact (congrArg Sight.state after).trans added
    · exact modify_ne differs

/-- A user that is not in the list. -/
theorem served_unlisted (scene : x.Scene cfg (dueTo items (c :: rest)))
    (filled : Filled cfg items x.queue) (fresh : c ∉ rest)
    (unlisted : (x.users c).state.isListed = false) : Serving cfg items rest x x c where
  scene := by
    apply scene.redue
    intro d
    by_cases same : d = c
    · subst same
      refine .inr ⟨dueTo_served fresh, fun added => ?_⟩
      rw [isListed_of_added added] at unlisted
      cases unlisted
    · exact .inl (dueTo_tail same)
  filled := filled
  struck := .inl rfl
  nickList := rfl
  sNick := rfl
  listed := fun listed => by simp [unlisted] at listed
  others := fun _ _ => rfl

/-- What the socket does may close the user. -/
theorem Serving.try2Send {z : Hub} (serving : Serving cfg items rest x z c) (result : SendResult)
    (cut : (x.users c).state.isListed = true →
      ((z.try2Send cfg c result).users c).state.isPastLogin = true → x.Findable c) :
    Served cfg items rest x (z.try2Send cfg c result) c := by
  rcases try2Send_cases cfg z c result with ⟨f, same, eq⟩ | eq
  · rw [eq]
    have sight := same (z.users c)
    refine ⟨serving.scene.modify (calmUser_of_sight sight), serving.filled, .inl serving.nickList,
      fun listed => ?_, fun d differs => ?_⟩
    · have state := congrArg Sight.state sight
      have nick := congrArg Sight.sNick sight
      simp only [User.sight] at state nick
      rw [modify_self, state] at listed ⊢
      rw [nick]
      exact serving.listed listed
    · rw [modify_ne differs]
      exact serving.others d differs
  · have past : ((z.fail cfg c).users c).state.isPastLogin = true := closeWith_past false c
    rw [eq] at cut ⊢
    have broken : (z.modify c fun u => { u with error := true }).Scene cfg (dueTo items rest) :=
      serving.scene.modify (calmUser_of_sight rfl)
    refine ⟨?_, ?_, ?_, fun listed => ?_, fun d differs => ?_⟩
    · apply broken.closeWith
      intro listed
      rw [modify_self] at listed ⊢
      have before := (serving.listed listed).1
      rw [modify_nickList, serving.nickList]
      exact ⟨rfl, serving.sNick ▸ cut before past⟩
    · exact serving.filled.posted ((posted_modify c _).trans (posted_closeWith false))
    · have text : (z.modify c fun u => { u with error := true }).nickList = x.nickList :=
        serving.nickList
      have closed : Struck (z.modify c fun u => { u with error := true }) (z.fail cfg c) :=
        struck_closeWith false
      rcases closed with same | ⟨d, now, gone, same⟩
      · exact .inl (same.trans text)
      · rw [text] at same
        by_cases eq : d = c
        · subst eq
          rw [modify_self] at now same
          have before := serving.listed now
          exact .inr ⟨d, before.1, gone, before.2.1 ▸ same⟩
        · rw [modify_ne eq, serving.others d eq] at now same
          exact .inr ⟨d, now, gone, same⟩
    · rw [live_of_isListed listed] at past
      cases past
    · unfold fail close
      rw [closeWith_users false differs, modify_ne differs]
      exact serving.others d differs

/-- What comes before the turn of `c` and is about it alone. -/
theorem Serving.after {f : User → User} {z : Hub}
    (serving : Serving cfg items rest (x.modify c f) z c)
    (same : ∀ u, (f u).state = u.state ∧ (f u).sNick = u.sNick) :
    Serving cfg items rest x z c where
  scene := serving.scene
  filled := serving.filled
  struck := .inl serving.nickList
  nickList := serving.nickList
  listed := by
    intro listed
    have before := serving.listed listed
    rw [modify_self, (same _).1, (same _).2] at before
    exact before
  others := by
    intro d differs
    rw [serving.others d differs, modify_ne differs]
  sNick := by
    rw [serving.sNick, modify_self, (same _).2]

/-- What the turn of a user does. -/
theorem served_sendUser (scene : x.Scene cfg (dueTo items (c :: rest))) (valid : cfg.BotsValid)
    (filled : Filled cfg items x.queue) (fresh : c ∉ rest) (result : SendResult)
    (cut : (x.users c).state.isListed = true →
      ((x.sendUser cfg c result).users c).state.isPastLogin = true → x.Findable c) :
    Served cfg items rest x (x.sendUser cfg c result) c := by
  unfold sendUser at cut ⊢
  cases state : (x.users c).state with
  | addMe2Loop =>
    simp only [state] at cut
    exact (served_new scene valid filled fresh state).try2Send result fun listed =>
      cut (state ▸ listed)
  | added =>
    simp only [state] at cut
    have again := scene.again valid state
    obtain ⟨f, eq, same⟩ := again_same cfg x c
    rw [eq] at again cut ⊢
    have added : ((x.modify c f).users c).state = .added := by
      rw [modify_self, (same _).1]
      exact state
    have serving := served_added again filled fresh added
    exact (serving.after same).try2Send result fun listed => cut (state ▸ listed)
  | closing | remMe =>
    exact (served_unlisted scene filled fresh (by rw [state]; rfl)).toServed
  | _ =>
    simp only [state] at cut
    exact (served_unlisted scene filled fresh (by rw [state]; rfl)).try2Send result fun listed =>
      cut (state ▸ listed)

end

end Hub

end FlyHub.Session
