import FlyHub.Session.Round

/-!
# What clients know of the list

`SendLoop` gives every user its turn, after which all who are in the list are in `ADDED` and
nothing is due to them. So when no broadcast waits what a client knows is who is in `ADDED`.
-/

namespace FlyHub.Session

open FlyHub.Broadcast FlyHub.Lists FlyHub.Lib

namespace Hub

/-- What each user in `ADDED` has been told is who is in `ADDED`, the bots of the hub aside. -/
def ViewsRight (cfg : Config) (h : Hub) : Prop :=
  ∀ c, (h.users c).state = .added → ∀ nick, ¬ cfg.IsBot nick →
    (nick ∈ known (h.users c).sendBuf ↔
      ∃ d, (h.users d).state = .added ∧ (h.users d).sNick = nick)

/-- No hashed connection gets another nick, no ghost in the list loses its nick to a QuickList
user, and whoever leaves the list has a nick that is found in its place there. -/
structure KeepsViews (cfg : Config) (h : Hub) (e : Event) : Prop where
  once : namesOnce cfg (h.advance e) e.action = true
  heard : hushes cfg (h.advance e) e.action = false
  found : ∀ c ∈ h.userList, (h.users c).state.isListed = true →
    ((step cfg h e).users c).state.isPastLogin = true → h.Findable c

instance (cfg : Config) (h : Hub) (e : Event) : Decidable (KeepsViews cfg h e) :=
  decidable_of_iff (namesOnce cfg (h.advance e) e.action = true ∧
    hushes cfg (h.advance e) e.action = false ∧
    ∀ c ∈ h.userList, (h.users c).state.isListed = true →
      ((step cfg h e).users c).state.isPastLogin = true → h.Findable c)
    ⟨fun ⟨once, heard, found⟩ => ⟨once, heard, found⟩,
      fun ⟨once, heard, found⟩ => ⟨once, heard, found⟩⟩

section
variable {cfg : Config} {x y : Hub} {c d : UserId} {nick : Text}
  {items : List (QueueItem Msg)} {us : List UserId}

/-! ## All users of the loop -/

theorem try2Send_users (z : Hub) (result : SendResult) (other : d ≠ c) :
    (z.try2Send cfg c result).users d = z.users d := by
  rcases try2Send_cases cfg z c result with ⟨f, -, eq⟩ | eq
  · rw [eq, modify_ne other]
  · rw [eq]
    unfold fail close
    rw [closeWith_users false other, modify_ne other]

theorem sendUser_users (result : SendResult) (other : d ≠ c) :
    (x.sendUser cfg c result).users d = x.users d := by
  have queues (z : Hub) : (z.processQueues cfg c).users d = z.users d := by
    unfold Hub.processQueues
    dsimp only
    rw [sendAll_eq, modify_ne other]
    rfl
  unfold sendUser
  cases (x.users c).state with
  | addMe2Loop =>
    dsimp only
    rw [try2Send_users _ _ other, modify_ne other, addUserList_eq, modify_ne other, modify_ne other]
  | added =>
    obtain ⟨f, eq, -⟩ := again_same cfg x c
    dsimp only
    rw [try2Send_users _ _ other, eq]
    split
    · rw [queues, modify_ne other]
    · rw [modify_ne other]
  | closing | remMe => rfl
  | _ => exact try2Send_users _ _ other

theorem foldl_sendUser_users (results : UserId → SendResult) (missing : d ∉ us) :
    (us.foldl (fun h c => h.sendUser cfg c (results c)) x).users d = x.users d := by
  induction us generalizing x with
  | nil => rfl
  | cons c us ih =>
    rw [List.mem_cons, not_or] at missing
    rw [List.foldl_cons, ih missing.2, sendUser_users _ missing.1]

theorem Served.left {z : Hub} {rest : List UserId} {due : UserId → List (QueueItem Msg)}
    (scene : x.Scene cfg due) (served : Served cfg items rest x z c)
    (cut : (x.users c).state.isListed = true → (z.users c).state.isPastLogin = true →
      x.Findable c) : Left x z := by
  refine scene.left served.struck (fun d listed => ?_) fun d listed past => ?_
  · by_cases same : d = c
    · subst same
      have before := served.listed listed
      exact ⟨before.1, before.2.1⟩
    · rw [served.others d same] at listed ⊢
      exact ⟨listed, rfl⟩
  · by_cases same : d = c
    · rw [same] at listed past ⊢
      exact cut listed past
    · rw [served.others d same, live_of_isListed listed] at past
      cases past

/-- After its turns all is sent, and the users in the list are in `ADDED`. -/
theorem served_users (valid : cfg.BotsValid) (results : UserId → SendResult) (nodup : us.Nodup)
    (scene : x.Scene cfg (dueTo items us)) (filled : Filled cfg items x.queue)
    (cut : ∀ c ∈ us, (x.users c).state.isListed = true →
      ((us.foldl (fun h c => h.sendUser cfg c (results c)) x).users c).state.isPastLogin = true →
        x.Findable c) :
    (us.foldl (fun h c => h.sendUser cfg c (results c)) x).Scene cfg (dueTo items []) ∧
      Filled cfg items (us.foldl (fun h c => h.sendUser cfg c (results c)) x).queue ∧
      ∀ c ∈ us, ((us.foldl (fun h c => h.sendUser cfg c (results c)) x).users c).state.isListed =
        true → ((us.foldl (fun h c => h.sendUser cfg c (results c)) x).users c).state = .added := by
  induction us generalizing x with
  | nil => exact ⟨scene, filled, fun c mem => absurd mem List.not_mem_nil⟩
  | cons c us ih =>
    rw [List.nodup_cons] at nodup
    simp only [List.foldl_cons] at cut ⊢
    have own (y : Hub) : (us.foldl (fun h c => h.sendUser cfg c (results c)) y).users c =
        y.users c := foldl_sendUser_users results nodup.1
    have turn (listed : (x.users c).state.isListed = true)
        (past : ((x.sendUser cfg c (results c)).users c).state.isPastLogin = true) :
        x.Findable c := by
      apply cut c List.mem_cons_self listed
      rwa [own]
    have served := served_sendUser scene valid filled nodup.1 (results c) turn
    have left := served.left scene turn
    have later := ih nodup.2 served.scene served.filled fun d mem listed past => by
      have before := (left.listed d listed).1
      exact left.findable d listed (cut d (List.mem_cons_of_mem _ mem) before past)
    refine ⟨later.1, later.2.1, fun d mem listed => ?_⟩
    cases List.mem_cons.mp mem with
    | inl same =>
      subst same
      rw [own] at listed ⊢
      exact (served.listed listed).2.2
    | inr old => exact later.2.2 d old listed

/-! ## A whole round -/

theorem dueTo_nil : dueTo items [] = fun _ => [] := by
  funext c
  exact if_neg List.not_mem_nil

/-- The broadcasts that waited are due to everyone. -/
theorem Scene.prepare (scene : x.Scene cfg fun _ => []) (present : Present x) :
    (x.setQueue x.queue.prepareQueueItems).Scene cfg
      (dueTo x.queue.newQueueItems x.userList) where
  toStanding := scene.toStanding.steady ⟨rfl, rfl, rfl⟩
    fun d => (calmUser_refl x.Listed (x.users d)).toSteadyUser
  views := by
    have none_ : (x.setQueue x.queue.prepareQueueItems).queue.newQueueItems = [] := rfl
    constructor
    · intro c nick human u v b last
      rw [none_, delivered_nil, List.append_nil] at last
      unfold dueTo at last
      split at last
      · exact scene.views.agree c nick human u u b last
      · cases last
    · intro c added nick human u v
      have mem : c ∈ x.userList := present.live c (live_of_isListed (isListed_of_added added))
      have shown := scene.views.shown c added nick human u u
      rw [none_, delivered_nil, List.append_nil, dueTo, if_pos mem]
      exact shown

theorem Idle.filled (idle : x.Idle) :
    Filled cfg x.queue.newQueueItems x.queue.prepareQueueItems where
  round := rfl
  opList := idle.1
  userIP := idle.2.1
  empty := fun t _ => congrArg GlobalQueue.buffer (idle.2.2 t)
  full := by
    intro t created
    have none_ := congrArg GlobalQueue.created (idle.2.2 t)
    rw [show x.queue.prepareQueueItems.globalQueues t = x.queue.globalQueues t from rfl,
      none_] at created
    cases created

theorem Filled.idle {q : GlobalDataQueue Msg (List Msg)} (filled : Filled cfg items q) :
    (x.setQueue (q.clearQueues msgSink)).Idle := by
  refine ⟨rfl, rfl, fun t => ?_⟩
  change (if t ∈ q.createdGlobalQueues then _ else q.globalQueues t) = _
  split
  · rfl
  · rename_i missing
    cases created : (q.globalQueues t).created with
    | true => exact absurd (filled.full t created).1 missing
    | false =>
      have empty := filled.empty t created
      cases eq : q.globalQueues t
      rw [eq] at created empty
      dsimp only at created empty
      rw [created, empty]

/-- After a round the users in the list are in `ADDED`. -/
structure AtRest (cfg : Config) (h : Hub) : Prop where
  scene : h.Scene cfg fun _ => []
  idle : h.Idle
  listed : ∀ c, (h.users c).state.isListed = true → (h.users c).state = .added

theorem sendLoop_atRest (valid : cfg.BotsValid) (scene : x.Scene cfg fun _ => [])
    (present : Present x) (idle : x.Idle) (results : UserId → SendResult)
    (cut : ∀ c ∈ x.userList, (x.users c).state.isListed = true →
      ((x.sendLoop cfg results).users c).state.isPastLogin = true → x.Findable c) :
    (x.sendLoop cfg results).AtRest cfg := by
  have served := served_users valid results present.nodup (scene.prepare present)
    idle.filled cut
  have absent (c : UserId) (missing : c ∉ x.userList) :
      ((x.sendLoop cfg results).users c) = x.users c :=
    foldl_sendUser_users (x := x.setQueue x.queue.prepareQueueItems) results missing
  unfold sendLoop at absent ⊢
  dsimp only at absent ⊢
  rw [show (x.setQueue x.queue.prepareQueueItems).userList = x.userList from rfl] at absent ⊢
  rw [dueTo_nil] at served
  generalize List.foldl _ _ x.userList = z at served absent
  have calm : Calm cfg z (z.setQueue (z.queue.clearQueues msgSink)) :=
    ⟨rfl, rfl, rfl, ⟨[], (List.append_nil _).symm, fun _ _ _ => rfl⟩,
      fun d => calmUser_refl _ _⟩
  refine ⟨served.1.calm calm, served.2.1.idle, fun c listed => ?_⟩
  by_cases mem : c ∈ x.userList
  · exact served.2.2 c mem listed
  · -- who is not in the loop is past its login
    have same : z.users c = x.users c := absent c mem
    have listed' : (z.users c).state.isListed = true := listed
    rw [same] at listed'
    exact absurd (present.live c (live_of_isListed listed')) mem

/-! ## Runs -/

/-- The hub at any moment of a run, and what the clients know of it. -/
structure Watched (cfg : Config) (h : Hub) : Prop where
  wf : WellFormed h
  index : h.Indexed
  present : Present h
  idle : h.Idle
  scene : h.Scene cfg fun _ => []

theorem foldl_add2NickList (words bots : List Text) :
    bots.foldl add2NickList (render nickListWord words) = render nickListWord (words ++ bots) := by
  induction bots generalizing words with
  | nil => rw [List.foldl_nil, List.append_nil]
  | cons bot bots ih => rw [List.foldl_cons, add_render, ih, List.append_assoc]; rfl

theorem start_unlisted (regs : RegManager) (nick : Text) : ¬ (start cfg regs).Listed nick := by
  rintro ⟨c, listed, -⟩
  have none_ : UserState.remMe.isListed = true := listed
  cases none_

theorem start_watched (valid : cfg.BotsValid) (regs : RegManager) :
    Watched cfg (start cfg regs) where
  wf := start_wellFormed regs
  index := (start_indexInv regs).index
  present := by
    refine ⟨List.nodup_nil, fun c mem => absurd mem List.not_mem_nil, fun c live => ?_⟩
    have none_ : UserState.remMe.isPastLogin = false := live
    cases none_
  idle := ⟨rfl, rfl, fun _ => rfl⟩
  scene := by
    have away (c : UserId) (listed : ((start cfg regs).users c).state.isListed = true) : False :=
      start_unlisted regs _ ⟨c, listed, rfl⟩
    have infos : ∀ info ∈ cfg.bots.map (fun nick => (⟨nick, []⟩ : MyInfo)),
        ¬ cfg.IsBot info.nick → (start cfg regs).Listed info.nick := by
      intro info mem human
      obtain ⟨bot, named, rfl⟩ := List.mem_map.mp mem
      exact absurd (.inl named) human
    refine ⟨⟨⟨cfg.bots, ?_, fun bot mem => valid bot (.inl mem), fun nick human => ?_,
      fun nick human => ?_⟩, fun _ => ?_, fun _ => ?_, ?_, fun c => ?_⟩, ⟨?_, ?_⟩⟩
    · exact foldl_add2NickList [] cfg.bots
    · exact iff_of_false (fun mem => human (.inl mem)) (start_unlisted regs nick)
    · rw [List.count_eq_zero_of_not_mem fun mem => human (.inl mem)]
      exact Nat.zero_le 1
    · exact ⟨fun c listed => (away c listed).elim, fun c listed => (away c listed).elim, infos⟩
    · exact ⟨fun c listed => (away c listed).elim, fun c listed => (away c listed).elim, infos⟩
    · exact fun c _ listed => (away c listed).elim
    · exact modest_of_past rfl fun _ mem => absurd mem List.not_mem_nil
    · intro c nick human u v b last
      cases last
    · intro c added
      exact (away c (isListed_of_added added)).elim

theorem Watched.advance (watched : Watched cfg x) (e : Event) : Watched cfg (x.advance e) where
  wf := advance_wellFormed watched.wf e
  index := watched.index.of_keys rfl fun _ => rfl
  present := ⟨watched.present.nodup, watched.present.born, watched.present.live⟩
  idle := watched.idle
  scene := watched.scene.calm (calm_of_tables ⟨rfl, rfl, rfl, rfl⟩ rfl)

theorem act_watched (valid : cfg.BotsValid) (watched : Watched cfg x) (a : Action)
    (once : namesOnce cfg x a = true) (heard : hushes cfg x a = false)
    (found : ∀ c ∈ x.userList, (x.users c).state.isListed = true →
      ((x.act cfg a).users c).state.isPastLogin = true → x.Findable c) :
    Watched cfg (x.act cfg a) := by
  have moves := act_moves cfg watched.wf a
  have wf := act_wellFormed cfg watched.wf a
  have kept := moves.invariant (P := fun z => (WellFormed z ∧ z.Indexed) ∧ Present z)
    (fun z z' inv move => ⟨⟨move.wellFormed inv.1.1, move.indexed once inv.1.1 inv.1.2⟩,
      move.present inv.2⟩) ⟨⟨watched.wf, watched.index⟩, watched.present⟩
  have found (c : UserId) (listed : (x.users c).state.isListed = true) :=
    found c (watched.present.live c (live_of_isListed listed)) listed
  have quiet (noLoop : ∀ results, a ≠ .sendLoop results) : (x.act cfg a).Idle :=
    moves.invariant (fun _ _ idle move => move.idle noLoop idle) watched.idle
  refine ⟨wf, kept.1.2, kept.2, ?_, ?_⟩
  · cases a with
    | sendLoop results =>
      exact (sendLoop_atRest valid watched.scene watched.present watched.idle results
        fun c _ => found c).idle
    | _ => exact quiet fun _ => nofun
  · have go (noLoop : ∀ results, a ≠ .sendLoop results)
        (noChange : ∀ nick pass profile, a ≠ .reg (.changeReg nick pass profile))
        (parts : (∀ c tick, a ≠ .receive c tick) ∨ NoneClosed x (x.act cfg a)) :
        (x.act cfg a).Scene cfg fun _ => [] :=
      moves_scene moves once noLoop noChange heard parts found watched.wf watched.index
        watched.scene
    cases a with
    | sendLoop results =>
      exact (sendLoop_atRest valid watched.scene watched.present watched.idle results
        fun c _ => found c).scene
    | receive c tick =>
      rcases receive_cases cfg x c tick with closed | calm
      · have past : ((x.act cfg (.receive c tick)).users c).state.isPastLogin = true := by
          change ((x.receiveUser cfg c tick).users c).state.isPastLogin = true
          rw [closed]
          exact closeWith_past false c
        change (x.receiveUser cfg c tick).Scene cfg fun _ => []
        rw [closed]
        exact watched.scene.closeWith false fun listed => ⟨rfl, found c listed past⟩
      · exact go (fun _ => nofun) (fun _ _ _ => nofun) (.inr calm)
    | reg op =>
      cases op with
      | changeReg nick pass profile =>
        change (x.execReg cfg (.changeReg nick pass profile)).Scene cfg fun _ => []
        unfold execReg
        dsimp only
        split
        · exact watched.scene
        · exact watched.scene.changeReg watched.wf watched.index _ pass profile
      | _ => exact go (fun _ => nofun) (fun _ _ _ => nofun) (.inl fun _ _ => nofun)
    | _ => exact go (fun _ => nofun) (fun _ _ _ => nofun) (.inl fun _ _ => nofun)

theorem step_watched (valid : cfg.BotsValid) (watched : Watched cfg x) (e : Event)
    (keeps : KeepsViews cfg x e) : Watched cfg (step cfg x e) :=
  act_watched valid (watched.advance e) e.action keeps.once keeps.heard keeps.found

/-- Nothing is due to anyone: what is known is who is in the list. -/
theorem AtRest.viewsRight (rest : x.AtRest cfg) (quiet : x.queue.newQueueItems = []) :
    ViewsRight cfg x := by
  intro c added nick human
  have shown := rest.scene.views.shown c added nick human (x.queueUser c) (x.queueUser c)
  rw [quiet, delivered_nil, List.append_nil, List.append_nil] at shown
  rw [mem_known, shown]
  constructor
  · rintro ⟨d, listed, same⟩
    exact ⟨d, rest.listed d listed, same⟩
  · rintro ⟨d, added, same⟩
    exact ⟨d, isListed_of_added added, same⟩

/-- A newcomer with QuickList comes into the list. -/
def joins (c : UserId) (info : String) : List Event :=
  arrival c (ascii "$Supports QuickList|") ++
    [⟨0, .command c (ascii info) {}⟩, ⟨0, .receive c {}⟩, ⟨0, .receive c {}⟩]

/-- Ann and Bob, one of whom leaves again. -/
def annLeaves : List Event :=
  joins 0 "$MyINFO $ALL ann x$ $56K$$0$|" ++ joins 1 "$MyINFO $ALL bob x$ $56K$$0$|" ++
    [⟨0, .sendLoop fun _ => .all⟩, ⟨0, .close 0 false⟩]

/-- Bob comes with QuickList and gives his password. -/
def bobWithPass (c : UserId) : List Event :=
  arrival c (ascii "$Supports QuickList|") ++
    [⟨0, .command c (ascii "$MyINFO $ALL Bob x$ $56K$$0$|") {}⟩,
      ⟨0, .command c (ascii "$MyPass pass|") {}⟩]

/-- Bob comes again while his ghost stands in the list with Ann. -/
def bobReturns : List Event :=
  joins 0 "$MyINFO $ALL ann x$ $56K$$0$|" ++ bobWithPass 1 ++
    [⟨0, .receive 1 {}⟩, ⟨0, .receive 1 {}⟩, ⟨0, .sendLoop fun _ => .all⟩] ++ bobWithPass 2

end

end Hub

end FlyHub.Session
