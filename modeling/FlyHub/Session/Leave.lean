import FlyHub.Session.Present
import FlyHub.Session.Told

/-!
# Who leaves the list

Only `ReceiveLoop` takes users into the list. The other actions close some, one after the
other, and the search for the nicks of those who stay finds them as before.
-/

namespace FlyHub.Session

open FlyHub.Broadcast FlyHub.Lists FlyHub.Lib

namespace Hub

/-- The search for the nick of `c` in the nick list finds its place and no other. -/
def Findable (h : Hub) (c : UserId) : Prop :=
  Deletable nickListWord (readNickList h.nickList) (h.users c).sNick

instance (h : Hub) (c : UserId) : Decidable (h.Findable c) :=
  inferInstanceAs (Decidable (Deletable _ _ _))

/-- Users have left the list, if anything. -/
structure Left (x y : Hub) : Prop where
  listed : ∀ d, (y.users d).state.isListed = true →
    (x.users d).state.isListed = true ∧ (y.users d).sNick = (x.users d).sNick
  findable : ∀ d, (y.users d).state.isListed = true → x.Findable d → y.Findable d

/-- The nick list is as it was, or the nick of a user that has left it has been deleted. -/
def Struck (x y : Hub) : Prop :=
  y.nickList = x.nickList ∨ ∃ c, (x.users c).state.isListed = true ∧
    (y.users c).state.isPastLogin = true ∧ y.nickList = delFromNickList x.nickList (x.users c).sNick

section
variable {cfg : Config} {h₀ x y z : Hub} {a : Action} {c d : UserId}
  {due : UserId → List (QueueItem Msg)}

theorem Left.refl (x : Hub) : Left x x := ⟨fun _ listed => ⟨listed, rfl⟩, fun _ _ => id⟩

theorem Left.trans (first : Left x y) (second : Left y z) : Left x z where
  listed := by
    intro d listed
    obtain ⟨between, same⟩ := second.listed d listed
    obtain ⟨before, same'⟩ := first.listed d between
    exact ⟨before, same.trans same'⟩
  findable := by
    intro d listed found
    have between := (second.listed d listed).1
    exact second.findable d listed (first.findable d between found)

theorem Scene.left (scene : x.Scene cfg due) (struck : Struck x y)
    (listed : ∀ d, (y.users d).state.isListed = true →
      (x.users d).state.isListed = true ∧ (y.users d).sNick = (x.users d).sNick)
    (found : ∀ c, (x.users c).state.isListed = true → (y.users c).state.isPastLogin = true →
      x.Findable c) : Left x y := by
  refine ⟨listed, fun d now place => ?_⟩
  obtain ⟨before, same⟩ := listed d now
  unfold Findable at place ⊢
  rw [same]
  rcases struck with text | ⟨c, inList, past, text⟩
  · rw [text]
    exact place
  · have other : d ≠ c := by
      rintro rfl
      rw [live_of_isListed now] at past
      cases past
    have differs : (x.users d).sNick ≠ (x.users c).sNick := fun eq =>
      other (scene.alone d c before inList eq)
    obtain ⟨words, named⟩ := scene.named
    have gone := found c inList past
    unfold Findable at gone
    rw [named.read] at gone place
    have valid := (scene.modest c).valid
    have erased : y.nickList = render nickListWord (words.erase (x.users c).sNick) := by
      rw [text, named.text]
      exact (delete_render_iff (by decide) (by decide) named.valid valid).mpr gone
    have clean : Clean (words.erase (x.users c).sNick) := fun w mem =>
      (named.valid w (List.mem_of_mem_erase mem)).clean
    rw [erased, read_render clean]
    exact place.erase differs

/-! ## The nick list -/

theorem struck_of_eq (text : y.nickList = x.nickList) : Struck x y := .inl text

theorem struck_closeWith (bNoQuit : Bool) : Struck x (x.closeWith cfg c bNoQuit) := by
  cases past : (x.users c).state.isPastLogin with
  | true =>
    rw [closeWith_pastLogin past]
    exact .inl rfl
  | false =>
    have text : (x.closeWith cfg c bNoQuit).nickList =
        if UserState.addMe2Loop.toNat ≤ (x.users c).state.toNat then
          delFromNickList x.nickList (x.users c).sNick else x.nickList := by
      rw [closeWith_eq past]
    split at text
    · rename_i late
      exact .inr ⟨c, (isListed_iff past).mpr late, closeWith_past bNoQuit c, text⟩
    · exact .inl text

/-- What comes before the close leaves the list alone. -/
theorem Struck.after (struck : Struck y z) (text : y.nickList = x.nickList)
    (same : ∀ d, (y.users d).state = (x.users d).state ∧ (y.users d).sNick = (x.users d).sNick) :
    Struck x z := by
  rcases struck with eq | ⟨c, listed, past, eq⟩
  · exact .inl (eq.trans text)
  · rw [(same c).1] at listed
    rw [(same c).2, text] at eq
    exact .inr ⟨c, listed, past, eq⟩

theorem modify_keeps {f : User → User}
    (same : (f (x.users c)).state = (x.users c).state ∧ (f (x.users c)).sNick = (x.users c).sNick)
    (d : UserId) : ((x.modify c f).users d).state = (x.users d).state ∧
      ((x.modify c f).users d).sNick = (x.users d).sNick := by
  rw [modify_users]
  split
  · rename_i eq
    rw [eq]
    exact same
  · exact ⟨rfl, rfl⟩

theorem struck_takeNick : Struck x (x.takeNick cfg c) := by
  unfold takeNick
  split
  · exact .inl rfl
  · cases x.findUser (x.users c).sNick with
    | none => exact .inl rfl
    | some other =>
      have closed : Struck x (x.closeWith cfg other (x.users c).quickList) :=
        struck_closeWith (x.users c).quickList
      rcases closed with text | ⟨d, listed, past, text⟩
      · exact .inl text
      · refine .inr ⟨d, listed, ?_, text⟩
        dsimp only
        rw [modify_users]
        split
        · rename_i eq
          subst eq
          exact past
        · exact past

theorem nickList_flush : (x.flush c).nickList = x.nickList := by
  have same : ((x.modify c fun u => { u with cmdList := [] }).users c).sNick =
      (x.users c).sNick := by rw [modify_self]
  unfold Hub.flush
  rw [foldl_processCmd _ same, sendAll_eq]
  rfl

theorem RegChange.nickList (change : RegChange cfg h₀ a x y) : y.nickList = x.nickList := by
  have online (z : Hub) (sNick : Text) (f : User → User) :
      (z.modifyOnline sNick f).nickList = z.nickList := by
    unfold modifyOnline
    split <;> rfl
  cases change with
  | add r | change r => exact online _ _ _
  | delete r => exact online _ _ _
  | self => rfl

theorem Move.struck (move : Move cfg h₀ a x y) (scene : x.Scene cfg due)
    (noReceive : ∀ c tick, a ≠ .receive c tick) : Struck x y := by
  cases move with
  | opChat c msgs | pingerLists c msgs | roundSend c msgs =>
    apply struck_of_eq
    rw [sendAll_eq]
    rfl
  | flush c => exact .inl nickList_flush
  | shut c f msgs same =>
    have kept := same (x.users c)
    have state := congrArg Core.state kept
    have nick := congrArg Core.sNick kept
    have put (d : UserId) := sendAll_login (x := x.modify c f) (c := c) (d := d) msgs
    have changed (d : UserId) := modify_keeps (x := x) (c := c) (f := f) ⟨state, nick⟩ d
    apply (struck_closeWith false).after
    · rw [sendAll_eq]
      rfl
    · intro d
      constructor
      · exact (congrArg Login.state (put d)).trans (changed d).1
      · exact (congrArg Login.sNick (put d)).trans (changed d).2
  | deadSocket c other =>
    apply (struck_closeWith false).after
    · rfl
    · intro d
      have dropped := modify_keeps (x := x) (c := c) (f := fun u => { u with pBan := none })
        ⟨rfl, rfl⟩ d
      have broken := modify_keeps (x := x.dropBan c) (c := other)
        (f := fun u => { u with error := true }) ⟨rfl, rfl⟩ d
      exact ⟨broken.1.trans dropped.1, broken.2.trans dropped.2⟩
  | pass c r password items =>
    apply struck_takeNick.after
    · rfl
    · intro d
      rw [passed_users]
      exact modify_keeps ⟨rfl, rfl⟩ d
  | reg change => exact .inl change.nickList
  | keyLost c => exact .inl tellKeyLost_lists.1
  | enlist c state event =>
    obtain ⟨tick, eq⟩ := event
    exact absurd eq (noReceive c tick)
  | refresh c isDue live new =>
    have listed := (scene.modest c).news live new
    have listed' : ((x.modify c fun u => { u with prcsdMyInfo := false }).users c).state.isListed =
        true := by
      rw [modify_self]
      exact listed
    have renewal : Renewal cfg (x.modify c fun u => { u with prcsdMyInfo := false })
        (x.refresh cfg c isDue) c := refreshMyInfo_renewal listed' isDue
    have text := renewal.nickList
    rw [listed', if_pos rfl] at text
    exact .inl text
  | _ => exact .inl rfl

/-! ## The users -/

theorem LoginStep.listed {l l' : Login} (step : LoginStep cfg h₀ a x y d l l')
    (noReceive : ∀ c tick, a ≠ .receive c tick) (listed : l'.state.isListed = true) :
    l.state.isListed = true ∧ l'.sNick = l.sNick := by
  have early {st : UserState} (late : st.isListed = true)
      (stays : st.toNat ≤ UserState.addMe1Loop.toNat) : False := by
    rw [(unlisted_of_early stays).2] at late
    cases late
  cases step with
  | stay | unwait | grant | askReg => exact ⟨listed, rfl⟩
  | fresh _ event new grown state =>
    rw [state] at listed
    cases listed
  | shut _ past nick =>
    rw [live_of_isListed listed] at past
    cases past
  | handshake st pinger before stays => exact (early listed (Nat.le_trans stays (by decide))).elim
  | name nick validate | deadSocket validate | enterFree validate =>
    rw [validate] at listed
    cases listed
  | helloLater | ask | version => cases listed
  | addMe st before late named hashed done user next =>
    rcases next with rfl | rfl <;> cases listed
  | added state => exact ⟨by rw [state]; rfl, rfl⟩
  | advance st loggedIn stays list =>
    obtain ⟨tick, eq⟩ := list listed
    exact absurd eq (noReceive d tick)
  | pass r password state =>
    rw [state] at listed
    cases listed

theorem Move.left (move : Move cfg h₀ a x y) (scene : x.Scene cfg due)
    (noReceive : ∀ c tick, a ≠ .receive c tick)
    (found : ∀ c, (x.users c).state.isListed = true → (y.users c).state.isPastLogin = true →
      x.Findable c) : Left x y := by
  apply scene.left (move.struck scene noReceive) _ found
  intro d listed
  exact (move.login d).listed noReceive listed

/-! ## Whole actions -/

theorem born_of_isListed (wf : WellFormed x) (listed : (x.users c).state.isListed = true) :
    c < x.nextUser := by
  apply Nat.lt_of_not_le
  intro unborn
  have past := (wf.unborn c unborn).1
  rw [live_of_isListed listed] at past
  cases past

theorem Move.past (move : Move cfg h₀ a x y) (born : d < x.nextUser)
    (past : (x.users d).state.isPastLogin = true) :
    d < y.nextUser ∧ (y.users d).state.isPastLogin = true := by
  have old : Old x y d := fun eq => absurd eq (Nat.ne_of_lt born)
  refine ⟨?_, ((move.login d).past past old).1⟩
  rcases move.born with same | grown
  · rwa [same]
  · rw [grown]
    exact Nat.lt_succ_of_lt born

theorem moves_past (moves : Moves cfg h₀ a x y) (born : d < x.nextUser)
    (past : (x.users d).state.isPastLogin = true) : (y.users d).state.isPastLogin = true :=
  (moves.invariant (P := fun z => d < z.nextUser ∧ (z.users d).state.isPastLogin = true)
    (fun _ _ both move => move.past both.1 both.2) ⟨born, past⟩).2

theorem moves_nextUser (moves : Moves cfg h₀ a x y) : x.nextUser ≤ y.nextUser := by
  induction moves with
  | refl => exact Nat.le_refl _
  | tail _ move ih =>
    rcases move.born with same | grown
    · rwa [same]
    · rw [grown]
      exact Nat.le_succ_of_le ih

/-- Nobody is closed, and nobody is accepted. -/
structure NoneClosed (x y : Hub) : Prop where
  nextUser : y.nextUser = x.nextUser
  past : ∀ d, (y.users d).state.isPastLogin = true → (x.users d).state.isPastLogin = true

theorem NoneClosed.move (calm : NoneClosed x z) (move : Move cfg h₀ a x y)
    (moves : Moves cfg h₀ a y z) : NoneClosed y z := by
  have same : y.nextUser = x.nextUser := by
    have grown := moves_nextUser moves
    rw [calm.nextUser] at grown
    rcases move.born with eq | eq
    · exact eq
    · rw [eq] at grown
      exact absurd grown (Nat.not_succ_le_self _)
  refine ⟨calm.nextUser.trans same.symm, fun d past => ?_⟩
  exact ((move.login d).past (calm.past d past) fun _ => same).1

/-- An action that only closes users with findable nicks. What comes into the list does so
when nobody is closed. -/
theorem moves_scene (moves : Moves cfg h₀ a x y) (once : namesOnce cfg h₀ a = true)
    (noLoop : ∀ results, a ≠ .sendLoop results)
    (noChange : ∀ nick pass profile, a ≠ .reg (.changeReg nick pass profile))
    (heard : hushes cfg h₀ a = false)
    (parts : (∀ c tick, a ≠ .receive c tick) ∨ NoneClosed x y)
    (found : ∀ c, (x.users c).state.isListed = true → (y.users c).state.isPastLogin = true →
      x.Findable c)
    (wf : WellFormed x) (index : x.Indexed) (scene : x.Scene cfg due) : y.Scene cfg due := by
  induction moves using Relation.ReflTransGen.head_induction_on with
  | refl => exact scene
  | @head x z move moves ih =>
    have cut (c : UserId) (listed : (x.users c).state.isListed = true)
        (past : (z.users c).state.isPastLogin = true) : x.Findable c :=
      by
      have born : c < z.nextUser :=
        Nat.lt_of_lt_of_le (born_of_isListed wf listed) (moves_nextUser (.single move))
      exact found c listed (moves_past moves born past)
    have later : z.Scene cfg due := move.scene wf index noLoop noChange heard cut scene
    apply ih (parts.imp_right fun calm => calm.move move moves) _ (move.wellFormed wf)
      (move.indexed once wf index) later
    intro c listed past
    rcases parts with noReceive | calm
    · have left := move.left scene noReceive cut
      have before := (left.listed c listed).1
      exact left.findable c listed (found c before past)
    · have before := (calm.move move moves).past c past
      rw [live_of_isListed listed] at before
      cases before

theorem try2Send_cases (cfg : Config) (x : Hub) (c : UserId) (result : SendResult) :
    (∃ f : User → User, (∀ u, (f u).sight = u.sight) ∧ x.try2Send cfg c result = x.modify c f) ∨
      x.try2Send cfg c result = x.fail cfg c := by
  unfold try2Send
  split
  · exact .inl ⟨id, fun _ => rfl, modify_id.symm⟩
  · cases result with
    | all => exact .inl ⟨fun u => { u with pending := false }, fun _ => rfl, rfl⟩
    | rest => exact .inl ⟨id, fun _ => rfl, modify_id.symm⟩
    | error => exact .inr rfl

theorem receive_cases (cfg : Config) (x : Hub) (c : UserId) (tick : Tick) :
    x.receiveUser cfg c tick = x.close cfg c ∨ NoneClosed x (x.receiveUser cfg c tick) := by
  have idle : NoneClosed x x := ⟨rfl, fun _ => id⟩
  have own (y : Hub) (nextUser : y.nextUser = x.nextUser)
      (self : (y.users c).state.isPastLogin = true → (x.users c).state.isPastLogin = true)
      (others : ∀ d, d ≠ c → (y.users d).state = (x.users d).state) : NoneClosed x y := by
    refine ⟨nextUser, fun d past => ?_⟩
    by_cases same : d = c
    · rw [same] at past ⊢
      exact self past
    · rwa [others d same] at past
  unfold receiveUser
  dsimp only
  cases state : (x.users c).state with
  | socketAccepted =>
    dsimp only
    split
    · exact .inr idle
    split
    · exact .inl rfl
    · refine .inr (own _ rfl (fun past => ?_) fun d other => ?_)
      · rw [modify_self] at past
        cases past
      · rw [modify_ne other, send, modify_ne other]
  | keyOrSup | validate | versionOrMyPass | getNickListOrMyInfo | addMe2Loop =>
    dsimp only
    split
    · exact .inl rfl
    · exact .inr idle
  | ipv4Check =>
    dsimp only
    split
    · refine .inr (own _ rfl (fun past => ?_) fun d other => by rw [modify_ne other])
      rw [modify_self] at past
      cases past
    · exact .inr idle
  | addMe =>
    dsimp only
    split
    · exact .inr idle
    · refine .inr (own _ rfl (fun past => ?_) fun d other => ?_)
      · rw [modify_self] at past
        cases past
      · rw [modify_ne other, send, modify_ne other]
  | addMe1Loop =>
    dsimp only
    split
    · split
      · exact .inl rfl
      · exact .inr idle
    · have entered (z : Hub) (nextUser : z.nextUser = x.nextUser)
          (others : ∀ d, d ≠ c → (z.users d).state = (x.users d).state) :
          NoneClosed x (z.enlist cfg c) := by
        refine own _ (posted_enlist.nextUser.trans nextUser) (fun past => ?_) fun d other => ?_
        · rw [enlist, announce_users, modify_self] at past
          cases past
        · rw [enlist, announce_users, modify_ne other]
          exact (congrArg Login.state add2Userlist_login).trans (others d other)
      right
      split
      · exact entered _ rfl fun d other => by rw [modify_ne other, modify_ne other]
      · exact entered _ rfl fun d other => by rw [modify_ne other]
  | added => exact .inr idle
  | closing =>
    have past : (x.users c).state.isPastLogin = true := by
      rw [state]
      rfl
    dsimp only
    split
    · right
      rcases try2Send_cases cfg x c tick.sent with ⟨f, -, eq⟩ | eq
      · rw [eq]
        exact own _ rfl (fun _ => past) fun d other => by rw [modify_ne other]
      · rw [eq]
        refine own _ ?_ (fun _ => past) fun d other => ?_
        · exact (posted_closeWith false).nextUser
        · unfold fail close
          rw [closeWith_users false other, modify_ne other]
    · exact .inr (own _ rfl (fun _ => past) fun d other => by rw [modify_ne other])
  | remMe => exact .inr (own _ rfl id fun d other => rfl)

end

end Hub

end FlyHub.Session
