import FlyHub.Session.Index

/-!
# The list and the queue of the service loop

The loop goes through every connection that is still there, and meets each one once. Until
it comes to `SendLoop` broadcasts are only posted.
-/

namespace FlyHub.Session

open FlyHub.Broadcast FlyHub.Lists

namespace Hub

/-- The loop has every user that is not past its login, and no user twice. -/
structure Present (h : Hub) : Prop where
  nodup : h.userList.Nodup
  born : ∀ c ∈ h.userList, c < h.nextUser
  live : ∀ c, (h.users c).state.isPastLogin = false → c ∈ h.userList

/-- No global queue has anything in it. -/
def Idle (h : Hub) : Prop :=
  h.queue.opListQueue = [] ∧ h.queue.userIPQueue = [] ∧ ∀ t, h.queue.globalQueues t = ⟨[], false⟩

/-- The loop has the same users, and broadcasts have been posted. -/
structure Posted (x y : Hub) : Prop where
  userList : y.userList = x.userList
  nextUser : y.nextUser = x.nextUser
  queue : ∃ items, y.queue = { x.queue with newQueueItems := x.queue.newQueueItems ++ items }

theorem posted_of_eq {x y : Hub} (userList : y.userList = x.userList)
    (nextUser : y.nextUser = x.nextUser) (queue : y.queue = x.queue) : Posted x y :=
  ⟨userList, nextUser, [], by rw [queue, List.append_nil]⟩

theorem Posted.refl (x : Hub) : Posted x x := posted_of_eq rfl rfl rfl

theorem Posted.trans {x y z : Hub} (first : Posted x y) (second : Posted y z) : Posted x z where
  userList := second.userList.trans first.userList
  nextUser := second.nextUser.trans first.nextUser
  queue := by
    obtain ⟨items, eq⟩ := first.queue
    obtain ⟨more, eq'⟩ := second.queue
    exact ⟨items ++ more, by rw [eq', eq, List.append_assoc]⟩

section
variable {cfg : Config} {h₀ x y : Hub} {a : Action} {c : UserId}

theorem posted_item (eCmdType : Cmd) (command0 command1 : List Msg) :
    Posted x (x.addQueueItem eCmdType command0 command1) := ⟨rfl, rfl, _, rfl⟩

theorem posted_modify (c : UserId) (f : User → User) : Posted x (x.modify c f) :=
  posted_of_eq rfl rfl rfl

theorem posted_closeWith (bNoQuit : Bool) : Posted x (x.closeWith cfg c bNoQuit) := by
  cases past : (x.users c).state.isPastLogin with
  | true =>
    rw [closeWith_pastLogin past]
    exact posted_modify c _
  | false =>
    rw [closeWith_eq past]
    refine ⟨rfl, rfl, ?_⟩
    dsimp only
    split
    · exact ⟨_, rfl⟩
    · exact ⟨[], by rw [List.append_nil]⟩

theorem posted_takeNick : Posted x (x.takeNick cfg c) := by
  unfold takeNick
  split
  · exact .refl x
  · have entered (z : Hub) : Posted z ((z.hashAdd c).modify c fun u => { u with hashed := true }) :=
      posted_of_eq rfl rfl rfl
    cases x.findUser (x.users c).sNick with
    | none => exact entered x
    | some other => exact (posted_closeWith (x.users c).quickList).trans (entered _)

theorem posted_sendAll (msgs : List Msg) : Posted x (x.sendAll c msgs) := by
  rw [sendAll_eq]
  exact posted_modify c _

theorem posted_flush : Posted x (x.flush c) := by
  have all (cmds : List PrcsdUsrCmd) (z : Hub) :
      Posted z (cmds.foldl (fun h cmd => h.processCmd c cmd) z) := by
    induction cmds generalizing z with
    | nil => exact .refl z
    | cons cmd cmds ih =>
      have one : Posted z (z.processCmd c cmd) := by
        cases cmd <;> exact posted_of_eq rfl rfl rfl
      exact one.trans (ih _)
  exact (posted_modify c _).trans (all _ _)

theorem posted_generateMyInfoLong : Posted x (x.generateMyInfoLong cfg c).1 := by
  unfold generateMyInfoLong
  dsimp only
  rw [forgetLong_eq]
  split <;> exact posted_of_eq rfl rfl rfl

theorem posted_generateMyInfoShort : Posted x (x.generateMyInfoShort cfg c).1 := by
  unfold generateMyInfoShort
  dsimp only
  rw [forgetShort_eq]
  split <;> exact posted_of_eq rfl rfl rfl

theorem posted_addLong : Posted x ((x.generateMyInfoLong cfg c).1.add2MyInfosTag c) :=
  posted_generateMyInfoLong.trans (posted_of_eq rfl rfl rfl)

theorem posted_addShort : Posted x ((x.generateMyInfoShort cfg c).1.add2MyInfos c) :=
  posted_generateMyInfoShort.trans (posted_of_eq rfl rfl rfl)

theorem posted_enlist : Posted x (x.enlist cfg c) := by
  have listed : Posted x (x.add2Userlist cfg c) := by
    unfold add2Userlist
    have named : Posted x { x with nickList := add2NickList x.nickList (x.users c).sNick } :=
      posted_of_eq rfl rfl rfl
    dsimp only
    split
    · exact named.trans posted_addLong
    · exact (named.trans posted_addLong).trans posted_addShort
    · exact named.trans posted_addShort
  have announced (z : Hub) : Posted z (z.announce cfg c) := by
    unfold announce
    dsimp only
    split <;> exact (posted_item ..).trans (posted_item ..)
  exact (listed.trans (posted_modify c _)).trans (announced _)

theorem posted_refresh (due : Bool) : Posted x (x.refresh cfg c due) := by
  have noted : Posted x (x.modify c fun u => { u with prcsdMyInfo := false }) :=
    posted_modify c _
  refine noted.trans ?_
  unfold refresh refreshMyInfo
  dsimp only
  split
  · split
    · exact posted_generateMyInfoLong
    · exact posted_addLong.trans (posted_item ..)
  · split
    · exact posted_generateMyInfoLong
    · split
      · exact (posted_addLong.trans posted_generateMyInfoShort).trans (posted_item ..)
      · exact (posted_addLong.trans posted_addShort).trans (posted_item ..)
  · split
    · exact posted_generateMyInfoShort
    · exact posted_addShort.trans (posted_item ..)

theorem posted_tellKeyLost : Posted x (x.tellKeyLost cfg c) := by
  unfold tellKeyLost
  dsimp only
  split <;> exact (posted_item ..).trans (posted_item ..)

theorem RegChange.posted (change : RegChange cfg h₀ a x y) : Posted x y := by
  have online (z : Hub) (sNick : Text) (f : User → User) : Posted z (z.modifyOnline sNick f) := by
    unfold modifyOnline
    split
    · exact posted_modify _ f
    · exact .refl z
  cases change with
  | add r | change r =>
    have made : Posted x (x.setReg r) := posted_of_eq rfl rfl rfl
    exact made.trans (online _ _ _)
  | delete r => exact (online _ _ _).trans (posted_of_eq rfl rfl rfl)
  | self => exact posted_modify _ _

/-- A user that is accepted comes to the end of the list, and one in `REMME` leaves it. The
queue is for `SendLoop` to work on. -/
theorem Move.posted (move : Move cfg h₀ a x y) :
    Posted x y ∨ (∃ u, y = x.newUser u) ∨ (∃ c, (x.users c).state = .remMe ∧ y = x.remUser c) ∨
      (∃ queue, y = x.setQueue queue) ∧ ∃ results, a = .sendLoop results := by
  cases move with
  | opChat c msgs | pingerLists c msgs | roundSend c msgs => exact .inl (posted_sendAll msgs)
  | flush c => exact .inl posted_flush
  | shut c f msgs =>
    exact .inl (((posted_modify c f).trans (posted_sendAll msgs)).trans (posted_closeWith false))
  | enterFree c | helloLater c | enterReg c | awaitPass c => exact .inl (posted_of_eq rfl rfl rfl)
  | deadSocket c other =>
    have broken : Posted x ((x.dropBan c).modify other fun u => { u with error := true }) :=
      posted_of_eq rfl rfl rfl
    exact .inl (broken.trans (posted_closeWith false))
  | pass c r password items =>
    have passed : Posted x (x.passed cfg c r items) := posted_of_eq rfl rfl rfl
    exact .inl (passed.trans posted_takeNick)
  | reg change => exact .inl change.posted
  | keyLost c => exact .inl posted_tellKeyLost
  | enlist c => exact .inl posted_enlist
  | refresh c due => exact .inl (posted_refresh due)
  | post eCmdType text text1 => exact .inl (posted_item ..)
  | accept u => exact .inr (.inl ⟨u, rfl⟩)
  | remove c state => exact .inr (.inr (.inl ⟨c, state, rfl⟩))
  | round queue event => exact .inr (.inr (.inr ⟨⟨queue, rfl⟩, event⟩))
  | _ => exact .inl (posted_of_eq rfl rfl rfl)

/-- Who is not past its login now was not before, unless it has just come. -/
theorem Move.live_before (move : Move cfg h₀ a x y) {d : UserId} (old : Old x y d)
    (live : (y.users d).state.isPastLogin = false) : (x.users d).state.isPastLogin = false := by
  cases past : (x.users d).state.isPastLogin with
  | false => rfl
  | true => exact absurd ((move.login d).past past old).1 (by simp [User.login, live])

theorem Move.present (move : Move cfg h₀ a x y) (present : Present x) : Present y := by
  have kept (userList : y.userList = x.userList) (nextUser : y.nextUser = x.nextUser) :
      Present y := by
    refine ⟨by rw [userList]; exact present.nodup, ?_, fun d live => ?_⟩
    · rw [userList, nextUser]
      exact present.born
    · rw [userList]
      exact present.live d (move.live_before (fun _ => nextUser) live)
  rcases move.posted with posted | ⟨u, rfl⟩ | ⟨c, state, rfl⟩ | ⟨⟨queue, rfl⟩, -⟩
  · exact kept posted.userList posted.nextUser
  · refine ⟨?_, fun d mem => ?_, fun d live => ?_⟩
    · refine List.nodup_append.mpr ⟨present.nodup, List.nodup_singleton _, ?_⟩
      intro d mem e last
      rw [List.mem_singleton.mp last]
      exact Nat.ne_of_lt (present.born d mem)
    · cases List.mem_append.mp mem with
      | inl old => exact Nat.lt_succ_of_lt (present.born d old)
      | inr last =>
        rw [List.mem_singleton.mp last]
        exact Nat.lt_succ_self _
    · refine List.mem_append.mpr ?_
      by_cases new : d = x.nextUser
      · exact .inr (List.mem_singleton.mpr new)
      · exact .inl (present.live d (move.live_before (fun eq => absurd eq new) live))
  · refine ⟨present.nodup.erase c, fun d mem => present.born d (List.mem_of_mem_erase mem),
      fun d live => ?_⟩
    have other : d ≠ c := by
      rintro rfl
      have past : (x.users d).state.isPastLogin = true := by
        rw [state]
        rfl
      have live' : (x.users d).state.isPastLogin = false := live
      rw [past] at live'
      cases live'
    exact (List.mem_erase_of_ne other).mpr (present.live d live)
  · exact kept rfl rfl

theorem Posted.idle (posted : Posted x y) (idle : x.Idle) : y.Idle := by
  obtain ⟨items, eq⟩ := posted.queue
  unfold Idle
  rw [eq]
  exact idle

theorem Move.idle (move : Move cfg h₀ a x y) (noLoop : ∀ results, a ≠ .sendLoop results)
    (idle : x.Idle) : y.Idle := by
  rcases move.posted with posted | ⟨u, rfl⟩ | ⟨c, state, rfl⟩ | ⟨-, results, eq⟩
  · exact posted.idle idle
  · exact idle
  · exact idle
  · exact absurd eq (noLoop results)

end

end Hub

end FlyHub.Session
