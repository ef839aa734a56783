import FlyHub.Lists.Users

/-!
# The caches of the lists

A cache is fresh if it is empty or the compression of its list. Every operation
that changes a list drops its cache, with two exceptions: the MyINFO of a bot,
and a deletion that finds nothing in a list whose header has been damaged.
-/

namespace FlyHub.Lists

open FlyHub.Lib

namespace UserList

section
variable (deflate : Text → Option Text) (l : UserList)

/-- The cache is empty or the compression of the list. -/
def Fresh : Prop :=
  l.zLen ≠ 0 → ∃ out, deflate l.bytes = some out ∧ l.zBuf.take l.zLen = zOn ++ out

/-- The search for a nick leaves the list or the cache in order. -/
def Searchable (mark : Nat) (nick : Text) : Prop :=
  (findNick mark l.bytes nick).isSome ∨ l.zLen = 0 ∨ (restored mark l.text).take l.len = l.bytes

variable {deflate l}

theorem fresh_of_dropped (dropped : l.zLen = 0) : l.Fresh deflate :=
  fun some_ => absurd dropped some_

/-- A list with the same bytes and the same cache is as fresh. -/
theorem Fresh.of_same {l' : UserList} (fresh : l.Fresh deflate) (bytes : l'.bytes = l.bytes)
    (zBuf : l'.zBuf = l.zBuf) (zLen : l'.zLen = l.zLen) : l'.Fresh deflate := by
  unfold Fresh
  rw [bytes, zBuf, zLen]
  exact fresh

theorem fresh_delNick {mark : Nat} {nick : Text} (fresh : l.Fresh deflate)
    (searchable : l.Searchable mark nick) : (l.delNick mark nick).Fresh deflate := by
  unfold delNick
  cases found : findNick mark l.bytes nick with
  | some i => exact fresh_of_dropped rfl
  | none =>
    rw [Searchable, found] at searchable
    obtain missing | dropped | same := searchable
    · exact absurd missing (by simp)
    · exact fresh_of_dropped dropped
    · exact fresh.of_same same rfl rfl

theorem fresh_delInfo (s : Text) (fresh : l.Fresh deflate) : (l.delInfo s).Fresh deflate := by
  unfold delInfo
  split
  · exact fresh_of_dropped rfl
  · exact fresh

theorem fresh_delBotInfo (s : Text) (fresh : l.Fresh deflate) : (l.delBotInfo s).Fresh deflate := by
  unfold delBotInfo
  split
  · split
    · exact fresh_of_dropped rfl
    · exact fresh
  · exact fresh

theorem fresh_createZPipe (dropped : l.zLen = 0) : (l.createZPipe deflate).Fresh deflate := by
  unfold createZPipe
  split
  · exact fresh_of_dropped dropped
  · cases out : deflate l.bytes with
    | none => exact fresh_of_dropped dropped
    | some out' =>
      dsimp only
      split
      · exact fresh_of_dropped rfl
      · intro _
        refine ⟨out', out, ?_⟩
        rw [List.take_append_of_le_length (Nat.le_refl _), List.take_length]

theorem fresh_send (supportZpipe : Bool) (fresh : l.Fresh deflate) :
    (l.send deflate supportZpipe).1.Fresh deflate := by
  cases supportZpipe with
  | false => exact fresh
  | true =>
    by_cases dropped : l.zLen = 0
    · have filled : (l.createZPipe deflate).Fresh deflate := fresh_createZPipe dropped
      simp only [send, Bool.not_true, Bool.false_eq_true, if_false, dropped, if_true]
      split <;> exact filled
    · simp only [send, Bool.not_true, Bool.false_eq_true, if_false, if_neg dropped]
      exact fresh

end

end UserList

namespace Users

variable (deflate : Text → Option Text) (u : Users)

/-- No cache is stale. -/
structure Fresh : Prop where
  nickList : u.nickList.Fresh deflate
  opList : u.opList.Fresh deflate
  userIPList : u.userIPList.Fresh deflate
  myInfos : u.myInfos.Fresh deflate
  myInfosTag : u.myInfosTag.Fresh deflate

/-- A bot's MyINFO goes into both lists, or into one whose cache is empty. -/
structure BotAddable (sMyInfo : Text) : Prop where
  tag : u.myInfosTag.lacksBot sMyInfo = true →
    u.myInfos.lacksBot sMyInfo = true ∨ u.myInfosTag.zLen = 0
  infos : u.myInfos.lacksBot sMyInfo = true →
    u.myInfosTag.lacksBot sMyInfo = true ∨ u.myInfos.zLen = 0

/-- The operations that keep the caches right. -/
def CacheSafe : ListOp → Prop
  | .addBot2MyInfos s => u.BotAddable s
  | .delFromNickList sNick isOp =>
    u.nickList.Searchable 9 sNick ∧ (isOp = true → u.opList.Searchable 7 sNick)
  | .delFromOpList sNick => u.opList.Searchable 7 sNick
  | .delFromUserIP sNick sIP => u.userIPList.Searchable 7 (userIP sNick sIP)
  | _ => True

variable {deflate u}

theorem fresh_init (option : FullMyInfo) : (init option).Fresh deflate where
  nickList := UserList.fresh_of_dropped rfl
  opList := UserList.fresh_of_dropped rfl
  userIPList := UserList.fresh_of_dropped rfl
  myInfos := UserList.fresh_of_dropped rfl
  myInfosTag := UserList.fresh_of_dropped rfl

theorem fresh_addBot2NickList (fresh : u.Fresh deflate) (sNick : Text) (isOp : Bool) :
    (u.addBot2NickList sNick isOp).Fresh deflate := by
  cases isOp with
  | false => exact { fresh with nickList := UserList.fresh_of_dropped rfl }
  | true =>
    exact { fresh with
      nickList := UserList.fresh_of_dropped rfl
      opList := UserList.fresh_of_dropped rfl }

theorem fresh_delFromNickList (fresh : u.Fresh deflate) {sNick : Text} {isOp : Bool}
    (nicks : u.nickList.Searchable 9 sNick) (ops : isOp = true → u.opList.Searchable 7 sNick) :
    (u.delFromNickList sNick isOp).Fresh deflate := by
  have nickList := UserList.fresh_delNick fresh.nickList nicks
  cases isOp with
  | false => exact { fresh with nickList := nickList }
  | true =>
    have opList := UserList.fresh_delNick fresh.opList (ops rfl)
    exact { fresh with nickList := nickList, opList := opList }

/-- The two caches are dropped crosswise, so that one list alone must not grow
under a cache. -/
theorem fresh_addBot2MyInfos (fresh : u.Fresh deflate) {s : Text} (addable : u.BotAddable s) :
    (u.addBot2MyInfos s).Fresh deflate := by
  have tag : (u.addBot2MyInfos s).myInfosTag.Fresh deflate := by
    simp only [addBot2MyInfos]
    split
    · exact UserList.fresh_of_dropped rfl
    · rename_i other
      unfold UserList.addBotInfo
      split
      · rename_i grows
        have dropped := (addable.tag grows).resolve_left other
        exact UserList.fresh_of_dropped dropped
      · exact fresh.myInfosTag
  have infos : (u.addBot2MyInfos s).myInfos.Fresh deflate := by
    simp only [addBot2MyInfos]
    split
    · exact UserList.fresh_of_dropped rfl
    · rename_i other
      unfold UserList.addBotInfo
      split
      · rename_i grows
        have dropped := (addable.infos grows).resolve_left other
        exact UserList.fresh_of_dropped dropped
      · exact fresh.myInfos
  exact { fresh with myInfos := infos, myInfosTag := tag }

theorem step_fresh (fresh : u.Fresh deflate) {op : ListOp} (safe : u.CacheSafe op) :
    (u.step deflate op).Fresh deflate := by
  cases op with
  | add2NickList sNick isOp => exact fresh_addBot2NickList fresh sNick isOp
  | addBot2NickList sNick isOp => exact fresh_addBot2NickList fresh sNick isOp
  | add2OpList sNick => exact { fresh with opList := UserList.fresh_of_dropped rfl }
  | delFromNickList sNick isOp => exact fresh_delFromNickList fresh safe.1 safe.2
  | delFromOpList sNick => exact { fresh with opList := UserList.fresh_delNick fresh.opList safe }
  | add2MyInfos s => exact { fresh with myInfos := UserList.fresh_of_dropped rfl }
  | add2MyInfosTag s => exact { fresh with myInfosTag := UserList.fresh_of_dropped rfl }
  | delFromMyInfos s => exact { fresh with myInfos := UserList.fresh_delInfo s fresh.myInfos }
  | delFromMyInfosTag s =>
    exact { fresh with myInfosTag := UserList.fresh_delInfo s fresh.myInfosTag }
  | addBot2MyInfos s => exact fresh_addBot2MyInfos fresh safe
  | delBotFromMyInfos s =>
    exact { fresh with
      myInfos := UserList.fresh_delBotInfo s fresh.myInfos
      myInfosTag := UserList.fresh_delBotInfo s fresh.myInfosTag }
  | add2UserIP sNick sIP => exact { fresh with userIPList := UserList.fresh_of_dropped rfl }
  | delFromUserIP sNick sIP =>
    exact { fresh with userIPList := UserList.fresh_delNick fresh.userIPList safe }
  | sendNickList z => exact { fresh with nickList := UserList.fresh_send z fresh.nickList }
  | sendOpList z => exact { fresh with opList := UserList.fresh_send z fresh.opList }
  | sendUserIPList z => exact { fresh with userIPList := UserList.fresh_send z fresh.userIPList }
  | sendMyInfos z => exact { fresh with myInfos := UserList.fresh_send z fresh.myInfos }
  | sendMyInfosTag z => exact { fresh with myInfosTag := UserList.fresh_send z fresh.myInfosTag }

/-- No cache is stale after operations that are all safe. -/
theorem caches_fresh (deflate : Text → Option Text) (option : FullMyInfo) (ops : List ListOp)
    (safe : Allowed (fun u op => u.step deflate op) CacheSafe (init option) ops) :
    (reach deflate option ops).Fresh deflate :=
  allowed_invariant (Fresh deflate) (fun _ _ fresh safe => step_fresh fresh safe)
    (fresh_init option) safe

/-- A compression that tells texts of different lengths apart. -/
def lengthOnly (text : Text) : Option Text := some [UInt8.ofNat text.length]

/-- Long MyINFOs only: a user comes, a client is sent the list compressed, and a
bot is registered. -/
def botAfterSend : List ListOp :=
  [.add2MyInfosTag (ascii "$MyINFO $ALL alice " ++ List.replicate 120 97 ++ ascii "$ $100$$0$|"),
    .sendMyInfosTag true, .addBot2MyInfos (ascii "$MyINFO $ALL bot hub bot$ $$$$|")]

theorem caches_fresh_bots : (reach lengthOnly .both
    [.addBot2MyInfos (ascii "$MyINFO $ALL bot hub bot$ $$$$|"), .sendMyInfosTag true]).Fresh
      lengthOnly := by
  apply caches_fresh
  refine ⟨⟨?_, ?_⟩, trivial, trivial⟩
  · intro _
    exact .inl (by decide)
  · intro _
    exact .inl (by decide)

theorem stale_after_bot : ¬ (reach lengthOnly .long botAfterSend).Fresh lengthOnly := by
  intro fresh
  obtain ⟨out, compressed, cached⟩ := fresh.myInfosTag (by decide +kernel)
  rw [lengthOnly, Option.some.injEq] at compressed
  rw [← compressed] at cached
  exact absurd cached (by decide +kernel)

end Users

end FlyHub.Lists
