import FlyHub.Lib.Report
import FlyHub.Session.Index

/-!
# Who is in the list

The users between `ADDME_2LOOP` and their closing are in the list. The nick list and the
lists of MyINFOs, which a newcomer is sent, name these users and the bots of the hub. What
a client knows is what the latest message about a nick has told.
-/

namespace FlyHub.Session

open FlyHub.Broadcast FlyHub.Lists FlyHub.Lib

/-- What a message tells about a nick: that it is in the list, or that it has left. -/
def Msg.tells (nick : Text) : Msg → Option Bool
  | .hello n => if n = nick then some true else none
  | .myInfo info => if info.nick = nick then some true else none
  | .nickList list => if (readNickList list).any (· = nick) then some true else none
  | .quit n => if n = nick then some false else none
  | _ => none

/-- What a client knows after one more message. -/
def readMsg (known : List Text) : Msg → List Text
  | .hello nick => nick :: known
  | .myInfo info => info.nick :: known
  | .nickList list => readNickList list ++ known
  | .quit nick => known.filter (· ≠ nick)
  | _ => known

/-- The nicks that a client knows when it has read the messages. -/
def known (msgs : List Msg) : List Text := msgs.foldl readMsg []

/-- The last word of the messages on a nick. -/
def told (nick : Text) (msgs : List Msg) : Option Bool := latest (Msg.tells nick) msgs

/-- A nick of the hub itself. -/
def Config.IsBot (cfg : Config) (nick : Text) : Prop :=
  nick ∈ cfg.bots ∨ cfg.opChatNick = some nick

/-- The settings take no other nicks for the bots. -/
def Config.BotsValid (cfg : Config) : Prop := ∀ nick, cfg.IsBot nick → ValidNick nick

instance (cfg : Config) (nick : Text) : Decidable (cfg.IsBot nick) :=
  inferInstanceAs (Decidable (_ ∨ _))

namespace Hub

/-- A user with this nick is in the list. -/
def Listed (h : Hub) (nick : Text) : Prop :=
  ∃ c, (h.users c).state.isListed = true ∧ (h.users c).sNick = nick

/-- The users in the list have different nicks. -/
def Alone (h : Hub) : Prop :=
  ∀ c d, (h.users c).state.isListed = true → (h.users d).state.isListed = true →
    (h.users c).sNick = (h.users d).sNick → c = d

/-- The text of the nick list names the bots and, once each, the users in the list. -/
structure Named (cfg : Config) (h : Hub) (words : List Text) : Prop where
  text : h.nickList = render nickListWord words
  valid : ∀ w ∈ words, ValidNick w
  listed : ∀ nick, ¬ cfg.IsBot nick → (nick ∈ words ↔ h.Listed nick)
  once : ∀ nick, ¬ cfg.IsBot nick → words.count nick ≤ 1

/-- A list of MyINFOs has those of the bots and of the users in the list. `get` is the one
that a user has. -/
structure Described (cfg : Config) (h : Hub) (infos : List MyInfo) (get : User → Option MyInfo) :
    Prop where
  own : ∀ c, (h.users c).state.isListed = true →
    ∃ info, get (h.users c) = some info ∧ info.nick = (h.users c).sNick
  entry : ∀ c, (h.users c).state.isListed = true → ¬ cfg.IsBot (h.users c).sNick →
    infos.filter (fun info => info.nick = (h.users c).sNick) = (get (h.users c)).toList
  listed : ∀ info ∈ infos, ¬ cfg.IsBot info.nick → h.Listed info.nick

end Hub

section
variable {cfg : Config} {nick n : Text} {msgs more : List Msg} {msg : Msg}

/-! ## Reading -/

theorem any_eq {list : List Text} : list.any (· = nick) = true ↔ nick ∈ list := by simp

theorem mem_readMsg (nick : Text) (known : List Text) (msg : Msg) :
    nick ∈ readMsg known msg ↔ (msg.tells nick).elim (nick ∈ known) (· = true) := by
  cases msg with
  | hello n | myInfo n =>
    simp only [readMsg, Msg.tells, List.mem_cons]
    split
    · rename_i same
      simp [same]
    · rename_i other
      simp [Ne.symm other]
  | nickList list =>
    simp only [readMsg, Msg.tells, List.mem_append, any_eq]
    split
    · rename_i named
      simp [named]
    · rename_i missing
      simp [missing]
  | quit n =>
    simp only [readMsg, Msg.tells, List.mem_filter]
    split
    · rename_i same
      simp [same]
    · rename_i other
      simp [Ne.symm other]
  | _ => exact Iff.rfl

theorem mem_known : nick ∈ known msgs ↔ told nick msgs = some true := by
  have reads : nick ∈ msgs.foldl readMsg [] ↔
      (latest (Msg.tells nick) msgs).elim (nick ∈ []) (· = true) :=
    foldl_reads (mem_readMsg nick) [] msgs
  rw [known, reads, told]
  cases latest (Msg.tells nick) msgs with
  | none => simp
  | some b => simp

@[simp] theorem told_nil : told nick [] = none := rfl

theorem told_append : told nick (msgs ++ more) = (told nick more).or (told nick msgs) :=
  latest_append

theorem told_singleton : told nick [msg] = msg.tells nick := latest_singleton

theorem told_none : told nick msgs = none ↔ ∀ msg ∈ msgs, msg.tells nick = none := latest_eq_none

theorem tells_plain (plain : msg.IsPlain) : msg.tells nick = none := by
  cases msg <;> first | rfl | exact plain.elim

theorem told_plain (plain : ∀ msg ∈ msgs, Msg.IsPlain msg) : told nick msgs = none :=
  told_none.mpr fun msg mem => tells_plain (plain msg mem)

theorem tells_opChat (bot : msg.IsOpChat cfg) (human : ¬ cfg.IsBot nick) :
    msg.tells nick = none := by
  rcases bot with plain | ⟨chat, isChat, hello | info | quit⟩
  · exact tells_plain plain
  all_goals
    have other : chat ≠ nick := by
      rintro rfl
      exact human (.inr isChat)
    subst msg
    exact if_neg other

theorem told_hello : told nick [.hello n] = if n = nick then some true else none := told_singleton

theorem told_quit : told nick [.quit n] = if n = nick then some false else none := told_singleton

/-- Of MyINFOs are told the nicks. -/
theorem told_infos (nick : Text) (infos : List MyInfo) : told nick (Hub.infoMsgs infos) =
    if nick ∈ infos.map MyInfo.nick then some true else none := by
  split
  · rename_i mem
    obtain ⟨info, inside, rfl⟩ := List.mem_map.mp mem
    apply latest_of_agree
    · intro msg mem w tells
      obtain ⟨info', -, rfl⟩ := List.mem_map.mp mem
      simp only [Msg.tells] at tells
      split at tells
      · exact (Option.some.inj tells).symm
      · cases tells
    · exact ⟨.myInfo info, List.mem_map_of_mem inside, by simp [Msg.tells]⟩
  · rename_i missing
    apply told_none.mpr
    intro msg mem
    obtain ⟨info, inside, rfl⟩ := List.mem_map.mp mem
    exact if_neg fun same => missing (List.mem_map.mpr ⟨info, inside, same⟩)

end

namespace Hub

section
variable {cfg : Config} {x y : Hub} {c : UserId} {nick : Text} {words : List Text}
  {infos : List MyInfo} {info : MyInfo} {get : User → Option MyInfo}

theorem listed_of_user (listed : (x.users c).state.isListed = true) :
    x.Listed (x.users c).sNick := ⟨c, listed, rfl⟩

theorem live_of_isListed {s : UserState} (listed : s.isListed = true) : s.isPastLogin = false := by
  cases s <;> simp_all [UserState.isListed, UserState.isPastLogin, UserState.toNat]

theorem isListed_iff {s : UserState} (live : s.isPastLogin = false) :
    s.isListed = true ↔ UserState.addMe2Loop.toNat ≤ s.toNat := by
  cases s <;> simp_all [UserState.isListed, UserState.isPastLogin, UserState.toNat]

theorem listed_congr (states : ∀ d, (y.users d).state.isListed = (x.users d).state.isListed)
    (nicks : ∀ d, (x.users d).state.isListed = true → (y.users d).sNick = (x.users d).sNick)
    (nick : Text) : y.Listed nick ↔ x.Listed nick := by
  constructor
  · rintro ⟨d, listed, eq⟩
    have before := (states d).symm.trans listed
    exact ⟨d, before, (nicks d before).symm.trans eq⟩
  · rintro ⟨d, listed, eq⟩
    exact ⟨d, (states d).trans listed, (nicks d listed).trans eq⟩

/-! ## The nick list -/

theorem Named.read (named : x.Named cfg words) : readNickList x.nickList = words := by
  rw [named.text]
  exact read_render fun w mem => (named.valid w mem).clean

theorem Named.congr (named : x.Named cfg words) (text : y.nickList = x.nickList)
    (listed : ∀ nick, y.Listed nick ↔ x.Listed nick) : y.Named cfg words where
  text := text.trans named.text
  valid := named.valid
  listed := fun nick human => (named.listed nick human).trans (listed nick).symm
  once := named.once

/-- A new nick goes to the end of the list. -/
theorem Named.add (named : x.Named cfg words) {new : Text} (valid : ValidNick new)
    (fresh : ¬ x.Listed new) (text : y.nickList = add2NickList x.nickList new)
    (listed : ∀ nick, y.Listed nick ↔ x.Listed nick ∨ nick = new) :
    y.Named cfg (words ++ [new]) where
  text := by rw [text, named.text, add_render]
  valid := by
    intro w mem
    cases List.mem_append.mp mem with
    | inl old => exact named.valid w old
    | inr last =>
      rw [List.mem_singleton.mp last]
      exact valid
  listed := by
    intro nick human
    rw [List.mem_append, List.mem_singleton, listed, named.listed nick human]
  once := by
    intro nick human
    rw [List.count_append]
    by_cases same : nick = new
    · subst same
      have missing := List.count_eq_zero.mpr (mt (named.listed nick human).mp fresh)
      rw [missing]
      simp
    · rw [List.count_singleton, if_neg (by simpa using Ne.symm same)]
      exact named.once nick human

/-- A nick that the search finds in its own place is taken out. -/
theorem Named.remove (named : x.Named cfg words) {old : Text} (valid : ValidNick old)
    (deletable : Deletable nickListWord words old)
    (text : y.nickList = delFromNickList x.nickList old)
    (gone : ¬ cfg.IsBot old → ¬ y.Listed old)
    (others : ∀ nick, nick ≠ old → (y.Listed nick ↔ x.Listed nick)) :
    y.Named cfg (words.erase old) where
  text := by
    rw [text, named.text]
    exact (delete_render_iff (by decide) (by decide) named.valid valid).mpr deletable
  valid := fun w mem => named.valid w (List.mem_of_mem_erase mem)
  listed := by
    intro nick human
    by_cases same : nick = old
    · subst same
      have once := named.once nick human
      have missing : nick ∉ words.erase nick := by
        rw [← List.count_eq_zero, List.count_erase_self]
        omega
      exact iff_of_false missing (gone human)
    · rw [List.mem_erase_of_ne same, others nick same]
      exact named.listed nick human
  once := by
    intro nick human
    exact Nat.le_trans (List.erase_sublist.count_le nick) (named.once nick human)

/-! ## The MyINFOs -/

theorem Described.congr (described : x.Described cfg infos get)
    (states : ∀ d, (y.users d).state.isListed = (x.users d).state.isListed)
    (kept : ∀ d, (x.users d).state.isListed = true →
      (y.users d).sNick = (x.users d).sNick ∧ get (y.users d) = get (x.users d)) :
    y.Described cfg infos get where
  own := by
    intro d listed
    have before := (states d).symm.trans listed
    rw [(kept d before).1, (kept d before).2]
    exact described.own d before
  entry := by
    intro d listed human
    have before := (states d).symm.trans listed
    rw [(kept d before).1] at human ⊢
    rw [(kept d before).2]
    exact described.entry d before human
  listed := by
    intro info mem human
    exact (listed_congr states (fun d before => (kept d before).1) _).mpr
      (described.listed info mem human)

/-- Without the MyINFO of a user in the list no entry has its nick. -/
theorem Described.without_user (described : x.Described cfg infos get)
    (listed : (x.users c).state.isListed = true) (human : ¬ cfg.IsBot (x.users c).sNick) :
    (without true (get (x.users c)) infos).filter
      (fun info => info.nick = (x.users c).sNick) = [] := by
  obtain ⟨old, has, nick⟩ := described.own c listed
  have entry := described.entry c listed human
  rw [has] at entry ⊢
  rw [without, if_pos rfl, ← List.erase_filter, entry]
  simp

/-- The entries under the other nicks stay. -/
theorem Described.without_other (described : x.Described cfg infos get)
    (listed : (x.users c).state.isListed = true) (other : nick ≠ (x.users c).sNick) :
    (without true (get (x.users c)) infos).filter (fun info => info.nick = nick) =
      infos.filter (fun info => info.nick = nick) := by
  obtain ⟨old, has, own⟩ := described.own c listed
  rw [has, without, if_pos rfl, ← List.erase_filter]
  apply List.erase_of_not_mem
  intro mem
  have same := (List.mem_filter.mp mem).2
  rw [own, decide_eq_true_eq] at same
  exact other same.symm

theorem mem_of_without {keeps : Bool} {old : Option MyInfo} (mem : info ∈ without keeps old infos) :
    info ∈ infos := by
  unfold without at mem
  split at mem
  · split at mem
    · exact List.mem_of_mem_erase mem
    · exact mem
  · exact mem

/-- A user that leaves the list takes its MyINFO along. -/
theorem Described.remove (described : x.Described cfg infos get) (alone : x.Alone)
    (listed : (x.users c).state.isListed = true) (gone : (y.users c).state.isListed = false)
    (others : ∀ d, d ≠ c → y.users d = x.users d) :
    y.Described cfg (without true (get (x.users c)) infos) get where
  own := by
    intro d now
    have differs : d ≠ c := by
      rintro rfl
      rw [gone] at now
      cases now
    rw [others d differs] at now ⊢
    exact described.own d now
  entry := by
    intro d now human
    have differs : d ≠ c := by
      rintro rfl
      rw [gone] at now
      cases now
    rw [others d differs] at now human ⊢
    rw [described.without_other listed fun same => differs (alone d c now listed same)]
    exact described.entry d now human
  listed := by
    intro info mem human
    obtain ⟨d, now, nick⟩ := described.listed info (mem_of_without mem) human
    by_cases same : d = c
    · subst same
      have none_left := described.without_user listed (nick ▸ human)
      have left : info ∈ (without true (get (x.users d)) infos).filter
          (fun info => info.nick = (x.users d).sNick) :=
        List.mem_filter.mpr ⟨mem, by simp [nick]⟩
      rw [none_left] at left
      cases left
    · exact ⟨d, by rw [others d same]; exact now, by rw [others d same]; exact nick⟩

/-- A user in the list, or one that comes into it, has a new MyINFO put to the end. -/
theorem Described.renew (described : x.Described cfg infos get) (alone : y.Alone)
    (now : (y.users c).state.isListed = true) (has : get (y.users c) = some info)
    (nick : info.nick = (y.users c).sNick)
    (before : (x.users c).state.isListed = true ∧ (y.users c).sNick = (x.users c).sNick ∨
      (x.users c).state.isListed = false ∧ get (x.users c) = none)
    (others : ∀ d, d ≠ c → (y.users d).state.isListed = (x.users d).state.isListed ∧
      (y.users d).sNick = (x.users d).sNick ∧ get (y.users d) = get (x.users d)) :
    y.Described cfg (without true (get (x.users c)) infos ++ [info]) get where
  own := by
    intro d listed
    by_cases same : d = c
    · subst same
      exact ⟨info, has, nick⟩
    · obtain ⟨state, sNick, own⟩ := others d same
      rw [sNick, own]
      exact described.own d (state.symm.trans listed)
  entry := by
    intro d listed human
    rw [List.filter_append]
    by_cases same : d = c
    · subst same
      have cleared : (without true (get (x.users d)) infos).filter
          (fun info => info.nick = (y.users d).sNick) = [] := by
        rcases before with ⟨old, sNick⟩ | ⟨new, none_⟩
        · rw [sNick] at human ⊢
          exact described.without_user old human
        · rw [none_, without, List.filter_eq_nil_iff]
          intro info' mem eq
          rw [decide_eq_true_eq] at eq
          obtain ⟨e, older, nick'⟩ := described.listed info' mem (eq ▸ human)
          have differs : e ≠ d := by
            rintro rfl
            rw [new] at older
            cases older
          obtain ⟨state, sNick, -⟩ := others e differs
          refine differs (alone e d (state.trans older) now ?_)
          rw [sNick, nick', eq]
      rw [cleared, has]
      simp [nick]
    · obtain ⟨state, sNick, own⟩ := others d same
      have other : (y.users d).sNick ≠ (y.users c).sNick :=
        fun eq => same (alone d c listed now eq)
      have last : [info].filter (fun info => info.nick = (y.users d).sNick) = [] := by
        simp [nick, other.symm]
      have rest : (without true (get (x.users c)) infos).filter
          (fun info => info.nick = (y.users d).sNick) =
            infos.filter (fun info => info.nick = (y.users d).sNick) := by
        rcases before with ⟨old, sNick'⟩ | ⟨new, none_⟩
        · exact described.without_other old (sNick' ▸ other)
        · rw [none_, without]
      rw [last, rest, List.append_nil, sNick, own]
      rw [sNick] at human
      exact described.entry d (state.symm.trans listed) human
  listed := by
    intro info' mem human
    cases List.mem_append.mp mem with
    | inl old =>
      obtain ⟨d, listed, nick'⟩ := described.listed info' (mem_of_without old) human
      by_cases same : d = c
      · subst same
        rcases before with ⟨-, sNick⟩ | ⟨new, -⟩
        · exact ⟨d, now, sNick.trans nick'⟩
        · rw [new] at listed
          cases listed
      · obtain ⟨state, sNick, -⟩ := others d same
        exact ⟨d, state.trans listed, sNick.trans nick'⟩
    | inr last =>
      rw [List.mem_singleton.mp last]
      exact ⟨c, now, nick.symm⟩

/-- The nicks of the entries, the bots aside. -/
theorem Described.nicks (described : x.Described cfg infos get) (human : ¬ cfg.IsBot nick) :
    nick ∈ infos.map MyInfo.nick ↔ x.Listed nick := by
  constructor
  · intro mem
    obtain ⟨info, inside, rfl⟩ := List.mem_map.mp mem
    exact described.listed info inside human
  · rintro ⟨c, listed, rfl⟩
    obtain ⟨info, has, same⟩ := described.own c listed
    have entry := described.entry c listed human
    rw [has] at entry
    have mem : info ∈ infos.filter (fun info => info.nick = (x.users c).sNick) := by
      rw [entry]
      exact List.mem_singleton_self info
    exact List.mem_map.mpr ⟨info, (List.mem_filter.mp mem).1, same⟩

end

end Hub

end FlyHub.Session
