import FlyHub.Lists.MyInfo
import FlyHub.Lists.Members

/-!
# The lists of the MyINFOs are those of their members

A deletion looks in the whole list for the text of an entry after its `$MyINFO `.
The search starts at a `$` of some entry, and only the entry of that nick goes on
as the pattern does: the description, the connection and the email of another
user cannot hide a match, as none of them has a `$` or a closing pipe.
-/

namespace FlyHub.Lists

open FlyHub.Lib

namespace Entry

variable {e d : Entry}

theorem pattern_ne_nil (e : Entry) : e.pattern ≠ [] := List.cons_ne_nil _ _

theorem pattern_whole (e : Entry) : Whole dollar e.pattern := by
  have digits : dollar ∉ e.share := not_digit e.shareDigits (by decide)
  intro w mem
  simp only [pattern, List.mem_cons, List.not_mem_nil, or_false] at mem
  obtain rfl | rfl | rfl | rfl | rfl | rfl := mem
  · have word : dollar ∉ ascii "ALL " := by decide
    have gap : dollar ≠ blank := by decide
    simp [word, gap, e.nickClean.2, e.descriptionClean]
  · simpa using e.modeClean.symm
  · exact e.connectionClean
  · exact e.emailClean.1
  · exact digits
  · decide

theorem segments_whole (e : Entry) : Whole dollar e.segments := by
  intro w mem
  cases List.mem_cons.mp mem with
  | inl eq => exact eq ▸ (by decide : dollar ∉ ascii "MyINFO ")
  | inr later => exact e.pattern_whole w later

/-- The stretch with the nick tells the nick. -/
theorem nick_of_stretch {v w : Text} {m n : Text} (hm : blank ∉ m) (hn : blank ∉ n)
    (eq : ascii "ALL " ++ m ++ blank :: v = ascii "ALL " ++ n ++ blank :: w) : m = n := by
  rw [List.append_assoc, List.append_assoc, List.append_cancel_left_eq] at eq
  have both : m ++ blank :: v <+: n ++ blank :: w := eq ▸ List.prefix_refl _
  exact ((prefix_at_separator hm hn).mp both).1

/-- The letter the stretch with the nick starts with. -/
theorem mem_stretch (e : Entry) : 65 ∈ ascii "ALL " ++ e.sNick ++ blank :: e.description := by
  have word : 65 ∈ ascii "ALL " := by decide
  simp [word]

/-- The pattern of an entry starts at no stretch of an entry of another nick. -/
theorem no_match (other : e.sNick ≠ d.sNick) (rest : List Entry) :
    ∀ j < 7, ¬ StartsWith e.pattern ((d.segments ++ (rest.map segments).flatten).drop j) := by
  have noDigits (e : Entry) : 65 ∉ e.share := not_digit e.shareDigits (by decide)
  have mem := e.mem_stretch
  intro j lt starts
  match j with
  | 0 =>
    have eq : ascii "ALL " ++ e.sNick ++ blank :: e.description = ascii "MyINFO " := starts.1
    have first := congrArg List.head? eq
    cases first
  | 1 => exact other (nick_of_stretch e.nickClean.1 d.nickClean.1 starts.1)
  | 2 =>
    have eq : ascii "ALL " ++ e.sNick ++ blank :: e.description = [d.mode] := starts.1
    have length := congrArg List.length eq
    have word : (ascii "ALL ").length = 4 := rfl
    simp only [List.length_append, List.length_cons, List.length_nil, word] at length
    omega
  | 3 =>
    -- the email would be the closing pipe
    obtain ⟨-, -, -, email, -⟩ := starts
    exact e.emailClean.2 (email ▸ List.mem_singleton_self 124)
  | 4 =>
    -- the share would be the stretch with the nick of the next entry
    obtain ⟨-, -, -, starts⟩ := starts
    cases rest with
    | nil => exact starts
    | cons r rest =>
      obtain ⟨-, share, -⟩ := starts
      exact noDigits e (share ▸ r.mem_stretch)
  | 5 =>
    have eq : ascii "ALL " ++ e.sNick ++ blank :: e.description = d.share := starts.1
    exact noDigits d (eq ▸ mem)
  | 6 =>
    have eq : ascii "ALL " ++ e.sNick ++ blank :: e.description = [124] := starts.1
    rw [eq] at mem
    exact absurd mem (by decide)

end Entry

/-! ## The search over the entries -/

/-- The search passes over the stretches where the pattern does not start. -/
theorem memmem_joined {p s t : List Text} (full : p ≠ []) (hp : Whole dollar p)
    (hs : Whole dollar (s ++ t)) (miss : ∀ j < s.length, ¬ StartsWith p ((s ++ t).drop j)) :
    memmem (joined dollar p) (joined dollar (s ++ t)) =
      (memmem (joined dollar p) (joined dollar t)).map (· + (joined dollar s).length) := by
  obtain ⟨w, p', rfl⟩ := List.exists_cons_of_ne_nil full
  have pattern : joined dollar (w :: p') = dollar :: (w ++ joined dollar p') := joined_cons
  induction s with
  | nil => simp
  | cons v s ih =>
    rw [List.cons_append] at hs miss ⊢
    have hv : dollar ∉ v := hs v List.mem_cons_self
    have hs' : Whole dollar (s ++ t) := fun u mem => hs u (List.mem_cons_of_mem _ mem)
    have rest := ih hs' fun j lt => miss (j + 1) (Nat.succ_lt_succ lt)
    have text : joined dollar (v :: (s ++ t)) = dollar :: (v ++ joined dollar (s ++ t)) := joined_cons
    have here : (joined dollar (w :: p')).isPrefixOf (joined dollar (v :: (s ++ t))) = false := by
      rw [Bool.eq_false_iff, ne_eq, List.isPrefixOf_iff_prefix, joined_prefix hp hs]
      exact miss 0 (Nat.succ_pos _)
    rw [text] at here ⊢
    rw [memmem, here, if_neg Bool.false_ne_true]
    rw [pattern] at rest ⊢
    rw [memmem_skip hv, rest]
    cases memmem (dollar :: (w ++ joined dollar p')) (joined dollar t) with
    | none => rfl
    | some i =>
      simp only [Option.map_some, joined_cons, List.length_cons, List.length_append]
      congr 1
      omega

/-- A text is found where it starts. -/
theorem memmem_here {p : List Text} (full : p ≠ []) (t : List Text) :
    memmem (joined dollar p) (joined dollar (p ++ t)) = some 0 := by
  obtain ⟨w, p', rfl⟩ := List.exists_cons_of_ne_nil full
  have starts : (joined dollar (w :: p')).isPrefixOf (joined dollar (w :: p' ++ t)) = true := by
    rw [joined_append]
    exact List.isPrefixOf_iff_prefix.mpr (List.prefix_append _ _)
  have text : joined dollar (w :: p' ++ t) = dollar :: (w ++ joined dollar (p' ++ t)) := joined_cons
  rw [text] at starts ⊢
  rw [memmem, starts, if_pos rfl]

namespace Entry

variable {e : Entry} {pre post : List Entry}

/-- The whole list, stretch by stretch. -/
theorem joined_segments (entries : List Entry) :
    joined dollar (entries.map segments).flatten = (entries.map text).flatten := by
  rw [joined_flatten, List.map_map]
  rfl

theorem whole_segments (entries : List Entry) : Whole dollar (entries.map segments).flatten := by
  intro w mem
  obtain ⟨segments, there, mem⟩ := List.mem_flatten.mp mem
  obtain ⟨d, -, rfl⟩ := List.mem_map.mp there
  exact d.segments_whole w mem

/-- The entries of other nicks are passed over. -/
theorem memmem_others (others : ∀ d ∈ pre, e.sNick ≠ d.sNick) (rest : List Entry) :
    memmem (joined dollar e.pattern) ((pre ++ rest).map text).flatten =
      (memmem (joined dollar e.pattern) (rest.map text).flatten).map
        (· + (pre.map text).flatten.length) := by
  induction pre with
  | nil => simp
  | cons d pre ih =>
    have later := ih fun d mem => others d (List.mem_cons_of_mem _ mem)
    have here := memmem_joined e.pattern_ne_nil e.pattern_whole
      (whole_segments (d :: (pre ++ rest))) (no_match (others d List.mem_cons_self) (pre ++ rest))
    rw [joined_segments (pre ++ rest)] at here
    have all := joined_segments (d :: (pre ++ rest))
    rw [List.map_cons, List.flatten_cons] at all
    rw [List.cons_append, ← joined_segments, List.map_cons, List.flatten_cons, here, later,
      Option.map_map]
    congr 1
    funext i
    have first : joined dollar d.segments = d.text := rfl
    simp only [Function.comp, List.map_cons, List.flatten_cons, List.length_append, first]
    omega

/-- The text of an entry is found in its own entry, behind the first stretch. -/
theorem memmem_own (e : Entry) (post : List Entry) :
    memmem (joined dollar e.pattern) ((e :: post).map text).flatten = some 8 := by
  have first : ∀ j < [ascii "MyINFO "].length, ¬ StartsWith e.pattern
      (([ascii "MyINFO "] ++ (e.pattern ++ (post.map segments).flatten)).drop j) := by
    intro j lt starts
    have zero : j = 0 := by
      simp only [List.length_cons, List.length_nil] at lt
      omega
    subst zero
    have head := congrArg List.head? starts.1
    cases head
  have whole : Whole dollar ([ascii "MyINFO "] ++ (e.pattern ++ (post.map segments).flatten)) :=
    whole_segments (e :: post)
  have behind := memmem_joined e.pattern_ne_nil e.pattern_whole whole first
  rw [memmem_here e.pattern_ne_nil] at behind
  rw [← joined_segments]
  exact behind

theorem text_drop (e : Entry) : e.text.drop 8 = joined dollar e.pattern := by
  have first : (dollar :: ascii "MyINFO ").length = 8 := rfl
  rw [text, segments, joined_cons, ← List.cons_append, ← first, List.drop_left]

end Entry

/-! ## The list and its members -/

/-- The list is made of `texts`. -/
structure UserList.Consists (l : UserList) (texts : List Text) : Prop where
  bytes : l.bytes = texts.flatten
  len : l.len = texts.flatten.length

namespace UserList

variable {l : UserList} {texts : List Text}

theorem consists_addInfo (consists : l.Consists texts) (sMyInfo : Text) :
    (l.addInfo sMyInfo).Consists (texts ++ [sMyInfo]) := by
  have whole : (texts ++ [sMyInfo]).flatten = texts.flatten ++ sMyInfo := by simp
  have len : (l.addInfo sMyInfo).len = (texts.flatten ++ sMyInfo).length := by
    rw [List.length_append, ← consists.len]
    rfl
  refine ⟨?_, by rw [whole, len]⟩
  rw [bytes, len, whole]
  have text : (l.addInfo sMyInfo).text = texts.flatten ++ sMyInfo := by rw [addInfo, consists.bytes]
  rw [text, List.take_length]

/-- A text that is not found stays away. -/
theorem consists_delInfo_none (consists : l.Consists texts) {sMyInfo : Text}
    (missing : memmem (sMyInfo.drop 8) texts.flatten = none) : (l.delInfo sMyInfo).Consists texts := by
  rw [delInfo, consists.bytes, missing]
  exact consists

theorem consists_delInfo {pre post : List Text} {sMyInfo : Text}
    (consists : l.Consists (pre ++ sMyInfo :: post))
    (found : memmem (sMyInfo.drop 8) (pre ++ sMyInfo :: post).flatten = some (pre.flatten.length + 8)) :
    (l.delInfo sMyInfo).Consists (pre ++ post) := by
  have whole : (pre ++ sMyInfo :: post).flatten = pre.flatten ++ (sMyInfo ++ post.flatten) := by simp
  have rest : (pre ++ post).flatten = pre.flatten ++ post.flatten := by simp
  have len := consists.len
  rw [whole, List.length_append, List.length_append] at len
  have text : (l.delInfo sMyInfo).text = pre.flatten ++ post.flatten := by
    rw [delInfo, consists.bytes, found]
    dsimp only
    rw [Nat.add_sub_cancel, whole, List.take_left, ← List.append_assoc, ← List.length_append,
      List.drop_left]
  have len' : (l.delInfo sMyInfo).len = (pre.flatten ++ post.flatten).length := by
    rw [delInfo, consists.bytes, found]
    dsimp only
    rw [List.length_append]
    omega
  refine ⟨?_, by rw [rest, len']⟩
  rw [bytes, len', rest, text, List.take_length]

end UserList

/-! ## The users of the two lists -/

/-- The form of the MyINFOs of a list. -/
inductive InfoForm where
  | short
  | long

/-- `GenerateMyInfoShort` or `GenerateMyInfoLong`. -/
def InfoForm.generate : InfoForm → InfoOwner → InfoSettings → MyInfo → Text
  | .short => fun o cfg info => o.generateMyInfoShort cfg info
  | .long => fun o _ info => o.generateMyInfoLong info

/-- The text has been made of a command that the hub took from a user of that nick. A
command ends at its first pipe. The settings may have changed between the two. -/
def InfoForm.Stored (form : InfoForm) (sNick sMyInfo : Text) : Prop :=
  ∃ (o : InfoOwner) (taking making : InfoSettings) (judge : Text → TagVerdict) (sCommand : Text)
    (info : MyInfo), o.sNick = sNick ∧ 124 ∉ sCommand.dropLast ∧
      o.takeMyInfo taking judge sCommand = some info ∧ form.generate o making info = sMyInfo

/-- A user with the MyINFO that is stored for it. -/
structure InfoUser (form : InfoForm) where
  sNick : Text
  sMyInfo : Text
  stored : form.Stored sNick sMyInfo

/-- What is done to the two lists. -/
inductive InfoOp where
  | add2MyInfos (u : InfoUser .short)
  | delFromMyInfos (u : InfoUser .short)
  | add2MyInfosTag (u : InfoUser .long)
  | delFromMyInfosTag (u : InfoUser .long)

def InfoOp.toListOp : InfoOp → ListOp
  | .add2MyInfos u => .add2MyInfos u.sMyInfo
  | .delFromMyInfos u => .delFromMyInfos u.sMyInfo
  | .add2MyInfosTag u => .add2MyInfosTag u.sMyInfo
  | .delFromMyInfosTag u => .delFromMyInfosTag u.sMyInfo

/-- The users in the lists, in the order in which they were added. -/
structure InfoMembers where
  infos : List (InfoUser .short)
  tagInfos : List (InfoUser .long)

/-- The first user of the nick leaves. -/
def leave {form : InfoForm} (users : List (InfoUser form)) (u : InfoUser form) :
    List (InfoUser form) :=
  users.eraseP (·.sNick = u.sNick)

namespace InfoMembers

def empty : InfoMembers := ⟨[], []⟩

variable (m : InfoMembers)

def step : InfoOp → InfoMembers
  | .add2MyInfos u => { m with infos := m.infos ++ [u] }
  | .delFromMyInfos u => { m with infos := leave m.infos u }
  | .add2MyInfosTag u => { m with tagInfos := m.tagInfos ++ [u] }
  | .delFromMyInfosTag u => { m with tagInfos := leave m.tagInfos u }

end InfoMembers

/-- The MyINFO of a user in the list is still the one it was added with. -/
def SameInfo {form : InfoForm} (users : List (InfoUser form)) (u : InfoUser form) : Prop :=
  ∀ v ∈ users, v.sNick = u.sNick → v.sMyInfo = u.sMyInfo

/-- No stored MyINFO has changed since its user was added. -/
def InfoMembers.Unchanged (m : InfoMembers) : InfoOp → Prop
  | .add2MyInfos u | .delFromMyInfos u => SameInfo m.infos u
  | .add2MyInfosTag u | .delFromMyInfosTag u => SameInfo m.tagInfos u

section
variable {form : InfoForm} {users : List (InfoUser form)} {u : InfoUser form} {l : UserList}

theorem stored_entry (u : InfoUser form) : ∃ e : Entry, e.sNick = u.sNick ∧ e.text = u.sMyInfo := by
  obtain ⟨o, taking, making, judge, sCommand, info, nick, onePipe, taken, made⟩ := u.stored
  obtain ⟨fine, short⟩ := InfoOwner.takeMyInfo_fine onePipe taken
  rw [← nick, ← made]
  cases form with
  | short => exact o.generateMyInfoShort_entry fine short
  | long => exact o.generateMyInfoLong_entry fine short

theorem stored_entries (users : List (InfoUser form)) :
    ∃ entries : List Entry, entries.map Entry.sNick = users.map InfoUser.sNick ∧
      entries.map Entry.text = users.map InfoUser.sMyInfo := by
  induction users with
  | nil => exact ⟨[], rfl, rfl⟩
  | cons u users ih =>
    obtain ⟨e, nick, text⟩ := stored_entry u
    obtain ⟨entries, nicks, texts⟩ := ih
    exact ⟨e :: entries, by simp [nick, nicks], by simp [text, texts]⟩

/-- A deletion takes the entry of its user out of the list, and nothing else. -/
theorem consists_leave (consists : l.Consists (users.map InfoUser.sMyInfo)) (same : SameInfo users u) :
    (l.delInfo u.sMyInfo).Consists ((leave users u).map InfoUser.sMyInfo) := by
  obtain ⟨e, nick, text⟩ := stored_entry u
  have searched : u.sMyInfo.drop 8 = joined dollar e.pattern := by rw [← text, e.text_drop]
  have others {pre : List (InfoUser form)} (apart : ∀ v ∈ pre, v.sNick ≠ u.sNick) :
      ∃ entries : List Entry, (∀ d ∈ entries, e.sNick ≠ d.sNick) ∧
        entries.map Entry.text = pre.map InfoUser.sMyInfo := by
    obtain ⟨entries, nicks, texts⟩ := stored_entries pre
    refine ⟨entries, ?_, texts⟩
    intro d mem eq
    have there : d.sNick ∈ pre.map InfoUser.sNick := nicks ▸ List.mem_map_of_mem mem
    obtain ⟨v, memV, eqV⟩ := List.mem_map.mp there
    exact apart v memV (eqV.trans (eq.symm.trans nick))
  by_cases here : ∃ v ∈ users, v.sNick = u.sNick
  · obtain ⟨v, mem, eqV⟩ := here
    obtain ⟨v, pre, post, apart, eqV, split, erased⟩ :=
      List.exists_of_eraseP (p := fun v : InfoUser form => decide (v.sNick = u.sNick)) mem (by simp [eqV])
    have eqV : v.sNick = u.sNick := by simpa using eqV
    have own : v.sMyInfo = u.sMyInfo := same v (split ▸ by simp) eqV
    obtain ⟨before, differ, texts⟩ := others fun v mem => by simpa using apart v mem
    obtain ⟨behind, -, texts'⟩ := stored_entries post
    have whole : users.map InfoUser.sMyInfo =
        pre.map InfoUser.sMyInfo ++ u.sMyInfo :: post.map InfoUser.sMyInfo := by
      rw [split, List.map_append, List.map_cons, own]
    have rest : (leave users u).map InfoUser.sMyInfo =
        pre.map InfoUser.sMyInfo ++ post.map InfoUser.sMyInfo := by
      rw [leave, erased, List.map_append]
    have found := Entry.memmem_others differ (e :: behind)
    rw [Entry.memmem_own, List.map_append, List.map_cons, texts, texts', text] at found
    rw [whole] at consists
    rw [rest]
    refine UserList.consists_delInfo consists ?_
    rw [searched, found, Option.map_some, Nat.add_comm]
  · have apart : ∀ v ∈ users, v.sNick ≠ u.sNick := fun v mem eq => here ⟨v, mem, eq⟩
    obtain ⟨entries, differ, texts⟩ := others apart
    have stays : leave users u = users := List.eraseP_of_forall_not fun v mem => by
      simpa using apart v mem
    have missing := Entry.memmem_others differ []
    rw [List.append_nil, texts] at missing
    rw [stays]
    refine UserList.consists_delInfo_none consists ?_
    rw [searched, missing]
    rfl

end

namespace Users

variable {deflate : Text → Option Text} {u : Users} {m : InfoMembers}

/-- Both lists consist of the MyINFOs of their users. -/
structure ShowsInfos (u : Users) (m : InfoMembers) : Prop where
  myInfos : u.myInfos.Consists (m.infos.map InfoUser.sMyInfo)
  myInfosTag : u.myInfosTag.Consists (m.tagInfos.map InfoUser.sMyInfo)

/-- The lists and their users side by side. -/
def stepInfos (deflate : Text → Option Text) (s : Users × InfoMembers) (op : InfoOp) :
    Users × InfoMembers :=
  (s.1.step deflate op.toListOp, s.2.step op)

theorem step_showsInfos {op : InfoOp} (unchanged : m.Unchanged op) (shows_ : u.ShowsInfos m) :
    (u.step deflate op.toListOp).ShowsInfos (m.step op) := by
  cases op with
  | add2MyInfos v =>
    refine ⟨?_, shows_.myInfosTag⟩
    have added := UserList.consists_addInfo shows_.myInfos v.sMyInfo
    rwa [← List.map_singleton, ← List.map_append] at added
  | delFromMyInfos v => exact ⟨consists_leave shows_.myInfos unchanged, shows_.myInfosTag⟩
  | add2MyInfosTag v =>
    refine ⟨shows_.myInfos, ?_⟩
    have added := UserList.consists_addInfo shows_.myInfosTag v.sMyInfo
    rwa [← List.map_singleton, ← List.map_append] at added
  | delFromMyInfosTag v => exact ⟨shows_.myInfos, consists_leave shows_.myInfosTag unchanged⟩

theorem showsInfos_init (option : FullMyInfo) : (init option).ShowsInfos .empty where
  myInfos := ⟨rfl, rfl⟩
  myInfosTag := ⟨rfl, rfl⟩

/-- As long as no stored MyINFO changes between the addition of its user and the
deletion, the lists are at all times the MyINFOs of their users, in the order of the
additions. -/
theorem infos_show_members (deflate : Text → Option Text) (option : FullMyInfo)
    (ops : List InfoOp)
    (unchanged : Allowed (stepInfos deflate) (fun s op => s.2.Unchanged op) (init option, .empty) ops) :
    ∀ pre, pre <+: ops → (run (stepInfos deflate) (init option, .empty) pre).1.ShowsInfos
      (run (stepInfos deflate) (init option, .empty) pre).2 := by
  rintro pre ⟨later, rfl⟩
  have allowed := (allowed_append.mp unchanged).1
  exact allowed_invariant (fun s : Users × InfoMembers => s.1.ShowsInfos s.2)
    (fun s op shows_ same => step_showsInfos same shows_) (showsInfos_init option) allowed

instance {form : InfoForm} (users : List (InfoUser form)) (u : InfoUser form) :
    Decidable (SameInfo users u) :=
  inferInstanceAs (Decidable (∀ v ∈ users, v.sNick = u.sNick → v.sMyInfo = u.sMyInfo))

instance (m : InfoMembers) : (op : InfoOp) → Decidable (m.Unchanged op)
  | .add2MyInfos u | .delFromMyInfos u => inferInstanceAs (Decidable (SameInfo m.infos u))
  | .add2MyInfosTag u | .delFromMyInfosTag u => inferInstanceAs (Decidable (SameInfo m.tagInfos u))

def plainSettings : InfoSettings := ⟨false, false, false, false, false, false, 256, by decide⟩

/-- The user of a MyINFO sent over IPv4. -/
def plainUser (sNick sCommand : Text) (info : MyInfo) (validNick : ValidNick sNick)
    (onePipe : 124 ∉ sCommand.dropLast)
    (taken : InfoOwner.takeMyInfo ⟨sNick, true, false, false, validNick, rfl⟩ plainSettings
      (fun _ => .bad) sCommand = some info) : InfoUser .short :=
  ⟨sNick, _, ⟨sNick, true, false, false, validNick, rfl⟩, plainSettings, plainSettings,
    fun _ => .bad, sCommand, info, rfl, onePipe, taken, rfl⟩

/-- A user whose description looks like the start of the entry of `b`. -/
def mimic : InfoUser .short :=
  plainUser (ascii "a") (ascii "$MyINFO $ALL a ALL b c$ $A$$0$|")
    ⟨ascii "ALL b c", [], none, [], 65, [], 0⟩ (by decide +kernel) (by decide +kernel) (by decide +kernel)

def mimicked : InfoUser .short :=
  plainUser (ascii "b") (ascii "$MyINFO $ALL b c$ $A$$1234567$|")
    ⟨ascii "c", [], none, [], 65, [], 1234567⟩ (by decide +kernel) (by decide +kernel) (by decide +kernel)

theorem mimic_stays :
    (run (stepInfos fun _ => none) (init .short, .empty)
      [.add2MyInfos mimic, .add2MyInfos mimicked, .delFromMyInfos mimicked]).1.myInfos.bytes =
      mimic.sMyInfo :=
  (infos_show_members (fun _ => none) .short
    [.add2MyInfos mimic, .add2MyInfos mimicked, .delFromMyInfos mimicked] (by decide +kernel) _
    (List.prefix_refl _)).myInfos.bytes

end Users

end FlyHub.Lists
