import FlyHub.Lists.Users

/-!
# The nick list and the operator list are their members

Beside the texts runs a plain list of the nicks that were added and not deleted.
-/

namespace FlyHub.Lists

open FlyHub.Lib

/-- The nicks and the operators, in the order in which they were added. -/
structure Members where
  nicks : List Text
  ops : List Text

namespace Members

def empty : Members := ⟨[], []⟩

/-- Every nick passes the checks of the login. -/
structure Valid (m : Members) : Prop where
  nicks : ∀ nick ∈ m.nicks, ValidNick nick
  ops : ∀ nick ∈ m.ops, ValidNick nick

def step (m : Members) : ListOp → Members
  | .add2NickList sNick isOp | .addBot2NickList sNick isOp =>
    ⟨m.nicks ++ [sNick], if isOp then m.ops ++ [sNick] else m.ops⟩
  | .add2OpList sNick => { m with ops := m.ops ++ [sNick] }
  | .delFromNickList sNick isOp =>
    ⟨m.nicks.erase sNick, if isOp then m.ops.erase sNick else m.ops⟩
  | .delFromOpList sNick => { m with ops := m.ops.erase sNick }
  | _ => m

/-- The operation deletes no nick that is cut wrongly. -/
def DeletesRight (m : Members) : ListOp → Prop
  | .delFromNickList sNick isOp =>
    Deletable nickListWord m.nicks sNick ∧ (isOp = true → Deletable opListWord m.ops sNick)
  | .delFromOpList sNick => Deletable opListWord m.ops sNick
  | _ => True

end Members

/-- The nick an operation is about. -/
def ListOp.nick : ListOp → Option Text
  | .add2NickList sNick _ | .addBot2NickList sNick _ | .add2OpList sNick
  | .delFromNickList sNick _ | .delFromOpList sNick => some sNick
  | _ => none

instance (nick : Text) : Decidable (ValidNick nick) :=
  inferInstanceAs (Decidable (∀ c ∈ nick, c ≠ blank ∧ c ≠ dollar ∧ c ≠ 124))

/-- An operation whose nick passes the checks of the login. -/
abbrev ValidOp := { op : ListOp // ∀ nick ∈ op.nick, ValidNick nick }

/-- The list is the text of `words`, and its length is the length of that text. -/
structure UserList.Shows (l : UserList) (word : Text) (words : List Text) : Prop where
  text : l.text = render word words
  len : l.len = l.text.length

namespace UserList

section
variable {l : UserList} {word nick : Text} {words : List Text}

theorem Shows.bytes (shows_ : l.Shows word words) : l.bytes = render word words := by
  rw [UserList.bytes, shows_.len, List.take_length, shows_.text]

theorem shows_addNick (shows_ : l.Shows word words) (nick : Text) :
    (l.addNick nick).Shows word (words ++ [nick]) where
  text := by
    rw [addNick, shows_.bytes]
    exact add_render word nick words
  len := by
    have grown := congrArg List.length (add_render word nick words)
    simp only [addNick, shows_.bytes, shows_.len, shows_.text]
    rw [grown]
    simp [render, body_append]
    omega

theorem memmem_le {p s : Text} {i : Nat} (found : memmem p s = some i) :
    i + p.length ≤ s.length := by
  induction s generalizing i with
  | nil =>
    simp only [memmem] at found
    split at found
    · rename_i empty
      simp [empty, ← Option.some.inj found]
    · exact absurd found (by simp)
  | cons c s ih =>
    simp only [memmem] at found
    split at found
    · rename_i here
      have fits := (List.isPrefixOf_iff_prefix.mp here).length_le
      have zero := Option.some.inj found
      omega
    · obtain ⟨j, later, rfl⟩ := Option.map_eq_some_iff.mp found
      have fits := ih later
      simp only [List.length_cons]
      omega

theorem render_erase_length (word : Text) (mem : nick ∈ words) :
    (render word (words.erase nick)).length + (nick.length + 2) = (render word words).length := by
  obtain ⟨pre, post, -, rfl, erased⟩ := List.exists_erase_eq mem
  rw [erased]
  simp [render, body_append]
  omega

/-- A cut makes the text shorter. -/
theorem cutNick_length {mark i : Nat} {list : Text} (found : findNick mark list nick = some i) :
    (cutNick mark list nick i).length < list.length := by
  have fits := memmem_le found
  simp only [List.length_cons, List.length_append, List.length_nil, List.length_set] at fits
  simp only [cutNick, restored, List.length_append, List.length_take, List.length_drop,
    List.length_set]
  omega

theorem delNick_text (shows_ : l.Shows word words) (nick : Text) :
    (l.delNick (word.length + 1) nick).text = deleteNick (word.length + 1) (render word words) nick := by
  rw [delNick, deleteNick, shows_.bytes]
  cases findNick (word.length + 1) (render word words) nick with
  | some i => rfl
  | none =>
    dsimp only
    rw [shows_.text]

/-- The deletion of a nick is right exactly if it is none of the two that are cut
wrongly. -/
theorem shows_delNick (clean : dollar ∉ word) (full : word ≠ [])
    (valid : ∀ w ∈ words, ValidNick w) (hn : ValidNick nick) (shows_ : l.Shows word words) :
    (l.delNick (word.length + 1) nick).Shows word (words.erase nick) ↔
      Deletable word words nick := by
  have text := delNick_text shows_ nick
  have exact_ := delete_render_iff clean full valid hn
  constructor
  · intro after
    apply exact_.mp
    rw [← text, after.text]
  · intro deletable
    have deleted := exact_.mpr deletable
    refine ⟨text.trans deleted, ?_⟩
    rw [text]
    rw [delNick, shows_.bytes]
    cases found : findNick (word.length + 1) (render word words) nick with
    | none =>
      have same : deleteNick (word.length + 1) (render word words) nick = render word words := by
        rw [deleteNick, found]
        exact restored_render
      rw [same, ← shows_.text]
      exact shows_.len
    | some i =>
      have cut : deleteNick (word.length + 1) (render word words) nick =
          cutNick (word.length + 1) (render word words) nick i := by rw [deleteNick, found]
      have mem : nick ∈ words := by
        by_contra missing
        rw [List.erase_of_not_mem missing, cut] at deleted
        have shorter := cutNick_length found
        rw [deleted] at shorter
        exact absurd shorter (Nat.lt_irrefl _)
      have length := render_erase_length word mem
      have before := shows_.len
      rw [shows_.text] at before
      rw [deleted]
      dsimp only
      omega

end

end UserList

namespace Users

variable {deflate : Text → Option Text} {u : Users} {m : Members}

theorem nickListWord_clean : dollar ∉ nickListWord := by decide

theorem opListWord_clean : dollar ∉ opListWord := by decide

/-- Both texts show the members. -/
structure Shows (u : Users) (m : Members) : Prop where
  nickList : u.nickList.Shows nickListWord m.nicks
  opList : u.opList.Shows opListWord m.ops

theorem valid_add {nicks : List Text} (valid : ∀ nick ∈ nicks, ValidNick nick) {sNick : Text}
    (new : ValidNick sNick) : ∀ nick ∈ nicks ++ [sNick], ValidNick nick := by
  intro nick mem
  rw [List.mem_append, List.mem_singleton] at mem
  cases mem with
  | inl old => exact valid nick old
  | inr eq => exact eq ▸ new

theorem valid_erase {nicks : List Text} (valid : ∀ nick ∈ nicks, ValidNick nick) (sNick : Text) :
    ∀ nick ∈ nicks.erase sNick, ValidNick nick :=
  fun nick mem => valid nick (List.mem_of_mem_erase mem)

theorem step_valid (valid : m.Valid) (op : ValidOp) : (m.step op.1).Valid := by
  obtain ⟨op, hop⟩ := op
  cases op with
  | add2NickList sNick isOp | addBot2NickList sNick isOp =>
    have new : ValidNick sNick := hop sNick rfl
    cases isOp with
    | false => exact ⟨valid_add valid.nicks new, valid.ops⟩
    | true => exact ⟨valid_add valid.nicks new, valid_add valid.ops new⟩
  | add2OpList sNick => exact ⟨valid.nicks, valid_add valid.ops (hop sNick rfl)⟩
  | delFromNickList sNick isOp =>
    cases isOp with
    | false => exact ⟨valid_erase valid.nicks sNick, valid.ops⟩
    | true => exact ⟨valid_erase valid.nicks sNick, valid_erase valid.ops sNick⟩
  | delFromOpList sNick => exact ⟨valid.nicks, valid_erase valid.ops sNick⟩
  | _ => exact valid

theorem shows_delNicks (valid : m.Valid) {sNick : Text} (hn : ValidNick sNick)
    (shows_ : u.Shows m) :
    (u.nickList.delNick 9 sNick).Shows nickListWord (m.nicks.erase sNick) ↔
      Deletable nickListWord m.nicks sNick :=
  UserList.shows_delNick nickListWord_clean (by decide) valid.nicks hn shows_.nickList

theorem shows_delOps (valid : m.Valid) {sNick : Text} (hn : ValidNick sNick)
    (shows_ : u.Shows m) :
    (u.opList.delNick 7 sNick).Shows opListWord (m.ops.erase sNick) ↔
      Deletable opListWord m.ops sNick :=
  UserList.shows_delNick opListWord_clean (by decide) valid.ops hn shows_.opList

theorem send_bytes (l : UserList) (deflate : Text → Option Text) (z : Bool) :
    (l.send deflate z).1.text = l.text ∧ (l.send deflate z).1.len = l.len := by
  have zip : (l.createZPipe deflate).text = l.text ∧ (l.createZPipe deflate).len = l.len := by
    unfold UserList.createZPipe
    split
    · exact ⟨rfl, rfl⟩
    · split
      · exact ⟨rfl, rfl⟩
      · dsimp only
        split <;> exact ⟨rfl, rfl⟩
  cases z with
  | false => exact ⟨rfl, rfl⟩
  | true =>
    by_cases dropped : l.zLen = 0
    · simp only [UserList.send, Bool.not_true, Bool.false_eq_true, if_false, dropped, if_true]
      split <;> exact zip
    · simp [UserList.send, dropped]

theorem shows_send {l : UserList} {word : Text} {words : List Text} (shows_ : l.Shows word words)
    (z : Bool) : (l.send deflate z).1.Shows word words := by
  have same := send_bytes l deflate z
  exact ⟨same.1.trans shows_.text, by rw [same.1, same.2, shows_.len]⟩

/-- An operation keeps the texts right exactly if it deletes no nick that is cut
wrongly. -/
theorem step_shows (valid : m.Valid) (op : ValidOp) (shows_ : u.Shows m) :
    (u.step deflate op.1).Shows (m.step op.1) ↔ m.DeletesRight op.1 := by
  obtain ⟨op, hop⟩ := op
  cases op with
  | add2NickList sNick isOp | addBot2NickList sNick isOp =>
    have nicks := UserList.shows_addNick shows_.nickList sNick
    have ops := UserList.shows_addNick shows_.opList sNick
    refine iff_of_true ?_ trivial
    cases isOp with
    | false => exact ⟨nicks, shows_.opList⟩
    | true => exact ⟨nicks, ops⟩
  | add2OpList sNick =>
    exact iff_of_true ⟨shows_.nickList, UserList.shows_addNick shows_.opList sNick⟩ trivial
  | delFromNickList sNick isOp =>
    have hn : ValidNick sNick := hop sNick rfl
    have nicks := shows_delNicks valid hn shows_
    have ops := shows_delOps valid hn shows_
    cases isOp with
    | false =>
      constructor
      · intro after
        exact ⟨nicks.mp after.nickList, fun isOp => by simp at isOp⟩
      · intro right
        exact ⟨nicks.mpr right.1, shows_.opList⟩
    | true =>
      constructor
      · intro after
        exact ⟨nicks.mp after.nickList, fun _ => ops.mp after.opList⟩
      · intro right
        exact ⟨nicks.mpr right.1, ops.mpr (right.2 rfl)⟩
  | delFromOpList sNick =>
    have ops := shows_delOps valid (hop sNick rfl) shows_
    constructor
    · intro after
      exact ops.mp after.opList
    · intro right
      exact ⟨shows_.nickList, ops.mpr right⟩
  | sendNickList z =>
    exact iff_of_true ⟨shows_send shows_.nickList z, shows_.opList⟩ trivial
  | sendOpList z => exact iff_of_true ⟨shows_.nickList, shows_send shows_.opList z⟩ trivial
  | _ => exact iff_of_true ⟨shows_.nickList, shows_.opList⟩ trivial

/-- The lists and the members side by side. -/
def stepBoth (deflate : Text → Option Text) (s : Users × Members) (op : ValidOp) : Users × Members :=
  (s.1.step deflate op.1, s.2.step op.1)

theorem shows_init (option : FullMyInfo) : (init option).Shows .empty where
  nickList := ⟨show ascii "$NickList |" = render nickListWord [] by decide, rfl⟩
  opList := ⟨show ascii "$OpList |" = render opListWord [] by decide, rfl⟩

/-- All along a run the texts are those of the members exactly if no deletion of the
run is of a nick that is cut wrongly. -/
theorem lists_show_members_iff (deflate : Text → Option Text) (option : FullMyInfo)
    (ops : List ValidOp) :
    (∀ pre, pre <+: ops → (run (stepBoth deflate) (init option, .empty) pre).1.Shows
      (run (stepBoth deflate) (init option, .empty) pre).2) ↔
      Allowed (stepBoth deflate) (fun s op => s.2.DeletesRight op.1) (init option, .empty) ops := by
  have keeps (s : Users × Members) (op : ValidOp) (valid : s.2.Valid) :
      (stepBoth deflate s op).2.Valid := step_valid valid op
  have right (s : Users × Members) (op : ValidOp) (valid : s.2.Valid) (shows_ : s.1.Shows s.2) :
      (stepBoth deflate s op).1.Shows (stepBoth deflate s op).2 ↔ s.2.DeletesRight op.1 :=
    step_shows valid op shows_
  have start : Members.empty.Valid := ⟨by simp [Members.empty], by simp [Members.empty]⟩
  exact forall_prefix_iff_allowed (fun s : Users × Members => s.2.Valid)
    (fun s : Users × Members => s.1.Shows s.2) keeps right start (shows_init option)

/-- A user calls itself as the list is called, and leaves. -/
def nickListVisit : List ValidOp :=
  [⟨.add2NickList nickListWord false, by decide +kernel⟩,
    ⟨.delFromNickList nickListWord false, by decide +kernel⟩]

theorem nickListVisit_breaks :
    ¬ (run (stepBoth fun _ => none) (init .long, .empty) nickListVisit).1.Shows
      (run (stepBoth fun _ => none) (init .long, .empty) nickListVisit).2 := by
  intro shows_
  exact absurd shows_.nickList.text (by decide +kernel)

end Users

end FlyHub.Lists
