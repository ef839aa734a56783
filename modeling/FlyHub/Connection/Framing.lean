import FlyHub.Connection.RecvBuffer
import FlyHub.Lib.Cut
import FlyHub.Lib.Run

/-!
# Commands do not depend on the reads

However the bytes of a client are split into reads, the commands handed on are the
stream cut after every `|`, and what follows the last one stays in the buffer.
-/

namespace FlyHub.Connection

open FlyHub.Lib

namespace RecvState

section
variable {σ : Type} {H : Handler σ} {k k' : RecvState σ}

/-- The commands handed on so far. -/
def commands (k : RecvState σ) : List Text := k.passed.map Prod.snd

/-- What `UserProcessLines` has looked at of the command that begins at `p`. -/
def seen (k : RecvState σ) (p i : Nat) : Text := (k.recvBuf.take i).drop p

/-- The data `UserProcessLines` has not looked at. -/
def unseen (k : RecvState σ) (i : Nat) : Text := (k.recvBuf.take k.recvBufDataLen).drop i

/-- `scan` changes bytes of the data and nothing else of the buffer. -/
structure SameBuffer (k k' : RecvState σ) : Prop where
  length : k'.recvBuf.length = k.recvBuf.length
  bufLen : k'.recvBufLen = k.recvBufLen
  dataLen : k'.recvBufDataLen = k.recvBufDataLen
  incoming : k'.incoming = k.incoming

theorem SameBuffer.rfl : SameBuffer k k := ⟨Eq.refl _, Eq.refl _, Eq.refl _, Eq.refl _⟩

theorem SameBuffer.trans {k'' : RecvState σ} (first : SameBuffer k k') (second : SameBuffer k' k'') :
    SameBuffer k k'' :=
  ⟨second.length.trans first.length, second.bufLen.trans first.bufLen,
    second.dataLen.trans first.dataLen, second.incoming.trans first.incoming⟩

section
variable {p i : Nat}

theorem unseen_cons (data : i < k.recvBufDataLen) (inside : k.recvBufDataLen ≤ k.recvBuf.length) :
    k.unseen i = k.recvBuf.getD i 0 :: k.unseen (i + 1) := by
  have here : i < (k.recvBuf.take k.recvBufDataLen).length := by
    simp
    omega
  rw [unseen, List.drop_eq_getElem_cons here, List.getElem_take, unseen]
  rw [List.getD_eq_getElem?_getD, List.getElem?_eq_getElem (by omega), Option.getD_some]

theorem seen_succ (le : p ≤ i) (inside : i < k.recvBuf.length) :
    k.seen p (i + 1) = k.seen p i ++ [k.recvBuf.getD i 0] := by
  rw [seen, List.take_add_one, List.getElem?_eq_getElem inside, Option.toList_some]
  rw [List.drop_append_of_le_length (by simp; omega), seen]
  rw [List.getD_eq_getElem?_getD, List.getElem?_eq_getElem inside, Option.getD_some]

theorem seen_self : k.seen i i = [] := by
  rw [seen, List.drop_eq_nil_iff, List.length_take]
  omega

theorem seen_eq (p i : Nat) : k.seen p i = (k.recvBuf.drop p).take (i - p) := by
  rw [seen, List.drop_take]

end

/-- What is left to cut: the command begun before the byte at `i`, and the data from there. -/
def uncut (k : RecvState σ) (p i : Nat) : Text := k.seen p i ++ (k.unseen i).map replaceNul

/-- What `scan` leaves, when it has looked at all the data: the commands are cut off,
and the next one begins where the rest does. -/
structure Scanned (k k' : RecvState σ) (p i q : Nat) : Prop where
  same : SameBuffer k k'
  start : q ≤ k.recvBufDataLen
  commands : k'.commands =
    k.commands ++ (cutAfter isPipe (k.uncut p i)).1
  rest : k'.unseen q = (cutAfter isPipe (k.uncut p i)).2

/-- A step of `scan` that cuts off `done`, and the rest of it. -/
theorem Scanned.after {k₁ : RecvState σ} {p i p₁ i₁ q : Nat} {done : List Text}
    (same : SameBuffer k k₁) (commands : k₁.commands = k.commands ++ done)
    (cut : cutAfter isPipe (k.uncut p i) =
      (done ++ (cutAfter isPipe (k₁.uncut p₁ i₁)).1, (cutAfter isPipe (k₁.uncut p₁ i₁)).2))
    (scanned : Scanned k₁ k' p₁ i₁ q) : Scanned k k' p i q := by
  refine ⟨same.trans scanned.same, ?_, ?_, ?_⟩
  · rw [← same.dataLen]
    exact scanned.start
  · rw [scanned.commands, commands, cut, List.append_assoc]
  · rw [scanned.rest, cut]

/-- Every command was within the limit of its user. -/
def WithinLimit (H : Handler σ) (k : RecvState σ) : Prop :=
  ∀ c ∈ k.passed, c.2.length ≤ H.limit c.1

/-- The command handed on lies before the byte that is overwritten for its time. -/
theorem marked_command {p i : Nat} (le : p ≤ i) :
    ((k.recvBuf.set (i + 1) 0).drop p).take (i - p + 1) = k.seen p (i + 1) := by
  rw [seen_eq, show i + 1 - p = i - p + 1 by omega]
  apply List.ext_getElem?
  intro j
  by_cases before : j < i - p + 1
  · rw [List.getElem?_take_of_lt before, List.getElem?_take_of_lt before, List.getElem?_drop,
      List.getElem?_drop, List.getElem?_set_ne (by omega)]
  · rw [List.getElem?_eq_none (by simp; omega), List.getElem?_eq_none (by simp; omega)]

theorem set_getD (b : List UInt8) (j : Nat) : b.set j (b.getD j 0) = b := by
  apply List.ext_getElem?
  intro i
  by_cases here : j = i
  · subst here
    by_cases inside : j < b.length
    · simp [inside]
    · simp [inside]
  · rw [List.getElem?_set_ne here]

theorem drop_take_one {b : List UInt8} {j : Nat} (inside : j < b.length) :
    (b.drop j).take 1 = [b.getD j 0] := by
  rw [List.drop_eq_getElem_cons inside, List.take_succ_cons, List.take_zero,
    List.getD_eq_getElem?_getD, List.getElem?_eq_getElem inside, Option.getD_some]

theorem getD_set {b : List UInt8} {j : Nat} {c : UInt8} (inside : j < b.length) :
    (b.set j c).getD j 0 = c := by
  simp [inside]

theorem seen_set {p i j : Nat} {c : UInt8} (le : i ≤ j) :
    ({ k with recvBuf := k.recvBuf.set j c } : RecvState σ).seen p i = k.seen p i := by
  simp only [seen]
  rw [List.take_set_of_le le]

theorem unseen_set {i j : Nat} {c : UInt8} (lt : j < i) :
    ({ k with recvBuf := k.recvBuf.set j c } : RecvState σ).unseen i = k.unseen i := by
  simp only [unseen]
  rw [List.take_set, List.drop_set_of_lt lt]

theorem replaceNul_noPipe {c : UInt8} (noPipe : c ≠ pipe) : isPipe (replaceNul c) = false := by
  unfold replaceNul
  split
  · decide
  · simpa [isPipe] using noPipe

/-- The result of `scan` over the data from `i` on. -/
def Scans (H : Handler σ) (k : RecvState σ) (p i : Nat) : RecvState σ × Option Nat → Prop
  | (k', some q) => Scanned k k' p i q ∧ H.isPastLogin k'.user = false
  | (k', none) => H.isPastLogin k'.user = true

theorem Scans.after {k₁ : RecvState σ} {p i p₁ i₁ : Nat} {r : RecvState σ × Option Nat}
    (done : List Text) (same : SameBuffer k k₁)
    (commands : k₁.commands = k.commands ++ done)
    (cut : cutAfter isPipe (k.uncut p i) =
      (done ++ (cutAfter isPipe (k₁.uncut p₁ i₁)).1, (cutAfter isPipe (k₁.uncut p₁ i₁)).2))
    (rest : Scans H k₁ p₁ i₁ r) : Scans H k p i r := by
  obtain ⟨k', q⟩ := r
  cases q with
  | none => exact rest
  | some q => exact ⟨rest.1.after same commands cut, rest.2⟩

/-- `scan` is at `i` and has `n` bytes to look at. The command that begins at `p` has
no `|` so far. -/
structure Scanning (H : Handler σ) (k : RecvState σ) (n p i : Nat) : Prop where
  open_ : H.isPastLogin k.user = false
  start : p ≤ i
  data : i + n = k.recvBufDataLen
  inside : k.recvBufDataLen < k.recvBuf.length
  clean : ∀ c ∈ k.seen p i, isPipe c = false

section
variable {n p i : Nat}

theorem Scanning.next (at_ : Scanning H k (n + 1) p i) :
    k.unseen i = k.recvBuf.getD i 0 :: k.unseen (i + 1) ∧
      k.seen p (i + 1) = k.seen p i ++ [k.recvBuf.getD i 0] := by
  have data := at_.data
  have inside := at_.inside
  exact ⟨unseen_cons (by omega) (by omega), seen_succ at_.start (by omega)⟩

theorem scan_done (at_ : Scanning H k 0 p i) : Scans H k p i (scan H 0 i p k) := by
  have data := at_.data
  have start := at_.start
  have done : k.unseen i = [] := by
    rw [unseen, List.drop_eq_nil_iff, List.length_take]
    omega
  have rest : k.uncut p i = k.seen p i := by
    rw [uncut, done, List.map_nil, List.append_nil]
  have cut := cutAfter_clean at_.clean
  rw [scan]
  refine ⟨⟨.rfl, by omega, ?_, ?_⟩, at_.open_⟩
  · rw [rest, cut, List.append_nil]
  · rw [rest, cut]
    rw [unseen, seen, show i = k.recvBufDataLen by omega]

/-- A command ends at `i`. -/
theorem cut_pipe (at_ : Scanning H k (n + 1) p i) (found : k.recvBuf.getD i 0 = pipe) :
    cutAfter isPipe (k.uncut p i) =
      (k.seen p (i + 1) :: (cutAfter isPipe (k.uncut (i + 1) (i + 1))).1,
        (cutAfter isPipe (k.uncut (i + 1) (i + 1))).2) := by
  obtain ⟨data, step⟩ := at_.next
  have text : k.uncut p i = k.seen p i ++ pipe :: (k.unseen (i + 1)).map replaceNul := by
    rw [uncut, data, found, List.map_cons]
    rfl
  have rest : k.uncut (i + 1) (i + 1) = (k.unseen (i + 1)).map replaceNul := by
    rw [uncut, seen_self, List.nil_append]
  rw [text, rest, step, found]
  exact cutAfter_piece at_.clean (by decide) _

/-- No command ends at `i`. -/
theorem uncut_succ (at_ : Scanning H k (n + 1) p i) :
    ({ k with recvBuf := k.recvBuf.set i (replaceNul (k.recvBuf.getD i 0)) } : RecvState σ).uncut
      p (i + 1) = k.uncut p i := by
  have data := at_.data
  have inside := at_.inside
  obtain ⟨unseen, -⟩ := at_.next
  rw [uncut, uncut, unseen_set (by omega), unseen, List.map_cons]
  rw [seen_succ at_.start (by simp; omega), seen_set (Nat.le_refl i), List.append_assoc]
  rw [getD_set (by omega)]
  rfl

theorem Scanning.skip (at_ : Scanning H k (n + 1) p i) (noPipe : k.recvBuf.getD i 0 ≠ pipe) :
    Scanning H { k with recvBuf := k.recvBuf.set i (replaceNul (k.recvBuf.getD i 0)) } n p
      (i + 1) := by
  have data := at_.data
  have inside := at_.inside
  have start := at_.start
  refine ⟨at_.open_, by omega, ?_, ?_, ?_⟩
  · dsimp only
    omega
  · simpa using inside
  · rw [seen_succ start (by simp; omega), seen_set (Nat.le_refl i)]
    simp only [List.forall_mem_append, List.forall_mem_singleton]
    refine ⟨at_.clean, ?_⟩
    rw [getD_set (by omega)]
    exact replaceNul_noPipe noPipe

/-- The command before the `|` is handed on, and the user is still there. -/
theorem Scanning.pass {user : σ} (at_ : Scanning H k (n + 1) p i) (still : H.isPastLogin user = false)
    (passed : List (σ × Text)) :
    Scanning H { k with user := user, passed := passed } n (i + 1) (i + 1) := by
  have data := at_.data
  refine ⟨still, Nat.le_refl _, ?_, at_.inside, ?_⟩
  · dsimp only
    omega
  · rw [seen_self]
    simp

theorem scan_spec (at_ : Scanning H k n p i) : Scans H k p i (scan H n i p k) := by
  induction n generalizing k p i with
  | zero => exact scan_done at_
  | succ n ih =>
    have start := at_.start
    have data := at_.data
    have inside := at_.inside
    rw [scan]
    dsimp only
    split
    · rename_i found
      rw [List.set_set, set_getD, marked_command start, show p + (i - p + 1) = i + 1 by omega]
      split
      · split
        · assumption
        · rename_i still
          have next := at_.pass (by simpa using still)
            (k.passed ++ [(k.user, k.seen p (i + 1))])
          refine Scans.after [k.seen p (i + 1)] ?_ ?_ ?_ (ih next)
          · exact ⟨rfl, rfl, rfl, rfl⟩
          · simp [commands]
          · exact cut_pipe at_ found
      · exact H.close_past k.user
    · rename_i noPipe
      have next := at_.skip noPipe
      have rest : Scans H k p i (scan H n (i + 1) p
          { k with recvBuf := k.recvBuf.set i (replaceNul (k.recvBuf.getD i 0)) }) := by
        refine Scans.after [] ?_ ?_ ?_ (ih next)
        · exact ⟨by simp, rfl, rfl, rfl⟩
        · simp [commands]
        · rw [uncut_succ at_, List.nil_append]
      split
      · rename_i nul
        rw [nul] at rest
        exact rest
      · rename_i noNul
        rw [replaceNul, if_neg noNul, set_getD] at rest
        exact rest

end

/-- The rest is moved to the front, unless the user is dropped. -/
theorem shift_spec {q : Nat} (start : q ≤ k.recvBufDataLen)
    (inside : k.recvBufDataLen < k.recvBuf.length) :
    H.isPastLogin (k.shift H q).user = true ∨
      (k.shift H q).leftover = k.unseen q ∧ (k.shift H q).recvBufDataLen ≤ k.recvBufDataLen ∧
      (k.shift H q).recvBuf.length = k.recvBuf.length ∧ (k.shift H q).recvBufLen = k.recvBufLen ∧
      (k.shift H q).commands = k.commands ∧ (k.shift H q).incoming = k.incoming := by
  have rest : k.unseen q = (k.recvBuf.drop q).take (k.recvBufDataLen - q) := by
    rw [unseen, List.drop_take]
  unfold shift
  dsimp only
  split
  · rename_i zero
    right
    refine ⟨?_, ?_, ?_, rfl, rfl, rfl⟩
    · rw [rest, leftover, zero, List.take_zero, List.take_zero]
    · dsimp only
      omega
    · rw [List.length_set]
  · split
    · rename_i one
      right
      refine ⟨?_, ?_, ?_, rfl, rfl, rfl⟩
      · rw [rest, leftover]
        dsimp only
        rw [one, List.take_set_of_le (Nat.le_refl 1), drop_take_one (by omega)]
        rw [← List.drop_zero (l := k.recvBuf.set 0 _), drop_take_one (by simp; omega),
          getD_set (by omega)]
      · dsimp only
        omega
      · rw [List.length_set, List.length_set]
    · split
      · left
        exact H.close_past k.user
      · right
        have size : ((k.recvBuf.drop q).take (k.recvBufDataLen - q)).length =
            k.recvBufDataLen - q := by
          simp
          omega
        have written : Written k.recvBuf 0 ((k.recvBuf.drop q).take (k.recvBufDataLen - q)) _ :=
          overwrite_written (by omega)
        have front := written.upTo
        refine ⟨?_, ?_, ?_, rfl, rfl, rfl⟩
        · rw [rest, leftover]
          dsimp only
          rw [List.take_set_of_le (Nat.le_refl _)]
          rw [size, Nat.zero_add, List.take_zero, List.nil_append] at front
          exact front
        · dsimp only
          omega
        · rw [List.length_set, written.length]

/-- The data lies in the buffer, and what was received is the commands handed on and
what is left over. -/
structure Framed (stream : Text) (k : RecvState σ) : Prop where
  data_le : k.recvBufDataLen ≤ k.recvBufLen
  block : k.recvBuf.length = k.recvBufLen + 1 ∨ k.recvBuf = [] ∧ k.recvBufLen = 0
  cut : ∃ received, received ++ k.incoming = stream ∧
    cutAfter isPipe (received.map replaceNul) = (k.commands, k.leftover)

/-- The buffer is framed as long as the user is there. -/
def FramedWhileOpen (H : Handler σ) (stream : Text) (k : RecvState σ) : Prop :=
  H.isPastLogin k.user = false → Framed stream k

section
variable {stream : Text}

theorem Framed.inside (framed : Framed stream k) (full : 0 < k.recvBufLen) :
    k.recvBuf.length = k.recvBufLen + 1 := by
  cases framed.block with
  | inl block => exact block
  | inr empty =>
    have := empty.2
    omega

/-- `bytes` are put after the data, and the lines are processed. -/
theorem lines_framed {bytes : Text} (framed : Framed stream k)
    (open_ : H.isPastLogin k.user = false) (some_ : bytes ≠ [])
    (room : k.recvBufDataLen + bytes.length ≤ k.recvBufLen)
    (next : k.incoming.take bytes.length = bytes) :
    FramedWhileOpen H stream
      (({ k with
          recvBuf := (overwrite k.recvBuf k.recvBufDataLen bytes).set
            (k.recvBufDataLen + bytes.length) 0
          recvBufDataLen := k.recvBufDataLen + bytes.length
          incoming := k.incoming.drop bytes.length } : RecvState σ).userProcessLines H
        k.recvBufDataLen) := by
  have positive := List.length_pos_iff.mpr some_
  have block := framed.inside (by omega)
  have written : Written k.recvBuf k.recvBufDataLen bytes _ := overwrite_written (by omega)
  obtain ⟨received, stream_, cut⟩ := framed.cut
  generalize new : ({ k with
    recvBuf := (overwrite k.recvBuf k.recvBufDataLen bytes).set
      (k.recvBufDataLen + bytes.length) 0
    recvBufDataLen := k.recvBufDataLen + bytes.length
    incoming := k.incoming.drop bytes.length } : RecvState σ) = k₁
  have length : k₁.recvBuf.length = k.recvBufLen + 1 := by
    rw [← new]
    simp [written.length, block]
  have dataLen : k₁.recvBufDataLen = k.recvBufDataLen + bytes.length := by rw [← new]
  have data : k₁.recvBuf.take (k.recvBufDataLen + bytes.length) = k.leftover ++ bytes := by
    rw [← new]
    dsimp only
    rw [List.take_set_of_le (Nat.le_refl _), written.upTo, leftover]
  have left : k.leftover.length = k.recvBufDataLen := by
    rw [leftover, List.length_take]
    omega
  have seen_ : k₁.seen 0 k.recvBufDataLen = k.leftover := by
    have part := congrArg (List.take k.recvBufDataLen) data
    rw [List.take_take, Nat.min_eq_left (by omega), ← left, List.take_left, left] at part
    rw [seen, List.drop_zero, part]
  have unseen_ : k₁.unseen k.recvBufDataLen = bytes := by
    rw [unseen, dataLen, data, ← left, List.drop_left]
  have at_ : Scanning H k₁ bytes.length 0 k.recvBufDataLen := by
    refine ⟨?_, Nat.zero_le _, dataLen.symm, by omega, ?_⟩
    · rw [← new]
      exact open_
    · rw [seen_]
      have clean := cutAfter_rest isPipe (received.map replaceNul)
      rw [cut] at clean
      exact clean
  have scans := scan_spec at_
  have uncut_ : k₁.uncut 0 k.recvBufDataLen = k.leftover ++ bytes.map replaceNul := by
    rw [uncut, seen_, unseen_]
  have cut' : cutAfter isPipe ((received ++ bytes).map replaceNul) =
      (k.commands ++ (cutAfter isPipe (k₁.uncut 0 k.recvBufDataLen)).1,
        (cutAfter isPipe (k₁.uncut 0 k.recvBufDataLen)).2) := by
    rw [List.map_append, cutAfter_append, cut, uncut_]
  intro still
  rw [userProcessLines, dataLen, Nat.add_sub_cancel_left] at still ⊢
  generalize scan H bytes.length k.recvBufDataLen 0 k₁ = r at scans still ⊢
  obtain ⟨k₂, start⟩ := r
  cases start with
  | none =>
    rw [show H.isPastLogin k₂.user = true from scans] at still
    contradiction
  | some q =>
    have scanned := scans.1
    have same := scanned.same
    have start := scanned.start
    have dataLen₂ := same.dataLen
    have length₂ := same.length
    have bufLen : k₁.recvBufLen = k.recvBufLen := by rw [← new]
    dsimp only at still ⊢
    cases shift_spec (H := H) (k := k₂) (q := q) (by omega) (by omega) with
    | inl past =>
      rw [past] at still
      contradiction
    | inr shifted =>
      obtain ⟨leftover', dataLen', length', bufLen', commands', incoming'⟩ := shifted
      refine ⟨?_, ?_, received ++ bytes, ?_, ?_⟩
      · rw [bufLen', same.bufLen, bufLen]
        omega
      · rw [bufLen', same.bufLen, bufLen, length', length₂, length]
        exact .inl rfl
      · rw [incoming', same.incoming, ← stream_, ← new]
        dsimp only
        rw [List.append_assoc]
        congr 1
        nth_rewrite 1 [← next]
        exact List.take_append_drop _ _
      · rw [cut', leftover', scanned.rest, commands', scanned.commands, ← new]
        rfl

/-- The buffer moves to a block that has room for its data. -/
theorem Framed.realloc {n : Nat} (framed : Framed stream k) (room : k.recvBufDataLen < n) :
    Framed stream (k.realloc n) := by
  have data_le := framed.data_le
  have old : (k.recvBuf.take k.recvBufDataLen).length = k.recvBufDataLen := by
    have block := framed.block
    rw [List.length_take]
    cases block with
    | inl block => omega
    | inr empty => omega
  have written : Written (List.replicate n (0 : UInt8)) 0 (k.recvBuf.take k.recvBufDataLen) _ :=
    overwrite_written (by simp; omega)
  have front := written.upTo
  rw [old, Nat.zero_add, List.take_zero, List.nil_append] at front
  obtain ⟨received, stream_, cut⟩ := framed.cut
  refine ⟨?_, .inl ?_, received, stream_, ?_⟩
  · simp only [RecvState.realloc]
    omega
  · simp only [RecvState.realloc, written.length, List.length_replicate]
    omega
  · rw [cut, leftover, leftover]
    simp only [RecvState.realloc, front]
    rfl

theorem makeRoom_same {avail : Nat} (made : k.makeRoom avail = some k') :
    k'.user = k.user ∧ k'.passed = k.passed := by
  unfold makeRoom at made
  dsimp only at made
  split_ifs at made <;> obtain rfl := Option.some.inj made <;> exact ⟨rfl, rfl⟩

theorem makeRoom_framed {avail : Nat} (framed : Framed stream k) (made : k.makeRoom avail = some k') :
    Framed stream k' := by
  have enough := lt_allign (k.recvBufDataLen + avail)
  have calls : Framed stream { k with recvCalled := 0 } :=
    ⟨framed.data_le, framed.block, framed.cut⟩
  unfold makeRoom at made
  dsimp only at made
  split at made
  · split at made
    · contradiction
    · obtain rfl := Option.some.inj made
      exact framed.realloc (by omega)
  · split at made
    · obtain rfl := Option.some.inj made
      split
      · exact calls
      · exact calls.realloc (by dsimp only; omega)
    · obtain rfl := Option.some.inj made
      exact framed

theorem receive_framed (framed : Framed stream k) (open_ : H.isPastLogin k.user = false)
    (result : RecvResult) : FramedWhileOpen H stream (k.receive H result) := by
  have calls : Framed stream { k with recvCalled := k.recvCalled + 1 } :=
    ⟨framed.data_le, framed.block, framed.cut⟩
  cases result with
  | wouldBlock => exact fun _ => calls
  | closed =>
    intro still
    rw [show H.isPastLogin (k.receive H .closed).user = true from H.close_past k.user] at still
    contradiction
  | data n =>
    simp only [receive]
    split
    · exact fun _ => calls
    · rename_i some_
      have room : (k.incoming.take (min n (k.recvBufLen - k.recvBufDataLen))).length ≤
          k.recvBufLen - k.recvBufDataLen := by
        rw [List.length_take]
        omega
      have data_le := framed.data_le
      rw [Nat.add_sub_cancel]
      apply lines_framed calls open_ some_
      · dsimp only
        omega
      · dsimp only
        rw [List.length_take, List.take_eq_take_iff]
        omega

theorem doRecv_framed (framed : FramedWhileOpen H stream k) (availBytes : Nat)
    (flooded probe : Bool) (result : RecvResult) :
    FramedWhileOpen H stream (k.doRecv H availBytes flooded probe result) := by
  unfold doRecv
  split
  · exact framed
  · rename_i ready
    have open_ : H.isPastLogin k.user = false := by
      simp only [Bool.or_eq_true, not_or, Bool.not_eq_true] at ready
      exact ready.1.1
    cases room : k.makeRoom (if availBytes = 0 then 16 else min availBytes 8192) with
    | none =>
      intro still
      rw [show H.isPastLogin (H.close k.user) = true from H.close_past k.user] at still
      contradiction
    | some k' =>
      apply receive_framed (makeRoom_framed (framed open_) room)
      rw [(makeRoom_same room).1, open_]

end

/-- The limit is checked before a command is handed on. -/
theorem scan_withinLimit {n p i : Nat} (within : WithinLimit H k) :
    WithinLimit H (scan H n i p k).1 := by
  induction n generalizing k p i with
  | zero => exact within
  | succ n ih =>
    rw [scan]
    dsimp only
    split
    · split
      · rename_i short
        have next (buf : List UInt8) (user : σ) (command : Text)
            (len : command.length ≤ i - p + 1) : WithinLimit H
              { k with recvBuf := buf, user := user, passed := k.passed ++ [(k.user, command)] } := by
          simp only [WithinLimit, List.forall_mem_append, List.forall_mem_singleton]
          exact ⟨within, by omega⟩
        split
        · exact next _ _ _ (List.length_take_le _ _)
        · exact ih (next _ _ _ (List.length_take_le _ _))
      · exact within
    · split
      · exact ih within
      · exact ih within

theorem userProcessLines_withinLimit (within : WithinLimit H k) (start : Nat) :
    WithinLimit H (k.userProcessLines H start) := by
  have scanned := scan_withinLimit (n := k.recvBufDataLen - start) (p := 0) (i := start) within
  unfold userProcessLines
  dsimp only
  split
  · unfold shift
    dsimp only
    split_ifs <;> exact scanned
  · exact scanned

theorem step_withinLimit (within : WithinLimit H k) (e : RecvEvent σ) :
    WithinLimit H (k.step H e) := by
  cases e with
  | elsewhere change => exact within
  | doRecv availBytes flooded probe result =>
    simp only [step, doRecv]
    split
    · exact within
    · cases room : k.makeRoom (if availBytes = 0 then 16 else min availBytes 8192) with
      | none => exact within
      | some k' =>
        have within' : WithinLimit H k' := by
          rw [WithinLimit, (makeRoom_same room).2]
          exact within
        dsimp only
        unfold receive
        cases result with
        | wouldBlock => exact within'
        | closed => exact within'
        | data n =>
          dsimp only
          split
          · exact within'
          · apply userProcessLines_withinLimit
            exact within'

theorem step_framed {stream : Text} (framed : FramedWhileOpen H stream k) (e : RecvEvent σ)
    (open_ : H.isPastLogin k.user = false) : FramedWhileOpen H stream (k.step H e) := by
  cases e with
  | doRecv availBytes flooded probe result => exact doRecv_framed framed availBytes flooded probe result
  | elsewhere change =>
    intro _
    have framed := framed open_
    exact ⟨framed.data_le, framed.block, framed.cut⟩

/-- The user is there before every event, and after the last one. -/
def StaysOpen (H : Handler σ) (k : RecvState σ) (es : List (RecvEvent σ)) : Prop :=
  Allowed (step H) (fun k _ => H.isPastLogin k.user = false) k es ∧
    H.isPastLogin (run (step H) k es).user = false

theorem init_framed (stream : Text) (user : σ) : Framed stream (init stream user) :=
  ⟨Nat.le_refl 0, .inr ⟨rfl, rfl⟩, [], rfl, rfl⟩

theorem run_framed {stream : Text} {user : σ} {es : List (RecvEvent σ)}
    (open_ : StaysOpen H (init stream user) es) :
    Framed stream (run (step H) (init stream user) es) := by
  have framed : FramedWhileOpen H stream (init stream user) := fun _ => init_framed stream user
  exact allowed_invariant (FramedWhileOpen H stream)
    (fun k e framed open_ => step_framed framed e open_) framed open_.1 open_.2

theorem run_withinLimit (stream : Text) (user : σ) (es : List (RecvEvent σ)) :
    WithinLimit H (run (step H) (init stream user) es) :=
  run_invariant (WithinLimit H) (fun _ e within => step_withinLimit within e) es
    (by simp [WithinLimit, init])

/-- What the hub has read of the stream, NUL bytes replaced. -/
def received (stream : Text) (k : RecvState σ) : Text :=
  (stream.take (stream.length - k.incoming.length)).map replaceNul

theorem Framed.received {stream : Text} (framed : Framed stream k) :
    cutAfter isPipe (k.received stream) = (k.commands, k.leftover) := by
  obtain ⟨before, stream_, cut⟩ := framed.cut
  rw [RecvState.received, ← cut, ← stream_, List.length_append, Nat.add_sub_cancel, List.take_left]

/-- Two connections that have read the same part of a stream, in whatever pieces, have
handed on the same commands and have the same bytes left over. The commands are what
was read cut after every `|`, whole and once each, and within the limit of their user. -/
theorem framing_independent (stream : Text) (u v : σ) (es fs : List (RecvEvent σ))
    (openEs : StaysOpen H (init stream u) es) (openFs : StaysOpen H (init stream v) fs)
    (same : (run (step H) (init stream u) es).incoming =
      (run (step H) (init stream v) fs).incoming) :
    (run (step H) (init stream u) es).commands = (run (step H) (init stream v) fs).commands ∧
      (run (step H) (init stream u) es).leftover = (run (step H) (init stream v) fs).leftover ∧
      cutAfter isPipe ((run (step H) (init stream u) es).received stream) =
        ((run (step H) (init stream u) es).commands,
          (run (step H) (init stream u) es).leftover) ∧
      (run (step H) (init stream u) es).commands.flatten ++
          (run (step H) (init stream u) es).leftover =
        (run (step H) (init stream u) es).received stream ∧
      WithinLimit H (run (step H) (init stream u) es) := by
  have cutEs := (run_framed openEs).received
  have cutFs := (run_framed openFs).received
  have within := run_withinLimit (H := H) stream u es
  generalize run (step H) (init stream u) es = k at *
  generalize run (step H) (init stream v) fs = l at *
  have both : (k.commands, k.leftover) = (l.commands, l.leftover) := by
    rw [← cutEs, ← cutFs, received, received, same]
  obtain ⟨commands, leftover⟩ := Prod.mk.inj both
  have whole := cutAfter_flatten isPipe (k.received stream)
  rw [cutEs] at whole
  exact ⟨commands, leftover, cutEs, whole, within⟩

end

/-- A user that only can be closed. -/
def quietHandler : Handler Bool := ⟨fun u _ => u, id, fun _ => true, id, fun _ => true, fun _ => rfl⟩

/-- The stream `$|ab|c` read at once, and in pieces that end before and in a command. -/
theorem framing_independent_pieces :
    ((run (step quietHandler) (init [36, 124, 97, 98, 124, 99] false)
        [.doRecv 6 false false (.data 6)]).commands = [[36, 124], [97, 98, 124]]) ∧
      (run (step quietHandler) (init [36, 124, 97, 98, 124, 99] false)
        [.doRecv 6 false false (.data 6)]).commands =
      (run (step quietHandler) (init [36, 124, 97, 98, 124, 99] false)
        [.doRecv 3 false false (.data 1), .doRecv 2 false false (.data 2),
          .doRecv 3 false false (.data 3)]).commands :=
  ⟨by decide +kernel, (framing_independent (H := quietHandler) [36, 124, 97, 98, 124, 99] false false
    [.doRecv 6 false false (.data 6)]
    [.doRecv 3 false false (.data 1), .doRecv 2 false false (.data 2),
      .doRecv 3 false false (.data 3)]
    ⟨⟨by decide +kernel, trivial⟩, by decide +kernel⟩
    ⟨⟨by decide +kernel, by decide +kernel, by decide +kernel, trivial⟩, by decide +kernel⟩
    (by decide +kernel)).1⟩

end RecvState

end FlyHub.Connection
