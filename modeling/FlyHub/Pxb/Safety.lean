import Mathlib
import FlyHub.Pxb.Window

/-!
# Reading any file

The sizes in a file are taken as they are. Where each is at least the size of its own
header, `ReadNextItem` ends, and stays in the bytes it has read.
-/

namespace FlyHub.Pxb

open FlyHub.Lib

/-- What follows the size of an item divides into sub-items, up to one that is too large
for the rest of the item, where the reader gives up. -/
inductive Divided : Text → Prop
  | nil : Divided []
  | tooLarge {bytes : Text} (header : 2 ≤ bytes.length)
      (large : bytes.length < ofBE (bytes.take 2)) : Divided bytes
  | subItem {bytes : Text} (header : 4 ≤ ofBE (bytes.take 2))
      (fits : ofBE (bytes.take 2) ≤ bytes.length)
      (rest : Divided (bytes.drop (ofBE (bytes.take 2)))) : Divided bytes

/-- The next item, if the call gets to it, has room for its size and divides into sub-items. -/
def PXBReader.WellSized (r : PXBReader) : Prop :=
  r.remainingSize ≠ 0 → ∀ size, itemSize r.rest = some size →
    4 ≤ size ∧ Divided ((r.rest.take size).drop 4)

/-- Every sub-item found lies between `start` and `stop`. -/
def PXBReader.SubItemsIn (r : PXBReader) (start stop : Nat) : Prop :=
  ∀ k off, r.itemDatas[k]? = some (some off) → start ≤ off ∧ off + r.itemLengths.getD k 0 ≤ stop

/-- The loop is in an item that ends at `stop`. -/
structure InItem (start stop : Nat) (s : ItemScan) : Prop where
  valid : s.reader.Valid
  size_le : s.itemSize ≤ s.reader.remainingSize
  stop_eq : s.reader.actualPosition + s.itemSize = stop
  start_le : start ≤ s.reader.actualPosition
  divided : Divided (s.reader.ahead.take s.itemSize)
  within : s.reader.SubItemsIn start stop

def Outcome.InItem (start stop : Nat) : Outcome → Prop
  | .returned _ r => r.Valid ∧ r.SubItemsIn start stop
  | .running s => Pxb.InItem start stop s
  | .outside => False

section
variable {ui8SubItems : UInt8} {q : Request ui8SubItems} {s : ItemScan} {start stop n : Nat}

theorem InItem.put (at_ : InItem start stop s) (header : 4 ≤ n) (fits : n ≤ s.itemSize) (k : Nat) :
    InItem start stop (s.put n k) := by
  have valid := at_.valid
  have stop_eq := at_.stop_eq
  have start_le := at_.start_le
  have length := wrapSub_of_le (m := uint16T) header
  refine ⟨⟨valid.window, valid.fits, valid.full, ?_⟩, at_.size_le, stop_eq, start_le, at_.divided, ?_⟩
  · simp [ItemScan.put, valid.arrays]
  · intro j off found
    simp only [ItemScan.put, length] at found ⊢
    by_cases here : k = j
    · subst here
      obtain ⟨bound, eq⟩ := List.getElem?_eq_some_iff.mp found
      simp only [List.getElem_set_self, Option.some.injEq] at eq
      simp only [List.length_set] at bound
      rw [List.getD_eq_getElem?_getD, List.getElem?_set_self (by rw [valid.arrays]; exact bound)]
      rw [Option.getD_some]
      omega
    · rw [List.getElem?_set_ne here] at found
      rw [List.getD_eq_getElem?_getD, List.getElem?_set_ne here, ← List.getD_eq_getElem?_getD]
      exact at_.within j off found

/-- What every `put` keeps, the search keeps. -/
theorem find_keeps {P : ItemScan → Prop} (keeps : ∀ s k, P s → P (s.put n k)) (h : P s)
    (ident : Text) : P (s.find q n ident) := by
  unfold ItemScan.find
  dsimp only
  split
  · exact keeps _ _ h
  · apply List.foldlRecOn _ _ h
    intro s hs k _
    split
    · exact keeps _ _ hs
    · exact hs

theorem skip_itemSize (fits : n ≤ s.itemSize) : (s.skip n).itemSize = s.itemSize - n :=
  wrapSub_of_le fits

/-- The position moves over the sub-item. -/
theorem InItem.skip (at_ : InItem start stop s) (fits : n ≤ s.itemSize)
    (rest : Divided ((s.reader.ahead.take s.itemSize).drop n)) :
    InItem start stop (s.skip n) := by
  have size_le := at_.size_le
  have stop_eq := at_.stop_eq
  have start_le := at_.start_le
  have less := wrapSub_of_le (m := uint32T) fits
  obtain ⟨valid, ahead, remaining⟩ := at_.valid.advance (n := n) (by omega)
  refine ⟨valid, ?_, ?_, ?_, ?_, at_.within⟩
  · simp only [ItemScan.skip, less, remaining]
    omega
  · simp only [ItemScan.skip, less, PXBReader.advance]
    omega
  · simp only [ItemScan.skip, PXBReader.advance]
    omega
  · simp only [ItemScan.skip, less, ahead]
    rwa [List.drop_take] at rest

/-- One turn of the loop stays in the item, and comes nearer to its end. -/
theorem turn_inItem (at_ : InItem start stop s) :
    (s.turn q).InItem start stop ∧
      ∀ s', s.turn q = .running s' → s'.itemSize < s.itemSize := by
  have valid := at_.valid
  have size_le := at_.size_le
  have divided := at_.divided
  have ahead := valid.ahead_length
  have length : (s.reader.ahead.take s.itemSize).length = s.itemSize := by
    rw [List.length_take]
    omega
  unfold ItemScan.turn
  split
  · exact ⟨⟨valid, at_.within⟩, by simp⟩
  · rename_i more
    have header (two : 2 ≤ s.itemSize) :
        s.reader.look 0 2 = some ((s.reader.ahead.take s.itemSize).take 2) := by
      rw [valid.look (by omega), List.drop_zero, List.take_take, Nat.min_eq_left two]
    generalize item : s.reader.ahead.take s.itemSize = bytes at divided length header
    cases divided with
    | nil => exact absurd length.symm more
    | tooLarge two large =>
      rw [header (by omega)]
      dsimp only
      rw [if_pos (by omega)]
      exact ⟨⟨valid, at_.within⟩, by simp⟩
    | subItem four fits rest =>
      rw [header (by omega)]
      dsimp only
      rw [if_neg (by omega)]
      split
      · rw [valid.look (by omega)]
        dsimp only
        generalize (s.reader.ahead.drop 2).take 2 = ident
        have found : InItem start stop (s.find q (ofBE (bytes.take 2)) ident) ∧
            (s.find q (ofBE (bytes.take 2)) ident).itemSize = s.itemSize ∧
            (s.find q (ofBE (bytes.take 2)) ident).reader.ahead = s.reader.ahead := by
          apply find_keeps (P := fun s' => InItem start stop s' ∧ s'.itemSize = s.itemSize ∧
            s'.reader.ahead = s.reader.ahead)
          · rintro s' k ⟨at', size, ahead⟩
            exact ⟨at'.put four (by omega) k, size, ahead⟩
          · exact ⟨at_, rfl, rfl⟩
        obtain ⟨at', size, ahead'⟩ := found
        refine ⟨at'.skip (by omega) ?_, ?_⟩
        · rw [size, ahead', item]
          exact rest
        · rintro s' ⟨⟩
          rw [skip_itemSize (by omega)]
          omega
      · refine ⟨at_.skip (by omega) ?_, ?_⟩
        · rw [item]
          exact rest
        · rintro s' ⟨⟩
          rw [skip_itemSize (by omega)]
          omega

theorem next_inItem {o : Outcome} (inItem : o.InItem start stop) :
    (o.next q).InItem start stop := by
  cases o with
  | returned found r => exact inItem
  | running s => exact (turn_inItem inItem).1
  | outside => exact inItem

theorem iterate_inItem (at_ : InItem start stop s) (turns : Nat) :
    ((Outcome.next q)^[turns] (.running s)).InItem start stop := by
  induction turns with
  | zero => exact at_
  | succ turns ih =>
    rw [Function.iterate_succ_apply']
    exact next_inItem ih

/-- The rest of the item gets smaller, so the loop ends. -/
theorem iterate_ends (at_ : InItem start stop s) :
    ∃ turns found r', (Outcome.next q)^[turns] (.running s) = .returned found r' := by
  induction size : s.itemSize using Nat.strongRecOn generalizing s with
  | _ m ih =>
    obtain ⟨inItem, smaller⟩ := turn_inItem (q := q) at_
    cases turned : s.turn q with
    | returned found r => exact ⟨1, found, r, turned⟩
    | outside =>
      rw [turned] at inItem
      exact inItem.elim
    | running s' =>
      have less := smaller s' turned
      rw [turned] at inItem
      obtain ⟨turns, found, r', ends⟩ := ih s'.itemSize (by omega) inItem rfl
      refine ⟨turns + 1, found, r', ?_⟩
      rw [Function.iterate_succ_apply, Outcome.next, turned, ends]

end

/-- The position and the remaining size agree with the bytes read, wherever the call is. -/
def Outcome.Safe : Outcome → Prop
  | .returned _ r => r.Valid
  | .running s => s.reader.Valid
  | .outside => False

/-- The end of the item that was entered, by the size before the position. -/
def ItemScan.stop (s : ItemScan) : Nat :=
  s.reader.actualPosition - 4 + ofBE ((s.reader.buffer.drop (s.reader.actualPosition - 4)).take 4)

section
variable {ui8SubItems : UInt8}

/-- The call ends, is safe all along, and the sub-items it returns lie in the item. -/
structure SafeCall (r : PXBReader) (q : Request ui8SubItems) : Prop where
  ends : ∃ turns found r', r.readNextItem q turns = .returned found r'
  safe : ∀ turns, (r.readNextItem q turns).Safe
  inItem : ∀ s, r.enter = .running s → ∀ turns found r',
    r.readNextItem q turns = .returned found r' → r'.SubItemsIn s.reader.actualPosition s.stop

/-- Every call of a run has the property, whatever the calls before have returned. -/
def EveryCall (P : PXBReader → Request ui8SubItems → Prop) : PXBReader → List (Request ui8SubItems) → Prop
  | _, [] => True
  | r, q :: qs => P r q ∧
      ∀ turns found r', r.readNextItem q turns = .returned found r' → EveryCall P r' qs

theorem next_returned {q : Request ui8SubItems} (turns : Nat) (found : Bool) (r : PXBReader) :
    (Outcome.next q)^[turns] (.returned found r) = .returned found r :=
  Function.iterate_fixed rfl turns

/-- A call that does not get to an item. -/
theorem entered_returned {r r' : PXBReader} {found : Bool} (entered : r.enter = .returned found r')
    (valid : r'.Valid) (q : Request ui8SubItems) : SafeCall r q := by
  have outcome (turns : Nat) : r.readNextItem q turns = .returned found r' := by
    rw [PXBReader.readNextItem, entered, next_returned]
  refine ⟨⟨0, found, r', outcome 0⟩, fun turns => ?_, fun s running => ?_⟩
  · rw [outcome]
    exact valid
  · rw [entered] at running
    contradiction

/-- A call that gets to an item that divides into sub-items. -/
theorem entered_running {r : PXBReader} {s : ItemScan} (entered : r.enter = .running s)
    (at_ : InItem s.reader.actualPosition s.stop s) (q : Request ui8SubItems) : SafeCall r q := by
  have outcome (turns : Nat) : r.readNextItem q turns = (Outcome.next q)^[turns] (.running s) := by
    rw [PXBReader.readNextItem, entered]
  refine ⟨?_, fun turns => ?_, ?_⟩
  · simp only [outcome]
    exact iterate_ends at_
  · rw [outcome]
    have inItem := iterate_inItem (q := q) at_ turns
    revert inItem
    cases (Outcome.next q)^[turns] (.running s) with
    | returned found r' => exact fun inItem => inItem.1
    | running s' => exact fun inItem => inItem.valid
    | outside => exact id
  · intro s' running turns found r' returned
    rw [entered] at running
    obtain rfl := Outcome.running.inj running
    have inItem := iterate_inItem (q := q) at_ turns
    rw [← outcome, returned] at inItem
    exact inItem.2

theorem wellSized_safe {r : PXBReader} (valid : r.Valid) (wellSized : r.WellSized)
    (q : Request ui8SubItems) : SafeCall r q := by
  by_cases none_ : r.remainingSize = 0 ∨ itemSize r.rest = none
  · obtain ⟨r', entered, valid'⟩ := valid.enter_none none_
    exact entered_returned entered valid' q
  · simp only [not_or] at none_
    obtain ⟨some_, item⟩ := none_
    obtain ⟨size, item⟩ := Option.ne_none_iff_exists'.mp item
    obtain ⟨room, divided⟩ := wellSized some_ size item
    obtain ⟨r', entered, valid', same, header, whole, -⟩ := valid.enter_item some_ item
    obtain ⟨valid₄, ahead, remaining⟩ := valid'.advance (n := 4) (by omega)
    have rest : r'.rest = r.rest := same.rest
    have bytes : (r'.buffer.drop r'.actualPosition).take 4 = r.rest.take 4 := by
      rw [← rest, ← valid'.ahead_take header, PXBReader.ahead]
    have size_eq : ofBE (r.rest.take 4) = size :=
      Option.some.inj (Option.ite_none_right_eq_some.mp item).2
    apply entered_running entered
    refine ⟨valid₄, ?_, ?_, Nat.le_refl _, ?_, ?_⟩
    · rw [wrapSub_of_le room]
      dsimp only
      omega
    · simp only [ItemScan.stop, PXBReader.advance, Nat.add_sub_cancel]
      rw [bytes, size_eq, wrapSub_of_le room]
      omega
    · dsimp only
      rw [ahead, wrapSub_of_le room, ← List.drop_take, valid'.ahead_take whole, rest]
      exact divided
    · intro k off found
      simp only [PXBReader.advance, same.datas, PXBReader.clear, List.getElem?_map,
        Option.map_eq_some_iff, reduceCtorEq, and_false, exists_false] at found

/-- Where every item that is read has room for its size and divides into sub-items,
every call is safe. -/
theorem reader_safe (file : Text) (qs : List (Request ui8SubItems))
    (wellSized : EveryCall (fun r _ => r.WellSized) (PXBReader.openFileRead file ui8SubItems).2 qs) :
    EveryCall SafeCall (PXBReader.openFileRead file ui8SubItems).2 qs := by
  have valid := openFileRead_valid file ui8SubItems
  generalize (PXBReader.openFileRead file ui8SubItems).2 = r at valid wellSized ⊢
  induction qs generalizing r with
  | nil => exact trivial
  | cons q qs ih =>
    obtain ⟨here, rest⟩ := wellSized
    have safe := wellSized_safe valid here q
    refine ⟨safe, fun turns found r' returned => ih r' ?_ (rest turns found r' returned)⟩
    have valid' := safe.safe turns
    rw [returned] at valid'
    exact valid'

end

/-- One item of eight bytes with a sub-item of no bytes. -/
def emptySubItem : Text := [0, 0, 0, 8, 0, 0, 84, 89]

theorem fileHeader_idents : 2 ≤ ([⟨70, 73⟩, ⟨70, 86⟩] : List Ident).length := Nat.le_refl 2

/-- What every load asks for first. -/
def fileHeader : Request 9 := ⟨[⟨70, 73⟩, ⟨70, 86⟩], 2, fileHeader_idents, by decide⟩

/-- The loop turns for ever over the empty sub-item. -/
theorem emptySubItem_loops : ¬ ∀ (file : Text) (ui8SubItems : UInt8)
    (qs : List (Request ui8SubItems)),
    EveryCall SafeCall (PXBReader.openFileRead file ui8SubItems).2 qs := by
  intro all
  obtain ⟨turns, found, r', ends⟩ := (all emptySubItem 9 [fileHeader]).1.ends
  have entered : (PXBReader.openFileRead emptySubItem 9).2.enter =
      .running ⟨⟨[], emptySubItem, 4, 4, true, List.replicate 9 none, List.replicate 9 0⟩, 4, 0⟩ := rfl
  have turned : Outcome.next fileHeader
      (.running ⟨⟨[], emptySubItem, 4, 4, true, List.replicate 9 none, List.replicate 9 0⟩, 4, 0⟩) =
      .running ⟨⟨[], emptySubItem, 4, 4, true, List.replicate 9 none, List.replicate 9 0⟩, 4, 0⟩ := by
    simp [Outcome.next, ItemScan.turn, ItemScan.skip, PXBReader.look, PXBReader.advance, readAt,
      ItemScan.find, List.range_succ, Ident.bytes, ofBE, wrapSub, emptySubItem, fileHeader]
  rw [PXBReader.readNextItem, entered, Function.iterate_fixed turned] at ends
  contradiction

/-- A file with one item of one sub-item, read with two calls. -/
theorem reader_safe_ty : EveryCall SafeCall
    (PXBReader.openFileRead [0, 0, 0, 9, 0, 5, 84, 89, 49] 9).2 [fileHeader] := by
  apply reader_safe
  refine ⟨?_, fun _ _ _ _ => trivial⟩
  intro _ size item
  have nine : itemSize [0, 0, 0, 9, 0, 5, 84, 89, 49] = some 9 := by decide
  have rest : (PXBReader.openFileRead [0, 0, 0, 9, 0, 5, 84, 89, 49] 9).2.rest =
      [0, 0, 0, 9, 0, 5, 84, 89, 49] := by decide
  rw [rest, nine] at item
  obtain rfl := Option.some.inj item
  rw [rest]
  exact ⟨by decide, .subItem (by decide) (by decide) .nil⟩

end FlyHub.Pxb
