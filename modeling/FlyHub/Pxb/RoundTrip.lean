import FlyHub.Pxb.Window

/-!
# What is written is read back

Wherever the writer flushes the buffer, the file is the items one after another. The
reader gets them back as long as none but the last ends exactly where its window does.
-/

namespace FlyHub.Pxb

open FlyHub.Lib

def SubItem.encode (s : SubItem) : Text := toBE 2 s.size ++ s.ident.bytes ++ s.value.bytes

def sizes : List SubItem → Nat
  | [] => 0
  | s :: subItems => s.size + sizes subItems

def dataLength : List SubItem → Nat
  | [] => 0
  | s :: subItems => s.value.bytes.length + dataLength subItems

/-- What is given to `WriteNextItem`, and fits the buffer. -/
structure Item (ui8SubItems : UInt8) where
  subItems : List SubItem
  room : subItems.length ≤ ui8SubItems.toNat
  fits : 4 + sizes subItems ≤ globalBuffSize

namespace Item

section
variable {ui8SubItems : UInt8} (i : Item ui8SubItems)

def size : Nat := 4 + sizes i.subItems

/-- The length of the data, as the callers add it up. -/
def length : Nat := dataLength i.subItems

def encode : Text := toBE 4 i.size ++ i.subItems.flatMap SubItem.encode

/-- A read with the identifiers the item was written with. -/
def request : Request ui8SubItems :=
  ⟨i.subItems.map SubItem.ident, i.subItems.length, by simp, by simpa using i.room⟩

end

end Item

@[simp] theorem SubItem.encode_length (s : SubItem) : s.encode.length = s.size := by
  simp only [encode, size, Ident.bytes, List.length_append, toBE_length, List.length_cons,
    List.length_nil]
  omega

theorem encode_length (subItems : List SubItem) :
    (subItems.flatMap SubItem.encode).length = sizes subItems := by
  induction subItems with
  | nil => rfl
  | cons s subItems ih =>
    rw [List.flatMap_cons, List.length_append, ih, s.encode_length, sizes]

namespace PXBWriter

section
variable {ui8SubItems : UInt8} {w : PXBWriter}

theorem put_written (bytes : Text) : (w.put bytes).writeRemaining = w.writeRemaining ++ bytes := by
  simp [put, writeRemaining]

theorem writeSubItems_written (subItems : List SubItem) :
    (subItems.foldl writeSubItem w).writeRemaining =
      w.writeRemaining ++ subItems.flatMap SubItem.encode := by
  induction subItems generalizing w with
  | nil => simp
  | cons s subItems ih =>
    rw [List.foldl_cons, ih, writeSubItem, put_written, List.flatMap_cons, List.append_assoc]
    rfl

theorem length_add (subItems : List SubItem) :
    dataLength subItems + 4 * subItems.length = sizes subItems := by
  induction subItems with
  | nil => rfl
  | cons s subItems ih =>
    simp only [dataLength, sizes, SubItem.size, List.length_cons]
    omega

/-- Whether the buffer is flushed or not, the item comes next in the file. -/
theorem writeNextItem_written (i : Item ui8SubItems) :
    (w.writeNextItem i.length i.subItems).writeRemaining = w.writeRemaining ++ i.encode := by
  have size : (i.length + 4 + 4 * i.subItems.length) % uint32T = i.size := by
    have all := length_add i.subItems
    have fits := i.fits
    rw [Item.length, Item.size]
    simp only [globalBuffSize, uint32T] at fits ⊢
    omega
  unfold writeNextItem
  dsimp only
  rw [size, writeSubItems_written, put_written, Item.encode, List.append_assoc]
  congr 1
  split
  · simp [writeRemaining]
  · rfl

/-- The file that `items` are saved in. -/
def saved (items : List (Item ui8SubItems)) : Text :=
  (items.foldl (fun w i => w.writeNextItem i.length i.subItems) openFileSave).writeRemaining

theorem saved_eq (items : List (Item ui8SubItems)) : saved items = items.flatMap Item.encode := by
  have all (w : PXBWriter) :
      (items.foldl (fun w i => w.writeNextItem i.length i.subItems) w).writeRemaining =
        w.writeRemaining ++ items.flatMap Item.encode := by
    induction items generalizing w with
    | nil => simp
    | cons i items ih =>
      rw [List.foldl_cons, ih, writeNextItem_written, List.flatMap_cons, List.append_assoc]
  rw [saved, all]
  rfl

end

end PXBWriter

/-- The reader gives `s` as its `k`-th sub-item. -/
def PXBReader.Gives (r : PXBReader) (k : Nat) (s : SubItem) : Prop :=
  ∃ off, r.itemDatas[k]? = some (some off) ∧ r.itemLengths[k]? = some s.value.bytes.length ∧
    readAt r.buffer off s.value.bytes.length = some s.value.bytes

def PXBReader.Returns {ui8SubItems : UInt8} (r : PXBReader) (i : Item ui8SubItems) : Prop :=
  ∀ k s, i.subItems[k]? = some s → r.Gives k s

/-- A request that puts the `k`-th sub-item of `i` at `place k`. -/
structure Request.Places {n ui8SubItems : UInt8} (q : Request n) (i : Item ui8SubItems)
    (place : Nat → Nat) : Prop where
  expected : q.expected = i.subItems.length
  inside : ∀ k < i.subItems.length, place k < n.toNat
  apart : ∀ j < i.subItems.length, ∀ k < i.subItems.length, place j = place k → j = k
  finds : ∀ k sub, i.subItems[k]? = some sub → ∀ s : ItemScan, s.actualItem = k →
    s.find q sub.size sub.ident.bytes = s.put sub.size (place k)

/-- The reader gives the sub-items of `i` at their places, and nothing elsewhere. -/
structure PXBReader.ReturnsAt {ui8SubItems : UInt8} (r : PXBReader) (place : Nat → Nat)
    (i : Item ui8SubItems) : Prop where
  gives : ∀ k s, i.subItems[k]? = some s → r.Gives (place k) s
  others : ∀ p, (∀ k < i.subItems.length, place k ≠ p) → r.itemLengths.getD p 0 = 0

/-- The loop has found the sub-items `done` of an item, and `todo` come next. After
them `left` bytes remain in the buffer and `tail` of the file. -/
structure Found {n ui8SubItems : UInt8} (q : Request n) (place : Nat → Nat)
    (i : Item ui8SubItems) (tail : Text) (left : Nat) (full : Bool) (done todo : List SubItem)
    (s : ItemScan) : Prop where
  valid : s.reader.Valid
  split : i.subItems = done ++ todo
  actual : s.actualItem = done.length
  itemSize : s.itemSize = sizes todo
  rest : s.reader.rest = todo.flatMap SubItem.encode ++ tail
  left : s.reader.remainingSize = s.itemSize + left
  full : s.reader.fullRead = full
  room : s.reader.itemDatas.length = n.toNat
  gives : ∀ k sub, done[k]? = some sub → s.reader.Gives (place k) sub
  others : ∀ p, (∀ k < i.subItems.length, place k ≠ p) → s.reader.itemLengths.getD p 0 = 0

section
variable {n ui8SubItems : UInt8} {q : Request n} {place : Nat → Nat} {i : Item ui8SubItems}
  {tail : Text} {left : Nat} {full : Bool} {done todo : List SubItem} {sub : SubItem} {s : ItemScan}

/-- A read with the identifiers of the item puts its sub-items in their order. -/
theorem Item.places (i : Item ui8SubItems) (same : q.idents = i.subItems.map SubItem.ident)
    (all : q.expected = i.subItems.length) : q.Places i id where
  expected := all
  inside := by
    intro k lt
    have room := q.room
    rw [same, List.length_map] at room
    exact Nat.lt_of_lt_of_le lt room
  apart := fun _ _ _ _ same => same
  finds := by
    intro k sub at_ s actual
    have ident : q.idents[s.actualItem]? = some sub.ident := by
      rw [actual, same]
      simp [at_]
    unfold ItemScan.find
    dsimp only
    rw [if_pos (by simp [ident]), actual]
    rfl

/-- What the reader sees of the sub-item at its position. -/
theorem Found.look (found : Found q place i tail left full done (sub :: todo) s) {off n : Nat}
    (inside : off + n ≤ sub.size) : s.reader.look off n = some ((sub.encode.drop off).take n) := by
  have left_ := found.left
  have itemSize := found.itemSize
  rw [sizes] at itemSize
  have front : s.reader.ahead.take sub.size = sub.encode := by
    rw [found.valid.ahead_take (by omega), found.rest, List.flatMap_cons, List.append_assoc,
      ← sub.encode_length, List.take_left]
  rw [found.valid.look (by omega), ← front, List.drop_take, List.take_take,
    Nat.min_eq_left (by omega)]

theorem Found.look_size (found : Found q place i tail left full done (sub :: todo) s) :
    ∃ bytes, s.reader.look 0 2 = some bytes ∧ ofBE bytes = sub.size := by
  have short := sub.short
  have size : sub.size = sub.value.bytes.length + 4 := rfl
  refine ⟨toBE 2 sub.size, ?_, ofBE_toBE 2 _ (by show _ < 65536; omega)⟩
  rw [found.look (by omega), List.drop_zero, SubItem.encode, List.append_assoc,
    List.take_left' (toBE_length 2 _)]

theorem Found.look_ident (found : Found q place i tail left full done (sub :: todo) s) :
    s.reader.look 2 2 = some sub.ident.bytes := by
  have size : sub.size = sub.value.bytes.length + 4 := rfl
  rw [found.look (by omega), SubItem.encode, List.append_assoc,
    List.drop_left' (toBE_length 2 _)]
  rfl

/-- The next sub-item is found at its place. -/
theorem Found.next (places : q.Places i place)
    (found : Found q place i tail left full done (sub :: todo) s) :
    ∃ s', s.turn q = .running s' ∧ Found q place i tail left full (done ++ [sub]) todo s' := by
  have size : sub.size = sub.value.bytes.length + 4 := rfl
  have short := sub.short
  have valid := found.valid
  have itemSize := found.itemSize
  have left_ := found.left
  have split := found.split
  rw [sizes] at itemSize
  obtain ⟨bytes, look, is_⟩ := found.look_size
  have one : done.length < i.subItems.length := by
    rw [split, List.length_append, List.length_cons]
    omega
  have at_ : i.subItems[done.length]? = some sub := by
    rw [split]
    simp
  have inside := places.inside _ one
  have room := i.room
  have small := ui8SubItems.toNat_lt
  have data : readAt s.reader.buffer (s.reader.actualPosition + 4) sub.value.bytes.length =
      some sub.value.bytes := by
    have all := found.look (by omega : 4 + sub.value.bytes.length ≤ sub.size)
    rw [PXBReader.look] at all
    rw [all, SubItem.encode, List.drop_left' (by simp [Ident.bytes]), List.take_length]
  refine ⟨(s.put sub.size (place done.length)).skip sub.size, ?_, ?_⟩
  · rw [ItemScan.turn, if_neg (by omega), look]
    dsimp only
    rw [is_, if_neg (by omega), if_pos, found.look_ident]
    · dsimp only
      rw [places.finds _ sub at_ s found.actual]
    · rw [found.actual, places.expected]
      exact one
  · have put : (s.put sub.size (place done.length)).reader.Valid := by
      refine ⟨valid.window, valid.fits, valid.full, ?_⟩
      simp [ItemScan.put, valid.arrays]
    have inside' : sub.size ≤ (s.put sub.size (place done.length)).reader.remainingSize := by
      show sub.size ≤ s.reader.remainingSize
      omega
    have less := wrapSub_of_le (m := uint32T) (by omega : sub.size ≤ s.itemSize)
    refine ⟨(put.advance inside').1, by simp [split], ?_, ?_, ?_, ?_, found.full, ?_, ?_, ?_⟩
    · simp only [ItemScan.skip, ItemScan.put, found.actual, List.length_append, List.length_cons,
        List.length_nil]
      omega
    · simp only [ItemScan.skip, ItemScan.put, less]
      omega
    · rw [ItemScan.skip, put.advance_rest inside']
      show s.reader.rest.drop sub.size = _
      rw [found.rest, List.flatMap_cons, List.append_assoc, List.drop_left' sub.encode_length]
    · simp only [ItemScan.skip, ItemScan.put, PXBReader.advance, less]
      rw [wrapSub_of_le (by omega)]
      omega
    · simp [ItemScan.skip, PXBReader.advance, ItemScan.put, found.room]
    · intro k sub' at'
      simp only [ItemScan.skip, PXBReader.advance, ItemScan.put, PXBReader.Gives]
      by_cases here : done.length = k
      · subst here
        simp only [List.getElem?_concat_length, Option.some.injEq] at at'
        subst at'
        have arrays := valid.arrays
        have room := found.room
        refine ⟨_, List.getElem?_set_self (by omega), ?_, data⟩
        rw [List.getElem?_set_self (by omega), wrapSub_of_le (by omega)]
        simp [size]
      · have bound := (List.getElem?_eq_some_iff.mp at').1
        simp only [List.length_append, List.length_cons, List.length_nil] at bound
        have elsewhere : place done.length ≠ place k := fun same =>
          here (places.apart _ one k (by omega) same)
        rw [List.getElem?_set_ne elsewhere, List.getElem?_set_ne elsewhere]
        apply found.gives k sub'
        rw [← at', List.getElem?_append_left (by omega)]
    · intro p elsewhere
      simp only [ItemScan.skip, PXBReader.advance, ItemScan.put, List.getD_eq_getElem?_getD]
      rw [List.getElem?_set_ne (elsewhere _ one), ← List.getD_eq_getElem?_getD]
      exact found.others p elsewhere

/-- The loop returns all sub-items of the item. -/
theorem Found.returns (places : q.Places i place)
    (found : Found q place i tail left full done todo s) :
    ∃ turns r', (Outcome.next q)^[turns] (.running s) = .returned true r' ∧ r'.Valid ∧
      r'.ReturnsAt place i ∧ r'.rest = tail ∧ r'.remainingSize = left ∧ r'.fullRead = full ∧
      r'.itemDatas.length = n.toNat := by
  induction todo generalizing done s with
  | nil =>
    have itemSize := found.itemSize
    have left_ := found.left
    have split := found.split
    have none_ : s.itemSize = 0 := itemSize
    rw [List.append_nil] at split
    refine ⟨1, s.reader, ?_, found.valid, ⟨?_, found.others⟩, found.rest, by omega, found.full,
      found.room⟩
    · show s.turn q = _
      rw [ItemScan.turn, if_pos none_, found.actual, places.expected]
      simp [split]
    · intro k sub at_
      rw [split] at at_
      exact found.gives k sub at_
  | cons sub todo ih =>
    obtain ⟨s', turned, found'⟩ := found.next places
    obtain ⟨turns, r', ends, rest⟩ := ih found'
    refine ⟨turns + 1, r', ?_, rest⟩
    rw [Function.iterate_succ_apply, Outcome.next, turned, ends]

end

/-- Where the window ends: `left` bytes after the position, if the file goes on so long. -/
structure PXBReader.Window (r : PXBReader) (left : Nat) : Prop where
  le : r.remainingSize ≤ left
  eq : r.fullRead = false → r.remainingSize = left

/-- Reading items of these sizes in a window of which `left` bytes are left, no item but
the last ends where the window does. -/
def clearOfEnd : Nat → List Nat → Bool
  | _, [] => true
  | left, size :: sizes =>
    let left := (if size ≤ left then left else globalBuffSize) - size
    (left ≠ 0 || sizes.isEmpty) && clearOfEnd left sizes

/-- How many items are read before one ends where the window does. -/
def readable : Nat → List Nat → Nat
  | _, [] => 0
  | left, size :: sizes =>
    let left := (if size ≤ left then left else globalBuffSize) - size
    if left = 0 then 1 else readable left sizes + 1

theorem readable_le (left : Nat) (sizes : List Nat) : readable left sizes ≤ sizes.length := by
  induction sizes generalizing left with
  | nil => exact Nat.le_refl 0
  | cons size sizes ih =>
    simp only [readable, List.length_cons]
    generalize (if size ≤ left then left else globalBuffSize) - size = left'
    have rest := ih left'
    split <;> omega

/-- The first item is read. -/
theorem readable_cons_ne (left size : Nat) (sizes : List Nat) : readable left (size :: sizes) ≠ 0 := by
  rw [readable]
  generalize (if size ≤ left then left else globalBuffSize) - size = left'
  by_cases last : left' = 0
  · rw [if_pos last]
    exact Nat.one_ne_zero
  · rw [if_neg last]
    exact Nat.succ_ne_zero _

/-- All of them are read if and only if none but the last ends there. -/
theorem readable_eq_iff (left : Nat) (sizes : List Nat) :
    readable left sizes = sizes.length ↔ clearOfEnd left sizes = true := by
  induction sizes generalizing left with
  | nil => exact iff_of_true rfl rfl
  | cons size sizes ih =>
    simp only [readable, clearOfEnd, List.length_cons, Bool.and_eq_true, Bool.or_eq_true,
      decide_eq_true_eq, List.isEmpty_iff]
    have rest := ih ((if size ≤ left then left else globalBuffSize) - size)
    generalize (if size ≤ left then left else globalBuffSize) - size = left' at rest ⊢
    split
    · rename_i none_
      rw [none_]
      cases sizes with
      | nil => simp [clearOfEnd]
      | cons size' sizes => simp
    · rename_i some_
      rw [Nat.add_right_cancel_iff, rest]
      exact ⟨fun clear => ⟨.inl some_, clear⟩, fun both => both.2⟩

/-- One call after another returns the items, and one more returns nothing. -/
def ReadsBack {ui8SubItems : UInt8} : PXBReader → List (Item ui8SubItems) → Prop
  | r, [] => ∀ q : Request ui8SubItems, ∃ turns r', r.readNextItem q turns = .returned false r'
  | r, i :: items => ∃ turns r', r.readNextItem i.request turns = .returned true r' ∧
      r'.Returns i ∧ ReadsBack r' items

section
variable {ui8SubItems : UInt8} {r r₁ r₂ : PXBReader} {left : Nat} {tail : Text}

theorem readNextItem_mono {q : Request ui8SubItems} {m n : Nat} {a : Bool} (le : m ≤ n)
    (returned : r.readNextItem q m = .returned a r₁) : r.readNextItem q n = .returned a r₁ := by
  obtain ⟨k, rfl⟩ := Nat.exists_eq_add_of_le' le
  rw [PXBReader.readNextItem, Function.iterate_add_apply]
  rw [PXBReader.readNextItem] at returned
  rw [returned]
  exact Function.iterate_fixed rfl k

theorem readNextItem_unique {q : Request ui8SubItems} {m n : Nat} {a b : Bool}
    (first : r.readNextItem q m = .returned a r₁) (second : r.readNextItem q n = .returned b r₂) :
    a = b ∧ r₁ = r₂ := by
  have same : Outcome.returned a r₁ = .returned b r₂ := by
    cases Nat.le_total m n with
    | inl le => rw [← readNextItem_mono le first, second]
    | inr le => rw [← readNextItem_mono le second, first]
  exact Outcome.returned.inj same

theorem Item.encode_size (i : Item ui8SubItems) : i.encode.length = i.size := by
  rw [Item.encode, List.length_append, toBE_length, encode_length, Item.size]

theorem item_itemSize (i : Item ui8SubItems) (tail : Text) :
    itemSize (i.encode ++ tail) = some i.size := by
  have fits := i.fits
  have length := i.encode_size
  have header : 4 ≤ i.size := by
    rw [Item.size]
    omega
  have front : (i.encode ++ tail).take 4 = toBE 4 i.size := by
    rw [Item.encode, List.append_assoc, List.take_left' (toBE_length 4 _)]
  have size : ofBE (toBE 4 i.size) = i.size := by
    apply ofBE_toBE
    show i.size < 4294967296
    rw [Item.size]
    simp only [globalBuffSize] at fits
    omega
  rw [itemSize, front, size, if_pos]
  rw [List.length_append, length]
  rw [Item.size] at header ⊢
  omega

/-- An item at the front is returned, and the window moves on. -/
theorem item_returned {n : UInt8} {q : Request n} {place : Nat → Nat} {i : Item ui8SubItems}
    (places : q.Places i place) (valid : r.Valid) (window : r.Window left)
    (room : r.itemDatas.length = n.toNat) (rest : r.rest = i.encode ++ tail)
    (some_ : r.remainingSize ≠ 0) :
    ∃ turns r', r.readNextItem q turns = .returned true r' ∧ r'.ReturnsAt place i ∧ r'.Valid ∧
      r'.Window ((if i.size ≤ left then left else globalBuffSize) - i.size) ∧
      r'.itemDatas.length = n.toNat ∧ r'.rest = tail := by
  have header : 4 ≤ i.size := by
    rw [Item.size]
    omega
  have fits : i.size ≤ globalBuffSize := i.fits
  have le := window.le
  have item : itemSize r.rest = some i.size := by rw [rest, item_itemSize]
  obtain ⟨r₁, entered, valid₁, same, header₁, whole, moved⟩ := valid.enter_item some_ item
  obtain ⟨valid₄, -, remaining₄⟩ := valid₁.advance header₁
  have window₁ : r₁.Window (if i.size ≤ left then left else globalBuffSize) := by
    have fits₁ := valid₁.remaining_fits
    have moved := moved header
    split at moved
    · rw [if_pos (by omega), moved]
      exact ⟨window.le, window.eq⟩
    · have eq := window.eq moved.1
      rw [if_neg (by omega)]
      exact ⟨fits₁, moved.2⟩
  have found : Found q place i tail (r₁.remainingSize - i.size) r₁.fullRead [] i.subItems
      ⟨r₁.advance 4, wrapSub uint32T i.size 4, 0⟩ := by
    have size : i.size = 4 + sizes i.subItems := rfl
    rw [wrapSub_of_le header]
    refine ⟨valid₄, rfl, rfl, ?_, ?_, ?_, rfl, ?_, by simp, ?_⟩
    · dsimp only
      omega
    · dsimp only
      rw [valid₁.advance_rest header₁, same.rest]
      show r.rest.drop 4 = _
      rw [rest, Item.encode, List.append_assoc, List.drop_left' (toBE_length 4 _)]
    · dsimp only
      omega
    · show r₁.itemDatas.length = _
      rw [same.datas]
      simp [PXBReader.clear, room]
    · intro p _
      show r₁.itemLengths.getD p 0 = 0
      have cleared : r₁.itemLengths = r.itemLengths.map fun _ => 0 := same.lengths
      rw [cleared, List.getD_eq_getElem?_getD, List.getElem?_map]
      cases r.itemLengths[p]? <;> rfl
  obtain ⟨turns, r', ends, valid', returns, rest', remaining', full', room'⟩ := found.returns places
  refine ⟨turns, r', ?_, returns, valid', ⟨?_, ?_⟩, room', rest'⟩
  · rw [PXBReader.readNextItem, entered, ends]
  · have le₁ := window₁.le
    omega
  · intro more
    rw [full'] at more
    have eq₁ := window₁.eq more
    omega

theorem PXBReader.Window.ends (window : r.Window left) (valid : r.Valid) (more : r.rest ≠ []) :
    r.remainingSize = 0 ↔ left = 0 := by
  have le := window.le
  cases full : r.fullRead with
  | false => rw [window.eq full]
  | true =>
    have length := valid.ahead_length
    have positive := List.length_pos_iff.mpr more
    rw [PXBReader.rest, valid.full full, List.append_nil] at positive
    omega

/-- Short of the end of the window there is more to read, if the file has more items. -/
theorem PXBReader.Window.goes_on {items : List (Item ui8SubItems)} (window : r.Window left)
    (valid : r.Valid) (rest : r.rest = items.flatMap Item.encode) (more : left ≠ 0) :
    r.remainingSize ≠ 0 ∨ items = [] := by
  cases items with
  | nil => exact .inr rfl
  | cons i items =>
    have some_ : r.rest ≠ [] := by
      rw [rest, ← List.length_pos_iff, List.flatMap_cons, List.length_append, i.encode_size,
        Item.size]
      omega
    exact .inl fun none_ => more ((window.ends valid some_).mp none_)

/-- At the end of the window the reader returns nothing, whatever there is in the file. -/
theorem returned_end (q : Request ui8SubItems) (none_ : r.remainingSize = 0) :
    r.readNextItem q 0 = .returned false r := by
  show r.enter = _
  rw [PXBReader.enter, if_pos none_]

theorem readsBack_start {i : Item ui8SubItems} {items : List (Item ui8SubItems)}
    (back : ReadsBack r (i :: items)) : r.remainingSize ≠ 0 := by
  intro none_
  obtain ⟨turns, r', returned, -⟩ := back
  have same := (readNextItem_unique returned (returned_end i.request none_)).1
  contradiction

/-- The reader gets the items back if and only if it never stops at the end of a window. -/
theorem readsBack_iff (items : List (Item ui8SubItems)) (valid : r.Valid) (window : r.Window left)
    (room : r.itemDatas.length = ui8SubItems.toNat) (rest : r.rest = items.flatMap Item.encode)
    (some_ : r.remainingSize ≠ 0 ∨ items = []) :
    ReadsBack r items ↔ clearOfEnd left (items.map Item.size) = true := by
  induction items generalizing r left with
  | nil =>
    have remaining := valid.remaining_le
    rw [rest] at remaining
    have none_ : r.remainingSize = 0 := by simpa using remaining
    exact ⟨fun _ => rfl, fun _ q => ⟨0, r, returned_end q none_⟩⟩
  | cons i items ih =>
    have start : r.remainingSize ≠ 0 := some_.resolve_right (by simp)
    rw [List.flatMap_cons] at rest
    obtain ⟨turns, r', returned, returns, valid', window', room', rest'⟩ :=
      item_returned (i.places rfl rfl : i.request.Places i id) valid window room rest start
    simp only [List.map_cons, clearOfEnd, Bool.and_eq_true, Bool.or_eq_true, decide_eq_true_eq,
      List.isEmpty_iff, List.map_eq_nil_iff]
    generalize (if i.size ≤ left then left else globalBuffSize) - i.size = left' at window' ⊢
    have next : (r'.remainingSize ≠ 0 ∨ items = []) ↔ (left' ≠ 0 ∨ items = []) := by
      cases items with
      | nil => simp
      | cons j items =>
        have more : r'.rest ≠ [] := by
          rw [rest', ← List.length_pos_iff, List.flatMap_cons, List.length_append, j.encode_size,
            Item.size]
          omega
        rw [Ne, window'.ends valid' more]
    constructor
    · rintro ⟨turns₁, r₁, returned₁, -, back⟩
      obtain rfl := (readNextItem_unique returned returned₁).2
      have some' : r'.remainingSize ≠ 0 ∨ items = [] := by
        cases items with
        | nil => exact .inr rfl
        | cons j items => exact .inl (readsBack_start back)
      exact ⟨next.mp some', (ih valid' window' room' rest' some').mp back⟩
    · rintro ⟨clear, rest⟩
      have some' := next.mpr clear
      exact ⟨turns, r', returned, returns.gives, (ih valid' window' room' rest' some').mpr rest⟩

theorem openFileRead_window (file : Text) (ui8SubItems : UInt8) (some_ : file ≠ []) :
    (PXBReader.openFileRead file ui8SubItems).2.Window globalBuffSize ∧
      (PXBReader.openFileRead file ui8SubItems).2.remainingSize ≠ 0 := by
  have positive := List.length_pos_iff.mpr some_
  have big := PXBReader.lt_globalBuffSize
  rw [PXBReader.openFileRead, if_neg (by omega)]
  refine ⟨⟨?_, fun more => ?_⟩, ?_⟩
  · dsimp only
    omega
  · simp only [decide_eq_false_iff_not] at more
    dsimp only
    omega
  · dsimp only
    omega

theorem openFileRead_rest (file : Text) (ui8SubItems : UInt8) :
    (PXBReader.openFileRead file ui8SubItems).2.rest = file ∧
      (PXBReader.openFileRead file ui8SubItems).2.itemDatas.length = ui8SubItems.toNat := by
  unfold PXBReader.openFileRead
  dsimp only
  split
  · exact ⟨rfl, by simp⟩
  · refine ⟨?_, by simp⟩
    simp only [PXBReader.rest, PXBReader.ahead, List.drop_zero]
    exact List.take_append_drop _ _

theorem saved_readsBack (i : Item ui8SubItems) (items : List (Item ui8SubItems)) :
    ReadsBack (PXBReader.openFileRead (PXBWriter.saved (i :: items)) ui8SubItems).2 (i :: items) ↔
      clearOfEnd globalBuffSize ((i :: items).map Item.size) = true := by
  have valid := openFileRead_valid (PXBWriter.saved (i :: items)) ui8SubItems
  obtain ⟨rest, room⟩ := openFileRead_rest (PXBWriter.saved (i :: items)) ui8SubItems
  rw [PXBWriter.saved_eq] at rest valid room ⊢
  have some_ : (i :: items).flatMap Item.encode ≠ [] := by
    rw [← List.length_pos_iff, List.flatMap_cons, List.length_append, i.encode_size, Item.size]
    omega
  obtain ⟨window, start⟩ := openFileRead_window _ ui8SubItems some_
  exact readsBack_iff _ valid window room rest (.inl start)

/-- What is saved is read back, each item once and in order, if and only if no item but
the last ends exactly where the window of the reader does. -/
theorem round_trip_iff (items : List (Item ui8SubItems)) :
    ReadsBack (PXBReader.openFileRead (PXBWriter.saved items) ui8SubItems).2 items ↔
      clearOfEnd globalBuffSize (items.map Item.size) = true := by
  cases items with
  | nil => exact ⟨fun _ => rfl, fun _ q => ⟨0, _, returned_end q rfl⟩⟩
  | cons i items => exact saved_readsBack i items

end

/-- A sub-item of the greatest length. -/
def longSubItem : SubItem :=
  ⟨⟨78, 73⟩, .string (List.replicate 65531 97), by
    rw [Value.bytes, List.length_replicate]
    decide⟩

theorem longSubItem_size : longSubItem.size = 65535 := by
  have length : longSubItem.value.bytes.length = 65531 := by
    show (List.replicate 65531 (97 : UInt8)).length = 65531
    exact List.length_replicate
  rw [SubItem.size, length]

theorem four_sizes {s : SubItem} (long : s.size = 65535) :
    4 + sizes (List.replicate 4 s) = globalBuffSize := by
  simp [sizes, long, globalBuffSize]

/-- An item that fills the buffer. -/
def fullItem (s : SubItem) (long : s.size = 65535) : Item 4 :=
  ⟨List.replicate 4 s, by simp, Nat.le_of_eq (four_sizes long)⟩

/-- An item after one that fills the buffer is not read. -/
theorem fullItem_hides_next : ¬ ∀ (ui8SubItems : UInt8) (items : List (Item ui8SubItems)),
    ReadsBack (PXBReader.openFileRead (PXBWriter.saved items) ui8SubItems).2 items := by
  intro all
  have size (s : SubItem) (long : s.size = 65535) : (fullItem s long).size = globalBuffSize :=
    four_sizes long
  have clear := (saved_readsBack (fullItem longSubItem longSubItem_size)
    [fullItem longSubItem longSubItem_size]).mp (all 4 _)
  simp [clearOfEnd, size] at clear

end FlyHub.Pxb
