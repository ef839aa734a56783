import FlyHub.Pxb.RoundTrip

/-!
# Files of records

The header of a PXB file says which file it is. After it comes an item for every
record. A record is written with its own identifiers, and read with those of a request,
whose places they may take in another order.
-/

namespace FlyHub.Pxb

open FlyHub.Lib

def ident (first second : Char) : Ident :=
  ⟨UInt8.ofNat first.toNat, UInt8.ofNat second.toNat⟩

def headerIds : List Ident := [ident 'F' 'I', ident 'F' 'V']

/-- The length of a text goes round at 16 bits, and that many of its bytes are written. -/
def textValue (s : Text) : Value := .string (s.take (s.length % uint16T))

/-- None if the size of the sub-item goes round. -/
def subItem (i : Ident) (v : Value) : Option SubItem :=
  if short : v.bytes.length < 65532 then some ⟨i, v, short⟩ else none

def subItems : List Ident → List Value → Option (List SubItem)
  | i :: is, v :: vs => do
    let s ← subItem i v
    let rest ← subItems is vs
    pure (s :: rest)
  | _, _ => some []

/-- None if a sub-item has no size, or the item no room in the buffer. -/
def item (ui8SubItems : UInt8) (ids : List Ident) (values : List Value) :
    Option (Item ui8SubItems) :=
  match subItems ids values with
  | none => none
  | some subs =>
    if h : subs.length ≤ ui8SubItems.toNat ∧ 4 + sizes subs ≤ globalBuffSize then
      some ⟨subs, h.1, h.2⟩
    else none

/-- The header of a file: which one it is, and its version. -/
def headerValues (name : Text) : List Value := [.string name, .fourBytes 1]

/-- How the records of a file are written. -/
structure RecordFile (α : Type) where
  name : Text
  ui8SubItems : UInt8
  idents : α → List Ident
  values : α → List Value

namespace RecordFile

variable {α : Type} (f : RecordFile α)

/-- The items of a file, its header before them. -/
def items (rows : List α) : Option (List (Item f.ui8SubItems)) := do
  let header ← item f.ui8SubItems headerIds (headerValues f.name)
  let items ← rows.mapM fun a => item f.ui8SubItems (f.idents a) (f.values a)
  pure (header :: items)

/-- The file with these records. -/
def save (rows : List α) : Option Text := (f.items rows).map PXBWriter.saved

end RecordFile

/-- How a load can fail: it ends the program, it looks at bytes that were not found, or
it needs more turns than it was given. -/
inductive Failure where
  | exits
  | outside
  | turns
  deriving DecidableEq

section
variable (r : PXBReader)

/-- `m_ui16ItemLengths`. -/
def itemLength (k : Nat) : Nat := r.itemLengths.getD k 0

/-- The first `n` bytes at `m_pItemDatas`. -/
def itemData (k n : Nat) : Except Failure Text :=
  match r.itemDatas[k]? with
  | some (some off) =>
    match readAt r.buffer off n with
    | some bytes => .ok bytes
    | none => .error .outside
  | _ => .error .outside

/-- A text that is cut after `most` bytes. -/
def readText (k most : Nat) : Except Failure Text :=
  if itemLength r k = 0 then pure [] else itemData r k (min (itemLength r k) most)

end

/-- `ReadNextItem`, of which `turns` turns are run. -/
def readNext {ui8SubItems : UInt8} (q : Pxb.Request ui8SubItems) (turns : Nat) (r : PXBReader) :
    Except Failure (Bool × PXBReader) :=
  match r.readNextItem q turns with
  | .returned found r => .ok (found, r)
  | .running _ => .error .turns
  | .outside => .error .outside

def headerRequest (ui8SubItems : UInt8) (room : headerIds.length ≤ ui8SubItems.toNat) :
    Pxb.Request ui8SubItems :=
  ⟨headerIds, 2, Nat.le_refl 2, room⟩

/-- "Check header if we have correct file". -/
def isHeader (name : Text) (r : PXBReader) : Except Failure Bool :=
  if itemLength r 0 ≠ name.length then pure false
  else do
    let bytes ← itemData r 0 name.length
    if bytes ≠ name then pure false
    else do
      let version ← itemData r 1 4
      pure (1 ≤ ofBE version)

section
variable {σ : Type} {ui8SubItems : UInt8}

/-- The loop over the items of a file. -/
def readItems (q : Pxb.Request ui8SubItems) (take : σ → PXBReader → Except Failure σ) :
    Nat → σ → PXBReader → Except Failure σ
  | 0, _, _ => throw .turns
  | turns + 1, m, r => do
    let (found, r) ← readNext q turns r
    if found then do
      let m ← take m r
      readItems q take turns m r
    else pure m

/-- One file. The second component is whether it has the right header. -/
def readFile (room : headerIds.length ≤ ui8SubItems.toNat) (name : Text)
    (q : Pxb.Request ui8SubItems) (take : σ → PXBReader → Except Failure σ) (turns : Nat)
    (file : Text) (m : σ) : Except Failure (σ × Bool) :=
  let (opened, r) := PXBReader.openFileRead file ui8SubItems
  if !opened then pure (m, false)
  else do
    let (found, r) ← readNext (headerRequest ui8SubItems room) turns r
    if !found then pure (m, false)
    else do
      let ours ← isHeader name r
      if !ours then pure (m, false)
      else do
        let m ← readItems q take turns m r
        pure (m, true)

end

section
variable {σ τ : Type} {ui8SubItems : UInt8} (q : Pxb.Request ui8SubItems)
  {take : σ → PXBReader → Except Failure σ} {take' : τ → PXBReader → Except Failure τ} {φ : σ → τ}

/-- Where the steps of one state go over into those of another, the loops do. -/
theorem readItems_map (over_ : ∀ m r, take' (φ m) r = (take m r).map φ) (turns : Nat) (m : σ)
    (r : PXBReader) :
    readItems q take' turns (φ m) r = (readItems q take turns m r).map φ := by
  induction turns generalizing m r with
  | zero => rfl
  | succ turns ih =>
    unfold readItems
    cases readNext q turns r with
    | error failure => rfl
    | ok next =>
      obtain ⟨found, r'⟩ := next
      rw [ok_bind, ok_bind]
      dsimp only
      split
      · rw [over_]
        cases take m r' with
        | error failure => rfl
        | ok m' => exact ih m' r'
      · rfl

theorem readFile_map (over_ : ∀ m r, take' (φ m) r = (take m r).map φ)
    (room : headerIds.length ≤ ui8SubItems.toNat) (name : Text) (turns : Nat) (file : Text) (m : σ) :
    readFile room name q take' turns file (φ m) =
      (readFile room name q take turns file m).map (Prod.map φ id) := by
  unfold readFile
  dsimp only
  split
  · rfl
  · cases readNext (headerRequest ui8SubItems room) turns (PXBReader.openFileRead file ui8SubItems).2 with
    | error failure => rfl
    | ok next =>
      obtain ⟨found, r'⟩ := next
      rw [ok_bind, ok_bind]
      dsimp only
      split
      · rfl
      · cases isHeader name r' with
        | error failure => rfl
        | ok ours =>
          rw [ok_bind, ok_bind]
          split
          · rfl
          · rw [readItems_map q over_]
            cases readItems q take turns m r' with
            | error failure => rfl
            | ok m' => rfl

end

/-! ## What is written -/

/-- The item was made from these values. -/
structure Encodes {ui8SubItems : UInt8} (ids : List Ident) (values : List Value)
    (i : Item ui8SubItems) : Prop where
  idents : i.subItems.map SubItem.ident = ids
  values : i.subItems.map SubItem.value = values

/-- The bytes of the values, with the headers of their sub-items. -/
def dataSize : List Value → Nat
  | [] => 0
  | v :: vs => v.bytes.length + 4 + dataSize vs

/-- The values fit an item. -/
structure Fits (values : List Value) : Prop where
  short : ∀ v ∈ values, v.bytes.length < 65532
  room : 4 + dataSize values ≤ globalBuffSize

section
variable {ids : List Ident} {values : List Value} {ui8SubItems : UInt8} {i : Item ui8SubItems}

theorem subItem_some {id : Ident} {v : Value} {s : SubItem} (made : subItem id v = some s) :
    s.ident = id ∧ s.value = v := by
  unfold subItem at made
  split at made
  · cases made
    exact ⟨rfl, rfl⟩
  · cases made

theorem subItems_values (same : ids.length = values.length) {subs : List SubItem}
    (made : subItems ids values = some subs) :
    subs.map SubItem.ident = ids ∧ subs.map SubItem.value = values := by
  induction ids generalizing values subs with
  | nil =>
    obtain rfl := List.length_eq_zero_iff.mp same.symm
    cases made
    exact ⟨rfl, rfl⟩
  | cons id ids ih =>
    cases values with
    | nil => cases same
    | cons v values =>
      obtain ⟨s, one, made⟩ := Option.bind_eq_some_iff.mp made
      obtain ⟨rest, later, made⟩ := Option.bind_eq_some_iff.mp made
      cases made
      obtain ⟨idents, values'⟩ := ih (Nat.succ.inj same) later
      obtain ⟨ident, value⟩ := subItem_some one
      simp [ident, value, idents, values']

theorem subItems_some (same : ids.length = values.length)
    (short : ∀ v ∈ values, v.bytes.length < 65532) : ∃ subs, subItems ids values = some subs := by
  induction ids generalizing values with
  | nil => exact ⟨[], rfl⟩
  | cons id ids ih =>
    cases values with
    | nil => cases same
    | cons v values =>
      obtain ⟨subs, made⟩ :=
        ih (Nat.succ.inj same) (fun v mem => short v (List.mem_cons_of_mem _ mem))
      have one : subItem id v = some ⟨id, v, short v (by simp)⟩ := dif_pos _
      exact ⟨⟨id, v, short v (by simp)⟩ :: subs, by simp [subItems, one, made]⟩

theorem sizes_eq (subs : List SubItem) : sizes subs = dataSize (subs.map SubItem.value) := by
  induction subs with
  | nil => rfl
  | cons s subs ih => rw [sizes, List.map_cons, dataSize, ih, SubItem.size]

theorem Encodes.size (encodes : Encodes ids values i) : i.size = 4 + dataSize values := by
  rw [Item.size, sizes_eq, encodes.values]

theorem Encodes.fits (encodes : Encodes ids values i) : Fits values := by
  refine ⟨?_, ?_⟩
  · intro v mem
    rw [← encodes.values] at mem
    obtain ⟨s, -, rfl⟩ := List.mem_map.mp mem
    exact s.short
  · rw [← encodes.size]
    exact i.fits

theorem item_encodes (same : ids.length = values.length)
    (made : item ui8SubItems ids values = some i) : Encodes ids values i := by
  unfold item at made
  split at made
  · cases made
  · rename_i subs eq
    split at made
    · cases made
      obtain ⟨idents, values'⟩ := subItems_values same eq
      exact ⟨idents, values'⟩
    · cases made

theorem item_some (same : ids.length = values.length) (places : ids.length ≤ ui8SubItems.toNat)
    (fits : Fits values) : ∃ i, item ui8SubItems ids values = some i := by
  obtain ⟨subs, made⟩ := subItems_some same fits.short
  obtain ⟨idents, values'⟩ := subItems_values same made
  have length : subs.length = ids.length := by rw [← idents, List.length_map]
  have room : subs.length ≤ ui8SubItems.toNat ∧ 4 + sizes subs ≤ globalBuffSize := by
    rw [length, sizes_eq, values']
    exact ⟨places, fits.room⟩
  refine ⟨⟨subs, room.1, room.2⟩, ?_⟩
  rw [item, made]
  exact dif_pos room

/-- A read with the identifiers of the item finds the values in their order. -/
theorem Encodes.places (encodes : Encodes ids values i) {n : UInt8} {q : Request n}
    (same : q.idents = ids) (all : q.expected = ids.length) : q.Places i id := by
  refine i.places (same.trans encodes.idents.symm) ?_
  rw [all, ← encodes.idents, List.length_map]

end

namespace RecordFile

variable {α : Type} {f : RecordFile α} {rows : List α}

/-- The file has an identifier for every value, and room for all of them. -/
structure Proper (f : RecordFile α) : Prop where
  name : f.name.length < 65532
  header : headerIds.length ≤ f.ui8SubItems.toNat
  same : ∀ a, (f.idents a).length = (f.values a).length
  room : ∀ a, (f.idents a).length ≤ f.ui8SubItems.toNat

/-- The sizes of the items. -/
def itemSizes (f : RecordFile α) (rows : List α) : List Nat :=
  (4 + dataSize (headerValues f.name)) :: rows.map fun a => 4 + dataSize (f.values a)

/-- The items of a file are those of its records. -/
structure Made (f : RecordFile α) (rows : List α) (header : Item f.ui8SubItems)
    (items : List (Item f.ui8SubItems)) : Prop where
  header : Encodes headerIds (headerValues f.name) header
  rows : List.Forall₂ (fun i a => Encodes (f.idents a) (f.values a) i) items rows

theorem Made.sizes {header : Item f.ui8SubItems} {items : List (Item f.ui8SubItems)}
    (made : f.Made rows header items) : (header :: items).map Item.size = f.itemSizes rows := by
  obtain ⟨first, encodes⟩ := made
  rw [List.map_cons, first.size, itemSizes]
  congr 1
  induction encodes with
  | nil => rfl
  | cons one _ ih => rw [List.map_cons, List.map_cons, one.size, ih]

theorem header_fits (short : f.name.length < 65532) : Fits (headerValues f.name) := by
  have four : (Value.fourBytes 1).bytes.length = 4 := toBE_length 4 _
  have length : (Value.string f.name).bytes.length = f.name.length := rfl
  constructor
  · intro v mem
    rcases List.mem_cons.mp mem with rfl | mem
    · exact short
    · rw [List.mem_singleton] at mem
      rw [mem, four]
      decide
  · rw [headerValues, dataSize, dataSize, dataSize, four, length]
    simp only [globalBuffSize]
    omega

theorem mapM_made (same : ∀ a, (f.idents a).length = (f.values a).length)
    {items : List (Item f.ui8SubItems)}
    (made : rows.mapM (fun a => item f.ui8SubItems (f.idents a) (f.values a)) = some items) :
    List.Forall₂ (fun i a => Encodes (f.idents a) (f.values a) i) items rows := by
  induction rows generalizing items with
  | nil =>
    cases made
    exact .nil
  | cons a rows ih =>
    rw [List.mapM_cons] at made
    obtain ⟨i, one, made⟩ := Option.bind_eq_some_iff.mp made
    obtain ⟨rest, later, made⟩ := Option.bind_eq_some_iff.mp made
    cases made
    exact .cons (item_encodes (same a) one) (ih later)

theorem mapM_some (proper : f.Proper) (fits : ∀ a ∈ rows, Fits (f.values a)) :
    ∃ items, rows.mapM (fun a => item f.ui8SubItems (f.idents a) (f.values a)) = some items := by
  induction rows with
  | nil => exact ⟨[], rfl⟩
  | cons a rows ih =>
    obtain ⟨items, made⟩ := ih fun a mem => fits a (List.mem_cons_of_mem _ mem)
    obtain ⟨i, one⟩ := item_some (proper.same a) (proper.room a) (fits a (by simp))
    refine ⟨i :: items, ?_⟩
    rw [List.mapM_cons, one, made]
    rfl

/-- What is saved is the items of the records. -/
theorem save_made (proper : f.Proper) {file : Text} (saved : f.save rows = some file) :
    ∃ header items, file = PXBWriter.saved (header :: items) ∧ f.Made rows header items := by
  obtain ⟨all, made, rfl⟩ := Option.map_eq_some_iff.mp saved
  obtain ⟨header, one, made⟩ := Option.bind_eq_some_iff.mp made
  obtain ⟨items, later, made⟩ := Option.bind_eq_some_iff.mp made
  cases made
  exact ⟨header, items, rfl, item_encodes rfl one, mapM_made proper.same later⟩

theorem save_some (proper : f.Proper) (fits : ∀ a ∈ rows, Fits (f.values a)) :
    ∃ file, f.save rows = some file := by
  obtain ⟨header, one⟩ := @item_some headerIds _ _ rfl proper.header (header_fits proper.name)
  obtain ⟨items, made⟩ := mapM_some proper fits
  have all : f.items rows = some (header :: items) := by
    rw [RecordFile.items, one, made]
    rfl
  exact ⟨_, by rw [save, all, Option.map_some]⟩

/-- What has been saved fits. -/
theorem save_fits (proper : f.Proper) {file : Text} (saved : f.save rows = some file) :
    ∀ a ∈ rows, Fits (f.values a) := by
  obtain ⟨header, items, -, -, encodes⟩ := save_made proper saved
  clear saved
  induction encodes with
  | nil => simp
  | cons one _ ih =>
    intro a mem
    cases List.mem_cons.mp mem with
    | inl eq => exact eq ▸ one.fits
    | inr later => exact ih a later

end RecordFile

/-! ## What is read -/

/-- The reader gives these values in their order. -/
def Holds (r : PXBReader) (values : List Value) : Prop :=
  ∀ k v, values[k]? = some v →
    itemLength r k = v.bytes.length ∧ itemData r k v.bytes.length = .ok v.bytes

/-- The reader gives these values at their places, and nothing elsewhere. -/
structure HoldsAt (r : PXBReader) (place : Nat → Nat) (values : List Value) : Prop where
  gives : ∀ k v, values[k]? = some v →
    itemLength r (place k) = v.bytes.length ∧ itemData r (place k) v.bytes.length = .ok v.bytes
  others : ∀ p, (∀ k < values.length, place k ≠ p) → itemLength r p = 0

section
variable {r : PXBReader} {values : List Value} {k : Nat}

theorem HoldsAt.holds (holds : HoldsAt r id values) : Holds r values := holds.gives

theorem returns_holds {ui8SubItems : UInt8} {ids : List Ident} {i : Item ui8SubItems}
    {place : Nat → Nat} (returns : r.ReturnsAt place i) (encodes : Encodes ids values i) :
    HoldsAt r place values := by
  constructor
  · intro k v at_
    rw [← encodes.values, List.getElem?_map, Option.map_eq_some_iff] at at_
    obtain ⟨s, at_, rfl⟩ := at_
    obtain ⟨off, data, length, bytes⟩ := returns.gives k s at_
    constructor
    · rw [itemLength, List.getD_eq_getElem?_getD, length, Option.getD_some]
    · rw [itemData, data]
      dsimp only
      rw [bytes]
  · intro p elsewhere
    rw [← encodes.values, List.length_map] at elsewhere
    exact returns.others p elsewhere

theorem textValue_bytes {s : Text} (short : s.length < uint16T) : (textValue s).bytes = s := by
  rw [textValue, Value.bytes, Nat.mod_eq_of_lt short, List.take_length]

theorem textValue_length (s : Text) : (textValue s).bytes.length ≤ s.length :=
  (List.take_sublist _ _).length_le

theorem Holds.text (holds : Holds r values) {s : Text} (at_ : values[k]? = some (textValue s))
    (short : s.length < uint16T) :
    itemLength r k = s.length ∧ itemData r k s.length = .ok s := by
  have given := holds k _ at_
  rwa [textValue_bytes short] at given

theorem Holds.readText (holds : Holds r values) {s : Text} {most : Nat}
    (at_ : values[k]? = some (textValue s)) (le : s.length ≤ most) (small : most < uint16T) :
    readText r k most = .ok s := by
  obtain ⟨length, data⟩ := holds.text at_ (Nat.lt_of_le_of_lt le small)
  rw [Pxb.readText, length]
  split
  · rename_i none_
    rw [List.length_eq_zero_iff.mp none_]
    rfl
  · rw [Nat.min_eq_left le, data]

theorem isHeader_holds {name : Text} (holds : Holds r (headerValues name)) :
    isHeader name r = .ok true := by
  obtain ⟨length, data⟩ := holds 0 (.string name) rfl
  have version : itemData r 1 4 = .ok (toBE 4 1) := (holds 1 (.fourBytes 1) rfl).2
  have name' : itemData r 0 name.length = .ok name := data
  have one : ofBE (toBE 4 1) = 1 := ofBE_toBE 4 1 (by decide)
  rw [isHeader, if_neg (by rw [length]; simp [Value.bytes]), name', ok_bind, if_neg (by simp),
    version, ok_bind, one]
  rfl

end

section
variable {α σ : Type} {f : RecordFile α} {rows : List α} {n : UInt8} {q : Request n}
  {place : α → Nat → Nat} {take : σ → PXBReader → Except Failure σ} {step : σ → α → σ}
  {r : PXBReader} {left : Nat}

theorem readNext_returned {turns m : Nat} {found : Bool} {r' : PXBReader}
    (returned : r.readNextItem q turns = .returned found r') (le : turns ≤ m) :
    readNext q m r = .ok (found, r') := by
  rw [readNext, readNextItem_mono le returned]

/-- Where nothing is left in the window, the loop ends. -/
theorem readItems_end (none_ : r.remainingSize = 0) {turns : Nat} (le : 1 ≤ turns) (m : σ) :
    readItems q take turns m r = .ok m := by
  obtain ⟨k, rfl⟩ := Nat.exists_eq_add_of_le' le
  rw [readItems, readNext_returned (returned_end q none_) (Nat.zero_le _)]
  rfl

/-- How a record is read: its request puts its values at their places, and what is taken
of them is a step of the state. -/
structure Reads (f : RecordFile α) (q : Request n) (place : α → Nat → Nat)
    (take : σ → PXBReader → Except Failure σ) (step : σ → α → σ) (rows : List α) : Prop where
  asks : ∀ a ∈ rows, ∀ i : Item f.ui8SubItems, Encodes (f.idents a) (f.values a) i →
    q.Places i (place a)
  takes : ∀ m r, ∀ a ∈ rows, HoldsAt r (place a) (f.values a) → take m r = .ok (step m a)

/-- The loop takes the rows one after another, up to one that ends where the window does. -/
theorem readItems_reads {items : List (Item f.ui8SubItems)}
    (encodes : List.Forall₂ (fun i a => Encodes (f.idents a) (f.values a) i) items rows)
    (reads : Reads f q place take step rows) (valid : r.Valid) (window : r.Window left)
    (room : r.itemDatas.length = n.toNat) (rest : r.rest = items.flatMap Item.encode)
    (some_ : r.remainingSize ≠ 0 ∨ items = []) (m : σ) :
    ∃ least, ∀ turns, least ≤ turns → readItems q take turns m r =
      .ok ((rows.take (readable left (items.map Item.size))).foldl step m) := by
  induction encodes generalizing r left m with
  | nil =>
    have remaining := valid.remaining_le
    rw [rest] at remaining
    have none_ : r.remainingSize = 0 := by simpa using remaining
    exact ⟨1, fun turns le => by rw [readItems_end none_ le]; rfl⟩
  | @cons i a items rows one encodes ih =>
    have start : r.remainingSize ≠ 0 := some_.resolve_right (by simp)
    rw [List.flatMap_cons] at rest
    obtain ⟨turns, r', returned, returns, valid', window', room', rest'⟩ :=
      item_returned (reads.asks a (by simp) i one) valid window room rest start
    have taken := reads.takes m r' a (by simp) (returns_holds returns one)
    have reads' : Reads f q place take step rows :=
      ⟨fun a mem => reads.asks a (List.mem_cons_of_mem _ mem),
        fun m r a mem => reads.takes m r a (List.mem_cons_of_mem _ mem)⟩
    rw [List.map_cons, readable]
    generalize (if i.size ≤ left then left else globalBuffSize) - i.size = left' at window' ⊢
    by_cases last : left' = 0
    · have none_ : r'.remainingSize = 0 := by
        have le := window'.le
        omega
      rw [if_pos last]
      refine ⟨max turns 1 + 1, fun m' le => ?_⟩
      obtain ⟨k, rfl⟩ := Nat.exists_eq_add_of_le' (Nat.le_of_add_left_le le)
      rw [readItems, readNext_returned returned (by omega), ok_bind]
      dsimp only
      rw [if_pos rfl, taken, ok_bind, readItems_end none_ (by omega)]
      rfl
    · obtain ⟨least, later⟩ :=
        ih reads' valid' window' room' rest' (window'.goes_on valid' rest' last) (step m a)
      rw [if_neg last]
      refine ⟨max turns least + 1, fun m' le => ?_⟩
      obtain ⟨k, rfl⟩ := Nat.exists_eq_add_of_le' (Nat.le_of_add_left_le le)
      rw [readItems, readNext_returned returned (by omega), ok_bind]
      dsimp only
      rw [if_pos rfl, taken, ok_bind, later k (by omega), List.take_succ_cons, List.foldl_cons]

/-- What is read of a file that was saved: its records, up to one that ends where the
window of the reader does. -/
theorem readFile_reads (proper : f.Proper) (room : headerIds.length ≤ n.toNat) {file : Text}
    (saved : f.save rows = some file) (reads : Reads f q place take step rows) (m : σ) :
    ∃ least, ∀ turns, least ≤ turns → readFile room f.name q take turns file m =
      .ok ((rows.take (readable globalBuffSize (f.itemSizes rows) - 1)).foldl step m, true) := by
  obtain ⟨header, items, rfl, made⟩ := RecordFile.save_made proper saved
  rw [← made.sizes]
  obtain ⟨first, encodes⟩ := made
  have valid := openFileRead_valid (PXBWriter.saved (header :: items)) n
  obtain ⟨rest, places⟩ := openFileRead_rest (PXBWriter.saved (header :: items)) n
  have some_ : PXBWriter.saved (header :: items) ≠ [] := by
    rw [PXBWriter.saved_eq, ← List.length_pos_iff, List.flatMap_cons, List.length_append,
      header.encode_size, Item.size]
    omega
  obtain ⟨window, start⟩ := openFileRead_window _ n some_
  have opened : (PXBReader.openFileRead (PXBWriter.saved (header :: items)) n).1 = true := by
    have positive := List.length_pos_iff.mpr some_
    rw [PXBReader.openFileRead, if_neg (by omega)]
  rw [PXBWriter.saved_eq, List.flatMap_cons] at rest
  rw [PXBWriter.saved_eq] at valid places window start opened
  rw [PXBWriter.saved_eq]
  obtain ⟨turns, r', returned, returns, valid', window', room', rest'⟩ :=
    item_returned (first.places (q := headerRequest n room) rfl rfl) valid window places rest start
  have read : isHeader f.name r' = .ok true := isHeader_holds (returns_holds returns first).holds
  have loop : ∃ least, ∀ turns, least ≤ turns → readItems q take turns m r' =
      .ok ((rows.take (readable globalBuffSize ((header :: items).map Item.size) - 1)).foldl step m) := by
    rw [List.map_cons, readable]
    generalize (if header.size ≤ globalBuffSize then globalBuffSize else globalBuffSize) -
      header.size = left' at window' ⊢
    by_cases last : left' = 0
    · have none_ : r'.remainingSize = 0 := by
        have le := window'.le
        omega
      rw [if_pos last]
      exact ⟨1, fun turns le => readItems_end none_ le m⟩
    · rw [if_neg last, Nat.add_sub_cancel]
      exact readItems_reads encodes reads valid' window' room' rest'
        (window'.goes_on valid' rest' last) m
  obtain ⟨least, loop⟩ := loop
  refine ⟨max turns least, fun m' le => ?_⟩
  unfold readFile
  dsimp only
  rw [opened, readNext_returned returned (by omega), ok_bind]
  dsimp only
  rw [read, ok_bind, loop m' (by omega)]
  rfl

/-- A file no item of which ends where the window does gives all its records. -/
theorem readFile_back (proper : f.Proper) (room : headerIds.length ≤ n.toNat) {file : Text}
    (saved : f.save rows = some file) (reads : Reads f q place take step rows)
    (clear : clearOfEnd globalBuffSize (f.itemSizes rows) = true) (m : σ) :
    ∃ least, ∀ turns, least ≤ turns → readFile room f.name q take turns file m =
      .ok (rows.foldl step m, true) := by
  have all := (readable_eq_iff globalBuffSize (f.itemSizes rows)).mpr clear
  have length : (f.itemSizes rows).length = rows.length + 1 := by simp [RecordFile.itemSizes]
  obtain ⟨least, read⟩ := readFile_reads proper room saved reads m
  rw [all, length, Nat.add_sub_cancel, List.take_length] at read
  exact ⟨least, read⟩

end

end FlyHub.Pxb
