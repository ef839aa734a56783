import FlyHub.Lib.BigEndian
import FlyHub.Lib.Block
import FlyHub.Text
import Mathlib.Logic.Function.Iterate

/-!
# PXB files

A PXB file is a row of items, and an item a row of sub-items. Each starts with its
size, a sub-item with an identifier after it. Files are written and read through the
global buffer, a part at a time.
-/

namespace FlyHub.Pxb

open FlyHub.Lib

/-- `PTOKAX_GLOBAL_BUFF_SIZE`. -/
def globalBuffSize : Nat := 131072 * 2

/-- The number of values of a `size_t`, a `uint32_t` and a `uint16_t`. -/
def sizeT : Nat := 18446744073709551616
def uint32T : Nat := 4294967296
def uint16T : Nat := 65536

structure Ident where
  first : UInt8
  second : UInt8
  deriving DecidableEq

def Ident.bytes (i : Ident) : Text := [i.first, i.second]

/-- The data of a sub-item, by its type. -/
inductive Value where
  | byte (some_ : Bool)
  | twoBytes (v : UInt16)
  | fourBytes (v : UInt32)
  | eightBytes (v : UInt64)
  | string (s : Text)

/-- The bytes of the file. -/
def Value.bytes : Value → Text
  | .byte some_ => [if some_ then 49 else 48]
  | .twoBytes v => toBE 2 v.toNat
  | .fourBytes v => toBE 4 v.toNat
  | .eightBytes v => toBE 8 v.toNat
  | .string s => s

structure SubItem where
  ident : Ident
  value : Value
  short : value.bytes.length < 65532

def SubItem.size (s : SubItem) : Nat := s.value.bytes.length + 4

/-- Writing. `buffer` is what was written of the global buffer. -/
structure PXBWriter where
  file : Text
  buffer : Text
  remainingSize : Nat

namespace PXBWriter

def openFileSave : PXBWriter := ⟨[], [], globalBuffSize⟩

def put (w : PXBWriter) (bytes : Text) : PXBWriter :=
  { w with
    buffer := w.buffer ++ bytes
    remainingSize := wrapSub sizeT w.remainingSize bytes.length }

def writeSubItem (w : PXBWriter) (s : SubItem) : PXBWriter :=
  w.put (toBE 2 s.size ++ s.ident.bytes ++ s.value.bytes)

/-- `WriteNextItem`, with the length of the data of the sub-items. -/
def writeNextItem (w : PXBWriter) (ui32Length : Nat) (subItems : List SubItem) : PXBWriter :=
  let itemLength := (ui32Length + 4 + 4 * subItems.length) % uint32T
  let w :=
    if w.remainingSize < itemLength then ⟨w.file ++ w.buffer, [], globalBuffSize⟩ else w
  subItems.foldl writeSubItem (w.put (toBE 4 itemLength))

/-- `WriteRemaining`: the file. -/
def writeRemaining (w : PXBWriter) : Text := w.file ++ w.buffer

end PXBWriter

/-- What a call of `ReadNextItem` looks for: `expected` identifiers, and then extra
ones. There is room for each in the arrays of the reader. -/
structure Request (ui8SubItems : UInt8) where
  idents : List Ident
  expected : Nat
  expected_le : expected ≤ idents.length
  room : idents.length ≤ ui8SubItems.toNat

/-- Reading. `file` is what was not read yet, and `buffer` what was read into the
global buffer. The pointers are offsets there. -/
structure PXBReader where
  file : Text
  buffer : Text
  actualPosition : Nat
  remainingSize : Nat
  fullRead : Bool
  itemDatas : List (Option Nat)
  itemLengths : List Nat

/-- The loop of `ReadNextItem`. -/
structure ItemScan where
  reader : PXBReader
  itemSize : Nat
  actualItem : Nat

/-- How far a call of `ReadNextItem` has come. -/
inductive Outcome where
  | returned (found : Bool) (r : PXBReader)
  | running (s : ItemScan)
  /-- It looks at a byte that was not read. -/
  | outside

namespace PXBReader

/-- `OpenFileRead`. -/
def openFileRead (file : Text) (ui8SubItems : UInt8) : Bool × PXBReader :=
  let r : PXBReader :=
    { file := file
      buffer := []
      actualPosition := 0
      remainingSize := 0
      fullRead := false
      itemDatas := List.replicate ui8SubItems.toNat none
      itemLengths := List.replicate ui8SubItems.toNat 0 }
  if file.length = 0 then (false, r)
  else
    let remaining := min file.length globalBuffSize
    (true,
      { r with
        file := file.drop remaining
        buffer := file.take remaining
        remainingSize := remaining
        fullRead := file.length < globalBuffSize })

/-- The `n` bytes at `off` from the position. -/
def look (r : PXBReader) (off n : Nat) : Option Text := readAt r.buffer (r.actualPosition + off) n

def readNextFilePart (r : PXBReader) : Option PXBReader := do
  let moved ← r.look 0 r.remainingSize
  let room := wrapSub sizeT globalBuffSize r.remainingSize
  let read := r.file.take room
  pure { r with
    file := r.file.drop room
    buffer := moved ++ read
    actualPosition := 0
    remainingSize := r.remainingSize + read.length
    fullRead := r.fullRead || read.length ≠ room }

/-- The call goes on when there are `n` bytes, or are after the next part is read. -/
def ensure (r : PXBReader) (n : Nat) (next : PXBReader → Outcome) : Outcome :=
  if r.remainingSize < n then
    if r.fullRead then .returned false r
    else
      match r.readNextFilePart with
      | none => .outside
      | some r => if r.remainingSize < n then .returned false r else next r
  else next r

/-- The position moves over `n` bytes. -/
def advance (r : PXBReader) (n : Nat) : PXBReader :=
  { r with
    actualPosition := r.actualPosition + n
    remainingSize := wrapSub sizeT r.remainingSize n }

def clear (r : PXBReader) : PXBReader :=
  { r with
    itemDatas := r.itemDatas.map fun _ => none
    itemLengths := r.itemLengths.map fun _ => 0 }

/-- The size of the item is read, and then all of it is there. -/
def enterItem (r : PXBReader) : Outcome :=
  match r.look 0 4 with
  | none => .outside
  | some bytes =>
    r.ensure (ofBE bytes) fun r => .running ⟨r.advance 4, wrapSub uint32T (ofBE bytes) 4, 0⟩

/-- `ReadNextItem` up to its loop. -/
def enter (r : PXBReader) : Outcome :=
  if r.remainingSize = 0 then .returned false r else r.clear.ensure 4 enterItem

end PXBReader

section
variable {ui8SubItems : UInt8} (q : Request ui8SubItems)

namespace ItemScan

/-- The sub-item at the position is the `k`-th. -/
def put (s : ItemScan) (subItemSize k : Nat) : ItemScan :=
  { s with
    reader :=
      { s.reader with
        itemDatas := s.reader.itemDatas.set k (some (s.reader.actualPosition + 4))
        itemLengths := s.reader.itemLengths.set k (wrapSub uint16T subItemSize 4) }
    actualItem := (s.actualItem + 1) % 256 }

/-- The sub-item is looked for: at its place first, then at every place. -/
def find (s : ItemScan) (subItemSize : Nat) (ident : Text) : ItemScan :=
  let is_ (k : Nat) : Bool := q.idents[k]?.map Ident.bytes = some ident
  if is_ s.actualItem then s.put subItemSize s.actualItem
  else (List.range q.idents.length).foldl (fun s k => if is_ k then s.put subItemSize k else s) s

def skip (s : ItemScan) (subItemSize : Nat) : ItemScan :=
  { s with
    reader := s.reader.advance subItemSize
    itemSize := wrapSub uint32T s.itemSize subItemSize }

/-- One turn of the loop. -/
def turn (s : ItemScan) : Outcome :=
  if s.itemSize = 0 then .returned (s.actualItem = q.expected) s.reader
  else
    match s.reader.look 0 2 with
    | none => .outside
    | some bytes =>
      if s.itemSize < ofBE bytes then .returned false s.reader
      else if s.actualItem < q.expected then
        match s.reader.look 2 2 with
        | none => .outside
        | some ident => .running ((s.find q (ofBE bytes) ident).skip (ofBE bytes))
      else .running (s.skip (ofBE bytes))

end ItemScan

def Outcome.next : Outcome → Outcome
  | .running s => s.turn q
  | o => o

/-- `ReadNextItem`, `n` turns of its loop after it was entered. -/
def PXBReader.readNextItem (r : PXBReader) (n : Nat) : Outcome := (Outcome.next q)^[n] r.enter

end

end FlyHub.Pxb
