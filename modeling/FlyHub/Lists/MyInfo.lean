import Mathlib.Data.List.TakeDrop
import Mathlib.Data.List.TakeWhile
import FlyHub.Lib.Segments
import FlyHub.Lists.NickText

/-!
# The MyINFOs

The hub takes the MyINFO of a client apart and puts it together again in two
forms. The long one has all the parts, the short one what the settings leave.
Changes by scripts are left out.
-/

namespace FlyHub.Lists

open FlyHub.Lib

/-- The settings of the MyINFOs. The longest MyINFO is at most 512 bytes long. -/
structure InfoSettings where
  modeToDescription : Bool
  modeToMyInfo : Bool
  stripDescription : Bool
  stripTag : Bool
  stripConnection : Bool
  stripEmail : Bool
  maxMyInfoLen : Nat
  maxMyInfoLen_le : maxMyInfoLen ≤ 512

/-- What is known of a user before its MyINFO. It came from an IPv4 or an IPv6
address; `tls2` is the bit the hub tests. -/
structure InfoOwner where
  sNick : Text
  ipv4 : Bool
  ipv6 : Bool
  tls2 : Bool
  validNick : ValidNick sNick
  hasIp : (ipv4 || ipv6) = true

/-- What is kept of a MyINFO. `mode` is the first byte of `m_sModes`, unless it is zero. -/
structure MyInfo where
  description : Text
  tag : Text
  mode : Option UInt8
  connection : Text
  magicByte : UInt8
  email : Text
  sharedSize : Nat
  deriving DecidableEq

/-- The judgement of a tag. A good one may have a mode, which is a byte of the tag. -/
inductive TagVerdict where
  | bad
  | good (mode : Option Nat)

def isDigit (c : UInt8) : Bool := 48 ≤ c && c ≤ 57

/-- `HaveOnlyNumbers`. -/
def haveOnlyNumbers (s : Text) : Bool := s.all isDigit

/-- The number of a text of digits. -/
def number (s : Text) : Nat := s.foldl (fun n c => 10 * n + (c.toNat - 48)) 0

/-- `ParseShare`: a number that does not fit into 64 bits is refused. -/
def parseShare (s : Text) : Option Nat :=
  if number s < Nat.pow 2 64 then some (number s) else none

/-- The first parts of a text, each closed by a `$`. -/
def closedParts : Nat → Text → List Text
  | 0, _ => []
  | n + 1, s =>
    match s.dropWhile (· ≠ dollar) with
    | [] => []
    | _ :: rest => s.takeWhile (· ≠ dollar) :: closedParts n rest

/-- `strrchr`. -/
def lastIdxOf? (c : UInt8) (s : Text) : Option Nat :=
  (s.reverse.idxOf? c).map fun i => s.length - 1 - i

/-- The description, the tag and the mode in the first part of a MyINFO. -/
def describe (judge : Text → TagVerdict) (part : Text) : Text × Text × Option UInt8 :=
  if part.getLast? = some 62 then
    match lastIdxOf? 60 part with
    | none => (part, [], none)
    | some i =>
      let tag := part.drop i
      match tag.idxOf? blank with
      | none => (part, [], none)
      | some j =>
        if (tag.drop (j + 1)).take 2 = ascii "V:" then
          match judge tag with
          -- `UserSetBadTag` is given the length of the part in one byte
          | .bad => (part.take (part.length % 256), [], none)
          | .good mode => (part.take i, tag, mode.bind (tag[·]?))
        else (part, [], none)
  else (part, [], none)

/-- `UserParseMyInfo`: none for a user that is closed. -/
def parseMyInfo (judge : Text → TagVerdict) (sNick original : Text) : Option MyInfo :=
  if original.length ≤ 14 + sNick.length then none
  else
    match closedParts 5 (original.drop (14 + sNick.length)).dropLast with
    | [part, gap, connection, email, share] =>
      if gap.length ≠ 1 || share.length = 0 || !haveOnlyNumbers share then none
      else
        match connection.getLast?, parseShare share with
        | some magicByte, some sharedSize =>
          let (description, tag, mode) := describe judge part
          some ⟨description, tag, mode, connection.dropLast, magicByte, email, sharedSize⟩
        | _, _ => none
    | _ => none

namespace InfoOwner

variable (o : InfoOwner)

/-- `$MyINFO` in the dispatch of the commands: the length, the nick, and the parts. -/
def takeMyInfo (cfg : InfoSettings) (judge : Text → TagVerdict) (sCommand : Text) : Option MyInfo :=
  if sCommand.length < 22 + o.sNick.length || cfg.maxMyInfoLen < sCommand.length then none
  else if !(o.sNick ++ [blank]).isPrefixOf (sCommand.drop 13) then none
  else parseMyInfo judge o.sNick sCommand

/-- The magic byte with the bits the hub knows better. -/
def magic (magicByte : UInt8) : UInt8 :=
  let m := if o.tls2 then magicByte else magicByte &&& ~~~0x10 &&& ~~~0x20
  let m := if o.ipv4 then m ||| 0x40 else m &&& ~~~0x40
  if o.ipv6 then m ||| 0x80 else m &&& ~~~0x80

end InfoOwner

/-- `%PRIu64`. -/
def decimal (n : Nat) : Text := (Nat.toDigits 10 n).map fun c => UInt8.ofNat c.toNat

/-- A text as `UserSetMyInfoLong` and `UserSetMyInfoShort` keep it: the length is a
number of 16 bits. -/
def setMyInfo (s : Text) : Text := s.take (s.length % 65536)

/-- The parts of a MyINFO between the nick and the closing pipe, put together. -/
def myInfoText (sNick description mode connection : Text) (magic : UInt8) (email : Text)
    (sharedSize : Nat) : Text :=
  ascii "$MyINFO $ALL " ++ sNick ++ [blank] ++ description ++ [dollar] ++ mode ++ [dollar] ++
    connection ++ [magic, dollar] ++ email ++ [dollar] ++ decimal sharedSize ++ [dollar, 124]

namespace InfoOwner

variable (o : InfoOwner)

/-- `GenerateMyInfoLong`. -/
def generateMyInfoLong (info : MyInfo) : Text :=
  setMyInfo (myInfoText o.sNick (info.description ++ info.tag) [blank] info.connection
    (o.magic info.magicByte) info.email info.sharedSize)

/-- What goes before the description of a short MyINFO. The description is looked at
only where it will be stripped. -/
def modePrefix (cfg : InfoSettings) (info : MyInfo) : Text :=
  match info.mode with
  | none => []
  | some mode =>
    if cfg.modeToDescription then
      match (if cfg.stripDescription then info.description else []) with
      | [] => [mode]
      | first :: rest =>
        if first ≠ mode && rest.head? ≠ some blank then [mode, blank] else []
    else []

/-- `GenerateMyInfoShort`. -/
def generateMyInfoShort (cfg : InfoSettings) (info : MyInfo) : Text :=
  let description := if cfg.stripDescription then [] else info.description
  let tag := if cfg.stripTag then [] else info.tag
  let mode := if cfg.modeToMyInfo then info.mode.getD blank else blank
  let connection := if cfg.stripConnection then [] else info.connection
  let email := if cfg.stripEmail then [] else info.email
  setMyInfo (myInfoText o.sNick (modePrefix cfg info ++ description ++ tag) [mode] connection
    (o.magic info.magicByte) email info.sharedSize)

end InfoOwner

/-! ## What the parts can be -/

/-- A stretch of a command between two `$`. A command ends with its only pipe. -/
structure Inner (w : Text) : Prop where
  short : w.length ≤ 512
  noDollar : dollar ∉ w
  noPipe : 124 ∉ w

theorem Inner.sublist {v w : Text} (inner : Inner w) (sub : v.Sublist w) : Inner v where
  short := Nat.le_trans sub.length_le inner.short
  noDollar := fun mem => inner.noDollar (sub.subset mem)
  noPipe := fun mem => inner.noPipe (sub.subset mem)

theorem inner_nil : Inner [] := ⟨by simp, by simp, by simp⟩

theorem closedParts_inner {n : Nat} {s : Text} (short : s.length ≤ 512) (noPipe : 124 ∉ s) :
    ∀ w ∈ closedParts n s, Inner w := by
  induction n generalizing s with
  | zero => simp [closedParts]
  | succ n ih =>
    intro w mem
    rw [closedParts] at mem
    have before : (s.takeWhile (· ≠ dollar)).Sublist s := List.takeWhile_sublist _
    have after : (s.dropWhile (· ≠ dollar)).Sublist s := List.dropWhile_sublist _
    cases closed : s.dropWhile (· ≠ dollar) with
    | nil =>
      rw [closed] at mem
      cases mem
    | cons c rest =>
      rw [closed] at mem after
      cases List.mem_cons.mp mem with
      | inl eq =>
        refine eq ▸ ⟨Nat.le_trans before.length_le short, ?_, fun pipe => noPipe (before.subset pipe)⟩
        intro there
        simpa using List.mem_takeWhile_imp there
      | inr later =>
        have sub : rest.Sublist s := (List.sublist_cons_self c rest).trans after
        exact ih (Nat.le_trans sub.length_le short) (fun pipe => noPipe (sub.subset pipe)) w later

/-- What the description, the tag and the mode are made of. -/
theorem describe_inner (judge : Text → TagVerdict) {part : Text} (inner : Inner part) :
    Inner (describe judge part).1 ∧ Inner (describe judge part).2.1 ∧
      ∀ c ∈ (describe judge part).2.2, c ≠ dollar ∧ c ≠ 124 := by
  have whole : Inner part ∧ Inner [] ∧ ∀ c ∈ (none : Option UInt8), c ≠ dollar ∧ c ≠ 124 :=
    ⟨inner, inner_nil, by simp⟩
  unfold describe
  split
  · cases lastIdxOf? 60 part with
    | none => exact whole
    | some i =>
      dsimp only
      cases (part.drop i).idxOf? blank with
      | none => exact whole
      | some j =>
        dsimp only
        split
        · have tag := inner.sublist (List.drop_sublist i part)
          cases judge (part.drop i) with
          | bad => exact ⟨inner.sublist (List.take_sublist _ part), inner_nil, by simp⟩
          | good mode =>
            refine ⟨inner.sublist (List.take_sublist i part), tag, ?_⟩
            intro c at_
            obtain ⟨k, -, at_⟩ := Option.bind_eq_some_iff.mp at_
            have mem := List.mem_of_getElem? at_
            exact ⟨fun eq => tag.noDollar (eq ▸ mem), fun eq => tag.noPipe (eq ▸ mem)⟩
        · exact whole
  · exact whole

/-- What the parser lets through. -/
structure MyInfo.Fine (info : MyInfo) : Prop where
  description : Inner info.description
  tag : Inner info.tag
  mode : ∀ c ∈ info.mode, c ≠ dollar ∧ c ≠ 124
  connection : Inner info.connection
  email : Inner info.email
  sharedSize : info.sharedSize < Nat.pow 2 64

theorem parseMyInfo_fine {judge : Text → TagVerdict} {sNick original : Text} {info : MyInfo}
    (short : original.length ≤ 512) (onePipe : 124 ∉ original.dropLast)
    (parsed : parseMyInfo judge sNick original = some info) : info.Fine := by
  have sub : (original.drop (14 + sNick.length)).dropLast.Sublist original.dropLast := by
    rw [List.dropLast_drop_eq_drop_dropLast]
    exact List.drop_sublist _ _
  have inner := closedParts_inner (n := 5) (s := (original.drop (14 + sNick.length)).dropLast)
    (Nat.le_trans sub.length_le (Nat.le_trans (List.dropLast_sublist _).length_le short))
    (fun pipe => onePipe (sub.subset pipe))
  unfold parseMyInfo at parsed
  split at parsed
  · cases parsed
  · split at parsed
    · rename_i part gap connection email share eq
      simp only [eq, List.mem_cons, List.not_mem_nil, or_false, forall_eq_or_imp,
        forall_eq] at inner
      obtain ⟨innerPart, -, innerConnection, innerEmail, -⟩ := inner
      split at parsed
      · cases parsed
      · split at parsed
        · rename_i magicByte sharedSize last fits
          obtain ⟨innerDescription, innerTag, mode⟩ := describe_inner judge innerPart
          have fits : sharedSize < Nat.pow 2 64 := by
            rw [parseShare] at fits
            split at fits
            · rename_i lt
              exact Option.some.inj fits ▸ lt
            · cases fits
          cases parsed
          exact ⟨innerDescription, innerTag, mode,
            innerConnection.sublist (List.dropLast_sublist _), innerEmail, fits⟩
        · cases parsed
    · cases parsed

namespace InfoOwner

variable {o : InfoOwner} {cfg : InfoSettings} {judge : Text → TagVerdict} {sCommand : Text}
  {info : MyInfo}

theorem takeMyInfo_fine (onePipe : 124 ∉ sCommand.dropLast)
    (taken : o.takeMyInfo cfg judge sCommand = some info) : info.Fine ∧ o.sNick.length ≤ 512 := by
  unfold takeMyInfo at taken
  split at taken
  · cases taken
  · rename_i length
    simp only [Bool.or_eq_true, decide_eq_true_eq, not_or, Nat.not_lt] at length
    have short := Nat.le_trans length.2 cfg.maxMyInfoLen_le
    split at taken
    · cases taken
    · exact ⟨parseMyInfo_fine short onePipe taken, by omega⟩

end InfoOwner

/-! ## The text of an entry -/

/-- A MyINFO of the list, by the seven stretches that start with a `$`. -/
structure Entry where
  sNick : Text
  description : Text
  mode : UInt8
  connection : Text
  email : Text
  share : Text
  nickClean : blank ∉ sNick ∧ dollar ∉ sNick
  descriptionClean : dollar ∉ description
  modeClean : mode ≠ dollar
  connectionClean : dollar ∉ connection
  emailClean : dollar ∉ email ∧ 124 ∉ email
  shareDigits : ∀ c ∈ share, isDigit c = true

namespace Entry

variable (e : Entry)

/-- The first stretch, which a deletion does not look for, is left out. -/
def pattern : List Text :=
  [ascii "ALL " ++ e.sNick ++ blank :: e.description, [e.mode], e.connection, e.email, e.share, [124]]

def segments : List Text := ascii "MyINFO " :: e.pattern

def text : Text := joined dollar e.segments

end Entry

theorem isDigit_decimal (n : Nat) : ∀ c ∈ decimal n, isDigit c = true := by
  intro c mem
  obtain ⟨d, digit, rfl⟩ := List.mem_map.mp mem
  have range := Nat.isDigit_of_mem_toDigits (by decide) (by decide) digit
  simp only [Char.isDigit, Bool.and_eq_true, decide_eq_true_eq] at range
  have low : 48 ≤ d.toNat := range.1
  have high : d.toNat ≤ 57 := range.2
  simp only [isDigit, Bool.and_eq_true, decide_eq_true_eq, UInt8.le_iff_toNat_le, UInt8.toNat_ofNat']
  have small : d.toNat % 2 ^ 8 = d.toNat := Nat.mod_eq_of_lt (by omega)
  rw [small]
  exact ⟨low, high⟩

theorem decimal_length {n : Nat} (small : n < Nat.pow 2 64) : (decimal n).length ≤ 20 := by
  rw [decimal, List.length_map, Nat.length_toDigits_le_iff (by decide) (by decide)]
  exact Nat.lt_of_lt_of_le small (by decide)

theorem number_append (s : Text) (c : UInt8) :
    number (s ++ [c]) = 10 * number s + (c.toNat - 48) := by
  rw [number, List.foldl_append]
  rfl

theorem decimal_base_le {n : Nat} (le : 10 ≤ n) :
    decimal n = decimal (n / 10) ++ [UInt8.ofNat (n % 10).digitChar.toNat] := by
  rw [decimal, Nat.toDigits_of_base_le (by decide) le, List.map_append]
  rfl

theorem digitChar_value : ∀ d : Fin 10, (UInt8.ofNat d.val.digitChar.toNat).toNat - 48 = d.val := by
  decide

/-- What is printed of a number is read as the number. -/
theorem number_decimal (n : Nat) : number (decimal n) = n := by
  induction n using Nat.strongRecOn with
  | _ n ih =>
    by_cases le : 10 ≤ n
    · have value : (UInt8.ofNat (n % 10).digitChar.toNat).toNat - 48 = n % 10 :=
        digitChar_value ⟨n % 10, by omega⟩
      rw [decimal_base_le le, number_append, ih (n / 10) (by omega), value]
      omega
    · have one : decimal n = [UInt8.ofNat n.digitChar.toNat] := by
        rw [decimal, Nat.toDigits_of_lt_base (by omega)]
        rfl
      have value := digitChar_value ⟨n, by omega⟩
      rw [one, number, List.foldl_cons, List.foldl_nil, Nat.mul_zero, Nat.zero_add, value]

theorem not_digit {s : Text} (digits : ∀ c ∈ s, isDigit c = true) {c : UInt8}
    (other : isDigit c = false) : c ∉ s := by
  intro mem
  rw [digits c mem] at other
  cases other

namespace InfoOwner

variable (o : InfoOwner)

/-- One of the two bits of the addresses is set, so the magic byte is no `$`. -/
theorem magic_ne_dollar (magicByte : UInt8) : o.magic magicByte ≠ dollar := by
  have hasIp := o.hasIp
  have bits : ∀ m : Fin 256, UInt8.ofFin m ||| 0x80 ≠ dollar ∧
      (UInt8.ofFin m ||| 0x40) &&& ~~~0x80 ≠ dollar := by decide +kernel
  unfold magic
  cases h6 : o.ipv6 with
  | true => exact (bits (UInt8.toFin _)).1
  | false =>
    rw [h6, Bool.or_false] at hasIp
    rw [hasIp]
    exact (bits (UInt8.toFin _)).2

theorem inner_append {v w : Text} (hv : Inner v) (hw : Inner w) :
    dollar ∉ v ++ w ∧ (v ++ w).length ≤ 1024 := by
  refine ⟨?_, ?_⟩
  · simp [hv.noDollar, hw.noDollar]
  · have := hv.short
    have := hw.short
    rw [List.length_append]
    omega

/-- No number of 16 bits is too small for the length of the parts put together. -/
theorem setMyInfo_whole {description connection email : Text} {mode magicByte : UInt8}
    {sharedSize : Nat} (nickShort : o.sNick.length ≤ 512) (descriptionShort : description.length ≤ 2048)
    (connects : Inner connection) (mails : Inner email) (small : sharedSize < Nat.pow 2 64) :
    setMyInfo (myInfoText o.sNick description [mode] connection magicByte email sharedSize) =
      myInfoText o.sNick description [mode] connection magicByte email sharedSize := by
  have digits := decimal_length small
  have start : (ascii "$MyINFO $ALL ").length = 13 := rfl
  have := connects.short
  have := mails.short
  rw [setMyInfo, Nat.mod_eq_of_lt, List.take_length]
  simp only [myInfoText, List.length_append, List.length_cons, List.length_nil, start]
  omega

/-- The parts put together make an entry. -/
theorem setMyInfo_entry {description connection email : Text} {mode magicByte : UInt8}
    {sharedSize : Nat} (nickShort : o.sNick.length ≤ 512)
    (describes : dollar ∉ description) (descriptionShort : description.length ≤ 2048)
    (modeClean : mode ≠ dollar) (connects : Inner connection) (mails : Inner email)
    (small : sharedSize < Nat.pow 2 64) :
    ∃ e : Entry, e.sNick = o.sNick ∧
      e.text = setMyInfo (myInfoText o.sNick description [mode] connection (o.magic magicByte)
        email sharedSize) := by
  have connectionClean : dollar ∉ connection ++ [o.magic magicByte] := by
    simp [connects.noDollar, (o.magic_ne_dollar magicByte).symm]
  refine ⟨⟨o.sNick, description, mode, connection ++ [o.magic magicByte], email,
    decimal sharedSize, ⟨fun mem => (o.validNick blank mem).1 rfl, o.validNick.clean⟩, describes,
    modeClean, connectionClean, ⟨mails.noDollar, mails.noPipe⟩, isDigit_decimal _⟩, rfl, ?_⟩
  have first : ascii "$MyINFO $ALL " = dollar :: ascii "MyINFO " ++ dollar :: ascii "ALL " := by
    decide
  rw [o.setMyInfo_whole nickShort descriptionShort connects mails small]
  simp [Entry.text, Entry.segments, Entry.pattern, myInfoText, first]

theorem generateMyInfoLong_entry {info : MyInfo} (fine : info.Fine)
    (nickShort : o.sNick.length ≤ 512) :
    ∃ e : Entry, e.sNick = o.sNick ∧ e.text = o.generateMyInfoLong info := by
  obtain ⟨clean, short⟩ := inner_append fine.description fine.tag
  exact o.setMyInfo_entry nickShort clean (by omega) (by decide) fine.connection fine.email
    fine.sharedSize

theorem modePrefix_inner (cfg : InfoSettings) {info : MyInfo} (fine : info.Fine) :
    Inner (modePrefix cfg info) := by
  unfold modePrefix
  cases mode : info.mode with
  | none => exact inner_nil
  | some c =>
    obtain ⟨noDollar, noPipe⟩ := fine.mode c mode
    have one : Inner [c] := ⟨by simp, by simp [noDollar.symm], by simp [noPipe.symm]⟩
    have gap : dollar ≠ blank := by decide
    have two : Inner [c, blank] :=
      ⟨by simp, by simp [noDollar.symm, gap], by simp [noPipe.symm, blank]⟩
    dsimp only
    split
    · split
      · exact one
      · split
        · exact two
        · exact inner_nil
    · exact inner_nil

theorem generateMyInfoShort_entry {cfg : InfoSettings} {info : MyInfo} (fine : info.Fine)
    (nickShort : o.sNick.length ≤ 512) :
    ∃ e : Entry, e.sNick = o.sNick ∧ e.text = o.generateMyInfoShort cfg info := by
  have kept (strip : Bool) {w : Text} (inner : Inner w) : Inner (if strip then [] else w) := by
    cases strip with
    | true => exact inner_nil
    | false => exact inner
  have description := kept cfg.stripDescription fine.description
  have tag := kept cfg.stripTag fine.tag
  have mode : (if cfg.modeToMyInfo then info.mode.getD blank else blank) ≠ dollar := by
    split
    · cases eq : info.mode with
      | none => decide
      | some c => exact (fine.mode c eq).1
    · decide
  obtain ⟨clean, short⟩ := inner_append (modePrefix_inner cfg fine) description
  refine o.setMyInfo_entry nickShort ?_ ?_ mode (kept _ fine.connection) (kept _ fine.email)
    fine.sharedSize
  · rw [List.mem_append, not_or]
    exact ⟨clean, tag.noDollar⟩
  · have := tag.short
    rw [List.length_append]
    omega

end InfoOwner

end FlyHub.Lists
