import FlyHub.Lists.MyInfo

/-!
# The table of countries

`IpToCountry.csv` has a line for each range of IPv4 addresses, with its first and last address
and the code of its country. The hub loads the lines in the order of the file into three arrays.
A line without a known country leaves its numbers behind for the next one to write over.
-/

namespace FlyHub.Country

open FlyHub.Lists

/-- The codes as they stand in `CountryCodes`. The last one is for an unknown country. -/
def countryCodes : List Text :=
  ["AD", "AE", "AF", "AG", "AI", "AL", "AM", "AO", "AR", "AS", "AT", "AU", "AW", "AX", "AZ",
    "BA", "BB", "BD", "BE", "BF", "BG", "BH", "BI", "BJ", "BL", "BM", "BN", "BO", "BR", "BS",
    "BT", "BV", "BW", "BY", "BZ", "CA", "CC", "CD", "CF", "CG", "CH", "CI", "CK", "CL", "CM",
    "CN", "CO", "CR", "CS", "CU", "CV", "CW", "CX", "CY", "CZ", "DE", "DJ", "DK", "DM", "DO",
    "DZ", "EC", "EE", "EG", "EH", "ER", "ES", "ET", "FI", "FJ", "FK", "FM", "FO", "FR", "GA",
    "GB", "GD", "GE", "GF", "GG", "GH", "GI", "GL", "GM", "GN", "GP", "GQ", "GR", "GS", "GT",
    "GU", "GW", "GY", "HK", "HM", "HN", "HR", "HT", "HU", "ID", "IE", "IL", "IM", "IN", "IO",
    "IQ", "IR", "IS", "IT", "JE", "JM", "JO", "JP", "KE", "KG", "KH", "KI", "KM", "KN", "KP",
    "KR", "KW", "KY", "KZ", "LA", "LB", "LC", "LI", "LK", "LR", "LS", "LT", "LU", "LV", "LY",
    "MA", "MC", "MD", "ME", "MF", "MG", "MH", "MK", "ML", "MM", "MN", "MO", "MP", "MQ", "MR",
    "MS", "MT", "MU", "MV", "MW", "MX", "MY", "MZ", "NA", "NC", "NE", "NF", "NG", "NI", "NL",
    "NO", "NP", "NR", "NU", "NZ", "OM", "PA", "PE", "PF", "PG", "PH", "PK", "PL", "PM", "PN",
    "PR", "PS", "PT", "PW", "PY", "QA", "RE", "RO", "RS", "RU", "RW", "SA", "SB", "SC", "SD",
    "SE", "SG", "SH", "SI", "SJ", "SK", "SL", "SM", "SN", "SO", "SR", "SS", "ST", "SV", "SX",
    "SY", "SZ", "TC", "TD", "TF", "TG", "TH", "TJ", "TK", "TL", "TM", "TN", "TO", "TR", "TT",
    "TV", "TW", "TZ", "UA", "UG", "UM", "US", "UY", "UZ", "VA", "VC", "VE", "VG", "VI", "VN",
    "VU", "WF", "WS", "YE", "YT", "ZA", "ZM", "ZW", "AN", "AP", "LN", "EU", "ZZ", "??"].map ascii

/-- `COUNTRY_COUNT - 1`. -/
def unknownCountry : UInt8 := 253

/-- The arrays of `IpP2Country` for IPv4. -/
structure IpP2Country where
  rangeFrom : List UInt32
  rangeTo : List UInt32
  rangeCI : List UInt8
  count : UInt32

/-- What `SettingManager` and the start of the hub say. -/
structure CountrySettings where
  useIPv4 : Bool
  useIPv6 : Bool

/-- `std::vector::resize`. -/
def resize {α : Type*} (xs : List α) (n : Nat) (value : α) : List α :=
  xs.take n ++ List.replicate (n - xs.length) value

/-- `std::from_chars` for a number of 32 bits. Without digits or with too large a number the old
value stays. -/
def fromChars (sStart : Text) (old : UInt32) : UInt32 :=
  let digits := sStart.takeWhile isDigit
  if digits ≠ [] ∧ number digits < 4294967296 then UInt32.ofNat (number digits) else old

/-- The first known country with the code that a field starts with. -/
def countryIndex (sStart : Text) : Option UInt8 :=
  ((countryCodes.take 253).findIdx? fun code => code = sStart.take 2).map UInt8.ofNat

namespace IpP2Country

def empty : IpP2Country := ⟨[], [], [], 0⟩

variable (t : IpP2Country)

def resizeAll (n : Nat) : IpP2Country :=
  { t with
    rangeFrom := resize t.rangeFrom n 0
    rangeTo := resize t.rangeTo n 0
    rangeCI := resize t.rangeCI n 0 }

def readFrom (sStart : Text) : IpP2Country :=
  { t with rangeFrom := t.rangeFrom.modify t.count.toNat (fromChars sStart) }

def readTo (sStart : Text) : IpP2Country :=
  { t with rangeTo := t.rangeTo.modify t.count.toNat (fromChars sStart) }

def readCountry (sStart : Text) : IpP2Country :=
  match countryIndex sStart with
  | some i => { t with rangeCI := t.rangeCI.set t.count.toNat i, count := t.count + 1 }
  | none => t

/-- The loop over a line. `sStart` is what has been passed of the field `ui8d`, and `skip` is how
many characters are jumped over. -/
def loadFields (t : IpP2Country) (ui8d skip : Nat) (sStart : Text) : Text → IpP2Country
  | [] => t
  | c :: rest =>
    match skip with
    | skip + 1 => loadFields t ui8d skip sStart rest
    | 0 =>
      if c = 34 then
        match ui8d with
        | 0 => loadFields (t.readFrom sStart) 1 2 [] rest
        | 1 => loadFields (t.readTo sStart) 2 2 [] rest
        | 4 => t.readCountry sStart
        | _ => loadFields t (ui8d + 1) 2 [] rest
      else loadFields t ui8d 0 (sStart ++ [c]) rest

def loadLine (sLine : Text) : IpP2Country :=
  if sLine.head? ≠ some 34 then t
  else
    let t :=
      if t.count = UInt32.ofNat t.rangeFrom.length then t.resizeAll (t.rangeFrom.length + 512) else t
    t.loadFields 0 0 [] sLine.tail

/-- `LoadIPv4`. `file` are the lines of the file if it can be opened. -/
def loadIPv4 (cfg : CountrySettings) (file : Option (List Text)) : IpP2Country :=
  if !cfg.useIPv4 then t
  else
    match file with
    | none => t
    | some lines =>
      let t := if t.rangeFrom = [] then t.resizeAll 262144 else t
      let t := lines.foldl loadLine t
      if t.count < UInt32.ofNat t.rangeFrom.length then t.resizeAll t.count.toNat else t

def reload (cfg : CountrySettings) (file : Option (List Text)) : IpP2Country :=
  loadIPv4 { t with count := 0 } cfg file

/-- The constructor loads the first file, and each `Reload` what the file is then. -/
def loaded (cfg : CountrySettings) (earlier : List (Option (List Text)))
    (file : Option (List Text)) : IpP2Country :=
  match earlier with
  | [] => empty.loadIPv4 cfg file
  | first :: reloads => (reloads.foldl (fun t file => t.reload cfg file)
      (empty.loadIPv4 cfg first)).reload cfg file

end IpP2Country

/-! ## Files -/

def IsNumber (s : Text) : Prop := s ≠ [] ∧ (∀ c ∈ s, isDigit c = true) ∧ number s < 4294967296

/-- A line of the file with a range. -/
structure CsvRange where
  sFrom : Text
  sTo : Text
  registry : Text
  assigned : Text
  code : Text
  rest : Text
  isFrom : IsNumber sFrom
  isTo : IsNumber sTo
  le : number sFrom ≤ number sTo
  registryPlain : 34 ∉ registry
  assignedPlain : 34 ∉ assigned
  codePlain : 34 ∉ code
  codeLength : code.length = 2

/-- A line of the file: a comment or a range. -/
inductive CsvLine where
  | comment (text : Text) (plain : text.head? ≠ some 34)
  | range (r : CsvRange)

abbrev CsvFile := List CsvLine

/-- A range of addresses and its country. -/
structure CountryRange where
  rangeFrom : UInt32
  rangeTo : UInt32
  country : UInt8
  deriving DecidableEq

def CountryRange.Covers (r : CountryRange) (ip : UInt32) : Prop := r.rangeFrom ≤ ip ∧ ip ≤ r.rangeTo

def fieldEnd : Text := [34, 44, 34]

namespace CsvRange

variable (r : CsvRange)

def text : Text :=
  34 :: (r.sFrom ++ fieldEnd ++ r.sTo ++ fieldEnd ++ r.registry ++ fieldEnd ++ r.assigned ++
    fieldEnd ++ r.code ++ 34 :: r.rest)

/-- What is loaded of the line, if its country is known. -/
def range? : Option CountryRange :=
  (countryIndex r.code).map fun i =>
    ⟨UInt32.ofNat (number r.sFrom), UInt32.ofNat (number r.sTo), i⟩

end CsvRange

namespace CsvLine

def text : CsvLine → Text
  | comment text _ => text
  | range r => r.text

def range? : CsvLine → Option CountryRange
  | comment .. => none
  | range r => r.range?

end CsvLine

namespace CsvFile

def lines (file : CsvFile) : List Text := file.map CsvLine.text

def ranges (file : CsvFile) : List CountryRange := file.filterMap CsvLine.range?

end CsvFile

/-- The ranges that are loaded from a file. -/
def loadedRanges (cfg : CountrySettings) (file : Option CsvFile) : List CountryRange :=
  if cfg.useIPv4 then (file.map CsvFile.ranges).getD [] else []

section
variable {t t' : IpP2Country} {r : CsvRange} {rs : List CountryRange}

theorem countryIndex_known {sStart : Text} {i : UInt8} (known : countryIndex sStart = some i) :
    i ≠ unknownCountry := by
  obtain ⟨k, found, rfl⟩ := Option.map_eq_some_iff.mp known
  have lt : k < (countryCodes.take 253).length := (List.findIdx?_eq_some_iff_findIdx_eq.mp found).1
  have small : k < 253 := Nat.lt_of_lt_of_le lt (List.length_take_le _ _)
  intro same
  have value := congrArg UInt8.toNat same
  rw [UInt8.toNat_ofNat', Nat.mod_eq_of_lt (by omega)] at value
  exact absurd value (Nat.ne_of_lt small)

theorem toNat_number {s : Text} (isNumber : IsNumber s) :
    (UInt32.ofNat (number s)).toNat = number s := by
  rw [UInt32.toNat_ofNat', Nat.mod_eq_of_lt isNumber.2.2]

theorem range?_spec {line : CsvLine} {range : CountryRange} (loaded : line.range? = some range) :
    range.rangeFrom ≤ range.rangeTo ∧ range.country ≠ unknownCountry := by
  cases line with
  | comment text plain => cases loaded
  | range r =>
    obtain ⟨i, known, rfl⟩ := Option.map_eq_some_iff.mp loaded
    refine ⟨?_, countryIndex_known known⟩
    rw [UInt32.le_iff_toNat_le, toNat_number r.isFrom, toNat_number r.isTo]
    exact r.le

/-- A range that is loaded is not empty, and has a known country. -/
theorem loadedRanges_spec {cfg : CountrySettings} {file : Option CsvFile} :
    ∀ range ∈ loadedRanges cfg file,
      range.rangeFrom ≤ range.rangeTo ∧ range.country ≠ unknownCountry := by
  intro range mem
  unfold loadedRanges at mem
  split at mem
  · cases file with
    | none => cases mem
    | some file =>
      obtain ⟨line, -, loaded⟩ := List.mem_filterMap.mp mem
      exact range?_spec loaded
  · cases mem

/-! ## Arrays -/

section
variable {α : Type*} {xs ys : List α} {f : α → α} {v : α}

@[simp] theorem resize_length (xs : List α) (n : Nat) (v : α) : (resize xs n v).length = n := by
  rw [resize, List.length_append, List.length_take, List.length_replicate]
  omega

theorem starts_resize {n : Nat} (starts : ys <+: xs) (le : ys.length ≤ n) (v : α) :
    ys <+: resize xs n v := by
  apply List.IsPrefix.trans _ (List.prefix_append _ _)
  exact List.prefix_take_iff.mpr ⟨starts, le⟩

/-- What is written behind the first entries comes next. -/
theorem starts_modify {n : Nat} (starts : ys <+: xs) (at_ : n = ys.length) (room : n < xs.length)
    (writes : ∀ old, f old = v) : ys ++ [v] <+: xs.modify n f := by
  subst at_
  rw [List.modify_eq_take_cons_drop room, writes, ← List.prefix_iff_eq_take.mp starts]
  exact ⟨xs.drop (ys.length + 1), by simp⟩

theorem starts_set {n : Nat} (starts : ys <+: xs) (at_ : n = ys.length) (room : n < xs.length)
    (v : α) : ys ++ [v] <+: xs.set n v := by
  subst at_
  rw [List.set_eq_take_append_cons_drop, if_pos room, ← List.prefix_iff_eq_take.mp starts]
  exact ⟨xs.drop (ys.length + 1), by simp⟩

end

namespace IpP2Country

/-- The arrays are of one size, and the count is not beyond it. -/
structure Sized (t : IpP2Country) : Prop where
  rangeTo : t.rangeTo.length = t.rangeFrom.length
  rangeCI : t.rangeCI.length = t.rangeFrom.length
  count : t.count.toNat ≤ t.rangeFrom.length

/-- There is a place for another range. -/
def Room (t : IpP2Country) : Prop := t.count.toNat < t.rangeFrom.length

theorem empty_sized : empty.Sized := ⟨rfl, rfl, Nat.le_refl _⟩

theorem Sized.resizeAll {n : Nat} (le : t.count.toNat ≤ n) : (t.resizeAll n).Sized := by
  constructor <;> simp [IpP2Country.resizeAll, le]

theorem Sized.readFrom (sized : t.Sized) (s : Text) : (t.readFrom s).Sized := by
  constructor <;> simp [IpP2Country.readFrom, sized.rangeTo, sized.rangeCI, sized.count]

theorem Sized.readTo (sized : t.Sized) (s : Text) : (t.readTo s).Sized := by
  constructor <;> simp [IpP2Country.readTo, sized.rangeTo, sized.rangeCI, sized.count]

theorem room_readFrom {s : Text} : (t.readFrom s).Room ↔ t.Room := by
  simp [Room, IpP2Country.readFrom]

theorem room_readTo {s : Text} : (t.readTo s).Room ↔ t.Room := by
  simp [Room, IpP2Country.readTo]

theorem Sized.readCountry (sized : t.Sized) (room : t.Room) (s : Text) :
    (t.readCountry s).Sized := by
  unfold IpP2Country.readCountry
  split
  · refine ⟨sized.rangeTo, by simpa using sized.rangeCI, ?_⟩
    show (t.count + 1).toNat ≤ t.rangeFrom.length
    have le : (t.count + 1).toNat ≤ t.count.toNat + 1 := by
      rw [UInt32.toNat_add]
      exact Nat.mod_le _ _
    exact Nat.le_trans le room
  · exact sized

theorem Sized.loadFields (sized : t.Sized) (room : t.Room) (ui8d skip : Nat) (sStart rest : Text) :
    (t.loadFields ui8d skip sStart rest).Sized := by
  fun_induction IpP2Country.loadFields t ui8d skip sStart rest with
  | case1 t => exact sized
  | case2 t ui8d sStart c rest skip ih => exact ih sized room
  | case3 t sStart rest ih => exact ih (sized.readFrom _) (room_readFrom.mpr room)
  | case4 t sStart rest ih => exact ih (sized.readTo _) (room_readTo.mpr room)
  | case5 t sStart rest => exact sized.readCountry room _
  | case6 => rename_i ih; exact ih sized room
  | case7 => rename_i ih; exact ih sized room

/-- Before a line is loaded there is room for it. -/
def grown (t : IpP2Country) : IpP2Country :=
  if t.count = UInt32.ofNat t.rangeFrom.length then t.resizeAll (t.rangeFrom.length + 512) else t

theorem Sized.grown (sized : t.Sized) : t.grown.Sized ∧ t.grown.Room := by
  unfold IpP2Country.grown
  split
  · refine ⟨.resizeAll (Nat.le_trans sized.count (Nat.le_add_right _ _)), ?_⟩
    show t.count.toNat < (resize t.rangeFrom (t.rangeFrom.length + 512) 0).length
    rw [resize_length]
    have le := sized.count
    omega
  · rename_i differs
    refine ⟨sized, Nat.lt_of_le_of_ne sized.count fun full => differs ?_⟩
    rw [← full, UInt32.ofNat_toNat]

theorem loadLine_eq (t : IpP2Country) {sLine : Text} (quoted : sLine.head? = some 34) :
    t.loadLine sLine = t.grown.loadFields 0 0 [] sLine.tail :=
  if_neg (not_not.mpr quoted)

theorem Sized.loadLine (sized : t.Sized) (sLine : Text) : (t.loadLine sLine).Sized := by
  by_cases quoted : sLine.head? = some 34
  · rw [loadLine_eq t quoted]
    exact sized.grown.1.loadFields sized.grown.2 _ _ _ _
  · rw [IpP2Country.loadLine, if_pos quoted]
    exact sized

/-! ## One line -/

theorem loadFields_plain (t : IpP2Country) (ui8d : Nat) {xs : Text} (plain : 34 ∉ xs)
    (sStart rest : Text) : t.loadFields ui8d 0 sStart (xs ++ rest) =
      t.loadFields ui8d 0 (sStart ++ xs) rest := by
  induction xs generalizing sStart with
  | nil => rw [List.append_nil, List.nil_append]
  | cons c xs ih =>
    rw [List.mem_cons, not_or] at plain
    have other : c ≠ 34 := fun same => plain.1 same.symm
    change (if c = 34 then _ else t.loadFields ui8d 0 (sStart ++ [c]) (xs ++ rest)) = _
    rw [if_neg other, ih plain.2, List.append_assoc]
    rfl

theorem not_quote_of_digits {s : Text} (digits : ∀ c ∈ s, isDigit c = true) : 34 ∉ s :=
  fun mem => absurd (digits 34 mem) (by decide)

/-- What a line with a range does to the table. -/
theorem loadLine_range (t : IpP2Country) (r : CsvRange) :
    t.loadLine r.text = ((t.grown.readFrom r.sFrom).readTo r.sTo).readCountry r.code := by
  have fromPlain := not_quote_of_digits r.isFrom.2.1
  have toPlain := not_quote_of_digits r.isTo.2.1
  rw [loadLine_eq t rfl]
  simp only [CsvRange.text, List.tail_cons, List.append_assoc]
  rw [loadFields_plain _ _ fromPlain, List.nil_append]
  change (t.grown.readFrom r.sFrom).loadFields 1 0 [] (r.sTo ++ _) = _
  rw [loadFields_plain _ _ toPlain, List.nil_append]
  change ((t.grown.readFrom r.sFrom).readTo r.sTo).loadFields 2 0 [] (r.registry ++ _) = _
  rw [loadFields_plain _ _ r.registryPlain]
  change ((t.grown.readFrom r.sFrom).readTo r.sTo).loadFields 3 0 [] (r.assigned ++ _) = _
  rw [loadFields_plain _ _ r.assignedPlain]
  change ((t.grown.readFrom r.sFrom).readTo r.sTo).loadFields 4 0 [] (r.code ++ _) = _
  rw [loadFields_plain _ _ r.codePlain, List.nil_append]
  rfl

theorem loadLine_comment {text : Text} (plain : text.head? ≠ some 34) : t.loadLine text = t :=
  if_pos plain

theorem fromChars_number {s : Text} (isNumber : IsNumber s) (old : UInt32) :
    fromChars s old = UInt32.ofNat (number s) := by
  obtain ⟨some_, digits, small⟩ := isNumber
  have all : s.takeWhile isDigit = s := List.takeWhile_eq_self_iff.mpr digits
  rw [fromChars, all, if_pos ⟨some_, small⟩]

theorem grown_count (t : IpP2Country) : t.grown.count = t.count := by
  unfold grown
  split <;> rfl

/-- The ranges are the first entries of the arrays, as many as the count says. -/
structure Holds (t : IpP2Country) (rs : List CountryRange) : Prop where
  count : t.count.toNat = rs.length
  rangeFrom : rs.map CountryRange.rangeFrom <+: t.rangeFrom
  rangeTo : rs.map CountryRange.rangeTo <+: t.rangeTo
  rangeCI : rs.map CountryRange.country <+: t.rangeCI

theorem Holds.resizeAll {n : Nat} (holds : t.Holds rs) (le : rs.length ≤ n) :
    (t.resizeAll n).Holds rs where
  count := holds.count
  rangeFrom := starts_resize holds.rangeFrom (by rw [List.length_map]; exact le) 0
  rangeTo := starts_resize holds.rangeTo (by rw [List.length_map]; exact le) 0
  rangeCI := starts_resize holds.rangeCI (by rw [List.length_map]; exact le) 0

theorem Holds.grown (sized : t.Sized) (holds : t.Holds rs) : t.grown.Holds rs := by
  unfold IpP2Country.grown
  split
  · apply holds.resizeAll
    rw [← holds.count]
    exact Nat.le_trans sized.count (Nat.le_add_right _ _)
  · exact holds

/-- The count goes up by the ranges of a line, round the numbers of 32 bits. -/
theorem loadLine_count (t : IpP2Country) (line : CsvLine) :
    (t.loadLine line.text).count = t.count + UInt32.ofNat line.range?.toList.length := by
  cases line with
  | comment text plain =>
    rw [CsvLine.text, loadLine_comment plain]
    exact (UInt32.add_zero _).symm
  | range r =>
    rw [CsvLine.text, loadLine_range, readCountry, CsvLine.range?, CsvRange.range?]
    have same : ((t.grown.readFrom r.sFrom).readTo r.sTo).count = t.count := grown_count t
    cases countryIndex r.code with
    | none =>
      simp only [same]
      exact (UInt32.add_zero _).symm
    | some i =>
      simp only [same]
      rfl

theorem Holds.place {α : Type*} (holds : t.Holds rs) (f : CountryRange → α) :
    t.count.toNat = (rs.map f).length := by
  rw [List.length_map, holds.count]

theorem Holds.loadLine (sized : t.Sized) (holds : t.Holds rs) (line : CsvLine)
    (small : rs.length + line.range?.toList.length < 4294967296) :
    (t.loadLine line.text).Holds (rs ++ line.range?.toList) := by
  have count : (t.loadLine line.text).count.toNat = (rs ++ line.range?.toList).length := by
    rw [loadLine_count, UInt32.toNat_add, holds.count, UInt32.toNat_ofNat',
      Nat.mod_eq_of_lt (by omega : line.range?.toList.length < 2 ^ 32), Nat.mod_eq_of_lt small,
      List.length_append]
  cases line with
  | comment text plain =>
    rw [CsvLine.text, loadLine_comment plain, CsvLine.range?, Option.toList_none, List.append_nil]
    exact holds
  | range r =>
    have grown := holds.grown sized
    obtain ⟨sized, room⟩ := sized.grown
    have froms := starts_modify grown.rangeFrom (grown.place _) room (fromChars_number r.isFrom)
    have tos := starts_modify grown.rangeTo (grown.place _) (sized.rangeTo ▸ room)
      (fromChars_number r.isTo)
    cases known : countryIndex r.code with
    | none =>
      rw [CsvLine.text, loadLine_range, readCountry, CsvLine.range?, CsvRange.range?,
        known] at count ⊢
      simp only [Option.map_none, Option.toList_none, List.append_nil] at count ⊢
      exact ⟨count, (List.prefix_append _ _).trans froms, (List.prefix_append _ _).trans tos,
        grown.rangeCI⟩
    | some i =>
      have countries := starts_set grown.rangeCI (grown.place _) (sized.rangeCI ▸ room) i
      rw [CsvLine.text, loadLine_range, readCountry, CsvLine.range?, CsvRange.range?,
        known] at count ⊢
      simp only [Option.map_some, Option.toList_some] at count ⊢
      refine ⟨count, ?_, ?_, ?_⟩
      · rw [List.map_append]
        exact froms
      · rw [List.map_append]
        exact tos
      · rw [List.map_append]
        exact countries

/-! ## The file -/

theorem Sized.loadLines (sized : t.Sized) (lines : List Text) :
    (lines.foldl IpP2Country.loadLine t).Sized := by
  induction lines generalizing t with
  | nil => exact sized
  | cons sLine lines ih => exact ih (sized.loadLine sLine)

theorem ranges_cons (line : CsvLine) (file : CsvFile) :
    CsvFile.ranges (line :: file) = line.range?.toList ++ CsvFile.ranges file := by
  cases found : line.range? <;> simp [CsvFile.ranges, found]

theorem loadLines_count (t : IpP2Country) (file : CsvFile) :
    (file.lines.foldl loadLine t).count = t.count + UInt32.ofNat file.ranges.length := by
  induction file generalizing t with
  | nil => exact (UInt32.add_zero _).symm
  | cons line file ih =>
    have rest := ih (t.loadLine line.text)
    rw [loadLine_count] at rest
    rw [ranges_cons, List.length_append, UInt32.ofNat_add, ← UInt32.add_assoc]
    exact rest

theorem Holds.loadLines (sized : t.Sized) (holds : t.Holds rs) (file : CsvFile)
    (small : rs.length + file.ranges.length < 4294967296) :
    (file.lines.foldl IpP2Country.loadLine t).Holds (rs ++ file.ranges) := by
  induction file generalizing t rs with
  | nil =>
    rw [CsvFile.ranges, List.filterMap_nil, List.append_nil]
    exact holds
  | cons line file ih =>
    rw [ranges_cons, List.length_append] at small
    rw [ranges_cons, ← List.append_assoc]
    apply ih (sized.loadLine line.text) (holds.loadLine sized line (by omega))
    rw [List.length_append]
    omega

/-- Before the first line there is some room. -/
def prepared (t : IpP2Country) : IpP2Country := if t.rangeFrom = [] then t.resizeAll 262144 else t

/-- After the last line the arrays are cut. -/
def trimmed (t : IpP2Country) : IpP2Country :=
  if t.count < UInt32.ofNat t.rangeFrom.length then t.resizeAll t.count.toNat else t

theorem loadIPv4_none (cfg : CountrySettings) (t : IpP2Country) : t.loadIPv4 cfg none = t :=
  ite_id t

theorem loadIPv4_some (cfg : CountrySettings) (t : IpP2Country) (lines : List Text) :
    t.loadIPv4 cfg (some lines) =
      if cfg.useIPv4 then (lines.foldl loadLine t.prepared).trimmed else t := by
  unfold IpP2Country.loadIPv4 prepared trimmed
  cases cfg.useIPv4 <;> rfl

theorem Sized.prepared (sized : t.Sized) : t.prepared.Sized := by
  unfold IpP2Country.prepared
  split
  · rename_i none_
    have le := sized.count
    rw [none_] at le
    exact .resizeAll (Nat.le_trans le (Nat.zero_le _))
  · exact sized

theorem Sized.trimmed (sized : t.Sized) : t.trimmed.Sized := by
  unfold IpP2Country.trimmed
  split
  · exact .resizeAll (Nat.le_refl _)
  · exact sized

theorem Holds.trimmed (holds : t.Holds rs) : t.trimmed.Holds rs := by
  unfold IpP2Country.trimmed
  split
  · exact holds.resizeAll (Nat.le_of_eq holds.count.symm)
  · exact holds

theorem trimmed_count (t : IpP2Country) : t.trimmed.count = t.count := by
  unfold trimmed
  split <;> rfl

theorem prepared_count (t : IpP2Country) : t.prepared.count = t.count := by
  unfold prepared
  split <;> rfl

theorem holds_nil (zero : t.count = 0) : t.Holds [] := by
  refine ⟨?_, List.nil_prefix, List.nil_prefix, List.nil_prefix⟩
  rw [zero]
  rfl

theorem Sized.loadIPv4 (sized : t.Sized) (cfg : CountrySettings) (file : Option (List Text)) :
    (t.loadIPv4 cfg file).Sized := by
  cases file with
  | none =>
    rw [loadIPv4_none]
    exact sized
  | some lines =>
    rw [loadIPv4_some]
    split
    · exact (sized.prepared.loadLines lines).trimmed
    · exact sized

theorem Sized.reload (sized : t.Sized) (cfg : CountrySettings) (file : Option (List Text)) :
    (t.reload cfg file).Sized := by
  have cleared : ({ t with count := 0 } : IpP2Country).Sized :=
    ⟨sized.rangeTo, sized.rangeCI, Nat.zero_le _⟩
  exact cleared.loadIPv4 cfg file

/-- The count that a file leads to. -/
theorem loadIPv4_count (zero : t.count = 0) (cfg : CountrySettings) (file : Option CsvFile) :
    (t.loadIPv4 cfg (file.map CsvFile.lines)).count =
      UInt32.ofNat (loadedRanges cfg file).length := by
  unfold loadedRanges
  cases file with
  | none =>
    rw [Option.map_none, loadIPv4_none, zero]
    split <;> rfl
  | some file =>
    rw [Option.map_some, loadIPv4_some]
    split
    · rw [trimmed_count, loadLines_count, prepared_count, zero, UInt32.zero_add]
      rfl
    · exact zero

/-- The ranges that a file leads to, if they can be counted. -/
theorem loadIPv4_holds (sized : t.Sized) (zero : t.count = 0) (cfg : CountrySettings)
    (file : Option CsvFile) (small : (loadedRanges cfg file).length < 4294967296) :
    (t.loadIPv4 cfg (file.map CsvFile.lines)).Holds (loadedRanges cfg file) := by
  unfold loadedRanges at small ⊢
  cases file with
  | none =>
    rw [Option.map_none, loadIPv4_none]
    split <;> exact holds_nil zero
  | some file =>
    rw [Option.map_some, loadIPv4_some]
    split
    · rename_i on
      rw [if_pos on] at small
      have empty_ : t.prepared.Holds [] := holds_nil ((prepared_count t).trans zero)
      apply Holds.trimmed
      apply empty_.loadLines sized.prepared file
      rw [List.length_nil, Nat.zero_add]
      exact small
    · exact holds_nil zero

/-- Whatever has been loaded, the arrays are of one size when the last file is. -/
theorem loaded_eq (cfg : CountrySettings) (earlier : List (Option (List Text))) :
    ∃ t : IpP2Country, t.Sized ∧ t.count = 0 ∧
      ∀ file, loaded cfg earlier file = t.loadIPv4 cfg file := by
  cases earlier with
  | nil => exact ⟨empty, empty_sized, rfl, fun _ => rfl⟩
  | cons first reloads =>
    let before := reloads.foldl (fun t file => t.reload cfg file) (empty.loadIPv4 cfg first)
    have sized : before.Sized :=
      List.foldlRecOn reloads _ (empty_sized.loadIPv4 cfg first) fun _ sized file _ =>
        sized.reload cfg file
    exact ⟨{ before with count := 0 }, ⟨sized.rangeTo, sized.rangeCI, Nat.zero_le _⟩, rfl,
      fun _ => rfl⟩

end IpP2Country

end

end FlyHub.Country
