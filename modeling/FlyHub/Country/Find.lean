import FlyHub.Connection.ProxyGuard
import FlyHub.Country.Load
import FlyHub.Lib.Search
import Mathlib.Data.List.Perm.Subperm
import Mathlib.Data.List.Range

/-!
# The country of an address

The country is looked up by the IPv4 address that is in an address: behind the prefix of a mapped
one, in the middle of a 6to4 one, inverted at the end of a Teredo one. The search takes it for
granted that the ranges are sorted, but they are in the order of the file.
-/

namespace FlyHub.Country

open FlyHub.Connection FlyHub.Lib FlyHub.Lists

/-- `CountryNames` and `CountryNamesRussian`, and if `SETTXT_LANGUAGE` is "Russian". -/
structure NameTables where
  countryNames : Vector Text 254
  countryNamesRussian : Vector Text 254
  russian : Bool

def translateCountry (names : NameTables) (p_index : Nat) : Text :=
  if inside : p_index < 254 then
    if names.russian then names.countryNamesRussian[p_index] else names.countryNames[p_index]
  else ascii "Error country index"

def getCountry (names : NameTables) (ui8dx : UInt8) (bCountryName : Bool) : Text :=
  if !bCountryName then countryCodes.getD ui8dx.toNat [] else translateCountry names ui8dx.toNat

/-- The bytes times `IP_BYTE3_SHIFT`, `IP_BYTE2_SHIFT` and `IP_BYTE1_SHIFT`. -/
def ipValue (a b c d : UInt8) : UInt32 :=
  16777216 * a.toUInt32 + 65536 * b.toUInt32 + 256 * c.toUInt32 + d.toUInt32

/-- `ui32IpHash`, if `bIPv4` is set. -/
def ui32IpHash (cfg : CountrySettings) (h : Vector UInt8 16) : Option UInt32 :=
  if !cfg.useIPv6 || isV4Mapped h then some (ipValue h[12] h[13] h[14] h[15])
  else if h[0] = 32 && h[1] = 2 then some (ipValue h[2] h[3] h[4] h[5])
  else if h[0] = 32 && h[1] = 1 && h[2] = 0 && h[3] = 0 then
    some (ipValue h[12] h[13] h[14] h[15] ^^^ 0xffffffff)
  else none

namespace IpP2Country

variable (cfg : CountrySettings) (t : IpP2Country)

/-- The search in the ranges of IPv4 addresses. -/
def search (ip : UInt32) : Option UInt8 :=
  match searchUpper (fun i => (t.rangeFrom.getD i 0).toNat) ip.toNat 0 t.count.toNat with
  | 0 => none
  | idx + 1 => if t.rangeTo.getD idx 0 ≥ ip then some (t.rangeCI.getD idx 0) else none

/-- What both of `Find` look up. Ranges of IPv6 addresses are not compiled in. -/
def lookup (h : Vector UInt8 16) : Option UInt8 :=
  match ui32IpHash cfg h with
  | some ip => t.search ip
  | none => none

/-- `Find` for an index. -/
def find (h : Vector UInt8 16) : UInt8 :=
  match t.lookup cfg h with
  | some i => i
  | none => unknownCountry

/-- `Find` for a code or a name. -/
def findText (names : NameTables) (h : Vector UInt8 16) (bCountryName : Bool) : Text :=
  match t.lookup cfg h with
  | some i =>
    if !bCountryName then countryCodes.getD i.toNat [] else translateCountry names i.toNat
  | none => if !bCountryName then countryCodes.getD 253 [] else translateCountry names 253

end IpP2Country

/-! ## What is to be found -/

/-- The number in the four bytes from the one at `k`. -/
def bytesAt (h : Vector UInt8 16) (k : Nat) : UInt32 :=
  UInt32.ofNat (ofBE ((h.toList.drop k).take 4))

/-- The IPv4 address in an address. -/
def embeddedIPv4 (h : Vector UInt8 16) : Option UInt32 :=
  if isV4Mapped h then some (bytesAt h 12)
  else if h.toList.take 2 = [32, 2] then some (bytesAt h 2)
  else if h.toList.take 4 = [32, 1, 0, 0] then some (~~~bytesAt h 12)
  else none

/-- The answers for an address are those of a list of ranges. -/
structure Answers (cfg : CountrySettings) (names : NameTables) (t : IpP2Country)
    (rs : List CountryRange) (h : Vector UInt8 16) : Prop where
  inside : ∀ ip, embeddedIPv4 h = some ip → ∀ r ∈ rs, r.Covers ip → t.find cfg h = r.country
  outside : (∀ ip, embeddedIPv4 h = some ip → ∀ r ∈ rs, ¬ r.Covers ip) →
    t.find cfg h = unknownCountry
  same : ∀ bCountryName,
    t.findText cfg names h bCountryName = getCountry names (t.find cfg h) bCountryName

/-- After all that has been loaded the answers are those of the last file, for all addresses. A
hub without IPv6 knows mapped ones only. -/
def CountriesFound (cfg : CountrySettings) (names : NameTables)
    (earlier : List (Option (List Text))) (file : Option CsvFile) : Prop :=
  ∀ h : Vector UInt8 16, (cfg.useIPv6 = false → isV4Mapped h = true) →
    Answers cfg names (.loaded cfg earlier (file.map CsvFile.lines)) (loadedRanges cfg file) h

/-- No address is in two of the ranges. -/
def RangesDisjoint (rs : List CountryRange) : Prop :=
  rs.Pairwise fun r s => ∀ ip, r.Covers ip → ¬ s.Covers ip

section
variable {cfg : CountrySettings} {t : IpP2Country} {rs : List CountryRange} {ip : UInt32}
  {h : Vector UInt8 16} {i j : Nat}

/-! ## Addresses -/

theorem ipValue_eq (a b c d : UInt8) : ipValue a b c d = UInt32.ofNat (ofBE [a, b, c, d]) := by
  have ha := a.toNat_lt
  have hb := b.toNat_lt
  have hc := c.toNat_lt
  have hd := d.toNat_lt
  apply UInt32.toNat_inj.mp
  simp [ipValue, ofBE]
  omega

theorem four_bytes (h : Vector UInt8 16) {k : Nat} (fits : k + 3 < 16) :
    (h.toList.drop k).take 4 = [h[k], h[k + 1], h[k + 2], h[k + 3]] := by
  have length : h.toList.length = 16 := Vector.length_toList
  rw [List.drop_eq_getElem_cons (by omega), List.drop_eq_getElem_cons (by omega),
    List.drop_eq_getElem_cons (by omega), List.drop_eq_getElem_cons (by omega)]
  simp only [Vector.getElem_toList]
  rfl

theorem bytesAt_eq (h : Vector UInt8 16) {k : Nat} (fits : k + 3 < 16) :
    bytesAt h k = ipValue h[k] h[k + 1] h[k + 2] h[k + 3] := by
  rw [bytesAt, four_bytes h fits, ipValue_eq]

theorem starts_two (h : Vector UInt8 16) (a b : UInt8) :
    h.toList.take 2 = [a, b] ↔ h[0] = a ∧ h[1] = b := by
  have four := congrArg (List.take 2) (four_bytes h (k := 0) (by decide))
  rw [List.drop_zero, List.take_take] at four
  change h.toList.take 2 = [h[0], h[1]] at four
  rw [four]
  simp

theorem starts_four (h : Vector UInt8 16) (a b c d : UInt8) :
    h.toList.take 4 = [a, b, c, d] ↔ h[0] = a ∧ h[1] = b ∧ h[2] = c ∧ h[3] = d := by
  have four := four_bytes h (k := 0) (by decide)
  rw [List.drop_zero] at four
  rw [four]
  simp

/-- The hub finds the IPv4 address in each address that it can have. -/
theorem ui32IpHash_eq (known : cfg.useIPv6 = false → isV4Mapped h = true) :
    ui32IpHash cfg h = embeddedIPv4 h := by
  unfold ui32IpHash embeddedIPv4
  have condition : (!cfg.useIPv6 || isV4Mapped h) = isV4Mapped h := by
    cases on : cfg.useIPv6 with
    | true => rfl
    | false => rw [known on, Bool.or_true]
  rw [condition]
  simp only [starts_two, starts_four, Bool.and_eq_true, decide_eq_true_eq, and_assoc]
  rw [bytesAt_eq h (k := 12) (by decide), bytesAt_eq h (k := 2) (by decide)]
  have inverse : ∀ x : UInt32, x ^^^ 0xffffffff = ~~~x := fun x => UInt32.xor_neg_one
  rw [inverse]

/-- Each IPv4 address is in a mapped one. -/
theorem exists_mapped (ip : UInt32) : ∃ h, isV4Mapped h = true ∧ embeddedIPv4 h = some ip := by
  have four : toBE 4 ip.toNat = [UInt8.ofNat (ip.toNat / 256 / 256 / 256),
      UInt8.ofNat (ip.toNat / 256 / 256), UInt8.ofNat (ip.toNat / 256), UInt8.ofNat ip.toNat] := rfl
  refine ⟨⟨#[0, 0, 0, 0, 0, 0, 0, 0, 0, 0, 255, 255, UInt8.ofNat (ip.toNat / 256 / 256 / 256),
    UInt8.ofNat (ip.toNat / 256 / 256), UInt8.ofNat (ip.toNat / 256), UInt8.ofNat ip.toNat], rfl⟩,
    rfl, ?_⟩
  change some (UInt32.ofNat (ofBE [_, _, _, _])) = _
  rw [← four, ofBE_toBE 4 _ ip.toNat_lt, UInt32.ofNat_toNat]

/-! ## The search -/

theorem RangesDisjoint.eq (disjoint : RangesDisjoint rs) {r s : CountryRange}
    (at_ : rs[i]? = some r) (at' : rs[j]? = some s) (covers : r.Covers ip) (covers' : s.Covers ip) :
    i = j := by
  obtain ⟨lt, rfl⟩ := List.getElem?_eq_some_iff.mp at_
  obtain ⟨lt', rfl⟩ := List.getElem?_eq_some_iff.mp at'
  have apart := List.pairwise_iff_getElem.mp disjoint
  rcases Nat.lt_trichotomy i j with before | same | after
  · exact absurd covers' (apart i j lt lt' before ip covers)
  · exact same
  · exact absurd covers (apart j i lt' lt after ip covers')

theorem starts_getD {α : Type*} {f : CountryRange → α} {xs : List α} {r : CountryRange}
    (starts : rs.map f <+: xs) (at_ : rs[i]? = some r) (other : α) : xs.getD i other = f r := by
  obtain ⟨rest, rfl⟩ := starts
  obtain ⟨lt, -⟩ := List.getElem?_eq_some_iff.mp at_
  rw [List.getD_eq_getElem?_getD, List.getElem?_append_left (by rw [List.length_map]; exact lt),
    List.getElem?_map, at_]
  rfl

namespace IpP2Country

theorem search_eq (t : IpP2Country) (ip : UInt32) {idx : Nat}
    (ends : searchUpper (fun i => (t.rangeFrom.getD i 0).toNat) ip.toNat 0 t.count.toNat =
      idx + 1) :
    t.search ip = if t.rangeTo.getD idx 0 ≥ ip then some (t.rangeCI.getD idx 0) else none := by
  rw [search, ends]

/-- A range that is found covers the address. -/
theorem search_covers (holds : t.Holds rs) {country : UInt8} (found : t.search ip = some country) :
    ∃ r idx, rs[idx]? = some r ∧ r.Covers ip ∧ r.country = country ∧
      searchUpper (fun i => (t.rangeFrom.getD i 0).toNat) ip.toNat 0 t.count.toNat = idx + 1 := by
  have bounds := (searchUpper_bounds (fun i => (t.rangeFrom.getD i 0).toNat) ip.toNat 0
    t.count.toNat).2
  cases ends : searchUpper (fun i => (t.rangeFrom.getD i 0).toNat) ip.toNat 0 t.count.toNat with
  | zero =>
    rw [search, ends] at found
    cases found
  | succ idx =>
    rw [ends, Nat.zero_add, holds.count] at bounds
    have at_ : rs[idx]? = some rs[idx] := List.getElem?_eq_getElem bounds
    rw [search_eq t ip ends] at found
    split at found
    · rename_i reaches
      have starts := le_of_searchUpper ends (Nat.zero_le idx)
      rw [starts_getD holds.rangeFrom at_] at starts
      rw [starts_getD holds.rangeTo at_] at reaches
      rw [starts_getD holds.rangeCI at_] at found
      exact ⟨rs[idx], idx, at_, ⟨UInt32.le_iff_toNat_le.mpr starts, reaches⟩,
        Option.some.inj found, rfl⟩
    · cases found

/-- In sorted ranges the search finds the one that covers the address. -/
theorem search_sorted (holds : t.Holds rs) (disjoint : RangesDisjoint rs)
    (ranges : ∀ r ∈ rs, r.rangeFrom ≤ r.rangeTo)
    (sorted : rs.Pairwise fun r s => r.rangeFrom ≤ s.rangeFrom) {r : CountryRange} (mem : r ∈ rs)
    (covers : r.Covers ip) : t.search ip = some r.country := by
  obtain ⟨k, lt, rfl⟩ := List.mem_iff_getElem.mp mem
  have at_ : rs[k]? = some rs[k] := List.getElem?_eq_getElem lt
  have values : ∀ j (lt : j < rs.length), (t.rangeFrom.getD j 0).toNat = rs[j].rangeFrom.toNat :=
    fun j lt => by rw [starts_getD holds.rangeFrom (List.getElem?_eq_getElem lt)]
  have ends : searchUpper (fun i => (t.rangeFrom.getD i 0).toNat) ip.toNat 0 t.count.toNat =
      k + 1 := by
    apply searchUpper_eq (Nat.zero_le _)
    · rw [holds.count, Nat.zero_add]
      exact lt
    · intro j _ early
      have le : rs[j].rangeFrom ≤ rs[k].rangeFrom := by
        rcases Nat.lt_succ_iff_lt_or_eq.mp early with before | rfl
        · exact List.pairwise_iff_getElem.mp sorted j k (before.trans lt) lt before
        · exact UInt32.le_refl _
      rw [values j (Nat.lt_of_lt_of_le early lt)]
      exact UInt32.le_iff_toNat_le.mp (UInt32.le_trans le covers.1)
    · intro j late inside
      rw [holds.count, Nat.zero_add] at inside
      rw [values j inside]
      by_contra starts
      have reached : rs[j].rangeFrom ≤ ip := UInt32.le_iff_toNat_le.mpr (not_lt.mp starts)
      have after := List.pairwise_iff_getElem.mp sorted k j lt inside late
      -- the range behind would start in the one that covers the address
      have same := disjoint.eq at_ (List.getElem?_eq_getElem inside)
        ⟨after, UInt32.le_trans reached covers.2⟩
        ⟨UInt32.le_refl _, ranges _ (List.getElem_mem inside)⟩
      omega
  rw [search_eq t ip ends, starts_getD holds.rangeTo at_, starts_getD holds.rangeCI at_,
    if_pos covers.2]

/-- Ranges are sorted if the search finds something where each of them starts. -/
theorem sorted_of_search (holds : t.Holds rs) (disjoint : RangesDisjoint rs)
    (ranges : ∀ r ∈ rs, r.rangeFrom ≤ r.rangeTo)
    (found : ∀ r ∈ rs, t.search r.rangeFrom ≠ none) :
    rs.Pairwise fun r s => r.rangeFrom ≤ s.rangeFrom := by
  have values : ∀ j (lt : j < rs.length), (t.rangeFrom.getD j 0).toNat = rs[j].rangeFrom.toNat :=
    fun j lt => by rw [starts_getD holds.rangeFrom (List.getElem?_eq_getElem lt)]
  have sorted := sorted_of_searchUpper (fun i => (t.rangeFrom.getD i 0).toNat) 0 t.count.toNat
    fun k _ inside => ?_
  · rw [List.pairwise_iff_getElem]
    intro i j lt lt' before
    rw [UInt32.le_iff_toNat_le, ← values i lt, ← values j lt']
    exact sorted i j (Nat.zero_le i) before (by rw [holds.count, Nat.zero_add]; exact lt')
  · rw [holds.count, Nat.zero_add] at inside
    rw [values k inside]
    obtain ⟨country, some_⟩ := Option.ne_none_iff_exists'.mp
      (found _ (List.getElem_mem inside))
    obtain ⟨r, idx, at_, covers, -, ends⟩ := search_covers holds some_
    have itself : rs[k].Covers rs[k].rangeFrom :=
      ⟨UInt32.le_refl _, ranges _ (List.getElem_mem inside)⟩
    rw [ends, disjoint.eq at_ (List.getElem?_eq_getElem inside) covers itself]

end IpP2Country

/-! ## The answers -/

theorem length_le_of_nodup {xs : List Nat} {n : Nat} (nodup : xs.Nodup) (bound : ∀ x ∈ xs, x < n) :
    xs.length ≤ n := by
  have sub : xs ⊆ List.range n := fun x mem => List.mem_range.mpr (bound x mem)
  have le := (nodup.subperm sub).length_le
  rw [List.length_range] at le
  exact le

/-- There are no more disjoint ranges than addresses. -/
theorem RangesDisjoint.length_le (disjoint : RangesDisjoint rs)
    (ranges : ∀ r ∈ rs, r.rangeFrom ≤ r.rangeTo) : rs.length ≤ 4294967296 := by
  have nodup : (rs.map fun r => r.rangeFrom.toNat).Nodup := by
    rw [List.Nodup, List.pairwise_map]
    refine List.Pairwise.imp_of_mem ?_ disjoint
    intro r s memr mems apart same
    have equal : r.rangeFrom = s.rangeFrom := UInt32.toNat_inj.mp same
    apply apart r.rangeFrom ⟨UInt32.le_refl _, ranges r memr⟩
    rw [equal]
    exact ⟨UInt32.le_refl _, ranges s mems⟩
  have le := length_le_of_nodup nodup (n := 4294967296) fun x mem => ?_
  · rw [List.length_map] at le
    exact le
  · obtain ⟨r, -, rfl⟩ := List.mem_map.mp mem
    exact r.rangeFrom.toNat_lt

namespace IpP2Country

theorem search_empty (zero : t.count = 0) (ip : UInt32) : t.search ip = none := by
  have ends : searchUpper (fun i => (t.rangeFrom.getD i 0).toNat) ip.toNat 0 t.count.toNat = 0 := by
    rw [zero, searchUpper]
    exact if_pos rfl
  rw [search, ends]

theorem find_eq (known : cfg.useIPv6 = false → isV4Mapped h = true) :
    t.find cfg h = ((embeddedIPv4 h).bind t.search).getD unknownCountry := by
  unfold find lookup
  rw [ui32IpHash_eq known]
  cases embeddedIPv4 h with
  | none => rfl
  | some ip =>
    rw [Option.bind_some]
    dsimp only
    cases t.search ip <;> rfl

/-- Both of `Find` agree. -/
theorem findText_eq (cfg : CountrySettings) (names : NameTables) (t : IpP2Country)
    (h : Vector UInt8 16) (bCountryName : Bool) :
    t.findText cfg names h bCountryName = getCountry names (t.find cfg h) bCountryName := by
  unfold findText find getCountry
  cases t.lookup cfg h <;> rfl

theorem answers_of_sorted {names : NameTables} (holds : t.Holds rs) (disjoint : RangesDisjoint rs)
    (ranges : ∀ r ∈ rs, r.rangeFrom ≤ r.rangeTo)
    (sorted : rs.Pairwise fun r s => r.rangeFrom ≤ s.rangeFrom)
    (known : cfg.useIPv6 = false → isV4Mapped h = true) : Answers cfg names t rs h where
  inside ip embedded r mem covers := by
    rw [find_eq known, embedded, Option.bind_some,
      search_sorted holds disjoint ranges sorted mem covers]
    rfl
  outside none_ := by
    rw [find_eq known]
    cases embedded : embeddedIPv4 h with
    | none => rfl
    | some ip =>
      rw [Option.bind_some]
      cases found : t.search ip with
      | none => rfl
      | some country =>
        obtain ⟨r, idx, at_, covers, -⟩ := search_covers holds found
        exact absurd covers (none_ ip embedded r (List.mem_of_getElem? at_))
  same := findText_eq cfg names t h

end IpP2Country

section
variable {names : NameTables} {earlier : List (Option (List Text))} {file : Option CsvFile}

/-- The search finds something where a range starts if the answers are right. -/
theorem search_ne_none (answers : CountriesFound cfg names earlier file) {r : CountryRange}
    (mem : r ∈ loadedRanges cfg file) :
    (IpP2Country.loaded cfg earlier (file.map CsvFile.lines)).search r.rangeFrom ≠ none := by
  intro missed
  obtain ⟨range, known⟩ := loadedRanges_spec r mem
  obtain ⟨h, mapped, embedded⟩ := exists_mapped r.rangeFrom
  have found := (answers h fun _ => mapped).inside r.rangeFrom embedded r mem
    ⟨UInt32.le_refl _, range⟩
  rw [IpP2Country.find_eq fun _ => mapped, embedded, Option.bind_some, missed] at found
  exact known found.symm

/-- All of them can be counted: the count of all the addresses would be zero again. -/
theorem CountriesFound.length_lt (answers : CountriesFound cfg names earlier file)
    (disjoint : RangesDisjoint (loadedRanges cfg file)) :
    (loadedRanges cfg file).length < 4294967296 := by
  obtain ⟨t, -, zero, eq⟩ := IpP2Country.loaded_eq cfg earlier
  apply Nat.lt_of_le_of_ne (disjoint.length_le fun r mem => (loadedRanges_spec r mem).1)
  intro all
  obtain ⟨r, mem⟩ := List.exists_mem_of_length_pos (by rw [all]; decide)
  have found := search_ne_none answers mem
  have count := IpP2Country.loadIPv4_count zero cfg file
  rw [all] at count
  rw [eq] at found
  exact found (IpP2Country.search_empty count r.rangeFrom)

theorem CountriesFound.sorted (answers : CountriesFound cfg names earlier file)
    (disjoint : RangesDisjoint (loadedRanges cfg file)) :
    (loadedRanges cfg file).Pairwise fun r s => r.rangeFrom ≤ s.rangeFrom := by
  obtain ⟨t, sized, zero, eq⟩ := IpP2Country.loaded_eq cfg earlier
  have holds := IpP2Country.loadIPv4_holds sized zero cfg file (answers.length_lt disjoint)
  apply IpP2Country.sorted_of_search holds disjoint fun r mem => (loadedRanges_spec r mem).1
  intro r mem
  rw [← eq]
  exact search_ne_none answers mem

end

end

/-- The answers are right exactly if the ranges stand in the file in the order of their addresses,
and can be counted. -/
theorem countriesFound_iff (cfg : CountrySettings) (names : NameTables)
    (earlier : List (Option (List Text))) (file : Option CsvFile)
    (disjoint : RangesDisjoint (loadedRanges cfg file)) :
    CountriesFound cfg names earlier file ↔
      (loadedRanges cfg file).Pairwise (fun r s => r.rangeFrom ≤ s.rangeFrom) ∧
        (loadedRanges cfg file).length < 4294967296 := by
  constructor
  · intro answers
    exact ⟨answers.sorted disjoint, answers.length_lt disjoint⟩
  · rintro ⟨sorted, small⟩ h known
    obtain ⟨t, sized, zero, eq⟩ := IpP2Country.loaded_eq cfg earlier
    have holds := IpP2Country.loadIPv4_holds sized zero cfg file small
    rw [eq]
    exact IpP2Country.answers_of_sorted holds disjoint (fun r mem => (loadedRanges_spec r mem).1)
      sorted known

/-- From 1.0.0.0 to 1.0.0.255. -/
def australia : CsvLine := .range
  { sFrom := ascii "16777216", sTo := ascii "16777471", registry := ascii "apnic"
    assigned := ascii "1313020800", code := ascii "AU", rest := ascii ",\"AUS\",\"Australia\""
    isFrom := ⟨by decide, List.all_eq_true.mp rfl, by decide⟩
    isTo := ⟨by decide, List.all_eq_true.mp rfl, by decide⟩
    le := by decide
    registryPlain := by decide
    assignedPlain := by decide
    codePlain := by decide
    codeLength := by decide }

/-- From 1.0.1.0 to 1.0.3.255. -/
def china : CsvLine := .range
  { sFrom := ascii "16777472", sTo := ascii "16778239", registry := ascii "apnic"
    assigned := ascii "1302739200", code := ascii "CN", rest := ascii ",\"CHN\",\"China\""
    isFrom := ⟨by decide, List.all_eq_true.mp rfl, by decide⟩
    isTo := ⟨by decide, List.all_eq_true.mp rfl, by decide⟩
    le := by decide
    registryPlain := by decide
    assignedPlain := by decide
    codePlain := by decide
    codeLength := by decide }

theorem australia_range : australia.range? = some ⟨16777216, 16777471, 11⟩ := by decide +kernel

theorem china_range : china.range? = some ⟨16777472, 16778239, 45⟩ := by decide +kernel

theorem two_disjoint {r s : CountryRange} (apart : r.rangeTo < s.rangeFrom) :
    RangesDisjoint [r, s] ∧ RangesDisjoint [s, r] := by
  have out : ∀ ip, r.Covers ip → ¬ s.Covers ip := by
    intro ip covers covers'
    exact UInt32.not_le.mpr apart (UInt32.le_trans covers'.1 covers.2)
  constructor
  · exact List.pairwise_pair.mpr out
  · exact List.pairwise_pair.mpr fun ip covers covers' => out ip covers' covers

theorem in_order_found : ¬ ∃ names,
    ¬ CountriesFound ⟨true, true⟩ names [none] (some [australia, china]) := by
  rintro ⟨names, missed⟩
  have ranges : loadedRanges ⟨true, true⟩ (some [australia, china]) =
      [⟨16777216, 16777471, 11⟩, ⟨16777472, 16778239, 45⟩] := by
    simp [loadedRanges, CsvFile.ranges, australia_range, china_range]
  have disjoint : RangesDisjoint (loadedRanges ⟨true, true⟩ (some [australia, china])) := by
    rw [ranges]
    exact (two_disjoint (by decide)).1
  apply missed
  apply (countriesFound_iff ⟨true, true⟩ names [none] (some [australia, china]) disjoint).mpr
  rw [ranges]
  decide

/-- 1.0.1.0 isn't found if its range comes first in the file. -/
theorem out_of_order_missed :
    RangesDisjoint (loadedRanges ⟨true, true⟩ (some [china, australia])) ∧
      ¬ ∃ names, CountriesFound ⟨true, true⟩ names [] (some [china, australia]) := by
  have ranges : loadedRanges ⟨true, true⟩ (some [china, australia]) =
      [⟨16777472, 16778239, 45⟩, ⟨16777216, 16777471, 11⟩] := by
    simp [loadedRanges, CsvFile.ranges, australia_range, china_range]
  have disjoint : RangesDisjoint (loadedRanges ⟨true, true⟩ (some [china, australia])) := by
    rw [ranges]
    exact (two_disjoint (by decide)).2
  refine ⟨disjoint, ?_⟩
  rintro ⟨names, found⟩
  have sorted := found.sorted disjoint
  rw [ranges] at sorted
  exact absurd sorted (by decide)

end FlyHub.Country
