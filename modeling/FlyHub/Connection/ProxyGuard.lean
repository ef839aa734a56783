import FlyHub.Connection.AntiFlood
import FlyHub.Lib.BigEndian

/-!
# Proxies

The hub loads a list of ranges of addresses that belong to proxies, and sorts them by where
they start. Of the ranges that start not after an address it looks at the last one only.
-/

namespace FlyHub.Connection

open FlyHub.Lib

/-- A range of the file, from its first address to its last one. -/
structure ListedRange where
  startIP : UInt32
  endIP : UInt32
  le : startIP ≤ endIP

/-- `CFlyIPRange`. `m_stop_ip` is the address after the last one. -/
structure IPRange where
  startIP : UInt32
  stopIP : UInt32
  deriving DecidableEq

namespace ListedRange

def Covers (r : ListedRange) (ip : UInt32) : Prop := r.startIP ≤ ip ∧ ip ≤ r.endIP

instance (r : ListedRange) (ip : UInt32) : Decidable (r.Covers ip) :=
  inferInstanceAs (Decidable (_ ∧ _))

/-- The range, unless it is an "Error range". -/
def load (r : ListedRange) : Option IPRange :=
  let stopIP := r.endIP + 1
  if r.startIP ≥ stopIP then none else some ⟨r.startIP, stopIP⟩

end ListedRange

/-- What `loadProxyGuard` may leave: ranges that start at the same address may come in any
order. -/
structure LoadProxyGuard (listed : List ListedRange) (proxyArray : List IPRange) : Prop where
  perm : proxyArray.Perm (listed.filterMap ListedRange.load)
  sorted : proxyArray.Pairwise fun left right => left.startIP ≤ right.startIP

/-- `std::upper_bound` in the sorted array. -/
def upperBound (proxyArray : List IPRange) (ip : UInt32) : Nat :=
  (proxyArray.takeWhile fun range => range.startIP ≤ ip).length

/-- `isProxy`. -/
def isProxy (proxyArray : List IPRange) (ip : UInt32) : Bool :=
  match upperBound proxyArray ip with
  | 0 => false
  | it + 1 =>
    match proxyArray[it]? with
    | some range => range.startIP ≤ ip && ip < range.stopIP
    | none => false

/-- `IN6_IS_ADDR_V4MAPPED`. -/
def isV4Mapped (sin6_addr : Vector UInt8 16) : Bool :=
  sin6_addr.toList.take 12 = [0, 0, 0, 0, 0, 0, 0, 0, 0, 0, 255, 255]

/-- `ipv4addr` of `AcceptUser`, as a number. It is zero but for an IPv4 address in an IPv6
one. -/
def ipv4addr : Address → UInt32
  | .inet .. => 0
  | .inet6 sin6_addr =>
    if isV4Mapped sin6_addr then UInt32.ofNat (ofBE (sin6_addr.toList.drop 12)) else 0

/-- The check of `AcceptUser`. -/
def acceptsProxy (proxyArray : List IPRange) (addr : Address) : Bool :=
  isProxy proxyArray (ipv4addr addr)

/-- An IPv4 address, in the order of its bytes. -/
structure IPv4 where
  a : UInt8
  b : UInt8
  c : UInt8
  d : UInt8

namespace IPv4

variable (ip : IPv4)

def value : UInt32 := UInt32.ofNat (ofBE [ip.a, ip.b, ip.c, ip.d])

def inet : Address := .inet ip.a ip.b ip.c ip.d

def mapped : Address :=
  .inet6 ⟨#[0, 0, 0, 0, 0, 0, 0, 0, 0, 0, 255, 255, ip.a, ip.b, ip.c, ip.d], rfl⟩

theorem ipv4addr_mapped : ipv4addr ip.mapped = ip.value := rfl

end IPv4

/-! ## What is found -/

section
variable {proxyArray : List IPRange} {ip : UInt32} {listed : List ListedRange}

/-- The last range to start not after the address reaches it. -/
def LastReaches (proxyArray : List IPRange) (ip : UInt32) : Prop :=
  ∃ pre range post, proxyArray = pre ++ range :: post ∧ range.startIP ≤ ip ∧ ip < range.stopIP ∧
    ∀ later ∈ post, ip < later.startIP

/-- The ranges that start after the address come after all the others. -/
theorem upperBound_split {pre post : List IPRange} (before : ∀ r ∈ pre, r.startIP ≤ ip)
    (later : ∀ r ∈ post, ip < r.startIP) : upperBound (pre ++ post) ip = pre.length := by
  rw [upperBound, List.takeWhile_append_of_pos (by simpa using before)]
  cases post with
  | nil => simp
  | cons r post =>
    have first : ¬r.startIP ≤ ip := UInt32.not_le.mpr (later r List.mem_cons_self)
    simp [first]

/-- Some of the sorted ranges start not after the address, the others later. -/
theorem exists_split (ip : UInt32) (sorted : proxyArray.Pairwise fun l r => l.startIP ≤ r.startIP) :
    ∃ pre post, proxyArray = pre ++ post ∧ (∀ r ∈ pre, r.startIP ≤ ip) ∧
      ∀ r ∈ post, ip < r.startIP := by
  induction proxyArray with
  | nil => exact ⟨[], [], rfl, nofun, nofun⟩
  | cons range rest ih =>
    obtain ⟨first, sorted⟩ := List.pairwise_cons.mp sorted
    by_cases starts : range.startIP ≤ ip
    · obtain ⟨pre, post, rfl, before, later⟩ := ih sorted
      refine ⟨range :: pre, post, rfl, ?_, later⟩
      intro r mem
      rcases List.mem_cons.mp mem with rfl | mem
      · exact starts
      · exact before r mem
    · have after : ip < range.startIP := UInt32.not_le.mp starts
      refine ⟨[], range :: rest, rfl, nofun, ?_⟩
      intro r mem
      rcases List.mem_cons.mp mem with rfl | mem
      · exact after
      · exact UInt32.lt_of_lt_of_le after (first r mem)

theorem isProxy_split {pre post : List IPRange} {range : IPRange}
    (before : ∀ r ∈ pre, r.startIP ≤ ip) (starts : range.startIP ≤ ip)
    (later : ∀ r ∈ post, ip < r.startIP) :
    isProxy (pre ++ range :: post) ip = true ↔ ip < range.stopIP := by
  have bound : upperBound (pre ++ range :: post) ip = pre.length + 1 := by
    have all : ∀ r ∈ pre ++ [range], r.startIP ≤ ip := by
      intro r mem
      rcases List.mem_append.mp mem with mem | mem
      · exact before r mem
      · rw [List.mem_singleton.mp mem]
        exact starts
    have split := upperBound_split all later
    rw [List.append_assoc, List.length_append] at split
    exact split
  rw [isProxy, bound]
  simp [starts]

theorem isProxy_iff (sorted : proxyArray.Pairwise fun l r => l.startIP ≤ r.startIP) :
    isProxy proxyArray ip = true ↔ LastReaches proxyArray ip := by
  constructor
  · intro found
    obtain ⟨pre, post, rfl, before, later⟩ := exists_split ip sorted
    cases pre using List.reverseRecOn with
    | nil =>
      have none_before : ∀ r ∈ ([] : List IPRange), r.startIP ≤ ip := nofun
      rw [isProxy, upperBound_split none_before later] at found
      cases found
    | append_singleton pre range =>
      have starts := before range (List.mem_append_right _ (List.mem_singleton_self range))
      rw [List.append_assoc] at found ⊢
      have reaches := (isProxy_split (fun r mem => before r (List.mem_append_left _ mem)) starts
        later).mp found
      exact ⟨pre, range, post, rfl, starts, reaches, later⟩
  · rintro ⟨pre, range, post, rfl, starts, reaches, later⟩
    have before : ∀ r ∈ pre, r.startIP ≤ ip := by
      intro r mem
      have first := (List.pairwise_append.mp sorted).2.2 r mem range List.mem_cons_self
      exact UInt32.le_trans first starts
    exact (isProxy_split before starts later).mpr reaches

/-- A range that was loaded is not empty, and covers what it was listed with. -/
theorem load_some (ip : UInt32) {r : ListedRange} {range : IPRange} (loaded : r.load = some range) :
    range.startIP < range.stopIP ∧ (r.Covers ip ↔ range.startIP ≤ ip ∧ ip < range.stopIP) := by
  rw [ListedRange.load] at loaded
  split at loaded
  · cases loaded
  · rename_i kept
    obtain rfl := Option.some.inj loaded
    have some_address : r.startIP < r.endIP + 1 := UInt32.not_le.mp kept
    refine ⟨some_address, and_congr_right fun _ => ?_⟩
    have next : (r.endIP + 1).toNat = r.endIP.toNat + 1 := by
      have := UInt32.lt_iff_toNat_lt.mp some_address
      rw [UInt32.toNat_add] at this ⊢
      simp only [UInt32.reduceToNat, Nat.reducePow] at this ⊢
      have := r.endIP.toNat_lt
      omega
    rw [UInt32.le_iff_toNat_le, UInt32.lt_iff_toNat_lt, next]
    omega

/-- The address is in one of the listed ranges. -/
def InList (listed : List ListedRange) (ip : UInt32) : Prop := ∃ r ∈ listed, r.Covers ip

theorem LastReaches.inList (loaded : LoadProxyGuard listed proxyArray)
    (last : LastReaches proxyArray ip) : InList listed ip := by
  obtain ⟨pre, range, post, rfl, starts, reaches, -⟩ := last
  have mem : range ∈ listed.filterMap ListedRange.load :=
    loaded.perm.subset (List.mem_append_right _ List.mem_cons_self)
  obtain ⟨r, listed, from_⟩ := List.mem_filterMap.mp mem
  exact ⟨r, listed, (load_some _ from_).2.mpr ⟨starts, reaches⟩⟩

/-- 0.0.0.0 is found if a range starts there. -/
theorem lastReaches_zero (loaded : LoadProxyGuard listed proxyArray) :
    LastReaches proxyArray 0 ↔ ∃ range ∈ proxyArray, range.startIP = 0 := by
  constructor
  · rintro ⟨pre, range, post, rfl, starts, -, -⟩
    exact ⟨range, List.mem_append_right _ List.mem_cons_self, UInt32.le_zero_iff.mp starts⟩
  · rintro ⟨first, mem, zero⟩
    obtain ⟨pre, post, rfl, before, later⟩ := exists_split 0 loaded.sorted
    cases pre using List.reverseRecOn with
    | nil =>
      have := later first mem
      rw [zero] at this
      exact absurd this (UInt32.lt_irrefl 0)
    | append_singleton pre range =>
      have starts := before range (List.mem_append_right _ (List.mem_singleton_self range))
      have mem : range ∈ listed.filterMap ListedRange.load :=
        loaded.perm.subset (by simp)
      obtain ⟨r, -, from_⟩ := List.mem_filterMap.mp mem
      have some_address := (load_some 0 from_).1
      have reaches := UInt32.lt_of_le_of_lt UInt32.zero_le some_address
      exact ⟨pre, range, post, by simp, starts, reaches, later⟩

end

/-- The check answers yes exactly for the addresses of the list, whichever family they
come with. -/
structure Agrees (listed : List ListedRange) (proxyArray : List IPRange) (ip : IPv4) : Prop where
  inet : acceptsProxy proxyArray ip.inet = true ↔ InList listed ip.value
  mapped : acceptsProxy proxyArray ip.mapped = true ↔ InList listed ip.value
  same : acceptsProxy proxyArray ip.inet = acceptsProxy proxyArray ip.mapped

/-- The check looks for 0.0.0.0 in the place of an `AF_INET` address, and of the ranges for
a mapped one at the last only. -/
theorem proxy_check_iff (listed : List ListedRange) (proxyArray : List IPRange) (ip : IPv4)
    (loaded : LoadProxyGuard listed proxyArray) :
    Agrees listed proxyArray ip ↔
      ((∃ range ∈ proxyArray, range.startIP = 0) ↔ InList listed ip.value) ∧
        (InList listed ip.value → LastReaches proxyArray ip.value) := by
  have inet : acceptsProxy proxyArray ip.inet = true ↔ ∃ range ∈ proxyArray, range.startIP = 0 :=
    (isProxy_iff loaded.sorted).trans (lastReaches_zero loaded)
  have mapped : acceptsProxy proxyArray ip.mapped = true ↔ LastReaches proxyArray ip.value := by
    rw [acceptsProxy, ip.ipv4addr_mapped]
    exact isProxy_iff loaded.sorted
  constructor
  · rintro ⟨inet', mapped', -⟩
    exact ⟨inet.symm.trans inet', fun listed => mapped.mp (mapped'.mpr listed)⟩
  · rintro ⟨starts, reaches⟩
    have inet' := inet.trans starts
    have mapped' : acceptsProxy proxyArray ip.mapped = true ↔ InList listed ip.value :=
      mapped.trans ⟨LastReaches.inList loaded, reaches⟩
    exact ⟨inet', mapped', Bool.eq_iff_iff.mpr (inet'.trans mapped'.symm)⟩

/-- From 10.0.0.0 to 10.0.0.255. -/
def tenNet : ListedRange := ⟨0x0A000000, 0x0A0000FF, by decide⟩

theorem tenNet_loaded : LoadProxyGuard [tenNet] [⟨0x0A000000, 0x0A000100⟩] :=
  ⟨List.Perm.refl _, List.pairwise_singleton _ _⟩

theorem proxy_check_outside :
    Agrees [tenNet] [⟨0x0A000000, 0x0A000100⟩] ⟨11, 0, 0, 1⟩ ↔
      ((∃ range ∈ [(⟨0x0A000000, 0x0A000100⟩ : IPRange)], range.startIP = 0) ↔
        InList [tenNet] (IPv4.value ⟨11, 0, 0, 1⟩)) ∧
        (InList [tenNet] (IPv4.value ⟨11, 0, 0, 1⟩) →
          LastReaches [⟨0x0A000000, 0x0A000100⟩] (IPv4.value ⟨11, 0, 0, 1⟩)) :=
  proxy_check_iff [tenNet] [⟨0x0A000000, 0x0A000100⟩] ⟨11, 0, 0, 1⟩ tenNet_loaded

/-- A proxy that comes with `AF_INET` is not found. -/
theorem proxy_missed : ¬∀ (listed : List ListedRange) (proxyArray : List IPRange) (ip : IPv4),
    LoadProxyGuard listed proxyArray → Agrees listed proxyArray ip := by
  intro all
  have agrees := all [tenNet] [⟨0x0A000000, 0x0A000100⟩] ⟨10, 0, 0, 1⟩ tenNet_loaded
  exact absurd agrees.same (by decide +kernel)

end FlyHub.Connection
