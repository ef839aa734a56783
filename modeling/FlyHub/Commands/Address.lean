import FlyHub.Commands.Command
import FlyHub.Lib.Field

/-!
# Addresses

A `$ConnectToMe` and an active `$Search` carry the address of their sender and a port.
The hub compares the address with those the sender has, and writes the command anew
with one of them where it is another's.
-/

namespace FlyHub.Commands

open FlyHub.Connection FlyHub.Lib FlyHub.Lists

def colon : UInt8 := 58

/-- The loop of `CheckAndGetPort`, from the last character on: the digits behind a colon. -/
def portDigits : Text → Text → Option Text
  | [], _ => none
  | c :: before, digits =>
    if c = colon then some digits
    else if isDigit c then portDigits before (c :: digits)
    else none

/-- `CheckAndGetPort`, of the last six characters. A port of zero is none. -/
def checkAndGetPort (sIPPort : Text) : Option Text :=
  match portDigits (sIPPort.drop (sIPPort.length - 6)).reverse [] with
  | some digits =>
    if digits ≠ [] && number digits ≠ 0 && number digits ≤ 65535 then some digits else none
  | none => none

def bracketed (sIP : Text) : Text := 91 :: (sIP ++ [93])

namespace Sender

variable (u : Sender)

/-- "Check if we get valid IP address". -/
def isOwnIP (sIPPort : Text) (ipLen : Nat) : Bool :=
  if u.ipv6 then
    (u.sIP.length + 2 = ipLen && sIPPort[0]? = some 91 && sIPPort[1 + u.sIP.length]? = some 93 &&
      (sIPPort.drop 1).take u.sIP.length = u.sIP) ||
    (u.ipv4 && u.sIPv4.length = ipLen && sIPPort.take u.sIPv4.length = u.sIPv4)
  else u.sIP.length = ipLen && sIPPort.take u.sIP.length = u.sIP

/-- The address of a sender without a second one, or the second. -/
def addressIPv4 : Text := if u.sIPv4.length = 0 then u.sIP else u.sIPv4

end Sender

/-- `$ConnectToMe` with all its parts. -/
def connectText (sNick address port suffix : Text) : Text :=
  ascii "$ConnectToMe " ++ (sNick ++ blank :: (address ++ colon :: (port ++ suffix))) ++ [pipe]

/-- The address that is written where the sender gave another's. -/
def fixedAddress (u : Sender) (other : OtherUser) : Option Text :=
  if u.ipv6 && other.ipv6 then some (bracketed u.sIP)
  else if u.ipv4 && other.ipv4 then some u.addressIPv4
  else none

section
variable (h : Hub) (u : Sender) (c : DcCommand) (bMulti : Bool)

/-- `ConnectToMe`: the user it goes to, and what is queued for him. -/
def connectToMe : Option (OtherUser × Text) :=
  let off := if bMulti then 18 else 13
  if c.commandLen < (if bMulti then 28 else 23) || !h.passes || h.maxCtmLen < c.commandLen then none
  else
    match (c.body.drop off).idxOf? blank with
    | none => none
    | some i =>
      match h.findUser ((c.body.drop off).take i) with
      | none => none
      | some other =>
        if u.noIpCheck then some (other, c.single bMulti)
        else
          let sIPPort := c.body.drop (off + i + 1)
          if sIPPort.length < 7 || 48 < sIPPort.length then none
          else
            let bSecure := u.tls2 && sIPPort.getLast? = some 83
            let sIPPort := if bSecure then sIPPort.dropLast else sIPPort
            match checkAndGetPort sIPPort with
            | none => none
            | some digits =>
              if u.isOwnIP sIPPort (sIPPort.length - digits.length - 1) then
                some (other, c.single bMulti)
              else
                (fixedAddress u other).map fun address =>
                  (other, connectText other.sNick address (decimal (number digits))
                    (if bSecure then [83] else []))

/-- The queues of the searches. -/
inductive SearchQueue where
  | active4
  | active6
  | passive
  deriving DecidableEq

/-- `$Search` with all its parts. The query ends with the pipe. -/
def searchText (address port query : Text) : Text :=
  ascii "$Search " ++ (address ++ colon :: port) ++ blank :: query

def passiveText (sNick query : Text) : Text := ascii "$Search Hub:" ++ sNick ++ blank :: query

/-- The place of the `n`-th `?` from a place on, or the end, and how many were passed. -/
def nthMark (sCommand : Text) (n : Nat) : Nat → Nat → Nat → Nat × Nat
  | 0, place, count => (place, count)
  | left + 1, place, count =>
    if sCommand[place]? = some 63 then
      if count + 1 = n then (place, n) else nthMark sCommand n left (place + 1) (count + 1)
    else nthMark sCommand n left (place + 1) count

/-- The length of what is searched for: what is left behind the marks, in 32 bits. -/
def searchLen (place : Nat) : UInt32 :=
  UInt32.ofNat c.commandLen - 2 - UInt32.ofNat place

/-- "search string len check". -/
def lengthFits (marks start : Nat) (all : Bool) : Bool :=
  if u.noSearchLimits || (h.minSearchLen = 0 && h.maxSearchLen = 0) then true
  else
    let (place, count) := nthMark c.sCommand marks (c.commandLen - start) start 0
    (!all || count = marks) && h.minSearchLen ≤ (searchLen c place).toNat &&
      (h.maxSearchLen = 0 || (searchLen c place).toNat ≤ h.maxSearchLen)

/-- A passive search, whose nick must be that of the sender. -/
def passiveSearch : List (SearchQueue × Text) :=
  if !c.nickAt 12 u.sNick blank then []
  else if !lengthFits h u c 2 (17 + u.sNick.length) false then []
  else [(.passive, c.sCommand)]

/-- What a user with two addresses searches for over the second. -/
def searchIPv4 (port : Nat) (query : Text) : SearchQueue × Text :=
  if u.ipv4Active || u.tagEmpty then (.active4, searchText u.sIPv4 (decimal port) query)
  else (.passive, passiveText u.sNick query)

/-- The searches that are written where the sender gave another's address. -/
def fixedSearches (port : Nat) (query : Text) : List (SearchQueue × Text) :=
  if u.ipv6 then
    (if u.ipv6Active then (.active6, searchText (bracketed u.sIP) (decimal port) query)
      else (.passive, passiveText u.sNick query)) ::
      (if u.ipv4 then [searchIPv4 u port query] else [])
  else if u.ipv4 then [(.active4, searchText u.addressIPv4 (decimal port) query)]
  else []

/-- The searches with the sender's own address. -/
def ownSearches (port : Nat) (query : Text) : List (SearchQueue × Text) :=
  let relayed := c.single bMulti
  if u.ipv6 && relayed[8]? = some 91 then
    (.active6, relayed) :: (if u.ipv4 then [searchIPv4 u port query] else [])
  else [(.active4, relayed)]

/-- An active search. A user without a tag is active from then on. -/
def activeSearch : List (SearchQueue × Text) :=
  let off := if bMulti then 13 else 8
  if !lengthFits h u c 4 (off + 9) true then []
  else
    match (c.body.drop off).idxOf? blank with
    | none => []
    | some i =>
      let sIPPort := (c.body.drop off).take i
      let query := c.sCommand.drop (off + i + 1)
      if sIPPort.length < 7 || 48 < sIPPort.length then []
      else
        match checkAndGetPort sIPPort with
        | none => []
        | some digits =>
          if !u.noIpCheck && !u.isOwnIP sIPPort (sIPPort.length - digits.length - 1) then
            fixedSearches u (number digits) query
          else ownSearches u c bMulti (number digits) query

/-- `Search`: what is queued. -/
def search : List (SearchQueue × Text) :=
  if c.commandLen < (if bMulti then 15 else 10) || 512 < c.commandLen || !h.passes then []
  else if !bMulti && c.matchBytes 8 (ascii "Hub:") then passiveSearch h u c
  else activeSearch h u c bMulti

end

/-! ## Ports and addresses -/

/-- A port as it is written, between 1 and 65535. -/
structure IsPort (digits : Text) : Prop where
  allDigits : ∀ c ∈ digits, isDigit c = true
  some_ : digits ≠ []
  positive : 1 ≤ number digits
  le : number digits ≤ 65535

theorem portDigits_some {before digits port : Text} (found : portDigits before digits = some port) :
    ∃ ds rest, before = ds ++ colon :: rest ∧ (∀ c ∈ ds, isDigit c = true) ∧
      port = ds.reverse ++ digits := by
  induction before generalizing digits with
  | nil => cases found
  | cons c before ih =>
    unfold portDigits at found
    split at found
    · rename_i here
      cases found
      exact ⟨[], before, by rw [here]; rfl, by simp, rfl⟩
    · split at found
      · rename_i digit
        obtain ⟨ds, rest, eq, digits', port'⟩ := ih found
        refine ⟨c :: ds, rest, by rw [eq]; rfl, ?_, ?_⟩
        · intro a mem
          cases List.mem_cons.mp mem with
          | inl same => exact same ▸ digit
          | inr mem => exact digits' a mem
        · rw [port', List.reverse_cons, List.append_assoc]
          rfl
      · cases found

theorem address_length (address digits : Text) :
    (address ++ colon :: digits).length - digits.length - 1 = address.length := by
  rw [List.length_append, List.length_cons]
  omega

/-- What is checked is an address, a colon and a port. -/
theorem checkAndGetPort_some {sIPPort digits : Text} (found : checkAndGetPort sIPPort = some digits) :
    IsPort digits ∧ ∃ address, sIPPort = address ++ colon :: digits := by
  unfold checkAndGetPort at found
  split at found
  · rename_i port eq
    split at found
    · rename_i valid
      cases found
      simp only [Bool.and_eq_true, decide_eq_true_eq, ne_eq] at valid
      obtain ⟨⟨some_, positive⟩, le⟩ := valid
      obtain ⟨ds, rest, reversed, digits', port'⟩ := portDigits_some eq
      rw [List.append_nil] at port'
      have last : sIPPort.drop (sIPPort.length - 6) = rest.reverse ++ colon :: digits := by
        rw [← List.reverse_reverse (sIPPort.drop _), reversed, port']
        simp
      refine ⟨⟨?_, some_, Nat.pos_of_ne_zero positive, le⟩, ?_⟩
      · intro c mem
        rw [port', List.mem_reverse] at mem
        exact digits' c mem
      · refine ⟨sIPPort.take (sIPPort.length - 6) ++ rest.reverse, ?_⟩
        rw [List.append_assoc, ← last, List.take_append_drop]
    · cases found
  · cases found

theorem decimal_isPort {digits : Text} (port : IsPort digits) : IsPort (decimal (number digits)) where
  allDigits := isDigit_decimal _
  some_ := by
    intro none_
    have zero : number (decimal (number digits)) = 0 := by rw [none_]; rfl
    rw [number_decimal] at zero
    have positive := port.positive
    omega
  positive := by
    rw [number_decimal]
    exact port.positive
  le := by
    rw [number_decimal]
    exact port.le

/-- An address of the sender: his own in brackets if it is one of IPv6, or the other of
such a sender. -/
def Sender.Own (u : Sender) (address : Text) : Prop :=
  (u.ipv6 = true ∧ address = bracketed u.sIP) ∨
    (u.ipv6 = true ∧ u.ipv4 = true ∧ address = u.sIPv4) ∨ (u.ipv6 = false ∧ address = u.sIP)

section
variable {u : Sender} {other : OtherUser} {address digits : Text}

theorem isOwnIP_own
    (own : u.isOwnIP (address ++ colon :: digits) address.length = true) : u.Own address := by
  have taken {n : Nat} (eq : n = address.length) :
      (address ++ colon :: digits).take n = address := by
    rw [eq, List.take_left]
  unfold Sender.isOwnIP at own
  split at own
  · rename_i six
    rw [Bool.or_eq_true] at own
    cases own with
    | inl brackets =>
      simp only [Bool.and_eq_true, decide_eq_true_eq] at brackets
      obtain ⟨⟨⟨length, first⟩, last⟩, inside⟩ := brackets
      refine .inl ⟨six, ?_⟩
      match address, length with
      | a :: rest, length =>
        rw [List.length_cons] at length
        have open_ : a = 91 := by simpa using first
        rw [List.cons_append, List.drop_one, List.tail_cons] at inside
        rw [List.cons_append, Nat.add_comm 1, List.getElem?_cons_succ] at last
        have split : rest = u.sIP ++ rest.drop u.sIP.length := by
          have short : u.sIP.length ≤ rest.length := by omega
          rw [List.take_append_of_le_length short] at inside
          rw [← inside, List.length_take, Nat.min_eq_left short, List.take_append_drop]
        have one : (rest.drop u.sIP.length).length = 1 := by
          rw [List.length_drop]
          omega
        obtain ⟨b, single⟩ := List.length_eq_one_iff.mp one
        rw [single] at split
        rw [split, List.append_assoc, List.getElem?_append_right (Nat.le_refl _), Nat.sub_self] at last
        have close_ : b = 93 := by simpa using last
        rw [open_, split, close_]
        rfl
    | inr second =>
      simp only [Bool.and_eq_true, decide_eq_true_eq] at second
      obtain ⟨⟨four, length⟩, same⟩ := second
      rw [taken length] at same
      exact .inr (.inl ⟨six, four, same⟩)
  · rename_i six
    simp only [Bool.and_eq_true, decide_eq_true_eq] at own
    obtain ⟨length, same⟩ := own
    rw [taken length] at same
    exact .inr (.inr ⟨by simpa using six, same⟩)

theorem addressIPv4_own (four : u.ipv4 = true) : u.Own u.addressIPv4 := by
  unfold Sender.addressIPv4
  cases six : u.ipv6 with
  | true =>
    have some_ := u.second six four
    rw [if_neg (by simpa using some_)]
    exact .inr (.inl ⟨six, four, rfl⟩)
  | false =>
    rw [if_pos (by rw [u.only six]; rfl)]
    exact .inr (.inr ⟨six, rfl⟩)

theorem fixedAddress_own (fixed : fixedAddress u other = some address) : u.Own address := by
  unfold fixedAddress at fixed
  split at fixed
  · rename_i both
    cases fixed
    rw [Bool.and_eq_true] at both
    exact .inl ⟨both.1, rfl⟩
  · split at fixed
    · rename_i both
      cases fixed
      rw [Bool.and_eq_true] at both
      exact addressIPv4_own both.1
    · cases fixed

end

/-! ## What is queued -/

def connectWord (bMulti : Bool) : Text :=
  ascii (if bMulti then "$MultiConnectToMe " else "$ConnectToMe ")

def searchWord (bMulti : Bool) : Text := ascii (if bMulti then "$MultiSearch " else "$Search ")

/-- A port that is the one the sender gave, beside an address of his. -/
structure SameEnd (u : Sender) (digits address port : Text) : Prop where
  own : u.Own address
  isPort : IsPort port
  same : number port = number digits

/-- What a `$ConnectToMe` that is queued looks like beside the command of the sender. -/
structure Connects (h : Hub) (u : Sender) (c : DcCommand) (bMulti : Bool) (other : OtherUser)
    (sData : Text) : Prop where
  sent : ∃ target given digits suffix,
    c.body = connectWord bMulti ++ (target ++ blank :: (given ++ colon :: (digits ++ suffix))) ∧
      h.findUser target = some other ∧ IsPort digits ∧ (suffix = [] ∨ suffix = [83]) ∧
        ∃ sNick address port, (sNick = target ∨ sNick = other.sNick) ∧ blank ∉ sNick ∧
          SameEnd u digits address port ∧ sData = connectText sNick address port suffix

/-- What an active search that is queued looks like beside the command of the sender: it
has his address, or goes as a passive one where he isn't active. -/
structure Searches (u : Sender) (c : DcCommand) (bMulti : Bool) (queue : SearchQueue)
    (sData : Text) : Prop where
  sent : ∃ given digits query,
    c.sCommand = searchWord bMulti ++ (given ++ colon :: (digits ++ blank :: query)) ∧
      IsPort digits ∧
        ((queue ≠ .passive ∧ ∃ address port, SameEnd u digits address port ∧
            sData = searchText address port query) ∨
          (queue = .passive ∧ u.ipv6 = true ∧
            (u.ipv6Active = false ∨ (u.ipv4 = true ∧ u.ipv4Active = false ∧ u.tagEmpty = false)) ∧
            sData = passiveText u.sNick query))

section
variable {h : Hub} {u : Sender} {c : DcCommand} {bMulti : Bool} {other : OtherUser} {sData : Text}

theorem single_connect {rest : Text} (body : c.body = connectWord bMulti ++ rest) :
    c.single bMulti = connectWord false ++ rest ++ [pipe] := by
  rw [DcCommand.single, DcCommand.sCommand, body]
  cases bMulti <;> rfl

theorem single_search {rest : Text} (body : c.body = searchWord bMulti ++ rest) :
    c.single bMulti = searchWord false ++ rest ++ [pipe] := by
  rw [DcCommand.single, DcCommand.sCommand, body]
  cases bMulti <;> rfl

theorem connectWord_clean : pipe ∉ connectWord bMulti := by cases bMulti <;> decide

theorem searchWord_clean : pipe ∉ searchWord bMulti := by cases bMulti <;> decide

/-- What a `$ConnectToMe` puts into the queue has an address of the sender and his port. -/
theorem connectToMe_connects (word : c.matchBytes 0 (connectWord bMulti) = true)
    (noRight : u.noIpCheck = false) (queued : connectToMe h u c bMulti = some (other, sData)) :
    Connects h u c bMulti other sData := by
  obtain ⟨rest, body⟩ := DcCommand.body_of_word word connectWord_clean
  have off : c.body.drop (if bMulti then 18 else 13) = rest := by
    rw [body]
    cases bMulti <;> rfl
  have behind (i : Nat) :
      c.body.drop ((if bMulti then 18 else 13) + i + 1) = rest.drop (i + 1) := by
    rw [Nat.add_assoc, ← List.drop_drop, off]
  unfold connectToMe at queued
  dsimp only at queued
  rw [off] at queued
  generalize (if bMulti = true then 28 else 23) = least at queued
  split at queued
  · cases queued
  · split at queued
    · cases queued
    · rename_i i at_
      split at queued
      · cases queued
      · rename_i other' found
        rw [noRight, if_neg Bool.false_ne_true, behind] at queued
        have split_ := split_idxOf? at_
        have noBlank := not_mem_take_idxOf? at_
        generalize rest.drop (i + 1) = sIPPort at queued split_
        generalize rest.take i = target at found split_ noBlank
        split at queued
        · cases queued
        · have suffixed : ∃ suffix, (suffix = [] ∨ suffix = [83]) ∧
              suffix = (if u.tls2 && sIPPort.getLast? = some 83 then [83] else []) ∧
              sIPPort = (if u.tls2 && sIPPort.getLast? = some 83 then sIPPort.dropLast else sIPPort)
                ++ suffix := by
            split
            · rename_i secure
              rw [Bool.and_eq_true, decide_eq_true_eq] at secure
              exact ⟨[83], .inr rfl, rfl, (List.dropLast_append_getLast? 83 secure.2).symm⟩
            · exact ⟨[], .inl rfl, rfl, (List.append_nil _).symm⟩
          obtain ⟨suffix, kind, eq, whole⟩ := suffixed
          rw [← eq] at queued
          generalize (if u.tls2 && sIPPort.getLast? = some 83 then sIPPort.dropLast else sIPPort) =
            address at queued whole
          split at queued
          · cases queued
          · rename_i digits port
            obtain ⟨isPort, given, rfl⟩ := checkAndGetPort_some port
            have sent : c.body =
                connectWord bMulti ++ (target ++ blank :: (given ++ colon :: (digits ++ suffix))) := by
              rw [body, split_, whole, List.append_assoc, List.cons_append]
            rw [address_length] at queued
            split at queued
            · rename_i own
              cases queued
              refine ⟨target, given, digits, suffix, sent, found, isPort, kind, target, given, digits,
                .inl rfl, noBlank, ⟨isOwnIP_own own, isPort, rfl⟩, ?_⟩
              rw [single_connect sent]
              rfl
            · obtain ⟨address, fixed, eq⟩ := Option.map_eq_some_iff.mp queued
              cases eq
              have clean : blank ∉ other.sNick := fun mem => (other.validNick blank mem).1 rfl
              exact ⟨target, given, digits, suffix, sent, found, isPort, kind, _, address, _,
                .inr rfl, clean,
                ⟨fixedAddress_own fixed, decimal_isPort isPort, number_decimal _⟩, rfl⟩

end

section
variable {h : Hub} {u : Sender} {c : DcCommand} {bMulti : Bool} {queue : SearchQueue}
  {given digits query sData : Text}

/-- What is searched for over the second address of a user. -/
theorem searchIPv4_searches (six : u.ipv6 = true) (four : u.ipv4 = true) (isPort : IsPort digits)
    (sent : c.sCommand = searchWord bMulti ++ (given ++ colon :: (digits ++ blank :: query)))
    (queued : (queue, sData) = searchIPv4 u (number digits) query) :
    Searches u c bMulti queue sData := by
  refine ⟨given, digits, query, sent, isPort, ?_⟩
  unfold searchIPv4 at queued
  split at queued
  · cases queued
    exact .inl ⟨by decide, u.sIPv4, _,
      ⟨.inr (.inl ⟨six, four, rfl⟩), decimal_isPort isPort, number_decimal _⟩, rfl⟩
  · rename_i inactive
    cases queued
    rw [Bool.or_eq_true, not_or, Bool.not_eq_true, Bool.not_eq_true] at inactive
    exact .inr ⟨rfl, six, .inr ⟨four, inactive⟩, rfl⟩

theorem fixedSearches_searches (isPort : IsPort digits)
    (sent : c.sCommand = searchWord bMulti ++ (given ++ colon :: (digits ++ blank :: query)))
    (queued : (queue, sData) ∈ fixedSearches u (number digits) query) :
    Searches u c bMulti queue sData := by
  unfold fixedSearches at queued
  split at queued
  · rename_i six
    cases List.mem_cons.mp queued with
    | inl first =>
      refine ⟨given, digits, query, sent, isPort, ?_⟩
      split at first
      · cases first
        exact .inl ⟨by decide, _, _,
          ⟨.inl ⟨six, rfl⟩, decimal_isPort isPort, number_decimal _⟩, rfl⟩
      · rename_i inactive
        cases first
        exact .inr ⟨rfl, six, .inl (by simpa using inactive), rfl⟩
    | inr second =>
      split at second
      · rename_i four
        exact searchIPv4_searches six four isPort sent (List.mem_singleton.mp second)
      · cases second
  · split at queued
    · rename_i four
      cases List.mem_singleton.mp queued
      exact ⟨given, digits, query, sent, isPort, .inl ⟨by decide, _, _,
        ⟨addressIPv4_own four, decimal_isPort isPort, number_decimal _⟩, rfl⟩⟩
    · cases queued

theorem ownSearches_searches (isPort : IsPort digits) (own : u.Own given)
    (sent : c.sCommand = searchWord bMulti ++ (given ++ colon :: (digits ++ blank :: query)))
    (relayed : c.single bMulti = searchText given digits query)
    (queued : (queue, sData) ∈ ownSearches u c bMulti (number digits) query) :
    Searches u c bMulti queue sData := by
  have asSent (q : SearchQueue) (active : q ≠ .passive) :
      Searches u c bMulti q (c.single bMulti) :=
    ⟨given, digits, query, sent, isPort, .inl ⟨active, given, digits, ⟨own, isPort, rfl⟩, relayed⟩⟩
  unfold ownSearches at queued
  dsimp only at queued
  split at queued
  · rename_i brackets
    rw [Bool.and_eq_true] at brackets
    cases List.mem_cons.mp queued with
    | inl first =>
      cases first
      exact asSent .active6 (by decide)
    | inr second =>
      split at second
      · rename_i four
        exact searchIPv4_searches brackets.1 four isPort sent (List.mem_singleton.mp second)
      · cases second
  · cases List.mem_singleton.mp queued
    exact asSent .active4 (by decide)

/-- What an active search puts into a queue has an address of the sender and his port, or
is a passive one. -/
theorem search_searches (word : c.matchBytes 0 (searchWord bMulti) = true)
    (active : (bMulti || !c.matchBytes 8 (ascii "Hub:")) = true) (noRight : u.noIpCheck = false)
    (queued : (queue, sData) ∈ search h u c bMulti) : Searches u c bMulti queue sData := by
  obtain ⟨rest, body⟩ := DcCommand.body_of_word word searchWord_clean
  have off : c.body.drop (if bMulti then 13 else 8) = rest := by
    rw [body]
    cases bMulti <;> rfl
  have wordLen : (searchWord bMulti).length = if bMulti then 13 else 8 := by cases bMulti <;> rfl
  have notPassive : (!bMulti && c.matchBytes 8 (ascii "Hub:")) = false := by
    cases bMulti with
    | true => rfl
    | false => simpa using active
  unfold search at queued
  generalize (if bMulti = true then 15 else 10) = least at queued
  rw [notPassive, if_neg Bool.false_ne_true] at queued
  split at queued
  · cases queued
  · unfold activeSearch at queued
    dsimp only at queued
    rw [off] at queued
    generalize lengthFits h u c 4 ((if bMulti = true then 13 else 8) + 9) true = fits at queued
    split at queued
    · cases queued
    · split at queued
      · cases queued
      · rename_i i at_
        have split_ := split_idxOf? at_
        have tail : c.sCommand.drop ((if bMulti then 13 else 8) + i + 1) =
            rest.drop (i + 1) ++ [pipe] := by
          obtain ⟨lt, -⟩ := List.idxOf?_eq_some_iff.mp at_
          rw [DcCommand.sCommand, body, List.append_assoc, Nat.add_assoc, ← wordLen,
            ← List.drop_drop, List.drop_left, List.drop_append_of_le_length (by omega)]
        rw [tail] at queued
        generalize rest.drop (i + 1) = query at queued split_
        generalize rest.take i = sIPPort at queued split_
        split at queued
        · cases queued
        · split at queued
          · cases queued
          · rename_i digits port
            obtain ⟨isPort, given, rfl⟩ := checkAndGetPort_some port
            have text : rest ++ [pipe] = given ++ colon :: (digits ++ blank :: (query ++ [pipe])) := by
              rw [split_]
              simp
            have sent : c.sCommand = searchWord bMulti ++
                (given ++ colon :: (digits ++ blank :: (query ++ [pipe]))) := by
              rw [DcCommand.sCommand, body, List.append_assoc, text]
            rw [noRight, address_length] at queued
            split at queued
            · exact fixedSearches_searches isPort sent queued
            · rename_i own
              rw [Bool.not_false, Bool.true_and, Bool.not_eq_true, Bool.not_eq_false'] at own
              have relayed : c.single bMulti = searchText given digits (query ++ [pipe]) := by
                rw [single_search body, List.append_assoc, text, searchText]
                simp [searchWord]
              exact ownSearches_searches isPort (isOwnIP_own own) sent relayed queued

end

/-- What is queued of a command of a user whose address is checked has an address of his
with the port that he gave, or is a search that goes as a passive one. -/
theorem queued_own (h : Hub) (u : Sender) (c : DcCommand) (bMulti : Bool)
    (noRight : u.noIpCheck = false) :
    (c.matchBytes 0 (connectWord bMulti) = true →
        ∀ other sData, connectToMe h u c bMulti = some (other, sData) →
          Connects h u c bMulti other sData) ∧
      (c.matchBytes 0 (searchWord bMulti) = true →
        (bMulti || !c.matchBytes 8 (ascii "Hub:")) = true →
          ∀ queue sData, (queue, sData) ∈ search h u c bMulti →
            Searches u c bMulti queue sData) := by
  constructor
  · intro word other sData queued
    exact connectToMe_connects word noRight queued
  · intro word active queue sData queued
    exact search_searches word active noRight queued

/-- A user of IPv6 whose client isn't active. -/
def nora : Sender where
  sNick := ascii "nora"
  ipv4 := false
  ipv6 := true
  tls2 := true
  validNick := by unfold ValidNick; decide +kernel
  hasIp := rfl
  sIP := ascii "2001:db8::1"
  sIPv4 := []
  ipv4Active := false
  ipv6Active := false
  tagEmpty := false
  noIpCheck := false
  noSearchLimits := false
  second := by decide
  only := by decide

def bob : OtherUser := ⟨ascii "bob", false, true, by unfold ValidNick; decide +kernel⟩

/-- A hub with `bob`, without limits. -/
def hubOfBob : Hub where
  findUser s := if iequals bob.sNick s then some bob else none
  found s o found := by
    split at found
    · rename_i same
      cases found
      exact same
    · cases found
  passes := true
  maxCtmLen := 512
  minSearchLen := 0
  maxSearchLen := 0

/-- A `$ConnectToMe` to `bob` with an address that isn't `nora`'s. -/
def foreignConnect : DcCommand :=
  ⟨ascii "$ConnectToMe bob [2001:db8::9]:0412S", [], by decide +kernel, by decide +kernel, by decide⟩

def foreignSearch : DcCommand :=
  ⟨ascii "$Search [2001:db8::9]:412 F?F?0?2?test", [], by decide +kernel, by decide +kernel,
    by decide⟩

theorem queued_own_nora :
    Connects hubOfBob nora foreignConnect false bob
        (ascii "$ConnectToMe bob [2001:db8::1]:412S|") ∧
      Searches nora foreignSearch false .passive (ascii "$Search Hub:nora F?F?0?2?test|") :=
  ⟨(queued_own hubOfBob nora foreignConnect false rfl).1 (by decide +kernel) bob _
      (by decide +kernel),
    (queued_own hubOfBob nora foreignSearch false rfl).2 (by decide +kernel) (by decide +kernel)
      .passive _ (by decide +kernel)⟩

/-- The search of a user who isn't active is queued without any address. -/
theorem foreign_search_passive :
    ¬∀ queue sData, (queue, sData) ∈ search hubOfBob nora foreignSearch false →
      ∃ address port query, nora.Own address ∧ sData = searchText address port query := by
  intro all
  obtain ⟨address, port, query, own, eq⟩ :=
    all .passive (ascii "$Search Hub:nora F?F?0?2?test|") (by decide +kernel)
  have bracket : address = bracketed nora.sIP := by
    rcases own with ⟨-, same⟩ | ⟨-, four, -⟩ | ⟨six, -⟩
    · exact same
    · cases four
    · cases six
  have here : (ascii "$Search Hub:nora F?F?0?2?test|")[8]? = some 91 := by
    rw [eq, bracket]
    rfl
  exact absurd here (by decide +kernel)

end FlyHub.Commands
