import FlyHub.Commands.Address
import FlyHub.Lib.Nth

/-!
# The length of a search

A passive search is measured from the second mark that comes after the first four bytes of
its pattern, an active one from the fourth mark after the first nine bytes of its address
and pattern. Only the active one is rejected where there are too few marks.
-/

namespace FlyHub.Commands

open FlyHub.Connection FlyHub.Lib FlyHub.Lists

/-- `?`. -/
def mark : UInt8 := 63

/-- What a pattern searches for, behind its fourth mark. -/
def searchString (pattern : Text) : Text := (behind mark 4 pattern).getD []

/-- `SetShort` takes no limits above this one. -/
def maxSearchLimit : Nat := 999

namespace Hub

def limited (h : Hub) (min max : Nat) : Hub := { h with minSearchLen := min, maxSearchLen := max }

def fits (h : Hub) (len : Nat) : Bool :=
  h.minSearchLen ≤ len && (h.maxSearchLen = 0 || len ≤ h.maxSearchLen)

end Hub

/-- A pattern that a user searches for both passively and actively. -/
structure BothWays (u : Sender) (bMulti : Bool) (pattern : Text) where
  address : Text
  passive : DcCommand
  active : DcCommand
  passive_body : passive.body = ascii "$Search Hub:" ++ u.sNick ++ blank :: pattern
  active_body : active.body = searchWord bMulti ++ address ++ blank :: pattern
  passive_short : passive.commandLen ≤ 512
  active_short : active.commandLen ≤ 512
  /-- The shortest address is `[::1]:1`. -/
  long : 7 ≤ address.length
  noMark : mark ∉ address
  noBlank : blank ∉ address
  noHub : ¬ ascii "Hub:" <+: address

namespace BothWays

variable {u : Sender} {bMulti : Bool} {pattern : Text} (s : BothWays u bMulti pattern) (h : Hub)

/-- The check in the branch for passive searches. -/
def passiveFits : Bool := lengthFits h u s.passive 2 (17 + u.sNick.length) false

/-- The check in the branch for active searches. -/
def activeFits : Bool := lengthFits h u s.active 4 ((if bMulti then 13 else 8) + 9) true

/-- What lies between the place the active search is measured from and that of the passive
one. -/
def lead : Text := (pattern.take 4).drop (8 - s.address.length)

/-- The rules for the length don't depend on the mode. -/
structure SameRules : Prop where
  alike : ∀ min ≤ maxSearchLimit, ∀ max ≤ maxSearchLimit,
    s.passiveFits (h.limited min max) = s.activeFits (h.limited min max)
  shorter : u.noSearchLimits = false → ∀ min ≤ maxSearchLimit, ∀ max ≤ maxSearchLimit,
    (searchString pattern).length < min →
      s.passiveFits (h.limited min max) = false ∧ s.activeFits (h.limited min max) = false

end BothWays

/-! ## The marks -/

section
variable {done t rest : Text} {a : UInt8} {m n count : Nat}

theorem nthMark_mark :
    nthMark (done ++ mark :: t) n (mark :: t).length done.length count =
      if count + 1 = n then (done.length, n)
      else nthMark ((done ++ [mark]) ++ t) n t.length (done ++ [mark]).length (count + 1) := by
  have here : (done ++ mark :: t)[done.length]? = some 63 := by simp [mark]
  rw [List.length_cons, nthMark, here, if_pos rfl, List.append_assoc, List.length_append]
  rfl

theorem nthMark_other (other : a ≠ mark) :
    nthMark (done ++ a :: t) n (a :: t).length done.length count =
      nthMark ((done ++ [a]) ++ t) n t.length (done ++ [a]).length count := by
  have here : (done ++ a :: t)[done.length]? = some a := by simp
  have differs : ¬ some a = some 63 := fun same => other (Option.some.inj same)
  rw [List.length_cons, nthMark, here, if_neg differs, List.append_assoc, List.length_append]
  rfl

/-- The loop finds the mark it looks for. -/
theorem nthMark_some (done : Text) (count : Nat) (found : behind mark (m + 1) t = some rest) :
    nthMark (done ++ t) (count + m + 1) t.length done.length count =
      ((done ++ t).length - rest.length - 1, count + m + 1) := by
  induction t generalizing done m count with
  | nil => cases found
  | cons a t ih =>
    have next : done ++ a :: t = (done ++ [a]) ++ t := by simp
    rw [behind] at found
    split at found
    · rename_i isMark
      subst isMark
      rw [nthMark_mark]
      cases m with
      | zero =>
        rw [behind_zero] at found
        cases found
        rw [if_pos rfl, List.length_append, List.length_cons]
        congr 1
        omega
      | succ m =>
        have sum : count + (m + 1) + 1 = count + 1 + m + 1 := by omega
        rw [if_neg (by omega), next, sum]
        exact ih _ _ found
    · rename_i other
      rw [nthMark_other other, next]
      exact ih _ _ found

/-- With too few marks the loop goes to the end. -/
theorem nthMark_none (done : Text) (count : Nat) (missing : behind mark (m + 1) t = none) :
    nthMark (done ++ t) (count + m + 1) t.length done.length count =
      ((done ++ t).length, count + t.count mark) := by
  induction t generalizing done m count with
  | nil => simp [nthMark]
  | cons a t ih =>
    have next : done ++ a :: t = (done ++ [a]) ++ t := by simp
    rw [behind] at missing
    split at missing
    · rename_i isMark
      subst isMark
      rw [nthMark_mark, List.count_cons_self]
      cases m with
      | zero =>
        rw [behind_zero] at missing
        cases missing
      | succ m =>
        have sum : count + (m + 1) + 1 = count + 1 + m + 1 := by omega
        have total : count + (t.count mark + 1) = count + 1 + t.count mark := by omega
        rw [if_neg (by omega), next, sum, total]
        exact ih _ _ missing
    · rename_i other
      rw [nthMark_other other, next, List.count_cons_of_ne other]
      exact ih _ _ missing

end

/-! ## The length -/

section
variable {h : Hub} {u : Sender} {c : DcCommand} {n start place : Nat} {rest : Text}

theorem searchLen_inside (short : c.commandLen ≤ 512) (inside : place + 2 ≤ c.commandLen) :
    (searchLen c place).toNat = c.commandLen - 2 - place := by
  have len : (UInt32.ofNat c.commandLen).toNat = c.commandLen :=
    UInt32.toNat_ofNat_of_lt' (by simp [UInt32.size]; omega)
  have place_ : (UInt32.ofNat place).toNat = place :=
    UInt32.toNat_ofNat_of_lt' (by simp [UInt32.size]; omega)
  rw [searchLen, UInt32.toNat_sub, UInt32.toNat_sub, len, place_]
  simp
  omega

/-- Past the end the length wraps around. -/
theorem searchLen_past (short : c.commandLen ≤ 512) (past : c.commandLen ≤ place)
    (near : place ≤ 2048) : maxSearchLimit < (searchLen c place).toNat := by
  have len : (UInt32.ofNat c.commandLen).toNat = c.commandLen :=
    UInt32.toNat_ofNat_of_lt' (by simp [UInt32.size]; omega)
  have place_ : (UInt32.ofNat place).toNat = place :=
    UInt32.toNat_ofNat_of_lt' (by simp [UInt32.size]; omega)
  rw [searchLen, UInt32.toNat_sub, UInt32.toNat_sub, len, place_]
  simp [maxSearchLimit]
  omega

/-- Without limits every length fits. -/
theorem lengthFits_eq (exempt : u.noSearchLimits = false) {marks count : Nat} {all : Bool}
    (at_ : nthMark c.sCommand marks (c.commandLen - start) start 0 = (place, count)) :
    lengthFits h u c marks start all =
      if h.minSearchLen = 0 ∧ h.maxSearchLen = 0 then true
      else (!all || count = marks) && h.fits (searchLen c place).toNat := by
  rw [lengthFits, at_, exempt]
  simp [Hub.fits, Bool.and_assoc]

theorem fits_unlimited (unlimited : h.minSearchLen = 0 ∧ h.maxSearchLen = 0) (len : Nat) :
    h.fits len = true := by
  simp [Hub.fits, unlimited.1, unlimited.2]

/-- With the marks in it, a search is measured by what is behind the last one. -/
theorem lengthFits_found (exempt : u.noSearchLimits = false) (short : c.commandLen ≤ 512)
    (found : behind mark (n + 1) (c.body.drop start) = some rest) (all : Bool) :
    lengthFits h u c (n + 1) start all = h.fits rest.length := by
  have place := (behind_cons_suffix found).length_le
  rw [List.length_cons, List.length_drop] at place
  have at_ : nthMark c.sCommand (n + 1) (c.commandLen - start) start 0 =
      (c.commandLen - rest.length - 2, n + 1) := by
    have whole : c.sCommand = c.body.take start ++ (c.body.drop start ++ [pipe]) := by
      rw [DcCommand.sCommand, ← List.append_assoc, List.take_append_drop]
    have left : c.commandLen - start = (c.body.drop start ++ [pipe]).length := by
      simp [DcCommand.commandLen]
      omega
    have done : start = (c.body.take start).length := by simp; omega
    have behind_ : behind mark (n + 1) (c.body.drop start ++ [pipe]) = some (rest ++ [pipe]) := by
      rw [behind_concat (by decide), found]
      rfl
    have run := nthMark_some (c.body.take start) 0 behind_
    rw [← whole, ← left, ← done, Nat.zero_add] at run
    rw [run, DcCommand.sCommand, DcCommand.commandLen]
    simp
    omega
  rw [lengthFits_eq exempt at_]
  split
  · rename_i unlimited
    exact (fits_unlimited unlimited _).symm
  · have inside : c.commandLen - rest.length - 2 + 2 ≤ c.commandLen := by
      rw [DcCommand.commandLen]
      omega
    rw [searchLen_inside short inside]
    have len : c.commandLen - 2 - (c.commandLen - rest.length - 2) = rest.length := by
      rw [DcCommand.commandLen]
      omega
    rw [len]
    simp

/-- With too few marks, the loop leaves the command behind. -/
theorem nthMark_past (missing : behind mark (n + 1) (c.body.drop start) = none) :
    ∃ place count, nthMark c.sCommand (n + 1) (c.commandLen - start) start 0 = (place, count) ∧
      count ≠ n + 1 ∧ c.commandLen ≤ place ∧ place ≤ c.commandLen + start := by
  by_cases inside : start ≤ c.body.length
  · have whole : c.sCommand = c.body.take start ++ (c.body.drop start ++ [pipe]) := by
      rw [DcCommand.sCommand, ← List.append_assoc, List.take_append_drop]
    have left : c.commandLen - start = (c.body.drop start ++ [pipe]).length := by
      simp [DcCommand.commandLen]
      omega
    have done : start = (c.body.take start).length := by simp; omega
    have missing' : behind mark (n + 1) (c.body.drop start ++ [pipe]) = none := by
      rw [behind_concat (by decide), missing]
      rfl
    have run := nthMark_none (c.body.take start) 0 missing'
    rw [← whole, ← left, ← done, Nat.zero_add, Nat.zero_add] at run
    have fewer := behind_eq_none missing'
    refine ⟨_, _, run, by omega, ?_, ?_⟩ <;> simp [DcCommand.sCommand, DcCommand.commandLen]
  · have none_ : c.commandLen - start = 0 := by
      rw [DcCommand.commandLen]
      omega
    rw [none_]
    refine ⟨start, 0, rfl, by omega, ?_, ?_⟩
    · rw [DcCommand.commandLen]
      omega
    · omega

theorem lengthFits_missing_all (exempt : u.noSearchLimits = false)
    (missing : behind mark (n + 1) (c.body.drop start) = none)
    (limited : h.minSearchLen ≠ 0 ∨ h.maxSearchLen ≠ 0) :
    lengthFits h u c (n + 1) start true = false := by
  obtain ⟨place, count, at_, few, -⟩ := nthMark_past missing
  rw [lengthFits_eq exempt at_, if_neg (by omega)]
  simp [few]

theorem lengthFits_missing (exempt : u.noSearchLimits = false) (short : c.commandLen ≤ 512)
    (near : start ≤ 1024) (missing : behind mark (n + 1) (c.body.drop start) = none) :
    ∃ len, maxSearchLimit < len ∧ lengthFits h u c (n + 1) start false = h.fits len := by
  obtain ⟨place, count, at_, -, past, close⟩ := nthMark_past missing
  refine ⟨_, searchLen_past short past (by omega), ?_⟩
  rw [lengthFits_eq exempt at_]
  split
  · rename_i unlimited
    exact (fits_unlimited unlimited _).symm
  · rfl

end

/-! ## Both ways -/

namespace BothWays

section
variable {h : Hub} {u : Sender} {bMulti : Bool} {pattern rest : Text} {min max : Nat}
  (s : BothWays u bMulti pattern)

theorem passive_drop : s.passive.body.drop (17 + u.sNick.length) = pattern.drop 4 := by
  have len : (ascii "$Search Hub:" ++ u.sNick ++ [blank]).length = 13 + u.sNick.length := by
    simp [ascii]
    omega
  have whole : s.passive.body = (ascii "$Search Hub:" ++ u.sNick ++ [blank]) ++ pattern := by
    rw [s.passive_body]
    simp
  have places : 17 + u.sNick.length = 13 + u.sNick.length + 4 := by omega
  rw [whole, places, ← List.drop_drop, ← len, List.drop_left]

/-- No mark of the address is counted. -/
theorem active_behind :
    behind mark 4 (s.active.body.drop ((if bMulti then 13 else 8) + 9)) =
      behind mark 4 (pattern.drop (8 - s.address.length)) := by
  have word : (searchWord bMulti).length = if bMulti then 13 else 8 := by cases bMulti <;> rfl
  have split : s.active.body.drop ((if bMulti then 13 else 8) + 9) =
      (s.address ++ [blank]).drop 9 ++ pattern.drop (8 - s.address.length) := by
    have whole : s.active.body = searchWord bMulti ++ ((s.address ++ [blank]) ++ pattern) := by
      rw [s.active_body]
      simp
    rw [whole, ← List.drop_drop, ← word, List.drop_left, List.drop_append, List.length_append,
      List.length_singleton]
    congr 2
    omega
  have clean : ((s.address ++ [blank]).drop 9).count mark = 0 := by
    rw [List.count_eq_zero]
    intro mem
    rcases List.mem_append.mp (List.mem_of_mem_drop mem) with inside | last
    · exact s.noMark inside
    · exact absurd (List.mem_singleton.mp last) (by decide)
  have passed := behind_append (c := mark) (n := 3) (t := pattern.drop (8 - s.address.length))
    ((s.address ++ [blank]).drop 9)
  rw [clean] at passed
  rw [split]
  exact passed

include s in
theorem pattern_short : pattern.length < 512 := by
  have short := s.passive_short
  rw [DcCommand.commandLen, s.passive_body] at short
  simp at short
  omega

include s in
theorem passive_start : 17 + u.sNick.length ≤ 1024 := by
  have short := s.passive_short
  rw [DcCommand.commandLen, s.passive_body] at short
  simp [ascii] at short
  omega

theorem passive_memory : s.passive.memory.drop 8 =
    ascii "Hub:" ++ (u.sNick ++ [blank] ++ (pattern ++ pipe :: 0 :: s.passive.behind)) := by
  rw [DcCommand.memory, DcCommand.sCommand, s.passive_body]
  simp [ascii]

/-- Where no check against floods holds it up, a passive search is queued if it fits. -/
theorem search_passive : search h u s.passive false =
    if h.passes = true ∧ s.passiveFits h = true then [(.passive, s.passive.sCommand)] else [] := by
  have short := s.passive_short
  have long : 10 ≤ s.passive.commandLen := by
    rw [DcCommand.commandLen, s.passive_body]
    simp [ascii]
  have hub : s.passive.matchBytes 8 (ascii "Hub:") = true := by
    rw [DcCommand.matchBytes_iff, s.passive_memory]
    exact List.prefix_append _ _
  have own : s.passive.nickAt 12 u.sNick blank = true := by
    have four : (12 : Nat) = 8 + (ascii "Hub:").length := rfl
    rw [DcCommand.nickAt_iff, four, ← List.drop_drop, s.passive_memory, List.drop_left]
    exact List.prefix_append _ _
  rw [search, passiveSearch, hub, own, passiveFits]
  cases h.passes <;> cases lengthFits h u s.passive 2 (17 + u.sNick.length) false <;>
    simp [Nat.not_lt.mpr long, Nat.not_lt.mpr short]

/-- An active search that doesn't fit is not queued. -/
theorem search_active (unfit : s.activeFits h = false) : search h u s.active bMulti = [] := by
  have active : (!bMulti && s.active.matchBytes 8 (ascii "Hub:")) = false := by
    cases bMulti with
    | true => rfl
    | false =>
      rw [Bool.not_false, Bool.true_and, ← Bool.not_eq_true, DcCommand.matchBytes_iff]
      intro starts
      have memory : s.active.memory.drop 8 =
          s.address ++ (blank :: pattern ++ pipe :: 0 :: s.active.behind) := by
        rw [DcCommand.memory, DcCommand.sCommand, s.active_body]
        simp [searchWord, ascii]
      rw [memory] at starts
      have long := s.long
      exact s.noHub (List.prefix_of_prefix_length_le starts (List.prefix_append _ _)
        (by simp [ascii]; omega))
  have unfit' : lengthFits h u s.active 4 ((if bMulti then 13 else 8) + 9) true = false := unfit
  rw [search, active, activeSearch, unfit']
  simp

theorem passiveFits_found (exempt : u.noSearchLimits = false)
    (found : behind mark 2 (pattern.drop 4) = some rest) : s.passiveFits h = h.fits rest.length :=
  lengthFits_found exempt s.passive_short (by rw [s.passive_drop]; exact found) false

theorem passiveFits_missing (exempt : u.noSearchLimits = false)
    (missing : behind mark 2 (pattern.drop 4) = none) :
    ∃ len, maxSearchLimit < len ∧ s.passiveFits h = h.fits len :=
  lengthFits_missing exempt s.passive_short s.passive_start (by rw [s.passive_drop]; exact missing)

theorem activeFits_found (exempt : u.noSearchLimits = false)
    (found : behind mark 4 (pattern.drop (8 - s.address.length)) = some rest) :
    s.activeFits h = h.fits rest.length :=
  lengthFits_found exempt s.active_short (by rw [s.active_behind]; exact found) true

theorem activeFits_missing (exempt : u.noSearchLimits = false)
    (missing : behind mark 4 (pattern.drop (8 - s.address.length)) = none)
    (limited : h.minSearchLen ≠ 0 ∨ h.maxSearchLen ≠ 0) : s.activeFits h = false :=
  lengthFits_missing_all exempt (by rw [s.active_behind]; exact missing) limited

theorem pattern_drop : pattern.drop (8 - s.address.length) = s.lead ++ pattern.drop 4 := by
  have long := s.long
  obtain one | zero : 8 - s.address.length = 1 ∨ 8 - s.address.length = 0 := by omega
  · rw [lead, one]
    rcases pattern with _ | ⟨a, _ | ⟨b, _ | ⟨c, _ | ⟨d, pattern⟩⟩⟩⟩ <;> rfl
  · rw [lead, zero]
    exact (List.take_append_drop 4 pattern).symm

theorem exempt_fits (exempt : u.noSearchLimits = true) :
    s.passiveFits h = true ∧ s.activeFits h = true := by
  simp [passiveFits, activeFits, lengthFits, exempt]

/-- What both are measured by has the marks of the pattern before it that belong there. -/
theorem searchString_length (marked : s.lead.count mark = 2)
    (found : behind mark 2 (pattern.drop 4) = some rest) :
    rest.length ≤ (searchString pattern).length := by
  obtain ⟨suffix, count⟩ := behind_suffix found
  have sub : s.lead.count mark ≤ (pattern.take 4).count mark :=
    (List.drop_sublist _ _).count_le mark
  have total : pattern.count mark = (pattern.take 4).count mark + (pattern.drop 4).count mark := by
    rw [← List.count_append, List.take_append_drop]
  obtain ⟨string, fourth⟩ : ∃ string, behind mark 4 pattern = some string :=
    behind_of_le (by omega)
  have counted := (behind_suffix fourth).2
  rw [searchString, fourth]
  exact length_le_of_count (behind_cons_suffix fourth) (suffix.trans (List.drop_suffix _ _))
    (by rw [Option.getD_some]; omega)

theorem fits_from (h : Hub) {len : Nat} (le : min ≤ len) : (h.limited min 0).fits len = true := by
  simp [Hub.fits, Hub.limited, le]

theorem fits_above (h : Hub) (len : Nat) : (h.limited (len + 1) 0).fits len = false := by
  have below : ¬ len + 1 ≤ len := by omega
  simp [Hub.fits, Hub.limited, below]

/-- The limits tell two lengths apart unless they are the same. -/
theorem len_eq_of_fits {len len' : Nat} (h : Hub) (short : len ≤ 512)
    (same : ∀ min ≤ maxSearchLimit, ∀ max ≤ maxSearchLimit,
      (h.limited min max).fits len = (h.limited min max).fits len') : len = len' := by
  by_contra differ
  have enough : 513 ≤ maxSearchLimit := by decide
  rcases Nat.lt_or_gt_of_ne differ with less | more
  · have at_ := same (len + 1) (by omega) 0 (by omega)
    rw [fits_above, fits_from h less] at at_
    cases at_
  · have at_ := same (len' + 1) (by omega) 0 (by omega)
    rw [fits_above, fits_from h more] at at_
    cases at_

/-- Without the right to break the limits, patterns with enough marks before and behind the
fourth byte, and only they, are measured in the same way. -/
theorem sameRules_limited (exempt : u.noSearchLimits = false) (h : Hub) :
    s.SameRules h ↔ s.lead.count mark = 2 ∧ 2 ≤ (pattern.drop 4).count mark := by
  have short : pattern.length < 512 := s.pattern_short
  constructor
  · intro rules
    cases active : behind mark 4 (pattern.drop (8 - s.address.length)) with
    | none =>
      -- a passive search is accepted up to some limit or above it
      cases passive : behind mark 2 (pattern.drop 4) with
      | none =>
        obtain ⟨len, long, fits⟩ :=
          s.passiveFits_missing (h := h.limited 1 0) exempt passive
        have rejected :=
          s.activeFits_missing (h := h.limited 1 0) exempt active (.inl Nat.one_ne_zero)
        have alike := rules.alike 1 (by decide) 0 (by decide)
        rw [fits, rejected, fits_from h (by omega)] at alike
        cases alike
      | some rest =>
        have fits := s.passiveFits_found (h := h.limited 0 999) exempt passive
        have rejected :=
          s.activeFits_missing (h := h.limited 0 999) exempt active (.inr (Nat.succ_ne_zero _))
        have alike := rules.alike 0 (by decide) 999 (by decide)
        have le := (behind_suffix passive).1.length_le
        rw [List.length_drop] at le
        have fits_ : rest.length ≤ 999 := by omega
        rw [fits, rejected] at alike
        simp [Hub.fits, Hub.limited, fits_] at alike
    | some rest =>
      have le := (behind_suffix active).1.length_le
      rw [List.length_drop] at le
      cases passive : behind mark 2 (pattern.drop 4) with
      | none =>
        obtain ⟨len, long, fits⟩ :=
          s.passiveFits_missing (h := h.limited (rest.length + 1) 0) exempt passive
        have measured := s.activeFits_found (h := h.limited (rest.length + 1) 0) exempt active
        have limit : maxSearchLimit = 999 := rfl
        have alike := rules.alike (rest.length + 1) (by omega) 0 (by decide)
        rw [fits, measured, fits_above, fits_from h (by omega)] at alike
        cases alike
      | some rest' =>
        have same : rest.length = rest'.length := by
          apply len_eq_of_fits h (by omega)
          intro min minLe max maxLe
          rw [← s.activeFits_found exempt active, ← s.passiveFits_found exempt passive]
          exact (rules.alike min minLe max maxLe).symm
        obtain ⟨suffix, counted⟩ := behind_suffix active
        obtain ⟨suffix', counted'⟩ := behind_suffix passive
        -- both are what is left of the pattern, so they are the same text
        have eq : rest = rest' :=
          (List.suffix_of_suffix_length_le (suffix.trans (List.drop_suffix _ _))
            (suffix'.trans (List.drop_suffix _ _)) same.le).eq_of_length same
        rw [s.pattern_drop, List.count_append, eq] at counted
        omega
  · rintro ⟨marked, enough⟩
    obtain ⟨rest, passive⟩ := behind_of_le enough
    have active : behind mark 4 (pattern.drop (8 - s.address.length)) = some rest := by
      have passed := behind_append (c := mark) (n := 1) (t := pattern.drop 4) s.lead
      rw [marked] at passed
      rw [s.pattern_drop, ← passive]
      exact passed
    constructor
    · intro min _ max _
      rw [s.passiveFits_found exempt passive, s.activeFits_found exempt active]
    · intro _ min _ max _ shorter
      have le := s.searchString_length marked passive
      have rejected : (h.limited min max).fits rest.length = false := by
        have below : ¬ min ≤ rest.length := by omega
        simp [Hub.fits, Hub.limited, below]
      rw [s.passiveFits_found exempt passive, s.activeFits_found exempt active]
      exact ⟨rejected, rejected⟩

/-- Who has the right to break the limits is not measured. -/
theorem sameRules_iff (h : Hub) :
    s.SameRules h ↔ u.noSearchLimits = true ∨
      (s.lead.count mark = 2 ∧ 2 ≤ (pattern.drop 4).count mark) := by
  cases exempt : u.noSearchLimits with
  | true =>
    refine iff_of_true ⟨?_, fun limited => ?_⟩ (.inl rfl)
    · intro min _ max _
      rw [(s.exempt_fits exempt).1, (s.exempt_fits exempt).2]
    · rw [exempt] at limited
      cases limited
  | false =>
    rw [s.sameRules_limited exempt h]
    simp

end

/-- `nora` searches for a text without any mark. -/
def noraMarkless : BothWays nora false (ascii "test") where
  address := ascii "[2001:db8::1]:412"
  passive := ⟨ascii "$Search Hub:nora test", [], by decide +kernel, by decide +kernel, by decide⟩
  active := ⟨ascii "$Search [2001:db8::1]:412 test", [], by decide +kernel, by decide +kernel,
    by decide⟩
  passive_body := by decide +kernel
  active_body := by decide +kernel
  passive_short := by decide
  active_short := by decide
  long := by decide
  noMark := by decide +kernel
  noBlank := by decide +kernel
  noHub := by decide +kernel

/-- The passive search is accepted although nothing of five bytes is searched for, and the
active one is not. -/
theorem markless_accepted :
    noraMarkless.passiveFits (hubOfBob.limited 5 0) = true ∧
      noraMarkless.activeFits (hubOfBob.limited 5 0) = false ∧
      (searchString (ascii "test")).length = 0 := by
  decide +kernel

end BothWays

end FlyHub.Commands
