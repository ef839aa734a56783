import FlyHub.Profile.Table

/-!
# Everybody keeps the profile

As long as no profile is removed, and none is added to a full table, the table and its
count agree and whoever names a profile names the same one all along. A removal takes
the profile out and leaves its entry, empty, at the end of the table.
-/

namespace FlyHub.Profile

open FlyHub.Lib FlyHub.Session

namespace Profiles

/-- The table has as many entries as are counted, and none is empty. -/
structure Sound (s : Profiles) : Prop where
  length : s.table.length = s.count.toNat
  full : ∀ p ∈ s.table, p.isSome = true

/-- The profile that is named by a number. -/
def profileOf (s : Profiles) (p : Int) : Option ProfileItem :=
  if p < 0 then none else s.table[p.toNat]?.join

/-- The registrations name profiles of the table, and so do the users that name any. -/
structure Referred (s : Profiles) : Prop where
  regs : ∀ r ∈ s.regs, r.profile < s.count
  users : ∀ p ∈ s.users, p = -1 ∨ 0 ≤ p ∧ p < s.count.toNat

/-- The profile that a call removes. -/
def removed (s : Profiles) : Event → Option UInt16
  | .removeProfile i => if i < s.count && !s.inUse i then some i else none
  | .removeProfileByName sName =>
    if sName.length = 0 then none
    else
      match indexOfName s.table sName s.count.toNat 0 with
      | some (some i) => if s.inUse (UInt16.ofNat i) then none else some (UInt16.ofNat i)
      | _ => none
  | _ => none

/-- The call adds a profile. -/
def adds (s : Profiles) : Event → Bool
  | .addProfile sName =>
    0 < sName.length && sName.length ≤ 64 && hasName sName s.table = some false && legalName sName
  | _ => false

/-- After the call the table is sound, the place returned for a new profile is its own, and
everybody who did not name a removed profile names the same one as before. -/
structure Kept (s : Profiles) (e : Event) (s' : Profiles) (reply : Option Int) : Prop where
  sound : s'.Sound
  place : ∀ sName i, e = .addProfile sName → reply = some i → 0 ≤ i →
    i = s.table.length ∧ s'.profileOf i = some ⟨sName, fun _ => false⟩
  regs : List.Forall₂ (fun r r' => r'.sNick = r.sNick ∧ (s.removed e ≠ some r.profile →
    s'.profileOf r'.profile.toNat = s.profileOf r.profile.toNat)) s.regs s'.regs
  users : List.Forall₂ (fun (p p' : Int) => (∀ i ∈ s.removed e, p ≠ i.toNat) →
    s'.profileOf p' = s.profileOf p) s.users s'.users

end Profiles

/-- The call comes to its end and keeps everybody's profile. -/
def Keeps : Option Profiles → Event → Prop
  | some s, e => ∃ s' reply, s.exec e = some (s', reply) ∧ s.Kept e s' reply
  | none, _ => False

/-- The call removes no profile, and adds none to a table of 65535. -/
def Harmless : Option Profiles → Event → Prop
  | some s, e => s.removed e = none ∧ (s.adds e = true → s.count ≠ 65535)
  | none, _ => False

section
variable {table : List (Option ProfileItem)} {sName : Text} {s : Profiles}

variable (sName) in
theorem hasName_some (full : ∀ p ∈ table, p.isSome = true) : (hasName sName table).isSome = true := by
  induction table with
  | nil => rfl
  | cons p table ih =>
    cases p with
    | none => exact absurd (full none (by simp)) (by simp)
    | some p =>
      unfold hasName
      split
      · rfl
      · exact ih fun p mem => full p (List.mem_cons_of_mem _ mem)

variable (sName) in
theorem indexOfName_some {n i : Nat} (full : ∀ p ∈ table, p.isSome = true)
    (inside : i + n ≤ table.length) : (indexOfName table sName n i).isSome = true := by
  induction n generalizing i with
  | zero => rfl
  | succ n ih =>
    have here : i < table.length := by omega
    obtain ⟨p, eq⟩ := Option.isSome_iff_exists.mp (full table[i] (List.getElem_mem here))
    rw [indexOfName, List.getElem?_eq_getElem here, eq]
    dsimp only
    split
    · rfl
    · exact ih (by omega)

theorem indexOfName_lt {n i j : Nat} (found : indexOfName table sName n i = some (some j)) :
    j < i + n := by
  induction n generalizing i with
  | zero => cases found
  | succ n ih =>
    unfold indexOfName at found
    split at found
    · split at found
      · obtain rfl := Option.some.inj (Option.some.inj found)
        omega
      · have later := ih found
        omega
    · cases found

theorem swap_some {i j : Nat} (hi : i < table.length) (hj : j < table.length) :
    swap table i j = some ((table.set i table[j]).set j table[i]) := by
  rw [swap, List.getElem?_eq_getElem hi, List.getElem?_eq_getElem hj]

theorem swap_full {i j : Nat} (hi : i < table.length) (hj : j < table.length)
    (full : ∀ p ∈ table, p.isSome = true) :
    ∀ p ∈ (table.set i table[j]).set j table[i], p.isSome = true := by
  intro p mem
  rcases List.mem_or_eq_of_mem_set mem with mem | rfl
  · rcases List.mem_or_eq_of_mem_set mem with mem | rfl
    · exact full p mem
    · exact full _ (List.getElem_mem hj)
  · exact full _ (List.getElem_mem hi)

theorem swap_at {i j k : Nat} (hi : i < table.length) (hj : j < table.length) :
    ((table.set i table[j]).set j table[i])[k]? =
      if k = i then table[j]? else if k = j then table[i]? else table[k]? := by
  by_cases kj : k = j
  · subst kj
    rw [List.getElem?_set_self (by rw [List.length_set]; exact hj)]
    by_cases ki : k = i
    · subst ki
      rw [if_pos rfl, List.getElem?_eq_getElem hj]
    · rw [if_neg ki, if_pos rfl, List.getElem?_eq_getElem hi]
  · rw [List.getElem?_set_ne (Ne.symm kj), if_neg kj]
    by_cases ki : k = i
    · subst ki
      rw [if_pos rfl, List.getElem?_set_self hi, List.getElem?_eq_getElem hj]
    · rw [if_neg ki, List.getElem?_set_ne (Ne.symm ki)]

theorem moveFront_length {n i : Nat} {table' : List (Option ProfileItem)}
    (moved : moveFront n i table = some table') : table'.length = table.length := by
  induction n generalizing i table with
  | zero =>
    obtain rfl := Option.some.inj moved
    rfl
  | succ n ih =>
    unfold moveFront at moved
    split at moved
    · cases moved
    · rw [ih moved, List.length_set, List.length_set]

theorem reset_length {i : Nat} {table' : List (Option ProfileItem)}
    (done : reset table i = some table') : table'.length = table.length := by
  unfold reset at done
  split at done
  · obtain rfl := Option.some.inj done
    exact List.length_set
  · cases done

end

namespace Profiles

section
variable {s s' : Profiles}

/-- A removal leaves the table longer than it counts. -/
theorem removeProfile_length {i : UInt16} {b : Bool} (free : s.inUse i = false)
    (removed : s.removeProfile i = some (s', b)) :
    s'.table.length = s.table.length ∧ s'.count = s.count - 1 := by
  rw [removeProfile, if_neg (by simp [free])] at removed
  simp only [bind, Option.bind_eq_some_iff, pure, Option.some.injEq, Prod.mk.injEq] at removed
  obtain ⟨t₁, first, t₂, second, t₃, third, rfl, -⟩ := removed
  refine ⟨?_, rfl⟩
  show t₃.length = _
  rw [reset_length third, moveFront_length second, reset_length first]

/-- What is renumbered so that it finds its profile again. -/
theorem kept_renumber {e : Event} {reply : Option Int} {reg : UInt16 → UInt16} {user : Int → Int}
    {table : List (Option ProfileItem)}
    (sound : (({ s with table := table } : Profiles).renumber reg user).Sound)
    (noAdd : ∀ sName, e ≠ .addProfile sName)
    (regs : ∀ r ∈ s.regs, table[(reg r.profile).toNat]? = s.table[r.profile.toNat]?)
    (users : ∀ p ∈ s.users, ({ s with table := table } : Profiles).profileOf (user p) = s.profileOf p) :
    s.Kept e (({ s with table := table } : Profiles).renumber reg user) reply := by
  have at_ (s : Profiles) (p : UInt16) : s.profileOf p.toNat = s.table[p.toNat]?.join := by
    rw [profileOf, if_neg (by omega), Int.toNat_natCast]
  refine ⟨sound, fun sName i adds => absurd adds (noAdd sName), ?_, ?_⟩
  · rw [renumber, List.forall₂_map_right_iff, List.forall₂_same]
    intro r mem
    refine ⟨rfl, fun _ => ?_⟩
    rw [at_, at_]
    exact congrArg Option.join (regs r mem)
  · rw [renumber, List.forall₂_map_right_iff, List.forall₂_same]
    intro p mem _
    exact users p mem

theorem kept_refl (sound : s.Sound) {e : Event} {reply : Option Int}
    (refused : ∀ i, reply = some i → i < 0) : s.Kept e s reply := by
  refine ⟨sound, fun sName i _ eq place => ?_, ?_, ?_⟩
  · have negative := refused i eq
    omega
  · rw [List.forall₂_same]
    exact fun r _ => ⟨rfl, fun _ => rfl⟩
  · rw [List.forall₂_same]
    exact fun p _ _ => rfl

theorem profileOf_natCast (s : Profiles) (p : Nat) : s.profileOf p = s.table[p]?.join := by
  rw [profileOf, if_neg (by omega), Int.toNat_natCast]

/-- A profile that is added gets the last place, and nobody else is moved. -/
theorem kept_add (sound : s.Sound) (referred : s.Referred) (sName : Text)
    (room : s.count ≠ 65535) :
    ∃ s', s.createProfile sName = some s' ∧
      s.Kept (.addProfile sName) s' (some (s'.count.toNat - 1)) ∧ s'.Referred := by
  have length := sound.length
  have small := s.count.toNat_lt
  have notLast : s.count.toNat ≠ 65535 := fun eq => room (UInt16.toNat_inj.mp eq)
  have next : (s.count + 1).toNat = s.count.toNat + 1 := by
    rw [UInt16.toNat_add]
    simp only [UInt16.reduceToNat]
    omega
  have some_ : s.count + 1 ≠ 0 := by
    intro zero
    rw [zero] at next
    simp at next
  have old (p : Nat) (lt : p < s.table.length) (new : Option ProfileItem) :
      (s.table ++ [new])[p]? = s.table[p]? := List.getElem?_append_left lt
  refine ⟨{ s with count := s.count + 1, table := s.table ++ [some ⟨sName, fun _ => false⟩] },
    ?_, ⟨?_, ?_, ?_, ?_⟩, ?_⟩
  · rw [createProfile, if_pos]
    simp [some_, next, length]
  · constructor
    · rw [List.length_append, length, next]
      rfl
    · intro p mem
      rcases List.mem_append.mp mem with mem | mem
      · exact sound.full p mem
      · rw [List.mem_singleton] at mem
        rw [mem]
        rfl
  · rintro name i ⟨⟩ ⟨⟩ -
    have place : ((s.count + 1).toNat : Int) - 1 = s.table.length := by
      rw [next, length]
      omega
    dsimp only
    rw [place]
    refine ⟨rfl, ?_⟩
    rw [profileOf_natCast, List.getElem?_concat_length]
    rfl
  · rw [List.forall₂_same]
    intro r mem
    have lt := UInt16.lt_iff_toNat_lt.mp (referred.regs r mem)
    refine ⟨rfl, fun _ => ?_⟩
    rw [profileOf_natCast, profileOf_natCast, old _ (by omega)]
  · rw [List.forall₂_same]
    intro p mem _
    rcases referred.users p mem with rfl | ⟨positive, lt⟩
    · rfl
    · obtain ⟨n, rfl⟩ := Int.eq_ofNat_of_zero_le positive
      rw [profileOf_natCast, profileOf_natCast, old _ (by omega)]
  · constructor
    · intro r mem
      have lt := UInt16.lt_iff_toNat_lt.mp (referred.regs r mem)
      rw [UInt16.lt_iff_toNat_lt, next]
      omega
    · intro p mem
      dsimp only
      rw [next]
      rcases referred.users p mem with none_ | ⟨positive, lt⟩
      · exact .inl none_
      · exact .inr ⟨positive, by omega⟩

/-- Two neighbours change places, and so do their numbers. -/
theorem kept_swap (sound : s.Sound) (referred : s.Referred) {e : Event} {i : Nat}
    (inside : i + 1 < s.count.toNat) (noAdd : ∀ sName, e ≠ .addProfile sName)
    (reg : UInt16 → UInt16) (user : Int → Int)
    (regs : ∀ p : UInt16, p < s.count →
      (reg p).toNat = if p.toNat = i then i + 1 else if p.toNat = i + 1 then i else p.toNat)
    (users : ∀ p : Int,
      user p = if p = i then (i : Int) + 1 else if p = i + 1 then (i : Int) else p) :
    ∃ table, swap s.table i (i + 1) = some table ∧
      s.Kept e (({ s with table := table } : Profiles).renumber reg user) none ∧
      (({ s with table := table } : Profiles).renumber reg user).Referred := by
  have length := sound.length
  have hi : i < s.table.length := by omega
  have hj : i + 1 < s.table.length := by omega
  refine ⟨_, swap_some hi hj, kept_renumber ⟨?_, swap_full hi hj sound.full⟩ noAdd ?_ ?_, ?_, ?_⟩
  · show (List.set _ _ _).length = _
    rw [List.length_set, List.length_set]
    exact length
  · intro r mem
    rw [regs r.profile (referred.regs r mem), swap_at hi hj]
    split
    · rename_i here
      rw [if_neg (by omega), if_pos rfl, here]
    · split
      · rename_i here
        rw [if_pos rfl, here]
      · rfl
  · intro p mem
    rw [users]
    rcases referred.users p mem with rfl | ⟨positive, lt⟩
    · rw [if_neg (by omega), if_neg (by omega)]
      rfl
    · obtain ⟨n, rfl⟩ := Int.eq_ofNat_of_zero_le positive
      split
      · rename_i here
        have place : ((i : Int) + 1) = ((i + 1 : Nat) : Int) := by omega
        have same : n = i := by omega
        rw [place, profileOf_natCast, profileOf_natCast, swap_at hi hj, if_neg (by omega),
          if_pos rfl, same]
      · split
        · rename_i here
          have same : n = i + 1 := by omega
          rw [profileOf_natCast, profileOf_natCast, swap_at hi hj, if_pos rfl, same]
        · rw [profileOf_natCast, profileOf_natCast, swap_at hi hj, if_neg (by omega),
            if_neg (by omega)]
  · intro r mem
    obtain ⟨old, inRegs, rfl⟩ := List.mem_map.mp mem
    have lt := UInt16.lt_iff_toNat_lt.mp (referred.regs old inRegs)
    rw [UInt16.lt_iff_toNat_lt]
    show (reg old.profile).toNat < s.count.toNat
    rw [regs old.profile (referred.regs old inRegs)]
    split
    · omega
    · split <;> omega
  · intro p mem
    obtain ⟨old, inUsers, rfl⟩ := List.mem_map.mp mem
    show user old = -1 ∨ 0 ≤ user old ∧ user old < s.count.toNat
    have valid := referred.users old inUsers
    rw [users]
    split
    · omega
    · split <;> omega

/-- A call that removes nothing and has room keeps everybody's profile. -/
theorem kept_of_harmless (sound : s.Sound) (referred : s.Referred) {e : Event}
    (harmless : Harmless (some s) e) :
    ∃ s' reply, s.exec e = some (s', reply) ∧ s.Kept e s' reply ∧ s'.Referred := by
  obtain ⟨noRemoval, room⟩ := harmless
  have length := sound.length
  have none_ {e : Event} : ∃ s' reply, some (s, none) = some (s', reply) ∧ s.Kept e s' reply ∧
      s'.Referred := ⟨s, none, rfl, kept_refl sound (by simp), referred⟩
  cases e with
  | addProfile sName =>
    rw [exec]
    split
    · exact none_
    · rename_i fits
      simp only [Bool.or_eq_true, decide_eq_true_eq, not_or, Nat.not_lt] at fits
      obtain ⟨named, eq⟩ := Option.isSome_iff_exists.mp (hasName_some sName sound.full)
      cases named with
      | true =>
        refine ⟨s, some (-1), by simp [addProfile, eq], kept_refl sound ?_, referred⟩
        rintro i ⟨⟩
        decide
      | false =>
        cases legal : legalName sName with
        | false =>
          refine ⟨s, some (-2), by simp [addProfile, eq, legal], kept_refl sound ?_, referred⟩
          rintro i ⟨⟩
          decide
        | true =>
          have add : s.adds (.addProfile sName) = true := by
            simp only [adds, eq, legal, Bool.and_eq_true, decide_eq_true_eq, and_true]
            omega
          obtain ⟨s', made, kept, referred'⟩ := kept_add sound referred sName (room add)
          exact ⟨s', _, by simp [addProfile, eq, legal, made], kept, referred'⟩
  | removeProfileByName sName =>
    rw [exec]
    split
    · exact none_
    · rename_i some_
      obtain ⟨found, eq⟩ := Option.isSome_iff_exists.mp
        (indexOfName_some sName (n := s.count.toNat) (i := 0) sound.full (by omega))
      cases found with
      | none =>
        have done : s.removeProfileByName sName = some (s, 0) := by simp [removeProfileByName, eq]
        rw [done]
        exact none_
      | some i =>
        have used : s.inUse (UInt16.ofNat i) = true := by
          simpa [removed, some_, eq] using noRemoval
        have done : s.removeProfileByName sName = some (s, -1) := by
          simp [removeProfileByName, eq, removeProfile, used]
        rw [done]
        exact none_
  | removeProfile i =>
    rw [exec]
    split
    · exact none_
    · rename_i inside
      have used : s.inUse i = true := by
        simpa [removed, UInt16.not_le.mp inside] using noRemoval
      have done : s.removeProfile i = some (s, false) := by simp [removeProfile, used]
      rw [done]
      exact none_
  | moveDown i =>
    rw [exec]
    split
    · exact none_
    · rename_i inside
      have small := s.count.toNat_lt
      obtain ⟨table, swapped, kept, referred'⟩ := kept_swap (e := .moveDown i) sound referred
        (i := i.toNat) (by omega) (by simp)
        (fun p => if p = i then p + 1 else if p.toNat = i.toNat + 1 then p - 1 else p)
        (fun p => if p = i.toNat then p + 1 else if p = i.toNat + 1 then p - 1 else p)
        (by
          intro p lt
          have eq : p = i ↔ p.toNat = i.toNat := UInt16.toNat_inj.symm
          simp only [eq]
          split
          · rw [UInt16.toNat_add]
            simp only [UInt16.reduceToNat]
            omega
          · split
            · have one : (1 : UInt16) ≤ p := by
                rw [UInt16.le_iff_toNat_le]
                simp only [UInt16.reduceToNat]
                omega
              rw [UInt16.toNat_sub_of_le _ _ one]
              simp only [UInt16.reduceToNat]
              omega
            · rfl)
        (by
          intro p
          split
          · omega
          · split <;> omega)
      exact ⟨_, none, by simp [moveProfileDown, swapped], kept, referred'⟩
  | moveUp i =>
    rw [exec]
    split
    · exact none_
    · rename_i inside
      simp only [Bool.or_eq_true, decide_eq_true_eq, not_or, UInt16.not_le] at inside
      obtain ⟨positive, inside⟩ := inside
      have small := s.count.toNat_lt
      have lt := UInt16.lt_iff_toNat_lt.mp inside
      have pos : i.toNat ≠ 0 := fun zero => positive (UInt16.toNat_inj.mp zero)
      obtain ⟨n, next⟩ := Nat.exists_eq_succ_of_ne_zero pos
      obtain ⟨table, swapped, kept, referred'⟩ := kept_swap (e := .moveUp i) sound referred
        (i := n) (by omega) (by simp)
        (fun p => if p = i then p - 1 else if p.toNat = i.toNat - 1 then p + 1 else p)
        (fun p => if p = i.toNat then p - 1 else if p = i.toNat - 1 then p + 1 else p)
        (by
          intro p lt
          have eq : p = i ↔ p.toNat = i.toNat := UInt16.toNat_inj.symm
          simp only [eq]
          split
          · have one : (1 : UInt16) ≤ p := by
              rw [UInt16.le_iff_toNat_le]
              simp only [UInt16.reduceToNat]
              omega
            rw [UInt16.toNat_sub_of_le _ _ one, if_neg (by omega), if_pos (by omega)]
            simp only [UInt16.reduceToNat]
            omega
          · split
            · rw [UInt16.toNat_add, if_pos (by omega)]
              simp only [UInt16.reduceToNat]
              omega
            · rw [if_neg (by omega), if_neg (by omega)])
        (by
          intro p
          split
          · rw [if_neg (by omega), if_pos (by omega)]
            omega
          · split
            · rw [if_pos (by omega)]
              omega
            · rw [if_neg (by omega), if_neg (by omega)])
      have before : i.toNat - 1 = n := by omega
      have place : i.toNat = n + 1 := next
      refine ⟨_, none, ?_, kept, referred'⟩
      rw [moveProfileUp, before, place, swapped]
      simp

/-- A removal leaves an empty entry behind. -/
theorem not_sound_of_removed (sound : s.Sound) {e : Event} {i : UInt16} {reply : Option Int}
    (gone : s.removed e = some i) (done : s.exec e = some (s', reply)) : ¬ s'.Sound := by
  have shorter {j : UInt16} {b : Bool} (inside : j < s.count) (free : s.inUse j = false)
      (removed : s.removeProfile j = some (s', b)) : ¬ s'.Sound := by
    intro sound'
    obtain ⟨length, count⟩ := removeProfile_length free removed
    have lt := UInt16.lt_iff_toNat_lt.mp inside
    have one : (1 : UInt16) ≤ s.count := by
      rw [UInt16.le_iff_toNat_le]
      simp only [UInt16.reduceToNat]
      omega
    have less := UInt16.toNat_sub_of_le _ _ one
    have counted := sound'.length
    rw [length, sound.length, count, less] at counted
    simp only [UInt16.reduceToNat] at counted
    omega
  cases e with
  | addProfile | moveDown | moveUp => cases gone
  | removeProfile j =>
    simp only [removed, Option.ite_none_right_eq_some, Bool.and_eq_true, decide_eq_true_eq,
      Bool.not_eq_true'] at gone
    obtain ⟨⟨inside, free⟩, -⟩ := gone
    rw [exec, if_neg (UInt16.not_le.mpr inside), Option.map_eq_some_iff] at done
    obtain ⟨⟨s₁, b⟩, removed, eq⟩ := done
    obtain rfl : s₁ = s' := congrArg Prod.fst eq
    exact shorter inside free removed
  | removeProfileByName sName =>
    simp only [removed] at gone
    split at gone
    · cases gone
    · rename_i some_
      split at gone
      · rename_i j found
        split at gone
        · cases gone
        · rename_i free
          have lt := indexOfName_lt found
          have small := s.count.toNat_lt
          have same : (UInt16.ofNat j).toNat = j :=
            UInt16.toNat_ofNat_of_lt' (Nat.lt_trans (by omega) small)
          have inside : UInt16.ofNat j < s.count := by
            rw [UInt16.lt_iff_toNat_lt, same]
            omega
          rw [exec, if_neg some_, Option.map_eq_some_iff] at done
          obtain ⟨⟨s₁, r⟩, byName, eq⟩ := done
          obtain rfl : s₁ = s' := congrArg Prod.fst eq
          simp only [removeProfileByName, found, bind, Option.bind_some, pure,
            Option.bind_eq_some_iff] at byName
          obtain ⟨⟨s₂, b⟩, removed, eq⟩ := byName
          obtain rfl : s₂ = s₁ := congrArg Prod.fst (Option.some.inj eq)
          exact shorter inside (by simpa using free) removed
      · cases gone

/-- The count goes round, and the new profile is looked for before the table. -/
theorem exec_full {e : Event} (adds : s.adds e = true) (all : s.count = 65535) :
    s.exec e = none := by
  cases e with
  | removeProfileByName | removeProfile | moveDown | moveUp => cases adds
  | addProfile sName =>
    simp only [Profiles.adds, Bool.and_eq_true, decide_eq_true_eq] at adds
    obtain ⟨⟨⟨positive, short⟩, new⟩, legal⟩ := adds
    have zero : (65535 : UInt16) + 1 = 0 := rfl
    have fits : ¬ (decide (sName.length = 0) || decide (64 < sName.length)) = true := by
      simp only [Bool.or_eq_true, decide_eq_true_eq]
      omega
    rw [exec, if_neg fits, addProfile, new]
    simp [legal, createProfile, all, zero]

theorem keeps_iff (sound : s.Sound) (referred : s.Referred) (e : Event) :
    Keeps (some s) e ↔ Harmless (some s) e := by
  constructor
  · rintro ⟨s', reply, done, kept⟩
    constructor
    · cases gone : s.removed e with
      | none => rfl
      | some i => exact absurd kept.sound (not_sound_of_removed sound gone done)
    · intro adds all
      rw [exec_full adds all] at done
      cases done
  · intro harmless
    obtain ⟨s', reply, done, kept, -⟩ := kept_of_harmless sound referred harmless
    exact ⟨s', reply, done, kept⟩

end

end Profiles

/-- Everybody keeps the profile all along a run exactly if no call removes a profile, or
adds one to a table of 65535. -/
theorem profiles_kept_iff {s : Profiles} (sound : s.Sound) (referred : s.Referred)
    (es : List Event) : Allowed step Keeps (some s) es ↔ Allowed step Harmless (some s) es := by
  refine allowed_congr (fun o => ∃ s, o = some s ∧ s.Sound ∧ s.Referred) ?_ ?_ ⟨s, rfl, sound, referred⟩
  · rintro _ e ⟨s, rfl, sound, referred⟩
    exact Profiles.keeps_iff sound referred e
  · rintro _ e ⟨s, rfl, sound, referred⟩ harmless
    obtain ⟨s', reply, done, kept, referred'⟩ :=
      Profiles.kept_of_harmless sound referred harmless
    exact ⟨s', by simp [step, done], kept.sound, referred'⟩

/-- The hub with its four profiles, and nobody registered. -/
def fourProfiles : Profiles where
  table := [some ⟨ascii "Master", fun _ => true⟩, some ⟨ascii "Operator", fun _ => true⟩,
    some ⟨ascii "VIP", fun _ => false⟩, some ⟨ascii "Reg", fun _ => false⟩]
  count := 4
  regs := []
  users := [-1]
  running := true
  offline := by simp

theorem fourProfiles_sound : fourProfiles.Sound ∧ fourProfiles.Referred := by
  refine ⟨⟨rfl, ?_⟩, ?_, ?_⟩
  · simp [fourProfiles]
  · simp [fourProfiles]
  · simp [fourProfiles]

/-- A profile is added and moved up. -/
theorem fourProfiles_kept :
    Allowed step Keeps (some fourProfiles) [.addProfile (ascii "Guest"), .moveUp 4] := by
  refine (profiles_kept_iff fourProfiles_sound.1 fourProfiles_sound.2 _).mpr ⟨⟨rfl, ?_⟩, ?_, trivial⟩
  · intro _
    decide
  · have added : step (some fourProfiles) (.addProfile (ascii "Guest")) =
        fourProfiles.createProfile (ascii "Guest") := rfl
    rw [added]
    exact ⟨rfl, fun adds => nomatch adds⟩

/-- The last profile is removed. -/
theorem removal_leaves_entry : ¬ ∀ (s : Profiles) (es : List Event), s.Sound → s.Referred →
    Allowed step Keeps (some s) es := by
  intro all
  obtain ⟨⟨s', reply, done, kept⟩, -⟩ :=
    all fourProfiles [.removeProfile 3] fourProfiles_sound.1 fourProfiles_sound.2
  exact Profiles.not_sound_of_removed fourProfiles_sound.1 (i := 3) rfl done kept.sound

end FlyHub.Profile
