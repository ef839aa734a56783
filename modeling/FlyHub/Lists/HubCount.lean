import FlyHub.Lists.History

/-!
# How many hubs a tag announces

The part `H:` of a tag gives the hubs of a user as three counts: where he is a normal user,
where he is registered, and where he is an operator. `m_ui32Hubs` is their sum in 32 bits. A
tag may have more than one such part, and the last one is taken.
-/

namespace FlyHub.Lists

/-- The number a text begins with. -/
def leadingNumber (s : Text) : Nat := number (s.takeWhile isDigit)

/-- What follows `H:`. -/
def hubsText (part : Text) : Option Text :=
  if part.head? = some 72 ∧ part[1]? = some 58 then some (part.drop 2) else none

/-- The three counts of `a/b/c`. -/
def hubFields (sHubs : Text) : Option (Text × Text × Text) :=
  match sHubs.tail.splitOn 47 with
  | p :: reg :: op :: _ => some (sHubs.take 1 ++ p, reg, op)
  | _ => none

/-- The counts that a part of a tag gives. -/
def hubCounts (part : Text) : List Nat :=
  match (hubsText part).bind hubFields with
  | some (normal, reg, op) => [leadingNumber normal, leadingNumber reg, leadingNumber op]
  | none => []

/-- How many hubs a tag announces up to a part, as a natural number, and if the sum of the
counts that was taken last does not fit into 32 bits. -/
def announce (before : Nat × Bool) (part : Text) : Nat × Bool :=
  match hubsText part with
  | none => before
  | some sHubs =>
    match hubFields sHubs with
    | some (normal, reg, op) =>
      if normal = [] ∨ reg = [] ∨ op = [] then (max 1 before.1, before.2)
      else
        let sum := leadingNumber normal + leadingNumber reg + leadingNumber op
        (max 1 sum, 4294967296 ≤ sum)
    | none =>
      if (sHubs.tail.splitOn 47).length = 1 then
        (((safeStoi sHubs).getD 0 % 4294967296).toNat, false)
      else (max 1 before.1, before.2)

def announced (parts : List Text) : Nat × Bool := parts.foldl announce (0, false)

/-! ## What one part does -/

/-- The hubs are those that were announced; or their sum has wrapped, and a count is missed. -/
structure Tracks (hubs : UInt32) (before : Nat × Bool) (counts : List Nat) : Prop where
  told : before.2 = false → hubs.toNat = before.1
  missed : before.2 = true → hubs ≠ 0 ∧ ∃ n ∈ counts, hubs.toNat < n

section
variable {sHubs part : Text} {f : InfoFields} {hubs : UInt32} {counts : List Nat}
  {before : Nat × Bool}

theorem safeStoi_numbers {s : Text} {i : Int} (some_ : s ≠ []) (digits : haveOnlyNumbers s = true)
    (read : safeStoi s = some i) : i = leadingNumber s ∧ leadingNumber s ≤ 2147483647 := by
  obtain ⟨c, rest, rfl⟩ := List.exists_cons_of_ne_nil some_
  have first : isDigit c = true := (List.all_eq_true.mp digits) c List.mem_cons_self
  have no_sign : c ≠ 45 := by
    rintro rfl
    cases first
  have all : (c :: rest).takeWhile isDigit = c :: rest :=
    List.takeWhile_eq_self_iff.mpr (List.all_eq_true.mp digits)
  have unsigned : ¬(c :: rest).head? = some 45 := by simpa using no_sign
  unfold safeStoi at read
  simp only [if_neg unsigned, all] at read
  rw [leadingNumber, all]
  split at read
  · cases read
  · split at read
    · cases read
      rename_i bounds
      exact ⟨rfl, by omega⟩
    · cases read

/-- A part without three counts leaves the hubs, but for no hubs at all. -/
theorem Tracks.fake (tracks : Tracks hubs before counts) (given : List Nat) :
    Tracks (if hubs = 0 then 1 else hubs) (max 1 before.1, before.2) (counts ++ given) := by
  constructor
  · intro fits
    have told := tracks.told fits
    split
    · rename_i zero
      rw [zero] at told
      change (1 : Nat) = max 1 before.1
      rw [← told]
      rfl
    · rename_i nonzero
      have positive : hubs.toNat ≠ 0 := fun zero => nonzero (UInt32.toNat_inj.mp zero)
      dsimp only
      omega
  · intro wrapped
    obtain ⟨nonzero, n, mem, less⟩ := tracks.missed wrapped
    rw [if_neg nonzero]
    exact ⟨nonzero, n, List.mem_append_left _ mem, less⟩

/-- Three counts are added; where the sum does not fit, the first count is more than what is
left. -/
theorem tracks_sum {a b c : Nat} (ha : a ≤ 2147483647) (hb : b ≤ 2147483647) (hc : c ≤ 2147483647)
    (sum : hubs.toNat = (a + b + c) % 4294967296) :
    Tracks (if hubs = 0 then 1 else hubs) (max 1 (a + b + c), 4294967296 ≤ a + b + c)
      (counts ++ [a, b, c]) := by
  have first : a ∈ counts ++ [a, b, c] := by simp
  have zero_iff : hubs = 0 ↔ hubs.toNat = 0 := by
    rw [← UInt32.toNat_inj]
    rfl
  constructor
  · intro fits
    have small : ¬4294967296 ≤ a + b + c := of_decide_eq_false fits
    split
    · rename_i zero
      have := zero_iff.mp zero
      change (1 : Nat) = max 1 (a + b + c)
      omega
    · rename_i nonzero
      have positive : hubs.toNat ≠ 0 := fun zero => nonzero (zero_iff.mpr zero)
      dsimp only
      omega
  · intro wrapped
    have large : 4294967296 ≤ a + b + c := of_decide_eq_true wrapped
    split
    · rename_i zero
      have := zero_iff.mp zero
      refine ⟨by decide, a, first, ?_⟩
      change 1 < a
      omega
    · rename_i nonzero
      exact ⟨nonzero, a, first, by omega⟩

theorem ofInt_toNat (i : Int) : (UInt32.ofInt i).toNat = (i % 4294967296).toNat := by
  have range : (i % 4294967296).toNat < 4294967296 := by omega
  exact UInt32.toNat_ofNat_of_lt range

theorem sum_toNat {i j k : Int} {a b c : Nat} (hi : i = a) (hj : j = b) (hk : k = c)
    (ha : a ≤ 2147483647) (hb : b ≤ 2147483647) (hc : c ≤ 2147483647) :
    (UInt32.ofInt i + UInt32.ofInt j + UInt32.ofInt k).toNat = (a + b + c) % 4294967296 := by
  rw [UInt32.toNat_add, UInt32.toNat_add, ofInt_toNat, ofInt_toNat, ofInt_toNat]
  simp only [Nat.reducePow]
  omega

/-- One part `H:` that is not bad. -/
theorem readHubs_tracks (tracks : Tracks f.hubs before counts) (text : hubsText part = some sHubs)
    (good : readHubs sHubs ≠ .bad) :
    Tracks (f.assign (readHubs sHubs)).hubs (announce before part) (counts ++ hubCounts part) := by
  unfold announce hubCounts hubFields
  rw [text]
  simp only [Option.bind_some]
  unfold readHubs at good ⊢
  cases split : sHubs.tail.splitOn 47 with
  | nil => exact tracks.fake _
  | cons p rest =>
    cases rest with
    | nil =>
      -- `H:n`
      rw [split] at good
      dsimp only at good ⊢
      cases read : safeStoi sHubs with
      | none =>
        rw [read] at good
        exact absurd rfl good
      | some n => exact ⟨fun _ => ofInt_toNat n, nofun⟩
    | cons reg rest =>
      cases rest with
      | nil => exact tracks.fake _
      | cons op rest =>
        rw [split] at good
        dsimp only at good ⊢
        by_cases empty : sHubs.take 1 ++ p = [] ∨ reg = [] ∨ op = []
        · rw [if_pos empty, if_pos empty]
          exact tracks.fake _
        · rw [if_neg empty] at good ⊢
          rw [if_neg empty]
          obtain ⟨some_normal, some_reg, some_op⟩ : sHubs.take 1 ++ p ≠ [] ∧ reg ≠ [] ∧ op ≠ [] := by
            simpa only [not_or] using empty
          generalize sHubs.take 1 ++ p = normal at good some_normal ⊢
          by_cases digits : (haveOnlyNumbers normal && haveOnlyNumbers reg && haveOnlyNumbers op) = true
          · rw [digits] at good ⊢
            simp only [Bool.not_true, Bool.false_eq_true, if_false] at good ⊢
            simp only [Bool.and_eq_true] at digits
            cases readN : safeStoi normal with
            | none =>
              rw [readN] at good
              exact absurd rfl good
            | some n =>
              cases readR : safeStoi reg with
              | none =>
                rw [readN, readR] at good
                exact absurd rfl good
              | some r =>
                cases readO : safeStoi op with
                | none =>
                  rw [readN, readR, readO] at good
                  exact absurd rfl good
                | some o =>
                  obtain ⟨eqN, leN⟩ := safeStoi_numbers some_normal digits.1.1 readN
                  obtain ⟨eqR, leR⟩ := safeStoi_numbers some_reg digits.1.2 readR
                  obtain ⟨eqO, leO⟩ := safeStoi_numbers some_op digits.2 readO
                  have sum := sum_toNat eqN eqR eqO leN leR leO
                  have tracked := @tracks_sum _ counts _ _ _ leN leR leO sum
                  dsimp only
                  split
                  · rename_i nonzero
                    rw [if_neg nonzero] at tracked
                    exact tracked
                  · exact tracked
          · rw [Bool.not_eq_true] at digits
            rw [digits] at good
            exact absurd rfl good

theorem readPart_hubs {o : InfoSender} {hasVersion : Bool} {next : UInt8} (rest : Text)
    (good : readPart o hasVersion (72 :: 58 :: rest) next ≠ .bad) :
    readPart o hasVersion (72 :: 58 :: rest) next = readHubs rest := by
  have colon : ¬((72 :: 58 :: rest : Text) ++ [0, next])[1]? ≠ some 58 := by simp
  unfold readPart at good ⊢
  simp only [if_neg colon, List.head?_cons, Option.some.injEq] at good ⊢
  simp only [show ¬(72 : UInt8) = 86 by decide, show ¬(72 : UInt8) = 77 by decide, if_false,
    if_true] at good ⊢
  split at good
  · exact absurd rfl good
  · rename_i long
    rw [if_neg long]
    rfl

theorem readLimit_hubs {limit : UInt32 → TagPart} (keeps : ∀ n, (f.assign (limit n)).hubs = f.hubs)
    (part : Text) : (f.assign (readLimit limit part)).hubs = f.hubs := by
  unfold readLimit
  split
  · rfl
  · split
    · rfl
    · exact keeps _

/-- Another part says nothing of the hubs. -/
theorem readPart_other {o : InfoSender} {hasVersion : Bool} {next : UInt8}
    (head : part.head? ≠ some 72) :
    (f.assign (readPart o hasVersion part next)).hubs = f.hubs := by
  unfold readPart
  dsimp only
  by_cases colon : (part ++ [0, next])[1]? ≠ some 58
  · rw [if_pos colon]
    rfl
  rw [if_neg colon]
  by_cases version : part.head? = some 86
  · rw [if_pos version]
    split <;> rfl
  rw [if_neg version]
  by_cases mode : part.head? = some 77
  · rw [if_pos mode]
    by_cases both : (o.ipv6 && o.ip64) = true
    · rw [if_pos both]
      split <;> rfl
    · rw [if_neg both]
      split <;> rfl
  rw [if_neg mode, if_neg head]
  by_cases slots : part.head? = some 83
  · rw [if_pos slots]
    split
    · rfl
    · exact readLimit_hubs (fun _ => rfl) part
  rw [if_neg slots]
  by_cases oLimit : part.head? = some 79
  · rw [if_pos oLimit]
    exact readLimit_hubs (fun _ => rfl) part
  rw [if_neg oLimit]
  by_cases lLimit : part.head? = some 66 ∨ part.head? = some 76
  · rw [if_pos lLimit]
    exact readLimit_hubs (fun _ => rfl) part
  rw [if_neg lLimit]
  by_cases dLimit : part.head? = some 68
  · rw [if_pos dLimit]
    exact readLimit_hubs (fun _ => rfl) part
  · rw [if_neg dLimit]
    rfl

/-- One part of a tag that is not bad. -/
theorem readPart_tracks (tracks : Tracks f.hubs before counts) {o : InfoSender} {hasVersion : Bool}
    {next : UInt8} (good : readPart o hasVersion part next ≠ .bad) :
    Tracks (f.assign (readPart o hasVersion part next)).hubs (announce before part)
      (counts ++ hubCounts part) := by
  by_cases head : part.head? = some 72
  · obtain ⟨tail, rfl⟩ : ∃ tail, part = 72 :: tail := List.head?_eq_some_iff.mp head
    cases tail with
    | nil => exact absurd rfl good
    | cons c rest =>
      by_cases colon : c = 58
      · subst colon
        have read := readPart_hubs rest good
        rw [read] at good ⊢
        exact readHubs_tracks tracks rfl good
      · have bad : readPart o hasVersion (72 :: c :: rest) next = .bad :=
          if_pos (by simpa using colon)
        exact absurd bad good
  · have text : hubsText part = none := if_neg fun both => head both.1
    have none_given : hubCounts part = [] := by
      rw [hubCounts, text]
      rfl
    rw [readPart_other head, none_given, List.append_nil, announce, text]
    exact tracks

/-- All the parts of a tag without a bad one. -/
theorem readParts_tracks {o : InfoSender} {parts : List (Text × UInt8)} {hasVersion : Bool}
    (good : ∀ r ∈ readParts o hasVersion parts, r.part ≠ .bad) (tracks : Tracks f.hubs before counts) :
    Tracks ((readParts o hasVersion parts).foldl (fun f r => f.assign r.part) f).hubs
      ((parts.map Prod.fst).foldl announce before)
      (counts ++ (parts.map Prod.fst).flatMap hubCounts) := by
  induction parts generalizing hasVersion f before counts with
  | nil => simpa [readParts] using tracks
  | cons head parts ih =>
    obtain ⟨part, next⟩ := head
    rw [readParts] at good ⊢
    have first := good _ List.mem_cons_self
    have tracked := readPart_tracks tracks first
    rw [List.foldl_cons, List.map_cons, List.foldl_cons, List.flatMap_cons, ← List.append_assoc]
    cases read : readPart o hasVersion part next with
    | bad => exact absurd read first
    | version v =>
      simp only [read] at good tracked ⊢
      exact ih (fun r mem => good r (List.mem_cons_of_mem _ mem)) tracked
    | mode | modes | hubs | oldHubs | fakeHubs | slots | oLimit | lLimit | dLimit | other =>
      simp only [read] at good tracked ⊢
      exact ih (fun r mem => good r (List.mem_cons_of_mem _ mem)) tracked

end

/-! ## What a MyINFO does -/

/-- The parts of the tag in a description. -/
def tagParts (part : Text) : Option (List Text) :=
  if part.getLast? ≠ some 62 then none
  else
    match lastIdxOf? 60 part with
    | none => none
    | some i => (tagBody (part.drop i)).map Prod.snd

/-- The parts of the tag in a MyINFO. -/
def InfoSender.tagTexts (o : InfoSender) (sCommand : Text) : Option (List Text) :=
  match closedParts 5 (sCommand.drop (14 + o.sNick.length)).dropLast with
  | [] => none
  | part :: _ => tagParts part

/-- The "hub checker" of `ProcessRules` refuses the user. -/
def InfoFields.overMaxHubs (f : InfoFields) (noMaxHubCheck : Bool) (maxHubsLimit : UInt32) : Bool :=
  f.tag ≠ [] && !noMaxHubCheck && maxHubsLimit ≠ 0 && maxHubsLimit < f.hubs

/-- No count that the tag gives is more than the hubs, and who is over the limit with one is
refused. -/
structure CountsAll (parts : List Text) (f : InfoFields) : Prop where
  counted : ∀ part ∈ parts, ∀ n ∈ hubCounts part, n ≤ f.hubs.toNat
  refused : ∀ maxHubsLimit : UInt32, maxHubsLimit ≠ 0 →
    (∃ part ∈ parts, ∃ n ∈ hubCounts part, maxHubsLimit.toNat < n) →
      f.overMaxHubs false maxHubsLimit = true

section
variable {o : InfoSender} {u v : TaggedUser} {parts : List Text} {f : InfoFields} {part c : Text}

theorem withNext_texts (parts : List Text) : (withNext parts).map Prod.fst = parts := by
  induction parts with
  | nil => rfl
  | cons part parts ih =>
    cases parts with
    | nil => rfl
    | cons q parts => rw [withNext, List.map_cons, ih]

theorem foldl_assign_tag (rs : List Reading) (f : InfoFields) :
    (rs.foldl (fun f r => f.assign r.part) f).tag = f.tag := by
  induction rs generalizing f with
  | nil => rfl
  | cons r rs ih =>
    rw [List.foldl_cons, ih]
    unfold InfoFields.assign
    cases r.part with
    | fakeHubs counted => cases counted <;> rfl
    | bad | version | mode | modes | hubs | oldHubs | slots | oLimit | lLimit | dLimit | other => rfl

theorem tagBody_some {tag client : Text} (body : tagBody tag = some (client, parts)) : tag ≠ [] := by
  rintro rfl
  cases body

/-- A tag that is accepted leaves the hubs of its parts. -/
theorem readDescription_hubs (noVersion : u.fields.tagVersion = []) (zero : u.fields.hubs = 0)
    (texts : tagParts part = some parts)
    (good : badReadings (readParts o false (withNext parts)) = false) :
    Tracks (u.readDescription o part).fields.hubs (announced parts) (parts.flatMap hubCounts) ∧
      (u.readDescription o part).fields.tag ≠ [] := by
  unfold tagParts at texts
  split at texts
  · cases texts
  · rename_i last
    cases at_ : lastIdxOf? 60 part with
    | none =>
      rw [at_] at texts
      cases texts
    | some i =>
      rw [at_] at texts
      obtain ⟨⟨client, parts'⟩, body, rfl⟩ := Option.map_eq_some_iff.mp texts
      have some_ : part ≠ [] := by
        rintro rfl
        cases at_
      have no_bad : ∀ r ∈ readParts o false (withNext parts'), r.part ≠ .bad := by
        have none_bad := (Bool.or_eq_false_iff.mp good).1
        simpa using none_bad
      have tracked : ∀ f : InfoFields, f.hubs = 0 →
          Tracks ((readParts o false (withNext parts')).foldl (fun f r => f.assign r.part) f).hubs
            (announced parts') (parts'.flatMap hubCounts) := by
        intro f none_yet
        have start : Tracks f.hubs (0, false) [] := ⟨fun _ => by rw [none_yet]; rfl, nofun⟩
        have tracked := readParts_tracks no_bad start
        rwa [withNext_texts, List.nil_append] at tracked
      unfold TaggedUser.readDescription
      rw [if_neg some_, if_neg last, at_]
      dsimp only
      rw [body]
      dsimp only at good ⊢
      simp only [noVersion, ne_eq, not_true, decide_false, good, Bool.false_eq_true, if_false,
        TaggedUser.foldl_assign_fields, foldl_assign_tag]
      exact ⟨tracked _ zero, tagBody_some body⟩

theorem readings_texts (o : InfoSender) (c : Text) :
    o.readings c = (o.tagTexts c).map fun parts => readParts o false (withNext parts) := by
  unfold InfoSender.readings InfoSender.tagTexts
  cases closedParts 5 (c.drop (14 + o.sNick.length)).dropLast with
  | nil => rfl
  | cons part rest =>
    dsimp only
    unfold InfoSender.partReadings tagParts
    by_cases last : part.getLast? ≠ some 62
    · rw [if_pos last, if_pos last]
      rfl
    · rw [if_neg last, if_neg last]
      cases lastIdxOf? 60 part with
      | none => rfl
      | some i =>
        dsimp only
        cases tagBody (part.drop i) with
        | none => rfl
        | some body => rfl

/-- A MyINFO with a tag that is accepted. -/
theorem said_hubs (told : TaggedUser.said o c = some f) (texts : o.tagTexts c = some parts)
    (good : o.hasBadTag c = false) :
    Tracks f.hubs (announced parts) (parts.flatMap hubCounts) ∧ f.tag ≠ [] := by
  rw [InfoSender.hasBadTag, readings_texts, texts] at good
  obtain ⟨v, parsed, rfl⟩ := Option.map_eq_some_iff.mp told
  unfold TaggedUser.parseMyInfo at parsed
  unfold InfoSender.tagTexts at texts
  dsimp only at parsed texts
  split at parsed
  · cases parsed
  · split at parsed
    · rename_i part gap connection email share split_
      rw [split_] at texts
      split at parsed
      · cases parsed
      · split at parsed
        · cases parsed
          apply readDescription_hubs _ rfl texts good
          split <;> rfl
        · cases parsed
    · cases parsed

/-- The sum of three counts is never less than one of them, if it fits into 32 bits. -/
theorem hub_count_iff (o : InfoSender) (es : List InfoEvent) (u v : TaggedUser) (c : Text)
    (parts : List Text) (history : TaggedUser.after o es = some u) (taken : u.myInfo o c = some v)
    (texts : o.tagTexts c = some parts) (accepted : o.hasBadTag c = false) :
    CountsAll parts v.fields ↔ (announced parts).2 = false ∧
      ∀ part ∈ parts, ∀ n ∈ hubCounts part, n ≤ (announced parts).1 := by
  have consistent := TaggedUser.run_consistent (TaggedUser.new_consistent o) history
  obtain ⟨tracks, tagged⟩ := said_hubs (TaggedUser.myInfo_spec consistent taken).1 texts accepted
  constructor
  · rintro ⟨counted, -⟩
    cases wraps : (announced parts).2 with
    | false =>
      rw [← tracks.told wraps]
      exact ⟨rfl, counted⟩
    | true =>
      obtain ⟨-, n, mem, less⟩ := tracks.missed wraps
      obtain ⟨part, here, given⟩ := List.mem_flatMap.mp mem
      exact absurd (counted part here n given) (Nat.not_le.mpr less)
  · rintro ⟨fits, most⟩
    rw [← tracks.told fits] at most
    refine ⟨most, ?_⟩
    rintro maxHubsLimit some_limit ⟨part, here, n, given, above⟩
    have more := Nat.lt_of_lt_of_le above (most part here n given)
    have less := UInt32.lt_iff_toNat_lt.mpr more
    simp [InfoFields.overMaxHubs, tagged, some_limit, less]

end

/-- The sum of the hubs is one more than 32 bits hold. -/
def manyHubs : Text :=
  ascii "$MyINFO $ALL a <C V:1,M:P,H:2147483647/2147483647/3,S:1>$ $LAN1$$1$|"

def manyHubsTexts : List Text :=
  [ascii "V:1", ascii "M:P", ascii "H:2147483647/2147483647/3", ascii "S:1"]

theorem hub_count_passive :
    CountsAll [ascii "V:1", ascii "M:P", ascii "H:1/0/0", ascii "S:1"]
        (TaggedUser.userAfter [.myInfo TaggedUser.passiveInfo]).fields ↔
      (announced [ascii "V:1", ascii "M:P", ascii "H:1/0/0", ascii "S:1"]).2 = false ∧
        ∀ part ∈ [ascii "V:1", ascii "M:P", ascii "H:1/0/0", ascii "S:1"], ∀ n ∈ hubCounts part,
          n ≤ (announced [ascii "V:1", ascii "M:P", ascii "H:1/0/0", ascii "S:1"]).1 :=
  hub_count_iff TaggedUser.sender [] TaggedUser.new _ TaggedUser.passiveInfo _ rfl
    (by decide +kernel) (by decide +kernel) (by decide +kernel)

/-- More than two thousand million hubs, each of two kinds, are taken for one hub. -/
theorem many_hubs_pass : ¬∀ (o : InfoSender) (es : List InfoEvent) (u v : TaggedUser) (c : Text)
    (parts : List Text), TaggedUser.after o es = some u → u.myInfo o c = some v →
      o.tagTexts c = some parts → o.hasBadTag c = false → CountsAll parts v.fields := by
  intro all
  have counts := all TaggedUser.sender [] TaggedUser.new
    (TaggedUser.userAfter [.myInfo manyHubs]) manyHubs manyHubsTexts rfl
    (by decide +kernel) (by decide +kernel) (by decide +kernel)
  exact absurd (counts.counted (ascii "H:2147483647/2147483647/3") (by decide +kernel) 3
    (by decide +kernel)) (by decide +kernel)

end FlyHub.Lists
