import FlyHub.Lists.Tag

/-!
# What a MyINFO says and what was said before

A MyINFO is read into the user over what is there. The texts and the numbers are those of the
last MyINFO, but some bits are written only where the tag has a part for them.
-/

namespace FlyHub.Lists

/-- What happens to the MyINFO of a user: another one, or the report of a bad tag. -/
inductive InfoEvent where
  | myInfo (sCommand : Text)
  | report

namespace TaggedUser

variable (o : InfoSender) (u : TaggedUser)

def handle : InfoEvent → Option TaggedUser
  | .myInfo sCommand => u.myInfo o sCommand
  | .report => some u.hasSuspiciousTag

/-- The user after a history, unless it has been closed. -/
def after (es : List InfoEvent) : Option TaggedUser := es.foldlM (handle o) new

end TaggedUser

namespace InfoSender

variable (o : InfoSender)

/-- The parts of the tag in a description. -/
def partReadings (part : Text) : Option (List Reading) :=
  if part.getLast? ≠ some 62 then none
  else
    match lastIdxOf? 60 part with
    | none => none
    | some i =>
      match tagBody (part.drop i) with
      | none => none
      | some (_, parts) => some (readParts o false (withNext parts))

/-- The parts of the tag in a MyINFO, up to the first bad one. -/
def readings (sCommand : Text) : Option (List Reading) :=
  match closedParts 5 (sCommand.drop (14 + o.sNick.length)).dropLast with
  | [] => none
  | part :: _ => o.partReadings part

def hasPart (p : Reading → Bool) (sCommand : Text) : Bool :=
  match o.readings sCommand with
  | none => false
  | some rs => rs.any p

def hasBadTag (sCommand : Text) : Bool :=
  match o.readings sCommand with
  | none => false
  | some rs => badReadings rs

end InfoSender

namespace Reading

def setsActive4 (r : Reading) : Option Bool :=
  match r.part with
  | .mode m | .modes m _ => some (isActive m)
  | _ => none

def setsActive6 (r : Reading) : Option Bool :=
  match r.part with
  | .modes _ m => some (isActive m)
  | _ => none

def setsOldHubs (r : Reading) : Option Bool :=
  match r.part with
  | .hubs _ _ _ => some false
  | .oldHubs _ => some true
  | _ => none

def setsBadLen (r : Reading) : Option Bool := if r.long then some true else none

end Reading

/-- The MyINFO settles a bit, or the two users agree on it. -/
structure Settled (o : InfoSender) (sCommand : Text) (u v : TaggedUser) : Prop where
  ipv4Active : o.hasPart (·.setsActive4.isSome) sCommand ∨ u.bits.ipv4Active = v.bits.ipv4Active
  ipv6Active : o.hasPart (·.setsActive6.isSome) sCommand ∨ u.bits.ipv6Active = v.bits.ipv6Active
  oldHubsTag : o.hasBadTag sCommand ∨ o.hasPart (·.setsOldHubs.isSome) sCommand ∨
    u.bits.oldHubsTag = v.bits.oldHubsTag
  /-- A MyINFO that is sent again isn't read again. -/
  haveBadTag : (u.bits.haveBadTag || o.hasBadTag sCommand && !u.sameMyInfo o sCommand) =
    (v.bits.haveBadTag || o.hasBadTag sCommand && !v.sameMyInfo o sCommand)
  badLenNumber : o.hasPart (·.long) sCommand ∨ u.bits.badLenNumber = v.bits.badLenNumber

/-! ## Bits that are written over -/

section
variable {α : Type} (writes : α → Option Bool)

/-- A bit after some writes. -/
def written (rs : List α) (b : Bool) : Bool := rs.foldl (fun b r => (writes r).getD b) b

theorem written_settled {rs : List α} (some_ : rs.any (writes · |>.isSome)) (b c : Bool) :
    written writes rs b = written writes rs c := by
  induction rs generalizing b c with
  | nil => cases some_
  | cons r rs ih =>
    rw [List.any_cons, Bool.or_eq_true] at some_
    simp only [written, List.foldl_cons]
    cases hw : writes r with
    | some x => rfl
    | none =>
      rw [hw] at some_
      exact ih (some_.resolve_left (by decide)) _ _

theorem written_free {rs : List α} (none_ : rs.any (writes · |>.isSome) = false) (b : Bool) :
    written writes rs b = b := by
  induction rs with
  | nil => rfl
  | cons r rs ih =>
    rw [List.any_cons, Bool.or_eq_false_iff, Option.isSome_eq_false_iff,
      Option.isNone_iff_eq_none] at none_
    simp only [written, List.foldl_cons, none_.1, Option.getD_none]
    exact ih none_.2

theorem written_eq_iff (rs : List α) (b c : Bool) :
    written writes rs b = written writes rs c ↔ rs.any (writes · |>.isSome) ∨ b = c := by
  cases h : rs.any (writes · |>.isSome) with
  | true => simp [written_settled writes h b c]
  | false => simp [written_free writes h]

theorem written_again (rs : List α) (b : Bool) :
    written writes rs (written writes rs b) = written writes rs b := by
  cases h : rs.any (writes · |>.isSome) with
  | true => exact written_settled writes h _ _
  | false => rw [written_free writes h]

end

namespace InfoBits

variable (b : InfoBits)

/-- The bits after the parts of a tag. -/
def readAll : Option (List Reading) → InfoBits
  | none => b
  | some rs =>
    let b := rs.foldl assign b
    if badReadings rs then b.setBadTag else b

theorem assign_ipv4 (r : Reading) :
    (b.assign r).ipv4Active = r.setsActive4.getD b.ipv4Active := by
  unfold assign Reading.setsActive4
  cases r.part <;> rfl

theorem assign_ipv6 (r : Reading) :
    (b.assign r).ipv6Active = r.setsActive6.getD b.ipv6Active := by
  unfold assign Reading.setsActive6
  cases r.part <;> rfl

theorem assign_oldHubs (r : Reading) :
    (b.assign r).oldHubsTag = r.setsOldHubs.getD b.oldHubsTag := by
  unfold assign Reading.setsOldHubs
  cases r.part <;> rfl

theorem assign_badTag (r : Reading) : (b.assign r).haveBadTag = b.haveBadTag := by
  unfold assign
  cases r.part <;> rfl

theorem assign_badLen (r : Reading) :
    (b.assign r).badLenNumber = r.setsBadLen.getD b.badLenNumber := by
  unfold assign Reading.setsBadLen
  cases r.part <;> cases r.long <;> simp

/-- A bit that the parts write and nothing else is read back as it was written. -/
theorem foldl_written {bit : InfoBits → Bool} {writes : Reading → Option Bool}
    (assigned : ∀ b r, bit (assign b r) = (writes r).getD (bit b)) (rs : List Reading) :
    bit (rs.foldl assign b) = written writes rs (bit b) := by
  induction rs generalizing b with
  | nil => rfl
  | cons r rs ih =>
    rw [List.foldl_cons, ih, assigned]
    rfl

/-- A bit that the parts of a tag write, after a MyINFO. -/
theorem readAll_written {bit : InfoBits → Bool} {writes : Reading → Option Bool}
    (assigned : ∀ b r, bit (b.assign r) = (writes r).getD (bit b))
    (kept : ∀ b : InfoBits, bit b.setBadTag = bit b) (rs : List Reading) :
    bit (b.readAll (some rs)) = written writes rs (bit b) := by
  rw [← b.foldl_written assigned]
  simp only [readAll]
  split
  · exact kept _
  · rfl

theorem foldl_badTag (rs : List Reading) : (rs.foldl assign b).haveBadTag = b.haveBadTag := by
  rw [@foldl_written b _ (fun _ => none) assign_badTag,
    written_free _ (List.any_eq_false.2 (by simp))]

end InfoBits

namespace TaggedUser

variable {o : InfoSender} {u v : TaggedUser} {c : Text}

theorem foldl_assign_fields (rs : List Reading) (u : TaggedUser) :
    (rs.foldl assign u).fields = rs.foldl (fun f r => f.assign r.part) u.fields := by
  induction rs generalizing u with
  | nil => rfl
  | cons r rs ih => exact ih _

theorem foldl_assign_bits (rs : List Reading) (u : TaggedUser) :
    (rs.foldl assign u).bits = rs.foldl InfoBits.assign u.bits := by
  induction rs generalizing u with
  | nil => rfl
  | cons r rs ih => exact ih _

theorem foldl_assign_original (rs : List Reading) (u : TaggedUser) :
    (rs.foldl assign u).myInfoOriginal = u.myInfoOriginal := by
  induction rs generalizing u with
  | nil => rfl
  | cons r rs ih => exact ih _

/-- What the first part of a MyINFO makes of the texts and numbers doesn't depend on the rest of
the user, nor on the client that was there. -/
theorem readDescription_fields (part client : Text)
    (same : { u.fields with client := client } = { v.fields with client := client }) :
    (u.readDescription o part).fields = (v.readDescription o part).fields := by
  obtain ⟨_, f, _, _⟩ := u
  obtain ⟨_, g, _, _⟩ := v
  cases f
  cases g
  simp only [InfoFields.mk.injEq] at same
  obtain ⟨rfl, rfl, -, rfl, rfl, rfl, rfl, rfl, rfl, rfl, rfl, rfl, rfl, rfl, rfl, rfl, rfl⟩ := same
  unfold readDescription
  split
  · rfl
  · split
    · rfl
    · split
      · rfl
      · rename_i i _
        simp only
        split
        · rfl
        · split
          · simp only [foldl_assign_fields]
          · simp only [foldl_assign_fields]

theorem readDescription_bits (part : Text) (noVersion : u.fields.tagVersion = []) :
    (u.readDescription o part).bits = u.bits.readAll (o.partReadings part) := by
  unfold readDescription InfoSender.partReadings
  by_cases empty : part = []
  · subst empty
    rfl
  · rw [if_neg empty]
    by_cases last : part.getLast? ≠ some 62
    · rw [if_pos last, if_pos last]
      rfl
    · rw [if_neg last, if_neg last]
      cases lastIdxOf? 60 part with
      | none => rfl
      | some i =>
        simp only
        cases tagBody (part.drop i) with
        | none => rfl
        | some body =>
          obtain ⟨client, parts⟩ := body
          simp only [noVersion, ne_eq, not_true, decide_false, InfoBits.readAll]
          split
          · rw [foldl_assign_bits]
          · exact foldl_assign_bits _ _

theorem readDescription_original (part : Text) :
    (u.readDescription o part).myInfoOriginal = u.myInfoOriginal := by
  unfold readDescription
  split
  · rfl
  · split
    · rfl
    · split
      · rfl
      · simp only
        split
        · rfl
        · split <;> exact foldl_assign_original _ _

/-- The texts that a MyINFO may leave as they are. -/
structure Blank (f : InfoFields) : Prop where
  description : f.description = []
  tag : f.tag = []
  tagVersion : f.tagVersion = []
  email : f.email = []

theorem parse_bits (blank : Blank u.fields) (parsed : u.parseMyInfo o = some v) :
    v.bits = u.bits.readAll (o.readings u.myInfoOriginal) ∧
      v.myInfoOriginal = u.myInfoOriginal := by
  unfold parseMyInfo at parsed
  simp only at parsed
  split at parsed
  · cases parsed
  · split at parsed
    · rename_i part gap connection email share split
      split at parsed
      · cases parsed
      · split at parsed
        · cases parsed
          have version : ∀ f : InfoFields, f.tagVersion = [] → f.resetTag.tagVersion = [] :=
            fun _ h => h
          constructor
          · rw [readDescription_bits, InfoSender.readings, split]
            apply version
            split
            · exact blank.tagVersion
            · exact blank.tagVersion
          · exact readDescription_original part
        · cases parsed
    · cases parsed

/-- The texts and numbers come from the MyINFO alone. -/
theorem parse_fields (hu : Blank u.fields) (hv : Blank v.fields)
    (length : u.myInfoOriginal.length = v.myInfoOriginal.length)
    (behind : u.myInfoOriginal.drop (14 + o.sNick.length) =
      v.myInfoOriginal.drop (14 + o.sNick.length)) :
    (u.parseMyInfo o).map fields = (v.parseMyInfo o).map fields := by
  unfold parseMyInfo
  simp only [length, behind]
  split
  · rfl
  · split
    · rename_i part gap connection email share _
      split
      · rfl
      · split
        · simp only [Option.map_some, Option.some.injEq]
          apply readDescription_fields part []
          by_cases hasEmail : email ≠ []
          · simp only [if_pos hasEmail, InfoFields.resetTag, hu.description, hu.tag, hu.tagVersion,
              hv.description, hv.tag, hv.tagVersion]
          · simp only [if_neg hasEmail, InfoFields.resetTag, hu.description, hu.tag, hu.tagVersion,
              hu.email, hv.description, hv.tag, hv.tagVersion, hv.email]
        · rfl
    · rfl

theorem readings_congr {c c' : Text}
    (behind : c.drop (14 + o.sNick.length) = c'.drop (14 + o.sNick.length)) :
    o.readings c = o.readings c' := by
  rw [InfoSender.readings, InfoSender.readings, behind]

/-! ## Histories -/

/-- What a MyINFO says, whoever sends it. -/
def said (o : InfoSender) (sCommand : Text) : Option InfoFields :=
  ({ new with myInfoOriginal := sCommand }.parseMyInfo o).map fields

theorem new_blank : Blank new.fields := ⟨rfl, rfl, rfl, rfl⟩

/-- A user is as it was made, or as its last MyINFO says. -/
structure Consistent (o : InfoSender) (u : TaggedUser) : Prop where
  made : u.myInfoOriginal = [] → u.fields = new.fields
  fields : u.myInfoOriginal ≠ [] → said o u.myInfoOriginal = some u.fields
  bits : u.myInfoOriginal ≠ [] → { u.bits.readAll (o.readings u.myInfoOriginal) with
    haveBadTag := u.bits.haveBadTag } = u.bits

theorem new_consistent (o : InfoSender) : new.Consistent o where
  made _ := rfl
  fields some_ := absurd rfl some_
  bits some_ := absurd rfl some_

theorem Consistent.blank (h : u.Consistent o) :
    Blank (if u.myInfoOriginal ≠ [] then u.fields.clear else u.fields) := by
  by_cases first : u.myInfoOriginal = []
  · rw [if_neg (by simpa using first), h.made first]
    exact new_blank
  · rw [if_pos first]
    exact ⟨rfl, rfl, rfl, rfl⟩

theorem readAll_again (b : InfoBits) (rs : Option (List Reading)) (bad : Bool) :
    { ({ b.readAll rs with haveBadTag := bad } : InfoBits).readAll rs with haveBadTag := bad } =
      ({ b.readAll rs with haveBadTag := bad } : InfoBits) := by
  cases rs with
  | none => rfl
  | some rs =>
    have ipv4 := fun b => InfoBits.foldl_written b InfoBits.assign_ipv4 rs
    have ipv6 := fun b => InfoBits.foldl_written b InfoBits.assign_ipv6 rs
    have hubs := fun b => InfoBits.foldl_written b InfoBits.assign_oldHubs rs
    have long := fun b => InfoBits.foldl_written b InfoBits.assign_badLen rs
    unfold InfoBits.readAll
    by_cases isBad : badReadings rs
    · simp only [if_pos isBad, InfoBits.setBadTag, InfoBits.mk.injEq, true_and]
      simp only [ipv4, ipv6, long, written_again, and_self]
    · simp only [if_neg isBad, InfoBits.mk.injEq]
      simp only [ipv4, ipv6, hubs, long, written_again, and_self]

theorem said_congr {c c' : Text} (length : c.length = c'.length)
    (behind : c.drop (14 + o.sNick.length) = c'.drop (14 + o.sNick.length)) :
    said o c = said o c' :=
  parse_fields (u := { new with myInfoOriginal := c }) (v := { new with myInfoOriginal := c' })
    new_blank new_blank length behind

theorem set_spec (h : u.Consistent o) (set_ : u.setMyInfoOriginal o c = some v) :
    said o c = some v.fields ∧ v.bits = u.bits.readAll (o.readings c) ∧ v.myInfoOriginal = c := by
  rw [setMyInfoOriginal] at set_
  have bits := parse_bits (u := ⟨c, _, u.bits, u.noHello⟩) h.blank set_
  have alike := parse_fields (u := { new with myInfoOriginal := c })
    (v := ⟨c, _, u.bits, u.noHello⟩) (o := o) new_blank h.blank rfl rfl
  refine ⟨?_, bits⟩
  rw [said, alike]
  exact congrArg (Option.map fields) set_

theorem same_spec (h : u.Consistent o) (same : u.sameMyInfo o c) :
    said o c = some u.fields ∧ o.readings c = o.readings u.myInfoOriginal ∧
      u.myInfoOriginal ≠ [] := by
  simp only [sameMyInfo, Bool.and_eq_true, decide_eq_true_eq] at same
  obtain ⟨⟨some_, length⟩, behind⟩ := same
  exact ⟨(said_congr length behind).trans (h.fields some_), readings_congr behind, some_⟩

theorem myInfo_spec (h : u.Consistent o) (taken : u.myInfo o c = some v) :
    said o c = some v.fields ∧ v.Consistent o ∧
      v.bits = if u.sameMyInfo o c then u.bits else u.bits.readAll (o.readings c) := by
  unfold myInfo at taken
  split at taken
  · cases taken
  · rename_i long
    split at taken
    · cases taken
    · split at taken
      · rename_i same
        cases taken
        exact ⟨(same_spec h same).1, h, (if_pos same).symm⟩
      · rename_i other
        obtain ⟨eq, bits, original⟩ := set_spec h taken
        refine ⟨eq, ⟨?_, ?_, ?_⟩, by rw [bits, if_neg other]⟩
        · intro none_
          rw [← original, none_] at long
          simp at long
        · intro _
          rw [original, eq]
        · intro _
          rw [original, bits]
          exact readAll_again u.bits (o.readings c) (u.bits.readAll (o.readings c)).haveBadTag

theorem handle_consistent (h : u.Consistent o) {e : InfoEvent} (handled : u.handle o e = some v) :
    v.Consistent o := by
  cases e with
  | myInfo c => exact (myInfo_spec h handled).2.1
  | report =>
    cases handled
    refine ⟨h.made, h.fields, ?_⟩
    intro some_
    have same : u.hasSuspiciousTag.bits =
        { u.bits.readAll (o.readings u.myInfoOriginal) with haveBadTag := false } := by
      have bits := h.bits some_
      exact congrArg (fun b : InfoBits => { b with haveBadTag := false }) bits.symm
    rw [same]
    exact readAll_again _ _ false

theorem run_consistent (h : u.Consistent o) {es : List InfoEvent}
    (reached : es.foldlM (handle o) u = some v) : v.Consistent o := by
  induction es generalizing u with
  | nil =>
    cases reached
    exact h
  | cons e es ih =>
    rw [List.foldlM_cons] at reached
    obtain ⟨x, first, rest⟩ := Option.bind_eq_some_iff.1 reached
    exact ih (handle_consistent h first) rest

/-- A bit after a MyINFO, whether it was read again or not. -/
theorem bit_after (h : u.Consistent o) (taken : u.myInfo o c = some v) (bit : InfoBits → Bool)
    (other : ∀ (b : InfoBits) bad, bit { b with haveBadTag := bad } = bit b) :
    bit v.bits = bit (u.bits.readAll (o.readings c)) := by
  rw [(myInfo_spec h taken).2.2]
  split
  · rename_i same
    obtain ⟨-, readings, some_⟩ := same_spec h same
    rw [readings]
    exact (congrArg bit (h.bits some_)).symm.trans (other _ _)
  · rfl

theorem badTag_after (h : u.Consistent o) (taken : u.myInfo o c = some v) :
    v.bits.haveBadTag =
      (u.bits.haveBadTag || o.hasBadTag c && !u.sameMyInfo o c) := by
  rw [(myInfo_spec h taken).2.2]
  split
  · rename_i same
    simp [same]
  · rename_i other
    rw [Bool.not_eq_true] at other
    rw [other, InfoSender.hasBadTag]
    cases o.readings c with
    | none => simp [InfoBits.readAll]
    | some rs =>
      simp only [InfoBits.readAll]
      by_cases bad : badReadings rs
      · simp [bad, InfoBits.setBadTag]
      · rw [if_neg bad, InfoBits.foldl_badTag]
        simp [bad]

theorem readAll_bit {bit : InfoBits → Bool} {writes : Reading → Option Bool}
    (assigned : ∀ b r, bit (b.assign r) = (writes r).getD (bit b))
    (kept : ∀ b : InfoBits, bit b.setBadTag = bit b) (b b' : InfoBits) (c : Text) :
    bit (b.readAll (o.readings c)) = bit (b'.readAll (o.readings c)) ↔
      o.hasPart (writes · |>.isSome) c ∨ bit b = bit b' := by
  rw [InfoSender.hasPart]
  cases o.readings c with
  | none => simp [InfoBits.readAll]
  | some rs =>
    rw [b.readAll_written assigned kept, b'.readAll_written assigned kept]
    exact written_eq_iff writes rs _ _

theorem readAll_oldHubs (b b' : InfoBits) (c : Text) :
    (b.readAll (o.readings c)).oldHubsTag = (b'.readAll (o.readings c)).oldHubsTag ↔
      o.hasBadTag c ∨ o.hasPart (·.setsOldHubs.isSome) c ∨ b.oldHubsTag = b'.oldHubsTag := by
  rw [InfoSender.hasPart, InfoSender.hasBadTag]
  cases o.readings c with
  | none => simp [InfoBits.readAll]
  | some rs =>
    simp only [InfoBits.readAll]
    by_cases bad : badReadings rs
    · simp [bad, InfoBits.setBadTag]
    · rw [if_neg bad, if_neg bad, InfoBits.foldl_written b InfoBits.assign_oldHubs,
        InfoBits.foldl_written b' InfoBits.assign_oldHubs, written_eq_iff]
      simp [bad]

theorem setsBadLen_isSome (r : Reading) : r.setsBadLen.isSome = r.long := by
  unfold Reading.setsBadLen
  cases r.long <;> rfl

/-- Two users who send the same MyINFO are the same to the hub just when it settles the bits in
which they differ. -/
theorem same_iff {es₁ es₂ : List InfoEvent} {u₁ u₂ v₁ v₂ : TaggedUser}
    (reached₁ : after o es₁ = some u₁) (reached₂ : after o es₂ = some u₂)
    (taken₁ : u₁.myInfo o c = some v₁) (taken₂ : u₂.myInfo o c = some v₂) :
    v₁.fields = v₂.fields ∧ v₁.bits = v₂.bits ↔ Settled o c u₁ u₂ := by
  have h₁ := run_consistent (new_consistent o) reached₁
  have h₂ := run_consistent (new_consistent o) reached₂
  have fields : v₁.fields = v₂.fields := by
    have eq := (myInfo_spec h₁ taken₁).1.symm.trans (myInfo_spec h₂ taken₂).1
    exact Option.some.inj eq
  have ipv4 := readAll_bit (o := o) InfoBits.assign_ipv4 (fun _ => rfl) u₁.bits u₂.bits c
  have ipv6 := readAll_bit (o := o) InfoBits.assign_ipv6 (fun _ => rfl) u₁.bits u₂.bits c
  have hubs := readAll_oldHubs (o := o) u₁.bits u₂.bits c
  have long := readAll_bit (o := o) InfoBits.assign_badLen (fun _ => rfl) u₁.bits u₂.bits c
  simp only [setsBadLen_isSome] at long
  rw [← bit_after h₁ taken₁ (·.ipv4Active) (fun _ _ => rfl),
    ← bit_after h₂ taken₂ (·.ipv4Active) (fun _ _ => rfl)] at ipv4
  rw [← bit_after h₁ taken₁ (·.ipv6Active) (fun _ _ => rfl),
    ← bit_after h₂ taken₂ (·.ipv6Active) (fun _ _ => rfl)] at ipv6
  rw [← bit_after h₁ taken₁ (·.oldHubsTag) (fun _ _ => rfl),
    ← bit_after h₂ taken₂ (·.oldHubsTag) (fun _ _ => rfl)] at hubs
  rw [← bit_after h₁ taken₁ (·.badLenNumber) (fun _ _ => rfl),
    ← bit_after h₂ taken₂ (·.badLenNumber) (fun _ _ => rfl)] at long
  have bad₁ := badTag_after h₁ taken₁
  have bad₂ := badTag_after h₂ taken₂
  constructor
  · rintro ⟨-, bits⟩
    rw [← bits] at ipv4 ipv6 hubs long bad₂
    exact ⟨ipv4.1 rfl, ipv6.1 rfl, hubs.1 rfl, bad₁.symm.trans bad₂, long.1 rfl⟩
  · intro settled
    refine ⟨fields, ?_⟩
    rw [InfoBits.ext_iff]
    exact ⟨ipv4.2 settled.ipv4Active, ipv6.2 settled.ipv6Active, hubs.2 settled.oldHubsTag,
      bad₁.trans (settled.haveBadTag.trans bad₂.symm), long.2 settled.badLenNumber⟩

/-! ## A passive user -/

def sender : InfoSender := ⟨ascii "a", false, false, 256⟩

def passiveInfo : Text := ascii "$MyINFO $ALL a <C V:1,M:P,H:1/0/0,S:1>$ $LAN1$$1$|"

def activeInfo : Text := ascii "$MyINFO $ALL a <C V:1,M:A,H:1/0/0,S:1>$ $LAN1$$1$|"

def plainInfo : Text := ascii "$MyINFO $ALL a hello$ $LAN1$$1$|"

def userAfter (es : List InfoEvent) : TaggedUser := (after sender es).getD new

/-- A user who has been passive stays passive without a tag, and one who sends the same MyINFO
first is active. -/
theorem passive_stays :
    (after sender [.myInfo passiveInfo, .myInfo plainInfo]).map (·.bits.ipv4Active) = some false ∧
      (after sender [.myInfo plainInfo]).map (·.bits.ipv4Active) = some true := by
  decide +kernel

theorem same_active :
    (userAfter [.myInfo passiveInfo, .myInfo activeInfo]).fields =
        (userAfter [.myInfo activeInfo]).fields ∧
      (userAfter [.myInfo passiveInfo, .myInfo activeInfo]).bits =
        (userAfter [.myInfo activeInfo]).bits := by
  have passive : after sender [.myInfo passiveInfo] =
      some (userAfter [.myInfo passiveInfo]) := by decide +kernel
  have fresh : after sender [] = some (userAfter []) := by decide +kernel
  apply (same_iff passive fresh (c := activeInfo) (by decide +kernel) (by decide +kernel)).2
  exact ⟨by decide +kernel, by decide +kernel, by decide +kernel, by decide +kernel,
    by decide +kernel⟩

end TaggedUser

end FlyHub.Lists
