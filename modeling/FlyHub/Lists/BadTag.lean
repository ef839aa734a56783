import FlyHub.Lists.HubCount

/-!
# Without a tag

A MyINFO may have no tag, or one with a bad part. Then its whole first part is to be the
description, and nothing of the tag is kept. But a bad tag is told the length of the
description in one byte.
-/

namespace FlyHub.Lists

/-- What stands between the nick and the first `$`. -/
def InfoSender.descriptionOf (o : InfoSender) (sCommand : Text) : Text :=
  (sCommand.drop (14 + o.sNick.length)).dropLast.takeWhile (· ≠ dollar)

/-- What is said of the client without a tag, with one that is unknown, and with a bad one. -/
def fallbackClient (part : Text) : Text :=
  if part.getLast? ≠ some 62 then ascii "OTHER (NO TAG)"
  else
    match lastIdxOf? 60 part with
    | none => ascii "OTHER (NO TAG)"
    | some i =>
      match tagBody (part.drop i) with
      | none => ascii "UNKNOWN TAG"
      | some _ => ascii "BAD TAG!"

/-- Nothing is kept of a tag. -/
structure NoTagValues (f : InfoFields) : Prop where
  tag : f.tag = []
  tagVersion : f.tagVersion = []
  modes : f.modes = []
  hubs : f.hubs = 0 ∧ f.normalHubs = 0 ∧ f.regHubs = 0 ∧ f.opHubs = 0
  slots : f.slots = 0
  limits : f.oLimit = 0 ∧ f.lLimit = 0 ∧ f.dLimit = 0

/-- The MyINFO has been read as one without a good tag. The two bits that tell an active client
have no value without a tag, so they are to stay as they were. -/
structure FallsBack (o : InfoSender) (sCommand : Text) (u v : TaggedUser) : Prop where
  description : v.fields.description = o.descriptionOf sCommand
  client : v.fields.client = fallbackClient (o.descriptionOf sCommand)
  values : NoTagValues v.fields
  active : v.bits.ipv4Active = u.bits.ipv4Active ∧ v.bits.ipv6Active = u.bits.ipv6Active

/-- What the last part that writes a bit makes of it. -/
def lastWritten (writes : Reading → Option Bool) (rs : List Reading) : Option Bool :=
  rs.reverse.findSome? writes

/-- A mode among the parts that are read, up to the bad one, is the one the user had. -/
def InfoSender.sameMode (o : InfoSender) (sCommand : Text) (b : InfoBits) : Prop :=
  ∀ rs, o.readings sCommand = some rs →
    lastWritten (·.setsActive4) rs ∈ [none, some b.ipv4Active] ∧
      lastWritten (·.setsActive6) rs ∈ [none, some b.ipv6Active]

section
variable {o : InfoSender} {u v : TaggedUser} {f : InfoFields} {part c : Text}

theorem noTag_values (f : InfoFields) : NoTagValues f.noTag :=
  ⟨rfl, rfl, rfl, ⟨rfl, rfl, rfl, rfl⟩, rfl, ⟨rfl, rfl, rfl⟩⟩

theorem setBadTag_values (f : InfoFields) (part : Text) : NoTagValues (f.setBadTag part) :=
  ⟨rfl, rfl, rfl, ⟨rfl, rfl, rfl, rfl⟩, rfl, ⟨rfl, rfl, rfl⟩⟩

/-- The readings of a bad tag. -/
def isBadTag (o : InfoSender) (part : Text) : Bool :=
  match o.partReadings part with
  | none => false
  | some rs => badReadings rs

/-- A description without a good tag is kept, up to a length in one byte for a bad one. -/
theorem readDescription_fallback (blank : u.fields.description = []) (values : NoTagValues u.fields)
    (fallback : o.partReadings part = none ∨ isBadTag o part = true) :
    (u.readDescription o part).fields.description =
        (if isBadTag o part then part.take (part.length % 256) else part) ∧
      (u.readDescription o part).fields.client = fallbackClient part ∧
      NoTagValues (u.readDescription o part).fields := by
  unfold TaggedUser.readDescription fallbackClient
  by_cases empty : part = []
  · subst empty
    exact ⟨blank, rfl, noTag_values _⟩
  rw [if_neg empty]
  by_cases last : part.getLast? ≠ some 62
  · have good : isBadTag o part = false := by rw [isBadTag, InfoSender.partReadings, if_pos last]
    rw [if_pos last, if_pos last, good]
    exact ⟨rfl, rfl, noTag_values _⟩
  rw [if_neg last, if_neg last]
  cases at_ : lastIdxOf? 60 part with
  | none =>
    have good : isBadTag o part = false := by
      rw [isBadTag, InfoSender.partReadings, if_neg last, at_]
    rw [good]
    exact ⟨rfl, rfl, values.tag, values.tagVersion, values.modes, values.hubs, values.slots,
      values.limits⟩
  | some i =>
    dsimp only
    cases body : tagBody (part.drop i) with
    | none =>
      have good : isBadTag o part = false := by
        rw [isBadTag, InfoSender.partReadings, if_neg last, at_]
        dsimp only
        rw [body]
      rw [good]
      exact ⟨rfl, rfl, rfl, values.tagVersion, values.modes, values.hubs, values.slots,
        values.limits⟩
    | some tag =>
      obtain ⟨client, parts⟩ := tag
      have readings : o.partReadings part = some (readParts o false (withNext parts)) := by
        rw [InfoSender.partReadings, if_neg last, at_]
        dsimp only
        rw [body]
      have bad : badReadings (readParts o false (withNext parts)) = true := by
        rw [isBadTag, readings] at fallback
        exact fallback.resolve_left (Option.some_ne_none _)
      have is_bad : isBadTag o part = true := by
        rw [isBadTag, readings]
        exact bad
      dsimp only
      simp only [values.tagVersion, ne_eq, not_true, decide_false, bad, is_bad, if_true]
      exact ⟨rfl, rfl, setBadTag_values _ _⟩

theorem closedParts_head {n : Nat} {s : Text} {parts : List Text}
    (closed : closedParts n s = part :: parts) : s.takeWhile (· ≠ dollar) = part := by
  cases n with
  | zero => cases closed
  | succ n =>
    rw [closedParts] at closed
    split at closed
    · cases closed
    · exact (List.cons.inj closed).1

/-- What is kept of a MyINFO without a good tag. -/
theorem said_fallback (told : TaggedUser.said o c = some f)
    (fallback : o.readings c = none ∨ o.hasBadTag c = true) :
    f.description =
        (if o.hasBadTag c = true then
          (o.descriptionOf c).take ((o.descriptionOf c).length % 256)
        else o.descriptionOf c) ∧
      f.client = fallbackClient (o.descriptionOf c) ∧ NoTagValues f := by
  obtain ⟨v, parsed, rfl⟩ := Option.map_eq_some_iff.mp told
  unfold TaggedUser.parseMyInfo at parsed
  dsimp only at parsed
  split at parsed
  · cases parsed
  · split at parsed
    · rename_i part gap connection email share split_
      have whole : o.descriptionOf c = part := by
        rw [InfoSender.descriptionOf]
        exact closedParts_head split_
      have readings : o.readings c = o.partReadings part := by rw [InfoSender.readings, split_]
      have bad : o.hasBadTag c = isBadTag o part := by rw [InfoSender.hasBadTag, readings]; rfl
      rw [whole, bad]
      rw [readings, bad] at fallback
      split at parsed
      · cases parsed
      · split at parsed
        · cases parsed
          apply readDescription_fallback _ _ fallback
          · dsimp only
            split <;> rfl
          · dsimp only
            split
            · exact ⟨rfl, rfl, rfl, ⟨rfl, rfl, rfl, rfl⟩, rfl, ⟨rfl, rfl, rfl⟩⟩
            · exact ⟨rfl, rfl, rfl, ⟨rfl, rfl, rfl, rfl⟩, rfl, ⟨rfl, rfl, rfl⟩⟩
        · cases parsed
    · cases parsed

theorem written_lastWritten (writes : Reading → Option Bool) (rs : List Reading) (b : Bool) :
    written writes rs b = (lastWritten writes rs).getD b := by
  induction rs generalizing b with
  | nil => rfl
  | cons r rs ih =>
    have later : written writes (r :: rs) b = written writes rs ((writes r).getD b) := rfl
    rw [later, ih, lastWritten, lastWritten, List.reverse_cons, List.findSome?_append]
    cases rs.reverse.findSome? writes with
    | some a => rfl
    | none =>
      rw [Option.none_or, List.findSome?_singleton]
      rfl

theorem written_keeps (writes : Reading → Option Bool) (rs : List Reading) (b : Bool) :
    written writes rs b = b ↔ lastWritten writes rs ∈ [none, some b] := by
  rw [written_lastWritten]
  cases lastWritten writes rs with
  | none => simp
  | some a => simp

theorem sameMode_iff (o : InfoSender) (c : Text) (b : InfoBits) :
    (b.readAll (o.readings c)).ipv4Active = b.ipv4Active ∧
      (b.readAll (o.readings c)).ipv6Active = b.ipv6Active ↔ o.sameMode c b := by
  unfold InfoSender.sameMode
  cases o.readings c with
  | none => simp [InfoBits.readAll]
  | some rs =>
    rw [b.readAll_written InfoBits.assign_ipv4 (fun _ => rfl),
      b.readAll_written InfoBits.assign_ipv6 (fun _ => rfl), written_keeps, written_keeps]
    simp

theorem take_mod_iff (s : Text) : s.take (s.length % 256) = s ↔ s.length < 256 := by
  rw [List.take_eq_self_iff]
  omega

/-- A MyINFO falls back on its description, unless a bad tag makes that too long for one byte or
comes behind another mode. -/
theorem bad_tag_iff (o : InfoSender) (es : List InfoEvent) (u v : TaggedUser) (c : Text)
    (history : TaggedUser.after o es = some u) (taken : u.myInfo o c = some v)
    (fallback : o.readings c = none ∨ o.hasBadTag c = true) :
    FallsBack o c u v ↔
      (o.hasBadTag c = true → (o.descriptionOf c).length < 256) ∧ o.sameMode c u.bits := by
  have consistent := TaggedUser.run_consistent (TaggedUser.new_consistent o) history
  obtain ⟨description, client, values⟩ :=
    said_fallback (TaggedUser.myInfo_spec consistent taken).1 fallback
  have ipv4 := TaggedUser.bit_after consistent taken (·.ipv4Active) (fun _ _ => rfl)
  have ipv6 := TaggedUser.bit_after consistent taken (·.ipv6Active) (fun _ _ => rfl)
  constructor
  · intro falls
    constructor
    · intro bad
      have kept := falls.description
      rw [description, if_pos bad] at kept
      exact (take_mod_iff _).mp kept
    · have active := falls.active
      rw [ipv4, ipv6] at active
      exact (sameMode_iff o c u.bits).mp active
  · rintro ⟨short, same⟩
    have active := (sameMode_iff o c u.bits).mpr same
    rw [← ipv4, ← ipv6] at active
    refine ⟨?_, client, values, active⟩
    rw [description]
    split
    · rename_i bad
      exact (take_mod_iff _).mpr (short bad)
    · rfl

end

/-! ## A tag without its parts -/

def shortBadTag : Text := ascii "$MyINFO $ALL a hello <C V:1>$ $LAN1$$1$|"

theorem bad_tag_short :
    FallsBack TaggedUser.sender shortBadTag TaggedUser.new
        (TaggedUser.userAfter [.myInfo shortBadTag]) ↔
      (TaggedUser.sender.hasBadTag shortBadTag = true →
          (TaggedUser.sender.descriptionOf shortBadTag).length < 256) ∧
        TaggedUser.sender.sameMode shortBadTag TaggedUser.new.bits :=
  bad_tag_iff TaggedUser.sender [] TaggedUser.new _ shortBadTag rfl (by decide +kernel)
    (Or.inr (by decide +kernel))

/-- The sender may send long MyINFOs. -/
def longSender : InfoSender := ⟨ascii "a", false, false, 512⟩

def longBadTag : Text :=
  ascii "$MyINFO $ALL a " ++ List.replicate 250 104 ++ ascii "<C V:1>$ $LAN1$$1$|"

/-- One byte has no room for a description of 257 bytes, so one byte is left of it. -/
theorem long_bad_tag_cut : ¬∀ (o : InfoSender) (es : List InfoEvent) (u v : TaggedUser) (c : Text),
    TaggedUser.after o es = some u → u.myInfo o c = some v →
      (o.readings c = none ∨ o.hasBadTag c = true) → FallsBack o c u v := by
  intro all
  have falls := all longSender [] TaggedUser.new
    ((TaggedUser.new.myInfo longSender longBadTag).getD TaggedUser.new) longBadTag rfl
    (by decide +kernel) (Or.inr (by decide +kernel))
  exact absurd falls.description (by decide +kernel)

end FlyHub.Lists
