import Mathlib
import FlyHub.Commands.Address
import FlyHub.Commands.Chat
import FlyHub.Lists.Infos

/-!
# Nicks in commands

Commands that go on to other users have the nick of their sender in them. Every handler
compares it at a place of its own, with what comes after it.
-/

namespace FlyHub.Commands

open FlyHub.Connection FlyHub.Lib FlyHub.Lists

/-- `>`, which closes the nick of a chat. -/
def angle : UInt8 := 62

structure Speaker extends Sender where
  noChatLimits : Bool
  allowedOpChat : Bool

/-- What the handlers that let a nick go on ask the rest of the hub. `passes` has the
checks of lines and rules in it. -/
structure RelayHub extends Hub where
  infoSettings : InfoSettings
  judge : Text → TagVerdict
  /-- `m_ui8FullMyINFOOption`. -/
  fullMyInfoOption : Nat
  /-- The text isn't the one of its kind that is stored of the sender. -/
  isNew : Text → Bool
  chat : ChatSettings
  maxRctmLen : Nat
  maxSrLen : Nat
  maxPmLen : Nat
  /-- The user hasn't had `SETSHORT_MAX_PASIVE_SR` answers yet. -/
  srLeft : OtherUser → Bool
  regBot : Bool
  botNick : Text
  botsSameNick : Bool
  /-- A message to the bot is the name of a text file or a command. -/
  botTakes : Text → Bool
  regOpChat : Bool
  opChatNick : Text
  validOpChat : ValidNick opChatNick

/-- A text that goes on to others. -/
inductive Relay where
  | myInfo (sData : Text)
  | extJson (sData : Text)
  | revConnectToMe (sData : Text)
  | sr (sData : Text)
  | toUser (sData : Text)
  | toOpChat (sData : Text)
  | search (sData : Text)
  | chat (sData : Text)
  deriving DecidableEq

/-- A nick goes up to what closes it in a text, or to the end of the command. -/
def closes (close c : UInt8) : Bool := c = close || c = pipe

def nickField (close : UInt8) (s : Text) : Text := field (closes close) s

/-- The nicks that others read as that of the sender. -/
def Relay.nicks : Relay → List Text
  | .myInfo s => [nickField blank (s.drop 13)]
  | .extJson s => [nickField blank (s.drop 9)]
  | .revConnectToMe s => [nickField blank (s.drop 16)]
  | .sr s => [nickField blank (s.drop 4)]
  | .toUser s =>
    let sFrom := ((s.drop 5).dropWhile (· ≠ blank)).drop 7
    let sNick := nickField blank sFrom
    [sNick, nickField angle (sFrom.drop (sNick.length + 3))]
  | .toOpChat s => [nickField angle (s.drop ((nickField blank s).length + 3))]
  | .search s => [nickField blank (s.drop 12)]
  | .chat s => [nickField angle (s.drop 1)]

/-- The commands that have a nick of the sender. -/
inductive NickCommand where
  | myInfo
  | extJson
  | revConnectToMe
  | sr
  | to_
  | search (bMulti : Bool)
  | chat
  deriving DecidableEq

def NickCommand.word : NickCommand → Text
  | .myInfo => ascii "$MyINFO $ALL "
  | .extJson => ascii "$ExtJSON "
  | .revConnectToMe => ascii "$RevConnectToMe "
  | .sr => ascii "$SR "
  | .to_ => ascii "$To: "
  | .search bMulti => searchWord bMulti
  | .chat => ascii "<"

def nickCommands : List NickCommand :=
  [.myInfo, .extJson, .revConnectToMe, .sr, .to_, .search false, .search true, .chat]

/-- What `PreProcessData` takes the command for. -/
def DcCommand.kind (c : DcCommand) : Option NickCommand :=
  nickCommands.find? fun k => c.matchBytes 0 k.word

section
variable (h : RelayHub) (u : Speaker) (c : DcCommand)

/-- `MyINFODeflood`, `MyINFO` and the MyINFOs that `ProcessCmds` makes of it. -/
def myInfo : List Relay :=
  if !h.passes || !h.isNew c.sCommand then []
  else
    match u.takeMyInfo h.infoSettings h.judge c.sCommand with
    | none => []
    | some info =>
      let long := u.generateMyInfoLong info
      let short := u.generateMyInfoShort h.infoSettings info
      if h.fullMyInfoOption = 0 then (if h.isNew long then [.myInfo long] else [])
      else if h.fullMyInfoOption = 2 then (if h.isNew short then [.myInfo short] else [])
      else if h.isNew long then .myInfo long :: (if h.isNew short then [.myInfo short] else [])
      else []

/-- `CheckExtJSON`. -/
def checkExtJson : Bool :=
  u.sNick.isEmpty ||
    (c.commandLen ≤ h.infoSettings.maxMyInfoLen * 10 && u.sNick.length + 9 ≤ c.commandLen &&
      (c.commandLen ≤ u.sNick.length + 9 || c.matchBytes 9 u.sNick))

/-- `SetExtJSON`. The length is a number of 16 bits. -/
def setExtJson : List Relay :=
  let sData := c.sCommand.take (c.commandLen % 65536)
  if !checkExtJson h u c || !h.isNew sData || !h.passes || sData.isEmpty then []
  else [.extJson sData]

/-- `RevConnectToMe`. -/
def revConnectToMe : List Relay :=
  if c.commandLen < 19 || !c.nickAt 16 u.sNick blank || !h.passes || h.maxRctmLen < c.commandLen then
    []
  else
    match h.findUser (c.body.drop (17 + u.sNick.length)) with
    | none => []
    | some _ => [.revConnectToMe c.sCommand]

/-- `SR`. The nick that it goes to is cut off. -/
def sr : List Relay :=
  if c.commandLen < 6 + u.sNick.length || !h.passes || h.maxSrLen < c.commandLen ||
      !c.nickAt 4 u.sNick blank then []
  else
    match lastIdxOf? 5 c.body with
    | none => []
    | some i =>
      match h.findUser (c.body.drop (i + 1)) with
      | none => []
      | some other =>
        if h.srLeft other then
          [.sr (((c.sCommand.set i pipe).set (i + 1) 0).take (c.commandLen - other.sNick.length - 1))]
        else []

/-- What a private message has between the nick it goes to and its text. -/
def fromText (sNick : Text) : Text :=
  ascii "From: " ++ (sNick ++ (ascii " $<" ++ (sNick ++ ascii "> ")))

/-- What the chat of the operators is sent. Its nick is put before the `$`. -/
def opChatText (after : Nat) : Text :=
  h.opChatNick ++ c.sCommand.drop (after + 6 + u.sNick.length)

/-- `To`. -/
def to_ : List Relay :=
  match (c.body.drop 5).idxOf? blank with
  | none => []
  | some i =>
    let target := (c.body.drop 5).take i
    let after := 5 + i + 1
    let n := u.sNick.length
    if c.commandLen < 19 || 64 < i || !c.matchBytes after (fromText u.sNick) || !h.passes then []
    else if !u.noChatLimits && h.maxPmLen ≠ 0 && h.maxPmLen < c.commandLen - 2 * n - (5 + i) - 13 then
      []
    else if (ascii "Vandel\\Debug").isPrefixOf target then []
    else if h.regBot && target = h.botNick then
      if c.commandLen - (after + 8 + n) + 1 ≤ n + 4 || h.botTakes (c.body.drop (after + 11 + 2 * n)) then
        []
      else if h.regOpChat && u.allowedOpChat && h.botsSameNick then [.toOpChat (opChatText h u c after)]
      else []
    else if h.regOpChat && u.allowedOpChat && target = h.opChatNick then
      [.toOpChat (opChatText h u c after)]
    else
      match h.findUser target with
      | none => []
      | some _ => [.toUser c.sCommand]

/-- The searches that have a nick and no address. -/
def nickSearch (bMulti : Bool) : List Relay :=
  (search h.toHub u.toSender c bMulti).filterMap fun item =>
    if item.1 = .passive then some (.search item.2) else none

/-- `ChatDeflood`, `Chat` and the `CHAT` case of `ProcessCmds`. -/
def chat : List Relay :=
  if !accepted h.chat ⟨u.sNick, u.noChatLimits⟩ c.sCommand || !h.passes then []
  else
    match processChat h.chat ⟨u.sNick, u.noChatLimits⟩ c.sCommand with
    | .error _ => []
    | .ok left => [.chat left]

/-- What goes on to others of a command of a user who is logged in. -/
def relays : List Relay :=
  match c.kind with
  | none => []
  | some .myInfo => myInfo h u c
  | some .extJson => setExtJson h u c
  | some .revConnectToMe => revConnectToMe h u c
  | some .sr => sr h u c
  | some .to_ => to_ h u c
  | some (.search bMulti) => nickSearch h u c bMulti
  | some .chat => chat h u c

/-- Nothing but the nick is read as the nick. `CheckExtJSON` doesn't look at what comes
after it, and a nick may have a `>`. -/
def NickExact : Prop :=
  match c.kind with
  | some .extJson => c.nickAt 9 u.sNick blank = true ∨ c.nickAt 9 u.sNick pipe = true
  | some .to_ | some .chat => angle ∉ u.sNick
  | _ => True

end

/-! ## The field of a nick -/

section
variable {c : DcCommand} {s sNick : Text} {close : UInt8}

theorem DcCommand.sCommand_prefix_memory (off : Nat) :
    c.sCommand.drop off <+: c.memory.drop off := by
  rw [memory, List.drop_append]
  exact List.prefix_append _ _

/-- A text that starts with a nick and what closes it has the nick as its field if nothing
closes it earlier. -/
theorem nickField_iff (valid : ValidNick sNick) (starts : sNick ++ [close] <+: s) :
    nickField close s = sNick ↔ close ∉ sNick := by
  have stop : closes close close = true := by simp [closes]
  constructor
  · intro exact_ mem
    rw [← exact_] at mem
    have inside := field_inside s close mem
    rw [stop] at inside
    cases inside
  · intro clean
    apply field_of_prefix _ stop starts
    intro c mem
    rw [closes, Bool.or_eq_false_iff, decide_eq_false_iff_not, decide_eq_false_iff_not]
    exact ⟨fun same => clean (same ▸ mem), (valid c mem).2.2⟩

theorem nickField_blank (valid : ValidNick sNick) (starts : sNick ++ [blank] <+: s) :
    nickField blank s = sNick :=
  (nickField_iff valid starts).mpr fun mem => (valid blank mem).1 rfl

/-- A nick that a handler has found, with what comes after it, is in the command. -/
theorem DcCommand.nickAt_sCommand {off : Nat} (inside : off ≤ c.body.length)
    (valid : ValidNick sNick) (ends : close ≠ pipe) (at_ : c.nickAt off sNick close = true) :
    sNick ++ [close] <+: c.body.drop off := by
  apply (prefix_memory_iff inside _).mp (nickAt_iff.mp at_)
  intro mem
  rw [List.mem_append, List.mem_singleton] at mem
  cases mem with
  | inl mem => exact (valid pipe mem).2.2 rfl
  | inr same => exact ends same.symm

theorem DcCommand.body_prefix (off : Nat) : c.body.drop off <+: c.sCommand.drop off := by
  rw [sCommand, List.drop_append]
  exact List.prefix_append _ _

/-- The field of a command is the field of what lies in the buffer. -/
theorem nickField_memory {off : Nat} (inside : off ≤ c.body.length) :
    nickField close (c.memory.drop off) = nickField close (c.sCommand.drop off) := by
  have some_ : ∃ a ∈ c.sCommand.drop off, closes close a = true := by
    refine ⟨pipe, ?_, by simp [closes]⟩
    rw [DcCommand.sCommand, List.drop_append_of_le_length inside]
    simp
  obtain ⟨a, stop, starts⟩ := field_prefix some_
  exact field_of_prefix (field_inside _) stop (starts.trans (c.sCommand_prefix_memory off))

end

/-! ## What goes on -/

section
variable {h : RelayHub} {u : Speaker} {c : DcCommand} {r : Relay}

theorem word_length_le {k : NickCommand} (kind : c.kind = some k) : k.word.length ≤ c.body.length := by
  have found := List.find?_some kind
  have clean : pipe ∉ k.word := by
    cases k with
    | search bMulti => exact searchWord_clean
    | _ => decide
  obtain ⟨rest, body⟩ := DcCommand.body_of_word found clean
  rw [body, List.length_append]
  exact Nat.le_add_right _ _

theorem entry_text_prefix (e : Entry) : e.sNick ++ [blank] <+: e.text.drop 13 := by
  have text : e.text = ascii "$MyINFO $ALL " ++ (e.sNick ++ blank :: (e.description ++
      joined dollar [[e.mode], e.connection, e.email, e.share, [124]])) := by
    have first : ascii "$MyINFO $ALL " = dollar :: ascii "MyINFO " ++ dollar :: ascii "ALL " := by
      decide
    simp [Entry.text, Entry.segments, Entry.pattern, joined, first]
  rw [text]
  exact ⟨_, by
    rw [List.append_assoc]
    rfl⟩

theorem generated_nick (form : InfoForm) {taking : InfoSettings} (making : InfoSettings)
    {judge : Text → TagVerdict} {info : MyInfo} (taken : u.takeMyInfo taking judge c.sCommand = some info) :
    nickField blank ((form.generate u.toInfoOwner making info).drop 13) = u.sNick := by
  have onePipe : 124 ∉ c.sCommand.dropLast := by
    rw [DcCommand.sCommand, List.dropLast_concat]
    exact c.noPipe
  obtain ⟨e, nick, text⟩ := stored_entry
    (⟨u.sNick, _, u.toInfoOwner, taking, making, judge, c.sCommand, info, rfl, onePipe, taken, rfl⟩ :
      InfoUser form)
  have starts := entry_text_prefix e
  rw [nick, text] at starts
  exact nickField_blank u.validNick starts

theorem myInfo_nicks (relayed : r ∈ myInfo h u c) : r.nicks = [u.sNick] := by
  unfold myInfo at relayed
  split at relayed
  · cases relayed
  · split at relayed
    · cases relayed
    · rename_i info taken
      dsimp only at relayed
      have made : r = .myInfo (u.generateMyInfoLong info) ∨
          r = .myInfo (u.generateMyInfoShort h.infoSettings info) := by
        have short {b : Bool} {s : Relay} (mem : r ∈ if b then [s] else []) : r = s := by
          cases b with
          | true => exact List.mem_singleton.mp mem
          | false => cases mem
        split at relayed
        · exact .inl (short relayed)
        · split at relayed
          · exact .inr (short relayed)
          · split at relayed
            · cases List.mem_cons.mp relayed with
              | inl first => exact .inl first
              | inr second => exact .inr (short second)
            · cases relayed
      have nick (form : InfoForm) := generated_nick form h.infoSettings taken
      cases made with
      | inl long =>
        rw [long]
        exact congrArg (fun n => [n]) (nick .long)
      | inr short =>
        rw [short]
        exact congrArg (fun n => [n]) (nick .short)

theorem setExtJson_nicks (kind : c.kind = some .extJson) (relayed : r ∈ setExtJson h u c) :
    (∀ n ∈ r.nicks, n = u.sNick) ↔
      c.nickAt 9 u.sNick blank = true ∨ c.nickAt 9 u.sNick pipe = true := by
  have inside : 9 ≤ c.body.length := word_length_le kind
  unfold setExtJson at relayed
  dsimp only at relayed
  split at relayed
  · cases relayed
  · rename_i accepted
    simp only [Bool.or_eq_true, not_or, List.isEmpty_iff] at accepted
    have whole : c.sCommand.take (c.commandLen % 65536) = c.sCommand := by
      have short := c.short
      have length : c.sCommand.length = c.body.length + 1 := by simp [DcCommand.sCommand]
      by_cases fits : c.commandLen < 65536
      · rw [Nat.mod_eq_of_lt fits, DcCommand.commandLen, ← length, List.take_length]
      · have full : c.commandLen = 65536 := by
          unfold DcCommand.commandLen at fits ⊢
          omega
        exact absurd (by rw [full]; rfl) accepted.2
    rw [List.mem_singleton.mp relayed, whole, Relay.nicks, List.forall_mem_singleton,
      ← nickField_memory inside]
    constructor
    · intro exact_
      have some_ : ∃ a ∈ c.memory.drop 9, closes blank a = true := by
        refine ⟨pipe, (c.sCommand_prefix_memory 9).subset ?_, by decide⟩
        rw [DcCommand.sCommand, List.drop_append_of_le_length inside]
        simp
      obtain ⟨a, stop, starts⟩ := field_prefix some_
      rw [← nickField, exact_] at starts
      rw [closes, Bool.or_eq_true, decide_eq_true_eq, decide_eq_true_eq] at stop
      cases stop with
      | inl same => exact .inl (DcCommand.nickAt_iff.mpr (same ▸ starts))
      | inr same => exact .inr (DcCommand.nickAt_iff.mpr (same ▸ starts))
    · rintro (at_ | at_)
      · exact nickField_blank u.validNick (DcCommand.nickAt_iff.mp at_)
      · apply field_of_prefix _ (by decide) (DcCommand.nickAt_iff.mp at_)
        intro a mem
        obtain ⟨noBlank, -, noPipe⟩ := u.validNick a mem
        rw [closes, Bool.or_eq_false_iff, decide_eq_false_iff_not, decide_eq_false_iff_not]
        exact ⟨noBlank, noPipe⟩

theorem revConnectToMe_nicks (kind : c.kind = some .revConnectToMe)
    (relayed : r ∈ revConnectToMe h u c) : r.nicks = [u.sNick] := by
  have inside : 16 ≤ c.body.length := word_length_le kind
  unfold revConnectToMe at relayed
  split at relayed
  · cases relayed
  · rename_i fits
    split at relayed
    · cases relayed
    · simp only [Bool.or_eq_true, not_or, Bool.not_eq_true', Bool.not_eq_false] at fits
      have starts := DcCommand.nickAt_sCommand inside u.validNick (by decide) fits.1.1.2
      rw [List.mem_singleton.mp relayed, Relay.nicks,
        nickField_blank u.validNick (starts.trans (c.body_prefix 16))]

theorem lowerCase_blank : ∀ m : Fin 256, lowerCase (UInt8.ofFin m) = blank →
    UInt8.ofFin m = blank := by
  decide +kernel

theorem iequals_blank {a b : Text} (same : iequals a b = true) (mem : blank ∈ b) : blank ∈ a := by
  have lower : lowerCase blank ∈ b.map lowerCase := List.mem_map_of_mem mem
  rw [← iequals_iff.mp same] at lower
  obtain ⟨x, there, eq⟩ := List.mem_map.mp lower
  exact lowerCase_blank x.toFin eq ▸ there

theorem iequals_length {a b : Text} (same : iequals a b = true) : a.length = b.length := by
  have lengths := congrArg List.length (iequals_iff.mp same)
  rwa [List.length_map, List.length_map] at lengths

theorem lastIdxOf?_some {a : UInt8} {s : Text} {i : Nat} (at_ : lastIdxOf? a s = some i) :
    s[i]? = some a := by
  obtain ⟨j, found, rfl⟩ := Option.map_eq_some_iff.mp at_
  obtain ⟨lt, same, -⟩ := List.idxOf?_eq_some_iff.mp found
  rw [List.getElem_reverse] at same
  rw [← same, List.length_reverse] at *
  exact List.getElem?_eq_getElem _

/-- An answer goes to a nick behind that of the sender, whose blank is in no nick. -/
theorem sr_nicks (kind : c.kind = some .sr) (relayed : r ∈ sr h u c) : r.nicks = [u.sNick] := by
  have inside : 4 ≤ c.body.length := word_length_le kind
  unfold sr at relayed
  split at relayed
  · cases relayed
  · rename_i fits
    simp only [Bool.or_eq_true, not_or, Bool.not_eq_true', Bool.not_eq_false] at fits
    have starts := DcCommand.nickAt_sCommand inside u.validNick (by decide) fits.2
    split at relayed
    · cases relayed
    · rename_i i at_
      split at relayed
      · cases relayed
      · rename_i other found
        split at relayed
        · have five := lastIdxOf?_some at_
          obtain ⟨lt, -⟩ := List.getElem?_eq_some_iff.mp five
          have same := h.found _ _ found
          have length : c.commandLen - other.sNick.length - 1 = i + 1 := by
            rw [iequals_length same, List.length_drop, DcCommand.commandLen]
            omega
          have gap : c.body[4 + u.sNick.length]? = some blank := by
            obtain ⟨rest, eq⟩ := starts
            rw [← List.getElem?_drop, ← eq, List.append_assoc,
              List.getElem?_append_right (Nat.le_refl _), Nat.sub_self]
            rfl
          have behind : 4 + u.sNick.length < i := by
            by_cases before : i < 4 + u.sNick.length
            · have mem : blank ∈ c.body.drop (i + 1) := by
                apply List.mem_of_getElem? (i := 4 + u.sNick.length - (i + 1))
                rw [List.getElem?_drop, Nat.add_sub_cancel' before]
                exact gap
              exact absurd rfl (other.validNick blank (iequals_blank same mem)).1
            · by_cases at_end : i = 4 + u.sNick.length
              · rw [at_end, gap] at five
                cases five
              · omega
          have cut : ((c.sCommand.set i pipe).set (i + 1) 0).take (i + 1) = c.body.take i ++ [pipe] := by
            rw [List.take_set_of_le (Nat.le_refl _), DcCommand.sCommand, List.set_append_left _ _ lt,
              List.take_append_of_le_length (by rw [List.length_set]; omega),
              List.set_eq_take_append_cons_drop, if_pos lt, ← List.singleton_append,
              ← List.append_assoc, List.take_left' (by simp; omega)]
          have kept : u.sNick ++ [blank] <+: (c.body.take i ++ [pipe]).drop 4 := by
            rw [List.drop_append_of_le_length (by rw [List.length_take]; omega), List.drop_take]
            apply List.IsPrefix.trans _ (List.prefix_append _ _)
            rw [List.prefix_take_iff]
            exact ⟨starts, by simp; omega⟩
          rw [List.mem_singleton.mp relayed, Relay.nicks, length, cut,
            nickField_blank u.validNick kept]
        · cases relayed

/-- What the comparison of `To` has found. -/
theorem fromText_sent {after : Nat} (inside : after ≤ c.body.length)
    (same : c.matchBytes after (fromText u.sNick) = true) :
    ∃ rest, c.sCommand.drop after = fromText u.sNick ++ rest := by
  have clean : pipe ∉ fromText u.sNick := by
    have noPipe : pipe ∉ u.sNick := fun mem => (u.validNick pipe mem).2.2 rfl
    have fixed : pipe ∉ ascii "From: " ∧ pipe ∉ ascii " $<" ∧ pipe ∉ ascii "> " := by decide
    simp only [fromText, List.mem_append, not_or]
    exact ⟨fixed.1, noPipe, fixed.2.1, noPipe, fixed.2.2⟩
  obtain ⟨rest, eq⟩ := ((DcCommand.prefix_memory_iff inside clean).mp
    (DcCommand.matchBytes_iff.mp same)).trans (c.body_prefix after)
  exact ⟨rest, eq.symm⟩

theorem angleField_iff {sNick : Text} (valid : ValidNick sNick) (rest : Text) :
    nickField angle (sNick ++ angle :: rest) = sNick ↔ angle ∉ sNick :=
  nickField_iff valid ⟨rest, by rw [List.append_assoc, List.singleton_append]⟩

theorem toOpChat_nicks {after : Nat} {rest : Text}
    (sent : c.sCommand.drop after = fromText u.sNick ++ rest) :
    (∀ n ∈ (Relay.toOpChat (opChatText h u c after)).nicks, n = u.sNick) ↔ angle ∉ u.sNick := by
  have text : opChatText h u c after =
      h.opChatNick ++ blank :: dollar :: 60 :: (u.sNick ++ angle :: blank :: rest) := by
    have drop_ : (fromText u.sNick ++ rest).drop (6 + u.sNick.length) =
        blank :: dollar :: 60 :: (u.sNick ++ angle :: blank :: rest) := by
      have first : (ascii "From: " ++ u.sNick).length = 6 + u.sNick.length := by
        rw [List.length_append]
        rfl
      have split : fromText u.sNick ++ rest = (ascii "From: " ++ u.sNick) ++
          (ascii " $<" ++ (u.sNick ++ (ascii "> " ++ rest))) := by
        simp [fromText]
      rw [split, ← first, List.drop_left]
      rfl
    rw [opChatText, Nat.add_assoc, ← List.drop_drop, sent, drop_]
  have op : nickField blank (opChatText h u c after) = h.opChatNick := by
    apply nickField_blank h.validOpChat
    rw [text]
    exact ⟨_, by rw [List.append_assoc, List.singleton_append]⟩
  rw [Relay.nicks, List.forall_mem_singleton, op, text, ← List.drop_drop, List.drop_left]
  exact angleField_iff u.validNick _

theorem to_nicks {i : Nat} {rest : Text} (at_ : (c.body.drop 5).idxOf? blank = some i)
    (sent : c.sCommand.drop (5 + i + 1) = fromText u.sNick ++ rest) :
    (∀ n ∈ (Relay.toUser c.sCommand).nicks, n = u.sNick) ↔ angle ∉ u.sNick := by
  have split := split_idxOf? at_
  have clean := not_mem_take_idxOf? at_
  obtain ⟨lt, -⟩ := List.idxOf?_eq_some_iff.mp at_
  rw [List.length_drop] at lt
  have sFrom : (((c.sCommand.drop 5).dropWhile (· ≠ blank)).drop 7) =
      u.sNick ++ blank :: dollar :: 60 :: (u.sNick ++ angle :: blank :: rest) := by
    have tail : (c.body.drop 5).drop (i + 1) ++ [pipe] = fromText u.sNick ++ rest := by
      rw [← sent, DcCommand.sCommand, List.drop_drop,
        List.drop_append_of_le_length (by omega), Nat.add_assoc]
    rw [DcCommand.sCommand, List.drop_append_of_le_length (by omega), split, List.append_assoc,
      List.cons_append, tail, List.dropWhile_append_of_pos, List.dropWhile_cons_of_neg (by simp)]
    · simp [fromText]
      rfl
    · intro a mem
      rw [decide_eq_true_eq]
      exact fun same => clean (same ▸ mem)
  have first : nickField blank (u.sNick ++ blank :: dollar :: 60 ::
      (u.sNick ++ angle :: blank :: rest)) = u.sNick := by
    apply nickField_blank u.validNick
    exact ⟨_, by rw [List.append_assoc, List.singleton_append]⟩
  have second : (u.sNick ++ blank :: dollar :: 60 :: (u.sNick ++ angle :: blank :: rest)).drop
      (u.sNick.length + 3) = u.sNick ++ angle :: blank :: rest := by
    rw [← List.drop_drop, List.drop_left]
    rfl
  rw [Relay.nicks, sFrom, first, second, ← angleField_iff u.validNick (blank :: rest)]
  simp

theorem to_relays_nicks (relayed : r ∈ to_ h u c) :
    (∀ n ∈ r.nicks, n = u.sNick) ↔ angle ∉ u.sNick := by
  unfold to_ at relayed
  split at relayed
  · cases relayed
  · rename_i i at_
    dsimp only at relayed
    obtain ⟨lt, -⟩ := List.idxOf?_eq_some_iff.mp at_
    rw [List.length_drop] at lt
    split at relayed
    · cases relayed
    · rename_i fits
      simp only [Bool.or_eq_true, not_or, Bool.not_eq_true', Bool.not_eq_false] at fits
      obtain ⟨rest, sent⟩ := fromText_sent (by omega) fits.1.2
      have toOp : (∀ n ∈ (Relay.toOpChat (opChatText h u c (5 + i + 1))).nicks, n = u.sNick) ↔
          angle ∉ u.sNick := toOpChat_nicks sent
      split at relayed
      · cases relayed
      · split at relayed
        · cases relayed
        · split at relayed
          · split at relayed
            · cases relayed
            · split at relayed
              · exact List.mem_singleton.mp relayed ▸ toOp
              · cases relayed
          · split at relayed
            · exact List.mem_singleton.mp relayed ▸ toOp
            · split at relayed
              · cases relayed
              · exact List.mem_singleton.mp relayed ▸ to_nicks at_ sent

theorem passiveText_nick (sNick : Text) (valid : ValidNick sNick) (query : Text) :
    (Relay.search (passiveText sNick query)).nicks = [sNick] := by
  have text : (passiveText sNick query).drop 12 = sNick ++ blank :: query := by
    rw [passiveText, List.append_assoc]
    rfl
  have starts : sNick ++ [blank] <+: sNick ++ blank :: query :=
    ⟨query, by rw [List.append_assoc, List.singleton_append]⟩
  rw [Relay.nicks, text, nickField_blank valid starts]

theorem searchIPv4_passive {port : Nat} {query sData : Text}
    (queued : (.passive, sData) = searchIPv4 u.toSender port query) :
    sData = passiveText u.sNick query := by
  unfold searchIPv4 at queued
  split at queued
  · cases queued
  · exact (Prod.mk.inj queued).2

theorem fixedSearches_passive {port : Nat} {query sData : Text}
    (queued : (.passive, sData) ∈ fixedSearches u.toSender port query) :
    sData = passiveText u.sNick query := by
  unfold fixedSearches at queued
  split at queued
  · cases List.mem_cons.mp queued with
    | inl first =>
      split at first
      · cases first
      · exact (Prod.mk.inj first).2
    | inr second =>
      split at second
      · exact searchIPv4_passive (List.mem_singleton.mp second)
      · cases second
  · split at queued
    · cases List.mem_singleton.mp queued
    · cases queued

theorem ownSearches_passive {bMulti : Bool} {port : Nat} {query sData : Text}
    (queued : (.passive, sData) ∈ ownSearches u.toSender c bMulti port query) :
    sData = passiveText u.sNick query := by
  unfold ownSearches at queued
  dsimp only at queued
  split at queued
  · cases List.mem_cons.mp queued with
    | inl first => cases first
    | inr second =>
      split at second
      · exact searchIPv4_passive (List.mem_singleton.mp second)
      · cases second
  · cases List.mem_singleton.mp queued

theorem activeSearch_passive {bMulti : Bool} {sData : Text}
    (queued : (.passive, sData) ∈ activeSearch h.toHub u.toSender c bMulti) :
    ∃ query, sData = passiveText u.sNick query := by
  unfold activeSearch at queued
  dsimp only at queued
  generalize lengthFits h.toHub u.toSender c 4 ((if bMulti = true then 13 else 8) + 9) true = fits
    at queued
  generalize (if bMulti = true then 13 else 8) = off at queued
  split at queued
  · cases queued
  · split at queued
    · cases queued
    · split at queued
      · cases queued
      · split at queued
        · cases queued
        · split at queued
          · exact ⟨_, fixedSearches_passive queued⟩
          · exact ⟨_, ownSearches_passive queued⟩

theorem nickSearch_nicks {bMulti : Bool} (kind : c.kind = some (.search bMulti))
    (relayed : r ∈ nickSearch h u c bMulti) : r.nicks = [u.sNick] := by
  obtain ⟨⟨queue, sData⟩, queued, eq⟩ := List.mem_filterMap.mp relayed
  dsimp only at eq
  split at eq
  · rename_i passive
    subst passive
    cases eq
    unfold search at queued
    generalize (if bMulti = true then 15 else 10) = least at queued
    split at queued
    · cases queued
    · split at queued
      · rename_i hub
        rw [Bool.and_eq_true, Bool.not_eq_true'] at hub
        obtain ⟨single, hub⟩ := hub
        have eight : 8 ≤ c.body.length := by
          have le := word_length_le kind
          rwa [single] at le
        have starts := (DcCommand.prefix_memory_iff eight (by decide)).mp
          (DcCommand.matchBytes_iff.mp hub)
        have inside : 12 ≤ c.body.length := by
          have four : (ascii "Hub:").length = 4 := rfl
          have le := starts.length_le
          rw [four, List.length_drop] at le
          omega
        unfold passiveSearch at queued
        split at queued
        · cases queued
        · rename_i at_
          rw [Bool.not_eq_true', Bool.not_eq_false] at at_
          split at queued
          · cases queued
          · rw [(Prod.mk.inj (List.mem_singleton.mp queued)).2, Relay.nicks,
              nickField_blank u.validNick
                ((DcCommand.nickAt_sCommand inside u.validNick (by decide) at_).trans
                  (c.body_prefix 12))]
      · obtain ⟨query, text⟩ := activeSearch_passive queued
        rw [text, passiveText_nick u.sNick u.validNick]
  · cases eq

theorem chat_nicks (relayed : r ∈ chat h u c) :
    (∀ n ∈ r.nicks, n = u.sNick) ↔ angle ∉ u.sNick := by
  unfold chat at relayed
  split at relayed
  · cases relayed
  · rename_i ok
    simp only [Bool.or_eq_true, not_or, Bool.not_eq_true', Bool.not_eq_false] at ok
    split at relayed
    · cases relayed
    · rename_i left goes
      simp only [accepted, Bool.and_eq_true, decide_eq_true_eq] at ok
      obtain ⟨⟨⟨⟨⟨⟨⟨ends, -⟩, nick⟩, close⟩, -⟩, -⟩, -⟩, -⟩ := ok
      have same := processChat_left ends goes
      have starts : u.sNick ++ [angle] <+: c.sCommand.drop 1 := by
        obtain ⟨lt, at_⟩ := List.getElem?_eq_some_iff.mp close
        refine ⟨(c.sCommand.drop 1).drop (u.sNick.length + 1), ?_⟩
        have next : (c.sCommand.drop 1).drop u.sNick.length =
            angle :: (c.sCommand.drop 1).drop (u.sNick.length + 1) := by
          rw [List.drop_drop, List.drop_drop, Nat.add_comm 1, List.drop_eq_getElem_cons lt, at_,
            Nat.add_comm 1]
          rfl
        rw [List.append_assoc, List.singleton_append, ← next]
        calc u.sNick ++ (c.sCommand.drop 1).drop u.sNick.length
            = (c.sCommand.drop 1).take u.sNick.length ++ (c.sCommand.drop 1).drop u.sNick.length := by
              rw [nick]
          _ = c.sCommand.drop 1 := List.take_append_drop _ _
      rw [List.mem_singleton.mp relayed, same, Relay.nicks, List.forall_mem_singleton]
      exact nickField_iff u.validNick starts

/-- What goes on of a command has its sender as the nick exactly if only the nick can be
read there. -/
theorem relayed_nick_iff (h : RelayHub) (u : Speaker) (c : DcCommand) (r : Relay)
    (relayed : r ∈ relays h u c) : (∀ nick ∈ r.nicks, nick = u.sNick) ↔ NickExact u c := by
  have always (same : r.nicks = [u.sNick]) : (∀ nick ∈ r.nicks, nick = u.sNick) ↔ True := by
    rw [same, List.forall_mem_singleton, eq_self_iff_true]
  unfold relays at relayed
  unfold NickExact
  cases kind : c.kind with
  | none =>
    rw [kind] at relayed
    cases relayed
  | some k =>
    rw [kind] at relayed
    cases k with
    | myInfo => exact always (myInfo_nicks relayed)
    | extJson => exact setExtJson_nicks kind relayed
    | revConnectToMe => exact always (revConnectToMe_nicks kind relayed)
    | sr => exact always (sr_nicks kind relayed)
    | to_ => exact to_relays_nicks relayed
    | search bMulti => exact always (nickSearch_nicks kind relayed)
    | chat => exact chat_nicks relayed

end

def speakingNora : Speaker := { nora with noChatLimits := true, allowedOpChat := false }

/-- A hub with `bob`, without limits and bots. -/
def relayToBob : RelayHub :=
  { hubOfBob with
    infoSettings := Users.plainSettings
    judge := fun _ => .bad
    fullMyInfoOption := 0
    isNew := fun _ => true
    chat := plainSettings
    maxRctmLen := 512
    maxSrLen := 512
    maxPmLen := 0
    srLeft := fun _ => true
    regBot := false
    botNick := []
    botsSameNick := false
    botTakes := fun _ => false
    regOpChat := false
    opChatNick := []
    validOpChat := by simp [ValidNick] }

/-- An answer to `bob`. -/
def answerToBob : DcCommand :=
  ⟨ascii "$SR nora file 1/2\x05bob", [], by decide +kernel, by decide +kernel, by decide⟩

theorem relayed_nick_nora :
    (∀ nick ∈ (Relay.sr (ascii "$SR nora file 1/2|")).nicks, nick = speakingNora.sNick) ↔
      NickExact speakingNora answerToBob :=
  relayed_nick_iff relayToBob speakingNora answerToBob _ (by decide +kernel)

/-- An ExtJSON of another nick that starts with the nick of its sender. -/
def foreignExtJson : DcCommand :=
  ⟨ascii "$ExtJSON norah \x7b\x7d", [], by decide +kernel, by decide +kernel, by decide⟩

theorem extJson_of_norah :
    ¬∀ r ∈ relays relayToBob speakingNora foreignExtJson, ∀ nick ∈ r.nicks,
      nick = speakingNora.sNick := by
  intro all
  exact absurd (all (.extJson foreignExtJson.sCommand) (by decide +kernel) (ascii "norah")
    (by decide +kernel)) (by decide +kernel)

end FlyHub.Commands
