import FlyHub.Lists.MyInfo
import FlyHub.Session.Login

/-!
# What the long MyINFO says

The long MyINFO says what the command of the client says, but for its status byte. There the hub
knows the addresses better, and two bits are for clients with TLS only. They announce it with
`TLS2` in `$Supports`, which is kept in another field than the one that is tested.
-/

namespace FlyHub.Lists

open FlyHub.Session

/-! ## What is announced -/

/-- BIT_PINGER, of `m_ui32BoolBits`. -/
def bitPinger : UInt32 := 0x100

/-- SUPPORTBIT_TLS2, of `m_ui32SupportBits`. -/
def supportbitTls2 : UInt32 := 0x100

/-- What the tokens of a `$Supports` leave in `m_ui32BoolBits`. -/
def supportedBoolBits (tokens : List Text) : UInt32 :=
  tokens.foldl (fun bits sSupport =>
    if sSupport = ascii "BotINFO" then bits ||| bitPinger else bits) 0

/-- The bit that `GenerateMyInfoLong` tests. -/
def testsTls2 (tokens : List Text) : Bool :=
  supportedBoolBits tokens &&& supportbitTls2 = supportbitTls2

theorem supportedBoolBits_eq (tokens : List Text) :
    supportedBoolBits tokens = if ascii "BotINFO" ∈ tokens then bitPinger else 0 := by
  have set (tokens : List Text) : tokens.foldl (fun bits sSupport =>
      if sSupport = ascii "BotINFO" then bits ||| bitPinger else bits) bitPinger = bitPinger := by
    induction tokens with
    | nil => rfl
    | cons t tokens ih =>
      rw [List.foldl_cons]
      split
      · exact ih
      · exact ih
  unfold supportedBoolBits
  induction tokens with
  | nil => rfl
  | cons t tokens ih =>
    rw [List.foldl_cons]
    by_cases bot : t = ascii "BotINFO"
    · have first : (0 : UInt32) ||| bitPinger = bitPinger := rfl
      rw [if_pos bot, first, set, if_pos (bot ▸ List.mem_cons_self)]
    · have later : ascii "BotINFO" ∈ t :: tokens ↔ ascii "BotINFO" ∈ tokens := by
        rw [List.mem_cons, or_iff_right (Ne.symm bot)]
      rw [if_neg bot, ih]
      simp only [later]

/-- The pingers pass the test. -/
theorem testsTls2_iff (tokens : List Text) :
    testsTls2 tokens = true ↔ ascii "BotINFO" ∈ tokens := by
  rw [testsTls2, supportedBoolBits_eq, decide_eq_true_eq]
  split
  · simp_all [bitPinger, supportbitTls2]
  · simp_all [supportbitTls2]

/-! ## The parts again -/

/-- The parts of a MyINFO behind the nick. -/
def infoParts (sNick sMyInfo : Text) : List Text :=
  closedParts 5 (sMyInfo.drop (14 + sNick.length)).dropLast

/-- The status byte has the mode of the client, its TLS bits if it has announced TLS, and the
addresses of its connection. -/
structure InfoOwner.StatusFits (o : InfoOwner) (tls2 : Bool) (said status : UInt8) : Prop where
  mode : status &&& 0x0F = said &&& 0x0F
  tls : status &&& 0x30 = if tls2 then said &&& 0x30 else 0
  ipv4 : status &&& 0x40 ≠ 0 ↔ o.ipv4 = true
  ipv6 : status &&& 0x80 ≠ 0 ↔ o.ipv6 = true

/-- The MyINFO says the same as the command, part by part and as it is read. -/
structure InfoOwner.SaysSame (o : InfoOwner) (tls2 : Bool) (judge : Text → TagVerdict)
    (sCommand sMyInfo : Text) : Prop where
  nick : ascii "$MyINFO $ALL " ++ o.sNick ++ [blank] <+: sMyInfo
  parts : ∃ part gap connection said email share status,
    infoParts o.sNick sCommand = [part, gap, connection ++ [said], email, share] ∧
      infoParts o.sNick sMyInfo =
        [part, [blank], connection ++ [status], email, decimal (number share)] ∧
      o.StatusFits tls2 said status
  read : ∃ info status, parseMyInfo judge o.sNick sCommand = some info ∧
    parseMyInfo judge o.sNick sMyInfo = some { info with magicByte := status }

section
variable {judge : Text → TagVerdict} {sNick sCommand : Text} {info : MyInfo} {o : InfoOwner}

theorem closedParts_cons {w : Text} (clean : dollar ∉ w) (n : Nat) (rest : Text) :
    closedParts (n + 1) (w ++ dollar :: rest) = w :: closedParts n rest := by
  have take : (w ++ dollar :: rest).takeWhile (· ≠ dollar) = w := by
    rw [List.takeWhile_append_of_pos]
    · simp
    · intro c mem
      simpa using fun eq : c = dollar => clean (eq ▸ mem)
  have drop : (w ++ dollar :: rest).dropWhile (· ≠ dollar) = dollar :: rest := by
    rw [List.dropWhile_append_of_pos]
    · simp
    · intro c mem
      simpa using fun eq : c = dollar => clean (eq ▸ mem)
  rw [closedParts, drop, take]

/-- The parts of the command that is read. -/
theorem parse_parts (parsed : parseMyInfo judge sNick sCommand = some info) :
    ∃ part gap share, infoParts sNick sCommand =
        [part, gap, info.connection ++ [info.magicByte], info.email, share] ∧
      (info.description, info.tag, info.mode) = describe judge part ∧
      info.sharedSize = number share := by
  unfold parseMyInfo at parsed
  split at parsed
  · cases parsed
  · split at parsed
    · rename_i part gap connection email share eq
      split at parsed
      · cases parsed
      · split at parsed
        · rename_i magicByte sharedSize last fits
          cases parsed
          refine ⟨part, gap, share, ?_, rfl, ?_⟩
          · rw [infoParts, eq, List.dropLast_append_getLast? _ last]
          · unfold parseShare at fits
            split at fits
            · exact (Option.some.inj fits).symm
            · cases fits
        · cases parsed
    · cases parsed

theorem takeMyInfo_parse {cfg : InfoSettings} (taken : o.takeMyInfo cfg judge sCommand = some info) :
    parseMyInfo judge o.sNick sCommand = some info := by
  unfold InfoOwner.takeMyInfo at taken
  split at taken
  · cases taken
  · split at taken
    · cases taken
    · exact taken

/-- A tag that is kept stands behind the description. -/
theorem describe_whole {part : Text} (tagged : (describe judge part).2.1 ≠ []) :
    (describe judge part).1 ++ (describe judge part).2.1 = part := by
  unfold describe at tagged ⊢
  split at tagged
  · rename_i last
    rw [if_pos last]
    cases at_ : lastIdxOf? 60 part with
    | none => simp [at_] at tagged
    | some i =>
      rw [at_] at tagged
      dsimp only at tagged ⊢
      cases gap : (part.drop i).idxOf? blank with
      | none => simp [gap] at tagged
      | some j =>
        rw [gap] at tagged
        dsimp only at tagged ⊢
        split at tagged
        · rename_i version
          rw [if_pos version]
          cases verdict : judge (part.drop i) with
          | bad => simp [verdict] at tagged
          | good mode => exact List.take_append_drop i part
        · exact absurd rfl tagged
  · exact absurd rfl tagged

namespace InfoOwner

/-- The bits of the status byte. -/
theorem magic_bits (o : InfoOwner) (said : UInt8) :
    o.magic said &&& 0x0F = said &&& 0x0F ∧
      o.magic said &&& 0x30 = (if o.tls2 then said &&& 0x30 else 0) ∧
      (o.magic said &&& 0x40 ≠ 0 ↔ o.ipv4 = true) ∧ (o.magic said &&& 0x80 ≠ 0 ↔ o.ipv6 = true) := by
  have bits : ∀ (tls2 ipv4 ipv6 : Bool) (m : Fin 256),
      let m := UInt8.ofFin m
      let n := if tls2 then m else m &&& ~~~0x10 &&& ~~~0x20
      let n := if ipv4 then n ||| 0x40 else n &&& ~~~0x40
      let n := if ipv6 then n ||| 0x80 else n &&& ~~~0x80
      n &&& 0x0F = m &&& 0x0F ∧ n &&& 0x30 = (if tls2 then m &&& 0x30 else 0) ∧
        (n &&& 0x40 ≠ 0 ↔ ipv4 = true) ∧ (n &&& 0x80 ≠ 0 ↔ ipv6 = true) := by decide +kernel
  exact bits o.tls2 o.ipv4 o.ipv6 said.toFin

/-- The status byte is right just where the test doesn't matter. -/
theorem statusFits_iff (o : InfoOwner) (tls2 : Bool) (said : UInt8) :
    o.StatusFits tls2 said (o.magic said) ↔ o.tls2 = tls2 ∨ said &&& 0x30 = 0 := by
  obtain ⟨mode, tls, ipv4, ipv6⟩ := o.magic_bits said
  constructor
  · intro fits
    have same := tls.symm.trans fits.tls
    cases tested : o.tls2 <;> cases tls2 <;> simp_all
  · intro free
    refine ⟨mode, ?_, ipv4, ipv6⟩
    rw [tls]
    rcases free with same | zero
    · rw [same]
    · rw [zero, ite_self, ite_self]

/-- Where the two status bytes stand, they fit. -/
theorem SaysSame.fits {tls2 : Bool} {sMyInfo part gap connection email share part' gap' connection'
      email' share' : Text} {said status : UInt8} (same : o.SaysSame tls2 judge sCommand sMyInfo)
    (command : infoParts o.sNick sCommand = [part, gap, connection ++ [said], email, share])
    (long : infoParts o.sNick sMyInfo = [part', gap', connection' ++ [status], email', share']) :
    o.StatusFits tls2 said status := by
  obtain ⟨_, _, _, said', _, _, status', first, second, fits⟩ := same.parts
  rw [command] at first
  rw [long] at second
  simp only [List.cons.injEq] at first second
  have saidSame := (List.append_inj' first.2.2.1 rfl).2
  have statusSame := (List.append_inj' second.2.2.1 rfl).2
  rw [(List.cons.inj saidSame).1, (List.cons.inj statusSame).1]
  exact fits

/-- The parts of a MyINFO that is put together. -/
theorem infoParts_text (sNick : Text) {description connection email : Text} (status : UInt8)
    (sharedSize : Nat) (describes : dollar ∉ description) (connects : dollar ∉ connection)
    (mails : dollar ∉ email)
    (clean : status ≠ dollar) :
    infoParts sNick (myInfoText sNick description [blank] connection status email sharedSize) =
      [description, [blank], connection ++ [status], email, decimal sharedSize] := by
  have start : (ascii "$MyINFO $ALL " ++ sNick ++ [blank]).length = 14 + sNick.length := by
    have word : (ascii "$MyINFO $ALL ").length = 13 := rfl
    simp only [List.length_append, List.length_cons, List.length_nil, word]
    omega
  have whole : myInfoText sNick description [blank] connection status email sharedSize =
      (ascii "$MyINFO $ALL " ++ sNick ++ [blank]) ++ ((description ++ dollar :: ([blank] ++ dollar ::
        ((connection ++ [status]) ++ dollar :: (email ++ dollar ::
          (decimal sharedSize ++ dollar :: []))))) ++ [124]) := by
    simp [myInfoText]
  have gap : dollar ∉ ([blank] : Text) := by decide
  have joined : dollar ∉ connection ++ [status] := by simp [connects, clean.symm]
  have digits : dollar ∉ decimal sharedSize := not_digit (isDigit_decimal sharedSize) (by decide)
  rw [infoParts, whole, ← start, List.drop_left, List.dropLast_concat, closedParts_cons describes,
    closedParts_cons gap, closedParts_cons joined, closedParts_cons mails, closedParts_cons digits]
  rfl

/-- A MyINFO with these parts is read as what they say. -/
theorem parse_of_parts {part email : Text} {connection : Text} {status : UInt8} {sharedSize : Nat}
    {s : Text} (parts : infoParts sNick s =
      [part, [blank], connection ++ [status], email, decimal sharedSize])
    (small : sharedSize < Nat.pow 2 64) :
    parseMyInfo judge sNick s = some ⟨(describe judge part).1, (describe judge part).2.1,
      (describe judge part).2.2, connection, status, email, sharedSize⟩ := by
  have long : ¬s.length ≤ 14 + sNick.length := by
    intro short
    rw [infoParts, List.drop_eq_nil_of_le short] at parts
    cases parts
  have digits : haveOnlyNumbers (decimal sharedSize) = true :=
    List.all_eq_true.mpr (isDigit_decimal sharedSize)
  have some_ : (decimal sharedSize).length ≠ 0 := by
    rw [decimal, List.length_map]
    exact fun none_ => Nat.toDigits_ne_nil (List.length_eq_zero_iff.mp none_)
  have share : parseShare (decimal sharedSize) = some sharedSize := by
    rw [parseShare, number_decimal, if_pos small]
  rw [infoParts] at parts
  simp [parseMyInfo, long, parts, digits, some_, share]

end InfoOwner

end

/-! ## A client with TLS -/

theorem plainNick : ValidNick (ascii "a") := by
  intro c mem
  cases List.mem_singleton.mp mem
  decide

theorem ipv4_hasIp : (true || false) = true := rfl

/-- A client of an IPv4 address that has sent these tokens. -/
def clientOf (tokens : List Text) : InfoOwner :=
  ⟨ascii "a", true, false, testsTls2 tokens, plainNick, ipv4_hasIp⟩

def longSettings : InfoSettings := ⟨false, false, false, false, false, false, 512, le_rfl⟩

/-- Every tag is good. -/
def allGood (_ : Text) : TagVerdict := .good none

/-- The status byte is 0x11. -/
def tlsInfo : Text := ascii "$MyINFO $ALL a hi<C V:1>$ $LAN" ++ [0x11] ++ ascii "$a@b$007$|"

/-- What is read of it. -/
def tlsMyInfo : MyInfo :=
  ⟨ascii "hi", ascii "<C V:1>", none, ascii "LAN", 0x11, ascii "a@b", 7⟩

end FlyHub.Lists
