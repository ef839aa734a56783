import FlyHub.Connection.ProxyGuard
import FlyHub.Lib.Bits
import FlyHub.Lib.Run
import FlyHub.Lists.MyInfo
import FlyHub.Session.State

/-!
# The IPv4 address of an IPv6 user

An IPv6 user that knows of the check is asked to connect once more, over IPv4, and to tell its
nick there. Where that connection comes from is the address that the hub takes for the user. The
addresses of tunnels hold an IPv4 address too, and the hub takes that one at the end of the login.
-/

namespace FlyHub.Session

open FlyHub.Connection FlyHub.Lib FlyHub.Lists

/-! ## Users -/

namespace UserBits

def operator : BitVec 32 := 0x4
def getNickList : BitVec 32 := 0x10
def ipv4Active : BitVec 32 := 0x20
def tempOperator : BitVec 32 := 0x80
def pinger : BitVec 32 := 0x100
def ipv6 : BitVec 32 := 0x800000
def ipv4 : BitVec 32 := 0x1000000

end UserBits

namespace UserSupportBits

def quickList : BitVec 32 := 0x8
def ipv4 : BitVec 32 := 0x80

end UserSupportBits

/-- What a user has of addresses, and all that the check looks at. -/
structure Ipv4User where
  state : UserState
  boolBits : BitVec 32
  supportBits : BitVec 32
  ipHash : List UInt8
  sIP : Text
  sIPv4 : Text
  ipv4Len : Nat
  logonTick : UInt64
  ipv4CheckTick : UInt64

/-- `inet_ntop` for `AF_INET`. -/
def dotted (bytes : List UInt8) : Text :=
  List.intercalate [46] (bytes.map fun b => decimal b.toNat)

/-- `ui128IpHash` of `AcceptUser`. -/
def acceptHash : Address → List UInt8
  | .inet a b c d => [0, 0, 0, 0, 0, 0, 0, 0, 0, 0, 255, 255, a, b, c, d]
  | .inet6 sin6_addr => sin6_addr.toList

/-- `bIPv6` of `AcceptUser`. -/
def isIPv6User : Address → Bool
  | .inet .. => false
  | .inet6 sin6_addr => !isV4Mapped sin6_addr

/-- `AcceptUser`. `ipText` is `inet_ntop` for `AF_INET6`. -/
def acceptUser (ipText : Vector UInt8 16 → Text) (addr : Address) (ui64ActualTick : UInt64) :
    Ipv4User where
  state := .socketAccepted
  boolBits := UserBits.ipv4Active ||| if isIPv6User addr then UserBits.ipv6 else UserBits.ipv4
  supportBits := 0
  ipHash := acceptHash addr
  sIP :=
    match addr with
    | .inet a b c d => dotted [a, b, c, d]
    | .inet6 sin6_addr =>
      if isV4Mapped sin6_addr then dotted (sin6_addr.toList.drop 12) else ipText sin6_addr
  sIPv4 := []
  ipv4Len := 0
  logonTick := ui64ActualTick
  ipv4CheckTick := 0

def inAddrNone : List UInt8 := [255, 255, 255, 255]

/-- The IPv4 address in the address of a tunnel, of 6to4 or Teredo. -/
def tunnelAddr (ipHash : List UInt8) : List UInt8 :=
  if ipHash.take 2 = [32, 2] then (ipHash.drop 2).take 4
  else if ipHash.take 4 = [32, 1, 0, 0] then (ipHash.drop 12).map fun b => b ^^^ 255
  else inAddrNone

/-- What `ReceiveLoop` comes to at a user: the tick, if a lock could be made, if too many users
log in, and if a script closes the user. -/
structure ReceiveTurn where
  actualTick : UInt64
  makeLock : Bool
  full : Bool
  closed : Bool

/-- What is left of a user by the commands and scripts that have nothing to do with the check. -/
structure OtherTurn where
  state : UserState
  boolBits : BitVec 32
  supportBits : BitVec 32

namespace Ipv4User

variable (u : Ipv4User)

def close : Ipv4User := if u.state.isPastLogin then u else { u with state := .closing }

/-- The user keeps a state that is given to it by the check and what follows. -/
def canBecome (t : OtherTurn) : Bool :=
  let kept := UserBits.ipv6 ||| UserBits.ipv4 ||| UserBits.tempOperator
  (t.boolBits &&& kept = u.boolBits &&& kept) &&
    (t.state = u.state ||
      u.state.toNat < UserState.ipv4Check.toNat && t.state.toNat < UserState.ipv4Check.toNat ||
      u.state = .addMe2Loop && t.state = .added || u.state = .closing && t.state = .remMe)

def become (t : OtherTurn) : Ipv4User :=
  if u.canBecome t then
    { u with state := t.state, boolBits := t.boolBits, supportBits := t.supportBits }
  else u

/-- `AddMeOrIPv4Check`, which is called before the check only. `hubIP` tells that the hub knows
its own address. -/
def addMeOrIPv4Check (hubIP useIPv4 : Bool) (ui64ActualTick : UInt64) : Ipv4User :=
  if u.state.toNat < UserState.ipv4Check.toNat then
    if HasBits u.boolBits UserBits.ipv6 ∧ HasBits u.supportBits UserSupportBits.ipv4 ∧
        hubIP ∧ useIPv4 then
      { u with state := .ipv4Check, ipv4CheckTick := ui64ActualTick }
    else { u with state := .addMe }
  else u

/-- The user that `MyNick` names. `m_sIPv4` has room for fifteen bytes. -/
def check (sIP : Text) : Ipv4User :=
  { u with
    sIPv4 := sIP.take 15
    ipv4Len := sIP.length
    boolBits := u.boolBits ||| UserBits.ipv4
    state := .addMe }

/-- The part of `Op` that the check looks at. -/
def op : Ipv4User :=
  if u.state.isPastLogin || HasBits u.boolBits UserBits.operator then u
  else { u with boolBits := u.boolBits ||| UserBits.operator ||| UserBits.tempOperator }

/-- The user waits for others to log in. -/
def waits (t : ReceiveTurn) : Bool := t.full && !HasBits u.boolBits UserBits.operator

example : UserSupportBits.ipv4 = UserBits.tempOperator := rfl

/-- The test for the support of the check looks into `m_ui32BoolBits`. -/
def usesTunnel : Bool :=
  HasBits u.boolBits UserBits.ipv6 && !HasBits u.boolBits UserSupportBits.ipv4 &&
    tunnelAddr u.ipHash ≠ inAddrNone

def takeTunnel : Ipv4User :=
  if u.usesTunnel then
    { u with
      sIPv4 := dotted (tunnelAddr u.ipHash)
      ipv4Len := (dotted (tunnelAddr u.ipHash)).length
      boolBits := u.boolBits ||| UserBits.ipv4 }
  else u

/-- `ReceiveLoop` at a user in `STATE_ADDME_1LOOP`. -/
def addMe1Loop (t : ReceiveTurn) : Ipv4User :=
  if u.waits t then
    if 300 < t.actualTick - u.logonTick then u.close else u
  else
    let u := u.takeTunnel
    if t.closed then u.close else { u with state := .addMe2Loop }

/-- `ReceiveLoop`. -/
def receive (t : ReceiveTurn) : Ipv4User :=
  match u.state with
  | .socketAccepted =>
    if t.actualTick ≠ u.logonTick then
      if t.makeLock then { u with state := .keyOrSup } else u.close
    else u
  | .keyOrSup => if 20 < t.actualTick - u.logonTick then u.close else u
  | .ipv4Check => if 10 < t.actualTick - u.ipv4CheckTick then { u with state := .addMe } else u
  | .addMe =>
    if ¬ HasBits u.boolBits UserBits.getNickList ∧
        ¬ HasBits u.supportBits UserSupportBits.quickList ∧
        HasBits u.boolBits UserBits.pinger then u
    else { u with state := .addMe1Loop }
  | .addMe1Loop => u.addMe1Loop t
  | _ => u

/-- The address of the tunnel is taken. -/
def takesTunnel (t : ReceiveTurn) : Bool :=
  u.state = .addMe1Loop && !u.waits t && u.usesTunnel

end Ipv4User

/-! ## The hub -/

/-- A user's check has succeeded, by a connection from an address, or the address of its tunnel
is taken. -/
inductive Ipv4Seen where
  | checked (c : UserId) (sIP : Text)
  | tunnel (c : UserId)
  deriving DecidableEq

/-- The users, and all that has been seen of their IPv4 addresses. -/
structure Ipv4Hub where
  users : UserId → Option Ipv4User
  seen : List Ipv4Seen

/-- `found` is what `FindUser` finds for the nick of a command. -/
inductive Ipv4Event where
  | accept (c : UserId) (addr : Address) (ui64ActualTick : UInt64)
  | other (c : UserId) (t : OtherTurn)
  | addMeOrIPv4Check (c : UserId) (hubIP useIPv4 : Bool) (ui64ActualTick : UInt64)
  | myNick (c : UserId) (ui32CommandLen : Nat) (found : Option UserId)
  | op (found : UserId)
  | receive (c : UserId) (t : ReceiveTurn)
  | close (c : UserId)

namespace Ipv4Hub

def empty : Ipv4Hub := ⟨fun _ => none, []⟩

variable (h : Ipv4Hub)

def modify (c : UserId) (f : Ipv4User → Ipv4User) : Ipv4Hub :=
  { h with users := Function.update h.users c ((h.users c).map f) }

def addUser (c : UserId) (u : Ipv4User) : Ipv4Hub :=
  { h with users := Function.update h.users c u }

def note (s : Ipv4Seen) : Ipv4Hub := { h with seen := h.seen ++ [s] }

/-- `MyNick` of a connection whose user is `u`. -/
def myNick (c : UserId) (u : Ipv4User) (ui32CommandLen : Nat) (found : Option UserId) : Ipv4Hub :=
  if HasBits u.boolBits UserBits.ipv6 ∨ ui32CommandLen < 10 then h.modify c Ipv4User.close
  else
    match found with
    | none => h.modify c Ipv4User.close
    | some other =>
      match h.users other with
      | none => h.modify c Ipv4User.close
      | some otherUser =>
        if otherUser.state ≠ .ipv4Check then h.modify c Ipv4User.close
        else
          ((h.modify other fun o => o.check u.sIP).note (.checked other u.sIP)).modify c
            Ipv4User.close

def receive (c : UserId) (u : Ipv4User) (t : ReceiveTurn) : Ipv4Hub :=
  let h' := h.modify c fun u => u.receive t
  if u.takesTunnel t then h'.note (.tunnel c) else h'

def step (ipText : Vector UInt8 16 → Text) : Ipv4Event → Ipv4Hub
  | .accept c addr ui64ActualTick =>
    if (h.users c).isSome then h
    else h.addUser c (acceptUser ipText addr ui64ActualTick)
  | .other c t => h.modify c fun u => u.become t
  | .addMeOrIPv4Check c hubIP useIPv4 ui64ActualTick =>
    h.modify c fun u => u.addMeOrIPv4Check hubIP useIPv4 ui64ActualTick
  | .myNick c ui32CommandLen found =>
    match h.users c with
    | none => h
    | some u =>
      if u.state = .socketAccepted ∨ u.state = .keyOrSup then h.myNick c u ui32CommandLen found
      else h
  | .op found => h.modify found Ipv4User.op
  | .receive c t =>
    match h.users c with
    | none => h
    | some u => h.receive c u t
  | .close c => h.modify c Ipv4User.close

/-- A user whose check has succeeded has the address of the connection that made it, and the
address of its tunnel isn't taken. -/
structure AddressKept : Prop where
  kept : ∀ c u sIP, h.users c = some u → u.state.isPastLogin = false →
    .checked c sIP ∈ h.seen → u.sIPv4 = sIP
  unused : ∀ pre c sIP, pre ++ [.tunnel c] <+: h.seen → .checked c sIP ∉ pre

/-- No user with an IPv4 address already takes the one of its tunnel. -/
def Guarded : Ipv4Event → Prop
  | .receive c t =>
    ∀ u, h.users c = some u → u.takesTunnel t → ¬ HasBits u.boolBits UserBits.ipv4
  | _ => True

end Ipv4Hub

/-- In every state of the run the checked addresses are kept. -/
def AddressesKept (ipText : Vector UInt8 16 → Text) (es : List Ipv4Event) : Prop :=
  ∀ pre, pre <+: es → (run (fun h e => h.step ipText e) Ipv4Hub.empty pre).AddressKept

section
variable {u u' : Ipv4User} {h h' : Ipv4Hub} {c : UserId} {ipText : Vector UInt8 16 → Text}

/-! ## Addresses -/

theorem decimal_byte_length (b : UInt8) : (decimal b.toNat).length ≤ 3 := by
  rw [decimal, List.length_map, Nat.length_toDigits_le_iff (by decide) (by decide)]
  exact Nat.lt_of_lt_of_le b.toNat_lt (by decide)

theorem dotted_length (a b c d : UInt8) : (dotted [a, b, c, d]).length ≤ 15 := by
  have ha := decimal_byte_length a
  have hb := decimal_byte_length b
  have hc := decimal_byte_length c
  have hd := decimal_byte_length d
  simp [dotted, List.intercalate]
  omega

/-- A user without `BIT_IPV6` comes from an address whose text `m_sIPv4` has room for. -/
theorem acceptUser_short (addr : Address) (tick : UInt64)
    (old : ¬ HasBits (acceptUser ipText addr tick).boolBits UserBits.ipv6) :
    (acceptUser ipText addr tick).sIP.length ≤ 15 := by
  cases addr with
  | inet a b c d => exact dotted_length a b c d
  | inet6 sin6_addr =>
    cases mapped : isV4Mapped sin6_addr with
    | true =>
      simp only [acceptUser, mapped, if_true]
      have length : (sin6_addr.toList.drop 12).length = 4 := by simp
      match sin6_addr.toList.drop 12, length with
      | [a, b, c, d], _ => exact dotted_length a b c d
    | false =>
      simp only [acceptUser, isIPv6User, mapped, Bool.not_false, if_true] at old
      exact absurd (hasBits_or _ _) old

/-- A user that comes over IPv6 has no IPv4 address yet. -/
theorem acceptUser_unchecked (addr : Address) (tick : UInt64)
    (new : HasBits (acceptUser ipText addr tick).boolBits UserBits.ipv6) :
    ¬ HasBits (acceptUser ipText addr tick).boolBits UserBits.ipv4 := by
  simp only [acceptUser] at new ⊢
  split at new
  · rename_i six
    rw [six, if_pos rfl]
    decide
  · exact absurd new (by decide)

/-! ## One user -/

/-- The addresses stay as they are, and the user doesn't go back from the check. -/
structure Ipv4User.Quiet (u u' : Ipv4User) : Prop where
  sIP : u'.sIP = u.sIP
  sIPv4 : u'.sIPv4 = u.sIPv4
  ipv6 : HasBits u'.boolBits UserBits.ipv6 ↔ HasBits u.boolBits UserBits.ipv6
  ipv4 : HasBits u'.boolBits UserBits.ipv4 ↔ HasBits u.boolBits UserBits.ipv4
  order : u.state.toNat ≤ u'.state.toNat ∨
    u.state.toNat < UserState.ipv4Check.toNat ∧ u'.state.toNat < UserState.ipv4Check.toNat
  asked : u'.state = .ipv4Check → u.state = .ipv4Check ∨ HasBits u.boolBits UserBits.ipv6

namespace Ipv4User

theorem quiet_refl (u : Ipv4User) : u.Quiet u :=
  ⟨rfl, rfl, Iff.rfl, Iff.rfl, .inl (Nat.le_refl _), .inl⟩

theorem quiet_state {st : UserState} (le : u.state.toNat ≤ st.toNat)
    (asked : st = .ipv4Check → HasBits u.boolBits UserBits.ipv6) :
    u.Quiet { u with state := st } :=
  ⟨rfl, rfl, Iff.rfl, Iff.rfl, .inl le, fun check => .inr (asked check)⟩

theorem close_of_live (live : u.state.isPastLogin = false) :
    u.close = { u with state := .closing } := by
  rw [close, live, if_neg Bool.false_ne_true]

theorem quiet_close (u : Ipv4User) : u.Quiet u.close := by
  unfold close
  split
  · exact u.quiet_refl
  · rename_i live
    refine quiet_state ?_ nofun
    simp only [UserState.isPastLogin, decide_eq_true_eq, Nat.not_le] at live
    exact live.le

theorem quiet_become (u : Ipv4User) (t : OtherTurn) : u.Quiet (u.become t) := by
  unfold become
  split
  · rename_i can
    simp only [canBecome, Bool.and_eq_true, Bool.or_eq_true, decide_eq_true_eq] at can
    obtain ⟨same, moves⟩ := can
    refine ⟨rfl, rfl, hasBits_congr (by decide) same, hasBits_congr (by decide) same, ?_, ?_⟩
    · rcases moves with ((stays | early) | ⟨before, after⟩) | ⟨before, after⟩
      · exact .inl (Nat.le_of_eq (congrArg UserState.toNat stays.symm))
      · exact .inr early
      · refine .inl ?_
        simp only [before, after]
        decide
      · refine .inl ?_
        simp only [before, after]
        decide
    · intro check
      simp only at check
      rcases moves with ((stays | early) | ⟨-, after⟩) | ⟨-, after⟩
      · exact .inl (stays.symm.trans check)
      · rw [check] at early
        exact absurd early.2 (Nat.lt_irrefl _)
      · rw [check] at after
        cases after
      · rw [check] at after
        cases after
  · exact u.quiet_refl

theorem quiet_addMeOrIPv4Check (u : Ipv4User) (hubIP useIPv4 : Bool) (tick : UInt64) :
    u.Quiet (u.addMeOrIPv4Check hubIP useIPv4 tick) := by
  unfold addMeOrIPv4Check
  split
  · rename_i early
    split
    · rename_i asks
      exact ⟨rfl, rfl, Iff.rfl, Iff.rfl, .inl early.le, fun _ => .inr asks.1⟩
    · exact quiet_state (early.le.trans (by decide)) nofun
  · exact u.quiet_refl

theorem quiet_op (u : Ipv4User) : u.Quiet u.op := by
  unfold op
  split
  · exact u.quiet_refl
  · refine ⟨rfl, rfl, ?_, ?_, .inl (Nat.le_refl _), .inl⟩
    · exact (hasBits_or_iff (by decide)).trans (hasBits_or_iff (by decide))
    · exact (hasBits_or_iff (by decide)).trans (hasBits_or_iff (by decide))

theorem quiet_addMe1Loop {t : ReceiveTurn} (at_ : u.state = .addMe1Loop)
    (left : u.takesTunnel t = false) : u.Quiet (u.addMe1Loop t) := by
  unfold addMe1Loop
  split
  · split
    · exact u.quiet_close
    · exact u.quiet_refl
  · rename_i goes
    have same : u.takeTunnel = u := by
      simp only [takesTunnel, at_, Bool.not_eq_true] at goes left
      simp only [goes, decide_true, Bool.not_false, Bool.true_and] at left
      rw [takeTunnel, if_neg (by rw [left]; decide)]
    simp only [same]
    split
    · exact u.quiet_close
    · exact quiet_state (by rw [at_]; decide) nofun

/-- A turn that doesn't take the address of a tunnel lets the addresses be. -/
theorem quiet_receive {t : ReceiveTurn} (left : u.takesTunnel t = false) :
    u.Quiet (u.receive t) := by
  unfold receive
  split
  · rename_i at_
    split
    · split
      · exact quiet_state (by rw [at_]; decide) nofun
      · exact u.quiet_close
    · exact u.quiet_refl
  · split
    · exact u.quiet_close
    · exact u.quiet_refl
  · rename_i at_
    split
    · exact quiet_state (by rw [at_]; decide) nofun
    · exact u.quiet_refl
  · rename_i at_
    split
    · exact u.quiet_refl
    · exact quiet_state (by rw [at_]; decide) nofun
  · rename_i at_
    exact quiet_addMe1Loop at_ left
  · exact u.quiet_refl

/-- What becomes of a user whose tunnel has its address taken. -/
structure Tunnelled (u u' : Ipv4User) : Prop where
  at_ : u.state = .addMe1Loop
  was : HasBits u.boolBits UserBits.ipv6
  sIP : u'.sIP = u.sIP
  ipv6 : HasBits u'.boolBits UserBits.ipv6
  ipv4 : HasBits u'.boolBits UserBits.ipv4
  past : UserState.addMe2Loop.toNat ≤ u'.state.toNat

theorem tunnelled_receive {t : ReceiveTurn} (takes : u.takesTunnel t = true) :
    u.Tunnelled (u.receive t) := by
  simp only [takesTunnel, Bool.and_eq_true, decide_eq_true_eq, Bool.not_eq_true'] at takes
  obtain ⟨⟨at_, goes⟩, uses⟩ := takes
  have new : HasBits u.boolBits UserBits.ipv6 := by
    simp only [usesTunnel, Bool.and_eq_true, decide_eq_true_eq] at uses
    exact uses.1.1
  unfold receive
  simp only [at_, addMe1Loop, goes, Bool.false_eq_true, if_false, takeTunnel, uses, if_true]
  split
  · rw [close_of_live rfl]
    have past : UserState.addMe2Loop.toNat ≤ UserState.closing.toNat := by decide
    exact ⟨at_, new, rfl, new.or _, hasBits_or _ _, past⟩
  · exact ⟨at_, new, rfl, new.or _, hasBits_or _ _, Nat.le_refl _⟩

/-- What is known of a user, depending on whether its check has succeeded. -/
structure Fits (u : Ipv4User) (checked : Prop) : Prop where
  bits : checked → HasBits u.boolBits UserBits.ipv6 ∧ HasBits u.boolBits UserBits.ipv4 ∧
    UserState.addMe.toNat ≤ u.state.toNat
  verified : HasBits u.boolBits UserBits.ipv6 → HasBits u.boolBits UserBits.ipv4 →
    u.state.toNat ≤ UserState.addMe1Loop.toNat → checked
  asked : u.state = .ipv4Check → HasBits u.boolBits UserBits.ipv6
  short : ¬ HasBits u.boolBits UserBits.ipv6 → u.sIP.length ≤ 15

variable {checked : Prop}

theorem Fits.quiet (fits : u.Fits checked) (quiet : u.Quiet u') : u'.Fits checked where
  bits was := by
    obtain ⟨six, four, late⟩ := fits.bits was
    refine ⟨quiet.ipv6.mpr six, quiet.ipv4.mpr four, ?_⟩
    rcases quiet.order with le | ⟨early, -⟩
    · exact late.trans le
    · exact absurd (late.trans_lt early) (by decide)
  verified six four early := by
    apply fits.verified (quiet.ipv6.mp six) (quiet.ipv4.mp four)
    rcases quiet.order with le | ⟨before, -⟩
    · exact le.trans early
    · exact before.le.trans (by decide)
  asked check := by
    apply quiet.ipv6.mpr
    rcases quiet.asked check with was | six
    · exact fits.asked was
    · exact six
  short old := by
    rw [quiet.sIP]
    exact fits.short fun six => old (quiet.ipv6.mpr six)

/-- A user that is closed stays closed. -/
theorem Quiet.live (quiet : u.Quiet u') (live : u'.state.isPastLogin = false) :
    u.state.isPastLogin = false := by
  simp only [UserState.isPastLogin, decide_eq_false_iff_not, Nat.not_le] at live ⊢
  rcases quiet.order with le | ⟨early, -⟩
  · exact le.trans_lt live
  · exact early.trans (by decide)

theorem fits_accept (addr : Address) (tick : UInt64) :
    (acceptUser ipText addr tick).Fits False where
  bits := False.elim
  verified six four _ := acceptUser_unchecked addr tick six four
  asked := nofun
  short := acceptUser_short addr tick

theorem Fits.check (fits : u.Fits checked) (asked : u.state = .ipv4Check) (sIP : Text) :
    (u.check sIP).Fits True where
  bits _ := ⟨(fits.asked asked).or _, hasBits_or _ _, Nat.le_refl _⟩
  verified _ _ _ := trivial
  asked := nofun
  short old := absurd ((fits.asked asked).or _) old

theorem Tunnelled.fits (tunnelled : u.Tunnelled u') : u'.Fits checked where
  bits _ := ⟨tunnelled.ipv6, tunnelled.ipv4, Nat.le_trans (by decide) tunnelled.past⟩
  verified _ _ early := absurd (tunnelled.past.trans early) (by decide)
  asked check := by
    have past := tunnelled.past
    rw [check] at past
    exact absurd past (by decide)
  short old := absurd tunnelled.ipv6 old

end Ipv4User

/-! ## All users -/

namespace Ipv4Hub

def Checked (h : Ipv4Hub) (c : UserId) : Prop := ∃ sIP, .checked c sIP ∈ h.seen

structure Inv (h : Ipv4Hub) : Prop where
  fits : ∀ c u, h.users c = some u → u.Fits (h.Checked c)
  known : ∀ c, h.Checked c → h.users c ≠ none

theorem modify_self {f : Ipv4User → Ipv4User} (was : h.users c = some u) :
    (h.modify c f).users c = some (f u) := by
  simp [modify, was]

theorem modify_other {f : Ipv4User → Ipv4User} {d : UserId} (other : d ≠ c) :
    (h.modify c f).users d = h.users d :=
  Function.update_of_ne other _ _

theorem modify_none {f : Ipv4User → Ipv4User} (was : h.users c = none) : h.modify c f = h := by
  unfold modify
  rw [was, Option.map_none, ← was, Function.update_eq_self]

/-- Only one user changes, and only its check may be new. -/
structure Differs (h h' : Ipv4Hub) (c : UserId) (u' : Ipv4User) : Prop where
  at_ : h'.users c = some u'
  others : ∀ d, d ≠ c → h'.users d = h.users d
  checks : ∀ d sIP, d ≠ c → (.checked d sIP ∈ h'.seen ↔ .checked d sIP ∈ h.seen)

theorem Differs.inv (differs : h.Differs h' c u') (inv : h.Inv) (fits : u'.Fits (h'.Checked c)) :
    h'.Inv where
  fits d u found := by
    by_cases same : d = c
    · subst same
      rw [differs.at_] at found
      cases found
      exact fits
    · have checked : h'.Checked d ↔ h.Checked d :=
        exists_congr fun sIP => differs.checks d sIP same
      rw [differs.others d same] at found
      rw [checked]
      exact inv.fits d u found
  known d checked := by
    by_cases same : d = c
    · subst same
      rw [differs.at_]
      exact Option.some_ne_none _
    · rw [differs.others d same]
      exact inv.known d ((exists_congr fun sIP => differs.checks d sIP same).mp checked)

theorem Differs.addressKept (differs : h.Differs h' c u') (good : h.AddressKept)
    (kept : ∀ sIP, u'.state.isPastLogin = false → .checked c sIP ∈ h'.seen → u'.sIPv4 = sIP)
    (unused : ∀ pre d sIP, pre ++ [.tunnel d] <+: h'.seen → .checked d sIP ∉ pre) :
    h'.AddressKept where
  kept d u sIP found live checked := by
    by_cases same : d = c
    · subst same
      rw [differs.at_] at found
      cases found
      exact kept sIP live checked
    · rw [differs.others d same] at found
      exact good.kept d u sIP found live ((differs.checks d sIP same).mp checked)
  unused := unused

variable {f : Ipv4User → Ipv4User}

theorem differs_modify (was : h.users c = some u) : h.Differs (h.modify c f) c (f u) where
  at_ := modify_self was
  others _ other := modify_other other
  checks _ _ _ := Iff.rfl

theorem Inv.modify (inv : h.Inv) (quiet : ∀ u, h.users c = some u → u.Quiet (f u)) :
    (h.modify c f).Inv := by
  cases was : h.users c with
  | none =>
    rw [modify_none was]
    exact inv
  | some u => exact (differs_modify was).inv inv ((inv.fits c u was).quiet (quiet u was))

theorem AddressKept.modify (good : h.AddressKept)
    (quiet : ∀ u, h.users c = some u → u.Quiet (f u)) : (h.modify c f).AddressKept := by
  cases was : h.users c with
  | none =>
    rw [modify_none was]
    exact good
  | some u =>
    apply (differs_modify was).addressKept good
    · intro sIP live checked
      rw [(quiet u was).sIPv4]
      exact good.kept c u sIP was ((quiet u was).live live) checked
    · exact good.unused

/-! ## A new user -/

theorem differs_addUser : h.Differs (h.addUser c u) c u where
  at_ := Function.update_self _ _ _
  others _ other := Function.update_of_ne other _ _
  checks _ _ _ := Iff.rfl

theorem Inv.unknown (inv : h.Inv) (free : h.users c = none) : ¬ h.Checked c :=
  fun checked => inv.known c checked free

theorem Inv.accept (inv : h.Inv) (free : h.users c = none) (addr : Address) (tick : UInt64) :
    (h.addUser c (acceptUser ipText addr tick)).Inv := by
  apply differs_addUser.inv inv
  have unknown : ¬ (h.addUser c (acceptUser ipText addr tick)).Checked c := inv.unknown free
  rw [eq_false unknown]
  exact Ipv4User.fits_accept addr tick

theorem AddressKept.accept (good : h.AddressKept) (inv : h.Inv) (free : h.users c = none)
    (addr : Address) (tick : UInt64) : (h.addUser c (acceptUser ipText addr tick)).AddressKept := by
  apply differs_addUser.addressKept good
  · intro sIP _ checked
    exact absurd ⟨sIP, checked⟩ (inv.unknown free)
  · exact good.unused

/-! ## A check -/

/-- A check that succeeds is the first one of its user. -/
theorem Inv.unchecked (inv : h.Inv) (was : h.users c = some u) (asked : u.state = .ipv4Check) :
    ¬ h.Checked c := by
  intro checked
  have late := ((inv.fits c u was).bits checked).2.2
  rw [asked] at late
  exact absurd late (by decide)

theorem differs_check (was : h.users c = some u) (sIP : Text) :
    h.Differs ((h.modify c fun o => o.check sIP).note (.checked c sIP)) c (u.check sIP) where
  at_ := modify_self was
  others _ other := modify_other other
  checks d sIP' other := by
    rw [note, List.mem_append, List.mem_singleton]
    refine or_iff_left ?_
    intro same
    cases same
    exact other rfl

theorem Inv.check (inv : h.Inv) (was : h.users c = some u) (asked : u.state = .ipv4Check)
    (sIP : Text) : ((h.modify c fun o => o.check sIP).note (.checked c sIP)).Inv := by
  apply (differs_check was sIP).inv inv
  have checked : ((h.modify c fun o => o.check sIP).note (.checked c sIP)).Checked c :=
    ⟨sIP, List.mem_append_right _ List.mem_cons_self⟩
  rw [eq_true checked]
  exact (inv.fits c u was).check asked sIP

theorem AddressKept.check (good : h.AddressKept) (inv : h.Inv) (was : h.users c = some u)
    (asked : u.state = .ipv4Check) {sIP : Text} (short : sIP.length ≤ 15) :
    ((h.modify c fun o => o.check sIP).note (.checked c sIP)).AddressKept := by
  apply (differs_check was sIP).addressKept good
  · intro sIP' _ checked
    rcases List.mem_append.mp checked with before | now
    · exact absurd ⟨sIP', before⟩ (inv.unchecked was asked)
    · cases List.mem_singleton.mp now
      exact List.take_of_length_le short
  · intro pre d sIP' starts
    rcases List.prefix_concat_iff.mp starts with whole | before
    · cases (List.append_inj' whole rfl).2
    · exact good.unused pre d sIP' before

/-! ## A tunnel -/

theorem differs_tunnel (was : h.users c = some u) :
    h.Differs ((h.modify c f).note (.tunnel c)) c (f u) where
  at_ := modify_self was
  others _ other := modify_other other
  checks d sIP _ := by simp [note, Ipv4Hub.modify]

theorem Inv.tunnel (inv : h.Inv) (was : h.users c = some u) (tunnelled : u.Tunnelled (f u)) :
    ((h.modify c f).note (.tunnel c)).Inv :=
  (differs_tunnel was).inv inv tunnelled.fits

/-- The address of a tunnel may be taken if the user has no IPv4 address. -/
theorem addressKept_tunnel (good : h.AddressKept) (inv : h.Inv) (was : h.users c = some u)
    (tunnelled : u.Tunnelled (f u)) : ((h.modify c f).note (.tunnel c)).AddressKept ↔
      ¬ HasBits u.boolBits UserBits.ipv4 := by
  have fits := inv.fits c u was
  constructor
  · intro next four
    obtain ⟨sIP, checked⟩ := fits.verified tunnelled.was four (by rw [tunnelled.at_])
    exact next.unused h.seen c sIP List.prefix_rfl checked
  · intro unchecked
    have never : ¬ h.Checked c := fun checked => unchecked (fits.bits checked).2.1
    apply (differs_tunnel was).addressKept good
    · intro sIP _ checked
      have before : .checked c sIP ∈ h.seen := by simpa [note, Ipv4Hub.modify] using checked
      exact absurd ⟨sIP, before⟩ never
    · intro pre d sIP starts
      rcases List.prefix_concat_iff.mp starts with whole | before
      · obtain ⟨rfl, last⟩ := List.append_inj' whole rfl
        cases last
        exact fun checked => never ⟨sIP, checked⟩
      · exact good.unused pre d sIP before

/-! ## Runs -/

/-- Whatever `MyNick` does, the addresses that were checked are kept. -/
theorem keeps_myNick (inv : h.Inv) (was : h.users c = some u) (len : Nat)
    (found : Option UserId) :
    (h.myNick c u len found).Inv ∧ (h.AddressKept → (h.myNick c u len found).AddressKept) := by
  have closed : (h.modify c Ipv4User.close).Inv ∧
      (h.AddressKept → (h.modify c Ipv4User.close).AddressKept) :=
    ⟨inv.modify fun u _ => u.quiet_close, fun good => good.modify fun u _ => u.quiet_close⟩
  unfold myNick
  split
  · exact closed
  rename_i allowed
  split
  · exact closed
  split
  · exact closed
  rename_i other o was'
  split
  · exact closed
  rename_i asked
  rw [not_not] at asked
  rw [not_or] at allowed
  have short := (inv.fits c u was).short allowed.1
  constructor
  · exact (inv.check was' asked u.sIP).modify fun u _ => u.quiet_close
  · intro good
    exact (good.check inv was' asked short).modify fun u _ => u.quiet_close

theorem keeps_receive (inv : h.Inv) (was : h.users c = some u) (t : ReceiveTurn) :
    (h.receive c u t).Inv ∧ (h.AddressKept → ((h.receive c u t).AddressKept ↔
      (u.takesTunnel t → ¬ HasBits u.boolBits UserBits.ipv4))) := by
  unfold receive
  cases takes : u.takesTunnel t with
  | true =>
    have tunnelled := Ipv4User.tunnelled_receive takes
    simp only [if_true, forall_const]
    exact ⟨inv.tunnel was tunnelled, fun good => addressKept_tunnel good inv was tunnelled⟩
  | false =>
    have quiet : ∀ u', h.users c = some u' → u'.Quiet (u'.receive t) := by
      intro u' was'
      obtain rfl := Option.some.inj (was.symm.trans was')
      exact Ipv4User.quiet_receive takes
    simp only [Bool.false_eq_true, if_false, false_imp_iff]
    exact ⟨inv.modify quiet, fun good => iff_of_true (good.modify quiet) trivial⟩

/-- What one step keeps. -/
theorem step_keeps (ipText : Vector UInt8 16 → Text) (inv : h.Inv) (e : Ipv4Event) :
    (h.step ipText e).Inv ∧ (h.AddressKept → ((h.step ipText e).AddressKept ↔ h.Guarded e)) := by
  have quietly : ∀ c f, (∀ u : Ipv4User, u.Quiet (f u)) → (h.modify c f).Inv ∧
      (h.AddressKept → ((h.modify c f).AddressKept ↔ True)) := by
    intro c f quiet
    refine ⟨inv.modify fun u _ => quiet u, fun good => ?_⟩
    exact iff_of_true (good.modify fun u _ => quiet u) trivial
  have unchanged : h.Inv ∧ (h.AddressKept → (h.AddressKept ↔ True)) :=
    ⟨inv, fun good => iff_of_true good trivial⟩
  cases e with
  | accept c addr tick =>
    simp only [step, Guarded]
    split
    · exact unchanged
    · rename_i free
      rw [Option.not_isSome_iff_eq_none] at free
      refine ⟨inv.accept free addr tick, fun good => ?_⟩
      exact iff_of_true (good.accept inv free addr tick) trivial
  | other c t => exact quietly c _ fun u => u.quiet_become t
  | addMeOrIPv4Check c hubIP useIPv4 tick =>
    exact quietly c _ fun u => u.quiet_addMeOrIPv4Check hubIP useIPv4 tick
  | myNick c len found =>
    simp only [step, Guarded]
    split
    · exact unchanged
    · rename_i u was
      split
      · obtain ⟨inv', keeps⟩ := keeps_myNick inv was len found
        exact ⟨inv', fun good => iff_of_true (keeps good) trivial⟩
      · exact unchanged
  | op found => exact quietly found _ Ipv4User.quiet_op
  | receive c t =>
    simp only [step, Guarded]
    cases was : h.users c with
    | none => exact ⟨inv, fun good => iff_of_true good nofun⟩
    | some u =>
      obtain ⟨inv', keeps⟩ := keeps_receive inv was t
      refine ⟨inv', fun good => (keeps good).trans ?_⟩
      simp only [Option.some.injEq, forall_eq']
  | close c => exact quietly c _ Ipv4User.quiet_close

theorem empty_inv : empty.Inv :=
  ⟨fun _ _ => nofun, fun _ checked => by simp [Checked, empty] at checked⟩

theorem empty_kept : empty.AddressKept :=
  ⟨fun _ _ _ => nofun, fun pre c sIP starts => by simp [empty] at starts⟩

end Ipv4Hub

/-- The addresses that were checked are kept exactly if no user is let in that has BIT_IPV4 and
the address of a tunnel, and hasn't BIT_TEMP_OPERATOR. -/
theorem addressesKept_iff (ipText : Vector UInt8 16 → Text) (es : List Ipv4Event) :
    AddressesKept ipText es ↔
      Allowed (fun h e => Ipv4Hub.step h ipText e) Ipv4Hub.Guarded Ipv4Hub.empty es :=
  forall_prefix_iff_allowed Ipv4Hub.Inv Ipv4Hub.AddressKept
    (fun _ e inv => (Ipv4Hub.step_keeps ipText inv e).1)
    (fun _ e inv good => (Ipv4Hub.step_keeps ipText inv e).2 good)
    Ipv4Hub.empty_inv Ipv4Hub.empty_kept

end

/-- A user of 2002:102:304::1 that says it knows of the check, and its other connection, from
5.6.7.8. -/
def sixToFour : List Ipv4Event :=
  [.accept 0 (.inet6 ⟨#[32, 2, 1, 2, 3, 4, 0, 0, 0, 0, 0, 0, 0, 0, 0, 1], rfl⟩) 0,
    .receive 0 ⟨1, true, false, false⟩, .other 0 ⟨.validate, 0x800020, 0x80⟩,
    .addMeOrIPv4Check 0 true true 1, .accept 1 (.inet 5 6 7 8) 1, .myNick 1 14 (some 0),
    .receive 0 ⟨2, true, false, false⟩, .receive 0 ⟨3, true, false, false⟩]

/-- The user ends up with the address of its tunnel, 1.2.3.4. -/
theorem sixToFour_lost : ¬ AddressesKept (fun _ => ascii "2002:102:304::1") sixToFour := by
  intro all
  have good := all sixToFour List.prefix_rfl
  have end_ : ((run (fun h e => Ipv4Hub.step h (fun _ => ascii "2002:102:304::1") e) Ipv4Hub.empty
      sixToFour).users 0).map (fun u => (u.state, u.sIPv4)) =
        some (.addMe2Loop, ascii "1.2.3.4") := by decide +kernel
  obtain ⟨u, found, eq⟩ := Option.map_eq_some_iff.mp end_
  obtain ⟨state, address⟩ := Prod.mk.inj eq
  have kept := good.kept 0 u (ascii "5.6.7.8") found (by rw [state]; rfl) (by decide +kernel)
  rw [address] at kept
  exact absurd kept (by decide)

end FlyHub.Session
