import FlyHub.Lib.Run
import FlyHub.Lists.MyInfo
import Mathlib.Data.List.Chain

/-!
# The limit of private messages to a user

What a user sends to another waits three turns of the loop, and what comes for the same user
meanwhile is sent on with it, as one batch. The private messages that a user gets are counted.
The count is compared with the limit before a batch is added to it, and it starts again when
a batch comes after the limit was reached and 60 ticks have passed.
-/

namespace FlyHub.Flood

open FlyHub.Lib

/-- What waits for one user. `pms` is the number of private messages in it. -/
structure PrcsdToUsrCmd where
  toUser : Nat
  sCommand : Text
  pms : Nat
  loops : Nat

namespace PrcsdToUsrCmd

/-- `m_ui32PmCount`. -/
def pmCount (cmd : PrcsdToUsrCmd) : UInt32 := UInt32.ofNat cmd.pms

def append (cmd : PrcsdToUsrCmd) (sCommand : Text) (isPm : Bool) : PrcsdToUsrCmd :=
  { cmd with sCommand := cmd.sCommand ++ sCommand, pms := cmd.pms + isPm.toNat }

/-- `AddPrcsdCmd` of a `CTM_MCTM_RCTM_SR_TO`. -/
def add (sCommand : Text) (toUser : Nat) (isPm : Bool) :
    List PrcsdToUsrCmd → List PrcsdToUsrCmd
  | [] => [⟨toUser, sCommand, isPm.toNat, 0⟩]
  | cmd :: cmds =>
    if cmd.toUser = toUser then cmd.append sCommand isPm :: cmds
    else cmd :: add sCommand toUser isPm cmds

end PrcsdToUsrCmd

/-- The private messages that were sent on since a start of the count. -/
structure PmWindow where
  start : Nat
  delivered : Nat
  deriving DecidableEq

/-- `windows` has every start of the count so far, the last one first; the hub keeps no
record of them. -/
structure PmUser where
  cmdToUserList : List PrcsdToUsrCmd
  receivedPmCount : UInt32
  receivedPmTick : Nat
  sendBuf : Text
  windows : List PmWindow

namespace PmUser

def init : PmUser := ⟨[], 0, 0, [], []⟩

variable (u : PmUser) (limit : UInt32) (now : Nat) (cmd : PrcsdToUsrCmd)

def sendCharDelayed (text : Text) : PmUser := { u with sendBuf := u.sendBuf ++ text }

/-- When the count starts for the first time, it is 0 already. -/
def startCount : PmUser :=
  { u with receivedPmTick := now, receivedPmCount := 0, windows := ⟨now, 0⟩ :: u.windows }

def send : PmUser :=
  { u.sendCharDelayed cmd.sCommand with
    windows := u.windows.modifyHead fun w => { w with delivered := w.delivered + cmd.pms } }

def sendCounted : PmUser :=
  { u.send cmd with receivedPmCount := u.receivedPmCount + cmd.pmCount }

/-- The batch as its user gets it, or `none` if the limit is exceeded. -/
def receive : Option PmUser :=
  if limit = 0 ∨ cmd.pmCount = 0 then some (u.send cmd)
  else if u.receivedPmCount = 0 then some ((u.startCount now).sendCounted cmd)
  else if limit ≤ u.receivedPmCount then
    if u.receivedPmTick + 60 < now then some ((u.startCount now).sendCounted cmd) else none
  else some (u.sendCounted cmd)

end PmUser

/-- The setting `MAX_PM_COUNT_TO_USER`, the nicks, and the texts of the answer to a user whose
batch is dropped. A limit is a positive number of 16 bits with a sign. -/
structure PmHub where
  maxPmCount : UInt32
  positive : maxPmCount ≠ 0
  short : maxPmCount < 0x8000
  nick : Nat → Text
  hubSec : Text
  sryLstMsgBcs : Text
  sorryLast : Text
  msgsNotSent : Text
  excMsgLimit : Text

structure PmState where
  actualTick : Nat
  users : Nat → PmUser

/-- `online` says which users the hub finds under their nicks. A user that comes again is
another user. -/
inductive PmEvent where
  | pass (ticks : Nat)
  | add (sender : Nat) (sCommand : Text) (toUser : Nat) (isPm : Bool)
  | loop (sender : Nat) (online : Nat → Bool)
  | close (sender : Nat)

def PmState.init : PmState := ⟨0, fun _ => PmUser.init⟩

def PmState.modify (s : PmState) (i : Nat) (f : PmUser → PmUser) : PmState :=
  { s with users := Function.update s.users i (f (s.users i)) }

namespace PmHub

variable (hub : PmHub)

/-- The answer to the sender of a batch that is dropped. -/
def refusal (sender : Nat) (cmd : PrcsdToUsrCmd) : Text :=
  let nick := hub.nick cmd.toUser
  ascii "$To: " ++ hub.nick sender ++ ascii " From: " ++ nick ++ ascii " $<" ++ hub.hubSec ++
    ascii "> " ++
    (if cmd.pmCount = 1 then hub.sryLstMsgBcs
     else hub.sorryLast ++ ascii " " ++ Lists.decimal cmd.pmCount.toNat ++ ascii " " ++
      hub.msgsNotSent) ++
    ascii " " ++ nick ++ ascii " " ++ hub.excMsgLimit ++ ascii "!|"

/-- A batch in a turn of `ReceiveLoop` for its sender. -/
def relay (sender : Nat) (online : Nat → Bool) (s : PmState) (cmd : PrcsdToUsrCmd) : PmState :=
  if 2 ≤ cmd.loops then
    if online cmd.toUser then
      ((s.users cmd.toUser).receive hub.maxPmCount s.actualTick cmd).elim
        (s.modify sender (·.sendCharDelayed (hub.refusal sender cmd)))
        fun u => s.modify cmd.toUser fun _ => u
    else s
  else
    s.modify sender fun u =>
      { u with cmdToUserList := u.cmdToUserList ++ [{ cmd with loops := cmd.loops + 1 }] }

/-- The list is taken out before its batches are looked at. -/
def takeList (s : PmState) (sender : Nat) : PmState :=
  s.modify sender fun u => { u with cmdToUserList := [] }

def step (s : PmState) : PmEvent → PmState
  | .pass ticks => { s with actualTick := s.actualTick + ticks }
  | .add sender sCommand toUser isPm =>
    s.modify sender fun u =>
      { u with cmdToUserList := PrcsdToUsrCmd.add sCommand toUser isPm u.cmdToUserList }
  | .loop sender online =>
    run (hub.relay sender online) (takeList s sender) (s.users sender).cmdToUserList
  | .close sender => takeList s sender

end PmHub

/-- No more than the limit since any start of the count, and the starts of it more than 60
ticks apart. -/
structure PmWindow.Limited (limit : Nat) (ws : List PmWindow) : Prop where
  within : ∀ w ∈ ws, w.delivered ≤ limit
  apart : ws.IsChain fun later earlier => earlier.start + 60 < later.start

namespace PmUser

variable (u : PmUser) (limit : UInt32) (now : Nat) (cmd : PrcsdToUsrCmd)

def Refuses : Prop := limit ≤ u.receivedPmCount ∧ now ≤ u.receivedPmTick + 60

/-- What is counted already when a batch is added that is not refused. -/
def counted : Nat := if limit ≤ u.receivedPmCount then 0 else u.receivedPmCount.toNat

/-- The batch is refused, or what is counted leaves room for all of it. One that is not
counted has no private message, unless the count has not started. -/
def Fits : Prop :=
  if cmd.pmCount = 0 then cmd.pms = 0 ∨ u.receivedPmCount = 0
  else u.Refuses limit now ∨ u.counted limit + cmd.pms ≤ limit.toNat

end PmUser

namespace PmHub

variable (hub : PmHub)

/-- A batch that is due, for a user that is still there, fits. -/
def RelayFits (online : Nat → Bool) (s : PmState) (cmd : PrcsdToUsrCmd) : Prop :=
  2 ≤ cmd.loops → online cmd.toUser = true →
    (s.users cmd.toUser).Fits hub.maxPmCount s.actualTick cmd

/-- Every batch of the turn fits, after those before it. -/
def Fits (s : PmState) : PmEvent → Prop
  | .loop sender online =>
    Allowed (hub.relay sender online) (hub.RelayFits online) (takeList s sender)
      (s.users sender).cmdToUserList
  | _ => True

end PmHub

namespace PmWindow

variable {limit now n : Nat} {w : PmWindow} {ws : List PmWindow}

theorem Limited.tail (limited : Limited limit (w :: ws)) : Limited limit ws :=
  ⟨fun v mem => limited.within v (List.mem_cons_of_mem _ mem), limited.apart.tail⟩

theorem limited_cons :
    Limited limit (w :: ws) ↔
      w.delivered ≤ limit ∧ (∀ v ∈ ws.head?, v.start + 60 < w.start) ∧ Limited limit ws := by
  constructor
  · intro limited
    have chain := List.isChain_cons.mp limited.apart
    exact ⟨limited.within w List.mem_cons_self, chain.1, limited.tail⟩
  · rintro ⟨le, later, limited⟩
    refine ⟨?_, List.isChain_cons.mpr ⟨later, limited.apart⟩⟩
    intro v mem
    rcases List.mem_cons.mp mem with rfl | mem
    · exact le
    · exact limited.within v mem

theorem limited_grow (limited : Limited limit (w :: ws)) :
    Limited limit ({ w with delivered := n } :: ws) ↔ n ≤ limit := by
  obtain ⟨-, later, rest⟩ := limited_cons.mp limited
  rw [limited_cons]
  exact ⟨fun grown => grown.1, fun le => ⟨le, later, rest⟩⟩

theorem Limited.shrink (grown : Limited limit ({ w with delivered := w.delivered + n } :: ws)) :
    Limited limit (w :: ws) := by
  obtain ⟨le, later, rest⟩ := limited_cons.mp grown
  exact limited_cons.mpr ⟨(Nat.le_add_right _ _).trans le, later, rest⟩

end PmWindow

namespace PrcsdToUsrCmd

variable {cmd : PrcsdToUsrCmd}

/-- The counter of a batch steps as the number of its messages. -/
theorem pmCount_append (sCommand : Text) (isPm : Bool) :
    (cmd.append sCommand isPm).pmCount = cmd.pmCount + UInt32.ofNat isPm.toNat :=
  UInt32.ofNat_add _ _

theorem pms_of_count (some_ : cmd.pmCount ≠ 0) : 1 ≤ cmd.pms := by
  rw [Nat.one_le_iff_ne_zero]
  intro zero
  exact some_ (by rw [pmCount, zero]; rfl)

/-- The count of a batch is wrong only if it wraps. -/
theorem pms_of_no_count (none : cmd.pmCount = 0) (small : cmd.pms < 4294967296) : cmd.pms = 0 := by
  have zero : (UInt32.ofNat cmd.pms).toNat = 0 := congrArg UInt32.toNat none
  rw [UInt32.toNat_ofNat', Nat.mod_eq_of_lt small] at zero
  exact zero

end PrcsdToUsrCmd

namespace PmUser

/-- What the hub keeps of the last start of the count. -/
structure Counts (u : PmUser) : Prop where
  some_ : ∀ w ∈ u.windows, 1 ≤ w.delivered
  count : u.receivedPmCount = UInt32.ofNat (u.windows.head?.elim 0 PmWindow.delivered)
  tick : ∀ w ∈ u.windows.head?, u.receivedPmTick = w.start

/-- What can become of a batch. -/
inductive Received (u : PmUser) (limit : UInt32) (now : Nat) (cmd : PrcsdToUsrCmd) :
    Option PmUser → Prop where
  | uncounted (none : cmd.pmCount = 0) : Received u limit now cmd (some (u.send cmd))
  | start (some_ : cmd.pmCount ≠ 0)
      (free : u.receivedPmCount = 0 ∨
        limit ≤ u.receivedPmCount ∧ u.receivedPmTick + 60 < now) :
      Received u limit now cmd (some ((u.startCount now).sendCounted cmd))
  | refused (some_ : cmd.pmCount ≠ 0) (refuses : u.Refuses limit now) :
      Received u limit now cmd none
  | counted (some_ : cmd.pmCount ≠ 0) (started : u.receivedPmCount ≠ 0)
      (room : u.receivedPmCount < limit) :
      Received u limit now cmd (some (u.sendCounted cmd))

variable {u v : PmUser} {limit : UInt32} {now : Nat} {cmd : PrcsdToUsrCmd}

theorem received (u : PmUser) (now : Nat) (cmd : PrcsdToUsrCmd) (positive : limit ≠ 0) :
    Received u limit now cmd (u.receive limit now cmd) := by
  unfold receive
  by_cases none : cmd.pmCount = 0
  · rw [if_pos (.inr none)]
    exact .uncounted none
  · rw [if_neg (by tauto)]
    by_cases zero : u.receivedPmCount = 0
    · rw [if_pos zero]
      exact .start none (.inl zero)
    · rw [if_neg zero]
      by_cases full : limit ≤ u.receivedPmCount
      · rw [if_pos full]
        by_cases past : u.receivedPmTick + 60 < now
        · rw [if_pos past]
          exact .start none (.inr ⟨full, past⟩)
        · rw [if_neg past]
          exact .refused none ⟨full, Nat.not_lt.mp past⟩
      · rw [if_neg full]
        exact .counted none zero (UInt32.not_le.mp full)

theorem Counts.window (counts : u.Counts) (started : u.receivedPmCount ≠ 0) :
    ∃ w ws, u.windows = w :: ws ∧ u.receivedPmCount = UInt32.ofNat w.delivered := by
  have count := counts.count
  cases windows : u.windows with
  | nil =>
    rw [windows] at count
    exact absurd count started
  | cons w ws =>
    rw [windows] at count
    exact ⟨w, ws, rfl, count⟩

theorem send_windows_nil (cmd : PrcsdToUsrCmd) (none : u.windows = []) :
    (u.send cmd).windows = [] := by
  simp [send, sendCharDelayed, none]

theorem send_windows_cons {w : PmWindow} {ws : List PmWindow} (windows : u.windows = w :: ws) :
    (u.send cmd).windows = { w with delivered := w.delivered + cmd.pms } :: ws := by
  simp [send, sendCharDelayed, windows]

/-- A batch is added to what was sent on since the last start of the count. -/
theorem counts_grow {w : PmWindow} {ws : List PmWindow} (windows : u.windows = w :: ws)
    (counts : u.Counts) (same : v.receivedPmTick = u.receivedPmTick)
    (grown : v.windows = { w with delivered := w.delivered + cmd.pms } :: ws)
    (count : v.receivedPmCount = u.receivedPmCount + cmd.pmCount) : v.Counts := by
  obtain ⟨some_, before, tick⟩ := counts
  rw [windows] at some_ before tick
  rw [List.forall_mem_cons] at some_
  constructor
  · intro x mem
    rw [grown] at mem
    rcases List.mem_cons.mp mem with rfl | mem
    · exact some_.1.trans (Nat.le_add_right _ _)
    · exact some_.2 x mem
  · rw [count, before, grown]
    exact (UInt32.ofNat_add _ _).symm
  · intro x head
    rw [grown] at head
    cases head
    exact same.trans (tick w rfl)

theorem start_counts (counts : u.Counts) (some_ : cmd.pmCount ≠ 0) :
    ((u.startCount now).sendCounted cmd).Counts := by
  constructor
  · intro w mem
    rcases List.mem_cons.mp mem with rfl | mem
    · exact (PrcsdToUsrCmd.pms_of_count some_).trans (Nat.le_add_left _ _)
    · exact counts.some_ w mem
  · change 0 + cmd.pmCount = UInt32.ofNat (0 + cmd.pms)
    rw [UInt32.zero_add, Nat.zero_add]
    rfl
  · rintro w ⟨⟩
    rfl

theorem receive_counts (counts : u.Counts) (positive : limit ≠ 0)
    (receives : u.receive limit now cmd = some v) : v.Counts := by
  have became := received u now cmd positive
  rw [receives] at became
  cases became with
  | uncounted none =>
    cases windows : u.windows with
    | nil =>
      have kept := send_windows_nil cmd windows
      obtain ⟨some_, count, tick⟩ := counts
      rw [windows] at count
      constructor
      · simp [kept]
      · rw [kept]
        exact count
      · simp [kept]
    | cons w ws =>
      refine counts_grow windows counts rfl (send_windows_cons windows) ?_
      rw [none, UInt32.add_zero]
      rfl
  | start some_ free => exact start_counts counts some_
  | counted some_ started room =>
    obtain ⟨w, ws, windows, -⟩ := counts.window started
    exact counts_grow windows counts rfl (send_windows_cons windows) rfl

theorem receive_limited (receives : u.receive limit now cmd = some v)
    (positive : limit ≠ 0) (limited : PmWindow.Limited limit.toNat v.windows) :
    PmWindow.Limited limit.toNat u.windows := by
  have became := received u now cmd positive
  rw [receives] at became
  have shrink : ∀ u : PmUser, PmWindow.Limited limit.toNat (u.send cmd).windows →
      PmWindow.Limited limit.toNat u.windows := by
    intro u limited
    cases windows : u.windows with
    | nil => exact ⟨by simp, .nil⟩
    | cons w ws =>
      rw [send_windows_cons windows] at limited
      exact limited.shrink
  cases became with
  | uncounted none => exact shrink u limited
  | start some_ free => exact (shrink (u.startCount now) limited).tail
  | counted some_ started room => exact shrink u limited

/-- Within the limit the count has not wrapped. -/
theorem Counts.toNat (counts : u.Counts) (short : limit < 0x8000)
    (limited : PmWindow.Limited limit.toNat u.windows) {w : PmWindow} {ws : List PmWindow}
    (windows : u.windows = w :: ws) :
    u.receivedPmCount.toNat = w.delivered ∧ w.start = u.receivedPmTick := by
  have small : limit.toNat < 32768 := UInt32.lt_iff_toNat_lt.mp short
  have le : w.delivered ≤ limit.toNat := limited.within w (by simp [windows])
  obtain ⟨-, count, tick⟩ := counts
  rw [windows] at count tick
  refine ⟨?_, (tick w rfl).symm⟩
  rw [count]
  exact UInt32.toNat_ofNat_of_lt' (show w.delivered < 4294967296 by omega)

theorem start_limited (limited : PmWindow.Limited limit.toNat u.windows)
    (later : ∀ w ∈ u.windows.head?, w.start + 60 < now) :
    PmWindow.Limited limit.toNat ((u.startCount now).sendCounted cmd).windows ↔
      cmd.pms ≤ limit.toNat := by
  change PmWindow.Limited limit.toNat (⟨now, 0 + cmd.pms⟩ :: u.windows) ↔ _
  rw [PmWindow.limited_cons, Nat.zero_add]
  exact ⟨fun all => all.1, fun le => ⟨le, later, limited⟩⟩

theorem send_limited {w : PmWindow} {ws : List PmWindow} (windows : u.windows = w :: ws)
    (limited : PmWindow.Limited limit.toNat u.windows) :
    PmWindow.Limited limit.toNat (u.send cmd).windows ↔ w.delivered + cmd.pms ≤ limit.toNat := by
  rw [windows] at limited
  rw [send_windows_cons windows]
  exact PmWindow.limited_grow limited

theorem Counts.started (counts : u.Counts) (short : limit < 0x8000)
    (limited : PmWindow.Limited limit.toNat u.windows) {w : PmWindow} {ws : List PmWindow}
    (windows : u.windows = w :: ws) : u.receivedPmCount ≠ 0 := by
  intro zero
  have count := (counts.toNat short limited windows).1
  have one := counts.some_ w (by simp [windows])
  rw [zero] at count
  exact absurd count (Nat.ne_of_lt one)

/-- A batch keeps to the limit exactly if it fits. -/
theorem receive_limited_iff (now : Nat) (cmd : PrcsdToUsrCmd) (counts : u.Counts)
    (positive : limit ≠ 0) (short : limit < 0x8000)
    (limited : PmWindow.Limited limit.toNat u.windows) :
    (∀ v ∈ u.receive limit now cmd, PmWindow.Limited limit.toNat v.windows) ↔
      u.Fits limit now cmd := by
  have small : limit.toNat < 32768 := UInt32.lt_iff_toNat_lt.mp short
  have became := received u now cmd positive
  generalize u.receive limit now cmd = r at became
  unfold Fits
  cases became with
  | uncounted none =>
    rw [if_pos none]
    simp only [Option.mem_def, Option.some.injEq, forall_eq']
    cases windows : u.windows with
    | nil =>
      have zero : u.receivedPmCount = 0 := by
        have count := counts.count
        rwa [windows] at count
      rw [send_windows_nil cmd windows]
      exact ⟨fun _ => .inr zero, fun _ => ⟨by simp, .nil⟩⟩
    | cons w ws =>
      have started := counts.started short limited windows
      have le := limited.within w (by simp [windows])
      rw [send_limited windows limited]
      constructor
      · intro within
        exact .inl (PrcsdToUsrCmd.pms_of_no_count none (by omega))
      · rintro (zero | zero)
        · omega
        · exact absurd zero started
  | start some_ free =>
    rw [if_neg some_]
    simp only [Option.mem_def, Option.some.injEq, forall_eq']
    have counted_ : u.counted limit = 0 := by
      unfold counted
      rcases free with zero | ⟨full, -⟩
      · rw [zero, ite_eq_left_iff]
        exact fun _ => rfl
      · rw [if_pos full]
    have not_refuses : ¬ u.Refuses limit now := by
      rintro ⟨full, soon⟩
      rcases free with zero | ⟨-, past⟩
      · rw [zero] at full
        exact positive (UInt32.le_antisymm full (UInt32.zero_le))
      · exact absurd soon (Nat.not_le.mpr past)
    have later : ∀ w ∈ u.windows.head?, w.start + 60 < now := by
      intro w head
      obtain ⟨ws, windows⟩ := List.head?_eq_some_iff.mp head
      rcases free with zero | ⟨-, past⟩
      · exact absurd zero (counts.started short limited windows)
      · rw [(counts.toNat short limited windows).2]
        exact past
    rw [start_limited limited later, counted_, Nat.zero_add]
    exact ⟨.inr, fun fits => fits.resolve_left not_refuses⟩
  | refused some_ refuses =>
    rw [if_neg some_]
    exact ⟨fun _ => .inl refuses, fun _ => by simp⟩
  | counted some_ started room =>
    rw [if_neg some_]
    simp only [Option.mem_def, Option.some.injEq, forall_eq']
    obtain ⟨w, ws, windows, -⟩ := counts.window started
    have notFull : ¬ limit ≤ u.receivedPmCount := UInt32.not_le.mpr room
    have counted_ : u.counted limit = w.delivered := by
      rw [counted, if_neg notFull, (counts.toNat short limited windows).1]
    have limited_iff : PmWindow.Limited limit.toNat (u.sendCounted cmd).windows ↔
        w.delivered + cmd.pms ≤ limit.toNat := send_limited windows limited
    rw [limited_iff, counted_]
    exact ⟨.inr, fun fits => fits.resolve_left fun refuses => notFull refuses.1⟩

/-- A single message always fits. -/
theorem fits_single (positive : limit ≠ 0) (single : cmd.pms = 1) : u.Fits limit now cmd := by
  have one : 1 ≤ limit.toNat := by
    rw [Nat.one_le_iff_ne_zero]
    exact fun zero => positive (UInt32.toNat_inj.mp zero)
  have some_ : cmd.pmCount ≠ 0 := by
    rw [PrcsdToUsrCmd.pmCount, single]
    decide
  rw [Fits, if_neg some_, counted, single]
  by_cases full : limit ≤ u.receivedPmCount
  · rw [if_pos full]
    exact .inr one
  · have room := UInt32.lt_iff_toNat_lt.mp (UInt32.not_le.mp full)
    rw [if_neg full]
    exact .inr room

end PmUser

namespace PmState

/-- Every user is sent no more than the limit. -/
def Limited (limit : Nat) (s : PmState) : Prop := ∀ i, PmWindow.Limited limit (s.users i).windows

def Counts (s : PmState) : Prop := ∀ i, (s.users i).Counts

variable {limit : Nat} {s : PmState} {i : Nat} {f : PmUser → PmUser}

theorem modify_self : (s.modify i f).users i = f (s.users i) := Function.update_self ..

theorem modify_of_ne {j : Nat} (other : j ≠ i) : (s.modify i f).users j = s.users j :=
  Function.update_of_ne other ..

theorem forall_modify {P : PmUser → Prop} (others : ∀ j, P (s.users j)) :
    (∀ j, P ((s.modify i f).users j)) ↔ P (f (s.users i)) := by
  constructor
  · intro all
    have here := all i
    rwa [modify_self] at here
  · intro here j
    by_cases same : j = i
    · rw [same, modify_self]
      exact here
    · rw [modify_of_ne same]
      exact others j

/-- What does not touch the count of a user. -/
structure SameCount (f : PmUser → PmUser) : Prop where
  count : ∀ u, (f u).receivedPmCount = u.receivedPmCount
  tick : ∀ u, (f u).receivedPmTick = u.receivedPmTick
  windows : ∀ u, (f u).windows = u.windows

theorem sameCount_list (g : List PrcsdToUsrCmd → List PrcsdToUsrCmd) :
    SameCount fun u => { u with cmdToUserList := g u.cmdToUserList } :=
  ⟨fun _ => rfl, fun _ => rfl, fun _ => rfl⟩

theorem sameCount_send (text : Text) : SameCount (·.sendCharDelayed text) :=
  ⟨fun _ => rfl, fun _ => rfl, fun _ => rfl⟩

theorem SameCount.limited (same : SameCount f) :
    (s.modify i f).Limited limit ↔ s.Limited limit := by
  have windows : ∀ j, ((s.modify i f).users j).windows = (s.users j).windows := by
    intro j
    by_cases here : j = i
    · rw [here, modify_self, same.windows]
    · rw [modify_of_ne here]
  unfold Limited
  simp only [windows]

theorem SameCount.counts (same : SameCount f) (counts : s.Counts) : (s.modify i f).Counts := by
  refine (forall_modify counts).mpr ?_
  obtain ⟨some_, count, tick⟩ := counts i
  constructor
  · rw [same.windows]
    exact some_
  · rw [same.windows, same.count]
    exact count
  · rw [same.windows, same.tick]
    exact tick

end PmState

namespace PmHub

open PmState

variable {hub : PmHub} {s : PmState} {sender : Nat} {online : Nat → Bool} {cmd : PrcsdToUsrCmd}

/-- What can become of a batch in a turn: it is put off or dropped, its user is gone, or its
user gets it. -/
theorem relay_cases (hub : PmHub) (s : PmState) (sender : Nat) (online : Nat → Bool)
    (cmd : PrcsdToUsrCmd) :
    (hub.RelayFits online s cmd ∧
        ∃ f, SameCount f ∧ hub.relay sender online s cmd = s.modify sender f) ∨
      (hub.RelayFits online s cmd ∧ hub.relay sender online s cmd = s) ∨
      ∃ u, (s.users cmd.toUser).receive hub.maxPmCount s.actualTick cmd = some u ∧
        (hub.RelayFits online s cmd ↔
          (s.users cmd.toUser).Fits hub.maxPmCount s.actualTick cmd) ∧
        hub.relay sender online s cmd = s.modify cmd.toUser fun _ => u := by
  unfold relay RelayFits
  by_cases due : 2 ≤ cmd.loops
  · rw [if_pos due]
    by_cases there : online cmd.toUser = true
    · rw [if_pos there]
      cases receives : (s.users cmd.toUser).receive hub.maxPmCount s.actualTick cmd with
      | none =>
        have became := PmUser.received (s.users cmd.toUser) s.actualTick cmd hub.positive
        rw [receives] at became
        cases became with
        | refused some_ refuses =>
          refine .inl ⟨fun _ _ => ?_, _, sameCount_send _, rfl⟩
          rw [PmUser.Fits, if_neg some_]
          exact .inl refuses
      | some u =>
        exact .inr (.inr ⟨u, rfl, ⟨fun fits => fits due there, fun fits _ _ => fits⟩, rfl⟩)
    · rw [if_neg there]
      exact .inr (.inl ⟨fun _ on => absurd on there, rfl⟩)
  · rw [if_neg due]
    exact .inl ⟨fun past => absurd past due, _,
      sameCount_list (· ++ [{ cmd with loops := cmd.loops + 1 }]), rfl⟩

theorem relay_counts (counts : s.Counts) : (hub.relay sender online s cmd).Counts := by
  rcases relay_cases hub s sender online cmd with ⟨-, f, same, eq⟩ | ⟨-, eq⟩ | ⟨u, receives, -, eq⟩
  · rw [eq]
    exact same.counts counts
  · rw [eq]
    exact counts
  · rw [eq]
    exact (forall_modify counts).mpr
      (PmUser.receive_counts (counts cmd.toUser) hub.positive receives)

theorem relay_back (limited : (hub.relay sender online s cmd).Limited hub.maxPmCount.toNat) :
    s.Limited hub.maxPmCount.toNat := by
  rcases relay_cases hub s sender online cmd with ⟨-, f, same, eq⟩ | ⟨-, eq⟩ | ⟨u, receives, -, eq⟩
  · rw [eq] at limited
    exact same.limited.mp limited
  · rwa [eq] at limited
  · rw [eq] at limited
    intro i
    by_cases here : i = cmd.toUser
    · have got := limited cmd.toUser
      rw [modify_self] at got
      rw [here]
      exact PmUser.receive_limited receives hub.positive got
    · have kept := limited i
      rwa [modify_of_ne here] at kept

theorem relay_limited_iff (counts : s.Counts) (limited : s.Limited hub.maxPmCount.toNat) :
    (hub.relay sender online s cmd).Limited hub.maxPmCount.toNat ↔
      hub.RelayFits online s cmd := by
  rcases relay_cases hub s sender online cmd with
    ⟨fits, f, same, eq⟩ | ⟨fits, eq⟩ | ⟨u, receives, fits, eq⟩
  · rw [eq, same.limited]
    exact ⟨fun _ => fits, fun _ => limited⟩
  · rw [eq]
    exact ⟨fun _ => fits, fun _ => limited⟩
  · have gets := PmUser.receive_limited_iff s.actualTick cmd (counts cmd.toUser) hub.positive
      hub.short (limited cmd.toUser)
    rw [receives] at gets
    have got : (s.modify cmd.toUser fun _ => u).Limited hub.maxPmCount.toNat ↔
        PmWindow.Limited hub.maxPmCount.toNat u.windows :=
      forall_modify (P := fun u => PmWindow.Limited hub.maxPmCount.toNat u.windows) limited
    rw [eq, fits, ← gets, got]
    simp

theorem takeList_same : SameCount fun u => { u with cmdToUserList := [] } :=
  sameCount_list fun _ => []

variable {e : PmEvent}

theorem step_counts (counts : s.Counts) : (hub.step s e).Counts := by
  cases e with
  | pass ticks => exact counts
  | add sender sCommand toUser isPm =>
    exact (sameCount_list (PrcsdToUsrCmd.add sCommand toUser isPm)).counts counts
  | loop sender online =>
    exact run_invariant Counts (fun _ _ counts => relay_counts counts) _
      (takeList_same.counts counts)
  | close sender => exact takeList_same.counts counts

theorem step_back (limited : (hub.step s e).Limited hub.maxPmCount.toNat) :
    s.Limited hub.maxPmCount.toNat := by
  cases e with
  | pass ticks => exact limited
  | add sender sCommand toUser isPm =>
    exact (sameCount_list (PrcsdToUsrCmd.add sCommand toUser isPm)).limited.mp limited
  | loop sender online =>
    exact takeList_same.limited.mp
      (run_back (Limited hub.maxPmCount.toNat) (fun _ _ => relay_back) limited)
  | close sender => exact takeList_same.limited.mp limited

theorem step_limited_iff (counts : s.Counts) (limited : s.Limited hub.maxPmCount.toNat) :
    (hub.step s e).Limited hub.maxPmCount.toNat ↔ hub.Fits s e := by
  cases e with
  | pass ticks => exact ⟨fun _ => trivial, fun _ => limited⟩
  | add sender sCommand toUser isPm =>
    have same := sameCount_list (PrcsdToUsrCmd.add sCommand toUser isPm)
    exact ⟨fun _ => trivial, fun _ => same.limited.mpr limited⟩
  | loop sender online =>
    exact good_iff_allowed Counts (Limited hub.maxPmCount.toNat)
      (fun _ _ counts => relay_counts counts) (fun _ _ => relay_back)
      (fun _ _ => relay_limited_iff) (takeList_same.counts counts)
      (takeList_same.limited.mpr limited)
  | close sender => exact ⟨fun _ => trivial, fun _ => takeList_same.limited.mpr limited⟩

theorem init_counts : PmState.init.Counts := fun _ => ⟨nofun, rfl, nofun⟩

theorem init_limited {limit : Nat} : PmState.init.Limited limit := fun _ => ⟨nofun, .nil⟩

/-- Users are sent no more private messages than the limit exactly as long as the batches
fit. -/
theorem limited_iff (hub : PmHub) (es : List PmEvent) :
    (run hub.step PmState.init es).Limited hub.maxPmCount.toNat ↔
      Allowed hub.step hub.Fits PmState.init es :=
  good_iff_allowed Counts (Limited hub.maxPmCount.toNat) (fun _ _ counts => step_counts counts)
    (fun _ _ => step_back) (fun _ _ => step_limited_iff) init_counts init_limited

end PmHub

/-- One private message a minute. -/
def onePm : PmHub where
  maxPmCount := 1
  positive := by decide
  short := by decide
  nick := fun i => ascii (if i = 1 then "bob" else "ann")
  hubSec := ascii "Hub-Security"
  sryLstMsgBcs := ascii "Sorry, your last message was not sent because"
  sorryLast := ascii "Sorry, last"
  msgsNotSent := ascii "messages was not sent because"
  excMsgLimit := ascii "exceeded his message limit"

/-- Two private messages come in one batch. -/
def twoPms : List PmEvent :=
  let pm := PmEvent.add 1 (ascii "$To: ann From: bob $<bob> hi|") 2 true
  let turn := PmEvent.loop 1 fun _ => true
  [pm, pm, turn, turn, turn]

/-- Both are sent on. -/
theorem twoPms_unlimited : ¬ (run onePm.step PmState.init twoPms).Limited 1 := by
  intro limited
  have within := (limited 2).within ⟨0, 2⟩ (by decide)
  exact absurd within (by decide)

end FlyHub.Flood
