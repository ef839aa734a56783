import FlyHub.Flood.Check
import FlyHub.Lib.Run
import Mathlib.Algebra.BigOperators.Group.List.Basic
import Mathlib.Algebra.GroupWithZero.Nat

/-!
# Floods of data

Before it reads, `DoRecv` adds the bytes that wait to those that it has received in the
window, for both levels of the settings. While that is a flood it reads nothing, and what
waits is added again and again. Only sixteen bits of the KiB are compared with the limit.
-/

namespace FlyHub.Flood

open FlyHub.Lib

/-- `SETSHORT_MAX_DOWN_ACTION`, `SETSHORT_MAX_DOWN_KB` and `SETSHORT_MAX_DOWN_TIME` of one
level. No check is made with the action 0. -/
structure DownLimit extends Limit where
  some_kb : 1 ≤ defloodCount.toInt
  some_time : 1 ≤ defloodTime.toNat

structure DownSettings where
  warn : WarnSettings
  maxDown : DownLimit
  maxDown2 : DownLimit

/-- What `recv` gives. The commands in the bytes may close the user; so do an error, the
end of the connection and a full buffer. -/
inductive Received
  | bytes (recvlen : Nat) (closed : Bool)
  | again
  | closed

/-- A call of `DoRecv`: how many bytes wait, whether the profile of the user has
`NODEFLOODRECV`, and what reading gives. -/
structure RecvCall where
  tick : Nat
  iAvailBytes : Nat
  noDefloodRecv : Bool
  received : Received

/-- What `DoRecv` reads and writes of a user. -/
structure RecvUser where
  user : FloodUser
  volume : Volume
  volume2 : Volume
  lastRecvTick : Nat
  closed : Bool

/-- `m_ui32Recvs` or `m_ui32Recvs2`. -/
inductive Level
  | first | second
  deriving DecidableEq

namespace Volume

variable (v : Volume) (lim : DownLimit) (now iAvailBytes : Nat)

/-- The bytes that wait are counted, and a window begins with the first of all. -/
def add : Volume :=
  ⟨v.recvs + UInt32.ofNat iAvailBytes, if v.recvs = 0 then now else v.recvsTick⟩

/-- Bytes that are no flood are taken back, unless the window was closed. -/
def takeBack : Volume :=
  if v.recvs ≠ 0 then { v with recvs := v.recvs - UInt32.ofNat iAvailBytes } else v

/-- The check of one level. -/
def defend (cfg : WarnSettings) (u : FloodUser) : CheckedVolume :=
  if lim.action = 0 then ⟨u, v, false⟩
  else
    let checked := (v.add now iAvailBytes).deFloodCheckForDataFlood lim.toLimit now cfg u
    if checked.flood then checked
    else { checked with volume := checked.volume.takeBack iAvailBytes }

/-- Bytes that were received. -/
def receive (recvlen : Nat) : Volume := { v with recvs := v.recvs + UInt32.ofNat recvlen }

end Volume

namespace RecvUser

variable (cfg : DownSettings) (s : RecvUser) (c : RecvCall)

/-- An error, or a state past login. -/
def isClosed : Bool := s.closed || !s.user.penalties.isEmpty

/-- A call that checks for floods. -/
def checks : Bool := !s.isClosed && c.iAvailBytes ≠ 0 && !c.noDefloodRecv

def check : CheckedVolume :=
  s.volume.defend cfg.maxDown c.tick c.iAvailBytes cfg.warn s.user

def check2 : CheckedVolume :=
  s.volume2.defend cfg.maxDown2 c.tick c.iAvailBytes cfg.warn (s.check cfg c).user

/-- With nothing to read, reading is tried after five seconds. The ticks are compared as
signed numbers. -/
def isDue : Bool := 5 < (c.tick : Int) - s.lastRecvTick || (c.tick : Int) - s.lastRecvTick < 0

/-- From `recv` on. -/
def receive : RecvUser :=
  match c.received with
  | .bytes recvlen closed =>
    { s with volume := s.volume.receive recvlen, volume2 := s.volume2.receive recvlen,
             closed := closed }
  | .again => s
  | .closed => { s with closed := true }

/-- `DoRecv`. -/
def doRecv : RecvUser :=
  if s.isClosed then s
  else if s.checks c then
    if (s.check cfg c).flood then
      { s with user := (s.check cfg c).user, volume := (s.check cfg c).volume }
    else
      let s' := { s with user := (s.check2 cfg c).user, volume := (s.check cfg c).volume,
                         volume2 := (s.check2 cfg c).volume }
      if (s.check2 cfg c).flood then s' else s'.receive c
  else if c.iAvailBytes ≠ 0 then s.receive c
  else if s.isDue c then { s with lastRecvTick := c.tick }.receive c
  else s

/-! ## What is to be seen of one level -/

variable (l : Level)

def level : Volume :=
  match l with
  | .first => s.volume
  | .second => s.volume2

end RecvUser

namespace DownSettings

variable (cfg : DownSettings) (l : Level)

def limit : DownLimit :=
  match l with
  | .first => cfg.maxDown
  | .second => cfg.maxDown2

end DownSettings

namespace RecvUser

variable (cfg : DownSettings) (l : Level) (s : RecvUser) (c : RecvCall)

/-- The check of the level is reached. -/
def Reached : Prop :=
  s.checks c ∧ (cfg.limit l).action ≠ 0 ∧ (l = .second → (s.check cfg c).flood = false)

/-- The check of the level reports a flood. -/
def Reported : Prop :=
  s.Reached cfg l c ∧
    match l with
    | .first => (s.check cfg c).flood = true
    | .second => (s.check2 cfg c).flood = true

instance : Decidable (s.Reached cfg l c) := by
  unfold Reached
  infer_instance

/-- The call comes to `recv`. -/
def Reads : Prop :=
  s.isClosed = false ∧
    if s.checks c then (s.check cfg c).flood = false ∧ (s.check2 cfg c).flood = false
    else c.iAvailBytes ≠ 0 ∨ s.isDue c

instance : Decidable (s.Reported cfg l c) := by
  unfold Reported
  cases l <;> infer_instance

instance : Decidable (s.Reads cfg c) := by
  unfold Reads
  infer_instance

/-- How many bytes the call adds: those that wait, or those that it reads without a check. -/
def gain : Nat :=
  if s.Reached cfg l c then c.iAvailBytes
  else if s.Reads cfg c then
    match c.received with
    | .bytes recvlen _ => recvlen
    | _ => 0
  else 0

def after (cs : List RecvCall) : RecvUser := run (doRecv cfg) s cs

/-- How many bytes the calls add. -/
def gains (cs : List RecvCall) : Nat :=
  (trace (doRecv cfg) (fun s c => some (s.gain cfg l c)) s cs).sum

/-- The call is made in the window. -/
def Within (start : Nat) : Prop := start ≤ c.tick ∧ c.tick < start + (cfg.limit l).defloodTime.toNat

instance (start : Nat) : Decidable (Within cfg l c start) := inferInstanceAs (Decidable (_ ∧ _))

/-- `c` reports a flood, and the check of `c'` comes later in the same window. -/
structure Later (cs pre mid : List RecvCall) (c c' : RecvCall) : Prop where
  here : pre ++ c :: (mid ++ [c']) <+: cs
  reported : (s.after cfg pre).Reported cfg l c
  within : ∀ d ∈ mid ++ [c'], Within cfg l d ((s.after cfg (pre ++ [c])).level l).recvsTick
  reached : (s.after cfg (pre ++ c :: mid)).Reached cfg l c'

/-- A flood that is reported stays one until its window ends. -/
def Monotone (cs : List RecvCall) : Prop :=
  ∀ pre c mid c', s.Later cfg l cs pre mid c c' → (s.after cfg (pre ++ c :: mid)).Reported cfg l c'

/-- All the bytes since the first report, those of the report and of the last call included. -/
def total (pre mid : List RecvCall) (c c' : RecvCall) : Nat :=
  ((s.after cfg (pre ++ [c])).level l).recvs.toNat +
    (s.after cfg (pre ++ [c])).gains cfg l (mid ++ [c'])

/-- The sixteen bits of the KiB that are compared do not fall below the limit. -/
def Unwrapped (cs : List RecvCall) : Prop :=
  ∀ pre c mid c', s.Later cfg l cs pre mid c c' →
    (cfg.limit l).defloodCount.toInt ≤ (s.total cfg l pre mid c c' / 1024 % 65536 : Nat)

end RecvUser

/-! ## What one call does -/

namespace Volume

variable {v : Volume} {lim : DownLimit} {now n : Nat} {cfg : WarnSettings} {u : FloodUser}

/-- All the sizes of 32 bits have the same KiB in 16 bits. -/
theorem narrowed_kb (recvs : UInt32) (total : Nat) (same : recvs.toNat = total % 4294967296) :
    (recvs / 1024).toUInt16.toNat = total / 1024 % 65536 := by
  rw [UInt32.toNat_toUInt16, UInt32.toNat_div, same]
  simp only [UInt32.reduceToNat, Nat.reducePow]
  omega

theorem dataFlood_iff (v : Volume) (lim : DownLimit) (now : Nat) (cfg : WarnSettings)
    (u : FloodUser) :
    (v.deFloodCheckForDataFlood lim.toLimit now cfg u).flood = true ↔
    lim.defloodCount.toInt ≤ (v.recvs / 1024).toUInt16.toNat ∧ v.isOpen lim.toLimit now := by
  rw [deFloodCheckForDataFlood]
  by_cases reached : lim.defloodCount.toInt ≤ (v.recvs / 1024).toUInt16.toNat
  · by_cases opened : v.isOpen lim.toLimit now
    · rw [if_pos reached, if_pos opened]
      refine iff_of_true ?_ ⟨reached, opened⟩
      split <;> rfl
    · rw [if_pos reached, if_neg opened]
      exact iff_of_false Bool.false_ne_true fun both => opened both.2
  · rw [if_neg reached]
    refine iff_of_false ?_ fun both => reached both.1
    split <;> exact Bool.false_ne_true

/-- A flood leaves the count and the window. -/
theorem dataFlood_volume (flood : (v.deFloodCheckForDataFlood lim.toLimit now cfg u).flood = true) :
    (v.deFloodCheckForDataFlood lim.toLimit now cfg u).volume = v := by
  obtain ⟨reached, opened⟩ := (dataFlood_iff v lim now cfg u).mp flood
  rw [deFloodCheckForDataFlood, if_pos reached, if_pos opened]
  split <;> rfl

theorem add_recvs (v : Volume) (now n : Nat) :
    (v.add now n).recvs.toNat = (v.recvs.toNat + n) % 4294967296 := by
  rw [add]
  simp [UInt32.toNat_add]

theorem add_tick (v : Volume) (now n : Nat) :
    (v.add now n).recvsTick = v.recvsTick ∨ (v.add now n).recvsTick = now := by
  rw [add]
  dsimp only
  split
  · exact .inr rfl
  · exact .inl rfl

/-- In its window the check of a level reports a flood by the KiB alone. -/
theorem defend_iff {start total : Nat} (on : lim.action ≠ 0) (begun : start ≤ v.recvsTick)
    (inside : now < start + lim.defloodTime.toNat)
    (counted : v.recvs.toNat = total % 4294967296) :
    (v.defend lim now n cfg u).flood = true ↔
      lim.defloodCount.toInt ≤ ((total + n) / 1024 % 65536 : Nat) := by
  have same : (v.add now n).recvs.toNat = (total + n) % 4294967296 := by
    rw [add_recvs, counted]
    omega
  have opened : (v.add now n).isOpen lim.toLimit now := by
    have := lim.some_time
    rw [isOpen]
    rcases add_tick v now n with tick | tick
    · rw [tick]
      omega
    · rw [tick]
      omega
  have flood := dataFlood_iff (v.add now n) lim now cfg u
  rw [narrowed_kb _ _ same, and_iff_left opened] at flood
  rw [← flood, defend, if_neg on]
  dsimp only
  split
  · exact Iff.rfl
  · exact Iff.rfl

theorem defend_volume (flood : (v.defend lim now n cfg u).flood = true) :
    (v.defend lim now n cfg u).volume = v.add now n := by
  rw [defend] at flood ⊢
  split at flood
  · cases flood
  · rename_i on
    rw [if_neg on]
    dsimp only at flood ⊢
    split at flood
    · rename_i reported
      rw [if_pos reported]
      exact dataFlood_volume reported
    · rename_i calm
      exact absurd flood calm

end Volume

namespace RecvUser

variable {cfg : DownSettings} {l : Level} {s : RecvUser} {c : RecvCall}

/-- The volume of a level that grows by `n` bytes. -/
structure Grown (v v' : Volume) (now n : Nat) : Prop where
  recvs : v'.recvs.toNat = (v.recvs.toNat + n) % 4294967296
  tick : v'.recvsTick = v.recvsTick ∨ v'.recvsTick = now

theorem grown_refl (v : Volume) (now : Nat) : Grown v v now 0 :=
  ⟨(Nat.mod_eq_of_lt v.recvs.toNat_lt).symm, .inl rfl⟩

theorem grown_receive (v : Volume) (now n : Nat) : Grown v (v.receive n) now n :=
  ⟨by simp [Volume.receive, UInt32.toNat_add], .inl rfl⟩

theorem grown_add (v : Volume) (now n : Nat) : Grown v (v.add now n) now n :=
  ⟨Volume.add_recvs v now n, Volume.add_tick v now n⟩

/-- What is read is added to both levels. -/
theorem receive_grown (l : Level) (s : RecvUser) (c : RecvCall) :
    Grown (s.level l) ((s.receive c).level l) c.tick
      (match c.received with | .bytes recvlen _ => recvlen | _ => 0) := by
  rw [receive]
  cases c.received with
  | bytes recvlen closed => cases l <;> exact grown_receive _ _ _
  | again => exact grown_refl _ _
  | closed => cases l <;> exact grown_refl _ _

theorem checks_open (checks : s.checks c = true) : s.isClosed = false := by
  rw [RecvUser.checks, Bool.and_eq_true, Bool.and_eq_true] at checks
  simpa using checks.1.1

theorem gain_reached (reached : s.Reached cfg l c) : s.gain cfg l c = c.iAvailBytes :=
  if_pos reached

theorem gain_nothing (unreached : ¬s.Reached cfg l c) (unread : ¬s.Reads cfg c) :
    s.gain cfg l c = 0 := by rw [gain, if_neg unreached, if_neg unread]

theorem gain_read (unchecked : ¬s.checks c = true) (reads : s.Reads cfg c) :
    s.gain cfg l c = match c.received with | .bytes recvlen _ => recvlen | _ => 0 := by
  rw [gain, if_neg fun reached : s.Reached cfg l c => unchecked reached.1, if_pos reads]

/-- A call adds its bytes to the level, unless the check finds no flood. -/
theorem doRecv_grown (on : (cfg.limit l).action ≠ 0)
    (alarmed : s.Reached cfg l c → s.Reported cfg l c) :
    Grown (s.level l) ((s.doRecv cfg c).level l) c.tick (s.gain cfg l c) := by
  unfold doRecv
  split
  · rename_i closed
    have unchecked : ¬s.checks c = true := by
      intro checks
      rw [checks_open checks] at closed
      cases closed
    rw [gain_nothing (fun reached => unchecked reached.1)
      (fun reads => by rw [reads.1] at closed; cases closed)]
    exact grown_refl _ _
  · rename_i opened
    split
    · rename_i checks
      split
      · rename_i flood
        cases l with
        | first =>
          rw [gain_reached ⟨checks, on, nofun⟩]
          change Grown s.volume (s.check cfg c).volume _ _
          rw [check, Volume.defend_volume flood]
          exact grown_add _ _ _
        | second =>
          have calm_first : ¬(s.check cfg c).flood = false := by simp [flood]
          have unread : ¬s.Reads cfg c := by
            rintro ⟨-, reads⟩
            rw [if_pos checks] at reads
            exact calm_first reads.1
          rw [gain_nothing (fun reached => calm_first (reached.2.2 rfl)) unread]
          exact grown_refl _ _
      · rename_i calm
        cases l with
        | first => exact absurd (alarmed ⟨checks, on, nofun⟩).2 calm
        | second =>
          have reached : s.Reached cfg .second c :=
            ⟨checks, on, fun _ => Bool.eq_false_iff.mpr calm⟩
          have flood : (s.check2 cfg c).flood = true := (alarmed reached).2
          rw [gain_reached reached, if_pos flood]
          change Grown s.volume2 (s.check2 cfg c).volume _ _
          rw [check2, Volume.defend_volume flood]
          exact grown_add _ _ _
    · rename_i unchecked
      have open_ : s.isClosed = false := Bool.eq_false_iff.mpr opened
      split
      · rename_i waits
        rw [gain_read unchecked ⟨open_, by rw [if_neg unchecked]; exact .inl waits⟩]
        exact receive_grown l s c
      · rename_i nothing
        split
        · rename_i due
          rw [gain_read unchecked ⟨open_, by rw [if_neg unchecked]; exact .inr due⟩]
          exact receive_grown l { s with lastRecvTick := c.tick } c
        · rename_i early
          have unread : ¬s.Reads cfg c := by
            rintro ⟨-, reads⟩
            rw [if_neg unchecked] at reads
            exact reads.elim nothing early
          rw [gain_nothing (fun reached => unchecked reached.1) unread]
          exact grown_refl _ _

/-! ## What the calls of a window do -/

section
variable {cs pre mid : List RecvCall} {c' : RecvCall} {start : Nat}

theorem after_concat (cfg : DownSettings) (s : RecvUser) (cs : List RecvCall) (c : RecvCall) :
    s.after cfg (cs ++ [c]) = (s.after cfg cs).doRecv cfg c := run_concat _ _ _ _

theorem after_append (cfg : DownSettings) (s : RecvUser) (cs ds : List RecvCall) :
    s.after cfg (cs ++ ds) = (s.after cfg cs).after cfg ds := run_append _ _ _ _

theorem gains_concat (cfg : DownSettings) (l : Level) (s : RecvUser) (cs : List RecvCall)
    (c : RecvCall) :
    s.gains cfg l (cs ++ [c]) = s.gains cfg l cs + (s.after cfg cs).gain cfg l c := by
  rw [gains, trace_concat, List.sum_append]
  rfl

/-- Every check of the level that these calls come to reports a flood. -/
def Alarmed (cfg : DownSettings) (l : Level) (s : RecvUser) (cs : List RecvCall) : Prop :=
  ∀ pre c, pre ++ [c] <+: cs → (s.after cfg pre).Reached cfg l c →
    (s.after cfg pre).Reported cfg l c

/-- While every check reports a flood nothing is taken back, and the window goes on. -/
theorem alarmed_volume (on : (cfg.limit l).action ≠ 0) (alarmed : s.Alarmed cfg l cs)
    (begun : start ≤ (s.level l).recvsTick) (later : ∀ d ∈ cs, start ≤ d.tick) :
    ((s.after cfg cs).level l).recvs.toNat =
        ((s.level l).recvs.toNat + s.gains cfg l cs) % 4294967296 ∧
      start ≤ ((s.after cfg cs).level l).recvsTick := by
  induction cs using List.reverseRecOn with
  | nil => exact ⟨(Nat.mod_eq_of_lt (s.level l).recvs.toNat_lt).symm, begun⟩
  | append_singleton cs c ih =>
    obtain ⟨recvs, tick⟩ := ih
      (fun pre d h => alarmed pre d (h.trans (List.prefix_append _ _)))
      (fun d mem => later d (List.mem_append_left _ mem))
    have grown := doRecv_grown on (alarmed cs c (List.prefix_refl _))
    have now := later c (List.mem_append_right _ (List.mem_singleton_self c))
    rw [after_concat, gains_concat]
    refine ⟨?_, ?_⟩
    · rw [grown.recvs, recvs]
      omega
    · rcases grown.tick with same | same
      · rw [same]
        exact tick
      · rw [same]
        exact now

theorem alarmed_nil : s.Alarmed cfg l [] := by
  intro pre d h
  exact absurd (List.prefix_nil.mp h) (by simp)

theorem alarmed_concat (alarmed : s.Alarmed cfg l cs)
    (last : (s.after cfg cs).Reached cfg l c → (s.after cfg cs).Reported cfg l c) :
    s.Alarmed cfg l (cs ++ [c]) := by
  intro pre d h
  rcases List.prefix_concat_iff.mp h with same | before
  · obtain ⟨rfl, one⟩ := List.append_inj' same rfl
    obtain rfl := List.singleton_inj.mp one
    exact last
  · exact alarmed pre d before

theorem after_mid (cfg : DownSettings) (s : RecvUser) (pre mid : List RecvCall) (c : RecvCall) :
    s.after cfg (pre ++ c :: mid) = (s.after cfg (pre ++ [c])).after cfg mid := by
  rw [← after_append, List.append_assoc]
  rfl

/-- After nothing but reports, a call reports a flood by the total of all the bytes. -/
theorem Later.reported_iff (later : s.Later cfg l cs pre mid c c')
    (alarmed : (s.after cfg (pre ++ [c])).Alarmed cfg l mid) :
    (s.after cfg (pre ++ c :: mid)).Reported cfg l c' ↔
      (cfg.limit l).defloodCount.toInt ≤ (s.total cfg l pre mid c c' / 1024 % 65536 : Nat) := by
  have reached := later.reached
  have inside := (later.within c' (List.mem_append_right _ (List.mem_singleton_self c'))).2
  obtain ⟨recvs, tick⟩ := alarmed_volume reached.2.1 alarmed (Nat.le_refl _)
    fun d mem => (later.within d (List.mem_append_left _ mem)).1
  unfold Reported
  rw [and_iff_right reached, total, gains_concat, ← after_mid, gain_reached reached,
    ← Nat.add_assoc]
  rw [← after_mid] at recvs tick
  cases l with
  | first => exact Volume.defend_iff reached.2.1 tick inside recvs
  | second => exact Volume.defend_iff reached.2.1 tick inside recvs

/-- Where each next check reports a flood, they all do. -/
theorem alarmed_of_next (here : pre ++ c :: mid <+: cs) (reported : (s.after cfg pre).Reported cfg l c)
    (within : ∀ d ∈ mid, Within cfg l d ((s.after cfg (pre ++ [c])).level l).recvsTick)
    (next : ∀ mid d, s.Later cfg l cs pre mid c d → (s.after cfg (pre ++ [c])).Alarmed cfg l mid →
      (s.after cfg (pre ++ c :: mid)).Reported cfg l d) :
    (s.after cfg (pre ++ [c])).Alarmed cfg l mid := by
  induction mid using List.reverseRecOn with
  | nil => exact alarmed_nil
  | append_singleton mid d ih =>
    have before : pre ++ c :: mid <+: cs :=
      List.IsPrefix.trans ⟨[d], by simp⟩ here
    have alarmed := ih before fun d mem => within d (List.mem_append_left _ mem)
    refine alarmed_concat alarmed ?_
    rw [← after_mid]
    exact fun reached => next mid d ⟨here, reported, within, reached⟩ alarmed

theorem Later.alarmed (later : s.Later cfg l cs pre mid c c')
    (next : ∀ mid d, s.Later cfg l cs pre mid c d → (s.after cfg (pre ++ [c])).Alarmed cfg l mid →
      (s.after cfg (pre ++ c :: mid)).Reported cfg l d) :
    (s.after cfg (pre ++ [c])).Alarmed cfg l mid :=
  alarmed_of_next (List.IsPrefix.trans ⟨[c'], by simp⟩ later.here) later.reported
    (fun d mem => later.within d (List.mem_append_left _ mem)) next

end

end RecvUser

/-- A flood of data stays one exactly as long as the total of the bytes does not wrap below
the limit, at 64 MiB for the first time. -/
theorem data_flood_monotone_iff (cfg : DownSettings) (l : Level) (s : RecvUser)
    (cs : List RecvCall) : s.Monotone cfg l cs ↔ s.Unwrapped cfg l cs := by
  constructor
  · intro monotone pre c mid c' later
    have alarmed := later.alarmed fun mid d later _ => monotone pre c mid d later
    exact (later.reported_iff alarmed).mp (monotone pre c mid c' later)
  · intro unwrapped pre c mid c' later
    have alarmed := later.alarmed fun mid d later alarmed =>
      (later.reported_iff alarmed).mpr (unwrapped pre c mid d later)
    exact (later.reported_iff alarmed).mpr (unwrapped pre c mid c' later)

/-- One KiB in a minute, for which the user is told. -/
def oneKb : DownLimit := ⟨⟨1, 1, 60⟩, by decide, by decide⟩

def oneKbSettings : DownSettings := ⟨⟨3, 0⟩, oneKb, oneKb⟩

def newReceiver : RecvUser := ⟨⟨0, false, [], []⟩, ⟨0, 0⟩, ⟨0, 0⟩, 0, false⟩

/-- Ten calls in a second, before each of which one MiB waits. -/
def waiting (k : Nat) : RecvCall := ⟨5 + k / 10, 1048576, false, .again⟩

/-- Nothing is read, and after 64 calls nothing is left of all the MiB that were added. -/
theorem flood_forgotten : ¬∀ (cfg : DownSettings) (l : Level) (s : RecvUser) (cs : List RecvCall),
    s.Monotone cfg l cs := by
  intro all
  have reported := all oneKbSettings .first newReceiver _ [] (waiting 0)
    ((List.range 62).map fun k => waiting (k + 1)) (waiting 63)
    ⟨List.prefix_refl _, by decide +kernel, by decide +kernel, by decide +kernel⟩
  exact absurd reported (by decide +kernel)

end FlyHub.Flood
