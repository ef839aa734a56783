import Mathlib.Data.Int.Order.Basic
import Mathlib.Tactic.Common

/-!
# Flood checks

Every kind of message that a user sends has a counter and the second in which its window
began. A counter that reaches the limit of the settings within the time of the settings is
a flood, for which the user is warned, disconnected or banned.
-/

namespace FlyHub.Flood

inductive DefloodTypes
  | getNickList | myInfo | search | chat | pm | sameSearch | samePm | sameChat | sameMultiPm
  | sameMultiChat | ctm | rctm | sr | maxDown | intervalChat | intervalPm | intervalSearch
  deriving DecidableEq

/-- What a user is closed for a flood with. -/
inductive Penalty
  | disconnect | kick | tempBan | ban
  deriving DecidableEq

/-- What flood checks read and write of a user, the texts that they send him, each one by
its type and number, and the penalties that he gets. -/
structure FloodUser where
  defloodWarnings : UInt32
  recvFlooder : Bool
  texts : List (DefloodTypes × UInt8)
  penalties : List Penalty
  deriving DecidableEq

/-- `SETSHORT_DEFLOOD_WARNING_COUNT` and `SETSHORT_DEFLOOD_WARNING_ACTION`. -/
structure WarnSettings where
  defloodWarningCount : Int16
  defloodWarningAction : Int16

/-- The settings of one check. -/
structure Limit where
  action : Int16
  defloodCount : Int16
  defloodTime : UInt32

/-- `ui16Count` and `ui64LastOkTick`. -/
structure Counter where
  count : UInt16
  lastOkTick : Nat
  deriving DecidableEq

namespace FloodUser

variable (u : FloodUser) (cfg : WarnSettings) (e : DefloodTypes)

def tell (ui8MsgId : UInt8) : FloodUser := { u with texts := u.texts ++ [(e, ui8MsgId)] }

/-- The text, the ban if there is one, and `Close`. -/
def punish (ui8MsgId : UInt8) (p : Penalty) : FloodUser :=
  { u.tell e ui8MsgId with penalties := u.penalties ++ [p] }

def warn : FloodUser := { u with defloodWarnings := u.defloodWarnings + 1 }

/-- `DeFloodCheckForWarn`. True if the user is closed. -/
def deFloodCheckForWarn : FloodUser × Bool :=
  if u.defloodWarnings < cfg.defloodWarningCount.toInt32.toUInt32 then (u.tell e 0, false)
  else if cfg.defloodWarningAction = 0 then (u.punish e 1 .disconnect, true)
  else if cfg.defloodWarningAction = 1 then (u.punish e 1 .kick, true)
  else if cfg.defloodWarningAction = 2 then (u.punish e 1 .tempBan, true)
  else if cfg.defloodWarningAction = 3 then (u.punish e 1 .ban, true)
  -- `Close` without a word
  else ({ u with penalties := u.penalties ++ [.disconnect] }, true)

/-- `DeFloodDoAction`. -/
def deFloodDoAction (ui16Action : Int16) (ui16Count : UInt16) : FloodUser × UInt16 :=
  if ui16Action = 1 then (u.tell e 0, if e = .maxDown then ui16Count else ui16Count + 1)
  else if ui16Action = 2 then
    let warned := u.warn.deFloodCheckForWarn cfg e
    (warned.1, if warned.2 = false ∧ e ≠ .maxDown then ui16Count + 1 else ui16Count)
  else if ui16Action = 3 then (u.punish e 0 .disconnect, ui16Count)
  else if ui16Action = 4 then (u.punish e 1 .kick, ui16Count)
  else if ui16Action = 5 then (u.punish e 1 .tempBan, ui16Count)
  else if ui16Action = 6 then (u.punish e 1 .ban, ui16Count)
  else (u, ui16Count)

end FloodUser

/-- What a check leaves, and if it rejects the message. -/
structure Checked where
  user : FloodUser
  counter : Counter
  flood : Bool
  deriving DecidableEq

namespace Counter

variable (c : Counter) (lim : Limit) (now : Nat)

/-- The window goes on. -/
def isOpen : Prop := now < c.lastOkTick + lim.defloodTime.toNat

instance : Decidable (c.isOpen lim now) := inferInstanceAs (Decidable (_ < _))

/-- `DeFloodCheckForFlood`, in the second `now`. The counter and the limit are compared
as `int`. -/
def deFloodCheckForFlood (cfg : WarnSettings) (e : DefloodTypes) (u : FloodUser) : Checked :=
  if c.count = 0 then ⟨u, ⟨c.count + 1, now⟩, false⟩
  else if (c.count.toNat : Int) = lim.defloodCount.toInt then
    if c.isOpen lim now then
      let done := u.deFloodDoAction cfg e lim.action c.count
      ⟨done.1, ⟨done.2, c.lastOkTick⟩, true⟩
    else ⟨u, ⟨1, now⟩, false⟩
  else if lim.defloodCount.toInt < c.count.toNat then
    if c.isOpen lim now then
      if lim.action = 2 ∧ (c.count.toNat : Int) = lim.defloodCount.toInt * 2 then
        let warned := u.warn.deFloodCheckForWarn cfg e
        if warned.2 then ⟨warned.1, c, true⟩
        else ⟨warned.1, ⟨c.count - lim.defloodCount.toUInt16 + 1, c.lastOkTick⟩, true⟩
      else ⟨u, ⟨c.count + 1, c.lastOkTick⟩, true⟩
    else ⟨u, ⟨1, now⟩, false⟩
  else if c.isOpen lim now then ⟨u, ⟨c.count + 1, c.lastOkTick⟩, false⟩
  else ⟨u, ⟨1, now⟩, false⟩

end Counter

/-- `ui32Count` and `ui64LastOkTick` of the bytes that were received. -/
structure Volume where
  recvs : UInt32
  recvsTick : Nat
  deriving DecidableEq

/-- What a check of received bytes leaves, and if it is a flood. -/
structure CheckedVolume where
  user : FloodUser
  volume : Volume
  flood : Bool

namespace Volume

variable (v : Volume) (lim : Limit) (now : Nat)

def isOpen : Prop := now < v.recvsTick + lim.defloodTime.toNat

instance : Decidable (v.isOpen lim now) := inferInstanceAs (Decidable (_ < _))

/-- `DeFloodCheckForDataFlood`, of the type `MAX_DOWN`. The KiB are narrowed to 16 bits. -/
def deFloodCheckForDataFlood (cfg : WarnSettings) (u : FloodUser) : CheckedVolume :=
  if lim.defloodCount.toInt ≤ (v.recvs / 1024).toUInt16.toNat then
    if v.isOpen lim now then
      if u.recvFlooder then ⟨u, v, true⟩
      else
        ⟨({ u with recvFlooder := true }.deFloodDoAction cfg .maxDown lim.action
          v.recvs.toUInt16).1, v, true⟩
    else ⟨{ u with recvFlooder := false }, ⟨0, now⟩, false⟩
  else if v.isOpen lim now then ⟨u, v, false⟩
  else ⟨{ u with recvFlooder := false }, ⟨0, now⟩, false⟩

end Volume

end FlyHub.Flood
