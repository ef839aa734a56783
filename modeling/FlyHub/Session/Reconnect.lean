import FlyHub.Lib.Expiry
import FlyHub.Session.State

/-!
# The wait before a reconnect

Who leaves soon after the login is remembered with the second of the login, and has to wait until
the time between two logins is over. The list is cleaned only where it is read.
-/

namespace FlyHub.Session

open FlyHub.Lib FlyHub.Ban

structure RecTime where
  sNick : Text
  nickHash : UInt32
  ipHash : IpHash
  disConnTick : UInt64

/-- What is read of a user that comes or leaves. -/
structure Visitor where
  sNick : Text
  ipHash : IpHash
  profile : Int
  loginTime : Int

/-- The setting, the second of the hub and the time of the day. -/
structure Clock where
  minReconnTime : UInt64
  actualTick : UInt64
  accTime : Int

/-- `close` is the call in `User::Close`, `check` the one in `ValidateUserNick`. -/
inductive RecEvent where
  | close (profiles : ProfileManager) (clock : Clock) (u : Visitor)
  | check (clock : Clock) (u : Visitor)

namespace RecTime

/-- The difference of two times is converted to 64 bits without a sign. -/
def ofVisitor (clock : Clock) (u : Visitor) : RecTime :=
  ⟨u.sNick, hashNick u.sNick, u.ipHash,
    clock.actualTick - UInt64.ofInt (clock.accTime - u.loginTime)⟩

def expired (clock : Clock) (r : RecTime) : Bool :=
  r.disConnTick + clock.minReconnTime ≤ clock.actualTick

def isOf (u : Visitor) (r : RecTime) : Bool :=
  r.nickHash = hashNick u.sNick && r.ipHash = u.ipHash && iequals r.sNick u.sNick

/-- The seconds that the user is told to wait. -/
def left (clock : Clock) (r : RecTime) : UInt64 :=
  r.disConnTick + clock.minReconnTime - clock.actualTick

end RecTime

/-- Whoever may come with more connections from an address is not remembered. -/
def remembered (profiles : ProfileManager) (clock : Clock) (u : Visitor) : Bool :=
  !(profiles.isProfileAllowed u.profile .noUsrSameIp ||
    clock.minReconnTime.toNat ≤ clock.accTime - u.loginTime)

def add2RecTimes (profiles : ProfileManager) (clock : Clock) (u : Visitor)
    (recTimeList : List RecTime) : List RecTime :=
  if remembered profiles clock u then .ofVisitor clock u :: recTimeList else recTimeList

/-- The seconds to wait, if any, and what is left of the list. -/
def checkRecTime (clock : Clock) (u : Visitor) (recTimeList : List RecTime) :
    Option UInt64 × List RecTime :=
  let found := look (RecTime.expired clock) (RecTime.isOf u) recTimeList
  (found.1.map (RecTime.left clock), found.2)

def recStep (recTimeList : List RecTime) : RecEvent → List RecTime
  | .close profiles clock u => add2RecTimes profiles clock u recTimeList
  | .check clock u => (checkRecTime clock u recTimeList).2

/-- What an event is to the list. -/
def RecEvent.visit : RecEvent → Option (Visit RecTime)
  | .close profiles clock u =>
    if remembered profiles clock u then some (.put (.ofVisitor clock u)) else none
  | .check clock u => some (.ask (RecTime.expired clock) (RecTime.isOf u))

def RecEvent.clock : RecEvent → Clock
  | .close _ clock _ => clock
  | .check clock _ => clock

theorem recStep_eq (recTimeList : List RecTime) (e : RecEvent) :
    recStep recTimeList e = run visit recTimeList e.visit.toList := by
  cases e with
  | close profiles clock u =>
    simp only [recStep, add2RecTimes, RecEvent.visit]
    split <;> rfl
  | check clock u => rfl

theorem run_recStep (es : List RecEvent) (recTimeList : List RecTime) :
    run recStep recTimeList es = run visit recTimeList (es.filterMap RecEvent.visit) := by
  induction es generalizing recTimeList with
  | nil => rfl
  | cons e es ih =>
    rw [run_cons, recStep_eq, ih, ← run_append]
    cases h : e.visit <;> simp [h]

/-- The setting is not changed, and the seconds of the hub do not go back. -/
def Steady (clock : Clock) (es : List RecEvent) : Prop :=
  ∀ e ∈ es, e.clock.minReconnTime = clock.minReconnTime ∧
    e.clock.actualTick ≤ clock.actualTick

theorem remembered_iff {profiles : ProfileManager} {clock : Clock} {u : Visitor} :
    remembered profiles clock u = true ↔
      profiles.isProfileAllowed u.profile .noUsrSameIp = false ∧
        clock.accTime - u.loginTime < (clock.minReconnTime.toNat : Int) := by
  rw [remembered, Bool.not_eq_true', Bool.or_eq_false_iff, decide_eq_false_iff_not, Int.not_le]

namespace RecTime

theorem expired_iff {clock : Clock} {r : RecTime} :
    r.expired clock = true ↔ r.disConnTick + clock.minReconnTime ≤ clock.actualTick :=
  decide_eq_true_iff

theorem not_expired_iff {clock : Clock} {r : RecTime} :
    r.expired clock = false ↔ clock.actualTick < r.disConnTick + clock.minReconnTime := by
  rw [← Bool.not_eq_true, expired_iff, UInt64.not_le]

theorem isOf_iff {u : Visitor} {r : RecTime} :
    r.isOf u = true ↔ (r.nickHash = hashNick u.sNick ∧ r.ipHash = u.ipHash) ∧
      iequals r.sNick u.sNick = true := by
  rw [isOf, Bool.and_eq_true, Bool.and_eq_true, decide_eq_true_iff, decide_eq_true_iff]

end RecTime

end FlyHub.Session
