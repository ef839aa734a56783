import FlyHub.Lib.Loop
import Mathlib.Algebra.BigOperators.Group.List.Basic
import Mathlib.Algebra.GroupWithZero.Nat
import Mathlib.Data.List.Induction
import Mathlib.Data.List.Nodup
import Mathlib.Data.Prod.Lex

/-!
# Script timers

A script makes a timer with the interval it likes. The hub goes along the list of timers in each
round and calls the function of a timer once for each interval that has gone by. A function that
is called can make and remove timers, and then the hub goes no further in this round.
-/

namespace FlyHub.Scripts

open FlyHub.Lib

/-- `timer` says which one it is, `pLua` whose. -/
structure ScriptTimer where
  timer : Nat
  pLua : Nat
  interval : UInt64
  lastTick : UInt64

/-- What a script can do to the list. `AddTimer` reads its interval with `lua_tointeger`, and
`ScriptStop` removes the timers of a script. -/
inductive TimerOp where
  | addTimer (pLua : Nat) (interval : Int64) (tick : UInt64)
  | removeTimer (timer : Nat)
  | scriptStop (pLua : Nat)

/-- What is seen of a timer. One whose function is missing fires all the same. -/
inductive TimerSeen where
  | added (timer : Nat) (tick interval : UInt64)
  | fired (timer : Nat)
  deriving DecidableEq

def TimerSeen.timer : TimerSeen → Nat
  | added timer _ _ => timer
  | fired timer => timer

/-- The timers of `ScriptManager`, and all that has been seen of them. -/
structure TimerManager where
  timerList : List ScriptTimer
  timerListGen : Nat
  nextTimer : Nat
  seen : List TimerSeen

/-- What comes of calling a timer: its function is missing, or it is run with all that it does
to the timers. -/
inductive TimerCall where
  | missing
  | called (ops : List TimerOp)

namespace ScriptTimer

/-- The condition of the inner loop. -/
def isDue (ui64ActualMillis : UInt64) (t : ScriptTimer) : Bool :=
  t.lastTick < ui64ActualMillis && t.interval ≤ ui64ActualMillis - t.lastTick

end ScriptTimer

namespace TimerManager

def empty : TimerManager := ⟨[], 0, 0, []⟩

def exec (m : TimerManager) : TimerOp → TimerManager
  | .addTimer pLua interval tick =>
    { timerList := m.timerList ++ [⟨m.nextTimer, pLua, interval.toUInt64, tick⟩]
      timerListGen := m.timerListGen + 1
      nextTimer := m.nextTimer + 1
      seen := m.seen ++ [.added m.nextTimer tick interval.toUInt64] }
  | .removeTimer timer =>
    if m.timerList.any fun t => t.timer = timer then
      { m with
        timerList := m.timerList.eraseP fun t => t.timer = timer
        timerListGen := m.timerListGen + 1 }
    else m
  | .scriptStop pLua =>
    { m with
      timerList := m.timerList.filter fun t => t.pLua ≠ pLua
      timerListGen := m.timerListGen + (m.timerList.countP fun t => t.pLua = pLua) }

def execAll (m : TimerManager) (ops : List TimerOp) : TimerManager := ops.foldl exec m

/-- The timer at `p` is moved on by its interval. -/
def fire (m : TimerManager) (p : Nat) (t : ScriptTimer) : TimerManager :=
  { m with
    timerList := m.timerList.set p { t with lastTick := t.lastTick + t.interval }
    seen := m.seen ++ [.fired t.timer] }

end TimerManager

/-- Where `ScriptOnTimer` stands: before the timer at `p`, after `k` calls. -/
structure TimerLoop where
  manager : TimerManager
  p : Nat
  k : Nat

section
variable (ui64ActualMillis : UInt64) (calls : Nat → TimerCall)

/-- One turn of the inner loop, or a step to the next timer. -/
def TimerLoop.turn (l : TimerLoop) : TimerLoop ⊕ TimerManager :=
  match l.manager.timerList[l.p]? with
  | none => .inr l.manager
  | some t =>
    if t.isDue ui64ActualMillis then
      let m := l.manager.fire l.p t
      match calls l.k with
      | .missing => .inl ⟨m, l.p, l.k + 1⟩
      | .called ops =>
        let m' := m.execAll ops
        if m'.timerListGen ≠ m.timerListGen then .inr m' else .inl ⟨m', l.p, l.k + 1⟩
    else .inl ⟨l.manager, l.p + 1, l.k⟩

/-- `ScriptOnTimer`. `calls` are the calls that it makes, in order. -/
def TimerManager.scriptOnTimer (fuel : Nat) (m : TimerManager) : Option TimerManager :=
  loopWith (TimerLoop.turn ui64ActualMillis calls) fuel ⟨m, 0, 0⟩

end

/-- A script changes the timers, or the hub comes to them. -/
inductive TimerEvent where
  | script (op : TimerOp)
  | onTimer (ui64ActualMillis : UInt64) (calls : Nat → TimerCall)

namespace TimerManager

/-- An event leads from a hub to another. -/
def Leads (m : TimerManager) : TimerEvent → TimerManager → Prop
  | .script op, m' => m' = m.exec op
  | .onTimer ui64ActualMillis calls, m' =>
    ∃ fuel, m.scriptOnTimer ui64ActualMillis calls fuel = some m'

/-- The events lead from a hub to another. They lead nowhere if a call goes on for ever. -/
def Reaches (m : TimerManager) : List TimerEvent → TimerManager → Prop
  | [], m' => m' = m
  | e :: es, m' => ∃ next, m.Leads e next ∧ next.Reaches es m'

def firings (m : TimerManager) (timer : Nat) : Nat := m.seen.count (.fired timer)

/-- All timers have fired as often as their intervals have gone by since they were made. -/
def OnTime (m : TimerManager) (ui64ActualMillis : UInt64) : Prop :=
  ∀ t ∈ m.timerList, ∀ tick interval, .added t.timer tick interval ∈ m.seen → 1 ≤ interval →
    m.firings t.timer = (ui64ActualMillis.toNat - tick.toNat) / interval.toNat

/-- A call changes the list. -/
def Changes (m : TimerManager) : TimerCall → Prop
  | .missing => False
  | .called ops => (m.execAll ops).timerListGen ≠ m.timerListGen

/-- No timer without an interval is due, or a call will change the list. -/
def Calm (m : TimerManager) (ui64ActualMillis : UInt64) (calls : Nat → TimerCall) : Prop :=
  (∀ t ∈ m.timerList, t.interval = 0 → ui64ActualMillis ≤ t.lastTick) ∨ ∃ k, m.Changes (calls k)

end TimerManager

def TimerEvent.time? : TimerEvent → Option UInt64
  | onTimer ui64ActualMillis _ => some ui64ActualMillis
  | script _ => none

/-- The times of the calls don't go back. -/
def TimesOrdered (es : List TimerEvent) : Prop := (es.filterMap TimerEvent.time?).Pairwise (· ≤ ·)

/-- Each call ends, and after one that hasn't changed the list all timers are on time. -/
def TimersRun (es : List TimerEvent) : Prop :=
  ∀ pre ui64ActualMillis calls, pre ++ [.onTimer ui64ActualMillis calls] <+: es →
    (∃ m, TimerManager.empty.Reaches (pre ++ [.onTimer ui64ActualMillis calls]) m) ∧
    ∀ m m', TimerManager.empty.Reaches pre m → m.Leads (.onTimer ui64ActualMillis calls) m' →
      m'.timerListGen = m.timerListGen → m'.OnTime ui64ActualMillis

/-- What a turn can come to. -/
inductive TimerTurn (now : UInt64) (calls : Nat → TimerCall) (l : TimerLoop) :
    TimerLoop ⊕ TimerManager → Prop where
  | done (end_ : l.manager.timerList[l.p]? = none) : TimerTurn now calls l (.inr l.manager)
  | pass (t) (at_ : l.manager.timerList[l.p]? = some t) (idle : t.isDue now = false) :
      TimerTurn now calls l (.inl ⟨l.manager, l.p + 1, l.k⟩)
  | fire (t) (at_ : l.manager.timerList[l.p]? = some t) (due : t.isDue now = true)
      (quiet : ¬ l.manager.Changes (calls l.k)) :
      TimerTurn now calls l (.inl ⟨l.manager.fire l.p t, l.p, l.k + 1⟩)
  | change (t ops) (at_ : l.manager.timerList[l.p]? = some t) (due : t.isDue now = true)
      (called : calls l.k = .called ops) (changes : l.manager.Changes (calls l.k)) :
      TimerTurn now calls l (.inr ((l.manager.fire l.p t).execAll ops))

/-- What is known of the timers when no call has been made after `latest`. -/
structure TimerManager.Counted (m : TimerManager) (latest : Nat) : Prop where
  fresh : ∀ t ∈ m.timerList, t.timer < m.nextTimer
  nodup : (m.timerList.map ScriptTimer.timer).Nodup
  known : ∀ e ∈ m.seen, e.timer < m.nextTimer
  counted : ∀ t ∈ m.timerList, ∀ tick interval, .added t.timer tick interval ∈ m.seen →
    interval = t.interval ∧
      t.lastTick.toNat = tick.toNat + interval.toNat * m.firings t.timer ∧
      (m.firings t.timer ≠ 0 → t.lastTick.toNat ≤ latest)

section
variable {m m' : TimerManager} {t t' : ScriptTimer} {op : TimerOp} {ops : List TimerOp}
  {call : TimerCall} {now : UInt64} {calls : Nat → TimerCall} {p : Nat} {l : TimerLoop}

/-! ## One timer -/

namespace ScriptTimer

theorem isDue_iff : t.isDue now = true ↔
    t.lastTick.toNat < now.toNat ∧ t.lastTick.toNat + t.interval.toNat ≤ now.toNat := by
  unfold isDue
  rw [Bool.and_eq_true, decide_eq_true_eq, decide_eq_true_eq, UInt64.lt_iff_toNat_lt]
  refine and_congr_right fun before => ?_
  rw [UInt64.le_iff_toNat_le, UInt64.toNat_sub_of_le _ _ (UInt64.le_iff_toNat_le.mpr before.le)]
  omega

/-- A timer that is due is moved on without a carry. -/
theorem moved_toNat (due : t.isDue now = true) :
    (t.lastTick + t.interval).toNat = t.lastTick.toNat + t.interval.toNat := by
  have small := now.toNat_lt
  rw [UInt64.toNat_add, Nat.mod_eq_of_lt]
  exact Nat.lt_of_le_of_lt (isDue_iff.mp due).2 small

end ScriptTimer

/-! ## The list -/

namespace TimerManager

theorem exec_gen (m : TimerManager) (op : TimerOp) :
    m.timerListGen ≤ (m.exec op).timerListGen ∧
      ((m.exec op).timerListGen = m.timerListGen → m.exec op = m) := by
  cases op with
  | addTimer pLua interval tick =>
    simp only [exec]
    exact ⟨Nat.le_succ _, fun same => absurd same (Nat.succ_ne_self _)⟩
  | removeTimer timer =>
    simp only [exec]
    split
    · exact ⟨Nat.le_succ _, fun same => absurd same (Nat.succ_ne_self _)⟩
    · exact ⟨Nat.le_refl _, fun _ => rfl⟩
  | scriptStop pLua =>
    simp only [exec]
    refine ⟨Nat.le_add_right _ _, fun same => ?_⟩
    have none_ : (m.timerList.countP fun t => t.pLua = pLua) = 0 := by omega
    have kept : (m.timerList.filter fun t => t.pLua ≠ pLua) = m.timerList := by
      rw [List.filter_eq_self]
      intro t mem
      simpa using List.countP_eq_zero.mp none_ t mem
    rw [none_, kept]
    rfl

/-- A count that is the same tells that nothing has been done. -/
theorem execAll_gen (m : TimerManager) (ops : List TimerOp) :
    m.timerListGen ≤ (m.execAll ops).timerListGen ∧
      ((m.execAll ops).timerListGen = m.timerListGen → m.execAll ops = m) := by
  induction ops generalizing m with
  | nil => exact ⟨Nat.le_refl _, fun _ => rfl⟩
  | cons op ops ih =>
    obtain ⟨le, first⟩ := exec_gen m op
    obtain ⟨le', rest⟩ := ih (m.exec op)
    refine ⟨Nat.le_trans le le', fun same => ?_⟩
    change ((m.exec op).execAll ops).timerListGen = m.timerListGen at same
    have unchanged := first (Nat.le_antisymm (same ▸ le') le)
    have later := rest (same.trans (congrArg timerListGen unchanged).symm)
    exact later.trans unchanged

/-- The same timers but for their ticks. -/
structure Alike (m m' : TimerManager) : Prop where
  timers : m'.timerList.map (fun t => (t.timer, t.pLua)) =
    m.timerList.map fun t => (t.timer, t.pLua)
  gen : m'.timerListGen = m.timerListGen
  next : m'.nextTimer = m.nextTimer

theorem Alike.exec (alike : m.Alike m') (op : TimerOp) : (m.exec op).Alike (m'.exec op) := by
  obtain ⟨timers, gen, next⟩ := alike
  cases op with
  | addTimer pLua interval tick =>
    simp only [TimerManager.exec]
    exact ⟨by simp [timers, next], by rw [gen], by rw [next]⟩
  | removeTimer timer =>
    have any : (m'.timerList.any fun t => t.timer = timer) =
        m.timerList.any fun t => t.timer = timer := by
      have mapped := congrArg (List.any · fun q => q.1 = timer) timers
      simpa [List.any_map, Function.comp_def] using mapped
    simp only [TimerManager.exec, any]
    split
    · refine ⟨?_, by rw [gen], next⟩
      have mapped := congrArg (List.eraseP fun q => q.1 = timer) timers
      simpa [List.eraseP_map, Function.comp_def] using mapped
    · exact ⟨timers, gen, next⟩
  | scriptStop pLua =>
    have filtered := congrArg (List.filter fun q => q.2 ≠ pLua) timers
    have counted := congrArg (List.countP fun q => q.2 = pLua) timers
    simp only [TimerManager.exec]
    refine ⟨?_, ?_, next⟩
    · simpa [List.filter_map, Function.comp_def] using filtered
    · rw [gen]
      simpa [List.countP_map, Function.comp_def] using counted

theorem Alike.execAll (alike : m.Alike m') (ops : List TimerOp) :
    (m.execAll ops).Alike (m'.execAll ops) := by
  induction ops generalizing m m' with
  | nil => exact alike
  | cons op ops ih => exact ih (alike.exec op)

theorem Alike.changes (alike : m.Alike m') (call : TimerCall) :
    m'.Changes call ↔ m.Changes call := by
  cases call with
  | missing => exact Iff.rfl
  | called ops =>
    simp only [Changes]
    rw [(alike.execAll ops).gen, alike.gen]

theorem alike_fire (at_ : m.timerList[p]? = some t) : m.Alike (m.fire p t) := by
  obtain ⟨lt, rfl⟩ := List.getElem?_eq_some_iff.mp at_
  refine ⟨?_, rfl, rfl⟩
  simp only [fire, List.map_set]
  apply List.ext_getElem?
  intro i
  rw [List.getElem?_set]
  split
  · rename_i same
    subst same
    simp [lt]
  · rfl

end TimerManager

/-! ## One turn -/

theorem turn_spec (now : UInt64) (calls : Nat → TimerCall) (l : TimerLoop) :
    TimerTurn now calls l (l.turn now calls) := by
  unfold TimerLoop.turn
  cases at_ : l.manager.timerList[l.p]? with
  | none => exact .done at_
  | some t =>
    cases due : t.isDue now with
    | false =>
      simp only [due, Bool.false_eq_true, if_false]
      exact .pass t at_ due
    | true =>
      simp only [due, if_true]
      have alike := TimerManager.alike_fire at_
      cases call : calls l.k with
      | missing => exact .fire t at_ due (by rw [call]; exact id)
      | called ops =>
        dsimp only
        have changes := alike.changes (.called ops)
        split
        · rename_i other
          exact .change t ops at_ due call (by rw [call]; exact changes.mp other)
        · rename_i same
          rw [not_not] at same
          have quiet : ¬ l.manager.Changes (calls l.k) := by
            rw [call]
            exact mt changes.mpr (not_not.mpr same)
          rw [(TimerManager.execAll_gen _ ops).2 same]
          exact .fire t at_ due quiet

/-! ## The calls that end -/

theorem drop_of_getElem? {α : Type*} {xs : List α} {x : α} (at_ : xs[p]? = some x) :
    xs.drop p = x :: xs.drop (p + 1) := by
  obtain ⟨lt, rfl⟩ := List.getElem?_eq_some_iff.mp at_
  exact List.drop_eq_getElem_cons lt

theorem drop_set {α : Type*} {xs : List α} {x : α} (y : α) (at_ : xs[p]? = some x) :
    (xs.set p y).drop p = y :: xs.drop (p + 1) := by
  obtain ⟨lt, rfl⟩ := List.getElem?_eq_some_iff.mp at_
  have new : (xs.set p y)[p]? = some y := by simp [lt]
  rw [drop_of_getElem? new, List.drop_set_of_lt (Nat.lt_succ_self p)]

/-- How far the timers that are to come are behind, and how many they are. -/
def TimerLoop.left (now : UInt64) (l : TimerLoop) : Nat :=
  ((l.manager.timerList.drop l.p).map fun t => now.toNat - t.lastTick.toNat + 1).sum

/-- A call ends that comes to no timer without an interval. -/
theorem ends_of_intervals (calm : ∀ t ∈ m.timerList, t.interval = 0 → now ≤ t.lastTick) :
    LoopEnds (TimerLoop.turn now calls) ⟨m, 0, 0⟩ := by
  refine ends_of_measure (TimerLoop.left now)
    (fun l => ∀ t ∈ l.manager.timerList, t.interval = 0 → now ≤ t.lastTick) ?_ calm
  intro l l' calm next
  have turn := turn_spec now calls l
  rw [next] at turn
  cases turn with
  | pass t at_ idle =>
    refine ⟨calm, ?_⟩
    unfold TimerLoop.left
    dsimp only
    rw [drop_of_getElem? at_, List.map_cons, List.sum_cons]
    omega
  | fire t at_ due quiet =>
    have moved := ScriptTimer.moved_toNat due
    obtain ⟨before, fits⟩ := ScriptTimer.isDue_iff.mp due
    have positive : t.interval.toNat ≠ 0 := by
      intro zero
      have late := calm t (List.mem_of_getElem? at_) (UInt64.toNat_inj.mp zero)
      rw [UInt64.le_iff_toNat_le] at late
      omega
    constructor
    · intro t' mem zero
      rcases List.mem_or_eq_of_mem_set mem with old | rfl
      · exact calm t' old zero
      · exact absurd (congrArg UInt64.toNat zero) positive
    · unfold TimerLoop.left
      simp only [TimerManager.fire]
      rw [drop_of_getElem? at_, drop_set _ at_, List.map_cons, List.map_cons, List.sum_cons,
        List.sum_cons, moved]
      omega

/-- A call ends whose calls change the list some time. -/
theorem ends_of_changes {k : Nat} (changes : m.Changes (calls k)) :
    LoopEnds (TimerLoop.turn now calls) ⟨m, 0, 0⟩ := by
  refine ends_of_measure
    (fun l => toLex (k - l.k, l.manager.timerList.length - l.p))
    (fun l => l.k ≤ k ∧ l.manager.Changes (calls k)) ?_ ⟨Nat.zero_le k, changes⟩
  rintro l l' ⟨early, changes⟩ next
  have turn := turn_spec now calls l
  rw [next] at turn
  cases turn with
  | pass t at_ idle =>
    obtain ⟨lt, -⟩ := List.getElem?_eq_some_iff.mp at_
    refine ⟨⟨early, changes⟩, Prod.Lex.toLex_lt_toLex.mpr (.inr ⟨rfl, ?_⟩)⟩
    show l.manager.timerList.length - (l.p + 1) < l.manager.timerList.length - l.p
    omega
  | fire t at_ due quiet =>
    have other : l.k ≠ k := by
      rintro same
      exact quiet (same ▸ changes)
    refine ⟨⟨by show l.k + 1 ≤ k; omega, ?_⟩, Prod.Lex.toLex_lt_toLex.mpr (.inl ?_)⟩
    · exact ((TimerManager.alike_fire at_).changes _).mpr changes
    · show k - (l.k + 1) < k - l.k
      omega

/-- A call goes on for ever that comes to a timer without an interval, if nothing changes. -/
theorem not_ends_of_zero (quiet : ∀ k, ¬ m.Changes (calls k)) (mem : t ∈ m.timerList)
    (zero : t.interval = 0) (late : t.lastTick < now) :
    ¬ LoopEnds (TimerLoop.turn now calls) ⟨m, 0, 0⟩ := by
  have due : t.isDue now = true := by
    rw [ScriptTimer.isDue_iff, zero]
    rw [UInt64.lt_iff_toNat_lt] at late
    exact ⟨late, late.le⟩
  have same : ({ t with lastTick := t.lastTick + t.interval } : ScriptTimer) = t := by
    cases t
    simp only at zero
    rw [zero, UInt64.add_zero]
  obtain ⟨q, at_⟩ := List.mem_iff_getElem?.mp mem
  refine not_ends (fun l => l.p ≤ q ∧ l.manager.timerList[q]? = some t ∧
    ∀ k, ¬ l.manager.Changes (calls k)) ?_ ⟨Nat.zero_le q, at_, quiet⟩
  rintro l ⟨before, at_, quiet⟩
  have turn := turn_spec now calls l
  generalize l.turn now calls = r at turn
  cases turn with
  | done end_ =>
    obtain ⟨lt, -⟩ := List.getElem?_eq_some_iff.mp at_
    rw [List.getElem?_eq_none_iff] at end_
    omega
  | pass t' at' idle =>
    have other : l.p ≠ q := by
      rintro rfl
      rw [at_] at at'
      cases at'
      rw [due] at idle
      cases idle
    exact ⟨_, rfl, by show l.p + 1 ≤ q; omega, at_, quiet⟩
  | fire t' at' due' quiet' =>
    refine ⟨_, rfl, before, ?_, fun k =>
      mt ((TimerManager.alike_fire at').changes _).mp (quiet k)⟩
    show (l.manager.timerList.set l.p _)[q]? = some t
    by_cases here : l.p = q
    · subst here
      rw [at_] at at'
      cases at'
      obtain ⟨lt, -⟩ := List.getElem?_eq_some_iff.mp at_
      rw [List.getElem?_set_self lt, same]
    · rw [List.getElem?_set_ne here]
      exact at_
  | change t' ops at' due' called changes => exact absurd changes (quiet _)

theorem ends_iff : LoopEnds (TimerLoop.turn now calls) ⟨m, 0, 0⟩ ↔ m.Calm now calls := by
  constructor
  · intro ends
    by_contra loud
    unfold TimerManager.Calm at loud
    push Not at loud
    obtain ⟨⟨t, mem, zero, late⟩, quiet⟩ := loud
    exact not_ends_of_zero quiet mem zero (UInt64.not_le.mp late) ends
  · rintro (intervals | ⟨k, changes⟩)
    · exact ends_of_intervals intervals
    · exact ends_of_changes changes

/-! ## The counts -/

namespace TimerManager

theorem Counted.later {latest latest' : Nat} (counted : m.Counted latest)
    (le : latest ≤ latest') : m.Counted latest' where
  fresh := counted.fresh
  nodup := counted.nodup
  known := counted.known
  counted := fun t mem tick interval added =>
    have ⟨same, ticks, before⟩ := counted.counted t mem tick interval added
    ⟨same, ticks, fun fired => Nat.le_trans (before fired) le⟩

/-- Some of the timers are removed. -/
theorem Counted.sublist {latest gen : Nat} {timers : List ScriptTimer} (counted : m.Counted latest)
    (sub : timers.Sublist m.timerList) :
    Counted { m with timerList := timers, timerListGen := gen } latest where
  fresh := fun t mem => counted.fresh t (sub.subset mem)
  nodup := counted.nodup.sublist (sub.map _)
  known := counted.known
  counted := fun t mem => counted.counted t (sub.subset mem)

theorem Counted.exec {latest : Nat} (counted : m.Counted latest) (op : TimerOp) :
    (m.exec op).Counted latest := by
  cases op with
  | removeTimer timer =>
    simp only [TimerManager.exec]
    split
    · exact counted.sublist (List.eraseP_sublist)
    · exact counted
  | scriptStop pLua =>
    simp only [TimerManager.exec]
    exact counted.sublist List.filter_sublist
  | addTimer pLua interval tick =>
    have same (timer : Nat) : (m.exec (.addTimer pLua interval tick)).firings timer =
        m.firings timer := by
      simp [firings, TimerManager.exec, List.count_append]
    refine ⟨?_, ?_, ?_, ?_⟩
    · intro t mem
      rcases List.mem_append.mp mem with old | new
      · exact Nat.lt_succ_of_lt (counted.fresh t old)
      · rw [List.mem_singleton.mp new]
        exact Nat.lt_succ_self m.nextTimer
    · simp only [TimerManager.exec, List.map_append, List.map_cons, List.map_nil]
      rw [List.nodup_append]
      refine ⟨counted.nodup, List.nodup_singleton _, ?_⟩
      intro a old b new eq
      obtain ⟨t, mem, rfl⟩ := List.mem_map.mp old
      rw [List.mem_singleton.mp new] at eq
      exact absurd eq (Nat.ne_of_lt (counted.fresh t mem))
    · intro e mem
      rcases List.mem_append.mp mem with old | new
      · exact Nat.lt_succ_of_lt (counted.known e old)
      · rw [List.mem_singleton.mp new]
        exact Nat.lt_succ_self m.nextTimer
    · intro t mem tick' interval' added
      rw [same]
      rcases List.mem_append.mp mem with old | new
      · rcases List.mem_append.mp added with before | now_
        · exact counted.counted t old tick' interval' before
        · have eq := List.mem_singleton.mp now_
          injection eq with timer
          exact absurd timer (Nat.ne_of_lt (counted.fresh t old))
      · rw [List.mem_singleton.mp new] at added ⊢
        have none_ : m.firings m.nextTimer = 0 := by
          rw [firings, List.count_eq_zero]
          exact fun seen => Nat.lt_irrefl _ (counted.known _ seen)
        rcases List.mem_append.mp added with before | now_
        · exact absurd (counted.known _ before) (Nat.lt_irrefl _)
        · have eq := List.mem_singleton.mp now_
          injection eq with _ ticks intervals
          rw [none_, ticks, intervals]
          exact ⟨rfl, rfl, fun fired => absurd rfl fired⟩

theorem Counted.execAll {latest : Nat} (counted : m.Counted latest) (ops : List TimerOp) :
    (m.execAll ops).Counted latest := by
  induction ops generalizing m with
  | nil => exact counted
  | cons op ops ih => exact ih (counted.exec op)

theorem firings_fire (timer : Nat) :
    (m.fire p t).firings timer = m.firings timer + if t.timer = timer then 1 else 0 := by
  simp only [firings, fire, List.count_append, List.count_singleton]
  congr 1
  simp

theorem Counted.fire {latest : Nat} (counted : m.Counted latest)
    (at_ : m.timerList[p]? = some t) (due : t.isDue now = true) (le : latest ≤ now.toNat) :
    (m.fire p t).Counted now.toNat := by
  have mem := List.mem_of_getElem? at_
  refine ⟨?_, ?_, ?_, ?_⟩
  · intro t' mem'
    rcases List.mem_or_eq_of_mem_set mem' with old | rfl
    · exact counted.fresh t' old
    · exact counted.fresh t mem
  · have timers := congrArg (List.map Prod.fst) (alike_fire at_).timers
    rw [List.map_map, List.map_map] at timers
    exact timers ▸ counted.nodup
  · intro e mem'
    rcases List.mem_append.mp mem' with old | new
    · exact counted.known e old
    · rw [List.mem_singleton.mp new]
      exact counted.fresh t mem
  · intro t' mem' tick interval added
    have before : .added t'.timer tick interval ∈ m.seen := by
      rcases List.mem_append.mp added with old | new
      · exact old
      · cases List.mem_singleton.mp new
    rw [firings_fire]
    obtain ⟨q, at'⟩ := List.mem_iff_getElem?.mp mem'
    by_cases here : p = q
    · subst here
      obtain ⟨lt, -⟩ := List.getElem?_eq_some_iff.mp at_
      have moved := at'
      simp only [TimerManager.fire, List.getElem?_set_self lt, Option.some.injEq] at moved
      subst moved
      obtain ⟨same, ticks, -⟩ := counted.counted t mem tick interval before
      rw [if_pos rfl]
      dsimp only
      rw [ScriptTimer.moved_toNat due, ticks, ← same]
      refine ⟨rfl, by rw [Nat.mul_succ, Nat.add_assoc], fun _ => ?_⟩
      have fits := (ScriptTimer.isDue_iff.mp due).2
      rw [ticks, ← same] at fits
      exact fits
    · simp only [TimerManager.fire, List.getElem?_set_ne here] at at'
      have differs : t.timer ≠ t'.timer := by
        intro eq
        obtain ⟨lt, -⟩ := List.getElem?_eq_some_iff.mp at_
        have inside : p < (m.timerList.map ScriptTimer.timer).length := by simpa using lt
        apply here
        apply (List.getElem?_inj inside counted.nodup).mp
        rw [List.getElem?_map, List.getElem?_map, at_, at', Option.map_some, Option.map_some, eq]
      rw [if_neg differs, Nat.add_zero]
      exact (counted.later le).counted t' (List.mem_of_getElem? at') tick interval before

/-- The ticks that lie behind are the intervals that have gone by. -/
theorem firings_eq_div {now tick interval n : Nat} (positive : 1 ≤ interval)
    (waits : ¬ (tick + interval * n < now ∧ tick + interval * n + interval ≤ now))
    (before : n ≠ 0 → tick + interval * n ≤ now) : n = (now - tick) / interval := by
  symm
  by_cases fired : n = 0
  · subst fired
    rw [Nat.mul_zero, Nat.add_zero] at waits
    apply Nat.div_eq_of_lt
    omega
  · have le := before fired
    apply Nat.div_eq_of_lt_le
    · rw [Nat.mul_comm]
      omega
    · rw [Nat.add_mul, Nat.one_mul, Nat.mul_comm]
      omega

/-- Timers that are not due are on time. -/
theorem Counted.onTime (counted : m.Counted now.toNat)
    (idle : ∀ t ∈ m.timerList, t.isDue now = false) : m.OnTime now := by
  intro t mem tick interval added positive
  obtain ⟨same, ticks, before⟩ := counted.counted t mem tick interval added
  have waits := idle t mem
  rw [← Bool.not_eq_true, ScriptTimer.isDue_iff, ← same, ticks] at waits
  rw [UInt64.le_iff_toNat_le] at positive
  rw [ticks] at before
  exact firings_eq_div positive waits before

/-- After a call that has changed nothing no timer is due. -/
theorem Counted.scriptOnTimer {latest fuel : Nat} (counted : m.Counted latest)
    (le : latest ≤ now.toNat) (returns : m.scriptOnTimer now calls fuel = some m') :
    m'.Counted now.toNat ∧ (m'.timerListGen = m.timerListGen → m'.OnTime now) := by
  have result := loop_invariant
    (fun l : TimerLoop => l.manager.Counted now.toNat ∧ l.manager.timerListGen = m.timerListGen ∧
      ∀ q < l.p, ∀ t, l.manager.timerList[q]? = some t → t.isDue now = false)
    (fun m' : TimerManager => m'.Counted now.toNat ∧
      (m'.timerListGen = m.timerListGen → ∀ t ∈ m'.timerList, t.isDue now = false))
    ?_ ?_ ⟨counted.later le, rfl, fun q before => absurd before (Nat.not_lt_zero q)⟩ returns
  · exact ⟨result.1, fun same => result.1.onTime (result.2 same)⟩
  · rintro l l' ⟨counted, gen, idle⟩ next
    have turn := turn_spec now calls l
    rw [next] at turn
    cases turn with
    | pass t at_ waits =>
      refine ⟨counted, gen, fun q before t' at' => ?_⟩
      rcases Nat.lt_succ_iff_lt_or_eq.mp before with earlier | rfl
      · exact idle q earlier t' at'
      · change l.manager.timerList[l.p]? = some t' at at'
        rw [at_] at at'
        cases at'
        exact waits
    | fire t at_ due quiet =>
      refine ⟨counted.fire at_ due (Nat.le_refl _), gen, fun q before t' at' => ?_⟩
      apply idle q before
      simp only [TimerManager.fire, List.getElem?_set_ne (Nat.ne_of_gt before)] at at'
      exact at'
  · rintro l r ⟨counted, gen, idle⟩ result
    have turn := turn_spec now calls l
    rw [result] at turn
    cases turn with
    | done end_ =>
      refine ⟨counted, fun _ t mem => ?_⟩
      obtain ⟨q, at_⟩ := List.mem_iff_getElem?.mp mem
      obtain ⟨lt, -⟩ := List.getElem?_eq_some_iff.mp at_
      exact idle q (Nat.lt_of_lt_of_le lt (List.getElem?_eq_none_iff.mp end_)) t at_
    | change t ops at_ due called changes =>
      refine ⟨(counted.fire at_ due (Nat.le_refl _)).execAll ops, fun same => ?_⟩
      rw [called] at changes
      have other := ((alike_fire at_).changes (.called ops)).mpr changes
      exact absurd (same.trans gen.symm) other

/-! ## Runs -/

theorem reaches_append {es fs : List TimerEvent} :
    m.Reaches (es ++ fs) m' ↔ ∃ next, m.Reaches es next ∧ next.Reaches fs m' := by
  induction es generalizing m with
  | nil => simp [Reaches]
  | cons e es ih =>
    simp only [List.cons_append, Reaches, ih]
    constructor
    · rintro ⟨first, leads, next, reaches, rest⟩
      exact ⟨next, ⟨first, leads, reaches⟩, rest⟩
    · rintro ⟨next, ⟨first, leads, reaches⟩, rest⟩
      exact ⟨first, leads, next, reaches, rest⟩

theorem reaches_concat {es : List TimerEvent} {e : TimerEvent} :
    m.Reaches (es ++ [e]) m' ↔ ∃ next, m.Reaches es next ∧ next.Leads e m' := by
  rw [reaches_append]
  refine exists_congr fun next => and_congr_right fun _ => ?_
  simp [Reaches]

theorem leads_unique {e : TimerEvent} {m'' : TimerManager} (leads : m.Leads e m')
    (leads' : m.Leads e m'') : m' = m'' := by
  cases e with
  | script op => exact Eq.trans leads leads'.symm
  | onTimer now calls =>
    obtain ⟨fuel, ended⟩ := leads
    obtain ⟨fuel', ended'⟩ := leads'
    exact loop_unique ended ended'

theorem reaches_unique {es : List TimerEvent} {m'' : TimerManager} (reaches : m.Reaches es m')
    (reaches' : m.Reaches es m'') : m' = m'' := by
  induction es generalizing m with
  | nil => exact Eq.trans reaches reaches'.symm
  | cons e es ih =>
    obtain ⟨next, leads, rest⟩ := reaches
    obtain ⟨next', leads', rest'⟩ := reaches'
    cases leads_unique leads leads'
    exact ih rest rest'

theorem leads_iff_calm : (∃ m', m.Leads (.onTimer now calls) m') ↔ m.Calm now calls := by
  rw [← ends_iff]
  exact exists_comm

theorem empty_counted : empty.Counted 0 :=
  ⟨fun _ => nofun, List.nodup_nil, fun _ => nofun, fun _ => nofun⟩

/-- The run lemma. -/
theorem reaches_counted {es : List TimerEvent} (ordered : TimesOrdered es)
    (reaches : empty.Reaches es m) (latest : ∀ time ∈ es.filterMap TimerEvent.time?, time ≤ now) :
    m.Counted now.toNat := by
  induction es using List.reverseRecOn generalizing m now with
  | nil =>
    cases reaches
    exact empty_counted.later (Nat.zero_le _)
  | append_singleton es e ih =>
    obtain ⟨before, start, leads⟩ := reaches_concat.mp reaches
    unfold TimesOrdered at ordered
    rw [List.filterMap_append] at ordered latest
    cases e with
    | script op =>
      obtain rfl : m = before.exec op := leads
      have counted := ih (List.pairwise_append.mp ordered).1 start fun time mem =>
        latest time (List.mem_append_left _ mem)
      exact counted.exec op
    | onTimer time calls =>
      obtain ⟨fuel, returns⟩ := leads
      obtain ⟨earlier, -, between⟩ := List.pairwise_append.mp ordered
      have counted := ih earlier start fun time' mem =>
        between time' mem time (List.mem_singleton.mpr rfl)
      have le : time ≤ now := latest time (List.mem_append_right _ (List.mem_singleton.mpr rfl))
      exact (counted.scriptOnTimer (Nat.le_refl _) returns).1.later (UInt64.le_iff_toNat_le.mp le)

/-- If every call is calm, every start of a run leads somewhere. -/
theorem exists_reaches {es : List TimerEvent}
    (calm : ∀ pre now calls, pre ++ [.onTimer now calls] <+: es → ∀ m, empty.Reaches pre m →
      m.Calm now calls) : ∃ m, empty.Reaches es m := by
  induction es using List.reverseRecOn with
  | nil => exact ⟨empty, rfl⟩
  | append_singleton es e ih =>
    obtain ⟨m, reaches⟩ := ih fun pre now calls starts =>
      calm pre now calls (starts.trans (List.prefix_append es [e]))
    cases e with
    | script op => exact ⟨m.exec op, reaches_concat.mpr ⟨m, reaches, rfl⟩⟩
    | onTimer now calls =>
      obtain ⟨m', leads⟩ := leads_iff_calm.mpr (calm es now calls List.prefix_rfl m reaches)
      exact ⟨m', reaches_concat.mpr ⟨m, reaches, leads⟩⟩

end TimerManager

/-- The timers run as they should exactly if no call comes while a timer without an interval is
due, unless the call changes the timers. -/
theorem timersRun_iff {es : List TimerEvent} (ordered : TimesOrdered es) :
    TimersRun es ↔ ∀ pre now calls, pre ++ [.onTimer now calls] <+: es →
      ∀ m, TimerManager.empty.Reaches pre m → m.Calm now calls := by
  constructor
  · intro runs pre now calls starts m reaches
    obtain ⟨⟨m', all⟩, -⟩ := runs pre now calls starts
    obtain ⟨next, reaches', leads⟩ := TimerManager.reaches_concat.mp all
    cases TimerManager.reaches_unique reaches reaches'
    exact TimerManager.leads_iff_calm.mp ⟨m', leads⟩
  · intro calm pre now calls starts
    constructor
    · exact TimerManager.exists_reaches fun pre' now' calls' starts' =>
        calm pre' now' calls' (starts'.trans starts)
    · rintro m m' reaches ⟨fuel, returns⟩ same
      have some_ := (starts.filterMap TimerEvent.time?).sublist
      have sorted : (List.filterMap TimerEvent.time? pre ++ [now]).Pairwise (· ≤ ·) := by
        rw [List.filterMap_append] at some_
        exact ordered.sublist some_
      obtain ⟨earlier, -, between⟩ := List.pairwise_append.mp sorted
      have counted := TimerManager.reaches_counted earlier reaches fun time mem =>
        between time mem now (List.mem_singleton.mpr rfl)
      exact (counted.scriptOnTimer (Nat.le_refl _) returns).2 same

end

/-- A timer is made, and the hub comes to it once. -/
def once (interval : Int64) (ui64ActualMillis : UInt64) : List TimerEvent :=
  [.script (.addTimer 0 interval 0), .onTimer ui64ActualMillis fun _ => .called []]

theorem once_starts {interval : Int64} {time now : UInt64} {calls : Nat → TimerCall}
    {pre : List TimerEvent} (starts : pre ++ [.onTimer now calls] <+: once interval time) :
    pre = [.script (.addTimer 0 interval 0)] := by
  obtain ⟨rest, eq⟩ := starts
  match pre with
  | [] => cases eq
  | [e] =>
    cases eq
    rfl
  | e :: f :: pre =>
    have short := congrArg List.length eq
    simp [once] at short

theorem once_hundred : TimersRun (once 100 250) := by
  have ordered : TimesOrdered (once 100 250) := List.pairwise_singleton _ _
  apply (timersRun_iff ordered).mpr
  intro pre now calls starts m reaches
  obtain rfl := once_starts starts
  obtain ⟨m', rfl, rfl⟩ := reaches
  refine .inl fun t mem zero => ?_
  rw [List.mem_singleton.mp mem] at zero
  exact absurd zero (by decide)

/-- A script makes a timer without an interval, and the hub doesn't come back from it. -/
theorem once_zero : ¬ TimersRun (once 0 1) := by
  intro runs
  obtain ⟨⟨m, reaches⟩, -⟩ := runs [.script (.addTimer 0 0 0)] 1 _ List.prefix_rfl
  obtain ⟨next, rfl, m', ⟨fuel, ended⟩, -⟩ := reaches
  refine not_ends_of_zero (fun k changes => ?_) (List.mem_singleton.mpr rfl) (by decide)
    (by decide) ⟨fuel, m', ended⟩
  exact changes rfl

end FlyHub.Scripts
