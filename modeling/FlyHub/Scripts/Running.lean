import FlyHub.Lib.Listing
import FlyHub.Scripts.Calls

/-!
# The running list

The running list is kept when a script is started or stopped, and built anew from the table when
one is moved. While a script is loaded or exits it has a Lua state but is not in the list. A move
at that time puts it there, and what comes after finds it where it should not be. `Start` does not
look whether a script runs already.
-/

namespace FlyHub.Scripts

open FlyHub.Lib

namespace Frame

/-- The script that is loaded or exits. -/
def transit? : Frame → Option Nat
  | lua s _ (.load _) | lua s _ (.exit _) => some s
  | _ => none

/-- The script that is stopped for good. -/
def leaving? : Frame → Option Nat
  | lua s _ (.exit .done) => some s
  | _ => none

theorem transit_of_leaving {f : Frame} {s : Nat} (leaves : f.leaving? = some s) :
    f.transit? = some s := by
  unfold leaving? at leaves
  split at leaves
  · exact leaves
  · cases leaves

end Frame

namespace ScriptManager

section
variable (m : ScriptManager)

/-- The scripts that are loaded or exit. -/
def transit : List Nat := m.stack.filterMap Frame.transit?

def leaving : List Nat := m.stack.filterMap Frame.leaving?

/-- The script that the loop of `Start` starts next. -/
def starts : Option Nat :=
  match m.stack with
  | .starting i n :: _ => if i = n then none else (m.scriptTable[i]?).filter m.enabled
  | _ => none

/-- No script moves one while a script is loaded or exits, and `Start` comes to no script that
runs. -/
def Settled : Event → Prop
  | .act (.move sName bUp) => m.Moves sName bUp → m.transit = []
  | .go => ∀ s ∈ m.starts, m.pLua s = none
  | _ => True

instance : ∀ e, Decidable (m.Settled e)
  | .act a => match a with
    | .move .. => inferInstanceAs (Decidable (_ → _))
    | .define .. | .startScript _ | .stopScript _ | .restartScript _ | .restart | .refresh
    | .dispatch _ => inferInstanceAs (Decidable True)
  | .go => inferInstanceAs (Decidable (∀ s ∈ m.starts, _))
  | .files _ | .ret _ | .op _ => inferInstanceAs (Decidable True)

/-- The running list has the scripts with a Lua state, in the order of the table. -/
def Listed : Prop :=
  m.runningScriptList = m.scriptTable.filter m.isLive ∧ m.runningScriptList.Nodup

/-- Scripts in the running list: those with a Lua state that are not loaded, do not exit and are
not exempt. -/
def running (exempt : List Nat) (s : Nat) : Bool :=
  m.isLive s && s ∉ m.transit && s ∉ exempt

end

/-- What settled steps keep. A step that starts or stops a script exempts it for a while. -/
structure Ordered (m : ScriptManager) (exempt : List Nat) : Prop where
  listed : m.runningScriptList = m.scriptTable.filter (m.running exempt)
  size : m.scriptTable.length ≤ 254
  enabled : ∀ s, m.isLive s = true → m.enabled s = true ∨ s ∈ m.leaving ∨ s ∈ exempt
  whole : m.overwritten = false

section
variable {m m' : ScriptManager} {s t L i : Nat} {r : Rest} {f : Frame} {l : Loop}
  {below : List Frame} {h : Handler} {sName : Text} {b : Bool} {exempt : List Nat}

theorem transit_sub : ∀ t ∈ m.transit, t ∈ m.callers := by
  intro t mem
  obtain ⟨f, hf, eq⟩ := List.mem_filterMap.1 mem
  refine List.mem_filterMap.2 ⟨f, hf, ?_⟩
  unfold Frame.transit? at eq
  split at eq
  · exact eq
  · exact eq
  · cases eq

theorem leaving_sub : ∀ t ∈ m.leaving, t ∈ m.transit := by
  intro t mem
  obtain ⟨f, hf, leaves⟩ := List.mem_filterMap.1 mem
  exact List.mem_filterMap.2 ⟨f, hf, Frame.transit_of_leaving leaves⟩

theorem transit_idle (idle : m.callers = []) : m.transit = [] :=
  List.eq_nil_iff_forall_not_mem.2 fun t mem => by
    have mem := transit_sub t mem
    rw [idle] at mem
    cases mem

theorem scriptError_enabled {a : Answer} : (m.scriptError s a).enabled = m.enabled := by
  unfold scriptError
  split
  · rfl
  · rfl

theorem prepareMove_stack : (m.prepareMove L).stack = m.stack := by
  unfold prepareMove
  split
  · rfl
  · rfl

namespace Ordered

/-- The fields that matter. -/
theorem congr (ordered : m.Ordered exempt) (running : m'.runningScriptList = m.runningScriptList)
    (pLua : m'.pLua = m.pLua) (table : m'.scriptTable = m.scriptTable)
    (enabled : m'.enabled = m.enabled) (overwritten : m'.overwritten = m.overwritten)
    (transit : m'.transit = m.transit) (leaving : m'.leaving = m.leaving) :
    m'.Ordered exempt := by
  have same : m'.running exempt = m.running exempt := by
    unfold ScriptManager.running isLive
    rw [pLua, transit]
  constructor
  · rw [running, table, same]
    exact ordered.listed
  · exact table ▸ ordered.size
  · unfold isLive
    rw [pLua, enabled, leaving]
    exact ordered.enabled
  · exact overwritten.trans ordered.whole

/-- A frame that is not about a script that is loaded or exits. -/
theorem stack (ordered : m.Ordered exempt) {stack : List Frame}
    (transit : stack.filterMap Frame.transit? = m.transit)
    (leaving : stack.filterMap Frame.leaving? = m.leaving) :
    ({ m with stack }).Ordered exempt :=
  ordered.congr rfl rfl rfl rfl rfl transit leaving

theorem pop (ordered : m.Ordered exempt) (top : m.stack = f :: below) (plain : f.transit? = none)
    (plain' : f.leaving? = none) : ({ m with stack := below }).Ordered exempt := by
  apply ordered.stack
  · rw [transit, top, List.filterMap_cons_none plain]
  · rw [leaving, top, List.filterMap_cons_none plain']

theorem push (ordered : m.Ordered exempt) (plain : f.transit? = none)
    (plain' : f.leaving? = none) : (m.push f).Ordered exempt := by
  apply ordered.stack
  · rw [List.filterMap_cons_none plain, transit]
  · rw [List.filterMap_cons_none plain', leaving]

/-- The call that loads a script or lets it exit returns. -/
theorem pop_transit (ordered : m.Ordered []) (top : m.stack = f :: below)
    (through : f.transit? = some s) : ({ m with stack := below }).Ordered [s] := by
  have others : ∀ t, t ∈ m.transit ↔ t = s ∨ t ∈ ({ m with stack := below }).transit := by
    intro t
    rw [transit, top, List.filterMap_cons_some through, List.mem_cons]
    rfl
  constructor
  · refine ordered.listed.trans (List.filter_congr fun t _ => ?_)
    have live : ({ m with stack := below }).isLive t = m.isLive t := rfl
    have either := others t
    unfold running
    rw [live]
    grind
  · exact ordered.size
  · intro t live
    rcases ordered.enabled t live with on | leaves | none_
    · exact .inl on
    · obtain ⟨g, hg, leaves⟩ := List.mem_filterMap.1 leaves
      rw [top] at hg
      rcases List.mem_cons.1 hg with rfl | hg
      · have same := through.symm.trans (Frame.transit_of_leaving leaves)
        exact .inr (.inr (List.mem_singleton.2 (Option.some.inj same).symm))
      · exact .inr (.inl (List.mem_filterMap.2 ⟨g, hg, leaves⟩))
    · cases none_
  · exact ordered.whole

/-- A script whose last call has returned is enabled if it is not stopped for good. -/
theorem enabled_free (ordered : m.Ordered []) (live : m.isLive s = true) (free : s ∉ m.leaving) :
    m.enabled s = true := by
  rcases ordered.enabled s live with on | leaves | none_
  · exact on
  · exact absurd leaves free
  · cases none_

theorem push_transit (ordered : m.Ordered [s]) (through : f.transit? = some s)
    (stays : f.leaving? = some s ∨ m.enabled s = true) : (m.push f).Ordered [] := by
  have others : ∀ t, t ∈ (m.push f).transit ↔ t = s ∨ t ∈ m.transit := by
    intro t
    rw [transit, ScriptManager.push, List.filterMap_cons_some through, List.mem_cons]
    rfl
  have leaving_push : ∀ t ∈ m.leaving, t ∈ (m.push f).leaving := by
    intro t mem
    obtain ⟨g, hg, leaves⟩ := List.mem_filterMap.1 mem
    exact List.mem_filterMap.2 ⟨g, List.mem_cons_of_mem f hg, leaves⟩
  constructor
  · refine ordered.listed.trans (List.filter_congr fun t _ => ?_)
    have live : (m.push f).isLive t = m.isLive t := rfl
    have either := others t
    unfold running
    rw [live]
    grind
  · exact ordered.size
  · intro t live
    rcases ordered.enabled t live with on | leaves | same
    · exact .inl on
    · exact .inr (.inl (leaving_push t leaves))
    · rw [List.mem_singleton.1 same]
      rcases stays with leaves | on
      · exact .inr (.inl (List.mem_filterMap.2 ⟨f, List.mem_cons_self, leaves⟩))
      · exact .inl on
  · exact ordered.whole

theorem scriptStop (ordered : m.Ordered [s]) : (m.scriptStop s).Ordered [] := by
  constructor
  · refine ordered.listed.trans (List.filter_congr fun t _ => ?_)
    have live := @isLive_scriptStop m s t
    have same : (m.scriptStop s).transit = m.transit := rfl
    unfold running
    rw [same]
    grind
  · exact ordered.size
  · intro t live
    obtain ⟨other, live⟩ := isLive_scriptStop.1 live
    rcases ordered.enabled t live with on | leaves | same
    · exact .inl on
    · exact .inr (.inl leaves)
    · exact absurd (List.mem_singleton.1 same) other
  · exact ordered.whole

theorem scriptStart (ordered : m.Ordered []) (dead : m.isLive s = false)
    (on : m.enabled s = true) : (m.scriptStart s b).Ordered [] := by
  have others : ∀ t, t ∈ (m.scriptStart s b).transit ↔ t = s ∨ t ∈ m.transit := by
    intro t
    exact List.mem_cons
  constructor
  · refine ordered.listed.trans (List.filter_congr fun t _ => ?_)
    have live := @isLive_scriptStart m s t b
    have either := others t
    unfold running
    grind
  · exact ordered.size
  · intro t live
    rcases isLive_scriptStart.1 live with rfl | live
    · exact .inl on
    · exact ordered.enabled t live
  · show (m.overwritten || m.isLive s) = false
    rw [ordered.whole, dead]
    rfl

theorem position_lt (ordered : m.Ordered exempt) (sound : m.Sound) :
    m.scriptTable.Pairwise fun a b => m.position a < m.position b := by
  have small : ∀ a ∈ m.scriptTable, m.position a = m.scriptTable.idxOf a := by
    intro a mem
    rw [position, if_pos mem, Nat.mod_eq_of_lt]
    have inside := List.idxOf_lt_length_of_mem mem
    have size := ordered.size
    omega
  refine (pairwise_idxOf sound.nodup).imp_of_mem fun ha hb before => ?_
  rwa [small _ ha, small _ hb]

theorem addRunningScript (ordered : m.Ordered [s]) (sound : m.Sound) (live : m.isLive s = true)
    (on : m.enabled s = true) (free : s ∉ m.transit) : (m.addRunningScript s).Ordered [] := by
  constructor
  · have free' : m.running [s] s = false := by simp [running]
    have inserted := orderedInsert_filter (ordered.position_lt sound) (sound.owned s live) free'
    simp only [ScriptManager.addRunningScript]
    rw [ordered.listed, inserted]
    refine List.filter_congr fun t _ => ?_
    have same : (m.addRunningScript s).running [] t = m.running [] t := rfl
    show (m.running [s] t || decide (t = s)) = (m.addRunningScript s).running [] t
    rw [same]
    unfold running
    grind
  · exact ordered.size
  · intro t live'
    rcases ordered.enabled t live' with on' | leaves | same
    · exact .inl on'
    · exact .inr (.inl leaves)
    · exact .inl (List.mem_singleton.1 same ▸ on)
  · exact ordered.whole

/-- `StopScript` takes the script out of the list. -/
theorem withdraw (ordered : m.Ordered []) (sound : m.Sound) :
    ((m.disable s b).removeRunningScript s).Ordered [s] := by
  constructor
  · show m.runningScriptList.erase s = _
    have nodup : m.runningScriptList.Nodup := ordered.listed ▸ sound.nodup.filter _
    rw [nodup.erase_eq_filter, ordered.listed, List.filter_filter]
    refine List.filter_congr fun t _ => ?_
    have same : ((m.disable s b).removeRunningScript s).running [s] t = m.running [s] t := rfl
    rw [same]
    unfold running
    grind
  · exact ordered.size
  · intro t live
    by_cases eq : t = s
    · exact .inr (.inr (List.mem_singleton.2 eq))
    · rcases ordered.enabled t live with on | leaves | none_
      · refine .inl ?_
        show Function.update m.enabled s _ t = true
        rwa [Function.update_of_ne eq]
      · exact .inr (.inl leaves)
      · cases none_
  · exact ordered.whole

theorem startScript (ordered : m.Ordered []) (dead : m.isLive s = false)
    (on : m.enabled s = true ∨ b = true) : (m.startScript s b).Ordered [] := by
  unfold ScriptManager.startScript
  split
  · have on' : (m.enable s b).enabled s = true := by
      show Function.update m.enabled s (m.enabled s || b) s = true
      rw [Function.update_self, Bool.or_eq_true]
      exact on
    have enabled : (m.enable s b).Ordered [] := by
      refine ⟨ordered.listed, ordered.size, ?_, ordered.whole⟩
      intro t live
      by_cases eq : t = s
      · exact .inl (eq ▸ on')
      · show Function.update m.enabled s (m.enabled s || b) t = true ∨ _
        rw [Function.update_of_ne eq]
        exact ordered.enabled t live
    exact enabled.scriptStart dead on'
  · exact ordered

theorem eraseScript (ordered : m.Ordered []) (sound : m.Sound) (dead : m.isLive s = false)
    (place : m.scriptTable[i]? = some s) : (m.eraseScript s i).Ordered [] := by
  obtain ⟨inside, eq⟩ := List.getElem?_eq_some_iff.1 place
  have table : m.scriptTable.eraseIdx i = m.scriptTable.filter (· ≠ s) := by
    rw [← eq, ← sound.nodup.erase_getElem i inside, sound.nodup.erase_eq_filter]
    exact List.filter_congr fun t _ => by grind
  constructor
  · show m.runningScriptList = (m.scriptTable.eraseIdx i).filter _
    rw [table, List.filter_filter]
    refine ordered.listed.trans (List.filter_congr fun t _ => ?_)
    have same : (m.eraseScript s i).running [] t = m.running [] t := rfl
    rw [same]
    unfold running
    grind
  · show (m.scriptTable.eraseIdx i).length ≤ 254
    exact Nat.le_trans (List.length_eraseIdx_le ..) ordered.size
  · exact ordered.enabled
  · exact ordered.whole

theorem exited (ordered : m.Ordered [s]) (sound : m.Sound) (free : s ∉ m.callers)
    {next : AfterStop} (on : next = .start → m.enabled s = true)
    (place : ∀ i, next = .erase i → m.scriptTable[i]? = some s) : (m.exited s next).Ordered [] := by
  have closed := ordered.scriptStop
  have dead : (m.scriptStop s).isLive s = false := by simp [isLive, ScriptManager.scriptStop]
  cases next with
  | done => exact closed
  | start => exact closed.startScript dead (.inl (on rfl))
  | erase i => exact closed.eraseScript (sound.scriptStop free) dead (place i rfl)

theorem clearBit (ordered : m.Ordered exempt) : (m.clearBit s h).Ordered exempt :=
  ordered.congr rfl rfl rfl rfl rfl rfl rfl

/-- A handler is called. -/
theorem callHandler (ordered : m.Ordered exempt) (plain : r = .nothing ∨ r = .handler)
    (called : m.callHandler s h r = some m') : m'.Ordered exempt := by
  obtain ⟨L, -, -, rfl⟩ := callHandler_some called
  rcases plain with rfl | rfl
  · exact ordered.push rfl rfl
  · exact ordered.push rfl rfl

theorem scriptOnStartup (ordered : m.Ordered exempt) : (m.scriptOnStartup s).Ordered exempt := by
  unfold ScriptManager.scriptOnStartup
  cases called : m.callHandler s .onStartup .nothing with
  | none => exact ordered.clearBit
  | some m' => exact ordered.callHandler (.inl rfl) called

theorem loaded (ordered : m.Ordered [s]) (sound : m.Sound) (live : m.isLive s = true)
    (on : m.enabled s = true) (free : s ∉ m.callers) {success : Bool} :
    (m.loaded s b success).Ordered [] := by
  cases success with
  | true =>
    have listed := ordered.addRunningScript sound live on fun mem => free (transit_sub s mem)
    simp only [ScriptManager.loaded, if_true]
    split
    · exact listed.scriptOnStartup
    · exact listed
  | false =>
    have closed := ordered.scriptStop
    refine ⟨closed.listed, closed.size, ?_, closed.whole⟩
    intro t live
    have other := (isLive_scriptStop.1 live).1
    show Function.update m.enabled s false t = true ∨ _
    rw [Function.update_of_ne other]
    exact closed.enabled t live

theorem stopScript (ordered : m.Ordered []) (sound : m.Sound) (live : m.isLive s = true)
    (free : s ∉ m.callers) {next : AfterStop} (kept : b = true → next = .done)
    (place : ∀ i, next = .erase i → m.scriptTable[i]? = some s) :
    (m.stopScript s b next).Ordered [] := by
  have out : ((m.disable s b).removeRunningScript s).Ordered [s] := ordered.withdraw sound
  have sound' : ((m.disable s b).removeRunningScript s).Sound := sound.congr rfl rfl rfl rfl rfl
  have on : next ≠ .done → ((m.disable s b).removeRunningScript s).enabled s = true := by
    intro goes
    have off : b = false := Bool.eq_false_iff.2 fun eq => goes (kept eq)
    show Function.update m.enabled s (m.enabled s && !b) s = true
    rw [Function.update_self, off, ordered.enabled_free live fun mem =>
      free (transit_sub s (leaving_sub s mem))]
    rfl
  have start : next = .start → ((m.disable s b).removeRunningScript s).enabled s = true := by
    rintro rfl
    exact on nofun
  unfold ScriptManager.stopScript scriptOnExit
  split
  · cases called : ((m.disable s b).removeRunningScript s).callHandler s .onExit (.exit next) with
    | none => exact out.clearBit.exited sound'.clearBit free start place
    | some m' =>
      obtain ⟨L, -, -, rfl⟩ := callHandler_some called
      refine out.push_transit rfl ?_
      by_cases done : next = .done
      · exact .inl (done ▸ rfl)
      · exact .inr (on done)
  · exact out.exited sound' free start place

theorem moveScript (ordered : m.Ordered []) (idle : m.transit = []) :
    (m.moveScript i b).Ordered [] := by
  have moved : ∀ j, ((m.swap i j).rebuildRunningList).Ordered [] := by
    intro j
    have rebuilt : ∀ table, table.Perm m.scriptTable →
        (({ m with scriptTable := table }).rebuildRunningList).Ordered [] := by
      intro table perm
      refine ⟨List.filter_congr fun t _ => ?_, perm.length_eq ▸ ordered.size, ordered.enabled,
        ordered.whole⟩
      show m.isLive t = (m.isLive t && decide (t ∉ m.transit) && decide (t ∉ ([] : List Nat)))
      rw [idle]
      simp
    unfold swap
    split
    · rename_i a c ha hc
      obtain ⟨hi, rfl⟩ := List.getElem?_eq_some_iff.1 ha
      obtain ⟨hj, rfl⟩ := List.getElem?_eq_some_iff.1 hc
      exact rebuilt _ (List.set_set_perm hi hj)
    · exact rebuilt _ (.refl _)
  unfold ScriptManager.moveScript
  split
  · split
    · exact ordered
    · exact moved _
  · split
    · exact ordered
    · exact moved _

theorem prepareMove (ordered : m.Ordered exempt) : (m.prepareMove L).Ordered exempt := by
  unfold ScriptManager.prepareMove
  split
  · exact ordered
  · exact ordered.congr rfl rfl rfl rfl rfl rfl rfl

theorem startLoop (ordered : m.Ordered exempt) : (m.startLoop h).Ordered exempt :=
  push (ordered.congr rfl rfl rfl rfl rfl rfl rfl) rfl rfl

theorem stop (ordered : m.Ordered []) (sound : m.Sound) (idle : m.callers = []) :
    m.stop.Ordered [] := by
  have dead : ∀ t, m.stop.isLive t = false := by
    intro t
    rw [Bool.eq_false_iff]
    intro live
    obtain ⟨out, live⟩ := isLive_stop.1 live
    apply out
    rw [ordered.listed]
    refine List.mem_filter.2 ⟨sound.owned t live, ?_⟩
    simp [running, live, transit_idle idle]
  refine ⟨?_, ordered.size, ?_, ordered.whole⟩
  · refine (List.filter_eq_nil_iff.2 fun t _ runs => ?_).symm
    simp [running, dead] at runs
  · intro t live
    exact absurd ((dead t).symm.trans live) (by decide)

theorem checkForDeletedScripts (ordered : m.Ordered []) :
    m.checkForDeletedScripts.Ordered [] := by
  refine ⟨?_, Nat.le_trans (List.length_filter_le ..) ordered.size, ordered.enabled,
    ordered.whole⟩
  show m.runningScriptList = (m.scriptTable.filter m.kept).filter _
  rw [List.filter_filter]
  refine ordered.listed.trans (List.filter_congr fun t _ => ?_)
  have same : m.checkForDeletedScripts.running [] t = m.running [] t := rfl
  rw [same]
  unfold running kept
  grind

theorem addScript (ordered : m.Ordered []) (sound : m.Sound)
    (added : m.addScript sName b = some m') :
    m'.Ordered [] ∧ m'.isLive m.nextScript = false ∧ m'.enabled m.nextScript = b := by
  have live := sound.isLive_addScript added
  have dead : m.isLive m.nextScript = false := by
    rw [Bool.eq_false_iff]
    exact fun live => sound.next_not_mem (sound.owned _ live)
  have isDead := (live m.nextScript).trans dead
  have room : m.scriptTable.length % 256 ≠ 254 := by
    intro full
    rw [ScriptManager.addScript, if_pos full] at added
    cases added
  rw [ScriptManager.addScript, if_neg room] at added
  have same : m'.running [] = m.running [] := by
    funext t
    unfold running
    rw [live t]
    cases added
    rfl
  cases added
  refine ⟨⟨?_, ?_, ?_, ordered.whole⟩, isDead, Function.update_self ..⟩
  · rw [same, List.filter_append, ← ordered.listed]
    simp [running, dead]
  · have size := ordered.size
    rw [List.length_append, List.length_singleton]
    omega
  · intro t live'
    rw [live t] at live'
    by_cases eq : t = m.nextScript
    · rw [eq] at live'
      exact absurd (dead.symm.trans live') (by decide)
    · show Function.update m.enabled m.nextScript b t = true ∨ _
      rw [Function.update_of_ne eq]
      exact ordered.enabled t live'

theorem addAndStart (ordered : m.Ordered []) (sound : m.Sound) :
    (m.addAndStart sName).Ordered [] := by
  unfold ScriptManager.addAndStart
  split
  · rename_i m' added
    obtain ⟨ordered', dead, on⟩ := ordered.addScript sound added
    exact ordered'.startScript dead (.inl on)
  · exact ordered

theorem refresh (ordered : m.Ordered []) (sound : m.Sound) : m.refresh.Ordered [] := by
  refine (checkForNewScripts_keeps (P := fun m => m.Sound ∧ m.Ordered [])
    ⟨sound.checkForDeletedScripts, ordered.checkForDeletedScripts⟩ ?_).2
  intro m₁ m₂ name both _ added
  exact ⟨both.1.addScript added, (both.2.addScript both.1 added).1⟩

theorem start (ordered : m.Ordered []) (sound : m.Sound) : m.start.Ordered [] :=
  (ordered.refresh sound).push rfl rfl

theorem visit (ordered : m.Ordered []) (top : m.stack = .loop l :: below) {rest : List Nat} :
    (m.visit l s rest below).Ordered [] := by
  have popped : ({ m with stack := below }).Ordered [] := ordered.pop top rfl rfl
  have skipped : ∀ l' : Loop, ({ m with stack := .loop l' :: below }).Ordered [] :=
    fun _ => popped.push rfl rfl
  have marked : ∀ l' : Loop, ({ m with
      processed := Function.update m.processed s true
      stack := .loop l' :: below }).Ordered [] :=
    fun l' => (skipped l').congr rfl rfl rfl rfl rfl rfl rfl
  unfold ScriptManager.visit
  dsimp only
  split
  · cases called : ({ m with
        processed := Function.update m.processed s true
        stack := .loop { l with seen := l.seen ++ [s], rest, called := l.called ++ [s] } :: below } :
        ScriptManager).callHandler s l.handler .handler with
    | none => exact (marked _).clearBit
    | some m' => exact (marked _).callHandler (.inr rfl) called
  · exact skipped _

theorem answered (ordered : m.Ordered []) (top : m.stack = .loop l :: below) (a : Answer) :
    (m.answered l below a).Ordered [] := by
  have popped : ({ m with stack := below }).Ordered [] := ordered.pop top rfl rfl
  have stops : ({ m with stack := .loop { l with stopped := true } :: below }).Ordered [] :=
    popped.push rfl rfl
  unfold ScriptManager.answered
  split
  · split
    · exact stops
    · exact stops.startLoop
    · exact ordered
  · exact ordered

theorem scriptError (ordered : m.Ordered exempt) (a : Answer) :
    (m.scriptError s a).Ordered exempt := by
  unfold ScriptManager.scriptError
  split
  · exact ordered.congr rfl rfl rfl rfl rfl rfl rfl
  · exact ordered

theorem ret (ordered : m.Ordered []) (sound : m.Sound) (a : Answer)
    (defined : m.Defined (.ret a)) : (m.ret a).Ordered [] := by
  -- a script whose call returns and that is not stopped for good is enabled
  have on : ∀ {s L r below}, m.stack = .lua s L r :: below → r ≠ .exit .done →
      (r ≠ .nothing ∧ r ≠ .handler) → m.enabled s = true := by
    intro s L r below top stays through
    have free := sound.free_below top through
    have live := isLive_iff.2 ⟨L, sound.opened s L r (top ▸ List.mem_cons_self)⟩
    apply ordered.enabled_free live
    intro mem
    obtain ⟨g, hg, leaves⟩ := List.mem_filterMap.1 mem
    rw [top] at hg
    rcases List.mem_cons.1 hg with rfl | hg
    · unfold Frame.leaving? at leaves
      split at leaves
      · rename_i eq
        cases eq
        exact stays rfl
      · cases leaves
    · have mem : s ∈ ({ m with stack := below }).leaving := List.mem_filterMap.2 ⟨g, hg, leaves⟩
      exact free (transit_sub s (leaving_sub s mem))
  unfold ScriptManager.ret
  split
  · rename_i top
    exact (ordered.pop top rfl rfl).scriptError a
  · rename_i s L l below top
    exact answered ((ordered.pop top rfl rfl).scriptError a) scriptError_same.1 a
  · rename_i s L byStartScript below top
    have live := isLive_iff.2 ⟨L, sound.opened s L _ (top ▸ List.mem_cons_self)⟩
    exact (ordered.pop_transit top rfl).loaded (sound.pop top) live (on top (by simp) (by simp))
      (sound.free_below top (by simp))
  · rename_i s L next below top
    refine exited ((ordered.pop_transit top rfl).scriptError a) ((sound.pop top).scriptError a)
      ?_ ?_ ?_
    · rw [callers, scriptError_same.1]
      exact sound.free_below top (by simp)
    · rintro rfl
      rw [scriptError_enabled]
      exact on top (by simp) (by simp)
    · rintro i rfl
      rw [scriptError_same.2]
      refine defined (s, i) ?_
      rw [erased, top]
      rfl
  · exact ordered

theorem go (ordered : m.Ordered []) (sound : m.Sound) (settled : m.Settled .go) :
    m.go.Ordered [] := by
  unfold ScriptManager.go
  split
  · rename_i l below top
    split
    · exact ordered.visit top
    · exact ordered.pop top rfl rfl
  · rename_i i n below top
    have popped := ordered.pop top rfl rfl
    split
    · exact popped
    · rename_i inside
      split
      · rename_i s place
        have next : ({ m with stack := .starting (i + 1) n :: below }).Ordered [] :=
          popped.push rfl rfl
        dsimp only
        split
        · rename_i on
          have starts : m.starts = some s := by
            rw [starts, top]
            simp only [if_neg inside, place]
            exact Option.filter_some_eq_some.2 on
          refine next.scriptStart ?_ on
          show (m.pLua s).isSome = false
          rw [settled s starts]
          rfl
        · exact next
      · exact popped
  · rename_i below top
    have idle := sound.idle_below top fun _ covers => covers
    have popped := ordered.pop top rfl rfl
    have next : ({ m with stack := .restarting true :: below }).Ordered [] := popped.push rfl rfl
    have sound' : ({ m with stack := .restarting true :: below }).Sound := by
      refine (sound.pop top).push (fun _ => nofun) fun g mem => ?_
      exact List.filterMap_eq_nil_iff.1 idle g mem
    exact (next.stop sound' idle).checkForDeletedScripts.start
      (sound'.stop idle).checkForDeletedScripts
  · rename_i below top
    exact (ordered.pop top rfl rfl).startLoop
  · exact ordered

theorem act (ordered : m.Ordered []) (sound : m.Sound) {a : Act}
    (top : m.stack = .lua s L r :: below) (settled : m.Settled (.act a))
    (spared : ∀ t ∈ m.stopped (.act a), t ∉ m.callers) : (m.act s L a).Ordered [] := by
  cases a with
  | define h isFunction => exact ordered.congr rfl rfl rfl rfl rfl rfl rfl
  | move sName bUp =>
    unfold ScriptManager.act ScriptManager.move
    dsimp only
    split
    · rename_i moves
      refine ordered.prepareMove.moveScript ?_
      rw [transit, prepareMove_stack]
      exact settled moves
    · exact ordered
  | startScript sName =>
    unfold ScriptManager.act
    dsimp only
    split
    · split
      · split
        · exact ordered
        · rename_i t _ dead
          exact ordered.startScript (Bool.eq_false_iff.2 dead) (.inr rfl)
      · exact ordered.addAndStart sound
    · exact ordered
  | stopScript sName =>
    unfold ScriptManager.act
    dsimp only
    split
    · rename_i t found
      split
      · exact ordered.congr rfl rfl rfl rfl rfl rfl rfl
      · rename_i other
        split
        · rename_i live
          have free := spared t (stopped_of_found top found other live).1
          exact ordered.stopScript sound live free (fun _ => rfl) nofun
        · exact ordered
    · exact ordered
  | restartScript sName =>
    unfold ScriptManager.act
    dsimp only
    split
    · rename_i t found
      split
      · exact ordered.congr rfl rfl rfl rfl rfl rfl rfl
      · rename_i other
        split
        · rename_i live
          have free := spared t (stopped_of_found top found other live).2
          exact ordered.stopScript sound live free nofun nofun
        · exact ordered
    · exact ordered
  | restart => exact ordered.congr rfl rfl rfl rfl rfl rfl rfl
  | refresh => exact ordered.refresh sound
  | dispatch h =>
    unfold ScriptManager.act
    dsimp only
    split
    · exact ordered.startLoop
    · exact ordered

theorem stopEnabled (ordered : m.Ordered []) (sound : m.Sound) (idle : m.callers = [])
    {next : AfterStop} (kept : b = true → next = .done) (stays : ∀ i, next ≠ .erase i) :
    (m.stopEnabled sName b next).Ordered [] := by
  unfold ScriptManager.stopEnabled
  split
  · split
    · rename_i on
      rw [Bool.and_eq_true] at on
      refine ordered.stopScript sound on.2 (idle ▸ List.not_mem_nil) kept ?_
      intro i eq
      exact absurd eq (stays i)
    · exact ordered
  · exact ordered

theorem restart (ordered : m.Ordered []) : m.restart.Ordered [] :=
  startLoop (ordered.push rfl rfl)

theorem processEvent (ordered : m.Ordered []) (sound : m.Sound) (idle : m.callers = [])
    (e : NormalEvent) : (m.processEvent e).Ordered [] := by
  cases e with
  | rstScripts => exact ordered.restart
  | rstScript sName => exact ordered.stopEnabled sound idle nofun nofun
  | stopScript sName => exact ordered.stopEnabled sound idle (fun _ => rfl) nofun

theorem op (ordered : m.Ordered []) (sound : m.Sound) (idle : m.callers = []) (o : Op) :
    (m.op o).Ordered [] := by
  have free : ∀ t, t ∉ m.callers := fun t => idle ▸ List.not_mem_nil
  -- a script that runs is enabled when no script is called
  have on : ∀ t, m.isLive t = true → m.enabled t = true := fun t live =>
    ordered.enabled_free live fun mem => free t (transit_sub t (leaving_sub t mem))
  cases o with
  | dispatch h => exact ordered.startLoop
  | timer s =>
    unfold ScriptManager.op
    dsimp only
    split
    · exact ordered.push rfl rfl
    · exact ordered
  | start => exact ordered.start sound
  | stop => exact ordered.stop sound idle
  | restart => exact ordered.restart
  | refresh => exact ordered.refresh sound
  | startScript sName =>
    unfold ScriptManager.op
    dsimp only
    split
    · split
      · rename_i t _
        split
        · exact ordered
        · rename_i off
          refine ordered.startScript ?_ (.inr rfl)
          rw [Bool.eq_false_iff]
          intro live
          exact off (by rw [on t live, live]; rfl)
      · exact ordered.addAndStart sound
    · exact ordered
  | stopScript sName => exact ordered.stopEnabled sound idle (fun _ => rfl) nofun
  | restartScript sName => exact ordered.stopEnabled sound idle nofun nofun
  | moveScript i bUp =>
    unfold ScriptManager.op
    dsimp only
    split
    · exact ordered.moveScript (transit_idle idle)
    · exact ordered
  | deleteScript i =>
    unfold ScriptManager.op
    dsimp only
    split
    · rename_i s place
      split
      · rename_i live
        refine ordered.stopScript sound live (free s) nofun ?_
        rintro _ ⟨⟩
        exact place
      · rename_i dead
        exact ordered.eraseScript sound (Bool.eq_false_iff.2 dead) place
    · exact ordered
  | processEvent =>
    unfold ScriptManager.op
    dsimp only
    split
    · rename_i e events _
      have rest : ({ m with normalEvents := events }).Ordered [] :=
        ordered.congr rfl rfl rfl rfl rfl rfl rfl
      have sound' : ({ m with normalEvents := events }).Sound := sound.congr rfl rfl rfl rfl rfl
      exact rest.processEvent sound' idle e
    · exact ordered
  | serverRunning b => exact ordered.congr rfl rfl rfl rfl rfl rfl rfl

/-- The step lemma. -/
theorem step (ordered : m.Ordered []) (sound : m.Sound) (e : Event) (safe : m.Safe e)
    (settled : m.Settled e) : (m.step e).Ordered [] := by
  cases e with
  | files files => exact ordered.congr rfl rfl rfl rfl rfl rfl rfl
  | act a =>
    unfold ScriptManager.step
    dsimp only
    split
    · rename_i s L r below top
      split
      · exact ordered.act sound top settled safe.2
      · exact ordered
    · exact ordered
  | ret a => exact ordered.ret sound a safe.1
  | go => exact ordered.go sound settled
  | op o =>
    unfold ScriptManager.step
    dsimp only
    split
    · rename_i none_
      refine ordered.op sound ?_ o
      rw [callers, none_]
      rfl
    · exact ordered

theorem load (files : List Text) (names : List (Text × Bool)) :
    (ScriptManager.load files names).Sound ∧ (ScriptManager.load files names).Ordered [] :=
  load_invariant (fun m => m.Sound ∧ m.Ordered [])
    ⟨⟨fun _ _ _ => nofun, .nil, .nil, fun _ => nofun, fun _ => nofun⟩, rfl, Nat.zero_le _,
      fun _ => nofun, rfl⟩
    fun both added => ⟨both.1.addScript added, (both.2.addScript both.1 added).1⟩

/-- The run lemma. -/
theorem run {es : List Event} (both : m.Sound ∧ m.Ordered [])
    (fine : Allowed ScriptManager.step (fun m e => m.Safe e ∧ m.Settled e) m es) :
    (Lib.run ScriptManager.step m es).Sound ∧ (Lib.run ScriptManager.step m es).Ordered [] :=
  allowed_invariant (fun m => m.Sound ∧ m.Ordered [])
    (fun _ e h ok => ⟨h.1.step e ok.1, h.2.step h.1 e ok.1 ok.2⟩) both fine

/-- When control is back in the hub no script is loaded or exits. -/
theorem back (ordered : m.Ordered []) (sound : m.Sound) (hub : m.stack = []) : m.Listed := by
  have all : m.runningScriptList = m.scriptTable.filter m.isLive := by
    refine ordered.listed.trans (List.filter_congr fun t _ => ?_)
    have idle : m.transit = [] := by
      rw [transit, hub]
      rfl
    simp [running, idle]
  exact ⟨all, all ▸ sound.nodup.filter _⟩

end Ordered

end

/-! ## Runs -/

/-- In every run of safe and settled steps no Lua state is overwritten, and the running list is
right whenever control is back in the hub. -/
theorem listed_of_settled (files : List Text) (names : List (Text × Bool)) {es : List Event}
    (fine : Allowed step (fun m e => m.Safe e ∧ m.Settled e) (load files names) es) :
    (run step (load files names) es).overwritten = false ∧
      ((run step (load files names) es).stack = [] → (run step (load files names) es).Listed) := by
  obtain ⟨sound, ordered⟩ := Ordered.run (Ordered.load files names) fine
  exact ⟨ordered.whole, fun hub => ordered.back sound hub⟩

/-- Load-time code that starts the other script, which is then moved. -/
theorem listed_pair :
    let m := run step (load pairFiles [(ascii "a.lua", false), (ascii "b.lua", false)])
      [.op (.serverRunning true), .op (.startScript (ascii "A.lua")),
        .op (.startScript (ascii "a.lua")), .act (.startScript (ascii "b.lua")), .ret .no, .ret .no,
        .op (.moveScript 0 false), .op (.restartScript (ascii "a.lua")), .ret .no]
    m.overwritten = false ∧ (m.stack = [] → m.Listed) :=
  listed_of_settled _ _ (by decide +kernel)

/-- Load-time code that moves its own script: the script is in the list twice. -/
theorem listed_twice :
    ¬∀ es, let m := run step (load pairFiles [(ascii "a.lua", false), (ascii "b.lua", false)]) es
      m.overwritten = false ∧ (m.stack = [] → m.Listed) := by
  intro all
  have listed := (all [.op (.startScript (ascii "a.lua")), .act (.move (ascii "a.lua") false),
    .ret .no]).2 (by decide +kernel)
  exact absurd listed.2 (by decide +kernel)

end ScriptManager

end FlyHub.Scripts
