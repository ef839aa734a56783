import FlyHub.Scripts.Manager

/-!
# Calls into Lua states

A script that stops itself is stopped later, when its call has returned. A script that stops
another one stops it at once, and that one may be in a call further down the stack. As long as
this does not happen, a call on the stack runs in the Lua state of its script.
-/

namespace FlyHub.Scripts

open FlyHub.Lib

namespace Frame

/-- The script that is called. -/
def script? : Frame → Option Nat
  | lua s _ _ => some s
  | _ => none

def isStarting : Frame → Bool
  | starting _ _ => true
  | _ => false

/-- What may lie below a frame: a script that is loaded or exits is in no other call, and `Start`
and `Restart` are called by the hub alone. -/
def Covers : Frame → Frame → Prop
  | lua s _ (.load _), g | lua s _ (.exit _), g => g.script? ≠ some s
  | starting _ _, g | restarting _, g => g.script? = none
  | _, _ => True

theorem script?_eq_some {f : Frame} {s : Nat} :
    f.script? = some s ↔ ∃ L r, f = .lua s L r := by
  cases f with
  | lua t L r =>
    constructor
    · rintro ⟨⟩
      exact ⟨L, r, rfl⟩
    · rintro ⟨_, _, ⟨⟩⟩
      rfl
  | loop l => simp [script?]
  | starting i n => simp [script?]
  | restarting b => simp [script?]

end Frame

namespace ScriptManager

section
variable (m : ScriptManager)

/-- The scripts with a call on the stack. -/
def callers : List Nat := m.stack.filterMap Frame.script?

/-- Every call on the stack runs in the Lua state of a script that is there. -/
def Open : Prop :=
  ∀ s L r, .lua s L r ∈ m.stack → m.pLua s = some L ∧ m.freed s = false

/-! ## Steps that are safe -/

/-- The table gets longer or shorter. -/
def Resizes : Act → Prop
  | .startScript sName =>
    sName ∈ m.files ∧ m.findScript sName = none ∧ m.scriptTable.length % 256 ≠ 254
  | .refresh => (∃ s ∈ m.scriptTable, m.kept s = false) ∨
      ∃ name ∈ m.files.filter isScriptName, m.findScript name = none
  | _ => False

/-- What `DeleteScript` takes out of the table when `OnExit` returns. -/
def erased : Option (Nat × Nat) :=
  match m.stack with
  | .lua s _ (.exit (.erase i)) :: _ => some (s, i)
  | _ => none

/-- The script that a loop comes to. -/
def next : Option Nat :=
  match m.stack with
  | .loop l :: _ => if l.stopped then none else l.rest.head?
  | _ => none

/-- The hub only reads what is there: the table keeps its size while the loop of `Start` goes
through it, the position in `DeleteScript` is still that of the script after `OnExit`, and a loop
does not come to a script that was freed. -/
def Defined : Event → Prop
  | .act a => (∃ f ∈ m.stack, f.isStarting) → ¬m.Resizes a
  | .ret _ => ∀ p ∈ m.erased, m.scriptTable[p.2]? = some p.1
  | .go => ∀ s ∈ m.next, m.freed s = false
  | _ => True

/-- The script that a script stops at once. -/
def stopped : Event → Option Nat
  | .act (.stopScript sName) | .act (.restartScript sName) =>
    match m.stack with
    | .lua _ L _ :: _ => (m.findScript sName).filter fun t => m.pLua t ≠ some L && m.isLive t
    | _ => none
  | _ => none

/-- What is done is defined, and no script is stopped that is in a call. -/
def Safe (e : Event) : Prop := m.Defined e ∧ ∀ s ∈ m.stopped e, s ∉ m.callers

instance : ∀ a, Decidable (m.Resizes a)
  | .startScript _ => inferInstanceAs (Decidable (_ ∧ _ ∧ _))
  | .refresh => inferInstanceAs (Decidable (_ ∨ _))
  | .define .. | .move .. | .stopScript _ | .restartScript _ | .restart | .dispatch _ =>
    inferInstanceAs (Decidable False)

instance : ∀ e, Decidable (m.Defined e)
  | .act _ => inferInstanceAs (Decidable (_ → ¬_))
  | .ret _ => inferInstanceAs (Decidable (∀ p ∈ m.erased, _))
  | .go => inferInstanceAs (Decidable (∀ s ∈ m.next, _))
  | .files _ | .op _ => inferInstanceAs (Decidable True)

instance (e : Event) : Decidable (m.Safe e) := inferInstanceAs (Decidable (_ ∧ _))

end

/-- What safe steps keep. -/
structure Sound (m : ScriptManager) : Prop where
  opened : ∀ s L r, .lua s L r ∈ m.stack → m.pLua s = some L
  nested : m.stack.Pairwise Frame.Covers
  nodup : m.scriptTable.Nodup
  owned : ∀ s, m.isLive s → s ∈ m.scriptTable
  known : ∀ s ∈ m.scriptTable, s < m.nextScript ∧ m.freed s = false

section
variable {m m' : ScriptManager} {s t L i : Nat} {r : Rest} {f : Frame} {l : Loop}
  {below : List Frame} {h : Handler} {sName : Text} {b : Bool}

theorem mem_callers : s ∈ m.callers ↔ ∃ L r, .lua s L r ∈ m.stack := by
  simp only [callers, List.mem_filterMap, Frame.script?_eq_some]
  constructor
  · rintro ⟨_, mem, L, r, rfl⟩
    exact ⟨L, r, mem⟩
  · rintro ⟨L, r, mem⟩
    exact ⟨_, mem, L, r, rfl⟩

theorem isLive_iff : m.isLive s = true ↔ ∃ L, m.pLua s = some L := Option.isSome_iff_exists

theorem isLive_scriptStop : (m.scriptStop s).isLive t = true ↔ t ≠ s ∧ m.isLive t = true := by
  unfold isLive scriptStop
  by_cases eq : t = s
  · subst eq
    simp
  · simp [eq]

theorem isLive_scriptStart : (m.scriptStart s b).isLive t = true ↔ t = s ∨ m.isLive t = true := by
  unfold isLive scriptStart
  by_cases eq : t = s
  · subst eq
    simp
  · simp [eq]

theorem isLive_stop : m.stop.isLive t = true ↔ t ∉ m.runningScriptList ∧ m.isLive t = true := by
  unfold isLive stop
  by_cases mem : t ∈ m.runningScriptList
  · simp [mem]
  · simp [mem]

theorem callHandler_some (called : m.callHandler s h r = some m') :
    ∃ L, m.pLua s = some L ∧ m.globals s h = true ∧ m' = m.push (.lua s L r) := by
  unfold callHandler at called
  split at called
  · rename_i L live
    split at called
    · rename_i has
      exact ⟨L, live, has, (Option.some.inj called).symm⟩
    · cases called
  · cases called

theorem addScript_some (added : m.addScript sName b = some m') :
    m'.scriptTable = m.scriptTable ++ [m.nextScript] ∧ m'.nextScript = m.nextScript + 1 ∧
      m'.pLua = Function.update m.pLua m.nextScript none ∧
      m'.freed = Function.update m.freed m.nextScript false ∧ m'.stack = m.stack := by
  unfold addScript at added
  split at added
  · cases added
  · cases added
    exact ⟨rfl, rfl, rfl, rfl, rfl⟩

theorem scriptError_same {a : Answer} : (m.scriptError s a).stack = m.stack ∧
    (m.scriptError s a).scriptTable = m.scriptTable := by
  unfold scriptError
  split
  · exact ⟨rfl, rfl⟩
  · exact ⟨rfl, rfl⟩

/-- A script that is found and runs is stopped at once by another one. -/
theorem stopped_of_found (top : m.stack = .lua s L r :: below)
    (found : m.findScript sName = some t) (other : m.pLua t ≠ some L)
    (live : m.isLive t = true) :
    m.stopped (.act (.stopScript sName)) = some t ∧
      m.stopped (.act (.restartScript sName)) = some t := by
  have filtered : (m.findScript sName).filter
      (fun t => m.pLua t ≠ some L && m.isLive t) = some t := by
    rw [found, Option.filter_some_eq_some]
    simp [other, live]
  constructor
  · rw [stopped, top]
    exact filtered
  · rw [stopped, top]
    exact filtered

/-- What holds of no scripts and is kept by each `AddScript` holds when the files are loaded. -/
theorem load_invariant (P : ScriptManager → Prop) {files : List Text} {names : List (Text × Bool)}
    (first : P (empty files))
    (adds : ∀ {m m' : ScriptManager} {name : Text × Bool}, P m →
      m.addScript name.1 name.2 = some m' → P m') : P (ScriptManager.load files names) := by
  unfold ScriptManager.load
  generalize empty files = m at first
  induction names generalizing m with
  | nil => exact first
  | cons name names ih =>
    refine ih _ ?_
    dsimp only
    split
    · cases added : m.addScript name.1 name.2 with
      | none => exact first
      | some m' => exact adds first added
    · exact first

/-! ## What keeps the calls sound -/

namespace Sound

theorem freed (sound : m.Sound) : m.Open := by
  intro s L r mem
  have live := sound.opened s L r mem
  exact ⟨live, (sound.known s (sound.owned s (isLive_iff.2 ⟨L, live⟩))).2⟩

/-- The other fields do not matter. -/
theorem congr (sound : m.Sound) (stack : m'.stack = m.stack) (pLua : m'.pLua = m.pLua)
    (table : m'.scriptTable = m.scriptTable) (freed : m'.freed = m.freed)
    (next : m'.nextScript = m.nextScript) : m'.Sound where
  opened := by
    rw [stack, pLua]
    exact sound.opened
  nested := stack ▸ sound.nested
  nodup := table ▸ sound.nodup
  owned := by
    unfold isLive
    rw [pLua, table]
    exact sound.owned
  known := by
    rw [table, freed, next]
    exact sound.known

theorem live_of_caller (sound : m.Sound) (mem : s ∈ m.callers) : m.isLive s = true := by
  obtain ⟨L, r, mem⟩ := mem_callers.1 mem
  exact isLive_iff.2 ⟨L, sound.opened s L r mem⟩

/-- Frames can go. -/
theorem sublist (sound : m.Sound) (sub : below.Sublist m.stack) :
    ({ m with stack := below }).Sound where
  opened s L r mem := sound.opened s L r (sub.subset mem)
  nested := sound.nested.sublist sub
  nodup := sound.nodup
  owned := sound.owned
  known := sound.known

theorem pop (sound : m.Sound) (top : m.stack = f :: below) : ({ m with stack := below }).Sound :=
  sound.sublist (top ▸ List.sublist_cons_self f below)

theorem push (sound : m.Sound) (own : ∀ s, f.script? ≠ some s)
    (covers : ∀ g ∈ m.stack, f.Covers g) : (m.push f).Sound where
  opened s L r mem := by
    rcases List.mem_cons.1 mem with rfl | mem
    · exact absurd rfl (own s)
    · exact sound.opened s L r mem
  nested := List.pairwise_cons.2 ⟨covers, sound.nested⟩
  nodup := sound.nodup
  owned := sound.owned
  known := sound.known

theorem push_loop (sound : m.Sound) : (m.push (.loop l)).Sound :=
  sound.push (fun _ => nofun) (fun _ _ => trivial)

theorem top_loop (sound : m.Sound) (top : m.stack = f :: below) :
    ({ m with stack := .loop l :: below }).Sound :=
  (sound.pop top).push_loop

theorem push_lua (sound : m.Sound) (live : m.pLua s = some L)
    (covers : ∀ g ∈ m.stack, (Frame.lua s L r).Covers g) : (m.push (.lua s L r)).Sound where
  opened t L' r' mem := by
    rcases List.mem_cons.1 mem with eq | mem
    · cases eq
      exact live
    · exact sound.opened t L' r' mem
  nested := List.pairwise_cons.2 ⟨covers, sound.nested⟩
  nodup := sound.nodup
  owned := sound.owned
  known := sound.known

theorem covers_of_free (free : s ∉ m.callers) : ∀ g ∈ m.stack, (Frame.lua s L r).Covers g := by
  intro g mem
  have other : g.script? ≠ some s := by
    intro eq
    obtain ⟨L', r', rfl⟩ := Frame.script?_eq_some.1 eq
    exact free (mem_callers.2 ⟨L', r', mem⟩)
  cases r with
  | nothing => trivial
  | handler => trivial
  | load _ => exact other
  | exit _ => exact other

/-- A script that is loaded or exits is not in a call below. -/
theorem free_below (sound : m.Sound) (top : m.stack = .lua s L r :: below)
    (through : r ≠ .nothing ∧ r ≠ .handler) : s ∉ ({ m with stack := below }).callers := by
  intro mem
  obtain ⟨L', r', mem⟩ := mem_callers.1 mem
  have nested := sound.nested
  rw [top] at nested
  have covers := (List.pairwise_cons.1 nested).1 _ mem
  cases r with
  | nothing => exact through.1 rfl
  | handler => exact through.2 rfl
  | load _ => exact covers rfl
  | exit _ => exact covers rfl

theorem scriptStop (sound : m.Sound) (free : s ∉ m.callers) : (m.scriptStop s).Sound where
  opened t L r mem := by
    have other : t ≠ s := by
      rintro rfl
      exact free (mem_callers.2 ⟨L, r, mem⟩)
    exact (Function.update_of_ne other _ _).trans (sound.opened t L r mem)
  nested := sound.nested
  nodup := sound.nodup
  owned t live := sound.owned t (isLive_scriptStop.1 live).2
  known := sound.known

theorem scriptStart (sound : m.Sound) (mem : s ∈ m.scriptTable) (free : s ∉ m.callers) :
    (m.scriptStart s b).Sound where
  opened t L r mem := by
    rcases List.mem_cons.1 mem with eq | mem
    · cases eq
      exact Function.update_self ..
    · have other : t ≠ s := fun eq => free (eq ▸ mem_callers.2 ⟨L, r, mem⟩)
      exact (Function.update_of_ne other _ _).trans (sound.opened t L r mem)
  nested := List.pairwise_cons.2 ⟨covers_of_free free, sound.nested⟩
  nodup := sound.nodup
  owned t live := by
    rcases isLive_scriptStart.1 live with rfl | live
    · exact mem
    · exact sound.owned t live
  known := sound.known

theorem startScript (sound : m.Sound) (free : s ∉ m.callers) : (m.startScript s b).Sound := by
  unfold ScriptManager.startScript
  split
  · rename_i mem
    have on : (m.enable s b).Sound := sound.congr rfl rfl rfl rfl rfl
    exact on.scriptStart mem free
  · exact sound

theorem next_not_mem (sound : m.Sound) : m.nextScript ∉ m.scriptTable := by
  intro mem
  exact Nat.lt_irrefl _ (sound.known _ mem).1

theorem next_free (sound : m.Sound) : m.nextScript ∉ m.callers := by
  intro mem
  exact sound.next_not_mem (sound.owned _ (sound.live_of_caller mem))

theorem isLive_addScript (sound : m.Sound) (added : m.addScript sName b = some m') (t : Nat) :
    m'.isLive t = m.isLive t := by
  have pLua := (addScript_some added).2.2.1
  unfold isLive
  rw [pLua]
  by_cases eq : t = m.nextScript
  · have dead : m.pLua t = none := by
      cases live : m.pLua t with
      | none => rfl
      | some L => exact absurd (sound.owned t (isLive_iff.2 ⟨L, live⟩)) (eq ▸ sound.next_not_mem)
    rw [eq, Function.update_self, ← eq, dead]
  · rw [Function.update_of_ne eq]

theorem addScript (sound : m.Sound) (added : m.addScript sName b = some m') : m'.Sound := by
  obtain ⟨table, next, pLua, freed, stack⟩ := addScript_some added
  have other : ∀ t ∈ m.scriptTable, t ≠ m.nextScript := by
    rintro t mem rfl
    exact sound.next_not_mem mem
  constructor
  · intro t L r mem
    rw [stack] at mem
    have live := sound.opened t L r mem
    rw [pLua, Function.update_of_ne (other t (sound.owned t (isLive_iff.2 ⟨L, live⟩))), live]
  · exact stack ▸ sound.nested
  · rw [table, List.nodup_append]
    refine ⟨sound.nodup, List.nodup_singleton _, ?_⟩
    intro t mem u hu
    rw [List.mem_singleton.1 hu]
    exact other t mem
  · intro t live
    rw [table, List.mem_append]
    by_cases eq : t = m.nextScript
    · exact .inr (List.mem_singleton.2 eq)
    · refine .inl (sound.owned t ?_)
      rwa [isLive, pLua, Function.update_of_ne eq] at live
  · intro t mem
    rw [table, List.mem_append, List.mem_singleton] at mem
    rw [next, freed]
    rcases mem with mem | rfl
    · have old := sound.known t mem
      rw [Function.update_of_ne (other t mem)]
      exact ⟨Nat.lt_succ_of_lt old.1, old.2⟩
    · exact ⟨Nat.lt_succ_self _, Function.update_self ..⟩

theorem addAndStart (sound : m.Sound) : (m.addAndStart sName).Sound := by
  unfold ScriptManager.addAndStart
  split
  · rename_i m' added
    have stack := (addScript_some added).2.2.2.2
    refine startScript (sound.addScript added) ?_
    rw [callers, stack]
    exact sound.next_free
  · exact sound

theorem checkForDeletedScripts (sound : m.Sound) : m.checkForDeletedScripts.Sound where
  opened := sound.opened
  nested := sound.nested
  nodup := sound.nodup.filter _
  owned t live := by
    refine List.mem_filter.2 ⟨sound.owned t live, ?_⟩
    have live : m.isLive t = true := live
    simp [kept, live]
  known t mem := by
    obtain ⟨mem, kept⟩ := List.mem_filter.1 mem
    refine ⟨(sound.known t mem).1, ?_⟩
    simp [ScriptManager.checkForDeletedScripts, (sound.known t mem).2, kept]

end Sound

/-- `CheckForNewScripts` does nothing but add scripts. -/
theorem checkForNewScripts_keeps {P : ScriptManager → Prop} (hm : P m)
    (adds : ∀ m m' sName, P m → m.findScript sName = none → m.addScript sName false = some m' →
      P m') : P m.checkForNewScripts := by
  unfold checkForNewScripts
  induction m.files.filter isScriptName generalizing m with
  | nil => exact hm
  | cons name names ih =>
    refine ih ?_
    dsimp only
    split
    · exact hm
    · rename_i absent
      rw [Option.not_isSome_iff_eq_none] at absent
      cases added : m.addScript name false with
      | none => exact hm
      | some m' => exact adds m m' name hm absent added

theorem checkForNewScripts_stack : m.checkForNewScripts.stack = m.stack := by
  apply checkForNewScripts_keeps (P := fun m' => m'.stack = m.stack) rfl
  intro m₁ m₂ name same _ added
  rw [(addScript_some added).2.2.2.2, same]

theorem refresh_stack : m.refresh.stack = m.stack := checkForNewScripts_stack

namespace Sound

theorem checkForNewScripts (sound : m.Sound) : m.checkForNewScripts.Sound :=
  checkForNewScripts_keeps sound fun _ _ _ sound _ added => sound.addScript added

theorem refresh (sound : m.Sound) : m.refresh.Sound :=
  sound.checkForDeletedScripts.checkForNewScripts

theorem callHandler (sound : m.Sound) (covers : ∀ L, ∀ g ∈ m.stack, (Frame.lua s L r).Covers g)
    (called : m.callHandler s h r = some m') : m'.Sound := by
  obtain ⟨L, live, -, rfl⟩ := callHandler_some called
  exact sound.push_lua live (covers L)

theorem clearBit (sound : m.Sound) : (m.clearBit s h).Sound := sound.congr rfl rfl rfl rfl rfl

theorem scriptOnStartup (sound : m.Sound) : (m.scriptOnStartup s).Sound := by
  unfold ScriptManager.scriptOnStartup
  cases called : m.callHandler s .onStartup .nothing with
  | none => exact sound.clearBit
  | some m' => exact sound.callHandler (r := .nothing) (fun _ _ _ => trivial) called

theorem loaded (sound : m.Sound) (free : s ∉ m.callers) {success : Bool} :
    (m.loaded s b success).Sound := by
  have listed : (m.addRunningScript s).Sound := sound.congr rfl rfl rfl rfl rfl
  cases success with
  | true =>
    simp only [ScriptManager.loaded, if_true]
    split
    · exact listed.scriptOnStartup
    · exact listed
  | false => exact (sound.scriptStop free).congr rfl rfl rfl rfl rfl

theorem eraseScript (sound : m.Sound) (dead : m.isLive s = false)
    (place : m.scriptTable[i]? = some s) : (m.eraseScript s i).Sound := by
  obtain ⟨inside, eq⟩ := List.getElem?_eq_some_iff.1 place
  have table : m.scriptTable.eraseIdx i = m.scriptTable.erase s := by
    rw [← eq, sound.nodup.erase_getElem]
  constructor
  · exact sound.opened
  · exact sound.nested
  · exact sound.nodup.eraseIdx i
  · intro t live
    have live : m.isLive t = true := live
    simp only [ScriptManager.eraseScript]
    rw [table, sound.nodup.mem_erase_iff]
    refine ⟨?_, sound.owned t live⟩
    rintro rfl
    exact absurd (dead.symm.trans live) (by decide)
  · intro t mem
    simp only [ScriptManager.eraseScript] at mem ⊢
    rw [table, sound.nodup.mem_erase_iff] at mem
    rw [Function.update_of_ne mem.1]
    exact sound.known t mem.2

theorem exited (sound : m.Sound) (free : s ∉ m.callers) {next : AfterStop}
    (place : ∀ i, next = .erase i → m.scriptTable[i]? = some s) : (m.exited s next).Sound := by
  have closed := sound.scriptStop free
  cases next with
  | done => exact closed
  | start => exact closed.startScript free
  | erase i =>
    refine closed.eraseScript ?_ (place i rfl)
    simp [isLive, ScriptManager.scriptStop]

theorem stopScript (sound : m.Sound) (free : s ∉ m.callers) {next : AfterStop}
    (place : ∀ i, next = .erase i → m.scriptTable[i]? = some s) :
    (m.stopScript s b next).Sound := by
  have removed : ((m.disable s b).removeRunningScript s).Sound := sound.congr rfl rfl rfl rfl rfl
  unfold ScriptManager.stopScript scriptOnExit
  split
  · cases called : ((m.disable s b).removeRunningScript s).callHandler s .onExit (.exit next) with
    | none => exact removed.clearBit.exited free place
    | some m' => exact removed.callHandler (fun _ => covers_of_free free) called
  · exact removed.exited free place

theorem moveScript (sound : m.Sound) : (m.moveScript i b).Sound := by
  have swapped : ∀ j, (m.swap i j).Sound := by
    intro j
    unfold ScriptManager.swap
    split
    · rename_i a c ha hc
      obtain ⟨hi, rfl⟩ := List.getElem?_eq_some_iff.1 ha
      obtain ⟨hj, rfl⟩ := List.getElem?_eq_some_iff.1 hc
      have perm := List.set_set_perm hi hj
      exact ⟨sound.opened, sound.nested, perm.nodup_iff.2 sound.nodup,
        fun t live => perm.mem_iff.2 (sound.owned t live),
        fun t mem => sound.known t (perm.mem_iff.1 mem)⟩
    · exact sound
  unfold ScriptManager.moveScript
  split
  · split
    · exact sound
    · exact (swapped _).congr rfl rfl rfl rfl rfl
  · split
    · exact sound
    · exact (swapped _).congr rfl rfl rfl rfl rfl

theorem prepareMove (sound : m.Sound) : (m.prepareMove L).Sound := by
  unfold ScriptManager.prepareMove
  split
  · exact sound
  · exact sound.congr rfl rfl rfl rfl rfl

theorem startLoop (sound : m.Sound) : (m.startLoop h).Sound :=
  push_loop (sound.congr rfl rfl rfl rfl rfl)

theorem stop (sound : m.Sound) (idle : m.callers = []) : m.stop.Sound where
  opened s L r mem := by
    have mem : s ∈ m.callers := mem_callers.2 ⟨L, r, mem⟩
    rw [idle] at mem
    cases mem
  nested := sound.nested
  nodup := sound.nodup
  owned t live := sound.owned t (isLive_stop.1 live).2
  known := sound.known

theorem start (sound : m.Sound) (idle : m.callers = []) : m.start.Sound := by
  refine sound.refresh.push (fun _ => nofun) ?_
  intro g mem
  rw [refresh_stack] at mem
  cases called : g.script? with
  | none => exact called
  | some s =>
    have mem : s ∈ m.callers := List.mem_filterMap.2 ⟨g, mem, called⟩
    rw [idle] at mem
    cases mem

theorem visit (sound : m.Sound) (top : m.stack = .loop l :: below) {rest : List Nat} :
    (m.visit l s rest below).Sound := by
  have skipped : ∀ l' : Loop, ({ m with stack := .loop l' :: below }).Sound :=
    fun _ => sound.top_loop top
  have marked : ∀ l' : Loop, ({ m with
      processed := Function.update m.processed s true
      stack := .loop l' :: below }).Sound := fun l' => (skipped l').congr rfl rfl rfl rfl rfl
  unfold ScriptManager.visit
  dsimp only
  split
  · cases called : ({ m with
        processed := Function.update m.processed s true
        stack := .loop { l with seen := l.seen ++ [s], rest, called := l.called ++ [s] } :: below } :
        ScriptManager).callHandler s l.handler .handler with
    | none => exact (marked _).clearBit
    | some m' => exact (marked _).callHandler (r := .handler) (fun _ _ _ => trivial) called
  · exact skipped _

theorem answered (sound : m.Sound) (top : m.stack = .loop l :: below) (a : Answer) :
    (m.answered l below a).Sound := by
  unfold ScriptManager.answered
  split
  · split
    · exact sound.top_loop top
    · exact (sound.top_loop top).startLoop
    · exact sound
  · exact sound

theorem scriptError (sound : m.Sound) (a : Answer) : (m.scriptError s a).Sound := by
  unfold ScriptManager.scriptError
  split
  · exact sound.congr rfl rfl rfl rfl rfl
  · exact sound

theorem ret (sound : m.Sound) (a : Answer) (defined : m.Defined (.ret a)) : (m.ret a).Sound := by
  unfold ScriptManager.ret
  split
  · rename_i top
    exact (sound.pop top).scriptError a
  · rename_i s L l below top
    exact answered ((sound.pop top).scriptError a) (scriptError_same.1) a
  · rename_i top
    exact (sound.pop top).loaded (sound.free_below top ⟨nofun, nofun⟩)
  · rename_i s L next below top
    refine exited ((sound.pop top).scriptError a) ?_ ?_
    · rw [callers, scriptError_same.1]
      exact sound.free_below top ⟨nofun, nofun⟩
    · rintro i rfl
      rw [scriptError_same.2]
      refine defined (s, i) ?_
      rw [erased, top]
      rfl
  · exact sound

theorem idle_below (sound : m.Sound) (top : m.stack = f :: below)
    (bottom : ∀ g, f.Covers g → g.script? = none) :
    ({ m with stack := below }).callers = [] := by
  have nested := sound.nested
  rw [top] at nested
  exact List.filterMap_eq_nil_iff.2 fun g mem => bottom g ((List.pairwise_cons.1 nested).1 g mem)

theorem go (sound : m.Sound) : m.go.Sound := by
  unfold ScriptManager.go
  split
  · rename_i l below top
    split
    · exact sound.visit top
    · exact sound.pop top
  · rename_i i n below top
    have idle := sound.idle_below top fun _ covers => covers
    have popped := sound.pop top
    split
    · exact popped
    · split
      · rename_i s place
        have next : ({ m with stack := .starting (i + 1) n :: below }).Sound := by
          refine popped.push (fun _ => nofun) fun g mem => ?_
          exact List.filterMap_eq_nil_iff.1 idle g mem
        dsimp only
        split
        · refine next.scriptStart (List.mem_of_getElem? place) ?_
          show s ∉ ({ m with stack := below }).callers
          rw [idle]
          exact List.not_mem_nil
        · exact next
      · exact popped
  · rename_i below top
    have idle := sound.idle_below top fun _ covers => covers
    have next : ({ m with stack := .restarting true :: below }).Sound := by
      refine (sound.pop top).push (fun _ => nofun) fun g mem => ?_
      exact List.filterMap_eq_nil_iff.1 idle g mem
    exact (next.stop idle).checkForDeletedScripts.start idle
  · rename_i below top
    exact (sound.pop top).startLoop
  · exact sound

theorem act (sound : m.Sound) {a : Act} (top : m.stack = .lua s L r :: below)
    (spared : ∀ t, m.stopped (.act a) = some t → t ∉ m.callers) : (m.act s L a).Sound := by
  -- a script that is not running is in no call
  have free : ∀ t, m.isLive t ≠ true → t ∉ m.callers := fun t dead mem =>
    dead (sound.live_of_caller mem)
  cases a with
  | define h isFunction => exact sound.congr rfl rfl rfl rfl rfl
  | move sName bUp =>
    unfold ScriptManager.act ScriptManager.move
    dsimp only
    split
    · exact sound.prepareMove.moveScript
    · exact sound
  | startScript sName =>
    unfold ScriptManager.act
    dsimp only
    split
    · split
      · split
        · exact sound
        · rename_i t _ dead
          exact sound.startScript (free t dead)
      · exact sound.addAndStart
    · exact sound
  | stopScript sName =>
    unfold ScriptManager.act
    dsimp only
    split
    · rename_i t found
      split
      · exact sound.congr rfl rfl rfl rfl rfl
      · rename_i other
        split
        · rename_i live
          exact sound.stopScript (spared t (stopped_of_found top found other live).1) nofun
        · exact sound
    · exact sound
  | restartScript sName =>
    unfold ScriptManager.act
    dsimp only
    split
    · rename_i t found
      split
      · exact sound.congr rfl rfl rfl rfl rfl
      · rename_i other
        split
        · rename_i live
          exact sound.stopScript (spared t (stopped_of_found top found other live).2) nofun
        · exact sound
    · exact sound
  | restart => exact sound.congr rfl rfl rfl rfl rfl
  | refresh => exact sound.refresh
  | dispatch h =>
    unfold ScriptManager.act
    dsimp only
    split
    · exact sound.startLoop
    · exact sound

theorem stopEnabled (sound : m.Sound) (idle : m.callers = []) {next : AfterStop}
    (stays : ∀ i, next ≠ .erase i) : (m.stopEnabled sName b next).Sound := by
  unfold ScriptManager.stopEnabled
  split
  · split
    · refine sound.stopScript (idle ▸ List.not_mem_nil) ?_
      intro i eq
      exact absurd eq (stays i)
    · exact sound
  · exact sound

theorem restart (sound : m.Sound) (idle : m.callers = []) : m.restart.Sound := by
  refine startLoop (sound.push (fun _ => nofun) fun g mem => ?_)
  exact List.filterMap_eq_nil_iff.1 idle g mem

theorem processEvent (sound : m.Sound) (idle : m.callers = []) (e : NormalEvent) :
    (m.processEvent e).Sound := by
  cases e with
  | rstScripts => exact sound.restart idle
  | rstScript sName => exact sound.stopEnabled idle nofun
  | stopScript sName => exact sound.stopEnabled idle nofun

theorem op (sound : m.Sound) (idle : m.callers = []) (o : Op) : (m.op o).Sound := by
  have free : ∀ t, t ∉ m.callers := fun t => idle ▸ List.not_mem_nil
  cases o with
  | dispatch h => exact sound.startLoop
  | timer s =>
    unfold ScriptManager.op
    dsimp only
    split
    · rename_i L live
      exact sound.push_lua live fun _ _ => trivial
    · exact sound
  | start => exact sound.start idle
  | stop => exact sound.stop idle
  | restart => exact sound.restart idle
  | refresh => exact sound.refresh
  | startScript sName =>
    unfold ScriptManager.op
    dsimp only
    split
    · split
      · split
        · exact sound
        · exact sound.startScript (free _)
      · exact sound.addAndStart
    · exact sound
  | stopScript sName => exact sound.stopEnabled idle nofun
  | restartScript sName => exact sound.stopEnabled idle nofun
  | moveScript i bUp =>
    unfold ScriptManager.op
    dsimp only
    split
    · exact sound.moveScript
    · exact sound
  | deleteScript i =>
    unfold ScriptManager.op
    dsimp only
    split
    · rename_i s place
      split
      · refine sound.stopScript (free s) ?_
        rintro _ ⟨⟩
        exact place
      · rename_i dead
        exact sound.eraseScript (Bool.eq_false_iff.2 dead) place
    · exact sound
  | processEvent =>
    unfold ScriptManager.op
    dsimp only
    split
    · rename_i e events _
      have rest : ({ m with normalEvents := events }).Sound := sound.congr rfl rfl rfl rfl rfl
      exact rest.processEvent idle e
    · exact sound
  | serverRunning b => exact sound.congr rfl rfl rfl rfl rfl

/-- The step lemma. -/
theorem step (sound : m.Sound) (e : Event) (safe : m.Safe e) : (m.step e).Sound := by
  cases e with
  | files files => exact sound.congr rfl rfl rfl rfl rfl
  | act a =>
    unfold ScriptManager.step
    dsimp only
    split
    · rename_i s L r below top
      split
      · exact sound.act top safe.2
      · exact sound
    · exact sound
  | ret a => exact sound.ret a safe.1
  | go => exact sound.go
  | op o =>
    unfold ScriptManager.step
    dsimp only
    split
    · rename_i none_
      refine sound.op ?_ o
      rw [callers, none_]
      rfl
    · exact sound

theorem load (files : List Text) (names : List (Text × Bool)) :
    (ScriptManager.load files names).Sound :=
  load_invariant Sound ⟨fun _ _ _ => nofun, .nil, .nil, fun _ => nofun, fun _ => nofun⟩
    fun sound added => sound.addScript added

/-- The run lemma. -/
theorem run {es : List Event} (sound : m.Sound)
    (safe : Allowed ScriptManager.step ScriptManager.Safe m es) :
    (Lib.run ScriptManager.step m es).Sound :=
  allowed_invariant Sound (fun _ e h ok => h.step e ok) sound safe

end Sound

end

/-! ## Runs -/

/-- In every run of safe steps the Lua states of all calls stay open. -/
theorem open_of_safe (files : List Text) (names : List (Text × Bool)) {es : List Event}
    (safe : Allowed step Safe (load files names) es) : (run step (load files names) es).Open :=
  ((Sound.load files names).run safe).freed

/-- Two scripts, which both run. The first one has a handler of chat messages, the second one
has `OnExit`. -/
def pair : List Event :=
  [.op .start, .go, .act (.define .chatArrival true), .ret .no, .go,
    .act (.define .onExit true), .ret .no, .go, .op (.serverRunning true)]

def pairFiles : List Text := [ascii "a.lua", ascii "b.lua"]

def pairNames : List (Text × Bool) := [(ascii "a.lua", true), (ascii "b.lua", true)]

/-- A script stops another one, which is called for the last time. -/
theorem open_pair :
    (run step (load pairFiles pairNames)
      (pair ++ [.op (.dispatch (.arrival 0)), .go, .act (.stopScript (ascii "b.lua")), .ret .no,
        .ret .no])).Open :=
  open_of_safe pairFiles pairNames (by decide +kernel)

/-- The one that is stopped stops the first one, whose call has not returned. -/
theorem closed_in_call :
    ¬∀ es, (run step (load pairFiles pairNames) es).Open := by
  intro all
  have opened := all (pair ++ [.op (.dispatch (.arrival 0)), .go,
    .act (.stopScript (ascii "b.lua")), .act (.stopScript (ascii "a.lua"))]) 0 0 .handler
    (by decide +kernel)
  exact absurd opened.1 (by decide +kernel)

end ScriptManager

end FlyHub.Scripts
