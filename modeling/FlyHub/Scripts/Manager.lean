import FlyHub.Lib.Run
import FlyHub.Text
import Mathlib.Data.List.Nodup
import Mathlib.Data.List.Sort
import Mathlib.Logic.Function.Basic

/-!
# The script manager

A script has a Lua state while it runs. The hub calls functions of scripts, and a script that
is called can start, stop and move scripts or make the hub call scripts again, so calls are
nested to any depth. The machine has the call stack in its state: calls into Lua states, with
what the hub does when they return, and loops of the hub that call one script after another.
Pointers to scripts and Lua states are numbers that are not used twice.
-/

namespace FlyHub.Scripts

open FlyHub.Lib

inductive UserKind
  | user | reg | op
  deriving DecidableEq

/-- The functions of scripts that have a bit in `m_ui16Functions` or `m_ui32DataArrivals`.
`OnError` belongs to the call that failed. -/
inductive Handler
  | onStartup
  | onExit
  | arrival (ui8Type : Fin 24)
  | connected (kind : UserKind)
  | disconnected (kind : UserKind)
  deriving DecidableEq

namespace Handler

/-- `CHAT_ARRIVAL`. -/
def chatArrival : Handler := arrival 0

/-- A script that returns true is the last one that is called. -/
def stops : Handler → Bool
  | arrival _ | connected _ => true
  | _ => false

/-- The handlers of `Arrival`, `UserConnected` and `UserDisconnected`. -/
def isEvent : Handler → Bool
  | onStartup | onExit => false
  | _ => true

end Handler

/-- What comes after `StopScript`: `RestartScript` starts the script again, `DeleteScript` takes
it out of the table. -/
inductive AfterStop
  | done
  | start
  | erase (ui8ScriptPosInTbl : Nat)
  deriving DecidableEq

/-- What is left to do when a call into a Lua state returns. Load-time code is called by
`StartScript` or by `Start`. -/
inductive Rest
  | nothing
  | handler
  | load (byStartScript : Bool)
  | exit (next : AfterStop)
  deriving DecidableEq

/-- A loop over a snapshot of the running list. `seen` and `called` tell what it did so far. -/
structure Loop where
  handler : Handler
  seen : List Nat
  rest : List Nat
  called : List Nat
  stopped : Bool
  deriving DecidableEq

inductive Frame
  | lua (s L : Nat) (rest : Rest)
  | loop (l : Loop)
  /-- The loop of `Start`, with its position in the table and the end it has looked up. -/
  | starting (i n : Nat)
  /-- `Restart`, before `Stop` or before `OnStartup`. -/
  | restarting (started : Bool)
  deriving DecidableEq

/-- Events of the queue that are about scripts. -/
inductive NormalEvent
  | rstScripts
  | rstScript (sName : Text)
  | stopScript (sName : Text)
  deriving DecidableEq

/-- The manager, the fields of the scripts by their pointers, and what surrounds it: the files in
the directory of the scripts, the events in the queue and the call stack. `globals` says which
handlers a Lua state has, and `overwritten` whether one was lost by starting its script again. -/
structure ScriptManager where
  sName : Nat → Text
  enabled : Nat → Bool
  pLua : Nat → Option Nat
  functions : Nat → Handler → Bool
  processed : Nat → Bool
  globals : Nat → Handler → Bool
  freed : Nat → Bool
  scriptTable : List Nat
  runningScriptList : List Nat
  moved : Bool
  serverRunning : Bool
  files : List Text
  normalEvents : List NormalEvent
  nextScript : Nat
  nextLua : Nat
  overwritten : Bool
  stack : List Frame

namespace ScriptManager

variable (m : ScriptManager)

def isLive (s : Nat) : Bool := (m.pLua s).isSome

/-! ## The table and the running list -/

def findScript (sName : Text) : Option Nat :=
  m.scriptTable.find? fun s => iequals (m.sName s) sName

def findScriptIdx (sName : Text) : Nat :=
  m.scriptTable.findIdx fun s => iequals (m.sName s) sName

/-- `AddScript`. The new script has the last place in the table. -/
def addScript (sName : Text) (bEnabled : Bool) : Option ScriptManager :=
  if m.scriptTable.length % 256 = 254 then none
  else
    let s := m.nextScript
    some { m with
      sName := Function.update m.sName s sName
      enabled := Function.update m.enabled s bEnabled
      pLua := Function.update m.pLua s none
      functions := Function.update m.functions s fun _ => true
      processed := Function.update m.processed s false
      globals := Function.update m.globals s fun _ => false
      freed := Function.update m.freed s false
      scriptTable := m.scriptTable ++ [s]
      nextScript := s + 1 }

/-- The position of a script as an `uint8_t`, which is 0 for one that is not in the table. -/
def position (s : Nat) : Nat :=
  if s ∈ m.scriptTable then m.scriptTable.idxOf s % 256 else 0

def addRunningScript (s : Nat) : ScriptManager :=
  { m with runningScriptList :=
      m.runningScriptList.orderedInsert (fun a b => m.position a < m.position b) s }

def removeRunningScript (s : Nat) : ScriptManager :=
  { m with runningScriptList := m.runningScriptList.erase s }

def rebuildRunningList : ScriptManager :=
  { m with runningScriptList := m.scriptTable.filter m.isLive }

/-- `std::swap` of two entries of the table. -/
def swap (i j : Nat) : ScriptManager :=
  match m.scriptTable[i]?, m.scriptTable[j]? with
  | some a, some b => { m with scriptTable := (m.scriptTable.set i b).set j a }
  | _, _ => m

def moveScript (i : Nat) (bUp : Bool) : ScriptManager :=
  if bUp then
    if i = 0 then m else (m.swap i (i - 1)).rebuildRunningList
  else
    if i = m.scriptTable.length - 1 then m else (m.swap i (i + 1)).rebuildRunningList

/-- The loop of `PrepareMove`: the scripts up to the one with the Lua state have been
processed, those after it have not. -/
def marks (pLua : Nat → Option Nat) (L : Nat) : List Nat → Bool → (Nat → Bool) → Nat → Bool
  | [], _, processed => processed
  | s :: cur, bBefore, processed =>
    marks pLua L cur (bBefore && pLua s ≠ some L) (Function.update processed s bBefore)

def prepareMove (L : Nat) : ScriptManager :=
  if m.moved then m
  else { m with
    moved := true
    processed := marks m.pLua L m.runningScriptList true m.processed }

/-! ## The files -/

/-- A script whose file is there, or that runs, stays in the table. -/
def kept (s : Nat) : Bool := m.sName s ∈ m.files || m.isLive s

def checkForDeletedScripts : ScriptManager :=
  { m with
    scriptTable := m.scriptTable.filter m.kept
    freed := fun s => m.freed s || (s ∈ m.scriptTable && !m.kept s) }

/-- The name ends with `.lua`. -/
def isScriptName (name : Text) : Bool := iequals (name.drop (name.length - 4)) (ascii ".lua")

def checkForNewScripts : ScriptManager :=
  (m.files.filter isScriptName).foldl (fun m name =>
    if (m.findScript name).isSome then m else (m.addScript name false).getD m) m

def refresh : ScriptManager := m.checkForDeletedScripts.checkForNewScripts

/-! ## Starting and stopping -/

def push (f : Frame) : ScriptManager := { m with stack := f :: m.stack }

/-- `ScriptStart` up to the call of the file. -/
def scriptStart (s : Nat) (byStartScript : Bool) : ScriptManager :=
  { m with
    functions := Function.update m.functions s fun _ => true
    pLua := Function.update m.pLua s (some m.nextLua)
    globals := Function.update m.globals s fun _ => false
    nextLua := m.nextLua + 1
    overwritten := m.overwritten || m.isLive s
    stack := .lua s m.nextLua (.load byStartScript) :: m.stack }

def scriptStop (s : Nat) : ScriptManager := { m with pLua := Function.update m.pLua s none }

/-- The bit of a function that is not there. -/
def clearBit (s : Nat) (h : Handler) : ScriptManager :=
  { m with functions := Function.update m.functions s (Function.update (m.functions s) h false) }

/-- A call of a function of a running script. One that is not there loses its bit. -/
def callHandler (s : Nat) (h : Handler) (rest : Rest) : Option ScriptManager :=
  match m.pLua s with
  | some L => if m.globals s h then some (m.push (.lua s L rest)) else none
  | none => none

def scriptOnStartup (s : Nat) : ScriptManager :=
  (m.callHandler s .onStartup .nothing).getD (m.clearBit s .onStartup)

/-- The rest of `ScriptStart` and of its caller, after the file has run. -/
def loaded (s : Nat) (byStartScript success : Bool) : ScriptManager :=
  if success then
    if byStartScript && m.serverRunning then (m.addRunningScript s).scriptOnStartup s
    else m.addRunningScript s
  else { m.scriptStop s with enabled := Function.update m.enabled s false }

def enable (s : Nat) (bEnable : Bool) : ScriptManager :=
  { m with enabled := Function.update m.enabled s (m.enabled s || bEnable) }

def startScript (s : Nat) (bEnable : Bool) : ScriptManager :=
  if s ∈ m.scriptTable then (m.enable s bEnable).scriptStart s true else m

/-- The rest of `DeleteScript`, after `StopScript`. -/
def eraseScript (s i : Nat) : ScriptManager :=
  { m with
    files := m.files.filter (· ≠ m.sName s)
    freed := Function.update m.freed s true
    scriptTable := m.scriptTable.eraseIdx i }

/-- The rest of `StopScript` and of its caller, after `OnExit`. -/
def exited (s : Nat) : AfterStop → ScriptManager
  | .done => m.scriptStop s
  | .start => (m.scriptStop s).startScript s false
  | .erase i => (m.scriptStop s).eraseScript s i

/-- `ScriptOnExit` of a hub that runs, and what comes after it. -/
def scriptOnExit (s : Nat) (next : AfterStop) : ScriptManager :=
  if m.serverRunning then
    (m.callHandler s .onExit (.exit next)).getD ((m.clearBit s .onExit).exited s next)
  else m.exited s next

def disable (s : Nat) (bDisable : Bool) : ScriptManager :=
  { m with enabled := Function.update m.enabled s (m.enabled s && !bDisable) }

def stopScript (s : Nat) (bDisable : Bool) (next : AfterStop) : ScriptManager :=
  ((m.disable s bDisable).removeRunningScript s).scriptOnExit s next

def stop : ScriptManager :=
  { m with
    pLua := fun s => if s ∈ m.runningScriptList then none else m.pLua s
    runningScriptList := [] }

/-- `Start` up to its loop. -/
def start : ScriptManager := m.refresh.push (.starting 0 m.refresh.scriptTable.length)

/-! ## Calling one script after another -/

def startLoop (h : Handler) : ScriptManager :=
  { m with moved := false }.push (.loop ⟨h, [], m.runningScriptList, [], false⟩)

/-- The next script of a loop. -/
def visit (l : Loop) (s : Nat) (rest : List Nat) (below : List Frame) : ScriptManager :=
  let l := { l with seen := l.seen ++ [s], rest := rest }
  let skip := { m with stack := .loop l :: below }
  if m.isLive s && m.functions s l.handler && !(m.moved && m.processed s) then
    let called := { l with called := l.called ++ [s] }
    ({ m with
        processed := Function.update m.processed s true
        stack := .loop called :: below }.callHandler s l.handler .handler).getD
      ({ skip with processed := Function.update m.processed s true }.clearBit s l.handler)
  else skip

/-- How a call ends: with an error, after which the script may be stopped, or with a value.
The value true means that the script has dealt with the event; a loop of `UserConnected` needs to
know what the user is by then. -/
inductive Answer
  | error (stop : Bool)
  | no
  | yes (kind : UserKind)
  deriving DecidableEq

def Answer.succeeds : Answer → Bool
  | error _ => false
  | _ => true

/-- `ScriptError`. The script is stopped later. -/
def scriptError (s : Nat) : Answer → ScriptManager
  | .error true => { m with normalEvents := m.normalEvents ++ [.stopScript (m.sName s)] }
  | _ => m

/-- A loop gets the answer of the script it has called. -/
def answered (l : Loop) (below : List Frame) : Answer → ScriptManager
  | .yes kind =>
    match l.handler with
    | .arrival _ => { m with stack := .loop { l with stopped := true } :: below }
    | .connected _ =>
      { m with stack := .loop { l with stopped := true } :: below }.startLoop (.disconnected kind)
    | _ => m
  | _ => m

/-- The last call returns. -/
def ret (a : Answer) : ScriptManager :=
  match m.stack with
  | .lua s _ .nothing :: below => ({ m with stack := below }).scriptError s a
  | .lua s _ .handler :: .loop l :: below =>
    (({ m with stack := .loop l :: below }).scriptError s a).answered l below a
  | .lua s _ (.load byStartScript) :: below =>
    ({ m with stack := below }).loaded s byStartScript a.succeeds
  | .lua s _ (.exit next) :: below => (({ m with stack := below }).scriptError s a).exited s next
  | _ => m

/-- The hub goes on where it is. -/
def go : ScriptManager :=
  match m.stack with
  | .loop l :: below =>
    match l.stopped, l.rest with
    | false, s :: rest => m.visit l s rest below
    | _, _ => { m with stack := below }
  | .starting i n :: below =>
    if i = n then { m with stack := below }
    else
      match m.scriptTable[i]? with
      | some s =>
        let m := { m with stack := .starting (i + 1) n :: below }
        if m.enabled s then m.scriptStart s false else m
      | none => { m with stack := below }
  | .restarting false :: below =>
    ({ m with stack := .restarting true :: below }.stop).checkForDeletedScripts.start
  | .restarting true :: below => { m with stack := below }.startLoop .onStartup
  | _ => m

/-! ## What scripts do -/

inductive Act
  | define (h : Handler) (isFunction : Bool)
  | move (sName : Text) (bUp : Bool)
  | startScript (sName : Text)
  | stopScript (sName : Text)
  | restartScript (sName : Text)
  | restart
  | refresh
  | dispatch (h : Handler)
  deriving DecidableEq

/-- An empty name is refused. -/
def Act.named : Act → Bool
  | move sName _ | startScript sName | stopScript sName | restartScript sName => sName ≠ []
  | _ => true

/-- `MoveUp` or `MoveDown` has something to move. -/
def Moves (sName : Text) (bUp : Bool) : Prop :=
  let i := m.findScriptIdx sName
  i ≠ m.scriptTable.length ∧ (bUp → i ≠ 0) ∧ (!bUp → i ≠ m.scriptTable.length - 1)

instance (sName : Text) (bUp : Bool) : Decidable (m.Moves sName bUp) :=
  inferInstanceAs (Decidable (_ ∧ _ ∧ _))

def move (L : Nat) (sName : Text) (bUp : Bool) : ScriptManager :=
  if m.Moves sName bUp then (m.prepareMove L).moveScript (m.findScriptIdx sName) bUp else m

/-- `StartScript` of a name that is not in the table. -/
def addAndStart (sName : Text) : ScriptManager :=
  match m.addScript sName true with
  | some m' => m'.startScript m.nextScript false
  | none => m

/-- What a script that runs as `s` in the Lua state `L` does. It is not stopped or restarted
by its own call but later. -/
def act (s L : Nat) : Act → ScriptManager
  | .define h isFunction =>
    let globals := Function.update (m.globals s) h isFunction
    { m with globals := Function.update m.globals s globals }
  | .move sName bUp => m.move L sName bUp
  | .startScript sName =>
    if sName ∈ m.files then
      match m.findScript sName with
      | some t => if m.isLive t then m else m.startScript t true
      | none => m.addAndStart sName
    else m
  | .stopScript sName =>
    match m.findScript sName with
    | some t =>
      if m.pLua t = some L then
        { m with normalEvents := m.normalEvents ++ [.stopScript (m.sName t)] }
      else if m.isLive t then m.stopScript t true .done else m
    | none => m
  | .restartScript sName =>
    match m.findScript sName with
    | some t =>
      if m.pLua t = some L then
        { m with normalEvents := m.normalEvents ++ [.rstScript (m.sName t)] }
      else if m.isLive t then m.stopScript t false .start else m
    | none => m
  | .restart => { m with normalEvents := m.normalEvents ++ [.rstScripts] }
  | .refresh => m.refresh
  | .dispatch h => if h.isEvent then m.startLoop h else m

/-! ## What the hub does -/

inductive Op
  | dispatch (h : Handler)
  | timer (s : Nat)
  | start
  | stop
  | restart
  | refresh
  | startScript (sName : Text)
  | stopScript (sName : Text)
  | restartScript (sName : Text)
  | moveScript (i : Nat) (bUp : Bool)
  | deleteScript (i : Nat)
  | processEvent
  | serverRunning (b : Bool)
  deriving DecidableEq

def restart : ScriptManager := (m.push (.restarting false)).startLoop .onExit

/-- A command of the hub or an event of its queue stops or restarts a script. -/
def stopEnabled (sName : Text) (bDisable : Bool) (next : AfterStop) : ScriptManager :=
  match m.findScript sName with
  | some s => if m.enabled s && m.isLive s then m.stopScript s bDisable next else m
  | none => m

def processEvent : NormalEvent → ScriptManager
  | .rstScripts => m.restart
  | .rstScript sName => m.stopEnabled sName false .start
  | .stopScript sName => m.stopEnabled sName true .done

def op : Op → ScriptManager
  | .dispatch h => m.startLoop h
  | .timer s =>
    match m.pLua s with
    | some L => m.push (.lua s L .nothing)
    | none => m
  | .start => m.start
  | .stop => m.stop
  | .restart => m.restart
  | .refresh => m.refresh
  | .startScript sName =>
    if sName ∈ m.files then
      match m.findScript sName with
      | some s => if m.enabled s && m.isLive s then m else m.startScript s true
      | none => m.addAndStart sName
    else m
  | .stopScript sName => m.stopEnabled sName true .done
  | .restartScript sName => m.stopEnabled sName false .start
  | .moveScript i bUp => if i < m.scriptTable.length then m.moveScript i bUp else m
  | .deleteScript i =>
    match m.scriptTable[i]? with
    | some s => if m.isLive s then m.stopScript s false (.erase i) else m.eraseScript s i
    | none => m
  | .processEvent =>
    match m.normalEvents with
    | e :: events => { m with normalEvents := events }.processEvent e
    | [] => m
  | .serverRunning b => { m with serverRunning := b }

/-! ## Runs -/

/-- A script acts or returns while its call is the last one; the hub goes on or begins something
new when no script is in its way. Files come and go at any time. -/
inductive Event
  | files (files : List Text)
  | act (a : Act)
  | ret (a : Answer)
  | go
  | op (o : Op)

def step : Event → ScriptManager
  | .files files => { m with files := files }
  | .act a =>
    match m.stack with
    | .lua s L _ :: _ => if a.named then m.act s L a else m
    | _ => m
  | .ret a => m.ret a
  | .go => m.go
  | .op o => if m.stack = [] then m.op o else m

/-- A manager without scripts. -/
def empty (files : List Text) : ScriptManager where
  sName _ := []
  enabled _ := false
  pLua _ := none
  functions _ _ := true
  processed _ := false
  globals _ _ := false
  freed _ := false
  scriptTable := []
  runningScriptList := []
  moved := false
  serverRunning := false
  files := files
  normalEvents := []
  nextScript := 0
  nextLua := 0
  overwritten := false
  stack := []

/-- The manager after it has read the names in `Scripts.pxt`. -/
def load (files : List Text) (names : List (Text × Bool)) : ScriptManager :=
  names.foldl (fun m (sName, bEnabled) =>
    if sName ∈ m.files ∧ m.findScript sName = none then (m.addScript sName bEnabled).getD m
    else m) (empty files)

end ScriptManager

end FlyHub.Scripts
