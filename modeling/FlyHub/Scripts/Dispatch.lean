import FlyHub.Scripts.Calls
import Mathlib.Data.List.Infix

/-!
# Events for every script

The hub calls the scripts of a snapshot of the running list. A script that moves scripts marks
those that come before and after it in the running list, and a loop leaves out those that are
marked as processed. The marks belong to no loop: one that is nested in another can leave marks
that make the outer one pass over scripts it has not called.
-/

namespace FlyHub.Scripts

open FlyHub.Lib

def Frame.isHandler : Frame → Bool
  | lua _ _ .handler => true
  | _ => false

/-- What a loop makes of the script it comes to. -/
def Loop.after (l : Loop) (s : Nat) (rest : List Nat) (called : Bool) : Loop :=
  { l with
    seen := l.seen ++ [s]
    rest := rest
    called := if called then l.called ++ [s] else l.called }

namespace ScriptManager

section
variable (m : ScriptManager)

/-- A script runs and has a handler. -/
def Has (h : Handler) (s : Nat) : Prop := m.isLive s = true ∧ m.globals s h = true

/-- The bit of a handler is set, and the script is not marked as processed since a move. -/
def Calls (h : Handler) (s : Nat) : Prop :=
  m.functions s h = true ∧ ¬(m.moved = true ∧ m.processed s = true)

/-- The handler that a loop calls and the script it comes to. -/
def visits : Option (Handler × Nat) :=
  match m.stack with
  | .loop l :: _ => if l.stopped then none else l.rest.head?.map fun s => (l.handler, s)
  | _ => none

/-- A loop that comes to a script with the handler finds its bit set and no mark. -/
def Heeds : Event → Prop
  | .go => ∀ p ∈ m.visits, m.Has p.1 p.2 → m.Calls p.1 p.2
  | _ => True

instance (h : Handler) (s : Nat) : Decidable (m.Has h s) := inferInstanceAs (Decidable (_ ∧ _))

instance (h : Handler) (s : Nat) : Decidable (m.Calls h s) :=
  inferInstanceAs (Decidable (_ ∧ ¬(_ ∧ _)))

instance : ∀ e, Decidable (m.Heeds e)
  | .go => inferInstanceAs (Decidable (∀ p ∈ m.visits, _ → _))
  | .files _ | .act _ | .ret _ | .op _ => inferInstanceAs (Decidable True)

/-- What is above `below` on the stack. The lowest frame is no call of a handler, which lies on its
loop. -/
def Grows (below : List Frame) : Prop :=
  ∃ above, m.stack = above ++ below ∧ ∀ f ∈ above.getLast?, f.isHandler = false

end

/-- The events of a dispatch: the loop lies on `below` until it is at its end. -/
structure Dispatch (m : ScriptManager) (h : Handler) (below : List Frame) (during : List Event)
    (l : Loop) : Prop where
  begins : m.stack = .loop ⟨h, [], m.runningScriptList, [], false⟩ :: below
  within : ∀ pre, pre <+: during → below.length < (run step m pre).stack.length
  ends : (run step m during).stack = .loop l :: below
  last : (run step m during).next = none

/-- The handler of a script returns true to the loop that lies on `below`. -/
def ReturnsTrue (m : ScriptManager) (below : List Frame) (during : List Event) (x : Nat) : Prop :=
  ∃ pre kind L l, pre ++ [.ret (.yes kind)] <+: during ∧
    (run step m pre).stack = .lua x L .handler :: .loop l :: below

/-- Scripts are called in the order of the running list, and every script that runs and has the
handler all the time is called once if none before it returns true. -/
def CalledOnce (m : ScriptManager) (h : Handler) (below : List Frame) (during : List Event)
    (l : Loop) : Prop :=
  l.called.Sublist m.runningScriptList ∧
    ∀ c ∈ m.runningScriptList, (∀ pre, pre <+: during → (run step m pre).Has h c) →
      l.called.count c = 1 ∨
        h.stops = true ∧ ∃ x, [x, c].Sublist m.runningScriptList ∧ m.ReturnsTrue below during x

section
variable {m m' : ScriptManager} {s t L i : Nat} {r : Rest} {f : Frame} {l : Loop}
  {above below rest : List Frame} {h : Handler} {sName : Text} {b : Bool} {e : Event}

/-! ## What lies on the stack stays there -/

namespace Grows

theorem same (eq : m.stack = below) : m.Grows below := ⟨[], eq, nofun⟩

theorem congr (grows : m.Grows below) (stack : m'.stack = m.stack) : m'.Grows below := by
  obtain ⟨above, eq, low⟩ := grows
  exact ⟨above, stack.trans eq, low⟩

theorem push (grows : m.Grows below) (plain : f.isHandler = false) : (m.push f).Grows below := by
  obtain ⟨above, eq, low⟩ := grows
  refine ⟨f :: above, congrArg (f :: ·) eq, ?_⟩
  intro g mem
  cases above with
  | nil =>
    cases mem
    exact plain
  | cons g' above => exact low g mem

theorem clearBit (grows : m.Grows below) : (m.clearBit s h).Grows below := grows.congr rfl

theorem callHandler (grows : m.Grows below) (plain : r ≠ .handler)
    (called : m.callHandler s h r = some m') : m'.Grows below := by
  obtain ⟨L, -, -, rfl⟩ := callHandler_some called
  apply grows.push
  cases r with
  | handler => exact absurd rfl plain
  | _ => rfl

theorem scriptOnStartup (grows : m.Grows below) : (m.scriptOnStartup s).Grows below := by
  unfold ScriptManager.scriptOnStartup
  cases called : m.callHandler s .onStartup .nothing with
  | none => exact grows.congr rfl
  | some m' => exact grows.callHandler (r := .nothing) nofun called

theorem loaded (grows : m.Grows below) {success : Bool} : (m.loaded s b success).Grows below := by
  have listed : (m.addRunningScript s).Grows below := grows.congr rfl
  cases success with
  | true =>
    simp only [ScriptManager.loaded, if_true]
    split
    · exact listed.scriptOnStartup
    · exact listed
  | false => exact grows.congr rfl

theorem scriptStart (grows : m.Grows below) : (m.scriptStart s b).Grows below :=
  (grows.push (f := .lua s m.nextLua (.load b)) rfl).congr rfl

theorem startScript (grows : m.Grows below) : (m.startScript s b).Grows below := by
  unfold ScriptManager.startScript
  split
  · exact scriptStart (grows.congr rfl)
  · exact grows

theorem addAndStart (grows : m.Grows below) : (m.addAndStart sName).Grows below := by
  unfold ScriptManager.addAndStart
  split
  · rename_i m' added
    exact startScript (grows.congr (addScript_some added).2.2.2.2)
  · exact grows

theorem exited (grows : m.Grows below) {next : AfterStop} : (m.exited s next).Grows below := by
  cases next with
  | done => exact grows.congr rfl
  | start => exact startScript (grows.congr rfl)
  | erase i => exact grows.congr rfl

theorem stopScript (grows : m.Grows below) {next : AfterStop} :
    (m.stopScript s b next).Grows below := by
  have out : ((m.disable s b).removeRunningScript s).Grows below := grows.congr rfl
  unfold ScriptManager.stopScript scriptOnExit
  split
  · cases called : ((m.disable s b).removeRunningScript s).callHandler s .onExit (.exit next) with
    | none => exact out.clearBit.exited
    | some m' => exact out.callHandler (r := .exit next) nofun called
  · exact out.exited

theorem moveScript (grows : m.Grows below) : (m.moveScript i b).Grows below := by
  have moved : ∀ j, ((m.swap i j).rebuildRunningList).Grows below := by
    intro j
    unfold swap
    split
    · exact grows.congr rfl
    · exact grows.congr rfl
  unfold ScriptManager.moveScript
  split
  · split
    · exact grows
    · exact moved _
  · split
    · exact grows
    · exact moved _

theorem move (grows : m.Grows below) : (m.move L sName b).Grows below := by
  unfold ScriptManager.move prepareMove
  split
  · split
    · exact grows.moveScript
    · exact moveScript (grows.congr rfl)
  · exact grows

theorem startLoop (grows : m.Grows below) : (m.startLoop h).Grows below :=
  push (grows.congr rfl) rfl

theorem refresh (grows : m.Grows below) : m.refresh.Grows below := grows.congr refresh_stack

theorem start (grows : m.Grows below) : m.start.Grows below := grows.refresh.push rfl

theorem act (grows : m.Grows below) (a : Act) : (m.act s L a).Grows below := by
  cases a with
  | define h isFunction => exact grows.congr rfl
  | move sName bUp => exact grows.move
  | startScript sName =>
    unfold ScriptManager.act
    dsimp only
    split
    · split
      · split
        · exact grows
        · exact grows.startScript
      · exact grows.addAndStart
    · exact grows
  | stopScript sName | restartScript sName =>
    unfold ScriptManager.act
    dsimp only
    split
    · split
      · exact grows.congr rfl
      · split
        · exact grows.stopScript
        · exact grows
    · exact grows
  | restart => exact grows.congr rfl
  | refresh => exact grows.refresh
  | dispatch h =>
    unfold ScriptManager.act
    dsimp only
    split
    · exact grows.startLoop
    · exact grows

end Grows

/-- The part of the stack above a loop. Its lowest frame is the call that was there before, or no
call of a handler. -/
def Rests (m : ScriptManager) (above below : List Frame) : Prop :=
  ∃ above', m.stack = above' ++ below ∧
    ∀ f ∈ above'.getLast?, f.isHandler = true → above.getLast? = some f

namespace Grows

/-- What was above stays there. -/
theorem rests (grows : m.Grows (above ++ below)) (some_ : above ≠ []) : m.Rests above below := by
  obtain ⟨new, stack, -⟩ := grows
  refine ⟨new ++ above, stack.trans (List.append_assoc ..).symm, ?_⟩
  intro f mem _
  rwa [List.getLast?_append_of_ne_nil _ some_] at mem

/-- The last frame is gone. -/
theorem rests_cons (grows : m.Grows (above ++ below)) : m.Rests (f :: above) below := by
  by_cases none_ : above = []
  · subst none_
    obtain ⟨new, stack, low⟩ := grows
    refine ⟨new, stack, ?_⟩
    intro g mem call
    exact absurd ((low g mem).symm.trans call) (by decide)
  · obtain ⟨new, stack, low⟩ := grows
    refine ⟨new ++ above, stack.trans (List.append_assoc ..).symm, ?_⟩
    intro g mem _
    rw [List.getLast?_append_of_ne_nil _ none_] at mem
    rwa [List.getLast?_cons_of_ne_nil none_]

end Grows

/-! ## What a step does to a loop -/

theorem visit_stack (next : List Nat) :
    (∃ L, (m.visit l s next below).stack =
        .lua s L .handler :: .loop (l.after s next true) :: below) ∨
      (m.visit l s next below).stack = .loop (l.after s next false) :: below ∧
        ¬(m.Has l.handler s ∧ m.Calls l.handler s) := by
  unfold visit
  dsimp only
  split
  · rename_i marked
    simp only [Bool.and_eq_true, Bool.not_eq_true', Bool.and_eq_false_iff] at marked
    cases called : ({ m with
        processed := Function.update m.processed s true
        stack := .loop { l with seen := l.seen ++ [s], rest := next, called := l.called ++ [s] } ::
          below } : ScriptManager).callHandler s l.handler .handler with
    | none =>
      right
      refine ⟨rfl, ?_⟩
      rintro ⟨⟨live, has⟩, -⟩
      obtain ⟨L, live⟩ := isLive_iff.1 live
      simp [callHandler, live, has] at called
    | some m' =>
      left
      obtain ⟨L, -, -, rfl⟩ := callHandler_some called
      exact ⟨L, rfl⟩
  · rename_i skipped
    right
    refine ⟨rfl, ?_⟩
    rintro ⟨⟨live, -⟩, bit, unmarked⟩
    apply skipped
    simp only [live, bit, Bool.true_and, Bool.not_eq_true', Bool.and_eq_false_iff]
    grind

theorem scriptError_stack {a : Answer} : (m.scriptError s a).stack = m.stack := scriptError_same.1

theorem rests_same (eq : m.stack = above ++ below) : m.Rests above below :=
  ⟨above, eq, fun _ mem _ => mem⟩

/-- The lowest frame above is no loop if it is a handler, so it stays when loops change. -/
theorem last_handler {new : List Frame} {l' l₂ : Loop} {g : Frame}
    (mem : g ∈ (new ++ .loop l₂ :: above).getLast?) (call : g.isHandler = true)
    (old : List Frame) : (old ++ .loop l' :: above).getLast? = some g := by
  rw [List.getLast?_append_of_ne_nil _ (List.cons_ne_nil _ _)] at mem ⊢
  cases above with
  | nil =>
    cases mem
    cases call
  | cons g' above =>
    rw [List.getLast?_cons_of_ne_nil (List.cons_ne_nil _ _)] at mem ⊢
    exact mem

/-- A loop gets an answer, and one that is further down the stack stays as it is. -/
theorem rests_answered {l' : Loop} {a : Answer}
    (eq : m.stack = .loop l' :: (above ++ below)) :
    (m.answered l' (above ++ below) a).Rests (f :: .loop l' :: above) below := by
  have low : ∀ new : List Frame, ∀ l₂, ∀ g ∈ (new ++ .loop l₂ :: above).getLast?,
      g.isHandler = true → (f :: .loop l' :: above).getLast? = some g :=
    fun _ _ _ mem call => last_handler mem call [f]
  unfold answered
  split
  · split
    · exact ⟨.loop { l' with stopped := true } :: above, rfl, low [] _⟩
    · exact ⟨[_] ++ .loop { l' with stopped := true } :: above, rfl, low [_] _⟩
    · exact ⟨.loop l' :: above, eq, low [] _⟩
  · exact ⟨.loop l' :: above, eq, low [] _⟩

theorem ret_loop (stack : m.stack = above ++ .loop l :: below) (a : Answer) :
    (m.ret a).Rests above (.loop l :: below) ∨
      ∃ x L kind, above = [.lua x L .handler] ∧ a = .yes kind ∧ l.handler.stops = true ∧
        (m.ret a).Grows (.loop { l with stopped := true } :: below) := by
  rcases above with _ | ⟨f, above⟩
  · left
    rw [ret, stack]
    exact rests_same stack
  cases f with
  | lua s L r =>
    rw [ret, stack]
    cases r with
    | nothing =>
      left
      exact Grows.rests_cons (Grows.same scriptError_stack)
    | handler =>
      rcases above with _ | ⟨g, above⟩
      · cases a with
        | error stop =>
          left
          exact ⟨[], scriptError_stack, nofun⟩
        | no =>
          left
          exact ⟨[], rfl, nofun⟩
        | yes kind =>
          cases handler : l.handler with
          | arrival ui8Type =>
            right
            refine ⟨s, L, kind, rfl, rfl, rfl, ?_⟩
            simp only [List.cons_append, List.nil_append, answered, handler]
            exact Grows.same rfl
          | connected k =>
            right
            refine ⟨s, L, kind, rfl, rfl, rfl, ?_⟩
            simp only [List.cons_append, List.nil_append, answered, handler]
            exact Grows.startLoop (Grows.same rfl)
          | onStartup | onExit | disconnected k =>
            left
            simp only [List.cons_append, List.nil_append, answered, handler]
            exact ⟨[], scriptError_stack, nofun⟩
      · cases g with
        | loop l' =>
          left
          exact rests_answered scriptError_stack
        | lua t L' r' | starting i n | restarting b =>
          left
          exact rests_same stack
    | load b =>
      left
      exact Grows.rests_cons (Grows.loaded (Grows.same rfl))
    | exit next =>
      left
      exact Grows.rests_cons (Grows.exited (Grows.same scriptError_stack))
  | loop l' | starting i n | restarting b =>
    left
    rw [ret, stack]
    exact rests_same stack

theorem go_loop (stack : m.stack = above ++ .loop l :: below) (some_ : above ≠ []) :
    m.go.Rests above (.loop l :: below) := by
  rcases above with _ | ⟨f, above⟩
  · exact absurd rfl some_
  rw [go, stack]
  cases f with
  | lua s L r => exact rests_same stack
  | loop l' =>
    have low : ∀ l₂ new, ∀ g ∈ (new ++ .loop l₂ :: above).getLast?, g.isHandler = true →
        (Frame.loop l' :: above).getLast? = some g :=
      fun _ _ _ mem call => last_handler mem call []
    simp only [List.cons_append]
    split
    · rename_i s next _ _
      rcases @visit_stack m s l' (above ++ .loop l :: below) next with ⟨L, visited⟩ | ⟨visited, -⟩
      · exact ⟨[_] ++ .loop (l'.after s next true) :: above, visited, low _ [_]⟩
      · exact ⟨.loop (l'.after s next false) :: above, visited, low _ []⟩
    · exact Grows.rests_cons (Grows.same rfl)
  | starting i n =>
    have popped : ({ m with stack := above ++ Frame.loop l :: below }).Grows
        (above ++ Frame.loop l :: below) := Grows.same rfl
    simp only [List.cons_append]
    split
    · exact popped.rests_cons
    · split
      · rename_i s place
        have next : ({ m with stack := .starting (i + 1) n :: (above ++ Frame.loop l :: below) }).Grows
            (above ++ Frame.loop l :: below) := popped.push rfl
        split
        · exact next.scriptStart.rests_cons
        · exact next.rests_cons
      · exact popped.rests_cons
  | restarting started =>
    have popped : ({ m with stack := above ++ Frame.loop l :: below }).Grows
        (above ++ Frame.loop l :: below) := Grows.same rfl
    cases started with
    | true => exact popped.startLoop.rests_cons
    | false =>
      have next : ({ m with stack := .restarting true :: (above ++ Frame.loop l :: below) }).Grows
          (above ++ Frame.loop l :: below) := popped.push rfl
      exact Grows.rests_cons (Grows.start (next.congr rfl))

/-- What a step does to a loop on the stack: nothing, unless the loop goes on or a script it has
called returns true. -/
theorem step_loop (stack : m.stack = above ++ .loop l :: below) (e : Event) :
    (m.step e).Rests above (.loop l :: below) ∨
    (above = [] ∧ e = .go ∧ ((l.stopped = true ∨ l.rest = []) ∧ (m.step e).stack = below ∨
      ∃ s next, l.stopped = false ∧ l.rest = s :: next ∧
        ((∃ L, (m.step e).stack =
            .lua s L .handler :: .loop (l.after s next true) :: below) ∨
          (m.step e).stack = .loop (l.after s next false) :: below ∧
            ¬(m.Has l.handler s ∧ m.Calls l.handler s)))) ∨
    ∃ x L kind, above = [.lua x L .handler] ∧ e = .ret (.yes kind) ∧ l.handler.stops = true ∧
      (m.step e).Grows (.loop { l with stopped := true } :: below) := by
  cases e with
  | files files => exact .inl (rests_same stack)
  | act a =>
    left
    rw [step]
    split
    · rename_i s L r stack' top
      have some_ : above ≠ [] := by
        rintro rfl
        rw [top] at stack
        cases stack
      split
      · exact Grows.rests (Grows.act (Grows.same stack) a) some_
      · exact rests_same stack
    · exact rests_same stack
  | ret a =>
    rcases ret_loop stack a with rests | ⟨x, L, kind, alone, rfl, stops, grows⟩
    · exact .inl rests
    · exact .inr (.inr ⟨x, L, kind, alone, rfl, stops, grows⟩)
  | go =>
    by_cases none_ : above = []
    · subst none_
      refine .inr (.inl ⟨rfl, rfl, ?_⟩)
      rw [step, go, stack]
      simp only [List.nil_append]
      split
      · rename_i s next open_ rest
        exact .inr ⟨s, next, open_, rest, visit_stack next⟩
      · rename_i ended
        refine .inl ⟨?_, rfl⟩
        cases stopped : l.stopped with
        | true => exact .inl rfl
        | false =>
          cases rest : l.rest with
          | nil => exact .inr rfl
          | cons s next => exact absurd rest (ended s next stopped)
    · exact .inl (go_loop stack none_)
  | op o =>
    left
    have busy : m.stack ≠ [] := by simp [stack]
    rw [step, if_neg busy]
    exact rests_same stack

/-! ## What a loop has done -/

/-- What holds of the loop `l` after the events `pre`, with `above` above it on the stack. -/
structure Progress (m : ScriptManager) (h : Handler) (below : List Frame) (pre : List Event)
    (above : List Frame) (l : Loop) : Prop where
  handler : l.handler = h
  split : l.seen ++ l.rest = m.runningScriptList
  sub : l.called.Sublist l.seen
  heard : ∀ c ∈ l.seen, (∀ p, p <+: pre → (run step m p).Has h c) → c ∈ l.called
  caller : ∀ x L, above.getLast? = some (.lua x L .handler) → l.seen.getLast? = some x
  stopped : l.stopped = true → h.stops = true ∧
    ∃ x, l.seen.getLast? = some x ∧ m.ReturnsTrue below pre x

theorem ReturnsTrue.append {pre : List Event} {x : Nat} (returns : m.ReturnsTrue below pre x)
    (es : List Event) : m.ReturnsTrue below (pre ++ es) x := by
  obtain ⟨p, kind, L, l, before, stack⟩ := returns
  exact ⟨p, kind, L, l, before.trans (List.prefix_append ..), stack⟩

/-- A loop that is not changed by a step. -/
theorem Progress.next {pre : List Event} {above' : List Frame}
    (progress : Progress m h below pre above l)
    (low : ∀ f ∈ above'.getLast?, f.isHandler = true → above.getLast? = some f) (e : Event) :
    Progress m h below (pre ++ [e]) above' l where
  handler := progress.handler
  split := progress.split
  sub := progress.sub
  heard c mem always := progress.heard c mem fun p hp => always p (hp.trans (List.prefix_append ..))
  caller x L last := progress.caller x L (low _ last rfl)
  stopped stops := by
    obtain ⟨kinds, x, last, returns⟩ := progress.stopped stops
    exact ⟨kinds, x, last, returns.append [e]⟩

/-- The loop comes to a script. -/
theorem Progress.visit {pre : List Event} {next : List Nat} {called : Bool}
    (progress : Progress m h below pre [] l) (going : l.stopped = false) (rest : l.rest = s :: next)
    (heard : (run step m pre).Has h s → called = true)
    (low : ∀ x L, above.getLast? = some (.lua x L .handler) → x = s) (e : Event) :
    Progress m h below (pre ++ [e]) above (l.after s next called) where
  handler := progress.handler
  split := by
    have split := progress.split
    rw [rest] at split
    rw [Loop.after, List.append_assoc]
    exact split
  sub := by
    cases called with
    | true => exact progress.sub.append (.refl _)
    | false => exact progress.sub.trans (List.sublist_append_left ..)
  heard c mem always := by
    have before : ∀ p, p <+: pre → (run step m p).Has h c := fun p hp =>
      always p (hp.trans (List.prefix_append ..))
    rcases List.mem_append.1 mem with mem | mem
    · have was := progress.heard c mem before
      clear mem
      cases called with
      | true => exact List.mem_append_left _ was
      | false => exact was
    · rw [List.mem_singleton.1 mem] at before ⊢
      rw [heard (before pre (List.prefix_refl pre))]
      exact List.mem_append_right _ List.mem_cons_self
  caller x L last := by
    rw [low x L last, Loop.after, List.getLast?_append_of_ne_nil _ (List.cons_ne_nil _ _)]
    rfl
  stopped stops := by
    have going : (l.after s next called).stopped = false := going
    rw [going] at stops
    cases stops

theorem visits_of_top (top : m.stack = .loop l :: below) (going : l.stopped = false)
    {next : List Nat} (rest : l.rest = s :: next) : m.visits = some (l.handler, s) := by
  simp [visits, top, going, rest]

/-- A run in which the loop stays on the stack. -/
theorem progress_of_heeded (begins : m.stack = .loop ⟨h, [], m.runningScriptList, [], false⟩ :: below)
    (during : List Event) (fine : Allowed step Heeds m during)
    (within : ∀ pre, pre <+: during → below.length < (run step m pre).stack.length) :
    ∃ above l, (run step m during).stack = above ++ .loop l :: below ∧
      Progress m h below during above l := by
  induction during using List.reverseRecOn with
  | nil =>
    refine ⟨[], _, begins, rfl, rfl, List.nil_sublist _, fun _ => nofun, fun _ _ => nofun, ?_⟩
    intro stops
    cases stops
  | append_singleton pre e ih =>
    obtain ⟨before, heeds, -⟩ := allowed_append.1 fine
    obtain ⟨above, l, stack, progress⟩ := ih before fun p hp =>
      within p (hp.trans (List.prefix_append ..))
    rw [run_concat]
    rcases step_loop stack e with ⟨above', stack', low⟩ |
      ⟨rfl, rfl, ⟨-, popped⟩ | ⟨s, next, going, rest, visited⟩⟩ |
      ⟨x, L, kind, rfl, rfl, stops, above', stack', low⟩
    · exact ⟨above', l, stack', progress.next low e⟩
    · -- the loop would be gone
      have longer := within _ (List.prefix_refl _)
      rw [run_concat, popped] at longer
      exact absurd longer (Nat.lt_irrefl _)
    · have heeds : (run step m pre).Has l.handler s → (run step m pre).Calls l.handler s :=
        heeds (l.handler, s) (visits_of_top stack going rest)
      rcases visited with ⟨L, stack'⟩ | ⟨stack', missed⟩
      · refine ⟨[.lua s L .handler], _, stack', progress.visit going rest (fun _ => rfl) ?_ .go⟩
        intro x L' last
        cases last
        rfl
      · refine ⟨[], _, stack', progress.visit going rest ?_ ?_ .go⟩
        · intro has
          rw [← progress.handler] at has
          exact absurd ⟨has, heeds has⟩ missed
        · intro x L' last
          cases last
    · have last := progress.caller x L rfl
      refine ⟨above', { l with stopped := true }, stack', progress.handler, progress.split,
        progress.sub, ?_, ?_, ?_⟩
      · intro c mem always
        exact progress.heard c mem fun p hp => always p (hp.trans (List.prefix_append ..))
      · intro y L' last'
        exact absurd (low _ last') (by simp [Frame.isHandler])
      · intro _
        refine ⟨progress.handler ▸ stops, x, last, pre, kind, L, l, List.prefix_refl _, ?_⟩
        exact stack

/-! ## Runs -/

end

/-- Two scripts with a handler of chat messages, and a chat message. The second one has a handler
of users that disconnect. -/
def chatMessage : ScriptManager :=
  run step (load pairFiles pairNames)
    [.op .start, .go, .act (.define .chatArrival true), .ret .no, .go,
      .act (.define .chatArrival true), .act (.define (.disconnected .user) true), .ret .no, .go,
      .op (.dispatch .chatArrival)]

/-- The handler of the first script disconnects a user, for whom the second one does `act`. -/
def withDisconnect (act : List Event) : List Event :=
  [.go, .act (.dispatch (.disconnected .user)), .go, .go] ++ act ++ [.ret .no, .go, .ret .no, .go]

theorem forall_prefix_of_inits {es : List Event} {P : List Event → Prop}
    (all : ∀ pre ∈ es.inits, P pre) : ∀ pre, pre <+: es → P pre :=
  fun pre hp => all pre ((List.mem_inits pre es).2 hp)

end ScriptManager

end FlyHub.Scripts
