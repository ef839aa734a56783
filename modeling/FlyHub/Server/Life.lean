import FlyHub.Lib.Mailbox
import FlyHub.Lib.Run
import FlyHub.Text

/-!
# The life of the server

The main thread goes through its loops: one that takes in the sockets that the threads of the
ports have accepted, and one that works off the events, those of the hub itself and those of
the threads. An event may end the hub or start it anew, and a signal may end it too.
-/

namespace FlyHub.Server

open FlyHub.Lib

inductive EventType where
  | restart
  | rstScripts
  | rstScript
  | stopScript
  | stopScripting
  | shutdown
  | regSockMsg
  | srvThreadMsg
  | udpSr
  deriving DecidableEq, Repr

structure Event where
  eId : EventType
  sMsg : Text
  deriving DecidableEq

/-- How far the main thread is. -/
inductive Place where
  | looper
  | accepting
  | normalEvents
  | threadEvents
  | afterLooper
  | ended
  deriving DecidableEq, Repr

/-- The server. Letters of the mailboxes are done if they have been handled, or destroyed
with the queue. `saved` tells that `FinalClose` has written the files and `failed` that the
process has ended with an error. -/
structure ServerManager where
  place : Place
  recv : Bool
  serving : Bool
  isRestart : Bool
  isClose : Bool
  serverTerminated : Bool
  terminatedBySignal : Bool
  saved : Bool
  failed : Bool
  normalEvents : Mailbox Event Bool
  threadEvents : Mailbox Event Bool
  acceptedSockets : Mailbox Nat Bool

namespace ServerManager

/-- The server after `Start`. -/
def running : ServerManager where
  place := .looper
  recv := true
  serving := true
  isRestart := false
  isClose := false
  serverTerminated := false
  terminatedBySignal := false
  saved := false
  failed := false
  normalEvents := .empty
  threadEvents := .empty
  acceptedSockets := .empty

variable (s : ServerManager)

/-- `AddNormal`. Only what is about one script may be there more than once. -/
def addNormal (eId : EventType) (sMsg : Text) : ServerManager :=
  if eId ≠ .rstScript ∧ eId ≠ .stopScript ∧ s.normalEvents.waiting.any (fun e => e.eId = eId) then s
  else { s with normalEvents := s.normalEvents.post ⟨eId, sMsg⟩ }

/-- `AddThread`. -/
def addThread (eId : EventType) (sMsg : Text) : ServerManager :=
  { s with threadEvents := s.threadEvents.post ⟨eId, sMsg⟩ }

/-- `AcceptSocket`. -/
def acceptSocket (socket : Nat) : ServerManager :=
  { s with acceptedSockets := s.acceptedSockets.post socket }

/-- `Stop`, which waits for the threads of the ports. -/
def stop : ServerManager := { s with serving := false, serverTerminated := true }

/-- `FinalStop`. The queues are destroyed and the sockets closed before the hub starts anew
or ends for good. -/
def finalStop (started : Bool) : ServerManager :=
  let s := { s with
    acceptedSockets := s.acceptedSockets.close false
    normalEvents := s.normalEvents.close false
    threadEvents := s.threadEvents.close false }
  if s.isRestart then
    if started then
      { s with isRestart := false, serving := true, serverTerminated := false, recv := true }
    else { s with isRestart := false, failed := true, place := .ended }
  else if s.isClose then { s with saved := true }
  else s

/-- What `ProcessEvents` does about a normal event. Those about scripts don't matter here. -/
def processNormal (e : Event) : ServerManager :=
  match e.eId with
  | .restart => { s with isRestart := true }.stop
  | .shutdown => if s.isClose then s else { s with isClose := true }.stop
  | _ => s

/-- The end of `Looper`. -/
def endLooper (started : Bool) : ServerManager :=
  let s := { s with place := .afterLooper }
  if s.serverTerminated then s.finalStop started else { s with recv := !s.recv }

/-- What `main` does after `Looper`. -/
def afterLooper (started : Bool) : ServerManager :=
  if s.serverTerminated then { s with place := .ended }
  else if s.terminatedBySignal then
    if s.isClose then { s with place := .ended }
    else { ({ s with isClose := true }.stop.finalStop started) with place := .ended }
  else { s with place := .looper }

/-- The next step of the main thread. `started` tells whether `Start` would succeed. -/
def main (started : Bool) : ServerManager :=
  match s.place with
  | .looper =>
    if s.recv then { s with acceptedSockets := s.acceptedSockets.take, place := .accepting }
    else { s with normalEvents := s.normalEvents.take, place := .normalEvents }
  | .accepting =>
    if s.acceptedSockets.taken = [] then s.endLooper started
    else { s with acceptedSockets := s.acceptedSockets.next true }
  | .normalEvents =>
    match s.normalEvents.taken with
    | [] => { s with threadEvents := s.threadEvents.take, place := .threadEvents }
    | e :: _ => { s with normalEvents := s.normalEvents.next true }.processNormal e
  | .threadEvents =>
    if s.threadEvents.taken = [] then s.endLooper started
    else { s with threadEvents := s.threadEvents.next true }
  | .afterLooper => s.afterLooper started
  | .ended => s

end ServerManager

/-- A step of the server: the hub at its work asks for something, a thread of a port reports
or has accepted a connection, a signal comes, or the main thread goes on. -/
inductive Step where
  | addNormal (eId : EventType) (sMsg : Text)
  | addThread (eId : EventType) (sMsg : Text)
  | acceptSocket (socket : Nat)
  | signal
  | main (started : Bool)

namespace ServerManager

/-- The threads of the ports run while the hub serves. -/
def step (s : ServerManager) : Step → ServerManager
  | .addNormal eId sMsg => if s.place = .ended then s else s.addNormal eId sMsg
  | .addThread eId sMsg => if s.serving then s.addThread eId sMsg else s
  | .acceptSocket socket => if s.serving then s.acceptSocket socket else s
  | .signal => { s with terminatedBySignal := true }
  | .main started => s.main started

/-- The server after the steps. -/
def reach (es : List Step) : ServerManager := run step running es

/-! ## Requests to end the hub -/

/-- The step takes a restart and a shutdown at once. -/
def mixes (s : ServerManager) : Step → Bool
  | .main _ => s.place = .looper && !s.recv &&
      s.normalEvents.waiting.any (fun e => e.eId = .restart) &&
      s.normalEvents.waiting.any (fun e => e.eId = .shutdown)
  | _ => false

/-- No restart has ever been taken together with a shutdown. -/
abbrev Clean (es : List Step) : Prop := Allowed step (fun s e => mixes s e = false) running es

/-- An event of the kind has been handled. -/
def handled (s : ServerManager) (eId : EventType) : Prop :=
  ∃ d ∈ s.normalEvents.done, d.1.eId = eId ∧ d.2 = true

/-- The flag is set, or will be when the events that have been taken are handled. -/
def Due (s : ServerManager) (flag : Bool) (eId : EventType) : Prop :=
  flag = true ∨ ∃ e ∈ s.normalEvents.taken, e.eId = eId

/-- What is known of a hub that goes through its loops. -/
structure Running (s : ServerManager) (clean : Prop) : Prop where
  serving : s.serving = !s.serverTerminated
  restart : s.isRestart = true → s.serverTerminated = true
  saved : s.saved = false
  failed : s.failed = false
  close : clean → s.isClose = true → s.serverTerminated = true
  stopped : clean → s.serverTerminated = true → s.isRestart = true ∨ s.isClose = true
  apart : clean → ¬ (s.Due s.isRestart .restart ∧ s.Due s.isClose .shutdown)
  obeyed : clean → s.handled .shutdown → s.isClose = true
  shutdown : ¬ clean → s.Due s.isClose .shutdown
  mixed : ¬ clean → s.Due s.isRestart .restart ∨ s.isClose = true ∧ s.serverTerminated = false

/-- The invariant. -/
def Inv (s : ServerManager) (clean : Prop) : Prop :=
  match s.place with
  | .looper | .accepting =>
    s.Running clean ∧ s.serverTerminated = false ∧ s.normalEvents.taken = []
  | .normalEvents => s.Running clean
  | .threadEvents => s.Running clean ∧ s.normalEvents.taken = []
  | .afterLooper => s.normalEvents.taken = [] ∧
      (s.Running clean ∧ s.serverTerminated = false ∨
        s.serverTerminated = true ∧ s.saved = true ∧ s.failed = false ∧ clean)
  | .ended => s.saved = true ↔ clean ∧ s.failed = false

section
variable {s : ServerManager} {clean : Prop} {e : Event} {rest : List Event}

theorem due_idle {flag : Bool} {eId : EventType} (idle : s.normalEvents.taken = []) :
    s.Due flag eId ↔ flag = true := by
  simp [Due, idle]

theorem due_cons {flag : Bool} {eId : EventType} (head : s.normalEvents.taken = e :: rest) :
    s.Due flag eId ↔ flag = true ∨ e.eId = eId ∨ ∃ e' ∈ rest, e'.eId = eId := by
  simp [Due, head]

/-- In a hub that serves, nothing is due, or it will never obey a shutdown. -/
theorem Running.quiet (running : s.Running clean) (serves : s.serverTerminated = false)
    (idle : s.normalEvents.taken = []) :
    s.isRestart = false ∧ (clean → s.isClose = false) ∧ (¬ clean → s.isClose = true) := by
  refine ⟨?_, fun is => ?_, fun is => (due_idle idle).mp (running.shutdown is)⟩
  · cases flag : s.isRestart with
    | false => rfl
    | true => exact absurd (running.restart flag) (by simp [serves])
  · cases flag : s.isClose with
    | false => rfl
    | true => exact absurd (running.close is flag) (by simp [serves])

/-- The main thread takes the normal events. -/
theorem Running.take (running : s.Running clean) (serves : s.serverTerminated = false)
    (idle : s.normalEvents.taken = []) (place : s.place = .looper) (recv : s.recv = false)
    (started : Bool) :
    Running { s with normalEvents := s.normalEvents.take, place := .normalEvents }
      (clean ∧ mixes s (.main started) = false) := by
  obtain ⟨restart, isOpen, isClosed⟩ := running.quiet serves idle
  have both : mixes s (.main started) = true ↔
      (∃ e ∈ s.normalEvents.waiting, e.eId = .restart) ∧
        ∃ e ∈ s.normalEvents.waiting, e.eId = .shutdown := by
    simp [mixes, place, recv]
  have due (flag : Bool) (eId : EventType) :
      Due { s with normalEvents := s.normalEvents.take, place := .normalEvents } flag eId ↔
        flag = true ∨ ∃ e ∈ s.normalEvents.waiting, e.eId = eId := by
    simp [Due, Mailbox.take, idle]
  exact {
    running with
    close := fun is => running.close is.1
    stopped := fun is => running.stopped is.1
    apart := by
      rintro ⟨is, apart⟩ ⟨first, second⟩
      rw [due] at first second
      simp only [restart, isOpen is, Bool.false_eq_true, false_or] at first second
      rw [both.mpr ⟨first, second⟩] at apart
      cases apart
    obeyed := fun is => running.obeyed is.1
    shutdown := by
      intro not_
      rw [due]
      by_cases is : clean
      · have mixed : mixes s (.main started) = true := by
          by_contra apart
          exact not_ ⟨is, Bool.eq_false_iff.mpr apart⟩
        exact .inr (both.mp mixed).2
      · exact .inl (isClosed is)
    mixed := by
      intro not_
      rw [due]
      by_cases is : clean
      · have mixed : mixes s (.main started) = true := by
          by_contra apart
          exact not_ ⟨is, Bool.eq_false_iff.mpr apart⟩
        exact .inl (.inr (both.mp mixed).1)
      · exact .inr ⟨isClosed is, serves⟩ }

/-- The first of the events is handled. -/
theorem Running.process (running : s.Running clean) (head : s.normalEvents.taken = e :: rest) :
    (processNormal { s with normalEvents := s.normalEvents.next true } e).Running clean := by
  have next : s.normalEvents.next true =
      { s.normalEvents with done := s.normalEvents.done ++ [(e, true)], taken := rest } := by
    simp [Mailbox.next, head]
  have apart := running.apart
  have shutdown := running.shutdown
  have mixed := running.mixed
  have obeyed := running.obeyed
  simp only [due_cons head] at apart shutdown mixed
  unfold handled at obeyed
  rw [next]
  have same (other : e.eId ≠ .restart) (other' : e.eId ≠ .shutdown ∨ s.isClose = true) :
      Running { s with normalEvents :=
        { s.normalEvents with done := s.normalEvents.done ++ [(e, true)], taken := rest } } clean :=
    { running with
      apart := by
        unfold Due
        grind
      obeyed := by
        unfold handled
        grind
      shutdown := by
        unfold Due
        grind
      mixed := by
        unfold Due
        grind }
  unfold processNormal
  split
  · rename_i kind
    exact {
      serving := rfl
      restart := fun _ => rfl
      saved := running.saved
      failed := running.failed
      close := fun _ _ => rfl
      stopped := fun _ _ => .inl rfl
      apart := by
        unfold Due stop
        grind
      obeyed := by
        unfold handled stop
        grind
      shutdown := by
        unfold Due stop
        grind
      mixed := fun _ => .inl (.inl rfl) }
  · rename_i kind
    split
    · rename_i closed
      exact same (by simp [kind]) (.inr closed)
    · rename_i opened
      exact {
        serving := rfl
        restart := fun _ => rfl
        saved := running.saved
        failed := running.failed
        close := fun _ _ => rfl
        stopped := fun _ _ => .inr rfl
        apart := by
          unfold Due stop
          grind
        obeyed := fun _ _ => rfl
        shutdown := fun _ => .inl rfl
        mixed := by
          unfold Due stop
          grind }
  · rename_i other other'
    exact same other (.inl other')

theorem inv_accepting (place : s.place = .accepting) : s.Inv clean ↔
    s.Running clean ∧ s.serverTerminated = false ∧ s.normalEvents.taken = [] := by
  rw [Inv, place]

theorem inv_normalEvents (place : s.place = .normalEvents) : s.Inv clean ↔ s.Running clean := by
  rw [Inv, place]

theorem inv_threadEvents (place : s.place = .threadEvents) :
    s.Inv clean ↔ s.Running clean ∧ s.normalEvents.taken = [] := by
  rw [Inv, place]

theorem inv_afterLooper (place : s.place = .afterLooper) : s.Inv clean ↔
    s.normalEvents.taken = [] ∧ (s.Running clean ∧ s.serverTerminated = false ∨
      s.serverTerminated = true ∧ s.saved = true ∧ s.failed = false ∧ clean) := by
  rw [Inv, place]

/-- A hub that has been stopped starts anew, or saves its files, unless it fails. -/
theorem Running.finalStop (running : s.Running clean) (stopped : s.serverTerminated = true)
    (idle : s.normalEvents.taken = []) (place : s.place = .afterLooper) (started : Bool) :
    (s.finalStop started).Inv clean := by
  have apart := running.apart
  have mixed := running.mixed
  have closed := running.shutdown
  simp only [due_idle idle] at apart mixed closed
  unfold ServerManager.finalStop
  dsimp only
  split
  · rename_i restart
    have opened (is : clean) : s.isClose = false := by
      cases flag : s.isClose with
      | false => rfl
      | true => exact absurd ⟨restart, flag⟩ (apart is)
    split
    · refine (inv_afterLooper (by exact place)).mpr ⟨rfl, .inl ⟨?_, rfl⟩⟩
      exact {
        serving := rfl
        restart := fun flag => flag
        saved := running.saved
        failed := running.failed
        close := fun is flag => absurd ((opened is).symm.trans flag) (by simp)
        stopped := fun _ flag => absurd flag (by simp)
        apart := by
          rintro - ⟨due, -⟩
          simp [Due, Mailbox.close] at due
        obeyed := by
          intro is
          unfold handled Mailbox.close
          simp only [idle, List.nil_append, List.mem_append, List.mem_map]
          rintro ⟨d, before | ⟨a, -, rfl⟩, kind, done⟩
          · exact running.obeyed is ⟨d, before, kind, done⟩
          · exact absurd done (by simp)
        shutdown := fun not_ => .inl (closed not_)
        mixed := fun not_ => .inr ⟨closed not_, rfl⟩ }
    · unfold Inv
      simp [running.saved]
  · rename_i restart
    by_cases is : clean
    · have close := (running.stopped is stopped).resolve_left restart
      rw [if_pos close]
      exact (inv_afterLooper (by exact place)).mpr ⟨rfl, .inr ⟨stopped, rfl, running.failed, is⟩⟩
    · cases mixed is with
      | inl flag => exact absurd flag restart
      | inr serves => exact absurd (stopped.symm.trans serves.2) (by simp)

theorem Running.endLooper (running : s.Running clean) (idle : s.normalEvents.taken = [])
    (started : Bool) : (s.endLooper started).Inv clean := by
  have after : Running { s with place := .afterLooper } clean := { running with }
  unfold ServerManager.endLooper
  dsimp only
  split
  · rename_i stopped
    exact after.finalStop stopped idle rfl started
  · rename_i serves
    exact ⟨idle, .inl ⟨{ running with }, Bool.eq_false_iff.mpr serves⟩⟩

theorem Inv.afterLooper (inv : s.Inv clean) (place : s.place = .afterLooper) (started : Bool) :
    (s.afterLooper started).Inv clean := by
  simp only [Inv, place] at inv
  obtain ⟨idle, going | ⟨stopped, saved, fine, is⟩⟩ := inv
  · obtain ⟨running, serves⟩ := going
    obtain ⟨restart, isOpen, isClosed⟩ := running.quiet serves idle
    unfold ServerManager.afterLooper
    rw [if_neg (by simp [serves])]
    split
    · split
      · rename_i closed
        have not_ : ¬ clean := fun is => absurd ((isOpen is).symm.trans closed) (by simp)
        simp [Inv, running.saved, not_]
      · rename_i opened
        have is : clean := by
          by_contra not_
          exact opened (isClosed not_)
        simp [Inv, ServerManager.finalStop, stop, restart, is, running.failed]
    · exact ⟨{ running with }, serves, idle⟩
  · simp [ServerManager.afterLooper, stopped, Inv, saved, fine, is]

theorem Inv.main (inv : s.Inv clean) (started : Bool) :
    (s.main started).Inv (clean ∧ mixes s (.main started) = false) := by
  have keep (other : s.place ≠ .looper ∨ s.recv = true) :
      (clean ∧ mixes s (.main started) = false) = clean := by
    have apart : mixes s (.main started) = false := by
      rcases other with other | recv
      · simp [mixes, other]
      · simp [mixes, recv]
    simp [apart]
  unfold ServerManager.main
  split
  · rename_i place
    simp only [Inv, place] at inv
    obtain ⟨running, serves, idle⟩ := inv
    split
    · rename_i recv
      rw [keep (.inr recv)]
      exact ⟨{ running with }, serves, idle⟩
    · rename_i send
      exact running.take serves idle place (Bool.eq_false_iff.mpr send) started
  · rename_i place
    rw [keep (.inl (by simp [place]))]
    obtain ⟨running, serves, idle⟩ := (inv_accepting place).mp inv
    split
    · exact running.endLooper idle started
    · exact (inv_accepting (by exact place)).mpr ⟨{ running with }, serves, idle⟩
  · rename_i place
    rw [keep (.inl (by simp [place]))]
    have running := (inv_normalEvents place).mp inv
    split
    · rename_i idle
      exact ⟨{ running with }, idle⟩
    · rename_i e rest head
      refine (inv_normalEvents ?_).mpr (running.process head)
      unfold processNormal stop
      split
      · exact place
      · split
        · exact place
        · exact place
      · exact place
  · rename_i place
    rw [keep (.inl (by simp [place]))]
    obtain ⟨running, idle⟩ := (inv_threadEvents place).mp inv
    split
    · exact running.endLooper idle started
    · exact (inv_threadEvents (by exact place)).mpr ⟨{ running with }, idle⟩
  · rename_i place
    rw [keep (.inl (by simp [place]))]
    exact inv.afterLooper place started
  · rename_i place
    rw [keep (.inl (by simp [place]))]
    exact inv

/-- What is done besides the main thread changes nothing that is known. -/
theorem Inv.aside {t : ServerManager} (inv : s.Inv clean) (place : t.place = s.place)
    (taken : t.normalEvents.taken = s.normalEvents.taken)
    (terminated : t.serverTerminated = s.serverTerminated) (saved : t.saved = s.saved)
    (failed : t.failed = s.failed) (running : s.Running clean → t.Running clean) :
    t.Inv clean := by
  revert inv
  unfold Inv
  rw [place, taken, terminated, saved, failed]
  cases s.place with
  | looper => exact fun inv => ⟨running inv.1, inv.2⟩
  | accepting => exact fun inv => ⟨running inv.1, inv.2⟩
  | normalEvents => exact fun inv => running inv
  | threadEvents => exact fun inv => ⟨running inv.1, inv.2⟩
  | afterLooper =>
    exact fun inv => ⟨inv.1, inv.2.imp_left fun going => ⟨running going.1, going.2⟩⟩
  | ended => exact id

theorem Inv.step (inv : s.Inv clean) (e : Step) :
    (s.step e).Inv (clean ∧ mixes s e = false) := by
  cases e with
  | main started => exact inv.main started
  | addNormal eId sMsg =>
    simp only [ServerManager.step, mixes, and_true]
    split
    · exact inv
    · unfold ServerManager.addNormal
      split
      · exact inv
      · exact inv.aside rfl rfl rfl rfl rfl fun running => { running with }
  | addThread eId sMsg =>
    simp only [ServerManager.step, mixes, and_true]
    split
    · exact inv.aside rfl rfl rfl rfl rfl fun running => { running with }
    · exact inv
  | acceptSocket socket =>
    simp only [ServerManager.step, mixes, and_true]
    split
    · exact inv.aside rfl rfl rfl rfl rfl fun running => { running with }
    · exact inv
  | signal =>
    simp only [mixes, and_true]
    exact inv.aside rfl rfl rfl rfl rfl fun running => { running with }

theorem running_inv : running.Inv True := by
  refine ⟨?_, rfl, rfl⟩
  exact {
    serving := rfl
    restart := nofun
    saved := rfl
    failed := rfl
    close := nofun
    stopped := nofun
    apart := by simp [Due, running, Mailbox.empty]
    obeyed := by simp [handled, running, Mailbox.empty]
    shutdown := fun not_ => absurd trivial not_
    mixed := fun not_ => absurd trivial not_ }

theorem reach_inv (es : List Step) : (reach es).Inv (Clean es) := by
  induction es using List.reverseRecOn with
  | nil => exact running_inv
  | append_singleton es e ih =>
    have next := ih.step e
    rw [reach, run_concat]
    have same : Clean (es ++ [e]) = (Clean es ∧ mixes (reach es) e = false) := by
      simp [Clean, allowed_append, Allowed, reach]
    rw [same]
    exact next

theorem saved_iff (es : List Step) (place : (reach es).place = .ended) :
    (reach es).saved = true ↔ Clean es ∧ (reach es).failed = false := by
  have inv := reach_inv es
  simp only [Inv, place] at inv
  exact inv

/-- A hub that ends has saved its files, unless `Start` has failed or a restart was once taken
together with a shutdown. As long as this has not been, no hub goes on that has handled a
shutdown. -/
theorem shutdown_obeyed (es : List Step) :
    ((reach es).place = .ended →
      ((reach es).saved = true ↔ Clean es ∧ (reach es).failed = false)) ∧
    ((reach es).place = .looper → (reach es).handled .shutdown → ¬ Clean es) := by
  refine ⟨saved_iff es, fun place shut is => ?_⟩
  have inv := reach_inv es
  simp only [Inv, place] at inv
  obtain ⟨running, serves, idle⟩ := inv
  exact absurd ((running.quiet serves idle).2.1 is) (by simp [running.obeyed is shut])

-- A restart and a shutdown are asked for in one round: the hub starts anew, takes no notice of
-- the next shutdown and ends at a signal without saving anything.
example :
    let round : List Step := List.replicate 6 (.main true)
    let s := reach ([.addNormal .restart [], .addNormal .shutdown []] ++ round ++ round ++
      [.addNormal .shutdown []] ++ round ++ round ++ [.signal] ++ round)
    s.place = .ended ∧ s.saved = false ∧ s.failed = false := by
  decide

/-! ## Reports and connections -/

/-- The event that a thread of a port puts into the queue. -/
def reports (s : ServerManager) : Step → Option Event
  | .addThread eId sMsg => if s.serving then some ⟨eId, sMsg⟩ else none
  | _ => none

/-- The connection that a thread of a port accepts. -/
def accepts (s : ServerManager) : Step → Option Nat
  | .acceptSocket socket => if s.serving then some socket else none
  | _ => none

theorem finalStop_letters (started : Bool) :
    (s.finalStop started).threadEvents.letters = s.threadEvents.letters ∧
      (s.finalStop started).acceptedSockets.letters = s.acceptedSockets.letters := by
  unfold finalStop
  dsimp only
  split
  · split
    · exact ⟨Mailbox.letters_close, Mailbox.letters_close⟩
    · exact ⟨Mailbox.letters_close, Mailbox.letters_close⟩
  · split
    · exact ⟨Mailbox.letters_close, Mailbox.letters_close⟩
    · exact ⟨Mailbox.letters_close, Mailbox.letters_close⟩

theorem processNormal_letters (s : ServerManager) (e : Event) :
    (s.processNormal e).threadEvents = s.threadEvents ∧
      (s.processNormal e).acceptedSockets = s.acceptedSockets := by
  unfold processNormal
  split
  · exact ⟨rfl, rfl⟩
  · split
    · exact ⟨rfl, rfl⟩
    · exact ⟨rfl, rfl⟩
  · exact ⟨rfl, rfl⟩

theorem endLooper_letters (started : Bool) :
    (s.endLooper started).threadEvents.letters = s.threadEvents.letters ∧
      (s.endLooper started).acceptedSockets.letters = s.acceptedSockets.letters := by
  unfold endLooper
  dsimp only
  split
  · exact finalStop_letters started
  · exact ⟨rfl, rfl⟩

theorem afterLooper_letters (started : Bool) :
    (s.afterLooper started).threadEvents.letters = s.threadEvents.letters ∧
      (s.afterLooper started).acceptedSockets.letters = s.acceptedSockets.letters := by
  unfold ServerManager.afterLooper
  split
  · exact ⟨rfl, rfl⟩
  · split
    · split
      · exact ⟨rfl, rfl⟩
      · exact finalStop_letters (s := { s with isClose := true }.stop) started
    · exact ⟨rfl, rfl⟩

theorem main_letters (started : Bool) :
    (s.main started).threadEvents.letters = s.threadEvents.letters ∧
      (s.main started).acceptedSockets.letters = s.acceptedSockets.letters := by
  unfold ServerManager.main
  split
  · split
    · exact ⟨rfl, Mailbox.letters_take⟩
    · exact ⟨rfl, rfl⟩
  · split
    · exact endLooper_letters started
    · exact ⟨rfl, Mailbox.letters_next⟩
  · split
    · exact ⟨Mailbox.letters_take, rfl⟩
    · rename_i e rest head
      obtain ⟨threads, sockets⟩ :=
        processNormal_letters { s with normalEvents := s.normalEvents.next true } e
      rw [threads, sockets]
      exact ⟨rfl, rfl⟩
  · split
    · exact endLooper_letters started
    · exact ⟨Mailbox.letters_next, rfl⟩
  · exact afterLooper_letters started
  · exact ⟨rfl, rfl⟩

/-- Only the threads of the ports put anything into their mailboxes. -/
theorem step_letters (s : ServerManager) (e : Step) :
    (s.step e).threadEvents.letters = s.threadEvents.letters ++ (reports s e).toList ∧
      (s.step e).acceptedSockets.letters =
        s.acceptedSockets.letters ++ (accepts s e).toList := by
  cases e with
  | main started =>
    simp only [reports, accepts, Option.toList_none, List.append_nil]
    exact main_letters started
  | addNormal eId sMsg =>
    simp only [ServerManager.step, addNormal, reports, accepts, Option.toList_none, List.append_nil]
    split
    · exact ⟨rfl, rfl⟩
    · split
      · exact ⟨rfl, rfl⟩
      · exact ⟨rfl, rfl⟩
  | addThread eId sMsg =>
    simp only [ServerManager.step, reports, accepts]
    split
    · simp [addThread]
    · simp
  | acceptSocket socket =>
    simp only [ServerManager.step, reports, accepts]
    split
    · simp [acceptSocket]
    · simp
  | signal => simp [ServerManager.step, reports, accepts]

theorem reach_letters (es : List Step) :
    (reach es).threadEvents.letters = trace step reports running es ∧
      (reach es).acceptedSockets.letters = trace step accepts running es := by
  induction es using List.reverseRecOn with
  | nil => exact ⟨rfl, rfl⟩
  | append_singleton es e ih =>
    obtain ⟨threads, sockets⟩ := step_letters (reach es) e
    rw [trace_concat, trace_concat, reach, run_concat]
    exact ⟨threads.trans (by rw [ih.1]; rfl), sockets.trans (by rw [ih.2]; rfl)⟩

/-- The main thread is in one of its loops. -/
def InLoop (s : ServerManager) : Prop := s.place ≠ .afterLooper ∧ s.place ≠ .ended

/-- Where the main thread has left what came from the threads. -/
structure Kept (s : ServerManager) : Prop where
  serving : s.serving = !s.serverTerminated
  going : s.place = .looper ∨ s.place = .accepting → s.serverTerminated = false
  unsaved : s.serverTerminated = false ∨ s.InLoop → s.saved = false ∧ s.failed = false
  sockets : s.place ≠ .accepting → s.acceptedSockets.taken = []
  taken : s.place ≠ .threadEvents → s.threadEvents.taken = []
  swapped : s.place = .threadEvents → s.serverTerminated = true → s.threadEvents.waiting = []
  stopped : ¬ s.InLoop → s.serverTerminated = true →
    s.threadEvents.waiting = [] ∧ s.acceptedSockets.waiting = []
  told : s.terminatedBySignal = false → ∀ d ∈ s.threadEvents.done, d.2 = true

theorem not_inLoop (place : s.place = .afterLooper) : ¬ s.InLoop := fun loop => loop.1 place

/-- What comes of the end of a hub in which the threads have nothing more to say. -/
theorem kept_finalStop (place : s.place = .afterLooper) (stopped : s.serverTerminated = true)
    (closed : s.serving = false) (unsaved : s.saved = false ∧ s.failed = false)
    (told : s.terminatedBySignal = false → (∀ d ∈ s.threadEvents.done, d.2 = true) ∧
      s.threadEvents.taken = [] ∧ s.threadEvents.waiting = []) (started : Bool) :
    (s.finalStop started).Kept := by
  have done : s.terminatedBySignal = false →
      ∀ d ∈ (s.threadEvents.close false).done, d.2 = true := by
    intro alive
    obtain ⟨all, taken, waiting⟩ := told alive
    simpa [Mailbox.close, taken, waiting] using all
  unfold finalStop
  dsimp only
  split
  · split
    · exact {
        serving := rfl
        going := fun _ => rfl
        unsaved := fun _ => unsaved
        sockets := fun _ => rfl
        taken := fun _ => rfl
        swapped := fun _ _ => rfl
        stopped := fun _ is => absurd is Bool.false_ne_true
        told := done }
    · exact {
        serving := by simp [closed, stopped]
        going := fun is => by simp at is
        unsaved := fun is => by simp [stopped, InLoop] at is
        sockets := fun _ => rfl
        taken := fun _ => rfl
        swapped := fun _ _ => rfl
        stopped := fun _ _ => ⟨rfl, rfl⟩
        told := done }
  · split
    · exact {
        serving := by simp [closed, stopped]
        going := fun is => by simp [place] at is
        unsaved := fun is => by simp [stopped, InLoop, place] at is
        sockets := fun _ => rfl
        taken := fun _ => rfl
        swapped := fun _ _ => rfl
        stopped := fun _ _ => ⟨rfl, rfl⟩
        told := done }
    · exact {
        serving := by simp [closed, stopped]
        going := fun is => by simp [place] at is
        unsaved := fun _ => unsaved
        sockets := fun _ => rfl
        taken := fun _ => rfl
        swapped := fun _ _ => rfl
        stopped := fun _ _ => ⟨rfl, rfl⟩
        told := done }

/-- The process ends after `Looper` or within it. -/
theorem Kept.ended (kept : s.Kept) (place : ¬ s.InLoop) : Kept { s with place := .ended } where
  serving := kept.serving
  going := fun is => by simp at is
  unsaved := fun is => kept.unsaved (is.imp_right fun loop => absurd rfl loop.2)
  sockets := fun _ => kept.sockets fun eq => place (by simp [InLoop, eq])
  taken := fun _ => kept.taken fun eq => place (by simp [InLoop, eq])
  swapped := fun is => by simp at is
  stopped := fun _ => kept.stopped place
  told := kept.told

theorem Kept.endLooper (kept : s.Kept) (loop : s.InLoop) (taken : s.threadEvents.taken = [])
    (sockets : s.acceptedSockets.taken = [])
    (last : s.serverTerminated = true → s.threadEvents.waiting = []) (started : Bool) :
    (s.endLooper started).Kept := by
  unfold ServerManager.endLooper
  dsimp only
  split
  · rename_i stopped
    have closed : s.serving = false := by
      rw [kept.serving, stopped]
      rfl
    apply kept_finalStop
    · rfl
    · exact stopped
    · exact closed
    · exact kept.unsaved (.inr loop)
    · exact fun alive => ⟨kept.told alive, taken, last stopped⟩
  · rename_i serves
    exact {
      serving := kept.serving
      going := fun is => by simp at is
      unsaved := fun _ => kept.unsaved (.inr loop)
      sockets := fun _ => sockets
      taken := fun _ => taken
      swapped := fun is => by simp at is
      stopped := fun _ is => absurd is serves
      told := kept.told }

theorem Kept.afterLooper (kept : s.Kept) (place : s.place = .afterLooper) (started : Bool) :
    (s.afterLooper started).Kept := by
  have after := not_inLoop place
  unfold ServerManager.afterLooper
  split
  · exact kept.ended after
  · rename_i serves
    split
    · rename_i signalled
      split
      · exact kept.ended after
      · have final : (({ s with isClose := true } : ServerManager).stop.finalStop started).Kept := by
          apply kept_finalStop
          · exact place
          · rfl
          · rfl
          · exact kept.unsaved (.inl (Bool.eq_false_iff.mpr serves))
          · exact fun alive => absurd (signalled.symm.trans alive) (by simp)
        apply final.ended
        unfold ServerManager.finalStop stop
        dsimp only
        split
        · split
          · exact not_inLoop place
          · exact fun loop => loop.2 rfl
        · exact not_inLoop place
    · exact {
        serving := kept.serving
        going := fun _ => Bool.eq_false_iff.mpr serves
        unsaved := fun _ => kept.unsaved (.inl (Bool.eq_false_iff.mpr serves))
        sockets := fun _ => kept.sockets (by simp [place])
        taken := fun _ => kept.taken (by simp [place])
        swapped := fun is => by simp at is
        stopped := fun loop => absurd ⟨nofun, nofun⟩ loop
        told := kept.told }

theorem Kept.stop (kept : s.Kept) (place : s.place = .normalEvents) : s.stop.Kept where
  serving := rfl
  going := fun is => by simp [ServerManager.stop, place] at is
  unsaved := fun _ => kept.unsaved (.inr (by simp [InLoop, place]))
  sockets := kept.sockets
  taken := kept.taken
  swapped := fun is => by simp [ServerManager.stop, place] at is
  stopped := fun is => absurd (by simp [InLoop, ServerManager.stop, place]) is
  told := kept.told

theorem Kept.processNormal (kept : s.Kept) (place : s.place = .normalEvents) (e : Event) :
    (s.processNormal e).Kept := by
  unfold ServerManager.processNormal
  split
  · exact Kept.stop { kept with } place
  · split
    · exact kept
    · exact Kept.stop { kept with } place
  · exact kept

theorem Kept.main (kept : s.Kept) (started : Bool) : (s.main started).Kept := by
  unfold ServerManager.main
  split
  · rename_i place
    have serves := kept.going (.inl place)
    have loop : s.InLoop := by simp [InLoop, place]
    split
    · exact {
        serving := kept.serving
        going := fun _ => serves
        unsaved := fun _ => kept.unsaved (.inr loop)
        sockets := fun is => absurd rfl is
        taken := fun _ => kept.taken (by simp [place])
        swapped := fun is => by simp at is
        stopped := fun is => absurd ⟨nofun, nofun⟩ is
        told := kept.told }
    · exact {
        serving := kept.serving
        going := fun is => by simp at is
        unsaved := fun _ => kept.unsaved (.inr loop)
        sockets := fun _ => kept.sockets (by simp [place])
        taken := fun _ => kept.taken (by simp [place])
        swapped := fun is => by simp at is
        stopped := fun is => absurd ⟨nofun, nofun⟩ is
        told := kept.told }
  · rename_i place
    have serves := kept.going (.inr place)
    have loop : s.InLoop := by simp [InLoop, place]
    have taken := kept.taken (by simp [place])
    split
    · rename_i sockets
      exact kept.endLooper loop taken sockets (fun is => by simp [serves] at is) started
    · exact {
        serving := kept.serving
        going := fun _ => serves
        unsaved := kept.unsaved
        sockets := fun is => absurd place is
        taken := fun _ => taken
        swapped := fun is => by simp [place] at is
        stopped := fun is => absurd loop is
        told := kept.told }
  · rename_i place
    have loop : s.InLoop := by simp [InLoop, place]
    have idle := kept.taken (by simp [place])
    have sockets := kept.sockets (by simp [place])
    split
    · exact {
        serving := kept.serving
        going := fun is => by simp at is
        unsaved := fun _ => kept.unsaved (.inr loop)
        sockets := fun _ => sockets
        taken := fun is => absurd rfl is
        swapped := fun _ _ => rfl
        stopped := fun is => absurd ⟨nofun, nofun⟩ is
        told := kept.told }
    · rename_i e rest head
      have next : Kept { s with normalEvents := s.normalEvents.next true } := { kept with }
      exact next.processNormal place e
  · rename_i place
    have loop : s.InLoop := by simp [InLoop, place]
    have sockets := kept.sockets (by simp [place])
    split
    · rename_i taken
      exact kept.endLooper loop taken sockets (kept.swapped place) started
    · rename_i more
      exact {
        serving := kept.serving
        going := fun is => by simp [place] at is
        unsaved := kept.unsaved
        sockets := fun _ => sockets
        taken := fun is => absurd place is
        swapped := fun _ stopped => by
          rw [Mailbox.next_waiting]
          exact kept.swapped place stopped
        stopped := fun is => absurd loop is
        told := fun alive d mem => by
          cases Mailbox.mem_next mem with
          | inl before => exact kept.told alive d before
          | inr now => exact now }
  · rename_i place
    exact kept.afterLooper place started
  · exact kept

theorem Kept.step (kept : s.Kept) (e : Step) : (s.step e).Kept := by
  cases e with
  | main started => exact kept.main started
  | addNormal eId sMsg =>
    simp only [ServerManager.step]
    split
    · exact kept
    · unfold ServerManager.addNormal
      split
      · exact kept
      · exact { kept with }
  | addThread eId sMsg =>
    simp only [ServerManager.step]
    split
    · rename_i serves
      have alive : s.serverTerminated = false := by
        have eq := kept.serving
        rw [serves] at eq
        simpa using eq.symm
      exact {
        kept with
        swapped := fun _ stopped => by simp [addThread, alive] at stopped
        stopped := fun _ stopped => by simp [addThread, alive] at stopped }
    · exact kept
  | acceptSocket socket =>
    simp only [ServerManager.step]
    split
    · rename_i serves
      have alive : s.serverTerminated = false := by
        have eq := kept.serving
        rw [serves] at eq
        simpa using eq.symm
      exact {
        kept with
        stopped := fun _ stopped => by simp [acceptSocket, alive] at stopped }
    · exact kept
  | signal => exact { kept with told := nofun }

theorem running_kept : running.Kept where
  serving := rfl
  going := fun _ => rfl
  unsaved := fun _ => ⟨rfl, rfl⟩
  sockets := fun _ => rfl
  taken := fun _ => rfl
  swapped := fun _ _ => rfl
  stopped := fun _ _ => ⟨rfl, rfl⟩
  told := fun _ _ mem => absurd mem List.not_mem_nil

end

end ServerManager

end FlyHub.Server
