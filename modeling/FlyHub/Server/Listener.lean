import FlyHub.Lib.Run
import Mathlib.Tactic.Common

/-!
# Suspended ports

The thread of a port accepts connections one by one. The main thread suspends it, for a time
or until it is resumed, by closing its socket; the thread finds that out when `accept` returns,
and waits. What either thread does in the meantime decides whether the port comes back.
-/

namespace FlyHub.Server

open FlyHub.Lib

/-- What `accept` has returned: a connection, or what `errno` says. -/
inductive Accepted where
  | socket (s : Nat)
  | wouldBlock
  | mFile
  | failure
  deriving DecidableEq, Repr

/-- What the system does at the next step of the thread: what `accept` returns, and whether
`Listen` succeeds. -/
structure Os where
  accepted : Accepted
  listens : Bool

/-- How far the thread of a port is. -/
inductive ThreadPlace where
  | top
  | accepting
  | accepted (s : Accepted)
  | waiting (iSec : Nat)
  | recovering
  | listening
  | done
  deriving DecidableEq, Repr

/-- The thread of a port. `server` tells that its socket is open. Of the connections that
`accept` has returned, those in `checked` were given to `isFlooder`, and those in `lost` were
neither used nor closed. -/
structure ServerThread where
  place : ThreadPlace
  server : Bool
  suspendTime : Nat
  suspended : Bool
  terminated : Bool
  active : Bool
  reports : Nat
  checked : List Nat
  closed : List Nat
  lost : List Nat

namespace Accepted

def toList : Accepted → List Nat
  | socket s => [s]
  | _ => []

end Accepted

namespace ServerThread

/-- A thread that has just been started. -/
def started : ServerThread where
  place := .top
  server := true
  suspendTime := 0
  suspended := false
  terminated := false
  active := true
  reports := 0
  checked := []
  closed := []
  lost := []

variable (t : ServerThread)

/-- `Close`. -/
def close : ServerThread := { t with terminated := true, server := false }

/-- `SuspendSck`. -/
def suspendSck (time : Nat) : ServerThread :=
  if t.active then
    if time ≠ 0 then { t with suspendTime := time, server := false }
    else { t with suspended := true, suspendTime := 1, server := false }
  else t

/-- `ResumeSck`. -/
def resumeSck : ServerThread :=
  if t.active then { t with suspended := false, suspendTime := 0 } else t

/-- `accept` has returned. -/
def afterAccept (s : Accepted) : ServerThread :=
  if t.suspendTime = 0 then
    if t.terminated then { t with closed := t.closed ++ s.toList, place := .top }
    else
      match s with
      | .socket s => { t with checked := t.checked ++ [s], place := .top }
      | .failure => { t with reports := t.reports + 1, place := .top }
      | .wouldBlock | .mFile => { t with place := .top }
  else { t with lost := t.lost ++ s.toList, place := .waiting 0 }

/-- The next step of `Run`. A call of `accept` goes on when its socket is closed. -/
def run (os : Os) : ServerThread :=
  match t.place with
  | .top =>
    if t.terminated then { t with active := false, place := .done }
    else if t.server then { t with place := .accepting }
    else { t with place := .accepted .failure }
  | .accepting => { t with place := .accepted os.accepted }
  | .accepted s => t.afterAccept s
  | .waiting iSec =>
    if t.terminated then { t with place := .top }
    else if iSec < t.suspendTime then
      { t with place := .waiting (if t.suspended then iSec else iSec + 1) }
    else { t with place := .recovering }
  | .recovering => { t with suspendTime := 0, place := .listening }
  | .listening =>
    if os.listens then { t with server := true, place := .top }
    else { t.close with place := .top }
  | .done => t

end ServerThread

/-- A step of the two threads. -/
inductive ThreadStep where
  | suspend (time : Nat)
  | resume
  | close
  | run (os : Os)

/-- The main thread suspends the port. -/
def ThreadStep.suspends : ThreadStep → Bool
  | .suspend _ => true
  | _ => false

namespace ServerThread

def step (t : ServerThread) : ThreadStep → ServerThread
  | .suspend time => t.suspendSck time
  | .resume => t.resumeSck
  | .close => t.close
  | .run os => t.run os

/-! ## A port that is suspended for good -/

/-- The thread has waited long enough for the next suspension, or is about to open its socket
again. -/
def recovers (t : ServerThread) : Bool :=
  match t.place with
  | .waiting iSec => 0 < iSec && !t.terminated
  | .recovering | .listening => true
  | _ => false

/-- The port is closed, and the thread is not on its way to open it. -/
structure Shut (t : ServerThread) : Prop where
  server : t.server = false
  suspended : t.suspended = true
  time : t.suspendTime = 1
  place : t.recovers = false

section
variable {t : ServerThread} {os : Os}

/-- A thread that finds its port suspended for good takes no connection in and waits. -/
theorem Shut.run (shut : t.Shut) : (t.run os).Shut ∧ (t.run os).checked = t.checked := by
  obtain ⟨server, suspended, time, place⟩ := shut
  unfold recovers at place
  unfold ServerThread.run
  cases at_ : t.place with
  | top =>
    simp only
    split
    · exact ⟨⟨server, suspended, time, rfl⟩, rfl⟩
    · rw [if_neg (by simp [server])]
      exact ⟨⟨server, suspended, time, rfl⟩, rfl⟩
  | accepting => exact ⟨⟨server, suspended, time, rfl⟩, rfl⟩
  | accepted s =>
    simp only [afterAccept]
    rw [if_neg (by simp [time])]
    exact ⟨⟨server, suspended, time, rfl⟩, rfl⟩
  | waiting iSec =>
    simp only [at_] at place
    simp only
    split
    · exact ⟨⟨server, suspended, time, rfl⟩, rfl⟩
    · rename_i going
      have first : iSec = 0 := by simpa [going] using place
      subst first
      rw [if_pos (by omega)]
      exact ⟨⟨server, suspended, time, rfl⟩, rfl⟩
  | recovering => simp [at_] at place
  | listening => simp [at_] at place
  | done => exact ⟨⟨server, suspended, time, by simp [recovers, at_]⟩, rfl⟩

theorem Shut.runs (shut : t.Shut) (oss : List Os) :
    (Lib.run ServerThread.run t oss).Shut ∧
      (Lib.run ServerThread.run t oss).checked = t.checked := by
  induction oss generalizing t with
  | nil => exact ⟨shut, rfl⟩
  | cons os oss ih =>
    obtain ⟨rest, same⟩ := ih shut.run.1
    exact ⟨rest, same.trans shut.run.2⟩

theorem shut_of_suspend (active : t.active = true) (place : t.recovers = false) :
    (t.suspendSck 0).Shut := by
  simp only [suspendSck, active, if_true, ne_eq, not_true_eq_false, if_false]
  exact ⟨rfl, rfl, rfl, place⟩

/-- The steps in which a thread that recovers opens its socket. -/
def opening : List Os := List.replicate 3 ⟨.failure, true⟩

theorem opens_of_recovers (active : t.active = true) (place : t.recovers = true) :
    ∃ oss : List Os, (Lib.run ServerThread.run (t.suspendSck 0) oss).server = true := by
  unfold recovers at place
  have suspended : t.suspendSck 0 =
      { t with suspended := true, suspendTime := 1, server := false } := by
    simp [suspendSck, active]
  rw [suspended]
  split at place
  · rename_i iSec at_
    obtain ⟨counted, going⟩ := by simpa using place
    have late : ¬ iSec < 1 := by omega
    refine ⟨opening, ?_⟩
    simp [opening, List.replicate, ServerThread.run, at_, going, late]
  · rename_i at_
    refine ⟨opening.take 2, ?_⟩
    simp [opening, List.replicate, ServerThread.run, at_]
  · rename_i at_
    refine ⟨opening.take 1, ?_⟩
    simp [opening, List.replicate, ServerThread.run, at_]
  · simp at place

/-- A port that is suspended until it is resumed stays closed and takes no connection in,
whatever its thread does, exactly if the thread was not on its way back from a suspension
of which it had waited a second. -/
theorem stays_shut_iff (t : ServerThread) (active : t.active = true) :
    (∀ oss : List Os, (Lib.run ServerThread.run (t.suspendSck 0) oss).server = false ∧
      (Lib.run ServerThread.run (t.suspendSck 0) oss).checked = t.checked) ↔
    t.recovers = false := by
  constructor
  · intro stays
    by_contra place
    obtain ⟨oss, opened⟩ := opens_of_recovers active (Bool.not_eq_false _ ▸ place)
    exact absurd ((stays oss).1.symm.trans opened) (by simp)
  · intro place oss
    have same : (t.suspendSck 0).checked = t.checked := by
      simp [suspendSck, active]
    obtain ⟨shut, checked⟩ := (shut_of_suspend active place).runs oss
    exact ⟨shut.server, checked.trans same⟩

/-- A port that has been suspended for two seconds, of which one is over. -/
def halfway : ServerThread :=
  Lib.run step started (.suspend 2 :: List.replicate 3 (.run ⟨.failure, true⟩))

theorem stays_shut_halfway :
    ¬ ∀ oss : List Os, (Lib.run ServerThread.run (halfway.suspendSck 0) oss).server = false ∧
      (Lib.run ServerThread.run (halfway.suspendSck 0) oss).checked = halfway.checked :=
  fun stays => absurd ((stays_shut_iff halfway rfl).mp stays) (by decide)

/-! ## A port that is resumed -/

/-- The thread has found its port closed and waits, or is about to open it again. -/
def waits (t : ServerThread) : Bool :=
  match t.place with
  | .waiting _ => !t.terminated
  | .recovering | .listening => true
  | _ => false

/-- The port is closed, and the thread knows nothing of it. -/
structure Stuck (t : ServerThread) : Prop where
  server : t.server = false
  time : t.suspendTime = 0
  place : t.waits = false

theorem Stuck.run (stuck : t.Stuck) (os : Os) : (t.run os).Stuck := by
  obtain ⟨server, time, place⟩ := stuck
  unfold waits at place
  unfold ServerThread.run
  cases at_ : t.place with
  | top =>
    simp only
    split
    · exact ⟨server, time, rfl⟩
    · rw [if_neg (by simp [server])]
      exact ⟨server, time, rfl⟩
  | accepting => exact ⟨server, time, rfl⟩
  | accepted s =>
    simp only [afterAccept]
    rw [if_pos time]
    split
    · exact ⟨server, time, rfl⟩
    · cases s with
      | socket s => exact ⟨server, time, rfl⟩
      | failure => exact ⟨server, time, rfl⟩
      | wouldBlock => exact ⟨server, time, rfl⟩
      | mFile => exact ⟨server, time, rfl⟩
  | waiting iSec =>
    simp only [at_, Bool.not_eq_false'] at place
    simp only
    rw [if_pos place]
    exact ⟨server, time, rfl⟩
  | recovering => simp [at_] at place
  | listening => simp [at_] at place
  | done => exact ⟨server, time, by simp [waits, at_]⟩

theorem Stuck.step (stuck : t.Stuck) {e : ThreadStep} (resumed : e.suspends = false) :
    (t.step e).Stuck := by
  cases e with
  | suspend time => cases resumed
  | resume =>
    simp only [ServerThread.step, resumeSck]
    split
    · exact ⟨stuck.server, rfl, stuck.place⟩
    · exact stuck
  | close =>
    refine ⟨rfl, stuck.time, ?_⟩
    have place := stuck.place
    unfold waits at place ⊢
    simp only [ServerThread.step, close]
    split
    · rfl
    · rename_i at_
      simp [at_] at place
    · rename_i at_
      simp [at_] at place
    · rfl
  | run os => exact stuck.run os

/-- A closed port that is resumed can come back exactly if its thread has noticed that it was
suspended. If it hasn't, the port stays closed until it is suspended once more. -/
theorem comes_back_iff (t : ServerThread) (active : t.active = true) (closed : t.server = false) :
    (∃ es : List ThreadStep, (∀ e ∈ es, e.suspends = false) ∧
      (Lib.run step t.resumeSck es).server = true) ↔ t.waits = true := by
  have resumed : t.resumeSck = { t with suspended := false, suspendTime := 0 } := by
    simp [resumeSck, active]
  rw [resumed]
  constructor
  · rintro ⟨es, goes, opened⟩
    by_contra place
    have stuck : Stuck { t with suspended := false, suspendTime := 0 } :=
      ⟨closed, rfl, Bool.eq_false_iff.mpr place⟩
    have rest : (Lib.run step { t with suspended := false, suspendTime := 0 } es).Stuck := by
      have allowed : Allowed step (fun _ e => e.suspends = false)
          { t with suspended := false, suspendTime := 0 } es :=
        allowed_iff_steps.mpr fun pre e inside => goes e (inside.subset (by simp))
      exact allowed_invariant Stuck (fun _ e stuck resumed => stuck.step resumed) stuck allowed
    exact absurd (rest.server.symm.trans opened) (by simp)
  · intro place
    have goes (n : Nat) : ∀ e ∈ (opening.take n).map ThreadStep.run, e.suspends = false := by
      intro e mem
      obtain ⟨os, -, rfl⟩ := List.mem_map.mp mem
      rfl
    unfold waits at place
    split at place
    · rename_i iSec at_
      have going : t.terminated = false := by simpa using place
      refine ⟨_, goes 3, ?_⟩
      simp [opening, List.replicate, ServerThread.step, ServerThread.run, at_, going]
    · rename_i at_
      refine ⟨_, goes 2, ?_⟩
      simp [opening, List.replicate, ServerThread.step, ServerThread.run, at_]
    · rename_i at_
      refine ⟨_, goes 1, ?_⟩
      simp [opening, List.replicate, ServerThread.step, ServerThread.run, at_]
    · simp at place

end

/-- A port whose thread still waits for a connection when it is suspended. -/
def unnoticed : ServerThread :=
  Lib.run step started [.run ⟨.failure, true⟩, .suspend 0]

theorem comes_back_unnoticed :
    ¬ ∃ es : List ThreadStep, (∀ e ∈ es, e.suspends = false) ∧
      (Lib.run step unnoticed.resumeSck es).server = true :=
  fun back => absurd ((comes_back_iff unnoticed rfl rfl).mp back) (by decide)

/-! ## The connections -/

section
variable {t : ServerThread}

/-- The connection that `accept` returns. -/
def returns (t : ServerThread) : ThreadStep → Option Nat
  | .run os => if t.place = .accepting then os.accepted.toList.head? else none
  | _ => none

/-- The thread is suspended while it runs. -/
def suspension (t : ServerThread) : ThreadStep → Option Nat
  | .suspend time => if t.active then some time else none
  | _ => none

/-- The connection that the thread has in hand. -/
def inHand (t : ServerThread) : List Nat :=
  match t.place with
  | .accepted s => s.toList
  | _ => []

/-- What has become of the connections. -/
def fates (t : ServerThread) : List Nat := t.checked ++ t.closed ++ t.lost ++ t.inHand

/-- The thread has been suspended and has not noticed, so that it loses the connection that it
gets next. -/
def loses (t : ServerThread) : Bool :=
  t.suspendTime ≠ 0 &&
    match t.place with
    | .accepting | .accepted _ | .listening => true
    | .top => !t.terminated
    | _ => false

theorem toList_head? (s : Accepted) : s.toList.head?.toList = s.toList := by
  cases s <;> rfl

theorem afterAccept_fates (s : Accepted) (place : t.place = .accepted s) :
    (t.afterAccept s).fates.Perm t.fates := by
  have hand : t.inHand = s.toList := by
    unfold inHand
    rw [place]
  unfold fates
  rw [hand]
  unfold afterAccept
  split
  · split
    · simp only [inHand, List.append_nil, List.append_assoc]
      exact (List.perm_append_comm.append_left _).append_left _
    · cases s with
      | socket s =>
        simp only [inHand, Accepted.toList, List.append_nil, List.append_assoc]
        refine List.Perm.append_left _ ?_
        rw [← List.append_assoc t.closed]
        exact List.perm_append_comm
      | failure | wouldBlock | mFile => simp [inHand, Accepted.toList]
  · simp only [inHand, List.append_nil, List.append_assoc]
    exact .refl _

theorem fates_of_same {u : ServerThread} (checked : u.checked = t.checked)
    (closed : u.closed = t.closed) (lost : u.lost = t.lost) (hand : u.inHand = t.inHand) :
    u.fates = t.fates := by
  rw [fates, checked, closed, lost, hand, fates]

theorem accept_fates (place : t.place = .accepting) (s : Accepted) :
    ({ t with place := .accepted s } : ServerThread).fates = t.fates ++ s.toList := by
  have hand : t.inHand = [] := by
    unfold inHand
    rw [place]
  unfold fates
  rw [hand, List.append_nil]
  rfl

/-- A step of the thread keeps every connection, and has the one that `accept` returns in
hand. -/
theorem run_fates (t : ServerThread) (os : Os) :
    (t.run os).fates.Perm (t.fates ++ (t.returns (.run os)).toList) := by
  simp only [returns]
  unfold ServerThread.run
  cases at_ : t.place with
  | accepting =>
    simp only [if_true, toList_head?]
    exact .of_eq (accept_fates at_ os.accepted)
  | accepted s =>
    simp only [reduceCtorEq, if_false, Option.toList_none, List.append_nil]
    exact afterAccept_fates s at_
  | done => simp
  | _ =>
    have hand : [] = t.inHand := by
      unfold inHand
      rw [at_]
    simp only [reduceCtorEq, if_false, Option.toList_none, List.append_nil]
    repeat' split
    all_goals exact .of_eq (fates_of_same rfl rfl rfl hand)

theorem step_fates (t : ServerThread) (e : ThreadStep) :
    (t.step e).fates.Perm (t.fates ++ (t.returns e).toList) := by
  cases e with
  | run os => exact run_fates t os
  | suspend time =>
    simp only [ServerThread.step, suspendSck, returns, Option.toList_none, List.append_nil]
    split
    · split
      · exact .refl _
      · exact .refl _
    · exact .refl _
  | resume =>
    simp only [ServerThread.step, resumeSck, returns, Option.toList_none, List.append_nil]
    split
    · exact .refl _
    · exact .refl _
  | close =>
    simp only [returns, Option.toList_none, List.append_nil]
    exact .refl _

theorem afterAccept_lost (s : Accepted) (place : t.place = .accepted s) :
    (t.afterAccept s).lost.length + (t.afterAccept s).loses.toNat ≤
      t.lost.length + t.loses.toNat := by
  have one : s.toList.length ≤ 1 := by cases s <;> simp [Accepted.toList]
  unfold afterAccept
  split
  · rename_i time
    split
    · simp [loses, time]
    · cases s <;> simp [loses, time]
  · rename_i time
    have now : t.loses = true := by simp [loses, place, time]
    rw [now, List.length_append]
    simpa [loses] using one

/-- A thread loses a connection only if it has been suspended since it last waited. -/
theorem run_lost (t : ServerThread) (os : Os) :
    (t.run os).lost.length + (t.run os).loses.toNat ≤ t.lost.length + t.loses.toNat := by
  unfold ServerThread.run
  cases at_ : t.place with
  | accepted s => exact afterAccept_lost s at_
  | top =>
    simp only
    split
    · simp [loses]
    · rename_i going
      split
      · simp [loses, at_, going]
      · simp [loses, at_, going]
  | accepting => simp [loses, at_]
  | waiting iSec =>
    simp only
    split
    · rename_i ended
      simp [loses, ended]
    · split
      · simp [loses]
      · simp [loses]
  | recovering => simp [loses]
  | listening =>
    simp only
    split
    · simp only [loses, at_]
      cases t.terminated <;> simp
    · simp [loses, close]
  | done => exact Nat.le_refl _

theorem step_lost (t : ServerThread) (e : ThreadStep) :
    (t.step e).lost.length + (t.step e).loses.toNat ≤
      t.lost.length + t.loses.toNat + (t.suspension e).toList.length := by
  cases e with
  | run os => exact Nat.le_trans (run_lost t os) (Nat.le_add_right _ _)
  | suspend time =>
    have small := Bool.toNat_le (t.suspendSck time).loses
    cases active : t.active with
    | false => simp [ServerThread.step, suspendSck, suspension, active]
    | true =>
      have same : (t.suspendSck time).lost = t.lost := by
        simp only [suspendSck, active, if_true]
        split
        · rfl
        · rfl
      simp only [ServerThread.step, suspension, active, if_true, same, Option.toList_some,
        List.length_singleton]
      omega
  | resume =>
    simp only [ServerThread.step, resumeSck]
    split
    · rw [show ({ t with suspended := false, suspendTime := 0 } : ServerThread).loses = false by
        simp [loses]]
      exact Nat.le_trans (Nat.le_add_right _ _) (Nat.le_add_right _ _)
    · exact Nat.le_add_right _ _
  | close =>
    have less : t.close.loses.toNat ≤ t.loses.toNat := by
      unfold loses close
      cases t.place <;> simp
    simp only [ServerThread.step]
    exact Nat.le_trans (Nat.add_le_add_left less _) (Nat.le_add_right _ _)

/-- Every connection that `accept` returns is checked for floods, closed with the port, lost or
still in hand, and a port loses no more connections than it has been suspended. -/
theorem connections_kept (es : List ThreadStep) :
    (Lib.run step started es).fates.Perm (trace step returns started es) ∧
      (Lib.run step started es).lost.length ≤ (trace step suspension started es).length := by
  have both : (Lib.run step started es).fates.Perm (trace step returns started es) ∧
      (Lib.run step started es).lost.length + (Lib.run step started es).loses.toNat ≤
        (trace step suspension started es).length := by
    induction es using List.reverseRecOn with
    | nil => exact ⟨.refl _, Nat.le_refl _⟩
    | append_singleton es e ih =>
      rw [trace_concat, trace_concat, run_concat, List.length_append]
      constructor
      · exact (step_fates _ e).trans (ih.1.append_right _)
      · exact Nat.le_trans (step_lost _ e) (Nat.add_le_add_right ih.2 _)
  exact ⟨both.1, Nat.le_trans (Nat.le_add_right _ _) both.2⟩

end

end ServerThread

end FlyHub.Server
