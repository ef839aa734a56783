import FlyHub.Lib.Run
import Mathlib.Algebra.BigOperators.Fin
import Mathlib.Algebra.Order.BigOperators.Group.Finset

/-!
# The traffic of the last minute

Every second the hub writes the bytes that were moved since the second before into one of 60
slots, and keeps the total of the slots by subtracting what the slot held. A start of the hub
sets the total and the counter of bytes to zero.
-/

namespace FlyHub.Connection

open FlyHub.Lib

/-- The counters of one direction: `m_ui64BytesRead` and `m_ui32DownloadSpeed`, or
`m_ui64BytesSent` and `m_ui32UploadSpeed`. -/
structure Traffic where
  bytes : UInt64
  lastBytes : UInt64
  actualBytes : UInt32
  averageBytes : UInt32
  speed : Fin 60 → UInt32

namespace Traffic

def init : Traffic := ⟨0, 0, 0, 0, fun _ => 0⟩

variable (m : Traffic)

def move (n : Nat) : Traffic := { m with bytes := m.bytes + UInt64.ofNat n }

/-- `OnSecTimer`, with the slot of the new second. -/
def tick (slot : Fin 60) : Traffic :=
  let actual := (m.bytes - m.lastBytes).toUInt32
  { bytes := m.bytes
    lastBytes := m.bytes
    actualBytes := actual
    averageBytes := m.averageBytes - m.speed slot + actual
    speed := Function.update m.speed slot actual }

/-- `Start`. -/
def start : Traffic := { m with bytes := 0, actualBytes := 0, averageBytes := 0 }

end Traffic

/-- The counters of `ServerManager`. -/
structure ServerTraffic where
  read : Traffic
  sent : Traffic
  minTick : Fin 60

inductive TrafficEvent where
  | read (n : Nat)
  | sent (n : Nat)
  | second
  | stop
  | start

namespace ServerTraffic

/-- `Initialize`. -/
def init : ServerTraffic := ⟨Traffic.init, Traffic.init, 0⟩

variable (s : ServerTraffic)

def onSecTimer : ServerTraffic :=
  let minTick := s.minTick + 1
  ⟨s.read.tick minTick, s.sent.tick minTick, minTick⟩

/-- A stop leaves the counters alone. -/
def step : TrafficEvent → ServerTraffic
  | .read n => { s with read := s.read.move n }
  | .sent n => { s with sent := s.sent.move n }
  | .second => s.onSecTimer
  | .stop => s
  | .start => ⟨s.read.start, s.sent.start, s.minTick⟩

end ServerTraffic

/-! ## What was moved -/

/-- What really was moved in one direction: since the last second or the start of the hub, and
in each of the last seconds. -/
structure Moved where
  now : Nat
  seconds : Fin 60 → Nat

namespace Moved

def init : Moved := ⟨0, fun _ => 0⟩

variable (w : Moved)

def move (n : Nat) : Moved := { w with now := w.now + n }

def tick (slot : Fin 60) : Moved := ⟨0, Function.update w.seconds slot w.now⟩

def start : Moved := { w with now := 0 }

end Moved

/-- The counters, and what they count. -/
structure Watched where
  server : ServerTraffic
  read : Moved
  sent : Moved

namespace Watched

def init : Watched := ⟨ServerTraffic.init, Moved.init, Moved.init⟩

variable (s : Watched)

def step (e : TrafficEvent) : Watched :=
  let server := s.server.step e
  match e with
  | .read n => ⟨server, s.read.move n, s.sent⟩
  | .sent n => ⟨server, s.read, s.sent.move n⟩
  | .second => ⟨server, s.read.tick server.minTick, s.sent.tick server.minTick⟩
  | .stop => { s with server := server }
  | .start => ⟨server, s.read.start, s.sent.start⟩

end Watched

/-- The average is the total of the slots, and each of them has what was moved. -/
structure Consistent (m : Traffic) (w : Moved) : Prop where
  average : m.averageBytes.toNat = ∑ i, (m.speed i).toNat
  slots : ∀ i, (m.speed i).toNat = w.seconds i

def Watched.Consistent (s : Watched) : Prop :=
  Connection.Consistent s.server.read s.read ∧ Connection.Consistent s.server.sent s.sent

/-- A second whose bytes, and a minute whose bytes, are numbers of 32 bits. -/
structure Moved.Fits (w : Moved) (slot : Fin 60) : Prop where
  second : w.now < UInt32.size
  minute : ∑ i, (w.tick slot).seconds i < UInt32.size

/-- Nothing is left in the slots, nor of the bytes in 32 bits. -/
structure Traffic.Fresh (m : Traffic) : Prop where
  slots : ∀ i, m.speed i = 0
  lastBytes : m.lastBytes.toUInt32 = 0

def Watched.Fine (s : Watched) : TrafficEvent → Prop
  | .second =>
    s.read.Fits (s.server.minTick + 1) ∧ s.sent.Fits (s.server.minTick + 1)
  | .start => s.server.read.Fresh ∧ s.server.sent.Fresh
  | _ => True

section
variable {m : Traffic} {w : Moved} {slot : Fin 60}

/-- The total of a ring in which a slot is written. -/
theorem sum_update (f : Fin 60 → Nat) (i : Fin 60) (b : Nat) :
    ∑ j, Function.update f i b j + f i = ∑ j, f j + b := by
  rw [Finset.sum_update_of_mem (Finset.mem_univ i), Finset.sdiff_singleton_eq_erase,
    ← Finset.add_sum_erase Finset.univ f (Finset.mem_univ i)]
  ac_rfl

/-- The invariant: what is not in the slots yet is what was moved since. -/
structure Counts (m : Traffic) (w : Moved) : Prop extends Consistent m w where
  now : (m.bytes - m.lastBytes).toUInt32.toNat = w.now % UInt32.size

theorem counts_init : Counts Traffic.init Moved.init where
  average := by simp [Traffic.init]
  slots _ := rfl
  now := rfl

theorem sub_toUInt32 (a b : UInt64) :
    (a - b).toUInt32.toNat = (UInt64.size - b.toNat + a.toNat) % UInt64.size % UInt32.size := by
  rw [UInt64.toNat_toUInt32, UInt64.toNat_sub]

theorem Counts.move (counts : Counts m w) (n : Nat) : Counts (m.move n) (w.move n) where
  average := counts.average
  slots := counts.slots
  now := by
    have now := counts.now
    have sum : (m.bytes + UInt64.ofNat n).toNat = (m.bytes.toNat + n) % UInt64.size := by
      rw [UInt64.toNat_add, UInt64.toNat_ofNat', Nat.add_mod_mod]
    have last : m.lastBytes.toNat < UInt64.size := m.lastBytes.toNat_lt
    rw [sub_toUInt32] at now ⊢
    rw [Traffic.move, Moved.move]
    dsimp only
    rw [sum]
    simp only [UInt64.size, UInt32.size] at *
    omega

/-- No slot is more than the total. -/
theorem speed_le (consistent : Consistent m w) (slot : Fin 60) :
    (m.speed slot).toNat ≤ m.averageBytes.toNat := by
  rw [consistent.average]
  exact Finset.single_le_sum (f := fun i => (m.speed i).toNat) (fun _ _ => Nat.zero_le _)
    (Finset.mem_univ slot)

theorem Counts.tick (counts : Counts m w) (fits : w.Fits slot) :
    Counts (m.tick slot) (w.tick slot) := by
  have actual : (m.bytes - m.lastBytes).toUInt32.toNat = w.now := by
    rw [counts.now, Nat.mod_eq_of_lt fits.second]
  have slots (i : Fin 60) : ((m.tick slot).speed i).toNat = (w.tick slot).seconds i := by
    rw [Traffic.tick, Moved.tick]
    dsimp only
    by_cases here : i = slot
    · rw [here, Function.update_self, Function.update_self, actual]
    · rw [Function.update_of_ne here, Function.update_of_ne here, counts.slots]
  refine ⟨⟨?_, slots⟩, ?_⟩
  · have total : ∑ i, ((m.tick slot).speed i).toNat = ∑ i, (w.tick slot).seconds i :=
      Finset.sum_congr rfl fun i _ => slots i
    have before : m.averageBytes.toNat = ∑ i, w.seconds i :=
      counts.average.trans (Finset.sum_congr rfl fun i _ => counts.slots i)
    have written := sum_update w.seconds slot w.now
    have minute := fits.minute
    have le := speed_le counts.toConsistent slot
    rw [Moved.tick] at minute total
    dsimp only at minute total
    rw [total, Traffic.tick]
    dsimp only
    rw [UInt32.toNat_add, UInt32.toNat_sub_of_le _ _ (UInt32.le_iff_toNat_le.mpr le), actual,
      counts.slots, before]
    rw [counts.slots, before] at le
    rw [Nat.mod_eq_of_lt]
    · omega
    · simp only [UInt32.size] at minute
      omega
  · rw [Traffic.tick, Moved.tick]
    dsimp only
    rw [UInt64.sub_self]
    rfl

theorem Counts.start (counts : Counts m w) (fresh : m.Fresh) : Counts m.start w.start where
  average := by
    simp [Traffic.start, fresh.slots]
  slots := counts.slots
  now := by
    have last : m.lastBytes.toNat % UInt32.size = 0 := by
      have zero := congrArg UInt32.toNat fresh.lastBytes
      rwa [UInt64.toNat_toUInt32] at zero
    have lt : m.lastBytes.toNat < UInt64.size := m.lastBytes.toNat_lt
    rw [sub_toUInt32, Traffic.start, Moved.start]
    simp only [UInt64.size, UInt32.size, UInt64.toNat_zero] at *
    omega

namespace Watched

/-- The invariant of both directions. -/
structure Counted (s : Watched) : Prop where
  read : Counts s.server.read s.read
  sent : Counts s.server.sent s.sent

theorem Counted.step {s : Watched} (counted : s.Counted) {e : TrafficEvent} (fine : s.Fine e) :
    (s.step e).Counted := by
  obtain ⟨read, sent⟩ := counted
  cases e with
  | read n => exact ⟨read.move n, sent⟩
  | sent n => exact ⟨read, sent.move n⟩
  | second => exact ⟨read.tick fine.1, sent.tick fine.2⟩
  | stop => exact ⟨read, sent⟩
  | start => exact ⟨read.start fine.1, sent.start fine.2⟩

/-- While a minute's bytes fit into 32 bits, and the hub starts with nothing left of before, the
averages are right. -/
theorem averages_consistent (es : List TrafficEvent) (fine : Allowed step Fine init es) :
    (run step init es).Consistent := by
  have counted : (run step init es).Counted :=
    allowed_invariant Counted (fun _ _ counted ok => counted.step ok) ⟨counts_init, counts_init⟩
      fine
  exact ⟨counted.read.toConsistent, counted.sent.toConsistent⟩

end Watched

end

/-- A byte is read in the first second, and the hub is started again. -/
def restarted : List TrafficEvent := [.start, .read 1, .second, .stop, .start]

namespace Watched

theorem restarted_inconsistent : ¬ (run step init restarted).Consistent := by
  intro consistent
  exact absurd consistent.1.average (by decide +kernel)

/-- A start, a second and a stop with some bytes. -/
theorem second_consistent :
    (run step init [.start, .read 7, .sent 5, .second, .stop]).Consistent := by
  refine averages_consistent _ ⟨?_, trivial, trivial, ?_, trivial, trivial⟩
  · exact ⟨⟨fun _ => rfl, rfl⟩, ⟨fun _ => rfl, rfl⟩⟩
  · exact ⟨⟨by decide +kernel, by decide +kernel⟩, ⟨by decide +kernel, by decide +kernel⟩⟩

end Watched

end FlyHub.Connection
