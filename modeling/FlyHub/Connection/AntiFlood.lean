import FlyHub.Lib.Window
import Mathlib.Data.List.Nodup
import Mathlib.Logic.Function.Basic

/-!
# Connection floods

Every port counts the connections of each address in a window that begins with the first
of them. What is counted is kept until the address comes again after its window, and no
address is taken in while more than 100000 are kept.
-/

namespace FlyHub.Connection

open FlyHub.Lib

/-- The address of a socket. -/
inductive Address where
  | inet (a b c d : UInt8)
  | inet6 (sin6_addr : Vector UInt8 16)
  deriving DecidableEq

namespace Address

def isIPv6 : Address → Bool
  | inet .. => false
  | inet6 _ => true

/-- `ui128IpHash`. -/
def ipHash : Address → List UInt8
  | inet a b c d => [a, b, c, d, 0, 0, 0, 0, 0, 0, 255, 255, 0, 0, 0, 0]
  | inet6 sin6_addr => sin6_addr.toList

end Address

/-- `SETSHORT_NEW_CONNECTIONS_COUNT` and `SETSHORT_NEW_CONNECTIONS_TIME`, and which ports
are of IPv6. -/
structure FloodSettings where
  conDefloodCount : Nat
  conDefloodTime : Nat
  inet6 : Nat → Bool
  count : 1 ≤ conDefloodCount ∧ conDefloodCount ≤ 999
  time : 1 ≤ conDefloodTime ∧ conDefloodTime ≤ 999

/-- A connection that a port accepts. A port has addresses of its own family. -/
structure Attempt (cfg : FloodSettings) where
  port : Nat
  addr : Address
  tick : Nat
  family : addr.isIPv6 = cfg.inet6 port

structure AntiConFlood where
  time : Nat
  hits : Int16
  deriving DecidableEq

/-- The maps of all the ports, and `GetTotalAntiFloodCount`. -/
structure AntiFlood where
  map : Nat × List UInt8 → Option AntiConFlood
  count : Nat

variable {cfg : FloodSettings}

namespace Attempt

def key (e : Attempt cfg) : Nat × List UInt8 := (e.port, e.addr.ipHash)

end Attempt

namespace AntiFlood

def empty : AntiFlood := ⟨fun _ => none, 0⟩

variable (s : AntiFlood)

def erase (key : Nat × List UInt8) : AntiFlood := ⟨Function.update s.map key none, s.count - 1⟩

/-- A new address, unless too many are kept. True if the connection is dropped. -/
def emplace (key : Nat × List UInt8) (tick : Nat) : AntiFlood × Bool :=
  if 100000 < s.count then (s, true)
  else (⟨Function.update s.map key (some ⟨tick, 1⟩), s.count + 1⟩, false)

/-- `isFlooder`. -/
def isFlooder (e : Attempt cfg) : AntiFlood × Bool :=
  match s.map e.key with
  | some it =>
    if e.tick ≤ it.time + cfg.conDefloodTime then
      let hits := it.hits + 1
      (⟨Function.update s.map e.key (some ⟨it.time, hits⟩), s.count⟩,
        Int16.ofNat cfg.conDefloodCount < hits)
    else (s.erase e.key).emplace e.key e.tick
  | none => s.emplace e.key e.tick

/-- After a sequence of connections. -/
def after (es : List (Attempt cfg)) : AntiFlood := es.foldl (fun s e => (s.isFlooder e).1) empty

end AntiFlood

/-! ## What is to be counted -/

section
variable (pre : List (Attempt cfg)) (e : Attempt cfg)

/-- The times at which an address has come to a port. -/
def ticks (key : Nat × List UInt8) : List Nat := (pre.filter fun f => f.key = key).map Attempt.tick

/-- Which attempt it is in the window of its address at the port. -/
def attempts : Nat :=
  (nextWindow cfg.conDefloodTime (window cfg.conDefloodTime (ticks pre e.key)) e.tick).2

/-- The address hasn't come to any port during the last window. -/
def Quiet : Prop := ∀ f ∈ pre, f.addr = e.addr → f.tick + cfg.conDefloodTime < e.tick

/-- How many addresses have come to a port during the last window. -/
def crowd : Nat :=
  (((pre ++ [e]).filter fun f => e.tick ≤ f.tick + cfg.conDefloodTime).map Attempt.addr).eraseDups.length

/-- The ticks never go back. -/
def Ordered (es : List (Attempt cfg)) : Prop := es.Pairwise fun f g => f.tick ≤ g.tick

def accepted : Bool := !((AntiFlood.after pre).isFlooder e).2

/-- The address is one of the first that ever came to their ports. -/
def Seated : Prop := e.key ∈ firstComers 100001 ((pre ++ [e]).map Attempt.key)

end

/-! ## What is kept -/

/-- The addresses that came first are kept, each with its last window. -/
structure Kept (es : List (Attempt cfg)) (s : AntiFlood) : Prop where
  count : s.count = (firstComers 100001 (es.map Attempt.key)).length
  map : ∀ key, s.map key =
    if key ∈ firstComers 100001 (es.map Attempt.key) then
      (window cfg.conDefloodTime (ticks es key)).map fun w => ⟨w.1, Int16.ofNat w.2⟩
    else none

section
variable {pre : List (Attempt cfg)} {e : Attempt cfg} {s : AntiFlood} {key : Nat × List UInt8}

theorem key_inj {e f : Attempt cfg} : f.key = e.key ↔ f.port = e.port ∧ f.addr = e.addr := by
  rw [Attempt.key, Attempt.key, Prod.mk.injEq]
  constructor
  · rintro ⟨port, hash⟩
    refine ⟨port, ?_⟩
    have same : f.addr.isIPv6 = e.addr.isIPv6 := by rw [f.family, e.family, port]
    match fa : f.addr, ea : e.addr with
    | .inet .., .inet .. =>
      rw [fa, ea] at hash
      simp only [Address.ipHash, List.cons.injEq] at hash
      obtain ⟨a, b, c, d, -⟩ := hash
      rw [a, b, c, d]
    | .inet6 _, .inet6 _ =>
      rw [fa, ea] at hash
      exact congrArg Address.inet6 (Vector.toList_inj.mp hash)
    | .inet .., .inet6 _ =>
      rw [fa, ea] at same
      cases same
    | .inet6 _, .inet .. =>
      rw [fa, ea] at same
      cases same
  · rintro ⟨port, addr⟩
    exact ⟨port, by rw [addr]⟩

theorem ticks_concat_self (pre : List (Attempt cfg)) (e : Attempt cfg) :
    ticks (pre ++ [e]) e.key = ticks pre e.key ++ [e.tick] := by
  simp [ticks]

theorem ticks_concat_other (other : key ≠ e.key) : ticks (pre ++ [e]) key = ticks pre key := by
  simp [ticks, Ne.symm other]

theorem mem_ticks {t : Nat} (mem : t ∈ ticks pre e.key) :
    ∃ f ∈ pre, f.port = e.port ∧ f.addr = e.addr ∧ f.tick = t := by
  obtain ⟨f, there, rfl⟩ := List.mem_map.mp mem
  obtain ⟨mem, same⟩ := List.mem_filter.mp there
  obtain ⟨port, addr⟩ := key_inj.mp (of_decide_eq_true same)
  exact ⟨f, mem, port, addr, rfl⟩

theorem ticks_of_new (new : e.key ∉ pre.map Attempt.key) : ticks pre e.key = [] := by
  apply List.eq_nil_iff_forall_not_mem.mpr
  intro t mem
  obtain ⟨f, there, port, addr, -⟩ := mem_ticks mem
  exact new (List.mem_map.mpr ⟨f, there, key_inj.mpr ⟨port, addr⟩⟩)

theorem kept_empty : Kept ([] : List (Attempt cfg)) AntiFlood.empty where
  count := rfl
  map := fun _ => rfl

/-- The window that is kept after the attempt, if its address is. -/
theorem window_after : (window cfg.conDefloodTime (ticks (pre ++ [e]) e.key)) =
    some (nextWindow cfg.conDefloodTime (window cfg.conDefloodTime (ticks pre e.key)) e.tick) := by
  rw [ticks_concat_self, window_concat]

/-- What is kept of one address is written anew, and the others stay. -/
theorem Kept.write {count : Nat} {it : AntiConFlood} (kept : Kept pre s)
    (seats : ∀ k, k ≠ e.key → (k ∈ firstComers 100001 ((pre ++ [e]).map Attempt.key) ↔
      k ∈ firstComers 100001 (pre.map Attempt.key)))
    (seated : Seated pre e)
    (count_ : count = (firstComers 100001 ((pre ++ [e]).map Attempt.key)).length)
    (it_ : it = ⟨(nextWindow cfg.conDefloodTime
      (window cfg.conDefloodTime (ticks pre e.key)) e.tick).1, Int16.ofNat (attempts pre e)⟩) :
    Kept (pre ++ [e]) ⟨Function.update s.map e.key (some it), count⟩ where
  count := count_
  map := by
    intro key
    dsimp only
    by_cases self : key = e.key
    · subst self
      have mem : e.key ∈ firstComers 100001 ((pre ++ [e]).map Attempt.key) := seated
      rw [Function.update_self, if_pos mem, window_after, it_]
      rfl
    · rw [Function.update_of_ne self, kept.map]
      simp only [seats key self, ticks_concat_other self]

/-! ## What one attempt does -/

/-- The count of an address has passed what is allowed. -/
def Over (pre : List (Attempt cfg)) (e : Attempt cfg) : Prop :=
  Int16.ofNat cfg.conDefloodCount < Int16.ofNat (attempts pre e)

theorem not_over_first (first : attempts pre e = 1) : ¬Over pre e := by
  have small := cfg.count
  rw [Over, first, Int16.lt_iff_toInt_lt, Int16.toInt_ofNat', Int16.toInt_ofNat']
  simp only [Int16.size]
  rw [Int.bmod_eq_of_le (by omega) (by omega), Int.bmod_eq_of_le (by omega) (by omega)]
  omega

theorem Kept.count_le (kept : Kept pre s) : s.count ≤ 100001 := by
  rw [kept.count]
  exact firstComers_length_le _ _

theorem Kept.mem_of_some {it : AntiConFlood} (kept : Kept pre s) (found : s.map key = some it) :
    key ∈ firstComers 100001 (pre.map Attempt.key) := by
  rw [kept.map] at found
  split at found
  · assumption
  · cases found

theorem Kept.not_mem_of_none (kept : Kept pre s) (none : s.map e.key = none) :
    e.key ∉ firstComers 100001 (pre.map Attempt.key) := by
  intro mem
  obtain ⟨f, there, same⟩ := List.mem_map.mp (mem_of_mem_firstComers mem)
  have came : f.tick ∈ ticks pre e.key :=
    List.mem_map_of_mem (List.mem_filter.mpr ⟨there, decide_eq_true same⟩)
  obtain ⟨w, has⟩ := @window_some cfg.conDefloodTime _ _ came
  rw [kept.map, if_pos mem, has] at none
  cases none

/-- Who is kept stays kept, and the others stay as they are. -/
theorem seated_again (mem : e.key ∈ firstComers 100001 (pre.map Attempt.key)) :
    firstComers 100001 ((pre ++ [e]).map Attempt.key) = firstComers 100001 (pre.map Attempt.key) := by
  rw [List.map_append]
  exact firstComers_again (mem_of_mem_firstComers mem)

theorem seats_again (mem : e.key ∈ firstComers 100001 (pre.map Attempt.key))
    (k : Nat × List UInt8) (_ : k ≠ e.key) :
    k ∈ firstComers 100001 ((pre ++ [e]).map Attempt.key) ↔
      k ∈ firstComers 100001 (pre.map Attempt.key) := by
  rw [seated_again mem]

/-- An address that is kept has its window, and that counts on or begins anew. -/
theorem Kept.step_known {it : AntiConFlood} (kept : Kept pre s) (found : s.map e.key = some it) :
    Kept (pre ++ [e]) (s.isFlooder e).1 ∧ ((s.isFlooder e).2 = true ↔ Over pre e) := by
  have mem := kept.mem_of_some found
  have seated : Seated pre e := by
    rw [Seated, seated_again mem]
    exact mem
  have counted : s.count = (firstComers 100001 ((pre ++ [e]).map Attempt.key)).length := by
    rw [seated_again mem, kept.count]
  have positive : 0 < s.count := by
    rw [kept.count]
    exact List.length_pos_of_mem mem
  have small := kept.count_le
  have has := found
  rw [kept.map, if_pos mem] at has
  obtain ⟨⟨start, n⟩, before, rfl⟩ := Option.map_eq_some_iff.mp has
  unfold AntiFlood.isFlooder
  simp only [found]
  by_cases inside : e.tick ≤ start + cfg.conDefloodTime
  · have next : nextWindow cfg.conDefloodTime (window cfg.conDefloodTime (ticks pre e.key)) e.tick
        = (start, n + 1) := by
      rw [before]
      exact if_pos inside
    have hits : Int16.ofNat n + 1 = Int16.ofNat (attempts pre e) := by
      rw [attempts, next, Int16.ofNat_add]
      rfl
    rw [if_pos inside]
    refine ⟨kept.write (seats_again mem) seated counted ?_, ?_⟩
    · rw [next, hits]
    · rw [hits, decide_eq_true_iff]
      rfl
  · have next : nextWindow cfg.conDefloodTime (window cfg.conDefloodTime (ticks pre e.key)) e.tick
        = (e.tick, 1) := by
      rw [before]
      exact if_neg inside
    have first : attempts pre e = 1 := by rw [attempts, next]
    have room : ¬100000 < s.count - 1 := by omega
    rw [if_neg inside]
    unfold AntiFlood.emplace AntiFlood.erase
    simp only [if_neg room, Function.update_idem, Nat.sub_add_cancel positive]
    refine ⟨kept.write (seats_again mem) seated counted ?_, ?_⟩
    · rw [next, first]
      rfl
    · exact iff_of_false Bool.false_ne_true (not_over_first first)

/-- A new address is kept if there is room. -/
theorem Kept.step_new (kept : Kept pre s) (none : s.map e.key = none) :
    Kept (pre ++ [e]) (s.isFlooder e).1 ∧
      ((s.isFlooder e).2 = true ↔ (Seated pre e → Over pre e)) := by
  have out := kept.not_mem_of_none none
  have map_concat : (pre ++ [e]).map Attempt.key = pre.map Attempt.key ++ [e.key] := by simp
  unfold AntiFlood.isFlooder AntiFlood.emplace
  simp only [none]
  by_cases full : 100000 < s.count
  · have same : firstComers 100001 ((pre ++ [e]).map Attempt.key) =
        firstComers 100001 (pre.map Attempt.key) := by
      rw [map_concat]
      exact firstComers_full (by rw [← kept.count]; exact full)
    simp only [if_pos full]
    have unseated : ¬Seated pre e := by
      rw [Seated, same]
      exact out
    refine ⟨⟨by rw [same, kept.count], ?_⟩, iff_of_true trivial fun seated => absurd seated unseated⟩
    intro key
    rw [same, kept.map]
    by_cases self : key = e.key
    · rw [self, if_neg out, if_neg out]
    · rw [ticks_concat_other self]
  · have room : (firstComers 100001 (pre.map Attempt.key)).length < 100001 := by
      rw [← kept.count]
      omega
    have new : e.key ∉ pre.map Attempt.key := fun mem => out (firstComers_mem_of_room mem room)
    have more : firstComers 100001 ((pre ++ [e]).map Attempt.key) =
        firstComers 100001 (pre.map Attempt.key) ++ [e.key] := by
      rw [map_concat]
      exact firstComers_room new room
    have seated : Seated pre e := by
      rw [Seated, more]
      exact List.mem_append_right _ (List.mem_singleton_self _)
    have first : attempts pre e = 1 := by rw [attempts, ticks_of_new new]; rfl
    simp only [if_neg full]
    refine ⟨kept.write ?_ seated ?_ ?_, iff_of_false Bool.false_ne_true ?_⟩
    · intro k other
      rw [more, List.mem_append, List.mem_singleton, or_iff_left other]
    · rw [more, List.length_append, kept.count]
      rfl
    · rw [first, ticks_of_new new]
      rfl
    · exact fun passed => not_over_first first (passed seated)

/-- A connection is dropped if its address has no place or has passed what is allowed. -/
theorem Kept.step (kept : Kept pre s) (e : Attempt cfg) :
    Kept (pre ++ [e]) (s.isFlooder e).1 ∧
      ((s.isFlooder e).2 = true ↔ (Seated pre e → Over pre e)) := by
  cases found : s.map e.key with
  | some it =>
    have seated : Seated pre e := by
      rw [Seated, seated_again (kept.mem_of_some found)]
      exact kept.mem_of_some found
    obtain ⟨kept', dropped⟩ := kept.step_known found
    exact ⟨kept', dropped.trans ⟨fun full _ => full, fun full => full seated⟩⟩
  | none => exact kept.step_new found

theorem kept_after (es : List (Attempt cfg)) : Kept es (AntiFlood.after es) := by
  induction es using List.reverseRecOn with
  | nil => exact kept_empty
  | append_singleton es e ih =>
    rw [AntiFlood.after, List.foldl_append]
    exact (ih.step e).1

theorem accepted_iff : accepted pre e = true ↔ Seated pre e ∧ ¬Over pre e := by
  have dropped := ((kept_after pre).step e).2
  rw [accepted, Bool.not_eq_true', ← Bool.not_eq_true, dropped, Classical.not_imp]

/-- The count of hits wraps round at 32768. -/
theorem over_iff : Over pre e ↔
    cfg.conDefloodCount < attempts pre e % 65536 ∧ attempts pre e % 65536 < 32768 := by
  have small := cfg.count
  rw [Over, Int16.lt_iff_toInt_lt, Int16.toInt_ofNat', Int16.toInt_ofNat']
  simp only [Int16.size]
  rw [Int.bmod_eq_of_le (by omega) (by omega), Int.bmod_def]
  split <;> omega

end

/-! ## What the limit is for -/

section
variable (pre : List (Attempt cfg)) (e : Attempt cfg)

/-- A quiet address gets in while there is no crowd, and a flooder doesn't. -/
def Limits : Prop :=
  (Quiet pre e → crowd pre e ≤ 100000 → accepted pre e = true) ∧
    (cfg.conDefloodCount < attempts pre e → accepted pre e = false)

theorem attempts_quiet (quiet : Quiet pre e) : attempts pre e = 1 := by
  have past : ∀ t ∈ ticks pre e.key, t + cfg.conDefloodTime < e.tick := by
    intro t mem
    obtain ⟨f, there, -, addr, rfl⟩ := mem_ticks mem
    exact quiet f there addr
  rw [attempts, nextWindow_quiet past]

/-- The quiet get in if they have a place, and who has one is stopped while his hits
are counted right. -/
theorem limits_iff : Limits pre e ↔
    (Quiet pre e → crowd pre e ≤ 100000 → Seated pre e) ∧
      (cfg.conDefloodCount < attempts pre e → Seated pre e →
        cfg.conDefloodCount < attempts pre e % 65536 ∧ attempts pre e % 65536 < 32768) := by
  have quiet_in (quiet : Quiet pre e) : accepted pre e = true ↔ Seated pre e := by
    rw [accepted_iff]
    exact and_iff_left (not_over_first (attempts_quiet pre e quiet))
  have out : accepted pre e = false ↔ (Seated pre e → cfg.conDefloodCount < attempts pre e % 65536 ∧
      attempts pre e % 65536 < 32768) := by
    rw [← Bool.not_eq_true, accepted_iff, over_iff, Classical.not_and_iff_not_or_not,
      Classical.not_not, ← imp_iff_not_or]
  constructor
  · rintro ⟨quiet, flood⟩
    exact ⟨fun q few => (quiet_in q).mp (quiet q few), fun many => out.mp (flood many)⟩
  · rintro ⟨quiet, flood⟩
    exact ⟨fun q few => (quiet_in q).mpr (quiet q few), fun many => out.mpr (flood many)⟩

/-- When the first 100001 have come, no other is let in any more. -/
theorem newcomer_dropped (full : 100001 ≤ (firstComers 100001 (pre.map Attempt.key)).length)
    (new : e.key ∉ pre.map Attempt.key) : accepted pre e = false := by
  rw [← Bool.not_eq_true, accepted_iff]
  rintro ⟨seated, -⟩
  rw [Seated, List.map_append] at seated
  exact new (mem_of_mem_firstComers (firstComers_full full ▸ seated))

end

/-! ## A flooder let through, and a newcomer kept out -/

/-- The defaults of the settings. -/
def defaults : FloodSettings := ⟨10, 60, fun _ => false, by decide, by decide⟩

def flooder : Attempt defaults := ⟨411, .inet 10 0 0 1, 0, rfl⟩

def stranger (n : Nat) : Attempt defaults :=
  ⟨411, .inet (.ofNat (n / 65536)) (.ofNat (n / 256)) (.ofNat n) 1, 0, rfl⟩

def strangers : List (Attempt defaults) := (List.range 100001).map stranger

def newcomer : Attempt defaults := ⟨411, .inet 10 0 0 1, 1000, rfl⟩

theorem ticks_flooder (n : Nat) :
    ticks (List.replicate n flooder) flooder.key = List.replicate n 0 := by
  have all : (List.replicate n flooder).filter (fun f => f.key = flooder.key) =
      List.replicate n flooder :=
    List.filter_eq_self.mpr fun f mem => decide_eq_true (List.eq_of_mem_replicate mem ▸ rfl)
  rw [ticks, all, List.map_replicate]
  rfl

theorem attempts_flooder (n : Nat) : attempts (List.replicate (n + 1) flooder) flooder = n + 2 := by
  rw [attempts, ticks_flooder, window_replicate, nextWindow]
  rfl

theorem seated_flooder (n : Nat) : Seated (List.replicate (n + 1) flooder) flooder := by
  rw [Seated, List.replicate_succ, List.cons_append, List.map_cons]
  exact head_mem_firstComers _ _ _

theorem stranger_key_nodup : (strangers.map Attempt.key).Nodup := by
  rw [strangers, List.map_map]
  refine List.Nodup.map_on ?_ (List.nodup_range)
  intro m hm n hn same
  rw [List.mem_range] at hm hn
  simp only [Function.comp, Attempt.key, stranger, Address.ipHash, Prod.mk.injEq, List.cons.injEq]
    at same
  obtain ⟨-, a, b, c, -⟩ := same
  have a := congrArg UInt8.toNat a
  have b := congrArg UInt8.toNat b
  have c := congrArg UInt8.toNat c
  rw [UInt8.toNat_ofNat', UInt8.toNat_ofNat'] at a b c
  omega

theorem newcomer_new : newcomer.key ∉ strangers.map Attempt.key := by
  rw [strangers, List.map_map, List.mem_map]
  rintro ⟨n, hn, same⟩
  rw [List.mem_range] at hn
  simp only [Function.comp, Attempt.key, stranger, newcomer, Address.ipHash, Prod.mk.injEq,
    List.cons.injEq] at same
  obtain ⟨-, a, -⟩ := same
  have a := congrArg UInt8.toNat a
  rw [UInt8.toNat_ofNat'] at a
  change n / 65536 % 256 = 10 at a
  omega

theorem strangers_full : 100001 ≤ (firstComers 100001 (strangers.map Attempt.key)).length := by
  have length : (firstComers 100001 (strangers.map Attempt.key)).length = 100001 := by
    rw [firstComers, eraseDups_of_nodup stranger_key_nodup, List.length_take, strangers,
      List.length_map, List.length_map, List.length_range, Nat.min_self]
  exact Nat.le_of_eq length.symm

theorem newcomer_quiet : Quiet strangers newcomer := by
  intro f mem _
  obtain ⟨n, -, rfl⟩ := List.mem_map.mp mem
  change 0 + 60 < 1000
  omega

theorem newcomer_alone : crowd strangers newcomer ≤ 100000 := by
  have past : strangers.filter (fun f => newcomer.tick ≤ f.tick + defaults.conDefloodTime) = [] := by
    rw [List.filter_eq_nil_iff]
    intro f mem
    obtain ⟨n, -, rfl⟩ := List.mem_map.mp mem
    exact of_decide_eq_false (p := decide (1000 ≤ 0 + 60) = true) rfl
  rw [crowd, List.filter_append, past]
  decide

theorem ordered_flooder (n : Nat) : Ordered (List.replicate n flooder ++ [flooder]) := by
  rw [← List.replicate_succ']
  exact List.pairwise_replicate.mpr (.inr (Nat.le_refl _))

theorem ordered_newcomer : Ordered (strangers ++ [newcomer]) := by
  apply List.pairwise_append.mpr
  refine ⟨?_, List.pairwise_singleton _ _, ?_⟩
  · apply List.pairwise_map.mpr
    exact List.pairwise_of_forall fun _ _ => Nat.le_refl _
  · intro f mem g one
    obtain ⟨n, -, rfl⟩ := List.mem_map.mp mem
    exact Nat.zero_le _

/-- The 32768th connection of a flood gets in, and the first of an address that has never
come before is dropped when 100001 came long ago. -/
theorem limits_fail :
    (Ordered (List.replicate 32767 flooder ++ [flooder]) ∧
      ¬Limits (List.replicate 32767 flooder) flooder) ∧
    (Ordered (strangers ++ [newcomer]) ∧ ¬Limits strangers newcomer) := by
  refine ⟨⟨ordered_flooder _, ?_⟩, ordered_newcomer, ?_⟩
  · rintro ⟨-, flood⟩
    have number := attempts_flooder 32766
    have dropped := flood (by rw [number]; decide)
    have accepted : accepted (List.replicate 32767 flooder) flooder = true := by
      rw [accepted_iff, over_iff, number]
      exact ⟨seated_flooder 32766, by decide⟩
    rw [accepted] at dropped
    cases dropped
  · rintro ⟨quiet, -⟩
    have accepted := quiet newcomer_quiet newcomer_alone
    rw [newcomer_dropped _ _ strangers_full newcomer_new] at accepted
    cases accepted

end FlyHub.Connection
