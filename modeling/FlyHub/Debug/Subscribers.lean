import FlyHub.Debug.UdpDebug
import Mathlib.Data.List.Perm.Basic

/-!
# What a subscriber is promised

Every call is to come back, a broadcast is to reach just those who asked for all data, and the
count is to be that of the subscribers. The first subscriber needs a buffer, and the hub name is
written into a new buffer under a second lock of the same mutex.
-/

namespace FlyHub.Debug

open FlyHub.Lib

namespace UdpDebug

variable (d : UdpDebug)

/-- Who asked for all data stands before who did not. -/
def AllDataFirst : Prop :=
  d.items.Pairwise fun newer older => older.allData = true → newer.allData = true

/-- There is a buffer for a new subscriber, and the count has room for it. -/
def Ready : Prop := d.debugBuffer.isSome ∧ d.items.length + 1 < 4294967296

/-- What every call keeps. -/
structure Sound : Prop where
  buffer : d.debugBuffer = none → d.items = []
  counted : d.subscriberCount.toNat = d.items.length

/-- The UDP debug of a hub that starts. -/
def new : UdpDebug := ⟨none, [], 0⟩

end UdpDebug

namespace Call

/-- Each subscriber who asked for all data gets one datagram, and nobody else gets any. -/
def Reaches (d : UdpDebug) (sent : List Packet) : Call → Prop
  | .broadcast msg | .broadcastFormat msg =>
    sent.Perm ((d.items.filter (·.allData)).map fun item => ⟨item, d.packet msg⟩)
  | _ => True

/-- What is promised of one call. -/
def Right (g : Guarded UdpDebug) (c : Call) : Prop :=
  ∃ r, c.run g = some r ∧ c.Reaches g.value r.2.sent ∧
    r.1.value.subscriberCount.toNat = r.1.value.items.length

/-- The call comes back without a lock. -/
def returns (d : UdpDebug) : Call → Bool
  | .broadcast _ | .broadcastFormat _ | .send _ _ => d.items = []
  | _ => false

/-- When a call does what is promised. -/
def Fine (d : UdpDebug) : Call → Prop
  | .broadcast _ => d.AllDataFirst
  | .broadcastFormat msg =>
    if msg.length < 65535 then d.AllDataFirst else ∀ item ∈ d.items, item.allData = false
  | .newUser _ _ _ _ opened said => if opened then d.Ready else ∀ c ∈ said, c.returns d = true
  | .newScript _ _ _ _ _ _ opened => opened = true → d.Ready
  | .checkUdpSub u sndMess said =>
    d.items.any (UdpDebug.isUser u) = true → sndMess = true → said = []
  | _ => True

/-- The state after a call. Nothing comes after one that doesn't come back. -/
def step (g : Guarded UdpDebug) (c : Call) : Guarded UdpDebug :=
  match c.run g with
  | some r => r.1
  | none => g

end Call

/-! ## Under the lock -/

section
variable {d : UdpDebug}

theorem run_held (c : Call) (d : UdpDebug) :
    c.run ⟨true, d⟩ = if c.returns d then some (⟨true, d⟩, ⟨[], true⟩) else none := by
  cases c with
  | broadcast msg | broadcastFormat msg | send sScriptName sMessage =>
    rw [Call.run]
    simp [Call.returns]
  | newUser | newScript | removeUser | removeScript | checkUdpSub | cleanup => rfl
  | updateHubName => rfl

/-- A message under the lock comes back if it locks nothing. -/
theorem runAll_held (cs : List Call) (d : UdpDebug) :
    runAll cs ⟨true, d⟩ = if cs.all (·.returns d) then some ⟨true, d⟩ else none := by
  induction cs with
  | nil => rfl
  | cons c cs ih =>
    rw [runAll, run_held, List.all_cons]
    cases c.returns d with
    | true => exact ih
    | false => rfl

theorem createBuffer_held (hubName : Text) (d : UdpDebug) :
    createBuffer hubName ⟨true, d⟩ =
      if d.debugBuffer = none then none else some (⟨true, d⟩, ⟨[], true⟩) := by
  unfold createBuffer
  cases d.debugBuffer <;> rfl

theorem addItem_held (sound : d.Sound) (item : UdpDbgItem) (hubName : Text) (logged : UInt32) :
    addItem item hubName logged ⟨true, d⟩ =
      if d.debugBuffer = none then none
      else some (⟨true, (d.subscribe item logged).1⟩, (d.subscribe item logged).2) := by
  unfold addItem
  rw [createBuffer_held]
  by_cases first : d.items = []
  · by_cases none_ : d.debugBuffer = none
    · simp [first, none_]
    · simp [first, none_, Guarded.alone]
  · have some_ : d.debugBuffer ≠ none := fun none_ => first (sound.buffer none_)
    simp [first, some_, Guarded.alone]

end

/-! ## What each call leaves -/

namespace UdpDebug

variable {d : UdpDebug}

/-- A hub that starts has nobody to send to. -/
theorem new_sound : new.Sound := ⟨fun _ => rfl, rfl⟩

theorem erase_sound (sound : d.Sound) (p : UdpDbgItem → Bool) : (d.erase p).1.Sound := by
  unfold erase
  split
  · rename_i found
    obtain ⟨item, mem, -⟩ := List.any_eq_true.mp found
    have some_ : d.items ≠ [] := List.ne_nil_of_mem mem
    have positive := List.length_pos_iff.mpr some_
    have length : (d.items.eraseP p).length = d.items.length - 1 := by
      rw [List.length_eraseP, if_pos found]
    constructor
    · intro none_
      dsimp only at none_ ⊢
      split at none_
      · assumption
      · exact absurd (sound.buffer none_) some_
    · have counted := sound.counted
      have one : (1 : UInt32) ≤ d.subscriberCount := UInt32.le_iff_toNat_le.mpr (by
        change 1 ≤ _
        omega)
      rw [UInt32.toNat_sub_of_le _ _ one, length, counted]
      rfl
  · exact sound

theorem sendTo_fst (sScriptName sMessage : Text) : (d.sendTo sScriptName sMessage).1 = d := by
  unfold sendTo
  split <;> rfl

theorem writeHubName_sound (sound : d.Sound) (hubName : Text) : (d.writeHubName hubName).1.Sound := by
  unfold writeHubName
  split
  · exact sound
  · exact ⟨nofun, sound.counted⟩

theorem subscribe_counted (sound : d.Sound) (item : UdpDbgItem) (logged : UInt32) :
    (d.subscribe item logged).1.subscriberCount.toNat = (d.subscribe item logged).1.items.length ↔
      d.items.length + 1 < 4294967296 := by
  have counted : (d.subscribe item logged).1.subscriberCount.toNat =
      (d.items.length + 1) % 4294967296 := by
    rw [← sound.counted]
    exact UInt32.toNat_add _ _
  have length : (d.subscribe item logged).1.items.length = d.items.length + 1 := rfl
  rw [counted, length]
  omega

/-- The loop that stops at the first item misses no item behind it just when there is none. -/
theorem takeWhile_perm_filter {α : Type} (p : α → Bool) (l : List α) :
    (l.takeWhile p).Perm (l.filter p) ↔ l.Pairwise fun a b => p b = true → p a = true := by
  induction l with
  | nil => simp
  | cons a l ih =>
    cases first : p a with
    | true =>
      rw [List.takeWhile_cons_of_pos first, List.filter_cons_of_pos first, List.perm_cons, ih,
        List.pairwise_cons]
      simp [first]
    | false =>
      have stops : ¬p a = true := by simp [first]
      rw [List.takeWhile_cons_of_neg stops, List.filter_cons_of_neg stops, List.nil_perm,
        List.filter_eq_nil_iff, List.pairwise_cons]
      simp only [first, Bool.false_eq_true, imp_false]
      constructor
      · intro none_
        refine ⟨none_, List.pairwise_of_forall_mem_list ?_⟩
        intro a _ b later asked
        exact absurd asked (none_ b later)
      · exact fun both => both.1

theorem sendAll_perm (d : UdpDebug) (msg : Text) :
    (d.sendAll msg).Perm ((d.items.filter (·.allData)).map fun item => ⟨item, d.packet msg⟩) ↔
      d.AllDataFirst := by
  have injective : Function.Injective fun item : UdpDbgItem => (⟨item, d.packet msg⟩ : Packet) :=
    fun _ _ same => congrArg Packet.receiver same
  rw [sendAll, List.map_perm_map_iff injective]
  exact takeWhile_perm_filter _ _

theorem none_perm (d : UdpDebug) (msg : Text) :
    [].Perm ((d.items.filter (·.allData)).map fun item => (⟨item, d.packet msg⟩ : Packet)) ↔
      ∀ item ∈ d.items, item.allData = false := by
  rw [List.nil_perm, List.map_eq_nil_iff, List.filter_eq_nil_iff]
  simp only [Bool.not_eq_true]

end UdpDebug

/-! ## What a call does when the mutex is free -/

namespace Call

variable {d d' : UdpDebug} {c : Call}

theorem run_broadcast (msg : Text) :
    (broadcast msg).run ⟨false, d⟩ = some (⟨false, d⟩, ⟨d.sendAll msg, true⟩) := by
  by_cases empty : d.items = []
  · simp [run, empty, UdpDebug.sendAll]
  · simp [run, empty, Guarded.locked_alone]

theorem run_broadcastFormat (msg : Text) :
    (broadcastFormat msg).run ⟨false, d⟩ =
      some (⟨false, d⟩, ⟨if msg.length < 65535 then d.sendAll msg else [], true⟩) := by
  by_cases empty : d.items = []
  · simp [run, empty, UdpDebug.sendAll]
  · simp [run, empty, Guarded.locked_alone]

theorem run_send (sScriptName sMessage : Text) :
    (send sScriptName sMessage).run ⟨false, d⟩ =
      some (⟨false, d⟩, (d.sendTo sScriptName sMessage).2) := by
  by_cases empty : d.items = []
  · simp [run, empty, UdpDebug.sendTo]
  · simp [run, empty, Guarded.locked_alone, UdpDebug.sendTo_fst]

/-- A user whose socket isn't made is told so under the lock. -/
theorem run_refused (u : DebugUser) (port : UInt16) (hubName : Text) (logged : UInt32)
    (said : List Call) :
    (newUser u port hubName logged false said).run ⟨false, d⟩ =
      if said.all (·.returns d) then some (⟨false, d⟩, ⟨[], false⟩) else none := by
  simp only [run, Guarded.locked_free, runAll_held, Bool.false_eq_true, if_false]
  cases said.all (·.returns d) <;> rfl

/-- With a subscriber, every call locks. -/
theorem returns_false (some_ : d.items ≠ []) (c : Call) : c.returns d = false := by
  cases c <;> simp [returns, some_]

/-- A user who has subscribed is told so under the lock. -/
theorem run_checkUdpSub (u : DebugUser) (sndMess : Bool) (said : List Call) :
    (checkUdpSub u sndMess said).run ⟨false, d⟩ =
      if d.items.any (UdpDebug.isUser u) = true ∧ sndMess = true ∧ said ≠ [] then none
      else some (⟨false, d⟩, ⟨[], d.items.any (UdpDebug.isUser u)⟩) := by
  simp only [run, Guarded.locked_free]
  cases subscribed : d.items.any (UdpDebug.isUser u) with
  | false => simp
  | true =>
    obtain ⟨item, mem, -⟩ := List.any_eq_true.mp subscribed
    have some_ : d.items ≠ [] := List.ne_nil_of_mem mem
    cases sndMess with
    | false => simp
    | true =>
      rw [runAll_held]
      cases said with
      | nil => simp
      | cons c cs => simp [returns_false some_]

/-- A new subscriber needs a buffer. -/
theorem run_addItem (sound : d.Sound) (item : UdpDbgItem) (hubName : Text) (logged : UInt32) :
    Guarded.locked (addItem item hubName logged) ⟨false, d⟩ =
      if d.debugBuffer = none then none
      else some (⟨false, (d.subscribe item logged).1⟩, (d.subscribe item logged).2) := by
  rw [Guarded.locked_free, addItem_held sound]
  split <;> rfl

/-! ## The condition of one call -/

/-- Where a call comes back, it leaves the mutex free, and no subscriber without a buffer. -/
def Keeps (d : UdpDebug) (c : Call) : Prop :=
  ∀ r, c.run ⟨false, d⟩ = some r →
    r.1.held = false ∧ (r.1.value.debugBuffer = none → r.1.value.items = [])

/-- A call that comes back to a sound state. -/
theorem right_of_run {o : Outcome} (back : c.run ⟨false, d⟩ = some (⟨false, d'⟩, o))
    (sound : d'.Sound) : (c.Right ⟨false, d⟩ ↔ c.Reaches d o.sent) ∧ c.Keeps d := by
  refine ⟨⟨?_, ?_⟩, ?_⟩
  · rintro ⟨r, run, reaches, -⟩
    rw [back] at run
    cases run
    exact reaches
  · intro reaches
    exact ⟨_, back, reaches, sound.counted⟩
  · intro r run
    rw [back] at run
    cases run
    exact ⟨rfl, sound.buffer⟩

/-- A call that doesn't come back. -/
theorem right_of_none (back : c.run ⟨false, d⟩ = none) : ¬c.Right ⟨false, d⟩ ∧ c.Keeps d := by
  constructor
  · rintro ⟨r, run, -⟩
    rw [back] at run
    cases run
  · intro r run
    rw [back] at run
    cases run

/-- A subscription succeeds when there is a buffer, and room in the count. -/
theorem right_of_addItem (sound : d.Sound) (item : UdpDbgItem) (hubName : Text) (logged : UInt32)
    (back : c.run ⟨false, d⟩ = Guarded.locked (addItem item hubName logged) ⟨false, d⟩)
    (silent : ∀ sent, c.Reaches d sent) : (c.Right ⟨false, d⟩ ↔ d.Ready) ∧ c.Keeps d := by
  rw [run_addItem sound] at back
  unfold UdpDebug.Ready
  cases buffer : d.debugBuffer with
  | none =>
    rw [if_pos buffer] at back
    obtain ⟨never, keeps⟩ := right_of_none back
    exact ⟨⟨fun right => absurd right never, fun ready => absurd ready.1 (by decide)⟩, keeps⟩
  | some name =>
    have some_ : d.debugBuffer ≠ none := by simp [buffer]
    rw [if_neg some_] at back
    rw [← UdpDebug.subscribe_counted sound item logged]
    refine ⟨⟨?_, ?_⟩, ?_⟩
    · rintro ⟨r, run, -, counted⟩
      rw [back] at run
      cases run
      exact ⟨rfl, counted⟩
    · rintro ⟨-, counted⟩
      exact ⟨_, back, silent _, counted⟩
    · intro r run
      rw [back] at run
      cases run
      exact ⟨rfl, fun none_ => absurd none_ some_⟩

theorem right_iff (sound : d.Sound) (c : Call) :
    (c.Right ⟨false, d⟩ ↔ c.Fine d) ∧ c.Keeps d := by
  cases c with
  | broadcast msg =>
    obtain ⟨right, keeps⟩ := right_of_run (run_broadcast msg) sound
    exact ⟨right.trans (d.sendAll_perm msg), keeps⟩
  | broadcastFormat msg =>
    obtain ⟨right, keeps⟩ := right_of_run (run_broadcastFormat msg) sound
    refine ⟨right.trans ?_, keeps⟩
    simp only [Reaches, Fine]
    split
    · exact d.sendAll_perm msg
    · exact d.none_perm msg
  | newUser u port hubName logged opened said =>
    simp only [Fine]
    cases opened with
    | true =>
      let item : UdpDbgItem := ⟨endpoint u.ipHash port, u.sNick, hashNick u.sNick, false, true⟩
      have back : (newUser u port hubName logged true said).run ⟨false, d⟩ =
          Guarded.locked (addItem item hubName logged) ⟨false, d⟩ := by simp [run, item]
      exact right_of_addItem sound item hubName logged back fun _ => trivial
    | false =>
      have back := run_refused (d := d) u port hubName logged said
      rw [← List.all_eq_true]
      cases all : said.all (·.returns d) with
      | true =>
        rw [all] at back
        obtain ⟨right, keeps⟩ := right_of_run back sound
        exact ⟨right.trans (by simp [Reaches]), keeps⟩
      | false =>
        rw [all] at back
        obtain ⟨never, keeps⟩ := right_of_none back
        exact ⟨by simp [never], keeps⟩
  | newScript ipHash port allData sScriptName hubName logged opened =>
    simp only [Fine]
    cases opened with
    | true =>
      let item : UdpDbgItem := ⟨endpoint ipHash port, sScriptName, 0, true, allData⟩
      have back : (newScript ipHash port allData sScriptName hubName logged true).run ⟨false, d⟩ =
          Guarded.locked (addItem item hubName logged) ⟨false, d⟩ := by simp [run, item]
      obtain ⟨right, keeps⟩ := right_of_addItem sound item hubName logged back fun _ => trivial
      exact ⟨right.trans (by simp), keeps⟩
    | false =>
      obtain ⟨right, keeps⟩ := right_of_run (c := newScript ipHash port allData sScriptName hubName
        logged false) rfl sound
      exact ⟨right.trans (by simp [Reaches]), keeps⟩
  | removeUser u => exact right_of_run rfl (UdpDebug.erase_sound sound _)
  | removeScript sScriptName => exact right_of_run rfl (UdpDebug.erase_sound sound _)
  | checkUdpSub u sndMess said =>
    have back := run_checkUdpSub (d := d) u sndMess said
    simp only [Fine]
    split at back
    · rename_i busy
      obtain ⟨never, keeps⟩ := right_of_none back
      refine ⟨⟨fun right => absurd right never, fun silent => ?_⟩, keeps⟩
      exact absurd (silent busy.1 busy.2.1) busy.2.2
    · rename_i idle
      obtain ⟨right, keeps⟩ := right_of_run back sound
      refine ⟨right.trans ⟨fun _ subscribed sndMess => ?_, fun _ => trivial⟩, keeps⟩
      by_contra some_
      exact idle ⟨subscribed, sndMess, some_⟩
  | send sScriptName sMessage => exact right_of_run (run_send sScriptName sMessage) sound
  | cleanup => exact right_of_run rfl ⟨fun _ => rfl, rfl⟩
  | updateHubName hubName => exact right_of_run rfl (UdpDebug.writeHubName_sound sound hubName)

/-- What a call that does what is promised keeps. -/
theorem step_sound {g : Guarded UdpDebug} (free : g.held = false) (sound : g.value.Sound)
    (fine : c.Fine g.value) : (step g c).held = false ∧ (step g c).value.Sound := by
  obtain ⟨held, d⟩ := g
  cases free
  obtain ⟨right, keeps⟩ := right_iff sound c
  obtain ⟨r, back, -, counted⟩ := right.mpr fine
  obtain ⟨free, buffer⟩ := keeps r back
  rw [step, back]
  exact ⟨free, buffer, counted⟩

end Call

/-! ## Runs -/

open Call

/-- Every call of a run does what is promised just when each meets its condition. -/
theorem subscriptions_iff (g : Guarded UdpDebug) (free : g.held = false) (sound : g.value.Sound)
    (calls : List Call) :
    Allowed step (fun g c => c.Right g) g calls ↔ Allowed step (fun g c => c.Fine g.value) g calls := by
  apply allowed_congr (fun g => g.held = false ∧ g.value.Sound)
  · rintro ⟨held, d⟩ c ⟨free, sound⟩
    cases free
    exact (right_iff sound c).1
  · rintro g c ⟨free, sound⟩ fine
    exact step_sound free sound fine
  · exact ⟨free, sound⟩

/-- A script that subscribes after a `Cleanup`, which leaves the buffer. -/
def scriptSubscribes : Call :=
  .newScript (List.replicate 10 0 ++ [255, 255, 127, 0, 0, 1]) 4111 true (ascii "a.lua")
    (ascii "hub") 0 true

theorem subscriptions_later :
    Allowed step (fun g c => c.Right g) ⟨false, ⟨some (ascii "hub"), [], 0⟩⟩
        [scriptSubscribes, .broadcast (ascii "hello"), .removeScript (ascii "A.lua")] ↔
      Allowed step (fun g c => c.Fine g.value) ⟨false, ⟨some (ascii "hub"), [], 0⟩⟩
        [scriptSubscribes, .broadcast (ascii "hello"), .removeScript (ascii "A.lua")] :=
  subscriptions_iff ⟨false, ⟨some (ascii "hub"), [], 0⟩⟩ rfl ⟨fun _ => rfl, rfl⟩ _

/-- In a hub that starts, no call that does what is promised changes anything. -/
theorem step_new {c : Call} (fine : c.Fine UdpDebug.new) :
    step ⟨false, UdpDebug.new⟩ c = ⟨false, UdpDebug.new⟩ := by
  cases c with
  | broadcast msg => rw [step, run_broadcast]
  | broadcastFormat msg => rw [step, run_broadcastFormat]
  | newUser u port hubName logged opened said =>
    cases opened with
    | true => exact absurd (show UdpDebug.new.Ready from fine).1 (by decide)
    | false =>
      rw [step, run_refused]
      split <;> rename_i back
      · split at back
        · cases back
          rfl
        · cases back
      · rfl
  | newScript ipHash port allData sScriptName hubName logged opened =>
    cases opened with
    | true => exact absurd ((show true = true → UdpDebug.new.Ready from fine) rfl).1 (by decide)
    | false => rfl
  | removeUser | removeScript | cleanup | updateHubName => rfl
  | checkUdpSub u sndMess said => rfl
  | send sScriptName sMessage => rfl

/-- So it does so just when nobody gets a socket to subscribe with, and no message that says so
to a user leads to a call that locks. -/
theorem starting_iff (calls : List Call) :
    Allowed step (fun g c => c.Fine g.value) ⟨false, UdpDebug.new⟩ calls ↔
      ∀ c ∈ calls, c.Fine UdpDebug.new := by
  induction calls with
  | nil => simp [Allowed]
  | cons c calls ih =>
    rw [List.forall_mem_cons]
    constructor
    · rintro ⟨fine, rest⟩
      rw [step_new fine] at rest
      exact ⟨fine, ih.mp rest⟩
    · rintro ⟨fine, rest⟩
      refine ⟨fine, ?_⟩
      rw [step_new fine]
      exact ih.mpr rest

/-- The first subscription of a hub never comes back. -/
theorem first_subscription_hangs :
    ¬∀ calls, Allowed step (fun g c => c.Right g) ⟨false, UdpDebug.new⟩ calls := by
  intro all
  obtain ⟨⟨r, back, -⟩, -⟩ := all [scriptSubscribes]
  cases back

end FlyHub.Debug
