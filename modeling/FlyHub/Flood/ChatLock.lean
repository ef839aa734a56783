import FlyHub.Lib.Run
import FlyHub.Lib.Window
import FlyHub.Text

/-!
# The lock of the chat

The hub counts the chats of all the users in windows of time. A chat over the limit of its
window locks the chat for some time, and no more chats are broadcast until that time has
passed since the last chat over the limit. The counter has sixteen bits, and a counter that is
0 stands for a chat that was never counted: a window with more chats than they can count
unlocks the chat.
-/

namespace FlyHub.Flood

open FlyHub.Lib

/-- The setting `GLOBAL_MAIN_CHAT_ACTION`: 0, 1 or 2. -/
inductive ChatAction where
  | none
  | drop
  | opsOnly
  deriving DecidableEq

structure ChatLimits where
  action : ChatAction
  on : action ≠ .none
  messages : UInt16
  time : Nat
  timeout : Nat
  report : Bool
  globalBufferSize : Nat
  hubSec : Text
  floodDetected : Text

/-- What `Users` keeps of the chats. -/
structure ChatState where
  actualTick : Nat
  chatMsgs : UInt16
  chatMsgsTick : Nat
  chatLockFromTick : Nat
  chatLocked : Bool
  deriving DecidableEq

/-- A call of `SendChat2All`, some ticks after the call before. `queueItem` is the place in
the queue that was kept for the chat, if one was. -/
structure ChatCall where
  wait : Nat
  noDeflood : Bool
  sIP : Text
  sData : Text
  queueItem : Option Nat

/-- What is queued: a status message, a chat, a chat in its place, or a chat for operators. -/
inductive ChatOut where
  | status (text : Text)
  | chat (text : Text)
  | fill (item : Nat) (text : Text)
  | ops (text : Text)
  deriving DecidableEq

/-- It is for every user. -/
def ChatOut.isBroadcast : ChatOut → Bool
  | .chat _ | .fill _ _ => true
  | .status _ | .ops _ => false

def ChatState.init : ChatState := ⟨0, 0, 0, 0, false⟩

def ChatCall.broadcast (c : ChatCall) : ChatOut :=
  c.queueItem.elim (.chat c.sData) (.fill · c.sData)

namespace ChatLimits

variable (cfg : ChatLimits) (s : ChatState) (c : ChatCall)

def countChat : ChatState :=
  let s :=
    if s.chatMsgs = 0 then
      { s with chatMsgsTick := s.actualTick, chatLockFromTick := s.actualTick, chatLocked := false }
    else if s.chatMsgsTick + cfg.time < s.actualTick then
      { s with chatMsgsTick := s.actualTick, chatMsgs := 0 }
    else s
  { s with chatMsgs := s.chatMsgs + 1 }

def lockChat : ChatState :=
  if cfg.messages < s.chatMsgs then
    { s with chatLockFromTick := s.actualTick, chatLocked := true }
  else s

/-- The first chat over the limit is reported. -/
def reportChat : List ChatOut :=
  if cfg.messages < s.chatMsgs ∧ s.chatLocked = false ∧ cfg.report then
    [.status (ascii "<" ++ cfg.hubSec ++ ascii "> *** " ++ cfg.floodDetected ++ ascii ".|")]
  else []

/-- What becomes of a chat while the chat is locked. -/
def withhold : List ChatOut :=
  if cfg.action = .opsOnly ∧ c.sIP.length + 1 + c.sData.length + 1 ≤ cfg.globalBufferSize then
    [.ops (c.sIP ++ ascii " " ++ c.sData)]
  else []

/-- `SendChat2All`, at the tick of the state. -/
def sendChat2All : ChatState × List ChatOut :=
  if c.noDeflood = false ∧ cfg.action ≠ .none then
    let counted := cfg.countChat s
    let s := cfg.lockChat counted
    let told := cfg.reportChat counted
    if s.chatLocked then
      if s.actualTick < s.chatLockFromTick + cfg.timeout then (s, told ++ cfg.withhold c)
      else ({ s with chatLocked := false }, told ++ [c.broadcast])
    else (s, told ++ [c.broadcast])
  else (s, [c.broadcast])

def arrive : ChatState := { s with actualTick := s.actualTick + c.wait }

def step : ChatState := (cfg.sendChat2All (arrive s c) c).1

/-- What is queued for a chat. -/
def out : List ChatOut := (cfg.sendChat2All (arrive s c) c).2

/-- The ticks at which chats came that count. -/
def counted (cs : List ChatCall) : List Nat :=
  trace cfg.step (fun s c => if c.noDeflood then none else some (arrive s c).actualTick)
    ChatState.init cs

/-- The last of the chats is over the limit of its window. -/
def Over (ts : List Nat) : Prop := ∃ w, window cfg.time ts = some w ∧ cfg.messages.toNat < w.2

/-- One of the chats, at tick `t`, was over the limit of its window. -/
def OverAt (ts : List Nat) (t : Nat) : Prop := ∃ us, us ++ [t] <+: ts ∧ cfg.Over (us ++ [t])

/-- The time has not passed yet since a chat over the limit. -/
def Locked (ts : List Nat) (now : Nat) : Prop := ∃ t, cfg.OverAt ts t ∧ now < t + cfg.timeout

/-- A chat that counts is broadcast exactly if the chat is not locked, be it by the chat
itself. -/
def Keeps (cs : List ChatCall) : Prop :=
  ∀ pre c, pre ++ [c] <+: cs → c.noDeflood = false →
    ((cfg.out (run cfg.step ChatState.init pre) c).any ChatOut.isBroadcast = true ↔
      ¬ cfg.Locked (cfg.counted (pre ++ [c]))
        (arrive (run cfg.step ChatState.init pre) c).actualTick)

/-- Never more chats in a window than the counter can count. -/
def Countable (cs : List ChatCall) : Prop :=
  ∀ ts, ts <+: cfg.counted cs → ∀ w, window cfg.time ts = some w → w.2 < 65536

variable {cfg s c} {pre cs : List ChatCall} {ts : List Nat} {t now : Nat}

theorem counted_concat :
    cfg.counted (pre ++ [c]) = cfg.counted pre ++
      (if c.noDeflood then none
       else some (arrive (run cfg.step ChatState.init pre) c).actualTick).toList :=
  trace_concat ..

theorem counted_chat (counts : c.noDeflood = false) :
    cfg.counted (pre ++ [c]) =
      cfg.counted pre ++ [(arrive (run cfg.step ChatState.init pre) c).actualTick] := by
  rw [counted_concat, counts]
  rfl

theorem counted_exempt (exempt : c.noDeflood = true) :
    cfg.counted (pre ++ [c]) = cfg.counted pre := by
  rw [counted_concat, exempt]
  exact List.append_nil _

/-! ## The chats over the limit -/

theorem overAt_concat :
    cfg.OverAt (ts ++ [now]) t ↔ cfg.OverAt ts t ∨ t = now ∧ cfg.Over (ts ++ [now]) := by
  unfold OverAt
  simp only [List.prefix_concat_iff]
  constructor
  · rintro ⟨us, last | earlier, exceeds⟩
    · obtain ⟨rfl, rfl⟩ := List.append_singleton_inj.mp last
      exact .inr ⟨rfl, exceeds⟩
    · exact .inl ⟨us, earlier, exceeds⟩
  · rintro (⟨us, earlier, exceeds⟩ | ⟨rfl, exceeds⟩)
    · exact ⟨us, .inr earlier, exceeds⟩
    · exact ⟨ts, .inl rfl, exceeds⟩

theorem not_overAt_nil : ¬ cfg.OverAt [] t := by
  rintro ⟨us, starts, -⟩
  exact absurd (List.prefix_nil.mp starts) (by simp)

/-- The counter counts the chats of the window. -/
structure Counts (cfg : ChatLimits) (s : ChatState) (ts : List Nat) : Prop where
  chatMsgs : s.chatMsgs.toNat = (window cfg.time ts).elim 0 Prod.snd
  chatMsgsTick : ∀ w ∈ window cfg.time ts, s.chatMsgsTick = w.1

/-- The lock is on since the last chat over the limit, or the time has passed. -/
structure Locks (cfg : ChatLimits) (s : ChatState) (ts : List Nat) : Prop where
  locked : s.chatLocked = true → cfg.OverAt ts s.chatLockFromTick
  last : ∀ t, cfg.OverAt ts t → t ≤ s.chatLockFromTick ∧
    (s.chatLocked = true ∨ t + cfg.timeout ≤ s.actualTick)
  clock : ∀ t, cfg.OverAt ts t → t ≤ s.actualTick

theorem Locks.arrive (locks : Locks cfg s ts) : Locks cfg (arrive s c) ts where
  locked := locks.locked
  last t exceeds := by
    have ⟨le, passed⟩ := locks.last t exceeds
    exact ⟨le, passed.imp_right fun passed => passed.trans (Nat.le_add_right _ _)⟩
  clock t exceeds := (locks.clock t exceeds).trans (Nat.le_add_right _ _)

theorem countChat_first (zero : s.chatMsgs = 0) :
    cfg.countChat s = ⟨s.actualTick, 1, s.actualTick, s.actualTick, false⟩ := by
  rw [countChat, if_pos zero, zero]
  rfl

theorem countChat_later (some_ : s.chatMsgs ≠ 0) (past : s.chatMsgsTick + cfg.time < s.actualTick) :
    cfg.countChat s = { s with chatMsgsTick := s.actualTick, chatMsgs := 1 } := by
  rw [countChat, if_neg some_, if_pos past]
  rfl

theorem countChat_inside (some_ : s.chatMsgs ≠ 0)
    (inside : s.actualTick ≤ s.chatMsgsTick + cfg.time) :
    cfg.countChat s = { s with chatMsgs := s.chatMsgs + 1 } := by
  rw [countChat, if_neg some_, if_neg (Nat.not_lt.mpr inside)]

theorem Counts.zero (counts : Counts cfg s ts) (none : window cfg.time ts = none) :
    s.chatMsgs = 0 := by
  have zero := counts.chatMsgs
  rw [none] at zero
  exact UInt16.toNat_inj.mp zero

theorem Counts.some_ (counts : Counts cfg s ts) {w : Nat × Nat}
    (found : window cfg.time ts = some w) : s.chatMsgs ≠ 0 := by
  intro zero
  have count := counts.chatMsgs
  rw [found, zero] at count
  exact absurd count (Nat.ne_of_lt (window_positive found))

theorem countChat_counts (counts : Counts cfg s ts)
    (few : ∀ w, window cfg.time (ts ++ [s.actualTick]) = some w → w.2 < 65536) :
    Counts cfg (cfg.countChat s) (ts ++ [s.actualTick]) := by
  rw [window_concat] at few
  have next := few _ rfl
  have begins : window cfg.time (ts ++ [s.actualTick]) = some (s.actualTick, 1) →
      ∀ v : ChatState, v.chatMsgs = 1 → v.chatMsgsTick = s.actualTick →
        Counts cfg v (ts ++ [s.actualTick]) := by
    intro found v one tick
    constructor
    · rw [found, one]
      rfl
    · rw [found]
      rintro w ⟨⟩
      exact tick
  cases before : window cfg.time ts with
  | none =>
    rw [countChat_first (counts.zero before)]
    exact begins (by rw [window_concat, before, nextWindow]) _ rfl rfl
  | some w =>
    have started := counts.some_ before
    have start := counts.chatMsgsTick w before
    rw [before, nextWindow] at next
    by_cases inside : s.actualTick ≤ s.chatMsgsTick + cfg.time
    · rw [countChat_inside started inside]
      rw [start] at inside
      rw [if_pos inside] at next
      have count := counts.chatMsgs
      rw [before] at count
      have same : window cfg.time (ts ++ [s.actualTick]) = some (w.1, w.2 + 1) := by
        rw [window_concat, before, nextWindow, if_pos inside]
      constructor
      · rw [same]
        change (s.chatMsgs + 1).toNat = w.2 + 1
        rw [UInt16.toNat_add, count]
        exact Nat.mod_eq_of_lt next
      · rw [same]
        rintro w' ⟨⟩
        exact start
    · rw [countChat_later started (Nat.not_le.mp inside)]
      rw [start] at inside
      exact begins (by rw [window_concat, before, nextWindow, if_neg inside]) _ rfl rfl

/-- Only the first chat of all could unlock the chat by being counted. -/
theorem countChat_locks (counts : Counts cfg s ts) (locks : Locks cfg s ts) :
    Locks cfg (cfg.countChat s) ts := by
  cases before : window cfg.time ts with
  | none =>
    have nothing : ts = [] := by
      cases ts with
      | nil => rfl
      | cons t ts =>
        obtain ⟨w, found⟩ : ∃ w, window cfg.time (t :: ts) = some w :=
          window_some List.mem_cons_self
        rw [found] at before
        cases before
    subst nothing
    rw [countChat_first (counts.zero before)]
    exact ⟨nofun, fun t exceeds => absurd exceeds not_overAt_nil,
      fun t exceeds => absurd exceeds not_overAt_nil⟩
  | some w =>
    have started := counts.some_ before
    by_cases inside : s.actualTick ≤ s.chatMsgsTick + cfg.time
    · rw [countChat_inside started inside]
      exact ⟨locks.locked, locks.last, locks.clock⟩
    · rw [countChat_later started (Nat.not_le.mp inside)]
      exact ⟨locks.locked, locks.last, locks.clock⟩

@[simp] theorem countChat_actualTick (cfg : ChatLimits) (s : ChatState) :
    (cfg.countChat s).actualTick = s.actualTick := by
  unfold countChat
  dsimp only
  split
  · rfl
  · split <;> rfl

/-! ## What one chat does -/

theorem Counts.over_iff (counts : Counts cfg s (ts ++ [now])) :
    cfg.Over (ts ++ [now]) ↔ cfg.messages < s.chatMsgs := by
  have count := counts.chatMsgs
  rw [window_concat] at count
  rw [Over, window_concat, UInt16.lt_iff_toNat_lt, count]
  simp

/-- A chat over the limit locks the chat. -/
theorem lockChat_locks (counts : Counts cfg s (ts ++ [s.actualTick])) (locks : Locks cfg s ts) :
    Locks cfg (cfg.lockChat s) (ts ++ [s.actualTick]) := by
  unfold lockChat
  by_cases exceeds : cfg.messages < s.chatMsgs
  · have isOver := counts.over_iff.mpr exceeds
    rw [if_pos exceeds]
    constructor
    · exact fun _ => overAt_concat.mpr (.inr ⟨rfl, isOver⟩)
    · intro t overAt
      rcases overAt_concat.mp overAt with earlier | ⟨rfl, -⟩
      · exact ⟨locks.clock t earlier, .inl rfl⟩
      · exact ⟨Nat.le_refl _, .inl rfl⟩
    · intro t overAt
      rcases overAt_concat.mp overAt with earlier | ⟨rfl, -⟩
      · exact locks.clock t earlier
      · exact Nat.le_refl _
  · rw [if_neg exceeds]
    have same : ∀ t, cfg.OverAt (ts ++ [s.actualTick]) t ↔ cfg.OverAt ts t := by
      intro t
      rw [overAt_concat, counts.over_iff]
      exact or_iff_left fun isOver => exceeds isOver.2
    constructor
    · exact fun isLocked => (same _).mpr (locks.locked isLocked)
    · exact fun t overAt => locks.last t ((same t).mp overAt)
    · exact fun t overAt => locks.clock t ((same t).mp overAt)

theorem reportChat_any : (cfg.reportChat s).any ChatOut.isBroadcast = false := by
  unfold reportChat
  split <;> rfl

theorem withhold_any : (cfg.withhold c).any ChatOut.isBroadcast = false := by
  unfold withhold
  split <;> rfl

theorem broadcast_any : c.broadcast.isBroadcast = true := by
  unfold ChatCall.broadcast
  cases c.queueItem <;> rfl

theorem lockChat_counts (counts : Counts cfg s ts) : Counts cfg (cfg.lockChat s) ts := by
  unfold lockChat
  split
  · exact ⟨counts.chatMsgs, counts.chatMsgsTick⟩
  · exact counts

@[simp] theorem lockChat_actualTick (cfg : ChatLimits) (s : ChatState) :
    (cfg.lockChat s).actualTick = s.actualTick := by
  unfold lockChat
  split <;> rfl

/-- With the lock on, a chat comes too early exactly if the time has not passed since the last
chat over the limit. -/
theorem Locks.locked_iff (locks : Locks cfg s ts) :
    cfg.Locked ts s.actualTick ↔
      s.chatLocked = true ∧ s.actualTick < s.chatLockFromTick + cfg.timeout := by
  constructor
  · rintro ⟨t, exceeds, early⟩
    obtain ⟨le, isLocked | passed⟩ := locks.last t exceeds
    · exact ⟨isLocked, early.trans_le (Nat.add_le_add_right le _)⟩
    · exact absurd early (Nat.not_lt.mpr passed)
  · rintro ⟨isLocked, early⟩
    exact ⟨s.chatLockFromTick, locks.locked isLocked, early⟩

/-- A lock that is taken off late enough holds nothing back. -/
theorem Locks.unlock (locks : Locks cfg s ts)
    (late : s.chatLockFromTick + cfg.timeout ≤ s.actualTick) :
    Locks cfg { s with chatLocked := false } ts where
  locked := nofun
  last t exceeds := by
    have le := (locks.last t exceeds).1
    exact ⟨le, .inr ((Nat.add_le_add_right le _).trans late)⟩
  clock := locks.clock

/-- What is kept of the chats is right after a chat too, and the chat is broadcast if it is not
locked. -/
theorem sendChat2All_counted (counts : Counts cfg s ts) (locks : Locks cfg s ts)
    (counted : c.noDeflood = false)
    (few : ∀ w, window cfg.time (ts ++ [s.actualTick]) = some w → w.2 < 65536) :
    (Counts cfg (cfg.sendChat2All s c).1 (ts ++ [s.actualTick]) ∧
        Locks cfg (cfg.sendChat2All s c).1 (ts ++ [s.actualTick])) ∧
      ((cfg.sendChat2All s c).2.any ChatOut.isBroadcast = true ↔
        ¬ cfg.Locked (ts ++ [s.actualTick]) s.actualTick) := by
  have counts' := countChat_counts counts few
  have locks' := countChat_locks counts locks
  rw [← countChat_actualTick cfg s] at counts' ⊢
  have after := lockChat_locks counts' locks'
  have same := lockChat_counts counts'
  rw [← lockChat_actualTick cfg (cfg.countChat s)] at after same ⊢
  rw [sendChat2All, if_pos ⟨counted, cfg.on⟩, after.locked_iff]
  dsimp only
  by_cases isLocked : (cfg.lockChat (cfg.countChat s)).chatLocked = true
  · rw [if_pos isLocked]
    by_cases early : (cfg.lockChat (cfg.countChat s)).actualTick <
        (cfg.lockChat (cfg.countChat s)).chatLockFromTick + cfg.timeout
    · rw [if_pos early]
      refine ⟨⟨same, after⟩, ?_⟩
      rw [List.any_append, reportChat_any, withhold_any]
      exact iff_of_false Bool.false_ne_true (not_not_intro ⟨isLocked, early⟩)
    · rw [if_neg early]
      have late := Nat.not_lt.mp early
      refine ⟨⟨⟨same.chatMsgs, same.chatMsgsTick⟩, after.unlock late⟩, ?_⟩
      rw [List.any_append, List.any_cons, broadcast_any, Bool.true_or, Bool.or_true]
      exact iff_of_true rfl fun both => absurd both.2 (Nat.not_lt.mpr late)
  · rw [if_neg isLocked]
    refine ⟨⟨same, after⟩, ?_⟩
    rw [List.any_append, List.any_cons, broadcast_any, Bool.true_or, Bool.or_true]
    exact iff_of_true rfl fun both => isLocked both.1

theorem sendChat2All_exempt (exempt : c.noDeflood = true) :
    cfg.sendChat2All s c = (s, [c.broadcast]) :=
  if_neg fun both => absurd (exempt.symm.trans both.1) (by decide)

theorem counted_mono (starts : pre <+: cs) : cfg.counted pre <+: cfg.counted cs := by
  obtain ⟨rest, rfl⟩ := starts
  induction rest using List.reverseRecOn with
  | nil => simp
  | append_singleton rest c ih =>
    rw [← List.append_assoc, counted_concat]
    exact ih.trans (List.prefix_append _ _)

theorem Countable.shorter (few : cfg.Countable cs) (starts : pre <+: cs) : cfg.Countable pre :=
  fun ts inside => few ts (inside.trans (counted_mono starts))

/-- The chat that comes next is one of few too. -/
theorem Countable.next (few : cfg.Countable (pre ++ [c])) (counts : c.noDeflood = false)
    (w : Nat × Nat)
    (found : window cfg.time (cfg.counted pre ++
      [(arrive (run cfg.step ChatState.init pre) c).actualTick]) = some w) : w.2 < 65536 := by
  rw [← counted_chat counts] at found
  exact few _ (List.prefix_refl _) w found

/-- After any number of chats, what the hub keeps of them is right. -/
theorem run_follows (few : cfg.Countable cs) :
    Counts cfg (run cfg.step ChatState.init cs) (cfg.counted cs) ∧
      Locks cfg (run cfg.step ChatState.init cs) (cfg.counted cs) := by
  induction cs using List.reverseRecOn with
  | nil =>
    exact ⟨⟨rfl, nofun⟩, nofun, fun t exceeds => absurd exceeds not_overAt_nil,
      fun t exceeds => absurd exceeds not_overAt_nil⟩
  | append_singleton pre c ih =>
    obtain ⟨counts, locks⟩ := ih (few.shorter (List.prefix_append _ _))
    rw [run_concat]
    cases exempt : c.noDeflood with
    | true =>
      rw [counted_exempt exempt, step, sendChat2All_exempt exempt]
      exact ⟨⟨counts.chatMsgs, counts.chatMsgsTick⟩, locks.arrive⟩
    | false =>
      rw [counted_chat exempt]
      exact (sendChat2All_counted (s := arrive _ c) ⟨counts.chatMsgs, counts.chatMsgsTick⟩
        locks.arrive exempt (few.next exempt)).1

/-- With few enough chats in every window, a chat is broadcast exactly if the chat is not
locked. -/
theorem keeps_of_countable (cfg : ChatLimits) (cs : List ChatCall) (few : cfg.Countable cs) :
    cfg.Keeps cs := by
  intro pre c starts counted
  have few' := few.shorter starts
  obtain ⟨counts, locks⟩ := run_follows (few'.shorter (List.prefix_append _ _))
  rw [counted_chat counted]
  exact (sendChat2All_counted (s := arrive _ c) ⟨counts.chatMsgs, counts.chatMsgsTick⟩
    locks.arrive counted (few'.next counted)).2

/-- Fewer chats than the counter can count are few in every window. -/
theorem countable_of_length (short : cs.length < 65536) : cfg.Countable cs := by
  have le : (cfg.counted cs).length ≤ cs.length := by
    clear short
    induction cs using List.reverseRecOn with
    | nil => exact Nat.le_refl _
    | append_singleton pre c ih =>
      rw [counted_concat, List.length_append, List.length_append]
      exact Nat.add_le_add ih (by split <;> simp)
  intro ts starts w found
  have long := starts.length_le
  have few := window_le_length found
  omega

/-- A call does not move the clock. -/
theorem step_actualTick : (cfg.step s c).actualTick = s.actualTick + c.wait := by
  have same : (cfg.sendChat2All (arrive s c) c).1.actualTick = (arrive s c).actualTick := by
    unfold sendChat2All
    dsimp only
    split
    · split
      · split <;> simp
      · simp
    · rfl
  exact same

/-- A counter that has wrapped stands for no chat at all, and the next chat is broadcast. -/
theorem broadcast_of_zero (zero : s.chatMsgs = 0) (limited : 1 ≤ cfg.messages) :
    (cfg.sendChat2All s c).2.any ChatOut.isBroadcast = true := by
  have unlocked : cfg.lockChat (cfg.countChat s) = cfg.countChat s := by
    rw [countChat_first zero]
    exact if_neg (UInt16.not_lt.mpr limited)
  unfold sendChat2All
  dsimp only
  split
  · rw [unlocked, countChat_first zero, if_neg Bool.false_ne_true, List.any_append, List.any_cons,
      broadcast_any, Bool.true_or, Bool.or_true]
  · rw [List.any_cons, broadcast_any, Bool.true_or]

end ChatLimits

/-! ## A flood -/

/-- One chat in a second. -/
def oneChat : ChatLimits where
  action := .drop
  on := nofun
  messages := 1
  time := 1
  timeout := 1
  report := true
  globalBufferSize := 131072
  hubSec := ascii "Hub-Security"
  floodDetected := ascii "Global chat flood detected"

/-- A chat that comes at the same time as the one before. -/
def atOnce : ChatCall := ⟨0, false, ascii "10.0.0.1", ascii "<bob> hi|", none⟩

/-- Of three chats the first one is broadcast. -/
theorem three_kept : oneChat.Keeps (List.replicate 3 atOnce) :=
  ChatLimits.keeps_of_countable oneChat _ (ChatLimits.countable_of_length (by decide))

theorem step_flooded {n : UInt16} (some_ : n ≠ 0) :
    oneChat.step ⟨0, n, 0, 0, true⟩ atOnce = ⟨0, n + 1, 0, 0, true⟩ := by
  have inside : (0 : Nat) ≤ 0 + 1 := Nat.zero_le _
  have counted : oneChat.countChat ⟨0, n, 0, 0, true⟩ = ⟨0, n + 1, 0, 0, true⟩ :=
    ChatLimits.countChat_inside some_ inside
  have locked : oneChat.lockChat ⟨0, n + 1, 0, 0, true⟩ = ⟨0, n + 1, 0, 0, true⟩ := ite_self _
  change (oneChat.sendChat2All ⟨0, n, 0, 0, true⟩ atOnce).1 = _
  rw [ChatLimits.sendChat2All, if_pos ⟨rfl, nofun⟩, counted]
  dsimp only
  rw [locked]
  rfl

/-- From the second chat on, a flood only moves the counter. -/
theorem flooded {k : Nat} (few : k < 65535) :
    run oneChat.step ChatState.init (List.replicate (k + 2) atOnce) =
      ⟨0, UInt16.ofNat (k + 2), 0, 0, true⟩ := by
  induction k with
  | zero => decide
  | succ k ih =>
    have some_ : UInt16.ofNat (k + 2) ≠ 0 := by
      intro zero
      have wraps : (k + 2) % 65536 = 0 := congrArg UInt16.toNat zero
      omega
    rw [List.replicate_succ', run_concat, ih (by omega), step_flooded some_,
      UInt16.ofNat_add (k + 2) 1]
    rfl

theorem counted_flood (n : Nat) :
    oneChat.counted (List.replicate n atOnce) = List.replicate n 0 := by
  have tick : ∀ k, (run oneChat.step ChatState.init (List.replicate k atOnce)).actualTick = 0 := by
    intro k
    induction k with
    | zero => rfl
    | succ k ih =>
      rw [List.replicate_succ', run_concat, ChatLimits.step_actualTick, ih]
      rfl
  induction n with
  | zero => rfl
  | succ n ih =>
    rw [List.replicate_succ', ChatLimits.counted_chat rfl, ih, List.replicate_succ']
    exact congrArg (fun t => List.replicate n 0 ++ [t]) (tick n)

theorem unlocked_by_wrap {n : Nat} (wraps : n = 65537) :
    ¬ oneChat.Keeps (List.replicate n atOnce) := by
  obtain ⟨k, rfl⟩ : ∃ k, n = k + 2 + 1 := ⟨65534, wraps⟩
  intro keeps
  rw [List.replicate_succ'] at keeps
  have next := keeps _ atOnce (List.prefix_refl _) rfl
  rw [ChatLimits.counted_chat rfl, counted_flood, flooded (by omega)] at next
  refine next.mp (ChatLimits.broadcast_of_zero ?_ (by decide)) ?_
  · have zero : UInt16.ofNat (k + 2) = UInt16.ofNat 65536 := congrArg UInt16.ofNat (by omega)
    exact zero
  · refine ⟨0, ⟨[0], ?_, ⟨(0, 2), rfl, by decide⟩⟩, Nat.zero_lt_one⟩
    exact ⟨List.replicate k 0 ++ [0], by rw [List.replicate_succ, List.replicate_succ]; rfl⟩

/-- After 65536 chats at once the next one is broadcast. -/
theorem flood_unlocks : ¬ oneChat.Keeps (List.replicate 65537 atOnce) := unlocked_by_wrap rfl

end FlyHub.Flood
