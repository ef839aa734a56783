import FlyHub.Flood.Check
import FlyHub.Lib.Run

/-!
# Commands are not counted

Chat and private messages are counted when they come. A command to the hub is to be no
message: when it is done, what was counted for it is taken back. A command in a private
message is done at once, one in chat by `ProcessCmds`, after the other messages that came
with it were counted.
-/

namespace FlyHub.Flood

open FlyHub.Lib

/-- The settings of one level. No check is made with the action 0. -/
structure LevelLimit extends Limit where
  some_count : 1 ≤ defloodCount.toInt

/-- The flood counters of chat and of private messages, with their two levels. -/
inductive CounterId
  | chatMsgs | chatMsgs2 | pms | pms2
  deriving DecidableEq

/-- What was counted for a message. -/
structure Counted where
  counted : Bool
  counted2 : Bool
  deriving DecidableEq

/-- A chat that waits for `ProcessCmds`: if it is a command that calls `UncountDeflood`, and
what was counted for it and not taken back since, of which the hub itself keeps no record. -/
structure PrcsdChat where
  isCommand : Bool
  counted : Counted

structure MessageUser where
  user : FloodUser
  chatMsgs : Counter
  chatMsgs2 : Counter
  pms : Counter
  pms2 : Counter
  cmdList : List PrcsdChat

/-- What the checks of a message depend on: the settings, if the profile of the user has
`NODEFLOODMAINCHAT` or `NODEFLOODPM`, and if all the other checks and the scripts let it
through. -/
structure Message where
  tick : Nat
  cfg : WarnSettings
  lim : LevelLimit
  lim2 : LevelLimit
  noDeflood : Bool
  passes : Bool

/-- In a chat an operator may announce a kick, which then may be filtered out. A command is
one that calls `UncountDeflood`. `process` is one turn of the loop of `ProcessCmds`, with
`SETBOOL_REPLY_TO_HUB_COMMANDS_AS_PM`. -/
inductive MessageEvent
  | chat (m : Message) (isKick filtered isCommand : Bool)
  | pm (m : Message) (isCommand : Bool)
  | process (replyAsPM : Bool)

/-- Two counters after both checks of a message. -/
structure CheckedPair where
  user : FloodUser
  counter : Counter
  counter2 : Counter
  flood : Bool

namespace Message

variable (m : Message) (e : DefloodTypes) (u : FloodUser) (c c2 : Counter)

def checkLevel (lim : LevelLimit) : Checked :=
  if lim.action = 0 then ⟨u, c, false⟩
  else c.deFloodCheckForFlood lim.toLimit m.tick m.cfg e u

/-- The checks of both levels. -/
def deflood : CheckedPair :=
  if m.noDeflood then ⟨u, c, c2, false⟩
  else
    let first := m.checkLevel e u c m.lim
    if first.flood then ⟨first.user, first.counter, c2, true⟩
    else
      let second := m.checkLevel e first.user c2 m.lim2
      ⟨second.user, first.counter, second.counter, second.flood⟩

/-- What is counted for a message that is no flood. -/
def counted : Counted :=
  ⟨!m.noDeflood && m.lim.action ≠ 0, !m.noDeflood && m.lim2.action ≠ 0⟩

end Message

namespace MessageUser

variable (s : MessageUser)

def counter : CounterId → Counter
  | .chatMsgs => s.chatMsgs
  | .chatMsgs2 => s.chatMsgs2
  | .pms => s.pms
  | .pms2 => s.pms2

/-- The chat counters are lowered, if the first one is not zero. -/
def uncountChat : MessageUser :=
  if s.chatMsgs.count ≠ 0 then
    { s with chatMsgs := { s.chatMsgs with count := s.chatMsgs.count - 1 },
             chatMsgs2 := { s.chatMsgs2 with count := s.chatMsgs2.count - 1 } }
  else s

def uncountPM : MessageUser :=
  if s.pms.count ≠ 0 then
    { s with pms := { s.pms with count := s.pms.count - 1 },
             pms2 := { s.pms2 with count := s.pms2.count - 1 } }
  else s

/-- `UncountDeflood`. -/
def uncountDeflood (bFromPM : Bool) : MessageUser := if bFromPM then s.uncountPM else s.uncountChat

/-- `ChatDeflood`. -/
def chatDeflood (m : Message) : MessageUser × Bool :=
  let checked := m.deflood .chat s.user s.chatMsgs s.chatMsgs2
  ({ s with user := checked.user, chatMsgs := checked.counter, chatMsgs2 := checked.counter2 },
    checked.flood || !m.passes)

/-- The flood checks of `To`. -/
def toDeflood (m : Message) : MessageUser × Bool :=
  let checked := m.deflood .pm s.user s.pms s.pms2
  ({ s with user := checked.user, pms := checked.counter, pms2 := checked.counter2 },
    checked.flood || !m.passes)

/-- What is taken back from the counters in a step. -/
inductive Uncount
  | nothing
  | kick
  /-- With `m_bFromPM`, and what was counted for the command. -/
  | command (bFromPM : Bool) (counted : CounterId → Bool)

/-- A chat is a command of chat, a private message one of private messages. -/
def ofChat (c : Counted) : CounterId → Bool
  | .chatMsgs => c.counted
  | .chatMsgs2 => c.counted2
  | _ => false

def ofPM (c : Counted) : CounterId → Bool
  | .pms => c.counted
  | .pms2 => c.counted2
  | _ => false

/-- A step up to where something is taken back. -/
def checked : MessageEvent → MessageUser × Uncount
  | .chat m isKick _ _ =>
    let s' := s.chatDeflood m
    (s'.1, if s'.2 = false ∧ isKick then .kick else .nothing)
  | .pm m isCommand =>
    let s' := s.toDeflood m
    (s'.1, if s'.2 = false ∧ isCommand then .command true (ofPM m.counted) else .nothing)
  | .process replyAsPM =>
    match s.cmdList with
    | [] => (s, .nothing)
    | cur :: queue =>
      ({ s with cmdList := queue },
        if cur.isCommand then .command replyAsPM (ofChat cur.counted) else .nothing)

/-- What is taken back. -/
def uncount : Uncount → MessageUser
  | .nothing => s
  | .kick => s.uncountChat
  | .command bFromPM _ => s.uncountDeflood bFromPM

/-- A chat that is let through, and not filtered out, is stored for `ProcessCmds`. What was
counted for it a kick may have taken back already. -/
def store (e : MessageEvent) (chatMsgs : Counter) : MessageUser :=
  match e with
  | .chat m isKick filtered isCommand =>
    if isKick ∧ filtered then s
    else
      let c := m.counted
      let kept := !(isKick && chatMsgs.count ≠ 0)
      { s with cmdList := s.cmdList ++ [⟨isCommand, ⟨c.counted && kept, c.counted2 && kept⟩⟩] }
  | _ => s

def step (e : MessageEvent) : MessageUser :=
  let c := s.checked e
  let s' := c.1.uncount c.2
  match e with
  | .chat m _ _ _ => if (s.chatDeflood m).2 then s' else s'.store e c.1.chatMsgs
  | _ => s'

end MessageUser

/-- What is taken back from both counters was counted in both, or in none. -/
def Returns (c c2 : Counter) (k : Counted) : Prop :=
  k = ⟨true, true⟩ ∧ c.count ≠ 0 ∧ c2.count ≠ 0 ∨ k = ⟨false, false⟩ ∧ c.count = 0

namespace MessageUser

variable (s : MessageUser)

/-- No counter wraps below zero, and a command takes back what was counted for it. -/
structure Fair (e : MessageEvent) : Prop where
  raised : ∀ i, ((s.checked e).1.counter i).count.toNat ≤ (s.counter i).count.toNat + 1
  lowered : ∀ i, ((s.step e).counter i).count.toNat ≤ ((s.checked e).1.counter i).count.toNat
  uncounted : ∀ bFromPM counted, (s.checked e).2 = .command bFromPM counted → ∀ i,
    ((s.step e).counter i).count.toNat + (counted i).toNat =
      ((s.checked e).1.counter i).count.toNat

/-- A kick is announced while the second counter is not zero, or neither is lowered. A
command in a private message is counted by both levels, or by none while the first counter
is zero. So is one in chat, and the reply to it goes to the chat. -/
def Balanced : MessageEvent → Prop
  | .chat m isKick _ _ => (s.chatDeflood m).2 = false → isKick →
      m.counted.counted2 ∨ s.chatMsgs2.count ≠ 0 ∨
        m.counted.counted = false ∧ s.chatMsgs.count = 0
  | .pm m isCommand => (s.toDeflood m).2 = false → isCommand →
      m.counted = ⟨true, true⟩ ∨ m.counted = ⟨false, false⟩ ∧ s.pms.count = 0
  | .process replyAsPM => ∀ cur queue, s.cmdList = cur :: queue → cur.isCommand →
      if replyAsPM then cur.counted = ⟨false, false⟩ ∧ s.pms.count = 0
      else Returns s.chatMsgs s.chatMsgs2 cur.counted

end MessageUser

/-! ## What the checks of a message do -/

section
variable {m : Message} {e : DefloodTypes} {u : FloodUser} {c c2 : Counter} {lim : LevelLimit}

/-- A counter after a check: raised by one at most, and not zero if the message is no flood. -/
structure Raised (c c' : Counter) (counted flood : Bool) : Prop where
  raised : c'.count.toNat ≤ c.count.toNat + 1
  some_counted : flood = false → counted = true → c'.count ≠ 0
  not_counted : counted = false → c' = c

theorem succ_le (n : UInt16) : (n + 1).toNat ≤ n.toNat + 1 := by
  rw [UInt16.toNat_add]
  exact Nat.mod_le _ _

theorem deFloodDoAction_le (u : FloodUser) (cfg : WarnSettings) (e : DefloodTypes) (a : Int16)
    (n : UInt16) : (u.deFloodDoAction cfg e a n).2.toNat ≤ n.toNat + 1 := by
  have same : n.toNat ≤ n.toNat + 1 := Nat.le_add_right _ _
  have next := succ_le n
  rw [FloodUser.deFloodDoAction]
  split
  · dsimp only
    split
    · exact same
    · exact next
  · split
    · dsimp only
      split
      · exact next
      · exact same
    · repeat' split
      all_goals exact same

/-- The counter of twice as many messages as the limit is lowered by the limit. -/
theorem halved_le {n : UInt16} {limit : Int16} (some_count : 1 ≤ limit.toInt)
    (twice : (n.toNat : Int) = limit.toInt * 2) :
    (n - limit.toUInt16 + 1).toNat ≤ n.toNat + 1 := by
  have lowered : limit.toUInt16 ≤ n := by
    rw [UInt16.le_iff_toNat_le]
    have positive : 0 ≤ limit := by
      rw [Int16.le_iff_toInt_le]
      exact Int.le_trans (by decide) some_count
    have eq : limit.toUInt16.toNat = limit.toInt.toNat := Int16.toNat_toUInt16_of_le positive
    omega
  refine Nat.le_trans (succ_le _) (Nat.add_le_add_right ?_ 1)
  rw [UInt16.toNat_sub_of_le _ _ lowered]
  exact Nat.sub_le _ _

theorem check_raised (some_count : 1 ≤ lim.defloodCount.toInt) (now : Nat) (cfg : WarnSettings) :
    (c.deFloodCheckForFlood lim.toLimit now cfg e u).counter.count.toNat ≤ c.count.toNat + 1 ∧
      ((c.deFloodCheckForFlood lim.toLimit now cfg e u).flood = false →
        (c.deFloodCheckForFlood lim.toLimit now cfg e u).counter.count ≠ 0) := by
  have one : (1 : UInt16).toNat ≤ c.count.toNat + 1 := Nat.le_add_left 1 _
  have nonzero : (1 : UInt16) ≠ 0 := by decide
  have below := lim.defloodCount.toInt_lt
  rw [Counter.deFloodCheckForFlood]
  split
  · rename_i zero
    rw [zero]
    exact ⟨Nat.le_refl 1, fun _ => nonzero⟩
  · split
    · split
      · exact ⟨deFloodDoAction_le _ _ _ _ _, nofun⟩
      · exact ⟨one, fun _ => nonzero⟩
    · split
      · split
        · split
          · rename_i twice
            dsimp only
            split
            · exact ⟨Nat.le_add_right _ _, nofun⟩
            · exact ⟨halved_le some_count twice.2, nofun⟩
          · exact ⟨succ_le _, nofun⟩
        · exact ⟨one, fun _ => nonzero⟩
      · rename_i differs under
        split
        · refine ⟨succ_le _, fun _ wrapped => ?_⟩
          have zero := congrArg UInt16.toNat wrapped
          rw [UInt16.toNat_add] at zero
          simp only [UInt16.reduceToNat, Nat.reducePow] at zero
          omega
        · exact ⟨one, fun _ => nonzero⟩

theorem checkLevel_raised (m : Message) (e : DefloodTypes) (u : FloodUser) (c : Counter)
    (lim : LevelLimit) : Raised c (m.checkLevel e u c lim).counter (lim.action ≠ 0)
    (m.checkLevel e u c lim).flood := by
  rw [Message.checkLevel]
  split
  · rename_i off
    exact ⟨Nat.le_add_right _ _, fun _ on => absurd off (of_decide_eq_true on), fun _ => rfl⟩
  · rename_i on
    obtain ⟨raised, some_counted⟩ := check_raised (c := c) (e := e) (u := u) lim.some_count m.tick m.cfg
    exact ⟨raised, fun calm _ => some_counted calm, fun off => absurd off (by simpa using on)⟩

theorem Raised.refl (c : Counter) (flood : Bool) : Raised c c false flood :=
  ⟨Nat.le_add_right _ _, nofun, fun _ => rfl⟩

theorem deflood_raised (m : Message) (e : DefloodTypes) (u : FloodUser) (c c2 : Counter) :
    Raised c (m.deflood e u c c2).counter m.counted.counted
      (m.deflood e u c c2).flood ∧
    Raised c2 (m.deflood e u c c2).counter2 (m.counted.counted2) (m.deflood e u c c2).flood := by
  rw [Message.deflood, Message.counted]
  cases m.noDeflood with
  | true => exact ⟨.refl _ _, .refl _ _⟩
  | false =>
    have first := checkLevel_raised m e u c m.lim
    simp only [Bool.not_false, Bool.true_and]
    rw [if_neg Bool.false_ne_true]
    split
    · rename_i flood
      rw [flood] at first
      exact ⟨first, Nat.le_add_right _ _, nofun, fun _ => rfl⟩
    · rename_i calm
      have second := checkLevel_raised m e (m.checkLevel e u c m.lim).user c2 m.lim2
      refine ⟨⟨first.raised, fun _ => first.some_counted (Bool.eq_false_iff.mpr calm), first.not_counted⟩,
        second⟩

end

/-! ## What is taken back -/

section
variable {c c2 : Counter} {k : Counted}

/-- A counter is lowered if the first one of the two is not zero. -/
def lowered (first c : Counter) : Counter :=
  if first.count ≠ 0 then { c with count := c.count - 1 } else c

theorem pred_toNat {n : UInt16} (nonzero : n ≠ 0) : (n - 1).toNat + 1 = n.toNat := by
  have positive : 1 ≤ n.toNat := by
    have : n.toNat ≠ 0 := fun zero => nonzero (UInt16.toNat_inj.mp zero)
    omega
  have le : 1 ≤ n := UInt16.le_iff_toNat_le.mpr positive
  rw [UInt16.toNat_sub_of_le _ _ le]
  exact Nat.sub_add_cancel positive

/-- A counter that is lowered does not wrap, if it is not zero. -/
theorem lowered_le (first : Counter) :
    (lowered first c).count.toNat ≤ c.count.toNat ↔ first.count = 0 ∨ c.count ≠ 0 := by
  by_cases off : first.count = 0
  · rw [lowered, if_neg (not_not.mpr off)]
    exact iff_of_true (Nat.le_refl _) (.inl off)
  · rw [lowered, if_pos off]
    by_cases zero : c.count = 0
    · refine iff_of_false ?_ fun h => h.elim off fun nonzero => nonzero zero
      change ¬(c.count - 1).toNat ≤ c.count.toNat
      rw [zero]
      decide
    · have := pred_toNat zero
      exact iff_of_true (by dsimp only; omega) (.inr zero)

theorem lowered_eq_iff (first : Counter) (counted : Bool) :
    (lowered first c).count.toNat + counted.toNat = c.count.toNat ↔
      counted = true ∧ first.count ≠ 0 ∧ c.count ≠ 0 ∨ counted = false ∧ first.count = 0 := by
  by_cases off : first.count = 0
  · rw [lowered, if_neg (not_not.mpr off)]
    cases counted <;> simp [off]
  · rw [lowered, if_pos off]
    by_cases zero : c.count = 0
    · rw [zero]
      cases counted <;> simp [off]
    · have := pred_toNat zero
      cases counted
      · simp [off]
        omega
      · simp [off, zero]
        omega

theorem returns_iff : Returns c c2 k ↔
    (lowered c c).count.toNat + k.counted.toNat = c.count.toNat ∧
      (lowered c c2).count.toNat + k.counted2.toNat = c2.count.toNat := by
  rw [lowered_eq_iff, lowered_eq_iff, Returns]
  obtain ⟨a, b⟩ := k
  cases a
  all_goals
    cases b
    all_goals
      simp only [Counted.mk.injEq]
      tauto

end

section
variable {c c' c2 c2' : Counter} {k : Counted} {flood : Bool}

/-- A kick that is no flood lowers no counter that is zero. -/
theorem kick_iff (calm : flood = false) (first : Raised c c' k.counted flood)
    (second : Raised c2 c2' k.counted2 flood) :
    c'.count = 0 ∨ c2'.count ≠ 0 ↔
      k.counted2 = true ∨ c2.count ≠ 0 ∨ k.counted = false ∧ c.count = 0 := by
  cases on2 : k.counted2 with
  | true => exact iff_of_true (.inr (second.some_counted calm on2)) (.inl rfl)
  | false =>
    rw [second.not_counted on2]
    cases on : k.counted with
    | true =>
      have some_counted := first.some_counted calm on
      simp [some_counted]
    | false =>
      rw [first.not_counted on]
      simp [or_comm]

/-- A command is taken back if both levels counted it, or none did and nothing is lowered. -/
theorem command_iff (calm : flood = false) (first : Raised c c' k.counted flood)
    (second : Raised c2 c2' k.counted2 flood) :
    Returns c' c2' k ↔ k = ⟨true, true⟩ ∨ k = ⟨false, false⟩ ∧ c.count = 0 := by
  rw [Returns]
  refine or_congr (and_iff_left_of_imp ?_) (and_congr_right ?_)
  · rintro rfl
    exact ⟨first.some_counted calm rfl, second.some_counted calm rfl⟩
  · rintro rfl
    rw [first.not_counted rfl]

end

namespace MessageUser

section
variable {s : MessageUser} {k : Counted}

@[simp] theorem store_counter (s : MessageUser) (e : MessageEvent) (c : Counter) (i : CounterId) :
    (s.store e c).counter i = s.counter i := by
  unfold store
  split
  · split <;> rfl
  · rfl

theorem step_counter (s : MessageUser) (e : MessageEvent) (i : CounterId) :
    (s.step e).counter i = ((s.checked e).1.uncount (s.checked e).2).counter i := by
  unfold step
  cases e with
  | chat =>
    dsimp only
    split
    · rfl
    · rw [store_counter]
  | pm => rfl
  | process => rfl

theorem uncountChat_eq (s : MessageUser) : s.uncountChat =
    { s with chatMsgs := lowered s.chatMsgs s.chatMsgs,
             chatMsgs2 := lowered s.chatMsgs s.chatMsgs2 } := by
  unfold uncountChat lowered
  split <;> rfl

theorem uncountPM_eq (s : MessageUser) : s.uncountPM =
    { s with pms := lowered s.pms s.pms, pms2 := lowered s.pms s.pms2 } := by
  unfold uncountPM lowered
  split <;> rfl

/-- What is taken back makes no counter wrap, and for a command it is what was counted. -/
structure TakesBack (s : MessageUser) (u : Uncount) : Prop where
  lowered : ∀ i, ((s.uncount u).counter i).count.toNat ≤ (s.counter i).count.toNat
  uncounted : ∀ bFromPM counted, u = .command bFromPM counted → ∀ i,
    ((s.uncount u).counter i).count.toNat + (counted i).toNat = (s.counter i).count.toNat

theorem takesBack_nothing : s.TakesBack .nothing := ⟨fun _ => Nat.le_refl _, nofun⟩

theorem takesBack_kick : s.TakesBack .kick ↔ s.chatMsgs.count = 0 ∨ s.chatMsgs2.count ≠ 0 := by
  constructor
  · rintro ⟨le, -⟩
    have le2 := le .chatMsgs2
    rw [uncount, uncountChat_eq] at le2
    exact (lowered_le _).mp le2
  · intro nonzero
    refine ⟨fun i => ?_, nofun⟩
    rw [uncount, uncountChat_eq]
    cases i with
    | chatMsgs => exact (lowered_le _).mpr (Classical.em _)
    | chatMsgs2 => exact (lowered_le _).mpr nonzero
    | pms => exact Nat.le_refl _
    | pms2 => exact Nat.le_refl _

/-- A command takes back what was counted for it if it does so from every counter. -/
theorem takesBack_command {bFromPM : Bool} {counted : CounterId → Bool} :
    s.TakesBack (.command bFromPM counted) ↔ ∀ i,
      ((s.uncountDeflood bFromPM).counter i).count.toNat + (counted i).toNat =
        (s.counter i).count.toNat := by
  constructor
  · intro back
    exact back.uncounted bFromPM counted rfl
  · intro all
    refine ⟨fun i => ?_, ?_⟩
    · have := all i
      rw [uncount]
      omega
    · rintro _ _ ⟨⟩
      exact all

theorem takesBack_chat : s.TakesBack (.command false (ofChat k)) ↔
    Returns s.chatMsgs s.chatMsgs2 k := by
  rw [takesBack_command, returns_iff, uncountDeflood, if_neg Bool.false_ne_true, uncountChat_eq]
  constructor
  · intro all
    exact ⟨all .chatMsgs, all .chatMsgs2⟩
  · rintro ⟨first, second⟩ i
    cases i with
    | chatMsgs => exact first
    | chatMsgs2 => exact second
    | pms => rfl
    | pms2 => rfl

theorem takesBack_pm : s.TakesBack (.command true (ofPM k)) ↔ Returns s.pms s.pms2 k := by
  rw [takesBack_command, returns_iff, uncountDeflood, if_pos rfl, uncountPM_eq]
  constructor
  · intro all
    exact ⟨all .pms, all .pms2⟩
  · rintro ⟨first, second⟩ i
    cases i with
    | chatMsgs => rfl
    | chatMsgs2 => rfl
    | pms => exact first
    | pms2 => exact second

/-- With a reply in a private message, a command in chat takes back private messages. -/
theorem takesBack_reply : s.TakesBack (.command true (ofChat k)) ↔
    k = ⟨false, false⟩ ∧ s.pms.count = 0 := by
  rw [takesBack_command, uncountDeflood, if_pos rfl, uncountPM_eq]
  constructor
  · intro all
    have none_first : k.counted = false := by
      have first := all .chatMsgs
      simp only [counter, ofChat, Nat.add_eq_left] at first
      simpa using first
    have none_second : k.counted2 = false := by
      have second := all .chatMsgs2
      simp only [counter, ofChat, Nat.add_eq_left] at second
      simpa using second
    have zero := (lowered_eq_iff s.pms false).mp (all .pms)
    obtain ⟨a, b⟩ := k
    obtain rfl : a = false := none_first
    obtain rfl : b = false := none_second
    exact ⟨rfl, by simpa using zero⟩
  · rintro ⟨rfl, zero⟩ i
    cases i with
    | chatMsgs => rfl
    | chatMsgs2 => rfl
    | pms => exact (lowered_eq_iff s.pms false).mpr (.inr ⟨rfl, zero⟩)
    | pms2 => exact (lowered_eq_iff s.pms false).mpr (.inr ⟨rfl, zero⟩)

/-- Checks never let a counter wrap below zero. -/
theorem checked_raised (s : MessageUser) (e : MessageEvent) (i : CounterId) :
    ((s.checked e).1.counter i).count.toNat ≤ (s.counter i).count.toNat + 1 := by
  have same : ∀ c : Counter, c.count.toNat ≤ c.count.toNat + 1 := fun _ => Nat.le_add_right _ _
  cases e with
  | chat m isKick filtered isCommand =>
    obtain ⟨first, second⟩ := deflood_raised m .chat s.user s.chatMsgs s.chatMsgs2
    cases i with
    | chatMsgs => exact first.raised
    | chatMsgs2 => exact second.raised
    | pms => exact same _
    | pms2 => exact same _
  | pm m isCommand =>
    obtain ⟨first, second⟩ := deflood_raised m .pm s.user s.pms s.pms2
    cases i with
    | chatMsgs => exact same _
    | chatMsgs2 => exact same _
    | pms => exact first.raised
    | pms2 => exact second.raised
  | process replyAsPM =>
    rw [checked]
    cases s.cmdList with
    | nil => exact same _
    | cons cur queue => cases i <;> exact same _

theorem fair_iff_takesBack (e : MessageEvent) :
    s.Fair e ↔ (s.checked e).1.TakesBack (s.checked e).2 := by
  constructor
  · rintro ⟨-, lowered, uncounted⟩
    simp only [step_counter] at lowered uncounted
    exact ⟨lowered, uncounted⟩
  · rintro ⟨lowered, uncounted⟩
    simp only [← step_counter] at lowered uncounted
    exact ⟨checked_raised s e, lowered, uncounted⟩

/-- A step is fair exactly if it is balanced. -/
theorem fair_iff (e : MessageEvent) : s.Fair e ↔ s.Balanced e := by
  rw [fair_iff_takesBack]
  cases e with
  | chat m isKick filtered isCommand =>
    obtain ⟨first, second⟩ := deflood_raised m .chat s.user s.chatMsgs s.chatMsgs2
    change (s.chatDeflood m).1.TakesBack
      (if (s.chatDeflood m).2 = false ∧ isKick = true then .kick else .nothing) ↔ _
    by_cases both : (s.chatDeflood m).2 = false ∧ isKick = true
    · rw [if_pos both, takesBack_kick, Balanced, forall_prop_of_true both.1,
        forall_prop_of_true both.2]
      exact kick_iff (Bool.or_eq_false_iff.mp both.1).1 first second
    · rw [if_neg both]
      exact iff_of_true takesBack_nothing fun calm kick => absurd ⟨calm, kick⟩ both
  | pm m isCommand =>
    obtain ⟨first, second⟩ := deflood_raised m .pm s.user s.pms s.pms2
    change (s.toDeflood m).1.TakesBack (if (s.toDeflood m).2 = false ∧ isCommand = true then
      .command true (ofPM m.counted) else .nothing) ↔ _
    by_cases both : (s.toDeflood m).2 = false ∧ isCommand = true
    · rw [if_pos both, takesBack_pm, Balanced, forall_prop_of_true both.1,
        forall_prop_of_true both.2]
      exact command_iff (Bool.or_eq_false_iff.mp both.1).1 first second
    · rw [if_neg both]
      exact iff_of_true takesBack_nothing fun calm command => absurd ⟨calm, command⟩ both
  | process replyAsPM =>
    rw [checked, Balanced]
    cases queued : s.cmdList with
    | nil => exact iff_of_true takesBack_nothing nofun
    | cons cur queue =>
      dsimp only
      by_cases command : cur.isCommand = true
      · rw [if_pos command]
        have only : (∀ cur' queue', cur :: queue = cur' :: queue' → cur'.isCommand = true →
            if replyAsPM = true then cur'.counted = ⟨false, false⟩ ∧ s.pms.count = 0
            else Returns s.chatMsgs s.chatMsgs2 cur'.counted) ↔
            if replyAsPM = true then cur.counted = ⟨false, false⟩ ∧ s.pms.count = 0
            else Returns s.chatMsgs s.chatMsgs2 cur.counted := by
          constructor
          · intro all
            exact all cur queue rfl command
          · rintro one _ _ ⟨⟩ -
            exact one
        rw [only]
        cases replyAsPM with
        | true => exact takesBack_reply
        | false => exact takesBack_chat
      · rw [if_neg command]
        refine iff_of_true takesBack_nothing ?_
        rintro _ _ ⟨⟩ command'
        exact absurd command' command

end

end MessageUser

/-- Of all the messages of a run the commands are not counted, and no counter wraps, exactly
if every step is balanced. -/
theorem uncount_fair_iff (s : MessageUser) (es : List MessageEvent) :
    (∀ pre e, pre ++ [e] <+: es → (run MessageUser.step s pre).Fair e) ↔
      Allowed MessageUser.step MessageUser.Balanced s es := by
  rw [allowed_iff_steps]
  simp only [MessageUser.fair_iff]

/-- Five chats in a minute, counted by the first level alone. -/
def fiveChats : Message :=
  ⟨7, ⟨3, 0⟩, ⟨⟨1, 5, 60⟩, by decide⟩, ⟨⟨0, 5, 60⟩, by decide⟩, false, true⟩

def newSpeaker : MessageUser := ⟨⟨0, false, [], []⟩, ⟨0, 0⟩, ⟨0, 0⟩, ⟨0, 0⟩, ⟨0, 0⟩, []⟩

/-- A command in chat, with the second level off. -/
theorem chat_command_wraps : ¬∀ (s : MessageUser) (es : List MessageEvent) (pre : List MessageEvent)
    (e : MessageEvent), pre ++ [e] <+: es → (run MessageUser.step s pre).Fair e := by
  intro all
  have fair := all newSpeaker [.chat fiveChats false false true, .process false]
    [.chat fiveChats false false true] (.process false) (List.prefix_refl _)
  exact absurd (fair.lowered .chatMsgs2) (by decide +kernel)

end FlyHub.Flood
