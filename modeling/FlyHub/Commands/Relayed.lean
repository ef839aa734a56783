import FlyHub.Text
import Mathlib.Data.List.Nodup
import Mathlib.Logic.Function.Basic

/-!
# Commands from user to user

What a user sends to another waits in a list of his own, together with all else that he has
sent to the same user, and is delivered when the list has been gone through for the third
time. A user gets only so many private messages a minute.
-/

namespace FlyHub.Commands

/-- A `$ConnectToMe`, `$RevConnectToMe`, `$SR` or `$To`. -/
structure UserCmd where
  text : Text
  isPm : Bool

/-- `PrcsdToUsrCmd`. -/
structure ToUserCmd where
  toUser : Nat
  commands : List UserCmd
  pmCount : Nat
  loops : Nat

/-- `m_ui32ReceivedPmCount` and `m_ui64ReceivedPmTick`. -/
structure ReceivedPms where
  count : Nat
  tick : Nat

/-- The users that are online or were. The texts in a send buffer stand with their
senders, and a notice with the number of messages that weren't sent. -/
structure CmdLists where
  online : Nat → Bool
  cmdToUserList : Nat → List ToUserCmd
  received : Nat → ReceivedPms
  sendBuf : Nat → List (Nat × UserCmd)
  notices : List (Nat × Nat × Nat)

/-- What becomes of a command. -/
inductive Fate where
  | delivered
  | gone
  | limit
  deriving DecidableEq

structure Outcome where
  sender : Nat
  toUser : Nat
  command : UserCmd
  fate : Fate

inductive RelayEvent where
  | add (sender toUser : Nat) (command : UserCmd)
  | service (sender now : Nat)
  | kick (sender toUser : Nat)
  | leave (user : Nat)

def pmOf (c : UserCmd) : Nat := if c.isPm then 1 else 0

/-- `AddPrcsdCmd`. -/
def addPrcsdCmd (toUser : Nat) (c : UserCmd) : List ToUserCmd → List ToUserCmd
  | [] => [⟨toUser, [c], pmOf c, 0⟩]
  | b :: bs =>
    if b.toUser = toUser then
      { b with commands := b.commands ++ [c], pmCount := b.pmCount + pmOf c } :: bs
    else b :: addPrcsdCmd toUser c bs

namespace ReceivedPms

variable (max now : Nat)

/-- The messages of a minute have been received. -/
def Over (r : ReceivedPms) : Prop := max ≠ 0 ∧ max ≤ r.count ∧ now ≤ r.tick + 60

/-- The counters after so many messages more, or nothing where they are too many. -/
def receive (pmCount : Nat) (r : ReceivedPms) : Option ReceivedPms :=
  if max = 0 ∨ pmCount = 0 then some r
  else if r.count = 0 then some ⟨r.count + pmCount, now⟩
  else if max ≤ r.count then
    if r.tick + 60 < now then some ⟨pmCount, now⟩ else none
  else some { r with count := r.count + pmCount }

end ReceivedPms

namespace CmdLists

def init : CmdLists := ⟨fun _ => true, fun _ => [], fun _ => ⟨0, 0⟩, fun _ => [], []⟩

def outcomes (sender : Nat) (b : ToUserCmd) (fate : Fate) : List Outcome :=
  b.commands.map fun c => ⟨sender, b.toUser, c, fate⟩

def deliver (st : CmdLists) (sender : Nat) (b : ToUserCmd) : CmdLists :=
  { st with
    sendBuf := Function.update st.sendBuf b.toUser
      (st.sendBuf b.toUser ++ b.commands.map fun c => (sender, c)) }

section
variable (max sender now : Nat)

/-- What `ReceiveLoop` does with one entry of the list of a user. -/
def serveOne (st : CmdLists) (b : ToUserCmd) : CmdLists × List Outcome :=
  if 2 ≤ b.loops then
    if st.online b.toUser then
      match (st.received b.toUser).receive max now b.pmCount with
      | some r =>
        ({ st with received := Function.update st.received b.toUser r }.deliver sender b,
          outcomes sender b .delivered)
      | none =>
        ({ st with notices := st.notices ++ [(sender, b.toUser, b.pmCount)] },
          outcomes sender b .limit)
    else (st, outcomes sender b .gone)
  else
    ({ st with
        cmdToUserList := Function.update st.cmdToUserList sender
          (st.cmdToUserList sender ++ [{ b with loops := b.loops + 1 }]) }, [])

def serve (st : CmdLists) : List ToUserCmd → CmdLists × List Outcome
  | [] => (st, [])
  | b :: bs =>
    let first := serveOne max sender now st b
    let rest := serve first.1 bs
    (rest.1, first.2 ++ rest.2)

end

/-- `Kick` sends at once what the kicker has sent to the user before. -/
def kick (st : CmdLists) (sender toUser : Nat) : CmdLists × List Outcome :=
  match (st.cmdToUserList sender).find? fun b => b.toUser = toUser with
  | some b =>
    if st.online sender && st.online toUser then
      ({ st with
          cmdToUserList := Function.update st.cmdToUserList sender
            ((st.cmdToUserList sender).eraseP fun b => b.toUser = toUser) }.deliver sender b,
        outcomes sender b .delivered)
    else (st, [])
  | none => (st, [])

def step (max : Nat) (st : CmdLists) : RelayEvent → CmdLists × List Outcome
  | .add sender toUser c =>
    ({ st with
        cmdToUserList := Function.update st.cmdToUserList sender
          (addPrcsdCmd toUser c (st.cmdToUserList sender)) }, [])
  | .service sender now =>
    if st.online sender then
      serve max sender now
        { st with cmdToUserList := Function.update st.cmdToUserList sender [] }
        (st.cmdToUserList sender)
    else (st, [])
  | .kick sender toUser => st.kick sender toUser
  | .leave user =>
    ({ st with
        online := Function.update st.online user false
        cmdToUserList := Function.update st.cmdToUserList user [] }, [])

/-- A run, with what has become of the commands. -/
def runFrom (max : Nat) : CmdLists → List RelayEvent → CmdLists × List Outcome
  | st, [] => (st, [])
  | st, e :: es =>
    let first := st.step max e
    let rest := runFrom max first.1 es
    (rest.1, first.2 ++ rest.2)

/-- The commands of a user to another that wait. -/
def waiting (st : CmdLists) (sender toUser : Nat) : List UserCmd :=
  (st.cmdToUserList sender).flatMap fun b => if b.toUser = toUser then b.commands else []

/-- What has become of the commands of a user to another. -/
def resolved (sender toUser : Nat) (rs : List Outcome) : List Outcome :=
  rs.filter fun o => o.sender = sender ∧ o.toUser = toUser

def addedBy (sender toUser : Nat) : RelayEvent → List UserCmd
  | .add s t c => if s = sender ∧ t = toUser then [c] else []
  | _ => []

/-- The commands that a user has sent to another. -/
def added (sender toUser : Nat) (es : List RelayEvent) : List UserCmd :=
  es.flatMap (addedBy sender toUser)

def serves (sender : Nat) : RelayEvent → Bool
  | .service s _ => s = sender
  | _ => false

/-- A command is lost with a target that has left, or because it is a private message
too many. -/
def Justified (max : Nat) (st : CmdLists) (e : RelayEvent) (o : Outcome) : Prop :=
  match o.fate with
  | .delivered => True
  | .gone => st.online o.toUser = false
  | .limit => o.command.isPm ∧
      ∃ now, e = .service o.sender now ∧ (st.received o.toUser).Over max now

/-- Relayed commands are delivered once and in order. -/
structure Relays (max : Nat) (es : List RelayEvent) : Prop where
  once : ∀ s t, (init.runFrom max es).1.online s →
    added s t es = (resolved s t (init.runFrom max es).2).map (·.command) ++
      (init.runFrom max es).1.waiting s t
  sent : ∀ t, (init.runFrom max es).1.sendBuf t =
    ((init.runFrom max es).2.filter fun o => o.toUser = t ∧ o.fate = .delivered).map
      fun o => (o.sender, o.command)
  /-- What has been sent is settled when the list has been gone through three times. -/
  prompt : ∀ pre post s t, es = pre ++ post → (init.runFrom max es).1.online s →
    3 ≤ post.countP (serves s) →
    added s t pre <+: (resolved s t (init.runFrom max es).2).map (·.command)
  justified : ∀ pre e post, es = pre ++ e :: post →
    ∀ o ∈ ((init.runFrom max pre).1.step max e).2, Justified max (init.runFrom max pre).1 e o

/-- No entry that is due to a user who has received the messages of a minute holds a
private message together with something else. -/
def Separate (max : Nat) (st : CmdLists) : RelayEvent → Prop
  | .service sender now => st.online sender → ∀ b ∈ st.cmdToUserList sender,
      2 ≤ b.loops → st.online b.toUser → (st.received b.toUser).Over max now →
      (∃ c ∈ b.commands, c.isPm) → ∀ c ∈ b.commands, c.isPm
  | _ => True

/-! Entries -/

def entry (l : List ToUserCmd) (toUser : Nat) : Option ToUserCmd :=
  l.find? fun b => b.toUser = toUser

def Distinct (l : List ToUserCmd) : Prop := (l.map (·.toUser)).Nodup

theorem entry_absent {l : List ToUserCmd} {t : Nat} (h : t ∉ l.map (·.toUser)) :
    entry l t = none := by
  rw [entry, List.find?_eq_none]
  intro b hb
  simp only [decide_eq_true_eq]
  rintro rfl
  exact h (List.mem_map_of_mem hb)

theorem entry_cons (b : ToUserCmd) (l : List ToUserCmd) (t : Nat) :
    entry (b :: l) t = if b.toUser = t then some b else entry l t := by
  by_cases h : b.toUser = t <;> simp [entry, h]

theorem entry_mem {l : List ToUserCmd} {t : Nat} {b : ToUserCmd} (h : entry l t = some b) :
    b ∈ l ∧ b.toUser = t :=
  ⟨List.mem_of_find?_eq_some h, by simpa using List.find?_some h⟩

/-- With one entry for a user, what waits for him is in that entry. -/
theorem flatMap_entry {l : List ToUserCmd} (hd : Distinct l) {t : Nat} {α : Type}
    (f : ToUserCmd → List α) :
    (l.flatMap fun b => if b.toUser = t then f b else []) = ((entry l t).map f).getD [] := by
  induction l with
  | nil => rfl
  | cons a l ih =>
    rw [Distinct, List.map_cons, List.nodup_cons] at hd
    rw [List.flatMap_cons, entry_cons, ih hd.2]
    by_cases h : a.toUser = t
    · rw [if_pos h, if_pos h, entry_absent (h ▸ hd.1)]
      simp
    · simp [h]

theorem waiting_entry {st : CmdLists} {s : Nat} (hd : Distinct (st.cmdToUserList s)) (t : Nat) :
    st.waiting s t = ((entry (st.cmdToUserList s) t).map (·.commands)).getD [] :=
  flatMap_entry hd _

/-- The entry for a user after one more command to him. -/
def grown (toUser : Nat) (c : UserCmd) : Option ToUserCmd → ToUserCmd
  | none => ⟨toUser, [c], pmOf c, 0⟩
  | some b => { b with commands := b.commands ++ [c], pmCount := b.pmCount + pmOf c }

theorem addPrcsdCmd_targets (t : Nat) (c : UserCmd) (l : List ToUserCmd) :
    (addPrcsdCmd t c l).map (·.toUser) =
      if t ∈ l.map (·.toUser) then l.map (·.toUser) else l.map (·.toUser) ++ [t] := by
  induction l with
  | nil => rfl
  | cons b l ih =>
    rw [addPrcsdCmd]
    by_cases h : b.toUser = t
    · simp [h]
    · rw [if_neg h, List.map_cons, ih]
      by_cases hm : t ∈ l.map (·.toUser)
      · rw [if_pos hm, if_pos (by simp only [List.map_cons, List.mem_cons]; exact .inr hm),
          List.map_cons]
      · rw [if_neg hm, if_neg]
        · simp
        · simp only [List.map_cons, List.mem_cons, not_or]
          exact ⟨Ne.symm h, hm⟩

theorem addPrcsdCmd_distinct {l : List ToUserCmd} (hd : Distinct l) (t : Nat) (c : UserCmd) :
    Distinct (addPrcsdCmd t c l) := by
  rw [Distinct, addPrcsdCmd_targets]
  split
  · exact hd
  · rename_i h
    rw [List.nodup_append]
    refine ⟨hd, List.nodup_singleton t, ?_⟩
    intro a ha b hb e
    rw [List.mem_singleton] at hb
    exact h (hb ▸ e ▸ ha)

theorem entry_addPrcsdCmd (t u : Nat) (c : UserCmd) (l : List ToUserCmd) :
    entry (addPrcsdCmd t c l) u =
      if t = u then some (grown t c (entry l t)) else entry l u := by
  induction l with
  | nil => simp [addPrcsdCmd, entry, grown]
  | cons b l ih =>
    rw [addPrcsdCmd, entry_cons b l t]
    by_cases h : b.toUser = t
    · rw [if_pos h, if_pos h, entry_cons, entry_cons]
      by_cases hu : t = u
      · simp [h, hu, grown]
      · simp [h, hu]
    · rw [if_neg h, if_neg h, entry_cons, ih, entry_cons]
      by_cases hu : t = u
      · subst hu
        simp [h]
      · simp [hu]

theorem addPrcsdCmd_all {P : ToUserCmd → Prop}
    (grow : ∀ t c x, (∀ b, x = some b → P b) → P (grown t c x)) {l : List ToUserCmd}
    (h : ∀ b ∈ l, P b) (t : Nat) (c : UserCmd) : ∀ b ∈ addPrcsdCmd t c l, P b := by
  induction l with
  | nil =>
    intro b hb
    rw [addPrcsdCmd, List.mem_singleton] at hb
    rw [hb]
    exact grow t c none nofun
  | cons a l ih =>
    rw [addPrcsdCmd]
    split
    · intro b hb
      rcases List.mem_cons.1 hb with rfl | hb
      · apply grow t c (some a)
        rintro b ⟨⟩
        exact h a List.mem_cons_self
      · exact h b (List.mem_cons_of_mem _ hb)
    · intro b hb
      rcases List.mem_cons.1 hb with rfl | hb
      · exact h b List.mem_cons_self
      · exact ih (fun b hb => h b (List.mem_cons_of_mem _ hb)) b hb

/-! Going through a list -/

/-- What an entry is for the next time, unless it is due. -/
def aged (b : ToUserCmd) : Option ToUserCmd :=
  if 2 ≤ b.loops then none else some { b with loops := b.loops + 1 }

theorem aged_target {b b' : ToUserCmd} (h : aged b = some b') : b'.toUser = b.toUser := by
  unfold aged at h
  split at h
  · cases h
  · cases h
    rfl

section
variable (max sender now : Nat)

def fateOf (st : CmdLists) (b : ToUserCmd) : Fate :=
  if st.online b.toUser then
    if ((st.received b.toUser).receive max now b.pmCount).isSome then .delivered else .limit
  else .gone

def settledOf (st : CmdLists) (b : ToUserCmd) : List Outcome :=
  if 2 ≤ b.loops then outcomes sender b (st.fateOf max now b) else []

/-- The part of what has become of commands that has reached a user. -/
def sentTo (toUser : Nat) (rs : List Outcome) : List (Nat × UserCmd) :=
  (rs.filter fun o => o.toUser = toUser ∧ o.fate = .delivered).map fun o => (o.sender, o.command)

theorem sentTo_append (t : Nat) (rs rs' : List Outcome) :
    sentTo t (rs ++ rs') = sentTo t rs ++ sentTo t rs' := by
  simp [sentTo]

theorem sentTo_outcomes (t : Nat) (b : ToUserCmd) (f : Fate) :
    sentTo t (outcomes sender b f) =
      if b.toUser = t ∧ f = .delivered then b.commands.map fun c => (sender, c) else [] := by
  by_cases h : b.toUser = t ∧ f = .delivered
  · rw [if_pos h, sentTo, outcomes, List.filter_eq_self.2]
    · simp
    · intro o ho
      obtain ⟨c, -, rfl⟩ := List.mem_map.1 ho
      simp [h]
  · rw [if_neg h, sentTo, outcomes, List.filter_eq_nil_iff.2]
    · rfl
    · intro o ho
      obtain ⟨c, -, rfl⟩ := List.mem_map.1 ho
      simpa using h

variable (st : CmdLists) (b : ToUserCmd)

theorem serveOne_outcomes : (serveOne max sender now st b).2 = st.settledOf max sender now b := by
  rw [serveOne, settledOf]
  by_cases due : 2 ≤ b.loops
  · rw [if_pos due, if_pos due, fateOf]
    by_cases on : st.online b.toUser
    · rw [if_pos on, if_pos on]
      cases (st.received b.toUser).receive max now b.pmCount <;> rfl
    · rw [if_neg on, if_neg on]
  · rw [if_neg due, if_neg due]

theorem serveOne_online : (serveOne max sender now st b).1.online = st.online := by
  rw [serveOne]
  split
  · split
    · split <;> rfl
    · rfl
  · rfl

theorem serveOne_list : (serveOne max sender now st b).1.cmdToUserList =
    Function.update st.cmdToUserList sender
      (st.cmdToUserList sender ++ (aged b).toList) := by
  rw [serveOne, aged]
  by_cases due : 2 ≤ b.loops
  · rw [if_pos due, if_pos due, Option.toList_none, List.append_nil, Function.update_eq_self]
    split
    · split <;> rfl
    · rfl
  · rw [if_neg due, if_neg due]
    rfl

theorem serveOne_received {t : Nat} (h : b.toUser ≠ t) :
    (serveOne max sender now st b).1.received t = st.received t := by
  rw [serveOne]
  split
  · split
    · split
      · exact Function.update_of_ne (Ne.symm h) _ _
      · rfl
    · rfl
  · rfl

theorem serveOne_sendBuf (t : Nat) : (serveOne max sender now st b).1.sendBuf t =
    st.sendBuf t ++ sentTo t (serveOne max sender now st b).2 := by
  rw [serveOne]
  split
  · split
    · split
      · rw [sentTo_outcomes]
        by_cases h : b.toUser = t
        · subst h
          simp [deliver]
        · simp [deliver, h, Function.update_of_ne (Ne.symm h)]
      · simp [sentTo_outcomes]
    · simp [sentTo_outcomes]
  · simp [sentTo]

theorem serveOne_settledOf {b c : ToUserCmd} (h : b.toUser ≠ c.toUser) :
    (serveOne max sender now st b).1.settledOf max sender now c =
      st.settledOf max sender now c := by
  rw [settledOf, settledOf, fateOf, fateOf, serveOne_online, serveOne_received _ _ _ _ _ h]

theorem serve_online (bs : List ToUserCmd) : (serve max sender now st bs).1.online = st.online := by
  induction bs generalizing st with
  | nil => rfl
  | cons b bs ih =>
    rw [serve]
    exact (ih _).trans (serveOne_online max sender now st b)

theorem serve_list (bs : List ToUserCmd) : (serve max sender now st bs).1.cmdToUserList =
    Function.update st.cmdToUserList sender (st.cmdToUserList sender ++ bs.filterMap aged) := by
  induction bs generalizing st with
  | nil => simp [serve]
  | cons b bs ih =>
    rw [serve]
    simp only
    rw [ih, serveOne_list, Function.update_self, Function.update_idem, List.append_assoc]
    cases h : aged b <;> simp [h]

theorem serve_sendBuf (bs : List ToUserCmd) (t : Nat) :
    (serve max sender now st bs).1.sendBuf t =
      st.sendBuf t ++ sentTo t (serve max sender now st bs).2 := by
  induction bs generalizing st with
  | nil => simp [serve, sentTo]
  | cons b bs ih =>
    rw [serve]
    simp only
    rw [ih, serveOne_sendBuf, sentTo_append, List.append_assoc]

/-- Entries for different users don't meet, so each of them fares as if it were alone. -/
theorem serve_outcomes {bs : List ToUserCmd} (hd : Distinct bs) :
    (serve max sender now st bs).2 = bs.flatMap (st.settledOf max sender now) := by
  induction bs generalizing st with
  | nil => rfl
  | cons b bs ih =>
    rw [Distinct, List.map_cons, List.nodup_cons] at hd
    rw [serve]
    simp only
    rw [ih _ hd.2, serveOne_outcomes, List.flatMap_cons]
    congr 1
    apply List.flatMap_congr
    intro c hc
    apply serveOne_settledOf
    intro e
    exact hd.1 (e ▸ List.mem_map_of_mem hc)

end

theorem aged_targets (l : List ToUserCmd) :
    ((l.filterMap aged).map (·.toUser)).Sublist (l.map (·.toUser)) := by
  induction l with
  | nil => exact .slnil
  | cons b l ih =>
    rw [List.filterMap_cons, List.map_cons]
    cases h : aged b with
    | none => exact ih.cons _
    | some b' =>
      rw [List.map_cons, aged_target h]
      exact ih.cons_cons _

theorem entry_aged {l : List ToUserCmd} (hd : Distinct l) (t : Nat) :
    entry (l.filterMap aged) t = (entry l t).bind aged := by
  induction l with
  | nil => rfl
  | cons b l ih =>
    rw [Distinct, List.map_cons, List.nodup_cons] at hd
    rw [List.filterMap_cons, entry_cons]
    by_cases h : b.toUser = t
    · rw [if_pos h, Option.bind_some]
      cases ha : aged b with
      | none => exact entry_absent fun hm => hd.1 (h ▸ (aged_targets l).subset hm)
      | some b' =>
        simp only
        rw [entry_cons, if_pos ((aged_target ha).trans h)]
    · rw [if_neg h, ← ih hd.2]
      cases ha : aged b with
      | none => rfl
      | some b' =>
        simp only
        rw [entry_cons, if_neg]
        rw [aged_target ha]
        exact h

theorem entry_eraseP {l : List ToUserCmd} (hd : Distinct l) (t u : Nat) :
    entry (l.eraseP fun b => b.toUser = t) u = if u = t then none else entry l u := by
  induction l with
  | nil => simp [entry]
  | cons b l ih =>
    rw [Distinct, List.map_cons, List.nodup_cons] at hd
    by_cases h : b.toUser = t
    · rw [List.eraseP_cons_of_pos (by simpa using h), entry_cons]
      by_cases hu : u = t
      · rw [if_pos hu, entry_absent (hu ▸ h ▸ hd.1)]
      · rw [if_neg hu, if_neg (fun e => hu (e.symm.trans h))]
    · rw [List.eraseP_cons_of_neg (by simpa using h), entry_cons, entry_cons, ih hd.2]
      by_cases hu : u = t
      · rw [if_pos hu, if_pos hu, if_neg (hu ▸ h)]
      · rw [if_neg hu, if_neg hu]

/-! What has become of commands -/

theorem resolved_append (s t : Nat) (rs rs' : List Outcome) :
    resolved s t (rs ++ rs') = resolved s t rs ++ resolved s t rs' :=
  List.filter_append ..

theorem resolved_outcomes (s t sender : Nat) (b : ToUserCmd) (f : Fate) :
    resolved s t (outcomes sender b f) =
      if sender = s ∧ b.toUser = t then outcomes sender b f else [] := by
  by_cases h : sender = s ∧ b.toUser = t
  · rw [if_pos h, resolved, List.filter_eq_self]
    intro o ho
    obtain ⟨c, -, rfl⟩ := List.mem_map.1 ho
    simpa using h
  · rw [if_neg h, resolved, List.filter_eq_nil_iff]
    intro o ho
    obtain ⟨c, -, rfl⟩ := List.mem_map.1 ho
    simpa using h

theorem resolved_settledOf (s t sender max now : Nat) (st : CmdLists) (l : List ToUserCmd) :
    resolved s t (l.flatMap (st.settledOf max sender now)) =
      l.flatMap fun b => if b.toUser = t then
        if sender = s then st.settledOf max sender now b else [] else [] := by
  rw [resolved, List.filter_flatMap]
  apply List.flatMap_congr
  intro b hb
  rw [settledOf]
  by_cases due : 2 ≤ b.loops
  · rw [if_pos due]
    refine (resolved_outcomes s t sender b _).trans ?_
    by_cases h : b.toUser = t <;> by_cases h' : sender = s <;> simp [h, h']
  · simp [if_neg due]

/-! What a step does -/

structure Inv (st : CmdLists) : Prop where
  distinct : ∀ s, Distinct (st.cmdToUserList s)
  young : ∀ s, ∀ b ∈ st.cmdToUserList s, b.loops ≤ 2
  counted : ∀ s, ∀ b ∈ st.cmdToUserList s, b.pmCount = b.commands.countP (·.isPm)

theorem init_inv : Inv init where
  distinct _ := List.nodup_nil
  young _ _ hb := absurd hb List.not_mem_nil
  counted _ _ hb := absurd hb List.not_mem_nil

/-- The entry of a user for another before a step and after it, with what has become of
its commands. -/
inductive EntryStep (max s t : Nat) (st : CmdLists) (e : RelayEvent) :
    Option ToUserCmd → Option ToUserCmd → List Outcome → Prop
  | stays (x : Option ToUserCmd) (quiet : addedBy s t e = []) (idle : x = none ∨ ¬ serves s e) :
    EntryStep max s t st e x x []
  | grows (x : Option ToUserCmd) (c : UserCmd) (add : e = .add s t c) :
    EntryStep max s t st e x (some (grown t c x)) []
  | ages (b : ToUserCmd) (now : Nat) (service : e = .service s now) (early : ¬ 2 ≤ b.loops) :
    EntryStep max s t st e (some b) (some { b with loops := b.loops + 1 }) []
  | due (b : ToUserCmd) (now : Nat) (service : e = .service s now) (late : 2 ≤ b.loops) :
    EntryStep max s t st e (some b) none (outcomes s b (st.fateOf max now b))
  | kicked (b : ToUserCmd) (kick : e = .kick s t) :
    EntryStep max s t st e (some b) none (outcomes s b .delivered)

section
variable (max : Nat) {st : CmdLists} (inv : Inv st)

theorem step_list_service {s now : Nat} (on : st.online s) :
    (st.step max (.service s now)).1.cmdToUserList =
      Function.update st.cmdToUserList s ((st.cmdToUserList s).filterMap aged) := by
  rw [step, if_pos on, serve_list]
  simp

include inv in
theorem step_outcomes_service {s now : Nat} (on : st.online s) :
    (st.step max (.service s now)).2 =
      (st.cmdToUserList s).flatMap (st.settledOf max s now) := by
  rw [step, if_pos on, serve_outcomes _ _ _ _ (inv.distinct s)]
  rfl

include inv in
theorem step_entry (e : RelayEvent) {s : Nat} (t : Nat) (on : (st.step max e).1.online s) :
    EntryStep max s t st e (entry (st.cmdToUserList s) t)
      (entry ((st.step max e).1.cmdToUserList s) t) (resolved s t (st.step max e).2) := by
  cases e with
  | add a b c =>
    have after : (st.step max (.add a b c)).1.cmdToUserList s =
        if a = s then addPrcsdCmd b c (st.cmdToUserList s) else st.cmdToUserList s := by
      by_cases h : a = s
      · subst h
        simp [step]
      · simp [step, h, Function.update_of_ne (Ne.symm h)]
    rw [after]
    by_cases h : a = s ∧ b = t
    · obtain ⟨rfl, rfl⟩ := h
      rw [if_pos rfl, entry_addPrcsdCmd, if_pos rfl]
      exact .grows _ c rfl
    · have quiet : entry (if a = s then addPrcsdCmd b c (st.cmdToUserList s)
          else st.cmdToUserList s) t = entry (st.cmdToUserList s) t := by
        by_cases ha : a = s
        · rw [if_pos ha, entry_addPrcsdCmd, if_neg (fun hb => h ⟨ha, hb⟩)]
        · rw [if_neg ha]
      rw [quiet]
      exact .stays _ (if_neg h) (.inr (by simp [serves]))
  | service a now =>
    by_cases h : st.online a
    · rw [step_list_service max h, step_outcomes_service max inv h, resolved_settledOf,
        flatMap_entry (inv.distinct a)]
      by_cases ha : a = s
      · subst ha
        rw [Function.update_self, entry_aged (inv.distinct a)]
        cases hb : entry (st.cmdToUserList a) t with
        | none => exact .stays none rfl (.inl rfl)
        | some b =>
          simp only [if_true, Option.map_some, Option.getD_some, Option.bind_some]
          rw [settledOf, aged]
          by_cases due : 2 ≤ b.loops
          · rw [if_pos due, if_pos due]
            exact .due b now rfl due
          · rw [if_neg due, if_neg due]
            exact .ages b now rfl due
      · have none : ((entry (st.cmdToUserList a) t).map
            fun b => if a = s then st.settledOf max a now b else []).getD [] = [] := by
          cases entry (st.cmdToUserList a) t <;> simp [ha]
        rw [Function.update_of_ne (Ne.symm ha), none]
        exact .stays _ rfl (.inr (by simpa [serves] using ha))
    · rw [step, if_neg h] at on ⊢
      refine .stays _ rfl (.inr ?_)
      simp only [serves, decide_eq_true_eq]
      rintro rfl
      exact h on
  | kick a b =>
    have same : (st.kick a b).1 = st → (st.kick a b).2 = [] →
        EntryStep max s t st (.kick a b) (entry (st.cmdToUserList s) t)
          (entry ((st.kick a b).1.cmdToUserList s) t) (resolved s t (st.kick a b).2) := by
      intro h₁ h₂
      rw [h₁, h₂]
      exact .stays _ rfl (.inr (by simp [serves]))
    rw [step]
    cases hb : (st.cmdToUserList a).find? fun c => c.toUser = b with
    | none => exact same (by simp only [kick, hb]) (by simp only [kick, hb])
    | some c =>
      by_cases both : st.online a && st.online b
      · have hc := entry_mem hb
        simp only [kick, hb, if_pos both]
        rw [resolved_outcomes, hc.2]
        by_cases h : a = s ∧ b = t
        · obtain ⟨rfl, rfl⟩ := h
          rw [if_pos ⟨rfl, rfl⟩]
          simp only [deliver]
          rw [Function.update_self, entry_eraseP (inv.distinct a), if_pos rfl]
          simp only [entry, hb]
          exact .kicked c rfl
        · rw [if_neg h]
          simp only [deliver]
          have quiet : entry (Function.update st.cmdToUserList a
              ((st.cmdToUserList a).eraseP fun c => c.toUser = b) s) t =
              entry (st.cmdToUserList s) t := by
            by_cases ha : a = s
            · subst ha
              rw [Function.update_self, entry_eraseP (inv.distinct a), if_neg]
              rintro rfl
              exact h ⟨rfl, rfl⟩
            · rw [Function.update_of_ne (Ne.symm ha)]
          rw [quiet]
          exact .stays _ rfl (.inr (by simp [serves]))
      · exact same (by simp only [kick, hb, if_neg both]) (by simp only [kick, hb, if_neg both])
  | leave a =>
    have ha : s ≠ a := by
      rintro rfl
      simp [step] at on
    simp only [step, Function.update_of_ne ha]
    exact .stays _ rfl (.inr (by simp [serves]))

include inv in
theorem step_distinct (e : RelayEvent) (s : Nat) :
    Distinct ((st.step max e).1.cmdToUserList s) := by
  cases e with
  | add a b c =>
    by_cases h : s = a
    · subst h
      simp only [step, Function.update_self]
      exact addPrcsdCmd_distinct (inv.distinct s) b c
    · simpa only [step, Function.update_of_ne h] using inv.distinct s
  | service a now =>
    by_cases on : st.online a
    · rw [step_list_service max on]
      by_cases h : s = a
      · subst h
        rw [Function.update_self]
        exact (inv.distinct s).sublist (aged_targets _)
      · simpa only [Function.update_of_ne h] using inv.distinct s
    · simpa only [step, if_neg on] using inv.distinct s
  | kick a b =>
    simp only [step, kick]
    split
    · split
      · by_cases h : s = a
        · subst h
          simp only [deliver, Function.update_self]
          exact (inv.distinct s).sublist (List.eraseP_sublist.map _)
        · simpa only [deliver, Function.update_of_ne h] using inv.distinct s
      · exact inv.distinct s
    · exact inv.distinct s
  | leave a =>
    by_cases h : s = a
    · subst h
      simp [step, Distinct]
    · simpa only [step, Function.update_of_ne h] using inv.distinct s

/-- A property of entries that new commands and age leave alone is kept. -/
theorem step_all {P : ToUserCmd → Prop}
    (grow : ∀ t c x, (∀ b, x = some b → P b) → P (grown t c x))
    (age : ∀ b b', P b → aged b = some b' → P b')
    {s : Nat} (h : ∀ b ∈ st.cmdToUserList s, P b) (e : RelayEvent) :
    ∀ b ∈ (st.step max e).1.cmdToUserList s, P b := by
  cases e with
  | add a t c =>
    by_cases ha : s = a
    · subst ha
      simp only [step, Function.update_self]
      exact addPrcsdCmd_all grow h t c
    · simpa only [step, Function.update_of_ne ha] using h
  | service a now =>
    by_cases on : st.online a
    · rw [step_list_service max on]
      by_cases ha : s = a
      · subst ha
        rw [Function.update_self]
        intro b hb
        obtain ⟨c, hc, hb⟩ := List.mem_filterMap.1 hb
        exact age c b (h c hc) hb
      · simpa only [Function.update_of_ne ha] using h
    · simpa only [step, if_neg on] using h
  | kick a t =>
    simp only [step, kick]
    split
    · split
      · by_cases ha : s = a
        · subst ha
          simp only [deliver, Function.update_self]
          exact fun b hb => h b (List.eraseP_sublist.subset hb)
        · simpa only [deliver, Function.update_of_ne ha] using h
      · exact h
    · exact h
  | leave a =>
    by_cases ha : s = a
    · subst ha
      simp [step]
    · simpa only [step, Function.update_of_ne ha] using h

include inv in
theorem step_inv (e : RelayEvent) : Inv (st.step max e).1 where
  distinct := step_distinct max inv e
  young s := by
    apply step_all max _ _ (inv.young s) e
    · intro t c x hx
      cases x with
      | none => exact Nat.zero_le 2
      | some b => exact hx b rfl
    · intro b b' _ h
      unfold aged at h
      split at h
      · cases h
      · cases h
        simp only
        omega
  counted s := by
    apply step_all max _ _ (inv.counted s) e
    · intro t c x hx
      cases x with
      | none => simp [grown, pmOf, List.countP_cons]
      | some b => simp [grown, pmOf, hx b rfl, List.countP_cons]
    · intro b b' hb h
      unfold aged at h
      split at h
      · cases h
      · cases h
        exact hb

theorem step_online (e : RelayEvent) {s : Nat} (on : (st.step max e).1.online s) :
    st.online s := by
  cases e with
  | add => exact on
  | service a now =>
    rw [step] at on
    split at on
    · rwa [serve_online] at on
    · exact on
  | kick a b =>
    simp only [step, kick] at on
    split at on
    · split at on <;> exact on
    · exact on
  | leave a =>
    by_cases h : s = a
    · subst h
      simp [step] at on
    · simpa only [step, Function.update_of_ne h] using on

theorem step_sendBuf (e : RelayEvent) (t : Nat) :
    (st.step max e).1.sendBuf t = st.sendBuf t ++ sentTo t (st.step max e).2 := by
  cases e with
  | add => simp [step, sentTo]
  | service a now =>
    rw [step]
    split
    · exact serve_sendBuf max a now _ _ t
    · simp [sentTo]
  | kick a b =>
    simp only [step, kick]
    split
    · rename_i c hc
      split
      · rw [sentTo_outcomes]
        by_cases h : c.toUser = t
        · subst h
          simp [deliver]
        · simp [deliver, h, Function.update_of_ne (Ne.symm h)]
      · simp [sentTo]
    · simp [sentTo]
  | leave => simp [step, sentTo]

end

/-! Runs -/

theorem runFrom_append (max : Nat) (st : CmdLists) (es es' : List RelayEvent) :
    (st.runFrom max (es ++ es')).1 = ((st.runFrom max es).1.runFrom max es').1 ∧
      (st.runFrom max (es ++ es')).2 =
        (st.runFrom max es).2 ++ ((st.runFrom max es).1.runFrom max es').2 := by
  induction es generalizing st with
  | nil => exact ⟨rfl, rfl⟩
  | cons e es ih =>
    simp only [List.cons_append, runFrom]
    obtain ⟨h₁, h₂⟩ := ih (st.step max e).1
    exact ⟨h₁, by rw [h₂, List.append_assoc]⟩

theorem runFrom_inv (max : Nat) {st : CmdLists} (inv : Inv st) (es : List RelayEvent) :
    Inv (st.runFrom max es).1 := by
  induction es generalizing st with
  | nil => exact inv
  | cons e es ih => exact ih (step_inv max inv e)

theorem runFrom_online (max : Nat) {st : CmdLists} (es : List RelayEvent) {s : Nat}
    (on : (st.runFrom max es).1.online s) : st.online s := by
  induction es generalizing st with
  | nil => exact on
  | cons e es ih => exact step_online max e (ih on)

theorem runFrom_sendBuf (max : Nat) (st : CmdLists) (es : List RelayEvent) (t : Nat) :
    (st.runFrom max es).1.sendBuf t = st.sendBuf t ++ sentTo t (st.runFrom max es).2 := by
  induction es generalizing st with
  | nil => simp [runFrom, sentTo]
  | cons e es ih =>
    simp only [runFrom]
    rw [ih, step_sendBuf, sentTo_append, List.append_assoc]

/-- What waited and what is sent meanwhile has been settled, or waits. -/
theorem runFrom_once (max : Nat) {st : CmdLists} (inv : Inv st) (es : List RelayEvent) {s : Nat}
    (t : Nat) (on : (st.runFrom max es).1.online s) :
    st.waiting s t ++ added s t es =
      (resolved s t (st.runFrom max es).2).map (·.command) ++
        (st.runFrom max es).1.waiting s t := by
  induction es generalizing st with
  | nil => simp [added, runFrom, resolved]
  | cons e es ih =>
    have next := step_inv max inv e
    have entries := step_entry max inv e t (runFrom_online max es on)
    simp only [runFrom]
    rw [resolved_append, List.map_append, List.append_assoc, ← ih next on,
      waiting_entry (inv.distinct s), waiting_entry (next.distinct s), added,
      List.flatMap_cons, ← added]
    generalize entry (st.cmdToUserList s) t = x at entries ⊢
    generalize entry ((st.step max e).1.cmdToUserList s) t = x' at entries ⊢
    generalize resolved s t (st.step max e).2 = rs at entries ⊢
    cases entries with
    | stays x quiet => simp [quiet]
    | grows x c add =>
      subst add
      cases x <;> simp [addedBy, grown]
    | ages b now service =>
      subst service
      simp [addedBy]
    | due b now service =>
      subst service
      simp [addedBy, outcomes, Function.comp_def]
    | kicked b kick =>
      subst kick
      simp [addedBy, outcomes, Function.comp_def]

/-- An entry is settled when its list has been gone through often enough. -/
theorem runFrom_prompt (max : Nat) {st : CmdLists} (inv : Inv st) (es : List RelayEvent)
    {s t : Nat} (on : (st.runFrom max es).1.online s)
    (often : ∀ b, entry (st.cmdToUserList s) t = some b → 3 ≤ b.loops + es.countP (serves s)) :
    st.waiting s t <+: (resolved s t (st.runFrom max es).2).map (·.command) := by
  induction es generalizing st with
  | nil =>
    rw [waiting_entry (inv.distinct s)]
    cases hb : entry (st.cmdToUserList s) t with
    | none => simp
    | some b =>
      have := often b hb
      have := inv.young s b (entry_mem hb).1
      simp only [List.countP_nil] at *
      omega
  | cons e es ih =>
    have next := step_inv max inv e
    have entries := step_entry max inv e t (runFrom_online max es on)
    simp only [runFrom]
    rw [resolved_append, List.map_append]
    have later := ih next on
    rw [waiting_entry (next.distinct s)] at later
    rw [waiting_entry (inv.distinct s)]
    generalize entry (st.cmdToUserList s) t = x at entries often ⊢
    generalize entry ((st.step max e).1.cmdToUserList s) t = x' at entries later
    generalize resolved s t (st.step max e).2 = rs at entries ⊢
    cases entries with
    | stays x quiet idle =>
      apply later
      intro b hb
      have now := often b hb
      rw [List.countP_cons_of_neg] at now
      · exact now
      · rcases idle with rfl | idle
        · cases hb
        · exact idle
    | grows x c add =>
      subst add
      cases x with
      | none => exact List.nil_prefix
      | some b =>
        refine List.IsPrefix.trans ?_ (later ?_)
        · exact List.prefix_append _ _
        · rintro _ ⟨⟩
          have now := often b rfl
          rwa [List.countP_cons_of_neg (by simp [serves])] at now
    | ages b now service early =>
      apply later
      rintro _ ⟨⟩
      have now := often b rfl
      rw [List.countP_cons] at now
      split at now
      · simp only
        omega
      · simp only
        omega
    | due b now service late => simp [outcomes, Function.comp_def]
    | kicked b kick => simp [outcomes, Function.comp_def]

theorem receive_none {max now n : Nat} {r : ReceivedPms} :
    r.receive max now n = none ↔ n ≠ 0 ∧ r.Over max now := by
  unfold ReceivedPms.receive ReceivedPms.Over
  split
  · simp only [reduceCtorEq, false_iff]
    omega
  · split
    · simp only [reduceCtorEq, false_iff]
      omega
    · split
      · split
        · simp only [reduceCtorEq, false_iff]
          omega
        · simp only [true_iff]
          omega
      · simp only [reduceCtorEq, false_iff]
        omega

/-- A target over the limit gets nothing of an entry with a private message. -/
theorem fateOf_limit {max now : Nat} {st : CmdLists} {b : ToUserCmd}
    (counted : b.pmCount = b.commands.countP (·.isPm)) :
    st.fateOf max now b = .limit ↔
      st.online b.toUser ∧ (st.received b.toUser).Over max now ∧ ∃ c ∈ b.commands, c.isPm := by
  rw [← List.countP_pos_iff, ← counted, Nat.pos_iff_ne_zero, and_comm (b := b.pmCount ≠ 0),
    ← receive_none, fateOf]
  by_cases on : st.online b.toUser
  · simp [on]
  · simp [on]

theorem settled_justified {max s now : Nat} {st : CmdLists} (inv : Inv st) {b : ToUserCmd}
    (hb : b ∈ st.cmdToUserList s) (due : 2 ≤ b.loops) :
    (∀ o ∈ st.settledOf max s now b, Justified max st (.service s now) o) ↔
      (st.online b.toUser → (st.received b.toUser).Over max now →
        (∃ c ∈ b.commands, c.isPm) → ∀ c ∈ b.commands, c.isPm) := by
  have limit := @fateOf_limit max now st b (inv.counted s b hb)
  rw [settledOf, if_pos due]
  constructor
  · intro all on full pm c hc
    have h := all _ (List.mem_map_of_mem hc)
    rw [Justified, limit.2 ⟨on, full, pm⟩] at h
    exact h.1
  · intro separate o ho
    obtain ⟨c, hc, rfl⟩ := List.mem_map.1 ho
    cases hf : st.fateOf max now b with
    | delivered => trivial
    | gone =>
      by_cases on : st.online b.toUser
      · rw [fateOf, if_pos on] at hf
        split at hf <;> cases hf
      · simpa [Justified] using on
    | limit =>
      obtain ⟨on, full, pm⟩ := limit.1 hf
      exact ⟨separate on full pm c hc, now, rfl, full⟩

theorem step_justified {max : Nat} {st : CmdLists} (inv : Inv st) (e : RelayEvent) :
    (∀ o ∈ (st.step max e).2, Justified max st e o) ↔ Separate max st e := by
  cases e with
  | add => simp [step, Separate]
  | service s now =>
    by_cases on : st.online s
    · rw [step_outcomes_service max inv on, Separate]
      constructor
      · intro all _ b hb due
        apply (settled_justified inv hb due).1
        intro o ho
        exact all o (List.mem_flatMap_of_mem hb ho)
      · intro separate o ho
        obtain ⟨b, hb, ho⟩ := List.mem_flatMap.1 ho
        by_cases due : 2 ≤ b.loops
        · exact (settled_justified inv hb due).2 (separate on b hb due) o ho
        · rw [settledOf, if_neg due] at ho
          cases ho
    · simp [step, Separate, on]
  | kick a b =>
    simp only [Separate, iff_true, step, kick]
    split
    · split
      · intro o ho
        obtain ⟨c, -, rfl⟩ := List.mem_map.1 ho
        trivial
      · nofun
    · nofun
  | leave => simp [step, Separate]

/-- Nothing is sent twice, out of order or too late. But what waits for a user over the
limit is dropped as a whole, so the commands are relayed as they should be just when no
private message is dropped together with another command. -/
theorem relays_iff (max : Nat) (es : List RelayEvent) :
    Relays max es ↔ ∀ pre e post, es = pre ++ e :: post →
      Separate max (init.runFrom max pre).1 e := by
  constructor
  · intro relays pre e post h
    exact (step_justified (runFrom_inv max init_inv pre) e).1 (relays.justified pre e post h)
  · intro separate
    constructor
    · intro s t on
      exact runFrom_once max init_inv es t on
    · intro t
      rw [runFrom_sendBuf]
      rfl
    · rintro pre post s t rfl on often
      have parts := runFrom_append max init pre post
      rw [parts.1] at on
      rw [parts.2, resolved_append, List.map_append]
      have before := runFrom_once max init_inv pre t (runFrom_online max post on)
      rw [show init.waiting s t = [] from rfl, List.nil_append] at before
      rw [before]
      apply (List.prefix_append_right_inj _).2
      apply runFrom_prompt max (runFrom_inv max init_inv pre) post on
      intro b hb
      omega
    · intro pre e post h
      exact (step_justified (runFrom_inv max init_inv pre) e).2 (separate pre e post h)

/-! A message and a request in one entry -/

def message : UserCmd := ⟨ascii "$To: b From: a $<a> hi|", true⟩

def request : UserCmd := ⟨ascii "$ConnectToMe b 10.0.0.1:412|", false⟩

def mixedRun : List RelayEvent :=
  [.add 0 1 message, .service 0 0, .service 0 0, .service 0 0,
    .add 0 1 message, .add 0 1 request, .service 0 1, .service 0 1]

/-- With a limit of one message a minute the second message takes the request with it. -/
theorem request_dropped : ¬ Relays 1 (mixedRun ++ [.service 0 1]) := by
  intro relays
  have dropped := relays.justified mixedRun (.service 0 1) [] rfl
    ⟨0, 1, request, .limit⟩ (.tail _ (.head _))
  exact absurd dropped.1 (by decide)

end CmdLists

end FlyHub.Commands
