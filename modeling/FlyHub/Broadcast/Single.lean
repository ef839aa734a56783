import FlyHub.Lib.Run
import FlyHub.Lib.Terminated
import FlyHub.Profile
import FlyHub.Connection.SendBuffer
import FlyHub.Pxb.Format

/-!
# Messages to all of a kind

A message to all users, to the operators or to those with a profile is stored as a single
item. Once a round the items are put together for each user in the global buffer, which is
made larger where it has no room.
-/

namespace FlyHub.Broadcast

open FlyHub.Lib FlyHub.Connection

/-- `SendItem`. -/
inductive SendItem where
  | pm2All
  | pm2Ops
  | opChat
  | toProfile
  | pm2Profile
  deriving DecidableEq

structure SingleDataItem where
  pFromUser : Option Nat
  data : Text
  eType : SendItem
  profile : Int

/-- What `ProcessSingleItems` reads of a user. -/
structure SingleUser where
  id : Nat
  sNick : Text
  operator : Bool
  profile : Int

namespace SingleDataItem

variable (i : SingleDataItem)

/-- The user is one of those that the item is for, and not the one it is from. -/
def isFor (profiles : ProfileManager) (u : SingleUser) : Bool :=
  i.pFromUser ≠ some u.id &&
    match i.eType with
    | .pm2All => true
    | .pm2Ops => u.operator
    | .opChat => profiles.isProfileAllowed u.profile .allowedOpChat
    | .toProfile | .pm2Profile => u.profile = i.profile

def isPm : Bool := i.eType ≠ .toProfile

/-- What is printed before the data. -/
def lead (u : SingleUser) : Text :=
  if i.isPm then ascii "$To: " ++ cText u.sNick ++ ascii " From: " else []

/-- `szWanted`, without the length that is there. -/
def wanted (u : SingleUser) : Nat := i.data.length + if i.isPm then u.sNick.length + 13 else 0

/-- What the user gets of the item. -/
def line (u : SingleUser) : Text := i.lead u ++ i.data

end SingleDataItem

def checkAndResizeGlobalBuffer (buffer : Text) (szWantedSize : Nat) : Text :=
  reserve allign 0 buffer szWantedSize

def reduceGlobalBuffer (buffer : Text) : Text := buffer.take Pxb.globalBuffSize

/-- `snprintf` into what is left of the buffer from `szLen` on. -/
def printAt (buffer : Text) (szLen : Nat) (text : Text) : Text :=
  if buffer.length ≤ szLen then buffer
  else overwrite buffer szLen (text.take (buffer.length - szLen - 1) ++ [0])

/-- The buffer and the length of its text after one item. None if a byte is written outside. -/
def addSingleItem (u : SingleUser) (s : Text × Nat) (i : SingleDataItem) : Option (Text × Nat) :=
  let buffer := checkAndResizeGlobalBuffer s.1 (s.2 + i.wanted u)
  let buffer := if i.isPm then printAt buffer s.2 (i.lead u) else buffer
  let szLen := s.2 + (i.lead u).length
  (appendAt 0 buffer szLen i.data).map fun buffer => (buffer, szLen + i.data.length)

/-- The text for the user, and the buffer afterwards. -/
def processSingleItems (profiles : ProfileManager) (items : List SingleDataItem) (buffer : Text)
    (u : SingleUser) : Option (Text × Text) := do
  let (buffer, szLen) ←
    items.foldlM (fun s i => if i.isFor profiles u then addSingleItem u s i else pure s) (buffer, 0)
  pure (buffer.take szLen, reduceGlobalBuffer buffer)

/-- The items that came since the last round, the global buffer, and what was sent to whom. -/
structure SingleItems where
  newSingleItems : List SingleDataItem
  globalBuffer : Text
  sent : List (Nat × Text)

/-- A round sends to the users that are in the hub, in their order. -/
inductive SingleEvent where
  | singleItemStore (i : SingleDataItem)
  | sendLoop (profiles : ProfileManager) (users : List SingleUser)

namespace SingleItems

/-- The turn of one user. An empty text is not sent. -/
def sendUser (profiles : ProfileManager) (items : List SingleDataItem)
    (s : Text × List (Nat × Text)) (u : SingleUser) : Option (Text × List (Nat × Text)) :=
  if items = [] then some s
  else (processSingleItems profiles items s.1 u).map fun done =>
    (done.2, s.2 ++ if done.1 = [] then [] else [(u.id, done.1)])

def exec (s : SingleItems) : SingleEvent → Option SingleItems
  | .singleItemStore i => some { s with newSingleItems := s.newSingleItems ++ [i] }
  | .sendLoop profiles users =>
    (users.foldlM (sendUser profiles s.newSingleItems) (s.globalBuffer, s.sent)).map fun done =>
      ⟨[], done.1, done.2⟩

/-- None: a byte was written outside the buffer. -/
def step (s : Option SingleItems) (e : SingleEvent) : Option SingleItems := s.bind (·.exec e)

def start : SingleItems := ⟨[], List.replicate Pxb.globalBuffSize 0, []⟩

/-- What the user is to get of the items, in their order. -/
def dueTo (profiles : ProfileManager) (items : List SingleDataItem) (u : SingleUser) :
    List (Nat × Text) :=
  let text := (items.filter (·.isFor profiles u)).flatMap (·.line u)
  if text = [] then [] else [(u.id, text)]

/-- No item for the user ends where the buffer does. -/
def endsInside (profiles : ProfileManager) (items : List SingleDataItem) (u : SingleUser) : Bool :=
  Lib.endsInside allign (·.line u) (·.wanted u) Pxb.globalBuffSize 0
    (items.filter (·.isFor profiles u))

/-- A round gives everybody all that is to be got, and nothing else. -/
def Gives : Option SingleItems → SingleEvent → Prop
  | some s, .singleItemStore i =>
    s.exec (.singleItemStore i) = some { s with newSingleItems := s.newSingleItems ++ [i] }
  | some s, .sendLoop profiles users => ∃ buffer, s.exec (.sendLoop profiles users) =
      some ⟨[], buffer, s.sent ++ users.flatMap (dueTo profiles s.newSingleItems)⟩
  | none, _ => False

def Inside : Option SingleItems → SingleEvent → Prop
  | some _, .singleItemStore _ => True
  | some s, .sendLoop profiles users =>
    ∀ u ∈ users, endsInside profiles s.newSingleItems u = true
  | none, _ => False

end SingleItems

section
variable {buffer t : Text} {u : SingleUser} {i : SingleDataItem} {profiles : ProfileManager}
  {items : List SingleDataItem}

theorem le_allign (n : Nat) : n ≤ allign n := Nat.le_of_lt (lt_allign n)

theorem cText_length (s : Text) : (cText s).length ≤ s.length :=
  (List.takeWhile_sublist _).length_le

/-- A private message leaves room for its end. -/
theorem line_lt_wanted (pm : i.isPm = true) : (i.line u).length < i.wanted u := by
  have nick := cText_length u.sNick
  have to_ : (ascii "$To: ").length = 5 := rfl
  have from_ : (ascii " From: ").length = 7 := rfl
  simp only [SingleDataItem.line, SingleDataItem.lead, SingleDataItem.wanted, pm, if_true,
    List.length_append, to_, from_]
  omega

theorem line_not_pm (data : i.isPm = false) : i.lead u = [] ∧ i.line u = i.data := by
  simp [SingleDataItem.line, SingleDataItem.lead, data]

theorem printAt_behind (front : t <+: buffer) {text : Text}
    (fits : t.length + text.length < buffer.length) :
    t ++ text <+: printAt buffer t.length text ∧
      (printAt buffer t.length text).length = buffer.length := by
  have all : text.take (buffer.length - t.length - 1) = text :=
    List.take_of_length_le (by omega)
  have room : t.length + (text ++ [0]).length ≤ buffer.length := by
    rw [List.length_append, List.length_singleton]
    exact fits
  obtain ⟨b', written, front', length⟩ := writeAt_behind front room
  have same : printAt buffer t.length text = b' := by
    rw [printAt, if_neg (by omega), all]
    rw [writeAt, if_pos room] at written
    exact Option.some.inj written
  rw [same]
  rw [← List.append_assoc] at front'
  exact ⟨(List.prefix_append _ _).trans front', length⟩

/-- What is printed before the data is behind the text that is there. -/
theorem lead_behind (front : t <+: buffer) (fits : t.length + (i.line u).length < buffer.length) :
    ∃ b', (if i.isPm then printAt buffer t.length (i.lead u) else buffer) = b' ∧
      t ++ i.lead u <+: b' ∧ b'.length = buffer.length := by
  rw [SingleDataItem.line, List.length_append] at fits
  cases pm : i.isPm with
  | true => exact ⟨_, rfl, printAt_behind front (by omega)⟩
  | false =>
    obtain ⟨lead, -⟩ := line_not_pm (u := u) pm
    exact ⟨buffer, rfl, by simpa [lead] using front, rfl⟩

variable (u) in
theorem addSingleItem_appends :
    Appends allign (addSingleItem u) (·.line u) (·.wanted u) where
  inside := by
    intro b t i front fits
    obtain ⟨b₁, resized⟩ : ∃ b₁, checkAndResizeGlobalBuffer b (t.length + i.wanted u) = b₁ :=
      ⟨_, rfl⟩
    have front₁ : t <+: b₁ := resized ▸ reserve_front front
    have length₁ : b₁.length = sizeFor allign b.length (t.length + i.wanted u) :=
      resized ▸ reserve_length le_allign
    rw [← length₁] at fits ⊢
    obtain ⟨b₂, printed, front₂, length₂⟩ := lead_behind front₁ fits
    have room : (t ++ i.lead u).length + i.data.length < b₂.length := by
      rw [length₂, List.length_append, Nat.add_assoc, ← List.length_append]
      exact fits
    obtain ⟨b₃, added, front₃, length₃⟩ := appendAt_behind (z := 0) front₂ room
    rw [List.append_assoc] at front₃
    refine ⟨b₃, ?_, front₃, length₃.trans length₂⟩
    rw [List.length_append] at added
    simp only [addSingleItem, resized, printed, added, Option.map_some, SingleDataItem.line,
      List.length_append, Nat.add_assoc]
  outside := by
    intro b t i front full
    cases pm : i.isPm with
    | true =>
      have less : (i.line u).length < i.wanted u := line_lt_wanted pm
      have room : t.length + i.wanted u ≤ sizeFor allign b.length (t.length + i.wanted u) :=
        le_sizeFor le_allign
      omega
    | false =>
      obtain ⟨lead, line⟩ := line_not_pm (u := u) pm
      have length : (checkAndResizeGlobalBuffer b (t.length + i.wanted u)).length =
          sizeFor allign b.length (t.length + i.wanted u) := reserve_length le_allign
      rw [← length, line] at full
      simp only [addSingleItem, pm, lead, List.length_nil, Nat.add_zero]
      rw [if_neg (by simp), appendAt_outside full]
      rfl

/-- The text is put together as a whole, and the buffer has its old size again. -/
theorem processSingleItems_some (standard : buffer.length = Pxb.globalBuffSize)
    (inside : SingleItems.endsInside profiles items u = true) :
    ∃ b', processSingleItems profiles items buffer u =
        some ((items.filter (·.isFor profiles u)).flatMap (·.line u), b') ∧
      b'.length = Pxb.globalBuffSize := by
  rw [SingleItems.endsInside, ← standard] at inside
  obtain ⟨b', added, front, longer⟩ :=
    (addSingleItem_appends u).run le_allign (t := []) List.nil_prefix inside
  rw [List.nil_append] at added front
  rw [List.foldlM_filter] at added
  refine ⟨reduceGlobalBuffer b', ?_, ?_⟩
  · have taken := (List.prefix_iff_eq_take.mp front).symm
    unfold processSingleItems
    rw [List.length_nil] at added
    rw [added, Option.bind_eq_bind, Option.bind_some]
    dsimp only
    rw [taken]
    rfl
  · rw [reduceGlobalBuffer, List.length_take]
    omega

theorem processSingleItems_none (standard : buffer.length = Pxb.globalBuffSize)
    (outside : SingleItems.endsInside profiles items u = false) :
    processSingleItems profiles items buffer u = none := by
  rw [SingleItems.endsInside, ← standard] at outside
  have failed := (addSingleItem_appends u).run_none (t := []) List.nil_prefix outside
  rw [List.foldlM_filter, List.length_nil] at failed
  unfold processSingleItems
  rw [failed]
  rfl

/-- Private messages never end where the buffer does. -/
theorem pms_inside {size len : Nat} (pms : ∀ i ∈ items, i.isPm = true) :
    endsInside allign (·.line u) (·.wanted u) size len items = true := by
  induction items generalizing size len with
  | nil => rfl
  | cons i items ih =>
    rw [List.forall_mem_cons] at pms
    have less : (i.line u).length < i.wanted u := line_lt_wanted pms.1
    have room : len + i.wanted u ≤ sizeFor allign size (len + i.wanted u) := le_sizeFor le_allign
    rw [endsInside, Bool.and_eq_true, decide_eq_true_eq]
    exact ⟨by omega, ih pms.2⟩

/-- Messages to a profile that fill the buffer do. -/
theorem full_outside {size len : Nat} (some_ : items ≠ []) (data : ∀ i ∈ items, i.isPm = false)
    (full : len + (items.flatMap (·.data)).length = size) :
    endsInside allign (·.line u) (·.wanted u) size len items = false := by
  induction items generalizing len with
  | nil => exact absurd rfl some_
  | cons i items ih =>
    rw [List.forall_mem_cons] at data
    rw [List.flatMap_cons, List.length_append] at full
    have line : (i.line u).length = i.data.length := congrArg List.length (line_not_pm data.1).2
    have wanted : i.wanted u = i.data.length := by simp [SingleDataItem.wanted, data.1]
    have same : sizeFor allign size (len + i.data.length) = size := if_pos (by omega)
    simp only [endsInside, line, wanted, same, Bool.and_eq_false_iff, decide_eq_false_iff_not]
    by_cases last : items = []
    · left
      rw [last] at full
      simp only [List.flatMap_nil, List.length_nil] at full
      omega
    · right
      exact ih last data.2 (by omega)

end

namespace SingleItems

section
variable {s s' : SingleItems} {buffer : Text} {sent : List (Nat × Text)} {u : SingleUser}
  {profiles : ProfileManager} {items : List SingleDataItem} {users : List SingleUser}

theorem sendUser_some (sent : List (Nat × Text)) (standard : buffer.length = Pxb.globalBuffSize)
    (inside : endsInside profiles items u = true) :
    ∃ b', sendUser profiles items (buffer, sent) u = some (b', sent ++ dueTo profiles items u) ∧
      b'.length = Pxb.globalBuffSize := by
  unfold sendUser
  split
  · rename_i none_
    exact ⟨buffer, by simp [none_, dueTo], standard⟩
  · obtain ⟨b', processed, length⟩ := processSingleItems_some standard inside
    exact ⟨b', by simp [processed, dueTo], length⟩

theorem sendUser_none (standard : buffer.length = Pxb.globalBuffSize)
    (outside : endsInside profiles items u = false) :
    sendUser profiles items (buffer, sent) u = none := by
  unfold sendUser
  split
  · rename_i none_
    rw [none_] at outside
    cases outside
  · rw [processSingleItems_none standard outside]
    rfl

theorem sendUsers_some (sent : List (Nat × Text)) (standard : buffer.length = Pxb.globalBuffSize)
    (inside : ∀ u ∈ users, endsInside profiles items u = true) :
    ∃ b', users.foldlM (sendUser profiles items) (buffer, sent) =
        some (b', sent ++ users.flatMap (dueTo profiles items)) ∧
      b'.length = Pxb.globalBuffSize := by
  induction users generalizing buffer sent with
  | nil => exact ⟨buffer, by simp, standard⟩
  | cons u users ih =>
    rw [List.forall_mem_cons] at inside
    obtain ⟨b₁, first, standard₁⟩ := sendUser_some sent standard inside.1
    obtain ⟨b₂, rest, standard₂⟩ :=
      ih (sent ++ dueTo profiles items u) standard₁ inside.2
    refine ⟨b₂, ?_, standard₂⟩
    rw [List.foldlM_cons, first, List.flatMap_cons, ← List.append_assoc]
    exact rest

theorem sendUsers_none (standard : buffer.length = Pxb.globalBuffSize)
    (outside : ∃ u ∈ users, endsInside profiles items u = false) :
    users.foldlM (sendUser profiles items) (buffer, sent) = none := by
  induction users generalizing buffer sent with
  | nil => simp at outside
  | cons u users ih =>
    rw [List.foldlM_cons]
    cases first : endsInside profiles items u with
    | false =>
      rw [sendUser_none standard first]
      rfl
    | true =>
      obtain ⟨b₁, done, standard₁⟩ := sendUser_some sent standard first
      obtain ⟨v, mem, last⟩ := outside
      rcases List.mem_cons.mp mem with rfl | later
      · rw [first] at last
        cases last
      · rw [done]
        exact ih standard₁ ⟨v, later, last⟩

/-- A round that ends inside leaves a buffer of the old size. -/
theorem exec_inside (standard : s.globalBuffer.length = Pxb.globalBuffSize) {e : SingleEvent}
    (inside : Inside (some s) e) :
    ∃ s', s.exec e = some s' ∧ s'.globalBuffer.length = Pxb.globalBuffSize := by
  cases e with
  | singleItemStore i => exact ⟨_, rfl, standard⟩
  | sendLoop profiles users =>
    obtain ⟨b', sends, standard'⟩ := sendUsers_some s.sent standard inside
    exact ⟨_, by rw [exec, sends]; rfl, standard'⟩

theorem gives_iff (standard : s.globalBuffer.length = Pxb.globalBuffSize) (e : SingleEvent) :
    Gives (some s) e ↔ Inside (some s) e := by
  cases e with
  | singleItemStore i => exact ⟨fun _ => trivial, fun _ => rfl⟩
  | sendLoop profiles users =>
    constructor
    · rintro ⟨b', done⟩
      by_contra outside
      simp only [Inside, not_forall, Bool.not_eq_true] at outside
      obtain ⟨u, mem, last⟩ := outside
      rw [exec, sendUsers_none standard ⟨u, mem, last⟩] at done
      cases done
    · intro inside
      obtain ⟨b', sends, -⟩ := sendUsers_some s.sent standard inside
      exact ⟨b', by rw [exec, sends]; rfl⟩

end

/-- In every run, each round gives all users the items that came since the round before and are
for them, whole and in their order, exactly if no item ends where the buffer does. -/
theorem single_items_iff (es : List SingleEvent) :
    Allowed step Gives (some start) es ↔ Allowed step Inside (some start) es := by
  have standard : start.globalBuffer.length = Pxb.globalBuffSize := List.length_replicate
  apply allowed_congr fun o => ∃ s, o = some s ∧ s.globalBuffer.length = Pxb.globalBuffSize
  · rintro _ e ⟨s, rfl, standard⟩
    exact gives_iff standard e
  · rintro _ e ⟨s, rfl, standard⟩ inside
    exact exec_inside standard inside
  · exact ⟨start, rfl, standard⟩

end SingleItems

end FlyHub.Broadcast
