import FlyHub.Broadcast.Queue

/-!
# The place of a chat in the queue

A chat is queued after the scripts have seen it, and they may queue items of their own.
The hub remembers the last item from before and puts a blank item behind it for the chat
to be filled into. Items are told apart by their addresses.
-/

namespace FlyHub.Broadcast

/-- `m_NewQueueItems`, with the addresses of the items. -/
structure NewItems (α : Type*) where
  items : List (Nat × QueueItem α)
  /-- The address of the next item that is made. -/
  next : Nat
  nodup : (items.map Prod.fst).Nodup
  below : ∀ i ∈ items, i.1 < next

namespace NewItems

section
variable {α : Type*} (m : NewItems α)

def addresses : List Nat := m.items.map Prod.fst

theorem next_not_mem : m.next ∉ m.addresses := by
  intro mem
  obtain ⟨i, live, same⟩ := List.mem_map.mp mem
  exact Nat.lt_irrefl _ (same ▸ m.below i live)

/-- A new item with `place` items before it. -/
def put (place : Nat) (item : QueueItem α) : NewItems α where
  items := m.items.take place ++ (m.next, item) :: m.items.drop place
  next := m.next + 1
  nodup := by
    have apart := m.next_not_mem
    have nodup := m.nodup
    rw [addresses] at apart
    rw [← List.take_append_drop place m.items, List.map_append] at apart nodup
    rw [List.map_append, List.map_cons]
    exact List.perm_middle.nodup_iff.mpr (List.nodup_cons.mpr ⟨apart, nodup⟩)
  below := by
    intro i mem
    rw [List.mem_append, List.mem_cons] at mem
    rcases mem with before | rfl | after
    · exact Nat.lt_succ_of_lt (m.below i (List.mem_of_mem_take before))
    · exact Nat.lt_succ_self _
    · exact Nat.lt_succ_of_lt (m.below i (List.mem_of_mem_drop after))

def addQueueItem (item : QueueItem α) : NewItems α := m.put m.items.length item

def getLastQueueItem : Option Nat := m.addresses.getLast?

def getFirstQueueItem : Option Nat := m.addresses.head?

/-- Where `InsertBlankQueueItem` puts its item. -/
def blankPlace (pAfterItem : Option Nat) : Nat :=
  match pAfterItem with
  | none => 0
  | some p =>
    if m.getFirstQueueItem = some p then 0
    else
      match m.addresses.idxOf? p with
      | some k => k + 1
      | none => m.items.length

/-- The second component is the address of the blank item. -/
def insertBlankQueueItem (pAfterItem : Option Nat) (eCmdType : Cmd) : NewItems α × Nat :=
  (m.put (m.blankPlace pAfterItem) ⟨eCmdType, [], []⟩, m.next)

/-- `MAX_BLANK_CMD_SIZE`, and the room of a blank item. -/
def maxBlankCmdSize : Nat := 8192

def fillBlankQueueItem (sCommand : List α) (p : Nat) : NewItems α :=
  if sCommand.length = 0 then m
  else
    { m with
      items := m.items.map fun i =>
        if i.1 = p then (i.1, { i.2 with command0 := sCommand.take maxBlankCmdSize }) else i
      nodup := by
        have same : (m.items.map fun i =>
            if i.1 = p then (i.1, { i.2 with command0 := sCommand.take maxBlankCmdSize })
            else i).map Prod.fst = m.items.map Prod.fst := by
          rw [List.map_map]
          refine List.map_congr_left fun i _ => ?_
          rw [Function.comp_apply]
          split <;> rfl
        rw [same]
        exact m.nodup
      below := by
        intro i mem
        obtain ⟨j, live, rfl⟩ := List.mem_map.mp mem
        have lt := m.below j live
        split <;> exact lt }

/-- What else is done to the queue. -/
inductive Op (α : Type*) where
  | addQueueItem (item : QueueItem α)
  | insertBlankQueueItem (pAfterItem : Option Nat) (eCmdType : Cmd)

def exec : Op α → NewItems α
  | .addQueueItem item => m.addQueueItem item
  | .insertBlankQueueItem pAfterItem eCmdType => (m.insertBlankQueueItem pAfterItem eCmdType).1

/-- The part of `DcCommands::Chat` that finds a place for the chat: the queue, the item to
fill, and `BIT_CHAT_INSERT`. The scripts queue `arrival`. -/
def chat (arrival : List (QueueItem α)) (chatInsert : Bool) : NewItems α × Option Nat × Bool :=
  let pQueueItem1 := m.getLastQueueItem
  let m := arrival.foldl addQueueItem m
  let pQueueItem2 := m.getLastQueueItem
  if pQueueItem1 ≠ pQueueItem2 then
    let pAfterItem := if pQueueItem1 = none then m.getFirstQueueItem else pQueueItem1
    let (m, pQueueItem) := m.insertBlankQueueItem pAfterItem .chat
    (m, some pQueueItem, true)
  else if chatInsert then
    let (m, pQueueItem) := m.insertBlankQueueItem pQueueItem1 .chat
    (m, some pQueueItem, true)
  else (m, none, chatInsert)

/-- The end of `SendChat2All`, with the address of the chat. -/
def sendChat (sData : List α) (pQueueItem : Option Nat) : NewItems α × Nat :=
  match pQueueItem with
  | none => (m.addQueueItem ⟨.chat, sData, []⟩, m.next)
  | some p => (m.fillBlankQueueItem sData p, p)

/-- The items the scripts queued. -/
def arrived (arrival : List (QueueItem α)) : List Nat :=
  (arrival.foldl addQueueItem m).addresses.drop m.items.length

/-- A chat from its arrival until it is queued. Meanwhile `later` is done to the queue. -/
def broadcastChat (arrival : List (QueueItem α)) (chatInsert : Bool) (later : List (Op α))
    (sData : List α) : NewItems α × Nat :=
  let (m, pQueueItem, _) := m.chat arrival chatInsert
  (later.foldl exec m).sendChat sData pQueueItem

/-- The text of the item at an address. -/
def commandAt (p : Nat) : Option (List α) :=
  (m.items.find? fun i => i.1 = p).map fun i => i.2.command0

def Precedes (a b : Nat) : Prop := [a, b].Sublist m.addresses

/-- The chat comes after `before` and ahead of `during`. -/
def KeepsPlace (before during : List Nat) (chat : Nat) : Prop :=
  (∀ a ∈ before, m.Precedes a chat) ∧ ∀ a ∈ during, m.Precedes chat a

end

section
variable {α : Type*} {m : NewItems α} {a b p place : Nat} {item : QueueItem α}

theorem put_addresses : (m.put place item).addresses =
    m.addresses.take place ++ m.next :: m.addresses.drop place := by
  simp [put, addresses, List.map_take, List.map_drop]

theorem addQueueItem_addresses : (m.addQueueItem item).addresses = m.addresses ++ [m.next] := by
  have length : m.items.length = m.addresses.length := (List.length_map _).symm
  rw [addQueueItem, put_addresses, length, List.take_length, List.drop_length]

theorem addAll_addresses (arrival : List (QueueItem α)) :
    ∃ during, (arrival.foldl addQueueItem m).addresses = m.addresses ++ during ∧
      during.length = arrival.length := by
  induction arrival generalizing m with
  | nil => exact ⟨[], (List.append_nil _).symm, rfl⟩
  | cons item arrival ih =>
    obtain ⟨during, eq, length⟩ := ih (m := m.addQueueItem item)
    refine ⟨m.next :: during, ?_, by rw [List.length_cons, List.length_cons, length]⟩
    rw [List.foldl_cons, eq, addQueueItem_addresses, List.append_assoc]
    rfl

theorem arrived_eq {arrival : List (QueueItem α)} {during : List Nat}
    (eq : (arrival.foldl addQueueItem m).addresses = m.addresses ++ during) :
    m.arrived arrival = during := by
  have length : m.items.length = m.addresses.length := (List.length_map _).symm
  rw [arrived, eq, length, List.drop_left]

/-- What is put into the queue leaves the others in their order. -/
theorem put_sublist : m.addresses.Sublist (m.put place item).addresses := by
  rw [put_addresses]
  conv_lhs => rw [← List.take_append_drop place m.addresses]
  exact List.Sublist.append_left (List.sublist_cons_self _ _) _

theorem execAll_sublist (later : List (Op α)) :
    m.addresses.Sublist (later.foldl exec m).addresses := by
  induction later generalizing m with
  | nil => exact List.Sublist.refl _
  | cons op later ih =>
    refine List.Sublist.trans ?_ ih
    cases op <;> exact put_sublist

theorem Precedes.execAll (before : m.Precedes a b) (later : List (Op α)) :
    (later.foldl exec m).Precedes a b :=
  List.Sublist.trans before (execAll_sublist later)

theorem fillBlankQueueItem_addresses (sCommand : List α) :
    (m.fillBlankQueueItem sCommand p).addresses = m.addresses := by
  unfold fillBlankQueueItem
  split
  · rfl
  · rw [addresses, addresses, List.map_map]
    refine List.map_congr_left fun i _ => ?_
    rw [Function.comp_apply]
    split <;> rfl

theorem fillBlankQueueItem_command {sCommand : List α} (some_ : sCommand ≠ [])
    (live : p ∈ m.addresses) :
    (m.fillBlankQueueItem sCommand p).commandAt p = some (sCommand.take maxBlankCmdSize) := by
  obtain ⟨i, mem, same⟩ := List.mem_map.mp live
  obtain ⟨j, found⟩ := Option.isSome_iff_exists.mp
    (List.find?_isSome.mpr ⟨i, mem, by simpa using same⟩ :
      (m.items.find? fun i => i.1 = p).isSome = true)
  have there : j.1 = p := by simpa using List.find?_some found
  have keys : (fun i : Nat × QueueItem α => decide (i.1 = p)) ∘ (fun i =>
      if i.1 = p then (i.1, { i.2 with command0 := sCommand.take maxBlankCmdSize }) else i) =
      fun i => decide (i.1 = p) := by
    funext i
    rw [Function.comp_apply]
    split <;> rfl
  rw [fillBlankQueueItem, if_neg (by simpa using some_), commandAt]
  dsimp only
  rw [List.find?_map, keys, found, Option.map_some, Option.map_some, if_pos there]

theorem addQueueItem_command : (m.addQueueItem item).commandAt m.next = some item.command0 := by
  have none_ : m.items.find? (fun i => decide (i.1 = m.next)) = none := by
    rw [List.find?_eq_none]
    intro i mem
    simpa using Nat.ne_of_lt (m.below i mem)
  simp [commandAt, addQueueItem, put, none_]

/-- No item comes both before and after another. -/
theorem Precedes.asymm (before : m.Precedes a b) (after : m.Precedes b a) : False := by
  have nodup : m.addresses.Nodup := m.nodup
  unfold Precedes at before after
  generalize m.addresses = xs at before after nodup
  induction xs with
  | nil => cases before
  | cons x xs ih =>
    obtain ⟨apart, nodup⟩ := List.nodup_cons.mp nodup
    cases before with
    | cons _ before =>
      cases after with
      | cons _ after => exact ih before after nodup
      | cons_cons _ _ => exact apart (before.subset (by simp))
    | cons_cons _ before =>
      cases after with
      | cons _ after => exact apart (after.subset (by simp))
      | cons_cons _ _ => exact apart (before.subset (by simp))

/-- An item behind `before` and ahead of `during` is at its place. -/
theorem keepsPlace_put {before during : List Nat} (split : m.addresses = before ++ during) :
    (m.put before.length item).KeepsPlace before during m.next := by
  have eq : (m.put before.length item).addresses = before ++ m.next :: during := by
    rw [put_addresses, split, List.take_left, List.drop_left]
  constructor
  · intro a mem
    rw [Precedes, eq]
    exact (List.singleton_sublist.mpr mem).append (List.Sublist.cons_cons _ (List.nil_sublist _))
  · intro a mem
    rw [Precedes, eq]
    refine List.Sublist.trans ?_ (List.sublist_append_right before _)
    exact List.Sublist.cons_cons _ (List.singleton_sublist.mpr mem)

theorem KeepsPlace.execAll {before during : List Nat} (keeps : m.KeepsPlace before during p)
    (later : List (Op α)) : (later.foldl NewItems.exec m).KeepsPlace before during p :=
  ⟨fun a mem => (keeps.1 a mem).execAll later, fun a mem => (keeps.2 a mem).execAll later⟩

theorem keepsPlace_fill {before during : List Nat} (sCommand : List α) :
    (m.fillBlankQueueItem sCommand p).KeepsPlace before during p ↔
      m.KeepsPlace before during p := by
  simp only [KeepsPlace, Precedes, fillBlankQueueItem_addresses]

/-- The item after the last one of `before`, where more than one is there. -/
theorem blankPlace_last {before during : List Nat} (split : m.addresses = before ++ during)
    (more : 1 < before.length) : m.blankPlace before.getLast? = before.length := by
  have nodup : m.addresses.Nodup := m.nodup
  obtain ⟨init, x, rfl⟩ : ∃ init x, before = init ++ [x] :=
    ⟨before.dropLast, before.getLast (by intro none_; simp [none_] at more),
      (List.dropLast_concat_getLast _).symm⟩
  rw [List.length_append, List.length_singleton] at more
  rw [List.append_assoc] at split
  have apart : x ∉ init := by
    intro mem
    rw [split] at nodup
    exact (List.nodup_append.mp nodup).2.2 x mem x (by simp) rfl
  have notFirst : m.getFirstQueueItem ≠ some x := by
    rw [getFirstQueueItem, split]
    cases init with
    | nil => simp at more
    | cons y init =>
      intro same
      exact apart (by simp [Option.some.inj same])
  have index : m.addresses.idxOf? x = some init.length := by
    rw [split]
    rw [List.idxOf?, List.findIdx?_append, List.findIdx?_eq_none_iff.mpr]
    · simp [List.findIdx?_cons]
    · intro y mem
      simp only [beq_eq_false_iff_ne, ne_eq]
      rintro rfl
      exact apart mem
  simp only [List.getLast?_concat, blankPlace, if_neg notFirst, index, List.length_append,
    List.length_singleton]

/-- With at most one item before it the blank item becomes the first. -/
theorem blankPlace_none {before during : List Nat} (split : m.addresses = before ++ during)
    (few : before.length ≤ 1) :
    m.blankPlace (if before.getLast? = none then m.getFirstQueueItem else before.getLast?) = 0 := by
  match before, few with
  | [], _ =>
    rw [List.getLast?_nil, if_pos rfl]
    cases first : m.getFirstQueueItem with
    | none => rfl
    | some p => simp only [blankPlace, first, if_pos]
  | [x], _ =>
    have first : m.getFirstQueueItem = some x := by rw [getFirstQueueItem, split]; rfl
    rw [List.getLast?_singleton, if_neg (by simp)]
    simp only [blankPlace, first, if_pos]

theorem getLast?_ne {before during : List Nat} (nodup : (before ++ during).Nodup)
    (some_ : during ≠ []) : before.getLast? ≠ (before ++ during).getLast? := by
  obtain ⟨init, x, rfl⟩ : ∃ init x, during = init ++ [x] :=
    ⟨during.dropLast, during.getLast some_, (List.dropLast_concat_getLast _).symm⟩
  rw [← List.append_assoc, List.getLast?_concat]
  intro same
  exact (List.nodup_append.mp nodup).2.2 x (List.mem_of_getLast? same) x (by simp) rfl

/-- The blank item stands behind what was there, or ahead of a single item. -/
theorem chat_blank {arrival : List (QueueItem α)} {chatInsert : Bool}
    (blank : arrival ≠ [] ∨ chatInsert = true) :
    m.chat arrival chatInsert =
      ((arrival.foldl addQueueItem m).put (if m.addresses.length ≤ 1 then 0 else m.addresses.length)
        ⟨.chat, [], []⟩, some (arrival.foldl addQueueItem m).next, true) := by
  obtain ⟨during, split, length⟩ := addAll_addresses (m := m) arrival
  have place : (arrival.foldl addQueueItem m).blankPlace
      (if m.getLastQueueItem = none then (arrival.foldl addQueueItem m).getFirstQueueItem
        else m.getLastQueueItem) =
      if m.addresses.length ≤ 1 then 0 else m.addresses.length := by
    by_cases few : m.addresses.length ≤ 1
    · rw [if_pos few]
      exact blankPlace_none split few
    · rw [if_neg few]
      have some_ : m.getLastQueueItem ≠ none := by
        rw [getLastQueueItem, Ne, List.getLast?_eq_none_iff]
        intro none_
        simp [none_] at few
      rw [if_neg some_]
      exact blankPlace_last split (by omega)
  unfold chat
  dsimp only
  by_cases none_ : arrival = []
  · subst none_
    have insert := blank.resolve_left (fun some_ => some_ rfl)
    rw [if_neg (by simp), if_pos insert]
    have first : m.blankPlace m.getLastQueueItem =
        m.blankPlace (if m.getLastQueueItem = none then m.getFirstQueueItem
          else m.getLastQueueItem) := by
      split
      · rename_i last
        have empty : m.addresses = [] := List.getLast?_eq_none_iff.mp last
        rw [last, getFirstQueueItem, empty]
        rfl
      · rfl
    rw [insertBlankQueueItem, List.foldl_nil, first]
    exact congrArg (fun k => (m.put k ⟨.chat, [], []⟩, some m.next, true)) place
  · have some_ : during ≠ [] := by
      intro empty
      rw [empty] at length
      exact none_ (List.length_eq_zero_iff.mp length.symm)
    have moved : m.getLastQueueItem ≠ (arrival.foldl addQueueItem m).getLastQueueItem := by
      rw [getLastQueueItem, getLastQueueItem, split]
      refine getLast?_ne ?_ some_
      rw [← split]
      exact (arrival.foldl addQueueItem m).nodup
    rw [if_pos moved, insertBlankQueueItem, place]

theorem chat_none {arrival : List (QueueItem α)} {chatInsert : Bool}
    (noBlank : ¬ (arrival ≠ [] ∨ chatInsert = true)) :
    m.chat arrival chatInsert = (m, none, false) := by
  simp only [not_or, ne_eq, not_not, Bool.not_eq_true] at noBlank
  obtain ⟨rfl, rfl⟩ := noBlank
  simp [chat]

end

section
variable {α : Type*} (m : NewItems α) (arrival : List (QueueItem α)) (chatInsert : Bool)
  (later : List (Op α)) (sData : List α)

/-- A chat keeps its place unless a single item was queued before it and a blank item is
made for it. -/
theorem chat_keeps_place_iff :
    (m.broadcastChat arrival chatInsert later sData).1.KeepsPlace m.addresses
        (m.arrived arrival) (m.broadcastChat arrival chatInsert later sData).2 ↔
      ¬ (m.items.length = 1 ∧ (arrival ≠ [] ∨ chatInsert = true)) := by
  have items : m.items.length = m.addresses.length := (List.length_map _).symm
  obtain ⟨during, split, -⟩ := addAll_addresses (m := m) arrival
  rw [arrived_eq split]
  by_cases blank : arrival ≠ [] ∨ chatInsert = true
  · simp only [broadcastChat, chat_blank blank, sendChat, keepsPlace_fill]
    by_cases single : m.items.length = 1
    · simp only [single, true_and, blank, not_true, iff_false]
      obtain ⟨x, only⟩ := List.length_eq_one_iff.mp (items ▸ single)
      rintro ⟨before, -⟩
      have front : ((arrival.foldl addQueueItem m).put 0 ⟨.chat, [], []⟩).Precedes
          (arrival.foldl addQueueItem m).next x := by
        rw [Precedes, put_addresses, split, only]
        exact List.Sublist.cons_cons _ (List.singleton_sublist.mpr (by simp))
      have le : m.addresses.length ≤ 1 := by omega
      refine Precedes.asymm (before x (by simp [only])) ?_
      rw [if_pos le]
      exact front.execAll later
    · simp only [single, false_and, not_false_iff, iff_true]
      refine KeepsPlace.execAll ?_ later
      have place : (if m.addresses.length ≤ 1 then 0 else m.addresses.length) =
          m.addresses.length := by
        split
        · omega
        · rfl
      rw [place]
      exact keepsPlace_put split
  · simp only [broadcastChat, chat_none blank, sendChat, blank, and_false, not_false_iff, iff_true]
    simp only [not_or, ne_eq, not_not] at blank
    rw [blank.1, List.foldl_nil, List.self_eq_append_right] at split
    subst split
    have keeps {n : NewItems α} (sub : m.addresses.Sublist n.addresses) :
        (n.addQueueItem ⟨.chat, sData, []⟩).KeepsPlace m.addresses [] n.next := by
      refine ⟨fun a mem => ?_, by simp⟩
      rw [Precedes, addQueueItem_addresses]
      exact (List.singleton_sublist.mpr (sub.subset mem)).append (List.Sublist.refl _)
    exact keeps (execAll_sublist later)

end

section
variable {α : Type*} (m : NewItems α) {arrival : List (QueueItem α)} {chatInsert : Bool}
  (later : List (Op α)) {sData : List α}

/-- What is queued for a chat. -/
theorem broadcastChat_command (some_ : sData ≠ []) :
    (m.broadcastChat arrival chatInsert later sData).1.commandAt
        (m.broadcastChat arrival chatInsert later sData).2 =
      some (if arrival ≠ [] ∨ chatInsert = true then sData.take maxBlankCmdSize else sData) := by
  split
  · rename_i blank
    simp only [broadcastChat, chat_blank blank, sendChat]
    refine fillBlankQueueItem_command some_ ((execAll_sublist later).subset ?_)
    simp [put_addresses]
  · rename_i noBlank
    simp only [broadcastChat, chat_none noBlank, sendChat]
    exact addQueueItem_command

end

/-- A queue with one item in it. -/
def single : NewItems Unit := ⟨[(0, ⟨.chat, [], []⟩)], 1, by decide, by decide⟩

/-- The chat passes the single item that was queued before it. -/
theorem chat_passes_single : ¬ ∀ (m : NewItems Unit) (arrival : List (QueueItem Unit))
    (chatInsert : Bool) (later : List (Op Unit)) (sData : List Unit),
    (m.broadcastChat arrival chatInsert later sData).1.KeepsPlace m.addresses
      (m.arrived arrival) (m.broadcastChat arrival chatInsert later sData).2 := by
  intro all
  have before := (all single [⟨.chat, [], []⟩] false [] [()]).1 0 (by decide)
  have order : (single.broadcastChat [⟨.chat, [], []⟩] false [] [()]).1.addresses = [2, 0, 1] := by
    decide
  rw [Precedes, order] at before
  exact absurd before (by decide)

end NewItems

end FlyHub.Broadcast
