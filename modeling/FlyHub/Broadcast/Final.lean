import FlyHub.Broadcast.Entitlement
import FlyHub.Text

/-!
# The last texts

When the hub stops, `SendFinalQueue` gives every user the chat, the texts of scripts and
those for operators that are still queued, over one queue for all of them. An ordinary
round would have picked what each may have.
-/

namespace FlyHub.Broadcast

open FlyHub.Lib

/-- `CreateZPipe`, which leaves nothing where compressing doesn't pay, and a client that
has announced ZPipe. -/
structure ZPipe where
  createZPipe : Text → Text
  inflate : Text → Option Text
  roundTrip : ∀ t, createZPipe t ≠ [] → inflate (createZPipe t) = some t

/-- What is put into the send buffer of a user. -/
inductive Data where
  | plain (text : Text)
  | zipped (text : Text)

structure FinalUser extends QueueUser where
  zpipe : Bool

/-- What a user makes of the data. -/
def Data.decode (z : ZPipe) (u : FinalUser) : Data → Option Text
  | plain text => some text
  | zipped text => if u.zpipe then z.inflate text else none

/-- The commands that are sent at the end. -/
def Cmd.isFinal : Cmd → Bool
  | .ops | .chat | .lua => true
  | _ => false

/-- What `SendFinalQueue` adds of an item. -/
def finalData (item : QueueItem UInt8) : Text :=
  if item.eCmdType.isFinal then
    if matchExtJsonBytes item.command0 then [] else item.command0
  else []

/-- What `ProcessQueues` would have added of it for a user. -/
def selectedData (set : QueueSettings) (u : FinalUser) (item : QueueItem UInt8) : Text :=
  if item.eCmdType.isFinal then itemData matchExtJsonBytes u.toQueueUser (u.queueBits set) item
  else []

namespace GlobalDataQueue

variable (uninit : Nat → UInt8) (z : ZPipe) (set : QueueSettings) (g : GlobalDataQueue UInt8 Buffer)

/-- The first of the global queues after `SendFinalQueue` has filled it. -/
def finalQueue : Buffer :=
  let q := g.queueItems.foldl
    (fun q item => (byteSink uninit).addDataToQueueStr q (finalData item)) (g.globalQueues 0).buffer
  g.newQueueItems.foldl
    (fun q item => (byteSink uninit).addDataToQueueStr q (finalData item)) q

/-- `SendFinalQueue`: what each user is given. -/
def sendFinalQueue (users : List FinalUser) : List (FinalUser × Option Data) :=
  let text := (g.finalQueue uninit).content
  if text = [] then users.map fun u => (u, none)
  else
    let zBuffer := z.createZPipe text
    users.map fun u => (u, some (if zBuffer ≠ [] then .zipped zBuffer else .plain text))

/-- The items still queued, in their order. -/
def lastItems : List (QueueItem UInt8) := g.queueItems ++ g.newQueueItems

/-- What a queue makes of the texts of some items. -/
def stored (uninit : Nat → UInt8) (texts : List Text) : Text :=
  (byteSink uninit).content ((byteSink uninit).adds (byteSink uninit).init (nonEmpty texts))

/-- A user gets the items that he would have got in a round, in their order, and can read
them. -/
structure Agrees (u : FinalUser) : Prop where
  items : nonEmpty (g.lastItems.map finalData) = nonEmpty (g.lastItems.map (selectedData set u))
  readable : stored uninit (g.lastItems.map finalData) ≠ [] →
    z.createZPipe (stored uninit (g.lastItems.map finalData)) ≠ [] → u.zpipe = true

/-- When that is so: no text is for operators alone unless the user is one, no text of
ExtJSON is left out that he would have got, and compressing doesn't pay unless he can read
what is compressed. -/
structure FinalRight (u : FinalUser) : Prop where
  ops : ∀ item ∈ g.lastItems, item.eCmdType = .ops → item.command0 ≠ [] →
    matchExtJsonBytes item.command0 = false → u.operator = true
  extJson : ∀ item ∈ g.lastItems, matchExtJsonBytes item.command0 = true →
    item.eCmdType ≠ .chat ∧ item.eCmdType ≠ .lua ∧
      (item.eCmdType = .ops → u.operator = true → u.isSupportExtJSON = false)
  readable : stored uninit (g.lastItems.map finalData) ≠ [] →
    z.createZPipe (stored uninit (g.lastItems.map finalData)) ≠ [] → u.zpipe = true

/-! ## What is in the queue -/

variable {uninit z set g}

/-- The queue is filled as one for all the items that are left. -/
theorem finalQueue_content (fresh : (g.globalQueues 0).buffer.extent = .start) :
    (g.finalQueue uninit).content = stored uninit (g.lastItems.map finalData) := by
  have filled : g.finalQueue uninit = (byteSink uninit).adds (g.globalQueues 0).buffer
      (nonEmpty (g.lastItems.map finalData)) := by
    rw [finalQueue, Sink.foldl_addDataToQueueStr, Sink.foldl_addDataToQueueStr, ← Sink.adds_append,
      ← nonEmpty_append, ← List.map_append, lastItems]
  rw [filled]
  exact byteSink_lawful.same _ _ _ fresh byteSink_lawful.init

end GlobalDataQueue

/-! ## What is selected of one item -/

section
variable {set : QueueSettings} {u : FinalUser} {item : QueueItem UInt8}

theorem matchExtJson_some {text : Text} (starts : matchExtJsonBytes text = true) : text ≠ [] := by
  rintro rfl
  cases starts

theorem finalData_final (final : item.eCmdType.isFinal = true) :
    finalData item = if matchExtJsonBytes item.command0 then [] else item.command0 :=
  if_pos final

/-- Every chat and script text is selected, and a text for operators where the user is one
and knows what is in it. -/
theorem selectedData_final (final : item.eCmdType.isFinal = true) :
    selectedData set u item =
      if item.eCmdType = .ops ∧ ¬(u.operator = true ∧
          (matchExtJsonBytes item.command0 = true → u.isSupportExtJSON = true)) then []
      else item.command0 := by
  rw [selectedData, if_pos final]
  unfold itemData QueueUser.queueBits
  cases kind : item.eCmdType with
  | ops =>
    dsimp only
    cases u.operator <;> cases matchExtJsonBytes item.command0 <;>
      cases u.isSupportExtJSON <;> simp
  | chat => simp
  | lua => simp
  | _ =>
    rw [kind] at final
    cases final

/-- The two agree about an item. -/
theorem finalData_eq_iff : finalData item = selectedData set u item ↔
    (item.eCmdType = .ops → item.command0 ≠ [] → matchExtJsonBytes item.command0 = false →
      u.operator = true) ∧
    (matchExtJsonBytes item.command0 = true → item.eCmdType ≠ .chat ∧ item.eCmdType ≠ .lua ∧
      (item.eCmdType = .ops → u.operator = true → u.isSupportExtJSON = false)) := by
  cases final : item.eCmdType.isFinal with
  | false =>
    have other : item.eCmdType ≠ .ops ∧ item.eCmdType ≠ .chat ∧ item.eCmdType ≠ .lua := by
      refine ⟨?_, ?_, ?_⟩ <;>
        · intro kind
          rw [kind] at final
          cases final
    have nothing : finalData item = selectedData set u item := by
      rw [finalData, selectedData, final]
      rfl
    exact iff_of_true nothing ⟨fun kind => absurd kind other.1,
      fun _ => ⟨other.2.1, other.2.2, fun kind => absurd kind other.1⟩⟩
  | true =>
    rw [finalData_final final, selectedData_final final]
    cases kind : item.eCmdType with
    | ops =>
      cases json : matchExtJsonBytes item.command0 with
      | true =>
        have some_ := matchExtJson_some json
        cases u.operator <;> cases u.isSupportExtJSON <;> simp [some_, eq_comm]
      | false => cases u.operator <;> simp
    | chat =>
      cases json : matchExtJsonBytes item.command0 with
      | true => simp [(matchExtJson_some json).symm]
      | false => simp
    | lua =>
      cases json : matchExtJsonBytes item.command0 with
      | true => simp [(matchExtJson_some json).symm]
      | false => simp
    | _ =>
      rw [kind] at final
      cases final

theorem finalData_cases : finalData item = [] ∨
    (finalData item = item.command0 ∧ matchExtJsonBytes item.command0 = false) := by
  unfold finalData
  split
  · split
    · exact .inl rfl
    · rename_i plain
      exact .inr ⟨rfl, by simpa using plain⟩
  · exact .inl rfl

theorem selectedData_cases : selectedData set u item = [] ∨
    (selectedData set u item = item.command0 ∧ item.eCmdType.isFinal = true) := by
  cases final : item.eCmdType.isFinal with
  | false =>
    left
    rw [selectedData, final]
    rfl
  | true =>
    rw [selectedData_final final]
    split
    · exact .inl rfl
    · exact .inr ⟨rfl, rfl⟩

end

/-! ## What is in both lists -/

section
variable {ι : Type*} {l : List ι}

/-- Of two kinds of elements that are counted alike, one within the other, neither has
more. -/
theorem of_countP_eq {p q : ι → Bool} (sub : ∀ x ∈ l, q x = true → p x = true)
    (same : l.countP q = l.countP p) : ∀ x ∈ l, p x = true → q x = true := by
  induction l with
  | nil => exact fun x mem => absurd mem List.not_mem_nil
  | cons a l ih =>
    have sub' : ∀ x ∈ l, q x = true → p x = true :=
      fun x mem => sub x (List.mem_cons_of_mem _ mem)
    have le : l.countP q ≤ l.countP p := List.countP_mono_left sub'
    have head := sub a List.mem_cons_self
    rw [List.countP_cons, List.countP_cons] at same
    intro x mem
    cases List.mem_cons.mp mem with
    | inl eq =>
      subst eq
      intro px
      by_contra qx
      rw [if_neg qx, if_pos px] at same
      omega
    | inr later =>
      refine ih sub' ?_ x later
      by_cases qa : q a = true
      · rw [if_pos qa, if_pos (head qa)] at same
        omega
      · rw [if_neg qa] at same
        split at same <;> omega

theorem count_nonEmpty (f : ι → Text) {t : Text} (some_ : t ≠ []) :
    (nonEmpty (l.map f)).count t = l.countP fun x => f x = t := by
  rw [List.count, nonEmpty, List.countP_filter, List.countP_map]
  apply List.countP_congr
  intro x _
  simp only [Function.comp, Bool.and_eq_true, beq_iff_eq, decide_eq_true_eq]
  constructor
  · exact fun h => h.1
  · intro eq
    refine ⟨eq, ?_⟩
    rw [eq]
    exact fun zero => some_ (List.length_eq_zero_iff.mp zero)

theorem mem_nonEmpty {ts : List Text} {t : Text} : t ∈ nonEmpty ts ↔ t ∈ ts ∧ t ≠ [] := by
  rw [nonEmpty, List.mem_filter, decide_eq_true_eq, ne_eq, List.length_eq_zero_iff]

end

/-- Two lists of items come to the same texts exactly if they agree about each item. -/
theorem items_iff {set : QueueSettings} {u : FinalUser} (items : List (QueueItem UInt8)) :
    nonEmpty (items.map finalData) = nonEmpty (items.map (selectedData set u)) ↔
      ∀ item ∈ items, finalData item = selectedData set u item := by
  constructor
  · intro same item mem
    rcases @selectedData_cases set u item with none_ | ⟨text, final⟩
    · rw [none_]
      rcases @finalData_cases item with none' | ⟨text', plain⟩
      · exact none'
      · -- a text that goes to everyone goes to the user as often, so he gets this one too
        rw [text']
        by_contra some_
        have counts := congrArg (List.count item.command0) same
        rw [count_nonEmpty _ some_, count_nonEmpty _ some_] at counts
        have sub : ∀ x ∈ items, decide (selectedData set u x = item.command0) = true →
            decide (finalData x = item.command0) = true := by
          intro x _ eq
          have eq := of_decide_eq_true eq
          rcases @selectedData_cases set u x with empty | ⟨whole, kind⟩
          · exact absurd (eq.symm.trans empty) some_
          · have plain' : matchExtJsonBytes x.command0 = false := by
              rw [← whole, eq]
              exact plain
            apply decide_eq_true
            rw [finalData_final kind, plain', ← whole, eq]
            rfl
        have gets := of_countP_eq sub counts.symm item mem (decide_eq_true text')
        exact some_ ((of_decide_eq_true gets).symm.trans none_)
    · by_cases some_ : item.command0 = []
      · rw [text, some_]
        rcases @finalData_cases item with none_ | ⟨text', -⟩
        · exact none_
        · rw [text', some_]
      · rw [text, finalData_final final]
        cases json : matchExtJsonBytes item.command0 with
        | false => rfl
        | true =>
          have there : item.command0 ∈ nonEmpty (items.map finalData) := by
            rw [same, mem_nonEmpty]
            exact ⟨List.mem_map.mpr ⟨item, mem, text⟩, some_⟩
          obtain ⟨x, -, eq⟩ := List.mem_map.mp (mem_nonEmpty.mp there).1
          rcases @finalData_cases x with empty | ⟨whole, plain⟩
          · exact absurd (eq.symm.trans empty) some_
          · rw [← whole, eq, json] at plain
            cases plain
  · intro each
    rw [List.map_congr_left each]

namespace GlobalDataQueue

variable {uninit : Nat → UInt8} {z : ZPipe} {set : QueueSettings}
  {g : GlobalDataQueue UInt8 Buffer} {u : FinalUser}

theorem agrees_iff : g.Agrees uninit z set u ↔ g.FinalRight uninit z u := by
  constructor
  · rintro ⟨items, readable⟩
    have each := (items_iff g.lastItems).mp items
    exact ⟨fun item mem => (finalData_eq_iff.mp (each item mem)).1,
      fun item mem => (finalData_eq_iff.mp (each item mem)).2, readable⟩
  · rintro ⟨ops, extJson, readable⟩
    refine ⟨(items_iff g.lastItems).mpr fun item mem => ?_, readable⟩
    exact finalData_eq_iff.mpr ⟨ops item mem, extJson item mem⟩

/-- A user who gets the right items reads the text that an ordinary round would have
made of them. -/
theorem agrees_decode (fresh : (g.globalQueues 0).buffer.extent = .start)
    (agrees : g.Agrees uninit z set u) {users : List FinalUser} {data : Option Data}
    (given : (u, data) ∈ g.sendFinalQueue uninit z users) :
    data.elim (some []) (fun d => d.decode z u) =
      some (stored uninit (g.lastItems.map (selectedData set u))) := by
  have selected : stored uninit (g.lastItems.map (selectedData set u)) =
      stored uninit (g.lastItems.map finalData) := by
    rw [stored, stored, agrees.items]
  rw [selected]
  unfold sendFinalQueue at given
  rw [finalQueue_content fresh] at given
  dsimp only at given
  split at given
  · rename_i empty
    obtain ⟨v, -, eq⟩ := List.mem_map.mp given
    obtain ⟨rfl, rfl⟩ := Prod.mk.inj eq
    rw [empty]
    rfl
  · rename_i some_
    obtain ⟨v, -, eq⟩ := List.mem_map.mp given
    obtain ⟨rfl, rfl⟩ := Prod.mk.inj eq
    rw [Option.elim_some]
    split
    · rename_i pays
      rw [Data.decode, agrees.readable some_ pays, if_pos rfl]
      exact z.roundTrip _ pays
    · rfl

end GlobalDataQueue

open GlobalDataQueue

/-- At the end a user gets what an ordinary round would have picked for him exactly if
nothing is queued about which the two differ. Then he reads what the round would have
sent him. -/
theorem final_agrees_iff (uninit : Nat → UInt8) (z : ZPipe) (set : QueueSettings)
    (rounds : List (Round UInt8 × List QueueUser)) (current new : List (QueueItem UInt8))
    (u : FinalUser) :
    let g := { afterRounds (byteSink uninit) matchExtJsonBytes set rounds with
      queueItems := current, newQueueItems := new }
    (g.Agrees uninit z set u ↔ g.FinalRight uninit z u) ∧
      (g.FinalRight uninit z u → ∀ users data, (u, data) ∈ g.sendFinalQueue uninit z users →
        data.elim (some []) (fun d => d.decode z u) =
          some (stored uninit (g.lastItems.map (selectedData set u)))) := by
  intro g
  obtain ⟨ready, -⟩ : Ready (fun q : Buffer => q.extent = .start)
      (afterRounds (byteSink uninit) matchExtJsonBytes set rounds) ∧ _ :=
    ready_afterRounds byteSink_lawful rounds
  refine ⟨agrees_iff, fun right users data given => ?_⟩
  have fresh : (g.globalQueues 0).buffer.extent = .start := (ready.fresh 0).2
  exact agrees_decode fresh (agrees_iff.mpr right) given

/-- Nothing is ever compressed. -/
def neverZips : ZPipe := ⟨fun _ => [], fun _ => none, fun _ pays => absurd rfl pays⟩

/-- A user who is no operator. -/
def plainUser : FinalUser := { wideUser with zpipe := false }

/-- A hub that stops with a text for operators in its queue. -/
def lastForOps : GlobalDataQueue UInt8 Buffer :=
  { GlobalDataQueue.init (byteSink fun _ => 0) with newQueueItems := [⟨.ops, ascii "<Hub> ops|", []⟩] }

/-- A user who is no operator is given the text for operators. -/
theorem plainUser_takes_ops :
    ¬lastForOps.Agrees (fun _ => 0) neverZips ⟨1, fun _ _ => false⟩ plainUser := by
  intro agrees
  have right := agrees_iff.mp agrees
  have operator := right.ops ⟨.ops, ascii "<Hub> ops|", []⟩ List.mem_cons_self rfl
    (by decide) (by decide)
  cases operator

end FlyHub.Broadcast
