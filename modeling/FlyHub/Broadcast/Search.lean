import FlyHub.Broadcast.Sharing
import FlyHub.Text
import Mathlib.Data.List.Flatten
import Mathlib.Data.List.Nodup
import Mathlib.Data.List.Pairwise

/-!
# Searches in the broadcast

What a user has searched for actively since the last round goes out as one item. A search
that was made in both families of addresses has a text for each, and the item has all the
texts of IPv6 as its first and all those of IPv4 as its second.

Text is a list of pieces here: a piece is one search in the words of one family, or any
other text.
-/

namespace FlyHub.Broadcast

open FlyHub.Lib

inductive Family where
  | ipv4
  | ipv6
  deriving DecidableEq

def QueueUser.has (u : QueueUser) : Family → Bool
  | .ipv4 => u.ipv4
  | .ipv6 => u.ipv6

/-- An active search, and the families in which it was made. -/
structure ActiveSearch where
  id : Nat
  madeIn : Family → Bool
  made : ∃ f, madeIn f = true

inductive Piece where
  | search (id : Nat) (family : Family)
  | other (text : Text)
  deriving DecidableEq

/-- The search that a piece is of. -/
def Piece.id? : Piece → Option Nat
  | search id _ => some id
  | other _ => none

section
variable {α : Type*}

/-- The item of `m_pCmdActive6Search` and `m_pCmdActive4Search`. -/
def activeItems (active6 active4 : List α) : List (QueueItem α) :=
  if active6 ≠ [] then
    if active4 ≠ [] then [⟨.activeSearchV64, active6, active4⟩]
    else [⟨.activeSearchV6, active6, []⟩]
  else if active4 ≠ [] then [⟨.activeSearchV4, active4, []⟩]
  else []

/-- The command of `m_pCmdPassiveSearch`. -/
def passiveCmd (ipv6 ipv4 ipv6Active ipv4Active : Bool) : Cmd :=
  if ipv6 then
    if ipv4 then
      if ipv6Active then .passiveSearchV4Only
      else if ipv4Active then .passiveSearchV6Only
      else .passiveSearchV64
    else .passiveSearchV6
  else .passiveSearchV4

def passiveItems (cmd : Cmd) (passive : List α) : List (QueueItem α) :=
  if passive ≠ [] then [⟨cmd, passive, []⟩] else []

end

/-- What a user has searched for since the last round. -/
structure Searcher where
  ipv6 : Bool
  ipv4 : Bool
  ipv6Active : Bool
  ipv4Active : Bool
  searches : List ActiveSearch
  passive : List Text

namespace Searcher

variable (s : Searcher)

/-- The texts of one family, as `AddSearch` has strung them together. -/
def active (f : Family) : List Piece :=
  (s.searches.filter fun x => x.madeIn f).map fun x => .search x.id f

/-- What `ReceiveLoop` queues for the searches of a user. -/
def items : List (QueueItem Piece) :=
  activeItems (s.active .ipv6) (s.active .ipv4) ++
    passiveItems (passiveCmd s.ipv6 s.ipv4 s.ipv6Active s.ipv4Active) (s.passive.map .other)

end Searcher

/-- What is queued for a round, in its order. -/
inductive Queued where
  | searcher (s : Searcher)
  | item (eCmdType : Cmd) (command0 command1 : Text)

namespace Queued

def items : Queued → List (QueueItem Piece)
  | searcher s => s.items
  | item eCmdType command0 command1 => [⟨eCmdType, [.other command0], [.other command1]⟩]

def searches : Queued → List ActiveSearch
  | searcher s => s.searches
  | item .. => []

end Queued

/-- A round with searches. -/
structure SearchRound where
  queued : List Queued
  opListQueue : List Text
  userIPQueue : List Text
  apart : ((queued.flatMap Queued.searches).map ActiveSearch.id).Nodup

namespace SearchRound

variable (r : SearchRound)

def searches : List ActiveSearch := r.queued.flatMap Queued.searches

def round : Round Piece :=
  ⟨r.queued.flatMap Queued.items, r.opListQueue.map .other, r.userIPQueue.map .other⟩

end SearchRound

/-- Queues of pieces. -/
def pieceSink : Sink Piece (List Piece) where
  init := []
  add q sData := q ++ sData
  clear _ := []
  content := id

section
variable (matchExtJson : List Piece → Bool) (set : QueueSettings)
  (rounds : List (Round Piece × List QueueUser)) (r : SearchRound) (us : List QueueUser)

/-- What the users of a round are sent. -/
def sent : List (List Piece) :=
  (((GlobalDataQueue.afterRounds pieceSink matchExtJson set rounds).openRound r.round).processAll
    pieceSink matchExtJson set us).2

end

/-- What a recipient is to get of an active search: it comes once at most, in no family
that he doesn't have, and always when he has one in which it was made. -/
structure Gets (u : QueueUser) (x : ActiveSearch) (got : List Piece) : Prop where
  once : got.countP (fun p => p.id? = some x.id) ≤ 1
  own : ∀ f, .search x.id f ∈ got → u.has f = true
  common : ∀ f, x.madeIn f = true → u.has f = true → ∃ f', Piece.search x.id f' ∈ got

/-- A recipient gets every active search of the round as he is to. -/
def Routed (r : SearchRound) (u : QueueUser) (got : List Piece) : Prop :=
  ∀ x ∈ r.searches, Gets u x got

/-- Where the searches of one user go right, for a recipient whose queue `v` has filled. -/
def Served (s : Searcher) (u v : QueueUser) : Prop :=
  if s.active .ipv6 ≠ [] then
    if s.active .ipv4 ≠ [] then
      u.ipv6 = true ∧ v.sharedSize ≠ 0 ∧
        (u.ipv4 = true → ∀ x ∈ s.searches, x.madeIn .ipv6 = true)
    else (v.sharedSize ≠ 0 ∧ v.ipv6 = true ↔ u.ipv6 = true)
  else s.active .ipv4 ≠ [] → (v.sharedSize ≠ 0 ∧ (v.ipv6 = true → v.ipv4 = true) ↔ u.ipv4 = true)

/-! ## What one item gives -/

section
variable {α : Type*} {matchExtJson : List α → Bool} {set : QueueSettings} {v : QueueUser}
  {a b : List α}

theorem itemData_activeSearchV6 :
    itemData matchExtJson v (v.queueBits set) ⟨.activeSearchV6, a, b⟩ =
      if v.sharedSize ≠ 0 ∧ v.ipv6 = true then a else [] := by
  unfold itemData QueueUser.queueBits QueueUser.searchBit
  by_cases shares : v.sharedSize = 0
  · simp [shares]
  · cases v.ipv6 <;> cases v.ipv4 <;> cases v.ipv6Active <;> cases v.ipv4Active <;> simp [shares]

theorem itemData_activeSearchV4 :
    itemData matchExtJson v (v.queueBits set) ⟨.activeSearchV4, a, b⟩ =
      if v.sharedSize ≠ 0 ∧ (v.ipv6 = true → v.ipv4 = true) then a else [] := by
  unfold itemData QueueUser.queueBits QueueUser.searchBit
  by_cases shares : v.sharedSize = 0
  · simp [shares]
  · cases v.ipv6 <;> cases v.ipv4 <;> cases v.ipv6Active <;> cases v.ipv4Active <;> simp [shares]

/-- Both branches for a search in two families add its first text. -/
theorem itemData_activeSearchV64 :
    itemData matchExtJson v (v.queueBits set) ⟨.activeSearchV64, a, b⟩ =
      if v.sharedSize ≠ 0 then a else [] := by
  unfold itemData QueueUser.queueBits QueueUser.searchBit
  by_cases shares : v.sharedSize = 0
  · simp [shares]
  · cases v.ipv6 <;> cases v.ipv4 <;> cases v.ipv6Active <;> cases v.ipv4Active <;> simp [shares]

/-- An item gives nothing but one of its texts. -/
theorem itemData_cases (u : QueueUser) (bits : QueueBits) (item : QueueItem α) :
    itemData matchExtJson u bits item = [] ∨ itemData matchExtJson u bits item = item.command0 ∨
      itemData matchExtJson u bits item = item.command1 := by
  unfold itemData
  cases item.eCmdType <;> grind

end

/-! ## What is sent -/

theorem pieceSink_lawful : pieceSink.Lawful fun q => q = [] where
  init := rfl
  clear _ _ _ := rfl
  same q q' payloads fresh fresh' := by rw [fresh, fresh']

theorem pieceSink_adds (q : List Piece) (payloads : List (List Piece)) :
    pieceSink.adds q payloads = q ++ payloads.flatten := by
  induction payloads generalizing q with
  | nil => exact (List.append_nil q).symm
  | cons sData payloads ih =>
    rw [List.flatten_cons, ← List.append_assoc]
    exact ih (q ++ sData)

theorem nonEmpty_flatten {α : Type*} (payloads : List (List α)) :
    (nonEmpty payloads).flatten = payloads.flatten := by
  induction payloads with
  | nil => rfl
  | cons sData payloads ih =>
    unfold nonEmpty at ih ⊢
    rw [List.filter_cons]
    split
    · rw [List.flatten_cons, List.flatten_cons, ih]
    · rename_i empty
      have nil : sData = [] := by simpa using empty
      rw [ih, List.flatten_cons, nil, List.nil_append]

section
variable {matchExtJson : List Piece → Bool} {set : QueueSettings}

/-- The text of a queue that a user fills. -/
def filledText (matchExtJson : List Piece → Bool) (set : QueueSettings) (r : SearchRound)
    (v : QueueUser) : List Piece :=
  (r.queued.flatMap fun q => q.items.flatMap (itemData matchExtJson v (v.queueBits set))) ++
    (r.opListQueue.map .other ++ if v.userIP set then r.userIPQueue.map .other else [])

/-- Every user is sent the text that the first of his type filled his queue with. -/
theorem sent_eq (rounds : List (Round Piece × List QueueUser)) (r : SearchRound)
    (us : List QueueUser) :
    sent matchExtJson set rounds r us =
      us.map fun u => filledText matchExtJson set r (first set us u) := by
  obtain ⟨ready, idle⟩ : GlobalDataQueue.Ready (fun q : List Piece => q = [])
      (GlobalDataQueue.afterRounds pieceSink matchExtJson set rounds) ∧ _ :=
    GlobalDataQueue.ready_afterRounds pieceSink_lawful rounds
  obtain ⟨ready', idle', items, opList, userIP⟩ :=
    GlobalDataQueue.ready_openRound ready idle r.round
  rw [sent, GlobalDataQueue.processAll_sent pieceSink_lawful ready'
    (GlobalDataQueue.filled_start ready' idle'), List.nil_append]
  apply List.map_congr_left
  intro u _
  have ends (c : Bool) (t : List Piece) :
      (if c then [t] else []).flatten = if c then t else [] := by
    cases c with
    | true => exact List.append_nil t
    | false => rfl
  rw [GlobalDataQueue.built, GlobalDataQueue.fillQueue_eq, pieceSink_adds, nonEmpty_flatten,
    GlobalDataQueue.payloads, items, opList, userIP, filledText, SearchRound.round,
    List.flatten_append, List.flatten_append, ends, List.flatten_singleton, ← List.flatMap_def,
    List.flatMap_assoc, List.append_assoc]
  rfl

variable {r : SearchRound} {s : Searcher} {v : QueueUser} {x : ActiveSearch} {f : Family}

/-- The pieces that a searcher's active item gives. -/
def activeText (matchExtJson : List Piece → Bool) (set : QueueSettings) (s : Searcher)
    (v : QueueUser) : List Piece :=
  (activeItems (s.active .ipv6) (s.active .ipv4)).flatMap
    (itemData matchExtJson v (v.queueBits set))

theorem not_search_mem_itemData {item : QueueItem Piece} {id : Nat}
    (first : ∀ p ∈ item.command0, p.id? = none) (second : ∀ p ∈ item.command1, p.id? = none) :
    .search id f ∉ itemData matchExtJson v (v.queueBits set) item := by
  intro mem
  rcases @itemData_cases _ matchExtJson v (v.queueBits set) item with eq | eq | eq
  · rw [eq] at mem
    cases mem
  · rw [eq] at mem
    cases first _ mem
  · rw [eq] at mem
    cases second _ mem

theorem passive_search_free {cmd : Cmd} {passive : List Text} {id : Nat} :
    .search id f ∉ (passiveItems cmd (passive.map Piece.other)).flatMap
      (itemData matchExtJson v (v.queueBits set)) := by
  unfold passiveItems
  split
  · rw [List.flatMap_singleton]
    apply not_search_mem_itemData
    · intro p mem
      obtain ⟨t, -, rfl⟩ := List.mem_map.mp mem
      rfl
    · intro p mem
      cases mem
  · exact List.not_mem_nil

theorem item_search_free {cmd : Cmd} {command0 command1 : Text} {id : Nat} :
    .search id f ∉ (Queued.item cmd command0 command1).items.flatMap
      (itemData matchExtJson v (v.queueBits set)) := by
  rw [Queued.items, List.flatMap_singleton]
  apply not_search_mem_itemData
  · intro p one
    rw [List.mem_singleton.mp one]
    rfl
  · intro p one
    rw [List.mem_singleton.mp one]
    rfl

theorem lists_search_free {id : Nat} : .search id f ∉ r.opListQueue.map Piece.other ++
    if v.userIP set then r.userIPQueue.map .other else [] := by
  have others (ts : List Text) : .search id f ∉ ts.map Piece.other := by
    intro mem
    obtain ⟨t, -, eq⟩ := List.mem_map.mp mem
    cases eq
  rw [List.mem_append]
  rintro (mem | mem)
  · exact others _ mem
  · split at mem
    · exact others _ mem
    · cases mem

/-- A search that is sent comes from the active item of a searcher. -/
theorem search_mem_filledText {id : Nat} : .search id f ∈ filledText matchExtJson set r v ↔
    ∃ s, .searcher s ∈ r.queued ∧ .search id f ∈ activeText matchExtJson set s v := by
  rw [filledText, List.mem_append, or_iff_left lists_search_free, List.mem_flatMap]
  constructor
  · rintro ⟨q, there, mem⟩
    cases q with
    | searcher s =>
      rw [Queued.items, Searcher.items, List.flatMap_append, List.mem_append,
        or_iff_left passive_search_free] at mem
      exact ⟨s, there, mem⟩
    | item cmd command0 command1 => exact absurd mem item_search_free
  · rintro ⟨s, there, mem⟩
    refine ⟨.searcher s, there, ?_⟩
    rw [Queued.items, Searcher.items, List.flatMap_append]
    exact List.mem_append_left _ mem

/-- What an active item gives, by the families of its searches. -/
theorem activeText_eq : activeText matchExtJson set s v =
    if s.active .ipv6 ≠ [] then
      if s.active .ipv4 ≠ [] then if v.sharedSize ≠ 0 then s.active .ipv6 else []
      else if v.sharedSize ≠ 0 ∧ v.ipv6 = true then s.active .ipv6 else []
    else if v.sharedSize ≠ 0 ∧ (v.ipv6 = true → v.ipv4 = true) then s.active .ipv4 else [] := by
  unfold activeText activeItems
  split
  · split
    · rw [List.flatMap_singleton, itemData_activeSearchV64]
    · rw [List.flatMap_singleton, itemData_activeSearchV6]
  · split
    · rw [List.flatMap_singleton, itemData_activeSearchV4]
    · rename_i none_
      rw [Decidable.not_not.mp none_, ite_self]
      rfl

theorem ids_none {ps : List Piece} (free : ∀ id f, .search id f ∉ ps) :
    ps.filterMap Piece.id? = [] := by
  apply List.filterMap_eq_nil_iff.mpr
  intro p mem
  cases p with
  | search id f => exact absurd mem (free id f)
  | other _ => rfl

theorem activeText_ids : ((activeText matchExtJson set s v).filterMap Piece.id?).Sublist
    (s.searches.map ActiveSearch.id) := by
  have active (f : Family) : ((s.active f).filterMap Piece.id?).Sublist
      (s.searches.map ActiveSearch.id) := by
    have ids : (s.active f).filterMap Piece.id? =
        (s.searches.filter fun x => x.madeIn f).map ActiveSearch.id := by
      rw [Searcher.active, List.filterMap_map, ← List.filterMap_eq_map]
      rfl
    rw [ids]
    exact List.filter_sublist.map _
  rw [activeText_eq]
  split
  · split
    · split
      · exact active _
      · exact List.nil_sublist _
    · split
      · exact active _
      · exact List.nil_sublist _
  · split
    · exact active _
    · exact List.nil_sublist _

/-- The searches that are sent are among those of the round, in their order. -/
theorem filledText_ids : ((filledText matchExtJson set r v).filterMap Piece.id?).Sublist
    (r.searches.map ActiveSearch.id) := by
  rw [filledText, List.filterMap_append, ids_none fun id f => lists_search_free, List.append_nil,
    List.filterMap_flatMap, SearchRound.searches, List.map_flatMap]
  apply List.Sublist.flatMap_right
  intro q _
  cases q with
  | searcher s =>
    rw [Queued.items, Searcher.items, List.flatMap_append, List.filterMap_append,
      ids_none fun id f => passive_search_free, List.append_nil]
    exact activeText_ids
  | item cmd command0 command1 =>
    rw [ids_none fun id f => item_search_free]
    exact List.nil_sublist _

/-- No search is sent twice. -/
theorem filledText_once (id : Nat) :
    (filledText matchExtJson set r v).countP (fun p => p.id? = some id) ≤ 1 := by
  have count : (filledText matchExtJson set r v).countP (fun p => p.id? = some id) =
      ((filledText matchExtJson set r v).filterMap Piece.id?).count id := by
    rw [List.count, List.countP_filterMap]
    congr
    funext p
    cases p.id? with
    | none => rfl
    | some i => exact Bool.eq_iff_iff.mpr (by simp)
  rw [count]
  exact List.nodup_iff_count_le_one.mp (r.apart.sublist filledText_ids) id

/-- A search of the round is of one user, and he has made no other under its number. -/
theorem searcher_unique {s s' : Searcher} {x x' : ActiveSearch} (there : .searcher s ∈ r.queued)
    (there' : .searcher s' ∈ r.queued) (mem : x ∈ s.searches) (mem' : x' ∈ s'.searches)
    (same : x.id = x'.id) : s = s' ∧ x = x' := by
  have apart := r.apart
  rw [List.map_flatMap, List.nodup_flatMap] at apart
  obtain ⟨each, disjoint⟩ := apart
  by_cases eq : s = s'
  · subst eq
    exact ⟨rfl, List.inj_on_of_nodup_map (each _ there) mem mem' same⟩
  · have ne : Queued.searcher s ≠ .searcher s' := fun h => eq (Queued.searcher.inj h)
    have symm : Std.Symm (Function.onFun List.Disjoint fun q : Queued =>
        q.searches.map ActiveSearch.id) := ⟨fun _ _ h => List.disjoint_comm.mp h⟩
    have apart := disjoint.forall there there' ne
    exact absurd (same ▸ List.mem_map_of_mem mem') (apart (List.mem_map_of_mem mem))

/-- What is sent of a search is what its searcher's item gives of it. -/
theorem search_sent (there : .searcher s ∈ r.queued) (mem : x ∈ s.searches) :
    .search x.id f ∈ filledText matchExtJson set r v ↔
      .search x.id f ∈ activeText matchExtJson set s v := by
  rw [search_mem_filledText]
  constructor
  · rintro ⟨s', there', sent⟩
    have id : x.id ∈ (activeText matchExtJson set s' v).filterMap Piece.id? :=
      List.mem_filterMap.mpr ⟨_, sent, rfl⟩
    obtain ⟨x', mem', same⟩ := List.mem_map.mp (activeText_ids.subset id)
    obtain ⟨rfl, -⟩ := searcher_unique there there' mem mem' same.symm
    exact sent
  · exact fun sent => ⟨s, there, sent⟩

theorem mem_active (there : .searcher s ∈ r.queued) (mem : x ∈ s.searches) {f f' : Family} :
    .search x.id f' ∈ s.active f ↔ f' = f ∧ x.madeIn f = true := by
  rw [Searcher.active, List.mem_map]
  constructor
  · rintro ⟨x', mem', eq⟩
    obtain ⟨same, family⟩ := Piece.search.inj eq
    obtain ⟨mem', made⟩ := List.mem_filter.mp mem'
    obtain ⟨-, rfl⟩ := searcher_unique there there mem mem' same.symm
    exact ⟨family.symm, made⟩
  · rintro ⟨rfl, made⟩
    exact ⟨x, List.mem_filter.mpr ⟨mem, made⟩, rfl⟩

theorem gets_iff {u : QueueUser} (there : .searcher s ∈ r.queued) (mem : x ∈ s.searches) :
    Gets u x (filledText matchExtJson set r v) ↔
      (∀ f, .search x.id f ∈ activeText matchExtJson set s v → u.has f = true) ∧
        (∀ f, x.madeIn f = true → u.has f = true →
          ∃ f', Piece.search x.id f' ∈ activeText matchExtJson set s v) := by
  constructor
  · rintro ⟨-, own, common⟩
    refine ⟨fun f sent => own f ((search_sent there mem).mpr sent), fun f made has => ?_⟩
    obtain ⟨f', sent⟩ := common f made has
    exact ⟨f', (search_sent there mem).mp sent⟩
  · rintro ⟨own, common⟩
    refine ⟨filledText_once _, fun f sent => own f ((search_sent there mem).mp sent),
      fun f made has => ?_⟩
    obtain ⟨f', sent⟩ := common f made has
    exact ⟨f', (search_sent there mem).mpr sent⟩

theorem active_nil (nil : s.active f = []) (mem : x ∈ s.searches) : x.madeIn f = false := by
  by_contra made
  rw [Bool.not_eq_false] at made
  have piece : Piece.search x.id f ∈ s.active f :=
    List.mem_map.mpr ⟨x, List.mem_filter.mpr ⟨mem, made⟩, rfl⟩
  rw [nil] at piece
  cases piece

theorem active_some (some_ : s.active f ≠ []) : ∃ x ∈ s.searches, x.madeIn f = true := by
  obtain ⟨p, mem⟩ := List.exists_mem_of_ne_nil _ some_
  obtain ⟨x, there, -⟩ := List.mem_map.mp mem
  obtain ⟨there, made⟩ := List.mem_filter.mp there
  exact ⟨x, there, made⟩

/-- The searches of a user who has searched in both families. -/
theorem served_both {u : QueueUser} (family : (u.ipv6 || u.ipv4) = true)
    (there : .searcher s ∈ r.queued) (six : s.active .ipv6 ≠ []) (four : s.active .ipv4 ≠ []) :
    (∀ x ∈ s.searches, Gets u x (filledText matchExtJson set r v)) ↔
      u.ipv6 = true ∧ v.sharedSize ≠ 0 ∧
        (u.ipv4 = true → ∀ x ∈ s.searches, x.madeIn .ipv6 = true) := by
  have given {x : ActiveSearch} (mem : x ∈ s.searches) (f : Family) :
      .search x.id f ∈ activeText matchExtJson set s v ↔
        v.sharedSize ≠ 0 ∧ f = .ipv6 ∧ x.madeIn .ipv6 = true := by
    rw [activeText_eq, if_pos six, if_pos four]
    split
    · rename_i shares
      rw [mem_active there mem, and_iff_right shares]
    · rename_i shares
      exact ⟨fun h => (List.not_mem_nil h).elim, fun h => absurd h.1 shares⟩
  constructor
  · intro gets
    obtain ⟨x6, mem6, made6⟩ := active_some six
    obtain ⟨x4, mem4, made4⟩ := active_some four
    have ipv6 : u.ipv6 = true := by
      by_contra none_
      have ipv4 : u.ipv4 = true := by simpa [none_] using family
      obtain ⟨own, common⟩ := (gets_iff there mem4).mp (gets x4 mem4)
      obtain ⟨f, sent⟩ := common .ipv4 made4 ipv4
      obtain ⟨-, rfl, -⟩ := (given mem4 f).mp sent
      exact none_ (own .ipv6 sent)
    refine ⟨ipv6, ?_, ?_⟩
    · obtain ⟨f, sent⟩ := ((gets_iff there mem6).mp (gets x6 mem6)).2 .ipv6 made6 ipv6
      exact ((given mem6 f).mp sent).1
    · intro ipv4 x mem
      obtain ⟨f, made⟩ := x.made
      have has : u.has f = true := by cases f <;> assumption
      obtain ⟨f', sent⟩ := ((gets_iff there mem).mp (gets x mem)).2 f made has
      exact ((given mem f').mp sent).2.2
  · rintro ⟨ipv6, shares, all⟩ x mem
    refine (gets_iff there mem).mpr ⟨?_, ?_⟩
    · intro f sent
      obtain ⟨-, rfl, -⟩ := (given mem f).mp sent
      exact ipv6
    · intro f made has
      refine ⟨.ipv6, (given mem .ipv6).mpr ⟨shares, rfl, ?_⟩⟩
      cases f with
      | ipv6 => exact made
      | ipv4 => exact all has x mem

/-- The searches of a user who has searched in one family only. -/
theorem served_one {u : QueueUser} {f : Family} {reaches : Prop} (there : .searcher s ∈ r.queued)
    (some_ : s.active f ≠ []) (only : ∀ f', f' ≠ f → s.active f' = [])
    (text : ∀ p, p ∈ activeText matchExtJson set s v ↔ reaches ∧ p ∈ s.active f) :
    (∀ x ∈ s.searches, Gets u x (filledText matchExtJson set r v)) ↔
      (reaches ↔ u.has f = true) := by
  have made_ {x : ActiveSearch} (mem : x ∈ s.searches) {f' : Family} (made : x.madeIn f' = true) :
      f' = f := by
    by_contra other
    rw [active_nil (only f' other) mem] at made
    cases made
  have given {x : ActiveSearch} (mem : x ∈ s.searches) (f' : Family) :
      .search x.id f' ∈ activeText matchExtJson set s v ↔ reaches ∧ f' = f := by
    obtain ⟨f0, made⟩ := x.made
    obtain rfl := made_ mem made
    rw [text, mem_active there mem, and_iff_left made]
  constructor
  · intro gets
    obtain ⟨x, mem, made⟩ := active_some some_
    obtain ⟨own, common⟩ := (gets_iff there mem).mp (gets x mem)
    constructor
    · exact fun reach => own f ((given mem f).mpr ⟨reach, rfl⟩)
    · intro has
      obtain ⟨f', sent⟩ := common f made has
      exact ((given mem f').mp sent).1
  · rintro same x mem
    refine (gets_iff there mem).mpr ⟨?_, ?_⟩
    · intro f' sent
      obtain ⟨reach, rfl⟩ := (given mem f').mp sent
      exact same.mp reach
    · intro f' made has
      obtain rfl := made_ mem made
      exact ⟨f', (given mem f').mpr ⟨same.mpr has, rfl⟩⟩

theorem served_iff {u : QueueUser} (family : (u.ipv6 || u.ipv4) = true)
    (there : .searcher s ∈ r.queued) :
    (∀ x ∈ s.searches, Gets u x (filledText matchExtJson set r v)) ↔ Served s u v := by
  have text {reaches : Prop} [Decidable reaches] {t : List Piece} (p : Piece) :
      p ∈ (if reaches then t else []) ↔ reaches ∧ p ∈ t := by
    split
    · rename_i reach
      exact (and_iff_right reach).symm
    · rename_i reach
      exact ⟨fun h => (List.not_mem_nil h).elim, fun h => absurd h.1 reach⟩
  unfold Served
  split
  · rename_i six
    split
    · rename_i four
      exact served_both family there six four
    · rename_i four
      refine served_one (f := .ipv6) there six ?_ ?_
      · intro f' other
        cases f' with
        | ipv4 => exact Decidable.not_not.mp four
        | ipv6 => exact absurd rfl other
      · intro p
        rw [activeText_eq, if_pos six, if_neg four, text]
  · rename_i six
    by_cases four : s.active .ipv4 = []
    · refine iff_of_true ?_ (absurd four)
      intro x mem
      obtain ⟨f, made⟩ := x.made
      have nil : s.active f = [] := by
        cases f with
        | ipv4 => exact four
        | ipv6 => exact Decidable.not_not.mp six
      rw [active_nil nil mem] at made
      cases made
    · rw [forall_prop_of_true four]
      refine served_one (f := .ipv4) there four ?_ ?_
      · intro f' other
        cases f' with
        | ipv4 => exact absurd rfl other
        | ipv6 => exact Decidable.not_not.mp six
      · intro p
        rw [activeText_eq, if_neg six, text]

end

/-- A recipient gets the active searches of a round as he is to exactly where those of
each user go right. -/
theorem routed_iff (matchExtJson : List Piece → Bool) (set : QueueSettings)
    (rounds : List (Round Piece × List QueueUser)) (r : SearchRound) (us : List QueueUser)
    {u : QueueUser} {got : List Piece}
    (mem : (u, got) ∈ us.zip (sent matchExtJson set rounds r us))
    (family : (u.ipv6 || u.ipv4) = true) :
    Routed r u got ↔ ∀ s, .searcher s ∈ r.queued → Served s u (first set us u) := by
  rw [sent_eq, ← List.map_prod_left_eq_zip, List.mem_map] at mem
  obtain ⟨u, -, eq⟩ := mem
  obtain ⟨rfl, rfl⟩ := Prod.mk.inj eq
  constructor
  · intro routed s there
    apply (served_iff family there).mp
    intro x mem
    exact routed x (List.mem_flatMap.mpr ⟨_, there, mem⟩)
  · intro served x mem
    obtain ⟨q, there, mem⟩ := List.mem_flatMap.mp mem
    cases q with
    | searcher s => exact (served_iff family there).mpr (served s there) x mem
    | item _ _ _ => cases mem

/-- A user who has searched in both families. -/
def bothSearcher : Searcher where
  ipv6 := true
  ipv4 := true
  ipv6Active := true
  ipv4Active := true
  searches := [⟨0, fun _ => true, .ipv4, rfl⟩]
  passive := []

def bothRound : SearchRound := ⟨[.searcher bothSearcher], [], [], by decide⟩

/-- A recipient of IPv6 alone, and one of IPv4 alone. -/
def sixUser : QueueUser where
  sharedSize := 1
  profile := -1
  ipv6 := true
  ipv4 := false
  ipv6Active := true
  ipv4Active := false
  operator := false
  noHello := true
  userIP2 := false
  isJsonUser := false

def fourUser : QueueUser := { sixUser with ipv6 := false, ipv4 := true, ipv4Active := true }

def noProfiles : QueueSettings := ⟨1, fun _ _ => false⟩

theorem sent_bothRound : sent (fun _ => false) noProfiles [] bothRound [sixUser, fourUser] =
    [[.search 0 .ipv6], [.search 0 .ipv6]] := by
  decide +kernel

theorem routed_sixUser : Routed bothRound sixUser [.search 0 .ipv6] := by
  refine (routed_iff (fun _ => false) noProfiles [] bothRound [sixUser, fourUser] ?_ rfl).mpr ?_
  · rw [sent_bothRound]
    exact List.mem_cons_self
  · intro s there
    cases List.mem_singleton.mp there
    have six : bothSearcher.active .ipv6 ≠ [] := by decide
    have four : bothSearcher.active .ipv4 ≠ [] := by decide
    rw [Served, if_pos six, if_pos four]
    refine ⟨rfl, by decide +kernel, fun has => ?_⟩
    cases has

/-- A user of IPv4 alone is sent the IPv6 text of a search that was made in both
families. -/
theorem fourUser_takes_ipv6 :
    (fourUser, [Piece.search 0 .ipv6]) ∈
        [sixUser, fourUser].zip (sent (fun _ => false) noProfiles [] bothRound [sixUser, fourUser]) ∧
      ¬Routed bothRound fourUser [.search 0 .ipv6] := by
  refine ⟨?_, fun routed => ?_⟩
  · rw [sent_bothRound]
    exact List.mem_cons_of_mem _ List.mem_cons_self
  · have gets := routed ⟨0, fun _ => true, .ipv4, rfl⟩ List.mem_cons_self
    have has := gets.own .ipv6 List.mem_cons_self
    cases has

end FlyHub.Broadcast
