import FlyHub.Broadcast.Buffer
import FlyHub.Broadcast.Queue

/-!
# Sharing a global queue

Every user of a round is sent the queue that the first user of its type filled.
Sharing is right when the two are entitled to the same text. The queue type is a
sum of weights that is not injective, and the filter reads one fact of the user
that is not in the sum at all.
-/

namespace FlyHub.Broadcast

open FlyHub.Lib

/-- The text appended to a cleared queue does not depend on what it held before. -/
structure Sink.Lawful {α β : Type*} (S : Sink α β) (Fresh : β → Prop) : Prop where
  init : Fresh S.init
  clear : ∀ q payloads, Fresh q → Fresh (S.clear (S.adds q payloads))
  same : ∀ q q' payloads, Fresh q → Fresh q' →
    S.content (S.adds q payloads) = S.content (S.adds q' payloads)

/-- What is announced for one round. -/
structure Round (α : Type*) where
  items : List (QueueItem α)
  opListQueue : List α
  userIPQueue : List α

section
variable {α β : Type*} (S : Sink α β) (matchExtJson : List α → Bool) (set : QueueSettings)

namespace GlobalDataQueue

def openRound (g : GlobalDataQueue α β) (r : Round α) : GlobalDataQueue α β :=
  prepareQueueItems
    { r.items.foldl addQueueItem g with
      opListQueue := r.opListQueue, userIPQueue := r.userIPQueue }

def playRound (g : GlobalDataQueue α β) (r : Round α × List QueueUser) : GlobalDataQueue α β :=
  (((g.openRound r.1).processAll S matchExtJson set r.2).1).clearQueues S

/-- The queues after earlier rounds. -/
def afterRounds (rounds : List (Round α × List QueueUser)) : GlobalDataQueue α β :=
  run (playRound S matchExtJson set) (init S) rounds

/-- The text built from scratch for one user alone. -/
def built (g : GlobalDataQueue α β) (u : QueueUser) : List α :=
  S.content (g.fillQueue S matchExtJson set u S.init)

/-- Every user of the sequence is sent what would be built for it alone. -/
def Sound (g : GlobalDataQueue α β) (us : List QueueUser) : Prop :=
  (g.processAll S matchExtJson set us).2 = us.map (g.built S matchExtJson set)

/-- The texts `ProcessQueues` appends when it fills a queue for a user, empty
ones included. -/
def payloads (g : GlobalDataQueue α β) (u : QueueUser) : List (List α) :=
  g.queueItems.map (itemData matchExtJson u (u.queueBits set)) ++ [g.opListQueue] ++
    if u.userIP set then [g.userIPQueue] else []

end GlobalDataQueue

/-- The payloads that reach the sink: empty text is not appended. -/
def nonEmpty (payloads : List (List α)) : List (List α) :=
  payloads.filter (fun data => data.length ≠ 0)

@[simp] theorem nonEmpty_append (ps ps' : List (List α)) :
    nonEmpty (ps ++ ps') = nonEmpty ps ++ nonEmpty ps' := List.filter_append ..

theorem Sink.adds_append (q : β) (ps ps' : List (List α)) :
    S.adds q (ps ++ ps') = S.adds (S.adds q ps) ps' :=
  run_append _ _ _ _

theorem Sink.addDataToQueueStr_eq (q : β) (d : List α) :
    S.addDataToQueueStr q d = S.adds q (nonEmpty [d]) := by
  unfold nonEmpty Sink.addDataToQueueStr
  by_cases h : d.length = 0
  · simp only [h, ne_eq, not_true_eq_false, ↓reduceIte, decide_false, List.filter_cons]
    rfl
  · simp only [h, ne_eq, not_false_eq_true, ↓reduceIte, decide_true, List.filter_cons]
    rfl

theorem Sink.foldl_addDataToQueueStr {ι : Type*} (f : ι → List α) (q : β) (l : List ι) :
    l.foldl (fun q x => S.addDataToQueueStr q (f x)) q = S.adds q (nonEmpty (l.map f)) := by
  induction l generalizing q with
  | nil => rfl
  | cons x l ih =>
    rw [List.foldl_cons, ih, S.addDataToQueueStr_eq, ← S.adds_append, ← nonEmpty_append]
    rfl

variable {S matchExtJson set}

namespace GlobalDataQueue

theorem fillQueue_eq (g : GlobalDataQueue α β) (u : QueueUser) (q : β) :
    g.fillQueue S matchExtJson set u q = S.adds q (nonEmpty (g.payloads matchExtJson set u)) := by
  unfold fillQueue payloads
  rw [nonEmpty_append, nonEmpty_append, S.adds_append, S.adds_append,
    ← S.foldl_addDataToQueueStr, ← S.addDataToQueueStr_eq]
  by_cases h : u.userIP set
  · simp only [QueueUser.queueBits, h, ↓reduceIte, ← S.addDataToQueueStr_eq]
  · simp only [QueueUser.queueBits, h, ↓reduceIte, Bool.false_eq_true]
    rfl

variable {Fresh : β → Prop}

/-- Between two rounds no queue is in use. -/
structure Ready (Fresh : β → Prop) (g : GlobalDataQueue α β) : Prop where
  fresh : ∀ t, (g.globalQueues t).created = false ∧ Fresh (g.globalQueues t).buffer
  newQueueItems : g.newQueueItems = []

/-- After some users of a round, the queue of each type is as the first of them
of this type filled it. -/
structure Filled (S : Sink α β) (matchExtJson : List α → Bool) (set : QueueSettings)
    (g₀ g : GlobalDataQueue α β) (served : List QueueUser) : Prop where
  queueItems : g.queueItems = g₀.queueItems
  opListQueue : g.opListQueue = g₀.opListQueue
  userIPQueue : g.userIPQueue = g₀.userIPQueue
  newQueueItems : g.newQueueItems = g₀.newQueueItems
  created : ∀ t, t ∈ g.createdGlobalQueues ↔ (g.globalQueues t).created = true
  queues : ∀ t, g.globalQueues t =
    match served.find? (fun u => u.queueType set = t) with
    | none => g₀.globalQueues t
    | some u => ⟨g₀.fillQueue S matchExtJson set u (g₀.globalQueues t).buffer, true⟩

theorem fillQueue_congr {g g' : GlobalDataQueue α β} (hi : g.queueItems = g'.queueItems)
    (ho : g.opListQueue = g'.opListQueue) (hu : g.userIPQueue = g'.userIPQueue) (u : QueueUser) :
    g.fillQueue S matchExtJson set u = g'.fillQueue S matchExtJson set u := by
  unfold fillQueue
  rw [hi, ho, hu]

/-- One call of `ProcessQueues`. -/
theorem processQueues_filled {g₀ g : GlobalDataQueue α β} {served : List QueueUser}
    (ready : ∀ t, (g₀.globalQueues t).created = false)
    (h : Filled S matchExtJson set g₀ g served) (u : QueueUser) :
    Filled S matchExtJson set g₀ (g.processQueues S matchExtJson set u) (served ++ [u]) := by
  have fill : g.fillQueue S matchExtJson set u = g₀.fillQueue S matchExtJson set u :=
    fillQueue_congr h.queueItems h.opListQueue h.userIPQueue u
  unfold processQueues
  by_cases created : (g.globalQueues (u.queueType set)).created
  · simp only [created, ↓reduceIte]
    refine { h with queues := fun t => ?_ }
    rw [h.queues t, List.find?_append]
    cases found : served.find? (fun v => v.queueType set = t) with
    | some v => rfl
    | none =>
      have other : u.queueType set ≠ t := by
        rintro rfl
        have unused := h.queues (u.queueType set)
        simp only [found] at unused
        rw [unused, ready] at created
        cases created
      simp [other]
  · simp only [created, ↓reduceIte, Bool.false_eq_true]
    have first : served.find? (fun v => v.queueType set = u.queueType set) = none := by
      cases found : served.find? (fun v => v.queueType set = u.queueType set) with
      | none => rfl
      | some v =>
        have used := h.queues (u.queueType set)
        simp only [found] at used
        rw [used] at created
        exact absurd rfl created
    have unused := h.queues (u.queueType set)
    simp only [first] at unused
    refine ⟨h.queueItems, h.opListQueue, h.userIPQueue, h.newQueueItems, fun t => ?_, fun t => ?_⟩
    · by_cases ht : t = u.queueType set
      · subst ht; simp
      · simp [ht, h.created t]
    · rw [List.find?_append]
      by_cases ht : t = u.queueType set
      · subst ht
        simp [first, unused, fill]
      · have other : ¬ u.queueType set = t := fun e => ht e.symm
        simp only [Function.update_of_ne ht, h.queues t]
        cases served.find? (fun v => v.queueType set = t) <;> simp [other]

theorem processAll_filled {g₀ g : GlobalDataQueue α β} {served : List QueueUser}
    (ready : ∀ t, (g₀.globalQueues t).created = false)
    (h : Filled S matchExtJson set g₀ g served) (us : List QueueUser) :
    Filled S matchExtJson set g₀ (g.processAll S matchExtJson set us).1 (served ++ us) := by
  induction us generalizing g served with
  | nil => simpa [processAll] using h
  | cons u us ih => simpa [processAll] using ih (processQueues_filled ready h u)

theorem filled_start {g : GlobalDataQueue α β} (ready : Ready Fresh g)
    (idle : g.createdGlobalQueues = []) : Filled S matchExtJson set g g [] :=
  ⟨rfl, rfl, rfl, rfl, fun t => by simp [idle, (ready.fresh t).1], fun _ => rfl⟩

end GlobalDataQueue

/-- The first user of the sequence with the queue type of `u`. -/
def first (set : QueueSettings) (us : List QueueUser) (u : QueueUser) : QueueUser :=
  (us.find? (fun v => v.queueType set = u.queueType set)).getD u

variable (set) in
theorem first_spec {us : List QueueUser} {u : QueueUser} (hu : u ∈ us) :
    first set us u ∈ us ∧ (first set us u).queueType set = u.queueType set := by
  unfold first
  cases found : us.find? (fun v => v.queueType set = u.queueType set) with
  | none => exact absurd (by simp) (List.find?_eq_none.mp found u hu)
  | some v =>
    exact ⟨List.mem_of_find?_eq_some found, by simpa using List.find?_some found⟩

theorem first_congr {us : List QueueUser} {u v : QueueUser} (hu : u ∈ us)
    (h : u.queueType set = v.queueType set) : first set us u = first set us v := by
  unfold first
  rw [← h]
  cases found : us.find? (fun v => v.queueType set = u.queueType set) with
  | none => exact absurd (by simp) (List.find?_eq_none.mp found u hu)
  | some w => rfl

namespace GlobalDataQueue

variable {Fresh : β → Prop}

theorem ready_openRound {g : GlobalDataQueue α β} (ready : Ready Fresh g)
    (idle : g.createdGlobalQueues = []) (r : Round α) :
    Ready Fresh (g.openRound r) ∧ (g.openRound r).createdGlobalQueues = [] ∧
      (g.openRound r).queueItems = r.items ∧ (g.openRound r).opListQueue = r.opListQueue ∧
      (g.openRound r).userIPQueue = r.userIPQueue := by
  have added : ∀ (items : List (QueueItem α)) (g : GlobalDataQueue α β),
      items.foldl addQueueItem g = { g with newQueueItems := g.newQueueItems ++ items } := by
    intro items
    induction items with
    | nil => intro g; simp
    | cons item items ih => intro g; rw [List.foldl_cons, ih]; simp [addQueueItem]
  simp only [openRound, prepareQueueItems, added, ready.newQueueItems, List.nil_append, idle,
    and_self, and_true]
  exact ⟨ready.fresh, rfl⟩

variable (lawful : S.Lawful Fresh)
include lawful

/-- Each user is sent what was built for the first user of its type. -/
theorem processAll_sent {g₀ g : GlobalDataQueue α β} {served : List QueueUser}
    (ready : Ready Fresh g₀) (h : Filled S matchExtJson set g₀ g served) (us : List QueueUser) :
    (g.processAll S matchExtJson set us).2 =
      us.map (fun u => g₀.built S matchExtJson set (first set (served ++ us) u)) := by
  induction us generalizing g served with
  | nil => rfl
  | cons u us ih =>
    have next := processQueues_filled (fun t => (ready.fresh t).1) h u
    have split : served ++ u :: us = (served ++ [u]) ++ us := by simp
    have head : (g.processQueues S matchExtJson set u).selected S set u =
        g₀.built S matchExtJson set (first set (served ++ u :: us) u) := by
      have slot := next.queues (u.queueType set)
      cases found : (served ++ [u]).find? (fun v => v.queueType set = u.queueType set) with
      | none => exact absurd (by simp) (List.find?_eq_none.mp found u (by simp))
      | some v =>
        simp only [found] at slot
        rw [selected, slot, split, first, List.find?_append, found]
        simp only [Option.some_or, Option.getD_some, built, fillQueue_eq]
        exact lawful.same _ _ _ (ready.fresh _).2 lawful.init
    simp only [processAll, List.map_cons, head, ih next, split]

theorem sound_iff {g : GlobalDataQueue α β} (ready : Ready Fresh g)
    (idle : g.createdGlobalQueues = []) (us : List QueueUser) :
    g.Sound S matchExtJson set us ↔ ∀ u ∈ us, ∀ v ∈ us, u.queueType set = v.queueType set →
      g.built S matchExtJson set u = g.built S matchExtJson set v := by
  rw [Sound, processAll_sent lawful ready (filled_start ready idle), List.nil_append,
    List.map_inj_left]
  constructor
  · intro h u hu v hv same
    rw [← h u hu, ← h v hv, first_congr hu same]
  · intro h u hu
    obtain ⟨mem, same⟩ := first_spec set hu
    exact h _ mem u hu same

/-- Earlier rounds leave no trace. -/
theorem ready_afterRounds (rounds : List (Round α × List QueueUser)) :
    Ready Fresh (afterRounds S matchExtJson set rounds) ∧
      (afterRounds S matchExtJson set rounds).createdGlobalQueues = [] := by
  refine run_invariant (fun g : GlobalDataQueue α β =>
    Ready Fresh g ∧ g.createdGlobalQueues = []) ?_ rounds ?_
  · rintro g ⟨r, us⟩ ⟨ready, idle⟩
    obtain ⟨ready, idle, -⟩ := ready_openRound ready idle r
    have start : Filled S matchExtJson set _ _ [] := filled_start ready idle
    have filled := processAll_filled (fun t => (ready.fresh t).1) start us
    refine ⟨⟨fun t => ?_, filled.newQueueItems.trans ready.newQueueItems⟩, rfl⟩
    have slot := filled.queues t
    simp only [playRound, clearQueues, filled.created]
    cases found : ([] ++ us).find? (fun u : QueueUser => u.queueType set = t) with
    | none =>
      simp only [found] at slot
      simp only [slot, (ready.fresh t).1, Bool.false_eq_true, ↓reduceIte, true_and]
      exact (ready.fresh t).2
    | some u =>
      simp only [found] at slot
      simp only [slot, ↓reduceIte, fillQueue_eq, true_and]
      exact lawful.clear _ _ (ready.fresh t).2
  · exact ⟨⟨fun _ => ⟨rfl, lawful.init⟩, rfl⟩, rfl⟩

end GlobalDataQueue

end

end FlyHub.Broadcast
