import Mathlib.Logic.Function.Basic
import FlyHub.Ban.Record
import FlyHub.Lib.Chain

/-!
# The index of online users

`HashManager` finds a hashed user by its nick and the hashed users of an address
by a chain through their records. Neither `Add` nor `Remove` looks whether the
user is already there, so that the index is only as good as its callers.
-/

namespace FlyHub.Session

open FlyHub.Ban FlyHub.Lib

abbrev UserId := Nat

structure IpTableItem where
  first : UserId
  count : UInt16

/-- The tables, and `m_pHashIpTablePrev` and `m_pHashIpTableNext` of the users. -/
structure HashManager where
  nickTable : Text → Option UserId
  ipTable : IpHash → Option IpTableItem
  links : Links UserId

namespace HashManager

def empty : HashManager := ⟨fun _ => none, fun _ => none, Links.empty⟩

def add (m : HashManager) (user : UserId) (sNick : Text) (ipHash : IpHash) : HashManager where
  nickTable := Function.update m.nickTable sNick (some user)
  ipTable :=
    match m.ipTable ipHash with
    | some item => Function.update m.ipTable ipHash (some ⟨user, item.count + 1⟩)
    | none => Function.update m.ipTable ipHash (some ⟨user, 1⟩)
  links :=
    match m.ipTable ipHash with
    | some item => m.links.pushFront user (some item.first)
    | none => m.links

/-- The entry of the nick goes, whoever it belongs to. A user with nobody before
it is taken for the first of its chain. -/
def remove (m : HashManager) (user : UserId) (sNick : Text) (ipHash : IpHash) : HashManager :=
  let m := { m with nickTable := Function.update m.nickTable sNick none }
  match m.links.prev user, m.ipTable ipHash with
  | none, none => m
  | none, some item =>
    let first := (m.links.next user).map fun next => ⟨next, item.count - 1⟩
    { m with ipTable := Function.update m.ipTable ipHash first, links := m.links.unlink user }
  | some _, item =>
    let item := item.map fun item => ⟨item.first, item.count - 1⟩
    { m with ipTable := Function.update m.ipTable ipHash item, links := m.links.unlink user }

def findUser (m : HashManager) (sNick : Text) : Option UserId := m.nickTable sNick

def getUserIpCount (m : HashManager) (ipHash : IpHash) : UInt16 :=
  match m.ipTable ipHash with
  | some item => item.count
  | none => 0

@[simp] theorem remove_nickTable (m : HashManager) (user : UserId) (sNick : Text) (ipHash : IpHash) :
    (m.remove user sNick ipHash).nickTable = Function.update m.nickTable sNick none := by
  unfold remove
  dsimp only
  split <;> rfl

/-- `l` is the chain that the entry of an address leads to. The count is the
length, as far as 16 bits can tell. -/
structure Describes (links : Links UserId) (item : Option IpTableItem) (l : List UserId) : Prop where
  nodup : l.Nodup
  linked : LinkedFrom links none l
  first : item.map IpTableItem.first = l.head?
  count : ∀ i, item = some i → i.count = UInt16.ofNat l.length

/-- The index holds the members and nobody else: each one in the nick table once,
under its nick, and once in the chain of its address. -/
structure Indexes (m : HashManager) (member : UserId → Prop) (sNick : UserId → Text)
    (ipHash : UserId → IpHash) : Prop where
  nick : ∀ nick c, m.nickTable nick = some c ↔ member c ∧ sNick c = nick
  chain : ∀ ip, ∃ l, (∀ c, c ∈ l ↔ member c ∧ ipHash c = ip) ∧ Describes m.links (m.ipTable ip) l
  unlinked : ∀ c, ¬ member c → m.links.prev c = none ∧ m.links.next c = none

section
variable {m : HashManager} {member : UserId → Prop} {sNick : UserId → Text}
  {ipHash : UserId → IpHash} {c : UserId}

theorem indexes_empty (sNick : UserId → Text) (ipHash : UserId → IpHash) :
    Indexes empty (fun _ => False) sNick ipHash where
  nick := by simp [empty]
  chain := fun ip => ⟨[], by simp, ⟨List.nodup_nil, trivial, rfl, by simp [empty]⟩⟩
  unlinked := fun _ _ => ⟨rfl, rfl⟩

/-- The index looks at the members only. -/
theorem Indexes.congr {member' : UserId → Prop} {sNick' : UserId → Text}
    {ipHash' : UserId → IpHash} (index : Indexes m member sNick ipHash)
    (same : ∀ c, member' c ↔ member c)
    (kept : ∀ c, member c → sNick' c = sNick c ∧ ipHash' c = ipHash c) :
    Indexes m member' sNick' ipHash' where
  nick := by
    intro nick c
    rw [index.nick, same]
    constructor
    · rintro ⟨is, eq⟩
      exact ⟨is, (kept c is).1.trans eq⟩
    · rintro ⟨is, eq⟩
      exact ⟨is, (kept c is).1.symm.trans eq⟩
  chain := by
    intro ip
    obtain ⟨l, elements, describes⟩ := index.chain ip
    refine ⟨l, fun c => ?_, describes⟩
    rw [elements, same]
    constructor
    · rintro ⟨is, eq⟩
      exact ⟨is, (kept c is).2.trans eq⟩
    · rintro ⟨is, eq⟩
      exact ⟨is, (kept c is).2.symm.trans eq⟩
  unlinked := fun c out => index.unlinked c fun is => out ((same c).mpr is)

/-- What the entry of an address says about the links. -/
theorem Describes.entry {links : Links UserId} {item : Option IpTableItem} {l : List UserId}
    (describes : Describes links item l) :
    item = l.head?.map fun first => ⟨first, UInt16.ofNat l.length⟩ := by
  cases item with
  | none => simp [← describes.first]
  | some i => simp [← describes.first, ← describes.count i rfl]

theorem describes_of_entry {links : Links UserId} {l : List UserId} (nodup : l.Nodup)
    (linked : LinkedFrom links none l) :
    Describes links (l.head?.map fun first => ⟨first, UInt16.ofNat l.length⟩) l where
  nodup := nodup
  linked := linked
  first := by cases l <;> rfl
  count := by
    intro i eq
    cases l with
    | nil => simp at eq
    | cons a l => simp [← Option.some.inj eq]

/-- The chains of two addresses have no element in common. -/
theorem chain_ne {ip ip' : IpHash} {l l' : List UserId} (differ : ip' ≠ ip)
    (elements : ∀ c, c ∈ l ↔ member c ∧ ipHash c = ip)
    (elements' : ∀ c, c ∈ l' ↔ member c ∧ ipHash c = ip') {a b : UserId} (ha : a ∈ l) (hb : b ∈ l') :
    b ≠ a := by
  intro eq
  rw [eq] at hb
  exact differ (((elements' a).mp hb).2.symm.trans ((elements a).mp ha).2)

/-! ## Add -/

theorem add_links (sNick : UserId → Text) {l : List UserId}
    (describes : Describes m.links (m.ipTable (ipHash c)) l) :
    (m.add c (sNick c) (ipHash c)).links = match l with
      | [] => m.links
      | first :: _ => m.links.pushFront c (some first) := by
  have entry := describes.entry
  cases l with
  | nil => simp [add, entry]
  | cons first l => simp [add, entry]

theorem add_ipTable (sNick : UserId → Text) {l : List UserId}
    (describes : Describes m.links (m.ipTable (ipHash c)) l) :
    (m.add c (sNick c) (ipHash c)).ipTable =
      Function.update m.ipTable (ipHash c) (some ⟨c, UInt16.ofNat (c :: l).length⟩) := by
  have entry := describes.entry
  cases l with
  | nil => simp [add, entry]
  | cons first l => simp [add, entry, UInt16.ofNat_add]

/-- A user that is not there and whose nick nobody has may be added. -/
theorem Indexes.add (index : Indexes m member sNick ipHash) (new : ¬ member c)
    (free : ∀ d, member d → sNick d ≠ sNick c) :
    Indexes (m.add c (sNick c) (ipHash c)) (fun d => d = c ∨ member d) sNick ipHash := by
  obtain ⟨l, elements, describes⟩ := index.chain (ipHash c)
  have outside : c ∉ l := fun inside => new ((elements c).mp inside).1
  have own := index.unlinked c new
  have links := add_links sNick describes
  have table := add_ipTable sNick describes
  constructor
  case nick =>
    intro nick d
    simp only [HashManager.add, Function.update_apply]
    split
    · rename_i same
      rw [same, Option.some.injEq]
      constructor
      · intro eq
        rw [← eq]
        exact ⟨.inl rfl, rfl⟩
      · rintro ⟨new | old, eq⟩
        · exact new.symm
        · exact absurd eq (free d old)
    · rename_i differs
      rw [index.nick]
      constructor
      · rintro ⟨is, eq⟩
        exact ⟨.inr is, eq⟩
      · rintro ⟨new | old, eq⟩
        · rw [new] at eq
          exact absurd eq.symm differs
        · exact ⟨old, eq⟩
  case chain =>
    intro ip
    by_cases same : ip = ipHash c
    · subst same
      refine ⟨c :: l, fun d => ?_, ?_⟩
      · rw [List.mem_cons, elements]
        constructor
        · rintro (new | old)
          · exact ⟨.inl new, by rw [new]⟩
          · exact ⟨.inr old.1, old.2⟩
        · rintro ⟨new | old, eq⟩
          · exact .inl new
          · exact .inr ⟨old, eq⟩
      · rw [table, Function.update_self, links]
        apply describes_of_entry (List.nodup_cons.mpr ⟨outside, describes.nodup⟩)
        cases l with
        | nil => exact ⟨own.1, own.2, trivial⟩
        | cons first l => exact describes.linked.pushFront describes.nodup outside own.1
    · obtain ⟨l', elements', describes'⟩ := index.chain ip
      have apart := fun {a b} => chain_ne same elements elements' (a := a) (b := b)
      refine ⟨l', fun d => ?_, ?_⟩
      · rw [elements']
        constructor
        · rintro ⟨is, eq⟩
          exact ⟨.inr is, eq⟩
        · rintro ⟨new | old, eq⟩
          · rw [new] at eq
            exact absurd eq.symm same
          · exact ⟨old, eq⟩
      · rw [table, Function.update_of_ne same, links]
        refine ⟨describes'.nodup, ?_, describes'.first, describes'.count⟩
        cases l with
        | nil => exact describes'.linked
        | cons first l =>
          apply describes'.linked.pushFront_frame
          intro d inside
          constructor
          · intro eq
            rw [eq, elements'] at inside
            exact new inside.1
          · intro eq
            exact apart List.mem_cons_self inside (Option.some.inj eq).symm
  case unlinked =>
    intro d out
    obtain ⟨differs, not⟩ := not_or.mp out
    have before := index.unlinked d not
    rw [links]
    cases l with
    | nil => exact before
    | cons first l =>
      have other : first ≠ d := by
        intro eq
        have inside := (elements first).mp List.mem_cons_self
        rw [eq] at inside
        exact not inside.1
      simpa [Links.pushFront, other, differs] using before

/-! ## Remove -/

/-- The neighbours of an element of a chain are in the chain. -/
theorem neighbours {L : Links UserId} {pre post : List UserId}
    (linked : LinkedFrom L none (pre ++ c :: post)) {d : UserId}
    (near : L.prev c = some d ∨ L.next c = some d) : d ∈ pre ++ c :: post := by
  obtain ⟨hp, hn⟩ := linked.links
  cases near with
  | inl prev =>
    rw [hp, Option.or_none] at prev
    exact List.mem_append_left _ (List.mem_of_getLast? prev)
  | inr next =>
    rw [hn] at next
    exact List.mem_append_right _ (List.mem_cons_of_mem _ (List.mem_of_head? next))

theorem ofNat_succ_sub (n : Nat) : UInt16.ofNat (n + 1) - 1 = UInt16.ofNat n := by
  simp [UInt16.ofNat_add]

theorem remove_of_describes {pre post : List UserId}
    (describes : Describes m.links (m.ipTable (ipHash c)) (pre ++ c :: post)) :
    m.remove c (sNick c) (ipHash c) =
      { nickTable := Function.update m.nickTable (sNick c) none
        ipTable := Function.update m.ipTable (ipHash c)
          ((pre ++ post).head?.map fun first => ⟨first, UInt16.ofNat (pre ++ post).length⟩)
        links := m.links.unlink c } := by
  obtain ⟨hp, hn⟩ := describes.linked.links
  have entry := describes.entry
  have longer : (pre ++ c :: post).length = (pre ++ post).length + 1 := by simp [Nat.add_assoc]
  rw [longer] at entry
  unfold remove
  dsimp only
  rw [entry]
  cases pre with
  | nil =>
    simp only [hp, hn]
    cases post <;> simp
  | cons first pre =>
    rw [List.getLast?_cons, Option.some_or] at hp
    simp only [hp, List.cons_append, List.head?_cons, Option.map_some, ofNat_succ_sub]

/-- A member may be removed. -/
theorem Indexes.remove (index : Indexes m member sNick ipHash) (is : member c) :
    Indexes (m.remove c (sNick c) (ipHash c)) (fun d => d ≠ c ∧ member d) sNick ipHash := by
  obtain ⟨l, elements, describes⟩ := index.chain (ipHash c)
  obtain ⟨pre, post, eq⟩ := List.append_of_mem ((elements c).mpr ⟨is, rfl⟩)
  subst eq
  have near := fun {d} => neighbours describes.linked (d := d)
  rw [remove_of_describes describes]
  constructor
  case nick =>
    intro nick d
    simp only [Function.update_apply]
    split
    · rename_i same
      constructor
      · exact fun absurd => by simp at absurd
      · rintro ⟨⟨differs, member⟩, eq⟩
        have found := (index.nick nick d).mpr ⟨member, eq⟩
        have own := (index.nick nick c).mpr ⟨is, same.symm⟩
        exact absurd (Option.some.inj (found.symm.trans own)) differs
    · rename_i differs
      rw [index.nick]
      constructor
      · rintro ⟨member, eq⟩
        refine ⟨⟨fun same => ?_, member⟩, eq⟩
        rw [same] at eq
        exact differs eq.symm
      · rintro ⟨⟨_, member⟩, eq⟩
        exact ⟨member, eq⟩
  case chain =>
    intro ip
    by_cases same : ip = ipHash c
    · subst same
      refine ⟨pre ++ post, fun d => ?_, ?_⟩
      · have nodup := describes.nodup
        have listed := elements d
        rw [List.nodup_middle, List.nodup_cons] at nodup
        rw [List.mem_append, List.mem_cons] at listed
        rw [List.mem_append]
        constructor
        · intro inside
          refine ⟨⟨fun eq => ?_, ?_⟩, ?_⟩
          · rw [eq, ← List.mem_append] at inside
            exact nodup.1 inside
          · exact (listed.mp (by tauto)).1
          · exact (listed.mp (by tauto)).2
        · rintro ⟨⟨differs, member⟩, eq⟩
          have := listed.mpr ⟨member, eq⟩
          tauto
      · dsimp only
        rw [Function.update_self]
        apply describes_of_entry
        · exact (List.nodup_middle.mp describes.nodup).of_cons
        · exact describes.linked.unlink describes.nodup fun _ _ => by simp
    · obtain ⟨l', elements', describes'⟩ := index.chain ip
      have apart := fun {a b} => chain_ne same elements elements' (a := a) (b := b)
      have own : c ∈ pre ++ c :: post := by simp
      refine ⟨l', fun d => ?_, ?_⟩
      · rw [elements']
        constructor
        · rintro ⟨member, eq⟩
          refine ⟨⟨fun same' => ?_, member⟩, eq⟩
          rw [same'] at eq
          exact same eq.symm
        · rintro ⟨⟨_, member⟩, eq⟩
          exact ⟨member, eq⟩
      · dsimp only
        rw [Function.update_of_ne same]
        refine ⟨describes'.nodup, ?_, describes'.first, describes'.count⟩
        apply describes'.linked.unlink_frame
        intro d inside
        refine ⟨apart own inside, fun next => ?_, fun prev => ?_⟩
        · exact apart (near (.inr next)) inside rfl
        · exact apart (near (.inl prev)) inside rfl
  case unlinked =>
    intro d out
    by_cases eq : d = c
    · simp [eq, Links.unlink]
    · have not : ¬ member d := fun member => out ⟨eq, member⟩
      have before := index.unlinked d not
      have next : m.links.next c ≠ some d := fun found =>
        not ((elements d).mp (near (.inr found))).1
      have prev : m.links.prev c ≠ some d := fun found =>
        not ((elements d).mp (near (.inl found))).1
      simpa [Links.unlink, eq, next, prev] using before

end

end HashManager

end FlyHub.Session
