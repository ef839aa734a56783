import Mathlib.Data.List.Basic
import Mathlib.Data.List.Nodup
import Mathlib.Tactic.Common

/-!
# Intrusive doubly linked chains

The elements of a chain carry the links themselves. `LinkedFrom` reads a chain
as a list; pushing and unlinking an element act on that list, and a chain that
shares no element with the one changed stays as it was.
-/

namespace FlyHub.Lib

/-- The links every element carries. -/
structure Links (α : Type*) where
  prev : α → Option α
  next : α → Option α

section
variable {α : Type*} {L L' : Links α}

/-- The elements of `l` are linked in order, the first one back to `p` and the
last one to nothing. -/
def LinkedFrom (L : Links α) : Option α → List α → Prop
  | _, [] => True
  | p, a :: l => L.prev a = p ∧ L.next a = l.head? ∧ LinkedFrom L (some a) l

theorem LinkedFrom.congr {p : Option α} {l : List α} (h : LinkedFrom L p l)
    (same : ∀ x ∈ l, L'.prev x = L.prev x ∧ L'.next x = L.next x) : LinkedFrom L' p l := by
  induction l generalizing p with
  | nil => trivial
  | cons a l ih =>
    obtain ⟨hp, hn, rest⟩ := h
    obtain ⟨sp, sn⟩ := same a (by simp)
    exact ⟨sp.trans hp, sn.trans hn, ih rest fun x hx => same x (by simp [hx])⟩

/-- The links of an element inside a chain. -/
theorem LinkedFrom.links {p : Option α} {pre post : List α} {a : α}
    (h : LinkedFrom L p (pre ++ a :: post)) :
    L.prev a = pre.getLast?.or p ∧ L.next a = post.head? := by
  induction pre generalizing p with
  | nil => exact ⟨by simpa using h.1, h.2.1⟩
  | cons b pre ih =>
    obtain ⟨hp, hn⟩ := ih h.2.2
    refine ⟨?_, hn⟩
    rw [hp, List.getLast?_cons]
    cases pre.getLast? <;> simp

/-- The rest of a chain from an element on. -/
theorem LinkedFrom.drop {p : Option α} {pre post : List α} (h : LinkedFrom L p (pre ++ post)) :
    LinkedFrom L (pre.getLast?.or p) post := by
  induction pre generalizing p with
  | nil => simpa using h
  | cons b pre ih =>
    have rest := ih h.2.2
    rw [List.getLast?_cons]
    cases hl : pre.getLast? <;> simpa [hl] using rest

end

section
variable {α : Type*} [DecidableEq α]

namespace Links

/-- No element is linked. -/
def empty : Links α := ⟨fun _ => none, fun _ => none⟩

/-- Link `a` in front of the chain that starts at `head`. -/
def pushFront (L : Links α) (a : α) (head : Option α) : Links α where
  prev := fun x => if head = some x then some a else L.prev x
  next := fun x => if x = a then head else L.next x

/-- Null the links of `a` alone. -/
def clear (L : Links α) (a : α) : Links α where
  prev := fun x => if x = a then none else L.prev x
  next := fun x => if x = a then none else L.next x

/-- Join the neighbours of `a` and null its own links. -/
def unlink (L : Links α) (a : α) : Links α where
  prev := fun x => if x = a then none else if L.next a = some x then L.prev a else L.prev x
  next := fun x => if x = a then none else if L.prev a = some x then L.next a else L.next x

end Links

variable {L : Links α}

theorem LinkedFrom.pushFront {l : List α} {a : α} (h : LinkedFrom L none l) (nodup : l.Nodup)
    (fresh : a ∉ l) (unlinked : L.prev a = none) :
    LinkedFrom (L.pushFront a l.head?) none (a :: l) := by
  refine ⟨?_, by simp [Links.pushFront], ?_⟩
  · have other : l.head? ≠ some a := fun e => fresh (List.mem_of_mem_head? e)
    simp [Links.pushFront, other, unlinked]
  · cases l with
    | nil => trivial
    | cons b l =>
      obtain ⟨-, hn, rest⟩ := h
      have ba : b ≠ a := by rintro rfl; exact fresh (by simp)
      refine ⟨by simp [Links.pushFront], by simpa [Links.pushFront, ba] using hn, ?_⟩
      refine rest.congr fun x hx => ?_
      have xa : x ≠ a := by rintro rfl; exact fresh (by simp [hx])
      have bx : b ≠ x := by rintro rfl; exact (List.nodup_cons.mp nodup).1 hx
      simp [Links.pushFront, xa, bx]

theorem LinkedFrom.unlink {p : Option α} {pre post : List α} {a : α}
    (h : LinkedFrom L p (pre ++ a :: post)) (nodup : (pre ++ a :: post).Nodup)
    (outside : ∀ x ∈ pre ++ a :: post, p ≠ some x) :
    LinkedFrom (L.unlink a) p (pre ++ post) := by
  obtain ⟨ha_prev, ha_next⟩ := h.links
  induction pre generalizing p with
  | nil =>
    simp only [List.nil_append, List.nodup_cons] at nodup outside h ⊢
    obtain ⟨notin, nodup⟩ := nodup
    cases post with
    | nil => trivial
    | cons b post =>
      obtain ⟨hp, hn, -, hbn, rest⟩ := h
      have ba : b ≠ a := by rintro rfl; exact notin (by simp)
      have pb : p ≠ some b := outside b (by simp)
      refine ⟨by simp [Links.unlink, ba, hn, hp], ?_, rest.congr fun x hx => ?_⟩
      · simpa [Links.unlink, ba, hp, pb] using hbn
      · have xa : x ≠ a := by rintro rfl; exact notin (by simp [hx])
        have bx : b ≠ x := by rintro rfl; exact (List.nodup_cons.mp nodup).1 hx
        have px : p ≠ some x := outside x (by simp [hx])
        simp [Links.unlink, xa, hn, hp, bx, px]
  | cons b pre ih =>
    simp only [List.cons_append, List.nodup_cons] at nodup
    obtain ⟨notin, nodup⟩ := nodup
    obtain ⟨hp, hn, rest⟩ := h
    have ba : b ≠ a := by rintro rfl; exact notin (by simp)
    have outside' : ∀ x ∈ pre ++ a :: post, some b ≠ some x := by
      rintro x hx ⟨⟩
      exact notin hx
    obtain ⟨ha_prev', -⟩ := rest.links
    have tail := ih rest nodup outside' ha_prev'
    refine ⟨?_, ?_, tail⟩
    · have nb : post.head? ≠ some b := by
        intro e
        exact notin (List.mem_append_right _ (List.mem_cons_of_mem _ (List.mem_of_mem_head? e)))
      simp [Links.unlink, ba, ha_next, nb, hp]
    · cases pre with
      | nil => simp [Links.unlink, ba, ha_prev', ha_next]
      | cons c pre =>
        have last : L.prev a ≠ some b := by
          rw [ha_prev', List.getLast?_cons, Option.some_or]
          intro e
          apply notin
          rw [← Option.some.inj e]
          refine List.mem_append_left _ ?_
          cases hl : pre.getLast? with
          | none => simp
          | some d => simp [List.mem_of_getLast? hl]
        simpa [Links.unlink, ba, last] using hn

/-- A chain that avoids `a` and its neighbours does not notice that it is unlinked. -/
theorem LinkedFrom.unlink_frame {p : Option α} {l : List α} {a : α} (h : LinkedFrom L p l)
    (apart : ∀ x ∈ l, x ≠ a ∧ L.next a ≠ some x ∧ L.prev a ≠ some x) :
    LinkedFrom (L.unlink a) p l :=
  h.congr fun x hx => by
    obtain ⟨xa, nx, px⟩ := apart x hx
    simp [Links.unlink, xa, nx, px]

/-- A chain that avoids `a` and the head does not notice that `a` is pushed there. -/
theorem LinkedFrom.pushFront_frame {p head : Option α} {l : List α} {a : α}
    (h : LinkedFrom L p l) (apart : ∀ x ∈ l, x ≠ a ∧ head ≠ some x) :
    LinkedFrom (L.pushFront a head) p l :=
  h.congr fun x hx => by
    obtain ⟨xa, hx⟩ := apart x hx
    simp [Links.pushFront, xa, hx]

end

end FlyHub.Lib
