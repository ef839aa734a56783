import Mathlib.Data.List.TakeWhile
import Mathlib.Tactic.Common

/-!
# Nicks

Strings are lists of bytes. Nicks are compared without regard to the case of
the letters A to Z, and hashed so that equal nicks have equal hashes.
-/

namespace FlyHub

abbrev Text := List UInt8

/-- The bytes of an ASCII literal. -/
def ascii (s : String) : Text := s.toList.map (fun c => UInt8.ofNat c.toNat)

def lowerCase (c : UInt8) : UInt8 := if 65 ≤ c ∧ c ≤ 90 then c + 32 else c

def iequals : Text → Text → Bool
  | [], [] => true
  | a :: as, b :: bs => (a = b || lowerCase a = lowerCase b) && iequals as bs
  | _, _ => false

def hashNick (sNick : Text) : UInt32 :=
  sNick.foldl (fun (h : UInt32) c => (h + (h <<< 5)) ^^^ (lowerCase c).toUInt32) 5381 + 1

/-- The text up to its end. -/
def cText (buffer : Text) : Text := buffer.takeWhile (· ≠ 0)

/-- The text starts with `c`. -/
def startsWith (s : Text) (c : UInt8) : Bool := s.head? = some c

theorem iequals_iff {a b : Text} : iequals a b = true ↔ a.map lowerCase = b.map lowerCase := by
  induction a generalizing b with
  | nil => cases b <;> simp [iequals]
  | cons x a ih =>
    cases b with
    | nil => simp [iequals]
    | cons y b =>
      simp only [iequals, Bool.and_eq_true, Bool.or_eq_true, decide_eq_true_eq, ih,
        List.map_cons, List.cons.injEq]
      constructor
      · rintro ⟨rfl | h, rest⟩
        · exact ⟨rfl, rest⟩
        · exact ⟨h, rest⟩
      · rintro ⟨h, rest⟩
        exact ⟨.inr h, rest⟩

@[simp] theorem iequals_refl (a : Text) : iequals a a = true := iequals_iff.mpr rfl

theorem iequals_comm {a b : Text} : iequals a b = iequals b a := by
  rw [Bool.eq_iff_iff, iequals_iff, iequals_iff, eq_comm]

theorem iequals_trans {a b c : Text} (hab : iequals a b = true) (hbc : iequals b c = true) :
    iequals a c = true :=
  iequals_iff.mpr ((iequals_iff.mp hab).trans (iequals_iff.mp hbc))

theorem hashNick_congr {a b : Text} (h : iequals a b = true) : hashNick a = hashNick b := by
  have fold : ∀ s : Text, hashNick s =
      (s.map lowerCase).foldl (fun (h : UInt32) c => (h + (h <<< 5)) ^^^ c.toUInt32) 5381 + 1 := by
    intro s
    rw [List.foldl_map]
    rfl
  rw [fold, fold, iequals_iff.mp h]

theorem zero_not_mem_cText (buffer : Text) : 0 ∉ cText buffer := by
  intro mem
  simpa using List.mem_takeWhile_imp mem

theorem cText_of_not_mem {s : Text} (clean : 0 ∉ s) : cText s = s := by
  rw [cText, List.takeWhile_eq_self_iff]
  intro c mem
  rw [decide_eq_true_eq]
  intro zero
  exact clean (zero ▸ mem)

example : iequals (ascii "PtokaX") (ascii "ptOKAx") = true := by decide

end FlyHub
