import Mathlib.Data.List.Infix

/-!
# Mailboxes

Many write into a mailbox, at any time, and one reads it: it takes all that is there at once
and handles it one by one, while more may come in. A mailbox that is given up keeps nothing.
Whatever the order of these steps, nothing is lost or handled twice.
-/

namespace FlyHub.Lib

/-- A mailbox: what has become of the letters so far, those that the reader has taken and has
not handled, and those that nobody has taken. -/
structure Mailbox (α β : Type*) where
  done : List (α × β)
  taken : List α
  waiting : List α

namespace Mailbox

variable {α β : Type*}

def empty : Mailbox α β := ⟨[], [], []⟩

variable (m : Mailbox α β)

def post (a : α) : Mailbox α β := { m with waiting := m.waiting ++ [a] }

/-- The reader takes all that is there, once it has handled what it took before. -/
def take : Mailbox α β :=
  { m with taken := m.taken ++ m.waiting, waiting := [] }

/-- The reader handles the first letter that it has taken. -/
def next (b : β) : Mailbox α β :=
  match m.taken with
  | [] => m
  | a :: rest => { m with done := m.done ++ [(a, b)], taken := rest }

/-- The mailbox is given up with all that is in it. -/
def close (b : β) : Mailbox α β :=
  { done := m.done ++ (m.taken ++ m.waiting).map fun a => (a, b), taken := [], waiting := [] }

/-- All letters in their order. -/
def letters : List α := m.done.map Prod.fst ++ m.taken ++ m.waiting

variable {m} {a : α} {b : β}

@[simp] theorem letters_empty : (empty : Mailbox α β).letters = [] := rfl

@[simp] theorem letters_post : (m.post a).letters = m.letters ++ [a] := by
  simp [letters, post]

@[simp] theorem letters_take : m.take.letters = m.letters := by
  simp [letters, take]

@[simp] theorem letters_next : (m.next b).letters = m.letters := by
  unfold next
  split
  · rfl
  · rename_i head
    simp [letters, head]

@[simp] theorem letters_close : (m.close b).letters = m.letters := by
  simp [letters, close, Function.comp_def]

@[simp] theorem next_waiting : (m.next b).waiting = m.waiting := by
  unfold next
  split
  · rfl
  · rfl

theorem mem_next {d : α × β} (mem : d ∈ (m.next b).done) : d ∈ m.done ∨ d.2 = b := by
  unfold next at mem
  split at mem
  · exact .inl mem
  · rcases List.mem_append.mp mem with before | now
    · exact .inl before
    · exact .inr (by rw [List.mem_singleton.mp now])

/-- An idle mailbox has handled every letter. -/
theorem done_of_idle (taken : m.taken = []) (waiting : m.waiting = []) :
    m.done.map Prod.fst = m.letters := by
  simp [letters, taken, waiting]

end Mailbox

end FlyHub.Lib
