import FlyHub.Connection.RecvBuffer
import FlyHub.Lists.MyInfo

/-!
# Commands

A command lies in the buffer of its sender, with an end of text after its pipe and what
else was received after that. Handlers look for the nick of the sender at a place in
the buffer, which may be behind the command.
-/

namespace FlyHub.Commands

open FlyHub.Connection FlyHub.Lists

/-- `DcCommand`, as `UserProcessLines` hands it over. `behind` is what comes after the
end of text. -/
structure DcCommand where
  body : Text
  behind : Text
  noPipe : pipe ∉ body
  noZero : 0 ∉ body
  short : body.length < 65536

namespace DcCommand

variable (c : DcCommand)

def sCommand : Text := c.body ++ [pipe]

def memory : Text := c.sCommand ++ 0 :: c.behind

/-- `m_ui32CommandLen`. -/
def commandLen : Nat := c.body.length + 1

/-- `MatchBytes`. -/
def matchBytes (off : Nat) (literal : Text) : Bool :=
  (c.memory.drop off).take literal.length = literal

/-- The nick of the sender at a place, and the character after it. -/
def nickAt (off : Nat) (sNick : Text) (next : UInt8) : Bool :=
  c.memory[off + sNick.length]? = some next && c.matchBytes off sNick

/-- A `Multi` command without its `Multi`. -/
def single (bMulti : Bool) : Text :=
  if bMulti then (c.sCommand.set 5 dollar).drop 5 else c.sCommand

end DcCommand

/-- What a handler looks at of a sender: `m_sNick` and the bits of the addresses are
those of `InfoOwner`. A second address is only there beside one of IPv6. -/
structure Sender extends InfoOwner where
  sIP : Text
  sIPv4 : Text
  ipv4Active : Bool
  ipv6Active : Bool
  tagEmpty : Bool
  noIpCheck : Bool
  noSearchLimits : Bool
  second : ipv6 = true → ipv4 = true → sIPv4 ≠ []
  only : ipv6 = false → sIPv4 = []

structure OtherUser where
  sNick : Text
  ipv4 : Bool
  ipv6 : Bool
  validNick : ValidNick sNick
  deriving DecidableEq

/-- What a handler asks the rest of the hub. `findUser` gives a user other than the
sender in `STATE_ADDED`; `passes` is whether the checks against floods let the command
through. -/
structure Hub where
  findUser : Text → Option OtherUser
  found : ∀ s o, findUser s = some o → iequals o.sNick s = true
  passes : Bool
  maxCtmLen : Nat
  minSearchLen : Nat
  maxSearchLen : Nat

/-! ## What lies where in the buffer -/

section
variable {c : DcCommand} {off : Nat} {w : Text}

theorem DcCommand.matchBytes_iff : c.matchBytes off w = true ↔ w <+: c.memory.drop off := by
  rw [matchBytes, decide_eq_true_eq, eq_comm, List.prefix_iff_eq_take]

/-- A text without a pipe that is found in the buffer, not behind the command, is in it. -/
theorem DcCommand.prefix_memory_iff (inside : off ≤ c.body.length) (noPipe : pipe ∉ w) :
    w <+: c.memory.drop off ↔ w <+: c.body.drop off := by
  have split : c.memory.drop off = c.body.drop off ++ pipe :: 0 :: c.behind := by
    rw [memory, sCommand, List.append_assoc, List.drop_append_of_le_length inside]
    rfl
  rw [split]
  constructor
  · intro starts
    by_cases le : w.length ≤ (c.body.drop off).length
    · exact List.prefix_of_prefix_length_le starts (List.prefix_append _ _) le
    · have longer : c.body.drop off ++ [pipe] <+: w := by
        apply List.prefix_of_prefix_length_le _ starts
        · rw [List.length_append, List.length_singleton]
          omega
        · exact ⟨0 :: c.behind, by simp⟩
      have mem : pipe ∈ w := longer.subset (by simp)
      exact absurd mem noPipe
  · intro starts
    exact starts.trans (List.prefix_append _ _)

/-- A command that starts with a word is the word and the rest. -/
theorem DcCommand.body_of_word (starts : c.matchBytes 0 w = true) (noPipe : pipe ∉ w) :
    ∃ rest, c.body = w ++ rest := by
  obtain ⟨rest, eq⟩ := (prefix_memory_iff (Nat.zero_le _) noPipe).mp (matchBytes_iff.mp starts)
  exact ⟨rest, eq.symm⟩

theorem DcCommand.nickAt_iff {sNick : Text} {next : UInt8} :
    c.nickAt off sNick next = true ↔ sNick ++ [next] <+: c.memory.drop off := by
  rw [nickAt, Bool.and_eq_true, decide_eq_true_eq, matchBytes_iff]
  constructor
  · rintro ⟨next_, rest, eq⟩
    have at_ : (c.memory.drop off)[sNick.length]? = some next := by
      rw [List.getElem?_drop]
      exact next_
    rw [← eq, List.getElem?_append_right (Nat.le_refl _), Nat.sub_self] at at_
    cases rest with
    | nil => simp at at_
    | cons a rest =>
      have same : a = next := by simpa using at_
      exact ⟨rest, by rw [← eq, same, List.append_assoc, List.singleton_append]⟩
  · rintro ⟨rest, eq⟩
    have at_ : (c.memory.drop off)[sNick.length]? = some next := by
      rw [← eq, List.append_assoc, List.getElem?_append_right (Nat.le_refl _), Nat.sub_self]
      rfl
    rw [List.getElem?_drop] at at_
    exact ⟨at_, next :: rest, by rw [← eq, List.append_assoc, List.singleton_append]⟩

end

end FlyHub.Commands
