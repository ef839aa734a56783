import FlyHub.Broadcast.Position
import FlyHub.Connection.RecvBuffer

/-!
# Chat

`ChatDeflood` and `Chat` look at a chat before the scripts do. `ProcessCmds` later tries
it as the name of a text file and as a command to the hub, which both put an end of text
in the place of its pipe for a while, and hands it to `SendChat2All` if it is neither.
-/

namespace FlyHub.Commands

open FlyHub.Broadcast FlyHub.Connection

/-- What the chat of a user depends on. -/
structure ChatUser where
  sNick : Text
  /-- `NOCHATLIMITS`. -/
  noChatLimits : Bool

structure ChatSettings where
  /-- `SETSHORT_MAX_CHAT_LEN`. -/
  maxChatLen : Nat
  /-- `SETTXT_CHAT_COMMANDS_PREFIXES`. -/
  prefixes : Text
  enableTextFiles : Bool
  /-- There is a text file of this name. -/
  textFile : Text → Bool
  /-- A command to the hub that `DoCommand` has a handler for, but `!me`. -/
  handler : Text → Bool

/-- The texts `ChatDeflood` and `Chat` let through. Whether they do also depends on how
much the user says. -/
def accepted (set : ChatSettings) (u : ChatUser) (sCommand : Text) : Bool :=
  sCommand.getLast? = some pipe && startsWith sCommand 60 &&
    (sCommand.drop 1).take u.sNick.length = u.sNick &&
    sCommand[u.sNick.length + 1]? = some 62 && sCommand[u.sNick.length + 2]? = some 32 &&
    u.sNick.length + 5 ≤ sCommand.length &&
    (u.noChatLimits || set.maxChatLen = 0 ||
      sCommand.length - u.sNick.length - 4 ≤ set.maxChatLen)

/-- The last byte of the buffer is replaced. -/
def setLast (buffer : Text) (c : UInt8) : Text := buffer.set (buffer.length - 1) c

/-- What a chat turns out to be that is not sent on as it is. -/
inductive Handled where
  | textFile
  | hubCommand
  /-- `!me`: a text about the user goes out. -/
  | action (sData : Text)
  deriving DecidableEq

section
variable (set : ChatSettings) (u : ChatUser)

/-- `DoCommand`, with the buffer it leaves when it does nothing. -/
def doCommand (buffer : Text) : Except Handled Text :=
  let n := u.sNick.length
  if ((buffer.drop (n + 4)).take 3).map lowerCase = ascii "me " then
    if 4 < buffer.length - (n + 4) then
      .error (.action (ascii "* " ++ u.sNick ++ buffer.drop (n + 6)))
    else .ok buffer
  else
    let buffer := setLast buffer 0
    if set.handler (cText (buffer.drop (n + 4))) then .error .hubCommand else .ok buffer

/-- The text files, whose names end before the pipe. -/
def processTextFilesCmd (buffer : Text) : Except Handled Text :=
  if set.enableTextFiles then
    let cut := setLast buffer 0
    if set.textFile (cText (cut.drop (u.sNick.length + 4))) then .error .textFile
    else .ok (setLast cut pipe)
  else .ok buffer

/-- The built-in commands. -/
def processHubCommand (buffer : Text) : Except Handled Text :=
  if 6 ≤ buffer.length - u.sNick.length then
    match doCommand set u buffer with
    | .error handled => .error handled
    | .ok buffer => .ok (setLast buffer pipe)
  else .ok buffer

/-- The `CHAT` case of `ProcessCmds`: the text for `SendChat2All`. -/
def processChat (buffer : Text) : Except Handled Text :=
  if set.prefixes.contains (buffer.getD (u.sNick.length + 3) 0) then
    match processTextFilesCmd set u buffer with
    | .error handled => .error handled
    | .ok buffer => processHubCommand set u buffer
  else .ok buffer

end

section
variable {set : ChatSettings} {u : ChatUser} {buffer left sCommand : Text}

theorem setLast_setLast (buffer : Text) (a b : UInt8) :
    setLast (setLast buffer a) b = setLast buffer b := by
  simp [setLast]

theorem setLast_pipe (ends : buffer.getLast? = some pipe) : setLast buffer pipe = buffer := by
  rw [List.getLast?_eq_getElem?] at ends
  obtain ⟨lt, same⟩ := List.getElem?_eq_some_iff.mp ends
  rw [setLast, ← same, List.set_getElem_self]

/-- What `DoCommand` leaves differs in its last byte at most. -/
theorem doCommand_left (ends : buffer.getLast? = some pipe)
    (goes : doCommand set u buffer = .ok left) : setLast left pipe = buffer := by
  unfold doCommand at goes
  dsimp only at goes
  split at goes
  · split at goes
    · cases goes
    · obtain rfl := Except.ok.inj goes
      exact setLast_pipe ends
  · split at goes
    · cases goes
    · obtain rfl := Except.ok.inj goes
      rw [setLast_setLast, setLast_pipe ends]

theorem processTextFilesCmd_left (ends : buffer.getLast? = some pipe)
    (goes : processTextFilesCmd set u buffer = .ok left) : left = buffer := by
  unfold processTextFilesCmd at goes
  dsimp only at goes
  split at goes
  · split at goes
    · cases goes
    · obtain rfl := Except.ok.inj goes
      rw [setLast_setLast, setLast_pipe ends]
  · exact (Except.ok.inj goes).symm

theorem processHubCommand_left (ends : buffer.getLast? = some pipe)
    (goes : processHubCommand set u buffer = .ok left) : left = buffer := by
  unfold processHubCommand at goes
  split at goes
  · split at goes
    · cases goes
    · rename_i rest eq
      obtain rfl := Except.ok.inj goes
      exact doCommand_left ends eq
  · exact (Except.ok.inj goes).symm

/-- A chat that is neither the name of a text file nor a command is left as it came. -/
theorem processChat_left (ends : buffer.getLast? = some pipe)
    (goes : processChat set u buffer = .ok left) : left = buffer := by
  unfold processChat at goes
  split at goes
  · split at goes
    · cases goes
    · rename_i rest eq
      obtain rfl := processTextFilesCmd_left ends eq
      exact processHubCommand_left ends goes
  · exact (Except.ok.inj goes).symm

/-- The broadcast of a chat is the command itself unless the command is longer than the
blank item that was made for it. -/
theorem chat_intact_iff (m : NewItems UInt8) (arrival : List (QueueItem UInt8))
    (chatInsert : Bool) (later : List (NewItems.Op UInt8)) {sData : Text}
    (ok : accepted set u sCommand = true) (goes : processChat set u sCommand = .ok sData) :
    (m.broadcastChat arrival chatInsert later sData).1.commandAt
        (m.broadcastChat arrival chatInsert later sData).2 = some sCommand ↔
      (arrival = [] ∧ chatInsert = false) ∨ sCommand.length ≤ 8192 := by
  simp only [accepted, Bool.and_eq_true, decide_eq_true_eq] at ok
  obtain ⟨⟨⟨⟨⟨⟨ends, -⟩, -⟩, -⟩, -⟩, -⟩, -⟩ := ok
  obtain rfl := processChat_left ends goes
  have some_ : sData ≠ [] := by
    rintro rfl
    cases ends
  rw [m.broadcastChat_command later some_, Option.some.injEq]
  by_cases blank : arrival ≠ [] ∨ chatInsert = true
  · have given : ¬ (arrival = [] ∧ chatInsert = false) := by
      rintro ⟨none_, noBit⟩
      rcases blank with blank | blank
      · exact blank none_
      · rw [noBit] at blank
        cases blank
    rw [if_pos blank, or_iff_right given]
    exact ⟨fun same => by
      rw [← same, List.length_take]
      exact Nat.min_le_left _ _, List.take_of_length_le⟩
  · simp only [not_or, ne_eq, not_not, Bool.not_eq_true] at blank
    simp [blank]

end

/-- A user without chat limits, on a hub that has no commands. -/
def talker : ChatUser := ⟨ascii "a", true⟩

def plainSettings : ChatSettings := ⟨0, [33], false, fun _ => false, fun _ => false⟩

/-- A chat of so many letters. -/
def letters (n : Nat) : Text := ascii "<a> " ++ (List.replicate n 97 ++ [pipe])

theorem letters_length (n : Nat) : (letters n).length = n + 5 := by
  simp [letters, ascii]

theorem letters_accepted {n : Nat} (some_ : 0 < n) :
    accepted plainSettings talker (letters n) = true ∧
      processChat plainSettings talker (letters n) = .ok (letters n) := by
  obtain ⟨k, rfl⟩ := Nat.exists_eq_add_of_lt some_
  have start : letters (0 + k + 1) = ascii "<a> a" ++ (List.replicate k 97 ++ [pipe]) := by
    rw [letters, Nat.zero_add, List.replicate_succ]
    rfl
  constructor
  · have ends : (letters (0 + k + 1)).getLast? = some pipe := by
      rw [start, ← List.append_assoc, List.getLast?_concat]
    simp only [accepted, ends]
    rw [start]
    simp [startsWith, talker, plainSettings, ascii]
  · rw [start]
    rfl

theorem short_chat_intact :
    (accepted plainSettings talker (letters 1) = true ∧
      processChat plainSettings talker (letters 1) = .ok (letters 1)) ∧
    ((NewItems.broadcastChat ⟨[], 0, by decide, by decide⟩ [⟨.quit, [], []⟩] false []
        (letters 1)).1.commandAt
      (NewItems.broadcastChat ⟨[], 0, by decide, by decide⟩ [⟨.quit, [], []⟩] false []
        (letters 1)).2 = some (letters 1) ↔
      ([(⟨.quit, [], []⟩ : QueueItem UInt8)] = [] ∧ false = false) ∨ (letters 1).length ≤ 8192) :=
  ⟨letters_accepted (by decide),
    chat_intact_iff _ [⟨.quit, [], []⟩] false [] (letters_accepted (by decide)).1
      (letters_accepted (by decide)).2⟩

/-- A chat of more than 8 KiB that the scripts answer is cut. -/
theorem long_chat_cut : ¬ ∀ (set : ChatSettings) (u : ChatUser) (sCommand : Text)
    (m : NewItems UInt8) (arrival : List (QueueItem UInt8)) (chatInsert : Bool)
    (later : List (NewItems.Op UInt8)) (sData : Text), accepted set u sCommand = true →
    processChat set u sCommand = .ok sData →
    (m.broadcastChat arrival chatInsert later sData).1.commandAt
      (m.broadcastChat arrival chatInsert later sData).2 = some sCommand := by
  intro all
  obtain ⟨ok, goes⟩ := letters_accepted (by decide : 0 < 8192)
  have intact := all _ _ _ ⟨[], 0, by decide, by decide⟩ [⟨.quit, [], []⟩] false [] _ ok goes
  have some_ : letters 8192 ≠ [] := by
    intro none_
    have length := letters_length 8192
    rw [none_] at length
    cases length
  rw [NewItems.broadcastChat_command _ _ some_, if_pos (.inl (List.cons_ne_nil _ _)),
    Option.some.injEq] at intact
  have length := congrArg List.length intact
  rw [List.length_take, letters_length, NewItems.maxBlankCmdSize] at length
  omega

end FlyHub.Commands
