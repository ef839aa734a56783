import FlyHub.Broadcast.Incremental

/-!
# Text files

The texts of a directory are commands: the one whose name a user sends is the answer. A text is
kept with the pipe that ends a command behind it, and a zero that ends the text. The length of an
answer is counted from the lengths of its parts, and its bytes are printed.
-/

namespace FlyHub.Commands

open FlyHub.Broadcast

/-- An entry of the directory, with what `stat` and `fread` find. -/
structure DirEntry where
  name : Text
  directory : Bool
  content : Text

namespace DirEntry

/-- `RefreshTextFiles` takes the entry. -/
def isTextFile (e : DirEntry) : Bool :=
  !e.directory && 4 ≤ e.name.length && iequals (e.name.drop (e.name.length - 4)) (ascii ".txt") &&
    e.content ≠ []

def command (e : DirEntry) : Text := e.name.take (e.name.length - 4)

end DirEntry

structure TextFile where
  sCommand : Text
  sText : Text

/-- The text is read into a string of two bytes more. -/
def TextFile.ofEntry (e : DirEntry) : TextFile where
  sCommand := e.command
  sText := e.content ++ [124, 0]

structure TextFilesManager where
  textFiles : List TextFile

/-- The nick that the hub speaks under, and where it sends the texts. -/
structure TextSettings where
  hubSec : CText
  sendTextFilesAsPM : Bool

/-- `snprintf` into `n` bytes that are zero, if the length fits an `int`. -/
def snprintf (n : Nat) (text : Text) : Option Text :=
  if 2147483647 < text.length then none
  else
    let printed := text.take (n - 1)
    some (printed ++ List.replicate (n - printed.length) 0)

section
variable (set : TextSettings) (sNick : CText) (bInPM : Bool)

/-- What stands before the text. -/
def TextSettings.head : Text :=
  let hub := set.hubSec.text
  if bInPM then
    ascii "$To: " ++ sNick.text ++ ascii " From: " ++ hub ++ ascii " $<" ++ hub ++ ascii "> "
  else ascii "<" ++ hub ++ ascii "> "

/-- `szChatLen`. -/
def TextFile.chatLen (f : TextFile) : Nat :=
  let szHubSecLen := set.hubSec.text.length
  if bInPM then 18 + sNick.text.length + 2 * szHubSecLen + f.sText.length
  else 4 + szHubSecLen + f.sText.length

/-- What `SendCharDelayed` is handed. -/
def TextFile.answer (f : TextFile) : Option Text :=
  let szChatLen := f.chatLen set sNick bInPM
  (snprintf szChatLen (set.head sNick bInPM ++ cText f.sText)).map fun sMSG =>
    sMSG.take (szChatLen - 1)

end

namespace TextFilesManager

/-- `RefreshTextFiles`. No entries are given if there is no directory. -/
def refreshTextFiles (m : TextFilesManager) (enabled : Bool) (entries : List DirEntry) :
    TextFilesManager :=
  if !enabled then m
  else
    { textFiles := entries.foldl
        (fun files e => if e.isTextFile then TextFile.ofEntry e :: files else files) [] }

/-- `ProcessTextFilesCmd`: whether there is such a text, and what is queued for the user. -/
def processTextFilesCmd (m : TextFilesManager) (set : TextSettings) (sNick : CText)
    (sCommand : Text) (bFromPM : Bool) : Bool × Option Text :=
  match m.textFiles.find? fun f => iequals f.sCommand sCommand with
  | none => (false, none)
  | some f => (true, f.answer set sNick (set.sendTextFilesAsPM || bFromPM))

end TextFilesManager

/-- The entry that answers a command. The last one found comes first. -/
def answering (entries : List DirEntry) (sCommand : Text) : Option DirEntry :=
  (entries.filter DirEntry.isTextFile).reverse.find? fun e => iequals e.command sCommand

/-- The answer that is one command. -/
def exactAnswer (set : TextSettings) (sNick : CText) (bInPM : Bool) (e : DirEntry) : Text :=
  set.head sNick bInPM ++ e.content ++ [124]

section
variable {set : TextSettings} {sNick : CText} {bInPM : Bool} {e : DirEntry}

theorem snprintf_fits {n : Nat} {text : Text} (short : text.length ≤ 2147483647)
    (fits : text.length ≤ n - 1) :
    snprintf n text = some (text ++ List.replicate (n - text.length) 0) := by
  rw [snprintf, if_neg (Nat.not_lt.mpr short)]
  simp only [List.take_of_length_le fits]

theorem cText_sText (clean : 0 ∉ e.content) :
    cText (TextFile.ofEntry e).sText = e.content ++ [124] := by
  have split : (TextFile.ofEntry e).sText = (e.content ++ [124]) ++ [0] := by
    simp [TextFile.ofEntry]
  have nonzero : ∀ c ∈ e.content ++ [124], decide (c ≠ 0) = true := by
    intro c mem
    rw [decide_eq_true_eq]
    rintro rfl
    rcases List.mem_append.mp mem with inside | pipe
    · exact clean inside
    · exact absurd (List.mem_singleton.mp pipe) (by decide)
  rw [cText, split, List.takeWhile_append_of_pos nonzero]
  simp

/-- The zero behind the text is counted twice: once with the text, and once as the byte that
is not sent. -/
theorem chatLen_eq :
    (TextFile.ofEntry e).chatLen set sNick bInPM = (exactAnswer set sNick bInPM e).length + 2 := by
  unfold TextFile.chatLen exactAnswer TextSettings.head TextFile.ofEntry
  cases bInPM with
  | true =>
    have fixed : (ascii "$To: ").length = 5 ∧ (ascii " From: ").length = 7 ∧
        (ascii " $<").length = 3 ∧ (ascii "> ").length = 2 := by decide
    simp only [if_true, List.length_append, fixed, List.length_cons, List.length_nil]
    omega
  | false =>
    have fixed : (ascii "<").length = 1 ∧ (ascii "> ").length = 2 := by decide
    simp only [Bool.false_eq_true, if_false, List.length_append, fixed, List.length_cons,
      List.length_nil]
    omega

/-- The answer has a zero behind the pipe, unless it is too long to be printed. -/
theorem answer_eq (clean : 0 ∉ e.content) :
    (TextFile.ofEntry e).answer set sNick bInPM =
      if 2147483647 < (exactAnswer set sNick bInPM e).length then none
      else some (exactAnswer set sNick bInPM e ++ [0]) := by
  have text : set.head sNick bInPM ++ cText (TextFile.ofEntry e).sText =
      exactAnswer set sNick bInPM e := by
    rw [cText_sText clean, exactAnswer, List.append_assoc]
  unfold TextFile.answer
  dsimp only
  rw [text, chatLen_eq]
  generalize exactAnswer set sNick bInPM e = msg
  by_cases long : 2147483647 < msg.length
  · rw [if_pos long]
    unfold snprintf
    rw [if_pos long]
    rfl
  · have fits : msg.length ≤ msg.length + 2 - 1 := by omega
    have zeros : List.replicate (msg.length + 2 - msg.length) (0 : UInt8) = [0, 0] := by
      rw [Nat.add_sub_cancel_left]
      rfl
    rw [if_neg long, snprintf_fits (Nat.not_lt.mp long) fits, Option.map_some, zeros]
    have sent : msg ++ [0, 0] = msg ++ [0] ++ [0] := by simp
    rw [sent, List.take_left' (by simp)]

theorem foldl_textFiles (entries : List DirEntry) (files : List TextFile) :
    entries.foldl (fun files e => if e.isTextFile then TextFile.ofEntry e :: files else files)
      files = (entries.filter DirEntry.isTextFile).reverse.map TextFile.ofEntry ++ files := by
  induction entries generalizing files with
  | nil => rfl
  | cons e entries ih =>
    rw [List.foldl_cons, ih]
    by_cases taken : e.isTextFile = true
    · simp [taken]
    · simp [taken]

namespace TextFilesManager

/-- A command is answered from the entry that it names. -/
theorem processTextFilesCmd_eq (m : TextFilesManager) (entries : List DirEntry)
    (sCommand : Text) (bFromPM : Bool) :
    (m.refreshTextFiles true entries).processTextFilesCmd set sNick sCommand bFromPM =
      match answering entries sCommand with
      | none => (false, none)
      | some e =>
        (true, (TextFile.ofEntry e).answer set sNick (set.sendTextFilesAsPM || bFromPM)) := by
  have files : (m.refreshTextFiles true entries).textFiles =
      (entries.filter DirEntry.isTextFile).reverse.map TextFile.ofEntry := by
    simp only [refreshTextFiles, Bool.not_true, Bool.false_eq_true, if_false, foldl_textFiles,
      List.append_nil]
  unfold processTextFilesCmd answering
  rw [files, List.find?_map]
  show (match ((entries.filter DirEntry.isTextFile).reverse.find?
    fun e => iequals e.command sCommand).map TextFile.ofEntry with | none => _ | some f => _) = _
  cases (entries.filter DirEntry.isTextFile).reverse.find? fun e => iequals e.command sCommand with
  | none => rfl
  | some e => rfl

/-- No text file is answered with one command and nothing behind it. -/
theorem answer_not_exact (m : TextFilesManager) (entries : List DirEntry) (sCommand : Text)
    (bFromPM : Bool) (found : answering entries sCommand = some e) (clean : 0 ∉ e.content) :
    ((m.refreshTextFiles true entries).processTextFilesCmd set sNick sCommand bFromPM).2 ≠
      some (exactAnswer set sNick (set.sendTextFilesAsPM || bFromPM) e) := by
  rw [processTextFilesCmd_eq, found]
  show (TextFile.ofEntry e).answer set sNick _ ≠ _
  rw [answer_eq clean]
  intro queued
  split at queued
  · cases queued
  · have longer := congrArg List.length (Option.some.inj queued)
    rw [List.length_append] at longer
    simp at longer

end TextFilesManager

end

/-! ## The rules of a hub -/

def rules : DirEntry := ⟨ascii "rules.txt", false, ascii "Be nice"⟩

def securityBot : TextSettings := ⟨⟨ascii "Hub-Security", by decide⟩, false⟩

def reader : CText := ⟨ascii "reader", by decide⟩

theorem rules_not_exact :
    answering [rules] (ascii "Rules") = some rules ∧ 0 ∉ rules.content ∧
      (((TextFilesManager.mk []).refreshTextFiles true [rules]).processTextFilesCmd securityBot
        reader (ascii "Rules") false).2 ≠ some (exactAnswer securityBot reader false rules) :=
  ⟨rfl, by decide, TextFilesManager.answer_not_exact ⟨[]⟩ [rules] (ascii "Rules") false rfl
    (by decide)⟩

/-- The rules go out with a zero behind them. -/
theorem rules_zero :
    ¬ ∀ (entries : List DirEntry) (e : DirEntry) (sCommand : Text) (set : TextSettings)
      (sNick : CText) (bFromPM : Bool), answering entries sCommand = some e → e.content ≠ [] →
        0 ∉ e.content → 124 ∉ e.content →
        (((TextFilesManager.mk []).refreshTextFiles true entries).processTextFilesCmd set sNick
          sCommand bFromPM).2 =
            some (exactAnswer set sNick (set.sendTextFilesAsPM || bFromPM) e) := by
  intro exact_
  have queued := exact_ [rules] rules (ascii "rules") securityBot reader false rfl (by decide)
    (by decide) (by decide)
  have zero : (((TextFilesManager.mk []).refreshTextFiles true [rules]).processTextFilesCmd
      securityBot reader (ascii "rules") false).2 =
        some (ascii "<Hub-Security> Be nice|" ++ [0]) := by decide +kernel
  rw [zero] at queued
  exact absurd queued (by decide +kernel)

end FlyHub.Commands
