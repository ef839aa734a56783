import FlyHub.Lib.Derived
import FlyHub.Lib.Occurrence
import FlyHub.Settings.File

/-!
# Texts made from the settings

The hub keeps the texts it sends often, and makes those again that a new value of a setting
changes. So what it sends is what the settings say, but for some texts that no one thought of.
-/

namespace FlyHub.Settings

open FlyHub.Lib FlyHub.Lists

inductive PreTxtIds where
  | hubSec
  | motd
  | hubNameWlcm
  | hubName
  | redirectAddress
  | regOnlyMsg
  | shareLimitMsg
  | slotsLimitMsg
  | hubSlotRatioMsg
  | maxHubsLimitMsg
  | noTagMsg
  | tempBanRedirAddress
  | permBanRedirAddress
  | nickLimitMsg
  | hubBotMyInfo
  | opChatHello
  | opChatMyInfo
  deriving DecidableEq

/-- What is kept: the texts and the two limits of the share. -/
inductive Cell where
  | text (id : PreTxtIds)
  | minShare
  | maxShare
  deriving DecidableEq

abbrev Cell.Value : Cell → Type
  | .text _ => Text
  | .minShare | .maxShare => Nat

abbrev Cells := ∀ k : Cell, k.Value

/-- The texts of a language that are used. -/
structure Lan where
  thisHubIsRunning : Text
  uptime : Text
  unlimited : Text

/-- What the texts are made from. -/
structure Source where
  values : Values
  motd : Text
  lan : Lan

/-- The text with each mark that follows a `%` replaced by a value. The marks go on for `skip`
characters. -/
def fill (marks : List (Text × Text)) : Nat → Text → Text
  | _, [] => []
  | skip + 1, _ :: s => fill marks skip s
  | 0, c :: s =>
    if c = 37 then
      match marks.find? fun m => m.1.isPrefixOf s with
      | some m => m.2 ++ fill marks m.1.length s
      | none => c :: fill marks 0 s
    else c :: fill marks 0 s

def forceMove (address : Text) : Text := ascii "$ForceMove " ++ cText address ++ ascii "|"

/-- `%hd` of a number that is not negative. -/
def shortText (i : Int) : Text := decimal i.toNat

def units : List String :=
  ["B", "kB", "MB", "GB", "TB", "PB", "EB", " ", " ", " ", " ", " ", " ", " ", " ", " "]

def minMark : Text := ascii "[min]"

def maxMark : Text := ascii "[max]"

section
variable (title : Text) (s : Source) (c : Cells)

def hubSec : Text := c (.text .hubSec)

def redirectAddress : Text := c (.text .redirectAddress)

def appendRedirectAddress (bool : SetBoolIds) (txt : SetTxtIds) : Text :=
  if s.values.bools bool then
    if s.values.texts txt ≠ [] then forceMove (s.values.texts txt)
    else cText (redirectAddress c)
  else []

def beginLimitMessage : Text := ascii "<" ++ cText (hubSec c) ++ ascii "> "

def endLimitMessage (msg : Text) (bool : SetBoolIds) (txt : SetTxtIds) : Text :=
  msg ++ ascii "|" ++ appendRedirectAddress s c bool txt

/-- A message with a limit: the marks in its text stand for the limits. -/
def limitMessage (marks : List (Text × Text)) (txt : SetTxtIds) (bool : SetBoolIds)
    (redir : SetTxtIds) : Text :=
  endLimitMessage s c (beginLimitMessage c ++ fill marks 0 (s.values.texts txt)) bool redir

def limitOrUnlimited (id : SetShortIds) : Text :=
  if s.values.shorts id ≠ 0 then shortText (s.values.shorts id) else s.lan.unlimited

def updateHubSec : Text :=
  if s.values.bools .useBotNickAsHubSec then s.values.texts .botNick else ascii "Hub-Security"

def updateMotd : Text :=
  if s.values.bools .disableMotd || s.motd = [] then []
  else if s.values.bools .motdAsPm then
    ascii "$To: %s From: " ++ cText (hubSec c) ++ ascii " $<" ++ cText (hubSec c) ++ ascii "> " ++
      cText s.motd ++ ascii "|"
  else ascii "<" ++ cText (hubSec c) ++ ascii "> " ++ cText s.motd ++ ascii "|"

def updateHubName : Text :=
  if s.values.texts .hubTopic = [] then
    ascii "$HubName " ++ cText (s.values.texts .hubName) ++ ascii "|"
  else
    ascii "$HubName " ++ cText (s.values.texts .hubName) ++ ascii " - " ++
      cText (s.values.texts .hubTopic) ++ ascii "|"

def updateHubNameWelcome : Text :=
  updateHubName s ++ ascii "<" ++ cText (hubSec c) ++ ascii "> " ++ cText s.lan.thisHubIsRunning ++
    ascii " " ++ title ++ ascii " (" ++ cText s.lan.uptime ++ ascii ": "

def updateRedirectAddress : Text :=
  if s.values.texts .redirectAddress = [] then []
  else forceMove (s.values.texts .redirectAddress)

def updateRegOnlyMessage : Text :=
  ascii "<" ++ cText (hubSec c) ++ ascii "> " ++ cText (s.values.texts .regOnlyMsg) ++ ascii "|" ++
    appendRedirectAddress s c .regOnlyRedir .regOnlyRedirAddress

def shareText (limit unit : SetShortIds) : Text :=
  shortText (s.values.shorts limit) ++ ascii " " ++
    ascii (units.getD (s.values.shorts unit).toNat "")

def updateShareLimitMessage : Text :=
  limitMessage s c
    [(minMark, if c .minShare ≠ 0 then shareText s .minShareLimit .minShareUnits else ascii "0 B"),
      (maxMark, if c .maxShare ≠ 0 then shareText s .maxShareLimit .maxShareUnits
        else s.lan.unlimited)]
    .shareLimitMsg .shareLimitRedir .shareLimitRedirAddress

def updateSlotsLimitMessage : Text :=
  limitMessage s c
    [(minMark, shortText (s.values.shorts .minSlotsLimit)),
      (maxMark, limitOrUnlimited s .maxSlotsLimit)]
    .slotsLimitMsg .slotsLimitRedir .slotsLimitRedirAddress

def updateHubSlotRatioMessage : Text :=
  limitMessage s c
    [(ascii "[hubs]", shortText (s.values.shorts .hubSlotRatioHubs)),
      (ascii "[slots]", shortText (s.values.shorts .hubSlotRatioSlots))]
    .hubSlotRatioMsg .hubSlotRatioRedir .hubSlotRatioRedirAddress

/-- Only the first mark is replaced. A text without one is put over the nick it is said by. -/
def updateMaxHubsLimitMessage : Text :=
  let msg := s.values.texts .maxHubsLimitMsg
  endLimitMessage s c
    (match firstAt (ascii "%[hubs]") (cText msg) with
      | some i => beginLimitMessage c ++ msg.take i ++ shortText (s.values.shorts .maxHubsLimit) ++
          msg.drop (i + 7)
      | none => msg)
    .maxHubsLimitRedir .maxHubsLimitRedirAddress

def updateNoTagMessage : Text :=
  if s.values.shorts .noTagOption = 0 then []
  else
    ascii "<" ++ cText (hubSec c) ++ ascii "> " ++ cText (s.values.texts .noTagMsg) ++ ascii "|" ++
      if s.values.shorts .noTagOption = 2 then
        if s.values.texts .noTagRedirAddress ≠ [] then forceMove (s.values.texts .noTagRedirAddress)
        else redirectAddress c
      else []

/-- The address for those who are banned, or that for everyone. -/
def updateBanRedirAddress (txt : SetTxtIds) : Text :=
  if s.values.texts txt ≠ [] then forceMove (s.values.texts txt) else redirectAddress c

def updateTempBanRedirAddress : Text := updateBanRedirAddress s c .tempBanRedirAddress

def updatePermBanRedirAddress : Text := updateBanRedirAddress s c .permBanRedirAddress

def updateNickLimitMessage : Text :=
  limitMessage s c
    [(minMark, shortText (s.values.shorts .minNickLen)), (maxMark, limitOrUnlimited s .maxNickLen)]
    .nickLimitMsg .nickLimitRedir .nickLimitRedirAddress

def botMyInfo (nick description email : SetTxtIds) : Text :=
  ascii "$MyINFO $ALL " ++ cText (s.values.texts nick) ++ ascii " " ++
    cText (s.values.texts description) ++ ascii "$ $ $" ++ cText (s.values.texts email) ++
    ascii "$$|"

def updateBot : Text :=
  if s.values.bools .regBot then botMyInfo s .botNick .botDescription .botEmail else []

def updateOpChatHello : Text :=
  if s.values.bools .regOpChat then
    ascii "$Hello " ++ cText (s.values.texts .opChatNick) ++ ascii "|"
  else []

def updateOpChat : Text :=
  if s.values.bools .regOpChat then botMyInfo s .opChatNick .opChatDescription .opChatEmail
  else []

def share (limit unit : SetShortIds) : Nat :=
  (s.values.shorts limit).toNat * Nat.pow 1024 (s.values.shorts unit).toNat

def compute : Cells
  | .text .hubSec => updateHubSec s
  | .text .motd => updateMotd s c
  | .text .hubNameWlcm => updateHubNameWelcome title s c
  | .text .hubName => updateHubName s
  | .text .redirectAddress => updateRedirectAddress s
  | .text .regOnlyMsg => updateRegOnlyMessage s c
  | .text .shareLimitMsg => updateShareLimitMessage s c
  | .text .slotsLimitMsg => updateSlotsLimitMessage s c
  | .text .hubSlotRatioMsg => updateHubSlotRatioMessage s c
  | .text .maxHubsLimitMsg => updateMaxHubsLimitMessage s c
  | .text .noTagMsg => updateNoTagMessage s c
  | .text .tempBanRedirAddress => updateTempBanRedirAddress s c
  | .text .permBanRedirAddress => updatePermBanRedirAddress s c
  | .text .nickLimitMsg => updateNickLimitMessage s c
  | .text .hubBotMyInfo => updateBot s
  | .text .opChatHello => updateOpChatHello s
  | .text .opChatMyInfo => updateOpChat s
  | .minShare => share s .minShareLimit .minShareUnits
  | .maxShare => share s .maxShareLimit .maxShareUnits

end

/-! ## What is made again -/

/-- Everything that is said by the hub itself. -/
def hubSecCells : List Cell :=
  [.text .hubSec, .text .motd, .text .hubNameWlcm, .text .regOnlyMsg, .text .shareLimitMsg,
    .text .slotsLimitMsg, .text .hubSlotRatioMsg, .text .maxHubsLimitMsg, .text .noTagMsg,
    .text .nickLimitMsg]

def boolCells : SetBoolIds → List Cell
  | .regBot => [.text .hubBotMyInfo]
  | .regOpChat => [.text .opChatHello, .text .opChatMyInfo]
  | .useBotNickAsHubSec => hubSecCells
  | .disableMotd | .motdAsPm => [.text .motd]
  | .regOnlyRedir => [.text .regOnlyMsg]
  | .shareLimitRedir => [.text .shareLimitMsg]
  | .slotsLimitRedir => [.text .slotsLimitMsg]
  | .hubSlotRatioRedir => [.text .hubSlotRatioMsg]
  | .maxHubsLimitRedir => [.text .maxHubsLimitMsg]
  | .nickLimitRedir => [.text .nickLimitMsg]
  | _ => []

def shortCells : SetShortIds → List Cell
  | .minShareLimit | .minShareUnits => [.minShare, .text .shareLimitMsg]
  | .maxShareLimit | .maxShareUnits => [.maxShare, .text .shareLimitMsg]
  | .minSlotsLimit | .maxSlotsLimit => [.text .slotsLimitMsg]
  | .hubSlotRatioHubs | .hubSlotRatioSlots => [.text .hubSlotRatioMsg]
  | .maxHubsLimit => [.text .maxHubsLimitMsg]
  | .noTagOption => [.text .noTagMsg]
  | .minNickLen | .maxNickLen => [.text .nickLimitMsg]
  | _ => []

/-- After a new `redirectAddress` the two for those who are banned are made again where they do
not depend on it. -/
def redirectCells (v : Values) : List Cell :=
  [.text .redirectAddress] ++
  (if v.bools .regOnlyRedir then [.text .regOnlyMsg] else []) ++
  (if v.bools .shareLimitRedir then [.text .shareLimitMsg] else []) ++
  (if v.bools .slotsLimitRedir then [.text .slotsLimitMsg] else []) ++
  (if v.bools .hubSlotRatioRedir then [.text .hubSlotRatioMsg] else []) ++
  (if v.bools .maxHubsLimitRedir then [.text .maxHubsLimitMsg] else []) ++
  (if v.shorts .noTagOption = 2 then [.text .noTagMsg] else []) ++
  (if v.texts .tempBanRedirAddress ≠ [] then [.text .tempBanRedirAddress] else []) ++
  (if v.texts .permBanRedirAddress ≠ [] then [.text .permBanRedirAddress] else []) ++
  (if v.bools .nickLimitRedir then [.text .nickLimitMsg] else [])

def textCells (v : Values) : SetTxtIds → List Cell
  | .botNick => hubSecCells ++ [.text .hubBotMyInfo]
  | .botDescription | .botEmail => [.text .hubBotMyInfo]
  | .opChatNick => [.text .opChatHello, .text .opChatMyInfo]
  | .hubTopic | .hubName => [.text .hubNameWlcm, .text .hubName]
  | .language => [.text .hubNameWlcm]
  | .redirectAddress => redirectCells v
  | .regOnlyMsg | .regOnlyRedirAddress => [.text .regOnlyMsg]
  | .shareLimitMsg | .shareLimitRedirAddress => [.text .shareLimitMsg]
  | .slotsLimitMsg | .slotsLimitRedirAddress => [.text .slotsLimitMsg]
  | .hubSlotRatioMsg | .hubSlotRatioRedirAddress => [.text .hubSlotRatioMsg]
  | .maxHubsLimitMsg | .maxHubsLimitRedirAddress => [.text .maxHubsLimitMsg]
  | .noTagMsg | .noTagRedirAddress => [.text .noTagMsg]
  | .tempBanRedirAddress => [.text .tempBanRedirAddress]
  | .permBanRedirAddress => [.text .permBanRedirAddress]
  | .nickLimitMsg | .nickLimitRedirAddress => [.text .nickLimitMsg]
  | _ => []

/-- The order of `UpdateAll`, and then the two bots. -/
def allCells : List Cell :=
  [.text .hubSec, .text .motd, .text .hubNameWlcm, .text .hubName, .text .redirectAddress,
    .text .regOnlyMsg, .minShare, .maxShare, .text .shareLimitMsg, .text .slotsLimitMsg,
    .text .hubSlotRatioMsg, .text .maxHubsLimitMsg, .text .noTagMsg, .text .tempBanRedirAddress,
    .text .permBanRedirAddress, .text .nickLimitMsg, .text .hubBotMyInfo, .text .opChatHello,
    .text .opChatMyInfo]

/-! ## What each is made from -/

def Cell.bools : Cell → List SetBoolIds
  | .text .hubSec => [.useBotNickAsHubSec]
  | .text .motd => [.disableMotd, .motdAsPm]
  | .text .regOnlyMsg => [.regOnlyRedir]
  | .text .shareLimitMsg => [.shareLimitRedir]
  | .text .slotsLimitMsg => [.slotsLimitRedir]
  | .text .hubSlotRatioMsg => [.hubSlotRatioRedir]
  | .text .maxHubsLimitMsg => [.maxHubsLimitRedir]
  | .text .nickLimitMsg => [.nickLimitRedir]
  | .text .hubBotMyInfo => [.regBot]
  | .text .opChatHello | .text .opChatMyInfo => [.regOpChat]
  | _ => []

def Cell.shorts : Cell → List SetShortIds
  | .text .shareLimitMsg => [.minShareLimit, .minShareUnits, .maxShareLimit, .maxShareUnits]
  | .text .slotsLimitMsg => [.minSlotsLimit, .maxSlotsLimit]
  | .text .hubSlotRatioMsg => [.hubSlotRatioHubs, .hubSlotRatioSlots]
  | .text .maxHubsLimitMsg => [.maxHubsLimit]
  | .text .noTagMsg => [.noTagOption]
  | .text .nickLimitMsg => [.minNickLen, .maxNickLen]
  | .minShare => [.minShareLimit, .minShareUnits]
  | .maxShare => [.maxShareLimit, .maxShareUnits]
  | _ => []

def Cell.texts : Cell → List SetTxtIds
  | .text .hubSec => [.botNick]
  | .text .hubNameWlcm | .text .hubName => [.hubTopic, .hubName]
  | .text .redirectAddress => [.redirectAddress]
  | .text .regOnlyMsg => [.regOnlyMsg, .regOnlyRedirAddress]
  | .text .shareLimitMsg => [.shareLimitMsg, .shareLimitRedirAddress]
  | .text .slotsLimitMsg => [.slotsLimitMsg, .slotsLimitRedirAddress]
  | .text .hubSlotRatioMsg => [.hubSlotRatioMsg, .hubSlotRatioRedirAddress]
  | .text .maxHubsLimitMsg => [.maxHubsLimitMsg, .maxHubsLimitRedirAddress]
  | .text .noTagMsg => [.noTagMsg, .noTagRedirAddress]
  | .text .tempBanRedirAddress => [.tempBanRedirAddress]
  | .text .permBanRedirAddress => [.permBanRedirAddress]
  | .text .nickLimitMsg => [.nickLimitMsg, .nickLimitRedirAddress]
  | .text .hubBotMyInfo => [.botNick, .botDescription, .botEmail]
  | .text .opChatHello => [.opChatNick]
  | .text .opChatMyInfo => [.opChatNick, .opChatDescription, .opChatEmail]
  | _ => []

/-- Two sources that are the same to a cell. -/
structure Agree (s s' : Source) (k : Cell) : Prop where
  bools : ∀ id ∈ k.bools, s'.values.bools id = s.values.bools id
  shorts : ∀ id ∈ k.shorts, s'.values.shorts id = s.values.shorts id
  texts : ∀ id ∈ k.texts, s'.values.texts id = s.values.texts id
  motd : k = .text .motd → s'.motd = s.motd
  lan : s'.lan = s.lan

/-- The texts that have the redirect address in them. -/
def readsRedirect (v : Values) : Cell → Bool
  | .text .regOnlyMsg => v.bools .regOnlyRedir
  | .text .shareLimitMsg => v.bools .shareLimitRedir
  | .text .slotsLimitMsg => v.bools .slotsLimitRedir
  | .text .hubSlotRatioMsg => v.bools .hubSlotRatioRedir
  | .text .maxHubsLimitMsg => v.bools .maxHubsLimitRedir
  | .text .noTagMsg => v.shorts .noTagOption = 2
  | .text .tempBanRedirAddress => v.texts .tempBanRedirAddress = []
  | .text .permBanRedirAddress => v.texts .permBanRedirAddress = []
  | .text .nickLimitMsg => v.bools .nickLimitRedir
  | _ => false

def reads (v : Values) (k : Cell) : Cell → Bool
  | .text .hubSec => hubSecCells.tail.contains k
  | .text .redirectAddress => readsRedirect v k
  | .minShare | .maxShare => k = .text .shareLimitMsg
  | _ => false

section
variable {title : Text} {s s' : Source} {c c' : Cells} {k : Cell}

theorem appendRedirectAddress_agree {bool : SetBoolIds} {txt : SetTxtIds}
    (on : s'.values.bools bool = s.values.bools bool)
    (own : s'.values.texts txt = s.values.texts txt) :
    appendRedirectAddress s' c bool txt = appendRedirectAddress s c bool txt := by
  rw [appendRedirectAddress, appendRedirectAddress, on, own]

theorem appendRedirectAddress_reads {bool : SetBoolIds} {txt : SetTxtIds}
    (redirect : s.values.bools bool = true →
      c (.text .redirectAddress) = c' (.text .redirectAddress)) :
    appendRedirectAddress s c bool txt = appendRedirectAddress s c' bool txt := by
  unfold appendRedirectAddress redirectAddress
  split
  · rename_i on
    rw [redirect on]
  · rfl

theorem compute_agree (agree : Agree s s' k) : compute title s' c k = compute title s c k := by
  obtain ⟨bools, shorts, texts, motd, lan⟩ := agree
  rcases k with id | _ | _
  · cases id <;>
      simp only [Cell.bools, Cell.shorts, Cell.texts, List.forall_mem_cons, List.not_mem_nil,
        IsEmpty.forall_iff, implies_true, and_true] at bools shorts texts <;>
      simp_all [compute, updateHubSec, updateMotd, updateHubNameWelcome, updateHubName,
        updateRedirectAddress, updateRegOnlyMessage, updateShareLimitMessage,
        updateSlotsLimitMessage, updateHubSlotRatioMessage, updateMaxHubsLimitMessage,
        updateNoTagMessage, updateTempBanRedirAddress, updatePermBanRedirAddress,
        updateBanRedirAddress, updateNickLimitMessage, updateBot, updateOpChatHello, updateOpChat,
        botMyInfo, limitMessage, endLimitMessage, shareText, limitOrUnlimited,
        appendRedirectAddress]
  all_goals
    simp only [Cell.shorts, List.forall_mem_cons, List.not_mem_nil,
      IsEmpty.forall_iff, implies_true, and_true] at shorts
    simp_all [compute, share]

theorem readsOnly : ReadsOnly (compute title) s fun k j => reads s.values k j = true := by
  intro c c' k same
  have sec := same (.text .hubSec)
  have redirect := same (.text .redirectAddress)
  have min := same .minShare
  have max := same .maxShare
  rcases k with id | _ | _
  · cases id <;>
      simp only [reads, readsRedirect, hubSecCells, List.tail_cons, List.contains_cons,
        beq_self_eq_true, Bool.or_true, Bool.true_or, decide_true, forall_const,
        decide_eq_true_eq] at sec redirect min max <;>
      simp only [compute, updateMotd, updateHubNameWelcome, updateRegOnlyMessage,
        updateShareLimitMessage, updateSlotsLimitMessage, updateHubSlotRatioMessage,
        updateMaxHubsLimitMessage, updateNoTagMessage, updateTempBanRedirAddress,
        updatePermBanRedirAddress, updateBanRedirAddress, updateNickLimitMessage, limitMessage,
        endLimitMessage, beginLimitMessage, hubSec]
    case motd | hubNameWlcm => rw [sec]
    case regOnlyMsg | slotsLimitMsg | hubSlotRatioMsg | maxHubsLimitMsg | nickLimitMsg =>
      rw [sec, appendRedirectAddress_reads redirect]
    case shareLimitMsg => rw [sec, min, max, appendRedirectAddress_reads redirect]
    case noTagMsg =>
      rw [sec]
      split
      · rfl
      · congr 1
        split
        · rename_i option
          unfold redirectAddress
          rw [redirect option]
        · rfl
    case tempBanRedirAddress | permBanRedirAddress =>
      split
      · rfl
      · rename_i empty
        exact redirect (Classical.not_not.mp empty)
  all_goals rfl

end

/-! ## Setting a value -/

/-- The setter goes on to store the value. -/
def SetEvent.changes (languages : Languages) (v : Values) : SetEvent → Bool
  | .setBool id bValue => v.bools id != bValue
  | .setShort id i16Value =>
    !(i16Value.toInt < 0 || v.shorts id = i16Value.toInt) && id.accepts i16Value.toInt
  | .setText id sTxt => v.texts id != sTxt && id.accepts languages sTxt

def SetEvent.cells (v : Values) : SetEvent → List Cell
  | .setBool id _ => boolCells id
  | .setShort id _ => shortCells id
  | .setText id _ => textCells v id

structure PreTexts where
  source : Source
  cells : Cells

/-- `known` says that a user has the new nick. -/
inductive TextEvent where
  | set (e : SetEvent)
  | setMotd (sTxt : Text)
  | setMinShare (limit units : Int16)
  | setMaxShare (limit units : Int16)
  | setHubSlotRatio (hubs slots : Int16)
  | setOpChat (enable : Bool) (nick description email : Text) (known : Bool)
  | setHubBot (enable : Bool) (nick description email : Text) (asHubSec : Bool) (known : Bool)
  | restart

/-- What is checked before a bot of the settings is changed. -/
def botAccepted (nick description email : Text) (known : Bool) : Bool :=
  nick ≠ [] && nick.length ≤ 64 && description.length ≤ 64 && email.length ≤ 64 &&
    !containsAny nick (ascii " $|") && !containsAny description (ascii "$|") &&
    !containsAny email (ascii "$|") && !known

/-- An empty text stays if the length that is asked for is 0. -/
def textChanged (v : Values) (id : SetTxtIds) (sTxt : Text) : Bool :=
  (v.texts id = [] || v.texts id ≠ cText sTxt) && (v.texts id ≠ [] || sTxt ≠ [])

/-- Something was set that the text of a bot is made from. -/
def botChanged (v v' : Values) (on : SetBoolIds) (nickId descriptionId emailId : SetTxtIds)
    (nick description email : Text) : Bool :=
  v.bools on ≠ v'.bools on || v.texts nickId ≠ cText nick ||
    textChanged v descriptionId description || textChanged v emailId email

namespace Values

variable (languages : Languages) (v : Values)

def setOpChat (enable : Bool) (nick description email : Text) : Values :=
  (((v.setBool .regOpChat enable).setText languages .opChatNick (cText nick)).setText languages
    .opChatDescription (cText description)).setText languages .opChatEmail (cText email)

def setHubBot (enable : Bool) (nick description email : Text) (asHubSec : Bool) : Values :=
  ((((v.setText languages .botDescription (cText description)).setText languages .botEmail
    (cText email)).setBool .useBotNickAsHubSec asHubSec).setBool .regBot enable).setText languages
    .botNick (cText nick)

end Values

namespace PreTexts

section
variable (title : Text) (languages : Languages) (load : Text → Lan → Lan) (p : PreTexts)

/-- The texts that depend on a new source are made again. -/
def put (source : Source) (ks : List Cell) : PreTexts :=
  ⟨source, refreshAll (compute title) source p.cells ks⟩

def putValues (values : Values) (ks : List Cell) : PreTexts :=
  p.put title { p.source with values } ks

def set (e : SetEvent) : PreTexts :=
  let v := p.source.values
  let v' := v.step languages e
  if e.changes languages v then
    match e with
    | .setText .language sTxt =>
      p.put title { p.source with values := v', lan := load sTxt p.source.lan }
        (textCells v' .language)
    | e => p.putValues title v' (e.cells v')
  else p

def setOpChat (enable : Bool) (nick description email : Text) (known : Bool) : PreTexts :=
  let v := p.source.values
  let v' := v.setOpChat languages enable nick description email
  if botAccepted nick description email known then
    p.putValues title v'
      (if v'.bools .regOpChat && botChanged v v' .regOpChat .opChatNick .opChatDescription
          .opChatEmail nick description email
        then [.text .opChatHello, .text .opChatMyInfo] else [])
  else p

def setHubBot (enable : Bool) (nick description email : Text) (asHubSec known : Bool) :
    PreTexts :=
  let v := p.source.values
  let v' := v.setHubBot languages enable nick description email asHubSec
  if botAccepted nick description email known then
    p.putValues title v'
      (hubSecCells ++ if v'.bools .regBot && botChanged v v' .regBot .botNick .botDescription
          .botEmail nick description email
        then [.text .hubBotMyInfo] else [])
  else p

def step : TextEvent → PreTexts
  | .set e => p.set title languages load e
  | .setMotd sTxt =>
    p.put title { p.source with motd := FlyHub.Settings.setMotd p.source.motd sTxt } [.text .motd]
  | .setMinShare limit units =>
    p.putValues title ((p.source.values.setShort .minShareLimit limit.toInt).setShort
      .minShareUnits units.toInt) [.minShare, .text .shareLimitMsg]
  | .setMaxShare limit units =>
    p.putValues title ((p.source.values.setShort .maxShareLimit limit.toInt).setShort
      .maxShareUnits units.toInt) [.maxShare, .text .shareLimitMsg]
  | .setHubSlotRatio hubs slots =>
    p.putValues title ((p.source.values.setShort .hubSlotRatioHubs hubs.toInt).setShort
      .hubSlotRatioSlots slots.toInt) [.text .hubSlotRatioMsg]
  | .setOpChat enable nick description email known =>
    p.setOpChat title languages enable nick description email known
  | .setHubBot enable nick description email asHubSec known =>
    p.setHubBot title languages enable nick description email asHubSec known
  | .restart => p.put title p.source allCells

/-- Nothing is kept before the first start. -/
def start (source : Source) : PreTexts :=
  put title ⟨source, fun
    | .text _ => ([] : Text)
    | .minShare | .maxShare => (0 : Nat)⟩ source allCells

/-- Every text is what the settings say now. -/
def Current : Prop := Fresh (compute title) p.source p.cells

/-- Changes after which a text stays that is not made again. -/
def Forgotten : TextEvent → Prop
  | .set (.setText .opChatDescription _) | .set (.setText .opChatEmail _) =>
    p.source.values.bools .regOpChat = true
  | .set (.setText .redirectAddress _) =>
    p.source.values.texts .tempBanRedirAddress = [] ∨
      p.source.values.texts .permBanRedirAddress = []
  | .set (.setText .language sTxt) =>
    (load sTxt p.source.lan).unlimited ≠ p.source.lan.unlimited ∧
      (p.source.values.shorts .maxShareLimit = 0 ∨ p.source.values.shorts .maxSlotsLimit = 0 ∨
        p.source.values.shorts .maxNickLen = 0)
  | .setOpChat enable .. => p.source.values.bools .regOpChat = true ∧ enable = false
  | .setHubBot enable .. => p.source.values.bools .regBot = true ∧ enable = false
  | _ => False

end

end PreTexts

end FlyHub.Settings
