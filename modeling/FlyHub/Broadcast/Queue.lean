import FlyHub.Profile
import FlyHub.Lib.Run

/-!
# The broadcast queue

Once a round `PrepareQueueItems` fixes the items to send. `ProcessQueues` then
sorts each user into one of the global queues by a number computed from what the
user is to receive. The first user of a number fills the queue; later ones reuse
it. `ClearQueues` ends the round.

Text is a list over any alphabet, and a sink says how a queue stores the text
appended to it.
-/

namespace FlyHub.Broadcast

open FlyHub.Lib

inductive Cmd where
  | hubName
  | chat
  | hello
  | myInfo
  | quit
  | ops
  | lua
  | activeSearchV6
  | activeSearchV64
  | activeSearchV4
  | passiveSearchV6
  | passiveSearchV64
  | passiveSearchV4
  | passiveSearchV4Only
  | passiveSearchV6Only
  | extJson
  deriving DecidableEq, Repr

/-- A queued broadcast. A MyINFO has its long form as a second text, and a search that was
made in both families its IPv4 form. -/
structure QueueItem (α : Type*) where
  eCmdType : Cmd
  command0 : List α
  command1 : List α

/-- What `ProcessQueues` reads of a user. -/
structure QueueUser where
  sharedSize : Nat
  profile : Int
  ipv6 : Bool
  ipv4 : Bool
  ipv6Active : Bool
  ipv4Active : Bool
  operator : Bool
  noHello : Bool
  userIP2 : Bool
  isJsonUser : Bool

/-- What `ProcessQueues` reads of the settings and profiles. -/
structure QueueSettings where
  fullMyINFOOption : Nat
  profiles : ProfileManager

/-- The search bits: a user that shares has exactly one of them. -/
inductive SearchBit where
  | allIPv64
  | allIPv6
  | allIPv4
  | activeIPv64
  | activeIPv6
  | activeIPv4
  | allIPv6ActiveIPv4
  | activeIPv6AllIPv4
  deriving DecidableEq, Repr

/-- `ui16QueueBits`. -/
@[ext] structure QueueBits where
  longMyInfo : Bool
  search : Option SearchBit
  hello : Bool
  operator : Bool
  userIP : Bool
  deriving DecidableEq, Repr

namespace QueueUser

def isAllowed (u : QueueUser) (set : QueueSettings) (option : Permission) : Bool :=
  set.profiles.isProfileAllowed u.profile option

def isSupportExtJSON (u : QueueUser) : Bool := u.isJsonUser

/-- The search bit of a user that shares, and its weight in the queue type. -/
def searchBit (u : QueueUser) : SearchBit × Nat :=
  if u.ipv6 then
    if u.ipv4 then
      if u.ipv6Active then
        if u.ipv4Active then (.allIPv64, 6) else (.allIPv6ActiveIPv4, 14)
      else
        if u.ipv4Active then (.activeIPv6AllIPv4, 16) else (.activeIPv64, 12)
    else
      if u.ipv6Active then (.allIPv6, 4) else (.activeIPv6, 10)
  else
    if u.ipv4Active then (.allIPv4, 2) else (.activeIPv4, 8)

def longMyInfo (u : QueueUser) (set : QueueSettings) : Bool :=
  set.fullMyINFOOption = 1 && u.isAllowed set .sendFullMyInfos

def hello (u : QueueUser) : Bool := !u.noHello

def userIP (u : QueueUser) (set : QueueSettings) : Bool :=
  u.profile ≠ -1 && u.userIP2 && u.isAllowed set .sendAllUserIp

/-- `ui16QueueBits`. -/
def queueBits (u : QueueUser) (set : QueueSettings) : QueueBits where
  longMyInfo := u.longMyInfo set
  search := if u.sharedSize ≠ 0 then some u.searchBit.1 else none
  hello := u.hello
  operator := u.operator
  userIP := u.userIP set

/-- `ui32QueueType`, the number of the global queue. -/
def queueType (u : QueueUser) (set : QueueSettings) : Nat :=
  (if u.longMyInfo set then 1 else 0) +
  (if u.sharedSize ≠ 0 then u.searchBit.2 else 0) +
  (if u.hello then 14 else 0) +
  (if u.operator then 28 else 0) +
  (if u.userIP set then 56 else 0)

/-- The queue type stays inside the array of global queues. -/
theorem queueType_lt (u : QueueUser) (set : QueueSettings) : u.queueType set < 144 := by
  have weight : u.searchBit.2 ≤ 16 := by
    unfold searchBit
    repeat' split
    all_goals simp
  unfold queueType
  grind

end QueueUser

section
variable {α : Type*} (matchExtJson : List α → Bool)

/-- The text of an item that `ProcessQueues` passes on for a user, if any.
`matchExtJson` tells whether a text starts with `$ExtJSON `. -/
def itemData (u : QueueUser) (bits : QueueBits) (item : QueueItem α) : List α :=
  let shares : Bool := u.sharedSize ≠ 0
  let has (b : SearchBit) : Bool := bits.search = some b
  let addSearchData : List α := if u.sharedSize ≠ 0 then item.command0 else []
  match item.eCmdType with
  | .hello => if bits.hello then item.command0 else []
  | .extJson => if item.command0.length ≠ 0 && u.isSupportExtJSON then item.command0 else []
  | .myInfo => if bits.longMyInfo then item.command1 else item.command0
  | .ops =>
    if bits.operator then
      if matchExtJson item.command0 then
        if u.isSupportExtJSON then item.command0 else []
      else item.command0
    else []
  | .activeSearchV6 =>
    if shares && !has .allIPv4 && !has .activeIPv4 then addSearchData else []
  | .activeSearchV64 =>
    if shares && !has .allIPv4 && !has .activeIPv4 then addSearchData
    else if !has .allIPv6 && !has .activeIPv6 then addSearchData else []
  | .activeSearchV4 =>
    if shares && !has .allIPv6 && !has .activeIPv6 then addSearchData else []
  | .passiveSearchV6 =>
    if shares && (has .allIPv6 || has .allIPv64 || has .allIPv6ActiveIPv4) then addSearchData
    else []
  | .passiveSearchV64 =>
    if shares && (has .allIPv64 || has .allIPv6 || has .allIPv4 || has .activeIPv6AllIPv4 ||
        has .allIPv6ActiveIPv4) then addSearchData
    else []
  | .passiveSearchV4 =>
    if shares && (has .allIPv4 || has .allIPv64 || has .activeIPv6AllIPv4) then addSearchData
    else []
  | .passiveSearchV4Only => if shares && has .allIPv4 then addSearchData else []
  | .passiveSearchV6Only => if shares && has .allIPv6 then addSearchData else []
  | .chat | .hubName | .quit | .lua => item.command0

end

/-- How a global queue stores text: `add` is `AddDataToQueue` on non-empty text,
`clear` is what `ClearQueues` does to a created queue. -/
structure Sink (α β : Type*) where
  init : β
  add : β → List α → β
  clear : β → β
  content : β → List α

structure GlobalQueue (β : Type*) where
  buffer : β
  created : Bool

/-- The queues and the items of the round. `opListQueue` and `userIPQueue` are
the texts collected by `OpListStore` and `UserIPStore`. -/
structure GlobalDataQueue (α β : Type*) where
  globalQueues : Nat → GlobalQueue β
  createdGlobalQueues : List Nat
  newQueueItems : List (QueueItem α)
  queueItems : List (QueueItem α)
  opListQueue : List α
  userIPQueue : List α

namespace Sink

variable {α β : Type*} (S : Sink α β)

def addDataToQueueStr (q : β) (sData : List α) : β :=
  if sData.length ≠ 0 then S.add q sData else q

def adds (q : β) (payloads : List (List α)) : β := run S.add q payloads

end Sink

namespace GlobalDataQueue

section
variable {α β : Type*} (S : Sink α β) (matchExtJson : List α → Bool) (set : QueueSettings)

def init : GlobalDataQueue α β where
  globalQueues := fun _ => ⟨S.init, false⟩
  createdGlobalQueues := []
  newQueueItems := []
  queueItems := []
  opListQueue := []
  userIPQueue := []

def addQueueItem (g : GlobalDataQueue α β) (item : QueueItem α) : GlobalDataQueue α β :=
  { g with newQueueItems := g.newQueueItems ++ [item] }

def prepareQueueItems (g : GlobalDataQueue α β) : GlobalDataQueue α β :=
  { g with queueItems := g.newQueueItems, newQueueItems := [] }

/-- `m_bHaveItems`, as `PrepareQueueItems` leaves it. -/
def haveItems (g : GlobalDataQueue α β) : Bool :=
  !(g.queueItems.isEmpty && g.opListQueue.isEmpty && g.userIPQueue.isEmpty)

/-- The body of `ProcessQueues` that fills a queue for the first user of its type. -/
def fillQueue (g : GlobalDataQueue α β) (u : QueueUser) (q : β) : β :=
  let bits := u.queueBits set
  let q := g.queueItems.foldl
    (fun q item => S.addDataToQueueStr q (itemData matchExtJson u bits item)) q
  let q := S.addDataToQueueStr q g.opListQueue
  if bits.userIP then S.addDataToQueueStr q g.userIPQueue else q

def processQueues (g : GlobalDataQueue α β) (u : QueueUser) : GlobalDataQueue α β :=
  let t := u.queueType set
  if (g.globalQueues t).created then g
  else
    { g with
      globalQueues := Function.update g.globalQueues t
        ⟨g.fillQueue S matchExtJson set u (g.globalQueues t).buffer, true⟩
      createdGlobalQueues := t :: g.createdGlobalQueues }

/-- The text of the queue `ProcessQueues` sends to a user. -/
def selected (g : GlobalDataQueue α β) (u : QueueUser) : List α :=
  S.content (g.globalQueues (u.queueType set)).buffer

def clearQueues (g : GlobalDataQueue α β) : GlobalDataQueue α β :=
  { g with
    globalQueues := fun t =>
      if t ∈ g.createdGlobalQueues then ⟨S.clear (g.globalQueues t).buffer, false⟩
      else g.globalQueues t
    createdGlobalQueues := []
    queueItems := []
    opListQueue := []
    userIPQueue := [] }

/-- `ProcessQueues` for each user in turn, with the text each is sent. -/
def processAll (g : GlobalDataQueue α β) : List QueueUser → GlobalDataQueue α β × List (List α)
  | [] => (g, [])
  | u :: us =>
    let g := g.processQueues S matchExtJson set u
    let rest := g.processAll us
    (rest.1, g.selected S set u :: rest.2)

end

end GlobalDataQueue

end FlyHub.Broadcast
