import FlyHub.Lib.Guard
import FlyHub.Lib.Run
import FlyHub.Text

/-!
# The subscribers of the UDP debug

Users and scripts may subscribe to what the hub does: some get all of it, a script may also get
only what scripts send to it. The newest subscriber stands in front. All is done under one
mutex, from which messages go out to users. What such a message leads to, when the send buffer
of the user is full, may call the UDP debug again.
-/

namespace FlyHub.Debug

open FlyHub.Lib

/-- `sas_to`. -/
structure Endpoint where
  ipv6 : Bool
  addr : Text
  port : UInt16
  deriving DecidableEq

structure UdpDbgItem where
  sasTo : Endpoint
  sNick : Text
  hash : UInt32
  isScript : Bool
  allData : Bool
  deriving DecidableEq

/-- A datagram. -/
structure Packet where
  receiver : UdpDbgItem
  data : Text
  deriving DecidableEq

/-- `debugBuffer` is the hub name in front of the packets, once there is a buffer. -/
structure UdpDebug where
  debugBuffer : Option Text
  items : List UdpDbgItem
  subscriberCount : UInt32
  deriving DecidableEq

/-- The datagrams of a call, and its result. -/
structure Outcome where
  sent : List Packet
  result : Bool
  deriving DecidableEq

/-- A user, as far as its subscription reaches. -/
structure DebugUser where
  sNick : Text
  ipHash : Text

/-- `IN6_IS_ADDR_V4MAPPED`. -/
def isV4Mapped (ipHash : Text) : Bool := ipHash.take 12 = List.replicate 10 0 ++ [255, 255]

def endpoint (ipHash : Text) (port : UInt16) : Endpoint :=
  if isV4Mapped ipHash then ⟨false, ipHash.drop 12, port⟩ else ⟨true, ipHash, port⟩

/-- A number of 16 bits, low byte first. -/
def word16 (n : Nat) : Text := [UInt8.ofNat n, UInt8.ofNat (n / 256)]

namespace UdpDebug

variable (d : UdpDebug)

def packet (msg : Text) : Text :=
  let hubName := d.debugBuffer.getD []
  word16 hubName.length ++ word16 msg.length ++ hubName ++ msg

/-- The loop of both broadcasts. -/
def sendAll (msg : Text) : List Packet :=
  (d.items.takeWhile (·.allData)).map fun item => ⟨item, d.packet msg⟩

def isUser (u : DebugUser) (item : UdpDbgItem) : Bool :=
  !item.isScript && item.hash = hashNick u.sNick && iequals item.sNick u.sNick

def isScriptOf (sScriptName : Text) (item : UdpDbgItem) : Bool :=
  item.isScript && iequals item.sNick sScriptName

/-- The first such item is erased, and the buffer with the last one. -/
def erase (p : UdpDbgItem → Bool) : UdpDebug × Outcome :=
  if d.items.any p then
    let items := d.items.eraseP p
    (⟨if items = [] then none else d.debugBuffer, items, d.subscriberCount - 1⟩, ⟨[], true⟩)
  else (d, ⟨[], false⟩)

/-- The end of both `New`: the item is put in front and told so. -/
def subscribe (item : UdpDbgItem) (logged : UInt32) : UdpDebug × Outcome :=
  let d : UdpDebug := ⟨d.debugBuffer, item :: d.items, d.subscriberCount + 1⟩
  let msg := ascii ("[HUB] Subscribed, users online: " ++ toString logged.toNat)
  (d, ⟨[⟨item, d.packet msg⟩], true⟩)

/-- `Send`, of a script to itself. -/
def sendTo (sScriptName sMessage : Text) : UdpDebug × Outcome :=
  match d.items.find? (isScriptOf sScriptName) with
  | some item => (d, ⟨[⟨item, d.packet sMessage⟩], true⟩)
  | none => (d, ⟨[], true⟩)

/-- `DeleteAllItems`. -/
def deleteAllItems : UdpDebug × Outcome := (⟨d.debugBuffer, [], 0⟩, ⟨[], true⟩)

def writeHubName (hubName : Text) : UdpDebug × Outcome :=
  match d.debugBuffer with
  | none => (d, ⟨[], true⟩)
  | some _ => ({ d with debugBuffer := some hubName }, ⟨[], true⟩)

end UdpDebug

/-- A call, with what the system makes of it: `opened` is that the socket is made, `said` is what
is called while a message goes to the user. -/
inductive Call where
  | broadcast (msg : Text)
  | broadcastFormat (msg : Text)
  | newUser (u : DebugUser) (port : UInt16) (hubName : Text) (logged : UInt32) (opened : Bool)
      (said : List Call)
  | newScript (ipHash : Text) (port : UInt16) (allData : Bool) (sScriptName hubName : Text)
      (logged : UInt32) (opened : Bool)
  | removeUser (u : DebugUser)
  | removeScript (sScriptName : Text)
  | checkUdpSub (u : DebugUser) (sndMess : Bool) (said : List Call)
  | send (sScriptName sMessage : Text)
  | cleanup
  | updateHubName (hubName : Text)

open Guarded UdpDebug in
def updateHubName (hubName : Text) (g : Guarded UdpDebug) : Option (Guarded UdpDebug × Outcome) :=
  g.locked (alone fun d => d.writeHubName hubName)

/-- A new buffer has zeros for the hub name. -/
def createBuffer (hubName : Text) (g : Guarded UdpDebug) : Option (Guarded UdpDebug × Outcome) :=
  match g.value.debugBuffer with
  | some _ => some (g, ⟨[], true⟩)
  | none => updateHubName hubName ⟨g.held, { g.value with debugBuffer := some [] }⟩

/-- What both `New` do once the socket is there. -/
def addItem (item : UdpDbgItem) (hubName : Text) (logged : UInt32) (g : Guarded UdpDebug) :
    Option (Guarded UdpDebug × Outcome) := do
  let (g, _) ← if g.value.items = [] then createBuffer hubName g else some (g, ⟨[], true⟩)
  g.alone fun d => d.subscribe item logged

open Guarded UdpDebug in
mutual

/-- A call; it has no result if it locks the mutex a second time. -/
def Call.run : Call → Guarded UdpDebug → Option (Guarded UdpDebug × Outcome)
  | .broadcast msg => fun g =>
    if g.value.items = [] then some (g, ⟨[], true⟩)
    else g.locked (alone fun d => (d, ⟨d.sendAll msg, true⟩))
  | .broadcastFormat msg => fun g =>
    if g.value.items = [] then some (g, ⟨[], true⟩)
    else g.locked (alone fun d => (d, ⟨if msg.length < 65535 then d.sendAll msg else [], true⟩))
  | .newUser u port hubName logged opened said =>
    locked fun g =>
      if opened then
        addItem ⟨endpoint u.ipHash port, u.sNick, hashNick u.sNick, false, true⟩ hubName logged g
      else (runAll said g).map fun g => (g, ⟨[], false⟩)
  | .newScript ipHash port allData sScriptName hubName logged opened =>
    locked fun g =>
      if opened then addItem ⟨endpoint ipHash port, sScriptName, 0, true, allData⟩ hubName logged g
      else some (g, ⟨[], false⟩)
  | .removeUser u => locked (alone fun d => d.erase (isUser u))
  | .removeScript sScriptName => locked (alone fun d => d.erase (isScriptOf sScriptName))
  | .checkUdpSub u sndMess said =>
    locked fun g =>
      if g.value.items.any (isUser u) then
        if sndMess then (runAll said g).map fun g => (g, ⟨[], true⟩) else some (g, ⟨[], true⟩)
      else some (g, ⟨[], false⟩)
  | .send sScriptName sMessage => fun g =>
    if g.value.items = [] then some (g, ⟨[], true⟩)
    else g.locked (alone fun d => d.sendTo sScriptName sMessage)
  | .cleanup => locked (alone deleteAllItems)
  | .updateHubName hubName => updateHubName hubName

/-- The calls of a message, one after the other. What they send is left out. -/
def runAll : List Call → Guarded UdpDebug → Option (Guarded UdpDebug)
  | [], g => some g
  | c :: cs, g => (c.run g).bind fun r => runAll cs r.1

end

end FlyHub.Debug
