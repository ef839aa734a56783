import FlyHub.Lists.MyInfo

/-!
# The tag of a MyINFO

What a client says of itself stands at the end of its description: the client, its version, the
mode for each kind of address, the hubs, the slots and the limits. The parts are read one by one
into the user, and a tag with a bad part is dropped as a whole.
-/

namespace FlyHub.Lists

/-- What a MyINFO says, as the user keeps it. -/
structure InfoFields where
  description : Text
  tag : Text
  client : Text
  tagVersion : Text
  connection : Text
  email : Text
  sharedSize : Nat
  magicByte : UInt8
  modes : Text
  hubs : UInt32
  normalHubs : UInt32
  regHubs : UInt32
  opHubs : UInt32
  slots : UInt32
  oLimit : UInt32
  lLimit : UInt32
  dLimit : UInt32
  deriving DecidableEq

/-- BIT_IPV4_ACTIVE, BIT_IPV6_ACTIVE, BIT_OLDHUBSTAG, BIT_HAVE_BADTAG and
`m_is_bad_len_number_myinfo`. -/
@[ext]
structure InfoBits where
  ipv4Active : Bool
  ipv6Active : Bool
  oldHubsTag : Bool
  haveBadTag : Bool
  badLenNumber : Bool
  deriving DecidableEq

/-- The user, as far as a MyINFO reaches. `noHello` is SUPPORTBIT_NOHELLO. -/
structure TaggedUser where
  myInfoOriginal : Text
  fields : InfoFields
  bits : InfoBits
  noHello : Bool
  deriving DecidableEq

/-- What the hub knows of the sender of a MyINFO: `ip64` is SUPPORTBIT_IP64. -/
structure InfoSender where
  sNick : Text
  ipv6 : Bool
  ip64 : Bool
  maxMyInfoLen : Nat

/-- `safe_stoi`: the number a text begins with. -/
def safeStoi (s : Text) : Option Int :=
  let digits := (if s.head? = some 45 then s.tail else s).takeWhile isDigit
  let n : Int := if s.head? = some 45 then - (number digits : Int) else number digits
  if digits = [] then none else if -2147483648 ≤ n ∧ n ≤ 2147483647 then some n else none

/-- What a part of a tag says. -/
inductive TagPart where
  | bad
  | version (sTagVersion : Text)
  | mode (m : UInt8)
  | modes (m4 m6 : UInt8)
  | hubs (normal reg op : UInt32)
  | oldHubs (hubs : UInt32)
  /-- No hubs, or a wrong number of parts. -/
  | fakeHubs (counted : Option (UInt32 × UInt32 × UInt32))
  | slots (n : UInt32)
  | oLimit (n : UInt32)
  | lLimit (n : UInt32)
  | dLimit (n : UInt32)
  | other
  deriving DecidableEq

/-- The part `H:`. The first byte of the first number may be a slash. -/
def readHubs (sHubs : Text) : TagPart :=
  match sHubs.tail.splitOn 47 with
  | [] => .fakeHubs none
  | [_] =>
    match safeStoi sHubs with
    | none => .bad
    | some n => .oldHubs (.ofInt n)
  | [_, _] => .fakeHubs none
  | p :: reg :: op :: _ =>
    let normal := sHubs.take 1 ++ p
    if normal = [] ∨ reg = [] ∨ op = [] then .fakeHubs none
    else if !(haveOnlyNumbers normal && haveOnlyNumbers reg && haveOnlyNumbers op) then .bad
    else
      match safeStoi normal, safeStoi reg, safeStoi op with
      | some n, some r, some o =>
        if UInt32.ofInt n + .ofInt r + .ofInt o ≠ 0 then .hubs (.ofInt n) (.ofInt r) (.ofInt o)
        else .fakeHubs (some (.ofInt n, .ofInt r, .ofInt o))
      | _, _, _ => .bad

/-- A limit of the bandwidth or of the slots. -/
def readLimit (limit : UInt32 → TagPart) (part : Text) : TagPart :=
  if part.length = 2 then .bad
  else
    match safeStoi (part.drop 2) with
    | none => .bad
    | some n => limit (.ofInt n)

/-- One part, and the byte after its comma. A tag has only one version. -/
def readPart (o : InfoSender) (hasVersion : Bool) (part : Text) (next : UInt8) : TagPart :=
  let name := part.head?
  if (part ++ [0, next])[1]? ≠ some 58 then .bad
  else if name = some 86 then
    if part.length = 2 || hasVersion then .bad else .version (part.drop 2)
  else if name = some 77 then
    if o.ipv6 && o.ip64 then
      match part.drop 2 with
      | [m4, m6] => .modes m4 m6
      | _ => .bad
    else
      match part.drop 2 with
      | [m] => .mode m
      | _ => .bad
  else if name = some 72 then
    if part.length = 2 then .bad else readHubs (part.drop 2)
  else if name = some 83 then
    if part.length = 2 || !haveOnlyNumbers (part.drop 2) then .bad else readLimit .slots part
  else if name = some 79 then readLimit .oLimit part
  else if name = some 66 ∨ name = some 76 then readLimit .lLimit part
  else if name = some 68 then readLimit .dLimit part
  else .other

/-- A number with too many digits is remembered. -/
def tooLong (part : Text) : Bool :=
  let name := part.head?
  part[1]? = some 58 &&
    (name = some 83 && 14 < part.length ||
      (name = some 79 || name = some 66 || name = some 76 || name = some 68) && 12 < part.length)

/-- Each part with the byte after its comma: the next part's first one, the next comma, or the
end of the text. -/
def withNext : List Text → List (Text × UInt8)
  | [] => []
  | [part] => [(part, 0)]
  | part :: q :: parts => (part, q.headD 44) :: withNext (q :: parts)

structure Reading where
  part : TagPart
  long : Bool

/-- The parts one after the other, up to the first bad one. -/
def readParts (o : InfoSender) : Bool → List (Text × UInt8) → List Reading
  | _, [] => []
  | hasVersion, (part, next) :: parts =>
    let r := readPart o hasVersion part next
    ⟨r, tooLong part⟩ ::
      match r with
      | .bad => []
      | .version _ => readParts o true parts
      | _ => readParts o hasVersion parts

/-- The version, the mode, the hubs and the slots must be there. -/
def required : TagPart → Bool
  | .version _ | .mode _ | .modes _ _ | .hubs _ _ _ | .oldHubs _ | .slots _ => true
  | _ => false

def badReadings (rs : List Reading) : Bool :=
  rs.any (·.part = .bad) || rs.countP (required ·.part) < 4

/-- `toupper` and `'A'`. -/
def isActive (mode : UInt8) : Bool := mode = 65 || mode = 97

namespace InfoFields

variable (f : InfoFields)

def resetTag : InfoFields :=
  { f with
    modes := [], hubs := 0, normalHubs := 0, regHubs := 0, opHubs := 0
    slots := 0, oLimit := 0, lLimit := 0, dLimit := 0 }

def assign : TagPart → InfoFields
  | .bad => f
  | .version v => { f with tagVersion := v }
  | .mode m => { f with modes := [m] }
  | .modes m4 m6 => { f with modes := [m4, m6] }
  | .hubs n r o => { f with normalHubs := n, regHubs := r, opHubs := o, hubs := n + r + o }
  | .oldHubs n => { f with hubs := n }
  | .fakeHubs counted =>
    let f := match counted with
      | none => f
      | some (n, r, o) => { f with normalHubs := n, regHubs := r, opHubs := o, hubs := n + r + o }
    { f with normalHubs := 1, hubs := if f.hubs = 0 then 1 else f.hubs }
  | .slots n => { f with slots := n }
  | .oLimit n => { f with oLimit := n }
  | .lLimit n => { f with lLimit := n }
  | .dLimit n => { f with dLimit := n }
  | .other => f

/-- The first lines of `SetMyInfoOriginal`. -/
def clear : InfoFields :=
  { f with description := [], tag := [], client := [], tagVersion := [], connection := [], email := [] }

/-- `UserSetBadTag`, which is given the length of the description in one byte. -/
def setBadTag (part : Text) : InfoFields :=
  { f.resetTag with
    tagVersion := [], description := part.take (part.length % 256), tag := []
    client := ascii "BAD TAG!" }

/-- The end of `UserParseMyInfo`. -/
def noTag : InfoFields :=
  { f.resetTag with client := ascii "OTHER (NO TAG)", tag := [], tagVersion := [] }

end InfoFields

namespace InfoBits

variable (b : InfoBits)

def assign (r : Reading) : InfoBits :=
  let b := { b with badLenNumber := b.badLenNumber || r.long }
  match r.part with
  | .mode m => { b with ipv4Active := isActive m }
  | .modes m4 m6 => { b with ipv4Active := isActive m4, ipv6Active := isActive m6 }
  | .hubs _ _ _ => { b with oldHubsTag := false }
  | .oldHubs _ => { b with oldHubsTag := true }
  | _ => b

def setBadTag : InfoBits := { b with oldHubsTag := true, haveBadTag := true }

end InfoBits

/-- The client and the parts of a tag: a version follows the first blank. -/
def tagBody (tag : Text) : Option (Text × List Text) :=
  match tag.idxOf? blank with
  | none => none
  | some j =>
    if (tag.drop (j + 1)).take 2 = ascii "V:" then
      some ((tag.take j).tail, (tag.drop (j + 1)).dropLast.splitOn 44)
    else none

namespace TaggedUser

variable (o : InfoSender) (u : TaggedUser)

def assign (r : Reading) : TaggedUser :=
  { u with fields := u.fields.assign r.part, bits := u.bits.assign r }

/-- The first part of a MyINFO: the description and the tag. -/
def readDescription (part : Text) : TaggedUser :=
  if part = [] then { u with fields := u.fields.noTag }
  else if part.getLast? ≠ some 62 then
    { u with fields := { u.fields with description := part }.noTag }
  else
    match lastIdxOf? 60 part with
    | none =>
      { u with fields := { u.fields with description := part, client := ascii "OTHER (NO TAG)" } }
    | some i =>
      let u := { u with
        fields := { u.fields with tag := part.drop i }
        noHello := u.noHello || (part.drop i).take 4 = ascii "<++ " }
      match tagBody (part.drop i) with
      | none =>
        { u with
          fields := { u.fields with client := ascii "UNKNOWN TAG", tag := [], description := part } }
      | some (client, parts) =>
        let rs := readParts o (u.fields.tagVersion ≠ []) (withNext parts)
        let u := rs.foldl assign { u with fields := { u.fields with client } }
        if badReadings rs then
          { u with fields := u.fields.setBadTag part, bits := u.bits.setBadTag }
        else { u with fields := { u.fields with description := part.take i } }

/-- `UserParseMyInfo`: none for a user that is closed. -/
def parseMyInfo : Option TaggedUser :=
  let original := u.myInfoOriginal
  if original.length ≤ 14 + o.sNick.length then none
  else
    match closedParts 5 (original.drop (14 + o.sNick.length)).dropLast with
    | [part, gap, connection, email, share] =>
      if gap.length ≠ 1 || share.length = 0 || !haveOnlyNumbers share then none
      else
        match connection.getLast?, parseShare share with
        | some magicByte, some sharedSize =>
          let f := { u.fields with magicByte, connection := connection.dropLast }
          let f := if email ≠ [] then { f with email } else f
          some ({ u with fields := { f with sharedSize }.resetTag }.readDescription o part)
        | _, _ => none
    | _ => none

def setMyInfoOriginal (sMyInfo : Text) : Option TaggedUser :=
  let fields := if u.myInfoOriginal ≠ [] then u.fields.clear else u.fields
  { u with myInfoOriginal := sMyInfo, fields }.parseMyInfo o

/-- The MyINFO that the user sent last, byte for byte after the nick. -/
def sameMyInfo (sCommand : Text) : Bool :=
  u.myInfoOriginal ≠ [] && sCommand.length = u.myInfoOriginal.length &&
    sCommand.drop (14 + o.sNick.length) = u.myInfoOriginal.drop (14 + o.sNick.length)

/-- `$MyINFO` in the dispatch of the commands, and `MyINFO`. What the rules of the hub refuse is
left out. -/
def myInfo (sCommand : Text) : Option TaggedUser :=
  if sCommand.length < 22 + o.sNick.length || o.maxMyInfoLen < sCommand.length then none
  else if !(o.sNick ++ [blank]).isPrefixOf (sCommand.drop 13) then none
  else if u.sameMyInfo o sCommand then some u
  else u.setMyInfoOriginal o sCommand

/-- `HasSuspiciousTag` reports a bad tag once. -/
def hasSuspiciousTag : TaggedUser := { u with bits := { u.bits with haveBadTag := false } }

/-- A user that has connected. -/
def new : TaggedUser where
  myInfoOriginal := []
  fields :=
    { description := [], tag := [], client := ascii "OTHER (NO TAG)", tagVersion := []
      connection := [], email := [], sharedSize := 0, magicByte := 0, modes := []
      hubs := 0, normalHubs := 0, regHubs := 0, opHubs := 0
      slots := 0, oLimit := 0, lLimit := 0, dLimit := 0 }
  bits := ⟨true, false, true, false, false⟩
  noHello := false

end TaggedUser

end FlyHub.Lists
