import FlyHub.Lib.Run
import FlyHub.Settings.File

/-!
# The ports of the hub

The ports are listed in a text of the settings, divided by semicolons. When the text changes
while the hub runs, the ports that are no longer listed are closed and the new ones are opened.
-/

namespace FlyHub.Server

open FlyHub.Lib FlyHub.Lists FlyHub.Settings

/-! ## Reading the text -/

abbrev PortNumbers := Vector UInt16 25

theorem slot_eq (ports : PortNumbers) (i : Fin 25) : ports.get i = getElem ports i.val i.isLt := rfl

/-- The number of one part, in its place. Where a part has no number the old one stays. -/
def setPort (ports : PortNumbers) (i : Fin 25) (sPort : Text) : PortNumbers :=
  match Settings.safeStoi (cText sPort) with
  | none => ports
  | some iPort => ports.set i.val (UInt16.ofInt iPort) i.isLt

/-- The parts that a semicolon ends, how many they are, and what is left of the text. -/
def readParts (ports : PortNumbers) (actual : Nat) (sPort : Text) :
    Text → PortNumbers × Nat × Text
  | [] => (ports, actual, sPort)
  | c :: rest =>
    if place : actual < 25 then
      if c = 59 then readParts (setPort ports ⟨actual, place⟩ sPort) (actual + 1) [] rest
      else readParts ports actual (sPort ++ [c]) rest
    else (ports, actual, sPort ++ c :: rest)

/-- The places from `actual` on are empty. -/
def clearFrom (ports : PortNumbers) (actual : Nat) : PortNumbers :=
  ports.mapIdx fun i port => if i < actual then port else 0

/-- Nothing, if the last number is written past the end of the array. -/
def updateTCPPorts (ports : PortNumbers) (text : Text) : Option PortNumbers :=
  let (ports, actual, sPort) := readParts ports 0 [] text
  if (cText sPort).isEmpty then some (clearFrom ports actual)
  else
    match Settings.safeStoi (cText sPort) with
    | none => some (clearFrom ports actual)
    | some iPort =>
      if place : actual < 25 then
        some (clearFrom (ports.set actual (UInt16.ofInt iPort)) (actual + 1))
      else none

/-- The numbers up to the first zero. -/
def configured (ports : PortNumbers) : List UInt16 := ports.toList.takeWhile (· ≠ 0)

/-- The number that a part says. -/
def portOf (part : Text) : Option UInt16 := (Settings.safeStoi part).map UInt16.ofInt

theorem takeWhile_isDigit_append {c : UInt8} (sep : isDigit c = false) (s rest : Text) :
    (s ++ c :: rest).takeWhile isDigit = s.takeWhile isDigit := by
  induction s with
  | nil => simp [sep]
  | cons d s ih => simp only [List.cons_append, List.takeWhile_cons, ih]

/-- What comes after a number does not matter. -/
theorem safeStoi_append {c : UInt8} (sep : isDigit c = false) (minus : c ≠ 45) (s rest : Text) :
    Settings.safeStoi (s ++ c :: rest) = Settings.safeStoi s := by
  cases s with
  | nil => simp [Settings.safeStoi, sep, minus]
  | cons d s =>
    by_cases neg : d = 45
    · simp [Settings.safeStoi, neg, takeWhile_isDigit_append sep]
    · simp [Settings.safeStoi, neg, List.takeWhile_cons, takeWhile_isDigit_append sep]

theorem safeStoi_cText (s : Text) : Settings.safeStoi (cText s) = Settings.safeStoi s := by
  have parts := List.takeWhile_append_dropWhile (p := (· ≠ (0 : UInt8))) (l := s)
  cases rest : s.dropWhile (· ≠ (0 : UInt8)) with
  | nil =>
    rw [rest, List.append_nil] at parts
    exact congrArg Settings.safeStoi parts
  | cons c rest' =>
    have zero : c = 0 := by
      have := List.head?_dropWhile_not (· ≠ (0 : UInt8)) s
      rw [rest] at this
      simpa using this
    rw [rest, zero] at parts
    conv_rhs => rw [← parts]
    exact (safeStoi_append (by decide) (by decide) _ _).symm

@[simp] theorem portOf_cText (s : Text) : portOf (cText s) = portOf s :=
  congrArg (Option.map UInt16.ofInt) (safeStoi_cText s)

theorem setPort_get (ports : PortNumbers) (i j : Fin 25) (sPort : Text) :
    (setPort ports i sPort).get j =
      if j = i then (portOf sPort).getD (ports.get j) else ports.get j := by
  unfold setPort portOf
  rw [safeStoi_cText]
  cases Settings.safeStoi sPort with
  | none => simp
  | some iPort =>
    by_cases same : j = i
    · simp [same, slot_eq]
    · have apart : i.val ≠ j.val := fun h => same (Fin.ext h).symm
      simp [same, apart, slot_eq]

/-- The parts of the text, when some of the first has been read. -/
def partsFrom (sPort text : Text) : List Text := (text.splitOn 59).modifyHead (sPort ++ ·)

@[simp] theorem partsFrom_nil (sPort : Text) : partsFrom sPort [] = [sPort] := by
  simp [partsFrom, List.splitOn_nil]

theorem partsFrom_sep (sPort rest : Text) :
    partsFrom sPort (59 :: rest) = sPort :: partsFrom [] rest := by
  have same : (fun s : Text => s) = id := rfl
  simp [partsFrom, List.splitOn_cons_eq_if_modifyHead, same]

theorem partsFrom_cons {c : UInt8} (other : c ≠ 59) (sPort rest : Text) :
    partsFrom sPort (c :: rest) = partsFrom (sPort ++ [c]) rest := by
  simp [partsFrom, List.splitOn_cons_eq_if_modifyHead, other, Function.comp_def]

theorem partsFrom_ne_nil (sPort text : Text) : partsFrom sPort text ≠ [] := by
  simp [partsFrom, List.modifyHead_eq_nil_iff, List.splitOn_ne_nil]

section
variable {ports : PortNumbers} {actual : Nat} {sPort : Text}

theorem readParts_sep (place : actual < 25) (rest : Text) :
    readParts ports actual sPort (59 :: rest) =
      readParts (setPort ports ⟨actual, place⟩ sPort) (actual + 1) [] rest := by
  simp [readParts, place]

theorem readParts_cons (place : actual < 25) {c : UInt8} (other : c ≠ 59) (rest : Text) :
    readParts ports actual sPort (c :: rest) = readParts ports actual (sPort ++ [c]) rest := by
  simp [readParts, place, other]

theorem readParts_full (place : ¬ actual < 25) (text : Text) :
    readParts ports actual sPort text = (ports, actual, sPort ++ text) := by
  cases text <;> simp [readParts, place]

end

theorem readParts_get (text : Text) (ports : PortNumbers) (actual : Nat) (sPort : Text)
    (i : Fin 25) :
    (readParts ports actual sPort text).1.get i =
      if actual ≤ i ∧ i + 1 < actual + (partsFrom sPort text).length then
        ((partsFrom sPort text)[i - actual]?.bind portOf).getD (ports.get i)
      else ports.get i := by
  induction text generalizing ports actual sPort with
  | nil =>
    have outside : ¬ (actual ≤ i ∧ i.val + 1 < actual + (partsFrom sPort []).length) := by
      rw [partsFrom_nil, List.length_singleton]
      omega
    simp only [outside, if_false]
    rfl
  | cons c rest ih =>
    by_cases place : actual < 25
    · by_cases sep : c = 59
      · simp only [sep, readParts_sep place, ih, partsFrom_sep, setPort_get, List.length_cons]
        by_cases same : i = ⟨actual, place⟩
        · have more := List.length_pos_of_ne_nil (partsFrom_ne_nil [] rest)
          have first : ¬ actual + 1 ≤ actual := by omega
          simp [same, more, first]
        · have apart : i.val ≠ actual := fun h => same (Fin.ext h)
          by_cases before : actual + 1 ≤ i.val
          · have here : actual ≤ i.val := by omega
            have back : i.val - actual = i.val - (actual + 1) + 1 := by omega
            have bound : i.val + 1 < actual + 1 + (partsFrom [] rest).length ↔
                i.val + 1 < actual + ((partsFrom [] rest).length + 1) := by omega
            simp only [before, here, bound, same, back, List.getElem?_cons_succ, if_false, true_and]
          · have late : ¬ actual ≤ i.val := by omega
            simp [before, late, same]
      · simp only [readParts_cons place sep, ih, partsFrom_cons sep]
    · have late : ¬ actual ≤ i.val := by omega
      simp [readParts_full place, late]

/-- A number is read no further than its part. -/
theorem portOf_append (sPort text : Text) :
    portOf (sPort ++ text) = (partsFrom sPort text)[0]?.bind portOf := by
  induction text generalizing sPort with
  | nil => simp
  | cons c rest ih =>
    by_cases sep : c = 59
    · rw [sep, partsFrom_sep]
      exact congrArg (Option.map UInt16.ofInt) (safeStoi_append (by decide) (by decide) sPort rest)
    · rw [partsFrom_cons sep, ← ih, List.append_assoc, List.singleton_append]

theorem readParts_rest (text : Text) (ports : PortNumbers) (actual : Nat) (place : actual ≤ 25)
    (sPort : Text) :
    (readParts ports actual sPort text).2.1 =
        min 25 (actual + (partsFrom sPort text).length - 1) ∧
      portOf (readParts ports actual sPort text).2.2 =
        (partsFrom sPort text)[(readParts ports actual sPort text).2.1 - actual]?.bind portOf := by
  induction text generalizing ports actual sPort with
  | nil =>
    have here : actual = min 25 actual := by omega
    simpa [readParts] using here
  | cons c rest ih =>
    by_cases room : actual < 25
    · by_cases sep : c = 59
      · have more := List.length_pos_of_ne_nil (partsFrom_ne_nil [] rest)
        obtain ⟨count, left⟩ := ih (setPort ports ⟨actual, room⟩ sPort) (actual + 1) room []
        simp only [sep, readParts_sep room, partsFrom_sep, List.length_cons]
        constructor
        · rw [count]
          omega
        · have back : (readParts (setPort ports ⟨actual, room⟩ sPort) (actual + 1) [] rest).2.1 -
              actual = (readParts (setPort ports ⟨actual, room⟩ sPort) (actual + 1) [] rest).2.1 -
                (actual + 1) + 1 := by
            omega
          rw [back, List.getElem?_cons_succ]
          exact left
      · rw [readParts_cons room sep, partsFrom_cons sep]
        exact ih ports actual place (sPort ++ [c])
    · have more := List.length_pos_of_ne_nil (partsFrom_ne_nil sPort (c :: rest))
      have last : actual = 25 := by omega
      rw [readParts_full room, portOf_append]
      constructor
      · simp only [last]
        omega
      · simp

theorem clearFrom_get (ports : PortNumbers) (actual : Nat) (i : Fin 25) :
    (clearFrom ports actual).get i = if i < actual then ports.get i else 0 := by
  simp [clearFrom, slot_eq]

theorem updateTCPPorts_eq (ports : PortNumbers) (text : Text) :
    updateTCPPorts ports text =
      match portOf (readParts ports 0 [] text).2.2 with
      | none => some (clearFrom (readParts ports 0 [] text).1 (readParts ports 0 [] text).2.1)
      | some port =>
        if place : (readParts ports 0 [] text).2.1 < 25 then
          some (clearFrom ((readParts ports 0 [] text).1.set (readParts ports 0 [] text).2.1 port)
            ((readParts ports 0 [] text).2.1 + 1))
        else none := by
  simp only [updateTCPPorts, portOf, ← safeStoi_cText (readParts ports 0 [] text).2.2]
  split
  · rename_i empty
    rw [List.isEmpty_iff.mp empty]
    rfl
  · cases Settings.safeStoi (cText (readParts ports 0 [] text).2.2) <;> rfl

/-- The number of a part that a semicolon ends stays what it was if the part has no number. The
last part is left out if it has none. A number in a twenty-sixth part is written past the end. -/
theorem updateTCPPorts_get (ports : PortNumbers) (text : Text) :
    (updateTCPPorts ports text = none ↔ ((text.splitOn 59)[25]?.bind portOf).isSome) ∧
      ∀ ports', updateTCPPorts ports text = some ports' → ∀ i : Fin 25,
        ports'.get i = ((text.splitOn 59)[i.val]?.bind portOf).getD
          (if i + 1 < (text.splitOn 59).length then ports.get i else 0) := by
  have whole : partsFrom [] text = text.splitOn 59 := by
    have same : (fun s : Text => s) = id := rfl
    simp [partsFrom, same]
  have read := readParts_get text ports 0 []
  obtain ⟨count, left⟩ := readParts_rest text ports 0 (by omega) []
  have more := List.length_pos_of_ne_nil (partsFrom_ne_nil [] text)
  rw [updateTCPPorts_eq]
  rw [whole] at count left more
  simp only [whole] at read
  generalize readParts ports 0 [] text = r at read count left
  obtain ⟨slots, actual, sPort⟩ := r
  simp only [Nat.sub_zero, Nat.zero_add] at read count left ⊢
  rw [left]
  have beyond (i : Nat) (h : (text.splitOn 59).length ≤ i) :
      (text.splitOn 59)[i]?.bind portOf = none := by
    rw [List.getElem?_eq_none h]
    rfl
  cases last : (text.splitOn 59)[actual]?.bind portOf with
  | none =>
    have inside : (text.splitOn 59)[25]?.bind portOf = none := by
      by_cases long : (text.splitOn 59).length ≤ 25
      · exact beyond 25 long
      · have full : actual = 25 := by omega
        exact full ▸ last
    simp only [inside, Option.isSome_none, Bool.false_eq_true, reduceCtorEq, Option.some.injEq,
      true_and]
    rintro ports' rfl i
    rw [clearFrom_get]
    by_cases before : i.val < actual
    · have ended : i.val + 1 < (text.splitOn 59).length := by omega
      simp [before, ended, read]
    · have open_ : ¬ i.val + 1 < (text.splitOn 59).length := by omega
      have nothing : (text.splitOn 59)[i.val]?.bind portOf = none := by
        by_cases at_ : i.val = actual
        · rw [at_, last]
        · exact beyond i (by omega)
      simp [before, open_, nothing]
  | some port =>
    by_cases place : actual < 25
    · have inside : (text.splitOn 59)[25]?.bind portOf = none := beyond 25 (by omega)
      simp only [inside, place, dite_true, Option.isSome_none, Bool.false_eq_true, reduceCtorEq,
        Option.some.injEq, true_and]
      rintro ports' rfl i
      rw [clearFrom_get]
      rcases Nat.lt_trichotomy i.val actual with before | at_ | after
      · have ended : i.val + 1 < (text.splitOn 59).length := by omega
        have inside : i.val < actual + 1 := by omega
        have apart : actual ≠ i.val := by omega
        have old : (slots.set actual port).get i = slots.get i :=
          Vector.getElem_set_ne _ _ apart
        simp [inside, ended, old, read]
      · have new : (slots.set actual port).get i = port := by simp [at_, slot_eq]
        simp only [new, at_, last, Option.getD_some, Nat.lt_succ_self, if_true]
      · have out : ¬ i.val < actual + 1 := by omega
        have open_ : ¬ i.val + 1 < (text.splitOn 59).length := by omega
        simp [out, open_, beyond i.val (by omega)]
    · have full : actual = 25 := by omega
      simp [← full, last]

-- `SetText` takes a text of 26 characters.
example : updateTCPPorts (Vector.replicate 25 0) (List.replicate 25 59 ++ ascii "1") = none := by
  decide

/-! ## The ports that are served -/

inductive Family where
  | inet
  | inet6
  deriving DecidableEq, Repr

/-- A thread that listens on a port. It takes connections in once it is resumed. -/
structure Listener where
  family : Family
  port : UInt16
  resumed : Bool
  deriving DecidableEq, Repr

/-- `tried` counts the sockets that the hub has tried to open. -/
structure PortManager where
  text : Text
  ports : PortNumbers
  running : Bool
  tried : Nat
  servers : List Listener

/-- `single` is what is left of `m_bIPv6DualStack` and the setting that binds to one address:
a port needs a socket of each family. -/
structure Network where
  useIPv6 : Bool
  single : Bool

namespace PortManager

section
variable (opens : Nat → Bool) (m : PortManager)

/-- The `n`th socket can be opened if `opens n`. -/
def createServerThread (family : Family) (port : UInt16) : PortManager :=
  if opens m.tried then
    { m with tried := m.tried + 1, servers := m.servers ++ [⟨family, port, false⟩] }
  else { m with tried := m.tried + 1 }

def createServers (net : Network) (port : UInt16) : PortManager :=
  if !net.useIPv6 then m.createServerThread opens .inet port
  else
    let m := m.createServerThread opens .inet6 port
    if net.single then m.createServerThread opens .inet port else m

/-- Nothing, if a number is written past the end of the array. -/
def start (net : Network) : Option PortManager :=
  (updateTCPPorts m.ports m.text).map fun ports =>
    let m := (configured ports).foldl (·.createServers opens net ·) { m with ports }
    if m.servers = [] then m
    else
      { m with servers := m.servers.map ({ · with resumed := true }), running := true }

/-- The servers of ports that are no longer wanted are closed. -/
def closeServers : PortManager :=
  { m with servers := m.servers.filter (·.port ∈ configured m.ports) }

def addServers (net : Network) (port : UInt16) : PortManager :=
  if m.servers.any (·.port = port) then m else m.createServers opens net port

def updateServers (net : Network) : PortManager :=
  (configured m.ports).foldl (·.addServers opens net ·) m.closeServers

/-- `UpdateTCPPorts` after `SetText` has put a new text in place. -/
def setText (change : Text × Network) : Option PortManager :=
  (updateTCPPorts m.ports change.1).map fun ports =>
    let m := { m with text := change.1, ports }
    if m.running then m.updateServers opens change.2 else m

/-- The changes are made one after the other. -/
def setTexts (changes : List (Text × Network)) : Option PortManager :=
  changes.foldlM (setText opens) m

end

/-- The port takes connections in. -/
def Accepts (m : PortManager) (port : UInt16) : Prop :=
  ∃ l ∈ m.servers, l.port = port ∧ l.resumed = true

/-- The port is open. -/
def Listens (m : PortManager) (port : UInt16) : Prop := ∃ l ∈ m.servers, l.port = port

/-- Some ports may be open besides, of which none takes connections in. -/
structure Extends (m m' : PortManager) (ps : List UInt16) : Prop where
  ports : m'.ports = m.ports
  running : m'.running = m.running
  servers : ∃ new, m'.servers = m.servers ++ new ∧
    ∀ l ∈ new, l.resumed = false ∧ l.port ∈ ps

section
variable {m m' m'' : PortManager} {ps : List UInt16} {port : UInt16}

theorem Extends.refl : m.Extends m ps where
  ports := rfl
  running := rfl
  servers := ⟨[], by simp, by simp⟩

theorem Extends.trans (first : m.Extends m' ps) (next : m'.Extends m'' ps) : m.Extends m'' ps where
  ports := next.ports.trans first.ports
  running := next.running.trans first.running
  servers := by
    obtain ⟨new, servers, fresh⟩ := first.servers
    obtain ⟨new', servers', fresh'⟩ := next.servers
    refine ⟨new ++ new', by rw [servers', servers, List.append_assoc], fun l mem => ?_⟩
    rcases List.mem_append.mp mem with old | young
    · exact fresh l old
    · exact fresh' l young

theorem Extends.listens (grown : m.Extends m' ps) (h : m.Listens port) : m'.Listens port := by
  obtain ⟨l, mem, same⟩ := h
  obtain ⟨new, servers, -⟩ := grown.servers
  exact ⟨l, servers ▸ List.mem_append_left new mem, same⟩

theorem Extends.listens_old (grown : m.Extends m' ps) (h : m'.Listens port) :
    m.Listens port ∨ port ∈ ps := by
  obtain ⟨l, mem, rfl⟩ := h
  obtain ⟨new, servers, fresh⟩ := grown.servers
  rcases List.mem_append.mp (servers ▸ mem) with old | young
  · exact .inl ⟨l, old, rfl⟩
  · exact .inr (fresh l young).2

theorem Extends.accepts_iff (grown : m.Extends m' ps) : m'.Accepts port ↔ m.Accepts port := by
  obtain ⟨new, servers, fresh⟩ := grown.servers
  constructor
  · rintro ⟨l, mem, same, resumed⟩
    rcases List.mem_append.mp (servers ▸ mem) with old | young
    · exact ⟨l, old, same, resumed⟩
    · exact absurd resumed (by simp [(fresh l young).1])
  · rintro ⟨l, mem, same⟩
    exact ⟨l, servers ▸ List.mem_append_left new mem, same⟩

variable (opens : Nat → Bool)

theorem createServerThread_extends (family : Family) (mem : port ∈ ps) :
    m.Extends (m.createServerThread opens family port) ps := by
  unfold createServerThread
  split
  · exact ⟨rfl, rfl, [⟨family, port, false⟩], rfl, by simp [mem]⟩
  · exact ⟨rfl, rfl, [], by simp, by simp⟩

theorem createServers_extends (net : Network) (mem : port ∈ ps) :
    m.Extends (m.createServers opens net port) ps := by
  unfold createServers
  split
  · exact createServerThread_extends opens .inet mem
  · have first := createServerThread_extends (m := m) opens .inet6 mem
    split
    · exact first.trans (createServerThread_extends opens .inet mem)
    · exact first

theorem addServers_extends (net : Network) (mem : port ∈ ps) :
    m.Extends (m.addServers opens net port) ps := by
  unfold addServers
  split
  · exact .refl
  · exact createServers_extends opens net mem

theorem adding_extends (net : Network) (added : List UInt16) (inside : ∀ p ∈ added, p ∈ ps) :
    m.Extends (added.foldl (·.addServers opens net ·) m) ps := by
  induction added generalizing m with
  | nil => exact .refl
  | cons p added ih =>
    exact (addServers_extends opens net (inside p List.mem_cons_self)).trans
      (ih fun q mem => inside q (List.mem_cons_of_mem p mem))

theorem createServers_listens (always : ∀ n, opens n = true) (net : Network) :
    (m.createServers opens net port).Listens port := by
  have opened (m : PortManager) (family : Family) :
      (m.createServerThread opens family port).Listens port := by
    refine ⟨⟨family, port, false⟩, ?_, rfl⟩
    simp [createServerThread, always]
  unfold createServers
  split
  · exact opened m .inet
  · split
    · exact opened _ .inet
    · exact opened m .inet6

theorem addServers_listens (always : ∀ n, opens n = true) (net : Network) :
    (m.addServers opens net port).Listens port := by
  unfold addServers
  split
  · rename_i found
    obtain ⟨l, mem, same⟩ := List.any_eq_true.mp found
    exact ⟨l, mem, by simpa using same⟩
  · exact createServers_listens opens always net

theorem adding_listens (always : ∀ n, opens n = true) (net : Network) (added : List UInt16)
    (mem : port ∈ added) : (added.foldl (·.addServers opens net ·) m).Listens port := by
  induction added generalizing m with
  | nil => cases mem
  | cons p added ih =>
    rcases List.mem_cons.mp mem with rfl | later
    · exact (adding_extends opens net added fun _ h => h).listens
        (addServers_listens opens always net)
    · exact ih later

theorem closeServers_accepts :
    m.closeServers.Accepts port ↔ m.Accepts port ∧ port ∈ configured m.ports := by
  unfold Accepts closeServers
  constructor
  · rintro ⟨l, mem, rfl, resumed⟩
    obtain ⟨old, kept⟩ := List.mem_filter.mp mem
    exact ⟨⟨l, old, rfl, resumed⟩, by simpa using kept⟩
  · rintro ⟨⟨l, mem, rfl, resumed⟩, kept⟩
    exact ⟨l, List.mem_filter.mpr ⟨mem, by simpa using kept⟩, rfl, resumed⟩

theorem updateServers_extends (net : Network) :
    m.closeServers.Extends (m.updateServers opens net) (configured m.ports) :=
  adding_extends opens net _ fun _ mem => mem

theorem updateServers_listens (net : Network) (h : (m.updateServers opens net).Listens port) :
    port ∈ configured m.ports := by
  rcases (updateServers_extends opens net).listens_old h with ⟨l, mem, rfl⟩ | new
  · simpa using (List.mem_filter.mp mem).2
  · exact new

/-- What a change of the text does while the hub runs. -/
structure Changed (m m' : PortManager) : Prop where
  running : m'.running = true
  accepts : ∀ port, m'.Accepts port ↔ m.Accepts port ∧ port ∈ configured m'.ports
  listens : ∀ port, m'.Listens port → port ∈ configured m'.ports
  all : (∀ n, opens n = true) → ∀ port ∈ configured m'.ports, m'.Listens port

theorem setText_changed (running : m.running = true) {change : Text × Network}
    (changed : m.setText opens change = some m') : Changed opens m m' := by
  obtain ⟨ports, -, rfl⟩ := Option.map_eq_some_iff.mp changed
  have grown := updateServers_extends (m := { m with text := change.1, ports }) opens change.2
  simp only [running, if_true] at grown ⊢
  exact {
    running := grown.running
    accepts := fun port => by
      rw [grown.accepts_iff, closeServers_accepts, grown.ports]
      rfl
    listens := fun port h => by
      rw [grown.ports]
      exact updateServers_listens (m := { m with text := change.1, ports, running := true })
        opens change.2 h
    all := fun always port mem => by
      rw [grown.ports] at mem
      exact adding_listens opens always change.2 _ mem }

theorem start_accepts {net : Network} (started : m.start opens net = some m') :
    m'.Accepts port ↔ m'.Listens port := by
  obtain ⟨ports, -, rfl⟩ := Option.map_eq_some_iff.mp started
  simp only [Accepts, Listens]
  split
  · rename_i none
    simp [none]
  · simp

theorem setTexts_cons (change : Text × Network) (changes : List (Text × Network)) :
    m.setTexts opens (change :: changes) =
      (m.setText opens change).bind fun next => next.setTexts opens changes := rfl

theorem setTexts_changed (running : m.running = true) {changes : List (Text × Network)}
    (reached : m.setTexts opens changes = some m') :
    (m'.Accepts port ↔ m.Accepts port ∧ ∀ pre, pre ≠ [] → pre <+: changes →
      ∀ n, m.setTexts opens pre = some n → port ∈ configured n.ports) ∧
    (changes ≠ [] → (m'.Listens port → port ∈ configured m'.ports) ∧
      ((∀ n, opens n = true) → port ∈ configured m'.ports → m'.Listens port)) := by
  induction changes generalizing m with
  | nil =>
    cases Option.some.inj reached
    refine ⟨⟨fun h => ⟨h, fun pre some_ inside => ?_⟩, And.left⟩, fun some_ => absurd rfl some_⟩
    exact absurd (List.prefix_nil.mp inside) some_
  | cons change changes ih =>
    rw [setTexts_cons, Option.bind_eq_some_iff] at reached
    obtain ⟨next, changed, rest⟩ := reached
    have first := setText_changed opens running changed
    obtain ⟨accepts, listens⟩ := ih first.running rest
    constructor
    · rw [accepts, first.accepts]
      constructor
      · rintro ⟨⟨before, now⟩, later⟩
        refine ⟨before, fun pre some_ inside n hn => ?_⟩
        obtain _ | ⟨change', pre⟩ := pre
        · exact absurd rfl some_
        obtain ⟨rfl, within⟩ := List.cons_prefix_cons.mp inside
        rw [setTexts_cons, changed, Option.bind_some] at hn
        by_cases done : pre = []
        · subst done
          cases Option.some.inj hn
          exact now
        · exact later pre done within n hn
      · rintro ⟨before, all⟩
        refine ⟨⟨before, all [change] (by simp) (by simp) next ?_⟩, fun pre some_ inside n hn => ?_⟩
        · rw [setTexts_cons, changed]
          rfl
        · refine all (change :: pre) (by simp) (List.cons_prefix_cons.mpr ⟨rfl, inside⟩) n ?_
          rw [setTexts_cons, changed]
          exact hn
    · intro
      by_cases done : changes = []
      · subst done
        cases Option.some.inj rest
        exact ⟨first.listens port, fun always => first.all always port⟩
      · exact listens done

/-- However the text of the ports is changed while the hub runs, a port takes connections in
exactly if it was open when the hub had started and has been listed after every change since:
a port that is added is opened, but takes nothing in until the hub starts anew. -/
theorem ports_accept_iff (m : PortManager) (net : Network) {m₀ m' : PortManager}
    (started : m.start opens net = some m₀) (running : m₀.running = true)
    {changes : List (Text × Network)} (reached : m₀.setTexts opens changes = some m')
    (port : UInt16) :
    (m'.Accepts port ↔ m₀.Listens port ∧ ∀ pre, pre ≠ [] → pre <+: changes →
      ∀ n, m₀.setTexts opens pre = some n → port ∈ configured n.ports) ∧
    (changes ≠ [] → (m'.Listens port → port ∈ configured m'.ports) ∧
      ((∀ n, opens n = true) → port ∈ configured m'.ports → m'.Listens port)) := by
  rw [← start_accepts opens started]
  exact setTexts_changed opens running reached

end

/-- A hub that is not running. -/
def idle (text : Text) : PortManager where
  text
  ports := Vector.replicate 25 0
  running := false
  tried := 0
  servers := []

instance (m : PortManager) (port : UInt16) : Decidable (m.Accepts port) :=
  inferInstanceAs (Decidable (∃ l ∈ m.servers, l.port = port ∧ l.resumed = true))

instance (m : PortManager) (port : UInt16) : Decidable (m.Listens port) :=
  inferInstanceAs (Decidable (∃ l ∈ m.servers, l.port = port))

def dualStack : Network where
  useIPv6 := true
  single := false

/-- A hub that has started with the ports 411 and 412. -/
def serving : PortManager :=
  ((idle (ascii "411;412")).start (fun _ => true) dualStack).get (by decide)

/-- The port 411 is taken out and put back. -/
def outAndBack : List (Text × Network) :=
  [(ascii "412", dualStack), (ascii "411;412", dualStack)]

theorem ports_accept_outAndBack :
    ∃ m', serving.setTexts (fun _ => true) outAndBack = some m' ∧
      m'.Listens 411 ∧ ¬ m'.Accepts 411 := by
  have reached : serving.setTexts (fun _ => true) outAndBack =
      some ((serving.setTexts (fun _ => true) outAndBack).get (by decide)) :=
    (Option.some_get _).symm
  obtain ⟨accepts, listens⟩ := ports_accept_iff (fun _ => true) (idle (ascii "411;412")) dualStack
    (Option.some_get _).symm (by decide) reached 411
  refine ⟨_, reached, (listens (by decide)).2 (fun _ => rfl) (by decide), fun h => ?_⟩
  have out := (accepts.mp h).2 (outAndBack.take 1) (by decide) (List.take_prefix 1 _)
  exact absurd (out _ (Option.some_get (by decide)).symm) (by decide)

end PortManager

end FlyHub.Server
