import FlyHub.Broadcast.Buffer
import FlyHub.Text

/-!
# Texts put together piece by piece

The `$OpList` and the `$UserIP` of a round are put together in place: the next entry is
written over the closing pipe. What a growth of the buffer loses is never written again.
-/

namespace FlyHub.Broadcast

open FlyHub.Lib

/-- A text with no zero in it. -/
structure CText where
  text : Text
  clean : 0 ∉ text

/-- A user as `UserIPStore` sees it. -/
structure IpUser where
  sNick : CText
  sIP : CText
  short : sIP.text.length ≤ 39

/-- `OpsQueue` and `IPsQueue`. `nicks` and `users` are the entries since the last
`ClearQueues`, of which the hub keeps no record. -/
structure StoreQueues where
  opList : Buffer
  userIp : Buffer
  haveDollars : Bool
  nicks : List CText
  users : List IpUser

inductive StoreEvent where
  | opListStore (sNick : CText)
  | userIpStore (pUser : IpUser)
  | clearQueues

/-- `snprintf` of a text to the offset `off`, with `room` bytes left from there. -/
def snprintf (v : Vec UInt8) (off room : Nat) (text : Text) : Vec UInt8 :=
  if room = 0 then v else v.write off (text.take (room - 1) ++ [0])

namespace Buffer

variable (uninit : Nat → UInt8) (q : Buffer)

/-- Room for `n` bytes and a zero. -/
def reserve (n : Nat) : Buffer :=
  if q.pBuffer.cap < n + 1 then { q with pBuffer := q.pBuffer.resize uninit 0 (alignUp n) } else q

/-- The first text, or what comes over the closing pipe. -/
def printFirst (text : Text) : Buffer :=
  ⟨snprintf q.pBuffer 0 q.pBuffer.cap text, text.length⟩

def printNext (text : Text) : Buffer :=
  ⟨snprintf q.pBuffer (q.szLen - 1) (q.pBuffer.cap - (q.szLen - 1)) text,
    q.szLen + (text.length - 1)⟩

def opListStore (sNick : Text) : Buffer :=
  if q.szLen = 0 then q.printFirst (ascii "$OpList " ++ sNick ++ ascii "$$|")
  else (q.reserve uninit (q.szLen + (sNick.length + 3))).printNext (sNick ++ ascii "$$|")

/-- The single entry is closed. -/
def addDollars : Buffer :=
  ⟨q.pBuffer.write (q.szLen - 1) (ascii "$$"), q.szLen + 2⟩

/-- The queue of `UserIPStore`, and if it has the dollars then. -/
def userIpStore (haveDollars : Bool) (sNick sIP : Text) : Buffer × Bool :=
  if q.szLen = 0 then
    (q.printFirst (ascii "$UserIP " ++ (sNick ++ ascii " " ++ sIP) ++ ascii "|"), false)
  else
    let q := q.reserve uninit (q.szLen + (sNick.length + sIP.length + 4))
    let q := if haveDollars then q else q.addDollars
    (q.printNext (sNick ++ ascii " " ++ sIP ++ ascii "$$|"), true)

/-- What `ClearQueues` does to either of the two. -/
def clearText : Buffer := ⟨q.pBuffer.write 0 [0], 0⟩

end Buffer

namespace StoreQueues

variable (uninit : Nat → UInt8) (s : StoreQueues)

def init : StoreQueues := ⟨Buffer.init uninit, Buffer.init uninit, false, [], []⟩

def step : StoreEvent → StoreQueues
  | .opListStore n =>
    { s with opList := s.opList.opListStore uninit n.text, nicks := s.nicks ++ [n] }
  | .userIpStore u =>
    let stored := s.userIp.userIpStore uninit s.haveDollars u.sNick.text u.sIP.text
    { s with userIp := stored.1, haveDollars := stored.2, users := s.users ++ [u] }
  | .clearQueues =>
    { s with opList := s.opList.clearText, userIp := s.userIp.clearText, nicks := [], users := [] }

end StoreQueues

/-! ## The texts as they are to be -/

/-- The `$OpList` without its closing pipe. -/
def opListBody (ns : List CText) : Text :=
  ascii "$OpList " ++ ns.flatMap fun n => n.text ++ ascii "$$"

def opListText (ns : List CText) : Text := opListBody ns ++ ascii "|"

def IpUser.entry (u : IpUser) : Text := u.sNick.text ++ ascii " " ++ u.sIP.text

/-- The `$UserIP` without its closing pipe. A single entry has no dollars. -/
def userIpBody : List IpUser → Text
  | [u] => ascii "$UserIP " ++ u.entry
  | us => ascii "$UserIP " ++ us.flatMap fun u => u.entry ++ ascii "$$"

def userIpText (us : List IpUser) : Text := userIpBody us ++ ascii "|"

/-- The queue holds the text, and the right length. -/
structure Buffer.Holds (q : Buffer) (text : Text) : Prop where
  szLen : q.szLen = text.length
  content : q.content = text

/-- With an entry since the last `ClearQueues`, the queues hold the texts. -/
structure StoreQueues.WellFormed (s : StoreQueues) : Prop where
  opList : s.nicks ≠ [] → s.opList.Holds (opListText s.nicks)
  userIp : s.users ≠ [] → s.userIp.Holds (userIpText s.users)

namespace Buffer

variable (uninit : Nat → UInt8) (q : Buffer)

/-- A growth for `n` bytes keeps the text up to its closing pipe. -/
def Keeps (n : Nat) : Prop := q.pBuffer.cap < n + 1 → q.szLen - 1 ≤ q.pBuffer.size

/-- A first text fits with its zero. A later one finds the others kept. -/
def OpListFits (sNick : Text) : Prop :=
  if q.szLen = 0 then sNick.length + 11 < q.pBuffer.cap
  else q.Keeps (q.szLen + (sNick.length + 3))

/-- The dollars of the second entry are two bytes for which no room was made. -/
def UserIpFits (haveDollars : Bool) (sNick sIP : Text) : Prop :=
  if q.szLen = 0 then sNick.length + sIP.length + 10 < q.pBuffer.cap
  else
    let n := q.szLen + (sNick.length + sIP.length + 4)
    q.Keeps n ∧ (haveDollars = true ∨ n + 1 < (q.reserve uninit n).pBuffer.cap)

end Buffer

namespace StoreQueues

variable (uninit : Nat → UInt8) (s : StoreQueues)

def Fits : StoreEvent → Prop
  | .opListStore n => s.opList.OpListFits n.text
  | .userIpStore u => s.userIp.UserIpFits uninit s.haveDollars u.sNick.text u.sIP.text
  | .clearQueues => True

end StoreQueues

/-! ## What is printed -/

section
variable {uninit : Nat → UInt8} {v : Vec UInt8} {off room n : Nat} {text body : Text} {q : Buffer}

/-- A text is printed whole exactly if there is room for it and a zero. -/
theorem snprintf_slice_iff (v : Vec UInt8) (some_ : 1 ≤ room) (clean : 0 ∉ text)
    (length : body.length = off) :
    slice (snprintf v off room text).mem (off + text.length) = body ++ text ↔
      slice v.mem off = body ∧ text.length < room := by
  rw [snprintf, if_neg (Nat.ne_of_gt some_)]
  have front : slice (memcpy v.mem off (text.take (room - 1) ++ [0])) off = slice v.mem off :=
    slice_memcpy_of_le _ (Nat.le_refl _) _
  by_cases fits : text.length < room
  · have whole : text.take (room - 1) = text := List.take_of_length_le (by omega)
    have printed : slice (memcpy v.mem off (text ++ [0])) (off + text.length) =
        slice v.mem off ++ text := by
      rw [← slice_memcpy]
      apply slice_congr
      intro i below
      unfold memcpy
      split
      · rw [List.getElem?_append_left (by omega)]
      · rfl
    rw [whole, Vec.write, printed, and_iff_left fits]
    exact List.append_left_inj text
  · refine iff_of_false ?_ fun both => fits both.2
    intro same
    have short : (text.take (room - 1)).length = room - 1 := by
      rw [List.length_take]
      omega
    have at_ : (slice (memcpy v.mem off (text.take (room - 1) ++ [0])) (off + text.length))[
        off + (room - 1)]? = some 0 := by
      rw [slice_getElem?, if_pos (by omega), memcpy, if_pos (Nat.le_add_right _ _),
        Nat.add_sub_cancel_left, List.getElem?_append_right (by omega), short, Nat.sub_self]
      rfl
    rw [Vec.write] at same
    rw [same, List.getElem?_append_right (by omega), length, Nat.add_sub_cancel_left] at at_
    exact clean (List.mem_of_getElem? at_)

theorem zeroPast_iff (clean : 0 ∉ body) (size : Nat) :
    zeroPast body size = body ↔ body.length ≤ size := by
  rw [zeroPast_eq_iff ⟨rfl, fun _ => .inl rfl⟩, and_iff_right rfl]
  constructor
  · intro zeros
    by_contra longer
    have bound : size < body.length := Nat.not_le.mp longer
    have mem : body[size] ∈ body.drop size := List.mem_drop_iff_getElem.mpr ⟨0, by omega, by simp⟩
    exact clean (zeros _ mem ▸ List.getElem_mem bound)
  · intro short b mem
    rw [List.drop_eq_nil_of_le short] at mem
    cases mem

namespace Buffer

@[simp] theorem reserve_szLen : (q.reserve uninit n).szLen = q.szLen := by
  unfold reserve
  split <;> rfl

theorem reserve_cap : n + 1 ≤ (q.reserve uninit n).pBuffer.cap := by
  unfold reserve
  by_cases grows : q.pBuffer.cap < n + 1
  · have cap := Vec.resize_cap uninit 0 q.pBuffer grows
    rw [if_pos grows]
    simp only [alignUp, cap]
    omega
  · rw [if_neg grows]
    exact Nat.not_lt.mp grows

/-- A growth keeps the text exactly as far as the buffer was in use. -/
theorem reserve_slice_iff (body_ : slice q.pBuffer.mem (q.szLen - 1) = body) (clean : 0 ∉ body)
    (inside : q.szLen ≤ n) :
    slice (q.reserve uninit n).pBuffer.mem (q.szLen - 1) = body ↔ q.Keeps n := by
  unfold reserve Keeps
  by_cases grows : q.pBuffer.cap < n + 1
  · have length : body.length = q.szLen - 1 := by rw [← body_, slice_length]
    have zeroed : slice (q.pBuffer.resize uninit 0 (alignUp n)).mem (q.szLen - 1) =
        zeroPast body q.pBuffer.size := by
      rw [alignUp, Vec.slice_resize _ _ _ grows (by omega), body_, zeroPast, length]
    rw [if_pos grows]
    change slice (q.pBuffer.resize uninit 0 (alignUp n)).mem (q.szLen - 1) = body ↔ _
    rw [zeroed, zeroPast_iff clean, length]
    exact ⟨fun le _ => le, fun le => le grows⟩
  · rw [if_neg grows]
    exact iff_of_true body_ fun now => absurd now grows

theorem printFirst_holds_iff (some_ : 1 ≤ q.pBuffer.cap) (clean : 0 ∉ text) :
    (q.printFirst text).Holds text ↔ text.length < q.pBuffer.cap := by
  have printed := snprintf_slice_iff q.pBuffer some_ clean (show ([] : Text).length = 0 from rfl)
  rw [slice_zero, and_iff_right rfl, Nat.zero_add, List.nil_append] at printed
  rw [← printed]
  exact ⟨Holds.content, fun content => ⟨rfl, content⟩⟩

theorem printNext_holds_iff (some_ : 1 ≤ q.szLen) (room : q.szLen ≤ q.pBuffer.cap)
    (clean : 0 ∉ text) (some_text : 1 ≤ text.length) (length : body.length = q.szLen - 1) :
    (q.printNext text).Holds (body ++ text) ↔
      slice q.pBuffer.mem (q.szLen - 1) = body ∧ q.szLen + text.length ≤ q.pBuffer.cap := by
  have left : 1 ≤ q.pBuffer.cap - (q.szLen - 1) := by omega
  have printed := snprintf_slice_iff q.pBuffer left clean length
  have sum : q.szLen - 1 + text.length = q.szLen + (text.length - 1) := by omega
  have fits : text.length < q.pBuffer.cap - (q.szLen - 1) ↔
      q.szLen + text.length ≤ q.pBuffer.cap := by omega
  rw [sum, fits] at printed
  rw [← printed]
  refine ⟨Holds.content, fun content => ⟨?_, content⟩⟩
  rw [List.length_append, length]
  exact sum.symm

theorem opListStore_first (zero : q.szLen = 0) (some_ : 1 ≤ q.pBuffer.cap) (n : CText) :
    (q.opListStore uninit n.text).Holds (opListText [n]) ↔ q.OpListFits n.text := by
  have text : opListText [n] = ascii "$OpList " ++ n.text ++ ascii "$$|" := by
    simp [opListText, opListBody, ascii]
  have length : (opListText [n]).length = n.text.length + 11 := by
    rw [text]
    simp [ascii]
  have clean : 0 ∉ opListText [n] := by
    rw [text]
    simp [ascii, n.clean]
  rw [opListStore, if_pos zero, OpListFits, if_pos zero, ← text, printFirst_holds_iff some_ clean,
    length]

theorem Holds.front (holds : q.Holds (body ++ ascii "|")) :
    q.szLen = body.length + 1 ∧ slice q.pBuffer.mem (q.szLen - 1) = body := by
  have szLen : q.szLen = body.length + 1 := holds.szLen.trans List.length_append
  refine ⟨szLen, ?_⟩
  rw [← slice_take _ (Nat.sub_le _ _)]
  change q.content.take _ = body
  rw [holds.content, szLen, Nat.add_sub_cancel, List.take_left]

/-- What is printed over the closing pipe of a text comes behind the text if the text is kept
and there is room for it. -/
theorem reserve_printNext (holds : q.Holds (body ++ ascii "|")) (cleanBody : 0 ∉ body)
    (clean : 0 ∉ text) (some_ : 1 ≤ text.length) (enough : q.szLen + text.length ≤ n + 1) :
    ((q.reserve uninit n).printNext text).Holds (body ++ text) ↔ q.Keeps n := by
  obtain ⟨szLen, front⟩ := holds.front
  have cap : n + 1 ≤ (q.reserve uninit n).pBuffer.cap := reserve_cap
  have length : body.length = (q.reserve uninit n).szLen - 1 := by
    rw [reserve_szLen, szLen, Nat.add_sub_cancel]
  rw [printNext_holds_iff (by rw [reserve_szLen]; omega) (by rw [reserve_szLen]; omega) clean
    some_ length, reserve_szLen, reserve_slice_iff front cleanBody (by omega)]
  exact and_iff_left (enough.trans cap)

theorem opListBody_clean (ns : List CText) : 0 ∉ opListBody ns := by
  intro zero
  rcases List.mem_append.mp zero with here | there
  · exact absurd here (by decide)
  · obtain ⟨n, -, inside⟩ := List.mem_flatMap.mp there
    rcases List.mem_append.mp inside with nick | dollars
    · exact n.clean nick
    · exact absurd dollars (by decide)

theorem opListStore_next {ns : List CText} (n : CText) (holds : q.Holds (opListText ns)) :
    (q.opListStore uninit n.text).Holds (opListText (ns ++ [n])) ↔ q.OpListFits n.text := by
  have text : opListText (ns ++ [n]) = opListBody ns ++ (n.text ++ ascii "$$|") := by
    simp [opListText, opListBody, ascii]
  have clean : 0 ∉ n.text ++ ascii "$$|" := by
    rw [List.mem_append]
    exact fun zero => zero.elim n.clean (by decide)
  have length : (n.text ++ ascii "$$|").length = n.text.length + 3 := List.length_append
  have started : q.szLen ≠ 0 := by
    rw [holds.front.1]
    exact Nat.succ_ne_zero _
  rw [opListStore, if_neg started, OpListFits, if_neg started, text]
  exact reserve_printNext holds (opListBody_clean ns) clean (by omega) (by omega)

theorem entry_clean (u : IpUser) : 0 ∉ u.entry := by
  intro zero
  rcases List.mem_append.mp zero with before | ip
  · rcases List.mem_append.mp before with nick | gap
    · exact u.sNick.clean nick
    · exact absurd gap (by decide)
  · exact u.sIP.clean ip

theorem entry_length (u : IpUser) :
    u.entry.length = u.sNick.text.length + u.sIP.text.length + 1 := by
  simp [IpUser.entry, ascii]
  omega

theorem userIpBody_many {us : List IpUser} (many : us.length ≠ 1) :
    userIpBody us = ascii "$UserIP " ++ us.flatMap fun u => u.entry ++ ascii "$$" := by
  unfold userIpBody
  split
  · exact absurd rfl many
  · rfl

theorem userIpBody_clean (us : List IpUser) : 0 ∉ userIpBody us := by
  unfold userIpBody
  split
  · rename_i u
    rw [List.mem_append]
    exact fun zero => zero.elim (by decide) (entry_clean u)
  · rw [List.mem_append]
    rintro (here | there)
    · exact absurd here (by decide)
    · obtain ⟨u, -, inside⟩ := List.mem_flatMap.mp there
      rcases List.mem_append.mp inside with entry | dollars
      · exact entry_clean u entry
      · exact absurd dollars (by decide)

theorem userIpText_first (u : IpUser) :
    userIpText [u] = ascii "$UserIP " ++ u.entry ++ ascii "|" := rfl

/-- The second entry brings the dollars of the first. -/
theorem userIpText_second (u v : IpUser) :
    userIpText [u, v] = userIpBody [u] ++ ascii "$$" ++ (v.entry ++ ascii "$$|") := by
  simp [userIpText, userIpBody, ascii]

theorem userIpText_later {us : List IpUser} (many : 2 ≤ us.length) (u : IpUser) :
    userIpText (us ++ [u]) = userIpBody us ++ (u.entry ++ ascii "$$|") := by
  have more : (us ++ [u]).length ≠ 1 := by
    rw [List.length_append, List.length_singleton]
    omega
  rw [userIpText, userIpBody_many more, userIpBody_many (Nat.ne_of_gt many)]
  simp [ascii]

theorem userIpStore_first (zero : q.szLen = 0) (some_ : 1 ≤ q.pBuffer.cap) (haveDollars : Bool)
    (u : IpUser) :
    (q.userIpStore uninit haveDollars u.sNick.text u.sIP.text).1.Holds (userIpText [u]) ↔
      q.UserIpFits uninit haveDollars u.sNick.text u.sIP.text := by
  have length : (userIpText [u]).length = u.sNick.text.length + u.sIP.text.length + 10 := by
    rw [userIpText_first]
    simp [ascii, entry_length]
  have clean : 0 ∉ userIpText [u] := by
    rw [userIpText, List.mem_append]
    exact fun zero => zero.elim (userIpBody_clean [u]) (by decide)
  rw [userIpStore, if_pos zero, UserIpFits, if_pos zero, ← length]
  exact printFirst_holds_iff some_ clean

/-- The closed entry comes behind the text and its dollars. -/
theorem addDollars_printNext (holds : q.Holds (body ++ ascii "|")) (cleanBody : 0 ∉ body)
    (clean : 0 ∉ text) (some_ : 1 ≤ text.length) (enough : q.szLen + text.length = n) :
    ((q.reserve uninit n).addDollars.printNext text).Holds (body ++ ascii "$$" ++ text) ↔
      q.Keeps n ∧ n + 1 < (q.reserve uninit n).pBuffer.cap := by
  obtain ⟨szLen, front⟩ := holds.front
  have cap : n + 1 ≤ (q.reserve uninit n).pBuffer.cap := reserve_cap
  have dollars : (q.reserve uninit n).addDollars.szLen = q.szLen + 2 := by
    rw [addDollars, reserve_szLen]
  have same : (q.reserve uninit n).addDollars.pBuffer.cap = (q.reserve uninit n).pBuffer.cap := rfl
  have length : (body ++ ascii "$$").length = (q.reserve uninit n).addDollars.szLen - 1 := by
    rw [dollars, szLen]
    exact List.length_append
  have printed : slice (q.reserve uninit n).addDollars.pBuffer.mem (q.szLen + 2 - 1) =
      slice (q.reserve uninit n).pBuffer.mem (q.szLen - 1) ++ ascii "$$" := by
    have sum : q.szLen + 2 - 1 = q.szLen - 1 + (ascii "$$").length := by
      rw [szLen]
      rfl
    rw [sum, addDollars, reserve_szLen]
    exact slice_memcpy _ _ _
  rw [printNext_holds_iff (by rw [dollars]; omega) (by rw [dollars, same]; omega) clean some_
    length, dollars, printed, List.append_left_inj, reserve_slice_iff front cleanBody (by omega), same]
  have room : q.szLen + 2 + text.length ≤ (q.reserve uninit n).pBuffer.cap ↔
      n + 1 < (q.reserve uninit n).pBuffer.cap := by omega
  rw [room]

theorem exists_single {us : List IpUser} (some_ : us ≠ []) (few : ¬ 2 ≤ us.length) :
    ∃ u, us = [u] := by
  have positive := List.length_pos_iff.mpr some_
  exact List.length_eq_one_iff.mp (by omega)

theorem userIpStore_next {us : List IpUser} {haveDollars : Bool} (u : IpUser) (some_ : us ≠ [])
    (holds : q.Holds (userIpText us)) (dollars : haveDollars = true ↔ 2 ≤ us.length) :
    (q.userIpStore uninit haveDollars u.sNick.text u.sIP.text).1.Holds (userIpText (us ++ [u])) ↔
      q.UserIpFits uninit haveDollars u.sNick.text u.sIP.text := by
  have clean : 0 ∉ u.entry ++ ascii "$$|" := by
    rw [List.mem_append]
    exact fun zero => zero.elim (entry_clean u) (by decide)
  have length : (u.entry ++ ascii "$$|").length =
      u.sNick.text.length + u.sIP.text.length + 4 := by
    rw [List.length_append, entry_length]
    rfl
  have started : q.szLen ≠ 0 := by
    rw [holds.front.1]
    exact Nat.succ_ne_zero _
  have entry : u.sNick.text ++ ascii " " ++ u.sIP.text ++ ascii "$$|" =
      u.entry ++ ascii "$$|" := rfl
  rw [userIpStore, if_neg started, UserIpFits, if_neg started]
  dsimp only
  rw [entry]
  by_cases many : 2 ≤ us.length
  · rw [dollars.mpr many, if_pos rfl, userIpText_later many, and_iff_left (.inl rfl)]
    exact reserve_printNext holds (userIpBody_clean us) clean (by omega) (by omega)
  · obtain ⟨v, rfl⟩ := exists_single some_ many
    have single : haveDollars = false := by
      rw [← Bool.not_eq_true, dollars]
      exact many
    rw [single, if_neg Bool.false_ne_true, List.singleton_append, userIpText_second,
      or_iff_right Bool.false_ne_true]
    exact addDollars_printNext holds (userIpBody_clean [v]) clean (by omega) (by omega)

end Buffer

namespace StoreQueues

open Buffer

/-- What holds of the queues whatever was lost. -/
structure Sound (s : StoreQueues) : Prop where
  opLen : s.opList.szLen = if s.nicks = [] then 0 else (opListText s.nicks).length
  ipLen : s.userIp.szLen = if s.users = [] then 0 else (userIpText s.users).length
  dollars : s.users ≠ [] → (s.haveDollars = true ↔ 2 ≤ s.users.length)
  opCap : 1 ≤ s.opList.pBuffer.cap
  ipCap : 1 ≤ s.userIp.pBuffer.cap

variable {s : StoreQueues}

@[simp] theorem snprintf_cap : (snprintf v off room text).cap = v.cap := by
  unfold snprintf
  split <;> rfl

theorem opListText_concat (ns : List CText) (n : CText) :
    (opListText (ns ++ [n])).length = (opListText ns).length + (n.text.length + 2) := by
  simp [opListText, opListBody, ascii]
  omega

theorem opListStore_szLen (sound : s.Sound) (n : CText) :
    (s.opList.opListStore uninit n.text).szLen = (opListText (s.nicks ++ [n])).length := by
  have opLen := sound.opLen
  rw [opListText_concat]
  unfold opListStore
  by_cases none : s.nicks = []
  · rw [if_pos none] at opLen
    rw [if_pos opLen, none]
    simp [printFirst, opListText, opListBody, ascii]
    omega
  · have positive : 1 ≤ (opListText s.nicks).length := by simp [opListText, ascii]
    rw [if_neg none] at opLen
    rw [if_neg (by omega), printNext, reserve_szLen, opLen]
    simp [ascii]

theorem opListStore_cap (sound : s.Sound) (sNick : Text) :
    1 ≤ (s.opList.opListStore uninit sNick).pBuffer.cap := by
  unfold opListStore
  split
  · rw [printFirst, snprintf_cap]
    exact sound.opCap
  · rw [printNext, snprintf_cap]
    exact (Nat.le_add_left 1 _).trans reserve_cap

theorem userIpStore_szLen (sound : s.Sound) (u : IpUser) :
    (s.userIp.userIpStore uninit s.haveDollars u.sNick.text u.sIP.text).1.szLen =
      (userIpText (s.users ++ [u])).length := by
  have ipLen := sound.ipLen
  have entry : u.sNick.text ++ ascii " " ++ u.sIP.text = u.entry := rfl
  unfold userIpStore
  dsimp only
  rw [entry]
  by_cases none : s.users = []
  · rw [if_pos none] at ipLen
    rw [if_pos ipLen, none]
    rfl
  · have positive : 1 ≤ (userIpText s.users).length := by simp [userIpText, ascii]
    rw [if_neg none] at ipLen
    rw [if_neg (by omega), printNext]
    by_cases many : 2 ≤ s.users.length
    · rw [(sound.dollars none).mpr many, if_pos rfl, userIpText_later many, reserve_szLen, ipLen,
        userIpText]
      simp [ascii]
      omega
    · obtain ⟨v, single⟩ := exists_single none many
      have noDollars : s.haveDollars = false := by
        rw [← Bool.not_eq_true, sound.dollars none]
        exact many
      rw [noDollars, if_neg Bool.false_ne_true, single, List.singleton_append, userIpText_second,
        addDollars, reserve_szLen, ipLen, single, userIpText]
      simp [ascii]
      omega

theorem userIpStore_cap (sound : s.Sound) (sNick sIP : Text) :
    1 ≤ (s.userIp.userIpStore uninit s.haveDollars sNick sIP).1.pBuffer.cap := by
  unfold userIpStore
  split
  · rw [printFirst, snprintf_cap]
    exact sound.ipCap
  · dsimp only
    rw [printNext, snprintf_cap]
    have cap : ∀ n, 1 ≤ (s.userIp.reserve uninit n).pBuffer.cap := fun n =>
      (Nat.le_add_left 1 _).trans reserve_cap
    split
    · exact cap _
    · exact cap _

/-- The first entry has no dollars, every later one has. -/
theorem userIpStore_dollars (sound : s.Sound) (u : IpUser) :
    (s.userIp.userIpStore uninit s.haveDollars u.sNick.text u.sIP.text).2 = true ↔
      2 ≤ (s.users ++ [u]).length := by
  have ipLen := sound.ipLen
  unfold userIpStore
  by_cases none : s.users = []
  · rw [if_pos none] at ipLen
    rw [if_pos ipLen, none]
    simp
  · have positive : 1 ≤ (userIpText s.users).length := by simp [userIpText, ascii]
    have some_ := List.length_pos_iff.mpr none
    rw [if_neg none] at ipLen
    rw [if_neg (by omega), List.length_append, List.length_singleton]
    exact iff_of_true rfl (by omega)

theorem step_sound (sound : s.Sound) (e : StoreEvent) : (s.step uninit e).Sound := by
  cases e with
  | opListStore n =>
    refine ⟨?_, sound.ipLen, sound.dollars, opListStore_cap sound n.text, sound.ipCap⟩
    exact (opListStore_szLen sound n).trans (if_neg (by simp [step])).symm
  | userIpStore u =>
    refine ⟨sound.opLen, ?_, fun _ => userIpStore_dollars sound u, sound.opCap,
      userIpStore_cap sound _ _⟩
    exact (userIpStore_szLen sound u).trans (if_neg (by simp [step])).symm
  | clearQueues => exact ⟨rfl, rfl, fun some_ => absurd rfl some_, sound.opCap, sound.ipCap⟩

theorem init_sound : (init uninit).Sound :=
  ⟨rfl, rfl, fun some_ => absurd rfl some_, Nat.le_add_left 1 _, Nat.le_add_left 1 _⟩

/-- An entry leaves well formed texts behind exactly if it fits. -/
theorem step_wellFormed_iff (sound : s.Sound) (formed : s.WellFormed) (e : StoreEvent) :
    (s.step uninit e).WellFormed ↔ s.Fits uninit e := by
  cases e with
  | opListStore n =>
    have holds : (s.opList.opListStore uninit n.text).Holds (opListText (s.nicks ++ [n])) ↔
        s.opList.OpListFits n.text := by
      by_cases none : s.nicks = []
      · have zero := sound.opLen
        rw [if_pos none] at zero
        rw [none]
        exact opListStore_first zero sound.opCap n
      · exact opListStore_next n (formed.opList none)
    change _ ↔ s.opList.OpListFits n.text
    rw [← holds]
    exact ⟨fun next => next.opList (by simp [step]), fun now => ⟨fun _ => now, formed.userIp⟩⟩
  | userIpStore u =>
    have holds : (s.userIp.userIpStore uninit s.haveDollars u.sNick.text u.sIP.text).1.Holds
        (userIpText (s.users ++ [u])) ↔
          s.userIp.UserIpFits uninit s.haveDollars u.sNick.text u.sIP.text := by
      by_cases none : s.users = []
      · have zero := sound.ipLen
        rw [if_pos none] at zero
        rw [none]
        exact userIpStore_first zero sound.ipCap s.haveDollars u
      · exact userIpStore_next u none (formed.userIp none) (sound.dollars none)
    change _ ↔ s.userIp.UserIpFits uninit s.haveDollars u.sNick.text u.sIP.text
    rw [← holds]
    exact ⟨fun next => next.userIp (by simp [step]), fun now => ⟨formed.opList, fun _ => now⟩⟩
  | clearQueues =>
    exact ⟨fun _ => trivial,
      fun _ => ⟨fun some_ => absurd rfl some_, fun some_ => absurd rfl some_⟩⟩

theorem init_wellFormed : (init uninit).WellFormed :=
  ⟨fun some_ => absurd rfl some_, fun some_ => absurd rfl some_⟩

/-- The texts are well formed all along exactly as long as every entry fits. -/
theorem wellFormed_iff (uninit : Nat → UInt8) (es : List StoreEvent) :
    (∀ pre, pre <+: es → (run (step uninit) (init uninit) pre).WellFormed) ↔
      Allowed (step uninit) (Fits uninit) (init uninit) es :=
  forall_prefix_iff_allowed Sound WellFormed (fun _ e sound => step_sound sound e)
    (fun _ e sound formed => step_wellFormed_iff sound formed e) init_sound init_wellFormed

end StoreQueues

end

/-! ## Eight operators in one round -/

/-- A nick of 64 bytes. -/
def longNick : CText := ⟨List.replicate 64 97, by decide⟩

def eightOps : List StoreEvent := List.replicate 8 (.opListStore longNick)

/-- The second growth loses the nicks behind the 275 bytes that are in use. -/
theorem eightOps_lost :
    ¬ ∀ pre, pre <+: eightOps →
      (run (StoreQueues.step fun _ => 0) (StoreQueues.init fun _ => 0) pre).WellFormed := by
  intro formed
  have content := ((formed eightOps (List.prefix_refl _)).opList (by decide)).content
  have at_ := congrArg (fun text => text[275]?) content
  rw [Buffer.content, slice_getElem?, if_pos (by decide +kernel)] at at_
  exact absurd at_ (by decide +kernel)

end FlyHub.Broadcast
