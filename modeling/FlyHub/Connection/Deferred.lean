import FlyHub.Connection.SendFifo

/-!
# Texts deferred at login

The scripts may send texts to a client that logs in before it has got the list of users. What
is left of them in the send buffer is cut out, and put in again behind the list and the other
texts of the login. All that is kept for the cut is the length of the data before the scripts
ran.
-/

namespace FlyHub.Connection

open FlyHub.Lib

/-- A text that a script sends, at once or when something else is sent. A text for which the
buffer would grow over its maximum closes the user, or costs one that is kept other texts. -/
structure ScriptText where
  sText : Text
  full : sText ≠ []
  atOnce : Option SocketResult
  myInfosTagLen : UInt32
  myInfosLen : UInt32

def ScriptText.events (x : ScriptText) : List SendEvent :=
  .put x.sText x.full x.myInfosTagLen x.myInfosLen :: x.atOnce.toList.map .send

def SendEvent.texts : SendEvent → List Text
  | .put sText _ _ _ => [sText]
  | .send _ | .bigList => []

/-- What is sent to a client that was accepted: the list of users and the other texts of the
login, then the texts of the scripts. -/
structure LoginTexts where
  events : List SendEvent
  myInfosTagLen : UInt32
  myInfosLen : UInt32
  sends : List SocketResult

def LoginTexts.text (l : LoginTexts) : Text := (l.events.flatMap SendEvent.texts).flatten

/-- A client that the scripts have accepted. `deferred` is what `m_Buffer` has then. -/
structure AcceptedClient where
  scripts : SendTrace
  buffer : SendBuffer
  deferred : Text

namespace SendBuffer

variable (s : SendBuffer)

/-- `UserConnected`. -/
def userConnected (xs : List ScriptText) : Except Stop SendTrace :=
  (xs.flatMap ScriptText.events).foldlM SendTrace.step ⟨s, [], [s.pending]⟩

/-- What is behind the first `iBeforeLuaLen` bytes is cut out. -/
def cutTexts (iBeforeLuaLen : Nat) : Except Stop (SendBuffer × Text) :=
  if iBeforeLuaLen < s.sendBufDataLen then do
    let buf ← inside s.pSendBuf
    let deferred ← inside (readAt buf iBeforeLuaLen (s.sendBufDataLen - iBeforeLuaLen))
    let buf ← inside (writeAt buf iBeforeLuaLen [0])
    pure ({ s with pSendBuf := some buf, sendBufDataLen := iBeforeLuaLen }, deferred)
  else pure (s, [])

/-- `ReceiveLoop`, or `none` if the client was closed meanwhile. -/
def accept (xs : List ScriptText) : Except Stop (Option AcceptedClient) := do
  let t ← s.userConnected xs
  if t.buffer.error then pure none
  else do
    let cut ← t.buffer.cutTexts s.sendBufDataLen
    pure (some ⟨t, cut.1, cut.2⟩)

end SendBuffer

namespace AcceptedClient

variable (c : AcceptedClient)

/-- `SendLoop`. -/
def login (l : LoginTexts) : Except Stop SendTrace := do
  let t ← l.events.foldlM SendTrace.step
    ⟨c.buffer, c.scripts.socket, [c.scripts.socket ++ c.buffer.pending]⟩
  let t ← if full : c.deferred ≠ [] then
      t.step (.put c.deferred full l.myInfosTagLen l.myInfosLen)
    else pure t
  (l.sends.map SendEvent.send).foldlM SendTrace.step t

/-- The texts are whole: those that were sent at once come before the login texts, all the
others behind them. -/
structure Whole (s : SendBuffer) (sent rest : List Text) : Prop where
  head_le : c.buffer.head ≤ c.buffer.sendBufDataLen
  before : c.scripts.socket ++ c.buffer.pending = s.pending ++ sent.flatten
  after : c.deferred = rest.flatten
  atOnce : sent ≠ [] → c.buffer.pending = []
  receives : ∀ l, Ends (c.login l) fun t =>
    t.socket ++ t.buffer.pending = s.pending ++ sent.flatten ++ l.text ++ rest.flatten

/-- The client gets every text of the scripts, whole and in order. -/
def Intact (s : SendBuffer) (texts : List Text) : Prop :=
  ∃ sent rest, texts = sent ++ rest ∧ c.Whole s sent rest

/-- The remembered length still says where the texts begin: nothing was moved in the buffer and
no text has been sent, or all before it has been sent, up to the end of a text. -/
def MarkHolds (s : SendBuffer) (texts : List Text) : Prop :=
  (c.scripts.buffer.head = s.head + c.scripts.socket.length ∧
      c.scripts.buffer.head ≤ s.sendBufDataLen) ∨
    (c.scripts.buffer.head = min s.sendBufDataLen c.scripts.buffer.sendBufDataLen ∧
      ∃ sent, sent <+: texts ∧ c.scripts.socket = s.pending ++ sent.flatten)

end AcceptedClient

section
variable {α : Type} {r : Except Stop α} {P Q : α → Prop}

theorem Ends.imp (ends : Ends r P) (more : ∀ x, r = .ok x → P x → Q x) : Ends r Q := by
  cases r with
  | ok x => exact more x rfl ends
  | error e => exact ends

end

namespace SendTrace

variable {t t' : SendTrace} {e : SendEvent}

theorem step_accepted (done : t.step e = .ok t') : t'.accepted = t.accepted ++ e.texts := by
  cases e with
  | put sText full myInfosTagLen myInfosLen =>
    obtain ⟨buffer, -, same⟩ := bind_ok done
    cases same
    rfl
  | send result =>
    obtain ⟨sent, -, same⟩ := bind_ok done
    cases same
    exact (List.append_nil _).symm
  | bigList =>
    cases done
    exact (List.append_nil _).symm

/-- Events only add their texts to what was put in. -/
theorem steps_fifo (fifo : t.Fifo) (es : List SendEvent) :
    Ends (es.foldlM step t) fun t' =>
      t'.Fifo ∧ t'.accepted = t.accepted ++ es.flatMap SendEvent.texts := by
  induction es generalizing t with
  | nil => exact ⟨fifo, (List.append_nil _).symm⟩
  | cons e es ih =>
    rw [List.foldlM_cons]
    have first : Ends (t.step e) fun t' => t'.Fifo ∧ t'.accepted = t.accepted ++ e.texts :=
      (step_fifo fifo e).imp fun t' done fifo' => ⟨fifo', step_accepted done⟩
    refine first.bind fun t' ⟨fifo', accepted⟩ => ?_
    refine (ih fifo').imp fun t'' _ ⟨fifo'', more⟩ => ⟨fifo'', ?_⟩
    rw [more, accepted, List.flatMap_cons, List.append_assoc]

end SendTrace

namespace SendBuffer

variable {s : SendBuffer} {n : Nat}

theorem pending_length (valid : s.Valid) : s.pending.length = s.sendBufDataLen - s.head := by
  cases block : s.pSendBuf with
  | none =>
    obtain ⟨-, data, head⟩ := valid.empty block
    simp [pending, block, data]
  | some buf =>
    have length := valid.length block
    have data_le := valid.data_le
    rw [pending_some block, List.length_drop, List.length_take]
    omega

theorem Valid.exists_block (valid : s.Valid) (some_ : s.sendBufDataLen ≠ 0) :
    ∃ buf, s.pSendBuf = some buf := by
  cases block : s.pSendBuf with
  | some buf => exact ⟨buf, rfl⟩
  | none => exact absurd (valid.empty block).2.1 some_

/-- A cut behind the head leaves in the buffer what is before it. -/
theorem cutTexts_ends (valid : s.Valid) (head_le : s.head ≤ n) :
    Ends (s.cutTexts n) fun cut => cut.1.Valid ∧ cut.1.pending ++ cut.2 = s.pending ∧
      cut.1.head = s.head ∧ cut.1.sendBufDataLen = min n s.sendBufDataLen ∧
      (s.sendBufDataLen ≤ n → cut.2 = []) := by
  have data_le := valid.data_le
  unfold cutTexts
  by_cases longer : n < s.sendBufDataLen
  · obtain ⟨buf, block⟩ := valid.exists_block (Nat.ne_zero_of_lt longer)
    have length := valid.length block
    have read : readAt buf n (s.sendBufDataLen - n) =
        some ((buf.drop n).take (s.sendBufDataLen - n)) := readAt_of_le (by omega)
    obtain ⟨buf', write, written⟩ := writeAt_of_le buf n [0] (by simp; omega)
    have front : buf'.take n = buf.take n := written.before (Nat.le_refl _)
    rw [if_pos longer, inside_bind block, inside_bind read, inside_bind write]
    refine ends_pure ⟨⟨head_le, ?_, ?_⟩, ?_, rfl, (Nat.min_eq_left (Nat.le_of_lt longer)).symm,
      fun short => absurd longer (Nat.not_lt.mpr short)⟩
    · dsimp only
      omega
    · simp [written.length, length]
    · have whole : buf.take s.sendBufDataLen =
          buf.take n ++ (buf.drop n).take (s.sendBufDataLen - n) := by
        rw [← List.take_add, Nat.add_sub_cancel' (Nat.le_of_lt longer)]
      rw [pending_some rfl, pending_some block, front, whole,
        List.drop_append_of_le_length (by simp; omega)]
  · rw [if_neg longer]
    refine ends_pure ⟨valid, List.append_nil _, rfl, ?_, fun _ => rfl⟩
    exact (Nat.min_eq_right (Nat.not_lt.mp longer)).symm

/-- A cut before the head takes away more than there is. -/
theorem cutTexts_past (valid : s.Valid) (past : n < s.head) :
    Ends (s.cutTexts n) fun cut => cut.1.sendBufDataLen < cut.1.head := by
  have head_le := valid.head_le
  have data_le := valid.data_le
  have longer : n < s.sendBufDataLen := past.trans_le head_le
  obtain ⟨buf, block⟩ := valid.exists_block (Nat.ne_zero_of_lt longer)
  have length := valid.length block
  have read : readAt buf n (s.sendBufDataLen - n) =
      some ((buf.drop n).take (s.sendBufDataLen - n)) := readAt_of_le (by omega)
  obtain ⟨buf', write, -⟩ := writeAt_of_le buf n [0] (by simp; omega)
  rw [cutTexts, if_pos longer, inside_bind block, inside_bind read, inside_bind write]
  exact ends_pure past

theorem texts_events (xs : List ScriptText) :
    (xs.flatMap ScriptText.events).flatMap SendEvent.texts = xs.map ScriptText.sText := by
  induction xs with
  | nil => rfl
  | cons x xs ih =>
    rw [List.flatMap_cons, List.flatMap_append, ih, List.map_cons]
    cases result : x.atOnce with
    | none => simp [ScriptText.events, SendEvent.texts, result]
    | some r => simp [ScriptText.events, SendEvent.texts, result]

/-- The scripts put their texts behind what was there. -/
theorem userConnected_ends (valid : s.Valid) (xs : List ScriptText) :
    Ends (s.userConnected xs) fun t => t.buffer.Valid ∧
      t.socket ++ t.buffer.pending = s.pending ++ (xs.map ScriptText.sText).flatten := by
  have start : SendTrace.Fifo ⟨s, [], [s.pending]⟩ := ⟨valid, (List.append_nil _).symm⟩
  refine (SendTrace.steps_fifo start (xs.flatMap ScriptText.events)).imp ?_
  rintro t - ⟨fifo, accepted⟩
  refine ⟨fifo.valid, ?_⟩
  rw [fifo.order, accepted, texts_events]
  rfl

end SendBuffer

namespace AcceptedClient

variable {c : AcceptedClient} {s : SendBuffer} {texts : List Text}

/-- From a sound buffer everything is received in the order in which it was put in. -/
theorem login_ends (valid : c.buffer.Valid) (l : LoginTexts) :
    Ends (c.login l) fun t => t.socket ++ t.buffer.pending =
      c.scripts.socket ++ c.buffer.pending ++ l.text ++ c.deferred := by
  have start : SendTrace.Fifo
      ⟨c.buffer, c.scripts.socket, [c.scripts.socket ++ c.buffer.pending]⟩ :=
    ⟨valid, (List.append_nil _).symm⟩
  have last : ∀ t : SendTrace, t.Fifo →
      t.accepted.flatten = c.scripts.socket ++ c.buffer.pending ++ l.text ++ c.deferred →
      Ends ((l.sends.map SendEvent.send).foldlM SendTrace.step t) fun t =>
        t.socket ++ t.buffer.pending =
          c.scripts.socket ++ c.buffer.pending ++ l.text ++ c.deferred := by
    intro t fifo all
    refine (SendTrace.steps_fifo fifo _).imp ?_
    rintro t' - ⟨fifo', accepted⟩
    have none : (l.sends.map SendEvent.send).flatMap SendEvent.texts = [] := by
      simp [List.flatMap_map, SendEvent.texts]
    rw [fifo'.order, accepted, none, List.append_nil, all]
  unfold login
  apply (SendTrace.steps_fifo start l.events).bind
  rintro t ⟨fifo, accepted⟩
  have before : t.accepted.flatten = c.scripts.socket ++ c.buffer.pending ++ l.text := by
    rw [accepted, List.flatten_append]
    simp [LoginTexts.text]
  by_cases full : c.deferred ≠ []
  · rw [dif_pos full]
    apply ((SendTrace.step_fifo fifo _).imp fun t' done fifo' =>
      And.intro fifo' (SendTrace.step_accepted done)).bind
    rintro t' ⟨fifo', more⟩
    apply last t' fifo'
    rw [more, List.flatten_append, before]
    simp [SendEvent.texts]
  · rw [dif_neg full]
    have none : c.deferred = [] := not_not.mp full
    apply last t fifo
    rw [before, none, List.append_nil]

/-- A cut client, as far as it can be told from its buffer. -/
structure Cut (c : AcceptedClient) (s : SendBuffer) (texts : List Text) : Prop where
  valid : c.buffer.Valid
  order : c.scripts.socket ++ c.buffer.pending ++ c.deferred = s.pending ++ texts.flatten
  head : c.buffer.head = c.scripts.buffer.head
  dataLen : c.buffer.sendBufDataLen = min s.sendBufDataLen c.scripts.buffer.sendBufDataLen
  none : c.scripts.buffer.sendBufDataLen ≤ s.sendBufDataLen → c.deferred = []
  still : texts = [] → c.scripts.buffer = s

theorem Cut.whole {sent rest : List Text} (cut : c.Cut s texts) (same : texts = sent ++ rest)
    (before : c.scripts.socket ++ c.buffer.pending = s.pending ++ sent.flatten)
    (atOnce : sent ≠ [] → c.buffer.pending = []) : c.Whole s sent rest := by
  have after : c.deferred = rest.flatten := by
    have order := cut.order
    rw [before, same, List.flatten_append, ← List.append_assoc] at order
    exact List.append_cancel_left order
  refine ⟨cut.valid.head_le, before, after, atOnce, fun l => ?_⟩
  refine (login_ends cut.valid l).imp fun t _ received => ?_
  rw [received, before, after]
theorem Cut.pending_length (cut : c.Cut s texts) :
    c.buffer.pending.length =
      min s.sendBufDataLen c.scripts.buffer.sendBufDataLen - c.scripts.buffer.head := by
  rw [SendBuffer.pending_length cut.valid, cut.dataLen, cut.head]

/-- Nothing was moved and no text has been sent: the mark is where the texts begin. -/
theorem Cut.intact_of_unmoved (cut : c.Cut s texts) (valid : s.Valid)
    (unmoved : c.scripts.buffer.head = s.head + c.scripts.socket.length)
    (before : c.scripts.buffer.head ≤ s.sendBufDataLen) : c.Intact s texts := by
  have pending := cut.pending_length
  have old := SendBuffer.pending_length valid
  have head_le := cut.valid.head_le
  rw [cut.head, cut.dataLen] at head_le
  have long : s.sendBufDataLen ≤ c.scripts.buffer.sendBufDataLen := by
    by_contra shorter
    have total := congrArg List.length cut.order
    rw [cut.none (by omega), List.append_nil, List.length_append, List.length_append] at total
    omega
  have same : (c.scripts.socket ++ c.buffer.pending).length = s.pending.length := by
    rw [List.length_append]
    omega
  refine ⟨[], texts, rfl, cut.whole rfl ?_ fun some_ => absurd rfl some_⟩
  rw [List.flatten_nil, List.append_nil]
  exact List.append_inj_left cut.order same

/-- All before the mark has been sent, and no more than whole texts of it. -/
theorem Cut.intact_of_sent (cut : c.Cut s texts) {sent : List Text}
    (all : c.scripts.buffer.head =
      min s.sendBufDataLen c.scripts.buffer.sendBufDataLen)
    (starts : sent <+: texts) (socket : c.scripts.socket = s.pending ++ sent.flatten) :
    c.Intact s texts := by
  obtain ⟨rest, same⟩ := starts
  have none : c.buffer.pending = [] := by
    rw [← List.length_eq_zero_iff, cut.pending_length, all, Nat.sub_self]
  refine ⟨sent, rest, same.symm, cut.whole same.symm ?_ fun _ => none⟩
  rw [none, List.append_nil, socket]

theorem Cut.mark_of_intact (cut : c.Cut s texts) (valid : s.Valid) (full : ∀ t ∈ texts, t ≠ [])
    (intact : c.Intact s texts) : c.MarkHolds s texts := by
  obtain ⟨sent, rest, same, whole⟩ := intact
  have pending := cut.pending_length
  have old := SendBuffer.pending_length valid
  have old_le := valid.head_le
  have head_le := cut.valid.head_le
  rw [cut.head, cut.dataLen] at head_le
  by_cases none : sent = []
  · left
    subst none
    have before := whole.before
    rw [List.flatten_nil, List.append_nil] at before
    have long : s.sendBufDataLen ≤ c.scripts.buffer.sendBufDataLen := by
      by_contra shorter
      have nothing : texts = [] := by
        have after := whole.after
        rw [cut.none (by omega)] at after
        rw [List.nil_append] at same
        rw [List.eq_nil_iff_forall_not_mem]
        intro t mem
        rw [same] at mem full
        exact full t mem (List.flatten_eq_nil_iff.mp after.symm t mem)
      exact shorter (Nat.le_of_eq (congrArg SendBuffer.sendBufDataLen (cut.still nothing)).symm)
    have lengths := congrArg List.length before
    rw [List.length_append] at lengths
    constructor <;> omega
  · right
    have sentAll := whole.atOnce none
    have before := whole.before
    rw [sentAll, List.append_nil] at before
    rw [sentAll, List.length_nil] at pending
    exact ⟨by omega, sent, ⟨rest, same.symm⟩, before⟩

/-- The texts of the scripts stay whole exactly if the remembered length still says where they
begin. -/
theorem intact_iff (s : SendBuffer) (valid : s.Valid) (xs : List ScriptText) :
    Ends (s.accept xs) fun r => ∀ c ∈ r,
      (c.Intact s (xs.map ScriptText.sText) ↔ c.MarkHolds s (xs.map ScriptText.sText)) := by
  have full : ∀ t ∈ xs.map ScriptText.sText, t ≠ [] := by
    intro t mem
    obtain ⟨x, -, rfl⟩ := List.mem_map.mp mem
    exact x.full
  unfold SendBuffer.accept
  apply ((SendBuffer.userConnected_ends valid xs).imp fun t done ends =>
    And.intro done ends).bind
  rintro t ⟨done, valid', order⟩
  have still : xs.map ScriptText.sText = [] → t.buffer = s := by
    intro none
    rw [List.map_eq_nil_iff.mp none] at done
    cases done
    rfl
  by_cases closed : t.buffer.error = true
  · rw [if_pos closed]
    exact ends_pure nofun
  · rw [if_neg closed]
    by_cases le : t.buffer.head ≤ s.sendBufDataLen
    · apply (SendBuffer.cutTexts_ends valid' le).bind
      rintro cut ⟨sound, whole, head, dataLen, none⟩
      refine ends_pure ?_
      rintro c ⟨⟩
      have isCut : Cut ⟨t, cut.1, cut.2⟩ s (xs.map ScriptText.sText) := by
        refine ⟨sound, ?_, head, dataLen, none, still⟩
        rw [List.append_assoc, whole, order]
      constructor
      · exact isCut.mark_of_intact valid full
      · rintro (⟨unmoved, before⟩ | ⟨all, sent, starts, socket⟩)
        · exact isCut.intact_of_unmoved valid unmoved before
        · exact isCut.intact_of_sent all starts socket
    · have past := Nat.not_le.mp le
      apply (SendBuffer.cutTexts_past valid' past).bind
      intro cut wrong
      refine ends_pure ?_
      rintro c ⟨⟩
      constructor
      · rintro ⟨sent, rest, -, intact⟩
        exact absurd intact.head_le (Nat.not_le.mpr wrong)
      · rintro (⟨-, before⟩ | ⟨all, -⟩)
        · exact absurd before le
        · rw [all] at past
          exact absurd past (Nat.not_lt.mpr (Nat.min_le_left _ _))

end AcceptedClient

/-! ## Texts that wait -/

namespace SendBuffer

variable {s s' : SendBuffer}

theorem makeRoom_head {txt : Nat} {myInfosTagLen myInfosLen : UInt32} {room : SendBuffer × Nat}
    (start : s.head = 0) (done : s.makeRoom txt myInfosTagLen myInfosLen = .ok room) :
    room.1.head = 0 := by
  unfold makeRoom at done
  dsimp only at done
  split at done
  · split at done
    · cases done
      exact start
    · rw [start, if_neg (Nat.not_lt_zero _)] at done
      split at done
      · cases done
      · cases done
        exact start
  · split at done
    · cases done
      exact start
    · cases done
      exact start

theorem realloc_head {n : Nat} (start : s.head = 0) (done : s.realloc n = .ok s') :
    s'.head = 0 := by
  unfold realloc at done
  dsimp only at done
  split at done
  · obtain ⟨data, -, more⟩ := bind_ok done
    obtain ⟨buf, -, same⟩ := bind_ok more
    cases same
    dsimp only
    rw [start, ite_self]
  · cases done
    dsimp only
    rw [start, ite_self]

theorem append_head {sText : Text} (done : s.append sText = .ok s') : s'.head = s.head := by
  obtain ⟨buf, -, more⟩ := bind_ok done
  obtain ⟨buf₁, -, more⟩ := bind_ok more
  obtain ⟨buf₂, -, same⟩ := bind_ok more
  cases same
  rfl

/-- A buffer of which nothing has been sent is not moved to its front. -/
theorem putInSendBuf_head {sText : Text} {myInfosTagLen myInfosLen : UInt32}
    (start : s.head = 0) (done : s.putInSendBuf sText myInfosTagLen myInfosLen = .ok s') :
    s'.head = 0 := by
  obtain ⟨room, makes, more⟩ := bind_ok done
  have first : room.1.head = 0 := makeRoom_head (s := { s with sendCalled := s.sendCalled + 1 })
    start makes
  dsimp only at more
  split at more
  · obtain ⟨moved, moves, appends⟩ := bind_ok more
    rw [append_head appends, realloc_head first moves]
  · rw [append_head more, first]

/-- Texts that wait leave the head where it is, and nothing is sent. -/
theorem delayed_still {xs : List ScriptText} (delayed : ∀ x ∈ xs, x.atOnce = none)
    {t t' : SendTrace} (start : t.buffer.head = 0)
    (done : (xs.flatMap ScriptText.events).foldlM SendTrace.step t = .ok t') :
    t'.buffer.head = 0 ∧ t'.socket = t.socket := by
  induction xs generalizing t with
  | nil =>
    cases done
    exact ⟨start, rfl⟩
  | cons x xs ih =>
    rw [List.forall_mem_cons] at delayed
    have single : x.events = [.put x.sText x.full x.myInfosTagLen x.myInfosLen] := by
      rw [ScriptText.events, delayed.1]
      rfl
    rw [List.flatMap_cons, single, List.singleton_append, List.foldlM_cons] at done
    obtain ⟨t₁, puts, more⟩ := bind_ok done
    obtain ⟨buffer, put, same⟩ := bind_ok puts
    cases same
    exact ih delayed.2 (t := { t with buffer := buffer, accepted := t.accepted ++ [x.sText] })
      (putInSendBuf_head start put) more

end SendBuffer

/-- Before anything is sent to a client, texts that wait stay whole. -/
theorem AcceptedClient.mark_of_delayed {s : SendBuffer} (valid : s.Valid) (start : s.head = 0)
    {xs : List ScriptText} (delayed : ∀ x ∈ xs, x.atOnce = none) :
    Ends (s.accept xs) fun r => ∀ c ∈ r, c.MarkHolds s (xs.map ScriptText.sText) := by
  unfold SendBuffer.accept
  apply ((SendBuffer.userConnected_ends valid xs).imp fun t done ends =>
    And.intro done ends).bind
  rintro t ⟨done, valid', -⟩
  obtain ⟨head, socket⟩ := SendBuffer.delayed_still delayed start done
  split
  · exact ends_pure nofun
  · apply (SendBuffer.cutTexts_ends valid' (head ▸ Nat.zero_le _)).bind
    intro cut _
    refine ends_pure ?_
    rintro c ⟨⟩
    left
    rw [head, socket, start]
    exact ⟨rfl, Nat.zero_le _⟩

/-! ## A text for a client that is slow -/

/-- Three of four bytes have been sent, and there is room for one more. -/
def slowClient : SendBuffer := ⟨some [97, 98, 99, 124, 0, 0], 3, 5, 4, 0, false, false⟩

theorem slowClient_valid : slowClient.Valid := ⟨by decide, by decide, rfl⟩

/-- A text of two bytes that waits. -/
def hello : ScriptText := ⟨[104, 124], nofun, none, 0, 0⟩

/-- The mark decides about it. -/
theorem slowClient_hello :
    Ends (slowClient.accept [hello]) fun r => ∀ c ∈ r,
      (c.Intact slowClient [[104, 124]] ↔ c.MarkHolds slowClient [[104, 124]]) :=
  AcceptedClient.intact_iff slowClient slowClient_valid [hello]

/-- The sent bytes make room for the text, and it is not cut out. -/
theorem slowClient_broken :
    ¬ Ends (slowClient.accept [hello]) fun r => ∀ c ∈ r, c.Intact slowClient [[104, 124]] := by
  intro ends
  obtain ⟨sent, rest, same, whole⟩ := ends _ rfl
  cases sent with
  | nil =>
    have lost : ([] : Text) = rest.flatten := whole.after
    rw [List.nil_append] at same
    rw [← same] at lost
    cases lost
  | cons t sent =>
    have pending : ([124, 104, 124] : Text) = [] := whole.atOnce (List.cons_ne_nil _ _)
    cases pending

end FlyHub.Connection
