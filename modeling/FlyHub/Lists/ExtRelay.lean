import FlyHub.Lists.ExtJson

/-!
# How often an ExtJSON is sent

The hub sends the ExtJSON of a user on together with a new MyINFO, to all users or only to
operators. A change of the text is kept for users that log in later at once, and a bit says
that it is still to be sent.
-/

namespace FlyHub.Lists

open FlyHub.Lib

/-- The ticks between two broadcasts. -/
def extJsonDelay : Nat := 60

structure RelaySettings extends ExtSettings where
  supportsExtJson : Nat → Bool

/-- An ExtJSON in the queue, as `Cmd::EXTJSON` or as `Cmd::OPS`. -/
structure ExtSend where
  user : Nat
  tick : Nat
  text : Text
  toAll : Bool
  deriving DecidableEq

/-- `BIT_PRCSD_EXT_JSON` and `m_iLastExtJSONSendTick` of the users, and what was queued. -/
structure ExtRelay where
  ext : ExtState
  pending : Nat → Bool
  lastSendTick : Nat → Nat
  sent : List ExtSend

inductive RelayEvent where
  /-- `UserProcessLines` with the `$ExtJSON` of a user, and `ProcessCmds` at its end: whether
  there is a new MyINFO, and whether the long one and the short one are changed by it. -/
  | lines (u tick : Nat) (lines : List ExtLine) (myInfo : Option (Bool × Bool))
  | list (u : Nat)
  | finish (u : Nat)
  | close (u : Nat)

/-- What a step does to the directory. -/
def RelayEvent.inputs : RelayEvent → List ExtEvent
  | .lines u _ texts myInfo =>
    texts.map (.command u) ++ myInfo.toList.map fun p => .myInfo u p.1 p.2
  | .list u => [.list u]
  | .finish u => [.finish u]
  | .close u => [.close u]

namespace ExtRelay

variable (cfg : RelaySettings) (s : ExtRelay)

/-- What `initExtJSON` and `SetExtJSON` note. -/
def command (u : Nat) (line : ExtLine) : ExtRelay :=
  { s with
    ext := s.ext.step cfg.toExtSettings (.command u line)
    pending :=
      match s.ext.verdict cfg.toExtSettings u line.text with
      | .first | .change => Function.update s.pending u true
      | .ignored | .refused => s.pending }

def commands (u : Nat) (lines : List ExtLine) : ExtRelay :=
  lines.foldl (fun s line => s.command cfg u line) s

/-- `ProcessCmds` comes to the ExtJSON. -/
def reaches (u : Nat) (long : Bool) : Bool :=
  (s.ext.users u).stage = .added && cfg.fullMyInfo = .both && long && s.pending u

def hasText (u : Nat) : Bool := cfg.supportsExtJson u && s.ext.storedExtJson u ≠ []

def toAll (u tick : Nat) : Bool :=
  s.lastSendTick u ≠ 0 || s.lastSendTick u + extJsonDelay < tick

def send (u tick : Nat) : ExtRelay :=
  { s with
    lastSendTick :=
      if s.toAll u tick then Function.update s.lastSendTick u tick else s.lastSendTick
    sent := s.sent ++ [⟨u, tick, s.ext.storedExtJson u, s.toAll u tick⟩] }

/-- `ProcessCmds`. -/
def processCmds (u tick : Nat) : Option (Bool × Bool) → ExtRelay
  | none => s
  | some (long, short) =>
    let listed := { s with ext := s.ext.step cfg.toExtSettings (.myInfo u long short) }
    if s.reaches cfg u long then
      let cleared := { listed with pending := Function.update s.pending u false }
      if s.hasText cfg u then cleared.send u tick else cleared
    else listed

def step : RelayEvent → ExtRelay
  | .lines u tick lines myInfo => (s.commands cfg u lines).processCmds cfg u tick myInfo
  | .list u => { s with ext := s.ext.step cfg.toExtSettings (.list u) }
  | .finish u => { s with ext := s.ext.step cfg.toExtSettings (.finish u) }
  | .close u => { s with ext := s.ext.step cfg.toExtSettings (.close u) }

def init (nick : Nat → Text) : ExtRelay := ⟨ExtState.init nick, fun _ => false, fun _ => 0, []⟩

/-- What was last sent of a user. -/
def lastSent (u : Nat) : Option ExtSend := (s.sent.filter (·.user = u)).getLast?

/-- Soon after a broadcast only operators get the ExtJSON of the same user, and what was sent
last is kept for users that log in later. -/
structure Limited : Prop where
  apart : s.sent.Pairwise fun a b =>
    a.user = b.user → a.toAll = true → b.tick ≤ a.tick + extJsonDelay → b.toAll = false
  kept : ∀ u x, s.lastSent u = some x →
    s.ext.storedExtJson u = x.text ∧ (s.ext.isListed u = true → x.text <:+: s.ext.allExtJson)

/-- `ProcessCmds` sends the ExtJSON of the user. -/
def Sends (u : Nat) (myInfo : Option (Bool × Bool)) : Prop :=
  ∃ p ∈ myInfo, s.reaches cfg u p.1 = true ∧ s.hasText cfg u = true

/-- A step at which nothing is sent too soon after a broadcast, and a change of what was sent
before is sent too. -/
def Timely : RelayEvent → Prop
  | .lines u tick lines myInfo =>
    ((s.commands cfg u lines).Sends cfg u myInfo →
      s.lastSendTick u = 0 ∨ s.lastSendTick u + extJsonDelay < tick) ∧
    (s.lastSent u ≠ none → ¬ (s.commands cfg u lines).Sends cfg u myInfo →
      (s.commands cfg u lines).ext.storedExtJson u = s.ext.storedExtJson u)
  | _ => True

end ExtRelay

namespace ExtState

variable {cfg : ExtSettings} {st : ExtState} {u v : Nat}

theorem stored_congr {st' : ExtState} (same : (st'.users v).info = (st.users v).info) :
    st'.storedExtJson v = st.storedExtJson v := by
  rw [storedExtJson, storedExtJson, same]

theorem stored_put {user : ExtUser} {all : Text} (same : user.info = (st.users u).info) :
    (st.put u user all).storedExtJson v = st.storedExtJson v := by
  apply stored_congr
  by_cases here : v = u
  · rw [here, put]
    dsimp only
    rw [Function.update_self, same]
  · rw [put_other here]

theorem stored_close : (st.close cfg u).storedExtJson v = st.storedExtJson v := by
  unfold close
  dsimp only
  split
  · rfl
  · exact stored_put rfl

/-- Only commands change what is stored. -/
theorem stored_step {e : ExtEvent} (other : ∀ u line, e ≠ .command u line) :
    (st.step cfg e).storedExtJson v = st.storedExtJson v := by
  cases e with
  | command u line => exact absurd rfl (other u line)
  | list u =>
    rw [step]
    split
    · exact stored_put rfl
    · rfl
  | finish u =>
    rw [step]
    split
    · exact stored_put rfl
    · rfl
  | myInfo u long short =>
    rw [step]
    split <;> rfl
  | close u => exact stored_close

/-- What is stored of a listed user is found in the directory. -/
theorem Holds.stored_infix {us : List Nat} (holds : st.Holds us) (on : st.isListed u = true)
    (some_ : st.storedExtJson u ≠ []) : st.storedExtJson u <:+: st.allExtJson := by
  have info : (st.users u).info.isSome := by
    cases info : (st.users u).info with
    | none =>
      rw [storedExtJson, info] at some_
      exact absurd rfl some_
    | some i => rfl
  rw [holds.all]
  exact List.infix_of_mem_flatten (List.mem_map_of_mem ((holds.mem u).mpr ⟨on, info⟩))

end ExtState

namespace ExtRelay

section
variable {cfg : RelaySettings} {s : ExtRelay} {u v tick : Nat} {lines : List ExtLine}
  {myInfo : Option (Bool × Bool)}

/-! ## What a step leaves alone -/

theorem commands_ext : (s.commands cfg u lines).ext =
    run (ExtState.step cfg.toExtSettings) s.ext (lines.map (.command u)) := by
  induction lines generalizing s with
  | nil => rfl
  | cons line lines ih => exact ih

theorem commands_lastSendTick : (s.commands cfg u lines).lastSendTick = s.lastSendTick := by
  induction lines generalizing s with
  | nil => rfl
  | cons line lines ih => exact ih

theorem commands_sent : (s.commands cfg u lines).sent = s.sent := by
  induction lines generalizing s with
  | nil => rfl
  | cons line lines ih => exact ih

theorem commands_stored (other : v ≠ u) :
    (s.commands cfg u lines).ext.storedExtJson v = s.ext.storedExtJson v := by
  apply ExtState.stored_congr
  rw [commands_ext, ExtState.run_other]
  intro e mem
  obtain ⟨line, -, rfl⟩ := List.mem_map.mp mem
  exact other

theorem processCmds_stored :
    (s.processCmds cfg u tick myInfo).ext.storedExtJson v = s.ext.storedExtJson v := by
  cases myInfo with
  | none => rfl
  | some p =>
    have same : (s.ext.step cfg.toExtSettings (.myInfo u p.1 p.2)).storedExtJson v =
        s.ext.storedExtJson v := ExtState.stored_step fun _ _ => nofun
    unfold processCmds
    dsimp only
    split
    · split <;> exact same
    · exact same

/-- What is sent, if anything is. -/
theorem processCmds_sent (tick : Nat) (sends : s.Sends cfg u myInfo) :
    (s.processCmds cfg u tick myInfo).sent =
        s.sent ++ [⟨u, tick, s.ext.storedExtJson u, s.toAll u tick⟩] ∧
      (s.processCmds cfg u tick myInfo).lastSendTick =
        if s.toAll u tick then Function.update s.lastSendTick u tick else s.lastSendTick := by
  obtain ⟨⟨long, short⟩, rfl, reaches, hasText⟩ := sends
  have same : (s.ext.step cfg.toExtSettings (.myInfo u long short)).storedExtJson u =
      s.ext.storedExtJson u := ExtState.stored_step fun _ _ => nofun
  rw [processCmds, if_pos reaches, if_pos hasText]
  refine ⟨?_, rfl⟩
  rw [send]
  dsimp only
  rw [same]
  rfl

theorem processCmds_unsent (tick : Nat) (sends : ¬ s.Sends cfg u myInfo) :
    (s.processCmds cfg u tick myInfo).sent = s.sent ∧
      (s.processCmds cfg u tick myInfo).lastSendTick = s.lastSendTick := by
  cases myInfo with
  | none => exact ⟨rfl, rfl⟩
  | some p =>
    unfold processCmds
    dsimp only
    split
    · rename_i reaches
      split
      · rename_i hasText
        exact absurd ⟨p, rfl, reaches, hasText⟩ sends
      · exact ⟨rfl, rfl⟩
    · exact ⟨rfl, rfl⟩

theorem processCmds_ext : (s.processCmds cfg u tick myInfo).ext =
    run (ExtState.step cfg.toExtSettings) s.ext
      (myInfo.toList.map fun p => .myInfo u p.1 p.2) := by
  cases myInfo with
  | none => rfl
  | some p =>
    unfold processCmds
    dsimp only
    split
    · split <;> rfl
    · rfl

/-- The directory is the one of the commands and of the changes of the MyINFOs. -/
theorem run_ext (es : List RelayEvent) : (run (step cfg) s es).ext =
    run (ExtState.step cfg.toExtSettings) s.ext (es.flatMap RelayEvent.inputs) := by
  induction es generalizing s with
  | nil => rfl
  | cons e es ih =>
    have here : (s.step cfg e).ext =
        run (ExtState.step cfg.toExtSettings) s.ext e.inputs := by
      cases e with
      | lines => rw [step, processCmds_ext, commands_ext, ← run_append, RelayEvent.inputs]
      | list | finish | close => rfl
    rw [run_cons, ih, here, List.flatMap_cons, run_append]

theorem hasText_iff :
    s.hasText cfg u = true ↔ cfg.supportsExtJson u = true ∧ s.ext.storedExtJson u ≠ [] := by
  rw [hasText, Bool.and_eq_true, decide_eq_true_eq]

/-! ## What holds all along -/

/-- The invariant: marks of the broadcasts, and what was sent last is what is stored. -/
structure Sound (s : ExtRelay) : Prop where
  apart : s.sent.Pairwise fun a b =>
    a.user = b.user → a.toAll = true → b.tick ≤ a.tick + extJsonDelay → b.toAll = false
  marked : ∀ x ∈ s.sent, x.toAll = true →
    x.tick ≤ s.lastSendTick x.user ∧ s.lastSendTick x.user ≠ 0
  text : ∀ x ∈ s.sent, x.text ≠ []
  kept : ∀ u x, s.lastSent u = some x → s.ext.storedExtJson u = x.text

theorem lastSent_concat {x : ExtSend} {s' : ExtRelay} (sent : s'.sent = s.sent ++ [x]) (v : Nat) :
    s'.lastSent v = if x.user = v then some x else s.lastSent v := by
  rw [lastSent, sent, List.filter_append]
  split
  · rename_i here
    rw [List.filter_singleton, here]
    simp
  · rename_i other
    rw [List.filter_singleton]
    simp [other, lastSent]

theorem mem_of_lastSent {x : ExtSend} (last : s.lastSent v = some x) :
    x ∈ s.sent ∧ x.user = v := by
  have mem := List.mem_of_getLast? last
  rw [List.mem_filter, decide_eq_true_eq] at mem
  exact mem

theorem Sound.limited (sound : s.Sound) {us : List Nat} (holds : s.ext.Holds us) : s.Limited where
  apart := sound.apart
  kept u x last := by
    have stored := sound.kept u x last
    refine ⟨stored, fun on => ?_⟩
    have some_ : s.ext.storedExtJson u ≠ [] := by
      rw [stored]
      exact sound.text x (mem_of_lastSent last).1
    rw [← stored]
    exact holds.stored_infix on some_

/-- A step that sends nothing and stores nothing else of who was sent before. -/
theorem Sound.quiet (sound : s.Sound) {s' : ExtRelay} (sent : s'.sent = s.sent)
    (ticks : s'.lastSendTick = s.lastSendTick)
    (stored : ∀ v, s.lastSent v ≠ none → s'.ext.storedExtJson v = s.ext.storedExtJson v) :
    s'.Sound where
  apart := by
    rw [sent]
    exact sound.apart
  marked x mem all := by
    rw [sent] at mem
    rw [ticks]
    exact sound.marked x mem all
  text x mem := by
    rw [sent] at mem
    exact sound.text x mem
  kept v x last := by
    rw [lastSent, sent, ← lastSent] at last
    rw [stored v (by rw [last]; nofun)]
    exact sound.kept v x last

/-- A broadcast may come if the last one was long ago. -/
theorem Sound.send (sound : s.Sound) {s' : ExtRelay} {text : Text} {all : Bool}
    (sent : s'.sent = s.sent ++ [⟨u, tick, text, all⟩])
    (toAll : all = s.toAll u tick)
    (ticks : s'.lastSendTick =
      if all then Function.update s.lastSendTick u tick else s.lastSendTick)
    (late : s.lastSendTick u = 0 ∨ s.lastSendTick u + extJsonDelay < tick)
    (some_ : text ≠ []) (here : s'.ext.storedExtJson u = text)
    (stored : ∀ v, v ≠ u → s'.ext.storedExtJson v = s.ext.storedExtJson v) : s'.Sound where
  apart := by
    rw [sent, List.pairwise_append]
    refine ⟨sound.apart, List.pairwise_singleton _ _, ?_⟩
    intro a mem b last same before near
    obtain rfl := List.mem_singleton.mp last
    -- no broadcast of the user is that near
    dsimp only at same near
    obtain ⟨le, marked⟩ := sound.marked a mem before
    rw [same] at le marked
    have long := late.resolve_left marked
    omega
  marked x mem xAll := by
    rw [ticks]
    rw [sent, List.mem_append, List.mem_singleton] at mem
    rcases mem with old | rfl
    · obtain ⟨le, marked⟩ := sound.marked x old xAll
      split
      · by_cases same : x.user = u
        · rw [same] at le marked ⊢
          have long := late.resolve_left marked
          rw [Function.update_self]
          omega
        · rw [Function.update_of_ne same]
          exact ⟨le, marked⟩
      · exact ⟨le, marked⟩
    · dsimp only at xAll ⊢
      have first : 0 < tick := by
        rw [xAll, ExtRelay.toAll] at toAll
        have delay : extJsonDelay = 60 := rfl
        rcases late with zero | long
        · rw [zero] at toAll
          simp at toAll
          omega
        · omega
      rw [if_pos xAll, Function.update_self]
      omega
  text x mem := by
    rw [sent, List.mem_append, List.mem_singleton] at mem
    rcases mem with old | rfl
    · exact sound.text x old
    · exact some_
  kept v x last := by
    rw [lastSent_concat sent] at last
    split at last
    · rename_i same
      dsimp only at same
      rw [← same, here, ← Option.some.inj last]
    · rename_i other
      rw [stored v (Ne.symm other)]
      exact sound.kept v x last

theorem sound_lines (sound : s.Sound) (timely : s.Timely cfg (.lines u tick lines myInfo)) :
    (s.step cfg (.lines u tick lines myInfo)).Sound := by
  obtain ⟨late, change⟩ := timely
  by_cases sends : (s.commands cfg u lines).Sends cfg u myInfo
  · obtain ⟨sent, ticks⟩ := processCmds_sent tick sends
    have same : (s.commands cfg u lines).toAll u tick = s.toAll u tick := by
      rw [toAll, toAll, commands_lastSendTick]
    have due := late sends
    obtain ⟨-, -, -, hasText⟩ := sends
    rw [hasText_iff] at hasText
    rw [commands_sent] at sent
    rw [commands_lastSendTick] at ticks
    refine sound.send sent same ticks due hasText.2 processCmds_stored ?_
    intro v other
    rw [step, processCmds_stored, commands_stored other]
  · obtain ⟨sent, ticks⟩ := processCmds_unsent tick sends
    refine sound.quiet (sent.trans commands_sent) (ticks.trans commands_lastSendTick) ?_
    intro v before
    rw [step, processCmds_stored]
    by_cases here : v = u
    · rw [here] at before ⊢
      exact change before sends
    · exact commands_stored here

theorem sound_step (sound : s.Sound) {e : RelayEvent} (timely : s.Timely cfg e) :
    (s.step cfg e).Sound := by
  cases e with
  | lines u tick lines myInfo => exact sound_lines sound timely
  | list | finish | close =>
    exact sound.quiet rfl rfl fun v _ => ExtState.stored_step fun _ _ => nofun

theorem sound_init (nick : Nat → Text) : (init nick).Sound where
  apart := List.Pairwise.nil
  marked x mem := absurd mem List.not_mem_nil
  text x mem := absurd mem List.not_mem_nil
  kept u x last := by cases last

/-- While no command is taken for the end of another one in the directory, nothing is sent too
soon after a broadcast and changes are sent when they are made, the ExtJSONs are limited. -/
theorem ext_limited (cfg : RelaySettings) (nick : Nat → Text) (es : List RelayEvent)
    (clear : Allowed (ExtState.step cfg.toExtSettings) (ExtState.Clear cfg.toExtSettings)
      (ExtState.init nick) (es.flatMap RelayEvent.inputs))
    (timely : Allowed (step cfg) (Timely cfg) (init nick) es) :
    (run (step cfg) (init nick) es).Limited := by
  have sound := allowed_invariant Sound (fun _ _ sound ok => sound_step sound ok)
    (sound_init nick) timely
  obtain ⟨us, holds⟩ := allowed_invariant (fun st : ExtState => ∃ us, st.Holds us)
    (fun _ _ inv ok => inv.elim fun _ holds => ExtState.step_holds holds ok)
    ⟨[], ExtState.init_holds nick⟩ clear
  have texts : (run (step cfg) (init nick) es).ext.Holds us := by
    rw [run_ext]
    exact holds
  exact sound.limited texts

end

/-! ## A user with two texts -/

/-- Every client supports ExtJSONs, and both lists of MyINFOs are kept. -/
def bothLists : RelaySettings := ⟨⟨.both, 256, fun _ => true⟩, fun _ => true⟩

def laterLine : ExtLine :=
  ⟨ascii "$ExtJSON a \x7b\"Gender\":2\x7d|", ExtState.closed_of_ends (by decide) (by decide)⟩

/-- The first text is broadcast at the tick 100, the second one at another. -/
def twoTexts (tick : Nat) : List RelayEvent :=
  [.lines 0 50 [ExtState.firstLine] none, .list 0, .finish 0, .lines 0 100 [] (some (true, false)),
    .lines 0 tick [laterLine] (some (true, false))]

/-- The first of the users has the directory for itself. -/
theorem alone_first (es : List ExtEvent) {text : Text} (only : ∀ e ∈ es, e.user = 0) :
    (run (ExtState.step bothLists.toExtSettings) (ExtState.init ExtState.nicks) es).Alone 0
      text := by
  refine ExtState.alone_of_two es 1 (fun e mem => .inl (only e mem)) fun i info => ?_
  rw [ExtState.run_other fun e mem same => absurd (same.trans (only e mem)) Nat.one_ne_zero] at info
  cases info

theorem twoTexts_clear : Allowed (ExtState.step bothLists.toExtSettings)
    (ExtState.Clear bothLists.toExtSettings) (ExtState.init ExtState.nicks)
    [.command 0 ExtState.firstLine, .list 0, .finish 0, .myInfo 0 true false,
      .command 0 laterLine, .myInfo 0 true false] := by
  refine ⟨?_, ?_, trivial, ?_, ?_, ?_, trivial⟩
  · exact ExtState.clear_first (by decide +kernel) rfl
  · exact fun _ _ _ => alone_first [.command 0 ExtState.firstLine] (by decide)
  · exact fun _ _ _ _ => alone_first [.command 0 ExtState.firstLine, .list 0, .finish 0] (by decide)
  · have change : (run (ExtState.step bothLists.toExtSettings) (ExtState.init ExtState.nicks)
        [.command 0 ExtState.firstLine, .list 0, .finish 0, .myInfo 0 true false]).verdict
        bothLists.toExtSettings 0 laterLine.text = .change := by decide +kernel
    have clear : (run (ExtState.step bothLists.toExtSettings) (ExtState.init ExtState.nicks)
        [.command 0 ExtState.firstLine, .list 0, .finish 0, .myInfo 0 true false]).Clear
        bothLists.toExtSettings (.command 0 laterLine) := by
      rw [ExtState.Clear, change]
      refine ⟨alone_first _ (by decide), fun i found => .inl ?_⟩
      have here : firstAt ((run (ExtState.step bothLists.toExtSettings)
          (ExtState.init ExtState.nicks) [.command 0 ExtState.firstLine, .list 0, .finish 0,
            .myInfo 0 true false]).storedExtJson 0) ((run (ExtState.step bothLists.toExtSettings)
          (ExtState.init ExtState.nicks) [.command 0 ExtState.firstLine, .list 0, .finish 0,
            .myInfo 0 true false]).allExtJson) = some 0 := by decide +kernel
      exact Option.some.inj (found.symm.trans here)
    exact clear
  · exact fun _ _ _ _ => alone_first [.command 0 ExtState.firstLine, .list 0, .finish 0,
      .myInfo 0 true false, .command 0 laterLine] (by decide)

theorem twoTexts_limited :
    (run (step bothLists) (init ExtState.nicks) (twoTexts 200)).Limited := by
  refine ext_limited bothLists ExtState.nicks _ twoTexts_clear ⟨⟨?_, ?_⟩, trivial, trivial,
    ⟨?_, ?_⟩, ⟨?_, ?_⟩, trivial⟩
  · rintro ⟨p, none_, -⟩
    cases none_
  · exact fun before => absurd rfl before
  · exact fun _ => .inl rfl
  · exact fun before => absurd rfl before
  · exact fun _ => .inr (by decide +kernel)
  · refine fun _ unsent => absurd ?_ unsent
    exact ⟨(true, false), rfl, by decide +kernel, by decide +kernel⟩

theorem broadcast_at_once :
    ¬ (run (step bothLists) (init ExtState.nicks) (twoTexts 101)).Limited := by
  intro limited
  have sent : (run (step bothLists) (init ExtState.nicks) (twoTexts 101)).sent =
      [⟨0, 100, ExtState.firstLine.text, true⟩, ⟨0, 101, laterLine.text, true⟩] := by
    decide +kernel
  have apart := limited.apart
  rw [sent] at apart
  have all := List.rel_of_pairwise_cons apart (List.mem_singleton_self _) rfl rfl (by decide)
  cases all

end ExtRelay

end FlyHub.Lists
