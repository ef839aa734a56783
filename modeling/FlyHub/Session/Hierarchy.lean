import FlyHub.Ban.Added
import FlyHub.Session.HubCommands
import FlyHub.Session.Profiles

/-!
# The order of the operators

A nick registered with a higher profile is safe from a command as long as the command acts
on no user of that nick. It acts on a user with a profile of its own choice only: one that is
still to give its password has none yet, and everyone may ban it.
-/

namespace FlyHub.Session

open FlyHub.Ban FlyHub.Lists

namespace BanCommand

/-- The nick of a command, up to its end. -/
def plainNick (k : BanCommand) (args : Text) : Text :=
  if k.timed then (parseCmdParts args).nick else (nickAndReason args).1

/-- The nick that the user is looked for under: its length is a number of 16 bits if a time
follows. -/
def lookedFor (k : BanCommand) (args : Text) : Text :=
  if k.timed then (parseCmdParts args).nick.take (parseCmdParts args).nickLen
  else (nickAndReason args).1

/-- The command has a nick that is not too long, and a time if it needs one. -/
def wellFormed (k : BanCommand) (args : Text) : Bool :=
  if k.timed then
    let p := parseCmdParts args
    !(p.nickLen = 0 || p.timeLen = 0 || p.time.isNone) && p.nickLen ≤ 100
  else (nickAndReason args).1 ≠ [] && (nickAndReason args).1.length ≤ 100

/-- The time, if the command needs one, is a time. -/
def inTime (k : BanCommand) (set : CommandSettings) (now : Nat) (args : Text) : Bool :=
  !k.timed || ((parseCmdParts args).banTime set now).isSome

end BanCommand

namespace Hub

/-- The user that the parameters of a command make it act on: the one found under the nick,
unless the command is no good, is about the operator itself or about a higher profile. -/
def actsOn (set : CommandSettings) (k : BanCommand) (h : Hub) (op : UserId) (args : Text) :
    Option UserId :=
  if k.wellFormed args && !h.isSelf op (k.plainNick args) && k.inTime set h.clock args then
    (h.findUser (k.lookedFor args)).filter (h.checkHigherProfile op)
  else none

/-- The user that a command acts on. -/
def target (set : CommandSettings) (h : Hub) (op : UserId) (sCommand : Text) : Option UserId :=
  match BanCommand.ofText sCommand with
  | none => none
  | some k =>
    if set.allows (h.users op).profile k.right && k.minLen ≤ sCommand.length then
      h.actsOn set k op (sCommand.drop k.word.length)
    else none

/-- The nick that a command looks for. -/
def lookedFor (sCommand : Text) : Text :=
  match BanCommand.ofText sCommand with
  | none => []
  | some k => k.lookedFor (sCommand.drop k.word.length)

/-- Nobody of the nick is banned or closed: no new ban has the nick, every new ban of an
address is for the user found, which has another nick, and no user of the nick is closed. -/
structure Spares (h h' : Hub) (sCommand nick : Text) : Prop where
  unbanned : ∀ b, BanManager.Added h.bans h'.bans b → (h'.bans.ban b).nick = true →
    iequals (h'.bans.ban b).sNick nick = false
  address : ∀ b, BanManager.Added h.bans h'.bans b → (h'.bans.ban b).ip = true →
    ∃ d, h.findUser (lookedFor sCommand) = some d ∧
      (h'.bans.ban b).ipHash = (h.users d).ipHash ∧ iequals (h.users d).sNick nick = false
  open_ : ∀ d, iequals (h.users d).sNick nick = true → (h.users d).state.isPastLogin = false →
    (h'.users d).state.isPastLogin = false

/-- The command acts on no user of the nick. -/
def Misses (set : CommandSettings) (h : Hub) (op : UserId) (sCommand nick : Text) : Prop :=
  ∀ d, h.target set op sCommand = some d → iequals (h.users d).sNick nick = false

/-- The users other than this one stay in their states. -/
def OthersStay (who : Option UserId) (h h' : Hub) : Prop :=
  ∀ e, who ≠ some e → (h'.users e).state = (h.users e).state

/-- What a command comes to: nothing but answers, a ban of a nick alone, which no higher
profile is registered for, or the end of the user it acts on. -/
inductive Outcome (h : Hub) (op : UserId) (sNick : Text) : Option UserId → Hub → Prop where
  | idle (h') (bans : h'.bans = h.bans) (stay : OthersStay none h h') : Outcome h op sNick none h'
  | nickBanned (h' plain) (free : h.outranked op plain = false) (stay : OthersStay none h h')
      (added : ∀ b, BanManager.Added h.bans h'.bans b →
        (h'.bans.ban b).ip = false ∧ (h'.bans.ban b).sNick = plain) :
      Outcome h op sNick none h'
  | ended (h' d) (found : h.findUser sNick = some d) (stay : OthersStay (some d) h h')
      (gone : (h'.users d).state.isPastLogin = true)
      (new : BanManager.NewOf (h.banUser d) h.bans h'.bans) : Outcome h op sNick (some d) h'

section
variable {cfg : Config} {set : CommandSettings} {k : BanCommand} {h : Hub} {op other : UserId}
  {answer : BanAnswer} {sent : SendResult} {sNick args : Text}

/-! ## The answers -/

@[simp] theorem send_state (c d : UserId) (msg : Msg) :
    ((h.send c msg).users d).state = (h.users d).state :=
  congrArg Login.state (send_login msg)

@[simp] theorem reply_bans : (h.reply set k op answer).bans = h.bans := rfl

@[simp] theorem reply_state (d : UserId) :
    ((h.reply set k op answer).users d).state = (h.users d).state := send_state ..

theorem idle_reply : Outcome h op sNick none (h.reply set k op answer) :=
  .idle _ reply_bans fun e _ => reply_state e

@[simp] theorem report_bans : (h.report set k op answer).bans = h.bans := by
  unfold report
  dsimp only
  split <;> split <;> rfl

@[simp] theorem report_state (d : UserId) :
    ((h.report set k op answer).users d).state = (h.users d).state := by
  unfold report
  dsimp only
  split <;> split <;> simp

theorem try2Send_bans : (h.try2Send cfg other sent).bans = h.bans := by
  unfold try2Send
  split
  · rfl
  · cases sent with
    | all => rfl
    | rest => rfl
    | error => exact closeWith_bans false

/-- The socket of a user is nothing to the others. -/
theorem try2Send_other {e : UserId} (differs : e ≠ other) :
    (h.try2Send cfg other sent).users e = h.users e := by
  unfold try2Send
  split
  · rfl
  · cases sent with
    | all => exact modify_ne differs
    | rest => rfl
    | error => exact (closeWith_users false differs).trans (modify_ne differs)

@[simp] theorem tell_bans : (h.tell cfg set k other answer sent).bans = h.bans := try2Send_bans

theorem tell_stay : OthersStay (some other) h (h.tell cfg set k other answer sent) := by
  intro e differs
  have ne : e ≠ other := by
    rintro rfl
    exact differs rfl
  unfold tell
  rw [try2Send_other ne, send_state]

theorem fail_banUser : (h.fail cfg other).banUser other = h.banUser other := by
  have modified : (h.modify other fun u => { u with error := true }).banUser other =
      h.banUser other := by
    simp [banUser]
  rw [← modified]
  unfold fail close
  generalize (h.modify other fun u => { u with error := true }) = x
  cases past : (x.users other).state.isPastLogin with
  | true => simp [banUser, closeWith_pastLogin past]
  | false => simp [banUser, closeWith_eq past, closedUser]

theorem tell_banUser : (h.tell cfg set k other answer sent).banUser other = h.banUser other := by
  have said : ((h.send other (.other (set.answer k answer))).banUser other) = h.banUser other := by
    unfold banUser send User.put
    rw [modify_self]
    split <;> rfl
  rw [← said]
  unfold tell try2Send
  split
  · rfl
  · cases sent with
    | all => simp [banUser]
    | rest => rfl
    | error => exact fail_banUser

theorem OthersStay.trans {who : Option UserId} {x y z : Hub} (first : OthersStay who x y)
    (second : OthersStay who y z) : OthersStay who x z :=
  fun e other => (second e other).trans (first e other)

theorem close_stay : OthersStay (some other) h (h.close cfg other) := by
  intro e differs
  have ne : e ≠ other := by
    rintro rfl
    exact differs rfl
  exact congrArg User.state (closeWith_users false ne)

theorem reply_stay (who : Option UserId) : OthersStay who h (h.reply set k op answer) :=
  fun e _ => reply_state e

theorem report_stay (who : Option UserId) : OthersStay who h (h.report set k op answer) :=
  fun e _ => report_state e

theorem setBans_stay (who : Option UserId) (bans : BanManager) :
    OthersStay who h (h.setBans bans) := fun _ _ => rfl

/-- The user found is closed once the bans are made. -/
theorem outcome_close {x : Hub} (found : h.findUser sNick = some other)
    (stay : OthersStay (some other) h x)
    (new : BanManager.NewOf (h.banUser other) h.bans x.bans) :
    Outcome h op sNick (some other) (x.close cfg other) := by
  apply Outcome.ended _ other found (stay.trans close_stay) (closeWith_past false other)
  unfold close
  rw [closeWith_bans]
  exact new

/-- Answers don't change what a command comes to. -/
theorem Outcome.report {who : Option UserId} {x : Hub} (outcome : Outcome h op sNick who x) :
    Outcome h op sNick who (x.report set k op answer) := by
  cases outcome with
  | idle _ bans stay => exact .idle _ (report_bans.trans bans) (stay.trans (report_stay _))
  | nickBanned _ plain free stay added =>
    apply Outcome.nickBanned _ plain free (stay.trans (report_stay _))
    rw [report_bans]
    exact added
  | ended _ d found stay gone new =>
    apply Outcome.ended _ d found (stay.trans (report_stay _))
    · rw [report_state]
      exact gone
    · rw [report_bans]
      exact new

/-- The user found under the nick is acted on if its profile allows it. -/
theorem outcome_found {act : UserId → Hub} {offline : Hub}
    (acts : ∀ other, h.findUser sNick = some other → Outcome h op sNick (some other) (act other))
    (absent : Outcome h op sNick none offline) :
    Outcome h op sNick ((h.findUser sNick).filter (h.checkHigherProfile op))
      (match h.findUser sNick with
      | some other =>
        if !h.checkHigherProfile op other then
          h.reply set k op (.notAllowedTo (h.users other).sNick)
        else act other
      | none => offline) := by
  cases found : h.findUser sNick with
  | none => exact absent
  | some other =>
    cases allowed : h.checkHigherProfile op other with
    | false =>
      simp only [allowed, Option.filter_some, Bool.not_false, if_true, Bool.false_eq_true, if_false]
      exact idle_reply
    | true =>
      simp only [allowed, Option.filter_some, Bool.not_true, Bool.false_eq_true, if_false, if_true]
      exact acts other found

/-- A check that fails comes to an answer and nothing else. -/
theorem outcome_check {P : Prop} [Decidable P] {who : Option UserId} {acted : Hub}
    (passed : Outcome h op sNick who acted) :
    Outcome h op sNick (if P then none else who)
      (if P then h.reply set k op answer else acted) := by
  by_cases failed : P
  · rw [if_pos failed, if_pos failed]
    exact idle_reply
  · rw [if_neg failed, if_neg failed]
    exact passed

/-- One check of several. -/
theorem outcome_checks {P Q : Prop} [Decidable P] [Decidable Q] {who : Option UserId} {acted : Hub}
    (passed : Outcome h op sNick (if Q then none else who) acted) :
    Outcome h op sNick (if P ∨ Q then none else who)
      (if P then h.reply set k op answer else acted) := by
  by_cases failed : P
  · rw [if_pos (.inl failed), if_pos failed]
    exact idle_reply
  · rw [if_neg failed]
    simp only [failed, false_or]
    exact passed

/-! ## A nick that nobody is found under -/

/-- The new bans of a nick that outranks nobody, and an answer that tells whether there is one. -/
theorem outcome_nickBanned {plain : Text} {bans : BanManager} {done : Bool} {yes no : BanAnswer}
    (ranked : h.outranked op plain = false)
    (new : ∀ b, BanManager.Added h.bans bans b →
      BanManager.NickAdded bans (askedNick none (some plain)) b) :
    Outcome h op sNick none
      (if done then (h.setBans bans).report set k op yes
        else (h.setBans bans).reply set k op no) := by
  have same : (if done then (h.setBans bans).report set k op yes
      else (h.setBans bans).reply set k op no).bans = bans := by
    split
    · exact report_bans
    · exact reply_bans
  apply Outcome.nickBanned _ plain ranked
  · intro e _
    split
    · exact report_state e
    · exact reply_state e
  · intro b added
    rw [same] at added ⊢
    have nick := BanManager.askedNick_some (new b added).sNick
    exact ⟨(new b added).ip, (Option.some.inj nick).symm⟩

theorem nickBanOffline_outcome (inv : h.bans.Inv) (plain : Text) (sReason : Option Text) :
    Outcome h op sNick none (h.nickBanOffline cfg set k op plain sReason) := by
  unfold nickBanOffline
  cases ranked : h.outranked op plain with
  | true =>
    rw [if_pos rfl]
    exact idle_reply
  | false =>
    rw [if_neg Bool.false_ne_true]
    exact outcome_nickBanned ranked fun b => BanManager.added_nickBan inv

theorem tempNickBan_outcome (inv : h.bans.Inv) (p : CmdParts) :
    Outcome h op sNick none (h.tempNickBan cfg set k op p) := by
  unfold tempNickBan
  cases ranked : h.outranked op p.nick with
  | true =>
    rw [if_pos rfl]
    exact idle_reply
  | false =>
    rw [if_neg Bool.false_ne_true]
    cases p.banTime set h.clock with
    | none => exact idle_reply
    | some till => exact outcome_nickBanned ranked fun b => BanManager.added_nickTempBan inv

/-! ## The commands -/

theorem actsOn_untimed (untimed : k.timed = false) : h.actsOn set k op args =
    let sNick := (nickAndReason args).1
    if sNick = [] ∨ 100 < sNick.length ∨ h.isSelf op sNick = true then none
    else (h.findUser sNick).filter (h.checkHigherProfile op) := by
  unfold actsOn BanCommand.wellFormed BanCommand.plainNick BanCommand.lookedFor BanCommand.inTime
  simp only [untimed]
  by_cases empty : (nickAndReason args).1 = []
  · simp [empty]
  · by_cases long : 100 < (nickAndReason args).1.length
    · simp [empty, long, Nat.not_le.mpr long]
    · cases self : h.isSelf op (nickAndReason args).1 <;>
        simp [empty, long, self, Nat.not_lt.mp long]

theorem actsOn_timed (timed : k.timed = true) : h.actsOn set k op args =
    let p := parseCmdParts args
    if (p.nickLen = 0 || p.timeLen = 0 || p.time.isNone) = true ∨ 100 < p.nickLen ∨
        h.isSelf op p.nick = true ∨ p.banTime set h.clock = none then none
    else (h.findUser (p.nick.take p.nickLen)).filter (h.checkHigherProfile op) := by
  unfold actsOn BanCommand.wellFormed BanCommand.plainNick BanCommand.lookedFor BanCommand.inTime
  simp only [timed]
  generalize parseCmdParts args = p
  cases bad : (p.nickLen = 0 || p.timeLen = 0 || p.time.isNone) with
  | true => simp
  | false =>
    by_cases long : 100 < p.nickLen
    · simp [long, Nat.not_le.mpr long]
    · cases self : h.isSelf op p.nick <;> cases time : p.banTime set h.clock <;>
        simp [long, self, Nat.not_lt.mp long]

theorem lookedFor_untimed (untimed : k.timed = false) :
    k.lookedFor args = (nickAndReason args).1 := by
  simp [BanCommand.lookedFor, untimed]

theorem lookedFor_timed (timed : k.timed = true) :
    k.lookedFor args = (parseCmdParts args).nick.take (parseCmdParts args).nickLen := by
  simp [BanCommand.lookedFor, timed]

theorem ban_outcome (inv : h.bans.Inv) (untimed : k.timed = false) (bFull : Bool) :
    Outcome h op (k.lookedFor args) (h.actsOn set k op args)
      (h.ban cfg set k op bFull args sent) := by
  rw [actsOn_untimed untimed, lookedFor_untimed untimed]
  unfold ban
  generalize (nickAndReason args).1 = sNick
  generalize (nickAndReason args).2 = sReason
  dsimp only
  refine outcome_checks (outcome_checks (outcome_check ?_))
  apply outcome_found
  · intro other found
    apply outcome_close found
    · exact ((setBans_stay _ _).trans tell_stay).trans (report_stay _)
    · rw [report_bans, tell_bans]
      exact BanManager.newOf_banUser _ _ _ _ inv _ _
  · cases bFull with
    | true => exact idle_reply
    | false => exact nickBanOffline_outcome inv sNick sReason

theorem nickBan_outcome (inv : h.bans.Inv) (untimed : k.timed = false) :
    Outcome h op (k.lookedFor args) (h.actsOn set k op args)
      (h.nickBan cfg set k op args sent) := by
  rw [actsOn_untimed untimed, lookedFor_untimed untimed]
  unfold nickBan
  generalize (nickAndReason args).1 = sNick
  generalize (nickAndReason args).2 = sReason
  dsimp only
  refine outcome_checks (outcome_checks (outcome_check ?_))
  refine outcome_found (fun other found => ?_) (nickBanOffline_outcome inv sNick sReason)
  have stay : OthersStay (some other) h
      (h.tell cfg set k other (.youHadBeenBanned sReason) sent) := tell_stay
  have bans : (h.tell cfg set k other (.youHadBeenBanned sReason) sent).bans = h.bans := tell_bans
  have user : (h.tell cfg set k other (.youHadBeenBanned sReason) sent).banUser other =
      h.banUser other := tell_banUser
  generalize h.tell cfg set k other (.youHadBeenBanned sReason) sent = x at stay bans user
  rw [bans, user]
  have new := BanManager.newOf_nickBan cfg.ban x.clock sReason
    (some (x.users op).sNick) inv (h.banUser other)
  generalize h.bans.nickBan cfg.ban x.clock (some (h.banUser other)) none sReason
    (some (x.users op).sNick) = banned at new
  have banned_stay := stay.trans (setBans_stay _ banned.1)
  split
  · exact (outcome_close found banned_stay new).report
  · exact outcome_close found (banned_stay.trans (reply_stay _)) new

theorem drop_outcome (inv : h.bans.Inv) (untimed : k.timed = false) :
    Outcome h op (k.lookedFor args) (h.actsOn set k op args) (h.drop cfg set k op args) := by
  rw [actsOn_untimed untimed, lookedFor_untimed untimed]
  unfold drop
  generalize (nickAndReason args).1 = sNick
  generalize (nickAndReason args).2 = sReason
  dsimp only
  simp only [or_left_comm (a := sNick = [])]
  refine outcome_checks (outcome_checks (outcome_check ?_))
  refine outcome_found (fun other found => ?_) idle_reply
  apply outcome_close found
  · exact (setBans_stay _ _).trans (report_stay _)
  · rw [report_bans]
    exact BanManager.newOf_tempBan _ _ _ _ inv _ _ _ _

theorem tempBan_outcome (inv : h.bans.Inv) (timed : k.timed = true) (bFull : Bool) :
    Outcome h op (k.lookedFor args) (h.actsOn set k op args)
      (h.tempBan cfg set k op bFull args sent) := by
  rw [actsOn_timed timed, lookedFor_timed timed]
  unfold tempBan
  generalize parseCmdParts args = p
  dsimp only
  refine outcome_checks (outcome_checks (outcome_checks ?_))
  cases time : p.banTime set h.clock with
  | none =>
    rw [if_pos rfl]
    cases h.findUser (p.nick.take p.nickLen) with
    | some other =>
      dsimp only
      split <;> exact idle_reply
    | none =>
      cases bFull with
      | true => exact idle_reply
      | false => exact tempNickBan_outcome inv p
  | some till =>
    rw [if_neg (by simp)]
    apply outcome_found
    · intro other found
      apply outcome_close found
      · exact ((setBans_stay _ _).trans tell_stay).trans (report_stay _)
      · rw [report_bans, tell_bans]
        exact BanManager.newOf_tempBan _ _ _ _ inv _ _ _ _
    · cases bFull with
      | true => exact idle_reply
      | false => exact tempNickBan_outcome inv p

theorem nickTempBan_outcome (inv : h.bans.Inv) (timed : k.timed = true) :
    Outcome h op (k.lookedFor args) (h.actsOn set k op args)
      (h.nickTempBan cfg set k op args sent) := by
  rw [actsOn_timed timed, lookedFor_timed timed]
  unfold nickTempBan
  generalize parseCmdParts args = p
  dsimp only
  refine outcome_checks (outcome_checks (outcome_checks ?_))
  cases time : p.banTime set h.clock with
  | none =>
    rw [if_pos rfl]
    cases h.findUser (p.nick.take p.nickLen) with
    | some other =>
      dsimp only
      split <;> exact idle_reply
    | none => exact tempNickBan_outcome inv p
  | some till =>
    rw [if_neg (by simp)]
    refine outcome_found (fun other found => ?_) (tempNickBan_outcome inv p)
    dsimp only
    have new := BanManager.newOf_nickTempBan cfg.ban h.clock p.reason
      (some (h.users op).sNick) inv (h.banUser other) 0 till
    generalize h.bans.nickTempBan cfg.ban h.clock (some (h.banUser other)) none p.reason
      (some (h.users op).sNick) 0 till = banned at new
    have stay : OthersStay (some other) h (h.setBans banned.1) := setBans_stay _ _
    split
    · apply outcome_close found
      · exact (stay.trans tell_stay).trans (report_stay _)
      · rw [report_bans, tell_bans]
        exact new
    · exact outcome_close found (stay.trans (reply_stay _)) new

theorem banCommand_outcome (inv : h.bans.Inv) (k : BanCommand) :
    Outcome h op (k.lookedFor args) (h.actsOn set k op args)
      (h.banCommand cfg set k op args sent) := by
  cases k with
  | ban => exact ban_outcome inv rfl false
  | fullBan => exact ban_outcome inv rfl true
  | tempBan => exact tempBan_outcome inv rfl false
  | fullTempBan => exact tempBan_outcome inv rfl true
  | nickBan => exact nickBan_outcome inv rfl
  | nickTempBan => exact nickTempBan_outcome inv rfl
  | drop => exact drop_outcome inv rfl

theorem doCommand_outcome (inv : h.bans.Inv) (sCommand : Text) :
    Outcome h op (lookedFor sCommand) (h.target set op sCommand)
      (h.doCommand cfg set op sCommand sent) := by
  unfold doCommand target lookedFor
  cases BanCommand.ofText sCommand with
  | none => exact .idle _ rfl fun _ _ => rfl
  | some k =>
    dsimp only
    cases allowed : set.allows (h.users op).profile k.right with
    | false => exact idle_reply
    | true =>
      by_cases short : sCommand.length < k.minLen
      · simp only [Bool.not_true, Bool.false_eq_true, if_false, if_pos short, Bool.true_and,
          Nat.not_le.mpr short, decide_false]
        exact idle_reply
      · simp only [Bool.not_true, Bool.false_eq_true, if_false, if_neg short, Bool.true_and,
          Nat.not_lt.mp short, decide_true, if_true]
        exact banCommand_outcome inv k

/-! ## The order -/

section
variable {nick sCommand : Text} {r : RegUser}

/-- Who is registered with a higher profile outranks the operator in any spelling. -/
theorem outranked_of_reg (reg : h.findReg nick = some r)
    (rank : (r.profile.toNat : Int) < (h.users op).profile) {plain : Text}
    (same : iequals plain nick = true) : h.outranked op plain = true := by
  have found : h.findReg plain = some r := (RegManager.find_congr same).trans reg
  simp [outranked, found, rank]

theorem spares_of_misses (inv : h.bans.Inv) (reg : h.findReg nick = some r)
    (rank : (r.profile.toNat : Int) < (h.users op).profile)
    (misses : Misses set h op sCommand nick) :
    Spares h (h.doCommand cfg set op sCommand sent) sCommand nick := by
  have outcome : Outcome h op (lookedFor sCommand) (h.target set op sCommand)
      (h.doCommand cfg set op sCommand sent) := doCommand_outcome inv sCommand
  unfold Misses at misses
  generalize h.target set op sCommand = who at outcome misses
  generalize h.doCommand cfg set op sCommand sent = h' at outcome
  cases outcome with
  | idle _ bans stay =>
    have none (b : BanId) : ¬ BanManager.Added h.bans h'.bans b := by
      rw [bans]
      exact fun added => added.2 added.1
    refine ⟨fun b added => absurd added (none b), fun b added => absurd added (none b),
      fun d _ live => ?_⟩
    rw [stay d (by simp)]
    exact live
  | nickBanned _ plain free stay added =>
    refine ⟨fun b new nickBit => ?_, fun b new ip => ?_, fun d _ live => ?_⟩
    · rw [(added b new).2]
      cases same : iequals plain nick with
      | false => rfl
      | true =>
        rw [outranked_of_reg reg rank same] at free
        exact absurd free (by simp)
    · rw [(added b new).1] at ip
      exact absurd ip (by simp)
    · rw [stay d (by simp)]
      exact live
  | ended _ d found stay gone new =>
    have differs : iequals (h.users d).sNick nick = false := misses d rfl
    refine ⟨fun b added nickBit => ?_, fun b added ip => ?_, fun e same live => ?_⟩
    · rw [(new b added).1 nickBit]
      exact differs
    · exact ⟨d, found, (new b added).2 ip, differs⟩
    · have other : some d ≠ some e := by
        intro eq
        rw [Option.some.inj eq, same] at differs
        exact absurd differs (by simp)
      rw [stay e other]
      exact live

/-- The user that a command acts on is closed, so that a spared nick isn't its own. -/
theorem misses_of_spares (inv : h.bans.Inv)
    (live : ∀ d, h.findUser (lookedFor sCommand) = some d →
      (h.users d).state.isPastLogin = false)
    (spares : Spares h (h.doCommand cfg set op sCommand sent) sCommand nick) :
    Misses set h op sCommand nick := by
  intro d target
  have outcome : Outcome h op (lookedFor sCommand) (h.target set op sCommand)
      (h.doCommand cfg set op sCommand sent) := doCommand_outcome inv sCommand
  rw [target] at outcome
  generalize h.doCommand cfg set op sCommand sent = h' at outcome spares
  cases outcome with
  | ended _ _ found stay gone new =>
    cases same : iequals (h.users d).sNick nick with
    | false => rfl
    | true =>
      have kept := spares.open_ d same (live d found)
      rw [gone] at kept
      exact absurd kept (by simp)

/-- A login that is settled has the profile of its registration, by which it is judged. -/
theorem settled_refused {d : UserId} (follows : Follows cfg h (h.users d).login)
    (settled : (h.users d).login.settles = true) (same : iequals (h.users d).sNick nick = true)
    (reg : h.findReg nick = some r) (rank : (r.profile.toNat : Int) < (h.users op).profile) :
    h.checkHigherProfile op d = false := by
  have found : h.findReg (h.users d).sNick = some r := (RegManager.find_congr same).trans reg
  have profile : (h.users d).profile = r.profile.toNat := by
    have own := follows.profile settled
    rw [show (h.users d).login.sNick = (h.users d).sNick from rfl, found] at own
    exact own
  have known : (r.profile.toNat : Int) ≠ -1 := by omega
  simp [checkHigherProfile, profile, rank, known]

theorem target_allowed {d : UserId} (target : h.target set op sCommand = some d) :
    h.findUser (lookedFor sCommand) = some d ∧ h.checkHigherProfile op d = true := by
  unfold Hub.target at target
  unfold lookedFor
  cases command : BanCommand.ofText sCommand with
  | none => simp [command] at target
  | some k =>
    simp only [command] at target ⊢
    split at target
    · unfold actsOn at target
      split at target
      · exact Option.filter_eq_some_iff.mp target
      · simp at target
    · simp at target

/-- Where the profiles follow the registrations, a command misses a higher nick unless its
user is still logging in. -/
theorem misses_of_settled (right : ProfilesRight cfg h) (reg : h.findReg nick = some r)
    (rank : (r.profile.toNat : Int) < (h.users op).profile)
    (settled : ∀ d, h.findUser (lookedFor sCommand) = some d →
      iequals (h.users d).sNick nick = true → (h.users d).login.settles = true) :
    Misses set h op sCommand nick := by
  intro d target
  obtain ⟨found, allowed⟩ := target_allowed target
  cases same : iequals (h.users d).sNick nick with
  | false => rfl
  | true =>
    have refused := settled_refused (right d) (settled d found same) same reg rank
    rw [refused] at allowed
    exact absurd allowed (by simp)

end

/-- An owner and an operator. -/
def owner : RegUser :=
  { sNick := ascii "Boss", profile := 0, passHash := false, passData := ascii "a" }

def twoRegs : RegManager :=
  (RegManager.empty.put owner).put
    { sNick := ascii "Op", profile := 1, passHash := false, passData := ascii "b" }

def opEnters : List Event :=
  arrival 0 (ascii "$Supports QuickList|") ++
    [⟨0, .command 0 (ascii "$MyINFO $ALL Op x$ $56K$$0$|") {}⟩,
      ⟨0, .command 0 (ascii "$MyPass b|") {}⟩]

/-- A connection names the owner's nick. -/
def bossNamed : List Event :=
  arrival 1 (ascii "$Supports QuickList|") ++
    [⟨0, .command 1 (ascii "$MyINFO $ALL BOSS x$ $56K$$0$|") {}⟩]

def allRights : CommandSettings := ⟨fun _ _ => true, fun _ _ => [], false, false, fun _ _ _ => none⟩

end

end Hub

end FlyHub.Session
