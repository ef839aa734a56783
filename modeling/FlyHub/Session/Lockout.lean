import FlyHub.Session.Password

/-!
# The wait after bad passwords

Each bad password for a registration doubles the time in which no connection may
ask for it again. A connection that asked before is not stopped, and the time is
a number of 32 bits: the wait is kept as long as neither matters.
-/

namespace FlyHub.Session

open FlyHub.Ban FlyHub.Lib

/-- A comparison with the password of a registration. -/
structure Attempt where
  time : Nat
  right : Bool
  deriving DecidableEq

/-- The bad passwords since the last right one. -/
def streak (attempts : List Attempt) : Nat :=
  attempts.foldl (fun n attempt => if attempt.right then 0 else n + 1) 0

/-- After the `k`-th bad password in a row none is compared for `60 * 2 ^ (k - 1)`
seconds. -/
def LocksOut (attempts : List Attempt) : Prop :=
  ∀ before last after next, attempts = before ++ last :: after → last.right = false →
    next ∈ after → last.time + 60 * Nat.pow 2 (streak before) ≤ next.time

theorem streak_concat (attempts : List Attempt) (last : Attempt) :
    streak (attempts ++ [last]) = if last.right then 0 else streak attempts + 1 := by
  simp [streak]

namespace RegUser

variable {cfg : Config} {r : RegUser}

/-- Up to the 27th bad password the product fits into 32 bits. -/
theorem lockedUntil_eq (few : r.badPassCount ≤ 27) :
    r.lockedUntil cfg = r.lastBadPass + 60 * Nat.pow 2 (r.badPassCount - 1) := by
  have power : Nat.pow 2 (r.badPassCount - 1) ≤ Nat.pow 2 26 :=
    Nat.pow_le_pow_right (by decide) (by omega)
  have bound : Nat.pow 2 26 = 67108864 := by decide
  have fits : (60 * UInt32.ofNat (Nat.pow 2 (r.badPassCount - 1))).toNat =
      60 * Nat.pow 2 (r.badPassCount - 1) := by
    rw [UInt32.toNat_mul, UInt32.toNat_ofNat']
    change 60 * (Nat.pow 2 (r.badPassCount - 1) % 4294967296) % 4294967296 = _
    omega
  rw [lockedUntil, minutes2Wait, if_pos (by omega), fits]

end RegUser

/-- The user has been asked for the password of `nick`. -/
def Login.asked (nick : Text) (l : Login) : Bool :=
  l.state = .versionOrMyPass && l.waitingForPass && iequals l.sNick nick

namespace Hub

/-- The attempt at the registration of `nick` that the action makes. -/
def attempt (cfg : Config) (nick : Text) (h : Hub) (a : Action) : Option Attempt :=
  match h.comparedPass a with
  | some (_, r, pass) =>
    if iequals r.sNick nick then some ⟨h.clock, r.passMatches cfg pass⟩ else none
  | none => none

/-- All attempts at the registration of `nick` in a run. -/
def attempts (cfg : Config) (nick : Text) (h : Hub) (es : List Event) : List Attempt :=
  trace (step cfg) (fun h e => (h.advance e).attempt cfg nick e.action) h es

/-- A bad password for `nick` finds no other connection that has been asked for
it, and is not the 28th. -/
def lockFits (cfg : Config) (nick : Text) (h : Hub) (a : Action) : Bool :=
  match h.comparedPass a with
  | some (c, r, pass) =>
    !iequals r.sNick nick || r.passMatches cfg pass ||
      r.badPassCount < 27 && (List.range h.nextUser).all fun d => d = c || !(h.users d).login.asked nick
  | none => true

/-- What the events of a run are to heed: they are no operations on registrations. -/
structure KeepsLockout (cfg : Config) (nick : Text) (h : Hub) (e : Event) : Prop where
  stay : RegsStay cfg h e
  fits : lockFits cfg nick (h.advance e) e.action = true

instance (cfg : Config) (nick : Text) (h : Hub) (e : Event) :
    Decidable (KeepsLockout cfg nick h e) :=
  decidable_of_iff (RegsStay cfg h e ∧ lockFits cfg nick (h.advance e) e.action = true)
    ⟨fun both => ⟨both.1, both.2⟩, fun keeps => ⟨keeps.stay, keeps.fits⟩⟩

section
variable {cfg : Config} {h₀ x y : Hub} {a : Action} {c d : UserId} {nick : Text}

/-! ## The clock and the registration during an action -/

theorem Move.clock (move : Move cfg h₀ a x y) : y.clock = x.clock := by
  have close (z : Hub) (c : UserId) (bNoQuit : Bool) :
      (z.closeWith cfg c bNoQuit).clock = z.clock := by
    cases past : (z.users c).state.isPastLogin with
    | true => rw [closeWith_pastLogin past]; rfl
    | false => rw [closeWith_eq past]
  cases move with
  | opChat c msgs | pingerLists c msgs | roundSend c msgs => exact (same_sendAll msgs).clock
  | flush c => exact same_flush.clock
  | shut c f msgs => exact (close _ c false).trans (same_sendAll msgs).clock
  | deadSocket c other => exact close _ other false
  | pass c r =>
    unfold takeNick
    split
    · rfl
    · dsimp only
      cases findUser (x.passed cfg c r _) ((x.passed cfg c r _).users c).sNick with
      | none => rfl
      | some other => exact close _ other _
  | reg change =>
    cases change with
    | add r | change r | delete r => exact (same_modifyOnline r.sNick _).clock
    | self => rfl
  | keyLost c => exact same_tellKeyLost.clock
  | enlist c => exact same_enlist.clock
  | refresh c due => exact (same_refresh due).clock
  | _ => rfl

theorem nick_of_compared {r : RegUser} {pass : Text} (compared : PassCompared h₀ a c r pass)
    (own : iequals r.sNick nick = true) : iequals (h₀.users c).sNick nick = true := by
  have spelled : iequals r.sNick (h₀.users c).sNick = true := RegManager.iequals_of_find compared.reg
  exact iequals_trans (iequals_comm.trans spelled) own

theorem asked_of_compared {r : RegUser} {pass : Text} (compared : PassCompared h₀ a c r pass)
    (own : iequals r.sNick nick = true) : (h₀.users c).login.asked nick = true := by
  simp [Login.asked, User.login, compared.state, compared.waiting, nick_of_compared compared own]

theorem reg_of_compared {r : RegUser} {pass : Text} (compared : PassCompared h₀ a c r pass)
    (own : iequals r.sNick nick = true) : h₀.findReg nick = some r :=
  (RegManager.find_congr (nick_of_compared compared own)).symm.trans compared.reg

/-- An action that makes no attempt at a registration leaves it as it is. -/
theorem Move.findReg (move : Move cfg h₀ a x y) (nick : Text) (stay : registers cfg h₀ a = false)
    (calm : ∀ c r pass, PassCompared h₀ a c r pass → iequals r.sNick nick = false) :
    y.findReg nick = x.findReg nick := by
  have other (r r' : RegUser) (same : r'.sNick = r.sNick) (differs : iequals r.sNick nick = false)
      (regs : y.regs = x.regs.put r') : y.findReg nick = x.findReg nick := by
    unfold Hub.findReg
    rw [regs, RegManager.find_put, same, iequals_comm, differs]
    rfl
  cases move.regs with
  | same regs =>
    unfold Hub.findReg
    rw [regs]
  | good c r pass compared right found regs =>
    exact other r { r with badPassCount := 0 } rfl (calm c r pass compared) regs
  | bad c r pass compared wrong found regs =>
    exact other r _ (noteBadPass_sNick r _) (calm c r pass compared) regs
  | change change =>
    rw [change.registers] at stay
    exact absurd stay (by simp)

/-! ## A locked registration -/

/-- Nobody is asked for the password of a locked registration. -/
theorem LoginStep.unasked {l l' : Login} (step : LoginStep cfg h₀ a x y d l l')
    (stay : registers cfg h₀ a = false) {r : RegUser} (reg : x.findReg nick = some r)
    (locked : r.isLocked cfg x.clock = true) (unasked : l.asked nick = false) :
    l'.asked nick = false := by
  have spelled (eq : iequals l.sNick nick = true) : x.findReg l.sNick = some r :=
    (RegManager.find_congr eq).trans reg
  cases step with
  | stay => exact unasked
  | fresh _ event new grown state => simp [Login.asked, state]
  | shut _ past =>
    cases state : l'.state <;> simp_all [Login.asked, UserState.isPastLogin, UserState.toNat]
  | handshake st pinger early stays =>
    cases st <;> simp_all [Login.asked, UserState.toNat]
  | name nick validate | enterFree validate | deadSocket validate =>
    simp [Login.asked, validate]
  | helloLater validate named hashed free =>
    cases eq : iequals l.sNick nick with
    | false => simp [Login.asked, eq]
    | true =>
      rw [spelled eq] at free
      simp at free
  | ask r' hashed validate named reg' open_ =>
    cases eq : iequals l.sNick nick with
    | false => simp [Login.asked, eq]
    | true =>
      rw [spelled eq] at reg'
      rw [← Option.some.inj reg', locked] at open_
      simp at open_
  | version state => simp [Login.asked]
  | addMe st early late named hashed done user next =>
    rcases next with rfl | rfl <;> simp [Login.asked]
  | added state => simp [Login.asked]
  | advance st loggedIn stays =>
    cases st <;> simp_all [Login.asked, UserState.isLoggedIn, UserState.toNat]
  | unwait state | pass => simp [Login.asked]
  | grant => exact unasked
  | askReg event =>
    rcases event with ⟨op, rfl⟩ | state
    · simp [registers] at stay
    · simp [Login.asked, state]

/-- Until `T` the registration of the nick is locked, and nobody has been asked for
its password. -/
structure Locked (cfg : Config) (nick : Text) (T : Nat) (h : Hub) : Prop where
  reg : ∃ r, h.findReg nick = some r ∧ r.badPassCount ≠ 0 ∧ T ≤ r.lockedUntil cfg
  nobody : ∀ d, (h.users d).login.asked nick = false

theorem Locked.calm {T : Nat} (locked : Locked cfg nick T h₀) {r : RegUser} {pass : Text}
    (compared : PassCompared h₀ a c r pass) : iequals r.sNick nick = false := by
  cases own : iequals r.sNick nick with
  | false => rfl
  | true =>
    have asked := asked_of_compared compared own
    rw [locked.nobody c] at asked
    simp at asked

/-- A lock holds as long as its time has not come. -/
theorem act_locked (wf : WellFormed x) (a : Action) (on : cfg.advancedPassProtection = true)
    (stay : registers cfg x a = false) {T : Nat} (locked : Locked cfg nick T x)
    (early : x.clock < T) : Locked cfg nick T (x.act cfg a) := by
  have both : Locked cfg nick T (x.act cfg a) ∧ (x.act cfg a).clock = x.clock := by
    refine (act_moves cfg wf a).invariant
      (P := fun z => Locked cfg nick T z ∧ z.clock = x.clock) (fun z z' now move => ?_)
      ⟨locked, rfl⟩
    have reg := move.findReg nick stay fun c r pass => locked.calm
    obtain ⟨r, found, bad, until_⟩ := now.1.reg
    have isLocked : r.isLocked cfg z.clock = true := by
      rw [now.2]
      simp [RegUser.isLocked, on, bad, Nat.lt_of_lt_of_le early until_]
    constructor
    · constructor
      · exact ⟨r, reg.trans found, bad, until_⟩
      · intro d
        exact (move.login d).unasked stay found isLocked (now.1.nobody d)
    · exact move.clock.trans now.2
  exact both.1

/-! ## A bad password -/

/-- A command has one name. -/
theorem not_isCommand {cmd : Text} {name other : String} (is : isCommand cmd name = true)
    (differs : (ascii name).isPrefixOf (ascii other) = false ∧
      (ascii other).isPrefixOf (ascii name) = false) : isCommand cmd other = false := by
  cases also : isCommand cmd other with
  | false => rfl
  | true =>
    have first := List.isPrefixOf_iff_prefix.mp is
    have second := List.isPrefixOf_iff_prefix.mp also
    cases List.prefix_or_prefix_of_prefix first second with
    | inl before => simp [List.isPrefixOf_iff_prefix.mpr before] at differs
    | inr after => simp [List.isPrefixOf_iff_prefix.mpr after] at differs

/-- What the hub does about a bad password. -/
theorem act_badPass {r : RegUser} {pass : Text} (compared : PassCompared x a c r pass)
    (wrong : r.passMatches cfg pass = false) :
    x.act cfg a = (x.modify c fun u => { u with waitingForPass := false }).badPass cfg c r := by
  obtain ⟨cmd, answers, rfl, isMyPass, long, short, rfl⟩ := compared.command
  have version : isCommand cmd "$Version " = false := not_isCommand isMyPass (by decide)
  have getNickList : isCommand cmd "$GetNickList" = false := not_isCommand isMyPass (by decide)
  have nickList : isGetNickList cmd = false := by simp [isGetNickList, getNickList]
  have myInfo : isCommand cmd "$MyINFO $ALL " = false := not_isCommand isMyPass (by decide)
  have length : ¬ cmd.length < 5 := by omega
  simp only [act, preProcessData, compared.state, length, if_false, preProcessVersionOrMyPass,
    version, nickList, myInfo, isMyPass, myPass, compared.reg, compared.waiting]
  simp [wrong, Nat.not_lt.mpr long, Nat.not_lt.mpr short]

/-- A bad password locks the registration, if nobody else has been asked for it. -/
theorem act_badPass_reg {r : RegUser} {pass : Text} (compared : PassCompared x a c r pass)
    (wrong : r.passMatches cfg pass = false) (own : iequals r.sNick nick = true) :
    (x.act cfg a).findReg nick = some (r.noteBadPass cfg x.clock) := by
  let x' := x.modify c fun u => { u with waitingForPass := false }
  have punished : Punished cfg c (x'.setReg (r.noteBadPass cfg x'.clock)) (x'.badPass cfg c r) :=
    punished_badPass r
  obtain ⟨es, items, msgs, plain, eq⟩ := punished.shape
  rw [act_badPass compared wrong, eq]
  unfold findReg close
  rw [closeWith_regs, (same_sendAll msgs).regs]
  change (x.regs.put (r.noteBadPass cfg x.clock)).find nick = _
  rw [RegManager.find_put, noteBadPass_sNick, iequals_comm, own, if_pos rfl]

theorem act_badPass_unasked {r : RegUser} {pass : Text} (compared : PassCompared x a c r pass)
    (wrong : r.passMatches cfg pass = false)
    (alone : ∀ d, d ≠ c → (x.users d).login.asked nick = false) (d : UserId) :
    ((x.act cfg a).users d).login.asked nick = false := by
  let x' := x.modify c fun u => { u with waitingForPass := false }
  have punished : Punished cfg c (x'.setReg (r.noteBadPass cfg x'.clock)) (x'.badPass cfg c r) :=
    punished_badPass r
  obtain ⟨es, items, msgs, plain, eq⟩ := punished.shape
  rw [act_badPass compared wrong, eq]
  by_cases self : d = c
  · rw [self]
    have notAsked (u : User) (gone : u.state.isPastLogin = true) : u.login.asked nick = false := by
      cases state : u.state <;>
        simp_all [Login.asked, User.login, UserState.isPastLogin, UserState.toNat]
    exact notAsked _ (closeWith_past false c)
  · unfold close
    rw [closeWith_users false self, sendAll_login]
    change (x'.users d).login.asked nick = false
    have kept : x'.users d = x.users d := modify_ne self
    rw [kept]
    exact alone d self

theorem act_badPass_locked (on : cfg.advancedPassProtection = true) {r : RegUser} {pass : Text}
    (compared : PassCompared x a c r pass) (wrong : r.passMatches cfg pass = false)
    (own : iequals r.sNick nick = true) (few : r.badPassCount < 27)
    (alone : ∀ d, d ≠ c → (x.users d).login.asked nick = false) :
    Locked cfg nick (x.clock + 60 * Nat.pow 2 r.badPassCount) (x.act cfg a) where
  reg := by
    have noted : r.noteBadPass cfg x.clock =
        { r with lastBadPass := x.clock, badPassCount := r.badPassCount + 1 } := by
      simp [RegUser.noteBadPass, on, show r.badPassCount < 255 by omega]
    refine ⟨_, act_badPass_reg compared wrong own, ?_, ?_⟩
    · simp [noted]
    · rw [noted, RegUser.lockedUntil_eq (Nat.succ_le_of_lt few)]
      exact Nat.le_refl _
  nobody := act_badPass_unasked compared wrong alone

/-! ## Whole runs -/

/-- The counter of bad passwords of the registration of `nick`. -/
def badCount (nick : Text) (h : Hub) : Nat := ((h.findReg nick).map RegUser.badPassCount).getD 0

/-- What holds of a hub after the attempts of the run. -/
structure LockoutInv (cfg : Config) (nick : Text) (h : Hub) (made : List Attempt) : Prop where
  wf : WellFormed h
  counted : streak made ≤ badCount nick h
  held : ∀ before last after, made = before ++ last :: after → last.right = false →
    last.time + 60 * Nat.pow 2 (streak before) ≤ h.clock ∨
      Locked cfg nick (last.time + 60 * Nat.pow 2 (streak before)) h
  out : LocksOut made

theorem act_clock (wf : WellFormed x) (a : Action) : (x.act cfg a).clock = x.clock :=
  (act_moves cfg wf a).invariant (P := fun z => z.clock = x.clock)
    (fun _ _ same move => move.clock.trans same) rfl

theorem attempt_some {last : Attempt} (made : x.attempt cfg nick a = some last) :
    ∃ c r pass, PassCompared x a c r pass ∧ iequals r.sNick nick = true ∧
      last = ⟨x.clock, r.passMatches cfg pass⟩ := by
  unfold attempt at made
  cases compared : x.comparedPass a with
  | none => simp [compared] at made
  | some found =>
    obtain ⟨c, r, pass⟩ := found
    simp only [compared] at made
    split at made
    · rename_i own
      exact ⟨c, r, pass, comparedPass_iff.mp compared, own, (Option.some.inj made).symm⟩
    · simp at made

theorem attempt_none {r : RegUser} {pass : Text} (none_ : x.attempt cfg nick a = none)
    (compared : PassCompared x a c r pass) : iequals r.sNick nick = false := by
  rw [attempt, comparedPass_iff.mpr compared] at none_
  simpa using none_

/-- The lock of every bad attempt is over or still closed. -/
theorem LockoutInv.advance {made : List Attempt} (inv : LockoutInv cfg nick x made) (e : Event) :
    LockoutInv cfg nick (x.advance e) made where
  wf := advance_wellFormed inv.wf e
  counted := inv.counted
  held := by
    intro before last after eq wrong
    cases inv.held before last after eq wrong with
    | inl expired => exact .inl (Nat.le_trans expired (Nat.le_add_right _ _))
    | inr locked => exact .inr ⟨locked.reg, locked.nobody⟩
  out := inv.out

/-- An action without an attempt. -/
theorem LockoutInv.calm {made : List Attempt} (inv : LockoutInv cfg nick x made) (a : Action)
    (on : cfg.advancedPassProtection = true) (stay : registers cfg x a = false)
    (none_ : x.attempt cfg nick a = none) : LockoutInv cfg nick (x.act cfg a) made where
  wf := act_wellFormed cfg inv.wf a
  counted := by
    have reg : (x.act cfg a).findReg nick = x.findReg nick :=
      (act_moves cfg inv.wf a).invariant (P := fun z => z.findReg nick = x.findReg nick)
        (fun _ _ same move =>
          (move.findReg nick stay fun c r pass => attempt_none none_).trans same) rfl
    unfold badCount
    rw [reg]
    exact inv.counted
  held := by
    intro before last after eq wrong
    rw [act_clock inv.wf]
    cases inv.held before last after eq wrong with
    | inl expired => exact .inl expired
    | inr locked =>
      by_cases early : x.clock < last.time + 60 * Nat.pow 2 (streak before)
      · exact .inr (act_locked inv.wf a on stay locked early)
      · exact .inl (Nat.le_of_not_lt early)
  out := inv.out

/-- The locks of the bad attempts so far are over when a new one is made. -/
theorem LockoutInv.expired {made : List Attempt} (inv : LockoutInv cfg nick x made) {a : Action}
    {next : Attempt} (attempt : x.attempt cfg nick a = some next) {before after : List Attempt}
    {last : Attempt} (eq : made = before ++ last :: after) (wrong : last.right = false) :
    last.time + 60 * Nat.pow 2 (streak before) ≤ x.clock := by
  obtain ⟨c, r, pass, compared, own, -⟩ := attempt_some attempt
  cases inv.held before last after eq wrong with
  | inl expired => exact expired
  | inr locked =>
    rw [locked.calm compared] at own
    exact absurd own (by simp)

/-- The last of the attempts or one before it. -/
theorem split_concat {made before after : List Attempt} {next last : Attempt}
    (eq : made ++ [next] = before ++ last :: after) :
    before = made ∧ last = next ∧ after = [] ∨
      ∃ after', after = after' ++ [next] ∧ made = before ++ last :: after' := by
  cases List.eq_nil_or_concat after with
  | inl nil =>
    subst nil
    have ends := List.append_inj' eq rfl
    exact .inl ⟨ends.1.symm, (List.cons.inj ends.2).1.symm, rfl⟩
  | inr concat =>
    obtain ⟨after', final, rfl⟩ := concat
    rw [List.concat_eq_append, ← List.cons_append, ← List.append_assoc] at eq
    have ends := List.append_inj' eq rfl
    right
    refine ⟨after', ?_, ends.1⟩
    rw [List.concat_eq_append, (List.cons.inj ends.2).1]

theorem lockFits_bad {r : RegUser} {pass : Text} (wf : WellFormed x)
    (fits : lockFits cfg nick x a = true) (compared : PassCompared x a c r pass)
    (own : iequals r.sNick nick = true) (wrong : r.passMatches cfg pass = false) :
    r.badPassCount < 27 ∧ ∀ d, d ≠ c → (x.users d).login.asked nick = false := by
  rw [lockFits, comparedPass_iff.mpr compared] at fits
  simp only [own, wrong, Bool.not_true, Bool.false_or, Bool.and_eq_true, decide_eq_true_eq,
    List.all_eq_true, List.mem_range, Bool.or_eq_true, Bool.not_eq_true'] at fits
  refine ⟨fits.1, fun d other => ?_⟩
  by_cases born : d < x.nextUser
  · exact (fits.2 d born).resolve_left other
  · have past := (wf.unborn d (Nat.le_of_not_lt born)).1
    cases state : (x.users d).state <;>
      simp_all [Login.asked, User.login, UserState.isPastLogin, UserState.toNat]

/-- An attempt whose event heeds the rules. -/
theorem LockoutInv.attempt {made : List Attempt} (inv : LockoutInv cfg nick x made) {a : Action}
    (on : cfg.advancedPassProtection = true) (fits : lockFits cfg nick x a = true)
    {next : Attempt} (attempt : x.attempt cfg nick a = some next) :
    LockoutInv cfg nick (x.act cfg a) (made ++ [next]) := by
  obtain ⟨c, r, pass, compared, own, eq⟩ := attempt_some attempt
  have time : next.time = x.clock := by rw [eq]
  have now : (x.act cfg a).clock = x.clock := act_clock inv.wf a
  have counted : streak made ≤ r.badPassCount := by
    have count := inv.counted
    unfold badCount at count
    rwa [reg_of_compared compared own] at count
  have bad (wrong : next.right = false) :
      r.passMatches cfg pass = false ∧ r.badPassCount < 27 ∧
        ∀ d, d ≠ c → (x.users d).login.asked nick = false := by
    have wrong : r.passMatches cfg pass = false := by rw [eq] at wrong; exact wrong
    exact ⟨wrong, lockFits_bad inv.wf fits compared own wrong⟩
  constructor
  · exact act_wellFormed cfg inv.wf a
  · rw [streak_concat]
    cases right : next.right with
    | true => exact Nat.zero_le _
    | false =>
      obtain ⟨wrong, few, alone⟩ := bad right
      have less : r.badPassCount < 255 := by omega
      unfold badCount
      rw [act_badPass_reg compared wrong own]
      simp only [RegUser.noteBadPass, on, less, if_true, Option.map_some, Option.getD_some]
      exact Nat.succ_le_succ counted
  · intro before last after split wrong
    cases split_concat split with
    | inl newest =>
      obtain ⟨rfl, rfl, rfl⟩ := newest
      obtain ⟨wrong, few, alone⟩ := bad wrong
      have locked := act_badPass_locked on compared wrong own few alone
      obtain ⟨r', found, some_, until_⟩ := locked.reg
      refine .inr ⟨⟨r', found, some_, Nat.le_trans ?_ until_⟩, locked.nobody⟩
      rw [time]
      have power : Nat.pow 2 (streak before) ≤ Nat.pow 2 r.badPassCount :=
        Nat.pow_le_pow_right (by decide) counted
      omega
    | inr older =>
      obtain ⟨after', -, earlier⟩ := older
      rw [now]
      exact .inl (inv.expired attempt earlier wrong)
  · intro before last after later split wrong member
    cases split_concat split with
    | inl newest =>
      rw [newest.2.2] at member
      simp at member
    | inr older =>
      obtain ⟨after', rfl, earlier⟩ := older
      rw [List.mem_append, List.mem_singleton] at member
      cases member with
      | inl before_ => exact inv.out before last after' later earlier wrong before_
      | inr final =>
        rw [final, time]
        exact inv.expired attempt earlier wrong

theorem step_lockoutInv {made : List Attempt} (inv : LockoutInv cfg nick x made) (e : Event)
    (on : cfg.advancedPassProtection = true) (keeps : KeepsLockout cfg nick x e) :
    LockoutInv cfg nick (step cfg x e)
      (made ++ ((x.advance e).attempt cfg nick e.action).toList) := by
  cases attempt : (x.advance e).attempt cfg nick e.action with
  | none =>
    rw [Option.toList_none, List.append_nil]
    exact (inv.advance e).calm e.action on keeps.stay attempt
  | some next => exact (inv.advance e).attempt on keeps.fits attempt

theorem start_lockoutInv (regs : RegManager) : LockoutInv cfg nick (start cfg regs) [] where
  wf := start_wellFormed regs
  counted := Nat.zero_le _
  held := by simp
  out := by simp [LocksOut]

/-- The plain hub with the wait after bad passwords. -/
def patient : Config := { Config.plain with advancedPassProtection := true }

/-- One connection gives a bad password for Bob, waits in vain, and the next one
comes after a minute. -/
def bobForgets : List Event :=
  arrival 0 (ascii "$Supports QuickList|") ++ [bobNames,
    ⟨0, .command 0 (ascii "$MyPass word|") {}⟩, ⟨60, .accept [] 0 false⟩, ⟨0, .receive 1 {}⟩,
    ⟨0, .command 1 (ascii "$Supports QuickList|") {}⟩,
    ⟨0, .command 1 (ascii "$MyINFO $ALL Bob x$ $56K$$0$|") {}⟩,
    ⟨0, .command 1 (ascii "$MyPass pass|") {}⟩]

example : (attempts patient (ascii "Bob") (start patient bobsRegs) bobForgets).map
    (fun attempt => (attempt.time, attempt.right)) = [(0, false), (60, true)] := by decide +kernel

/-- Two connections are asked for the password of Bob and try it one after the
other. -/
def bobTwice : List Event :=
  arrival 0 (ascii "$Supports QuickList|") ++ [bobNames] ++
    arrival 1 (ascii "$Supports QuickList|") ++
      [⟨0, .command 1 (ascii "$MyINFO $ALL Bob x$ $56K$$0$|") {}⟩,
        ⟨0, .command 0 (ascii "$MyPass word|") {}⟩, ⟨0, .command 1 (ascii "$MyPass pass|") {}⟩]

end

end Hub

end FlyHub.Session
