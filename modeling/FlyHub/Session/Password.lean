import FlyHub.Session.Profiles

/-!
# No way around the password

A connection that has named a registered nick is barred: it waits for the
password, and no command but the right `$MyPass` takes it further.
-/

namespace FlyHub.Session

open FlyHub.Lib

/-- The login has not gone past the place where the password is asked for. -/
def Login.Barred (l : Login) : Prop :=
  l.state.isPastLogin = true ∨ l.state.toNat ≤ UserState.validate.toNat ∨
    l.waitingForPass = true ∧ (l.state = .versionOrMyPass ∨ l.state = .getNickListOrMyInfo)

namespace Hub

/-- The comparison of a password that the action makes: who gives it, with which
registration it is compared, and the password. -/
def comparedPass (h : Hub) : Action → Option (UserId × RegUser × Text)
  | .command c cmd _ =>
    if (h.users c).state = .versionOrMyPass && isCommand cmd "$MyPass " &&
        (h.users c).waitingForPass && 10 ≤ cmd.length && cmd.length ≤ 73 then
      (h.findReg (h.users c).sNick).map fun r => (c, r, myPassArg cmd)
    else none
  | _ => none

/-- The user whose password the action accepts. -/
def acceptedPass (cfg : Config) (h : Hub) (a : Action) : Option UserId :=
  match h.comparedPass a with
  | some (c, r, pass) => if r.passMatches cfg pass then some c else none
  | none => none

/-- A nick that `c` names is registered. -/
def namesTaken (cfg : Config) (h : Hub) (a : Action) (c : UserId) : Bool :=
  match namedNick cfg h a with
  | some (d, nick) => d ≠ c || (h.findReg nick).isSome
  | none => true

/-- The action is about registrations: an operator's or a script's, or the
`$MyPass` of a user in the list. -/
def registers (cfg : Config) (h : Hub) : Action → Bool
  | .reg _ => true
  | a => (h.selfProfile cfg a).isSome

section
variable {cfg : Config} {h₀ x y : Hub} {a : Action} {c d : UserId}

theorem comparedPass_iff {r : RegUser} {pass : Text} :
    h₀.comparedPass a = some (c, r, pass) ↔ PassCompared h₀ a c r pass := by
  constructor
  · intro compared
    cases a with
    | command c' cmd answers =>
      simp only [comparedPass] at compared
      split at compared
      · rename_i checks
        simp only [Bool.and_eq_true, decide_eq_true_eq] at checks
        obtain ⟨⟨⟨⟨state, isMyPass⟩, waiting⟩, long⟩, short⟩ := checks
        obtain ⟨r', reg, eq⟩ := Option.map_eq_some_iff.mp compared
        simp only [Prod.mk.injEq] at eq
        obtain ⟨rfl, rfl, rfl⟩ := eq
        exact ⟨⟨cmd, answers, rfl, isMyPass, long, short, rfl⟩, state, reg, waiting⟩
      · simp at compared
    | _ => simp [comparedPass] at compared
  · intro compared
    obtain ⟨cmd, answers, rfl, isMyPass, long, short, rfl⟩ := compared.command
    simp [comparedPass, compared.state, compared.reg, compared.waiting, isMyPass, long, short]

theorem acceptedPass_of_compared {r : RegUser} {pass : Text}
    (compared : PassCompared h₀ a c r pass) (right : r.passMatches cfg pass = true) :
    acceptedPass cfg h₀ a = some c := by
  rw [acceptedPass, comparedPass_iff.mpr compared]
  exact if_pos right

theorem RegChange.registers (change : RegChange cfg h₀ a x y) :
    Hub.registers cfg h₀ a = true := by
  cases change.event with
  | inl op =>
    obtain ⟨op, rfl⟩ := op
    rfl
  | inr own =>
    obtain ⟨c, p, own⟩ := own
    cases a with
    | command => simp [Hub.registers, own]
    | _ => simp [selfProfile] at own

theorem validate_of_named {nick : Text} (named : namedNick cfg h₀ a = some (c, nick)) :
    (h₀.users c).state = .validate := by
  obtain ⟨cmd, answers, rfl⟩ := event_of_named named
  simp only [namedNick] at named
  split at named
  · simp at named
  · rename_i early
    simp only [Bool.or_eq_true, decide_eq_true_eq, not_or, Decidable.not_not] at early
    exact early.1.1

/-- Who names its nick changes no registration. -/
theorem not_registers_of_named {nick : Text} (named : namedNick cfg h₀ a = some (c, nick)) :
    registers cfg h₀ a = false := by
  have validate := validate_of_named named
  obtain ⟨cmd, answers, rfl⟩ := event_of_named named
  simp [registers, selfProfile, validate]

/-! ## One step -/

/-- A barred user stays barred, unless it names a nick that nobody has registered
or gives the password. -/
theorem LoginStep.barred {l l' : Login} (step : LoginStep cfg h₀ a x y d l l') (barred : l.Barred)
    (taken : ∀ nick, namedNick cfg h₀ a = some (d, nick) → x.findReg nick ≠ none)
    (refused : acceptedPass cfg h₀ a ≠ some d) : l'.Barred := by
  cases step with
  | stay => exact barred
  | fresh _ event new grown state =>
    right; left
    rw [state]
    decide
  | shut _ past => exact .inl past
  | handshake st pinger early stays => exact .inr (.inl stays)
  | name nick validate | deadSocket validate =>
    right; left
    simp only [validate]
    decide
  | enterFree validate named free => exact absurd free (taken _ named)
  | helloLater validate named hashed free => exact absurd free (taken _ named)
  | ask r hashed => exact .inr (.inr ⟨rfl, .inl rfl⟩)
  | version state =>
    have asked : l.waitingForPass = true := by
      rcases barred with past | early | asked
      · simp [state, UserState.isPastLogin, UserState.toNat] at past
      · simp [state, UserState.toNat] at early
      · exact asked.1
    exact .inr (.inr ⟨asked, .inr rfl⟩)
  | addMe st early late named hashed done user next =>
    rcases barred with past | start | asked
    · cases state : l.state <;> simp_all [UserState.isPastLogin, UserState.toNat]
    · have validate : l.state = .validate := by
        cases state : l.state <;> simp_all [UserState.toNat]
      exact absurd (named validate).2 (taken _ (named validate).1)
    · rw [done] at asked
      exact absurd asked.1 (by simp)
  | added state | unwait state =>
    simp [Login.Barred, state, UserState.isPastLogin, UserState.toNat] at barred
  | advance st loggedIn =>
    cases state : l.state <;>
      simp_all [Login.Barred, UserState.isPastLogin, UserState.isLoggedIn, UserState.toNat]
  | pass r password state compared right =>
    exact absurd (acceptedPass_of_compared compared right) refused
  | grant => exact barred
  | askReg event =>
    rcases barred with past | early | asked
    · exact .inl past
    · exact .inr (.inl early)
    · exact .inr (.inr ⟨rfl, asked.2⟩)

/-- A user's profile is given with its password or by the registrations. -/
theorem LoginStep.profile {l l' : Login} (step : LoginStep cfg h₀ a x y d l l') (old : Old x y d)
    (kept : registers cfg h₀ a = false) (refused : acceptedPass cfg h₀ a ≠ some d) :
    l'.profile = l.profile := by
  cases step with
  | fresh _ event new grown =>
    rw [old new] at grown
    exact absurd grown (Nat.ne_of_lt (Nat.lt_succ_self _))
  | shut _ past nick ip hashed profile => exact profile
  | pass r password state compared right =>
    exact absurd (acceptedPass_of_compared compared right) refused
  | grant profile operator change =>
    rw [change.registers] at kept
    exact absurd kept (by simp)
  | _ => rfl

/-! ## One action -/

/-- An action that names a nick leaves the profiles of the registrations alone. -/
theorem Moves.sameProfiles (moves : Moves cfg h₀ a h₀ x) {nick : Text}
    (named : namedNick cfg h₀ a = some (d, nick)) : SameProfiles h₀ x := by
  refine moves.invariant (P := SameProfiles h₀) (fun z z' before move => ?_) fun _ => rfl
  cases move.sameProfiles with
  | inl same => exact fun n => (same n).trans (before n)
  | inr change =>
    have registers := change.registers
    rw [not_registers_of_named named] at registers
    exact absurd registers (by simp)

/-- A nick that is registered when it is named is registered until the end of the
action. -/
theorem Moves.taken (moves : Moves cfg h₀ a h₀ x) {nick : Text}
    (named : namedNick cfg h₀ a = some (d, nick)) (reg : h₀.findReg nick ≠ none) :
    x.findReg nick ≠ none := by
  intro gone
  have profile := moves.sameProfiles named nick
  cases found : h₀.findReg nick with
  | none => exact reg found
  | some r => simp [gone, found, regProfile] at profile

theorem act_barred (wf : WellFormed x) (a : Action) (barred : (x.users d).login.Barred)
    (taken : ∀ nick, namedNick cfg x a = some (d, nick) → x.findReg nick ≠ none)
    (refused : acceptedPass cfg x a ≠ some d) : ((x.act cfg a).users d).login.Barred := by
  have whole : Moves cfg x a x (x.act cfg a) := act_moves cfg wf a
  suffices both : Moves cfg x a x (x.act cfg a) ∧ ((x.act cfg a).users d).login.Barred from both.2
  refine whole.invariant (P := fun z => Moves cfg x a x z ∧ (z.users d).login.Barred)
    (fun z z' now move => ?_) ⟨.refl, barred⟩
  exact ⟨now.1.tail move, (move.login d).barred now.2
    (fun nick named => now.1.taken named (taken nick named)) refused⟩

theorem act_profile (wf : WellFormed x) (a : Action) (born : d < x.nextUser)
    (kept : registers cfg x a = false) (refused : acceptedPass cfg x a ≠ some d) :
    ((x.act cfg a).users d).profile = (x.users d).profile ∧ d < (x.act cfg a).nextUser := by
  refine (act_moves cfg wf a).invariant
    (P := fun z => (z.users d).profile = (x.users d).profile ∧ d < z.nextUser)
    (fun z z' now move => ?_) ⟨rfl, born⟩
  have old : Old z z' d := fun new => absurd new (Nat.ne_of_lt now.2)
  constructor
  · exact ((move.login d).profile old kept refused).trans now.1
  · cases move.born with
    | inl same => exact same ▸ now.2
    | inr grown =>
      rw [grown]
      exact Nat.lt_succ_of_lt now.2

/-! ## Whole runs -/

/-- `c` names only registered nicks, and no password of it is accepted. -/
structure NoPass (cfg : Config) (c : UserId) (h : Hub) (e : Event) : Prop where
  taken : namesTaken cfg (h.advance e) e.action c = true
  refused : acceptedPass cfg (h.advance e) e.action ≠ some c

/-- No registration changes. -/
def RegsStay (cfg : Config) (h : Hub) (e : Event) : Prop :=
  registers cfg (h.advance e) e.action = false

instance (cfg : Config) (c : UserId) (h : Hub) (e : Event) : Decidable (NoPass cfg c h e) :=
  decidable_of_iff (namesTaken cfg (h.advance e) e.action c = true ∧
      acceptedPass cfg (h.advance e) e.action ≠ some c)
    ⟨fun both => ⟨both.1, both.2⟩, fun noPass => ⟨noPass.taken, noPass.refused⟩⟩

instance (cfg : Config) (h : Hub) (e : Event) : Decidable (RegsStay cfg h e) :=
  inferInstanceAs (Decidable (_ = _))

theorem step_barred (wf : WellFormed x) (e : Event) (barred : (x.users c).login.Barred)
    (noPass : NoPass cfg c x e) : ((step cfg x e).users c).login.Barred := by
  apply act_barred (advance_wellFormed wf e) e.action barred
  · intro nick named
    have taken := noPass.taken
    simp only [namesTaken, named] at taken
    exact Option.isSome_iff_ne_none.mp (by simpa using taken)
  · exact noPass.refused

theorem not_loggedIn_of_barred {l : Login} (barred : l.Barred) : l.state.isLoggedIn = false := by
  cases state : l.state <;>
    simp_all [Login.Barred, UserState.isPastLogin, UserState.isLoggedIn, UserState.toNat]

theorem reach_wellFormed (cfg : Config) (regs : RegManager) (es : List Event) :
    WellFormed (reach cfg regs es) :=
  run_invariant WellFormed (fun _ e wf => step_wellFormed wf e) es (start_wellFormed regs)

/-- What holds of a hub from the naming on. -/
structure BarredInv (c : UserId) (h : Hub) : Prop where
  wf : WellFormed h
  barred : (h.users c).login.Barred

/-- What holds of a hub from the naming on while the registrations stay. -/
structure ProfileInv (c : UserId) (profile : Int) (h : Hub) : Prop where
  wf : WellFormed h
  born : c < h.nextUser
  profile : (h.users c).profile = profile

theorem barredInv_of_named (wf : WellFormed x) (e : Event) {nick : Text}
    (named : namedNick cfg (x.advance e) e.action = some (c, nick)) : BarredInv c x where
  wf := wf
  barred := by
    have validate := validate_of_named named
    right; left
    exact Nat.le_of_eq (congrArg UserState.toNat validate)

theorem profileInv_of_named (wf : WellFormed x) (e : Event) {nick : Text}
    (named : namedNick cfg (x.advance e) e.action = some (c, nick)) :
    ProfileInv c (x.users c).profile x where
  wf := wf
  born := by
    have validate := validate_of_named named
    by_contra unborn
    have past : ((x.advance e).users c).state.isPastLogin = true :=
      (wf.unborn c (Nat.le_of_not_lt unborn)).1
    rw [validate] at past
    exact absurd past (by decide)
  profile := rfl

theorem step_barredInv (inv : BarredInv c x) (e : Event) (noPass : NoPass cfg c x e) :
    BarredInv c (step cfg x e) where
  wf := step_wellFormed inv.wf e
  barred := step_barred inv.wf e inv.barred noPass

theorem step_profileInv {profile : Int} (inv : ProfileInv c profile x) (e : Event)
    (refused : acceptedPass cfg (x.advance e) e.action ≠ some c) (stay : RegsStay cfg x e) :
    ProfileInv c profile (step cfg x e) := by
  have act := act_profile (advance_wellFormed inv.wf e) e.action inv.born stay refused
  exact ⟨step_wellFormed inv.wf e, act.2, act.1.trans inv.profile⟩

/-- Bob is registered. -/
def bobsRegs : RegManager :=
  .put .empty { sNick := ascii "Bob", profile := 2, passHash := false, passData := ascii "pass" }

/-- The naming of Bob, and what its user tries instead of the password. -/
def bobNames : Event := ⟨0, .command 0 (ascii "$MyINFO $ALL Bob x$ $56K$$0$|") {}⟩

def bobTries : List Event :=
  [⟨0, .command 0 (ascii "$Version 1,0091|") {}⟩,
    ⟨0, .command 0 (ascii "$MyINFO $ALL Bob x$ $56K$$1$|") {}⟩]

end

end Hub

end FlyHub.Session
