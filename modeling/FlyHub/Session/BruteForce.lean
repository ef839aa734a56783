import FlyHub.Session.Aside
import FlyHub.Session.BanGate
import FlyHub.Session.Lockout

/-!
# Three bad passwords

The hub counts the bad passwords of each address, and bans an address at its third. A right
password forgets the others.
-/

namespace FlyHub.Session

open FlyHub.Ban FlyHub.Lib

namespace Hub

/-! ## What leaves the counts alone -/

section
variable {cfg : Config} {h : Hub} {c : UserId}

theorem versionOrMyPass_bf {answers : Answers} {cmd : Text}
    (state : (h.users c).state = .versionOrMyPass)
    (uncompared : h.comparedPass (.command c cmd answers) = none) :
    (h.preProcessVersionOrMyPass cfg c answers cmd).passwdBfCheck = h.passwdBfCheck := by
  apply counts_of_aside
  cases isMyPass : isCommand cmd "$MyPass " with
  | false => exact versionOrMyPass_aside answers isMyPass
  | true =>
    unfold preProcessVersionOrMyPass
    split
    · simp
    split
    · simp
    split
    · simp
    unfold myPass
    simp only [comparedPass, state, isMyPass, decide_true, Bool.true_and] at uncompared
    split
    · simp
    · rename_i r reg
      rw [reg] at uncompared
      cases waiting : (h.users c).waitingForPass with
      | false => simp
      | true =>
        -- a password of this length would be compared
        have length : (cmd.length < 10 || 73 < cmd.length) = true := by
          simp only [waiting, Bool.true_and, Option.map_some] at uncompared
          split at uncompared
          · simp at uncompared
          · rename_i outside
            simp only [Bool.and_eq_true, decide_eq_true_eq, not_and, Nat.not_le] at outside
            simp only [Bool.or_eq_true, decide_eq_true_eq]
            omega
        simp [length]

/-- Without a password to compare the hub counts nothing. -/
theorem act_bf (a : Action) (uncompared : h.comparedPass a = none) :
    (h.act cfg a).passwdBfCheck = h.passwdBfCheck := by
  cases a with
  | command c cmd answers =>
    by_cases state : (h.users c).state = .versionOrMyPass
    · simp only [act, preProcessData, state]
      split
      · exact counts_of_aside close_aside
      · exact versionOrMyPass_bf state uncompared
    · exact (forgets_preProcessData answers cmd state).counts
  | reg op => exact execReg_counts op
  | _ => exact (forgets_loop _ (by simp) (by simp)).counts

end

/-! ## The counts -/

/-- The bad passwords the hub counts against an address. -/
def bfCount (h : Hub) (ip : IpHash) : Nat :=
  ((h.passwdBfCheck.find? fun p => p.ipHash = ip).map PassBf.iCount).getD 0

end Hub

/-- Each address is counted in one place, and no count goes beyond 2. -/
structure Counted (items : List PassBf) : Prop where
  nodup : (items.map PassBf.ipHash).Nodup
  low : ∀ p ∈ items, p.iCount ≤ 2

namespace Counted

variable {items : List PassBf} {ip ip' : IpHash}

theorem nil : Counted [] := ⟨List.nodup_nil, fun p member => by simp at member⟩

/-- The first bad password. -/
theorem add (counted : Counted items) (new : items.find? (fun p => p.ipHash = ip) = none) :
    Counted (⟨ip, 1⟩ :: items) where
  nodup := by
    rw [List.map_cons, List.nodup_cons]
    refine ⟨fun member => ?_, counted.nodup⟩
    obtain ⟨p, found, same⟩ := List.mem_map.mp member
    have differs := List.find?_eq_none.mp new p found
    exact differs (decide_eq_true same)
  low := by
    intro p member
    cases List.mem_cons.mp member with
    | inl first =>
      rw [first]
      exact Nat.le_succ 1
    | inr old => exact counted.low p old

theorem erase (counted : Counted items) (ip : IpHash) :
    Counted (items.eraseP fun p => p.ipHash = ip) where
  nodup := counted.nodup.sublist (List.eraseP_sublist.map _)
  low := fun p member => counted.low p (List.eraseP_subset member)

/-- One more bad password, after less than two. -/
theorem bump (counted : Counted items) {p : PassBf}
    (found : items.find? (fun q => q.ipHash = ip) = some p) (few : p.iCount ≠ 2) :
    Counted (items.map fun q => if q.ipHash = p.ipHash then ⟨q.ipHash, q.iCount + 1⟩ else q) where
  nodup := by
    have same : (items.map fun q =>
        if q.ipHash = p.ipHash then (⟨q.ipHash, q.iCount + 1⟩ : PassBf) else q).map PassBf.ipHash =
          items.map PassBf.ipHash := by
      rw [List.map_map]
      apply List.map_congr_left
      intro q _
      simp only [Function.comp_apply]
      split <;> rfl
    rw [same]
    exact counted.nodup
  low := by
    intro q member
    obtain ⟨old, oldMember, rfl⟩ := List.mem_map.mp member
    have low := counted.low old oldMember
    split
    · rename_i same
      -- the entry of the address is the one that was found
      have entry : old = p :=
        List.inj_on_of_nodup_map counted.nodup oldMember (List.mem_of_find?_eq_some found) same
      rw [← entry] at few
      show old.iCount + 1 ≤ 2
      omega
    · exact low

/-- What is forgotten is not found any more. -/
theorem find_erase (counted : Counted items) (ip ip' : IpHash) :
    (items.eraseP fun p => p.ipHash = ip).find? (fun p => p.ipHash = ip') =
      if ip' = ip then none else items.find? fun p => p.ipHash = ip' := by
  have nodup := counted.nodup
  clear counted
  induction items with
  | nil => simp
  | cons p items ih =>
    rw [List.map_cons, List.nodup_cons] at nodup
    by_cases this : p.ipHash = ip
    · simp only [List.eraseP_cons, this, decide_true, cond_true]
      split
      · rename_i same
        apply List.find?_eq_none.mpr
        intro q member
        rw [decide_eq_true_eq]
        intro again
        refine nodup.1 (List.mem_map.mpr ⟨q, member, ?_⟩)
        rw [again, same, this]
      · rename_i other
        rw [List.find?_cons_of_neg]
        rw [decide_eq_true_eq, this]
        exact Ne.symm other
    · simp only [List.eraseP_cons, this, decide_false, cond_false]
      rw [List.find?_cons, List.find?_cons, ih nodup.2]
      by_cases first : p.ipHash = ip'
      · have other : ip' ≠ ip := fun same => this (first.trans same)
        simp [first, other]
      · simp [first]

end Counted

namespace Hub

section
variable {cfg : Config} {x : Hub} {a : Action} {c : UserId} {ip : IpHash} {r : RegUser}
  {pass : Text}

/-- What the hub does about a right password. -/
theorem act_goodPass (compared : PassCompared x a c r pass)
    (right : r.passMatches cfg pass = true) :
    x.act cfg a = (x.modify c fun u => { u with waitingForPass := false }).goodPass cfg c r := by
  obtain ⟨cmd, answers, rfl, isMyPass, long, short, rfl⟩ := compared.command
  have version : isCommand cmd "$Version " = false := not_isCommand isMyPass (by decide)
  have getNickList : isCommand cmd "$GetNickList" = false := not_isCommand isMyPass (by decide)
  have nickList : isGetNickList cmd = false := by simp [isGetNickList, getNickList]
  have myInfo : isCommand cmd "$MyINFO $ALL " = false := not_isCommand isMyPass (by decide)
  have length : ¬ cmd.length < 5 := by omega
  simp only [act, preProcessData, compared.state, length, if_false, preProcessVersionOrMyPass,
    version, nickList, myInfo, isMyPass, myPass, compared.reg, compared.waiting]
  simp [right, Nat.not_lt.mpr long, Nat.not_lt.mpr short]

/-- A right password takes the address off the list. -/
theorem act_goodPass_bf (compared : PassCompared x a c r pass)
    (right : r.passMatches cfg pass = true) :
    (x.act cfg a).passwdBfCheck =
      x.passwdBfCheck.eraseP fun p => p.ipHash = (x.users c).ipHash := by
  rw [act_goodPass compared right, goodPass]
  rw [counts_of_aside (welcome_aside.trans takeNick_aside)]
  simp [removePassBf, setPasswdBf, setReg, modify]

/-- What a bad password leaves behind for the address of the user: one more on the list, or
a full ban. -/
structure Noted (x y : Hub) (ip : IpHash) : Prop where
  counted : Counted y.passwdBfCheck
  others : ∀ ip', ip' ≠ ip → y.bfCount ip' = x.bfCount ip'
  own : y.bans.Banned y.clock (.ip ip true) ∨ y.bfCount ip = x.bfCount ip + 1

/-- What comes after it is nothing to the list and the bans. -/
theorem Noted.of_same {y z : Hub} (noted : Noted x y ip) (items : z.passwdBfCheck = y.passwdBfCheck)
    (bans : z.bans = y.bans) (clock : z.clock = y.clock) : Noted x z ip where
  counted := by
    rw [items]
    exact noted.counted
  others := by
    unfold bfCount
    rw [items]
    exact noted.others
  own := by
    unfold bfCount
    rw [items, bans, clock]
    exact noted.own

theorem closeWith_clock (bNoQuit : Bool) : (x.closeWith cfg c bNoQuit).clock = x.clock := by
  cases past : (x.users c).state.isPastLogin with
  | true => rw [closeWith_pastLogin past]; rfl
  | false => rw [closeWith_eq past]

theorem Noted.close {y : Hub} (noted : Noted x y ip) : Noted x (y.close cfg c) ip :=
  noted.of_same (counts_of_aside close_aside) (closeWith_bans false) (closeWith_clock false)

theorem Noted.send {y : Hub} (noted : Noted x y ip) (msg : Msg) : Noted x (y.send c msg) ip :=
  noted.of_same rfl rfl rfl

theorem Noted.tellBadPass {y : Hub} (noted : Noted x y ip) : Noted x (y.tellBadPass cfg c) ip :=
  ((noted.send .badPass).send (.notice .incorrectPassword)).close

theorem bfCount_eq {items : List PassBf} (eq : x.passwdBfCheck = items) (ip : IpHash) :
    x.bfCount ip = ((items.find? fun p => p.ipHash = ip).map PassBf.iCount).getD 0 := by
  rw [bfCount, eq]

theorem Noted.of_kept {y : Hub} (counted : Counted x.passwdBfCheck)
    (eq : y.passwdBfCheck = x.passwdBfCheck) (banned : y.bans.Banned y.clock (.ip ip true)) :
    Noted x y ip where
  counted := by
    rw [eq]
    exact counted
  others ip' _ := bfCount_eq eq ip'
  own := .inl banned

theorem Noted.of_erase {y : Hub} (counted : Counted x.passwdBfCheck)
    (eq : y.passwdBfCheck = x.passwdBfCheck.eraseP fun p => p.ipHash = ip)
    (banned : y.bans.Banned y.clock (.ip ip true)) : Noted x y ip where
  counted := by
    rw [eq]
    exact counted.erase ip
  others ip' other := by
    rw [bfCount_eq eq, counted.find_erase, if_neg other]
    rfl
  own := .inl banned

theorem Noted.of_add {y : Hub} (counted : Counted x.passwdBfCheck)
    (new : x.passwdBfCheck.find? (fun p => p.ipHash = ip) = none)
    (eq : y.passwdBfCheck = ⟨ip, 1⟩ :: x.passwdBfCheck) : Noted x y ip where
  counted := by
    rw [eq]
    exact counted.add new
  others ip' other := by
    rw [bfCount_eq eq, List.find?_cons_of_neg]
    · rfl
    · rw [decide_eq_true_eq]
      exact Ne.symm other
  own := by
    right
    rw [bfCount_eq eq, bfCount, new, List.find?_cons_of_pos]
    · rfl
    · exact decide_eq_true rfl

theorem Noted.of_bump {y : Hub} (counted : Counted x.passwdBfCheck) {p : PassBf}
    (entry : x.passwdBfCheck.find? (fun q => q.ipHash = ip) = some p) (few : p.iCount ≠ 2)
    (eq : y.passwdBfCheck = x.passwdBfCheck.map fun q =>
      if q.ipHash = p.ipHash then ⟨q.ipHash, q.iCount + 1⟩ else q) : Noted x y ip := by
  have own : p.ipHash = ip := of_decide_eq_true (List.find?_some entry :)
  -- the entries keep their addresses
  have kept (ip' : IpHash) :
      (fun q : PassBf => decide (q.ipHash = ip')) ∘ (fun q =>
        if q.ipHash = p.ipHash then (⟨q.ipHash, q.iCount + 1⟩ : PassBf) else q) =
      fun q => decide (q.ipHash = ip') := by
    funext q
    simp only [Function.comp_apply]
    split <;> rfl
  constructor
  · rw [eq]
    exact counted.bump entry few
  · intro ip' other
    rw [bfCount_eq eq, bfCount, List.find?_map, kept]
    cases at_ : x.passwdBfCheck.find? (fun q => q.ipHash = ip') with
    | none => rfl
    | some q =>
      have key : q.ipHash = ip' := of_decide_eq_true (List.find?_some at_ :)
      have differs : q.ipHash ≠ p.ipHash := by
        rw [key, own]
        exact other
      simp [differs]
  · right
    rw [bfCount_eq eq, bfCount, List.find?_map, kept, entry]
    simp

/-- The third bad password bans the address. -/
theorem noted_banBruteForce (inv : x.bans.Inv) (counted : Counted x.passwdBfCheck)
    (lasts : cfg.bruteForceBanType ≠ 1 → x.clock <
      expireTime x.clock (cfg.bruteForceTempBanTime * 60) 0 cfg.ban.defaultTempBanTime) :
    Noted x (x.banBruteForce cfg c) (x.users c).ipHash := by
  obtain ⟨rs, swept, -⟩ :=
    BanManager.findIpBanGeneric_spec inv (x.users c).ipHash x.clock BanItem.full
  have inv' : (x.bans.findFull (x.users c).ipHash x.clock).1.Inv := (swept.spec inv).1
  unfold banBruteForce
  dsimp only
  split
  · rename_i b found
    obtain ⟨found, full⟩ := Option.filter_eq_some_iff.mp found
    apply Noted.send
    refine .of_kept counted rfl (BanManager.findFull_banned inv found ?_)
    rw [← (BanManager.findFull_keeps x.clock (x.users c).ipHash inv).1]
    exact full
  · apply Noted.send
    apply Noted.of_erase counted rfl
    simp only [removePassBf, setPasswdBf, setBans]
    split
    · exact BanManager.banIp_bans cfg.ban inv' _ _ _ _
    · rename_i temporary
      exact BanManager.tempBanIp_bans cfg.ban inv' _ _ _ _ (lasts temporary)

/-- The hub notes every bad password. -/
theorem noted_badPass (inv : x.bans.Inv) (counted : Counted x.passwdBfCheck)
    (on : cfg.bruteForceBanType ≠ 0)
    (lasts : cfg.bruteForceBanType ≠ 1 → x.clock <
      expireTime x.clock (cfg.bruteForceTempBanTime * 60) 0 cfg.ban.defaultTempBanTime) :
    Noted x (x.badPass cfg c r) (x.users c).ipHash := by
  unfold badPass
  dsimp only
  rw [if_neg on]
  split
  · rename_i new
    exact (Noted.of_add counted new rfl).tellBadPass
  · rename_i p entry
    split
    · have noted : Noted (x.setReg (r.noteBadPass cfg x.clock)) _ (x.users c).ipHash :=
        noted_banBruteForce (c := c) inv counted lasts
      exact Noted.close ⟨noted.counted, noted.others, noted.own⟩
    · rename_i few
      exact (Noted.of_bump counted entry few rfl).tellBadPass

/-! ## Whole runs -/

/-- A comparison with a password, and the hub after it. -/
structure Guess where
  right : Bool
  after : Hub

/-- A wrong guess that leaves its address without a full ban. -/
def Guess.Missed (ip : IpHash) (g : Guess) : Prop :=
  g.right = false ∧ ¬ g.after.bans.Banned g.after.clock (.ip ip true)

/-- The guess that the action makes from the address. -/
def guess (cfg : Config) (ip : IpHash) (h : Hub) (a : Action) : Option Guess :=
  match h.comparedPass a with
  | some (c, r, pass) =>
    if (h.users c).ipHash = ip then some ⟨r.passMatches cfg pass, h.act cfg a⟩ else none
  | none => none

/-- All guesses from the address in a run. -/
def guesses (cfg : Config) (ip : IpHash) (h : Hub) (es : List Event) : List Guess :=
  trace (step cfg) (fun h e => (h.advance e).guess cfg ip e.action) h es

/-- The hub bans for bad passwords, and for a time that does not end at once. -/
structure BansGuessers (cfg : Config) : Prop where
  on : cfg.bruteForceBanType ≠ 0
  lasts : cfg.bruteForceBanType = 1 ∨
    0 < cfg.bruteForceTempBanTime.toNat ∧ cfg.bruteForceTempBanTime.toNat ≤ 999

theorem BansGuessers.expire (bans : BansGuessers cfg) (temporary : cfg.bruteForceBanType ≠ 1)
    (now default : Int) : now < expireTime now (cfg.bruteForceTempBanTime * 60) 0 default := by
  obtain ⟨some_, few⟩ := bans.lasts.resolve_left temporary
  have minutes : (cfg.bruteForceTempBanTime * 60).toNat = cfg.bruteForceTempBanTime.toNat * 60 := by
    rw [UInt32.toNat_mul]
    exact Nat.mod_eq_of_lt (by simp; omega)
  have seconds : (cfg.bruteForceTempBanTime * 60 * 60).toNat =
      cfg.bruteForceTempBanTime.toNat * 60 * 60 := by
    rw [UInt32.toNat_mul, minutes]
    exact Nat.mod_eq_of_lt (by simp; omega)
  have positive : (0 : UInt32) < cfg.bruteForceTempBanTime * 60 := by
    rw [UInt32.lt_iff_toNat_lt, minutes]
    simp
    omega
  rw [expireTime, if_neg (by decide), if_pos positive, seconds]
  omega

/-- What holds of a hub after the guesses from the address. -/
structure GuessInv (cfg : Config) (ip : IpHash) (h : Hub) (made : List Guess) : Prop where
  reached : BansReached cfg h
  counted : Counted h.passwdBfCheck
  trailing : ∀ before tail, made = before ++ tail → (∀ g ∈ tail, g.Missed ip) →
    tail.length ≤ h.bfCount ip
  out : ∀ before tail after, made = before ++ tail ++ after → (∀ g ∈ tail, g.Missed ip) →
    tail.length ≤ 2

theorem bfCount_le (counted : Counted x.passwdBfCheck) (ip : IpHash) : x.bfCount ip ≤ 2 := by
  unfold bfCount
  cases found : x.passwdBfCheck.find? (fun p => p.ipHash = ip) with
  | none => exact Nat.zero_le 2
  | some p => exact counted.low p (List.mem_of_find?_eq_some found)

theorem guess_some {g : Guess} (made : x.guess cfg ip a = some g) :
    ∃ c r pass, PassCompared x a c r pass ∧ (x.users c).ipHash = ip ∧
      g = ⟨r.passMatches cfg pass, x.act cfg a⟩ := by
  unfold guess at made
  cases compared : x.comparedPass a with
  | none => simp [compared] at made
  | some found =>
    obtain ⟨c, r, pass⟩ := found
    simp only [compared] at made
    split at made
    · rename_i own
      exact ⟨c, r, pass, comparedPass_iff.mp compared, own, (Option.some.inj made).symm⟩
    · simp at made

variable (ip) in
/-- What an action does to the counts: nothing, unless it compares a password. -/
theorem act_counts (bans : BansGuessers cfg) (reached : BansReached cfg x)
    (counted : Counted x.passwdBfCheck) (a : Action) :
    Counted (x.act cfg a).passwdBfCheck ∧
      match x.guess cfg ip a with
      | none => (x.act cfg a).bfCount ip = x.bfCount ip
      | some g => g.Missed ip → (x.act cfg a).bfCount ip = x.bfCount ip + 1 := by
  cases compared : x.comparedPass a with
  | none =>
    have same : (x.act cfg a).passwdBfCheck = x.passwdBfCheck := act_bf a compared
    have none_ : x.guess cfg ip a = none := by simp [guess, compared]
    rw [none_, same]
    exact ⟨counted, bfCount_eq same ip⟩
  | some found =>
    obtain ⟨c, r, pass⟩ := found
    have compared' := comparedPass_iff.mp compared
    have made : x.guess cfg ip a =
        if (x.users c).ipHash = ip then some ⟨r.passMatches cfg pass, x.act cfg a⟩ else none := by
      simp [guess, compared]
    cases right : r.passMatches cfg pass with
    | true =>
      have erased := act_goodPass_bf compared' right
      refine ⟨by rw [erased]; exact counted.erase _, ?_⟩
      rw [made]
      split
      · rename_i g none_
        split at none_
        · simp at none_
        · rename_i other
          rw [bfCount_eq erased, counted.find_erase, if_neg (Ne.symm other)]
          rfl
      · rename_i g some_
        split at some_
        · intro missed
          rw [← Option.some.inj some_, Guess.Missed, right] at missed
          simp at missed
        · simp at some_
    | false =>
      let x' := x.modify c fun u => { u with waitingForPass := false }
      have here : x'.users c = { x.users c with waitingForPass := false } := modify_self
      have noted : Noted x' (x'.badPass cfg c r) (x'.users c).ipHash :=
        noted_badPass reached.inv counted bans.on fun temporary => bans.expire temporary _ _
      rw [here, ← act_badPass compared' right] at noted
      refine ⟨noted.counted, ?_⟩
      rw [made]
      split
      · rename_i g none_
        split at none_
        · simp at none_
        · rename_i other
          exact noted.others ip (Ne.symm other)
      · rename_i g some_
        split at some_
        · rename_i own
          intro missed
          rw [← Option.some.inj some_] at missed
          rw [← own]
          exact noted.own.resolve_left (own ▸ missed.2)
        · simp at some_

/-- The guesses that a count has not forgotten are the last ones in a row. -/
theorem GuessInv.trailing_step {made : List Guess} (inv : GuessInv cfg ip x made) (a : Action)
    (bans : BansGuessers cfg) {before tail : List Guess}
    (eq : made ++ (x.guess cfg ip a).toList = before ++ tail) (missed : ∀ g ∈ tail, g.Missed ip) :
    tail.length ≤ (x.act cfg a).bfCount ip := by
  have counts := (act_counts ip bans inv.reached inv.counted a).2
  cases made_ : x.guess cfg ip a with
  | none =>
    rw [made_] at counts eq
    rw [Option.toList_none, List.append_nil] at eq
    exact counts ▸ inv.trailing before tail eq missed
  | some g =>
    rw [made_] at counts eq
    cases List.eq_nil_or_concat tail with
    | inl nil =>
      rw [nil]
      exact Nat.zero_le _
    | inr concat =>
      obtain ⟨tail', last, rfl⟩ := concat
      rw [List.concat_eq_append] at missed eq ⊢
      rw [Option.toList_some, ← List.append_assoc] at eq
      obtain ⟨earlier, single⟩ := List.append_inj' eq rfl
      have final : last = g := (List.cons.inj single).1.symm
      have misses : g.Missed ip := missed g (by simp [final])
      have shorter : tail'.length ≤ x.bfCount ip :=
        inv.trailing before tail' earlier fun g' member => missed g' (by simp [member])
      rw [counts misses, List.length_append]
      exact Nat.succ_le_succ shorter

theorem GuessInv.act {made : List Guess} (inv : GuessInv cfg ip x made) (a : Action)
    (bans : BansGuessers cfg) (reached : BansReached cfg (x.act cfg a)) :
    GuessInv cfg ip (x.act cfg a) (made ++ (x.guess cfg ip a).toList) where
  reached := reached
  counted := (act_counts ip bans inv.reached inv.counted a).1
  trailing _ _ eq missed := inv.trailing_step a bans eq missed
  out := by
    intro before tail after eq missed
    cases List.eq_nil_or_concat after with
    | inl nil =>
      rw [nil, List.append_nil] at eq
      have low := bfCount_le (act_counts ip bans inv.reached inv.counted a).1 ip
      exact Nat.le_trans (inv.trailing_step a bans eq missed) low
    | inr concat =>
      obtain ⟨after', last, rfl⟩ := concat
      cases made_ : x.guess cfg ip a with
      | none =>
        rw [made_, Option.toList_none, List.append_nil] at eq
        exact inv.out before tail _ eq missed
      | some g =>
        rw [made_, Option.toList_some, List.concat_eq_append, ← List.append_assoc] at eq
        exact inv.out before tail after' (List.append_inj' eq rfl).1 missed

theorem step_guessInv {made : List Guess} (inv : GuessInv cfg ip x made) (e : Event)
    (bans : BansGuessers cfg) :
    GuessInv cfg ip (step cfg x e) (made ++ ((x.advance e).guess cfg ip e.action).toList) := by
  have now : GuessInv cfg ip (x.advance e) made :=
    ⟨⟨advance_wellFormed inv.reached.wf e, inv.reached.bans⟩, inv.counted, inv.trailing, inv.out⟩
  exact now.act e.action bans (step_bansReached inv.reached e)

theorem start_guessInv (regs : RegManager) : GuessInv cfg ip (start cfg regs) [] where
  reached := ⟨start_wellFormed regs, [], rfl⟩
  counted := .nil
  trailing before tail eq _ := by simp [(List.append_eq_nil_iff.mp eq.symm).2]
  out before tail after eq _ := by
    have nil := (List.append_eq_nil_iff.mp eq.symm).1
    simp [(List.append_eq_nil_iff.mp nil).2]

/-- The plain hub with bans for bad passwords. -/
def strict : Config := { Config.plain with bruteForceBanType := 1 }

/-- A connection that gives a wrong password for Bob. -/
def guessesBob (c : UserId) : List Event :=
  arrival c (ascii "$Supports QuickList|") ++
    [⟨0, .command c (ascii "$MyINFO $ALL Bob x$ $56K$$0$|") {}⟩,
      ⟨0, .command c (ascii "$MyPass word|") {}⟩]

end

end Hub

end FlyHub.Session
