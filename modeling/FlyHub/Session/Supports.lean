import FlyHub.Lib.GuardedUpdates
import FlyHub.Session.Login

/-!
# The features a client supports

A `$Supports` names features in any order. Each token sets the bits of its feature, and
`ZPipe` and `ZPipe0` count in the statistics, unless a bit that is looked at first is set
already.
-/

namespace FlyHub.Session

open FlyHub.Lib

/-- The bits of `m_ui32SupportBits`, `BIT_PINGER` and `m_is_json_user`. -/
inductive SupportBit where
  | noGetInfo
  | userCommand
  | noHello
  | quickList
  | userIp2
  | zPipe
  | ip64
  | ipv4
  | tls2
  | zPipe0
  | hubUrl
  | pinger
  | jsonUser
  deriving DecidableEq, Repr

inductive Feature where
  | noHello
  | noGetInfo
  | quickList
  | hubUrl
  | userCommand
  | userIp2
  | botInfo
  | zPipe0
  | zPipe
  | ip64
  | ipv4
  | tls2
  | extJson2
  deriving DecidableEq, Repr

namespace Feature

def all : List Feature :=
  [noHello, noGetInfo, quickList, hubUrl, userCommand, userIp2, botInfo, zPipe0, zPipe, ip64, ipv4,
    tls2, extJson2]

def token : Feature → Text
  | noHello => ascii "NoHello"
  | noGetInfo => ascii "NoGetINFO"
  | quickList => ascii "QuickList"
  | hubUrl => ascii "HubURL"
  | userCommand => ascii "UserCommand"
  | userIp2 => ascii "UserIP2"
  | botInfo => ascii "BotINFO"
  | zPipe0 => ascii "ZPipe0"
  | zPipe => ascii "ZPipe"
  | ip64 => ascii "IP64"
  | ipv4 => ascii "IPv4"
  | tls2 => ascii "TLS2"
  | extJson2 => ascii "ExtJSON2"

/-- The bit that is looked at before the token is. -/
def guard : Feature → SupportBit
  | noHello => .noHello
  | noGetInfo => .noGetInfo
  | quickList => .quickList
  | hubUrl => .hubUrl
  | userCommand => .userCommand
  | userIp2 => .userIp2
  | botInfo => .pinger
  | zPipe0 | zPipe => .zPipe
  | ip64 => .ip64
  | ipv4 => .ipv4
  | tls2 => .tls2
  | extJson2 => .jsonUser

/-- A quick list is a `NoHello` too. -/
def sets : Feature → List SupportBit
  | quickList => [.quickList, .noHello]
  | zPipe0 => [.zPipe0, .zPipe]
  | f => [f.guard]

/-- The switch on the first letter and the length of a token. -/
def find (token : Text) : Option Feature := all.find? fun f => f.token = token

end Feature

theorem Feature.guard_mem_sets (f : Feature) : f.guard ∈ f.sets := by cases f <;> decide

def features : GuardedUpdates Feature SupportBit :=
  ⟨Feature.guard, Feature.sets, Feature.guard_mem_sets⟩

/-- What `Supports` reads and writes of a user, and `m_ui32StatZPipe`. -/
structure Supporter where
  haveSupports : Bool
  quackSupports : Bool
  bits : SupportBit → Bool
  closed : Bool
  validate : Bool
  statZPipe : UInt32

/-- What the hub is set to, and what the scripts leave of the user. -/
structure SupportsConfig where
  noQuackSupports : Bool
  dontAllowPingers : Bool
  pastLogin : Bool

namespace Supporter

variable (cfg : SupportsConfig) (u : Supporter)

def close : Supporter := { u with closed := true }

def feature (f : Feature) : Supporter :=
  { u with
    bits := features.apply u.bits f
    statZPipe := if f.guard = .zPipe && !u.bits .zPipe then u.statZPipe + 1 else u.statZPipe }

/-- `BotINFO` where pingers are not allowed. -/
def refused (f : Feature) : Bool := f = .botInfo && !u.bits .pinger && cfg.dontAllowPingers

/-- One token. False if the user has been closed. -/
def supportToken (token : Text) : Supporter × Bool :=
  if token = [] then (u.close, false)
  else
    match Feature.find token with
    | none => (u, true)
    | some f => if u.refused cfg f then (u.close, false) else (u.feature f, true)

def supportLoop : List Text → Supporter → Supporter
  | [], u => { u with validate := true }
  | token :: tokens, u =>
    let next := u.supportToken cfg token
    if next.2 then supportLoop tokens next.1 else next.1

def supports (cmd : Text) : Supporter :=
  if u.haveSupports then u.close
  else
    let u := { u with haveSupports := true }
    if cmd.length < 13 then u.close
    else
      let quack := cmd[cmd.length - 2]? = some 32
      let u := if quack ∧ !cfg.noQuackSupports then { u with quackSupports := true } else u
      if quack ∧ cfg.noQuackSupports then u.close
      else if cfg.pastLogin then u
      else supportLoop cfg (supportTokens ((cmd.drop 10).take (cmd.length - 11))) u

end Supporter

/-- A list of feature tokens. -/
structure FeatureList where
  tokens : List Text
  some_ : ∀ t ∈ tokens, t ≠ []
  noBlank : ∀ t ∈ tokens, 32 ∉ t

namespace FeatureList

/-- The `$Supports` with the tokens. -/
def command (l : FeatureList) : Text :=
  ascii "$Supports " ++ List.intercalate [32] l.tokens ++ [124]

/-- The second list has the tokens of the first in some order, some of them repeated. -/
def Rearranged (l l' : FeatureList) : Prop :=
  ∃ more, more ⊆ l.tokens ∧ l'.tokens.Perm (l.tokens ++ more)

end FeatureList

namespace Supporter

/-- However the tokens are arranged, the bits and the statistics come out the same. -/
def OrderFree (cfg : SupportsConfig) (u : Supporter) (l : FeatureList) : Prop :=
  ∀ l', l.Rearranged l' →
    (u.supports cfg l'.command).bits = (u.supports cfg l.command).bits ∧
      (u.supports cfg l'.command).statZPipe = (u.supports cfg l.command).statZPipe

/-- A token will close the user. -/
def Closes (cfg : SupportsConfig) (u : Supporter) (tokens : List Text) : Prop :=
  cfg.dontAllowPingers = true ∧ u.bits .pinger = false ∧ Feature.botInfo.token ∈ tokens

end Supporter

section
variable {cfg : SupportsConfig} {u : Supporter} {token : Text} {tokens : List Text} {f : Feature}

theorem Feature.find_token (f : Feature) : Feature.find f.token = some f := by
  cases f <;> decide +kernel

theorem Feature.token_of_find (found : Feature.find token = some f) : f.token = token := by
  have same := List.find?_some found
  simpa using same

theorem Feature.four_le (f : Feature) : 4 ≤ f.token.length := by cases f <;> decide

/-! ## The tokens of the command -/

theorem supportTokens_word (some_ : token ≠ []) (noBlank : 32 ∉ token) :
    supportTokens token = [token] := by
  induction token with
  | nil => exact absurd rfl some_
  | cons c token ih =>
    rw [List.mem_cons, not_or] at noBlank
    rw [supportTokens, if_neg (Ne.symm noBlank.1)]
    cases token with
    | nil => rfl
    | cons d token => rw [ih (List.cons_ne_nil _ _) noBlank.2]

theorem supportTokens_blank (noBlank : 32 ∉ token) (rest : Text) :
    supportTokens (token ++ 32 :: rest) = token :: supportTokens rest := by
  induction token with
  | nil => rw [List.nil_append, supportTokens, if_pos rfl]
  | cons c token ih =>
    rw [List.mem_cons, not_or] at noBlank
    rw [List.cons_append, supportTokens, if_neg (Ne.symm noBlank.1), ih noBlank.2]

theorem intercalate_singleton : List.intercalate [32] [token] = token := by
  simp [List.intercalate]

theorem intercalate_cons_cons (next : Text) :
    List.intercalate [32] (token :: next :: tokens) =
      token ++ 32 :: List.intercalate [32] (next :: tokens) := by
  simp [List.intercalate]

theorem supportTokens_intercalate (some_ : ∀ t ∈ tokens, t ≠ []) (noBlank : ∀ t ∈ tokens, 32 ∉ t) :
    supportTokens (List.intercalate [32] tokens) = tokens := by
  induction tokens with
  | nil => rfl
  | cons token tokens ih =>
    rw [List.forall_mem_cons] at some_ noBlank
    cases tokens with
    | nil => rw [intercalate_singleton, supportTokens_word some_.1 noBlank.1]
    | cons next tokens =>
      rw [intercalate_cons_cons, supportTokens_blank noBlank.1, ih some_.2 noBlank.2]

theorem length_le_intercalate (mem : token ∈ tokens) :
    token.length ≤ (List.intercalate [32] tokens).length := by
  induction tokens with
  | nil => exact absurd mem List.not_mem_nil
  | cons first tokens ih =>
    cases tokens with
    | nil =>
      rw [List.mem_singleton.mp mem, intercalate_singleton]
    | cons next tokens =>
      rw [intercalate_cons_cons, List.length_append, List.length_cons]
      rcases List.mem_cons.mp mem with rfl | later
      · omega
      · have le := ih later
        omega

/-- The last token is followed by no blank. -/
theorem intercalate_getLast (some_ : ∀ t ∈ tokens, t ≠ []) (noBlank : ∀ t ∈ tokens, 32 ∉ t) :
    (List.intercalate [32] tokens).getLast? ≠ some 32 := by
  induction tokens with
  | nil => simp [List.intercalate]
  | cons token tokens ih =>
    rw [List.forall_mem_cons] at some_ noBlank
    cases tokens with
    | nil =>
      rw [intercalate_singleton]
      exact fun last => noBlank.1 (List.mem_of_getLast? last)
    | cons next tokens =>
      have later := ih some_.2 noBlank.2
      have mem : next ∈ next :: tokens := List.mem_cons_self
      have long := length_le_intercalate mem
      have word := List.length_pos_iff.mpr (some_.2 next List.mem_cons_self)
      rw [intercalate_cons_cons, List.getLast?_append_of_ne_nil _ (List.cons_ne_nil _ _),
        List.getLast?_cons_of_ne_nil]
      · exact later
      · exact List.length_pos_iff.mp (by omega)

/-! ## The loop -/

theorem Feature.guard_of_zPipe (mem : SupportBit.zPipe ∈ f.sets) : f.guard = .zPipe := by
  cases f <;> first | rfl | exact absurd mem (by decide)

namespace Supporter

theorem feature_of_set (isSet : u.bits f.guard = true) : u.feature f = u := by
  have same : features.apply u.bits f = u.bits := GuardedUpdates.apply_of_set isSet
  have uncounted : (f.guard = .zPipe && !u.bits .zPipe) = false := by
    cases counted : (f.guard = .zPipe && !u.bits .zPipe : Bool) with
    | false => rfl
    | true =>
      rw [Bool.and_eq_true, decide_eq_true_eq, Bool.not_eq_true'] at counted
      rw [counted.1, counted.2] at isSet
      cases isSet
  rw [feature, same, uncounted]
  rfl

/-- The statistic counts who gets the bit. -/
theorem feature_stat {final : Bool} (keeps : (u.feature f).bits .zPipe = true → final = true) :
    (if !(u.feature f).bits .zPipe && final then (u.feature f).statZPipe + 1
      else (u.feature f).statZPipe) =
      if !u.bits .zPipe && final then u.statZPipe + 1 else u.statZPipe := by
  cases old : u.bits .zPipe with
  | true =>
    have new : (u.feature f).bits .zPipe = true := GuardedUpdates.apply_mono old
    rw [new]
    simp [feature, old]
  | false =>
    by_cases guards : f.guard = .zPipe
    · have new : (u.feature f).bits .zPipe = true := by
        rw [← guards]
        exact GuardedUpdates.apply_guard
      rw [keeps new, new]
      simp [feature, guards, old]
    · have new : (u.feature f).bits .zPipe = false := by
        rw [← Bool.not_eq_true]
        intro isSet
        rcases GuardedUpdates.apply_iff.mp isSet with isSet | ⟨-, mem⟩
        · exact absurd (old.symm.trans isSet) Bool.false_ne_true
        · exact guards (Feature.guard_of_zPipe mem)
      rw [new]
      simp [feature, guards]

theorem supportLoop_cons (some_ : token ≠ []) : supportLoop cfg (token :: tokens) u =
    match Feature.find token with
    | none => supportLoop cfg tokens u
    | some f => if u.refused cfg f then u.close else supportLoop cfg tokens (u.feature f) := by
  rw [supportLoop, supportToken, if_neg some_]
  cases Feature.find token with
  | none => rfl
  | some f =>
    dsimp only
    by_cases refused : u.refused cfg f = true <;> simp [refused]

theorem not_refused (open_ : ¬ u.Closes cfg tokens) (mem : f.token ∈ tokens) :
    u.refused cfg f = false := by
  cases refused : u.refused cfg f with
  | false => rfl
  | true =>
    rw [Supporter.refused, Bool.and_eq_true, Bool.and_eq_true, decide_eq_true_eq,
      Bool.not_eq_true'] at refused
    obtain ⟨⟨rfl, new⟩, closed⟩ := refused
    exact absurd ⟨closed, new, mem⟩ open_

/-- Where no token closes the user, all of them are applied. -/
theorem supportLoop_open (some_ : ∀ t ∈ tokens, t ≠ []) (open_ : ¬ u.Closes cfg tokens) :
    (supportLoop cfg tokens u).bits = features.applyAll u.bits (tokens.filterMap Feature.find) ∧
      (supportLoop cfg tokens u).statZPipe =
        if !u.bits .zPipe && features.applyAll u.bits (tokens.filterMap Feature.find) .zPipe then
          u.statZPipe + 1
        else u.statZPipe := by
  induction tokens generalizing u with
  | nil =>
    refine ⟨rfl, ?_⟩
    have same : (!u.bits .zPipe && features.applyAll u.bits [] .zPipe) = false := by
      rw [GuardedUpdates.applyAll, List.foldl_nil, Bool.not_and_self]
    rw [List.filterMap_nil, same]
    rfl
  | cons token tokens ih =>
    rw [List.forall_mem_cons] at some_
    rw [supportLoop_cons some_.1]
    cases found : Feature.find token with
    | none =>
      rw [List.filterMap_cons_none found]
      refine ih some_.2 fun closes => open_ ?_
      exact ⟨closes.1, closes.2.1, List.mem_cons_of_mem _ closes.2.2⟩
    | some f =>
      have mem : f.token ∈ token :: tokens := by
        rw [Feature.token_of_find found]
        exact List.mem_cons_self
      have stays : ¬ (u.feature f).Closes cfg tokens := by
        rintro ⟨closed, new, later⟩
        refine open_ ⟨closed, ?_, List.mem_cons_of_mem _ later⟩
        rw [← Bool.not_eq_true] at new ⊢
        exact fun isSet => new (GuardedUpdates.apply_mono isSet)
      obtain ⟨bits, stat⟩ := ih some_.2 stays
      have refused := not_refused open_ mem
      have rest : features.applyAll u.bits ((token :: tokens).filterMap Feature.find) =
          features.applyAll (u.feature f).bits (tokens.filterMap Feature.find) := by
        rw [List.filterMap_cons_some found]
        rfl
      dsimp only
      rw [refused, rest, if_neg Bool.false_ne_true]
      refine ⟨bits, stat.trans ?_⟩
      exact feature_stat fun isSet => GuardedUpdates.applyAll_mono isSet

theorem supportLoop_mono {b : SupportBit} (isSet : u.bits b = true) :
    (supportLoop cfg tokens u).bits b = true := by
  induction tokens generalizing u with
  | nil => exact isSet
  | cons token tokens ih =>
    by_cases some_ : token = []
    · rw [supportLoop, supportToken, if_pos some_]
      exact isSet
    · rw [supportLoop_cons some_]
      cases Feature.find token with
      | none => exact ih isSet
      | some f =>
        dsimp only
        split
        · exact isSet
        · exact ih (GuardedUpdates.apply_mono isSet)

/-- A user that is closed has got nothing new, if nothing but the token that closes is new. -/
theorem supportLoop_settled (some_ : ∀ t ∈ tokens, t ≠ []) (closes : u.Closes cfg tokens)
    (settled : ∀ f : Feature, f ≠ .botInfo → f.token ∈ tokens → u.bits f.guard = true) :
    supportLoop cfg tokens u = u.close := by
  obtain ⟨closed, new, mem⟩ := closes
  induction tokens with
  | nil => exact absurd mem List.not_mem_nil
  | cons token tokens ih =>
    rw [List.forall_mem_cons] at some_
    have later : ∀ f : Feature, f ≠ .botInfo → f.token ∈ tokens → u.bits f.guard = true :=
      fun f other mem => settled f other (List.mem_cons_of_mem _ mem)
    rw [supportLoop_cons some_.1]
    cases found : Feature.find token with
    | none =>
      refine ih some_.2 later ?_
      refine (List.mem_cons.mp mem).resolve_left ?_
      rintro rfl
      rw [Feature.find_token] at found
      cases found
    | some f =>
      have here := Feature.token_of_find found
      dsimp only
      by_cases bot : f = .botInfo
      · have refused : u.refused cfg f = true := by
          rw [Supporter.refused, bot, new, closed]
          rfl
        rw [if_pos refused]
      · have passes : u.refused cfg f = false := by simp [Supporter.refused, bot]
        rw [passes, if_neg Bool.false_ne_true,
          feature_of_set (settled f bot (by rw [here]; exact List.mem_cons_self))]
        refine ih some_.2 later ?_
        refine (List.mem_cons.mp mem).resolve_left ?_
        intro same
        rw [← here] at same
        have eq := congrArg Feature.find same
        rw [Feature.find_token, Feature.find_token] at eq
        exact bot (Option.some.inj eq).symm

/-! ## The command -/

theorem command_length (l : FeatureList) :
    l.command.length = 11 + (List.intercalate [32] l.tokens).length := by
  rw [FeatureList.command, List.length_append, List.length_append]
  simp [ascii]
  omega

theorem command_last {l : FeatureList} (long : 13 ≤ l.command.length) :
    l.command[l.command.length - 2]? ≠ some 32 := by
  have last := intercalate_getLast l.some_ l.noBlank
  rw [command_length] at long
  rw [List.getLast?_eq_getElem?] at last
  have word : (ascii "$Supports ").length = 10 := rfl
  rw [command_length, FeatureList.command, List.append_assoc, List.getElem?_append_right (by omega),
    List.getElem?_append_left (by omega), word]
  have place : 11 + (List.intercalate [32] l.tokens).length - 2 - 10 =
      (List.intercalate [32] l.tokens).length - 1 := by omega
  rw [place]
  exact last

theorem command_tokens (l : FeatureList) :
    supportTokens ((l.command.drop 10).take (l.command.length - 11)) = l.tokens := by
  have word : (ascii "$Supports ").length = 10 := rfl
  have rest : l.command.drop 10 = List.intercalate [32] l.tokens ++ [124] := by
    rw [FeatureList.command, List.append_assoc, ← word, List.drop_left]
  rw [rest, command_length, Nat.add_sub_cancel_left, List.take_left,
    supportTokens_intercalate l.some_ l.noBlank]

/-- The same bits and the same statistics. -/
structure Agree (u u' : Supporter) : Prop where
  bits : u.bits = u'.bits
  statZPipe : u.statZPipe = u'.statZPipe

/-- The loop does all that is done, also where the command is too short. -/
theorem supports_loop {l : FeatureList} (first : u.haveSupports = false)
    (login : cfg.pastLogin = false) :
    Agree (u.supports cfg l.command)
      (supportLoop cfg l.tokens { u with haveSupports := true }) := by
  rw [supports, first, if_neg Bool.false_ne_true]
  dsimp only
  by_cases short : l.command.length < 13
  · rw [if_pos short]
    have unknown : ∀ token ∈ l.tokens, Feature.find token = none := by
      intro token mem
      cases found : Feature.find token with
      | none => rfl
      | some f =>
        have long := f.four_le
        have le := length_le_intercalate mem
        rw [Feature.token_of_find found] at long
        rw [command_length] at short
        omega
    have open_ : ¬ ({ u with haveSupports := true } : Supporter).Closes cfg l.tokens := by
      rintro ⟨-, -, mem⟩
      have found := unknown _ mem
      rw [Feature.find_token] at found
      cases found
    obtain ⟨bits, stat⟩ := supportLoop_open l.some_ open_
    rw [List.filterMap_eq_nil_iff.mpr unknown] at bits stat
    refine ⟨bits.symm, stat.symm ▸ ?_⟩
    simp [GuardedUpdates.applyAll, close]
  · have plain := command_last (Nat.not_lt.mp short)
    rw [if_neg short]
    simp only [plain, false_and, if_false, login, if_neg Bool.false_ne_true, command_tokens]
    exact ⟨rfl, rfl⟩

theorem supports_idle (idle : u.haveSupports = true ∨ cfg.pastLogin = true) (cmd : Text) :
    Agree (u.supports cfg cmd) u := by
  unfold supports
  by_cases first : u.haveSupports = true
  · rw [if_pos first]
    exact ⟨rfl, rfl⟩
  · have login := idle.resolve_left first
    rw [if_neg first]
    simp only [login, if_true]
    split
    · exact ⟨rfl, rfl⟩
    · split
      · split <;> exact ⟨rfl, rfl⟩
      · split <;> exact ⟨rfl, rfl⟩

end Supporter

namespace FeatureList

theorem repeated_some (l : FeatureList) (mem : token ∈ l.tokens) :
    ∀ t ∈ token :: l.tokens, t ≠ [] := List.forall_mem_cons.mpr ⟨l.some_ token mem, l.some_⟩

theorem repeated_noBlank (l : FeatureList) (mem : token ∈ l.tokens) :
    ∀ t ∈ token :: l.tokens, 32 ∉ t := List.forall_mem_cons.mpr ⟨l.noBlank token mem, l.noBlank⟩

/-- A list with one of its tokens once more, in front. -/
def repeated (l : FeatureList) (token : Text) (mem : token ∈ l.tokens) : FeatureList :=
  ⟨token :: l.tokens, l.repeated_some mem, l.repeated_noBlank mem⟩

theorem rearranged_repeated (l : FeatureList) (mem : token ∈ l.tokens) :
    l.Rearranged (l.repeated token mem) :=
  ⟨[token], List.cons_subset.mpr ⟨mem, List.nil_subset _⟩,
    (List.perm_append_singleton token l.tokens).symm⟩

theorem Rearranged.mem_iff {l l' : FeatureList} (r : l.Rearranged l') :
    token ∈ l'.tokens ↔ token ∈ l.tokens := by
  obtain ⟨more, sub, perm⟩ := r
  rw [perm.mem_iff, List.mem_append]
  exact ⟨fun mem => mem.elim id fun mem => sub mem, .inl⟩

end FeatureList

/-- Only `ZPipe` blocks another token, `ZPipe0`. -/
theorem features_blocks {s : SupportBit → Bool} {f g : Feature} (blocks : features.Blocks s f g) :
    f = .zPipe ∧ g = .zPipe0 := by
  obtain ⟨b, sets, more, -⟩ := blocks.more
  have pair : g.guard ∈ f.sets → (∃ b ∈ g.sets, b ∉ f.sets) → f = .zPipe ∧ g = .zPipe0 := by
    cases f <;> cases g <;> decide
  exact pair blocks.guard ⟨b, sets, more⟩

namespace Supporter

/-- `ZPipe` may come before `ZPipe0`, which is new. -/
def PipesMeet (u : Supporter) (tokens : List Text) : Prop :=
  u.bits .zPipe = false ∧ u.bits .zPipe0 = false ∧ Feature.zPipe.token ∈ tokens ∧
    Feature.zPipe0.token ∈ tokens

/-- Apart from `BotINFO`, which closes the user, the tokens name what is set already. -/
def NothingNew (u : Supporter) (tokens : List Text) : Prop :=
  ∀ f : Feature, f ≠ .botInfo → f.token ∈ tokens → u.bits f.guard = true

theorem mem_filterMap_find : f ∈ tokens.filterMap Feature.find ↔ f.token ∈ tokens := by
  rw [List.mem_filterMap]
  constructor
  · rintro ⟨token, mem, found⟩
    rw [Feature.token_of_find found]
    exact mem
  · exact fun mem => ⟨f.token, mem, f.find_token⟩

theorem free_of_pipes (pipes : ¬ u.PipesMeet tokens) :
    ∀ f ∈ tokens.filterMap Feature.find, ∀ g ∈ tokens.filterMap Feature.find,
      ¬ features.Blocks u.bits f g := by
  intro f mem g mem' blocks
  obtain ⟨rfl, rfl⟩ := features_blocks blocks
  obtain ⟨b, sets, more, unset⟩ := blocks.more
  have zero : b = .zPipe0 := by
    have either : b = .zPipe0 ∨ b = .zPipe := by simpa [features, Feature.sets] using sets
    refine either.resolve_right fun same => more ?_
    rw [same]
    decide
  rw [zero] at unset
  exact pipes ⟨blocks.unset, unset, mem_filterMap_find.mp mem, mem_filterMap_find.mp mem'⟩

/-- Without a token that closes, and with at most one of the two pipes new, only the set of the
tokens matters. -/
theorem supportLoop_congr {l l' : FeatureList} (open_ : ¬ u.Closes cfg l.tokens)
    (pipes : ¬ u.PipesMeet l.tokens) (same : ∀ t, t ∈ l'.tokens ↔ t ∈ l.tokens) :
    Agree (supportLoop cfg l'.tokens u) (supportLoop cfg l.tokens u) := by
  have open' : ¬ u.Closes cfg l'.tokens := fun closes =>
    open_ ⟨closes.1, closes.2.1, (same _).mp closes.2.2⟩
  obtain ⟨bits, stat⟩ := supportLoop_open l.some_ open_
  obtain ⟨bits', stat'⟩ := supportLoop_open l'.some_ open'
  have congr : features.applyAll u.bits (l.tokens.filterMap Feature.find) =
      features.applyAll u.bits (l'.tokens.filterMap Feature.find) := by
    refine GuardedUpdates.applyAll_congr (fun f => ?_) (free_of_pipes pipes)
    rw [mem_filterMap_find, mem_filterMap_find, same]
  rw [congr] at bits stat
  exact ⟨bits'.trans bits.symm, stat'.trans stat.symm⟩

/-- Behind a `ZPipe` that is new a `ZPipe0` goes unnoticed, before it it doesn't. -/
theorem pipes_differ {l : FeatureList} (pipes : u.PipesMeet l.tokens)
    (open_ : ¬ u.Closes cfg l.tokens) :
    (supportLoop cfg (Feature.zPipe.token :: l.tokens) u).bits .zPipe0 = false ∧
      (supportLoop cfg (Feature.zPipe0.token :: l.tokens) u).bits .zPipe0 = true := by
  obtain ⟨new, zero, pipe, pipe0⟩ := pipes
  have again : ∀ {t}, t ∈ l.tokens → ¬ u.Closes cfg (t :: l.tokens) := by
    rintro t mem ⟨closed, bot, here⟩
    refine open_ ⟨closed, bot, ?_⟩
    rcases List.mem_cons.mp here with rfl | later
    · exact mem
    · exact later
  constructor
  · rw [(supportLoop_open (l.repeated_some pipe) (again pipe)).1,
      List.filterMap_cons_some (Feature.find_token .zPipe), GuardedUpdates.applyAll_cons]
    refine GuardedUpdates.applyAll_blocked ?_ ?_
    · rw [← Bool.not_eq_true, GuardedUpdates.apply_iff, zero]
      simp [features, Feature.sets, Feature.guard]
    · intro f _ sets
      have only : f = .zPipe0 := by
        cases f <;> first | rfl | exact absurd sets (by decide)
      rw [only]
      exact GuardedUpdates.apply_guard (f := Feature.zPipe)
  · rw [(supportLoop_open (l.repeated_some pipe0) (again pipe0)).1,
      List.filterMap_cons_some (Feature.find_token .zPipe0), GuardedUpdates.applyAll_cons]
    refine GuardedUpdates.applyAll_mono (GuardedUpdates.apply_iff.mpr (.inr ⟨new, ?_⟩))
    decide

theorem Agree.symm {u u' : Supporter} (agree : Agree u u') : Agree u' u :=
  ⟨agree.bits.symm, agree.statZPipe.symm⟩

theorem Agree.trans {u u' u'' : Supporter} (agree : Agree u u') (agree' : Agree u' u'') :
    Agree u u'' := ⟨agree.bits.trans agree'.bits, agree.statZPipe.trans agree'.statZPipe⟩

theorem settled_agree {l l' : FeatureList} (closes : u.Closes cfg l.tokens)
    (settled : u.NothingNew l.tokens) (same : ∀ t, t ∈ l'.tokens ↔ t ∈ l.tokens) :
    Agree (supportLoop cfg l'.tokens { u with haveSupports := true }) u := by
  have closed := supportLoop_settled (u := { u with haveSupports := true }) l'.some_
    ⟨closes.1, closes.2.1, (same _).mpr closes.2.2⟩
    fun f other mem => settled f other ((same _).mp mem)
  rw [closed]
  exact ⟨rfl, rfl⟩

/-- Any two tokens of the list may come once more and first. -/
theorem OrderFree.bits_eq {l : FeatureList} (free : OrderFree cfg u l)
    (first : u.haveSupports = false) (login : cfg.pastLogin = false) {t t' : Text}
    (mem : t ∈ l.tokens) (mem' : t' ∈ l.tokens) :
    (supportLoop cfg (t :: l.tokens) { u with haveSupports := true }).bits =
      (supportLoop cfg (t' :: l.tokens) { u with haveSupports := true }).bits := by
  have one := (free _ (l.rearranged_repeated mem)).1
  have other := (free _ (l.rearranged_repeated mem')).1
  rw [(supports_loop (l := l.repeated t mem) first login).bits] at one
  rw [(supports_loop (l := l.repeated t' mem') first login).bits] at other
  exact one.trans other.symm

theorem nothingNew_of_orderFree {l : FeatureList} (free : OrderFree cfg u l)
    (first : u.haveSupports = false) (login : cfg.pastLogin = false)
    (closes : u.Closes cfg l.tokens) : u.NothingNew l.tokens := by
  intro f other mem
  have same := free.bits_eq first login closes.2.2 mem
  rw [supportLoop_cons (l.some_ _ closes.2.2), supportLoop_cons (l.some_ _ mem),
    Feature.find_token, Feature.find_token] at same
  dsimp only at same
  have closed : ({ u with haveSupports := true } : Supporter).refused cfg .botInfo = true := by
    rw [Supporter.refused, closes.1, closes.2.1]
    rfl
  have passes : ({ u with haveSupports := true } : Supporter).refused cfg f = false := by
    simp [Supporter.refused, other]
  rw [if_pos closed, passes, if_neg Bool.false_ne_true] at same
  have isSet := congrFun same f.guard
  rw [supportLoop_mono (GuardedUpdates.apply_guard (G := features) (f := f))] at isSet
  exact isSet

/-- A user that has sent nothing yet. -/
def fresh : Supporter := ⟨false, false, fun _ => false, false, false, 0⟩

end Supporter

end

/-- Both pipes, in the order that keeps `ZPipe0`, and in the other. -/
def pipe0First : FeatureList :=
  ⟨[ascii "ZPipe0", ascii "ZPipe"], by decide +kernel, by decide +kernel⟩

def pipeFirst : FeatureList :=
  ⟨[ascii "ZPipe", ascii "ZPipe0"], by decide +kernel, by decide +kernel⟩

end FlyHub.Session
