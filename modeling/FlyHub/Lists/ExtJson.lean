import FlyHub.Lib.Lines
import FlyHub.Lists.Users
import Mathlib.Data.List.Nodup
import Mathlib.Logic.Function.Basic

/-!
# The directory of the ExtJSONs

The hub keeps the ExtJSON commands of all users as one text. A command is looked for in the
whole text, both when it is put in and when it is taken out, and so a command that another one
ends with is mistaken for it. Changes by scripts are left out.
-/

namespace FlyHub.Lists

open FlyHub.Lib

/-- Every command ends with its only pipe. -/
def closingPipe : UInt8 := 124

/-- What the hub does with ExtJSONs depends on the lists of MyINFOs that there are, on the longest
MyINFO and on a parser. -/
structure ExtSettings where
  fullMyInfo : FullMyInfo
  maxMyInfoLen : Nat
  isJson : Text → Bool

/-- `ExtJSONInfo`. -/
structure ExtJsonInfo where
  extJson : Text
  extJsonOriginal : Text

/-- `login` is from STATE_IPV4_CHECK to STATE_ADDME_1LOOP. -/
inductive ExtStage where
  | login
  | addMe2Loop
  | added
  | closed
  deriving DecidableEq

structure ExtUser where
  sNick : Text
  stage : ExtStage
  info : Option ExtJsonInfo

structure ExtState where
  users : Nat → ExtUser
  allExtJson : Text

/-- A command as it is cut off from what a client sends. -/
structure ExtLine where
  text : Text
  closed : Closed closingPipe text

inductive ExtEvent where
  | command (u : Nat) (line : ExtLine)
  /-- `Add2Userlist`. -/
  | list (u : Nat)
  | finish (u : Nat)
  /-- A new MyINFO, and whether the long one and the short one are changed by it. -/
  | myInfo (u : Nat) (long short : Bool)
  | close (u : Nat)

def ExtEvent.user : ExtEvent → Nat
  | .command u _ | .list u | .finish u | .myInfo u _ _ | .close u => u

namespace ExtJsonInfo

/-- `ComparExtJSON`. -/
def compar (i : ExtJsonInfo) (newExtJson : Text) : Bool :=
  if i.extJsonOriginal ≠ [] then i.extJsonOriginal = newExtJson else i.extJson = newExtJson

def setJsonOriginal (json : Text) : ExtJsonInfo := ⟨json, json⟩

end ExtJsonInfo

/-- `Add2ExtJSON`. -/
def add2ExtJson (info : Option ExtJsonInfo) (all : Text) : Text :=
  match info with
  | none => all
  | some i => if (firstAt i.extJson all).isSome then all else all ++ i.extJson

/-- `DelFromExtJSONInfos`. -/
def delFromExtJsonInfos (info : Option ExtJsonInfo) (all : Text) : Text :=
  match info with
  | none => all
  | some i => if all = [] then all else removeFirst i.extJson all

namespace ExtSettings

variable (cfg : ExtSettings)

/-- `CheckExtJSON`. -/
def checkExtJson (sNick sData : Text) : Bool :=
  if sNick ≠ [] then
    if cfg.maxMyInfoLen * 10 < sData.length then false
    else if sData.length < sNick.length + 9 then false
    else if sNick.length + 9 < sData.length ∧ (sData.drop 9).take sNick.length ≠ sNick then false
    else true
  else true

/-- What is given to the JSON parser at the login: from the first blank after the nick on. -/
def jsonText (sCommand : Text) : Text :=
  match (sCommand.drop 10).idxOf? 32 with
  | none => []
  | some i =>
    let s := sCommand.drop (10 + i)
    if 3 < s.length ∧ s.getLast? = some closingPipe ∧ s[s.length - 2]? = some 125 then
      s.dropLast.map fun c => if 128 ≤ c then 46 else c
    else s

/-- `Add2Userlist`. -/
def listed (info : Option ExtJsonInfo) (all : Text) : Text :=
  match cfg.fullMyInfo with
  | .both => add2ExtJson info (add2ExtJson info all)
  | _ => add2ExtJson info all

/-- A changed MyINFO is taken out of a list and put in again. -/
def relisted (long short : Bool) (info : Option ExtJsonInfo) (all : Text) : Text :=
  let again := fun all => add2ExtJson info (delFromExtJsonInfos info all)
  match cfg.fullMyInfo with
  | .long => if long then again all else all
  | .short => if short then again all else all
  | .both => if long then if short then again (again all) else again all else all

/-- A new MyINFO changes a list. -/
def changes (long short : Bool) : Bool := if cfg.fullMyInfo = .short then short else long

/-- `Close`. -/
def unlisted (isListed : Bool) (info : Option ExtJsonInfo) (all : Text) : Text :=
  let all := if isListed && cfg.fullMyInfo ≠ .short then delFromExtJsonInfos info all else all
  let all := if isListed && cfg.fullMyInfo ≠ .long then delFromExtJsonInfos info all else all
  delFromExtJsonInfos info all

end ExtSettings

/-- What the hub makes of an `$ExtJSON`. -/
inductive ExtVerdict where
  | ignored
  | refused
  | first
  | change
  deriving DecidableEq

namespace ExtState

variable (cfg : ExtSettings) (st : ExtState)

def isListed (u : Nat) : Bool := (st.users u).stage = .addMe2Loop ∨ (st.users u).stage = .added

/-- `$ExtJSON` in `PreProcessData`, `initExtJSON` and `SetExtJSON`. -/
def verdict (u : Nat) (sCommand : Text) : ExtVerdict :=
  let user := st.users u
  match user.stage with
  | .closed => .ignored
  | .added =>
    if !cfg.checkExtJson user.sNick sCommand then .refused
    else
      match user.info with
      | none => .ignored
      | some i => if i.compar sCommand then .ignored else .change
  | _ =>
    if !cfg.checkExtJson user.sNick sCommand then .refused
    else if !cfg.isJson (ExtSettings.jsonText sCommand) then .refused
    else if user.info.isNone then .first else .ignored

def put (u : Nat) (user : ExtUser) (allExtJson : Text) : ExtState :=
  ⟨Function.update st.users u user, allExtJson⟩

def close (u : Nat) : ExtState :=
  let user := st.users u
  if user.stage = .closed then st
  else
    st.put u { user with stage := .closed } (cfg.unlisted (st.isListed u) user.info st.allExtJson)

def step : ExtEvent → ExtState
  | .command u line =>
    let user := st.users u
    match st.verdict cfg u line.text with
    | .ignored => st
    | .refused => st.close cfg u
    | .first => st.put u { user with info := some ⟨line.text, []⟩ } st.allExtJson
    | .change =>
      let info := some (ExtJsonInfo.setJsonOriginal line.text)
      st.put u { user with info := info }
        (add2ExtJson info (delFromExtJsonInfos user.info st.allExtJson))
  | .list u =>
    let user := st.users u
    if user.stage = .login then
      st.put u { user with stage := .addMe2Loop } (cfg.listed user.info st.allExtJson)
    else st
  | .finish u =>
    let user := st.users u
    if user.stage = .addMe2Loop then st.put u { user with stage := .added } st.allExtJson else st
  | .myInfo u long short =>
    let user := st.users u
    if user.stage = .added then
      { st with allExtJson := cfg.relisted long short user.info st.allExtJson }
    else st
  | .close u => st.close cfg u

/-- Before anybody has logged in. -/
def init (nick : Nat → Text) : ExtState := ⟨fun u => ⟨nick u, .login, none⟩, []⟩

def storedExtJson (u : Nat) : Text :=
  match (st.users u).info with
  | none => []
  | some i => i.extJson

/-- The directory holds the commands of the users in the list that have one. -/
def Whole : Prop :=
  ∃ us : List Nat, us.Nodup ∧ (∀ u, u ∈ us ↔ st.isListed u ∧ (st.users u).info.isSome) ∧
    st.allExtJson = (us.map st.storedExtJson).flatten

/-- No other user in the list has a command that ends like the text. -/
def Alone (u : Nat) (text : Text) : Prop :=
  ∀ v, v ≠ u → st.isListed v → ∀ i, (st.users v).info = some i → ¬ text <:+ i.extJson

/-- Where the text is first found in the directory a command begins, or what is found is
followed by the text itself. -/
def AtCommand (text : Text) : Prop :=
  ∀ i, firstAt text st.allExtJson = some i → i = 0 ∨ st.allExtJson[i - 1]? = some closingPipe ∨
    text <+: st.allExtJson.drop (i + text.length)

def AloneWith (u : Nat) : Prop := ∀ i, (st.users u).info = some i → st.Alone u i.extJson

/-- A step at which no command is taken for the end of another one, and the first command of
a user comes before the user is in the list. -/
def Clear : ExtEvent → Prop
  | .command u line =>
    match st.verdict cfg u line.text with
    | .ignored => True
    | .refused => st.AloneWith u
    | .first => (st.users u).stage = .login
    | .change => st.Alone u line.text ∧ st.AtCommand (st.storedExtJson u)
  | .list u => (st.users u).stage = .login → st.AloneWith u
  | .finish _ => True
  | .myInfo u long short => (st.users u).stage = .added →
      cfg.changes long short → st.AloneWith u
  | .close u => (st.users u).stage ≠ .closed → st.AloneWith u

end ExtState

/-! ## The text of a directory -/

section
variable {cfg : ExtSettings} {i : ExtJsonInfo} {texts front back : List Text}

/-- No text ends like the one of the user. -/
def Absent (i : ExtJsonInfo) (texts : List Text) : Prop := ∀ e ∈ texts, ¬ i.extJson <:+ e

theorem Absent.append (hf : Absent i front) (hb : Absent i back) : Absent i (front ++ back) := by
  intro e he
  cases List.mem_append.1 he with
  | inl mem => exact hf e mem
  | inr mem => exact hb e mem

theorem Absent.left (h : Absent i (front ++ back)) : Absent i front :=
  fun e he => h e (List.mem_append_left _ he)

theorem Absent.right (h : Absent i (front ++ back)) : Absent i back :=
  fun e he => h e (List.mem_append_right _ he)

variable (own : Closed closingPipe i.extJson)
include own

theorem add_absent (lines_ : ∀ e ∈ texts, Closed closingPipe e) (absent : Absent i texts) :
    add2ExtJson (some i) texts.flatten = (texts ++ [i.extJson]).flatten := by
  rw [add2ExtJson, (firstAt_lines_none own lines_).2 absent]
  simp

theorem add_present (lines_ : ∀ e ∈ texts, Closed closingPipe e) (present : i.extJson ∈ texts) :
    add2ExtJson (some i) texts.flatten = texts.flatten := by
  rw [add2ExtJson]
  cases found : firstAt i.extJson texts.flatten with
  | none => exact absurd (List.suffix_refl _) ((firstAt_lines_none own lines_).1 found _ present)
  | some j => rfl

theorem del_absent (lines_ : ∀ e ∈ texts, Closed closingPipe e) (absent : Absent i texts) :
    delFromExtJsonInfos (some i) texts.flatten = texts.flatten := by
  rw [delFromExtJsonInfos, removeFirst_none own lines_ absent]
  exact ite_self _

theorem del_present (lines_ : ∀ e ∈ front ++ i.extJson :: back, Closed closingPipe e)
    (before : Absent i front) :
    delFromExtJsonInfos (some i) (front ++ i.extJson :: back).flatten = (front ++ back).flatten := by
  have some_ : (front ++ i.extJson :: back).flatten ≠ [] := by
    simp [own.ne_nil]
  rw [delFromExtJsonInfos, if_neg some_]
  exact removeFirst_line own lines_ before

theorem listed_absent (lines_ : ∀ e ∈ texts, Closed closingPipe e) (absent : Absent i texts) :
    cfg.listed (some i) texts.flatten = (texts ++ [i.extJson]).flatten := by
  have again : add2ExtJson (some i) (texts ++ [i.extJson]).flatten =
      (texts ++ [i.extJson]).flatten := by
    apply add_present own
    · intro e he
      cases List.mem_append.1 he with
      | inl mem => exact lines_ e mem
      | inr mem => exact List.mem_singleton.1 mem ▸ own
    · simp
  rw [ExtSettings.listed]
  split
  · rw [add_absent own lines_ absent, again]
  · exact add_absent own lines_ absent

theorem unlisted_absent (lines_ : ∀ e ∈ texts, Closed closingPipe e) (absent : Absent i texts)
    (isListed : Bool) : cfg.unlisted isListed (some i) texts.flatten = texts.flatten := by
  have del := del_absent own lines_ absent
  rw [ExtSettings.unlisted]
  split <;> split <;> simp only [del]

omit own in
theorem lines_without {e : Text} (lines_ : ∀ e' ∈ front ++ e :: back, Closed closingPipe e') :
    ∀ e' ∈ front ++ back, Closed closingPipe e' := by
  intro e' he
  apply lines_ e'
  cases List.mem_append.1 he with
  | inl mem => exact List.mem_append_left _ mem
  | inr mem => exact List.mem_append_right _ (List.mem_cons_of_mem _ mem)

theorem unlisted_present (lines_ : ∀ e ∈ front ++ i.extJson :: back, Closed closingPipe e)
    (hf : Absent i front) (hb : Absent i back) :
    cfg.unlisted true (some i) (front ++ i.extJson :: back).flatten = (front ++ back).flatten := by
  have del := del_present own lines_ hf
  have rest := lines_without lines_
  have again := del_absent own rest (hf.append hb)
  generalize (front ++ i.extJson :: back).flatten = all at del ⊢
  generalize (front ++ back).flatten = less at del again ⊢
  rw [ExtSettings.unlisted]
  cases cfg.fullMyInfo <;> simp [del, again]

theorem relisted_present (lines_ : ∀ e ∈ front ++ i.extJson :: back, Closed closingPipe e)
    (hf : Absent i front) (hb : Absent i back) {long short : Bool}
    (changes : cfg.changes long short) :
    cfg.relisted long short (some i) (front ++ i.extJson :: back).flatten =
      (front ++ back ++ [i.extJson]).flatten := by
  have rest := lines_without lines_
  have all : ∀ e ∈ front ++ back ++ i.extJson :: [], Closed closingPipe e := by
    intro e he
    cases List.mem_append.1 he with
    | inl mem => exact rest e mem
    | inr mem => exact List.mem_singleton.1 mem ▸ own
  have once : add2ExtJson (some i) (delFromExtJsonInfos (some i)
      (front ++ i.extJson :: back).flatten) = (front ++ back ++ [i.extJson]).flatten := by
    rw [del_present own lines_ hf, add_absent own rest (hf.append hb)]
  have twice : add2ExtJson (some i) (delFromExtJsonInfos (some i)
      (front ++ back ++ [i.extJson]).flatten) = (front ++ back ++ [i.extJson]).flatten := by
    rw [del_present own all (hf.append hb), List.append_nil, add_absent own rest (hf.append hb)]
  rw [ExtSettings.relisted]
  rw [ExtSettings.changes] at changes
  cases hc : cfg.fullMyInfo with
  | long =>
    rw [hc, if_neg (by decide)] at changes
    simp only [changes, if_true]
    exact once
  | short =>
    rw [hc, if_pos rfl] at changes
    simp only [changes, if_true]
    exact once
  | both =>
    rw [hc, if_neg (by decide)] at changes
    simp only [changes, if_true, once, twice, ite_self]

end

/-! ## The users in the directory -/

namespace ExtState

variable {cfg : ExtSettings} {st : ExtState} {us : List Nat} {u : Nat} {user : ExtUser}

/-- The directory holds the commands of these users. -/
structure Holds (st : ExtState) (us : List Nat) : Prop where
  nodup : us.Nodup
  mem : ∀ u, u ∈ us ↔ st.isListed u ∧ (st.users u).info.isSome
  all : st.allExtJson = (us.map st.storedExtJson).flatten
  closed : ∀ u i, (st.users u).info = some i → Closed closingPipe i.extJson
  apart : ∀ u ∈ us, ∀ v ∈ us, st.storedExtJson u = st.storedExtJson v → u = v

theorem Holds.whole (holds : st.Holds us) : st.Whole := ⟨us, holds.nodup, holds.mem, holds.all⟩

theorem stored_some {i : ExtJsonInfo} (info : (st.users u).info = some i) :
    st.storedExtJson u = i.extJson := by
  rw [storedExtJson, info]

theorem Holds.lines (holds : st.Holds us) : ∀ e ∈ us.map st.storedExtJson, Closed closingPipe e := by
  intro e he
  obtain ⟨u, hu, rfl⟩ := List.mem_map.1 he
  obtain ⟨i, info⟩ := Option.isSome_iff_exists.1 ((holds.mem u).1 hu).2
  rw [stored_some info]
  exact holds.closed u i info

/-- What is alone ends none of the commands of other users. -/
theorem Holds.absent (holds : st.Holds us) {i : ExtJsonInfo} (alone : st.Alone u i.extJson)
    {others : List Nat} (sub : ∀ v ∈ others, v ∈ us) (other : u ∉ others) :
    Absent i (others.map st.storedExtJson) := by
  intro e he
  obtain ⟨v, hv, rfl⟩ := List.mem_map.1 he
  obtain ⟨on, some_⟩ := (holds.mem v).1 (sub v hv)
  obtain ⟨j, info⟩ := Option.isSome_iff_exists.1 some_
  rw [stored_some info]
  apply alone v _ on j info
  rintro rfl
  exact other hv

/-- What a change of one user leaves alone. -/
structure Others (st st' : ExtState) (u : Nat) : Prop where
  same : ∀ v, v ≠ u → st'.users v = st.users v
  closed : ∀ i, (st'.users u).info = some i → Closed closingPipe i.extJson

/-- The users in the directory but one. -/
structure Base (us : List Nat) (u : Nat) (base : List Nat) : Prop where
  nodup : base.Nodup
  mem : ∀ v, v ∈ base ↔ v ∈ us ∧ v ≠ u

theorem Base.not_mem {base : List Nat} (h : Base us u base) : u ∉ base :=
  fun mem => ((h.mem u).1 mem).2 rfl

theorem base_absent (nodup : us.Nodup) (h : u ∉ us) : Base us u us where
  nodup := nodup
  mem _ := ⟨fun mem => ⟨mem, fun eq => h (eq ▸ mem)⟩, And.left⟩

theorem base_split {front back : List Nat} (nodup : (front ++ u :: back).Nodup) :
    Base (front ++ u :: back) u (front ++ back) where
  nodup := nodup.sublist (List.Sublist.append_left (List.sublist_cons_self _ _) _)
  mem v := by
    have apart := (List.nodup_middle.1 nodup)
    rw [List.nodup_cons, List.mem_append] at apart
    simp only [List.mem_append, List.mem_cons]
    constructor
    · intro mem
      refine ⟨mem.imp_right .inr, ?_⟩
      rintro rfl
      exact apart.1 mem
    · rintro ⟨mem, other⟩
      exact mem.imp_right fun h => h.resolve_left other

section
variable {st' : ExtState} {base : List Nat} (holds : st.Holds us) (others : Others st st' u)
include others

theorem Others.stored {v : Nat} (h : v ≠ u) : st'.storedExtJson v = st.storedExtJson v := by
  rw [storedExtJson, storedExtJson, others.same v h]

theorem Others.listed {v : Nat} (h : v ≠ u) : st'.isListed v = st.isListed v := by
  rw [isListed, isListed, others.same v h]

include holds in
theorem Others.closed_all (v : Nat) (i : ExtJsonInfo) (info : (st'.users v).info = some i) :
    Closed closingPipe i.extJson := by
  by_cases same : v = u
  · subst same
    exact others.closed i info
  · rw [others.same v same] at info
    exact holds.closed v i info

theorem Others.map_stored (hb : Base us u base) :
    base.map st'.storedExtJson = base.map st.storedExtJson := by
  apply List.map_congr_left
  intro v hv
  exact others.stored ((hb.mem v).1 hv).2

include holds

theorem holds_without (hb : Base us u base) (out : ¬ (st'.isListed u ∧ (st'.users u).info.isSome))
    (all : st'.allExtJson = (base.map st.storedExtJson).flatten) : st'.Holds base where
  nodup := hb.nodup
  mem v := by
    rw [hb.mem]
    by_cases same : v = u
    · subst same
      simp [out]
    · rw [holds.mem, others.listed same, others.same v same]
      simp [same]
  all := by rw [others.map_stored hb, all]
  closed := others.closed_all holds
  apart v hv w hw eq := by
    have hv := (hb.mem v).1 hv
    have hw := (hb.mem w).1 hw
    rw [others.stored hv.2, others.stored hw.2] at eq
    exact holds.apart v hv.1 w hw.1 eq

theorem holds_with (hb : Base us u base) {i : ExtJsonInfo} (on : st'.isListed u)
    (info : (st'.users u).info = some i) (alone : st.Alone u i.extJson)
    (all : st'.allExtJson = (base.map st.storedExtJson ++ [i.extJson]).flatten) :
    st'.Holds (base ++ [u]) := by
  have own : st'.storedExtJson u = i.extJson := stored_some info
  have differs : ∀ v ∈ base, st.storedExtJson v ≠ i.extJson := by
    intro v hv eq
    apply holds.absent alone (fun w hw => ((hb.mem w).1 hw).1) hb.not_mem _
      (List.mem_map_of_mem hv)
    exact eq ▸ List.suffix_refl _
  refine ⟨?_, ?_, ?_, others.closed_all holds, ?_⟩
  · rw [List.nodup_append]
    refine ⟨hb.nodup, List.nodup_singleton u, ?_⟩
    intro v hv w hw eq
    rw [List.mem_singleton] at hw
    exact hb.not_mem (hw ▸ eq ▸ hv)
  · intro v
    rw [List.mem_append, List.mem_singleton, hb.mem]
    by_cases same : v = u
    · subst same
      simp [on, info]
    · rw [holds.mem, others.listed same, others.same v same]
      simp [same]
  · rw [all, List.map_append, others.map_stored hb, List.map_singleton, own]
  · intro v hv w hw eq
    rw [List.mem_append, List.mem_singleton] at hv hw
    rcases hv with hv | rfl
    · have hv' := (hb.mem v).1 hv
      rcases hw with hw | rfl
      · have hw' := (hb.mem w).1 hw
        rw [others.stored hv'.2, others.stored hw'.2] at eq
        exact holds.apart v hv'.1 w hw'.1 eq
      · rw [others.stored hv'.2, own] at eq
        exact absurd eq (differs v hv)
    · rcases hw with hw | rfl
      · have hw' := (hb.mem w).1 hw
        rw [others.stored hw'.2, own] at eq
        exact absurd eq.symm (differs w hw)
      · rfl

end

/-! ## Steps -/

theorem Holds.split (holds : st.Holds us) (on : st.isListed u) {i : ExtJsonInfo}
    (info : (st.users u).info = some i) :
    ∃ front back, us = front ++ u :: back ∧ Base us u (front ++ back) ∧
      us.map st.storedExtJson =
        front.map st.storedExtJson ++ i.extJson :: back.map st.storedExtJson := by
  have mem : u ∈ us := (holds.mem u).2 ⟨on, by rw [info]; rfl⟩
  obtain ⟨front, back, rfl⟩ := List.append_of_mem mem
  refine ⟨front, back, rfl, base_split holds.nodup, ?_⟩
  rw [List.map_append, List.map_cons, stored_some info]

theorem Base.absent {base : List Nat} (hb : Base us u base) (holds : st.Holds us)
    {i : ExtJsonInfo} (alone : st.Alone u i.extJson) : Absent i (base.map st.storedExtJson) :=
  holds.absent alone (fun v hv => ((hb.mem v).1 hv).1) hb.not_mem

theorem none_base (holds : st.Holds us) (info : (st.users u).info = none) : Base us u us := by
  apply base_absent holds.nodup
  intro mem
  have some_ := ((holds.mem u).1 mem).2
  rw [info] at some_
  cases some_

theorem not_listed_base (holds : st.Holds us) (off : st.isListed u = false) : Base us u us := by
  apply base_absent holds.nodup
  intro mem
  have on := ((holds.mem u).1 mem).1
  rw [off] at on
  cases on

theorem others_put {all : Text} (closed : ∀ i, user.info = some i → Closed closingPipe i.extJson) :
    Others st (st.put u user all) u where
  same _ h := Function.update_of_ne h _ _
  closed i info := by
    simp only [put, Function.update_self] at info
    exact closed i info

theorem close_holds (holds : st.Holds us) (clear : (st.users u).stage ≠ .closed → st.AloneWith u) :
    ∃ us', (st.close cfg u).Holds us' := by
  rw [close]
  by_cases gone : (st.users u).stage = .closed
  · rw [if_pos gone]
    exact ⟨us, holds⟩
  · rw [if_neg gone]
    have base : ∃ base, Base us u base ∧ cfg.unlisted (st.isListed u) (st.users u).info
        st.allExtJson = (base.map st.storedExtJson).flatten := by
      cases info : (st.users u).info with
      | none =>
        refine ⟨us, none_base holds info, ?_⟩
        rw [← holds.all]
        simp [ExtSettings.unlisted, delFromExtJsonInfos]
      | some i =>
        have own := holds.closed u i info
        have alone := clear gone i info
        rw [holds.all]
        have lines_ := holds.lines
        cases on : st.isListed u with
        | false =>
          have hb := not_listed_base holds on
          exact ⟨us, hb, unlisted_absent own lines_ (hb.absent holds alone) false⟩
        | true =>
          obtain ⟨front, back, rfl, hb, split⟩ := holds.split on info
          have absent := hb.absent holds alone
          rw [List.map_append] at absent
          rw [split] at lines_ ⊢
          refine ⟨front ++ back, hb, ?_⟩
          rw [unlisted_present own lines_ absent.left absent.right, List.map_append]
    obtain ⟨base, hb, all⟩ := base
    refine ⟨base, holds_without holds (others_put (holds.closed u)) hb ?_ all⟩
    simp [put, isListed]

theorem list_holds (holds : st.Holds us) (login : (st.users u).stage = .login)
    (clear : st.AloneWith u) :
    ∃ us', (st.put u { st.users u with stage := .addMe2Loop }
      (cfg.listed (st.users u).info st.allExtJson)).Holds us' := by
  have others := @others_put st u { st.users u with stage := .addMe2Loop }
    (cfg.listed (st.users u).info st.allExtJson) (holds.closed u)
  have off : st.isListed u = false := by simp [isListed, login]
  cases info : (st.users u).info with
  | none =>
    rw [info] at others
    refine ⟨us, holds_without holds others (none_base holds info) ?_ ?_⟩
    · simp [put, info]
    · simp only [put]
      rw [← holds.all, ExtSettings.listed]
      split <;> rfl
  | some i =>
    have own := holds.closed u i info
    have hb := not_listed_base holds off
    rw [info] at others
    refine ⟨us ++ [u], holds_with holds others hb ?_ ?_ (clear i info) ?_⟩
    · simp [put, isListed]
    · simp [put, info]
    · simp only [put]
      rw [holds.all, listed_absent own holds.lines (hb.absent holds (clear i info))]

theorem finish_holds (holds : st.Holds us) (loop : (st.users u).stage = .addMe2Loop) :
    (st.put u { st.users u with stage := .added } st.allExtJson).Holds us := by
  have info : ∀ v, ((st.put u { st.users u with stage := .added } st.allExtJson).users v).info =
      (st.users v).info := by
    intro v
    by_cases same : v = u
    · subst same
      simp [put]
    · simp [put, same]
  have stored : (st.put u { st.users u with stage := .added } st.allExtJson).storedExtJson =
      st.storedExtJson := by
    funext v
    rw [storedExtJson, info, storedExtJson]
  refine ⟨holds.nodup, ?_, ?_, ?_, ?_⟩
  · intro v
    rw [holds.mem, info]
    by_cases same : v = u
    · subst same
      simp [put, isListed, loop]
    · simp [put, isListed, same]
  · rw [stored]
    exact holds.all
  · intro v i hi
    rw [info] at hi
    exact holds.closed v i hi
  · rw [stored]
    exact holds.apart

theorem relisted_same (long short : Bool) (changes : cfg.changes long short = false)
    (info : Option ExtJsonInfo) (all : Text) : cfg.relisted long short info all = all := by
  rw [ExtSettings.changes] at changes
  rw [ExtSettings.relisted]
  cases hc : cfg.fullMyInfo <;> rw [hc] at changes <;> simp_all

theorem myInfo_holds (holds : st.Holds us) (added : (st.users u).stage = .added)
    {long short : Bool} (clear : cfg.changes long short → st.AloneWith u) :
    ∃ us', ({ st with allExtJson := cfg.relisted long short (st.users u).info st.allExtJson } :
      ExtState).Holds us' := by
  have same : st.allExtJson = cfg.relisted long short (st.users u).info st.allExtJson →
      ({ st with allExtJson := cfg.relisted long short (st.users u).info st.allExtJson } :
        ExtState).Holds us := by
    intro eq
    rw [← eq]
    exact holds
  cases changes : cfg.changes long short with
  | false => exact ⟨us, same (relisted_same long short changes _ _).symm⟩
  | true =>
    cases info : (st.users u).info with
    | none =>
      rw [info] at same
      refine ⟨us, same ?_⟩
      rw [ExtSettings.relisted]
      cases cfg.fullMyInfo <;> simp [add2ExtJson, delFromExtJsonInfos]
    | some i =>
      have own := holds.closed u i info
      have on : st.isListed u = true := by simp [isListed, added]
      have alone := clear changes i info
      have lines_ := holds.lines
      have others : Others st ⟨st.users, cfg.relisted long short (some i) st.allExtJson⟩ u :=
        ⟨fun _ _ => rfl, holds.closed u⟩
      obtain ⟨front, back, rfl, hb, split⟩ := holds.split on info
      have absent := hb.absent holds alone
      rw [List.map_append] at absent
      refine ⟨front ++ back ++ [u], holds_with holds others hb on info alone ?_⟩
      simp only
      rw [split] at lines_
      rw [holds.all, split, relisted_present own lines_ absent.left absent.right changes,
        List.map_append]

/-- Taking out a command that is found where one begins takes out the own one. -/
theorem Holds.found (holds : st.Holds us) (on : st.isListed u) {i : ExtJsonInfo}
    (info : (st.users u).info = some i) (begins : st.AtCommand i.extJson) :
    ∃ base, Base us u base ∧ delFromExtJsonInfos (some i) st.allExtJson =
      (base.map st.storedExtJson).flatten := by
  have own := holds.closed u i info
  have mem : u ∈ us := (holds.mem u).2 ⟨on, by rw [info]; rfl⟩
  have present : i.extJson ∈ us.map st.storedExtJson :=
    stored_some info ▸ List.mem_map_of_mem mem
  rw [AtCommand, holds.all] at begins
  have found : ∃ j, firstAt i.extJson (us.map st.storedExtJson).flatten = some j := by
    cases found : firstAt i.extJson (us.map st.storedExtJson).flatten with
    | none =>
      exact absurd (List.suffix_refl _)
        ((firstAt_lines_none own holds.lines).1 found _ present)
    | some j => exact ⟨j, rfl⟩
  obtain ⟨j, found⟩ := found
  obtain ⟨f, b, split, removed⟩ := removeFirst_found own holds.lines found (begins j found)
  obtain ⟨front, rest, rfl, rfl, eq⟩ := List.map_eq_append_iff.1 split
  obtain ⟨v, back, rfl, stored, rfl⟩ := List.map_eq_cons_iff.1 eq
  have same : v = u := by
    apply holds.apart v (by simp) u mem
    rw [stored, stored_some info]
  subst same
  refine ⟨front ++ back, base_split holds.nodup, ?_⟩
  have some_ : (front.map st.storedExtJson ++ i.extJson :: back.map st.storedExtJson).flatten ≠
      [] := by
    simp [own.ne_nil]
  rw [holds.all, delFromExtJsonInfos, removed, if_neg (split ▸ some_), List.map_append]

theorem change_holds (holds : st.Holds us) (added : (st.users u).stage = .added) {i : ExtJsonInfo}
    (info : (st.users u).info = some i) (line : ExtLine) (alone : st.Alone u line.text)
    (begins : st.AtCommand i.extJson) :
    ∃ us', (st.put u { st.users u with info := some (ExtJsonInfo.setJsonOriginal line.text) }
      (add2ExtJson (some (ExtJsonInfo.setJsonOriginal line.text))
        (delFromExtJsonInfos (some i) st.allExtJson))).Holds us' := by
  have on : st.isListed u = true := by simp [isListed, added]
  obtain ⟨base, hb, removed⟩ := holds.found on info begins
  have absent : Absent (ExtJsonInfo.setJsonOriginal line.text) (base.map st.storedExtJson) :=
    hb.absent holds alone
  have lines_ : ∀ e ∈ base.map st.storedExtJson, Closed closingPipe e := by
    intro e he
    obtain ⟨v, hv, rfl⟩ := List.mem_map.1 he
    exact holds.lines _ (List.mem_map_of_mem ((hb.mem v).1 hv).1)
  refine ⟨base ++ [u], holds_with (i := .setJsonOriginal line.text) holds (others_put ?_) hb ?_ ?_
    alone ?_⟩
  · rintro j ⟨⟩
    exact line.closed
  · simp [put, isListed, added]
  · simp [put]
  · simp only [put]
    rw [removed]
    exact add_absent line.closed lines_ absent

theorem first_holds (holds : st.Holds us) (login : (st.users u).stage = .login) (line : ExtLine) :
    (st.put u { st.users u with info := some ⟨line.text, []⟩ } st.allExtJson).Holds us := by
  have off : st.isListed u = false := by simp [isListed, login]
  refine holds_without holds (others_put ?_) (not_listed_base holds off) ?_ holds.all
  · rintro j ⟨⟩
    exact line.closed
  · simp [put, isListed, login]

theorem verdict_change {text : Text} (change : st.verdict cfg u text = .change) :
    (st.users u).stage = .added ∧ ∃ i, (st.users u).info = some i := by
  unfold verdict at change
  cases stage : (st.users u).stage with
  | added =>
    refine ⟨rfl, ?_⟩
    simp only [stage] at change
    split at change
    · cases change
    · cases info : (st.users u).info with
      | none =>
        rw [info] at change
        cases change
      | some i => exact ⟨i, rfl⟩
  | closed =>
    simp only [stage] at change
    cases change
  | login =>
    simp only [stage] at change
    split at change
    · cases change
    · split at change
      · cases change
      · split at change <;> cases change
  | addMe2Loop =>
    simp only [stage] at change
    split at change
    · cases change
    · split at change
      · cases change
      · split at change <;> cases change

theorem step_holds (holds : st.Holds us) {e : ExtEvent} (clear : st.Clear cfg e) :
    ∃ us', (st.step cfg e).Holds us' := by
  cases e with
  | command u line =>
    rw [Clear] at clear
    rw [step]
    cases verdict : st.verdict cfg u line.text with
    | ignored => exact ⟨us, holds⟩
    | refused =>
      rw [verdict] at clear
      exact close_holds holds fun _ => clear
    | first =>
      rw [verdict] at clear
      exact ⟨us, first_holds holds clear line⟩
    | change =>
      rw [verdict] at clear
      obtain ⟨added, i, info⟩ := verdict_change verdict
      rw [stored_some info] at clear
      simp only
      rw [info]
      exact change_holds holds added info line clear.1 clear.2
  | list u =>
    rw [step]
    by_cases login : (st.users u).stage = .login
    · rw [if_pos login]
      exact list_holds holds login (clear login)
    · rw [if_neg login]
      exact ⟨us, holds⟩
  | finish u =>
    rw [step]
    by_cases loop : (st.users u).stage = .addMe2Loop
    · rw [if_pos loop]
      exact ⟨us, finish_holds holds loop⟩
    · rw [if_neg loop]
      exact ⟨us, holds⟩
  | myInfo u long short =>
    rw [step]
    by_cases added : (st.users u).stage = .added
    · rw [if_pos added]
      exact myInfo_holds holds added (clear added)
    · rw [if_neg added]
      exact ⟨us, holds⟩
  | close u => exact close_holds holds clear

theorem init_holds (nick : Nat → Text) : (init nick).Holds [] where
  nodup := List.nodup_nil
  mem u := by simp [init, isListed]
  all := rfl
  closed u i info := by simp [init] at info
  apart := nofun

/-- While no command is taken for the end of another one, the directory is whole. -/
theorem directory_whole (cfg : ExtSettings) (nick : Nat → Text) (es : List ExtEvent)
    (clear : Allowed (step cfg) (Clear cfg) (init nick) es) :
    (run (step cfg) (init nick) es).Whole := by
  have holds : ∃ us, (run (step cfg) (init nick) es).Holds us :=
    allowed_invariant (fun st : ExtState => ∃ us, st.Holds us)
      (fun st e inv ok => inv.elim fun us holds => step_holds holds ok)
      ⟨[], init_holds nick⟩ clear
  obtain ⟨us, holds⟩ := holds
  exact holds.whole

theorem put_other {all : Text} {v : Nat} (h : v ≠ u) : (st.put u user all).users v = st.users v :=
  Function.update_of_ne h _ _

theorem close_other {v : Nat} (h : v ≠ u) : (st.close cfg u).users v = st.users v := by
  rw [close]
  split
  · rfl
  · exact put_other h

theorem step_other {e : ExtEvent} {v : Nat} (h : v ≠ e.user) :
    (st.step cfg e).users v = st.users v := by
  cases e with
  | command u line =>
    rw [step]
    cases st.verdict cfg u line.text with
    | ignored => rfl
    | refused => exact close_other h
    | first => exact put_other h
    | change => exact put_other h
  | list u =>
    rw [step]
    split
    · exact put_other h
    · rfl
  | finish u =>
    rw [step]
    split
    · exact put_other h
    · rfl
  | myInfo u long short =>
    rw [step]
    split <;> rfl
  | close u => exact close_other h

theorem run_other {es : List ExtEvent} {v : Nat} (h : ∀ e ∈ es, v ≠ e.user) :
    (run (step cfg) st es).users v = st.users v := by
  induction es generalizing st with
  | nil => rfl
  | cons e es ih =>
    rw [run_cons, ih fun f hf => h f (List.mem_cons_of_mem _ hf)]
    exact step_other (h e List.mem_cons_self)

/-- In a whole directory there is room for each of the commands. -/
theorem Whole.room (whole : st.Whole) (on : st.isListed u) (some_ : (st.users u).info.isSome) :
    (st.storedExtJson u).length ≤ st.allExtJson.length := by
  obtain ⟨us, -, mem, all⟩ := whole
  have part : st.storedExtJson u ∈ us.map st.storedExtJson :=
    List.mem_map_of_mem ((mem u).2 ⟨on, some_⟩)
  rw [all]
  exact (List.sublist_flatten_of_mem part).length_le

/-! ## Two users -/

theorem closed_of_ends {w : Text} (h : closingPipe ∉ w.dropLast) (last : w.getLast? = some closingPipe) :
    Closed closingPipe w := by
  refine ⟨w.dropLast, h, ?_⟩
  rw [List.getLast?_eq_some_iff] at last
  obtain ⟨v, rfl⟩ := last
  simp

/-- The nicks of two users. -/
def nicks (u : Nat) : Text := if u = 0 then ascii "a" else ascii "b"

/-- A JSON parser that takes what the two send at the login. -/
def settings : ExtSettings := ⟨.long, 256, fun _ => true⟩

def firstLine : ExtLine :=
  ⟨ascii "$ExtJSON a \x7b\"Gender\":1\x7d|", closed_of_ends (by decide) (by decide)⟩

def otherLine : ExtLine :=
  ⟨ascii "$ExtJSON b \x7b\"k\":\"$ExtJSON a \x7b\x7d\"\x7d|", closed_of_ends (by decide)
    (by decide)⟩

def changedLine : ExtLine :=
  ⟨ascii "$ExtJSON a \x7b\x7d\"\x7d|", closed_of_ends (by decide) (by decide)⟩

/-- The end of the command of `b` is taken for the command of `a`, and goes with it. -/
theorem directory_cut : ¬ (run (step settings) (init nicks)
    [.command 1 otherLine, .list 1, .finish 1, .command 0 firstLine, .list 0, .finish 0,
      .command 0 changedLine, .close 0]).Whole := by
  intro whole
  have room := whole.room (u := 1) (by decide +kernel) (by decide +kernel)
  exact absurd room (by decide +kernel)

theorem clear_first {line : ExtLine} (first : st.verdict cfg u line.text = .first)
    (login : (st.users u).stage = .login) : st.Clear cfg (.command u line) := by
  rw [Clear, first]
  exact login

/-- While there are only two users, one is alone if the other's command doesn't end the same. -/
theorem alone_of_two (es : List ExtEvent) {nick : Nat → Text} {u : Nat} (v : Nat) {text : Text}
    (only : ∀ e ∈ es, e.user = u ∨ e.user = v)
    (differs : ∀ i, ((run (step cfg) (init nick) es).users v).info = some i →
      ¬ text <:+ i.extJson) : (run (step cfg) (init nick) es).Alone u text := by
  intro w other on i info
  by_cases same : w = v
  · exact differs i (same ▸ info)
  · have untouched : (run (step cfg) (init nick) es).users w = (init nick).users w := by
      apply run_other
      intro e he eq
      rcases only e he with h | h
      · exact other (eq.trans h)
      · exact same (eq.trans h)
    rw [isListed, untouched] at on
    cases on

theorem whole_of_two : (run (step settings) (init nicks)
    [.command 0 firstLine, .list 0, .command 1 otherLine, .list 1, .close 0]).Whole := by
  refine directory_whole settings nicks _ ⟨?_, ?_, ?_, ?_, ?_, trivial⟩
  · exact clear_first (by decide +kernel) rfl
  · rintro - i ⟨⟩
    have alone : (run (step settings) (init nicks) [.command 0 firstLine]).Alone 0
        firstLine.text := alone_of_two _ 1 (by decide) (by decide +kernel)
    exact alone
  · exact clear_first (by decide +kernel) (by decide +kernel)
  · rintro - i ⟨⟩
    have alone : (run (step settings) (init nicks)
        [.command 0 firstLine, .list 0, .command 1 otherLine]).Alone 1 otherLine.text :=
      alone_of_two _ 0 (by decide) (by decide +kernel)
    exact alone
  · rintro - i ⟨⟩
    have alone : (run (step settings) (init nicks)
        [.command 0 firstLine, .list 0, .command 1 otherLine, .list 1]).Alone 0 firstLine.text :=
      alone_of_two _ 1 (by decide) (by decide +kernel)
    exact alone

end ExtState

end FlyHub.Lists
