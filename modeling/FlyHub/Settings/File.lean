import FlyHub.Lib.Lines
import FlyHub.Settings.Values

/-!
# The settings on disk

The settings are written line by line, those with their default as comments, and read back when
the hub starts. They come back as they were unless a text has a line end or a NUL in it.
-/

namespace FlyHub.Settings

open FlyHub.Lib FlyHub.Lists

/-- What is a space where the hub runs. -/
structure Locale where
  isspace : UInt8 → Bool
  tab : isspace 9 = true
  equals : isspace 61 = false
  alnum : ∀ c, isAlnum c = true → isspace c = false

/-- The comment of each setting: one line, or nothing. -/
structure Comments where
  com : Key → Text
  line : ∀ k, com k = [] ∨ ∃ body, 10 ∉ body ∧ com k = 35 :: body ++ [10]
  short : ∀ k, (com k).length ≤ 1024

/-- The text begins with a number that fits in 32 bits. -/
def safeStoi (s : Text) : Option Int :=
  let minus : Bool := s.head? = some 45
  let digits := (if minus then s.tail else s).takeWhile isDigit
  let n : Int := if minus then -(number digits : Int) else number digits
  if digits = [] || n < -2147483648 || 2147483647 < n then none else some n

def maxMotdLen : Nat := 65024

/-- The buffer has 262144 characters, one of them for the end of the text. -/
def room : Nat := 262142

def checkMotd (sMOTD : Text) : Text := sMOTD.map fun c => if c = 124 then 48 else c

def loadMotd : Option Text → Text
  | some sData => checkMotd (sData.take maxMotdLen)
  | none => checkMotd (ascii "Welcome to PtokaX")

def setMotd (sMOTD sTxt : Text) : Text :=
  if sMOTD = sTxt then sMOTD else checkMotd (sTxt.take maxMotdLen)

namespace Values

section
variable (locale : Locale) (languages : Languages) (comments : Comments) (v : Values)

def checkAndSet (sName sValue : Text) : Values :=
  match keys.find? (·.name = sName) with
  | none => v
  | some (.bool id) => v.setBool id (sValue.head? = some 49)
  | some (.short id) =>
    match safeStoi sValue with
    | none => v
    | some iValue =>
      if sValue = [] || iValue < 0 || 32767 < iValue then v else v.setShort id iValue
  | some (.text id) => v.setText languages id sValue

/-- One line of the file. A line that starts with NUL has the program write outside of its buffer:
then nothing is known. -/
def loadLine (buffer : Text) : Option Values :=
  if buffer.head? = some 35 || buffer.head? = some 10 then some v
  else if cText buffer = [] then none
  else
    let line := (cText buffer).dropLast
    let front := line.takeWhile (· ≠ 61)
    match line.dropWhile (· ≠ 61) with
    | [] => some v
    | equals :: rest =>
      let sValue := if rest.head?.any locale.isspace then rest.tail else rest
      -- The spaces before the sign end the name, and the sign does not.
      let sName := cText (front.map (fun c => if locale.isspace c then 0 else c) ++ equals :: rest)
      some (if sName = [] then v else v.checkAndSet languages sName sValue)

def load (file : Text) : Option Values :=
  (pieces 10 room room file).foldlM (fun v buffer => v.loadLine locale languages buffer) v

def isDefault : Key → Bool
  | .bool id => v.bools id = id.dflt
  | .short id => v.shorts id = id.dflt
  | .text id => v.texts id = ascii id.dflt

/-- The value as it is written. A number is not negative. -/
def shown : Key → Text
  | .bool id => if v.bools id then [49] else [48]
  | .short id => decimal (v.shorts id).toNat
  | .text id => cText (v.texts id)

def saveKey (k : Key) : Text :=
  comments.com k ++
    if k.str = "" then []
    else (if v.isDefault k then [35] else []) ++ (k.name ++ (ascii "\t=\t" ++ (v.shown k ++ [10])))

def save : Text :=
  ascii "#\n# PtokaX settings file\n#\n" ++
  (ascii "\n#\n# Boolean settings\n#\n\n" ++
  (SetBoolIds.ids.flatMap (fun id => v.saveKey comments (.bool id)) ++
  (ascii "\n#\n# Integer settings\n#\n\n" ++
  (SetShortIds.ids.flatMap (fun id => v.saveKey comments (.short id)) ++
  (ascii "\n#\n# String settings\n#\n\n" ++
  SetTxtIds.ids.flatMap (fun id => v.saveKey comments (.text id)))))))

end

end Values

/-- The settings and the welcome text. -/
structure SettingManager where
  values : Values
  motd : Text

structure Files where
  motd : Option Text
  settings : Text

/-- What is asked of the hub: `restart` has it read files that anyone may have changed. -/
inductive Event where
  | set (e : SetEvent)
  | setMotd (sTxt : Text)
  | restart (files : Files)

namespace SettingManager

variable (locale : Locale) (languages : Languages) (comments : Comments)

def start (files : Files) : Option SettingManager :=
  ((Values.ofDefaults languages).load locale languages files.settings).map
    fun values => ⟨values, loadMotd files.motd⟩

def files (s : SettingManager) : Files := ⟨some s.motd, s.values.save comments⟩

def step (s : SettingManager) : Event → Option SettingManager
  | .set e => some { s with values := s.values.step languages e }
  | .setMotd sTxt => some { s with motd := Settings.setMotd s.motd sTxt }
  | .restart files => start locale languages files

end SettingManager

namespace Values

variable {locale : Locale} {languages : Languages} {comments : Comments} {v w : Values} {k : Key}

/-! ## What a file can do -/

theorem valid_checkAndSet (valid : v.Valid languages) (sName sValue : Text) :
    (v.checkAndSet languages sName sValue).Valid languages := by
  unfold checkAndSet
  split
  · exact valid
  · exact valid_setBool valid ..
  · split
    · exact valid
    · split
      · exact valid
      · rename_i fits
        simp only [Bool.or_eq_true, decide_eq_true_eq, not_or, Int.not_lt] at fits
        exact valid_setShort valid _ fits.2
  · exact valid_setText valid ..

theorem prefix_dropLast {p s : Text} (h : p <+: s) : p.dropLast <+: s.dropLast := by
  obtain ⟨t, rfl⟩ := h
  by_cases none : t = []
  · subst none
    simp
  · rw [List.dropLast_append_of_ne_nil none]
    exact (List.dropLast_prefix p).trans (List.prefix_append ..)

/-- What a line does to the settings, if it does not stop the program: nothing, or one setting is
set by its name. -/
theorem loadLine_cases {buffer : Text} (inner : 10 ∉ buffer.dropLast)
    (loaded : v.loadLine locale languages buffer = some w) :
    w = v ∨ ∃ sName sValue, sName ≠ [] ∧ 10 ∉ sValue ∧ 0 ∉ sValue ∧
      w = v.checkAndSet languages sName sValue := by
  unfold loadLine at loaded
  split at loaded
  · exact .inl (Option.some.inj loaded).symm
  split at loaded
  · cases loaded
  have clean : ∀ c, c ∈ (cText buffer).dropLast → c ≠ 10 ∧ c ≠ 0 := by
    intro c mem
    have cut : (cText buffer).dropLast <+: buffer.dropLast :=
      prefix_dropLast (List.takeWhile_prefix _)
    exact ⟨fun eq => inner (eq ▸ cut.subset mem),
      fun eq => zero_not_mem_cText buffer (eq ▸ List.dropLast_subset _ mem)⟩
  simp only at loaded
  split at loaded
  · exact .inl (Option.some.inj loaded).symm
  rename_i equals rest found
  have part : ∀ c ∈ rest, c ≠ 10 ∧ c ≠ 0 := fun c mem =>
    clean c ((List.dropWhile_suffix _).subset (by rw [found]; exact List.mem_cons_of_mem _ mem))
  have value : ∀ c ∈ (if rest.head?.any locale.isspace then rest.tail else rest),
      c ≠ 10 ∧ c ≠ 0 := by
    intro c mem
    split at mem
    · exact part c (List.mem_of_mem_tail mem)
    · exact part c mem
  have eq := (Option.some.inj loaded).symm
  split at eq
  · exact .inl eq
  · rename_i named
    exact .inr ⟨_, _, named, fun mem => (value 10 mem).1 rfl, fun mem => (value 0 mem).2 rfl, eq⟩

/-- What setting any value by its name keeps holds of the settings that are loaded. -/
theorem load_invariant {Inv : Values → Prop}
    (kept : ∀ v sName sValue, sName ≠ [] → 10 ∉ sValue → 0 ∉ sValue → Inv v →
      Inv (v.checkAndSet languages sName sValue))
    (hv : Inv v) {file : Text} (loaded : v.load locale languages file = some w) : Inv w := by
  refine foldlM_invariant Inv (fun v buffer w mem inv line => ?_) hv loaded
  rcases loadLine_cases (stop_not_mem_dropLast buffer mem) line with
    rfl | ⟨sName, sValue, named, noLine, noNul, rfl⟩
  · exact inv
  · exact kept v sName sValue named noLine noNul inv

/-! ## What a line of the file brings back -/

theorem name_ne_nil (named : k.str ≠ "") : k.name ≠ [] := by
  intro none
  rw [Key.name, ascii, List.map_eq_nil_iff, String.toList_eq_nil_iff] at none
  exact named none

theorem find_name (named : k.str ≠ "") : keys.find? (·.name = k.name) = some k := by
  cases found : keys.find? (·.name = k.name) with
  | none =>
    have := List.find?_eq_none.mp found k (mem_keys k)
    simp at this
  | some l =>
    have same : l.name = k.name := by simpa using List.find?_some found
    have lNamed : l.str ≠ "" := by
      intro none
      refine name_ne_nil named (same ▸ ?_)
      rw [Key.name, none]
      rfl
    rw [name_inj lNamed named same]

theorem decimal_ne_nil (n : Nat) : decimal n ≠ [] := by
  intro none
  have zero : n = 0 := by rw [← number_decimal n, none]; rfl
  subst zero
  cases none

theorem safeStoi_decimal {n : Nat} (small : n ≤ 32767) : safeStoi (decimal n) = some (n : Int) := by
  have digits : (decimal n).takeWhile isDigit = decimal n :=
    List.takeWhile_eq_self_iff.mpr (isDigit_decimal n)
  have noMinus : (decimal n).head? ≠ some 45 := by
    intro minus
    have := isDigit_decimal n 45 (List.mem_of_mem_head? minus)
    exact absurd this (by decide)
  simp only [safeStoi, noMinus, decide_false, Bool.false_eq_true, ↓reduceIte, digits,
    number_decimal, decimal_ne_nil, Bool.false_or]
  rw [if_neg]
  simp only [Bool.or_eq_true, decide_eq_true_eq, not_or]
  omega

/-- Copies the value of one setting. -/
def copy (w v : Values) : Key → Values
  | .bool id => { w with bools := Function.update w.bools id (v.bools id) }
  | .short id => { w with shorts := Function.update w.shorts id (v.shorts id) }
  | .text id => { w with texts := Function.update w.texts id (v.texts id) }

/-- The setting has the same value in both. -/
def Same (v w : Values) : Key → Prop
  | .bool id => v.bools id = w.bools id
  | .short id => v.shorts id = w.shorts id
  | .text id => v.texts id = w.texts id

theorem checkAndSet_bool {id : SetBoolIds} (named : (Key.bool id).str ≠ "") (sValue : Text) :
    w.checkAndSet languages (Key.bool id).name sValue =
      w.setBool id (sValue.head? = some 49) := by
  rw [checkAndSet, find_name named]

theorem checkAndSet_number {id : SetShortIds} (named : (Key.short id).str ≠ "") {n : Nat}
    (small : n ≤ 32767) :
    w.checkAndSet languages (Key.short id).name (decimal n) = w.setShort id n := by
  rw [checkAndSet, find_name named]
  simp only [safeStoi_decimal small]
  rw [if_neg]
  simp only [decimal_ne_nil, decide_false, Bool.false_or, Bool.or_eq_true, decide_eq_true_eq]
  omega

theorem checkAndSet_text {id : SetTxtIds} (named : (Key.text id).str ≠ "") (sValue : Text) :
    w.checkAndSet languages (Key.text id).name sValue = w.setText languages id sValue := by
  rw [checkAndSet, find_name named]

theorem checkAndSet_shown (w : Values) (valid : v.Valid languages) (named : k.str ≠ "")
    (noNul : ∀ id, 0 ∉ v.texts id) :
    w.checkAndSet languages k.name (v.shown k) =
      if k = .short .sameSearchMessages ∧ v.shorts .sameSearchMessages = 0 then w
      else w.copy v k := by
  cases k with
  | bool id =>
    rw [if_neg (by simp), checkAndSet_bool named, setBool, copy, shown]
    cases v.bools id <;> rfl
  | short id =>
    obtain ⟨low, high, accepted⟩ := valid.shorts id
    rw [shown, checkAndSet_number named (by omega), Int.toNat_of_nonneg low, setShort, copy]
    rcases accepted with accepted | ⟨rfl, zero⟩
    · have other : ¬ (Key.short id = .short .sameSearchMessages ∧
          v.shorts .sameSearchMessages = 0) := by
        rintro ⟨eq, zero⟩
        cases eq
        rw [zero] at accepted
        cases accepted
      rw [if_pos accepted, if_neg other]
      split
      · rename_i same
        have eq : w.shorts id = v.shorts id := by simpa [Int.not_lt.mpr low] using same
        rw [← eq, Function.update_eq_self]
      · rfl
    · -- The number that starts below its bounds is written too, and refused again.
      have refused : ¬ SetShortIds.accepts .sameSearchMessages 0 = true := by decide
      rw [zero, if_neg refused, ite_self, if_pos (And.intro rfl rfl)]
  | text id =>
    rw [if_neg (by simp), checkAndSet_text named, shown, cText_of_not_mem (noNul id), setText, copy,
      if_pos (valid.texts id)]
    split
    · rename_i same
      rw [← same, Function.update_eq_self]
    · rfl

/-- The line of a setting, without the `#` of one that has its default. -/
def line (v : Values) (k : Key) : Text := k.name ++ (ascii "\t=\t" ++ (v.shown k ++ [10]))

/-- The line sets the setting to what is shown of it. -/
theorem loadLine_line (w : Values) (named : k.str ≠ "") (noNul : 0 ∉ v.shown k) :
    w.loadLine locale languages (v.line k) =
      some (w.checkAndSet languages k.name (v.shown k)) := by
  have alnum := isAlnum_name named
  have ne : ∀ d, isAlnum d = false → ∀ c ∈ k.name, c ≠ d := by
    rintro d not c mem rfl
    rw [alnum c mem] at not
    cases not
  obtain ⟨c, s, letters⟩ := List.exists_cons_of_ne_nil (name_ne_nil named)
  have mem : c ∈ k.name := letters ▸ List.mem_cons_self
  have first : (v.line k).head? = some c := by rw [line, letters]; rfl
  have setting : ¬ (decide ((v.line k).head? = some 35) || decide ((v.line k).head? = some 10)) =
      true := by
    simp only [first, Option.some.injEq, Bool.or_eq_true, decide_eq_true_eq, not_or]
    exact ⟨ne 35 (by decide) c mem, ne 10 (by decide) c mem⟩
  have whole : cText (v.line k) = v.line k := by
    refine cText_of_not_mem ?_
    simp only [line, List.mem_append, not_or]
    exact ⟨fun mem => ne 0 (by decide) 0 mem rfl, by decide, noNul, by decide⟩
  have cut : (v.line k).dropLast = (k.name ++ [9]) ++ 61 :: 9 :: v.shown k := by
    have : v.line k = ((k.name ++ [9]) ++ 61 :: 9 :: v.shown k) ++ [10] := by
      simp [line, ascii]
    rw [this, List.dropLast_concat]
  have front : ∀ c ∈ k.name ++ [9], decide (c ≠ 61) = true := by
    intro c mem
    rw [decide_eq_true_eq]
    rcases List.mem_append.mp mem with mem | mem
    · exact ne 61 (by decide) c mem
    · rw [List.mem_singleton.mp mem]; decide
  have taken : ((v.line k).dropLast).takeWhile (· ≠ 61) = k.name ++ [9] := by
    rw [cut, List.takeWhile_append_of_pos front]
    simp
  have left : ((v.line k).dropLast).dropWhile (· ≠ 61) = 61 :: 9 :: v.shown k := by
    rw [cut, List.dropWhile_append_of_pos front]
    simp
  -- The tab after the name is where it ends.
  have ended : cText ((k.name ++ [9]).map (fun c => if locale.isspace c then 0 else c) ++
      61 :: 9 :: v.shown k) = k.name := by
    have kept : k.name.map (fun c => if locale.isspace c then 0 else c) = k.name := by
      refine (List.map_congr_left fun c mem => ?_).trans (List.map_id _)
      rw [locale.alnum c (alnum c mem)]
      rfl
    have word : ∀ c ∈ k.name, decide (c ≠ 0) = true := fun c mem =>
      decide_eq_true (ne 0 (by decide) c mem)
    rw [List.map_append, kept, cText, List.append_assoc, List.takeWhile_append_of_pos word]
    simp [locale.tab]
  unfold loadLine
  rw [if_neg setting, whole, if_neg (by rw [line, letters]; simp)]
  simp only [taken, left, ended, List.head?_cons, Option.any_some, locale.tab, ↓reduceIte,
    List.tail_cons, name_ne_nil named]

/-! ## The lines of the file -/

theorem loadLine_skip {buffer : Text}
    (skipped : buffer.head? = some 35 ∨ buffer.head? = some 10) (w : Values) :
    w.loadLine locale languages buffer = some w := by
  rw [loadLine, if_pos]
  rw [Bool.or_eq_true, decide_eq_true_eq, decide_eq_true_eq]
  exact skipped

def keyLines (comments : Comments) (v : Values) (k : Key) : List Text :=
  (if comments.com k = [] then [] else [comments.com k]) ++
    if k.str = "" then [] else [(if v.isDefault k then [35] else []) ++ v.line k]

theorem saveKey_eq (comments : Comments) (v : Values) (k : Key) :
    v.saveKey comments k = (v.keyLines comments k).flatten := by
  have comment : (if comments.com k = [] then [] else [comments.com k]).flatten =
      comments.com k := by
    split
    · rename_i none
      rw [none]; rfl
    · exact List.append_nil _
  rw [saveKey, keyLines, List.flatten_append, comment]
  split
  · rfl
  · rw [List.flatten_singleton, line]

/-- The text of no setting has a line end or a NUL in it. -/
def Clean (v : Values) : Prop := ∀ id, 10 ∉ v.texts id ∧ 0 ∉ v.texts id

theorem not_mem_shown (clean : v.Clean) (k : Key) : 10 ∉ v.shown k ∧ 0 ∉ v.shown k := by
  cases k with
  | bool id =>
    rw [shown]
    split <;> decide
  | short id =>
    have digits := isDigit_decimal (v.shorts id).toNat
    exact ⟨fun mem => absurd (digits 10 mem) (by decide),
      fun mem => absurd (digits 0 mem) (by decide)⟩
  | text id =>
    rw [shown, cText_of_not_mem (clean id).2]
    exact clean id

theorem name_length (k : Key) : k.name.length ≤ 64 := by
  have all : (keys.all fun k => k.name.length ≤ 64) = true := by decide +kernel
  simpa using List.all_eq_true.mp all k (mem_keys k)

theorem accepts_length {id : SetTxtIds} {sTxt : Text} (accepted : id.accepts languages sTxt = true)
    (noNul : 0 ∉ sTxt) : sTxt.length ≤ 4096 := by
  by_cases language : id = .language
  · subst language
    simp only [SetTxtIds.accepts, Bool.or_eq_true, decide_eq_true_eq] at accepted
    rcases accepted with rfl | exist
    · exact Nat.zero_le _
    · exact languages.short sTxt exist noNul
  · cases id <;> first
      | exact absurd rfl language
      | (simp only [SetTxtIds.accepts, Bool.and_eq_true, decide_eq_true_eq] at accepted; omega)

theorem shown_length (valid : v.Valid languages) (clean : v.Clean) (k : Key) :
    (v.shown k).length ≤ 4096 := by
  cases k with
  | bool id =>
    rw [shown]
    split <;> exact Nat.le_add_left 1 4095
  | short id =>
    have fits : (v.shorts id).toNat < Nat.pow 2 64 :=
      Nat.lt_of_le_of_lt (by have := (valid.shorts id).2.1; omega : _ ≤ 32767) (by decide)
    exact (decimal_length fits).trans (by decide)
  | text id =>
    rw [shown, cText_of_not_mem (clean id).2]
    exact accepts_length (valid.texts id) (clean id).2

/-- A line of the file: it ends with its only line end and fits in the buffer. -/
def Fits (e : Text) : Prop := Closed 10 e ∧ e.length ≤ room + 1

theorem fits_keyLines (valid : v.Valid languages) (clean : v.Clean) (k : Key) :
    ∀ e ∈ v.keyLines comments k, Fits e := by
  intro e mem
  rcases List.mem_append.mp mem with mem | mem
  · split at mem
    · cases mem
    · rename_i some_
      obtain rfl := List.mem_singleton.mp mem
      rcases comments.line k with none | ⟨body, noLine, eq⟩
      · exact absurd none some_
      · refine ⟨⟨35 :: body, ?_, eq⟩, (comments.short k).trans (by decide)⟩
        rw [List.mem_cons, not_or]
        exact ⟨by decide, noLine⟩
  · split at mem
    · cases mem
    · rename_i named
      obtain rfl := List.mem_singleton.mp mem
      have noLine : 10 ∉ k.name := fun mem => absurd (isAlnum_name named 10 mem) (by decide)
      have shown := not_mem_shown clean k
      refine ⟨⟨(if v.isDefault k then [35] else []) ++ (k.name ++ (ascii "\t=\t" ++ v.shown k)),
        ?_, by simp [line]⟩, ?_⟩
      · simp only [List.mem_append, not_or]
        refine ⟨?_, noLine, by decide, shown.1⟩
        split <;> decide
      · have name := name_length k
        have value := shown_length valid clean k
        have sign : (ascii "\t=\t").length = 3 := by decide
        have hash : (if v.isDefault k then [(35 : UInt8)] else []).length ≤ 1 := by
          split <;> decide
        simp only [line, List.length_append, List.length_singleton, room, sign]
        omega

/-! ## What the file brings back -/

/-- The value is written as one to be read, and taken when it is. -/
def Restored (v : Values) (k : Key) : Prop :=
  k.str ≠ "" ∧ v.isDefault k = false ∧
    ¬ (k = .short .sameSearchMessages ∧ v.shorts .sameSearchMessages = 0)

instance (v : Values) (k : Key) : Decidable (v.Restored k) :=
  inferInstanceAs (Decidable (_ ∧ _ ∧ _))

def restore (v w : Values) (k : Key) : Values := if v.Restored k then w.copy v k else w

theorem loadLine_keyLines (valid : v.Valid languages) (clean : v.Clean) (k : Key) (w : Values) :
    (v.keyLines comments k).foldlM (fun w e => w.loadLine locale languages e) w =
      some (restore v w k) := by
  have comment : (if comments.com k = [] then [] else [comments.com k]).foldlM
      (fun w e => loadLine locale languages w e) w = some w := by
    split
    · rfl
    · rename_i some_
      obtain ⟨body, -, eq⟩ := (comments.line k).resolve_left some_
      rw [List.foldlM_cons, loadLine_skip (.inl (by rw [eq]; rfl))]
      rfl
  rw [keyLines, List.foldlM_append, comment, Option.bind_eq_bind, Option.bind_some, restore]
  by_cases named : k.str = ""
  · rw [if_pos named, if_neg fun restored : v.Restored k => restored.1 named]
    rfl
  rw [if_neg named, List.foldlM_cons]
  by_cases default_ : v.isDefault k = true
  · rw [if_pos default_, loadLine_skip (.inl rfl), if_neg]
    · rfl
    · rintro ⟨-, other, -⟩
      rw [default_] at other
      cases other
  · rw [if_neg default_, List.nil_append, loadLine_line w named (not_mem_shown clean k).2,
      checkAndSet_shown w valid named fun id => (clean id).2]
    rw [Bool.not_eq_true] at default_
    by_cases zero : k = .short .sameSearchMessages ∧ v.shorts .sameSearchMessages = 0
    · rw [if_pos zero, if_neg fun restored : v.Restored k => restored.2.2 zero]
      rfl
    · rw [if_neg zero, if_pos (show v.Restored k from ⟨named, default_, zero⟩)]
      rfl

/-- A part of the file: lines that are skipped, and the lines of some settings. -/
def section_ (comments : Comments) (v : Values) (head : List Text) (ks : List Key) : List Text :=
  head ++ ks.flatMap (v.keyLines comments)

theorem load_section (valid : v.Valid languages) (clean : v.Clean) {head : List Text}
    (skipped : ∀ e ∈ head, e.head? = some 35 ∨ e.head? = some 10) (ks : List Key) (w : Values) :
    (section_ comments v head ks).foldlM (fun w e => w.loadLine locale languages e) w =
      some (ks.foldl (restore v) w) := by
  have skip : head.foldlM (fun w e => loadLine locale languages w e) w = some w := by
    induction head with
    | nil => rfl
    | cons e head ih =>
      rw [List.forall_mem_cons] at skipped
      rw [List.foldlM_cons, loadLine_skip skipped.1]
      exact ih skipped.2
  rw [section_, List.foldlM_append, skip, Option.bind_eq_bind, Option.bind_some]
  clear skip
  induction ks generalizing w with
  | nil => rfl
  | cons k ks ih =>
    rw [List.flatMap_cons, List.foldlM_append, loadLine_keyLines valid clean, Option.bind_eq_bind,
      Option.bind_some, ih, List.foldl_cons]

def boolHead : List Text :=
  [ascii "#\n", ascii "# PtokaX settings file\n", ascii "#\n", ascii "\n", ascii "#\n",
    ascii "# Boolean settings\n", ascii "#\n", ascii "\n"]

def shortHead : List Text :=
  [ascii "\n", ascii "#\n", ascii "# Integer settings\n", ascii "#\n", ascii "\n"]

def textHead : List Text :=
  [ascii "\n", ascii "#\n", ascii "# String settings\n", ascii "#\n", ascii "\n"]

def lines (comments : Comments) (v : Values) : List Text :=
  section_ comments v boolHead (SetBoolIds.ids.map .bool) ++
  (section_ comments v shortHead (SetShortIds.ids.map .short) ++
  section_ comments v textHead (SetTxtIds.ids.map .text))

theorem section_flatten {Id : Type*} (head : List Text) (key : Id → Key) (ids : List Id) :
    (section_ comments v head (ids.map key)).flatten =
      head.flatten ++ ids.flatMap fun id => v.saveKey comments (key id) := by
  rw [section_, List.flatten_append]
  congr 1
  induction ids with
  | nil => rfl
  | cons id ids ih =>
    rw [List.map_cons, List.flatMap_cons, List.flatten_append, ih, List.flatMap_cons, saveKey_eq]

theorem save_eq (comments : Comments) (v : Values) :
    v.save comments = (v.lines comments).flatten := by
  have bool : boolHead.flatten =
      ascii "#\n# PtokaX settings file\n#\n" ++ ascii "\n#\n# Boolean settings\n#\n\n" := by decide
  have short : shortHead.flatten = ascii "\n#\n# Integer settings\n#\n\n" := by decide
  have text : textHead.flatten = ascii "\n#\n# String settings\n#\n\n" := by decide
  rw [lines, List.flatten_append, List.flatten_append, section_flatten, section_flatten,
    section_flatten, bool, short, text, save]
  simp only [List.append_assoc]

instance (stop : UInt8) (e : Text) : Decidable (Closed stop e) :=
  decidable_of_iff (e.getLast? = some stop ∧ stop ∉ e.dropLast) (by
    constructor
    · rintro ⟨last, inner⟩
      refine ⟨e.dropLast, inner, (List.dropLast_append_getLast? stop last).symm⟩
    · rintro ⟨body, inner, rfl⟩
      exact ⟨List.getLast?_concat .., by rwa [List.dropLast_concat]⟩)

instance (e : Text) : Decidable (Fits e) := inferInstanceAs (Decidable (_ ∧ _))

theorem fits_lines (valid : v.Valid languages) (clean : v.Clean) :
    ∀ e ∈ v.lines comments, Fits e := by
  have part : ∀ head ks, (∀ e ∈ head, Fits e) → ∀ e ∈ section_ comments v head ks, Fits e := by
    intro head ks fits e mem
    rcases List.mem_append.mp mem with mem | mem
    · exact fits e mem
    · obtain ⟨k, -, mem⟩ := List.mem_flatMap.mp mem
      exact fits_keyLines valid clean k e mem
  intro e mem
  rcases List.mem_append.mp mem with mem | mem
  · exact part boolHead _ (by decide) e mem
  rcases List.mem_append.mp mem with mem | mem
  · exact part shortHead _ (by decide) e mem
  · exact part textHead _ (by decide) e mem

/-- What is saved sets the settings one after the other. -/
theorem load_save_eq (valid : v.Valid languages) (clean : v.Clean) (w : Values) :
    w.load locale languages (v.save comments) = some (keys.foldl (restore v) w) := by
  have fits : ∀ e ∈ v.lines comments, Fits e := fits_lines valid clean
  rw [load, save_eq, pieces_lines (fun e mem => (fits e mem).1) fun e mem => (fits e mem).2, lines,
    List.foldlM_append, load_section valid clean (by decide), Option.bind_eq_bind,
    Option.bind_some, List.foldlM_append, load_section valid clean (by decide),
    Option.bind_eq_bind, Option.bind_some, load_section valid clean (by decide), keys,
    List.foldl_append, List.foldl_append]

theorem copy_same {k' : Key} (known : w.Same v k ∨ k = k') : (w.copy v k').Same v k := by
  have field : ∀ {Id α : Type} [DecidableEq Id] {f g : Id → α} {id id' : Id},
      f id = g id ∨ id = id' → Function.update f id' (g id') id = g id := by
    intro Id α _ f g id id' known
    by_cases eq : id = id'
    · subst eq
      exact Function.update_self ..
    · rw [Function.update_of_ne eq]
      exact known.resolve_right eq
  cases k' with
  | bool id' =>
    cases k with
    | bool id => exact field (known.imp_right Key.bool.inj)
    | short id | text id => exact known.resolve_right (by simp)
  | short id' =>
    cases k with
    | short id => exact field (known.imp_right Key.short.inj)
    | bool id | text id => exact known.resolve_right (by simp)
  | text id' =>
    cases k with
    | text id => exact field (known.imp_right Key.text.inj)
    | bool id | short id => exact known.resolve_right (by simp)

theorem same_restore {k' : Key} (known : w.Same v k ∨ k = k' ∧ v.Restored k) :
    (restore v w k').Same v k := by
  unfold restore
  split
  · exact copy_same (known.imp_right And.left)
  · rename_i not
    exact known.resolve_right fun h => not (h.1 ▸ h.2)

theorem same_foldl {ks : List Key} (known : w.Same v k ∨ k ∈ ks ∧ v.Restored k) :
    (ks.foldl (restore v) w).Same v k := by
  induction ks generalizing w with
  | nil => exact known.resolve_right fun h => absurd h.1 List.not_mem_nil
  | cons k' ks ih =>
    refine ih ?_
    rcases known with same | ⟨mem, restored⟩
    · exact .inl (same_restore (.inl same))
    · rcases List.mem_cons.mp mem with eq | mem
      · exact .inl (same_restore (.inr ⟨eq, restored⟩))
      · exact .inr ⟨mem, restored⟩

theorem eq_of_same (same : ∀ k, w.Same v k) : w = v := by
  obtain ⟨bools, shorts, texts⟩ := w
  have b : bools = v.bools := funext fun id => same (.bool id)
  have s : shorts = v.shorts := funext fun id => same (.short id)
  have t : texts = v.texts := funext fun id => same (.text id)
  rw [b, s, t]

/-- The settings come back from a file with what was saved of them. A setting without a name is
not saved. -/
def Kept (v : Values) : Prop :=
  v.Clean ∧ ∀ id : SetBoolIds, id.str = "" → v.bools id = id.dflt

theorem same_ofDefaults (valid : v.Valid languages) (kept : v.Kept) (notRestored : ¬ v.Restored k) :
    (ofDefaults languages).Same v k := by
  have short (id : SetShortIds) : id.str ≠ "" := by cases id <;> decide
  have text (id : SetTxtIds) : id.str ≠ "" := by cases id <;> decide
  cases k with
  | bool id =>
    refine (ofDefaults_bools languages id).trans ?_
    by_cases named : id.str = ""
    · exact (kept.2 id named).symm
    · by_contra other
      refine notRestored ⟨named, ?_, by simp⟩
      simpa [isDefault, eq_comm] using other
  | short id =>
    by_cases same : id = .sameSearchMessages
    · subst same
      refine (ofDefaults_sameSearch languages).trans ?_
      by_contra other
      refine notRestored ⟨short .sameSearchMessages, ?_, fun zero => other zero.2.symm⟩
      rcases (valid.shorts .sameSearchMessages).2.2 with accepted | zero
      · have one : v.shorts .sameSearchMessages ≠ 1 := by
          intro one
          rw [one] at accepted
          cases accepted
        exact decide_eq_false one
      · exact absurd zero.2.symm other
    · refine (ofDefaults_shorts languages same).trans ?_
      by_contra other
      refine notRestored ⟨short id, ?_, by simp [same]⟩
      simpa [isDefault, eq_comm] using other
  | text id =>
    refine (ofDefaults_texts languages id).trans ?_
    by_contra other
    refine notRestored ⟨text id, ?_, by simp⟩
    simpa [isDefault, eq_comm] using other

theorem kept_checkAndSet {sName sValue : Text} (named : sName ≠ []) (noLine : 10 ∉ sValue)
    (noNul : 0 ∉ sValue) (kept : v.Kept) : (v.checkAndSet languages sName sValue).Kept := by
  obtain ⟨clean, unnamed⟩ := kept
  unfold checkAndSet
  split
  · exact ⟨clean, unnamed⟩
  · rename_i id found
    have name : (Key.bool id).name = sName := by simpa using List.find?_some found
    refine ⟨clean, fun id' none => ?_⟩
    rw [setBool_of_ne _ _]
    · exact unnamed id' none
    · rintro rfl
      refine named (name ▸ ?_)
      rw [Key.name, Key.str, none]
      rfl
  · split
    · exact ⟨clean, unnamed⟩
    · split
      · exact ⟨clean, unnamed⟩
      · rw [Kept, Clean, setShort_texts, setShort_bools]
        exact ⟨clean, unnamed⟩
  · rename_i id found
    refine ⟨fun id' => ?_, by rw [setText_bools]; exact unnamed⟩
    by_cases same : id' = id
    · subst same
      rw [setText_self]
      split
      · exact ⟨noLine, noNul⟩
      · exact clean id'
    · rw [setText_of_ne same]
      exact clean id'

theorem kept_ofDefaults (languages : Languages) : (ofDefaults languages).Kept := by
  refine ⟨fun id => ?_, fun id _ => ofDefaults_bools languages id⟩
  rw [ofDefaults_texts]
  cases id <;> decide

end Values

namespace SettingManager

variable {locale : Locale} {languages : Languages} {comments : Comments}

structure Valid (languages : Languages) (s : SettingManager) : Prop where
  values : s.values.Valid languages
  motdLength : s.motd.length ≤ maxMotdLen
  motdPipe : 124 ∉ s.motd

theorem pipe_not_mem_checkMotd (sMOTD : Text) : 124 ∉ checkMotd sMOTD := by
  intro mem
  obtain ⟨c, -, eq⟩ := List.mem_map.mp mem
  split at eq
  · cases eq
  · rename_i other
    exact other eq

theorem checkMotd_eq {sMOTD : Text} (clean : 124 ∉ sMOTD) : checkMotd sMOTD = sMOTD := by
  refine (List.map_congr_left fun c mem => if_neg ?_).trans (List.map_id _)
  rintro rfl
  exact clean mem

theorem checkMotd_take (sTxt : Text) : (checkMotd (sTxt.take maxMotdLen)).length ≤ maxMotdLen := by
  rw [checkMotd, List.length_map]
  exact List.length_take_le ..

theorem valid_start {files : Files} {s : SettingManager}
    (started : start locale languages files = some s) : s.Valid languages := by
  rw [start, Option.map_eq_some_iff] at started
  obtain ⟨values, loaded, rfl⟩ := started
  refine ⟨?_, ?_, ?_⟩
  · exact Values.load_invariant (fun v sName sValue _ _ _ valid =>
      Values.valid_checkAndSet valid sName sValue) (Values.valid_ofDefaults languages) loaded
  · cases files.motd with
    | none => exact (by decide : (checkMotd (ascii "Welcome to PtokaX")).length ≤ 65024)
    | some sData => exact checkMotd_take sData
  · cases files.motd with
    | none => exact pipe_not_mem_checkMotd _
    | some sData => exact pipe_not_mem_checkMotd _

theorem valid_step {s s' : SettingManager} (valid : s.Valid languages) {e : Event}
    (stepped : s.step locale languages e = some s') : s'.Valid languages := by
  cases e with
  | set e =>
    obtain rfl := Option.some.inj stepped
    exact ⟨Values.valid_step valid.values e, valid.motdLength, valid.motdPipe⟩
  | setMotd sTxt =>
    obtain rfl := Option.some.inj stepped
    simp only [setMotd]
    split
    · exact valid
    · exact ⟨valid.values, checkMotd_take sTxt, pipe_not_mem_checkMotd _⟩
  | restart files => exact valid_start stepped

theorem start_files {s : SettingManager} (valid : s.Valid languages) :
    start locale languages (s.files comments) = some s ↔ s.values.Kept := by
  have motd : loadMotd (some s.motd) = s.motd := by
    rw [loadMotd, List.take_of_length_le valid.motdLength, checkMotd_eq valid.motdPipe]
  rw [start, files, motd]
  constructor
  · intro back
    obtain ⟨values, loaded, eq⟩ := Option.map_eq_some_iff.mp back
    have same : values = s.values := congrArg SettingManager.values eq
    rw [← same]
    exact Values.load_invariant (fun v sName sValue named noLine noNul kept =>
      Values.kept_checkAndSet named noLine noNul kept) (Values.kept_ofDefaults languages) loaded
  · intro kept
    rw [Values.load_save_eq valid.values kept.1, Option.map_some]
    congr 2
    refine Values.eq_of_same fun k => Values.same_foldl ?_
    by_cases restored : s.values.Restored k
    · exact .inr ⟨mem_keys k, restored⟩
    · exact .inl (Values.same_ofDefaults valid.values kept restored)

/-- What a run of the hub reaches. -/
theorem valid_reached (files : Files) {s s' : SettingManager}
    (started : start locale languages files = some s) (es : List Event)
    (reached : es.foldlM (step locale languages) s = some s') : s'.Valid languages :=
  foldlM_invariant (Valid languages) (fun _ _ _ _ valid stepped => valid_step valid stepped)
    (valid_start started) reached

/-- Whatever the files say and whatever is asked for, every value is in its bounds, but for the
one number that starts below them. -/
theorem bounds_run (files : Files) {s s' : SettingManager}
    (started : start locale languages files = some s) (es : List Event)
    (reached : es.foldlM (step locale languages) s = some s') :
    (∀ id : SetShortIds, id.accepts (s'.values.shorts id) = true ∨
      id = .sameSearchMessages ∧ s'.values.shorts id = 0) ∧
    (∀ id : SetTxtIds, id.accepts languages (s'.values.texts id) = true) ∧
    s'.motd.length ≤ maxMotdLen ∧ 124 ∉ s'.motd := by
  have valid := valid_reached files started es reached
  exact ⟨fun id => (valid.values.shorts id).2.2, valid.values.texts, valid.motdLength,
    valid.motdPipe⟩

/-- The hub that is stopped and started again has the settings it had, exactly when no text has a
line end or a NUL in it and no setting without a name was changed. -/
theorem restart_iff (files_ : Files) {s s' : SettingManager}
    (started : start locale languages files_ = some s) (es : List Event)
    (reached : es.foldlM (step locale languages) s = some s') :
    start locale languages (s'.files comments) = some s' ↔ s'.values.Kept :=
  start_files (valid_reached files_ started es reached)

/-- The locale of a program that sets none. -/
def posix : Locale where
  isspace c := c = 32 || 9 ≤ c && c ≤ 13
  tab := by decide
  equals := by decide
  alnum c h := by
    simp only [isAlnum, Bool.or_eq_true, Bool.and_eq_true, decide_eq_true_eq] at h
    simp only [Bool.or_eq_false_iff, decide_eq_false_iff_not, Bool.and_eq_false_iff]
    grind

def noLanguages : Languages := ⟨fun _ => false, by simp⟩

def noComments : Comments := ⟨fun _ => [], fun _ => .inl rfl, fun _ => Nat.zero_le _⟩

/-- The hub that finds no files, and then is given a topic of two lines. -/
def fresh : SettingManager := ⟨Values.ofDefaults noLanguages, loadMotd none⟩

def twoLines : SettingManager :=
  ⟨fresh.values.setText noLanguages .hubTopic (ascii "a\nb"), fresh.motd⟩

theorem start_fresh : start posix noLanguages ⟨none, []⟩ = some fresh := rfl

theorem reached_twoLines :
    [Event.set (.setText .hubTopic (ascii "a\nb"))].foldlM (step posix noLanguages) fresh =
      some twoLines := rfl

theorem bounds_run_twoLines :
    (∀ id : SetTxtIds, id.accepts noLanguages (twoLines.values.texts id) = true) ∧
      124 ∉ twoLines.motd :=
  have bounds := bounds_run _ start_fresh _ reached_twoLines
  ⟨bounds.2.1, bounds.2.2.2⟩

theorem restart_iff_twoLines :
    start posix noLanguages (twoLines.files noComments) ≠ some twoLines := by
  intro back
  have kept := (restart_iff _ start_fresh _ reached_twoLines).mp back
  have topic : twoLines.values.texts .hubTopic = ascii "a\nb" := by
    rw [twoLines, Values.setText_self, if_pos (by decide)]
  exact (kept.1 .hubTopic).1 (by rw [topic]; decide)

end SettingManager

end FlyHub.Settings
