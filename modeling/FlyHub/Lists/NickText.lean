import FlyHub.Text

/-!
# The texts of the nick list and the operator list

A list of nicks is kept as the text `$NickList nick$$nick2$$|` that clients are
sent. A new nick goes over the closing pipe. To delete one the text is searched
for `$nick$`, the blank after the header being a `$` for the time of the search,
so that the first nick is found like the others.
-/

namespace FlyHub.Lists

def dollar : UInt8 := 36

def blank : UInt8 := 32

/-- What no nick may contain: a blank, a `$` or a `|`. -/
def ValidNick (nick : Text) : Prop := ∀ c ∈ nick, c ≠ blank ∧ c ≠ dollar ∧ c ≠ 124

def header (word : Text) : Text := dollar :: word ++ [blank]

def nickListWord : Text := ascii "NickList"

def opListWord : Text := ascii "OpList"

/-- `memmem`: the first place where `p` occurs in `s`. -/
def memmem (p : Text) : Text → Option Nat
  | [] => if p = [] then some 0 else none
  | c :: s => if p.isPrefixOf (c :: s) then some 0 else (memmem p s).map (· + 1)

/-- `Add2NickList`. -/
def add2NickList (list nick : Text) : Text := list.dropLast ++ nick ++ ascii "$$|"

/-- The place of `$nick$` while the byte at `mark` is a `$`. -/
def findNick (mark : Nat) (list nick : Text) : Option Nat :=
  memmem (dollar :: nick ++ [dollar]) (list.set mark dollar)

/-- The text after a search that found nothing: the byte at `mark` is a blank. -/
def restored (mark : Nat) (list : Text) : Text := list.set mark blank

/-- The `memmove` over the nick found at `i`. -/
def cutNick (mark : Nat) (list nick : Text) (i : Nat) : Text :=
  (restored mark list).take (i + 1) ++ (restored mark list).drop (i + nick.length + 3)

/-- What the list is after a deletion. -/
def deleteNick (mark : Nat) (list nick : Text) : Text :=
  match findNick mark list nick with
  | some i => cutNick mark list nick i
  | none => restored mark list

/-- `DelFromNickList`. -/
def delFromNickList (list nick : Text) : Text := deleteNick 9 list nick

/-- What a client makes of the text between two `$$`. -/
def splitPairs : Text → List Text
  | [] => [[]]
  | [c] => [[c]]
  | c :: d :: s =>
    if c = dollar ∧ d = dollar then [] :: splitPairs s
    else
      match splitPairs (d :: s) with
      | [] => [[c]]
      | p :: ps => (c :: p) :: ps

/-- The nicks a client reads in the list. The last piece is the pipe. -/
def readNickList (list : Text) : List Text := (splitPairs (list.drop 10)).dropLast

def body (words : List Text) : Text := words.flatMap fun w => w ++ [dollar, dollar]

/-- The text of the list of `words`. -/
def render (word : Text) (words : List Text) : Text := header word ++ body words ++ ascii "|"

/-- No nick of the list has a `$` in it. -/
def Clean (words : List Text) : Prop := ∀ w ∈ words, dollar ∉ w

theorem ValidNick.clean {nick : Text} (valid : ValidNick nick) : dollar ∉ nick :=
  fun mem => (valid dollar mem).2.1 rfl

@[simp] theorem body_nil : body [] = [] := rfl

@[simp] theorem body_cons (w : Text) (words : List Text) :
    body (w :: words) = w ++ dollar :: dollar :: body words := by
  simp [body]

theorem body_append (xs ys : List Text) : body (xs ++ ys) = body xs ++ body ys := by
  simp [body]

theorem pipe_eq : ascii "|" = [124] := by decide

section
variable {word nick : Text} {words : List Text}

@[simp] theorem header_length : (header word).length = word.length + 2 := by simp [header]

theorem add_render (word nick : Text) (words : List Text) :
    add2NickList (render word words) nick = render word (words ++ [nick]) := by
  have ending : ascii "$$|" = [dollar, dollar, 124] := by decide
  simp [add2NickList, render, body_append, pipe_eq, ending]

theorem splitPairs_word {w : Text} (clean : dollar ∉ w) (s : Text) :
    splitPairs (w ++ dollar :: dollar :: s) = w :: splitPairs s := by
  induction w with
  | nil => simp [splitPairs]
  | cons c w ih =>
    have hc : c ≠ dollar := fun h => clean (h ▸ List.mem_cons_self)
    have rest := ih fun h => clean (List.mem_cons_of_mem _ h)
    cases w with
    | nil => simp_all [splitPairs]
    | cons d w => simp_all [splitPairs]

theorem read_render (clean : Clean words) : readNickList (render nickListWord words) = words := by
  have pieces : splitPairs (body words ++ ascii "|") = words ++ [ascii "|"] := by
    induction words with
    | nil => decide
    | cons w words ih =>
      have rest := ih fun v hv => clean v (List.mem_cons_of_mem _ hv)
      have word := splitPairs_word (clean w List.mem_cons_self) (body words ++ ascii "|")
      simp [word, rest]
  have skip : (render nickListWord words).drop 10 = body words ++ ascii "|" := by
    have len : (header nickListWord).length = 10 := by decide
    simp [render, List.append_assoc, ← len]
  rw [readNickList, skip, pieces, List.dropLast_concat]

/-! ## The search -/

/-- A stretch without `$` is passed over. -/
theorem memmem_skip {w : Text} (clean : dollar ∉ w) (q s : Text) :
    memmem (dollar :: q) (w ++ s) = (memmem (dollar :: q) s).map (· + w.length) := by
  induction w with
  | nil => simp
  | cons c w ih =>
    have hc : c ≠ dollar := fun h => clean (h ▸ List.mem_cons_self)
    have miss : (dollar :: q).isPrefixOf (c :: (w ++ s)) = false := by
      simp [List.isPrefixOf, hc.symm]
    rw [List.cons_append, memmem, miss, ih fun h => clean (List.mem_cons_of_mem _ h)]
    cases memmem (dollar :: q) s with
    | none => rfl
    | some i => simp [Nat.add_assoc]

/-- At a `$` followed by a whole word, only that word is found. -/
theorem prefix_word {w : Text} (clean : dollar ∉ w) (hn : dollar ∉ nick) (s : Text) :
    (dollar :: nick ++ [dollar]).isPrefixOf (dollar :: (w ++ dollar :: s)) = true ↔ w = nick := by
  have core : nick ++ [dollar] <+: w ++ dollar :: s ↔ w = nick := by
    constructor
    · intro h
      induction nick generalizing w with
      | nil =>
        cases w with
        | nil => rfl
        | cons c w =>
          have : dollar = c := by simpa using h
          exact absurd (this ▸ List.mem_cons_self) clean
      | cons a nick ih =>
        cases w with
        | nil =>
          have : a = dollar := by simpa using And.left (by simpa using h)
          exact absurd (this ▸ List.mem_cons_self) hn
        | cons c w =>
          obtain ⟨rfl, rest⟩ : a = c ∧ nick ++ [dollar] <+: w ++ dollar :: s := by
            simpa [List.cons_prefix_cons] using h
          have eq := ih (fun h => clean (List.mem_cons_of_mem _ h))
            (fun h => hn (List.mem_cons_of_mem _ h)) rest
          rw [eq]
    · rintro rfl
      exact ⟨s, by simp⟩
  rw [List.isPrefixOf_iff_prefix]
  simpa [List.cons_prefix_cons] using core

/-- The search over the nicks: it finds the first nick that is equal. -/
theorem memmem_body (clean : Clean words) (hn : dollar ∉ nick) (full : nick ≠ []) :
    memmem (dollar :: nick ++ [dollar]) (dollar :: (body words ++ ascii "|")) =
      if nick ∈ words then some (body (words.takeWhile (· ≠ nick))).length else none := by
  induction words with
  | nil =>
    cases nick with
    | nil => exact absurd rfl full
    | cons a nick => simp [memmem, pipe_eq, List.isPrefixOf]
  | cons w words ih =>
    have cw := clean w List.mem_cons_self
    have rest := ih fun v hv => clean v (List.mem_cons_of_mem _ hv)
    have here := prefix_word cw hn (dollar :: (body words ++ ascii "|"))
    have text : dollar :: (body (w :: words) ++ ascii "|") =
        dollar :: (w ++ dollar :: (dollar :: (body words ++ ascii "|"))) := by simp
    rw [text, memmem]
    by_cases eq : w = nick
    · simp [eq]
    · have miss : (dollar :: nick ++ [dollar]).isPrefixOf
          (dollar :: (w ++ dollar :: (dollar :: (body words ++ ascii "|")))) = false := by
        exact Bool.eq_false_iff.mpr (mt here.mp eq)
      -- The second of two `$` starts no nick either, as the nick is not empty.
      have gap : (dollar :: nick ++ [dollar]).isPrefixOf
          (dollar :: (dollar :: (body words ++ ascii "|"))) = false := by
        have empty := prefix_word (w := []) (by simp) hn (body words ++ ascii "|")
        exact Bool.eq_false_iff.mpr (mt empty.mp full.symm)
      rw [miss]
      simp only [Bool.false_eq_true, if_false, List.cons_append]
      rw [memmem_skip cw, memmem]
      simp only [List.cons_append] at gap rest
      rw [gap]
      simp only [Bool.false_eq_true, if_false]
      rw [rest]
      by_cases mem : nick ∈ words
      · simp [mem, eq, Ne.symm eq]
        omega
      · simp [mem, Ne.symm eq]

/-- During the search every word of the text stands between two `$`. -/
theorem render_marked : (render word words).set (word.length + 1) dollar =
    dollar :: (word ++ dollar :: (body words ++ ascii "|")) := by
  have first : render word words = (dollar :: word) ++ blank :: (body words ++ ascii "|") := by
    simp [render, header]
  rw [first, List.set_append_right _ _ (by simp)]
  simp

@[simp] theorem restored_render : restored (word.length + 1) (render word words) =
    render word words := by
  have first : render word words = (dollar :: word) ++ blank :: (body words ++ ascii "|") := by
    simp [render, header]
  rw [restored, first, List.set_append_right _ _ (by simp)]
  simp

/-- Past the header the search runs over the nicks alone. -/
theorem findNick_render (words : List Text) (clean : dollar ∉ word) (hn : dollar ∉ nick)
    (other : nick ≠ word) :
    findNick (word.length + 1) (render word words) nick =
      (memmem (dollar :: nick ++ [dollar]) (dollar :: (body words ++ ascii "|"))).map
        (· + (word.length + 1)) := by
  have first : (dollar :: nick ++ [dollar]).isPrefixOf
      (dollar :: (word ++ dollar :: (body words ++ ascii "|"))) = false :=
    Bool.eq_false_iff.mpr (mt (prefix_word clean hn _).mp other.symm)
  have skip := memmem_skip clean (nick ++ [dollar]) (dollar :: (body words ++ ascii "|"))
  simp only [List.cons_append] at first skip
  rw [findNick, render_marked, List.cons_append, memmem, first]
  simp only [Bool.false_eq_true, if_false]
  rw [skip, Option.map_map]
  rfl

/-- A nick that is neither empty nor the word of the header is cut out. -/
theorem delete_render (cleanWord : dollar ∉ word) (clean : Clean words) (hn : dollar ∉ nick)
    (full : nick ≠ []) (other : nick ≠ word) :
    deleteNick (word.length + 1) (render word words) nick = render word (words.erase nick) := by
  have found := findNick_render words cleanWord hn other
  rw [memmem_body clean hn full] at found
  by_cases mem : nick ∈ words
  · obtain ⟨pre, post, fresh, rfl, erased⟩ := List.exists_erase_eq mem
    have stops : (pre ++ nick :: post).takeWhile (· ≠ nick) = pre := by
      rw [List.takeWhile_append_of_pos]
      · simp
      · intro w hw
        simpa using fun h : w = nick => fresh (h ▸ hw)
    have text : render word (pre ++ nick :: post) = (header word ++ body pre) ++
        (nick ++ [dollar, dollar]) ++ (body post ++ ascii "|") := by
      simp [render, body_append]
    have len : (header word ++ body pre).length = (body pre).length + (word.length + 1) + 1 := by
      simp
      omega
    have cut : render word (pre ++ post) = (header word ++ body pre) ++ (body post ++ ascii "|") := by
      simp [render, body_append]
    have skip : (body pre).length + (word.length + 1) + nick.length + 3 =
        (header word ++ body pre ++ (nick ++ [dollar, dollar])).length := by
      rw [List.length_append, len]
      simp
      omega
    rw [deleteNick, found, if_pos mem, stops, erased]
    simp only [Option.map_some, cutNick, restored_render]
    rw [text, cut, skip, List.drop_left, List.append_assoc, ← len, List.take_left]
  · rw [deleteNick, found, if_neg mem, List.erase_of_not_mem mem]
    simp

/-! ## The two nicks that are cut wrongly -/

/-- The word of the header is found in the header itself, which is cut away. -/
theorem delete_header (clean : dollar ∉ word) (valid : ∀ w ∈ words, ValidNick w)
    (words' : List Text) :
    deleteNick (word.length + 1) (render word words) word ≠ render word words' := by
  have first : (dollar :: word ++ [dollar]).isPrefixOf
      (dollar :: (word ++ dollar :: (body words ++ ascii "|"))) = true :=
    (prefix_word clean clean _).mpr rfl
  have found : findNick (word.length + 1) (render word words) word = some 0 := by
    simp only [List.cons_append] at first
    rw [findNick, render_marked, List.cons_append, memmem, first, if_pos rfl]
  have noBlank : blank ∉ body words ++ ascii "|" := by
    intro mem
    simp only [body, pipe_eq, List.mem_append, List.mem_flatMap, List.mem_cons,
      List.not_mem_nil, or_false] at mem
    obtain ⟨w, hw, mem | mem⟩ | mem := mem
    · exact (valid w hw _ mem).1 rfl
    · exact absurd mem (by decide)
    · exact absurd mem (by decide)
  have skip : (render word words).drop (word.length + 3) = (body words ++ ascii "|").drop 1 := by
    have text : render word words = header word ++ (body words ++ ascii "|") := by simp [render]
    rw [text, List.drop_append]
    simp [header]
  have start : (render word words).take 1 = [dollar] := by simp [render, header]
  intro eq
  rw [deleteNick, found] at eq
  simp only [cutNick, restored_render, Nat.zero_add, start, skip] at eq
  -- The byte after the word is no longer a blank.
  have at_ := congrArg (fun text : Text => text[word.length + 1]?) eq
  have right : (render word words')[word.length + 1]? = some blank := by
    have text : render word words' = (dollar :: word) ++ blank :: (body words' ++ ascii "|") := by
      simp [render, header]
    rw [text, List.getElem?_append_right (by simp)]
    simp
  simp only [right] at at_
  have mem := List.mem_of_getElem? at_
  rw [List.singleton_append, List.mem_cons] at mem
  cases mem with
  | inl isDollar => exact absurd isDollar (by decide)
  | inr inBody => exact noBlank (List.mem_of_mem_drop inBody)

/-- The empty nick is looked for as `$$`, which also follows the first nick. -/
theorem findNick_empty (clean : dollar ∉ word) (full : word ≠ []) (cleanWords : Clean words) :
    findNick (word.length + 1) (render word words) [] =
      match words with
      | [] => none
      | w :: _ => some (word.length + 1 + if w = [] then 0 else w.length + 1) := by
  have found := findNick_render words clean (List.not_mem_nil) full.symm
  rw [found]
  cases words with
  | nil => simp [memmem, pipe_eq, List.isPrefixOf, dollar]
  | cons w words =>
    have cw := cleanWords w List.mem_cons_self
    cases w with
    | nil => simp [memmem, List.isPrefixOf]
    | cons c w =>
      have hc : dollar ≠ c := fun eq => cw (eq ▸ List.mem_cons_self)
      have miss : (dollar :: [dollar]).isPrefixOf
          (dollar :: ((c :: w) ++ dollar :: dollar :: (body words ++ ascii "|"))) = false := by
        simp [List.isPrefixOf, hc]
      have text : dollar :: (body ((c :: w) :: words) ++ ascii "|") =
          dollar :: ((c :: w) ++ dollar :: dollar :: (body words ++ ascii "|")) := by simp
      have there : memmem [dollar, dollar] (dollar :: dollar :: (body words ++ ascii "|")) = some 0 := by
        simp [memmem, List.isPrefixOf]
      rw [text, List.singleton_append, memmem, miss, memmem_skip cw [dollar], there]
      simp
      omega

theorem delete_empty_first (clean : dollar ∉ word) (full : word ≠ [])
    (cleanWords : Clean ([] :: words)) :
    deleteNick (word.length + 1) (render word ([] :: words)) [] = render word words := by
  have found := findNick_empty clean full cleanWords
  have text : render word ([] :: words) =
      header word ++ ([dollar, dollar] ++ (body words ++ ascii "|")) := by simp [render]
  have start : (render word ([] :: words)).take (word.length + 2) = header word := by
    rw [text, List.take_append_of_le_length (by simp), List.take_of_length_le (by simp)]
  have rest : (render word ([] :: words)).drop (word.length + 4) = body words ++ ascii "|" := by
    rw [text, ← List.append_assoc, List.drop_append_of_le_length (by simp)]
    simp
  simp only [if_true, Nat.add_zero] at found
  rw [deleteNick, found]
  simp only [cutNick, restored_render, List.length_nil, Nat.add_zero]
  rw [start, show word.length + 1 + 3 = word.length + 4 from rfl, rest]
  simp [render]

/-- Otherwise the first `$` after the first nick stays and the byte after the
second one goes. -/
theorem delete_empty_later {w : Text} (clean : dollar ∉ word) (full : word ≠ [])
    (cleanWords : Clean (w :: words)) (hw : w ≠ []) :
    deleteNick (word.length + 1) (render word (w :: words)) [] =
      (header word ++ w) ++ dollar :: (body words ++ ascii "|").drop 1 := by
  have found := findNick_empty clean full cleanWords
  have text : render word (w :: words) =
      (header word ++ w) ++ (dollar :: dollar :: (body words ++ ascii "|")) := by simp [render]
  have len : (header word ++ w).length = word.length + w.length + 2 := by
    simp
    omega
  have start : (render word (w :: words)).take ((header word ++ w).length + 1) =
      header word ++ w ++ [dollar] := by
    rw [text, List.take_length_add_append]
    simp
  have rest : (render word (w :: words)).drop ((header word ++ w).length + 3) =
      (body words ++ ascii "|").drop 1 := by
    rw [text, List.drop_length_add_append]
    simp
  simp only [if_neg hw] at found
  rw [deleteNick, found]
  simp only [cutNick, restored_render, List.length_nil, Nat.add_zero]
  have at_ : word.length + 1 + (w.length + 1) + 1 = (header word ++ w).length + 1 := by omega
  have after : word.length + 1 + (w.length + 1) + 3 = (header word ++ w).length + 3 := by omega
  rw [at_, after, start, rest]
  simp

/-- The empty nick is cut out rightly if it is one of the first two of the list. -/
theorem delete_empty (clean : dollar ∉ word) (full : word ≠ []) (cleanWords : Clean words) :
    deleteNick (word.length + 1) (render word words) [] = render word (words.erase []) ↔
      words = [] ∨ [] ∈ words.take 2 := by
  cases words with
  | nil => simp [deleteNick, findNick_empty clean full cleanWords]
  | cons w words =>
    by_cases hw : w = []
    · subst hw
      simp [delete_empty_first clean full cleanWords]
    · have erased : (w :: words).erase [] = w :: words.erase [] := by simp [hw]
      have text : render word (w :: words.erase []) =
          (header word ++ w) ++ dollar :: (dollar :: (body (words.erase []) ++ ascii "|")) := by
        simp [render]
      rw [delete_empty_later clean full cleanWords hw, erased, text, List.append_cancel_left_eq,
        List.cons_eq_cons]
      simp only [true_and]
      cases words with
      | nil => simp [pipe_eq, Ne.symm hw]
      | cons v words =>
        cases v with
        | nil => simp [Ne.symm hw]
        | cons c v =>
          have hc : c ≠ dollar := by
            rintro rfl
            exact cleanWords (dollar :: v) (by simp) List.mem_cons_self
          cases v with
          | nil => simp [Ne.symm hw, hc.symm]
          | cons d v =>
            have hd : d ≠ dollar := by
              rintro rfl
              exact cleanWords (c :: dollar :: v) (by simp) (by simp)
            simp [Ne.symm hw, hd]

/-- The deletions that take out the nick and nothing else. -/
def Deletable (word : Text) (words : List Text) (nick : Text) : Prop :=
  nick ≠ word ∧ (nick = [] → words = [] ∨ [] ∈ words.take 2)

instance (word : Text) (words : List Text) (nick : Text) : Decidable (Deletable word words nick) :=
  inferInstanceAs (Decidable (_ ∧ (_ → _)))

/-- A nick that can be deleted can be deleted after another one too. -/
theorem Deletable.erase {old : Text} (deletable : Deletable word words nick)
    (other : nick ≠ old) : Deletable word (words.erase old) nick := by
  refine ⟨deletable.1, fun empty => ?_⟩
  subst empty
  rcases deletable.2 rfl with none_ | first
  · rw [none_]
    exact .inl rfl
  · right
    match words, first with
    | [w], first =>
      rw [List.take_of_length_le (by simp), List.mem_singleton] at first
      rw [← first, List.erase_of_not_mem (by simpa using other.symm)]
      simp
    | w :: w' :: ws, first =>
      rcases List.mem_cons.mp first with rfl | second
      · rw [List.erase_cons_tail (by simpa using other)]
        simp
      · have eq : [] = w' := by simpa using second
        rw [← eq, List.erase_cons]
        split
        · simp
        · rw [List.erase_cons_tail (by simpa using other)]
          simp

theorem delete_render_iff (clean : dollar ∉ word) (full : word ≠ [])
    (valid : ∀ w ∈ words, ValidNick w) (hn : ValidNick nick) :
    deleteNick (word.length + 1) (render word words) nick = render word (words.erase nick) ↔
      Deletable word words nick := by
  have cleanWords : Clean words := fun w hw => (valid w hw).clean
  by_cases other : nick = word
  · subst other
    simp [Deletable, delete_header clean valid]
  · by_cases empty : nick = []
    · subst empty
      rw [delete_empty clean full cleanWords]
      simp [Deletable, other]
    · simp [Deletable, other, empty, delete_render clean cleanWords hn.clean empty other]

end

end FlyHub.Lists
