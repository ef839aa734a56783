import FlyHub.Lib.Run
import FlyHub.Lists.MyInfo
import FlyHub.Settings.Ids

/-!
# The values of the settings

A setter refuses a value that is out of the bounds of its setting and leaves the old one. So the
values are in their bounds whatever is asked for, but for one number whose default is refused too.
-/

namespace FlyHub.Settings

open FlyHub.Lib FlyHub.Lists

/-- The languages that have a file. A path ends at a NUL and is at most 4096 bytes long. -/
structure Languages where
  fileExist : Text → Bool
  short : ∀ l, fileExist l = true → 0 ∉ l → l.length ≤ 4096

def containsAny (sv chars : Text) : Bool := sv.any fun c => chars.contains c

def maxCtm : Int := 512

def maxSr : Int := 8192

/-- The bounds of a number that is not negative. -/
def SetShortIds.accepts (id : SetShortIds) (i16Value : Int) : Bool :=
  match id with
  | .minShareLimit | .maxShareLimit => i16Value ≤ 9999
  | .minShareUnits | .maxShareUnits => i16Value ≤ 4
  | .noTagOption | .fullMyinfoOption | .globalMainChatAction
  | .bruteForcePassProtectBanType => i16Value ≤ 2
  | .maxUsers | .defaultTempBanTime | .defloodTempBanTime | .srMessages | .srMessages2 =>
    i16Value ≠ 0
  | .minSlotsLimit | .maxSlotsLimit | .hubSlotRatioHubs | .hubSlotRatioSlots | .maxHubsLimit
  | .maxChatLines | .maxPmLines | .myinfoDelay | .minSearchLen | .maxSearchLen
  | .maxPmCountToUser => i16Value ≤ 999
  | .mainChatMessages | .mainChatTime | .sameMainChatTime | .pmMessages | .pmTime | .samePmTime
  | .searchMessages | .searchTime | .sameSearchTime | .myinfoMessages | .myinfoTime
  | .getnicklistMessages | .getnicklistTime | .defloodWarningCount | .globalMainChatMessages
  | .globalMainChatTime | .globalMainChatTimeout | .bruteForcePassProtectTempBanTime
  | .mainChatMessages2 | .mainChatTime2 | .pmMessages2 | .pmTime2 | .searchMessages2
  | .searchTime2 | .myinfoMessages2 | .myinfoTime2 | .chatIntervalMessages | .chatIntervalTime
  | .pmIntervalMessages | .pmIntervalTime | .searchIntervalMessages | .searchIntervalTime
  | .newConnectionsCount | .newConnectionsTime => i16Value ≠ 0 && i16Value ≤ 999
  | .ctmMessages | .ctmTime | .ctmMessages2 | .ctmTime2 | .rctmMessages | .rctmTime
  | .rctmMessages2 | .rctmTime2 | .srTime | .srTime2 | .maxDownKb | .maxDownTime | .maxDownKb2
  | .maxDownTime2 => i16Value ≠ 0 && i16Value ≤ 9999
  | .sameMainChatMessages | .sameMultiMainChatMessages | .sameMultiMainChatLines
  | .samePmMessages | .sameMultiPmMessages | .sameMultiPmLines | .sameSearchMessages =>
    2 ≤ i16Value && i16Value ≤ 999
  | .mainChatAction | .mainChatAction2 | .sameMainChatAction | .sameMultiMainChatAction
  | .pmAction | .pmAction2 | .samePmAction | .sameMultiPmAction | .searchAction
  | .searchAction2 | .sameSearchAction | .myinfoAction | .myinfoAction2 | .getnicklistAction
  | .ctmAction | .ctmAction2 | .rctmAction | .rctmAction2 | .srAction | .srAction2
  | .maxDownAction | .maxDownAction2 => i16Value ≤ 6
  | .defloodWarningAction => i16Value ≤ 3
  | .minNickLen | .maxNickLen => i16Value ≤ 64
  | .maxSimultaneousLogins => i16Value ≠ 0 && i16Value ≤ 1000
  | .maxMyinfoLen => 64 ≤ i16Value && i16Value ≤ 512
  | .maxCtmLen | .maxRctmLen => i16Value ≠ 0 && i16Value ≤ maxCtm
  | .maxSrLen => i16Value ≠ 0 && i16Value ≤ maxSr
  | .maxConnSameIp | .minReconnTime => i16Value ≠ 0 && i16Value ≤ 256
  | .maxChatLen | .maxPmLen | .maxPasiveSr | .dbRemoveOldRecords | .maxUsersPeak => true

def SetTxtIds.accepts (languages : Languages) (id : SetTxtIds) (sTxt : Text) : Bool :=
  match id with
  | .hubName | .hubAddress =>
    sTxt ≠ [] && sTxt.length ≤ 256 && !containsAny sTxt (ascii "$|")
  | .regOnlyMsg | .shareLimitMsg | .slotsLimitMsg | .hubSlotRatioMsg | .maxHubsLimitMsg
  | .noTagMsg | .nickLimitMsg => sTxt ≠ [] && sTxt.length ≤ 256 && !containsAny sTxt (ascii "|")
  | .botNick | .opChatNick | .adminNick =>
    sTxt ≠ [] && sTxt.length ≤ 64 && !containsAny sTxt (ascii " $|")
  | .tcpPorts => sTxt ≠ [] && sTxt.length ≤ 64
  | .udpPort => sTxt ≠ [] && sTxt.length ≤ 5
  | .chatCommandsPrefixes => sTxt ≠ [] && sTxt.length ≤ 5 && !containsAny sTxt (ascii "| ")
  | .hubDescription | .hubTopic => sTxt.length ≤ 256 && !containsAny sTxt (ascii "$|")
  | .redirectAddress | .regOnlyRedirAddress | .shareLimitRedirAddress | .slotsLimitRedirAddress
  | .hubSlotRatioRedirAddress | .maxHubsLimitRedirAddress | .noTagRedirAddress
  | .tempBanRedirAddress | .permBanRedirAddress | .nickLimitRedirAddress | .msgToAddToBanMsg =>
    sTxt.length ≤ 256 && !containsAny sTxt (ascii "|")
  | .registerServers => sTxt.length ≤ 1024
  | .botDescription | .botEmail | .opChatDescription | .opChatEmail | .hubOwnerEmail =>
    sTxt.length ≤ 64 && !containsAny sTxt (ascii "$|")
  | .language => sTxt = [] || languages.fileExist sTxt
  | .ipv4Address => sTxt.length ≤ 15
  | .ipv6Address => sTxt.length ≤ 39
  | .encoding => sTxt.length ≤ 4096

structure Values where
  bools : SetBoolIds → Bool
  shorts : SetShortIds → Int
  texts : SetTxtIds → Text

namespace Values

section
variable (languages : Languages) (v : Values)

def setBool (id : SetBoolIds) (bValue : Bool) : Values :=
  { v with bools := Function.update v.bools id bValue }

def setShort (id : SetShortIds) (i16Value : Int) : Values :=
  if i16Value < 0 || v.shorts id = i16Value then v
  else if id.accepts i16Value then { v with shorts := Function.update v.shorts id i16Value }
  else v

def setText (id : SetTxtIds) (sTxt : Text) : Values :=
  if v.texts id = sTxt then v
  else if id.accepts languages sTxt then { v with texts := Function.update v.texts id sTxt }
  else v

/-- The default of each setting, set in order. -/
def ofDefaults : Values :=
  let v : Values := ⟨fun _ => false, fun _ => 0, fun _ => []⟩
  let v := SetBoolIds.ids.foldl (fun v id => v.setBool id id.dflt) v
  let v := SetShortIds.ids.foldl (fun v id => v.setShort id id.dflt) v
  SetTxtIds.ids.foldl (fun v id => v.setText languages id (ascii id.dflt)) v

end

end Values

/-- What is asked of the settings. -/
inductive SetEvent where
  | setBool (id : SetBoolIds) (bValue : Bool)
  | setShort (id : SetShortIds) (i16Value : Int16)
  | setText (id : SetTxtIds) (sTxt : Text)

namespace Values

def step (languages : Languages) (v : Values) : SetEvent → Values
  | .setBool id bValue => v.setBool id bValue
  | .setShort id i16Value => v.setShort id i16Value.toInt
  | .setText id sTxt => v.setText languages id sTxt

/-! ## Every value is in its bounds -/

/-- The default of `sameSearchMessages` is below its bounds, so that it starts as 0. -/
structure Valid (languages : Languages) (v : Values) : Prop where
  shorts : ∀ id : SetShortIds, 0 ≤ v.shorts id ∧ v.shorts id ≤ 32767 ∧
    (id.accepts (v.shorts id) = true ∨ id = .sameSearchMessages ∧ v.shorts id = 0)
  texts : ∀ id : SetTxtIds, id.accepts languages (v.texts id) = true

variable {languages : Languages} {v : Values}

theorem valid_setBool (valid : v.Valid languages) (id : SetBoolIds) (bValue : Bool) :
    (v.setBool id bValue).Valid languages := ⟨valid.shorts, valid.texts⟩

theorem valid_setShort (valid : v.Valid languages) (id : SetShortIds) {i16Value : Int}
    (fits : i16Value ≤ 32767) : (v.setShort id i16Value).Valid languages := by
  unfold setShort
  split
  · exact valid
  · rename_i other
    simp only [Bool.or_eq_true, decide_eq_true_eq, not_or] at other
    split
    · rename_i accepted
      refine ⟨fun id' => ?_, valid.texts⟩
      by_cases eq : id' = id
      · subst eq
        simp only [Function.update_self]
        exact ⟨Int.not_lt.mp other.1, fits, .inl accepted⟩
      · simp only [Function.update_of_ne eq]
        exact valid.shorts id'
    · exact valid

theorem valid_setText (valid : v.Valid languages) (id : SetTxtIds) (sTxt : Text) :
    (v.setText languages id sTxt).Valid languages := by
  unfold setText
  split
  · exact valid
  · split
    · rename_i accepted
      refine ⟨valid.shorts, fun id' => ?_⟩
      by_cases eq : id' = id
      · subst eq
        simpa only [Function.update_self] using accepted
      · simpa only [Function.update_of_ne eq] using valid.texts id'
    · exact valid

theorem valid_step (valid : v.Valid languages) (e : SetEvent) :
    (v.step languages e).Valid languages := by
  cases e with
  | setBool id bValue => exact valid_setBool valid id bValue
  | setShort id i16Value =>
    exact valid_setShort valid id (Int.le_of_lt_add_one i16Value.toInt_lt)
  | setText id sTxt => exact valid_setText valid id sTxt

/-! ## The defaults -/

theorem setBool_self (v : Values) (id : SetBoolIds) (b : Bool) : (v.setBool id b).bools id = b :=
  Function.update_self ..

theorem setBool_of_ne {id id' : SetBoolIds} (other : id' ≠ id) (b : Bool) :
    (v.setBool id b).bools id' = v.bools id' := Function.update_of_ne other ..

theorem setShort_self (v : Values) (id : SetShortIds) (i : Int) :
    (v.setShort id i).shorts id = if 0 ≤ i ∧ id.accepts i then i else v.shorts id := by
  unfold setShort
  split
  · rename_i same
    rw [Bool.or_eq_true, decide_eq_true_eq, decide_eq_true_eq] at same
    split
    · rename_i accepted
      cases same with
      | inl negative => exact absurd accepted.1 (Int.not_le.mpr negative)
      | inr eq => exact eq
    · rfl
  · rename_i other
    rw [Bool.or_eq_true, decide_eq_true_eq, decide_eq_true_eq, not_or, Int.not_lt] at other
    split
    · rename_i accepted
      rw [if_pos ⟨other.1, accepted⟩]
      exact Function.update_self ..
    · rename_i refused
      rw [if_neg fun accepted => refused accepted.2]

theorem setShort_of_ne {id id' : SetShortIds} (other : id' ≠ id) (i : Int) :
    (v.setShort id i).shorts id' = v.shorts id' := by
  unfold setShort
  split
  · rfl
  · split
    · exact Function.update_of_ne other ..
    · rfl

theorem setText_self (languages : Languages) (v : Values) (id : SetTxtIds) (t : Text) :
    (v.setText languages id t).texts id = if id.accepts languages t then t else v.texts id := by
  unfold setText
  split
  · rename_i same
    rw [same, ite_self]
  · split
    · exact Function.update_self ..
    · rfl

theorem setText_of_ne {id id' : SetTxtIds} (other : id' ≠ id) (t : Text) :
    (v.setText languages id t).texts id' = v.texts id' := by
  unfold setText
  split
  · rfl
  · split
    · exact Function.update_of_ne other ..
    · rfl

theorem setBool_shorts (id : SetBoolIds) (b : Bool) : (v.setBool id b).shorts = v.shorts := rfl

theorem setBool_texts (id : SetBoolIds) (b : Bool) : (v.setBool id b).texts = v.texts := rfl

theorem setShort_bools (id : SetShortIds) (i : Int) : (v.setShort id i).bools = v.bools := by
  unfold setShort
  split
  · rfl
  · split <;> rfl

theorem setShort_texts (id : SetShortIds) (i : Int) : (v.setShort id i).texts = v.texts := by
  unfold setShort
  split
  · rfl
  · split <;> rfl

theorem setText_bools (id : SetTxtIds) (t : Text) :
    (v.setText languages id t).bools = v.bools := by
  unfold setText
  split
  · rfl
  · split <;> rfl

theorem setText_shorts (id : SetTxtIds) (t : Text) :
    (v.setText languages id t).shorts = v.shorts := by
  unfold setText
  split
  · rfl
  · split <;> rfl

/-- A field that one step sets, and that no other step changes, is set after a run with that
step. -/
theorem foldl_field {Id α : Type*} (get : Values → α) {put : Values → Id → Values} {value : α}
    {id : Id} (set : ∀ v, get (put v id) = value)
    (other : ∀ v id', id' ≠ id → get (put v id') = get v) {ids : List Id} (mem : id ∈ ids)
    (v : Values) : get (ids.foldl put v) = value := by
  induction ids using List.reverseRecOn generalizing v with
  | nil => cases mem
  | append_singleton ids id' ih =>
    rw [List.foldl_append, List.foldl_cons, List.foldl_nil]
    by_cases eq : id' = id
    · rw [eq, set]
    · rw [other _ _ eq]
      rcases List.mem_append.mp mem with mem | mem
      · exact ih mem v
      · exact absurd (List.mem_singleton.mp mem).symm eq

/-- A field that no step changes. -/
theorem foldl_kept {Id α : Type*} (get : Values → α) {put : Values → Id → Values}
    (kept : ∀ v id, get (put v id) = get v) (ids : List Id) (v : Values) :
    get (ids.foldl put v) = get v := by
  induction ids generalizing v with
  | nil => rfl
  | cons id ids ih => rw [List.foldl_cons, ih, kept]

theorem ofDefaults_bools (languages : Languages) (id : SetBoolIds) :
    (ofDefaults languages).bools id = id.dflt := by
  unfold ofDefaults
  simp only
  rw [foldl_kept Values.bools (fun v id => setText_bools id _),
    foldl_kept Values.bools (fun v id => setShort_bools id _)]
  refine foldl_field (fun v => v.bools id) (fun v => ?_)
    (fun v id' other => setBool_of_ne (Ne.symm other) _) (mem_boolIds id) _
  exact setBool_self v id id.dflt

theorem accepts_dflt {id : SetShortIds} (other : id ≠ .sameSearchMessages) :
    id.accepts id.dflt = true := by
  cases id <;> first | exact absurd rfl other | decide

theorem ofDefaults_shorts (languages : Languages) {id : SetShortIds}
    (other : id ≠ .sameSearchMessages) : (ofDefaults languages).shorts id = id.dflt := by
  unfold ofDefaults
  simp only
  rw [foldl_kept Values.shorts (fun v id => setText_shorts id _)]
  refine foldl_field (fun v => v.shorts id) (fun v => ?_)
    (fun v id' other => setShort_of_ne (Ne.symm other) _) (mem_shortIds id) _
  rw [setShort_self, if_pos ⟨Int.natCast_nonneg _, accepts_dflt other⟩]

/-- The default of this number is refused. -/
theorem ofDefaults_sameSearch (languages : Languages) :
    (ofDefaults languages).shorts .sameSearchMessages = 0 := by
  unfold ofDefaults
  simp only
  rw [foldl_kept Values.shorts (fun v id => setText_shorts id _),
    foldl_kept fun v => v.shorts .sameSearchMessages,
    foldl_kept Values.shorts (fun v id => setBool_shorts id _)]
  intro v id
  by_cases same : SetShortIds.sameSearchMessages = id
  · subst same
    rw [setShort_self]
    rfl
  · exact setShort_of_ne same _

theorem ofDefaults_texts (languages : Languages) (id : SetTxtIds) :
    (ofDefaults languages).texts id = ascii id.dflt := by
  have accepted : id.accepts languages (ascii id.dflt) = true := by cases id <;> rfl
  unfold ofDefaults
  simp only
  refine foldl_field (fun v => v.texts id) (fun v => ?_)
    (fun v id' other => setText_of_ne (Ne.symm other) _) (mem_txtIds id) _
  rw [setText_self, if_pos accepted]

theorem valid_ofDefaults (languages : Languages) : (ofDefaults languages).Valid languages := by
  refine ⟨fun id => ?_, fun id => ?_⟩
  · by_cases same : id = .sameSearchMessages
    · subst same
      rw [ofDefaults_sameSearch]
      exact ⟨Int.le_refl 0, by decide, .inr ⟨rfl, rfl⟩⟩
    · rw [ofDefaults_shorts languages same]
      exact ⟨Int.natCast_nonneg _, by cases id <;> decide, .inl (accepts_dflt same)⟩
  · rw [ofDefaults_texts]
    cases id <;> rfl

end Values

end FlyHub.Settings
