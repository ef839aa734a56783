import FlyHub.Settings.PreTexts

/-!
# What is sent is what the settings say

A text that is made again comes after the texts it is made from. So all texts are current after
each change of a setting, if the change is none of those that forget one.
-/

namespace FlyHub.Settings

open FlyHub.Lib FlyHub.Lists

namespace PreTexts

/-! ## The order -/

/-- No text is made from it. -/
def Leaf (j : Cell) : Prop := ∀ v k, reads v k j = false

/-- Each text comes after those it is made from, and with those that are made from it. -/
def Closed (v : Values) (ks : List Cell) : Prop :=
  (ks.Pairwise fun k j => ¬ reads v k j = true) ∧ ∀ j ∈ ks, ∀ k, reads v k j = true → k ∈ ks

variable {v : Values} {ks : List Cell}

theorem reads_self (v : Values) (k : Cell) : ¬ reads v k k = true := by
  rcases k with id | _ | _
  · cases id <;> exact Bool.false_ne_true
  all_goals exact Bool.false_ne_true

theorem closed_of_leaves (leaves : ∀ k ∈ ks, Leaf k) : Closed v ks := by
  refine ⟨List.pairwise_of_forall_mem_list fun k _ j mem => ?_, fun j mem k read => ?_⟩
  · rw [leaves j mem v k]
    exact Bool.false_ne_true
  · rw [leaves j mem v k] at read
    cases read

theorem sorted_cons {j : Cell} (leaves : ∀ k ∈ ks, Leaf k) :
    (j :: ks).Pairwise fun k j => ¬ reads v k j = true := by
  refine List.pairwise_cons.mpr ⟨fun k mem => ?_, (closed_of_leaves leaves).1⟩
  rw [leaves k mem v j]
  exact Bool.false_ne_true

theorem closed_cons {j : Cell} (leaves : ∀ k ∈ ks, Leaf k)
    (readers : ∀ k, reads v k j = true → k ∈ ks) : Closed v (j :: ks) := by
  refine ⟨sorted_cons leaves, fun j' mem k read => List.mem_cons_of_mem j ?_⟩
  rcases List.mem_cons.mp mem with rfl | mem
  · exact readers k read
  · exact (closed_of_leaves leaves).2 j' mem k read

theorem leaf_text {id : PreTxtIds} (sec : id ≠ .hubSec) (redirect : id ≠ .redirectAddress) :
    Leaf (.text id) := by
  intro v k
  cases id <;> first | rfl | exact absurd rfl sec | exact absurd rfl redirect

theorem leaves_hubSec : ∀ k ∈ hubSecCells.tail ++ [.text .hubBotMyInfo], Leaf k := by
  simp only [hubSecCells, List.tail_cons, List.cons_append, List.nil_append, List.forall_mem_cons,
    List.not_mem_nil, IsEmpty.forall_iff, implies_true, and_true]
  refine ⟨?_, ?_, ?_, ?_, ?_, ?_, ?_, ?_, ?_, ?_⟩ <;> exact leaf_text (by decide) (by decide)

theorem closed_hubSec : Closed v hubSecCells :=
  closed_cons (fun k mem => leaves_hubSec k (List.mem_append_left _ mem))
    fun _ read => List.mem_of_elem_eq_true read

theorem closed_hubSec_bot : Closed v (hubSecCells ++ [.text .hubBotMyInfo]) :=
  closed_cons leaves_hubSec fun _ read => List.mem_append_left _ (List.mem_of_elem_eq_true read)

theorem closed_boolCells (id : SetBoolIds) : Closed v (boolCells id) := by
  by_cases sec : id = .useBotNickAsHubSec
  · subst sec
    exact closed_hubSec
  · refine closed_of_leaves ?_
    cases id <;> simp [boolCells, leaf_text] at sec ⊢

theorem closed_share {j : Cell} (limit : j = .minShare ∨ j = .maxShare) :
    Closed v [j, .text .shareLimitMsg] := by
  refine closed_cons (by simp [leaf_text]) fun k read => List.mem_singleton.mpr ?_
  rcases limit with rfl | rfl <;> exact of_decide_eq_true read

theorem closed_shortCells (id : SetShortIds) : Closed v (shortCells id) := by
  unfold shortCells
  split
  case h_1 | h_2 => exact closed_share (.inl rfl)
  case h_3 | h_4 => exact closed_share (.inr rfl)
  all_goals exact closed_of_leaves (by simp [leaf_text])

theorem redirectCells_eq (v : Values) :
    redirectCells v = .text .redirectAddress :: (redirectCells v).tail := by
  simp only [redirectCells, List.append_assoc, List.cons_append, List.nil_append, List.tail_cons]

theorem leaves_redirect : ∀ k ∈ (redirectCells v).tail, Leaf k := by
  intro k mem
  simp only [redirectCells, List.append_assoc, List.cons_append, List.nil_append, List.tail_cons,
    List.mem_append, List.mem_ite_nil_right, List.mem_cons, List.not_mem_nil, or_false] at mem
  rcases mem with ⟨-, rfl⟩ | ⟨-, rfl⟩ | ⟨-, rfl⟩ | ⟨-, rfl⟩ | ⟨-, rfl⟩ | ⟨-, rfl⟩ | ⟨-, rfl⟩ |
    ⟨-, rfl⟩ | ⟨-, rfl⟩ <;>
  exact leaf_text (by decide) (by decide)

/-- The two addresses for those who are banned are their own. -/
theorem closed_redirectCells (temp : v.texts .tempBanRedirAddress ≠ [])
    (perm : v.texts .permBanRedirAddress ≠ []) : Closed v (redirectCells v) := by
  rw [redirectCells_eq]
  refine closed_cons leaves_redirect fun k read => ?_
  rcases k with id | _ | _
  · cases id <;> simp_all [reads, readsRedirect, redirectCells]
  all_goals cases read

theorem tempBan_mem_iff :
    .text .tempBanRedirAddress ∈ redirectCells v ↔ v.texts .tempBanRedirAddress ≠ [] := by
  simp [redirectCells]

theorem permBan_mem_iff :
    .text .permBanRedirAddress ∈ redirectCells v ↔ v.texts .permBanRedirAddress ≠ [] := by
  simp [redirectCells]

theorem closed_textCells {id : SetTxtIds} (other : id ≠ .redirectAddress) :
    Closed v (textCells v id) := by
  unfold textCells
  split
  case h_1 => exact closed_hubSec_bot
  case h_8 => exact absurd rfl other
  all_goals exact closed_of_leaves (by simp [leaf_text])

/-! ## What is left stays as it is -/

section
variable {title : Text} {languages : Languages} {load : Text → Lan → Lan} {p : PreTexts}
  {source : Source}

theorem current_put (current : p.Current title) (closed : Closed source.values ks)
    (rest : ∀ k ∉ ks, compute title source p.cells k = compute title p.source p.cells k) :
    (p.put title source ks).Current title := by
  refine fresh_refreshAll readsOnly ⟨closed.1, reads_self _⟩ fun k other => ⟨?_, fun j mem read => ?_⟩
  · exact (current k).trans (rest k other).symm
  · exact absurd (closed.2 j mem k read) other

theorem bools_mem {k : Cell} {id : SetBoolIds} (mem : id ∈ k.bools) : k ∈ boolCells id := by
  rcases k with id' | _ | _
  · cases id' <;> revert id <;> decide
  all_goals cases mem

theorem shorts_mem {k : Cell} {id : SetShortIds} (mem : id ∈ k.shorts) : k ∈ shortCells id := by
  rcases k with id' | _ | _
  · cases id' <;> revert id <;> decide
  all_goals revert id; decide

theorem texts_mem {k : Cell} {id : SetTxtIds} (mem : id ∈ k.texts)
    (description : id ≠ .opChatDescription) (email : id ≠ .opChatEmail) :
    k ∈ textCells v id := by
  rcases k with id' | _ | _
  · cases id' <;>
      simp only [Cell.texts, List.mem_cons, List.not_mem_nil, or_false] at mem <;>
      (try rcases mem with rfl | rfl | rfl) <;> simp_all [textCells, hubSecCells, redirectCells]
  all_goals cases mem

theorem current_setBool (current : p.Current title) (id : SetBoolIds) (bValue : Bool) :
    (p.putValues title (p.source.values.setBool id bValue) (boolCells id)).Current title := by
  refine current_put current (closed_boolCells id) fun k other => compute_agree ?_
  refine ⟨fun id' mem => ?_, fun _ _ => rfl, fun _ _ => rfl, fun _ => rfl, rfl⟩
  refine Values.setBool_of_ne ?_ bValue
  rintro rfl
  exact other (bools_mem mem)

/-- Numbers other than these are as they were. -/
theorem current_shorts (current : p.Current title) {values : Values} (closed : Closed values ks)
    (bools : values.bools = p.source.values.bools) (texts : values.texts = p.source.values.texts)
    (shorts : ∀ k ∉ ks, ∀ id ∈ k.shorts, values.shorts id = p.source.values.shorts id) :
    (p.putValues title values ks).Current title := by
  refine current_put current closed fun k other => compute_agree ?_
  exact ⟨fun _ _ => congrFun bools _, shorts k other, fun _ _ => congrFun texts _, fun _ => rfl,
    rfl⟩

theorem current_setShort (current : p.Current title) (id : SetShortIds) (i : Int) :
    (p.putValues title (p.source.values.setShort id i) (shortCells id)).Current title := by
  refine current_shorts current (closed_shortCells id) (Values.setShort_bools id i)
    (Values.setShort_texts id i) fun k other id' mem => Values.setShort_of_ne ?_ i
  rintro rfl
  exact other (shorts_mem mem)

theorem current_setShorts (current : p.Current title) {id id' : SetShortIds} (i i' : Int)
    (same : shortCells id' = shortCells id) :
    (p.putValues title ((p.source.values.setShort id i).setShort id' i')
      (shortCells id)).Current title := by
  refine current_shorts current (closed_shortCells id) ?_ ?_ fun k other id'' mem => ?_
  · rw [Values.setShort_bools, Values.setShort_bools]
  · rw [Values.setShort_texts, Values.setShort_texts]
  · rw [Values.setShort_of_ne, Values.setShort_of_ne]
    · rintro rfl
      exact other (shorts_mem mem)
    · rintro rfl
      exact other (same ▸ shorts_mem mem)

theorem current_setMotd (current : p.Current title) (sTxt : Text) :
    (p.put title { p.source with motd := sTxt } [.text .motd]).Current title := by
  refine current_put current (closed_of_leaves (by simp [leaf_text])) fun k other =>
    compute_agree ?_
  exact ⟨fun _ _ => rfl, fun _ _ => rfl, fun _ _ => rfl,
    fun eq => absurd (eq ▸ List.mem_singleton_self _) other, rfl⟩

theorem agree_setText {id : SetTxtIds} {k : Cell} (other : id ∉ k.texts) (sTxt : Text)
    (s : Source) :
    Agree s { s with values := s.values.setText languages id sTxt } k := by
  refine ⟨fun _ _ => ?_, fun _ _ => ?_, fun id' mem => ?_, fun _ => rfl, rfl⟩
  · rw [Values.setText_bools]
  · rw [Values.setText_shorts]
  · refine Values.setText_of_ne ?_ sTxt
    rintro rfl
    exact other mem

theorem opChat_mem {k : Cell} {id : SetTxtIds} (opChat : id = .opChatDescription ∨ id = .opChatEmail)
    (mem : id ∈ k.texts) : k = .text .opChatMyInfo := by
  rcases k with id' | _ | _
  · cases id' <;> rcases opChat with rfl | rfl <;> first | rfl | cases mem <;> contradiction
  all_goals cases mem

theorem current_setText (current : p.Current title) {id : SetTxtIds} (sTxt : Text)
    (redirect : id = .redirectAddress → p.source.values.texts .tempBanRedirAddress ≠ [] ∧
      p.source.values.texts .permBanRedirAddress ≠ [])
    (opChat : id = .opChatDescription ∨ id = .opChatEmail →
      p.source.values.bools .regOpChat = false) :
    (p.putValues title (p.source.values.setText languages id sTxt)
      (textCells (p.source.values.setText languages id sTxt) id)).Current title := by
  refine current_put current ?_ fun k other => ?_
  · by_cases eq : id = .redirectAddress
    · subst eq
      obtain ⟨temp, perm⟩ := redirect rfl
      refine closed_redirectCells ?_ ?_
      · rwa [Values.setText_of_ne (by decide)]
      · rwa [Values.setText_of_ne (by decide)]
    · exact closed_textCells eq
  · by_cases mem : id ∈ k.texts
    · -- Only the text of the bot for operators is left.
      have member : id = .opChatDescription ∨ id = .opChatEmail := by
        by_contra neither
        rw [not_or] at neither
        exact other (texts_mem mem neither.1 neither.2)
      have off := opChat member
      obtain rfl := opChat_mem member mem
      have off' : (p.source.values.setText languages id sTxt).bools .regOpChat = false := by
        rw [Values.setText_bools, off]
      simp only [compute, updateOpChat, off, off', Bool.false_eq_true, if_false]
    · exact compute_agree (agree_setText mem sTxt p.source)

theorem limitOrUnlimited_lan {s : Source} {lan : Lan} {id : SetShortIds}
    (same : lan.unlimited = s.lan.unlimited ∨ s.values.shorts id ≠ 0) :
    limitOrUnlimited { s with lan } id = limitOrUnlimited s id := by
  unfold limitOrUnlimited
  split
  · rfl
  · rename_i zero
    exact same.resolve_right zero

theorem compute_lan {s : Source} {lan : Lan} {c : Cells} {k : Cell}
    (other : k ≠ .text .hubNameWlcm)
    (same : lan.unlimited = s.lan.unlimited ∨ c .maxShare ≠ 0 ∧
      s.values.shorts .maxSlotsLimit ≠ 0 ∧ s.values.shorts .maxNickLen ≠ 0) :
    compute title { s with lan } c k = compute title s c k := by
  have slots := limitOrUnlimited_lan (same.imp_right fun ne => ne.2.1)
  have nick := limitOrUnlimited_lan (same.imp_right fun ne => ne.2.2)
  have share : ∀ t : Text, (if c .maxShare ≠ 0 then t else lan.unlimited) =
      if c .maxShare ≠ 0 then t else s.lan.unlimited := by
    intro t
    split
    · rfl
    · rename_i zero
      exact same.resolve_right fun ne => zero ne.1
  rcases k with id | _ | _
  · cases id
    case hubNameWlcm => exact absurd rfl other
    case shareLimitMsg =>
      simp only [compute, updateShareLimitMessage, share]
      rfl
    case slotsLimitMsg =>
      simp only [compute, updateSlotsLimitMessage, slots]
      rfl
    case nickLimitMsg =>
      simp only [compute, updateNickLimitMessage, nick]
      rfl
    all_goals rfl
  all_goals rfl

/-- A new language changes the welcome, and what has no limit. -/
theorem current_language (current : p.Current title) (valid : p.source.values.Valid languages)
    (sTxt : Text) {lan : Lan}
    (same : lan.unlimited = p.source.lan.unlimited ∨ p.source.values.shorts .maxShareLimit ≠ 0 ∧
      p.source.values.shorts .maxSlotsLimit ≠ 0 ∧ p.source.values.shorts .maxNickLen ≠ 0) :
    (p.put title { p.source with values := p.source.values.setText languages .language sTxt, lan }
      [.text .hubNameWlcm]).Current title := by
  refine current_put current (closed_of_leaves (by simp [leaf_text])) fun k other => ?_
  have agree : Agree p.source
      { p.source with values := p.source.values.setText languages .language sTxt } k := by
    refine agree_setText (fun mem => ?_) sTxt p.source
    rcases k with id | _ | _
    · cases id <;> revert mem <;> decide
    all_goals cases mem
  refine (compute_lan (fun eq => other (List.mem_singleton.mpr eq)) ?_).trans (compute_agree agree)
  refine same.imp_right fun ne => ?_
  rw [Values.setText_shorts]
  refine ⟨?_, ne.2⟩
  -- The limit that is kept is 0 only if the number is.
  have positive := (valid.shorts .maxShareLimit).1
  rw [current .maxShare]
  exact Nat.mul_ne_zero (by omega) (Nat.pos_iff_ne_zero.mp (Nat.pow_pos (by decide)))

/-! ## The bots of the hub -/

theorem setText_of_not_changed {id : SetTxtIds} {sTxt : Text}
    (same : textChanged v id sTxt = false) {w : Values} (eq : w.texts id = v.texts id) :
    w.setText languages id (cText sTxt) = w := by
  have set : w.texts id = cText sTxt := by
    rw [eq]
    by_contra other
    by_cases empty : v.texts id = []
    · have asked : sTxt ≠ [] := by
        rintro rfl
        exact other empty
      simp [textChanged, empty, asked] at same
    · simp [textChanged, empty, other] at same
  rw [Values.setText, if_pos set]

theorem not_changed_iff {v' : Values} {on : SetBoolIds} {nickId descriptionId emailId : SetTxtIds}
    {nick description email : Text} :
    botChanged v v' on nickId descriptionId emailId nick description email = false ↔
      v'.bools on = v.bools on ∧ v.texts nickId = cText nick ∧
        textChanged v descriptionId description = false ∧ textChanged v emailId email = false := by
  simp only [botChanged, ne_eq, Bool.or_eq_false_iff, decide_not, Bool.not_eq_eq_eq_not,
    Bool.not_false, decide_eq_true_eq, and_assoc]
  rw [eq_comm]

section
variable {enable asHubSec : Bool} {nick description email : Text}

theorem setOpChat_bools : (v.setOpChat languages enable nick description email).bools =
    Function.update v.bools .regOpChat enable := by
  rw [Values.setOpChat, Values.setText_bools, Values.setText_bools, Values.setText_bools]
  rfl

theorem setOpChat_shorts :
    (v.setOpChat languages enable nick description email).shorts = v.shorts := by
  rw [Values.setOpChat, Values.setText_shorts, Values.setText_shorts, Values.setText_shorts]
  rfl

theorem setOpChat_texts {id : SetTxtIds} (other : id ≠ .opChatNick)
    (opChat : ¬ (id = .opChatDescription ∨ id = .opChatEmail)) :
    (v.setOpChat languages enable nick description email).texts id = v.texts id := by
  rw [not_or] at opChat
  rw [Values.setOpChat, Values.setText_of_ne opChat.2, Values.setText_of_ne opChat.1,
    Values.setText_of_ne other]
  rfl

theorem setOpChat_of_not_changed
    (same : botChanged v (v.setOpChat languages enable nick description email) .regOpChat
      .opChatNick .opChatDescription .opChatEmail nick description email = false) :
    v.setOpChat languages enable nick description email = v := by
  obtain ⟨on, sameNick, sameDescription, sameEmail⟩ := not_changed_iff.mp same
  rw [setOpChat_bools, Function.update_self] at on
  have set : v.setBool .regOpChat enable = v := by
    rw [Values.setBool, on, Function.update_eq_self]
  have setNick : v.setText languages .opChatNick (cText nick) = v := if_pos sameNick
  rw [Values.setOpChat, set, setNick, setText_of_not_changed sameDescription rfl,
    setText_of_not_changed sameEmail rfl]

theorem setHubBot_bools : (v.setHubBot languages enable nick description email asHubSec).bools =
    Function.update (Function.update v.bools .useBotNickAsHubSec asHubSec) .regBot enable := by
  rw [Values.setHubBot, Values.setText_bools]
  simp only [Values.setBool, Values.setText_bools]

theorem setHubBot_shorts :
    (v.setHubBot languages enable nick description email asHubSec).shorts = v.shorts := by
  rw [Values.setHubBot, Values.setText_shorts]
  simp only [Values.setBool, Values.setText_shorts]

theorem setHubBot_texts {id : SetTxtIds} (other : id ≠ .botNick)
    (description' : id ≠ .botDescription) (email' : id ≠ .botEmail) :
    (v.setHubBot languages enable nick description email asHubSec).texts id = v.texts id := by
  rw [Values.setHubBot, Values.setText_of_ne other]
  simp only [Values.setBool]
  rw [Values.setText_of_ne email', Values.setText_of_ne description']

theorem setHubBot_of_not_changed
    (same : botChanged v (v.setHubBot languages enable nick description email asHubSec) .regBot
      .botNick .botDescription .botEmail nick description email = false) :
    v.setHubBot languages enable nick description email asHubSec =
      v.setBool .useBotNickAsHubSec asHubSec := by
  obtain ⟨on, sameNick, sameDescription, sameEmail⟩ := not_changed_iff.mp same
  rw [setHubBot_bools, Function.update_self] at on
  rw [Values.setHubBot, setText_of_not_changed sameDescription rfl,
    setText_of_not_changed sameEmail rfl]
  have set : (v.setBool .useBotNickAsHubSec asHubSec).setBool .regBot enable =
      v.setBool .useBotNickAsHubSec asHubSec := by
    have other : SetBoolIds.regBot ≠ .useBotNickAsHubSec := by decide
    rw [Values.setBool, on, ← Values.setBool_of_ne other asHubSec, Function.update_eq_self]
  rw [set]
  exact if_pos sameNick

theorem current_setOpChat (current : p.Current title)
    (kept : ¬ (p.source.values.bools .regOpChat = true ∧ enable = false)) (known : Bool) :
    (p.setOpChat title languages enable nick description email known).Current title := by
  unfold setOpChat
  simp only
  split
  · refine current_put current (closed_of_leaves ?_) fun k other => ?_
    · split <;> simp [leaf_text]
    · by_cases bot : k ∈ [Cell.text .opChatHello, .text .opChatMyInfo]
      · rw [setOpChat_bools, Function.update_self] at other
        split at other
        · exact absurd bot other
        · rename_i skipped
          rw [Bool.and_eq_true, not_and, Bool.not_eq_true] at skipped
          cases enable with
          | true =>
            simp only [setOpChat_of_not_changed (skipped rfl)]
          | false =>
            have off : p.source.values.bools .regOpChat = false :=
              Bool.eq_false_iff.mpr fun on => kept ⟨on, rfl⟩
            have off' : (p.source.values.setOpChat languages false nick description email).bools
                .regOpChat = false := by
              rw [setOpChat_bools, Function.update_self]
            simp only [List.mem_cons, List.not_mem_nil, or_false] at bot
            rcases bot with rfl | rfl <;>
            simp only [compute, updateOpChatHello, updateOpChat, off, off', Bool.false_eq_true,
              if_false]
      · refine compute_agree ⟨fun id mem => ?_, fun id _ => ?_, fun id mem => ?_, fun _ => rfl, rfl⟩
        · simp only [setOpChat_bools]
          refine Function.update_of_ne ?_ ..
          rintro rfl
          exact bot (bools_mem mem)
        · simp only [setOpChat_shorts]
        · refine setOpChat_texts ?_ ?_
          · rintro rfl
            exact bot (texts_mem (v := p.source.values) mem (by decide) (by decide))
          · intro opChat
            rw [opChat_mem opChat mem] at bot
            exact bot (by decide)
  · exact current

theorem current_setHubBot (current : p.Current title)
    (kept : ¬ (p.source.values.bools .regBot = true ∧ enable = false)) (known : Bool) :
    (p.setHubBot title languages enable nick description email asHubSec known).Current title := by
  unfold setHubBot
  simp only
  split
  · refine current_put current ?_ fun k other => ?_
    · split
      · exact closed_hubSec_bot
      · rw [List.append_nil]
        exact closed_hubSec
    · rw [List.mem_append, not_or] at other
      obtain ⟨unsaid, other⟩ := other
      by_cases bot : k = .text .hubBotMyInfo
      · subst bot
        rw [setHubBot_bools, Function.update_self] at other
        split at other
        · exact absurd (List.mem_singleton_self _) other
        · rename_i skipped
          rw [Bool.and_eq_true, not_and, Bool.not_eq_true] at skipped
          cases enable with
          | true =>
            simp only [setHubBot_of_not_changed (skipped rfl)]
            refine compute_agree ⟨fun id mem => Values.setBool_of_ne ?_ asHubSec, fun _ _ => rfl,
              fun _ _ => rfl, fun _ => rfl, rfl⟩
            rintro rfl
            exact unsaid (bools_mem mem)
          | false =>
            have off : p.source.values.bools .regBot = false :=
              Bool.eq_false_iff.mpr fun on => kept ⟨on, rfl⟩
            have off' : (p.source.values.setHubBot languages false nick description email
                asHubSec).bools .regBot = false := by
              rw [setHubBot_bools, Function.update_self]
            simp only [compute, updateBot, off, off', Bool.false_eq_true, if_false]
      · have unread {ks : List Cell} (mem : k ∈ ks)
            (only : ks = [.text .hubBotMyInfo] ∨ ks = hubSecCells ∨
              ks = hubSecCells ++ [.text .hubBotMyInfo]) : False := by
          rcases only with rfl | rfl | rfl
          · exact bot (List.mem_singleton.mp mem)
          · exact unsaid mem
          · exact (List.mem_append.mp mem).elim unsaid fun mem => bot (List.mem_singleton.mp mem)
        refine compute_agree ⟨fun id mem => ?_, fun id _ => ?_, fun id mem => ?_, fun _ => rfl, rfl⟩
        · simp only [setHubBot_bools]
          rw [Function.update_of_ne, Function.update_of_ne]
          · rintro rfl
            exact unread (bools_mem mem) (.inr (.inl rfl))
          · rintro rfl
            exact unread (bools_mem mem) (.inl rfl)
        · simp only [setHubBot_shorts]
        · refine setHubBot_texts ?_ ?_ ?_
          · rintro rfl
            exact unread (texts_mem (v := p.source.values) mem (by decide) (by decide))
              (.inr (.inr rfl))
          · rintro rfl
            exact unread (texts_mem (v := p.source.values) mem (by decide) (by decide)) (.inl rfl)
          · rintro rfl
            exact unread (texts_mem (v := p.source.values) mem (by decide) (by decide)) (.inl rfl)
  · exact current

end

/-! ## Whole runs -/

theorem mem_allCells (k : Cell) : k ∈ allCells := by
  rcases k with id | _ | _
  · cases id <;> decide
  all_goals decide

theorem current_all (p : PreTexts) (source : Source) :
    (p.put title source allCells).Current title := by
  refine fresh_refreshAll readsOnly ⟨?_, reads_self _⟩ fun k other => absurd (mem_allCells k) other
  exact of_decide_eq_true rfl

theorem step_set_of_changes {e : SetEvent} (changes : e.changes languages p.source.values = true)
    (other : ∀ sTxt, e ≠ .setText .language sTxt) :
    p.set title languages load e =
      p.putValues title (p.source.values.step languages e)
        (e.cells (p.source.values.step languages e)) := by
  unfold set
  simp only [changes, if_true]

theorem current_set (current : p.Current title) (valid : p.source.values.Valid languages)
    {e : SetEvent} (kept : ¬ p.Forgotten load (.set e)) :
    (p.set title languages load e).Current title := by
  by_cases changes : e.changes languages p.source.values = true
  · by_cases language : ∃ sTxt, e = .setText .language sTxt
    · obtain ⟨sTxt, rfl⟩ := language
      unfold set
      simp only [changes, if_true]
      refine current_language current valid sTxt ?_
      simp only [Forgotten, not_and, not_or, ne_eq] at kept
      by_cases same : (load sTxt p.source.lan).unlimited = p.source.lan.unlimited
      · exact .inl same
      · exact .inr (kept same)
    · rw [step_set_of_changes changes fun sTxt eq => language ⟨sTxt, eq⟩]
      cases e with
      | setBool id bValue => exact current_setBool current id bValue
      | setShort id i16Value => exact current_setShort current id i16Value.toInt
      | setText id sTxt =>
        refine current_setText current sTxt ?_ ?_
        · rintro rfl
          simpa only [Forgotten, not_or] using kept
        · rintro (rfl | rfl) <;> simpa only [Forgotten, Bool.not_eq_true] using kept
  · unfold set
    simp only [if_neg changes]
    exact current

theorem current_step (current : p.Current title) (valid : p.source.values.Valid languages)
    {e : TextEvent} (kept : ¬ p.Forgotten load e) :
    (p.step title languages load e).Current title := by
  cases e with
  | set e => exact current_set current valid kept
  | setMotd sTxt => exact current_setMotd current _
  | setMinShare limit units => exact current_setShorts current limit.toInt units.toInt rfl
  | setMaxShare limit units => exact current_setShorts current limit.toInt units.toInt rfl
  | setHubSlotRatio hubs slots => exact current_setShorts current hubs.toInt slots.toInt rfl
  | setOpChat enable nick description email known => exact current_setOpChat current kept known
  | setHubBot enable nick description email asHubSec known =>
    exact current_setHubBot current kept known
  | restart => exact current_all p p.source

theorem valid_setTexts {e : TextEvent} (valid : p.source.values.Valid languages) :
    (p.step title languages load e).source.values.Valid languages := by
  have setShort {v : Values} (valid : v.Valid languages) (id : SetShortIds) (i : Int16) :
      (v.setShort id i.toInt).Valid languages :=
    Values.valid_setShort valid id (Int.le_of_lt_add_one i.toInt_lt)
  cases e with
  | set e =>
    unfold step set
    simp only
    split
    · split
      · exact Values.valid_setText valid .language _
      · exact Values.valid_step valid e
    · exact valid
  | setMotd | restart => exact valid
  | setMinShare | setMaxShare | setHubSlotRatio => exact setShort (setShort valid _ _) _ _
  | setOpChat enable nick description email known =>
    unfold step setOpChat
    simp only
    split
    · exact Values.valid_setText (Values.valid_setText (Values.valid_setText
        (Values.valid_setBool valid _ _) _ _) _ _) _ _
    · exact valid
  | setHubBot enable nick description email asHubSec known =>
    unfold step setHubBot
    simp only
    split
    · exact Values.valid_setText (Values.valid_setBool (Values.valid_setBool
        (Values.valid_setText (Values.valid_setText valid _ _) _ _) _ _) _ _) _ _
    · exact valid

/-- If no text is forgotten since the last start, what is sent is what the settings say. -/
theorem current_run (valid : source.values.Valid languages) {before : List TextEvent}
    (fresh : before = [] ∨ ∃ es, before = es ++ [.restart]) (after : List TextEvent)
    (kept : Allowed (step title languages load) (fun p e => ¬ p.Forgotten load e)
      (run (step title languages load) (start title source) before) after) :
    (run (step title languages load) (start title source) (before ++ after)).Current title := by
  rw [run_append]
  refine (allowed_invariant (fun p => p.Current title ∧ p.source.values.Valid languages) ?_ ?_
    kept).1
  · rintro p e ⟨current, valid⟩ kept
    exact ⟨current_step current valid kept, valid_setTexts valid⟩
  · refine ⟨?_, run_invariant (fun p : PreTexts => p.source.values.Valid languages)
      (fun p e => valid_setTexts) before valid⟩
    rcases fresh with rfl | ⟨es, rfl⟩
    · exact current_all _ source
    · rw [run_concat]
      exact current_all _ _

/-- A restart with no language, and then the nick of the bot and the smallest share. -/
theorem current_run_botNick :
    let languages : Languages := ⟨fun _ => false, fun _ exist => by cases exist⟩
    (run (step (ascii "PtokaX") languages fun _ lan => lan)
      (start (ascii "PtokaX") ⟨Values.ofDefaults languages, ascii "Welcome",
        ⟨ascii "This hub is running", ascii "UpTime", ascii "unlimited"⟩⟩)
      ([.setOpChat false (ascii "Ops") [] [] false, .restart] ++
        [.set (.setBool .useBotNickAsHubSec true), .set (.setText .botNick (ascii "Bot")),
          .setMinShare 10 3])).Current (ascii "PtokaX") := by
  intro languages
  have valid := Values.valid_ofDefaults languages
  generalize Values.ofDefaults languages = v at valid ⊢
  refine current_run valid
    (.inr ⟨[.setOpChat false (ascii "Ops") [] [] false], rfl⟩) _ ?_
  simp only [Allowed, Forgotten, not_false_eq_true, and_self]

/-! ## A new redirect address -/

theorem values_of_not_changes {e : SetEvent} (same : ¬ e.changes languages v = true) :
    v.step languages e = v := by
  rw [Bool.not_eq_true] at same
  cases e with
  | setBool id bValue =>
    simp only [SetEvent.changes, bne_eq_false_iff_eq] at same
    rw [Values.step, Values.setBool, ← same, Function.update_eq_self]
  | setShort id i16Value =>
    simp only [SetEvent.changes, Bool.and_eq_false_iff, Bool.not_eq_false'] at same
    rw [Values.step, Values.setShort]
    rcases same with same | same
    · rw [if_pos same]
    · rw [same, if_neg Bool.false_ne_true, ite_self]
  | setText id sTxt =>
    simp only [SetEvent.changes, Bool.and_eq_false_iff, bne_eq_false_iff_eq] at same
    rw [Values.step, Values.setText]
    rcases same with same | same
    · rw [if_pos same]
    · rw [same, if_neg Bool.false_ne_true, ite_self]

/-- The redirect address itself is made again before all that is made from it. -/
theorem refreshAll_redirect (source : Source) (c : Cells) :
    refreshAll (compute title) source c (redirectCells source.values) (.text .redirectAddress) =
      updateRedirectAddress source := by
  rw [redirectCells_eq]
  exact refreshAll_of_mem readsOnly ⟨sorted_cons leaves_redirect, reads_self _⟩
    (List.mem_cons_self ..)

/-- The redirect of a kind of ban without an address of its own is the old one. -/
theorem stale_redirect (current : p.Current title) {id : PreTxtIds} {txt : SetTxtIds}
    (left : .text id ∉ redirectCells source.values)
    (made : ∀ s c, compute title s c (.text id) = updateBanRedirAddress s c txt)
    (was : p.source.values.texts txt = []) (now : source.values.texts txt = [])
    (other : updateRedirectAddress source ≠ updateRedirectAddress p.source) :
    ¬ (p.put title source (redirectCells source.values)).Current title := by
  refine not_fresh_of_stale (s := source) left ?_
  have old : p.cells (.text id) = updateRedirectAddress p.source := by
    rw [current, made, updateBanRedirAddress, if_neg (not_not.mpr was)]
    exact current _
  rw [old, made, updateBanRedirAddress, if_neg (not_not.mpr now)]
  exact fun same => other ((refreshAll_redirect source p.cells).symm.trans same)

theorem current_same_redirect (current : p.Current title)
    (agree : ∀ k ∉ redirectCells source.values, Agree p.source source k)
    (same : updateRedirectAddress source = updateRedirectAddress p.source) :
    (p.put title source (redirectCells source.values)).Current title := by
  have sorted : (redirectCells source.values).Pairwise fun k j =>
      ¬ reads source.values k j = true := by
    rw [redirectCells_eq]
    exact sorted_cons leaves_redirect
  refine fresh_refreshAll readsOnly ⟨sorted, reads_self _⟩ fun k left => ⟨?_, fun j mem read => ?_⟩
  · exact (current k).trans (compute_agree (agree k left)).symm
  · rw [redirectCells_eq, List.mem_cons] at mem
    rcases mem with rfl | leaf
    · have was : p.cells (.text .redirectAddress) = updateRedirectAddress p.source := current _
      exact (refreshAll_redirect source p.cells).trans (same.trans was.symm)
    · rw [leaves_redirect j leaf] at read
      cases read

/-- The redirects of those who are banned follow a new redirect address exactly if both have an
address of their own, or it is the same to them. -/
theorem redirect_iff (current : p.Current title) (sTxt : Text) :
    (p.set title languages load (.setText .redirectAddress sTxt)).Current title ↔
      p.source.values.texts .tempBanRedirAddress ≠ [] ∧
        p.source.values.texts .permBanRedirAddress ≠ [] ∨
      updateRedirectAddress
          { p.source with values := p.source.values.setText languages .redirectAddress sTxt } =
        updateRedirectAddress p.source := by
  have own {id : SetTxtIds} (other : id ≠ .redirectAddress) :
      (p.source.values.setText languages .redirectAddress sTxt).texts id =
        p.source.values.texts id := Values.setText_of_ne other sTxt
  by_cases changes : (SetEvent.setText .redirectAddress sTxt).changes languages
      p.source.values = true
  · rw [step_set_of_changes changes (by simp)]
    constructor
    · intro fresh
      by_contra forgotten
      rw [not_or, not_and_or, not_not, not_not] at forgotten
      obtain ⟨none, other⟩ := forgotten
      rcases none with empty | empty
      · have now := (own (by decide)).trans empty
        exact stale_redirect current (mt tempBan_mem_iff.mp (not_not.mpr now)) (fun _ _ => rfl)
          empty now other fresh
      · have now := (own (by decide)).trans empty
        exact stale_redirect current (mt permBan_mem_iff.mp (not_not.mpr now)) (fun _ _ => rfl)
          empty now other fresh
    · rintro (both | same)
      · exact current_setText current sTxt (fun _ => both) (by simp)
      · refine current_same_redirect current (fun k left => agree_setText ?_ sTxt p.source) same
        exact fun mem => left (texts_mem mem (by decide) (by decide))
  · have kept := values_of_not_changes changes
    unfold set
    simp only [if_neg changes]
    refine iff_of_true current (.inr ?_)
    rw [Values.step] at kept
    rw [kept]

/-- Those who are banned for a time are still sent to where they were. -/
theorem redirect_iff_tempBan :
    let languages : Languages := ⟨fun _ => false, fun _ exist => by cases exist⟩
    let source : Source := ⟨⟨fun _ => false, fun _ => 0, fun _ => []⟩, [], ⟨[], [], []⟩⟩
    ¬ ((start [] source).set [] languages (fun _ lan => lan)
      (.setText .redirectAddress (ascii "dchub.example"))).Current [] := by
  intro languages source fresh
  have same := (redirect_iff (current_all _ source) _).mp fresh
  revert same
  decide

end

end PreTexts

end FlyHub.Settings
