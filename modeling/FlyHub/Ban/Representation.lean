import FlyHub.Ban.Reduce

/-!
# Every operation keeps the representation

The lists, the nick table and the IP chains agree in every store the operations
lead to, so the lookups find a ban exactly when there is one.
-/

namespace FlyHub.Ban

open FlyHub.Lib Relation

namespace BanManager

section
variable {m : BanManager}

variable (cfg : Config)

theorem reduces_unbanWith (h : Inv m) {findNick : BanManager → BanManager × Option BanId}
    {findIP : BanManager → IpHash → BanManager × Option BanId} (sWhat : Text)
    (byNick : ∀ m, Inv m → Reduces Anything Anything m (findNick m).1 ∧
      ∀ b, (findNick m).2 = some b → (findNick m).1.Live b)
    (byIP : ∀ m ip, Inv m → Reduces Anything Anything m (findIP m ip).1 ∧
      ∀ b, (findIP m ip).2 = some b → (findIP m ip).1.Live b) :
    Reduces Anything Anything m (m.unbanWith cfg findNick findIP sWhat).1 := by
  obtain ⟨reduces, live⟩ := byNick m h
  unfold unbanWith
  generalize findNick m = r at reduces live
  obtain ⟨m₁, found⟩ := r
  cases found with
  | some b => exact reduces.tail (.remove (live b rfl) trivial)
  | none =>
    cases hash : cfg.hashIP sWhat with
    | none => exact reduces
    | some ip =>
      obtain ⟨reduces', live'⟩ := byIP m₁ ip (inv_reduces h reduces)
      simp only
      generalize findIP m₁ ip = r at reduces' live'
      obtain ⟨m₂, found⟩ := r
      cases found with
      | some b => exact (reduces.trans reduces').tail (.remove (live' b rfl) trivial)
      | none => exact reduces.trans reduces'

theorem reduces_unban (h : Inv m) (now : Int) (bits : BanItem → Bool) (sWhat : Text) :
    Reduces Anything Anything m (m.unbanWith cfg
      (fun m => m.findNickBanGeneric (hashNick sWhat) now sWhat bits)
      (fun m hash => m.findIpBanGeneric hash now bits) sWhat).1 :=
  reduces_unbanWith cfg h sWhat
    (fun _ h => reduces_findNick h sWhat now bits fun _ _ => trivial)
    (fun _ ip h => reduces_findIp h ip now bits fun _ _ => trivial)

theorem reduces_guiScan (h : Inv m) (b : BanId) (now : Int) :
    Reduces Anything Anything m (scanList (guiScan now b) m.tempBanList m).state ∧
      ∀ x, (scanList (guiScan now b) m.tempBanList m).stopped = some x →
        (scanList (guiScan now b) m.tempBanList m).state.Live x := by
  have live : ∀ x ∈ m.tempBanList, m.Live x := fun x hx => .inl hx
  rw [scanList_eq]
  exact ⟨reduces_plan h h.tempNodup live fun _ _ _ => trivial,
    fun x stop => live_plan_stopped h h.tempNodup live stop⟩

theorem reduces_removeGui (h : Inv m) (b : BanId) (now : Int) :
    Reduces Anything Anything m (m.removeGui b now) := by
  obtain ⟨reduces, live⟩ := reduces_guiScan h b now
  unfold removeGui
  simp only
  split
  · rename_i eq
    exact reduces.tail (.remove (live _ eq) trivial)
  · split
    · rename_i mem
      exact reduces.tail (.remove (.inr mem) trivial)
    · exact reduces

theorem reduces_clearFront {list : BanManager → List BanId} (hl : ∀ m b, b ∈ list m → m.Live b)
    (fuel : Nat) : Reduces Anything Anything m (clearFront list fuel m) := by
  induction fuel generalizing m with
  | zero => exact .refl
  | succ fuel ih =>
    unfold clearFront
    split
    · exact .refl
    · rename_i b bs eq
      exact .head (.remove (hl m b (by simp [eq])) trivial) ih

theorem reduces_removeIpWhere (h : Inv m) (bits : BanItem → Bool) (ip : IpHash) :
    Reduces Anything Anything m (m.removeIpWhere bits ip) := by
  obtain ⟨c, hc⟩ := h.ipTable ip
  rw [removeIpWhere_eq h hc]
  exact reduces_plan h hc.nodup (fun x hx => ((hc.mem x).mp hx).1) fun _ _ _ => trivial

theorem targetIp_some {pBan p : BanItem} {pUser : Option BanUser} {sIp : Option Text}
    (h : targetIp cfg pBan pUser sIp = some p) :
    ∃ hash text, p = { pBan with ipHash := hash, sIp := text, ip := true } := by
  unfold targetIp at h
  split at h
  · obtain rfl : _ = p := by simpa using h
    exact ⟨_, _, rfl⟩
  · split at h
    · obtain rfl : _ = p := by simpa using h
      exact ⟨_, _, rfl⟩
    · cases h

theorem targetNick_some {pBan p : BanItem} {pUser : Option BanUser} {sNick : Option Text}
    (h : targetNick pBan pUser sNick = some p) :
    p.nick = true ∧ p.nickHash = hashNick p.sNick ∧ p.temp = pBan.temp ∧ p.perm = pBan.perm := by
  unfold targetNick at h
  split at h
  · split at h
    · cases h
    · split at h
      · cases h
      · obtain rfl : _ = p := by simpa using h
        exact ⟨rfl, rfl, rfl, rfl⟩
  · split at h
    · cases h
    · obtain rfl : _ = p := by simpa using h
      exact ⟨rfl, rfl, rfl, rfl⟩

theorem wellFormed_describe {pBan : BanItem} (wf : WellFormed pBan) (sReason sBy : Option Text) :
    WellFormed (describe pBan sReason sBy) := ⟨wf.bits, wf.nickHash⟩

theorem NickOutcome.wellFormed {clash : BanItem → BanItem → Clash} {now : Int}
    {pBan item : BanItem} {m m₁ : BanManager} (wf : WellFormed pBan)
    (o : NickOutcome clash now pBan m m₁ (some item)) :
    WellFormed item := by
  cases o with
  | stripped => exact ⟨wf.bits, fun hn => by cases hn⟩
  | both => exact wf
  | alone => exact wf

theorem inv_addUser (h : Inv m) (now : Int) (clash : BanItem → BanItem → Clash)
    (verdict : BanItem → BanItem → Verdict) (u : BanUser) {pBan : BanItem}
    (bits : pBan.temp = !pBan.perm) (noNick : pBan.nick = false) (sReason sBy : Option Text) :
    Inv (m.addUser cfg now clash verdict u pBan sReason sBy) := by
  obtain ⟨m₁, r₁, ⟨-, eq⟩ | ⟨item, m₂, next, r₂, eq⟩⟩ :=
    addUser_cases cfg h now clash verdict u pBan sReason sBy <;> rw [eq]
  · exact inv_reduces h r₁
  · refine inv_store cfg.place (inv_reduces (inv_reduces h r₁) r₂) (wellFormed_describe ?_ _ _)
    rcases next with ⟨-, outcome⟩ | ⟨-, rfl, -⟩
    · have wf : WellFormed (withNick pBan u) := ⟨bits, fun _ => rfl⟩
      exact outcome.wellFormed wf
    · exact ⟨bits, fun hn => by simp [BanItem.initIP, noNick] at hn⟩

theorem inv_addNick (h : Inv m) (now : Int) (clash : BanItem → BanItem → Clash) (pBan : BanItem)
    (wf : WellFormed pBan) (hash : pBan.nickHash = hashNick pBan.sNick) (sReason sBy : Option Text) :
    Inv (m.addNick cfg now clash pBan sReason sBy).1 := by
  obtain ⟨m₁, r₁, ⟨-, eq⟩ | ⟨item, outcome, eq⟩⟩ :=
    addNick_cases cfg h now clash hash sReason sBy <;> rw [eq]
  · exact inv_reduces h r₁
  · exact inv_store cfg.place (inv_reduces h r₁) (wellFormed_describe (outcome.wellFormed wf) _ _)

theorem inv_addIp (h : Inv m) (now : Int) (verdict : BanItem → BanItem → Verdict) {pBan : BanItem}
    (wf : WellFormed pBan) (sReason sBy : Option Text) :
    Inv (m.addIp cfg now verdict pBan sReason sBy).1 := by
  obtain ⟨m₁, r₁, ⟨-, eq⟩ | eq⟩ := addIp_cases cfg h now verdict pBan sReason sBy <;> rw [eq]
  · exact inv_reduces h r₁
  · exact inv_store cfg.place (inv_reduces h r₁) (wellFormed_describe wf _ _)

/-- The range bans take no part in the representation. -/
theorem inv_rangeBanList (h : Inv m) (l : List RangeBanItem) : Inv { m with rangeBanList := l } :=
  h.congr rfl rfl rfl rfl rfl rfl rfl

end

end BanManager

/-- The operations that may put a new ban of a nick or an IP into the store. -/
def Op.adds : Op → Bool
  | .ban .. | .banIp .. | .nickBan .. | .tempBan .. | .tempBanIp .. | .nickTempBan .. => true
  | _ => false

/-- The operations on the range bans. -/
def Op.onRanges : Op → Bool
  | .rangeBan .. | .rangeTempBan .. | .rangeUnban .. | .rangeUnbanPerm .. | .rangeUnbanTemp ..
  | .findRange .. | .findFullRange .. | .findRangeExact .. | .clearRange | .clearTempRange
  | .clearPermRange => true
  | _ => false

namespace BanManager

section
variable {m : BanManager} (cfg : Config)

/-- The other operations only remove bans. -/
theorem exec_removes (h : Inv m) (now : Int) {op : Op} (noAdd : op.adds = false)
    (noRange : op.onRanges = false) : Reduces Anything Anything m (m.exec cfg now op).1 := by
  cases op with
  | ban | banIp | nickBan | tempBan | tempBanIp | nickTempBan => cases noAdd
  | unban s => exact reduces_unban cfg h now anyBits s
  | permUnban s => exact reduces_unban cfg h 0 BanItem.perm s
  | tempUnban s => exact reduces_unban cfg h now BanItem.temp s
  | removeAllIP ip => exact reduces_removeIpWhere h _ ip
  | removePermAllIP ip => exact reduces_removeIpWhere h _ ip
  | removeTempAllIP ip => exact reduces_removeIpWhere h _ ip
  | find b =>
    have scanned := (reduces_guiScan h b now).1
    simp only [exec, Prod.map_fst, id_eq, find]
    split <;> exact scanned
  | remove b => exact reduces_removeGui h b now
  | findNick s => exact (reduces_findNick h s now anyBits fun _ _ => trivial).1
  | findTempNick s => exact (reduces_findNick h s now BanItem.temp fun _ _ => trivial).1
  | findPermNick s => exact (reduces_findNick h s 0 BanItem.perm fun _ _ => trivial).1
  | findIP ip => exact (reduces_findIp h ip now anyBits fun _ _ => trivial).1
  | findFull ip => exact (reduces_findIp h ip now BanItem.full fun _ _ => trivial).1
  | findTempIP ip => exact (reduces_findIp h ip now BanItem.temp fun _ _ => trivial).1
  | findPermIP ip => exact (reduces_findIp h ip 0 BanItem.perm fun _ _ => trivial).1
  | clearTemp => exact reduces_clearFront (fun _ _ hb => .inl hb) _
  | clearPerm => exact reduces_clearFront (fun _ _ hb => .inr hb) _
  | rangeBan | rangeTempBan | rangeUnban | rangeUnbanPerm | rangeUnbanTemp | findRange
  | findFullRange | findRangeExact | clearRange | clearTempRange | clearPermRange => cases noRange

/-- The operations on the range bans change nothing else. -/
theorem exec_ranges (now : Int) {op : Op} (ranges : op.onRanges = true) :
    ∃ l, (m.exec cfg now op).1 = { m with rangeBanList := l } := by
  cases op with
  | rangeBan =>
    simp only [exec, Prod.map_fst, id_eq, rangeBan, addRange]
    split <;> exact ⟨_, rfl⟩
  | rangeTempBan =>
    simp only [exec, Prod.map_fst, id_eq, rangeTempBan, addRange]
    split <;> exact ⟨_, rfl⟩
  | rangeUnban | rangeUnbanPerm | rangeUnbanTemp | findRange | findFullRange | findRangeExact
  | clearRange | clearTempRange | clearPermRange => exact ⟨_, rfl⟩
  | _ => cases ranges

/-- An operation that adds no ban removes some, or changes the range bans alone. -/
theorem exec_reduces (h : Inv m) (now : Int) {op : Op} (noAdd : op.adds = false) :
    Reduces Anything Anything m (m.exec cfg now op).1 ∨
      ∃ l, (m.exec cfg now op).1 = { m with rangeBanList := l } := by
  cases ranges : op.onRanges with
  | false => exact .inl (exec_removes cfg h now noAdd ranges)
  | true => exact .inr (exec_ranges cfg now ranges)

theorem inv_exec (h : Inv m) (now : Int) (op : Op) : Inv (m.exec cfg now op).1 := by
  cases noAdd : op.adds with
  | false =>
    rcases exec_reduces cfg h now noAdd with r | ⟨l, eq⟩
    · exact inv_reduces h r
    · rw [eq]
      exact inv_rangeBanList h l
  | true =>
    cases op with
    | ban u r by_ full => exact inv_addUser cfg h now _ _ u rfl rfl r by_
    | tempBan u r by_ mins till full => exact inv_addUser cfg h now _ _ u rfl rfl r by_
    | banIp u s r by_ full =>
      simp only [exec, Prod.map_fst, id_eq, banIp]
      split
      · exact inv_discard h _
      · rename_i p eq
        obtain ⟨hash, text, rfl⟩ := targetIp_some cfg eq
        exact inv_addIp cfg h now _ ⟨rfl, fun hn => by cases hn⟩ r by_
    | tempBanIp u s r by_ mins till full =>
      simp only [exec, Prod.map_fst, id_eq, tempBanIp]
      split
      · exact inv_discard h _
      · rename_i p eq
        obtain ⟨hash, text, rfl⟩ := targetIp_some cfg eq
        exact inv_addIp cfg h now _ ⟨rfl, fun hn => by cases hn⟩ r by_
    | nickBan u s r by_ =>
      simp only [exec, Prod.map_fst, id_eq, nickBan]
      split
      · exact inv_discard h _
      · rename_i p eq
        obtain ⟨-, hash, temp, perm⟩ := targetNick_some eq
        exact inv_addNick cfg h now _ p ⟨by rw [temp, perm]; rfl, fun _ => hash⟩ hash r by_
    | nickTempBan u s r by_ mins till =>
      simp only [exec, Prod.map_fst, id_eq, nickTempBan]
      split
      · exact inv_discard h _
      · rename_i p eq
        obtain ⟨-, hash, temp, perm⟩ := targetNick_some eq
        exact inv_addNick cfg h now _
          { p with tempBanExpire := expireTime now mins till cfg.defaultTempBanTime }
          ⟨by simp only [temp, perm]; rfl, fun _ => hash⟩ hash r by_
    | _ => cases noAdd

theorem inv_reach (es : List Event) : Inv (reach cfg es) :=
  run_invariant Inv (fun _ e h => inv_exec cfg h e.now e.op) es inv_empty

/-- The lists, the nick table and the chains agree. -/
structure Represents (m : BanManager) : Prop where
  /-- A ban is in one list, once, and in the one its bits name. -/
  lists : ∀ b, m.Live b →
    m.permBanList.count b = (if (m.ban b).perm then 1 else 0) ∧
    m.tempBanList.count b = (if (m.ban b).temp then 1 else 0) ∧
    ((m.ban b).temp = !(m.ban b).perm)
  /-- The nick table holds the bans of the lists that have the NICK bit, once and
  under the hash of their nick, and nothing else. -/
  nicks : ∀ key b, (m.nickBanTable key).count b =
    if m.Live b ∧ (m.ban b).nick = true ∧ key = hashNick (m.ban b).sNick then 1 else 0
  /-- The chain of an IP holds the bans of the lists that have the IP bit and this
  IP, once, and nothing else. -/
  chains : ∀ ip, ∃ c, m.Chain ip c

theorem Inv.represents (h : Inv m) : Represents m where
  lists b hb := by
    have bits := h.bits hb
    have inPerm := h.mem_perm_iff hb
    have inTemp := h.mem_temp_iff hb
    refine ⟨?_, ?_, bits⟩
    · rw [h.permNodup.count]
      simp only [inPerm]
    · rw [h.tempNodup.count]
      simp only [inTemp, bits, Bool.not_eq_true']
  nicks key b := by
    rw [(h.nickNodup key).count]
    congr 1
    rw [h.nickTable, eq_iff_iff]
    constructor
    · rintro ⟨hl, hn, hk⟩
      exact ⟨hl, hn, hk.symm.trans (h.nickHash b hl hn)⟩
    · rintro ⟨hl, hn, hk⟩
      exact ⟨hl, hn, (h.nickHash b hl hn).trans hk.symm⟩
  chains := h.ipTable

/-- In every store the operations lead to, the lists, the nick table and the IP
chains agree, and the lookups find a ban exactly when an unexpired one exists. -/
theorem ban_store_represents (es : List Event) :
    Represents (reach cfg es) ∧
    (∀ sNick now, ((reach cfg es).findNick sNick now).2.isSome ↔
      ∃ b, (reach cfg es).Live b ∧ ((reach cfg es).ban b).nick = true ∧
        iequals ((reach cfg es).ban b).sNick sNick = true ∧
        ((reach cfg es).ban b).expired now = false) ∧
    (∀ ip now, ((reach cfg es).findIP ip now).2.isSome ↔
      ∃ b, (reach cfg es).Live b ∧ ((reach cfg es).ban b).ip = true ∧
        ((reach cfg es).ban b).ipHash = ip ∧ ((reach cfg es).ban b).expired now = false) := by
  have h := inv_reach cfg es
  refine ⟨h.represents, fun sNick now => ?_, fun ip now => ?_⟩
  · obtain ⟨rs, -, spec⟩ := findNickBanGeneric_spec h sNick now anyBits
    unfold findNick
    cases found : ((reach cfg es).findNickBanGeneric (hashNick sNick) now sNick anyBits).2 with
    | none =>
      simp only [found] at spec
      simp only [Option.isSome_none, Bool.false_eq_true, false_iff, not_exists]
      rintro b ⟨hl, hn, same, unexpired⟩
      have none := spec b hl hn same unexpired
      simp [anyBits] at none
    | some b =>
      simp only [found] at spec
      simp only [Option.isSome_some, true_iff]
      exact ⟨b, spec.1, spec.2.2.1, spec.2.2.2.1, spec.2.2.2.2⟩
  · obtain ⟨rs, -, spec⟩ := findIpBanGeneric_spec h ip now anyBits
    unfold findIP
    cases found : ((reach cfg es).findIpBanGeneric ip now anyBits).2 with
    | none =>
      simp only [found] at spec
      simp only [Option.isSome_none, Bool.false_eq_true, false_iff, not_exists]
      rintro b ⟨hl, hi, key, unexpired⟩
      rw [spec b hl hi key] at unexpired
      cases unexpired
    | some b =>
      simp only [found] at spec
      simp only [Option.isSome_some, true_iff]
      exact ⟨b, spec.1, spec.2.2.1, spec.2.2.2.1, spec.2.2.2.2⟩

end

end BanManager

end FlyHub.Ban
