import FlyHub.Ban.Manager

/-!
# The representation invariant

The two lists say which bans there are. The nick table and the IP chains hold
exactly those of them that have the bit, each once and under its own key. The
three changes the operations make to the store keep this.
-/

namespace FlyHub.Ban

open FlyHub.Lib

namespace BanManager

/-- The ban is in one of the lists. -/
def Live (m : BanManager) (b : BanId) : Prop := b ∈ m.tempBanList ∨ b ∈ m.permBanList

instance (m : BanManager) (b : BanId) : Decidable (m.Live b) :=
  inferInstanceAs (Decidable (_ ∨ _))

/-- The chain of an IP, read as a list. -/
structure Chain (m : BanManager) (ip : IpHash) (c : List BanId) : Prop where
  nodup : c.Nodup
  linked : LinkedFrom m.links none c
  mem : ∀ b, b ∈ c ↔ m.Live b ∧ (m.ban b).ip = true ∧ (m.ban b).ipHash = ip
  head : m.ipBanTable ip = c.head?.map fun b => ⟨some b⟩

structure Inv (m : BanManager) : Prop where
  bounded : ∀ b, m.Live b → b < m.next
  tempNodup : m.tempBanList.Nodup
  permNodup : m.permBanList.Nodup
  tempBits : ∀ b ∈ m.tempBanList, (m.ban b).temp = true ∧ (m.ban b).perm = false
  permBits : ∀ b ∈ m.permBanList, (m.ban b).perm = true ∧ (m.ban b).temp = false
  nickHash : ∀ b, m.Live b → (m.ban b).nick = true → (m.ban b).nickHash = hashNick (m.ban b).sNick
  nickNodup : ∀ h, (m.nickBanTable h).Nodup
  nickTable : ∀ h b, b ∈ m.nickBanTable h ↔
    m.Live b ∧ (m.ban b).nick = true ∧ (m.ban b).nickHash = h
  ipTable : ∀ ip, ∃ c, m.Chain ip c
  unlinked : ∀ b, m.next ≤ b → m.links.prev b = none ∧ m.links.next b = none

theorem inv_empty : Inv empty where
  bounded b h := by simp [Live, empty] at h
  tempNodup := List.nodup_nil
  permNodup := List.nodup_nil
  tempBits b h := by simp [empty] at h
  permBits b h := by simp [empty] at h
  nickHash b h := by simp [Live, empty] at h
  nickNodup _ := List.nodup_nil
  nickTable h b := by simp [Live, empty]
  ipTable ip := ⟨[], List.nodup_nil, trivial, fun b => by simp [Live, empty], rfl⟩
  unlinked _ _ := ⟨rfl, rfl⟩

/-- The bits name the list a ban is in. -/
theorem Inv.bits {m : BanManager} (h : Inv m) {b : BanId} (hb : m.Live b) :
    (m.ban b).temp = !(m.ban b).perm := by
  rcases hb with hb | hb
  · obtain ⟨ht, hp⟩ := h.tempBits b hb
    rw [ht, hp]; rfl
  · obtain ⟨hp, ht⟩ := h.permBits b hb
    rw [ht, hp]; rfl

theorem Inv.mem_perm_iff {m : BanManager} (h : Inv m) {b : BanId} (hb : m.Live b) :
    b ∈ m.permBanList ↔ (m.ban b).perm = true := by
  constructor
  · exact fun hp => (h.permBits b hp).1
  · intro hp
    rcases hb with hb | hb
    · rw [(h.tempBits b hb).2] at hp
      cases hp
    · exact hb

theorem Inv.mem_temp_iff {m : BanManager} (h : Inv m) {b : BanId} (hb : m.Live b) :
    b ∈ m.tempBanList ↔ (m.ban b).perm = false := by
  constructor
  · exact fun ht => (h.tempBits b ht).2
  · intro hp
    rcases hb with hb | hb
    · exact hb
    · rw [(h.permBits b hb).1] at hp
      cases hp

/-- The invariant reads neither the range bans nor the release counts. -/
theorem Inv.congr {m m' : BanManager} (h : Inv m) (hban : m'.ban = m.ban)
    (hlinks : m'.links = m.links) (hnext : m'.next = m.next)
    (hnick : m'.nickBanTable = m.nickBanTable) (hip : m'.ipBanTable = m.ipBanTable)
    (htemp : m'.tempBanList = m.tempBanList) (hperm : m'.permBanList = m.permBanList) : Inv m' := by
  obtain ⟨ban, links, next, nickT, ipT, temp, perm, range, released⟩ := m
  obtain ⟨ban', links', next', nickT', ipT', temp', perm', range', released'⟩ := m'
  simp only at hban hlinks hnext hnick hip htemp hperm
  subst hban hlinks hnext hnick hip htemp hperm
  exact ⟨h.bounded, h.tempNodup, h.permNodup, h.tempBits, h.permBits, h.nickHash, h.nickNodup,
    h.nickTable, fun ip => (h.ipTable ip).imp fun c hc => ⟨hc.nodup, hc.linked, hc.mem, hc.head⟩,
    h.unlinked⟩

section
variable (m : BanManager) (b : BanId)

theorem exists_remFromIpTable_eq :
    ∃ links table, m.remFromIpTable b = { m with links := links, ipBanTable := table } := by
  unfold remFromIpTable
  split
  · simp only
    split
    · exact ⟨_, m.ipBanTable, rfl⟩
    · exact ⟨_, _, rfl⟩
  · exact ⟨_, m.ipBanTable, rfl⟩

/-- Everything `Rem` and its guard do. -/
theorem remove_eq : m.remove b =
    { m with
      links := if (m.ban b).ip then (m.remFromIpTable b).links else m.links
      ipBanTable := if (m.ban b).ip then (m.remFromIpTable b).ipBanTable else m.ipBanTable
      nickBanTable :=
        if (m.ban b).nick then
          Function.update m.nickBanTable (m.ban b).nickHash
            ((m.nickBanTable (m.ban b).nickHash).erase b)
        else m.nickBanTable
      tempBanList := if (m.ban b).perm then m.tempBanList else m.tempBanList.erase b
      permBanList := if (m.ban b).perm then m.permBanList.erase b else m.permBanList
      released := (m.remove b).released } := by
  obtain ⟨links, table, ipEq⟩ := exists_remFromIpTable_eq m b
  have tables : m.remFromTable b =
      { m with
        links := if (m.ban b).ip then (m.remFromIpTable b).links else m.links
        ipBanTable := if (m.ban b).ip then (m.remFromIpTable b).ipBanTable else m.ipBanTable
        nickBanTable :=
          if (m.ban b).nick then
            Function.update m.nickBanTable (m.ban b).nickHash
              ((m.nickBanTable (m.ban b).nickHash).erase b)
          else m.nickBanTable } := by
    unfold remFromTable
    by_cases i : (m.ban b).ip <;> by_cases n : (m.ban b).nick <;>
      simp [i, n, ipEq, remFromNickTable]
  simp only [remove, rem, release, tables]
  by_cases p : (m.ban b).perm
  · by_cases h : b ∈ m.permBanList
    · simp [p, h]
    · simp [p, h, List.erase_of_not_mem]
  · by_cases h : b ∈ m.tempBanList
    · simp [p, h]
    · simp [p, h, List.erase_of_not_mem]

@[simp] theorem remove_ban : (m.remove b).ban = m.ban := by rw [remove_eq]

@[simp] theorem remove_next : (m.remove b).next = m.next := by rw [remove_eq]

@[simp] theorem remove_rangeBanList : (m.remove b).rangeBanList = m.rangeBanList := by
  rw [remove_eq]

variable {m b}

theorem live_remove (h : Inv m) (hb : m.Live b) {x : BanId} :
    (m.remove b).Live x ↔ m.Live x ∧ x ≠ b := by
  have inTemp := h.mem_temp_iff hb
  have inPerm := h.mem_perm_iff hb
  rw [remove_eq]
  by_cases p : (m.ban b).perm
  · have notTemp : b ∉ m.tempBanList := by simp [inTemp, p]
    simp only [Live, p, ↓reduceIte, h.permNodup.mem_erase_iff]
    constructor
    · rintro (ht | ⟨ne, hp⟩)
      · exact ⟨.inl ht, by rintro rfl; exact notTemp ht⟩
      · exact ⟨.inr hp, ne⟩
    · rintro ⟨ht | hp, ne⟩
      · exact .inl ht
      · exact .inr ⟨ne, hp⟩
  · have notPerm : b ∉ m.permBanList := by simp [inPerm, p]
    simp only [Live, p, ↓reduceIte, h.tempNodup.mem_erase_iff, Bool.false_eq_true]
    constructor
    · rintro (⟨ne, ht⟩ | hp)
      · exact ⟨.inl ht, ne⟩
      · exact ⟨.inr hp, by rintro rfl; exact notPerm hp⟩
    · rintro ⟨ht | hp, ne⟩
      · exact .inl ⟨ne, ht⟩
      · exact .inr hp

/-- Taking a ban out of its chain. -/
theorem remFromIpTable_chain {pre post : List BanId}
    (hc : m.Chain (m.ban b).ipHash (pre ++ b :: post)) :
    (m.remFromIpTable b).links = m.links.unlink b ∧
    (m.remFromIpTable b).ipBanTable = Function.update m.ipBanTable (m.ban b).ipHash
      ((pre ++ post).head?.map fun b => ⟨some b⟩) := by
  obtain ⟨hprev, hnext⟩ := hc.linked.links
  unfold remFromIpTable
  cases pre with
  | nil =>
    have entry := hc.head
    simp only [List.nil_append, List.head?_cons, Option.map_some] at entry
    simp only [List.getLast?_nil, Option.or_none] at hprev
    rw [hprev]
    simp only [entry, hnext, true_and]
    cases post <;> rfl
  | cons a pre =>
    have entry := hc.head
    obtain ⟨x, hx⟩ : ∃ x, m.links.prev b = some x := by
      rw [hprev, List.getLast?_cons]
      exact ⟨_, rfl⟩
    simp only [List.cons_append, List.head?_cons, Option.map_some] at entry ⊢
    rw [hx, ← entry, Function.update_eq_self]
    exact ⟨rfl, rfl⟩

theorem erase_mid {pre post : List BanId} (h : (pre ++ b :: post).Nodup) :
    (pre ++ b :: post).erase b = pre ++ post := by
  have notin : b ∉ pre := by
    intro hb
    exact (List.nodup_append.mp h).2.2 b hb b (by simp) rfl
  rw [List.erase_append_right _ notin, List.erase_cons_head]

theorem chain_remove (h : Inv m) (hb : m.Live b) {ip : IpHash} {c : List BanId}
    (hc : m.Chain ip c) : (m.remove b).Chain ip (c.erase b) := by
  have mem : ∀ x, x ∈ c.erase b ↔
      (m.remove b).Live x ∧ ((m.remove b).ban x).ip = true ∧ ((m.remove b).ban x).ipHash = ip := by
    intro x
    rw [hc.nodup.mem_erase_iff, hc.mem, live_remove h hb, remove_ban]
    tauto
  by_cases i : (m.ban b).ip
  · by_cases key : (m.ban b).ipHash = ip
    · obtain ⟨pre, post, rfl⟩ := List.append_of_mem ((hc.mem b).mpr ⟨hb, i, key⟩)
      subst key
      obtain ⟨links, table⟩ := remFromIpTable_chain hc
      rw [erase_mid hc.nodup] at mem ⊢
      refine ⟨hc.nodup.sublist (by simp), ?_, mem, ?_⟩
      · rw [remove_eq]
        simp only [i, ↓reduceIte, links]
        exact hc.linked.unlink hc.nodup (by simp)
      · rw [remove_eq]
        simp only [i, ↓reduceIte, table, Function.update_self]
    · have notin : b ∉ c := fun hin => key ((hc.mem b).mp hin).2.2
      rw [List.erase_of_not_mem notin] at mem ⊢
      obtain ⟨c', hc'⟩ := h.ipTable (m.ban b).ipHash
      obtain ⟨pre, post, rfl⟩ := List.append_of_mem ((hc'.mem b).mpr ⟨hb, i, rfl⟩)
      obtain ⟨links, table⟩ := remFromIpTable_chain hc'
      obtain ⟨hprev, hnext⟩ := hc'.linked.links
      have apart : ∀ x ∈ c, x ∉ pre ++ b :: post := by
        intro x hx hx'
        exact key (((hc'.mem x).mp hx').2.2.symm.trans ((hc.mem x).mp hx).2.2)
      refine ⟨hc.nodup, ?_, mem, ?_⟩
      · rw [remove_eq]
        simp only [i, ↓reduceIte, links]
        refine hc.linked.unlink_frame fun x hx => ⟨?_, ?_, ?_⟩
        · rintro rfl
          exact notin hx
        · rw [hnext]
          intro e
          exact apart x hx (by simp [List.mem_of_mem_head? e])
        · rw [hprev, Option.or_none]
          intro e
          exact apart x hx (by simp [List.mem_of_getLast? e])
      · rw [remove_eq]
        simp only [i, ↓reduceIte, table]
        rw [Function.update_of_ne (Ne.symm key)]
        exact hc.head
  · have notin : b ∉ c := fun hin => i ((hc.mem b).mp hin).2.1
    rw [List.erase_of_not_mem notin] at mem ⊢
    refine ⟨hc.nodup, ?_, mem, ?_⟩
    · rw [remove_eq]
      simpa only [i, ↓reduceIte, Bool.false_eq_true] using hc.linked
    · rw [remove_eq]
      simpa only [i, ↓reduceIte, Bool.false_eq_true] using hc.head

theorem inv_remove (h : Inv m) (hb : m.Live b) : Inv (m.remove b) := by
  have sub : ∀ {x}, (m.remove b).Live x → m.Live x := fun hx => ((live_remove h hb).mp hx).1
  have lists : (m.remove b).tempBanList.Sublist m.tempBanList ∧
      (m.remove b).permBanList.Sublist m.permBanList := by
    rw [remove_eq]
    by_cases p : (m.ban b).perm <;> simp [p, List.erase_sublist]
  have bucket : ∀ key, (m.remove b).nickBanTable key =
      if (m.ban b).nick = true ∧ (m.ban b).nickHash = key then (m.nickBanTable key).erase b
      else m.nickBanTable key := by
    intro key
    rw [remove_eq]
    by_cases n : (m.ban b).nick
    · by_cases same : (m.ban b).nickHash = key
      · subst same; simp [n]
      · simp [n, same, Function.update_of_ne (Ne.symm same)]
    · simp [n]
  exact {
    bounded := fun x hx => by simpa using h.bounded x (sub hx)
    tempNodup := h.tempNodup.sublist lists.1
    permNodup := h.permNodup.sublist lists.2
    tempBits := fun x hx => by simpa using h.tempBits x (lists.1.subset hx)
    permBits := fun x hx => by simpa using h.permBits x (lists.2.subset hx)
    nickHash := fun x hx hn => by
      rw [remove_ban] at hn ⊢
      exact h.nickHash x (sub hx) hn
    nickNodup := fun key => by
      rw [bucket]
      split
      · exact (h.nickNodup key).sublist List.erase_sublist
      · exact h.nickNodup key
    nickTable := fun key x => by
      rw [bucket, live_remove h hb, remove_ban]
      split
      · rw [(h.nickNodup key).mem_erase_iff, h.nickTable]
        tauto
      · rename_i other
        rw [h.nickTable]
        constructor
        · rintro ⟨hx, hn, hk⟩
          exact ⟨⟨hx, by rintro rfl; exact other ⟨hn, hk⟩⟩, hn, hk⟩
        · rintro ⟨⟨hx, -⟩, hn, hk⟩
          exact ⟨hx, hn, hk⟩
    ipTable := fun ip => by
      obtain ⟨c, hc⟩ := h.ipTable ip
      exact ⟨_, chain_remove h hb hc⟩
    unlinked := fun x hx => by
      rw [remove_next] at hx
      have old := h.unlinked x hx
      rw [remove_eq]
      by_cases i : (m.ban b).ip
      · obtain ⟨c, hc⟩ := h.ipTable (m.ban b).ipHash
        obtain ⟨pre, post, rfl⟩ := List.append_of_mem ((hc.mem b).mpr ⟨hb, i, rfl⟩)
        obtain ⟨hprev, hnext⟩ := hc.linked.links
        have outside : ∀ y ∈ pre ++ b :: post, y ≠ x := by
          rintro y hy rfl
          exact Nat.not_lt.mpr hx (h.bounded y ((hc.mem y).mp hy).1)
        have noNext : m.links.next b ≠ some x := by
          rw [hnext]
          intro e
          exact outside x (by simp [List.mem_of_mem_head? e]) rfl
        have noPrev : m.links.prev b ≠ some x := by
          rw [hprev, Option.or_none]
          intro e
          exact outside x (by simp [List.mem_of_getLast? e]) rfl
        simp [i, (remFromIpTable_chain hc).1, Links.unlink, noNext, noPrev, old]
      · simpa [i] using old }

theorem stripNick_live {x : BanId} : (m.stripNick b).Live x ↔ m.Live x := Iff.rfl

theorem stripNick_ban : (m.stripNick b).ban =
    Function.update m.ban b { m.ban b with nick := false } := rfl

/-- Only the NICK bit of a record changes. -/
theorem stripNick_ban_eq (x : BanId) :
    (m.stripNick b).ban x = { m.ban x with nick := (m.ban x).nick && decide (x ≠ b) } := by
  rw [stripNick_ban]
  by_cases hx : x = b
  · subst hx; simp
  · simp [hx]

theorem chain_stripNick {ip : IpHash} {c : List BanId} (hc : m.Chain ip c) :
    (m.stripNick b).Chain ip c :=
  ⟨hc.nodup, hc.linked, fun x => by simp only [stripNick_ban_eq]; exact hc.mem x, hc.head⟩

theorem inv_stripNick (h : Inv m) (hn : (m.ban b).nick = true) : Inv (m.stripNick b) := by
  have bucket : ∀ key, (m.stripNick b).nickBanTable key =
      if (m.ban b).nickHash = key then (m.nickBanTable key).erase b else m.nickBanTable key := by
    intro key
    simp only [stripNick, remFromNickTable]
    by_cases same : (m.ban b).nickHash = key
    · subst same; simp
    · simp [same, Function.update_of_ne (Ne.symm same)]
  exact {
    bounded := h.bounded
    tempNodup := h.tempNodup
    permNodup := h.permNodup
    tempBits := fun x hx => by simp only [stripNick_ban_eq]; exact h.tempBits x hx
    permBits := fun x hx => by simp only [stripNick_ban_eq]; exact h.permBits x hx
    nickHash := fun x hx hnx => by
      simp only [stripNick_ban_eq, Bool.and_eq_true] at hnx ⊢
      exact h.nickHash x hx hnx.1
    nickNodup := fun key => by
      rw [bucket]
      split
      · exact (h.nickNodup key).sublist List.erase_sublist
      · exact h.nickNodup key
    nickTable := fun key x => by
      simp only [bucket, stripNick_ban_eq, stripNick_live, Bool.and_eq_true, decide_eq_true_eq]
      split
      · rw [(h.nickNodup key).mem_erase_iff, h.nickTable]
        tauto
      · rename_i other
        rw [h.nickTable]
        constructor
        · rintro ⟨hx, hnx, hk⟩
          exact ⟨hx, ⟨hnx, by rintro rfl; exact other hk⟩, hk⟩
        · rintro ⟨hx, ⟨hnx, -⟩, hk⟩
          exact ⟨hx, hnx, hk⟩
    ipTable := fun ip => (h.ipTable ip).imp fun c hc => chain_stripNick hc
    unlinked := h.unlinked }

theorem alloc_ban_of_live (h : Inv m) {item : BanItem} {x : BanId} (hx : m.Live x) :
    (m.alloc item).ban x = m.ban x := by
  have old : x ≠ m.next := fun e => Nat.lt_irrefl _ (e ▸ h.bounded x hx)
  simp [alloc, old]

theorem inv_alloc (h : Inv m) (item : BanItem) : Inv (m.alloc item) := by
  have same : ∀ x, m.Live x → (m.alloc item).ban x = m.ban x := fun x => alloc_ban_of_live h
  have live : ∀ x, (m.alloc item).Live x ↔ m.Live x := fun _ => Iff.rfl
  exact {
    bounded := fun x hx => Nat.lt_succ_of_lt (h.bounded x hx)
    tempNodup := h.tempNodup
    permNodup := h.permNodup
    tempBits := fun x hx => by rw [same x (.inl hx)]; exact h.tempBits x hx
    permBits := fun x hx => by rw [same x (.inr hx)]; exact h.permBits x hx
    nickHash := fun x hx => by rw [same x hx]; exact h.nickHash x hx
    nickNodup := h.nickNodup
    nickTable := fun key x => by
      rw [live]
      constructor
      · intro hx
        obtain ⟨hl, hn, hk⟩ := (h.nickTable key x).mp hx
        rw [same x hl]
        exact ⟨hl, hn, hk⟩
      · rintro ⟨hl, hn, hk⟩
        rw [same x hl] at hn hk
        exact (h.nickTable key x).mpr ⟨hl, hn, hk⟩
    ipTable := fun ip => by
      obtain ⟨c, hc⟩ := h.ipTable ip
      refine ⟨c, hc.nodup, hc.linked, fun x => ?_, hc.head⟩
      rw [live]
      constructor
      · intro hx
        obtain ⟨hl, hi, hk⟩ := (hc.mem x).mp hx
        rw [same x hl]
        exact ⟨hl, hi, hk⟩
      · rintro ⟨hl, hi, hk⟩
        rw [same x hl] at hi hk
        exact (hc.mem x).mpr ⟨hl, hi, hk⟩
    unlinked := fun x hx => h.unlinked x (Nat.le_of_succ_le hx) }

theorem inv_discard (h : Inv m) (item : BanItem) : Inv (m.discard item) :=
  (inv_alloc h item).congr rfl rfl rfl rfl rfl rfl rfl

/-- A record that an adder may hand to the store. -/
structure WellFormed (item : BanItem) : Prop where
  bits : item.temp = !item.perm
  nickHash : item.nick = true → item.nickHash = hashNick item.sNick

theorem add_eq (place : Placement) (m : BanManager) (b : BanId) : m.add place b =
    { m with
      links := if (m.ban b).ip then (m.add2IpTable b).links else m.links
      ipBanTable :=
        if (m.ban b).ip then Function.update m.ipBanTable (m.ban b).ipHash (some ⟨some b⟩)
        else m.ipBanTable
      nickBanTable :=
        if (m.ban b).nick then
          Function.update m.nickBanTable (m.ban b).nickHash
            (place.insert b (m.nickBanTable (m.ban b).nickHash))
        else m.nickBanTable
      tempBanList := if (m.ban b).perm then m.tempBanList else m.tempBanList ++ [b]
      permBanList := if (m.ban b).perm then m.permBanList ++ [b] else m.permBanList } := by
  have ipEq : m.add2IpTable b =
      { m with
        links := (m.add2IpTable b).links
        ipBanTable := Function.update m.ipBanTable (m.ban b).ipHash (some ⟨some b⟩) } := by
    unfold add2IpTable
    simp only
    split <;> rfl
  unfold add add2Table
  by_cases i : (m.ban b).ip
  · rw [ipEq]
    by_cases n : (m.ban b).nick <;> by_cases p : (m.ban b).perm <;>
      simp [i, n, p, add2NickTable]
  · by_cases n : (m.ban b).nick <;> by_cases p : (m.ban b).perm <;>
      simp [i, n, p, add2NickTable]

theorem add_live (place : Placement) {x : BanId} :
    (m.add place b).Live x ↔ m.Live x ∨ x = b := by
  rw [add_eq]
  by_cases p : (m.ban b).perm <;> simp [Live, p] <;> tauto

@[simp] theorem add_ban (place : Placement) : (m.add place b).ban = m.ban := by rw [add_eq]

theorem chain_add (place : Placement) (h : Inv m) (new : ¬ m.Live b)
    (unlinked : m.links.prev b = none ∧ m.links.next b = none) {ip : IpHash} {c : List BanId}
    (hc : m.Chain ip c) :
    (m.add place b).Chain ip
      (if (m.ban b).ip = true ∧ (m.ban b).ipHash = ip then b :: c else c) := by
  have fresh : ∀ {ip c}, m.Chain ip c → b ∉ c := fun hc hb => new ((hc.mem b).mp hb).1
  have links : ∀ {c}, m.Chain (m.ban b).ipHash c → (m.add2IpTable b).links =
      if c = [] then m.links else m.links.pushFront b c.head? := by
    intro c hc
    have entry := hc.head
    unfold add2IpTable
    cases c with
    | nil =>
      simp only [List.head?_nil, Option.map_none] at entry
      simp [entry]
    | cons a c =>
      simp only [List.head?_cons, Option.map_some] at entry
      simp [entry]
  by_cases i : (m.ban b).ip
  · by_cases key : (m.ban b).ipHash = ip
    · subst key
      simp only [i, and_self, ↓reduceIte]
      refine ⟨List.nodup_cons.mpr ⟨fresh hc, hc.nodup⟩, ?_, fun x => ?_, ?_⟩
      · rw [add_eq]
        simp only [i, ↓reduceIte, links hc]
        cases c with
        | nil => exact ⟨unlinked.1, unlinked.2, trivial⟩
        | cons a c => exact hc.linked.pushFront hc.nodup (fresh hc) unlinked.1
      · rw [List.mem_cons, hc.mem, add_live, add_ban]
        constructor
        · rintro (rfl | ⟨hl, hi, hk⟩)
          · exact ⟨.inr rfl, i, rfl⟩
          · exact ⟨.inl hl, hi, hk⟩
        · rintro ⟨hl | rfl, hi, hk⟩
          · exact .inr ⟨hl, hi, hk⟩
          · exact .inl rfl
      · rw [add_eq]
        simp [i]
    · simp only [i, key, and_false, ↓reduceIte]
      refine ⟨hc.nodup, ?_, fun x => ?_, ?_⟩
      · obtain ⟨c', hc'⟩ := h.ipTable (m.ban b).ipHash
        rw [add_eq]
        simp only [i, ↓reduceIte, links hc']
        split
        · exact hc.linked
        · refine hc.linked.pushFront_frame fun x hx => ⟨?_, fun e => ?_⟩
          · rintro rfl
            exact fresh hc hx
          · have hx' := (hc'.mem x).mp (List.mem_of_mem_head? e)
            exact key (hx'.2.2.symm.trans ((hc.mem x).mp hx).2.2)
      · rw [hc.mem, add_live, add_ban]
        constructor
        · rintro ⟨hl, hi, hk⟩
          exact ⟨.inl hl, hi, hk⟩
        · rintro ⟨hl | rfl, hi, hk⟩
          · exact ⟨hl, hi, hk⟩
          · exact absurd hk key
      · rw [add_eq]
        simp only [i, ↓reduceIte]
        rw [Function.update_of_ne (Ne.symm key)]
        exact hc.head
  · simp only [i, Bool.false_eq_true, false_and, ↓reduceIte]
    refine ⟨hc.nodup, ?_, fun x => ?_, ?_⟩
    · rw [add_eq]
      simpa only [i, Bool.false_eq_true, ↓reduceIte] using hc.linked
    · rw [hc.mem, add_live, add_ban]
      constructor
      · rintro ⟨hl, hi, hk⟩
        exact ⟨.inl hl, hi, hk⟩
      · rintro ⟨hl | rfl, hi, hk⟩
        · exact ⟨hl, hi, hk⟩
        · exact absurd hi i
    · rw [add_eq]
      simpa only [i, Bool.false_eq_true, ↓reduceIte] using hc.head

theorem inv_add (place : Placement) (h : Inv m) (new : ¬ m.Live b) (bound : b < m.next)
    (unlinked : m.links.prev b = none ∧ m.links.next b = none) (wf : WellFormed (m.ban b)) :
    Inv (m.add place b) := by
  have lists : (m.add place b).tempBanList =
        (if (m.ban b).perm then m.tempBanList else m.tempBanList ++ [b]) ∧
      (m.add place b).permBanList =
        (if (m.ban b).perm then m.permBanList ++ [b] else m.permBanList) := by
    rw [add_eq]
    exact ⟨rfl, rfl⟩
  have bucket : ∀ key, (m.add place b).nickBanTable key =
      if (m.ban b).nick = true ∧ (m.ban b).nickHash = key then
        place.insert b (m.nickBanTable key)
      else m.nickBanTable key := by
    intro key
    rw [add_eq]
    by_cases n : (m.ban b).nick
    · by_cases same : (m.ban b).nickHash = key
      · subst same; simp [n]
      · simp [n, same, Function.update_of_ne (Ne.symm same)]
    · simp [n]
  have notin : b ∉ m.tempBanList ∧ b ∉ m.permBanList :=
    ⟨fun hb => new (.inl hb), fun hb => new (.inr hb)⟩
  have snoc : ∀ {l : List BanId}, l.Nodup → b ∉ l → (l ++ [b]).Nodup := fun hl hb =>
    List.nodup_append.mpr ⟨hl, List.nodup_singleton b, by
      rintro x hx y hy rfl
      rw [List.mem_singleton] at hy
      exact hb (hy ▸ hx)⟩
  exact {
    bounded := fun x hx => by
      rw [add_eq]
      rcases (add_live place).mp hx with hx | rfl
      · exact h.bounded x hx
      · exact bound
    tempNodup := by
      rw [lists.1]
      split
      · exact h.tempNodup
      · exact snoc h.tempNodup notin.1
    permNodup := by
      rw [lists.2]
      split
      · exact snoc h.permNodup notin.2
      · exact h.permNodup
    tempBits := fun x hx => by
      rw [lists.1] at hx
      rw [add_ban]
      split at hx
      · exact h.tempBits x hx
      · rename_i p
        rcases List.mem_append.mp hx with hx | hx
        · exact h.tempBits x hx
        · rw [List.mem_singleton] at hx
          subst hx
          have bits := wf.bits
          simp only [Bool.not_eq_true] at p
          rw [p] at bits
          exact ⟨bits, p⟩
    permBits := fun x hx => by
      rw [lists.2] at hx
      rw [add_ban]
      split at hx
      · rename_i p
        rcases List.mem_append.mp hx with hx | hx
        · exact h.permBits x hx
        · rw [List.mem_singleton] at hx
          subst hx
          have bits := wf.bits
          rw [p] at bits
          exact ⟨p, bits⟩
      · exact h.permBits x hx
    nickHash := fun x hx hn => by
      rw [add_ban] at hn ⊢
      rcases (add_live place).mp hx with hx | rfl
      · exact h.nickHash x hx hn
      · exact wf.nickHash hn
    nickNodup := fun key => by
      rw [bucket]
      split
      · refine (place.perm _ _).nodup_iff.mpr (List.nodup_cons.mpr ⟨?_, h.nickNodup key⟩)
        exact fun hb => new ((h.nickTable key b).mp hb).1
      · exact h.nickNodup key
    nickTable := fun key x => by
      rw [bucket, add_live, add_ban]
      split
      · rename_i here
        rw [(place.perm _ _).mem_iff, List.mem_cons, h.nickTable]
        constructor
        · rintro (rfl | ⟨hl, hn, hk⟩)
          · exact ⟨.inr rfl, here⟩
          · exact ⟨.inl hl, hn, hk⟩
        · rintro ⟨hl | rfl, hn, hk⟩
          · exact .inr ⟨hl, hn, hk⟩
          · exact .inl rfl
      · rename_i other
        rw [h.nickTable]
        constructor
        · rintro ⟨hl, hn, hk⟩
          exact ⟨.inl hl, hn, hk⟩
        · rintro ⟨hl | rfl, hn, hk⟩
          · exact ⟨hl, hn, hk⟩
          · exact absurd ⟨hn, hk⟩ other
    ipTable := fun ip => by
      obtain ⟨c, hc⟩ := h.ipTable ip
      exact ⟨_, chain_add place h new unlinked hc⟩
    unlinked := fun x hx => by
      have hx' : m.next ≤ x := by rw [add_eq] at hx; exact hx
      have old := h.unlinked x hx'
      have xb : x ≠ b := by
        rintro rfl
        exact Nat.not_lt.mpr hx' bound
      rw [add_eq]
      by_cases i : (m.ban b).ip
      · obtain ⟨c, hc⟩ := h.ipTable (m.ban b).ipHash
        have noHead : c.head? ≠ some x := fun e =>
          Nat.not_lt.mpr hx' (h.bounded x ((hc.mem x).mp (List.mem_of_mem_head? e)).1)
        have entry := hc.head
        simp only [i, ↓reduceIte, add2IpTable, entry]
        cases c with
        | nil => simpa using old
        | cons a c =>
          have ax : a ≠ x := fun e => noHead (by simp [e])
          simp [Links.pushFront, xb, ax, old]
      · simpa [i] using old }

/-- Handing a well-formed record to the store. -/
theorem inv_store (place : Placement) (h : Inv m) {item : BanItem} (wf : WellFormed item) :
    Inv (m.store place item) := by
  have new : ¬ (m.alloc item).Live m.next := fun hl => Nat.lt_irrefl _ (h.bounded _ hl)
  exact inv_add place (inv_alloc h item) new (Nat.lt_succ_self _)
    (h.unlinked _ (Nat.le_refl _)) (by simpa [alloc] using wf)

theorem store_live (place : Placement) {item : BanItem} {x : BanId} :
    (m.store place item).Live x ↔ m.Live x ∨ x = m.next := add_live place

theorem store_ban (place : Placement) {item : BanItem} :
    (m.store place item).ban = Function.update m.ban m.next item := add_ban place

end

end BanManager

end FlyHub.Ban
