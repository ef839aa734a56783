import FlyHub.Ban.Inv

/-!
# Scans

What a scan does is decided by the records alone, before anything is removed:
its plan says which bans it removes, keeps and stops at. Under the invariant a
loop over a chain follows the plan of the chain read as a list.
-/

namespace FlyHub.Ban

open FlyHub.Lib

/-- What a scan is going to do. -/
structure Plan where
  removed : List BanId
  kept : List BanId
  stopped : Option BanId

def plan (verdict : BanId → Verdict) : List BanId → Plan
  | [] => ⟨[], [], none⟩
  | b :: bs =>
    match verdict b with
    | .remove => { plan verdict bs with removed := b :: (plan verdict bs).removed }
    | .stop => ⟨[], [], some b⟩
    | .keep => { plan verdict bs with kept := b :: (plan verdict bs).kept }

section
variable {verdict : BanId → Verdict} {l : List BanId}

theorem plan_removed_sublist : (plan verdict l).removed.Sublist l := by
  induction l with
  | nil => exact List.Sublist.refl _
  | cons b l ih =>
    unfold plan
    split
    · exact ih.cons_cons b
    · exact List.nil_sublist _
    · exact ih.cons b

theorem plan_kept_sublist : (plan verdict l).kept.Sublist l := by
  induction l with
  | nil => exact List.Sublist.refl _
  | cons b l ih =>
    unfold plan
    split
    · exact ih.cons b
    · exact List.nil_sublist _
    · exact ih.cons_cons b

theorem plan_removed {x : BanId} (h : x ∈ (plan verdict l).removed) : verdict x = .remove := by
  induction l with
  | nil => simp [plan] at h
  | cons b l ih =>
    unfold plan at h
    split at h
    · rename_i hb
      rcases List.mem_cons.mp h with rfl | h
      · exact hb
      · exact ih h
    · simp at h
    · exact ih h

theorem plan_kept {x : BanId} (h : x ∈ (plan verdict l).kept) : verdict x = .keep := by
  induction l with
  | nil => simp [plan] at h
  | cons b l ih =>
    unfold plan at h
    split at h
    · exact ih h
    · simp at h
    · rename_i hb
      rcases List.mem_cons.mp h with rfl | h
      · exact hb
      · exact ih h

theorem plan_stopped {x : BanId} (h : (plan verdict l).stopped = some x) :
    x ∈ l ∧ verdict x = .stop := by
  induction l with
  | nil => simp [plan] at h
  | cons b l ih =>
    unfold plan at h
    split at h
    · exact ⟨List.mem_cons_of_mem _ (ih h).1, (ih h).2⟩
    · rename_i hb
      obtain rfl : b = x := by simpa using h
      exact ⟨List.mem_cons_self, hb⟩
    · exact ⟨List.mem_cons_of_mem _ (ih h).1, (ih h).2⟩

/-- A scan that does not stop deals with every ban by its verdict. -/
theorem plan_complete (h : (plan verdict l).stopped = none) {x : BanId} (hx : x ∈ l) :
    (verdict x = .remove ∧ x ∈ (plan verdict l).removed) ∨
      (verdict x = .keep ∧ x ∈ (plan verdict l).kept) := by
  induction l with
  | nil => simp at hx
  | cons b l ih =>
    unfold plan at h ⊢
    split at h
    · rename_i hb
      simp only at h ⊢
      rcases List.mem_cons.mp hx with rfl | hx
      · exact .inl ⟨hb, List.mem_cons_self⟩
      · rcases ih h hx with ⟨v, r⟩ | ⟨v, k⟩
        · exact .inl ⟨v, List.mem_cons_of_mem _ r⟩
        · exact .inr ⟨v, k⟩
    · simp at h
    · rename_i hb
      simp only at h ⊢
      rcases List.mem_cons.mp hx with rfl | hx
      · exact .inr ⟨hb, List.mem_cons_self⟩
      · rcases ih h hx with ⟨v, r⟩ | ⟨v, k⟩
        · exact .inl ⟨v, r⟩
        · exact .inr ⟨v, List.mem_cons_of_mem _ k⟩

end

namespace BanManager

/-- Remove the bans of a list in order. -/
def removeAll (m : BanManager) (rs : List BanId) : BanManager := rs.foldl remove m

section
variable {m : BanManager}

@[simp] theorem removeAll_nil : m.removeAll [] = m := rfl

@[simp] theorem removeAll_cons (b : BanId) (rs : List BanId) :
    m.removeAll (b :: rs) = (m.remove b).removeAll rs := rfl

@[simp] theorem removeAll_ban (rs : List BanId) : (m.removeAll rs).ban = m.ban := by
  induction rs generalizing m with
  | nil => rfl
  | cons b rs ih => rw [removeAll_cons, ih, remove_ban]

@[simp] theorem removeAll_next (rs : List BanId) : (m.removeAll rs).next = m.next := by
  induction rs generalizing m with
  | nil => rfl
  | cons b rs ih => rw [removeAll_cons, ih, remove_next]

@[simp] theorem removeAll_rangeBanList (rs : List BanId) :
    (m.removeAll rs).rangeBanList = m.rangeBanList := by
  induction rs generalizing m with
  | nil => rfl
  | cons b rs ih => rw [removeAll_cons, ih, remove_rangeBanList]

/-- Removing distinct bans of the store. -/
theorem removeAll_spec (h : Inv m) {rs : List BanId} (nodup : rs.Nodup)
    (live : ∀ b ∈ rs, m.Live b) :
    Inv (m.removeAll rs) ∧ (∀ x, (m.removeAll rs).Live x ↔ m.Live x ∧ x ∉ rs) ∧
      ∀ ip c, m.Chain ip c → (m.removeAll rs).Chain ip (c.filter (fun x => x ∉ rs)) := by
  induction rs generalizing m with
  | nil =>
    refine ⟨h, fun x => by simp, fun ip c hc => ?_⟩
    simpa using hc
  | cons b rs ih =>
    obtain ⟨notin, nodup⟩ := List.nodup_cons.mp nodup
    have hb := live b (by simp)
    have rest : ∀ x ∈ rs, (m.remove b).Live x := fun x hx =>
      (live_remove h hb).mpr ⟨live x (by simp [hx]), by rintro rfl; exact notin hx⟩
    obtain ⟨inv, alive, chain⟩ := ih (inv_remove h hb) nodup rest
    refine ⟨inv, fun x => ?_, fun ip c hc => ?_⟩
    · rw [removeAll_cons, alive, live_remove h hb, List.mem_cons]
      tauto
    · have next := chain ip _ (chain_remove h hb hc)
      rw [hc.nodup.erase_eq_filter, List.filter_filter] at next
      rw [removeAll_cons]
      convert next using 2
      funext x
      by_cases hx : x = b <;> simp [hx]

/-- A scan over a list follows its plan. -/
theorem scanList_eq (verdict : BanId → BanItem → Verdict) (l : List BanId) :
    scanList verdict l m =
      let p := plan (fun b => verdict b (m.ban b)) l
      ⟨m.removeAll p.removed, p.kept, p.stopped⟩ := by
  induction l generalizing m with
  | nil => rfl
  | cons b l ih =>
    unfold scanList plan
    cases verdict b (m.ban b) with
    | remove => simp only [ih, remove_ban, removeAll_cons]
    | stop => rfl
    | keep => simp only [ih]

theorem chain_tail {ip : IpHash} {b : BanId} {pre l : List BanId}
    (hc : m.Chain ip (pre ++ b :: l)) : m.links.next b = l.head? := hc.linked.links.2

/-- A loop over a chain is the scan of the chain as a list. -/
theorem scanChain_eq (verdict : BanId → BanItem → Verdict) (h : Inv m) {ip : IpHash}
    {pre l : List BanId} (hc : m.Chain ip (pre ++ l)) {fuel : Nat} (enough : l.length ≤ fuel) :
    scanChain verdict fuel l.head? m = scanList verdict l m := by
  induction l generalizing m fuel pre with
  | nil => cases fuel <;> rfl
  | cons b l ih =>
    cases fuel with
    | zero => simp at enough
    | succ fuel =>
      have enough' : l.length ≤ fuel := by simpa using enough
      have hb : m.Live b := ((hc.mem b).mp (by simp)).1
      rw [List.head?_cons, scanChain, scanList, chain_tail hc]
      simp only
      cases verdict b (m.ban b) with
      | remove =>
        have hc' := chain_remove h hb hc
        rw [erase_mid hc.nodup] at hc'
        exact ih (inv_remove h hb) hc' enough'
      | stop => rfl
      | keep =>
        have hc' : m.Chain ip ((pre ++ [b]) ++ l) := by simpa using hc
        simp only [ih h hc' enough']

theorem chain_length_le (h : Inv m) {ip : IpHash} {c : List BanId} (hc : m.Chain ip c) :
    c.length ≤ m.next := by
  have sub : c ⊆ List.range m.next := fun x hx =>
    List.mem_range.mpr (h.bounded x ((hc.mem x).mp hx).1)
  simpa using hc.nodup.length_le_of_subset sub

theorem scanFrom_eq (verdict : BanId → BanItem → Verdict) (h : Inv m) {ip : IpHash}
    {c : List BanId} (hc : m.Chain ip c) :
    m.scanFrom verdict c.head? =
      let p := plan (fun b => verdict b (m.ban b)) c
      ⟨m.removeAll p.removed, p.kept, p.stopped⟩ := by
  have hc' : m.Chain ip ([] ++ c) := hc
  rw [scanFrom, scanChain_eq verdict h hc' (chain_length_le h hc), scanList_eq]

/-- Whatever has the bits leaves the chain of an address. -/
theorem removeIpWhere_eq (h : Inv m) {ip : IpHash} {c : List BanId} (hc : m.Chain ip c)
    (bits : BanItem → Bool) :
    m.removeIpWhere bits ip =
      m.removeAll (plan (fun b => if bits (m.ban b) then .remove else .keep) c).removed := by
  have entry := hc.head
  unfold removeIpWhere
  cases c with
  | nil =>
    simp only [List.head?_nil, Option.map_none] at entry
    rw [entry]
    rfl
  | cons a c =>
    have scan := scanFrom_eq (fun _ cur => if bits cur then .remove else .keep) h hc
    simp only [List.head?_cons, Option.map_some] at entry scan
    simp only [entry, scan]

/-- The store after some expired bans were swept away. -/
structure Swept (now : Int) (m m' : BanManager) (rs : List BanId) : Prop where
  nodup : rs.Nodup
  live : ∀ b ∈ rs, m.Live b
  expired : ∀ b ∈ rs, (m.ban b).expired now = true
  eq : m' = m.removeAll rs

theorem Swept.spec {now : Int} {m m' : BanManager} {rs : List BanId} (s : Swept now m m' rs)
    (h : Inv m) : Inv m' ∧ (∀ x, m'.Live x ↔ m.Live x ∧ x ∉ rs) ∧ m'.ban = m.ban ∧
      m'.next = m.next ∧ m'.rangeBanList = m.rangeBanList := by
  obtain ⟨inv, live, -⟩ := removeAll_spec h s.nodup s.live
  rw [s.eq]
  exact ⟨inv, live, removeAll_ban rs, removeAll_next rs, removeAll_rangeBanList rs⟩

/-- `FindIpBanGeneric` over the chain of the IP. -/
theorem findIpBanGeneric_eq (h : Inv m) {ip : IpHash} {c : List BanId} (hc : m.Chain ip c)
    (now : Int) (bits : BanItem → Bool) :
    m.findIpBanGeneric ip now bits =
      let p := plan (fun b => lookup now bits (m.ban b)) c
      (m.removeAll p.removed, p.stopped.or p.kept.head?) := by
  unfold findIpBanGeneric
  rw [hc.head]
  cases c with
  | nil => rfl
  | cons a c =>
    have scan := scanFrom_eq (fun _ => lookup now bits) h hc
    rw [List.head?_cons] at scan
    simp only [List.head?_cons, Option.map_some, scan]

theorem lookup_remove {now : Int} {bits : BanItem → Bool} {cur : BanItem} :
    lookup now bits cur = .remove ↔ cur.expired now = true := by
  unfold lookup
  split
  · simp [*]
  · split <;> simp [*]

theorem lookup_stop {now : Int} {bits : BanItem → Bool} {cur : BanItem} :
    lookup now bits cur = .stop ↔ cur.expired now = false ∧ bits cur = true := by
  unfold lookup
  split
  · simp [*]
  · split <;> simp [*]

theorem lookup_keep {now : Int} {bits : BanItem → Bool} {cur : BanItem} :
    lookup now bits cur = .keep ↔ cur.expired now = false ∧ bits cur = false := by
  unfold lookup
  split
  · simp [*]
  · split <;> simp [*]

/-- What a lookup by IP sweeps and finds. -/
theorem findIpBanGeneric_spec (h : Inv m) (ip : IpHash) (now : Int) (bits : BanItem → Bool) :
    ∃ rs, Swept now m (m.findIpBanGeneric ip now bits).1 rs ∧
      match (m.findIpBanGeneric ip now bits).2 with
      | none => ∀ b, m.Live b → (m.ban b).ip = true → (m.ban b).ipHash = ip →
          (m.ban b).expired now = true
      | some b => m.Live b ∧ b ∉ rs ∧ (m.ban b).ip = true ∧ (m.ban b).ipHash = ip ∧
          (m.ban b).expired now = false := by
  obtain ⟨c, hc⟩ := h.ipTable ip
  rw [findIpBanGeneric_eq h hc]
  simp only
  generalize hp : plan (fun b => lookup now bits (m.ban b)) c = p
  have member : ∀ x ∈ c, m.Live x ∧ (m.ban x).ip = true ∧ (m.ban x).ipHash = ip := fun x =>
    (hc.mem x).mp
  have removed : ∀ x ∈ p.removed, x ∈ c ∧ (m.ban x).expired now = true := fun x hx => by
    subst hp
    exact ⟨plan_removed_sublist.subset hx, lookup_remove.mp (plan_removed hx)⟩
  have active : ∀ x ∈ c, (m.ban x).expired now = false → x ∉ p.removed := fun x _ hx hr => by
    rw [(removed x hr).2] at hx
    cases hx
  have kept : ∀ x ∈ p.kept, x ∈ c ∧ (m.ban x).expired now = false := fun x hx => by
    subst hp
    exact ⟨plan_kept_sublist.subset hx, (lookup_keep.mp (plan_kept hx)).1⟩
  refine ⟨p.removed, ⟨?_, fun x hx => (member x (removed x hx).1).1,
    fun x hx => (removed x hx).2, rfl⟩, ?_⟩
  · subst hp
    exact hc.nodup.sublist plan_removed_sublist
  · cases stopped : p.stopped with
    | some b =>
      have stop := plan_stopped (l := c) (by rw [hp]; exact stopped)
      obtain ⟨live, ipBit, key⟩ := member b stop.1
      have unexpired := (lookup_stop.mp stop.2).1
      exact ⟨live, active b stop.1 unexpired, ipBit, key, unexpired⟩
    | none =>
      cases first : p.kept with
      | cons b rest =>
        obtain ⟨mem, unexpired⟩ := kept b (by simp [first])
        obtain ⟨live, ipBit, key⟩ := member b mem
        exact ⟨live, active b mem unexpired, ipBit, key, unexpired⟩
      | nil =>
        intro b live ipBit key
        have mem := (hc.mem b).mpr ⟨live, ipBit, key⟩
        subst hp
        rcases plan_complete stopped mem with ⟨-, hr⟩ | ⟨-, hk⟩
        · exact (removed b hr).2
        · rw [first] at hk
          simp at hk

/-- What a lookup by nick sweeps and finds. -/
theorem findNickBanGeneric_spec (h : Inv m) (sNick : Text) (now : Int) (bits : BanItem → Bool) :
    ∃ rs, Swept now m (m.findNickBanGeneric (hashNick sNick) now sNick bits).1 rs ∧
      match (m.findNickBanGeneric (hashNick sNick) now sNick bits).2 with
      | none => ∀ b, m.Live b → (m.ban b).nick = true → iequals (m.ban b).sNick sNick = true →
          (m.ban b).expired now = false → bits (m.ban b) = false
      | some b => m.Live b ∧ b ∉ rs ∧ (m.ban b).nick = true ∧
          iequals (m.ban b).sNick sNick = true ∧ (m.ban b).expired now = false := by
  rw [findNickBanGeneric, scanList_eq]
  simp only
  generalize hp : plan (fun b => nickLookup now sNick bits (m.ban b))
    (m.nickBanTable (hashNick sNick)) = p
  have member : ∀ x ∈ m.nickBanTable (hashNick sNick), m.Live x ∧ (m.ban x).nick = true :=
    fun x hx => ⟨((h.nickTable _ x).mp hx).1, ((h.nickTable _ x).mp hx).2.1⟩
  have removed : ∀ x ∈ p.removed, x ∈ m.nickBanTable (hashNick sNick) ∧
      (m.ban x).expired now = true := fun x hx => by
    subst hp
    refine ⟨plan_removed_sublist.subset hx, ?_⟩
    have v := plan_removed hx
    unfold nickLookup at v
    split at v
    · cases v
    · exact lookup_remove.mp v
  refine ⟨p.removed, ⟨?_, fun x hx => (member x (removed x hx).1).1,
    fun x hx => (removed x hx).2, rfl⟩, ?_⟩
  · subst hp
    exact (h.nickNodup _).sublist plan_removed_sublist
  · cases stopped : p.stopped with
    | some b =>
      have stop := plan_stopped (l := m.nickBanTable (hashNick sNick)) (by rw [hp]; exact stopped)
      obtain ⟨live, nick⟩ := member b stop.1
      have v := stop.2
      unfold nickLookup at v
      split at v
      · cases v
      · rename_i same
        have unexpired := (lookup_stop.mp v).1
        refine ⟨live, fun hr => ?_, nick, by simpa using same, unexpired⟩
        rw [(removed b hr).2] at unexpired
        cases unexpired
    | none =>
      intro b live nick same unexpired
      have hash : (m.ban b).nickHash = hashNick sNick :=
        (h.nickHash b live nick).trans (hashNick_congr same)
      have mem := (h.nickTable _ b).mpr ⟨live, nick, hash⟩
      subst hp
      rcases plan_complete stopped mem with ⟨v, -⟩ | ⟨v, -⟩ <;>
        simp only [nickLookup, same, Bool.not_true, Bool.false_eq_true, ↓reduceIte] at v
      · rw [lookup_remove.mp v] at unexpired
        cases unexpired
      · exact (lookup_keep.mp v).2

/-- The scan of an IP adder: expired bans at the front of the chain are swept,
then the rest of it is scanned. -/
theorem scanIp_spec (h : Inv m) (ip : IpHash) (now : Int) (verdict : BanItem → Verdict) :
    ∃ rs rest, Swept now m (m.removeAll rs) rs ∧ (m.removeAll rs).Chain ip rest ∧
      m.scanIp now verdict ip =
        let p := plan (fun b => verdict (m.ban b)) rest
        ⟨(m.removeAll rs).removeAll p.removed, p.kept, p.stopped⟩ := by
  obtain ⟨c, hc⟩ := h.ipTable ip
  -- the plan of the lookup takes the expired front off the chain and stops behind it
  have front : ∀ l : List BanId, ∃ rest,
      l = (plan (fun b => lookup now anyBits (m.ban b)) l).removed ++ rest ∧
      (plan (fun b => lookup now anyBits (m.ban b)) l).stopped = rest.head? ∧
      (plan (fun b => lookup now anyBits (m.ban b)) l).kept = [] := by
    intro l
    induction l with
    | nil => exact ⟨[], rfl, rfl, rfl⟩
    | cons b l ih =>
      by_cases e : (m.ban b).expired now
      · obtain ⟨rest, split, stop, keep⟩ := ih
        refine ⟨rest, ?_, ?_, ?_⟩ <;> simp only [plan, lookup_remove.mpr e]
        · rw [List.cons_append, ← split]
        · exact stop
        · exact keep
      · have stop := lookup_stop.mpr ⟨Bool.not_eq_true _ ▸ e, (rfl : anyBits (m.ban b) = true)⟩
        exact ⟨b :: l, by simp [plan, stop], by simp [plan, stop], by simp [plan, stop]⟩
  obtain ⟨rest, split, stopped, kept⟩ := front c
  have eq := findIpBanGeneric_eq h hc now anyBits
  simp only at eq
  generalize hp : plan (fun b => lookup now anyBits (m.ban b)) c = p at split stopped kept eq
  have sub : p.removed.Sublist c := by subst hp; exact plan_removed_sublist
  have live : ∀ x ∈ p.removed, m.Live x := fun x hx => ((hc.mem x).mp (sub.subset hx)).1
  have expired : ∀ x ∈ p.removed, (m.ban x).expired now = true := fun x hx => by
    subst hp
    exact lookup_remove.mp (plan_removed hx)
  have nodup := hc.nodup.sublist sub
  obtain ⟨inv, -, chains⟩ := removeAll_spec h nodup live
  have tail : (m.removeAll p.removed).Chain ip rest := by
    have hc' := chains ip c hc
    have filtered : c.filter (fun x => x ∉ p.removed) = rest := by
      have nodup' := hc.nodup
      rw [split] at nodup' ⊢
      obtain ⟨-, -, apart⟩ := List.nodup_append.mp nodup'
      rw [List.filter_append, List.filter_eq_nil_iff.mpr (by simp), List.nil_append,
        List.filter_eq_self]
      intro x hx
      simpa using fun hr => apart x hr x hx rfl
    rwa [filtered] at hc'
  refine ⟨p.removed, rest, ⟨nodup, live, expired, rfl⟩, tail, ?_⟩
  rw [scanIp, findIP, eq]
  simp only [stopped, kept, List.head?_nil, Option.or_none]
  rw [scanFrom_eq _ inv tail]
  simp only [removeAll_ban]

end

end BanManager

end FlyHub.Ban
