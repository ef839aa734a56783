import FlyHub.Ban.Representation
import FlyHub.Ban.Protect

/-!
# What the adders write

The texts of a ban are cut when it is added, a FULL ban is one of an IP, and a
permanent ban has no end. Nothing that happens to a ban later changes this.
-/

namespace FlyHub.Ban

open FlyHub.Lib

theorem createReason_length (sReason : Option Text) : (createReason sReason).length ≤ 511 := by
  unfold createReason
  split
  · exact Nat.zero_le _
  · split
    · rw [List.length_append, List.length_take]
      have dots : (ascii "...").length = 3 := by decide
      omega
    · omega

theorem addBanInternal_length (sBy : Option Text) : (addBanInternal sBy).length ≤ 63 := by
  unfold addBanInternal
  split
  · exact Nat.zero_le _
  · rw [List.length_take]
    omega

/-- A record the adders have put into the store. -/
structure BanItem.Written (b : BanItem) : Prop where
  fullIp : b.full = true → b.ip = true
  permTime : b.perm = true → b.tempBanExpire = 0
  reason : b.sReason.length ≤ 511
  by_ : b.sBy.length ≤ 63

structure RangeBanItem.Written (r : RangeBanItem) : Prop where
  kind : r.temp = !r.perm
  permTime : r.perm = true → r.tempBanExpire = 0
  reason : r.sReason.length ≤ 511
  by_ : r.sBy.length ≤ 63

/-- A new record before it has its texts. -/
structure BanItem.Begun (b : BanItem) : Prop where
  fullIp : b.full = true → b.ip = true
  permTime : b.perm = true → b.tempBanExpire = 0

namespace BanManager

structure Written (m : BanManager) : Prop where
  bans : ∀ b, m.Live b → (m.ban b).Written
  ranges : ∀ r ∈ m.rangeBanList, r.Written

section
variable {m m' : BanManager} (cfg : Config)

theorem begun_describe {pBan : BanItem} (begun : pBan.Begun) (sReason sBy : Option Text) :
    (describe pBan sReason sBy).Written :=
  ⟨begun.fullIp, begun.permTime, createReason_length sReason, addBanInternal_length sBy⟩

theorem NickOutcome.begun {clash : BanItem → BanItem → Clash} {now : Int} {pBan item : BanItem}
    {m₁ : BanManager} (begun : pBan.Begun)
    (outcome : NickOutcome clash now pBan m m₁ (some item)) : item.Begun := by
  cases outcome with
  | stripped => exact ⟨begun.fullIp, begun.permTime⟩
  | both => exact begun
  | alone => exact begun

theorem Written.shrinks (written : m.Written) (s : Shrinks m m') : m'.Written := by
  constructor
  · intro b live
    obtain ⟨keep, eq⟩ := s.ban b live
    obtain ⟨fullIp, permTime, reason, by_⟩ := written.bans b (s.live b live)
    rw [eq]
    exact ⟨fullIp, permTime, reason, by_⟩
  · rw [s.ranges]
    exact written.ranges

theorem Written.store (written : m.Written) (h : Inv m) (place : Placement) {item : BanItem}
    (new : item.Written) : (m.store place item).Written := by
  constructor
  · intro b live
    rw [store_ban]
    rcases (store_live place).mp live with live | rfl
    · have old : b ≠ m.next := Nat.ne_of_lt (h.bounded b live)
      rw [Function.update_of_ne old]
      exact written.bans b live
    · rw [Function.update_self]
      exact new
  · have same : (m.store place item).rangeBanList = m.rangeBanList := by
      rw [BanManager.store, add_eq]
      rfl
    rw [same]
    exact written.ranges

theorem Written.discard (written : m.Written) (h : Inv m) (item : BanItem) :
    (m.discard item).Written :=
  written.shrinks ((Change.discard (P := Never) (Q := Never) item).shrinks h)

theorem Written.addUser (written : m.Written) (h : Inv m) (now : Int)
    (clash : BanItem → BanItem → Clash) (verdict : BanItem → BanItem → Verdict) (u : BanUser)
    {pBan : BanItem} (begun : pBan.Begun) (sReason sBy : Option Text) :
    (m.addUser cfg now clash verdict u pBan sReason sBy).Written := by
  obtain ⟨m₁, r₁, ⟨-, eq⟩ | ⟨item, m₂, next, r₂, eq⟩⟩ :=
    addUser_cases cfg h now clash verdict u pBan sReason sBy <;> rw [eq]
  · exact written.shrinks (reduces_shrinks h r₁)
  · have inv₁ := inv_reduces h r₁
    have written₂ := (written.shrinks (reduces_shrinks h r₁)).shrinks (reduces_shrinks inv₁ r₂)
    refine written₂.store (inv_reduces inv₁ r₂) cfg.place (begun_describe ?_ _ _)
    rcases next with ⟨-, outcome⟩ | ⟨-, rfl, -⟩
    · have begun' : (withNick pBan u).Begun := ⟨begun.fullIp, begun.permTime⟩
      exact outcome.begun begun'
    · exact ⟨begun.fullIp, begun.permTime⟩

theorem Written.addNick (written : m.Written) (h : Inv m) (now : Int)
    (clash : BanItem → BanItem → Clash) {pBan : BanItem}
    (hash : pBan.nickHash = hashNick pBan.sNick) (begun : pBan.Begun)
    (sReason sBy : Option Text) : (m.addNick cfg now clash pBan sReason sBy).1.Written := by
  obtain ⟨m₁, r₁, ⟨-, eq⟩ | ⟨item, outcome, eq⟩⟩ :=
    addNick_cases cfg h now clash hash sReason sBy <;> rw [eq]
  · exact written.shrinks (reduces_shrinks h r₁)
  · exact (written.shrinks (reduces_shrinks h r₁)).store (inv_reduces h r₁) cfg.place
      (begun_describe (outcome.begun begun) _ _)

theorem Written.addIp (written : m.Written) (h : Inv m) (now : Int)
    (verdict : BanItem → BanItem → Verdict) {pBan : BanItem} (begun : pBan.Begun)
    (sReason sBy : Option Text) : (m.addIp cfg now verdict pBan sReason sBy).1.Written := by
  obtain ⟨m₁, r₁, ⟨-, eq⟩ | eq⟩ := addIp_cases cfg h now verdict pBan sReason sBy <;> rw [eq]
  · exact written.shrinks (reduces_shrinks h r₁)
  · exact (written.shrinks (reduces_shrinks h r₁)).store (inv_reduces h r₁) cfg.place
      (begun_describe begun _ _)

/-- The adders of nicks leave the FULL bit of a new record unset. -/
theorem targetNick_begun {pBan p : BanItem} {pUser : Option BanUser} {sNick : Option Text}
    (made : targetNick pBan pUser sNick = some p) :
    p.full = pBan.full ∧ p.tempBanExpire = pBan.tempBanExpire := by
  unfold targetNick at made
  split at made
  · split at made
    · cases made
    · split at made
      · cases made
      · obtain rfl : _ = p := by simpa using made
        exact ⟨rfl, rfl⟩
  · split at made
    · cases made
    · obtain rfl : _ = p := by simpa using made
      exact ⟨rfl, rfl⟩

theorem scanRanges_sublist (verdict : RangeBanItem → Verdict) (l : List RangeBanItem) :
    (scanRanges verdict l).list.Sublist l := by
  induction l with
  | nil => exact .slnil
  | cons r l ih =>
    unfold scanRanges
    cases verdict r with
    | remove => exact ih.cons r
    | stop => exact .refl _
    | keep => exact ih.cons_cons r

theorem addRange_written {verdict : RangeBanItem → RangeBanItem → Verdict}
    {pRangeBan r : RangeBanItem} {sReason sBy : Option Text}
    (kind : pRangeBan.temp = !pRangeBan.perm)
    (permTime : pRangeBan.perm = true → pRangeBan.tempBanExpire = 0)
    (mem : r ∈ (m.addRange verdict pRangeBan sReason sBy).1.rangeBanList) :
    r ∈ m.rangeBanList ∨ r.Written := by
  have kept := scanRanges_sublist (verdict pRangeBan) m.rangeBanList
  unfold addRange at mem
  dsimp only at mem
  split at mem
  · exact .inl (kept.subset mem)
  · rcases List.mem_append.mp mem with old | new
    · exact .inl (kept.subset old)
    · rw [List.mem_singleton] at new
      rw [new]
      exact .inr ⟨kind, permTime, createReason_length sReason, addBanInternal_length sBy⟩

theorem exec_rangeBanList (now : Int) {op : Op} (ranges : op.onRanges = true) {r : RangeBanItem}
    (mem : r ∈ (m.exec cfg now op).1.rangeBanList) : r ∈ m.rangeBanList ∨ r.Written := by
  cases op with
  | rangeBan =>
    refine addRange_written ?_ ?_ mem
    · rfl
    · intro _
      rfl
  | rangeTempBan =>
    refine addRange_written ?_ ?_ mem
    · rfl
    · intro perm
      cases perm
  | rangeUnban | rangeUnbanPerm | rangeUnbanTemp => exact .inl (List.mem_of_mem_eraseP mem)
  | findRange | findFullRange | findRangeExact =>
    exact .inl ((scanRanges_sublist _ m.rangeBanList).subset mem)
  | clearRange => cases mem
  | clearTempRange | clearPermRange => exact .inl (List.mem_of_mem_filter mem)
  | _ => cases ranges

theorem written_exec (written : m.Written) (h : Inv m) (now : Int) (op : Op) :
    (m.exec cfg now op).1.Written := by
  cases ranges : op.onRanges with
  | true =>
    obtain ⟨l, eq⟩ := exec_ranges (m := m) cfg now ranges
    constructor
    · rw [eq]
      exact written.bans
    · intro r mem
      rcases exec_rangeBanList cfg now ranges mem with old | new
      · exact written.ranges r old
      · exact new
  | false =>
    cases noAdd : op.adds with
    | false => exact written.shrinks (reduces_shrinks h (exec_removes cfg h now noAdd ranges))
    | true =>
      cases op with
      | ban u r by_ full =>
        exact written.addUser cfg h now _ _ u ⟨fun _ => rfl, fun _ => rfl⟩ r by_
      | tempBan u r by_ mins till full =>
        exact written.addUser cfg h now _ _ u ⟨fun _ => rfl, fun perm => by cases perm⟩ r by_
      | banIp u s r by_ full =>
        simp only [exec, Prod.map_fst, id_eq, banIp]
        split
        · exact written.discard h _
        · rename_i p eq
          obtain ⟨hash, text, rfl⟩ := targetIp_some cfg eq
          exact written.addIp cfg h now _ ⟨fun _ => rfl, fun _ => rfl⟩ r by_
      | tempBanIp u s r by_ mins till full =>
        simp only [exec, Prod.map_fst, id_eq, tempBanIp]
        split
        · exact written.discard h _
        · rename_i p eq
          obtain ⟨hash, text, rfl⟩ := targetIp_some cfg eq
          exact written.addIp cfg h now _ ⟨fun _ => rfl, fun perm => by cases perm⟩ r by_
      | nickBan u s r by_ =>
        simp only [exec, Prod.map_fst, id_eq, nickBan]
        split
        · exact written.discard h _
        · rename_i p eq
          obtain ⟨-, hash, -, -⟩ := targetNick_some eq
          obtain ⟨full, expire⟩ := targetNick_begun eq
          refine written.addNick cfg h now _ hash ⟨?_, fun _ => expire⟩ r by_
          intro isFull
          rw [full] at isFull
          cases isFull
      | nickTempBan u s r by_ mins till =>
        simp only [exec, Prod.map_fst, id_eq, nickTempBan]
        split
        · exact written.discard h _
        · rename_i p eq
          obtain ⟨-, hash, -, perm⟩ := targetNick_some eq
          obtain ⟨full, -⟩ := targetNick_begun eq
          have hash' : ({ p with tempBanExpire := expireTime now mins till cfg.defaultTempBanTime } :
              BanItem).nickHash = hashNick p.sNick := hash
          refine written.addNick cfg h now _ hash' ⟨?_, ?_⟩ r by_
          · intro isFull
            rw [full] at isFull
            cases isFull
          · intro isPerm
            rw [perm] at isPerm
            cases isPerm
      | _ => cases noAdd

theorem written_reach (es : List Event) : (reach cfg es).Written := by
  have all : Inv (reach cfg es) ∧ (reach cfg es).Written := by
    refine run_invariant (fun m => Inv m ∧ m.Written) ?_ es ⟨inv_empty, ?_, ?_⟩
    · rintro m e ⟨h, written⟩
      exact ⟨inv_exec cfg h e.now e.op, written_exec cfg written h e.now e.op⟩
    · intro b live
      simp [Live, empty] at live
    · intro r mem
      cases mem
  exact all.2

end

end BanManager

end FlyHub.Ban
