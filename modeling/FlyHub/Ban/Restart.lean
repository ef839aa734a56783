import FlyHub.Ban.ReadBack
import FlyHub.Ban.Typed
import FlyHub.Ban.Written

/-!
# Bans survive a restart

What is saved and loaded again is every ban that has not expired, in the order of the
lists. The chains and the nick table are built anew from the lists, so where several
bans are of one IP or one nick, another of them may be found.
-/

namespace FlyHub.Ban

open FlyHub.Lib FlyHub.Pxb

/-- A ban without what `Load` makes anew from its nick and its IP. -/
def BanItem.saved (b : BanItem) : BanItem := { b with nickHash := 0, sIp := [] }

def RangeBanItem.saved (r : RangeBanItem) : RangeBanItem := { r with sIpFrom := [], sIpTo := [] }

@[simp] theorem BanItem.reread_saved (ipText : IpHash → Text) (b : BanItem) :
    (b.reread ipText).saved = b.saved := rfl

@[simp] theorem RangeBanItem.reread_saved (ipText : IpHash → Text) (r : RangeBanItem) :
    (r.reread ipText).saved = r.saved := rfl

@[simp] theorem BanItem.reread_expired (ipText : IpHash → Text) (b : BanItem) (now : Int) :
    (b.reread ipText).expired now = b.expired now := rfl

namespace BanManager

/-- The records of the lists. -/
def tempBans (m : BanManager) : List BanItem := m.tempBanList.map m.ban
def permBans (m : BanManager) : List BanItem := m.permBanList.map m.ban

/-- What the files can hold, and read back to their end. -/
structure Storable (m : BanManager) : Prop where
  nickSome : ∀ b, m.Live b → (m.ban b).nick = true → (m.ban b).sNick ≠ []
  nickShort : ∀ b, m.Live b → (m.ban b).sNick.length ≤ 64
  ipSome : ∀ b, m.Live b → (m.ban b).ip = true → (m.ban b).ipHash ≠ 0
  time : ∀ b, m.Live b → IsTime (m.ban b).tempBanExpire
  rangeTime : ∀ r ∈ m.rangeBanList, IsTime r.tempBanExpire
  bansClear : clearOfEnd globalBuffSize ((4 + dataSize (headerValues ptokaXBans)) ::
    (m.tempBans ++ m.permBans).map fun b => 4 + dataSize b.values) = true
  rangeBansClear : clearOfEnd globalBuffSize ((4 + dataSize (headerValues ptokaXRangeBans)) ::
    m.rangeBanList.map fun r => 4 + dataSize r.values) = true

section
variable {m : BanManager}

theorem mem_bans {b : BanItem} : b ∈ m.tempBans ++ m.permBans ↔ ∃ x, m.Live x ∧ m.ban x = b := by
  simp only [tempBans, permBans, List.mem_append, List.mem_map, Live]
  constructor
  · rintro (⟨x, mem, rfl⟩ | ⟨x, mem, rfl⟩)
    · exact ⟨x, .inl mem, rfl⟩
    · exact ⟨x, .inr mem, rfl⟩
  · rintro ⟨x, mem | mem, rfl⟩
    · exact .inl ⟨x, mem, rfl⟩
    · exact .inr ⟨x, mem, rfl⟩

theorem Storable.fileable (storable : m.Storable) (h : Inv m) (written : m.Written) {b : BanItem}
    (mem : b ∈ m.tempBans ++ m.permBans) : b.Fileable := by
  obtain ⟨x, live, rfl⟩ := mem_bans.mp mem
  obtain ⟨fullIp, permTime, reason, by_⟩ := written.bans x live
  exact ⟨h.bits live, storable.nickSome x live, storable.nickShort x live, storable.ipSome x live,
    fullIp, reason, Nat.le_trans by_ (by decide), storable.time x live, permTime⟩

theorem Storable.rangeFileable (storable : m.Storable) (written : m.Written) {r : RangeBanItem}
    (mem : r ∈ m.rangeBanList) : r.Fileable := by
  obtain ⟨kind, permTime, reason, by_⟩ := written.ranges r mem
  exact ⟨kind, reason, Nat.le_trans by_ (by decide), storable.rangeTime r mem, permTime⟩

end

end BanManager

theorem string_ip_length (ip : IpHash) : (Value.string (ipBytes ip)).bytes.length = 16 :=
  toBE_length 16 _

theorem BanItem.Fileable.fits {b : BanItem} (fileable : b.Fileable) : Fits b.values := by
  have nick := Nat.le_trans (textValue_length b.sNick) fileable.nickShort
  have reason := Nat.le_trans (textValue_length b.sReason) fileable.reason
  have by_ := Nat.le_trans (textValue_length b.sBy) fileable.by_
  have flag (set_ : Bool) : (Value.byte set_).bytes.length = 1 := rfl
  constructor
  · simp only [BanItem.values, List.mem_cons, List.not_mem_nil, or_false, forall_eq_or_imp,
      forall_eq, flag, string_ip_length, timeValue_bytes]
    omega
  · simp only [BanItem.values, dataSize, flag, string_ip_length, timeValue_bytes, globalBuffSize]
    omega

theorem RangeBanItem.Fileable.fits {r : RangeBanItem} (fileable : r.Fileable) :
    Fits r.values := by
  have reason := Nat.le_trans (textValue_length r.sReason) fileable.reason
  have by_ := Nat.le_trans (textValue_length r.sBy) fileable.by_
  have flag (set_ : Bool) : (Value.byte set_).bytes.length = 1 := rfl
  constructor
  · simp only [RangeBanItem.values, List.mem_cons, List.not_mem_nil, or_false, forall_eq_or_imp,
      forall_eq, flag, string_ip_length, timeValue_bytes]
    omega
  · simp only [RangeBanItem.values, dataSize, flag, string_ip_length, timeValue_bytes,
      globalBuffSize]
    omega

theorem banFile_proper : banFile.Proper :=
  ⟨by decide, by decide, fun _ => rfl, fun _ => (by decide : banIds.length ≤ 9)⟩

theorem rangeBanFile_proper : rangeBanFile.Proper :=
  ⟨by decide, by decide, fun _ => rfl, fun _ => (by decide : rangeBanIds.length ≤ 7)⟩

namespace BanManager

section
variable {m : BanManager} (cfg : Config) (ipText : IpHash → Text) (now : Int)

/-- The store `Load` builds from what was saved. -/
def reloaded (m : BanManager) : BanManager :=
  m.rangeBanList.foldl (fun n r => n.addReadRange now (r.reread ipText))
    ((m.tempBans ++ m.permBans).foldl (fun n b => n.addRead cfg now (b.reread ipText)) empty)

/-- What is saved is loaded again. -/
theorem load_save (h : Inv m) (written : m.Written) (storable : m.Storable) :
    ∃ files least, m.save = some files ∧ ∀ turns, least ≤ turns →
      load cfg ipText now turns files empty = .ok (m.reloaded cfg ipText now) := by
  obtain ⟨bans, saved⟩ : ∃ bans, banFile.save (m.tempBans ++ m.permBans) = some bans :=
    RecordFile.save_some banFile_proper fun b mem => (storable.fileable h written mem).fits
  obtain ⟨rangeBans, saved'⟩ : ∃ rangeBans, rangeBanFile.save m.rangeBanList = some rangeBans :=
    RecordFile.save_some rangeBanFile_proper fun r mem => (storable.rangeFileable written mem).fits
  have reads : Reads banFile banRequest (fun _ => id) (takeBan cfg ipText now)
      (fun n b => n.addRead cfg now (b.reread ipText)) (m.tempBans ++ m.permBans) := by
    refine ⟨fun b _ i one => one.places rfl rfl, fun n r b mem holds => ?_⟩
    rw [takeBan, readBan_holds ipText holds.holds (storable.fileable h written mem)]
    rfl
  have reads' : Reads rangeBanFile rangeBanRequest (fun _ => id) (takeRangeBan ipText now)
      (fun n r => n.addReadRange now (r.reread ipText)) m.rangeBanList := by
    refine ⟨fun b _ i one => one.places rfl rfl, fun n r b mem holds => ?_⟩
    rw [takeRangeBan, readRangeBan_holds ipText holds.holds (storable.rangeFileable written mem)]
    rfl
  obtain ⟨least, back⟩ := readFile_back banFile_proper (by decide) saved reads storable.bansClear
    empty
  obtain ⟨least', back'⟩ := readFile_back rangeBanFile_proper (by decide) saved' reads'
    storable.rangeBansClear
    ((m.tempBans ++ m.permBans).foldl (fun n b => n.addRead cfg now (b.reread ipText)) empty)
  refine ⟨⟨bans, rangeBans⟩, max least least', ?_, fun turns le => ?_⟩
  · have rows : (m.tempBanList ++ m.permBanList).map m.ban = m.tempBans ++ m.permBans := by
      rw [tempBans, permBans, List.map_append]
    rw [save, rows, saved, saved']
    rfl
  · have first : banFile.name = ptokaXBans := rfl
    have second : rangeBanFile.name = ptokaXRangeBans := rfl
    rw [first] at back
    rw [second] at back'
    rw [load, back turns (by omega), ok_bind]
    dsimp only
    rw [if_neg (by decide), back' turns (by omega)]
    rfl

theorem store_lists (h : Inv m) (place : Placement) (b : BanItem) :
    (m.store place b).tempBans = m.tempBans ++ (if b.perm then [] else [b]) ∧
      (m.store place b).permBans = m.permBans ++ (if b.perm then [b] else []) ∧
      (m.store place b).rangeBanList = m.rangeBanList := by
  have here : (m.alloc b).ban m.next = b := Function.update_self ..
  have old {l : List BanId} (live : ∀ x ∈ l, m.Live x) :
      l.map (Function.update m.ban m.next b) = l.map m.ban := by
    apply List.map_congr_left
    intro x mem
    exact Function.update_of_ne (Nat.ne_of_lt (h.bounded x (live x mem))) ..
  have temps := old fun x mem => .inl mem
  have perms := old fun x mem => .inr mem
  simp only [tempBans, permBans, store_ban]
  rw [BanManager.store, add_eq, here]
  cases b.perm with
  | true => simp [alloc, temps, perms]
  | false => simp [alloc, temps, perms]

theorem discard_lists (h : Inv m) (b : BanItem) :
    (m.discard b).tempBans = m.tempBans ∧ (m.discard b).permBans = m.permBans := by
  have same (x : BanId) (live : m.Live x) : (m.discard b).ban x = m.ban x := alloc_ban_of_live h live
  exact ⟨List.map_congr_left fun x mem => same x (.inl mem),
    List.map_congr_left fun x mem => same x (.inr mem)⟩

/-- The bans that are read go to the ends of the lists. -/
theorem addRead_lists {bs : List BanItem} (h : Inv m) (wf : ∀ b ∈ bs, WellFormed b) :
    Inv (bs.foldl (addRead cfg now) m) ∧
      (bs.foldl (addRead cfg now) m).tempBans =
        m.tempBans ++ bs.filter (fun b => !b.expired now && !b.perm) ∧
      (bs.foldl (addRead cfg now) m).permBans =
        m.permBans ++ bs.filter (fun b => !b.expired now && b.perm) ∧
      (bs.foldl (addRead cfg now) m).rangeBanList = m.rangeBanList := by
  induction bs generalizing m with
  | nil => simp [h]
  | cons b bs ih =>
    have wf' : ∀ b ∈ bs, WellFormed b := fun b mem => wf b (List.mem_cons_of_mem _ mem)
    rw [List.foldl_cons]
    cases gone : b.expired now with
    | true =>
      have step : m.addRead cfg now b = m.discard b := if_pos gone
      obtain ⟨temps, perms⟩ := discard_lists h b
      obtain ⟨inv, temps', perms', ranges⟩ := ih (inv_discard h b) wf'
      rw [step]
      refine ⟨inv, ?_, ?_, ranges⟩
      · simp [temps', temps, gone]
      · simp [perms', perms, gone]
    | false =>
      have step : m.addRead cfg now b = m.store cfg.place b := if_neg (by simp [gone])
      obtain ⟨temps, perms, ranges⟩ := store_lists h cfg.place b
      obtain ⟨inv, temps', perms', ranges'⟩ := ih (inv_store cfg.place h (wf b (by simp))) wf'
      rw [step]
      refine ⟨inv, ?_, ?_, ranges'.trans ranges⟩
      · cases perm : b.perm <;> simp [temps', temps, gone, perm]
      · cases perm : b.perm <;> simp [perms', perms, gone, perm]

theorem addReadRange_lists (rs : List RangeBanItem) :
    rs.foldl (addReadRange now) m =
      { m with rangeBanList := m.rangeBanList ++ rs.filter fun r => !r.expired now } := by
  induction rs generalizing m with
  | nil => simp
  | cons r rs ih =>
    rw [List.foldl_cons, ih]
    cases gone : r.expired now <;> simp [addReadRange, gone]

theorem wellFormed_reread {b : BanItem} (fileable : b.Fileable) : WellFormed (b.reread ipText) :=
  ⟨fileable.kind, fun nick => if_neg (fileable.nickSome nick)⟩

/-- The lists after a restart. -/
theorem reloaded_lists (h : Inv m) (written : m.Written) (storable : m.Storable) :
    Inv (m.reloaded cfg ipText now) ∧
      (m.reloaded cfg ipText now).tempBans =
        (m.tempBans.filter fun b => !b.expired now).map (BanItem.reread ipText) ∧
      (m.reloaded cfg ipText now).permBans =
        (m.permBans.filter fun b => !b.expired now).map (BanItem.reread ipText) ∧
      (m.reloaded cfg ipText now).rangeBanList =
        (m.rangeBanList.filter fun r => !r.expired now).map (RangeBanItem.reread ipText) := by
  have temp : ∀ b ∈ m.tempBans, b.perm = false := by
    intro b mem
    obtain ⟨x, inList, rfl⟩ := List.mem_map.mp mem
    exact (h.tempBits x inList).2
  have perm : ∀ b ∈ m.permBans, b.perm = true := by
    intro b mem
    obtain ⟨x, inList, rfl⟩ := List.mem_map.mp mem
    exact (h.permBits x inList).1
  have wf : ∀ b ∈ (m.tempBans ++ m.permBans).map (BanItem.reread ipText), WellFormed b := by
    intro b mem
    obtain ⟨old, inLists, rfl⟩ := List.mem_map.mp mem
    exact wellFormed_reread ipText (storable.fileable h written inLists)
  obtain ⟨inv, temps, perms, ranges⟩ := addRead_lists cfg now inv_empty wf
  have bits (b : BanItem) : (b.reread ipText).perm = b.perm := rfl
  rw [List.foldl_map] at inv temps perms ranges
  have all : m.reloaded cfg ipText now = (m.rangeBanList.map (RangeBanItem.reread ipText)).foldl
      (addReadRange now) ((m.tempBans ++ m.permBans).foldl
        (fun n b => n.addRead cfg now (b.reread ipText)) empty) := by
    rw [reloaded, List.foldl_map]
  rw [all, addReadRange_lists]
  refine ⟨inv.congr rfl rfl rfl rfl rfl rfl rfl, ?_, ?_, ?_⟩
  · refine temps.trans ?_
    rw [List.map_append, List.filter_append, List.filter_map, List.filter_map]
    have none_ : m.permBans.filter
        ((fun b => !b.expired now && !b.perm) ∘ BanItem.reread ipText) = [] := by
      rw [List.filter_eq_nil_iff]
      intro b mem
      simp [bits, perm b mem]
    have same : m.tempBans.filter ((fun b => !b.expired now && !b.perm) ∘ BanItem.reread ipText) =
        m.tempBans.filter fun b => !b.expired now := by
      apply List.filter_congr
      intro b mem
      simp [bits, temp b mem]
    rw [none_, same]
    simp [tempBans, empty]
  · refine perms.trans ?_
    rw [List.map_append, List.filter_append, List.filter_map, List.filter_map]
    have none_ : m.tempBans.filter
        ((fun b => !b.expired now && b.perm) ∘ BanItem.reread ipText) = [] := by
      rw [List.filter_eq_nil_iff]
      intro b mem
      simp [bits, temp b mem]
    have same : m.permBans.filter ((fun b => !b.expired now && b.perm) ∘ BanItem.reread ipText) =
        m.permBans.filter fun b => !b.expired now := by
      apply List.filter_congr
      intro b mem
      simp [bits, perm b mem]
    rw [none_, same]
    simp [permBans, empty]
  · dsimp only
    rw [ranges, List.filter_map]
    rfl

end

/-- What a lookup finds after a restart: nothing where it found nothing before, and
otherwise one of the bans asked for, the same where there is only one. -/
structure Answers (m m' : BanManager) (asked : BanId → Prop) (found found' : Option BanId) :
    Prop where
  isSome : found'.isSome = found.isSome
  some_ : ∀ x', found' = some x' → ∃ x, asked x ∧ (m'.ban x').saved = (m.ban x).saved
  only : ∀ x, found = some x → (∀ y, asked y → y = x) →
    ∃ x', found' = some x' ∧ (m'.ban x').saved = (m.ban x).saved

/-- What is left of a store after a restart. -/
structure Survives (now : Int) (m m' : BanManager) : Prop where
  tempBans : m'.tempBans.map BanItem.saved =
    (m.tempBans.filter fun b => !b.expired now).map BanItem.saved
  permBans : m'.permBans.map BanItem.saved =
    (m.permBans.filter fun b => !b.expired now).map BanItem.saved
  rangeBans : m'.rangeBanList.map RangeBanItem.saved =
    (m.rangeBanList.filter fun r => !r.expired now).map RangeBanItem.saved
  findNick : ∀ sNick, Answers m m' (m.NickActive now sNick) (m.findNick sNick now).2
    (m'.findNick sNick now).2
  findIP : ∀ ip, Answers m m' (m.IpActive now ip) (m.findIP ip now).2 (m'.findIP ip now).2
  findRange : ∀ ip, (m'.findRange ip now).2.map RangeBanItem.saved =
    (m.findRange ip now).2.map RangeBanItem.saved

section
variable {m m' : BanManager} {asked asked' : BanId → Prop} {found found' : Option BanId}

/-- A lookup that finds a ban that is asked for, if there is one. -/
def Finds (asked : BanId → Prop) : Option BanId → Prop
  | none => ∀ x, ¬ asked x
  | some x => asked x

theorem Finds.answers (finds : Finds asked found) (finds' : Finds asked' found')
    (back : ∀ x', asked' x' → ∃ x, asked x ∧ (m'.ban x').saved = (m.ban x).saved)
    (forth : ∀ x, asked x → ∃ x', asked' x') : Answers m m' asked found found' := by
  cases found with
  | none =>
    cases found' with
    | none => exact ⟨rfl, fun _ eq => (nomatch eq), fun _ eq => (nomatch eq)⟩
    | some x' =>
      obtain ⟨x, ask, -⟩ := back x' finds'
      exact absurd ask (finds x)
  | some x =>
    cases found' with
    | none =>
      obtain ⟨x', ask⟩ := forth x finds
      exact absurd ask (finds' x')
    | some x' =>
      obtain ⟨y, ask, same⟩ := back x' finds'
      refine ⟨rfl, ?_, ?_⟩
      · rintro z ⟨⟩
        exact ⟨y, ask, same⟩
      · rintro z ⟨⟩ only
        rw [only y ask] at same
        exact ⟨x', rfl, same⟩

theorem finds_nick (h : Inv m) (sNick : Text) (now : Int) :
    Finds (m.NickActive now sNick) (m.findNick sNick now).2 := by
  obtain ⟨rs, -, found⟩ := findNickBanGeneric_spec h sNick now anyBits
  unfold findNick
  cases eq : (m.findNickBanGeneric (hashNick sNick) now sNick anyBits).2 with
  | none =>
    rw [eq] at found
    rintro x ⟨live, nick, same, unexpired⟩
    have no := found x live nick same unexpired
    cases no
  | some x =>
    rw [eq] at found
    obtain ⟨live, -, nick, same, unexpired⟩ := found
    exact ⟨live, nick, same, unexpired⟩

theorem finds_ip (h : Inv m) (ip : IpHash) (now : Int) :
    Finds (m.IpActive now ip) (m.findIP ip now).2 := by
  obtain ⟨rs, -, found⟩ := findIpBanGeneric_spec h ip now anyBits
  unfold findIP
  cases eq : (m.findIpBanGeneric ip now anyBits).2 with
  | none =>
    rw [eq] at found
    rintro x ⟨live, onIp, key, unexpired⟩
    rw [found x live onIp key] at unexpired
    cases unexpired
  | some x =>
    rw [eq] at found
    obtain ⟨live, -, onIp, key, unexpired⟩ := found
    exact ⟨live, onIp, key, unexpired⟩

/-- The first unexpired range ban that covers the address. -/
theorem findRange_eq (m : BanManager) (ip : IpHash) (now : Int) :
    (m.findRange ip now).2 = m.rangeBanList.find? fun r => r.covers ip && !r.expired now := by
  unfold findRange findRangeBanGeneric
  dsimp only
  generalize m.rangeBanList = l
  induction l with
  | nil => rfl
  | cons r l ih =>
    rw [List.find?_cons]
    cases covers : r.covers ip with
    | false =>
      have way : rangeLookup ip now (fun _ => true) r = .keep := by simp [rangeLookup, covers]
      simp only [scanRanges, way, List.find?_cons, covers, Bool.false_and]
      exact ih
    | true =>
      cases gone : r.expired now with
      | true =>
        have way : rangeLookup ip now (fun _ => true) r = .remove := by
          simp [rangeLookup, covers, gone]
        simp only [scanRanges, way, Bool.not_true, Bool.and_false]
        exact ih
      | false =>
        have way : rangeLookup ip now (fun _ => true) r = .stop := by
          simp [rangeLookup, covers, gone]
        simp [scanRanges, way]

end

section
variable {m : BanManager} (cfg : Config) (ipText : IpHash → Text) (now : Int)

/-- The unexpired bans before a restart are the bans after it. -/
theorem reloaded_bans (h : Inv m) (written : m.Written) (storable : m.Storable) :
    (∀ x', (m.reloaded cfg ipText now).Live x' → ∃ x, m.Live x ∧ (m.ban x).expired now = false ∧
        (m.reloaded cfg ipText now).ban x' = (m.ban x).reread ipText) ∧
      ∀ x, m.Live x → (m.ban x).expired now = false →
        ∃ x', (m.reloaded cfg ipText now).Live x' ∧
          (m.reloaded cfg ipText now).ban x' = (m.ban x).reread ipText := by
  obtain ⟨-, temps, perms, -⟩ := reloaded_lists cfg ipText now h written storable
  have all : (m.reloaded cfg ipText now).tempBans ++ (m.reloaded cfg ipText now).permBans =
      ((m.tempBans ++ m.permBans).filter fun b => !b.expired now).map (BanItem.reread ipText) := by
    rw [temps, perms, List.filter_append, List.map_append]
  constructor
  · intro x' live
    have mem := mem_bans.mpr ⟨x', live, rfl⟩
    rw [all, List.mem_map] at mem
    obtain ⟨b, mem, eq⟩ := mem
    obtain ⟨mem, unexpired⟩ := List.mem_filter.mp mem
    obtain ⟨x, live, rfl⟩ := mem_bans.mp mem
    exact ⟨x, live, by simpa using unexpired, eq.symm⟩
  · intro x live unexpired
    apply mem_bans.mp
    rw [all]
    refine List.mem_map_of_mem (List.mem_filter.mpr ⟨mem_bans.mpr ⟨x, live, rfl⟩, ?_⟩)
    simp [unexpired]

theorem reloaded_survives (h : Inv m) (written : m.Written) (storable : m.Storable) :
    Survives now m (m.reloaded cfg ipText now) := by
  obtain ⟨inv, temps, perms, ranges⟩ := reloaded_lists cfg ipText now h written storable
  obtain ⟨back, forth⟩ := reloaded_bans cfg ipText now h written storable
  refine ⟨?_, ?_, ?_, fun sNick => ?_, fun ip => ?_, fun ip => ?_⟩
  · rw [temps, List.map_map]
    rfl
  · rw [perms, List.map_map]
    rfl
  · rw [ranges, List.map_map]
    rfl
  · refine (finds_nick h sNick now).answers (finds_nick inv sNick now) ?_ ?_
    · rintro x' ⟨live', nick, same, -⟩
      obtain ⟨x, live, unexpired, eq⟩ := back x' live'
      rw [eq] at nick same
      exact ⟨x, ⟨live, nick, same, unexpired⟩, by rw [eq]; rfl⟩
    · rintro x ⟨live, nick, same, unexpired⟩
      obtain ⟨x', live', eq⟩ := forth x live unexpired
      refine ⟨x', live', ?_, ?_, ?_⟩ <;> rw [eq] <;> assumption
  · refine (finds_ip h ip now).answers (finds_ip inv ip now) ?_ ?_
    · rintro x' ⟨live', onIp, key, -⟩
      obtain ⟨x, live, unexpired, eq⟩ := back x' live'
      rw [eq] at onIp key
      exact ⟨x, ⟨live, onIp, key, unexpired⟩, by rw [eq]; rfl⟩
    · rintro x ⟨live, onIp, key, unexpired⟩
      obtain ⟨x', live', eq⟩ := forth x live unexpired
      refine ⟨x', live', ?_, ?_, ?_⟩ <;> rw [eq] <;> assumption
  · have same (r : RangeBanItem) : (r.reread ipText).covers ip = r.covers ip ∧
        (r.reread ipText).expired now = r.expired now := ⟨rfl, rfl⟩
    rw [findRange_eq, findRange_eq, ranges, List.find?_map, List.find?_filter, Option.map_map]
    congr 2
    funext r
    simp only [Function.comp, same]
    cases r.covers ip <;> cases r.expired now <;> rfl

/-- A store that the files can hold survives a restart. -/
theorem bans_survive_restart (es : List Event) (storable : (reach cfg es).Storable) :
    ∃ files least, (reach cfg es).save = some files ∧
      ∃ m', (∀ turns, least ≤ turns → load cfg ipText now turns files empty = .ok m') ∧
        Survives now (reach cfg es) m' := by
  have h := inv_reach cfg es
  have written := written_reach cfg es
  obtain ⟨files, least, saved, loaded⟩ := load_save cfg ipText now h written storable
  exact ⟨files, least, saved, _, loaded, reloaded_survives cfg ipText now h written storable⟩

end

def bob : BanUser := ⟨ascii "bob", ascii "1.1.1.1", 1⟩
def ann : BanUser := ⟨ascii "ann", ascii "1.1.1.1", 1⟩

/-- Bob is banned for good, and then Ann, who has the same address, for ten minutes. -/
def neighbours : List Event :=
  [⟨0, .ban bob none none false⟩, ⟨0, .tempBan ann none none 10 0 false⟩]

theorem neighbours_storable : (reach Config.plain neighbours).Storable := by
  have temps : (reach Config.plain neighbours).tempBanList = [1] := by decide +kernel
  have perms : (reach Config.plain neighbours).permBanList = [0] := by decide +kernel
  have ranges : (reach Config.plain neighbours).rangeBanList = [] := rfl
  have two {P : BanItem → Prop} (ann : P ((reach Config.plain neighbours).ban 1))
      (bob : P ((reach Config.plain neighbours).ban 0)) :
      ∀ x, (reach Config.plain neighbours).Live x → P ((reach Config.plain neighbours).ban x) := by
    rintro x (live | live)
    · rw [temps, List.mem_singleton] at live
      rw [live]
      exact ann
    · rw [perms, List.mem_singleton] at live
      rw [live]
      exact bob
  constructor
  · exact two (P := fun b => b.nick = true → b.sNick ≠ []) (by decide +kernel) (by decide +kernel)
  · exact two (P := fun b => b.sNick.length ≤ 64) (by decide +kernel) (by decide +kernel)
  · exact two (P := fun b => b.ip = true → b.ipHash ≠ 0) (by decide +kernel) (by decide +kernel)
  · refine two (P := fun b => IsTime b.tempBanExpire) ?_ ?_
    · constructor <;> decide +kernel
    · constructor <;> decide +kernel
  · rw [ranges]
    intro r mem
    cases mem
  · decide +kernel
  · decide +kernel

theorem neighbours_survive : ∃ files least, (reach Config.plain neighbours).save = some files ∧
    ∃ m', (∀ turns, least ≤ turns → load Config.plain (fun _ => []) 5 turns files empty = .ok m') ∧
      Survives 5 (reach Config.plain neighbours) m' :=
  bans_survive_restart Config.plain (fun _ => []) 5 neighbours neighbours_storable

/-- Before the restart the ban of Ann is found for the address, and after it that of Bob. -/
theorem restart_finds_another : ¬ ∀ (cfg : Config) (ipText : IpHash → Text) (now : Int)
    (es : List Event), (reach cfg es).Storable →
      ∃ files least, (reach cfg es).save = some files ∧
        ∃ m', (∀ turns, least ≤ turns → load cfg ipText now turns files empty = .ok m') ∧
          ∀ ip, (m'.findIP ip now).2.map (fun x => (m'.ban x).saved) =
            ((reach cfg es).findIP ip now).2.map fun x => ((reach cfg es).ban x).saved := by
  intro all
  obtain ⟨files, least, saved, m', loaded, same⟩ :=
    all Config.plain (fun _ => []) 5 neighbours neighbours_storable
  obtain ⟨files', least', saved', loaded'⟩ := load_save Config.plain (fun _ => []) 5
    (inv_reach Config.plain neighbours) (written_reach Config.plain neighbours) neighbours_storable
  obtain rfl := Option.some.inj (saved.symm.trans saved')
  have store := (loaded _ (Nat.le_max_left least least')).symm.trans
    (loaded' _ (Nat.le_max_right least least'))
  obtain rfl := Except.ok.inj store
  have perm := congrArg (Option.map BanItem.perm) (same 1)
  revert perm
  decide +kernel

end BanManager

end FlyHub.Ban
