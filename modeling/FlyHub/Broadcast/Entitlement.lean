import FlyHub.Broadcast.Sharing

/-!
# Which users share a queue

Two users share a global queue when they are entitled to the same text, or when
one of the wide search weights stands in for the weight of a flag.
-/

namespace FlyHub.Broadcast

open FlyHub.Lib

/-- The weight of a search bit in the queue type. -/
def SearchBit.weight : Option SearchBit → Nat
  | none => 0
  | some .allIPv4 => 2
  | some .allIPv6 => 4
  | some .allIPv64 => 6
  | some .activeIPv4 => 8
  | some .activeIPv6 => 10
  | some .activeIPv64 => 12
  | some .allIPv6ActiveIPv4 => 14
  | some .activeIPv6AllIPv4 => 16

/-- The number the three flags HELLO, OPERATOR and USERIP write in binary. -/
def QueueBits.flags (b : QueueBits) : Nat :=
  b.hello.toNat + 2 * b.operator.toNat + 4 * b.userIP.toNat

theorem weight_even (a : Option SearchBit) : ∃ k, SearchBit.weight a = 2 * k ∧ k ≤ 8 := by
  rcases a with _ | a
  · exact ⟨0, rfl, by omega⟩
  · cases a
    exacts [⟨3, rfl, by omega⟩, ⟨2, rfl, by omega⟩, ⟨1, rfl, by omega⟩, ⟨6, rfl, by omega⟩,
      ⟨5, rfl, by omega⟩, ⟨4, rfl, by omega⟩, ⟨7, rfl, by omega⟩, ⟨8, rfl, by omega⟩]

theorem weight_injective {a b : Option SearchBit} (h : SearchBit.weight a = SearchBit.weight b) :
    a = b := by
  rcases a with _ | a <;> rcases b with _ | b
  · rfl
  · cases b <;> simp [SearchBit.weight] at h
  · cases a <;> simp [SearchBit.weight] at h
  · cases a <;> cases b <;> simp [SearchBit.weight] at h ⊢

/-- Only the two widest search weights exceed another by the weight of a flag. -/
theorem weight_overlap {a b : Option SearchBit} :
    SearchBit.weight a = SearchBit.weight b + 14 ↔
      (a = some .allIPv6ActiveIPv4 ∧ b = none) ∨
      (a = some .activeIPv6AllIPv4 ∧ b = some .allIPv4) := by
  rcases a with _ | a <;> rcases b with _ | b
  · simp [SearchBit.weight]
  · cases b <;> simp [SearchBit.weight]
  · cases a <;> simp [SearchBit.weight]
  · cases a <;> cases b <;> simp [SearchBit.weight]

theorem toNat_injective {c c' : Bool} (h : c.toNat = c'.toNat) : c = c' := by
  cases c <;> cases c' <;> first | rfl | cases h

theorem flags_injective {b b' : QueueBits} (h : b.flags = b'.flags) :
    b.hello = b'.hello ∧ b.operator = b'.operator ∧ b.userIP = b'.userIP := by
  unfold QueueBits.flags at h
  have bounds : ∀ c : Bool, c.toNat ≤ 1 := Bool.toNat_le
  have hh := bounds b.hello
  have hh' := bounds b'.hello
  have ho := bounds b.operator
  have ho' := bounds b'.operator
  exact ⟨toNat_injective (by omega), toNat_injective (by omega), toNat_injective (by omega)⟩

theorem flags_parity (b : QueueBits) : b.flags % 2 = b.hello.toNat := by
  unfold QueueBits.flags
  cases b.hello <;> simp <;> omega

theorem queueType_eq (u : QueueUser) (set : QueueSettings) :
    u.queueType set = (u.longMyInfo set).toNat + SearchBit.weight (u.queueBits set).search +
      14 * (u.queueBits set).flags := by
  have weight : SearchBit.weight (some u.searchBit.1) = u.searchBit.2 := by
    unfold QueueUser.searchBit
    repeat' split
    all_goals rfl
  unfold QueueUser.queueType QueueBits.flags QueueUser.queueBits
  by_cases shares : u.sharedSize = 0
  · cases u.longMyInfo set <;> cases u.hello <;> cases u.operator <;> cases u.userIP set <;>
      simp [shares, SearchBit.weight]
  · cases u.longMyInfo set <;> cases u.hello <;> cases u.operator <;> cases u.userIP set <;>
      simp [shares, weight]

/-- The wider search weight of `u` makes up for a flag number one larger in `v`:
the two are counted alike though at least HELLO tells them apart. -/
def Confusable (set : QueueSettings) (u v : QueueUser) : Prop :=
  u.longMyInfo set = v.longMyInfo set ∧
  (((u.queueBits set).search = some .allIPv6ActiveIPv4 ∧ (v.queueBits set).search = none) ∨
    ((u.queueBits set).search = some .activeIPv6AllIPv4 ∧
      (v.queueBits set).search = some .allIPv4)) ∧
  (v.queueBits set).flags = (u.queueBits set).flags + 1

theorem Confusable.hello_ne {set : QueueSettings} {u v : QueueUser} (h : Confusable set u v) :
    u.hello ≠ v.hello := by
  obtain ⟨-, -, next⟩ := h
  have hu : (u.queueBits set).flags % 2 = u.hello.toNat := flags_parity _
  have hv : (v.queueBits set).flags % 2 = v.hello.toNat := flags_parity _
  intro same
  rw [same] at hu
  omega

/-- The queue type tells users apart up to `Confusable`. -/
theorem queueType_eq_iff {set : QueueSettings} {u v : QueueUser} :
    u.queueType set = v.queueType set ↔
      u.queueBits set = v.queueBits set ∨ Confusable set u v ∨ Confusable set v u := by
  rw [queueType_eq, queueType_eq]
  obtain ⟨k, hk, -⟩ := weight_even (u.queueBits set).search
  obtain ⟨l, hl, -⟩ := weight_even (v.queueBits set).search
  have wide : ∀ a, SearchBit.weight a ≤ 16 := fun a => by
    obtain ⟨k, hk, hle⟩ := weight_even a
    omega
  have hu := wide (u.queueBits set).search
  have hv := wide (v.queueBits set).search
  constructor
  · intro same
    have long : (u.longMyInfo set).toNat = (v.longMyInfo set).toNat := by
      have bu := Bool.toNat_le (u.longMyInfo set)
      have bv := Bool.toNat_le (v.longMyInfo set)
      omega
    have long' : u.longMyInfo set = v.longMyInfo set := toNat_injective long
    have close : (u.queueBits set).flags = (v.queueBits set).flags ∨
        (v.queueBits set).flags = (u.queueBits set).flags + 1 ∨
        (u.queueBits set).flags = (v.queueBits set).flags + 1 := by omega
    rcases close with flags | flags | flags
    · left
      have search := weight_injective
        (a := (u.queueBits set).search) (b := (v.queueBits set).search) (by omega)
      obtain ⟨hello, operator, userIP⟩ := flags_injective flags
      exact QueueBits.ext_iff.mpr ⟨long', search, hello, operator, userIP⟩
    · right; left
      exact ⟨long', weight_overlap.mp (by omega), flags⟩
    · right; right
      exact ⟨long'.symm, weight_overlap.mp (by omega), flags⟩
  · rintro (same | ⟨long, search, flags⟩ | ⟨long, search, flags⟩)
    · have long : u.longMyInfo set = v.longMyInfo set := congrArg QueueBits.longMyInfo same
      rw [same, long]
    · have := weight_overlap.mpr search
      rw [long]
      omega
    · have := weight_overlap.mpr search
      rw [long]
      omega

/-- The text a queue item gives a user is a function of its queue bits, of
whether it shares and of its ExtJSON support. -/
theorem itemData_congr {α : Type*} (matchExtJson : List α → Bool) {set : QueueSettings}
    {u v : QueueUser} (bits : u.queueBits set = v.queueBits set)
    (json : u.isSupportExtJSON = v.isSupportExtJSON) (item : QueueItem α) :
    itemData matchExtJson u (u.queueBits set) item =
      itemData matchExtJson v (v.queueBits set) item := by
  have shares : (u.sharedSize ≠ 0) ↔ (v.sharedSize ≠ 0) := by
    have search := congrArg QueueBits.search bits
    simp only [QueueUser.queueBits] at search
    by_cases hu : u.sharedSize = 0 <;> by_cases hv : v.sharedSize = 0 <;> simp_all
  unfold itemData
  rw [bits, json]
  simp only [shares]

/-- A text of bytes starts with `$ExtJSON `. -/
def matchExtJsonBytes (text : List UInt8) : Bool :=
  ("$ExtJSON ".toList.map (fun c => UInt8.ofNat c.toNat)).isPrefixOf text

/-- The queues of the program: bytes in buffers. -/
def byteSink (uninit : Nat → UInt8) : Sink UInt8 Buffer where
  init := Buffer.init uninit
  add := Buffer.addDataToQueue uninit
  clear := Buffer.clear
  content := Buffer.content

section
variable {uninit : Nat → UInt8}

theorem content_addAll_congr {q q' : Buffer} (h : q.extent = .start) (h' : q'.extent = .start)
    (ps : List (List UInt8)) :
    (q.addAll uninit ps).content = (q'.addAll uninit ps).content := by
  induction ps using List.reverseRecOn with
  | nil =>
    have empty : q.szLen = 0 := congrArg Extent.len h
    have empty' : q'.szLen = 0 := congrArg Extent.len h'
    simp [Buffer.addAll, Buffer.content, empty, empty']
  | append_singleton ps p ih =>
    have same : (q.addAll uninit ps).extent = (q'.addAll uninit ps).extent := by
      rw [Buffer.extent_addAll, Buffer.extent_addAll, h, h']
    have len : (q.addAll uninit ps).szLen = (q'.addAll uninit ps).szLen := congrArg Extent.len same
    have last : ∀ q : Buffer, q.addAll uninit (ps ++ [p]) =
        (q.addAll uninit ps).addDataToQueue uninit p := fun q => run_concat _ _ _ _
    rw [last, last, Buffer.content_addDataToQueue, Buffer.content_addDataToQueue, same, len, ih]

theorem byteSink_lawful : (byteSink uninit).Lawful (fun q => q.extent = .start) where
  init := Buffer.extent_init
  clear q ps h := Buffer.extent_clear (Buffer.addAll_grown (by rw [h]; left; exact ⟨rfl, rfl⟩) ps)
  same _ _ ps h h' := content_addAll_congr h h' ps

end

/-- Two users that share a queue with different rights: told apart by `Confusable`
or by ExtJSON support alone. -/
def Mismatch (set : QueueSettings) (u v : QueueUser) : Prop :=
  Confusable set u v ∨ Confusable set v u ∨
    (u.queueBits set = v.queueBits set ∧ u.isSupportExtJSON ≠ v.isSupportExtJSON)

namespace GlobalDataQueue

section
variable {uninit : Nat → UInt8} {set : QueueSettings}

theorem built_congr (g : GlobalDataQueue UInt8 Buffer) {u v : QueueUser}
    (bits : u.queueBits set = v.queueBits set)
    (json : u.isSupportExtJSON = v.isSupportExtJSON) :
    g.built (byteSink uninit) matchExtJsonBytes set u =
      g.built (byteSink uninit) matchExtJsonBytes set v := by
  have userIP : u.userIP set = v.userIP set := congrArg QueueBits.userIP bits
  have items : itemData matchExtJsonBytes u (u.queueBits set) =
      itemData matchExtJsonBytes v (v.queueBits set) :=
    funext (itemData_congr matchExtJsonBytes bits json)
  rw [built, built, fillQueue_eq, fillQueue_eq, payloads, payloads, items, userIP]

/-- Sharing is right for a user sequence and its items if and only if every two
mismatched users happen to be entitled to the same bytes. -/
theorem sound_iff_mismatch {g : GlobalDataQueue UInt8 Buffer}
    (ready : Ready (fun q : Buffer => q.extent = .start) g)
    (idle : g.createdGlobalQueues = []) (us : List QueueUser) :
    g.Sound (byteSink uninit) matchExtJsonBytes set us ↔
      ∀ u ∈ us, ∀ v ∈ us, Mismatch set u v →
        g.built (byteSink uninit) matchExtJsonBytes set u =
          g.built (byteSink uninit) matchExtJsonBytes set v := by
  rw [sound_iff byteSink_lawful ready idle]
  constructor
  · intro h u hu v hv mismatch
    apply h u hu v hv
    rw [queueType_eq_iff]
    rcases mismatch with c | c | ⟨bits, -⟩
    · exact .inr (.inl c)
    · exact .inr (.inr c)
    · exact .inl bits
  · intro h u hu v hv same
    rcases queueType_eq_iff.mp same with bits | c | c
    · by_cases json : u.isSupportExtJSON = v.isSupportExtJSON
      · exact built_congr g bits json
      · exact h u hu v hv (.inr (.inr ⟨bits, json⟩))
    · exact h u hu v hv (.inl c)
    · exact h u hu v hv (.inr (.inl c))

/-- A round that announces one text under one command. -/
def oneItem (cmd : Cmd) : Round UInt8 := ⟨[⟨cmd, [1], []⟩], [], []⟩

/-- What one announced text comes to for a user that is entitled to it or not. -/
theorem built_oneItem {g : GlobalDataQueue UInt8 Buffer} {cmd : Cmd} {u : QueueUser}
    {entitled : Bool} (items : g.queueItems = (oneItem cmd).items) (opList : g.opListQueue = [])
    (userIP : g.userIPQueue = [])
    (data : itemData matchExtJsonBytes u (u.queueBits set) ⟨cmd, [1], []⟩ =
      if entitled then [1] else []) :
    g.built (byteSink uninit) matchExtJsonBytes set u = if entitled then [1] else [] := by
  have texts : nonEmpty (g.payloads matchExtJsonBytes set u) = if entitled then [[1]] else [] := by
    rw [payloads, items, opList, userIP]
    simp only [oneItem, List.map_cons, List.map_nil, data]
    cases entitled <;> cases u.userIP set <;> rfl
  rw [built, fillQueue_eq, texts]
  cases entitled <;> rfl

/-- Mismatched users are entitled to different texts in some round: HELLO tells
confusable users apart, an ExtJSON item the others. -/
theorem exists_round_of_mismatch {g : GlobalDataQueue UInt8 Buffer}
    (ready : Ready (fun q : Buffer => q.extent = .start) g) (idle : g.createdGlobalQueues = [])
    {u v : QueueUser} (h : Mismatch set u v) :
    ∃ r, (g.openRound r).built (byteSink uninit) matchExtJsonBytes set u ≠
      (g.openRound r).built (byteSink uninit) matchExtJsonBytes set v := by
  have hello : u.hello ≠ v.hello →
      (g.openRound (oneItem .hello)).built (byteSink uninit) matchExtJsonBytes set u ≠
        (g.openRound (oneItem .hello)).built (byteSink uninit) matchExtJsonBytes set v := by
    intro ne
    obtain ⟨-, -, items, opList, userIP⟩ := ready_openRound ready idle (oneItem .hello)
    have each : ∀ w : QueueUser, (g.openRound (oneItem .hello)).built (byteSink uninit)
        matchExtJsonBytes set w = if w.hello then [1] else [] := fun w =>
      built_oneItem items opList userIP rfl
    rw [each u, each v]
    revert ne
    cases u.hello <;> cases v.hello <;> simp
  rcases h with c | c | ⟨-, ne⟩
  · exact ⟨_, hello c.hello_ne⟩
  · exact ⟨_, hello c.hello_ne.symm⟩
  · refine ⟨oneItem .extJson, ?_⟩
    obtain ⟨-, -, items, opList, userIP⟩ := ready_openRound ready idle (oneItem .extJson)
    have each : ∀ w : QueueUser, (g.openRound (oneItem .extJson)).built (byteSink uninit)
        matchExtJsonBytes set w = if w.isSupportExtJSON then [1] else [] := fun w =>
      built_oneItem items opList userIP (by simp [itemData])
    rw [each u, each v]
    revert ne
    cases u.isSupportExtJSON <;> cases v.isSupportExtJSON <;> simp

end

end GlobalDataQueue

open GlobalDataQueue

/-- For the users served in a round: whatever is announced, each is sent what it
is entitled to, if and only if no two of them are mismatched. For one round and
its announcements, mismatched users must happen to be entitled to the same bytes. -/
theorem sharing_sound_iff (uninit : Nat → UInt8) (set : QueueSettings)
    (rounds : List (Round UInt8 × List QueueUser)) (us : List QueueUser) :
    let g := GlobalDataQueue.afterRounds (byteSink uninit) matchExtJsonBytes set rounds
    ((∀ r, (g.openRound r).Sound (byteSink uninit) matchExtJsonBytes set us) ↔
      ∀ u ∈ us, ∀ v ∈ us, ¬ Mismatch set u v) ∧
    ∀ r, ((g.openRound r).Sound (byteSink uninit) matchExtJsonBytes set us ↔
      ∀ u ∈ us, ∀ v ∈ us, Mismatch set u v →
        (g.openRound r).built (byteSink uninit) matchExtJsonBytes set u =
          (g.openRound r).built (byteSink uninit) matchExtJsonBytes set v) := by
  intro g
  obtain ⟨ready, idle⟩ : Ready (fun q : Buffer => q.extent = .start) g ∧
      g.createdGlobalQueues = [] := ready_afterRounds byteSink_lawful rounds
  have each : ∀ r, (g.openRound r).Sound (byteSink uninit) matchExtJsonBytes set us ↔
      ∀ u ∈ us, ∀ v ∈ us, Mismatch set u v →
        (g.openRound r).built (byteSink uninit) matchExtJsonBytes set u =
          (g.openRound r).built (byteSink uninit) matchExtJsonBytes set v := fun r => by
    obtain ⟨ready', idle', -⟩ := ready_openRound ready idle r
    exact sound_iff_mismatch ready' idle' us
  refine ⟨⟨fun sound u hu v hv mismatch => ?_, fun apart r => ?_⟩, each⟩
  · obtain ⟨r, differ⟩ : ∃ r, (g.openRound r).built (byteSink uninit) matchExtJsonBytes set u ≠
        (g.openRound r).built (byteSink uninit) matchExtJsonBytes set v :=
      exists_round_of_mismatch ready idle mismatch
    exact differ ((each r).mp (sound r) u hu v hv mismatch)
  · exact (each r).mpr fun u hu v hv mismatch => absurd mismatch (apart u hu v hv)

/-- A sharing user on both protocols, active on IPv6 only, without hellos. -/
def wideUser : QueueUser where
  sharedSize := 1
  profile := -1
  ipv6 := true
  ipv4 := true
  ipv6Active := true
  ipv4Active := false
  operator := false
  noHello := true
  userIP2 := false
  isJsonUser := false

/-- A user that shares nothing and wants hellos. -/
def bareUser : QueueUser := { wideUser with sharedSize := 0, noHello := false }

/-- Both have queue type 14: the second is not sent the hello it is entitled to. -/
theorem wideUser_takes_hello :
    ¬ (((GlobalDataQueue.init (byteSink fun _ => 0)).openRound (oneItem .hello)).Sound
      (byteSink fun _ => 0) matchExtJsonBytes ⟨1, fun _ _ => false⟩ [wideUser, bareUser]) := by
  intro sound
  have sent := congrArg (fun texts => texts[1]?) sound
  exact absurd sent (by decide)

end FlyHub.Broadcast
