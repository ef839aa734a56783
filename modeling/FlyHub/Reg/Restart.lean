import FlyHub.Reg.Loaded

/-!
# The registrations after a restart

A registration comes back as it was if its nick and its password have lengths that
`Load` takes, its profile is still there, and the hash made of a plain password, if
one is made, is that of no other password that can be sent. `AddNew` and `ChangeReg`
look at none of this.
-/

namespace FlyHub.Reg

open FlyHub.Lib FlyHub.Pxb

/-- The passwords that a `$MyPass` can carry. A zero that is received is replaced, and a
pipe ends the command. -/
structure Typed (s : Text) : Prop where
  some_ : s ≠ []
  short : s.length ≤ 64
  noZero : 0 ∉ s
  noPipe : 124 ∉ s

namespace Password

/-- The comparison in `MyPass`. -/
def takes (cfg : Config) : Password → Text → Bool
  | .hashed h, s => cfg.hashPassword s = some h
  | .plain p, s => cText p = s

/-- `MyPass` takes the password. -/
def Accepts (cfg : Config) (p : Password) (s : Text) : Prop := Typed s ∧ p.takes cfg s = true

/-- A plain password has no zero in it. -/
def Clean : Password → Prop
  | .hashed _ => True
  | .plain p => 0 ∉ p

/-- The password is taken in by a load, and then takes what it took before. -/
def Kept (cfg : Config) (set : LoadSettings) : Password → Prop
  | .hashed _ => True
  | .plain p =>
    let written := (textValue p).bytes
    written ≠ [] ∧ written.length < 65532 ∧
      ∀ s, Typed s → (plainPassword cfg set.hashPasswords written).takes cfg s = true → s = p

end Password

/-- What is left of a registration after a save and a load. -/
structure SameReg (cfg : Config) (u v : RegUser) : Prop where
  sNick : v.sNick = u.sNick
  profile : v.profile = u.profile
  accepts : ∀ s, v.password.Accepts cfg s ↔ u.password.Accepts cfg s

structure RegUser.Kept (cfg : Config) (set : LoadSettings) (u : RegUser) : Prop where
  sNick : u.sNick.length < 65
  profile : u.profile ≤ set.lastProfile
  password : u.password.Kept cfg set

/-- What a load makes of a registration that was saved. -/
def loadedPassword (cfg : Config) (set : LoadSettings) : Password → Option Password
  | .hashed h => some (.hashed h)
  | .plain p =>
    let written := (textValue p).bytes
    if written = [] then none else some (plainPassword cfg set.hashPasswords written)

def loadedReg (cfg : Config) (set : LoadSettings) (u : RegUser) : Option RegUser :=
  let written := (textValue u.sNick).bytes
  if written.length < 65 then
    (loadedPassword cfg set u.password).map fun p =>
      createReg written p (clampProfile set u.profile)
  else none

/-! ## A registration is read as it was written -/

/-- The place of a sub-item in a read. -/
def Password.place : Password → Nat → Nat
  | .hashed _, k => k
  | .plain _, k => if k = 1 then 3 else k

theorem Password.place_lt (p : Password) {k : Nat} (lt : k < 3) : p.place k < 4 := by
  cases p with
  | hashed h => exact Nat.lt_succ_of_lt lt
  | plain s =>
    dsimp only [place]
    split
    · omega
    · exact Nat.lt_succ_of_lt lt

theorem Password.place_inj (p : Password) {j k : Nat} (ltJ : j < 3) (ltK : k < 3)
    (same : p.place j = p.place k) : j = k := by
  cases p with
  | hashed h => exact same
  | plain s =>
    dsimp only [place] at same
    by_cases first : j = 1
    · by_cases second : k = 1
      · rw [first, second]
      · rw [if_pos first, if_neg second] at same
        omega
    · by_cases second : k = 1
      · rw [if_neg first, if_pos second] at same
        omega
      · rwa [if_neg first, if_neg second] at same

theorem regFile_proper : regFile.Proper where
  name := by decide
  header := by decide
  same := fun _ => rfl
  room := fun _ => Nat.le_refl 3

section
variable {cfg : Config} {set : LoadSettings} {u : RegUser} {r : PXBReader}

/-- An identifier is found at its place in the request, whichever comes before. -/
theorem find_place (s : ItemScan) (n k : Nat) (id : Ident) (at_ : u.idents[k]? = some id)
    (actual : s.actualItem = k) : s.find regRequest n id.bytes = s.put n (u.password.place k) := by
  have three : k < 3 := (List.getElem?_eq_some_iff.mp at_).1
  obtain ⟨sNick, password, profile, hash, hash_eq⟩ := u
  cases password with
  | hashed h =>
    match k, three with
    | 0, _ | 1, _ | 2, _ =>
      cases at_
      rw [ItemScan.find, actual]
      rfl
  | plain p =>
    match k, three with
    | 0, _ | 1, _ | 2, _ =>
      cases at_
      rw [ItemScan.find, actual]
      rfl

/-- The request puts the sub-items of a registration at their places. -/
theorem asks (u : RegUser) (i : Item regFile.ui8SubItems)
    (encodes : Encodes u.idents u.values i) : regRequest.Places i u.password.place := by
  have idents := encodes.idents
  have length : i.subItems.length = 3 := by
    rw [← List.length_map SubItem.ident, idents]
    rfl
  refine ⟨length.symm, ?_, ?_, ?_⟩
  · rw [length]
    exact fun k lt => u.password.place_lt lt
  · rw [length]
    exact fun j ltJ k ltK same => u.password.place_inj ltJ ltK same
  · intro k sub at_ s actual
    apply find_place s sub.size k sub.ident _ actual
    rw [← idents, List.getElem?_map, at_, Option.map_some]

theorem twoBytes_read (profile : UInt16) :
    UInt16.ofNat (ofBE (Value.twoBytes profile).bytes) = profile := by
  rw [Value.bytes, ofBE_toBE 2 _ profile.toNat_lt, UInt16.ofNat_toNat]

variable (cfg set) in
/-- The password is found under its identifier, and nothing under the other. -/
theorem readPassword_holds (holds : HoldsAt r u.password.place u.values) :
    itemLength r 1 < 65 ∧ readPassword cfg set r = .ok (loadedPassword cfg set u.password) := by
  obtain ⟨sNick, password, profile, hash, hash_eq⟩ := u
  cases password with
  | hashed h =>
    have given : itemLength r 1 = h.val.length ∧ itemData r 1 h.val.length = .ok h.val :=
      holds.gives 1 _ rfl
    rw [h.property] at given
    obtain ⟨length, data⟩ := given
    have plain : itemLength r 3 = 0 := by
      apply holds.others
      intro k lt same
      have three : k < 3 := lt
      have eq : k = 3 := same
      omega
    refine ⟨by rw [length]; decide, ?_⟩
    rw [readPassword, if_neg (by rw [plain]; simp), if_pos length, data, ok_bind, hashedPassword,
      dif_pos h.property]
    rfl
  | plain p =>
    have given : itemLength r 3 = (textValue p).bytes.length ∧
        itemData r 3 (textValue p).bytes.length = .ok (textValue p).bytes := holds.gives 1 _ rfl
    obtain ⟨length, data⟩ := given
    have hashed : itemLength r 1 = 0 := by
      apply holds.others
      intro k _ same
      simp only [Password.place] at same
      split at same <;> omega
    refine ⟨by rw [hashed]; decide, ?_⟩
    rw [readPassword, length, hashed, loadedPassword]
    by_cases empty : (textValue p).bytes = []
    · rw [if_pos empty, if_neg (by simp [empty]), if_neg (by decide)]
      rfl
    · rw [if_neg empty, if_pos (by simpa using empty), data, ok_bind]
      rfl

theorem readReg_holds (holds : HoldsAt r u.password.place u.values) :
    readReg cfg set r = .ok (loadedReg cfg set u) := by
  obtain ⟨short, password⟩ := readPassword_holds cfg set holds
  have zero : u.password.place 0 = 0 := by cases u.password <;> rfl
  have two : u.password.place 2 = 2 := by cases u.password <;> rfl
  obtain ⟨nickLength, nick⟩ := holds.gives 0 _ rfl
  have profile : itemLength r 2 = (Value.twoBytes u.profile).bytes.length ∧
      itemData r 2 (Value.twoBytes u.profile).bytes.length = .ok (Value.twoBytes u.profile).bytes :=
    two ▸ holds.gives 2 _ rfl
  have size : (Value.twoBytes u.profile).bytes.length = 2 := toBE_length 2 _
  rw [size] at profile
  obtain ⟨profileLength, profile⟩ := profile
  rw [zero] at nickLength nick
  unfold readReg loadedReg
  rw [nickLength, profileLength]
  by_cases fits : (textValue u.sNick).bytes.length < 65
  · rw [if_pos ⟨fits, short, rfl⟩, if_pos fits, profile, ok_bind, password, ok_bind]
    have text : readText r 0 64 = .ok (textValue u.sNick).bytes := by
      rw [readText, nickLength]
      split
      · rename_i none_
        rw [List.length_eq_zero_iff.mp none_]
        rfl
      · rw [Nat.min_eq_left (Nat.le_of_lt_succ fits), nick]
    rw [text, ok_bind, twoBytes_read]
    rfl
  · rw [if_neg (fun all => fits all.1), if_neg fits]
    rfl

end

/-! ## What a restart keeps -/

section
variable {cfg : Config} {set : LoadSettings} {u : RegUser}

theorem takes_plain {p s : Text} (clean : 0 ∉ p) : (Password.plain p).takes cfg s = true ↔ s = p := by
  rw [Password.takes, cText_of_not_mem clean, decide_eq_true_eq, eq_comm]

theorem textValue_short {s : Text} (short : s.length ≤ 64) : (textValue s).bytes = s :=
  textValue_bytes (Nat.lt_of_le_of_lt short (by decide))

variable (cfg) in
/-- A password that is taken in by a load takes then what it took before, if it takes no
other. -/
theorem accepts_iff {p : Text} (clean : 0 ∉ p) (hashPasswords : Bool) :
    (∀ s, (plainPassword cfg hashPasswords (textValue p).bytes).Accepts cfg s ↔
        (Password.plain p).Accepts cfg s) ↔
      ∀ s, Typed s →
        (plainPassword cfg hashPasswords (textValue p).bytes).takes cfg s = true → s = p := by
  constructor
  · intro same s typed takes
    exact (takes_plain clean).mp ((same s).mp ⟨typed, takes⟩).2
  · intro only s
    constructor
    · rintro ⟨typed, takes⟩
      exact ⟨typed, (takes_plain clean).mpr (only s typed takes)⟩
    · rintro ⟨typed, takes⟩
      obtain rfl := (takes_plain clean).mp takes
      refine ⟨typed, ?_⟩
      rw [textValue_short typed.short]
      unfold plainPassword
      split
      · cases hash : cfg.hashPassword s with
        | none => exact takes
        | some h => exact decide_eq_true hash
      · exact takes

variable (cfg set) in
/-- A load gives back a password that is kept. -/
theorem loadedPassword_kept {p : Password} (clean : p.Clean) :
    (∃ p', loadedPassword cfg set p = some p' ∧ ∀ s, p'.Accepts cfg s ↔ p.Accepts cfg s) ∧
        p.value.bytes.length < 65532 ↔ p.Kept cfg set := by
  cases p with
  | hashed h =>
    refine ⟨fun _ => trivial, fun _ => ⟨⟨_, rfl, fun s => Iff.rfl⟩, ?_⟩⟩
    show h.val.length < 65532
    rw [h.property]
    decide
  | plain p =>
    have same := accepts_iff cfg clean set.hashPasswords
    unfold loadedPassword Password.Kept
    constructor
    · rintro ⟨⟨p', loaded, accepts⟩, short⟩
      dsimp only at loaded
      split at loaded
      · cases loaded
      · rename_i some_
        cases loaded
        exact ⟨some_, short, same.mp accepts⟩
    · rintro ⟨some_, short, only⟩
      exact ⟨⟨_, if_neg some_, same.mpr only⟩, short⟩

theorem clampProfile_eq {profile : UInt16} :
    clampProfile set profile = profile ↔ profile ≤ set.lastProfile := by
  unfold clampProfile
  split
  · rename_i less
    constructor
    · intro eq
      exact eq ▸ UInt16.le_refl _
    · intro le
      exact absurd less (UInt16.not_lt.mpr le)
  · rename_i le
    exact ⟨fun _ => UInt16.not_lt.mp le, fun _ => rfl⟩

theorem fits_values (nick : u.sNick.length < 65) (password : u.password.value.bytes.length < 65532) :
    Fits u.values := by
  have nick' : (textValue u.sNick).bytes.length < 65 := by
    rwa [textValue_short (Nat.le_of_lt_succ nick)]
  have two : (Value.twoBytes u.profile).bytes.length = 2 := toBE_length 2 _
  constructor
  · intro v mem
    simp only [RegUser.values, List.mem_cons, List.not_mem_nil, or_false] at mem
    rcases mem with rfl | rfl | rfl
    · omega
    · exact password
    · omega
  · simp only [RegUser.values, dataSize, globalBuffSize]
    omega

/-- A registration that the file can hold comes back as it was exactly if it is kept. -/
theorem loadedReg_kept (clean : u.password.Clean) :
    (∃ v, loadedReg cfg set u = some v ∧ SameReg cfg u v) ∧ Fits u.values ↔ u.Kept cfg set := by
  have kept := loadedPassword_kept cfg set clean
  unfold loadedReg
  constructor
  · rintro ⟨⟨v, loaded, same⟩, fits⟩
    dsimp only at loaded
    split at loaded
    · rename_i short
      obtain ⟨p, password, rfl⟩ := Option.map_eq_some_iff.mp loaded
      have nick : (textValue u.sNick).bytes = u.sNick := same.sNick
      rw [nick] at short
      exact ⟨short, clampProfile_eq.mp same.profile,
        kept.mp ⟨⟨p, password, same.accepts⟩, fits.short _ (by simp [RegUser.values])⟩⟩
    · cases loaded
  · rintro ⟨nick, profile, password⟩
    obtain ⟨⟨p, loaded, accepts⟩, short⟩ := kept.mpr password
    have nick' := textValue_short (Nat.le_of_lt_succ nick)
    refine ⟨⟨createReg u.sNick p (clampProfile set u.profile), ?_, rfl,
      clampProfile_eq.mpr profile, accepts⟩, fits_values nick short⟩
    rw [nick', loaded]
    exact if_pos nick

/-- A list comes through a partial function with all its elements only if each does. -/
theorem forall₂_filterMap_iff {α β : Type} {R : α → β → Prop} {f : α → Option β} (l : List α) :
    List.Forall₂ R l (l.filterMap f) ↔ ∀ a ∈ l, ∃ b, f a = some b ∧ R a b := by
  induction l with
  | nil => simp
  | cons a l ih =>
    cases value : f a with
    | none =>
      rw [List.filterMap_cons_none value]
      constructor
      · intro related
        have length := related.length_eq
        have less := List.length_filterMap_le f l
        rw [List.length_cons] at length
        omega
      · intro all
        obtain ⟨b, eq, -⟩ := all a (by simp)
        rw [value] at eq
        cases eq
    | some b =>
      rw [List.filterMap_cons_some value, List.forall₂_cons, ih, List.forall_mem_cons, value]
      simp

end

namespace RegManager

section
variable {cfg : Config} {set : LoadSettings} {m : RegManager}

/-- What is saved is loaded again with every registration as it was, and no other. -/
def Survives (cfg : Config) (set : LoadSettings) (m : RegManager) : Prop :=
  ∃ file m' least, m.save = some file ∧
    (∀ turns, least ≤ turns → load cfg set turns (.pxb file) = .ok m') ∧
      List.Forall₂ (SameReg cfg) m.users m'.users

theorem users_addAll (cfg : Config) (inv : Inv m) (us : List RegUser) :
    (us.foldl (add cfg) m).users = m.users ++ us := by
  induction us generalizing m with
  | nil => simp
  | cons u us ih =>
    have old : m.regList.map ((m.add cfg u).reg) = m.regList.map m.reg :=
      List.map_congr_left (add_reg cfg u inv)
    rw [List.foldl_cons, ih (inv_add inv), users, add_list, List.map_append, old, List.map_singleton,
      add_new, List.append_assoc, List.singleton_append]
    rfl

theorem collectAll (rows us : List RegUser) :
    rows.foldl (fun us u => us ++ (loadedReg cfg set u).toList) us =
      us ++ rows.filterMap (loadedReg cfg set) := by
  induction rows generalizing us with
  | nil => simp
  | cons u rows ih =>
    rw [List.foldl_cons, ih]
    cases loaded : loadedReg cfg set u with
    | none => simp [loaded]
    | some v => simp [loaded]

variable (cfg set) in
/-- What is loaded from a file that was saved. -/
theorem load_saved {file : Text} (saved : m.save = some file) :
    ∃ m' least, (∀ turns, least ≤ turns → load cfg set turns (.pxb file) = .ok m') ∧
      m'.users = (m.users.take (readable globalBuffSize (regFile.itemSizes m.users) - 1)).filterMap
        (loadedReg cfg set) := by
  have reads : Reads regFile regRequest (fun u => u.password.place) (collectReg cfg set)
      (fun us u => us ++ (loadedReg cfg set u).toList) m.users := by
    refine ⟨fun u _ i encodes => asks u i encodes, fun us r u _ holds => ?_⟩
    rw [collectReg, readReg_holds holds, ok_bind]
    rfl
  obtain ⟨least, read⟩ := readFile_reads regFile_proper regRoom saved reads []
  refine ⟨_, least, fun turns le => ?_, users_addAll cfg inv_empty _⟩
  rw [load_pxb, fileRegs]
  have file' := read turns le
  rw [collectAll] at file'
  exact congrArg (Except.map fun us => us.foldl (add cfg) empty) (congrArg (Except.map Prod.fst) file')

theorem take_all_iff (rows : List RegUser) (set : LoadSettings) :
    List.Forall₂ (SameReg cfg) rows
        ((rows.take (readable globalBuffSize (regFile.itemSizes rows) - 1)).filterMap
          (loadedReg cfg set)) ↔
      clearOfEnd globalBuffSize (regFile.itemSizes rows) = true ∧
        List.Forall₂ (SameReg cfg) rows (rows.filterMap (loadedReg cfg set)) := by
  have length : (regFile.itemSizes rows).length = rows.length + 1 := by simp [RecordFile.itemSizes]
  have le := readable_le globalBuffSize (regFile.itemSizes rows)
  rw [← readable_eq_iff, length]
  rw [length] at le
  constructor
  · intro related
    have same := related.length_eq
    have less := List.length_filterMap_le (loadedReg cfg set)
      (rows.take (readable globalBuffSize (regFile.itemSizes rows) - 1))
    rw [List.length_take] at less
    have some_ : readable globalBuffSize (regFile.itemSizes rows) ≠ 0 := readable_cons_ne _ _ _
    have all : readable globalBuffSize (regFile.itemSizes rows) = rows.length + 1 := by omega
    rw [all, Nat.add_sub_cancel, List.take_length] at related
    exact ⟨all, related⟩
  · rintro ⟨all, related⟩
    rw [all, Nat.add_sub_cancel, List.take_length]
    exact related

/-- The registrations survive exactly if no item of the file ends where the window of the
reader does, and each of them is kept. -/
theorem survives_iff_kept (clean : ∀ u ∈ m.users, u.password.Clean) :
    m.Survives cfg set ↔ clearOfEnd globalBuffSize (regFile.itemSizes m.users) = true ∧
      ∀ u ∈ m.users, u.Kept cfg set := by
  constructor
  · rintro ⟨file, m', least, saved, loaded, related⟩
    obtain ⟨m'', least', loaded', users⟩ := load_saved cfg set saved
    have same : m' = m'' := Except.ok.inj
      ((loaded _ (Nat.le_max_left least least')).symm.trans (loaded' _ (Nat.le_max_right least least')))
    rw [same, users, take_all_iff, forall₂_filterMap_iff] at related
    have fits := RecordFile.save_fits regFile_proper saved
    refine ⟨related.1, fun u mem => ?_⟩
    exact (loadedReg_kept (clean u mem)).mp ⟨related.2 u mem, fits u mem⟩
  · rintro ⟨clear, kept⟩
    have each := fun u mem => (loadedReg_kept (clean u mem)).mpr (kept u mem)
    obtain ⟨file, saved⟩ := RecordFile.save_some regFile_proper fun u mem => (each u mem).2
    obtain ⟨m', least, loaded, users⟩ := load_saved cfg set saved
    refine ⟨file, m', least, saved, loaded, ?_⟩
    rw [users, take_all_iff, forall₂_filterMap_iff]
    exact ⟨clear, fun u mem => (each u mem).1⟩

end

/-! ## Every password comes from a text with its end -/

section
variable {cfg : Config} {m : RegManager}

theorem updatePassword_clean {u : RegUser} (clean : u.password.Clean) (hashPasswords : Bool)
    (sNewPass : Text) :
    (u.updatePassword cfg hashPasswords (cText sNewPass)).password.Clean := by
  have new : (Password.plain (cText sNewPass)).Clean := zero_not_mem_cText sNewPass
  unfold RegUser.updatePassword
  split
  · cases cfg.hashPassword (cText sNewPass) with
    | none => exact clean
    | some h => exact trivial
  · split
    · exact new
    · split
      · exact clean
      · exact new

theorem newReg_clean {hashPasswords : Bool} {sNick sPasswd : Text} {profile : UInt16} {u : RegUser}
    (made : newReg cfg hashPasswords sNick (cText sPasswd) profile = some u) : u.password.Clean := by
  unfold newReg at made
  split at made
  · obtain ⟨h, -, rfl⟩ := Option.map_eq_some_iff.mp made
    exact trivial
  · cases made
    exact zero_not_mem_cText sPasswd

theorem clean_step (clean : ∀ r, (m.reg r).password.Clean) (e : Event) :
    ∀ r, ((m.step cfg e).reg r).password.Clean := by
  intro r
  obtain eq | ⟨sNick, sPasswd, profile, u, made, eq, -⟩ | ⟨s, -, pass, profile, eq⟩ | ⟨s, -, eq⟩ :=
    step_cases cfg m e
  · rw [eq]
    exact clean r
  · have new : (m.add cfg u).reg r = if r = m.next then u else m.reg r :=
      Function.update_apply _ _ _ _
    rw [eq, new]
    split
    · exact newReg_clean made
    · exact clean r
  · rw [eq]
    unfold changeReg
    dsimp only
    rw [Function.update_apply]
    split
    · cases pass with
      | none => exact clean s
      | some t => exact updatePassword_clean (clean s) e.hashPasswords t
    · exact clean r
  · rw [eq]
    exact clean r

theorem clean_run (cfg : Config) (es : List Event) :
    ∀ u ∈ (run (step cfg) empty es).users, u.password.Clean := by
  have clean : ∀ r, ((run (step cfg) empty es).reg r).password.Clean :=
    run_invariant (fun m : RegManager => ∀ r, (m.reg r).password.Clean)
      (fun m e clean => clean_step clean e) es fun _ => List.not_mem_nil
  intro u mem
  obtain ⟨r, -, rfl⟩ := List.mem_map.mp mem
  exact clean r

end

/-- The registrations that are made and changed survive a restart exactly if no item of
the file ends where the window of the reader does, and each of them is kept. -/
theorem survives_iff (cfg : Config) (set : LoadSettings) (es : List Event) :
    (run (step cfg) empty es).Survives cfg set ↔
      clearOfEnd globalBuffSize (regFile.itemSizes (run (step cfg) empty es).users) = true ∧
        ∀ u ∈ (run (step cfg) empty es).users, u.Kept cfg set :=
  survives_iff_kept (clean_run cfg es)

/-- A nick of 65 letters, which the command to add a user lets through. -/
def longNick : Text := List.replicate 65 97

/-- The user with it is gone after a restart. -/
theorem longNick_dropped : ¬ ∀ (cfg : Config) (set : LoadSettings) (es : List Event),
    (run (step cfg) empty es).Survives cfg set := by
  intro all
  have users : (run (step frontConfig) empty [⟨false, .addNew longNick (ascii "pw") 1⟩]).users =
      [createReg longNick (.plain (ascii "pw")) 1] := by decide +kernel
  have survives := all frontConfig keepsPlain [⟨false, .addNew longNick (ascii "pw") 1⟩]
  have kept := ((survives_iff_kept (clean_run frontConfig _)).mp survives).2
  rw [users] at kept
  exact absurd (kept _ (List.mem_singleton_self _)).sNick (by decide)

end RegManager

end FlyHub.Reg
