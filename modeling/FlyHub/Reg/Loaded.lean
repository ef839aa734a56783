import FlyHub.Reg.File

/-!
# A loaded store

The load of the PXB file does not look whether a nick is there already, as the load of
the XML file and `AddNew` do. So the store is sound after it, and from then on, only if
no two records of the file have the same nick.
-/

namespace FlyHub.Reg

open FlyHub.Lib FlyHub.Pxb

/-- The nicks are equal up to case. -/
def SameNick (u v : RegUser) : Prop := iequals u.sNick v.sNick = true

instance (u v : RegUser) : Decidable (SameNick u v) := inferInstanceAs (Decidable (_ = _))

namespace RegManager

section
variable {cfg : Config} {set : LoadSettings} {m : RegManager} {turns : Nat}

theorem inv_addAll (inv : Inv m) (us : List RegUser) : Inv (us.foldl (add cfg) m) := by
  induction us generalizing m with
  | nil => exact inv
  | cons u us ih => exact ih (inv_add inv)

/-- Users go in without a second one for a nick only if their nicks are apart, and apart
from those that are there. -/
theorem unique_addAll_iff (inv : Inv m) (us : List RegUser) :
    (us.foldl (add cfg) m).Unique ↔
      m.Unique ∧ us.Pairwise (fun u v => ¬ SameNick u v) ∧
        ∀ r ∈ m.regList, ∀ u ∈ us, ¬ SameNick (m.reg r) u := by
  induction us generalizing m with
  | nil => simp
  | cons u us ih =>
    have same := add_reg cfg u inv
    rw [List.foldl_cons, ih (inv_add inv), unique_add_iff inv, List.pairwise_cons]
    constructor
    · rintro ⟨⟨unique, new⟩, apart, others⟩
      refine ⟨unique, ⟨?_, apart⟩, ?_⟩
      · intro v mem
        have apart := others m.next (by simp [add_list]) v mem
        rwa [add_new] at apart
      · intro r mem v mem'
        cases List.mem_cons.mp mem' with
        | inl eq =>
          rw [eq, SameNick, new r mem]
          exact Bool.false_ne_true
        | inr later =>
          have apart := others r (by simp [add_list, mem]) v later
          rwa [same r mem] at apart
    · rintro ⟨unique, ⟨first, apart⟩, others⟩
      refine ⟨⟨unique, ?_⟩, apart, ?_⟩
      · intro r mem
        exact Bool.eq_false_iff.mpr (others r mem u (by simp))
      · intro r mem v later
        rw [add_list, List.mem_append, List.mem_singleton] at mem
        cases mem with
        | inl old =>
          rw [same r old]
          exact others r old v (List.mem_cons_of_mem _ later)
        | inr eq =>
          rw [eq, add_new]
          exact first v later

/-- A child goes in only if its nick is not there. -/
theorem takeXml_keeps (cfg : Config) (set : LoadSettings) (inv : Inv m) (unique : m.Unique)
    (child : XmlReg) :
    Inv (takeXml cfg set m child) ∧ (takeXml cfg set m child).Unique := by
  unfold takeXml
  split
  · rename_i nick pass profile _ _ _
    split
    · exact ⟨inv, unique⟩
    · dsimp only
      split
      · exact ⟨inv, unique⟩
      · rename_i none_
        refine ⟨inv_add inv, (unique_add_iff inv).mpr ⟨unique, ?_⟩⟩
        intro r mem
        apply Bool.eq_false_iff.mpr
        intro same
        exact none_ ((find_isSome inv).mpr ⟨r, mem, same⟩)
  · exact ⟨inv, unique⟩

theorem loadXML_keeps (inv : Inv m) (unique : m.Unique) (children : List XmlReg) :
    Inv (children.foldl (takeXml cfg set) m) ∧ (children.foldl (takeXml cfg set) m).Unique := by
  induction children generalizing m with
  | nil => exact ⟨inv, unique⟩
  | cons child children ih =>
    obtain ⟨inv', unique'⟩ := takeXml_keeps cfg set inv unique child
    exact ih inv' unique'

theorem takeReg_addAll (cfg : Config) (set : LoadSettings) (us : List RegUser) (r : PXBReader) :
    takeReg cfg set (us.foldl (add cfg) empty) r =
      (collectReg cfg set us r).map fun us => us.foldl (add cfg) empty := by
  rw [takeReg, collectReg]
  cases readReg cfg set r with
  | error failure => rfl
  | ok u =>
    rw [ok_bind, ok_bind]
    exact congrArg Except.ok List.foldl_append.symm

/-- A load of the PXB file adds its registrations one after another. -/
theorem load_pxb (cfg : Config) (set : LoadSettings) (turns : Nat) (file : Text) :
    load cfg set turns (.pxb file) =
      (fileRegs cfg set turns file).map fun us => us.foldl (add cfg) empty := by
  have read := readFile_map regRequest (takeReg_addAll cfg set) regRoom ptokaXRegiteredUsers turns
    file []
  rw [List.foldl_nil] at read
  rw [load, fileRegs, read]
  cases readFile regRoom ptokaXRegiteredUsers regRequest (collectReg cfg set) turns file [] with
  | error failure => rfl
  | ok read => rfl

theorem unique_empty : empty.Unique := List.Pairwise.nil

theorem load_inv {file : RegFile} (loaded : load cfg set turns file = .ok m) : Inv m := by
  cases file with
  | pxb file =>
    rw [load_pxb] at loaded
    obtain ⟨us, -, rfl⟩ := except_map_ok loaded
    exact inv_addAll inv_empty us
  | xml children =>
    cases loaded
    exact (loadXML_keeps inv_empty unique_empty children).1

end

end RegManager

/-- The nicks of the records in a PXB file that a load takes in are apart. In an XML file
they may be as they are. -/
def RegFile.NicksApart (cfg : Config) (set : LoadSettings) (turns : Nat) : RegFile → Prop
  | .pxb file => ∀ us, fileRegs cfg set turns file = .ok us →
      us.Pairwise fun u v => ¬ SameNick u v
  | .xml _ => True

namespace RegManager

section
variable {cfg : Config} {set : LoadSettings} {m : RegManager} {turns : Nat} {file : RegFile}

theorem load_unique_iff (loaded : load cfg set turns file = .ok m) :
    m.Unique ↔ file.NicksApart cfg set turns := by
  cases file with
  | pxb file =>
    rw [load_pxb] at loaded
    obtain ⟨us, read, rfl⟩ := except_map_ok loaded
    dsimp only [RegFile.NicksApart]
    rw [read, unique_addAll_iff inv_empty]
    constructor
    · rintro ⟨-, apart, -⟩ us' eq
      cases eq
      exact apart
    · intro apart
      exact ⟨unique_empty, apart us rfl, fun r mem => nomatch mem⟩
  | xml children =>
    cases loaded
    exact ⟨fun _ => trivial, fun _ => (loadXML_keeps inv_empty unique_empty children).2⟩

/-- The store is sound after the load and in every state of the run from there exactly
if the nicks of the file are apart. -/
theorem sound_run_iff (loaded : load cfg set turns file = .ok m) (es : List Event) :
    (∀ pre, pre <+: es → (run (step cfg) m pre).Sound) ↔ file.NicksApart cfg set turns := by
  have inv := load_inv loaded
  rw [← load_unique_iff loaded]
  constructor
  · intro all
    exact (all [] List.nil_prefix).unique
  · rintro unique pre -
    obtain ⟨inv', unique'⟩ : Inv (run (step cfg) m pre) ∧ (run (step cfg) m pre).Unique :=
      run_invariant (fun m => Inv m ∧ m.Unique)
        (fun m e both => ⟨inv_step both.1 e, unique_step both.1 both.2 e⟩) pre ⟨inv, unique⟩
    exact sound inv' unique'

end

/-- A hub with two profiles that keeps its passwords as they are. -/
def keepsPlain : LoadSettings := ⟨false, 2⟩

/-- A store in which a new entry comes before those of its hash, without hashing. -/
def frontConfig : Config := ⟨fun _ => none, .front _⟩

/-- A registration of an old file. -/
def oldAlice : XmlReg := ⟨some (ascii "Alice"), some (ascii "pw"), some 1⟩

theorem sound_run_alice :
    (run (step frontConfig) ([oldAlice, oldAlice].foldl (takeXml frontConfig keepsPlain) empty)
      [⟨false, .addNew (ascii "ALICE") (ascii "x") 0⟩]).Sound :=
  (sound_run_iff
    (show load frontConfig keepsPlain 1 (.xml [oldAlice, oldAlice]) = .ok _ from rfl) _).mpr trivial _
    (List.prefix_refl _)

/-- A file with two records for one nick. -/
def aliceTwice : List RegUser :=
  [createReg (ascii "Alice") (.plain (ascii "pw")) 1, createReg (ascii "aLICE") (.plain (ascii "x")) 1]

theorem load_twice : ¬ ∀ (cfg : Config) (set : LoadSettings) (turns : Nat) (file : RegFile)
    (m : RegManager), load cfg set turns file = .ok m → ∀ (es : List Event) (pre : List Event),
      pre <+: es → (run (step cfg) m pre).Sound := by
  intro all
  have read : fileRegs frontConfig keepsPlain 20 ((regFile.save aliceTwice).getD []) =
      .ok aliceTwice := by decide +kernel
  have loaded := load_pxb frontConfig keepsPlain 20 ((regFile.save aliceTwice).getD [])
  rw [read] at loaded
  have sound := all frontConfig keepsPlain 20 _ _ loaded [] [] List.nil_prefix
  have apart := (load_unique_iff loaded).mp sound.unique aliceTwice read
  exact absurd apart (by decide)

end RegManager

end FlyHub.Reg
