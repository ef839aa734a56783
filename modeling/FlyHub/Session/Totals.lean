import Mathlib
import FlyHub.Session.State

/-!
# The totals of the hub

The hub counts what is shared and how many users are logged in as users come, change
and go. Shares are whatever the users say, and the total is kept in 64 bits.
-/

namespace FlyHub.Session

open FlyHub.Lib

/-- A socket of an open connection. -/
abbrev Socket := Fin 2147483648

/-- What the totals depend on. -/
structure Sharer where
  socket : Socket
  state : UserState := .socketAccepted
  sharedSize : UInt64 := 0
  /-- `BIT_HAVE_SHARECOUNTED`. -/
  shareCounted : Bool := false
  /-- `INFOBIT_HIDDEN`. -/
  hidden : Bool := false
  /-- A call of `Close` runs the scripts: the state it found. -/
  closedFrom : Option UserState := none

/-- `m_ui64TotalShare` and `m_ui32Logged`, and the users they are about. -/
structure Online where
  users : List Sharer
  nodup : (users.map Sharer.socket).Nodup
  totalShare : UInt64
  logged : UInt32
  /-- A total has gone below zero. -/
  wrapped : Bool

namespace Online

def start : Online := ⟨[], List.nodup_nil, 0, 0, false⟩

section
variable (o : Online)

def find (s : Socket) : Option Sharer := o.users.find? fun u => u.socket = s

/-- The user of the socket of `u` becomes `u`. -/
def put (u : Sharer) : Online :=
  { o with
    users := o.users.map fun v => if v.socket = u.socket then u else v
    nodup := by
      have same : (o.users.map fun v => if v.socket = u.socket then u else v).map Sharer.socket =
          o.users.map Sharer.socket := by
        rw [List.map_map]
        refine List.map_congr_left fun v _ => ?_
        rw [Function.comp_apply]
        split
        · rename_i same
          exact same.symm
        · rfl
      rw [same]
      exact o.nodup }

def addShare (n : UInt64) : Online := { o with totalShare := o.totalShare + n }

def subShare (n : UInt64) : Online :=
  { o with totalShare := o.totalShare - n, wrapped := o.wrapped || o.totalShare < n }

def addLogged : Online := { o with logged := o.logged + 1 }

def subLogged : Online :=
  { o with logged := o.logged - 1, wrapped := o.wrapped || o.logged < 1 }

end

/-- What happens to the user of a socket. -/
inductive Event where
  | accepted (s : Socket)
  /-- A step of the login before the user is listed. -/
  | login (s : Socket) (state : UserState)
  | myInfo (s : Socket) (newShare : UInt64)
  /-- `ReceiveLoop` at `STATE_ADDME_1LOOP`. -/
  | listed (s : Socket)
  /-- `SendLoop` at `STATE_ADDME_2LOOP`. -/
  | added (s : Socket)
  | hideUser (s : Socket) (hide : Bool)
  /-- `Close` up to the scripts. -/
  | closing (s : Socket)
  /-- The rest of `Close`. -/
  | closed (s : Socket)
  | removed (s : Socket)

section
variable (o : Online) (u : Sharer)

/-- The end of `UserParseMyInfo`. -/
def myInfo (newShare : UInt64) : Online :=
  if u.shareCounted then
    ((o.subShare u.sharedSize).put { u with sharedSize := newShare }).addShare newShare
  else o.put { u with sharedSize := newShare }

def listed : Online :=
  if u.state = .addMe1Loop then
    if !u.hidden then
      (o.addShare u.sharedSize).put { u with shareCounted := true, state := .addMe2Loop }
    else o.put { u with state := .addMe2Loop }
  else o

def added : Online :=
  if u.state = .addMe2Loop then
    (if !u.hidden then o.addLogged else o).put { u with state := .added }
  else o

/-- The share of a user is no longer counted. -/
def uncount : Online × Sharer :=
  if u.shareCounted then (o.subShare u.sharedSize, { u with shareCounted := false }) else (o, u)

def hideUser (hide : Bool) : Online :=
  if hide && !u.hidden then
    let u := { u with hidden := true }
    let (o, u) := if UserState.addMe2Loop.toNat ≤ u.state.toNat then o.uncount u else (o, u)
    (if UserState.addMe2Loop.toNat < u.state.toNat then o.subLogged else o).put u
  else if !hide && u.hidden then
    let o := if UserState.addMe2Loop.toNat < u.state.toNat then o.addLogged else o
    let (o, u) :=
      if UserState.addMe2Loop.toNat ≤ u.state.toNat && !u.shareCounted then
        (o.addShare u.sharedSize, { u with shareCounted := true })
      else (o, u)
    o.put { u with hidden := false }
  else o

def closing : Online :=
  if u.state.isPastLogin then o
  else
    let oldState := u.state
    let u := { u with state := .closing, closedFrom := some oldState }
    let (o, u) := if UserState.addMe2Loop.toNat ≤ oldState.toNat then o.uncount u else (o, u)
    o.put u

def closed : Online :=
  match u.closedFrom with
  | none => o
  | some oldState =>
    (if !u.hidden && UserState.addMe2Loop.toNat < oldState.toNat then o.subLogged else o).put
      { u with closedFrom := none }

def removed : Online :=
  if u.state.isPastLogin && u.closedFrom.isNone then
    { o with
      users := o.users.filter fun v => v.socket ≠ u.socket
      nodup := o.nodup.sublist (List.filter_sublist.map _) }
  else o

end

/-- A socket is given out when nobody has it. -/
def accept (o : Online) (s : Socket) : Online :=
  if free : s ∈ o.users.map Sharer.socket then o
  else
    { o with
      users := { socket := s } :: o.users
      nodup := List.nodup_cons.mpr ⟨free, o.nodup⟩ }

def Event.socket : Event → Socket
  | accepted s | login s _ | myInfo s _ | listed s | added s | hideUser s _ | closing s
  | closed s | removed s => s

/-- What an event does to the user it is about. -/
def act (o : Online) (u : Sharer) : Event → Online
  | .accepted _ => o
  | .login _ state =>
    if u.state.toNat < UserState.addMe2Loop.toNat ∧ state.toNat < UserState.addMe2Loop.toNat then
      o.put { u with state := state }
    else o
  | .myInfo _ newShare => o.myInfo u newShare
  | .listed _ => o.listed u
  | .added _ => o.added u
  | .hideUser _ hide => o.hideUser u hide
  | .closing _ => o.closing u
  | .closed _ => o.closed u
  | .removed _ => o.removed u

def exec (o : Online) (e : Event) : Online :=
  match e with
  | .accepted s => o.accept s
  | e =>
    match o.find e.socket with
    | none => o
    | some u => o.act u e

/-- The scripts hide and show only users that are not closed. -/
def Proper (o : Online) : Event → Prop
  | .hideUser s _ => (o.find s).all (fun u => !u.state.isPastLogin) = true
  | _ => True

instance (o : Online) (e : Event) : Decidable (o.Proper e) := by
  cases e <;> unfold Proper <;> infer_instance

def reach (es : List Event) : Online := run exec start es

end Online

namespace Sharer

/-- What the user adds to the total of shares. -/
def shareOf (u : Sharer) : Nat := if u.shareCounted then u.sharedSize.toNat else 0

/-- Whether the user is one of those logged in, or is still counted as one. -/
def loggedOf (u : Sharer) : Nat :=
  if !u.hidden && (u.state = .added || u.closedFrom = some .added) then 1 else 0

/-- What holds of each user. -/
structure Fine (u : Sharer) : Prop where
  counted : u.shareCounted = true → u.hidden = false ∧ (u.state = .addMe2Loop ∨ u.state = .added)
  closing : ∀ oldState, u.closedFrom = some oldState →
    u.state.isPastLogin = true ∧ oldState.isPastLogin = false

end Sharer

/-- The sum of `weight` over the users. -/
def weigh (weight : Sharer → Nat) (users : List Sharer) : Nat := (users.map weight).sum

section
variable {weight : Sharer → Nat} {users : List Sharer} {u u' : Sharer}

variable (weight) in
theorem weigh_put (nodup : (users.map Sharer.socket).Nodup) (mem : u ∈ users)
    (same : u'.socket = u.socket) :
    weigh weight (users.map fun v => if v.socket = u'.socket then u' else v) + weight u =
      weigh weight users + weight u' := by
  induction users with
  | nil => cases mem
  | cons v users ih =>
    obtain ⟨apart, nodup⟩ := List.nodup_cons.mp nodup
    simp only [weigh, List.map_cons, List.sum_cons] at ih ⊢
    rcases List.mem_cons.mp mem with rfl | mem
    · have others : (users.map fun v => if v.socket = u'.socket then u' else v) = users := by
        conv_rhs => rw [← List.map_id users]
        refine List.map_congr_left fun w mem => if_neg fun eq => apart ?_
        rw [← same, ← eq]
        exact List.mem_map_of_mem mem
      rw [others, if_pos same.symm]
      omega
    · have other : v.socket ≠ u'.socket := by
        rw [same]
        intro eq
        exact apart (eq ▸ List.mem_map_of_mem mem)
      rw [if_neg other]
      have rest := ih nodup mem
      omega

variable (weight) in
theorem weigh_remove (nodup : (users.map Sharer.socket).Nodup) (mem : u ∈ users) :
    weigh weight (users.filter fun v => v.socket ≠ u.socket) + weight u = weigh weight users := by
  induction users with
  | nil => cases mem
  | cons v users ih =>
    obtain ⟨apart, nodup⟩ := List.nodup_cons.mp nodup
    simp only [weigh, List.map_cons, List.sum_cons] at ih ⊢
    rcases List.mem_cons.mp mem with rfl | mem
    · have others : users.filter (fun v => v.socket ≠ u.socket) = users := by
        refine List.filter_eq_self.mpr fun w mem => ?_
        simp only [ne_eq, decide_eq_true_eq]
        intro eq
        exact apart (eq ▸ List.mem_map_of_mem mem)
      rw [List.filter_cons_of_neg (by simp), others]
      omega
    · have other : v.socket ≠ u.socket := by
        intro eq
        exact apart (eq ▸ List.mem_map_of_mem mem)
      rw [List.filter_cons_of_pos (by simpa using other), List.map_cons, List.sum_cons]
      have rest := ih nodup mem
      omega

theorem le_weigh (mem : u ∈ users) : weight u ≤ weigh weight users :=
  List.single_le_sum (fun _ _ => Nat.zero_le _) _ (List.mem_map_of_mem mem)

end

namespace Online

/-- One user is changed, and the totals with it. -/
structure Effect (o o' : Online) (u u' : Sharer) : Prop where
  users : o'.users = (o.put u').users
  socket : u'.socket = u.socket
  fine : u'.Fine
  total : (o'.totalShare.toNat + u.shareOf) % 18446744073709551616 =
    (o.totalShare.toNat + u'.shareOf) % 18446744073709551616
  logged : (o'.logged.toNat + u.loggedOf) % 4294967296 =
    (o.logged.toNat + u'.loggedOf) % 4294967296
  wrapped : o'.wrapped = true →
    o.wrapped = true ∨ o.totalShare.toNat < u.shareOf ∨ o.logged.toNat < u.loggedOf

section
variable {o : Online} {u : Sharer}

theorem put_self (mem : u ∈ o.users) : (o.put u).users = o.users := by
  conv_rhs => rw [← List.map_id o.users]
  refine List.map_congr_left fun v mem' => ?_
  split
  · rename_i same
    exact (List.inj_on_of_nodup_map o.nodup mem' mem same).symm
  · rfl

theorem Effect.refl (mem : u ∈ o.users) (fine : u.Fine) : Effect o o u u :=
  ⟨(put_self mem).symm, rfl, fine, rfl, rfl, .inl⟩

theorem myInfo_effect (fine : u.Fine) (newShare : UInt64) :
    Effect o (o.myInfo u newShare) u { u with sharedSize := newShare } := by
  have small := u.sharedSize.toNat_lt
  unfold myInfo
  split
  · rename_i counted
    refine ⟨rfl, rfl, ⟨fine.counted, fine.closing⟩, ?_, rfl, ?_⟩
    · simp only [Sharer.shareOf, counted, addShare, subShare, put, UInt64.toNat_add,
        UInt64.toNat_sub, if_true]
      omega
    · simp only [Sharer.shareOf, counted, addShare, subShare, put, UInt64.lt_iff_toNat_lt,
        Bool.or_eq_true, decide_eq_true_eq, if_true]
      exact fun wrapped => wrapped.imp id .inl
  · rename_i counted
    refine ⟨rfl, rfl, ⟨fine.counted, fine.closing⟩, ?_, rfl, .inl⟩
    simp [Sharer.shareOf, counted, put]

theorem listed_or_added {s : UserState} (live : s.isPastLogin = false) :
    (UserState.addMe2Loop.toNat ≤ s.toNat ↔ s = .addMe2Loop ∨ s = .added) ∧
      (UserState.addMe2Loop.toNat < s.toNat ↔ s = .added) := by
  cases s <;> first | decide | cases live

/-- A user that is not closed is not in the middle of `Close`. -/
theorem closedFrom_none (fine : u.Fine) (live : u.state.isPastLogin = false) :
    u.closedFrom = none := by
  cases from_ : u.closedFrom with
  | none => rfl
  | some oldState =>
    rw [(fine.closing oldState from_).1] at live
    cases live

/-- A user that is not listed is in neither total. -/
theorem early_weights (fine : u.Fine) (live : u.state.isPastLogin = false)
    (early : ¬ (u.state = .addMe2Loop ∨ u.state = .added)) :
    u.shareCounted = false ∧ u.shareOf = 0 ∧ u.loggedOf = 0 := by
  have uncounted : u.shareCounted = false := by
    cases counted : u.shareCounted with
    | false => rfl
    | true => exact absurd (fine.counted counted).2 early
  refine ⟨uncounted, by simp [Sharer.shareOf, uncounted], ?_⟩
  rw [not_or] at early
  simp [Sharer.loggedOf, early.2, closedFrom_none fine live]

/-- A user is taken from those logged in. -/
theorem subLogged_if (o : Online) (b : Prop) [Decidable b] :
    (if b then o.subLogged else o).users = o.users ∧
      (if b then o.subLogged else o).totalShare = o.totalShare ∧
      ((if b then o.subLogged else o).logged.toNat + if b then 1 else 0) % 4294967296 =
        o.logged.toNat ∧
      ((if b then o.subLogged else o).wrapped = true →
        o.wrapped = true ∨ o.logged.toNat < if b then 1 else 0) := by
  have small := o.logged.toNat_lt
  split
  · refine ⟨rfl, rfl, ?_, ?_⟩
    · simp only [subLogged, UInt32.toNat_sub, UInt32.reduceToNat]
      omega
    · simp [subLogged, UInt32.lt_iff_toNat_lt]
  · exact ⟨rfl, rfl, by omega, .inl⟩

theorem addLogged_if (o : Online) (b : Prop) [Decidable b] :
    (if b then o.addLogged else o).users = o.users ∧
      (if b then o.addLogged else o).totalShare = o.totalShare ∧
      (if b then o.addLogged else o).logged.toNat =
        (o.logged.toNat + if b then 1 else 0) % 4294967296 ∧
      (if b then o.addLogged else o).wrapped = o.wrapped := by
  have small := o.logged.toNat_lt
  split
  · exact ⟨rfl, rfl, by simp [addLogged, UInt32.toNat_add], rfl⟩
  · exact ⟨rfl, rfl, by omega, rfl⟩

theorem loggedOf_live (fine : u.Fine) (live : u.state.isPastLogin = false) :
    u.loggedOf = if u.hidden = false ∧ u.state = .added then 1 else 0 := by
  simp [Sharer.loggedOf, closedFrom_none fine live]

theorem login_effect (fine : u.Fine) {state : UserState}
    (early : u.state.toNat < UserState.addMe2Loop.toNat)
    (early' : state.toNat < UserState.addMe2Loop.toNat) :
    Effect o (o.put { u with state := state }) u { u with state := state } := by
  have live {s : UserState} (early : s.toNat < UserState.addMe2Loop.toNat) :
      s.isPastLogin = false ∧ s ≠ .addMe2Loop ∧ s ≠ .added := by
    cases s <;> revert early <;> decide
  obtain ⟨live', notListed, notAdded⟩ := live early
  obtain ⟨uncounted, -, -⟩ := early_weights fine live' (by simp [notListed, notAdded])
  have none_ := closedFrom_none fine live'
  refine ⟨rfl, rfl, ⟨fun counted => ?_, fun old from_ => ?_⟩, rfl, ?_, .inl⟩
  · rw [uncounted] at counted
    cases counted
  · rw [none_] at from_
    cases from_
  · simp [Sharer.loggedOf, none_, notAdded, (live early').2.2, put]

theorem listed_effect (mem : u ∈ o.users) (fine : u.Fine) : ∃ u', Effect o (o.listed u) u u' := by
  unfold listed
  split
  · rename_i at_
    have live : u.state.isPastLogin = false := by rw [at_]; rfl
    obtain ⟨uncounted, noShare, noLogin⟩ := early_weights fine live (by simp [at_])
    have none_ := closedFrom_none fine live
    have closing {v : Sharer} (same : v.closedFrom = u.closedFrom) :
        ∀ old, v.closedFrom = some old → v.state.isPastLogin = true ∧ old.isPastLogin = false := by
      intro old from_
      rw [same, none_] at from_
      cases from_
    split
    · rename_i shown
      have shown : u.hidden = false := by simpa using shown
      refine ⟨{ u with shareCounted := true, state := .addMe2Loop },
        rfl, rfl, ⟨fun _ => ⟨shown, .inl rfl⟩, closing rfl⟩, ?_, ?_, .inl⟩
      · rw [noShare]
        simp only [addShare, put, Sharer.shareOf, UInt64.toNat_add, if_true]
        omega
      · rw [noLogin]
        simp [Sharer.loggedOf, none_, put, addShare]
    · refine ⟨{ u with state := .addMe2Loop }, rfl, rfl, ⟨fun counted => ?_, closing rfl⟩, ?_, ?_,
        .inl⟩
      · rw [uncounted] at counted
        cases counted
      · simp [Sharer.shareOf, put]
      · rw [noLogin]
        simp [Sharer.loggedOf, none_, put]
  · exact ⟨u, .refl mem fine⟩

theorem added_effect (mem : u ∈ o.users) (fine : u.Fine) : ∃ u', Effect o (o.added u) u u' := by
  unfold added
  split
  · rename_i at_
    have live : u.state.isPastLogin = false := by rw [at_]; rfl
    have fine' : Sharer.Fine { u with state := .added } :=
      ⟨fun counted => ⟨(fine.counted counted).1, .inr rfl⟩, fun old from_ => by
        rw [closedFrom_none fine live] at from_
        cases from_⟩
    have after := loggedOf_live fine' rfl
    obtain ⟨users, total, logged, wrapped⟩ := addLogged_if o (u.hidden = false)
    have test : ((!u.hidden) = true) = (u.hidden = false) := by simp
    refine ⟨{ u with state := .added }, ?_, rfl, fine', ?_, ?_, ?_⟩ <;>
      simp only [test, put, users, total, logged, wrapped]
    · rfl
    · rw [after, loggedOf_live fine live]
      simp [at_]
    · exact .inl
  · exact ⟨u, .refl mem fine⟩

/-- The share of a user is taken out of the total if it is there. -/
theorem uncount_total (o : Online) (u : Sharer) :
    (o.uncount u).2 = { u with shareCounted := false } ∧
      (o.uncount u).1.users = o.users ∧ (o.uncount u).1.logged = o.logged ∧
      ((o.uncount u).1.totalShare.toNat + u.shareOf) % 18446744073709551616 =
        o.totalShare.toNat ∧
      ((o.uncount u).1.wrapped = true → o.wrapped = true ∨ o.totalShare.toNat < u.shareOf) := by
  have small := u.sharedSize.toNat_lt
  have small' := o.totalShare.toNat_lt
  unfold uncount
  cases counted : u.shareCounted with
  | true =>
    refine ⟨by simp, rfl, rfl, ?_, ?_⟩
    · simp only [subShare, Sharer.shareOf, counted, UInt64.toNat_sub, if_true]
      omega
    · simp only [subShare, Sharer.shareOf, counted, if_true, UInt64.lt_iff_toNat_lt,
        Bool.or_eq_true, decide_eq_true_eq]
      exact id
  | false =>
    refine ⟨by cases u; simp_all, rfl, rfl, ?_, .inl⟩
    simp [Sharer.shareOf, counted]

/-- Only a listed user has its share counted. -/
theorem uncount_listed (fine : u.Fine) {s : UserState} (early : ¬ UserState.addMe2Loop.toNat ≤ s.toNat)
    (at_ : u.state = s) {v : Sharer} (same : v.shareCounted = u.shareCounted) :
    o.uncount v = (o, v) := by
  cases counted : u.shareCounted with
  | true =>
    obtain ⟨-, listed⟩ := fine.counted counted
    rw [at_] at listed
    rcases listed with rfl | rfl <;> exact absurd (by decide) early
  | false =>
    rw [uncount, same, counted]
    rfl

theorem hide_effect (fine : u.Fine) (live : u.state.isPastLogin = false) (shown : u.hidden = false) :
    Effect o (o.hideUser u true) u { u with hidden := true, shareCounted := false } := by
  obtain ⟨-, logged⟩ := listed_or_added live
  have none_ := closedFrom_none fine live
  obtain ⟨user, users, sameLogged, total, wrapped⟩ := uncount_total o { u with hidden := true }
  have eq : o.hideUser u true =
      (if u.state = .added then (o.uncount { u with hidden := true }).1.subLogged
        else (o.uncount { u with hidden := true }).1).put
          { u with hidden := true, shareCounted := false } := by
    have pair : (if UserState.addMe2Loop.toNat ≤ u.state.toNat then
        o.uncount { u with hidden := true } else (o, { u with hidden := true })) =
        o.uncount { u with hidden := true } := by
      split
      · rfl
      · rename_i early
        exact (uncount_listed (v := { u with hidden := true }) fine early rfl rfl).symm
    unfold hideUser
    dsimp only
    rw [if_pos (by simp [shown]), pair, user]
    simp only [logged]
  obtain ⟨users', sameTotal, logged', wrapped'⟩ :=
    subLogged_if (o.uncount { u with hidden := true }).1 (u.state = .added)
  rw [eq]
  refine ⟨?_, rfl, ⟨fun counted => (nomatch counted), fine.closing⟩, ?_, ?_, fun went => ?_⟩
  · simp only [put, users', users]
  · simpa [put, sameTotal, Sharer.shareOf] using total
  · have small := o.logged.toNat_lt
    rw [loggedOf_live fine live]
    simp only [put, shown, true_and, logged', sameLogged]
    simp [Sharer.loggedOf]
  · rw [loggedOf_live fine live]
    simp only [shown, true_and]
    rcases wrapped' went with went | below
    · exact (wrapped went).imp_right .inl
    · rw [sameLogged] at below
      exact .inr (.inr below)

theorem show_effect (fine : u.Fine) (live : u.state.isPastLogin = false) (hidden : u.hidden = true) :
    ∃ u', Effect o (o.hideUser u false) u u' := by
  obtain ⟨listed, logged⟩ := listed_or_added live
  have uncounted : u.shareCounted = false := by
    cases counted : u.shareCounted with
    | false => rfl
    | true =>
      rw [(fine.counted counted).1] at hidden
      cases hidden
  obtain ⟨users, sameTotal, logged', wrapped⟩ := addLogged_if o (u.state = .added)
  have noShare : u.shareOf = 0 := by simp [Sharer.shareOf, uncounted]
  have noLogin : u.loggedOf = 0 := by simp [loggedOf_live fine live, hidden]
  unfold hideUser
  dsimp only
  rw [if_neg (by simp), if_pos (by simp [hidden])]
  simp only [listed, logged, uncounted, Bool.not_false, Bool.and_true, decide_eq_true_eq]
  split
  · rename_i at_
    have fine' : Sharer.Fine { u with shareCounted := true, hidden := false } :=
      ⟨fun _ => ⟨rfl, at_⟩, fine.closing⟩
    have after := loggedOf_live fine' live
    refine ⟨{ u with shareCounted := true, hidden := false }, ?_, rfl, fine', ?_, ?_, ?_⟩
    · simp only [addShare, put, users]
    · rw [noShare]
      simp only [addShare, put, sameTotal, UInt64.toNat_add, Sharer.shareOf, if_true]
      omega
    · rw [after, noLogin]
      simp only [addShare, put, logged', true_and]
      omega
    · simp only [addShare, put, wrapped]
      exact .inl
  · rename_i early
    have fine' : Sharer.Fine { u with hidden := false } :=
      ⟨fun counted => absurd (uncounted.symm.trans counted) (by simp), fine.closing⟩
    have after := loggedOf_live fine' live
    refine ⟨{ u with hidden := false }, ?_, rfl, fine', ?_, ?_, ?_⟩
    · simp only [put, users]
    · simp only [put, sameTotal, Sharer.shareOf]
    · rw [after, noLogin]
      simp only [put, logged', true_and]
      omega
    · simp only [put, wrapped]
      exact .inl

theorem hideUser_effect (mem : u ∈ o.users) (fine : u.Fine) (live : u.state.isPastLogin = false)
    (hide : Bool) : ∃ u', Effect o (o.hideUser u hide) u u' := by
  cases hide with
  | true =>
    cases hidden : u.hidden with
    | false => exact ⟨_, hide_effect fine live hidden⟩
    | true =>
      have same : o.hideUser u true = o := by simp [hideUser, hidden]
      rw [same]
      exact ⟨u, .refl mem fine⟩
  | false =>
    cases hidden : u.hidden with
    | true => exact show_effect fine live hidden
    | false =>
      have same : o.hideUser u false = o := by simp [hideUser, hidden]
      rw [same]
      exact ⟨u, .refl mem fine⟩

theorem closing_effect (mem : u ∈ o.users) (fine : u.Fine) :
    ∃ u', Effect o (o.closing u) u u' := by
  unfold closing
  split
  · exact ⟨u, .refl mem fine⟩
  · rename_i live
    have live : u.state.isPastLogin = false := by simpa using live
    let v : Sharer := { u with state := .closing, closedFrom := some u.state }
    obtain ⟨user, users, sameLogged, total, wrapped⟩ := uncount_total o v
    have pair : (if UserState.addMe2Loop.toNat ≤ u.state.toNat then o.uncount v else (o, v)) =
        o.uncount v := by
      split
      · rfl
      · rename_i early
        exact (uncount_listed (v := v) fine early rfl rfl).symm
    dsimp only
    refine ⟨{ v with shareCounted := false }, ?_, rfl, ⟨fun counted => (nomatch counted), ?_⟩,
      ?_, ?_, ?_⟩
    · rw [pair, user]
      simp only [put, users]
    · rintro old ⟨⟩
      exact ⟨rfl, live⟩
    · rw [pair]
      have share : v.shareOf = u.shareOf := rfl
      rw [share] at total
      simpa [put, Sharer.shareOf] using total
    · rw [pair, loggedOf_live fine live]
      have after : Sharer.loggedOf { v with shareCounted := false } =
          if u.hidden = false ∧ u.state = .added then 1 else 0 := by
        simp [Sharer.loggedOf, v]
      rw [after]
      simp only [put, sameLogged]
    · rw [pair]
      exact fun went => (wrapped went).imp_right .inl

theorem closed_effect (mem : u ∈ o.users) (fine : u.Fine) : ∃ u', Effect o (o.closed u) u u' := by
  unfold closed
  split
  · exact ⟨u, .refl mem fine⟩
  · rename_i old from_
    obtain ⟨past, live⟩ := fine.closing old from_
    have notAdded : u.state ≠ .added := by
      intro at_
      rw [at_] at past
      cases past
    obtain ⟨-, logged⟩ := listed_or_added live
    have before : u.loggedOf = if u.hidden = false ∧ old = .added then 1 else 0 := by
      simp [Sharer.loggedOf, from_, notAdded]
    have test : ((!u.hidden && decide (UserState.addMe2Loop.toNat < old.toNat)) = true) =
        (u.hidden = false ∧ old = .added) := by
      simp [logged]
    obtain ⟨users, sameTotal, logged', wrapped⟩ := subLogged_if o (u.hidden = false ∧ old = .added)
    have small := o.logged.toNat_lt
    refine ⟨{ u with closedFrom := none }, ?_, rfl, ⟨fine.counted, fun old from_ => (nomatch from_)⟩,
      ?_, ?_, ?_⟩ <;> simp only [test]
    · simp only [put, users]
    · simp only [put, sameTotal, Sharer.shareOf]
    · have after : Sharer.loggedOf { u with closedFrom := none } = 0 := by
        simp [Sharer.loggedOf, notAdded]
      rw [after, before]
      simp only [put, logged']
      omega
    · rw [before]
      exact fun went => (wrapped went).imp_right .inr

end

/-- The shares that are counted. -/
def shares (o : Online) : Nat := weigh Sharer.shareOf o.users

/-- Every user is as it should be, and the totals are right but for their width. -/
structure Inv (o : Online) : Prop where
  fine : ∀ u ∈ o.users, u.Fine
  total : o.totalShare.toNat = o.shares % 18446744073709551616
  logged : o.logged.toNat = weigh Sharer.loggedOf o.users

section
variable {o o' : Online} {u u' : Sharer} {e : Event}

theorem find_mem {s : Socket} (found : o.find s = some u) : u ∈ o.users ∧ u.socket = s :=
  ⟨List.mem_of_find?_eq_some found, by simpa using List.find?_some found⟩

/-- There are no more users than sockets. -/
theorem loggedOf_le (o : Online) : weigh Sharer.loggedOf o.users < 4294967296 := by
  have few : o.users.length ≤ 2147483648 := by
    have le := o.nodup.length_le_card
    rwa [List.length_map, Fintype.card_fin] at le
  have one (us : List Sharer) : weigh Sharer.loggedOf us ≤ us.length := by
    induction us with
    | nil => exact Nat.le_refl _
    | cons u us ih =>
      simp only [weigh, List.map_cons, List.sum_cons, List.length_cons] at ih ⊢
      have small : u.loggedOf ≤ 1 := by
        unfold Sharer.loggedOf
        split <;> omega
      omega
  have all := one o.users
  omega

theorem Effect.inv (effect : Effect o o' u u') (h : Inv o) (mem : u ∈ o.users) : Inv o' := by
  have total := effect.total
  have logged := effect.logged
  have share := weigh_put Sharer.shareOf o.nodup mem effect.socket
  have login := weigh_put Sharer.loggedOf o.nodup mem effect.socket
  have users : o'.users = o.users.map fun v => if v.socket = u'.socket then u' else v :=
    effect.users
  have few := loggedOf_le o'
  have small := o'.logged.toNat_lt
  have small' := o'.totalShare.toNat_lt
  have before := h.total
  have before' := h.logged
  refine ⟨fun v live => ?_, ?_, ?_⟩
  · rw [users] at live
    obtain ⟨w, mem', rfl⟩ := List.mem_map.mp live
    split
    · exact effect.fine
    · exact h.fine w mem'
  · rw [shares, users]
    rw [shares] at before
    omega
  · rw [users] at few ⊢
    omega

/-- A total goes below zero only if the shares do not fit it. -/
theorem Effect.wrapped_of (effect : Effect o o' u u') (h : Inv o) (mem : u ∈ o.users)
    (fits : o.shares < 18446744073709551616) (right : o.wrapped = false) : o'.wrapped = false := by
  have total := h.total
  have logged := h.logged
  have share : u.shareOf ≤ o.shares := le_weigh mem
  have login : u.loggedOf ≤ weigh Sharer.loggedOf o.users := le_weigh mem
  cases went : o'.wrapped with
  | false => rfl
  | true =>
    rcases effect.wrapped went with before | below | below
    · rw [right] at before
      cases before
    · omega
    · omega

theorem act_effect (h : Inv o) (mem : u ∈ o.users) (at_ : o.find e.socket = some u)
    (proper : o.Proper e) (stays : ∀ s, e ≠ .removed s) : ∃ u', Effect o (o.act u e) u u' := by
  have fine := h.fine u mem
  cases e with
  | accepted s => exact ⟨u, .refl mem fine⟩
  | login s state =>
    rw [act]
    split
    · rename_i early
      exact ⟨_, login_effect fine early.1 early.2⟩
    · exact ⟨u, .refl mem fine⟩
  | myInfo s newShare => exact ⟨_, myInfo_effect fine newShare⟩
  | listed s => exact listed_effect mem fine
  | added s => exact added_effect mem fine
  | hideUser s hide =>
    have live : u.state.isPastLogin = false := by
      rw [Proper, show o.find s = some u from at_] at proper
      simpa using proper
    exact hideUser_effect mem fine live hide
  | closing s => exact closing_effect mem fine
  | closed s => exact closed_effect mem fine
  | removed s => exact absurd rfl (stays s)

/-- A user that is removed is in neither total. -/
theorem removed_inv (h : Inv o) (mem : u ∈ o.users) :
    Inv (o.removed u) ∧ (o.removed u).wrapped = o.wrapped := by
  unfold removed
  split
  · rename_i gone
    simp only [Bool.and_eq_true, Option.isNone_iff_eq_none] at gone
    have fine := h.fine u mem
    have notListed : ¬ (u.state = .addMe2Loop ∨ u.state = .added) := by
      rintro (at_ | at_) <;> rw [at_] at gone <;> exact absurd gone.1 (by decide)
    have noShare : u.shareOf = 0 := by
      unfold Sharer.shareOf
      split
      · rename_i counted
        exact absurd (fine.counted counted).2 notListed
      · rfl
    have noLogin : u.loggedOf = 0 := by
      rw [not_or] at notListed
      simp [Sharer.loggedOf, notListed.2, gone.2]
    have share := weigh_remove Sharer.shareOf o.nodup mem
    have login := weigh_remove Sharer.loggedOf o.nodup mem
    rw [noShare, Nat.add_zero] at share
    rw [noLogin, Nat.add_zero] at login
    refine ⟨⟨fun v live => h.fine v (List.mem_of_mem_filter live), ?_, ?_⟩, rfl⟩
    · rw [shares, share]
      exact h.total
    · rw [login]
      exact h.logged
  · exact ⟨h, rfl⟩

theorem accept_inv (h : Inv o) (s : Socket) :
    Inv (o.accept s) ∧ (o.accept s).wrapped = o.wrapped := by
  unfold accept
  split
  · exact ⟨h, rfl⟩
  · refine ⟨⟨fun v live => ?_, ?_, ?_⟩, rfl⟩
    · rcases List.mem_cons.mp live with rfl | live
      · exact ⟨fun counted => (nomatch counted), fun old from_ => (nomatch from_)⟩
      · exact h.fine v live
    · rw [h.total]
      simp [shares, weigh, Sharer.shareOf]
    · rw [h.logged]
      simp [weigh, Sharer.loggedOf]

/-- What one event keeps. -/
theorem exec_inv (h : Inv o) (proper : o.Proper e) :
    Inv (o.exec e) ∧
      (o.shares < 18446744073709551616 → o.wrapped = false → (o.exec e).wrapped = false) := by
  have user {e : Event} (proper : o.Proper e) (stays : ∀ s, e ≠ .removed s) {u : Sharer}
      (found : o.find e.socket = some u) : Inv (o.act u e) ∧
        (o.shares < 18446744073709551616 → o.wrapped = false → (o.act u e).wrapped = false) := by
    obtain ⟨mem, -⟩ := find_mem found
    obtain ⟨u', effect⟩ := act_effect h mem found proper stays
    exact ⟨effect.inv h mem, effect.wrapped_of h mem⟩
  cases e with
  | accepted s =>
    obtain ⟨inv, wrapped⟩ := accept_inv h s
    exact ⟨inv, fun _ right => wrapped.trans right⟩
  | removed s =>
    simp only [exec]
    split
    · exact ⟨h, fun _ right => right⟩
    · rename_i u found
      obtain ⟨inv, wrapped⟩ := removed_inv h (find_mem found).1
      exact ⟨inv, fun _ right => wrapped.trans right⟩
  | login s state | myInfo s newShare | listed s | added s | hideUser s hide | closing s | closed s =>
    simp only [exec]
    split
    · exact ⟨h, fun _ right => right⟩
    · rename_i u found
      exact user proper (by simp) found

end

/-- The sum of the shares that are counted. -/
def sharesCounted (o : Online) : Nat :=
  ((o.users.filter Sharer.shareCounted).map fun u => u.sharedSize.toNat).sum

/-- The users that are logged in and not hidden. -/
def loggedIn (o : Online) : Nat := o.users.countP fun u => u.state = .added && !u.hidden

/-- No call of `Close` is going on. -/
def Settled (o : Online) : Prop := ∀ u ∈ o.users, u.closedFrom = none

/-- Nobody is listed or logged in. -/
def Nobody (o : Online) : Prop := ∀ u ∈ o.users, u.state ≠ .addMe2Loop ∧ u.state ≠ .added

/-- The totals say what they should. -/
structure Exact (o : Online) : Prop where
  total : o.totalShare.toNat = o.sharesCounted
  logged : o.Settled → o.logged.toNat = o.loggedIn
  wrapped : o.wrapped = false
  nobody : o.Settled → o.Nobody → o.totalShare = 0 ∧ o.logged = 0

section
variable {o : Online}

theorem shares_eq (o : Online) : o.shares = o.sharesCounted := by
  unfold shares sharesCounted weigh
  induction o.users with
  | nil => rfl
  | cons u users ih =>
    rw [List.map_cons, List.sum_cons, ih]
    cases counted : u.shareCounted with
    | true => simp [Sharer.shareOf, counted]
    | false => simp [Sharer.shareOf, counted]

theorem loggedOf_settled (settled : o.Settled) :
    weigh Sharer.loggedOf o.users = o.loggedIn := by
  unfold Settled at settled
  unfold weigh loggedIn
  generalize o.users = users at settled ⊢
  induction users with
  | nil => rfl
  | cons u users ih =>
    have none_ := settled u (by simp)
    rw [List.map_cons, List.sum_cons, ih fun v mem => settled v (List.mem_cons_of_mem _ mem),
      List.countP_cons, Nat.add_comm]
    congr 1
    simp [Sharer.loggedOf, none_, and_comm]

theorem exact_of_inv (h : Inv o) (fits : o.sharesCounted < 18446744073709551616)
    (right : o.wrapped = false) : o.Exact := by
  have total : o.totalShare.toNat = o.sharesCounted := by
    rw [h.total, shares_eq, Nat.mod_eq_of_lt fits]
  have logged (settled : o.Settled) : o.logged.toNat = o.loggedIn := by
    rw [h.logged, loggedOf_settled settled]
  refine ⟨total, logged, right, fun settled nobody => ⟨?_, ?_⟩⟩
  · have none_ : o.users.filter Sharer.shareCounted = [] := by
      rw [List.filter_eq_nil_iff]
      intro u mem counted
      obtain ⟨-, listed⟩ := (h.fine u mem).counted counted
      exact listed.elim (nobody u mem).1 (nobody u mem).2
    rw [← UInt64.toNat_inj, total, sharesCounted, none_]
    rfl
  · have none_ : o.loggedIn = 0 := by
      rw [loggedIn, List.countP_eq_zero]
      intro u mem
      simp [(nobody u mem).2]
    rw [← UInt32.toNat_inj, logged settled, none_]
    rfl

theorem inv_start : Inv start := ⟨by simp [start], rfl, rfl⟩

theorem inv_reach {es : List Event} (proper : Allowed exec Proper start es) : Inv (reach es) :=
  allowed_invariant Inv (fun _ _ h proper => (exec_inv h proper).1) inv_start proper

theorem right_reach {es : List Event} (proper : Allowed exec Proper start es)
    (fits : ∀ pre, pre <+: es → (reach pre).sharesCounted < 18446744073709551616) :
    (reach es).wrapped = false := by
  induction es using List.reverseRecOn with
  | nil => rfl
  | append_singleton es e ih =>
    obtain ⟨proper, last⟩ := allowed_append.mp proper
    have before := ih proper fun pre hpre => fits pre (hpre.trans (List.prefix_append _ _))
    have shares : (reach es).shares < 18446744073709551616 := by
      rw [shares_eq]
      exact fits es (List.prefix_append _ _)
    rw [reach, run_concat]
    exact (exec_inv (inv_reach proper) last.1).2 shares before

end

/-- The totals are exact all along a run exactly if the counted shares fit 64 bits all
along it. -/
theorem totals_exact_iff (es : List Event) (proper : Allowed exec Proper start es) :
    (∀ pre, pre <+: es → (reach pre).Exact) ↔
      ∀ pre, pre <+: es → (reach pre).sharesCounted < 18446744073709551616 := by
  constructor
  · intro exact_ pre hpre
    rw [← (exact_ pre hpre).total]
    exact UInt64.toNat_lt _
  · intro fits pre hpre
    obtain ⟨rest, rfl⟩ := hpre
    have proper' := (allowed_append.mp proper).1
    exact exact_of_inv (inv_reach proper') (fits pre (List.prefix_append _ _))
      (right_reach proper' fun pre' hpre' => fits pre' (hpre'.trans (List.prefix_append _ _)))

/-- A user logs in with this share. -/
def comes (s : Socket) (share : UInt64) : List Event :=
  [.accepted s, .myInfo s share, .login s .addMe1Loop, .listed s, .added s]

/-- A user comes, is hidden and goes. -/
theorem visit_exact : Allowed exec Proper start (comes 0 5 ++ [.hideUser 0 true, .closing 0]) ∧
    ((∀ pre, pre <+: comes 0 5 ++ [.hideUser 0 true, .closing 0] → (reach pre).Exact) ↔
      ∀ pre, pre <+: comes 0 5 ++ [.hideUser 0 true, .closing 0] →
        (reach pre).sharesCounted < 18446744073709551616) :=
  ⟨by decide +kernel, totals_exact_iff _ (by decide +kernel)⟩

/-- Two users of half the range each seem to share nothing. -/
theorem shares_go_round : ¬ ∀ es : List Event, Allowed exec Proper start es → (reach es).Exact := by
  intro all
  have total := (all (comes 0 9223372036854775808 ++ comes 1 9223372036854775808)
    (by decide +kernel)).total
  exact absurd total (by decide +kernel)

end Online

end FlyHub.Session
