import FlyHub.Lib.Run
import FlyHub.Session.HashManager

/-!
# The users that scripts get hold of

A script keeps the tables of users that it was given in earlier calls. When it comes with one,
`ScriptGetUser` looks the user up by its nick, unless the pointer in the table is that of
`m_pActualUser`, the user the script is called for. Which scripts are called, and what they do, is
left open here. The address of a user may be that of a later one.
-/

namespace FlyHub.Scripts

open FlyHub.Lib FlyHub.Ban FlyHub.Session

/-- A user of `m_UserList`, as far as scripts can find it. `hashed` is BIT_HASHED. -/
structure ListedUser where
  sNick : Text
  ipHash : IpHash
  hashed : Bool
  pastLogin : Bool

/-- What a script knows of a user. -/
structure UserTable where
  pLua : Nat
  uptr : UserId
  sNick : Text
  deriving DecidableEq

/-- A loop over the scripts because of a user, or a call into a Lua state. -/
inductive UserFrame
  | dispatch (pUser : UserId)
  | call (pLua : Nat) (handler : Bool)
  deriving DecidableEq

/-- The users, the index of them, and what the script manager knows of them. `tables` are those
that scripts were given. -/
structure UserHub where
  userList : List UserId
  users : UserId → ListedUser
  hashManager : HashManager
  actualUser : Option UserId
  tables : List UserTable
  stack : List UserFrame

inductive UserEvent
  /-- `Arrival`, `UserConnected` or `UserDisconnected` begins. -/
  | dispatch (pUser : UserId)
  /-- Such a loop calls a script, or is through. -/
  | handler (pLua : Nat)
  | through
  /-- `ScriptOnTimer`. -/
  | timer (pLua : Nat)
  /-- `ScriptOnStartup`, `ScriptOnExit`, or the file of a script. -/
  | plain (pLua : Nat)
  /-- `ScriptOnError`, when the script has an `OnError`. -/
  | onError
  /-- The last call returns. -/
  | ret (success : Bool)
  /-- `Start`, `Stop`, `OnStartup` and `OnExit` of the script manager. -/
  | manager
  | addUser (pUser : UserId) (ipHash : IpHash)
  | setNick (pUser : UserId) (sNick : Text)
  | hashAdd (pUser : UserId)
  | close (pUser : UserId)
  | remUser (pUser : UserId)

namespace UserHub

variable (x : UserHub)

def modify (pUser : UserId) (f : ListedUser → ListedUser) : UserHub :=
  { x with users := Function.update x.users pUser (f (x.users pUser)) }

/-- `ScriptPushUser`. -/
def scriptPushUser (pLua : Nat) (pUser : UserId) : UserHub :=
  { x with tables := x.tables ++ [⟨pLua, pUser, (x.users pUser).sNick⟩] }

/-- `ScriptGetUser`. -/
def scriptGetUser (t : UserTable) : Option UserId :=
  if some t.uptr = x.actualUser then some t.uptr
  else if x.hashManager.findUser t.sNick = some t.uptr then some t.uptr
  else none

/-- `Close`, as far as the index. -/
def close (pUser : UserId) : UserHub :=
  let u := x.users pUser
  if u.pastLogin then x
  else
    let x := x.modify pUser fun u => { u with pastLogin := true }
    if u.hashed then { x with hashManager := x.hashManager.remove pUser u.sNick u.ipHash } else x

/-- The service loop removes users in between the calls of scripts. -/
def step : UserEvent → UserHub
  | .dispatch pUser =>
    if pUser ∈ x.userList then { x with stack := .dispatch pUser :: x.stack } else x
  | .handler pLua =>
    match x.stack with
    | .dispatch pUser :: _ =>
      { x with
        actualUser := some pUser
        stack := .call pLua true :: x.stack }.scriptPushUser pLua pUser
    | _ => x
  | .through =>
    match x.stack with
    | .dispatch _ :: below => { x with stack := below }
    | _ => x
  | .timer pLua =>
    if x.stack = [] then { x with actualUser := none, stack := [.call pLua false] } else x
  | .plain pLua => { x with stack := .call pLua false :: x.stack }
  | .onError =>
    match x.stack with
    | .call _ _ :: _ => { x with actualUser := none }
    | _ => x
  | .ret success =>
    match x.stack with
    | .call _ handler :: below =>
      { x with
        actualUser := if handler && success then none else x.actualUser
        stack := below }
    | _ => x
  | .manager => { x with actualUser := none }
  | .addUser pUser ipHash =>
    if pUser ∈ x.userList then x
    else
      { x with
        userList := x.userList ++ [pUser]
        users := Function.update x.users pUser ⟨[], ipHash, false, false⟩ }
  | .setNick pUser sNick =>
    if pUser ∈ x.userList then x.modify pUser fun u => { u with sNick := sNick } else x
  | .hashAdd pUser =>
    if pUser ∈ x.userList then
      let u := x.users pUser
      { x.modify pUser fun u => { u with hashed := true } with
        hashManager := x.hashManager.add pUser u.sNick u.ipHash }
    else x
  | .close pUser => if pUser ∈ x.userList then x.close pUser else x
  | .remUser pUser =>
    if x.stack = [] ∧ (x.users pUser).pastLogin then
      { x with userList := x.userList.erase pUser }
    else x

/-- A hub that starts. -/
def start : UserHub where
  userList := []
  users _ := ⟨[], 0, false, false⟩
  hashManager := .empty
  actualUser := none
  tables := []
  stack := []

/-- The script that runs gets no user that is not in the list. -/
def NoDeadUser : Prop :=
  ∀ pLua handler below, x.stack = .call pLua handler :: below →
    ∀ t ∈ x.tables, t.pLua = pLua → ∀ pUser, x.scriptGetUser t = some pUser → pUser ∈ x.userList

/-- No user is removed while it is `m_pActualUser`, and a user that is in the index keeps its
nick and isn't put there again when it is closed. -/
def Careful : UserEvent → Prop
  | .setNick pUser sNick =>
    pUser ∈ x.userList → (x.users pUser).hashed = true → (x.users pUser).sNick = sNick
  | .hashAdd pUser => pUser ∈ x.userList → (x.users pUser).pastLogin = false
  | .remUser pUser => x.stack = [] → (x.users pUser).pastLogin = true → x.actualUser ≠ some pUser
  | _ => True

/-! ## What every careful step keeps -/

/-- Whoever can be found is in the list. -/
structure Listed : Prop where
  actual : ∀ pUser, x.actualUser = some pUser → pUser ∈ x.userList
  subjects : ∀ pUser, .dispatch pUser ∈ x.stack → pUser ∈ x.userList
  /-- An entry of the index is that of a user that can still be closed. -/
  indexed : ∀ sNick pUser, x.hashManager.nickTable sNick = some pUser →
    pUser ∈ x.userList ∧ (x.users pUser).hashed = true ∧ (x.users pUser).pastLogin = false ∧
      (x.users pUser).sNick = sNick

section
variable {x : UserHub} {pUser : UserId} {e : UserEvent}

theorem start_listed : start.Listed where
  actual := by simp [start]
  subjects := by simp [start]
  indexed := by simp [start, HashManager.empty]

theorem getUser_listed (listed : x.Listed) {t : UserTable} (got : x.scriptGetUser t = some pUser) :
    pUser ∈ x.userList := by
  unfold scriptGetUser at got
  split at got
  · rename_i actual
    cases got
    exact listed.actual _ actual.symm
  · split at got
    · rename_i found
      cases got
      exact (listed.indexed _ _ found).1
    · cases got

/-- What happens to one user doesn't touch the entries of the others. -/
theorem Listed.modify (listed : x.Listed) {f : ListedUser → ListedUser} {m : HashManager}
    (indexed : ∀ sNick d, m.nickTable sNick = some d →
      (d ≠ pUser ∧ x.hashManager.nickTable sNick = some d) ∨
        (d = pUser ∧ pUser ∈ x.userList ∧ (f (x.users pUser)).hashed = true ∧
          (f (x.users pUser)).pastLogin = false ∧ (f (x.users pUser)).sNick = sNick)) :
    ({ x.modify pUser f with hashManager := m } : UserHub).Listed where
  actual := listed.actual
  subjects := listed.subjects
  indexed := by
    intro sNick d entry
    dsimp only [UserHub.modify]
    rcases indexed sNick d entry with ⟨other, kept⟩ | ⟨rfl, inside, hashed, live, nick⟩
    · rw [Function.update_of_ne other]
      exact listed.indexed sNick d kept
    · rw [Function.update_self]
      exact ⟨inside, hashed, live, nick⟩

theorem setNick_listed (listed : x.Listed) {sNick : Text}
    (same : (x.users pUser).hashed = true → (x.users pUser).sNick = sNick) :
    (x.modify pUser fun u => { u with sNick := sNick }).Listed := by
  refine listed.modify (f := fun u => { u with sNick := sNick }) (m := x.hashManager) ?_
  intro nick d entry
  obtain ⟨inside, hashed, live, own⟩ := listed.indexed nick d entry
  by_cases eq : d = pUser
  · subst eq
    exact .inr ⟨rfl, inside, hashed, live, (same hashed).symm.trans own⟩
  · exact .inl ⟨eq, entry⟩

theorem hashAdd_listed (listed : x.Listed) (inside : pUser ∈ x.userList)
    (live : (x.users pUser).pastLogin = false) (ipHash : IpHash) :
    ({ x.modify pUser fun u => { u with hashed := true } with
      hashManager := x.hashManager.add pUser (x.users pUser).sNick ipHash } : UserHub).Listed := by
  apply listed.modify
  intro nick d entry
  rw [HashManager.add] at entry
  dsimp only at entry
  by_cases key : nick = (x.users pUser).sNick
  · rw [key, Function.update_self] at entry
    cases entry
    exact .inr ⟨rfl, inside, rfl, live, key.symm⟩
  · rw [Function.update_of_ne key] at entry
    by_cases eq : d = pUser
    · subst eq
      obtain ⟨-, -, -, own⟩ := listed.indexed nick d entry
      exact absurd own.symm key
    · exact .inl ⟨eq, entry⟩

/-- A closed user has no entry. -/
theorem close_listed (listed : x.Listed) (pUser : UserId) : (x.close pUser).Listed := by
  unfold close
  dsimp only
  split
  · exact listed
  · split
    · apply listed.modify
      intro nick d entry
      rw [HashManager.remove_nickTable] at entry
      by_cases key : nick = (x.users pUser).sNick
      · rw [key, Function.update_self] at entry
        cases entry
      · rw [Function.update_of_ne key] at entry
        refine .inl ⟨?_, entry⟩
        rintro rfl
        exact key (listed.indexed nick d entry).2.2.2.symm
    · rename_i unhashed
      refine listed.modify (f := fun u => { u with pastLogin := true }) (m := x.hashManager) ?_
      intro nick d entry
      refine .inl ⟨?_, entry⟩
      rintro rfl
      exact unhashed (listed.indexed nick d entry).2.1

theorem addUser_listed (listed : x.Listed) (fresh : pUser ∉ x.userList) (ipHash : IpHash) :
    ({ x with
        userList := x.userList ++ [pUser]
        users := Function.update x.users pUser ⟨[], ipHash, false, false⟩ } : UserHub).Listed where
  actual d eq := List.mem_append_left _ (listed.actual d eq)
  subjects d mem := List.mem_append_left _ (listed.subjects d mem)
  indexed := by
    intro sNick d entry
    obtain ⟨inside, rest⟩ := listed.indexed sNick d entry
    have other : d ≠ pUser := by
      rintro rfl
      exact fresh inside
    dsimp only
    rw [Function.update_of_ne other]
    exact ⟨List.mem_append_left _ inside, rest⟩

/-- A closed user that isn't `m_pActualUser` can be found by nobody. -/
theorem remUser_listed (listed : x.Listed) (idle : x.stack = [])
    (closed : (x.users pUser).pastLogin = true) (other : x.actualUser ≠ some pUser) :
    ({ x with userList := x.userList.erase pUser } : UserHub).Listed where
  actual := by
    intro d eq
    have apart : d ≠ pUser := by
      rintro rfl
      exact other eq
    exact (List.mem_erase_of_ne apart).mpr (listed.actual d eq)
  subjects := by
    intro d mem
    rw [idle] at mem
    cases mem
  indexed := by
    intro sNick d entry
    obtain ⟨inside, hashed, live, nick⟩ := listed.indexed sNick d entry
    have apart : d ≠ pUser := by
      rintro rfl
      rw [closed] at live
      cases live
    exact ⟨(List.mem_erase_of_ne apart).mpr inside, hashed, live, nick⟩

/-- The step lemma. -/
theorem step_listed (listed : x.Listed) (careful : x.Careful e) : (x.step e).Listed := by
  unfold step
  cases e with
  | dispatch pUser =>
    dsimp only
    split
    · rename_i inside
      refine ⟨listed.actual, ?_, listed.indexed⟩
      intro d mem
      cases List.mem_cons.mp mem with
      | inl eq =>
        cases eq
        exact inside
      | inr below => exact listed.subjects d below
    · exact listed
  | handler pLua =>
    dsimp only
    split
    · rename_i pUser below top
      refine ⟨?_, ?_, listed.indexed⟩
      · intro d eq
        cases eq
        exact listed.subjects pUser (top ▸ List.mem_cons_self)
      · intro d mem
        exact listed.subjects d ((List.mem_cons.mp mem).resolve_left (by simp))
    · exact listed
  | through =>
    dsimp only
    split
    · rename_i pUser below top
      refine ⟨listed.actual, ?_, listed.indexed⟩
      intro d mem
      exact listed.subjects d (top ▸ List.mem_cons_of_mem _ mem)
    · exact listed
  | timer pLua =>
    dsimp only
    split
    · exact ⟨by simp, by simp, listed.indexed⟩
    · exact listed
  | plain pLua =>
    refine ⟨listed.actual, ?_, listed.indexed⟩
    intro d mem
    exact listed.subjects d ((List.mem_cons.mp mem).resolve_left (by simp))
  | onError =>
    dsimp only
    split
    · exact ⟨by simp, listed.subjects, listed.indexed⟩
    · exact listed
  | ret success =>
    dsimp only
    split
    · rename_i pLua handler below top
      refine ⟨?_, ?_, listed.indexed⟩
      · intro d eq
        dsimp only at eq
        split at eq
        · cases eq
        · exact listed.actual d eq
      · intro d mem
        exact listed.subjects d (top ▸ List.mem_cons_of_mem _ mem)
    · exact listed
  | manager => exact ⟨by simp, listed.subjects, listed.indexed⟩
  | addUser pUser ipHash =>
    dsimp only
    split
    · exact listed
    · rename_i fresh
      exact addUser_listed listed fresh ipHash
  | setNick pUser sNick =>
    dsimp only
    split
    · rename_i inside
      exact setNick_listed listed (careful inside)
    · exact listed
  | hashAdd pUser =>
    dsimp only
    split
    · rename_i inside
      exact hashAdd_listed listed inside (careful inside) _
    · exact listed
  | close pUser =>
    dsimp only
    split
    · exact close_listed listed pUser
    · exact listed
  | remUser pUser =>
    dsimp only
    split
    · rename_i gone
      exact remUser_listed listed gone.1 gone.2 (careful gone.1 gone.2)
    · exact listed

end

/-! ## A script that keeps a table -/

/-- A user is online, and a script is called for him. -/
def called : List UserEvent :=
  [.addUser 0 0, .setNick 0 (ascii "ann"), .hashAdd 0, .dispatch 0, .handler 7]

/-- It succeeds, but the user takes a second nick before he leaves. -/
theorem dead_user_renamed :
    ¬(run step start (called ++ [.ret true, .through, .setNick 0 (ascii "bob"), .hashAdd 0,
      .close 0, .remUser 0, .plain 7])).NoDeadUser := by
  intro alive
  have listed := alive 7 false [] rfl ⟨7, 0, ascii "ann"⟩ (List.mem_singleton.mpr rfl) rfl 0
    (by decide +kernel)
  exact absurd listed (by decide)

end UserHub

end FlyHub.Scripts
