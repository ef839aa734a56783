import Mathlib.Data.List.Perm.Subperm
import FlyHub.Session.Refine

/-!
# The index of online users in every run

As long as no connection names another nick after it has been hashed, the index
holds the hashed users, each one once, and nobody else. A pinger with QuickList
stays in `VALIDATE` when it has been hashed and may break this.
-/

namespace FlyHub.Session

open FlyHub.Ban FlyHub.Lib

/-- Where the index is to file a user: a hashed one, until it is closed. -/
def Login.key (l : Login) : Option (Text × IpHash) :=
  if l.state.isPastLogin = false ∧ l.hashed = true then some (l.sNick, l.ipHash) else none

namespace Hub

/-- The user is hashed and has not been closed. -/
def Online (h : Hub) (c : UserId) : Prop :=
  (h.users c).state.isPastLogin = false ∧ (h.users c).hashed = true

def Indexed (h : Hub) : Prop :=
  h.hash.Indexes h.Online (fun c => (h.users c).sNick) (fun c => (h.users c).ipHash)

section
variable {cfg : Config} {h₀ x y : Hub} {a : Action} {c d : UserId}

theorem key_some {k : Text × IpHash} : (x.users c).login.key = some k ↔
    x.Online c ∧ (x.users c).sNick = k.1 ∧ (x.users c).ipHash = k.2 := by
  unfold Login.key Online
  by_cases online : (x.users c).login.state.isPastLogin = false ∧ (x.users c).login.hashed = true
  · rw [if_pos online, Option.some.injEq]
    exact ⟨fun eq => ⟨online, congrArg Prod.fst eq, congrArg Prod.snd eq⟩,
      fun same => Prod.ext same.2.1 same.2.2⟩
  · rw [if_neg online]
    exact ⟨fun none => by simp at none, fun same => absurd same.1 online⟩

theorem key_of_online (online : x.Online c) :
    (x.users c).login.key = some ((x.users c).sNick, (x.users c).ipHash) :=
  key_some.mpr ⟨online, rfl, rfl⟩

theorem key_none : (x.users c).login.key = none ↔ ¬ x.Online c := by
  constructor
  · intro none online
    exact absurd (none.symm.trans (key_of_online online)) (by simp)
  · intro offline
    unfold Login.key
    exact if_neg offline

/-- The index depends on the keys alone. -/
theorem Indexed.of_keys (index : x.Indexed) (hash : y.hash = x.hash)
    (keys : ∀ d, (y.users d).login.key = (x.users d).login.key) : y.Indexed := by
  unfold Indexed
  rw [hash]
  have kept (d : UserId) (online : x.Online d) : y.Online d ∧
      (y.users d).sNick = (x.users d).sNick ∧ (y.users d).ipHash = (x.users d).ipHash :=
    key_some.mp ((keys d).trans (key_of_online online))
  refine HashManager.Indexes.congr index (fun d => ⟨fun online => ?_, fun online => ?_⟩)
    fun d online => (kept d online).2
  · exact (key_some.mp ((keys d).symm.trans (key_of_online online))).1
  · exact (kept d online).1

theorem keys_modify {f : User → User} (same : (f (x.users c)).login.key = (x.users c).login.key)
    (d : UserId) : ((x.modify c f).users d).login.key = (x.users d).login.key := by
  rw [modify_users]
  split
  · rename_i eq
    rw [eq]
    exact same
  · rfl

theorem Indexed.modify (index : x.Indexed) (f : User → User)
    (same : (f (x.users c)).login.key = (x.users c).login.key) : (x.modify c f).Indexed :=
  index.of_keys rfl (keys_modify same)

/-- A login that has not named its nick is in no table. -/
theorem key_of_unhashed {l : Login} (new : l.hashed = false) : l.key = none := by
  simp [Login.key, new]

/-- Only `Close` takes a user out. -/
theorem key_congr {l l' : Login} (live : l'.state.isPastLogin = l.state.isPastLogin)
    (hashed : l'.hashed = l.hashed) (nick : l'.sNick = l.sNick) (ip : l'.ipHash = l.ipHash) :
    l'.key = l.key := by
  unfold Login.key
  rw [live, hashed, nick, ip]

/-! ## Close and Add -/

theorem Indexed.closeWith (index : x.Indexed) (bNoQuit : Bool) :
    (x.closeWith cfg c bNoQuit).Indexed := by
  cases past : (x.users c).state.isPastLogin with
  | true =>
    rw [closeWith_pastLogin past]
    exact index.modify _ rfl
  | false =>
    have gone : ¬ (x.closeWith cfg c bNoQuit).Online c := by
      intro online
      have ended : ((x.closeWith cfg c bNoQuit).users c).state.isPastLogin = true :=
        closeWith_past bNoQuit c
      rw [online.1] at ended
      exact absurd ended (by simp)
    have others (d : UserId) (differs : d ≠ c) :
        (x.closeWith cfg c bNoQuit).users d = x.users d := closeWith_users bNoQuit differs
    have hash : (x.closeWith cfg c bNoQuit).hash = if (x.users c).hashed then
        x.hash.remove c (x.users c).sNick (x.users c).ipHash else x.hash := by
      rw [closeWith_eq past]
    cases hashed : (x.users c).hashed with
    | true =>
      rw [hashed, if_pos rfl] at hash
      have removed := HashManager.Indexes.remove index (c := c) ⟨past, hashed⟩
      unfold Indexed
      rw [hash]
      refine HashManager.Indexes.congr removed (fun d => ?_) fun d online => ?_
      · constructor
        · intro online
          have differs : d ≠ c := by
            intro eq
            rw [eq] at online
            exact gone online
          refine ⟨differs, ?_⟩
          unfold Online at online
          rw [others d differs] at online
          exact online
        · intro online
          unfold Online
          rw [others d online.1]
          exact online.2
      · rw [others d online.1]
        exact ⟨rfl, rfl⟩
    | false =>
      rw [hashed, if_neg (by simp)] at hash
      refine index.of_keys hash fun d => ?_
      by_cases eq : d = c
      · rw [eq, key_none.mpr gone, key_of_unhashed (show (x.users c).login.hashed = false from hashed)]
      · rw [others d eq]

/-- A user whose nick nobody online has is put into the index. -/
theorem Indexed.enter (index : x.Indexed) {f : User → User} (new : (x.users c).hashed = false)
    (free : ∀ d, x.Online d → (x.users d).sNick ≠ (x.users c).sNick)
    (after : (f (x.users c)).login.key = some ((x.users c).sNick, (x.users c).ipHash)) :
    ((x.hashAdd c).modify c f).Indexed := by
  have out : ¬ x.Online c := fun online => by simp [online.2] at new
  have added := HashManager.Indexes.add index out free
  have self : ((x.hashAdd c).modify c f).users c = f (x.users c) := modify_self
  have others (d : UserId) (differs : d ≠ c) :
      ((x.hashAdd c).modify c f).users d = x.users d := modify_ne differs
  rw [← self] at after
  obtain ⟨online, nick, ip⟩ := key_some.mp after
  refine HashManager.Indexes.congr added (fun d => ?_) fun d _ => ?_
  · by_cases eq : d = c
    · rw [eq]
      exact ⟨fun _ => .inl rfl, fun _ => online⟩
    · unfold Online
      rw [others d eq]
      exact ⟨.inr, fun old => old.resolve_left eq⟩
  · by_cases eq : d = c
    · rw [eq]
      exact ⟨nick, ip⟩
    · rw [others d eq]
      exact ⟨rfl, rfl⟩

/-- Nobody online holds a vacant nick. -/
theorem free_of_vacant (index : x.Indexed) {nick : Text} (vacant : x.Vacant nick) (d : UserId)
    (online : x.Online d) : (x.users d).sNick ≠ nick := by
  intro eq
  have past := vacant d ((index.nick nick d).mpr ⟨online, eq⟩)
  rw [online.1] at past
  exact absurd past (by simp)

theorem Indexed.takeNick (index : x.Indexed) (live : (x.users c).state.isPastLogin = false)
    (self : x.findUser (x.users c).sNick = some c → (x.users c).hashed = true) :
    (x.takeNick cfg c).Indexed := by
  unfold Hub.takeNick
  split
  · exact index
  · rename_i new
    have new : (x.users c).hashed = false := by simpa using new
    have key (z : Hub) (same : z.users c = x.users c) :
        ({ z.users c with hashed := true } : User).login.key =
          some ((z.users c).sNick, (z.users c).ipHash) := by
      rw [same]
      simp [Login.key, User.login, live]
    cases holder : x.findUser (x.users c).sNick with
    | none =>
      apply Indexed.enter index new
      · exact free_of_vacant index fun other found => by simp [holder] at found
      · exact key x rfl
    | some other =>
      have differs : c ≠ other := by
        intro eq
        rw [← eq] at holder
        exact absurd (self holder) (by simp [new])
      dsimp only
      generalize (x.users c).quickList = bNoQuit
      have kept : (x.closeWith cfg other bNoQuit).users c = x.users c :=
        closeWith_users _ differs
      have closed : (x.closeWith cfg other bNoQuit).Indexed := index.closeWith bNoQuit
      apply Indexed.enter closed
      · rw [kept]
        exact new
      · rw [kept]
        apply free_of_vacant closed
        intro other' found
        have before := closeWith_table found
        rw [Option.some.inj (before.symm.trans holder)]
        exact closeWith_past bNoQuit other
      · exact key _ kept

/-! ## Moves -/

/-- The action gives no connection that is already hashed another nick. -/
def namesOnce (cfg : Config) (h : Hub) (a : Action) : Bool :=
  match namedNick cfg h a with
  | some (c, nick) =>
    !(h.users c).hashed || nick = (h.users c).sNick || (illegalCharacter nick).isSome
  | none => true

theorem key_sendAll (msgs : List Msg) (d : UserId) :
    ((x.sendAll c msgs).users d).login.key = (x.users d).login.key := by
  rw [sendAll_login]

theorem Indexed.modifyOnline (index : x.Indexed) (sNick : Text) {f : User → User}
    (grants : ∀ u, ∃ p o, (f u).login = { u.login with profile := p, operator := o }) :
    (x.modifyOnline sNick f).Indexed := by
  have kept (u : User) : (f u).login.key = u.login.key := by
    obtain ⟨p, o, eq⟩ := grants u
    rw [eq]
    exact key_congr rfl rfl rfl rfl
  unfold Hub.modifyOnline
  split
  · exact index.modify f (kept _)
  · exact index

/-- A step of a login that is not over. -/
theorem Indexed.goesOn (index : x.Indexed) {f : User → User}
    (before : (x.users c).state.isPastLogin = false)
    (after : (f (x.users c)).state.isPastLogin = false)
    (hashed : (f (x.users c)).hashed = (x.users c).hashed)
    (nick : (f (x.users c)).sNick = (x.users c).sNick)
    (ip : (f (x.users c)).ipHash = (x.users c).ipHash) : (x.modify c f).Indexed :=
  index.modify f (key_congr (after.trans before.symm) hashed nick ip)

theorem Vacant.dropBan {nick : Text} (vacant : x.Vacant nick) : (x.dropBan c).Vacant nick := by
  intro other found
  unfold Hub.dropBan
  rw [modify_users]
  split
  · rename_i eq
    rw [← eq]
    exact vacant other found
  · exact vacant other found

theorem early_live {st : UserState} (early : st.toNat ≤ UserState.getNickListOrMyInfo.toNat) :
    st.isPastLogin = false := by
  cases st <;> simp_all [UserState.isPastLogin, UserState.toNat]

/-- Every move keeps the index, as far as no hashed connection gets another nick. -/
theorem Move.indexed (move : Move cfg h₀ a x y) (once : namesOnce cfg h₀ a = true) (wf : WellFormed x)
    (index : x.Indexed) : y.Indexed := by
  have unhashed {c : UserId} (validate : (x.users c).state = .validate)
      (vacant : x.Vacant (x.users c).sNick) : (x.users c).hashed = false := by
    cases hashed : (x.users c).hashed with
    | false => rfl
    | true =>
      have online : x.Online c := ⟨by rw [validate]; rfl, hashed⟩
      exact absurd rfl (free_of_vacant index vacant c online)
  cases move with
  | adjust c f same =>
    exact index.modify f (congrArg Login.key (login_of_core (same _)))
  | send c msg => exact index.modify _ (congrArg Login.key (login_put _ msg))
  | opChat c msgs | pingerLists c msgs | roundSend c msgs =>
    exact index.of_keys (same_sendAll msgs).hash (key_sendAll msgs)
  | flush c => exact index.of_keys same_flush.hash fun d => congrArg Login.key flush_login
  | shut c f msgs same =>
    have early : (x.modify c f).Indexed := by
      have kept := same (x.users c)
      apply index.modify f
      exact key_congr (congrArg (fun k => k.state.isPastLogin) kept) (congrArg Core.hashed kept)
        (congrArg Core.sNick kept) (congrArg Core.ipHash kept)
    exact Indexed.closeWith (early.of_keys (same_sendAll msgs).hash (key_sendAll msgs)) false
  | handshake c f st pinger early stays grows core =>
    apply index.modify f
    apply key_congr
    · have after : (f (x.users c)).state = st := congrArg Core.state core
      have shakes := early_live (Nat.le_trans stays (by decide))
      have shook := early_live (Nat.le_trans early (by decide))
      exact (congrArg UserState.isPastLogin after).trans (shakes.trans shook.symm)
    · exact congrArg Core.hashed core
    · exact congrArg Core.sNick core
    · exact congrArg Core.ipHash core
  | queueCmd c cmd => exact index.modify _ rfl
  | name c nick validate named same legal =>
    apply index.modify
    by_cases hashed : (x.users c).hashed = true
    · have own : nick = (x.users c).sNick := by
        rw [same] at hashed ⊢
        simpa [namesOnce, named, hashed, legal] using once
      exact key_congr rfl rfl own rfl
    · have new : (x.users c).login.hashed = false := Bool.eq_false_iff.mpr hashed
      rw [key_of_unhashed new]
      exact key_of_unhashed new
  | enterFree c validate named free vacant unbanned =>
    have new := unhashed validate vacant
    have dropped : (x.dropBan c).Indexed := index.modify _ rfl
    apply dropped.enter
    · simpa [dropBan] using new
    · apply free_of_vacant dropped
      simpa [dropBan] using vacant.dropBan
    · simp [dropBan, Login.key, User.login, validate, UserState.isPastLogin, UserState.toNat]
  | helloLater c validate named hashed free =>
    have goesOn : (x.modify c fun u => { u with state := .versionOrMyPass }).Indexed :=
      index.goesOn (by rw [validate]; rfl) rfl rfl rfl rfl
    exact goesOn.modify _ rfl
  | enterReg c r validate named reg open_ vacant passes =>
    have new := unhashed validate vacant
    have dropped : (x.dropBan c).Indexed := index.modify _ rfl
    apply Indexed.modify _ _ rfl
    apply dropped.enter
    · simpa [dropBan] using new
    · apply free_of_vacant dropped
      simpa [dropBan] using vacant.dropBan
    · simp [dropBan, Login.key, User.login, UserState.isPastLogin, UserState.toNat]
  | awaitPass c r validate named reg open_ passes =>
    have dropped : (x.dropBan c).Indexed := index.modify _ rfl
    have asked : ((x.dropBan c).modify c fun u =>
        { u with state := .versionOrMyPass, waitingForPass := true }).Indexed :=
      dropped.goesOn (by simp [dropBan, validate]; rfl) rfl rfl rfl rfl
    exact asked.modify _ rfl
  | deadSocket c other =>
    have dropped : (x.dropBan c).Indexed := index.modify _ rfl
    have broken : ((x.dropBan c).modify other fun u => { u with error := true }).Indexed :=
      dropped.modify _ rfl
    exact broken.closeWith false
  | version c state => exact index.goesOn (by rw [state]; rfl) rfl rfl rfl rfl
  | addMe c st early late named hashed done user next =>
    have after : st.isPastLogin = false := by
      cases next with
      | inl eq => rw [eq]; rfl
      | inr eq => rw [eq]; rfl
    exact index.goesOn (early_live late) after rfl rfl rfl
  | ipv4Done c f state core =>
    have after : (f (x.users c)).state = .addMe := congrArg Core.state core
    exact index.goesOn (by rw [state]; rfl) (by rw [after]; rfl) (congrArg Core.hashed core)
      (congrArg Core.sNick core) (congrArg Core.ipHash core)
  | firstLoop c state => exact index.goesOn (by rw [state]; rfl) rfl rfl rfl rfl
  | enlist c state =>
    have listed : ((x.add2Userlist cfg c).modify c fun u =>
        { u with state := .addMe2Loop }).Indexed := by
      have added : (x.add2Userlist cfg c).Indexed :=
        index.of_keys same_add2Userlist.hash fun d => congrArg Login.key add2Userlist_login
      have same : ((x.add2Userlist cfg c).users c).state = .addMe1Loop :=
        (congrArg Login.state (add2Userlist_login (d := c))).trans state
      exact added.goesOn (by rw [same]; rfl) rfl rfl rfl rfl
    refine listed.of_keys same_announce.hash fun d => ?_
    unfold Hub.enlist
    rw [announce_users]
  | newInfo c state => exact index.modify _ rfl
  | refresh c due live new =>
    have noted : (x.modify c fun u => { u with prcsdMyInfo := false }).Indexed :=
      index.modify _ rfl
    exact noted.of_keys (same_refreshMyInfo due).hash fun d =>
      congrArg Login.key (refreshMyInfo_login due)
  | unwait c state => exact index.modify _ rfl
  | pass c r password items compared right same self =>
    have passed : (x.passed cfg c r items).Indexed :=
      index.of_keys rfl fun d => by
        rw [passed_users]
        exact keys_modify (key_congr rfl rfl rfl rfl) d
    apply passed.takeNick
    · have state : (x.users c).state = .versionOrMyPass := by
        rw [same]
        exact compared.state
      rw [passed_users, modify_self]
      exact (congrArg UserState.isPastLogin state).trans rfl
    · rw [passed_users, modify_self]
      exact self
  | notePass | bans | passwdBf | post | remove | round => exact index.of_keys rfl fun _ => rfl
  | hello c state => exact index.modify _ (congrArg Login.key (login_put _ _))
  | reg change =>
    cases change with
    | add r looked new same =>
      have made : (x.setReg r).Indexed := index.of_keys rfl fun _ => rfl
      exact made.modifyOnline _ (giveProfile_login r.profile)
    | change r s looked found same event =>
      have made : (x.setReg r).Indexed := index.of_keys rfl fun _ => rfl
      exact made.modifyOnline _ (changeProfile_login r.profile)
    | delete r looked found same event =>
      exact (index.modifyOnline r.sNick loseProfile_login).of_keys rfl fun _ => rfl
    | self c profile own state nick reg =>
      exact index.modify _ (key_congr rfl rfl rfl rfl)
  | keyLost c event =>
    exact index.of_keys same_tellKeyLost.hash fun d => by rw [tellKeyLost_users]
  | askReg | askAgain => exact index.modify _ rfl
  | accept u fresh event =>
    have new : u.login.hashed = false := congrArg Core.hashed fresh
    have unborn : (x.users x.nextUser).login.hashed = false := (wf.unborn _ (Nat.le_refl _)).2
    refine index.of_keys rfl fun d => ?_
    by_cases eq : d = x.nextUser
    · rw [eq, key_of_unhashed unborn]
      simp only [newUser, Function.update_self]
      exact key_of_unhashed new
    · simp only [newUser, Function.update_of_ne eq]
  | endClosing c state =>
    apply index.modify
    have ended (u : User) (past : u.state.isPastLogin = true) : u.login.key = none :=
      if_neg fun online => absurd (past.symm.trans online.1) (by simp)
    rw [ended _ rfl, ended _ (by rw [state]; rfl)]
  | roundAdd c f event state core =>
    have after : (f (x.users c)).state = .added := congrArg Core.state core
    exact index.goesOn (by rw [state]; rfl) (by rw [after]; rfl) (congrArg Core.hashed core)
      (congrArg Core.sNick core) (congrArg Core.ipHash core)

/-! ## The counters -/

/-- At most 65535 users of one address are online. -/
def Small (h : Hub) : Prop :=
  ∀ ip (l : List UserId), l.Nodup → (∀ c ∈ l, h.Online c ∧ (h.users c).ipHash = ip) →
    l.length < 65536

/-- The counter of the address of whoever sends a command has room for one more. -/
def roomy (h : Hub) (a : Action) : Bool :=
  match a with
  | .command c _ _ => h.hash.getUserIpCount (h.users c).ipHash ≠ 65535
  | _ => true

theorem event_of_named {nick : Text} (named : namedNick cfg h₀ a = some (c, nick)) :
    ∃ cmd answers, a = .command c cmd answers := by
  cases a with
  | command c' cmd answers =>
    have same : c' = c := by
      simp only [namedNick] at named
      split at named
      · simp at named
      split at named
      · split at named
        · simp at named
        · exact congrArg Prod.fst (Option.some.inj named)
      split at named
      · split at named
        · obtain ⟨nick', -, eq⟩ := Option.map_eq_some_iff.mp named
          exact congrArg Prod.fst eq
        · simp at named
      · simp at named
    exact ⟨cmd, answers, by rw [same]⟩
  | _ => simp [namedNick] at named

/-- Whoever comes online sends the command that is handled. -/
theorem LoginStep.online {l l' : Login} (step : LoginStep cfg h₀ a x y d l l')
    (online : l'.key.isSome = true) :
    l.key.isSome = true ∧ l'.ipHash = l.ipHash ∨ ∃ cmd answers, a = .command d cmd answers := by
  have same (live : l'.state.isPastLogin = false → l.state.isPastLogin = false)
      (hashed : l'.hashed = l.hashed) : l.key.isSome = true := by
    unfold Login.key at online ⊢
    split at online
    · rename_i now
      rw [if_pos ⟨live now.1, hashed.symm.trans now.2⟩]
      rfl
    · simp at online
  cases step with
  | stay => exact .inl ⟨online, rfl⟩
  | fresh _ event new grown state hashed => simp [Login.key, hashed] at online
  | shut _ past => simp [Login.key, past] at online
  | handshake st pinger early =>
    exact .inl ⟨same (fun _ => early_live (Nat.le_trans early (by decide))) rfl, rfl⟩
  | name nick validate named | enterFree validate named | ask r hashed validate named =>
    exact .inr (event_of_named named)
  | helloLater validate => exact .inl ⟨same (fun _ => by rw [validate]; rfl) rfl, rfl⟩
  | version state | unwait state | added state =>
    exact .inl ⟨same (fun _ => by rw [state]; rfl) rfl, rfl⟩
  | addMe st early late => exact .inl ⟨same (fun _ => early_live late) rfl, rfl⟩
  | advance st loggedIn =>
    refine .inl ⟨same (fun _ => ?_) rfl, rfl⟩
    cases state : l.state <;>
      simp_all [UserState.isPastLogin, UserState.isLoggedIn, UserState.toNat]
  | pass r password state compared =>
    obtain ⟨cmd, answers, event, -⟩ := compared.command
    exact .inr ⟨cmd, answers, event⟩
  | deadSocket validate named => exact .inr (event_of_named named)
  | grant | askReg => exact .inl ⟨same id rfl, rfl⟩

/-- The address of a connection is settled when it is accepted. -/
theorem LoginStep.sameIp {l l' : Login} (step : LoginStep cfg h₀ a x y d l l')
    (event : ∃ cmd answers, a = .command c cmd answers) : l'.ipHash = l.ipHash := by
  cases step with
  | fresh _ accept =>
    obtain ⟨cmd, answers, command⟩ := event
    obtain ⟨s, ip, v6, accepted⟩ := accept
    rw [command] at accepted
    simp at accepted
  | shut _ past nick ip => exact ip
  | _ => rfl

theorem act_online (wf : WellFormed x) (a : Action) (online : (x.act cfg a).Online d) :
    x.Online d ∧ ((x.act cfg a).users d).ipHash = (x.users d).ipHash ∨
      ∃ cmd answers, a = .command d cmd answers := by
  have keys (h : Hub) : h.Online d ↔ (h.users d).login.key.isSome = true := by
    rw [Option.isSome_iff_ne_none, Ne, key_none, not_not]
  have moves := (act_moves cfg wf a).invariant
    (P := fun z => z.Online d → x.Online d ∧ (z.users d).ipHash = (x.users d).ipHash ∨
      ∃ cmd answers, a = .command d cmd answers) ?_ fun online => .inl ⟨online, rfl⟩
  · exact moves online
  · intro z z' before move online
    rw [keys] at online
    cases (move.login d).online online with
    | inl old =>
      rw [← keys] at old
      cases before old.1 with
      | inl older => exact .inl ⟨older.1, old.2.trans older.2⟩
      | inr event => exact .inr event
    | inr event => exact .inr event

theorem act_sameIp (cfg : Config) (wf : WellFormed x) (event : ∃ cmd answers, a = .command c cmd answers)
    (d : UserId) : ((x.act cfg a).users d).ipHash = (x.users d).ipHash :=
  (act_moves cfg wf a).invariant
    (P := fun z => (z.users d).ipHash = (x.users d).ipHash)
    (fun _ _ before move => ((move.login d).sameIp event).trans before) rfl

/-- The chain of an address, with a counter that tells its length. -/
theorem Indexed.chain_count (index : x.Indexed) (small : x.Small) (ip : IpHash) :
    ∃ l : List UserId, l.Nodup ∧ (∀ c, c ∈ l ↔ x.Online c ∧ (x.users c).ipHash = ip) ∧
      LinkedFrom x.hash.links none l ∧ (x.hash.ipTable ip).map IpTableItem.first = l.head? ∧
      (x.hash.getUserIpCount ip).toNat = l.length := by
  obtain ⟨l, elements, describes⟩ := index.chain ip
  have short := small ip l describes.nodup fun c inside => (elements c).mp inside
  refine ⟨l, describes.nodup, elements, describes.linked, describes.first, ?_⟩
  unfold HashManager.getUserIpCount
  cases item : x.hash.ipTable ip with
  | none =>
    have first := describes.first
    rw [item] at first
    cases l with
    | nil => rfl
    | cons c l => simp at first
  | some i =>
    dsimp only
    rw [describes.count i item, UInt16.toNat_ofNat']
    exact Nat.mod_eq_of_lt short

theorem act_small (wf : WellFormed x) (index : x.Indexed) (small : x.Small) (a : Action)
    (room : x.roomy a = true) : (x.act cfg a).Small := by
  intro ip l nodup all
  by_cases sender : ∃ c, c ∈ l ∧ ∃ cmd answers, a = .command c cmd answers
  · obtain ⟨c, inside, event⟩ := sender
    have sameIp := act_sameIp cfg wf event
    have here : (x.users c).ipHash = ip := (sameIp c).symm.trans (all c inside).2
    obtain ⟨chain, -, elements, -, -, count⟩ := index.chain_count small ip
    have others : l.erase c ⊆ chain := by
      intro d other
      obtain ⟨differs, member⟩ := (nodup.mem_erase_iff).mp other
      obtain ⟨online, is⟩ := all d member
      rw [elements]
      cases act_online wf a online with
      | inl old => exact ⟨old.1, (sameIp d).symm.trans is⟩
      | inr command =>
        obtain ⟨cmd, answers, eq⟩ := command
        obtain ⟨cmd', answers', eq'⟩ := event
        rw [eq] at eq'
        exact absurd (Action.command.inj eq').1 differs
    have fewer := (List.subperm_of_subset (nodup.erase c) others).length_le
    have length := List.length_erase_of_mem inside
    have pos := List.length_pos_of_mem inside
    have notFull : chain.length ≠ 65535 := by
      obtain ⟨cmd, answers, command⟩ := event
      have notFull : x.hash.getUserIpCount ip ≠ 65535 := by
        rw [command] at room
        simpa [roomy, here] using room
      intro full
      apply notFull
      apply UInt16.toNat_inj.mp
      rw [count, full]
      rfl
    have chainSmall : chain.length < 65536 := by
      rw [← count]
      exact UInt16.toNat_lt _
    omega
  · apply small ip l nodup
    intro c inside
    obtain ⟨online, is⟩ := all c inside
    cases act_online wf a online with
    | inl old => exact ⟨old.1, old.2.symm.trans is⟩
    | inr event => exact absurd ⟨c, inside, event⟩ sender

/-! ## Runs -/

/-- What the index is for: the hashed users, each one once, and nobody else. -/
structure IndexSound (h : Hub) : Prop where
  found : ∀ nick c, h.findUser nick = some c ↔ h.Online c ∧ (h.users c).sNick = nick
  chain : ∀ ip, ∃ l : List UserId, l.Nodup ∧
    (∀ c, c ∈ l ↔ h.Online c ∧ (h.users c).ipHash = ip) ∧ LinkedFrom h.hash.links none l ∧
    (h.hash.ipTable ip).map IpTableItem.first = l.head? ∧
    (h.hash.getUserIpCount ip).toNat = l.length
  alone : ∀ c, ¬ h.Online c → h.hash.links.prev c = none ∧ h.hash.links.next c = none
  loggedIn : ∀ c, (h.users c).state.isLoggedIn = true → h.Online c

/-- The event gives no hashed connection another nick, and the counter of the
address it comes from has room. -/
def KeepsIndex (cfg : Config) (h : Hub) (e : Event) : Prop :=
  namesOnce cfg (h.advance e) e.action = true ∧ roomy h e.action = true

instance (cfg : Config) (h : Hub) (e : Event) : Decidable (KeepsIndex cfg h e) :=
  inferInstanceAs (Decidable (_ ∧ _))

theorem loggedIn_online (wf : WellFormed x) (loggedIn : (x.users c).state.isLoggedIn = true) :
    x.Online c := by
  have live : (x.users c).state.isPastLogin = false ∧
      UserState.versionOrMyPass.toNat ≤ (x.users c).state.toNat := by
    cases state : (x.users c).state <;>
      simp_all [UserState.isPastLogin, UserState.isLoggedIn, UserState.toNat]
  exact ⟨live.1, wf.settled c live.1 live.2 (.inr loggedIn)⟩

theorem Indexed.sound (index : x.Indexed) (small : x.Small) (wf : WellFormed x) : IndexSound x where
  found := index.nick
  chain := index.chain_count small
  alone := index.unlinked
  loggedIn := fun _ loggedIn => loggedIn_online wf loggedIn

/-- The index of a hub whose users were accepted by it. -/
structure IndexInv (h : Hub) : Prop where
  wf : WellFormed h
  index : h.Indexed
  small : h.Small

theorem start_offline (regs : RegManager) (c : UserId) : ¬ (start cfg regs).Online c := by
  intro online
  have past : UserState.remMe.isPastLogin = false := online.1
  exact absurd past (by decide)

theorem start_indexInv (regs : RegManager) : IndexInv (start cfg regs) where
  wf := start_wellFormed regs
  index := by
    refine HashManager.Indexes.congr (HashManager.indexes_empty (fun _ => [])
      fun _ => 0) (fun c => ?_) fun c none => none.elim
    exact ⟨fun online => start_offline regs c online, False.elim⟩
  small := by
    intro ip l nodup all
    cases l with
    | nil => simp
    | cons c l => exact absurd (all c List.mem_cons_self).1 (start_offline regs c)

theorem step_indexInv (inv : IndexInv x) (e : Event) (keeps : KeepsIndex cfg x e) :
    IndexInv (step cfg x e) := by
  have wf := advance_wellFormed inv.wf e
  have index : (x.advance e).Indexed := inv.index.of_keys rfl fun _ => rfl
  have small : (x.advance e).Small := inv.small
  refine ⟨act_wellFormed cfg wf e.action, ?_, act_small wf index small e.action keeps.2⟩
  have both := (act_moves cfg wf e.action).invariant
    (P := fun z => WellFormed z ∧ z.Indexed) ?_ ⟨wf, index⟩
  · exact both.2
  · exact fun z z' inv move => ⟨move.wellFormed inv.1, move.indexed keeps.1 inv.1 inv.2⟩

/-- A connection that comes with QuickList, BotINFO or neither. -/
def arrival (c : UserId) (supports : Text) : List Event :=
  [⟨0, .accept [] 0 false⟩, ⟨0, .receive c {}⟩, ⟨0, .command c supports {}⟩]

end

end Hub

end FlyHub.Session
