import FlyHub.Session.BruteForce
import FlyHub.Session.Present

/-!
# The limits on users

The hub has a limit on its users, and one on the users from one address. Both are looked at when
a user names its nick. They hold from then on, unless a user comes in who is exempt from them, or
takes a nick with its password later, when nobody counts any more.
-/

namespace FlyHub.Session

open FlyHub.Ban FlyHub.Lib

structure Limits where
  maxUsers : Nat
  maxConnSameIp : Nat

namespace Hub

/-- The users online whose address is one of those meant. -/
def crowd (h : Hub) (near : IpHash → Bool) : List UserId :=
  h.userList.filter fun c =>
    !(h.users c).state.isPastLogin && (h.users c).hashed && near (h.users c).ipHash

def onlineUsers (h : Hub) : List UserId := h.crowd fun _ => true

def onlineFrom (h : Hub) (ip : IpHash) : List UserId := h.crowd (· = ip)

/-- One of those in the crowd holds the nick of `c`. -/
def hasGhost (h : Hub) (near : IpHash → Bool) (c : UserId) : Bool :=
  (h.findUser (h.users c).sNick).any (· ∈ h.crowd near)

/-- What the hub finds out about its limits when a nick is named: each connection that has been
accepted counts as a user, and the counter of the index tells those of one address. -/
def counts (cfg : Config) (lim : Limits) (h : Hub) (a : Action) : Bool :=
  match a with
  | .command c _ answers =>
    (namedNick cfg h a).isNone ||
      answers.hubFull = decide (lim.maxUsers < h.userList.length) &&
        answers.maxIpConns =
          decide (lim.maxConnSameIp ≤ (h.hash.getUserIpCount (h.users c).ipHash).toNat)
  | _ => true

/-- A user for whom a limit does not hold names its nick, and the limit is reached. -/
def letsOneMore (cfg : Config) (lim : Limits) (h : Hub) (a : Action) : Bool :=
  match namedNick cfg h a with
  | some (c, nick) =>
    let allowed := cfg.profiles.isProfileAllowed (regProfile (h.findReg nick))
    (allowed .enterFullHub || (h.users c).pinger) && lim.maxUsers ≤ h.onlineUsers.length ||
      allowed .noUsrSameIp && lim.maxConnSameIp ≤ (h.onlineFrom (h.users c).ipHash).length
  | none => false

/-- A limit is reached when a user takes its nick with the password, and the one it takes the
nick from, if any, does not make room. -/
def takesOneMore (cfg : Config) (lim : Limits) (h : Hub) (a : Action) : Bool :=
  match acceptedPass cfg h a with
  | some c =>
    !(h.users c).hashed &&
      (lim.maxUsers ≤ h.onlineUsers.length && !h.hasGhost (fun _ => true) c ||
        lim.maxConnSameIp ≤ (h.onlineFrom (h.users c).ipHash).length &&
          !h.hasGhost (· = (h.users c).ipHash) c)
  | none => false

section
variable {cfg : Config} {h₀ x y : Hub} {a : Action} {c d : UserId}

/-! ## Whom a limit turns away -/

theorem refuse_past (msg : Msg) : ((x.refuse cfg c msg).users c).state.isPastLogin = true :=
  closeWith_past false c

theorem admitNick_turned {answers : Answers} {reg : Option RegUser} (nick : Text)
    (validateNick : Bool) (turned : lets cfg answers reg (x.users c).pinger = false) :
    (x.admitNick cfg c answers reg nick validateNick).2 = false ∧
      ((x.admitNick cfg c answers reg nick validateNick).1.users c).state.isPastLogin = true := by
  unfold admitNick
  dsimp only
  split
  · exact ⟨rfl, refuse_past _⟩
  split
  · exact ⟨rfl, refuse_past _⟩
  rename_i room
  split
  · exact ⟨rfl, refuse_past _⟩
  rename_i conns
  split
  · exact ⟨rfl, closeWith_past false c⟩
  · rename_i slow
    have passes := lets_of_checks (by simpa using room) conns slow
    rw [turned] at passes
    cases passes

theorem validateUserNick_turned {answers : Answers} {nick : Text} (validateNick : Bool)
    (turned : lets cfg answers (x.findReg nick) (x.users c).pinger = false) :
    (x.validateUserNick cfg c answers nick validateNick).2 = false ∧
      ((x.validateUserNick cfg c answers nick validateNick).1.users c).state.isPastLogin = true := by
  unfold validateUserNick
  split
  · exact ⟨rfl, refuse_past _⟩
  dsimp only
  split
  · exact ⟨rfl, refuse_past _⟩
  split
  · exact ⟨rfl, refuse_past _⟩
  split
  · exact ⟨rfl, refuse_past _⟩
  · unfold checkReg
    have same : ((x.modify c fun u => { u with sNick := nick }).setBans
        ((x.modify c fun u => { u with sNick := nick }).bans.findNick nick
          (x.modify c fun u => { u with sNick := nick }).clock).1).findReg nick =
        x.findReg nick := rfl
    rw [same]
    cases found : x.findReg nick with
    | none => exact admitNick_turned nick validateNick (by simpa [found] using turned)
    | some r =>
      dsimp only
      split
      · exact ⟨rfl, refuse_past _⟩
      · exact admitNick_turned nick validateNick (by simpa [found] using turned)

theorem act_turned {cmd nick : Text} {answers : Answers}
    (named : namedNick cfg x (.command c cmd answers) = some (d, nick))
    (turned : lets cfg answers (x.findReg nick) (x.users c).pinger = false) :
    ((x.act cfg (.command c cmd answers)).users c).state.isPastLogin = true := by
  simp only [namedNick] at named
  split at named
  · simp at named
  rename_i early
  simp only [Bool.or_eq_true, decide_eq_true_eq, not_or, Decidable.not_not] at early
  obtain ⟨⟨validate, long⟩, key⟩ := early
  simp only [act, preProcessData, validate, long, if_false, preProcessValidate, key]
  split at named
  · rename_i isValidateNick
    split at named
    · simp at named
    rename_i classic
    simp only [Bool.or_eq_true, decide_eq_true_eq, not_or, Bool.not_eq_true] at classic
    obtain ⟨rfl, rfl⟩ := Prod.mk.inj (Option.some.inj named)
    simp only [isValidateNick, validateNick, classic]
    exact (validateUserNick_turned true turned).2
  · rename_i notValidateNick
    split at named
    · rename_i isMyInfo
      split at named
      · rename_i quick
        simp only [Bool.and_eq_true] at quick
        obtain ⟨nick', isNick, same⟩ := Option.map_eq_some_iff.mp named
        obtain ⟨rfl, rfl⟩ := Prod.mk.inj same
        simp only [notValidateNick, isMyInfo, quickListMyInfo, quick.1, quick.2, isNick,
          myInfoDeflood_same quick.2]
        obtain ⟨stop, past⟩ := validateUserNick_turned false turned
        simpa [stop] using past
      · simp at named
    · simp at named

/-! ## Who comes online -/

/-- Whoever comes online has just named its nick or given its password. -/
theorem LoginStep.enters {l l' : Login} (step : LoginStep cfg h₀ a x y d l l')
    (online : l'.key.isSome = true) :
    l.key.isSome = true ∨ (∃ nick, namedNick cfg h₀ a = some (d, nick)) ∨
      acceptedPass cfg h₀ a = some d := by
  have same (live : l'.state.isPastLogin = false → l.state.isPastLogin = false)
      (hashed : l'.hashed = l.hashed) : l.key.isSome = true := by
    unfold Login.key at online ⊢
    split at online
    · rename_i now
      rw [if_pos ⟨live now.1, hashed.symm.trans now.2⟩]
      rfl
    · simp at online
  cases step with
  | stay => exact .inl online
  | fresh _ event new grown state hashed => simp [Login.key, hashed] at online
  | shut _ past => simp [Login.key, past] at online
  | handshake st pinger early =>
    exact .inl (same (fun _ => early_live (Nat.le_trans early (by decide))) rfl)
  | name nick validate named => exact .inr (.inl ⟨_, named⟩)
  | enterFree validate named => exact .inr (.inl ⟨_, named⟩)
  | ask r hashed validate named => exact .inr (.inl ⟨_, named⟩)
  | helloLater validate => exact .inl (same (fun _ => by rw [validate]; rfl) rfl)
  | version state | unwait state | added state =>
    exact .inl (same (fun _ => by rw [state]; rfl) rfl)
  | addMe st early late => exact .inl (same (fun _ => early_live late) rfl)
  | advance st loggedIn =>
    exact .inl (same (fun _ => UserState.live_of_isLoggedIn loggedIn) rfl)
  | pass r password state compared right =>
    exact .inr (.inr (acceptedPass_of_compared compared right))
  | deadSocket validate named => exact .inr (.inl ⟨_, named⟩)
  | grant | askReg => exact .inl (same id rfl)

theorem act_enters (wf : WellFormed x) (a : Action) (online : (x.act cfg a).Online d) :
    x.Online d ∨ (∃ nick, namedNick cfg x a = some (d, nick)) ∨ acceptedPass cfg x a = some d := by
  have keys (h : Hub) : h.Online d ↔ (h.users d).login.key.isSome = true := by
    rw [Option.isSome_iff_ne_none, Ne, key_none, not_not]
  have moves := (act_moves cfg wf a).invariant
    (P := fun z => z.Online d →
      x.Online d ∨ (∃ nick, namedNick cfg x a = some (d, nick)) ∨ acceptedPass cfg x a = some d)
    (fun z z' before move online => ?_) .inl
  · exact moves online
  · rw [keys] at online
    rcases (move.login d).enters online with old | entered
    · exact before ((keys z).mpr old)
    · exact .inr entered

theorem compared_of_acceptedPass (accepted : acceptedPass cfg x a = some c) :
    ∃ r pass, PassCompared x a c r pass ∧ r.passMatches cfg pass = true := by
  unfold acceptedPass at accepted
  split at accepted
  · rename_i d r pass compared
    split at accepted
    · rename_i right
      rw [Option.some.inj accepted] at compared
      exact ⟨r, pass, comparedPass_iff.mp compared, right⟩
    · simp at accepted
  · simp at accepted

theorem addMeOrIPv4Check_other (differs : d ≠ c) :
    (x.addMeOrIPv4Check cfg c).users d = x.users d := by
  unfold addMeOrIPv4Check
  split <;> simp [send, modify_ne differs]

theorem welcome_other (differs : d ≠ c) : (x.welcome cfg c).users d = x.users d := by
  unfold welcome
  dsimp only
  split
  · split <;> simp [send, modify_ne differs]
  split
  · exact addMeOrIPv4Check_other differs
  · rfl

theorem takeNick_ghost (new : (x.users c).hashed = false)
    (holder : x.findUser (x.users c).sNick = some d) (differs : d ≠ c) :
    ((x.takeNick cfg c).users d).state.isPastLogin = true := by
  have kept : (x.takeNick cfg c).users d =
      (x.closeWith cfg d (x.users c).quickList).users d := by
    simp [takeNick, new, holder, hashAdd, modify_ne differs]
  rw [kept]
  exact closeWith_past _ d

/-- The one whose nick is taken with the password is past its login. -/
theorem act_ghost (wf : WellFormed x) (accepted : acceptedPass cfg x a = some c)
    (new : (x.users c).hashed = false) {other : UserId}
    (holder : x.findUser (x.users c).sNick = some other) :
    other ≠ c ∧ ((x.act cfg a).users other).state.isPastLogin = true := by
  have differs : other ≠ c := by
    rintro rfl
    exact absurd (wf.table _ _ holder) (by simp [new])
  refine ⟨differs, ?_⟩
  obtain ⟨r, pass, compared, right⟩ := compared_of_acceptedPass accepted
  rw [act_goodPass compared right, goodPass, welcome_other differs]
  apply takeNick_ghost
  · simp [isAllowed, removePassBf, setPasswdBf, setReg, new]
  · simpa [isAllowed, removePassBf, setPasswdBf, setReg, findUser] using holder
  · exact differs

theorem act_present (wf : WellFormed x) (present : Present x) (a : Action) :
    Present (x.act cfg a) :=
  (act_moves cfg wf a).invariant (fun _ _ present move => move.present present) present

/-! ## The crowd -/

theorem mem_crowd (present : Present x) {near : IpHash → Bool} :
    c ∈ x.crowd near ↔ x.Online c ∧ near (x.users c).ipHash = true := by
  unfold crowd Online
  rw [List.mem_filter]
  constructor
  · rintro ⟨-, is⟩
    simpa [and_assoc] using is
  · rintro ⟨⟨live, hashed⟩, is⟩
    exact ⟨present.live c live, by simp [live, hashed, is]⟩

theorem crowd_nodup (present : Present x) (near : IpHash → Bool) : (x.crowd near).Nodup :=
  present.nodup.filter _

theorem hasGhost_iff {near : IpHash → Bool} : x.hasGhost near c = true ↔
    ∃ other, x.findUser (x.users c).sNick = some other ∧ other ∈ x.crowd near := by
  simp [hasGhost, Option.any_eq_true]

/-- Those of the crowd after an action who were not in it before: none, but for the one whose
command it is. -/
theorem act_crowd_sub (wf : WellFormed x) (present : Present x) {near : IpHash → Bool}
    (mem : d ∈ (x.act cfg a).crowd near) (old : d ∉ x.crowd near) :
    ∃ cmd answers, a = .command d cmd answers ∧ near (x.users d).ipHash = true ∧
      ((∃ nick, namedNick cfg x a = some (d, nick)) ∨ acceptedPass cfg x a = some d) := by
  rw [mem_crowd (act_present wf present a)] at mem
  rw [mem_crowd present] at old
  rcases act_online wf a mem.1 with ⟨online, ip⟩ | ⟨cmd, answers, rfl⟩
  · exact absurd ⟨online, ip ▸ mem.2⟩ old
  · have ip := act_sameIp (c := d) cfg wf ⟨cmd, answers, rfl⟩ d
    rw [ip] at mem
    refine ⟨cmd, answers, rfl, mem.2, ?_⟩
    exact (act_enters wf _ mem.1).resolve_left fun online => old ⟨online, mem.2⟩

/-- One user more in a crowd: it has named its nick, or taken it with the password from nobody
of the crowd. -/
structure OneMore (cfg : Config) (x : Hub) (a : Action) (near : IpHash → Bool) (c : UserId) :
    Prop where
  event : ∃ cmd answers, a = .command c cmd answers
  inside : near (x.users c).ipHash = true
  outside : c ∉ x.crowd near
  online : (x.act cfg a).Online c
  enters : (∃ nick, namedNick cfg x a = some (c, nick)) ∨
    acceptedPass cfg x a = some c ∧ (x.users c).hashed = false ∧ x.hasGhost near c = false

variable (cfg a) in
theorem act_crowd (wf : WellFormed x) (present : Present x) (near : IpHash → Bool) :
    ((x.act cfg a).crowd near).length ≤ (x.crowd near).length ∨
      (∃ c, OneMore cfg x a near c) ∧
        ((x.act cfg a).crowd near).length ≤ (x.crowd near).length + 1 := by
  have present' : Present (x.act cfg a) := act_present wf present a
  have nodup := crowd_nodup present' near
  by_cases sub : (x.act cfg a).crowd near ⊆ x.crowd near
  · exact .inl (List.subperm_of_subset nodup sub).length_le
  obtain ⟨c, mem, outside⟩ : ∃ c ∈ (x.act cfg a).crowd near, c ∉ x.crowd near := by
    simpa [List.subset_def] using sub
  obtain ⟨cmd, answers, event, inside, enters⟩ := act_crowd_sub wf present mem outside
  have online := ((mem_crowd (act_present wf present a)).mp mem).1
  have others : ((x.act cfg a).crowd near).erase c ⊆ x.crowd near := by
    intro d other
    obtain ⟨differs, mem'⟩ := (nodup.mem_erase_iff).mp other
    by_contra outside'
    obtain ⟨cmd', answers', event', -⟩ := act_crowd_sub wf present mem' outside'
    rw [event] at event'
    exact differs (Action.command.inj event').1.symm
  have length := List.length_erase_of_mem mem
  have pos := List.length_pos_of_mem mem
  have fewer := (List.subperm_of_subset (nodup.erase c) others).length_le
  have more : ((x.act cfg a).crowd near).length ≤ (x.crowd near).length + 1 := by omega
  rcases enters with named | accepted
  · exact .inr ⟨⟨c, ⟨cmd, answers, event⟩, inside, outside, online, .inl named⟩, more⟩
  have new : (x.users c).hashed = false := by
    obtain ⟨r, pass, compared, -⟩ := compared_of_acceptedPass accepted
    by_contra hashed
    refine outside ((mem_crowd present).mpr ⟨⟨?_, by simpa using hashed⟩, inside⟩)
    rw [compared.state]
    rfl
  cases ghost : x.hasGhost near c with
  | false =>
    exact .inr ⟨⟨c, ⟨cmd, answers, event⟩, inside, outside, online,
      .inr ⟨accepted, new, ghost⟩⟩, more⟩
  | true =>
    left
    obtain ⟨other, holder, member⟩ := hasGhost_iff.mp ghost
    obtain ⟨differs, past⟩ := act_ghost wf accepted new holder
    have gone : ((x.act cfg a).crowd near).erase c ⊆ (x.crowd near).erase other := by
      intro d inside'
      refine (List.mem_erase_of_ne ?_).mpr (others inside')
      rintro rfl
      have online' := ((mem_crowd (act_present wf present a)).mp (List.mem_of_mem_erase inside')).1
      exact absurd (online'.1.symm.trans past) (by simp)
    have fewer := (List.subperm_of_subset (nodup.erase c) gone).length_le
    have length' := List.length_erase_of_mem member
    have pos' := List.length_pos_of_mem member
    omega

/-! ## Runs -/

/-- The limits hold. -/
structure LimitInv (lim : Limits) (h : Hub) : Prop where
  present : Present h
  index : IndexInv h
  users : h.onlineUsers.length ≤ lim.maxUsers
  addresses : ∀ ip, (h.onlineFrom ip).length ≤ lim.maxConnSameIp

/-- The answers are right, no connection in the index names another nick, and nobody comes in
who needn't keep to a limit. -/
def KeepsLimits (cfg : Config) (lim : Limits) (h : Hub) (e : Event) : Prop :=
  counts cfg lim (h.advance e) e.action = true ∧ namesOnce cfg (h.advance e) e.action = true ∧
    letsOneMore cfg lim (h.advance e) e.action = false ∧
    takesOneMore cfg lim (h.advance e) e.action = false

instance (cfg : Config) (lim : Limits) (h : Hub) (e : Event) : Decidable (KeepsLimits cfg lim h e) :=
  inferInstanceAs (Decidable (_ ∧ _))

/-- The counter of an address tells how many users are online from it. -/
theorem onlineFrom_count (index : IndexInv x) (present : Present x) (ip : IpHash) :
    (x.hash.getUserIpCount ip).toNat = (x.onlineFrom ip).length := by
  obtain ⟨l, nodup, elements, -, -, count⟩ := index.index.chain_count index.small ip
  have same : l.Perm (x.onlineFrom ip) := by
    refine (List.perm_ext_iff_of_nodup nodup (crowd_nodup present _)).mpr fun c => ?_
    rw [elements, mem_crowd present]
    simp
  rw [count, same.length_eq]

theorem OneMore.lets {near : IpHash → Bool} (more : OneMore cfg x (.command c cmd answers) near c)
    {nick : Text} (named : namedNick cfg x (.command c cmd answers) = some (c, nick)) :
    lets cfg answers (x.findReg nick) (x.users c).pinger = true := by
  by_contra turned
  have past := act_turned named (Bool.eq_false_iff.mpr turned)
  exact absurd (more.online.1.symm.trans past) (by simp)

/-- Whoever is one more user of the hub finds room. -/
theorem OneMore.users {lim : Limits} (more : OneMore cfg x a (fun _ => true) c)
    (present : Present x) (right : counts cfg lim x a = true)
    (exempt : letsOneMore cfg lim x a = false) (takes : takesOneMore cfg lim x a = false) :
    x.onlineUsers.length < lim.maxUsers := by
  obtain ⟨cmd, answers, rfl⟩ := more.event
  rcases more.enters with ⟨nick, named⟩ | ⟨accepted, new, alone⟩
  · have passes := more.lets named
    simp only [Hub.lets, Bool.and_eq_true, Bool.or_eq_true, Bool.not_eq_true'] at passes
    rcases passes.1.1 with (free | pinger) | full
    · simp only [letsOneMore, named, free] at exempt
      by_contra reached
      simp [Nat.not_lt.mp reached] at exempt
    · simp only [letsOneMore, named, pinger] at exempt
      by_contra reached
      simp [Nat.not_lt.mp reached] at exempt
    · simp only [counts, named, Option.isNone_some, Bool.false_or, Bool.and_eq_true,
        decide_eq_true_eq] at right
      have room : x.userList.length ≤ lim.maxUsers := by
        have := right.1
        rw [full] at this
        simpa using this.symm
      have live : (x.users c).state.isPastLogin = false := by
        rw [validate_of_named named]
        rfl
      -- the user itself counts already, and is not online
      have fewer : (c :: x.onlineUsers).length ≤ x.userList.length := by
        refine (List.subperm_of_subset (List.nodup_cons.mpr ⟨more.outside, crowd_nodup present _⟩)
          fun d mem => ?_).length_le
        rcases List.mem_cons.mp mem with rfl | online
        · exact present.live d live
        · exact List.mem_of_mem_filter online
      rw [List.length_cons] at fewer
      omega
  · simp only [takesOneMore, accepted, new, alone] at takes
    by_contra reached
    simp [Nat.not_lt.mp reached] at takes

/-- Whoever is one more user of an address finds room. -/
theorem OneMore.address {lim : Limits} {ip : IpHash} (more : OneMore cfg x a (· = ip) c)
    (index : IndexInv x) (present : Present x) (right : counts cfg lim x a = true)
    (exempt : letsOneMore cfg lim x a = false) (takes : takesOneMore cfg lim x a = false) :
    (x.onlineFrom ip).length < lim.maxConnSameIp := by
  obtain ⟨cmd, answers, rfl⟩ := more.event
  have here : (x.users c).ipHash = ip := by simpa using more.inside
  rcases more.enters with ⟨nick, named⟩ | ⟨accepted, new, alone⟩
  · have passes := more.lets named
    simp only [Hub.lets, Bool.and_eq_true, Bool.or_eq_true, Bool.not_eq_true'] at passes
    rcases passes.1.2 with free | full
    · simp only [letsOneMore, named, free, here] at exempt
      by_contra reached
      simp [Nat.not_lt.mp reached] at exempt
    · simp only [counts, named, Option.isNone_some, Bool.false_or, Bool.and_eq_true,
        decide_eq_true_eq, here] at right
      rw [onlineFrom_count index present, full] at right
      simpa using right.2.symm
  · simp only [takesOneMore, accepted, new, here, alone] at takes
    by_contra reached
    simp [Nat.not_lt.mp reached] at takes

theorem act_limits {lim : Limits} (inv : LimitInv lim x) (right : counts cfg lim x a = true)
    (exempt : letsOneMore cfg lim x a = false) (takes : takesOneMore cfg lim x a = false) :
    (x.act cfg a).onlineUsers.length ≤ lim.maxUsers ∧
      ∀ ip, ((x.act cfg a).onlineFrom ip).length ≤ lim.maxConnSameIp := by
  constructor
  · rcases act_crowd cfg a inv.index.wf inv.present fun _ => true with
      fewer | ⟨⟨c, more⟩, length⟩
    · exact Nat.le_trans fewer inv.users
    · exact Nat.le_trans length (more.users inv.present right exempt takes)
  · intro ip
    rcases act_crowd cfg a inv.index.wf inv.present (· = ip) with
      fewer | ⟨⟨c, more⟩, length⟩
    · exact Nat.le_trans fewer (inv.addresses ip)
    · exact Nat.le_trans length (more.address inv.index inv.present right exempt takes)

theorem step_limitInv {lim : Limits} (few : lim.maxConnSameIp < 65535) (inv : LimitInv lim x)
    (e : Event) (keeps : KeepsLimits cfg lim x e) : LimitInv lim (step cfg x e) := by
  obtain ⟨right, once, exempt, takes⟩ := keeps
  have wf := advance_wellFormed inv.index.wf e
  have present : Present (x.advance e) := ⟨inv.present.nodup, inv.present.born, inv.present.live⟩
  have room : roomy x e.action = true := by
    unfold roomy
    split
    · rename_i c cmd answers event
      have count := onlineFrom_count inv.index inv.present (x.users c).ipHash
      have short := inv.addresses (x.users c).ipHash
      simp only [ne_eq, decide_not, Bool.not_eq_true', decide_eq_false_iff_not]
      intro full
      rw [full] at count
      have : (65535 : UInt16).toNat = 65535 := rfl
      omega
    · rfl
  have index := step_indexInv inv.index e ⟨once, room⟩
  have now : LimitInv lim (x.advance e) :=
    ⟨present, ⟨wf, inv.index.index.of_keys rfl fun _ => rfl, inv.index.small⟩, inv.users,
      inv.addresses⟩
  obtain ⟨users, addresses⟩ := act_limits now right exempt takes
  exact ⟨act_present wf present e.action, index, users, addresses⟩

/-- Bob is online from one address and comes again from the address 5. While he is asked for
his password Ann comes from there too. -/
def bobReturnsLate : List Event :=
  arrival 0 (ascii "$Supports QuickList|") ++ [bobNames, ⟨0, .command 0 (ascii "$MyPass pass|") {}⟩,
    ⟨0, .accept [] 5 false⟩, ⟨0, .receive 1 {}⟩,
    ⟨0, .command 1 (ascii "$Supports QuickList|") {}⟩,
    ⟨0, .command 1 (ascii "$MyINFO $ALL Bob x$ $56K$$0$|") {}⟩,
    ⟨0, .accept [] 5 false⟩, ⟨0, .receive 2 {}⟩,
    ⟨0, .command 2 (ascii "$Supports QuickList|") {}⟩,
    ⟨0, .command 2 (ascii "$MyINFO $ALL ann x$ $56K$$0$|") {}⟩,
    ⟨0, .command 1 (ascii "$MyPass pass|") {}⟩]

-- No profile is exempt, and the address has one user more than it may have.
example :
    Allowed (step .plain)
      (fun h e => counts .plain ⟨9, 1⟩ (h.advance e) e.action = true ∧
        letsOneMore .plain ⟨9, 1⟩ (h.advance e) e.action = false) (start .plain bobsRegs)
      bobReturnsLate ∧
    (reach .plain bobsRegs bobReturnsLate).onlineFrom 5 = [1, 2] := by
  decide +kernel

end

end Hub

end FlyHub.Session
