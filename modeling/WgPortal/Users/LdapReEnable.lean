import WgPortal.Users.LdapSync

/-! Which users a synchronisation with a directory enables, and what it says of it. -/

namespace WgPortal.Users

open Domain Library Adapters App Auth Program
open UserProgram (issue)

/-- The synchronisation may enable such a user, who was disabled as missing. -/
def mayEnable (provider : LdapProvider) (u : User) : Bool :=
  provider.autoReEnable && u.disabledReason = disabledReasonLdapMissing

def enables (id : UserIdentifier) : UserEvent → Bool
  | .userEnabled user => user.identifier = id
  | _ => false

/-- How often it was published that the user is enabled -/
def announced (s : World) (id : UserIdentifier) : ℕ := s.events.countP (enables id)

def turnedOn : Option User → Option User → Bool
  | some u, some v => u.isDisabled && !v.isDisabled
  | _, _ => false

/-- Only users who may be enabled are, and it is published of each of them, and of no other. -/
structure Respects (provider : LdapProvider) (s t : World) : Prop where
  permitted : ∀ id u, s.users.find id = some u → u.isDisabled = true → mayEnable provider u = true ∨
    ∃ v, t.users.find id = some v ∧ v.isDisabled = true
  published : ∀ id, announced t id =
    announced s id + if turnedOn (s.users.find id) (t.users.find id) then 1 else 0

section Directory

variable {DN : Type} (server : LdapServer DN) (lowerRune : Char → Char) (provider : LdapProvider)

/-- The entry differs from a disabled user who is not to be enabled. -/
def Clears (adminGroupDN : DN) (rawUser : RawUserInfo) (u : User) : Prop :=
  u.source = .ldap ∧ u.isDisabled = true ∧ mayEnable provider u = false ∧ ∃ now user,
    convertRawLdapUser server lowerRune provider.providerName rawUser provider.fieldMap
      adminGroupDN now = .ok user ∧ userChangedInLdap u (withDisabled provider u user) = true

/-- No entry differs so from the stored user of its identifier. -/
def Harmless (adminGroupDN : DN) (rawUsers : List RawUserInfo) (users : Table User.identifier) :
    Prop :=
  ∀ rawUser ∈ rawUsers, ∀ u, users.find (ldapIdentifier provider.fieldMap rawUser) = some u →
    ¬ Clears server lowerRune provider adminGroupDN rawUser u

end Directory

/-- What becomes of a user, and how often it is published that the user is enabled. -/
inductive Fate (provider : LdapProvider) : Option User → Option User → ℕ → Prop
  | absent : Fate provider none none 0
  | created {v : User} (active : v.isDisabled = false) : Fate provider none (some v) 0
  | kept {u : User} : Fate provider (some u) (some u) 0
  | active {u v : User} (before : u.isDisabled = false) (after : v.isDisabled = false) :
    Fate provider (some u) (some v) 0
  | enabled {u v : User} (before : u.isDisabled = true) (may : mayEnable provider u = true)
    (after : v.isDisabled = false) : Fate provider (some u) (some v) 1

/-- Every user has such a fate. -/
def Evolves (provider : LdapProvider) (s t : World) : Prop :=
  ∀ id, ∃ k, Fate provider (s.users.find id) (t.users.find id) k ∧
    announced t id = announced s id + k

/-- Nothing is published of users who are enabled. -/
def Silent (s t : World) : Prop := ∀ id, announced t id = announced s id

variable {provider : LdapProvider} {s t u : World}

theorem Fate.trans {a b c : Option User} {k l : ℕ} (first : Fate provider a b k)
    (second : Fate provider b c l) : Fate provider a c (k + l) := by
  cases first with
  | absent =>
    rw [Nat.zero_add]
    exact second
  | created active =>
    cases second with
    | kept => exact .created active
    | active _ after => exact .created after
    | enabled before => cases active.symm.trans before
  | kept =>
    rw [Nat.zero_add]
    exact second
  | active before active =>
    cases second with
    | kept => exact .active before active
    | active _ after => exact .active before after
    | enabled before' => cases active.symm.trans before'
  | enabled before may active =>
    cases second with
    | kept => exact .enabled before may active
    | active _ after => exact .enabled before may after
    | enabled before' => cases active.symm.trans before'

theorem Silent.refl : Silent s s := fun _ => rfl

theorem Silent.trans (first : Silent s t) (second : Silent t u) : Silent s u :=
  fun id => (second id).trans (first id)

theorem Evolves.of_same (same : t.users = s.users) (silent : Silent s t) :
    Evolves provider s t := by
  intro id
  refine ⟨0, ?_, silent id⟩
  rw [same]
  cases s.users.find id with
  | none => exact .absent
  | some u => exact .kept

theorem Evolves.trans (first : Evolves provider s t) (second : Evolves provider t u) :
    Evolves provider s u := by
  intro id
  obtain ⟨k, fate, count⟩ := first id
  obtain ⟨l, fate', count'⟩ := second id
  exact ⟨k + l, fate.trans fate', by rw [count', count, Nat.add_assoc]⟩

/-- A disabled user who may not be enabled was like that before. -/
theorem Fate.protected {a : Option User} {v : User} {k : ℕ} (fate : Fate provider a (some v) k)
    (disabled : v.isDisabled = true) : a = some v := by
  cases fate with
  | created active => cases active.symm.trans disabled
  | kept => rfl
  | active _ after => cases after.symm.trans disabled
  | enabled _ _ after => cases after.symm.trans disabled

/-- An operation that does not announce an enabled user. -/
def Quiet : UserOp → Prop
  | .publish (.userEnabled _) => False
  | _ => True

theorem Step.silent {op : UserOp} {answer : op.Res} (step : Step op s answer t) (quiet : Quiet op) :
    Silent s t := by
  obtain ⟨c, run⟩ := step
  have after : t = (op.exec c s).2 := by rw [run]
  rw [after]
  intro id
  cases op with
  | repo op =>
    cases fault : c.fault with
    | some text => simp only [UserOp.exec, fault]
    | none => simp only [UserOp.exec, fault]; rfl
  | timeNow => rfl
  | newUuid => rfl
  | publish event =>
    simp only [UserOp.exec, announced, List.countP_append]
    cases event with
    | userEnabled => cases quiet
    | _ => rfl

theorem Step.enabled {user : User} {answer : Unit}
    (step : Step (.publish (.userEnabled user)) s answer t) (id : UserIdentifier) :
    announced t id = announced s id + if user.identifier = id then 1 else 0 := by
  obtain ⟨c, run⟩ := step
  have after : t = (UserOp.exec c (.publish (.userEnabled user)) s).2 := by rw [run]
  rw [after]
  simp only [UserOp.exec, announced, List.countP_append, List.countP_cons, List.countP_nil, enables,
    decide_eq_true_eq, Nat.zero_add]

theorem always_silent {α : Type} {prog : UserProgram α} (uses : prog.Uses Quiet) :
    prog.Always Step s fun _ t => Silent s t :=
  uses.always (fun _ _ _ _ quiet before step => before.trans (step.silent quiet)) .refl

theorem quiet_repoSaveUser (ui : ContextUserInfo) (id : UserIdentifier)
    (f : User → Except Error User) : (repoSaveUser ui id f).Uses Quiet := by
  refine ⟨trivial, fun answer => ?_⟩
  cases answer with
  | error err => trivial
  | ok user =>
    dsimp only [Program.bind]
    cases f user with
    | error err => trivial
    | ok user => exact ⟨trivial, fun _ => trivial⟩

theorem quiet_createUser (m : Manager) (ui : ContextUserInfo) (user : User) :
    (m.createUser ui user).Uses Quiet := by
  unfold Manager.createUser
  split
  · trivial
  · cases validateAdminAccessRights ui with
    | error err => trivial
    | ok _ =>
      refine ⟨trivial, fun answer => ?_⟩
      cases answer with
      | ok found => trivial
      | error err =>
        show Uses Quiet (if !err.is .notFound then _ else _)
        split
        · trivial
        · cases m.validateCreation ui user with
          | error err => trivial
          | ok _ =>
            unfold Manager.saveCreated
            cases user.hashPassword m.bcrypt with
            | error err => trivial
            | ok user =>
              refine (quiet_repoSaveUser _ _ _).bind fun r => ?_
              cases r with
              | error err => trivial
              | ok u => exact ⟨trivial, fun _ => trivial⟩

section Rounds

variable {DN : Type} {server : LdapServer DN} {lowerRune : Char → Char} {m : Manager}
  {adminGroupDN : DN} {rawUser : RawUserInfo} {rawUsers : List RawUserInfo}

/-- How the round of an entry may end -/
inductive RoundOutcome (server : LdapServer DN) (lowerRune : Char → Char) (provider : LdapProvider)
    (adminGroupDN : DN) (rawUser : RawUserInfo) (s : World) : Except Error Unit → World → Prop
  | failed {err : Error} {t : World} (same : t.users = s.users) (silent : Silent s t) :
    RoundOutcome server lowerRune provider adminGroupDN rawUser s (.error err) t
  | skipped {existing user : User} {now : Time} {t : World}
    (converted : convertRawLdapUser server lowerRune provider.providerName rawUser
      provider.fieldMap adminGroupDN now = .ok user)
    (found : s.users.find (ldapIdentifier provider.fieldMap rawUser) = some existing)
    (unchanged : ¬ (existing.source = .ldap ∧
      userChangedInLdap existing (withDisabled provider existing user) = true))
    (same : t.users = s.users) (silent : Silent s t) :
    RoundOutcome server lowerRune provider adminGroupDN rawUser s (.ok ()) t
  | created {v : User} {t : World}
    (new : s.users.find (ldapIdentifier provider.fieldMap rawUser) = none)
    (named : v.identifier = ldapIdentifier provider.fieldMap rawUser)
    (active : v.isDisabled = false) (stored : t.users = s.users.upsert (row v))
    (silent : Silent s t) :
    RoundOutcome server lowerRune provider adminGroupDN rawUser s (.ok ()) t
  | saved {existing user v : User} {now : Time} {t : World}
    (converted : convertRawLdapUser server lowerRune provider.providerName rawUser
      provider.fieldMap adminGroupDN now = .ok user)
    (found : s.users.find (ldapIdentifier provider.fieldMap rawUser) = some existing)
    (source : existing.source = .ldap)
    (changed : userChangedInLdap existing (withDisabled provider existing user) = true)
    (named : v.identifier = ldapIdentifier provider.fieldMap rawUser)
    (active : v.isDisabled = false) (stored : t.users = s.users.upsert (row v))
    (count : ∀ id, announced t id = announced s id +
      if (existing.isDisabled && !(withDisabled provider existing user).isDisabled) = true ∧
        ldapIdentifier provider.fieldMap rawUser = id then 1 else 0) :
    RoundOutcome server lowerRune provider adminGroupDN rawUser s (.ok ()) t

/-- Nothing but the time was read before the round. -/
theorem RoundOutcome.after {r : Except Error Unit}
    (outcome : RoundOutcome server lowerRune provider adminGroupDN rawUser s r u)
    (same : s.users = t.users) (silent : Silent t s) :
    RoundOutcome server lowerRune provider adminGroupDN rawUser t r u := by
  cases outcome with
  | failed same' silent' => exact .failed (same'.trans same) (silent.trans silent')
  | skipped converted found unchanged same' silent' =>
    exact .skipped converted (same ▸ found) unchanged (same'.trans same) (silent.trans silent')
  | created new named active stored silent' =>
    exact .created (same ▸ new) named active (same ▸ stored) (silent.trans silent')
  | saved converted found source changed named active stored count =>
    refine .saved converted (same ▸ found) source changed named active (same ▸ stored) fun id => ?_
    rw [count id, silent id]

theorem convert_spec {now : Time} {user : User}
    (converted : convertRawLdapUser server lowerRune provider.providerName rawUser
      provider.fieldMap adminGroupDN now = .ok user) :
    user.identifier = ldapIdentifier provider.fieldMap rawUser ∧ user.disabled = none := by
  unfold convertRawLdapUser at converted
  split at converted
  · split at converted
    · cases converted
    · rw [← Except.ok.inj converted]
      exact ⟨rfl, rfl⟩
  · cases converted

theorem withDisabled_identifier (existing user : User) :
    (withDisabled provider existing user).identifier = user.identifier := by
  unfold withDisabled
  split <;> rfl

theorem always_updateExistingLdapUser {existing user : User} {now : Time}
    (converted : convertRawLdapUser server lowerRune provider.providerName rawUser
      provider.fieldMap adminGroupDN now = .ok user)
    (found : s.users.find (ldapIdentifier provider.fieldMap rawUser) = some existing) :
    (Manager.updateExistingLdapUser existing (withDisabled provider existing user)).Always Step s
      (RoundOutcome server lowerRune provider adminGroupDN rawUser s) := by
  have named : (withDisabled provider existing user).identifier =
      ldapIdentifier provider.fieldMap rawUser :=
    (withDisabled_identifier existing user).trans (convert_spec converted).1
  unfold Manager.updateExistingLdapUser
  by_cases changed : existing.source = .ldap ∧
      userChangedInLdap existing (withDisabled provider existing user) = true
  · rw [if_pos (by simpa using changed)]
    intro later s' read
    have same : s'.users = s.users := read.timeNow
    have silent : Silent s s' := read.silent trivial
    rw [named]
    have saving := @always_repoSaveUser systemAdminContextUserInfo s'
      (ldapIdentifier provider.fieldMap rawUser)
      (synced (withDisabled provider existing user) later)
    refine (saving.and (always_silent (quiet_repoSaveUser _ _ _))).bind fun r t ⟨saves, quiet⟩ => ?_
    have silent := silent.trans quiet
    cases r with
    | error err => exact .failed ((saves : t.users = s'.users).trans same) silent
    | ok v =>
      obtain ⟨⟨at', now', made⟩, stored⟩ := saves
      have read' : s'.getOrCreateUser systemAdminContextUserInfo.id now'
          (ldapIdentifier provider.fieldMap rawUser) =
            { existing with webAuthnCredentialList := [] } := by
        simp only [World.getOrCreateUser, same, found]
      rw [read'] at made
      rw [same] at stored
      have key : v.identifier = ldapIdentifier provider.fieldMap rawUser := by
        have key' : existing.identifier = ldapIdentifier provider.fieldMap rawUser :=
          Table.key_of_find found
        rw [made]
        exact key'
      have active : v.isDisabled = false := by
        rw [made]
        rfl
      dsimp only
      split
      · rename_i turned
        intro _ t' published
        refine .saved converted found changed.1 changed.2 key active
          (published.publish.trans stored) fun id => ?_
        rw [published.enabled id, silent id, named]
        simp only [turned, true_and]
      · rename_i not
        refine .saved converted found changed.1 changed.2 key active stored
          fun id => ?_
        rw [silent id, if_neg fun both => not both.1, Nat.add_zero]
  · rw [if_neg (by simpa using changed)]
    exact .skipped converted found changed rfl .refl

theorem always_updateLdapUser (adminGroupDN : DN) (rawUser : RawUserInfo) :
    (m.updateLdapUser server lowerRune provider adminGroupDN rawUser).Always Step s
      (RoundOutcome server lowerRune provider adminGroupDN rawUser s) := by
  unfold Manager.updateLdapUser
  intro now s' read
  have same : s'.users = s.users := read.timeNow
  have silent : Silent s s' := read.silent trivial
  dsimp only [Program.bind]
  cases converted : convertRawLdapUser server lowerRune provider.providerName rawUser
      provider.fieldMap adminGroupDN now with
  | error err =>
    dsimp only
    split <;> exact .failed same silent
  | ok user =>
    have named := (convert_spec converted).1
    intro answer t find
    obtain ⟨rfl, stored⟩ := find.getUser
    cases answer with
    | ok existing =>
      have found := stored existing rfl
      rw [named] at found
      refine (always_updateExistingLdapUser converted found).mono fun r t' outcome => ?_
      exact outcome.after same silent
    | error err =>
      show Always Step (if !err.is .notFound then _ else _) _ _
      split
      · exact .failed same silent
      · rename_i is
        have absent := find.notFound (by simpa using is)
        rw [named, same] at absent
        have creating := @always_createUser m systemAdminContextUserInfo t user
        refine (creating.and (always_silent (quiet_createUser m _ user))).bind
          fun r t' ended => ?_
        obtain ⟨saves, quiet⟩ := ended
        have silent := silent.trans quiet
        cases r with
        | error err => exact .failed ((saves : t'.users = t.users).trans same) silent
        | ok v =>
          obtain ⟨⟨_, base, n, password, made⟩, stored⟩ := saves
          rw [same] at stored
          have key : v.identifier = ldapIdentifier provider.fieldMap rawUser := by
            rw [made]
            exact named
          have active : v.isDisabled = false := by
            rw [made]
            simp only [User.isDisabled, (convert_spec converted).2, Option.isSome_none]
          exact .created absent key active stored silent

theorem withDisabled_isDisabled (existing user : User) :
    (withDisabled provider existing user).isDisabled =
      (existing.isDisabled && !mayEnable provider existing) := by
  unfold withDisabled
  cases may : mayEnable provider existing with
  | true =>
    rw [mayEnable] at may
    rw [if_pos may, Bool.not_true, Bool.and_false]
    rfl
  | false =>
    rw [mayEnable] at may
    rw [if_neg (by rw [may]; exact Bool.false_ne_true), Bool.not_false, Bool.and_true]
    rfl

theorem find_stored {users : Table User.identifier} {v : User} {key : UserIdentifier}
    (named : v.identifier = key) (id : UserIdentifier) :
    (users.upsert (row v)).find id = if key = id then some (row v) else users.find id := by
  rw [find_store, named]

theorem find_active {users : Table User.identifier} {v : User} {key : UserIdentifier}
    (named : v.identifier = key) (active : v.isDisabled = false) :
    ∃ v', (users.upsert (row v)).find key = some v' ∧ v'.isDisabled = false :=
  ⟨row v, by rw [find_stored named, if_pos rfl], active⟩

theorem RoundOutcome.find_of_ne {r : Except Error Unit}
    (outcome : RoundOutcome server lowerRune provider adminGroupDN rawUser s r t)
    {id : UserIdentifier} (ne : ldapIdentifier provider.fieldMap rawUser ≠ id) :
    t.users.find id = s.users.find id := by
  cases outcome with
  | failed same silent => rw [same]
  | skipped converted found unchanged same silent => rw [same]
  | created new named active stored silent => rw [stored, find_stored named, if_neg ne]
  | saved converted found source changed named active stored count =>
    rw [stored, find_stored named, if_neg ne]

/-- Nobody is disabled by the round of an entry. -/
theorem RoundOutcome.stays {r : Except Error Unit}
    (outcome : RoundOutcome server lowerRune provider adminGroupDN rawUser s r t)
    {id : UserIdentifier} {v : User} (found : s.users.find id = some v)
    (active : v.isDisabled = false) : ∃ v', t.users.find id = some v' ∧ v'.isDisabled = false := by
  by_cases here : ldapIdentifier provider.fieldMap rawUser = id
  · cases outcome with
    | failed same silent => exact ⟨v, by rw [same, found], active⟩
    | skipped converted found' unchanged same silent => exact ⟨v, by rw [same, found], active⟩
    | created new named active' stored silent =>
      rw [stored, ← here]
      exact find_active named active'
    | saved converted found' source changed named active' stored count =>
      rw [stored, ← here]
      exact find_active named active'
  · exact ⟨v, (outcome.find_of_ne here).trans found, active⟩

theorem changed_of_converted {u user user' : User} {now now' : Time}
    (converted : convertRawLdapUser server lowerRune provider.providerName rawUser
      provider.fieldMap adminGroupDN now = .ok user)
    (converted' : convertRawLdapUser server lowerRune provider.providerName rawUser
      provider.fieldMap adminGroupDN now' = .ok user') :
    userChangedInLdap u (withDisabled provider u user) =
      userChangedInLdap u (withDisabled provider u user') := by
  have same : user = { user' with base := user.base } := by
    unfold convertRawLdapUser at converted converted'
    split at converted
    · rename_i groups raw
      simp only [raw] at converted'
      cases member : ldapIsMemberOf server adminGroupDN groups with
      | error err =>
        rw [member] at converted
        cases converted
      | ok isAdmin =>
        rw [member] at converted converted'
        rw [← Except.ok.inj converted, ← Except.ok.inj converted']
    · cases converted
  rw [same]
  unfold withDisabled
  split <;> rfl

/-- A user whose entry differs is enabled, whether or not it may be. -/
theorem RoundOutcome.cleared {u : User}
    (outcome : RoundOutcome server lowerRune provider adminGroupDN rawUser s (.ok ()) t)
    (found : s.users.find (ldapIdentifier provider.fieldMap rawUser) = some u)
    (clears : Clears server lowerRune provider adminGroupDN rawUser u) :
    ∃ v, t.users.find (ldapIdentifier provider.fieldMap rawUser) = some v ∧
      v.isDisabled = false := by
  obtain ⟨source, _, _, now, user, converted, changed⟩ := clears
  cases outcome with
  | skipped converted' found' unchanged same silent =>
    obtain rfl := Option.some.inj (found.symm.trans found')
    exact absurd ⟨source, changed_of_converted converted converted' ▸ changed⟩ unchanged
  | created new => cases new.symm.trans found
  | saved converted' found' source' changed' named active stored count =>
    rw [stored]
    exact find_active named active

theorem RoundOutcome.evolves {r : Except Error Unit}
    (outcome : RoundOutcome server lowerRune provider adminGroupDN rawUser s r t)
    (harmless : Harmless server lowerRune provider adminGroupDN [rawUser] s.users) :
    Evolves provider s t := by
  cases outcome with
  | failed same silent => exact .of_same same silent
  | skipped converted found unchanged same silent => exact .of_same same silent
  | created new named active stored silent =>
    intro id
    refine ⟨0, ?_, silent id⟩
    rw [stored, find_stored named]
    split
    · rename_i here
      rw [← here, new]
      exact .created active
    · cases s.users.find id with
      | none => exact .absent
      | some u => exact .kept
  | saved converted found source changed named active stored count =>
    rename_i existing user v now
    intro id
    rw [count id, stored, find_stored named, withDisabled_isDisabled]
    by_cases here : ldapIdentifier provider.fieldMap rawUser = id
    · rw [if_pos here, ← here, found]
      cases disabled : existing.isDisabled with
      | false => exact ⟨0, .active disabled active, by simp⟩
      | true =>
        cases may : mayEnable provider existing with
        | true => exact ⟨1, .enabled disabled may active, by simp⟩
        | false =>
          refine absurd ?_ (harmless rawUser List.mem_cons_self existing found)
          exact ⟨source, disabled, may, now, user, converted, changed⟩
    · rw [if_neg here, if_neg fun both => here both.2]
      refine ⟨0, ?_, rfl⟩
      cases s.users.find id with
      | none => exact .absent
      | some u => exact .kept

/-- The round leaves a user as it was, or enabled. -/
theorem RoundOutcome.same_or_active
    (outcome : RoundOutcome server lowerRune provider adminGroupDN rawUser s (.ok ()) t)
    {id : UserIdentifier} {u : User} (found : s.users.find id = some u) :
    t.users.find id = some u ∨ ∃ v, t.users.find id = some v ∧ v.isDisabled = false := by
  by_cases here : ldapIdentifier provider.fieldMap rawUser = id
  · rw [← here] at found ⊢
    cases outcome with
    | skipped converted found' unchanged same silent => exact .inl (by rw [same, found])
    | created new => cases new.symm.trans found
    | saved converted found' source changed named active stored count =>
      rw [stored]
      exact .inr (find_active named active)
  · exact .inl ((outcome.find_of_ne here).trans found)

/-- How the rounds of the entries may end -/
structure LoopOutcome (server : LdapServer DN) (lowerRune : Char → Char) (provider : LdapProvider)
    (adminGroupDN : DN) (rawUsers : List RawUserInfo) (s : World) (r : Except Error Unit)
    (t : World) : Prop where
  evolves : Harmless server lowerRune provider adminGroupDN rawUsers s.users → Evolves provider s t
  unlisted : ∀ id, (∀ rawUser ∈ rawUsers, ldapIdentifier provider.fieldMap rawUser ≠ id) →
    t.users.find id = s.users.find id
  stays : ∀ id v, s.users.find id = some v → v.isDisabled = false →
    ∃ v', t.users.find id = some v' ∧ v'.isDisabled = false
  cleared : r = .ok () → ∀ rawUser ∈ rawUsers, ∀ u,
    s.users.find (ldapIdentifier provider.fieldMap rawUser) = some u →
    Clears server lowerRune provider adminGroupDN rawUser u →
    ∃ v, t.users.find (ldapIdentifier provider.fieldMap rawUser) = some v ∧ v.isDisabled = false

theorem harmless_later (evolves : Evolves provider s t)
    (harmless : Harmless server lowerRune provider adminGroupDN rawUsers s.users) :
    Harmless server lowerRune provider adminGroupDN rawUsers t.users := by
  intro rawUser listed u found clears
  obtain ⟨k, fate, _⟩ := evolves (ldapIdentifier provider.fieldMap rawUser)
  rw [found] at fate
  exact harmless rawUser listed u (fate.protected clears.2.1) clears

theorem RoundOutcome.loop {err : Error}
    (outcome : RoundOutcome server lowerRune provider adminGroupDN rawUser s (.error err) t) :
    LoopOutcome server lowerRune provider adminGroupDN (rawUser :: rawUsers) s (.error err) t := by
  refine ⟨fun harmless => ?_, fun id out => ?_, fun id v => outcome.stays, fun ok => by cases ok⟩
  · exact outcome.evolves fun raw here => harmless raw
      (List.mem_cons.mpr (.inl (List.mem_singleton.mp here)))
  · exact outcome.find_of_ne (out rawUser List.mem_cons_self)

theorem RoundOutcome.cons {r : Except Error Unit}
    (first : RoundOutcome server lowerRune provider adminGroupDN rawUser s (.ok ()) t)
    (rest : LoopOutcome server lowerRune provider adminGroupDN rawUsers t r u) :
    LoopOutcome server lowerRune provider adminGroupDN (rawUser :: rawUsers) s r u := by
  constructor
  · intro harmless
    have evolves : Evolves provider s t := first.evolves fun raw here => harmless raw
      (List.mem_cons.mpr (.inl (List.mem_singleton.mp here)))
    refine evolves.trans (rest.evolves (harmless_later evolves ?_))
    exact fun raw listed => harmless raw (List.mem_cons_of_mem rawUser listed)
  · intro id out
    rw [rest.unlisted id fun raw listed => out raw (List.mem_cons_of_mem rawUser listed)]
    exact first.find_of_ne (out rawUser List.mem_cons_self)
  · intro id v found active
    obtain ⟨v', found', active'⟩ := first.stays found active
    exact rest.stays id v' found' active'
  · intro ok raw listed x found clears
    rcases List.mem_cons.mp listed with rfl | later
    · obtain ⟨v, found', active⟩ := first.cleared found clears
      exact rest.stays _ v found' active
    · rcases first.same_or_active found with found' | ⟨v, found', active⟩
      · exact rest.cleared ok raw later x found' clears
      · exact rest.stays _ v found' active

theorem always_updateLdapUsers (rawUsers : List RawUserInfo) (s : World) :
    (m.updateLdapUsers server lowerRune provider adminGroupDN rawUsers).Always Step s
      (LoopOutcome server lowerRune provider adminGroupDN rawUsers s) := by
  induction rawUsers generalizing s with
  | nil =>
    have none : ∀ raw ∈ ([] : List RawUserInfo), False := fun raw listed => by cases listed
    exact ⟨fun _ => .of_same rfl .refl, fun _ _ => rfl, fun id v found active => ⟨v, found, active⟩,
      fun _ raw listed => (none raw listed).elim⟩
  | cons rawUser rawUsers ih =>
    unfold Manager.updateLdapUsers
    refine (always_updateLdapUser adminGroupDN rawUser).bind fun r t outcome => ?_
    cases r with
    | error err => exact outcome.loop
    | ok _ => exact (ih t).mono fun r u rest => outcome.cons rest

/-- Disabling the missing users leaves those of the entries as they are, and nobody is enabled. -/
structure MissingOutcome (provider : LdapProvider) (rawUsers : List RawUserInfo) (s t : World) :
    Prop where
  silent : Silent s t
  listed : ∀ rawUser ∈ rawUsers, t.users.find (ldapIdentifier provider.fieldMap rawUser) =
    s.users.find (ldapIdentifier provider.fieldMap rawUser)
  disabled : ∀ id u, s.users.find id = some u → u.isDisabled = true →
    ∃ v, t.users.find id = some v ∧ v.isDisabled = true

theorem MissingOutcome.of_same (same : t.users = s.users) (silent : Silent s t) :
    MissingOutcome provider rawUsers s t :=
  ⟨silent, fun raw _ => by rw [same], fun id u found disabled => ⟨u, by rw [same, found], disabled⟩⟩

theorem MissingOutcome.trans (first : MissingOutcome provider rawUsers s t)
    (second : MissingOutcome provider rawUsers t u) : MissingOutcome provider rawUsers s u := by
  refine ⟨first.silent.trans second.silent, fun raw here => ?_, fun id v found disabled => ?_⟩
  · exact (second.listed raw here).trans (first.listed raw here)
  · obtain ⟨v', found', disabled'⟩ := first.disabled id v found disabled
    exact second.disabled id v' found' disabled'

theorem always_disableMissingLdapUser (rawUsers : List RawUserInfo) (user : User) (s : World) :
    (Manager.disableMissingLdapUser provider rawUsers user).Always Step s
      fun _ t => MissingOutcome provider rawUsers s t := by
  have idle : MissingOutcome provider rawUsers s s := .of_same rfl .refl
  unfold Manager.disableMissingLdapUser
  split
  · exact idle
  · split
    · exact idle
    · split
      · exact idle
      · split
        · exact idle
        · rename_i absent
          intro now s' read
          have same : s'.users = s.users := read.timeNow
          have silent : Silent s s' := read.silent trivial
          have saving :=
            @always_repoSaveUser ldapSyncContextUserInfo s' user.identifier (missing now)
          refine (saving.and (always_silent (quiet_repoSaveUser _ _ _))).bind
            fun r t ⟨saves, quiet⟩ => ?_
          have silent := silent.trans quiet
          cases r with
          | error err => exact .of_same ((saves : t.users = s'.users).trans same) silent
          | ok v =>
            obtain ⟨⟨at', now', made⟩, stored⟩ := saves
            intro _ t' published
            have silent := silent.trans (published.silent trivial)
            have stored := published.publish.trans stored
            rw [same] at stored
            have named : v.identifier = user.identifier := by
              rw [made]
              show (s'.getOrCreateUser _ now' user.identifier).identifier = user.identifier
              unfold World.getOrCreateUser
              split
              · rename_i row found
                have key : row.identifier = user.identifier := Table.key_of_find found
                exact key
              · rfl
            have disabled : v.isDisabled = true := by
              rw [made]
              rfl
            refine ⟨silent, fun raw listed => ?_, fun id u found disabled' => ?_⟩
            · rw [stored, find_stored named, if_neg fun here => absent ?_]
              exact List.any_eq_true.mpr ⟨raw, listed, decide_eq_true here⟩
            · rw [stored, find_stored named]
              split
              · exact ⟨row v, rfl, disabled⟩
              · exact ⟨u, found, disabled'⟩

theorem always_disableMissingUsers (rawUsers : List RawUserInfo) (users : List User) (s : World) :
    (Manager.disableMissingUsers provider rawUsers users).Always Step s
      fun _ t => MissingOutcome provider rawUsers s t := by
  induction users generalizing s with
  | nil => exact .of_same rfl .refl
  | cons user users ih =>
    unfold Manager.disableMissingUsers
    refine (always_disableMissingLdapUser rawUsers user s).bind fun r t first => ?_
    cases r with
    | error err => exact first
    | ok _ => exact (ih t).mono fun r u rest => first.trans rest

theorem always_disableMissingLdapUsers (rawUsers : List RawUserInfo) (s : World) :
    (Manager.disableMissingLdapUsers provider rawUsers).Always Step s
      fun _ t => MissingOutcome provider rawUsers s t := by
  unfold Manager.disableMissingLdapUsers
  intro answer t read
  rcases read.repo with ⟨text, rfl, rfl⟩ | ⟨now, rfl, rfl⟩
  · exact .of_same rfl .refl
  · exact always_disableMissingUsers rawUsers _ s

/-- Without entries that do harm, both parts together do as they should. -/
theorem respects_of_evolves (evolves : Evolves provider s t)
    (unlisted : ∀ id, (∀ rawUser ∈ rawUsers, ldapIdentifier provider.fieldMap rawUser ≠ id) →
      t.users.find id = s.users.find id)
    (missing : MissingOutcome provider rawUsers t u) : Respects provider s u := by
  have fates : ∀ id, (∃ k, Fate provider (s.users.find id) (u.users.find id) k ∧
      announced u id = announced s id + k) ∨
      (announced u id = announced s id ∧ ∀ x, s.users.find id = some x → x.isDisabled = true →
        ∃ v, u.users.find id = some v ∧ v.isDisabled = true) := by
    intro id
    obtain ⟨k, fate, count⟩ := evolves id
    by_cases listed : ∃ rawUser ∈ rawUsers, ldapIdentifier provider.fieldMap rawUser = id
    · obtain ⟨rawUser, here, rfl⟩ := listed
      rw [← missing.listed rawUser here] at fate
      exact .inl ⟨k, fate, (missing.silent _).trans count⟩
    · have same := unlisted id fun rawUser here named => listed ⟨rawUser, here, named⟩
      rw [same] at fate
      have none : k = 0 := by
        generalize s.users.find id = a at fate
        cases fate with
        | enabled before may after => cases before.symm.trans after
        | _ => rfl
      refine .inr ⟨by rw [missing.silent id, count, none, Nat.add_zero], fun x found => ?_⟩
      exact missing.disabled id x (same.trans found)
  constructor
  · intro id x found disabled
    rcases fates id with ⟨k, fate, _⟩ | ⟨_, still⟩
    · rw [found] at fate
      generalize u.users.find id = b at fate
      cases fate with
      | kept => exact .inr ⟨x, rfl, disabled⟩
      | active before => cases before.symm.trans disabled
      | enabled _ may _ => exact .inl may
    · exact .inr (still x found disabled)
  · intro id
    rcases fates id with ⟨k, fate, count⟩ | ⟨count, still⟩
    · rw [count]
      congr 1
      generalize s.users.find id = a at fate
      generalize u.users.find id = b at fate
      cases fate with
      | absent | created => rfl
      | kept => simp [turnedOn]
      | active before after => simp [turnedOn, before]
      | enabled before may after => simp [turnedOn, before, after]
    · rw [count, if_neg, Nat.add_zero]
      cases found : s.users.find id with
      | none => simp [turnedOn]
      | some x =>
        cases disabled : x.isDisabled with
        | false => cases u.users.find id <;> simp [turnedOn, disabled]
        | true =>
          obtain ⟨v, found', disabled'⟩ := still x found disabled
          simp [turnedOn, found', disabled']

/-- How the two parts of a synchronisation may end -/
def SyncOutcome (server : LdapServer DN) (lowerRune : Char → Char) (provider : LdapProvider)
    (adminGroupDN : DN) (rawUsers : List RawUserInfo) (s : World) (r : Except Error Unit)
    (t : World) : Prop :=
  (Harmless server lowerRune provider adminGroupDN rawUsers s.users → Respects provider s t) ∧
    (r = .ok () → Respects provider s t →
      Harmless server lowerRune provider adminGroupDN rawUsers s.users)

theorem LoopOutcome.finish {r : Except Error Unit}
    (updates : LoopOutcome server lowerRune provider adminGroupDN rawUsers s r t)
    (missing : MissingOutcome provider rawUsers t u) :
    (Harmless server lowerRune provider adminGroupDN rawUsers s.users → Respects provider s u) ∧
      (r = .ok () → Respects provider s u →
        Harmless server lowerRune provider adminGroupDN rawUsers s.users) := by
  constructor
  · exact fun harmless => respects_of_evolves (updates.evolves harmless) updates.unlisted missing
  · intro ok respects rawUser listed x found clears
    obtain ⟨v, active, enabled⟩ := updates.cleared ok rawUser listed x found clears
    rw [← missing.listed rawUser listed] at active
    obtain ⟨_, disabled, may, _⟩ := clears
    rcases respects.permitted _ x found disabled with may' | ⟨v', found', still⟩
    · cases may.symm.trans may'
    · rw [Option.some.inj (found'.symm.trans active), enabled] at still
      cases still

theorem always_synchronizeWith (rawUsers : List RawUserInfo) (s : World) :
    (m.synchronizeWith server lowerRune provider adminGroupDN rawUsers).Always Step s
      (SyncOutcome server lowerRune provider adminGroupDN rawUsers s) := by
  unfold Manager.synchronizeWith
  refine (always_updateLdapUsers rawUsers s).bind fun r t updates => ?_
  cases r with
  | error err => exact ⟨(updates.finish (.of_same rfl .refl)).1, fun ok => by cases ok⟩
  | ok _ =>
    dsimp only
    split
    · refine (always_disableMissingLdapUsers rawUsers t).mono fun r u missing => ?_
      exact ⟨(updates.finish missing).1, fun _ => (updates.finish missing).2 rfl⟩
    · have finished := updates.finish (.of_same rfl .refl)
      exact ⟨finished.1, fun _ => finished.2 rfl⟩

/-- No entry that the directory returns does harm. -/
def HarmlessDirectory (server : LdapServer DN) (lowerRune : Char → Char) (provider : LdapProvider)
    (users : Table User.identifier) : Prop :=
  ∀ dn entries, server.parseDN provider.adminGroupDN = .ok dn →
    server.search provider.baseDN provider.syncFilter (ldapSearchAttributes provider.fieldMap) =
      .ok entries →
    Harmless server lowerRune provider dn (entries.map (ldapConvertEntry provider.fieldMap)) users

theorem respects_refl : Respects provider s s := by
  have idle : MissingOutcome provider [] s s := .of_same rfl .refl
  exact respects_of_evolves (.of_same rfl .refl) (fun _ _ => rfl) idle

theorem always_synchronizeLdapUsers (m : Manager) (server : LdapServer DN) (lowerRune : Char → Char)
    (provider : LdapProvider) (s : World) :
    (m.synchronizeLdapUsers server lowerRune provider).Always Step s fun r t =>
      (HarmlessDirectory server lowerRune provider s.users → Respects provider s t) ∧
        (r = .ok () → Respects provider s t →
          HarmlessDirectory server lowerRune provider s.users) := by
  have failed : ∀ err : Error, (HarmlessDirectory server lowerRune provider s.users →
      Respects provider s s) ∧ ((.error err : Except Error Unit) = .ok () →
        Respects provider s s → HarmlessDirectory server lowerRune provider s.users) :=
    fun err => ⟨fun _ => respects_refl, fun ok => by cases ok⟩
  unfold Manager.synchronizeLdapUsers
  split
  · exact failed _
  · rename_i dn parsed
    split
    · exact failed _
    · split
      · exact failed _
      · rename_i entries searched
        refine (always_synchronizeWith _ s).mono fun r t outcome => ?_
        refine ⟨fun harmless => outcome.1 (harmless dn entries parsed searched), ?_⟩
        intro ok respects dn' entries' parsed' searched'
        obtain rfl := Except.ok.inj (parsed.symm.trans parsed')
        obtain rfl := Except.ok.inj (searched.symm.trans searched')
        exact outcome.2 ok respects

/-- If no entry of the directory differs from a disabled user who is not to be enabled, a
synchronisation enables only users who may be, and announces exactly these; one that
succeeds does so only then. -/
theorem synchronizeLdapUsers_respects (m : Manager) (server : LdapServer DN)
    (lowerRune : Char → Char) (provider : LdapProvider) (c : ℕ → Circumstance) (s : World) :
    (HarmlessDirectory server lowerRune provider s.users → Respects provider s
      ((m.synchronizeLdapUsers server lowerRune provider).eval (inTurn c) (0, s)).2.2) ∧
    (((m.synchronizeLdapUsers server lowerRune provider).eval (inTurn c) (0, s)).1 = .ok () →
      Respects provider s
        ((m.synchronizeLdapUsers server lowerRune provider).eval (inTurn c) (0, s)).2.2 →
      HarmlessDirectory server lowerRune provider s.users) := by
  exact Program.Always.eval (t := (0, s)) (inTurn_steps c)
    (always_synchronizeLdapUsers m server lowerRune provider s)

end Rounds

/-- A directory with one entry -/
def oneEntry : LdapServer String where
  connect := .ok ()
  search := fun _ _ _ => .ok [⟨"uid=alice", [("uid", ["alice"]), ("phone", ["2"])]⟩]
  bind := fun _ _ => .error (.other "Invalid Credentials")
  parseDN := .ok
  equal := fun dn dn' => dn = dn'

def reEnabling : LdapProvider where
  providerName := "one"
  baseDN := "dc=example"
  fieldMap := ⟨"uid", "mail", "givenName", "sn", "phone", "department", "memberOf"⟩
  loginFilter := "(uid=" ++ loginIdentifier ++ ")"
  adminGroupDN := "cn=admins"
  disableMissing := true
  autoReEnable := true
  syncFilter := "(objectClass=person)"
  registrationEnabled := true

def plainManager : Manager := ⟨0, fun hash password => hash = password, fun _ => true, .ok⟩

/-- The user of the entry, with another phone number and disabled -/
def disabledAlice (reason : String) : User :=
  { User.zero with
    identifier := "alice"
    source := .ldap
    providerName := "one"
    phone := "1"
    disabled := some 1
    disabledReason := reason }

def beforeSync (reason : String) : World :=
  ⟨Table.empty.upsert (disabledAlice reason), Db.empty, []⟩

def syncCircumstance : ℕ → Circumstance := fun _ => ⟨2, none, ""⟩

def afterSync (reason : String) : World :=
  ((plainManager.synchronizeLdapUsers oneEntry Char.toLower reEnabling).eval
    (inTurn syncCircumstance) (0, beforeSync reason)).2.2

/-- A user who was missing is found again. -/
theorem foundUser_respects : Respects reEnabling (beforeSync disabledReasonLdapMissing)
    (afterSync disabledReasonLdapMissing) := by
  refine (synchronizeLdapUsers_respects plainManager oneEntry Char.toLower reEnabling
    syncCircumstance (beforeSync disabledReasonLdapMissing)).1 ?_
  intro dn entries _ _ raw _ u found clears
  have only : u = disabledAlice disabledReasonLdapMissing := by
    have rows : (beforeSync disabledReasonLdapMissing).users.rows =
        [disabledAlice disabledReasonLdapMissing] := rfl
    exact List.mem_singleton.mp (rows ▸ Table.mem_of_find found)
  have may := clears.2.2.1
  rw [only] at may
  exact absurd may (by decide)

/-- A user whom an administrator disabled is enabled as the phone number changes, without a
word. -/
theorem disabledByAdmin_not_respected :
    ¬ Respects reEnabling (beforeSync "left the company") (afterSync "left the company") := by
  intro respects
  have enabled : ((afterSync "left the company").users.find "alice").map User.isDisabled =
      some false := by decide +kernel
  rcases respects.permitted "alice" (disabledAlice "left the company") (by decide) (by decide)
    with may | ⟨v, found, still⟩
  · exact absurd may (by decide)
  · rw [found, Option.map_some, still] at enabled
    cases enabled

end WgPortal.Users
