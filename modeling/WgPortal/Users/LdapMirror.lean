import WgPortal.Users.LdapSync

/-! What a synchronisation with a directory leaves of the stored users, and that a second one
finds nothing to do. -/

namespace WgPortal.Users

open Domain Library Adapters App Auth Program
open UserProgram (issue)

/-- The stored user is what the directory says; a user who was disabled for another reason than
that he was missing may still be so. -/
structure Mirrors (provider : LdapProvider) (entry u : User) : Prop where
  firstname : u.firstname = entry.firstname
  lastname : u.lastname = entry.lastname
  email : u.email = entry.email
  phone : u.phone = entry.phone
  department : u.department = entry.department
  isAdmin : u.isAdmin = entry.isAdmin
  providerName : u.providerName = provider.providerName
  enabled : provider.autoReEnable = true → u.disabledReason = disabledReasonLdapMissing →
    u.isDisabled = false

/-- What the round of an entry makes of the stored user with its identifier. -/
inductive Rounded (provider : LdapProvider) (entry : User) : Option User → Option User → Prop
  | created {v : User} (source : v.source = .ldap) (mirrors : Mirrors provider entry v) :
    Rounded provider entry none (some v)
  | kept {u : User} (settled : u.source = .ldap → Mirrors provider entry u) :
    Rounded provider entry (some u) (some u)
  | updated {u : User} (later now : Time) (source : u.source = .ldap)
    (differs : ¬ Mirrors provider entry u) :
    Rounded provider entry (some u) (some (row (written ctxSystemAdminId now
      (synced entry later { u with webAuthnCredentialList := [] }))))

/-- A user of the provider who can still log in, though the directory does not list him -/
def Absent (provider : LdapProvider) (u : User) : Prop :=
  provider.disableMissing = true ∧ u.source = .ldap ∧ u.providerName = provider.providerName ∧
    u.isDisabled = false

/-- What the synchronisation makes of a user whom the directory does not list. -/
inductive Unlisted (provider : LdapProvider) : Option User → Option User → Prop
  | unknown : Unlisted provider none none
  | kept {u : User} (stays : ¬ Absent provider u) : Unlisted provider (some u) (some u)
  | disabled {u : User} (later now : Time) (absent : Absent provider u) :
    Unlisted provider (some u) (some (row (written ctxSystemLdapSyncer now
      (missing later { u with webAuthnCredentialList := [] }))))

section Directory

variable {DN : Type} (server : LdapServer DN) (lowerRune : Char → Char) (provider : LdapProvider)

/-- The users of the directory are stored as it has them, and the others are left alone, except
that those of the provider are disabled, if it is set so. -/
structure Synchronised (adminGroupDN : DN) (rawUsers : List RawUserInfo) (s t : World) : Prop where
  listed : ∀ rawUser ∈ rawUsers, ∃ now entry, convertRawLdapUser server lowerRune
    provider.providerName rawUser provider.fieldMap adminGroupDN now = .ok entry ∧
      Rounded provider entry (s.users.find (ldapIdentifier provider.fieldMap rawUser))
        (t.users.find (ldapIdentifier provider.fieldMap rawUser))
  unlisted : ∀ id, (∀ rawUser ∈ rawUsers, ldapIdentifier provider.fieldMap rawUser ≠ id) →
    Unlisted provider (s.users.find id) (t.users.find id)

end Directory

variable {provider : LdapProvider} {entry entry' u : User} {s t : World}

theorem Step.timeNow_eq {now : Time} (step : Step .timeNow s now t) : t = s := by
  obtain ⟨c, run⟩ := step
  exact (Prod.mk.inj run).2.symm

theorem withDisabled_fields (existing user : User) :
    let v := withDisabled provider existing user
    v.firstname = user.firstname ∧ v.lastname = user.lastname ∧ v.email = user.email ∧
      v.phone = user.phone ∧ v.department = user.department ∧ v.isAdmin = user.isAdmin ∧
      v.providerName = user.providerName ∧ v.identifier = user.identifier := by
  unfold withDisabled
  split <;> exact ⟨rfl, rfl, rfl, rfl, rfl, rfl, rfl, rfl⟩

/-- The flag of the comparison is that of the stored user, or off for a user who was missing. -/
theorem isDisabled_withDisabled (existing user : User) :
    existing.isDisabled = (withDisabled provider existing user).isDisabled ↔
      (provider.autoReEnable = true → existing.disabledReason = disabledReasonLdapMissing →
        existing.isDisabled = false) := by
  unfold withDisabled
  by_cases re : provider.autoReEnable = true <;>
    by_cases reason : existing.disabledReason = disabledReasonLdapMissing <;>
    simp [re, reason, User.isDisabled]

theorem userChangedInLdap_eq_false (named : entry.providerName = provider.providerName) :
    userChangedInLdap u (withDisabled provider u entry) = false ↔ Mirrors provider entry u := by
  obtain ⟨firstname, lastname, email, phone, department, isAdmin, providerName, _⟩ :=
    @withDisabled_fields provider u entry
  have flag := @isDisabled_withDisabled provider u entry
  simp only [userChangedInLdap, Bool.or_eq_false_iff, decide_eq_false_iff_not, not_not, firstname,
    lastname, email, phone, department, isAdmin, providerName, named, flag]
  constructor
  · rintro ⟨⟨⟨⟨⟨⟨⟨first, last⟩, mail⟩, phone⟩, department⟩, enabled⟩, admin⟩, name⟩
    exact ⟨first, last, mail, phone, department, admin, name, enabled⟩
  · rintro ⟨first, last, mail, phone, department, admin, name, enabled⟩
    exact ⟨⟨⟨⟨⟨⟨⟨first, last⟩, mail⟩, phone⟩, department⟩, enabled⟩, admin⟩, name⟩

/-- The stored user after an update -/
theorem mirrors_synced (named : entry.providerName = provider.providerName) (later now : Time)
    (userId : UserIdentifier) :
    Mirrors provider entry (row (written userId now (synced entry later u))) :=
  ⟨rfl, rfl, rfl, rfl, rfl, rfl, named, fun _ _ => rfl⟩

section Rounds

variable {DN : Type} {server : LdapServer DN} {lowerRune : Char → Char} {m : Manager}
  {adminGroupDN : DN} {rawUser : RawUserInfo} {rawUsers : List RawUserInfo}

theorem convertRawLdapUser_ok {now : Time}
    (converted : convertRawLdapUser server lowerRune provider.providerName rawUser
      provider.fieldMap adminGroupDN now = .ok entry) :
    entry.identifier = ldapIdentifier provider.fieldMap rawUser ∧ entry.source = .ldap ∧
      entry.providerName = provider.providerName ∧ entry.disabled = none := by
  unfold convertRawLdapUser at converted
  split at converted
  · split at converted
    · cases converted
    · rw [← Except.ok.inj converted]
      exact ⟨rfl, rfl, rfl, rfl⟩
  · cases converted

/-- Whether a conversion succeeds, and what it says of the user, does not depend on the time. -/
theorem convertRawLdapUser_again {now : Time}
    (converted : convertRawLdapUser server lowerRune provider.providerName rawUser
      provider.fieldMap adminGroupDN now = .ok entry) (later : Time) :
    ∃ entry', convertRawLdapUser server lowerRune provider.providerName rawUser
      provider.fieldMap adminGroupDN later = .ok entry' ∧
        ∀ u, Mirrors provider entry u → Mirrors provider entry' u := by
  unfold convertRawLdapUser at converted ⊢
  split at converted
  · split at converted
    · cases converted
    · refine ⟨_, rfl, fun u mirrors => ?_⟩
      rw [← Except.ok.inj converted] at mirrors
      obtain ⟨first, last, mail, phone, department, admin, name, enabled⟩ := mirrors
      exact ⟨first, last, mail, phone, department, admin, name, enabled⟩
  · cases converted

/-- How the round of an entry ends, if it succeeds. -/
structure RoundEnds (server : LdapServer DN) (lowerRune : Char → Char) (provider : LdapProvider)
    (adminGroupDN : DN) (rawUser : RawUserInfo) (s t : World) : Prop where
  listed : ∃ now entry, convertRawLdapUser server lowerRune provider.providerName rawUser
    provider.fieldMap adminGroupDN now = .ok entry ∧
      Rounded provider entry (s.users.find (ldapIdentifier provider.fieldMap rawUser))
        (t.users.find (ldapIdentifier provider.fieldMap rawUser))
  others : ∀ id, ldapIdentifier provider.fieldMap rawUser ≠ id →
    t.users.find id = s.users.find id

/-- A saved user is found under its identifier, and no other one is different. -/
theorem find_saved {v : User} {id : UserIdentifier} (named : v.identifier = id)
    (stored : t.users = s.users.upsert (row v)) :
    t.users.find id = some (row v) ∧ ∀ other, id ≠ other →
      t.users.find other = s.users.find other := by
  subst named
  rw [stored]
  exact ⟨find_store_self s.users v, fun other ne => (find_store s.users v other).trans (if_neg ne)⟩

theorem always_updateExisting {now : Time}
    (converted : convertRawLdapUser server lowerRune provider.providerName rawUser
      provider.fieldMap adminGroupDN now = .ok entry)
    (found : s.users.find (ldapIdentifier provider.fieldMap rawUser) = some u) :
    (Manager.updateExistingLdapUser u (withDisabled provider u entry)).Always Step s fun r t =>
      r = .ok () → RoundEnds server lowerRune provider adminGroupDN rawUser s t := by
  obtain ⟨identifier, _, providerName, _⟩ := convertRawLdapUser_ok converted
  have unchanged := @userChangedInLdap_eq_false provider entry u providerName
  have named : (withDisabled provider u entry).identifier =
      ldapIdentifier provider.fieldMap rawUser := by
    rw [← identifier]
    unfold withDisabled
    split <;> rfl
  unfold Manager.updateExistingLdapUser
  split
  · rename_i changes
    obtain ⟨ldap, changed⟩ : u.source = .ldap ∧
        userChangedInLdap u (withDisabled provider u entry) = true := by simpa using changes
    intro later s' read
    obtain rfl := read.timeNow_eq
    rw [named]
    refine (@always_repoSaveUser systemAdminContextUserInfo s' _
      (synced (withDisabled provider u entry) later)).bind fun r t saves => ?_
    cases r with
    | error err => exact fun ok => by cases ok
    | ok v =>
      obtain ⟨⟨at', now', made⟩, stored⟩ := saves
      have existing : s'.getOrCreateUser systemAdminContextUserInfo.id now'
          (ldapIdentifier provider.fieldMap rawUser) =
            { u with webAuthnCredentialList := [] } := by
        simp only [World.getOrCreateUser, found]
      have fields : synced (withDisabled provider u entry) later
          { u with webAuthnCredentialList := [] } =
            synced entry later { u with webAuthnCredentialList := [] } := by
        unfold withDisabled
        split <;> rfl
      rw [existing, fields] at made
      have key : v.identifier = ldapIdentifier provider.fieldMap rawUser := by
        have key : u.identifier = ldapIdentifier provider.fieldMap rawUser :=
          Table.key_of_find found
        rw [made]
        exact key
      have ends : ∀ {t' : World}, t'.users = t.users →
          RoundEnds server lowerRune provider adminGroupDN rawUser s' t' := by
        intro t' same
        obtain ⟨here, others⟩ := find_saved key (same.trans stored)
        refine ⟨⟨now, entry, converted, ?_⟩, others⟩
        have differs : ¬ Mirrors provider entry u := by
          rw [← unchanged, changed]
          decide
        rw [found, here, made]
        exact .updated later at' ldap differs
      dsimp only
      split
      · exact fun _ t' published _ => ends published.publish
      · exact fun _ => ends rfl
  · rename_i changes
    intro _
    refine ⟨⟨now, entry, converted, ?_⟩, fun _ _ => rfl⟩
    rw [found]
    refine .kept fun ldap => unchanged.mp (Bool.eq_false_iff.mpr fun changed => changes ?_)
    simp [ldap, changed]

/-- A user who is new -/
theorem rounded_created {v : User} {now : Time}
    (converted : convertRawLdapUser server lowerRune provider.providerName rawUser
      provider.fieldMap adminGroupDN now = .ok entry) (made : Created s.users entry v) :
    Rounded provider entry none (some (row v)) := by
  obtain ⟨_, source, providerName, active⟩ := convertRawLdapUser_ok converted
  obtain ⟨base, n, password, rfl⟩ := made.same
  have enabled : entry.isDisabled = false := by rw [User.isDisabled, active]; rfl
  exact .created source ⟨rfl, rfl, rfl, rfl, rfl, rfl, providerName, fun _ _ => enabled⟩

theorem always_round (adminGroupDN : DN) (rawUser : RawUserInfo) :
    (m.updateLdapUser server lowerRune provider adminGroupDN rawUser).Always Step s fun r t =>
      r = .ok () → RoundEnds server lowerRune provider adminGroupDN rawUser s t := by
  unfold Manager.updateLdapUser
  intro now s' read
  obtain rfl := read.timeNow_eq
  dsimp only [Program.bind]
  cases converted : convertRawLdapUser server lowerRune provider.providerName rawUser
      provider.fieldMap adminGroupDN now with
  | error err =>
    dsimp only
    split <;> exact fun ok => by cases ok
  | ok entry =>
    have identifier := (convertRawLdapUser_ok converted).1
    intro answer t find
    obtain ⟨rfl, stored⟩ := find.getUser
    cases answer with
    | ok existing =>
      have found := stored existing rfl
      rw [identifier] at found
      exact always_updateExisting converted found
    | error err =>
      show Always Step (if !err.is .notFound then _ else _) _ _
      split
      · exact fun ok => by cases ok
      · rename_i is
        have absent := find.notFound (by simpa using is)
        refine (always_createUser entry).bind fun r t' saves => ?_
        cases r with
        | error err => exact fun ok => by cases ok
        | ok v =>
          obtain ⟨made, stored⟩ := saves
          have named : v.identifier = ldapIdentifier provider.fieldMap rawUser := by
            obtain ⟨base, n, password, same⟩ := made.same
            rw [same]
            exact identifier
          obtain ⟨here, others⟩ := find_saved named stored
          intro _
          refine ⟨⟨now, entry, converted, ?_⟩, others⟩
          rw [← identifier, absent, identifier, here]
          exact rounded_created converted made

/-- The directory names no user twice. -/
def NamedOnce (provider : LdapProvider) (rawUsers : List RawUserInfo) : Prop :=
  (rawUsers.map (ldapIdentifier provider.fieldMap)).Nodup

instance : Decidable (NamedOnce provider rawUsers) := inferInstanceAs (Decidable (List.Nodup _))

/-- How the rounds of all entries end. -/
structure RoundsEnd (server : LdapServer DN) (lowerRune : Char → Char) (provider : LdapProvider)
    (adminGroupDN : DN) (rawUsers : List RawUserInfo) (s t : World) : Prop where
  listed : ∀ rawUser ∈ rawUsers, ∃ now entry, convertRawLdapUser server lowerRune
    provider.providerName rawUser provider.fieldMap adminGroupDN now = .ok entry ∧
      Rounded provider entry (s.users.find (ldapIdentifier provider.fieldMap rawUser))
        (t.users.find (ldapIdentifier provider.fieldMap rawUser))
  others : ∀ id, (∀ rawUser ∈ rawUsers, ldapIdentifier provider.fieldMap rawUser ≠ id) →
    t.users.find id = s.users.find id

/-- Each entry has its own user, whom the other rounds leave alone. -/
theorem RoundEnds.cons (first : RoundEnds server lowerRune provider adminGroupDN rawUser s t)
    {u : World} (rest : RoundsEnd server lowerRune provider adminGroupDN rawUsers t u)
    (once : NamedOnce provider (rawUser :: rawUsers)) :
    RoundsEnd server lowerRune provider adminGroupDN (rawUser :: rawUsers) s u := by
  have apart : ∀ later ∈ rawUsers,
      ldapIdentifier provider.fieldMap later ≠ ldapIdentifier provider.fieldMap rawUser :=
    fun later mem same => (List.nodup_cons.mp once).1 (List.mem_map.mpr ⟨later, mem, same⟩)
  constructor
  · intro raw mem
    rcases List.mem_cons.mp mem with rfl | mem
    · rw [rest.others _ apart]
      exact first.listed
    · rw [← first.others _ (apart raw mem).symm]
      exact rest.listed raw mem
  · intro id others
    rw [rest.others id fun later mem => others later (List.mem_cons_of_mem _ mem),
      first.others id (others rawUser List.mem_cons_self)]

theorem always_rounds (once : NamedOnce provider rawUsers) (s : World) :
    (m.updateLdapUsers server lowerRune provider adminGroupDN rawUsers).Always Step s fun r t =>
      r = .ok () → RoundsEnd server lowerRune provider adminGroupDN rawUsers s t := by
  induction rawUsers generalizing s with
  | nil => exact fun _ => ⟨fun _ mem => (List.not_mem_nil mem).elim, fun _ _ => rfl⟩
  | cons rawUser rawUsers ih =>
    have later : NamedOnce provider rawUsers := (List.nodup_cons.mp once).2
    unfold Manager.updateLdapUsers
    refine (always_round adminGroupDN rawUser).bind fun r t first => ?_
    cases r with
    | error err => exact fun ok => by cases ok
    | ok _ => exact (ih later t).mono fun r u rest ok => (first rfl).cons (rest ok) once

/-- A user of the provider who can log in, and no entry names him. -/
def Gone (provider : LdapProvider) (rawUsers : List RawUserInfo) (u : User) : Prop :=
  u.source = .ldap ∧ u.providerName = provider.providerName ∧ u.isDisabled = false ∧
    ∀ rawUser ∈ rawUsers, ldapIdentifier provider.fieldMap rawUser ≠ u.identifier

/-- What the search for missing users makes of one. -/
inductive Searched (provider : LdapProvider) (rawUsers : List RawUserInfo) (u : User) :
    Option User → Prop
  | kept (stays : ¬ Gone provider rawUsers u) : Searched provider rawUsers u (some u)
  | disabled (later now : Time) (gone : Gone provider rawUsers u) :
    Searched provider rawUsers u (some (row (written ctxSystemLdapSyncer now
      (missing later { u with webAuthnCredentialList := [] }))))

theorem gone_iff : Gone provider rawUsers u ↔ u.source = .ldap ∧
    u.providerName = provider.providerName ∧ u.isDisabled = false ∧
    (rawUsers.any fun raw => u.identifier = ldapIdentifier provider.fieldMap raw) = false := by
  simp only [Gone, List.any_eq_false, decide_eq_true_eq, ne_eq, @eq_comm _ u.identifier]

theorem always_search (found : s.users.find u.identifier = some u) :
    (Manager.disableMissingLdapUser provider rawUsers u).Always Step s fun r t => r = .ok () →
      Searched provider rawUsers u (t.users.find u.identifier) ∧
        ∀ id, u.identifier ≠ id → t.users.find id = s.users.find id := by
  have stays : ¬ Gone provider rawUsers u →
      Searched provider rawUsers u (s.users.find u.identifier) := fun stays => found ▸ .kept stays
  unfold Manager.disableMissingLdapUser
  split
  · rename_i source
    exact fun _ => ⟨stays fun gone => source gone.1, fun _ _ => rfl⟩
  · rename_i source
    split
    · rename_i name
      exact fun _ => ⟨stays fun gone => name gone.2.1, fun _ _ => rfl⟩
    · rename_i name
      split
      · rename_i disabled
        have stays := stays fun gone => by cases disabled.symm.trans gone.2.2.1
        exact fun _ => ⟨stays, fun _ _ => rfl⟩
      · rename_i enabled
        split
        · rename_i there
          have stays := stays fun gone => by cases there.symm.trans (gone_iff.mp gone).2.2.2
          exact fun _ => ⟨stays, fun _ _ => rfl⟩
        · rename_i absent
          have gone : Gone provider rawUsers u := gone_iff.mpr
            ⟨not_not.mp source, not_not.mp name, Bool.eq_false_iff.mpr enabled,
              Bool.eq_false_iff.mpr absent⟩
          intro later s' read
          obtain rfl := read.timeNow_eq
          refine (@always_repoSaveUser ldapSyncContextUserInfo s' u.identifier
            (missing later)).bind fun r t saves => ?_
          cases r with
          | error err => exact fun ok => by cases ok
          | ok v =>
            obtain ⟨⟨now, now', made⟩, stored⟩ := saves
            have existing : s'.getOrCreateUser ldapSyncContextUserInfo.id now' u.identifier =
                { u with webAuthnCredentialList := [] } := by
              simp only [World.getOrCreateUser, found]
            rw [existing] at made
            have key : v.identifier = u.identifier := by rw [made]; rfl
            intro _ t' published _
            obtain ⟨here, others⟩ := find_saved key (published.publish.trans stored)
            refine ⟨?_, others⟩
            rw [here, made]
            exact .disabled later now gone

theorem always_searches {users : List User} (once : (users.map User.identifier).Nodup) (s : World)
    (found : ∀ u ∈ users, s.users.find u.identifier = some u) :
    (Manager.disableMissingUsers provider rawUsers users).Always Step s fun r t => r = .ok () →
      (∀ u ∈ users, Searched provider rawUsers u (t.users.find u.identifier)) ∧
        ∀ id, (∀ u ∈ users, u.identifier ≠ id) → t.users.find id = s.users.find id := by
  induction users generalizing s with
  | nil => exact fun _ => ⟨fun _ mem => (List.not_mem_nil mem).elim, fun _ _ => rfl⟩
  | cons u users ih =>
    obtain ⟨new, once⟩ := List.nodup_cons.mp once
    have apart : ∀ v ∈ users, u.identifier ≠ v.identifier :=
      fun v mem same => new (List.mem_map.mpr ⟨v, mem, same.symm⟩)
    unfold Manager.disableMissingUsers
    refine (always_search (found u List.mem_cons_self)).bind fun r t first => ?_
    cases r with
    | error err => exact fun ok => by cases ok
    | ok _ =>
      obtain ⟨here, others⟩ := first rfl
      have later : ∀ v ∈ users, t.users.find v.identifier = some v := fun v mem =>
        (others _ (apart v mem)).trans (found v (List.mem_cons_of_mem _ mem))
      refine (ih once t later).mono fun r t' rest ok => ?_
      obtain ⟨all, same⟩ := rest ok
      refine ⟨fun v mem => ?_, fun id ne => ?_⟩
      · rcases List.mem_cons.mp mem with rfl | mem
        · rw [same _ fun w mem => (apart w mem).symm]
          exact here
        · exact all v mem
      · have here := others id (ne u List.mem_cons_self)
        exact (same id fun w mem => ne w (List.mem_cons_of_mem _ mem)).trans here

/-- Every stored user is searched for. -/
theorem always_searchAll (rawUsers : List RawUserInfo) (s : World) :
    (Manager.disableMissingLdapUsers provider rawUsers).Always Step s fun r t => r = .ok () →
      ∀ id, (s.users.find id = none ∧ t.users.find id = none) ∨
        ∃ u, s.users.find id = some u ∧ Searched provider rawUsers u (t.users.find id) := by
  unfold Manager.disableMissingLdapUsers
  intro answer s' read
  rcases read.repo with ⟨text, rfl, rfl⟩ | ⟨now, rfl, rfl⟩
  · exact fun ok => by cases ok
  · refine (always_searches s.users.nodup s fun u mem => Table.find_of_mem mem).mono
      fun r t searched ok id => ?_
    obtain ⟨all, same⟩ := searched ok
    cases found : s.users.find id with
    | none =>
      refine .inl ⟨rfl, ?_⟩
      rw [same id fun u mem => Table.find_eq_none.mp found u mem, found]
    | some u =>
      have key : u.identifier = id := Table.key_of_find found
      refine .inr ⟨u, rfl, ?_⟩
      rw [← key]
      exact all u (Table.mem_of_find found)

theorem Rounded.stored {before after : Option User} (rounded : Rounded provider entry before after)
    (named : entry.providerName = provider.providerName) :
    ∃ v, after = some v ∧ (v.source = .ldap → Mirrors provider entry v) := by
  cases rounded with
  | created source mirrors => exact ⟨_, rfl, fun _ => mirrors⟩
  | kept settled => exact ⟨_, rfl, settled⟩
  | updated later now source differs => exact ⟨_, rfl, fun _ => mirrors_synced named later now _⟩

/-- Both parts of a synchronisation together -/
theorem RoundsEnd.finish {u : World}
    (rounds : RoundsEnd server lowerRune provider adminGroupDN rawUsers s t)
    (listed : ∀ rawUser ∈ rawUsers, u.users.find (ldapIdentifier provider.fieldMap rawUser) =
      t.users.find (ldapIdentifier provider.fieldMap rawUser))
    (unlisted : ∀ id, (∀ rawUser ∈ rawUsers, ldapIdentifier provider.fieldMap rawUser ≠ id) →
      Unlisted provider (t.users.find id) (u.users.find id)) :
    Synchronised server lowerRune provider adminGroupDN rawUsers s u := by
  constructor
  · intro rawUser mem
    rw [listed rawUser mem]
    exact rounds.listed rawUser mem
  · intro id others
    rw [← rounds.others id others]
    exact unlisted id others

theorem unlisted_of_searched {u : World} (missing : provider.disableMissing = true)
    (searched : ∀ id, (t.users.find id = none ∧ u.users.find id = none) ∨
      ∃ v, t.users.find id = some v ∧ Searched provider rawUsers v (u.users.find id))
    (id : UserIdentifier)
    (others : ∀ rawUser ∈ rawUsers, ldapIdentifier provider.fieldMap rawUser ≠ id) :
    Unlisted provider (t.users.find id) (u.users.find id) := by
  rcases searched id with ⟨before, after⟩ | ⟨v, found, outcome⟩
  · rw [before, after]
    exact .unknown
  · have key : v.identifier = id := Table.key_of_find found
    rw [found]
    generalize u.users.find id = after at outcome
    cases outcome with
    | kept stays =>
      exact .kept fun absent =>
        stays ⟨absent.2.1, absent.2.2.1, absent.2.2.2, key ▸ others⟩
    | disabled later now gone =>
      exact .disabled later now ⟨missing, gone.1, gone.2.1, gone.2.2.1⟩

theorem always_synchronised (once : NamedOnce provider rawUsers) (s : World) :
    (m.synchronizeWith server lowerRune provider adminGroupDN rawUsers).Always Step s fun r t =>
      r = .ok () → Synchronised server lowerRune provider adminGroupDN rawUsers s t := by
  unfold Manager.synchronizeWith
  refine (always_rounds once s).bind fun r t rounds => ?_
  cases r with
  | error err => exact fun ok => by cases ok
  | ok _ =>
    have rounds := rounds rfl
    dsimp only
    split
    · rename_i missing
      refine (always_searchAll rawUsers t).mono fun r u searched ok => ?_
      refine rounds.finish (fun rawUser mem => ?_) (unlisted_of_searched missing (searched ok))
      obtain ⟨now, entry, converted, rounded⟩ := rounds.listed rawUser mem
      obtain ⟨v, stored, _⟩ := rounded.stored (convertRawLdapUser_ok converted).2.2.1
      rcases searched ok (ldapIdentifier provider.fieldMap rawUser) with
        ⟨absent, _⟩ | ⟨v', found, outcome⟩
      · cases stored.symm.trans absent
      · have key : v'.identifier = ldapIdentifier provider.fieldMap rawUser :=
          Table.key_of_find found
        rw [found]
        generalize u.users.find _ = after at outcome
        cases outcome with
        | kept stays => rfl
        | disabled later now gone => exact absurd key.symm (gone.2.2.2 rawUser mem)
    · rename_i off
      intro _
      refine rounds.finish (fun _ _ => rfl) fun id _ => ?_
      cases t.users.find id with
      | none => exact .unknown
      | some v => exact .kept fun absent => off absent.1

/-- Nothing is left to do for a synchronisation. -/
structure Settled (server : LdapServer DN) (lowerRune : Char → Char) (provider : LdapProvider)
    (adminGroupDN : DN) (rawUsers : List RawUserInfo) (t : World) : Prop where
  listed : ∀ rawUser ∈ rawUsers, ∃ now entry v, convertRawLdapUser server lowerRune
    provider.providerName rawUser provider.fieldMap adminGroupDN now = .ok entry ∧
      t.users.find (ldapIdentifier provider.fieldMap rawUser) = some v ∧
      (v.source = .ldap → Mirrors provider entry v)
  missing : provider.disableMissing = true → ∀ u ∈ t.users.rows, ¬ Gone provider rawUsers u

theorem Synchronised.settled
    (synchronised : Synchronised server lowerRune provider adminGroupDN rawUsers s t) :
    Settled server lowerRune provider adminGroupDN rawUsers t := by
  constructor
  · intro rawUser mem
    obtain ⟨now, entry, converted, rounded⟩ := synchronised.listed rawUser mem
    obtain ⟨v, stored, mirrors⟩ := rounded.stored (convertRawLdapUser_ok converted).2.2.1
    exact ⟨now, entry, v, converted, stored, mirrors⟩
  · intro missing u mem gone
    have unlisted := synchronised.unlisted u.identifier gone.2.2.2
    rw [Table.find_of_mem mem] at unlisted
    generalize s.users.find u.identifier = before at unlisted
    cases unlisted with
    | kept stays => exact stays ⟨missing, gone.1, gone.2.1, gone.2.2.1⟩
    | disabled later now absent => cases gone.2.2.1

/-- The round of an entry whose user is stored as the entry has him. -/
theorem always_idleRound (settled : Settled server lowerRune provider adminGroupDN rawUsers t)
    (mem : rawUser ∈ rawUsers) :
    (m.updateLdapUser server lowerRune provider adminGroupDN rawUser).Always Step t
      fun _ u => u = t := by
  obtain ⟨now₀, entry₀, v, converted₀, stored, mirrors⟩ := settled.listed rawUser mem
  unfold Manager.updateLdapUser
  intro now t' read
  obtain rfl := read.timeNow_eq
  obtain ⟨entry, converted, same⟩ := convertRawLdapUser_again converted₀ now
  obtain ⟨identifier, _, providerName, _⟩ := convertRawLdapUser_ok converted
  dsimp only [Program.bind]
  rw [converted]
  intro answer t'' find
  obtain ⟨rfl, found⟩ := find.getUser
  cases answer with
  | error err =>
    show Always Step (if !err.is .notFound then _ else _) _ _
    split
    · rfl
    · rename_i is
      have absent := find.notFound (by simpa using is)
      rw [identifier, stored] at absent
      cases absent
  | ok existing =>
    have found := found existing rfl
    rw [identifier, stored] at found
    obtain rfl := Option.some.inj found
    show Always Step (Manager.updateExistingLdapUser _ _) _ _
    unfold Manager.updateExistingLdapUser
    split
    · rename_i changes
      obtain ⟨ldap, changed⟩ : v.source = .ldap ∧
          userChangedInLdap v (withDisabled provider v entry) = true := by simpa using changes
      have unchanged := (userChangedInLdap_eq_false providerName).mpr (same v (mirrors ldap))
      cases changed.symm.trans unchanged
    · rfl

theorem always_idleRounds (settled : Settled server lowerRune provider adminGroupDN rawUsers t)
    {later : List RawUserInfo} (among : ∀ rawUser ∈ later, rawUser ∈ rawUsers) :
    (m.updateLdapUsers server lowerRune provider adminGroupDN later).Always Step t
      fun _ u => u = t := by
  induction later with
  | nil => rfl
  | cons rawUser later ih =>
    unfold Manager.updateLdapUsers
    refine (always_idleRound settled (among rawUser List.mem_cons_self)).bind fun r u same => ?_
    subst same
    cases r with
    | error err => rfl
    | ok _ => exact ih fun raw mem => among raw (List.mem_cons_of_mem _ mem)

theorem always_idleSearches {users : List User} (stay : ∀ u ∈ users, ¬ Gone provider rawUsers u) :
    (Manager.disableMissingUsers provider rawUsers users).Always Step t fun _ u => u = t := by
  induction users with
  | nil => rfl
  | cons u users ih =>
    have idle : Manager.disableMissingLdapUser provider rawUsers u = .ret (.ok ()) := by
      have stays := stay u List.mem_cons_self
      rw [gone_iff] at stays
      unfold Manager.disableMissingLdapUser
      split
      · rfl
      · rename_i source
        split
        · rfl
        · rename_i name
          split
          · rfl
          · rename_i enabled
            split
            · rfl
            · rename_i absent
              exact absurd ⟨not_not.mp source, not_not.mp name, Bool.eq_false_iff.mpr enabled,
                Bool.eq_false_iff.mpr absent⟩ stays
    unfold Manager.disableMissingUsers
    rw [idle]
    exact ih fun v mem => stay v (List.mem_cons_of_mem _ mem)

theorem always_idle (settled : Settled server lowerRune provider adminGroupDN rawUsers t) :
    (m.synchronizeWith server lowerRune provider adminGroupDN rawUsers).Always Step t
      fun _ u => u = t := by
  unfold Manager.synchronizeWith
  refine (always_idleRounds settled fun _ mem => mem).bind fun r u same => ?_
  subst same
  cases r with
  | error err => rfl
  | ok _ =>
    dsimp only
    split
    · rename_i missing
      unfold Manager.disableMissingLdapUsers
      intro answer u' read
      rcases read.repo with ⟨text, rfl, rfl⟩ | ⟨now, rfl, rfl⟩
      · rfl
      · exact always_idleSearches (settled.missing missing)
    · rfl

/-- A synchronisation: its result, and the world after it. -/
def Manager.synchronise (m : Manager) (server : LdapServer DN) (lowerRune : Char → Char)
    (provider : LdapProvider) (c : ℕ → Circumstance) (s : World) : Except Error Unit × World :=
  let (result, state) := (m.synchronizeLdapUsers server lowerRune provider).eval (inTurn c) (0, s)
  (result, state.2)

/-- The users that the directory returns -/
def fetched (provider : LdapProvider) (entries : List LdapEntry) : List RawUserInfo :=
  entries.map (ldapConvertEntry provider.fieldMap)

variable {dn : DN} {entries : List LdapEntry}

theorem always_synchronise (group : server.parseDN provider.adminGroupDN = .ok dn)
    (found : server.search provider.baseDN provider.syncFilter
      (ldapSearchAttributes provider.fieldMap) = .ok entries)
    (once : NamedOnce provider (fetched provider entries)) (s : World) :
    (m.synchronizeLdapUsers server lowerRune provider).Always Step s fun r t =>
      r = .ok () → Synchronised server lowerRune provider dn (fetched provider entries) s t := by
  unfold Manager.synchronizeLdapUsers
  rw [group]
  dsimp only
  split
  · exact fun ok => by cases ok
  · rw [found]
    exact always_synchronised once s

end Rounds

/-- One user has a new phone number, and one is new. -/
def changedEntries : List LdapEntry :=
  [⟨"uid=ann", [("uid", ["ann"]), ("phone", ["2"]), ("memberOf", ["cn=admins"])]⟩,
    ⟨"uid=ben", [("uid", ["ben"])]⟩]

def changedDirectory : LdapServer String where
  connect := .ok ()
  search := fun _ _ _ => .ok changedEntries
  bind := fun _ _ => .error (.other "Invalid Credentials")
  parseDN := .ok
  equal := fun dn dn' => dn = dn'

def strictProvider : LdapProvider where
  providerName := "one"
  baseDN := "dc=example"
  fieldMap := ⟨"uid", "mail", "givenName", "sn", "phone", "department", "memberOf"⟩
  loginFilter := "(uid=" ++ loginIdentifier ++ ")"
  adminGroupDN := "cn=admins"
  disableMissing := true
  autoReEnable := true
  syncFilter := "(objectClass=person)"
  registrationEnabled := true

def lenientManager : Manager := ⟨0, fun hash password => hash = password, fun _ => true, .ok⟩

def ldapUser (id : UserIdentifier) : User :=
  { User.zero with identifier := id, source := .ldap, providerName := "one", phone := "1" }

/-- The user with the old phone number, and one who has left -/
def beforeChange : World :=
  ⟨(Table.empty.upsert (ldapUser "ann")).upsert (ldapUser "cyd"), Db.empty, []⟩

def oneMinute : ℕ → Circumstance := fun _ => ⟨60, none, ""⟩

theorem changedDirectory_done :
    (lenientManager.synchronise changedDirectory Char.toLower strictProvider oneMinute
      beforeChange).1 = .ok () := by
  decide +kernel

end WgPortal.Users
