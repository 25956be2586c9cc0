import WgPortal.Auth.Steps

/-! Runs of a login with a password, from the first lookup of the entered name on. -/

namespace WgPortal.Auth

open Domain Library App Users Program
open AuthProgram (issue managing)
open WireGuard (MapOrder)

/-- Nobody has accepted a password yet. -/
def start (users : Users.World) : World := ⟨users, [], []⟩

/-- The world after an authenticator has accepted the password. -/
def World.accept (s : World) (provider : String) (userId : UserIdentifier) (password : String) :
    World := { s with accepted := s.accepted ++ [⟨provider, userId, password⟩] }

section Processed

variable {userInfo : AuthenticatorUserInfo} {source : UserSource}
  {users users' : Table User.identifier} {r : Except Error User}

/-- Sources and passwords of stored users stay. -/
def Kept (users users' : Table User.identifier) : Prop :=
  ∀ id old, users.find id = some old → ∃ stored, users'.find id = some stored ∧
    stored.source = old.source ∧ stored.password = old.password

theorem Kept.refl (users : Table User.identifier) : Kept users users :=
  fun _ old found => ⟨old, found, rfl, rfl⟩

theorem Processed.named (processed : Processed userInfo source users r users') {u : User}
    (ok : r = .ok u) : u.identifier = userInfo.identifier := by
  cases processed with
  | failed => cases ok
  | registered new named active => exact Except.ok.inj ok ▸ named
  | @idle old n found | @same old n found =>
    cases ok
    have key : old.identifier = userInfo.identifier := Table.key_of_find found
    exact key
  | updated found active own named =>
    cases ok
    exact named.trans (Table.key_of_find found)

theorem Processed.kept (processed : Processed userInfo source users r users') :
    Kept users users' := by
  have named := fun u => processed.named (u := u)
  cases processed with
  | failed | idle | same => exact Kept.refl users
  | @registered u new =>
    have key : u.identifier = userInfo.identifier := named u rfl
    intro id old found
    by_cases same : u.identifier = id
    · rw [← same, key, new] at found
      cases found
    · exact ⟨old, by rw [find_store, if_neg same, found], rfl, rfl⟩
  | @updated before u stored active own _ locked disabled kept password =>
    have key : u.identifier = userInfo.identifier := named u rfl
    intro id old found
    by_cases same : u.identifier = id
    · rw [← same, key, stored] at found
      obtain rfl := Option.some.inj found
      exact ⟨row u, by rw [find_store, if_pos same], kept, password⟩
    · exact ⟨old, by rw [find_store, if_neg same, found], rfl, rfl⟩

/-- Only a user who was locked or disabled before is so afterwards. -/
theorem Processed.active (processed : Processed userInfo source users r users') {u : User}
    (ok : r = .ok u) (each : ∀ old, users.find userInfo.identifier = some old → Active old) :
    ∃ stored, users'.find u.identifier = some stored ∧ Active stored := by
  have named := processed.named ok
  cases processed with
  | failed => cases ok
  | registered new _ active =>
    cases ok
    exact ⟨row u, find_store_self users u, active⟩
  | idle n found inactive => exact absurd (each _ found) inactive
  | same n found active => exact ⟨_, (congrArg users.find named).trans found, active⟩
  | updated found active _ _ locked disabled =>
    cases ok
    refine ⟨row u, find_store_self users u, ?_⟩
    exact ⟨(congrArg Option.isSome locked).trans active.1,
      (congrArg Option.isSome disabled).trans active.2⟩

/-- A stored user who is reported is as active as the one that comes back. -/
theorem Processed.active_iff (processed : Processed userInfo source users r users') {u old : User}
    (ok : r = .ok u) (found : users.find u.identifier = some old) : Active u ↔ Active old := by
  rw [processed.named ok] at found
  cases processed with
  | failed => cases ok
  | registered new => cases new.symm.trans found
  | idle n before | same n before =>
    obtain rfl := Option.some.inj (before.symm.trans found)
    cases ok
    exact Iff.rfl
  | updated before _ _ _ locked disabled =>
    obtain rfl := Option.some.inj (before.symm.trans found)
    cases ok
    simp only [Active, User.isLocked, User.isDisabled, locked, disabled]

/-- Only a user who is locked or disabled may be of another source. -/
theorem Processed.own (processed : Processed userInfo source users r users') {u old : User}
    (ok : r = .ok u) (found : users.find u.identifier = some old) (active : Active u) :
    old.source = source := by
  have active := (processed.active_iff ok found).mp active
  rw [processed.named ok] at found
  cases processed with
  | failed => cases ok
  | registered new => cases new.symm.trans found
  | idle n before inactive =>
    obtain rfl := Option.some.inj (before.symm.trans found)
    exact absurd active inactive
  | same n before _ own | updated before _ own =>
    obtain rfl := Option.some.inj (before.symm.trans found)
    exact own

end Processed

section Run

variable {a : Authenticator} {order : MapOrder (String × AuthenticatorLdap)}
  {identifier : UserIdentifier} {password : String} {c : ℕ → Circumstance} {users : Users.World}
  {old : User} {ldapAuth : AuthenticatorLdap} {userInfo : AuthenticatorUserInfo}

/-- The authenticator is the one that the login asks, and it accepts the password. -/
structure Asked (a : Authenticator) (order : MapOrder (String × AuthenticatorLdap))
    (userInDatabase : Bool) (identifier : UserIdentifier) (password : String)
    (ldapAuth : AuthenticatorLdap) (userInfo : AuthenticatorUserInfo) : Prop where
  found : Authenticator.findLdapUser userInDatabase identifier (a.ldapInOrder order) =
    some (ldapAuth, userInfo)
  accepts : ldapAuth.plaintextAuthentication identifier password = .ok ()

/-- No user is found under the entered name, but one under the identifier that the
authenticator reports for it. -/
structure Aliased (a : Authenticator) (order : MapOrder (String × AuthenticatorLdap))
    (c : ℕ → Circumstance) (users : Users.World) (identifier : UserIdentifier) (password : String)
    (ldapAuth : AuthenticatorLdap) (userInfo : AuthenticatorUserInfo) (old : User) : Prop where
  unread : ∀ stored, ¬ Reads c 0 users identifier stored
  asked : Asked a order false identifier password ldapAuth userInfo
  reads : Reads c 2 users userInfo.identifier old

/-- The outcome for a user who is stored under the entered name. -/
inductive StoredLogin (a : Authenticator) (order : MapOrder (String × AuthenticatorLdap))
    (old : User) (identifier : UserIdentifier) (password : String) (s : World) :
    Except Error User → World → Prop where
  | denied (err : Error) : StoredLogin a order old identifier password s (.error err) s
  | database (active : Active old) (own : old.source = .database) :
      StoredLogin a order old identifier password s (.ok old) s
  | ldap {ldapAuth : AuthenticatorLdap} {userInfo : AuthenticatorUserInfo} (active : Active old)
      (own : old.source = .ldap) (asked : Asked a order true identifier password ldapAuth userInfo) :
      StoredLogin a order old identifier password s (.ok old)
        (s.accept ldapAuth.getName identifier password)

theorem inTurn_authenticate {n : ℕ} {s : World}
    (accepts : ldapAuth.plaintextAuthentication identifier password = .ok ()) :
    inTurn c (.authenticate ldapAuth identifier password) (n, s) =
      (.ok (), (n + 1, s.accept ldapAuth.getName identifier password)) := by
  simp only [inTurn, AuthOp.exec, accepts, World.accept]

theorem eval_authenticateStored {n : ℕ} {s : World} : StoredLogin a order old identifier password s
    ((a.authenticateStored order old identifier password).eval (inTurn c) (n, s)).1
    ((a.authenticateStored order old identifier password).eval (inTurn c) (n, s)).2.2 := by
  unfold Authenticator.authenticateStored
  split
  · exact .denied _
  · rename_i active
    have active : Active old := not_not.mp fun inactive => active (inactive_iff.mp inactive)
    split
    · exact .denied _
    · rename_i own
      split
      · exact .denied _
      · rename_i ldapAuth userInfo found
        show StoredLogin a order old identifier password s
          (Program.eval (inTurn c) (.call (.authenticate ldapAuth identifier password) _) (n, s)).1
          (Program.eval (inTurn c) (.call (.authenticate ldapAuth identifier password) _) (n, s)).2.2
        rw [Program.eval_call]
        cases accepts : ldapAuth.plaintextAuthentication identifier password with
        | error err =>
          have refused : inTurn c (.authenticate ldapAuth identifier password) (n, s) =
              (.error err, (n + 1, s)) := by simp only [inTurn, AuthOp.exec, accepts]
          rw [refused]
          exact .denied _
        | ok _ =>
          rw [inTurn_authenticate accepts]
          exact .ldap active own ⟨found, accepts⟩
    · rename_i own
      split
      · exact .denied _
      · exact .database active own
    · exact .denied _

/-- A user of a directory logs in whenever the authenticator that is asked accepts. -/
theorem eval_authenticateStored_ldap {n : ℕ} {s : World} (active : Active old)
    (own : old.source = .ldap) (asked : Asked a order true identifier password ldapAuth userInfo) :
    (a.authenticateStored order old identifier password).eval (inTurn c) (n, s) =
      (.ok old, (n + 1, s.accept ldapAuth.getName identifier password)) := by
  have unlocked : ¬ (old.isLocked || old.isDisabled) = true :=
    fun inactive => inactive_iff.mpr inactive active
  unfold Authenticator.authenticateStored
  rw [if_neg unlocked, own]
  dsimp only
  rw [asked.found]
  show Program.eval (inTurn c) (.call (.authenticate ldapAuth identifier password) _) (n, s) = _
  rw [Program.eval_call, inTurn_authenticate asked.accepts]
  rfl

/-- No authenticator that is asked accepts. -/
theorem eval_authenticateUnknown_denied {n : ℕ} {s : World}
    (refused : ∀ ldapAuth userInfo, ¬ Asked a order false identifier password ldapAuth userInfo) :
    ∃ err k, (a.authenticateUnknown order identifier password).eval (inTurn c) (n, s) =
      (.error err, (k, s)) := by
  unfold Authenticator.authenticateUnknown
  split
  · exact ⟨_, _, rfl⟩
  · rename_i ldapAuth userInfo found
    show ∃ err k, Program.eval (inTurn c)
      (.call (.authenticate ldapAuth identifier password) _) (n, s) = _
    rw [Program.eval_call]
    cases accepts : ldapAuth.plaintextAuthentication identifier password with
    | error err =>
      have refused : inTurn c (.authenticate ldapAuth identifier password) (n, s) =
          (.error err, (n + 1, s)) := by simp only [inTurn, AuthOp.exec, accepts]
      rw [refused]
      exact ⟨_, _, rfl⟩
    | ok _ => exact absurd ⟨found, accepts⟩ (refused ldapAuth userInfo)

/-- The same result, with another error. -/
def Rewrapped (r r' : Except Error User) : Prop := ∀ u, r' = .ok u ↔ r = .ok u

theorem eval_authenticateUnknown {n : ℕ} {s : World}
    (asked : Asked a order false identifier password ldapAuth userInfo) :
    ∃ r, Rewrapped
      ((a.processUserInfo systemAdminContextUserInfo userInfo .ldap ldapAuth.getName
        ldapAuth.registrationEnabled).eval (inTurn c)
          (n + 1, s.accept ldapAuth.getName identifier password)).1 r ∧
      (a.authenticateUnknown order identifier password).eval (inTurn c) (n, s) =
        (r, ((a.processUserInfo systemAdminContextUserInfo userInfo .ldap ldapAuth.getName
          ldapAuth.registrationEnabled).eval (inTurn c)
            (n + 1, s.accept ldapAuth.getName identifier password)).2) := by
  unfold Authenticator.authenticateUnknown
  rw [asked.found]
  show ∃ r, _ ∧ Program.eval (inTurn c)
    (.call (.authenticate ldapAuth identifier password) _) (n, s) = _
  rw [Program.eval_call, inTurn_authenticate asked.accepts]
  show ∃ r, _ ∧ Program.eval (inTurn c) (a.processUserInfo systemAdminContextUserInfo userInfo .ldap
    ldapAuth.getName ldapAuth.registrationEnabled >>= _) _ = _
  rw [eval_bind]
  generalize (a.processUserInfo systemAdminContextUserInfo userInfo .ldap ldapAuth.getName
    ldapAuth.registrationEnabled).eval (inTurn c) _ = result
  obtain ⟨r, k⟩ := result
  cases r with
  | error err => exact ⟨_, fun u => iff_of_false (by simp) (by simp), rfl⟩
  | ok user => exact ⟨_, fun u => Iff.rfl, rfl⟩

theorem eval_passwordAuthentication_stored (reads : Reads c 0 users identifier old) : ∃ k,
    (a.passwordAuthentication order identifier password).eval (inTurn c) (0, start users) =
      (a.authenticateStored order (counted old k) identifier password).eval (inTurn c)
        (2, start users) := by
  obtain ⟨k, read⟩ := @eval_getUser (start users) c 0 identifier old reads
  refine ⟨k, ?_⟩
  unfold Authenticator.passwordAuthentication
  rw [eval_bind, read]

theorem eval_passwordAuthentication_unread
    (unread : ∀ stored, ¬ Reads c 0 users identifier stored) :
    (a.passwordAuthentication order identifier password).eval (inTurn c) (0, start users) =
      (a.authenticateUnknown order identifier password).eval (inTurn c) (1, start users) := by
  obtain ⟨err, read⟩ := @eval_getUser_of_unread (start users) c 0 identifier unread
  unfold Authenticator.passwordAuthentication
  rw [eval_bind, read]

/-- The ways in which a login may end. -/
inductive Login (a : Authenticator) (order : MapOrder (String × AuthenticatorLdap))
    (c : ℕ → Circumstance) (users : Users.World) (identifier : UserIdentifier) (password : String) :
    Except Error User → World → Prop where
  | stored {old : User} {k : ℕ} {r : Except Error User} {t : World}
      (reads : Reads c 0 users identifier old)
      (login : StoredLogin a order (counted old k) identifier password (start users) r t) :
      Login a order c users identifier password r t
  | denied (err : Error) : Login a order c users identifier password (.error err) (start users)
  | unknown {ldapAuth : AuthenticatorLdap} {userInfo : AuthenticatorUserInfo}
      {r r' : Except Error User} {k : ℕ} {t : World}
      (unread : ∀ stored, ¬ Reads c 0 users identifier stored)
      (asked : Asked a order false identifier password ldapAuth userInfo)
      (rewrapped : Rewrapped r r')
      (result : (a.processUserInfo systemAdminContextUserInfo userInfo .ldap ldapAuth.getName
        ldapAuth.registrationEnabled).eval (inTurn c)
          (2, (start users).accept ldapAuth.getName identifier password) = (r, (k, t))) :
      Login a order c users identifier password r' t

theorem login : Login a order c users identifier password
    ((a.passwordAuthentication order identifier password).eval (inTurn c) (0, start users)).1
    ((a.passwordAuthentication order identifier password).eval (inTurn c) (0, start users)).2.2 := by
  by_cases known : ∃ stored, Reads c 0 users identifier stored
  · obtain ⟨stored, reads⟩ := known
    obtain ⟨k, run⟩ :=
      @eval_passwordAuthentication_stored a order identifier password c users stored reads
    rw [run]
    exact .stored reads eval_authenticateStored
  · have unread := not_exists.mp known
    rw [eval_passwordAuthentication_unread unread]
    by_cases any : ∃ ldapAuth userInfo, Asked a order false identifier password ldapAuth userInfo
    · obtain ⟨ldapAuth, userInfo, asked⟩ := any
      obtain ⟨r', rewrapped, run⟩ :=
        @eval_authenticateUnknown a order identifier password c _ _ 1 (start users) asked
      rw [run]
      generalize result : (a.processUserInfo systemAdminContextUserInfo userInfo .ldap
        ldapAuth.getName ldapAuth.registrationEnabled).eval (inTurn c) _ = processing
      rw [result] at rewrapped
      obtain ⟨r, k, t⟩ := processing
      exact .unknown unread asked rewrapped result
    · have refused := fun l i asked => any ⟨l, i, asked⟩
      obtain ⟨err, k, run⟩ :=
        @eval_authenticateUnknown_denied a order identifier password c 1 (start users) refused
      rw [run]
      exact .denied err

/-- A user who comes back and was stored before has been read. -/
theorem aliased_of_found (unread : ∀ stored, ¬ Reads c 0 users identifier stored)
    (asked : Asked a order false identifier password ldapAuth userInfo) {u : User} {k : ℕ}
    {t : World} (result : (a.processUserInfo systemAdminContextUserInfo userInfo .ldap
      ldapAuth.getName ldapAuth.registrationEnabled).eval (inTurn c)
        (2, (start users).accept ldapAuth.getName identifier password) = (.ok u, (k, t)))
    (found : users.users.find userInfo.identifier = some old) :
    Aliased a order c users identifier password ldapAuth userInfo old := by
  refine ⟨unread, asked, ?_⟩
  by_cases read : ∃ stored, Reads c 2 users userInfo.identifier stored
  · obtain ⟨stored, reads⟩ := read
    rw [Option.some.inj (found.symm.trans reads.2)]
    exact reads
  · have absent := @new_of_unread a ((start users).accept ldapAuth.getName identifier password) t
      userInfo .ldap ldapAuth.getName c 2 ldapAuth.registrationEnabled (not_exists.mp read) u k result
    have processed := (eval_processUserInfo (by decide) result).1
    rw [processed.named rfl] at absent
    cases found.symm.trans absent

/-- A user who is reported and may not log in comes back as it is. -/
theorem eval_passwordAuthentication_idle
    (aliased : Aliased a order c users identifier password ldapAuth userInfo old)
    (inactive : ¬ Active old) : ∃ k j,
    (a.passwordAuthentication order identifier password).eval (inTurn c) (0, start users) =
      (.ok (counted old k), (j, (start users).accept ldapAuth.getName identifier password)) := by
  obtain ⟨r', rewrapped, run⟩ :=
    @eval_authenticateUnknown a order identifier password c _ _ 1 (start users) aliased.asked
  obtain ⟨k, idle⟩ := @eval_processUserInfo_idle a
    ((start users).accept ldapAuth.getName identifier password) userInfo .ldap ldapAuth.getName c 2
    old ldapAuth.registrationEnabled aliased.reads inactive
  rw [idle] at rewrapped run
  have ok : r' = .ok (counted old k) := (rewrapped _).mpr rfl
  refine ⟨k, 4, ?_⟩
  rw [eval_passwordAuthentication_unread aliased.unread, run, ok]

/-- The name or the password as it is used: without surrounding space. -/
def trimmed (text : String) : String := String.ofList (trimSpace text.toList)

theorem run_plainLogin {username : String} (named : trimmed username ≠ "")
    (given : trimmed password ≠ "") {r : Except Error User} {k : ℕ} {t : World}
    (run : (a.passwordAuthentication order (trimmed username) (trimmed password)).eval (inTurn c)
      (0, start users) = (r, (k, t))) :
    Rewrapped r ((a.plainLogin order username password).run c (start users)).1 ∧
      ((a.plainLogin order username password).run c (start users)).2.users = t.users ∧
      ((a.plainLogin order username password).run c (start users)).2.accepted = t.accepted := by
  have entered : ¬ (trimmed username = "" ∨ trimmed password = "") := by tauto
  unfold Authenticator.plainLogin AuthProgram.run
  simp only [trimmed] at entered run
  rw [if_neg entered, eval_bind, run]
  cases r with
  | error err =>
    exact ⟨fun u => iff_of_false (fun ok => by cases ok) (fun ok => by cases ok), rfl, rfl⟩
  | ok user => exact ⟨fun u => Iff.rfl, rfl, rfl⟩

theorem run_plainLogin_blank {username : String}
    (blank : ¬ (trimmed username ≠ "" ∧ trimmed password ≠ "")) : ∃ err,
    (a.plainLogin order username password).run c (start users) = (.error err, start users) := by
  have empty : trimmed username = "" ∨ trimmed password = "" := by tauto
  unfold Authenticator.plainLogin AuthProgram.run
  simp only [trimmed] at empty
  rw [if_pos empty]
  exact ⟨_, rfl⟩

end Run

end WgPortal.Auth
