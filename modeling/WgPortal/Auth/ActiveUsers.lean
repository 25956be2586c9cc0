import WgPortal.Auth.Login

/-! Whether users who are locked or disabled can log in with a password. -/

namespace WgPortal.Auth

open Domain Library Users Program
open WireGuard (MapOrder)

/-- The user who is returned is stored, and neither locked nor disabled. -/
def ActiveOnly (r : Except Error User) (t : World) : Prop :=
  ∀ u, r = .ok u → ∃ stored, t.users.users.find u.identifier = some stored ∧ Active stored

variable {a : Authenticator} {order : MapOrder (String × AuthenticatorLdap)}
  {identifier : UserIdentifier} {password : String} {c : ℕ → Circumstance} {users : Users.World}
  {old : User} {ldapAuth : AuthenticatorLdap} {userInfo : AuthenticatorUserInfo}

theorem activeOnly_error (err : Error) (t : World) : ActiveOnly (.error err) t :=
  fun _ ok => by cases ok

/-- Users who are stored under the entered name are checked. -/
theorem activeOnly_stored {r : Except Error User} {s t : World} {k : ℕ}
    (found : s.users.users.find identifier = some old)
    (login : StoredLogin a order (counted old k) identifier password s r t) : ActiveOnly r t := by
  have key : old.identifier = identifier := Table.key_of_find found
  intro u ok
  cases login with
  | denied => cases ok
  | database active | ldap active =>
    cases ok
    exact ⟨old, (congrArg _ key).trans found, active⟩

theorem activeOnly_iff : ActiveOnly
    ((a.passwordAuthentication order identifier password).eval (inTurn c) (0, start users)).1
    ((a.passwordAuthentication order identifier password).eval (inTurn c) (0, start users)).2.2 ↔
      ∀ ldapAuth userInfo old, Aliased a order c users identifier password ldapAuth userInfo old →
        Active old := by
  constructor
  · intro holds ldapAuth userInfo old aliased
    by_contra inactive
    obtain ⟨k, j, run⟩ := eval_passwordAuthentication_idle aliased inactive
    rw [run] at holds
    obtain ⟨stored, found, active⟩ := holds _ rfl
    have key : old.identifier = userInfo.identifier := Table.key_of_find aliased.reads.2
    have same : some stored = some old := by
      rw [← found, ← aliased.reads.2, ← key]
      rfl
    rw [Option.some.inj same] at active
    exact inactive active
  · intro each
    generalize result : (a.passwordAuthentication order identifier password).eval (inTurn c)
      (0, start users) = final
    have outcome := @login a order identifier password c users
    rw [result] at outcome
    obtain ⟨r, k, t⟩ := final
    cases outcome with
    | stored reads stored => exact activeOnly_stored reads.2 stored
    | denied err => exact activeOnly_error err _
    | unknown unread asked rewrapped result =>
      intro u ok
      rw [(rewrapped u).mp ok] at result
      refine (eval_processUserInfo (by decide) result).1.active rfl fun old found => ?_
      exact each _ _ _ (aliased_of_found unread asked result found)

/-- A login with a password lets in nobody who is locked or disabled, if and only if no
authenticator reports such a user under a name that is not found itself. -/
theorem plainLogin_active_iff (a : Authenticator) (order : MapOrder (String × AuthenticatorLdap))
    (username password : String) (c : ℕ → Circumstance) (users : Users.World) :
    ActiveOnly ((a.plainLogin order username password).run c (start users)).1
        ((a.plainLogin order username password).run c (start users)).2 ↔
      (trimmed username ≠ "" ∧ trimmed password ≠ "" → ∀ ldapAuth userInfo old,
        Aliased a order c users (trimmed username) (trimmed password) ldapAuth userInfo old →
          Active old) := by
  by_cases entered : trimmed username ≠ "" ∧ trimmed password ≠ ""
  · rw [forall_prop_of_true entered, ← activeOnly_iff]
    generalize result : (a.passwordAuthentication order (trimmed username)
      (trimmed password)).eval (inTurn c) (0, start users) = final
    obtain ⟨r, k, t⟩ := final
    obtain ⟨same, stored, _⟩ := run_plainLogin entered.1 entered.2 result
    simp only [ActiveOnly, same _, stored]
  · obtain ⟨err, run⟩ :=
      @run_plainLogin_blank a order password c users username entered
    rw [run]
    exact iff_of_true (activeOnly_error err _) fun given => absurd given entered

/-- A provider whose users may enter their identifier or their mail address. -/
def sampleProvider (name : String) : LdapProvider where
  providerName := name
  baseDN := "dc=example"
  fieldMap := ⟨"uid", "mail", "givenName", "sn", "telephoneNumber", "department", "memberOf"⟩
  loginFilter := "(|(uid=" ++ loginIdentifier ++ ")(mail=" ++ loginIdentifier ++ "))"
  adminGroupDN := "cn=admins"
  disableMissing := true
  autoReEnable := true
  syncFilter := "(objectClass=person)"
  registrationEnabled := true

def aliceEntry : LdapEntry :=
  ⟨"uid=alice,dc=example", [("uid", ["alice"]), ("mail", ["alice@example"]), ("memberOf", [])]⟩

/-- The directory has one user. -/
def sampleServer : LdapServer String where
  connect := .ok ()
  search := fun _ filter _ =>
    if filter ∈ ["(|(uid=alice)(mail=alice))", "(|(uid=alice@example)(mail=alice@example))"] then
      .ok [aliceEntry]
    else .ok []
  bind := fun dn password =>
    if dn = aliceEntry.dn ∧ password = "secret" then .ok ()
    else .error (.other "Invalid Credentials")
  parseDN := .ok
  equal := fun dn dn' => dn = dn'

def sampleLdap (name : String) : AuthenticatorLdap :=
  LdapAuthenticator.authenticator ⟨sampleProvider name, "cn=admins"⟩ sampleServer

/-- Passwords are their own hashes. -/
def plainBcrypt : Bcrypt := ⟨fun hash password => hash = password, fun _ => true, .ok⟩

def sampleAuthenticator : Authenticator where
  oauthAuthenticators := Table.empty
  ldapAuthenticators := Table.empty.upsert ("ldap://one", sampleLdap "one")
  users := ⟨16, plainBcrypt⟩
  lowerRune := Char.toLower

def calm : ℕ → Circumstance := fun _ => ⟨1, none, ""⟩

def usersWith (user : User) : Users.World := ⟨Table.empty.upsert user, .empty, []⟩

/-- A user whom an administrator has locked -/
def lockedAlice (source : UserSource) : User :=
  { User.zero with identifier := "alice", source := source, providerName := "one", locked := some 1 }

/-- Under the own name the login is refused, under the mail address it succeeds. -/
theorem lockedUser_logsIn :
    ActiveOnly ((sampleAuthenticator.plainLogin .listed "alice" "secret").run calm
      (start (usersWith (lockedAlice .ldap)))).1
      ((sampleAuthenticator.plainLogin .listed "alice" "secret").run calm
        (start (usersWith (lockedAlice .ldap)))).2 ∧
    ¬ ActiveOnly ((sampleAuthenticator.plainLogin .listed "alice@example" "secret").run calm
      (start (usersWith (lockedAlice .ldap)))).1
      ((sampleAuthenticator.plainLogin .listed "alice@example" "secret").run calm
        (start (usersWith (lockedAlice .ldap)))).2 := by
  have refused : ((sampleAuthenticator.plainLogin .listed "alice" "secret").run calm
      (start (usersWith (lockedAlice .ldap)))).1.isOk = false := by decide +kernel
  have admitted : ((sampleAuthenticator.plainLogin .listed "alice@example" "secret").run calm
      (start (usersWith (lockedAlice .ldap)))).1 = .ok (lockedAlice .ldap) := by decide +kernel
  have stored : ((sampleAuthenticator.plainLogin .listed "alice@example" "secret").run calm
      (start (usersWith (lockedAlice .ldap)))).2.users.users.find "alice" =
        some (lockedAlice .ldap) := by decide +kernel
  refine ⟨fun u ok => ?_, fun active => ?_⟩
  · rw [ok] at refused
    cases refused
  · obtain ⟨user, found, unlocked, _⟩ := active _ admitted
    rw [Option.some.inj (found.symm.trans stored)] at unlocked
    cases unlocked

end WgPortal.Auth
