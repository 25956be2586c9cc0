import WgPortal.Auth.ActiveUsers

/-! Whether users of a directory are logged in by the provider that their record names. -/

namespace WgPortal.Auth

open Domain Library Users Program
open WireGuard (MapOrder)

/-- The provider that is named in the record of the user has accepted the password. -/
def OwnProvider (identifier : UserIdentifier) (password : String) (users : Users.World)
    (r : Except Error User) (t : World) : Prop :=
  ∀ u old, r = .ok u → users.users.find u.identifier = some old → old.source = .ldap →
    ⟨old.providerName, identifier, password⟩ ∈ t.accepted

variable {a : Authenticator} {order : MapOrder (String × AuthenticatorLdap)}
  {identifier : UserIdentifier} {password : String} {c : ℕ → Circumstance} {users : Users.World}
  {old : User} {ldapAuth : AuthenticatorLdap} {userInfo : AuthenticatorUserInfo}

theorem ownProvider_error (err : Error) (t : World) :
    OwnProvider identifier password users (.error err) t :=
  fun _ _ ok => by cases ok

/-- Only one authenticator has been asked. -/
theorem mem_accept_start {provider name : String} :
    (⟨name, identifier, password⟩ : Acceptance) ∈
      ((start users).accept provider identifier password).accepted ↔ provider = name := by
  simp [World.accept, start, eq_comm]

/-- A stored user is let in by the authenticator that is asked. -/
theorem ownProvider_stored (reads : Reads c 0 users identifier old) (active : Active old)
    (own : old.source = .ldap) (asked : Asked a order true identifier password ldapAuth userInfo)
    (holds : OwnProvider identifier password users
      ((a.passwordAuthentication order identifier password).eval (inTurn c) (0, start users)).1
      ((a.passwordAuthentication order identifier password).eval (inTurn c)
        (0, start users)).2.2) : ldapAuth.getName = old.providerName := by
  obtain ⟨k, run⟩ :=
    @eval_passwordAuthentication_stored a order identifier password c users old reads
  have admitted := @eval_authenticateStored_ldap a order identifier password c (counted old k)
    ldapAuth userInfo 2 (start users) active own asked
  have key : old.identifier = identifier := Table.key_of_find reads.2
  rw [run, admitted] at holds
  exact mem_accept_start.mp (holds _ old rfl ((congrArg _ key).trans reads.2) own)

/-- So is one that an authenticator reports, if its update succeeds. -/
theorem ownProvider_aliased
    (aliased : Aliased a order c users identifier password ldapAuth userInfo old)
    (own : old.source = .ldap)
    (updates : Active old → Updates a.users c 4 old
      (externalUser old userInfo .ldap ldapAuth.getName))
    (holds : OwnProvider identifier password users
      ((a.passwordAuthentication order identifier password).eval (inTurn c) (0, start users)).1
      ((a.passwordAuthentication order identifier password).eval (inTurn c)
        (0, start users)).2.2) : ldapAuth.getName = old.providerName := by
  have key : old.identifier = userInfo.identifier := Table.key_of_find aliased.reads.2
  by_cases active : Active old
  · by_contra other
    have foreign : old.source ≠ .database := by rw [own]; decide
    have updated := (@processUserInfo_ok_iff a
      ((start users).accept ldapAuth.getName identifier password) userInfo .ldap ldapAuth.getName c
      2 old ldapAuth.registrationEnabled aliased.reads active foreign other).mpr (updates active)
    obtain ⟨r', rewrapped, run⟩ :=
      @eval_authenticateUnknown a order identifier password c _ _ 1 (start users) aliased.asked
    rw [eval_passwordAuthentication_unread aliased.unread, run] at holds
    generalize result : (a.processUserInfo systemAdminContextUserInfo userInfo .ldap
      ldapAuth.getName ldapAuth.registrationEnabled).eval (inTurn c) _ = processing
      at rewrapped holds updated
    obtain ⟨u, ok⟩ := updated
    obtain ⟨r, k, t⟩ := processing
    have ⟨processed, accepted⟩ := eval_processUserInfo (by decide) result
    have named : u.identifier = old.identifier := (processed.named ok).trans key.symm
    have found : users.users.find u.identifier = some old :=
      (congrArg _ (processed.named ok)).trans aliased.reads.2
    have accepted' := holds u old ((rewrapped u).mpr ok) found own
    rw [accepted] at accepted'
    exact other (mem_accept_start.mp accepted')
  · obtain ⟨k, j, run⟩ := eval_passwordAuthentication_idle aliased active
    rw [run] at holds
    exact mem_accept_start.mp (holds _ old rfl ((congrArg _ key).trans aliased.reads.2) own)

theorem ownProvider_accept {provider : String} {r : Except Error User} {t : World}
    (accepted : t.accepted = ((start users).accept provider identifier password).accepted)
    (named : ∀ u old, r = .ok u → users.users.find u.identifier = some old → old.source = .ldap →
      provider = old.providerName) : OwnProvider identifier password users r t := by
  intro u old ok found own
  rw [accepted]
  exact mem_accept_start.mpr (named u old ok found own)

/-- A stored user of a directory is asked for at the authenticator that is found first. -/
theorem ownProvider_of_stored {r : Except Error User} {t : World} {k : ℕ}
    (found : users.users.find identifier = some old)
    (each : ∀ ldapAuth userInfo, old.source = .ldap → Active old →
      Asked a order true identifier password ldapAuth userInfo →
        ldapAuth.getName = old.providerName)
    (login : StoredLogin a order (counted old k) identifier password (start users) r t) :
    OwnProvider identifier password users r t := by
  have key : old.identifier = identifier := Table.key_of_find found
  have same : ∀ {before : User}, users.users.find (counted old k).identifier = some before →
      before = old := fun found' =>
    Option.some.inj (found'.symm.trans ((congrArg users.users.find key).trans found))
  cases login with
  | denied err => exact ownProvider_error err _
  | database _ other =>
    have other : old.source = .database := other
    intro u before ok found' own
    cases ok
    rw [same found', other] at own
    cases own
  | @ldap ldapAuth userInfo active own asked =>
    refine ownProvider_accept rfl fun u before ok found' _ => ?_
    cases ok
    rw [same found']
    exact each ldapAuth userInfo own active asked

/-- A stored user of a directory logs in at the own provider only, if and only if the first
authenticator that knows the entered name is that provider, or it refuses the password or the
user. -/
theorem passwordAuthentication_ownProvider_iff (a : Authenticator)
    (order : MapOrder (String × AuthenticatorLdap)) (identifier : UserIdentifier)
    (password : String) (c : ℕ → Circumstance) (users : Users.World) :
    OwnProvider identifier password users
        ((a.passwordAuthentication order identifier password).run c (start users)).1
        ((a.passwordAuthentication order identifier password).run c (start users)).2 ↔
      (∀ ldapAuth userInfo old, Reads c 0 users identifier old → old.source = .ldap →
        Active old → Asked a order true identifier password ldapAuth userInfo →
          ldapAuth.getName = old.providerName) ∧
      (∀ ldapAuth userInfo old,
        Aliased a order c users identifier password ldapAuth userInfo old → old.source = .ldap →
          (Active old → Updates a.users c 4 old
            (externalUser old userInfo .ldap ldapAuth.getName)) →
          ldapAuth.getName = old.providerName) := by
  constructor
  · intro holds
    exact ⟨fun ldapAuth userInfo old reads own active asked =>
        ownProvider_stored reads active own asked holds,
      fun ldapAuth userInfo old aliased own updates =>
        ownProvider_aliased aliased own updates holds⟩
  · rintro ⟨stored, reported⟩
    show OwnProvider identifier password users
      ((a.passwordAuthentication order identifier password).eval (inTurn c) (0, start users)).1
      ((a.passwordAuthentication order identifier password).eval (inTurn c) (0, start users)).2.2
    generalize result : (a.passwordAuthentication order identifier password).eval (inTurn c)
      (0, start users) = final
    have outcome := @login a order identifier password c users
    rw [result] at outcome
    obtain ⟨r, k, t⟩ := final
    cases outcome with
    | @stored old _ _ _ reads login =>
      exact ownProvider_of_stored reads.2
        (fun ldapAuth userInfo => stored ldapAuth userInfo old reads) login
    | denied err => exact ownProvider_error err _
    | @unknown ldapAuth userInfo r' _ k' _ unread asked rewrapped processing =>
      have accepted := (eval_processUserInfo (by decide) processing).2
      refine ownProvider_accept accepted fun u old ok found own => ?_
      rw [(rewrapped u).mp ok] at processing
      have processed := (eval_processUserInfo (by decide) processing).1
      have aliased := aliased_of_found unread asked processing (processed.named rfl ▸ found)
      by_contra other
      refine other (reported ldapAuth userInfo old aliased own fun active => ?_)
      have foreign : old.source ≠ .database := by rw [own]; decide
      refine (@processUserInfo_ok_iff a ((start users).accept ldapAuth.getName identifier password)
        userInfo .ldap ldapAuth.getName c 2 old ldapAuth.registrationEnabled aliased.reads active
        foreign other).mp ⟨u, ?_⟩
      rw [processing]

/-- Two directories know the name, and the iteration begins with the other one. -/
def twoDirectories : Authenticator :=
  { sampleAuthenticator with
    ldapAuthenticators :=
      (Table.empty.upsert ("ldap://two", sampleLdap "two")).upsert ("ldap://one", sampleLdap "one") }

/-- A user of the provider "one" -/
def aliceOfOne : User := { lockedAlice .ldap with locked := none }

/-- The other provider lets the user in. -/
theorem foreignProvider_logsIn : ¬ OwnProvider "alice" "secret" (usersWith aliceOfOne)
    ((twoDirectories.passwordAuthentication .listed "alice" "secret").run calm
      (start (usersWith aliceOfOne))).1
    ((twoDirectories.passwordAuthentication .listed "alice" "secret").run calm
      (start (usersWith aliceOfOne))).2 := by
  have admitted : ((twoDirectories.passwordAuthentication .listed "alice" "secret").run calm
      (start (usersWith aliceOfOne))).1 = .ok aliceOfOne := by decide +kernel
  have asked : ((twoDirectories.passwordAuthentication .listed "alice" "secret").run calm
      (start (usersWith aliceOfOne))).2.accepted = [⟨"two", "alice", "secret"⟩] := by
    decide +kernel
  intro holds
  have accepted := holds _ aliceOfOne admitted (by decide +kernel) rfl
  rw [asked] at accepted
  revert accepted
  decide

end WgPortal.Auth
