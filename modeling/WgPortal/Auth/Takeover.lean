import WgPortal.Auth.ActiveUsers

/-! Whether an external authenticator can log in as a user of another source. -/

namespace WgPortal.Auth

open Domain Library Users Program
open AuthProgram (issue managing)
open WireGuard (MapOrder)

/-- An external login is one of a new user or of one of the same source, and it leaves the
source and the password of every stored user. -/
structure NoTakeover (external : Prop) (source : UserSource) (users : Users.World)
    (r : Except Error User) (t : World) : Prop where
  own : external → ∀ u old, r = .ok u → users.users.find u.identifier = some old →
    old.source = source
  kept : Kept users.users t.users.users

variable {a : Authenticator} {order : MapOrder (String × AuthenticatorLdap)}
  {identifier : UserIdentifier} {password : String} {c : ℕ → Circumstance} {users : Users.World}
  {old : User} {ldapAuth : AuthenticatorLdap} {userInfo : AuthenticatorUserInfo}

theorem noTakeover_error {external : Prop} {source : UserSource} (err : Error) {t : World}
    (kept : Kept users.users t.users.users) : NoTakeover external source users (.error err) t :=
  ⟨fun _ _ _ ok => (by cases ok), kept⟩

theorem Step.publish {event : App.AuthEvent} {answer : Unit} {s t : World}
    (step : Step (.publish event) s answer t) : t.users = s.users := by
  obtain ⟨c, run⟩ := step
  have after : t = (AuthOp.exec c (.publish event) s).2 := by rw [run]
  rw [after]
  rfl

/-- The last check lets in active users only. -/
theorem always_finishOauthLogin (providerId : String) (user : User) (s : World) :
    (Authenticator.finishOauthLogin providerId user).Always Step s fun r t =>
      t.users = s.users ∧ ∀ u, r = .ok u → u = user ∧ Active user := by
  unfold Authenticator.finishOauthLogin
  split
  · exact fun _ t announced => ⟨announced.publish, fun u ok => by cases ok⟩
  · rename_i active
    have active : Active user := not_not.mp fun inactive => active (inactive_iff.mp inactive)
    intro _ t login _ t' success
    exact ⟨success.publish.trans login.publish, fun u ok => ⟨(Except.ok.inj ok).symm, active⟩⟩

theorem always_oauthLoginStep2 (providerId nonce code : String) :
    (a.oauthLoginStep2 providerId nonce code).Always Step (start users)
      (NoTakeover True .oauth users) := by
  have refused : ∀ err, NoTakeover True .oauth users (.error err) (start users) :=
    fun err => noTakeover_error err (Kept.refl users.users)
  unfold Authenticator.oauthLoginStep2
  split
  · exact refused _
  · split
    · exact refused _
    · split
      · exact refused _
      · split
        · exact refused _
        · rename_i userInfo _
          split
          · exact refused _
          · refine (always_processUserInfo (by decide)).bind fun r t outcome => ?_
            have processed : Processed userInfo .oauth users.users r t.users.users := outcome.1
            cases r with
            | error err =>
              intro _ t' announced
              rw [← announced.publish] at processed
              exact noTakeover_error _ processed.kept
            | ok user =>
              refine (always_finishOauthLogin providerId user t).mono fun r t' ended => ?_
              refine ⟨fun _ u old ok found => ?_, ?_⟩
              · obtain ⟨rfl, active⟩ := ended.2 u ok
                exact processed.own rfl found active
              · rw [ended.1]
                exact processed.kept

theorem noTakeover_congr {external : Prop} {source : UserSource} {r r' : Except Error User}
    {t t' : World} (same : Rewrapped r r') (stored : t'.users = t.users) :
    NoTakeover external source users r' t' ↔ NoTakeover external source users r t := by
  constructor
  · intro holds
    exact ⟨fun e u old ok => holds.own e u old ((same u).mpr ok), stored ▸ holds.kept⟩
  · intro holds
    exact ⟨fun e u old ok => holds.own e u old ((same u).mp ok), stored.symm ▸ holds.kept⟩

theorem noTakeover_stored {r : Except Error User} {t : World} {k : ℕ}
    (found : users.users.find identifier = some old)
    (login : StoredLogin a order (counted old k) identifier password (start users) r t) :
    NoTakeover (t.accepted ≠ []) .ldap users r t := by
  have key : old.identifier = identifier := Table.key_of_find found
  cases login with
  | denied err => exact noTakeover_error err (Kept.refl users.users)
  | database => exact ⟨fun external => absurd rfl external, Kept.refl users.users⟩
  | ldap _ own =>
    refine ⟨fun _ u before ok found' => ?_, Kept.refl users.users⟩
    cases ok
    have same : some before = some old := by
      rw [← found, ← key]
      exact found'.symm
    rw [Option.some.inj same]
    exact own

theorem noTakeover_iff : NoTakeover
    (((a.passwordAuthentication order identifier password).eval (inTurn c)
      (0, start users)).2.2.accepted ≠ []) .ldap users
    ((a.passwordAuthentication order identifier password).eval (inTurn c) (0, start users)).1
    ((a.passwordAuthentication order identifier password).eval (inTurn c) (0, start users)).2.2 ↔
      ∀ ldapAuth userInfo old, Aliased a order c users identifier password ldapAuth userInfo old →
        Active old ∨ old.source = .ldap := by
  constructor
  · intro holds ldapAuth userInfo old aliased
    by_cases active : Active old
    · exact .inl active
    · obtain ⟨k, j, run⟩ := eval_passwordAuthentication_idle aliased active
      rw [run] at holds
      have key : old.identifier = userInfo.identifier := Table.key_of_find aliased.reads.2
      have found : users.users.find (counted old k).identifier = some old :=
        (congrArg users.users.find key).trans aliased.reads.2
      exact .inr (holds.own (by simp [World.accept, start]) _ old rfl found)
  · intro each
    generalize result : (a.passwordAuthentication order identifier password).eval (inTurn c)
      (0, start users) = final
    have outcome := @login a order identifier password c users
    rw [result] at outcome
    obtain ⟨r, k, t⟩ := final
    cases outcome with
    | stored reads stored => exact noTakeover_stored reads.2 stored
    | denied err => exact noTakeover_error err (Kept.refl users.users)
    | unknown unread asked rewrapped result =>
      refine ⟨fun _ u old ok found => ?_, (eval_processUserInfo (by decide) result).1.kept⟩
      rw [(rewrapped u).mp ok] at result
      have processed := (eval_processUserInfo (by decide) result).1
      have reported : users.users.find _ = some old := processed.named rfl ▸ found
      rcases each _ _ _ (aliased_of_found unread asked result reported) with active | own
      · exact processed.own rfl found ((processed.active_iff rfl found).mpr active)
      · exact own

/-- A login at an OAuth provider takes over no account of another source. One with a password
does not either, if and only if no authenticator reports a locked or disabled user of
another source under a name that is not found itself. -/
theorem externalLogin_noTakeover_iff (a : Authenticator)
    (order : MapOrder (String × AuthenticatorLdap)) (username password : String)
    (c : ℕ → Circumstance) (users : Users.World) :
    (∀ providerId nonce code, NoTakeover True .oauth users
      ((a.oauthLoginStep2 providerId nonce code).run c (start users)).1
      ((a.oauthLoginStep2 providerId nonce code).run c (start users)).2) ∧
    (NoTakeover (((a.plainLogin order username password).run c (start users)).2.accepted ≠ [])
        .ldap users ((a.plainLogin order username password).run c (start users)).1
        ((a.plainLogin order username password).run c (start users)).2 ↔
      (trimmed username ≠ "" ∧ trimmed password ≠ "" → ∀ ldapAuth userInfo old,
        Aliased a order c users (trimmed username) (trimmed password) ldapAuth userInfo old →
          Active old ∨ old.source = .ldap)) := by
  refine ⟨fun providerId nonce code => ?_, ?_⟩
  · have always := @always_oauthLoginStep2 a users providerId nonce code
    exact eval_of_always always
  · by_cases entered : trimmed username ≠ "" ∧ trimmed password ≠ ""
    · rw [forall_prop_of_true entered, ← noTakeover_iff]
      generalize result : (a.passwordAuthentication order (trimmed username)
        (trimmed password)).eval (inTurn c) (0, start users) = final
      obtain ⟨r, k, t⟩ := final
      obtain ⟨same, stored, accepted⟩ := run_plainLogin entered.1 entered.2 result
      rw [accepted]
      exact noTakeover_congr same stored
    · obtain ⟨err, run⟩ := @run_plainLogin_blank a order password c users username entered
      rw [run]
      exact iff_of_true (noTakeover_error err (Kept.refl users.users))
        fun given => absurd given entered

/-- A user of the directory gets the locked account of the database that has the same
identifier. -/
theorem lockedAccount_takenOver : ¬ NoTakeover
    (((sampleAuthenticator.plainLogin .listed "alice@example" "secret").run calm
      (start (usersWith (lockedAlice .database)))).2.accepted ≠ []) .ldap
    (usersWith (lockedAlice .database))
    ((sampleAuthenticator.plainLogin .listed "alice@example" "secret").run calm
      (start (usersWith (lockedAlice .database)))).1
    ((sampleAuthenticator.plainLogin .listed "alice@example" "secret").run calm
      (start (usersWith (lockedAlice .database)))).2 := by
  have external : ((sampleAuthenticator.plainLogin .listed "alice@example" "secret").run calm
      (start (usersWith (lockedAlice .database)))).2.accepted ≠ [] := by decide +kernel
  have admitted : ((sampleAuthenticator.plainLogin .listed "alice@example" "secret").run calm
      (start (usersWith (lockedAlice .database)))).1 = .ok (lockedAlice .database) := by
    decide +kernel
  intro holds
  have own := holds.own external _ (lockedAlice .database) admitted (by decide +kernel)
  cases own

end WgPortal.Auth
