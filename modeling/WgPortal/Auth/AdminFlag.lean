import WgPortal.Auth.ActiveUsers

/-! What becomes of the admin flag that an external source reports. -/

namespace WgPortal.Auth

open Domain Library Users Program
open AuthProgram (managing)

variable {a : Authenticator} {ui : ContextUserInfo} {s : World} {old : User}
  {userInfo : AuthenticatorUserInfo} {source : UserSource} {provider : String}

/-- The update takes the flag from the record that is stored, twice. -/
theorem always_updateExternalUser_isAdmin {k : ℕ}
    (found : s.users.users.find userInfo.identifier = some old) :
    (a.updateExternalUser ui (counted old k) userInfo source provider).Always Step s fun r t =>
      ∀ u, r = .ok u → ∃ stored, t.users.users.find userInfo.identifier = some stored ∧
        stored.isAdmin = old.isAdmin := by
  unfold Authenticator.updateExternalUser
  split
  · exact fun _ _ => ⟨old, found, rfl⟩
  · dsimp only
    split
    · exact fun _ _ => ⟨old, found, rfl⟩
    · have key : old.identifier = userInfo.identifier := Table.key_of_find found
      refine (always_managing (Users.always_updateUser _)).bind fun r t saves => ?_
      cases r with
      | error err => exact fun _ ok => by cases ok
      | ok u =>
        obtain ⟨⟨⟨old', allowed, updated⟩, stored⟩, -⟩ := saves
        obtain rfl : old' = old :=
          Option.some.inj (updated.found.symm.trans ((congrArg _ key).trans found))
        obtain ⟨base, n, password, same⟩ := updated.same
        have named : u.identifier = userInfo.identifier := by
          rw [same]
          exact key
        refine fun _ _ => ⟨row u, ?_, ?_⟩
        · rw [stored, ← named]
          exact find_store_self s.users.users u
        · rw [same]
          rfl

/-- After a successful update from an external source, the stored flag is the one it reports. -/
def FlagApplied (userInfo : AuthenticatorUserInfo) (r : Except Error User) (t : World) : Prop :=
  ∀ u, r = .ok u → ∃ stored, t.users.users.find userInfo.identifier = some stored ∧
    stored.isAdmin = userInfo.isAdmin

/-- A flag that differs from the stored one is never applied. -/
theorem updateExternalUser_not_flagApplied (a : Authenticator) (ui : ContextUserInfo)
    (c : ℕ → Circumstance) (n k : ℕ) (s : World) (old : User) (userInfo : AuthenticatorUserInfo)
    (source : UserSource) (provider : String)
    (found : s.users.users.find userInfo.identifier = some old)
    (differs : userInfo.isAdmin ≠ old.isAdmin) {u : User}
    (succeeds : ((a.updateExternalUser ui (counted old k) userInfo source provider).eval
      (inTurn c) (n, s)).1 = .ok u) :
    ¬ FlagApplied userInfo
      ((a.updateExternalUser ui (counted old k) userInfo source provider).eval (inTurn c) (n, s)).1
      ((a.updateExternalUser ui (counted old k) userInfo source provider).eval
        (inTurn c) (n, s)).2.2 := by
  intro applied
  obtain ⟨kept, found', same⟩ := @eval_of_always s c n _ _ _
    (@always_updateExternalUser_isAdmin a ui s old userInfo source provider k found) u succeeds
  obtain ⟨stored, found'', flag⟩ := applied u succeeds
  rw [Option.some.inj (found''.symm.trans found')] at flag
  exact differs (flag.symm.trans same)

/-- A user of the provider "one" -/
def alice (isAdmin : Bool) : User :=
  { lockedAlice .ldap with locked := none, isAdmin := isAdmin }

/-- What the provider reports of her -/
def aliceInfo (isAdmin : Bool) : AuthenticatorUserInfo := ⟨"alice", "", "", "", "", "", isAdmin⟩

theorem grantedFlag_not_applied : ¬ FlagApplied (aliceInfo true)
    ((sampleAuthenticator.updateExternalUser systemAdminContextUserInfo (alice false)
      (aliceInfo true) .ldap "one").eval (inTurn calm) (0, start (usersWith (alice false)))).1
    ((sampleAuthenticator.updateExternalUser systemAdminContextUserInfo (alice false)
      (aliceInfo true) .ldap "one").eval (inTurn calm)
        (0, start (usersWith (alice false)))).2.2 := by
  have succeeds : ((sampleAuthenticator.updateExternalUser systemAdminContextUserInfo
      (counted (alice false) 0) (aliceInfo true) .ldap "one").eval (inTurn calm)
        (0, start (usersWith (alice false)))).1 =
      .ok { alice false with base := ⟨"", ctxSystemAdminId, 0, 1⟩ } := by decide +kernel
  exact updateExternalUser_not_flagApplied sampleAuthenticator systemAdminContextUserInfo calm 0 0
    (start (usersWith (alice false))) (alice false) (aliceInfo true) .ldap "one"
    (by decide +kernel) (by decide) succeeds

/-- An administrator whose rights are revoked at the provider keeps them. -/
theorem revokedFlag_not_applied : ¬ ∀ (a : Authenticator) (s : World) (old : User)
    (userInfo : AuthenticatorUserInfo), old.source ≠ .database → Active old →
      s.users.users.find userInfo.identifier = some old → userInfo.isAdmin ≠ old.isAdmin →
      FlagApplied userInfo
        ((a.updateExternalUser systemAdminContextUserInfo old userInfo old.source
          old.providerName).eval (inTurn calm) (0, s)).1
        ((a.updateExternalUser systemAdminContextUserInfo old userInfo old.source
          old.providerName).eval (inTurn calm) (0, s)).2.2 := by
  intro applied
  have updated : ((sampleAuthenticator.updateExternalUser systemAdminContextUserInfo (alice true)
      (aliceInfo false) .ldap "one").eval (inTurn calm) (0, start (usersWith (alice true)))).1 =
      .ok { alice true with base := ⟨"", ctxSystemAdminId, 0, 1⟩ } := by decide +kernel
  obtain ⟨stored, found, flag⟩ := applied sampleAuthenticator (start (usersWith (alice true)))
    (alice true) (aliceInfo false) (by decide) (by decide) (by decide +kernel) (by decide) _ updated
  have still : (((sampleAuthenticator.updateExternalUser systemAdminContextUserInfo (alice true)
      (aliceInfo false) .ldap "one").eval (inTurn calm)
        (0, start (usersWith (alice true)))).2.2.users.users.find "alice").map User.isAdmin =
      some true := by decide +kernel
  have same : some stored.isAdmin = some true := (congrArg (Option.map User.isAdmin) found).symm.trans still
  rw [flag] at same
  cases same

end WgPortal.Auth
