import WgPortal.Auth.Ldap
import WgPortal.Users.Steps

/-! The synchronisation of the stored users with a directory. -/

namespace WgPortal.Users

open Domain Library Adapters App Auth Program
open UserProgram (issue)

def disabledReasonLdapMissing : String := "missing in ldap"

def ctxSystemLdapSyncer : UserIdentifier := "_WG_SYS_LDAP_SYNCER_"

def ldapSyncContextUserInfo : ContextUserInfo := ⟨ctxSystemLdapSyncer, true⟩

def ldapIdentifier (fields : LdapFields) (rawUser : RawUserInfo) : UserIdentifier :=
  mapDefaultString rawUser fields.userIdentifier ""

def userChangedInLdap (dbUser ldapUser : User) : Bool :=
  dbUser.firstname ≠ ldapUser.firstname ||
  dbUser.lastname ≠ ldapUser.lastname ||
  dbUser.email ≠ ldapUser.email ||
  dbUser.phone ≠ ldapUser.phone ||
  dbUser.department ≠ ldapUser.department ||
  dbUser.isDisabled ≠ ldapUser.isDisabled ||
  dbUser.isAdmin ≠ ldapUser.isAdmin ||
  dbUser.providerName ≠ ldapUser.providerName

/-- The directory says nothing of this; only a user who was missing may be enabled. -/
def withDisabled (provider : LdapProvider) (existingUser user : User) : User :=
  if provider.autoReEnable && existingUser.disabledReason = disabledReasonLdapMissing then
    { user with disabled := none, disabledReason := "" }
  else
    { user with
      disabled := existingUser.disabled, disabledReason := existingUser.disabledReason }

/-- What the update function of the synchronisation makes of the stored user. -/
def synced (user : User) (now : Time) (u : User) : User :=
  { u with
    base := { u.base with updatedAt := now, updatedBy := ctxSystemLdapSyncer }
    source := user.source
    providerName := user.providerName
    email := user.email
    firstname := user.firstname
    lastname := user.lastname
    phone := user.phone
    department := user.department
    isAdmin := user.isAdmin
    disabled := none
    disabledReason := "" }

/-- A user who is missing in the directory. -/
def missing (now : Time) (u : User) : User :=
  { u with disabled := some now, disabledReason := disabledReasonLdapMissing }

section Directory

variable {DN : Type} (server : LdapServer DN) (lowerRune : Char → Char)

/-- Data without groups panics. -/
def convertRawLdapUser (providerName : String) (rawUser : RawUserInfo) (fields : LdapFields)
    (adminGroupDN : DN) (now : Time) : Except Error User :=
  match rawUser fields.groupMembership with
  | some (.bytes groups) =>
    match ldapIsMemberOf server adminGroupDN groups with
    | .error err => .error (.wrap "failed to check admin group" err)
    | .ok isAdmin =>
      .ok
        { User.zero with
          base := ⟨ctxSystemLdapSyncer, ctxSystemLdapSyncer, now, now⟩
          identifier := ldapIdentifier fields rawUser
          email := String.ofList ((mapDefaultString rawUser fields.email "").toList.map lowerRune)
          source := .ldap
          providerName := providerName
          isAdmin := isAdmin
          firstname := mapDefaultString rawUser fields.firstname ""
          lastname := mapDefaultString rawUser fields.lastname ""
          phone := mapDefaultString rawUser fields.phone ""
          department := mapDefaultString rawUser fields.department "" }
  | _ => .error (.other "interface conversion")

namespace Manager

variable (m : Manager) (provider : LdapProvider)

/-- A user who is stored, and one in the directory. -/
def updateExistingLdapUser (existingUser user : User) : UserProgram (Except Error Unit) := do
  if existingUser.source = .ldap && userChangedInLdap existingUser user then
    let now ← issue .timeNow
    match ← repoSaveUser systemAdminContextUserInfo user.identifier
        fun u => .ok (synced user now u) with
    | .error err => return .error (.wrap ("update error for user id " ++ user.identifier) err)
    | .ok _ =>
      if existingUser.isDisabled && !user.isDisabled then issue (.publish (.userEnabled user))
      return .ok ()
  else return .ok ()

/-- One round of `updateLdapUsers`; without a user, the lookup panics. -/
def updateLdapUser (adminGroupDN : DN) (rawUser : RawUserInfo) :
    UserProgram (Except Error Unit) := do
  let now ← issue .timeNow
  match convertRawLdapUser server lowerRune provider.providerName rawUser provider.fieldMap
      adminGroupDN now with
  | .error err =>
    if !err.is .notFound then
      return .error (.wrap ("failed to convert LDAP data for " ++
        ((rawUser "dn").map RawValue.shown).getD "<nil>") err)
    return .error (.other "nil pointer dereference")
  | .ok user =>
    match ← issue (.repo (.getUser user.identifier)) with
    | .error err =>
      if !err.is .notFound then
        return .error (.wrap ("find error for user id " ++ user.identifier) err)
      match ← m.createUser systemAdminContextUserInfo user with
      | .error err => return .error (.wrap ("create error for user id " ++ user.identifier) err)
      | .ok _ => return .ok ()
    | .ok existingUser =>
      updateExistingLdapUser existingUser (withDisabled provider existingUser user)

def updateLdapUsers (adminGroupDN : DN) : List RawUserInfo → UserProgram (Except Error Unit)
  | [] => return .ok ()
  | rawUser :: rawUsers => do
    match ← m.updateLdapUser server lowerRune provider adminGroupDN rawUser with
    | .error err => return .error err
    | .ok _ => updateLdapUsers adminGroupDN rawUsers

/-- One round of `disableMissingLdapUsers`. -/
def disableMissingLdapUser (rawUsers : List RawUserInfo) (user : User) :
    UserProgram (Except Error Unit) := do
  if user.source ≠ .ldap then return .ok ()
  else if user.providerName ≠ provider.providerName then return .ok ()
  else if user.isDisabled then return .ok ()
  else if rawUsers.any fun raw => user.identifier = ldapIdentifier provider.fieldMap raw then
    return .ok ()
  else
    let now ← issue .timeNow
    match ← repoSaveUser ldapSyncContextUserInfo user.identifier fun u => .ok (missing now u) with
    | .error err => return .error (.wrap ("disable error for user id " ++ user.identifier) err)
    | .ok _ =>
      issue (.publish (.userDisabled (missing now user)))
      return .ok ()

def disableMissingUsers (rawUsers : List RawUserInfo) : List User → UserProgram (Except Error Unit)
  | [] => return .ok ()
  | user :: users => do
    match ← disableMissingLdapUser provider rawUsers user with
    | .error err => return .error err
    | .ok _ => disableMissingUsers rawUsers users

def disableMissingLdapUsers (rawUsers : List RawUserInfo) : UserProgram (Except Error Unit) := do
  match ← issue (.repo .getAllUsers) with
  | .error err => return .error err
  | .ok allUsers => disableMissingUsers provider rawUsers allUsers

/-- `synchronizeLdapUsers`, once the users were fetched. -/
def synchronizeWith (adminGroupDN : DN) (rawUsers : List RawUserInfo) :
    UserProgram (Except Error Unit) := do
  match ← m.updateLdapUsers server lowerRune provider adminGroupDN rawUsers with
  | .error err => return .error err
  | .ok _ =>
    if provider.disableMissing then disableMissingLdapUsers provider rawUsers else return .ok ()

def synchronizeLdapUsers : UserProgram (Except Error Unit) :=
  match server.parseDN provider.adminGroupDN with
  | .error err => return .error (.wrap "failed to parse admin group DN" err)
  | .ok dn =>
    match server.connect with
    | .error err => return .error (.wrap "failed to setup LDAP connection" err)
    | .ok _ =>
      match server.search provider.baseDN provider.syncFilter
          (ldapSearchAttributes provider.fieldMap) with
      | .error err => return .error (.wrap "failed to search" err)
      | .ok entries =>
        m.synchronizeWith server lowerRune provider dn
          (entries.map (ldapConvertEntry provider.fieldMap))

end Manager

end Directory

end WgPortal.Users
