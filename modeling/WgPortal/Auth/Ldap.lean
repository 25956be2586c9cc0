import WgPortal.Domain.User

/-! The LDAP authenticator. The directory and the library that talks to it are a parameter. -/

namespace WgPortal.Auth

open Domain

/-- A value in the data that an authenticator returns. -/
inductive RawValue where
  | text (value : String)
  | bytes (values : List String)
  | null
  /-- any other value, by what the verb `%v` prints -/
  | other (shown : String)

abbrev RawUserInfo := String → Option RawValue

/-- What the verb `%v` prints. -/
def RawValue.shown : RawValue → String
  | text value => value
  | bytes values =>
    let printed := values.map fun value =>
      "[" ++ " ".intercalate (value.toUTF8.toList.map fun b => toString b.toNat) ++ "]"
    "[" ++ " ".intercalate printed ++ "]"
  | null => "<nil>"
  | other shown => shown

def mapDefaultString (m : RawUserInfo) (key dflt : String) : String :=
  match m key with
  | none => dflt
  | some .null => dflt
  | some value => value.shown

/-- What the authenticator needs of any LDAP provider. -/
structure AuthenticatorLdap where
  getName : String
  plaintextAuthentication : UserIdentifier → String → Except Error Unit
  getUserInfo : UserIdentifier → Except Error RawUserInfo
  parseUserInfo : RawUserInfo → Except Error AuthenticatorUserInfo
  registrationEnabled : Bool

structure LdapFields where
  userIdentifier : String
  email : String
  firstname : String
  lastname : String
  phone : String
  department : String
  groupMembership : String

structure LdapProvider where
  providerName : String
  baseDN : String
  fieldMap : LdapFields
  loginFilter : String
  adminGroupDN : String
  /-- users who are missing in the directory are disabled -/
  disableMissing : Bool
  /-- users who were disabled because they were missing are enabled once they are found again -/
  autoReEnable : Bool
  syncFilter : String
  registrationEnabled : Bool

structure LdapEntry where
  dn : String
  attributes : List (String × List String)

namespace LdapEntry

def getRawAttributeValues (entry : LdapEntry) (name : String) : List String :=
  ((entry.attributes.find? (·.1 = name)).map (·.2)).getD []

def getAttributeValue (entry : LdapEntry) (name : String) : String :=
  (entry.getRawAttributeValues name).headD ""

end LdapEntry

/-- A directory, as the library shows it; `connect` also binds as the search user. -/
structure LdapServer (DN : Type) where
  connect : Except Error Unit
  search : (baseDN filter : String) → List String → Except Error (List LdapEntry)
  bind : (dn password : String) → Except Error Unit
  parseDN : String → Except Error DN
  equal : DN → DN → Bool

variable {DN : Type}

def ldapSearchAttributes (fields : LdapFields) : List String :=
  let optional := [fields.email, fields.firstname, fields.lastname, fields.phone,
    fields.department, fields.groupMembership]
  (["dn", fields.userIdentifier] ++ optional.filter (· ≠ "")).eraseDups

/-- One entry of `LdapConvertEntries`: later fields overwrite earlier ones of the same name. -/
def ldapConvertEntry (fields : LdapFields) (entry : LdapEntry) : RawUserInfo :=
  let texts := [fields.userIdentifier, fields.email, fields.firstname, fields.lastname,
    fields.phone, fields.department]
  fun key =>
    if key = fields.groupMembership then
      some (.bytes (entry.getRawAttributeValues fields.groupMembership))
    else if key ∈ texts then some (.text (entry.getAttributeValue key))
    else none

def ldapIsMemberOf (server : LdapServer DN) (groupDN : DN) : List String → Except Error Bool
  | [] => .ok false
  | group :: groupData =>
    match server.parseDN group with
    | .error err => .error (.wrap "failed to parse group DN" err)
    | .ok dn => if server.equal groupDN dn then .ok true else ldapIsMemberOf server groupDN groupData

/-- `strings.Replace` without a limit, for a text that is not empty. Of an occurrence, the
characters behind the first are skipped. -/
def replaceAll (old new : List Char) : ℕ → List Char → List Char
  | _, [] => []
  | skipped + 1, _ :: text => replaceAll old new skipped text
  | 0, c :: text =>
    if old <+: c :: text then new ++ replaceAll old new (old.length - 1) text
    else c :: replaceAll old new 0 text

def loginIdentifier : String := "\x7b\x7blogin_identifier\x7d\x7d"

structure LdapAuthenticator (DN : Type) where
  cfg : LdapProvider
  parsedAdminGroupDN : DN

/-- Names that are not configured are those of Active Directory. -/
def getLdapFieldMapping (f : LdapFields) : LdapFields :=
  let orDefault := fun (name dflt : String) => if name ≠ "" then name else dflt
  { userIdentifier := orDefault f.userIdentifier "mail"
    email := orDefault f.email "mail"
    firstname := orDefault f.firstname "givenName"
    lastname := orDefault f.lastname "sn"
    phone := orDefault f.phone "telephoneNumber"
    department := orDefault f.department "department"
    groupMembership := orDefault f.groupMembership "memberOf" }

def newLdapAuthenticator (server : LdapServer DN) (cfg : LdapProvider) :
    Except Error (LdapAuthenticator DN) :=
  match server.parseDN cfg.adminGroupDN with
  | .error err => .error (.wrap "failed to parse admin group DN" err)
  | .ok dn => .ok ⟨{ cfg with fieldMap := getLdapFieldMapping cfg.fieldMap }, dn⟩

namespace LdapAuthenticator

variable (l : LdapAuthenticator DN) (server : LdapServer DN)

def loginFilter (userId : UserIdentifier) : String :=
  String.ofList (replaceAll loginIdentifier.toList userId.toList 0 l.cfg.loginFilter.toList)

/-- The one entry that the login filter finds. -/
def searchUser (userId : UserIdentifier) (attrs : List String) : Except Error LdapEntry :=
  match server.connect with
  | .error err => .error (.wrap "failed to setup connection" err)
  | .ok _ =>
    match server.search l.cfg.baseDN (l.loginFilter userId) attrs with
    | .error err => .error (.wrap "failed to search in ldap" err)
    | .ok [] => .error .notFound
    | .ok [entry] => .ok entry
    | .ok (_ :: _ :: _) => .error .notUnique

def plaintextAuthentication (userId : UserIdentifier) (plainPassword : String) :
    Except Error Unit :=
  match l.searchUser server userId ["dn"] with
  | .error err => .error err
  | .ok entry =>
    match server.bind entry.dn plainPassword with
    | .error err => .error (.wrap "invalid credentials" err)
    | .ok _ => .ok ()

def getUserInfo (userId : UserIdentifier) : Except Error RawUserInfo :=
  match l.searchUser server userId (ldapSearchAttributes l.cfg.fieldMap) with
  | .error err => .error err
  | .ok entry => .ok (ldapConvertEntry l.cfg.fieldMap entry)

/-- Other data than that of an entry has no groups, and panics. -/
def parseUserInfo (raw : RawUserInfo) : Except Error AuthenticatorUserInfo :=
  match raw l.cfg.fieldMap.groupMembership with
  | some (.bytes groups) =>
    match ldapIsMemberOf server l.parsedAdminGroupDN groups with
    | .error err => .error (.wrap "failed to check admin group" err)
    | .ok isAdmin =>
      .ok
        { identifier := mapDefaultString raw l.cfg.fieldMap.userIdentifier ""
          email := mapDefaultString raw l.cfg.fieldMap.email ""
          firstname := mapDefaultString raw l.cfg.fieldMap.firstname ""
          lastname := mapDefaultString raw l.cfg.fieldMap.lastname ""
          phone := mapDefaultString raw l.cfg.fieldMap.phone ""
          department := mapDefaultString raw l.cfg.fieldMap.department ""
          isAdmin := isAdmin }
  | _ => .error (.other "interface conversion")

def authenticator : AuthenticatorLdap where
  getName := l.cfg.providerName
  plaintextAuthentication := l.plaintextAuthentication server
  getUserInfo := l.getUserInfo server
  parseUserInfo := l.parseUserInfo server
  registrationEnabled := l.cfg.registrationEnabled

end LdapAuthenticator

end WgPortal.Auth
