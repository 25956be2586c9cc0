import WgPortal.Domain.Basic

/-! Users, and what an external authenticator reports of one. -/

namespace WgPortal.Domain

inductive UserSource where
  | ldap
  | database
  | oauth
  /-- the empty text -/
  | unset
  /-- any other text -/
  | other (name : String)
deriving DecidableEq

def UserSource.text : UserSource → String
  | ldap => "ldap"
  | database => "db"
  | oauth => "oauth"
  | unset => ""
  | other name => name

/-- A credential of the user whose list it is in. -/
structure UserWebauthnCredential where
  credentialIdentifier : String
  createdAt : Time
  displayName : String
  serializedCredential : String
deriving DecidableEq

structure User where
  base : BaseModel
  identifier : UserIdentifier
  email : String
  source : UserSource
  providerName : String
  isAdmin : Bool
  firstname : String
  lastname : String
  displayName : String
  phone : String
  department : String
  notes : String
  /-- hashed, once the user is stored -/
  password : String
  disabled : Option Time
  disabledReason : String
  locked : Option Time
  lockedReason : String
  webAuthnId : String
  webAuthnCredentialList : List UserWebauthnCredential
  apiToken : String
  apiTokenCreated : Option Time
  /-- not stored -/
  linkedPeerCount : ℕ
deriving DecidableEq

structure AuthenticatorUserInfo where
  identifier : UserIdentifier
  email : String
  firstname : String
  lastname : String
  phone : String
  department : String
  isAdmin : Bool
deriving DecidableEq

/-- The library that hashes passwords. -/
structure Bcrypt where
  compareHashAndPassword : String → String → Bool
  /-- whether `Cost` finds that the text is a hash -/
  isHash : String → Bool
  generateFromPassword : String → Except Error String

namespace User

def zero : User :=
  { base := ⟨"", "", 0, 0⟩
    identifier := ""
    email := ""
    source := .unset
    providerName := ""
    isAdmin := false
    firstname := ""
    lastname := ""
    displayName := ""
    phone := ""
    department := ""
    notes := ""
    password := ""
    disabled := none
    disabledReason := ""
    locked := none
    lockedReason := ""
    webAuthnId := ""
    webAuthnCredentialList := []
    apiToken := ""
    apiTokenCreated := none
    linkedPeerCount := 0 }

def isDisabled (u : User) : Bool := u.disabled.isSome

def isLocked (u : User) : Bool := u.locked.isSome

def canChangePassword (u : User) : Except Error Unit :=
  if u.source = .database then .ok ()
  else .error (.other "password change only allowed for database source")

/-- The length is that of the bytes. -/
def hasWeakPassword (u : User) (minLength : Int) : Except Error Unit :=
  if u.source ≠ .database then .ok ()
  else if u.password = "" then .ok ()
  else if (u.password.utf8ByteSize : Int) < minLength then
    .error (.other ("password is too short, minimum length is " ++ toString minLength))
  else .ok ()

/-- Of users of other sources, an edit may not touch what comes from there. -/
def editAllowed (u new : User) : Except Error Unit :=
  if u.source = .database then .ok ()
  else if u.identifier = new.identifier ∧ u.source = new.source ∧ u.isAdmin = new.isAdmin ∧
      u.email = new.email ∧ u.firstname = new.firstname ∧ u.lastname = new.lastname ∧
      u.phone = new.phone ∧ u.department = new.department then .ok ()
  else .error (.other "edit only allowed for database source")

def deleteAllowed (_ : User) : Except Error Unit := .ok ()

def checkPassword (b : Bcrypt) (u : User) (password : String) : Except Error Unit :=
  if u.source ≠ .database then .error (.other "invalid user source")
  else if u.isDisabled then .error (.other "user disabled")
  else if u.password = "" then .error (.other "empty user password")
  else if b.compareHashAndPassword u.password password then .ok ()
  else .error (.other "wrong password")

def isApiEnabled (u : User) : Bool := u.apiToken ≠ ""

def checkApiToken (u : User) (token : String) : Except Error Unit :=
  if !u.isApiEnabled then .error (.other "api access disabled")
  else if u.apiToken = token then .ok ()
  else .error (.other "wrong token")

def hashPassword (b : Bcrypt) (u : User) : Except Error User :=
  if u.password = "" then .ok u
  else if b.isHash u.password then .ok u
  else
    match b.generateFromPassword u.password with
    | .error err => .error err
    | .ok hash => .ok { u with password := hash }

def copyCalculatedAttributes (u src : User) : User :=
  { u with base := src.base, linkedPeerCount := src.linkedPeerCount, isAdmin := src.isAdmin }

/-- The same for a new user, who is an admin if its creator wants it. -/
def copyCalculatedAttributesFromExisting (u src : User) : User :=
  { u with base := src.base, linkedPeerCount := src.linkedPeerCount }

end User

end WgPortal.Domain
