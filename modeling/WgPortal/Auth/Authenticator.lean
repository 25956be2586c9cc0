import WgPortal.Auth.Ldap
import WgPortal.Domain.Cidr
import WgPortal.Library.Table
import WgPortal.Users.Manager
import WgPortal.WireGuard.Manager

/-! Logins with a password and with an OAuth provider. -/

namespace WgPortal.Auth

open Domain Library App Users
open WireGuard (MapOrder)

/-- What the authenticator needs of any OAuth or OIDC provider; a token is known by its text. -/
structure AuthenticatorOauth where
  getName : String
  exchange : (code : String) → Except Error String
  getUserInfo : (token nonce : String) → Except Error RawUserInfo
  parseUserInfo : RawUserInfo → Except Error AuthenticatorUserInfo
  registrationEnabled : Bool
  getAllowedDomains : List String

/-- The providers are maps from their keys. -/
structure Authenticator where
  oauthAuthenticators : Table (Prod.fst : String × AuthenticatorOauth → String)
  ldapAuthenticators : Table (Prod.fst : String × AuthenticatorLdap → String)
  users : Users.Manager
  /-- `unicode.ToLower` -/
  lowerRune : Char → Char

inductive AuthOp where
  | users (op : UserOp)
  /-- `PlaintextAuthentication` -/
  | authenticate (provider : AuthenticatorLdap) (userId : UserIdentifier) (password : String)
  | publish (event : AuthEvent)

abbrev AuthOp.Res : AuthOp → Type
  | users op => op.Res
  | authenticate .. => Except Error Unit
  | publish _ => Unit

abbrev AuthProgram := Program AuthOp AuthOp.Res

namespace AuthProgram

def issue (op : AuthOp) : AuthProgram op.Res := Program.perform op

def managing {α : Type} (prog : UserProgram α) : AuthProgram α :=
  prog.embed fun op => issue (.users op)

end AuthProgram

open AuthProgram (issue managing)

/-- An authenticator has accepted a password. -/
structure Acceptance where
  provider : String
  userId : UserIdentifier
  password : String
deriving DecidableEq

/-- `accepted` records which authenticators have accepted a password. -/
structure World where
  users : Users.World
  accepted : List Acceptance
  events : List AuthEvent

def AuthOp.exec (c : Circumstance) : (op : AuthOp) → World → op.Res × World
  | .users op, world =>
    let (answer, next) := op.exec c world.users
    (answer, { world with users := next })
  | .authenticate provider userId password, world =>
    match provider.plaintextAuthentication userId password with
    | .error err => (.error err, world)
    | .ok _ =>
      (.ok (), { world with accepted := world.accepted ++ [⟨provider.getName, userId, password⟩] })
  | .publish event, world => ((), { world with events := world.events ++ [event] })

/-- The operations of one call in a row, each under the circumstances of its turn. -/
def inTurn (circumstances : ℕ → Circumstance) (op : AuthOp) (s : ℕ × World) :
    op.Res × (ℕ × World) :=
  let (answer, world) := op.exec (circumstances s.1) s.2
  (answer, (s.1 + 1, world))

def AuthProgram.run {α : Type} (circumstances : ℕ → Circumstance) (prog : AuthProgram α)
    (world : World) : α × World :=
  let (result, s) := prog.eval (inTurn circumstances) (0, world)
  (result, s.2)

/-- The user with what its external source reports. -/
def externalUser (existingUser : User) (userInfo : AuthenticatorUserInfo) (source : UserSource)
    (provider : String) : User :=
  { existingUser with
    email := userInfo.email
    firstname := userInfo.firstname
    lastname := userInfo.lastname
    phone := userInfo.phone
    department := userInfo.department
    isAdmin := userInfo.isAdmin
    source := source
    providerName := provider }

def newExternalUser (userInfo : AuthenticatorUserInfo) (source : UserSource) (provider : String) :
    User :=
  { User.zero with
    identifier := userInfo.identifier
    email := userInfo.email
    source := source
    providerName := provider
    isAdmin := userInfo.isAdmin
    firstname := userInfo.firstname
    lastname := userInfo.lastname
    phone := userInfo.phone
    department := userInfo.department }

namespace Authenticator

variable (a : Authenticator)

def registerNewUser (ui : ContextUserInfo) (userInfo : AuthenticatorUserInfo)
    (source : UserSource) (provider : String) : AuthProgram (Except Error User) := do
  match ← managing (a.users.registerUser ui (newExternalUser userInfo source provider)) with
  | .error err => return .error (.wrap "failed to register new user" err)
  | .ok user => return .ok user

/-- A locked or disabled user is left as it is. The user comes back as it is then: the
caller's record is changed in place. -/
def updateExternalUser (ui : ContextUserInfo) (existingUser : User)
    (userInfo : AuthenticatorUserInfo) (source : UserSource) (provider : String) :
    AuthProgram (Except Error User) := do
  if existingUser.isLocked || existingUser.isDisabled then return .ok existingUser
  let user := externalUser existingUser userInfo source provider
  if user = existingUser then return .ok existingUser
  match ← managing (a.users.updateUser ui user) with
  | .error err => return .error (.wrap "failed to update user" err)
  | .ok user => return .ok user

def processUserInfo (ui : ContextUserInfo) (userInfo : AuthenticatorUserInfo) (source : UserSource)
    (provider : String) (withReg : Bool) : AuthProgram (Except Error User) := do
  match ← managing (Users.Manager.getUser ui userInfo.identifier) with
  | .error err =>
    if withReg then
      match ← a.registerNewUser ui userInfo source provider with
      | .error err => return .error (.wrap "failed to register user" err)
      | .ok user => return .ok user
    return .error (.wrap "registration disabled, cannot create missing user" err)
  | .ok user =>
    match ← a.updateExternalUser ui user userInfo source provider with
    | .error err => return .error (.wrap "failed to update user" err)
    | .ok user => return .ok user

/-- The first provider that finds the user. For a user who is not stored, only providers
with registration are asked. -/
def findLdapUser (userInDatabase : Bool) (identifier : UserIdentifier) :
    List AuthenticatorLdap → Option (AuthenticatorLdap × AuthenticatorUserInfo)
  | [] => none
  | ldapAuth :: rest =>
    if !userInDatabase && !ldapAuth.registrationEnabled then
      findLdapUser userInDatabase identifier rest
    else
      match ldapAuth.getUserInfo identifier with
      | .error _ => findLdapUser userInDatabase identifier rest
      | .ok rawUserInfo =>
        match ldapAuth.parseUserInfo rawUserInfo with
        | .error _ => findLdapUser userInDatabase identifier rest
        | .ok userInfo => some (ldapAuth, userInfo)

/-- The providers in the order in which the loop meets them. -/
def ldapInOrder (order : MapOrder (String × AuthenticatorLdap)) : List AuthenticatorLdap :=
  (order.order a.ldapAuthenticators.rows).map Prod.snd

/-- `passwordAuthentication` for a user who is stored. -/
def authenticateStored (order : MapOrder (String × AuthenticatorLdap)) (existingUser : User)
    (identifier : UserIdentifier) (password : String) : AuthProgram (Except Error User) := do
  if existingUser.isLocked || existingUser.isDisabled then return .error (.other "user is locked")
  match existingUser.source with
  | .unset => return .error (.other "user not found")
  | .ldap =>
    match findLdapUser true identifier (a.ldapInOrder order) with
    | none => return .error (.other "ldap provider not found")
    | some (ldapProvider, _) =>
      match ← issue (.authenticate ldapProvider identifier password) with
      | .error err => return .error (.wrap "failed to authenticate" err)
      | .ok _ => return .ok existingUser
  | .database =>
    match existingUser.checkPassword a.users.bcrypt password with
    | .error err => return .error (.wrap "failed to authenticate" err)
    | .ok _ => return .ok existingUser
  | _ =>
    return .error (.wrap "failed to authenticate" (.other "no authentication backend available"))

/-- The same for a user who is not stored, or whose record cannot be read. -/
def authenticateUnknown (order : MapOrder (String × AuthenticatorLdap))
    (identifier : UserIdentifier) (password : String) : AuthProgram (Except Error User) := do
  match findLdapUser false identifier (a.ldapInOrder order) with
  | none => return .error (.other "user not found")
  | some (ldapProvider, ldapUserInfo) =>
    match ← issue (.authenticate ldapProvider identifier password) with
    | .error err => return .error (.wrap "failed to authenticate" err)
    | .ok _ =>
      match ← a.processUserInfo systemAdminContextUserInfo ldapUserInfo .ldap ldapProvider.getName
          ldapProvider.registrationEnabled with
      | .error err => return .error (.wrap "unable to process user information" err)
      | .ok user => return .ok user

def passwordAuthentication (order : MapOrder (String × AuthenticatorLdap))
    (identifier : UserIdentifier) (password : String) : AuthProgram (Except Error User) := do
  match ← managing (Users.Manager.getUser systemAdminContextUserInfo identifier) with
  | .ok existingUser => a.authenticateStored order existingUser identifier password
  | .error _ => a.authenticateUnknown order identifier password

def plainLogin (order : MapOrder (String × AuthenticatorLdap)) (username password : String) :
    AuthProgram (Except Error User) := do
  let username := String.ofList (trimSpace username.toList)
  let password := String.ofList (trimSpace password.toList)
  if username = "" ∨ password = "" then return .error (.other "missing username or password")
  match ← a.passwordAuthentication order username password with
  | .error err =>
    issue (.publish (.auditLoginFailed "plain" username err.text))
    return .error (.wrap "login failed" err)
  | .ok user =>
    issue (.publish (.authLogin user.identifier))
    issue (.publish (.auditLoginSuccess "plain" user.identifier))
    return .ok user

def isDomainAllowed (email : String) (allowedDomains : List String) : Bool :=
  if allowedDomains = [] then true
  else
    match email.toList.splitOn '@' with
    | [_, domain] =>
      allowedDomains.any fun allowed => domain.map a.lowerRune = allowed.toList.map a.lowerRune
    | _ => false

/-- The end of `OauthLoginStep2`. -/
def finishOauthLogin (providerId : String) (user : User) : AuthProgram (Except Error User) := do
  if user.isLocked || user.isDisabled then
    issue (.publish (.auditLoginFailed ("oauth " ++ providerId) user.identifier "user is locked"))
    return .error (.other "user is locked")
  issue (.publish (.authLogin user.identifier))
  issue (.publish (.auditLoginSuccess ("oauth " ++ providerId) user.identifier))
  return .ok user

def oauthLoginStep2 (providerId nonce code : String) : AuthProgram (Except Error User) :=
  match a.oauthAuthenticators.find providerId with
  | none => return .error (.other ("missing oauth provider " ++ providerId))
  | some (_, oauthProvider) =>
    match oauthProvider.exchange code with
    | .error err => return .error (.wrap "unable to exchange code" err)
    | .ok oauth2Token =>
      match oauthProvider.getUserInfo oauth2Token nonce with
      | .error err => return .error (.wrap "unable to fetch user information" err)
      | .ok rawUserInfo =>
        match oauthProvider.parseUserInfo rawUserInfo with
        | .error err => return .error (.wrap "unable to parse user information" err)
        | .ok userInfo => do
          if !a.isDomainAllowed userInfo.email oauthProvider.getAllowedDomains then
            return .error (.other ("user " ++ userInfo.email ++ " is not in allowed domains"))
          match ← a.processUserInfo systemAdminContextUserInfo userInfo .oauth oauthProvider.getName
              oauthProvider.registrationEnabled with
          | .error err =>
            issue (.publish
              (.auditLoginFailed ("oauth " ++ providerId) userInfo.identifier err.text))
            return .error (.wrap "unable to process user information" err)
          | .ok user => finishOauthLogin providerId user

end Authenticator

end WgPortal.Auth
