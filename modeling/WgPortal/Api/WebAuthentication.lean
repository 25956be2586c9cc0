import WgPortal.Auth.Authenticator

/-! Who a request is from: in version 0 the user of its session, in version 1 the user whose
API token it carries. -/

namespace WgPortal.Auth

open Domain Users
open AuthProgram (issue managing)

/-- `Authenticator.IsUserValid` -/
def Authenticator.isUserValid (id : UserIdentifier) : AuthProgram Bool := do
  match ← managing (Manager.getUser systemAdminContextUserInfo id) with
  | .error _ => return false
  | .ok user =>
    if user.isDisabled then return false
    else if user.isLocked then return false
    else return true

/-- `FinishWebAuthnLogin`, once the library has found the credential. -/
def finishWebAuthnLogin (credentials : String → Option UserIdentifier) (credentialId : String) :
    AuthProgram (Except Error User) := do
  match ← managing
      (Manager.getUserByWebAuthnCredential systemAdminContextUserInfo credentials credentialId) with
  | .error err => return .error (.wrap "failed to get user by webauthn credential" err)
  | .ok user =>
    if user.isLocked || user.isDisabled then
      issue (.publish (.auditLoginFailed "passkey" user.identifier "User is locked"))
      return .error (.other "user is locked")
    issue (.publish (.authLogin user.identifier))
    issue (.publish (.auditLoginSuccess "passkey" user.identifier))
    return .ok user

end WgPortal.Auth

namespace WgPortal.Api

open Domain Users Auth
open WireGuard (MapOrder)

inductive Scope where
  | admin
  | other (name : String)
deriving DecidableEq

structure ApiError where
  code : ℕ
  message : String
deriving DecidableEq

structure SessionData where
  loggedIn : Bool
  isAdmin : Bool
  userIdentifier : String
  firstname : String
  lastname : String
  email : String
  oauthState : String
  oauthNonce : String
  oauthProvider : String
  oauthReturnTo : String
  webAuthnData : String
  csrfToken : String
deriving DecidableEq

def defaultSessionData : SessionData := ⟨false, false, "", "", "", "", "", "", "", "", "", ""⟩

/-- What the portal works on; a session is named by the browser that has it. -/
structure Portal where
  auth : Auth.World
  sessions : String → SessionData

namespace Portal

variable (p : Portal) (browser : String)

def setData (value : SessionData) : Portal :=
  { p with sessions := Function.update p.sessions browser value }

def destroyData : Portal := p.setData browser defaultSessionData

/-- A fresh session -/
def setAuthenticatedUser (user : User) : Portal :=
  let p := p.destroyData browser
  p.setData browser
    { p.sessions browser with
      loggedIn := true
      isAdmin := user.isAdmin
      userIdentifier := user.identifier
      firstname := user.firstname
      lastname := user.lastname
      email := user.email
      oauthState := ""
      oauthNonce := ""
      oauthProvider := ""
      oauthReturnTo := "" }

/-- A login, and the user who it lets in. -/
def login (prog : AuthProgram (Except Error User)) (circumstances : ℕ → Circumstance) :
    Option User × Portal :=
  match prog.run circumstances p.auth with
  | (.error _, auth) => (none, { p with auth := auth })
  | (.ok user, auth) => (some user, { p with auth := auth }.setAuthenticatedUser browser user)

def handleLoginPost (a : Authenticator) (order : MapOrder (String × AuthenticatorLdap))
    (username password : String) (circumstances : ℕ → Circumstance) : Option User × Portal :=
  if (p.sessions browser).loggedIn then (none, p)
  else p.login browser (a.plainLogin order username password) circumstances

/-- The state and the nonce are those that `OauthLoginStep1` has made up. -/
def handleOauthInitiateGet (provider state nonce returnTo : String) : Portal :=
  if (p.sessions browser).loggedIn then p
  else p.setData browser
    { p.sessions browser with
      oauthState := state
      oauthNonce := nonce
      oauthProvider := provider
      oauthReturnTo := returnTo }

def handleOauthCallbackGet (a : Authenticator) (provider oauthState oauthCode : String)
    (circumstances : ℕ → Circumstance) : Option User × Portal :=
  let currentSession := p.sessions browser
  if currentSession.loggedIn then (none, p)
  else if provider ≠ currentSession.oauthProvider then (none, p)
  else if oauthState ≠ currentSession.oauthState then (none, p)
  else
    p.login browser (a.oauthLoginStep2 provider currentSession.oauthNonce oauthCode) circumstances

/-- For a credential that the library accepts -/
def handleWebAuthnLoginFinish (credentials : String → Option UserIdentifier)
    (credentialId : String) (circumstances : ℕ → Circumstance) : Option User × Portal :=
  let p := p.setData browser { p.sessions browser with webAuthnData := "" }
  p.login browser (finishWebAuthnLogin credentials credentialId) circumstances

end Portal

namespace V0

def userHasScopes (session : SessionData) (scopes : List Scope) : Bool :=
  if scopes = [] then true
  else if session.isAdmin then true
  else if scopes.any (· = .admin) then false
  else if session.loggedIn then true
  else false

/-- The context that the request runs in, if it is admitted. -/
def loggedIn (scopes : List Scope) (browser : String) (circumstances : ℕ → Circumstance)
    (p : Portal) : Except ApiError ContextUserInfo × Portal :=
  let session := p.sessions browser
  if !session.loggedIn then (.error ⟨401, "not logged in"⟩, p)
  else if !userHasScopes session scopes then (.error ⟨403, "not enough permissions"⟩, p)
  else
    let (valid, auth) :=
      (Authenticator.isUserValid session.userIdentifier).run circumstances p.auth
    let p := { p with auth := auth }
    if !valid then (.error ⟨401, "session no longer available"⟩, p.destroyData browser)
    else (.ok ⟨session.userIdentifier, session.isAdmin⟩, p)

def handleLogoutPost (browser : String) (circumstances : ℕ → Circumstance) (p : Portal) : Portal :=
  match loggedIn [] browser circumstances p with
  | (.error _, p) => p
  | (.ok _, p) => if !(p.sessions browser).loggedIn then p else p.destroyData browser

end V0

namespace V1

def userHasScopes (user : User) (scopes : List Scope) : Bool :=
  if scopes = [] then true
  else if user.isAdmin then true
  else if scopes.any (· = .admin) then false
  else true

/-- The same for the user of the request's credentials. -/
def loggedIn (scopes : List Scope) (credentials : Option (String × String))
    (circumstances : ℕ → Circumstance) (p : Portal) : Except ApiError ContextUserInfo × Portal :=
  match credentials with
  | none => (.error ⟨401, "missing credentials"⟩, p)
  | some (username, password) =>
    if username = "" ∨ password = "" then (.error ⟨401, "missing credentials"⟩, p)
    else
      match (AuthProgram.managing (Manager.getUser systemAdminContextUserInfo username)).run
          circumstances p.auth with
      | (.error _, auth) => (.error ⟨401, "invalid credentials"⟩, { p with auth := auth })
      | (.ok user, auth) =>
        let p := { p with auth := auth }
        match user.checkApiToken password with
        | .error _ => (.error ⟨401, "invalid credentials"⟩, p)
        | .ok _ =>
          if !userHasScopes user scopes then (.error ⟨403, "not enough permissions"⟩, p)
          else (.ok ⟨user.identifier, user.isAdmin⟩, p)

end V1

end WgPortal.Api
