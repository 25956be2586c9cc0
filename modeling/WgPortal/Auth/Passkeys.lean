import WgPortal.Api.WebAuthentication
import WgPortal.Library.Base64

/-! Passkeys: how they are registered, renamed and removed, and the logins with them. -/

namespace WgPortal.Domain

open Library

def encodeStd (bytes : List UInt8) : String := String.ofList (Base64.encode Base64.std bytes)

/-- The bytes of a text that `encodeStd` has made. -/
def decodeStd (text : String) : List UInt8 := (Base64.decode Base64.std text.toList).getD []

/-- A credential as the library knows it. -/
structure Credential where
  id : List UInt8
  /-- `json.Marshal` -/
  json : List UInt8

def newUserWebauthnCredential (now : Time) (name : String) (credential : Credential) :
    UserWebauthnCredential :=
  { credentialIdentifier := encodeStd credential.id
    createdAt := now
    displayName := name
    serializedCredential := encodeStd credential.json }

def UserWebauthnCredential.getCredentialId (c : UserWebauthnCredential) : List UInt8 :=
  decodeStd c.credentialIdentifier

namespace User

/-- Both are the texts of new UUIDs. -/
def generateWebAuthnId (u : User) (randomUid1 randomUid2 : String) : User :=
  let webAuthnId := (randomUid1 ++ randomUid2).toList.filter (· ≠ '-')
  { u with webAuthnId := encodeStd (String.ofList webAuthnId).toUTF8.toList }

def addCredential (u : User) (now : Time) (name : String) (credential : Credential) :
    Except Error User :=
  if u.webAuthnCredentialList.any (·.getCredentialId = credential.id) then
    .error (.other "credential already exists")
  else .ok { u with
    webAuthnCredentialList :=
      u.webAuthnCredentialList ++ [newUserWebauthnCredential now name credential] }

/-- The first credential with this identifier gets the name. -/
def renameFirst (credentialIdBase64 name : String) :
    List UserWebauthnCredential → Option (List UserWebauthnCredential)
  | [] => none
  | c :: rest =>
    if c.credentialIdentifier = credentialIdBase64 then
      some ({ c with displayName := name } :: rest)
    else (renameFirst credentialIdBase64 name rest).map (c :: ·)

def updateCredential (u : User) (credentialIdBase64 name : String) : Except Error User :=
  match renameFirst credentialIdBase64 name u.webAuthnCredentialList with
  | none => .error (.other "credential not found")
  | some credentials => .ok { u with webAuthnCredentialList := credentials }

def removeCredential (u : User) (credentialIdBase64 : String) : User :=
  { u with
    webAuthnCredentialList :=
      u.webAuthnCredentialList.filter (·.credentialIdentifier ≠ credentialIdBase64) }

end User

end WgPortal.Domain

namespace WgPortal.Auth

open Domain Library Users
open AuthProgram (issue managing)

/-- The library. Session data is known by its JSON text, and the challenge in it is made of the
random bytes that the library gets. -/
structure WebAuthn (Response : Type) where
  beginRegistration : User → (random : List UInt8) → Except Error String
  finishRegistration : User → (sessionData : String) → Response → Except Error Credential
  beginDiscoverableLogin : (random : List UInt8) → Except Error String
  /-- the checks up to the call of its handler, and the identifier that this is called with -/
  parseDiscoverableLogin : (sessionData : String) → Response → Except Error (List UInt8)
  /-- the checks with the user that the handler has found -/
  validateLogin : User → (sessionData : String) → Response → Except Error Credential

/-- An empty text is no JSON; what else is wrong with the text, the library finds. -/
def unmarshal (sessionDataAsJSON : String) : Except Error String :=
  if sessionDataAsJSON = "" then
    .error (.wrap "failed to unmarshal webauthn session data"
      (.other "unexpected end of JSON input"))
  else .ok sessionDataAsJSON

namespace WebAuthn

variable {Response : Type} (lib : WebAuthn Response) (m : Users.Manager) (ui : ContextUserInfo)

/-- A user without an identifier for passkeys gets one, and is stored. -/
def withWebAuthnId (user : User) : AuthProgram (Except Error User) := do
  if user.webAuthnId ≠ "" then return .ok user
  let randomUid1 ← managing (UserProgram.issue .newUuid)
  let randomUid2 ← managing (UserProgram.issue .newUuid)
  match ← managing (m.updateUser ui (user.generateWebAuthnId randomUid1 randomUid2)) with
  | .error err => return .error (.wrap "failed to store webauthn id to user" err)
  | .ok user => return .ok user

def startWebAuthnRegistration (userId : UserIdentifier) (random : List UInt8) :
    AuthProgram (Except Error String) := do
  match ← managing (Manager.getUser ui userId) with
  | .error err => return .error (.wrap "failed to get user" err)
  | .ok user =>
    if user.isLocked || user.isDisabled then return .error (.other "user is locked")
    match ← withWebAuthnId m ui user with
    | .error err => return .error err
    | .ok user =>
      match lib.beginRegistration user random with
      | .error err => return .error (.wrap "failed to begin WebAuthn registration" err)
      | .ok sessionData => return .ok sessionData

/-- Without a name, it is the number of the passkey. -/
def passkeyName (name : String) (user : User) : String :=
  if name = "" then "Passkey " ++ toString (user.webAuthnCredentialList.length + 1) else name

def finishWebAuthnRegistration (userId : UserIdentifier) (name sessionDataAsJSON : String)
    (r : Response) : AuthProgram (Except Error (List UserWebauthnCredential)) := do
  match ← managing (Manager.getUser ui userId) with
  | .error err => return .error (.wrap "failed to get user" err)
  | .ok user =>
    if user.isLocked || user.isDisabled then return .error (.other "user is locked")
    match unmarshal sessionDataAsJSON with
    | .error err => return .error err
    | .ok webAuthnData =>
      match lib.finishRegistration user webAuthnData r with
      | .error err => return .error err
      | .ok credential =>
        let now ← managing (UserProgram.issue .timeNow)
        match user.addCredential now (passkeyName name user) credential with
        | .error err => return .error err
        | .ok user =>
          match ← managing (m.updateUser ui user) with
          | .error err => return .error err
          | .ok user => return .ok user.webAuthnCredentialList

def removeCredential (userId : UserIdentifier) (credentialIdBase64 : String) :
    AuthProgram (Except Error (List UserWebauthnCredential)) := do
  match ← managing (Manager.getUser ui userId) with
  | .error err => return .error (.wrap "failed to get user" err)
  | .ok user =>
    match ← managing (m.updateUser ui (user.removeCredential credentialIdBase64)) with
    | .error err => return .error err
    | .ok user => return .ok user.webAuthnCredentialList

def updateCredential (userId : UserIdentifier) (credentialIdBase64 name : String) :
    AuthProgram (Except Error (List UserWebauthnCredential)) := do
  match ← managing (Manager.getUser ui userId) with
  | .error err => return .error (.wrap "failed to get user" err)
  | .ok user =>
    match user.updateCredential credentialIdBase64 name with
    | .error err => return .error err
    | .ok user =>
      match ← managing (m.updateUser ui user) with
      | .error err => return .error err
      | .ok user => return .ok user.webAuthnCredentialList

def startWebAuthnLogin (random : List UInt8) : Except Error String :=
  match lib.beginDiscoverableLogin random with
  | .error err => .error (.wrap "failed to begin WebAuthn login" err)
  | .ok sessionData => .ok sessionData

/-- `FinishWebAuthnLogin` from its start; `credentials` are those that users have registered,
with their owners. -/
def finishLogin (credentials : String → Option UserIdentifier) (sessionDataAsJSON : String)
    (r : Response) : AuthProgram (Except Error User) := do
  match unmarshal sessionDataAsJSON with
  | .error err => return .error err
  | .ok webAuthnData =>
    match lib.parseDiscoverableLogin webAuthnData r with
    | .error err => return .error err
    | .ok rawID =>
      -- `findUserForWebAuthnSecretFn`, which the library calls
      match ← managing (Manager.getUserByWebAuthnCredential systemAdminContextUserInfo credentials
          (encodeStd rawID)) with
      | .error err => return .error (.wrap "failed to get user by webauthn credential" err)
      | .ok user =>
        match lib.validateLogin user webAuthnData r with
        | .error err => return .error err
        | .ok credential => finishWebAuthnLogin credentials (encodeStd credential.id)

end WebAuthn

end WgPortal.Auth
