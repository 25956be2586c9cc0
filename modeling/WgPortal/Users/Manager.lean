import WgPortal.Adapters.Database
import WgPortal.App.EventBus
import WgPortal.Library.Program

/-! The user manager and the part of the repository that stores users. -/

namespace WgPortal.Users

open Domain Library Adapters App

inductive UserRepoOp where
  | getUser (id : UserIdentifier)
  | getAllUsers
  | getUserPeers (id : UserIdentifier)
  | getOrCreateUser (userId id : UserIdentifier)
  /-- `upsertUser`; answers with the user as written -/
  | commitUser (userId : UserIdentifier) (user : User)
  | deleteUser (id : UserIdentifier)

abbrev UserRepoOp.Val : UserRepoOp → Type
  | getUser _ => User
  | getAllUsers => List User
  | getUserPeers _ => List Peer
  | getOrCreateUser .. => User
  | commitUser .. => User
  | deleteUser _ => Unit

inductive UserOp where
  | repo (op : UserRepoOp)
  | timeNow
  | newUuid
  | publish (event : UserEvent)

abbrev UserOp.Res : UserOp → Type
  | repo op => Except Error op.Val
  | timeNow => Time
  | newUuid => String
  | publish _ => Unit

abbrev UserProgram := Program UserOp UserOp.Res

def UserProgram.issue (op : UserOp) : UserProgram op.Res := Program.perform op

open UserProgram (issue)

/-- What the user manager works on. -/
structure World where
  users : Table User.identifier
  db : Db
  events : List UserEvent

/-- What is not determined by the state of the world. -/
structure Circumstance where
  now : Time
  /-- the statement fails with this text -/
  fault : Option String
  uuid : String

namespace World

def getUser (world : World) (id : UserIdentifier) : Except Error User :=
  match world.users.find id with
  | some user => .ok user
  | none => .error .notFound

/-- The user that `SaveUser` hands to its update function; credentials are not loaded. -/
def getOrCreateUser (world : World) (userId : UserIdentifier) (now : Time) (id : UserIdentifier) :
    User :=
  match world.users.find id with
  | some user => { user with webAuthnCredentialList := [] }
  | none =>
    { User.zero with
      base := ⟨userId, userId, now, now⟩, identifier := id, source := .database, isAdmin := false }

end World

/-- The user as `upsertUser` writes it. -/
def written (userId : UserIdentifier) (now : Time) (user : User) : User :=
  { user with base := { user.base with updatedBy := userId, updatedAt := now } }

def counted (user : User) (n : ℕ) : User := { user with linkedPeerCount := n }

/-- The row does not hold the number of peers. -/
def row (user : User) : User := counted user 0

namespace UserRepoOp

/-- What an operation answers when no statement fails. -/
def answer (now : Time) (world : World) : (op : UserRepoOp) → Except Error op.Val
  | getUser id => world.getUser id
  | getAllUsers => .ok world.users.rows
  | getUserPeers id => .ok (world.db.getUserPeers id)
  | getOrCreateUser userId id => .ok (world.getOrCreateUser userId now id)
  | commitUser userId user => .ok (written userId now user)
  | deleteUser _ => .ok ()

/-- The users after an operation without a failing statement. -/
def apply (now : Time) (users : Table User.identifier) : UserRepoOp → Table User.identifier
  | commitUser userId user => users.upsert (row (written userId now user))
  | deleteUser id => users.filter (·.identifier ≠ id)
  | _ => users

end UserRepoOp

/-- A failing statement has no effect. -/
def UserOp.exec (c : Circumstance) : (op : UserOp) → World → op.Res × World
  | .repo op, world =>
    match c.fault with
    | some text => (.error (.other text), world)
    | none => (op.answer c.now world, { world with users := op.apply c.now world.users })
  | .timeNow, world => (c.now, world)
  | .newUuid, world => (c.uuid, world)
  | .publish event, world => ((), { world with events := world.events ++ [event] })

/-- The operations of one call in a row, each under the circumstances of its turn. -/
def inTurn (circumstances : ℕ → Circumstance) (op : UserOp) (s : ℕ × World) :
    op.Res × (ℕ × World) :=
  let (answer, world) := op.exec (circumstances s.1) s.2
  (answer, (s.1 + 1, world))

theorem inTurn_of_fault {c : ℕ → Circumstance} {n : ℕ} {s : World} {op : UserRepoOp} {text : String}
    (fault : (c n).fault = some text) :
    inTurn c (.repo op) (n, s) = (.error (.other text), (n + 1, s)) := by
  simp only [inTurn, UserOp.exec, fault]

theorem inTurn_of_calm {c : ℕ → Circumstance} {n : ℕ} {s : World} {op : UserRepoOp}
    (calm : (c n).fault = none) :
    inTurn c (.repo op) (n, s) =
      (op.answer (c n).now s, (n + 1, { s with users := op.apply (c n).now s.users })) := by
  simp only [inTurn, UserOp.exec, calm]

/-- `SqlRepo.SaveUser`: nothing is written if the update function fails. -/
def repoSaveUser (ui : ContextUserInfo) (id : UserIdentifier)
    (updateFunc : User → Except Error User) : UserProgram (Except Error User) := do
  match ← issue (.repo (.getOrCreateUser ui.id id)) with
  | .error err => return .error err
  | .ok user =>
    match updateFunc user with
    | .error err => return .error err
    | .ok user => issue (.repo (.commitUser ui.id user))

structure Manager where
  minPasswordLength : Int
  bcrypt : Bcrypt

def ctxUnknownUserId : UserIdentifier := "_WG_SYS_UNKNOWN_"

/-- `if condition { return err }` -/
def rejectIf (condition : Bool) (err : Error) : Except Error Unit :=
  if condition then .error err else .ok ()

/-- `if err := check(); err != nil && condition { return wrapped }` -/
def rejectOn (check : Except Error Unit) (condition : Bool) (wrapped : Error → Error) :
    Except Error Unit :=
  match check with
  | .error err => rejectIf condition (wrapped err)
  | .ok _ => .ok ()

@[simp] theorem rejectIf_eq_ok {condition : Bool} {err : Error} :
    rejectIf condition err = .ok () ↔ condition = false := by
  cases condition <;> simp [rejectIf]

@[simp] theorem rejectOn_eq_ok {check : Except Error Unit} {condition : Bool}
    {wrapped : Error → Error} :
    rejectOn check condition wrapped = .ok () ↔ check = .ok () ∨ condition = false := by
  cases check <;> simp [rejectOn]

/-- A check that is followed by others. -/
theorem check_eq_ok {α : Type} {check : Except Error Unit} {rest : Unit → Except Error α} {a : α} :
    check >>= rest = .ok a ↔ check = .ok () ∧ rest () = .ok a := by
  cases check <;> simp [bind, Except.bind]

def noAccess (err : Error) : Error := .join (.wrap "no access" err) .invalidData

def passwordTooWeak (err : Error) : Error := .join (.wrap "password too weak" err) .invalidData

namespace Manager

variable (m : Manager) (ui : ContextUserInfo)

def validateModifications (old new : User) : Except Error Unit := do
  rejectIf (ui.id ≠ new.identifier && !ui.isAdmin) (.other "insufficient permissions")
  rejectOn (old.editAllowed new) (ui.id ≠ ctxSystemAdminId) noAccess
  rejectOn old.canChangePassword (new.password ≠ "") noAccess
  rejectOn (new.hasWeakPassword m.minPasswordLength) true passwordTooWeak
  rejectIf (ui.id = old.identifier && old.isAdmin && !new.isAdmin)
    (.wrap "cannot remove own admin rights" .invalidData)
  rejectIf (ui.id = old.identifier && new.isDisabled) (.wrap "cannot disable own user" .invalidData)
  rejectIf (ui.id = old.identifier && new.isLocked) (.wrap "cannot lock own user" .invalidData)
  rejectIf (old.source ≠ new.source) (.wrap "cannot change user source" .invalidData)

def validateCreation (new : User) : Except Error Unit := do
  rejectIf (!ui.isAdmin) (.other "insufficient permissions")
  rejectIf (new.identifier = "") (.wrap "invalid user identifier" .invalidData)
  rejectIf (new.identifier = "all") (.wrap "reserved user identifier" .invalidData)
  rejectIf (new.identifier = "new") (.wrap "reserved user identifier" .invalidData)
  rejectIf (new.identifier = "id") (.wrap "reserved user identifier" .invalidData)
  rejectIf (new.identifier = ctxSystemAdminId || new.identifier = ctxUnknownUserId)
    (.wrap "reserved user identifier" .invalidData)
  rejectIf (new.source ≠ .database && !ui.isAdmin)
    (.wrap ("invalid user source: " ++ new.source.text ++ ", only " ++ UserSource.database.text ++
      " is allowed") .invalidData)
  rejectIf (new.source = .database && new.password = "") (.wrap "missing password" .invalidData)
  rejectOn (new.hasWeakPassword m.minPasswordLength) true passwordTooWeak

def validateDeletion (del : User) : Except Error Unit := do
  rejectIf (!ui.isAdmin) .noPermission
  rejectOn del.deleteAllowed true noAccess
  rejectIf (ui.id = del.identifier) (.wrap "cannot delete own user" .invalidData)

def validateApiChange (user : User) : Except Error Unit :=
  rejectIf (ui.id ≠ user.identifier) (.wrap "cannot change API access of user" .noPermission)

/-- The number of peers is zero if they cannot be read. -/
def getUser (id : UserIdentifier) : UserProgram (Except Error User) := do
  match validateUserAccessRights ui id with
  | .error err => return .error err
  | .ok _ =>
    match ← issue (.repo (.getUser id)) with
    | .error err => return .error (.wrap ("unable to load user " ++ id) err)
    | .ok user =>
      match ← issue (.repo (.getUserPeers id)) with
      | .error _ => return .ok (counted user 0)
      | .ok peers => return .ok (counted user peers.length)

/-- `credentials` are those that users have registered, with their owners. -/
def getUserByWebAuthnCredential (credentials : String → Option UserIdentifier)
    (credentialId : String) : UserProgram (Except Error User) := do
  let unable := Error.wrap ("unable to load user for webauthn credential " ++ credentialId)
  match credentials credentialId with
  | none => return .error (unable .notFound)
  | some id =>
    match ← issue (.repo (.getUser id)) with
    | .error err => return .error (unable err)
    | .ok user =>
      match validateUserAccessRights ui user.identifier with
      | .error err => return .error err
      | .ok _ =>
        match ← issue (.repo (.getUserPeers user.identifier)) with
        | .error _ => return .ok (counted user 0)
        | .ok peers => return .ok (counted user peers.length)

/-- `CreateUser`, once the user may be created. -/
def saveCreated (user : User) : UserProgram (Except Error User) := do
  match user.hashPassword m.bcrypt with
  | .error err => return .error err
  | .ok user =>
    match ← repoSaveUser ui user.identifier
        fun u => .ok (user.copyCalculatedAttributesFromExisting u) with
    | .error err => return .error (.wrap "creation failure" err)
    | .ok user =>
      issue (.publish (.userCreated user))
      return .ok user

def createUser (user : User) : UserProgram (Except Error User) := do
  if user.identifier = "" then return .error (.other "missing user identifier")
  match validateAdminAccessRights ui with
  | .error err => return .error err
  | .ok _ =>
    match ← issue (.repo (.getUser user.identifier)) with
    | .ok _ =>
      return .error
        (.join (.other ("user " ++ user.identifier ++ " already exists")) .duplicateEntry)
    | .error err =>
      if !err.is .notFound then
        return .error (.wrap ("unable to load existing user " ++ user.identifier) err)
      match m.validateCreation ui user with
      | .error err => return .error (.wrap "creation not allowed" err)
      | .ok _ => m.saveCreated ui user

/-- The user comes back as it was created: the caller's record is changed in place. -/
def registerUser (user : User) : UserProgram (Except Error User) := do
  match validateAdminAccessRights ui with
  | .error err => return .error err
  | .ok _ =>
    match ← m.createUser ui user with
    | .error err => return .error err
    | .ok createdUser =>
      issue (.publish (.userRegistered createdUser))
      return .ok createdUser

/-- The user that is stored for an update: an empty password keeps the old one. -/
def updatedUser (existingUser user : User) : Except Error User :=
  match (user.copyCalculatedAttributes existingUser).hashPassword m.bcrypt with
  | .error err => .error err
  | .ok user =>
    if user.password = "" then .ok { user with password := existingUser.password } else .ok user

/-- `UpdateUser`, once the user may be updated. -/
def saveUpdated (existingUser user : User) : UserProgram (Except Error User) := do
  match m.updatedUser existingUser user with
  | .error err => return .error err
  | .ok user =>
    match ← repoSaveUser ui existingUser.identifier
        fun u => .ok (user.copyCalculatedAttributes u) with
    | .error err => return .error (.wrap "update failure" err)
    | .ok user =>
      issue (.publish (.userUpdated user))
      if !existingUser.isDisabled && user.isDisabled then issue (.publish (.userDisabled user))
      else if existingUser.isDisabled && !user.isDisabled then issue (.publish (.userEnabled user))
      return .ok user

def updateUser (user : User) : UserProgram (Except Error User) := do
  match validateUserAccessRights ui user.identifier with
  | .error err => return .error err
  | .ok _ =>
    match ← issue (.repo (.getUser user.identifier)) with
    | .error err => return .error (.wrap ("unable to load existing user " ++ user.identifier) err)
    | .ok existingUser =>
      match m.validateModifications ui existingUser user with
      | .error err => return .error (.wrap "update not allowed" err)
      | .ok _ => m.saveUpdated ui existingUser user

/-- Without a user, the checks of a deletion panic. -/
def deleteUser (id : UserIdentifier) : UserProgram (Except Error Unit) := do
  match validateAdminAccessRights ui with
  | .error err => return .error err
  | .ok _ =>
    match ← issue (.repo (.getUser id)) with
    | .error err =>
      if !err.is .notFound then return .error (.wrap ("unable to find user " ++ id) err)
      return .error (.other "nil pointer dereference")
    | .ok existingUser =>
      match validateDeletion ui existingUser with
      | .error err => return .error (.wrap "deletion not allowed" err)
      | .ok _ =>
        match ← issue (.repo (.deleteUser id)) with
        | .error err => return .error (.wrap "deletion failure" err)
        | .ok _ =>
          issue (.publish (.userDeleted existingUser))
          return .ok ()

/-- The token of the caller is set or cleared, and both events are published. -/
def changeApi (id : UserIdentifier) (change : User → UserProgram User)
    (event : User → UserEvent) : UserProgram (Except Error User) := do
  match ← issue (.repo (.getUser id)) with
  | .error err =>
    if !err.is .notFound then return .error (.wrap ("unable to find user " ++ id) err)
    return .error (.other "nil pointer dereference")
  | .ok user =>
    match validateApiChange ui user with
    | .error err => return .error err
    | .ok _ =>
      let user ← change user
      match ← repoSaveUser ui user.identifier fun u => .ok (user.copyCalculatedAttributes u) with
      | .error err => return .error (.wrap "update failure" err)
      | .ok user =>
        issue (.publish (.userUpdated user))
        issue (.publish (event user))
        return .ok user

def activateApi (id : UserIdentifier) : UserProgram (Except Error User) :=
  changeApi ui id
    (fun user => do
      let now ← issue .timeNow
      let token ← issue .newUuid
      return { user with apiToken := token, apiTokenCreated := some now })
    .userApiEnabled

def deactivateApi (id : UserIdentifier) : UserProgram (Except Error User) :=
  changeApi ui id (fun user => return { user with apiToken := "", apiTokenCreated := none })
    .userApiDisabled

end Manager

end WgPortal.Users
