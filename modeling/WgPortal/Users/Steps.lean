import WgPortal.Users.Manager

/-! What the functions of the user manager may do to the stored users, whichever of their
operations fail. -/

namespace WgPortal.Users

open Domain Library Adapters App Program
open UserProgram (issue)

/-- An operation under some circumstances. -/
def Step (op : UserOp) (s : World) (answer : op.Res) (t : World) : Prop :=
  ∃ c, op.exec c s = (answer, t)

/-- A function that stores one user or fails. -/
def Saves (stored : User → Prop) (s : World) (r : Except Error User) (t : World) : Prop :=
  match r with
  | .error _ => t.users = s.users
  | .ok u => stored u ∧ t.users = s.users.upsert (row u)

/-- A user that is stored for the first time. -/
structure Created (users : Table User.identifier) (user u : User) : Prop where
  new : users.find user.identifier = none
  same : ∃ base n password,
    u = { user with base := base, linkedPeerCount := n, password := password }

/-- A user that is stored in place of `old`. -/
structure Updated (users : Table User.identifier) (user old u : User) : Prop where
  found : users.find user.identifier = some old
  source : old.source = user.source
  password : user.password = "" → u.password = old.password
  foreign : user.password ≠ "" → old.source = .database
  same : ∃ base n password,
    u = { user with
      base := base, linkedPeerCount := n, isAdmin := old.isAdmin, password := password }

theorem inTurn_steps (c : ℕ → Circumstance) (op : UserOp) (t : ℕ × World) :
    Step op t.2 (inTurn c op t).1 (inTurn c op t).2.2 :=
  ⟨c t.1, rfl⟩

theorem find_store (users : Table User.identifier) (u : User) (id : UserIdentifier) :
    (users.upsert (row u)).find id = if u.identifier = id then some (row u) else users.find id :=
  Table.find_upsert users (row u) id

theorem find_store_self (users : Table User.identifier) (u : User) :
    (users.upsert (row u)).find u.identifier = some (row u) :=
  Table.find_upsert_self users (row u)

variable {m : Manager} {ui : ContextUserInfo} {s t : World} {user : User}

theorem Step.repo {op : UserRepoOp} {answer : Except Error op.Val}
    (step : Step (.repo op) s answer t) :
    (∃ text, answer = .error (.other text) ∧ t = s) ∨
      ∃ now, answer = op.answer now s ∧ t = { s with users := op.apply now s.users } := by
  obtain ⟨c, run⟩ := step
  cases fault : c.fault with
  | some text =>
    simp only [UserOp.exec, fault] at run
    obtain ⟨rfl, rfl⟩ := Prod.mk.inj run
    exact .inl ⟨text, rfl, rfl⟩
  | none =>
    simp only [UserOp.exec, fault] at run
    obtain ⟨rfl, rfl⟩ := Prod.mk.inj run
    exact .inr ⟨c.now, rfl, rfl⟩

theorem Step.publish {event : UserEvent} {answer : Unit} (step : Step (.publish event) s answer t) :
    t.users = s.users := by
  obtain ⟨c, run⟩ := step
  have after : t = (UserOp.exec c (.publish event) s).2 := by rw [run]
  rw [after]
  rfl

theorem Step.timeNow {now : Time} (step : Step .timeNow s now t) : t.users = s.users := by
  obtain ⟨c, run⟩ := step
  exact congrArg World.users (Prod.mk.inj run).2.symm

theorem Step.newUuid {uuid : String} (step : Step .newUuid s uuid t) : t.users = s.users := by
  obtain ⟨c, run⟩ := step
  exact congrArg World.users (Prod.mk.inj run).2.symm

/-- A user that was read is stored, and the table is as it was. -/
theorem Step.getUser {id : UserIdentifier} {answer : Except Error User}
    (step : Step (.repo (.getUser id)) s answer t) :
    t = s ∧ ∀ u, answer = .ok u → s.users.find id = some u := by
  rcases step.repo with ⟨text, rfl, rfl⟩ | ⟨now, rfl, rfl⟩
  · exact ⟨rfl, fun u same => by cases same⟩
  · refine ⟨rfl, fun u same => ?_⟩
    simp only [UserRepoOp.answer, World.getUser] at same
    split at same
    · rename_i found
      rw [found, Except.ok.inj same]
    · cases same

/-- Only the answer that there is no user is this error. -/
theorem Step.notFound {id : UserIdentifier} {err : Error}
    (step : Step (.repo (.getUser id)) s (.error err) t) (notFound : err.is .notFound = true) :
    s.users.find id = none := by
  rcases step.repo with ⟨text, same, -⟩ | ⟨now, same, -⟩
  · cases same
    cases notFound
  · simp only [UserRepoOp.answer, World.getUser] at same
    split at same
    · cases same
    · assumption

theorem always_getUser (id : UserIdentifier) : (Manager.getUser ui id).Always Step s fun r t =>
    t.users = s.users ∧ ∀ u, r = .ok u → ∃ found n, s.users.find id = some found ∧
      u = counted found n := by
  unfold Manager.getUser
  cases validateUserAccessRights ui id with
  | error err => exact ⟨rfl, fun u same => by cases same⟩
  | ok _ =>
    intro answer s' read
    obtain ⟨rfl, stored⟩ := read.getUser
    cases answer with
    | error err => exact ⟨rfl, fun u same => by cases same⟩
    | ok found =>
      intro peers t counted
      have same : t.users = s'.users := by
        rcases counted.repo with ⟨text, -, rfl⟩ | ⟨now, -, rfl⟩ <;> rfl
      cases peers with
      | error err => exact ⟨same, fun u ok => ⟨found, 0, stored found rfl, (Except.ok.inj ok).symm⟩⟩
      | ok peers =>
        exact ⟨same, fun u ok => ⟨found, _, stored found rfl, (Except.ok.inj ok).symm⟩⟩

theorem always_repoSaveUser (id : UserIdentifier) (f : User → User) :
    (repoSaveUser ui id fun u => .ok (f u)).Always Step s
      (Saves (fun u => ∃ now now',
        u = written ui.id now (f (s.getOrCreateUser ui.id now' id))) s) := by
  intro answer s' read
  rcases read.repo with ⟨text, rfl, rfl⟩ | ⟨now', rfl, rfl⟩
  · exact rfl
  · intro answer t commit
    rcases commit.repo with ⟨text, rfl, rfl⟩ | ⟨now, rfl, rfl⟩
    · exact rfl
    · exact ⟨⟨now, now', rfl⟩, rfl⟩

/-- What `repoSaveUser` leaves, once it is told which user it has read. -/
theorem Saves.mono {stored stored' : User → Prop} {r : Except Error User}
    (saves : Saves stored s r t) (weaker : ∀ u, stored u → stored' u) : Saves stored' s r t := by
  cases r with
  | error err => exact saves
  | ok u => exact ⟨weaker u saves.1, saves.2⟩

theorem hashPassword_same {u : User} {b : Bcrypt} (ok : user.hashPassword b = .ok u) :
    ∃ password, u = { user with password := password } ∧ (user.password = "" → password = "") := by
  unfold User.hashPassword at ok
  split at ok
  · rename_i empty
    exact ⟨user.password, (Except.ok.inj ok).symm, fun _ => empty⟩
  · rename_i some
    split at ok
    · exact ⟨user.password, (Except.ok.inj ok).symm, fun empty => absurd empty some⟩
    · split at ok
      · cases ok
      · exact ⟨_, (Except.ok.inj ok).symm, fun empty => absurd empty some⟩

theorem always_saveCreated (new : s.users.find user.identifier = none) :
    (m.saveCreated ui user).Always Step s (Saves (Created s.users user) s) := by
  unfold Manager.saveCreated
  cases hashed : user.hashPassword m.bcrypt with
  | error err => exact rfl
  | ok hashedUser =>
    have ⟨password, same, _⟩ := hashPassword_same hashed
    refine (always_repoSaveUser hashedUser.identifier
      hashedUser.copyCalculatedAttributesFromExisting).bind fun r t saves => ?_
    cases r with
    | error err => exact saves
    | ok u =>
      obtain ⟨⟨now, now', rfl⟩, after⟩ := saves
      intro _ t' published
      refine ⟨⟨new, ?_⟩, published.publish.trans after⟩
      rw [same]
      exact ⟨_, _, _, rfl⟩

theorem always_createUser (user : User) :
    (m.createUser ui user).Always Step s (Saves (Created s.users user) s) := by
  unfold Manager.createUser
  split
  · exact rfl
  · cases validateAdminAccessRights ui with
    | error err => exact rfl
    | ok _ =>
      intro answer s' read
      obtain ⟨rfl, _⟩ := read.getUser
      cases answer with
      | ok found => exact rfl
      | error err =>
        show Always Step (if !err.is .notFound then _ else _) _ _
        split
        · exact rfl
        · rename_i is
          have absent := read.notFound (by simpa using is)
          cases m.validateCreation ui user with
          | error err => exact rfl
          | ok _ => exact always_saveCreated absent

theorem always_registerUser (user : User) :
    (m.registerUser ui user).Always Step s (Saves (Created s.users user) s) := by
  unfold Manager.registerUser
  cases validateAdminAccessRights ui with
  | error err => exact rfl
  | ok _ =>
    refine (always_createUser user).bind fun r t saves => ?_
    cases r with
    | error err => exact saves
    | ok u => exact fun _ t' published => ⟨saves.1, published.publish.trans saves.2⟩

/-- Nobody changes the source of a user, and only users of the database have passwords. -/
theorem source_of_allowed {old new : User} (allowed : m.validateModifications ui old new = .ok ()) :
    old.source = new.source ∧ (new.password ≠ "" → old.source = .database) := by
  simp only [Manager.validateModifications, check_eq_ok, rejectIf_eq_ok, rejectOn_eq_ok,
    decide_eq_false_iff_not, not_not] at allowed
  obtain ⟨-, -, password, -, -, -, -, source⟩ := allowed
  refine ⟨source, fun some => ?_⟩
  have may := password.resolve_right some
  unfold User.canChangePassword at may
  split at may
  · assumption
  · cases may

theorem updatedUser_same {old u : User} (ok : m.updatedUser old user = .ok u) :
    (user.password = "" → u.password = old.password) ∧ ∃ password,
      u = { user.copyCalculatedAttributes old with password := password } := by
  unfold Manager.updatedUser at ok
  split at ok
  · cases ok
  · rename_i hashedUser hashed
    have ⟨password, same, kept⟩ := hashPassword_same hashed
    split at ok
    · rw [← Except.ok.inj ok, same]
      exact ⟨fun _ => rfl, old.password, rfl⟩
    · rename_i some
      rw [← Except.ok.inj ok, same]
      rw [same] at some
      exact ⟨fun empty => absurd (kept empty) some, password, rfl⟩

theorem always_saveUpdated {old : User} (found : s.users.find user.identifier = some old)
    (allowed : m.validateModifications ui old user = .ok ()) :
    (m.saveUpdated ui old user).Always Step s (Saves (Updated s.users user old) s) := by
  unfold Manager.saveUpdated
  cases updated : m.updatedUser old user with
  | error err => exact rfl
  | ok new =>
    obtain ⟨kept, password, same⟩ := updatedUser_same updated
    have ⟨source, foreign⟩ := source_of_allowed allowed
    have named : old.identifier = user.identifier := Table.key_of_find found
    refine (always_repoSaveUser old.identifier new.copyCalculatedAttributes).bind
      fun r t saves => ?_
    cases r with
    | error err => exact saves
    | ok u =>
      obtain ⟨⟨now, now', rfl⟩, after⟩ := saves
      have read : s.getOrCreateUser ui.id now' old.identifier =
          { old with webAuthnCredentialList := [] } := by
        simp only [World.getOrCreateUser, named, found]
      have stored : Updated s.users user old
          (written ui.id now (new.copyCalculatedAttributes
            (s.getOrCreateUser ui.id now' old.identifier))) := by
        refine ⟨found, source, kept, foreign, ?_⟩
        rw [read, same]
        exact ⟨_, _, _, rfl⟩
      intro _ t' published
      have after' := published.publish.trans after
      simp only
      split
      · exact fun _ v announced => ⟨stored, announced.publish.trans after'⟩
      · split
        · exact fun _ v announced => ⟨stored, announced.publish.trans after'⟩
        · exact ⟨stored, after'⟩

/-- The user that is changed, once it has been read. -/
theorem always_updateUser (user : User) : (m.updateUser ui user).Always Step s
    (Saves (fun u => ∃ old, m.validateModifications ui old user = .ok () ∧
      Updated s.users user old u) s) := by
  unfold Manager.updateUser
  cases validateUserAccessRights ui user.identifier with
  | error err => exact rfl
  | ok _ =>
    intro answer s' read
    obtain ⟨rfl, stored⟩ := read.getUser
    cases answer with
    | error err => exact rfl
    | ok old =>
      have found := stored old rfl
      dsimp only [Program.bind]
      cases allowed : m.validateModifications ui old user with
      | error err => exact rfl
      | ok _ =>
        exact (always_saveUpdated found allowed).mono
          fun r t saves => saves.mono fun u updated => ⟨old, allowed, updated⟩

section Run

variable {c : ℕ → Circumstance} {n : ℕ} {old : User}

/-- The update of a user succeeds: it is allowed, and from operation `n` on neither of the
lookups fails, nor the commit. -/
structure Updates (m : Manager) (c : ℕ → Circumstance) (n : ℕ) (old user : User) : Prop where
  reads : (c n).fault = none
  allowed : m.validateModifications systemAdminContextUserInfo old user = .ok ()
  rereads : (c (n + 1)).fault = none
  commits : (c (n + 2)).fault = none

theorem updatedUser_ok (empty : user.password = "") : ∃ u, m.updatedUser old user = .ok u := by
  have empty' : (user.copyCalculatedAttributes old).password = "" := empty
  rw [Manager.updatedUser, User.hashPassword, if_pos empty']
  exact ⟨_, if_pos empty'⟩

theorem repoSaveUser_ok_iff {id : UserIdentifier} {f : User → User} :
    (∃ u, ((repoSaveUser ui id fun u => .ok (f u)).eval (inTurn c) (n, s)).1 = .ok u) ↔
      (c n).fault = none ∧ (c (n + 1)).fault = none := by
  simp only [repoSaveUser, UserProgram.issue, perform_bind, eval_call]
  cases reads : (c n).fault with
  | some text =>
    rw [inTurn_of_fault reads]
    exact iff_of_false (fun ⟨u, ok⟩ => by cases ok) (by simp)
  | none =>
    rw [inTurn_of_calm reads]
    simp only [UserRepoOp.answer, perform, eval_call, eval_ret]
    cases commits : (c (n + 1)).fault with
    | some text =>
      rw [inTurn_of_fault commits]
      exact iff_of_false (fun ⟨u, ok⟩ => by cases ok) (by simp)
    | none =>
      rw [inTurn_of_calm commits]
      exact iff_of_true ⟨_, rfl⟩ (by simp)

theorem saveUpdated_ok_iff {new : User} (updated : m.updatedUser old user = .ok new) :
    (∃ u, ((m.saveUpdated ui old user).eval (inTurn c) (n, s)).1 = .ok u) ↔
      (c n).fault = none ∧ (c (n + 1)).fault = none := by
  rw [← @repoSaveUser_ok_iff ui s c n old.identifier new.copyCalculatedAttributes]
  simp only [Manager.saveUpdated, updated, eval_bind]
  generalize (repoSaveUser ui old.identifier fun u => .ok (new.copyCalculatedAttributes u)).eval
    (inTurn c) (n, s) = result
  obtain ⟨r, k, t⟩ := result
  cases r with
  | error err => exact iff_of_false (fun ⟨u, ok⟩ => by cases ok) (fun ⟨u, ok⟩ => by cases ok)
  | ok saved =>
    refine iff_of_true ⟨saved, ?_⟩ ⟨saved, rfl⟩
    simp only [UserProgram.issue, perform_bind, eval_call]
    split
    · rfl
    · split <;> rfl

/-- What a call leaves is a user if and only if the update succeeds. -/
theorem updateUser_ok_iff (found : s.users.find user.identifier = some old)
    (foreign : old.source ≠ .database) :
    (∃ u, ((m.updateUser systemAdminContextUserInfo user).eval (inTurn c) (n, s)).1 =
      .ok u) ↔ Updates m c n old user := by
  have permitted :
    validateUserAccessRights systemAdminContextUserInfo user.identifier = .ok () := rfl
  unfold Manager.updateUser
  rw [permitted]
  dsimp only
  simp only [UserProgram.issue, perform_bind, eval_call]
  cases reads : (c n).fault with
  | some text =>
    rw [inTurn_of_fault reads]
    refine iff_of_false (fun ⟨u, ok⟩ => by cases ok) fun updates => ?_
    cases reads.symm.trans updates.reads
  | none =>
    have read : s.getUser user.identifier = .ok old := by rw [World.getUser, found]
    rw [inTurn_of_calm reads]
    simp only [UserRepoOp.answer, read, UserRepoOp.apply]
    cases allowed : m.validateModifications systemAdminContextUserInfo old user with
    | error err =>
      refine iff_of_false (fun ⟨u, ok⟩ => by cases ok) fun updates => ?_
      cases allowed.symm.trans updates.allowed
    | ok _ =>
      have empty : user.password = "" := by
        by_contra some
        exact foreign ((source_of_allowed allowed).2 some)
      obtain ⟨new, updated⟩ := @updatedUser_ok m user old empty
      dsimp only
      rw [saveUpdated_ok_iff updated]
      exact ⟨fun ok => ⟨reads, allowed, ok.1, ok.2⟩,
        fun updates => ⟨updates.rereads, updates.commits⟩⟩

end Run

end WgPortal.Users
