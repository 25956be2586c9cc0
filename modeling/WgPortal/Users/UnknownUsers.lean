import WgPortal.Users.Steps

/-! Deleting users and changing their API access, with what happens if there is no such user. An
absent result is a panic. -/

namespace WgPortal.Users.UnknownUsers

open Domain Library Adapters App Program
open UserProgram (issue)

/-- The user that a lookup leaves, which is nil if there is none. Other errors are kept. -/
def lookup : Except Error User → Except Error (Option User)
  | .ok user => .ok (some user)
  | .error err => if !err.is .notFound then .error err else .ok none

section Calls

variable (ui : ContextUserInfo)

/-- `DeleteAllowed` does not read the user, but what follows it does. -/
def validateDeletion : Option User → Option (Except Error Unit)
  | some del => some (Manager.validateDeletion ui del)
  | none => if !ui.isAdmin then some (.error .noPermission) else none

def validateApiChange : Option User → Option (Except Error Unit)
  | some user => some (Manager.validateApiChange ui user)
  | none => none

def deleteUser (id : UserIdentifier) : UserProgram (Option (Except Error Unit)) := do
  match validateAdminAccessRights ui with
  | .error err => return some (.error err)
  | .ok _ =>
    match lookup (← issue (.repo (.getUser id))) with
    | .error err => return some (.error (.wrap ("unable to find user " ++ id) err))
    | .ok existingUser =>
      match validateDeletion ui existingUser with
      | none => return none
      | some (.error err) => return some (.error (.wrap "deletion not allowed" err))
      | some (.ok _) =>
        match ← issue (.repo (.deleteUser id)) with
        | .error err => return some (.error (.wrap "deletion failure" err))
        | .ok _ =>
          match existingUser with
          | none => return none
          | some existingUser =>
            issue (.publish (.userDeleted existingUser))
            return some (.ok ())

/-- Both functions that change the access to the API: what they do to the user, and which event
they publish -/
def changeApi (id : UserIdentifier) (change : User → UserProgram User)
    (event : User → UserEvent) : UserProgram (Option (Except Error User)) := do
  match lookup (← issue (.repo (.getUser id))) with
  | .error err => return some (.error (.wrap ("unable to find user " ++ id) err))
  | .ok user =>
    match validateApiChange ui user with
    | none => return none
    | some (.error err) => return some (.error err)
    | some (.ok _) =>
      match user with
      | none => return none
      | some user =>
        let user ← change user
        match ← repoSaveUser ui user.identifier fun u => .ok (user.copyCalculatedAttributes u) with
        | .error err => return some (.error (.wrap "update failure" err))
        | .ok user =>
          issue (.publish (.userUpdated user))
          issue (.publish (event user))
          return some (.ok user)

def activateApi (id : UserIdentifier) : UserProgram (Option (Except Error User)) :=
  changeApi ui id
    (fun user => do
      let now ← issue .timeNow
      let token ← issue .newUuid
      return { user with apiToken := token, apiTokenCreated := some now })
    .userApiEnabled

def deactivateApi (id : UserIdentifier) : UserProgram (Option (Except Error User)) :=
  changeApi ui id (fun user => return { user with apiToken := "", apiTokenCreated := none })
    .userApiDisabled

end Calls

/-- The operations on a user that is named by an identifier -/
inductive Operation where
  | deleteUser
  | activateApi
  | deactivateApi
deriving DecidableEq

/-- The operation, whichever user it returns -/
def Operation.program (ui : ContextUserInfo) (id : UserIdentifier) :
    Operation → UserProgram (Option (Except Error Unit))
  | .deleteUser => UnknownUsers.deleteUser ui id
  | .activateApi => do return (← UnknownUsers.activateApi ui id).map fun r => r.map fun _ => ()
  | .deactivateApi => do return (← UnknownUsers.deactivateApi ui id).map fun r => r.map fun _ => ()

/-- What the operation returns, and the users and events that it leaves -/
def Operation.run (ui : ContextUserInfo) (id : UserIdentifier) (c : ℕ → Circumstance)
    (world : World) (op : Operation) : Option (Except Error Unit) × World :=
  let (result, s) := (op.program ui id).eval (inTurn c) (0, world)
  (result, s.2)

/-- The operation reports that there is no user, does not panic, and an error has no effect. -/
structure FailsCleanly (ui : ContextUserInfo) (id : UserIdentifier) (c : ℕ → Circumstance)
    (world : World) (op : Operation) : Prop where
  unknown : world.users.find id = none → ∃ err, (op.run ui id c world).1 = some (.error err)
  returns : (op.run ui id c world).1 ≠ none
  untouched : ∀ err, (op.run ui id c world).1 = some (.error err) → (op.run ui id c world).2 = world

/-- The user is stored, the lookup itself fails, or the caller may not delete users at all. -/
def Answered (ui : ContextUserInfo) (id : UserIdentifier) (c : ℕ → Circumstance) (world : World)
    (op : Operation) : Prop :=
  world.users.find id ≠ none ∨ (c 0).fault ≠ none ∨ (op = .deleteUser ∧ ui.isAdmin = false)

variable {ui : ContextUserInfo} {id : UserIdentifier} {s : World} {u : User}

/-- A result, and an error only if nothing was changed -/
def Clean {α : Type} (s : World) (r : Option (Except Error α)) (t : World) : Prop :=
  r ≠ none ∧ ∀ err, r = some (.error err) → t = s

theorem Clean.error {α : Type} (err : Error) : Clean s (some (.error err : Except Error α)) s :=
  ⟨by simp, fun _ _ => rfl⟩

theorem Clean.ok {α : Type} (a : α) (t : World) : Clean s (some (.ok a)) t :=
  ⟨by simp, fun _ same => by cases same⟩

/-- The lookup of a stored user finds it or fails. -/
theorem Step.found {answer : Except Error User} {t : World}
    (step : Step (.repo (.getUser id)) s answer t) (stored : s.users.find id = some u) :
    t = s ∧ (lookup answer = .ok (some u) ∨ ∃ text, lookup answer = .error (.other text)) := by
  rcases step.repo with ⟨text, rfl, rfl⟩ | ⟨now, rfl, rfl⟩
  · exact ⟨rfl, .inr ⟨text, rfl⟩⟩
  · have read : s.getUser id = .ok u := by rw [World.getUser, stored]
    exact ⟨rfl, .inl (by rw [UserRepoOp.answer, read]; rfl)⟩

theorem always_deleteUser (stored : s.users.find id = some u) :
    (deleteUser ui id).Always Step s (Clean s) := by
  unfold deleteUser
  cases validateAdminAccessRights ui with
  | error err => exact .error err
  | ok _ =>
    intro answer s' read
    obtain ⟨rfl, found | ⟨text, failed⟩⟩ := Step.found read stored
    · dsimp only [Program.bind]
      rw [found]
      dsimp only [validateDeletion]
      cases Manager.validateDeletion ui u with
      | error err => exact .error _
      | ok _ =>
        intro answer t deleted
        rcases deleted.repo with ⟨text, rfl, rfl⟩ | ⟨now, rfl, rfl⟩
        · exact .error _
        · exact fun _ t _ => .ok () t
    · dsimp only [Program.bind]
      rw [failed]
      exact .error _

theorem always_changeApi {change : User → UserProgram User} {event : User → UserEvent}
    (changes : ∀ user s, (change user).Always Step s fun _ t => t = s)
    (stored : s.users.find id = some u) :
    (changeApi ui id change event).Always Step s (Clean s) := by
  unfold changeApi
  intro answer s' read
  obtain ⟨rfl, found | ⟨text, failed⟩⟩ := Step.found read stored
  · dsimp only [Program.bind]
    rw [found]
    dsimp only [validateApiChange]
    cases Manager.validateApiChange ui u with
    | error err => exact .error _
    | ok _ =>
      refine (changes u s').bind ?_
      rintro user _ rfl
      intro answer t loaded
      rcases loaded.repo with ⟨text, rfl, rfl⟩ | ⟨now, rfl, rfl⟩
      · exact .error _
      · intro answer t saved
        rcases saved.repo with ⟨text, rfl, rfl⟩ | ⟨now, rfl, rfl⟩
        · exact .error _
        · exact fun _ _ _ _ t _ => .ok _ t
  · dsimp only [Program.bind]
    rw [failed]
    exact .error _

theorem Clean.map {α β : Type} {r : Option (Except Error α)} {t : World} (f : α → β)
    (clean : Clean s r t) : Clean s (r.map fun r => r.map f) t := by
  obtain ⟨returns, untouched⟩ := clean
  cases r with
  | none => exact absurd rfl returns
  | some r =>
    cases r with
    | error err => exact ⟨by simp, fun _ _ => untouched err rfl⟩
    | ok a => exact .ok (f a) t

theorem always_program (op : Operation) (stored : s.users.find id = some u) :
    (op.program ui id).Always Step s (Clean s) := by
  cases op with
  | deleteUser => exact always_deleteUser stored
  | activateApi =>
    refine (always_changeApi (fun user s => ?_) stored).bind fun r t clean => clean.map _
    rintro now t ⟨c, read⟩ token t' ⟨c', created⟩
    exact (Prod.mk.inj created).2.symm.trans (Prod.mk.inj read).2.symm
  | deactivateApi =>
    refine (always_changeApi (fun user s => ?_) stored).bind fun r t clean => clean.map _
    exact rfl

theorem run_stored {c : ℕ → Circumstance} (op : Operation) (stored : s.users.find id = some u) :
    Clean s (op.run ui id c s).1 (op.run ui id c s).2 :=
  Program.Always.eval (t := (0, s)) (inTurn_steps c) (always_program op stored)

/-- Somebody who is no admin deletes nobody. -/
theorem run_deleteUser_of_not_admin {c : ℕ → Circumstance} (other : ui.isAdmin = false) :
    Operation.deleteUser.run ui id c s = (some (.error .noPermission), s) := by
  have refused : validateAdminAccessRights ui = .error .noPermission := by
    rw [validateAdminAccessRights, other]
    rfl
  simp only [Operation.run, Operation.program, deleteUser, refused]
  rfl

section Lookup

variable {c : ℕ → Circumstance}

theorem admin_allowed (admin : ui.isAdmin = true) : validateAdminAccessRights ui = .ok () := by
  rw [validateAdminAccessRights, admin]
  rfl

/-- An error of the lookup is returned. -/
theorem deleteUser_of_fault {text : String} (fault : (c 0).fault = some text)
    (admin : ui.isAdmin = true) : (deleteUser ui id).eval (inTurn c) (0, s) =
      (some (.error (.wrap ("unable to find user " ++ id) (.other text))), (1, s)) := by
  simp only [deleteUser, admin_allowed admin, issue, perform_bind, eval_call]
  rw [inTurn_of_fault fault]
  rfl

theorem changeApi_of_fault {text : String} (fault : (c 0).fault = some text)
    (change : User → UserProgram User) (event : User → UserEvent) :
    (changeApi ui id change event).eval (inTurn c) (0, s) =
      (some (.error (.wrap ("unable to find user " ++ id) (.other text))), (1, s)) := by
  simp only [changeApi, issue, perform_bind, eval_call]
  rw [inTurn_of_fault fault]
  rfl

theorem run_of_fault {op : Operation} {text : String} (fault : (c 0).fault = some text)
    (may : op = .deleteUser → ui.isAdmin = true) : op.run ui id c s =
      (some (.error (.wrap ("unable to find user " ++ id) (.other text))), s) := by
  cases op with
  | deleteUser => rw [Operation.run, Operation.program, deleteUser_of_fault fault (may rfl)]
  | activateApi =>
    rw [Operation.run, Operation.program, eval_bind, activateApi, changeApi_of_fault fault]
    rfl
  | deactivateApi =>
    rw [Operation.run, Operation.program, eval_bind, deactivateApi, changeApi_of_fault fault]
    rfl

theorem getUser_unknown (unknown : s.users.find id = none) : s.getUser id = .error .notFound := by
  rw [World.getUser, unknown]

/-- The checks read the user that is not there. -/
theorem deleteUser_unknown (calm : (c 0).fault = none) (admin : ui.isAdmin = true)
    (unknown : s.users.find id = none) :
    (deleteUser ui id).eval (inTurn c) (0, s) = (none, (1, s)) := by
  have missing : lookup (.error .notFound) = .ok none := rfl
  have panics : validateDeletion ui none = none := by
    rw [validateDeletion, admin]
    rfl
  simp only [deleteUser, admin_allowed admin, issue, perform_bind, eval_call]
  rw [inTurn_of_calm calm]
  simp only [UserRepoOp.answer, getUser_unknown unknown, missing, panics]
  rfl

theorem changeApi_unknown (calm : (c 0).fault = none) (unknown : s.users.find id = none)
    (change : User → UserProgram User) (event : User → UserEvent) :
    (changeApi ui id change event).eval (inTurn c) (0, s) = (none, (1, s)) := by
  simp only [changeApi, issue, perform_bind, eval_call]
  rw [inTurn_of_calm calm]
  simp only [UserRepoOp.answer, getUser_unknown unknown]
  rfl

theorem run_unknown {op : Operation} (calm : (c 0).fault = none)
    (may : op = .deleteUser → ui.isAdmin = true) (unknown : s.users.find id = none) :
    op.run ui id c s = (none, s) := by
  cases op with
  | deleteUser => rw [Operation.run, Operation.program, deleteUser_unknown calm (may rfl) unknown]
  | activateApi =>
    rw [Operation.run, Operation.program, eval_bind, activateApi, changeApi_unknown calm unknown]
    rfl
  | deactivateApi =>
    rw [Operation.run, Operation.program, eval_bind, deactivateApi, changeApi_unknown calm unknown]
    rfl

end Lookup

/-- The operations fail cleanly exactly if something else than the missing user answers them. -/
theorem failsCleanly_iff (ui : ContextUserInfo) (id : UserIdentifier) (c : ℕ → Circumstance)
    (world : World) (op : Operation) :
    FailsCleanly ui id c world op ↔ Answered ui id c world op := by
  cases stored : world.users.find id with
  | some u =>
    have clean : Clean world (op.run ui id c world).1 (op.run ui id c world).2 :=
      run_stored op stored
    refine iff_of_true ⟨fun unknown => ?_, clean.1, clean.2⟩ (.inl (by simp [stored]))
    cases stored.symm.trans unknown
  | none =>
    have refused : ∀ err, op.run ui id c world = (some (.error err), world) →
        FailsCleanly ui id c world op := by
      intro err same
      refine ⟨fun _ => ⟨err, by rw [same]⟩, by simp [same], fun _ _ => by rw [same]⟩
    by_cases other : op = .deleteUser ∧ ui.isAdmin = false
    · refine iff_of_true (refused .noPermission ?_) (.inr (.inr other))
      rw [other.1, run_deleteUser_of_not_admin other.2]
    · have may : op = .deleteUser → ui.isAdmin = true := by
        intro same
        by_contra notAdmin
        exact other ⟨same, by simpa using notAdmin⟩
      cases fault : (c 0).fault with
      | some text =>
        exact iff_of_true (refused _ (run_of_fault fault may)) (.inr (.inl (by simp [fault])))
      | none =>
        refine iff_of_false (fun clean => clean.returns ?_) ?_
        · rw [run_unknown fault may stored]
        · rintro (known | failed | notAdmin)
          · exact known stored
          · exact failed fault
          · exact other notAdmin

/-- What stands for a panic in the user manager -/
def nilDereference : Error := .other "nil pointer dereference"

/-- Where the panic is taken for an error, the functions are those of the user manager. -/
theorem deleteUser_eq (ui : ContextUserInfo) (id : UserIdentifier) :
    Manager.deleteUser ui id = do return (← deleteUser ui id).getD (.error nilDereference) := by
  unfold Manager.deleteUser deleteUser
  cases rights : validateAdminAccessRights ui with
  | error err => rfl
  | ok _ =>
    have admin : ui.isAdmin = true := by
      by_contra other
      rw [validateAdminAccessRights, if_neg other] at rights
      cases rights
    simp only [issue, perform_bind, call_bind]
    refine congrArg (call _) (funext fun answer => ?_)
    cases answer with
    | error err =>
      cases missing : err.is .notFound with
      | true =>
        have panics : validateDeletion ui none = none := by
          rw [validateDeletion, admin]
          rfl
        simp only [lookup, missing, Bool.not_true, Bool.false_eq_true, if_false, panics]
        rfl
      | false =>
        simp only [lookup, missing]
        rfl
    | ok user =>
      simp only [lookup, validateDeletion]
      cases Manager.validateDeletion ui user with
      | error err => rfl
      | ok _ =>
        refine congrArg (call _) (funext fun answer => ?_)
        cases answer <;> rfl

theorem changeApi_eq (ui : ContextUserInfo) (id : UserIdentifier)
    (change : User → UserProgram User) (event : User → UserEvent) :
    Manager.changeApi ui id change event = do
      return (← changeApi ui id change event).getD (.error nilDereference) := by
  unfold Manager.changeApi changeApi
  simp only [issue, perform_bind, call_bind]
  refine congrArg (call _) (funext fun answer => ?_)
  cases answer with
  | error err =>
    cases missing : err.is .notFound <;>
    · simp only [lookup, missing]
      rfl
  | ok user =>
    simp only [lookup, validateApiChange]
    cases Manager.validateApiChange ui user with
    | error err => rfl
    | ok _ =>
      simp only [bind_assoc]
      refine congrArg (change user >>= ·) (funext fun changed => ?_)
      let save := repoSaveUser ui changed.identifier fun u =>
        .ok (changed.copyCalculatedAttributes u)
      refine congrArg (save >>= ·) (funext fun saved => ?_)
      cases saved <;> rfl

/-- No user is stored, and no statement fails. -/
def emptyWorld : World := ⟨Table.empty, Db.empty, []⟩

def calmCircumstance : Circumstance := ⟨0, none, "token"⟩

/-- An admin who deletes somebody unknown, and a caller without a record -/
theorem unknownUser_panics :
    (Operation.deleteUser.run ⟨"admin", true⟩ "nobody" (fun _ => calmCircumstance) emptyWorld).1 =
      none ∧
    (Operation.activateApi.run ⟨"nobody", false⟩ "nobody" (fun _ => calmCircumstance)
      emptyWorld).1 = none ∧
    ¬ FailsCleanly ⟨"admin", true⟩ "nobody" (fun _ => calmCircumstance) emptyWorld .deleteUser := by
  have panics : (Operation.deleteUser.run ⟨"admin", true⟩ "nobody" (fun _ => calmCircumstance)
      emptyWorld).1 = none := by rw [run_unknown rfl (fun _ => rfl) rfl]
  refine ⟨panics, ?_, fun clean => clean.returns panics⟩
  rw [run_unknown rfl (fun same => by cases same) rfl]

end WgPortal.Users.UnknownUsers
