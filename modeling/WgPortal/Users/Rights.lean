import WgPortal.Users.Steps

/-! What users without admin rights may do to the stored users. -/

namespace WgPortal.Users

open Domain Library Adapters App Program
open UserProgram (issue)

/-- A call of the user manager. -/
inductive UserCall where
  | updateUser (user : User)
  | createUser (user : User)
  | deleteUser (id : UserIdentifier)
  | activateApi (id : UserIdentifier)
  | deactivateApi (id : UserIdentifier)

/-- The call, whatever it answers. -/
def UserCall.program (m : Manager) (ui : ContextUserInfo) : UserCall → UserProgram Unit
  | updateUser user => do let _ ← m.updateUser ui user
  | createUser user => do let _ ← m.createUser ui user
  | deleteUser id => do let _ ← Manager.deleteUser ui id
  | activateApi id => do let _ ← Manager.activateApi ui id
  | deactivateApi id => do let _ ← Manager.deactivateApi ui id

/-- A call in the context of a user who is no admin. -/
structure Request where
  ui : ContextUserInfo
  unprivileged : ui.isAdmin = false
  call : UserCall
  circumstances : ℕ → Circumstance

namespace Manager

variable (m : Manager)

def serve (s : World) (request : Request) : World :=
  ((request.call.program m request.ui).eval (inTurn request.circumstances) (0, s)).2.2

def serveAll (s : World) (requests : List Request) : World := requests.foldl m.serve s

end Manager

/-- Nobody comes, goes or becomes an admin, and records of others stay as they are. -/
structure NoEscalation (callers : List UserIdentifier) (users users' : Table User.identifier) :
    Prop where
  stored : ∀ id, users'.find id = none ↔ users.find id = none
  rights : ∀ id old new, users.find id = some old → users'.find id = some new →
    new.isAdmin = old.isAdmin
  others : ∀ id, id ∉ callers → users'.find id = users.find id

variable {callers : List UserIdentifier} {users users' users'' : Table User.identifier}
  {m : Manager} {ui : ContextUserInfo} {s : World}

theorem NoEscalation.refl : NoEscalation callers users users :=
  ⟨fun _ => Iff.rfl, fun _ _ _ found found' => by cases found.symm.trans found'; rfl,
    fun _ _ => rfl⟩

theorem NoEscalation.of_eq (same : users' = users) : NoEscalation callers users users' :=
  same ▸ .refl

theorem NoEscalation.trans {later : List UserIdentifier} (first : NoEscalation callers users users')
    (second : NoEscalation later users' users'') :
    NoEscalation (callers ++ later) users users'' := by
  refine ⟨fun id => (second.stored id).trans (first.stored id), fun id old new found found'' => ?_,
    fun id out => ?_⟩
  · cases found' : users'.find id with
    | none => cases ((first.stored id).mp found').symm.trans found
    | some mid =>
      exact (second.rights id mid new found' found'').trans (first.rights id old mid found found')
  · rw [List.mem_append, not_or] at out
    exact (second.others id out.2).trans (first.others id out.1)

/-- A user who is stored is written once more. -/
theorem noEscalation_store {old u : User} (found : users.find u.identifier = some old)
    (flag : u.isAdmin = old.isAdmin) :
    NoEscalation [u.identifier] users (users.upsert (row u)) := by
  refine ⟨fun id => ?_, fun id before after before' after' => ?_, fun id out => ?_⟩
  · rw [find_store]
    split
    · rename_i same
      rw [← same, found]
      exact iff_of_false (by simp) (by simp)
    · exact Iff.rfl
  · rw [find_store] at after'
    split at after'
    · rename_i same
      rw [← same, found] at before'
      rw [← Option.some.inj after', ← Option.some.inj before']
      exact flag
    · rw [Option.some.inj (after'.symm.trans before')]
  · rw [find_store, if_neg fun same => out (List.mem_singleton.mpr same.symm)]

section Calls

variable (unprivileged : ui.isAdmin = false)
include unprivileged

theorem own_of_allowed {old new : User} (allowed : m.validateModifications ui old new = .ok ()) :
    ui.id = new.identifier := by
  simp only [Manager.validateModifications, check_eq_ok, rejectIf_eq_ok, unprivileged,
    Bool.not_false, Bool.and_true, decide_eq_false_iff_not, not_not] at allowed
  exact allowed.1

theorem no_admin_access : validateAdminAccessRights ui = .error .noPermission := by
  rw [validateAdminAccessRights, unprivileged]
  rfl

theorem updateUser_noEscalation (user : User) : (m.updateUser ui user).Always Step s
    fun _ t => NoEscalation [ui.id] s.users t.users := by
  refine (always_updateUser user).mono fun r t saves => ?_
  cases r with
  | error err => exact .of_eq saves
  | ok u =>
    obtain ⟨⟨old, allowed, updated⟩, stored⟩ := saves
    obtain ⟨base, n, password, same⟩ := updated.same
    have named : u.identifier = user.identifier := by rw [same]
    have flag : u.isAdmin = old.isAdmin := by rw [same]
    rw [stored, own_of_allowed unprivileged allowed, ← named]
    exact noEscalation_store (named ▸ updated.found) flag

theorem createUser_noEscalation (user : User) : (m.createUser ui user).Always Step s
    fun _ t => NoEscalation [ui.id] s.users t.users := by
  unfold Manager.createUser
  split
  · exact .refl
  · rw [no_admin_access unprivileged]
    exact .refl

theorem deleteUser_noEscalation (id : UserIdentifier) : (Manager.deleteUser ui id).Always Step s
    fun _ t => NoEscalation [ui.id] s.users t.users := by
  unfold Manager.deleteUser
  rw [no_admin_access unprivileged]
  exact .refl

omit unprivileged in
/-- Whoever calls, the change is to the own record. -/
theorem changeApi_noEscalation {id : UserIdentifier} {change : User → UserProgram User}
    {event : User → UserEvent}
    (changes : ∀ user s, (change user).Always Step s fun u t =>
      t.users = s.users ∧ u.identifier = user.identifier) :
    (Manager.changeApi ui id change event).Always Step s
      fun _ t => NoEscalation [ui.id] s.users t.users := by
  unfold Manager.changeApi
  intro answer s' read
  obtain ⟨rfl, stored⟩ := read.getUser
  cases answer with
  | error err =>
    show Always Step (if !err.is .notFound then _ else _) _ _
    split <;> exact .refl
  | ok user =>
    have found := stored user rfl
    dsimp only [Program.bind]
    cases allowed : Manager.validateApiChange ui user with
    | error err => exact .refl
    | ok _ =>
      have own : ui.id = user.identifier := by
        rw [Manager.validateApiChange, rejectIf_eq_ok] at allowed
        simpa using allowed
      have key : user.identifier = id := Table.key_of_find found
      refine (changes user s').bind fun changed t made => ?_
      obtain ⟨same, named⟩ := made
      refine (always_repoSaveUser changed.identifier changed.copyCalculatedAttributes).bind
        fun r t' saves => ?_
      cases r with
      | error err => exact .of_eq ((saves : t'.users = t.users).trans same)
      | ok u =>
        obtain ⟨⟨now, now', rfl⟩, after⟩ := saves
        have read : t.getOrCreateUser ui.id now' changed.identifier =
            { user with webAuthnCredentialList := [] } := by
          simp only [World.getOrCreateUser, same, named, key, found]
        intro _ v updated _ w announced
        have after' := announced.publish.trans (updated.publish.trans after)
        rw [read, same] at after'
        have stored := @noEscalation_store s'.users user
          (written ui.id now (changed.copyCalculatedAttributes
            { user with webAuthnCredentialList := [] }))
          ((congrArg _ (named.trans key)).trans found) rfl
        rw [← after'] at stored
        exact own.trans named.symm ▸ stored

omit unprivileged in
theorem activateApi_noEscalation (id : UserIdentifier) : (Manager.activateApi ui id).Always Step s
    fun _ t => NoEscalation [ui.id] s.users t.users := by
  refine changeApi_noEscalation fun user s => ?_
  intro now t read token t' created
  exact ⟨created.newUuid.trans read.timeNow, rfl⟩

omit unprivileged in
theorem deactivateApi_noEscalation (id : UserIdentifier) :
    (Manager.deactivateApi ui id).Always Step s
      fun _ t => NoEscalation [ui.id] s.users t.users :=
  changeApi_noEscalation fun _ _ => ⟨rfl, rfl⟩

theorem call_noEscalation (call : UserCall) : (call.program m ui).Always Step s
    fun _ t => NoEscalation [ui.id] s.users t.users := by
  cases call with
  | updateUser user => exact (updateUser_noEscalation unprivileged user).bind fun _ _ h => h
  | createUser user => exact (createUser_noEscalation unprivileged user).bind fun _ _ h => h
  | deleteUser id => exact (deleteUser_noEscalation unprivileged id).bind fun _ _ h => h
  | activateApi id => exact (activateApi_noEscalation id).bind fun _ _ h => h
  | deactivateApi id => exact (deactivateApi_noEscalation id).bind fun _ _ h => h

end Calls

theorem serve_noEscalation (m : Manager) (s : World) (request : Request) :
    NoEscalation [request.ui.id] s.users (m.serve s request).users := by
  exact Program.Always.eval (t := (0, s)) (inTurn_steps request.circumstances)
    (call_noEscalation request.unprivileged request.call)

theorem serveAll_run (m : Manager) (s : World) (requests : List Request) :
    NoEscalation (requests.map (·.ui.id)) s.users (m.serveAll s requests).users := by
  induction requests generalizing s with
  | nil => exact .refl
  | cons request requests ih =>
    exact (serve_noEscalation m s request).trans (ih (m.serve s request))

/-- However users without admin rights call the user manager, and whatever fails meanwhile,
nobody becomes an admin, is created or deleted, and each call leaves all records but that of
its caller. -/
theorem serveAll_noEscalation (m : Manager) (s : World) (requests : List Request)
    (request : Request) :
    NoEscalation (requests.map (·.ui.id)) s.users (m.serveAll s requests).users ∧
      NoEscalation [request.ui.id] (m.serveAll s requests).users
        (m.serveAll s (requests ++ [request])).users := by
  refine ⟨serveAll_run m s requests, ?_⟩
  rw [Manager.serveAll, Manager.serveAll, List.foldl_append]
  exact serve_noEscalation m _ request

end WgPortal.Users
