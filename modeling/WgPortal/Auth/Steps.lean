import WgPortal.Auth.Authenticator
import WgPortal.Users.Steps

/-! What a login may do to the stored users, and how far that depends on which
operations fail. -/

namespace WgPortal.Auth

open Domain Library App Users Program
open AuthProgram (issue managing)
open WireGuard (MapOrder)

/-- An operation under some circumstances. -/
def Step (op : AuthOp) (s : World) (answer : op.Res) (t : World) : Prop :=
  ∃ c, op.exec c s = (answer, t)

/-- The user may log in. -/
def Active (user : User) : Prop := user.isLocked = false ∧ user.isDisabled = false

instance (user : User) : Decidable (Active user) := inferInstanceAs (Decidable (_ ∧ _))

/-- What becomes of the stored users when an external source reports one of them. -/
inductive Processed (userInfo : AuthenticatorUserInfo) (source : UserSource)
    (users : Table User.identifier) : Except Error User → Table User.identifier → Prop where
  | failed (err : Error) : Processed userInfo source users (.error err) users
  | registered {u : User} (new : users.find userInfo.identifier = none)
      (named : u.identifier = userInfo.identifier) (active : Active u) :
      Processed userInfo source users (.ok u) (users.upsert (row u))
  | idle {old : User} (n : ℕ) (found : users.find userInfo.identifier = some old)
      (inactive : ¬ Active old) :
      Processed userInfo source users (.ok (counted old n)) users
  | same {old : User} (n : ℕ) (found : users.find userInfo.identifier = some old)
      (active : Active old) (own : old.source = source) :
      Processed userInfo source users (.ok (counted old n)) users
  | updated {old u : User} (found : users.find userInfo.identifier = some old)
      (active : Active old) (own : old.source = source) (named : u.identifier = old.identifier)
      (locked : u.locked = old.locked) (disabled : u.disabled = old.disabled)
      (kept : u.source = old.source) (password : u.password = old.password) :
      Processed userInfo source users (.ok u) (users.upsert (row u))

variable {a : Authenticator} {ui : ContextUserInfo} {s t : World}
  {userInfo : AuthenticatorUserInfo} {source : UserSource} {provider : String}

theorem Step.users {op : UserOp} {answer : op.Res} (step : Step (.users op) s answer t) :
    Users.Step op s.users answer t.users ∧ t.accepted = s.accepted := by
  obtain ⟨c, run⟩ := step
  simp only [AuthOp.exec] at run
  obtain ⟨rfl, rfl⟩ := Prod.mk.inj run
  exact ⟨⟨c, rfl⟩, rfl⟩

theorem always_managing {α : Type} {prog : UserProgram α} {post : α → Users.World → Prop}
    (always : prog.Always Users.Step s.users post) :
    (managing prog).Always Step s fun r t => post r t.users ∧ t.accepted = s.accepted := by
  have each : ∀ (op : UserOp) (t : World), t.accepted = s.accepted →
      (issue (.users op)).Always Step t fun answer t' =>
        Users.Step op t.users answer t'.users ∧ t'.accepted = s.accepted := by
    intro op t same answer t' step
    exact ⟨step.users.1, step.users.2.trans same⟩
  exact always.embed each rfl

theorem inactive_iff {user : User} :
    ¬ Active user ↔ (user.isLocked || user.isDisabled) = true := by
  cases locked : user.isLocked <;> cases disabled : user.isDisabled <;>
    simp [Active, locked, disabled]

theorem always_updateExternalUser {old : User} {n : ℕ} (foreign : source ≠ .database)
    (found : s.users.users.find userInfo.identifier = some old) :
    (a.updateExternalUser ui (counted old n) userInfo source provider).Always
      Step s fun r t => Processed userInfo source s.users.users r t.users.users ∧
        t.accepted = s.accepted := by
  unfold Authenticator.updateExternalUser
  split
  · rename_i inactive
    exact ⟨.idle n found (inactive_iff.mpr inactive), rfl⟩
  · rename_i active
    have active : Active old := not_not.mp fun inactive => active (inactive_iff.mp inactive)
    dsimp only
    split
    · rename_i same
      have own : source = old.source := congrArg User.source same
      exact ⟨.same n found active own.symm, rfl⟩
    · have key : old.identifier = userInfo.identifier := Table.key_of_find found
      refine (always_managing (Users.always_updateUser _)).bind fun r t saves => ?_
      cases r with
      | error err =>
        have same : t.users.users = s.users.users := saves.1
        refine ⟨?_, saves.2⟩
        rw [same]
        exact .failed _
      | ok u =>
        obtain ⟨⟨⟨old', allowed, updated⟩, stored⟩, kept⟩ := saves
        obtain rfl : old' = old :=
          Option.some.inj (updated.found.symm.trans ((congrArg _ key).trans found))
        have own : old'.source = source := updated.source
        have password : u.password = old'.password := by
          by_cases empty : old'.password = ""
          · exact updated.password empty
          · exact absurd (own.symm.trans (updated.foreign empty)) foreign
        refine ⟨?_, kept⟩
        rw [stored]
        obtain ⟨base, k, password', same⟩ := updated.same
        refine .updated found active own ?_ ?_ ?_ ?_ password <;> rw [same]
        · rfl
        · rfl
        · rfl
        · exact own.symm

theorem always_registerNewUser :
    (a.registerNewUser ui userInfo source provider).Always Step s fun r t =>
      (Processed userInfo source s.users.users r t.users.users ∧ t.accepted = s.accepted) ∧
        ∀ u, r = .ok u → s.users.users.find u.identifier = none := by
  unfold Authenticator.registerNewUser
  refine (always_managing (Users.always_registerUser _)).bind fun r t saves => ?_
  cases r with
  | error err =>
    have same : t.users.users = s.users.users := saves.1
    refine ⟨⟨?_, saves.2⟩, fun u ok => by cases ok⟩
    rw [same]
    exact .failed _
  | ok u =>
    obtain ⟨⟨created, stored⟩, kept⟩ := saves
    obtain ⟨base, k, password, same⟩ := created.same
    have named : u.identifier = userInfo.identifier := by rw [same]; rfl
    have active : Active u := by rw [same]; exact ⟨rfl, rfl⟩
    refine ⟨⟨?_, kept⟩, fun v ok => ?_⟩
    · rw [stored]
      exact .registered created.new named active
    · rw [← Except.ok.inj ok, named]
      exact created.new

theorem Processed.error {users users' : Table User.identifier} {err : Error} (err' : Error)
    (processed : Processed userInfo source users (.error err) users') :
    Processed userInfo source users (.error err') users' := by
  cases processed
  exact .failed err'

theorem always_processUserInfo {withReg : Bool} (foreign : source ≠ .database) :
    (a.processUserInfo ui userInfo source provider withReg).Always Step s fun r t =>
      Processed userInfo source s.users.users r t.users.users ∧ t.accepted = s.accepted := by
  unfold Authenticator.processUserInfo
  refine (always_managing (Users.always_getUser userInfo.identifier)).bind fun r t read => ?_
  obtain ⟨⟨same, stored⟩, kept⟩ := read
  cases r with
  | error err =>
    dsimp only
    split
    · refine always_registerNewUser.bind fun r t' processed => ?_
      rw [same, kept] at processed
      cases r with
      | error err => exact ⟨processed.1.1.error _, processed.1.2⟩
      | ok u => exact processed.1
    · rw [← same]
      exact ⟨.failed _, kept⟩
  | ok user =>
    obtain ⟨old, k, found, rfl⟩ := stored user rfl
    rw [← same] at found
    refine (always_updateExternalUser foreign found).bind fun r t' processed => ?_
    rw [same, kept] at processed
    cases r with
    | error err => exact ⟨processed.1.error _, processed.2⟩
    | ok u => exact processed

section Run

variable {c : ℕ → Circumstance} {n : ℕ} {id : UserIdentifier} {old : User}

/-- The lookup does not fail, and it finds the user. -/
def Reads (c : ℕ → Circumstance) (n : ℕ) (users : Users.World) (id : UserIdentifier)
    (old : User) : Prop := (c n).fault = none ∧ users.users.find id = some old

theorem eval_getUser (reads : Reads c n s.users id old) : ∃ k,
    (managing (Users.Manager.getUser systemAdminContextUserInfo id)).eval (inTurn c) (n, s) =
      (.ok (counted old k), (n + 2, s)) := by
  have first : inTurn c (.users (.repo (.getUser id))) (n, s) = (.ok old, (n + 1, s)) := by
    simp only [inTurn, AuthOp.exec, UserOp.exec, reads.1, UserRepoOp.answer, World.getUser, reads.2,
      UserRepoOp.apply]
  show ∃ k, Program.eval (inTurn c) (.call (.users (.repo (.getUser id))) _) (n, s) = _
  rw [Program.eval_call, first]
  show ∃ k, Program.eval (inTurn c) (.call (.users (.repo (.getUserPeers id))) _) (n + 1, s) = _
  rw [Program.eval_call]
  cases fault : (c (n + 1)).fault with
  | some text =>
    have second : inTurn c (.users (.repo (.getUserPeers id))) (n + 1, s) =
        (.error (.other text), (n + 2, s)) := by
      simp only [inTurn, AuthOp.exec, UserOp.exec, fault]
    rw [second]
    exact ⟨0, rfl⟩
  | none =>
    have second : inTurn c (.users (.repo (.getUserPeers id))) (n + 1, s) =
        (.ok (s.users.db.getUserPeers id), (n + 2, s)) := by
      simp only [inTurn, AuthOp.exec, UserOp.exec, fault, UserRepoOp.answer, UserRepoOp.apply]
    rw [second]
    exact ⟨_, rfl⟩

theorem eval_getUser_of_unread (unread : ∀ old, ¬ Reads c n s.users id old) : ∃ err,
    (managing (Users.Manager.getUser systemAdminContextUserInfo id)).eval (inTurn c) (n, s) =
      (.error err, (n + 1, s)) := by
  have first : ∃ err,
      inTurn c (.users (.repo (.getUser id))) (n, s) = (.error err, (n + 1, s)) := by
    cases fault : (c n).fault with
    | some text => exact ⟨.other text, by simp only [inTurn, AuthOp.exec, UserOp.exec, fault]⟩
    | none =>
      have absent : s.users.users.find id = none :=
        Option.eq_none_iff_forall_ne_some.mpr fun old found => unread old ⟨fault, found⟩
      refine ⟨.notFound, ?_⟩
      simp only [inTurn, AuthOp.exec, UserOp.exec, fault, UserRepoOp.answer, World.getUser, absent,
        UserRepoOp.apply]
  obtain ⟨err, first⟩ := first
  show ∃ err, Program.eval (inTurn c) (.call (.users (.repo (.getUser id))) _) (n, s) = _
  rw [Program.eval_call, first]
  exact ⟨_, rfl⟩

theorem eval_managing {α : Type} (prog : UserProgram α) (n : ℕ) (s : World) :
    (managing prog).eval (inTurn c) (n, s) =
      ((prog.eval (Users.inTurn c) (n, s.users)).1, ((prog.eval (Users.inTurn c) (n, s.users)).2.1,
        { s with users := (prog.eval (Users.inTurn c) (n, s.users)).2.2 })) := by
  induction prog generalizing n s with
  | ret value => rfl
  | call op rest ih => exact ih _ _ _

/-- What holds wherever a program may lead holds after its run. -/
theorem eval_of_always {α : Type} {prog : AuthProgram α} {post : α → World → Prop}
    (always : prog.Always Step s post) :
    post (prog.eval (inTurn c) (n, s)).1 (prog.eval (inTurn c) (n, s)).2.2 :=
  Program.Always.eval (t := (n, s)) (fun _ _ => ⟨c _, rfl⟩) always

theorem eval_processUserInfo {withReg : Bool} (foreign : source ≠ .database) {r : Except Error User}
    {k : ℕ} (run : (a.processUserInfo ui userInfo source provider withReg).eval (inTurn c) (n, s) =
      (r, (k, t))) :
    Processed userInfo source s.users.users r t.users.users ∧ t.accepted = s.accepted := by
  have processed := @eval_of_always s c n _ _ _
    (@always_processUserInfo a ui s userInfo source provider withReg foreign)
  rw [run] at processed
  exact processed

/-- A user that is not found is new. -/
theorem new_of_unread {withReg : Bool}
    (unread : ∀ old, ¬ Reads c n s.users userInfo.identifier old) {u : User} {k : ℕ}
    (run : (a.processUserInfo systemAdminContextUserInfo userInfo source provider withReg).eval
      (inTurn c) (n, s) = (.ok u, (k, t))) : s.users.users.find u.identifier = none := by
  obtain ⟨err, read⟩ := eval_getUser_of_unread unread
  unfold Authenticator.processUserInfo at run
  rw [eval_bind, read] at run
  dsimp only at run
  split at run
  · rw [eval_bind] at run
    have registered := @eval_of_always s c (n + 1) _ _ _
      (@always_registerNewUser a systemAdminContextUserInfo s userInfo source provider)
    generalize (a.registerNewUser systemAdminContextUserInfo userInfo source provider).eval
      (inTurn c) (n + 1, s) = result at run registered
    obtain ⟨r, k', t'⟩ := result
    cases r with
    | error err => cases run
    | ok v =>
      cases run
      exact registered.2 _ rfl
  · cases run

/-- A user who is locked or disabled is not updated. -/
theorem eval_processUserInfo_idle {withReg : Bool}
    (reads : Reads c n s.users userInfo.identifier old) (inactive : ¬ Active old) : ∃ k,
    (a.processUserInfo systemAdminContextUserInfo userInfo source provider withReg).eval
      (inTurn c) (n, s) = (.ok (counted old k), (n + 2, s)) := by
  obtain ⟨k, read⟩ := eval_getUser reads
  refine ⟨k, ?_⟩
  unfold Authenticator.processUserInfo
  rw [eval_bind, read]
  dsimp only
  unfold Authenticator.updateExternalUser
  have locked : ((counted old k).isLocked || (counted old k).isDisabled) = true :=
    inactive_iff.mp inactive
  rw [if_pos locked]
  rfl

/-- Another provider's user is updated, or the call fails. -/
theorem processUserInfo_ok_iff {withReg : Bool}
    (reads : Reads c n s.users userInfo.identifier old) (active : Active old)
    (foreign : old.source ≠ .database) (other : provider ≠ old.providerName) :
    (∃ u, ((a.processUserInfo systemAdminContextUserInfo userInfo source provider withReg).eval
      (inTurn c) (n, s)).1 = .ok u) ↔
        Updates a.users c (n + 2) old (externalUser old userInfo source provider) := by
  obtain ⟨k, read⟩ := eval_getUser reads
  have unlocked : ¬ ((counted old k).isLocked || (counted old k).isDisabled) = true :=
    fun inactive => inactive_iff.mpr inactive active
  have changed : externalUser (counted old k) userInfo source provider ≠ counted old k :=
    fun same => other (congrArg User.providerName same)
  have key : old.identifier = userInfo.identifier := Table.key_of_find reads.2
  have found : s.users.users.find
      (externalUser (counted old k) userInfo source provider).identifier = some old :=
    (congrArg _ key).trans reads.2
  have updates : Updates a.users c (n + 2) old
      (externalUser (counted old k) userInfo source provider) ↔
      Updates a.users c (n + 2) old (externalUser old userInfo source provider) :=
    ⟨fun h => ⟨h.reads, h.allowed, h.rereads, h.commits⟩,
      fun h => ⟨h.reads, h.allowed, h.rereads, h.commits⟩⟩
  rw [← updates, ← @updateUser_ok_iff a.users s.users _ c (n + 2) old found foreign]
  unfold Authenticator.processUserInfo Authenticator.updateExternalUser
  rw [eval_bind, read]
  dsimp only
  rw [if_neg unlocked, if_neg changed]
  simp only [eval_bind, eval_managing]
  generalize (a.users.updateUser systemAdminContextUserInfo
    (externalUser (counted old k) userInfo source provider)).eval (Users.inTurn c)
      (n + 2, s.users) = result
  obtain ⟨r, j, t⟩ := result
  cases r with
  | error err => exact iff_of_false (fun ⟨u, ok⟩ => by cases ok) (fun ⟨u, ok⟩ => by cases ok)
  | ok saved => exact Iff.rfl

end Run

end WgPortal.Auth
