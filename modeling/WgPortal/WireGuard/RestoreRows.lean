import WgPortal.WireGuard.RestoreSteps

/-! What `RestoreInterfaceState` leaves of the rows of the interfaces. An
interface without a device is disabled there until an attempt to save it has
written its row. -/

namespace WgPortal.WireGuard.RestoreRows

open Domain Library Adapters App Config WgController RestoreSteps
open InterfaceProgram (issue lift)

/-- Whether and why interfaces are disabled, by identifier. -/
abbrev States := InterfaceIdentifier → Option (Option Time × String)

def statesOf (db : Db) : States := fun id =>
  (db.interfaces.find id).map fun iface => (iface.disabled, iface.disabledReason)

theorem statesOf_congr {db db' : Db} (same : db'.interfaces = db.interfaces) :
    statesOf db' = statesOf db := by
  funext id
  rw [statesOf, statesOf, same]

theorem statesOf_commitInterface (db : Db) (ui : UserIdentifier) (now : Time) (iface : Interface) :
    statesOf (db.commitInterface ui now iface) =
      Function.update (statesOf db) iface.identifier
        (some (iface.disabled, iface.disabledReason)) := by
  funext id
  by_cases same : id = iface.identifier
  · subst same
    rw [Function.update_self, statesOf, Db.commitInterface]
    exact congrArg (Option.map _) (Table.find_upsert_self db.interfaces _)
  · rw [Function.update_of_ne same, statesOf, Db.commitInterface, statesOf]
    exact congrArg (Option.map _) (Table.find_upsert_of_ne db.interfaces (Ne.symm same))

/-- An operation under any circumstances. -/
def AnyStep (op : InterfaceOp) (s : Site) (answer : op.Res) (t : Site) : Prop :=
  ∃ c : SiteCircumstance, op.exec c s = (answer, t)

/-- The operations that write no row of an interface. -/
def KeepsRows : InterfaceOp → Prop
  | .manager (.repo (.commitInterface ..)) | .commitInterface .. => False
  | _ => True

theorem attempted_interfaces {β : Type} {fault : Option Error} {work : Except Error β × Site}
    {s : Site} (same : work.2.db.interfaces = s.db.interfaces) :
    (attempted fault work s).2.db.interfaces = s.db.interfaces := by
  cases fault with
  | some err => rfl
  | none => exact same

theorem savePeer_db (s : Site) (backend : InterfaceBackend) (iface : InterfaceIdentifier)
    (id : PeerIdentifier) (updateFunc : PhysicalPeer → Except Error PhysicalPeer) :
    (s.savePeer backend iface id updateFunc).2.db = s.db := by
  unfold Site.savePeer
  split
  · rfl
  · split <;> rfl

theorem deletePeer_db (s : Site) (backend : InterfaceBackend) (iface : InterfaceIdentifier)
    (id : PeerIdentifier) : (s.deletePeer backend iface id).2.db = s.db := by
  unfold Site.deletePeer
  split <;> rfl

theorem saveInterface_db (s : Site) (backend : InterfaceBackend) (id : InterfaceIdentifier)
    (updateFunc : PhysicalInterface → Except Error PhysicalInterface) :
    (s.saveInterface backend id updateFunc).2.db = s.db := by
  unfold Site.saveInterface
  simp only
  split <;> rfl

theorem exec_interfaces {op : InterfaceOp} (keeps : KeepsRows op) (c : SiteCircumstance)
    (s : Site) : (op.exec c s).2.db.interfaces = s.db.interfaces := by
  cases op with
  | manager op =>
    cases op with
    | repo op =>
      cases op with
      | commitInterface => cases keeps
      | _ => cases fault : c.fault <;>
          simp only [InterfaceOp.exec, ManagerOp.execSite, RepoOp.exec, RepoOp.apply, fault,
            Db.deletePeerStatus_interfaces, Db.deletePeer, Db.commitPeer,
            Db.ensurePeerStatus_interfaces, Db.upsertPeer]
    | savePeer => exact attempted_interfaces (by rw [savePeer_db])
    | deletePeer => exact attempted_interfaces (by rw [deletePeer_db])
    | lock | timeNow | publish => rfl
    | getPeers | newFreshKeypair | newPreSharedKey => exact attempted_interfaces rfl
  | commitInterface => cases keeps
  | saveInterface => exact attempted_interfaces (by rw [saveInterface_db])
  | _ => exact attempted_interfaces rfl

theorem AnyStep.interfaces_eq {op : InterfaceOp} {s t : Site} {answer : op.Res}
    (step : AnyStep op s answer t) (keeps : KeepsRows op) : t.db.interfaces = s.db.interfaces := by
  obtain ⟨c, run⟩ := step
  have after : t = (op.exec c s).2 := by rw [run]
  rw [after, exec_interfaces keeps c s]

theorem AnyStep.statesOf_eq {op : InterfaceOp} {s t : Site} {answer : op.Res}
    (step : AnyStep op s answer t) (keeps : KeepsRows op) : statesOf t.db = statesOf s.db :=
  statesOf_congr (step.interfaces_eq keeps)

theorem always_kept {α : Type} {prog : InterfaceProgram α} (uses : prog.Uses KeepsRows) (s : Site) :
    prog.Always AnyStep s fun _ t => statesOf t.db = statesOf s.db := by
  refine uses.always (fun op t answer u keeps same step => ?_) rfl
  exact (step.statesOf_eq keeps).trans same

/-- What `saveInterface` keeps of the interface it works on. -/
structure SameState (iface iface' : Interface) : Prop where
  identifier : iface'.identifier = iface.identifier
  disabled : iface'.disabled = iface.disabled
  disabledReason : iface'.disabledReason = iface.disabledReason

/-- The row of the interface says what the interface says. -/
def Recorded (iface : Interface) (states : States) : Prop :=
  states iface.identifier = some (iface.disabled, iface.disabledReason)

variable {m : Manager} {iface : Interface} {ui : ContextUserInfo}

theorem SameState.recorded {iface' : Interface} {states : States} (same : SameState iface iface')
    (recorded : Recorded iface states) : Recorded iface' states := by
  rw [Recorded, same.identifier, same.disabled, same.disabledReason]
  exact recorded

theorem SameState.trans {iface' iface'' : Interface} (first : SameState iface iface')
    (second : SameState iface' iface'') : SameState iface iface'' :=
  ⟨second.identifier.trans first.identifier, second.disabled.trans first.disabled,
    second.disabledReason.trans first.disabledReason⟩

theorem validate_sameState {iface' : Interface} (valid : iface.validate = .ok iface') :
    SameState iface iface' := by
  obtain ⟨endpoint, rfl⟩ := Interface.validate_eq valid
  exact ⟨rfl, rfl, rfl⟩

theorem Idle.keepsRows {op : InterfaceOp} (idle : Idle op) : KeepsRows op := by
  cases op with
  | manager op =>
    cases op with
    | repo op =>
      cases op with
      | commitInterface => exact idle
      | _ => trivial
    | _ => trivial
  | commitInterface => exact idle
  | _ => trivial

/-- The operations that moreover run no hook. -/
def KeepsRowsUnhooked : InterfaceOp → Prop
  | .executeInterfaceHook .. => False
  | op => KeepsRows op

theorem KeepsRowsUnhooked.keepsRows {op : InterfaceOp} (keeps : KeepsRowsUnhooked op) :
    KeepsRows op := by
  cases op with
  | executeInterfaceHook => cases keeps
  | _ => exact keeps

theorem Silent.unhooked {op : InterfaceOp} (silent : Silent op) : KeepsRowsUnhooked op := by
  cases op with
  | executeInterfaceHook => exact silent
  | _ => exact Idle.keepsRows silent.idle

theorem Silent.keepsRows {op : InterfaceOp} (silent : Silent op) : KeepsRows op :=
  Idle.keepsRows silent.idle

theorem uses_restoreEnabledPeers (m : Manager) (iface : Interface) (peers : List Peer) :
    (m.restoreEnabledPeers iface peers).Uses KeepsRowsUnhooked := by
  induction peers with
  | nil => trivial
  | cons peer peers ih =>
    refine ⟨trivial, fun answer => ?_⟩
    cases answer with
    | error err => trivial
    | ok _ => exact ih

theorem uses_handleEnabled (m : Manager) (iface : Interface) (oldEnabled newEnabled : Bool) :
    (m.handleEnabled iface oldEnabled newEnabled).Uses KeepsRowsUnhooked := by
  unfold Manager.handleEnabled
  split
  · refine ⟨trivial, fun answer => ?_⟩
    cases answer with
    | error err => trivial
    | ok peers =>
      refine (uses_restoreEnabledPeers m iface peers).bind fun restored => ?_
      cases restored with
      | error err => trivial
      | ok _ => exact ⟨trivial, fun _ => trivial⟩
  · trivial

theorem uses_finishSave (m : Manager) (iface : Interface) (oldEnabled newEnabled : Bool) :
    (m.finishSave iface oldEnabled newEnabled).Uses KeepsRows := by
  refine ((uses_announceInterface m iface).mono fun _ => Silent.keepsRows).bind fun _ => ?_
  have hooks : (Manager.handleInterfacePostSaveHooks iface oldEnabled newEnabled).Uses Idle :=
    uses_handleInterfaceHooks ..
  refine (hooks.mono fun _ => Idle.keepsRows).bind fun hooked => ?_
  cases hooked with
  | error err => trivial
  | ok _ =>
    have enabled := (uses_handleEnabled m iface oldEnabled newEnabled).mono
      fun _ => KeepsRowsUnhooked.keepsRows
    refine enabled.bind fun restored => ?_
    cases restored with
    | error err => trivial
    | ok _ => exact ⟨trivial, fun _ => trivial⟩

theorem uses_restorePeers (m : Manager) (iface : Interface) (peers : List Peer) :
    (lift (m.restorePeers iface peers)).Uses KeepsRows := by
  induction peers with
  | nil => trivial
  | cons peer peers ih =>
    rw [Manager.restorePeers, InterfaceProgram.lift_bind]
    have first : (lift (m.restorePeer iface peer)).Uses KeepsRows := by
      rw [Manager.restorePeer]
      split
      · refine ⟨trivial, fun answer => ?_⟩
        cases answer <;> trivial
      · refine ⟨trivial, fun answer => ?_⟩
        cases answer <;> trivial
    refine first.bind fun restored => ?_
    cases restored with
    | error err => trivial
    | ok _ => exact ih

theorem uses_removeForeignPeers (m : Manager) (iface : Interface) (peers : List Peer)
    (listed : List PhysicalPeer) : (m.removeForeignPeers iface peers listed).Uses KeepsRows := by
  induction listed with
  | nil => trivial
  | cons pp listed ih =>
    rw [Manager.removeForeignPeers]
    split
    · exact ih
    · refine ⟨trivial, fun answer => ?_⟩
      cases answer with
      | error err => trivial
      | ok _ => exact ih

theorem AnyStep.commitInterface {userId : UserIdentifier} {s t : Site}
    {answer : Except Error Interface} (step : AnyStep (.commitInterface userId iface) s answer t) :
    (∃ err, answer = .error err ∧ t = s) ∨ ∃ iface' now, answer = .ok iface' ∧
      SameState iface iface' ∧ t.db = s.db.commitInterface userId now iface := by
  obtain ⟨c, run⟩ := step
  rcases attempted_cases run with failed | ⟨rfl, rfl⟩
  · exact .inl failed
  · exact .inr ⟨_, c.now, rfl, ⟨rfl, rfl, rfl⟩, rfl⟩

theorem Recorded.commitInterface {db : Db} (recorded : Recorded iface (statesOf db))
    (userId : UserIdentifier) (now : Time) :
    statesOf (db.commitInterface userId now iface) = statesOf db := by
  rw [statesOf_commitInterface, ← recorded, Function.update_eq_self]

theorem always_saveInterfaceRow {states : States} (recorded : Recorded iface states) {s : Site}
    (start : statesOf s.db = states) :
    (saveInterfaceRow ui iface.identifier (m.saveToController iface)).Always AnyStep s fun r t =>
      statesOf t.db = states ∧ ∀ iface', r = .ok iface' → SameState iface iface' := by
  intro answer s₁ step
  have read := (step.statesOf_eq trivial).trans start
  cases answer with
  | error err => exact ⟨read, fun _ done => by cases done⟩
  | ok row =>
    have same : SameState iface (iface.copyCalculatedAttributes row) := ⟨rfl, rfl, rfl⟩
    intro answer s₂ step
    have saved := (step.statesOf_eq trivial).trans read
    cases answer with
    | error err => exact ⟨saved, fun _ done => by cases done⟩
    | ok _ =>
      intro answer s₃ step
      rcases step.commitInterface with ⟨err, rfl, rfl⟩ | ⟨iface', now, rfl, same', db⟩
      · exact ⟨saved, fun _ done => by cases done⟩
      · have recorded' : Recorded (iface.copyCalculatedAttributes row) (statesOf s₂.db) :=
          saved ▸ same.recorded recorded
        refine ⟨?_, fun iface'' done => ?_⟩
        · rw [db, recorded'.commitInterface, saved]
        · rw [← Except.ok.inj done]
          exact same.trans same'

/-- Saving an interface whose row is up to date leaves the states of all interfaces. -/
theorem always_saveInterface {states : States} (recorded : Recorded iface states) {s : Site}
    (start : statesOf s.db = states) :
    (m.saveInterface ui iface).Always AnyStep s fun result t =>
      statesOf t.db = states ∧ SameState iface result.2 := by
  rw [Manager.saveInterface]
  cases valid : iface.validate with
  | error err => exact ⟨start, rfl, rfl, rfl⟩
  | ok iface₁ =>
    have same := validate_sameState valid
    have history := (uses_getInterfaceStateHistory iface₁).mono fun _ => Silent.keepsRows
    refine (always_kept history s).bind fun enabled s₁ kept₁ => ?_
    have before : (Manager.handleInterfacePreSaveHooks iface₁ enabled.1 enabled.2).Uses Idle :=
      uses_handleInterfaceHooks ..
    refine (always_kept (before.mono fun _ => Idle.keepsRows) s₁).bind fun hooks s₂ kept₂ => ?_
    have kept₂ := (kept₂.trans kept₁).trans start
    cases hooks with
    | error err => exact ⟨kept₂, same⟩
    | ok _ =>
      have actions := (uses_handleInterfacePreSaveActions iface₁).mono fun _ => Silent.keepsRows
      refine (always_kept actions s₂).bind fun acted s₃ kept₃ => ?_
      have kept₃ := kept₃.trans kept₂
      cases acted with
      | error err => exact ⟨kept₃, same⟩
      | ok _ =>
        refine (always_saveInterfaceRow (same.recorded recorded) kept₃).bind
          fun row s₄ ⟨kept₄, saved⟩ => ?_
        cases row with
        | error err => exact ⟨kept₄, same⟩
        | ok iface₂ =>
          refine (always_kept (uses_finishSave m iface₂ enabled.1 enabled.2) s₄).bind
            fun r s₅ kept₅ => ?_
          exact ⟨kept₅.trans kept₄, same.trans (saved iface₂ rfl)⟩

theorem always_saveWithRetries {states : States} (retries : ℕ) {iface : Interface}
    (recorded : Recorded iface states) {s : Site} (start : statesOf s.db = states) :
    (m.saveWithRetries ui retries iface).Always AnyStep s fun _ t => statesOf t.db = states := by
  induction retries generalizing iface s with
  | zero => exact (always_saveInterface recorded start).mono fun _ _ saved => saved.1
  | succ retries ih =>
    refine (always_saveInterface recorded start).bind fun result t ⟨kept, same⟩ => ?_
    obtain ⟨outcome, iface'⟩ := result
    cases outcome with
    | ok _ => exact kept
    | error err => exact ih (same.recorded recorded) kept

section Attempts

variable (m) (ui) (circumstances : ℕ → SiteCircumstance)

theorem eval_any {α : Type} {prog : InterfaceProgram α} {s : ℕ × Site} {post : α → Site → Prop}
    (always : prog.Always AnyStep s.2 post) :
    post (prog.eval (siteTurn circumstances) s).1 (prog.eval (siteTurn circumstances) s).2.2 := by
  have steps : ∀ (op : InterfaceOp) (t : ℕ × Site), AnyStep op t.2 (siteTurn circumstances op t).1
      (siteTurn circumstances op t).2.2 := fun op t => ⟨circumstances t.1, rfl⟩
  exact Program.Always.eval steps always

/-- Which of the operations can fail that an attempt to save an enabled interface
issues, up to the commit of its row: reading the old state, the pre-up hook, the
DNS settings, reading the row, the controller and the commit. -/
def writeSteps (iface : Interface) : List Bool :=
  [false, iface.preUp ≠ "", iface.dnsStr ≠ "" ∨ iface.dnsSearchStr ≠ "", true, true, true]

/-- The number of the operation after the first one that fails, from the `n`th on. -/
def failsAt (circumstances : ℕ → SiteCircumstance) : ℕ → List Bool → Option ℕ
  | _, [] => none
  | n, fallible :: steps =>
    if fallible ∧ (circumstances n).fault.isSome then some (n + 1)
    else failsAt circumstances (n + 1) steps

theorem eval_getInterfaceStateHistory {iface : Interface} {site : Site} {since : Time}
    {why : String} (marked : statesOf site.db iface.identifier = some (some since, why)) (n : ℕ) :
    (Manager.getInterfaceStateHistory iface).eval (siteTurn circumstances) (n, site) =
      ((false, !iface.isDisabled), (n + 1, site)) := by
  obtain ⟨row, found, state⟩ := Option.map_eq_some_iff.mp marked
  have disabled : row.isDisabled = true := by
    rw [Interface.isDisabled, (Prod.mk.inj state).1]
    rfl
  cases fault : (circumstances n).fault with
  | some err =>
    simp only [Manager.getInterfaceStateHistory, issue, Program.perform_bind, Program.eval_call,
      siteTurn, InterfaceOp.exec, ManagerOp.execSite, RepoOp.exec, fault]
    rfl
  | none =>
    simp only [Manager.getInterfaceStateHistory, issue, Program.perform_bind, Program.eval_call,
      siteTurn, InterfaceOp.exec, ManagerOp.execSite, RepoOp.exec, fault, RepoOp.answer,
      Db.getInterface, found, RepoOp.apply]
    simp only [Program.pure_eq, Program.eval_ret, disabled, Bool.not_true]

theorem eval_preSaveHooks (iface : Interface) (site : Site) (n : ℕ) :
    ∃ answer : Except Error Unit, (Manager.handleInterfacePreSaveHooks iface false true).eval
      (siteTurn circumstances) (n, site) = (answer, (n + 1, site)) ∧
        (answer = .ok () ↔ ¬(iface.preUp ≠ "" ∧ (circumstances n).fault.isSome)) := by
  simp only [Manager.handleInterfacePreSaveHooks, Manager.handleInterfaceHooks, issue,
    Bool.false_eq_true, if_false, if_true, Program.perform_bind, Program.eval_call, siteTurn,
    InterfaceOp.exec, attempted]
  by_cases empty : iface.preUp = ""
  · exact ⟨.ok (), by simp [empty], by simp [empty]⟩
  · cases fault : (circumstances n).fault with
    | some err => exact ⟨_, by simp only [empty, if_false]; rfl, by simp [empty]⟩
    | none => exact ⟨.ok (), by simp only [empty, if_false]; rfl, by simp⟩

theorem eval_preSaveActions {iface : Interface} (enabled : iface.isDisabled = false) (site : Site)
    (n : ℕ) : ∃ answer : Except Error Unit, (Manager.handleInterfacePreSaveActions iface).eval
      (siteTurn circumstances) (n, site) = (answer, (n + 1, site)) ∧
        (answer = .ok () ↔ ¬((iface.dnsStr ≠ "" ∨ iface.dnsSearchStr ≠ "") ∧
          (circumstances n).fault.isSome)) := by
  simp only [Manager.handleInterfacePreSaveActions, issue, enabled, Bool.not_false, if_true,
    Program.perform_bind, Program.eval_call, siteTurn, InterfaceOp.exec, attempted]
  by_cases empty : iface.dnsStr = "" ∧ iface.dnsSearchStr = ""
  · exact ⟨.ok (), by simp [empty], by simp [empty]⟩
  · have some_ : iface.dnsStr ≠ "" ∨ iface.dnsSearchStr ≠ "" := by tauto
    cases fault : (circumstances n).fault with
    | some err => exact ⟨_, by simp only [empty, if_false]; rfl, by simp [some_]⟩
    | none => exact ⟨.ok (), by simp only [empty, if_false]; rfl, by simp⟩

/-- The interface reaches the database if none of the three operations fails. -/
theorem eval_saveInterfaceRow (iface : Interface) (site : Site) (n : ℕ) :
    match failsAt circumstances n [true, true, true] with
    | some n' => ∃ err devices, (saveInterfaceRow ui iface.identifier (m.saveToController iface)).eval
        (siteTurn circumstances) (n, site) = (.error err, (n', { site with devices := devices }))
    | none => ∃ iface' site', (saveInterfaceRow ui iface.identifier (m.saveToController iface)).eval
        (siteTurn circumstances) (n, site) = (.ok iface', (n + 3, site')) ∧ SameState iface iface' ∧
          statesOf site'.db = Function.update (statesOf site.db) iface.identifier
            (some (iface.disabled, iface.disabledReason)) := by
  simp only [saveInterfaceRow, Manager.saveToController, issue, Program.perform_bind,
    Program.eval_call, siteTurn, InterfaceOp.exec, ManagerOp.execSite, RepoOp.exec]
  cases first : (circumstances n).fault with
  | some err =>
    simp only [failsAt, first, Option.isSome_some, and_self, if_true]
    exact ⟨err, site.devices, rfl⟩
  | none =>
    simp only [RepoOp.answer, RepoOp.apply, Program.call_bind, Program.eval_call, siteTurn,
      InterfaceOp.exec]
    cases second : (circumstances (n + 1)).fault with
    | some err =>
      simp only [failsAt, first, second, Option.isSome_none, Option.isSome_some, and_self, if_true,
        Bool.false_eq_true, and_false, if_false, attempted, Program.pure_eq, Program.ret_bind,
        Program.eval_ret]
      exact ⟨_, site.devices, rfl⟩
    | none =>
      cases third : (circumstances (n + 2)).fault with
      | some err =>
        simp only [failsAt, first, second, third, Option.isSome_none, Option.isSome_some, and_self,
          if_true, Bool.false_eq_true, and_false, if_false, attempted, Site.saveInterface,
          Program.pure_eq, Program.ret_bind, Program.perform, Program.eval_call, siteTurn,
          InterfaceOp.exec]
        exact ⟨err, _, rfl⟩
      | none =>
        simp only [failsAt, first, second, third, Option.isSome_none, Bool.false_eq_true, and_false,
          if_false, attempted, Site.saveInterface,
          Program.pure_eq, Program.ret_bind, Program.perform, Program.eval_call, siteTurn,
          InterfaceOp.exec]
        exact ⟨_, _, rfl, ⟨rfl, rfl, rfl⟩, statesOf_commitInterface ..⟩

/-- An attempt to save an enabled interface that is disabled in the database. Either
one of its operations fails and the database stays, or the row is written. -/
theorem eval_saveInterface {iface iface₁ : Interface} (valid : iface.validate = .ok iface₁)
    (enabled : iface.isDisabled = false) {site : Site} {since : Time} {why : String}
    (marked : statesOf site.db iface.identifier = some (some since, why)) (n : ℕ) :
    match failsAt circumstances n (writeSteps iface₁) with
    | some n' => ∃ err devices, (m.saveInterface ui iface).eval (siteTurn circumstances) (n, site) =
        ((.error err, iface₁), (n', { site with devices := devices }))
    | none => ∃ result s', (m.saveInterface ui iface).eval (siteTurn circumstances) (n, site) =
        (result, s') ∧ SameState iface result.2 ∧
          statesOf s'.2.db = Function.update (statesOf site.db) iface.identifier
            (some (iface.disabled, iface.disabledReason)) := by
  have same := validate_sameState valid
  have enabled₁ : iface₁.isDisabled = false := by
    rw [Interface.isDisabled, same.disabled]
    exact enabled
  rw [← same.identifier] at marked
  obtain ⟨hooks, hooked, hooksOk⟩ := eval_preSaveHooks circumstances iface₁ site (n + 1)
  obtain ⟨actions, acted, actionsOk⟩ :=
    eval_preSaveActions circumstances enabled₁ site (n + 2)
  have row := eval_saveInterfaceRow m ui circumstances iface₁ site (n + 3)
  simp only [Nat.add_assoc, Nat.reduceAdd] at hooked acted row
  rw [Manager.saveInterface, valid]
  simp only [Program.eval_bind, eval_getInterfaceStateHistory circumstances marked n, enabled₁,
    Bool.not_false, hooked]
  cases hooks with
  | error err =>
    have fails : iface₁.preUp ≠ "" ∧ (circumstances (n + 1)).fault.isSome := by
      by_contra passes
      cases hooksOk.mpr passes
    have after : failsAt circumstances n (writeSteps iface₁) = some (n + 2) := by
      simp [failsAt, writeSteps, fails]
    rw [after]
    exact ⟨_, site.devices, rfl⟩
  | ok _ =>
    have passes := hooksOk.mp rfl
    simp only [Program.eval_bind, acted]
    cases actions with
    | error err =>
      have fails : (iface₁.dnsStr ≠ "" ∨ iface₁.dnsSearchStr ≠ "") ∧
          (circumstances (n + 2)).fault.isSome := by
        by_contra passes
        cases actionsOk.mpr passes
      have after : failsAt circumstances n (writeSteps iface₁) = some (n + 3) := by
        simp only [failsAt, writeSteps, Bool.false_eq_true, false_and, if_false, decide_eq_true_eq,
          passes, fails, and_self, if_true]
      rw [after]
      exact ⟨_, site.devices, rfl⟩
    | ok _ =>
      have passes' := actionsOk.mp rfl
      have rest : failsAt circumstances n (writeSteps iface₁) =
          failsAt circumstances (n + 3) [true, true, true] := by
        simp only [failsAt, writeSteps, Bool.false_eq_true, false_and, if_false, decide_eq_true_eq,
          passes, passes']
      rw [rest]
      cases outcome : failsAt circumstances (n + 3) [true, true, true] with
      | some n' =>
        rw [outcome] at row
        obtain ⟨err, devices, run⟩ := row
        simp only [Program.eval_bind, run]
        exact ⟨_, devices, rfl⟩
      | none =>
        rw [outcome] at row
        obtain ⟨iface₂, site', run, same', states⟩ := row
        simp only [Program.eval_bind, run]
        have finish := eval_any circumstances (s := (n + 6, site'))
          (always_kept (uses_finishSave m iface₂ false true) site')
        refine ⟨_, _, rfl, same.trans same', ?_⟩
        rw [← same.disabled, ← same.disabledReason, ← same.identifier, ← states]
        exact finish

/-- None of so many attempts, the first from operation `n` on, gets to writing the
row. An interface that is not valid is not even looked up. -/
def NeverWritten (circumstances : ℕ → SiteCircumstance) : ℕ → ℕ → Interface → Prop
  | 0, _, _ => True
  | attempts + 1, n, iface =>
    match iface.validate with
    | .error _ => NeverWritten circumstances attempts n iface
    | .ok iface =>
      match failsAt circumstances n (writeSteps iface) with
      | some n' => NeverWritten circumstances attempts n' iface
      | none => False

/-- One attempt, and the others if it gets to nothing. -/
theorem attempt_cases (attempts : ℕ) {iface : Interface} (enabled : iface.isDisabled = false)
    {site : Site} {since : Time} {why : String}
    (marked : statesOf site.db iface.identifier = some (some since, why)) (n : ℕ) :
    (∃ err iface' n' devices, (m.saveInterface ui iface).eval (siteTurn circumstances) (n, site) =
        ((.error err, iface'), (n', { site with devices := devices })) ∧ SameState iface iface' ∧
        (NeverWritten circumstances (attempts + 1) n iface ↔
          NeverWritten circumstances attempts n' iface')) ∨
      (∃ result s', (m.saveInterface ui iface).eval (siteTurn circumstances) (n, site) =
        (result, s') ∧ SameState iface result.2 ∧
          statesOf s'.2.db = Function.update (statesOf site.db) iface.identifier
            (some (iface.disabled, iface.disabledReason)) ∧
        ¬ NeverWritten circumstances (attempts + 1) n iface) := by
  rw [NeverWritten]
  cases valid : iface.validate with
  | error err =>
    left
    have run : (m.saveInterface ui iface).eval (siteTurn circumstances) (n, site) =
        ((.error (.wrap "interface validation failed" err), iface), (n, site)) := by
      rw [Manager.saveInterface, valid]
      rfl
    exact ⟨_, iface, n, site.devices, run, ⟨rfl, rfl, rfl⟩, Iff.rfl⟩
  | ok iface₁ =>
    have attempt := eval_saveInterface m ui circumstances valid enabled marked n
    cases outcome : failsAt circumstances n (writeSteps iface₁) with
    | some n' =>
      left
      rw [outcome] at attempt
      obtain ⟨err, devices, run⟩ := attempt
      exact ⟨err, iface₁, n', devices, run, validate_sameState valid, by simp only [outcome]⟩
    | none =>
      right
      rw [outcome] at attempt
      obtain ⟨result, s', run, same, states⟩ := attempt
      exact ⟨result, s', run, same, states, by simp only [outcome, not_false_iff]⟩

theorem eval_saveWithRetries_stuck (retries : ℕ) {iface : Interface}
    (enabled : iface.isDisabled = false) {site : Site} {since : Time} {why : String}
    (marked : statesOf site.db iface.identifier = some (some since, why)) {n : ℕ}
    (never : NeverWritten circumstances (retries + 1) n iface) :
    ∃ err iface' s', (m.saveWithRetries ui retries iface).eval (siteTurn circumstances) (n, site) =
      ((.error err, iface'), s') ∧ s'.2.db = site.db := by
  induction retries generalizing iface site n with
  | zero =>
    rcases attempt_cases m ui circumstances 0 enabled marked n with
      ⟨err, iface', n', devices, run, _⟩ | ⟨_, _, _, _, _, written⟩
    · exact ⟨err, iface', _, run, rfl⟩
    · exact absurd never written
  | succ retries ih =>
    rcases attempt_cases m ui circumstances (retries + 1) enabled marked n with
      ⟨err, iface', n', devices, run, same, still⟩ | ⟨_, _, _, _, _, written⟩
    · rw [Manager.saveWithRetries, Program.eval_bind, run]
      have enabled' : iface'.isDisabled = false := by
        rw [Interface.isDisabled, same.disabled]
        exact enabled
      have marked' : statesOf { site with devices := devices : Site }.db iface'.identifier =
          some (some since, why) := by
        rw [same.identifier]
        exact marked
      exact ih enabled' marked' (still.mp never)
    · exact absurd never written

/-- Once the row is written, it stays as written. -/
theorem eval_saveWithRetries_written (retries : ℕ) {iface : Interface}
    (enabled : iface.isDisabled = false) {site : Site} {since : Time} {why : String}
    (marked : statesOf site.db iface.identifier = some (some since, why)) {n : ℕ}
    (written : ¬ NeverWritten circumstances (retries + 1) n iface) :
    statesOf ((m.saveWithRetries ui retries iface).eval (siteTurn circumstances) (n, site)).2.2.db =
      Function.update (statesOf site.db) iface.identifier
        (some (iface.disabled, iface.disabledReason)) := by
  induction retries generalizing iface site n with
  | zero =>
    rcases attempt_cases m ui circumstances 0 enabled marked n with
      ⟨_, _, _, _, _, _, still⟩ | ⟨result, s', run, _, states, _⟩
    · exact absurd (still.mpr trivial) written
    · rw [Manager.saveWithRetries, run]
      exact states
  | succ retries ih =>
    rcases attempt_cases m ui circumstances (retries + 1) enabled marked n with
      ⟨err, iface', n', devices, run, same, still⟩ | ⟨result, s', run, same, states, _⟩
    · rw [Manager.saveWithRetries, Program.eval_bind, run]
      have enabled' : iface'.isDisabled = false := by
        rw [Interface.isDisabled, same.disabled]
        exact enabled
      have marked' : statesOf { site with devices := devices : Site }.db iface'.identifier =
          some (some since, why) := by
        rw [same.identifier]
        exact marked
      have rest := ih enabled' marked' fun never => written (still.mpr never)
      rw [same.identifier, same.disabled, same.disabledReason] at rest
      exact rest
    · rw [Manager.saveWithRetries, Program.eval_bind, run]
      obtain ⟨outcome, iface'⟩ := result
      cases outcome with
      | ok _ => exact states
      | error err =>
        have recorded : Recorded iface' (statesOf s'.2.db) := by
          refine same.recorded ?_
          rw [Recorded, states, Function.update_self]
        rw [← states]
        exact eval_any circumstances (always_saveWithRetries retries recorded rfl)

/-- The interface is marked as missing unless reading or writing its row fails. -/
theorem eval_mark (id : InterfaceIdentifier) (site : Site) (n : ℕ) :
    ((circumstances n).fault = none → (circumstances (n + 2)).fault = none →
      ∃ iface site' since, (saveInterfaceRow ui id Manager.disableMissing).eval
        (siteTurn circumstances) (n, site) = (.ok iface, (n + 3, site')) ∧
          statesOf site'.db = Function.update (statesOf site.db) id
            (some (some since, disabledReasonInterfaceMissing))) ∧
      (¬((circumstances n).fault = none ∧ (circumstances (n + 2)).fault = none) →
        statesOf ((saveInterfaceRow ui id Manager.disableMissing).eval
          (siteTurn circumstances) (n, site)).2.2.db = statesOf site.db) := by
  simp only [saveInterfaceRow, Manager.disableMissing, issue, Program.perform_bind,
    Program.eval_call, siteTurn, InterfaceOp.exec, ManagerOp.execSite, RepoOp.exec]
  cases first : (circumstances n).fault with
  | some err => exact ⟨fun none => (by cases none), fun _ => rfl⟩
  | none =>
    simp only [RepoOp.answer, RepoOp.apply, Program.call_bind, Program.eval_call, siteTurn,
      InterfaceOp.exec, ManagerOp.execSite, Program.pure_eq, Program.ret_bind, Program.perform]
    have key := site.db.getOrCreateInterface_identifier ui.id (circumstances n).now id
    cases second : (circumstances (n + 1 + 1)).fault with
    | some err => exact ⟨fun _ none => (by cases none), fun _ => rfl⟩
    | none =>
      have states := statesOf_commitInterface site.db ui.id (circumstances (n + 2)).now
        { site.db.getOrCreateInterface ui.id (circumstances n).now id with
          disabled := some (circumstances (n + 1)).now
          disabledReason := disabledReasonInterfaceMissing }
      rw [key] at states
      exact ⟨fun _ _ => ⟨_, _, (circumstances (n + 1)).now, rfl, states⟩,
        fun fails => absurd ⟨trivial, rfl⟩ fails⟩

/-- The interface of the call that creates a missing device. -/
def original (iface : Interface) : Interface :=
  { iface with saveConfig := m.cfg.advanced.configStoragePath ≠ "" }

/-- What follows the attempts to create a missing device. -/
theorem eval_restoreMissing_eq (iface : Interface) (site : Site) (n : ℕ) :
    let mark := (saveInterfaceRow ui iface.identifier Manager.disableMissing).eval
      (siteTurn circumstances) (n, site)
    let created := (m.saveWithRetries ui Manager.maxRestoreRetries (original m iface)).eval
      (siteTurn circumstances) mark.2
    let run := (m.restoreMissing ui false iface).eval (siteTurn circumstances) (n, site)
    statesOf run.2.2.db = statesOf created.2.2.db ∧
      ((∃ err, created.1.1 = .error err) → ∃ err, run.1 = .error err) := by
  intro mark created run
  rw [show run = (m.restoreMissing ui false iface).eval (siteTurn circumstances) (n, site) from rfl,
    Manager.restoreMissing, Program.eval_bind, Program.eval_bind]
  rcases outcome : created with ⟨⟨result, iface'⟩, s'⟩
  have after : (m.saveWithRetries ui Manager.maxRestoreRetries (original m iface)).eval
    (siteTurn circumstances) mark.2 = ((result, iface'), s') := outcome
  simp only [original, mark] at after
  simp only [after]
  cases result with
  | error err => exact ⟨rfl, fun _ => ⟨_, rfl⟩⟩
  | ok _ =>
    simp only
    split
    all_goals
      refine ⟨rfl, ?_⟩
      rintro ⟨_, failed⟩
      cases failed

/-- Every attempt to create the device fails before the row is written, which has
been changed to say that the interface is missing. -/
def GivenUp (n : ℕ) (iface : Interface) : Prop :=
  (circumstances n).fault = none ∧ (circumstances (n + 2)).fault = none ∧
    NeverWritten circumstances (Manager.maxRestoreRetries + 1) (n + 3) (original m iface)

theorem eval_restoreMissing {iface : Interface} {site : Site}
    (recorded : Recorded iface (statesOf site.db)) (enabled : iface.isDisabled = false) (n : ℕ) :
    let run := (m.restoreMissing ui false iface).eval (siteTurn circumstances) (n, site)
    (GivenUp m circumstances n iface →
      (∃ err, run.1 = .error err) ∧ statesOf run.2.2.db ≠ statesOf site.db) ∧
    (¬ GivenUp m circumstances n iface → statesOf run.2.2.db = statesOf site.db) := by
  intro run
  obtain ⟨states, fails⟩ := eval_restoreMissing_eq m ui circumstances iface site n
  obtain ⟨marks, unmarked⟩ := eval_mark ui circumstances iface.identifier site n
  have undisabled : iface.disabled = none := by simpa [Interface.isDisabled] using enabled
  have recorded' : Recorded (original m iface) (statesOf site.db) := recorded
  have enabled' : (original m iface).isDisabled = false := enabled
  by_cases mark : (circumstances n).fault = none ∧ (circumstances (n + 2)).fault = none
  · obtain ⟨row, site', since, runMark, marked⟩ := marks mark.1 mark.2
    rw [runMark] at states fails
    have here : statesOf site'.db (original m iface).identifier =
        some (some since, disabledReasonInterfaceMissing) := by
      rw [marked]
      exact Function.update_self ..
    constructor
    · rintro ⟨_, _, never⟩
      obtain ⟨err, iface', s', stuck, db⟩ :=
        eval_saveWithRetries_stuck m ui circumstances Manager.maxRestoreRetries enabled' here never
      rw [stuck] at states fails
      refine ⟨fails ⟨err, rfl⟩, fun same => ?_⟩
      have back : statesOf site'.db = statesOf site.db := by
        rw [← db, ← same]
        exact states.symm
      rw [back, recorded', Option.some.injEq, Prod.mk.injEq] at here
      have missing : iface.disabled = some since := here.1
      rw [undisabled] at missing
      cases missing
    · intro escapes
      have written := eval_saveWithRetries_written m ui circumstances Manager.maxRestoreRetries
        enabled' here fun never => escapes ⟨mark.1, mark.2, never⟩
      refine states.trans (written.trans ?_)
      rw [marked]
      refine (Function.update_idem ..).trans ?_
      rw [← recorded']
      exact Function.update_eq_self ..
  · constructor
    · exact fun given => absurd ⟨given.1, given.2.1⟩ mark
    · intro _
      have same := unmarked mark
      refine states.trans ?_
      rw [← same] at recorded' ⊢
      exact eval_any circumstances (always_saveWithRetries _ recorded' rfl)

theorem eval_restoreExisting {iface : Interface} {site : Site}
    (recorded : Recorded iface (statesOf site.db)) (n : ℕ) :
    statesOf ((m.restoreExisting ui false iface).eval (siteTurn circumstances) (n, site)).2.2.db =
      statesOf site.db := by
  have kept : (m.restoreExisting ui false iface).Always AnyStep site fun _ t =>
      statesOf t.db = statesOf site.db := by
    refine (always_saveWithRetries _ recorded rfl).bind fun result t kept => ?_
    obtain ⟨outcome, iface'⟩ := result
    cases outcome <;> exact kept
  exact eval_any circumstances (s := (n, site)) kept

/-- An enabled interface whose device is not found, and that is given up. -/
def Stranded (s : ℕ × Site) (iface : Interface) : Prop :=
  iface.isDisabled = false ∧ (circumstances s.1).fault = none ∧
    ((circumstances (s.1 + 1)).fault ≠ none ∨
      s.2.devices (m.getController iface) iface.identifier = none) ∧
    GivenUp m circumstances (s.1 + 2) iface

theorem uses_restoreDevicePeers (iface : Interface) (peers : List Peer) :
    (m.restoreDevicePeers iface peers).Uses KeepsRows := by
  refine (uses_restorePeers m iface peers).bind fun restored => ?_
  cases restored with
  | error err => trivial
  | ok _ => exact ⟨trivial, fun answer => uses_removeForeignPeers m iface peers _⟩

/-- The peers follow, which writes no row of an interface. -/
theorem eval_restoreInterface_eq (iface : Interface) (site : Site) {n : ℕ}
    (loaded : (circumstances n).fault = none) :
    let missing := !iface.isDisabled && ((circumstances (n + 1)).fault.isSome ||
      (site.devices (m.getController iface) iface.identifier).isNone)
    let stored := (m.restoreStored ui false missing iface).eval (siteTurn circumstances) (n + 2, site)
    let run := (m.restoreInterface ui false iface).eval (siteTurn circumstances) (n, site)
    statesOf run.2.2.db = statesOf stored.2.2.db ∧
      ((∃ err, stored.1 = .error err) → ∃ err, run.1 = .error err) := by
  intro missing stored run
  have found : Manager.isMissing iface (siteTurn circumstances (.getInterface
      (m.getController iface) iface.identifier) (n + 1, site)).1 = missing := by
    simp only [siteTurn, InterfaceOp.exec, missing]
    cases (circumstances (n + 1)).fault with
    | some err => simp [attempted, Manager.isMissing]
    | none =>
      cases site.devices (m.getController iface) iface.identifier <;>
        simp [attempted, Manager.isMissing]
  have load : siteTurn circumstances (.manager (.repo (.getInterfacePeers iface.identifier)))
      (n, site) = (.ok (site.db.getInterfacePeers iface.identifier), (n + 1, site)) := by
    simp only [siteTurn, InterfaceOp.exec, ManagerOp.execSite, RepoOp.exec, loaded]
    rfl
  have look : (siteTurn circumstances (.getInterface (m.getController iface) iface.identifier)
      (n + 1, site)).2 = (n + 2, site) := by
    simp only [siteTurn, InterfaceOp.exec]
    cases (circumstances (n + 1)).fault <;> rfl
  rcases outcome : stored with ⟨result, s'⟩
  have after : (m.restoreStored ui false missing iface).eval (siteTurn circumstances)
      (n + 2, site) = (result, s') := outcome
  simp only [run, Manager.restoreInterface, issue, Program.perform_bind, Program.eval_call, load,
    look, found, Program.eval_bind, after]
  cases result with
  | error err => exact ⟨rfl, fun _ => ⟨err, rfl⟩⟩
  | ok iface' =>
    refine ⟨eval_any circumstances (always_kept (uses_restoreDevicePeers m iface' _) s'.2), ?_⟩
    rintro ⟨err, failed⟩
    cases failed

theorem eval_restoreInterface {iface : Interface} {s : ℕ × Site}
    (recorded : Recorded iface (statesOf s.2.db)) :
    let run := (m.restoreInterface ui false iface).eval (siteTurn circumstances) s
    (Stranded m circumstances s iface →
      (∃ err, run.1 = .error err) ∧ statesOf run.2.2.db ≠ statesOf s.2.db) ∧
    (¬ Stranded m circumstances s iface → statesOf run.2.2.db = statesOf s.2.db) := by
  intro run
  obtain ⟨n, site⟩ := s
  cases first : (circumstances n).fault with
  | some err =>
    have stays : run.2.2.db = site.db := by
      simp only [run, Manager.restoreInterface, issue, Program.perform_bind, Program.eval_call,
        siteTurn, InterfaceOp.exec, ManagerOp.execSite, RepoOp.exec, first]
      rfl
    refine ⟨fun stranded => ?_, fun _ => by rw [stays]⟩
    have loaded : (circumstances n).fault = none := stranded.2.1
    rw [first] at loaded
    cases loaded
  | none =>
    have after := eval_restoreInterface_eq m ui circumstances iface site first
    by_cases missing : iface.isDisabled = false ∧ ((circumstances (n + 1)).fault ≠ none ∨
        site.devices (m.getController iface) iface.identifier = none)
    · have enabled := missing.1
      have here : (!iface.isDisabled && ((circumstances (n + 1)).fault.isSome ||
          (site.devices (m.getController iface) iface.identifier).isNone)) = true := by
        simpa [Option.isSome_iff_ne_none] using missing
      simp only [here] at after
      obtain ⟨given, escapes⟩ := eval_restoreMissing m ui circumstances recorded enabled (n + 2)
      refine ⟨fun stranded => ?_, fun unstranded => ?_⟩
      · obtain ⟨failed, changed⟩ := given stranded.2.2.2
        exact ⟨after.2 failed, after.1 ▸ changed⟩
      · exact after.1.trans (escapes fun up => unstranded ⟨enabled, first, missing.2, up⟩)
    · have here : (!iface.isDisabled && ((circumstances (n + 1)).fault.isSome ||
          (site.devices (m.getController iface) iface.identifier).isNone)) = false := by
        rw [Bool.eq_false_iff]
        simpa [Option.isSome_iff_ne_none] using missing
      simp only [here] at after
      refine ⟨fun stranded => absurd ⟨stranded.1, stranded.2.2.1⟩ missing, fun _ => ?_⟩
      exact after.1.trans (eval_restoreExisting m ui circumstances recorded (n + 2))

/-- The loop over the interfaces: if it fails, the states are as before unless it got
to an interface that is stranded. -/
theorem eval_restoreInterfaces_iff {ifaces : List Interface} {s : ℕ × Site}
    (recorded : ∀ iface ∈ ifaces, Recorded iface (statesOf s.2.db)) :
    let run := (m.restoreInterfaces ui false ifaces).eval (siteTurn circumstances) s
    ((∃ err, run.1 = .error err) → statesOf run.2.2.db = statesOf s.2.db) ↔
      ∀ before iface after s', ifaces = before ++ iface :: after →
        (m.restoreInterfaces ui false before).eval (siteTurn circumstances) s = (.ok (), s') →
          ¬ Stranded m circumstances s' iface := by
  induction ifaces generalizing s with
  | nil =>
    refine ⟨fun _ before iface after s' split => ?_, fun _ failed => ?_⟩
    · simp at split
    · obtain ⟨err, failed⟩ := failed
      cases failed
  | cons first rest ih =>
    obtain ⟨strands, passes⟩ :=
      eval_restoreInterface m ui circumstances (recorded first List.mem_cons_self)
    intro run
    by_cases stranded : Stranded m circumstances s first
    · obtain ⟨⟨err, failed⟩, changed⟩ := strands stranded
      have now : run = (.error err, ((m.restoreInterface ui false first).eval
          (siteTurn circumstances) s).2) := by
        simp only [run, Manager.restoreInterfaces, Program.eval_bind, failed]
        rfl
      refine ⟨fun kept => absurd (kept ⟨err, by rw [now]⟩) (by rw [now]; exact changed), ?_⟩
      intro clear
      exact absurd stranded (clear [] first rest s rfl rfl)
    · have states := passes stranded
      rcases outcome : (m.restoreInterface ui false first).eval (siteTurn circumstances) s with
        ⟨result, s₁⟩
      rw [outcome] at states
      cases result with
      | error err =>
        have now : run = (.error err, s₁) := by
          simp only [run, Manager.restoreInterfaces, Program.eval_bind, outcome]
          rfl
        rw [now]
        refine ⟨fun _ before iface after s' split reached => ?_, fun _ _ => states⟩
        cases before with
        | nil =>
          rw [List.nil_append, List.cons.injEq] at split
          rw [← split.1, ← (Prod.mk.inj reached).2]
          exact stranded
        | cons other before =>
          rw [List.cons_append, List.cons.injEq] at split
          rw [← split.1, Manager.restoreInterfaces, Program.eval_bind, outcome] at reached
          cases reached
      | ok _ =>
        have now : run = (m.restoreInterfaces ui false rest).eval (siteTurn circumstances) s₁ := by
          simp only [run, Manager.restoreInterfaces, Program.eval_bind, outcome]
        have recorded₁ : ∀ iface ∈ rest, Recorded iface (statesOf s₁.2.db) := by
          intro iface mem
          rw [states]
          exact recorded iface (List.mem_cons_of_mem first mem)
        rw [now, ← states]
        refine (ih recorded₁).trans ⟨fun clear before iface after s' split reached => ?_,
          fun clear before iface after s' split reached => ?_⟩
        · cases before with
          | nil =>
            rw [List.nil_append, List.cons.injEq] at split
            rw [← split.1, ← (Prod.mk.inj reached).2]
            exact stranded
          | cons other before =>
            rw [List.cons_append, List.cons.injEq] at split
            rw [← split.1, Manager.restoreInterfaces, Program.eval_bind, outcome] at reached
            exact clear before iface after s' split.2 reached
        · refine clear (first :: before) iface after s' (by rw [split, List.cons_append]) ?_
          rw [Manager.restoreInterfaces, Program.eval_bind, outcome]
          exact reached

/-- The call gets to an interface, in this state. -/
def Reaches (filter : List InterfaceIdentifier) (site : Site) (iface : Interface)
    (s : ℕ × Site) : Prop :=
  ui.isAdmin = true ∧ (circumstances 0).fault = none ∧ ∃ before after,
    Manager.selected filter site.db.getAllInterfaces = before ++ iface :: after ∧
      (m.restoreInterfaces ui false before).eval (siteTurn circumstances) (1, site) = (.ok (), s)

/-- If the call fails, the states of the interfaces are as before, exactly if it gets
to no interface that is stranded. -/
theorem restore_unchanged_iff (filter : List InterfaceIdentifier) (site : Site) :
    ((∃ err, (restore m ui false filter circumstances site).1 = .error err) →
      statesOf (restore m ui false filter circumstances site).2.db = statesOf site.db) ↔
    ∀ iface s, Reaches m ui circumstances filter site iface s →
      ¬ Stranded m circumstances s iface := by
  by_cases admin : ui.isAdmin = true
  · have valid : validateAdminAccessRights ui = .ok () := by rw [validateAdminAccessRights, if_pos admin]
    cases loaded : (circumstances 0).fault with
    | some err =>
      have stays : (restore m ui false filter circumstances site).2.db = site.db := by
        simp only [restore, Manager.restoreInterfaceState, valid, issue, Program.perform_bind,
          Program.eval_call, siteTurn, InterfaceOp.exec, ManagerOp.execSite, RepoOp.exec, loaded]
        rfl
      refine ⟨fun _ iface s reaches => ?_, fun _ _ => by rw [stays]⟩
      rw [Reaches, loaded] at reaches
      cases reaches.2.1
    | none =>
      have recorded : ∀ iface ∈ Manager.selected filter site.db.getAllInterfaces,
          Recorded iface (statesOf site.db) := by
        intro iface mem
        have found := Table.find_of_mem (List.mem_filter.mp mem).1
        rw [Recorded, statesOf, found]
        rfl
      have run : restore m ui false filter circumstances site =
          (((m.restoreInterfaces ui false (Manager.selected filter site.db.getAllInterfaces)).eval
              (siteTurn circumstances) (1, site)).1,
            ((m.restoreInterfaces ui false (Manager.selected filter site.db.getAllInterfaces)).eval
              (siteTurn circumstances) (1, site)).2.2) := by
        simp only [restore, Manager.restoreInterfaceState, valid, issue, Program.perform_bind,
          Program.eval_call, siteTurn, InterfaceOp.exec, ManagerOp.execSite, RepoOp.exec, loaded]
        rfl
      rw [run]
      have loop := eval_restoreInterfaces_iff m ui circumstances (s := (1, site)) recorded
      refine loop.trans ⟨fun clear iface s reaches => ?_, fun clear before iface after s split ok => ?_⟩
      · obtain ⟨_, _, before, after, split, ok⟩ := reaches
        exact clear before iface after s split ok
      · exact clear iface s ⟨admin, loaded, before, after, split, ok⟩
  · have denied : validateAdminAccessRights ui = .error .noPermission := by
      rw [validateAdminAccessRights, if_neg admin]
    have stays : (restore m ui false filter circumstances site).2 = site := by
      simp only [restore, Manager.restoreInterfaceState, denied]
      rfl
    exact ⟨fun _ iface s reaches => absurd reaches.1 admin, fun _ _ => by rw [stays]⟩

end Attempts

/-- One enabled interface without a device. -/
def enabledSite : Site where
  db :=
    { Db.empty with
      interfaces := ⟨[{ Interface.zero with identifier := "wg0" }], List.nodup_singleton _⟩ }
  devices := fun _ _ => none
  events := []

/-- The controller fails in all of the attempts, which issue five operations each. -/
def noDevices : ℕ → SiteCircumstance := fun n =>
  { calmSite with fault := if 10 ≤ n ∧ n % 5 = 0 then some (.other "link add failed") else none }

def strandedRun : Except Error Unit × Site :=
  restore singleNode systemAdminContextUserInfo false [] noDevices enabledSite

/-- The call fails and leaves the interface disabled. -/
theorem stranded_changed :
    (∃ err, strandedRun.1 = .error err) ∧ statesOf strandedRun.2.db ≠ statesOf enabledSite.db := by
  constructor
  · have failed : strandedRun.1.isOk = false := by decide +kernel
    cases result : strandedRun.1 with
    | error err => exact ⟨err, rfl⟩
    | ok _ =>
      rw [result] at failed
      cases failed
  · intro same
    have here : statesOf strandedRun.2.db "wg0" ≠ statesOf enabledSite.db "wg0" := by
      decide +kernel
    exact here (congrFun same "wg0")

end WgPortal.WireGuard.RestoreRows
