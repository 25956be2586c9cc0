import WgPortal.WireGuard.Interfaces
import WgPortal.WireGuard.RestoreRows

/-! Which hooks are called while interfaces are created, updated and deleted. -/

namespace WgPortal.WireGuard.InterfaceHooks

open Domain Library Adapters App Config RestoreSteps RestoreRows
open LifecycleProgram (lift)

/-- The interface is stored and not disabled. -/
def enabled (s : HookedSite) (id : InterfaceIdentifier) : Bool :=
  (s.site.db.interfaces.find id).any fun row => !row.isDisabled

/-- The hooks for an interface that was, or was not, enabled and now is, or is not. -/
def hooksFor (was is : Bool) : List Hook :=
  if was = is then [] else if is then [.preUp, .postUp] else [.preDown, .postDown]

def calledFor (id : InterfaceIdentifier) (runs : List HookRun) : List Hook :=
  (runs.filter (·.id = id)).map HookRun.hook

/-- The hooks that were called are those for what became of each interface. -/
def HooksMatch (s t : HookedSite) : Prop :=
  ∃ runs, t.hooks = s.hooks ++ runs ∧ ∀ id, calledFor id runs = hooksFor (enabled s id) (enabled t id)

/-- The calls for an interface whose state is known. -/
def hookRuns (iface : Interface) (was is : Bool) : List HookRun :=
  if was = is then []
  else if is then
    [⟨iface.identifier, .preUp, iface.preUp⟩, ⟨iface.identifier, .postUp, iface.postUp⟩]
  else [⟨iface.identifier, .preDown, iface.preDown⟩, ⟨iface.identifier, .postDown, iface.postDown⟩]

theorem calledFor_hookRuns (iface : Interface) (was is : Bool) :
    calledFor iface.identifier (hookRuns iface was is) = hooksFor was is := by
  cases was <;> cases is <;> simp [hookRuns, hooksFor, calledFor]

theorem calledFor_hookRuns_of_ne {iface : Interface} {id : InterfaceIdentifier}
    (ne : id ≠ iface.identifier) (was is : Bool) : calledFor id (hookRuns iface was is) = [] := by
  cases was <;> cases is <;> simp [hookRuns, calledFor, ne.symm]

theorem hooksFor_inj {was was' : Bool} (is : Bool) (same : hooksFor was is = hooksFor was' is) :
    was = was' := by
  revert same
  cases was <;> cases was' <;> cases is <;> decide

/-- An operation under any circumstances, with the hook that it calls. -/
def HookStep (op : InterfaceOp) (s : HookedSite) (answer : op.Res) (t : HookedSite) : Prop :=
  AnyStep op s.site answer t.site ∧ t.hooks = s.hooks ++ op.hooks

def LifecycleStep (op : LifecycleOp) (s : HookedSite) (answer : op.Res) (t : HookedSite) : Prop :=
  ∃ c : SiteCircumstance, op.exec c s = (answer, t)

/-- No hook was called and the rows of all interfaces are what they were. -/
structure Unchanged (s t : HookedSite) : Prop where
  hooks : t.hooks = s.hooks
  interfaces : t.site.db.interfaces = s.site.db.interfaces

theorem Unchanged.refl (s : HookedSite) : Unchanged s s := ⟨rfl, rfl⟩

theorem Unchanged.trans {s t u : HookedSite} (first : Unchanged s t) (second : Unchanged t u) :
    Unchanged s u :=
  ⟨second.hooks.trans first.hooks, second.interfaces.trans first.interfaces⟩

theorem hooks_of_unhooked {op : InterfaceOp} (keeps : KeepsRowsUnhooked op) : op.hooks = [] := by
  cases op with
  | executeInterfaceHook => cases keeps
  | _ => rfl

theorem HookStep.unchanged {op : InterfaceOp} {s t : HookedSite} {answer : op.Res}
    (step : HookStep op s answer t) (keeps : KeepsRowsUnhooked op) : Unchanged s t := by
  refine ⟨?_, step.1.interfaces_eq keeps.keepsRows⟩
  rw [step.2, hooks_of_unhooked keeps, List.append_nil]

theorem always_unchanged {α : Type} {prog : InterfaceProgram α}
    (uses : prog.Uses KeepsRowsUnhooked) (s : HookedSite) :
    prog.Always HookStep s fun _ t => Unchanged s t :=
  uses.always (fun _ _ _ _ keeps same step => same.trans (step.unchanged keeps)) (Unchanged.refl s)

theorem always_lift {α : Type} {prog : InterfaceProgram α} {s : HookedSite}
    {post : α → HookedSite → Prop} (always : prog.Always HookStep s post) :
    (lift prog).Always LifecycleStep s post := by
  induction prog generalizing s with
  | ret a => exact always
  | call op next ih =>
    rintro answer t ⟨c, run⟩
    obtain ⟨rfl, rfl⟩ := Prod.mk.inj run
    exact ih _ (always _ _ ⟨⟨c, rfl⟩, rfl⟩)

/-- A hook is called if the state changes. -/
theorem always_handleInterfaceHooks (id : InterfaceIdentifier) (up down : String)
    (upHook downHook : Hook) (was is : Bool) (s : HookedSite) :
    (Manager.handleInterfaceHooks id up down upHook downHook was is).Always HookStep s
      fun _ t => t.site.db.interfaces = s.site.db.interfaces ∧
        t.hooks = s.hooks ++ if was = is then [] else
          if is then [⟨id, upHook, up⟩] else [⟨id, downHook, down⟩] := by
  unfold Manager.handleInterfaceHooks
  split
  · exact ⟨rfl, (List.append_nil _).symm⟩
  · split
    · intro answer t step
      have called : t.site.db.interfaces = s.site.db.interfaces ∧
          t.hooks = s.hooks ++ [⟨id, upHook, up⟩] := ⟨step.1.interfaces_eq trivial, step.2⟩
      cases answer <;> exact called
    · intro answer t step
      have called : t.site.db.interfaces = s.site.db.interfaces ∧
          t.hooks = s.hooks ++ [⟨id, downHook, down⟩] := ⟨step.1.interfaces_eq trivial, step.2⟩
      cases answer <;> exact called

variable {m : Manager} {ui : ContextUserInfo}

/-- The rows after an interface was written; only the record of its changes is not known. -/
def Written (iface : Interface) (before after : Table Interface.identifier) : Prop :=
  ∃ base, after = before.upsert { iface with base := base, addresses := iface.addresses.dedup }

theorem always_saveInterfaceRow (iface : Interface) (s : HookedSite) :
    (saveInterfaceRow ui iface.identifier (m.saveToController iface)).Always HookStep s fun r t =>
      ∀ iface', r = .ok iface' → (∃ base, iface' = { iface with base := base }) ∧
        t.hooks = s.hooks ∧ Written iface s.site.db.interfaces t.site.db.interfaces := by
  intro answer s₁ step₁
  have read := step₁.unchanged trivial
  cases answer with
  | error err => exact fun _ done => by cases done
  | ok row =>
    intro answer s₂ step₂
    have saved := read.trans (step₂.unchanged trivial)
    cases answer with
    | error err => exact fun _ done => by cases done
    | ok _ =>
      rintro answer s₃ ⟨⟨c, run⟩, hooks⟩
      rcases attempted_cases run with ⟨err, rfl, -⟩ | ⟨rfl, site⟩
      · exact fun _ done => by cases done
      · intro iface' done
        refine ⟨⟨_, (Except.ok.inj done).symm⟩, ?_, ?_⟩
        · rw [hooks, saved.hooks]
          exact List.append_nil _
        · refine ⟨{ row.base with updatedBy := ui.id, updatedAt := c.now }, ?_⟩
          rw [site, ← saved.interfaces]
          rfl

/-- The rest of `saveInterface`, once it is known whether the interface was enabled. -/
def saveKnown (m : Manager) (ui : ContextUserInfo) (iface : Interface) (was is : Bool) :
    InterfaceProgram (Except Error Unit × Interface) := do
  match ← Manager.handleInterfacePreSaveHooks iface was is with
  | .error err => return (.error (.wrap "pre-save hooks failed" err), iface)
  | .ok _ =>
    match ← Manager.handleInterfacePreSaveActions iface with
    | .error err => return (.error (.wrap "pre-save actions failed" err), iface)
    | .ok _ =>
      match ← saveInterfaceRow ui iface.identifier (m.saveToController iface) with
      | .error err => return (.error (.wrap "failed to save interface" err), iface)
      | .ok iface =>
        let result ← m.finishSave iface was is
        return (result, iface)

theorem saveInterface_eq {iface iface' : Interface} (valid : iface.validate = .ok iface') :
    m.saveInterface ui iface = Manager.getInterfaceStateHistory iface' >>= fun history =>
      saveKnown m ui iface' history.1 history.2 := by
  rw [Manager.saveInterface, valid]
  rfl

/-- What a save leaves that took the interface to have been enabled, or not. -/
structure Saved (iface : Interface) (was : Bool) (s t : HookedSite) : Prop where
  hooks : t.hooks = s.hooks ++ hookRuns iface was (!iface.isDisabled)
  row : ∃ valid, iface.validate = .ok valid ∧
    Written valid s.site.db.interfaces t.site.db.interfaces

/-- The two hooks of a state change, with what happens in between. -/
theorem hookRuns_eq (iface : Interface) (was is : Bool) :
    ((if was = is then [] else if is then [HookRun.mk iface.identifier .preUp iface.preUp]
      else [HookRun.mk iface.identifier .preDown iface.preDown]) ++
    if was = is then [] else if is then [HookRun.mk iface.identifier .postUp iface.postUp]
      else [HookRun.mk iface.identifier .postDown iface.postDown]) = hookRuns iface was is := by
  cases was <;> cases is <;> rfl

theorem always_finishSave (iface : Interface) (was is : Bool) (s : HookedSite) :
    (m.finishSave iface was is).Always HookStep s fun result t => result = .ok () →
      t.site.db.interfaces = s.site.db.interfaces ∧
        t.hooks = s.hooks ++ if was = is then [] else
          if is then [HookRun.mk iface.identifier .postUp iface.postUp]
          else [HookRun.mk iface.identifier .postDown iface.postDown] := by
  have announces := (uses_announceInterface m iface).mono fun _ => Silent.unhooked
  refine (always_unchanged announces s).bind fun _ s₁ announced => ?_
  refine (always_handleInterfaceHooks _ _ _ _ _ was is s₁).bind fun hooked s₂ called => ?_
  obtain ⟨rows, hooks⟩ := called
  cases hooked with
  | error err => exact fun failed => by cases failed
  | ok _ =>
    refine (always_unchanged (uses_handleEnabled m iface was is) s₂).bind
      fun restored s₃ same => ?_
    cases restored with
    | error err => exact fun failed => by cases failed
    | ok _ =>
      intro answer s₄ step _
      have audited := same.trans (step.unchanged trivial)
      refine ⟨audited.interfaces.trans (rows.trans announced.interfaces), ?_⟩
      rw [audited.hooks, hooks, announced.hooks]

theorem always_saveKnown (iface : Interface) (was : Bool) (s : HookedSite) :
    (saveKnown m ui iface was (!iface.isDisabled)).Always HookStep s fun result t =>
      result.1 = .ok () → t.hooks = s.hooks ++ hookRuns iface was (!iface.isDisabled) ∧
        Written iface s.site.db.interfaces t.site.db.interfaces := by
  refine (always_handleInterfaceHooks _ _ _ _ _ was _ s).bind fun hooked s₁ called => ?_
  obtain ⟨rows₁, hooks₁⟩ := called
  cases hooked with
  | error err => exact fun failed => by cases failed
  | ok _ =>
    have acts := (uses_handleInterfacePreSaveActions iface).mono fun _ => Silent.unhooked
    refine (always_unchanged acts s₁).bind fun acted s₂ same => ?_
    cases acted with
    | error err => exact fun failed => by cases failed
    | ok _ =>
      refine (always_saveInterfaceRow iface s₂).bind fun row s₃ saved => ?_
      cases row with
      | error err => exact fun failed => by cases failed
      | ok iface' =>
        obtain ⟨⟨base, rfl⟩, hooks₃, base', rows₃⟩ := saved iface' rfl
        refine (always_finishSave _ was _ s₃).bind fun result s₄ finished => ?_
        intro ok
        obtain ⟨rows₄, hooks₄⟩ := finished ok
        refine ⟨?_, base', ?_⟩
        · rw [hooks₄, hooks₃, same.hooks, hooks₁, List.append_assoc]
          exact congrArg (s.hooks ++ ·) (hookRuns_eq iface was _)
        · rw [rows₄, rows₃, same.interfaces, rows₁]

/-- What `getInterfaceStateHistory` takes the interface to have been. -/
def known (c : SiteCircumstance) (s : HookedSite) (id : InterfaceIdentifier) : Bool :=
  c.fault.isNone && enabled s id

variable (circumstances : ℕ → SiteCircumstance)

theorem eval_history (iface : Interface) (n : ℕ) (s : HookedSite) :
    (lift (Manager.getInterfaceStateHistory iface)).eval (lifecycleTurn circumstances) (n, s) =
      ((known (circumstances n) s iface.identifier, !iface.isDisabled), (n + 1, s)) := by
  rw [known, enabled]
  simp only [lift, Manager.getInterfaceStateHistory, InterfaceProgram.issue, Program.perform_bind,
    Program.embed, LifecycleProgram.issue, Program.eval_call, lifecycleTurn, LifecycleOp.exec,
    InterfaceOp.exec, ManagerOp.execSite, RepoOp.exec, InterfaceOp.hooks]
  cases fault : (circumstances n).fault with
  | some err => simp [Program.embed]
  | none =>
    cases found : s.site.db.interfaces.find iface.identifier with
    | none => simp [RepoOp.answer, RepoOp.apply, Db.getInterface, found, Program.embed]
    | some row => simp [RepoOp.answer, RepoOp.apply, Db.getInterface, found, Program.embed]

theorem lifecycleSteps (op : LifecycleOp) (t : ℕ × HookedSite) :
    LifecycleStep op t.2 (lifecycleTurn circumstances op t).1
      (lifecycleTurn circumstances op t).2.2 :=
  ⟨circumstances t.1, rfl⟩

theorem eval_lifecycle {α : Type} {prog : LifecycleProgram α} {s : ℕ × HookedSite}
    {post : α → HookedSite → Prop} (always : prog.Always LifecycleStep s.2 post) :
    post (prog.eval (lifecycleTurn circumstances) s).1
      (prog.eval (lifecycleTurn circumstances) s).2.2 :=
  Program.Always.eval (lifecycleSteps circumstances) always

theorem eval_saveInterface (m : Manager) (ui : ContextUserInfo) (iface : Interface) (n : ℕ)
    (s : HookedSite)
    (saved : ((lift (m.saveInterface ui iface)).eval (lifecycleTurn circumstances) (n, s)).1.1 =
      .ok ()) :
    Saved iface (known (circumstances n) s iface.identifier) s
      ((lift (m.saveInterface ui iface)).eval (lifecycleTurn circumstances) (n, s)).2.2 := by
  cases valid : iface.validate with
  | error err =>
    rw [Manager.saveInterface, valid] at saved
    cases saved
  | ok iface' =>
    obtain ⟨endpoint, rfl⟩ := Interface.validate_eq valid
    rw [saveInterface_eq valid, lift, Program.embed_bind, Program.eval_bind] at saved ⊢
    have history := eval_history circumstances { iface with peerDefEndpoint := endpoint } n s
    rw [lift] at history
    rw [history] at saved ⊢
    have saves : (lift (saveKnown m ui { iface with peerDefEndpoint := endpoint }
        (known (circumstances n) s iface.identifier) (!iface.isDisabled))).Always LifecycleStep s
          fun result t => result.1 = .ok () →
            Saved iface (known (circumstances n) s iface.identifier) s t :=
      (always_lift (always_saveKnown { iface with peerDefEndpoint := endpoint } _ s)).mono
        fun _ _ saved ok => ⟨(saved ok).1, _, valid, (saved ok).2⟩
    exact eval_lifecycle circumstances (s := (n + 1, s)) saves saved

/-- What a program leaves alone that calls no hook and writes no state. -/
def Plain : LifecycleOp → Prop
  | .interface op => KeepsRowsUnhooked op
  | .deleteInterface .. => True
  | .deleteInterfaceRow _ => False

theorem LifecycleStep.unchanged {op : LifecycleOp} {s t : HookedSite} {answer : op.Res}
    (step : LifecycleStep op s answer t) (plain : Plain op) : Unchanged s t := by
  obtain ⟨c, run⟩ := step
  obtain ⟨rfl, rfl⟩ := Prod.mk.inj run
  cases op with
  | interface op => exact HookStep.unchanged ⟨⟨c, rfl⟩, rfl⟩ plain
  | deleteInterface backend id => exact ⟨rfl, attempted_interfaces rfl⟩
  | deleteInterfaceRow id => cases plain

theorem always_plain {α : Type} {prog : LifecycleProgram α} (uses : prog.Uses Plain)
    (s : HookedSite) : prog.Always LifecycleStep s fun _ t => Unchanged s t :=
  uses.always (fun _ _ _ _ plain same step => same.trans (step.unchanged plain)) (Unchanged.refl s)

theorem uses_getInterfaceAndPeers (id : InterfaceIdentifier) :
    (getInterfaceAndPeers id).Uses Plain := by
  refine ⟨trivial, fun answer => ?_⟩
  cases answer with
  | error err => trivial
  | ok iface =>
    refine ⟨trivial, fun answer => ?_⟩
    cases answer <;> trivial

theorem uses_deletePeers (iface : Interface) (id : InterfaceIdentifier) (peers : List Peer) :
    (m.deletePeers iface id peers).Uses Plain := by
  induction peers with
  | nil => trivial
  | cons peer peers ih =>
    refine ⟨trivial, fun answer => ?_⟩
    dsimp only [Program.bind]
    cases Manager.deletionFailure answer with
    | some err => trivial
    | none =>
      refine ⟨trivial, fun answer => ?_⟩
      cases answer with
      | error err => trivial
      | ok _ => exact ih

theorem uses_deleteInterfacePeers (id : InterfaceIdentifier) :
    (m.deleteInterfacePeers id).Uses Plain := by
  refine (uses_getInterfaceAndPeers id).bind fun found => ?_
  cases found with
  | error err => trivial
  | ok found => exact uses_deletePeers ..

theorem LifecycleStep.deleteInterfaceRow {id : InterfaceIdentifier} {s t : HookedSite}
    {answer : Except Error Unit} (step : LifecycleStep (.deleteInterfaceRow id) s answer t) :
    (∃ err, answer = .error err) ∨
      t.hooks = s.hooks ∧
        t.site.db.interfaces = s.site.db.interfaces.filter (·.identifier ≠ id) := by
  obtain ⟨c, run⟩ := step
  obtain ⟨rfl, rfl⟩ := Prod.mk.inj run
  cases c.fault with
  | some err => exact .inl ⟨err, rfl⟩
  | none =>
    exact .inr ⟨rfl, rfl⟩

/-- The interface is gone and no hook was called: it counts as disabled from the start. -/
structure Deleted (id : InterfaceIdentifier) (s t : HookedSite) : Prop where
  hooks : t.hooks = s.hooks
  interfaces : t.site.db.interfaces = s.site.db.interfaces.filter (·.identifier ≠ id)

theorem Deleted.after {id : InterfaceIdentifier} {s t u : HookedSite} (first : Unchanged s t)
    (deleted : Deleted id t u) : Deleted id s u :=
  ⟨deleted.hooks.trans first.hooks, first.interfaces ▸ deleted.interfaces⟩

theorem always_deleteEmptied {existing : Interface} (disabled : existing.isDisabled = true)
    (id : InterfaceIdentifier) (pi : Except Error PhysicalInterface) (s : HookedSite) :
    (m.deleteEmptied existing id pi).Always LifecycleStep s fun result t =>
      result = .ok () → Deleted id s t := by
  intro answer s₁ step
  have first := step.unchanged trivial
  cases answer with
  | error err => exact fun failed => by cases failed
  | ok _ =>
    intro answer s₂ step
    rcases step.deleteInterfaceRow with ⟨err, rfl⟩ | deleted
    · exact fun failed => by cases failed
    · cases answer with
      | error err => exact fun failed => by cases failed
      | ok _ =>
        intro _ s₃ step
        have routed := step.unchanged trivial
        simp only [Manager.handleInterfacePostSaveHooks, Manager.handleInterfaceHooks, disabled]
        intro _ s₄ step _
        have published := routed.trans (step.unchanged trivial)
        refine Deleted.after first
          ⟨published.hooks.trans deleted.1, published.interfaces.trans deleted.2⟩

theorem always_deleteExisting (existing : Interface) (id : InterfaceIdentifier) (s : HookedSite) :
    (m.deleteExisting existing id).Always LifecycleStep s fun result t =>
      result = .ok () → Deleted id s t := by
  intro now s₁ step
  have first := step.unchanged trivial
  intro pi s₂ step
  have read := first.trans (step.unchanged trivial)
  have acts := (uses_handleInterfacePreSaveActions { existing with
    disabled := some now, disabledReason := disabledReasonDeleted }).mono fun _ => Silent.unhooked
  refine (always_lift (always_unchanged acts s₂)).bind fun acted s₃ same => ?_
  have acted₃ := read.trans same
  cases acted with
  | error err => exact fun failed => by cases failed
  | ok _ =>
    refine (always_plain (uses_deleteInterfacePeers id) s₃).bind fun emptied s₄ same => ?_
    have emptied₄ := acted₃.trans same
    cases emptied with
    | error err => exact fun failed => by cases failed
    | ok _ =>
      exact (always_deleteEmptied rfl id pi s₄).mono fun _ _ deleted ok =>
        Deleted.after emptied₄ (deleted ok)

/-- A query leaves everything as it is. -/
theorem turn_query (op : RepoOp) (query : ∀ now db, op.apply now db = db) (n : ℕ)
    (s : HookedSite) :
    ∃ answer, lifecycleTurn circumstances (.interface (.manager (.repo op))) (n, s) =
      (answer, (n + 1, s)) := by
  have same : (⟨s.site, s.hooks ++ []⟩ : HookedSite) = s := by rw [List.append_nil]
  refine ⟨_, Prod.ext rfl (Prod.ext rfl ?_)⟩
  simp only [lifecycleTurn, LifecycleOp.exec, InterfaceOp.exec, ManagerOp.execSite, RepoOp.exec,
    InterfaceOp.hooks]
  cases (circumstances n).fault with
  | some err => exact same
  | none => simpa only [query] using same

/-- The end of a creation and of an update. -/
def announceSaved {α : Type} (context : String) (event : Interface → Event) (result : Interface → α)
    (saved : Except Error Unit × Interface) : LifecycleProgram (Except Error α) :=
  match saved.1 with
  | .error err => .ret (.error (.wrap context err))
  | .ok _ => LifecycleProgram.publish (event saved.2) >>= fun _ => .ret (.ok (result saved.2))

theorem saved_of_announced {α : Type} (context : String) (event : Interface → Event)
    (result : Interface → α) (iface : Interface) (n : ℕ) (s : HookedSite) {a : α}
    (ok : ((lift (m.saveInterface ui iface) >>= announceSaved context event result).eval
      (lifecycleTurn circumstances) (n, s)).1 = .ok a) :
    Saved iface (known (circumstances n) s iface.identifier) s
      ((lift (m.saveInterface ui iface) >>= announceSaved context event result).eval
        (lifecycleTurn circumstances) (n, s)).2.2 := by
  rw [Program.eval_bind] at ok ⊢
  have saves := eval_saveInterface circumstances m ui iface n s
  revert ok saves
  generalize (lift (m.saveInterface ui iface)).eval (lifecycleTurn circumstances) (n, s) = saved
  obtain ⟨⟨outcome, iface'⟩, n', t⟩ := saved
  cases outcome with
  | error err => exact fun ok _ => by cases ok
  | ok _ =>
    intro _ saves
    have published := LifecycleStep.unchanged
      (lifecycleSteps circumstances (.interface (.manager (.publish (event iface')))) (n', t)) trivial
    have saved := saves rfl
    exact ⟨published.hooks.trans saved.hooks, published.interfaces ▸ saved.row⟩

theorem createInterface_saved {publicKeyFromPrivateKey : String → String} {iface stored : Interface}
    {s : HookedSite}
    (ok : ((m.createInterface publicKeyFromPrivateKey ui iface).run circumstances s).1 =
      .ok stored) :
    Saved iface (known (circumstances 1) s iface.identifier) s
      ((m.createInterface publicKeyFromPrivateKey ui iface).run circumstances s).2 := by
  simp only [LifecycleProgram.run] at ok ⊢
  unfold Manager.createInterface at ok ⊢
  cases rights : validateAdminAccessRights ui with
  | error err => simp [rights] at ok
  | ok _ =>
    obtain ⟨answer, read⟩ := turn_query circumstances
      (RepoOp.getInterface iface.identifier) (fun _ _ => rfl) 0 s
    simp only [rights, LifecycleProgram.repo, LifecycleProgram.issue, Program.perform_bind,
      Program.eval_call, read] at ok ⊢
    cases answer with
    | ok row => simp at ok
    | error err =>
      simp only at ok ⊢
      split at ok
      · simp at ok
      · rename_i missing
        rw [if_neg missing]
        cases valid : Manager.validateInterfaceCreation publicKeyFromPrivateKey ui iface with
        | error err => simp [valid] at ok
        | ok _ =>
          simp only [valid] at ok ⊢
          exact saved_of_announced circumstances "creation failure" .interfaceCreated id iface 1 s ok

theorem updateInterface_saved {iface : Interface} {s : HookedSite} {stored : Interface × List Peer}
    (ok : ((m.updateInterface ui iface).run circumstances s).1 = .ok stored) :
    Saved iface (known (circumstances 2) s iface.identifier) s
      ((m.updateInterface ui iface).run circumstances s).2 := by
  simp only [LifecycleProgram.run] at ok ⊢
  unfold Manager.updateInterface at ok ⊢
  cases rights : validateAdminAccessRights ui with
  | error err => simp [rights] at ok
  | ok _ =>
    obtain ⟨row, read⟩ := turn_query circumstances
      (RepoOp.getInterface iface.identifier) (fun _ _ => rfl) 0 s
    obtain ⟨peers, listed⟩ := turn_query circumstances
      (RepoOp.getInterfacePeers iface.identifier) (fun _ _ => rfl) 1 s
    simp only [rights, getInterfaceAndPeers, LifecycleProgram.repo, LifecycleProgram.issue,
      Program.perform_bind, Program.eval_call, Program.call_bind, read] at ok ⊢
    cases row with
    | error err => simp at ok
    | ok row =>
      simp only [Program.eval_call, Program.call_bind, listed] at ok ⊢
      cases peers with
      | error err => simp at ok
      | ok peers =>
        cases allowed : Manager.validateInterfaceModifications ui with
        | error err => simp [allowed] at ok
        | ok _ =>
          simp only [allowed, Program.pure_eq, Program.ret_bind] at ok ⊢
          exact saved_of_announced circumstances "update failure" .interfaceUpdated
            (fun saved => (saved, peers)) iface 2 s ok

theorem deleteInterface_deleted {id : InterfaceIdentifier} {s : HookedSite}
    (ok : ((m.deleteInterface ui id).run circumstances s).1 = .ok ()) :
    Deleted id s ((m.deleteInterface ui id).run circumstances s).2 := by
  have deletes : (m.deleteInterface ui id).Always LifecycleStep s fun result t =>
      result = .ok () → Deleted id s t := by
    unfold Manager.deleteInterface
    cases rights : validateAdminAccessRights ui with
    | error err => exact fun failed => by cases failed
    | ok _ =>
      intro answer s₁ step
      have read := step.unchanged trivial
      cases answer with
      | error err => exact fun failed => by cases failed
      | ok existing =>
        cases allowed : Manager.validateInterfaceDeletion ui with
        | error err =>
          simp only [Program.bind]
          exact fun failed => by cases failed
        | ok _ =>
          simp only [Program.bind]
          exact (always_deleteExisting existing id s₁).mono fun _ _ deleted ok =>
            Deleted.after read (deleted ok)
  exact eval_lifecycle circumstances (s := (0, s)) deletes ok

theorem Saved.find_self {iface : Interface} {was : Bool} {s t : HookedSite}
    (saved : Saved iface was s t) : ∃ valid base, iface.validate = .ok valid ∧
      t.site.db.interfaces.find iface.identifier =
        some { valid with base := base, addresses := valid.addresses.dedup } := by
  obtain ⟨valid, validated, base, rows⟩ := saved.row
  refine ⟨valid, base, validated, ?_⟩
  obtain ⟨endpoint, rfl⟩ := Interface.validate_eq validated
  rw [rows]
  exact Table.find_upsert_self s.site.db.interfaces _

theorem Saved.enabled_self {iface : Interface} {was : Bool} {s t : HookedSite}
    (saved : Saved iface was s t) : enabled t iface.identifier = !iface.isDisabled := by
  obtain ⟨valid, base, validated, found⟩ := saved.find_self
  obtain ⟨endpoint, rfl⟩ := Interface.validate_eq validated
  rw [enabled, found]
  rfl

theorem Saved.enabled_of_ne {iface : Interface} {was : Bool} {s t : HookedSite}
    (saved : Saved iface was s t) {id : InterfaceIdentifier} (ne : id ≠ iface.identifier) :
    enabled t id = enabled s id := by
  obtain ⟨valid, validated, base, rows⟩ := saved.row
  obtain ⟨endpoint, rfl⟩ := Interface.validate_eq validated
  rw [enabled, rows, enabled]
  exact congrArg (Option.any _) (Table.find_upsert_of_ne s.site.db.interfaces ne.symm)

/-- The hooks match exactly if the save knew the state before. -/
theorem Saved.hooksMatch_iff {iface : Interface} {was : Bool} {s t : HookedSite}
    (saved : Saved iface was s t) : HooksMatch s t ↔ was = enabled s iface.identifier := by
  constructor
  · rintro ⟨runs, hooks, match_each⟩
    have same : hookRuns iface was (!iface.isDisabled) = runs :=
      List.append_cancel_left (saved.hooks.symm.trans hooks)
    have here := match_each iface.identifier
    rw [← same, calledFor_hookRuns, saved.enabled_self] at here
    exact hooksFor_inj _ here
  · rintro rfl
    refine ⟨_, saved.hooks, fun id => ?_⟩
    by_cases same : id = iface.identifier
    · rw [same, calledFor_hookRuns, saved.enabled_self]
    · rw [calledFor_hookRuns_of_ne same, saved.enabled_of_ne same, hooksFor, if_pos rfl]

theorem Deleted.hooksMatch_iff {id : InterfaceIdentifier} {s t : HookedSite}
    (deleted : Deleted id s t) : HooksMatch s t ↔ enabled s id = false := by
  have gone : enabled t id = false := by
    rw [enabled, deleted.interfaces, Table.find_filter_self]
    rfl
  have none : ∀ other, calledFor other [] = [] := fun _ => rfl
  constructor
  · rintro ⟨runs, hooks, match_each⟩
    have empty : runs = [] := List.append_right_eq_self.mp (hooks.symm.trans deleted.hooks)
    have here : hooksFor false false = hooksFor (enabled s id) false := by
      rw [← gone, ← match_each id, empty, gone]
      rfl
    exact (hooksFor_inj false here).symm
  · intro disabled
    refine ⟨[], deleted.hooks.trans (List.append_nil _).symm, fun other => ?_⟩
    by_cases same : other = id
    · rw [same, disabled, gone, none, hooksFor, if_pos rfl]
    · have kept : enabled t other = enabled s other := by
        rw [enabled, deleted.interfaces, Table.find_filter_of_ne _ same, enabled]
      rw [kept, none, hooksFor, if_pos rfl]

inductive Change where
  | create (iface : Interface)
  | update (iface : Interface)
  | delete (id : InterfaceIdentifier)

namespace Change

def id : Change → InterfaceIdentifier
  | create iface => iface.identifier
  | update iface => iface.identifier
  | delete id => id

/-- Which operation asks whether the interface was enabled. -/
def historyRead : Change → Option ℕ
  | create _ => some 1
  | update _ => some 2
  | delete _ => none

end Change

structure Call where
  change : Change
  ui : ContextUserInfo
  circumstances : ℕ → SiteCircumstance

section Calls

variable (m : Manager) (publicKeyFromPrivateKey : String → String)

def Call.run (call : Call) (s : HookedSite) : Except Error Unit × HookedSite :=
  match call.change with
  | .create iface =>
    let (result, t) :=
      (m.createInterface publicKeyFromPrivateKey call.ui iface).run call.circumstances s
    (result.map fun _ => (), t)
  | .update iface =>
    let (result, t) := (m.updateInterface call.ui iface).run call.circumstances s
    (result.map fun _ => (), t)
  | .delete id => (m.deleteInterface call.ui id).run call.circumstances s

/-- An interface that was enabled is not deleted, and it is known that it was enabled. -/
def Call.Tracked (call : Call) (s : HookedSite) : Prop :=
  enabled s call.change.id = true →
    ∃ n ∈ call.change.historyRead, (call.circumstances n).fault = none

theorem known_eq_iff (c : SiteCircumstance) (s : HookedSite) (id : InterfaceIdentifier) :
    known c s id = enabled s id ↔ (enabled s id = true → c.fault = none) := by
  rw [known]
  cases enabled s id with
  | false => simp
  | true => simp

theorem ok_of_map {α : Type} {result : Except Error α} (ok : (result.map fun _ => ()) = .ok ()) :
    ∃ a, result = .ok a := by
  cases result with
  | error err => cases ok
  | ok a => exact ⟨a, rfl⟩

theorem Call.hooksMatch_iff {call : Call} {s : HookedSite}
    (ok : (call.run m publicKeyFromPrivateKey s).1 = .ok ()) :
    HooksMatch s (call.run m publicKeyFromPrivateKey s).2 ↔ call.Tracked s := by
  obtain ⟨change, ui, circumstances⟩ := call
  cases change with
  | create iface =>
    obtain ⟨stored, created⟩ := ok_of_map ok
    rw [Tracked, Change.historyRead]
    simp only [Option.mem_some_iff, exists_eq_left']
    exact (createInterface_saved circumstances created).hooksMatch_iff.trans (known_eq_iff ..)
  | update iface =>
    obtain ⟨stored, updated⟩ := ok_of_map ok
    rw [Tracked, Change.historyRead]
    simp only [Option.mem_some_iff, exists_eq_left']
    exact (updateInterface_saved circumstances updated).hooksMatch_iff.trans (known_eq_iff ..)
  | delete id =>
    rw [Tracked, Change.historyRead]
    simp only [Option.not_mem_none, false_and, exists_false]
    exact (deleteInterface_deleted circumstances ok).hooksMatch_iff.trans (by simp [Change.id])

def runCalls : List Call → HookedSite → HookedSite
  | [], s => s
  | call :: calls, s => runCalls calls (call.run m publicKeyFromPrivateKey s).2

/-- What holds of every call in the state that it is made in. -/
def EachCall (P : Call → HookedSite → Prop) : List Call → HookedSite → Prop
  | [], _ => True
  | call :: calls, s => P call s ∧ EachCall P calls (call.run m publicKeyFromPrivateKey s).2

end Calls

/-- How often a hook was called for an interface. -/
def timesCalled (s : HookedSite) (id : InterfaceIdentifier) (hook : Hook) : ℕ :=
  (calledFor id s.hooks).count hook

/-- The hooks of an interface were called once more on the way up than on the way down if it is
enabled, and as often if it is not. -/
structure Balanced (s : HookedSite) (id : InterfaceIdentifier) : Prop where
  pre : timesCalled s id .preUp = timesCalled s id .preDown + if enabled s id then 1 else 0
  post : timesCalled s id .postUp = timesCalled s id .postDown + if enabled s id then 1 else 0

theorem HooksMatch.balanced {s t : HookedSite} (hooks : HooksMatch s t) {id : InterfaceIdentifier}
    (balanced : Balanced s id) : Balanced t id := by
  obtain ⟨runs, appended, match_each⟩ := hooks
  have times : ∀ hook, timesCalled t id hook =
      timesCalled s id hook + (hooksFor (enabled s id) (enabled t id)).count hook := by
    intro hook
    rw [timesCalled, appended, calledFor, List.filter_append, List.map_append, List.count_append,
      ← match_each id]
    rfl
  constructor
  · have before := balanced.pre
    rw [times, times]
    cases was : enabled s id <;> cases is : enabled t id <;> rw [was] at before <;>
      simp [hooksFor] at before ⊢ <;> omega
  · have before := balanced.post
    rw [times, times]
    cases was : enabled s id <;> cases is : enabled t id <;> rw [was] at before <;>
      simp [hooksFor] at before ⊢ <;> omega

/-- The calls of the run match what became of the interfaces, in every state reached. -/
abbrev Matching (m : Manager) (publicKeyFromPrivateKey : String → String) :
    List Call → HookedSite → Prop :=
  EachCall m publicKeyFromPrivateKey fun call s =>
    HooksMatch s (call.run m publicKeyFromPrivateKey s).2

theorem Matching.balanced {publicKeyFromPrivateKey : String → String} {calls : List Call}
    {s : HookedSite} (matching : Matching m publicKeyFromPrivateKey calls s)
    {id : InterfaceIdentifier} (balanced : Balanced s id) :
    Balanced (runCalls m publicKeyFromPrivateKey calls s) id := by
  induction calls generalizing s with
  | nil => exact balanced
  | cons call calls ih => exact ih matching.2 (matching.1.balanced balanced)

theorem matching_iff_tracked {publicKeyFromPrivateKey : String → String} {calls : List Call}
    {s : HookedSite} (succeed : EachCall m publicKeyFromPrivateKey
      (fun call s => (call.run m publicKeyFromPrivateKey s).1 = .ok ()) calls s) :
    Matching m publicKeyFromPrivateKey calls s ↔
      EachCall m publicKeyFromPrivateKey Call.Tracked calls s := by
  induction calls generalizing s with
  | nil => exact Iff.rfl
  | cons call calls ih =>
    exact and_congr (call.hooksMatch_iff m publicKeyFromPrivateKey succeed.1) (ih succeed.2)

/-- In a run of calls that succeed, each calls the hooks for what it does exactly if no enabled
interface is deleted or taken to have been disabled. Then the hooks are balanced. -/
theorem interfaceHooks_balanced (m : Manager) (publicKeyFromPrivateKey : String → String)
    (calls : List Call) (start : Site)
    (succeed : EachCall m publicKeyFromPrivateKey
      (fun call s => (call.run m publicKeyFromPrivateKey s).1 = .ok ()) calls ⟨start, []⟩) :
    (Matching m publicKeyFromPrivateKey calls ⟨start, []⟩ ↔
      EachCall m publicKeyFromPrivateKey Call.Tracked calls ⟨start, []⟩) ∧
    (EachCall m publicKeyFromPrivateKey Call.Tracked calls ⟨start, []⟩ →
      ∀ id, enabled ⟨start, []⟩ id = false →
        Balanced (runCalls m publicKeyFromPrivateKey calls ⟨start, []⟩) id) := by
  refine ⟨matching_iff_tracked succeed, fun tracked id disabled => ?_⟩
  refine Matching.balanced ((matching_iff_tracked succeed).mpr tracked) ⟨?_, ?_⟩
  · rw [disabled]
    rfl
  · rw [disabled]
    rfl

def noSite : Site := ⟨Db.empty, fun _ _ => none, []⟩

def plainManager : Manager := ⟨defaultConfig, [], false⟩

def tunnel (disabled : Option Time) : Interface :=
  { Interface.zero with identifier := "wg0", disabled := disabled }

def calmCall (change : Change) : Call := ⟨change, systemAdminContextUserInfo, fun _ => calmSite⟩

def downUp : List Call :=
  [calmCall (.create (tunnel none)), calmCall (.update (tunnel (some 9))),
    calmCall (.update (tunnel none))]

theorem downUp_balanced :
    Matching plainManager id downUp ⟨noSite, []⟩ ∧
      Balanced (runCalls plainManager id downUp ⟨noSite, []⟩) "wg0" := by
  have tracked : EachCall plainManager id Call.Tracked downUp ⟨noSite, []⟩ :=
    ⟨fun _ => ⟨1, rfl, rfl⟩, fun _ => ⟨2, rfl, rfl⟩, fun _ => ⟨2, rfl, rfl⟩, trivial⟩
  have balances := interfaceHooks_balanced plainManager id downUp noSite
    ⟨by decide +kernel, by decide +kernel, by decide +kernel, trivial⟩
  exact ⟨balances.1.mpr tracked, balances.2 tracked "wg0" rfl⟩

/-- An enabled interface is deleted without a call of its down hooks. -/
theorem deleteEnabled_unbalanced :
    EachCall plainManager id (fun call s => (call.run plainManager id s).1 = .ok ())
      [calmCall (.create (tunnel none)), calmCall (.delete "wg0")] ⟨noSite, []⟩ ∧
    ¬ Matching plainManager id
      [calmCall (.create (tunnel none)), calmCall (.delete "wg0")] ⟨noSite, []⟩ ∧
    ¬ Balanced (runCalls plainManager id
      [calmCall (.create (tunnel none)), calmCall (.delete "wg0")] ⟨noSite, []⟩) "wg0" := by
  refine ⟨⟨by decide +kernel, by decide +kernel, trivial⟩, fun matching => ?_, fun balanced => ?_⟩
  · obtain ⟨-, ⟨runs, hooks, each⟩, -⟩ := matching
    have empty : runs = [] := List.append_right_eq_self.mp (hooks.symm.trans (by decide +kernel))
    have here := each "wg0"
    rw [empty] at here
    revert here
    decide +kernel
  · have pre := balanced.pre
    revert pre
    decide +kernel

end WgPortal.WireGuard.InterfaceHooks
