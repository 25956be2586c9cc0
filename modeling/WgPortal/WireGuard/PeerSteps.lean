import WgPortal.WireGuard.Peers

/-! What the functions of the manager that write peers may do to the world, when
their operations run under circumstances of a given kind. -/

namespace WgPortal.WireGuard.PeerSteps

open Domain Library Adapters App Config WgController
open ManagerProgram (issue)

variable {w : Wgtypes}

/-- The circumstances under which an operation runs in a world. -/
abbrev Conditions (w : Wgtypes) := ManagerOp → World w → Circumstance → Prop

/-- An operation under some circumstances of this kind. -/
def Turn (client : Client w) (can : Conditions w) (op : ManagerOp) (s : World w) (answer : op.Res)
    (t : World w) : Prop := ∃ c, can op s c ∧ op.exec client c s = (answer, t)

/-- The operation may fail with this error. -/
def Fails (can : Conditions w) (op : ManagerOp) (s : World w) (err : Error) : Prop :=
  ∃ c, can op s c ∧ c.fault = some err

/-- Nothing but events is different. -/
structure Untouched (s t : World w) : Prop where
  db : t.db = s.db
  devices : t.devices = s.devices

theorem Untouched.refl (s : World w) : Untouched s s := ⟨rfl, rfl⟩

theorem Untouched.trans {s t u : World w} (first : Untouched s t) (second : Untouched t u) :
    Untouched s u := ⟨second.db.trans first.db, second.devices.trans first.devices⟩

/-- The operations that only read or publish. -/
def Reading : ManagerOp → Prop
  | .repo (.commitInterface ..) | .repo (.commitPeer ..) | .repo (.deletePeer _)
  | .repo (.deletePeerStatus _) | .lock _ | .savePeer .. | .deletePeer .. => False
  | _ => True

/-- Some operation may fail before anything is written. -/
def Mishap (can : Conditions w) (s : World w) : Prop :=
  ∃ op t err, Untouched s t ∧ Fails can op t err

/-- Some failure may look as if a record were missing. -/
def Misread (can : Conditions w) (s : World w) : Prop :=
  ∃ op t err, Untouched s t ∧ Fails can op t err ∧ err.is .notFound

/-- Every step of the call runs under such circumstances. -/
def Steps {α : Type} (client : Client w) (circumstances : ℕ → Circumstance) (can : Conditions w)
    (prog : ManagerProgram α) (world : World w) : Prop :=
  prog.Along (inTurn client circumstances) (fun op s => can op s.2 (circumstances s.1)) (0, world)

theorem run_of_steps {client : Client w} {can : Conditions w} {circumstances : ℕ → Circumstance}
    {α : Type} {prog : ManagerProgram α} {world : World w} {post : α → World w → Prop}
    (always : prog.Always (Turn client can) world post)
    (steps : Steps client circumstances can prog world) :
    post (prog.run client circumstances world).1 (prog.run client circumstances world).2 := by
  have start : prog.Always (Turn client can) (Prod.snd (0, world)) post := always
  exact start.along (Program.Along.mono (fun op s here => ⟨circumstances s.1, here, rfl⟩) steps)

theorem steps_of_all {client : Client w} {can : Conditions w} {circumstances : ℕ → Circumstance}
    (meets : ∀ op s n, can op s (circumstances n)) {α : Type} (prog : ManagerProgram α)
    (world : World w) : Steps client circumstances can prog world := by
  have all : ∀ op (s : ℕ × World w), can op s.2 (circumstances s.1) :=
    fun op s => meets op s.2 s.1
  exact Program.along_of_all all prog (0, world)

/-- A call whose operations all run under such circumstances, whatever they are. -/
theorem run_of_always {client : Client w} {can : Conditions w} {circumstances : ℕ → Circumstance}
    (meets : ∀ op s n, can op s (circumstances n)) {α : Type} {prog : ManagerProgram α}
    {world : World w} {post : α → World w → Prop} (always : prog.Always (Turn client can) world post) :
    post (prog.run client circumstances world).1 (prog.run client circumstances world).2 :=
  run_of_steps always (steps_of_all meets prog world)

/-- Faults that do not look like missing records are not misread. -/
theorem not_misread_of_legible {can : Conditions w}
    (legible : ∀ op u c err, can op u c → c.fault = some err → err.is .notFound = false)
    (s : World w) : ¬ Misread can s := by
  rintro ⟨op, t, err, _, ⟨c, here, fault⟩, missing⟩
  rw [legible op t c err here fault] at missing
  cases missing

/-- No operation fails. -/
def NoFault : Conditions w := fun _ _ c => c.fault = none

theorem no_mishap (s : World w) : ¬ Mishap NoFault s := by
  rintro ⟨op, t, err, _, c, none, fails⟩
  exact absurd (none.symm.trans fails) (by simp)

theorem no_misread (s : World w) : ¬ Misread NoFault s := by
  rintro ⟨op, t, err, same, fails, _⟩
  exact no_mishap s ⟨op, t, err, same, fails⟩

variable {client : Client w} {can : Conditions w} {s t : World w}

theorem Turn.reading {op : ManagerOp} {answer : op.Res} (turn : Turn client can op s answer t)
    (reading : Reading op) : Untouched s t := by
  obtain ⟨c, _, run⟩ := turn
  have after : t = (op.exec client c s).2 := by rw [run]
  rw [after]
  cases op with
  | repo op =>
    cases op with
    | commitInterface | commitPeer | deletePeer | deletePeerStatus => cases reading
    | _ => cases fault : c.fault <;>
        simp only [ManagerOp.exec, RepoOp.exec, RepoOp.apply, fault] <;> exact ⟨rfl, rfl⟩
  | lock | savePeer | deletePeer => cases reading
  | timeNow | publish => exact ⟨rfl, rfl⟩
  | getPeers | newFreshKeypair | newPreSharedKey =>
    cases fault : c.fault <;> simp only [ManagerOp.exec, fault] <;> exact Untouched.refl s

theorem Turn.repo {op : RepoOp} {answer : Except Error op.Val}
    (turn : Turn client can (.repo op) s answer t) :
    (∃ err, answer = .error err ∧ t = s ∧ Fails can (.repo op) s err) ∨
      ∃ now, answer = op.answer now s.db ∧ t = { s with db := op.apply now s.db } := by
  obtain ⟨c, here, run⟩ := turn
  cases fault : c.fault with
  | some err =>
    simp only [ManagerOp.exec, RepoOp.exec, fault] at run
    obtain ⟨rfl, rfl⟩ := Prod.mk.inj run
    exact .inl ⟨err, rfl, rfl, c, here, fault⟩
  | none =>
    simp only [ManagerOp.exec, RepoOp.exec, fault] at run
    obtain ⟨rfl, rfl⟩ := Prod.mk.inj run
    exact .inr ⟨c.now, rfl, rfl⟩

/-- A program of operations that read. -/
theorem always_untouched {α : Type} {prog : ManagerProgram α} (uses : prog.Uses Reading)
    (s : World w) : prog.Always (Turn client can) s fun _ t => Untouched s t :=
  uses.always (fun _ _ _ _ reading same turn => same.trans (turn.reading reading))
    (Untouched.refl s)

/-- What the controller of an interface does when it is to save a peer. -/
def saved (client : Client w) (m : Manager) (iface : Interface) (p : Peer) (devices : Devices w) :
    Except Error Unit × Devices w :=
  if m.getController iface = localBackendName then
    LocalController.savePeer client devices p.interfaceIdentifier p.identifier
      fun pp => .ok (mergeToPhysicalPeer pp p m.cfg.core.forceClientIPAsAllowedIP)
  else (.ok (), devices)

/-- What the controller of an interface does when it is to delete a peer. -/
def removed (client : Client w) (m : Manager) (iface : Interface) (p : Peer)
    (devices : Devices w) : Except Error Unit × Devices w :=
  if m.getController iface = localBackendName then
    LocalController.deletePeer client devices p.interfaceIdentifier p.identifier
  else (.ok (), devices)

/-- The interface of a peer is stored, and its controller knows the device and
takes the identifier for a key. -/
structure Served (m : Manager) (w : Wgtypes) (db : Db) (devices : Devices w) (p : Peer)
    (iface : Interface) : Prop where
  stored : db.interfaces.find p.interfaceIdentifier = some iface
  key : m.getController iface = localBackendName → (w.parseKey p.identifier).isSome
  device : m.getController iface = localBackendName → (devices p.interfaceIdentifier).isSome

/-- The controller did its part, but the statement that should follow failed. -/
structure Stranded (can : Conditions w) (op : RepoOp) (written : Devices w) (s t : World w) :
    Prop where
  db : t.db = s.db
  devices : t.devices = written
  fails : ∃ u : World w, u.db = s.db ∧ u.devices = written ∧ ∃ err, Fails can (.repo op) u err

theorem no_stranded {op : RepoOp} {written : Devices w} {s t : World w} :
    ¬ Stranded NoFault op written s t := by
  intro stranded
  obtain ⟨u, _, _, err, c, none, fails⟩ := stranded.fails
  exact absurd (none.symm.trans fails) (by simp)

theorem Turn.savePeer {m : Manager} {iface : Interface} {p : Peer} {answer : Except Error Unit}
    (turn : Turn client can (.savePeer (m.getController iface) p.interfaceIdentifier p.identifier
      fun pp => .ok (mergeToPhysicalPeer pp p m.cfg.core.forceClientIPAsAllowedIP)) s answer t) :
    (∃ err, answer = .error err ∧ t = s ∧ Mishap can s) ∨
      (answer = (saved client m iface p s.devices).1 ∧
        t = { s with devices := (saved client m iface p s.devices).2 }) := by
  obtain ⟨c, here, run⟩ := turn
  cases fault : c.fault with
  | some err =>
    simp only [ManagerOp.exec, fault] at run
    obtain ⟨rfl, rfl⟩ := Prod.mk.inj run
    exact .inl ⟨err, rfl, rfl, _, _, err, Untouched.refl s, c, here, fault⟩
  | none =>
    right
    simp only [ManagerOp.exec, fault] at run
    rw [saved]
    split
    · rename_i backend
      rw [if_pos backend] at run
      obtain ⟨rfl, rfl⟩ := Prod.mk.inj run
      exact ⟨rfl, rfl⟩
    · rename_i backend
      rw [if_neg backend] at run
      obtain ⟨rfl, rfl⟩ := Prod.mk.inj run
      exact ⟨rfl, rfl⟩

theorem Turn.deletePeer {m : Manager} {iface : Interface} {p : Peer} {answer : Except Error Unit}
    (turn : Turn client can (.deletePeer (m.getController iface) p.interfaceIdentifier
      p.identifier) s answer t) :
    (∃ err, answer = .error err ∧ t = s ∧ Mishap can s) ∨
      (answer = (removed client m iface p s.devices).1 ∧
        t = { s with devices := (removed client m iface p s.devices).2 }) := by
  obtain ⟨c, here, run⟩ := turn
  cases fault : c.fault with
  | some err =>
    simp only [ManagerOp.exec, fault] at run
    obtain ⟨rfl, rfl⟩ := Prod.mk.inj run
    exact .inl ⟨err, rfl, rfl, _, _, err, Untouched.refl s, c, here, fault⟩
  | none =>
    right
    simp only [ManagerOp.exec, fault] at run
    rw [removed]
    split
    · rename_i backend
      rw [if_pos backend] at run
      obtain ⟨rfl, rfl⟩ := Prod.mk.inj run
      exact ⟨rfl, rfl⟩
    · rename_i backend
      rw [if_neg backend] at run
      obtain ⟨rfl, rfl⟩ := Prod.mk.inj run
      exact ⟨rfl, rfl⟩

theorem saved_ok {m : Manager} {iface : Interface} {p : Peer} {db : Db} {devices : Devices w}
    (served : Served m w db devices p iface) : (saved client m iface p devices).1 = .ok () := by
  rw [saved]
  split
  · rename_i backend
    obtain ⟨key, valid⟩ := Option.isSome_iff_exists.mp (served.key backend)
    obtain ⟨d, stored⟩ := Option.isSome_iff_exists.mp (served.device backend)
    rw [LocalController.savePeer_merge m.cfg.core.forceClientIPAsAllowedIP stored valid]
  · rfl

theorem removed_ok {m : Manager} {iface : Interface} {p : Peer} {db : Db} {devices : Devices w}
    (served : Served m w db devices p iface) : (removed client m iface p devices).1 = .ok () := by
  rw [removed]
  split
  · rename_i backend
    obtain ⟨key, valid⟩ := Option.isSome_iff_exists.mp (served.key backend)
    obtain ⟨d, stored⟩ := Option.isSome_iff_exists.mp (served.device backend)
    rw [LocalController.deletePeer_eq stored valid]
  · rfl

/-- A controller that cannot save a peer changes nothing. -/
theorem saved_error (client : Client w) {m : Manager} {iface : Interface} {p : Peer} {db : Db}
    {devices : Devices w}
    (stored : db.interfaces.find p.interfaceIdentifier = some iface)
    (unserved : ¬ Served m w db devices p iface) :
    ∃ err, saved client m iface p devices = (.error err, devices) := by
  have backend : m.getController iface = localBackendName := by
    by_contra remote
    exact unserved ⟨stored, fun here => absurd here remote, fun here => absurd here remote⟩
  rw [saved, if_pos backend]
  cases valid : w.parseKey p.identifier with
  | none => exact ⟨_, LocalController.savePeer_invalid _ valid⟩
  | some key =>
    cases device : devices p.interfaceIdentifier with
    | none => exact ⟨_, LocalController.savePeer_missing _ valid device⟩
    | some d => exact absurd ⟨stored, fun _ => by rw [valid]; rfl, fun _ => by rw [device]; rfl⟩ unserved

theorem removed_error (client : Client w) {m : Manager} {iface : Interface} {p : Peer} {db : Db}
    {devices : Devices w}
    (stored : db.interfaces.find p.interfaceIdentifier = some iface)
    (unserved : ¬ Served m w db devices p iface) :
    ∃ err, removed client m iface p devices = (.error err, devices) := by
  have backend : m.getController iface = localBackendName := by
    by_contra remote
    exact unserved ⟨stored, fun here => absurd here remote, fun here => absurd here remote⟩
  rw [removed, if_pos backend]
  cases valid : w.parseKey p.identifier with
  | none =>
    exact ⟨.other "invalid public key", by simp [LocalController.deletePeer, valid]⟩
  | some key =>
    cases device : devices p.interfaceIdentifier with
    | none =>
      exact ⟨errNotExist, by simp [LocalController.deletePeer, LocalController.removePeer,
        LocalController.configureDevice, valid, device]⟩
    | some d => exact absurd ⟨stored, fun _ => by rw [valid]; rfl, fun _ => by rw [device]; rfl⟩ unserved

/-- The controller is called to save a peer, before anything is written. -/
def Saving (can : Conditions w) (m : Manager) (iface : Interface) (p : Peer) (s : World w) : Prop :=
  ∃ c, can (.savePeer (m.getController iface) p.interfaceIdentifier p.identifier
    fun pp => .ok (mergeToPhysicalPeer pp p m.cfg.core.forceClientIPAsAllowedIP)) s c

/-- How saving a peer may end. -/
inductive SaveOutcome {α : Type} (result : Peer → α) (client : Client w) (can : Conditions w)
    (m : Manager) (ui : ContextUserInfo) (p : Peer) (s : World w) : Except Error α → World w → Prop
  | done {iface : Interface} {base : BaseModel} {now : Time} {t : World w}
      (served : Served m w s.db s.devices p iface)
      (db : t.db = s.db.commitPeer ui.id now p.identifier { p with base := base })
      (devices : t.devices = (saved client m iface p s.devices).2)
      (saving : Saving can m iface p s) :
      SaveOutcome result client can m ui p s
        (.ok (result { p with base := { base with updatedBy := ui.id, updatedAt := now } })) t
  | refused {err : Error} {t : World w} (same : Untouched s t)
      (why : (∀ iface, ¬ Served m w s.db s.devices p iface) ∨ Mishap can s) :
      SaveOutcome result client can m ui p s (.error err) t
  | stranded {err : Error} {iface : Interface} {base : BaseModel} {t : World w}
      (served : Served m w s.db s.devices p iface)
      (stranded : Stranded can (.commitPeer ui.id p.identifier { p with base := base })
        (saved client m iface p s.devices).2 s t)
      (saving : Saving can m iface p s) :
      SaveOutcome result client can m ui p s (.error err) t

section Save

variable {α β : Type} {result : Peer → α} {m : Manager} {ui : ContextUserInfo} {p : Peer}

theorem SaveOutcome.after {r : Except Error α} {u : World w}
    (outcome : SaveOutcome result client can m ui p s r t) (same : Untouched t u) :
    SaveOutcome result client can m ui p s r u := by
  cases outcome with
  | done served db devices saving =>
    exact .done served (same.db.trans db) (same.devices.trans devices) saving
  | refused before why => exact .refused (before.trans same) why
  | stranded served stranded saving =>
    exact .stranded served
      ⟨same.db.trans stranded.db, same.devices.trans stranded.devices, stranded.fails⟩ saving

/-- The text of the error does not matter. -/
theorem SaveOutcome.error {result' : Peer → β} {err err' : Error}
    (outcome : SaveOutcome result client can m ui p s (.error err) t) :
    SaveOutcome result' client can m ui p s (.error err') t := by
  cases outcome with
  | refused same why => exact .refused same why
  | stranded served stranded saving => exact .stranded served stranded saving

theorem SaveOutcome.ok {result' : Peer → β} {q : Peer}
    (outcome : SaveOutcome id client can m ui p s (.ok q) t) :
    SaveOutcome result' client can m ui p s (.ok (result' q)) t := by
  cases outcome with
  | done served db devices saving => exact .done served db devices saving

theorem always_repoSavePeer {iface : Interface} (s : World w)
    (stored : s.db.interfaces.find p.interfaceIdentifier = some iface) :
    (repoSavePeer ui p.identifier (m.saveToBackend iface p)).Always (Turn client can) s
      (SaveOutcome id client can m ui p s) := by
  unfold repoSavePeer
  refine Program.always_perform_bind.mpr fun answer t turn => ?_
  have same : Untouched s t := turn.reading trivial
  rcases turn.repo with ⟨err, rfl, rfl, fails⟩ | ⟨now, rfl, rfl⟩
  · exact .refused same (.inr ⟨_, _, _, same, fails⟩)
  · simp only [RepoOp.answer, Manager.saveToBackend]
    refine Program.always_perform_bind.mpr fun answer t turn => ?_
    have merged : Turn client can (.savePeer (m.getController iface) p.interfaceIdentifier
        p.identifier fun pp => .ok (mergeToPhysicalPeer pp p m.cfg.core.forceClientIPAsAllowedIP))
        s answer t := turn
    have saving : Saving can m iface p s := by
      obtain ⟨c, here, _⟩ := merged
      exact ⟨c, here⟩
    rcases merged.savePeer with ⟨err, rfl, rfl, mishap⟩ | ⟨rfl, rfl⟩
    · exact .refused (Untouched.refl _) (.inr mishap)
    · by_cases served : Served m w s.db s.devices p iface
      · simp only [saved_ok served]
        refine Program.always_perform_bind.mpr fun answer t turn => ?_
        rcases turn.repo with ⟨err, rfl, rfl, fails⟩ | ⟨now, rfl, rfl⟩
        · let written : World w := { s with devices := (saved client m iface p s.devices).2 }
          exact .stranded served ⟨rfl, rfl, written, rfl, rfl, _, fails⟩ saving
        · exact .done served rfl rfl saving
      · obtain ⟨err, failed⟩ := saved_error client stored served
        have other : ∀ iface', ¬ Served m w s.db s.devices p iface' := by
          intro iface' served'
          have same : iface' = iface := Option.some.inj (served'.stored.symm.trans stored)
          exact served (same ▸ served')
        simp only [failed]
        exact .refused (Untouched.refl _) (.inl other)

/-- Saving one peer, up to the result. -/
theorem always_saveOne (m : Manager) (ui : ContextUserInfo) (p : Peer) (s : World w) :
    (m.saveOne ui p).Always (Turn client can) s (SaveOutcome id client can m ui p s) := by
  unfold Manager.saveOne
  refine Program.always_perform_bind.mpr fun answer t turn => ?_
  have same : Untouched s t := turn.reading trivial
  rcases turn.repo with ⟨err, rfl, rfl, fails⟩ | ⟨now, rfl, rfl⟩
  · exact .refused same (.inr ⟨_, _, _, same, fails⟩)
  · simp only [RepoOp.answer, Db.getInterface]
    cases stored : s.db.interfaces.find p.interfaceIdentifier with
    | none =>
      refine .refused same (.inl fun iface served => ?_)
      exact absurd (served.stored.symm.trans stored) (by simp)
    | some iface =>
      refine (always_repoSavePeer s stored).bind fun r t outcome => ?_
      cases r with
      | error err => exact outcome.error
      | ok q => exact fun _ _ turn => outcome.after (turn.reading trivial)

theorem always_savePeers (m : Manager) (ui : ContextUserInfo) (p : Peer) (s : World w) :
    (m.savePeers ui [p]).Always (Turn client can) s
      (SaveOutcome (fun q => [q]) client can m ui p s) := by
  unfold Manager.savePeers
  have all : (m.saveAll ui [p]).Always (Turn client can) s
      (SaveOutcome (fun q => [q]) client can m ui p s) := by
    unfold Manager.saveAll
    refine (always_saveOne m ui p s).bind fun r t outcome => ?_
    cases r with
    | error err => exact outcome.error
    | ok q => exact outcome.ok
  refine all.bind fun r t outcome => ?_
  cases r with
  | error err => exact outcome.error
  | ok saved =>
    cases outcome with
    | done served db devices saving =>
      simp only [ne_eq, List.cons_ne_nil, not_false_eq_true, if_true]
      refine Program.always_perform_bind.mpr fun _ u turn => ?_
      have same : Untouched t u := turn.reading trivial
      exact (SaveOutcome.done served db devices saving).after same

end Save

/-- The user may change the peer. -/
def Allowed (m : Manager) (ui : ContextUserInfo) (p : Peer) : Prop :=
  validateUserAccessRights ui p.userIdentifier = .ok () ∧ m.validatePeerModifications ui = .ok ()

/-- How deleting a peer may end. -/
inductive DeleteOutcome (client : Client w) (can : Conditions w) (m : Manager)
    (ui : ContextUserInfo) (id : PeerIdentifier) (s : World w) : Except Error Unit → World w → Prop
  | done {p : Peer} {iface : Interface} {t : World w} (stored : s.db.peer id = some p)
      (served : Served m w s.db s.devices p iface) (db : t.db = s.db.deletePeer id)
      (devices : t.devices = (removed client m iface p s.devices).2) :
      DeleteOutcome client can m ui id s (.ok ()) t
  | refused {err : Error} {t : World w} (same : Untouched s t)
      (why : (∀ p, s.db.peer id = some p →
        ¬ Allowed m ui p ∨ ∀ iface, ¬ Served m w s.db s.devices p iface) ∨ Mishap can s) :
      DeleteOutcome client can m ui id s (.error err) t
  | stranded {err : Error} {p : Peer} {iface : Interface} {t : World w}
      (stored : s.db.peer id = some p) (served : Served m w s.db s.devices p iface)
      (stranded : Stranded can (.deletePeer id) (removed client m iface p s.devices).2 s t) :
      DeleteOutcome client can m ui id s (.error err) t

theorem DeleteOutcome.after {m : Manager} {ui : ContextUserInfo} {id : PeerIdentifier}
    {r : Except Error Unit} {u : World w} (outcome : DeleteOutcome client can m ui id s r t)
    (same : Untouched t u) : DeleteOutcome client can m ui id s r u := by
  cases outcome with
  | done stored served db devices =>
    exact .done stored served (same.db.trans db) (same.devices.trans devices)
  | refused before why => exact .refused (before.trans same) why
  | stranded stored served stranded =>
    exact .stranded stored served
      ⟨same.db.trans stranded.db, same.devices.trans stranded.devices, stranded.fails⟩

theorem DeleteOutcome.error {m : Manager} {ui : ContextUserInfo} {id : PeerIdentifier}
    {err err' : Error} (outcome : DeleteOutcome client can m ui id s (.error err) t) :
    DeleteOutcome client can m ui id s (.error err') t := by
  cases outcome with
  | refused same why => exact .refused same why
  | stranded stored served stranded => exact .stranded stored served stranded

theorem always_deletePeerChecked (m : Manager) (ui : ContextUserInfo) {id : PeerIdentifier}
    {p : Peer} (s : World w) (stored : s.db.peer id = some p) :
    (m.deletePeerChecked id p).Always (Turn client can) s (DeleteOutcome client can m ui id s) := by
  have named : p.identifier = id := Db.identifier_of_peer stored
  unfold Manager.deletePeerChecked
  refine Program.always_perform_bind.mpr fun answer t turn => ?_
  have same : Untouched s t := turn.reading trivial
  rcases turn.repo with ⟨err, rfl, rfl, fails⟩ | ⟨now, rfl, rfl⟩
  · exact .refused same (.inr ⟨_, _, _, same, fails⟩)
  · simp only [RepoOp.answer, Db.getInterface]
    cases found : s.db.interfaces.find p.interfaceIdentifier with
    | none =>
      refine .refused same (.inl fun p' stored' => .inr fun iface served => ?_)
      rw [Option.some.inj (stored'.symm.trans stored)] at served
      exact absurd (served.stored.symm.trans found) (by simp)
    | some iface =>
      refine Program.always_perform_bind.mpr fun answer t turn => ?_
      have deleting : Turn client can (.deletePeer (m.getController iface) p.interfaceIdentifier
          p.identifier) s answer t := named ▸ turn
      rcases deleting.deletePeer with ⟨err, rfl, rfl, mishap⟩ | ⟨rfl, rfl⟩
      · exact .refused (Untouched.refl _) (.inr mishap)
      · by_cases served : Served m w s.db s.devices p iface
        · simp only [removed_ok served]
          refine Program.always_perform_bind.mpr fun answer t turn => ?_
          rcases turn.repo with ⟨err, rfl, rfl, fails⟩ | ⟨now, rfl, rfl⟩
          · let written : World w := { s with devices := (removed client m iface p s.devices).2 }
            exact .stranded stored served ⟨rfl, rfl, written, rfl, rfl, _, fails⟩
          · intro _ _ first _ _ second _ _ third
            have same := ((first.reading trivial).trans (second.reading trivial)).trans
              (third.reading trivial)
            exact (DeleteOutcome.done stored served rfl rfl).after same
        · obtain ⟨err, failed⟩ := removed_error client found served
          simp only [failed]
          refine .refused (Untouched.refl _) (.inl fun p' stored' => .inr fun iface' served' => ?_)
          rw [Option.some.inj (stored'.symm.trans stored)] at served'
          have same : iface' = iface := Option.some.inj (served'.stored.symm.trans found)
          exact served (same ▸ served')

theorem always_deletePeer (m : Manager) (ui : ContextUserInfo) (id : PeerIdentifier)
    (s : World w) :
    (m.deletePeer ui id).Always (Turn client can) s (DeleteOutcome client can m ui id s) := by
  unfold Manager.deletePeer
  refine Program.always_perform_bind.mpr fun answer t turn => ?_
  have same : Untouched s t := turn.reading trivial
  rcases turn.repo with ⟨err, rfl, rfl, fails⟩ | ⟨now, rfl, rfl⟩
  · exact .refused same (.inr ⟨_, _, _, same, fails⟩)
  · simp only [RepoOp.answer, Db.getPeer]
    cases stored : s.db.peer id with
    | none => exact .refused same (.inl fun p found => absurd (found.symm.trans stored) (by simp))
    | some p =>
      have only : ∀ p', s.db.peer id = some p' → p' = p :=
        fun p' found => Option.some.inj (found.symm.trans stored)
      by_cases allowed : Allowed m ui p
      · simp only [allowed.1, allowed.2]
        exact always_deletePeerChecked m ui s stored
      · have why : ∀ p', s.db.peer id = some p' → ¬ Allowed m ui p' ∨
            ∀ iface, ¬ Served m w s.db s.devices p' iface :=
          fun p' found => .inl (only p' found ▸ allowed)
        cases rights : validateUserAccessRights ui p.userIdentifier with
        | error err =>
          simp only [rights]
          exact .refused same (.inl why)
        | ok _ =>
          cases modify : m.validatePeerModifications ui with
          | error err =>
            simp only [rights]
            exact .refused same (.inl why)
          | ok _ => exact absurd ⟨rights, modify⟩ allowed

section Effect

variable {m : Manager} {ui : ContextUserInfo}

theorem SaveOutcome.other {α : Type} {result : Peer → α} {q : Peer} {r : Except Error α}
    (outcome : SaveOutcome result client can m ui q s r t) {id : PeerIdentifier}
    (ne : id ≠ q.identifier) : t.db.peer id = s.db.peer id := by
  cases outcome with
  | done served db devices =>
    rw [db]
    refine Db.peer_commitPeer_of_ne _ _ _ _ _ ?_
    exact ne
  | refused same why => rw [same.db]
  | stranded served stranded => rw [stranded.db]

/-- What is stored once a peer was saved. -/
theorem SaveOutcome.stored {α : Type} {result : Peer → α} {q : Peer} {a : α}
    (outcome : SaveOutcome result client can m ui q s (.ok a) t) :
    ∃ base addresses, a = result { q with base := base } ∧
      t.db.peer q.identifier = some (loadAddresses { q with base := base } addresses) := by
  cases outcome with
  | done served db devices saving =>
    rename_i iface base now
    obtain ⟨addresses, _, found⟩ := Db.exists_peer_commitPeer s.db ui.id now q.identifier
      { q with base := base }
    exact ⟨_, addresses, rfl, db ▸ found⟩

theorem SaveOutcome.db_of_error {α : Type} {result : Peer → α} {q : Peer} {err : Error}
    (outcome : SaveOutcome result client can m ui q s (.error err) t) : t.db = s.db := by
  cases outcome with
  | refused same why => exact same.db
  | stranded served stranded => exact stranded.db

theorem DeleteOutcome.db {id : PeerIdentifier} {r : Except Error Unit}
    (outcome : DeleteOutcome client can m ui id s r t) :
    t.db = match r with
      | .ok _ => s.db.deletePeer id
      | .error _ => s.db := by
  cases outcome with
  | done stored served db devices => exact db
  | refused same why => exact same.db
  | stranded stored served stranded => exact stranded.db

theorem removed_isSome {iface : Interface} {p : Peer} {devices : Devices w}
    (id : InterfaceIdentifier) :
    ((removed client m iface p devices).2 id).isSome = (devices id).isSome := by
  rw [removed]
  split
  · exact LocalController.deletePeer_isSome client devices _ _ id
  · rfl

/-- Deleting a peer does not keep another one from being saved. -/
theorem served_removed {iface iface' : Interface} {p q : Peer} {id : PeerIdentifier} {u : World w}
    (db : u.db = s.db.deletePeer id)
    (devices : u.devices = (removed client m iface' p s.devices).2) :
    Served m w u.db u.devices q iface ↔ Served m w s.db s.devices q iface := by
  have interfaces : u.db.interfaces = s.db.interfaces := by rw [db]; rfl
  have device : (u.devices q.interfaceIdentifier).isSome =
      (s.devices q.interfaceIdentifier).isSome := by rw [devices, removed_isSome]
  constructor
  · exact fun served => ⟨interfaces ▸ served.stored, served.key, fun here =>
      device ▸ served.device here⟩
  · exact fun served => ⟨interfaces ▸ served.stored, served.key, fun here =>
      device ▸ served.device here⟩

end Effect

/-- The peer that an update by the user would store. -/
def requested (m : Manager) (ui : ContextUserInfo) (existing peer : Peer) : Peer :=
  if ui.isAdmin then peer else overwriteUserEditableFields existing peer m.cfg

theorem requested_identifier (m : Manager) (ui : ContextUserInfo) (existing peer : Peer)
    (named : peer.identifier = existing.identifier) :
    (requested m ui existing peer).identifier = existing.identifier := by
  unfold requested
  split
  · exact named
  · unfold overwriteUserEditableFields
    by_cases editable : m.cfg.core.editableKeys <;> simp [editable, named]

/-- How an update may end; `q` is the peer to store. -/
inductive UpdateOutcome (client : Client w) (can : Conditions w) (m : Manager)
    (ui : ContextUserInfo) (existing q : Peer) (s : World w) : Except Error Peer → World w → Prop
  | refused {err : Error} {t : World w} (same : Untouched s t)
      (why : (q.interface.keyPair.publicKey ≠ existing.identifier ∧
        (s.db.peer q.interface.keyPair.publicKey).isSome) ∨ Mishap can s) :
      UpdateOutcome client can m ui existing q s (.error err) t
  | updated {r : Except Error Peer} {t : World w}
      (own : q.interface.keyPair.publicKey = existing.identifier)
      (outcome : SaveOutcome id client can m ui q s r t) :
      UpdateOutcome client can m ui existing q s r t
  | undeleted {err err' : Error} {t : World w}
      (other : q.interface.keyPair.publicKey ≠ existing.identifier)
      (unknown : s.db.peer q.interface.keyPair.publicKey = none ∨ Misread can s)
      (outcome : DeleteOutcome client can m ui existing.identifier s (.error err') t) :
      UpdateOutcome client can m ui existing q s (.error err) t
  | replaced {r : Except Error Peer} {u t : World w}
      (other : q.interface.keyPair.publicKey ≠ existing.identifier)
      (unknown : s.db.peer q.interface.keyPair.publicKey = none ∨ Misread can s)
      (deleted : DeleteOutcome client can m ui existing.identifier s (.ok ()) u)
      (outcome : SaveOutcome id client can m ui
        { q with identifier := q.interface.keyPair.publicKey } u r t) :
      UpdateOutcome client can m ui existing q s r t

section Update

variable {m : Manager} {ui : ContextUserInfo} {existing q : Peer}

theorem UpdateOutcome.after {r : Except Error Peer} {u : World w}
    (outcome : UpdateOutcome client can m ui existing q s r t) (same : Untouched t u) :
    UpdateOutcome client can m ui existing q s r u := by
  cases outcome with
  | refused before why => exact .refused (before.trans same) why
  | updated own outcome => exact .updated own (outcome.after same)
  | undeleted other unknown outcome => exact .undeleted other unknown (outcome.after same)
  | replaced other unknown deleted outcome =>
    exact .replaced other unknown deleted (outcome.after same)

theorem always_checkUnknown (id : PeerIdentifier) (s : World w) :
    (Manager.checkUnknown id).Always (Turn client can) s fun r t => t = s ∧
      match r with
      | .ok _ => s.db.peer id = none ∨ Misread can s
      | .error _ => (s.db.peer id).isSome ∨ Mishap can s := by
  unfold Manager.checkUnknown
  refine Program.always_perform_bind.mpr fun answer t turn => ?_
  have same : Untouched s t := turn.reading trivial
  rcases turn.repo with ⟨err, rfl, rfl, fails⟩ | ⟨now, rfl, rfl⟩
  · cases missing : err.is .notFound with
    | true =>
      simp only [missing]
      exact ⟨rfl, .inr ⟨_, _, _, same, fails, missing⟩⟩
    | false =>
      simp only [missing]
      exact ⟨rfl, .inr ⟨_, _, _, same, fails⟩⟩
  · simp only [RepoOp.answer, Db.getPeer]
    cases stored : s.db.peer id with
    | none => exact ⟨rfl, .inl rfl⟩
    | some p => exact ⟨rfl, .inl rfl⟩

theorem UpdateOutcome.error {err err' : Error}
    (outcome : UpdateOutcome client can m ui existing q s (.error err) t) :
    UpdateOutcome client can m ui existing q s (.error err') t := by
  cases outcome with
  | refused same why => exact .refused same why
  | updated own outcome => exact .updated own outcome.error
  | undeleted other unknown outcome => exact .undeleted other unknown outcome
  | replaced other unknown deleted outcome => exact .replaced other unknown deleted outcome.error

theorem always_replacePeer (s : World w)
    (other : q.interface.keyPair.publicKey ≠ existing.identifier) :
    (m.replacePeer ui existing.identifier
      { q with identifier := q.interface.keyPair.publicKey }).Always (Turn client can) s
        (UpdateOutcome client can m ui existing q s) := by
  unfold Manager.replacePeer
  refine (always_checkUnknown _ s).bind fun r t ⟨here, known⟩ => ?_
  subst here
  cases r with
  | error err => exact .refused (Untouched.refl t) (known.imp_left fun stored => ⟨other, stored⟩)
  | ok _ =>
    refine (always_deletePeer m ui existing.identifier t).bind fun r u deleted => ?_
    cases r with
    | error err => exact .undeleted other known deleted
    | ok _ =>
      refine (always_savePeers m ui _ u).bind fun r v outcome => ?_
      cases r with
      | error err => exact .replaced other known deleted outcome.error
      | ok saved =>
        cases outcome with
        | done served db devices saving =>
          exact fun _ _ turn => (UpdateOutcome.replaced other known deleted
            (.done served db devices saving)).after (turn.reading trivial)

/-- Saving an updated peer, under its old or under a new identifier. -/
theorem always_saveUpdated (m : Manager) (ui : ContextUserInfo) (existing q : Peer) (s : World w) :
    (m.saveUpdated ui existing q).Always (Turn client can) s
      (UpdateOutcome client can m ui existing q s) := by
  unfold Manager.saveUpdated
  by_cases own : existing.identifier = q.interface.keyPair.publicKey
  · simp only [ne_eq, own, not_true_eq_false, if_false]
    refine (always_savePeers m ui q s).bind fun r t outcome => ?_
    cases r with
    | error err => exact .updated own.symm outcome.error
    | ok saved =>
      cases outcome with
      | done served db devices saving =>
        exact .updated own.symm (.done served db devices saving)
  · simp only [ne_eq, own, not_false_eq_true, if_true]
    exact always_replacePeer s (Ne.symm own)

theorem always_requestedPeer (m : Manager) (ui : ContextUserInfo) {peer : Peer} (s : World w)
    (stored : s.db.peer peer.identifier = some existing) :
    (m.requestedPeer ui peer).Always (Turn client can) s fun r t => t = s ∧
      match r with
      | .ok q => q = requested m ui existing peer
      | .error _ => Mishap can s := by
  unfold Manager.requestedPeer requested
  cases ui.isAdmin with
  | true => exact ⟨rfl, rfl⟩
  | false =>
    refine Program.always_perform_bind.mpr fun answer t turn => ?_
    have same : Untouched s t := turn.reading trivial
    rcases turn.repo with ⟨err, rfl, rfl, fails⟩ | ⟨now, rfl, rfl⟩
    · exact ⟨rfl, _, _, _, same, fails⟩
    · simp only [RepoOp.answer, Db.getPeer, stored]
      exact ⟨rfl, rfl⟩

theorem always_updatePeerChecked (m : Manager) (ui : ContextUserInfo) {peer : Peer} (s : World w)
    (stored : s.db.peer peer.identifier = some existing) :
    (m.updatePeerChecked ui existing peer).Always (Turn client can) s
      (UpdateOutcome client can m ui existing (requested m ui existing peer) s) := by
  unfold Manager.updatePeerChecked
  refine (always_requestedPeer m ui s stored).bind fun r t ⟨here, request⟩ => ?_
  subst here
  cases r with
  | error err => exact .refused (Untouched.refl t) (.inr request)
  | ok q =>
    rw [← request]
    refine (always_saveUpdated m ui existing q t).bind fun r u outcome => ?_
    cases r with
    | error err => exact outcome.error
    | ok saved =>
      intro _ v turn
      have published := outcome.after (turn.reading trivial)
      split
      · exact fun _ _ turn => published.after (turn.reading trivial)
      · exact published

/-- An update is refused at once, or ends as the stored and the requested peer decide. -/
theorem always_updatePeer (m : Manager) (ui : ContextUserInfo) (peer : Peer) (s : World w) :
    (m.updatePeer ui peer).Always (Turn client can) s fun r t =>
      (∃ err, r = .error err ∧ Untouched s t ∧ (Mishap can s ∨
        ∀ existing, s.db.peer peer.identifier = some existing → ¬ Allowed m ui existing)) ∨
      ∃ existing, s.db.peer peer.identifier = some existing ∧ Allowed m ui existing ∧
        UpdateOutcome client can m ui existing (requested m ui existing peer) s r t := by
  unfold Manager.updatePeer
  refine Program.always_perform_bind.mpr fun answer t turn => ?_
  have same : Untouched s t := turn.reading trivial
  rcases turn.repo with ⟨err, rfl, rfl, fails⟩ | ⟨now, rfl, rfl⟩
  · exact .inl ⟨_, rfl, same, .inl ⟨_, _, _, same, fails⟩⟩
  · simp only [RepoOp.answer, Db.getPeer]
    cases stored : s.db.peer peer.identifier with
    | none => exact .inl ⟨_, rfl, same, .inr fun _ found => by cases found⟩
    | some existing =>
      by_cases allowed : Allowed m ui existing
      · simp only [allowed.1, allowed.2]
        refine (always_updatePeerChecked m ui s stored).mono fun r t outcome => ?_
        exact .inr ⟨existing, rfl, allowed, outcome⟩
      · have why : ∀ existing', some existing = some existing' → ¬ Allowed m ui existing' :=
          fun _ found => Option.some.inj found ▸ allowed
        cases rights : validateUserAccessRights ui existing.userIdentifier with
        | error err =>
          simp only [rights]
          exact .inl ⟨_, rfl, same, .inr why⟩
        | ok _ =>
          cases modify : m.validatePeerModifications ui with
          | error err =>
            simp only [rights]
            exact .inl ⟨_, rfl, same, .inr why⟩
          | ok _ => exact absurd ⟨rights, modify⟩ allowed

/-- The other peers stay, unless a failure makes a stored peer look missing. -/
theorem UpdateOutcome.other {r : Except Error Peer}
    (outcome : UpdateOutcome client can m ui existing q s r t) (read : ¬ Misread can s)
    (named : q.identifier = existing.identifier) {id : PeerIdentifier} {p : Peer}
    (ne : id ≠ existing.identifier) (stored : s.db.peer id = some p) :
    t.db.peer id = some p := by
  cases outcome with
  | refused same why => rw [same.db, stored]
  | updated own outcome => rw [outcome.other (named ▸ ne), stored]
  | undeleted other unknown outcome => rw [outcome.db, stored]
  | replaced other unknown deleted outcome =>
    have free := unknown.resolve_right read
    have ne' : id ≠ q.interface.keyPair.publicKey := by
      rintro rfl
      rw [stored] at free
      cases free
    rw [outcome.other ne', deleted.db, Db.peer_deletePeer_of_ne s.db ne, stored]

/-- Peers under other identifiers are left alone. -/
theorem UpdateOutcome.elsewhere {r : Except Error Peer}
    (outcome : UpdateOutcome client can m ui existing q s r t)
    (named : q.identifier = existing.identifier) {id : PeerIdentifier}
    (ne : id ≠ existing.identifier) (ne' : id ≠ q.interface.keyPair.publicKey) :
    t.db.peer id = s.db.peer id := by
  cases outcome with
  | refused same why => rw [same.db]
  | updated own outcome => rw [outcome.other (named ▸ ne)]
  | undeleted other unknown outcome => rw [outcome.db]
  | replaced other unknown deleted outcome =>
    rw [outcome.other ne', deleted.db, Db.peer_deletePeer_of_ne s.db ne]

/-- The update can be saved, as the request and the state are. -/
structure Storable (m : Manager) (s : World w) (existing q : Peer) : Prop where
  served : ∃ iface,
    Served m w s.db s.devices { q with identifier := q.interface.keyPair.publicKey } iface
  replaces : q.interface.keyPair.publicKey ≠ existing.identifier →
    s.db.peer q.interface.keyPair.publicKey = none ∧
      ∀ p, s.db.peer existing.identifier = some p → ∃ iface, Served m w s.db s.devices p iface

theorem UpdateOutcome.storable {p : Peer}
    (outcome : UpdateOutcome client can m ui existing q s (.ok p) t) (read : ¬ Misread can s)
    (named : q.identifier = existing.identifier) : Storable m s existing q := by
  cases outcome with
  | updated own outcome =>
    cases outcome with
    | done served db devices saving =>
      rename_i iface base now
      refine ⟨⟨iface, ?_⟩, fun other => absurd own other⟩
      rw [own.trans named.symm]
      exact served
  | replaced other unknown deleted outcome =>
    cases deleted with
    | done stored served db devices =>
      rename_i old iface
      cases outcome with
      | done served' db' devices' saving =>
        rename_i iface' base now
        refine ⟨⟨iface', (served_removed db devices).mp served'⟩,
          fun _ => ⟨unknown.resolve_right read, fun p' stored' => ⟨iface, ?_⟩⟩⟩
        rw [Option.some.inj (stored'.symm.trans stored)]
        exact served

/-- What is stored once a peer was updated; an old identifier is free then. -/
theorem UpdateOutcome.stored {p : Peer}
    (outcome : UpdateOutcome client can m ui existing q s (.ok p) t)
    (named : q.identifier = existing.identifier) :
    p.identifier = q.interface.keyPair.publicKey ∧
      (p.identifier ≠ existing.identifier → t.db.peer existing.identifier = none) ∧
        ∃ base addresses, t.db.peer p.identifier =
          some (loadAddresses { q with identifier := p.identifier, base := base } addresses) := by
  cases outcome with
  | updated own outcome =>
    obtain ⟨base, addresses, rfl, found⟩ := outcome.stored
    exact ⟨named.trans own.symm, fun other => absurd named other, base, addresses, found⟩
  | replaced other unknown deleted outcome =>
    obtain ⟨base, addresses, rfl, found⟩ := outcome.stored
    refine ⟨rfl, fun _ => ?_, base, addresses, found⟩
    rw [outcome.other other.symm, deleted.db, Db.peer_deletePeer_self]

/-- After an error, the peer is as it was or gone. -/
theorem UpdateOutcome.stored_of_error {err : Error}
    (outcome : UpdateOutcome client can m ui existing q s (.error err) t) :
    t.db.peer existing.identifier = s.db.peer existing.identifier ∨
      t.db.peer existing.identifier = none := by
  cases outcome with
  | refused same why => exact .inl (by rw [same.db])
  | updated own outcome => exact .inl (by rw [outcome.db_of_error])
  | undeleted other unknown outcome => exact .inl (by rw [outcome.db])
  | replaced other unknown deleted outcome =>
    exact .inr (by rw [outcome.other other.symm, deleted.db, Db.peer_deletePeer_self])

end Update

end WgPortal.WireGuard.PeerSteps
