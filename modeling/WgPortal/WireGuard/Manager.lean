import WgPortal.Adapters.Repository
import WgPortal.App.EventBus
import WgPortal.Config.Config
import WgPortal.WgController.Local

/-! The wireguard manager and what it works on: the repository, the controllers
of the backends, key generation, the clock and the event bus. Only the local
controller changes devices of the node. -/

namespace WgPortal.WireGuard

open Domain Library Adapters App Config WgController

def localBackendName : InterfaceBackend := "local"

/-- The manager of a node; `backends` are the registered controllers besides the
local one. -/
structure Manager where
  cfg : Config
  backends : List InterfaceBackend
  hasStatsCollector : Bool

/-- The backend whose controller serves an interface. -/
def Manager.getController (m : Manager) (iface : Interface) : InterfaceBackend :=
  if iface.backend ≠ "" ∧ iface.backend ∈ m.backends then iface.backend else localBackendName

/-- The order in which a loop ranges over a map, whose entries are given as a list. -/
structure MapOrder (α : Type) where
  order : List α → List α
  perm : ∀ entries, (order entries).Perm entries

def MapOrder.listed {α : Type} : MapOrder α := ⟨id, fun _ => List.Perm.refl _⟩

inductive ManagerOp where
  | repo (op : RepoOp)
  | lock (op : LockOp)
  /-- `GetPeers` of the local controller -/
  | getPeers (iface : InterfaceIdentifier)
  | savePeer (backend : InterfaceBackend) (iface : InterfaceIdentifier) (id : PeerIdentifier)
      (updateFunc : PhysicalPeer → Except Error PhysicalPeer)
  | deletePeer (backend : InterfaceBackend) (iface : InterfaceIdentifier) (id : PeerIdentifier)
  | timeNow
  | newFreshKeypair
  | newPreSharedKey
  | publish (event : Event)

abbrev ManagerOp.Res : ManagerOp → Type
  | repo op => Except Error op.Val
  | lock op => op.Res
  | getPeers _ => Except Error (List PhysicalPeer)
  | savePeer .. => Except Error Unit
  | deletePeer .. => Except Error Unit
  | timeNow => Time
  | newFreshKeypair => Except Error KeyPair
  | newPreSharedKey => Except Error String
  | publish _ => Unit

abbrev ManagerProgram := Program ManagerOp ManagerOp.Res

def ManagerProgram.issue (op : ManagerOp) : ManagerProgram op.Res := Program.perform op

def ManagerProgram.locking {α : Type} (prog : LockProgram α) : ManagerProgram α :=
  prog.embed fun op => issue (.lock op)

open ManagerProgram (issue)

/-- What a node works on. -/
structure World (w : Wgtypes) where
  db : Db
  devices : Devices w
  events : List Event

namespace World

variable {w : Wgtypes}

def setDevice (world : World w) (iface : InterfaceIdentifier) (d : Device w) : World w :=
  { world with devices := Function.update world.devices iface (some d) }

@[simp] theorem setDevice_db (world : World w) (iface : InterfaceIdentifier) (d : Device w) :
    (world.setDevice iface d).db = world.db := rfl

@[simp] theorem setDevice_events (world : World w) (iface : InterfaceIdentifier) (d : Device w) :
    (world.setDevice iface d).events = world.events := rfl

@[simp] theorem setDevice_self (world : World w) (iface : InterfaceIdentifier) (d : Device w) :
    (world.setDevice iface d).devices iface = some d := Function.update_self ..

theorem setDevice_of_ne (world : World w) {iface other : InterfaceIdentifier} (d : Device w)
    (ne : other ≠ iface) : (world.setDevice iface d).devices other = world.devices other :=
  Function.update_of_ne ne ..

@[simp] theorem setDevice_setDevice (world : World w) (iface : InterfaceIdentifier)
    (d d' : Device w) : (world.setDevice iface d).setDevice iface d' = world.setDevice iface d' := by
  simp only [setDevice, Function.update_idem]

theorem setDevice_eq_self {world : World w} {iface : InterfaceIdentifier} {d : Device w}
    (stored : world.devices iface = some d) : world.setDevice iface d = world := by
  simp only [setDevice, ← stored, Function.update_eq_self]

end World

/-- What is not determined by the state of the world: time, failures and keys. -/
structure Circumstance where
  now : Time
  fault : Option Error
  keyPair : KeyPair
  presharedKey : String

/-- An operation that fails changes nothing. -/
def ManagerOp.exec {w : Wgtypes} (client : Client w) (c : Circumstance) :
    (op : ManagerOp) → World w → op.Res × World w
  | .repo op, world =>
    let (answer, db) := op.exec c.now c.fault world.db
    (answer, { world with db := db })
  | .lock op, world =>
    let (answer, locks) := op.exec c.now c.fault world.db.nodeSyncLocks
    (answer, { world with db := { world.db with nodeSyncLocks := locks } })
  | .getPeers iface, world =>
    match c.fault with
    | some err => (.error err, world)
    | none => (LocalController.getPeers world.devices iface, world)
  | .savePeer backend iface id updateFunc, world =>
    match c.fault with
    | some err => (.error err, world)
    | none =>
      if backend = localBackendName then
        let (answer, devices) := LocalController.savePeer client world.devices iface id updateFunc
        (answer, { world with devices := devices })
      else (.ok (), world)
  | .deletePeer backend iface id, world =>
    match c.fault with
    | some err => (.error err, world)
    | none =>
      if backend = localBackendName then
        let (answer, devices) := LocalController.deletePeer client world.devices iface id
        (answer, { world with devices := devices })
      else (.ok (), world)
  | .timeNow, world => (c.now, world)
  | .newFreshKeypair, world =>
    match c.fault with
    | some err => (.error err, world)
    | none => (.ok c.keyPair, world)
  | .newPreSharedKey, world =>
    match c.fault with
    | some err => (.error err, world)
    | none => (.ok c.presharedKey, world)
  | .publish event, world => ((), { world with events := world.events ++ [event] })

/-- The operations of one call in a row, each under the circumstances of its turn. -/
def inTurn {w : Wgtypes} (client : Client w) (circumstances : ℕ → Circumstance) (op : ManagerOp)
    (s : ℕ × World w) : op.Res × (ℕ × World w) :=
  let (answer, world) := op.exec client (circumstances s.1) s.2
  (answer, (s.1 + 1, world))

/-- A call with nothing in between its operations. -/
def ManagerProgram.run {w : Wgtypes} {α : Type} (client : Client w)
    (circumstances : ℕ → Circumstance) (prog : ManagerProgram α) (world : World w) : α × World w :=
  let (result, s) := prog.eval (inTurn client circumstances) (0, world)
  (result, s.2)

/-- No operation fails. -/
def Faultless (circumstances : ℕ → Circumstance) : Prop := ∀ n, (circumstances n).fault = none

theorem inTurn_repo {w : Wgtypes} (client : Client w) {circumstances : ℕ → Circumstance}
    (faultless : Faultless circumstances) (op : RepoOp) (n : ℕ) (world : World w) :
    inTurn client circumstances (.repo op) (n, world) =
      (op.answer (circumstances n).now world.db,
        (n + 1, { world with db := op.apply (circumstances n).now world.db })) := by
  simp only [inTurn, ManagerOp.exec, RepoOp.exec, faultless n]

theorem inTurn_savePeer {w : Wgtypes} (client : Client w) {circumstances : ℕ → Circumstance}
    (faultless : Faultless circumstances) (iface : InterfaceIdentifier) (id : PeerIdentifier)
    (updateFunc : PhysicalPeer → Except Error PhysicalPeer) (n : ℕ) (world : World w) :
    inTurn client circumstances (.savePeer localBackendName iface id updateFunc) (n, world) =
      ((LocalController.savePeer client world.devices iface id updateFunc).1,
        (n + 1, { world with
          devices := (LocalController.savePeer client world.devices iface id updateFunc).2 })) := by
  simp only [inTurn, ManagerOp.exec, faultless n, if_true]

/-- The operations that leave peers, interfaces and devices alone. -/
def ManagerOp.Passive : ManagerOp → Prop
  | .repo (.commitInterface ..) | .repo (.commitPeer ..) | .repo (.deletePeer _) | .savePeer ..
  | .deletePeer .. => False
  | _ => True

/-- The worlds have the same peers, interfaces and devices. -/
structure World.SameSetup {w : Wgtypes} (s t : World w) : Prop where
  interfaces : t.db.interfaces = s.db.interfaces
  peers : t.db.peers = s.db.peers
  peerAddresses : t.db.peerAddresses = s.db.peerAddresses
  devices : t.devices = s.devices

theorem World.SameSetup.refl {w : Wgtypes} (s : World w) : s.SameSetup s := ⟨rfl, rfl, rfl, rfl⟩

theorem World.SameSetup.trans {w : Wgtypes} {s t u : World w} (first : s.SameSetup t)
    (second : t.SameSetup u) : s.SameSetup u :=
  ⟨second.interfaces.trans first.interfaces, second.peers.trans first.peers,
    second.peerAddresses.trans first.peerAddresses, second.devices.trans first.devices⟩

theorem ManagerOp.exec_passive {w : Wgtypes} {op : ManagerOp} (passive : op.Passive)
    (client : Client w) (c : Circumstance) (world : World w) :
    world.SameSetup (op.exec client c world).2 := by
  cases op with
  | repo op =>
    cases op with
    | commitInterface | commitPeer | deletePeer => cases passive
    | _ => cases fault : c.fault <;>
        simp only [ManagerOp.exec, RepoOp.exec, RepoOp.apply, fault] <;> exact ⟨rfl, rfl, rfl, rfl⟩
  | savePeer | deletePeer => cases passive
  | lock | timeNow | publish => exact ⟨rfl, rfl, rfl, rfl⟩
  | getPeers | newFreshKeypair | newPreSharedKey =>
    cases fault : c.fault <;> simp only [ManagerOp.exec, fault] <;> exact World.SameSetup.refl world

/-- An operation that fails leaves them as they are. -/
theorem ManagerOp.exec_failed {w : Wgtypes} (op : ManagerOp) (client : Client w)
    {c : Circumstance} {err : Error} (fault : c.fault = some err) (world : World w) :
    world.SameSetup (op.exec client c world).2 := by
  cases op <;> simp only [ManagerOp.exec, RepoOp.exec, fault] <;> exact ⟨rfl, rfl, rfl, rfl⟩

/-- The controllers do not touch the database. -/
theorem ManagerOp.exec_savePeer_db {w : Wgtypes} (client : Client w) (c : Circumstance)
    (backend : InterfaceBackend) (iface : InterfaceIdentifier) (id : PeerIdentifier)
    (updateFunc : PhysicalPeer → Except Error PhysicalPeer) (world : World w) :
    (ManagerOp.exec client c (.savePeer backend iface id updateFunc) world).2.db = world.db := by
  cases fault : c.fault <;> simp only [ManagerOp.exec, fault]
  split <;> rfl

theorem ManagerOp.exec_deletePeer_db {w : Wgtypes} (client : Client w) (c : Circumstance)
    (backend : InterfaceBackend) (iface : InterfaceIdentifier) (id : PeerIdentifier)
    (world : World w) :
    (ManagerOp.exec client c (.deletePeer backend iface id) world).2.db = world.db := by
  cases fault : c.fault <;> simp only [ManagerOp.exec, fault]
  split <;> rfl

/-- A program of passive operations. -/
theorem eval_passive {w : Wgtypes} {α : Type} {prog : ManagerProgram α}
    (uses : prog.Uses ManagerOp.Passive) (client : Client w) (circumstances : ℕ → Circumstance)
    (s : ℕ × World w) : s.2.SameSetup (prog.eval (inTurn client circumstances) s).2.2 := by
  have step : ∀ (op : ManagerOp) (t : ℕ × World w), op.Passive → s.2.SameSetup t.2 →
      s.2.SameSetup (inTurn client circumstances op t).2.2 :=
    fun op t passive same => same.trans (op.exec_passive passive client _ _)
  exact uses.eval_invariant step (World.SameSetup.refl s.2)

/-- `SqlRepo.SavePeer`: nothing is written if the update function fails. -/
def repoSavePeer (ui : ContextUserInfo) (id : PeerIdentifier)
    (updateFunc : Peer → ManagerProgram (Except Error Peer)) :
    ManagerProgram (Except Error Peer) := do
  match ← issue (.repo (.getOrCreatePeer ui.id id)) with
  | .error err => return .error err
  | .ok row =>
    match ← updateFunc row with
    | .error err => return .error err
    | .ok peer => issue (.repo (.commitPeer ui.id id peer))

/-- `SqlRepo.SaveInterface` -/
def repoSaveInterface (ui : ContextUserInfo) (id : InterfaceIdentifier)
    (updateFunc : Interface → ManagerProgram (Except Error Interface)) :
    ManagerProgram (Except Error Unit) := do
  match ← issue (.repo (.getOrCreateInterface ui.id id)) with
  | .error err => return .error err
  | .ok row =>
    match ← updateFunc row with
    | .error err => return .error err
    | .ok iface => issue (.repo (.commitInterface ui.id iface))

namespace Manager

/-- The update function of `savePeers`: the backend is written before the row. -/
def saveToBackend (m : Manager) (iface : Interface) (peer row : Peer) :
    ManagerProgram (Except Error Peer) := do
  let peer := peer.copyCalculatedAttributes row
  let merge := fun pp => .ok (mergeToPhysicalPeer pp peer m.cfg.core.forceClientIPAsAllowedIP)
  match ← issue (.savePeer (m.getController iface) peer.interfaceIdentifier peer.identifier merge) with
  | .error err => return .error (.wrap ("failed to save wireguard peer " ++ peer.identifier) err)
  | .ok _ => return .ok peer

/-- One round of the loop of `savePeers`. -/
def saveOne (m : Manager) (ui : ContextUserInfo) (peer : Peer) :
    ManagerProgram (Except Error Peer) := do
  match ← issue (.repo (.getInterface peer.interfaceIdentifier)) with
  | .error err =>
    return .error (.wrap ("unable to find interface " ++ peer.interfaceIdentifier) err)
  | .ok iface =>
    match ← repoSavePeer ui peer.identifier (m.saveToBackend iface peer) with
    | .error err => return .error (.wrap ("save failure for peer " ++ peer.identifier) err)
    | .ok saved =>
      issue (.publish (.auditPeerChanged "save" saved))
      return .ok saved

/-- The peers are saved one by one up to the first failure, and come back as
they were written. -/
def saveAll (m : Manager) (ui : ContextUserInfo) :
    List Peer → ManagerProgram (Except Error (List Peer))
  | [] => return .ok []
  | peer :: peers => do
    match ← m.saveOne ui peer with
    | .error err => return .error err
    | .ok saved =>
      match ← saveAll m ui peers with
      | .error err => return .error err
      | .ok rest => return .ok (saved :: rest)

def savePeers (m : Manager) (ui : ContextUserInfo) (peers : List Peer) :
    ManagerProgram (Except Error (List Peer)) := do
  match ← m.saveAll ui peers with
  | .error err => return .error err
  | .ok saved =>
    if saved ≠ [] then issue (.publish (.routeUpdate "peers updated"))
    return .ok saved

section Uses

variable {P : ManagerOp → Prop} {m : Manager} {ui : ContextUserInfo} {peer : Peer}

/-- `P` allows whatever saving a peer takes. -/
structure AllowsSave (P : ManagerOp → Prop) (ui : ContextUserInfo) (peer : Peer) : Prop where
  getInterface : ∀ id, P (.repo (.getInterface id))
  getOrCreatePeer : ∀ id, P (.repo (.getOrCreatePeer ui.id id))
  savePeer : ∀ backend iface id updateFunc, P (.savePeer backend iface id updateFunc)
  commitPeer : ∀ base, P (.repo (.commitPeer ui.id peer.identifier { peer with base := base }))
  publish : ∀ event, P (.publish event)

theorem uses_repoSavePeer (allows : AllowsSave P ui peer) (iface : Interface) :
    (repoSavePeer ui peer.identifier (m.saveToBackend iface peer)).Uses P := by
  refine ⟨allows.getOrCreatePeer _, fun answer => ?_⟩
  cases answer with
  | error err => trivial
  | ok row =>
    refine ⟨allows.savePeer .., fun answer => ?_⟩
    cases answer with
    | error err => trivial
    | ok _ => exact ⟨allows.commitPeer row.base, fun _ => trivial⟩

theorem uses_saveOne (allows : AllowsSave P ui peer) : (m.saveOne ui peer).Uses P := by
  refine ⟨allows.getInterface _, fun answer => ?_⟩
  cases answer with
  | error err => trivial
  | ok iface =>
    refine (uses_repoSavePeer allows iface).bind fun saved => ?_
    cases saved with
    | error err => trivial
    | ok saved => exact ⟨allows.publish _, fun _ => trivial⟩

theorem uses_savePeers (allows : AllowsSave P ui peer) : (m.savePeers ui [peer]).Uses P := by
  have all : (m.saveAll ui [peer]).Uses P := by
    refine (uses_saveOne allows).bind fun saved => ?_
    cases saved <;> trivial
  refine all.bind fun saved => ?_
  cases saved with
  | error err => trivial
  | ok saved =>
    show Program.Uses P (if saved ≠ [] then _ else _)
    split
    · exact ⟨allows.publish _, fun _ => trivial⟩
    · trivial

end Uses

end Manager

end WgPortal.WireGuard
