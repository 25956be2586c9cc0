import WgPortal.WgController.Plain
import WgPortal.WireGuard.Manager

/-! The full sync of the peers on the local device with those in the database,
plain and under the distributed lock. -/

namespace WgPortal.WireGuard

open Domain Library Adapters App Config WgController
open ManagerProgram (issue locking)

/-- A peer of the device as `ListPeers` returns it. -/
def listedPeer (pp : PhysicalPeer) : Peer :=
  { Peer.zero with
    identifier := pp.identifier
    allowedIPsStr := { value := cidrsToString pp.allowedIPs, overridable := false }
    endpoint := { value := pp.endpoint, overridable := false } }

/-- `ControllerManager.ListPeers` -/
def listPeers (iface : InterfaceIdentifier) : ManagerProgram (Except Error (List Peer)) := do
  match ← issue (.getPeers iface) with
  | .error err => return .error (.wrap ("failed to list peers for iface " ++ iface) err)
  | .ok peers => return .ok (peers.map listedPeer)

/-- `ControllerManager.RemovePeer` -/
def removePeer (iface : InterfaceIdentifier) (peerID : PeerIdentifier) :
    ManagerProgram (Except Error Unit) := do
  match ← issue (.deletePeer localBackendName iface peerID) with
  | .error err =>
    return .error (.wrap ("failed to remove peer " ++ peerID ++ " from iface " ++ iface) err)
  | .ok _ => return .ok ()

/-- Only the node that is named the first one cleans up, or a node without a name. -/
def isPrimaryNode (cfg : Config) : Bool :=
  cfg.core.clusterNodeId = "" || contains cfg.core.clusterNodeId "-1"

/-- The statuses of peers that are not stored; a failure is only logged. -/
def deleteStatuses : List PeerIdentifier → ManagerProgram Unit
  | [] => return ()
  | id :: ids => do
    let _ ← issue (.repo (.deletePeerStatus id))
    deleteStatuses ids

/-- `StatisticsCollector.CleanOrphanedStatuses`, as far as it is not about metrics. -/
def cleanOrphanedStatuses (cfg : Config) : ManagerProgram Unit := do
  if !isPrimaryNode cfg then return ()
  match ← issue (.repo .getAllPeers) with
  | .error _ => return ()
  | .ok valid =>
    match ← issue (.repo .getAllPeerStatuses) with
    | .error _ => return ()
    | .ok statuses =>
      deleteStatuses ((statuses.map PeerStatus.peerId).filter (· ∉ valid))

/-- The listed peer and the stored one are equal. -/
def skips (existing : List Peer) (peer : Peer) : Bool :=
  match existing.find? (·.identifier = peer.identifier) with
  | some existingPeer => existingPeer.equals peer
  | none => false

/-- The listed peers that are not stored. -/
def stalePeers (order : MapOrder Peer) (existing newPeers : List Peer) : List PeerIdentifier :=
  ((order.order existing).filter fun p => newPeers.all (·.identifier ≠ p.identifier)).map
    Peer.identifier

/-- The stored peers that are not listed, or listed with another configuration. -/
def peersToUpdate (order : MapOrder Peer) (existing newPeers : List Peer) : List Peer :=
  (order.order newPeers).filter fun p => !skips existing p

/-- A failure is only logged. -/
def removePeers (iface : InterfaceIdentifier) : List PeerIdentifier → ManagerProgram Unit
  | [] => return ()
  | id :: ids => do
    let _ ← removePeer iface id
    removePeers iface ids

namespace Manager

/-- The enabled ones of the peers are saved; one event is for all of them. -/
def applyPeers (m : Manager) (ui : ContextUserInfo) (noFanout : Bool) (peers : List Peer) :
    ManagerProgram (Except Error Unit) := do
  let enabledPeers := peers.filter fun p => !p.isDisabled
  if enabledPeers.isEmpty then return .ok ()
  match ← m.savePeers ui enabledPeers with
  | .error err => return .error (.wrap "apply peers batch failed" err)
  | .ok _ =>
    if !noFanout then issue (.publish .peersUpdated)
    return .ok ()

/-- One round of the loop over the interfaces: the number of enabled peers. A
failure is only logged. -/
def syncInterface (m : Manager) (order : MapOrder Peer) (ui : ContextUserInfo) (noFanout : Bool)
    (iface : Interface) : ManagerProgram ℕ := do
  match ← issue (.repo (.getInterfacePeers iface.identifier)) with
  | .error _ => return 0
  | .ok peers =>
    match ← listPeers iface.identifier with
    | .error _ => return 0
    | .ok existing =>
      let newPeers := peers.filter fun p => !p.isDisabled
      removePeers iface.identifier (stalePeers order existing newPeers)
      let _ ← m.applyPeers ui noFanout (peersToUpdate order existing newPeers)
      return newPeers.length

def syncInterfaces (m : Manager) (order : MapOrder Peer) (ui : ContextUserInfo) (noFanout : Bool) :
    List Interface → ManagerProgram ℕ
  | [] => return 0
  | iface :: ifaces => do
    let loaded ← m.syncInterface order ui noFanout iface
    let rest ← syncInterfaces m order ui noFanout ifaces
    return loaded + rest

def syncAllPeersFromDB (m : Manager) (order : MapOrder Peer) (ui : ContextUserInfo)
    (noFanout : Bool) : ManagerProgram (ℕ × Option Error) := do
  match validateAdminAccessRights ui with
  | .error err => return (0, some err)
  | .ok _ =>
    if m.hasStatsCollector then cleanOrphanedStatuses m.cfg
    match ← issue (.repo .getAllInterfaces) with
    | .error err => return (0, some (.wrap "list interfaces" err))
    | .ok ifaces =>
      let totalLoaded ← m.syncInterfaces order ui noFanout ifaces
      return (totalLoaded, none)

end Manager

def syncLockKey : String := "peer:sync"
def syncLockDuration : Duration := 5 * minute

namespace SqlRepo

/-- `SqlRepo.SyncAllPeersFromDB` -/
def syncAllPeersFromDB : ManagerProgram (ℕ × Option Error) := return (0, none)

/-- Without the lock nothing is synced. Expired locks are cleaned up afterwards. -/
def syncAllPeersFromDBWithLock (nodeID : String) : ManagerProgram (ℕ × Option Error) := do
  match ← locking (acquireLock syncLockKey nodeID syncLockDuration) with
  | (_, some _) => return (0, none)
  | (_, none) =>
    let result ← syncAllPeersFromDB
    let _ ← locking (releaseLock syncLockKey nodeID)
    let _ ← locking cleanupExpiredLocks
    return result

end SqlRepo

/-- The repository supports locks, so it does the sync. -/
def Manager.syncAllPeersFromDBWithLock (ui : ContextUserInfo) (nodeID : String) :
    ManagerProgram (ℕ × Option Error) :=
  match validateAdminAccessRights ui with
  | .error err => return (0, some err)
  | .ok _ => SqlRepo.syncAllPeersFromDBWithLock nodeID

variable {w : Wgtypes} (client : Client w) {circumstances : ℕ → Circumstance}

/-- The peers of a device as `ListPeers` returns them. -/
def listed (d : Device w) : List Peer :=
  d.peers.rows.map fun peer => listedPeer (LocalController.convertWireGuardPeer peer)

theorem eval_listPeers (faultless : Faultless circumstances) {world : World w} {d : Device w}
    {iface : InterfaceIdentifier} (stored : world.devices iface = some d) (n : ℕ) :
    (listPeers iface).eval (inTurn client circumstances) (n, world) =
      (.ok (listed d), (n + 1, world)) := by
  simp [listPeers, issue, inTurn, ManagerOp.exec, faultless n, LocalController.getPeers,
    LocalController.device, stored, listed]

/-- The peers with these identifiers are removed from the device. -/
theorem eval_removePeers (faultless : Faultless circumstances) {iface : InterfaceIdentifier}
    (ids : List PeerIdentifier) {world : World w} {d : Device w}
    (stored : world.devices iface = some d) (n : ℕ) :
    ∃ d' m, (removePeers iface ids).eval (inTurn client circumstances) (n, world) =
        ((), (m, world.setDevice iface d')) ∧
      ∀ k, if ∃ id ∈ ids, w.parseKey id = some k then d'.find k = none
        else Option.Rel WgPeer.Same (d'.find k) (d.find k) := by
  induction ids generalizing world d n with
  | nil =>
    refine ⟨d, n, ?_, fun k => ?_⟩
    · rw [World.setDevice_eq_self stored]
      rfl
    · simpa using WgPeer.rel_refl (d.find k)
  | cons id ids ih =>
    cases valid : w.parseKey id with
    | none =>
      obtain ⟨d', m, run, spec⟩ := ih stored (n + 1)
      refine ⟨d', m, ?_, fun k => ?_⟩
      · simp only [removePeers, removePeer, issue, Program.perform_bind, Program.call_bind,
          Program.eval_call, inTurn, ManagerOp.exec, faultless n, LocalController.deletePeer, valid]
        exact run
      · simpa [valid] using spec k
    | some key =>
      let d₁ := client.configurePeer d (LocalController.deletePeerConfig id)
      have outcome : ∀ k, (LocalController.deletePeerConfig id).outcome d k =
          if k = key then none else d.find k := by
        intro k
        simp [PeerConfig.outcome, LocalController.deletePeerConfig, toPublicKey, valid,
          PeerConfig.named]
      obtain ⟨d', m, run, spec⟩ := ih (World.setDevice_self world iface d₁) (n + 1)
      refine ⟨d', m, ?_, fun k => ?_⟩
      · rw [World.setDevice_setDevice] at run
        simp only [removePeers, removePeer, issue, Program.perform_bind, Program.call_bind,
          Program.eval_call, inTurn, ManagerOp.exec, faultless n, localBackendName, if_true,
          LocalController.deletePeer_eq stored valid]
        exact run
      · have first := client.find_of_same (outcome k)
        have later := spec k
        by_cases among : ∃ id ∈ ids, w.parseKey id = some k
        · rw [if_pos among] at later
          have removed : ∃ other ∈ id :: ids, w.parseKey other = some k := by
            obtain ⟨other, hother, parsed⟩ := among
            exact ⟨other, List.mem_cons_of_mem _ hother, parsed⟩
          rwa [if_pos removed]
        · rw [if_neg among] at later
          by_cases same : k = key
          · rw [if_pos ⟨id, List.mem_cons_self, valid.trans (congrArg some same.symm)⟩]
            rw [if_pos same] at first
            exact Table.rel_none (WgPeer.rel_trans later first)
          · have kept : ¬ ∃ other ∈ id :: ids, w.parseKey other = some k := by
              simp only [List.mem_cons, exists_eq_or_imp, valid, Option.some.injEq, not_or]
              exact ⟨fun h => same h.symm, among⟩
            rw [if_neg kept]
            rw [if_neg same] at first
            exact WgPeer.rel_trans later first

/-- The peers that a sync finds in the database for an interface. -/
def enabledPeers (db : Db) (iface : InterfaceIdentifier) : List Peer :=
  (db.getInterfacePeers iface).filter fun p => !p.isDisabled

/-- A round of the sync removes the stale peers and applies the others. -/
theorem eval_syncInterface (faultless : Faultless circumstances) (m : Manager)
    (order : MapOrder Peer) (ui : ContextUserInfo) (noFanout : Bool) (iface : Interface)
    {world : World w} {d : Device w} (stored : world.devices iface.identifier = some d) (n : ℕ) :
    ∃ d' k, (∀ key, if ∃ id ∈ stalePeers order (listed d) (enabledPeers world.db iface.identifier),
          w.parseKey id = some key then d'.find key = none
        else Option.Rel WgPeer.Same (d'.find key) (d.find key)) ∧
      (m.syncInterface order ui noFanout iface).eval (inTurn client circumstances) (n, world) =
        ((enabledPeers world.db iface.identifier).length,
          ((m.applyPeers ui noFanout
              (peersToUpdate order (listed d) (enabledPeers world.db iface.identifier))).eval
            (inTurn client circumstances) (k, world.setDevice iface.identifier d')).2) := by
  obtain ⟨d', k, run, spec⟩ := eval_removePeers client faultless
    (stalePeers order (listed d) (enabledPeers world.db iface.identifier)) stored (n + 2)
  refine ⟨d', k, spec, ?_⟩
  have loaded : inTurn client circumstances (.repo (.getInterfacePeers iface.identifier)) (n, world) =
      (.ok (world.db.getInterfacePeers iface.identifier), (n + 1, world)) := by
    simp only [inTurn, ManagerOp.exec, RepoOp.exec, faultless n, RepoOp.answer, RepoOp.apply]
  simp only [Manager.syncInterface, issue, Program.perform_bind, Program.eval_call, loaded,
    Program.eval_bind, eval_listPeers client faultless stored]
  exact congrArg (Prod.mk _) (by rw [← enabledPeers, run])

theorem deleteStatuses_passive (ids : List PeerIdentifier) :
    (deleteStatuses ids).Uses ManagerOp.Passive := by
  induction ids with
  | nil => trivial
  | cons id ids ih => exact ⟨trivial, fun _ => ih⟩

theorem cleanOrphanedStatuses_passive (cfg : Config) :
    (cleanOrphanedStatuses cfg).Uses ManagerOp.Passive := by
  unfold cleanOrphanedStatuses
  split
  · trivial
  · refine ⟨trivial, fun valid => ?_⟩
    cases valid with
    | error err => trivial
    | ok valid =>
      refine ⟨trivial, fun statuses => ?_⟩
      cases statuses with
      | error err => trivial
      | ok statuses => exact deleteStatuses_passive _

theorem enabledPeers_congr {world world' : World w} (same : world.SameSetup world')
    (iface : InterfaceIdentifier) :
    enabledPeers world'.db iface = enabledPeers world.db iface := by
  rw [enabledPeers, enabledPeers, Db.getInterfacePeers_congr same.peers same.peerAddresses]

/-- The plain sync of an admin, after the statuses were cleaned up. -/
theorem run_plain (faultless : Faultless circumstances) (m : Manager) (order : MapOrder Peer)
    {ui : ContextUserInfo} (admin : ui.isAdmin = true) (noFanout : Bool) (world : World w) :
    ∃ n world', world.SameSetup world' ∧
      ((m.syncAllPeersFromDB order ui noFanout).run client circumstances world).1.1 =
        ((m.syncInterfaces order ui noFanout world.db.interfaces.rows).eval
          (inTurn client circumstances) (n, world')).1 ∧
      ((m.syncAllPeersFromDB order ui noFanout).run client circumstances world).2 =
        ((m.syncInterfaces order ui noFanout world.db.interfaces.rows).eval
          (inTurn client circumstances) (n, world')).2.2 := by
  have listed : ∀ (s : ℕ × World w), inTurn client circumstances (.repo .getAllInterfaces) s =
      (.ok s.2.db.interfaces.rows, (s.1 + 1, s.2)) := by
    intro s
    simp only [inTurn, ManagerOp.exec, RepoOp.exec, faultless s.1, RepoOp.answer, RepoOp.apply,
      Db.getAllInterfaces]
  have allowed : validateAdminAccessRights ui = .ok () := by
    simp only [validateAdminAccessRights, admin, if_true]
  cases collector : m.hasStatsCollector with
  | false =>
    refine ⟨1, world, World.SameSetup.refl world, ?_⟩
    simp [ManagerProgram.run, Manager.syncAllPeersFromDB, allowed, collector, issue, listed,
      Program.eval_bind]
  | true =>
    let cleaned := (cleanOrphanedStatuses m.cfg).eval (inTurn client circumstances) (0, world)
    have setup : world.SameSetup cleaned.2.2 :=
      eval_passive (cleanOrphanedStatuses_passive m.cfg) client circumstances (0, world)
    refine ⟨cleaned.2.1 + 1, cleaned.2.2, setup, ?_⟩
    have interfaces := setup.interfaces
    simp [ManagerProgram.run, Manager.syncAllPeersFromDB, allowed, collector, issue, listed,
      Program.eval_bind, ← interfaces, cleaned]

def admin : ContextUserInfo := ⟨"admin", true⟩

def calm (_ : ℕ) : Circumstance := ⟨10, none, ⟨"", ""⟩, ""⟩

def singleNode : Manager := ⟨masterConfig, [], false⟩

/-- An enabled peer with its own address. -/
def enabledPeer (id : PeerIdentifier) : Peer :=
  { Peer.zero with
    identifier := id, interfaceIdentifier := "wg0"
    interface := { Peer.zero.interface with keyPair := ⟨"", id⟩, type := .client } }

/-- One interface with a device, and stored peers. -/
def oneInterface (d : Device plainTypes) (peers : List Peer) : World plainTypes where
  db := peers.foldl (fun db peer => db.commitPeer "admin" 0 peer.identifier peer)
    { Db.empty with interfaces := Table.empty.upsert { Interface.zero with identifier := "wg0" } }
  devices := fun id => if id = "wg0" then some d else none
  events := []

def key : PeerIdentifier := "AAAAAAAAAAAAAAAAAAAAAAAAAAAAAAAAAAAAAAAAAAE="

end WgPortal.WireGuard
