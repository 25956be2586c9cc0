import WgPortal.WireGuard.Import

/-! Saving an interface and restoring all interfaces with their peers. Devices
are those of all backends, each with its interface and its peers by public key:
saving a peer there stores it, or removes it if its extras say it is disabled. -/

namespace WgPortal.WireGuard

open Domain Library Adapters App Config WgController

def disabledReasonInterfaceMissing : String := "missing WireGuard interface"

/-- The commands of an interface that goes up or down. -/
inductive Hook where
  | preUp
  | postUp
  | preDown
  | postDown
deriving DecidableEq

def Hook.name : Hook → String
  | preUp => "pre-up"
  | postUp => "post-up"
  | preDown => "pre-down"
  | postDown => "post-down"

inductive InterfaceOp where
  | manager (op : ManagerOp)
  /-- `upsertInterface`; answers with the interface as written -/
  | commitInterface (userId : UserIdentifier) (iface : Interface)
  /-- `GetInterface` of a controller -/
  | getInterface (backend : InterfaceBackend) (id : InterfaceIdentifier)
  /-- `SaveInterface` of a controller -/
  | saveInterface (backend : InterfaceBackend) (id : InterfaceIdentifier)
      (updateFunc : PhysicalInterface → Except Error PhysicalInterface)
  /-- `GetPeers` of a controller -/
  | getPeers (backend : InterfaceBackend) (id : InterfaceIdentifier)
  | setDNS (id : InterfaceIdentifier) (dnsStr dnsSearchStr : String)
  | unsetDNS (id : InterfaceIdentifier)
  | executeInterfaceHook (id : InterfaceIdentifier) (hook : Hook) (hookCmd : String)

abbrev InterfaceOp.Res : InterfaceOp → Type
  | manager op => op.Res
  | commitInterface .. => Except Error Interface
  | getInterface .. => Except Error PhysicalInterface
  | saveInterface .. => Except Error Unit
  | getPeers .. => Except Error (List PhysicalPeer)
  | setDNS .. => Except Error Unit
  | unsetDNS _ => Except Error Unit
  | executeInterfaceHook .. => Except Error Unit

abbrev InterfaceProgram := Program InterfaceOp InterfaceOp.Res

namespace InterfaceProgram

def issue (op : InterfaceOp) : InterfaceProgram op.Res := Program.perform op

def lift {α : Type} (prog : ManagerProgram α) : InterfaceProgram α :=
  prog.embed fun op => issue (.manager op)

theorem lift_issue_bind {α : Type} (op : ManagerOp) (f : op.Res → ManagerProgram α) :
    lift (ManagerProgram.issue op >>= f) = issue (.manager op) >>= fun answer => lift (f answer) :=
  rfl

theorem lift_bind {α β : Type} (p : ManagerProgram α) (f : α → ManagerProgram β) :
    lift (p >>= f) = lift p >>= fun a => lift (f a) := Program.embed_bind _ p f

end InterfaceProgram

open InterfaceProgram (issue lift)

structure PhysicalDevice where
  interface : PhysicalInterface
  peers : Table fun pp : PhysicalPeer => pp.keyPair.publicKey

/-- What a node works on, with the devices of all backends. -/
structure Site where
  db : Db
  devices : InterfaceBackend → InterfaceIdentifier → Option PhysicalDevice
  events : List Event

def importSourceOf (backend : InterfaceBackend) : String :=
  if backend = localBackendName then controllerTypeLocal else controllerTypeMikrotik

namespace PhysicalDevice

/-- An interface that was just created. -/
def freshInterface (backend : InterfaceBackend) (id : InterfaceIdentifier) : PhysicalInterface where
  identifier := id
  keyPair := ⟨"", ""⟩
  listenPort := 0
  addresses := []
  mtu := 0
  firewallMark := 0
  deviceUp := false
  importSource := importSourceOf backend
  deviceType := ""
  backendExtras := none

/-- A peer that was just created. -/
def freshPeer (id : PeerIdentifier) : PhysicalPeer :=
  { PhysicalPeer.zero with identifier := id, keyPair := ⟨"", id⟩ }

/-- A peer as the controller of the backend reports it. -/
def reported (backend : InterfaceBackend) (pp : PhysicalPeer) : PhysicalPeer :=
  { pp with importSource := importSourceOf backend }

/-- The peer handed to the update function of `SavePeer`. -/
def getOrCreatePeer (backend : InterfaceBackend) (found : Option PhysicalPeer)
    (id : PeerIdentifier) : PhysicalPeer :=
  reported backend (found.getD (freshPeer id))

def extrasDisabled (pp : PhysicalPeer) : Bool :=
  match pp.backendExtras with
  | some (.local extras) => extras.disabled
  | some (.mikrotik extras) => extras.disabled
  | none => false

def put (d : PhysicalDevice) (id : PeerIdentifier) (pp : PhysicalPeer) : PhysicalDevice :=
  if extrasDisabled pp then { d with peers := d.peers.filter (·.keyPair.publicKey ≠ id) }
  else { d with peers := d.peers.upsert pp }

def drop (d : PhysicalDevice) (id : PeerIdentifier) : PhysicalDevice :=
  { d with peers := d.peers.filter (·.keyPair.publicKey ≠ id) }

end PhysicalDevice

namespace Site

def setDevice (site : Site) (backend : InterfaceBackend) (id : InterfaceIdentifier)
    (d : PhysicalDevice) : Site :=
  { site with
    devices := Function.update site.devices backend
      (Function.update (site.devices backend) id (some d)) }

open PhysicalDevice

def saveInterface (site : Site) (backend : InterfaceBackend) (id : InterfaceIdentifier)
    (updateFunc : PhysicalInterface → Except Error PhysicalInterface) :
    Except Error Unit × Site :=
  let existing := site.devices backend id
  match updateFunc ((existing.map PhysicalDevice.interface).getD (freshInterface backend id)) with
  | .error err => (.error err, site)
  | .ok pi =>
    let peers := (existing.map PhysicalDevice.peers).getD Table.empty
    (.ok (), site.setDevice backend id ⟨pi, peers⟩)

def getPeers (site : Site) (backend : InterfaceBackend) (id : InterfaceIdentifier) :
    Except Error (List PhysicalPeer) :=
  match site.devices backend id with
  | none => .error errNotExist
  | some d => .ok (d.peers.rows.map (reported backend))

def savePeer (site : Site) (backend : InterfaceBackend) (iface : InterfaceIdentifier)
    (id : PeerIdentifier) (updateFunc : PhysicalPeer → Except Error PhysicalPeer) :
    Except Error Unit × Site :=
  match site.devices backend iface with
  | none => (.error errNotExist, site)
  | some d =>
    match updateFunc (getOrCreatePeer backend (d.peers.find id) id) with
    | .error err => (.error err, site)
    | .ok pp => (.ok (), site.setDevice backend iface (d.put id pp))

def deletePeer (site : Site) (backend : InterfaceBackend) (iface : InterfaceIdentifier)
    (id : PeerIdentifier) : Except Error Unit × Site :=
  match site.devices backend iface with
  | none => (.error errNotExist, site)
  | some d => (.ok (), site.setDevice backend iface (d.drop id))

end Site

/-- The failures of `GetPeers` stand apart. -/
structure SiteCircumstance extends Circumstance where
  unlisted : Option Error

def calmSite : SiteCircumstance := ⟨⟨9, none, ⟨"", ""⟩, ""⟩, none⟩

/-- The answer of an operation that fails under the circumstances or else does
its work. -/
def attempted {β : Type} (fault : Option Error) (work : Except Error β × Site) (site : Site) :
    Except Error β × Site :=
  match fault with
  | some err => (.error err, site)
  | none => work

def ManagerOp.execSite (c : SiteCircumstance) : (op : ManagerOp) → Site → op.Res × Site
  | .repo op, site =>
    let (answer, db) := op.exec c.now c.fault site.db
    (answer, { site with db := db })
  | .lock op, site =>
    let (answer, locks) := op.exec c.now c.fault site.db.nodeSyncLocks
    (answer, { site with db := { site.db with nodeSyncLocks := locks } })
  | .getPeers iface, site => attempted c.unlisted (site.getPeers localBackendName iface, site) site
  | .savePeer backend iface id updateFunc, site =>
    attempted c.fault (site.savePeer backend iface id updateFunc) site
  | .deletePeer backend iface id, site =>
    attempted c.fault (site.deletePeer backend iface id) site
  | .timeNow, site => (c.now, site)
  | .newFreshKeypair, site => attempted c.fault (.ok c.keyPair, site) site
  | .newPreSharedKey, site => attempted c.fault (.ok c.presharedKey, site) site
  | .publish event, site => ((), { site with events := site.events ++ [event] })

def InterfaceOp.exec (c : SiteCircumstance) : (op : InterfaceOp) → Site → op.Res × Site
  | .manager op, site => op.execSite c site
  | .commitInterface userId iface, site =>
    let written := { iface with base := { iface.base with updatedBy := userId, updatedAt := c.now } }
    attempted c.fault
      (.ok written, { site with db := site.db.commitInterface userId c.now iface }) site
  | .getInterface backend id, site =>
    attempted c.fault
      (match site.devices backend id with
        | some d => .ok d.interface
        | none => .error errNotExist, site) site
  | .saveInterface backend id updateFunc, site =>
    attempted c.fault (site.saveInterface backend id updateFunc) site
  | .getPeers backend id, site => attempted c.unlisted (site.getPeers backend id, site) site
  | .setDNS _ dnsStr dnsSearchStr, site =>
    attempted (if dnsStr = "" ∧ dnsSearchStr = "" then none else c.fault) (.ok (), site) site
  | .unsetDNS _, site => attempted c.fault (.ok (), site) site
  | .executeInterfaceHook _ _ hookCmd, site =>
    attempted (if hookCmd = "" then none else c.fault) (.ok (), site) site

/-- The operations in a row, each under the circumstances of its turn. -/
def siteTurn (circumstances : ℕ → SiteCircumstance) (op : InterfaceOp) (s : ℕ × Site) :
    op.Res × (ℕ × Site) :=
  let (answer, site) := op.exec (circumstances s.1) s.2
  (answer, (s.1 + 1, site))

/-- `SqlRepo.SaveInterface`, answering with the interface as written -/
def saveInterfaceRow (ui : ContextUserInfo) (id : InterfaceIdentifier)
    (updateFunc : Interface → InterfaceProgram (Except Error Interface)) :
    InterfaceProgram (Except Error Interface) := do
  match ← issue (.manager (.repo (.getOrCreateInterface ui.id id))) with
  | .error err => return .error err
  | .ok row =>
    match ← updateFunc row with
    | .error err => return .error err
    | .ok iface => issue (.commitInterface ui.id iface)

namespace Manager

variable (m : Manager) (ui : ContextUserInfo)

def getInterfaceStateHistory (iface : Interface) : InterfaceProgram (Bool × Bool) := do
  match ← issue (.manager (.repo (.getInterface iface.identifier))) with
  -- an interface that did not exist was not enabled
  | .error _ => return (false, !iface.isDisabled)
  | .ok oldInterface => return (!oldInterface.isDisabled, !iface.isDisabled)

/-- A hook of an interface that goes up or down. -/
def handleInterfaceHooks (id : InterfaceIdentifier) (up down : String) (upHook downHook : Hook)
    (oldEnabled newEnabled : Bool) : InterfaceProgram (Except Error Unit) := do
  if oldEnabled = newEnabled then return .ok ()
  else if newEnabled then
    match ← issue (.executeInterfaceHook id upHook up) with
    | .error err => return .error (.wrap ("failed to execute " ++ upHook.name ++ " hook") err)
    | .ok _ => return .ok ()
  else
    match ← issue (.executeInterfaceHook id downHook down) with
    | .error err => return .error (.wrap ("failed to execute " ++ downHook.name ++ " hook") err)
    | .ok _ => return .ok ()

def handleInterfacePreSaveHooks (iface : Interface) :
    Bool → Bool → InterfaceProgram (Except Error Unit) :=
  handleInterfaceHooks iface.identifier iface.preUp iface.preDown .preUp .preDown

def handleInterfacePostSaveHooks (iface : Interface) :
    Bool → Bool → InterfaceProgram (Except Error Unit) :=
  handleInterfaceHooks iface.identifier iface.postUp iface.postDown .postUp .postDown

def handleInterfacePreSaveActions (iface : Interface) : InterfaceProgram (Except Error Unit) := do
  if !iface.isDisabled then
    match ← issue (.setDNS iface.identifier iface.dnsStr iface.dnsSearchStr) with
    | .error err => return .error (.wrap "failed to update dns settings" err)
    | .ok _ => return .ok ()
  else
    match ← issue (.unsetDNS iface.identifier) with
    | .error err => return .error (.wrap "failed to clear dns settings" err)
    | .ok _ => return .ok ()

/-- The update function of `saveInterface`: the backend is written before the row. -/
def saveToController (iface row : Interface) : InterfaceProgram (Except Error Interface) := do
  let iface := iface.copyCalculatedAttributes row
  match ← issue (.saveInterface (m.getController iface) iface.identifier
      fun pi => .ok (mergeToPhysicalInterface pi iface)) with
  | .error err => return .error (.wrap ("failed to save physical interface " ++ iface.identifier) err)
  | .ok _ => return .ok iface

def announceInterface (iface : Interface) : InterfaceProgram Unit := do
  if iface.isDisabled then
    let physicalInterface ← issue (.getInterface (m.getController iface) iface.identifier)
    let fwMark := match physicalInterface with
      | .ok pi => if iface.firewallMark = 0 then pi.firewallMark else iface.firewallMark
      | .error _ => iface.firewallMark
    issue (.manager (.publish (.routeRemove fwMark iface.getRoutingTable)))
  else
    issue (.manager (.publish (.routeUpdate ("interface updated: " ++ iface.identifier))))

/-- The loop of `saveInterface` over the peers of an enabled interface. -/
def restoreEnabledPeers (iface : Interface) : List Peer → InterfaceProgram (Except Error Unit)
  | [] => return .ok ()
  | peer :: peers => do
    match ← issue (.manager (.savePeer (m.getController iface) iface.identifier peer.identifier
        fun pp => .ok (mergeToPhysicalPeer pp peer m.cfg.core.forceClientIPAsAllowedIP))) with
    | .error err =>
      return .error (.wrap ("failed to restore peer " ++ peer.identifier ++ " for interface " ++
        iface.identifier) err)
    | .ok _ => restoreEnabledPeers iface peers

/-- An interface that has just been enabled gets its peers back. -/
def handleEnabled (iface : Interface) (oldEnabled newEnabled : Bool) :
    InterfaceProgram (Except Error Unit) := do
  if !oldEnabled && newEnabled && iface.backend = localBackendName then
    match ← issue (.manager (.repo (.getInterfacePeers iface.identifier))) with
    | .error err =>
      return .error (.wrap ("failed to load peers for interface " ++ iface.identifier) err)
    | .ok peers =>
      match ← m.restoreEnabledPeers iface peers with
      | .error err => return .error err
      | .ok _ =>
        issue (.manager (.publish (.peerInterfaceUpdated iface.identifier)))
        return .ok ()
  else return .ok ()

/-- What is left to do once the interface is written. -/
def finishSave (iface : Interface) (oldEnabled newEnabled : Bool) :
    InterfaceProgram (Except Error Unit) := do
  m.announceInterface iface
  match ← handleInterfacePostSaveHooks iface oldEnabled newEnabled with
  | .error err => return .error (.wrap "post-save hooks failed" err)
  | .ok _ =>
    match ← m.handleEnabled iface oldEnabled newEnabled with
    | .error err => return .error err
    | .ok _ =>
      issue (.manager (.publish (.auditInterfaceChanged "save" iface)))
      return .ok ()

/-- The result comes with the interface as the call leaves it. -/
def saveInterface (iface : Interface) : InterfaceProgram (Except Error Unit × Interface) := do
  match iface.validate with
  | .error err => return (.error (.wrap "interface validation failed" err), iface)
  | .ok iface =>
    let (oldEnabled, newEnabled) ← getInterfaceStateHistory iface
    match ← handleInterfacePreSaveHooks iface oldEnabled newEnabled with
    | .error err => return (.error (.wrap "pre-save hooks failed" err), iface)
    | .ok _ =>
      match ← handleInterfacePreSaveActions iface with
      | .error err => return (.error (.wrap "pre-save actions failed" err), iface)
      | .ok _ =>
        match ← saveInterfaceRow ui iface.identifier (m.saveToController iface) with
        | .error err => return (.error (.wrap "failed to save interface" err), iface)
        | .ok iface =>
          let result ← m.finishSave iface oldEnabled newEnabled
          return (result, iface)

/-- `saveInterface`, tried again up to so many times. -/
def saveWithRetries : ℕ → Interface → InterfaceProgram (Except Error Unit × Interface)
  | 0, iface => m.saveInterface ui iface
  | retries + 1, iface => do
    match ← m.saveInterface ui iface with
    | (.ok _, iface) => return (.ok (), iface)
    | (.error _, iface) => saveWithRetries retries iface

def maxRestoreRetries : ℕ := 10

def attempts : String := toString (maxRestoreRetries + 1)

def disableMissing (row : Interface) : InterfaceProgram (Except Error Interface) := do
  let now ← issue (.manager .timeNow)
  return .ok { row with disabled := some now, disabledReason := disabledReasonInterfaceMissing }

/-- The branch of `RestoreInterfaceState` for an enabled interface without a device. -/
def restoreMissing (updateDbOnError : Bool) (iface : Interface) :
    InterfaceProgram (Except Error Interface) := do
  let originalIface := { iface with saveConfig := m.cfg.advanced.configStoragePath ≠ "" }
  -- disabled in the database until the device exists; a failure is ignored
  let _ ← saveInterfaceRow ui iface.identifier disableMissing
  match ← m.saveWithRetries ui maxRestoreRetries originalIface with
  | (.error err, _) =>
    if updateDbOnError then
      let _ ← saveInterfaceRow ui iface.identifier disableMissing
    return .error (.wrap ("failed to create physical interface " ++ iface.identifier ++ " after " ++
      attempts ++ " attempts") err)
  | (.ok _, createdIface) =>
    if createdIface.saveConfig ∧ m.cfg.advanced.configStoragePath ≠ "" then
      issue (.manager (.publish (.interfaceCreated createdIface)))
    return .ok iface

/-- The other branch. -/
def restoreExisting (updateDbOnError : Bool) (iface : Interface) :
    InterfaceProgram (Except Error Interface) := do
  match ← m.saveWithRetries ui maxRestoreRetries iface with
  | (.error err, iface) =>
    if updateDbOnError then
      let _ ← saveInterfaceRow ui iface.identifier fun row =>
        if iface.isDisabled then disableMissing row
        else return .ok { row with disabled := none, disabledReason := "" }
    return .error (.wrap ("failed to change physical interface state for " ++ iface.identifier ++
      " after " ++ attempts ++ " attempts") err)
  | (.ok _, iface) => return .ok iface

def restoreStored (updateDbOnError missing : Bool) (iface : Interface) :
    InterfaceProgram (Except Error Interface) :=
  if missing then m.restoreMissing ui updateDbOnError iface
  else m.restoreExisting ui updateDbOnError iface

/-- The peers on the device that are not stored are removed. -/
def removeForeignPeers (iface : Interface) (peers : List Peer) :
    List PhysicalPeer → InterfaceProgram (Except Error Unit)
  | [] => return .ok ()
  | physicalPeer :: physicalPeers => do
    let publicKey := physicalPeer.keyPair.publicKey
    if peers.any (·.identifier = publicKey) then removeForeignPeers iface peers physicalPeers
    else
      match ← issue (.manager (.deletePeer (m.getController iface) iface.identifier publicKey)) with
      | .error err =>
        return .error (.wrap ("failed to remove non-wgportal peer " ++ publicKey ++
          " from interface " ++ iface.identifier) err)
      | .ok _ => removeForeignPeers iface peers physicalPeers

/-- The peers of an interface that was brought to its stored state. -/
def restoreDevicePeers (iface : Interface) (peers : List Peer) :
    InterfaceProgram (Except Error Unit) := do
  match ← lift (m.restorePeers iface peers) with
  | .error err => return .error err
  | .ok _ =>
    let physicalPeers := match ← issue (.getPeers (m.getController iface) iface.identifier) with
      | .ok physicalPeers => physicalPeers
      | .error _ => []
    m.removeForeignPeers iface peers physicalPeers

def isMissing (iface : Interface) : Except Error PhysicalInterface → Bool
  | .error _ => !iface.isDisabled
  | .ok _ => false

/-- One round of the loop of `RestoreInterfaceState`. -/
def restoreInterface (updateDbOnError : Bool) (iface : Interface) :
    InterfaceProgram (Except Error Unit) := do
  match ← issue (.manager (.repo (.getInterfacePeers iface.identifier))) with
  | .error err => return .error (.wrap ("failed to load peers for " ++ iface.identifier) err)
  | .ok peers =>
    let found ← issue (.getInterface (m.getController iface) iface.identifier)
    match ← m.restoreStored ui updateDbOnError (isMissing iface found) iface with
    | .error err => return .error err
    | .ok iface => m.restoreDevicePeers iface peers

def restoreInterfaces (updateDbOnError : Bool) :
    List Interface → InterfaceProgram (Except Error Unit)
  | [] => return .ok ()
  | iface :: ifaces => do
    match ← m.restoreInterface ui updateDbOnError iface with
    | .error err => return .error err
    | .ok _ => restoreInterfaces updateDbOnError ifaces

/-- The interfaces that a filter selects; no filter selects all. -/
def selected (filter : List InterfaceIdentifier) (ifaces : List Interface) : List Interface :=
  ifaces.filter fun iface => filter = [] ∨ iface.identifier ∈ filter

def restoreInterfaceState (updateDbOnError : Bool) (filter : List InterfaceIdentifier) :
    InterfaceProgram (Except Error Unit) := do
  match validateAdminAccessRights ui with
  | .error err => return .error err
  | .ok _ =>
    match ← issue (.manager (.repo .getAllInterfaces)) with
    | .error err => return .error err
    | .ok interfaces => m.restoreInterfaces ui updateDbOnError (selected filter interfaces)

end Manager

/-- A run of `RestoreInterfaceState`. -/
def restore (m : Manager) (ui : ContextUserInfo) (updateDbOnError : Bool)
    (filter : List InterfaceIdentifier) (circumstances : ℕ → SiteCircumstance) (site : Site) :
    Except Error Unit × Site :=
  let (result, s) := (m.restoreInterfaceState ui updateDbOnError filter).eval
    (siteTurn circumstances) (0, site)
  (result, s.2)

end WgPortal.WireGuard
