import WgPortal.WireGuard.Manager
import WgPortal.WireGuard.PeerChanges

/-! The peer functions of the wireguard manager behind the API: preparing,
reading, creating, updating and deleting peers. -/

namespace WgPortal.WireGuard

open Domain Library Adapters App Config
open ManagerProgram (issue)

/-- `internal.TruncateString`, for texts of one byte a character. -/
def truncateString (s : String) (max : ℕ) : String := String.ofList (s.toList.take max)

def generateDisplayName (p : Peer) (pre : String) : Peer :=
  if p.displayName ≠ "" then p
  else
    let pre := if pre ≠ "" then String.ofList (trimSpace pre.toList) ++ " " else ""
    { p with displayName := pre ++ "Peer " ++ truncateString p.identifier 8 }

/-- The fields of a request that a self-provisioning user may set. -/
def overwriteUserEditableFields (p userPeer : Peer) (cfg : Config) : Peer :=
  let p := { p with displayName := userPeer.displayName }
  let p :=
    if cfg.core.editableKeys then
      { p with
        interface := { p.interface with keyPair := userPeer.interface.keyPair }
        presharedKey := userPeer.presharedKey
        identifier := userPeer.identifier }
    else p
  { p with
    interface := { p.interface with mtu := userPeer.interface.mtu }
    persistentKeepalive := userPeer.persistentKeepalive
    expiresAt := userPeer.expiresAt
    disabled := userPeer.disabled
    disabledReason := userPeer.disabledReason }

theorem overwriteUserEditableFields_keys (p userPeer : Peer) (cfg : Config) :
    let source := if cfg.core.editableKeys then userPeer else p
    (overwriteUserEditableFields p userPeer cfg).identifier = source.identifier ∧
      (overwriteUserEditableFields p userPeer cfg).interface.keyPair = source.interface.keyPair := by
  unfold overwriteUserEditableFields
  by_cases editable : cfg.core.editableKeys <;> simp [editable]

/-- The owner, the interface and the lock stay; the expiry is the requested one. -/
theorem overwriteUserEditableFields_frame (p userPeer : Peer) (cfg : Config) :
    let q := overwriteUserEditableFields p userPeer cfg
    q.userIdentifier = p.userIdentifier ∧ q.interfaceIdentifier = p.interfaceIdentifier ∧
      q.ttlLocked = p.ttlLocked ∧ q.expiresAt = userPeer.expiresAt ∧
      q.displayName = userPeer.displayName := by
  unfold overwriteUserEditableFields
  by_cases editable : cfg.core.editableKeys <;> simp [editable]

/-- The first address from `ip` on that is not used. Each step passes a used one,
so one more step than there are used addresses is enough. -/
def skipUsed (used : List Cidr) : ℕ → Cidr → Option Cidr
  | 0, _ => none
  | steps + 1, ip =>
    if used.any fun usedIp => usedIp.addr = ip.addr then ip.nextAddr.bind (skipUsed used steps)
    else some ip

/-- The addresses for a new peer; behind the last address the methods of `Cidr`
panic. -/
def freshIps (existingIps : UsedIps) : List Cidr → Except Error (List Cidr)
  | [] => .ok []
  | network :: networks =>
    let used := existingIps network
    match network.nextAddr.bind (skipUsed used (used.length + 1)) with
    | none => .error (.other "netip.ParsePrefix: no prefix")
    | some ip =>
      match freshIps existingIps networks with
      | .error err => .error err
      | .ok ips => .ok (ip.hostAddr :: ips)

structure PeerCreationRequest where
  userIdentifiers : List UserIdentifier
  namePrefix : String

namespace Manager

variable (m : Manager) (ui : ContextUserInfo)

def getFreshPeerIpConfig (iface : Interface) : ManagerProgram (Except Error (List Cidr)) := do
  if iface.peerDefNetworkStr = "" then return .ok []
  match cidrsFromString iface.peerDefNetworkStr with
  | none => return .error (.wrap "failed to parse default network address" (.other "invalid prefix"))
  | some networks =>
    match ← issue (.repo (.getUsedIpsPerSubnet networks)) with
    | .error err => return .error (.wrap "failed to get existing IP addresses" err)
    | .ok existingIps => return freshIps existingIps networks

/-- The peer that is proposed for an interface, with fresh keys and addresses. -/
def freshPeer (iface : Interface) (ips : List Cidr) (kp : KeyPair) (pk : String)
    (createdAt updatedAt : Time) : Peer :=
  let peer :=
    { base := ⟨ui.id, ui.id, createdAt, updatedAt⟩
      endpoint := newConfigOption iface.peerDefEndpoint true
      endpointPublicKey := newConfigOption iface.keyPair.publicKey true
      allowedIPsStr := newConfigOption (cidrsToString (ips.map Cidr.hostAddr)) true
      extraAllowedIPsStr := ""
      presharedKey := pk
      persistentKeepalive := newConfigOption iface.peerDefPersistentKeepalive true
      displayName := ""
      identifier := kp.publicKey
      userIdentifier := ui.id
      interfaceIdentifier := iface.identifier
      disabled := none
      disabledReason := ""
      expiresAt := none
      ttlLocked := false
      notes := ""
      automaticallyCreated := false
      interface :=
        { keyPair := kp
          type := if iface.type = .client then .server else .client
          addresses := ips
          checkAliveAddress := ""
          dnsStr := newConfigOption iface.peerDefDnsStr true
          dnsSearchStr := newConfigOption iface.peerDefDnsSearchStr true
          mtu := newConfigOption iface.peerDefMtu true
          firewallMark := newConfigOption iface.peerDefFirewallMark true
          routingTable := newConfigOption iface.peerDefRoutingTable true
          preUp := newConfigOption iface.peerDefPreUp true
          postUp := newConfigOption iface.peerDefPostUp true
          preDown := newConfigOption iface.peerDefPreDown true
          postDown := newConfigOption iface.peerDefPostDown true } }
  generateDisplayName peer ""

/-- What a proposed peer has under any display name. -/
theorem freshPeer_fields (iface : Interface) (ips : List Cidr) (kp : KeyPair) (pk : String)
    (createdAt updatedAt : Time) :
    let fresh := freshPeer ui iface ips kp pk createdAt updatedAt
    (fresh.identifier = kp.publicKey ∧ fresh.interface.keyPair = kp ∧
      fresh.interfaceIdentifier = iface.identifier) ∧
    fresh.userIdentifier = ui.id ∧ fresh.expiresAt = none ∧ fresh.ttlLocked = false := by
  unfold freshPeer generateDisplayName
  split <;> exact ⟨⟨rfl, rfl, rfl⟩, rfl, rfl, rfl⟩

/-- Keys are generated once there are addresses. -/
def preparePeerFor (iface : Interface) : ManagerProgram (Except Error Peer) := do
  match ← getFreshPeerIpConfig iface with
  | .error err => return .error (.wrap "unable to get fresh ip addresses" err)
  | .ok ips =>
    match ← issue .newFreshKeypair with
    | .error err => return .error (.wrap "failed to generate keys" err)
    | .ok kp =>
      match ← issue .newPreSharedKey with
      | .error err => return .error (.wrap "failed to generate preshared key" err)
      | .ok pk =>
        let createdAt ← issue .timeNow
        let updatedAt ← issue .timeNow
        return .ok (freshPeer ui iface ips kp pk createdAt updatedAt)

def preparePeer (id : InterfaceIdentifier) : ManagerProgram (Except Error Peer) := do
  let allowed := if !m.cfg.core.selfProvisioningAllowed then validateAdminAccessRights ui else .ok ()
  match allowed with
  | .error err => return .error err
  | .ok _ =>
    match ← issue (.repo (.getInterface id)) with
    | .error err => return .error (.wrap ("unable to find interface " ++ id) err)
    | .ok iface =>
      if m.cfg.core.selfProvisioningAllowed && !ui.isAdmin && iface.type ≠ .server then
        return .error (.wrap "self provisioning is only allowed for server interfaces" .noPermission)
      preparePeerFor ui iface

/-- `Manager.GetPeer`: for the API, the allowed IPs of a client are the default of
its interface. -/
def getPeer (id : PeerIdentifier) : ManagerProgram (Except Error Peer) := do
  match ← issue (.repo (.getPeer id)) with
  | .error err => return .error (.wrap ("unable to find peer " ++ id) err)
  | .ok peer =>
    match validateUserAccessRights ui peer.userIdentifier with
    | .error err => return .error err
    | .ok _ =>
      match ← issue (.repo (.getInterface peer.interfaceIdentifier)) with
      | .error _ => return .ok peer
      | .ok iface =>
        if peer.interface.type = .client then
          return .ok { peer with
            allowedIPsStr := { peer.allowedIPsStr with value := iface.peerDefAllowedIPsStr } }
        return .ok peer

/-- The limit for users that are not admins counts their enabled peers. -/
def checkPeerLimit (userId : UserIdentifier) : ManagerProgram (Except Error Unit) := do
  if m.cfg.core.selfProvisioningAllowed && !ui.isAdmin &&
      0 < m.cfg.advanced.limitAdditionalUserPeers then
    match ← issue (.repo (.getUserPeers userId)) with
    | .error err => return .error (.wrap ("failed to fetch peers for user " ++ userId) err)
    | .ok peers =>
      let peerCount := (peers.filter fun p => !p.isDisabled).length
      let totalAllowedPeers := 1 + m.cfg.advanced.limitAdditionalUserPeers
      if totalAllowedPeers ≤ peerCount then
        return .error (.wrap
          ("peer limit reached (" ++ toString totalAllowedPeers ++ " peers allowed)") .noPermission)
      return .ok ()
  return .ok ()

/-- There must be no peer with the identifier yet. -/
def checkUnknown (id : PeerIdentifier) : ManagerProgram (Except Error Unit) := do
  match ← issue (.repo (.getPeer id)) with
  | .ok _ => return .error (.wrap ("peer " ++ id ++ " already exists") .duplicateEntry)
  | .error err =>
    if !err.is .notFound then
      return .error (.wrap ("unable to load existing peer " ++ id) err)
    return .ok ()

/-- A user that is not an admin gets a prepared peer with the editable fields of
the request. -/
def selfProvisioned (peer : Peer) : ManagerProgram (Except Error Peer) := do
  if ui.isAdmin then return .ok peer
  match ← m.preparePeer ui peer.interfaceIdentifier with
  | .error err =>
    return .error (.wrap ("failed to prepare peer for interface " ++ peer.interfaceIdentifier) err)
  | .ok prepared => return .ok (overwriteUserEditableFields prepared peer m.cfg)

def validatePeerCreation (new : Peer) : ManagerProgram (Except Error Unit) := do
  if new.identifier = "" then
    return .error (.wrap "invalid peer identifier" .invalidData)
  if !ui.isAdmin && !m.cfg.core.selfProvisioningAllowed then
    return .error .noPermission
  match ← issue (.repo (.getInterface new.interfaceIdentifier)) with
  | .error _ => return .error (.wrap "invalid interface" .invalidData)
  | .ok _ => return .ok ()

/-- The same for modifications and deletions. -/
def validatePeerModifications : Except Error Unit :=
  if !ui.isAdmin && !m.cfg.core.selfProvisioningAllowed then .error .noPermission else .ok ()

def isUniqueViolation (err : Error) : Bool :=
  contains err.text "Duplicate entry" || contains err.text "UNIQUE constraint" ||
    contains err.text "unique constraint"

/-- The next address of every network, after a conflict. -/
def nextIps : List Cidr → ManagerProgram (Except Error (List Cidr))
  | [] => return .ok []
  | network :: networks => do
    match ← issue (.repo (.getNextPeerIPForSubnet network)) with
    | .error err =>
      return .error (.wrap
        ("failed to allocate IP for subnet " ++ String.ofList network.text) err)
    | .ok ip =>
      match ← nextIps networks with
      | .error err => return .error err
      | .ok ips => return .ok (ip :: ips)

/-- Save a new peer; if an address is taken, try others. -/
def saveNewPeer (failure : String) (id : InterfaceIdentifier) :
    ℕ → Peer → ManagerProgram (Except Error Peer)
  | retries, peer => do
    match ← m.savePeers ui [peer] with
    | .ok saved => return .ok (saved.headD peer)
    | .error err =>
      if isUniqueViolation err then
        match retries with
        | 0 => return .error (.wrap failure err)
        | retries + 1 =>
          match ← issue (.repo (.getInterface id)) with
          | .error err => return .error (.wrap "failed to get interface after IP conflict" err)
          | .ok iface =>
            match ← nextIps (cidrsOrNil iface.peerDefNetworkStr) with
            | .error err => return .error err
            | .ok ips =>
              saveNewPeer failure id retries
                { peer with interface := { peer.interface with addresses := ips } }
      else return .error (.wrap failure err)

def maxRetries : ℕ := 5

/-- `CreatePeer`, once the user may create the peer. -/
def createPeerChecked (peer : Peer) : ManagerProgram (Except Error Peer) := do
  match ← checkUnknown peer.identifier with
  | .error err => return .error err
  | .ok _ =>
    match ← m.selfProvisioned ui peer with
    | .error err => return .error err
    | .ok peer =>
      match ← m.validatePeerCreation ui peer with
      | .error err => return .error (.wrap "creation not allowed" err)
      | .ok _ =>
        match ← m.saveNewPeer ui "creation failure" peer.interfaceIdentifier maxRetries peer with
        | .error err => return .error err
        | .ok peer =>
          issue (.publish (.peerCreated peer))
          issue (.publish (.peerCreatedSync peer.identifier))
          return .ok peer

def createPeer (peer : Peer) : ManagerProgram (Except Error Peer) := do
  let allowed :=
    if !m.cfg.core.selfProvisioningAllowed then validateAdminAccessRights ui
    else validateUserAccessRights ui peer.userIdentifier
  match allowed with
  | .error err => return .error err
  | .ok _ =>
    match ← m.checkPeerLimit ui peer.userIdentifier with
    | .error err => return .error err
    | .ok _ => m.createPeerChecked ui peer

/-- One round of the loop of `CreateMultiplePeers`. -/
def createOneOfMultiple (interfaceId : InterfaceIdentifier) (namePrefix : String)
    (userId : UserIdentifier) : ManagerProgram (Except Error Peer) := do
  match ← m.preparePeer ui interfaceId with
  | .error err =>
    return .error (.wrap ("failed to prepare peer for interface " ++ interfaceId) err)
  | .ok fresh =>
    let fresh := { fresh with userIdentifier := userId }
    let fresh :=
      if namePrefix ≠ "" then { fresh with displayName := namePrefix ++ " " ++ fresh.displayName }
      else fresh
    match ← m.validatePeerCreation ui fresh with
    | .error err => return .error (.wrap "creation not allowed" err)
    | .ok _ =>
      match ← m.saveNewPeer ui ("failed to create new peer " ++ fresh.identifier) interfaceId
          maxRetries fresh with
      | .error err => return .error err
      | .ok peer =>
        issue (.publish (.peerCreated peer))
        issue (.publish (.peerCreatedSync peer.identifier))
        return .ok peer

/-- The peers are created one by one up to the first failure. -/
def createAll (interfaceId : InterfaceIdentifier) (namePrefix : String) :
    List UserIdentifier → ManagerProgram (Except Error (List Peer))
  | [] => return .ok []
  | userId :: userIds => do
    match ← m.createOneOfMultiple ui interfaceId namePrefix userId with
    | .error err => return .error err
    | .ok peer =>
      match ← createAll interfaceId namePrefix userIds with
      | .error err => return .error err
      | .ok peers => return .ok (peer :: peers)

def createMultiplePeers (interfaceId : InterfaceIdentifier) (r : PeerCreationRequest) :
    ManagerProgram (Except Error (List Peer)) :=
  match validateAdminAccessRights ui with
  | .error err => return .error err
  | .ok _ => m.createAll ui interfaceId r.namePrefix r.userIdentifiers

/-- `DeletePeer`, once the user may delete the peer. -/
def deletePeerChecked (id : PeerIdentifier) (peer : Peer) : ManagerProgram (Except Error Unit) := do
  match ← issue (.repo (.getInterface peer.interfaceIdentifier)) with
  | .error err =>
    return .error (.wrap ("unable to find interface " ++ peer.interfaceIdentifier) err)
  | .ok iface =>
    match ← issue (.deletePeer (m.getController iface) peer.interfaceIdentifier id) with
    | .error err => return .error (.wrap ("wireguard failed to delete peer " ++ id) err)
    | .ok _ =>
      match ← issue (.repo (.deletePeer id)) with
      | .error err => return .error (.wrap ("failed to delete peer " ++ id) err)
      | .ok _ =>
        issue (.publish (.peerDeleted peer))
        issue (.publish (.peerDeletedSync peer.identifier))
        issue (.publish (.routeUpdate "peers updated"))
        return .ok ()

def deletePeer (id : PeerIdentifier) : ManagerProgram (Except Error Unit) := do
  match ← issue (.repo (.getPeer id)) with
  | .error err => return .error (.wrap ("unable to find peer " ++ id) err)
  | .ok peer =>
    match validateUserAccessRights ui peer.userIdentifier with
    | .error err => return .error err
    | .ok _ =>
      match m.validatePeerModifications ui with
      | .error err => return .error (.wrap "delete not allowed" err)
      | .ok _ => m.deletePeerChecked id peer

/-- The peer to store for a request: of a user that is not an admin, only the
editable fields count. -/
def requestedPeer (peer : Peer) : ManagerProgram (Except Error Peer) := do
  if ui.isAdmin then return .ok peer
  match ← issue (.repo (.getPeer peer.identifier)) with
  | .error err => return .error (.wrap ("unable to load existing peer " ++ peer.identifier) err)
  | .ok original => return .ok (overwriteUserEditableFields original peer m.cfg)

/-- A peer with a new public key replaces the old one. -/
def replacePeer (existingId : PeerIdentifier) (peer : Peer) :
    ManagerProgram (Except Error Peer) := do
  match ← checkUnknown peer.identifier with
  | .error err => return .error err
  | .ok _ =>
    match ← m.deletePeer ui existingId with
    | .error err =>
      return .error (.wrap
        ("failed to delete old peer " ++ existingId ++ " for " ++ peer.identifier) err)
    | .ok _ =>
      match ← m.savePeers ui [peer] with
      | .error err =>
        return .error (.wrap
          ("update failure for re-identified peer " ++ peer.identifier ++
            " (was " ++ existingId ++ ")") err)
      | .ok saved =>
        issue (.publish (.peerIdentifierUpdated existingId peer.identifier))
        return .ok (saved.headD peer)

/-- Store the peer, under a new identifier if its public key is not the existing one. -/
def saveUpdated (existing peer : Peer) : ManagerProgram (Except Error Peer) := do
  if existing.identifier ≠ peer.interface.keyPair.publicKey then
    m.replacePeer ui existing.identifier
      { peer with identifier := peer.interface.keyPair.publicKey }
  else
    match ← m.savePeers ui [peer] with
    | .error err => return .error (.wrap "update failure" err)
    | .ok saved => return .ok (saved.headD peer)

/-- `UpdatePeer`, once the user may update the existing peer. -/
def updatePeerChecked (existing peer : Peer) : ManagerProgram (Except Error Peer) := do
  match ← m.requestedPeer ui peer with
  | .error err => return .error err
  | .ok peer =>
    match ← m.saveUpdated ui existing peer with
    | .error err => return .error err
    | .ok peer =>
      issue (.publish (.peerUpdated peer))
      if PeerChanges.hasMeaningfulChanges existing peer then
        issue (.publish (.peerUpdatedSync peer.identifier))
      return .ok peer

def updatePeer (peer : Peer) : ManagerProgram (Except Error Peer) := do
  match ← issue (.repo (.getPeer peer.identifier)) with
  | .error err => return .error (.wrap ("unable to load existing peer " ++ peer.identifier) err)
  | .ok existing =>
    match validateUserAccessRights ui existing.userIdentifier with
    | .error err => return .error err
    | .ok _ =>
      match m.validatePeerModifications ui with
      | .error err => return .error (.wrap "update not allowed" err)
      | .ok _ => m.updatePeerChecked ui existing peer

end Manager

end WgPortal.WireGuard
