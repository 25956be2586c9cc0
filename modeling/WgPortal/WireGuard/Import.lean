import WgPortal.Domain.Interface
import WgPortal.WgController.SavedPeers
import WgPortal.WireGuard.Sync

/-! The import of an interface and its peers from a device, and the restoring of
stored peers to it. -/

namespace WgPortal.WireGuard

open Domain Library NetIP Adapters App Config WgController LocalController
open ManagerProgram (issue)

def ctxSystemWgImporter : UserIdentifier := "_WG_SYS_WG_IMPORTER_"

/-- The type of an interface is predicted from the number of its peers. -/
def predictedType (peers : List PhysicalPeer) : InterfaceType :=
  match peers with
  | [] => .any
  | [_] => .client
  | _ => .server

def importedInterface (backend : InterfaceBackend) (now converted : Time) (pi : PhysicalInterface)
    (peers : List PhysicalPeer) : Interface :=
  let iface := convertPhysicalInterface converted pi
  { iface with
    base := ⟨ctxSystemWgImporter, ctxSystemWgImporter, now, now⟩
    backend := backend
    peerDefAllowedIPsStr := iface.addressStr
    type := predictedType peers }

/-- The type of the peers of an interface, and how they are called. -/
def counterpart (type : InterfaceType) : InterfaceType × String :=
  match type with
  | .any => (.any, "Autodetected Peer")
  | .client => (.server, "Autodetected Endpoint")
  | .server => (.client, "Autodetected Client")
  | .unset => (.unset, "")

def importedPeer (iface : Interface) (now converted : Time) (pp : PhysicalPeer) : Peer :=
  let peer := convertPhysicalPeer converted pp
  let (type, title) := counterpart iface.type
  -- an interface without a type leaves that of the peer
  let type := if iface.type = .unset then peer.interface.type else type
  let displayName :=
    if iface.type = .unset then ""
    else title ++ " (" ++ String.ofList (peer.interface.keyPair.publicKey.toList.take 8) ++ ")"
  { peer with
    base := ⟨ctxSystemWgImporter, ctxSystemWgImporter, now, now⟩
    interfaceIdentifier := iface.identifier
    endpointPublicKey := newConfigOption iface.keyPair.publicKey true
    allowedIPsStr := newConfigOption iface.peerDefAllowedIPsStr true
    displayName := if peer.displayName = "" then displayName else peer.displayName
    interface :=
      { peer.interface with
        type := type
        addresses := pp.allowedIPs
        dnsStr := newConfigOption iface.peerDefDnsStr true
        dnsSearchStr := newConfigOption iface.peerDefDnsSearchStr true
        mtu := newConfigOption iface.peerDefMtu true
        firewallMark := newConfigOption iface.peerDefFirewallMark true
        routingTable := newConfigOption iface.peerDefRoutingTable true
        preUp := newConfigOption iface.peerDefPreUp true
        postUp := newConfigOption iface.peerDefPostUp true
        preDown := newConfigOption iface.peerDefPreDown true
        postDown := newConfigOption iface.peerDefPostDown true } }

def importPeer (ui : ContextUserInfo) (iface : Interface) (pp : PhysicalPeer) :
    ManagerProgram (Except Error Unit) := do
  let now ← issue .timeNow
  let converted ← issue .timeNow
  let peer := importedPeer iface now converted pp
  match ← repoSavePeer ui peer.identifier (fun _ => return .ok peer) with
  | .error err => return .error (.wrap "database save failed" err)
  | .ok _ => return .ok ()

def importPeers (ui : ContextUserInfo) (iface : Interface) :
    List PhysicalPeer → ManagerProgram (Except Error Unit)
  | [] => return .ok ()
  | pp :: peers => do
    match ← importPeer ui iface pp with
    | .error err => return .error (.wrap ("import of peer " ++ pp.identifier ++ " failed") err)
    | .ok _ => importPeers ui iface peers

def importInterface (ui : ContextUserInfo) (backend : InterfaceBackend) (pi : PhysicalInterface)
    (peers : List PhysicalPeer) : ManagerProgram (Except Error Unit) := do
  let now ← issue .timeNow
  let converted ← issue .timeNow
  let iface := importedInterface backend now converted pi peers
  match ← issue (.repo (.getInterface iface.identifier)) with
  | .ok _ => return .error (.other "interface already exists")
  | .error err =>
    if !err.is .notFound then return .error err
    match ← repoSaveInterface ui iface.identifier (fun _ => return .ok iface) with
    | .error err => return .error (.wrap "database save failed" err)
    | .ok _ => importPeers ui iface peers

namespace Manager

variable (m : Manager)

/-- The peers of a disabled interface are removed from the device. -/
def restorePeer (iface : Interface) (peer : Peer) : ManagerProgram (Except Error Unit) := do
  if iface.isDisabled && iface.backend = localBackendName then
    match ← issue (.deletePeer (m.getController iface) iface.identifier peer.identifier) with
    | .error err =>
      return .error (.wrap ("failed to remove peer " ++ peer.identifier ++
        " for disabled interface " ++ iface.identifier) err)
    | .ok _ => return .ok ()
  else
    let merge := fun pp => .ok (mergeToPhysicalPeer pp peer m.cfg.core.forceClientIPAsAllowedIP)
    match ← issue (.savePeer (m.getController iface) iface.identifier peer.identifier merge) with
    | .error err =>
      return .error (.wrap ("failed to create/update physical peer " ++ peer.identifier ++
        " for interface " ++ iface.identifier) err)
    | .ok _ => return .ok ()

def restorePeers (iface : Interface) : List Peer → ManagerProgram (Except Error Unit)
  | [] => return .ok ()
  | peer :: peers => do
    match ← m.restorePeer iface peer with
    | .error err => return .error err
    | .ok _ => restorePeers iface peers

end Manager

end WgPortal.WireGuard
