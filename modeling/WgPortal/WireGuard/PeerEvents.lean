import WgPortal.WireGuard.Manager

/-! The handlers of the events that name one peer. Each brings this peer of the local
device up to date with the database, and failures are only logged. -/

namespace WgPortal.WireGuard

open Domain Library Adapters App Config WgController
open ManagerProgram (issue)

/-- Each topic has a queue, whose events are handled one after the other. -/
inductive Topic where
  | peerCreatedSync
  | peerUpdatedSync
  | peerDeletedSync
  | peerSyncedLocal
deriving DecidableEq

/-- The peer is removed from all interfaces. -/
def deleteFromInterfaces (peerID : PeerIdentifier) : List Interface → ManagerProgram Unit
  | [] => return ()
  | iface :: interfaces => do
    let _ ← issue (.deletePeer localBackendName iface.identifier peerID)
    deleteFromInterfaces peerID interfaces

/-- The interfaces are read first. -/
def deleteEverywhere (peerID : PeerIdentifier) : ManagerProgram Unit := do
  match ← issue (.repo .getAllInterfaces) with
  | .error _ => return ()
  | .ok interfaces => deleteFromInterfaces peerID interfaces

namespace Manager

variable (m : Manager)

/-- A disabled peer is deleted by the controller. -/
def saveLocally (peer : Peer) : ManagerProgram Unit := do
  let merge := fun pp => .ok (mergeToPhysicalPeer pp peer m.cfg.core.forceClientIPAsAllowedIP)
  let _ ← issue (.savePeer localBackendName peer.interfaceIdentifier peer.identifier merge)
  return ()

/-- The peer is saved as it is stored, or else `missing` is done. -/
def syncStored (missing : ManagerProgram Unit) (peerID : PeerIdentifier) : ManagerProgram Unit := do
  match ← issue (.repo (.getPeer peerID)) with
  | .error _ => missing
  | .ok peer => m.saveLocally peer

def handlePeerCreatedSyncEvent (peerID : PeerIdentifier) : ManagerProgram Unit :=
  m.syncStored (return ()) peerID

def handlePeerUpdatedSyncEvent (peerID : PeerIdentifier) : ManagerProgram Unit :=
  m.syncStored (return ()) peerID

def handlePeerDeletedSyncEvent (peerID : PeerIdentifier) : ManagerProgram Unit :=
  deleteEverywhere peerID

/-- A peer that cannot be read is taken for a deleted one. -/
def handlePeerSyncedLocalEvent (peerID : PeerIdentifier) : ManagerProgram Unit :=
  m.syncStored (deleteEverywhere peerID) peerID

def handler : Topic → PeerIdentifier → ManagerProgram Unit
  | .peerCreatedSync => m.handlePeerCreatedSyncEvent
  | .peerUpdatedSync => m.handlePeerUpdatedSyncEvent
  | .peerDeletedSync => handlePeerDeletedSyncEvent
  | .peerSyncedLocal => m.handlePeerSyncedLocalEvent

end Manager

end WgPortal.WireGuard
