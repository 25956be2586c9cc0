import WgPortal.Domain.Peer
import WgPortal.Domain.User

/-! The events that the modelled functions publish, one constructor for each
topic, with the arguments of `Publish`. -/

namespace WgPortal.App

open Domain

inductive Event where
  | routeUpdate (text : String)
  | routeRemove (fwMark : ℕ) (table : Int)
  | interfaceCreated (iface : Interface)
  | interfaceUpdated (iface : Interface)
  | interfaceDeleted (iface : Interface)
  | peerCreated (peer : Peer)
  | peerDeleted (peer : Peer)
  | peerUpdated (peer : Peer)
  /-- `peer:updated` with an empty struct, for a batch -/
  | peersUpdated
  | peerInterfaceUpdated (iface : InterfaceIdentifier)
  | peerIdentifierUpdated (oldId newId : PeerIdentifier)
  | peerStateChanged (status : PeerStatus) (peer : Peer)
  | peersExpiredRemoved (ids : List PeerIdentifier)
  | peerCreatedSync (id : PeerIdentifier)
  | peerUpdatedSync (id : PeerIdentifier)
  | peerDeletedSync (id : PeerIdentifier)
  | peerSyncedLocal (id : PeerIdentifier)
  | auditPeerChanged (action : String) (peer : Peer)
  | auditInterfaceChanged (action : String) (iface : Interface)
deriving DecidableEq

def Event.topic : Event → String
  | routeUpdate _ => "route:update"
  | routeRemove .. => "route:remove"
  | interfaceCreated _ => "interface:created"
  | interfaceUpdated _ => "interface:updated"
  | interfaceDeleted _ => "interface:deleted"
  | peerCreated _ => "peer:created"
  | peerDeleted _ => "peer:deleted"
  | peerUpdated _ => "peer:updated"
  | peersUpdated => "peer:updated"
  | peerInterfaceUpdated _ => "peer:interface:updated"
  | peerIdentifierUpdated .. => "peer:identifier:updated"
  | peerStateChanged .. => "peer:state:changed"
  | peersExpiredRemoved _ => "peers:expired-removed"
  | peerCreatedSync _ => "peer:created:sync"
  | peerUpdatedSync _ => "peer:updated:sync"
  | peerDeletedSync _ => "peer:deleted:sync"
  | peerSyncedLocal _ => "peer:synced:local"
  | auditPeerChanged .. => "audit:peer:changed"
  | auditInterfaceChanged .. => "audit:interface:changed"

/-- The events about users. -/
inductive UserEvent where
  | userCreated (user : User)
  | userDeleted (user : User)
  | userUpdated (user : User)
  | userApiEnabled (user : User)
  | userApiDisabled (user : User)
  | userRegistered (user : User)
  | userDisabled (user : User)
  | userEnabled (user : User)
deriving DecidableEq

/-- The events about logins. -/
inductive AuthEvent where
  | authLogin (id : UserIdentifier)
  | auditLoginSuccess (source username : String)
  | auditLoginFailed (source username error : String)
deriving DecidableEq

end WgPortal.App
