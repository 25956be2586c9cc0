import WgPortal.Domain.Basic
import WgPortal.Domain.Cidr

/-! Peers, their status and the interfaces they belong to. -/

namespace WgPortal.Domain

structure KeyPair where
  privateKey : String
  publicKey : String
deriving DecidableEq

inductive InterfaceType where
  | server
  | client
  | any
  /-- the zero value -/
  | unset
deriving DecidableEq

structure PeerInterfaceConfig where
  keyPair : KeyPair
  type : InterfaceType
  addresses : List Cidr
  checkAliveAddress : String
  dnsStr : ConfigOption String
  dnsSearchStr : ConfigOption String
  mtu : ConfigOption Int
  firewallMark : ConfigOption ℕ
  routingTable : ConfigOption String
  preUp : ConfigOption String
  postUp : ConfigOption String
  preDown : ConfigOption String
  postDown : ConfigOption String
deriving DecidableEq

structure Peer where
  base : BaseModel
  endpoint : ConfigOption String
  endpointPublicKey : ConfigOption String
  allowedIPsStr : ConfigOption String
  extraAllowedIPsStr : String
  presharedKey : String
  persistentKeepalive : ConfigOption Int
  displayName : String
  identifier : PeerIdentifier
  userIdentifier : UserIdentifier
  interfaceIdentifier : InterfaceIdentifier
  disabled : Option Time
  disabledReason : String
  expiresAt : Option Time
  ttlLocked : Bool
  notes : String
  automaticallyCreated : Bool
  interface : PeerInterfaceConfig
deriving DecidableEq

/-- `domain.Peer{}` -/
def Peer.zero : Peer where
  base := ⟨"", "", 0, 0⟩
  endpoint := ⟨"", false⟩
  endpointPublicKey := ⟨"", false⟩
  allowedIPsStr := ⟨"", false⟩
  extraAllowedIPsStr := ""
  presharedKey := ""
  persistentKeepalive := ⟨0, false⟩
  displayName := ""
  identifier := ""
  userIdentifier := ""
  interfaceIdentifier := ""
  disabled := none
  disabledReason := ""
  expiresAt := none
  ttlLocked := false
  notes := ""
  automaticallyCreated := false
  interface :=
    { keyPair := ⟨"", ""⟩
      type := .unset
      addresses := []
      checkAliveAddress := ""
      dnsStr := ⟨"", false⟩
      dnsSearchStr := ⟨"", false⟩
      mtu := ⟨0, false⟩
      firewallMark := ⟨0, false⟩
      routingTable := ⟨"", false⟩
      preUp := ⟨"", false⟩
      postUp := ⟨"", false⟩
      preDown := ⟨"", false⟩
      postDown := ⟨"", false⟩ }

structure Interface where
  base : BaseModel
  identifier : InterfaceIdentifier
  keyPair : KeyPair
  listenPort : Int
  addresses : List Cidr
  dnsStr : String
  dnsSearchStr : String
  mtu : Int
  firewallMark : ℕ
  routingTable : String
  preUp : String
  postUp : String
  preDown : String
  postDown : String
  saveConfig : Bool
  displayName : String
  type : InterfaceType
  backend : InterfaceBackend
  driverType : String
  disabled : Option Time
  disabledReason : String
  peerDefNetworkStr : String
  peerDefDnsStr : String
  peerDefDnsSearchStr : String
  peerDefEndpoint : String
  peerDefAllowedIPsStr : String
  peerDefMtu : Int
  peerDefPersistentKeepalive : Int
  peerDefFirewallMark : ℕ
  peerDefRoutingTable : String
  peerDefPreUp : String
  peerDefPostUp : String
  peerDefPreDown : String
  peerDefPostDown : String
deriving DecidableEq

/-- `domain.Interface{}` -/
def Interface.zero : Interface where
  base := ⟨"", "", 0, 0⟩
  identifier := ""
  keyPair := ⟨"", ""⟩
  listenPort := 0
  addresses := []
  dnsStr := ""
  dnsSearchStr := ""
  mtu := 0
  firewallMark := 0
  routingTable := ""
  preUp := ""
  postUp := ""
  preDown := ""
  postDown := ""
  saveConfig := false
  displayName := ""
  type := .unset
  backend := ""
  driverType := ""
  disabled := none
  disabledReason := ""
  peerDefNetworkStr := ""
  peerDefDnsStr := ""
  peerDefDnsSearchStr := ""
  peerDefEndpoint := ""
  peerDefAllowedIPsStr := ""
  peerDefMtu := 0
  peerDefPersistentKeepalive := 0
  peerDefFirewallMark := 0
  peerDefRoutingTable := ""
  peerDefPreUp := ""
  peerDefPostUp := ""
  peerDefPreDown := ""
  peerDefPostDown := ""

def disabledReasonExpired : String := "expired"

namespace Peer

def isDisabled (p : Peer) : Bool := p.disabled.isSome

def isExpired (p : Peer) (now : Time) : Bool :=
  match p.expiresAt with
  | none => false
  | some expiresAt => expiresAt.before now

def copyCalculatedAttributes (p src : Peer) : Peer := { p with base := src.base }

/-- Equality of the peer listed from a device and the stored one, as far as the
full sync compares them. -/
def equals (p other : Peer) : Bool :=
  p.identifier = other.identifier &&
    p.allowedIPsStr.value = other.allowedIPsStr.value &&
    p.endpoint.value = other.endpoint.value &&
    p.presharedKey = other.presharedKey &&
    p.persistentKeepalive = other.persistentKeepalive

/-- The method of the peer: without an address of its own, its first one is checked. -/
def checkAliveAddress (p : Peer) : String :=
  if p.interface.checkAliveAddress ≠ "" then p.interface.checkAliveAddress
  else
    match p.interface.addresses with
    | address :: _ => String.ofList address.addr.text
    | [] => ""

end Peer

structure PeerStatus where
  peerId : PeerIdentifier
  updatedAt : Time
  isConnected : Bool
  isPingable : Bool
  lastPing : Option Time
  bytesReceived : ℕ
  bytesTransmitted : ℕ
  lastHandshake : Option Time
  endpoint : String
  lastSessionStart : Option Time
  ownerNodeId : String
deriving DecidableEq

namespace PeerStatus

/-- A new record with the given identifier. -/
def fresh (id : PeerIdentifier) (now : Time) : PeerStatus where
  peerId := id
  updatedAt := now
  isConnected := false
  isPingable := false
  lastPing := none
  bytesReceived := 0
  bytesTransmitted := 0
  lastHandshake := none
  endpoint := ""
  lastSessionStart := none
  ownerNodeId := ""

/-- A handshake older than two minutes does not count. -/
def calcConnected (s : PeerStatus) (now : Time) : PeerStatus :=
  let oldestHandshakeTime := now - 2 * minute
  let handshakeValid := match s.lastHandshake with
    | none => false
    | some handshake => !handshake.before oldestHandshakeTime
  { s with isConnected := s.isPingable || handshakeValid }

end PeerStatus

end WgPortal.Domain
