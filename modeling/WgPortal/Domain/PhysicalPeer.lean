import WgPortal.Domain.Peer

/-! Peers as a backend knows them, and the merge of a stored peer into one. -/

namespace WgPortal.Domain

def controllerTypeMikrotik : String := "mikrotik"
def controllerTypeLocal : String := "wgctrl"

/-- `os.ErrNotExist` -/
def errNotExist : Error := .other "file does not exist"

structure MikrotikPeerExtras where
  id : String
  name : String
  comment : String
  isResponder : Bool
  disabled : Bool
  clientEndpoint : String
  clientAddress : String
  clientDns : String
  clientKeepalive : Int
deriving DecidableEq

structure LocalPeerExtras where
  disabled : Bool
deriving DecidableEq

/-- The extras that `SetExtras` supports. -/
inductive BackendExtras where
  | mikrotik (extras : MikrotikPeerExtras)
  | local (extras : LocalPeerExtras)
deriving DecidableEq

structure PhysicalPeer where
  identifier : PeerIdentifier
  endpoint : String
  allowedIPs : List Cidr
  keyPair : KeyPair
  presharedKey : String
  persistentKeepalive : Int
  lastHandshake : Time
  protocolVersion : Int
  bytesUpload : ℕ
  bytesDownload : ℕ
  importSource : String
  backendExtras : Option BackendExtras
deriving DecidableEq

/-- `domain.PhysicalPeer{}` -/
def PhysicalPeer.zero : PhysicalPeer where
  identifier := ""
  endpoint := ""
  allowedIPs := []
  keyPair := ⟨"", ""⟩
  presharedKey := ""
  persistentKeepalive := 0
  lastHandshake := 0
  protocolVersion := 0
  bytesUpload := 0
  bytesDownload := 0
  importSource := ""
  backendExtras := none

/-- The allowed IPs of a peer on the server. With `force`, clients always get
their own addresses. -/
def mergedAllowedIPs (p : Peer) (forceClientIPAsAllowedIP : Bool) : List Cidr :=
  let hostAddrs := p.interface.addresses.map Cidr.hostAddr
  let allowedIPs :=
    if p.interface.type = .server then cidrsOrNil p.allowedIPsStr.value
    else if forceClientIPAsAllowedIP then hostAddrs
    else if p.allowedIPsStr.value ≠ "" then cidrsOrNil p.allowedIPsStr.value
    else hostAddrs
  allowedIPs ++ cidrsOrNil p.extraAllowedIPsStr

def mergeToPhysicalPeer (pp : PhysicalPeer) (p : Peer) (forceClientIPAsAllowedIP : Bool) :
    PhysicalPeer :=
  { pp with
    identifier := p.identifier
    endpoint := p.endpoint.value
    allowedIPs := mergedAllowedIPs p forceClientIPAsAllowedIP
    presharedKey := p.presharedKey
    keyPair := { pp.keyPair with publicKey := p.interface.keyPair.publicKey }
    persistentKeepalive := p.persistentKeepalive.value
    backendExtras :=
      if pp.importSource = controllerTypeMikrotik then
        some <| .mikrotik
          { id := ""
            name := p.displayName
            comment := p.notes
            isResponder := false
            disabled := p.isDisabled
            clientEndpoint := p.endpoint.value
            clientAddress := cidrsToString p.interface.addresses
            clientDns := p.interface.dnsStr.value
            clientKeepalive := p.persistentKeepalive.value }
      else if pp.importSource = controllerTypeLocal then
        some (.local ⟨p.isDisabled⟩)
      else pp.backendExtras }

/-- Merging a peer a second time changes nothing. -/
theorem mergeToPhysicalPeer_idem (pp : PhysicalPeer) (p : Peer) (force : Bool) :
    mergeToPhysicalPeer (mergeToPhysicalPeer pp p force) p force =
      mergeToPhysicalPeer pp p force := by
  simp only [mergeToPhysicalPeer]
  split
  · rfl
  · split <;> rfl

/-- The peer to store for a physical one. The extras are those of its import source. -/
def convertPhysicalPeer (now : Time) (pp : PhysicalPeer) : Peer :=
  let peer :=
    { Peer.zero with
      endpoint := newConfigOption pp.endpoint true
      endpointPublicKey := newConfigOption "" true
      allowedIPsStr := newConfigOption "" true
      presharedKey := pp.presharedKey
      persistentKeepalive := newConfigOption pp.persistentKeepalive true
      displayName := pp.identifier
      identifier := pp.identifier
      interface := { Peer.zero.interface with keyPair := pp.keyPair } }
  match pp.backendExtras with
  | none => peer
  | some (.mikrotik extras) =>
    if pp.importSource = controllerTypeMikrotik then
      let peer := { peer with notes := extras.comment, displayName := extras.name }
      let peer :=
        -- with a client endpoint, this is assumed to be a client
        if extras.clientEndpoint ≠ "" then
          { peer with
            endpoint := newConfigOption extras.clientEndpoint true
            persistentKeepalive := newConfigOption extras.clientKeepalive true
            interface :=
              { peer.interface with
                type := .client
                addresses := cidrsOrNil extras.clientAddress
                dnsStr := newConfigOption extras.clientDns true } }
        else { peer with interface := { peer.interface with type := .server } }
      if extras.disabled then
        { peer with disabled := some now, disabledReason := "Disabled by Mikrotik controller" }
      else peer
    else peer
  | some (.local extras) =>
    if pp.importSource = controllerTypeLocal ∧ extras.disabled then
      { peer with disabled := some now, disabledReason := "Disabled by Local controller" }
    else peer

end WgPortal.Domain
