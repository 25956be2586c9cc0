import WgPortal.Api.PeerModel
import WgPortal.WireGuard.PeerCreation

/-! The provisioning service of the API, and the handlers that update a peer. -/

namespace WgPortal.Api

open Domain Library Calendar WireGuard
open ManagerProgram (issue)

structure ProvisioningRequest where
  interfaceIdentifier : String
  userIdentifier : String
  displayName : String
  publicKey : String
  presharedKey : String
  expiresAt : String
  doNotExpire : Bool
  /-- set by the endpoint, for a time of expiry that it filled in -/
  expiresAtIsDefault : Bool

namespace ProvisioningRequest

/-- A requested public key clears the private one, which is not known then. -/
def withKeys (req : ProvisioningRequest) (peer : Domain.Peer) : Domain.Peer :=
  let peer :=
    if req.publicKey ≠ "" then
      { peer with
        identifier := req.publicKey
        interface := { peer.interface with keyPair := ⟨"", req.publicKey⟩ } }
    else peer
  if req.presharedKey ≠ "" then { peer with presharedKey := req.presharedKey } else peer

def withDisplayName (req : ProvisioningRequest) (peer : Domain.Peer) : Domain.Peer :=
  if req.displayName ≠ "" then { peer with displayName := req.displayName }
  else generateDisplayName peer "API"

/-- The lock is for a time that the user provided, and for peers that do not expire. -/
def withExpiry (req : ProvisioningRequest) (peer : Domain.Peer) : Except Error Domain.Peer :=
  if !req.doNotExpire && req.expiresAt ≠ "" then
    match parseRFC3339 req.expiresAt.toList with
    | none =>
      .error (.wrap "invalid ExpiresAt format, expected RFC3339" (.other "parsing time"))
    | some expiryDate =>
      let peer := { peer with expiresAt := some expiryDate }
      .ok (if !req.expiresAtIsDefault then { peer with ttlLocked := true } else peer)
  else if req.doNotExpire then .ok { peer with ttlLocked := true }
  else .ok peer

/-- The prepared peer with all that was requested. -/
def apply (req : ProvisioningRequest) (userIdentifier : UserIdentifier) (peer : Domain.Peer) :
    Except Error Domain.Peer :=
  req.withExpiry
    (req.withDisplayName (req.withKeys { peer with userIdentifier := userIdentifier }))

end ProvisioningRequest

/-- `ProvisioningService.NewPeer` -/
def provisionPeer (m : Manager) (ui : ContextUserInfo) (req : ProvisioningRequest) :
    ManagerProgram (Except Error Domain.Peer) := do
  let userIdentifier := if req.userIdentifier = "" then ui.id else req.userIdentifier
  let allowed : Except Error Unit :=
    match validateUserAccessRights ui userIdentifier with
    | .error err => .error err
    | .ok _ =>
      if !m.cfg.core.selfProvisioningAllowed then validateAdminAccessRights ui else .ok ()
  match allowed with
  | .error err => return .error err
  | .ok _ =>
    match ← m.preparePeer ui req.interfaceIdentifier with
    | .error err => return .error (.wrap "failed to prepare new peer" err)
    | .ok prepared =>
      match req.apply userIdentifier prepared with
      | .error err => return .error err
      | .ok peer =>
        match ← m.createPeer ui peer with
        | .error err => return .error (.wrap "failed to create new peer" err)
        | .ok created => return .ok created

/-- The handlers of `PUT /peer/{id}`. In version 0, the identifiers must agree; in
version 1, only admins may update peers. -/
def handleUpdatePut (m : Manager) (ui : ContextUserInfo) (v : Version) (id : PeerIdentifier)
    (req : Peer v) : ManagerProgram (Except Error Domain.Peer) := do
  let allowed : Except Error Unit :=
    match v with
    | .v0 =>
      if id = "" then .error (.other "missing id parameter")
      else if req.identifier ≠ id then .error (.other "peer id mismatch")
      else .ok ()
    | .v1 =>
      if id = "" then .error (.other "missing peer id") else validateAdminAccessRights ui
  match allowed with
  | .error err => return .error err
  | .ok _ =>
    let now ← issue .timeNow
    m.updatePeer ui (newDomainPeer now req)

end WgPortal.Api
