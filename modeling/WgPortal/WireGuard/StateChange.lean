import WgPortal.Config.Duration
import WgPortal.WireGuard.PeerSteps

/-! The handler of changed connection states, which renews the time of expiry. -/

namespace WgPortal.WireGuard

open Domain Library Config
open ManagerProgram (issue)

/-- An offline peer that expires in more than an hour. The clock is read only if
the peer is offline and expires. -/
def sufficientTTL (peerStatus : PeerStatus) (peer : Peer) : ManagerProgram Bool :=
  match peerStatus.isConnected, peer.expiresAt with
  | false, some expiresAt => do
    let now ← issue .timeNow
    return expiresAt.after (now + hour)
  | _, _ => return false

/-- Errors are only logged. -/
def Manager.handlePeerStateChangeEvent (m : Manager) (peerStatus : PeerStatus) (peer : Peer) :
    ManagerProgram Unit := do
  if !m.cfg.core.deleteExpiredPeers then return ()
  match parseDurationWithDays m.cfg.core.defaultUserTTL with
  | none => return ()
  | some ttlDuration =>
    if peer.ttlLocked then return ()
    if ← sufficientTTL peerStatus peer then return ()
    let now ← issue .timeNow
    let _ ← m.updatePeer systemAdminContextUserInfo
      { peer with expiresAt := some (now + ttlDuration) }
    return ()

end WgPortal.WireGuard
