import Mathlib.Logic.Function.Basic
import WgPortal.Domain.PhysicalPeer
import WgPortal.WgController.Wgctrl

/-! The peer functions of `LocalController`. A device that does not exist is an
absent value; a call that fails may have changed the devices before. -/

namespace WgPortal.WgController

open Domain Library NetIP

variable {w : Wgtypes}

/-- The devices of a node, by name. -/
abbrev Devices (w : Wgtypes) := InterfaceIdentifier → Option (Device w)

def toPublicKey (w : Wgtypes) (id : PeerIdentifier) : w.Key := (w.parseKey id).getD w.zeroKey

namespace PhysicalPeer

def getPresharedKey (w : Wgtypes) (pp : PhysicalPeer) : Option w.Key :=
  if pp.presharedKey = "" then none else w.parseKey pp.presharedKey

def getEndpointAddress (w : Wgtypes) (pp : PhysicalPeer) : Option w.UDPAddr :=
  if pp.endpoint = "" then none else w.resolveUDPAddr pp.endpoint

def getPersistentKeepaliveTime (pp : PhysicalPeer) : Option Duration :=
  if pp.persistentKeepalive = 0 then none else some (pp.persistentKeepalive * second)

def getAllowedIPs (pp : PhysicalPeer) : List Network := pp.allowedIPs.map Network.of

end PhysicalPeer

namespace LocalController

/-- A peer of a device is never disabled. -/
def convertWireGuardPeer (peer : WgPeer w) : PhysicalPeer where
  identifier := w.keyText peer.publicKey
  endpoint := match peer.endpoint with
    | some addr => w.addrText addr
    | none => ""
  allowedIPs := peer.allowedIPs.map Network.net
  keyPair := ⟨"", w.keyText peer.publicKey⟩
  presharedKey := if peer.presharedKey = w.zeroKey then "" else w.keyText peer.presharedKey
  persistentKeepalive := Int.tdiv peer.persistentKeepaliveInterval second
  lastHandshake := peer.lastHandshakeTime
  protocolVersion := peer.protocolVersion
  bytesUpload := peer.receiveBytes
  bytesDownload := peer.transmitBytes
  importSource := controllerTypeLocal
  backendExtras := some (.local ⟨false⟩)

def device (devices : Devices w) (deviceId : InterfaceIdentifier) : Except Error (Device w) :=
  match devices deviceId with
  | some d => .ok d
  | none => .error errNotExist

def getPeers (devices : Devices w) (deviceId : InterfaceIdentifier) :
    Except Error (List PhysicalPeer) :=
  match device devices deviceId with
  | .ok d => .ok (d.peers.rows.map convertWireGuardPeer)
  | .error err => .error (.wrap "device error" err)

def getPeer (devices : Devices w) (deviceId : InterfaceIdentifier) (id : PeerIdentifier) :
    Except Error PhysicalPeer := do
  if (w.parseKey id).isNone then throw (.other "invalid public key")
  let d ← device devices deviceId
  match d.find (toPublicKey w id) with
  | some peer => return convertWireGuardPeer peer
  | none => throw errNotExist

variable (client : Client w)

def configureDevice (devices : Devices w) (deviceId : InterfaceIdentifier) (cfg : PeerConfig w) :
    Except Error Unit × Devices w :=
  match devices deviceId with
  | some d => (.ok (), Function.update devices deviceId (some (client.configurePeer d cfg)))
  | none => (.error errNotExist, devices)

def getOrCreatePeer (devices : Devices w) (deviceId : InterfaceIdentifier) (id : PeerIdentifier) :
    Except Error PhysicalPeer × Devices w :=
  match getPeer devices deviceId id with
  | .ok peer => (.ok peer, devices)
  | .error err =>
    if !err.is errNotExist then (.error (.wrap "peer error" err), devices)
    else
      let key := toPublicKey w id
      match configureDevice client devices deviceId (PeerConfig.named key) with
      | (.error err, devices) => (.error (.wrap ("peer create error for " ++ w.keyText key) err), devices)
      | (.ok _, devices) =>
        match getPeer devices deviceId id with
        | .ok peer => (.ok peer, devices)
        | .error err => (.error (.wrap "peer error after create" err), devices)

def deletePeerConfig (id : PeerIdentifier) : PeerConfig w :=
  { PeerConfig.named (toPublicKey w id) with remove := true }

/-- `deletePeer` -/
def removePeer (devices : Devices w) (deviceId : InterfaceIdentifier) (id : PeerIdentifier) :
    Except Error Unit × Devices w :=
  configureDevice client devices deviceId (deletePeerConfig id)

def deletePeer (devices : Devices w) (deviceId : InterfaceIdentifier) (id : PeerIdentifier) :
    Except Error Unit × Devices w :=
  if (w.parseKey id).isNone then (.error (.other "invalid public key"), devices)
  else removePeer client devices deviceId id

def updatePeerConfig (w : Wgtypes) (pp : PhysicalPeer) : PeerConfig w where
  publicKey := toPublicKey w pp.keyPair.publicKey
  remove := false
  updateOnly := true
  presharedKey := PhysicalPeer.getPresharedKey w pp
  endpoint := PhysicalPeer.getEndpointAddress w pp
  persistentKeepaliveInterval := PhysicalPeer.getPersistentKeepaliveTime pp
  replaceAllowedIPs := true
  allowedIPs := PhysicalPeer.getAllowedIPs pp

def updatePeer (devices : Devices w) (deviceId : InterfaceIdentifier) (pp : PhysicalPeer) :
    Except Error Unit × Devices w :=
  configureDevice client devices deviceId (updatePeerConfig w pp)

/-- Disabled peers are deleted from the device. -/
def savePeer (devices : Devices w) (deviceId : InterfaceIdentifier) (id : PeerIdentifier)
    (updateFunc : PhysicalPeer → Except Error PhysicalPeer) : Except Error Unit × Devices w :=
  match getOrCreatePeer client devices deviceId id with
  | (.error err, devices) => (.error err, devices)
  | (.ok physicalPeer, devices) =>
    match updateFunc physicalPeer with
    | .error err => (.error err, devices)
    | .ok physicalPeer =>
      match physicalPeer.backendExtras with
      | some (.local ⟨true⟩) => removePeer client devices deviceId id
      | _ => updatePeer client devices deviceId physicalPeer

/-- The device once the peer was looked up or created. -/
def created (d : Device w) (key : w.Key) : Device w :=
  match d.find key with
  | some _ => d
  | none => client.configurePeer d (PeerConfig.named key)

theorem find_created (d : Device w) (key : w.Key) :
    (created client d key).find key = some ((d.find key).getD (WgPeer.fresh key)) := by
  cases existing : d.find key with
  | some peer => simp [created, existing]
  | none =>
    have fresh : (PeerConfig.named key).outcome d key = some (WgPeer.fresh key) := by
      simp [PeerConfig.outcome, PeerConfig.named, PeerConfig.target, PeerConfig.configured,
        existing, WgPeer.fresh]
    obtain ⟨q, found, same⟩ := client.find_eq_some fresh
    rw [created, existing, Option.getD_none]
    rw [same.eq_fresh] at found
    exact found

theorem configureDevice_isSome (devices : Devices w) (deviceId : InterfaceIdentifier)
    (cfg : PeerConfig w) (other : InterfaceIdentifier) :
    ((configureDevice client devices deviceId cfg).2 other).isSome = (devices other).isSome := by
  unfold configureDevice
  split
  · rename_i d stored
    by_cases same : other = deviceId
    · simp only [same, Function.update_self, stored, Option.isSome_some]
    · simp only [Function.update_of_ne same]
  · rfl

theorem deletePeer_isSome (devices : Devices w) (deviceId : InterfaceIdentifier)
    (id : PeerIdentifier) (other : InterfaceIdentifier) :
    ((deletePeer client devices deviceId id).2 other).isSome = (devices other).isSome := by
  unfold deletePeer
  split
  · rfl
  · exact configureDevice_isSome ..

variable {client} {devices : Devices w} {deviceId : InterfaceIdentifier} {id : PeerIdentifier}
  {key : w.Key} {d : Device w}

theorem getPeer_eq (stored : devices deviceId = some d) (valid : w.parseKey id = some key) :
    getPeer devices deviceId id = match d.find key with
      | some peer => .ok (convertWireGuardPeer peer)
      | none => .error errNotExist := by
  simp only [getPeer, device, stored, valid, toPublicKey, Option.isNone_some, Option.getD_some]
  rfl

theorem getOrCreatePeer_eq (stored : devices deviceId = some d)
    (valid : w.parseKey id = some key) :
    getOrCreatePeer client devices deviceId id =
      (.ok (convertWireGuardPeer ((d.find key).getD (WgPeer.fresh key))),
        Function.update devices deviceId (some (created client d key))) := by
  have found := getPeer_eq stored valid
  cases existing : d.find key with
  | some peer =>
    rw [existing] at found
    have same : Function.update devices deviceId (some (created client d key)) = devices := by
      rw [created, existing, ← stored, Function.update_eq_self]
    rw [getOrCreatePeer, found, same]
    rfl
  | none =>
    rw [existing] at found
    have notExist : errNotExist.is errNotExist = true := by decide
    have configured : configureDevice client devices deviceId (PeerConfig.named key) =
        (.ok (), Function.update devices deviceId (some (created client d key))) := by
      rw [configureDevice, stored, created, existing]
    have now : getPeer (Function.update devices deviceId (some (created client d key))) deviceId id =
        .ok (convertWireGuardPeer (WgPeer.fresh key)) := by
      rw [getPeer_eq (Function.update_self ..) valid, find_created, existing]
      rfl
    simp only [getOrCreatePeer, found, notExist, toPublicKey, valid, Option.getD_some, configured,
      now]
    rfl

/-- A valid identifier is saved to an existing device: the peer is looked up or
created, and then removed or configured. -/
theorem savePeer_eq (stored : devices deviceId = some d) (valid : w.parseKey id = some key)
    {updateFunc : PhysicalPeer → Except Error PhysicalPeer} {pp : PhysicalPeer}
    (updated : updateFunc (convertWireGuardPeer ((d.find key).getD (WgPeer.fresh key))) = .ok pp) :
    savePeer client devices deviceId id updateFunc =
      (.ok (), Function.update devices deviceId (some (client.configurePeer (created client d key)
        (match pp.backendExtras with
          | some (.local ⟨true⟩) => deletePeerConfig id
          | _ => updatePeerConfig w pp)))) := by
  have configured : ∀ cfg : PeerConfig w,
      configureDevice client (Function.update devices deviceId (some (created client d key)))
        deviceId cfg = (.ok (), Function.update devices deviceId
          (some (client.configurePeer (created client d key) cfg))) := by
    intro cfg
    simp only [configureDevice, Function.update_self, Function.update_idem]
  simp only [savePeer, getOrCreatePeer_eq stored valid, updated, removePeer, updatePeer]
  split <;> exact configured _

/-- What saving a stored peer to the device configures, in the end. -/
def savedConfig (w : Wgtypes) (p : Peer) (forceClientIPAsAllowedIP : Bool) : PeerConfig w :=
  if p.isDisabled then deletePeerConfig p.identifier
  else
    { publicKey := toPublicKey w p.interface.keyPair.publicKey
      remove := false
      updateOnly := true
      presharedKey := if p.presharedKey = "" then none else w.parseKey p.presharedKey
      endpoint := if p.endpoint.value = "" then none else w.resolveUDPAddr p.endpoint.value
      persistentKeepaliveInterval :=
        if p.persistentKeepalive.value = 0 then none
        else some (p.persistentKeepalive.value * second)
      replaceAllowedIPs := true
      allowedIPs := (mergedAllowedIPs p forceClientIPAsAllowedIP).map Network.of }

theorem savePeer_merge (force : Bool) (stored : devices deviceId = some d) {p : Peer}
    (valid : w.parseKey p.identifier = some key) :
    savePeer client devices deviceId p.identifier
        (fun pp => .ok (mergeToPhysicalPeer pp p force)) =
      (.ok (), Function.update devices deviceId (some
        (client.configurePeer (created client d key) (savedConfig w p force)))) := by
  refine (savePeer_eq stored valid (by exact rfl)).trans ?_
  cases disabled : p.isDisabled <;>
    simp only [savedConfig, disabled, mergeToPhysicalPeer, convertWireGuardPeer] <;> rfl

theorem savePeer_invalid {updateFunc : PhysicalPeer → Except Error PhysicalPeer}
    (devices : Devices w) (invalid : w.parseKey id = none) :
    savePeer client devices deviceId id updateFunc =
      (.error (.wrap "peer error" (.other "invalid public key")), devices) := by
  have unread : getPeer devices deviceId id = .error (.other "invalid public key") := by
    simp only [getPeer, invalid, Option.isNone_none]
    rfl
  have notMissing : (Error.other "invalid public key").is errNotExist = false := by decide
  simp only [savePeer, getOrCreatePeer, unread, notMissing]
  rfl

theorem savePeer_missing {updateFunc : PhysicalPeer → Except Error PhysicalPeer}
    (devices : Devices w) (valid : w.parseKey id = some key) (missing : devices deviceId = none) :
    savePeer client devices deviceId id updateFunc =
      (.error (.wrap ("peer create error for " ++ w.keyText key) errNotExist), devices) := by
  have unread : getPeer devices deviceId id = .error errNotExist := by
    simp only [getPeer, device, valid, missing, Option.isNone_some]
    rfl
  have notExist : errNotExist.is errNotExist = true := by decide
  simp only [savePeer, getOrCreatePeer, unread, notExist, configureDevice, missing, toPublicKey,
    valid, Option.getD_some]
  rfl

variable (client)

/-- Saving an enabled peer whose public key is its identifier configures it. -/
theorem find_saved_self {p : Peer} (force : Bool) (enabled : p.isDisabled = false)
    (own : p.interface.keyPair.publicKey = p.identifier) (valid : w.parseKey p.identifier = some key) :
    ∃ q, (client.configurePeer (created client d key) (savedConfig w p force)).find key = some q ∧
      q.Same ((savedConfig w p force).configured ((d.find key).getD (WgPeer.fresh key))) := by
  have publicKey : (savedConfig w p force).publicKey = key := by
    simp [savedConfig, enabled, own, toPublicKey, valid]
  have found := find_created client d key
  refine client.find_eq_some ?_
  have remove : (savedConfig w p force).remove = false := by simp [savedConfig, enabled]
  simp [PeerConfig.outcome, PeerConfig.target, remove, publicKey, found]

/-- All other peers of the device lose its networks. -/
theorem find_saved_other {p : Peer} (force : Bool) (enabled : p.isDisabled = false)
    (own : p.interface.keyPair.publicKey = p.identifier) (valid : w.parseKey p.identifier = some key)
    {k : w.Key} (other : k ≠ key) :
    Option.Rel WgPeer.Same
      ((client.configurePeer (created client d key) (savedConfig w p force)).find k)
      ((d.find k).map (savedConfig w p force).released) := by
  have publicKey : (savedConfig w p force).publicKey = key := by
    simp [savedConfig, enabled, own, toPublicKey, valid]
  have found := find_created client d key
  have remove : (savedConfig w p force).remove = false := by simp [savedConfig, enabled]
  have outcome : (savedConfig w p force).outcome (created client d key) k =
      ((created client d key).find k).map (savedConfig w p force).released := by
    simp [PeerConfig.outcome, remove, publicKey, found, other]
  have kept : Option.Rel WgPeer.Same ((created client d key).find k) (d.find k) := by
    cases existing : d.find key with
    | some _ =>
      rw [created, existing]
      exact WgPeer.rel_refl _
    | none =>
      rw [created, existing]
      refine client.find_of_same ?_
      have noRemove : (PeerConfig.named key).remove = false := rfl
      have notOnly : (PeerConfig.named key).updateOnly = false := rfl
      have name : (PeerConfig.named key).publicKey = key := rfl
      simp [PeerConfig.outcome, noRemove, notOnly, name, other, PeerConfig.named_released]
  exact WgPeer.rel_trans (client.find_of_same outcome) (PeerConfig.rel_map_released _ kept)

variable {client}

theorem deletePeer_eq (stored : devices deviceId = some d) (valid : w.parseKey id = some key) :
    deletePeer client devices deviceId id =
      (.ok (), Function.update devices deviceId
        (some (client.configurePeer d (deletePeerConfig id)))) := by
  simp only [deletePeer, removePeer, configureDevice, valid, stored, Option.isNone_some]
  rfl

end LocalController

end WgPortal.WgController
