import WgPortal.WgController.Plain
import WgPortal.WgController.Local

/-! When a successful `SavePeer` of the local controller leaves the device's peer
as the update function returned it. -/

namespace WgPortal.WgController.LocalUpdate

open Domain Library NetIP LocalController

variable {w : Wgtypes}

/-- The peer of a device is what a physical peer says. Without a text there is no
preshared key and no endpoint. -/
structure Matches (q : WgPeer w) (pp : PhysicalPeer) : Prop where
  presharedKey : if pp.presharedKey = "" then q.presharedKey = w.zeroKey
    else w.parseKey pp.presharedKey = some q.presharedKey
  persistentKeepalive : q.persistentKeepaliveInterval = pp.persistentKeepalive * second
  endpoint : if pp.endpoint = "" then q.endpoint = none
    else ∃ addr, w.resolveUDPAddr pp.endpoint = some addr ∧ q.endpoint = some addr
  allowedIPs : ∀ network, network ∈ q.allowedIPs ↔ network ∈ PhysicalPeer.getAllowedIPs pp

/-- The device has the physical peer as it is. -/
def Configured (devices : Devices w) (deviceId : InterfaceIdentifier) (pp : PhysicalPeer) : Prop :=
  ∃ d q, devices deviceId = some d ∧ d.find (toPublicKey w pp.keyPair.publicKey) = some q ∧
    Matches q pp

/-- Every value of the physical peer is a valid one, or is absent there and on the
device's peer already. -/
structure NothingCleared (old : WgPeer w) (pp : PhysicalPeer) : Prop where
  presharedKey : if pp.presharedKey = "" then old.presharedKey = w.zeroKey
    else (w.parseKey pp.presharedKey).isSome
  persistentKeepalive : pp.persistentKeepalive = 0 → old.persistentKeepaliveInterval = 0
  endpoint : if pp.endpoint = "" then old.endpoint = none
    else (w.resolveUDPAddr pp.endpoint).isSome

/-- The device's peer with the public key of the physical peer; that of the saved
identifier is created if it does not exist. -/
def existing (d : Device w) (saved key : w.Key) : Option (WgPeer w) :=
  if key = saved then some ((d.find key).getD (WgPeer.fresh key)) else d.find key

theorem find_created_of_ne (client : Client w) (d : Device w) {saved key : w.Key}
    (ne : key ≠ saved) : Option.Rel WgPeer.Same ((created client d saved).find key) (d.find key) := by
  cases found : d.find saved with
  | some peer =>
    rw [created, found]
    exact WgPeer.rel_refl _
  | none =>
    rw [created, found]
    refine client.find_of_same ?_
    have noRemove : (PeerConfig.named saved).remove = false := rfl
    have notOnly : (PeerConfig.named saved).updateOnly = false := rfl
    have name : (PeerConfig.named saved).publicKey = saved := rfl
    simp [PeerConfig.outcome, noRemove, notOnly, name, ne, PeerConfig.named_released]

/-- The peer is looked up or created before it is updated. -/
theorem rel_created_existing (client : Client w) (d : Device w) (saved key : w.Key) :
    Option.Rel WgPeer.Same ((created client d saved).find key) (existing d saved key) := by
  by_cases same : key = saved
  · rw [existing, if_pos same, same, find_created]
    exact WgPeer.rel_refl _
  · rw [existing, if_neg same]
    exact find_created_of_ne client d same

theorem Matches.of_same {p q : WgPeer w} (same : p.Same q) {pp : PhysicalPeer} :
    Matches p pp ↔ Matches q pp := by
  have both : ∀ {p q : WgPeer w}, p.Same q → Matches p pp → Matches q pp := by
    intro p q same h
    refine ⟨?_, ?_, ?_, fun n => (same.allowedIPs n).symm.trans (h.allowedIPs n)⟩
    · rw [← same.presharedKey]
      exact h.presharedKey
    · rw [← same.persistentKeepaliveInterval]
      exact h.persistentKeepalive
    · rw [← same.endpoint]
      exact h.endpoint
  exact ⟨both same, both same.symm⟩

theorem presharedKey_configured_iff (old : WgPeer w) (pp : PhysicalPeer) :
    (if pp.presharedKey = "" then
        ((updatePeerConfig w pp).configured old).presharedKey = w.zeroKey
      else w.parseKey pp.presharedKey =
        some ((updatePeerConfig w pp).configured old).presharedKey) ↔
      if pp.presharedKey = "" then old.presharedKey = w.zeroKey
      else (w.parseKey pp.presharedKey).isSome = true := by
  by_cases absent : pp.presharedKey = ""
  · simp [PeerConfig.configured, updatePeerConfig, PhysicalPeer.getPresharedKey, absent]
  · cases parsed : w.parseKey pp.presharedKey with
    | none => simp [absent]
    | some key =>
      simp [PeerConfig.configured, updatePeerConfig, PhysicalPeer.getPresharedKey, absent, parsed]

theorem persistentKeepalive_configured_iff (old : WgPeer w) (pp : PhysicalPeer) :
    ((updatePeerConfig w pp).configured old).persistentKeepaliveInterval =
        pp.persistentKeepalive * second ↔
      (pp.persistentKeepalive = 0 → old.persistentKeepaliveInterval = 0) := by
  by_cases absent : pp.persistentKeepalive = 0
  · simp [PeerConfig.configured, updatePeerConfig, PhysicalPeer.getPersistentKeepaliveTime, absent]
  · simp [PeerConfig.configured, updatePeerConfig, PhysicalPeer.getPersistentKeepaliveTime, absent]

theorem endpoint_configured_iff (old : WgPeer w) (pp : PhysicalPeer) :
    (if pp.endpoint = "" then ((updatePeerConfig w pp).configured old).endpoint = none
      else ∃ addr, w.resolveUDPAddr pp.endpoint = some addr ∧
        ((updatePeerConfig w pp).configured old).endpoint = some addr) ↔
      if pp.endpoint = "" then old.endpoint = none
      else (w.resolveUDPAddr pp.endpoint).isSome = true := by
  by_cases absent : pp.endpoint = ""
  · simp [PeerConfig.configured, updatePeerConfig, PhysicalPeer.getEndpointAddress, absent]
  · cases resolved : w.resolveUDPAddr pp.endpoint with
    | none => simp [absent]
    | some addr =>
      simp [PeerConfig.configured, updatePeerConfig, PhysicalPeer.getEndpointAddress, absent,
        resolved]

/-- What an update makes of a peer: absent values leave it as it is. -/
theorem matches_configured_iff (old : WgPeer w) (pp : PhysicalPeer) :
    Matches ((updatePeerConfig w pp).configured old) pp ↔ NothingCleared old pp := by
  have presharedKey := presharedKey_configured_iff old pp
  have persistentKeepalive := persistentKeepalive_configured_iff old pp
  have endpoint := endpoint_configured_iff old pp
  have allowedIPs : ∀ network, network ∈ ((updatePeerConfig w pp).configured old).allowedIPs ↔
      network ∈ PhysicalPeer.getAllowedIPs pp := by
    simp [PeerConfig.configured, updatePeerConfig]
  exact ⟨fun h => ⟨presharedKey.mp h.presharedKey, persistentKeepalive.mp h.persistentKeepalive,
      endpoint.mp h.endpoint⟩,
    fun h => ⟨presharedKey.mpr h.presharedKey, persistentKeepalive.mpr h.persistentKeepalive,
      endpoint.mpr h.endpoint, allowedIPs⟩⟩

theorem outcome_updatePeerConfig (d : Device w) (pp : PhysicalPeer) :
    (updatePeerConfig w pp).outcome d (toPublicKey w pp.keyPair.publicKey) =
      (d.find (toPublicKey w pp.keyPair.publicKey)).map (updatePeerConfig w pp).configured := by
  have remove : (updatePeerConfig w pp).remove = false := rfl
  have only : (updatePeerConfig w pp).updateOnly = true := rfl
  have name : (updatePeerConfig w pp).publicKey = toPublicKey w pp.keyPair.publicKey := rfl
  cases found : d.find (toPublicKey w pp.keyPair.publicKey) with
  | none => simp [PeerConfig.outcome, remove, only, name, found]
  | some p => simp [PeerConfig.outcome, remove, only, name, found, PeerConfig.target]

theorem matches_iff_of_rel {found existing : Option (WgPeer w)} {pp : PhysicalPeer}
    (rel : Option.Rel WgPeer.Same found (existing.map (updatePeerConfig w pp).configured)) :
    (∃ q, found = some q ∧ Matches q pp) ↔ ∃ old, existing = some old ∧ NothingCleared old pp := by
  cases existing with
  | none =>
    rw [Table.rel_none rel]
    simp
  | some old =>
    obtain ⟨q, rfl, same⟩ := Table.rel_some rel
    simp only [Option.some.injEq, exists_eq_left']
    rw [Matches.of_same same, matches_configured_iff]

def sampleKey : String := "AAAAAAAAAAAAAAAAAAAAAAAAAAAAAAAAAAAAAAAAAAE="

/-- A device whose one peer has a preshared key. -/
def sampleDevice : Device plainTypes :=
  (plainClient plainTypes).configurePeer Device.empty
    { PeerConfig.named (toPublicKey plainTypes sampleKey) with
      presharedKey := some (toPublicKey plainTypes sampleKey) }

def sampleDevices : Devices plainTypes := fun id => if id = "wg0" then some sampleDevice else none

/-- The physical peer of the device, with a keepalive and another preshared key. -/
def rekeyed (presharedKey : String) (pp : PhysicalPeer) : PhysicalPeer :=
  { pp with presharedKey := presharedKey, persistentKeepalive := 25 }

def sampleOld : WgPeer plainTypes :=
  (sampleDevice.find (toPublicKey plainTypes sampleKey)).getD
    (WgPeer.fresh (toPublicKey plainTypes sampleKey))

def rekey (presharedKey : String) (pp : PhysicalPeer) : Except Error PhysicalPeer :=
  .ok (rekeyed presharedKey pp)

end WgPortal.WgController.LocalUpdate
