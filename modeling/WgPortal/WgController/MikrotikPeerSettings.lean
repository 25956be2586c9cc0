import WgPortal.WgController.MikrotikPeers

/-! What is read of a peer that was written to a Mikrotik router. -/

namespace WgPortal.WgController.Mikrotik

open Domain Library

/-- An interval that a WireGuard device can have, for the key of the peer itself -/
structure Writable (p : Peer) : Prop where
  key : p.interface.keyPair.publicKey = p.identifier
  notNegative : 0 ≤ p.persistentKeepalive.value
  fits : p.persistentKeepalive.value * 1000000000 < 2 ^ 63

instance (p : Peer) : Decidable (Writable p) :=
  decidable_of_iff (p.interface.keyPair.publicKey = p.identifier ∧
    0 ≤ p.persistentKeepalive.value ∧ p.persistentKeepalive.value * 1000000000 < 2 ^ 63)
    ⟨fun ⟨key, notNegative, fits⟩ => ⟨key, notNegative, fits⟩, fun w => ⟨w.1, w.2, w.3⟩⟩

/-- The stored peer adds nothing to what the router reports, apart from the endpoint: the router
has its own for that, the one at which the peer was last seen. -/
def HasPeerSettings (force : Bool) (p : Peer) (pp : PhysicalPeer) : Prop :=
  ∃ extras, pp.backendExtras = some (.mikrotik extras) ∧
    mergeToPhysicalPeer pp p force =
      { pp with
        endpoint := p.endpoint.value
        backendExtras := some (.mikrotik { extras with id := "" }) }

theorem secondsOf_keepalive {p : Peer} (writable : Writable p) :
    secondsOf (secondsText p.persistentKeepalive.value) = p.persistentKeepalive.value := by
  obtain ⟨n, same⟩ := Int.eq_ofNat_of_zero_le writable.notNegative
  have fits := writable.fits
  rw [same] at fits ⊢
  exact secondsOf_secondsText (by exact_mod_cast fits)

theorem getBool_formatBool {o : GenericJsonObject} {key : String} {b : Bool}
    (written : o key = some (.string (formatBool b))) : o.getBool key = b := by
  rw [GenericJsonObject.getBool, written]
  cases b <;> decide

/-- What `GetPeers` reads of an object -/
def reading (now : Time) (o : GenericJsonObject) : PhysicalPeer :=
  convertWireGuardPeer now (Router.project reportedProperties o)

section Written

variable (now : Time) (extras : MikrotikPeerExtras) (pp : PhysicalPeer) (o : GenericJsonObject)

/-- The peer that is read of an object that was updated -/
def readBack : PhysicalPeer := reading now (Router.overlay (peerPayload extras pp) o)

theorem readBack_allowedIPs : (readBack now extras pp o).allowedIPs = pp.allowedIPs :=
  cidrsOrNil_cidrsToString pp.allowedIPs

theorem readBack_extras : (readBack now extras pp o).backendExtras = some (.mikrotik
    { extras with
      id := idOf o
      clientKeepalive := secondsOf (secondsText extras.clientKeepalive) }) := by
  let read := Router.project reportedProperties (Router.overlay (peerPayload extras pp) o)
  have responder : read.getBool "responder" = extras.isResponder := getBool_formatBool rfl
  have disabled : read.getBool "disabled" = extras.disabled := getBool_formatBool rfl
  have bools : (readBack now extras pp o).backendExtras = some (.mikrotik
      { extras with
        id := idOf o
        isResponder := read.getBool "responder"
        disabled := read.getBool "disabled"
        clientKeepalive := secondsOf (secondsText extras.clientKeepalive) }) := rfl
  rw [bools, responder, disabled]

theorem readBack_eq : readBack now extras pp o =
    { readBack now extras pp o with
      identifier := pp.keyPair.publicKey
      allowedIPs := pp.allowedIPs
      keyPair := { (readBack now extras pp o).keyPair with publicKey := pp.keyPair.publicKey }
      presharedKey := pp.presharedKey
      persistentKeepalive := secondsOf (secondsText pp.persistentKeepalive)
      importSource := controllerTypeMikrotik
      backendExtras := some (.mikrotik
        { extras with
          id := idOf o
          clientKeepalive := secondsOf (secondsText extras.clientKeepalive) }) } := by
  rw [← readBack_extras now extras pp o]
  conv_rhs => rw [← readBack_allowedIPs now extras pp o]
  rfl

end Written

/-- The extras of a stored peer, as they are merged -/
def peerExtras (p : Peer) : MikrotikPeerExtras where
  id := ""
  name := p.displayName
  comment := p.notes
  isResponder := false
  disabled := p.isDisabled
  clientEndpoint := p.endpoint.value
  clientAddress := cidrsToString p.interface.addresses
  clientDns := p.interface.dnsStr.value
  clientKeepalive := p.persistentKeepalive.value

variable {force : Bool} {p : Peer}

theorem merge_eq {pp : PhysicalPeer} (known : pp.importSource = controllerTypeMikrotik) :
    (mergeToPhysicalPeer pp p force).backendExtras = some (.mikrotik (peerExtras p)) := by
  rw [mergeToPhysicalPeer, if_pos known]
  rfl

/-- The settings of the stored peer are read back from the object they were written to. -/
theorem hasPeerSettings_readBack (writable : Writable p) (now : Time) (pp : PhysicalPeer)
    (id : String) (e : Option BackendExtras) (o : GenericJsonObject) :
    HasPeerSettings force p (readBack now { peerExtras p with id := id }
      { mergeToPhysicalPeer pp p force with backendExtras := e } o) := by
  refine ⟨_, readBack_extras .., ?_⟩
  rw [readBack_eq]
  generalize readBack now _ _ o = read
  simp only [mergeToPhysicalPeer, peerExtras, secondsOf_keepalive writable, writable.key, if_true]

end WgPortal.WgController.Mikrotik
