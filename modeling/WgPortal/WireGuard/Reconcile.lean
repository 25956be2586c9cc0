import Mathlib.Data.List.Dedup
import WgPortal.WireGuard.Manager

/-! The handler that brings the local device of an interface up to date with the database, by a
controller of which only the contract is known. -/

namespace WgPortal.WireGuard

open Domain Library Adapters App Config
open ManagerProgram (issue)

/-- Failures are only logged. -/
def deletePeers (interfaceId : InterfaceIdentifier) : List PeerIdentifier → ManagerProgram Unit
  | [] => return ()
  | id :: ids => do
    let _ ← issue (.deletePeer localBackendName interfaceId id)
    deletePeers interfaceId ids

namespace Manager

variable (m : Manager)

/-- One round of the loop over the stored peers; `onDevice` are the listed ones. -/
def syncDbPeer (interfaceId : InterfaceIdentifier) (onDevice : List PeerIdentifier) (dbPeer : Peer) :
    ManagerProgram Unit := do
  if dbPeer.isDisabled then
    if dbPeer.identifier ∈ onDevice then
      let _ ← issue (.deletePeer localBackendName interfaceId dbPeer.identifier)
      return ()
    return ()
  let merge := fun pp => .ok (mergeToPhysicalPeer pp dbPeer m.cfg.core.forceClientIPAsAllowedIP)
  let _ ← issue (.savePeer localBackendName interfaceId dbPeer.identifier merge)
  return ()

def syncDbPeers (interfaceId : InterfaceIdentifier) (onDevice : List PeerIdentifier) :
    List Peer → ManagerProgram Unit
  | [] => return ()
  | dbPeer :: dbPeers => do
    m.syncDbPeer interfaceId onDevice dbPeer
    syncDbPeers interfaceId onDevice dbPeers

/-- The listed peers are ranged over in the order of a map by their identifiers. -/
def handlePeerInterfaceUpdatedEvent (order : MapOrder PeerIdentifier)
    (interfaceId : InterfaceIdentifier) : ManagerProgram Unit := do
  match ← issue (.repo (.getInterfacePeers interfaceId)) with
  | .error _ => return ()
  | .ok dbPeers =>
    match ← issue (.getPeers interfaceId) with
    | .error _ => return ()
    | .ok wgPeers =>
      let onDevice := order.order (wgPeers.map PhysicalPeer.identifier).dedup
      deletePeers interfaceId (onDevice.filter (· ∉ dbPeers.map Peer.identifier))
      m.syncDbPeers interfaceId onDevice dbPeers

end Manager

/-- What the local controller may hold under an identifier, which is a public key -/
structure HeldAs (id : PeerIdentifier) (pp : PhysicalPeer) : Prop where
  identifier : pp.identifier = id
  publicKey : pp.keyPair.publicKey = id
  importSource : pp.importSource = controllerTypeLocal

def disabledExtras : BackendExtras := .local ⟨true⟩

/-- The local controller of an interface. A peer that is saved becomes what the update function
returns, or is removed if its extras say that it is disabled; no other peer changes. -/
structure DeviceContract (D : Type) where
  peer : D → PeerIdentifier → Option PhysicalPeer
  getPeers : D → List PhysicalPeer
  savePeer : D → PeerIdentifier → (PhysicalPeer → Except Error PhysicalPeer) → Except Error Unit × D
  deletePeer : D → PeerIdentifier → Except Error Unit × D
  /-- a peer that is not on the device yet -/
  new : PeerIdentifier → PhysicalPeer
  listed : ∀ d id, id ∈ (getPeers d).map PhysicalPeer.identifier ↔ peer d id ≠ none
  held : ∀ d id pp, peer d id = some pp → HeldAs id pp
  held_new : ∀ id, HeldAs id (new id)
  saved : ∀ d id updateFunc pp, updateFunc ((peer d id).getD (new id)) = .ok pp → HeldAs id pp →
    ∀ other, peer (savePeer d id updateFunc).2 other =
      if other = id then (if pp.backendExtras = some disabledExtras then none else some pp)
      else peer d other
  deleted : ∀ d id other, peer (deletePeer d id).2 other = if other = id then none else peer d other

namespace DeviceContract

variable {D : Type} (c : DeviceContract D) (db : Db)

/-- The operations of a handler on the device, with a database that stays as it is. -/
def exec : (op : ManagerOp) → D → op.Res × D
  | .repo op, d => (op.answer 0 db, d)
  | .lock op, d => ((op.exec 0 none db.nodeSyncLocks).1, d)
  | .getPeers _, d => (.ok (c.getPeers d), d)
  | .savePeer _ _ id updateFunc, d => c.savePeer d id updateFunc
  | .deletePeer _ _ id, d => c.deletePeer d id
  | .timeNow, d => ((0 : Time), d)
  | .newFreshKeypair, d => (.ok ⟨"", ""⟩, d)
  | .newPreSharedKey, d => (.ok "", d)
  | .publish _, d => ((), d)

theorem eval_deletePeers (iface : InterfaceIdentifier) (ids : List PeerIdentifier) (d : D)
    (other : PeerIdentifier) : c.peer ((deletePeers iface ids).eval (c.exec db) d).2 other =
      if other ∈ ids then none else c.peer d other := by
  induction ids generalizing d with
  | nil => rfl
  | cons id ids ih =>
    have step : ((deletePeers iface (id :: ids)).eval (c.exec db) d).2 =
        ((deletePeers iface ids).eval (c.exec db) (c.deletePeer d id).2).2 := rfl
    rw [step, ih, c.deleted]
    by_cases same : other = id <;> by_cases among : other ∈ ids <;> simp [same, among]

/-- What is on the device for a stored peer after its round -/
def synced (force : Bool) (onDevice : List PeerIdentifier) (d : D) (p : Peer) : Option PhysicalPeer :=
  if p.isDisabled then
    if p.identifier ∈ onDevice then none else c.peer d p.identifier
  else
    some (mergeToPhysicalPeer ((c.peer d p.identifier).getD (c.new p.identifier)) p force)

theorem eval_syncDbPeer (m : Manager) (iface : InterfaceIdentifier) (onDevice : List PeerIdentifier)
    {p : Peer} (key : p.interface.keyPair.publicKey = p.identifier) (d : D)
    (other : PeerIdentifier) :
    c.peer ((m.syncDbPeer iface onDevice p).eval (c.exec db) d).2 other =
      if other = p.identifier then c.synced m.cfg.core.forceClientIPAsAllowedIP onDevice d p
      else c.peer d other := by
  unfold Manager.syncDbPeer synced
  by_cases disabled : p.isDisabled = true
  · rw [if_pos disabled, if_pos disabled]
    by_cases among : p.identifier ∈ onDevice
    · rw [if_pos among, if_pos among]
      exact c.deleted d p.identifier other
    · rw [if_neg among, if_neg among]
      by_cases same : other = p.identifier
      · rw [if_pos same, same]
        rfl
      · rw [if_neg same]
        rfl
  · rw [if_neg disabled, if_neg disabled]
    have old : HeldAs p.identifier ((c.peer d p.identifier).getD (c.new p.identifier)) := by
      cases here : c.peer d p.identifier with
      | none => exact c.held_new p.identifier
      | some pp => exact c.held d p.identifier pp here
    have merged : HeldAs p.identifier (mergeToPhysicalPeer
        ((c.peer d p.identifier).getD (c.new p.identifier)) p
        m.cfg.core.forceClientIPAsAllowedIP) := ⟨rfl, key, old.importSource⟩
    have enabled : (mergeToPhysicalPeer ((c.peer d p.identifier).getD (c.new p.identifier)) p
        m.cfg.core.forceClientIPAsAllowedIP).backendExtras = some (.local ⟨false⟩) := by
      have other : controllerTypeLocal ≠ controllerTypeMikrotik := by decide
      simp only [mergeToPhysicalPeer, old.importSource, if_neg other, if_true,
        Bool.eq_false_iff.mpr disabled]
    have kept : ¬ some (BackendExtras.local ⟨false⟩) = some disabledExtras := by decide
    let merge : PhysicalPeer → Except Error PhysicalPeer := fun pp =>
      .ok (mergeToPhysicalPeer pp p m.cfg.core.forceClientIPAsAllowedIP)
    refine (c.saved d p.identifier merge _ rfl merged other).trans ?_
    rw [enabled, if_neg kept]

theorem eval_syncDbPeers (m : Manager) (iface : InterfaceIdentifier)
    (onDevice : List PeerIdentifier) {peers : List Peer}
    (keys : ∀ p ∈ peers, p.interface.keyPair.publicKey = p.identifier)
    (nodup : (peers.map Peer.identifier).Nodup) (d : D) :
    let d' := ((m.syncDbPeers iface onDevice peers).eval (c.exec db) d).2
    (∀ p ∈ peers, c.peer d' p.identifier =
      c.synced m.cfg.core.forceClientIPAsAllowedIP onDevice d p) ∧
    ∀ id ∉ peers.map Peer.identifier, c.peer d' id = c.peer d id := by
  intro d'
  induction peers generalizing d with
  | nil => exact ⟨fun p listed => (by cases listed), fun id _ => rfl⟩
  | cons first peers ih =>
    rw [List.map_cons, List.nodup_cons] at nodup
    let d₁ := ((m.syncDbPeer iface onDevice first).eval (c.exec db) d).2
    have step : d' = ((m.syncDbPeers iface onDevice peers).eval (c.exec db) d₁).2 :=
      congrArg Prod.snd (Program.eval_bind ..)
    have round := c.eval_syncDbPeer db m iface onDevice (keys first List.mem_cons_self) d
    obtain ⟨inside, outside⟩ :=
      ih (fun p listed => keys p (List.mem_cons_of_mem _ listed)) nodup.2 d₁
    rw [step]
    refine ⟨fun p listed => ?_, fun id absent => ?_⟩
    · rcases List.mem_cons.mp listed with rfl | later
      · rw [outside p.identifier nodup.1, round, if_pos rfl]
      · have other : p.identifier ≠ first.identifier := fun same =>
          nodup.1 (same ▸ List.mem_map_of_mem later)
        have before : c.peer d₁ p.identifier = c.peer d p.identifier :=
          (round p.identifier).trans (if_neg other)
        rw [inside p later, synced, synced, before]
    · rw [List.map_cons, List.mem_cons, not_or] at absent
      rw [outside id absent.2, round, if_neg absent.1]

/-- The enabled peer with an identifier that is stored for the interface -/
def enabledPeer (iface : InterfaceIdentifier) (id : PeerIdentifier) : Option Peer :=
  ((db.getInterfacePeers iface).find? (·.identifier = id)).filter fun p => !p.isDisabled

theorem nodup_getInterfacePeers (iface : InterfaceIdentifier) :
    ((db.getInterfacePeers iface).map Peer.identifier).Nodup := by
  rw [Db.getInterfacePeers, List.map_map]
  exact db.peers.nodup.sublist (List.filter_sublist.map Peer.identifier)

end DeviceContract

/-- A device that keeps its peers in a table -/
abbrev TableDevice := { t : Table PhysicalPeer.identifier // ∀ pp ∈ t.rows, HeldAs pp.identifier pp }

namespace TableDevice

def heldAs (id : PeerIdentifier) (pp : PhysicalPeer) : PhysicalPeer :=
  { pp with
    identifier := id
    keyPair := { pp.keyPair with publicKey := id }
    importSource := controllerTypeLocal }

theorem heldAs_eq {id : PeerIdentifier} {pp : PhysicalPeer} (held : HeldAs id pp) :
    heldAs id pp = pp := by
  have key : ({ pp.keyPair with publicKey := id } : KeyPair) = pp.keyPair := by
    rw [← held.publicKey]
  rw [heldAs, key, ← held.importSource, ← held.identifier]

def put (d : TableDevice) (id : PeerIdentifier) (pp : PhysicalPeer) : TableDevice :=
  ⟨d.1.upsert (heldAs id pp), fun other listed => by
    rcases Table.mem_upsert.mp listed with rfl | ⟨before, _⟩
    · exact ⟨rfl, rfl, rfl⟩
    · exact d.2 other before⟩

theorem find_put (d : TableDevice) {id : PeerIdentifier} {pp : PhysicalPeer} (held : HeldAs id pp)
    (other : PeerIdentifier) :
    (d.put id pp).1.find other = if other = id then some pp else d.1.find other := by
  have stored : (d.put id pp).1 = d.1.upsert pp := congrArg d.1.upsert (heldAs_eq held)
  rw [stored, Table.find_upsert, held.identifier]
  simp only [eq_comm]

def remove (d : TableDevice) (id : PeerIdentifier) : TableDevice :=
  ⟨d.1.filter (·.identifier ≠ id), fun pp listed => d.2 pp (List.mem_filter.mp listed).1⟩

theorem find_remove (d : TableDevice) (id other : PeerIdentifier) :
    (d.remove id).1.find other = if other = id then none else d.1.find other := by
  by_cases same : other = id
  · rw [if_pos same, same]
    exact Table.find_filter_self d.1 id
  · rw [if_neg same]
    exact Table.find_filter_of_ne d.1 same

def contract : DeviceContract TableDevice where
  peer d id := d.1.find id
  getPeers d := d.1.rows
  savePeer d id updateFunc :=
    match updateFunc ((d.1.find id).getD (heldAs id PhysicalPeer.zero)) with
    | .error err => (.error err, d)
    | .ok pp => (.ok (), if pp.backendExtras = some disabledExtras then d.remove id else d.put id pp)
  deletePeer d id := (.ok (), d.remove id)
  new id := heldAs id PhysicalPeer.zero
  listed d id := by
    rw [List.mem_map, ne_eq, Table.find_eq_none]
    push Not
    rfl
  held d id pp found := by
    obtain ⟨listed, rfl⟩ := Table.find_eq_some.mp found
    exact d.2 pp listed
  held_new id := ⟨rfl, rfl, rfl⟩
  saved d id updateFunc pp returned held other := by
    simp only [returned]
    split
    · exact find_remove d id other
    · exact find_put d held other
  deleted d id other := find_remove d id other

end TableDevice

/-- An interface with an enabled and a disabled peer -/
def twoPeers : Db :=
  let peer (id : PeerIdentifier) : Peer :=
    { Peer.zero with
      identifier := id, interfaceIdentifier := "wg0"
      interface := { Peer.zero.interface with keyPair := ⟨"", id⟩ } }
  (Db.empty.commitPeer "admin" 0 "enabled" (peer "enabled")).commitPeer "admin" 0 "disabled"
    { peer "disabled" with disabled := some 0 }

/-- The device holds the disabled peer and one that is not stored. -/
def foreignDevice : TableDevice :=
  let empty : TableDevice := ⟨Table.empty, fun _ listed => (by cases listed)⟩
  (empty.put "disabled" PhysicalPeer.zero).put "foreign" PhysicalPeer.zero

end WgPortal.WireGuard
