import WgPortal.Adapters.NodeSyncLock
import WgPortal.Domain.Peer

/-! The tables of `SqlRepo` and the effect of its transactions on peers. The
addresses of a peer are the rows of the join table `peer_addresses`; a row of
`cidrs` is determined by its key. -/

namespace WgPortal.Adapters

open Domain Library

/-- The row of a peer, without its addresses. -/
def peerRow (peer : Peer) : Peer := { peer with interface := { peer.interface with addresses := [] } }

/-- `Preload("Addresses")` -/
def loadAddresses (peer : Peer) (addresses : List Cidr) : Peer :=
  { peer with interface := { peer.interface with addresses := addresses } }

/-- The primary key of a row are all its columns. -/
abbrev AddressTable := Table (id : PeerIdentifier × Cidr → PeerIdentifier × Cidr)

structure Db where
  interfaces : Table Interface.identifier
  peers : Table Peer.identifier
  peerAddresses : AddressTable
  peerStatuses : Table PeerStatus.peerId
  nodeSyncLocks : LockTable

namespace Db

def empty : Db := ⟨Table.empty, Table.empty, Table.empty, Table.empty, Table.empty⟩

def addressesOf (db : Db) (id : PeerIdentifier) : List Cidr :=
  (db.peerAddresses.rows.filter (·.1 = id)).map Prod.snd

def load (db : Db) (row : Peer) : Peer := loadAddresses row (db.addressesOf row.identifier)

/-- The stored peer as `GetPeer` returns it. -/
def peer (db : Db) (id : PeerIdentifier) : Option Peer := (db.peers.find id).map db.load

def getPeer (db : Db) (id : PeerIdentifier) : Except Error Peer :=
  match db.peer id with
  | some peer => .ok peer
  | none => .error .notFound

def getInterface (db : Db) (id : InterfaceIdentifier) : Except Error Interface :=
  match db.interfaces.find id with
  | some iface => .ok iface
  | none => .error .notFound

def getAllInterfaces (db : Db) : List Interface := db.interfaces.rows

def getInterfacePeers (db : Db) (id : InterfaceIdentifier) : List Peer :=
  (db.peers.rows.filter (·.interfaceIdentifier = id)).map db.load

def getUserPeers (db : Db) (id : UserIdentifier) : List Peer :=
  (db.peers.rows.filter (·.userIdentifier = id)).map db.load

/-- The row that `SavePeer` hands to its update function. -/
def getOrCreatePeer (db : Db) (ui : UserIdentifier) (now : Time) (id : PeerIdentifier) : Peer :=
  match db.peers.find id with
  | some row => row
  | none => { Peer.zero with base := ⟨ui, ui, now, now⟩, identifier := id }

/-- The row that is written for `peer`. -/
def updatedRow (ui : UserIdentifier) (now : Time) (peer : Peer) : Peer :=
  peerRow { peer with base := { peer.base with updatedBy := ui, updatedAt := now } }

def upsertPeer (db : Db) (ui : UserIdentifier) (now : Time) (peer : Peer) : Db :=
  { db with
    peers := db.peers.upsert (updatedRow ui now peer)
    peerAddresses := (db.peerAddresses.filter (·.1 ≠ peer.identifier)).insertNew
      (peer.interface.addresses.map fun cidr => (peer.identifier, cidr)) }

/-- A status record for a new peer; one left over from another identifier is reset. -/
def ensurePeerStatus (db : Db) (now : Time) (id : PeerIdentifier) (peer : Peer) : Db :=
  match db.peerStatuses.find id with
  | some status =>
    if status.peerId ≠ peer.identifier then
      { db with peerStatuses := db.peerStatuses.upsert (PeerStatus.fresh id now) }
    else db
  | none => { db with peerStatuses := db.peerStatuses.upsert (PeerStatus.fresh id now) }

/-- What `SavePeer` commits when its update function returned `peer`. -/
def commitPeer (db : Db) (ui : UserIdentifier) (now : Time) (id : PeerIdentifier)
    (peer : Peer) : Db :=
  (db.upsertPeer ui now peer).ensurePeerStatus now id peer

/-- The row that `SaveInterface` hands to its update function. -/
def getOrCreateInterface (db : Db) (ui : UserIdentifier) (now : Time) (id : InterfaceIdentifier) :
    Interface :=
  match db.interfaces.find id with
  | some row => row
  | none => { Interface.zero with base := ⟨ui, ui, now, now⟩, identifier := id }

theorem getOrCreateInterface_identifier (db : Db) (ui : UserIdentifier) (now : Time)
    (id : InterfaceIdentifier) : (db.getOrCreateInterface ui now id).identifier = id := by
  unfold getOrCreateInterface
  split
  · rename_i row found
    exact Table.key_of_find found
  · rfl

/-- What `SaveInterface` commits when its update function returned `iface`. -/
def commitInterface (db : Db) (ui : UserIdentifier) (now : Time) (iface : Interface) : Db :=
  { db with
    interfaces := db.interfaces.upsert
      { iface with
        base := { iface.base with updatedBy := ui, updatedAt := now }
        addresses := iface.addresses.dedup } }

def deletePeer (db : Db) (id : PeerIdentifier) : Db :=
  { db with
    peers := db.peers.filter (·.identifier ≠ id)
    peerAddresses := db.peerAddresses.filter (·.1 ≠ id)
    peerStatuses := db.peerStatuses.filter (·.peerId ≠ id) }

@[simp] theorem ensurePeerStatus_peers (db : Db) (now : Time) (id : PeerIdentifier) (peer : Peer) :
    (db.ensurePeerStatus now id peer).peers = db.peers := by
  unfold ensurePeerStatus
  split
  · split <;> rfl
  · rfl

@[simp] theorem ensurePeerStatus_peerAddresses (db : Db) (now : Time) (id : PeerIdentifier)
    (peer : Peer) : (db.ensurePeerStatus now id peer).peerAddresses = db.peerAddresses := by
  unfold ensurePeerStatus
  split
  · split <;> rfl
  · rfl

@[simp] theorem ensurePeerStatus_interfaces (db : Db) (now : Time) (id : PeerIdentifier)
    (peer : Peer) : (db.ensurePeerStatus now id peer).interfaces = db.interfaces := by
  unfold ensurePeerStatus
  split
  · split <;> rfl
  · rfl

theorem commitPeer_peers (db : Db) (ui : UserIdentifier) (now : Time) (id : PeerIdentifier)
    (peer : Peer) : (db.commitPeer ui now id peer).peers = db.peers.upsert (updatedRow ui now peer) :=
  ensurePeerStatus_peers ..

theorem commitPeer_peerAddresses (db : Db) (ui : UserIdentifier) (now : Time) (id : PeerIdentifier)
    (peer : Peer) : (db.commitPeer ui now id peer).peerAddresses =
      (db.peerAddresses.filter (·.1 ≠ peer.identifier)).insertNew
        (peer.interface.addresses.map fun cidr => (peer.identifier, cidr)) :=
  ensurePeerStatus_peerAddresses ..

theorem addressesOf_commitPeer_of_ne (db : Db) (ui : UserIdentifier) (now : Time)
    (id : PeerIdentifier) (peer : Peer) {other : PeerIdentifier} (ne : other ≠ peer.identifier) :
    (db.commitPeer ui now id peer).addressesOf other = db.addressesOf other := by
  have others : ∀ row ∈ peer.interface.addresses.map fun cidr => (peer.identifier, cidr),
      decide (row.1 = other) = false := by
    intro row hrow
    obtain ⟨cidr, _, rfl⟩ := List.mem_map.mp hrow
    exact decide_eq_false ne.symm
  simp only [addressesOf, commitPeer_peerAddresses, Table.filter_insertNew others, Table.filter,
    List.filter_filter]
  congr 1
  refine List.filter_congr fun row _ => ?_
  by_cases same : row.1 = other
  · simp [same, ne]
  · simp [same]

/-- The stored addresses are those of the peer, if they are distinct. -/
theorem addressesOf_commitPeer_self (db : Db) (ui : UserIdentifier) (now : Time)
    (id : PeerIdentifier) {peer : Peer} (nodup : peer.interface.addresses.Nodup) :
    (db.commitPeer ui now id peer).addressesOf peer.identifier = peer.interface.addresses := by
  have rows : ((db.peerAddresses.filter (·.1 ≠ peer.identifier)).insertNew
      (peer.interface.addresses.map fun cidr => (peer.identifier, cidr))).rows =
      (db.peerAddresses.filter (·.1 ≠ peer.identifier)).rows ++
        peer.interface.addresses.map fun cidr => (peer.identifier, cidr) := by
    refine Table.rows_insertNew ?_ ?_
    · rw [List.map_id]
      exact nodup.map fun _ _ same => (Prod.mk.inj same).2
    · intro r hr row hrow same
      obtain ⟨cidr, _, rfl⟩ := List.mem_map.mp hrow
      have other := (List.mem_filter.mp hr).2
      rw [show r = (peer.identifier, cidr) from same] at other
      simp at other
  simp only [addressesOf, commitPeer_peerAddresses, rows, List.filter_append, List.map_append]
  have none : (db.peerAddresses.filter (·.1 ≠ peer.identifier)).rows.filter
      (·.1 = peer.identifier) = [] := by
    simp [Table.filter, List.filter_filter]
  have all : (peer.interface.addresses.map fun cidr => (peer.identifier, cidr)).filter
      (·.1 = peer.identifier) =
        peer.interface.addresses.map fun cidr => (peer.identifier, cidr) := by
    simp [List.filter_map, Function.comp_def]
  rw [none, all, List.map_map]
  exact List.map_id _

/-- The stored addresses are those of the peer, each once. -/
theorem mem_addressesOf_commitPeer (db : Db) (ui : UserIdentifier) (now : Time)
    (id : PeerIdentifier) (peer : Peer) (c : Cidr) :
    c ∈ (db.commitPeer ui now id peer).addressesOf peer.identifier ↔
      c ∈ peer.interface.addresses := by
  simp only [addressesOf, commitPeer_peerAddresses, List.mem_map, List.mem_filter,
    Table.mem_insertNew, decide_eq_true_eq]
  constructor
  · rintro ⟨row, ⟨others | ⟨c', hc', rfl⟩, same⟩, rfl⟩
    · have other := (List.mem_filter.mp others).2
      simp [same] at other
    · exact hc'
  · exact fun h => ⟨(peer.identifier, c), ⟨.inr ⟨c, h, rfl⟩, rfl⟩, rfl⟩

theorem nodup_addressesOf (db : Db) (id : PeerIdentifier) : (db.addressesOf id).Nodup := by
  have nodup : db.peerAddresses.rows.Nodup := by
    simpa using db.peerAddresses.nodup
  refine List.Nodup.map_on ?_ (nodup.filter _)
  intro a ha b hb same
  have first : a.1 = id := by simpa using (List.mem_filter.mp ha).2
  have second : b.1 = id := by simpa using (List.mem_filter.mp hb).2
  exact Prod.ext (first.trans second.symm) same

theorem find_of_peer {db : Db} {id : PeerIdentifier} {peer : Peer} (stored : db.peer id = some peer) :
    ∃ row, db.peers.find id = some row ∧ db.load row = peer := Option.map_eq_some_iff.mp stored

theorem identifier_of_peer {db : Db} {id : PeerIdentifier} {peer : Peer}
    (stored : db.peer id = some peer) : peer.identifier = id := by
  obtain ⟨row, found, rfl⟩ := find_of_peer stored
  have named : row.identifier = id := Table.key_of_find found
  exact named

theorem nodup_addresses_of_peer {db : Db} {id : PeerIdentifier} {peer : Peer}
    (stored : db.peer id = some peer) : peer.interface.addresses.Nodup := by
  obtain ⟨row, _, rfl⟩ := find_of_peer stored
  exact db.nodup_addressesOf row.identifier

theorem peer_of_mem_getInterfacePeers {db : Db} {id : InterfaceIdentifier} {peer : Peer}
    (listed : peer ∈ db.getInterfacePeers id) : db.peer peer.identifier = some peer := by
  obtain ⟨row, hrow, rfl⟩ := List.mem_map.mp listed
  have found := Table.find_of_mem (List.mem_filter.mp hrow).1
  exact congrArg (Option.map db.load) found

/-- What is stored for a peer after its commit. -/
theorem peer_commitPeer_self (db : Db) (ui : UserIdentifier) (now : Time) (id : PeerIdentifier)
    {peer : Peer} (nodup : peer.interface.addresses.Nodup) :
    (db.commitPeer ui now id peer).peer peer.identifier =
      some { peer with base := { peer.base with updatedBy := ui, updatedAt := now } } := by
  have found : (db.commitPeer ui now id peer).peers.find peer.identifier =
      some (updatedRow ui now peer) := by
    rw [commitPeer_peers]
    exact Table.find_upsert_self db.peers (updatedRow ui now peer)
  have addresses := addressesOf_commitPeer_self db ui now id nodup
  simp only [Db.peer, found, Option.map_some, load, updatedRow, peerRow, loadAddresses, addresses]

theorem exists_peer_commitPeer (db : Db) (ui : UserIdentifier) (now : Time) (id : PeerIdentifier)
    (peer : Peer) : ∃ addresses, (∀ c, c ∈ addresses ↔ c ∈ peer.interface.addresses) ∧
      (db.commitPeer ui now id peer).peer peer.identifier =
        some (loadAddresses
          { peer with base := { peer.base with updatedBy := ui, updatedAt := now } } addresses) := by
  refine ⟨_, mem_addressesOf_commitPeer db ui now id peer, ?_⟩
  have found : (db.commitPeer ui now id peer).peers.find peer.identifier =
      some (updatedRow ui now peer) := by
    rw [commitPeer_peers]
    exact Table.find_upsert_self db.peers (updatedRow ui now peer)
  simp only [Db.peer, found, Option.map_some, load]
  rfl

theorem peer_commitPeer_of_ne (db : Db) (ui : UserIdentifier) (now : Time) (id : PeerIdentifier)
    (peer : Peer) {other : PeerIdentifier} (ne : other ≠ peer.identifier) :
    (db.commitPeer ui now id peer).peer other = db.peer other := by
  have found : (db.commitPeer ui now id peer).peers.find other = db.peers.find other := by
    rw [commitPeer_peers]
    exact Table.find_upsert_of_ne db.peers ne.symm
  simp only [Db.peer, found]
  cases here : db.peers.find other with
  | none => rfl
  | some row =>
    have ne' : row.identifier ≠ peer.identifier := by rwa [Table.key_of_find here]
    simp only [Option.map_some, load, addressesOf_commitPeer_of_ne db ui now id peer ne']

theorem peer_deletePeer_self (db : Db) (id : PeerIdentifier) : (db.deletePeer id).peer id = none := by
  have gone : (db.deletePeer id).peers.find id = none := Table.find_filter_self db.peers id
  rw [Db.peer, gone, Option.map_none]

theorem peer_deletePeer_of_ne (db : Db) {id other : PeerIdentifier} (ne : other ≠ id) :
    (db.deletePeer id).peer other = db.peer other := by
  have found : (db.deletePeer id).peers.find other = db.peers.find other :=
    Table.find_filter_of_ne db.peers ne
  rw [Db.peer, found, Db.peer]
  refine Option.map_congr fun row stored => ?_
  have named : row.identifier = other := Table.key_of_find stored
  have addresses : (db.deletePeer id).addressesOf row.identifier = db.addressesOf row.identifier := by
    simp only [addressesOf, deletePeer, Table.filter, List.filter_filter]
    congr 1
    refine List.filter_congr fun entry _ => ?_
    by_cases same : entry.1 = row.identifier
    · simp [same, named, ne]
    · simp [same]
  rw [load, load, addresses]

theorem getInterfacePeers_congr {db db' : Db} (peers : db'.peers = db.peers)
    (peerAddresses : db'.peerAddresses = db.peerAddresses) (id : InterfaceIdentifier) :
    db'.getInterfacePeers id = db.getInterfacePeers id := by
  have loaded : db'.load = db.load := by
    funext row
    simp only [load, addressesOf, peerAddresses]
  rw [getInterfacePeers, getInterfacePeers, peers, loaded]

theorem nodup_getInterfacePeers (db : Db) (id : InterfaceIdentifier) :
    ((db.getInterfacePeers id).map Peer.identifier).Nodup := by
  have identifiers : (db.getInterfacePeers id).map Peer.identifier =
      (db.peers.rows.filter (·.interfaceIdentifier = id)).map Peer.identifier := by
    rw [getInterfacePeers, List.map_map]
    rfl
  rw [identifiers]
  exact db.peers.nodup.sublist (List.filter_sublist.map _)

/-- Peers of an interface, after a commit for a peer of another one. -/
theorem getInterfacePeers_commitPeer (db : Db) (ui : UserIdentifier) (now : Time)
    (id : PeerIdentifier) {peer : Peer} {other : InterfaceIdentifier}
    (ne : peer.interfaceIdentifier ≠ other)
    (stays : ∀ row, db.peers.find peer.identifier = some row → row.interfaceIdentifier ≠ other) :
    (db.commitPeer ui now id peer).getInterfacePeers other = db.getInterfacePeers other := by
  have rows : (db.commitPeer ui now id peer).peers.rows.filter (·.interfaceIdentifier = other) =
      db.peers.rows.filter (·.interfaceIdentifier = other) := by
    rw [commitPeer_peers]
    simp only [Table.upsert, List.filter_append, Table.filter, List.filter_filter]
    have last : [updatedRow ui now peer].filter (·.interfaceIdentifier = other) = [] := by
      simp [updatedRow, peerRow, ne]
    rw [last, List.append_nil]
    refine List.filter_congr fun row hrow => ?_
    by_cases same : row.identifier = peer.identifier
    · have elsewhere := stays row (same ▸ Table.find_of_mem hrow)
      simp [elsewhere]
    · simp [updatedRow, peerRow, same]
  simp only [getInterfacePeers, rows]
  refine List.map_congr_left fun row hrow => ?_
  have here : row.interfaceIdentifier = other := by simpa using (List.mem_filter.mp hrow).2
  have ne' : row.identifier ≠ peer.identifier := by
    intro same
    exact stays row (same ▸ Table.find_of_mem (List.mem_filter.mp hrow).1) here
  simp only [load, addressesOf_commitPeer_of_ne db ui now id peer ne']

end Db

end WgPortal.Adapters
