import WgPortal.Adapters.Database
import WgPortal.Library.Program

/-! The functions of `SqlRepo` that the wireguard manager calls, as operations
on the database. `SavePeer` is two of them, since its update function runs in
between: the transaction first reads or creates the row and last writes it. -/

namespace WgPortal.Adapters

open Domain Library

/-- The used addresses of each subnet; those outside all subnets are listed
under the empty one. -/
abbrev UsedIps := Option Cidr → List Cidr

namespace Db

/-- The addresses of interfaces and of peers, as `SELECT` lists them. -/
def usedIps (db : Db) : List Cidr :=
  (db.interfaces.rows.flatMap Interface.addresses) ++ db.peerAddresses.rows.map Prod.snd

/-- An address counts for the first subnet that contains it. -/
def getUsedIpsPerSubnet (db : Db) (subnets : List Cidr) : UsedIps :=
  fun subnet => db.usedIps.filter fun ip => subnets.find? (Cidr.contains · ip) = subnet

/-- The last used address is looked up by the text of the whole subnet, and the
text of an address alone is not a prefix. -/
def getNextPeerIPForSubnet (db : Db) (subnet : Cidr) : Except Error Cidr :=
  match db.peerAddresses.rows.find? (·.2 = subnet) with
  | some _ => .error (.other "failed to parse last IP")
  | none =>
    match Cidr.nextAddr subnet with
    | some start => .ok (Cidr.hostAddr start)
    | none => .error (.other "invalid start address")

/-- The columns of the fields of `domain.Peer`; an option has one for its value and
one for whether it may be overridden. -/
def peerColumns : List String :=
  ["created_by", "updated_by", "created_at", "updated_at",
    "endpoint_v", "endpoint_o", "endpoint_pubkey_v", "endpoint_pubkey_o",
    "allowed_ips_str_v", "allowed_ips_str_o", "extra_allowed_ips_str", "preshared_key",
    "persistent_keep_alive_v", "persistent_keep_alive_o",
    "display_name", "identifier", "user_identifier", "interface_identifier", "disabled",
    "disabled_reason", "expires_at", "ttl_locked", "notes", "auto_created",
    "private_key", "public_key", "iface_type", "check_alive_address",
    "iface_dns_str_v", "iface_dns_str_o", "iface_dns_search_str_v", "iface_dns_search_str_o",
    "iface_mtu_v", "iface_mtu_o", "iface_firewall_mark_v", "iface_firewall_mark_o",
    "iface_routing_table_v", "iface_routing_table_o", "iface_pre_up_v", "iface_pre_up_o",
    "iface_post_up_v", "iface_post_up_o", "iface_pre_down_v", "iface_pre_down_o",
    "iface_post_down_v", "iface_post_down_o"]

/-- What `GetAllPeers` selects. -/
def getAllPeersColumns : List String := ["id", "identifier", "display_name", "interface_identifier"]

/-- A query fails on a column that the table does not have. -/
def getAllPeers (db : Db) : Except Error (List PeerIdentifier) :=
  match getAllPeersColumns.find? (· ∉ peerColumns) with
  | some column => .error (.other ("no such column: " ++ column))
  | none => .ok (db.peers.rows.map Peer.identifier)

theorem getAllPeers_eq (db : Db) : db.getAllPeers = .error (.other "no such column: id") := by
  have missing : getAllPeersColumns.find? (· ∉ peerColumns) = some "id" := by decide
  rw [getAllPeers, missing]
  rfl

def deletePeerStatus (db : Db) (id : PeerIdentifier) : Db :=
  { db with peerStatuses := db.peerStatuses.filter (·.peerId ≠ id) }

@[simp] theorem deletePeerStatus_peers (db : Db) (id : PeerIdentifier) :
    (db.deletePeerStatus id).peers = db.peers := rfl

@[simp] theorem deletePeerStatus_interfaces (db : Db) (id : PeerIdentifier) :
    (db.deletePeerStatus id).interfaces = db.interfaces := rfl

@[simp] theorem deletePeerStatus_peerAddresses (db : Db) (id : PeerIdentifier) :
    (db.deletePeerStatus id).peerAddresses = db.peerAddresses := rfl

end Db

inductive RepoOp where
  | getAllInterfaces
  | getInterface (id : InterfaceIdentifier)
  | getInterfacePeers (id : InterfaceIdentifier)
  | getUserPeers (id : UserIdentifier)
  | getPeer (id : PeerIdentifier)
  /-- only the identifiers are read -/
  | getAllPeers
  | getAllPeerStatuses
  | deletePeerStatus (id : PeerIdentifier)
  | getUsedIpsPerSubnet (subnets : List Cidr)
  | getNextPeerIPForSubnet (subnet : Cidr)
  | getOrCreateInterface (userId : UserIdentifier) (id : InterfaceIdentifier)
  /-- `upsertInterface` -/
  | commitInterface (userId : UserIdentifier) (iface : Interface)
  | getOrCreatePeer (userId : UserIdentifier) (id : PeerIdentifier)
  /-- `upsertPeer` and the status record; answers with the peer as written -/
  | commitPeer (userId : UserIdentifier) (id : PeerIdentifier) (peer : Peer)
  | deletePeer (id : PeerIdentifier)

namespace RepoOp

abbrev Val : RepoOp → Type
  | getAllInterfaces => List Interface
  | getInterface _ => Interface
  | getInterfacePeers _ => List Peer
  | getUserPeers _ => List Peer
  | getPeer _ => Peer
  | getAllPeers => List PeerIdentifier
  | getAllPeerStatuses => List PeerStatus
  | deletePeerStatus _ => Unit
  | getUsedIpsPerSubnet _ => UsedIps
  | getNextPeerIPForSubnet _ => Cidr
  | getOrCreateInterface .. => Interface
  | commitInterface .. => Unit
  | getOrCreatePeer .. => Peer
  | commitPeer .. => Peer
  | deletePeer _ => Unit

/-- What an operation answers when no statement fails. -/
def answer (now : Time) (db : Db) : (op : RepoOp) → Except Error op.Val
  | getAllInterfaces => .ok db.getAllInterfaces
  | getInterface id => db.getInterface id
  | getInterfacePeers id => .ok (db.getInterfacePeers id)
  | getUserPeers id => .ok (db.getUserPeers id)
  | getPeer id => db.getPeer id
  | getAllPeers => db.getAllPeers
  | getAllPeerStatuses => .ok db.peerStatuses.rows
  | deletePeerStatus _ => .ok ()
  | getUsedIpsPerSubnet subnets => .ok (db.getUsedIpsPerSubnet subnets)
  | getNextPeerIPForSubnet subnet => db.getNextPeerIPForSubnet subnet
  | getOrCreateInterface userId id => .ok (db.getOrCreateInterface userId now id)
  | commitInterface .. => .ok ()
  | getOrCreatePeer userId id => .ok (db.getOrCreatePeer userId now id)
  | commitPeer userId _ peer =>
    .ok { peer with base := { peer.base with updatedBy := userId, updatedAt := now } }
  | deletePeer _ => .ok ()

/-- The database after an operation without a failing statement. -/
def apply (now : Time) (db : Db) : RepoOp → Db
  | deletePeerStatus id => db.deletePeerStatus id
  | commitInterface userId iface => db.commitInterface userId now iface
  | commitPeer userId id peer => db.commitPeer userId now id peer
  | deletePeer id => db.deletePeer id
  | _ => db

/-- A failing statement has no effect. -/
def exec (now : Time) (fault : Option Error) (op : RepoOp) (db : Db) : Except Error op.Val × Db :=
  match fault with
  | some err => (.error err, db)
  | none => (op.answer now db, op.apply now db)

end RepoOp

end WgPortal.Adapters
