import Mathlib.Data.List.Dedup
import Mathlib.Data.Option.Defs
import WgPortal.Domain.Basic
import WgPortal.Library.NetIPText
import WgPortal.Library.Table

/-! The kernel's WireGuard devices as the `wgctrl` library documents them: keys
and endpoints with their texts, the peers of a device, and what configuring a
peer changes. The order in which a device lists allowed IPs is left open. -/

namespace WgPortal.WgController

open Domain Library NetIP

/-- Keys and endpoints, known by their texts. Resolving any other text than that
of an address depends on the resolver. -/
structure Wgtypes where
  Key : Type
  UDPAddr : Type
  keyEq : DecidableEq Key
  addrEq : DecidableEq UDPAddr
  zeroKey : Key
  parseKey : String → Option Key
  keyText : Key → String
  parseKey_keyText : ∀ key, parseKey (keyText key) = some key
  resolveUDPAddr : String → Option UDPAddr
  addrText : UDPAddr → String
  resolveUDPAddr_addrText : ∀ addr, resolveUDPAddr (addrText addr) = some addr
  addrText_ne_empty : ∀ addr, addrText addr ≠ ""

variable {w : Wgtypes}

instance : DecidableEq w.Key := w.keyEq
instance : DecidableEq w.UDPAddr := w.addrEq

namespace Wgtypes

theorem keyText_injective : Function.Injective w.keyText := by
  intro k l same
  have parsed := w.parseKey_keyText k
  rw [same, w.parseKey_keyText] at parsed
  exact (Option.some.inj parsed).symm

end Wgtypes

/-- A peer of a device; the zero key stands for no preshared key. -/
structure WgPeer (w : Wgtypes) where
  publicKey : w.Key
  presharedKey : w.Key
  endpoint : Option w.UDPAddr
  persistentKeepaliveInterval : Duration
  lastHandshakeTime : Time
  receiveBytes : ℕ
  transmitBytes : ℕ
  allowedIPs : List Network
  protocolVersion : Int
deriving DecidableEq

/-- A peer as it is when it was just created. -/
def WgPeer.fresh (key : w.Key) : WgPeer w where
  publicKey := key
  presharedKey := w.zeroKey
  endpoint := none
  persistentKeepaliveInterval := 0
  lastHandshakeTime := 0
  receiveBytes := 0
  transmitBytes := 0
  allowedIPs := []
  protocolVersion := 1

/-- Equal up to the order of the allowed IPs. -/
structure WgPeer.Same (p q : WgPeer w) : Prop where
  publicKey : p.publicKey = q.publicKey
  presharedKey : p.presharedKey = q.presharedKey
  endpoint : p.endpoint = q.endpoint
  persistentKeepaliveInterval : p.persistentKeepaliveInterval = q.persistentKeepaliveInterval
  lastHandshakeTime : p.lastHandshakeTime = q.lastHandshakeTime
  receiveBytes : p.receiveBytes = q.receiveBytes
  transmitBytes : p.transmitBytes = q.transmitBytes
  allowedIPs : ∀ network, network ∈ p.allowedIPs ↔ network ∈ q.allowedIPs
  protocolVersion : p.protocolVersion = q.protocolVersion

theorem WgPeer.Same.refl (p : WgPeer w) : p.Same p :=
  ⟨rfl, rfl, rfl, rfl, rfl, rfl, rfl, fun _ => Iff.rfl, rfl⟩

theorem WgPeer.Same.symm {p q : WgPeer w} (same : p.Same q) : q.Same p :=
  ⟨same.publicKey.symm, same.presharedKey.symm, same.endpoint.symm,
    same.persistentKeepaliveInterval.symm, same.lastHandshakeTime.symm, same.receiveBytes.symm,
    same.transmitBytes.symm, fun n => (same.allowedIPs n).symm, same.protocolVersion.symm⟩

theorem WgPeer.Same.trans {p q r : WgPeer w} (first : p.Same q) (second : q.Same r) : p.Same r where
  publicKey := first.publicKey.trans second.publicKey
  presharedKey := first.presharedKey.trans second.presharedKey
  endpoint := first.endpoint.trans second.endpoint
  persistentKeepaliveInterval :=
    first.persistentKeepaliveInterval.trans second.persistentKeepaliveInterval
  lastHandshakeTime := first.lastHandshakeTime.trans second.lastHandshakeTime
  receiveBytes := first.receiveBytes.trans second.receiveBytes
  transmitBytes := first.transmitBytes.trans second.transmitBytes
  allowedIPs := fun n => (first.allowedIPs n).trans (second.allowedIPs n)
  protocolVersion := first.protocolVersion.trans second.protocolVersion

theorem WgPeer.Same.eq_fresh {p : WgPeer w} {key : w.Key} (same : p.Same (fresh key)) :
    p = fresh key := by
  have none : p.allowedIPs = [] :=
    List.eq_nil_iff_forall_not_mem.mpr fun n h => List.not_mem_nil ((same.allowedIPs n).mp h)
  cases p
  simp only at none
  simp only [fresh, WgPeer.mk.injEq]
  exact ⟨same.publicKey, same.presharedKey, same.endpoint, same.persistentKeepaliveInterval,
    same.lastHandshakeTime, same.receiveBytes, same.transmitBytes, none, same.protocolVersion⟩

theorem WgPeer.rel_refl (p : Option (WgPeer w)) : Option.Rel Same p p := by
  cases p with
  | none => exact .none
  | some p => exact .some (Same.refl p)

theorem WgPeer.rel_trans {p q r : Option (WgPeer w)} (first : Option.Rel Same p q)
    (second : Option.Rel Same q r) : Option.Rel Same p r := by
  cases first with
  | none => exact second
  | some first =>
    cases second with
    | some second => exact .some (first.trans second)

/-- A network is routed to one peer only. -/
structure Device (w : Wgtypes) where
  peers : Table (WgPeer.publicKey (w := w))
  routed : ∀ p ∈ peers.rows, ∀ q ∈ peers.rows, ∀ network,
    network ∈ p.allowedIPs → network ∈ q.allowedIPs → p = q

@[ext] theorem Device.ext {d d' : Device w} (peers : d.peers = d'.peers) : d = d' := by
  cases d
  cases d'
  simp only at peers
  subst peers
  rfl

def Device.find (d : Device w) (key : w.Key) : Option (WgPeer w) := d.peers.find key

def Device.empty : Device w := ⟨Table.empty, fun _ h => by cases h⟩

theorem Device.rows_eq_nil {d : Device w} : d.peers.rows = [] ↔ ∀ key, d.find key = none := by
  constructor
  · intro none key
    exact Table.find_eq_none.mpr fun peer h => absurd (none ▸ h) List.not_mem_nil
  · intro none
    refine List.eq_nil_iff_forall_not_mem.mpr fun peer h => ?_
    have found := Table.find_of_mem h
    rw [show d.peers.find peer.publicKey = Option.none from none _] at found
    cases found

theorem Device.eq_of_rows_eq_nil {d d' : Device w} (none : d.peers.rows = [])
    (none' : d'.peers.rows = []) : d = d' :=
  Device.ext (Table.ext (none.trans none'.symm))

/-- Absent values leave the peer's own unchanged. -/
structure PeerConfig (w : Wgtypes) where
  publicKey : w.Key
  remove : Bool
  updateOnly : Bool
  presharedKey : Option w.Key
  endpoint : Option w.UDPAddr
  persistentKeepaliveInterval : Option Duration
  replaceAllowedIPs : Bool
  allowedIPs : List Network

namespace PeerConfig

/-- The configuration that names a peer and nothing else. -/
def named (key : w.Key) : PeerConfig w where
  publicKey := key
  remove := false
  updateOnly := false
  presharedKey := none
  endpoint := none
  persistentKeepaliveInterval := none
  replaceAllowedIPs := false
  allowedIPs := []

/-- The peer that the configuration names, afterwards. -/
def configured (c : PeerConfig w) (p : WgPeer w) : WgPeer w :=
  { p with
    presharedKey := c.presharedKey.getD p.presharedKey
    endpoint := c.endpoint.or p.endpoint
    persistentKeepaliveInterval :=
      c.persistentKeepaliveInterval.getD p.persistentKeepaliveInterval
    allowedIPs := ((if c.replaceAllowedIPs then [] else p.allowedIPs) ++ c.allowedIPs).dedup }

/-- Any other peer afterwards. -/
def released (c : PeerConfig w) (p : WgPeer w) : WgPeer w :=
  { p with allowedIPs := p.allowedIPs.filter (· ∉ c.allowedIPs) }

theorem named_released (key : w.Key) : (named key).released = id := by
  funext p
  simp [released, named]

/-- Releasing networks respects equality up to order. -/
theorem rel_map_released (c : PeerConfig w) {p q : Option (WgPeer w)}
    (rel : Option.Rel WgPeer.Same p q) :
    Option.Rel WgPeer.Same (p.map c.released) (q.map c.released) := by
  cases rel with
  | none => exact .none
  | some same =>
    refine .some { same with allowedIPs := fun n => ?_ }
    simp only [released, List.mem_filter, same.allowedIPs n]

theorem rel_map_configured (c : PeerConfig w) {p q : Option (WgPeer w)}
    (rel : Option.Rel WgPeer.Same p q) :
    Option.Rel WgPeer.Same (p.map c.configured) (q.map c.configured) := by
  cases rel with
  | none => exact .none
  | some same =>
    have kept := same.allowedIPs
    refine .some
      { same with
        presharedKey := by simp only [configured, same.presharedKey]
        endpoint := by simp only [configured, same.endpoint]
        persistentKeepaliveInterval := by
          simp only [configured, same.persistentKeepaliveInterval]
        allowedIPs := fun n => ?_ }
    simp only [configured, List.mem_dedup, List.mem_append]
    split
    · rfl
    · rw [kept n]

/-- The peer that the configuration names, before. -/
def target (c : PeerConfig w) (d : Device w) : WgPeer w :=
  (d.find c.publicKey).getD (WgPeer.fresh c.publicKey)

/-- The peer with key `k` after device `d` was configured. -/
def outcome (c : PeerConfig w) (d : Device w) (k : w.Key) : Option (WgPeer w) :=
  if c.remove then
    if k = c.publicKey then none else d.find k
  else if c.updateOnly ∧ d.find c.publicKey = none then d.find k
  else if k = c.publicKey then some (c.configured (c.target d))
  else (d.find k).map c.released

end PeerConfig

/-- The client: how `ConfigureDevice` with one peer changes a device. -/
structure Client (w : Wgtypes) where
  configurePeer : Device w → PeerConfig w → Device w
  find_configurePeer : ∀ d c k,
    Option.Rel WgPeer.Same ((configurePeer d c).find k) (c.outcome d k)

namespace Client

variable (client : Client w) {d : Device w} {c : PeerConfig w} {k : w.Key}

theorem find_of_same {p : Option (WgPeer w)} (expected : c.outcome d k = p) :
    Option.Rel WgPeer.Same ((client.configurePeer d c).find k) p :=
  expected ▸ client.find_configurePeer d c k

theorem find_eq_none (expected : c.outcome d k = none) :
    (client.configurePeer d c).find k = none := Table.rel_none (client.find_of_same expected)

theorem find_eq_some {p : WgPeer w} (expected : c.outcome d k = some p) :
    ∃ q, (client.configurePeer d c).find k = some q ∧ q.Same p :=
  Table.rel_some (client.find_of_same expected)

end Client

end WgPortal.WgController
