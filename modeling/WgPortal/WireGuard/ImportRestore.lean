import WgPortal.WireGuard.Import

/-! When restoring the imported peers of an interface leaves its device as it was. -/

namespace WgPortal.WireGuard.ImportRestore

open Domain Library NetIP Adapters App Config WgController LocalController
open ManagerProgram (issue)

variable {w : Wgtypes} {force : Bool}

/-- What the import makes of a physical peer, as far as the merge depends on it. -/
structure ImportedAs (iface : Interface) (pp : PhysicalPeer) (p : Peer) : Prop where
  identifier : p.identifier = pp.identifier
  publicKey : p.interface.keyPair.publicKey = pp.keyPair.publicKey
  enabled : p.isDisabled = false
  endpoint : p.endpoint.value = pp.endpoint
  presharedKey : p.presharedKey = pp.presharedKey
  persistentKeepalive : p.persistentKeepalive.value = pp.persistentKeepalive
  allowedIPsStr : p.allowedIPsStr.value = iface.peerDefAllowedIPsStr
  extraAllowedIPsStr : p.extraAllowedIPsStr = ""
  type : p.interface.type = (counterpart iface.type).1
  addresses : ∀ c, c ∈ p.interface.addresses ↔ c ∈ pp.allowedIPs

/-- The networks that an imported peer is restored with. -/
def restoredNetworks (addresses : List Cidr) (type : InterfaceType) (force : Bool)
    (networks : List Network) : List Network :=
  if type = .server ∨ (force = false ∧ addresses ≠ []) then addresses.map Network.of
  else networks.map Network.host

theorem cidrsToString_eq_empty {cidrs : List Cidr} : cidrsToString cidrs = "" ↔ cidrs = [] := by
  constructor
  · intro empty
    rw [← cidrsOrNil_cidrsToString cidrs, empty]
    decide
  · intro none
    rw [none]
    rfl

/-- The networks that the merge computes where the allowed IPs are the addresses of
the interface and there are no extra ones. -/
theorem mergedAllowedIPs_imported (force : Bool) {addresses : List Cidr} {p : Peer}
    (listed : p.allowedIPsStr.value = cidrsToString addresses) (extra : p.extraAllowedIPsStr = "") :
    (mergedAllowedIPs p force).map Network.of =
      if p.interface.type = .server ∨ (force = false ∧ addresses ≠ []) then
        addresses.map Network.of
      else p.interface.addresses.map (Network.of ∘ Cidr.hostAddr) := by
  have none : cidrsOrNil "" = [] := by decide
  have printed : cidrsOrNil p.allowedIPsStr.value = addresses := by
    rw [listed, cidrsOrNil_cidrsToString]
  have empty : p.allowedIPsStr.value = "" ↔ addresses = [] := by
    rw [listed, cidrsToString_eq_empty]
  by_cases server : p.interface.type = .server
  · simp [mergedAllowedIPs, extra, server, printed, none]
  · cases force with
    | true => simp [mergedAllowedIPs, extra, server, none]
    | false =>
      by_cases absent : addresses = []
      · simp [mergedAllowedIPs, extra, server, none, empty.mpr absent, absent]
      · have present : p.allowedIPsStr.value ≠ "" := fun h => absent (empty.mp h)
        simp [mergedAllowedIPs, extra, server, none, present, absent, printed]

theorem mem_savedConfig {addresses : List Cidr} {iface : Interface}
    (listed : iface.peerDefAllowedIPsStr = cidrsToString addresses) {networks : List Network}
    {pp : PhysicalPeer} (same : pp.allowedIPs = networks.map Network.net) {p : Peer}
    (imported : ImportedAs iface pp p) (network : Network) :
    network ∈ (savedConfig w p force).allowedIPs ↔
      network ∈ restoredNetworks addresses (counterpart iface.type).1 force networks := by
  have config : (savedConfig w p force).allowedIPs = (mergedAllowedIPs p force).map Network.of := by
    simp [savedConfig, imported.enabled]
  rw [config, mergedAllowedIPs_imported force (imported.allowedIPsStr.trans listed)
    imported.extraAllowedIPsStr, imported.type, restoredNetworks]
  split
  · rfl
  · simp only [List.mem_map, imported.addresses, same]
    constructor
    · rintro ⟨_, ⟨n, hn, rfl⟩, rfl⟩
      exact ⟨n, hn, rfl⟩
    · rintro ⟨n, hn, rfl⟩
      exact ⟨_, ⟨n, hn, rfl⟩, rfl⟩

/-- The physical peer of a device's peer has its values. -/
theorem canonical_of_importedAs {iface : Interface} {q : WgPeer w} {p : Peer}
    (imported : ImportedAs iface (convertWireGuardPeer q) p) : Canonical w p where
  enabled := imported.enabled
  identifier := ⟨q.publicKey, imported.identifier.symm⟩
  publicKey := imported.publicKey.trans imported.identifier.symm

theorem toPublicKey_of_importedAs {iface : Interface} {q : WgPeer w} {p : Peer}
    (imported : ImportedAs iface (convertWireGuardPeer q) p) :
    toPublicKey w p.identifier = q.publicKey := by
  rw [imported.identifier]
  simp only [convertWireGuardPeer, toPublicKey, w.parseKey_keyText, Option.getD_some]

/-- A keepalive of whole seconds, or of less than one, which is not sent. -/
def KeepaliveKept (q : WgPeer w) : Prop :=
  q.persistentKeepaliveInterval.tdiv second = 0 ∨
    q.persistentKeepaliveInterval.tdiv second * second = q.persistentKeepaliveInterval

theorem savedConfig_importedAs (force : Bool) {iface : Interface} {q : WgPeer w} {p : Peer}
    (imported : ImportedAs iface (convertWireGuardPeer q) p) :
    (savedConfig w p force).presharedKey.getD q.presharedKey = q.presharedKey ∧
      (savedConfig w p force).endpoint.or q.endpoint = q.endpoint ∧
      ((savedConfig w p force).persistentKeepaliveInterval.getD q.persistentKeepaliveInterval =
        q.persistentKeepaliveInterval ↔ KeepaliveKept q) := by
  have presharedKey := imported.presharedKey
  have endpoint := imported.endpoint
  have keepalive := imported.persistentKeepalive
  simp only [convertWireGuardPeer] at presharedKey endpoint keepalive
  refine ⟨?_, ?_, ?_⟩
  · by_cases zero : q.presharedKey = w.zeroKey
    · simp [savedConfig, imported.enabled, presharedKey, zero]
    · simp only [zero, if_false] at presharedKey
      simp only [savedConfig, imported.enabled, presharedKey, w.parseKey_keyText, Bool.false_eq_true,
        if_false]
      split <;> rfl
  · cases addr : q.endpoint with
    | none =>
      rw [addr] at endpoint
      simp [savedConfig, imported.enabled, endpoint]
    | some addr' =>
      rw [addr] at endpoint
      simp [savedConfig, imported.enabled, endpoint, w.addrText_ne_empty, w.resolveUDPAddr_addrText]
  · by_cases zero : q.persistentKeepaliveInterval.tdiv second = 0
    · simp [savedConfig, imported.enabled, keepalive, zero, KeepaliveKept]
    · simp [savedConfig, imported.enabled, keepalive, zero, KeepaliveKept]

/-- The peers of a device as they were imported, in some order. -/
structure Imported (iface : Interface) (d : Device w) (ps : List Peer) : Prop where
  all : ∀ q ∈ d.peers.rows, ∃ p ∈ ps, ImportedAs iface (convertWireGuardPeer q) p
  only : ∀ p ∈ ps, ∃ q ∈ d.peers.rows, ImportedAs iface (convertWireGuardPeer q) p
  nodup : (ps.map fun p => toPublicKey w p.identifier).Nodup

theorem Imported.canonical {iface : Interface} {d : Device w} {ps : List Peer}
    (imported : Imported iface d ps) {p : Peer} (hp : p ∈ ps) : Canonical w p := by
  obtain ⟨q, _, as⟩ := imported.only p hp
  exact canonical_of_importedAs as

/-- The settings of a peer of the device are the same afterwards. -/
structure SameSettings (q q' : WgPeer w) : Prop where
  presharedKey : q'.presharedKey = q.presharedKey
  persistentKeepalive : q'.persistentKeepaliveInterval = q.persistentKeepaliveInterval
  endpoint : q'.endpoint = q.endpoint
  allowedIPs : ∀ network, network ∈ q'.allowedIPs ↔ network ∈ q.allowedIPs

def Unchanged (d d' : Device w) : Prop :=
  ∀ q ∈ d.peers.rows, ∃ q', d'.find q.publicKey = some q' ∧ SameSettings q q'

variable (client : Client w)

/-- A peer of the device after all were restored. -/
theorem find_restored (force : Bool) {iface : Interface} {addresses : List Cidr} {d : Device w}
    {ps : List Peer} (listed : iface.peerDefAllowedIPsStr = cidrsToString addresses) (imported : Imported iface d ps)
    {q : WgPeer w} (hq : q ∈ d.peers.rows) {before later : List Peer} {p : Peer}
    (split : ps = before ++ p :: later) (as : ImportedAs iface (convertWireGuardPeer q) p) :
    ∃ q', (savedDevice client force d ps).find q.publicKey = some q' ∧
      (SameSettings q q' ↔ KeepaliveKept q ∧ ∀ network, network ∈ q.allowedIPs ↔
        network ∈ restoredNetworks addresses (counterpart iface.type).1 force q.allowedIPs ∧
          ¬ Lost w force later network) := by
  subst split
  obtain ⟨q', found, saved⟩ := find_savedDevice_at client force before
    (fun _ hp => imported.canonical hp) imported.nodup d
  have key := toPublicKey_of_importedAs as
  have old : oldPeer d q.publicKey = q := by
    simp only [oldPeer, Device.find, Table.find_of_mem hq, Option.getD_some]
  rw [key, old] at saved
  rw [key] at found
  obtain ⟨presharedKey, endpoint, keepalive⟩ := savedConfig_importedAs force as
  have networks : ∀ network, network ∈ q'.allowedIPs ↔
      network ∈ restoredNetworks addresses (counterpart iface.type).1 force q.allowedIPs ∧
        ¬ Lost w force later network := by
    intro network
    rw [saved.allowedIPs, mem_savedConfig listed rfl as]
  refine ⟨q', found, ?_⟩
  constructor
  · intro same
    refine ⟨keepalive.mp (saved.persistentKeepalive.symm.trans same.persistentKeepalive), ?_⟩
    intro network
    rw [← networks, same.allowedIPs]
  · rintro ⟨kept, same⟩
    refine ⟨saved.presharedKey.trans presharedKey,
      saved.persistentKeepalive.trans (keepalive.mpr kept), saved.endpoint.trans endpoint, ?_⟩
    intro network
    rw [networks, same]

/-- The networks of a peer of the device, if all are restored. -/
def NetworksKept (iface : Interface) (addresses : List Cidr) (force : Bool) (ps : List Peer)
    (q : WgPeer w) : Prop :=
  ∀ before p later, ps = before ++ p :: later → toPublicKey w p.identifier = q.publicKey →
    ∀ network, network ∈ q.allowedIPs ↔
      network ∈ restoredNetworks addresses (counterpart iface.type).1 force q.allowedIPs ∧
        ¬ Lost w force later network

theorem Imported.eq_of_key {iface : Interface} {d : Device w} {ps : List Peer}
    (imported : Imported iface d ps) {q : WgPeer w} (hq : q ∈ d.peers.rows) {p : Peer}
    (hp : p ∈ ps) (key : toPublicKey w p.identifier = q.publicKey) :
    ImportedAs iface (convertWireGuardPeer q) p := by
  obtain ⟨q', hq', as⟩ := imported.only p hp
  have same : q'.publicKey = q.publicKey := (toPublicKey_of_importedAs as).symm.trans key
  rwa [List.inj_on_of_nodup_map d.peers.nodup hq' hq same] at as

theorem unchanged_iff {iface : Interface} {addresses : List Cidr} {d : Device w} {ps : List Peer}
    (listed : iface.peerDefAllowedIPsStr = cidrsToString addresses)
    (imported : Imported iface d ps) :
    Unchanged d (savedDevice client force d ps) ↔
      ∀ q ∈ d.peers.rows, KeepaliveKept q ∧ NetworksKept iface addresses force ps q := by
  constructor
  · intro unchanged q hq
    obtain ⟨q₁, found₁, same⟩ := unchanged q hq
    have each : ∀ before p later, ps = before ++ p :: later →
        ImportedAs iface (convertWireGuardPeer q) p → KeepaliveKept q ∧
          ∀ network, network ∈ q.allowedIPs ↔
            network ∈ restoredNetworks addresses (counterpart iface.type).1 force q.allowedIPs ∧
              ¬ Lost w force later network := by
      intro before p later split as
      obtain ⟨q₂, found₂, settings⟩ := find_restored client force listed imported hq
        split as
      have equal : q₁ = q₂ := Option.some.inj (found₁.symm.trans found₂)
      exact settings.mp (equal ▸ same)
    obtain ⟨p, hp, as⟩ := imported.all q hq
    obtain ⟨before, later, split⟩ := List.append_of_mem hp
    refine ⟨(each before p later split as).1, fun before p later split key => ?_⟩
    have hp : p ∈ ps := split ▸ List.mem_append_right _ List.mem_cons_self
    exact (each before p later split (imported.eq_of_key hq hp key)).2
  · intro kept q hq
    obtain ⟨p, hp, as⟩ := imported.all q hq
    obtain ⟨before, later, split⟩ := List.append_of_mem hp
    obtain ⟨q', found, settings⟩ := find_restored client force listed imported hq
      split as
    have key := toPublicKey_of_importedAs as
    exact ⟨q', found, settings.mpr ⟨(kept q hq).1, (kept q hq).2 before p later split key⟩⟩

omit client in
theorem lost_iff {iface : Interface} {addresses : List Cidr} {d : Device w} {ps : List Peer}
    (listed : iface.peerDefAllowedIPsStr = cidrsToString addresses) (imported : Imported iface d ps)
    {later : List Peer} (sub : ∀ p ∈ later, p ∈ ps) (network : Network) :
    Lost w force later network ↔ ∃ p ∈ later, ∃ q ∈ d.peers.rows,
      toPublicKey w p.identifier = q.publicKey ∧
        network ∈ restoredNetworks addresses (counterpart iface.type).1 force q.allowedIPs := by
  constructor
  · rintro ⟨p, hp, taken⟩
    obtain ⟨q, hq, as⟩ := imported.only p (sub p hp)
    exact ⟨p, hp, q, hq, toPublicKey_of_importedAs as, (mem_savedConfig listed rfl as _).mp taken⟩
  · rintro ⟨p, hp, q, hq, key, taken⟩
    exact ⟨p, hp, (mem_savedConfig listed rfl (imported.eq_of_key hq (sub p hp) key) _).mpr taken⟩

/-- The peer is restored last. -/
def IsLast (ps : List Peer) (q : WgPeer w) : Prop :=
  ps.getLast?.map Peer.identifier = some (w.keyText q.publicKey)

omit client in
theorem isLast_iff {iface : Interface} {d : Device w} {ps : List Peer}
    (imported : Imported iface d ps) {q : WgPeer w} {before later : List Peer} {p : Peer}
    (split : ps = before ++ p :: later) (as : ImportedAs iface (convertWireGuardPeer q) p) :
    IsLast ps q ↔ later = [] := by
  subst split
  constructor
  · intro last
    cases later with
    | nil => rfl
    | cons next later =>
      cases found : (next :: later).getLast? with
      | none => simp at found
      | some final =>
        have among : final ∈ next :: later := List.mem_of_getLast? found
        have whole : (before ++ p :: next :: later).getLast? = some final := by
          rw [List.getLast?_append, List.getLast?_cons_cons, found, Option.some_or]
        rw [IsLast, whole, Option.map_some, Option.some.injEq] at last
        have nodup := imported.nodup
        rw [List.map_append, List.nodup_append, List.map_cons, List.nodup_cons] at nodup
        have same : p.identifier = final.identifier := by
          rw [last, as.identifier]
          rfl
        refine absurd ?_ nodup.2.1.1
        rw [same]
        exact List.mem_map_of_mem among
  · intro empty
    have final : (before ++ p :: later).getLast? = some p := by simp [empty]
    rw [IsLast, final, Option.map_some, as.identifier]
    rfl

omit client in
/-- All peers get the networks of the addresses, and the last one takes them all. -/
theorem networksKept_addresses_iff {iface : Interface} {addresses : List Cidr} {d : Device w}
    {ps : List Peer} (listed : iface.peerDefAllowedIPsStr = cidrsToString addresses)
    (imported : Imported iface d ps)
    (shared : (counterpart iface.type).1 = .server ∨ (force = false ∧ addresses ≠ [])) :
    (∀ q ∈ d.peers.rows, NetworksKept iface addresses force ps q) ↔
      ∀ q ∈ d.peers.rows, ∀ network, network ∈ q.allowedIPs ↔
        network ∈ addresses.map Network.of ∧ IsLast ps q := by
  have restored : ∀ networks, restoredNetworks addresses (counterpart iface.type).1 force networks =
      addresses.map Network.of := fun networks => if_pos shared
  have each : ∀ q ∈ d.peers.rows, ∀ before p later, ps = before ++ p :: later →
      ImportedAs iface (convertWireGuardPeer q) p → ∀ network,
      (network ∈ restoredNetworks addresses (counterpart iface.type).1 force q.allowedIPs ∧
        ¬ Lost w force later network ↔ network ∈ addresses.map Network.of ∧ IsLast ps q) := by
    intro q hq before p later split as network
    have sub : ∀ p ∈ later, p ∈ ps := by
      intro p hp
      rw [split]
      exact List.mem_append_right _ (List.mem_cons_of_mem _ hp)
    rw [isLast_iff imported split as, restored, lost_iff listed imported sub]
    simp only [restored]
    constructor
    · rintro ⟨among, free⟩
      refine ⟨among, List.eq_nil_iff_forall_not_mem.mpr fun p hp => free ?_⟩
      obtain ⟨q', hq', as'⟩ := imported.only p (sub p hp)
      exact ⟨p, hp, q', hq', toPublicKey_of_importedAs as', among⟩
    · rintro ⟨among, empty⟩
      refine ⟨among, fun ⟨p, hp, _⟩ => ?_⟩
      rw [empty] at hp
      cases hp
  constructor
  · intro kept q hq network
    obtain ⟨p, hp, as⟩ := imported.all q hq
    obtain ⟨before, later, split⟩ := List.append_of_mem hp
    rw [kept q hq before p later split (toPublicKey_of_importedAs as), each q hq _ _ _ split as]
  · intro same q hq before p later split key network
    have hp : p ∈ ps := split ▸ List.mem_append_right _ List.mem_cons_self
    rw [same q hq, each q hq _ _ _ split (imported.eq_of_key hq hp key)]

omit client in
/-- All peers get the hosts of their networks. -/
theorem networksKept_hosts_iff {iface : Interface} {addresses : List Cidr} {d : Device w}
    {ps : List Peer} (listed : iface.peerDefAllowedIPsStr = cidrsToString addresses)
    (imported : Imported iface d ps)
    (own : ¬ ((counterpart iface.type).1 = .server ∨ (force = false ∧ addresses ≠ []))) :
    (∀ q ∈ d.peers.rows, NetworksKept iface addresses force ps q) ↔
      ∀ q ∈ d.peers.rows, ∀ network ∈ q.allowedIPs, network.host = network := by
  have restored : ∀ networks, restoredNetworks addresses (counterpart iface.type).1 force networks =
      networks.map Network.host := fun networks => if_neg own
  constructor
  · intro kept q hq network among
    obtain ⟨p, hp, as⟩ := imported.all q hq
    obtain ⟨before, later, split⟩ := List.append_of_mem hp
    have again := (kept q hq before p later split (toPublicKey_of_importedAs as) network).mp among
    rw [restored] at again
    obtain ⟨n, _, rfl⟩ := List.mem_map.mp again.1
    exact n.host_host
  · intro hosts q hq before p later split key network
    have self : ∀ q ∈ d.peers.rows, q.allowedIPs.map Network.host = q.allowedIPs := by
      intro q hq
      exact (List.map_congr_left (hosts q hq)).trans (List.map_id _)
    have sub : ∀ p ∈ later, p ∈ ps := by
      intro p hp
      rw [split]
      exact List.mem_append_right _ (List.mem_cons_of_mem _ hp)
    rw [restored, self q hq, lost_iff listed imported sub]
    refine ⟨fun among => ⟨among, ?_⟩, And.left⟩
    rintro ⟨p', hp', q', hq', key', taken⟩
    rw [restored, self q' hq'] at taken
    -- a network is routed to one peer only, and each peer is restored once
    have same : q = q' := d.routed q hq q' hq' network among taken
    have nodup := imported.nodup
    rw [split, List.map_append, List.nodup_append, List.map_cons, List.nodup_cons] at nodup
    refine absurd ?_ nodup.2.1.1
    rw [key, same, ← key']
    exact List.mem_map_of_mem hp'

variable {circumstances : ℕ → Circumstance}

omit client in
theorem importedAs_importedPeer {iface : Interface} (typed : iface.type ≠ .unset) {pp : PhysicalPeer}
    (plain : pp.backendExtras = some (.local ⟨false⟩)) (now converted : Time) :
    ImportedAs iface pp (importedPeer iface now converted pp) := by
  constructor <;>
    simp [importedPeer, convertPhysicalPeer, plain, typed, newConfigOption, Peer.isDisabled,
      Peer.zero]

omit client in
theorem ImportedAs.stored {iface : Interface} {pp : PhysicalPeer} {p : Peer}
    (imported : ImportedAs iface pp p) {addresses : List Cidr} (base : BaseModel)
    (same : ∀ c, c ∈ addresses ↔ c ∈ p.interface.addresses) :
    ImportedAs iface pp (loadAddresses { p with base := base } addresses) :=
  { imported with addresses := fun c => (same c).trans (imported.addresses c) }

/-- The import stores every peer, and leaves devices and interfaces alone. -/
theorem eval_importPeers (faultless : Faultless circumstances) (ui : ContextUserInfo)
    {iface : Interface} (typed : iface.type ≠ .unset) (peers : List PhysicalPeer)
    (plain : ∀ pp ∈ peers, pp.backendExtras = some (.local ⟨false⟩))
    (nodup : (peers.map PhysicalPeer.identifier).Nodup) (world : World w) (n : ℕ) :
    ∃ k world', (importPeers ui iface peers).eval (inTurn client circumstances) (n, world) =
        (.ok (), (k, world')) ∧
      world'.devices = world.devices ∧ world'.db.interfaces = world.db.interfaces ∧
      (∀ id ∉ peers.map PhysicalPeer.identifier, world'.db.peer id = world.db.peer id) ∧
      ∀ pp ∈ peers, ∃ p, world'.db.peer pp.identifier = some p ∧ ImportedAs iface pp p := by
  induction peers generalizing world n with
  | nil => exact ⟨n, world, rfl, rfl, rfl, fun _ _ => rfl, fun _ h => absurd h List.not_mem_nil⟩
  | cons pp peers ih =>
    rw [List.map_cons, List.nodup_cons] at nodup
    let p := importedPeer iface (circumstances n).now (circumstances (n + 1)).now pp
    let now := (circumstances (n + 3)).now
    have as : ImportedAs iface pp p := importedAs_importedPeer typed (plain pp List.mem_cons_self) _ _
    let stored : World w := { world with db := world.db.commitPeer ui.id now p.identifier p }
    obtain ⟨k, world', run, devices, interfaces, others, each⟩ :=
      ih (fun pp hpp => plain pp (List.mem_cons_of_mem _ hpp)) nodup.2 stored (n + 4)
    refine ⟨k, world', ?_, devices, interfaces.trans (Db.ensurePeerStatus_interfaces ..), ?_, ?_⟩
    · simp only [importPeers, importPeer, repoSavePeer, issue, Program.perform_bind,
        Program.call_bind, Program.pure_eq, Program.ret_bind, Program.eval_call,
        inTurn_repo client faultless, RepoOp.answer, RepoOp.apply]
      exact run
    · intro id hid
      rw [List.map_cons, List.mem_cons, not_or] at hid
      rw [others id hid.2]
      exact Db.peer_commitPeer_of_ne world.db ui.id now _ p (as.identifier ▸ hid.1)
    · intro pp' hpp'
      rcases List.mem_cons.mp hpp' with rfl | later
      · obtain ⟨addresses, same, found⟩ :=
          Db.exists_peer_commitPeer world.db ui.id now p.identifier p
        have key : stored.db.peer pp'.identifier = stored.db.peer p.identifier := by
          rw [as.identifier]
        exact ⟨_, (others _ nodup.1).trans (key.trans found), as.stored _ same⟩
      · exact each pp' later

/-- Restoring peers of an enabled interface saves them to its device. -/
theorem eval_restorePeers (faultless : Faultless circumstances) {m : Manager} {iface : Interface}
    (enabled : iface.isDisabled = false) (local_ : m.getController iface = localBackendName)
    (peers : List Peer) (canonical : ∀ p ∈ peers, Canonical w p) {world : World w} {d : Device w}
    (device : world.devices iface.identifier = some d) (n : ℕ) :
    (m.restorePeers iface peers).eval (inTurn client circumstances) (n, world) =
      (.ok (), (n + peers.length, world.setDevice iface.identifier
        (savedDevice client m.cfg.core.forceClientIPAsAllowedIP d peers))) := by
  induction peers generalizing world d n with
  | nil =>
    rw [savedDevice, World.setDevice_eq_self device]
    rfl
  | cons p peers ih =>
    let d₁ := client.configurePeer (created client d (toPublicKey w p.identifier))
      (savedConfig w p m.cfg.core.forceClientIPAsAllowedIP)
    have saved : LocalController.savePeer client world.devices iface.identifier p.identifier
        (fun pp => .ok (mergeToPhysicalPeer pp p m.cfg.core.forceClientIPAsAllowedIP)) =
          (.ok (), Function.update world.devices iface.identifier (some d₁)) :=
      savePeer_merge _ device (canonical p List.mem_cons_self).valid
    have rest := ih (fun p hp => canonical p (List.mem_cons_of_mem _ hp))
      (World.setDevice_self world iface.identifier d₁) (n + 1)
    rw [World.setDevice_setDevice, Nat.add_assoc, Nat.add_comm 1] at rest
    have step : inTurn client circumstances (.savePeer (m.getController iface) iface.identifier
          p.identifier fun pp => .ok (mergeToPhysicalPeer pp p m.cfg.core.forceClientIPAsAllowedIP))
          (n, world) = (.ok (), (n + 1, world.setDevice iface.identifier d₁)) := by
      rw [local_, inTurn_savePeer client faultless, saved]
      rfl
    simp only [Manager.restorePeers, Manager.restorePeer, enabled, Bool.false_and,
      Bool.false_eq_true, if_false, issue, Program.perform_bind, Program.call_bind,
      Program.pure_eq, Program.eval_call]
    rw [step]
    exact rest

/-- The imported peers as they are stored. -/
def storedPeers (db : Db) (peers : List PhysicalPeer) : List Peer :=
  peers.filterMap fun pp => db.peer pp.identifier

omit client in
theorem imported_storedPeers {iface : Interface} {d : Device w} {db : Db}
    (each : ∀ pp ∈ d.peers.rows.map convertWireGuardPeer, ∃ p,
      db.peer pp.identifier = some p ∧ ImportedAs iface pp p) (order : MapOrder Peer) :
    Imported iface d (order.order (storedPeers db (d.peers.rows.map convertWireGuardPeer))) := by
  have perm := order.perm (storedPeers db (d.peers.rows.map convertWireGuardPeer))
  have keys : ∀ rows : List (WgPeer w), (∀ q ∈ rows, ∃ p,
        db.peer (convertWireGuardPeer q).identifier = some p ∧
          ImportedAs iface (convertWireGuardPeer q) p) →
      (storedPeers db (rows.map convertWireGuardPeer)).map
        (fun p => toPublicKey w p.identifier) = rows.map WgPeer.publicKey := by
    intro rows stored
    induction rows with
    | nil => rfl
    | cons q rows ih =>
      obtain ⟨p, found, as⟩ := stored q List.mem_cons_self
      have rest := ih fun q hq => stored q (List.mem_cons_of_mem _ hq)
      simp only [storedPeers] at rest
      simp only [storedPeers, List.map_cons, List.filterMap_cons, found, rest,
        toPublicKey_of_importedAs as]
  refine ⟨fun q hq => ?_, fun p hp => ?_, ?_⟩
  · obtain ⟨p, found, as⟩ := each _ (List.mem_map_of_mem hq)
    exact ⟨p, perm.mem_iff.mpr (List.mem_filterMap.mpr ⟨_, List.mem_map_of_mem hq, found⟩), as⟩
  · obtain ⟨pp, hpp, found⟩ := List.mem_filterMap.mp (perm.mem_iff.mp hp)
    obtain ⟨p', found', as⟩ := each pp hpp
    obtain rfl := Option.some.inj (found.symm.trans found')
    obtain ⟨q, hq, rfl⟩ := List.mem_map.mp hpp
    exact ⟨q, hq, as⟩
  · have nodup := d.peers.nodup
    rw [← keys d.peers.rows fun q hq => each _ (List.mem_map_of_mem hq)] at nodup
    exact (perm.map _).nodup_iff.mpr nodup

/-- The interface as it is stored by the import. -/
structure StoredInterface (pi : PhysicalInterface) (peers : List PhysicalPeer) (iface : Interface) :
    Prop where
  identifier : iface.identifier = pi.identifier
  backend : iface.backend = localBackendName
  enabled : iface.isDisabled = false
  type : iface.type = predictedType peers
  peerDefAllowedIPsStr : iface.peerDefAllowedIPsStr = cidrsToString pi.addresses

omit client in
theorem predictedType_ne_unset (peers : List PhysicalPeer) : predictedType peers ≠ .unset := by
  unfold predictedType
  split <;> decide

/-- A new interface of the local backend is imported with all its peers. -/
theorem run_importInterface (faultless : Faultless circumstances) (ui : ContextUserInfo)
    {pi : PhysicalInterface} (plain : pi.backendExtras = none) {world : World w} {d : Device w}
    (unknown : world.db.interfaces.find pi.identifier = none) :
    ∃ iface world', (importInterface ui localBackendName pi
          (d.peers.rows.map convertWireGuardPeer)).run client circumstances world = (.ok (), world') ∧
      world'.devices = world.devices ∧ world'.db.interfaces.find pi.identifier = some iface ∧
      StoredInterface pi (d.peers.rows.map convertWireGuardPeer) iface ∧
      ∀ pp ∈ d.peers.rows.map convertWireGuardPeer, ∃ p,
        world'.db.peer pp.identifier = some p ∧ ImportedAs iface pp p := by
  let peers := d.peers.rows.map (convertWireGuardPeer (w := w))
  let iface := importedInterface localBackendName (circumstances 0).now (circumstances 1).now pi
    peers
  let stored : World w :=
    { world with db := world.db.commitInterface ui.id (circumstances 4).now iface }
  have missing : world.db.getInterface iface.identifier = .error .notFound := by
    have name : iface.identifier = pi.identifier := by
      simp [iface, importedInterface, convertPhysicalInterface, plain]
    rw [Db.getInterface, name, unknown]
  have typed : iface.type ≠ .unset := predictedType_ne_unset peers
  have nodup : (peers.map PhysicalPeer.identifier).Nodup := by
    have keys : peers.map PhysicalPeer.identifier =
        (d.peers.rows.map WgPeer.publicKey).map w.keyText := by
      simp only [peers, List.map_map]
      rfl
    rw [keys]
    exact d.peers.nodup.map w.keyText_injective
  have locals : ∀ pp ∈ peers, pp.backendExtras = some (.local ⟨false⟩) := by
    intro pp hpp
    obtain ⟨q, _, rfl⟩ := List.mem_map.mp hpp
    rfl
  obtain ⟨k, world', run, devices, interfaces, _, each⟩ :=
    eval_importPeers client faultless ui typed peers locals nodup stored 5
  let row : Interface :=
    { iface with
      base := { iface.base with updatedBy := ui.id, updatedAt := (circumstances 4).now }
      addresses := iface.addresses.dedup }
  have found : world'.db.interfaces.find iface.identifier = some row := by
    rw [interfaces]
    exact Table.find_upsert_self world.db.interfaces row
  have name : iface.identifier = pi.identifier := by
    simp [iface, importedInterface, convertPhysicalInterface, plain]
  refine ⟨row, world', ?_, devices, name ▸ found, ?_, ?_⟩
  · have known : (!Error.is .notFound .notFound) = false := by decide
    have time : ∀ n, inTurn client circumstances .timeNow (n, world) =
        ((circumstances n).now, (n + 1, world)) := fun _ => rfl
    simp only [ManagerProgram.run, importInterface, repoSaveInterface, issue, Program.perform_bind,
      Program.call_bind, Program.pure_eq, Program.ret_bind, Program.eval_call, time,
      inTurn_repo client faultless, RepoOp.answer, RepoOp.apply]
    rw [missing]
    simp only [known, Bool.false_eq_true, if_false, Program.perform_bind, Program.eval_call,
      inTurn_repo client faultless, RepoOp.answer, RepoOp.apply]
    exact congrArg (fun r : Except Error Unit × ℕ × World w => (r.1, r.2.2)) run
  · constructor <;> simp [row, iface, importedInterface, convertPhysicalInterface, plain,
      Interface.isDisabled, Interface.addressStr, Interface.zero, peers]
  · intro pp hpp
    obtain ⟨p, found, as⟩ := each pp hpp
    exact ⟨p, found, { as with }⟩

/-- The peers are restored with what they have: either the networks of the addresses,
all of which the last one takes, or the hosts of their own networks. -/
def Restorable (d : Device w) (addresses : List Cidr) (force : Bool)
    (last : Option PeerIdentifier) : Prop :=
  (∀ q ∈ d.peers.rows, KeepaliveKept q) ∧
    if d.peers.rows.length = 1 ∨ (force = false ∧ addresses ≠ []) then
      ∀ q ∈ d.peers.rows, ∀ network, network ∈ q.allowedIPs ↔
        network ∈ addresses.map Network.of ∧ last = some (w.keyText q.publicKey)
    else ∀ q ∈ d.peers.rows, ∀ network ∈ q.allowedIPs, network.host = network

omit client in
theorem counterpart_predictedType (peers : List PhysicalPeer) :
    (counterpart (predictedType peers)).1 = .server ↔ peers.length = 1 := by
  cases peers with
  | nil => simp [predictedType, counterpart]
  | cons pp peers => cases peers <;> simp [predictedType, counterpart]

theorem unchanged_iff_restorable {iface : Interface} {pi : PhysicalInterface} {d : Device w}
    {ps : List Peer} (stored : StoredInterface pi (d.peers.rows.map convertWireGuardPeer) iface)
    (imported : Imported iface d ps) :
    Unchanged d (savedDevice client force d ps) ↔
      Restorable d pi.addresses force (ps.getLast?.map Peer.identifier) := by
  have server : (counterpart iface.type).1 = .server ↔ d.peers.rows.length = 1 := by
    rw [stored.type, counterpart_predictedType, List.length_map]
  have listed := stored.peerDefAllowedIPsStr
  rw [unchanged_iff client listed imported, Restorable]
  have split : (∀ q ∈ d.peers.rows, KeepaliveKept q ∧
        NetworksKept iface pi.addresses force ps q) ↔
      (∀ q ∈ d.peers.rows, KeepaliveKept q) ∧
        ∀ q ∈ d.peers.rows, NetworksKept iface pi.addresses force ps q :=
    ⟨fun h => ⟨fun q hq => (h q hq).1, fun q hq => (h q hq).2⟩, fun h q hq => ⟨h.1 q hq, h.2 q hq⟩⟩
  rw [split]
  refine and_congr_right fun _ => ?_
  by_cases shared : d.peers.rows.length = 1 ∨ (force = false ∧ pi.addresses ≠ [])
  · rw [if_pos shared]
    exact networksKept_addresses_iff listed imported (by rwa [server])
  · rw [if_neg shared]
    exact networksKept_hosts_iff listed imported (by rwa [server])

/-- The four values of a peer, whose allowed IPs are a set of networks. -/
structure SameValues (pp pp' : PhysicalPeer) : Prop where
  presharedKey : pp'.presharedKey = pp.presharedKey
  persistentKeepalive : pp'.persistentKeepalive = pp.persistentKeepalive
  endpoint : pp'.endpoint = pp.endpoint
  allowedIPs : ∀ network, network ∈ pp'.allowedIPs.map Network.of ↔
    network ∈ pp.allowedIPs.map Network.of

/-- A client endpoint and its keepalive take the place of endpoint and keepalive. -/
def ClientValues (pp : PhysicalPeer) : Prop :=
  ∀ extras, pp.importSource = controllerTypeMikrotik → pp.backendExtras = some (.mikrotik extras) →
    extras.clientEndpoint ≠ "" →
      extras.clientKeepalive = pp.persistentKeepalive ∧ extras.clientEndpoint = pp.endpoint

/-- The condition for one peer of a backend that stores it as it is merged. -/
def MergedBack (peers : List PhysicalPeer) (addresses : List Cidr) (force : Bool)
    (pp : PhysicalPeer) : Prop :=
  ClientValues pp ∧
    if peers.length = 1 ∨ (force = false ∧ addresses ≠ []) then
      ∀ network, network ∈ addresses.map Network.of ↔ network ∈ pp.allowedIPs.map Network.of
    else ∀ network, network ∈ pp.allowedIPs.map (Network.of ∘ Cidr.hostAddr) ↔
      network ∈ pp.allowedIPs.map Network.of

omit client in
theorem convertPhysicalPeer_presharedKey (converted : Time) (pp : PhysicalPeer) :
    (convertPhysicalPeer converted pp).presharedKey = pp.presharedKey := by
  unfold convertPhysicalPeer
  repeat' split
  all_goals rfl

omit client in
theorem convertPhysicalPeer_clientValues (converted : Time) (pp : PhysicalPeer) :
    (convertPhysicalPeer converted pp).persistentKeepalive.value = pp.persistentKeepalive ∧
      (convertPhysicalPeer converted pp).endpoint.value = pp.endpoint ↔ ClientValues pp := by
  have plain : (∀ extras, pp.importSource = controllerTypeMikrotik →
      pp.backendExtras = some (.mikrotik extras) → extras.clientEndpoint = "") → ClientValues pp :=
    fun absent extras source found present => absurd (absent extras source found) present
  cases found : pp.backendExtras with
  | none =>
    have values := plain fun extras _ h => by rw [found] at h; cases h
    simp [convertPhysicalPeer, found, newConfigOption, values]
  | some extras =>
    obtain extras | extras := extras
    · by_cases source : pp.importSource = controllerTypeMikrotik
      · by_cases client : extras.clientEndpoint = ""
        · have values := plain fun other _ h => by
            rw [found] at h
            cases h
            exact client
          cases disabled : extras.disabled <;>
            simp [convertPhysicalPeer, found, source, client, newConfigOption, values, disabled]
        · have values : ClientValues pp ↔ extras.clientKeepalive = pp.persistentKeepalive ∧
              extras.clientEndpoint = pp.endpoint := by
            constructor
            · exact fun values => values extras source found client
            · intro same other _ h _
              rw [found] at h
              cases h
              exact same
          rw [values]
          cases disabled : extras.disabled <;>
            simp [convertPhysicalPeer, found, source, client, newConfigOption, disabled]
      · have values := plain fun _ here => absurd here source
        simp [convertPhysicalPeer, found, source, newConfigOption, values]
    · have values := plain fun extras _ h => by rw [found] at h; cases h
      simp only [convertPhysicalPeer, found, values, iff_true]
      split <;> exact ⟨rfl, rfl⟩

/-- The merge of an imported peer into the physical one, on a backend that stores
every peer as it is merged. -/
theorem sameValues_iff_mergedBack {iface : Interface} {addresses : List Cidr}
    {peers : List PhysicalPeer} (type : iface.type = predictedType peers)
    (listed : iface.peerDefAllowedIPsStr = cidrsToString addresses) (force : Bool)
    (now converted : Time) (pp : PhysicalPeer) :
    SameValues pp (mergeToPhysicalPeer pp (importedPeer iface now converted pp) force) ↔
      MergedBack peers addresses force pp := by
  let p := importedPeer iface now converted pp
  have typed : iface.type ≠ .unset := type ▸ predictedType_ne_unset peers
  have server : p.interface.type = .server ↔ peers.length = 1 := by
    rw [← counterpart_predictedType, ← type]
    simp [p, importedPeer, typed]
  have extra : p.extraAllowedIPsStr = "" := by
    simp only [p, importedPeer, convertPhysicalPeer]
    repeat' split
    all_goals rfl
  have networks := mergedAllowedIPs_imported force (p := p) listed extra
  have values := convertPhysicalPeer_clientValues converted pp
  have presharedKey := convertPhysicalPeer_presharedKey converted pp
  have allowedIPs : (∀ network, network ∈ (mergedAllowedIPs p force).map Network.of ↔
        network ∈ pp.allowedIPs.map Network.of) ↔
      if peers.length = 1 ∨ (force = false ∧ addresses ≠ []) then
        ∀ network, network ∈ addresses.map Network.of ↔ network ∈ pp.allowedIPs.map Network.of
      else ∀ network, network ∈ pp.allowedIPs.map (Network.of ∘ Cidr.hostAddr) ↔
        network ∈ pp.allowedIPs.map Network.of := by
    rw [networks]
    simp only [server]
    split <;> exact Iff.rfl
  constructor
  · intro same
    exact ⟨values.mp ⟨same.persistentKeepalive, same.endpoint⟩, allowedIPs.mp same.allowedIPs⟩
  · rintro ⟨client, same⟩
    have ⟨keepalive, endpoint⟩ := values.mpr client
    exact ⟨presharedKey, keepalive, endpoint, allowedIPs.mpr same⟩

omit client in
theorem convertPhysicalInterface_addresses (converted : Time) (pi : PhysicalInterface) :
    (convertPhysicalInterface converted pi).addresses = pi.addresses := by
  unfold convertPhysicalInterface
  repeat' split
  all_goals rfl

/-- Import from the local device, and restore all imported peers in some order. -/
def roundTrip (client : Client w) (circumstances later : ℕ → Circumstance) (m : Manager)
    (ui : ContextUserInfo) (order : MapOrder Peer) (pi : PhysicalInterface) (d : Device w)
    (world : World w) : World w :=
  let peers := d.peers.rows.map convertWireGuardPeer
  let imported := (importInterface ui localBackendName pi peers).run client circumstances world
  match imported.2.db.interfaces.find pi.identifier with
  | some iface => ((m.restorePeers iface (order.order (storedPeers imported.2.db peers))).run
      client later imported.2).2
  | none => imported.2

/-- The peer that is restored last. -/
def lastPeer (client : Client w) (circumstances : ℕ → Circumstance) (ui : ContextUserInfo)
    (order : MapOrder Peer) (pi : PhysicalInterface) (d : Device w) (world : World w) :
    Option PeerIdentifier :=
  let peers := d.peers.rows.map convertWireGuardPeer
  let imported := (importInterface ui localBackendName pi peers).run client circumstances world
  (order.order (storedPeers imported.2.db peers)).getLast?.map Peer.identifier

def otherKey : PeerIdentifier := "AAAAAAAAAAAAAAAAAAAAAAAAAAAAAAAAAAAAAAAAAAI="

theorem sampleCidr_lt (n : ℕ) (small : n < 256) : 0x0a000000 + n < 2 ^ Family.v4.bitLen := by
  simp only [Family.bitLen]
  omega

/-- The address 10.0.0.`n` with a prefix length. -/
def sampleCidr (n : ℕ) (small : n < 256) (bits : ℕ) (le : bits ≤ 32) : Cidr :=
  ⟨⟨.v4, 0x0a000000 + n, sampleCidr_lt n small⟩, bits, le⟩

/-- A server interface with two peers, each with its own address. -/
def serverDevice : Device plainTypes :=
  let client := plainClient plainTypes
  let peer (id : PeerIdentifier) (address : Cidr) : PeerConfig plainTypes :=
    { PeerConfig.named (toPublicKey plainTypes id) with allowedIPs := [Network.of address] }
  client.configurePeer (client.configurePeer Device.empty
    (peer key (sampleCidr 2 (by decide) 32 (by decide))))
    (peer otherKey (sampleCidr 3 (by decide) 32 (by decide)))

def serverInterface : PhysicalInterface where
  identifier := "wg0"
  keyPair := ⟨"", ""⟩
  listenPort := 51820
  addresses := [sampleCidr 1 (by decide) 24 (by decide)]
  mtu := 1420
  firewallMark := 0
  deviceUp := true
  importSource := controllerTypeLocal
  deviceType := "linuxkernel"
  backendExtras := none

def forcing (force : Bool) : Manager :=
  { singleNode with
    cfg := { masterConfig with core := { masterConfig.core with forceClientIPAsAllowedIP := force } } }

def noInterfaces : World plainTypes :=
  ⟨Db.empty, fun id => if id = "wg0" then some serverDevice else none, []⟩

def sampleRoundTrip (force : Bool) : World plainTypes :=
  roundTrip (plainClient plainTypes) calm calm (forcing force) admin MapOrder.listed
    serverInterface serverDevice noInterfaces

end WgPortal.WireGuard.ImportRestore
