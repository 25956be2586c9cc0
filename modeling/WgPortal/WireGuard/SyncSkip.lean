import WgPortal.WgController.SavedPeers
import WgPortal.WireGuard.Sync

/-! When the full sync skips a peer, and when the peer is then configured on the
device as merged. -/

namespace WgPortal.WireGuard.SyncSkip

open Domain Library NetIP Adapters App Config WgController LocalController
open ManagerProgram (issue)

variable {w : Wgtypes} {d : Device w} {p : Peer} {q : WgPeer w} {force : Bool}

/-- The peer of a device is what a new peer would be after this configuration. -/
structure ConfiguredAs (q : WgPeer w) (c : PeerConfig w) : Prop where
  presharedKey : q.presharedKey = c.presharedKey.getD w.zeroKey
  persistentKeepalive : q.persistentKeepaliveInterval = c.persistentKeepaliveInterval.getD 0
  endpoint : q.endpoint = c.endpoint
  allowedIPs : ∀ network, network ∈ q.allowedIPs ↔ network ∈ c.allowedIPs

/-- A peer that is skipped is configured as merged. -/
def SkipSound (d : Device w) (p : Peer) (force : Bool) : Prop :=
  skips (listed d) p = true → ∀ q ∈ d.peers.rows, w.keyText q.publicKey = p.identifier →
    ConfiguredAs q (savedConfig w p force)

/-- Of the stored texts, the merge uses `AllowedIPsStr`. -/
def usesAllowedIPsStr (p : Peer) (force : Bool) : Bool :=
  p.interface.type = .server || (!force && p.allowedIPsStr.value ≠ "")

def networksOf (str : String) : List Network := (cidrsOrNil str).map Network.of

/-- Where the merge uses `AllowedIPsStr`, the extra networks are among its networks.
Elsewhere its networks are those of the addresses and the extra ones. -/
def AllowedIPsListed (p : Peer) (force : Bool) : Prop :=
  if usesAllowedIPsStr p force then
    ∀ network ∈ networksOf p.extraAllowedIPsStr, network ∈ networksOf p.allowedIPsStr.value
  else
    ∀ network, network ∈ networksOf p.allowedIPsStr.value ↔
      network ∈ p.interface.addresses.map (Network.of ∘ Cidr.hostAddr) ∨
        network ∈ networksOf p.extraAllowedIPsStr

theorem mergedAllowedIPs_eq (p : Peer) (force : Bool) :
    mergedAllowedIPs p force =
      (if usesAllowedIPsStr p force then cidrsOrNil p.allowedIPsStr.value
        else p.interface.addresses.map Cidr.hostAddr) ++ cidrsOrNil p.extraAllowedIPsStr := by
  by_cases uses : usesAllowedIPsStr p force = true
  · rw [if_pos uses]
    simp only [usesAllowedIPsStr, Bool.or_eq_true, Bool.and_eq_true, decide_eq_true_eq,
      Bool.not_eq_true'] at uses
    rcases uses with server | ⟨noForce, nonempty⟩
    · simp [mergedAllowedIPs, server]
    · simp [mergedAllowedIPs, noForce, show ¬ p.allowedIPsStr.value = "" from nonempty]
  · rw [if_neg uses]
    simp only [usesAllowedIPsStr, Bool.or_eq_true, Bool.and_eq_true, decide_eq_true_eq,
      Bool.not_eq_true', not_or, not_and] at uses
    cases force with
    | true => simp [mergedAllowedIPs, uses.1]
    | false =>
      have empty : p.allowedIPsStr.value = "" := not_not.mp (uses.2 rfl)
      simp [mergedAllowedIPs, uses.1, empty]

theorem mergedAllowedIPs_iff :
    AllowedIPsListed p force ↔ ∀ network, network ∈ networksOf p.allowedIPsStr.value ↔
      network ∈ (mergedAllowedIPs p force).map Network.of := by
  rw [AllowedIPsListed, mergedAllowedIPs_eq]
  by_cases uses : usesAllowedIPsStr p force = true
  · simp only [if_pos uses, List.map_append, List.mem_append, networksOf]
    exact forall_congr' fun network => by tauto
  · simp only [if_neg uses, List.map_append, List.mem_append, networksOf, List.map_map]

theorem equals_listedPeer :
    (listedPeer (convertWireGuardPeer q)).equals p = true ↔
      w.keyText q.publicKey = p.identifier ∧
      cidrsToString (q.allowedIPs.map Network.net) = p.allowedIPsStr.value ∧
      (convertWireGuardPeer q).endpoint = p.endpoint.value ∧
      p.presharedKey = "" ∧ p.persistentKeepalive = ⟨0, false⟩ := by
  simp only [listedPeer, Peer.equals, Peer.zero, Bool.and_eq_true, and_assoc]
  constructor
  · rintro ⟨id, allowedIPs, endpoint, presharedKey, keepalive⟩
    exact ⟨of_decide_eq_true id, of_decide_eq_true allowedIPs, of_decide_eq_true endpoint,
      (of_decide_eq_true presharedKey).symm, (of_decide_eq_true keepalive).symm⟩
  · rintro ⟨id, allowedIPs, endpoint, presharedKey, keepalive⟩
    exact ⟨decide_eq_true id, decide_eq_true allowedIPs, decide_eq_true endpoint,
      decide_eq_true presharedKey.symm, decide_eq_true keepalive.symm⟩

theorem networksOf_cidrsToString (networks : List Network) :
    networksOf (cidrsToString (networks.map Network.net)) = networks := by
  rw [networksOf, cidrsOrNil_cidrsToString, List.map_map]
  have same : Network.of ∘ Network.net = id := funext Network.of_net
  rw [same, List.map_id]

theorem skips_listed (d : Device w) (p : Peer) :
    skips (listed d) p = true ↔
      ∃ q ∈ d.peers.rows, (listedPeer (convertWireGuardPeer q)).equals p = true := by
  unfold skips
  constructor
  · intro skipped
    cases found : (listed d).find? (·.identifier = p.identifier) with
    | none => simp [found] at skipped
    | some e =>
      obtain ⟨q, hq, rfl⟩ := List.mem_map.mp (List.mem_of_find?_eq_some found)
      rw [found] at skipped
      exact ⟨q, hq, skipped⟩
  · rintro ⟨q, hq, equal⟩
    have id := (equals_listedPeer.mp equal).1
    have first : (listed d).find? (·.identifier = p.identifier) =
        some (listedPeer (convertWireGuardPeer q)) := by
      cases found : (listed d).find? (·.identifier = p.identifier) with
      | none =>
        have others := List.find?_eq_none.mp found _ (List.mem_map_of_mem hq)
        exact absurd (decide_eq_true id) others
      | some e =>
        obtain ⟨q', hq', rfl⟩ := List.mem_map.mp (List.mem_of_find?_eq_some found)
        have holds := List.find?_some found
        have id' : w.keyText q'.publicKey = p.identifier := of_decide_eq_true holds
        have same := w.keyText_injective (id'.trans id.symm)
        rw [List.inj_on_of_nodup_map d.peers.nodup hq' hq same]
    rw [first]
    exact equal

theorem identifier_injective (hq : q ∈ d.peers.rows) {q' : WgPeer w} (hq' : q' ∈ d.peers.rows)
    (id : w.keyText q.publicKey = p.identifier) (id' : w.keyText q'.publicKey = p.identifier) :
    q = q' :=
  List.inj_on_of_nodup_map d.peers.nodup hq hq' (w.keyText_injective (id.trans id'.symm))

/-- Preshared key and keepalive are not compared, and the extra allowed IPs or the
addresses are not part of the text that is. -/
theorem configuredAs_iff (enabled : p.isDisabled = false)
    (equal : (listedPeer (convertWireGuardPeer q)).equals p = true) :
    ConfiguredAs q (savedConfig w p force) ↔
      q.presharedKey = w.zeroKey ∧ q.persistentKeepaliveInterval = 0 ∧
        AllowedIPsListed p force := by
  obtain ⟨_, allowedIPs, endpoint, presharedKey, keepalive⟩ := equals_listedPeer.mp equal
  have sameEndpoint : q.endpoint = (savedConfig w p force).endpoint := by
    cases addr : q.endpoint with
    | none =>
      simp only [convertWireGuardPeer, addr] at endpoint
      simp [savedConfig, enabled, ← endpoint]
    | some addr' =>
      simp only [convertWireGuardPeer, addr] at endpoint
      simp [savedConfig, enabled, ← endpoint, w.addrText_ne_empty, w.resolveUDPAddr_addrText]
  have listed : networksOf p.allowedIPsStr.value = q.allowedIPs := by
    rw [← allowedIPs, networksOf_cidrsToString]
  have merged : (savedConfig w p force).allowedIPs = (mergedAllowedIPs p force).map Network.of := by
    simp [savedConfig, enabled]
  rw [mergedAllowedIPs_iff, listed]
  constructor
  · intro same
    refine ⟨?_, ?_, ?_⟩
    · simpa [savedConfig, enabled, presharedKey] using same.presharedKey
    · simpa [savedConfig, enabled, keepalive] using same.persistentKeepalive
    · simpa [merged] using same.allowedIPs
  · rintro ⟨zero, never, networks⟩
    refine ⟨?_, ?_, sameEndpoint, ?_⟩
    · simpa [savedConfig, enabled, presharedKey] using zero
    · simpa [savedConfig, enabled, keepalive] using never
    · simpa [merged] using networks

/-- The peer on the device has no preshared key and no keepalive, and the merge
adds no networks. -/
def Unaltered (d : Device w) (p : Peer) (force : Bool) : Prop :=
  ∀ q ∈ d.peers.rows, w.keyText q.publicKey = p.identifier →
    q.presharedKey = w.zeroKey ∧ q.persistentKeepaliveInterval = 0 ∧ AllowedIPsListed p force

theorem skipSound_iff (enabled : p.isDisabled = false) :
    SkipSound d p force ↔ (skips (listed d) p = true → Unaltered d p force) := by
  have each : skips (listed d) p = true → ∀ q ∈ d.peers.rows,
      w.keyText q.publicKey = p.identifier →
      (ConfiguredAs q (savedConfig w p force) ↔
        q.presharedKey = w.zeroKey ∧ q.persistentKeepaliveInterval = 0 ∧
          AllowedIPsListed p force) := by
    intro skipped q hq id
    obtain ⟨q', hq', equal⟩ := (skips_listed d p).mp skipped
    have same := identifier_injective hq hq' id (equals_listedPeer.mp equal).1
    exact configuredAs_iff enabled (same ▸ equal)
  constructor
  · exact fun sound skipped q hq id => (each skipped q hq id).mp (sound skipped q hq id)
  · exact fun clean skipped q hq id => (each skipped q hq id).mpr (clean skipped q hq id)

variable (client : Client w) {circumstances : ℕ → Circumstance}

/-- What a commit for interface `id` leaves alone. -/
structure OtherInterfaces (id : InterfaceIdentifier) (db db' : Db) : Prop where
  interfaces : db'.interfaces = db.interfaces
  peers : ∀ other, other ≠ id → db'.getInterfacePeers other = db.getInterfacePeers other

theorem OtherInterfaces.refl (id : InterfaceIdentifier) (db : Db) : OtherInterfaces id db db :=
  ⟨rfl, fun _ _ => rfl⟩

theorem OtherInterfaces.trans {id : InterfaceIdentifier} {db db' db'' : Db}
    (first : OtherInterfaces id db db') (second : OtherInterfaces id db' db'') :
    OtherInterfaces id db db'' :=
  ⟨second.interfaces.trans first.interfaces,
    fun other ne => (second.peers other ne).trans (first.peers other ne)⟩

/-- The peer is stored for no other interface. -/
def Stays (db : Db) (id : InterfaceIdentifier) (p : Peer) : Prop :=
  ∀ row, db.peers.find p.identifier = some row → row.interfaceIdentifier = id

theorem commitPeer_otherInterfaces {db : Db} {id : InterfaceIdentifier} (peer : Peer)
    (ui : UserIdentifier) (now : Time) (here : peer.interfaceIdentifier = id)
    (stays : Stays db id peer) :
    OtherInterfaces id db (db.commitPeer ui now peer.identifier peer) := by
  refine ⟨Db.ensurePeerStatus_interfaces .., fun other ne => ?_⟩
  refine Db.getInterfacePeers_commitPeer db ui now _ (here ▸ ne.symm) fun row found => ?_
  rw [stays row found]
  exact ne.symm

theorem commitPeer_stays {db : Db} {id : InterfaceIdentifier} (peer other : Peer)
    (ui : UserIdentifier) (now : Time) (here : peer.interfaceIdentifier = id)
    (stays : Stays db id other) :
    Stays (db.commitPeer ui now peer.identifier peer) id other := by
  intro row found
  rw [Db.commitPeer_peers, Table.find_upsert] at found
  split at found
  · rw [← Option.some.inj found]
    exact here
  · exact stays row found

/-- The world after peers of an interface were saved. -/
structure AfterSaving (iface : Interface) (d' : Device w) (world world' : World w) : Prop where
  devices : world'.devices = (world.setDevice iface.identifier d').devices
  others : OtherInterfaces iface.identifier world.db world'.db
  stays : ∀ p, Stays world.db iface.identifier p → Stays world'.db iface.identifier p

theorem AfterSaving.refl {iface : Interface} {d : Device w} {world : World w}
    (device : world.devices iface.identifier = some d) : AfterSaving iface d world world where
  devices := by rw [World.setDevice_eq_self device]
  others := OtherInterfaces.refl ..
  stays := fun _ h => h

theorem AfterSaving.device {iface : Interface} {d' : Device w} {world world' : World w}
    (after : AfterSaving iface d' world world') : world'.devices iface.identifier = some d' := by
  rw [after.devices, World.setDevice_self]

theorem AfterSaving.trans {iface : Interface} {d' d'' : Device w} {world world' world'' : World w}
    (first : AfterSaving iface d' world world') (second : AfterSaving iface d'' world' world'') :
    AfterSaving iface d'' world world'' where
  devices := by
    rw [second.devices]
    simp only [World.setDevice, first.devices, Function.update_idem]
  others := first.others.trans second.others
  stays := fun p h => second.stays p (first.stays p h)

/-- What saving a peer of an interface of the local backend needs. -/
structure Savable (m : Manager) (iface : Interface) (w : Wgtypes) (db : Db) (p : Peer) : Prop where
  canonical : Canonical w p
  here : p.interfaceIdentifier = iface.identifier
  stays : Stays db iface.identifier p

/-- The interface is stored and served by the local controller. -/
structure Local (m : Manager) (iface : Interface) (db : Db) : Prop where
  stored : db.interfaces.find iface.identifier = some iface
  controller : m.getController iface = localBackendName

theorem eval_saveOne (faultless : Faultless circumstances) {m : Manager} (ui : ContextUserInfo)
    {iface : Interface} {world : World w} {d : Device w} {p : Peer}
    (served : Local m iface world.db) (savable : Savable m iface w world.db p)
    (device : world.devices iface.identifier = some d) (n : ℕ) :
    ∃ saved k world',
      (m.saveOne ui p).eval (inTurn client circumstances) (n, world) = (.ok saved, (k, world')) ∧
      AfterSaving iface (savedDevice client m.cfg.core.forceClientIPAsAllowedIP d [p]) world
        world' := by
  let row := world.db.getOrCreatePeer ui.id (circumstances (n + 1)).now p.identifier
  let now := (circumstances (n + 3)).now
  let saved : Peer := { p with base := { row.base with updatedBy := ui.id, updatedAt := now } }
  let world' : World w :=
    { db := world.db.commitPeer ui.id now p.identifier (p.copyCalculatedAttributes row)
      devices := (world.setDevice iface.identifier
        (savedDevice client m.cfg.core.forceClientIPAsAllowedIP d [p])).devices
      events := world.events ++ [.auditPeerChanged "save" saved] }
  have found : world.db.getInterface p.interfaceIdentifier = .ok iface := by
    rw [Db.getInterface, savable.here, served.stored]
  have merged : inTurn client circumstances (.savePeer (m.getController iface)
        (p.copyCalculatedAttributes row).interfaceIdentifier
        (p.copyCalculatedAttributes row).identifier
        fun pp => .ok (mergeToPhysicalPeer pp (p.copyCalculatedAttributes row)
          m.cfg.core.forceClientIPAsAllowedIP)) (n + 1 + 1, world) =
      (.ok (), (n + 3, { world with devices := world'.devices })) := by
    have written : LocalController.savePeer client world.devices iface.identifier
          (p.copyCalculatedAttributes row).identifier
          (fun pp => .ok (mergeToPhysicalPeer pp (p.copyCalculatedAttributes row)
            m.cfg.core.forceClientIPAsAllowedIP)) = (.ok (), world'.devices) :=
      savePeer_merge _ device savable.canonical.valid
    have here : (p.copyCalculatedAttributes row).interfaceIdentifier = iface.identifier :=
      savable.here
    rw [served.controller, inTurn_savePeer client faultless, here, written]
  refine ⟨saved, n + 5, world', ?_, ⟨rfl,
    commitPeer_otherInterfaces (p.copyCalculatedAttributes row) ui.id now savable.here
      savable.stays,
    fun other => commitPeer_stays (p.copyCalculatedAttributes row) other ui.id now savable.here⟩⟩
  simp only [Manager.saveOne, repoSavePeer, Manager.saveToBackend, issue, Program.perform_bind,
    Program.call_bind, Program.eval_call, inTurn_repo client faultless, RepoOp.answer, RepoOp.apply,
    found]
  rw [merged]
  simp only [Program.pure_eq, Program.ret_bind, Program.perform_bind, Program.eval_call,
    inTurn_repo client faultless, RepoOp.answer, RepoOp.apply]
  rfl

theorem eval_saveAll (faultless : Faultless circumstances) {m : Manager} (ui : ContextUserInfo)
    {iface : Interface} (peers : List Peer) {world : World w} {d : Device w}
    (served : Local m iface world.db)
    (savable : ∀ p ∈ peers, Savable m iface w world.db p)
    (device : world.devices iface.identifier = some d) (n : ℕ) :
    ∃ saved k world',
      (m.saveAll ui peers).eval (inTurn client circumstances) (n, world) =
        (.ok saved, (k, world')) ∧
      AfterSaving iface (savedDevice client m.cfg.core.forceClientIPAsAllowedIP d peers) world
        world' := by
  induction peers generalizing world d n with
  | nil => exact ⟨[], n, world, rfl, AfterSaving.refl device⟩
  | cons p peers ih =>
    obtain ⟨saved, k, world', run, after⟩ :=
      eval_saveOne client faultless ui served (savable p List.mem_cons_self) device n
    have served' : Local m iface world'.db :=
      ⟨after.others.interfaces ▸ served.stored, served.controller⟩
    have savable' : ∀ p ∈ peers, Savable m iface w world'.db p := fun p hp =>
      let before := savable p (List.mem_cons_of_mem _ hp)
      ⟨before.canonical, before.here, after.stays p before.stays⟩
    obtain ⟨rest, k', world'', run', after'⟩ := ih served' savable' after.device k
    refine ⟨saved :: rest, k', world'', ?_, after.trans after'⟩
    simp only [Manager.saveAll, Program.eval_bind, run, run', Program.pure_eq, Program.eval_ret]

/-- Applying enabled peers saves them all. -/
theorem eval_applyPeers (faultless : Faultless circumstances) {m : Manager} (ui : ContextUserInfo)
    (noFanout : Bool) {iface : Interface} (peers : List Peer) {world : World w} {d : Device w}
    (served : Local m iface world.db)
    (savable : ∀ p ∈ peers, Savable m iface w world.db p)
    (device : world.devices iface.identifier = some d) (n : ℕ) :
    ∃ k world',
      (m.applyPeers ui noFanout peers).eval (inTurn client circumstances) (n, world) =
        (.ok (), (k, world')) ∧
      AfterSaving iface (savedDevice client m.cfg.core.forceClientIPAsAllowedIP d peers) world
        world' := by
  have enabled : peers.filter (fun p => !p.isDisabled) = peers :=
    List.filter_eq_self.mpr fun p hp => by simp [(savable p hp).canonical.enabled]
  cases peers with
  | nil => exact ⟨n, world, rfl, AfterSaving.refl device⟩
  | cons p peers =>
    obtain ⟨saved, k, world', run, after⟩ :=
      eval_saveAll client faultless ui (p :: peers) served savable device n
    let routes : List Event := if saved = [] then [] else [.routeUpdate "peers updated"]
    let updates : List Event := if noFanout then [] else [.peersUpdated]
    refine ⟨k + routes.length + updates.length,
      { world' with events := world'.events ++ routes ++ updates }, ?_,
      ⟨after.devices, after.others, after.stays⟩⟩
    cases saved <;> cases noFanout <;>
      simp [Manager.applyPeers, Manager.savePeers, enabled, Program.eval_bind, run, issue, inTurn,
        ManagerOp.exec, routes, updates]

/-- What a round of the sync makes of a peer. -/
def Synced (force : Bool) (d d' : Device w) (updated : List Peer) (p : Peer) : Prop :=
  if skips (listed d) p then
    Option.Rel (Kept (Lost w force updated)) (d'.find (toPublicKey w p.identifier))
      (d.find (toPublicKey w p.identifier))
  else ∃ q, d'.find (toPublicKey w p.identifier) = some q ∧
    Saved force updated p (oldPeer d (toPublicKey w p.identifier)) q

theorem key_injective {p p' : Peer} (canonical : Canonical w p) (canonical' : Canonical w p')
    (same : toPublicKey w p.identifier = toPublicKey w p'.identifier) :
    p.identifier = p'.identifier := by
  rw [← canonical.text, ← canonical'.text, same]

theorem mem_peersToUpdate {order : MapOrder Peer} {existing newPeers : List Peer} {p : Peer} :
    p ∈ peersToUpdate order existing newPeers ↔ p ∈ newPeers ∧ skips existing p = false := by
  simp [peersToUpdate, (order.perm newPeers).mem_iff]

theorem nodup_enabledPeers (db : Db) (id : InterfaceIdentifier) :
    ((enabledPeers db id).map Peer.identifier).Nodup :=
  (db.nodup_getInterfacePeers id).sublist (List.filter_sublist.map _)

theorem nodup_keys {order : MapOrder Peer} {existing newPeers : List Peer}
    (canonical : ∀ p ∈ newPeers, Canonical w p) (nodup : (newPeers.map Peer.identifier).Nodup) :
    ((peersToUpdate order existing newPeers).map fun p => toPublicKey w p.identifier).Nodup := by
  have updated : ((peersToUpdate order existing newPeers).map Peer.identifier).Nodup :=
    (((order.perm newPeers).map Peer.identifier).nodup_iff.mpr nodup).sublist
      (List.filter_sublist.map _)
  refine List.Nodup.map_on ?_ (List.Nodup.of_map _ updated)
  intro p hp p' hp' same
  exact List.inj_on_of_nodup_map updated hp hp'
    (key_injective (canonical p (mem_peersToUpdate.mp hp).1)
      (canonical p' (mem_peersToUpdate.mp hp').1) same)

/-- Only peers that are not stored are removed. -/
theorem not_stale {order : MapOrder Peer} {newPeers : List Peer} {p : Peer} (hp : p ∈ newPeers)
    (canonical : Canonical w p) (d : Device w) :
    ¬ ∃ id ∈ stalePeers order (listed d) newPeers,
      w.parseKey id = some (toPublicKey w p.identifier) := by
  rintro ⟨id, stale, parsed⟩
  obtain ⟨e, he, rfl⟩ := List.mem_map.mp stale
  obtain ⟨he, absent⟩ := List.mem_filter.mp he
  obtain ⟨q, _, rfl⟩ := List.mem_map.mp ((order.perm _).mem_iff.mp he)
  have text : w.parseKey (w.keyText q.publicKey) = some (toPublicKey w p.identifier) := parsed
  rw [w.parseKey_keyText] at text
  have same : p.identifier = w.keyText q.publicKey := by
    rw [← canonical.text, Option.some.inj text]
  have different := List.all_eq_true.mp absent p hp
  exact of_decide_eq_true different same

theorem eval_syncInterface_synced (faultless : Faultless circumstances) {m : Manager}
    (order : MapOrder Peer) (ui : ContextUserInfo) (noFanout : Bool) {iface : Interface}
    {world : World w} {d : Device w} (served : Local m iface world.db)
    (savable : ∀ p ∈ enabledPeers world.db iface.identifier, Savable m iface w world.db p)
    (device : world.devices iface.identifier = some d) (n : ℕ) :
    ∃ k world' d',
      (m.syncInterface order ui noFanout iface).eval (inTurn client circumstances) (n, world) =
        ((enabledPeers world.db iface.identifier).length, (k, world')) ∧
      AfterSaving iface d' world world' ∧
      ∀ p ∈ enabledPeers world.db iface.identifier,
        Synced m.cfg.core.forceClientIPAsAllowedIP d d'
          (peersToUpdate order (listed d) (enabledPeers world.db iface.identifier)) p := by
  obtain ⟨d₁, k, removed, run⟩ :=
    eval_syncInterface client faultless m order ui noFanout iface device n
  let newPeers := enabledPeers world.db iface.identifier
  let updated := peersToUpdate order (listed d) newPeers
  have savable' : ∀ p ∈ updated, Savable m iface w (world.setDevice iface.identifier d₁).db p :=
    fun p hp => savable p (mem_peersToUpdate.mp hp).1
  have served' : Local m iface (world.setDevice iface.identifier d₁).db := served
  obtain ⟨k', world', applied, after⟩ := eval_applyPeers client faultless ui noFanout updated
    served' savable' (World.setDevice_self world iface.identifier d₁) k
  refine ⟨k', world', savedDevice client m.cfg.core.forceClientIPAsAllowedIP d₁ updated, ?_, ?_,
    fun p hp => ?_⟩
  · rw [run, applied]
  · refine ⟨after.devices.trans ?_, after.others, after.stays⟩
    rw [World.setDevice_setDevice]
  · have canonical := fun p hp => (savable p hp).canonical
    have survives : Option.Rel WgPeer.Same (d₁.find (toPublicKey w p.identifier))
        (d.find (toPublicKey w p.identifier)) := by
      have kept := removed (toPublicKey w p.identifier)
      rwa [if_neg (not_stale hp (canonical p hp) d)] at kept
    have canonical' : ∀ p ∈ updated, Canonical w p :=
      fun p hp => canonical p (mem_peersToUpdate.mp hp).1
    unfold Synced
    split
    · rename_i skipped
      refine Kept.of_same (find_savedDevice_other client _ canonical' ?_ d₁) survives
      intro p' hp' same
      obtain ⟨stored, notSkipped⟩ := mem_peersToUpdate.mp hp'
      have equal := List.inj_on_of_nodup_map (nodup_enabledPeers world.db iface.identifier) hp
        stored (key_injective (canonical p hp) (canonical' p' hp') same)
      rw [← equal, skipped] at notSkipped
      cases notSkipped
    · rename_i changed
      have hp' : p ∈ updated := mem_peersToUpdate.mpr ⟨hp, by simpa using changed⟩
      obtain ⟨q, found, saved⟩ := find_savedDevice_self client
        m.cfg.core.forceClientIPAsAllowedIP canonical'
        (nodup_keys canonical (nodup_enabledPeers world.db iface.identifier)) hp' d₁
      refine ⟨q, found, saved.of_alike ?_⟩
      exact alike_oldPeer (f := id) (fun p => ⟨rfl, rfl, rfl, rfl⟩) (by simpa using survives)

/-- Every peer is on the device, and configured as merged. -/
def AllConfigured (d : Device w) (peers : List Peer) (force : Bool) : Prop :=
  ∀ p ∈ peers, ∃ q ∈ d.peers.rows, w.keyText q.publicKey = p.identifier ∧
    ConfiguredAs q (savedConfig w p force)

/-- Where a stored peer has no (valid) value, its peer on the device has none
either; the networks of skipped peers are listed, and no network belongs to two
peers. -/
structure Reliable (d : Device w) (peers : List Peer) (force : Bool) : Prop where
  old : ∀ p ∈ peers, ∀ q ∈ d.peers.rows, w.keyText q.publicKey = p.identifier →
    ((savedConfig w p force).presharedKey = none → q.presharedKey = w.zeroKey) ∧
    ((savedConfig w p force).persistentKeepaliveInterval = none →
      q.persistentKeepaliveInterval = 0) ∧
    ((savedConfig w p force).endpoint = none → q.endpoint = none)
  listed : ∀ p ∈ peers, skips (listed d) p = true → AllowedIPsListed p force
  disjoint : ∀ p ∈ peers, ∀ p' ∈ peers, p ≠ p' →
    ∀ network ∈ (savedConfig w p force).allowedIPs,
      network ∉ (savedConfig w p' force).allowedIPs

theorem find_of_identifier {p : Peer} (canonical : Canonical w p) (hq : q ∈ d.peers.rows)
    (id : w.keyText q.publicKey = p.identifier) :
    d.find (toPublicKey w p.identifier) = some q := by
  have key : q.publicKey = toPublicKey w p.identifier :=
    w.keyText_injective (id.trans canonical.text.symm)
  rw [← key]
  exact Table.find_of_mem hq

theorem mem_of_find {p : Peer} (canonical : Canonical w p)
    (found : d.find (toPublicKey w p.identifier) = some q) :
    q ∈ d.peers.rows ∧ w.keyText q.publicKey = p.identifier := by
  refine ⟨Table.mem_of_find found, ?_⟩
  rw [Table.key_of_find found, canonical.text]

theorem reliable_of_configured {d' : Device w} {peers updated : List Peer}
    (canonical : ∀ p ∈ peers, Canonical w p) (nodup : (peers.map Peer.identifier).Nodup)
    (synced : ∀ p ∈ peers, Synced force d d' updated p)
    (sound : ∀ p ∈ peers, SkipSound d p force) (configured : AllConfigured d' peers force) :
    Reliable d peers force where
  old := by
    intro p hp q hq id
    have found := find_of_identifier (canonical p hp) hq id
    by_cases skipped : skips (listed d) p = true
    · have as := sound p hp skipped q hq id
      refine ⟨fun none => ?_, fun none => ?_, fun none => as.endpoint.trans none⟩
      · rw [as.presharedKey, none, Option.getD_none]
      · rw [as.persistentKeepalive, none, Option.getD_none]
    · have result := synced p hp
      rw [Synced, if_neg skipped] at result
      obtain ⟨q', found', saved⟩ := result
      obtain ⟨q'', hq'', id'', as⟩ := configured p hp
      have same := find_of_identifier (canonical p hp) hq'' id''
      rw [found'] at same
      obtain rfl := Option.some.inj same
      rw [oldPeer, found, Option.getD_some] at saved
      refine ⟨fun none => ?_, fun none => ?_, fun none => ?_⟩
      · simpa [none] using saved.presharedKey.symm.trans as.presharedKey
      · simpa [none] using saved.persistentKeepalive.symm.trans as.persistentKeepalive
      · simpa [none] using saved.endpoint.symm.trans as.endpoint
  listed := by
    intro p hp skipped
    obtain ⟨q, hq, equal⟩ := (skips_listed d p).mp skipped
    have clean := (skipSound_iff (canonical p hp).enabled).mp (sound p hp) skipped
    exact (clean q hq (equals_listedPeer.mp equal).1).2.2
  disjoint := by
    intro p hp p' hp' ne network inP inP'
    obtain ⟨q, hq, id, as⟩ := configured p hp
    obtain ⟨q', hq', id', as'⟩ := configured p' hp'
    have same := d'.routed q hq q' hq' network ((as.allowedIPs network).mpr inP)
      ((as'.allowedIPs network).mpr inP')
    exact ne (List.inj_on_of_nodup_map nodup hp hp' (id.symm.trans (same ▸ id')))

theorem configured_of_reliable {d' : Device w} {peers updated : List Peer}
    (canonical : ∀ p ∈ peers, Canonical w p)
    (part : ∀ p, p ∈ updated ↔ p ∈ peers ∧ skips (listed d) p = false)
    (synced : ∀ p ∈ peers, Synced force d d' updated p) (reliable : Reliable d peers force) :
    (∀ p ∈ peers, SkipSound d p force) ∧ AllConfigured d' peers force := by
  have sound : ∀ p ∈ peers, SkipSound d p force := by
    intro p hp
    refine (skipSound_iff (canonical p hp).enabled).mpr fun skipped q hq id => ?_
    obtain ⟨_, _, equal⟩ := (skips_listed d p).mp skipped
    obtain ⟨_, _, _, noKey, noKeepalive⟩ := equals_listedPeer.mp equal
    obtain ⟨presharedKey, keepalive, _⟩ := reliable.old p hp q hq id
    have enabled := (canonical p hp).enabled
    exact ⟨presharedKey (by simp [savedConfig, enabled, noKey]),
      keepalive (by simp [savedConfig, enabled, noKeepalive]), reliable.listed p hp skipped⟩
  refine ⟨sound, fun p hp => ?_⟩
  have result := synced p hp
  by_cases skipped : skips (listed d) p = true
  · rw [Synced, if_pos skipped] at result
    obtain ⟨q, hq, equal⟩ := (skips_listed d p).mp skipped
    have id := (equals_listedPeer.mp equal).1
    have as := sound p hp skipped q hq id
    rw [find_of_identifier (canonical p hp) hq id] at result
    obtain ⟨q', found', kept⟩ := Table.rel_some result
    obtain ⟨hq', id'⟩ := mem_of_find (canonical p hp) found'
    refine ⟨q', hq', id', kept.presharedKey.trans as.presharedKey,
      kept.persistentKeepalive.trans as.persistentKeepalive, kept.endpoint.trans as.endpoint,
      fun network => ?_⟩
    rw [kept.allowedIPs, as.allowedIPs]
    refine and_iff_left_of_imp fun inP later => ?_
    obtain ⟨p', hp', inP'⟩ := later
    obtain ⟨stored, changed⟩ := (part p').mp hp'
    have ne : p ≠ p' := by
      rintro rfl
      rw [skipped] at changed
      cases changed
    exact reliable.disjoint p hp p' stored ne network inP inP'
  · rw [Synced, if_neg skipped] at result
    obtain ⟨q', found', saved⟩ := result
    obtain ⟨hq', id'⟩ := mem_of_find (canonical p hp) found'
    have old : ((savedConfig w p force).presharedKey = none →
          (oldPeer d (toPublicKey w p.identifier)).presharedKey = w.zeroKey) ∧
        ((savedConfig w p force).persistentKeepaliveInterval = none →
          (oldPeer d (toPublicKey w p.identifier)).persistentKeepaliveInterval = 0) ∧
        ((savedConfig w p force).endpoint = none →
          (oldPeer d (toPublicKey w p.identifier)).endpoint = none) := by
      cases stored : d.find (toPublicKey w p.identifier) with
      | none =>
        rw [oldPeer, stored]
        exact ⟨fun _ => rfl, fun _ => rfl, fun _ => rfl⟩
      | some q =>
        obtain ⟨hq, id⟩ := mem_of_find (canonical p hp) stored
        rw [oldPeer, stored]
        exact reliable.old p hp q hq id
    obtain ⟨presharedKey, keepalive, endpoint⟩ := old
    refine ⟨q', hq', id', ?_, ?_, ?_, fun network => ⟨saved.subset network, fun inP => ?_⟩⟩
    · rw [saved.presharedKey]
      cases value : (savedConfig w p force).presharedKey with
      | none => exact presharedKey value
      | some key => rfl
    · rw [saved.persistentKeepalive]
      cases value : (savedConfig w p force).persistentKeepaliveInterval with
      | none => exact keepalive value
      | some interval => rfl
    · rw [saved.endpoint]
      cases value : (savedConfig w p force).endpoint with
      | none => exact endpoint value
      | some addr => rfl
    · refine saved.kept network inP fun other hother ne => ?_
      exact reliable.disjoint p hp other ((part other).mp hother).1 ne.symm network inP

/-- Every interface has a device of the local backend, and every enabled peer is
identified by the canonical text of its public key. -/
structure WellFormed (m : Manager) (world : World w) (ifaces : List Interface) : Prop where
  device : ∀ iface ∈ ifaces, (world.devices iface.identifier).isSome
  controller : ∀ iface ∈ ifaces, m.getController iface = localBackendName
  canonical : ∀ iface ∈ ifaces, ∀ p ∈ enabledPeers world.db iface.identifier,
    (∃ key, w.keyText key = p.identifier) ∧ p.interface.keyPair.publicKey = p.identifier

theorem mem_enabledPeers {db : Db} {id : InterfaceIdentifier} {p : Peer}
    (hp : p ∈ enabledPeers db id) :
    p.isDisabled = false ∧ p.interfaceIdentifier = id ∧ Stays db id p := by
  obtain ⟨loaded, enabled⟩ := List.mem_filter.mp hp
  obtain ⟨row, hrow, rfl⟩ := List.mem_map.mp loaded
  obtain ⟨stored, here⟩ := List.mem_filter.mp hrow
  have here' : row.interfaceIdentifier = id := of_decide_eq_true here
  refine ⟨by simpa using enabled, here', fun other found => ?_⟩
  have same := Table.find_of_mem stored
  rw [show db.peers.find row.identifier = some other from found] at same
  exact Option.some.inj same ▸ here'

theorem WellFormed.savable {m : Manager} {world : World w} {ifaces : List Interface}
    (wellFormed : WellFormed m world ifaces) {iface : Interface} (hiface : iface ∈ ifaces)
    {p : Peer} (hp : p ∈ enabledPeers world.db iface.identifier) :
    Savable m iface w world.db p := by
  obtain ⟨enabled, here, stays⟩ := mem_enabledPeers hp
  obtain ⟨identifier, publicKey⟩ := wellFormed.canonical iface hiface p hp
  exact ⟨⟨enabled, identifier, publicKey⟩, here, stays⟩

/-- What a sync of these interfaces makes of their devices. -/
theorem eval_syncInterfaces_synced (faultless : Faultless circumstances) {m : Manager}
    (order : MapOrder Peer) (ui : ContextUserInfo) (noFanout : Bool) (ifaces : List Interface)
    {world : World w}
    (stored : ∀ iface ∈ ifaces, world.db.interfaces.find iface.identifier = some iface)
    (wellFormed : WellFormed m world ifaces) (nodup : (ifaces.map Interface.identifier).Nodup) (n : ℕ) :
    let final := ((m.syncInterfaces order ui noFanout ifaces).eval (inTurn client circumstances)
      (n, world)).2.2
    (∀ id, id ∉ ifaces.map Interface.identifier → final.devices id = world.devices id) ∧
    ∀ iface ∈ ifaces, ∀ d, world.devices iface.identifier = some d →
      ∃ d', final.devices iface.identifier = some d' ∧
        ∀ p ∈ enabledPeers world.db iface.identifier,
          Synced m.cfg.core.forceClientIPAsAllowedIP d d'
            (peersToUpdate order (listed d) (enabledPeers world.db iface.identifier)) p := by
  induction ifaces generalizing world n with
  | nil => exact ⟨fun _ _ => rfl, fun _ h => by cases h⟩
  | cons iface ifaces ih =>
    rw [List.map_cons, List.nodup_cons] at nodup
    obtain ⟨d, device⟩ := Option.isSome_iff_exists.mp (wellFormed.device iface List.mem_cons_self)
    have served : Local m iface world.db :=
      ⟨stored iface List.mem_cons_self, wellFormed.controller iface List.mem_cons_self⟩
    obtain ⟨k, world', d', run, after, synced⟩ :=
      eval_syncInterface_synced client faultless order ui noFanout served
        (fun p hp => wellFormed.savable List.mem_cons_self hp) device n
    have ne : ∀ other ∈ ifaces, other.identifier ≠ iface.identifier :=
      fun other hother same => nodup.1 (same ▸ List.mem_map_of_mem hother)
    have unchanged : ∀ id, id ≠ iface.identifier → world'.devices id = world.devices id := by
      intro id hid
      rw [after.devices, World.setDevice_of_ne _ _ hid]
    have peers : ∀ other ∈ ifaces,
        enabledPeers world'.db other.identifier = enabledPeers world.db other.identifier := by
      intro other hother
      rw [enabledPeers, after.others.peers _ (ne other hother), ← enabledPeers]
    have stored' : ∀ other ∈ ifaces,
        world'.db.interfaces.find other.identifier = some other := by
      rw [after.others.interfaces]
      exact fun other hother => stored other (List.mem_cons_of_mem _ hother)
    have wellFormed' : WellFormed m world' ifaces := by
      refine ⟨fun other hother => ?_, fun other hother => ?_, fun other hother => ?_⟩
      · rw [unchanged _ (ne other hother)]
        exact wellFormed.device other (List.mem_cons_of_mem _ hother)
      · exact wellFormed.controller other (List.mem_cons_of_mem _ hother)
      · rw [peers other hother]
        exact wellFormed.canonical other (List.mem_cons_of_mem _ hother)
    obtain ⟨others, rest⟩ := ih stored' wellFormed' nodup.2 k
    simp only [Manager.syncInterfaces, Program.eval_bind, run, Program.pure_eq, Program.eval_ret]
    refine ⟨fun id hid => ?_, fun other hother d₀ device₀ => ?_⟩
    · rw [List.map_cons, List.mem_cons, not_or] at hid
      rw [others id hid.2, unchanged id hid.1]
    · rcases List.mem_cons.mp hother with rfl | hother
      · rw [device] at device₀
        obtain rfl := Option.some.inj device₀
        exact ⟨d', (others _ nodup.1).trans after.device, synced⟩
      · rw [← peers other hother]
        exact rest other hother d₀ ((unchanged _ (ne other hother)).trans device₀)

/-- Skipped peers are configured as merged, and after the sync all enabled peers are. -/
def Configures (circumstances : ℕ → Circumstance) (m : Manager) (order : MapOrder Peer)
    (ui : ContextUserInfo) (noFanout : Bool) (world : World w) : Prop :=
  let final := ((m.syncAllPeersFromDB order ui noFanout).run client circumstances world).2
  ∀ iface ∈ world.db.interfaces.rows, ∀ d, world.devices iface.identifier = some d →
    (∀ p ∈ enabledPeers world.db iface.identifier,
      SkipSound d p m.cfg.core.forceClientIPAsAllowedIP) ∧
    ∃ d', final.devices iface.identifier = some d' ∧
      AllConfigured d' (enabledPeers world.db iface.identifier)
        m.cfg.core.forceClientIPAsAllowedIP

theorem configures_iff (faultless : Faultless circumstances) {m : Manager}
    (order : MapOrder Peer) {ui : ContextUserInfo} (admin : ui.isAdmin = true) (noFanout : Bool)
    {world : World w} (wellFormed : WellFormed m world world.db.interfaces.rows) :
    Configures client circumstances m order ui noFanout world ↔
      ∀ iface ∈ world.db.interfaces.rows, ∀ d, world.devices iface.identifier = some d →
        Reliable d (enabledPeers world.db iface.identifier)
          m.cfg.core.forceClientIPAsAllowedIP := by
  obtain ⟨n, world', setup, _, final⟩ :=
    run_plain client faultless m order admin noFanout world
  have peers := enabledPeers_congr setup
  have wellFormed' : WellFormed m world' world.db.interfaces.rows := by
    refine ⟨?_, wellFormed.controller, ?_⟩
    · rw [setup.devices]
      exact wellFormed.device
    · simp only [peers]
      exact wellFormed.canonical
  obtain ⟨_, synced⟩ := eval_syncInterfaces_synced client faultless order ui noFanout
    world.db.interfaces.rows (setup.interfaces ▸ fun _ h => Table.find_of_mem h) wellFormed'
    world.db.interfaces.nodup n
  simp only [peers, setup.devices] at synced
  simp only [Configures, final]
  refine forall₂_congr fun iface hiface => forall₂_congr fun d device => ?_
  obtain ⟨d', device', result⟩ := synced iface hiface d device
  have canonical : ∀ p ∈ enabledPeers world.db iface.identifier, Canonical w p :=
    fun p hp => (wellFormed.savable hiface hp).canonical
  constructor
  · rintro ⟨sound, d'', device'', configured⟩
    rw [device'] at device''
    obtain rfl := Option.some.inj device''
    exact reliable_of_configured canonical (nodup_enabledPeers world.db _) result sound configured
  · intro reliable
    obtain ⟨sound, configured⟩ :=
      configured_of_reliable canonical (fun p => mem_peersToUpdate) result reliable
    exact ⟨sound, d', device', configured⟩

/-- When skipping a peer is sound, for any peer and device, and when a sync without
failures leaves all enabled peers configured as merged. -/
theorem skipSound_and_configures_iff :
    (∀ (d : Device w) (p : Peer) (force : Bool), p.isDisabled = false →
      (SkipSound d p force ↔ (skips (listed d) p = true → Unaltered d p force))) ∧
    ∀ (circumstances : ℕ → Circumstance), Faultless circumstances →
      ∀ (m : Manager) (order : MapOrder Peer) (ui : ContextUserInfo), ui.isAdmin = true →
      ∀ (noFanout : Bool) (world : World w), WellFormed m world world.db.interfaces.rows →
        (Configures client circumstances m order ui noFanout world ↔
          ∀ iface ∈ world.db.interfaces.rows, ∀ d, world.devices iface.identifier = some d →
            Reliable d (enabledPeers world.db iface.identifier)
              m.cfg.core.forceClientIPAsAllowedIP) :=
  ⟨fun _ _ _ enabled => skipSound_iff enabled,
    fun _ faultless _ order _ admin noFanout _ wellFormed =>
      configures_iff client faultless order admin noFanout wellFormed⟩

/-- The address of a peer as its allowed IP. -/
def addressedPeer : Peer :=
  { enabledPeer key with
    allowedIPsStr := ⟨"10.0.0.2/32", true⟩
    interface := { (enabledPeer key).interface with
      addresses := [⟨⟨.v4, 0x0a000002, sampleAddr_lt⟩, 32, sampleBits_le⟩] } }

/-- The device after the peer was configured, by hand with another preshared key. -/
def deviceWith (presharedKey : Option plainTypes.Key) : Device plainTypes :=
  (plainClient plainTypes).configurePeer Device.empty
    { PeerConfig.named (toPublicKey plainTypes key) with
      presharedKey := presharedKey
      allowedIPs := [Network.of ⟨⟨.v4, 0x0a000002, sampleAddr_lt⟩, 32, sampleBits_le⟩] }

def otherKey : PeerIdentifier := "AAAAAAAAAAAAAAAAAAAAAAAAAAAAAAAAAAAAAAAAAAI="

/-- A peer that is on the device as configured is skipped, and stays configured. -/
theorem unaltered_skipSound_and_configures :
    SkipSound (deviceWith none) addressedPeer false ∧
      Configures (plainClient plainTypes) calm singleNode MapOrder.listed admin false
        (oneInterface (deviceWith none) [addressedPeer]) := by
  have uses : ∀ p, usesAllowedIPsStr p false = true → p.extraAllowedIPsStr = "" →
      AllowedIPsListed p false := by
    intro p uses none
    rw [AllowedIPsListed, if_pos uses, none]
    exact fun _ h => by cases h
  obtain ⟨skipSound, configures⟩ := skipSound_and_configures_iff (plainClient plainTypes)
  constructor
  · refine (skipSound _ _ _ (by decide)).mpr fun _ q hq _ => ?_
    have clean : ∀ q ∈ (deviceWith none).peers.rows,
        q.presharedKey = plainTypes.zeroKey ∧ q.persistentKeepaliveInterval = 0 := by
      decide +kernel
    exact ⟨(clean q hq).1, (clean q hq).2, uses _ (by decide) rfl⟩
  · have ifaces : ∀ iface ∈ (oneInterface (deviceWith none) [addressedPeer]).db.interfaces.rows,
        iface.identifier = "wg0" := by decide +kernel
    have peers : ∀ p ∈ enabledPeers (oneInterface (deviceWith none) [addressedPeer]).db "wg0",
        p.identifier = key ∧ p.interface.keyPair.publicKey = p.identifier ∧
          usesAllowedIPsStr p false = true ∧ p.extraAllowedIPsStr = "" := by decide +kernel
    have one : ∀ p ∈ enabledPeers (oneInterface (deviceWith none) [addressedPeer]).db "wg0",
        ∀ p' ∈ enabledPeers (oneInterface (deviceWith none) [addressedPeer]).db "wg0", p = p' := by
      decide +kernel
    have clean : ∀ q ∈ (deviceWith none).peers.rows, q.presharedKey = plainTypes.zeroKey ∧
        q.persistentKeepaliveInterval = 0 ∧ q.endpoint = none := by decide +kernel
    refine (configures calm (fun _ => rfl) singleNode MapOrder.listed admin rfl false _ ?_).mpr ?_
    · refine ⟨by decide +kernel, by decide +kernel, fun iface hiface p hp => ?_⟩
      rw [ifaces iface hiface] at hp
      obtain ⟨id, publicKey, _⟩ := peers p hp
      exact ⟨⟨⟨key, by decide⟩, id.symm⟩, publicKey⟩
    · intro iface hiface d device
      rw [ifaces iface hiface] at device ⊢
      obtain rfl := Option.some.inj device
      refine ⟨fun p hp q hq _ => ?_, fun p hp _ => ?_, fun p hp p' hp' ne => ?_⟩
      · obtain ⟨presharedKey, keepalive, endpoint⟩ := clean q hq
        exact ⟨fun _ => presharedKey, fun _ => keepalive, fun _ => endpoint⟩
      · exact uses p (peers p hp).2.2.1 (peers p hp).2.2.2
      · exact absurd (one p hp p' hp') ne

/-- The preshared key that was removed from the stored peer stays on the device. -/
theorem stalePresharedKey_not_configures :
    ¬ Configures (plainClient plainTypes) calm singleNode MapOrder.listed admin false
      (oneInterface (deviceWith (some (toPublicKey plainTypes otherKey))) [addressedPeer]) := by
  intro configures
  have skipped : ∃ p ∈ enabledPeers (oneInterface (deviceWith
        (some (toPublicKey plainTypes otherKey))) [addressedPeer]).db "wg0",
      skips (listed (deviceWith (some (toPublicKey plainTypes otherKey)))) p = true ∧
      ∃ q ∈ (deviceWith (some (toPublicKey plainTypes otherKey))).peers.rows,
        plainTypes.keyText q.publicKey = p.identifier ∧
        q.presharedKey ≠ (savedConfig plainTypes p false).presharedKey.getD plainTypes.zeroKey := by
    decide +kernel
  obtain ⟨p, hp, skip, q, hq, id, stale⟩ := skipped
  have sound := (configures { Interface.zero with identifier := "wg0" } (by decide) _ rfl).1 p hp
  exact stale (sound skip q hq id).presharedKey

end WgPortal.WireGuard.SyncSkip
