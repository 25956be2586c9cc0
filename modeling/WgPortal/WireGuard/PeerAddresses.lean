import WgPortal.Library.Interleaving
import WgPortal.WireGuard.Peers
import WgPortal.WireGuard.Sync

/-! The addresses of the peers of one interface, while peers are prepared and created at the same
time. An address is proposed from what is stored when it is read, and nothing reserves it. -/

namespace WgPortal.WireGuard.PeerAddresses

open Domain Library Adapters App Config WgController System
open Library.NetIP (Addr)

inductive Call where
  | preparePeer (ui : ContextUserInfo) (id : InterfaceIdentifier)
  | createPeer (ui : ContextUserInfo) (peer : Peer)
  | createMultiplePeers (ui : ContextUserInfo) (id : InterfaceIdentifier) (r : PeerCreationRequest)

def Call.program (m : Manager) : Call → ManagerProgram Unit
  | preparePeer ui id => do let _ ← m.preparePeer ui id
  | createPeer ui peer => do let _ ← m.createPeer ui peer
  | createMultiplePeers ui id r => do let _ ← m.createMultiplePeers ui id r

/-- No two peers of the interface are stored with the same address. -/
def Distinct (x : InterfaceIdentifier) (db : Db) : Prop :=
  ∀ p ∈ db.getInterfacePeers x, ∀ q ∈ db.getInterfacePeers x, p.identifier ≠ q.identifier →
    ∀ c ∈ p.interface.addresses, ∀ d ∈ q.interface.addresses, c.addr ≠ d.addr

/-- The addresses that are proposed for networks, as far as each is in its own network and in
none before it. -/
def proposed (existingIps : UsedIps) (networks : List Cidr) : List Addr :=
  networks.filterMap fun (network : Cidr) =>
    let used := existingIps network
    (network.nextAddr.bind (skipUsed used (used.length + 1))).bind fun ip =>
      if networks.find? (Cidr.contains · ip) = some network then some ip.addr else none

variable {w : Wgtypes}

/-- `vacant` are addresses that were proposed, and then stored for no peer of the interface. -/
structure State (w : Wgtypes) where
  world : World w
  vacant : List Addr

variable (client : Client w) (m : Manager) (x : InterfaceIdentifier)

def State.after (s : State w) : ManagerOp → List Addr
  | .repo (.getUsedIpsPerSubnet networks) =>
    proposed (s.world.db.getUsedIpsPerSubnet networks) networks ++ s.vacant
  | .repo (.commitPeer _ _ p) =>
    if p.interfaceIdentifier = x then s.vacant.filter (· ∉ p.interface.addresses.map (·.addr))
    else s.vacant
  | _ => s.vacant

def exec (op : ManagerOp) (c : Circumstance) (s : State w) : op.Res × State w :=
  let answer := op.exec client c s.world
  (answer.1, ⟨answer.2, if c.fault.isSome then s.vacant else s.after x op⟩)

def system : System ℕ Empty Call ManagerOp ManagerOp.Res Circumstance Unit (State w) where
  exec := fun _ => exec client x
  env := fun e _ => nomatch e
  start := fun _ call s => some (call.program m, s)
  finish := fun _ _ s => s

/-- The peer is stored for the interface with this address. -/
def owns (db : Db) (p : Peer) (c : Cidr) : Bool :=
  (db.peers.find p.identifier).any (·.interfaceIdentifier = x) && c ∈ db.addressesOf p.identifier

def storing : ManagerOp → Option Peer
  | .repo (.commitPeer _ _ p) => some p
  | _ => none

/-- A peer is stored for the interface with addresses that were proposed, and that no other
peer of it got since. -/
def Entitled (s : State w) (op : ManagerOp) : Prop :=
  ∀ p ∈ storing op, p.interfaceIdentifier = x →
    ∀ c ∈ p.interface.addresses, c.addr ∈ s.vacant ∨ owns x s.world.db p c = true

def guard : Guard ℕ Empty Call ManagerOp Circumstance (State w) where
  env := fun _ _ => True
  start := fun _ _ _ => True
  step := fun s _ op c => c.fault = none → Entitled x s op

/-- No peer of the interface has a vacant address. -/
structure Vacant (s : State w) : Prop where
  distinct : Distinct x s.world.db
  unused : ∀ a ∈ s.vacant, ∀ p ∈ s.world.db.getInterfacePeers x, ∀ c ∈ p.interface.addresses,
    c.addr ≠ a

theorem skipUsed_unused {used : List Cidr} : ∀ {steps : ℕ} {start ip : Cidr},
    skipUsed used steps start = some ip → ∀ u ∈ used, u.addr ≠ ip.addr := by
  intro steps
  induction steps with
  | zero => exact fun none => by cases none
  | succ steps ih =>
    intro start ip found
    rw [skipUsed] at found
    split at found
    · obtain ⟨next, _, later⟩ := Option.bind_eq_some_iff.mp found
      exact ih later
    · rename_i free
      obtain rfl := Option.some.inj found
      intro u mem same
      exact free (List.any_eq_true.mpr ⟨u, mem, decide_eq_true same⟩)

theorem contains_congr {network c d : Cidr} (same : c.addr = d.addr) :
    network.contains c = network.contains d := by rw [Cidr.contains, Cidr.contains, same]

/-- What is proposed in its own network is not used anywhere. -/
theorem proposed_unused {db : Db} {networks : List Cidr} {a : Addr}
    (mem : a ∈ proposed (db.getUsedIpsPerSubnet networks) networks) :
    ∀ u ∈ db.usedIps, u.addr ≠ a := by
  obtain ⟨network, _, some⟩ := List.mem_filterMap.mp mem
  obtain ⟨ip, found, own⟩ := Option.bind_eq_some_iff.mp some
  split at own
  · rename_i first
    obtain rfl := Option.some.inj own
    obtain ⟨start, _, found⟩ := Option.bind_eq_some_iff.mp found
    intro u used same
    have there : networks.find? (Cidr.contains · u) = Option.some network := by
      simp only [contains_congr same, first]
    exact skipUsed_unused found u (List.mem_filter.mpr ⟨used, decide_eq_true there⟩) same
  · cases own

theorem mem_getInterfacePeers {db : Db} {p : Peer} : p ∈ db.getInterfacePeers x ↔
    ∃ row, db.peers.find row.identifier = some row ∧ row.interfaceIdentifier = x ∧
      db.load row = p := by
  simp only [Db.getInterfacePeers, List.mem_map, List.mem_filter, decide_eq_true_eq, and_assoc]
  constructor
  · rintro ⟨row, mem, rest⟩
    exact ⟨row, Table.find_of_mem mem, rest⟩
  · rintro ⟨row, found, rest⟩
    exact ⟨row, Table.mem_of_find found, rest⟩

theorem usedIps_of_peer {db : Db} {p : Peer} (listed : p ∈ db.getInterfacePeers x) {c : Cidr}
    (mem : c ∈ p.interface.addresses) : c ∈ db.usedIps := by
  obtain ⟨row, _, _, rfl⟩ := (mem_getInterfacePeers x).mp listed
  obtain ⟨entry, inTable, rfl⟩ := List.mem_map.mp mem
  exact List.mem_append_right _ (List.mem_map.mpr ⟨entry, (List.mem_filter.mp inTable).1, rfl⟩)

/-- Which peers an interface has after a commit. -/
theorem mem_getInterfacePeers_commitPeer {db : Db} {ui : UserIdentifier} {now : Time}
    {id : PeerIdentifier} {peer p : Peer}
    (listed : p ∈ (db.commitPeer ui now id peer).getInterfacePeers x) :
    p.identifier = peer.identifier ∧ peer.interfaceIdentifier = x ∧
        (∀ c ∈ p.interface.addresses, c ∈ peer.interface.addresses) ∨
      p.identifier ≠ peer.identifier ∧ p ∈ db.getInterfacePeers x := by
  obtain ⟨row, found, here, rfl⟩ := (mem_getInterfacePeers x).mp listed
  by_cases same : row.identifier = peer.identifier
  · refine .inl ⟨same, ?_, fun c mem => ?_⟩
    · rw [same, Db.commitPeer_peers] at found
      have stored := Table.find_upsert_self db.peers (Db.updatedRow ui now peer)
      rw [← here, ← Option.some.inj (stored.symm.trans found)]
      rfl
    · have loaded : c ∈ (db.commitPeer ui now id peer).addressesOf row.identifier := mem
      rw [same] at loaded
      exact (Db.mem_addressesOf_commitPeer db ui now id peer c).mp loaded
  · refine .inr ⟨same, (mem_getInterfacePeers x).mpr ⟨row, ?_, here, ?_⟩⟩
    · have ne : (Db.updatedRow ui now peer).identifier ≠ row.identifier := fun key => same key.symm
      rwa [Db.commitPeer_peers, Table.find_upsert_of_ne db.peers ne] at found
    · rw [Db.load, Db.load, Db.addressesOf_commitPeer_of_ne db ui now id peer same]

theorem mem_getInterfacePeers_deletePeer {db : Db} {id : PeerIdentifier} {p : Peer}
    (listed : p ∈ (db.deletePeer id).getInterfacePeers x) :
    ∃ q ∈ db.getInterfacePeers x, q.identifier = p.identifier ∧
      ∀ c ∈ p.interface.addresses, c ∈ q.interface.addresses := by
  obtain ⟨row, found, here, rfl⟩ := (mem_getInterfacePeers x).mp listed
  have kept := (List.mem_filter.mp (Table.mem_of_find found)).1
  refine ⟨db.load row, (mem_getInterfacePeers x).mpr ⟨row, Table.find_of_mem kept, here, rfl⟩,
    rfl, fun c mem => ?_⟩
  obtain ⟨entry, inTable, rfl⟩ := List.mem_map.mp mem
  obtain ⟨left, mine⟩ := List.mem_filter.mp inTable
  exact List.mem_map.mpr ⟨entry, List.mem_filter.mpr ⟨(List.mem_filter.mp left).1, mine⟩, rfl⟩

variable {client x} {s : State w}

theorem Vacant.congr (vacant : Vacant x s) {t : State w}
    (peers : t.world.db.getInterfacePeers x = s.world.db.getInterfacePeers x)
    (same : ∀ a ∈ t.vacant, a ∈ s.vacant ∨ ∀ u ∈ s.world.db.usedIps, u.addr ≠ a) :
    Vacant x t := by
  refine ⟨?_, fun a mem p listed c has => ?_⟩
  · rw [Distinct, peers]
    exact vacant.distinct
  · rw [peers] at listed
    rcases same a mem with before | unused
    · exact vacant.unused a before p listed c has
    · exact unused c (usedIps_of_peer x listed has)

theorem vacant_commitPeer (vacant : Vacant x s) {userId : UserIdentifier} {id : PeerIdentifier}
    {p : Peer} (entitled : Entitled x s (.repo (.commitPeer userId id p))) (now : Time) :
    Vacant x ⟨{ s.world with db := s.world.db.commitPeer userId now id p },
      s.after x (.repo (.commitPeer userId id p))⟩ := by
  have clash : ∀ q ∈ s.world.db.getInterfacePeers x, q.identifier ≠ p.identifier →
      p.interfaceIdentifier = x → ∀ c ∈ p.interface.addresses, ∀ d ∈ q.interface.addresses,
        c.addr ≠ d.addr := by
    intro q listed other here c mem d has
    rcases entitled p rfl here c mem with free | own
    · exact (vacant.unused c.addr free q listed d has).symm
    · simp only [owns, Bool.and_eq_true, decide_eq_true_eq] at own
      obtain ⟨row, found, there⟩ := (Option.any_eq_true _ _).mp own.1
      have key : row.identifier = p.identifier := Table.key_of_find found
      have mine : s.world.db.load row ∈ s.world.db.getInterfacePeers x :=
        (mem_getInterfacePeers x).mpr ⟨row, key ▸ found, by simpa using there, rfl⟩
      refine vacant.distinct _ mine q listed (fun same => other ?_) c ?_ d has
      · rw [← same]
        exact key
      · rw [Db.load, key]
        exact own.2
  refine ⟨?_, ?_⟩
  · intro q listed q' listed' ne c mem d has
    rcases mem_getInterfacePeers_commitPeer x listed with ⟨named, here, given⟩ | ⟨other, before⟩
    · rcases mem_getInterfacePeers_commitPeer x listed' with ⟨named', _⟩ | ⟨other', before'⟩
      · exact absurd (named.trans named'.symm) ne
      · exact clash q' before' other' here c (given c mem) d has
    · rcases mem_getInterfacePeers_commitPeer x listed' with ⟨_, here, given⟩ | ⟨_, before'⟩
      · exact (clash q before other here d (given d has) c mem).symm
      · exact vacant.distinct q before q' before' ne c mem d has
  · intro a mem q listed c has
    rcases mem_getInterfacePeers_commitPeer x listed with ⟨_, here, given⟩ | ⟨_, before⟩
    · simp only [State.after, if_pos here, List.mem_filter, decide_eq_true_eq] at mem
      rintro rfl
      exact mem.2 (List.mem_map.mpr ⟨c, given c has, rfl⟩)
    · refine vacant.unused a ?_ q before c has
      simp only [State.after] at mem
      split at mem
      · exact (List.mem_filter.mp mem).1
      · exact mem

theorem vacant_deletePeer (vacant : Vacant x s) (id : PeerIdentifier) :
    Vacant x ⟨{ s.world with db := s.world.db.deletePeer id }, s.vacant⟩ := by
  refine ⟨?_, ?_⟩
  · intro q listed q' listed' ne c mem d has
    obtain ⟨p, before, named, kept⟩ := mem_getInterfacePeers_deletePeer x listed
    obtain ⟨p', before', named', kept'⟩ := mem_getInterfacePeers_deletePeer x listed'
    rw [← named, ← named'] at ne
    exact vacant.distinct p before p' before' ne c (kept c mem) d (kept' d has)
  · intro a mem q listed c has
    obtain ⟨p, before, _, kept⟩ := mem_getInterfacePeers_deletePeer x listed
    exact vacant.unused a mem p before c (kept c has)

/-- What one operation does to the addresses. -/
theorem vacant_exec {op : ManagerOp} {c : Circumstance} (vacant : Vacant x s)
    (allowed : c.fault = none → Entitled x s op) : Vacant x (exec client x op c s).2 := by
  cases fault : c.fault with
  | some err =>
    have peers : (op.exec client c s.world).2.db.getInterfacePeers x =
        s.world.db.getInterfacePeers x := by
      have same := op.exec_failed client fault s.world
      exact Db.getInterfacePeers_congr same.peers same.peerAddresses x
    refine vacant.congr peers fun a mem => .inl ?_
    simpa only [exec, fault, Option.isSome_some, if_true] using mem
  | none =>
    have moved : (exec client x op c s).2 = ⟨(op.exec client c s.world).2, s.after x op⟩ := by
      simp only [exec, fault, Option.isSome_none, Bool.false_eq_true, if_false]
    rw [moved]
    by_cases passive : op.Passive
    · have same := op.exec_passive passive client c s.world
      refine vacant.congr (Db.getInterfacePeers_congr same.peers same.peerAddresses x) ?_
      intro a mem
      cases op with
      | repo op =>
        cases op with
        | getUsedIpsPerSubnet networks =>
          rcases List.mem_append.mp mem with new | old
          · exact .inr (proposed_unused new)
          · exact .inl old
        | commitPeer userId id p => cases passive
        | _ => exact .inl mem
      | _ => exact .inl mem
    · cases op with
      | repo op =>
        cases op with
        | commitInterface userId iface =>
          have peers : (ManagerOp.exec client c (.repo (.commitInterface userId iface))
              s.world).2.db.getInterfacePeers x = s.world.db.getInterfacePeers x := by
            simp only [ManagerOp.exec, RepoOp.exec, fault]
            exact Db.getInterfacePeers_congr rfl rfl x
          exact vacant.congr peers fun a mem => .inl mem
        | commitPeer userId id p =>
          have committed := vacant_commitPeer vacant (allowed fault) c.now
          simp only [ManagerOp.exec, RepoOp.exec, fault]
          exact committed
        | deletePeer id =>
          simp only [ManagerOp.exec, RepoOp.exec, fault]
          exact vacant_deletePeer vacant id
        | _ => exact absurd trivial passive
      | savePeer backend iface id updateFunc =>
        have same := ManagerOp.exec_savePeer_db client c backend iface id updateFunc s.world
        exact vacant.congr (congrArg (Db.getInterfacePeers · x) same) fun a mem => .inl mem
      | deletePeer backend iface id =>
        have same := ManagerOp.exec_deletePeer_db client c backend iface id s.world
        exact vacant.congr (congrArg (Db.getInterfacePeers · x) same) fun a mem => .inl mem
      | _ => exact absurd trivial passive

/-- Every operation answers for itself, so that nothing is relied on. -/
def contract (w : Wgtypes) (x : InterfaceIdentifier) : Contract ℕ (State w) where
  inv := Vacant x
  rely := fun _ _ _ => True
  refl := fun _ _ => trivial
  trans := fun _ _ _ _ _ _ => trivial

theorem sound {α : Type} (client : Client w) (m : Manager) (x : InterfaceIdentifier) (i : ℕ)
    (prog : ManagerProgram α) (s : State w) :
    (contract w x).Sound (system client m x) (guard x) i (fun _ _ => True) prog s := by
  have each : ∀ (op : ManagerOp) (t : State w) (c : Circumstance), True → Vacant x t → True →
      (guard x).step t i op c → (contract w x).Keeps i t (exec client x op c t).2 ∧ True :=
    fun op t c _ vacant _ allowed => ⟨⟨vacant_exec vacant allowed, fun _ _ => trivial⟩, trivial⟩
  exact Contract.Sound.of_uses (fun _ _ _ _ => trivial) each
    (Program.Uses.of_all (fun _ => trivial) prog) trivial

theorem upheld (client : Client w) (m : Manager) (x : InterfaceIdentifier) :
    Contract.Upheld (system client m x) (contract w x) (guard x) where
  env := fun e => nomatch e
  start := by
    intro i call s prog t vacant _ started
    obtain ⟨rfl, rfl⟩ := Prod.mk.inj (Option.some.inj started)
    refine ⟨⟨vacant, fun _ _ => trivial⟩, ?_⟩
    exact (sound client m x i (call.program m) s).mono fun _ _ vacant _ =>
      ⟨vacant, fun _ _ => trivial⟩

/-- Nothing has been proposed. -/
def initial (world : World w) : State w := ⟨world, []⟩

instance (db : Db) : Decidable (Distinct x db) :=
  inferInstanceAs (Decidable (∀ p ∈ _, ∀ q ∈ _, _ → ∀ c ∈ _, ∀ d ∈ _, _))

instance (s : State w) (op : ManagerOp) : Decidable (Entitled x s op) :=
  inferInstanceAs (Decidable (∀ p ∈ storing op, _ → ∀ c ∈ _, _ ∨ _))

instance (s : State w) (i : ℕ) (op : ManagerOp) (c : Circumstance) :
    Decidable ((guard (w := w) x).step s i op c) :=
  inferInstanceAs (Decidable (_ → _))

instance (s : State w) (i : ℕ) (call : Call) : Decidable ((guard (w := w) x).start s i call) :=
  isTrue trivial

instance (s : State w) (e : Empty) : Decidable ((guard (w := w) x).env s e) := nomatch e

def admin : ContextUserInfo := ⟨"admin", true⟩

/-- One server interface for the peers of a network, and no peer -/
def noPeers : World plainTypes :=
  let world := oneInterface Device.empty []
  { world with db := { world.db with
      interfaces := Table.empty.upsert
        { Interface.zero with
          identifier := "wg0", type := .server, peerDefNetworkStr := "10.0.0.0/24" } } }

def secondKey : PeerIdentifier := "AAAAAAAAAAAAAAAAAAAAAAAAAAAAAAAAAAAAAAAAAAI="

def generates (id : PeerIdentifier) : Circumstance := ⟨10, none, ⟨"", id⟩, ""⟩

def prepared (id : PeerIdentifier) (world : World plainTypes) : Except Error Peer :=
  ((singleNode.preparePeer admin "wg0").run (plainClient plainTypes) (fun _ => generates id)
    world).1

def proposal (id : PeerIdentifier) (world : World plainTypes) : Peer :=
  (prepared id world).toOption.getD Peer.zero

def prepares (i : ℕ) (id : PeerIdentifier) : List (Turn ℕ Empty Call Circumstance) :=
  .start i (.preparePeer admin "wg0") :: List.replicate 7 (.step i (generates id))

def creates (i : ℕ) (peer : Peer) : List (Turn ℕ Empty Call Circumstance) :=
  .start i (.createPeer admin peer) :: List.replicate 11 (.step i (calm 0))

/-- What a run of calls leads to. -/
def reached (turns : List (Turn ℕ Empty Call Circumstance)) :
    Option (Pool ℕ ManagerOp ManagerOp.Res Unit (State plainTypes)) :=
  runFrom (system (plainClient plainTypes) singleNode "wg0").next (idle (initial noPeers)) turns

/-- A peer is prepared and created, and then another. -/
def oneAfterTheOther : List (Turn ℕ Empty Call Circumstance) :=
  let first := prepares 0 key ++ creates 0 (proposal key noPeers)
  let world := ((reached first).map (·.shared.world)).getD noPeers
  first ++ prepares 0 secondKey ++ creates 0 (proposal secondKey world)

/-- Two peers are prepared before one of them is created. -/
def preparedTogether : List (Turn ℕ Empty Call Circumstance) :=
  prepares 0 key ++ prepares 1 secondKey ++ creates 0 (proposal key noPeers) ++
    creates 1 (proposal secondKey noPeers)

end WgPortal.WireGuard.PeerAddresses
