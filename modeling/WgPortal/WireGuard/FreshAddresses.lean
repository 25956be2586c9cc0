import WgPortal.WireGuard.PeerAddresses

/-! The addresses that are proposed for a new peer, and whether they are free. -/

namespace WgPortal.WireGuard.FreshAddresses

open Domain Library Library.NetIP Adapters WgController

/-- What stands for a panic of the methods of `Cidr`, which is all that `IsValid` does
with what `NextAddr` returns behind the last address. -/
def panicked : Error := .other "netip.ParsePrefix: no prefix"

def exhausted (network : Cidr) : Error :=
  .other ("ip space on subnet " ++ String.ofList network.text ++ " is exhausted")

/-- A host address of the network that no interface and no peer has. -/
structure Free (db : Db) (network : Cidr) (a : Addr) : Prop where
  inside : Prefix.Within network a
  notNetwork : a ≠ network.networkAddr.addr
  notBroadcast : a.family = .v4 → a ≠ network.broadcastAddr.addr
  unused : ∀ u ∈ db.usedIps, u.addr ≠ a

/-- One free address for each network, all distinct. -/
structure Assigned (db : Db) (networks ips : List Cidr) : Prop where
  each : List.Forall₂ (fun network ip => Free db network ip.addr) networks ips
  distinct : (ips.map Prefix.addr).Nodup

/-- The addresses are free ones, or there is none for one of the networks. -/
def Sound (db : Db) (networks : List Cidr) : Except Error (List Cidr) → Prop
  | .ok ips => Assigned db networks ips
  | .error err => ∃ network ∈ networks, err = exhausted network ∧ ∀ a, ¬ Free db network a

/-- The first free address behind the configured one. -/
structure FirstFree (db : Db) (network : Cidr) (a : Addr) : Prop where
  free : Free db network a
  after : network.addr.value < a.value
  least : ∀ b, Free db network b → network.addr.value < b.value → a.value ≤ b.value

/-- The used addresses in front of `a` count for the network. -/
def Counted (db : Db) (networks : List Cidr) (network : Cidr) (a : Addr) : Prop :=
  ∀ u ∈ db.usedIps, u.addr.family = network.addr.family → network.addr.value < u.addr.value →
    u.addr.value < a.value → networks.find? (Cidr.contains · u) = some network

/-- Every network has a free address behind the configured one, the used addresses in
front of it count for this network, and no two networks have the same first one. -/
structure Suitable (db : Db) (networks : List Cidr) : Prop where
  room : ∀ network ∈ networks, ∃ a, FirstFree db network a ∧ Counted db networks network a
  apart : networks.Pairwise fun network other =>
    ∀ a, FirstFree db network a → ¬ FirstFree db other a

theorem panicked_ne_exhausted (network : Cidr) : panicked ≠ exhausted network := by
  intro same
  have texts := congrArg String.toList (Error.other.inj same)
  rw [String.toList_append, String.toList_append] at texts
  exact absurd (congrArg List.head? texts) (by simp)

/-- The first address behind that of `network` that is not used. -/
structure FirstUnused (used : List Cidr) (network ip : Cidr) : Prop where
  family : ip.addr.family = network.addr.family
  bits : ip.bits = network.bits
  after : network.addr.value < ip.addr.value
  unused : ∀ u ∈ used, u.addr ≠ ip.addr
  passed : ∀ b : Addr, b.family = network.addr.family → network.addr.value < b.value →
    b.value < ip.addr.value → ∃ u ∈ used, u.addr = b

variable {used : List Cidr} {network ip : Cidr}

theorem FirstUnused.unique {other : Cidr} (first : FirstUnused used network ip)
    (second : FirstUnused used network other) : ip = other := by
  have below : ∀ {c d : Cidr}, FirstUnused used network c → FirstUnused used network d →
      d.addr.value ≤ c.addr.value := by
    intro c d hc hd
    by_contra less
    obtain ⟨u, listed, same⟩ := hd.passed c.addr hc.family hc.after (Nat.lt_of_not_le less)
    exact hc.unused u listed same
  have value := Nat.le_antisymm (below second first) (below first second)
  exact Prefix.ext (Addr.ext (first.family.trans second.family.symm) value)
    (first.bits.trans second.bits.symm)

/-- Behind a used address the search goes on. -/
theorem firstUnused_next {next : Cidr} (after : network.nextAddr = some next)
    (taken : ∃ u ∈ used, u.addr = next.addr) :
    FirstUnused used next ip ↔ FirstUnused used network ip := by
  obtain ⟨family, value, bits⟩ := Cidr.nextAddr_eq_some.mp after
  obtain ⟨u, listed, same⟩ := taken
  constructor
  · intro first
    refine ⟨first.family.trans family, first.bits.trans bits, ?_, first.unused, ?_⟩
    · have later := first.after
      omega
    · intro b inFamily above below
      by_cases here : b = next.addr
      · exact ⟨u, listed, same.trans here.symm⟩
      · have ne : b.value ≠ next.addr.value := fun equal =>
          here (Addr.ext (inFamily.trans family.symm) equal)
        exact first.passed b (inFamily.trans family.symm) (by omega) below
  · intro first
    have ne : ip.addr.value ≠ next.addr.value := fun equal =>
      first.unused u listed (same.trans (Addr.ext (family.trans first.family.symm) equal.symm))
    have later := first.after
    refine ⟨first.family.trans family.symm, first.bits.trans bits.symm, by omega, first.unused, ?_⟩
    intro b inFamily above below
    exact first.passed b (inFamily.trans family) (by omega) below

theorem firstUnused_here {start : Cidr} (after : network.nextAddr = some start)
    (free : ∀ u ∈ used, u.addr ≠ start.addr) : FirstUnused used network start := by
  obtain ⟨family, value, bits⟩ := Cidr.nextAddr_eq_some.mp after
  refine ⟨family, bits, by omega, free, fun b _ above below => ?_⟩
  omega

theorem FirstUnused.exists_next (first : FirstUnused used network ip) :
    ∃ start, network.nextAddr = some start := by
  have lt := ip.addr.lt
  have later := first.after
  rw [first.family] at lt
  exact Cidr.exists_nextAddr (by omega)

theorem not_firstUnused (none : network.nextAddr = none) : ¬ FirstUnused used network ip := by
  intro first
  obtain ⟨_, some⟩ := first.exists_next
  rw [none] at some
  cases some

/-- The used addresses from a value on. -/
def usedFrom (used : List Cidr) (value : ℕ) : List Cidr :=
  used.filter fun u => value ≤ u.addr.value

/-- A step of the search leaves a used address behind. -/
theorem usedFrom_lt {start next : Cidr} (after : start.nextAddr = some next)
    (taken : ∃ u ∈ used, u.addr = start.addr) :
    (usedFrom used next.addr.value).length < (usedFrom used start.addr.value).length := by
  obtain ⟨_, value, _⟩ := Cidr.nextAddr_eq_some.mp after
  obtain ⟨u, listed, same⟩ := taken
  have inner : usedFrom used next.addr.value =
      (usedFrom used start.addr.value).filter fun u => next.addr.value ≤ u.addr.value := by
    rw [usedFrom, usedFrom, List.filter_filter]
    refine List.filter_congr fun u _ => ?_
    rw [Bool.eq_iff_iff, Bool.and_eq_true, decide_eq_true_eq, decide_eq_true_eq]
    omega
  rw [inner, List.length_filter_lt_length_iff_exists]
  refine ⟨u, List.mem_filter.mpr ⟨listed, by simp [same]⟩, ?_⟩
  rw [decide_eq_true_eq, same]
  omega

/-- With steps for all used addresses, the search finds the first unused one. -/
theorem skipUsed_iff {steps : ℕ} {start : Cidr} (after : network.nextAddr = some start)
    (enough : (usedFrom used start.addr.value).length < steps) :
    skipUsed used steps start = some ip ↔ FirstUnused used network ip := by
  induction steps generalizing network start with
  | zero => exact absurd enough (Nat.not_lt_zero _)
  | succ steps ih =>
    rw [skipUsed]
    split
    · rename_i conflict
      obtain ⟨u, listed, same⟩ := List.any_eq_true.mp conflict
      have taken : ∃ u ∈ used, u.addr = start.addr := ⟨u, listed, of_decide_eq_true same⟩
      rw [← firstUnused_next after taken]
      cases next : start.nextAddr with
      | none =>
        exact iff_of_false (fun some => by cases some) (not_firstUnused next)
      | some next' =>
        have fewer := usedFrom_lt next taken
        exact ih next (by omega)
    · rename_i free
      have here : FirstUnused used network start := by
        refine firstUnused_here after fun u listed same => free ?_
        exact List.any_eq_true.mpr ⟨u, listed, decide_eq_true same⟩
      constructor
      · intro same
        exact Option.some.inj same ▸ here
      · intro first
        rw [here.unique first]

/-- The search of the code, from the address behind the configured one. -/
def candidate (existingIps : UsedIps) (network : Cidr) : Option Cidr :=
  network.nextAddr.bind (skipUsed (existingIps network) ((existingIps network).length + 1))

theorem candidate_iff (existingIps : UsedIps) (network ip : Cidr) :
    candidate existingIps network = some ip ↔ FirstUnused (existingIps network) network ip := by
  unfold candidate
  cases next : network.nextAddr with
  | none =>
    exact iff_of_false (fun some => by cases some) (not_firstUnused next)
  | some start =>
    have enough : (usedFrom (existingIps network) start.addr.value).length <
        (existingIps network).length + 1 :=
      Nat.lt_succ_of_le (List.length_filter_le ..)
    exact skipUsed_iff next enough

/-- What is returned are the candidates, and what is not returned panics. -/
theorem freshIps_cases (existingIps : UsedIps) (networks : List Cidr) :
    (∃ ips, freshIps existingIps networks = .ok ips ∧
      List.Forall₂ (fun network ip => ∃ c, candidate existingIps network = some c ∧
        c.hostAddr = ip) networks ips) ∨
    freshIps existingIps networks = .error panicked ∧
      ∃ network ∈ networks, candidate existingIps network = none := by
  induction networks with
  | nil => exact .inl ⟨[], rfl, .nil⟩
  | cons network networks ih =>
    cases found : candidate existingIps network with
    | none =>
      have step : freshIps existingIps (network :: networks) = .error panicked := by
        rw [candidate] at found
        simp only [freshIps, found]
        rfl
      exact .inr ⟨step, network, List.mem_cons_self, found⟩
    | some c =>
      have search := found
      rw [candidate] at search
      rcases ih with ⟨ips, rest, each⟩ | ⟨rest, other, listed, none⟩
      · refine .inl ⟨c.hostAddr :: ips, ?_, .cons ⟨c, found, rfl⟩ each⟩
        simp only [freshIps, search, rest]
      · refine .inr ⟨?_, other, List.mem_cons_of_mem _ listed, none⟩
        simp only [freshIps, search, rest]

variable {db : Db} {networks : List Cidr} {a : Addr}

theorem mem_getUsedIpsPerSubnet {u : Cidr} :
    u ∈ db.getUsedIpsPerSubnet networks (some network) ↔
      u ∈ db.usedIps ∧ networks.find? (Cidr.contains · u) = some network := by
  rw [Db.getUsedIpsPerSubnet, List.mem_filter, decide_eq_true_eq]

theorem FirstFree.unique {b : Addr} (first : FirstFree db network a)
    (second : FirstFree db network b) : a = b := by
  have value := Nat.le_antisymm (first.least b second.free second.after)
    (second.least a first.free first.after)
  exact Addr.ext (first.free.inside.1.trans second.free.inside.1.symm) value

/-- In front of the first free address, all addresses are used. -/
theorem FirstFree.passed (first : FirstFree db network a) {b : Addr}
    (family : b.family = network.addr.family) (above : network.addr.value < b.value)
    (below : b.value < a.value) : ∃ u ∈ db.usedIps, u.addr = b := by
  by_contra unused
  have bounds := Prefix.within_iff.mp first.free.inside
  have base := Prefix.masked_le network
  have free : Free db network b := by
    refine ⟨(Prefix.within_addr network).between first.free.inside family above.le below.le, ?_,
      fun _ => ?_, fun u listed same => unused ⟨u, listed, same⟩⟩
    · intro same
      have value : b.value = (Prefix.masked network).addr.value := congrArg Addr.value same
      omega
    · intro same
      have value : b.value = (Prefix.last network).value := congrArg Addr.value same
      omega
  have least := first.least b free above
  omega

/-- A candidate that is free is the first free address. -/
theorem firstFree_of_candidate (found : candidate (db.getUsedIpsPerSubnet networks) network = some ip)
    (free : Free db network ip.addr) :
    FirstFree db network ip.addr ∧ Counted db networks network ip.addr := by
  have first := (candidate_iff _ _ _).mp found
  refine ⟨⟨free, first.after, fun b other above => ?_⟩, fun u listed family above below => ?_⟩
  · by_contra less
    obtain ⟨u, counted, same⟩ := first.passed b other.inside.1 above (Nat.lt_of_not_le less)
    exact other.unused u (mem_getUsedIpsPerSubnet.mp counted).1 same
  · obtain ⟨v, counted, same⟩ := first.passed u.addr family above below
    have there := (mem_getUsedIpsPerSubnet.mp counted).2
    simpa only [PeerAddresses.contains_congr same] using there

theorem candidate_of_firstFree (first : FirstFree db network a)
    (counted : Counted db networks network a) :
    ∃ c, candidate (db.getUsedIpsPerSubnet networks) network = some c ∧ c.addr = a := by
  have family : a.family = network.addr.family := first.free.inside.1
  have le : network.bits ≤ a.family.bitLen := family ▸ network.le
  refine ⟨⟨a, network.bits, le⟩, (candidate_iff _ _ _).mpr ⟨family, rfl, first.after, ?_, ?_⟩, rfl⟩
  · exact fun u listed => first.free.unused u (mem_getUsedIpsPerSubnet.mp listed).1
  · intro b inFamily above below
    obtain ⟨u, listed, rfl⟩ := first.passed inFamily above below
    exact ⟨u, mem_getUsedIpsPerSubnet.mpr ⟨listed, counted u listed inFamily above below⟩, rfl⟩

theorem exists_of_forall₂ {α β : Type} {R : α → β → Prop} {xs : List α} {ys : List β}
    (each : List.Forall₂ R xs ys) : (∀ x ∈ xs, ∃ y ∈ ys, R x y) ∧ ∀ y ∈ ys, ∃ x ∈ xs, R x y := by
  induction each with
  | nil => simp
  | cons first _ ih =>
    simp only [List.forall_mem_cons]
    refine ⟨⟨⟨_, List.mem_cons_self, first⟩, fun x listed => ?_⟩,
      ⟨_, List.mem_cons_self, first⟩, fun y listed => ?_⟩
    · obtain ⟨y, listed', related⟩ := ih.1 x listed
      exact ⟨y, List.mem_cons_of_mem _ listed', related⟩
    · obtain ⟨x, listed', related⟩ := ih.2 y listed
      exact ⟨x, List.mem_cons_of_mem _ listed', related⟩

theorem forall₂_both {α β : Type} {R S : α → β → Prop} {xs : List α} {ys : List β}
    (first : List.Forall₂ R xs ys) (second : List.Forall₂ S xs ys) :
    List.Forall₂ (fun x y => R x y ∧ S x y) xs ys := by
  induction first with
  | nil => exact .nil
  | cons head _ ih =>
    cases second with
    | cons head' tail => exact .cons ⟨head, head'⟩ (ih tail)

/-- The addresses are distinct if no two networks have the same first free one. -/
theorem distinct_iff {networks ips : List Cidr}
    (each : List.Forall₂ (fun network ip => FirstFree db network ip.addr) networks ips) :
    (ips.map Prefix.addr).Nodup ↔ networks.Pairwise fun network other =>
      ∀ a, FirstFree db network a → ¬ FirstFree db other a := by
  induction each with
  | nil => simp
  | @cons network ip networks ips first rest ih =>
    rw [List.map_cons, List.nodup_cons, List.pairwise_cons, ih]
    refine and_congr_left fun _ => ?_
    constructor
    · intro fresh other listed a here there
      obtain ⟨ip', listed', first'⟩ := (exists_of_forall₂ rest).1 other listed
      refine fresh (List.mem_map.mpr ⟨ip', listed', ?_⟩)
      exact first'.unique (first.unique here ▸ there)
    · intro apart taken
      obtain ⟨ip', listed', same⟩ := List.mem_map.mp taken
      obtain ⟨other, listed, first'⟩ := (exists_of_forall₂ rest).2 ip' listed'
      exact apart other listed ip.addr first (same ▸ first')

/-- What is proposed from the used addresses of a database is as it should be in the
case that is stated for it, and in no other. -/
theorem freshIps_sound_iff (db : Db) (networks : List Cidr) :
    Sound db networks (freshIps (db.getUsedIpsPerSubnet networks) networks) ↔
      Suitable db networks := by
  rcases freshIps_cases (db.getUsedIpsPerSubnet networks) networks with
    ⟨ips, returned, each⟩ | ⟨panics, network, listed, none⟩
  · rw [returned]
    constructor
    · intro sound
      have both : List.Forall₂ (fun network ip => FirstFree db network ip.addr ∧
          Counted db networks network ip.addr) networks ips := by
        refine (forall₂_both each sound.each).imp fun network ip h => ?_
        obtain ⟨⟨c, found, rfl⟩, free⟩ := h
        exact @firstFree_of_candidate network c db networks found free
      refine ⟨fun network listed => ?_, ?_⟩
      · obtain ⟨ip, _, first⟩ := (exists_of_forall₂ both).1 network listed
        exact ⟨ip.addr, first⟩
      · exact (distinct_iff (both.imp fun _ _ h => h.1)).mp sound.distinct
    · intro suitable
      have members := (List.forall₂_and_left networks ips).mpr ⟨fun _ listed => listed, each⟩
      have firsts : List.Forall₂ (fun network ip => FirstFree db network ip.addr) networks ips := by
        refine members.imp fun network ip h => ?_
        obtain ⟨listed, c, found, rfl⟩ := h
        obtain ⟨a, first, counted⟩ := suitable.room network listed
        obtain ⟨d, found', same⟩ := candidate_of_firstFree first counted
        rw [Option.some.inj (found.symm.trans found')]
        exact same ▸ first
      exact ⟨firsts.imp fun _ _ first => first.free, (distinct_iff firsts).mpr suitable.apart⟩
  · rw [panics]
    constructor
    · rintro ⟨other, _, same, _⟩
      exact absurd same (panicked_ne_exhausted other)
    · intro suitable
      obtain ⟨a, first, counted⟩ := suitable.room network listed
      obtain ⟨c, found, _⟩ := candidate_of_firstFree first counted
      rw [none] at found
      cases found

variable {w : Wgtypes}

theorem run_getFreshPeerIpConfig (client : Client w) {circumstances : ℕ → Circumstance}
    (faultless : Faultless circumstances) (world : World w) {iface : Interface}
    {networks : List Cidr} (parsed : cidrsFromString iface.peerDefNetworkStr = some networks) :
    ((Manager.getFreshPeerIpConfig iface).run client circumstances world).1 =
      freshIps (world.db.getUsedIpsPerSubnet networks) networks := by
  have nonempty : iface.peerDefNetworkStr ≠ "" := by
    intro empty
    rw [empty, show cidrsFromString "" = none from rfl] at parsed
    cases parsed
  simp only [ManagerProgram.run, Manager.getFreshPeerIpConfig, nonempty, if_false, parsed,
    ManagerProgram.issue, Program.perform_bind, Program.eval_call, inTurn_repo client faultless]
  rfl

/-- The call returns what it should if every network has a free address behind its
configured one, the used addresses in front of it count for this network, and no two
networks have the same first free address; and otherwise it does not. -/
theorem getFreshPeerIpConfig_sound_iff (client : Client w) {circumstances : ℕ → Circumstance}
    (faultless : Faultless circumstances) (world : World w) {iface : Interface}
    {networks : List Cidr} (parsed : cidrsFromString iface.peerDefNetworkStr = some networks) :
    Sound world.db networks
        ((Manager.getFreshPeerIpConfig iface).run client circumstances world).1 ↔
      Suitable world.db networks := by
  rw [run_getFreshPeerIpConfig client faultless world parsed]
  exact freshIps_sound_iff world.db networks

theorem address_lt (n : Fin 256) : 0x0a000000 + n.val < 2 ^ Family.v4.bitLen := by
  have small := n.isLt
  change 0x0a000000 + n.val < 4294967296
  omega

/-- The address 10.0.0.n. -/
def address (n : Fin 256) : Addr := ⟨.v4, 0x0a000000 + n.val, address_lt n⟩

theorem smallBits_le : 30 ≤ Family.v4.bitLen := by decide

/-- A network with two host addresses. -/
def small : Cidr := ⟨address 0, 30, smallBits_le⟩

def smallInterface (addresses : List Cidr) : Interface :=
  { Interface.zero with
    identifier := "wg0", peerDefNetworkStr := "10.0.0.0/30", addresses := addresses }

/-- The interface has one of the host addresses, and peers have others. -/
def occupied (peers : List Cidr) : World plainTypes :=
  let world := oneInterface Device.empty []
  { world with
    db := { world.db with
      interfaces := Table.empty.upsert (smallInterface [⟨address 1, 30, smallBits_le⟩])
      peerAddresses := Table.empty.upsertAll (peers.map fun cidr => ("p", cidr)) } }

def proposed (world : World plainTypes) : Except Error (List Cidr) :=
  ((Manager.getFreshPeerIpConfig (smallInterface [])).run (plainClient plainTypes) (fun _ => calm 0)
    world).1

theorem small_parsed : cidrsFromString (smallInterface []).peerDefNetworkStr = some [small] := by
  decide +kernel

/-- The other host address is proposed. -/
theorem oneLeft_suitable : Suitable (occupied []).db [small] := by
  have exact := @getFreshPeerIpConfig_sound_iff plainTypes (plainClient plainTypes)
    (fun _ => calm 0) (fun _ => rfl) (occupied []) (smallInterface []) [small] small_parsed
  have returned : proposed (occupied []) = .ok [Prefix.host (address 2)] := by
    decide +kernel
  refine exact.mp ?_
  change Sound (occupied []).db [small] (proposed (occupied []))
  rw [returned]
  refine ⟨.cons ⟨⟨rfl, by decide +kernel⟩, by decide +kernel, fun _ => by decide +kernel, ?_⟩ .nil,
    by decide +kernel⟩
  decide +kernel

/-- With all host addresses in use, the broadcast address is proposed. -/
theorem full_not_sound : ¬ Sound (occupied [Prefix.host (address 2)]).db [small]
    (proposed (occupied [Prefix.host (address 2)])) := by
  have returned : proposed (occupied [Prefix.host (address 2)]) = .ok [Prefix.host (address 3)] := by
    decide +kernel
  rw [returned]
  intro sound
  obtain ⟨free, _⟩ := List.forall₂_cons.mp sound.each
  exact free.notBroadcast rfl (by decide +kernel)

end WgPortal.WireGuard.FreshAddresses
