import WgPortal.WireGuard.FreshAddresses

/-! The networks that are proposed for a new interface: whether they are apart from
those of the interfaces there are. -/

namespace WgPortal.WireGuard

open Domain Library Library.NetIP Adapters Config

/-- The addresses of each interface that has some. -/
def getInterfaceIps (db : Db) : List (InterfaceIdentifier × List Cidr) :=
  (db.interfaces.rows.filter (·.addresses ≠ [])).map fun iface => (iface.identifier, iface.addresses)

namespace FreshNetworks

open FreshAddresses (panicked)

/-- Networks are compared as a whole, with their lengths. -/
def conflicts (ips : List (InterfaceIdentifier × List Cidr)) (net : Cidr) : Bool :=
  ips.any fun usedIps => usedIps.2.any fun usedIp => net = usedIp.networkAddr

def advance (conflict : Bool) (net : Cidr) : Option Cidr :=
  if conflict then net.nextSubnet else some net

/-- The addresses from a network on. -/
def room (net : Cidr) : ℕ := 2 ^ net.addr.family.bitLen - net.addr.value

theorem room_advance {conflict : Bool} {net next : Cidr} (found : advance conflict net = some next) :
    room next ≤ room net ∧ (conflict = true → room next < room net) := by
  cases conflict with
  | false =>
    obtain rfl := Option.some.inj found
    exact ⟨le_rfl, fun h => by cases h⟩
  | true =>
    obtain ⟨family, value, _⟩ := Cidr.nextAddr_eq_some.mp (found : net.nextSubnet = some next)
    have above := Prefix.le_last net
    have lt := net.addr.lt
    have last : net.broadcastAddr.addr.value = (Prefix.last net).value := rfl
    have same : next.addr.family = net.addr.family := family
    simp only [room, same]
    omega

/-- The loop of the function. `IsValid` panics on what `NextSubnet` returns behind the
last address. -/
def nextNetworks (ips : List (InterfaceIdentifier × List Cidr)) (useV6 : Bool)
    (netV4 netV6 : Cidr) : Except Error (Cidr × Cidr) :=
  if !conflicts ips netV4 && (!useV6 || !conflicts ips netV6) then .ok (netV4, netV6)
  else
    match _h4 : advance (conflicts ips netV4) netV4,
      _h6 : advance (conflicts ips netV6 && useV6) netV6 with
    | some nextV4, some nextV6 => nextNetworks ips useV6 nextV4 nextV6
    | _, _ => .error panicked
termination_by room netV4 + room netV6
decreasing_by
  rename_i conflict
  have first := room_advance _h4
  have second := room_advance _h6
  cases v4 : conflicts ips netV4 with
  | true =>
    have less := first.2 v4
    omega
  | false =>
    have less := second.2 (by simpa [v4, and_comm] using conflict)
    omega

/-- The fresh addresses, absent where a returned one is none. A start that is no prefix
leaves an empty one, on which `FirstAddr` panics. -/
def getFreshInterfaceIpConfig (cfg : Config)
    (answer : Except Error (List (InterfaceIdentifier × List Cidr))) :
    Except Error (Option Cidr × Option Cidr) :=
  match answer with
  | .error err => .error (.wrap "failed to get existing IP addresses" err)
  | .ok ips =>
    match (cidrFromString cfg.advanced.startCidrV4).bind Cidr.firstAddr,
      (cidrFromString cfg.advanced.startCidrV6).bind Cidr.firstAddr with
    | some ipV4, some ipV6 =>
      match nextNetworks ips cfg.advanced.useIpV6 ipV4.networkAddr ipV6.networkAddr with
      | .error err => .error err
      | .ok (netV4, netV6) => .ok (netV4.nextAddr, netV6.nextAddr)
    | _, _ => .error panicked

/-- A network of the same size, from `net` on. -/
structure Slot (net v : Cidr) : Prop where
  family : v.addr.family = net.addr.family
  bits : v.bits = net.bits
  aligned : v.networkAddr = v
  above : net.addr.value ≤ v.addr.value

/-- Nobody has an address in the network. -/
def Apart (db : Db) (net : Cidr) : Prop :=
  ∀ iface ∈ db.interfaces.rows, ∀ u ∈ iface.addresses, ¬ Prefix.Overlaps net u

/-- The first address of a network that is apart from those of the interfaces. -/
structure Fresh (db : Db) (ip : Cidr) : Prop where
  first : ip.addr.value = ip.networkAddr.addr.value + 1
  apart : Apart db ip

/-- There is a network that is apart, from the start on. -/
def Remains (db : Db) (start : Cidr) : Prop := ∃ net, Slot start.networkAddr net ∧ Apart db net

/-- What is returned is fresh, without IPv6 if it is not used, or no such network remains. -/
def Sound (db : Db) (useV6 : Bool) (startV4 startV6 : Cidr) :
    Except Error (Option Cidr × Option Cidr) → Prop
  | .ok (ipV4, ipV6) => (∃ ip, ipV4 = some ip ∧ Fresh db ip) ∧
      (useV6 = true → ∃ ip, ipV6 = some ip ∧ Fresh db ip)
  | .error err => err ≠ panicked ∧ (¬ Remains db startV4 ∨ useV6 = true ∧ ¬ Remains db startV6)

/-- The start is not a single address, a network that is apart remains, and those in
front of the first one are themselves networks of interfaces. -/
structure Suitable (db : Db) (start : Cidr) : Prop where
  several : start.bits < start.addr.family.bitLen
  remains : ∃ net, Slot start.networkAddr net ∧ Apart db net ∧
    ∀ v, Slot start.networkAddr v → v.addr.value < net.addr.value →
      ∃ iface ∈ db.interfaces.rows, ∃ u ∈ iface.addresses, v = u.networkAddr

theorem conflicts_iff (db : Db) (net : Cidr) : conflicts (getInterfaceIps db) net = true ↔
    ∃ iface ∈ db.interfaces.rows, ∃ u ∈ iface.addresses, net = u.networkAddr := by
  simp only [conflicts, getInterfaceIps, List.any_map, List.any_eq_true, List.mem_filter,
    decide_eq_true_eq, Function.comp_apply]
  constructor
  · rintro ⟨iface, ⟨listed, _⟩, u, used, same⟩
    exact ⟨iface, listed, u, used, same⟩
  · rintro ⟨iface, listed, u, used, same⟩
    exact ⟨iface, ⟨listed, List.ne_nil_of_mem used⟩, u, used, same⟩

variable {conflict : Cidr → Bool} {net next v : Cidr}

theorem Slot.refl (aligned : net.networkAddr = net) : Slot net net := ⟨rfl, rfl, aligned, le_rfl⟩

theorem hostBits_eq (slot : Slot net v) : Prefix.hostBits v = Prefix.hostBits net := by
  simp only [Prefix.hostBits, slot.family, slot.bits]

theorem dvd_of_aligned (aligned : net.networkAddr = net) :
    2 ^ Prefix.hostBits net ∣ net.addr.value := by
  have dvd := Prefix.pow_dvd_masked net
  rwa [show Prefix.masked net = net from aligned] at dvd

theorem last_of_aligned (aligned : net.networkAddr = net) :
    (Prefix.last net).value = net.addr.value + (2 ^ Prefix.hostBits net - 1) := by
  change (Prefix.masked net).addr.value + _ = _
  rw [show Prefix.masked net = net from aligned]

/-- The networks behind an aligned one begin behind its last address. -/
theorem Slot.behind (aligned : net.networkAddr = net) (slot : Slot net v)
    (ne : v.addr.value ≠ net.addr.value) : (Prefix.last net).value < v.addr.value := by
  obtain ⟨k, first⟩ := dvd_of_aligned aligned
  obtain ⟨l, second⟩ := dvd_of_aligned slot.aligned
  rw [hostBits_eq slot] at second
  have positive := Nat.two_pow_pos (Prefix.hostBits net)
  have above := slot.above
  have less : k < l := by
    by_contra more
    have le := Nat.mul_le_mul_left (2 ^ Prefix.hostBits net) (Nat.le_of_not_lt more)
    omega
  have step := Nat.mul_le_mul_left (2 ^ Prefix.hostBits net) less
  rw [Nat.mul_succ] at step
  rw [last_of_aligned aligned]
  omega

theorem nextSubnet_some (aligned : net.networkAddr = net) (found : net.nextSubnet = some next) :
    Slot net next ∧ next.addr.value = (Prefix.last net).value + 1 := by
  obtain ⟨family, value, bits⟩ := Cidr.nextAddr_eq_some.mp found
  have same : next.addr.family = net.addr.family := family
  have behind : next.addr.value = (Prefix.last net).value + 1 := value
  have length : next.bits = net.bits := bits
  have above := Prefix.le_last net
  exact ⟨⟨same, length, Prefix.masked_behind same length behind, by omega⟩, behind⟩

/-- The networks behind `net` are those from the next one on. -/
theorem slot_next (aligned : net.networkAddr = net) (found : net.nextSubnet = some next) :
    Slot next v ↔ Slot net v ∧ v.addr.value ≠ net.addr.value := by
  obtain ⟨slot, value⟩ := nextSubnet_some aligned found
  have above := Prefix.le_last net
  constructor
  · intro later
    have le := later.above
    exact ⟨⟨later.family.trans slot.family, later.bits.trans slot.bits, later.aligned, by omega⟩,
      by omega⟩
  · rintro ⟨later, ne⟩
    have behind := later.behind aligned ne
    exact ⟨later.family.trans slot.family.symm, later.bits.trans slot.bits.symm, later.aligned,
      by omega⟩

theorem slot_last (aligned : net.networkAddr = net) (none : net.nextSubnet = none)
    (slot : Slot net v) : v.addr.value = net.addr.value := by
  by_contra ne
  have behind := slot.behind aligned ne
  have lt := v.addr.lt
  rw [slot.family] at lt
  have more : (Prefix.last net).value + 1 < 2 ^ net.addr.family.bitLen := by omega
  obtain ⟨d, some⟩ := @Cidr.exists_nextAddr net.broadcastAddr more
  rw [Cidr.nextSubnet, some] at none
  cases none

/-- The first network without a conflict. -/
structure FirstSlot (conflict : Cidr → Bool) (net v : Cidr) : Prop where
  slot : Slot net v
  free : conflict v = false
  passed : ∀ u, Slot net u → u.addr.value < v.addr.value → conflict u = true

theorem FirstSlot.unique {u : Cidr} (first : FirstSlot conflict net v)
    (second : FirstSlot conflict net u) : v = u := by
  have below : ∀ {c d : Cidr}, FirstSlot conflict net c → FirstSlot conflict net d →
      d.addr.value ≤ c.addr.value := by
    intro c d hc hd
    by_contra less
    have taken := hd.passed c hc.slot (Nat.lt_of_not_le less)
    rw [hc.free] at taken
    cases taken
  have value := Nat.le_antisymm (below second first) (below first second)
  exact Prefix.ext (Addr.ext (first.slot.family.trans second.slot.family.symm) value)
    (first.slot.bits.trans second.slot.bits.symm)

theorem firstSlot_here (aligned : net.networkAddr = net) (free : conflict net = false) :
    FirstSlot conflict net net :=
  ⟨Slot.refl aligned, free, fun _ slot below => absurd slot.above (Nat.not_le_of_lt below)⟩

theorem eq_of_value (slot : Slot net v) (same : v.addr.value = net.addr.value) : v = net :=
  Prefix.ext (Addr.ext slot.family same) slot.bits

/-- Behind a conflict the search goes on with the next network. -/
theorem firstSlot_next (aligned : net.networkAddr = net) (taken : conflict net = true)
    (found : net.nextSubnet = some next) : FirstSlot conflict next v ↔ FirstSlot conflict net v := by
  have later : ∀ {u}, Slot next u ↔ Slot net u ∧ u.addr.value ≠ net.addr.value :=
    slot_next aligned found
  constructor
  · intro first
    refine ⟨(later.mp first.slot).1, first.free, fun u slot below => ?_⟩
    by_cases here : u.addr.value = net.addr.value
    · rw [eq_of_value slot here, taken]
    · exact first.passed u (later.mpr ⟨slot, here⟩) below
  · intro first
    have ne : v.addr.value ≠ net.addr.value := by
      intro here
      have free := first.free
      rw [eq_of_value first.slot here, taken] at free
      cases free
    exact ⟨later.mpr ⟨first.slot, ne⟩, first.free,
      fun u slot below => first.passed u (later.mp slot).1 below⟩

theorem not_firstSlot_of_last (aligned : net.networkAddr = net) (taken : conflict net = true)
    (none : net.nextSubnet = none) : ¬ FirstSlot conflict net v := by
  intro first
  have free := first.free
  rw [eq_of_value first.slot (slot_last aligned none first.slot), taken] at free
  cases free

/-- One round leaves open which network is the first one. -/
theorem firstSlot_advance (aligned : net.networkAddr = net)
    (found : advance (conflict net) net = some next) :
    next.networkAddr = next ∧ ∀ v, FirstSlot conflict next v ↔ FirstSlot conflict net v := by
  cases taken : conflict net with
  | true =>
    rw [taken] at found
    exact ⟨(nextSubnet_some aligned found).1.aligned, fun v => firstSlot_next aligned taken found⟩
  | false =>
    rw [taken] at found
    obtain rfl := Option.some.inj found
    exact ⟨aligned, fun _ => Iff.rfl⟩

theorem not_firstSlot_of_advance (aligned : net.networkAddr = net)
    (none : advance (conflict net) net = none) (v : Cidr) : ¬ FirstSlot conflict net v := by
  cases taken : conflict net with
  | true =>
    rw [taken] at none
    exact not_firstSlot_of_last aligned taken none
  | false =>
    rw [taken] at none
    cases none

theorem nextNetworks_advance {ips : List (InterfaceIdentifier × List Cidr)} {useV6 : Bool}
    {netV4 netV6 nextV4 nextV6 : Cidr}
    (busy : ¬ (!conflicts ips netV4 && (!useV6 || !conflicts ips netV6)) = true)
    (found4 : advance (conflicts ips netV4) netV4 = some nextV4)
    (found6 : advance (conflicts ips netV6 && useV6) netV6 = some nextV6) :
    nextNetworks ips useV6 netV4 netV6 = nextNetworks ips useV6 nextV4 nextV6 := by
  rw [nextNetworks, if_neg busy]
  split
  · rename_i a b same4 same6
    rw [Option.some.inj (found4.symm.trans same4), Option.some.inj (found6.symm.trans same6)]
  · rename_i none
    exact absurd found6 (none _ _ found4)

theorem nextNetworks_last {ips : List (InterfaceIdentifier × List Cidr)} {useV6 : Bool}
    {netV4 netV6 : Cidr}
    (busy : ¬ (!conflicts ips netV4 && (!useV6 || !conflicts ips netV6)) = true)
    (last : advance (conflicts ips netV4) netV4 = none ∨
      advance (conflicts ips netV6 && useV6) netV6 = none) :
    nextNetworks ips useV6 netV4 netV6 = .error panicked := by
  rw [nextNetworks, if_neg busy]
  split
  · rename_i a b same4 same6
    rcases last with none | none
    · rw [none] at same4
      cases same4
    · rw [none] at same6
      cases same6
  · rfl

/-- The same for the IPv6 network, which stays as it is if it is not used. -/
theorem firstSlot_advance_if (aligned : net.networkAddr = net) {use : Bool}
    (found : advance (conflict net && use) net = some next) : next.networkAddr = next ∧
      (use = true → ∀ v, FirstSlot conflict next v ↔ FirstSlot conflict net v) := by
  cases use with
  | true =>
    rw [Bool.and_true] at found
    obtain ⟨aligned', same⟩ := firstSlot_advance aligned found
    exact ⟨aligned', fun _ => same⟩
  | false =>
    rw [Bool.and_false] at found
    obtain rfl := Option.some.inj found
    exact ⟨aligned, fun h => by cases h⟩

theorem not_firstSlot_of_advance_if (aligned : net.networkAddr = net) {use : Bool}
    (none : advance (conflict net && use) net = none) :
    use = true ∧ ∀ v, ¬ FirstSlot conflict net v := by
  cases use with
  | true =>
    rw [Bool.and_true] at none
    exact ⟨rfl, not_firstSlot_of_advance aligned none⟩
  | false =>
    rw [Bool.and_false] at none
    cases none

/-- The loop ends with the first networks without a conflict, or panics as there is none. -/
theorem nextNetworks_cases (ips : List (InterfaceIdentifier × List Cidr)) (useV6 : Bool)
    (netV4 netV6 : Cidr) (aligned4 : netV4.networkAddr = netV4)
    (aligned6 : netV6.networkAddr = netV6) :
    (∃ v4 v6, nextNetworks ips useV6 netV4 netV6 = .ok (v4, v6) ∧
      FirstSlot (conflicts ips) netV4 v4 ∧
      (useV6 = true → FirstSlot (conflicts ips) netV6 v6)) ∨
    nextNetworks ips useV6 netV4 netV6 = .error panicked ∧
      ((∀ v, ¬ FirstSlot (conflicts ips) netV4 v) ∨
        useV6 = true ∧ ∀ v, ¬ FirstSlot (conflicts ips) netV6 v) := by
  induction netV4, netV6 using nextNetworks.induct ips useV6 with
  | case1 netV4 netV6 free =>
    rw [nextNetworks, if_pos free]
    rw [Bool.and_eq_true, Bool.not_eq_true'] at free
    refine .inl ⟨netV4, netV6, rfl, firstSlot_here aligned4 free.1, fun v6 => ?_⟩
    exact firstSlot_here aligned6 (by simpa [v6] using free.2)
  | case2 netV4 netV6 busy nextV4 nextV6 found4 found6 ih =>
    obtain ⟨aligned4', same4⟩ := firstSlot_advance aligned4 found4
    obtain ⟨aligned6', same6⟩ := firstSlot_advance_if aligned6 found6
    rw [nextNetworks_advance busy found4 found6]
    rcases ih aligned4' aligned6' with ⟨v4, v6, done, first4, first6⟩ | ⟨panics, none⟩
    · exact .inl ⟨v4, v6, done, (same4 v4).mp first4, fun h => (same6 h v6).mp (first6 h)⟩
    · refine .inr ⟨panics, none.imp (fun none v first => none v ((same4 v).mpr first)) ?_⟩
      rintro ⟨h, none⟩
      exact ⟨h, fun v first => none v ((same6 h v).mpr first)⟩
  | case3 netV4 netV6 busy last =>
    cases found4 : advance (conflicts ips netV4) netV4 with
    | none =>
      exact .inr ⟨nextNetworks_last busy (.inl found4),
        .inl (not_firstSlot_of_advance aligned4 found4)⟩
    | some nextV4 =>
      cases found6 : advance (conflicts ips netV6 && useV6) netV6 with
      | none =>
        exact .inr ⟨nextNetworks_last busy (.inr found6),
          .inr (not_firstSlot_of_advance_if aligned6 found6)⟩
      | some nextV6 => exact absurd found6 (last nextV4 nextV6 found4)

variable {db : Db} {start ip : Cidr}

theorem one_lt_size (several : net.bits < net.addr.family.bitLen) :
    1 < 2 ^ Prefix.hostBits net := Nat.one_lt_two_pow (Nat.sub_ne_zero_of_lt several)

/-- The address behind an aligned network of several is in this network. -/
theorem network_of_next (aligned : net.networkAddr = net) (several : net.bits < net.addr.family.bitLen)
    (found : net.nextAddr = some ip) : ip.networkAddr = net := by
  obtain ⟨family, value, bits⟩ := Cidr.nextAddr_eq_some.mp found
  have two := one_lt_size several
  have size : Prefix.hostBits ip = Prefix.hostBits net := by
    simp only [Prefix.hostBits, family, bits]
  have number : ip.addr.value / 2 ^ Prefix.hostBits ip * 2 ^ Prefix.hostBits ip =
      net.addr.value := by
    obtain ⟨k, multiple⟩ := dvd_of_aligned aligned
    rw [size, value, multiple, Nat.add_comm, Nat.add_mul_div_left _ _ (by omega),
      Nat.div_eq_of_lt two, Nat.zero_add, Nat.mul_comm]
  exact Prefix.ext (Addr.ext family number) bits

theorem exists_next_of_several (several : net.bits < net.addr.family.bitLen)
    (aligned : net.networkAddr = net) : ∃ ip, net.nextAddr = some ip := by
  have two := one_lt_size several
  have lt := (Prefix.last net).lt
  have last := last_of_aligned aligned
  have family : (Prefix.last net).family = net.addr.family := rfl
  rw [family] at lt
  exact Cidr.exists_nextAddr (by omega)

theorem networkAddr_networkAddr (c : Cidr) : c.networkAddr.networkAddr = c.networkAddr :=
  Prefix.masked_masked c

/-- The first address of a start of several is in its network. -/
theorem network_of_firstAddr (several : start.bits < start.addr.family.bitLen)
    (found : start.firstAddr = some ip) : ip.networkAddr = start.networkAddr :=
  network_of_next (networkAddr_networkAddr start) several found

/-- What is behind an aligned network of several is fresh if the network is apart. -/
theorem fresh_iff (aligned : net.networkAddr = net) (several : net.bits < net.addr.family.bitLen)
    (found : net.nextAddr = some ip) : Fresh db ip ↔ Apart db net := by
  have network := network_of_next aligned several found
  obtain ⟨_, value, _⟩ := Cidr.nextAddr_eq_some.mp found
  have within : ∀ a, Prefix.Within ip a ↔ Prefix.Within net a := by
    intro a
    rw [← network]
    exact Prefix.within_masked.symm
  have same : Apart db ip ↔ Apart db net := by
    simp only [Apart, Prefix.Overlaps, within]
  rw [← same]
  exact ⟨fun fresh => fresh.apart, fun apart => ⟨by rw [network, value], apart⟩⟩

/-- A single address is not the first one of its network. -/
theorem several_of_fresh (fresh : Fresh db ip) : ip.bits < ip.addr.family.bitLen := by
  by_contra single
  have host : Prefix.hostBits ip = 0 := Nat.sub_eq_zero_of_le (Nat.le_of_not_lt single)
  have first := fresh.first
  have network : ip.networkAddr.addr.value = ip.addr.value := by
    change ip.addr.value / 2 ^ Prefix.hostBits ip * 2 ^ Prefix.hostBits ip = _
    rw [host, Nat.pow_zero, Nat.div_one, Nat.mul_one]
  omega

theorem not_conflicts_of_apart (apart : Apart db net) :
    conflicts (getInterfaceIps db) net = false := by
  rw [Bool.eq_false_iff, ne_eq, conflicts_iff]
  rintro ⟨iface, listed, u, used, rfl⟩
  exact apart iface listed u used ⟨u.addr, Prefix.within_masked.mpr u.within_addr, u.within_addr⟩

/-- A suitable start leads to a network that is apart. -/
theorem Suitable.firstSlot (suitable : Suitable db start) (found : start.firstAddr = some ip) :
    ∃ net, FirstSlot (conflicts (getInterfaceIps db)) ip.networkAddr net ∧ Apart db net := by
  obtain ⟨net, slot, apart, passed⟩ := suitable.remains
  rw [network_of_firstAddr suitable.several found]
  exact ⟨net, ⟨slot, not_conflicts_of_apart apart,
    fun u before below => (conflicts_iff db u).mpr (passed u before below)⟩, apart⟩

/-- The address behind the first network without a conflict is fresh for a suitable start
only. -/
theorem fresh_firstSlot_iff (found : start.firstAddr = some ip)
    (first : FirstSlot (conflicts (getInterfaceIps db)) ip.networkAddr v) :
    (∃ host, v.nextAddr = some host ∧ Fresh db host) ↔ Suitable db start := by
  obtain ⟨family, _, bits⟩ := Cidr.nextAddr_eq_some.mp found
  have sizes : v.addr.family = start.addr.family ∧ v.bits = start.bits :=
    ⟨first.slot.family.trans family, first.slot.bits.trans bits⟩
  constructor
  · rintro ⟨host, next, fresh⟩
    have several : v.bits < v.addr.family.bitLen := by
      obtain ⟨family', _, bits'⟩ := Cidr.nextAddr_eq_some.mp next
      rw [← family', ← bits']
      exact several_of_fresh fresh
    have several' : start.bits < start.addr.family.bitLen := by rwa [← sizes.1, ← sizes.2]
    have network := network_of_firstAddr several' found
    refine ⟨several', v, network ▸ first.slot, (fresh_iff first.slot.aligned several next).mp fresh,
      fun u slot below => ?_⟩
    exact (conflicts_iff db u).mp (first.passed u (network ▸ slot) below)
  · intro suitable
    obtain ⟨net, first', apart⟩ := suitable.firstSlot found
    obtain rfl := first.unique first'
    have several : v.bits < v.addr.family.bitLen := by
      rw [sizes.1, sizes.2]
      exact suitable.several
    obtain ⟨host, next⟩ := exists_next_of_several several first.slot.aligned
    exact ⟨host, next, (fresh_iff first.slot.aligned several next).mpr apart⟩

theorem Suitable.exists_firstAddr (suitable : Suitable db start) :
    ∃ ip, start.firstAddr = some ip :=
  exists_next_of_several suitable.several (networkAddr_networkAddr start)

/-- What is proposed for a new interface is as it should be if the start subnets that are
used are suitable, and the IPv6 one has a first address in any case; and otherwise it
is not. -/
theorem getFreshInterfaceIpConfig_sound_iff (cfg : Config) (db : Db) {startV4 startV6 : Cidr}
    (valid4 : cidrFromString cfg.advanced.startCidrV4 = some startV4)
    (valid6 : cidrFromString cfg.advanced.startCidrV6 = some startV6) :
    Sound db cfg.advanced.useIpV6 startV4 startV6
        (getFreshInterfaceIpConfig cfg (.ok (getInterfaceIps db))) ↔
      Suitable db startV4 ∧ (cfg.advanced.useIpV6 = true → Suitable db startV6) ∧
        startV6.firstAddr ≠ none := by
  have unsound : ∀ result, result = .error panicked →
      ¬ Sound db cfg.advanced.useIpV6 startV4 startV6 result := by
    rintro _ rfl sound
    exact sound.1 rfl
  simp only [getFreshInterfaceIpConfig, valid4, valid6, Option.bind_some]
  cases first4 : startV4.firstAddr with
  | none =>
    refine iff_of_false (unsound _ rfl) fun suitable => ?_
    obtain ⟨ip, some⟩ := suitable.1.exists_firstAddr
    rw [first4] at some
    cases some
  | some ipV4 =>
    cases first6 : startV6.firstAddr with
    | none => exact iff_of_false (unsound _ rfl) fun suitable => suitable.2.2 rfl
    | some ipV6 =>
      dsimp only
      rcases nextNetworks_cases (getInterfaceIps db) cfg.advanced.useIpV6 ipV4.networkAddr
          ipV6.networkAddr (networkAddr_networkAddr ipV4) (networkAddr_networkAddr ipV6) with
        ⟨v4, v6, done, slot4, slot6⟩ | ⟨panics, none⟩
      · rw [done]
        have some : (some ipV6 : Option Cidr) ≠ .none := by simp
        refine (and_congr (fresh_firstSlot_iff first4 slot4) ?_).trans
          (and_congr_right fun _ => (and_iff_left some).symm)
        exact forall_congr' fun use => fresh_firstSlot_iff first6 (slot6 use)
      · rw [panics]
        refine iff_of_false (unsound _ rfl) fun suitable => ?_
        rcases none with none | ⟨use, none⟩
        · obtain ⟨net, first, _⟩ := suitable.1.firstSlot first4
          exact none net first
        · obtain ⟨net, first, _⟩ := (suitable.2.1 use).firstSlot first6
          exact none net first

/-- The start subnets of the default configuration. -/
theorem startV4_lt : 0x0a0b0c00 < 2 ^ Family.v4.bitLen := by decide

theorem startV4_le : 24 ≤ Family.v4.bitLen := by decide

def defaultStartV4 : Cidr := ⟨⟨.v4, 0x0a0b0c00, startV4_lt⟩, 24, startV4_le⟩

theorem startV6_lt : 0xfdfdd3adc0de12340000000000000000 < 2 ^ Family.v6.bitLen := by decide

theorem startV6_le : 64 ≤ Family.v6.bitLen := by decide

def defaultStartV6 : Cidr :=
  ⟨⟨.v6, 0xfdfdd3adc0de12340000000000000000, startV6_lt⟩, 64, startV6_le⟩

theorem default_parsed :
    cidrFromString defaultConfig.advanced.startCidrV4 = some defaultStartV4 ∧
      cidrFromString defaultConfig.advanced.startCidrV6 = some defaultStartV6 := by
  decide +kernel

/-- Without interfaces, the start subnets are proposed. -/
theorem noInterfaces_sound : Sound Db.empty true defaultStartV4 defaultStartV6
    (getFreshInterfaceIpConfig defaultConfig (.ok (getInterfaceIps Db.empty))) := by
  have suitable : ∀ start : Cidr, start.bits < start.addr.family.bitLen →
      Suitable Db.empty start := by
    intro start several
    refine ⟨several, start.networkAddr, Slot.refl (networkAddr_networkAddr start),
      fun iface listed => (by cases listed), fun v slot below => ?_⟩
    exact absurd slot.above (Nat.not_le_of_lt below)
  have exact := @getFreshInterfaceIpConfig_sound_iff defaultConfig Db.empty defaultStartV4
    defaultStartV6 default_parsed.1 default_parsed.2
  have suitable6 := suitable defaultStartV6 (by decide)
  obtain ⟨ip, first⟩ := suitable6.exists_firstAddr
  exact exact.mpr ⟨suitable defaultStartV4 (by decide), fun _ => suitable6, by rw [first]; simp⟩

theorem wideBits_le : 16 ≤ Family.v4.bitLen := by decide

theorem wideAddr_lt : 0x0a0b0001 < 2 ^ Family.v4.bitLen := by decide

/-- An interface with the address 10.11.0.1/16. -/
def wide : Db :=
  { Db.empty with
    interfaces := Table.empty.upsert
      { Interface.zero with
        identifier := "wg0", addresses := [⟨⟨.v4, 0x0a0b0001, wideAddr_lt⟩, 16, wideBits_le⟩] } }

/-- A network that contains the start subnet is not seen. -/
theorem wide_not_sound : ¬ Sound wide true defaultStartV4 defaultStartV6
    (getFreshInterfaceIpConfig defaultConfig (.ok (getInterfaceIps wide))) := by
  have busy : conflicts (getInterfaceIps wide) defaultStartV4 = false ∧
      conflicts (getInterfaceIps wide) defaultStartV6 = false := by decide +kernel
  have firsts : defaultStartV4.firstAddr.map Cidr.networkAddr = some defaultStartV4 ∧
      defaultStartV6.firstAddr.map Cidr.networkAddr = some defaultStartV6 := by decide +kernel
  obtain ⟨ipV4, first4, net4⟩ := Option.map_eq_some_iff.mp firsts.1
  obtain ⟨ipV6, first6, net6⟩ := Option.map_eq_some_iff.mp firsts.2
  have returned : getFreshInterfaceIpConfig defaultConfig (.ok (getInterfaceIps wide)) =
      .ok (defaultStartV4.nextAddr, defaultStartV6.nextAddr) := by
    simp only [getFreshInterfaceIpConfig, default_parsed, Option.bind_some, first4, first6, net4,
      net6]
    rw [nextNetworks, if_pos (by rw [busy.1, busy.2]; decide)]
  rw [returned]
  rintro ⟨⟨ip, next, fresh⟩, _⟩
  have overlaps : (defaultStartV4.nextAddr.map fun ip => decide (
      ip.addr.family = Family.v4 ∧ ip.addr.value / 2 ^ 16 = 0x0a0b)) = some true := by
    decide +kernel
  rw [next, Option.map_some, Option.some.injEq, decide_eq_true_eq] at overlaps
  refine fresh.apart { Interface.zero with
    identifier := "wg0", addresses := [⟨⟨.v4, 0x0a0b0001, wideAddr_lt⟩, 16, wideBits_le⟩] }
    (by decide +kernel) _ List.mem_cons_self ⟨ip.addr, Prefix.within_addr ip, overlaps.1, ?_⟩
  exact overlaps.2

end FreshNetworks

end WgPortal.WireGuard
