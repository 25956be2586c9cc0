import WgPortal.WireGuard.FreshAddresses

/-! The addresses that a peer gets after a conflict, and whether they are free. -/

namespace WgPortal.WireGuard.AddressRetry

open Domain Library Library.NetIP Adapters WgController FreshAddresses

/-- An address of the subnet that no interface and no peer has. -/
structure Vacant (db : Db) (subnet ip : Cidr) : Prop where
  inside : Prefix.Within subnet ip.addr
  unused : ∀ u ∈ db.usedIps, u.addr ≠ ip.addr

/-- A vacant address is returned if the subnet has a free host address. -/
def NextVacant (db : Db) (subnet : Cidr) : Prop :=
  (∃ a, Free db subnet a) → ∃ ip, db.getNextPeerIPForSubnet subnet = .ok ip ∧ Vacant db subnet ip

/-- The addresses for a retry are vacant if all networks have a free host address. -/
def Progress (db : Db) (networks : List Cidr) (result : Except Error (List Cidr)) : Prop :=
  (∀ network ∈ networks, ∃ a, Free db network a) →
    ∃ ips, result = .ok ips ∧ List.Forall₂ (Vacant db) networks ips

/-- No peer has the subnet itself as an address, and nobody has the address behind the
configured one, which is inside the subnet. -/
structure Startable (db : Db) (subnet : Cidr) : Prop where
  unlisted : ∀ row ∈ db.peerAddresses.rows, row.2 ≠ subnet
  start : ∃ start, subnet.nextAddr = some start ∧ Vacant db subnet start

variable {db : Db} {subnet : Cidr}

/-- The query finds the subnet itself at most, whose address cannot be parsed. -/
theorem getNextPeerIPForSubnet_eq_ok {ip : Cidr} : db.getNextPeerIPForSubnet subnet = .ok ip ↔
    (∀ row ∈ db.peerAddresses.rows, row.2 ≠ subnet) ∧
      ∃ start, subnet.nextAddr = some start ∧ start.hostAddr = ip := by
  unfold Db.getNextPeerIPForSubnet
  cases found : db.peerAddresses.rows.find? (·.2 = subnet) with
  | some row =>
    refine iff_of_false (fun same => by cases same) fun h => ?_
    have same : row.2 = subnet := by simpa using List.find?_some found
    exact h.1 row (List.mem_of_find?_eq_some found) same
  | none =>
    have unlisted : ∀ row ∈ db.peerAddresses.rows, row.2 ≠ subnet := fun row listed same =>
      absurd (decide_eq_true same) (List.find?_eq_none.mp found row listed)
    cases next : Cidr.nextAddr subnet with
    | none => simp
    | some start =>
      constructor
      · intro same
        exact ⟨unlisted, start, rfl, Except.ok.inj same⟩
      · rintro ⟨_, _, same, rfl⟩
        rw [Option.some.inj same]

theorem vacant_iff_startable :
    (∃ ip, db.getNextPeerIPForSubnet subnet = .ok ip ∧ Vacant db subnet ip) ↔
      Startable db subnet := by
  constructor
  · rintro ⟨ip, returned, vacant⟩
    obtain ⟨unlisted, start, next, rfl⟩ := getNextPeerIPForSubnet_eq_ok.mp returned
    exact ⟨unlisted, start, next, vacant.inside, vacant.unused⟩
  · rintro ⟨unlisted, start, next, vacant⟩
    exact ⟨start.hostAddr, getNextPeerIPForSubnet_eq_ok.mpr ⟨unlisted, start, next, rfl⟩,
      vacant.inside, vacant.unused⟩

variable {w : Wgtypes} (client : Client w) {circumstances : ℕ → Circumstance}

/-- The loop over the networks asks for each of them, up to the first failure. -/
theorem eval_nextIps (faultless : Faultless circumstances) (networks : List Cidr) (turn : ℕ)
    (world : World w) :
    let result := ((Manager.nextIps networks).eval (inTurn client circumstances) (turn, world)).1
    (∃ ips, result = .ok ips ∧ List.Forall₂
        (fun network ip => world.db.getNextPeerIPForSubnet network = .ok ip) networks ips) ∨
      (∃ err, result = .error err) ∧
        ∃ network ∈ networks, ∃ err, world.db.getNextPeerIPForSubnet network = .error err := by
  induction networks generalizing turn with
  | nil => exact .inl ⟨[], rfl, .nil⟩
  | cons network networks ih =>
    have first : inTurn client circumstances (.repo (.getNextPeerIPForSubnet network))
        (turn, world) = (world.db.getNextPeerIPForSubnet network, (turn + 1, world)) :=
      inTurn_repo client faultless ..
    simp only [Manager.nextIps, ManagerProgram.issue, Program.perform_bind, Program.eval_call, first]
    cases answer : world.db.getNextPeerIPForSubnet network with
    | error err => exact .inr ⟨⟨_, rfl⟩, network, List.mem_cons_self, err, answer⟩
    | ok ip =>
      simp only [Program.eval_bind]
      rcases ih (turn + 1) with ⟨ips, rest, each⟩ | ⟨⟨err, rest⟩, other, listed, failed⟩
      · rw [rest]
        exact .inl ⟨ip :: ips, rfl, .cons answer each⟩
      · rw [rest]
        exact .inr ⟨⟨err, rfl⟩, other, List.mem_cons_of_mem _ listed, failed⟩

theorem nextIps_progress_iff (faultless : Faultless circumstances) (world : World w)
    (networks : List Cidr) :
    Progress world.db networks ((Manager.nextIps networks).run client circumstances world).1 ↔
      ((∀ network ∈ networks, ∃ a, Free world.db network a) →
        ∀ network ∈ networks, Startable world.db network) := by
  refine imp_congr_right fun _ => ?_
  change (∃ ips, ((Manager.nextIps networks).eval (inTurn client circumstances) (0, world)).1 = .ok ips ∧
    List.Forall₂ (Vacant world.db) networks ips) ↔ _
  rcases eval_nextIps client faultless networks 0 world with
    ⟨ips, returned, each⟩ | ⟨⟨err, failed⟩, network, listed, err', refused⟩
  · rw [returned]
    constructor
    · rintro ⟨ips', same, vacant⟩ network listed
      obtain rfl := Except.ok.inj same
      obtain ⟨ip, _, both⟩ := (exists_of_forall₂ (forall₂_both each vacant)).1 network listed
      exact vacant_iff_startable.mp ⟨ip, both⟩
    · intro startable
      refine ⟨ips, rfl, ((List.forall₂_and_left networks ips).mpr ⟨startable, each⟩).imp ?_⟩
      rintro network ip ⟨start, answer⟩
      obtain ⟨other, answer', vacant⟩ := vacant_iff_startable.mpr start
      rw [Except.ok.inj (answer.symm.trans answer')]
      exact vacant
  · rw [failed]
    refine iff_of_false (fun h => ?_) fun startable => ?_
    · obtain ⟨_, same, _⟩ := h
      cases same
    obtain ⟨_, answer, _⟩ := vacant_iff_startable.mpr (startable network listed)
    rw [refused] at answer
    cases answer

/-- The next address of a subnet with a free host address is vacant exactly if no peer
has the subnet itself as an address, and nobody has the address behind the configured
one, which is inside the subnet; and a retry gets vacant addresses exactly if this is so
for all of its networks. -/
theorem retry_progress_iff (faultless : Faultless circumstances) (world : World w) :
    (∀ subnet, NextVacant world.db subnet ↔
      ((∃ a, Free world.db subnet a) → Startable world.db subnet)) ∧
    ∀ networks, Progress world.db networks
        ((Manager.nextIps networks).run client circumstances world).1 ↔
      ((∀ network ∈ networks, ∃ a, Free world.db network a) →
        ∀ network ∈ networks, Startable world.db network) :=
  ⟨fun _ => imp_congr_right fun _ => vacant_iff_startable,
    nextIps_progress_iff client faultless world⟩

/-- An interface without addresses, and no peer. -/
def untouched : World plainTypes := oneInterface Device.empty []

theorem untouched_progress : Progress untouched.db [small]
    ((Manager.nextIps [small]).run (plainClient plainTypes) (fun _ => calm 0) untouched).1 := by
  have exact := @retry_progress_iff plainTypes (plainClient plainTypes) (fun _ => calm 0)
    (fun _ => rfl) untouched
  refine (exact.2 [small]).mpr fun _ network listed => ?_
  obtain rfl := List.mem_singleton.mp listed
  refine ⟨fun row there => (by cases there), ⟨address 1, 30, smallBits_le⟩,
    Cidr.nextAddr_eq_some.mpr ⟨rfl, rfl, rfl⟩, ⟨rfl, by decide +kernel⟩, fun u used => ?_⟩
  have none : untouched.db.usedIps = [] := by decide +kernel
  rw [none] at used
  cases used

/-- The interface has the address behind the configured one, as for every network that
the portal proposes. -/
theorem occupied_not_nextVacant : ¬ NextVacant (occupied []).db small := by
  intro next
  have free : Free (occupied []).db small (address 2) :=
    ⟨⟨rfl, by decide +kernel⟩, by decide +kernel, fun _ => by decide +kernel, by decide +kernel⟩
  have returned : (occupied []).db.getNextPeerIPForSubnet small =
      .ok (Prefix.host (address 1)) := by decide +kernel
  obtain ⟨ip, same, vacant⟩ := next ⟨address 2, free⟩
  rw [← Except.ok.inj (returned.symm.trans same)] at vacant
  have used : (⟨address 1, 30, smallBits_le⟩ : Cidr) ∈ (occupied []).db.usedIps := by
    decide +kernel
  exact vacant.unused _ used rfl

end WgPortal.WireGuard.AddressRetry
