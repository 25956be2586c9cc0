import WgPortal.Domain.Interface

/-! The routes to the peers of an interface, compared with the allowed IPs that the device
gets for them. -/

namespace WgPortal.Route

open Domain

/-- The addresses of a peer, which always get routes. -/
def hostAddrs (p : Peer) : List Cidr := p.interface.addresses.map Cidr.hostAddr

def extraAllowedIPs (p : Peer) : List Cidr := cidrsOrNil p.extraAllowedIPsStr

/-- The device gets the allowed IPs of the peer, not its addresses. -/
def UsesAllowedIPsStr (force : Bool) (p : Peer) : Prop :=
  p.interface.type = .server ∨ force = false ∧ p.allowedIPsStr.value ≠ ""

theorem mem_mergedAllowedIPs_iff {force : Bool} {p : Peer} {c : Cidr} :
    c ∈ mergedAllowedIPs p force ↔ c ∈ extraAllowedIPs p ∨
      (UsesAllowedIPsStr force p ∧ c ∈ cidrsOrNil p.allowedIPsStr.value) ∨
      (¬ UsesAllowedIPsStr force p ∧ c ∈ hostAddrs p) := by
  rw [mergedAllowedIPs, List.mem_append, or_comm]
  refine or_congr_right ?_
  by_cases server : p.interface.type = .server
  · simp [UsesAllowedIPsStr, server]
  · cases force with
    | true => simp [UsesAllowedIPsStr, server, hostAddrs]
    | false =>
      by_cases empty : p.allowedIPsStr.value = ""
      · simp [UsesAllowedIPsStr, server, empty, hostAddrs]
      · simp [UsesAllowedIPsStr, server, empty]

theorem mem_getAllowedIPs_iff {i : Interface} {peers : List Peer} {c : Cidr} :
    c ∈ i.getAllowedIPs peers ↔ ∃ p ∈ peers, c ∈ hostAddrs p ∨ c ∈ extraAllowedIPs p := by
  rw [Interface.getAllowedIPs, List.mem_flatMap]
  refine exists_congr fun p => and_congr_right fun _ => ?_
  rw [List.mem_append]
  refine or_congr_right ?_
  by_cases empty : p.extraAllowedIPsStr = ""
  · -- the empty text is no list of prefixes
    have none : extraAllowedIPs p = [] := by
      rw [extraAllowedIPs, empty]
      decide
    rw [if_neg (not_not_intro empty), none]
  · rw [if_pos empty, extraAllowedIPs]

/-- The allowed IPs of the device for the enabled peers, each merged into what was there. -/
def deviceAllowedIPs (force : Bool) (physical : Peer → PhysicalPeer) (peers : List Peer) :
    List Cidr :=
  (peers.filter fun p => !p.isDisabled).flatMap fun p =>
    (mergeToPhysicalPeer (physical p) p force).allowedIPs

/-- An enabled peer gets traffic to `c`. -/
def Reached (force : Bool) (peers : List Peer) (c : Cidr) : Prop :=
  ∃ q ∈ peers, q.isDisabled = false ∧ (c ∈ extraAllowedIPs q ∨
    (UsesAllowedIPsStr force q ∧ c ∈ cidrsOrNil q.allowedIPsStr.value) ∨
    (¬ UsesAllowedIPsStr force q ∧ c ∈ hostAddrs q))

theorem mem_deviceAllowedIPs_iff {force : Bool} {physical : Peer → PhysicalPeer}
    {peers : List Peer} {c : Cidr} :
    c ∈ deviceAllowedIPs force physical peers ↔ Reached force peers c := by
  rw [deviceAllowedIPs, List.mem_flatMap, Reached]
  refine exists_congr fun p => ?_
  rw [List.mem_filter, Bool.not_eq_true', and_assoc]
  refine and_congr_right fun _ => and_congr_right fun _ => ?_
  exact mem_mergedAllowedIPs_iff

/-- Disabled peers, and peers that use their allowed IPs, are where both differ: these are the
peers for whose addresses or allowed IPs another one has to stand in. -/
structure StandIns (force : Bool) (peers : List Peer) : Prop where
  disabled : ∀ p ∈ peers, p.isDisabled = true →
    ∀ c, c ∈ hostAddrs p ∨ c ∈ extraAllowedIPs p → Reached force peers c
  addresses : ∀ p ∈ peers, p.isDisabled = false → UsesAllowedIPsStr force p →
    ∀ c ∈ hostAddrs p, Reached force peers c
  allowedIPs : ∀ p ∈ peers, p.isDisabled = false → UsesAllowedIPsStr force p →
    ∀ c ∈ cidrsOrNil p.allowedIPsStr.value, ∃ q ∈ peers, c ∈ hostAddrs q ∨ c ∈ extraAllowedIPs q

/-- There is a route to a CIDR exactly if the device lets it in, for any types of the interface
and its peers. -/
theorem getAllowedIPs_eq_device_iff (i : Interface) (peers : List Peer) (force : Bool)
    (physical : Peer → PhysicalPeer) :
    (∀ c, c ∈ i.getAllowedIPs peers ↔ c ∈ deviceAllowedIPs force physical peers) ↔
      StandIns force peers := by
  simp only [mem_getAllowedIPs_iff, mem_deviceAllowedIPs_iff]
  constructor
  · intro same
    have reached : ∀ p ∈ peers, ∀ c, c ∈ hostAddrs p ∨ c ∈ extraAllowedIPs p →
        Reached force peers c := fun p mem c routed => (same c).mp ⟨p, mem, routed⟩
    refine ⟨fun p mem _ c routed => reached p mem c routed,
      fun p mem _ _ c routed => reached p mem c (.inl routed), fun p mem enabled uses c listed => ?_⟩
    exact (same c).mpr ⟨p, mem, enabled, .inr (.inl ⟨uses, listed⟩)⟩
  · intro standIns c
    constructor
    · rintro ⟨p, mem, routed⟩
      cases enabled : p.isDisabled with
      | true => exact standIns.disabled p mem enabled c routed
      | false =>
        rcases routed with address | extra
        · by_cases uses : UsesAllowedIPsStr force p
          · exact standIns.addresses p mem enabled uses c address
          · exact ⟨p, mem, enabled, .inr (.inr ⟨uses, address⟩)⟩
        · exact ⟨p, mem, enabled, .inl extra⟩
    · rintro ⟨p, mem, enabled, extra | ⟨uses, listed⟩ | ⟨_, address⟩⟩
      · exact ⟨p, mem, .inr extra⟩
      · exact standIns.allowedIPs p mem enabled uses c listed
      · exact ⟨p, mem, .inl address⟩

def clientInterface : Interface := { Interface.zero with identifier := "wg1", type := .client }

/-- The server on the other side of a client interface, to which all traffic goes. -/
def upstream : Peer :=
  { Peer.zero with
    identifier := "upstream"
    interfaceIdentifier := "wg1"
    allowedIPsStr := ⟨"0.0.0.0/0", false⟩
    interface := { Peer.zero.interface with type := .server } }

/-- The device lets everything through to the server, but there is no route. -/
theorem upstream_unrouted :
    ¬ ∀ c, c ∈ clientInterface.getAllowedIPs [upstream] ↔
      c ∈ deviceAllowedIPs false (fun _ => PhysicalPeer.zero) [upstream] := by
  intro same
  obtain ⟨c, only⟩ : ∃ c, deviceAllowedIPs false (fun _ => PhysicalPeer.zero) [upstream] = [c] :=
    List.length_eq_one_iff.mp (by decide +kernel)
  have routed : c ∈ clientInterface.getAllowedIPs [upstream] :=
    (same c).mpr (only ▸ List.mem_singleton_self c)
  have none : clientInterface.getAllowedIPs [upstream] = [] := by decide +kernel
  rw [none] at routed
  cases routed

end WgPortal.Route
