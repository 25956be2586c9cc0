import WgPortal.Domain.PhysicalPeer

/-! The comparison that decides whether the other nodes hear of an update, and
what they would program for the old and the new peer. -/

namespace WgPortal.WireGuard.PeerChanges

open Domain

/-- Whether a change of a peer concerns the other nodes. -/
def hasMeaningfulChanges (oldPeer newPeer : Peer) : Bool :=
  oldPeer.allowedIPsStr ≠ newPeer.allowedIPsStr ||
  oldPeer.extraAllowedIPsStr ≠ newPeer.extraAllowedIPsStr ||
  oldPeer.endpoint ≠ newPeer.endpoint ||
  oldPeer.endpointPublicKey ≠ newPeer.endpointPublicKey ||
  oldPeer.presharedKey ≠ newPeer.presharedKey ||
  oldPeer.persistentKeepalive ≠ newPeer.persistentKeepalive ||
  -- the state, then the time of the disabling
  oldPeer.disabled.isNone ≠ newPeer.disabled.isNone ||
  (oldPeer.disabled.isSome && newPeer.disabled.isSome && oldPeer.disabled ≠ newPeer.disabled) ||
  oldPeer.disabledReason ≠ newPeer.disabledReason ||
  oldPeer.displayName ≠ newPeer.displayName ||
  oldPeer.notes ≠ newPeer.notes ||
  oldPeer.interface.checkAliveAddress ≠ newPeer.interface.checkAliveAddress ||
  oldPeer.interface.dnsStr ≠ newPeer.interface.dnsStr ||
  oldPeer.interface.dnsSearchStr ≠ newPeer.interface.dnsSearchStr ||
  oldPeer.interface.mtu ≠ newPeer.interface.mtu ||
  oldPeer.interface.firewallMark ≠ newPeer.interface.firewallMark ||
  oldPeer.interface.routingTable ≠ newPeer.interface.routingTable ||
  oldPeer.interface.preUp ≠ newPeer.interface.preUp ||
  oldPeer.interface.postUp ≠ newPeer.interface.postUp ||
  oldPeer.interface.preDown ≠ newPeer.interface.preDown ||
  oldPeer.interface.postDown ≠ newPeer.interface.postDown ||
  oldPeer.interface.keyPair.publicKey ≠ newPeer.interface.keyPair.publicKey ||
  oldPeer.interface.type ≠ newPeer.interface.type ||
  oldPeer.interface.addresses ≠ newPeer.interface.addresses

/-- A remote node programs the same for both peers. -/
structure SameProgram (oldPeer newPeer : Peer) (force : Bool) : Prop where
  interface : oldPeer.interfaceIdentifier = newPeer.interfaceIdentifier
  enabled : oldPeer.isDisabled = newPeer.isDisabled
  merged : ∀ pp, mergeToPhysicalPeer pp oldPeer force = mergeToPhysicalPeer pp newPeer force

/-- What is left of a peer that the merge and the interface depend on. -/
structure Unchanged (oldPeer newPeer : Peer) : Prop where
  allowedIPsStr : oldPeer.allowedIPsStr = newPeer.allowedIPsStr
  extraAllowedIPsStr : oldPeer.extraAllowedIPsStr = newPeer.extraAllowedIPsStr
  endpoint : oldPeer.endpoint = newPeer.endpoint
  presharedKey : oldPeer.presharedKey = newPeer.presharedKey
  persistentKeepalive : oldPeer.persistentKeepalive = newPeer.persistentKeepalive
  disabled : oldPeer.disabled.isNone = newPeer.disabled.isNone
  displayName : oldPeer.displayName = newPeer.displayName
  notes : oldPeer.notes = newPeer.notes
  dnsStr : oldPeer.interface.dnsStr = newPeer.interface.dnsStr
  publicKey : oldPeer.interface.keyPair.publicKey = newPeer.interface.keyPair.publicKey
  type : oldPeer.interface.type = newPeer.interface.type
  addresses : oldPeer.interface.addresses = newPeer.interface.addresses

theorem unchanged_of_suppressed {oldPeer newPeer : Peer}
    (suppressed : hasMeaningfulChanges oldPeer newPeer = false) : Unchanged oldPeer newPeer := by
  simp only [hasMeaningfulChanges, Bool.or_eq_false_iff, decide_eq_false_iff_not, ne_eq,
    not_not] at suppressed
  constructor <;> grind

theorem Unchanged.isDisabled {oldPeer newPeer : Peer} (unchanged : Unchanged oldPeer newPeer) :
    oldPeer.isDisabled = newPeer.isDisabled := by
  have disabled := unchanged.disabled
  simp only [Peer.isDisabled]
  cases old : oldPeer.disabled <;> cases new : newPeer.disabled <;> simp_all

/-- The merge depends on these fields and on the identifier. -/
theorem Unchanged.merge {oldPeer newPeer : Peer} (unchanged : Unchanged oldPeer newPeer)
    (same : oldPeer.identifier = newPeer.identifier) (pp : PhysicalPeer) (force : Bool) :
    mergeToPhysicalPeer pp oldPeer force = mergeToPhysicalPeer pp newPeer force := by
  have disabled : oldPeer.isDisabled = newPeer.isDisabled := unchanged.isDisabled
  have allowedIPs : mergedAllowedIPs oldPeer force = mergedAllowedIPs newPeer force := by
    simp only [mergedAllowedIPs, unchanged.allowedIPsStr, unchanged.extraAllowedIPsStr,
      unchanged.type, unchanged.addresses]
  simp only [mergeToPhysicalPeer, same, disabled, allowedIPs, unchanged.endpoint,
    unchanged.presharedKey, unchanged.persistentKeepalive, unchanged.displayName, unchanged.notes,
    unchanged.dnsStr, unchanged.publicKey, unchanged.addresses]

/-- Peers between which no meaningful change is seen are programmed alike if and
only if they have the same identifier and belong to the same interface. -/
theorem suppressed_sameProgram_iff {oldPeer newPeer : Peer}
    (suppressed : hasMeaningfulChanges oldPeer newPeer = false) (force : Bool) :
    SameProgram oldPeer newPeer force ↔ oldPeer.identifier = newPeer.identifier ∧
      oldPeer.interfaceIdentifier = newPeer.interfaceIdentifier := by
  have unchanged := unchanged_of_suppressed suppressed
  constructor
  · intro same
    have identifier := congrArg PhysicalPeer.identifier (same.merged PhysicalPeer.zero)
    exact ⟨identifier, same.interface⟩
  · rintro ⟨identifier, interface⟩
    exact ⟨interface, unchanged.isDisabled, fun pp => unchanged.merge identifier pp force⟩

/-- The owner and the expiry of a peer do not matter to the device. -/
theorem renamedUser_sameProgram :
    SameProgram Peer.zero { Peer.zero with userIdentifier := "alice", expiresAt := some 5 } false :=
  (suppressed_sameProgram_iff (by decide) false).mpr ⟨rfl, rfl⟩

/-- A peer that is moved to another interface is not announced. -/
theorem movedPeer_not_sameProgram :
    hasMeaningfulChanges Peer.zero { Peer.zero with interfaceIdentifier := "wg1" } = false ∧
      ¬ SameProgram Peer.zero { Peer.zero with interfaceIdentifier := "wg1" } false :=
  ⟨by decide, fun same => absurd same.interface (by decide)⟩

end WgPortal.WireGuard.PeerChanges
