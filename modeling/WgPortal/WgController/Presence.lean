import WgPortal.WgController.LocalUpdate

/-! Which peers a device has, whatever their configuration, after the local controller
saved or deleted one. -/

namespace WgPortal.WgController.LocalController

open Domain Library

variable {w : Wgtypes} {client : Client w} {devices : Devices w} {deviceId : InterfaceIdentifier}
  {id : PeerIdentifier}

/-- The device exists and has a peer with the key. -/
def holds (devices : Devices w) (deviceId : InterfaceIdentifier) (key : w.Key) : Bool :=
  match devices deviceId with
  | some d => (d.find key).isSome
  | none => false

theorem isSome_eq_of_rel {p q : Option (WgPeer w)} (rel : Option.Rel WgPeer.Same p q) :
    p.isSome = q.isSome := by
  cases rel <;> rfl

theorem holds_update (devices : Devices w) (deviceId other : InterfaceIdentifier) (d : Device w)
    (key : w.Key) : holds (Function.update devices deviceId (some d)) other key =
      if other = deviceId then (d.find key).isSome else holds devices other key := by
  by_cases same : other = deviceId
  · rw [if_pos same, same, holds, Function.update_self]
  · rw [if_neg same, holds, Function.update_of_ne same, holds]

theorem isSome_created (client : Client w) (d : Device w) (key other : w.Key) :
    ((created client d key).find other).isSome = (decide (other = key) || (d.find other).isSome) := by
  by_cases same : other = key
  · rw [same, find_created, decide_eq_true rfl]
    rfl
  · rw [isSome_eq_of_rel (LocalUpdate.find_created_of_ne client d same), decide_eq_false same]
    rfl

theorem isSome_deleted (client : Client w) (d : Device w) (id : PeerIdentifier) (other : w.Key) :
    ((client.configurePeer d (deletePeerConfig id)).find other).isSome =
      (decide (other ≠ toPublicKey w id) && (d.find other).isSome) := by
  have outcome : (deletePeerConfig id).outcome d other =
      if other = toPublicKey w id then none else d.find other := rfl
  rw [isSome_eq_of_rel (client.find_of_same outcome)]
  by_cases same : other = toPublicKey w id <;> simp [same]

/-- An update neither adds nor removes peers. -/
theorem isSome_updated (client : Client w) (d : Device w) {c : PeerConfig w}
    (remove : c.remove = false) (only : c.updateOnly = true) (other : w.Key) :
    ((client.configurePeer d c).find other).isSome = (d.find other).isSome := by
  rw [isSome_eq_of_rel (client.find_configurePeer d c other), PeerConfig.outcome, remove, only,
    if_neg (by decide)]
  split
  · rfl
  · rename_i known
    split
    · rename_i named
      have known : d.find c.publicKey ≠ none := fun none => known ⟨rfl, none⟩
      rw [named, Option.isSome_some, Option.isSome_iff_ne_none.mpr known]
    · rw [Option.isSome_map]

/-- After a delete without error the peer is gone, and all others are where they were. -/
theorem holds_deletePeer (ok : (deletePeer client devices deviceId id).1.isOk = true)
    (other : InterfaceIdentifier) (key : w.Key) :
    holds (deletePeer client devices deviceId id).2 other key =
      if other = deviceId ∧ key = toPublicKey w id then false else holds devices other key := by
  cases valid : w.parseKey id with
  | none =>
    simp only [deletePeer, valid] at ok
    cases ok
  | some k =>
    cases stored : devices deviceId with
    | none =>
      simp only [deletePeer, removePeer, configureDevice, valid, stored] at ok
      cases ok
    | some d =>
      rw [deletePeer_eq stored valid, holds_update, isSome_deleted]
      by_cases here : other = deviceId
      · by_cases same : key = toPublicKey w id <;> simp [here, same, holds, stored]
      · simp [here]

/-- After a save without error the peer is on the device if it is enabled. -/
theorem holds_savePeer {p : Peer} {force : Bool}
    (ok : (savePeer client devices deviceId p.identifier
      (fun pp => .ok (mergeToPhysicalPeer pp p force))).1.isOk = true)
    (other : InterfaceIdentifier) (key : w.Key) :
    holds (savePeer client devices deviceId p.identifier
        (fun pp => .ok (mergeToPhysicalPeer pp p force))).2 other key =
      if other = deviceId ∧ key = toPublicKey w p.identifier then !p.isDisabled
      else holds devices other key := by
  cases valid : w.parseKey p.identifier with
  | none =>
    rw [savePeer_invalid devices valid] at ok
    cases ok
  | some k =>
    cases stored : devices deviceId with
    | none =>
      rw [savePeer_missing devices valid stored] at ok
      cases ok
    | some d =>
      have named : toPublicKey w p.identifier = k := by rw [toPublicKey, valid, Option.getD_some]
      rw [savePeer_merge force stored valid, holds_update]
      by_cases here : other = deviceId
      · cases disabled : p.isDisabled with
        | true =>
          have config : savedConfig w p force = deletePeerConfig p.identifier := by
            rw [savedConfig, if_pos disabled]
          rw [config, isSome_deleted, isSome_created]
          by_cases same : key = k <;> simp [here, same, holds, stored, named]
        | false =>
          rw [isSome_updated client _ (by simp [savedConfig, disabled])
            (by simp [savedConfig, disabled]), isSome_created]
          by_cases same : key = k <;> simp [here, same, holds, stored, named]
      · simp [here]

end WgPortal.WgController.LocalController
