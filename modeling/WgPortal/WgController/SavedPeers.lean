import WgPortal.WgController.Local

/-! Enabled peers that are saved to a device one after the other: what becomes of
each of them and of all others. -/

namespace WgPortal.WgController.LocalController

open Domain Library NetIP

variable {w : Wgtypes} {p : Peer} {force : Bool}

/-- A peer of the device afterwards and before, which may have lost networks. -/
structure Kept (lost : Network → Prop) (q old : WgPeer w) : Prop where
  publicKey : q.publicKey = old.publicKey
  presharedKey : q.presharedKey = old.presharedKey
  persistentKeepalive : q.persistentKeepaliveInterval = old.persistentKeepaliveInterval
  endpoint : q.endpoint = old.endpoint
  allowedIPs : ∀ network, network ∈ q.allowedIPs ↔ network ∈ old.allowedIPs ∧ ¬ lost network

theorem Kept.trans {lost : Network → Prop} {c : PeerConfig w} {a b old : Option (WgPeer w)}
    (later : Option.Rel (Kept lost) a b) (first : Option.Rel WgPeer.Same b (old.map c.released)) :
    Option.Rel (Kept fun network => network ∈ c.allowedIPs ∨ lost network) a old := by
  cases old with
  | none =>
    cases first
    cases later
    exact .none
  | some old =>
    cases first with
    | some same =>
      cases later with
      | some kept =>
        refine .some ⟨kept.publicKey.trans same.publicKey,
          kept.presharedKey.trans same.presharedKey,
          kept.persistentKeepalive.trans same.persistentKeepaliveInterval,
          kept.endpoint.trans same.endpoint, fun network => ?_⟩
        rw [kept.allowedIPs, same.allowedIPs]
        simp only [PeerConfig.released, List.mem_filter, decide_eq_true_eq, not_or, and_assoc]

theorem Kept.of_same {lost : Network → Prop} {a b old : Option (WgPeer w)}
    (later : Option.Rel (Kept lost) a b) (first : Option.Rel WgPeer.Same b old) :
    Option.Rel (Kept lost) a old := by
  cases first with
  | none => exact later
  | some same =>
    cases later with
    | some kept =>
      refine .some ⟨kept.publicKey.trans same.publicKey,
        kept.presharedKey.trans same.presharedKey,
        kept.persistentKeepalive.trans same.persistentKeepaliveInterval,
        kept.endpoint.trans same.endpoint, fun network => ?_⟩
      rw [kept.allowedIPs, same.allowedIPs]

/-- Save enabled peers one after the other. -/
def savedDevice (client : Client w) (force : Bool) : Device w → List Peer → Device w
  | d, [] => d
  | d, p :: peers =>
    savedDevice client force (client.configurePeer
      (created client d (toPublicKey w p.identifier)) (savedConfig w p force)) peers

/-- An enabled peer that is identified by its key. -/
structure Canonical (w : Wgtypes) (p : Peer) : Prop where
  enabled : p.isDisabled = false
  identifier : ∃ key, w.keyText key = p.identifier
  publicKey : p.interface.keyPair.publicKey = p.identifier

theorem Canonical.valid {p : Peer} (canonical : Canonical w p) :
    w.parseKey p.identifier = some (toPublicKey w p.identifier) := by
  obtain ⟨key, text⟩ := canonical.identifier
  rw [toPublicKey, ← text, w.parseKey_keyText, Option.getD_some]

theorem Canonical.text {p : Peer} (canonical : Canonical w p) :
    w.keyText (toPublicKey w p.identifier) = p.identifier := by
  obtain ⟨key, text⟩ := canonical.identifier
  rw [toPublicKey, ← text, w.parseKey_keyText, Option.getD_some]

variable (client : Client w)

def Lost (w : Wgtypes) (force : Bool) (peers : List Peer) (network : Network) : Prop :=
  ∃ p ∈ peers, network ∈ (savedConfig w p force).allowedIPs

/-- A peer that is not saved loses the networks of those that are. -/
theorem find_savedDevice_other (force : Bool) {peers : List Peer}
    (canonical : ∀ p ∈ peers, Canonical w p) {k : w.Key}
    (other : ∀ p ∈ peers, k ≠ toPublicKey w p.identifier) (d : Device w) :
    Option.Rel (Kept (Lost w force peers)) ((savedDevice client force d peers).find k) (d.find k) := by
  induction peers generalizing d with
  | nil =>
    simp only [savedDevice]
    cases d.find k with
    | none => exact .none
    | some q => exact .some ⟨rfl, rfl, rfl, rfl, by simp [Lost]⟩
  | cons p peers ih =>
    have rest := ih (fun p hp => canonical p (List.mem_cons_of_mem _ hp))
      (fun p hp => other p (List.mem_cons_of_mem _ hp))
      (client.configurePeer (created client d (toPublicKey w p.identifier)) (savedConfig w p force))
    have this := canonical p List.mem_cons_self
    have first := find_saved_other client (d := d) force this.enabled this.publicKey
      this.valid (other p List.mem_cons_self)
    have lost : Lost w force (p :: peers) = fun network =>
        network ∈ (savedConfig w p force).allowedIPs ∨ Lost w force peers network := by
      funext network
      simp [Lost]
    rw [savedDevice, lost]
    exact Kept.trans rest first

theorem mem_configured {p : Peer} (enabled : p.isDisabled = false) (old : WgPeer w)
    (network : Network) :
    network ∈ ((savedConfig w p force).configured old).allowedIPs ↔
      network ∈ (savedConfig w p force).allowedIPs := by
  simp [PeerConfig.configured, savedConfig, enabled]

/-- A peer after it was saved among others. -/
structure Saved (force : Bool) (peers : List Peer) (p : Peer) (old q : WgPeer w) : Prop where
  publicKey : q.publicKey = old.publicKey
  presharedKey : q.presharedKey = (savedConfig w p force).presharedKey.getD old.presharedKey
  persistentKeepalive : q.persistentKeepaliveInterval =
    (savedConfig w p force).persistentKeepaliveInterval.getD old.persistentKeepaliveInterval
  endpoint : q.endpoint = (savedConfig w p force).endpoint.or old.endpoint
  subset : ∀ network ∈ q.allowedIPs, network ∈ (savedConfig w p force).allowedIPs
  kept : ∀ network ∈ (savedConfig w p force).allowedIPs,
    (∀ other ∈ peers, other ≠ p → network ∉ (savedConfig w other force).allowedIPs) →
      network ∈ q.allowedIPs

/-- The peer with this key, or a new one. -/
def oldPeer (d : Device w) (key : w.Key) : WgPeer w := (d.find key).getD (WgPeer.fresh key)

/-- What saving a peer may leave as it was. -/
structure Alike (p q : WgPeer w) : Prop where
  publicKey : p.publicKey = q.publicKey
  presharedKey : p.presharedKey = q.presharedKey
  persistentKeepalive : p.persistentKeepaliveInterval = q.persistentKeepaliveInterval
  endpoint : p.endpoint = q.endpoint

theorem Saved.of_alike {peers : List Peer} {old old' : WgPeer w}
    (saved : Saved force peers p old q) (alike : Alike old old') : Saved force peers p old' q where
  publicKey := saved.publicKey.trans alike.publicKey
  presharedKey := alike.presharedKey ▸ saved.presharedKey
  persistentKeepalive := alike.persistentKeepalive ▸ saved.persistentKeepalive
  endpoint := alike.endpoint ▸ saved.endpoint
  subset := saved.subset
  kept := saved.kept

theorem alike_oldPeer {d d' : Device w} {f : WgPeer w → WgPeer w} (unaltered : ∀ p, Alike (f p) p)
    {k : w.Key} (rel : Option.Rel WgPeer.Same (d'.find k) ((d.find k).map f)) :
    Alike (oldPeer d' k) (oldPeer d k) := by
  simp only [oldPeer]
  cases stored : d.find k with
  | none =>
    rw [stored] at rel
    rw [Table.rel_none rel]
    exact ⟨rfl, rfl, rfl, rfl⟩
  | some old =>
    rw [stored] at rel
    obtain ⟨q', found', same⟩ := Table.rel_some rel
    have alike := unaltered old
    rw [found', Option.getD_some, Option.getD_some]
    exact ⟨same.publicKey.trans alike.publicKey, same.presharedKey.trans alike.presharedKey,
      same.persistentKeepaliveInterval.trans alike.persistentKeepalive,
      same.endpoint.trans alike.endpoint⟩

/-- A peer after it was saved, and then those of `later`. -/
structure SavedBefore (force : Bool) (later : List Peer) (p : Peer) (old q : WgPeer w) : Prop where
  publicKey : q.publicKey = old.publicKey
  presharedKey : q.presharedKey = (savedConfig w p force).presharedKey.getD old.presharedKey
  persistentKeepalive : q.persistentKeepaliveInterval =
    (savedConfig w p force).persistentKeepaliveInterval.getD old.persistentKeepaliveInterval
  endpoint : q.endpoint = (savedConfig w p force).endpoint.or old.endpoint
  allowedIPs : ∀ network, network ∈ q.allowedIPs ↔
    network ∈ (savedConfig w p force).allowedIPs ∧ ¬ Lost w force later network

theorem SavedBefore.of_alike {later : List Peer} {old old' : WgPeer w} {q : WgPeer w}
    (saved : SavedBefore force later p old q) (alike : Alike old old') :
    SavedBefore force later p old' q where
  publicKey := saved.publicKey.trans alike.publicKey
  presharedKey := alike.presharedKey ▸ saved.presharedKey
  persistentKeepalive := alike.persistentKeepalive ▸ saved.persistentKeepalive
  endpoint := alike.endpoint ▸ saved.endpoint
  allowedIPs := saved.allowedIPs

/-- Each peer ends with the networks that no later one has. -/
theorem find_savedDevice_at (force : Bool) (before : List Peer) {p : Peer} {later : List Peer}
    (canonical : ∀ q ∈ before ++ p :: later, Canonical w q)
    (nodup : ((before ++ p :: later).map fun p => toPublicKey w p.identifier).Nodup)
    (d : Device w) :
    ∃ q, (savedDevice client force d (before ++ p :: later)).find
        (toPublicKey w p.identifier) = some q ∧
      SavedBefore force later p (oldPeer d (toPublicKey w p.identifier)) q := by
  induction before generalizing d with
  | nil =>
    rw [List.nil_append, List.map_cons, List.nodup_cons] at nodup
    have this := canonical p List.mem_cons_self
    have canonical' : ∀ q ∈ later, Canonical w q :=
      fun q hq => canonical q (List.mem_cons_of_mem _ hq)
    have other : ∀ q ∈ later, toPublicKey w p.identifier ≠ toPublicKey w q.identifier :=
      fun q hq same => nodup.1 (same ▸ List.mem_map_of_mem hq)
    obtain ⟨q₁, found₁, configured⟩ := find_saved_self client (d := d) force
      this.enabled this.publicKey this.valid
    have rest := find_savedDevice_other client force canonical' other
      (client.configurePeer (created client d (toPublicKey w p.identifier))
        (savedConfig w p force))
    rw [found₁] at rest
    obtain ⟨q, found, lost⟩ := Table.rel_some rest
    refine ⟨q, found, lost.publicKey.trans configured.publicKey,
      lost.presharedKey.trans configured.presharedKey,
      lost.persistentKeepalive.trans configured.persistentKeepaliveInterval,
      lost.endpoint.trans configured.endpoint, fun network => ?_⟩
    rw [lost.allowedIPs, configured.allowedIPs, mem_configured this.enabled]
  | cons first before ih =>
    rw [List.cons_append, List.map_cons, List.nodup_cons] at nodup
    have this := canonical first List.mem_cons_self
    have among : p ∈ before ++ p :: later := List.mem_append_right _ List.mem_cons_self
    have other : toPublicKey w p.identifier ≠ toPublicKey w first.identifier :=
      fun same => nodup.1 (same ▸ List.mem_map_of_mem among)
    obtain ⟨q, found, saved⟩ := ih (fun q hq => canonical q (List.mem_cons_of_mem _ hq)) nodup.2
      (client.configurePeer (created client d (toPublicKey w first.identifier))
        (savedConfig w first force))
    have moved := find_saved_other client (d := d) force this.enabled this.publicKey
      this.valid other
    exact ⟨q, found, saved.of_alike (alike_oldPeer (fun p => by exact ⟨rfl, rfl, rfl, rfl⟩) moved)⟩

theorem find_savedDevice_self (force : Bool) {peers : List Peer}
    (canonical : ∀ p ∈ peers, Canonical w p)
    (nodup : (peers.map fun p => toPublicKey w p.identifier).Nodup) {p : Peer} (hp : p ∈ peers)
    (d : Device w) :
    ∃ q, (savedDevice client force d peers).find (toPublicKey w p.identifier) = some q ∧
      Saved force peers p (oldPeer d (toPublicKey w p.identifier)) q := by
  obtain ⟨before, later, rfl⟩ := List.append_of_mem hp
  obtain ⟨q, found, saved⟩ := find_savedDevice_at client force before canonical nodup d
  refine ⟨q, found, saved.publicKey, saved.presharedKey, saved.persistentKeepalive,
    saved.endpoint, fun network h => ((saved.allowedIPs network).mp h).1, fun network h free => ?_⟩
  refine (saved.allowedIPs network).mpr ⟨h, fun ⟨p', hp', taken⟩ => ?_⟩
  have among : p' ∈ before ++ p :: later :=
    List.mem_append_right _ (List.mem_cons_of_mem _ hp')
  have ne : p' ≠ p := by
    intro same
    rw [List.map_append, List.nodup_append, List.map_cons, List.nodup_cons] at nodup
    exact nodup.2.1.1 (same ▸ List.mem_map_of_mem hp')
  exact free p' among ne taken

end WgPortal.WgController.LocalController
