import WgPortal.Library.Transition
import WgPortal.WgController.LocalUpdate
import WgPortal.WireGuard.Import
import WgPortal.WireGuard.PeerCreation
import WgPortal.WireGuard.Sync

/-! The identifiers of stored peers and their keys, over any sequence of creations,
updates and imports, and what these do to the peers of other users on the devices. -/

namespace WgPortal.WireGuard.PeerKeys

open Domain Library NetIP Adapters Config WgController LocalController PeerSteps PeerCreation
open ManagerProgram (issue)

variable {w : Wgtypes}

/-- The text of a key is the one that the library writes. -/
def CanonicalText (w : Wgtypes) (text : String) : Prop :=
  ∀ key, w.parseKey text = some key → w.keyText key = text

theorem CanonicalText.eq {text other : String} (canonical : CanonicalText w text)
    (canonical' : CanonicalText w other) {key : w.Key} (valid : w.parseKey text = some key)
    (valid' : w.parseKey other = some key) : text = other :=
  (canonical key valid).symm.trans (canonical' key valid')

/-- A peer is identified by its key. -/
structure Named (w : Wgtypes) (p : Peer) : Prop where
  own : p.interface.keyPair.publicKey = p.identifier
  canonical : CanonicalText w p.identifier

theorem Named.loadAddresses {p : Peer} (named : Named w p) (addresses : List Cidr) :
    Named w (Adapters.loadAddresses p addresses) := ⟨named.own, named.canonical⟩

def Keyed (w : Wgtypes) (db : Db) : Prop := ∀ id p, db.peer id = some p → Named w p

inductive Action where
  | create (ui : ContextUserInfo) (peer : Peer)
  | createMultiple (ui : ContextUserInfo) (id : InterfaceIdentifier) (r : PeerCreationRequest)
  | update (ui : ContextUserInfo) (peer : Peer)
  | importInterface (ui : ContextUserInfo) (backend : InterfaceBackend) (pi : PhysicalInterface)
      (peers : List PhysicalPeer)

namespace Action

def program (m : Manager) : Action → ManagerProgram Bool
  | create ui peer => do return (← m.createPeer ui peer).isOk
  | createMultiple ui id r => do return (← m.createMultiplePeers ui id r).isOk
  | update ui peer => do return (← m.updatePeer ui peer).isOk
  | importInterface ui backend pi peers => do
    return (← WireGuard.importInterface ui backend pi peers).isOk

/-- The user of a creation or an update, if no admin -/
def user : Action → Option ContextUserInfo
  | create ui _ | update ui _ => if ui.isAdmin then none else some ui
  | createMultiple .. | importInterface .. => none

end Action

/-- An action and what happens meanwhile -/
abbrev Label := Action × (ℕ → Circumstance)

def next (client : Client w) (m : Manager) (s : World w) (label : Label) : Option (World w) :=
  some ((label.1.program m).run client label.2 s).2

/-- No failure looks as if a record were missing, and keys that are generated are
canonical and new. -/
def Ordinary (s : World w) : Conditions w := fun op _ c =>
  (∀ err, c.fault = some err → err.is .notFound = false) ∧
    (op = .newFreshKeypair → c.fault = none →
      CanonicalText w c.keyPair.publicKey ∧ s.db.peer c.keyPair.publicKey = none)

/-- Backends list peers by their keys. -/
def Possible (client : Client w) (m : Manager) (s : World w) (label : Label) : Prop :=
  Steps client label.2 (Ordinary s) (label.1.program m) s ∧
    match label.1 with
    | .importInterface _ _ _ peers =>
      ∀ pp ∈ peers, pp.keyPair.publicKey = pp.identifier ∧ CanonicalText w pp.identifier
    | _ => True

/-- What is saved for a user takes no network from a peer of somebody else. -/
def Unrouted (s : World w) (user : Option ContextUserInfo) : Conditions w := fun op u _ =>
  match op with
  | .savePeer _ id _ updateFunc => ∀ ui, user = some ui → ∀ x, s.db.peer x.identifier = some x →
    x.userIdentifier ≠ ui.id → ∀ key, w.parseKey x.identifier = some key →
      ∀ d q, u.devices id = some d → d.find key = some q →
        ∀ pp pp', updateFunc pp = .ok pp' →
          ∀ network ∈ q.allowedIPs, network ∉ PhysicalPeer.getAllowedIPs pp'
  | _ => True

/-- The keys of the request that are stored are canonical, and a new peer is named by
its key; and a user takes no network from others. -/
def Proper (client : Client w) (m : Manager) (s : World w) (label : Label) : Prop :=
  Steps client label.2 (Unrouted s label.1.user) (label.1.program m) s ∧
    match label.1 with
    | .create ui peer => ui.isAdmin || m.cfg.core.editableKeys → Named w peer
    | .update ui peer => ui.isAdmin || m.cfg.core.editableKeys →
      CanonicalText w peer.interface.keyPair.publicKey
    | _ => True

/-- The peer with this key, on all devices -/
def Spared (key : w.Key) (devices devices' : Devices w) : Prop :=
  ∀ id, Option.Rel (fun d d' => Option.Rel WgPeer.Same (Device.find d' key) (d.find key))
    (devices id) (devices' id)

/-- The peers of others on the devices -/
def Spares (ui : ContextUserInfo) (s t : World w) : Prop :=
  ∀ x, s.db.peer x.identifier = some x → x.userIdentifier ≠ ui.id →
    ∀ key, w.parseKey x.identifier = some key → Spared key s.devices t.devices

section Db

variable {db : Db} {p : Peer}

theorem keyed_commitPeer (keyed : Keyed w db) (ui : UserIdentifier) (now : Time)
    (id : PeerIdentifier) (named : Named w p) : Keyed w (db.commitPeer ui now id p) := by
  intro other q stored
  by_cases same : other = p.identifier
  · obtain ⟨addresses, _, found⟩ := Db.exists_peer_commitPeer db ui now id p
    rw [same, found] at stored
    rw [← Option.some.inj stored]
    exact ⟨named.own, named.canonical⟩
  · rw [Db.peer_commitPeer_of_ne db ui now id p same] at stored
    exact keyed other q stored

theorem keyed_deletePeer (keyed : Keyed w db) (id : PeerIdentifier) :
    Keyed w (db.deletePeer id) := by
  intro other q stored
  by_cases same : other = id
  · rw [same, Db.peer_deletePeer_self] at stored
    cases stored
  · rw [Db.peer_deletePeer_of_ne db same] at stored
    exact keyed other q stored

theorem keyed_congr {db' : Db} (keyed : Keyed w db) (peers : db'.peers = db.peers)
    (addresses : db'.peerAddresses = db.peerAddresses) : Keyed w db' := by
  intro id q stored
  refine keyed id q ?_
  have loaded : db'.load = db.load := by
    funext row
    simp only [Db.load, Db.addressesOf, addresses]
  rw [← stored, Db.peer, Db.peer, peers, loaded]

end Db

section Devices

variable {client : Client w} {m : Manager} {iface : Interface} {p : Peer} {s : World w} {key : w.Key}
  {devices devices' devices'' : Devices w}

theorem Spared.refl (key : w.Key) (devices : Devices w) : Spared key devices devices := by
  intro id
  cases devices id with
  | none => exact .none
  | some d => exact .some (WgPeer.rel_refl _)

theorem Spared.trans (first : Spared key devices devices') (second : Spared key devices' devices'') :
    Spared key devices devices'' := by
  intro id
  have before := first id
  have after := second id
  cases original : devices id with
  | none =>
    rw [original] at before
    cases between : devices' id with
    | none => rwa [between] at after
    | some d' =>
      rw [between] at before
      cases before
  | some d =>
    rw [original] at before
    cases between : devices' id with
    | none =>
      rw [between] at before
      cases before
    | some d' =>
      rw [between] at before after
      cases before with
      | some same =>
        cases final : devices'' id with
        | none =>
          rw [final] at after
          cases after
        | some d'' =>
          rw [final] at after
          cases after with
          | some same' => exact .some (WgPeer.rel_trans same' same)

theorem spared_update {deviceId : InterfaceIdentifier} {d d' : Device w}
    (stored : devices deviceId = some d) (same : Option.Rel WgPeer.Same (d'.find key) (d.find key)) :
    Spared key devices (Function.update devices deviceId (some d')) := by
  intro id
  by_cases here : id = deviceId
  · rw [here, stored, Function.update_self]
    exact .some same
  · rw [Function.update_of_ne here]
    exact Spared.refl key devices id

theorem find_deleted_of_ne (client : Client w) (d : Device w) {id : PeerIdentifier}
    (other : key ≠ toPublicKey w id) : Option.Rel WgPeer.Same
      ((client.configurePeer d (deletePeerConfig id)).find key) (d.find key) := by
  refine client.find_of_same ?_
  have remove : (deletePeerConfig (w := w) id).remove = true := rfl
  have name : (deletePeerConfig (w := w) id).publicKey = toPublicKey w id := rfl
  simp only [PeerConfig.outcome, remove, name, other, if_true, if_false]

theorem released_of_disjoint {c : PeerConfig w} {found : Option (WgPeer w)}
    (disjoint : ∀ q, found = some q → ∀ network ∈ q.allowedIPs, network ∉ c.allowedIPs) :
    found.map c.released = found := by
  cases found with
  | none => rfl
  | some q =>
    have kept : q.allowedIPs.filter (· ∉ c.allowedIPs) = q.allowedIPs :=
      List.filter_eq_self.mpr fun network mem => decide_eq_true (disjoint q rfl network mem)
    simp only [Option.map_some, PeerConfig.released, kept]

/-- Saving a peer that is named by its key leaves others with other networks alone. -/
theorem spared_saved (own : p.interface.keyPair.publicKey = p.identifier)
    (served : Served m w s.db s.devices p iface)
    (other : ∀ saved, w.parseKey p.identifier = some saved → key ≠ saved)
    (disjoint : ∀ d q, s.devices p.interfaceIdentifier = some d → d.find key = some q →
      ∀ network ∈ q.allowedIPs,
        network ∉ (mergedAllowedIPs p m.cfg.core.forceClientIPAsAllowedIP).map Network.of) :
    Spared key s.devices (saved client m iface p s.devices).2 := by
  rw [saved]
  split
  · rename_i backend
    obtain ⟨k, valid⟩ := Option.isSome_iff_exists.mp (served.key backend)
    obtain ⟨d, stored⟩ := Option.isSome_iff_exists.mp (served.device backend)
    have ne : key ≠ toPublicKey w p.identifier := by
      rw [toPublicKey, valid]
      exact other k valid
    rw [savePeer_merge m.cfg.core.forceClientIPAsAllowedIP stored valid]
    refine spared_update stored ?_
    cases disabled : p.isDisabled with
    | true =>
      rw [savedConfig, if_pos disabled]
      refine WgPeer.rel_trans (find_deleted_of_ne client _ ne) ?_
      exact LocalUpdate.find_created_of_ne client d (other k valid)
    | false =>
      have moved := find_saved_other client (d := d) m.cfg.core.forceClientIPAsAllowedIP disabled
        own valid (other k valid)
      have networks : (savedConfig w p m.cfg.core.forceClientIPAsAllowedIP).allowedIPs =
          (mergedAllowedIPs p m.cfg.core.forceClientIPAsAllowedIP).map Network.of := by
        simp [savedConfig, disabled]
      rwa [released_of_disjoint fun q found => networks ▸ disjoint d q stored found] at moved
  · exact Spared.refl key s.devices

theorem spared_removed (served : Served m w s.db s.devices p iface)
    (other : ∀ deleted, w.parseKey p.identifier = some deleted → key ≠ deleted) :
    Spared key s.devices (removed client m iface p s.devices).2 := by
  rw [removed]
  split
  · rename_i backend
    obtain ⟨k, valid⟩ := Option.isSome_iff_exists.mp (served.key backend)
    obtain ⟨d, stored⟩ := Option.isSome_iff_exists.mp (served.device backend)
    have ne : key ≠ toPublicKey w p.identifier := by
      rw [toPublicKey, valid]
      exact other k valid
    rw [deletePeer_eq stored valid]
    exact spared_update stored (find_deleted_of_ne client d ne)
  · exact Spared.refl key s.devices

end Devices

section Outcomes

variable {client : Client w} {can : Conditions w} {m : Manager} {ui : ContextUserInfo}
  {q : Peer} {s t u : World w}

theorem keyed_of_saved {α : Type} {result : Peer → α} {r : Except Error α}
    (keyed : Keyed w s.db) (named : Named w q)
    (outcome : SaveOutcome result client can m ui q s r t) : Keyed w t.db := by
  cases outcome with
  | done served db devices saving =>
    rw [db]
    exact keyed_commitPeer keyed _ _ _ ⟨named.own, named.canonical⟩
  | refused same why => exact same.db ▸ keyed
  | stranded served stranded => exact stranded.db ▸ keyed

theorem keyed_of_tried (keyed : Keyed w s.db) (tried : Tried client can m ui q s t) :
    Keyed w t.db := tried.db ▸ keyed

theorem keyed_of_created {r : Except Error Peer} (keyed : Keyed w s.db) (named : Named w q)
    (outcome : NewOutcome client can m ui q s r t) : Keyed w t.db := by
  cases outcome with
  | saved tried outcome =>
    exact keyed_of_saved (keyed_of_tried keyed tried) (named.loadAddresses _) outcome
  | failed tried => exact keyed_of_tried keyed tried

theorem keyed_of_updated {existing : Peer} {r : Except Error Peer} (keyed : Keyed w s.db)
    (named : q.identifier = existing.identifier)
    (canonical : CanonicalText w q.interface.keyPair.publicKey)
    (outcome : UpdateOutcome client can m ui existing q s r t) : Keyed w t.db := by
  cases outcome with
  | refused same why => exact same.db ▸ keyed
  | updated own outcome =>
    have own' : q.interface.keyPair.publicKey = q.identifier := own.trans named.symm
    exact keyed_of_saved keyed ⟨own', own' ▸ canonical⟩ outcome
  | undeleted other unknown outcome =>
    have same := outcome.db
    exact same ▸ keyed
  | replaced other unknown deleted outcome =>
    rename_i u
    have after : Keyed w u.db := by
      rw [deleted.db]
      exact keyed_deletePeer keyed existing.identifier
    exact keyed_of_saved after ⟨rfl, canonical⟩ outcome

/-- A peer of somebody else, when a call of the user starts -/
structure Foreign (w : Wgtypes) (ui : ContextUserInfo) (s : World w) (x : Peer) (key : w.Key) :
    Prop where
  stored : s.db.peer x.identifier = some x
  owner : x.userIdentifier ≠ ui.id
  valid : w.parseKey x.identifier = some key
  canonical : CanonicalText w x.identifier

/-- The circumstances of a call of the user -/
def Meeting (ui : ContextUserInfo) (s : World w) : Conditions w := fun op u c =>
  Ordinary s op u c ∧ Unrouted s (some ui) op u c

theorem Foreign.other {s₀ : World w} {x : Peer} {key : w.Key} (foreign : Foreign w ui s₀ x key)
    (ne : x.identifier ≠ q.identifier) (canonical : CanonicalText w q.identifier) :
    ∀ saved, w.parseKey q.identifier = some saved → key ≠ saved := by
  rintro saved valid rfl
  exact ne (foreign.canonical.eq canonical foreign.valid valid)

theorem spared_of_saved {α : Type} {result : Peer → α} {r : Except Error α} {s₀ : World w} {x : Peer}
    {key : w.Key} (foreign : Foreign w ui s₀ x key) (named : Named w q)
    (ne : x.identifier ≠ q.identifier)
    (outcome : SaveOutcome result client (Meeting ui s₀) m ui q s r t) :
    Spared key s.devices t.devices := by
  have written : ∀ iface, Served m w s.db s.devices q iface →
      Saving (Meeting ui s₀) m iface q s →
        Spared key s.devices (saved client m iface q s.devices).2 := by
    intro iface served ⟨c, _, unrouted⟩
    refine spared_saved named.own served (foreign.other ne named.canonical) ?_
    intro d found stored here network mem
    exact unrouted ui rfl x foreign.stored foreign.owner key foreign.valid d found stored here
      PhysicalPeer.zero _ rfl network mem
  cases outcome with
  | done served db devices saving => exact devices ▸ written _ served saving
  | refused same why => exact same.devices ▸ Spared.refl key s.devices
  | stranded served stranded saving => exact stranded.devices ▸ written _ served saving

theorem spared_of_tried {s₀ : World w} {x : Peer} {key : w.Key} (foreign : Foreign w ui s₀ x key)
    (named : Named w q) (ne : x.identifier ≠ q.identifier)
    (tried : Tried client (Meeting ui s₀) m ui q s t) : Spared key s.devices t.devices := by
  induction tried with
  | start same => exact same.devices ▸ Spared.refl key s.devices
  | again tried served stranded saving ih =>
    rename_i iface base ips u t
    have ne' : x.identifier ≠ (loadAddresses q ips).identifier := ne
    have outcome : SaveOutcome id client (Meeting ui s₀) m ui (loadAddresses q ips) u
        (.error .notFound) t := .stranded served stranded saving
    exact ih.trans (spared_of_saved foreign (named.loadAddresses ips) ne' outcome)

theorem spared_of_created {r : Except Error Peer} {s₀ : World w} {x : Peer} {key : w.Key}
    (foreign : Foreign w ui s₀ x key) (named : Named w q) (ne : x.identifier ≠ q.identifier)
    (outcome : NewOutcome client (Meeting ui s₀) m ui q s r t) : Spared key s.devices t.devices := by
  cases outcome with
  | saved tried outcome =>
    rename_i ips u p
    have ne' : x.identifier ≠ (loadAddresses q ips).identifier := ne
    exact (spared_of_tried foreign named ne tried).trans
      (spared_of_saved foreign (named.loadAddresses ips) ne' outcome)
  | failed tried => exact spared_of_tried foreign named ne tried

theorem spared_of_deleted {existing : Peer} {r : Except Error Unit} {x : Peer} {key : w.Key}
    (foreign : Foreign w ui s x key) (stored : s.db.peer existing.identifier = some existing)
    (named : Named w existing) (ne : x.identifier ≠ existing.identifier)
    (outcome : DeleteOutcome client can m ui existing.identifier s r t) :
    Spared key s.devices t.devices := by
  cases outcome with
  | done found served db devices =>
    have same := Option.some.inj (found.symm.trans stored)
    subst same
    rw [devices]
    exact spared_removed served (foreign.other ne named.canonical)
  | refused same why => exact same.devices ▸ Spared.refl key s.devices
  | stranded found served stranded =>
    have same := Option.some.inj (found.symm.trans stored)
    subst same
    rw [stranded.devices]
    exact spared_removed served (foreign.other ne named.canonical)

theorem not_misread (s u : World w) (ui : ContextUserInfo) : ¬ Misread (Meeting ui s) u :=
  not_misread_of_legible (fun _ _ _ err meets => meets.1.1 err) u

theorem spared_of_updated {existing : Peer} {r : Except Error Peer} {x : Peer} {key : w.Key}
    (foreign : Foreign w ui s x key) (stored : s.db.peer existing.identifier = some existing)
    (named : Named w existing) (identifier : q.identifier = existing.identifier)
    (canonical : CanonicalText w q.interface.keyPair.publicKey)
    (ne : x.identifier ≠ existing.identifier)
    (outcome : UpdateOutcome client (Meeting ui s) m ui existing q s r t) :
    Spared key s.devices t.devices := by
  cases outcome with
  | refused same why => exact same.devices ▸ Spared.refl key s.devices
  | updated own outcome =>
    have own' : q.interface.keyPair.publicKey = q.identifier := own.trans identifier.symm
    exact spared_of_saved foreign ⟨own', own' ▸ canonical⟩ (identifier ▸ ne) outcome
  | undeleted other unknown outcome => exact spared_of_deleted foreign stored named ne outcome
  | replaced other unknown deleted outcome =>
    have free := unknown.resolve_right (not_misread s s ui)
    have ne' : x.identifier ≠ q.interface.keyPair.publicKey := by
      intro same
      rw [← same, foreign.stored] at free
      cases free
    exact (spared_of_deleted foreign stored named ne deleted).trans
      (spared_of_saved foreign ⟨rfl, canonical⟩ ne' outcome)

end Outcomes

section Calls

variable {client : Client w} {can : Conditions w} {m : Manager} {ui : ContextUserInfo}
  {peer q : Peer} {s t u : World w}

theorem named_of_prepared (ordinary : ∀ op u c, can op u c → Ordinary s op u c) {iface : Interface}
    (prepared : Prepared can ui t iface q) :
    Named w q ∧ s.db.peer q.identifier = none := by
  obtain ⟨ips, kp, pk, createdAt, updatedAt, ⟨u, c, _, here, faultless, rfl⟩, rfl⟩ := prepared
  obtain ⟨canonical, new⟩ := (ordinary _ _ _ here).2 rfl faultless
  obtain ⟨⟨identifier, keyPair, _⟩, _⟩ :=
    Manager.freshPeer_fields ui iface ips c.keyPair pk createdAt updatedAt
  refine ⟨⟨?_, ?_⟩, ?_⟩
  · rw [keyPair, identifier]
  · rw [identifier]
    exact canonical
  · rw [identifier]
    exact new

/-- What is saved for a request is named by its key, and new. -/
theorem named_of_candidate (ordinary : ∀ op u c, can op u c → Ordinary s op u c)
    (proper : ui.isAdmin || m.cfg.core.editableKeys → Named w peer)
    (unknown : s.db.peer peer.identifier = none) (candidate : Candidate can m ui s peer q) :
    Named w q ∧ s.db.peer q.identifier = none := by
  unfold Candidate at candidate
  cases admin : ui.isAdmin with
  | true =>
    simp only [admin, if_true] at candidate
    rw [candidate]
    exact ⟨proper (by rw [admin]; rfl), unknown⟩
  | false =>
    simp only [admin, Bool.false_eq_true, if_false] at candidate
    obtain ⟨iface, prepared, _, proposal, rfl⟩ := candidate
    obtain ⟨identifier, keyPair⟩ := overwriteUserEditableFields_keys prepared peer m.cfg
    cases editable : m.cfg.core.editableKeys with
    | true =>
      simp only [editable, if_true] at identifier keyPair
      have named := proper (by rw [editable]; exact Bool.or_true _)
      rw [identifier]
      exact ⟨⟨by rw [identifier, keyPair, named.own], identifier ▸ named.canonical⟩, unknown⟩
    | false =>
      simp only [editable, Bool.false_eq_true, if_false] at identifier keyPair
      obtain ⟨named, new⟩ := named_of_prepared ordinary proposal
      rw [identifier]
      exact ⟨⟨by rw [identifier, keyPair, named.own], identifier ▸ named.canonical⟩, new⟩

theorem canonical_requested {existing : Peer} (named : Named w existing)
    (proper : ui.isAdmin || m.cfg.core.editableKeys →
      CanonicalText w peer.interface.keyPair.publicKey) :
    CanonicalText w (requested m ui existing peer).interface.keyPair.publicKey := by
  unfold requested
  cases admin : ui.isAdmin with
  | true => exact proper (by rw [admin]; rfl)
  | false =>
    obtain ⟨_, keyPair⟩ := overwriteUserEditableFields_keys existing peer m.cfg
    simp only [Bool.false_eq_true, if_false]
    rw [keyPair]
    cases editable : m.cfg.core.editableKeys with
    | true => exact proper (by rw [editable]; exact Bool.or_true _)
    | false =>
      simp only [Bool.false_eq_true, if_false]
      rw [named.own]
      exact named.canonical

theorem misread_of_ordinary (ordinary : ∀ op u c, can op u c → Ordinary s op u c) :
    ¬ Misread can t :=
  not_misread_of_legible (fun op u c err here => (ordinary op u c here).1 err) t

theorem always_create_keyed (keyed : Keyed w s.db)
    (proper : ui.isAdmin || m.cfg.core.editableKeys → Named w peer) :
    (m.createPeer ui peer).Always (Turn client (Ordinary s)) s fun _ t => Keyed w t.db := by
  have ordinary : ∀ op u c, Ordinary s op u c → Ordinary s op u c := fun _ _ _ here => here
  refine (always_createPeer m ui peer s).mono fun r t ended => ?_
  cases ended with
  | refused same => exact same.db ▸ keyed
  | attempted unknown candidate outcome =>
    have free := unknown.resolve_right (misread_of_ordinary ordinary)
    exact keyed_of_created keyed (named_of_candidate ordinary proper free candidate).1 outcome

theorem always_create_spares (keyed : Keyed w s.db)
    (proper : ui.isAdmin || m.cfg.core.editableKeys → Named w peer) :
    (m.createPeer ui peer).Always (Turn client (Meeting ui s)) s fun _ t => Spares ui s t := by
  have ordinary : ∀ op u c, Meeting ui s op u c → Ordinary s op u c := fun _ _ _ here => here.1
  refine (always_createPeer m ui peer s).mono fun r t ended => ?_
  intro x stored owner key valid
  have foreign : Foreign w ui s x key := ⟨stored, owner, valid, (keyed _ x stored).canonical⟩
  cases ended with
  | refused same => exact same.devices ▸ Spared.refl key s.devices
  | attempted unknown candidate outcome =>
    have free := unknown.resolve_right (misread_of_ordinary ordinary)
    obtain ⟨named, new⟩ := named_of_candidate ordinary proper free candidate
    refine spared_of_created foreign named ?_ outcome
    intro same
    rw [← same, stored] at new
    cases new

theorem always_update_keyed (keyed : Keyed w s.db)
    (proper : ui.isAdmin || m.cfg.core.editableKeys →
      CanonicalText w peer.interface.keyPair.publicKey) :
    (m.updatePeer ui peer).Always (Turn client can) s fun _ t => Keyed w t.db := by
  refine (always_updatePeer m ui peer s).mono fun r t ended => ?_
  rcases ended with ⟨err, _, same, _⟩ | ⟨existing, stored, _, outcome⟩
  · exact same.db ▸ keyed
  · have owned : existing.identifier = peer.identifier := Db.identifier_of_peer stored
    exact keyed_of_updated keyed (requested_identifier m ui existing peer owned.symm)
      (canonical_requested (keyed _ existing stored) proper) outcome

theorem always_update_spares (user : ui.isAdmin = false) (keyed : Keyed w s.db)
    (proper : ui.isAdmin || m.cfg.core.editableKeys →
      CanonicalText w peer.interface.keyPair.publicKey) :
    (m.updatePeer ui peer).Always (Turn client (Meeting ui s)) s fun _ t => Spares ui s t := by
  refine (always_updatePeer m ui peer s).mono fun r t ended => ?_
  intro x found owner key valid
  rcases ended with ⟨err, _, same, _⟩ | ⟨existing, stored, allowed, outcome⟩
  · exact same.devices ▸ Spared.refl key s.devices
  · have owned : existing.identifier = peer.identifier := Db.identifier_of_peer stored
    have foreign : Foreign w ui s x key := ⟨found, owner, valid, (keyed _ x found).canonical⟩
    have mine : ui.id = existing.userIdentifier := by
      by_contra other
      have denied := allowed.1
      simp [validateUserAccessRights, user, other] at denied
    have ne : x.identifier ≠ existing.identifier := by
      intro same
      rw [owned] at same
      rw [same, stored] at found
      exact owner (Option.some.inj found ▸ mine.symm)
    exact spared_of_updated foreign (owned ▸ stored) (keyed _ existing stored)
      (requested_identifier m ui existing peer owned.symm)
      (canonical_requested (keyed _ existing stored) proper) ne outcome

theorem always_createOneOfMultiple (id : InterfaceIdentifier) (namePrefix : String)
    (userId : UserIdentifier) (keyed : Keyed w t.db) :
    (m.createOneOfMultiple ui id namePrefix userId).Always (Turn client (Ordinary s)) t
      fun _ u => Keyed w u.db := by
  have ordinary : ∀ op u c, Ordinary s op u c → Ordinary s op u c := fun _ _ _ here => here
  unfold Manager.createOneOfMultiple
  refine (always_preparePeer m ui id t).bind fun r u ⟨same, prepared⟩ => ?_
  have keyed' : Keyed w u.db := same.db ▸ keyed
  cases r with
  | error err => exact keyed'
  | ok proposal =>
    obtain ⟨iface, _, proposed⟩ := prepared proposal rfl
    have named := (named_of_prepared ordinary proposed).1
    simp only
    refine (always_validatePeerCreation m ui _ u).bind fun r v same' => ?_
    have keyed'' : Keyed w v.db := same'.db ▸ keyed'
    cases r with
    | error err => exact keyed''
    | ok _ =>
      refine (always_saveFirst _ id Manager.maxRetries _ (Untouched.refl v)).bind
        fun r z outcome => ?_
      have after : Keyed w z.db := by
        refine keyed_of_created keyed'' ?_ outcome
        split <;> exact ⟨named.own, named.canonical⟩
      cases r with
      | error err => exact after
      | ok saved =>
        intro _ v first _ v' second
        have published := (first.reading trivial).trans (second.reading trivial)
        have kept : Keyed w v'.db := published.db ▸ after
        exact kept

theorem always_createAll (id : InterfaceIdentifier) (namePrefix : String)
    (userIds : List UserIdentifier) (keyed : Keyed w t.db) :
    (m.createAll ui id namePrefix userIds).Always (Turn client (Ordinary s)) t
      fun _ u => Keyed w u.db := by
  induction userIds generalizing t with
  | nil => exact keyed
  | cons userId userIds ih =>
    unfold Manager.createAll
    refine (always_createOneOfMultiple id namePrefix userId keyed).bind fun r u after => ?_
    cases r with
    | error err => exact after
    | ok peer =>
      refine (ih after).bind fun r v rest => ?_
      cases r <;> exact rest

/-- The operations of an import write only peers that are named by their keys. -/
def Importing (w : Wgtypes) : ManagerOp → Prop
  | .repo (.commitPeer _ _ p) => Named w p
  | .repo (.commitInterface ..) => True
  | op => Reading op

theorem keyed_of_importing {op : ManagerOp} {answer : op.Res} (importing : Importing w op)
    (keyed : Keyed w s.db) (turn : Turn client can op s answer t) : Keyed w t.db := by
  have reading : Reading op → Keyed w t.db := fun reading => (turn.reading reading).db ▸ keyed
  cases op with
  | repo op =>
    cases op with
    | commitPeer ui id p =>
      rcases turn.repo with ⟨_, _, rfl, _⟩ | ⟨now, _, rfl⟩
      · exact keyed
      · exact keyed_commitPeer keyed ui now id importing
    | commitInterface ui iface =>
      rcases turn.repo with ⟨_, _, rfl, _⟩ | ⟨now, _, rfl⟩
      · exact keyed
      · exact keyed_congr keyed rfl rfl
    | _ => exact reading importing
  | _ => exact reading importing

theorem convertPhysicalPeer_keys (converted : Time) (pp : PhysicalPeer) :
    (convertPhysicalPeer converted pp).identifier = pp.identifier ∧
      (convertPhysicalPeer converted pp).interface.keyPair = pp.keyPair := by
  unfold convertPhysicalPeer
  cases pp.backendExtras with
  | none => exact ⟨rfl, rfl⟩
  | some extras =>
    cases extras with
    | mikrotik extras =>
      by_cases source : pp.importSource = controllerTypeMikrotik <;>
        by_cases endpoint : extras.clientEndpoint = "" <;>
          cases disabled : extras.disabled <;> simp [source, endpoint, disabled]
    | «local» extras =>
      simp only
      split <;> exact ⟨rfl, rfl⟩

theorem uses_repoSavePeer (ui : ContextUserInfo) (id : PeerIdentifier) {p : Peer}
    (named : Named w p) :
    (repoSavePeer ui id fun _ => return .ok p).Uses (Importing w) := by
  unfold repoSavePeer
  refine ⟨trivial, fun answer => ?_⟩
  cases answer with
  | error err => trivial
  | ok row => exact ⟨named, fun _ => trivial⟩

theorem uses_importPeer (ui : ContextUserInfo) (iface : Interface) {pp : PhysicalPeer}
    (own : pp.keyPair.publicKey = pp.identifier) (canonical : CanonicalText w pp.identifier) :
    (importPeer ui iface pp).Uses (Importing w) := by
  unfold importPeer
  refine ⟨trivial, fun now => ⟨trivial, fun converted => ?_⟩⟩
  obtain ⟨identifier, keyPair⟩ := convertPhysicalPeer_keys converted pp
  have named : Named w (importedPeer iface now converted pp) := by
    refine ⟨?_, ?_⟩
    · change (convertPhysicalPeer converted pp).interface.keyPair.publicKey =
        (convertPhysicalPeer converted pp).identifier
      rw [keyPair, identifier, own]
    · change CanonicalText w (convertPhysicalPeer converted pp).identifier
      rw [identifier]
      exact canonical
  refine (uses_repoSavePeer ui _ named).bind fun r => ?_
  cases r <;> trivial

theorem uses_importPeers (ui : ContextUserInfo) (iface : Interface) {peers : List PhysicalPeer}
    (named : ∀ pp ∈ peers, pp.keyPair.publicKey = pp.identifier ∧ CanonicalText w pp.identifier) :
    (importPeers ui iface peers).Uses (Importing w) := by
  induction peers with
  | nil => trivial
  | cons pp peers ih =>
    obtain ⟨own, canonical⟩ := named pp List.mem_cons_self
    unfold importPeers
    refine (uses_importPeer ui iface own canonical).bind fun r => ?_
    cases r with
    | error err => trivial
    | ok _ => exact ih fun pp mem => named pp (List.mem_cons_of_mem _ mem)

theorem uses_importInterface (ui : ContextUserInfo) (backend : InterfaceBackend)
    (pi : PhysicalInterface) {peers : List PhysicalPeer}
    (named : ∀ pp ∈ peers, pp.keyPair.publicKey = pp.identifier ∧ CanonicalText w pp.identifier) :
    (importInterface ui backend pi peers).Uses (Importing w) := by
  unfold importInterface
  refine Program.Uses.bind ⟨trivial, fun _ => trivial⟩ fun now => ?_
  refine Program.Uses.bind ⟨trivial, fun _ => trivial⟩ fun converted => ?_
  refine Program.Uses.bind ⟨trivial, fun _ => trivial⟩ fun answer => ?_
  cases answer with
  | ok _ => trivial
  | error err =>
    simp only
    split
    · trivial
    · refine Program.Uses.bind ⟨trivial, fun row => ?_⟩ fun r => ?_
      · cases row with
        | error err => trivial
        | ok row => exact ⟨trivial, fun _ => trivial⟩
      · cases r with
        | error err => trivial
        | ok _ => exact uses_importPeers ui _ named

end Calls

/-- What one step keeps -/
theorem keyed_next {client : Client w} {m : Manager} {s t : World w} {label : Label}
    (keyed : Keyed w s.db) (possible : Possible client m s label) (proper : Proper client m s label)
    (step : next client m s label = some t) : Keyed w t.db := by
  rw [next] at step
  rw [← Option.some.inj step]
  obtain ⟨action, circumstances⟩ := label
  obtain ⟨steps, listed⟩ := possible
  cases action with
  | create ui peer =>
    have always : ((Action.create ui peer).program m).Always (Turn client (Ordinary s)) s
        fun _ t => Keyed w t.db := (always_create_keyed keyed proper.2).bind fun _ _ after => after
    exact run_of_steps always steps
  | createMultiple ui id r =>
    have always : ((Action.createMultiple ui id r).program m).Always (Turn client (Ordinary s)) s
        fun _ t => Keyed w t.db := by
      refine Program.Always.bind ?_ fun _ _ after => after
      unfold Manager.createMultiplePeers
      split
      · exact keyed
      · exact always_createAll id r.namePrefix r.userIdentifiers keyed
    exact run_of_steps always steps
  | update ui peer =>
    have always : ((Action.update ui peer).program m).Always (Turn client (Ordinary s)) s
        fun _ t => Keyed w t.db := (always_update_keyed keyed proper.2).bind fun _ _ after => after
    exact run_of_steps always steps
  | importInterface ui backend pi peers =>
    have uses : ((Action.importInterface ui backend pi peers).program m).Uses (Importing w) :=
      (uses_importInterface ui backend pi listed).bind fun _ => trivial
    have always : ((Action.importInterface ui backend pi peers).program m).Always
        (Turn client (Ordinary s)) s fun _ t => Keyed w t.db :=
      uses.always (fun _ _ _ _ importing keyed turn => keyed_of_importing importing keyed turn) keyed
    exact run_of_steps always steps

/-- What the step of a user does to others -/
theorem spares_next {client : Client w} {m : Manager} {s t : World w} {label : Label}
    {ui : ContextUserInfo} (keyed : Keyed w s.db) (possible : Possible client m s label)
    (proper : Proper client m s label) (user : label.1.user = some ui)
    (step : next client m s label = some t) : Spares ui s t := by
  rw [next] at step
  rw [← Option.some.inj step]
  obtain ⟨action, circumstances⟩ := label
  have steps : Steps client circumstances (Meeting ui s) (action.program m) s := by
    have unrouted := proper.1
    rw [user] at unrouted
    exact possible.1.and unrouted
  cases action with
  | create ui' peer =>
    have user' : ui'.isAdmin = false ∧ ui' = ui := by
      cases admin : ui'.isAdmin <;> simp [Action.user, admin] at user
      exact ⟨rfl, user⟩
    obtain ⟨_, rfl⟩ := user'
    have always : ((Action.create ui' peer).program m).Always (Turn client (Meeting ui' s)) s
        fun _ t => Spares ui' s t := (always_create_spares keyed proper.2).bind fun _ _ after => after
    exact run_of_steps always steps
  | update ui' peer =>
    have user' : ui'.isAdmin = false ∧ ui' = ui := by
      cases admin : ui'.isAdmin <;> simp [Action.user, admin] at user
      exact ⟨rfl, user⟩
    obtain ⟨notAdmin, rfl⟩ := user'
    have always : ((Action.update ui' peer).program m).Always (Turn client (Meeting ui' s)) s
        fun _ t => Spares ui' s t :=
      (always_update_spares notAdmin keyed proper.2).bind fun _ _ after => after
    exact run_of_steps always steps
  | createMultiple ui' id r => cases user
  | importInterface ui' backend pi peers => cases user


/-- In every run from no stored peers whose requests are proper, every stored peer is
identified by its key, and no step of a user touches a peer of somebody else on a
device. -/
theorem guarded_run_keyed (client : Client w) (m : Manager) {world s : World w} {labels : List Label}
    (empty : world.db.peers.rows = [])
    (guarded : Guarded (next client m)
      (fun s label => Possible client m s label ∧ Proper client m s label) world labels)
    (run : runFrom (next client m) world labels = some s) :
    (∀ id p, s.db.peer id = some p → p.identifier = p.interface.keyPair.publicKey) ∧
      ∀ label ui t, Possible client m s label → Proper client m s label →
        label.1.user = some ui → next client m s label = some t → Spares ui s t := by
  have start : Keyed w world.db := by
    intro id p stored
    obtain ⟨row, found, _⟩ := Db.find_of_peer stored
    have listed := Table.mem_of_find found
    rw [empty] at listed
    cases listed
  have step : ∀ s label t, Keyed w s.db → Possible client m s label ∧ Proper client m s label →
      next client m s label = some t → Keyed w t.db :=
    fun s label t keyed guard taken => keyed_next keyed guard.1 guard.2 taken
  have keyed : Keyed w s.db := run_invariant step guarded run start
  refine ⟨fun id p stored => (keyed id p stored).own.symm, ?_⟩
  intro label ui t possible proper user taken
  exact spares_next keyed possible proper user taken

theorem canonicalText_plain (text : String) : CanonicalText plainTypes text := by
  intro key valid
  have parsed : (if h : isKeyText text then some (⟨text, h⟩ : plainTypes.Key) else none) =
      some key := valid
  split at parsed
  · exact (Option.some.inj parsed) ▸ rfl
  · cases parsed

def selfProvisioning : Manager :=
  ⟨{ masterConfig with core := { masterConfig.core with selfProvisioningAllowed := true } }, [],
    false⟩

/-- A server whose device has no peer yet -/
def noPeers : World plainTypes :=
  let world := oneInterface Device.empty []
  { world with
    db := { world.db with
      interfaces := Table.empty.upsert { Interface.zero with identifier := "wg0", type := .server } } }

def created : Label :=
  (.create admin { enabledPeer key with userIdentifier := "owner" }, calm)

def afterwards (s : World plainTypes) (label : Label) : World plainTypes :=
  (next (plainClient plainTypes) selfProvisioning s label).getD s

theorem created_keyed : ∃ p, (afterwards noPeers created).db.peer key = some p ∧
    p.identifier = p.interface.keyPair.publicKey := by
  have ordinary : ∀ op u n, Ordinary noPeers op u (calm n) := by
    refine fun op u n => ⟨fun err fault => ?_, fun _ _ => ⟨canonicalText_plain "", rfl⟩⟩
    cases fault
  have unrouted : ∀ op u n, Unrouted noPeers none op u (calm n) := by
    intro op u n
    cases op with
    | savePeer => exact fun ui user => by cases user
    | _ => trivial
  have possible : Possible (plainClient plainTypes) selfProvisioning noPeers created :=
    ⟨steps_of_all ordinary _ noPeers, trivial⟩
  have proper : Proper (plainClient plainTypes) selfProvisioning noPeers created :=
    ⟨steps_of_all unrouted _ noPeers, fun _ => ⟨rfl, canonicalText_plain key⟩⟩
  have guarded : Guarded (next (plainClient plainTypes) selfProvisioning)
      (fun s label => Possible (plainClient plainTypes) selfProvisioning s label ∧
        Proper (plainClient plainTypes) selfProvisioning s label) noPeers [created] :=
    ⟨⟨possible, proper⟩, fun _ _ => trivial⟩
  have keyed := (guarded_run_keyed (plainClient plainTypes) selfProvisioning rfl guarded rfl).1
  have isStored : ((afterwards noPeers created).db.peer key).isSome := by decide +kernel
  obtain ⟨p, stored⟩ := Option.isSome_iff_exists.mp isStored
  exact ⟨p, stored, keyed key p stored⟩

def otherKey : PeerIdentifier := "AAAAAAAAAAAAAAAAAAAAAAAAAAAAAAAAAAAAAAAAAAI="

/-- A user names the peer by an own key, but gives the public key of the other peer. -/
def stolen : Label :=
  (.create ⟨"user", false⟩
    { enabledPeer otherKey with
      userIdentifier := "user"
      presharedKey := otherKey
      interface := { (enabledPeer otherKey).interface with keyPair := ⟨"", key⟩ } }, calm)

/-- The peer is stored under another identifier than its key, and the peer of the
owner gets another preshared key on the device. -/
theorem stolen_not_keyed :
    (∃ p, (afterwards (afterwards noPeers created) stolen).db.peer otherKey = some p ∧
      p.identifier ≠ p.interface.keyPair.publicKey) ∧
    ¬ Spares ⟨"user", false⟩ (afterwards noPeers created)
      (afterwards (afterwards noPeers created) stolen) := by
  let s := afterwards noPeers created
  have misnamed : ((afterwards s stolen).db.peer otherKey).map
      (fun p => (p.identifier, p.interface.keyPair.publicKey)) = some (otherKey, key) := by
    decide +kernel
  have owned : (s.db.peer key).map (fun x => (x.identifier, x.userIdentifier)) =
      some (key, "owner") := by decide +kernel
  have before : (s.devices "wg0").map (fun d => (d.find (toPublicKey plainTypes key)).map
      (·.presharedKey)) = some (some plainTypes.zeroKey) := by decide +kernel
  have after : ((afterwards s stolen).devices "wg0").map
      (fun d => (d.find (toPublicKey plainTypes key)).map (·.presharedKey)) =
        some (some (toPublicKey plainTypes otherKey)) := by decide +kernel
  constructor
  · obtain ⟨p, stored, keys⟩ := Option.map_eq_some_iff.mp misnamed
    refine ⟨p, stored, ?_⟩
    rw [(Prod.mk.inj keys).1, (Prod.mk.inj keys).2]
    decide
  · intro spares
    obtain ⟨x, stored, fields⟩ := Option.map_eq_some_iff.mp owned
    obtain ⟨identifier, owner⟩ := Prod.mk.inj fields
    have valid : plainTypes.parseKey x.identifier = some (toPublicKey plainTypes key) := by
      rw [identifier]
      decide
    have kept := spares x (identifier ▸ stored) (by rw [owner]; decide) _ valid "wg0"
    obtain ⟨d, device, found⟩ := Option.map_eq_some_iff.mp before
    obtain ⟨d', device', found'⟩ := Option.map_eq_some_iff.mp after
    obtain ⟨q, here, zero⟩ := Option.map_eq_some_iff.mp found
    obtain ⟨q', here', changed⟩ := Option.map_eq_some_iff.mp found'
    rw [device, device'] at kept
    cases kept with
    | some rel =>
      rw [here, here'] at rel
      cases rel with
      | some same =>
        have equal := same.presharedKey
        rw [zero, changed] at equal
        exact absurd equal (by decide)

end WgPortal.WireGuard.PeerKeys
