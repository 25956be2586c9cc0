import WgPortal.WireGuard.PeerCreation
import WgPortal.WgController.SavedPeers
import WgPortal.WireGuard.Sync

/-! What is left of the stored peers and of the devices after a peer was created
or updated, when the call succeeds and when it fails on the way. -/

namespace WgPortal.WireGuard.PeerWrites

open Domain Library NetIP Adapters Config WgController LocalController PeerSteps PeerCreation

variable {w : Wgtypes}

inductive Call where
  | create (peer : Peer)
  | update (peer : Peer)

def Call.program (m : Manager) (ui : ContextUserInfo) : Call → ManagerProgram (Except Error Peer)
  | create peer => m.createPeer ui peer
  | update peer => m.updatePeer ui peer

/-- The same peers on the same devices -/
def SameDevices (devices devices' : Devices w) : Prop :=
  ∀ id, Option.Rel (fun d d' => ∀ key, Option.Rel WgPeer.Same (Device.find d key) (d'.find key))
    (devices id) (devices' id)

/-- The stored peers and those of the devices are as before. -/
structure Unchanged (s t : World w) : Prop where
  peers : ∀ id, t.db.peer id = s.db.peer id
  devices : SameDevices s.devices t.devices

/-- A device has a peer with this key. -/
def Holds (devices : Devices w) (id : InterfaceIdentifier) (key : w.Key) : Prop :=
  ∃ d, devices id = some d ∧ (d.find key).isSome

theorem holds_iff {devices : Devices w} {id : InterfaceIdentifier} {key : w.Key} :
    Holds devices id key ↔ (devices id).any (fun d => (d.find key).isSome) = true := by
  rw [Holds, Option.any_eq_true]

instance (devices : Devices w) (id : InterfaceIdentifier) (key : w.Key) :
    Decidable (Holds devices id key) := decidable_of_iff _ holds_iff.symm

/-- The peer is stored once under its identifier. -/
def StoredOnce (db : Db) (p : Peer) : Prop :=
  ∃ row, db.peers.rows.filter (·.identifier = p.identifier) = [row] ∧
    ∃ addresses, db.load row = loadAddresses p addresses

/-- The device of the interface has the peer with its networks. -/
def OnItsDevice (m : Manager) (t : World w) (p : Peer) (key : w.Key) : Prop :=
  ∃ iface, t.db.interfaces.find p.interfaceIdentifier = some iface ∧
    (m.getController iface = localBackendName →
      ∃ d q, t.devices p.interfaceIdentifier = some d ∧ d.find key = some q ∧
        ∀ network, network ∈ q.allowedIPs ↔
          network ∈ (savedConfig w p m.cfg.core.forceClientIPAsAllowedIP).allowedIPs)

/-- No device but that of its interface has a peer with the key of this one. -/
def Alone (devices : Devices w) (p : Peer) : Prop :=
  ∀ key, w.parseKey p.identifier = some key →
    ∀ id, id ≠ p.interfaceIdentifier → ¬ Holds devices id key

/-- The peer is configured on exactly the device of its interface. -/
structure Placed (m : Manager) (t : World w) (p : Peer) : Prop where
  here : ∀ key, w.parseKey p.identifier = some key → OnItsDevice m t p key
  alone : Alone t.devices p

/-- A call changes nothing if it fails, and does all there is to do if it succeeds. -/
def Atomic (m : Manager) (s : World w) (r : Except Error Peer) (t : World w) : Prop :=
  match r with
  | .error _ => Unchanged s t
  | .ok p => StoredOnce t.db p ∧ (p.isDisabled = false → Placed m t p)

/-- An operation of a call from `s` may fail while nothing is changed, and fresh
keys are on no device. -/
def Steady (s : World w) : Conditions w := fun op u c =>
  (∀ err, c.fault = some err → Unchanged s u ∧ err.is .notFound = false) ∧
    (op = .newFreshKeypair → c.fault = none → ∀ key, w.parseKey c.keyPair.publicKey = some key →
      ∀ id, ¬ Holds u.devices id key)

/-- The update can be carried out as a whole: no other device has the key of the
peer, and if the old peer can be deleted for another public key, the new one can
be saved. -/
def SoundUpdate (client : Client w) (m : Manager) (s : World w) (existing q : Peer) : Prop :=
  if q.interface.keyPair.publicKey = existing.identifier then
    (∃ iface, Served m w s.db s.devices q iface) → q.isDisabled = false → Alone s.devices q
  else
    s.db.peer q.interface.keyPair.publicKey = none →
      ∀ iface, Served m w s.db s.devices existing iface →
        (∃ iface', Served m w s.db s.devices
          { q with identifier := q.interface.keyPair.publicKey } iface') ∧
        (q.isDisabled = false → Alone (removed client m iface existing s.devices).2
          { q with identifier := q.interface.keyPair.publicKey })

/-- The request can be carried out as a whole. A new peer is named by its key, which
is on no other device. -/
def Sound (client : Client w) (m : Manager) (ui : ContextUserInfo) (s : World w) : Call → Prop
  | .create peer => ui.isAdmin || m.cfg.core.editableKeys → peer.isDisabled = false →
    peer.interface.keyPair.publicKey = peer.identifier ∧ Alone s.devices peer
  | .update peer => ∀ existing, s.db.peer peer.identifier = some existing → Allowed m ui existing →
    SoundUpdate client m s existing (requested m ui existing peer)

section Devices

variable {devices devices' : Devices w} {client : Client w} {m : Manager} {iface : Interface}
  {p : Peer} {db : Db}

theorem SameDevices.refl (devices : Devices w) : SameDevices devices devices := by
  intro id
  cases devices id with
  | none => exact .none
  | some d => exact .some fun key => WgPeer.rel_refl _

theorem SameDevices.holds (same : SameDevices devices devices') {id : InterfaceIdentifier}
    {key : w.Key} (holds : Holds devices' id key) : Holds devices id key := by
  obtain ⟨d', stored, found⟩ := holds
  have rel := same id
  rw [stored] at rel
  cases before : devices id with
  | none =>
    rw [before] at rel
    cases rel
  | some d =>
    rw [before] at rel
    cases rel with
    | some each =>
      have rel := each key
      obtain ⟨q, found⟩ := Option.isSome_iff_exists.mp found
      rw [found] at rel
      refine ⟨d, before, ?_⟩
      cases here : d.find key with
      | none =>
        rw [here] at rel
        cases rel
      | some _ => rfl

theorem saved_other (served : Served m w db devices p iface) {id : InterfaceIdentifier}
    (other : id ≠ p.interfaceIdentifier) : (saved client m iface p devices).2 id = devices id := by
  rw [saved]
  split
  · rename_i backend
    obtain ⟨key, valid⟩ := Option.isSome_iff_exists.mp (served.key backend)
    obtain ⟨d, stored⟩ := Option.isSome_iff_exists.mp (served.device backend)
    rw [savePeer_merge m.cfg.core.forceClientIPAsAllowedIP stored valid]
    exact Function.update_of_ne other ..
  · rfl

theorem saved_self (served : Served m w db devices p iface) (enabled : p.isDisabled = false)
    (own : p.interface.keyPair.publicKey = p.identifier) {key : w.Key}
    (valid : w.parseKey p.identifier = some key) (backend : m.getController iface = localBackendName) :
    ∃ d q, (saved client m iface p devices).2 p.interfaceIdentifier = some d ∧
      d.find key = some q ∧ ∀ network, network ∈ q.allowedIPs ↔
        network ∈ (savedConfig w p m.cfg.core.forceClientIPAsAllowedIP).allowedIPs := by
  obtain ⟨d, stored⟩ := Option.isSome_iff_exists.mp (served.device backend)
  obtain ⟨q, found, same⟩ := find_saved_self client (d := d) m.cfg.core.forceClientIPAsAllowedIP
    enabled own valid
  refine ⟨_, q, ?_, found, fun network => ?_⟩
  · rw [saved, if_pos backend, savePeer_merge m.cfg.core.forceClientIPAsAllowedIP stored valid]
    exact Function.update_self ..
  · rw [same.allowedIPs, mem_configured enabled]

end Devices

section Outcomes

variable {client : Client w} {can : Conditions w} {m : Manager} {ui : ContextUserInfo} {q : Peer}
  {s t u : World w}

theorem Unchanged.of_untouched (same : Untouched s t) : Unchanged s t where
  peers := fun id => by rw [same.db]
  devices := by
    rw [same.devices]
    exact SameDevices.refl s.devices

theorem Unchanged.of_eq {v : World w} (unchanged : Unchanged s v) (db : t.db = v.db)
    (devices : t.devices = v.devices) : Unchanged s t where
  peers := fun id => by rw [db, unchanged.peers id]
  devices := by
    rw [devices]
    exact unchanged.devices

theorem storedOnce_of_peer {db : Db} {p : Peer} {addresses : List Cidr}
    (stored : db.peer p.identifier = some (loadAddresses p addresses)) : StoredOnce db p := by
  obtain ⟨row, found, loaded⟩ := Db.find_of_peer stored
  exact ⟨row, Table.rows_filter_of_find found, addresses, loaded⟩

/-- A step that failed after a write would have left something changed. -/
theorem unchanged_of_stranded {op : RepoOp} {written : Devices w}
    (stranded : Stranded (Steady s) op written u t) : Unchanged s t := by
  obtain ⟨v, db, devices, err, c, steady, fault⟩ := stranded.fails
  exact (steady.1 err fault).1.of_eq (stranded.db.trans db.symm)
    (stranded.devices.trans devices.symm)

theorem unchanged_of_unsaved {α : Type} {result : Peer → α} {err : Error}
    (outcome : SaveOutcome result client (Steady s) m ui q u (.error err) t)
    (before : Unchanged s u) : Unchanged s t := by
  cases outcome with
  | refused same why => exact before.of_eq same.db same.devices
  | stranded served stranded => exact unchanged_of_stranded stranded

/-- A peer that was saved is stored, and where it belongs if it was nowhere else. -/
theorem atomic_of_saved {p : Peer} {v : World w}
    (outcome : SaveOutcome id client can m ui q s (.ok p) t)
    (sound : q.isDisabled = false →
      q.interface.keyPair.publicKey = q.identifier ∧ Alone s.devices q) : Atomic m v (.ok p) t := by
  obtain ⟨base, addresses, eq, found⟩ := outcome.stored
  have named : p.identifier = q.identifier := by rw [eq]; rfl
  have stored : t.db.peer p.identifier = some (loadAddresses p addresses) := by
    rw [named, found, eq]
    rfl
  refine ⟨storedOnce_of_peer stored, fun enabled => ?_⟩
  have enabled' : q.isDisabled = false := by rwa [eq] at enabled
  obtain ⟨own, alone⟩ := sound enabled'
  cases outcome with
  | done served db devices saving =>
    rename_i iface base now
    have interfaces : t.db.interfaces = s.db.interfaces := by
      rw [db]
      exact Db.ensurePeerStatus_interfaces ..
    refine ⟨fun key valid => ⟨iface, ?_, fun backend => ?_⟩, fun key valid id other holds => ?_⟩
    · rw [interfaces]
      exact served.stored
    · rw [devices]
      exact saved_self served enabled' own valid backend
    · refine alone key valid id other ?_
      obtain ⟨d, stored, found⟩ := holds
      rw [devices, saved_other served other] at stored
      exact ⟨d, stored, found⟩

/-- Once the old peer is deleted, nothing may fail any more. -/
theorem ok_of_replaced {old : Peer} {r : Except Error Peer}
    (stored : s.db.peer old.identifier = some old) (deleted : u.db = s.db.deletePeer old.identifier)
    (outcome : SaveOutcome id client (Steady s) m ui q u r t) {iface : Interface}
    (served : Served m w u.db u.devices q iface) : ∃ p, r = .ok p := by
  have gone : ∀ v : World w, v.db = u.db → ¬ Unchanged s v := by
    intro v same unchanged
    have kept := unchanged.peers old.identifier
    rw [same, deleted, Db.peer_deletePeer_self, stored] at kept
    cases kept
  cases outcome with
  | done => exact ⟨_, rfl⟩
  | refused same why =>
    rcases why with unserved | ⟨op, v, err, before, c, steady, fault⟩
    · exact absurd served (unserved iface)
    · exact absurd (steady.1 err fault).1 (gone v before.db)
  | stranded _ stranded =>
    obtain ⟨v, db, _, err, c, steady, fault⟩ := stranded.fails
    exact absurd (steady.1 err fault).1 (gone v db)

theorem not_misread (s u : World w) : ¬ Misread (Steady s) u :=
  not_misread_of_legible (fun _ _ _ err steady fault => (steady.1 err fault).2) u

theorem atomic_of_updated {existing : Peer} {r : Except Error Peer}
    (stored : s.db.peer existing.identifier = some existing)
    (named : q.identifier = existing.identifier) (sound : SoundUpdate client m s existing q)
    (outcome : UpdateOutcome client (Steady s) m ui existing q s r t) : Atomic m s r t := by
  cases outcome with
  | refused same why => exact .of_untouched same
  | updated own outcome =>
    rw [SoundUpdate, if_pos own] at sound
    cases r with
    | error err => exact unchanged_of_unsaved outcome (.of_untouched (Untouched.refl s))
    | ok p =>
      refine atomic_of_saved outcome fun enabled => ⟨own.trans named.symm, ?_⟩
      cases outcome with
      | done served => exact sound ⟨_, served⟩ enabled
  | undeleted other unknown outcome =>
    cases outcome with
    | refused same why => exact .of_untouched same
    | stranded _ _ stranded => exact unchanged_of_stranded stranded
  | replaced other unknown deleted outcome =>
    rw [SoundUpdate, if_neg other] at sound
    cases deleted with
    | done found served db devices =>
      have same := Option.some.inj (found.symm.trans stored)
      subst same
      obtain ⟨⟨iface', served'⟩, alone⟩ :=
        sound (unknown.resolve_right (not_misread s s)) _ served
      obtain ⟨p, rfl⟩ := ok_of_replaced stored db outcome ((served_removed db devices).mpr served')
      refine atomic_of_saved outcome fun enabled => ⟨rfl, ?_⟩
      rw [devices]
      exact alone enabled

theorem always_update (m : Manager) (ui : ContextUserInfo) {peer : Peer}
    (sound : Sound client m ui s (.update peer)) :
    (m.updatePeer ui peer).Always (Turn client (Steady s)) s (Atomic m s) := by
  refine (always_updatePeer m ui peer s).mono fun r t ended => ?_
  rcases ended with ⟨err, rfl, same, _⟩ | ⟨existing, stored, allowed, outcome⟩
  · exact .of_untouched same
  · have owned : existing.identifier = peer.identifier := Db.identifier_of_peer stored
    exact atomic_of_updated (owned ▸ stored) (requested_identifier m ui existing peer owned.symm)
      (sound existing stored allowed) outcome

theorem not_unchanged_of_deleted {id : PeerIdentifier} {p : Peer} (stored : s.db.peer id = some p)
    (gone : t.db.peer id = none) : ¬ Unchanged s t := by
  intro unchanged
  have kept := unchanged.peers id
  rw [gone, stored] at kept
  cases kept

/-- With no failing operation, saving a peer named by its key is complete exactly if
no other device has the key. -/
theorem saved_atomic_iff {p : Peer} {v : World w}
    (outcome : SaveOutcome id client NoFault m ui q s (.ok p) t)
    (own : q.interface.keyPair.publicKey = q.identifier) :
    Atomic m v (.ok p) t ↔ (q.isDisabled = false → Alone s.devices q) := by
  constructor
  · intro atomic enabled
    obtain ⟨base, addresses, eq, found⟩ := outcome.stored
    cases outcome with
    | done served db devices =>
      have placed := atomic.2 enabled
      intro key valid id other holds
      refine placed.alone key valid id other ?_
      obtain ⟨d, here, found⟩ := holds
      refine ⟨d, ?_, found⟩
      rw [devices, saved_other served other]
      exact here
  · exact fun alone => atomic_of_saved outcome fun enabled => ⟨own, alone enabled⟩

theorem updated_atomic_iff {existing : Peer} {r : Except Error Peer}
    (stored : s.db.peer existing.identifier = some existing) (allowed : Allowed m ui existing)
    (named : q.identifier = existing.identifier)
    (outcome : UpdateOutcome client NoFault m ui existing q s r t) :
    Atomic m s r t ↔ SoundUpdate client m s existing q := by
  rw [SoundUpdate]
  cases outcome with
  | refused same why =>
    obtain ⟨other, known⟩ := why.resolve_right (no_mishap s)
    rw [if_neg other]
    refine iff_of_true (Unchanged.of_untouched same) fun unknown => ?_
    rw [unknown] at known
    cases known
  | updated own outcome =>
    rw [if_pos own]
    cases r with
    | ok p =>
      rw [saved_atomic_iff outcome (own.trans named.symm)]
      cases outcome with
      | done served => exact ⟨fun alone _ => alone, fun sound => sound ⟨_, served⟩⟩
    | error err =>
      cases outcome with
      | refused same why =>
        have unserved := why.resolve_right (no_mishap s)
        exact iff_of_true (Unchanged.of_untouched same)
          fun ⟨iface, served⟩ => absurd served (unserved iface)
      | stranded _ stranded => exact absurd stranded no_stranded
  | undeleted other unknown outcome =>
    rw [if_neg other]
    cases outcome with
    | refused same why =>
      refine iff_of_true (Unchanged.of_untouched same) fun _ iface served => ?_
      rcases why.resolve_right (no_mishap s) existing stored with denied | unserved
      · exact absurd allowed denied
      · exact absurd served (unserved iface)
    | stranded _ _ stranded => exact absurd stranded no_stranded
  | replaced other unknown deleted outcome =>
    rw [if_neg other]
    cases deleted with
    | done found served db devices =>
      rename_i u old iface
      have same := Option.some.inj (found.symm.trans stored)
      subst same
      have free := unknown.resolve_right (no_misread s)
      cases r with
      | ok p =>
        rw [saved_atomic_iff outcome rfl, devices]
        constructor
        · intro alone _ iface' served'
          have same := Option.some.inj (served'.stored.symm.trans served.stored)
          subst same
          cases outcome with
          | done saved => exact ⟨⟨_, (served_removed db devices).mp saved⟩, alone⟩
        · exact fun sound => (sound free iface served).2
      | error err =>
        have gone : t.db.peer old.identifier = none := by
          rw [outcome.db_of_error, db, Db.peer_deletePeer_self]
        refine iff_of_false (not_unchanged_of_deleted stored gone) fun sound => ?_
        obtain ⟨⟨iface', saved⟩, _⟩ := sound free iface served
        cases outcome with
        | refused same why =>
          exact why.resolve_right (no_mishap u) iface' ((served_removed db devices).mpr saved)
        | stranded _ stranded => exact absurd stranded no_stranded

theorem always_update_iff (m : Manager) (ui : ContextUserInfo) (peer : Peer) :
    (m.updatePeer ui peer).Always (Turn client NoFault) s fun r t =>
      Atomic m s r t ↔ Sound client m ui s (.update peer) := by
  refine (always_updatePeer m ui peer s).mono fun r t ended => ?_
  rcases ended with ⟨err, rfl, same, why⟩ | ⟨existing, stored, allowed, outcome⟩
  · refine iff_of_true (Unchanged.of_untouched same) fun existing stored allowed => ?_
    exact absurd allowed (why.resolve_left (no_mishap s) existing stored)
  · have owned : existing.identifier = peer.identifier := Db.identifier_of_peer stored
    rw [updated_atomic_iff (owned ▸ stored) allowed
      (requested_identifier m ui existing peer owned.symm) outcome]
    refine ⟨fun sound existing' stored' _ => ?_, fun sound => sound existing stored allowed⟩
    rw [Option.some.inj (stored'.symm.trans stored)]
    exact sound

theorem unchanged_of_tried (tried : Tried client (Steady s) m ui q s t) : Unchanged s t := by
  cases tried with
  | start same => exact .of_untouched same
  | again tried served stranded => exact unchanged_of_stranded stranded

/-- What is saved for the request is named by its key, which is on no other device. -/
theorem sound_of_candidate {peer : Peer} (sound : Sound client m ui s (.create peer))
    (candidate : Candidate (Steady s) m ui s peer q) (enabled : q.isDisabled = false) :
    q.interface.keyPair.publicKey = q.identifier ∧ Alone s.devices q := by
  unfold Candidate at candidate
  cases admin : ui.isAdmin with
  | true =>
    simp only [admin, if_true] at candidate
    rw [candidate] at enabled ⊢
    exact sound (by rw [admin]; rfl) enabled
  | false =>
    simp only [admin, Bool.false_eq_true, if_false] at candidate
    obtain ⟨iface, prepared, stored, ⟨ips, kp, pk, createdAt, updatedAt, generated, rfl⟩, rfl⟩ :=
      candidate
    obtain ⟨⟨identifier, keyPair, interface⟩, _⟩ :=
      Manager.freshPeer_fields ui iface ips kp pk createdAt updatedAt
    have served : iface.identifier = peer.interfaceIdentifier := Table.key_of_find stored
    cases editable : m.cfg.core.editableKeys with
    | true =>
      have enabled' : peer.isDisabled = false := by
        simpa [overwriteUserEditableFields, editable, Peer.isDisabled] using enabled
      obtain ⟨own, alone⟩ := sound (by rw [editable]; exact Bool.or_true _) enabled'
      refine ⟨by simpa [overwriteUserEditableFields, editable] using own, ?_⟩
      simpa [Alone, overwriteUserEditableFields, editable, interface, served] using alone
    | false =>
      obtain ⟨u, c, same, steady, faultless, rfl⟩ := generated
      have fresh := steady.2 rfl faultless
      rw [same.devices] at fresh
      refine ⟨by simp [overwriteUserEditableFields, editable, identifier, keyPair], ?_⟩
      intro key valid id _
      refine fresh key ?_ id
      simpa [overwriteUserEditableFields, editable, identifier] using valid

theorem always_create (m : Manager) (ui : ContextUserInfo) {peer : Peer}
    (sound : Sound client m ui s (.create peer)) :
    (m.createPeer ui peer).Always (Turn client (Steady s)) s (Atomic m s) := by
  refine (always_createPeer m ui peer s).mono fun r t ended => ?_
  cases ended with
  | refused same => exact .of_untouched same
  | attempted unknown candidate outcome =>
    cases outcome with
    | failed tried => exact unchanged_of_tried tried
    | saved tried outcome =>
      rename_i q ips u p
      refine atomic_of_saved outcome fun enabled => ?_
      obtain ⟨own, alone⟩ := sound_of_candidate sound candidate enabled
      refine ⟨own, fun key valid id other holds => ?_⟩
      exact alone key valid id other ((unchanged_of_tried tried).devices.holds holds)

end Outcomes

/-- For an update with no failing operation, this is exact. -/
theorem update_atomic_iff (client : Client w) (m : Manager) (ui : ContextUserInfo) (peer : Peer)
    (world : World w) {circumstances : ℕ → Circumstance} (faultless : Faultless circumstances) :
    Atomic m world ((m.updatePeer ui peer).run client circumstances world).1
        ((m.updatePeer ui peer).run client circumstances world).2 ↔
      Sound client m ui world (.update peer) := by
  have always : (m.updatePeer ui peer).Always (Turn client NoFault) world fun r t =>
      Atomic m world r t ↔ Sound client m ui world (.update peer) := always_update_iff m ui peer
  exact run_of_always (fun _ _ n => faultless n) always

def otherKey : PeerIdentifier := "AAAAAAAAAAAAAAAAAAAAAAAAAAAAAAAAAAAAAAAAAAI="

def configuredDevice : Device plainTypes :=
  (plainClient plainTypes).configurePeer Device.empty (PeerConfig.named (toPublicKey plainTypes key))

/-- A stored peer that is on the device -/
def onePeer : World plainTypes := oneInterface configuredDevice [enabledPeer key]

/-- The peer gets another key. -/
def rekeyed : Peer :=
  { enabledPeer key with
    interface := { (enabledPeer key).interface with keyPair := ⟨"", otherKey⟩ } }

theorem calm_steady (op : ManagerOp) (u : World plainTypes) (n : ℕ) :
    Steady onePeer op u (calm n) := by
  refine ⟨fun err fault => ?_, fun _ _ key valid => ?_⟩
  · cases fault
  · have invalid : plainTypes.parseKey "" = none := by decide
    exact absurd (valid.symm.trans invalid) (by simp)

theorem rekeyed_sound :
    Sound (plainClient plainTypes) singleNode admin onePeer (.update rekeyed) := by
  intro existing stored _
  have owned : existing.identifier = key := Db.identifier_of_peer stored
  have other : otherKey ≠ key := by decide
  have request : requested singleNode admin existing rekeyed = rekeyed := rfl
  rw [request, SoundUpdate, if_neg (owned ▸ other)]
  refine fun _ iface _ => ⟨⟨{ Interface.zero with identifier := "wg0" }, rfl,
    fun _ => by decide, fun _ => rfl⟩, fun _ key _ id other holds => ?_⟩
  obtain ⟨d, found, _⟩ := holds
  have some : ((removed (plainClient plainTypes) singleNode iface existing onePeer.devices).2
      id).isSome = (onePeer.devices id).isSome := removed_isSome id
  have none : onePeer.devices id = none := if_neg other
  rw [found, none] at some
  cases some

/-- The statement that stores a new peer fails. -/
def commitFails (n : ℕ) : Circumstance :=
  if n = 5 then { calm n with fault := some (.other "database is locked") } else calm n

def noPeer : World plainTypes := oneInterface Device.empty []

/-- The peer is to move to another interface, whose device has no peer. -/
def twoInterfaces : World plainTypes :=
  { onePeer with
    db := { onePeer.db with
      interfaces := onePeer.db.interfaces.upsert { Interface.zero with identifier := "wg1" } }
    devices := fun id => if id = "wg0" then some configuredDevice else some Device.empty }

def moved : Peer := { enabledPeer key with interfaceIdentifier := "wg1" }

end WgPortal.WireGuard.PeerWrites
