import WgPortal.Api.PeerModel
import WgPortal.WgController.Plain
import WgPortal.WireGuard.PeerSteps

/-! A peer that is read through the API and written back as it was shown: what
`Manager.GetPeer`, `NewPeer`, `NewDomainPeer` and `Manager.UpdatePeer` in a row
leave of the stored one. -/

namespace WgPortal.Api.RoundTrip

open Domain Library Calendar Adapters WgController WireGuard PeerSteps
open ManagerProgram (issue)

/-- Read a peer, and write it back without any edit. -/
def readModifyWrite (m : Manager) (ui : ContextUserInfo) (v : Version) (id : PeerIdentifier) :
    ManagerProgram (Except Error Domain.Peer) := do
  match ← Manager.getPeer ui id with
  | .error err => return .error err
  | .ok peer =>
    let now ← issue .timeNow
    m.updatePeer ui (newDomainPeer now (newPeer v peer))

/-- What should be left of a peer. -/
structure Lossless (p q : Domain.Peer) : Prop where
  addresses : q.interface.addresses = p.interface.addresses
  allowedIPs : cidrsOrNil q.allowedIPsStr.value = cidrsOrNil p.allowedIPsStr.value
  extraAllowedIPs : cidrsOrNil q.extraAllowedIPsStr = cidrsOrNil p.extraAllowedIPsStr
  keyPair : q.interface.keyPair = p.interface.keyPair
  presharedKey : q.presharedKey = p.presharedKey
  endpoint : q.endpoint = p.endpoint
  endpointPublicKey : q.endpointPublicKey = p.endpointPublicKey
  persistentKeepalive : q.persistentKeepalive = p.persistentKeepalive
  expiresAt : q.expiresAt.map wholeSeconds = p.expiresAt.map wholeSeconds
  automaticallyCreated : q.automaticallyCreated = p.automaticallyCreated
  disabled : q.isDisabled = p.isDisabled
  disabledReason : q.disabledReason = p.disabledReason

theorem Lossless.refl (p : Domain.Peer) : Lossless p p :=
  ⟨rfl, rfl, rfl, rfl, rfl, rfl, rfl, rfl, rfl, rfl, rfl, rfl⟩

/-- The allowed IPs that `GetPeer` shows -/
def shownAllowedIPs (db : Db) (p : Domain.Peer) : String :=
  match db.interfaces.find p.interfaceIdentifier with
  | none => p.allowedIPsStr.value
  | some iface =>
    if p.interface.type = .client then iface.peerDefAllowedIPsStr else p.allowedIPsStr.value

def shown (db : Db) (p : Domain.Peer) : Domain.Peer :=
  { p with allowedIPsStr := { p.allowedIPsStr with value := shownAllowedIPs db p } }

/-- The peer can be saved where it is, or re-identified by its public key. -/
structure Accepted (m : Manager) {w : Wgtypes} (world : World w) (p : Domain.Peer) : Prop where
  served : ∃ iface, Served m w world.db world.devices p iface
  unknown : p.interface.keyPair.publicKey ≠ p.identifier →
    world.db.peer p.interface.keyPair.publicKey = none

/-- The API shows all that is stored, in a form that is read back. -/
structure Representable (v : Version) (db : Db) (p : Domain.Peer) : Prop where
  own : p.interface.keyPair.publicKey = p.identifier
  automaticallyCreated : p.automaticallyCreated = false
  allowedIPs : listedCidrs (shownAllowedIPs db p) = cidrsOrNil p.allowedIPsStr.value
  extraAllowedIPs : listedCidrs p.extraAllowedIPsStr = cidrsOrNil p.extraAllowedIPsStr
  expiresAt : v = .v1 → ∀ t, p.expiresAt = some t → t ≠ 0 ∧ FourDigits t

theorem expiryKept_iff (v : Version) (expiresAt : Option Time) :
    (expiryToDomain v (expiryFromDomain v expiresAt)).map wholeSeconds =
      expiresAt.map wholeSeconds ↔
        (v = .v1 → ∀ t, expiresAt = some t → t ≠ 0 ∧ FourDigits t) := by
  rw [expiryToDomain_expiryFromDomain]
  cases v with
  | v0 => simp
  | v1 =>
    cases expiresAt with
    | none => simp
    | some t =>
      by_cases kept : t ≠ 0 ∧ FourDigits t
      · simp [kept, wholeSeconds_wholeSeconds]
      · simp [kept]

/-- What comes back of the peer that `GetPeer` showed -/
theorem lossless_iff (v : Version) (now : Time) (base : BaseModel) (db : Db) (p : Domain.Peer)
    (own : p.interface.keyPair.publicKey = p.identifier) :
    Lossless p { (newDomainPeer now (newPeer v (shown db p))) with base := base } ↔
      Representable v db p := by
  have expiry := expiryKept_iff v p.expiresAt
  have allowed := cidrsOrNil_sliceToString (shownAllowedIPs db p)
  have extra := cidrsOrNil_sliceToString p.extraAllowedIPsStr
  constructor
  · intro lossless
    refine ⟨own, lossless.automaticallyCreated.symm, ?_, ?_, expiry.mp lossless.expiresAt⟩
    · rw [← allowed]
      exact lossless.allowedIPs
    · rw [← extra]
      exact lossless.extraAllowedIPs
  · intro representable
    refine ⟨cidrsFromArray_cidrsToStringSlice _, ?_, ?_, rfl, rfl, rfl, rfl, rfl,
      expiry.mpr representable.expiresAt, representable.automaticallyCreated.symm, ?_, rfl⟩
    · rw [← representable.allowedIPs, ← allowed]
      rfl
    · rw [← representable.extraAllowedIPs, ← extra]
      rfl
    · cases disabled : p.isDisabled <;>
        simp [Domain.Peer.isDisabled, newDomainPeer, newPeer, shown] at disabled ⊢ <;> simp [disabled]

variable {w : Wgtypes} {client : Client w}

theorem always_getPeer {ui : ContextUserInfo} (admin : ui.isAdmin = true) {id : PeerIdentifier}
    {p : Domain.Peer} (s : World w) (stored : s.db.peer id = some p) :
    (Manager.getPeer ui id).Always (Turn client NoFault) s fun r t =>
      r = .ok (shown s.db p) ∧ t = s := by
  have rights : validateUserAccessRights ui p.userIdentifier = .ok () := by
    simp [validateUserAccessRights, admin]
  unfold Manager.getPeer
  refine Program.always_perform_bind.mpr fun answer t turn => ?_
  rcases turn.repo with ⟨err, rfl, rfl, fails⟩ | ⟨now, rfl, rfl⟩
  · exact absurd ⟨_, _, _, Untouched.refl _, fails⟩ (no_mishap _)
  · simp only [RepoOp.answer, Db.getPeer, stored, rights]
    refine Program.always_perform_bind.mpr fun answer t turn => ?_
    rcases turn.repo with ⟨err, rfl, rfl, fails⟩ | ⟨now, rfl, rfl⟩
    · exact absurd ⟨_, _, _, Untouched.refl _, fails⟩ (no_mishap _)
    · simp only [RepoOp.answer, RepoOp.apply, Db.getInterface, shown, shownAllowedIPs]
      cases s.db.interfaces.find p.interfaceIdentifier with
      | none => exact ⟨rfl, rfl⟩
      | some iface =>
        by_cases type : p.interface.type = .client
        · simp only [type, if_true]
          exact ⟨rfl, rfl⟩
        · simp only [type, if_false]
          exact ⟨rfl, rfl⟩

/-- The stored peer is there afterwards, without a loss. -/
def Kept (p : Domain.Peer) (t : World w) : Prop :=
  ∃ q, t.db.peer p.identifier = some q ∧ Lossless p q

theorem kept_of_untouched {s t : World w} {p : Domain.Peer} (stored : s.db.peer p.identifier = some p)
    (same : Untouched s t) : Kept p t := by
  rw [Kept, same.db]
  exact ⟨p, stored, Lossless.refl p⟩

section

variable {m : Manager} {ui : ContextUserInfo} {v : Version} {s : World w} {p q : Domain.Peer}

theorem served_newDomainPeer (now : Time) {iface : Interface} :
    Served m w s.db s.devices (newDomainPeer now (newPeer v (shown s.db p))) iface ↔
      Served m w s.db s.devices p iface :=
  ⟨fun served => ⟨served.stored, served.key, served.device⟩,
    fun served => ⟨served.stored, served.key, served.device⟩⟩

/-- Saving the peer that was read, under the identifier that it has. -/
theorem kept_saved {now : Time} {r : Except Error Domain.Peer} {t : World w}
    (stored : s.db.peer p.identifier = some p)
    (own : p.interface.keyPair.publicKey = p.identifier)
    (outcome : SaveOutcome id client NoFault m ui (newDomainPeer now (newPeer v (shown s.db p))) s
      r t) :
    Kept p t ↔ ¬ Accepted m s p ∨ Representable v s.db p := by
  cases outcome with
  | done served db devices saving =>
    rename_i iface base written
    have accepted : Accepted m s p :=
      ⟨⟨iface, (served_newDomainPeer now).mp served⟩, fun other => absurd own other⟩
    have nodup : (cidrsFromArray (cidrsToStringSlice p.interface.addresses)).Nodup := by
      rw [cidrsFromArray_cidrsToStringSlice]
      exact Db.nodup_addresses_of_peer stored
    have after : t.db.peer p.identifier = some { newDomainPeer now (newPeer v (shown s.db p)) with
        base := { base with updatedBy := ui.id, updatedAt := written } } := by
      rw [db]
      exact Db.peer_commitPeer_self s.db ui.id written p.identifier nodup
    have kept := lossless_iff v now { base with updatedBy := ui.id, updatedAt := written } s.db p own
    simp only [Kept, after, Option.some.injEq, exists_eq_left', kept, accepted, not_true_eq_false,
      false_or]
  | refused same why =>
    have unserved := why.resolve_right (no_mishap s)
    have unaccepted : ¬ Accepted m s p := by
      intro accepted
      obtain ⟨iface, served⟩ := accepted.served
      exact unserved iface ((served_newDomainPeer now).mpr served)
    exact iff_of_true (kept_of_untouched stored same) (.inl unaccepted)
  | stranded _ stranded => exact absurd stranded no_stranded

/-- The peer is gone from its identifier once it is re-identified. -/
theorem not_kept_replaced {r : Except Error Domain.Peer} {u t : World w}
    (other : q.identifier ≠ p.identifier) (deleted : u.db = s.db.deletePeer p.identifier)
    (outcome : SaveOutcome id client NoFault m ui q u r t) : ¬ Kept p t := by
  have gone : u.db.peer p.identifier = none := by rw [deleted, Db.peer_deletePeer_self]
  have gone' : t.db.peer p.identifier = none := by
    cases outcome with
    | done served db devices =>
      rw [db]
      refine (Db.peer_commitPeer_of_ne _ _ _ _ _ ?_).trans gone
      exact other.symm
    | refused same why => rw [same.db, gone]
    | stranded served stranded => rw [stranded.db, gone]
  rintro ⟨p', found, _⟩
  exact absurd (found.symm.trans gone') (by simp)

theorem kept_updated (admin : ui.isAdmin = true) {now : Time} {r : Except Error Domain.Peer}
    {t : World w} (stored : s.db.peer p.identifier = some p)
    (outcome : UpdateOutcome client NoFault m ui p (newDomainPeer now (newPeer v (shown s.db p))) s
      r t) :
    Kept p t ↔ ¬ Accepted m s p ∨ Representable v s.db p := by
  have allowed : Allowed m ui p := by
    simp [Allowed, validateUserAccessRights, Manager.validatePeerModifications, admin]
  cases outcome with
  | refused same why =>
    obtain ⟨other, known⟩ := why.resolve_right (no_mishap s)
    have unaccepted : ¬ Accepted m s p := by
      intro accepted
      have unknown : s.db.peer (newDomainPeer now
          (newPeer v (shown s.db p))).interface.keyPair.publicKey = none := accepted.unknown other
      rw [unknown] at known
      cases known
    exact iff_of_true (kept_of_untouched stored same) (.inl unaccepted)
  | updated own outcome => exact kept_saved stored own outcome
  | undeleted other unknown outcome =>
    cases outcome with
    | refused same why =>
      have unaccepted : ¬ Accepted m s p := by
        intro accepted
        obtain ⟨iface, served⟩ := accepted.served
        rcases why.resolve_right (no_mishap s) p stored with denied | unserved
        · exact denied allowed
        · exact unserved iface served
      exact iff_of_true (kept_of_untouched stored same) (.inl unaccepted)
    | stranded _ _ stranded => exact absurd stranded no_stranded
  | replaced other unknown deleted outcome =>
    cases deleted with
    | done found served db devices =>
      rename_i p' iface
      have accepted : Accepted m s p :=
        ⟨⟨iface, Option.some.inj (found.symm.trans stored) ▸ served⟩,
          fun _ => unknown.resolve_right (no_misread s)⟩
      have unrepresentable : ¬ Representable v s.db p :=
        fun representable => other representable.own
      refine iff_of_false (not_kept_replaced other db outcome) ?_
      rintro (unaccepted | representable)
      · exact unaccepted accepted
      · exact unrepresentable representable

theorem always_readModifyWrite (admin : ui.isAdmin = true) (v : Version)
    (stored : s.db.peer p.identifier = some p) :
    (readModifyWrite m ui v p.identifier).Always (Turn client NoFault) s fun _ t =>
      Kept p t ↔ ¬ Accepted m s p ∨ Representable v s.db p := by
  unfold readModifyWrite
  refine (always_getPeer admin s stored).bind fun r u ⟨read, here⟩ => ?_
  rw [here, read]
  refine Program.always_perform_bind.mpr fun now u turn => ?_
  obtain ⟨c, _, run⟩ := turn
  have here : s = u := (Prod.mk.inj run).2
  rw [← here]
  refine (always_updatePeer m ui _ s).mono fun r t ended => ?_
  rcases ended with ⟨err, _, same, why⟩ | ⟨existing, found, _, outcome⟩
  · have denied := why.resolve_left (no_mishap s) p stored
    simp [Allowed, validateUserAccessRights, Manager.validatePeerModifications, admin] at denied
  · have same : existing = p := Option.some.inj (found.symm.trans stored)
    subst same
    rw [requested, if_pos admin] at outcome
    exact kept_updated admin stored outcome

end

/-- With no failing operation, a peer that an admin reads and writes back is kept
exactly if the write is not accepted, or if the API represents the peer. -/
theorem readModifyWrite_kept_iff {circumstances : ℕ → Circumstance}
    (faultless : Faultless circumstances) (client : Client w) (m : Manager) {ui : ContextUserInfo}
    (admin : ui.isAdmin = true) (v : Version) {world : World w} {p : Domain.Peer}
    (stored : world.db.peer p.identifier = some p) :
    Kept p ((readModifyWrite m ui v p.identifier).run client circumstances world).2 ↔
      ¬ Accepted m world p ∨ Representable v world.db p := by
  have always : (readModifyWrite m ui v p.identifier).Always (Turn client NoFault) world
      fun _ t => Kept p t ↔ ¬ Accepted m world p ∨ Representable v world.db p :=
    always_readModifyWrite admin v stored
  exact run_of_always (fun _ _ n => faultless n) always

def sampleKey : String := "AAAAAAAAAAAAAAAAAAAAAAAAAAAAAAAAAAAAAAAAAAE="

/-- A server whose clients are shown with a default route. -/
def sampleInterface : Interface :=
  { Interface.zero with
    identifier := "wg0"
    type := .server
    backend := localBackendName
    peerDefAllowedIPsStr := "0.0.0.0/0" }

def samplePeer (allowedIPs : String) : Domain.Peer :=
  { Domain.Peer.zero with
    identifier := sampleKey
    interfaceIdentifier := "wg0"
    allowedIPsStr := ⟨allowedIPs, true⟩
    interface := { Domain.Peer.zero.interface with keyPair := ⟨"", sampleKey⟩, type := .client } }

def sampleWorld (allowedIPs : String) : World plainTypes where
  db :=
    { Db.empty with
      interfaces := Table.empty.upsert sampleInterface
      peers := Table.empty.upsert (samplePeer allowedIPs) }
  devices := fun id => if id = "wg0" then some Device.empty else none
  events := []

def sampleManager : Manager := ⟨Config.defaultConfig, [], false⟩

def calm : ℕ → Circumstance := fun _ => ⟨1, none, ⟨"", ""⟩, ""⟩

def sampleRun (allowedIPs : String) : World plainTypes :=
  ((readModifyWrite sampleManager systemAdminContextUserInfo .v1 sampleKey).run
    (plainClient plainTypes) calm (sampleWorld allowedIPs)).2

theorem samplePeer_stored (allowedIPs : String) : (sampleWorld allowedIPs).db.peer
    (samplePeer allowedIPs).identifier = some (samplePeer allowedIPs) := rfl

/-- A client with the default route as its allowed IPs is kept. -/
theorem defaultRoute_kept : Kept (samplePeer "0.0.0.0/0") (sampleRun "0.0.0.0/0") := by
  refine (readModifyWrite_kept_iff (fun _ => rfl) (plainClient plainTypes) sampleManager rfl .v1
    (samplePeer_stored "0.0.0.0/0")).mpr (.inr ⟨rfl, rfl, by decide, by decide, ?_⟩)
  intro _ t expiresAt
  cases expiresAt

/-- Any other client gets the default route in place of its own address. -/
theorem ownAddress_not_kept : ¬ Kept (samplePeer "10.0.0.2/32") (sampleRun "10.0.0.2/32") := by
  have always : (readModifyWrite sampleManager systemAdminContextUserInfo .v1 sampleKey).Always
      (Turn (plainClient plainTypes) NoFault) (sampleWorld "10.0.0.2/32") fun _ t =>
        Kept (samplePeer "10.0.0.2/32") t ↔
          ¬ Accepted sampleManager (sampleWorld "10.0.0.2/32") (samplePeer "10.0.0.2/32") ∨
            Representable .v1 (sampleWorld "10.0.0.2/32").db (samplePeer "10.0.0.2/32") :=
    always_readModifyWrite rfl .v1 (samplePeer_stored "10.0.0.2/32")
  have faultless : ∀ (op : ManagerOp) (s : World plainTypes) (n : ℕ), NoFault op s (calm n) :=
    fun _ _ _ => rfl
  have ended := run_of_always faultless always
  have accepted : Accepted sampleManager (sampleWorld "10.0.0.2/32") (samplePeer "10.0.0.2/32") :=
    ⟨⟨sampleInterface, rfl, fun _ => by decide, fun _ => rfl⟩, fun other => absurd rfl other⟩
  have lost : ¬ Representable .v1 (sampleWorld "10.0.0.2/32").db (samplePeer "10.0.0.2/32") :=
    fun representable => absurd representable.allowedIPs (by decide)
  exact fun kept => (ended.mp kept).elim (fun refused => refused accepted) lost

end WgPortal.Api.RoundTrip
