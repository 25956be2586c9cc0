import WgPortal.Api.Provisioning
import WgPortal.Api.RoundTrip
import WgPortal.Library.Transition
import WgPortal.WireGuard.StateChange

/-! The lock of the time of expiry: what state changes and updates leave of a peer
that was provisioned with a time of its own, or never to expire. -/

namespace WgPortal.Api.TTLLock

open Domain Library Calendar Config Adapters WgController WireGuard PeerSteps PeerCreation RoundTrip
open ManagerProgram (issue)

inductive Action where
  /-- the statistics of a peer report another connection state -/
  | event (peerStatus : PeerStatus) (peer : Domain.Peer)
  | update (ui : ContextUserInfo) (v : Version) (id : PeerIdentifier) (req : Peer v)

namespace Action

/-- The peer that an action is about -/
def subject : Action → PeerIdentifier
  | event _ peer => peer.identifier
  | update _ _ _ req => req.identifier

def program (m : Manager) : Action → ManagerProgram (Except Error (Option Domain.Peer))
  | event peerStatus peer => do
    m.handlePeerStateChangeEvent peerStatus peer
    return .ok none
  | update ui v id req => do
    match ← handleUpdatePut m ui v id req with
    | .error err => return .error err
    | .ok saved => return .ok (some saved)

/-- The identifier that the peer may have got -/
def renamed : Action → Except Error (Option Domain.Peer) → PeerIdentifier
  | event _ peer, _ => peer.interface.keyPair.publicKey
  | update _ _ _ _, .ok (some saved) => saved.identifier
  | update _ _ _ req, _ => req.identifier

end Action

structure State (w : Wgtypes) where
  world : World w
  /-- the identifier of the provisioned peer, as long as it is stored -/
  peer : Option PeerIdentifier
  /-- what was stored of it so far -/
  versions : List Domain.Peer

/-- An action and what happens meanwhile -/
abbrev Label := Action × (ℕ → Circumstance)

/-- The first of two identifiers that is stored -/
def follow (db : Db) (id renamed : PeerIdentifier) : Option PeerIdentifier :=
  if (db.peer id).isSome then some id
  else if (db.peer renamed).isSome then some renamed
  else none

variable {w : Wgtypes}

def next (client : Client w) (m : Manager) (s : State w) (label : Label) : Option (State w) :=
  let (result, world) := (label.1.program m).run client label.2 s.world
  let peer := s.peer.bind fun id =>
    if label.1.subject = id then follow world.db id (label.1.renamed result) else some id
  some ⟨world, peer, s.versions ++ (peer.bind world.db.peer).toList⟩

/-- A provisioning request that succeeds -/
def provisioned (client : Client w) (m : Manager) (ui : ContextUserInfo)
    (req : ProvisioningRequest) (circumstances : ℕ → Circumstance) (world : World w) :
    Option (State w) :=
  match (provisionPeer m ui req).run client circumstances world with
  | (.ok p, t) => some ⟨t, some p.identifier, (t.db.peer p.identifier).toList⟩
  | (.error _, _) => none

/-- The user asks for this time of expiry, or for none. -/
def Asks (req : ProvisioningRequest) (expiresAt : Option Time) : Prop :=
  if req.doNotExpire then expiresAt = none
  else req.expiresAt ≠ "" ∧ req.expiresAtIsDefault = false ∧
    parseRFC3339 req.expiresAt.toList = expiresAt

/-- The peer, if it is still there, is locked with its time of expiry. -/
def Honoured (expiresAt : Option Time) (s : State w) : Prop :=
  ∀ id, s.peer = some id →
    ∃ p, s.world.db.peer id = some p ∧ p.ttlLocked = true ∧ p.expiresAt = expiresAt

/-- Events show the peer as it was stored at some time, updates do not change its
time of expiry, and no failure looks as if a record were missing. -/
def Possible (s : State w) (label : Label) : Prop :=
  (∀ n err, (label.2 n).fault = some err → err.is .notFound = false) ∧
    ∀ id, s.peer = some id → label.1.subject = id →
      match label.1 with
      | .event _ peer => peer ∈ s.versions
      | .update _ v _ req =>
        ∀ p, s.world.db.peer id = some p → expiryToDomain v req.expiresAt = p.expiresAt

/-- The identifiers of the request and of its address may go together. -/
def Addressed (v : Version) (id : PeerIdentifier) (req : Peer v) : Prop :=
  id ≠ "" ∧ (v = .v0 → req.identifier = id)

/-- An admin writes a whole record over the peer, which has no lock. -/
def Overwritten (m : Manager) (s : State w) (label : Label) : Prop :=
  match label.1 with
  | .event _ _ => False
  | .update ui v id req => ui.isAdmin = true ∧ Addressed v id req ∧
    s.peer = some req.identifier ∧ ∃ existing now,
      s.world.db.peer req.identifier = some existing ∧
        Storable m s.world existing (newDomainPeer now req)

/-- The faults of a run are not mistaken for missing records. -/
def Legible : Conditions w := fun _ _ c => ∀ err, c.fault = some err → err.is .notFound = false

theorem not_misread (s : World w) : ¬ Misread Legible s :=
  not_misread_of_legible (fun _ _ _ err legible => legible err) s

section Provision

variable {client : Client w} {can : Conditions w} {m : Manager} {ui : ContextUserInfo}
  {req : ProvisioningRequest} {s t : World w}

theorem generateDisplayName_expiresAt (p : Domain.Peer) (pre : String) :
    (generateDisplayName p pre).expiresAt = p.expiresAt := by
  unfold generateDisplayName
  split <;> rfl

theorem withDisplayName_expiresAt (req : ProvisioningRequest) (p : Domain.Peer) :
    (req.withDisplayName p).expiresAt = p.expiresAt := by
  unfold ProvisioningRequest.withDisplayName
  split
  · rfl
  · exact generateDisplayName_expiresAt p "API"

theorem withKeys_expiresAt (req : ProvisioningRequest) (p : Domain.Peer) :
    (req.withKeys p).expiresAt = p.expiresAt := by
  unfold ProvisioningRequest.withKeys
  simp only
  by_cases key : req.publicKey = "" <;> by_cases preshared : req.presharedKey = "" <;>
    simp [key, preshared]

theorem apply_locked {expiresAt : Option Time} (asks : Asks req expiresAt)
    {userIdentifier : UserIdentifier} {p q : Domain.Peer} (prepared : p.expiresAt = none)
    (applied : req.apply userIdentifier p = .ok q) :
    q.ttlLocked = true ∧ q.expiresAt = expiresAt := by
  have kept : (req.withDisplayName
      (req.withKeys { p with userIdentifier := userIdentifier })).expiresAt = none := by
    rw [withDisplayName_expiresAt, withKeys_expiresAt]
    exact prepared
  rw [ProvisioningRequest.apply, ProvisioningRequest.withExpiry] at applied
  rw [Asks] at asks
  cases never : req.doNotExpire with
  | true =>
    simp only [never, Bool.not_true, Bool.false_and, if_true] at applied asks
    rw [← Except.ok.inj applied, asks]
    exact ⟨rfl, kept⟩
  | false =>
    simp only [never, Bool.false_eq_true, if_false] at asks
    obtain ⟨explicit, provided, parsed⟩ := asks
    simp only [never, explicit, provided, parsed, ne_eq, not_false_eq_true, decide_true,
      Bool.not_false, Bool.and_true, if_true] at applied
    cases expiresAt with
    | none => cases applied
    | some expiryDate =>
      rw [← Except.ok.inj applied]
      exact ⟨rfl, rfl⟩

theorem fields_of_prepared {iface : Interface} {p : Domain.Peer}
    (prepared : Prepared can ui s iface p) : p.expiresAt = none ∧ p.ttlLocked = false := by
  obtain ⟨ips, kp, pk, createdAt, updatedAt, _, rfl⟩ := prepared
  exact (Manager.freshPeer_fields ui iface ips kp pk createdAt updatedAt).2.2

/-- Only an admin's request is stored with the lock. -/
theorem candidate_lock {expiresAt : Option Time} {peer q : Domain.Peer}
    (candidate : Candidate can m ui s peer q) (locked : peer.ttlLocked = true)
    (expiry : peer.expiresAt = expiresAt) : q.ttlLocked = ui.isAdmin ∧ q.expiresAt = expiresAt := by
  unfold Candidate at candidate
  cases admin : ui.isAdmin with
  | true =>
    simp only [admin, if_true] at candidate
    rw [candidate]
    exact ⟨locked, expiry⟩
  | false =>
    simp only [admin, Bool.false_eq_true, if_false] at candidate
    obtain ⟨iface, prepared, _, proposal, rfl⟩ := candidate
    obtain ⟨_, _, lock, requested, _⟩ := overwriteUserEditableFields_frame prepared peer m.cfg
    exact ⟨lock.trans (fields_of_prepared proposal).2, requested.trans expiry⟩

/-- The peer is stored with the time of expiry that the user asked for. -/
def Provisioned (ui : ContextUserInfo) (expiresAt : Option Time) (r : Except Error Domain.Peer)
    (t : World w) : Prop :=
  ∀ p, r = .ok p → ∃ q, t.db.peer p.identifier = some q ∧ q.ttlLocked = ui.isAdmin ∧
    q.expiresAt = expiresAt

theorem always_provisionPeer {expiresAt : Option Time} (asks : Asks req expiresAt) (s : World w) :
    (provisionPeer m ui req).Always (Turn client can) s (Provisioned ui expiresAt) := by
  have failed : ∀ (err : Error) (t : World w), Provisioned ui expiresAt (.error err) t :=
    fun _ _ _ ok => by cases ok
  unfold provisionPeer
  simp only
  split
  · exact failed _ _
  · refine (always_preparePeer m ui _ s).bind fun r t ⟨same, prepared⟩ => ?_
    cases r with
    | error err => exact failed _ _
    | ok proposal =>
      obtain ⟨iface, _, prepared⟩ := prepared proposal rfl
      simp only
      split
      · exact failed _ _
      · rename_i peer applied
        have locked := apply_locked asks (fields_of_prepared prepared).1 applied
        refine (always_createPeer m ui peer t).bind fun r u outcome => ?_
        cases r with
        | error err => exact failed _ _
        | ok created =>
          intro p ok
          rw [← Except.ok.inj ok]
          cases outcome with
          | attempted unknown candidate outcome =>
            cases outcome with
            | saved tried outcome =>
              obtain ⟨base, addresses, rfl, found⟩ := outcome.stored
              have kept := candidate_lock candidate locked.1 locked.2
              exact ⟨_, found, kept⟩

/-- The lock is there from the start if and only if an admin provisioned the peer. -/
theorem provisioned_honoured_iff {expiresAt : Option Time} (asks : Asks req expiresAt)
    {circumstances : ℕ → Circumstance} {world : World w} {s : State w}
    (start : provisioned client m ui req circumstances world = some s) :
    Honoured expiresAt s ↔ ui.isAdmin = true := by
  have always : (provisionPeer m ui req).Always (Turn client fun _ _ _ => True) world
      (Provisioned ui expiresAt) := always_provisionPeer asks world
  have ended : Provisioned ui expiresAt
      ((provisionPeer m ui req).run client circumstances world).1
      ((provisionPeer m ui req).run client circumstances world).2 :=
    run_of_always (fun _ _ _ => trivial) always
  rw [provisioned] at start
  split at start
  · rename_i p t result
    rw [result] at ended
    rw [← Option.some.inj start]
    obtain ⟨q, stored, locked, expiry⟩ := ended p rfl
    refine ⟨fun honoured => ?_, fun admin id here => ?_⟩
    · obtain ⟨q', found, kept, _⟩ := honoured p.identifier rfl
      rw [← locked, ← kept, Option.some.inj (found.symm.trans stored)]
    · rw [← Option.some.inj here]
      exact ⟨q, stored, locked.trans admin, expiry⟩
  · cases start

end Provision

section Step

variable {client : Client w} {can : Conditions w} {m : Manager} {ui : ContextUserInfo}
  {v : Version} {id : PeerIdentifier} {req : Peer v} {s t : World w}

/-- How the handler of an update may end -/
def PutOutcome (client : Client w) (can : Conditions w) (m : Manager) (ui : ContextUserInfo)
    (v : Version) (id : PeerIdentifier) (req : Peer v) (s : World w)
    (r : Except Error Domain.Peer) (t : World w) : Prop :=
  (∃ err, r = .error err ∧ Untouched s t ∧
    (ui.isAdmin = true → Addressed v id req → s.db.peer req.identifier = none ∨ Mishap can s)) ∨
    Addressed v id req ∧
      ∃ now existing u, Untouched s u ∧ s.db.peer req.identifier = some existing ∧
        UpdateOutcome client can m ui existing (requested m ui existing (newDomainPeer now req)) u r t

theorem always_handleUpdatePut (m : Manager) (ui : ContextUserInfo) (v : Version)
    (id : PeerIdentifier) (req : Peer v) (s : World w) :
    (handleUpdatePut m ui v id req).Always (Turn client can) s
      (PutOutcome client can m ui v id req s) := by
  unfold handleUpdatePut
  simp only
  split
  · rename_i err denied
    refine .inl ⟨err, rfl, Untouched.refl s, fun admin addressed => ?_⟩
    cases v with
    | v0 => simp [addressed.1, addressed.2 rfl] at denied
    | v1 => simp [addressed.1, validateAdminAccessRights, admin] at denied
  · rename_i allowed
    have accepted : Addressed v id req := by
      cases v with
      | v0 =>
        by_cases missing : id = ""
        · simp [missing] at allowed
        · by_cases same : req.identifier = id
          · exact ⟨missing, fun _ => same⟩
          · simp [missing, same] at allowed
      | v1 =>
        by_cases missing : id = ""
        · simp [missing] at allowed
        · exact ⟨missing, fun v0 => by cases v0⟩
    refine Program.always_perform_bind.mpr fun now u turn => ?_
    have same : Untouched s u := turn.reading trivial
    refine (always_updatePeer m ui _ u).mono fun r t ended => ?_
    rcases ended with ⟨err, error, same', why⟩ | ⟨existing, stored, _, outcome⟩
    · refine .inl ⟨err, error, same.trans same', fun admin _ => ?_⟩
      rcases why with ⟨op, z, err, before, fails⟩ | denied
      · exact .inr ⟨op, z, err, same.trans before, fails⟩
      · rw [same.db] at denied
        refine .inl (Option.eq_none_iff_forall_ne_some.mpr fun existing stored => ?_)
        exact denied existing stored (by simp [Allowed, validateUserAccessRights,
          Manager.validatePeerModifications, admin])
    · rw [same.db] at stored
      exact .inr ⟨accepted, now, existing, u, same, stored, outcome⟩

theorem requested_lock (m : Manager) {ui : ContextUserInfo} (user : ui.isAdmin = false)
    (existing peer : Domain.Peer) :
    (requested m ui existing peer).ttlLocked = existing.ttlLocked ∧
      (requested m ui existing peer).expiresAt = peer.expiresAt := by
  rw [requested, user]
  obtain ⟨_, _, lock, requested, _⟩ := overwriteUserEditableFields_frame existing peer m.cfg
  exact ⟨lock, requested⟩

/-- The handler of events does not touch a locked peer. -/
theorem handlePeerStateChangeEvent_locked (peerStatus : PeerStatus) {peer : Domain.Peer}
    (locked : peer.ttlLocked = true) :
    m.handlePeerStateChangeEvent peerStatus peer = return () := by
  unfold Manager.handlePeerStateChangeEvent
  cases m.cfg.core.deleteExpiredPeers with
  | false => rfl
  | true =>
    cases parseDurationWithDays m.cfg.core.defaultUserTTL with
    | none => rfl
    | some ttlDuration => simp only [locked, if_true, Bool.not_true, Bool.false_eq_true, if_false]

theorem uses_sufficientTTL (peerStatus : PeerStatus) (peer : Domain.Peer) :
    (sufficientTTL peerStatus peer).Uses Reading := by
  unfold sufficientTTL
  split
  · exact ⟨trivial, fun _ => trivial⟩
  · trivial

/-- The handler of events does nothing but to update the peer. -/
theorem always_handlePeerStateChangeEvent (peerStatus : PeerStatus) (peer : Domain.Peer)
    (s : World w) :
    (m.handlePeerStateChangeEvent peerStatus peer).Always (Turn client can) s fun _ t =>
      Untouched s t ∨ ∃ r existing expiresAt u, Untouched s u ∧
        s.db.peer peer.identifier = some existing ∧
          UpdateOutcome client can m systemAdminContextUserInfo existing
            { peer with expiresAt := expiresAt } u r t := by
  have idle : Untouched s s := Untouched.refl s
  unfold Manager.handlePeerStateChangeEvent
  split
  · exact .inl idle
  · split
    · exact .inl idle
    · split
      · exact .inl idle
      · rename_i ttlDuration _ _
        refine (always_untouched (uses_sufficientTTL peerStatus peer) s).bind fun enough t same => ?_
        cases enough with
        | true => exact .inl same
        | false =>
          refine Program.always_perform_bind.mpr fun now u turn => ?_
          have same' := same.trans (turn.reading trivial)
          refine (always_updatePeer m _ _ u).bind fun r t ended => ?_
          rcases ended with ⟨err, _, same'', _⟩ | ⟨existing, stored, _, outcome⟩
          · exact .inl (same'.trans same'')
          · rw [same'.db] at stored
            exact .inr ⟨r, existing, some (now + ttlDuration), u, same', stored, outcome⟩

theorem storable_of_untouched {existing q : Domain.Peer} (same : Untouched s t)
    (storable : Storable m t existing q) : Storable m s existing q := by
  obtain ⟨served, replaces⟩ := storable
  rw [same.db, same.devices] at served replaces
  exact ⟨served, replaces⟩

/-- A locked peer with this time of expiry -/
def Good (expiresAt : Option Time) (p : Domain.Peer) : Prop :=
  p.ttlLocked = true ∧ p.expiresAt = expiresAt

theorem exists_of_follow {good : Domain.Peer → Prop} {db : Db} {id renamed : PeerIdentifier}
    (kept : ∀ p, db.peer id = some p → good p)
    (moved : db.peer id = none → ∀ p, db.peer renamed = some p → good p) {id' : PeerIdentifier}
    (followed : follow db id renamed = some id') : ∃ p, db.peer id' = some p ∧ good p := by
  unfold follow at followed
  cases here : db.peer id with
  | some p =>
    simp only [here, Option.isSome_some, if_true] at followed
    exact ⟨p, Option.some.inj followed ▸ here, kept p here⟩
  | none =>
    cases there : db.peer renamed with
    | none => simp [here, there] at followed
    | some p =>
      simp only [here, there, Option.isSome_none, Option.isSome_some, Bool.false_eq_true, if_false,
        if_true] at followed
      exact ⟨p, Option.some.inj followed ▸ there, moved here p there⟩

/-- Where the peer is after an action about it -/
def Followed (expiresAt : Option Time) (action : Action) (id : PeerIdentifier)
    (r : Except Error (Option Domain.Peer)) (t : World w) : Prop :=
  ∀ id', follow t.db id (action.renamed r) = some id' →
    ∃ p, t.db.peer id' = some p ∧ Good expiresAt p

theorem followed_of_stored {expiresAt : Option Time} {action : Action}
    {r : Except Error (Option Domain.Peer)} {p : Domain.Peer} (stored : t.db.peer id = some p)
    (good : Good expiresAt p) : Followed expiresAt action id r t := by
  intro id' followed
  refine exists_of_follow (fun p' found => ?_) (fun gone => ?_) followed
  · rw [← Option.some.inj (stored.symm.trans found)]
    exact good
  · rw [stored] at gone
    cases gone

/-- An update of the peer that is not one of an admin keeps the lock. -/
theorem followed_of_updated {expiresAt : Option Time} {existing q p : Domain.Peer} {u : World w}
    (outcome : UpdateOutcome client can m ui existing q u (.ok p) t)
    (named : q.identifier = existing.identifier) (good : Good expiresAt q) :
    Followed expiresAt (.update ui v id req) existing.identifier (.ok (some p)) t := by
  obtain ⟨_, freed, base, addresses, found⟩ := outcome.stored named
  intro id' followed
  refine exists_of_follow (fun p' stored => ?_) (fun _ p' stored => ?_) followed
  · by_cases same : p.identifier = existing.identifier
    · rw [← same, found] at stored
      rw [← Option.some.inj stored]
      exact good
    · rw [freed same] at stored
      cases stored
  · rw [← Option.some.inj (found.symm.trans stored)]
    exact good

theorem always_update {expiresAt : Option Time} {s : State w} {circumstances : ℕ → Circumstance}
    {p : Domain.Peer} (stored : s.world.db.peer req.identifier = some p) (good : Good expiresAt p)
    (here : s.peer = some req.identifier) (kept : expiryToDomain v req.expiresAt = p.expiresAt)
    (guarded : ¬ Overwritten m s (.update ui v id req, circumstances)) :
    ((Action.update ui v id req).program m).Always (Turn client Legible) s.world
      (Followed expiresAt (.update ui v id req) req.identifier) := by
  unfold Action.program
  refine (always_handleUpdatePut m ui v id req s.world).bind fun r t ended => ?_
  rcases ended with ⟨err, rfl, same, _⟩ | ⟨accepted, now, existing, u, same, found, outcome⟩
  · exact followed_of_stored (same.db ▸ stored) good
  · have eq : existing = p := Option.some.inj (found.symm.trans stored)
    subst eq
    have owned : existing.identifier = req.identifier := Db.identifier_of_peer stored
    have named := requested_identifier m ui existing (newDomainPeer now req)
      owned.symm
    cases r with
    | error err =>
      rcases outcome.stored_of_error with as | gone
      · rw [owned, same.db, stored] at as
        exact followed_of_stored as good
      · rw [owned] at gone
        intro id' followed
        refine exists_of_follow (fun p' stored => ?_) (fun _ p' stored => ?_) followed <;>
          exact absurd (stored.symm.trans gone) (by simp)
    | ok saved =>
      cases admin : ui.isAdmin with
      | true =>
        have q : requested m ui existing (newDomainPeer now req) = newDomainPeer now req := by
          rw [requested, if_pos admin]
        rw [q] at outcome named
        have storable := outcome.storable (not_misread u) named
        exact absurd ⟨admin, accepted, here, existing, now, stored,
          storable_of_untouched same storable⟩ guarded
      | false =>
        obtain ⟨locked, expiry⟩ := requested_lock m admin existing (newDomainPeer now req)
        have good' : Good expiresAt (requested m ui existing (newDomainPeer now req)) :=
          ⟨locked.trans good.1, (expiry.trans kept).trans good.2⟩
        exact owned ▸ followed_of_updated outcome named good'

/-- Actions about other peers -/
theorem always_other (action : Action) (id : PeerIdentifier) {p : Domain.Peer} (s : World w)
    (stored : s.db.peer id = some p) (other : action.subject ≠ id) :
    (action.program m).Always (Turn client Legible) s fun _ t => t.db.peer id = some p := by
  cases action with
  | event peerStatus peer =>
    unfold Action.program
    refine (always_handlePeerStateChangeEvent peerStatus peer s).bind fun _ t ended => ?_
    rcases ended with same | ⟨r, existing, expiresAt, u, same, found, outcome⟩
    · exact (congrArg (Db.peer · id) same.db).trans stored
    · have owned : existing.identifier = peer.identifier := Db.identifier_of_peer found
      have ne : id ≠ existing.identifier := owned ▸ Ne.symm other
      exact outcome.other (not_misread u) owned.symm ne (same.db ▸ stored)
  | update ui v id' req =>
    unfold Action.program
    refine (always_handleUpdatePut m ui v id' req s).bind fun r t ended => ?_
    have kept : t.db.peer id = some p := by
      rcases ended with ⟨err, rfl, same, _⟩ | ⟨_, now, existing, u, same, found, outcome⟩
      · exact same.db ▸ stored
      · have owned : existing.identifier = req.identifier := Db.identifier_of_peer found
        have ne : id ≠ existing.identifier := owned ▸ Ne.symm other
        have named := requested_identifier m ui existing (newDomainPeer now req)
          owned.symm
        exact outcome.other (not_misread u) named ne (same.db ▸ stored)
    cases r <;> exact kept

end Step

section Loss

variable {client : Client w} {can : Conditions w} {m : Manager} {ui : ContextUserInfo} {existing q : Domain.Peer}
  {s t : World w}

/-- With no failing operation, an admin's update that can be saved is saved. -/
theorem exists_ok_of_storable (admin : ui.isAdmin = true) {r : Except Error Domain.Peer}
    (outcome : UpdateOutcome client NoFault m ui existing q s r t)
    (named : q.identifier = existing.identifier)
    (stored : s.db.peer existing.identifier = some existing) (storable : Storable m s existing q) :
    ∃ p, r = .ok p := by
  obtain ⟨iface, served⟩ := storable.served
  cases outcome with
  | refused same why =>
    obtain ⟨other, known⟩ := why.resolve_right (no_mishap s)
    rw [(storable.replaces other).1] at known
    cases known
  | updated own outcome =>
    rw [own.trans named.symm] at served
    cases outcome with
    | done => exact ⟨_, rfl⟩
    | refused same why => exact absurd served (why.resolve_right (no_mishap s) iface)
    | stranded _ stranded => exact absurd stranded no_stranded
  | undeleted other unknown outcome =>
    cases outcome with
    | refused same why =>
      obtain ⟨old, served'⟩ := (storable.replaces other).2 existing stored
      rcases why.resolve_right (no_mishap s) existing stored with denied | unserved
      · exact absurd (by simp [Allowed, validateUserAccessRights,
          Manager.validatePeerModifications, admin]) denied
      · exact absurd served' (unserved old)
    | stranded _ _ stranded => exact absurd stranded no_stranded
  | replaced other unknown deleted outcome =>
    cases deleted with
    | done found _ db devices =>
      have served' := (served_removed db devices).mpr served
      cases outcome with
      | done => exact ⟨_, rfl⟩
      | refused same why => exact absurd served' (why.resolve_right (no_mishap _) iface)
      | stranded _ stranded => exact absurd stranded no_stranded

/-- The update by an admin leaves the peer without a lock. -/
def Unlocked (action : Action) (id : PeerIdentifier) (r : Except Error (Option Domain.Peer))
    (t : World w) : Prop :=
  ∃ id' p, follow t.db id (action.renamed r) = some id' ∧ t.db.peer id' = some p ∧
    p.ttlLocked = false

theorem unlocked_of_updated {v : Version} {id : PeerIdentifier} {req : Peer v} {p : Domain.Peer}
    {u : World w} (outcome : UpdateOutcome client can m ui existing q u (.ok p) t)
    (named : q.identifier = existing.identifier) (unlocked : q.ttlLocked = false) :
    Unlocked (.update ui v id req) existing.identifier (.ok (some p)) t := by
  obtain ⟨_, freed, base, addresses, found⟩ := outcome.stored named
  refine ⟨p.identifier, _, ?_, found, unlocked⟩
  by_cases same : p.identifier = existing.identifier
  · rw [same] at found
    simp only [follow, found, Option.isSome_some, if_true, same]
  · simp only [follow, freed same, Action.renamed, found, Option.isSome_none, Option.isSome_some,
      Bool.false_eq_true, if_false, if_true]

/-- With no failing operation, a lock that an admin overwrites is lost. -/
theorem next_overwritten {s : State w} {label : Label} (faultless : Faultless label.2)
    (overwritten : Overwritten m s label) {t : State w} (step : next client m s label = some t) :
    ∃ id p, t.peer = some id ∧ t.world.db.peer id = some p ∧ p.ttlLocked = false := by
  obtain ⟨action, circumstances⟩ := label
  cases action with
  | event peerStatus peer => exact absurd overwritten id
  | update ui v id req =>
    obtain ⟨admin, addressed, here, existing, now, stored, storable⟩ := overwritten
    have owned : existing.identifier = req.identifier := Db.identifier_of_peer stored
    have always : ((Action.update ui v id req).program m).Always (Turn client NoFault) s.world
        (Unlocked (.update ui v id req) req.identifier) := by
      unfold Action.program
      refine (always_handleUpdatePut m ui v id req s.world).bind fun r t ended => ?_
      rcases ended with ⟨err, rfl, same, why⟩ | ⟨_, now', existing', u, same, found, outcome⟩
      · rcases why admin addressed with gone | mishap
        · rw [stored] at gone
          cases gone
        · exact absurd mishap (no_mishap _)
      · have eq : existing' = existing := Option.some.inj (found.symm.trans stored)
        subst eq
        rw [requested, if_pos admin] at outcome
        have storable' : Storable m u existing' (newDomainPeer now' req) := by
          obtain ⟨⟨iface, served⟩, replaces⟩ := storable
          rw [← same.db, ← same.devices] at served replaces
          exact ⟨⟨iface, served.stored, served.key, served.device⟩, replaces⟩
        obtain ⟨p, rfl⟩ := exists_ok_of_storable admin outcome owned.symm
          (by rw [same.db, owned, stored]) storable'
        exact owned ▸ unlocked_of_updated outcome owned.symm rfl
    obtain ⟨id', p, followed, found, unlocked⟩ := run_of_always (fun _ _ n => faultless n) always
    rw [next] at step
    rw [← Option.some.inj step]
    refine ⟨id', p, ?_, found, unlocked⟩
    simp only [here, Action.subject, Option.bind_some, if_true]
    exact followed

end Loss

/-- The invariant of the runs -/
structure Locked (expiresAt : Option Time) (s : State w) : Prop where
  honoured : Honoured expiresAt s
  versions : ∀ p ∈ s.versions, p.ttlLocked = true

theorem locked_append {expiresAt : Option Time} {world : World w} {peer : Option PeerIdentifier}
    {versions : List Domain.Peer} (honoured : Honoured expiresAt ⟨world, peer, versions⟩)
    (before : ∀ p ∈ versions, p.ttlLocked = true) :
    Locked expiresAt ⟨world, peer, versions ++ (peer.bind world.db.peer).toList⟩ := by
  refine ⟨honoured, fun p mem => ?_⟩
  rcases List.mem_append.mp mem with old | new
  · exact before p old
  · obtain ⟨id, here, found⟩ := Option.bind_eq_some_iff.mp (Option.mem_toList.mp new)
    obtain ⟨p', stored, locked, _⟩ := honoured id here
    rw [Option.some.inj (found.symm.trans stored)]
    exact locked

theorem locked_next {client : Client w} {m : Manager} {expiresAt : Option Time} {s t : State w}
    {label : Label} (inv : Locked expiresAt s) (possible : Possible s label)
    (guarded : ¬ Overwritten m s label) (step : next client m s label = some t) :
    Locked expiresAt t := by
  have legible : ∀ op s n, Legible (w := w) op s (label.2 n) := fun _ _ n => possible.1 n
  rw [next] at step
  rw [← Option.some.inj step]
  refine locked_append ?_ inv.versions
  intro id' here
  obtain ⟨id, before, after⟩ := Option.bind_eq_some_iff.mp here
  obtain ⟨p, stored, good⟩ := inv.honoured id before
  by_cases subject : label.1.subject = id
  · simp only [subject, if_true] at after
    obtain ⟨action, circumstances⟩ := label
    cases action with
    | event peerStatus peer =>
      have shown : peer ∈ s.versions := possible.2 id before subject
      have idle : (Action.event peerStatus peer).program m = return .ok none := by
        rw [Action.program, handlePeerStateChangeEvent_locked peerStatus (inv.versions peer shown)]
        rfl
      have always : ((Action.event peerStatus peer).program m).Always (Turn client Legible) s.world
          (Followed expiresAt (.event peerStatus peer) id) := by
        rw [idle]
        exact followed_of_stored stored good
      exact run_of_always legible always id' after
    | update ui v target req =>
      have subject' : req.identifier = id := subject
      subst subject'
      have always : ((Action.update ui v target req).program m).Always (Turn client Legible)
          s.world (Followed expiresAt (.update ui v target req) req.identifier) :=
        always_update stored good before (possible.2 _ before rfl p stored) guarded
      exact run_of_always legible always id' after
  · simp only [subject, if_false] at after
    rw [← Option.some.inj after]
    have always : (label.1.program m).Always (Turn client Legible) s.world
        fun _ t => t.db.peer id = some p := always_other label.1 id s.world stored subject
    exact ⟨p, run_of_always legible always, good⟩

/-- In every run after a provisioning request by an admin in which no admin
overwrites the peer, its lock is honoured. -/
theorem guarded_run_honoured (client : Client w) (m : Manager) {ui : ContextUserInfo}
    (admin : ui.isAdmin = true) {req : ProvisioningRequest} {expiresAt : Option Time}
    (asks : Asks req expiresAt) {circumstances : ℕ → Circumstance} {world : World w}
    {s t : State w} {labels : List Label}
    (start : provisioned client m ui req circumstances world = some s)
    (guarded : Guarded (next client m)
      (fun s label => Possible s label ∧ ¬ Overwritten m s label) s labels)
    (run : runFrom (next client m) s labels = some t) : Honoured expiresAt t := by
  have honoured := (provisioned_honoured_iff asks start).mpr admin
  have locked : Locked expiresAt s := by
    rw [provisioned] at start
    split at start
    · rename_i p u _
      rw [← Option.some.inj start] at honoured ⊢
      have first : Honoured expiresAt ⟨u, some p.identifier, []⟩ := honoured
      exact locked_append first fun _ mem => by cases mem
    · cases start
  have step : ∀ s label s', Locked expiresAt s → Possible s label ∧ ¬ Overwritten m s label →
      next client m s label = some s' → Locked expiresAt s' :=
    fun s label s' inv guard taken => locked_next inv guard.1 guard.2 taken
  exact (run_invariant step guarded run locked).honoured

/-- Users may provision peers, and expired peers are deleted. -/
def selfService : Manager :=
  ⟨{ defaultConfig with
      core := { defaultConfig.core with selfProvisioningAllowed := true, deleteExpiredPeers := true } },
    [], false⟩

/-- A peer of the user that does not expire -/
def eternal : ProvisioningRequest := ⟨"wg0", "user", "laptop", "", "", "", true, false⟩

def keyed : ℕ → Circumstance := fun _ => ⟨1, none, ⟨"", sampleKey⟩, ""⟩

def noPeers : World plainTypes :=
  { sampleWorld "" with db := { Db.empty with interfaces := Table.empty.upsert sampleInterface } }

def provisionedBy (ui : ContextUserInfo) : State plainTypes :=
  (provisioned (plainClient plainTypes) selfService ui eternal keyed noPeers).getD
    ⟨noPeers, none, []⟩

theorem provisioned_eq {ui : ContextUserInfo}
    (succeeds : (provisioned (plainClient plainTypes) selfService ui eternal keyed noPeers).isSome =
      true) :
    provisioned (plainClient plainTypes) selfService ui eternal keyed noPeers =
      some (provisionedBy ui) := by
  obtain ⟨s, found⟩ := Option.isSome_iff_exists.mp succeeds
  rw [provisionedBy, found, Option.getD_some]

theorem asks_eternal : Asks eternal none := by simp [Asks, eternal]

theorem keyed_legible (n : ℕ) (err : Error) (fault : (keyed n).fault = some err) :
    err.is .notFound = false := by cases fault

/-- The peer connects. -/
def connected (s : State plainTypes) : Label :=
  (.event { PeerStatus.fresh sampleKey 1 with isConnected := true } (s.versions.headD Peer.zero),
    keyed)

def ownUpdate : Label :=
  (.update ⟨"user", false⟩ .v0 sampleKey
    { newPeer .v0 (samplePeer "") with displayName := "phone" }, keyed)

def reached (s : State plainTypes) (label : Label) : State plainTypes :=
  (next (plainClient plainTypes) selfService s label).getD s

/-- A peer that an admin provisioned for a user, after an event and an update by its owner -/
theorem eternal_honoured : Honoured none
    (reached (reached (provisionedBy ⟨"admin", true⟩) (connected (provisionedBy ⟨"admin", true⟩)))
      ownUpdate) := by
  let s := provisionedBy ⟨"admin", true⟩
  have shown : s.versions.headD Peer.zero ∈ s.versions := by decide +kernel
  have kept : ((reached s (connected s)).world.db.peer sampleKey).map (·.expiresAt) = some none := by
    decide +kernel
  have start := @provisioned_eq ⟨"admin", true⟩ (by decide +kernel)
  have guarded : Guarded (next (plainClient plainTypes) selfService)
      (fun s label => Possible s label ∧ ¬ Overwritten selfService s label) s
      [connected s, ownUpdate] := by
    refine ⟨⟨⟨keyed_legible, fun _ _ _ => shown⟩, id⟩, fun s' step => ?_⟩
    rw [← Option.some.inj step]
    refine ⟨⟨⟨keyed_legible, ?_⟩, fun overwritten => by cases overwritten.1⟩, fun _ _ => trivial⟩
    intro id _ same p stored
    have same' : sampleKey = id := same
    subst same'
    have expiresAt : some p.expiresAt = some none := by
      rw [← kept]
      exact congrArg (Option.map (·.expiresAt)) stored.symm
    exact (Option.some.inj expiresAt).symm
  exact guarded_run_honoured (plainClient plainTypes) selfService rfl asks_eternal start guarded rfl

/-- The lock of a peer that a user provisions is lost at once, and its time of expiry
with the first event. -/
theorem selfProvisioned_not_honoured : Asks eternal none ∧
    provisioned (plainClient plainTypes) selfService ⟨"user", false⟩ eternal keyed noPeers =
      some (provisionedBy ⟨"user", false⟩) ∧
    Possible (provisionedBy ⟨"user", false⟩) (connected (provisionedBy ⟨"user", false⟩)) ∧
    ¬ Honoured none (provisionedBy ⟨"user", false⟩) ∧
    ∃ p, (reached (provisionedBy ⟨"user", false⟩)
      (connected (provisionedBy ⟨"user", false⟩))).world.db.peer sampleKey = some p ∧
        p.expiresAt ≠ none := by
  let s := provisionedBy ⟨"user", false⟩
  have shown : s.versions.headD Peer.zero ∈ s.versions := by decide +kernel
  have here : s.peer = some sampleKey := by decide +kernel
  have unlocked : (s.world.db.peer sampleKey).map (·.ttlLocked) = some false := by decide +kernel
  have renewed : ((reached s (connected s)).world.db.peer sampleKey).map (·.expiresAt) =
      some (some (1 + 30 * 24 * hour)) := by decide +kernel
  refine ⟨asks_eternal, provisioned_eq (by decide +kernel), ⟨keyed_legible, fun _ _ _ => shown⟩,
    fun honoured => ?_, ?_⟩
  · obtain ⟨p, stored, locked, _⟩ := honoured sampleKey here
    rw [stored, Option.map_some, locked] at unlocked
    cases unlocked
  · obtain ⟨p, stored, expiresAt⟩ := Option.map_eq_some_iff.mp renewed
    exact ⟨p, stored, by rw [expiresAt]; simp⟩

end WgPortal.Api.TTLLock
