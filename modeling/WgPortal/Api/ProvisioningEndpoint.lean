import WgPortal.Api.TTLLock
import WgPortal.WireGuard.UserEvents

/-! The endpoint that provisions a new peer, and what comes of the same request made again. -/

namespace WgPortal.WireGuard

open Domain Library Adapters
open ManagerProgram (issue)

/-- A client is shown with the default allowed IPs of its interface. -/
def shownWith (interfaces : List Interface) (peer : Peer) : Peer :=
  if peer.interface.type = .client then
    match interfaces.find? (·.identifier = peer.interfaceIdentifier) with
    | some iface =>
      { peer with allowedIPsStr := { peer.allowedIPsStr with value := iface.peerDefAllowedIPsStr } }
    | none => peer
  else peer

/-- `Manager.GetUserPeers` -/
def Manager.getUserPeers (ui : ContextUserInfo) (id : UserIdentifier) :
    ManagerProgram (Except Error (List Peer)) := do
  match validateUserAccessRights ui id with
  | .error err => return .error err
  | .ok _ =>
    match ← issue (.repo (.getUserPeers id)) with
    | .error err => return .error err
    | .ok peers =>
      match ← issue (.repo .getAllInterfaces) with
      | .error _ => return .ok peers
      | .ok interfaces => return .ok (peers.map (shownWith interfaces))

end WgPortal.WireGuard

namespace WgPortal.Api

open Domain Library Adapters Calendar Config WgController WireGuard PeerSteps PeerCreation
open ManagerProgram (issue)

def findPeerByDisplayNameAndUserIdentifier (ui : ContextUserInfo) (displayName : String)
    (userIdentifier : UserIdentifier) : ManagerProgram (Except Error Domain.Peer) := do
  match ← Manager.getUserPeers ui userIdentifier with
  | .error err => return .error err
  | .ok peers =>
    match peers.find? (·.displayName = displayName) with
    | some peer => return .ok peer
    | none => return .error .notFound

/-- The default time of expiry, if the request has none. -/
def withDefaultExpiry (m : Manager) (req : ProvisioningRequest) :
    ManagerProgram ProvisioningRequest := do
  if req.expiresAt = "" && !req.doNotExpire && m.cfg.core.defaultUserTTL ≠ "" then
    match parseDurationWithDays m.cfg.core.defaultUserTTL with
    | none => return req
    | some ttlDuration =>
      let currentDate ← issue .timeNow
      return { req with
        expiresAt := String.ofList (formatRFC3339 (currentDate + ttlDuration))
        expiresAtIsDefault := true }
  return req

/-- The interface is only shown to admins; without it, the peer is answered as it is. -/
def overrideAllowedIPsForAPI (ui : ContextUserInfo) (peer : Domain.Peer) :
    ManagerProgram Domain.Peer := do
  if peer.interface.type ≠ .client then return peer
  match validateAdminAccessRights ui with
  | .error _ => return peer
  | .ok _ =>
    match ← issue (.repo (.getInterface peer.interfaceIdentifier)) with
    | .error _ => return peer
    | .ok iface =>
      match ← issue (.repo (.getInterfacePeers peer.interfaceIdentifier)) with
      | .error _ => return peer
      | .ok _ =>
        return { peer with
          allowedIPsStr := { peer.allowedIPsStr with value := iface.peerDefAllowedIPsStr } }

/-- `handleNewPeerPost`, for a request that was decoded. -/
def handleNewPeerPost (m : Manager) (ui : ContextUserInfo) (req : ProvisioningRequest) :
    ManagerProgram (Except Error (Peer .v1)) := do
  let req ← withDefaultExpiry m req
  match ← findPeerByDisplayNameAndUserIdentifier ui req.displayName req.userIdentifier with
  | .ok existingPeer => return .ok (newPeer .v1 (← overrideAllowedIPsForAPI ui existingPeer))
  | .error err =>
    if !err.is .notFound then return .error err
    match ← provisionPeer m ui req with
    | .error err => return .error err
    | .ok peer => return .ok (newPeer .v1 (← overrideAllowedIPsForAPI ui peer))

namespace ProvisioningEndpoint

variable {w : Wgtypes} {client : Client w} {can : Conditions w} {m : Manager}
  {ui : ContextUserInfo} {req : ProvisioningRequest} {s t : World w}

/-- The user that a new peer is for -/
def effectiveUser (ui : ContextUserInfo) (req : ProvisioningRequest) : UserIdentifier :=
  if req.userIdentifier = "" then ui.id else req.userIdentifier

/-- The stored peer that the endpoint takes for the requested one -/
def existing (db : Db) (req : ProvisioningRequest) : Option Domain.Peer :=
  (db.getUserPeers req.userIdentifier).find? (·.displayName = req.displayName)

/-- The fields of a peer that the endpoint decides by -/
structure SameFields (p q : Domain.Peer) : Prop where
  identifier : p.identifier = q.identifier
  userIdentifier : p.userIdentifier = q.userIdentifier
  interfaceIdentifier : p.interfaceIdentifier = q.interfaceIdentifier
  displayName : p.displayName = q.displayName

theorem SameFields.refl (p : Domain.Peer) : SameFields p p := ⟨rfl, rfl, rfl, rfl⟩

theorem shownWith_same (interfaces : List Domain.Interface) (p : Domain.Peer) :
    SameFields (shownWith interfaces p) p := by
  unfold shownWith
  split
  · split <;> exact ⟨rfl, rfl, rfl, rfl⟩
  · exact .refl p

/-- The shown peer is found where the stored one is. -/
theorem find_shown (interfaces : List Domain.Interface) (peers : List Domain.Peer) (name : String) :
    (peers.map (shownWith interfaces)).find? (·.displayName = name) =
      (peers.find? (·.displayName = name)).map (shownWith interfaces) := by
  rw [List.find?_map]
  congr 1
  refine congrArg (List.find? · peers) (funext fun p => ?_)
  show decide ((shownWith interfaces p).displayName = name) = decide (p.displayName = name)
  rw [(shownWith_same interfaces p).displayName]

theorem shownWith_nil (p : Domain.Peer) : shownWith [] p = p := by
  unfold shownWith
  split <;> rfl

/-- The peers of the user are read, unless the user is none of the caller's business. -/
theorem always_getUserPeers (ui : ContextUserInfo) (user : UserIdentifier) (s : World w)
    (read : ∀ s, ¬ Misread can s) :
    (Manager.getUserPeers ui user).Always (Turn client can) s fun r t => Untouched s t ∧
      match r with
      | .error err => err.is .notFound = false
      | .ok peers => validateUserAccessRights ui user = .ok () ∧
        ∃ interfaces, peers = (s.db.getUserPeers user).map (shownWith interfaces) := by
  have same : Untouched s s := Untouched.refl s
  unfold Manager.getUserPeers
  cases rights : validateUserAccessRights ui user with
  | error err =>
    refine ⟨same, ?_⟩
    unfold validateUserAccessRights at rights
    split at rights
    · cases rights
    · split at rights
      · cases rights
      · rw [← Except.error.inj rights]
        rfl
  | ok _ =>
    refine Program.always_perform_bind.mpr fun answer t turn => ?_
    rcases turn.repo with ⟨err, rfl, rfl, fails⟩ | ⟨now, rfl, rfl⟩
    · refine ⟨same, Bool.eq_false_iff.mpr fun missing => read t ?_⟩
      exact ⟨_, _, err, same, fails, missing⟩
    · refine Program.always_perform_bind.mpr fun answer t turn => ?_
      have unchanged : Untouched s t := turn.reading trivial
      rcases turn.repo with ⟨err, rfl, rfl, fails⟩ | ⟨now, rfl, rfl⟩
      · have asIs : shownWith [] = id := funext shownWith_nil
        exact ⟨unchanged, rfl, [], by rw [asIs, List.map_id]⟩
      · exact ⟨unchanged, rfl, _, rfl⟩

theorem always_find (s : World w) (read : ∀ s, ¬ Misread can s) :
    (findPeerByDisplayNameAndUserIdentifier ui req.displayName req.userIdentifier).Always
      (Turn client can) s fun r t => Untouched s t ∧
        match r with
        | .error err => err.is .notFound = true →
          existing s.db req = none ∧ validateUserAccessRights ui req.userIdentifier = .ok ()
        | .ok p => ∃ q, existing s.db req = some q ∧ SameFields p q := by
  unfold findPeerByDisplayNameAndUserIdentifier
  refine (always_getUserPeers ui req.userIdentifier s read).bind fun r t ⟨same, ended⟩ => ?_
  cases r with
  | error err => exact ⟨same, fun missing => by cases missing.symm.trans ended⟩
  | ok peers =>
    obtain ⟨rights, interfaces, rfl⟩ := ended
    simp only [find_shown]
    rw [show (s.db.getUserPeers req.userIdentifier).find? (·.displayName = req.displayName) =
      existing s.db req from rfl]
    cases found : existing s.db req with
    | none => exact ⟨same, fun _ => ⟨rfl, rights⟩⟩
    | some q => exact ⟨same, q, rfl, shownWith_same interfaces q⟩

theorem always_overrideAllowedIPsForAPI (p : Domain.Peer) (s : World w) :
    (overrideAllowedIPsForAPI ui p).Always (Turn client can) s fun r t =>
      Untouched s t ∧ SameFields r p := by
  have same : Untouched s s := Untouched.refl s
  unfold overrideAllowedIPsForAPI
  split
  · exact ⟨same, .refl p⟩
  · split
    · exact ⟨same, .refl p⟩
    · refine Program.always_perform_bind.mpr fun answer t turn => ?_
      have same := same.trans (turn.reading trivial)
      cases answer with
      | error err => exact ⟨same, .refl p⟩
      | ok iface =>
        refine Program.always_perform_bind.mpr fun answer u turn => ?_
        have same := same.trans (turn.reading trivial)
        cases answer with
        | error err => exact ⟨same, .refl p⟩
        | ok peers => exact ⟨same, rfl, rfl, rfl, rfl⟩

/-- The peer is on the requested interface, for this user and with the requested name. -/
structure Requested (req : ProvisioningRequest) (user : UserIdentifier) (p : Domain.Peer) :
    Prop where
  userIdentifier : p.userIdentifier = user
  interfaceIdentifier : p.interfaceIdentifier = req.interfaceIdentifier
  displayName : p.displayName = req.displayName

theorem SameFields.symm {p q : Domain.Peer} (same : SameFields p q) : SameFields q p :=
  ⟨same.identifier.symm, same.userIdentifier.symm, same.interfaceIdentifier.symm,
    same.displayName.symm⟩

theorem SameFields.trans {p q r : Domain.Peer} (first : SameFields p q) (second : SameFields q r) :
    SameFields p r :=
  ⟨first.identifier.trans second.identifier, first.userIdentifier.trans second.userIdentifier,
    first.interfaceIdentifier.trans second.interfaceIdentifier,
    first.displayName.trans second.displayName⟩

theorem SameFields.requested {user : UserIdentifier} {p q : Domain.Peer} (same : SameFields p q)
    (requested : Requested req user q) : Requested req user p :=
  ⟨same.userIdentifier.trans requested.userIdentifier,
    same.interfaceIdentifier.trans requested.interfaceIdentifier,
    same.displayName.trans requested.displayName⟩

/-- One new peer is stored, as it was requested; an admin's has a new identifier. -/
structure Created (ui : ContextUserInfo) (req : ProvisioningRequest) (db db' : Db)
    (p : Domain.Peer) : Prop where
  stored : ∃ q, db'.peer p.identifier = some q ∧ SameFields q p
  requested : Requested req (effectiveUser ui req) p
  other : ∀ id, id ≠ p.identifier → db'.peer id = db.peer id
  unknown : ui.isAdmin = true → db.peer p.identifier = none

theorem withKeys_same (p : Domain.Peer) :
    (req.withKeys p).userIdentifier = p.userIdentifier ∧
      (req.withKeys p).interfaceIdentifier = p.interfaceIdentifier := by
  unfold ProvisioningRequest.withKeys
  simp only
  by_cases key : req.publicKey = "" <;> by_cases preshared : req.presharedKey = "" <;>
    simp [key, preshared]

theorem requested_of_apply {user : UserIdentifier} (named : req.displayName ≠ "")
    {p q : Domain.Peer} (onInterface : p.interfaceIdentifier = req.interfaceIdentifier)
    (applied : req.apply user p = .ok q) : Requested req user q := by
  have kept := @withKeys_same req { p with userIdentifier := user }
  have start : Requested req user
      (req.withDisplayName (req.withKeys { p with userIdentifier := user })) := by
    unfold ProvisioningRequest.withDisplayName
    rw [if_pos named]
    exact ⟨kept.1, kept.2.trans onInterface, rfl⟩
  unfold ProvisioningRequest.apply ProvisioningRequest.withExpiry at applied
  split at applied
  · split at applied
    · cases applied
    · rw [← Except.ok.inj applied]
      split <;> exact ⟨start.userIdentifier, start.interfaceIdentifier, start.displayName⟩
  · split at applied
    · rw [← Except.ok.inj applied]
      exact ⟨start.userIdentifier, start.interfaceIdentifier, start.displayName⟩
    · rw [← Except.ok.inj applied]
      exact start

theorem fields_of_prepared {id : InterfaceIdentifier} {iface : Domain.Interface} {p : Domain.Peer}
    (stored : s.db.interfaces.find id = some iface) (prepared : Prepared can ui s iface p) :
    p.userIdentifier = ui.id ∧ p.interfaceIdentifier = id := by
  obtain ⟨ips, kp, pk, createdAt, updatedAt, _, rfl⟩ := prepared
  obtain ⟨⟨_, _, onInterface⟩, owner, _⟩ :=
    Manager.freshPeer_fields ui iface ips kp pk createdAt updatedAt
  exact ⟨owner, onInterface.trans (Table.key_of_find stored)⟩

/-- A peer that is saved for a request is the requested one. -/
theorem requested_of_candidate {user : UserIdentifier} {p q : Domain.Peer}
    (allowed : validateUserAccessRights ui user = .ok ()) (requested : Requested req user p)
    (candidate : Candidate can m ui s p q) : Requested req user q := by
  unfold Candidate at candidate
  cases admin : ui.isAdmin with
  | true =>
    simp only [admin, if_true] at candidate
    rw [candidate]
    exact requested
  | false =>
    simp only [admin, Bool.false_eq_true, if_false] at candidate
    obtain ⟨iface, prepared, stored, proposal, rfl⟩ := candidate
    obtain ⟨owner, onInterface⟩ := fields_of_prepared stored proposal
    have own : ui.id = user := by
      by_contra other
      simp [validateUserAccessRights, admin, other] at allowed
    obtain ⟨sameOwner, sameInterface, _, _, displayName⟩ :=
      overwriteUserEditableFields_frame prepared p m.cfg
    exact ⟨sameOwner.trans (owner.trans own),
      sameInterface.trans (onInterface.trans requested.interfaceIdentifier),
      displayName.trans requested.displayName⟩

/-- What the service creates -/
theorem always_provisionPeer (named : req.displayName ≠ "") (s : World w)
    (read : ∀ s, ¬ Misread can s) :
    (provisionPeer m ui req).Always (Turn client can) s fun r t =>
      ∀ p, r = .ok p → Created ui req s.db t.db p := by
  have failed : ∀ (err : Error) (t : World w) (p : Domain.Peer),
      (.error err : Except Error Domain.Peer) = .ok p → Created ui req s.db t.db p :=
    fun _ _ _ ok => by cases ok
  unfold provisionPeer
  simp only
  split
  · exact failed _ _
  · rename_i allowed
    have rights : validateUserAccessRights ui (effectiveUser ui req) = .ok () := by
      unfold effectiveUser
      split at allowed
      · cases allowed
      · assumption
    refine (always_preparePeer m ui _ s).bind fun r t ⟨same, prepared⟩ => ?_
    cases r with
    | error err => exact failed _ _
    | ok proposal =>
      obtain ⟨iface, found, prepared⟩ := prepared proposal rfl
      simp only
      split
      · exact failed _ _
      · rename_i peer applied
        have requested : Requested req (effectiveUser ui req) peer :=
          requested_of_apply named (fields_of_prepared found prepared).2 applied
        refine (always_createPeer m ui peer t).bind fun r u outcome => ?_
        cases r with
        | error err => exact failed _ _
        | ok created =>
          intro p ok
          rw [← Except.ok.inj ok]
          cases outcome with
          | attempted unknown candidate outcome =>
            cases outcome with
            | saved tried outcome =>
              rename_i q ips v
              have new := requested_of_candidate rights requested candidate
              have before : v.db = s.db := tried.db.trans same.db
              obtain ⟨base, addresses, rfl, stored⟩ := outcome.stored
              refine ⟨⟨_, stored, rfl, rfl, rfl, rfl⟩, ?_, fun id other => ?_, fun admin => ?_⟩
              · exact ⟨new.userIdentifier, new.interfaceIdentifier, new.displayName⟩
              · rw [outcome.other other, before]
              · rw [Candidate, if_pos admin] at candidate
                have free := unknown.resolve_right (read t)
                rw [same.db, ← candidate] at free
                exact free

theorem always_withDefaultExpiry (s : World w) :
    (withDefaultExpiry m req).Always (Turn client can) s fun r t => Untouched s t ∧
      ∃ expiresAt isDefault,
        r = { req with expiresAt := expiresAt, expiresAtIsDefault := isDefault } := by
  have same : Untouched s s := Untouched.refl s
  unfold withDefaultExpiry
  split
  · split
    · exact ⟨same, _, _, rfl⟩
    · refine Program.always_perform_bind.mpr fun answer t turn => ?_
      exact ⟨turn.reading trivial, _, _, rfl⟩
  · exact ⟨same, _, _, rfl⟩

/-- The answer shows this peer. -/
structure Describes (a : Peer .v1) (p : Domain.Peer) : Prop where
  identifier : a.identifier = p.identifier
  userIdentifier : a.userIdentifier = p.userIdentifier
  interfaceIdentifier : a.interfaceIdentifier = p.interfaceIdentifier
  displayName : a.displayName = p.displayName

theorem SameFields.describes {p q : Domain.Peer} (same : SameFields p q) :
    Describes (newPeer .v1 p) q :=
  ⟨same.identifier, same.userIdentifier, same.interfaceIdentifier, same.displayName⟩

theorem Describes.of_same {a : Peer .v1} {p q : Domain.Peer} (shows : Describes a p)
    (same : SameFields p q) : Describes a q :=
  ⟨shows.identifier.trans same.identifier, shows.userIdentifier.trans same.userIdentifier,
    shows.interfaceIdentifier.trans same.interfaceIdentifier,
    shows.displayName.trans same.displayName⟩

/-- How a request may be answered, if it is accepted -/
inductive Answered (ui : ContextUserInfo) (req : ProvisioningRequest) (db : Db) (a : Peer .v1) :
    Db → Prop
  | existing {p : Domain.Peer} (found : existing db req = some p) (shows : Describes a p) :
    Answered ui req db a db
  | created {db' : Db} {p : Domain.Peer} (missing : existing db req = none)
    (allowed : validateUserAccessRights ui req.userIdentifier = .ok ())
    (new : Created ui req db db' p) (shows : Describes a p) : Answered ui req db a db'

theorem always_handleNewPeerPost (named : req.displayName ≠ "") (s : World w)
    (read : ∀ s, ¬ Misread can s) :
    (handleNewPeerPost m ui req).Always (Turn client can) s fun r t =>
      ∀ a, r = .ok a → Answered ui req s.db a t.db := by
  have failed : ∀ (err : Error) (t : World w) (a : Peer .v1),
      (.error err : Except Error (Peer .v1)) = .ok a → Answered ui req s.db a t.db :=
    fun _ _ _ ok => by cases ok
  unfold handleNewPeerPost
  refine (always_withDefaultExpiry s).bind fun req' t ⟨same, expiresAt, isDefault, filled⟩ => ?_
  have named' : req'.displayName ≠ "" := by
    rw [filled]
    exact named
  have found_same : ∀ db, existing db req' = existing db req := by
    intro db
    rw [filled]
    rfl
  refine (always_find t read).bind fun r u ⟨same', ended⟩ => ?_
  have before : u.db = s.db := same'.db.trans same.db
  rw [same.db, found_same, filled] at ended
  cases r with
  | ok p =>
    obtain ⟨q, found, shown⟩ := ended
    refine (always_overrideAllowedIPsForAPI p u).bind fun r v ⟨same'', kept⟩ => ?_
    intro a ok
    rw [same''.db, before, ← Except.ok.inj ok]
    exact .existing found (kept.trans shown).describes
  | error err =>
    simp only
    split
    · exact failed _ _
    · rename_i missing
      obtain ⟨none, allowed⟩ := ended (by simpa using missing)
      refine (always_provisionPeer named' u read).bind fun r v created => ?_
      cases r with
      | error err => exact failed _ _
      | ok p =>
        obtain ⟨stored, requested, other, unknown⟩ := created p rfl
        refine (always_overrideAllowedIPsForAPI p v).bind fun r z ⟨same'', kept⟩ => ?_
        intro a ok
        rw [← Except.ok.inj ok]
        rw [before, ← same''.db] at other
        rw [before] at unknown
        rw [← same''.db] at stored
        rw [filled] at requested
        refine .created none allowed ⟨stored, ?_, other, unknown⟩ kept.describes
        exact ⟨requested.userIdentifier, requested.interfaceIdentifier, requested.displayName⟩

/-- The same request, handled once after the other, each time under other circumstances -/
def handleAll (client : Client w) (m : Manager) (ui : ContextUserInfo) (req : ProvisioningRequest) :
    List (ℕ → Circumstance) → World w → List (Except Error (Peer .v1)) × World w
  | [], s => ([], s)
  | circumstances :: later, s =>
    let (answer, t) := (handleNewPeerPost m ui req).run client circumstances s
    let (answers, u) := handleAll client m ui req later t
    (answer :: answers, u)

/-- At most one peer is new, and all answers show one stored peer, which is as requested. -/
structure Idempotent (req : ProvisioningRequest) (user : UserIdentifier) (db db' : Db)
    (answers : List (Peer .v1)) : Prop where
  atMostOne : ∀ id id', db.peer id = none → db.peer id' = none → (db'.peer id).isSome →
    (db'.peer id').isSome → id = id'
  described : ∃ p, db'.peer p.identifier = some p ∧ Requested req user p ∧
    ∀ a ∈ answers, Describes a p

/-- The name is looked up for the user that a new peer is for, and a peer found there
is on the requested interface. -/
def Resolved (ui : ContextUserInfo) (req : ProvisioningRequest) (db : Db) (times : ℕ) : Prop :=
  if effectiveUser ui req = req.userIdentifier then
    ∀ p, existing db req = some p → p.interfaceIdentifier = req.interfaceIdentifier
  else existing db req = none ∧ times ≤ 1

section Run

variable {answers : List (Peer .v1)} {handlings : List (ℕ → Circumstance)}

/-- No failure looks as if a record were missing. -/
def Readable (handlings : List (ℕ → Circumstance)) : Prop :=
  ∀ circumstances ∈ handlings, ∀ n err, (circumstances n).fault = some err →
    err.is .notFound = false

theorem existing_spec {db : Db} {p : Domain.Peer} (found : existing db req = some p) :
    db.peer p.identifier = some p ∧ p.userIdentifier = req.userIdentifier ∧
      p.displayName = req.displayName := by
  obtain ⟨stored, own⟩ := mem_getUserPeers.mp (List.mem_of_find?_eq_some found)
  have name := List.find?_some found
  exact ⟨stored, own, of_decide_eq_true name⟩

theorem existing_none {db : Db} : existing db req = none ↔
    ∀ p, db.peer p.identifier = some p → p.userIdentifier = req.userIdentifier →
      p.displayName ≠ req.displayName := by
  rw [existing, List.find?_eq_none]
  refine forall_congr' fun p => ?_
  rw [mem_getUserPeers, decide_eq_true_eq, and_imp]
  rfl

/-- The first of the answers, and the others -/
theorem handleAll_cons {circumstances : ℕ → Circumstance} {later : List (ℕ → Circumstance)}
    (named : req.displayName ≠ "") (readable : Readable (circumstances :: later))
    (accepted : (handleAll client m ui req (circumstances :: later) s).1 = answers.map .ok) :
    ∃ a rest t, answers = a :: rest ∧ Answered ui req s.db a t.db ∧
      (handleAll client m ui req later t).1 = rest.map .ok ∧
      (handleAll client m ui req (circumstances :: later) s).2 =
        (handleAll client m ui req later t).2 ∧ Readable later := by
  obtain ⟨first, readable'⟩ := List.forall_mem_cons.mp readable
  have answered : ∀ a,
      ((handleNewPeerPost m ui req).run client circumstances s).1 = .ok a →
      Answered ui req s.db a ((handleNewPeerPost m ui req).run client circumstances s).2.db :=
    run_of_always (fun _ _ n => first n)
      (always_handleNewPeerPost named s TTLLock.not_misread)
  cases answers with
  | nil => cases accepted
  | cons a rest =>
    obtain ⟨here, there⟩ := List.cons.inj accepted
    exact ⟨a, rest, _, rfl, answered a here, there, rfl, readable'⟩

/-- Once the peer is there, all answers show it, and nothing is stored. -/
theorem handleAll_existing (named : req.displayName ≠ "") (readable : Readable handlings)
    {p : Domain.Peer} (found : existing s.db req = some p)
    (accepted : (handleAll client m ui req handlings s).1 = answers.map .ok) :
    (handleAll client m ui req handlings s).2.db = s.db ∧ ∀ a ∈ answers, Describes a p := by
  induction handlings generalizing s answers with
  | nil =>
    obtain rfl : answers = [] := List.map_eq_nil_iff.mp accepted.symm
    exact ⟨rfl, fun a listed => by cases listed⟩
  | cons circumstances later ih =>
    obtain ⟨a, rest, t, rfl, answered, accepted', after, readable'⟩ :=
      handleAll_cons named readable accepted
    rw [after]
    generalize db' : t.db = db at answered
    cases answered with
    | existing found' shows =>
      obtain rfl := Option.some.inj (found'.symm.trans found)
      rw [← db'] at found
      obtain ⟨same, described⟩ := ih readable' found accepted'
      exact ⟨same.trans db', List.forall_mem_cons.mpr ⟨shows, described⟩⟩
    | created missing => cases missing.symm.trans found

/-- The created peer is found where its user is the one that is looked up. -/
theorem Created.existing {db db' : Db} {p : Domain.Peer} (created : Created ui req db db' p)
    (missing : existing db req = none) (same : effectiveUser ui req = req.userIdentifier) :
    ∃ q, existing db' req = some q ∧ SameFields q p := by
  obtain ⟨q, stored, kept⟩ := created.stored
  have own := kept.requested created.requested
  rw [same] at own
  rw [← kept.identifier] at stored
  cases found : ProvisioningEndpoint.existing db' req with
  | none => exact absurd own.displayName (existing_none.mp found q stored own.userIdentifier)
  | some r =>
    obtain ⟨stored', user, name⟩ := existing_spec found
    by_cases here : r.identifier = q.identifier
    · rw [here, stored] at stored'
      rw [← Option.some.inj stored']
      exact ⟨q, rfl, kept⟩
    · rw [created.other _ (kept.identifier ▸ here)] at stored'
      exact absurd name (existing_none.mp missing r stored' user)

/-- It is not found where its user is another one. -/
theorem Created.missing {db db' : Db} {p : Domain.Peer} (created : Created ui req db db' p)
    (missing : ProvisioningEndpoint.existing db req = none)
    (other : effectiveUser ui req ≠ req.userIdentifier) :
    ProvisioningEndpoint.existing db' req = none := by
  obtain ⟨q, stored, kept⟩ := created.stored
  refine existing_none.mpr fun r stored' user name => ?_
  by_cases here : r.identifier = p.identifier
  · rw [here, stored] at stored'
    rw [← Option.some.inj stored', kept.userIdentifier, created.requested.userIdentifier] at user
    exact other user
  · rw [created.other _ here] at stored'
    exact existing_none.mp missing r stored' user name

/-- A peer that is created is the only one that is new. -/
theorem Created.idempotent {db db' : Db} {p : Domain.Peer} (created : Created ui req db db' p)
    (described : ∀ a ∈ answers, Describes a p) :
    Idempotent req (effectiveUser ui req) db db' answers := by
  obtain ⟨q, stored, kept⟩ := created.stored
  have only : ∀ id, db.peer id = none → (db'.peer id).isSome → id = p.identifier := by
    intro id unknown new
    by_contra other
    rw [created.other id other, unknown] at new
    cases new
  constructor
  · intro id id' unknown unknown' new new'
    rw [only id unknown new, only id' unknown' new']
  · exact ⟨q, kept.identifier ▸ stored, kept.requested created.requested,
      fun a listed => (described a listed).of_same kept.symm⟩

/-- A peer that is found is as requested if and only if it is on the interface, and its
user is the one that a new peer is for. -/
theorem idempotent_existing_iff {db : Db} {p : Domain.Peer} (found : existing db req = some p)
    {a : Peer .v1} {rest : List (Peer .v1)} (described : ∀ b ∈ a :: rest, Describes b p) :
    Idempotent req (effectiveUser ui req) db db (a :: rest) ↔
      p.interfaceIdentifier = req.interfaceIdentifier ∧
        effectiveUser ui req = req.userIdentifier := by
  obtain ⟨stored, user, name⟩ := existing_spec found
  have shows := described a List.mem_cons_self
  constructor
  · rintro ⟨_, q, _, requested, same⟩
    have shows' := same a List.mem_cons_self
    constructor
    · rw [← shows.interfaceIdentifier, shows'.interfaceIdentifier, requested.interfaceIdentifier]
    · rw [← user, ← shows.userIdentifier, shows'.userIdentifier, requested.userIdentifier]
  · rintro ⟨onInterface, same⟩
    constructor
    · intro id _ unknown _ new
      rw [unknown] at new
      cases new
    · exact ⟨p, stored, ⟨user.trans same.symm, onInterface, name⟩, described⟩

/-- Without being an admin, nobody looks up a name for another user. -/
theorem admin_of_other (allowed : validateUserAccessRights ui req.userIdentifier = .ok ())
    (other : effectiveUser ui req ≠ req.userIdentifier) : ui.isAdmin = true := by
  by_contra user
  have own : ui.id = req.userIdentifier := by
    by_contra differs
    simp [validateUserAccessRights, user, differs] at allowed
  unfold effectiveUser at other
  split at other
  · exact other own
  · exact other rfl

/-- An admin that is answered with a second new peer is shown two peers. -/
theorem Created.not_idempotent {db db' db'' : Db} {p q : Domain.Peer}
    (first : Created ui req db db' p) (second : Created ui req db' db'' q)
    (admin : ui.isAdmin = true) {a b : Peer .v1} {rest : List (Peer .v1)} {start final : Db}
    (shows : Describes a p) (shows' : Describes b q) :
    ¬ Idempotent req (effectiveUser ui req) start final (a :: b :: rest) := by
  rintro ⟨_, r, _, _, same⟩
  have here := same a List.mem_cons_self
  have there := same b (List.mem_cons_of_mem a List.mem_cons_self)
  obtain ⟨p', stored, _⟩ := first.stored
  have unknown := second.unknown admin
  rw [← shows'.identifier, there.identifier, ← here.identifier, shows.identifier, stored] at unknown
  cases unknown

/-- Handled again and again, a request creates one peer and shows that one, if and only if the
name is looked up for the user that a new peer is for, and not found on another interface. -/
theorem handleAll_idempotent_iff (named : req.displayName ≠ "") (readable : Readable handlings)
    (asked : handlings ≠ [])
    (accepted : (handleAll client m ui req handlings s).1 = answers.map .ok) :
    Idempotent req (effectiveUser ui req) s.db (handleAll client m ui req handlings s).2.db
        answers ↔ Resolved ui req s.db handlings.length := by
  obtain ⟨circumstances, later, rfl⟩ := List.exists_cons_of_ne_nil asked
  obtain ⟨a, rest, t, rfl, answered, accepted', after, readable'⟩ :=
    handleAll_cons named readable accepted
  rw [after]
  unfold Resolved
  generalize db' : t.db = db at answered
  cases answered with
  | existing found shows =>
    rename_i p
    have found' : existing t.db req = some p := db' ▸ found
    obtain ⟨same, described⟩ := handleAll_existing named readable' found' accepted'
    rw [same, db', idempotent_existing_iff found (List.forall_mem_cons.mpr ⟨shows, described⟩)]
    split
    · rename_i own
      have only : ∀ p', existing s.db req = some p' → p' = p :=
        fun p' found' => Option.some.inj (found'.symm.trans found)
      exact ⟨fun here p' found' => only p' found' ▸ here.1, fun here => ⟨here p found, own⟩⟩
    · rename_i other
      exact iff_of_false (fun here => other here.2) fun here => by cases here.1.symm.trans found
  | created missing allowed new shows =>
    rename_i p
    rw [← db'] at new
    split
    · rename_i own
      obtain ⟨q, found, kept⟩ := new.existing missing own
      obtain ⟨same, described⟩ := handleAll_existing named readable' found accepted'
      have all : ∀ b ∈ a :: rest, Describes b p := List.forall_mem_cons.mpr
        ⟨shows, fun b listed => (described b listed).of_same kept⟩
      rw [same]
      refine iff_of_true (new.idempotent all) fun p' found' => ?_
      cases missing.symm.trans found'
    · rename_i other
      cases later with
      | nil =>
        obtain rfl : rest = [] := List.map_eq_nil_iff.mp accepted'.symm
        exact iff_of_true (new.idempotent (by simpa using shows)) ⟨missing, Nat.le_refl 1⟩
      | cons circumstances' later =>
        obtain ⟨b, rest, u, rfl, answered, _, _, _⟩ := handleAll_cons named readable' accepted'
        have admin := admin_of_other allowed other
        have none := new.missing missing other
        generalize u.db = db'' at answered
        cases answered with
        | existing found => cases none.symm.trans found
        | created _ _ new' shows' =>
          refine iff_of_false (new.not_idempotent new' admin shows shows') fun here => ?_
          have twice := here.2
          simp only [List.length_cons] at twice
          omega

end Run

theorem exists_accepted {results : List (Except Error (Peer .v1))}
    (all : results.all fun r => r.toBool) : ∃ answers : List (Peer .v1), results = answers.map .ok := by
  induction results with
  | nil => exact ⟨[], rfl⟩
  | cons r later ih =>
    simp only [List.all_cons, Bool.and_eq_true] at all
    obtain ⟨answers, rfl⟩ := ih all.2
    cases r with
    | error err => cases all.1
    | ok a => exact ⟨a :: answers, rfl⟩

def laptop (user : UserIdentifier) : ProvisioningRequest :=
  ⟨"wg0", user, "laptop", "", "", "", true, false⟩

def otherKey : String := "AAAAAAAAAAAAAAAAAAAAAAAAAAAAAAAAAAAAAAAAAAI="

/-- Two requests, with a fresh key each -/
def twice : List (ℕ → Circumstance) := [TTLLock.keyed, fun _ => ⟨1, none, ⟨"", otherKey⟩, ""⟩]

def handledTwice (ui : ContextUserInfo) (user : UserIdentifier) :
    List (Except Error (Peer .v1)) × World plainTypes :=
  handleAll (plainClient plainTypes) TTLLock.selfService ui (laptop user) twice TTLLock.noPeers

theorem twice_readable : Readable twice := by
  intro circumstances listed n err fault
  simp only [twice, List.mem_cons, List.not_mem_nil, or_false] at listed
  rcases listed with rfl | rfl <;> cases fault

/-- A user that asks twice for the same peer -/
theorem ownRequest_idempotent : ∃ answers : List (Peer .v1),
    (handledTwice ⟨"user", false⟩ "user").1 = answers.map .ok ∧
    Idempotent (laptop "user") "user" TTLLock.noPeers.db (handledTwice ⟨"user", false⟩ "user").2.db
      answers := by
  obtain ⟨answers, accepted⟩ :=
    @exists_accepted (handledTwice ⟨"user", false⟩ "user").1 (by decide +kernel)
  refine ⟨answers, accepted, ?_⟩
  refine (handleAll_idempotent_iff (by decide) twice_readable (by simp [twice]) accepted).mpr ?_
  intro p found
  have none : existing TTLLock.noPeers.db (laptop "user") = none := by decide +kernel
  cases none.symm.trans found

/-- An admin that asks twice for a peer of its own, without naming itself, gets two of them. -/
theorem unnamedUser_not_idempotent : ∃ answers : List (Peer .v1),
    (handledTwice ⟨"admin", true⟩ "").1 = answers.map .ok ∧
    ¬ Idempotent (laptop "") "admin" TTLLock.noPeers.db (handledTwice ⟨"admin", true⟩ "").2.db
      answers := by
  obtain ⟨answers, accepted⟩ :=
    @exists_accepted (handledTwice ⟨"admin", true⟩ "").1 (by decide +kernel)
  refine ⟨answers, accepted, fun idempotent => ?_⟩
  have same : RoundTrip.sampleKey = otherKey :=
    idempotent.atMostOne _ _ (by decide +kernel) (by decide +kernel) (by decide +kernel)
      (by decide +kernel)
  exact absurd same (by decide)

end ProvisioningEndpoint

end WgPortal.Api
