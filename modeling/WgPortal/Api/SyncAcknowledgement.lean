import WgPortal.Api.SyncEndpoint
import WgPortal.WgController.Plain

/-! What the status of the response to a request for a single peer tells the sender. -/

namespace WgPortal.Api

open Domain Library Adapters App Fanout WireGuard WgController

def SyncResponse.status : SyncResponse → ℕ
  | .noContent => 204
  | .peerSynced .. => 200
  | .synced _ => 200
  | .failed _ => 500

namespace SyncAcknowledgement

/-- The sender takes the request for delivered. -/
def Acknowledges (response : SyncResponse) : Prop :=
  200 ≤ response.status ∧ response.status < 300

theorem noContent_acknowledges : Acknowledges .noContent := ⟨by decide, by decide⟩

variable {w : Wgtypes} (client : Client w) (circumstances : ℕ → Circumstance) (s : PeerService)
  (ui : ContextUserInfo) (hostname : String) (r : SyncRequest) (world : World w)

/-- What a lookup of the peer comes to. Only one that the service lets through reaches the
store, by its first statement. -/
inductive Lookup where
  | found (peer : Domain.Peer)
  | missing
  | denied
  | failed (err : Error)

def lookup : Lookup :=
  if s.apiAdminOnly && !ui.isAdmin then .denied
  else
    match (circumstances 0).fault, world.db.peer r.peerID with
    | some err, _ => .failed err
    | none, none => .missing
    | none, some peer =>
      if ui.isAdmin ∨ ui.id = peer.userIdentifier then .found peer else .denied

/-- The response, and the events that were published meanwhile -/
def outcome : SyncResponse × List Event :=
  let (response, after) := (handleSyncPost s ui hostname r).run client circumstances world
  (response, after.events.drop world.events.length)

/-- A request is acknowledged only if the peer was announced on the node or is not stored, and
a lookup that failed otherwise is an error. -/
structure NotFalselyAcknowledged : Prop where
  delivered : Acknowledges (outcome client circumstances s ui hostname r world).1 →
    .peerSyncedLocal r.peerID ∈ (outcome client circumstances s ui hostname r world).2 ∨
      world.db.peer r.peerID = none
  reported : (∀ peer, lookup circumstances s ui r world ≠ .found peer) →
    lookup circumstances s ui r world ≠ .missing →
      ¬ Acknowledges (outcome client circumstances s ui hostname r world).1

variable {circumstances s ui r world}

/-- The first statement of a call that does not fail -/
theorem inTurn_first {op : RepoOp} (calm : (circumstances 0).fault = none) :
    inTurn client circumstances (.repo op) (0, world) =
      (op.answer (circumstances 0).now world.db,
        (1, { world with db := op.apply (circumstances 0).now world.db })) := by
  simp only [inTurn, ManagerOp.exec, RepoOp.exec, calm]

theorem inTurn_failed {op : RepoOp} {err : Error} {n : ℕ}
    (fault : (circumstances n).fault = some err) :
    inTurn client circumstances (.repo op) (n, world) = (.error err, (n + 1, world)) := by
  simp only [inTurn, ManagerOp.exec, RepoOp.exec, fault]

/-- The interface of a peer is looked up, too, but it does not matter whether it is found. -/
theorem inTurn_getInterface (n : ℕ) (id : InterfaceIdentifier) : ∃ answer,
    inTurn client circumstances (.repo (.getInterface id)) (n, world) = (answer, (n + 1, world)) := by
  cases fault : (circumstances n).fault with
  | some err => exact ⟨_, inTurn_failed client fault⟩
  | none =>
    refine ⟨(RepoOp.getInterface id).answer (circumstances n).now world.db, ?_⟩
    simp only [inTurn, ManagerOp.exec, RepoOp.exec, fault, RepoOp.apply]

/-- The rights that both the manager and the service ask for -/
theorem validateUserAccessRights_eq (owner : UserIdentifier) : validateUserAccessRights ui owner =
    if ui.isAdmin ∨ ui.id = owner then .ok () else .error .noPermission := by
  unfold validateUserAccessRights
  split_ifs <;> first | rfl | tauto

/-- The lookup of the manager for a user who may see the peer -/
theorem eval_getPeer_permitted {peer : Domain.Peer} (calm : (circumstances 0).fault = none)
    (stored : world.db.peer r.peerID = some peer)
    (permitted : ui.isAdmin ∨ ui.id = peer.userIdentifier) : ∃ found,
      (Manager.getPeer ui r.peerID).eval (inTurn client circumstances) (0, world) =
        (.ok found, (2, world)) ∧
      found.identifier = peer.identifier ∧ found.userIdentifier = peer.userIdentifier := by
  have answered : (RepoOp.getPeer r.peerID).answer (circumstances 0).now world.db = .ok peer := by
    rw [RepoOp.answer, Db.getPeer, stored]
  obtain ⟨answer, second⟩ := @inTurn_getInterface _ client circumstances world 1
    peer.interfaceIdentifier
  simp only [Manager.getPeer, ManagerProgram.issue, Program.perform_bind, Program.eval_call,
    inTurn_first client calm, answered, validateUserAccessRights_eq, permitted, if_true,
    RepoOp.apply]
  rw [second]
  cases answer with
  | error err => exact ⟨peer, rfl, rfl, rfl⟩
  | ok iface =>
    dsimp only
    split
    · exact ⟨_, rfl, rfl, rfl⟩
    · exact ⟨peer, rfl, rfl, rfl⟩

/-- All other lookups of the manager fail. -/
theorem eval_getPeer_refused (refused : ∀ peer, (circumstances 0).fault = none →
      world.db.peer r.peerID = some peer → ¬ (ui.isAdmin ∨ ui.id = peer.userIdentifier)) :
    ∃ err, (Manager.getPeer ui r.peerID).eval (inTurn client circumstances) (0, world) =
      (.error err, (1, world)) := by
  simp only [Manager.getPeer, ManagerProgram.issue, Program.perform_bind, Program.eval_call]
  cases fault : (circumstances 0).fault with
  | some err =>
    rw [inTurn_failed client fault]
    exact ⟨_, rfl⟩
  | none =>
    rw [inTurn_first client fault]
    cases stored : world.db.peer r.peerID with
    | none =>
      simp only [RepoOp.answer, Db.getPeer, stored]
      exact ⟨_, rfl⟩
    | some peer =>
      simp only [RepoOp.answer, Db.getPeer, stored, validateUserAccessRights_eq,
        if_neg (refused peer fault stored)]
      exact ⟨_, rfl⟩

/-- The lookup of the service succeeds with the peer that is asked for, or not at all. -/
theorem eval_getById : ∃ result n,
    (s.getById ui r.peerID).eval (inTurn client circumstances) (0, world) = (result, (n, world)) ∧
      ((∃ peer, lookup circumstances s ui r world = .found peer) →
        ∃ peer, result = .ok peer ∧ peer.identifier = r.peerID) ∧
      ((∀ peer, lookup circumstances s ui r world ≠ .found peer) → ∃ err, result = .error err) := by
  unfold lookup PeerService.getById
  cases gate : s.apiAdminOnly && !ui.isAdmin with
  | true =>
    simp only [if_true]
    refine ⟨_, 0, rfl, fun found => ?_, fun _ => ⟨_, rfl⟩⟩
    obtain ⟨_, found⟩ := found
    cases found
  | false =>
    simp only [Bool.false_eq_true, if_false]
    by_cases permitted : ∃ peer, (circumstances 0).fault = none ∧
        world.db.peer r.peerID = some peer ∧ (ui.isAdmin ∨ ui.id = peer.userIdentifier)
    · obtain ⟨peer, calm, stored, permitted⟩ := permitted
      obtain ⟨found, ran, named, owned⟩ := eval_getPeer_permitted client calm stored permitted
      rw [calm, stored]
      simp only [permitted, if_true, Program.eval_bind, ran, validateUserAccessRights_eq, owned]
      refine ⟨_, 2, rfl, fun _ => ⟨found, rfl, named.trans (Db.identifier_of_peer stored)⟩,
        fun none => absurd rfl (none peer)⟩
    · have refused : ∀ peer, (circumstances 0).fault = none → world.db.peer r.peerID = some peer →
          ¬ (ui.isAdmin ∨ ui.id = peer.userIdentifier) :=
        fun peer calm stored may => permitted ⟨peer, calm, stored, may⟩
      obtain ⟨err, ran⟩ := eval_getPeer_refused client refused
      rw [Program.eval_bind, ran]
      refine ⟨_, 1, rfl, fun found => ?_, fun _ => ⟨err, rfl⟩⟩
      obtain ⟨peer, found⟩ := found
      cases fault : (circumstances 0).fault with
      | some err =>
        rw [fault] at found
        cases found
      | none =>
        cases stored : world.db.peer r.peerID with
        | none =>
          rw [fault, stored] at found
          cases found
        | some other =>
          rw [fault, stored] at found
          simp only [if_neg (refused other fault stored)] at found
          cases found

/-- A peer that was found is announced. -/
theorem outcome_of_found (specific : r.peerID ≠ "")
    (found : ∃ peer, lookup circumstances s ui r world = .found peer) :
    outcome client circumstances s ui hostname r world =
      (.peerSynced r.peerID r.event, [.peerSyncedLocal r.peerID]) := by
  obtain ⟨result, n, ran, finds, _⟩ := @eval_getById _ client circumstances s ui r world
  obtain ⟨peer, rfl, named⟩ := finds found
  have announced : (handleSyncPost s ui hostname r).run client circumstances world =
      (.peerSynced r.peerID r.event,
        { world with events := world.events ++ [.peerSyncedLocal r.peerID] }) := by
    unfold ManagerProgram.run handleSyncPost
    simp only [if_pos specific]
    rw [Program.eval_bind, ran]
    dsimp only
    rw [named]
    rfl
  simp only [outcome, announced, List.drop_left]

/-- All other lookups lead to the same answer. -/
theorem outcome_of_not_found (specific : r.peerID ≠ "")
    (lost : ∀ peer, lookup circumstances s ui r world ≠ .found peer) :
    (outcome client circumstances s ui hostname r world).1 = .noContent := by
  obtain ⟨result, n, ran, _, fails⟩ := @eval_getById _ client circumstances s ui r world
  obtain ⟨err, rfl⟩ := fails lost
  unfold outcome ManagerProgram.run handleSyncPost
  simp only [if_pos specific]
  rw [Program.eval_bind, ran]
  by_cases deleted : r.event = "deleted"
  · simp only [if_pos deleted]
    rfl
  · simp only [if_neg deleted]
    rfl

/-- A request is answered truthfully exactly if the lookup finds the peer, or finds that it is
not stored. -/
theorem notFalselyAcknowledged_iff (specific : r.peerID ≠ "") :
    NotFalselyAcknowledged client circumstances s ui hostname r world ↔
      (∃ peer, lookup circumstances s ui r world = .found peer) ∨
        lookup circumstances s ui r world = .missing := by
  constructor
  · intro truthful
    by_contra failed
    obtain ⟨lost, other⟩ := not_or.mp failed
    have lost : ∀ peer, lookup circumstances s ui r world ≠ .found peer :=
      fun peer found => lost ⟨peer, found⟩
    refine truthful.reported lost other ?_
    rw [outcome_of_not_found client hostname specific lost]
    exact noContent_acknowledges
  · rintro (found | missing)
    · refine ⟨fun _ => .inl ?_, fun lost => ?_⟩
      · rw [outcome_of_found client hostname specific found]
        exact List.mem_singleton_self _
      · obtain ⟨peer, found⟩ := found
        exact absurd found (lost peer)
    · refine ⟨fun _ => .inr ?_, fun _ other => absurd missing other⟩
      unfold lookup at missing
      split at missing
      · cases missing
      · split at missing
        · cases missing
        · assumption
        · split at missing <;> cases missing

def storedPeer : World plainTypes where
  db := Db.empty.commitPeer "admin" 0 "p" { Peer.zero with identifier := "p" }
  devices _ := none
  events := []

/-- The request of another node's fan-out after the peer was created -/
def createdRequest : SyncRequest := ⟨"1", "node-b", "p", "created"⟩

def service : PeerService := ⟨false, ⟨Config.defaultConfig, [], false⟩⟩

def calm (_ : ℕ) : Circumstance := ⟨1, none, ⟨"", ""⟩, ""⟩

def unreachable (_ : ℕ) : Circumstance :=
  ⟨1, some (.other "connect: connection refused"), ⟨"", ""⟩, ""⟩

theorem createdRequest_specific : createdRequest.peerID ≠ "" := by decide

theorem storedPeer_acknowledged : createdRequest.peerID ≠ "" ∧ NotFalselyAcknowledged
    (plainClient plainTypes) calm service systemAdminContextUserInfo "node-a" createdRequest
      storedPeer := by
  refine ⟨createdRequest_specific, ?_⟩
  have found : ∃ peer, lookup calm service systemAdminContextUserInfo createdRequest storedPeer =
      .found peer := ⟨_, rfl⟩
  exact (notFalselyAcknowledged_iff _ _ createdRequest_specific).mpr (.inl found)

/-- The store cannot be reached, and the sender is told that the peer was synced. -/
theorem unreachable_acknowledged : ¬ NotFalselyAcknowledged (plainClient plainTypes) unreachable
    service systemAdminContextUserInfo "node-a" createdRequest storedPeer := by
  have answered : outcome (plainClient plainTypes) unreachable service systemAdminContextUserInfo
      "node-a" createdRequest storedPeer = (.noContent, []) := rfl
  intro truthful
  have delivered := truthful.delivered
  rw [answered] at delivered
  rcases delivered noContent_acknowledges with announced | missing
  · cases announced
  · have stored : storedPeer.db.peer createdRequest.peerID ≠ none := by decide +kernel
    exact stored missing

end SyncAcknowledgement

end WgPortal.Api
