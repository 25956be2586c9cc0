import WgPortal.App.FanoutStart
import WgPortal.WireGuard.PeerEvents
import WgPortal.WireGuard.Peers
import WgPortal.WireGuard.Sync

/-! The endpoint that the fan-outs of other nodes call, and why their requests go no further. -/

namespace WgPortal.Api

open Domain Library Adapters App Fanout WireGuard
open ManagerProgram (issue)

/-- The `PeerService` of version 1 -/
structure PeerService where
  apiAdminOnly : Bool
  peers : Manager

namespace PeerService

def getById (ui : ContextUserInfo) (s : PeerService) (id : PeerIdentifier) :
    ManagerProgram (Except Error Domain.Peer) := do
  if s.apiAdminOnly && !ui.isAdmin then
    return .error (.wrap "only admins can access this endpoint" .noPermission)
  match ← Manager.getPeer ui id with
  | .error err => return .error err
  | .ok peer =>
    match validateUserAccessRights ui peer.userIdentifier with
    | .error err => return .error err
    | .ok _ => return .ok peer

/-- The service and the manager both ask for an admin. -/
def getAllInterfaces (ui : ContextUserInfo) :
    ManagerProgram (Except Error (List Domain.Interface)) := do
  match validateAdminAccessRights ui with
  | .error err => return .error err
  | .ok _ => issue (.repo .getAllInterfaces)

end PeerService

inductive SyncResponse where
  | noContent
  | peerSynced (peerID event : String)
  | synced (count : ℕ)
  | failed (error : String)
deriving DecidableEq

def publishInterfaces : List Domain.Interface → ManagerProgram Unit
  | [] => return ()
  | iface :: interfaces => do
    issue (.publish (.peerInterfaceUpdated iface.identifier))
    publishInterfaces interfaces

/-- The node that asks for the sync, or else the own host name -/
def syncNodeID (origin hostname : String) : String :=
  if origin ≠ "" then origin else if hostname ≠ "" then hostname else "unknown-node"

/-- `PeerEndpoint.handleSyncPost` -/
def handleSyncPost (s : PeerService) (ui : ContextUserInfo) (hostname : String) (r : SyncRequest) :
    ManagerProgram SyncResponse := do
  let noFanout := r.noEcho = "1"
  if r.peerID ≠ "" then
    match ← s.getById ui r.peerID with
    | .error _ =>
      if r.event = "deleted" then issue (.publish (.peerSyncedLocal r.peerID))
      return .noContent
    | .ok peer =>
      issue (.publish (.peerSyncedLocal peer.identifier))
      return .peerSynced r.peerID r.event
  match ← Manager.syncAllPeersFromDBWithLock ui (syncNodeID r.origin hostname) with
  | (_, some err) => return .failed err.text
  | (count, none) =>
    if !noFanout then
      match ← PeerService.getAllInterfaces ui with
      | .error _ => issue (.publish (.peerInterfaceUpdated "wg0"))
      | .ok interfaces => publishInterfaces interfaces
    return .synced count

/-- The event that an operation publishes -/
def published : ManagerOp → List Event
  | .publish event => [event]
  | _ => []

/-- What a call publishes if its operations are answered so. -/
def events {α : Type} (answers : ℕ → (op : ManagerOp) → op.Res) (p : ManagerProgram α) :
    List Event :=
  p.log published answers

/-- The handlers of the events for single peers -/
def subscriber (m : Manager) : Event → ManagerProgram Unit
  | .peerCreatedSync id => m.handler .peerCreatedSync id
  | .peerUpdatedSync id => m.handler .peerUpdatedSync id
  | .peerDeletedSync id => m.handler .peerDeletedSync id
  | .peerSyncedLocal id => m.handler .peerSyncedLocal id
  | _ => return ()

namespace SyncEndpoint

def Quiet (op : ManagerOp) : Prop := published op = []

theorem quiet_deleteFromInterfaces (id : PeerIdentifier) (interfaces : List Domain.Interface) :
    (deleteFromInterfaces id interfaces).Uses Quiet := by
  induction interfaces with
  | nil => trivial
  | cons iface interfaces ih => exact ⟨rfl, fun _ => ih⟩

theorem quiet_deleteEverywhere (id : PeerIdentifier) : (deleteEverywhere id).Uses Quiet := by
  refine ⟨rfl, fun answer => ?_⟩
  cases answer with
  | error err => trivial
  | ok interfaces => exact quiet_deleteFromInterfaces id interfaces

theorem quiet_syncStored (m : Manager) {missing : ManagerProgram Unit} (quiet : missing.Uses Quiet)
    (id : PeerIdentifier) : (m.syncStored missing id).Uses Quiet := by
  refine ⟨rfl, fun answer => ?_⟩
  cases answer with
  | error err => exact quiet
  | ok peer => exact ⟨rfl, fun _ => trivial⟩

/-- The handlers of the events for single peers publish nothing. -/
theorem quiet_subscriber (m : Manager) (event : Event) : (subscriber m event).Uses Quiet := by
  cases event with
  | peerCreatedSync id | peerUpdatedSync id =>
    have nothing : (pure () : ManagerProgram Unit).Uses Quiet := trivial
    exact quiet_syncStored m nothing id
  | peerDeletedSync id => exact quiet_deleteEverywhere id
  | peerSyncedLocal id => exact quiet_syncStored m (quiet_deleteEverywhere id) id
  | _ => trivial

theorem events_subscriber (m : Manager) (event : Event)
    (answers : ℕ → (op : ManagerOp) → op.Res) : events answers (subscriber m event) = [] :=
  (quiet_subscriber m event).log_eq_nil answers

theorem quiet_issue {op : ManagerOp} (quiet : published op = []) : (issue op).Uses Quiet :=
  ⟨quiet, fun _ => trivial⟩

theorem quiet_getPeer (ui : ContextUserInfo) (id : PeerIdentifier) :
    (Manager.getPeer ui id).Uses Quiet := by
  unfold Manager.getPeer
  refine (quiet_issue rfl).bind fun found => ?_
  cases found with
  | error err => trivial
  | ok peer =>
    dsimp only
    cases validateUserAccessRights ui peer.userIdentifier with
    | error err => trivial
    | ok _ =>
      refine (quiet_issue rfl).bind fun found => ?_
      cases found with
      | error err => trivial
      | ok iface =>
        dsimp only
        split <;> trivial

theorem quiet_getById (s : PeerService) (ui : ContextUserInfo) (id : PeerIdentifier) :
    (s.getById ui id).Uses Quiet := by
  unfold PeerService.getById
  split
  · trivial
  · refine (quiet_getPeer ui id).bind fun found => ?_
    cases found with
    | error err => trivial
    | ok peer =>
      dsimp only
      cases validateUserAccessRights ui peer.userIdentifier <;> trivial

theorem quiet_locking {α : Type} (p : LockProgram α) : (ManagerProgram.locking p).Uses Quiet :=
  Program.Uses.embed (fun op => @quiet_issue (.lock op) rfl) p

theorem quiet_syncAllPeersFromDBWithLock (ui : ContextUserInfo) (nodeID : String) :
    (Manager.syncAllPeersFromDBWithLock ui nodeID).Uses Quiet := by
  unfold Manager.syncAllPeersFromDBWithLock
  cases validateAdminAccessRights ui with
  | error err => trivial
  | ok _ =>
    refine (quiet_locking _).bind fun acquired => ?_
    obtain ⟨result, failed⟩ := acquired
    cases failed with
    | some err => trivial
    | none => exact (quiet_locking _).bind fun _ => (quiet_locking _).bind fun _ => trivial

/-- For a request without echo, only the local event for a single peer is published. -/
def Local (event : Event) : Prop := ∃ id, event = .peerSyncedLocal id

theorem local_of_quiet {op : ManagerOp} (quiet : Quiet op) : ∀ event ∈ published op, Local event := by
  rw [quiet]
  exact fun event listed => (by cases listed)

theorem local_publish (id : PeerIdentifier) :
    ∀ event ∈ published (.publish (.peerSyncedLocal id)), Local event :=
  fun _ listed => ⟨id, List.mem_singleton.mp listed⟩

theorem uses_handleSyncPost (s : PeerService) (ui : ContextUserInfo) (hostname : String)
    {r : SyncRequest} (noEcho : r.noEcho = "1") :
    (handleSyncPost s ui hostname r).Uses fun op => ∀ event ∈ published op, Local event := by
  unfold handleSyncPost
  dsimp only
  split
  · refine ((quiet_getById s ui r.peerID).mono fun _ => local_of_quiet).bind fun found => ?_
    cases found with
    | error err =>
      dsimp only
      split
      · exact ⟨local_publish r.peerID, fun _ => trivial⟩
      · trivial
    | ok peer => exact ⟨local_publish peer.identifier, fun _ => trivial⟩
  · refine ((quiet_syncAllPeersFromDBWithLock ui _).mono fun _ => local_of_quiet).bind
      fun synced => ?_
    obtain ⟨count, failed⟩ := synced
    cases failed with
    | some err => trivial
    | none =>
      simp only [noEcho]
      trivial

theorem events_handleSyncPost (s : PeerService) (ui : ContextUserInfo) (hostname : String)
    {r : SyncRequest} (noEcho : r.noEcho = "1") (answers : ℕ → (op : ManagerOp) → op.Res) :
    ∀ event ∈ events answers (handleSyncPost s ui hostname r), Local event :=
  (uses_handleSyncPost s ui hostname noEcho).log answers

theorem events_inTurn {w : WgController.Wgtypes} (client : WgController.Client w)
    (circumstances : ℕ → Circumstance) (op : ManagerOp) (s : ℕ × World w) :
    (inTurn client circumstances op s).2.2.events = s.2.events ++ published op := by
  obtain ⟨n, world⟩ := s
  cases op with
  | getPeers | newFreshKeypair | newPreSharedKey =>
    cases fault : (circumstances n).fault <;>
      simp only [inTurn, ManagerOp.exec, fault, published, List.append_nil]
  | savePeer backend | deletePeer backend =>
    cases fault : (circumstances n).fault <;> by_cases here : backend = localBackendName <;>
      simp only [inTurn, ManagerOp.exec, fault, here, if_true, if_false, published,
        List.append_nil]
  | publish event => rfl
  | _ => simp only [inTurn, ManagerOp.exec, published, List.append_nil]

/-- Whatever a node has stored and whatever fails there, it is left with local events at most. -/
theorem run_handleSyncPost {w : WgController.Wgtypes} (client : WgController.Client w)
    (circumstances : ℕ → Circumstance) (s : PeerService) (ui : ContextUserInfo) (hostname : String)
    {r : SyncRequest} (noEcho : r.noEcho = "1") (world : World w) :
    ∀ event ∈ ((handleSyncPost s ui hostname r).run client circumstances world).2.events,
      event ∈ world.events ∨ Local event := by
  let noted (t : ℕ × World w) : List Event := t.2.events
  have each : ∀ op t, noted (inTurn client circumstances op t).2 = noted t ++ published op :=
    events_inTurn client circumstances
  obtain ⟨answers, same⟩ := Program.exists_log each (handleSyncPost s ui hostname r) (0, world)
  intro event listed
  have listed : event ∈ noted ((handleSyncPost s ui hostname r).eval
    (inTurn client circumstances) (0, world)).2 := listed
  rw [same] at listed
  exact (List.mem_append.mp listed).imp id (events_handleSyncPost s ui hostname noEcho answers event)

end SyncEndpoint

end WgPortal.Api
