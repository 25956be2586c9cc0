import WgPortal.Adapters.Orphans
import WgPortal.Library.Interleaving
import WgPortal.WireGuard.Statistics

/-! The collectors of a cluster: processes that collect peer data into one database,
with their operations in any order. A node that restarts goes on as another process,
which knows no active peers. -/

namespace WgPortal.WireGuard.Cluster

open Domain Library Adapters Config System

inductive Life where
  | unborn
  | running
  | stopped
deriving DecidableEq

/-- What is observed of the processes. None of them looks at it. -/
structure History (ι : Type) where
  busy : ι → Bool
  /-- the peers that a process has claimed and not yet tried to mark as disconnected -/
  tracked : ι → List PeerIdentifier
  /-- the devices show no recent handshake of the observed peer -/
  quiet : Bool
  /-- the cycle in progress was begun since it is quiet -/
  began : ι → Bool
  /-- a cycle that was begun since it is quiet has fetched all -/
  completed : ι → Bool

structure State (ι : Type) where
  db : Db
  devices : ι → InterfaceIdentifier → List PhysicalPeer
  life : ι → Life
  activeConnectedPeers : ι → ActivePeers
  /-- the last time that a process has read -/
  clock : ι → Time
  history : History ι

def initial {ι : Type} (db : Db) (devices : ι → InterfaceIdentifier → List PhysicalPeer) :
    State ι where
  db := db
  devices := devices
  life := fun _ => .unborn
  activeConnectedPeers := fun _ _ => []
  clock := fun _ => 0
  history := ⟨fun _ => false, fun _ => [], false, fun _ => false, fun _ => false⟩

inductive Env (ι : Type) where
  | savePeer (userId : UserIdentifier) (now : Time) (id : PeerIdentifier)
      (statusFault : Option Error) (updateFunc : Peer → Except Error Peer)
  | deletePeers (ids : List PeerIdentifier)
  | deletePeerStatus (id : PeerIdentifier)
  | device (i : ι) (id : InterfaceIdentifier) (peers : List PhysicalPeer)
  | launch (i : ι)
  | stop (i : ι)
  /-- the observed peer becomes quiet, or no longer is -/
  | quiet (isQuiet : Bool)

variable {ι : Type} [DecidableEq ι]

def Env.apply (e : Env ι) (s : State ι) : Option (State ι) :=
  match e with
  | .savePeer userId now id statusFault updateFunc =>
    some { s with db := (Orphans.savePeer s.db userId now id statusFault updateFunc).2 }
  | .deletePeers ids => some { s with db := s.db.deletePeers ids }
  | .deletePeerStatus id => some { s with db := s.db.deletePeerStatus id }
  | .device i id peers =>
    some { s with
      devices := Function.update s.devices i (Function.update (s.devices i) id peers) }
  | .launch i =>
    if s.life i = .unborn then some { s with life := Function.update s.life i .running } else none
  | .stop i =>
    if s.life i = .running then some { s with life := Function.update s.life i .stopped } else none
  | .quiet isQuiet =>
    some { s with
      history := { s.history with
        quiet := isQuiet
        began := fun _ => false
        completed := fun _ => false } }

/-- A claim tracks its peer. Who tries to mark it does so no longer. -/
def track : (op : StatsOp) → op.Res → List PeerIdentifier → List PeerIdentifier
  | .claimPeerStatus id _ _, _, tracked => id :: tracked
  | .getPeer .disconnect id, .error _, tracked => tracked.filter (· ≠ id)
  | .updatePeerStatus .disconnect id _, _, tracked => tracked.filter (· ≠ id)
  | _, _, tracked => tracked

variable (cfg : ι → Config) (order : ι → MapOrder PeerIdentifier)

/-- An operation of a process. One that was stopped does nothing any more. -/
def perform (i : ι) (op : StatsOp) (o : Occasion) (s : State ι) : op.Res × State ι :=
  let answer := op.answer (cfg i) (s.devices i) o s.db
  if s.life i = .running then
    (answer,
      { s with
        db := storeStatus s.db (op.row (cfg i) o s.db)
        clock := Function.update s.clock i o.now
        history := { s.history with
          tracked := Function.update s.history.tracked i (track op answer (s.history.tracked i)) } })
  else (answer, s)

def begin (i : ι) (s : State ι) : Option (StatsProgram (ActivePeers × Bool) × State ι) :=
  if s.life i = .running then
    some (collectPeerData (cfg i) (order i) (s.activeConnectedPeers i),
      { s with
        history := { s.history with
          busy := Function.update s.history.busy i true
          began := Function.update s.history.began i s.history.quiet } })
  else none

def finish (i : ι) (collected : ActivePeers × Bool) (s : State ι) : State ι :=
  if s.life i = .running then
    { s with
      activeConnectedPeers := Function.update s.activeConnectedPeers i collected.1
      history := { s.history with
        busy := Function.update s.history.busy i false
        began := Function.update s.history.began i false
        completed := Function.update s.history.completed i
          (s.history.completed i || s.history.began i && collected.2) } }
  else s

/-- The collection cycles of the processes `ι`. -/
def system : System ι (Env ι) Unit StatsOp StatsOp.Res Occasion (ActivePeers × Bool) (State ι) where
  exec := perform cfg
  env := Env.apply
  start := fun i _ s => begin cfg order i s
  finish := finish

abbrev ClusterPool (ι : Type) := Pool ι StatsOp StatsOp.Res (ActivePeers × Bool) (State ι)
abbrev ClusterTurn (ι : Type) := Turn ι (Env ι) Unit Occasion

/-- The node of a process. -/
def nodeId (i : ι) : String := (cfg i).core.clusterNodeId

/-- An update or a claim is committed. -/
inductive Wrote (cfg : Config) (o : Occasion) (db : Db) : StatsOp → PeerStatus → Prop where
  | update {purpose : Purpose} {id : PeerIdentifier} {f : StatusChange} (committed : o.fault = none)
      (stored : db.peers.find id ≠ none) :
      Wrote cfg o db (.updatePeerStatus purpose id f) (ownedUpdate cfg.core.clusterNodeId
        (readStatus db id o.began) (f.apply o.now (readStatus db id o.began)))
  | claim {id : PeerIdentifier} {ownerNodeId : String} {f : StatusChange}
      (named : ownerNodeId ≠ "") (committed : o.fault = none)
      (known : ¬ (db.peerStatuses.find id = none ∧ db.peers.find id = none)) :
      Wrote cfg o db (.claimPeerStatus id ownerNodeId f)
        { f.apply o.now (claimedStatus db id ownerNodeId o.began) with ownerNodeId := ownerNodeId }

theorem row_eq_some {c : Config} {o : Occasion} {db : Db} {op : StatsOp} {row : PeerStatus} :
    op.row c o db = some row ↔ Wrote c o db op row := by
  constructor
  · intro written
    cases op with
    | updatePeerStatus purpose id f =>
      simp only [StatsOp.row, updateStatus] at written
      split at written
      · cases written
      · rename_i committed
        split at written
        · cases written
        · rename_i found
          rw [← Option.some.inj written]
          exact .update committed (by simp [found])
    | claimPeerStatus id ownerNodeId f =>
      simp only [StatsOp.row, claimStatus] at written
      split at written
      · cases written
      · rename_i named
        split at written
        · cases written
        · rename_i committed
          split at written
          · cases written
          · rename_i known
            rw [← Option.some.inj written]
            exact .claim named committed known
    | _ => cases written
  · intro wrote
    cases wrote with
    | update committed stored =>
      obtain ⟨_, found⟩ := Option.ne_none_iff_exists'.mp stored
      simp only [StatsOp.row, updateStatus, committed, found]
    | claim named committed known =>
      simp only [StatsOp.row, claimStatus, named, committed, known, if_false]

/-- An operation writes the row of the peer that it is about. -/
def about : StatsOp → Option PeerIdentifier
  | .updatePeerStatus _ id _ => some id
  | .claimPeerStatus id _ _ => some id
  | _ => none

theorem Wrote.peerId {c : Config} {o : Occasion} {db : Db} {op : StatsOp} {row : PeerStatus}
    (wrote : Wrote c o db op row) : about op = some row.peerId := by
  cases wrote with
  | update =>
    rename_i f _ _
    simp only [about, StatusOwnership.peerId_ownedUpdate, f.peerId, readStatus_peerId]
  | claim =>
    rename_i f _ _ _
    simp only [about, f.peerId, claimedStatus, readStatus_peerId]

/-- Rows of other peers stay as they are. -/
theorem find_storeStatus_of_ne {c : Config} {o : Occasion} {db : Db} {op : StatsOp}
    {id : PeerIdentifier} (other : about op ≠ some id) :
    (storeStatus db (op.row c o db)).peerStatuses.find id = db.peerStatuses.find id := by
  cases written : op.row c o db with
  | none => rfl
  | some row =>
    refine Table.find_upsert_of_ne _ fun same => other ?_
    rw [← same, (row_eq_some.mp written).peerId]

theorem find_storeStatus_self {db : Db} (row : PeerStatus) :
    (storeStatus db (some row)).peerStatuses.find row.peerId = some row :=
  Table.find_upsert_self _ row

/-- The peer belongs to `wg0`, which all nodes have. -/
def sampleDb : Db :=
  StatusOwnership.sampleDb.commitInterface "admin" 0 { Interface.zero with identifier := "wg0" }

/-- The device of a process shows the peer with this handshake. -/
def handshake (i : ι) (time : Time) : ClusterTurn ι :=
  .env (.device i "wg0" [{ PhysicalPeer.zero with
    identifier := "p", lastHandshake := time, bytesUpload := 100, bytesDownload := 200 }])

/-- A cycle of a process that takes so many operations, all at one time. -/
def cycle (i : ι) (operations : ℕ) (time : Time) : List (ClusterTurn ι) :=
  .start i () :: List.replicate (operations + 1) (.step i ⟨time, time, none, []⟩)

end WgPortal.WireGuard.Cluster
