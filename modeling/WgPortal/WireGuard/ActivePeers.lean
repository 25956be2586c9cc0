import WgPortal.WireGuard.StatusPublishing

/-! Whether the status of an active peer is stored as connected, whatever other nodes
do between the operations of the collector. -/

namespace WgPortal.WireGuard

open Domain Library Adapters Config

/-- What an operation of the collector finds. Other nodes may have changed the
database, and peers the devices, since the operation before. -/
structure Scene where
  db : Db
  devices : InterfaceIdentifier → List PhysicalPeer
  occasion : Occasion

def Scene.answer (cfg : Config) (scene : Scene) (op : StatsOp) : op.Res :=
  op.answer cfg scene.devices scene.occasion scene.db

namespace ActivePeers

open StatusPublishing

/-- A transaction that stored a status. -/
structure Commit where
  scene : Scene
  row : PeerStatus

def Commit.before (c : Commit) : Db := c.scene.db

def Commit.after (c : Commit) : Db := storeStatus c.scene.db (some c.row)

/-- The operations so far, and the last transaction that stored a status. -/
structure Session where
  turn : ℕ
  commit : Option Commit

variable (cfg : Config) (scenes : ℕ → Scene)

def perform (op : StatsOp) (s : Session) : op.Res × Session :=
  let scene := scenes s.turn
  let row := op.row cfg scene.occasion scene.db
  (scene.answer cfg op, ⟨s.turn + 1, (row.map (Commit.mk scene)).or s.commit⟩)

/-- The transaction by which a call stores a status, if one commits. -/
def commits (prog : StatsProgram Unit) : Option Commit :=
  (prog.eval (perform cfg scenes) ⟨0, none⟩).2.commit

/-- The peer is stored as connected. -/
def Connected (db : Db) (id : PeerIdentifier) : Prop :=
  ∃ row, db.peerStatuses.find id = some row ∧ row.isConnected = true

/-- An active peer is connected once the node that sees it has stored its status. -/
def Connects : Prop :=
  ∀ (scenes : ℕ → Scene) (wgPeer : PhysicalPeer) (isNewConnection : Bool) (c : Commit),
    commits cfg scenes (updatePeerFromWireGuard cfg wgPeer isNewConnection) = some c →
    recent wgPeer c.scene.occasion.now = true → Connected c.after wgPeer.identifier

variable {cfg scenes}

/-- A status that is created is not connected. -/
theorem readStatus_isConnected (db : Db) (id : PeerIdentifier) (began : Time) :
    (readStatus db id began).isConnected = true ↔ Connected db id := by
  simp only [readStatus, Connected]
  cases db.peerStatuses.find id <;> simp [PeerStatus.fresh]

/-- The repository lets an update decide, or restores what it was given. -/
theorem ownedUpdate_isConnected (clusterNodeId : String) {old new : PeerStatus}
    (same : new.isConnected = old.isConnected) :
    (ownedUpdate clusterNodeId old new).isConnected = old.isConnected := by
  simp only [ownedUpdate]
  split <;> split <;> first | rfl | exact same

/-- Metrics and events store nothing. -/
theorem report_commit (c : Captured) (dbPeer : Peer) (s : Session) :
    ((report cfg c dbPeer).eval (perform cfg scenes) s).2.commit = s.commit := by
  have silent : (report cfg c dbPeer).Uses fun op => ∀ o db, op.row cfg o db = none := by
    refine uses_report (fun op reports o db => ?_) c dbPeer
    cases op <;> first | rfl | cases reports
  have kept : ∀ (op : StatsOp) (t : Session), (∀ o db, op.row cfg o db = none) →
      t.commit = s.commit → (perform cfg scenes op t).2.commit = s.commit := by
    intro op t none same
    rw [← same]
    simp only [perform, none, Option.map_none, Option.none_or]
  exact silent.eval_invariant kept rfl

/-- What a call stores is what its transaction stores, if it finds the peer. -/
theorem commits_updatePeerFromWireGuard (wgPeer : PhysicalPeer) (isNewConnection : Bool) :
    commits cfg scenes (updatePeerFromWireGuard cfg wgPeer isNewConnection) =
      if ((scenes 0).answer cfg (.getPeer .refresh wgPeer.identifier)).isOk then
        (StatusPublishing.transaction cfg (scenes 1).occasion wgPeer isNewConnection
          (scenes 1).db).2.map (Commit.mk (scenes 1))
      else none := by
  have first : perform cfg scenes (.getPeer .refresh wgPeer.identifier) ⟨0, none⟩ =
      ((scenes 0).answer cfg (.getPeer .refresh wgPeer.identifier), ⟨1, none⟩) := rfl
  simp only [commits, updatePeerFromWireGuard, StatsProgram.issue, Program.call_bind,
    Program.ret_bind, Program.eval_call, first]
  cases (scenes 0).answer cfg (.getPeer .refresh wgPeer.identifier) with
  | error err => rfl
  | ok dbPeer =>
    cases isNewConnection with
    | true =>
      simp only [Program.eval_call, if_true]
      split
      · exact Option.or_none
      · exact (report_commit ..).trans Option.or_none
    | false =>
      simp only [Program.eval_call, Bool.false_eq_true, if_false]
      split
      · exact Option.or_none
      · exact (report_commit ..).trans Option.or_none

/-- What is stored for an active peer is connected if it was, or if it is claimed. -/
theorem transaction_isConnected {wgPeer : PhysicalPeer} {isNewConnection : Bool} {o : Occasion}
    {db : Db} {row : PeerStatus} (active : recent wgPeer o.now = true)
    (stored : (StatusPublishing.transaction cfg o wgPeer isNewConnection db).2 = some row) :
    row.peerId = wgPeer.identifier ∧ (row.isConnected = true ↔
      isNewConnection = true ∨ Connected db wgPeer.identifier) := by
  cases isNewConnection with
  | true =>
    simp only [StatusPublishing.transaction, if_true, claimStatus] at stored
    split at stored
    · cases stored
    · split at stored
      · cases stored
      · split at stored
        · cases stored
        · obtain rfl := Option.some.inj stored
          refine ⟨?_, ?_⟩
          · change ((connecting cfg wgPeer).apply _ _).peerId = _
            rw [(connecting cfg wgPeer).peerId]
            exact readStatus_peerId ..
          · simp [connecting_isConnected, connects, active]
  | false =>
    simp only [StatusPublishing.transaction, Bool.false_eq_true, if_false, updateStatus] at stored
    split at stored
    · cases stored
    · split at stored
      · cases stored
      · obtain rfl := Option.some.inj stored
        refine ⟨?_, ?_⟩
        · rw [StatusOwnership.peerId_ownedUpdate, (refreshing cfg wgPeer).peerId]
          exact readStatus_peerId ..
        · rw [ownedUpdate_isConnected _ (refreshing_isConnected ..), readStatus_isConnected]
          simp

theorem connected_storeStatus (db : Db) (row : PeerStatus) :
    Connected (storeStatus db (some row)) row.peerId ↔ row.isConnected = true := by
  simp [Connected, storeStatus, StatusCalls.Db.putStatus, Table.find_upsert_self]

/-- A call leaves an active peer connected if it claims the peer, or if the peer was
stored as connected when its transaction ran. -/
theorem active_connected_iff {wgPeer : PhysicalPeer} {isNewConnection : Bool} {c : Commit}
    (committed : commits cfg scenes (updatePeerFromWireGuard cfg wgPeer isNewConnection) = some c)
    (active : recent wgPeer c.scene.occasion.now = true) :
    Connected c.after wgPeer.identifier ↔
      isNewConnection = true ∨ Connected c.before wgPeer.identifier := by
  rw [commits_updatePeerFromWireGuard] at committed
  split at committed
  · obtain ⟨row, stored, rfl⟩ := Option.map_eq_some_iff.mp committed
    obtain ⟨same, connected⟩ := transaction_isConnected active stored
    have after := connected_storeStatus (scenes 1).db row
    rw [same] at after
    exact after.trans connected
  · cases committed

/-- A database with a peer that is offline, its handshake a minute ago and no failures. -/
def offline : Scene := ⟨StatusOwnership.sampleDb, fun _ => [activePeer], smooth 0⟩

/-- The peer as a node stores it that claims it. -/
def claimed : Option Commit :=
  commits (StatusOwnership.nodeConfig "node-a") (fun _ => offline)
    (updatePeerFromWireGuard (StatusOwnership.nodeConfig "node-a") activePeer true)

theorem claimed_connected : ∃ c, claimed = some c ∧ Connected c.after "p" := by
  have stored : claimed.isSome = true := by decide +kernel
  have now : claimed.map (fun c => c.scene.occasion.now) = some hour := by decide +kernel
  obtain ⟨c, committed⟩ := Option.isSome_iff_exists.mp stored
  have active : recent activePeer c.scene.occasion.now = true := by
    have read : c.scene.occasion.now = hour := by
      rw [committed] at now
      exact Option.some.inj now
    rw [read]
    decide
  have exact := @active_connected_iff (StatusOwnership.nodeConfig "node-a") (fun _ => offline)
    activePeer true c committed active
  exact ⟨c, committed, exact.mpr (.inl rfl)⟩

/-- A peer that is known to the collector, but offline for the database, stays so. -/
theorem known_not_connects : ¬ Connects (StatusOwnership.nodeConfig "node-a") := by
  intro connects
  let known := commits (StatusOwnership.nodeConfig "node-a") (fun _ => offline)
    (updatePeerFromWireGuard (StatusOwnership.nodeConfig "node-a") activePeer false)
  have stored : known.map (fun c => (c.scene.occasion.now, c.row.peerId, c.row.isConnected)) =
      some (hour, "p", false) := by decide +kernel
  obtain ⟨c, committed, values⟩ := Option.map_eq_some_iff.mp stored
  obtain ⟨now, same, disconnected⟩ := by simpa only [Prod.mk.injEq] using values
  have after := connects (fun _ => offline) activePeer false c committed (by rw [now]; decide)
  rw [show activePeer.identifier = c.row.peerId from same.symm, Commit.after,
    connected_storeStatus, disconnected] at after
  cases after

/-- The collector knows a peer also when its claim has failed. -/
example :
    let scene (turn : ℕ) : Scene :=
      { db := { StatusOwnership.sampleDb with
          interfaces := Table.empty.upsert { Interface.zero with identifier := "wg0" } }
        devices := fun _ => [activePeer]
        occasion := ⟨hour, hour, if turn = 4 then some (.other "Deadlock") else none, []⟩ }
    (((collectPeerData (StatusOwnership.nodeConfig "node-a") MapOrder.listed fun _ => []).eval
      (perform (StatusOwnership.nodeConfig "node-a") scene) ⟨0, none⟩).1.1 "wg0",
      (commits (StatusOwnership.nodeConfig "node-a") scene ((collectPeerData
        (StatusOwnership.nodeConfig "node-a") MapOrder.listed fun _ => []) >>= fun _ =>
          .ret ())).isSome) = (["p"], false) := by
  decide +kernel

end ActivePeers

end WgPortal.WireGuard
