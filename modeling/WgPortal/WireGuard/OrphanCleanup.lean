import WgPortal.Library.Interleaving
import WgPortal.WireGuard.Sync

/-! Which statuses the cleanup of orphaned statuses deletes, alone and while other
nodes create peers. -/

namespace WgPortal.WireGuard.OrphanCleanup

open Domain Library Adapters Config WgController System
open ManagerProgram (issue)

variable {w : Wgtypes} (client : Client w)

/-- The statuses that are left are those of stored peers. -/
def Exact (db db' : Db) : Prop :=
  ∀ row, row ∈ db'.peerStatuses.rows ↔
    row ∈ db.peerStatuses.rows ∧ db.peers.find row.peerId ≠ none

/-- The status of a stored peer is not deleted. -/
def Spares (db db' : Db) : Prop :=
  ∀ id, db.peers.find id ≠ none → db.peerStatuses.find id ≠ none → db'.peerStatuses.find id ≠ none

/-- Another node creates or saves a peer, and its status with it. -/
structure Creation where
  userId : UserIdentifier
  now : Time
  peer : Peer

/-- The cleanup on any number of nodes, each with its configuration. -/
def system (ι : Type) :
    System ι Creation Config ManagerOp ManagerOp.Res Circumstance Unit (World w) where
  exec := fun _ op c world => op.exec client c world
  env := fun e world => some
    { world with db := world.db.commitPeer e.userId e.now e.peer.identifier e.peer }
  start := fun _ cfg world => some (cleanOrphanedStatuses cfg, world)
  finish := fun _ _ world => world

/-- A cleanup is over, or about to ask for all peers and over if they cannot be listed. -/
def AsksFirst : ManagerProgram Unit → Prop
  | .ret _ => True
  | .call op next => ∃ same : op = .repo .getAllPeers, ∀ err, next (same ▸ Except.error err) = .ret ()

theorem asksFirst_cleanOrphanedStatuses (cfg : Config) : AsksFirst (cleanOrphanedStatuses cfg) := by
  unfold cleanOrphanedStatuses
  split
  · trivial
  · exact ⟨rfl, fun err => rfl⟩

/-- The peers cannot be listed, whatever the circumstances are. -/
theorem exec_getAllPeers (c : Circumstance) (world : World w) :
    ∃ err, ManagerOp.exec client c (.repo .getAllPeers) world = (.error err, world) := by
  cases fault : c.fault with
  | some err => exact ⟨err, by simp only [ManagerOp.exec, RepoOp.exec, fault]⟩
  | none =>
    refine ⟨.other "no such column: id", ?_⟩
    simp only [ManagerOp.exec, RepoOp.exec, fault, RepoOp.answer, RepoOp.apply, Db.getAllPeers_eq]

theorem AsksFirst.exec {op : ManagerOp} {next : op.Res → ManagerProgram Unit}
    (asks : AsksFirst (.call op next)) (c : Circumstance) (world : World w) :
    next (op.exec client c world).1 = .ret () ∧ (op.exec client c world).2 = world := by
  obtain ⟨rfl, ends⟩ := asks
  obtain ⟨err, failed⟩ := exec_getAllPeers client c world
  rw [failed]
  exact ⟨ends err, rfl⟩

theorem run_cleanOrphanedStatuses (cfg : Config) (circumstances : ℕ → Circumstance)
    (world : World w) :
    ((cleanOrphanedStatuses cfg).run client circumstances world).2 = world := by
  have unchanged : ∀ prog, AsksFirst prog → ∀ n,
      (prog.eval (inTurn client circumstances) (n, world)).2.2 = world := by
    intro prog asks n
    cases prog with
    | ret => rfl
    | call op next =>
      obtain ⟨ends, same⟩ := asks.exec client (circumstances n) world
      simp only [Program.eval_call, inTurn, ends, same, Program.eval_ret]
  exact unchanged _ (asksFirst_cleanOrphanedStatuses cfg) 0

variable {client} {ι : Type} [DecidableEq ι]

/-- No step of a cleanup writes the database, wherever peers are created in between. -/
theorem step_cleanup {world : World w} {turns : List (Turn ι Creation Config Circumstance)}
    {p q : Pool ι ManagerOp ManagerOp.Res Unit (World w)}
    (run : runFrom (system client ι).next (idle world) turns = some p) {i : ι} {c : Circumstance}
    (step : (system client ι).next p (.step i c) = some q) : q.shared = p.shared := by
  have threads : Threads AsksFirst p := by
    refine threads_run (fun _ cfg s prog t started => ?_) (fun i op rest c s asks => ?_) run
    · rw [← (Prod.mk.inj (Option.some.inj started)).1]
      exact asksFirst_cleanOrphanedStatuses cfg
    · have ends : rest (op.exec client c s).1 = .ret () := (asks.exec client c s).1
      exact ends ▸ trivial
  simp only [next] at step
  split at step
  · cases step
  · rw [← Option.some.inj step]
    rfl
  · rename_i op rest here
    rw [← Option.some.inj step]
    exact (AsksFirst.exec client (threads i _ here) c p.shared).2

/-- The cleanup leaves the statuses of stored peers, and only those, if there are no others. -/
theorem cleanup_exact_iff (cfg : Config) (circumstances : ℕ → Circumstance) (world : World w) :
    (Exact world.db ((cleanOrphanedStatuses cfg).run client circumstances world).2.db ∧
      ∀ (turns : List (Turn ι Creation Config Circumstance)) p q i c,
        runFrom (system client ι).next (idle world) turns = some p →
        (system client ι).next p (.step i c) = some q → Spares p.shared.db q.shared.db) ↔
    ∀ row ∈ world.db.peerStatuses.rows, world.db.peers.find row.peerId ≠ none := by
  rw [run_cleanOrphanedStatuses]
  constructor
  · exact fun both row listed => ((both.1 row).mp listed).2
  · intro none
    refine ⟨fun row => ⟨fun listed => ⟨listed, none row listed⟩, And.left⟩, ?_⟩
    intro turns p q i c run step id _ stored
    rwa [step_cleanup run step]

/-- The status of a peer whose interface was deleted. -/
def orphaned : World plainTypes where
  db := { Db.empty with peerStatuses := Table.empty.upsert (PeerStatus.fresh "p" 0) }
  devices := fun _ => none
  events := []

/-- Nothing fails, but the primary node does not clean up. -/
theorem orphaned_not_cleaned : isPrimaryNode defaultConfig = true ∧ Faultless calm ∧
    ¬ Exact orphaned.db
      ((cleanOrphanedStatuses defaultConfig).run (plainClient plainTypes) calm orphaned).2.db := by
  refine ⟨by decide, fun _ => rfl, fun exact => ?_⟩
  rw [run_cleanOrphanedStatuses] at exact
  have stored := (exact (PeerStatus.fresh "p" 0)).mp (List.mem_singleton_self _)
  exact stored.2 rfl

end WgPortal.WireGuard.OrphanCleanup
