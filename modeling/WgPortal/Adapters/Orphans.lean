import WgPortal.Adapters.ExpiryDeletion
import WgPortal.Adapters.Repository
import WgPortal.Adapters.StatusCalls

/-! Whether the rows of `peer_statuses` and `peer_addresses` refer to stored peers,
after any sequence of the calls that write these tables. -/

namespace WgPortal.Adapters.Orphans

open Domain Library Config
open StatusOwnership (Moment)

/-- The row that `SavePeer` asks for exists before its update function runs. -/
def createPeer (db : Db) (ui : UserIdentifier) (now : Time) (id : PeerIdentifier) : Db :=
  match db.peers.find id with
  | some _ => db
  | none => { db with peers := db.peers.upsert (db.getOrCreatePeer ui now id) }

/-- The whole of `SavePeer`. That the status cannot be written is only logged. -/
def savePeer (db : Db) (ui : UserIdentifier) (now : Time) (id : PeerIdentifier)
    (statusFault : Option Error) (updateFunc : Peer → Except Error Peer) : Except Error Unit × Db :=
  match updateFunc (db.getOrCreatePeer ui now id) with
  | .error err => (.error err, db)
  | .ok peer =>
    match statusFault with
    | some _ => (.ok (), (createPeer db ui now id).upsertPeer ui now peer)
    | none => (.ok (), (createPeer db ui now id).commitPeer ui now id peer)

/-- A peer of the interface has addresses. -/
def addressed (db : Db) (id : InterfaceIdentifier) : Bool :=
  db.peers.rows.any fun row => row.interfaceIdentifier = id && !(db.addressesOf row.identifier).isEmpty

/-- A database may enforce that the addresses of a peer refer to it. -/
def deleteInterface (enforced : Bool) (db : Db) (id : InterfaceIdentifier) :
    Except Error Unit × Db :=
  if enforced && addressed db id then (.error (.other "FOREIGN KEY constraint failed"), db)
  else (.ok (),
    { db with
      peers := db.peers.filter (·.interfaceIdentifier ≠ id)
      interfaces := db.interfaces.filter (·.identifier ≠ id) })

/-- The error of a call on many peers comes after the number of those it has deleted. -/
def deletePeersByIDs (now : Time) (faults : Faults) (db : Db) (peerIDs : List PeerIdentifier) :
    Except Error Unit × Db :=
  let r := (Adapters.deletePeersByIDs peerIDs).eval (sequential now faults) ⟨db, none⟩
  match r.1.2 with
  | some err => (.error err, r.2.db)
  | none => (.ok (), r.2.db)

inductive Call where
  | savePeer (userId : UserIdentifier) (now : Time) (id : PeerIdentifier)
      (statusFault : Option Error) (updateFunc : Peer → Except Error Peer)
  | deletePeer (id : PeerIdentifier)
  | deletePeersByIDs (now : Time) (faults : Faults) (peerIDs : List PeerIdentifier)
  | deleteInterface (id : InterfaceIdentifier)
  | status (call : StatusOwnership.Call) (moments : ℕ → Moment)
  | deletePeerStatus (id : PeerIdentifier)

def Call.exec (enforced : Bool) (db : Db) : Call → Except Error Unit × Db
  | .savePeer userId now id statusFault updateFunc =>
    Orphans.savePeer db userId now id statusFault updateFunc
  | .deletePeer id => (.ok (), db.deletePeer id)
  | .deletePeersByIDs now faults peerIDs => Orphans.deletePeersByIDs now faults db peerIDs
  | .deleteInterface id => Orphans.deleteInterface enforced db id
  | .status call moments => StatusCalls.Call.run call moments db
  | .deletePeerStatus id => (.ok (), db.deletePeerStatus id)

/-- A call that succeeds. -/
def next (enforced : Bool) (db : Db) (call : Call) : Option Db :=
  match call.exec enforced db with
  | (.ok _, db') => some db'
  | (.error _, _) => none

structure NoOrphans (db : Db) : Prop where
  statuses : ∀ row ∈ db.peerStatuses.rows, db.peers.find row.peerId ≠ none
  addresses : ∀ row ∈ db.peerAddresses.rows, db.peers.find row.1 ≠ none

/-- The peers of the interface have neither a status nor addresses. -/
def Bare (db : Db) (id : InterfaceIdentifier) : Prop :=
  ∀ row ∈ db.peers.rows, row.interfaceIdentifier = id →
    (∀ status ∈ db.peerStatuses.rows, status.peerId ≠ row.identifier) ∧
      ∀ entry ∈ db.peerAddresses.rows, entry.1 ≠ row.identifier

instance (db : Db) (id : InterfaceIdentifier) : Decidable (Bare db id) :=
  inferInstanceAs (Decidable (∀ row ∈ db.peers.rows, _ → _ ∧ _))

def guard (db : Db) : Call → Prop
  | .deleteInterface id => Bare db id
  | _ => True

instance (db : Db) (call : Call) : Decidable (guard db call) := by
  cases call <;> unfold guard <;> infer_instance

/-- More peers, and no other statuses and addresses than theirs. -/
theorem NoOrphans.congr {db db' : Db} (ok : NoOrphans db)
    (peers : ∀ id, db.peers.find id ≠ none → db'.peers.find id ≠ none)
    (statuses : ∀ row ∈ db'.peerStatuses.rows,
      row ∈ db.peerStatuses.rows ∨ db'.peers.find row.peerId ≠ none)
    (addresses : ∀ row ∈ db'.peerAddresses.rows,
      row ∈ db.peerAddresses.rows ∨ db'.peers.find row.1 ≠ none) : NoOrphans db' := by
  refine ⟨fun row listed => ?_, fun row listed => ?_⟩
  · rcases statuses row listed with before | stored
    · exact peers _ (ok.statuses row before)
    · exact stored
  · rcases addresses row listed with before | stored
    · exact peers _ (ok.addresses row before)
    · exact stored

theorem find_upsert_ne_none {t : Table Peer.identifier} {row : Peer} {id : PeerIdentifier}
    (stored : t.find id ≠ none) : (t.upsert row).find id ≠ none := by
  rw [Table.find_upsert]
  split
  · simp
  · exact stored

variable {db db' : Db}

theorem noOrphans_createPeer (ok : NoOrphans db) (ui : UserIdentifier) (now : Time)
    (id : PeerIdentifier) :
    NoOrphans (createPeer db ui now id) ∧ (createPeer db ui now id).peers.find id ≠ none := by
  unfold createPeer
  split
  · rename_i row found
    exact ⟨ok, by simp [found]⟩
  · rename_i missing
    refine ⟨ok.congr (fun _ => find_upsert_ne_none) (fun _ => .inl) (fun _ => .inl), ?_⟩
    have named : (db.getOrCreatePeer ui now id).identifier = id := by
      simp only [Db.getOrCreatePeer, missing]
    have found := Table.find_upsert_self db.peers (db.getOrCreatePeer ui now id)
    rw [named] at found
    simp [found]

theorem noOrphans_upsertPeer (ok : NoOrphans db) (ui : UserIdentifier) (now : Time) (peer : Peer) :
    NoOrphans (db.upsertPeer ui now peer) := by
  refine ok.congr (fun _ => find_upsert_ne_none) (fun _ => .inl) fun row listed => ?_
  rcases Table.mem_insertNew.mp listed with before | new
  · exact .inl (List.mem_filter.mp before).1
  · right
    obtain ⟨cidr, _, rfl⟩ := List.mem_map.mp new
    have found := Table.find_upsert_self db.peers (Db.updatedRow ui now peer)
    have named : (Db.updatedRow ui now peer).identifier = peer.identifier := rfl
    rw [named] at found
    simp [Db.upsertPeer, found]

theorem noOrphans_ensurePeerStatus (ok : NoOrphans db) (now : Time) {id : PeerIdentifier}
    (peer : Peer) (stored : db.peers.find id ≠ none) :
    NoOrphans (db.ensurePeerStatus now id peer) := by
  have reset : NoOrphans { db with peerStatuses := db.peerStatuses.upsert (PeerStatus.fresh id now) } := by
    refine ok.congr (fun _ known => known) (fun row listed => ?_) (fun _ => .inl)
    rcases Table.mem_upsert.mp listed with rfl | ⟨before, _⟩
    · exact .inr stored
    · exact .inl before
  unfold Db.ensurePeerStatus
  split
  · split
    · exact reset
    · exact ok
  · exact reset

theorem noOrphans_savePeer (ok : NoOrphans db) {ui : UserIdentifier} {now : Time}
    {id : PeerIdentifier} {statusFault : Option Error} {updateFunc : Peer → Except Error Peer}
    {answer : Except Error Unit}
    (saved : savePeer db ui now id statusFault updateFunc = (answer, db')) : NoOrphans db' := by
  obtain ⟨created, stored⟩ := noOrphans_createPeer ok ui now id
  unfold savePeer at saved
  split at saved
  · rw [← (Prod.mk.inj saved).2]
    exact ok
  · rename_i peer _
    have written := noOrphans_upsertPeer created ui now peer
    split at saved
    · rw [← (Prod.mk.inj saved).2]
      exact written
    · rw [← (Prod.mk.inj saved).2]
      exact noOrphans_ensurePeerStatus written now peer (find_upsert_ne_none stored)

/-- What a deletion keeps refers to the peers that it keeps. -/
theorem noOrphans_deletePeers (ok : NoOrphans db) (ids : List PeerIdentifier) :
    NoOrphans (db.deletePeers ids) := by
  refine ⟨fun row listed => ?_, fun row listed => ?_⟩
  · obtain ⟨before, kept⟩ := List.mem_filter.mp listed
    rw [Db.find_deletePeers, if_neg (by simpa using kept)]
    exact ok.statuses row before
  · obtain ⟨before, kept⟩ := List.mem_filter.mp listed
    rw [Db.find_deletePeers, if_neg (by simpa using kept)]
    exact ok.addresses row before

theorem deletePeer_eq (db : Db) (id : PeerIdentifier) : db.deletePeer id = db.deletePeers [id] := by
  simp [Db.deletePeer, Db.deletePeers]

theorem noOrphans_deletePeersByIDs (ok : NoOrphans db) {now : Time} {faults : Faults}
    {peerIDs : List PeerIdentifier} {answer : Except Error Unit}
    (deleted : deletePeersByIDs now faults db peerIDs = (answer, db')) : NoOrphans db' := by
  obtain ⟨done, rest, failure, _, run, _⟩ :=
    eval_deleteChunks now faults (chunks peerIDs) 0 db
  have after : db' = db.deletePeers (done.flatMap Prod.snd) := by
    unfold deletePeersByIDs Adapters.deletePeersByIDs at deleted
    rw [run] at deleted
    cases failure <;> exact (Prod.mk.inj deleted).2.symm
  rw [after]
  exact noOrphans_deletePeers ok _

theorem noOrphans_putStatus (ok : NoOrphans db) {row : PeerStatus}
    (stored : db.peers.find row.peerId ≠ none) : NoOrphans (StatusCalls.Db.putStatus db row) := by
  refine ok.congr (fun _ known => known) (fun other listed => ?_) (fun _ => .inl)
  rcases Table.mem_upsert.mp listed with rfl | ⟨before, _⟩
  · exact .inr stored
  · exact .inl before

/-- Who reads the status of a peer finds that the peer is stored. -/
theorem stored_of_reads (ok : NoOrphans db) {id : PeerIdentifier} {row : PeerStatus}
    (reads : StatusCalls.Reads db id row) : db.peers.find id ≠ none := by
  rcases reads with found | ⟨created, rfl⟩
  · have stored := ok.statuses row (Table.mem_of_find found)
    rwa [Table.key_of_find found] at stored
  · exact created.peer

theorem noOrphans_outcome (ok : NoOrphans db) {call : StatusOwnership.Call}
    (outcome : StatusCalls.Call.Outcome call db db') : NoOrphans db' := by
  cases call with
  | update cfg id updateFunc =>
    cases outcome with
    | skipped => exact ok
    | stored peer read updated =>
      refine noOrphans_putStatus ok ?_
      rwa [StatusOwnership.peerId_ownedUpdate, updateFunc.peerId _ _ updated, read.peerId]
  | claim id ownerNodeId updateFunc =>
    cases outcome with
    | stored named read updated =>
      refine noOrphans_putStatus ok ?_
      have same := (updateFunc.peerId _ _ updated).trans read.peerId
      exact same ▸ stored_of_reads ok read
  | batch updates =>
    obtain ⟨attempt, rows, batched, rfl⟩ := outcome
    refine ok.congr (fun _ known => known) (fun other listed => ?_) (fun _ => .inl)
    rcases StatusOwnership.mem_upsertAll listed with new | before
    · exact .inr (batched other new).peer
    · exact .inl before

/-- The interface goes with its peers, and what belongs to other peers stays. -/
theorem noOrphans_deleteInterface_iff (ok : NoOrphans db) {enforced : Bool}
    {id : InterfaceIdentifier} (deleted : deleteInterface enforced db id = (.ok (), db')) :
    NoOrphans db' ↔ Bare db id := by
  have after : db' = { db with
      peers := db.peers.filter (·.interfaceIdentifier ≠ id)
      interfaces := db.interfaces.filter (·.identifier ≠ id) } := by
    unfold deleteInterface at deleted
    split at deleted
    · cases (Prod.mk.inj deleted).1
    · exact (Prod.mk.inj deleted).2.symm
  have kept : ∀ other, db.peers.find other ≠ none → (db'.peers.find other ≠ none ↔
      ∀ row ∈ db.peers.rows, row.interfaceIdentifier = id → other ≠ row.identifier) := by
    intro other known
    obtain ⟨peer, found⟩ := Option.ne_none_iff_exists'.mp known
    have stays : db'.peers.find other ≠ none ↔ peer.interfaceIdentifier ≠ id := by
      simp [after, Table.find_filter, found]
    rw [stays]
    constructor
    · rintro elsewhere row listed here rfl
      rw [Table.find_of_mem listed] at found
      exact elsewhere (Option.some.inj found ▸ here)
    · intro others here
      exact others peer (Table.mem_of_find found) here (Table.key_of_find found).symm
  have statuses : db'.peerStatuses = db.peerStatuses := by rw [after]
  have addresses : db'.peerAddresses = db.peerAddresses := by rw [after]
  constructor
  · intro ok' row listed here
    refine ⟨fun status hstatus => ?_, fun entry hentry => ?_⟩
    · exact (kept _ (ok.statuses status hstatus)).mp
        (ok'.statuses status (statuses ▸ hstatus)) row listed here
    · exact (kept _ (ok.addresses entry hentry)).mp
        (ok'.addresses entry (addresses ▸ hentry)) row listed here
  · intro bare
    refine ⟨fun status hstatus => ?_, fun entry hentry => ?_⟩
    · rw [statuses] at hstatus
      exact (kept _ (ok.statuses status hstatus)).mpr
        fun row listed here => (bare row listed here).1 status hstatus
    · rw [addresses] at hentry
      exact (kept _ (ok.addresses entry hentry)).mpr
        fun row listed here => (bare row listed here).2 entry hentry

theorem noOrphans_next (ok : NoOrphans db) {enforced : Bool} {call : Call} (allowed : guard db call)
    (step : next enforced db call = some db') : NoOrphans db' := by
  unfold next at step
  split at step
  · rename_i answer after run
    rw [← Option.some.inj step]
    cases call with
    | savePeer userId now id statusFault updateFunc => exact noOrphans_savePeer ok run
    | deletePeer id =>
      rw [← (Prod.mk.inj run).2, deletePeer_eq]
      exact noOrphans_deletePeers ok [id]
    | deletePeersByIDs now faults peerIDs => exact noOrphans_deletePeersByIDs ok run
    | deleteInterface id => exact (noOrphans_deleteInterface_iff ok run).mpr allowed
    | status call moments =>
      have outcome := (StatusCalls.run_outcome call moments db).1
      simp only [Call.exec] at run
      rw [run] at outcome
      exact noOrphans_outcome ok (outcome rfl)
    | deletePeerStatus id =>
      rw [← (Prod.mk.inj run).2]
      refine ok.congr (fun _ known => known) (fun row listed => ?_) (fun _ => .inl)
      exact .inl (List.mem_filter.mp listed).1
  · cases step

/-- Every status and every address belongs to a stored peer, if interfaces are deleted
without peers that have a status or an address. -/
theorem guarded_run_noOrphans {enforced : Bool} {calls : List Call}
    (guarded : Guarded (next enforced) guard Db.empty calls)
    (run : runFrom (next enforced) Db.empty calls = some db) : NoOrphans db := by
  refine run_invariant (fun _ _ _ ok allowed => noOrphans_next ok allowed) guarded run ?_
  exact ⟨fun _ listed => (by cases listed), fun _ listed => (by cases listed)⟩

/-- A peer of `wg0` is saved with these addresses. -/
def saved (addresses : List Cidr) : Call :=
  .savePeer "admin" 0 "p" none fun peer =>
    .ok { peer with
      interfaceIdentifier := "wg0"
      interface := { peer.interface with addresses := addresses } }

/-- The peer is claimed and deleted before its interface is. -/
def cleared : List Call :=
  [saved [⟨⟨.v4, 0x0a000002, sampleAddr_lt⟩, 32, sampleBits_le⟩],
    .status (.claim "p" "node-a" (StatusOwnership.setConnected true)) fun _ => ⟨0, none⟩,
    .deletePeersByIDs 0 (fun _ => none) ["p"], .deleteInterface "wg0"]

theorem cleared_noOrphans :
    ∃ db, runFrom (next true) Db.empty cleared = some db ∧ db.peers.rows.length = 0 ∧
      NoOrphans db := by
  have guarded : Guarded (next true) guard Db.empty cleared := by decide +kernel
  have final : (runFrom (next true) Db.empty cleared).map (fun db => db.peers.rows.length) =
      some 0 := by decide +kernel
  obtain ⟨db, run, none⟩ := Option.map_eq_some_iff.mp final
  exact ⟨db, run, none, guarded_run_noOrphans guarded run⟩

/-- The status of a peer outlives the interface, also where addresses have to refer to peers. -/
theorem deletedInterface_orphans :
    ∃ db, runFrom (next true) Db.empty [saved [], .deleteInterface "wg0"] = some db ∧
      ¬ NoOrphans db := by
  have final : (runFrom (next true) Db.empty [saved [], .deleteInterface "wg0"]).map
      (fun db => (db.peerStatuses.rows.map PeerStatus.peerId, db.peers.rows.map Peer.identifier)) =
      some (["p"], []) := by decide +kernel
  obtain ⟨db, run, rows⟩ := Option.map_eq_some_iff.mp final
  obtain ⟨statuses, peers⟩ := Prod.mk.inj rows
  refine ⟨db, run, fun ok => ?_⟩
  have listed : "p" ∈ db.peerStatuses.rows.map PeerStatus.peerId := by
    rw [statuses]
    exact List.mem_singleton_self "p"
  obtain ⟨status, hstatus, named⟩ := List.mem_map.mp listed
  refine ok.statuses status hstatus (Table.find_eq_none.mpr fun row hrow => ?_)
  rw [List.map_eq_nil_iff.mp peers] at hrow
  cases hrow

end WgPortal.Adapters.Orphans
