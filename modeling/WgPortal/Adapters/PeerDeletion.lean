import WgPortal.Adapters.ExpiryDeletion

/-! Deleting peers by their identifiers: what is gone afterwards and what is counted, if some
of the chunks fail. -/

namespace WgPortal.Adapters.PeerDeletion

open Domain Library

/-- A call with nothing in between its statements, of which some fail. -/
def run (now : Time) (faults : Faults) (db : Db) (peerIDs : List PeerIdentifier) :
    (ℕ × Option Error) × Session :=
  (deletePeersByIDs peerIDs).eval (sequential now faults) ⟨db, none⟩

/-- The identifiers of the chunks up to the first whose transaction does not commit -/
def CommittedPrefix (faults : Faults) (peerIDs committed : List PeerIdentifier) : Prop :=
  ∃ done rest, chunks peerIDs = done ++ rest ∧ committed = done.flatMap Prod.snd ∧
    (∀ part ∈ done, faults.Commits part.1 part.2) ∧
    ∀ part ∈ rest.head?, ¬ faults.Commits part.1 part.2

/-- The rows that are gone, and no others, are missing in the table afterwards. -/
def Loses {κ ν : Type} [DecidableEq κ] {key : ν → κ} (before after : Table key)
    (gone : ν → Prop) : Prop := ∀ row, row ∈ after.rows ↔ row ∈ before.rows ∧ ¬ gone row

/-- What a call has deleted and what it answers. `Status` and `Address` are for the rows that
are to go with the peers. -/
structure Deletes (db after : Db) (peerIDs committed : List PeerIdentifier)
    (result : ℕ × Option Error) (Status : PeerStatus → Prop)
    (Address : PeerIdentifier × Cidr → Prop) : Prop where
  peers : Loses db.peers after.peers (·.identifier ∈ committed)
  statuses : Loses db.peerStatuses after.peerStatuses Status
  addresses : Loses db.peerAddresses after.peerAddresses Address
  count : db.peers.rows.length = after.peers.rows.length + result.1
  complete : result.2 = none → ∀ id ∈ peerIDs, after.peers.find id = none

theorem loses_filter {κ ν : Type} [DecidableEq κ] {key : ν → κ} (t : Table key) (gone : ν → Prop)
    [DecidablePred gone] : Loses t (t.filter fun row => ¬ gone row) gone := by
  intro row
  simp [Table.filter]

/-- Each stored peer is left, or it is counted. -/
theorem length_deletePeers (db : Db) (ids : List PeerIdentifier) :
    db.peers.rows.length = (db.deletePeers ids).peers.rows.length + db.countPeers ids := by
  have split := List.length_eq_length_filter_add (l := db.peers.rows) (·.identifier ∈ ids)
  rw [split, Nat.add_comm, Db.deletePeers, Db.countPeers, Table.filter]
  simp

/-- The rows of the chunks that commit are deleted, whether or not a peer is stored for them. -/
theorem run_deletes (now : Time) (faults : Faults) (db : Db) (peerIDs : List PeerIdentifier) :
    ∃ committed, CommittedPrefix faults peerIDs committed ∧
      Deletes db (run now faults db peerIDs).2.db peerIDs committed (run now faults db peerIDs).1
        (·.peerId ∈ committed) (·.1 ∈ committed) := by
  obtain ⟨done, rest, failure, split, ran, committed, fails, complete⟩ :=
    eval_deleteChunks now faults (chunks peerIDs) 0 db
  have after : run now faults db peerIDs = ((0 + db.countPeers (done.flatMap Prod.snd), failure),
      ⟨db.deletePeers (done.flatMap Prod.snd), none⟩) := ran
  refine ⟨done.flatMap Prod.snd, ⟨done, rest, split, rfl, committed, fails⟩, ?_⟩
  rw [after]
  refine ⟨loses_filter _ _, loses_filter _ _, loses_filter _ _, ?_, fun succeeded id listed => ?_⟩
  · rw [Nat.zero_add]
    exact length_deletePeers db _
  · have all : done.flatMap Prod.snd = peerIDs := by
      rw [← chunks_flatten peerIDs, split, complete.mp succeeded, List.append_nil]
    rw [all, Db.find_deletePeers, if_pos listed]

/-- A status that an interface has left behind for its peer -/
def orphanedStatus : Db :=
  { Db.empty with peerStatuses := ⟨[PeerStatus.fresh "p" 0], by simp⟩ }

/-- The rows of the deleted peers are not all that goes. -/
theorem orphanedStatus_deleted : ¬ ∃ committed, CommittedPrefix (fun _ => none) ["p"] committed ∧
    Deletes orphanedStatus (run 0 (fun _ => none) orphanedStatus ["p"]).2.db ["p"] committed
      (run 0 (fun _ => none) orphanedStatus ["p"]).1
      (fun row => row.peerId ∈ committed ∧ orphanedStatus.peers.find row.peerId ≠ none)
      (fun row => row.1 ∈ committed ∧ orphanedStatus.peers.find row.1 ≠ none) := by
  rintro ⟨committed, _, deletes⟩
  have kept := (deletes.statuses (PeerStatus.fresh "p" 0)).mpr
    ⟨List.mem_singleton_self _, fun theirs => theirs.2 rfl⟩
  have gone : (run 0 (fun _ => none) orphanedStatus ["p"]).2.db.peerStatuses.rows = [] := by
    decide +kernel
  rw [gone] at kept
  cases kept

end WgPortal.Adapters.PeerDeletion
