import WgPortal.Adapters.ExpiryCleanup

/-! What `deletePeersByIDs` deletes when nothing else runs in between, for every
pattern of failing statements. -/

namespace WgPortal.Adapters

open Domain Library

/-- Which statements fail, and how. -/
abbrev Faults := CleanupOp → Option Error

/-- The operations performed one after the other at time `now`. -/
def sequential (now : Time) (faults : Faults) (op : CleanupOp) (s : Session) : op.Res × Session :=
  op.exec now (faults op) s

namespace Faults

variable (faults : Faults) (start : ℕ) (chunk : List PeerIdentifier)

/-- The first failure of an attempt, with whether it is retried. -/
def attempt (n : ℕ) : Option (Error × Bool) :=
  match faults (.begin start n) with
  | some err => some (err, true)
  | none =>
    (faults (.deleteAddresses start n chunk) <|> faults (.deleteStatuses start n chunk) <|>
      faults (.deletePeers start n chunk) <|> faults (.commit start n)).map
        fun err => (err, isDeadlockErr err)

/-- An attempt between the `n`-th and the `retries` following ones succeeds, and
those before it fail with errors that are retried. -/
def CommitsFrom (n retries : ℕ) : Prop :=
  ∃ k ≤ retries, faults.attempt start chunk (n + k) = none ∧
    ∀ j < k, ∃ err, faults.attempt start chunk (n + j) = some (err, true)

/-- The deletion of the chunk commits within four attempts. -/
def Commits : Prop := faults.CommitsFrom start chunk 0 chunkRetries

variable {faults start chunk}

theorem commitsFrom_zero {n : ℕ} :
    faults.CommitsFrom start chunk n 0 ↔ faults.attempt start chunk n = none := by
  simp [CommitsFrom]

theorem commitsFrom_succ {n retries : ℕ} :
    faults.CommitsFrom start chunk n (retries + 1) ↔
      faults.attempt start chunk n = none ∨
        (∃ err, faults.attempt start chunk n = some (err, true)) ∧
          faults.CommitsFrom start chunk (n + 1) retries := by
  constructor
  · rintro ⟨k, bound, success, retried⟩
    cases k with
    | zero => exact .inl success
    | succ k =>
      refine .inr ⟨retried 0 (by omega), k, by omega, ?_, ?_⟩
      · rw [Nat.add_right_comm]
        exact success
      · intro j hj
        rw [Nat.add_right_comm]
        exact retried (j + 1) (by omega)
  · rintro (success | ⟨failed, k, bound, success, retried⟩)
    · exact ⟨0, by omega, success, by simp⟩
    · refine ⟨k + 1, by omega, ?_, ?_⟩
      · rw [← Nat.add_right_comm] at success
        exact success
      · intro j hj
        cases j with
        | zero => exact failed
        | succ j =>
          have later := retried j (by omega)
          rw [Nat.add_right_comm] at later
          exact later

end Faults

namespace Db

/-- The database without these peers, their addresses and their statuses. -/
def deletePeers (db : Db) (ids : List PeerIdentifier) : Db :=
  { db with
    peers := db.peers.filter (·.identifier ∉ ids)
    peerAddresses := db.peerAddresses.filter (·.1 ∉ ids)
    peerStatuses := db.peerStatuses.filter (·.peerId ∉ ids) }

theorem deletePeers_nil (db : Db) : db.deletePeers [] = db := by
  simp [deletePeers, Table.filter_eq_self]

theorem deletePeers_deletePeers (db : Db) (ids others : List PeerIdentifier) :
    (db.deletePeers ids).deletePeers others = db.deletePeers (ids ++ others) := by
  simp [deletePeers, Table.filter_filter]

/-- The number of stored peers with one of these identifiers -/
def countPeers (db : Db) (ids : List PeerIdentifier) : ℕ :=
  (db.peers.rows.filter (·.identifier ∈ ids)).length

/-- Peers that were deleted before are not counted again. -/
theorem countPeers_append (db : Db) (ids others : List PeerIdentifier) :
    db.countPeers (ids ++ others) = db.countPeers ids + (db.deletePeers ids).countPeers others := by
  have split : ∀ rows : List Peer, (rows.filter (·.identifier ∈ ids ++ others)).length =
      (rows.filter (·.identifier ∈ ids)).length +
        ((rows.filter (·.identifier ∉ ids)).filter (·.identifier ∈ others)).length := by
    intro rows
    induction rows with
    | nil => rfl
    | cons row rows ih =>
      by_cases here : row.identifier ∈ ids
      · simp only [List.mem_append, here, true_or, decide_true, List.filter_cons_of_pos,
          List.length_cons, not_true_eq_false, decide_false, Bool.false_eq_true, not_false_eq_true,
          List.filter_cons_of_neg] at ih ⊢
        omega
      · by_cases there : row.identifier ∈ others <;>
          simp only [List.mem_append, here, there, or_true, or_false, decide_true, decide_false,
            List.filter_cons_of_pos, List.length_cons, not_false_eq_true, Bool.false_eq_true,
            List.filter_cons_of_neg] at ih ⊢ <;>
          omega
  exact split db.peers.rows

theorem find_deletePeers (db : Db) (ids : List PeerIdentifier) (id : PeerIdentifier) :
    (db.deletePeers ids).peers.find id = if id ∈ ids then none else db.peers.find id := by
  simp only [deletePeers, Table.find_filter]
  cases found : db.peers.find id with
  | none => simp
  | some row =>
    have key := Table.key_of_find found
    by_cases deleted : id ∈ ids <;> simp [key, deleted]

end Db

private theorem mem_collected {β : Type} (rows : List β) (key : β → PeerIdentifier)
    (chunk : List PeerIdentifier) {row : β} (h : row ∈ rows) :
    key row ∈ (rows.filter (key · ∈ chunk)).map key ↔ key row ∈ chunk := by
  simp only [List.mem_map, List.mem_filter, decide_eq_true_eq]
  constructor
  · rintro ⟨other, ⟨_, hother⟩, same⟩
    exact same ▸ hother
  · exact fun hrow => ⟨row, ⟨h, hrow⟩, rfl⟩

/-- What the statements of an attempt have collected is all that belongs to the
chunk, since nothing changes before the commit. -/
theorem apply_chunk (db : Db) (chunk : List PeerIdentifier) :
    Tx.apply
      { addresses := db.peerAddresses.rows.filter (·.1 ∈ chunk)
        statuses := (db.peerStatuses.rows.filter (·.peerId ∈ chunk)).map PeerStatus.peerId
        peers := (db.peers.rows.filter (·.identifier ∈ chunk)).map Peer.identifier } db =
      db.deletePeers chunk := by
  simp only [Tx.apply, Db.deletePeers]
  congr 1
  · refine Table.filter_congr fun row hrow => ?_
    simp only [mem_collected db.peers.rows Peer.identifier chunk hrow]
  · refine Table.filter_congr fun row hrow => ?_
    simp [hrow]
  · refine Table.filter_congr fun row hrow => ?_
    simp only [mem_collected db.peerStatuses.rows PeerStatus.peerId chunk hrow]

variable (now : Time) {faults : Faults}

/-- An attempt deletes the whole chunk and counts its peers, or it reports its first failure
and leaves everything as it was. -/
theorem eval_deleteChunkOnce (start n : ℕ) (chunk : List PeerIdentifier) (db : Db) :
    (deleteChunkOnce start n chunk).eval (sequential now faults) ⟨db, none⟩ =
      match faults.attempt start chunk n with
      | none => (.ok (db.countPeers chunk), ⟨db.deletePeers chunk, none⟩)
      | some failure => (.error failure, ⟨db, none⟩) := by
  simp only [deleteChunkOnce, CleanupProgram.issue, Program.call_bind, Program.ret_bind,
    Program.eval_call, sequential, CleanupOp.exec, Faults.attempt]
  cases begin : faults (.begin start n) with
  | some err => rfl
  | none =>
    cases addresses : faults (.deleteAddresses start n chunk) with
    | some err => simp [addresses, CleanupOp.exec, sequential]
    | none =>
      cases statuses : faults (.deleteStatuses start n chunk) with
      | some err => simp [addresses, statuses, CleanupOp.exec, sequential]
      | none =>
        cases peers : faults (.deletePeers start n chunk) with
        | some err => simp [addresses, statuses, peers, CleanupOp.exec, sequential]
        | none =>
          cases commit : faults (.commit start n) with
          | some err => simp [addresses, statuses, peers, commit, CleanupOp.exec, sequential]
          | none =>
            simp [addresses, statuses, peers, commit, CleanupOp.exec, sequential, ← apply_chunk,
              Tx.empty, Db.countPeers]

theorem eval_deleteChunk_commits {start n retries : ℕ} {chunk : List PeerIdentifier} (db : Db)
    (commits : faults.CommitsFrom start chunk n retries) :
    (deleteChunk start chunk n retries).eval (sequential now faults) ⟨db, none⟩ =
      (.ok (db.countPeers chunk), ⟨db.deletePeers chunk, none⟩) := by
  induction retries generalizing n with
  | zero =>
    have once := @eval_deleteChunkOnce now faults start n chunk db
    rw [Faults.commitsFrom_zero.mp commits] at once
    rw [deleteChunk, Program.eval_bind, once]
    rfl
  | succ retries ih =>
    have once := @eval_deleteChunkOnce now faults start n chunk db
    rcases Faults.commitsFrom_succ.mp commits with success | ⟨⟨err, failed⟩, later⟩
    · rw [success] at once
      rw [deleteChunk, Program.eval_bind, once]
      rfl
    · rw [failed] at once
      rw [deleteChunk, Program.eval_bind, once]
      exact ih later

theorem eval_deleteChunk_fails {start n retries : ℕ} {chunk : List PeerIdentifier} (db : Db)
    (fails : ¬ faults.CommitsFrom start chunk n retries) :
    ∃ err, (deleteChunk start chunk n retries).eval (sequential now faults) ⟨db, none⟩ =
      (.error err, ⟨db, none⟩) := by
  induction retries generalizing n with
  | zero =>
    rw [Faults.commitsFrom_zero] at fails
    obtain ⟨⟨err, retry⟩, failed⟩ := Option.ne_none_iff_exists'.mp fails
    have once := @eval_deleteChunkOnce now faults start n chunk db
    rw [failed] at once
    exact ⟨err, by rw [deleteChunk, Program.eval_bind, once]; rfl⟩
  | succ retries ih =>
    rw [Faults.commitsFrom_succ, not_or, not_and] at fails
    obtain ⟨⟨err, retry⟩, failed⟩ := Option.ne_none_iff_exists'.mp fails.1
    have once := @eval_deleteChunkOnce now faults start n chunk db
    rw [failed] at once
    cases retry with
    | false => exact ⟨err, by rw [deleteChunk, Program.eval_bind, once]; rfl⟩
    | true =>
      obtain ⟨err', rest⟩ := ih (fails.2 ⟨err, failed⟩)
      exact ⟨err', by rw [deleteChunk, Program.eval_bind, once]; exact rest⟩

/-- The chunks are deleted in order up to the first whose deletion fails. -/
theorem eval_deleteChunks (faults : Faults) (parts : List (ℕ × List PeerIdentifier)) (total : ℕ) (db : Db) :
    ∃ done rest failure,
      parts = done ++ rest ∧
      (deleteChunks parts total).eval (sequential now faults) ⟨db, none⟩ =
        ((total + db.countPeers (done.flatMap Prod.snd), failure),
          ⟨db.deletePeers (done.flatMap Prod.snd), none⟩) ∧
      (∀ part ∈ done, faults.Commits part.1 part.2) ∧
      (∀ part ∈ rest.head?, ¬ faults.Commits part.1 part.2) ∧
      (failure = none ↔ rest = []) := by
  induction parts generalizing total db with
  | nil =>
    refine ⟨[], [], none, rfl, ?_, by simp, by simp, by simp⟩
    simp [deleteChunks, Db.deletePeers_nil, Db.countPeers]
  | cons part parts ih =>
    obtain ⟨start, chunk⟩ := part
    by_cases commits : faults.Commits start chunk
    · have first := eval_deleteChunk_commits now db commits
      obtain ⟨done, rest, failure, split, later, committed, fails, complete⟩ :=
        ih (total + db.countPeers chunk) (db.deletePeers chunk)
      refine ⟨(start, chunk) :: done, rest, failure, by rw [split]; rfl, ?_, ?_, fails,
        complete⟩
      · rw [deleteChunks, Program.eval_bind, first]
        refine later.trans ?_
        rw [Db.deletePeers_deletePeers, List.flatMap_cons, Db.countPeers_append, Nat.add_assoc]
      · exact List.forall_mem_cons.mpr ⟨commits, committed⟩
    · obtain ⟨err, first⟩ := eval_deleteChunk_fails now db commits
      refine ⟨[], (start, chunk) :: parts, some err, rfl, ?_, by simp, ?_, by simp⟩
      · rw [deleteChunks, Program.eval_bind, first]
        simp [Db.deletePeers_nil, Db.countPeers]
      · rintro _ ⟨⟩
        exact commits

theorem chunks_flatten (peerIDs : List PeerIdentifier) :
    (chunks peerIDs).flatMap Prod.snd = peerIDs := by
  have upTo : ∀ n, ((List.range n).map fun i =>
      (chunkSize * i, (peerIDs.drop (chunkSize * i)).take chunkSize)).flatMap Prod.snd =
      peerIDs.take (chunkSize * n) := by
    intro n
    induction n with
    | zero => simp
    | succ n ih =>
      rw [List.range_succ, List.map_append, List.flatMap_append, ih, Nat.mul_succ, List.take_add]
      simp
  rw [chunks, upTo]
  refine List.take_of_length_le ?_
  simp only [chunkSize]
  omega

theorem chunks_ne_nil {peerIDs : List PeerIdentifier} {part : ℕ × List PeerIdentifier}
    (h : part ∈ chunks peerIDs) : part.2 ≠ [] := by
  obtain ⟨i, hi, rfl⟩ := List.mem_map.mp h
  have inside := List.mem_range.mp hi
  apply List.ne_nil_of_length_pos
  rw [List.length_take, List.length_drop]
  simp only [chunkSize] at inside ⊢
  omega

end WgPortal.Adapters
