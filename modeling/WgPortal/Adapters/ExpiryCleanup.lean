import WgPortal.Adapters.Database
import WgPortal.Config.Config

/-! Finding and deleting expired peers. The selection and the deletion of each
chunk are transactions of their own, so every statement is an operation. -/

namespace WgPortal.Adapters

open Domain Library Config

/-- Statements of a deletion carry the first index of their chunk and the number
of the attempt, by which a pattern of failures can tell them apart. -/
inductive CleanupOp where
  | timeNow
  /-- `SELECT identifier, interface_identifier WHERE expires_at < ?` -/
  | selectExpired (now : Time)
  | begin (start attempt : ℕ)
  | deleteAddresses (start attempt : ℕ) (chunk : List PeerIdentifier)
  | deleteStatuses (start attempt : ℕ) (chunk : List PeerIdentifier)
  | deletePeers (start attempt : ℕ) (chunk : List PeerIdentifier)
  | commit (start attempt : ℕ)
  | rollback (start attempt : ℕ)
  /-- `cleanupCtx.Err()` -/
  | ctxErr
deriving DecidableEq

/-- The number of affected rows is what `deletePeers` answers. -/
abbrev CleanupOp.Res : CleanupOp → Type
  | timeNow => Time
  | selectExpired _ => Except Error (List Peer)
  | deletePeers .. => Except Error ℕ
  | rollback .. => Unit
  | ctxErr => Option Error
  | _ => Except Error Unit

abbrev CleanupProgram := Program CleanupOp CleanupOp.Res

def CleanupProgram.issue (op : CleanupOp) : CleanupProgram op.Res := .call op .ret

open CleanupProgram (issue)

/-- Deadlocks are recognised by the text of the error. -/
def isDeadlockErr (err : Error) : Bool :=
  contains err.text "Deadlock" || contains err.text "deadlock" || contains err.text "Error 1213"

def getExpiredPeers : CleanupProgram (Except Error (List Peer)) := do
  let now ← issue .timeNow
  issue (.selectExpired now)

/-- One attempt to delete a chunk. An error comes with whether it is retried. -/
def deleteChunkOnce (start attempt : ℕ) (chunk : List PeerIdentifier) :
    CleanupProgram (Except (Error × Bool) ℕ) := do
  match ← issue (.begin start attempt) with
  | .error err => return .error (err, true)
  | .ok _ =>
  match ← issue (.deleteAddresses start attempt chunk) with
  | .error err => do
    issue (.rollback start attempt)
    return .error (err, isDeadlockErr err)
  | .ok _ =>
  match ← issue (.deleteStatuses start attempt chunk) with
  | .error err => do
    issue (.rollback start attempt)
    return .error (err, isDeadlockErr err)
  | .ok _ =>
  match ← issue (.deletePeers start attempt chunk) with
  | .error err => do
    issue (.rollback start attempt)
    return .error (err, isDeadlockErr err)
  | .ok rowsAffected =>
  match ← issue (.commit start attempt) with
  | .error err => return .error (err, isDeadlockErr err)
  | .ok _ => return .ok rowsAffected

def deleteChunk (start : ℕ) (chunk : List PeerIdentifier) (attempt : ℕ) :
    (retries : ℕ) → CleanupProgram (Except Error ℕ)
  | 0 => do
    match ← deleteChunkOnce start attempt chunk with
    | .ok rowsAffected => return .ok rowsAffected
    | .error (err, _) => return .error err
  | retries + 1 => do
    match ← deleteChunkOnce start attempt chunk with
    | .ok rowsAffected => return .ok rowsAffected
    | .error (err, false) => return .error err
    | .error (_, true) => deleteChunk start chunk (attempt + 1) retries

def chunkSize : ℕ := 200

/-- Four attempts at each chunk. -/
def chunkRetries : ℕ := 3

/-- The chunks with their first indices. -/
def chunks (peerIDs : List PeerIdentifier) : List (ℕ × List PeerIdentifier) :=
  (List.range ((peerIDs.length + (chunkSize - 1)) / chunkSize)).map fun i =>
    (chunkSize * i, (peerIDs.drop (chunkSize * i)).take chunkSize)

def deleteChunks : List (ℕ × List PeerIdentifier) → ℕ → CleanupProgram (ℕ × Option Error)
  | [], totalDeleted => return (totalDeleted, none)
  | (start, chunk) :: rest, totalDeleted => do
    match ← deleteChunk start chunk 0 chunkRetries with
    | .ok rowsAffected => deleteChunks rest (totalDeleted + rowsAffected)
    | .error err => return (totalDeleted, some err)

def deletePeersByIDs (peerIDs : List PeerIdentifier) : CleanupProgram (ℕ × Option Error) :=
  deleteChunks (chunks peerIDs) 0

/-- A failure after the timeout is reported as one of the context. -/
def cleanupFailure (timeoutText : String) (err : Error) :
    CleanupProgram (List PeerIdentifier × Option Error) := do
  match ← issue .ctxErr with
  | some ctxErr => return ([], some (.wrap timeoutText ctxErr))
  | none => return ([], some err)

/-- The identifiers of the deleted peers, for the master node. -/
def findAndDeleteExpiredPeersWithLock (cfg : Config) :
    CleanupProgram (List PeerIdentifier × Option Error) :=
  if !cfg.core.master then return ([], none)
  else do
    match ← getExpiredPeers with
    | .error err => cleanupFailure "expired peer lookup timeout (high load condition)" err
    | .ok expiredPeers =>
      if expiredPeers.isEmpty then return ([], none)
      else do
        let peerIDs := expiredPeers.map Peer.identifier
        match ← deletePeersByIDs peerIDs with
        | (_, some err) =>
          cleanupFailure "expired peer deletion timeout (high load condition)" err
        | (_, none) => return (peerIDs, none)

/-- What an open transaction has deleted. Its rows of `peers` stay locked. -/
structure Tx where
  addresses : List (PeerIdentifier × Cidr)
  statuses : List PeerIdentifier
  peers : List PeerIdentifier

structure Session where
  db : Db
  tx : Option Tx

namespace Tx

def empty : Tx := ⟨[], [], []⟩

def apply (tx : Tx) (db : Db) : Db :=
  { db with
    peers := db.peers.filter (·.identifier ∉ tx.peers)
    peerAddresses := db.peerAddresses.filter (· ∉ tx.addresses)
    peerStatuses := db.peerStatuses.filter (·.peerId ∉ tx.statuses) }

end Tx

/-- `expires_at IS NOT NULL AND expires_at < ?` -/
def expiredBefore (limit : Time) (row : Peer) : Bool :=
  match row.expiresAt with
  | none => false
  | some expiresAt => expiresAt.before limit

/-- The selected columns of the expired peers. -/
def Db.expiredPeers (db : Db) (limit : Time) : List Peer :=
  (db.peers.rows.filter (expiredBefore limit)).map fun row =>
    { Peer.zero with
      identifier := row.identifier, interfaceIdentifier := row.interfaceIdentifier }

/-- An operation at time `now`. One that fails changes nothing, except that a
failed commit ends the transaction. -/
def CleanupOp.exec (now : Time) (fault : Option Error) :
    (op : CleanupOp) → Session → op.Res × Session
  | .timeNow, s => (now, s)
  | .ctxErr, s => (fault, s)
  | .rollback .., s => ((), { s with tx := none })
  | .selectExpired limit, s =>
    match fault with
    | some err => (.error err, s)
    | none => (.ok (s.db.expiredPeers limit), s)
  | .begin .., s =>
    match fault with
    | some err => (.error err, s)
    | none => (.ok (), { s with tx := some Tx.empty })
  | .deleteAddresses _ _ chunk, s =>
    match fault with
    | some err => (.error err, s)
    | none =>
      let deleted := s.db.peerAddresses.rows.filter (·.1 ∈ chunk)
      (.ok (), { s with tx := s.tx.map fun tx => { tx with addresses := deleted } })
  | .deleteStatuses _ _ chunk, s =>
    match fault with
    | some err => (.error err, s)
    | none =>
      let deleted := (s.db.peerStatuses.rows.filter (·.peerId ∈ chunk)).map PeerStatus.peerId
      (.ok (), { s with tx := s.tx.map fun tx => { tx with statuses := deleted } })
  | .deletePeers _ _ chunk, s =>
    match fault with
    | some err => (.error err, s)
    | none =>
      let deleted := (s.db.peers.rows.filter (·.identifier ∈ chunk)).map Peer.identifier
      (.ok deleted.length, { s with tx := s.tx.map fun tx => { tx with peers := deleted } })
  | .commit .., s =>
    match fault with
    | some err => (.error err, { s with tx := none })
    | none => (.ok (), ⟨(s.tx.getD Tx.empty).apply s.db, none⟩)

end WgPortal.Adapters
