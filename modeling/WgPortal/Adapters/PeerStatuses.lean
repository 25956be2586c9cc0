import WgPortal.Adapters.Database
import WgPortal.Config.Config

/-! The transactions of `SqlRepo` on the statuses of peers. A row that a transaction
reads for update or writes is locked until the transaction ends, and what it writes
is seen by others once it commits. -/

namespace WgPortal.Adapters

open Domain Library Config

/-- An update function may set any field but the identifier. -/
structure StatusUpdate where
  apply : PeerStatus → Except Error PeerStatus
  peerId : ∀ old new, apply old = .ok new → new.peerId = old.peerId

inductive StatusOp where
  | timeNow
  /-- the pause before another attempt; answers with `ctx.Err()` -/
  | wait
  | begin
  | countPeers (id : PeerIdentifier)
  /-- `First` with a locking clause -/
  | selectForUpdate (id : PeerIdentifier)
  | firstOrCreate (defaults : PeerStatus)
  /-- `Save` and `CreateInBatches` -/
  | save (rows : List PeerStatus)
  | commit
  | rollback

abbrev StatusOp.Res : StatusOp → Type
  | timeNow => Time
  | wait => Option Error
  | countPeers _ => Except Error ℕ
  | selectForUpdate _ => Except Error PeerStatus
  | firstOrCreate _ => Except Error PeerStatus
  | rollback => Unit
  | _ => Except Error Unit

abbrev StatusProgram := Program StatusOp StatusOp.Res

def StatusProgram.issue (op : StatusOp) : StatusProgram op.Res := .call op .ret

open StatusProgram (issue)

/-- `db.Transaction` -/
def transaction (body : StatusProgram (Except Error Unit)) : StatusProgram (Except Error Unit) := do
  match ← issue .begin with
  | .error err => return .error err
  | .ok _ =>
    match ← body with
    | .error err =>
      issue .rollback
      return .error err
    | .ok _ => issue .commit

/-- Conflicts are recognised by the text of the error. -/
def isConflict (err : Error) : Bool :=
  contains err.text "Deadlock" || contains err.text "Record has changed"

/-- The attempts from the given one on; the last one is followed by `retries = 0`. -/
def retryOnConflict (failure : String) (body : ℕ → StatusProgram (Except Error Unit))
    (attempt : ℕ) : (retries : ℕ) → StatusProgram (Except Error Unit)
  | 0 => do
    match ← transaction (body attempt) with
    | .ok _ => return .ok ()
    | .error err => return .error (if isConflict err then .wrap failure err else err)
  | retries + 1 => do
    match ← transaction (body attempt) with
    | .ok _ => return .ok ()
    | .error err =>
      if !isConflict err then return .error err
      match ← issue .wait with
      | some ctxErr => return .error ctxErr
      | none => retryOnConflict failure body (attempt + 1) retries

def getOrCreatePeerStatus (id : PeerIdentifier) : StatusProgram (Except Error PeerStatus) := do
  let now ← issue .timeNow
  match ← issue (.selectForUpdate id) with
  | .ok status => return .ok status
  | .error err =>
    if err ≠ .notFound then return .error err
    match ← issue (.countPeers id) with
    | .error err => return .error err
    | .ok 0 => return .error (.other ("cannot create peer_status for deleted peer: " ++ id))
    | .ok _ =>
      match ← issue (.firstOrCreate (PeerStatus.fresh id now)) with
      | .error err => return .error err
      | .ok _ =>
        match ← issue (.selectForUpdate id) with
        | .error err => return .error (.wrap "failed to lock peer status after creation" err)
        | .ok status => return .ok status

/-- What an update stores: if the peer is connected and another node owns it, its
state stays that of the owner. A peer that is offline has no owner. -/
def ownedUpdate (clusterNodeId : String) (old new : PeerStatus) : PeerStatus :=
  let new :=
    if old.isConnected && old.ownerNodeId ≠ "" && old.ownerNodeId ≠ clusterNodeId then
      { new with
        isConnected := old.isConnected
        isPingable := old.isPingable
        ownerNodeId := old.ownerNodeId }
    else new
  if !new.isConnected && new.ownerNodeId ≠ "" then { new with ownerNodeId := "" } else new

def updateOnce (cfg : Config) (id : PeerIdentifier) (updateFunc : StatusUpdate) :
    StatusProgram (Except Error Unit) := do
  match ← issue (.countPeers id) with
  | .error err => return .error err
  | .ok 0 => return .ok ()
  | .ok _ =>
    match ← getOrCreatePeerStatus id with
    | .error err => return .error err
    | .ok old =>
      match updateFunc.apply old with
      | .error err => return .error err
      | .ok new => issue (.save [ownedUpdate cfg.core.clusterNodeId old new])

def updatePeerStatus (cfg : Config) (id : PeerIdentifier) (updateFunc : StatusUpdate) :
    StatusProgram (Except Error Unit) :=
  retryOnConflict "UpdatePeerStatus failed after 10 retries"
    (fun _ => updateOnce cfg id updateFunc) 0 9

def claimOnce (id : PeerIdentifier) (ownerNodeId : String) (updateFunc : StatusUpdate) :
    StatusProgram (Except Error Unit) := do
  match ← getOrCreatePeerStatus id with
  | .error err => return .error err
  | .ok old =>
    let now ← issue .timeNow
    match updateFunc.apply { old with ownerNodeId := ownerNodeId, updatedAt := now } with
    | .error err => return .error err
    | .ok new => issue (.save [{ new with ownerNodeId := ownerNodeId }])

def claimPeerStatus (id : PeerIdentifier) (ownerNodeId : String) (updateFunc : StatusUpdate) :
    StatusProgram (Except Error Unit) :=
  if ownerNodeId = "" then return .error (.other "ownerNodeId cannot be empty")
  else retryOnConflict "ClaimPeerStatus failed after 10 retries"
    (fun _ => claimOnce id ownerNodeId updateFunc) 0 9

/-- The new statuses of the peers that exist and have no owner. -/
def updatedStatuses : List (PeerIdentifier × StatusUpdate) →
    StatusProgram (Except Error (List PeerStatus))
  | [] => return .ok []
  | (id, updateFunc) :: updates => do
    match ← issue (.countPeers id) with
    | .error err => return .error err
    | .ok 0 => updatedStatuses updates
    | .ok _ =>
      match ← getOrCreatePeerStatus id with
      | .error err => return .error err
      | .ok old =>
        if old.ownerNodeId ≠ "" then updatedStatuses updates
        else
          match updateFunc.apply old with
          | .error err => return .error err
          | .ok new =>
            match ← updatedStatuses updates with
            | .error err => return .error err
            | .ok rows => return .ok (new :: rows)

def batchOnce (updates : List (PeerIdentifier × StatusUpdate)) :
    StatusProgram (Except Error Unit) := do
  match ← updatedStatuses updates with
  | .error err => return .error err
  | .ok [] => return .ok ()
  | .ok rows => issue (.save rows)

/-- `updates n` are the entries of the map in the order of attempt `n`. -/
def batchUpdatePeerStatuses (updates : ℕ → List (PeerIdentifier × StatusUpdate)) :
    StatusProgram (Except Error Unit) :=
  if updates 0 = [] then return .ok ()
  else retryOnConflict "BatchUpdatePeerStatuses failed after 5 retries"
    (fun attempt => batchOnce (updates attempt)) 0 4

/-- The calls of any number of sessions on one database: who locks a status, and
what each session has written and not committed. -/
structure StatusSessions (ι : Type) where
  db : Db
  locked : PeerIdentifier → Option ι
  written : ι → Table PeerStatus.peerId

namespace StatusSessions

variable {ι : Type} [DecidableEq ι] (s : StatusSessions ι) (i : ι)

/-- Another session has locked the status. -/
def lockedByOther (id : PeerIdentifier) : Bool :=
  match s.locked id with
  | some j => j ≠ i
  | none => false

/-- The status as session `i` sees it. -/
def status (id : PeerIdentifier) : Option PeerStatus :=
  ((s.written i).find id).or (s.db.peerStatuses.find id)

def lock (ids : List PeerIdentifier) : StatusSessions ι :=
  { s with locked := fun id => if id ∈ ids then some i else s.locked id }

def write (rows : List PeerStatus) : StatusSessions ι :=
  { s.lock i (rows.map PeerStatus.peerId) with
    written := Function.update s.written i ((s.written i).upsertAll rows) }

/-- The locks are released and nothing is left of what was written. -/
def rollback : StatusSessions ι :=
  { s with
    locked := fun id => if s.locked id = some i then none else s.locked id
    written := Function.update s.written i Table.empty }

def commit : StatusSessions ι :=
  { s.rollback i with
    db := { s.db with peerStatuses := s.db.peerStatuses.upsertAll (s.written i).rows } }

end StatusSessions

def lockWaitTimeout : Error := .other "Lock wait timeout exceeded"

namespace StatusOp

variable {ι : Type} [DecidableEq ι] (i : ι) (now : Time) (fault : Option Error)

/-- An operation that does not fail. Waiting for a lock in vain is a failure. -/
def perform : (op : StatusOp) → StatusSessions ι → op.Res × StatusSessions ι
  | timeNow, s => (now, s)
  | wait, s => (none, s)
  | begin, s => (.ok (), s)
  | countPeers id, s => (.ok (s.db.peers.rows.filter (·.identifier = id)).length, s)
  | selectForUpdate id, s =>
    if s.lockedByOther i id then (.error lockWaitTimeout, s)
    else
      match s.status i id with
      | some row => (.ok row, s.lock i [id])
      | none => (.error .notFound, s)
  | firstOrCreate defaults, s =>
    match s.status i defaults.peerId with
    | some row => (.ok row, s)
    | none =>
      if s.lockedByOther i defaults.peerId then (.error lockWaitTimeout, s)
      else (.ok defaults, s.write i [defaults])
  | save rows, s =>
    if rows.any fun row => s.lockedByOther i row.peerId then (.error lockWaitTimeout, s)
    else (.ok (), s.write i rows)
  | commit, s => (.ok (), s.commit i)
  | rollback, s => ((), s.rollback i)

/-- A failing statement has no effect, and a failing commit is a rollback. -/
def exec (op : StatusOp) (s : StatusSessions ι) : op.Res × StatusSessions ι :=
  match op, fault with
  | wait, some err => (some err, s)
  | begin, some err => (.error err, s)
  | countPeers _, some err => (.error err, s)
  | selectForUpdate _, some err => (.error err, s)
  | firstOrCreate _, some err => (.error err, s)
  | save _, some err => (.error err, s)
  | commit, some err => (.error err, s.rollback i)
  | op, _ => op.perform i now s

end StatusOp

end WgPortal.Adapters
