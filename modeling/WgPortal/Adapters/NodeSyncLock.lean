import WgPortal.Domain.Basic
import WgPortal.Library.Table
import WgPortal.Library.Program

/-! The generic lock of `SqlRepo`: a row of `node_sync_locks` for each held key.
`acquireLock` is four statements outside a transaction, so each of them is an
operation of its own. -/

namespace WgPortal.Adapters

open Domain Library

structure NodeSyncLock where
  lockKey : String
  nodeID : String
  lockedAt : Time
  expiresAt : Time
deriving DecidableEq, Repr

/-- `lock_key` is the primary key. -/
abbrev LockTable := Table NodeSyncLock.lockKey

/-- The statements on `node_sync_locks`. -/
inductive LockStmt where
  /-- `DELETE WHERE lock_key = ? AND expires_at < ?` -/
  | deleteExpired (lockKey : String) (now : Time)
  /-- `INSERT` without `ON CONFLICT` -/
  | create (lock : NodeSyncLock)
  /-- `SELECT WHERE lock_key = ? LIMIT 1` -/
  | first (lockKey : String)
  /-- `Delete(&lock)`, which gorm restricts by the primary key only -/
  | delete (lock : NodeSyncLock)
  /-- `DELETE WHERE lock_key = ? AND node_id = ? AND expires_at > NOW()` -/
  | deleteOwned (lockKey nodeID : String)
  /-- `DELETE WHERE expires_at < ?` -/
  | deleteAllExpired (now : Time)

abbrev LockStmt.Val : LockStmt → Type
  | first _ => NodeSyncLock
  | _ => Unit

inductive LockOp where
  | timeNow
  | sql (stmt : LockStmt)

abbrev LockOp.Res : LockOp → Type
  | timeNow => Time
  | sql stmt => Except Error stmt.Val

abbrev LockProgram := Program LockOp LockOp.Res

namespace LockProgram

def timeNow : LockProgram Time := .call .timeNow .ret
def sql (stmt : LockStmt) : LockProgram (Except Error stmt.Val) := .call (.sql stmt) .ret

end LockProgram

open LockProgram (timeNow sql)

/-- Who holds the lock (empty if unknown or us), and the error if it is not ours. -/
def acquireLock (lockKey nodeID : String) (duration : Duration) :
    LockProgram (String × Option Error) := do
  let now ← timeNow
  -- a failure to clean up is only logged
  let _ ← sql (.deleteExpired lockKey now)
  match ← sql (.create ⟨lockKey, nodeID, now, now + duration⟩) with
  | .ok _ => return ("", none)
  | .error _ =>
    match ← sql (.first lockKey) with
    | .ok lock =>
      if lock.expiresAt.before now then
        let _ ← sql (.delete lock)
        return ("", some (.other "lock expired, please retry"))
      else
        return (lock.nodeID, some (.other ("lock held by " ++ lock.nodeID)))
    | .error _ => return ("", some (.other ("failed to acquire lock " ++ lockKey)))

def releaseLock (lockKey nodeID : String) : LockProgram (Option Error) := do
  -- a failing statement is only logged
  let _ ← sql (.deleteOwned lockKey nodeID)
  return none

def cleanupExpiredLocks : LockProgram (Option Error) := do
  let now ← timeNow
  match ← sql (.deleteAllExpired now) with
  | .ok _ => return none
  | .error err => return some err

/-- The effect of a statement that does not fail, at time `now`. -/
def LockStmt.apply (now : Time) :
    (stmt : LockStmt) → LockTable → Except Error stmt.Val × LockTable
  | .deleteExpired lockKey limit, t =>
    (.ok (), t.filter fun l => !(l.lockKey = lockKey && l.expiresAt.before limit))
  | .create lock, t =>
    match t.insert lock with
    | some t' => (.ok (), t')
    | none => (.error (.other "Duplicate entry"), t)
  | .first lockKey, t =>
    match t.find lockKey with
    | some lock => (.ok lock, t)
    | none => (.error .notFound, t)
  | .delete lock, t => (.ok (), t.filter fun l => !(l.lockKey = lock.lockKey))
  | .deleteOwned lockKey nodeID, t =>
    (.ok (), t.filter fun l =>
      !(l.lockKey = lockKey && l.nodeID = nodeID && l.expiresAt.after now))
  | .deleteAllExpired limit, t => (.ok (), t.filter fun l => !l.expiresAt.before limit)

/-- An operation at time `now`; a statement that fails changes nothing. -/
def LockOp.exec (now : Time) (fault : Option Error) :
    (op : LockOp) → LockTable → op.Res × LockTable
  | .timeNow, t => (now, t)
  | .sql stmt, t =>
    match fault with
    | some err => (.error err, t)
    | none => stmt.apply now t

end WgPortal.Adapters
