import Mathlib.Algebra.Order.Ring.Int
import WgPortal.Adapters.ExpiryDeletion
import WgPortal.Library.Interleaving

/-! Cleanup of expired peers while other nodes save peers. The cleanup runs
statement by statement; a save commits at once, unless an open transaction has
deleted its row. -/

namespace WgPortal.Adapters.ExpiryRenewal

open Domain Library System Config

/-- `threshold` is the time that the last selection compared with, `pending` what
it selected and what is not deleted yet, `chunk` the chunk of the open
transaction, and `removed` every removed row with the threshold at that time. -/
structure State where
  now : Time
  session : Session
  threshold : Time
  pending : List PeerIdentifier
  chunk : List PeerIdentifier
  removed : List (Time × Peer)

inductive Env where
  | tick (elapsed : ℕ)
  | savePeer (userId : UserIdentifier) (peer : Peer)

def State.lockedPeers (s : State) : List PeerIdentifier := (s.session.tx.getD Tx.empty).peers

/-- The rows that a commit of the open transaction removes. -/
def State.removedRows (s : State) : List Peer :=
  s.session.db.peers.rows.filter (·.identifier ∈ s.lockedPeers)

def env : Env → State → Option State
  | .tick elapsed, s => some { s with now := s.now + elapsed }
  | .savePeer userId peer, s =>
    if peer.identifier ∈ s.lockedPeers then none
    else some
      { s with session :=
          { s.session with db := s.session.db.commitPeer userId s.now peer.identifier peer } }

/-- What an operation adds to the record. -/
def record : (op : CleanupOp) → op.Res → State → State
  | .selectExpired limit, .ok peers, s =>
    { s with threshold := limit, pending := peers.map Peer.identifier }
  | .deletePeers _ _ chunk, .ok _, s => { s with chunk := chunk }
  | .commit .., .ok _, s =>
    { s with
      pending := s.pending.filter (· ∉ s.chunk)
      removed := s.removed ++ s.removedRows.map fun row => (s.threshold, row) }
  | _, _, s => s

def exec (fault : Option Error) (op : CleanupOp) (s : State) : op.Res × State :=
  let answer := op.exec s.now fault s.session
  (answer.1, { record op answer.1 s with session := answer.2 })

/-- One cleanup runs at a time, on the master. -/
def system (cfg : Config) : System Unit Env Unit CleanupOp CleanupOp.Res (Option Error)
    (List PeerIdentifier × Option Error) State where
  exec := fun _ op fault s => exec fault op s
  env := env
  start := fun _ _ s =>
    some (findAndDeleteExpiredPeersWithLock cfg, { s with session := { s.session with tx := none } })
  finish := fun _ _ s => { s with pending := [], session := { s.session with tx := none } }

/-- Every row was expired when it was removed. -/
def OnlyExpiredRemoved (s : State) : Prop :=
  ∀ entry ∈ s.removed, expiredBefore entry.1 entry.2 = true

/-- No save gives a peer that the cleanup is about to delete another expiry than
one before its threshold. -/
def guard : Guard Unit Env Unit CleanupOp (Option Error) State where
  env := fun s e => match e with
    | .savePeer _ peer => peer.identifier ∈ s.pending → expiredBefore s.threshold peer = true
    | .tick _ => True
  start := fun _ _ _ => True
  step := fun _ _ _ _ => True

instance (s : State) (e : Env) : Decidable (guard.env s e) :=
  match e with
  | .savePeer _ peer =>
    inferInstanceAs (Decidable (peer.identifier ∈ s.pending → expiredBefore s.threshold peer = true))
  | .tick _ => isTrue trivial

instance (s : State) (i : Unit) (call : Unit) : Decidable (guard.start s i call) := isTrue trivial

instance (s : State) (i : Unit) (op : CleanupOp) (fault : Option Error) :
    Decidable (guard.step s i op fault) := isTrue trivial

/-- The peers that are about to be deleted are expired as long as they are stored. -/
structure Invariant (s : State) : Prop where
  removed : OnlyExpiredRemoved s
  pending : ∀ row ∈ s.session.db.peers.rows, row.identifier ∈ s.pending →
    expiredBefore s.threshold row = true
  locked : ∀ tx, s.session.tx = some tx → ∀ id ∈ tx.peers, id ∈ s.pending

/-- Other nodes leave the transaction and the record alone. -/
structure Rely (s t : State) : Prop where
  tx : t.session.tx = s.session.tx
  threshold : t.threshold = s.threshold
  pending : t.pending = s.pending
  chunk : t.chunk = s.chunk

def contract : Contract Unit State where
  inv := Invariant
  rely := fun _ => Rely
  refl := fun _ _ => ⟨rfl, rfl, rfl, rfl⟩
  trans := fun _ _ _ _ first second =>
    ⟨second.tx.trans first.tx, second.threshold.trans first.threshold,
      second.pending.trans first.pending, second.chunk.trans first.chunk⟩

theorem keeps_iff (s t : State) : contract.Keeps () s t ↔ Invariant t := by
  simp [Contract.Keeps, contract]

theorem env_invariant {e : Env} {s t : State} (inv : Invariant s) (allowed : guard.env s e)
    (step : env e s = some t) : Invariant t ∧ Rely s t := by
  cases e with
  | tick elapsed =>
    rw [← Option.some.inj step]
    exact ⟨⟨inv.removed, inv.pending, inv.locked⟩, rfl, rfl, rfl, rfl⟩
  | savePeer userId peer =>
    simp only [env] at step
    split at step
    · cases step
    · rw [← Option.some.inj step]
      refine ⟨⟨inv.removed, ?_, inv.locked⟩, rfl, rfl, rfl, rfl⟩
      intro row hrow hid
      simp only [Db.commitPeer_peers, Table.mem_upsert] at hrow
      rcases hrow with rfl | ⟨hrow, _⟩
      · exact allowed hid
      · exact inv.pending row hrow hid

theorem Invariant.of_session {s : State} (inv : Invariant s) {session : Session}
    (db : session.db = s.session.db)
    (locked : ∀ tx, session.tx = some tx → ∀ id ∈ tx.peers, id ∈ s.pending) :
    Invariant { s with session := session } where
  removed := inv.removed
  pending := by
    simp only [db]
    exact inv.pending
  locked := locked

/-- A commit removes only rows that were pending. -/
theorem commit_invariant {s : State} (inv : Invariant s) :
    Invariant { s with
      session := ⟨(s.session.tx.getD Tx.empty).apply s.session.db, none⟩
      pending := s.pending.filter (· ∉ s.chunk)
      removed := s.removed ++ s.removedRows.map fun row => (s.threshold, row) } where
  removed := by
    intro entry hentry
    rcases List.mem_append.mp hentry with before | now
    · exact inv.removed entry before
    · obtain ⟨row, hrow, rfl⟩ := List.mem_map.mp now
      obtain ⟨stored, deleted⟩ := List.mem_filter.mp hrow
      have pending : row.identifier ∈ s.pending := by
        cases open_ : s.session.tx with
        | none => simp [State.lockedPeers, open_, Tx.empty] at deleted
        | some tx =>
          refine inv.locked tx open_ row.identifier ?_
          simpa [State.lockedPeers, open_] using deleted
      exact inv.pending row stored pending
  pending := by
    intro row hrow hid
    exact inv.pending row (List.mem_filter.mp hrow).1 (List.mem_filter.mp hid).1
  locked := by
    intro tx none
    cases none

/-- The ids that a selection answers with become pending, which needs that no
transaction is open. -/
theorem select_invariant {s : State} (inv : Invariant s) (limit : Time)
    (idle : s.session.tx = none) :
    Invariant { s with
      threshold := limit
      pending := (s.session.db.expiredPeers limit).map Peer.identifier } where
  removed := inv.removed
  pending := by
    intro row hrow hid
    obtain ⟨other, hother, same⟩ : ∃ other ∈ s.session.db.peers.rows,
        expiredBefore limit other = true ∧ other.identifier = row.identifier := by
      simpa [Db.expiredPeers, and_assoc] using hid
    have stored := Table.find_of_mem hrow
    rw [← same.2, Table.find_of_mem hother] at stored
    rw [← Option.some.inj stored]
    exact same.1
  locked := by
    intro tx open_
    rw [idle] at open_
    cases open_

abbrev Sound (cfg : Config) {β : Type} : (β → State → Prop) → CleanupProgram β → State → Prop :=
  contract.Sound (system cfg) guard ()

variable {cfg : Config} {β : Type} {post : β → State → Prop}

theorem sound_call {op : CleanupOp} {rest : op.Res → CleanupProgram β} {s : State}
    (step : ∀ t f, Rely s t → Invariant t → Invariant (exec f op t).2)
    (next : ∀ t f, Rely s t → Sound cfg post (rest (exec f op t).1) (exec f op t).2) :
    Sound cfg post (.call op rest) s :=
  fun t f later inv _ => ⟨(keeps_iff ..).mpr (step t f later inv), next t f later⟩

/-- The operations that leave the record alone. -/
def Plain : CleanupOp → Prop
  | .selectExpired _ | .deletePeers .. | .commit .. => False
  | _ => True

theorem plain_invariant {op : CleanupOp} (plain : Plain op) {s : State} (inv : Invariant s)
    (fault : Option Error) : Invariant (exec fault op s).2 := by
  cases op with
  | selectExpired | deletePeers | commit => cases plain
  | timeNow => exact inv
  | ctxErr => exact inv
  | rollback => exact inv.of_session rfl fun _ none => by cases none
  | begin =>
    cases fault with
    | some err => exact inv
    | none =>
      refine inv.of_session rfl ?_
      intro tx opened id hid
      rw [← Option.some.inj opened] at hid
      cases hid
  | deleteAddresses | deleteStatuses =>
    cases fault with
    | some err => exact inv
    | none =>
      refine inv.of_session rfl ?_
      intro tx mapped
      obtain ⟨before, open_, rfl⟩ := Option.map_eq_some_iff.mp mapped
      exact inv.locked before open_

theorem plain_pending {op : CleanupOp} (plain : Plain op) (s : State) (fault : Option Error) :
    (exec fault op s).2.pending = s.pending := by
  cases op with
  | selectExpired | deletePeers | commit => cases plain
  | _ => cases fault <;> rfl

/-- A plain operation: what was pending still is. -/
theorem sound_plain {op : CleanupOp} (plain : Plain op) {rest : op.Res → CleanupProgram β}
    {s : State}
    (next : ∀ answer t, t.pending = s.pending → Sound cfg post (rest answer) t) :
    Sound cfg post (.call op rest) s :=
  sound_call (fun _ f _ inv => plain_invariant plain inv f) fun t f later =>
    next _ _ ((plain_pending plain t f).trans later.pending)

theorem sound_ret {b : β} {s : State} (done : ∀ t : State, t.pending = s.pending → post b t) :
    Sound cfg post (.ret b) s := fun t later _ => done t later.pending

/-- An attempt that succeeds has deleted the chunk, any other deletes nothing. -/
def ChunkResult {ε ρ : Type} (s : State) (chunk : List PeerIdentifier) :
    Except ε ρ → State → Prop
  | .ok _, t => t.pending = s.pending.filter (· ∉ chunk)
  | .error _, t => t.pending = s.pending

theorem deletePeers_invariant {s : State} (inv : Invariant s) {chunk : List PeerIdentifier}
    (sub : chunk ⊆ s.pending) (start n : ℕ) (fault : Option Error) :
    Invariant (exec fault (.deletePeers start n chunk) s).2 := by
  cases fault with
  | some err => exact inv
  | none =>
    refine Invariant.of_session (s := { s with chunk := chunk }) ⟨inv.removed, inv.pending,
      inv.locked⟩ rfl ?_
    intro tx mapped
    obtain ⟨before, _, rfl⟩ := Option.map_eq_some_iff.mp mapped
    intro id hid
    obtain ⟨row, hrow, rfl⟩ := List.mem_map.mp hid
    exact sub (by simpa using (List.mem_filter.mp hrow).2)

theorem sound_deleteChunkOnce (start n : ℕ) {chunk : List PeerIdentifier} {s : State}
    (sub : chunk ⊆ s.pending) :
    Sound cfg (ChunkResult s chunk) (deleteChunkOnce start n chunk) s := by
  simp only [deleteChunkOnce, CleanupProgram.issue, Program.call_bind, Program.ret_bind]
  refine sound_plain (by exact trivial) fun answer t ht => ?_
  cases answer with
  | error err => exact sound_ret fun u hu => hu.trans ht
  | ok =>
  refine sound_plain (by exact trivial) fun answer u hu => ?_
  replace hu := hu.trans ht
  cases answer with
  | error err =>
    exact sound_plain (by exact trivial) fun _ v hv => sound_ret fun w hw => (hw.trans hv).trans hu
  | ok =>
  refine sound_plain (by exact trivial) fun answer v hv => ?_
  replace hv := hv.trans hu
  cases answer with
  | error err =>
    exact sound_plain (by exact trivial) fun _ w hw => sound_ret fun x hx => (hx.trans hw).trans hv
  | ok =>
  refine sound_call ?_ ?_
  · intro w f later inv
    refine deletePeers_invariant inv ?_ start n f
    rw [later.pending, hv]
    exact sub
  · intro w f later
    have hw := later.pending.trans hv
    cases f with
    | some err =>
      exact sound_plain (by exact trivial) fun _ x hx =>
        sound_ret fun y hy => (hy.trans hx).trans hw
    | none =>
      refine sound_call ?_ ?_
      · intro x f' _ inv
        cases f' with
        | some err => exact inv.of_session rfl fun _ none => by cases none
        | none => exact commit_invariant inv
      · intro x f' later'
        have hx := later'.pending.trans hw
        cases f' with
        | some err => exact sound_ret fun y hy => hy.trans hx
        | none =>
          refine sound_ret fun y hy => ?_
          have chunk' := later'.chunk
          refine hy.trans ?_
          simp only [exec, record, CleanupOp.exec] at chunk' hx ⊢
          rw [chunk', hx]

theorem sound_deleteChunk (start n retries : ℕ) {chunk : List PeerIdentifier} {s : State}
    (inv : Invariant s) (sub : chunk ⊆ s.pending) :
    Sound cfg (ChunkResult s chunk) (deleteChunk start chunk n retries) s := by
  induction retries generalizing n s with
  | zero =>
    refine Contract.Sound.bind (sound_deleteChunkOnce start n sub) inv fun result t _ ht => ?_
    cases result <;> exact sound_ret fun u hu => hu.trans ht
  | succ retries ih =>
    refine Contract.Sound.bind (sound_deleteChunkOnce start n sub) inv fun result t inv' ht => ?_
    cases result with
    | ok => exact sound_ret fun u hu => hu.trans ht
    | error failure =>
      obtain ⟨err, retry⟩ := failure
      have same : t.pending = s.pending := ht
      cases retry with
      | false => exact sound_ret fun u hu => hu.trans ht
      | true =>
        refine (ih (n + 1) inv' (same ▸ sub)).mono ?_
        intro result u _ hu
        cases result <;> simpa only [ChunkResult, same] using hu

/-- Each chunk is still pending when its turn comes, since the chunks are disjoint. -/
theorem sound_deleteChunks (parts : List (ℕ × List PeerIdentifier)) (total : ℕ) {s : State}
    (inv : Invariant s) (nodup : (parts.flatMap Prod.snd).Nodup)
    (sub : parts.flatMap Prod.snd ⊆ s.pending) :
    Sound cfg (fun _ _ => True) (deleteChunks parts total) s := by
  induction parts generalizing total s with
  | nil => exact sound_ret fun _ _ => trivial
  | cons part parts ih =>
    obtain ⟨start, chunk⟩ := part
    rw [List.flatMap_cons] at nodup sub
    obtain ⟨_, nodup', disjoint⟩ := List.nodup_append'.mp nodup
    have sub' : chunk ⊆ s.pending := fun id h => sub (List.mem_append_left _ h)
    refine Contract.Sound.bind (sound_deleteChunk start 0 chunkRetries inv sub') inv ?_
    intro result t inv' ht
    cases result with
    | error err => exact sound_ret fun _ _ => trivial
    | ok rowsAffected =>
      refine ih _ inv' nodup' fun id hid => ?_
      have later : id ∉ chunk := fun h => disjoint h hid
      have deleted : t.pending = s.pending.filter (· ∉ chunk) := ht
      rw [deleted]
      exact List.mem_filter.mpr ⟨sub (List.mem_append_right _ hid), by simpa using later⟩

theorem nodup_expiredPeers (db : Db) (limit : Time) :
    ((db.expiredPeers limit).map Peer.identifier).Nodup := by
  have sub : ((db.expiredPeers limit).map Peer.identifier).Sublist
      (db.peers.rows.map Peer.identifier) := by
    rw [Db.expiredPeers, List.map_map]
    exact List.filter_sublist.map _
  exact db.peers.nodup.sublist sub

theorem sound_cleanupFailure (text : String) (err : Error) (s : State) :
    Sound cfg (fun _ _ => True) (cleanupFailure text err) s := by
  refine sound_plain (by exact trivial) fun answer t _ => ?_
  cases answer <;> exact sound_ret fun _ _ => trivial

theorem sound_getExpiredPeers {s : State} (idle : s.session.tx = none) :
    Sound cfg (fun result t => ∀ peers, result = .ok peers →
      t.pending = peers.map Peer.identifier ∧ t.pending.Nodup) getExpiredPeers s := by
  simp only [getExpiredPeers, CleanupProgram.issue, Program.call_bind, Program.ret_bind]
  refine sound_call (fun t f _ inv => plain_invariant (by exact trivial) inv f) fun t f later => ?_
  refine sound_call ?_ ?_
  · intro u f' later' inv
    cases f' with
    | some err => exact inv
    | none => exact select_invariant inv _ ((later'.tx.trans later.tx).trans idle)
  · intro u f' _ v later'' _ peers answer
    cases f' with
    | some err => cases answer
    | none =>
      have selected : v.pending = peers.map Peer.identifier := by
        rw [later''.pending, ← Except.ok.inj answer]
        rfl
      refine ⟨selected, ?_⟩
      rw [later''.pending]
      exact nodup_expiredPeers u.session.db _

theorem sound_findAndDelete {s : State} (inv : Invariant s) (idle : s.session.tx = none) :
    Sound cfg (fun _ _ => True) (findAndDeleteExpiredPeersWithLock cfg) s := by
  unfold findAndDeleteExpiredPeersWithLock
  split
  · exact sound_ret fun _ _ => trivial
  · refine Contract.Sound.bind (sound_getExpiredPeers idle) inv fun result t inv' selected => ?_
    cases result with
    | error err => exact sound_cleanupFailure _ _ _
    | ok peers =>
      obtain ⟨pending, nodup⟩ := selected peers rfl
      simp only
      split
      · exact sound_ret fun _ _ => trivial
      · have deletion : Sound cfg (fun _ _ => True)
            (deletePeersByIDs (peers.map Peer.identifier)) t := by
          refine sound_deleteChunks _ 0 inv' ?_ ?_
          · rw [chunks_flatten, ← pending]
            exact nodup
          · rw [chunks_flatten, pending]
            exact fun _ h => h
        refine Contract.Sound.bind deletion inv' fun result u _ _ => ?_
        obtain ⟨deleted, failure⟩ := result
        cases failure with
        | some err => exact sound_cleanupFailure _ _ _
        | none => exact sound_ret fun _ _ => trivial

theorem upheld (cfg : Config) : Contract.Upheld (system cfg) contract guard where
  env := by
    intro e s t inv allowed step
    obtain ⟨inv', rely⟩ := env_invariant inv allowed step
    exact ⟨inv', fun _ => rely⟩
  start := by
    intro _ _ s p t inv _ step
    obtain ⟨rfl, rfl⟩ := Prod.mk.inj (Option.some.inj step)
    have inv' : Invariant { s with session := { s.session with tx := none } } :=
      inv.of_session rfl fun _ none => by cases none
    refine ⟨(keeps_iff ..).mpr inv', (sound_findAndDelete inv' rfl).mono ?_⟩
    intro result t inv'' _
    exact (keeps_iff ..).mpr ⟨inv''.removed, fun _ _ none => (List.not_mem_nil none).elim,
      fun _ none => by cases none⟩

def peerWithTTL (id : PeerIdentifier) (expiresAt : Time) : Peer :=
  { Peer.zero with identifier := id, expiresAt := some expiresAt }

/-- Two peers at time 10, one of which has expired. -/
def twoPeers : State where
  now := 10
  session := ⟨(Db.empty.commitPeer "" 0 "old" (peerWithTTL "old" 5)).commitPeer "" 0 "new"
    (peerWithTTL "new" 20), none⟩
  threshold := 0
  pending := []
  chunk := []
  removed := []

/-- A cleanup during which the other peer is renewed. -/
def otherRenewed : List (Turn Unit Env Unit (Option Error)) :=
  .start () () :: List.replicate 3 (.step () none) ++
    .env (.savePeer "admin" (peerWithTTL "new" 100)) :: List.replicate 5 (.step () none)

/-- The selected peer itself is renewed before the transaction is opened. -/
def selectedRenewed : List (Turn Unit Env Unit (Option Error)) :=
  .start () () :: List.replicate 2 (.step () none) ++
    .env (.savePeer "admin" (peerWithTTL "old" 100)) :: List.replicate 6 (.step () none)

end WgPortal.Adapters.ExpiryRenewal
