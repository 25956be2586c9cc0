import WgPortal.Adapters.ExpiryDeletion
import WgPortal.App.EventBus

/-! The expired-peers check of the wireguard manager: what one check deletes and
announces, and the flag `DeleteExpiredPeers` over a run of checks. -/

namespace WgPortal.WireGuard.Expiry

open Domain Library Adapters Config App

/-- The events for the result of the cleanup; a failure is only logged. -/
def announce : List PeerIdentifier × Option Error → List Event
  | (_, some _) => []
  | ([], none) => []
  | (ids, none) => .peersExpiredRemoved ids :: ids.map .peerDeletedSync

structure Outcome where
  db : Db
  events : List Event

/-- One check of `runExpiredPeersCheck`, at startup or on a tick. Only the
master node checks. -/
def expiredPeersCheck (cfg : Config) (now : Time) (faults : Faults) (db : Db) : Outcome :=
  if !cfg.core.master then ⟨db, []⟩
  else
    let (result, session) :=
      (findAndDeleteExpiredPeersWithLock cfg).eval (sequential now faults) ⟨db, none⟩
    ⟨session.db, announce result⟩

/-- The identifiers that the cleanup at time `now` selects. -/
def expiredIDs (db : Db) (now : Time) : List PeerIdentifier :=
  (db.expiredPeers now).map Peer.identifier

theorem mem_expiredIDs {db : Db} {now : Time} {id : PeerIdentifier} :
    id ∈ expiredIDs db now ↔ ∃ row ∈ db.peers.rows, expiredBefore now row ∧ row.identifier = id := by
  simp [expiredIDs, Db.expiredPeers, and_assoc]

theorem check_of_select_fails {cfg : Config} {now : Time} {faults : Faults} {err : Error} (db : Db)
    (fails : faults (.selectExpired now) = some err) :
    expiredPeersCheck cfg now faults db = ⟨db, []⟩ := by
  unfold expiredPeersCheck
  split
  · rfl
  · rename_i master
    cases timeout : faults .ctxErr with
    | none =>
      simp [findAndDeleteExpiredPeersWithLock, getExpiredPeers, cleanupFailure, master,
        CleanupProgram.issue, sequential, CleanupOp.exec, fails, timeout, announce]
    | some ctxErr =>
      simp [findAndDeleteExpiredPeersWithLock, getExpiredPeers, cleanupFailure, master,
        CleanupProgram.issue, sequential, CleanupOp.exec, fails, timeout, announce]

/-- A check that selects expired peers deletes the chunks before the first one
that fails, and announces all peers if none fails. -/
theorem check_of_select {cfg : Config} {now : Time} {faults : Faults} (db : Db)
    (master : cfg.core.master = true) (selects : faults (.selectExpired now) = none) :
    ∃ done rest,
      chunks (expiredIDs db now) = done ++ rest ∧
      (∀ part ∈ done, faults.Commits part.1 part.2) ∧
      (∀ part ∈ rest.head?, ¬ faults.Commits part.1 part.2) ∧
      (expiredPeersCheck cfg now faults db).db = db.deletePeers (done.flatMap Prod.snd) ∧
      (expiredPeersCheck cfg now faults db).events =
        if rest = [] then announce (expiredIDs db now, none) else [] := by
  by_cases none : db.expiredPeers now = []
  · have ids : expiredIDs db now = [] := by simp [expiredIDs, none]
    refine ⟨[], [], by rw [ids]; rfl, by simp, by simp, ?_, ?_⟩
    · simp [expiredPeersCheck, findAndDeleteExpiredPeersWithLock, getExpiredPeers, master,
        CleanupProgram.issue, sequential, CleanupOp.exec, selects, none, Db.deletePeers_nil]
    · simp [expiredPeersCheck, findAndDeleteExpiredPeersWithLock, getExpiredPeers, master,
        CleanupProgram.issue, sequential, CleanupOp.exec, selects, none, ids, announce]
  · obtain ⟨done, rest, failure, split, deletion, committed, fails, complete⟩ :=
      eval_deleteChunks now faults (chunks (expiredIDs db now)) 0 db
    refine ⟨done, rest, split, committed, fails, ?_⟩
    have run : (deletePeersByIDs ((db.expiredPeers now).map Peer.identifier)).eval
        (sequential now faults) ⟨db, .none⟩ =
          ((0 + db.countPeers (done.flatMap Prod.snd), failure),
            ⟨db.deletePeers (done.flatMap Prod.snd), .none⟩) := deletion
    cases failure with
    | none =>
      simp [expiredPeersCheck, findAndDeleteExpiredPeersWithLock, getExpiredPeers, master,
        CleanupProgram.issue, sequential, CleanupOp.exec, selects, none, Program.eval_bind, run,
        complete.mp rfl, expiredIDs]
    | some err =>
      have incomplete : rest ≠ [] := fun h => by cases complete.mpr h
      cases timeout : faults .ctxErr <;>
        simp [expiredPeersCheck, findAndDeleteExpiredPeersWithLock, getExpiredPeers, master,
          CleanupProgram.issue, cleanupFailure, sequential, CleanupOp.exec, selects, none,
          Program.eval_bind, run, incomplete, timeout, announce]

/-- The peer is in the batch that is announced as removed. -/
def InBatch (events : List Event) (id : PeerIdentifier) : Prop :=
  ∃ ids, .peersExpiredRemoved ids ∈ events ∧ id ∈ ids

/-- The peer is announced on both topics. -/
def Announced (events : List Event) (id : PeerIdentifier) : Prop :=
  InBatch events id ∧ .peerDeletedSync id ∈ events

theorem inBatch_announce (ids : List PeerIdentifier) (id : PeerIdentifier) :
    InBatch (announce (ids, none)) id ↔ id ∈ ids := by
  cases ids with
  | nil => simp [InBatch, announce]
  | cons first ids => simp [InBatch, announce]

theorem deletedSync_announce (ids : List PeerIdentifier) (id : PeerIdentifier) :
    .peerDeletedSync id ∈ announce (ids, none) ↔ id ∈ ids := by
  cases ids with
  | nil => simp [announce]
  | cons first ids => simp [announce, eq_comm]

theorem announced_announce (ids : List PeerIdentifier) (id : PeerIdentifier) :
    Announced (announce (ids, none)) id ↔ id ∈ ids := by
  rw [Announced, inBatch_announce, deletedSync_announce, and_self]

/-- What a check deletes it announces, and what it announces is not stored. -/
def DeletionsAnnounced (db : Db) (outcome : Outcome) : Prop :=
  (∀ id row, db.peers.find id = some row → outcome.db.peers.find id = none →
    Announced outcome.events id) ∧
  ∀ id, InBatch outcome.events id ∨ .peerDeletedSync id ∈ outcome.events →
    outcome.db.peers.find id = none

/-- If the expired peers are selected at all, then the deletion of every chunk
commits, or that of the first one fails. -/
def AllOrNothing (cfg : Config) (now : Time) (faults : Faults) (db : Db) : Prop :=
  cfg.core.master = true → faults (.selectExpired now) = none →
    (∀ part ∈ chunks (expiredIDs db now), faults.Commits part.1 part.2) ∨
      ∀ part ∈ (chunks (expiredIDs db now)).head?, ¬ faults.Commits part.1 part.2

theorem deletionsAnnounced_unchanged (db : Db) : DeletionsAnnounced db ⟨db, []⟩ := by
  constructor
  · intro id row stored removed
    rw [stored] at removed
    cases removed
  · rintro id (⟨ids, batch, _⟩ | sync)
    · cases batch
    · cases sync

theorem deletionsAnnounced_all (db : Db) (ids : List PeerIdentifier) :
    DeletionsAnnounced db ⟨db.deletePeers ids, announce (ids, none)⟩ := by
  constructor
  · intro id row stored removed
    rw [announced_announce]
    by_contra kept
    simp only [Db.find_deletePeers, if_neg kept, stored] at removed
    cases removed
  · intro id announced
    rw [inBatch_announce, deletedSync_announce, or_self] at announced
    simp only [Db.find_deletePeers, if_pos announced]

private theorem stored_of_expired {db : Db} {now : Time} {id : PeerIdentifier}
    (h : id ∈ expiredIDs db now) : ∃ row, db.peers.find id = some row ∧ expiredBefore now row := by
  obtain ⟨row, hrow, expired, rfl⟩ := mem_expiredIDs.mp h
  exact ⟨row, Table.find_of_mem hrow, expired⟩

private theorem mem_chunk {ids : List PeerIdentifier} {done rest : List (ℕ × List PeerIdentifier)}
    (split : chunks ids = done ++ rest) {id : PeerIdentifier}
    (h : id ∈ done.flatMap Prod.snd) : id ∈ ids := by
  rw [← chunks_flatten ids, split, List.flatMap_append]
  exact List.mem_append_left _ h

theorem deletionsAnnounced_iff (cfg : Config) (now : Time) (faults : Faults) (db : Db) :
    DeletionsAnnounced db (expiredPeersCheck cfg now faults db) ↔
      AllOrNothing cfg now faults db := by
  cases master : cfg.core.master with
  | false =>
    have skipped : expiredPeersCheck cfg now faults db = ⟨db, []⟩ := by
      simp [expiredPeersCheck, master]
    simp [skipped, deletionsAnnounced_unchanged, AllOrNothing, master]
  | true =>
    cases selects : faults (.selectExpired now) with
    | some err =>
      simp [check_of_select_fails db selects, deletionsAnnounced_unchanged, AllOrNothing, selects]
    | none =>
      obtain ⟨done, rest, split, committed, fails, after, events⟩ :=
        check_of_select db master selects
      have outcome : expiredPeersCheck cfg now faults db = ⟨db.deletePeers (done.flatMap Prod.snd),
          if rest = [] then announce (expiredIDs db now, none) else []⟩ := by
        rw [← after, ← events]
      simp only [AllOrNothing, master, selects, forall_const, outcome]
      by_cases complete : rest = []
      · -- every chunk was deleted
        subst complete
        rw [List.append_nil] at split
        have all : done.flatMap Prod.snd = expiredIDs db now := by rw [← split, chunks_flatten]
        simp only [all, if_true, deletionsAnnounced_all, split, true_iff]
        exact .inl committed
      · rw [if_neg complete]
        cases done with
        | nil =>
          -- nothing was deleted
          rw [List.nil_append] at split
          simp only [List.flatMap_nil, Db.deletePeers_nil, deletionsAnnounced_unchanged, split,
            true_iff]
          exact .inr fails
        | cons first done =>
          -- the first chunk was deleted and is not announced
          obtain ⟨id, hid⟩ := List.exists_mem_of_ne_nil _
            (chunks_ne_nil (split ▸ List.mem_append_left rest List.mem_cons_self))
          have deleted : id ∈ (first :: done).flatMap Prod.snd :=
            List.mem_flatMap.mpr ⟨first, List.mem_cons_self, hid⟩
          obtain ⟨row, stored, _⟩ := stored_of_expired (mem_chunk split deleted)
          constructor
          · intro announced
            have silent := announced.1 id row stored (by
              simp only [Db.find_deletePeers, if_pos deleted])
            obtain ⟨⟨ids, batch, _⟩, _⟩ := silent
            cases batch
          · rintro (all | none)
            · obtain ⟨part, others, rfl⟩ := List.exists_cons_of_ne_nil complete
              exact absurd (all part (by simp [split])) (fails part rfl)
            · exact absurd (committed first List.mem_cons_self) (none first (by simp [split]))

/-- The peer is reported as removed, on one topic or the other. -/
def Reported (events : List Event) (id : PeerIdentifier) : Prop :=
  InBatch events id ∨ .peerDeletedSync id ∈ events

/-- What a check does to a database if peers are not to be deleted: no peer is
removed or reported, and those that have expired are disabled. -/
structure OnlyDisables (db : Db) (now : Time) (outcome : Outcome) : Prop where
  kept : ∀ id row, db.peers.find id = some row → (outcome.db.peers.find id).isSome
  silent : ∀ id, ¬ Reported outcome.events id
  disabled : ∀ id p, db.peer id = some p → p.isExpired now → p.isDisabled = false →
    ∃ q, outcome.db.peer id = some q ∧ q.isDisabled ∧ q.disabledReason = disabledReasonExpired
  unchanged : ∀ id p, db.peer id = some p → p.isExpired now = false →
    outcome.db.peer id = some p

def HonoursFlag (cfg : Config) (db : Db) (now : Time) (faults : Faults) : Prop :=
  cfg.core.deleteExpiredPeers = false → OnlyDisables db now (expiredPeersCheck cfg now faults db)

/-- No stored peer has expired, or all that have are disabled already and the
cleanup fails before it deletes one. -/
def NothingToDelete (cfg : Config) (db : Db) (now : Time) (faults : Faults) : Prop :=
  cfg.core.deleteExpiredPeers = true ∨
    (∀ row ∈ db.peers.rows, row.isExpired now = false) ∨
    (∀ row ∈ db.peers.rows, row.isExpired now → row.isDisabled) ∧
      (faults (.selectExpired now) = none →
        ∀ part ∈ (chunks (expiredIDs db now)).head?, ¬ faults.Commits part.1 part.2)

theorem isExpired_eq (row : Peer) (now : Time) : row.isExpired now = expiredBefore now row := rfl

theorem peer_isExpired {db : Db} {id : PeerIdentifier} {p : Peer} (h : db.peer id = some p)
    (now : Time) : ∃ row ∈ db.peers.rows, row.identifier = id ∧
      row.isExpired now = p.isExpired now ∧ row.isDisabled = p.isDisabled := by
  obtain ⟨row, stored, rfl⟩ := Option.map_eq_some_iff.mp h
  exact ⟨row, Table.mem_of_find stored, Table.key_of_find stored, rfl, rfl⟩

theorem onlyDisables_unchanged {db : Db} {now : Time}
    (disabled : ∀ row ∈ db.peers.rows, row.isExpired now → row.isDisabled) :
    OnlyDisables db now ⟨db, []⟩ where
  kept := by
    intro id row stored
    rw [stored, Option.isSome_some]
  silent := by
    rintro id (⟨ids, batch, _⟩ | sync)
    · cases batch
    · cases sync
  disabled := by
    intro id p stored expired enabled
    obtain ⟨row, hrow, _, sameExpiry, sameDisabled⟩ := peer_isExpired stored now
    have already := disabled row hrow (sameExpiry.trans expired)
    rw [sameDisabled, enabled] at already
    cases already
  unchanged := fun _ _ stored _ => stored

/-- An enabled peer is not disabled by a check that deletes some peers. -/
theorem not_onlyDisables_of_enabled {db : Db} {now : Time} {row : Peer} (hrow : row ∈ db.peers.rows)
    (expired : row.isExpired now) (enabled : row.isDisabled = false) (ids : List PeerIdentifier)
    (events : List Event) : ¬ OnlyDisables db now ⟨db.deletePeers ids, events⟩ := by
  intro only
  have stored := Table.find_of_mem hrow
  have loaded : db.peer row.identifier = some (db.load row) := by rw [Db.peer, stored]; rfl
  obtain ⟨q, after, disabled, _⟩ := only.disabled _ _ loaded expired enabled
  obtain ⟨row', stored', rfl⟩ := Option.map_eq_some_iff.mp after
  have kept := Db.find_deletePeers db ids row.identifier
  split at kept
  · simp only [kept] at stored'
    cases stored'
  · simp only [kept, stored, Option.some.injEq] at stored'
    rw [← stored'] at disabled
    exact absurd disabled (by simpa [Db.load, loadAddresses, Peer.isDisabled] using enabled)

theorem not_onlyDisables_of_deleted {db : Db} {now : Time} {id : PeerIdentifier} {row : Peer}
    (stored : db.peers.find id = some row) {ids : List PeerIdentifier} (deleted : id ∈ ids)
    (events : List Event) : ¬ OnlyDisables db now ⟨db.deletePeers ids, events⟩ := by
  intro only
  have kept := only.kept id row stored
  simp only [Db.find_deletePeers, if_pos deleted] at kept
  cases kept

theorem onlyDisables_unchanged_iff (db : Db) (now : Time) :
    OnlyDisables db now ⟨db, []⟩ ↔ ∀ row ∈ db.peers.rows, row.isExpired now → row.isDisabled := by
  constructor
  · intro only row hrow expired
    by_contra enabled
    have deletesNone : OnlyDisables db now ⟨db.deletePeers [], []⟩ := by
      rwa [Db.deletePeers_nil]
    exact not_onlyDisables_of_enabled hrow expired (by simpa using enabled) [] [] deletesNone
  · exact onlyDisables_unchanged

theorem honoursFlag_iff {cfg : Config} (master : cfg.core.master = true) (db : Db) (now : Time)
    (faults : Faults) : HonoursFlag cfg db now faults ↔ NothingToDelete cfg db now faults := by
  have vacuous : (∀ row ∈ db.peers.rows, row.isExpired now = false) →
      ∀ row ∈ db.peers.rows, row.isExpired now → row.isDisabled := by
    intro none row hrow expired
    rw [none row hrow] at expired
    cases expired
  cases flag : cfg.core.deleteExpiredPeers with
  | true => simp [HonoursFlag, NothingToDelete, flag]
  | false =>
    simp only [HonoursFlag, NothingToDelete, flag, forall_const, Bool.false_eq_true, false_or]
    cases selects : faults (.selectExpired now) with
    | some err =>
      simp only [check_of_select_fails db selects, onlyDisables_unchanged_iff, reduceCtorEq,
        false_implies, and_true]
      exact ⟨.inr, fun h => h.elim vacuous id⟩
    | none =>
      obtain ⟨done, rest, split, committed, fails, after, events⟩ :=
        check_of_select db master selects
      have outcome : expiredPeersCheck cfg now faults db = ⟨db.deletePeers (done.flatMap Prod.snd),
          if rest = [] then announce (expiredIDs db now, none) else []⟩ := by
        rw [← after, ← events]
      simp only [forall_const]
      cases done with
      | nil =>
        have silent : (if rest = [] then announce (expiredIDs db now, none) else []) = [] := by
          split
          · rename_i complete
            have ids : expiredIDs db now = [] := by
              rw [← chunks_flatten (expiredIDs db now), split, complete]
              rfl
            rw [ids]
            rfl
          · rfl
        rw [outcome, silent, List.flatMap_nil, Db.deletePeers_nil, onlyDisables_unchanged_iff,
          split, List.nil_append]
        exact ⟨fun h => .inr ⟨h, fails⟩, fun h => h.elim vacuous And.left⟩
      | cons first done =>
        obtain ⟨id, hid⟩ := List.exists_mem_of_ne_nil _
          (chunks_ne_nil (split ▸ List.mem_append_left rest List.mem_cons_self))
        have deleted : id ∈ (first :: done).flatMap Prod.snd :=
          List.mem_flatMap.mpr ⟨first, List.mem_cons_self, hid⟩
        obtain ⟨row, stored, expired⟩ := stored_of_expired (mem_chunk split deleted)
        rw [outcome]
        constructor
        · exact fun only => absurd only (not_onlyDisables_of_deleted stored deleted _)
        · rintro (none | ⟨_, fails⟩)
          · have fresh := none row (Table.mem_of_find stored)
            rw [isExpired_eq, expired] at fresh
            cases fresh
          · exact absurd (committed first List.mem_cons_self) (fails first (by simp [split]))

/-- A run of the master: its checks, between which anything may be written. -/
inductive Step where
  | check (now : Time) (faults : Faults)
  | write (db : Db)

/-- The property holds of every check of the run that starts with `db`. -/
def AtChecks (cfg : Config) (holds : Db → Time → Faults → Prop) : Db → List Step → Prop
  | _, [] => True
  | db, .check now faults :: steps =>
    holds db now faults ∧ AtChecks cfg holds (expiredPeersCheck cfg now faults db).db steps
  | _, .write db :: steps => AtChecks cfg holds db steps

theorem atChecks_congr {cfg : Config} {holds holds' : Db → Time → Faults → Prop}
    (same : ∀ db now faults, holds db now faults ↔ holds' db now faults) (db : Db)
    (steps : List Step) : AtChecks cfg holds db steps ↔ AtChecks cfg holds' db steps := by
  induction steps generalizing db with
  | nil => rfl
  | cons step steps ih =>
    cases step with
    | check now faults => exact and_congr (same db now faults) (ih _)
    | write db' => exact ih db'

/-- In every run each check announces exactly what it deletes, if and only if
each deletes all selected peers or none. -/
theorem checks_announce_deletions_iff (cfg : Config) (db : Db) (steps : List Step) :
    AtChecks cfg (fun db now faults =>
        DeletionsAnnounced db (expiredPeersCheck cfg now faults db)) db steps ↔
      AtChecks cfg (fun db now faults => AllOrNothing cfg now faults db) db steps :=
  atChecks_congr (fun db now faults => deletionsAnnounced_iff cfg now faults db) db steps

def expiredPeer (n : ℕ) : Peer :=
  { Peer.zero with identifier := String.ofList (List.replicate (n + 1) 'p'), expiresAt := some 5 }

theorem expiredPeer_identifier_injective :
    Function.Injective fun n => (expiredPeer n).identifier := by
  intro m n same
  have letters : List.replicate (m + 1) 'p' = List.replicate (n + 1) 'p' :=
    String.ofList_injective same
  simpa using congrArg List.length letters

/-- Peers that all have expired by the time 10. -/
def expiredPeers (n : ℕ) : Db :=
  { Db.empty with
    peers :=
      { rows := (List.range n).map expiredPeer
        nodup := by
          rw [List.map_map]
          exact List.nodup_range.map expiredPeer_identifier_injective } }

/-- No transaction can be opened any more after the first chunk. -/
def lostConnection : Faults
  | .begin 200 _ => some (.other "invalid connection")
  | _ => none

theorem length_expiredIDs (n : ℕ) : (expiredIDs (expiredPeers n) 10).length = n := by
  have all : ((List.range n).map expiredPeer).filter (expiredBefore 10) =
      (List.range n).map expiredPeer := by
    rw [List.filter_eq_self]
    intro row hrow
    obtain ⟨i, _, rfl⟩ := List.mem_map.mp hrow
    rfl
  simp [expiredIDs, Db.expiredPeers, expiredPeers, all]

theorem secondChunk_not_announced :
    ¬ AtChecks masterConfig (fun db now faults =>
        DeletionsAnnounced db (expiredPeersCheck masterConfig now faults db))
      (expiredPeers 201) [.check 10 lostConnection] := by
  rintro ⟨announced, -⟩
  rw [deletionsAnnounced_iff] at announced
  have parts : chunks (expiredIDs (expiredPeers 201) 10) =
      [(0, (expiredIDs (expiredPeers 201) 10).take 200),
        (200, ((expiredIDs (expiredPeers 201) 10).drop 200).take 200)] := by
    simp [chunks, length_expiredIDs, chunkSize, List.range_succ]
  have first : lostConnection.Commits 0 ((expiredIDs (expiredPeers 201) 10).take 200) :=
    ⟨0, by omega, rfl, by omega⟩
  have second : ¬ lostConnection.Commits 200
      (((expiredIDs (expiredPeers 201) 10).drop 200).take 200) := by
    rintro ⟨_, _, success, _⟩
    cases success
  rcases announced rfl rfl with all | none
  · exact second (all _ (by rw [parts]; exact .tail _ (.head _)))
  · exact none _ (by rw [parts]; rfl) first

/-- In every run of the master each check honours the flag, if and only if each
finds nothing that it deletes. -/
theorem checks_honour_flag_iff {cfg : Config} (master : cfg.core.master = true) (db : Db)
    (steps : List Step) :
    AtChecks cfg (HonoursFlag cfg) db steps ↔ AtChecks cfg (NothingToDelete cfg) db steps :=
  atChecks_congr (honoursFlag_iff master) db steps

theorem freshPeers_honour_flag :
    AtChecks masterConfig (HonoursFlag masterConfig) (expiredPeers 2)
      [.check 3 fun _ => none, .check 5 fun _ => none] := by
  rw [checks_honour_flag_iff rfl]
  exact ⟨.inr (.inl (by decide)), .inr (.inl (by decide)), trivial⟩

theorem expiredPeer_deleted :
    ¬ AtChecks masterConfig (HonoursFlag masterConfig) (expiredPeers 1)
      [.check 10 fun _ => none] := by
  rintro ⟨honours, -⟩
  have kept := (honours rfl).kept "p" (expiredPeer 0) (by decide)
  have removed : (expiredPeersCheck masterConfig 10 (fun _ => none) (expiredPeers 1)).db.peers.find
      "p" = none := by decide
  rw [removed] at kept
  cases kept

end WgPortal.WireGuard.Expiry
