import WgPortal.Library.Interleaving
import WgPortal.WireGuard.StateChange
import WgPortal.WireGuard.Sync

/-! What the handler of changed connection states writes while other calls update and
delete peers. It decides on the peer of the event, which was read earlier. -/

namespace WgPortal.WireGuard.TTLRenewal

open Domain Library Adapters App Config WgController System
open ManagerProgram (issue)

variable {ι : Type} [DecidableEq ι] {w : Wgtypes}

inductive Call where
  /-- the event carries the peer as it was read -/
  | stateChanged (peerStatus : PeerStatus) (peer : Peer)
  | update (ui : ContextUserInfo) (peer : Peer)
  | delete (ui : ContextUserInfo) (id : PeerIdentifier)

def Call.program (m : Manager) : Call → ManagerProgram Unit
  | .stateChanged peerStatus peer => m.handlePeerStateChangeEvent peerStatus peer
  | .update ui peer => do
    let _ ← m.updatePeer ui peer
    return ()
  | .delete ui id => do
    let _ ← m.deletePeer ui id
    return ()

/-- `running` is the call that a thread is in. -/
structure State (ι : Type) (w : Wgtypes) where
  world : World w
  running : ι → Option Call

/-- Others may write whatever they like in between. -/
def system (client : Client w) (m : Manager) :
    System ι (World w) Call ManagerOp ManagerOp.Res Circumstance Unit (State ι w) where
  exec := fun _ op c s =>
    let (answer, world) := op.exec client c s.world
    (answer, { s with world := world })
  env := fun world s => some { s with world := world }
  start := fun i call s =>
    some (call.program m, { s with running := Function.update s.running i (some call) })
  finish := fun i _ s => { s with running := Function.update s.running i none }

abbrev RenewalPool (ι : Type) (w : Wgtypes) := Pool ι ManagerOp ManagerOp.Res Unit (State ι w)
abbrev RenewalTurn (ι : Type) (w : Wgtypes) := Turn ι (World w) Call Circumstance

def initial (world : World w) : State ι w := ⟨world, fun _ => none⟩

/-- A record without its time of expiry, its addresses and who wrote it last and when. -/
def bare (p : Peer) : Peer :=
  { p with
    expiresAt := none
    interface := { p.interface with addresses := [] }
    base := { p.base with updatedBy := "", updatedAt := 0 } }

/-- The records differ in their time of expiry at most. -/
structure SameRecord (p q : Peer) : Prop where
  bare : bare p = bare q
  addresses : ∀ c, c ∈ p.interface.addresses ↔ c ∈ q.interface.addresses

/-- What may become of a peer: its time of expiry changes, unless it is locked. -/
structure Renewed (old new : Peer) : Prop where
  same : SameRecord old new
  locked : old.ttlLocked = true → new = old

/-- At most times of expiry have changed. -/
def RenewsOnly (db db' : Db) : Prop := ∀ id, Option.Rel Renewed (db.peer id) (db'.peer id)

/-- The peer that is to be written is stored as it was read for the event, and none that
is to be deleted is stored. -/
def Current (event : Peer) (db : Db) : ManagerOp → Prop
  | .repo (.commitPeer _ _ p) => ∃ stored, db.peer p.identifier = some stored ∧
      SameRecord stored { event with identifier := p.identifier, base := p.base }
  | .repo (.deletePeer id) => db.peer id = none
  | _ => True

/-- The turn is an operation of a handler. -/
def Handles (p : RenewalPool ι w) (turn : RenewalTurn ι w) (event : Peer) (op : ManagerOp)
    (c : Circumstance) : Prop :=
  ∃ i rest peerStatus, turn = .step i c ∧ p.thread i = some (.call op rest) ∧
    p.shared.running i = some (.stateChanged peerStatus event)

/-- What a handler writes renews only. -/
def Frames (client : Client w) (p : RenewalPool ι w) (turn : RenewalTurn ι w) : Prop :=
  ∀ event op c, Handles p turn event op c →
    RenewsOnly p.shared.world.db (op.exec client c p.shared.world).2.db

/-- A handler writes, if it succeeds, over what its event shows. -/
def FindsCurrent (p : RenewalPool ι w) (turn : RenewalTurn ι w) : Prop :=
  ∀ event op c, Handles p turn event op c → c.fault = none →
    Current event p.shared.world.db op

/-- A handler commits the peer of its event with another time of expiry, and none that is
locked there. -/
def Writes (event : Peer) : ManagerOp → Prop
  | .repo (.commitPeer _ _ p) => event.ttlLocked = false ∧ ∃ expiresAt,
      p = { event with identifier := p.identifier, base := p.base, expiresAt := expiresAt }
  | _ => True

theorem writes_issue {event : Peer} (op : ManagerOp) (writes : Writes event op) :
    (issue op).Uses (Writes event) := ⟨writes, fun _ => trivial⟩

/-- A peer that a handler may commit. -/
structure Renewal (event peer : Peer) : Prop where
  unlocked : event.ttlLocked = false
  renewal : ∃ expiresAt,
    peer = { event with identifier := peer.identifier, base := peer.base, expiresAt := expiresAt }

section Program

variable {m : Manager} {ui : ContextUserInfo} {event peer : Peer}

theorem Renewal.rebase (renewal : Renewal event peer) (id : PeerIdentifier) (base : BaseModel) :
    Renewal event { peer with identifier := id, base := base } := by
  refine ⟨renewal.unlocked, ?_⟩
  have ⟨expiresAt, same⟩ := renewal.renewal
  refine ⟨expiresAt, ?_⟩
  rw [same]

theorem writes_savePeers (renewal : Renewal event peer) :
    (m.savePeers ui [peer]).Uses (Writes event) := by
  refine Manager.uses_savePeers ⟨fun _ => trivial, fun _ => trivial, fun _ _ _ _ => trivial,
    fun base => ?_, fun _ => trivial⟩
  have based := renewal.rebase peer.identifier base
  exact ⟨based.unlocked, based.renewal⟩

theorem writes_deletePeer (id : PeerIdentifier) : (m.deletePeer ui id).Uses (Writes event) := by
  refine (writes_issue (.repo (.getPeer id)) trivial).bind fun answer => ?_
  cases answer with
  | error err => trivial
  | ok peer =>
    dsimp only
    split
    · trivial
    · split
      · trivial
      · refine (writes_issue (.repo (.getInterface _)) trivial).bind fun answer => ?_
        cases answer with
        | error err => trivial
        | ok iface =>
          refine (writes_issue (.deletePeer ..) trivial).bind fun answer => ?_
          cases answer with
          | error err => trivial
          | ok _ =>
            refine (writes_issue (.repo (.deletePeer id)) trivial).bind fun answer => ?_
            cases answer with
            | error err => trivial
            | ok _ => exact ⟨trivial, fun _ => ⟨trivial, fun _ => ⟨trivial, fun _ => trivial⟩⟩⟩

theorem writes_checkUnknown (id : PeerIdentifier) :
    (Manager.checkUnknown id).Uses (Writes event) := by
  refine (writes_issue (.repo (.getPeer id)) trivial).bind fun answer => ?_
  cases answer with
  | ok _ => trivial
  | error err =>
    show Program.Uses (Writes event) (if !err.is .notFound then _ else _)
    split <;> trivial

theorem writes_saveUpdated (existing : Peer) (renewal : Renewal event peer) :
    (m.saveUpdated ui existing peer).Uses (Writes event) := by
  unfold Manager.saveUpdated
  split
  · have rekeyed := renewal.rebase peer.interface.keyPair.publicKey peer.base
    refine (writes_checkUnknown _).bind fun unknown => ?_
    cases unknown with
    | error err => trivial
    | ok _ =>
      refine (writes_deletePeer existing.identifier).bind fun deleted => ?_
      cases deleted with
      | error err => trivial
      | ok _ =>
        refine (writes_savePeers rekeyed).bind fun saved => ?_
        cases saved with
        | error err => trivial
        | ok saved => exact (writes_issue (.publish _) trivial).bind fun _ => trivial
  · refine (writes_savePeers renewal).bind fun saved => ?_
    cases saved <;> trivial

/-- An admin's peer is stored as it is. -/
theorem writes_updatePeer (admin : ui.isAdmin = true) (renewal : Renewal event peer) :
    (m.updatePeer ui peer).Uses (Writes event) := by
  refine (writes_issue (.repo (.getPeer peer.identifier)) trivial).bind fun answer => ?_
  cases answer with
  | error err => trivial
  | ok existing =>
    have checked : (m.updatePeerChecked ui existing peer).Uses (Writes event) := by
      unfold Manager.updatePeerChecked Manager.requestedPeer
      rw [if_pos admin]
      refine (writes_saveUpdated existing renewal).bind fun stored => ?_
      cases stored with
      | error err => trivial
      | ok stored =>
        refine (writes_issue (.publish _) trivial).bind fun _ => ?_
        show Program.Uses (Writes event)
          (if PeerChanges.hasMeaningfulChanges existing stored = true then _ else _)
        split
        · exact (writes_issue (.publish _) trivial).bind fun _ => trivial
        · trivial
    dsimp only
    split
    · trivial
    · split
      · trivial
      · exact checked

theorem writes_sufficientTTL (peerStatus : PeerStatus) :
    (sufficientTTL peerStatus peer).Uses (Writes event) := by
  unfold sufficientTTL
  split
  · exact (writes_issue .timeNow trivial).bind fun _ => trivial
  · trivial

theorem writes_handlePeerStateChangeEvent (peerStatus : PeerStatus) :
    (m.handlePeerStateChangeEvent peerStatus event).Uses (Writes event) := by
  unfold Manager.handlePeerStateChangeEvent
  split
  · trivial
  · split
    · trivial
    · rename_i ttlDuration _
      split
      · trivial
      · rename_i unlocked
        refine (writes_sufficientTTL peerStatus).bind fun sufficient => ?_
        split
        · trivial
        · refine (writes_issue .timeNow trivial).bind fun now => ?_
          have renewal : Renewal event { event with expiresAt := some (now + ttlDuration) } :=
            ⟨by simpa using unlocked, _, rfl⟩
          exact (writes_updatePeer rfl renewal).bind fun _ => trivial

end Program

theorem SameRecord.refl (p : Peer) : SameRecord p p := ⟨rfl, fun _ => Iff.rfl⟩

theorem SameRecord.symm {p q : Peer} (same : SameRecord p q) : SameRecord q p :=
  ⟨same.bare.symm, fun c => (same.addresses c).symm⟩

theorem SameRecord.trans {p q r : Peer} (first : SameRecord p q) (second : SameRecord q r) :
    SameRecord p r :=
  ⟨first.bare.trans second.bare, fun c => (first.addresses c).trans (second.addresses c)⟩

theorem SameRecord.ttlLocked {p q : Peer} (same : SameRecord p q) : p.ttlLocked = q.ttlLocked := by
  have here := congrArg Peer.ttlLocked same.bare
  exact here

theorem renewed_refl (peer : Option Peer) : Option.Rel Renewed peer peer := by
  cases peer with
  | none => exact .none
  | some p => exact .some ⟨SameRecord.refl p, fun _ => rfl⟩

theorem RenewsOnly.ttlLocked {db db' : Db} (renews : RenewsOnly db db') (id : PeerIdentifier) :
    (db.peer id).map Peer.ttlLocked = (db'.peer id).map Peer.ttlLocked := by
  have here := renews id
  generalize db.peer id = old at here ⊢
  generalize db'.peer id = new at here ⊢
  cases here with
  | none => rfl
  | some renewed => exact congrArg some renewed.same.ttlLocked

/-- What a handler commits differs from the peer of its event in the time of expiry. -/
theorem exists_committed {uid : UserIdentifier} {now : Time} {id : PeerIdentifier} {event p : Peer}
    (writes : Writes event (.repo (.commitPeer uid id p))) (db : Db) :
    ∃ q, (db.commitPeer uid now id p).peer p.identifier = some q ∧
      SameRecord q { event with identifier := p.identifier, base := p.base } := by
  obtain ⟨addresses, listed, stored⟩ := db.exists_peer_commitPeer uid now id p
  obtain ⟨-, expiresAt, same⟩ := writes
  have record := congrArg bare same
  have owned := congrArg Peer.interface same
  simp only at owned
  refine ⟨_, stored, record, fun c => ?_⟩
  rw [← owned]
  exact listed c

/-- The commit of a handler, as far as it is about the peer that is stored. -/
theorem committed_iff {uid : UserIdentifier} {now : Time} {id : PeerIdentifier} {event p : Peer}
    (writes : Writes event (.repo (.commitPeer uid id p))) (db : Db) :
    RenewsOnly db (db.commitPeer uid now id p) ↔
      Current event db (.repo (.commitPeer uid id p)) := by
  obtain ⟨q, stored, written⟩ := @exists_committed _ now _ _ _ writes db
  constructor
  · intro renews
    have here := renews p.identifier
    rw [stored] at here
    generalize found : db.peer p.identifier = old at here
    cases here with
    | some renewed => exact ⟨_, found, renewed.same.trans written⟩
  · rintro ⟨old, found, current⟩ other
    by_cases same : other = p.identifier
    · rw [same, found, stored]
      refine .some ⟨current.trans written.symm, fun locked => ?_⟩
      have unlocked : old.ttlLocked = false := current.ttlLocked.trans writes.1
      rw [unlocked] at locked
      cases locked
    · rw [db.peer_commitPeer_of_ne uid now id p same]
      exact renewed_refl _

theorem deleted_iff (db : Db) (id : PeerIdentifier) :
    RenewsOnly db (db.deletePeer id) ↔ db.peer id = none := by
  constructor
  · intro renews
    have here := renews id
    rw [db.peer_deletePeer_self id] at here
    generalize db.peer id = old at here ⊢
    cases here
    rfl
  · intro absent other
    by_cases same : other = id
    · rw [same, absent, db.peer_deletePeer_self id]
      exact .none
    · rw [db.peer_deletePeer_of_ne same]
      exact renewed_refl _

/-- A handler's operation, whatever it is and whether it fails or not. -/
theorem renewsOnly_iff_current {event : Peer} {op : ManagerOp} (writes : Writes event op)
    (client : Client w) (c : Circumstance) (world : World w) :
    RenewsOnly world.db (op.exec client c world).2.db ↔
      (c.fault = none → Current event world.db op) := by
  have unwritten (same : (op.exec client c world).2.db.peer = world.db.peer) :
      RenewsOnly world.db (op.exec client c world).2.db := by
    intro id
    rw [same]
    exact renewed_refl _
  cases fault : c.fault with
  | some err =>
    refine iff_of_true (unwritten ?_) (fun calm => by cases calm)
    cases op with
    | lock => rfl
    | _ => simp only [ManagerOp.exec, RepoOp.exec, fault]
  | none =>
    simp only [forall_const]
    cases op with
    | repo op =>
      simp only [ManagerOp.exec, RepoOp.exec, fault]
      cases op with
      | commitPeer uid id p => exact committed_iff writes world.db
      | deletePeer id => exact deleted_iff world.db id
      | _ => exact iff_of_true (fun id => renewed_refl _) trivial
    | savePeer => exact iff_of_true (unwritten (by rw [ManagerOp.exec_savePeer_db])) trivial
    | deletePeer => exact iff_of_true (unwritten (by rw [ManagerOp.exec_deletePeer_db])) trivial
    | lock | timeNow | publish => exact iff_of_true (unwritten rfl) trivial
    | getPeers | newFreshKeypair | newPreSharedKey =>
      refine iff_of_true (unwritten ?_) trivial
      simp only [ManagerOp.exec, fault]

/-- A thread that is in a handler goes on with what is left of it. -/
def Handling (p : RenewalPool ι w) : Prop :=
  ∀ i peerStatus event prog, p.shared.running i = some (.stateChanged peerStatus event) →
    p.thread i = some prog → prog.Uses (Writes event)

theorem handling_next {client : Client w} {m : Manager} (p : RenewalPool ι w)
    (turn : RenewalTurn ι w) (q : RenewalPool ι w) (handling : Handling p)
    (taken : (system client m).next p turn = some q) : Handling q := by
  cases turn with
  | env world =>
    cases taken
    exact handling
  | start i call =>
    simp only [System.next, system] at taken
    split at taken
    · cases taken
    · cases taken
      intro j peerStatus event prog running here
      by_cases same : j = i
      · subst same
        simp only [Function.update_self, Option.some.injEq] at running here
        rw [← here, running]
        exact writes_handlePeerStateChangeEvent peerStatus
      · simp only [Function.update_of_ne same] at running here
        exact handling j peerStatus event prog running here
  | step i c =>
    simp only [System.next, system] at taken
    split at taken
    · cases taken
    · cases taken
      intro j peerStatus event prog running here
      by_cases same : j = i
      · subst same
        simp only [Function.update_self] at running
        cases running
      · simp only [Function.update_of_ne same] at running here
        exact handling j peerStatus event prog running here
    · rename_i op rest thread
      cases taken
      intro j peerStatus event prog running here
      by_cases same : j = i
      · subst same
        simp only [Function.update_self, Option.some.injEq] at here
        rw [← here]
        exact (handling j peerStatus event _ running thread).2 _
      · simp only [Function.update_of_ne same] at here
        exact handling j peerStatus event prog running here

/-- In a run of any calls and with any other writers in between, the handlers renew only
if and only if they write over what their events show. -/
theorem renewal_frames_iff (client : Client w) (m : Manager) (world : World w)
    (turns : List (RenewalTurn ι w)) :
    Guarded (system client m).next (Frames client) (idle (initial world)) turns ↔
      Guarded (system client m).next FindsCurrent (idle (initial world)) turns := by
  refine guarded_congr handling_next (fun p turn handling => ?_)
    (fun i peerStatus event prog running here => by cases here) turns
  refine forall_congr' fun event => forall_congr' fun op => forall_congr' fun c =>
    forall_congr' fun handles => ?_
  have ⟨i, rest, peerStatus, _, thread, running⟩ := handles
  have writes := handling i peerStatus event _ running thread
  exact renewsOnly_iff_current writes.1 client c p.shared.world

/-- Expired peers are deleted. -/
def expiring : Manager :=
  ⟨{ defaultConfig with core := { defaultConfig.core with deleteExpiredPeers := true } }, [],
    false⟩

def onePeer : World plainTypes := oneInterface Device.empty [enabledPeer key]

/-- The peer of the event, read before it was published -/
def readPeer : Peer := (onePeer.db.peer key).getD Peer.zero

def connected : RenewalTurn Bool plainTypes :=
  .start false (.stateChanged { PeerStatus.fresh key 1 with isConnected := true } readPeer)

def steps (i : Bool) (n : ℕ) : List (RenewalTurn Bool plainTypes) :=
  List.replicate n (.step i (calm 0))

/-- The peer as an admin wants it: its time of expiry is locked. -/
def lockedPeer : Peer := { readPeer with ttlLocked := true, notes := "never expires" }

def lockedMeanwhile : List (RenewalTurn Bool plainTypes) :=
  [connected, .start true (.update admin lockedPeer)] ++ steps true 5 ++ steps false 5

/-- An admin deletes the peer that the handler has found. -/
def deletedMeanwhile : List (RenewalTurn Bool plainTypes) :=
  connected :: steps false 2 ++ .start true (.delete admin key) :: steps true 4 ++ steps false 3

/-- What the next step does to the peer while a handler runs -/
def handled (turns : List (RenewalTurn Bool plainTypes)) : Option (Option Bool × Option Bool) := do
  let p ← runFrom (system (plainClient plainTypes) expiring).next (idle (initial onePeer)) turns
  let q ← (system (plainClient plainTypes) expiring).next p (.step false (calm 0))
  match p.thread false, p.shared.running false with
  | some (.call _ _), some (.stateChanged _ _) =>
    return ((p.shared.world.db.peer key).map Peer.ttlLocked,
      (q.shared.world.db.peer key).map Peer.ttlLocked)
  | _, _ => none

theorem not_framed {turns : List (RenewalTurn Bool plainTypes)} {old new : Option Bool}
    (step : handled turns = some (old, new)) (changed : old ≠ new) :
    ¬ Guarded (system (plainClient plainTypes) expiring).next (Frames (plainClient plainTypes))
      (idle (initial onePeer)) (turns ++ [.step false (calm 0)]) := by
  intro guarded
  simp only [handled, Option.bind_eq_bind, Option.bind_eq_some_iff] at step
  obtain ⟨p, run, q, taken, shown⟩ := step
  have frames := guarded.reached run
  split at shown
  · rename_i op rest peerStatus event thread running
    simp only [System.next, thread, system, Option.some.injEq] at taken
    have renews := frames event op (calm 0) ⟨false, rest, peerStatus, rfl, thread, running⟩
    rw [← taken] at shown
    cases shown
    exact changed (renews.ttlLocked key)
  · cases shown

/-- A peer that an admin locks meanwhile is unlocked again and gets another time of
expiry, and one that an admin deletes meanwhile is back. -/
theorem renewals_not_framed : onePeer.db.peer key = some readPeer ∧
    ¬ Guarded (system (plainClient plainTypes) expiring).next (Frames (plainClient plainTypes))
      (idle (initial onePeer)) (lockedMeanwhile ++ [.step false (calm 0)]) ∧
    ¬ Guarded (system (plainClient plainTypes) expiring).next (Frames (plainClient plainTypes))
      (idle (initial onePeer)) (deletedMeanwhile ++ [.step false (calm 0)]) := by
  refine ⟨by decide +kernel, ?_, ?_⟩
  · have unlocks : handled lockedMeanwhile = some (some true, some false) := by decide +kernel
    exact not_framed unlocks (by decide)
  · have restores : handled deletedMeanwhile = some (none, some false) := by decide +kernel
    exact not_framed restores (by decide)

end WgPortal.WireGuard.TTLRenewal
