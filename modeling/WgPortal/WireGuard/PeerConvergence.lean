import WgPortal.Library.Interleaving
import WgPortal.WgController.Presence
import WgPortal.WireGuard.PeerChanges
import WgPortal.WireGuard.PeerEvents
import WgPortal.WireGuard.Sync

/-! One node follows the peers that are stored. Peers are created, updated and deleted
while the handlers of the four topics run operation by operation. The state records
what each handler knows of its peer. -/

namespace WgPortal.WireGuard.PeerConvergence

open Domain Library Adapters App Config WgController System
open LocalController (holds)
open ManagerProgram (issue)

variable {w : Wgtypes}

/-- How far a handler is. -/
inductive Stage where
  | idle
  | unread (id : PeerIdentifier)
  /-- The peer was not found, and the interfaces are not read yet. -/
  | missing (id : PeerIdentifier)
  | read (peer : Peer)
  | removing (id : PeerIdentifier) (left : List InterfaceIdentifier)

structure State (w : Wgtypes) where
  db : Db
  devices : Devices w
  queue : Topic → List PeerIdentifier
  stage : Topic → Stage

/-- A commit of `CreatePeer`, `UpdatePeer` or `DeletePeer`; an update has read the existing
peer before. -/
inductive Change where
  | create (userId : UserIdentifier) (now : Time) (peer : Peer)
  | update (userId : UserIdentifier) (now : Time) (existing peer : Peer)
  | delete (id : PeerIdentifier)

namespace Change

def id : Change → PeerIdentifier
  | create _ _ peer => peer.identifier
  | update _ _ _ peer => peer.identifier
  | delete id => id

def topic : Change → Topic
  | create .. => .peerCreatedSync
  | update .. => .peerUpdatedSync
  | delete _ => .peerDeletedSync

/-- Updates without a meaningful change are not announced. -/
def announced : Change → Bool
  | update _ _ existing peer => PeerChanges.hasMeaningfulChanges existing peer
  | _ => true

def apply (db : Db) : Change → Db
  | create userId now peer => db.commitPeer userId now peer.identifier peer
  | update userId now _ peer => db.commitPeer userId now peer.identifier peer
  | delete id => db.deletePeer id

end Change

/-- A change by this node, or by a remote one, whose events come from the HTTP endpoint. -/
structure Commit where
  change : Change
  remote : Bool

def Commit.topic (e : Commit) : Topic := if e.remote then .peerSyncedLocal else e.change.topic

def Commit.apply (e : Commit) (s : State w) : State w :=
  { s with
    db := e.change.apply s.db
    queue := if e.change.announced then
        Function.update s.queue e.topic (s.queue e.topic ++ [e.change.id])
      else s.queue }

/-- What a handler knows after an operation. -/
def record (topic : Topic) : (op : ManagerOp) → op.Res → Stage → Stage
  | .repo (.getPeer _), .ok peer, _ => .read peer
  | .repo (.getPeer id), .error _, _ => if topic = .peerSyncedLocal then .missing id else .idle
  | .repo .getAllInterfaces, .ok ifaces, .unread id => .removing id (ifaces.map Interface.identifier)
  | .repo .getAllInterfaces, .ok ifaces, .missing id =>
    .removing id (ifaces.map Interface.identifier)
  | .repo .getAllInterfaces, .error _, _ => .idle
  | .savePeer .., _, _ => .idle
  | .deletePeer .., _, .removing id left => .removing id left.tail
  | _, _, stage => stage

variable (client : Client w) (m : Manager)

def exec (topic : Topic) (op : ManagerOp) (c : Circumstance) (s : State w) : op.Res × State w :=
  let answer := op.exec client c ⟨s.db, s.devices, []⟩
  (answer.1,
    { s with
      db := answer.2.db
      devices := answer.2.devices
      stage := Function.update s.stage topic (record topic op answer.1 (s.stage topic)) })

/-- The handler of a topic takes the first event of its queue. -/
def start (topic : Topic) (s : State w) : Option (ManagerProgram Unit × State w) :=
  match s.stage topic, s.queue topic with
  | .idle, id :: rest => some (m.handler topic id,
      { s with
        queue := Function.update s.queue topic rest
        stage := Function.update s.stage topic (.unread id) })
  | _, _ => none

def system : System Topic Commit Unit ManagerOp ManagerOp.Res Circumstance Unit (State w) where
  exec := exec client
  env := fun e s => some (e.apply s)
  start := fun topic _ s => start m topic s
  finish := fun topic _ s => { s with stage := Function.update s.stage topic .idle }

abbrev PeerPool (w : Wgtypes) := Pool Topic ManagerOp ManagerOp.Res Unit (State w)

def interfaces (db : Db) : List InterfaceIdentifier := db.interfaces.rows.map Interface.identifier

/-- The interface of a stored peer, and whether it is disabled. -/
def place (db : Db) (id : PeerIdentifier) : Option (InterfaceIdentifier × Bool) :=
  (db.peers.find id).map fun row => (row.interfaceIdentifier, row.isDisabled)

/-- The peer is stored, enabled, for an interface. -/
def wanted (db : Db) (id : PeerIdentifier) (iface : InterfaceIdentifier) : Bool :=
  place db id = some (iface, false)

/-- On every interface the device has exactly the enabled peers. -/
def Converged (s : State w) : Prop :=
  ∀ iface ∈ interfaces s.db, ∀ key : w.Key, holds s.devices iface key = true ↔
    ∃ row ∈ s.db.peers.rows, row.interfaceIdentifier = iface ∧ row.isDisabled = false ∧
      w.parseKey row.identifier = some key

def Stage.isUnread : Stage → PeerIdentifier → Bool
  | .unread id, other => id = other
  | _, _ => false

def Stage.removes : Stage → PeerIdentifier → InterfaceIdentifier → Bool
  | .missing id, other, _ => id = other
  | .removing id left, other, iface => decide (id = other) && decide (iface ∈ left)
  | _, _, _ => false

namespace State

variable (s : State w) (id : PeerIdentifier) (iface : InterfaceIdentifier)

/-- No handler has read the peer for an event of the topic. -/
def awaits (topic : Topic) : Bool := decide (id ∈ s.queue topic) || (s.stage topic).isUnread id

/-- An event that is not read yet will bring the peer up to date on an interface. -/
def unread : Bool :=
  (s.awaits id .peerDeletedSync && !wanted s.db id iface) ||
  match place s.db id with
  | some (stored, _) => decide (stored = iface) &&
      (s.awaits id .peerCreatedSync || s.awaits id .peerUpdatedSync || s.awaits id .peerSyncedLocal)
  | none => s.awaits id .peerSyncedLocal

/-- A deletion will remove the peer from the interface. -/
def removal : Bool :=
  s.awaits id .peerDeletedSync || (s.stage .peerDeletedSync).removes id iface ||
    (s.stage .peerSyncedLocal).removes id iface

/-- What a handler writes for a peer is what is stored, or the peer is handled again. -/
def Established (value : Bool) : Prop := value = wanted s.db id iface ∨ s.unread id iface = true

instance (value : Bool) : Decidable (s.Established id iface value) :=
  inferInstanceAs (Decidable (_ ∨ _))

/-- A handler that is not at its end will bring the peer up to date on an interface. -/
inductive Covered : Prop where
  | unread (unread : s.unread id iface = true)
  | read (topic : Topic) (peer : Peer) (stage : s.stage topic = .read peer)
      (named : peer.identifier = id) (place : peer.interfaceIdentifier = iface)
      (current : (!peer.isDisabled) = wanted s.db id iface)
  | removed (topic : Topic) (stage : (s.stage topic).removes id iface = true)
      (unwanted : wanted s.db id iface = false)

end State

variable {client m} {s t : State w} {id : PeerIdentifier} {iface : InterfaceIdentifier}

theorem awaits_iff {topic : Topic} : s.awaits id topic = true ↔
    id ∈ s.queue topic ∨ s.stage topic = .unread id := by
  rw [State.awaits, Bool.or_eq_true, decide_eq_true_eq]
  refine or_congr_right ?_
  cases s.stage topic with
  | unread other => rw [Stage.isUnread, decide_eq_true_eq, Stage.unread.injEq]
  | idle | missing | read | removing => exact iff_of_false Bool.false_ne_true (fun same => by cases same)

theorem unread_iff : s.unread id iface = true ↔
    (s.awaits id .peerDeletedSync = true ∧ wanted s.db id iface = false) ∨
    (∃ topic disabled, topic ≠ .peerDeletedSync ∧ s.awaits id topic = true ∧
      place s.db id = some (iface, disabled)) ∨
    (s.awaits id .peerSyncedLocal = true ∧ place s.db id = none) := by
  have others : (∃ topic, topic ≠ Topic.peerDeletedSync ∧ s.awaits id topic = true) ↔
      s.awaits id .peerCreatedSync = true ∨ s.awaits id .peerUpdatedSync = true ∨
        s.awaits id .peerSyncedLocal = true := by
    constructor
    · rintro ⟨topic, other, waiting⟩
      cases topic with
      | peerCreatedSync => exact .inl waiting
      | peerUpdatedSync => exact .inr (.inl waiting)
      | peerDeletedSync => exact absurd rfl other
      | peerSyncedLocal => exact .inr (.inr waiting)
    · rintro (h | h | h)
      · exact ⟨_, by decide, h⟩
      · exact ⟨_, by decide, h⟩
      · exact ⟨_, by decide, h⟩
  unfold State.unread
  cases stored : place s.db id with
  | none => simp
  | some there =>
    obtain ⟨there, disabled⟩ := there
    simp only [Bool.or_eq_true, Bool.and_eq_true, Bool.not_eq_true', decide_eq_true_eq,
      Option.some.injEq, Prod.mk.injEq, reduceCtorEq, and_false, or_false]
    refine or_congr_right ⟨?_, ?_⟩
    · rintro ⟨same, waiting⟩
      obtain ⟨topic, other, waiting⟩ := others.mpr (or_assoc.mp waiting)
      exact ⟨topic, disabled, other, waiting, same, rfl⟩
    · rintro ⟨topic, _, other, waiting, same, _⟩
      exact ⟨same, or_assoc.mpr (others.mp ⟨topic, other, waiting⟩)⟩

/-- Events are still covered where the peer is stored alike and no event was read. -/
theorem unread_mono (stored : place t.db id = place s.db id)
    (awaits : ∀ topic, s.awaits id topic = true → t.awaits id topic = true)
    (unread : s.unread id iface = true) : t.unread id iface = true := by
  have wanted : wanted t.db id iface = wanted s.db id iface := by rw [wanted, wanted, stored]
  rw [unread_iff] at unread ⊢
  rw [wanted, stored]
  rcases unread with ⟨waiting, unwanted⟩ | ⟨topic, disabled, other, waiting, here⟩ | ⟨waiting, gone⟩
  · exact .inl ⟨awaits _ waiting, unwanted⟩
  · exact .inr (.inl ⟨topic, disabled, other, awaits _ waiting, here⟩)
  · exact .inr (.inr ⟨awaits _ waiting, gone⟩)

theorem covered_mono (stored : place t.db id = place s.db id)
    (awaits : ∀ topic, s.awaits id topic = true → t.awaits id topic = true)
    (read : ∀ topic peer, s.stage topic = .read peer → peer.identifier = id →
      peer.interfaceIdentifier = iface → t.stage topic = .read peer)
    (removes : ∀ topic, (s.stage topic).removes id iface = true →
      (t.stage topic).removes id iface = true)
    (covered : s.Covered id iface) : t.Covered id iface := by
  have wanted : wanted t.db id iface = wanted s.db id iface := by rw [wanted, wanted, stored]
  cases covered with
  | unread unread => exact .unread (unread_mono stored awaits unread)
  | read topic peer stage named there current =>
    exact .read topic peer (read topic peer stage named there) named there (wanted ▸ current)
  | removed topic stage unwanted =>
    exact .removed topic (removes topic stage) (wanted.trans unwanted)

/-- Every difference between the device and the database is covered. -/
structure Consistent (s : State w) : Prop where
  covered : ∀ iface ∈ interfaces s.db, ∀ key : w.Key,
    holds s.devices iface key = wanted s.db (w.keyText key) iface ∨ s.Covered (w.keyText key) iface
  canonical : ∀ row ∈ s.db.peers.rows, ∃ key, w.keyText key = row.identifier
  known : ∀ topic peer, s.stage topic = .read peer → ∃ key, w.keyText key = peer.identifier

theorem toPublicKey_keyText (key : w.Key) : toPublicKey w (w.keyText key) = key := by
  rw [toPublicKey, w.parseKey_keyText, Option.getD_some]

/-- Once all events are handled, nothing is left to cover. -/
theorem Consistent.converged (consistent : Consistent s)
    (handled : ∀ topic, s.queue topic = [] ∧ s.stage topic = .idle) : Converged s := by
  intro iface served key
  have none : ∀ topic, s.awaits (w.keyText key) topic = false := by
    intro topic
    simp [State.awaits, Stage.isUnread, handled topic]
  have settled : holds s.devices iface key = wanted s.db (w.keyText key) iface := by
    rcases consistent.covered iface served key with same | covered
    · exact same
    · cases covered with
      | unread unread => simp [unread_iff, none] at unread
      | read topic peer stage => simp [handled] at stage
      | removed topic stage => simp [handled, Stage.removes] at stage
  rw [settled, wanted, decide_eq_true_eq, place, Option.map_eq_some_iff]
  constructor
  · rintro ⟨row, found, same⟩
    obtain ⟨there, enabled⟩ := Prod.mk.inj same
    have named : row.identifier = w.keyText key := Table.key_of_find found
    exact ⟨row, Table.mem_of_find found, there, enabled, named ▸ w.parseKey_keyText key⟩
  · rintro ⟨row, stored, there, enabled, parsed⟩
    obtain ⟨key', named⟩ := consistent.canonical row stored
    rw [← named, w.parseKey_keyText] at parsed
    rw [Option.some.inj parsed] at named
    have found := Table.find_of_mem stored
    rw [← named] at found
    exact ⟨row, found, by rw [there, enabled]⟩

/-- No read fails, and no call of the controller. -/
def Unfailing (client : Client w) (s : State w) (op : ManagerOp) (c : Circumstance) : Prop :=
  c.fault = none ∧ match op with
    | .savePeer _ iface id merge =>
      (LocalController.savePeer client s.devices iface id merge).1.isOk = true
    | .deletePeer _ iface id => (LocalController.deletePeer client s.devices iface id).1.isOk = true
    | _ => True

/-- What a handler is going to write is still stored, or the peer is handled again. -/
def UpToDate (s : State w) (topic : Topic) (op : ManagerOp) : Prop :=
  match op, s.stage topic with
  | .savePeer .., .read peer =>
    s.Established peer.identifier peer.interfaceIdentifier !peer.isDisabled
  | .deletePeer _ iface id, _ => s.Established (w.keyText (toPublicKey w id)) iface false
  | _, _ => True

/-- The identifier is the text of a key. The peer is on the device of no other interface,
except where a deletion will remove it. -/
def Placed (s : State w) (announced : Bool) (peer : Peer) : Prop :=
  w.keyText (toPublicKey w peer.identifier) = peer.identifier ∧
    if announced then ∀ iface ∈ interfaces s.db, iface ≠ peer.interfaceIdentifier →
      holds s.devices iface (toPublicKey w peer.identifier) = true →
        s.removal peer.identifier iface = true
    else place s.db peer.identifier = some (peer.interfaceIdentifier, peer.isDisabled)

def Commit.Placed (s : State w) (e : Commit) : Prop :=
  match e.change with
  | .create _ _ peer | .update _ _ _ peer =>
    PeerConvergence.Placed s e.change.announced peer
  | .delete _ => True

variable (client) in
/-- The operations of the handlers succeed. -/
def unfailing : Guard Topic Commit Unit ManagerOp Circumstance (State w) where
  env := fun _ _ => True
  start := fun _ _ _ => True
  step := fun s _ op c => Unfailing client s op c

variable (client) in
/-- Besides, handlers write what is up to date, and peers do not change their interface. -/
def guard : Guard Topic Commit Unit ManagerOp Circumstance (State w) where
  env := fun s e => e.Placed s
  start := fun _ _ _ => True
  step := fun s topic op c => Unfailing client s op c ∧ UpToDate s topic op

/-- A handler relies on what it knows. -/
def contract : Contract Topic (State w) where
  inv := Consistent
  rely := fun topic s t => t.stage topic = s.stage topic
  refl := fun _ _ => rfl
  trans := fun _ _ _ _ first second => second.trans first

abbrev Sound (client : Client w) (m : Manager) (topic : Topic) {β : Type} :
    (β → State w → Prop) → ManagerProgram β → State w → Prop :=
  contract.Sound (system client m) (guard client) topic

theorem place_commitPeer (db : Db) (userId : UserIdentifier) (now : Time) (peer : Peer)
    (other : PeerIdentifier) : place (db.commitPeer userId now peer.identifier peer) other =
      if other = peer.identifier then some (peer.interfaceIdentifier, peer.isDisabled)
      else place db other := by
  rw [place, Db.commitPeer_peers]
  by_cases same : other = peer.identifier
  · rw [if_pos same, same, show peer.identifier = (Db.updatedRow userId now peer).identifier from rfl,
      Table.find_upsert_self]
    rfl
  · have found : (db.peers.upsert (Db.updatedRow userId now peer)).find other =
        db.peers.find other := Table.find_upsert_of_ne db.peers (Ne.symm same)
    rw [if_neg same, found, place]

theorem place_deletePeer (db : Db) (id other : PeerIdentifier) :
    place (db.deletePeer id) other = if other = id then none else place db other := by
  by_cases same : other = id
  · rw [if_pos same, same, place, show (db.deletePeer id).peers.find id = none from
      Table.find_filter_self db.peers id, Option.map_none]
  · rw [if_neg same, place, show (db.deletePeer id).peers.find other = db.peers.find other from
      Table.find_filter_of_ne db.peers same, place]

theorem Commit.stage (e : Commit) (s : State w) : (e.apply s).stage = s.stage := rfl

theorem Commit.interfaces (e : Commit) (s : State w) :
    interfaces (e.apply s).db = interfaces s.db := by
  have same : (e.apply s).db.interfaces = s.db.interfaces := by
    unfold Commit.apply Change.apply
    cases e.change with
    | create | update => exact Db.ensurePeerStatus_interfaces ..
    | delete => rfl
  rw [PeerConvergence.interfaces, same, PeerConvergence.interfaces]

/-- Events stay in their queue. -/
theorem Commit.awaits (e : Commit) (topic : Topic) (waiting : s.awaits id topic = true) :
    (e.apply s).awaits id topic = true := by
  rw [awaits_iff] at waiting ⊢
  refine waiting.imp_left fun queued => ?_
  unfold Commit.apply
  split
  · by_cases same : topic = e.topic
    · simp only [same, Function.update_self]
      exact List.mem_append_left _ (same ▸ queued)
    · simpa only [Function.update_of_ne same] using queued
  · exact queued

theorem Commit.awaits_self (e : Commit) (announced : e.change.announced = true) :
    (e.apply s).awaits e.change.id e.topic = true := by
  rw [awaits_iff]
  simp [Commit.apply, announced]

/-- What is covered stays so, where the peer stays stored as it is. -/
theorem Commit.covered (e : Commit) (same : place (e.apply s).db id = place s.db id)
    (covered : s.Covered id iface) : (e.apply s).Covered id iface :=
  covered_mono same (fun topic => e.awaits topic) (fun _ _ stage _ _ => stage)
    (fun _ removes => removes) covered

theorem wanted_of_place {db : Db} {disabled : Bool}
    (stored : place db id = some (iface, disabled)) : wanted db id iface = !disabled := by
  cases disabled <;> simp [wanted, stored]

theorem wanted_elsewhere {db : Db} {there : InterfaceIdentifier} {disabled : Bool}
    (stored : place db id = some (there, disabled)) (ne : iface ≠ there) :
    wanted db id iface = false := by
  simp [wanted, stored, Ne.symm ne]

theorem wanted_of_gone {db : Db} (gone : place db id = none) : wanted db id iface = false := by
  simp [wanted, gone]

/-- A pending deletion covers an interface for which the peer is not stored. -/
theorem covered_of_removal (removal : s.removal id iface = true)
    (unwanted : wanted s.db id iface = false) : s.Covered id iface := by
  simp only [State.removal, Bool.or_eq_true] at removal
  rcases removal with (waiting | removes) | removes
  · exact .unread (unread_iff.mpr (.inl ⟨waiting, unwanted⟩))
  · exact .removed _ removes unwanted
  · exact .removed _ removes unwanted

theorem Commit.removal (e : Commit) (removal : s.removal id iface = true) :
    (e.apply s).removal id iface = true := by
  simp only [State.removal, Bool.or_eq_true, Commit.stage] at removal ⊢
  exact removal.imp_left (Or.imp_left (e.awaits _))

/-- What a commit of a peer preserves. -/
theorem consistent_save {e : Commit} {peer : Peer}
    (stored : ∀ other, place (e.apply s).db other =
      if other = peer.identifier then some (peer.interfaceIdentifier, peer.isDisabled)
      else place s.db other)
    (rows : ∀ row ∈ (e.apply s).db.peers.rows,
      row.identifier = peer.identifier ∨ row ∈ s.db.peers.rows)
    (named : e.change.id = peer.identifier) (topic : e.topic ≠ .peerDeletedSync)
    (placed : Placed s e.change.announced peer) (consistent : Consistent s) :
    Consistent (e.apply s) := by
  refine ⟨fun iface served key => ?_, fun row hrow => ?_, consistent.known⟩
  · rw [e.interfaces] at served
    have before := consistent.covered iface served key
    by_cases other : place (e.apply s).db (w.keyText key) = place s.db (w.keyText key)
    · refine before.imp (fun same => ?_) (e.covered other)
      rw [wanted, other]
      exact same
    · by_cases here : w.keyText key = peer.identifier
      · have now := stored (w.keyText key)
        rw [if_pos here] at now
        by_cases announced : e.change.announced = true
        · have moved := placed.2
          rw [if_pos announced] at moved
          by_cases at_ : iface = peer.interfaceIdentifier
          · right
            rw [at_]
            refine .unread (unread_iff.mpr (.inr (.inl ⟨e.topic, _, topic, ?_, now⟩)))
            rw [here, ← named]
            exact e.awaits_self announced
          · have unwanted := wanted_elsewhere now at_
            cases held : holds s.devices iface key with
            | false => exact .inl (held.trans unwanted.symm)
            | true =>
              have same : toPublicKey w peer.identifier = key := by
                rw [← here, toPublicKey_keyText]
              have removal := moved iface served at_ (same ▸ held)
              rw [← here] at removal
              exact .inr (covered_of_removal (e.removal removal) unwanted)
        · have unmoved := placed.2
          rw [if_neg announced, ← here] at unmoved
          exact absurd (now.trans unmoved.symm) other
      · have same := stored (w.keyText key)
        rw [if_neg here] at same
        exact absurd same other
  · rcases rows row hrow with same | before
    · exact ⟨_, placed.1.trans same.symm⟩
    · exact consistent.canonical row before

theorem rows_commitPeer (db : Db) (userId : UserIdentifier) (now : Time) (peer row : Peer)
    (stored : row ∈ (db.commitPeer userId now peer.identifier peer).peers.rows) :
    row.identifier = peer.identifier ∨ row ∈ db.peers.rows := by
  rw [Db.commitPeer_peers, Table.upsert] at stored
  rcases List.mem_append.mp stored with before | last
  · exact .inr (List.mem_filter.mp before).1
  · rw [List.mem_singleton.mp last]
    exact .inl rfl

theorem consistent_commit {e : Commit} (placed : e.Placed s) (consistent : Consistent s) :
    Consistent (e.apply s) := by
  obtain ⟨change, remote⟩ := e
  cases change with
  | create userId now peer =>
    exact consistent_save (place_commitPeer s.db userId now peer)
      (rows_commitPeer s.db userId now peer) rfl (by cases remote <;> exact (nofun))
      placed consistent
  | update userId now existing peer =>
    exact consistent_save (place_commitPeer s.db userId now peer)
      (rows_commitPeer s.db userId now peer) rfl (by cases remote <;> exact (nofun))
      placed consistent
  | delete id =>
    let e : Commit := ⟨.delete id, remote⟩
    refine ⟨fun iface served key => ?_, fun row hrow => ?_, consistent.known⟩
    · rw [e.interfaces] at served
      have now : place (e.apply s).db (w.keyText key) = _ := place_deletePeer s.db id (w.keyText key)
      by_cases here : w.keyText key = id
      · rw [if_pos here] at now
        have waiting : (e.apply s).awaits (w.keyText key) e.topic = true := by
          rw [here]
          exact e.awaits_self rfl
        refine .inr (.unread (unread_iff.mpr ?_))
        cases remote with
        | true => exact .inr (.inr ⟨waiting, now⟩)
        | false => exact .inl ⟨waiting, wanted_of_gone now⟩
      · rw [if_neg here] at now
        refine (consistent.covered iface served key).imp (fun same => ?_) (e.covered now)
        rw [wanted, now]
        exact same
    · exact consistent.canonical row (List.mem_filter.mp hrow).1

/-- What the unread event of a topic covers. -/
def Promised (s : State w) (topic : Topic) (id : PeerIdentifier) (iface : InterfaceIdentifier) :
    Prop :=
  (topic = .peerDeletedSync ∧ wanted s.db id iface = false) ∨
    (topic ≠ .peerDeletedSync ∧ ∃ disabled, place s.db id = some (iface, disabled)) ∨
    (topic = .peerSyncedLocal ∧ place s.db id = none)

/-- Cover is lost by the handler that goes on only. -/
theorem covered_step {topic : Topic} {stage : Stage} (db : t.db = s.db) (queue : t.queue = s.queue)
    (next : t.stage = Function.update s.stage topic stage)
    (unread : s.stage topic = .unread id → Promised s topic id iface → t.Covered id iface)
    (read : ∀ peer, s.stage topic = .read peer → peer.identifier = id →
      peer.interfaceIdentifier = iface → t.Covered id iface)
    (removes : (s.stage topic).removes id iface = true → wanted s.db id iface = false →
      t.Covered id iface) (covered : s.Covered id iface) : t.Covered id iface := by
  have others : ∀ {other}, other ≠ topic → t.stage other = s.stage other := by
    intro other ne
    rw [next, Function.update_of_ne ne]
  have waits : ∀ {other}, s.awaits id other = true →
      t.awaits id other = true ∨ (other = topic ∧ s.stage topic = .unread id) := by
    intro other waiting
    rw [awaits_iff] at waiting ⊢
    rw [queue]
    rcases waiting with queued | here
    · exact .inl (.inl queued)
    · by_cases same : other = topic
      · exact .inr ⟨same, same ▸ here⟩
      · exact .inl (.inr ((others same).trans here))
  cases covered with
  | unread pending =>
    rcases unread_iff.mp pending with ⟨waiting, unwanted⟩ | ⟨other, disabled, ne, waiting, here⟩ |
      ⟨waiting, gone⟩
    · rcases waits waiting with still | ⟨rfl, now⟩
      · exact .unread (unread_iff.mpr (.inl ⟨still, db ▸ unwanted⟩))
      · exact unread now (.inl ⟨rfl, unwanted⟩)
    · rcases waits waiting with still | ⟨rfl, now⟩
      · exact .unread (unread_iff.mpr (.inr (.inl ⟨other, disabled, ne, still, db ▸ here⟩)))
      · exact unread now (.inr (.inl ⟨ne, disabled, here⟩))
    · rcases waits waiting with still | ⟨rfl, now⟩
      · exact .unread (unread_iff.mpr (.inr (.inr ⟨still, db ▸ gone⟩)))
      · exact unread now (.inr (.inr ⟨rfl, gone⟩))
  | read other peer here named there current =>
    by_cases same : other = topic
    · exact read peer (same ▸ here) named there
    · exact .read other peer ((others same).trans here) named there (db ▸ current)
  | removed other here unwanted =>
    by_cases same : other = topic
    · exact removes (same ▸ here) unwanted
    · exact .removed other ((congrArg (·.removes id iface) (others same)).trans here) (db ▸ unwanted)

/-- A handler that goes on without a write keeps the cover that it gives. -/
theorem keeps_step {topic : Topic} {stage : Stage} (consistent : Consistent s)
    (known : ∀ peer, stage = .read peer → ∃ key, w.keyText key = peer.identifier)
    (covered : ∀ id, ∀ iface ∈ interfaces s.db, s.Covered id iface →
      State.Covered { s with stage := Function.update s.stage topic stage } id iface) :
    contract.Keeps topic s { s with stage := Function.update s.stage topic stage } := by
  refine ⟨⟨fun iface served key => ?_, consistent.canonical, fun other peer here => ?_⟩,
    fun other ne => Function.update_of_ne ne ..⟩
  · exact (consistent.covered iface served key).imp_right (covered _ iface served)
  · by_cases same : other = topic
    · simp only [same, Function.update_self] at here
      exact known peer here
    · simp only [Function.update_of_ne same] at here
      exact consistent.known other peer here

/-- A handler that writes a peer to one interface. -/
theorem keeps_write {topic : Topic} {stage : Stage} {devices : Devices w}
    {there : InterfaceIdentifier} {named : w.Key} {value : Bool} (consistent : Consistent s)
    (written : ∀ iface key, holds devices iface key =
      if iface = there ∧ key = named then value else holds s.devices iface key)
    (established : s.Established (w.keyText named) there value)
    (known : ∀ peer, stage ≠ .read peer)
    (busy : ∀ id, s.stage topic ≠ .unread id)
    (covered : ∀ iface key, ¬ (iface = there ∧ key = named) →
      s.Covered (w.keyText key) iface → State.Covered
        { s with devices := devices, stage := Function.update s.stage topic stage }
        (w.keyText key) iface) :
    contract.Keeps topic s
      { s with devices := devices, stage := Function.update s.stage topic stage } := by
  refine ⟨⟨fun iface served key => ?_, consistent.canonical, fun other peer here => ?_⟩,
    fun other ne => Function.update_of_ne ne ..⟩
  · show holds devices iface key = _ ∨ _
    rw [written]
    split
    · rename_i here
      rw [here.1, here.2]
      rcases established with current | unread
      · exact .inl current
      · refine .inr (.unread (unread_mono (s := s) rfl (fun other => ?_) unread))
        rw [awaits_iff, awaits_iff]
        refine Or.imp_right fun waiting => ?_
        have ne : other ≠ topic := fun same => busy _ (same ▸ waiting)
        simpa only [Function.update_of_ne ne] using waiting
    · rename_i elsewhere
      exact (consistent.covered iface served key).imp_right (covered iface key elsewhere)
  · by_cases same : other = topic
    · simp only [same, Function.update_self] at here
      exact absurd here (known peer)
    · simp only [Function.update_of_ne same] at here
      exact consistent.known other peer here

theorem exec_getPeer (topic : Topic) (id : PeerIdentifier) {c : Circumstance}
    (faultless : c.fault = none) (s : State w) :
    exec client topic (.repo (.getPeer id)) c s = (s.db.getPeer id, { s with
      stage := Function.update s.stage topic
        (record topic (.repo (.getPeer id)) (s.db.getPeer id) (s.stage topic)) }) := by
  simp only [exec, ManagerOp.exec, RepoOp.exec, faultless, RepoOp.answer, RepoOp.apply]

theorem exec_getAllInterfaces (topic : Topic) {c : Circumstance} (faultless : c.fault = none)
    (s : State w) : exec client topic (.repo .getAllInterfaces) c s =
      (.ok s.db.interfaces.rows, { s with
        stage := Function.update s.stage topic
          (record topic (.repo .getAllInterfaces) (.ok s.db.interfaces.rows) (s.stage topic)) }) := by
  simp only [exec, ManagerOp.exec, RepoOp.exec, faultless, RepoOp.answer, RepoOp.apply,
    Db.getAllInterfaces]

theorem exec_savePeer (topic : Topic) (iface : InterfaceIdentifier) (id : PeerIdentifier)
    (merge : PhysicalPeer → Except Error PhysicalPeer) {c : Circumstance}
    (faultless : c.fault = none) (s : State w) :
    (exec client topic (.savePeer localBackendName iface id merge) c s).2 = { s with
      devices := (LocalController.savePeer client s.devices iface id merge).2
      stage := Function.update s.stage topic .idle } := by
  simp only [exec, ManagerOp.exec, faultless, if_true, record]

theorem exec_deletePeer (topic : Topic) (iface : InterfaceIdentifier) (id : PeerIdentifier)
    {left : List InterfaceIdentifier} {c : Circumstance} (faultless : c.fault = none) {s : State w}
    (removing : s.stage topic = .removing id (iface :: left)) :
    (exec client topic (.deletePeer localBackendName iface id) c s).2 = { s with
      devices := (LocalController.deletePeer client s.devices iface id).2
      stage := Function.update s.stage topic (.removing id left) } := by
  simp only [exec, ManagerOp.exec, faultless, if_true, record, removing, List.tail_cons]

/-- A handler at its end covers nothing. -/
def Done (topic : Topic) (_ : Unit) (s : State w) : Prop :=
  s.stage topic = .idle ∨ ∃ id, s.stage topic = .removing id []

theorem sound_done {topic : Topic} (done : Done topic () s) :
    Sound client m topic (Done topic) (.ret ()) s := by
  intro t later _
  have same : t.stage topic = s.stage topic := later
  rwa [Done, same]

theorem sound_saveLocally {topic : Topic} {peer : Peer} (read : s.stage topic = .read peer) :
    Sound client m topic (Done topic) (m.saveLocally peer) s := by
  intro t c later consistent allowed
  have same : t.stage topic = .read peer := Eq.trans later read
  obtain ⟨⟨faultless, ok⟩, upToDate⟩ := allowed
  simp only [UpToDate, same] at upToDate
  obtain ⟨key, named⟩ := consistent.known topic peer same
  have key_eq : toPublicKey w peer.identifier = key := by rw [← named, toPublicKey_keyText]
  have after := @exec_savePeer w client topic peer.interfaceIdentifier peer.identifier
    (fun pp => .ok (mergeToPhysicalPeer pp peer m.cfg.core.forceClientIPAsAllowedIP)) c faultless t
  refine ⟨?_, ?_⟩
  · show contract.Keeps topic t (exec client topic (.savePeer ..) c t).2
    rw [after]
    refine keeps_write consistent (LocalController.holds_savePeer ok) ?_ (fun _ => nofun)
      (fun id => by rw [same]; exact nofun) fun iface key' elsewhere covered => ?_
    · rw [key_eq, named]
      exact upToDate
    · refine covered_step (s := t) rfl rfl rfl (fun unread => ?_) (fun other here own at_ => ?_)
        (fun removes => ?_) covered
      · rw [same] at unread
        cases unread
      · obtain rfl : peer = other := Stage.read.inj (same.symm.trans here)
        refine absurd ⟨at_.symm, ?_⟩ elsewhere
        rw [own, toPublicKey_keyText]
      · rw [same] at removes
        cases removes
  · refine sound_done (.inl ?_)
    show (exec client topic (.savePeer ..) c t).2.stage topic = _
    rw [after]
    exact Function.update_self ..

theorem sound_deleteFromInterfaces {topic : Topic} {id : PeerIdentifier} (ifaces : List Interface)
    (removing : s.stage topic = .removing id (ifaces.map Interface.identifier)) :
    Sound client m topic (Done topic) (deleteFromInterfaces id ifaces) s := by
  induction ifaces generalizing s with
  | nil => exact sound_done (.inr ⟨id, removing⟩)
  | cons iface ifaces ih =>
    intro t c later consistent allowed
    have same : t.stage topic = .removing id (iface.identifier :: ifaces.map Interface.identifier) :=
      Eq.trans later removing
    obtain ⟨⟨faultless, ok⟩, upToDate⟩ := allowed
    have after := @exec_deletePeer w client topic iface.identifier id
      (ifaces.map Interface.identifier) c faultless t same
    refine ⟨?_, ih ?_⟩
    · show contract.Keeps topic t (exec client topic (.deletePeer ..) c t).2
      rw [after]
      refine keeps_write consistent (LocalController.holds_deletePeer ok) upToDate (fun _ => nofun)
        (fun id => by rw [same]; exact nofun) fun there key elsewhere covered => ?_
      refine covered_step (s := t) rfl rfl rfl (fun unread => ?_) (fun other here => ?_)
        (fun removes unwanted => ?_) covered
      · rw [same] at unread
        cases unread
      · rw [same] at here
        cases here
      · rw [same, Stage.removes, Bool.and_eq_true, decide_eq_true_eq, decide_eq_true_eq] at removes
        obtain ⟨named, left⟩ := removes
        have other : there ≠ iface.identifier := by
          intro here
          refine elsewhere ⟨here, ?_⟩
          rw [named, toPublicKey_keyText]
        have left := (List.mem_cons.mp left).resolve_left other
        refine .removed topic ?_ unwanted
        simp only [Function.update_self, Stage.removes, named, left, decide_true, Bool.and_self]
    · show (exec client topic (.deletePeer ..) c t).2.stage topic = _
      rw [after]
      exact Function.update_self ..

/-- A handler that is going to remove the peer everywhere. -/
def Removes (topic : Topic) (id : PeerIdentifier) (s : State w) : Prop :=
  (topic = .peerDeletedSync ∧ s.stage topic = .unread id) ∨ s.stage topic = .missing id

theorem sound_deleteEverywhere {topic : Topic} (removes : Removes topic id s) :
    Sound client m topic (Done topic) (deleteEverywhere id) s := by
  intro t c later consistent allowed
  have same : t.stage topic = s.stage topic := later
  have after := @exec_getAllInterfaces w client topic c allowed.1.1 t
  have stage : record topic (.repo .getAllInterfaces) (.ok t.db.interfaces.rows) (t.stage topic) =
      .removing id (interfaces t.db) := by
    rw [same]
    rcases removes with ⟨_, unread⟩ | missing
    · rw [unread]
      rfl
    · rw [missing]
      rfl
  have reads : (system client m).exec topic (.repo .getAllInterfaces) c t = _ := after
  rw [reads, stage]
  refine ⟨keeps_step consistent (fun _ => nofun) fun other iface served covered => ?_,
    sound_deleteFromInterfaces _ (Function.update_self ..)⟩
  have removing : other = id → wanted t.db id iface = false → State.Covered
      { t with stage := Function.update t.stage topic (.removing id (interfaces t.db)) }
      other iface := by
    intro named unwanted
    refine .removed topic ?_ (named ▸ unwanted)
    simp only [Function.update_self, Stage.removes, named, served, decide_true, Bool.and_self]
  refine covered_step (s := t) rfl rfl rfl (fun unread promised => ?_) (fun peer here => ?_)
    (fun pending unwanted => ?_) covered
  · rw [same] at unread
    rcases removes with ⟨deleted, here⟩ | here
    · obtain rfl : id = other := Stage.unread.inj (here.symm.trans unread)
      rcases promised with ⟨_, unwanted⟩ | ⟨ne, _⟩ | ⟨synced, _⟩
      · exact removing rfl unwanted
      · exact absurd deleted ne
      · cases deleted.symm.trans synced
    · cases here.symm.trans unread
  · rw [same] at here
    rcases removes with ⟨_, unread⟩ | missing
    · cases unread.symm.trans here
    · cases missing.symm.trans here
  · rw [same] at pending
    rcases removes with ⟨_, unread⟩ | missing
    · rw [unread] at pending
      cases pending
    · rw [missing, Stage.removes, decide_eq_true_eq] at pending
      exact removing pending.symm (pending ▸ unwanted)

theorem place_of_peer {db : Db} {peer : Peer} (stored : db.peer id = some peer) :
    place db id = some (peer.interfaceIdentifier, peer.isDisabled) := by
  obtain ⟨row, found, rfl⟩ := Db.find_of_peer stored
  rw [place, found]
  rfl

theorem place_of_none {db : Db} (stored : db.peer id = none) : place db id = none := by
  rw [place, Option.map_eq_none_iff.mp stored, Option.map_none]

/-- Handlers of all topics but that of the deletions. -/
theorem sound_syncStored {topic : Topic} {missing : ManagerProgram Unit}
    (unread : s.stage topic = .unread id) (other : topic ≠ .peerDeletedSync)
    (absent : ∀ t : State w, t.stage topic =
      (if topic = .peerSyncedLocal then .missing id else .idle) →
        Sound client m topic (Done topic) missing t) :
    Sound client m topic (Done topic) (m.syncStored missing id) s := by
  intro t c later consistent allowed
  have same : t.stage topic = .unread id := Eq.trans later unread
  have after := @exec_getPeer w client topic id c allowed.1.1 t
  have reads : (system client m).exec topic (.repo (.getPeer id)) c t = _ := after
  rw [reads]
  have busy : ∀ {iface there : _} {stage : Stage}, (t.stage topic).removes iface there = true →
      State.Covered { t with stage := Function.update t.stage topic stage } iface there := by
    intro iface there stage removes
    rw [same] at removes
    cases removes
  have idle : ∀ {peer : Peer}, t.stage topic ≠ .read peer := fun here => by
    cases same.symm.trans here
  cases stored : t.db.peer id with
  | some peer =>
    have placed := place_of_peer stored
    have named := Db.identifier_of_peer stored
    simp only [Db.getPeer, stored]
    refine ⟨keeps_step consistent (fun read here => ?_) fun x iface _ covered => ?_,
      sound_saveLocally (Function.update_self ..)⟩
    · obtain rfl := Stage.read.inj here
      obtain ⟨row, found, rfl⟩ := Db.find_of_peer stored
      exact consistent.canonical row (Table.mem_of_find found)
    · refine covered_step (s := t) rfl rfl rfl (fun here promised => ?_)
        (fun _ read => absurd read idle) (fun removes _ => busy removes) covered
      obtain rfl : id = x := Stage.unread.inj (same.symm.trans here)
      rcases promised with ⟨deleted, _⟩ | ⟨_, disabled, there⟩ | ⟨_, gone⟩
      · exact absurd deleted other
      · obtain ⟨rfl, rfl⟩ := Prod.mk.inj (Option.some.inj (placed.symm.trans there))
        exact .read topic peer (Function.update_self ..) named rfl (wanted_of_place placed).symm
      · cases placed.symm.trans gone
  | none =>
    have gone := place_of_none stored
    simp only [Db.getPeer, stored]
    refine ⟨keeps_step consistent (fun read here => ?_) fun x iface _ covered => ?_,
      absent _ (Function.update_self ..)⟩
    · simp only [record] at here
      split at here <;> cases here
    · refine covered_step (s := t) rfl rfl rfl (fun here promised => ?_)
        (fun _ read => absurd read idle) (fun removes _ => busy removes) covered
      obtain rfl : id = x := Stage.unread.inj (same.symm.trans here)
      rcases promised with ⟨deleted, _⟩ | ⟨_, disabled, there⟩ | ⟨synced, _⟩
      · exact absurd deleted other
      · cases gone.symm.trans there
      · refine .removed topic ?_ (wanted_of_gone gone)
        simp only [Function.update_self, record, if_pos synced, Stage.removes, decide_true]

theorem sound_handler {topic : Topic} (unread : s.stage topic = .unread id) :
    Sound client m topic (Done topic) (m.handler topic id) s := by
  cases topic with
  | peerCreatedSync | peerUpdatedSync =>
    exact sound_syncStored unread (by decide) fun t idle => sound_done (.inl idle)
  | peerDeletedSync => exact sound_deleteEverywhere (.inl ⟨rfl, unread⟩)
  | peerSyncedLocal =>
    exact sound_syncStored unread (by decide) fun t missing => sound_deleteEverywhere (.inr missing)

/-- A handler that ends keeps the contract. -/
theorem finishes {topic : Topic} (done : Done topic () s) (consistent : Consistent s) :
    contract.Finishes (system client m) topic () s := by
  refine keeps_step consistent (fun _ => nofun) fun id iface _ covered => ?_
  refine covered_step (s := s) rfl rfl rfl (fun unread => ?_) (fun peer read => ?_)
    (fun removes => ?_) covered
  · rcases done with idle | ⟨x, removing⟩
    · cases idle.symm.trans unread
    · cases removing.symm.trans unread
  · rcases done with idle | ⟨x, removing⟩
    · cases idle.symm.trans read
    · cases removing.symm.trans read
  · rcases done with idle | ⟨x, removing⟩
    · rw [idle] at removes
      cases removes
    · rw [removing] at removes
      simp [Stage.removes] at removes

/-- What is known when the handler of a topic starts. -/
theorem start_eq_some {topic : Topic} {prog : ManagerProgram Unit}
    (started : start m topic s = some (prog, t)) : ∃ id rest, s.stage topic = .idle ∧
      s.queue topic = id :: rest ∧ prog = m.handler topic id ∧ t = { s with
        queue := Function.update s.queue topic rest
        stage := Function.update s.stage topic (.unread id) } := by
  unfold start at started
  split at started
  · rename_i id rest idle queued
    obtain ⟨rfl, rfl⟩ := Prod.mk.inj (Option.some.inj started)
    exact ⟨id, rest, idle, queued, rfl, rfl⟩
  · cases started

/-- The event that is taken from the queue is one of the handler now. -/
theorem consistent_start {topic : Topic} {rest : List PeerIdentifier}
    (idle : s.stage topic = .idle) (queued : s.queue topic = id :: rest)
    (consistent : Consistent s) : Consistent { s with
      queue := Function.update s.queue topic rest
      stage := Function.update s.stage topic (.unread id) } := by
  have ne : ∀ {other}, s.stage other ≠ .idle → other ≠ topic :=
    fun busy same => busy (same ▸ idle)
  refine ⟨fun iface served key => ?_, consistent.canonical, fun other peer here => ?_⟩
  · refine (consistent.covered iface served key).imp_right
      (covered_mono (s := s) rfl (fun other waiting => ?_) (fun other peer here _ _ => ?_)
        (fun other removes => ?_))
    · rw [awaits_iff] at waiting ⊢
      by_cases same : other = topic
      · rw [same] at waiting ⊢
        simp only [Function.update_self]
        rcases waiting with before | here
        · rw [queued] at before
          rcases List.mem_cons.mp before with first | later
          · exact .inr (congrArg Stage.unread first.symm)
          · exact .inl later
        · cases idle.symm.trans here
      · simpa only [Function.update_of_ne same] using waiting
    · simpa only [Function.update_of_ne (ne (by rw [here]; exact nofun))] using here
    · have busy : s.stage other ≠ .idle := fun still => by
        rw [still] at removes
        cases removes
      simpa only [Function.update_of_ne (ne busy)] using removes
  · by_cases same : other = topic
    · simp only [same, Function.update_self] at here
      cases here
    · simp only [Function.update_of_ne same] at here
      exact consistent.known other peer here

theorem upheld : Contract.Upheld (system client m) contract (guard client) where
  env := by
    intro e s t consistent placed step
    rw [← Option.some.inj step]
    exact ⟨consistent_commit placed consistent, fun _ => rfl⟩
  start := by
    intro topic _ s prog t consistent _ step
    obtain ⟨id, rest, idle, queued, rfl, rfl⟩ := start_eq_some step
    refine ⟨⟨consistent_start idle queued consistent, fun other ne => Function.update_of_ne ne ..⟩,
      ?_⟩
    exact (sound_handler (Function.update_self ..)).mono fun _ t inv done => finishes done inv

/-- Where no handler runs, none knows anything. -/
theorem idle_of_none {turns : List (Turn Topic Commit Unit Circumstance)} {q : PeerPool w}
    (fresh : ∀ topic, s.stage topic = .idle)
    (run : runFrom (system client m).next (idle s) turns = some q) (topic : Topic)
    (none : q.thread topic = none) : q.shared.stage topic = .idle := by
  have step : ∀ (p : PeerPool w) turn q, (∀ topic, p.thread topic = Option.none →
      p.shared.stage topic = .idle) → True → (system client m).next p turn = some q →
        ∀ topic, q.thread topic = Option.none → q.shared.stage topic = .idle := by
    intro p turn q before _ taken topic gone
    cases turn with
    | env e =>
      rw [← Option.some.inj taken] at gone ⊢
      exact before topic gone
    | start other call =>
      simp only [next] at taken
      split at taken
      · cases taken
      · obtain ⟨⟨prog, t⟩, started, rfl⟩ := Option.map_eq_some_iff.mp taken
        obtain ⟨id, rest, _, _, rfl, rfl⟩ := start_eq_some started
        have ne : topic ≠ other := by
          rintro rfl
          simp at gone
        simp only [Function.update_of_ne ne] at gone ⊢
        exact before topic gone
    | step other c =>
      simp only [next] at taken
      split at taken
      · cases taken
      · rw [← Option.some.inj taken] at gone ⊢
        by_cases same : topic = other
        · rw [same]
          exact Function.update_self ..
        · simp only [Function.update_of_ne same] at gone
          exact (Function.update_of_ne same ..).trans (before topic gone)
      · rw [← Option.some.inj taken] at gone ⊢
        have ne : topic ≠ other := by
          rintro rfl
          simp at gone
        simp only [Function.update_of_ne ne] at gone
        exact (Function.update_of_ne ne ..).trans (before topic gone)
  exact run_invariant step (guarded_of_all (fun _ _ => trivial) _ turns) run
    (fun topic _ => fresh topic) topic none

/-- No event is queued, and no handler runs. -/
def Handled (q : PeerPool w) : Prop :=
  ∀ topic, q.shared.queue topic = [] ∧ q.thread topic = none

/-- In a run in which the handlers write what is up to date and no peer is moved while it is
on the device, the device has exactly the enabled peers once all events are handled. -/
theorem guarded_run_converged (client : Client w) (m : Manager) {s : State w}
    (fresh : ∀ topic, s.stage topic = .idle) (consistent : Consistent s)
    {turns : List (Turn Topic Commit Unit Circumstance)} {q : PeerPool w}
    (guarded : Guarded (system client m).next (guard client).turn (idle s) turns)
    (run : runFrom (system client m).next (idle s) turns = some q) (handled : Handled q) :
    Converged q.shared := by
  have invariant : Consistent q.shared := Contract.preserved upheld consistent guarded run
  exact invariant.converged fun topic =>
    ⟨(handled topic).1, idle_of_none fresh run topic (handled topic).2⟩

instance (s : State w) (op : ManagerOp) (c : Circumstance) : Decidable (Unfailing client s op c) :=
  match op with
  | .savePeer _ iface id merge => inferInstanceAs (Decidable (c.fault = none ∧
      (LocalController.savePeer client s.devices iface id merge).1.isOk = true))
  | .deletePeer _ iface id => inferInstanceAs (Decidable (c.fault = none ∧
      (LocalController.deletePeer client s.devices iface id).1.isOk = true))
  | .repo _ | .lock _ | .getPeers _ | .timeNow | .newFreshKeypair | .newPreSharedKey
  | .publish _ => inferInstanceAs (Decidable (c.fault = none ∧ True))

instance (s : State w) (topic : Topic) (op : ManagerOp) : Decidable (UpToDate s topic op) := by
  unfold UpToDate
  split <;> infer_instance

instance (s : State w) (e : Commit) : Decidable (e.Placed s) := by
  unfold Commit.Placed Placed
  split <;> infer_instance

instance (s : State w) (e : Commit) : Decidable ((guard client).env s e) :=
  inferInstanceAs (Decidable (e.Placed s))

instance (s : State w) (topic : Topic) (call : Unit) :
    Decidable ((guard client).start s topic call) := isTrue trivial

instance (s : State w) (topic : Topic) (op : ManagerOp) (c : Circumstance) :
    Decidable ((guard client).step s topic op c) :=
  inferInstanceAs (Decidable (Unfailing client s op c ∧ UpToDate s topic op))

instance (s : State w) (e : Commit) : Decidable ((unfailing client).env s e) := isTrue trivial

instance (s : State w) (topic : Topic) (call : Unit) :
    Decidable ((unfailing client).start s topic call) := isTrue trivial

instance (s : State w) (topic : Topic) (op : ManagerOp) (c : Circumstance) :
    Decidable ((unfailing client).step s topic op c) :=
  inferInstanceAs (Decidable (Unfailing client s op c))

/-- A node with one interface and no peers. -/
def noPeers : State plainTypes :=
  let world := oneInterface Device.empty []
  ⟨world.db, world.devices, fun _ => [], fun _ => .idle⟩

theorem noPeers_consistent : Consistent noPeers where
  covered := by
    intro iface _ key
    left
    have gone : wanted noPeers.db (plainTypes.keyText key) iface = false := rfl
    rw [gone, holds]
    by_cases same : iface = "wg0"
    · rw [same]
      rfl
    · have missing : noPeers.devices iface = none := if_neg same
      rw [missing]
  canonical := fun _ stored => by cases stored
  known := fun _ _ read => by cases read

abbrev sample : System Topic Commit Unit ManagerOp ManagerOp.Res Circumstance Unit
    (State plainTypes) := system (plainClient plainTypes) singleNode

abbrev SampleTurn := Turn Topic Commit Unit Circumstance

/-- The handler of a topic takes an event and does this many operations. -/
def handle (topic : Topic) (n : ℕ) : List SampleTurn :=
  .start topic () :: List.replicate n (.step topic (calm 0))

/-- A peer is created and updated by this node. -/
def created : SampleTurn := .env ⟨.create "admin" 0 (enabledPeer key), false⟩

def renamed : SampleTurn :=
  .env ⟨.update "admin" 10 (enabledPeer key) { enabledPeer key with displayName := "renamed" }, false⟩

def deleted : SampleTurn := .env ⟨.delete key, false⟩

def queues (q : PeerPool plainTypes) : Bool :=
  [Topic.peerCreatedSync, .peerUpdatedSync, .peerDeletedSync, .peerSyncedLocal].all
    fun topic => (q.shared.queue topic).isEmpty && (q.thread topic).isNone

theorem handled_of_queues {q : PeerPool plainTypes} (empty : queues q = true) : Handled q := by
  simp only [queues, List.all_cons, List.all_nil, Bool.and_true, Bool.and_eq_true,
    List.isEmpty_iff, Option.isNone_iff_eq_none] at empty
  intro topic
  cases topic with
  | peerCreatedSync => exact empty.1
  | peerUpdatedSync => exact empty.2.1
  | peerDeletedSync => exact empty.2.2.1
  | peerSyncedLocal => exact empty.2.2.2

/-- A rename is handled before the peer is deleted. -/
def inOrder : List SampleTurn :=
  created :: renamed :: handle .peerCreatedSync 1 ++ handle .peerUpdatedSync 3 ++
    [.step .peerCreatedSync (calm 0), .step .peerCreatedSync (calm 0)] ++
    deleted :: handle .peerDeletedSync 3

theorem inOrder_converged : ∃ q, runFrom sample.next (idle noPeers) inOrder = some q ∧
    Handled q ∧ Converged q.shared := by
  have run : (runFrom sample.next (idle noPeers) inOrder).map queues = some true := by
    decide +kernel
  obtain ⟨q, reached, empty⟩ := Option.map_eq_some_iff.mp run
  have handled := handled_of_queues empty
  exact ⟨q, reached, handled, guarded_run_converged _ _ (fun _ => rfl) noPeers_consistent
    (by decide +kernel) reached handled⟩

/-- The handler of the rename has read the peer, which then is deleted, and saves it last. -/
def overtaken : List SampleTurn :=
  created :: handle .peerCreatedSync 3 ++ renamed :: handle .peerUpdatedSync 1 ++
    deleted :: handle .peerDeletedSync 3 ++
    [.step .peerUpdatedSync (calm 0), .step .peerUpdatedSync (calm 0)]

/-- The deleted peer stays on the device. -/
theorem overtaken_not_converged : ∃ q, runFrom sample.next (idle noPeers) overtaken = some q ∧
    Guarded sample.next (unfailing (plainClient plainTypes)).turn (idle noPeers) overtaken ∧
    Handled q ∧ ¬ Converged q.shared := by
  have run : (runFrom sample.next (idle noPeers) overtaken).map (fun q =>
      (queues q, holds q.shared.devices "wg0" (toPublicKey plainTypes key),
        q.shared.db.peers.rows, interfaces q.shared.db)) = some (true, true, [], ["wg0"]) := by
    decide +kernel
  obtain ⟨q, reached, facts⟩ := Option.map_eq_some_iff.mp run
  simp only [Prod.mk.injEq] at facts
  obtain ⟨empty, held, rows, served⟩ := facts
  refine ⟨q, reached, by decide +kernel, handled_of_queues empty, fun converged => ?_⟩
  obtain ⟨row, stored, _⟩ := (converged "wg0" (by rw [served]; decide) _).mp held
  rw [rows] at stored
  cases stored

end WgPortal.WireGuard.PeerConvergence
