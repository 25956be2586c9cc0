import WgPortal.Adapters.StatusCalls
import WgPortal.Domain.PhysicalPeer
import WgPortal.WireGuard.Manager

/-! The collector of peer statistics of a node: what it reads from the devices and
writes to the statuses. A transaction on a status is one operation here; it tells
which statuses its update function was given. -/

namespace WgPortal.WireGuard

open Domain Library Adapters Config

/-- An update function that looks at the clock and does not fail. -/
structure StatusChange where
  apply : Time → PeerStatus → PeerStatus
  peerId : ∀ now old, (apply now old).peerId = old.peerId

def StatusChange.update (f : StatusChange) (now : Time) : StatusUpdate where
  apply := fun old => .ok (f.apply now old)
  peerId := by
    intro old new updated
    rw [← Except.ok.inj updated, f.peerId]

/-- One call of an update function. -/
structure Seen where
  now : Time
  status : PeerStatus

/-- The calls of the update function, one for each attempt that got so far. -/
structure Transacted where
  seen : List Seen
  result : Except Error Unit

/-- Which function of the collector asks. -/
inductive Purpose where
  | refresh
  | disconnect
deriving DecidableEq

inductive StatsOp where
  | timeNow
  | getAllInterfaces
  /-- `GetPeers` of the controller of the interface -/
  | getPeers (iface : Interface)
  | getPeer (purpose : Purpose) (id : PeerIdentifier)
  | updatePeerStatus (purpose : Purpose) (id : PeerIdentifier) (updateFunc : StatusChange)
  | claimPeerStatus (id : PeerIdentifier) (ownerNodeId : String) (updateFunc : StatusChange)
  | updatePeerMetricsValues (peer : Peer) (status : PeerStatus)
  | removePeerMetricsByID (id : PeerIdentifier)
  | registerPeerMetrics (peer : Peer)
  /-- `app.TopicPeerStateChanged` -/
  | publish (status : PeerStatus) (peer : Peer)

abbrev StatsOp.Res : StatsOp → Type
  | timeNow => Time
  | getAllInterfaces => Except Error (List Interface)
  | getPeers _ => Except Error (List PhysicalPeer)
  | getPeer .. => Except Error Peer
  | updatePeerStatus .. => Transacted
  | claimPeerStatus .. => Transacted
  | _ => Unit

abbrev StatsProgram := Program StatsOp StatsOp.Res

def StatsProgram.issue (op : StatsOp) : StatsProgram op.Res := .call op .ret

/-- What is not determined by the database and the devices: the time of an update
function (or of the operation), the time of the repository, a failure and the
attempts of a transaction before the last one. -/
structure Occasion where
  now : Time
  began : Time
  fault : Option Error
  seen : List Seen

/-- The status that a transaction hands to its update function. -/
def readStatus (db : Db) (id : PeerIdentifier) (now : Time) : PeerStatus :=
  (db.peerStatuses.find id).getD (PeerStatus.fresh id now)

theorem readStatus_peerId (db : Db) (id : PeerIdentifier) (began : Time) :
    (readStatus db id began).peerId = id := by
  unfold readStatus
  cases found : db.peerStatuses.find id with
  | none => rfl
  | some row => exact Table.key_of_find found

/-- `UpdatePeerStatus`: what it tells, and the row that it writes. A transaction
that fails writes none, and neither does one for a peer that is not stored. -/
def updateStatus (cfg : Config) (o : Occasion) (id : PeerIdentifier) (updateFunc : StatusChange)
    (db : Db) : Transacted × Option PeerStatus :=
  match o.fault with
  | some err => (⟨o.seen, .error err⟩, none)
  | none =>
    match db.peers.find id with
    | none => (⟨o.seen, .ok ()⟩, none)
    | some _ =>
      let old := readStatus db id o.began
      (⟨o.seen ++ [⟨o.now, old⟩], .ok ()⟩,
        some (ownedUpdate cfg.core.clusterNodeId old (updateFunc.apply o.now old)))

/-- The status that `ClaimPeerStatus` hands to its update function. -/
def claimedStatus (db : Db) (id : PeerIdentifier) (ownerNodeId : String) (began : Time) :
    PeerStatus :=
  { readStatus db id began with ownerNodeId := ownerNodeId, updatedAt := began }

def claimStatus (o : Occasion) (id : PeerIdentifier) (ownerNodeId : String)
    (updateFunc : StatusChange) (db : Db) : Transacted × Option PeerStatus :=
  if ownerNodeId = "" then (⟨[], .error (.other "ownerNodeId cannot be empty")⟩, none)
  else
    match o.fault with
    | some err => (⟨o.seen, .error err⟩, none)
    | none =>
      if db.peerStatuses.find id = none ∧ db.peers.find id = none then
        (⟨o.seen, .error (.other ("cannot create peer_status for deleted peer: " ++ id))⟩, none)
      else
        let old := claimedStatus db id ownerNodeId o.began
        (⟨o.seen ++ [⟨o.now, old⟩], .ok ()⟩,
          some { updateFunc.apply o.now old with ownerNodeId := ownerNodeId })

def storeStatus (db : Db) : Option PeerStatus → Db
  | none => db
  | some row => StatusCalls.Db.putStatus db row

/-- The row that an operation writes. -/
def StatsOp.row (cfg : Config) (o : Occasion) (db : Db) : StatsOp → Option PeerStatus
  | updatePeerStatus _ id updateFunc => (updateStatus cfg o id updateFunc db).2
  | claimPeerStatus id ownerNodeId updateFunc => (claimStatus o id ownerNodeId updateFunc db).2
  | _ => none

def StatsOp.answer (cfg : Config) (devices : InterfaceIdentifier → List PhysicalPeer)
    (o : Occasion) (db : Db) : (op : StatsOp) → op.Res
  | timeNow => o.now
  | getAllInterfaces =>
    match o.fault with
    | some err => .error err
    | none => .ok db.getAllInterfaces
  | getPeers iface =>
    match o.fault with
    | some err => .error err
    | none => .ok (devices iface.identifier)
  | getPeer _ id =>
    match o.fault with
    | some err => .error err
    | none => db.getPeer id
  | updatePeerStatus _ id updateFunc => (updateStatus cfg o id updateFunc db).1
  | claimPeerStatus id ownerNodeId updateFunc => (claimStatus o id ownerNodeId updateFunc db).1
  | updatePeerMetricsValues .. => ()
  | removePeerMetricsByID _ => ()
  | registerPeerMetrics _ => ()
  | publish .. => ()

theorem reads_iff {db : Db} {id : PeerIdentifier} {row : PeerStatus}
    (known : db.peerStatuses.find id ≠ none ∨ db.peers.find id ≠ none) :
    StatusCalls.Reads db id row ↔ ∃ began, row = readStatus db id began := by
  cases found : db.peerStatuses.find id with
  | some status =>
    have read : ∀ began, readStatus db id began = status := fun began => by
      rw [readStatus, found, Option.getD_some]
    simp only [read, exists_const]
    constructor
    · rintro (stored | ⟨created, rfl⟩)
      · exact Option.some.inj (stored.symm.trans found)
      · exact absurd (found.symm.trans created.missing) (by simp)
    · rintro rfl
      exact .inl found
  | none =>
    have read : ∀ began, readStatus db id began = PeerStatus.fresh id began := fun began => by
      rw [readStatus, found, Option.getD_none]
    simp only [read]
    constructor
    · rintro (stored | ⟨created, rfl⟩)
      · exact absurd (stored.symm.trans found) (by simp)
      · exact created.fresh
    · rintro ⟨began, rfl⟩
      exact .inr ⟨⟨found, known.resolve_left (fun h => h found), began, rfl⟩, rfl⟩

/-- The operation has the outcomes that the call has, statement by statement. -/
theorem updated_iff (cfg : Config) (id : PeerIdentifier) (f : StatusChange) (now : Time)
    (db db' : Db) :
    StatusCalls.Updated cfg id (f.update now) db db' ↔ ∃ began,
      storeStatus db (updateStatus cfg ⟨now, began, none, []⟩ id f db).2 = db' := by
  cases peer : db.peers.find id with
  | none =>
    simp only [updateStatus, peer, storeStatus, exists_const]
    constructor
    · rintro (_ | ⟨stored, _, _⟩)
      · rfl
      · exact absurd peer stored
    · rintro rfl
      exact .skipped peer
  | some row =>
    have stored : db.peers.find id ≠ none := by simp [peer]
    simp only [updateStatus, peer, storeStatus]
    constructor
    · rintro (gone | ⟨_, read, updated⟩)
      · exact absurd gone stored
      · obtain ⟨began, rfl⟩ := (reads_iff (.inr stored)).mp read
        exact ⟨began, by rw [← Except.ok.inj updated]⟩
    · rintro ⟨began, rfl⟩
      exact .stored stored ((reads_iff (.inr stored)).mpr ⟨began, rfl⟩) rfl

theorem claimed_iff {id : PeerIdentifier} {ownerNodeId : String} (f : StatusChange) (now : Time)
    {db db' : Db} (named : ownerNodeId ≠ "")
    (known : db.peerStatuses.find id ≠ none ∨ db.peers.find id ≠ none) :
    StatusCalls.Claimed id ownerNodeId (f.update now) db db' ↔ ∃ began,
      storeStatus db (claimStatus ⟨now, began, none, []⟩ id ownerNodeId f db).2 = db' := by
  have unknown : ¬ (db.peerStatuses.find id = none ∧ db.peers.find id = none) := by tauto
  simp only [claimStatus, named, unknown, if_false, storeStatus]
  constructor
  · intro claimed
    cases claimed with
    | @stored old new began _ read updated =>
      refine ⟨began, ?_⟩
      obtain ⟨created, rfl⟩ := (reads_iff known).mp read
      -- the time at which a status was created does not outlast the claim
      have same : ∀ t, { readStatus db id t with ownerNodeId := ownerNodeId, updatedAt := began } =
          claimedStatus db id ownerNodeId began := by
        intro t
        cases found : db.peerStatuses.find id <;>
          simp [claimedStatus, readStatus, found, PeerStatus.fresh]
      rw [same] at updated
      rw [← Except.ok.inj updated]
  · rintro ⟨began, rfl⟩
    exact .stored named ((reads_iff known).mpr ⟨began, rfl⟩) rfl

open StatsProgram (issue)

/-- A peer that never had a handshake has none. -/
def lastHandshake (wgPeer : PhysicalPeer) : Option Time :=
  if wgPeer.lastHandshake.isZero then none else some wgPeer.lastHandshake

/-- The data of the device in a status. -/
def measured (wgPeer : PhysicalPeer) (now : Time) (p : PeerStatus) : PeerStatus :=
  { p with
    updatedAt := now
    lastHandshake := lastHandshake wgPeer
    endpoint := wgPeer.endpoint
    bytesReceived := wgPeer.bytesUpload
    bytesTransmitted := wgPeer.bytesDownload }

/-- Without ping checks nobody is pingable. -/
def forcePingable (cfg : Config) (p : PeerStatus) : PeerStatus :=
  if cfg.statistics.usePingChecks then p else { p with isPingable := false }

theorem forcePingable_peerId (cfg : Config) (p : PeerStatus) :
    (forcePingable cfg p).peerId = p.peerId := by
  unfold forcePingable
  split <;> rfl

/-- The update function for a new connection. -/
def connecting (cfg : Config) (wgPeer : PhysicalPeer) : StatusChange where
  apply := fun now p =>
    (forcePingable cfg
      { measured wgPeer now p with lastSessionStart := lastHandshake wgPeer }).calcConnected now
  peerId := fun _ _ => forcePingable_peerId ..

/-- The update function for a connection that is known. -/
def refreshing (cfg : Config) (wgPeer : PhysicalPeer) : StatusChange where
  apply := fun now p => forcePingable cfg (measured wgPeer now p)
  peerId := fun _ _ => forcePingable_peerId ..

/-- The update function for a peer that is gone. -/
def disconnecting : StatusChange where
  apply := fun now p =>
    { p with
      bytesReceived := if p.isConnected || p.isPingable then 0 else p.bytesReceived
      bytesTransmitted := if p.isConnected || p.isPingable then 0 else p.bytesTransmitted
      isConnected := false
      isPingable := false
      lastHandshake := none
      updatedAt := now }
  peerId := fun _ _ => rfl

/-- The update function of the ping workers. -/
def pinging (wgPeer : PhysicalPeer) : StatusChange where
  apply := fun now p => (measured wgPeer now p).calcConnected now
  peerId := fun _ _ => rfl

/-- `domain.PeerStatus{}` -/
def noStatus : PeerStatus := PeerStatus.fresh "" 0

/-- The variables that update functions set in the function they are from. -/
structure Captured where
  stateChanged : Bool
  newStatus : PeerStatus
  lastStatus : PeerStatus

def changes (f : StatusChange) (seen : Seen) : Bool :=
  seen.status.isConnected != (f.apply seen.now seen.status).isConnected

def capture (f : StatusChange) (c : Captured) (seen : Seen) : Captured where
  stateChanged := c.stateChanged || changes f seen
  newStatus := if changes f seen then f.apply seen.now seen.status else c.newStatus
  lastStatus := f.apply seen.now seen.status

def captured (f : StatusChange) (seen : List Seen) : Captured :=
  seen.foldl (capture f) ⟨false, noStatus, noStatus⟩

def updatePeerMetrics (cfg : Config) (status : PeerStatus) (stateChanged : Bool) (peer : Peer) :
    StatsProgram Unit := do
  issue (.updatePeerMetricsValues peer status)
  if status.isConnected then issue (.registerPeerMetrics peer)
  else if stateChanged && cfg.statistics.onlyExportConnectedPeers then
    issue (.removePeerMetricsByID status.peerId)

/-- The metrics and the event after an update of a peer. Metrics of a peer that is
offline are only updated when it went offline. -/
def report (cfg : Config) (c : Captured) (dbPeer : Peer) : StatsProgram Unit := do
  if c.lastStatus.isConnected then updatePeerMetrics cfg c.lastStatus c.stateChanged dbPeer
  else if c.stateChanged then updatePeerMetrics cfg c.lastStatus true dbPeer
  if c.stateChanged || c.lastStatus.isConnected then issue (.publish c.newStatus dbPeer)

def updatePeerFromWireGuard (cfg : Config) (wgPeer : PhysicalPeer) (isNewConnection : Bool) :
    StatsProgram Unit := do
  match ← issue (.getPeer .refresh wgPeer.identifier) with
  | .error _ => return ()
  | .ok dbPeer =>
    let f := if isNewConnection then connecting cfg wgPeer else refreshing cfg wgPeer
    let done ← if isNewConnection then
        issue (.claimPeerStatus wgPeer.identifier cfg.core.clusterNodeId f)
      else issue (.updatePeerStatus .refresh wgPeer.identifier f)
    match done.result with
    | .error _ => return ()
    | .ok _ => report cfg (captured f done.seen) dbPeer

def markPeerDisconnected (cfg : Config) (peerID : PeerIdentifier) : StatsProgram Unit := do
  match ← issue (.getPeer .disconnect peerID) with
  | .error _ => return ()
  | .ok peer =>
    let done ← issue (.updatePeerStatus .disconnect peerID disconnecting)
    match done.result with
    | .error _ => return ()
    | .ok _ => updatePeerMetrics cfg (captured disconnecting done.seen).lastStatus true peer

/-- What a ping worker does with a job. -/
def pingWorker (cfg : Config) (physicalPeer : PhysicalPeer) (jobPeer : Peer) :
    StatsProgram Unit := do
  let done ← issue (.updatePeerStatus .refresh physicalPeer.identifier (pinging physicalPeer))
  let c := captured (pinging physicalPeer) done.seen
  match done.result with
  | .error _ => pure ()
  | .ok _ =>
    match ← issue (.getPeer .refresh c.newStatus.peerId) with
    | .error _ => pure ()
    | .ok peer => updatePeerMetrics cfg c.newStatus c.stateChanged peer
  if c.stateChanged then issue (.publish c.newStatus jobPeer)

/-- A handshake of the last two minutes. -/
def isActive (now : Time) (peer : PhysicalPeer) : Bool :=
  !peer.lastHandshake.isZero && peer.lastHandshake.after (now - 2 * minute)

def filterActivePeers (allPeers : List PhysicalPeer) : StatsProgram (List PhysicalPeer) := do
  if allPeers.isEmpty then return allPeers
  let now ← issue .timeNow
  return allPeers.filter (isActive now)

/-- `activeConnectedPeers` -/
abbrev ActivePeers := InterfaceIdentifier → List PeerIdentifier

/-- The active peers of an interface, one after the other. -/
def refreshPeers (cfg : Config) (known : List PeerIdentifier) : List PhysicalPeer → StatsProgram Unit
  | [] => return ()
  | wgPeer :: wgPeers => do
    updatePeerFromWireGuard cfg wgPeer (wgPeer.identifier ∉ known)
    refreshPeers cfg known wgPeers

def markPeersDisconnected (cfg : Config) : List PeerIdentifier → StatsProgram Unit
  | [] => return ()
  | id :: ids => do
    markPeerDisconnected cfg id
    markPeersDisconnected cfg ids

/-- The round of the loop for one interface, with whether its peers were fetched. -/
def collectInterface (cfg : Config) (order : MapOrder PeerIdentifier) (cache : ActivePeers)
    (iface : Interface) : StatsProgram (ActivePeers × Bool) := do
  match ← issue (.getPeers iface) with
  | .error _ => return (cache, false)
  | .ok wgPeers =>
    let activePeers ← filterActivePeers wgPeers
    let currentActivePeers := (activePeers.map PhysicalPeer.identifier).dedup
    refreshPeers cfg (cache iface.identifier) activePeers
    markPeersDisconnected cfg
      ((order.order (cache iface.identifier)).filter (· ∉ currentActivePeers))
    return (Function.update cache iface.identifier currentActivePeers, true)

def collectInterfaces (cfg : Config) (order : MapOrder PeerIdentifier) (cache : ActivePeers) :
    List Interface → StatsProgram (ActivePeers × Bool)
  | [] => return (cache, true)
  | iface :: ifaces => do
    let (cache, fetched) ← collectInterface cfg order cache iface
    let (cache, rest) ← collectInterfaces cfg order cache ifaces
    return (cache, fetched && rest)

/-- One tick of the collector: the active peers it knows afterwards, and whether all
that it asked for was fetched. -/
def collectPeerData (cfg : Config) (order : MapOrder PeerIdentifier) (cache : ActivePeers) :
    StatsProgram (ActivePeers × Bool) := do
  match ← issue .getAllInterfaces with
  | .error _ => return (cache, false)
  | .ok interfaces => collectInterfaces cfg order cache interfaces

/-- Metrics and events. -/
def StatsOp.Reports : StatsOp → Prop
  | updatePeerMetricsValues .. => True
  | removePeerMetricsByID _ => True
  | registerPeerMetrics _ => True
  | publish .. => True
  | _ => False

section Uses

variable {cfg : Config} {P : StatsOp → Prop}

theorem uses_issue {op : StatsOp} (fits : P op) : (issue op).Uses P := ⟨fits, fun _ => trivial⟩

theorem uses_updatePeerMetrics (reports : ∀ op : StatsOp, op.Reports → P op) (status : PeerStatus)
    (stateChanged : Bool) (peer : Peer) :
    (updatePeerMetrics cfg status stateChanged peer).Uses P := by
  unfold updatePeerMetrics
  refine (uses_issue (reports (.updatePeerMetricsValues peer status) trivial)).bind fun _ => ?_
  split
  · exact uses_issue (reports (.registerPeerMetrics peer) trivial)
  · split
    · exact uses_issue (reports (.removePeerMetricsByID status.peerId) trivial)
    · trivial

theorem uses_report (reports : ∀ op : StatsOp, op.Reports → P op) (captured : Captured)
    (dbPeer : Peer) : (report cfg captured dbPeer).Uses P := by
  have publish : (issue (.publish captured.newStatus dbPeer)).Uses P :=
    uses_issue (reports (.publish captured.newStatus dbPeer) trivial)
  unfold report
  cases online : captured.lastStatus.isConnected with
  | true =>
    simp only [Bool.or_true, if_true]
    exact (uses_updatePeerMetrics reports ..).bind fun _ => publish
  | false =>
    cases changed : captured.stateChanged with
    | true =>
      simp only [Bool.or_false, if_true, Bool.false_eq_true, if_false]
      exact (uses_updatePeerMetrics reports ..).bind fun _ => publish
    | false => trivial

theorem uses_updatePeerFromWireGuard (reports : ∀ op : StatsOp, op.Reports → P op)
    {wgPeer : PhysicalPeer} (get : P (.getPeer .refresh wgPeer.identifier))
    (claim : P (.claimPeerStatus wgPeer.identifier cfg.core.clusterNodeId (connecting cfg wgPeer)))
    (update : P (.updatePeerStatus .refresh wgPeer.identifier (refreshing cfg wgPeer)))
    (isNewConnection : Bool) : (updatePeerFromWireGuard cfg wgPeer isNewConnection).Uses P := by
  unfold updatePeerFromWireGuard
  refine (uses_issue get).bind fun answer => ?_
  cases answer with
  | error err => trivial
  | ok dbPeer =>
    have rest : ∀ (done : Transacted) (f : StatusChange), (match done.result with
        | .error _ => pure ()
        | .ok _ => report cfg (captured f done.seen) dbPeer : StatsProgram Unit).Uses P := by
      intro done f
      cases done.result with
      | error err => trivial
      | ok _ => exact uses_report reports ..
    cases isNewConnection with
    | true => exact (uses_issue claim).bind fun done => rest done _
    | false => exact (uses_issue update).bind fun done => rest done _

theorem uses_refreshPeers (reports : ∀ op : StatsOp, op.Reports → P op)
    (get : ∀ id, P (.getPeer .refresh id)) {wgPeers : List PhysicalPeer}
    (claim : ∀ wgPeer ∈ wgPeers, P (.claimPeerStatus wgPeer.identifier cfg.core.clusterNodeId
      (connecting cfg wgPeer)))
    (update : ∀ wgPeer, P (.updatePeerStatus .refresh wgPeer.identifier (refreshing cfg wgPeer)))
    (known : List PeerIdentifier) : (refreshPeers cfg known wgPeers).Uses P := by
  induction wgPeers with
  | nil => trivial
  | cons wgPeer wgPeers ih =>
    have first := claim wgPeer List.mem_cons_self
    refine (uses_updatePeerFromWireGuard reports (get _) first (update _) _).bind fun _ => ?_
    exact ih fun other listed => claim other (List.mem_cons_of_mem _ listed)

/-- What a cycle of the collector may issue. -/
structure Issues (cfg : Config) (P : StatsOp → Prop) : Prop where
  reports : ∀ op : StatsOp, op.Reports → P op
  reads : ∀ op : StatsOp, op = .timeNow ∨ op = .getAllInterfaces ∨ (∃ iface, op = .getPeers iface) ∨
    (∃ purpose id, op = .getPeer purpose id) → P op
  claim : ∀ wgPeer, P (.claimPeerStatus wgPeer.identifier cfg.core.clusterNodeId
    (connecting cfg wgPeer))
  update : ∀ wgPeer, P (.updatePeerStatus .refresh wgPeer.identifier (refreshing cfg wgPeer))
  mark : ∀ id, P (.updatePeerStatus .disconnect id disconnecting)

theorem uses_markPeerDisconnected (issues : Issues cfg P) (peerID : PeerIdentifier) :
    (markPeerDisconnected cfg peerID).Uses P := by
  unfold markPeerDisconnected
  refine (uses_issue (issues.reads _ (.inr (.inr (.inr ⟨_, _, rfl⟩))))).bind fun answer => ?_
  cases answer with
  | error err => trivial
  | ok peer =>
    refine (uses_issue (issues.mark peerID)).bind fun done => ?_
    cases done.result with
    | error err => trivial
    | ok _ => exact uses_updatePeerMetrics issues.reports ..

theorem uses_markPeersDisconnected (issues : Issues cfg P) (ids : List PeerIdentifier) :
    (markPeersDisconnected cfg ids).Uses P := by
  induction ids with
  | nil => trivial
  | cons id ids ih => exact (uses_markPeerDisconnected issues id).bind fun _ => ih

theorem uses_filterActivePeers (issues : Issues cfg P) (allPeers : List PhysicalPeer) :
    (filterActivePeers allPeers).Uses P := by
  unfold filterActivePeers
  split
  · trivial
  · exact (uses_issue (issues.reads _ (.inl rfl))).bind fun _ => trivial

theorem uses_collectInterfaces (issues : Issues cfg P) (order : MapOrder PeerIdentifier)
    (cache : ActivePeers) (ifaces : List Interface) :
    (collectInterfaces cfg order cache ifaces).Uses P := by
  induction ifaces generalizing cache with
  | nil => trivial
  | cons iface ifaces ih =>
    have first : (collectInterface cfg order cache iface).Uses P := by
      unfold collectInterface
      refine (uses_issue (issues.reads _ (.inr (.inr (.inl ⟨_, rfl⟩))))).bind fun answer => ?_
      cases answer with
      | error err => trivial
      | ok wgPeers =>
        refine (uses_filterActivePeers issues _).bind fun active => ?_
        have refreshes := uses_refreshPeers issues.reports
          (fun id => issues.reads (.getPeer .refresh id) (.inr (.inr (.inr ⟨_, _, rfl⟩))))
          (fun wgPeer (_ : wgPeer ∈ active) => issues.claim wgPeer) issues.update
        refine (refreshes _).bind fun _ => ?_
        exact (uses_markPeersDisconnected issues _).bind fun _ => trivial
    exact first.bind fun collected => (ih collected.1).bind fun _ => trivial

theorem uses_collectPeerData (issues : Issues cfg P) (order : MapOrder PeerIdentifier)
    (cache : ActivePeers) : (collectPeerData cfg order cache).Uses P := by
  unfold collectPeerData
  refine (uses_issue (issues.reads _ (.inr (.inl rfl)))).bind fun answer => ?_
  cases answer with
  | error err => trivial
  | ok interfaces => exact uses_collectInterfaces issues ..

end Uses

end WgPortal.WireGuard
