import WgPortal.Domain.Peer
import WgPortal.Library.Table
import WgPortal.Library.Transition

/-! The gauges of the metrics server for peers. A gauge vector keeps one series for each tuple of
labels; the registry gathers the vectors that were registered. -/

namespace WgPortal.Adapters

open Domain Library

/-- The label `addresses` is the address that is checked to be alive. -/
structure PeerLabels where
  interface : InterfaceIdentifier
  addresses : String
  id : PeerIdentifier
  name : String
deriving DecidableEq

structure Series (V : Type) where
  labels : PeerLabels
  value : V
deriving DecidableEq

abbrev GaugeVec (V : Type) := Table (Series.labels (V := V))

/-- The vectors of the server for peers -/
inductive PeerFamily where
  | peerIsConnected
  | peerLastHandshakeSeconds
  | peerReceivedBytesTotal
  | peerSendBytesTotal
deriving DecidableEq

abbrev PeerGauges (V : Type) := PeerFamily → GaugeVec V

namespace GaugeVec

variable {V : Type}

/-- `WithLabelValues(labels...).Set(value)` -/
def set (vec : GaugeVec V) (labels : PeerLabels) (value : V) : GaugeVec V := vec.upsert ⟨labels, value⟩

/-- `WithLabelValues(labels...).Add(0)`, which creates the series if there is none. -/
def touch (vec : GaugeVec V) (labels : PeerLabels) (zero : V) : GaugeVec V :=
  (vec.insert ⟨labels, zero⟩).getD vec

def deleteLabelValues (vec : GaugeVec V) (labels : PeerLabels) : GaugeVec V :=
  vec.filter (·.labels ≠ labels)

end GaugeVec

def peerLabels (peer : Peer) (id : PeerIdentifier) : PeerLabels :=
  ⟨peer.interfaceIdentifier, peer.checkAliveAddress, id, peer.displayName⟩

/-- The configuration of the server, and how numbers become values. -/
structure MetricsServer (V : Type) where
  exportDetailedPeerMetrics : Bool
  float64 : ℤ → V

namespace MetricsServer

variable {V : Type} (m : MetricsServer V) (gauges : PeerGauges V)

/-- The vectors that are registered, and those that a removal looks at -/
def exports (family : PeerFamily) : Bool :=
  family = .peerIsConnected || m.exportDetailedPeerMetrics

def registerPeerMetrics (peer : Peer) : PeerGauges V :=
  let labels := peerLabels peer peer.identifier
  if labels.id = "" then gauges
  else fun family =>
    if m.exports family then (gauges family).touch labels (m.float64 0) else gauges family

/-- The value of a vector for a status, if it is set -/
def valueOf (status : PeerStatus) : PeerFamily → Option V
  | .peerIsConnected => some (m.float64 (if status.isConnected then 1 else 0))
  | .peerLastHandshakeSeconds => status.lastHandshake.map fun time => m.float64 (time / second)
  | .peerReceivedBytesTotal =>
    if m.exportDetailedPeerMetrics then some (m.float64 status.bytesReceived) else none
  | .peerSendBytesTotal =>
    if m.exportDetailedPeerMetrics then some (m.float64 status.bytesTransmitted) else none

/-- The handshake is set even if the detailed metrics are not exported. -/
def updatePeerMetricsValues (now : Time) (peer : Peer) (status : PeerStatus) : PeerGauges V :=
  let labels := peerLabels peer status.peerId
  if labels.id = "" then gauges
  else fun family =>
    match m.valueOf (status.calcConnected now) family with
    | some value => (gauges family).set labels value
    | none => gauges family

/-- The gathered series with the identifier are deleted one by one. -/
def removePeerMetricsByID (peerId : PeerIdentifier) : PeerGauges V := fun family =>
  if m.exports family then
    ((gauges family).rows.filter (·.labels.id = peerId)).foldl
      (fun vec series => vec.deleteLabelValues series.labels) (gauges family)
  else gauges family

def removePeerMetrics (peer : Peer) : PeerGauges V := m.removePeerMetricsByID gauges peer.identifier

inductive MetricsCall where
  | registerPeerMetrics (peer : Peer)
  | updatePeerMetricsValues (now : Time) (peer : Peer) (status : PeerStatus)
  | removePeerMetrics (peer : Peer)
  | removePeerMetricsByID (peerId : PeerIdentifier)

def call : MetricsCall → PeerGauges V
  | .registerPeerMetrics peer => m.registerPeerMetrics gauges peer
  | .updatePeerMetricsValues now peer status => m.updatePeerMetricsValues gauges now peer status
  | .removePeerMetrics peer => m.removePeerMetrics gauges peer
  | .removePeerMetricsByID peerId => m.removePeerMetricsByID gauges peerId

def next (gauges : PeerGauges V) (c : MetricsCall) : Option (PeerGauges V) := some (m.call gauges c)

end MetricsServer

namespace GaugeVec

variable {V : Type}

/-- There is a series with the labels. -/
def Has (vec : GaugeVec V) (labels : PeerLabels) : Prop := ∃ series ∈ vec.rows, series.labels = labels

/-- At most one series for each peer -/
def UniqueIds (vec : GaugeVec V) : Prop :=
  ∀ series ∈ vec.rows, ∀ other ∈ vec.rows, series.labels.id = other.labels.id → series = other

theorem uniqueIds_iff {vec : GaugeVec V} : vec.UniqueIds ↔
    ∀ labels other, vec.Has labels → vec.Has other → labels.id = other.id → labels = other := by
  constructor
  · rintro unique _ _ ⟨series, listed, rfl⟩ ⟨other, listed', rfl⟩ same
    rw [unique series listed other listed' same]
  · intro unique series listed other listed' same
    exact List.inj_on_of_nodup_map vec.nodup listed listed'
      (unique _ _ ⟨series, listed, rfl⟩ ⟨other, listed', rfl⟩ same)

theorem has_set {vec : GaugeVec V} {labels other : PeerLabels} {value : V} :
    (vec.set labels value).Has other ↔ vec.Has other ∨ labels = other := by
  constructor
  · rintro ⟨series, listed, rfl⟩
    rcases Table.mem_upsert.mp listed with rfl | ⟨before, _⟩
    · exact .inr rfl
    · exact .inl ⟨series, before, rfl⟩
  · intro has
    by_cases same : labels = other
    · exact ⟨⟨labels, value⟩, Table.mem_upsert.mpr (.inl rfl), same⟩
    · obtain ⟨series, listed, rfl⟩ := has.resolve_right same
      exact ⟨series, Table.mem_upsert.mpr (.inr ⟨listed, Ne.symm same⟩), rfl⟩

theorem has_touch {vec : GaugeVec V} {labels other : PeerLabels} {zero : V} :
    (vec.touch labels zero).Has other ↔ vec.Has other ∨ labels = other := by
  unfold touch Table.insert
  split
  · simp only [Has, Option.getD_some, List.mem_append, List.mem_singleton, or_and_right,
      exists_or, exists_eq_left]
  · rename_i taken
    push Not at taken
    rw [Option.getD_none]
    constructor
    · exact .inl
    · rintro (has | rfl)
      · exact has
      · exact taken

theorem mem_deleteAll {vec : GaugeVec V} {gathered : List (Series V)} {series : Series V} :
    series ∈ (gathered.foldl (fun vec s => vec.deleteLabelValues s.labels) vec).rows ↔
      series ∈ vec.rows ∧ ∀ s ∈ gathered, series.labels ≠ s.labels := by
  induction gathered generalizing vec with
  | nil => simp
  | cons s gathered ih =>
    rw [List.foldl_cons, ih]
    simp only [deleteLabelValues, Table.filter, List.mem_filter, decide_eq_true_eq,
      List.forall_mem_cons, and_assoc]

end GaugeVec

namespace MetricsServer

open GaugeVec

variable {V : Type} (m : MetricsServer V) (gauges : PeerGauges V)

/-- The labels of the series that a call sees to in a vector -/
def labelled : MetricsCall → PeerFamily → Option PeerLabels
  | .registerPeerMetrics peer, family =>
    if peer.identifier ≠ "" ∧ m.exports family then some (peerLabels peer peer.identifier) else none
  | .updatePeerMetricsValues now peer status, family =>
    if status.peerId ≠ "" ∧ (m.valueOf (status.calcConnected now) family).isSome then
      some (peerLabels peer status.peerId)
    else none
  | _, _ => none

/-- The peer whose series a call removes -/
def removed : MetricsCall → Option PeerIdentifier
  | .removePeerMetrics peer => some peer.identifier
  | .removePeerMetricsByID peerId => some peerId
  | _ => none

theorem has_removed {peerId : PeerIdentifier} {family : PeerFamily} {labels : PeerLabels} :
    (m.removePeerMetricsByID gauges peerId family).Has labels ↔
      (gauges family).Has labels ∧ (m.exports family → labels.id ≠ peerId) := by
  unfold removePeerMetricsByID
  split
  · rename_i exported
    constructor
    · rintro ⟨series, listed, rfl⟩
      obtain ⟨before, kept⟩ := mem_deleteAll.mp listed
      refine ⟨⟨series, before, rfl⟩, fun _ same => ?_⟩
      exact kept series (List.mem_filter.mpr ⟨before, decide_eq_true same⟩) rfl
    · rintro ⟨⟨series, before, rfl⟩, other⟩
      refine ⟨series, mem_deleteAll.mpr ⟨before, fun s gathered same => ?_⟩, rfl⟩
      have here := of_decide_eq_true (List.mem_filter.mp gathered).2
      exact other exported (same ▸ here)
  · rename_i hidden
    exact ⟨fun has => ⟨has, fun exported => absurd exported hidden⟩, And.left⟩

/-- What a call leaves in a vector. -/
theorem has_call (c : MetricsCall) {family : PeerFamily} {labels : PeerLabels} :
    (m.call gauges c family).Has labels ↔
      (gauges family).Has labels ∧
          (∀ id, removed c = some id → m.exports family → labels.id ≠ id) ∨
        m.labelled c family = some labels := by
  cases c with
  | registerPeerMetrics peer =>
    simp only [call, registerPeerMetrics, labelled, removed, peerLabels]
    by_cases named : peer.identifier = ""
    · simp [named]
    · by_cases exported : m.exports family <;> simp [named, exported, has_touch]
  | updatePeerMetricsValues now peer status =>
    simp only [call, updatePeerMetricsValues, labelled, removed, peerLabels]
    by_cases named : status.peerId = ""
    · simp [named]
    · cases value : m.valueOf (status.calcConnected now) family <;>
        simp [named, value, has_set]
  | removePeerMetrics peer => simp [call, removePeerMetrics, labelled, removed, has_removed]
  | removePeerMetricsByID peerId => simp [call, labelled, removed, has_removed]

/-- A series that the call sees to is the only one of its peer, and what is removed is exported. -/
def Guard (c : MetricsCall) : Prop :=
  (∀ family labels, m.labelled c family = some labels →
    ∀ other, (gauges family).Has other → other.id = labels.id → other = labels) ∧
  ∀ id, removed c = some id → ∀ family, m.exports family = false →
    ∀ labels, (gauges family).Has labels → labels.id ≠ id

/-- After the call no vector has two series of a peer, or one of a peer that the call removed. -/
def Sound (c : MetricsCall) : Prop :=
  (∀ family, (m.call gauges c family).UniqueIds) ∧
  ∀ id, removed c = some id → ∀ family, ∀ series ∈ (m.call gauges c family).rows,
    series.labels.id ≠ id

theorem removed_of_labelled {c : MetricsCall} {family : PeerFamily} {labels : PeerLabels}
    (here : m.labelled c family = some labels) : removed c = none := by
  cases c with
  | registerPeerMetrics | updatePeerMetricsValues => rfl
  | removePeerMetrics | removePeerMetricsByID => cases here

theorem sound_of_guard (unique : ∀ family, (gauges family).UniqueIds) {c : MetricsCall}
    (guard : m.Guard gauges c) : m.Sound gauges c := by
  obtain ⟨alone, hidden⟩ := guard
  constructor
  · intro family
    rw [uniqueIds_iff]
    intro labels other has has' same
    rcases (m.has_call gauges c).mp has with ⟨before, _⟩ | new <;>
      rcases (m.has_call gauges c).mp has' with ⟨before', _⟩ | new'
    · exact uniqueIds_iff.mp (unique family) labels other before before' same
    · exact alone family other new' labels before same
    · exact (alone family labels new other before' same.symm).symm
    · exact Option.some.inj (new.symm.trans new')
  · intro id gone family series listed same
    rcases (m.has_call gauges c).mp ⟨series, listed, rfl⟩ with ⟨before, other⟩ | new
    · cases exported : m.exports family with
      | true => exact other id gone exported same
      | false => exact hidden id gone family exported series.labels before same
    · rw [m.removed_of_labelled new] at gone
      cases gone

theorem guard_of_sound {c : MetricsCall} (sound : m.Sound gauges c) : m.Guard gauges c := by
  obtain ⟨unique, absent⟩ := sound
  constructor
  · intro family labels here other before same
    have kept : (m.call gauges c family).Has other := by
      refine (m.has_call gauges c).mpr (.inl ⟨before, fun id gone => ?_⟩)
      rw [m.removed_of_labelled here] at gone
      cases gone
    have new : (m.call gauges c family).Has labels := (m.has_call gauges c).mpr (.inr here)
    exact uniqueIds_iff.mp (unique family) other labels kept new same
  · intro id gone family exported labels before same
    have kept : (m.call gauges c family).Has labels := by
      refine (m.has_call gauges c).mpr (.inl ⟨before, fun _ _ shown => ?_⟩)
      rw [exported] at shown
      cases shown
    obtain ⟨series, listed, rfl⟩ := kept
    exact absent id gone family series listed same

/-- From a server without series: no call leaves two series of a peer in a vector, or one of a
peer that it removes, if and only if every call that sees to a series of a peer finds no other one
of it, and every removal finds none in the vectors that are not exported. -/
theorem sound_iff (calls : List MetricsCall) :
    Guarded m.next m.Sound (fun _ => Table.empty) calls ↔
      Guarded m.next m.Guard (fun _ => Table.empty) calls := by
  let Unique (gauges : PeerGauges V) : Prop := ∀ family, (gauges family).UniqueIds
  have step : ∀ gauges c gauges', Unique gauges → m.Sound gauges c →
      m.next gauges c = some gauges' → Unique gauges' := by
    rintro gauges c _ _ sound ⟨⟩
    exact sound.1
  have same : ∀ gauges c, Unique gauges → (m.Guard gauges c ↔ m.Sound gauges c) :=
    fun gauges c unique => ⟨m.sound_of_guard gauges unique, m.guard_of_sound gauges⟩
  have start : Unique fun _ => Table.empty := fun _ series listed => (by cases listed)
  exact (guarded_iff step same start calls).symm

/-- A peer gets another name. -/
def renamed : List MetricsCall :=
  [.registerPeerMetrics { Peer.zero with identifier := "key", displayName := "laptop" },
    .registerPeerMetrics { Peer.zero with identifier := "key", displayName := "phone" }]

/-- The handshake of a peer is set before the peer is removed. -/
def leftOver : List MetricsCall :=
  [.updatePeerMetricsValues 0 { Peer.zero with identifier := "key" }
      { PeerStatus.fresh "key" 0 with lastHandshake := some 0 },
    .removePeerMetricsByID "key"]

theorem not_sound : ¬ Guarded (next ⟨true, id⟩) (Sound ⟨true, id⟩) (fun _ => Table.empty) renamed ∧
    ¬ Guarded (next ⟨false, id⟩) (Sound ⟨false, id⟩) (fun _ => Table.empty) leftOver := by
  constructor
  · rintro ⟨_, later⟩
    have both := ((later _ rfl).1.1 .peerIsConnected) ⟨⟨"", "", "key", "laptop"⟩, 0⟩ (by decide)
      ⟨⟨"", "", "key", "phone"⟩, 0⟩ (by decide) rfl
    exact absurd both (by decide)
  · rintro ⟨_, later⟩
    exact (later _ rfl).1.2 "key" rfl .peerLastHandshakeSeconds ⟨⟨"", "", "key", ""⟩, 0⟩ (by decide) rfl

end MetricsServer

end WgPortal.Adapters
