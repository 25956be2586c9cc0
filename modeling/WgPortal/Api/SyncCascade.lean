import Mathlib.Data.List.Perm.Basic
import WgPortal.Api.SyncEndpoint
import WgPortal.Library.Transition

/-! What becomes of one event in a cluster: the fan-out sends it to the other nodes, whose
endpoints and handlers send nothing on. -/

namespace WgPortal.Api

open Domain Library Adapters App Fanout WireGuard

/-- The nodes of a cluster. The fan-out of each has the default topics. -/
structure Cluster (ι : Type) where
  service : ι → PeerService
  hostname : ι → String
  settings : ι → Settings
  default : ∀ i, (settings i).topics = []
  urls : URLs
  /-- the node behind a configured one -/
  node : String → Option ι

/-- What is under way in a cluster. -/
structure Cascade (ι : Type) where
  /-- the events whose subscribers were not called yet -/
  pending : List (ι × Event)
  /-- the requests that the fan-outs are to send, with the nodes they are for -/
  deliveries : List (String × SyncRequest)
  /-- the requests that did not arrive yet -/
  requests : List (String × SyncRequest)
  /-- all requests that were sent -/
  sent : List (String × SyncRequest)

def Cascade.of {ι : Type} (i : ι) (event : Event) : Cascade ι := ⟨[(i, event)], [], [], []⟩

/-- A step takes one of the things under way. -/
inductive Move where
  /-- `started` is whether the manager has completed its start. -/
  | dispatch (k : ℕ) (started : Bool) (answers : ℕ → (op : ManagerOp) → op.Res)
  | deliver (k : ℕ) (answers : ℕ → (op : FanoutOp) → op.Res)
  | handle (k : ℕ) (ui : ContextUserInfo) (answers : ℕ → (op : ManagerOp) → op.Res)

/-- The request that an operation of the fan-out sends -/
def posted : FanoutOp → List String
  | .post u => [u]
  | _ => []

namespace Cluster

variable {ι : Type} (c : Cluster ι) (order : MapOrder String)

/-- The requests of the fan-out for an event that it subscribes to. -/
def requestsFor (i : ι) (event : Event) : List (String × SyncRequest) :=
  if event.topic ∈ subscribedTopics order (c.settings i).topics then
    (c.settings i).requests c.urls event
  else []

def next (s : Cascade ι) : Move → Option (Cascade ι)
  | .dispatch k started answers => do
    let (i, event) ← s.pending[k]?
    let raised := events answers (subscriber (c.service i).peers event)
    return { s with
      pending := s.pending.eraseIdx k ++ raised.map (i, ·)
      deliveries := s.deliveries ++ if started then c.requestsFor order i event else [] }
  | .deliver k answers => do
    let request ← s.deliveries[k]?
    let posts := (deliver (endpoint c.urls request.1 request.2)).log posted answers
    return { s with
      deliveries := s.deliveries.eraseIdx k
      requests := s.requests ++ posts.map fun _ => request
      sent := s.sent ++ posts.map fun _ => request }
  | .handle k ui answers => do
    let request ← s.requests[k]?
    let raised := match c.node request.1 with
      | none => []
      | some i =>
        (events answers (handleSyncPost (c.service i) ui (c.hostname i) request.2)).map (i, ·)
    return { s with
      pending := s.pending ++ raised
      requests := s.requests.eraseIdx k }

end Cluster

/-- A delivery sends at most one request. -/
theorem length_posted_deliver (u : String) (answers : ℕ → (op : FanoutOp) → op.Res) :
    ((deliver u).log posted answers).length ≤ 1 := by
  simp only [deliver, FanoutProgram.issue, Program.perform_bind, Program.log, posted,
    List.nil_append]
  split
  · exact Nat.zero_le 1
  · simp only [Program.log, posted]
    split <;> exact le_refl 1

section Cascades

variable {ι : Type} (c : Cluster ι) (order : MapOrder String)

/-- The local event is not one of the default topics. -/
theorem not_subscribed_of_local (i : ι) {event : Event} (here : SyncEndpoint.Local event) :
    event.topic ∉ subscribedTopics order (c.settings i).topics := by
  obtain ⟨id, rfl⟩ := here
  rw [c.default i]
  have other : "peer:synced:local" ∉ syncTopics := by decide
  exact other

theorem requestsFor_of_local (i : ι) {event : Event} (here : SyncEndpoint.Local event) :
    c.requestsFor order i event = [] :=
  if_neg (not_subscribed_of_local c order i here)

/-- The requests to a node that the subscribers of a pending event will send -/
def owedFor (base : String) (i : ι) (event : Event) : ℕ :=
  (c.requestsFor order i event).countP (·.1 = base)

/-- The requests to a node that were sent or will be, unless something else happens. -/
def owed (base : String) (s : Cascade ι) : ℕ :=
  s.sent.countP (·.1 = base) + s.deliveries.countP (·.1 = base) +
    (s.pending.map fun p => owedFor c order base p.1 p.2).sum

/-- All requests ask for no echo. -/
def Unechoed (s : Cascade ι) : Prop :=
  ∀ request ∈ s.deliveries ++ s.requests, request.2.noEcho = "1"

theorem noEcho_of_mem_requestsFor {i : ι} {event : Event} {request : String × SyncRequest}
    (listed : request ∈ c.requestsFor order i event) : request.2.noEcho = "1" := by
  unfold Cluster.requestsFor at listed
  split at listed
  · exact noEcho_of_mem_requests listed
  · cases listed

/-- Events that no fan-out subscribes to owe nothing. -/
theorem sum_owedFor_eq_zero (base : String) (i : ι) {raised : List Event}
    (here : ∀ event ∈ raised, SyncEndpoint.Local event) :
    ((raised.map (i, ·)).map fun p => owedFor c order base p.1 p.2).sum = 0 := by
  refine List.sum_eq_zero_iff_forall_eq_nat.mpr fun n listed => ?_
  obtain ⟨p, among, rfl⟩ := List.mem_map.mp listed
  obtain ⟨event, mem, rfl⟩ := List.mem_map.mp among
  rw [owedFor, requestsFor_of_local c order i (here event mem), List.countP_nil]

theorem perm_eraseIdx {α : Type} {l : List α} {k : ℕ} {a : α} (here : l[k]? = some a) :
    l.Perm (a :: l.eraseIdx k) := by
  obtain ⟨lt, rfl⟩ := List.getElem?_eq_some_iff.mp here
  exact (List.getElem_cons_eraseIdx_perm lt).symm

theorem dispatch_keeps {s t : Cascade ι} {k : ℕ} {started : Bool}
    {answers : ℕ → (op : ManagerOp) → op.Res}
    (taken : c.next order s (.dispatch k started answers) = some t) (unechoed : Unechoed s)
    (base : String) : Unechoed t ∧ owed c order base t ≤ owed c order base s := by
  obtain ⟨⟨i, event⟩, here, last⟩ := Option.bind_eq_some_iff.mp taken
  obtain rfl := Option.some.inj last
  constructor
  · intro request listed
    rcases List.mem_append.mp listed with among | under
    · rcases List.mem_append.mp among with before | new
      · exact unechoed request (List.mem_append_left _ before)
      · split at new
        · exact noEcho_of_mem_requestsFor c order new
        · cases new
    · exact unechoed request (List.mem_append_right _ under)
  · have quiet := SyncEndpoint.events_subscriber (c.service i).peers event answers
    have split := ((perm_eraseIdx here).map fun p => owedFor c order base p.1 p.2).sum_nat
    have sends : (if started then c.requestsFor order i event else []).countP (·.1 = base) ≤
        owedFor c order base i event := by
      cases started
      · exact Nat.zero_le _
      · exact le_refl _
    simp only [owed, quiet, List.map_nil, List.append_nil, List.countP_append, split,
      List.map_cons, List.sum_cons]
    omega

theorem deliver_keeps {s t : Cascade ι} {k : ℕ} {answers : ℕ → (op : FanoutOp) → op.Res}
    (taken : c.next order s (.deliver k answers) = some t) (unechoed : Unechoed s)
    (base : String) : Unechoed t ∧ owed c order base t ≤ owed c order base s := by
  obtain ⟨request, here, last⟩ := Option.bind_eq_some_iff.mp taken
  obtain rfl := Option.some.inj last
  have permuted := perm_eraseIdx here
  have once := length_posted_deliver (endpoint c.urls request.1 request.2) answers
  constructor
  · intro other listed
    rcases List.mem_append.mp listed with left | under
    · exact unechoed other (List.mem_append_left _ (List.mem_of_mem_eraseIdx left))
    · rcases List.mem_append.mp under with before | new
      · exact unechoed other (List.mem_append_right _ before)
      · obtain ⟨_, _, rfl⟩ := List.mem_map.mp new
        exact unechoed _ (List.mem_append_left _ (List.mem_of_getElem? here))
  · have split := permuted.countP_eq (·.1 = base)
    have sends : (((deliver (endpoint c.urls request.1 request.2)).log posted answers).map
        fun _ => request).countP (·.1 = base) ≤ [request].countP (·.1 = base) := by
      generalize (deliver (endpoint c.urls request.1 request.2)).log posted answers = posts
        at once ⊢
      rcases posts with _ | ⟨u, _ | ⟨_, _⟩⟩
      · exact Nat.zero_le _
      · exact le_refl _
      · exact absurd once (by simp)
    simp only [owed, List.countP_append, split, List.countP_cons] at sends ⊢
    simp only [List.countP_nil] at sends
    omega

theorem handle_keeps {s t : Cascade ι} {k : ℕ} {ui : ContextUserInfo}
    {answers : ℕ → (op : ManagerOp) → op.Res}
    (taken : c.next order s (.handle k ui answers) = some t) (unechoed : Unechoed s)
    (base : String) : Unechoed t ∧ owed c order base t ≤ owed c order base s := by
  obtain ⟨request, here, last⟩ := Option.bind_eq_some_iff.mp taken
  obtain rfl := Option.some.inj last
  have noEcho := unechoed request (List.mem_append_right _ (List.mem_of_getElem? here))
  constructor
  · intro other listed
    rcases List.mem_append.mp listed with left | under
    · exact unechoed other (List.mem_append_left _ left)
    · exact unechoed other (List.mem_append_right _ (List.mem_of_mem_eraseIdx under))
  · simp only [owed, List.map_append, List.sum_append]
    cases c.node request.1 with
    | none => exact le_refl _
    | some i =>
      rw [sum_owedFor_eq_zero c order base i
        (SyncEndpoint.events_handleSyncPost (c.service i) ui (c.hostname i) noEcho answers)]
      exact le_refl _

/-- A step never adds to what is owed to a node. -/
theorem next_keeps {s t : Cascade ι} {move : Move} (taken : c.next order s move = some t)
    (unechoed : Unechoed s) (base : String) :
    Unechoed t ∧ owed c order base t ≤ owed c order base s := by
  cases move with
  | dispatch k started answers => exact dispatch_keeps c order taken unechoed base
  | deliver k answers => exact deliver_keeps c order taken unechoed base
  | handle k ui answers => exact handle_keeps c order taken unechoed base

theorem run_keeps {s t : Cascade ι} {moves : List Move}
    (run : runFrom (c.next order) s moves = some t) (unechoed : Unechoed s) (base : String) :
    owed c order base t ≤ owed c order base s := by
  let Kept (u : Cascade ι) : Prop := Unechoed u ∧ owed c order base u ≤ owed c order base s
  have step : ∀ u move v, Kept u → True → c.next order u move = some v → Kept v := by
    intro u move v kept _ taken
    obtain ⟨still, le⟩ := next_keeps c order taken kept.1 base
    exact ⟨still, le.trans kept.2⟩
  exact (run_invariant step (guarded_of_all (fun _ _ => trivial) s moves) run
    ⟨unechoed, le_refl _⟩).2

/-- A request of another fan-out makes the node publish nothing that a fan-out with the default
topics subscribes to. So, whatever happens in the cluster, for one event at most one request is
sent to each node that the settings of its node list once. -/
theorem sync_noEcho :
    (∀ (s : PeerService) (ui : ContextUserInfo) (hostname : String) (r : SyncRequest),
      r.noEcho = "1" → ∀ answers, ∀ event ∈ events answers (handleSyncPost s ui hostname r),
        event.topic ∉ subscribedTopics order [] ∧
        ∀ answers', ∀ raised ∈ events answers' (subscriber s.peers event),
          raised.topic ∉ subscribedTopics order []) ∧
    ∀ (i : ι) (event : Event) (moves : List Move) (t : Cascade ι),
      runFrom (c.next order) (Cascade.of i event) moves = some t →
        ∀ base, t.sent.countP (·.1 = base) ≤ ((c.settings i).others c.urls).count base := by
  constructor
  · intro s ui hostname r noEcho answers event raised
    obtain ⟨id, rfl⟩ := SyncEndpoint.events_handleSyncPost s ui hostname noEcho answers event raised
    have other : "peer:synced:local" ∉ syncTopics := by decide
    refine ⟨other, fun answers' event' raised' => ?_⟩
    rw [SyncEndpoint.events_subscriber] at raised'
    cases raised'
  · intro i event moves t run base
    have unechoed : Unechoed (Cascade.of i event) := fun _ listed => (by cases listed)
    calc t.sent.countP (·.1 = base) ≤ owed c order base t := by
          unfold owed
          omega
      _ ≤ owed c order base (Cascade.of i event) := run_keeps c order run unechoed base
      _ = owedFor c order base i event := by simp [owed, Cascade.of]
      _ ≤ ((c.settings i).others c.urls).count base := by
          unfold owedFor Cluster.requestsFor
          split
          · exact (count_requests c.urls (c.settings i) event base).le
          · exact Nat.zero_le _

end Cascades

def plainURLs : URLs := ⟨fun base => some ("http", base), id, id⟩

/-- The nodes `http://a` and `http://b` know each other. -/
def pair : Cluster Bool where
  service _ := ⟨false, singleNode⟩
  hostname i := if i then "a" else "b"
  settings i :=
    { peers := ["http://a", "http://b"], selfURL := if i then "http://a" else "http://b"
      origin := if i then "a" else "b", topics := [] }
  default _ := rfl
  urls := plainURLs
  node base := if base = "http://a" then some true else if base = "http://b" then some false else none

/-- The answers of a node whose store has the peer. -/
def answersOf (id : PeerIdentifier) (n : ℕ) (op : ManagerOp) : op.Res :=
  (op.exec (WgController.plainClient WgController.plainTypes) (calm n)
    (oneInterface WgController.Device.empty [enabledPeer id])).1

def delivered (_ : ℕ) : (op : FanoutOp) → op.Res
  | .recordedRetryCount _ => (0 : ℕ)
  | .hostCanRetry .. | .post _ => true
  | .markHostFailed _ | .clearHostFailed _ => ()

/-- A peer is created at `a`; `b` is told, and handles its local event. -/
def createdAtA : List Move :=
  [.dispatch 0 true (answersOf key), .deliver 0 delivered, .handle 0 admin (answersOf key),
    .dispatch 0 true (answersOf key)]

theorem createdAtA_noEcho : ∃ t,
    runFrom (pair.next MapOrder.listed) (Cascade.of true (.peerCreatedSync key)) createdAtA =
      some t ∧ t.pending = [] ∧ t.sent.length = 1 ∧ t.sent.countP (·.1 = "http://b") ≤ 1 := by
  obtain ⟨t, run, rest⟩ : ∃ t,
      runFrom (pair.next MapOrder.listed) (Cascade.of true (.peerCreatedSync key)) createdAtA =
        some t ∧ t.pending = [] ∧ t.sent.length = 1 := ⟨_, rfl, by decide +kernel, by decide +kernel⟩
  have once := (sync_noEcho pair MapOrder.listed).2 true _ createdAtA t run "http://b"
  have listed : ((pair.settings true).others pair.urls).count "http://b" = 1 := by decide +kernel
  exact ⟨t, run, rest.1, rest.2, listed ▸ once⟩

end WgPortal.Api
