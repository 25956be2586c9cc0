import WgPortal.Library.Interleaving
import WgPortal.WgController.MikrotikPeerSettings
import WgPortal.WgController.MikrotikSave

/-! Any number of tasks save and delete the peers of one Mikrotik router, request by request. The
controller has a mutex for each peer, so that a thread stands for the peer whose mutex its call
holds. The state records what was called for each peer of each interface, and whether a peer could
not be looked up when it was saved. -/

namespace WgPortal.WgController.Mikrotik.PeerTasks

open Domain Library System

inductive Call where
  | save (now : Time) (deviceId : InterfaceIdentifier) (p : Peer)
  | delete (deviceId : InterfaceIdentifier) (id : PeerIdentifier)

namespace Call

def deviceId : Call → InterfaceIdentifier
  | save _ deviceId _ => deviceId
  | delete deviceId _ => deviceId

def id : Call → PeerIdentifier
  | save _ _ p => p.identifier
  | delete _ id => id

/-- What is saved is merged into the peer of the router. -/
def requests (force : Bool) : Call → PeerProgram (Except Error Unit)
  | save now deviceId p =>
    savePeer now deviceId p.identifier fun pp => .ok (mergeToPhysicalPeer pp p force)
  | delete deviceId id => deletePeer deviceId id

/-- A call and its result -/
def program (force : Bool) (call : Call) : PeerProgram (Call × Except Error Unit) := do
  let result ← call.requests force
  return (call, result)

end Call

inductive Status where
  | untouched
  /-- A call is running, or the last one ended with an error. -/
  | called
  | settled (call : Call)

structure State where
  peers : Table idOf
  status : InterfaceIdentifier → PeerIdentifier → Status
  unsure : InterfaceIdentifier → PeerIdentifier → Bool

/-- No call yet -/
def State.start (peers : Table idOf) : State := ⟨peers, fun _ _ => .untouched, fun _ _ => false⟩

/-- The request by which `SavePeer` finds the peer -/
def looksUp (deviceId : InterfaceIdentifier) (id : PeerIdentifier) : PeerOp → Bool
  | .query propList filters => propList = peerProperties ∧ filters = peerFilters deviceId id
  | _ => false

def State.setStatus (s : State) (deviceId : InterfaceIdentifier) (id : PeerIdentifier)
    (status : Status) : State :=
  { s with status := fun d k => if d = deviceId ∧ k = id then status else s.status d k }

def exec (fw : Firmware) (op : PeerOp) (failure : Option Failure) (s : State) : op.Res × State :=
  let answer := op.exec fw s.peers failure
  (answer.1,
    { s with
      peers := answer.2
      unsure := fun d k => s.unsure d k || (failure.isSome && looksUp d k op) })

def finish (s : State) : Call × Except Error Unit → State
  | (call, .ok _) => s.setStatus call.deviceId call.id (.settled call)
  | (_, .error _) => s

def system (fw : Firmware) (force : Bool) : System PeerIdentifier Empty Call PeerOp PeerOp.Res
    (Option Failure) (Call × Except Error Unit) State where
  exec := fun _ op failure s => exec fw op failure s
  env := fun e _ => e.elim
  start := fun id call s =>
    if call.id = id then
      some (call.program force, s.setStatus call.deviceId call.id .called)
    else none
  finish := fun _ result s => finish s result

abbrev PeerPool := Pool PeerIdentifier PeerOp PeerOp.Res (Call × Except Error Unit) State

/-- What is saved can be written. -/
def Call.Writable : Call → Prop
  | save _ _ p => Mikrotik.Writable p
  | delete .. => True

def guard : Guard PeerIdentifier Empty Call PeerOp (Option Failure) State where
  env := fun _ _ => True
  start := fun _ _ call => call.Writable
  step := fun _ _ _ _ => True

/-- What the objects of a peer are after a call -/
def Call.Done (force : Bool) (objects : List GenericJsonObject) : Call → Prop
  | save _ _ p => ∃ o, objects = [o] ∧ ∀ now, HasPeerSettings force p (reading now o)
  | delete .. => objects = []

variable {fw : Firmware} {force : Bool} {initial : Table idOf}

/-- The objects of a peer are what the calls make them, and no others. -/
structure ConsistentAt (force : Bool) (initial : Table idOf) (s : State)
    (d : InterfaceIdentifier) (k : PeerIdentifier) : Prop where
  single : s.unsure d k = false → (objectsAt s.peers d k).length ≤ 1
  untouched : s.status d k = .untouched → objectsAt s.peers d k = objectsAt initial d k
  settled : ∀ call, s.status d k = .settled call → s.unsure d k = false →
    call.Done force (objectsAt s.peers d k)

/-- A thread relies on what is known of its peer. -/
structure SameAt (s t : State) (d : InterfaceIdentifier) (k : PeerIdentifier) : Prop where
  objects : objectsAt t.peers d k = objectsAt s.peers d k
  status : t.status d k = s.status d k
  unsure : t.unsure d k = s.unsure d k

theorem SameAt.trans {s t u : State} {d : InterfaceIdentifier} {k : PeerIdentifier}
    (first : SameAt s t d k) (second : SameAt t u d k) : SameAt s u d k :=
  ⟨second.objects.trans first.objects, second.status.trans first.status,
    second.unsure.trans first.unsure⟩

theorem ConsistentAt.congr {s t : State} {d : InterfaceIdentifier} {k : PeerIdentifier}
    (consistent : ConsistentAt force initial s d k) (same : SameAt s t d k) :
    ConsistentAt force initial t d k := by
  refine ⟨?_, ?_, ?_⟩ <;> rw [same.objects]
  · rw [same.unsure]
    exact consistent.single
  · rw [same.status]
    exact consistent.untouched
  · rw [same.status, same.unsure]
    exact consistent.settled

def contract (force : Bool) (initial : Table idOf) : Contract PeerIdentifier State where
  inv := fun s => ∀ d k, ConsistentAt force initial s d k
  rely := fun k s t => ∀ d, SameAt s t d k
  refl := fun _ _ _ => ⟨rfl, rfl, rfl⟩
  trans := fun _ _ _ _ first second d => (first d).trans (second d)

/-- What changes at one place only, and is consistent there, keeps the contract. -/
theorem keeps_of {s t : State} (d : InterfaceIdentifier) {k : PeerIdentifier}
    (consistent : (contract force initial).inv s)
    (others : ∀ d' k', ¬ (d' = d ∧ k' = k) → SameAt s t d' k')
    (here : ConsistentAt force initial t d k) : (contract force initial).Keeps k s t := by
  refine ⟨fun d' k' => ?_, fun k' other d' => others d' k' fun same => other same.2⟩
  by_cases same : d' = d ∧ k' = k
  · obtain ⟨rfl, rfl⟩ := same
    exact here
  · exact (consistent d' k').congr (others d' k' same)

/-- A request of a call for one peer -/
inductive Own (s : State) (d : InterfaceIdentifier) (k : PeerIdentifier) : PeerOp → Prop
  | query (propList : List String) : Own s d k (.query propList (peerFilters d k))
  | create {payload : GenericJsonObject} (creates : Creates payload d k)
      (free : s.unsure d k = false → objectsAt s.peers d k = []) : Own s d k (.create payload)
  | update {payload o : GenericJsonObject} (rewrites : Rewrites payload k)
      (mem : o ∈ objectsAt s.peers d k) : Own s d k (.update (idOf o) payload)
  | delete {o : GenericJsonObject} (mem : o ∈ objectsAt s.peers d k) : Own s d k (.delete (idOf o))

section Requests

variable {s : State} {d : InterfaceIdentifier} {k : PeerIdentifier} {op : PeerOp}

/-- A request leaves the objects of other peers, and adds to those of its own only if there are
none. -/
theorem objectsAt_attempt (own : Own s d k op) :
    (∀ d' k', ¬ (d' = d ∧ k' = k) →
      objectsAt (op.attempt fw s.peers).2 d' k' = objectsAt s.peers d' k') ∧
    ((s.unsure d k = false → (objectsAt s.peers d k).length ≤ 1) → s.unsure d k = false →
      (objectsAt (op.attempt fw s.peers).2 d k).length ≤ 1) := by
  cases own with
  | query propList => exact ⟨fun _ _ _ => rfl, fun single => single⟩
  | create creates free =>
    obtain ⟨o, -, -, -, objects⟩ := @objectsAt_create fw s.peers _ _ _ creates
    refine ⟨fun d' k' other => ?_, fun _ sure => ?_⟩
    · rw [objects, if_neg other, List.append_nil]
    · rw [objects, free sure, if_pos ⟨rfl, rfl⟩]
      exact Nat.le_refl 1
  | update rewrites mem =>
    obtain ⟨-, objects⟩ := @objectsAt_update fw s.peers _ _ _ _ rewrites mem
    refine ⟨fun d' k' other => ?_, fun single sure => ?_⟩
    · rw [objects]
      refine (List.map_congr_left fun x there => ?_).trans (List.map_id _)
      rw [if_neg (idOf_ne mem there other)]
      rfl
    · rw [objects, List.length_map]
      exact single sure
  | delete mem =>
    obtain ⟨-, objects⟩ := @objectsAt_delete fw s.peers _ _ _ mem
    refine ⟨fun d' k' other => ?_, fun single sure => ?_⟩
    · rw [objects, List.filter_eq_self]
      exact fun x there => decide_eq_true (idOf_ne mem there other)
    · rw [objects]
      exact Nat.le_trans (List.length_filter_le ..) (single sure)

theorem looksUp_eq_false (own : Own s d k op) {d' : InterfaceIdentifier} {k' : PeerIdentifier}
    (other : ¬ (d' = d ∧ k' = k)) : looksUp d' k' op = false := by
  cases own with
  | query propList =>
    refine decide_eq_false fun same => other ?_
    simpa [peerFilters, and_comm, eq_comm] using same.2
  | create | update | delete => rfl

/-- What any request of a call keeps, whether it fails or not -/
theorem keeps_exec (consistent : (contract force initial).inv s) (called : s.status d k = .called)
    (own : Own s d k op) (failure : Option Failure) :
    (contract force initial).Keeps k s (exec fw op failure s).2 := by
  obtain ⟨others, single⟩ := @objectsAt_attempt fw s d k op own
  have peers : (exec fw op failure s).2.peers = s.peers ∨
      (exec fw op failure s).2.peers = (op.attempt fw s.peers).2 := by
    cases failure with
    | none => exact .inr rfl
    | some failure =>
      cases effect : failure.effective with
      | true => exact .inr (if_pos effect)
      | false => exact .inl (if_neg (by rw [effect]; decide))
  refine keeps_of d consistent (fun d' k' other => ⟨?_, rfl, ?_⟩) ⟨fun sure => ?_, ?_, ?_⟩
  · rcases peers with same | same <;> rw [same]
    exact others d' k' other
  · simp only [exec, looksUp_eq_false own other, Bool.and_false, Bool.or_false]
  · have before : s.unsure d k = false := (Bool.or_eq_false_iff.mp sure).1
    rcases peers with same | same <;> rw [same]
    · exact (consistent d k).single before
    · exact single (consistent d k).single before
  · intro untouched
    rw [show (exec fw op failure s).2.status d k = .called from called] at untouched
    cases untouched
  · intro call settled
    rw [show (exec fw op failure s).2.status d k = .called from called] at settled
    cases settled

end Requests

section Calls

variable {d : InterfaceIdentifier} {k : PeerIdentifier} {s : State} {α : Type}

abbrev Sound (fw : Firmware) (force : Bool) (initial : Table idOf) (k : PeerIdentifier)
    (post : α → State → Prop) : PeerProgram α → State → Prop :=
  (contract force initial).Sound (system fw force) guard k post

/-- The call is running, and without an error it is done. -/
structure Ended (force : Bool) (d : InterfaceIdentifier) (k : PeerIdentifier) (call : Call)
    (result : Except Error Unit) (s : State) : Prop where
  called : s.status d k = .called
  done : result = .ok () → s.unsure d k = false → call.Done force (objectsAt s.peers d k)

theorem Ended.congr {call : Call} {result : Except Error Unit} {t : State}
    (ended : Ended force d k call result s) (same : SameAt s t d k) :
    Ended force d k call result t := by
  refine ⟨same.status.trans ended.called, ?_⟩
  rw [same.objects, same.unsure]
  exact ended.done

theorem sound_failed (called : s.status d k = .called) (call : Call) (err : Error) :
    Sound fw force initial k (Ended force d k call) (.ret (.error err)) s := by
  intro t later _
  exact ⟨(later d).status.trans called, fun ok => by cases ok⟩

theorem sound_done {call : Call} (called : s.status d k = .called)
    (done : s.unsure d k = false → call.Done force (objectsAt s.peers d k)) :
    Sound fw force initial k (Ended force d k call) (.ret (.ok ())) s :=
  fun _ later _ => Ended.congr ⟨called, fun _ => done⟩ (later d)

/-- A request of the call, after which the program goes on from what it found -/
theorem sound_call {op : PeerOp} {rest : op.Res → PeerProgram α} {post : α → State → Prop}
    (called : s.status d k = .called)
    (own : ∀ t, SameAt s t d k → (contract force initial).inv t → Own t d k op)
    (next : ∀ t failure, SameAt s t d k → (contract force initial).inv t →
      Sound fw force initial k post (rest (exec fw op failure t).1) (exec fw op failure t).2) :
    Sound fw force initial k post (.call op rest) s := by
  intro t failure later consistent _
  have calledThen : t.status d k = .called := (later d).status.trans called
  exact ⟨keeps_exec consistent calledThen (own t (later d) consistent) failure,
    next t failure (later d) consistent⟩

theorem objects_eq_singleton {o : GenericJsonObject} (consistent : (contract force initial).inv s)
    (mem : o ∈ objectsAt s.peers d k) (sure : s.unsure d k = false) :
    objectsAt s.peers d k = [o] := by
  have single := (consistent d k).single sure
  cases listed : objectsAt s.peers d k with
  | nil =>
    rw [listed] at mem
    cases mem
  | cons first rest =>
    rw [listed, List.length_cons] at single
    rw [listed, List.length_eq_zero_iff.mp (by omega : rest.length = 0), List.mem_singleton] at mem
    rw [mem, List.length_eq_zero_iff.mp (by omega : rest.length = 0)]

theorem sound_updatePeer {now : Time} {p : Peer} {o : GenericJsonObject} {pp : PhysicalPeer}
    {extras : MikrotikPeerExtras} (called : s.status d k = .called)
    (mem : o ∈ objectsAt s.peers d k) (key : pp.keyPair.publicKey = k)
    (written : ∀ now, HasPeerSettings force p (readBack now { extras with id := idOf o } pp o)) :
    Sound fw force initial k (Ended force d k (.save now d p))
      (updatePeer d { extras with id := idOf o } pp) s := by
  unfold updatePeer PeerProgram.request
  rw [Program.perform_bind]
  have rewrites : Rewrites (peerPayload { extras with id := idOf o } pp) k :=
    rewrites_peerPayload key
  refine sound_call called (fun t same _ => .update rewrites (same.objects ▸ mem)) ?_
  intro t failure same consistent
  have calledThen : t.status d k = .called := same.status.trans called
  have memThen : o ∈ objectsAt t.peers d k := same.objects ▸ mem
  cases failure with
  | some failure => exact sound_failed (s := (exec fw _ (some failure) t).2) calledThen _ _
  | none =>
    obtain ⟨answer, objects⟩ := @objectsAt_update fw t.peers _ _ _ _ rewrites memThen
    simp only [exec, PeerOp.exec, answer]
    refine sound_done (s := ⟨_, t.status, _⟩) calledThen fun sure => ?_
    have before : t.unsure d k = false := (Bool.or_eq_false_iff.mp sure).1
    refine ⟨_, ?_, written⟩
    rw [objects, objects_eq_singleton consistent memThen before, List.map_singleton, if_pos rfl]

/-- The peer of the router that is found or created -/
def Found (d : InterfaceIdentifier) (k : PeerIdentifier) (now : Time)
    (result : Except Error PhysicalPeer) (s : State) : Prop :=
  s.status d k = .called ∧ ∀ pp, result = .ok pp →
    ∃ o ∈ objectsAt s.peers d k, ∃ read, pp = convertWireGuardPeer now read ∧ idOf read = idOf o

theorem sound_found {now : Time} {o read : GenericJsonObject} (called : s.status d k = .called)
    (mem : o ∈ objectsAt s.peers d k) (same : idOf read = idOf o) :
    Sound fw force initial k (Found d k now) (.ret (.ok (convertWireGuardPeer now read))) s := by
  intro t later _
  refine ⟨(later d).status.trans called, fun pp result => ?_⟩
  exact ⟨o, (later d).objects ▸ mem, read, (Except.ok.inj result).symm, same⟩

theorem sound_notFound (now : Time) (called : s.status d k = .called) (err : Error) :
    Sound fw force initial k (Found d k now) (.ret (.error err)) s :=
  fun _ later _ => ⟨(later d).status.trans called, fun _ result => by cases result⟩

theorem sound_createPeer (now : Time) (called : s.status d k = .called)
    (free : s.unsure d k = false → objectsAt s.peers d k = []) :
    Sound fw force initial k (Found d k now) (createPeer now d k) s := by
  unfold createPeer PeerProgram.request
  by_cases short : k.utf8ByteSize < 8
  · rw [if_pos short]
    exact sound_notFound now called _
  rw [if_neg short, Program.perform_bind]
  have creates := creates_createPayload d k
  refine sound_call called (fun t same _ => .create creates ?_) ?_
  · rw [same.objects, same.unsure]
    exact free
  intro t failure same _
  have calledThen : t.status d k = .called := same.status.trans called
  cases failure with
  | some failure =>
    exact sound_notFound (s := (exec fw _ (some failure) t).2) now calledThen _
  | none =>
    obtain ⟨o, -, answer, mem, -⟩ := @objectsAt_create fw t.peers _ _ _ creates
    simp only [exec, PeerOp.exec, answer]
    exact sound_found (s := ⟨_, t.status, _⟩) calledThen mem rfl

theorem answer_query (propList : List String) :
    (exec fw (.query propList (peerFilters d k)) none s).1 =
      .ok ((objectsAt s.peers d k).map (Router.project propList)) := rfl

theorem sound_getOrCreatePeer (now : Time) (called : s.status d k = .called) :
    Sound fw force initial k (Found d k now) (getOrCreatePeer now d k) s := by
  unfold getOrCreatePeer PeerProgram.request
  rw [Program.perform_bind]
  refine sound_call called (fun t _ _ => .query _) fun t failure same _ => ?_
  have calledThen : t.status d k = .called := same.status.trans called
  cases failure with
  | some failure =>
    refine sound_createPeer now calledThen fun sure => ?_
    -- the failure is remembered
    have unsure := (Bool.or_eq_false_iff.mp sure).2
    simp [looksUp] at unsure
  | none =>
    cases listed : objectsAt t.peers d k with
    | nil =>
      rw [answer_query, listed]
      exact sound_createPeer now calledThen fun _ => listed
    | cons o rest =>
      have mem : o ∈ objectsAt t.peers d k := by
        rw [listed]
        exact List.mem_cons_self
      rw [answer_query, listed]
      exact sound_found (s := (exec fw _ none t).2) calledThen mem rfl

theorem sound_savePeer (now : Time) {p : Peer} (writable : Writable p) (consistent :
    (contract force initial).inv s) (called : s.status d p.identifier = .called) :
    Sound fw force initial p.identifier (Ended force d p.identifier (.save now d p))
      (savePeer now d p.identifier fun pp => .ok (mergeToPhysicalPeer pp p force)) s := by
  unfold savePeer
  refine Contract.Sound.bind (sound_getOrCreatePeer now called) consistent ?_
  rintro result t - ⟨called, found⟩
  cases result with
  | error err => exact sound_failed called _ _
  | ok pp =>
    obtain ⟨o, mem, read, rfl, same⟩ := found pp rfl
    obtain ⟨extras, known, objectId⟩ : ∃ extras,
        mikrotikExtras (convertWireGuardPeer now read) = .ok extras ∧ extras.id = idOf o :=
      ⟨_, rfl, same⟩
    have merged : mikrotikExtras (mergeToPhysicalPeer (convertWireGuardPeer now read) p force) =
        .ok (peerExtras p) := by
      rw [mikrotikExtras, merge_eq rfl]
    simp only [known, merged, objectId]
    exact sound_updatePeer called mem writable.key fun now =>
      hasPeerSettings_readBack writable now ..

theorem sound_deletePeer (called : s.status d k = .called) :
    Sound fw force initial k (Ended force d k (.delete d k)) (deletePeer d k) s := by
  unfold deletePeer PeerProgram.request
  rw [Program.perform_bind]
  refine sound_call called (fun t _ _ => .query _) fun t failure same consistent => ?_
  have calledThen : t.status d k = .called := same.status.trans called
  cases failure with
  | some failure => exact sound_failed (s := (exec fw _ (some failure) t).2) calledThen _ _
  | none =>
    cases listed : objectsAt t.peers d k with
    | nil =>
      rw [answer_query, listed]
      exact sound_done (s := (exec fw _ none t).2) calledThen fun _ => listed
    | cons o rest =>
      have mem : o ∈ objectsAt t.peers d k := by
        rw [listed]
        exact List.mem_cons_self
      rw [answer_query, listed]
      simp only [List.map_cons, Program.perform_bind]
      change Sound fw force initial k _ (.call (.delete (idOf o)) _) _
      refine sound_call (s := (exec fw _ none t).2) calledThen
        (fun u later _ => .delete (later.objects ▸ mem)) fun u failure later consistent => ?_
      have calledLast : u.status d k = .called := later.status.trans calledThen
      have memThen : o ∈ objectsAt u.peers d k := later.objects ▸ mem
      cases failure with
      | some failure => exact sound_failed (s := (exec fw _ (some failure) u).2) calledLast _ _
      | none =>
        obtain ⟨answer, objects⟩ := @objectsAt_delete fw u.peers _ _ _ memThen
        simp only [exec, PeerOp.exec, answer]
        refine sound_done (s := ⟨_, u.status, _⟩) calledLast fun sure => ?_
        have before : u.unsure d k = false := (Bool.or_eq_false_iff.mp sure).1
        change objectsAt _ d k = []
        rw [objects, objects_eq_singleton consistent memThen before]
        simp

/-- What the end of a call keeps -/
theorem finishes_of_ended {call : Call} {result : Except Error Unit}
    (ended : Ended force call.deviceId call.id call result s)
    (consistent : (contract force initial).inv s) :
    (contract force initial).Finishes (system fw force) call.id (call, result) s := by
  cases result with
  | error err => exact ⟨consistent, fun _ _ => (contract force initial).refl _ s⟩
  | ok =>
    have settled : (finish s (call, .ok ())).status call.deviceId call.id = .settled call :=
      if_pos ⟨rfl, rfl⟩
    refine keeps_of call.deviceId consistent (fun d' k' other => ⟨rfl, if_neg other, rfl⟩)
      ⟨(consistent _ _).single, fun untouched => ?_, fun call' same => ?_⟩
    · rw [show (finish s (call, .ok ())).status call.deviceId call.id = .untouched from untouched]
        at settled
      cases settled
    · rw [show (finish s (call, .ok ())).status call.deviceId call.id = .settled call' from same]
        at settled
      rw [Status.settled.inj settled]
      exact ended.done rfl

theorem sound_program {call : Call} (writable : call.Writable)
    (consistent : (contract force initial).inv s)
    (called : s.status call.deviceId call.id = .called) :
    Sound fw force initial call.id
      ((contract force initial).Finishes (system fw force) call.id) (call.program force) s := by
  unfold Call.program
  have body : Sound fw force initial call.id (Ended force call.deviceId call.id call)
      (call.requests force) s := by
    cases call with
    | save now deviceId p => exact sound_savePeer now writable consistent called
    | delete deviceId id => exact sound_deletePeer called
  refine Contract.Sound.bind body consistent fun result t _ ended => ?_
  intro u later consistent
  exact finishes_of_ended (ended.congr (later _)) consistent

theorem upheld : Contract.Upheld (system fw force) (contract force initial) guard where
  env := fun e => e.elim
  start := by
    intro k call s program t consistent writable started
    simp only [system] at started
    split at started
    · rename_i named
      subst named
      obtain ⟨rfl, rfl⟩ := Prod.mk.inj (Option.some.inj started)
      have called : (s.setStatus call.deviceId call.id .called).status call.deviceId call.id =
          .called := if_pos ⟨rfl, rfl⟩
      have keeps : (contract force initial).Keeps call.id s
          (s.setStatus call.deviceId call.id .called) := by
        refine keeps_of call.deviceId consistent (fun d' k' other => ⟨rfl, if_neg other, rfl⟩)
          ⟨(consistent _ _).single, fun untouched => ?_, fun call' settled => ?_⟩
        · rw [called] at untouched
          cases untouched
        · rw [called] at settled
          cases settled
      exact ⟨keeps, sound_program writable keeps.1 called⟩
    · cases started

end Calls

/-- What `GetPeers` returns if its request is answered -/
def reported (fw : Firmware) (now : Time) (d : InterfaceIdentifier) (peers : Table idOf) :
    Except Error (List PhysicalPeer) :=
  ((getPeers now d).eval (fun op peers => op.exec fw peers none) peers).1

theorem reported_eq (now : Time) (d : InterfaceIdentifier) (peers : Table idOf) :
    reported fw now d peers = .ok
      ((peers.rows.filter (Router.meets [("interface", d)])).map (reading now)) := by
  have answer : reported fw now d peers = .ok
      (((peers.rows.filter (Router.meets [("interface", d)])).map
        (Router.project reportedProperties)).map (convertWireGuardPeer now)) := rfl
  rw [answer, List.map_map]
  rfl

/-- The peers of a key are those of its objects. -/
theorem filter_reported (now : Time) (d : InterfaceIdentifier) (k : PeerIdentifier)
    (peers : Table idOf) :
    ((peers.rows.filter (Router.meets [("interface", d)])).map (reading now)).filter
        (·.identifier = k) = (objectsAt peers d k).map (reading now) := by
  rw [List.filter_map, List.filter_filter, objectsAt]
  refine congrArg (List.map _) (List.filter_congr fun o _ => ?_)
  have named : (reading now o).identifier = o.getString "public-key" := rfl
  simp [Router.meets, peerFilters, named]

/-- What the router has of a peer on an interface, after some calls -/
structure Follows (fw : Firmware) (force : Bool) (initial : Table idOf) (now : Time) (s : State)
    (d : InterfaceIdentifier) (k : PeerIdentifier) : Prop where
  /-- The objects of peers that are not called for stay as they are. -/
  untouched : s.status d k = .untouched → objectsAt s.peers d k = objectsAt initial d k
  single : s.unsure d k = false → ∃ all, reported fw now d s.peers = .ok all ∧
    (all.filter (·.identifier = k)).length ≤ 1
  saved : ∀ called d' p, s.status d k = .settled (.save called d' p) → s.unsure d k = false →
    ∃ all pp, reported fw now d s.peers = .ok all ∧ all.filter (·.identifier = k) = [pp] ∧
      HasPeerSettings force p pp
  deleted : ∀ d' k', s.status d k = .settled (.delete d' k') → s.unsure d k = false →
    ∃ all, reported fw now d s.peers = .ok all ∧ all.filter (·.identifier = k) = []

theorem ConsistentAt.follows {s : State} {d : InterfaceIdentifier} {k : PeerIdentifier}
    (consistent : ConsistentAt force initial s d k) (now : Time) :
    Follows fw force initial now s d k := by
  have all := @reported_eq fw now d s.peers
  refine ⟨consistent.untouched, fun sure => ⟨_, all, ?_⟩, fun called d' p settled sure => ?_,
    fun d' k' settled sure => ⟨_, all, ?_⟩⟩
  · rw [filter_reported, List.length_map]
    exact consistent.single sure
  · obtain ⟨o, objects, settings⟩ := consistent.settled _ settled sure
    refine ⟨_, reading now o, all, ?_, settings now⟩
    rw [filter_reported, objects, List.map_singleton]
  · have objects : objectsAt s.peers d k = [] := consistent.settled _ settled sure
    rw [filter_reported, objects, List.map_nil]

instance (call : Call) : Decidable call.Writable :=
  match call with
  | .save _ _ p => inferInstanceAs (Decidable (Mikrotik.Writable p))
  | .delete .. => isTrue trivial

instance (s : State) (e : Empty) : Decidable (guard.env s e) := isTrue trivial

instance (s : State) (k : PeerIdentifier) (call : Call) : Decidable (guard.start s k call) :=
  inferInstanceAs (Decidable call.Writable)

instance (s : State) (k : PeerIdentifier) (op : PeerOp) (failure : Option Failure) :
    Decidable (guard.step s k op failure) := isTrue trivial

def keyedPeer (k : PeerIdentifier) : Peer :=
  { Peer.zero with
    identifier := k
    displayName := "laptop"
    persistentKeepalive := ⟨25, true⟩
    interface := { Peer.zero.interface with keyPair := ⟨"", k⟩ } }

/-- One peer is saved, while the update of another one fails after it took effect, and that one
is deleted. -/
def twoPeers : List (Turn PeerIdentifier Empty Call (Option Failure)) :=
  let lost : Option Failure := some ⟨"timeout", true⟩
  [.start "public-a" (.save 0 "wg0" (keyedPeer "public-a")),
    .start "public-b" (.save 0 "wg0" (keyedPeer "public-b")),
    .step "public-b" none, .step "public-a" none, .step "public-b" none, .step "public-b" lost,
    .step "public-a" none, .step "public-b" none,
    .start "public-b" (.delete "wg0" "public-b"),
    .step "public-b" none, .step "public-a" none, .step "public-b" none,
    .step "public-a" none, .step "public-b" none]

end WgPortal.WgController.Mikrotik.PeerTasks
