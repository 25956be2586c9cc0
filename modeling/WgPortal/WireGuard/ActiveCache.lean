import WgPortal.WireGuard.ActivePeers

/-! What a cycle of the collector does to the active peers that it knows, and which
peers it passes to `markPeerDisconnected`. -/

namespace WgPortal.WireGuard.ActiveCache

open Domain Library Adapters Config

/-- The content of `activeConnectedPeers`, a set of peers for each interface. -/
structure Cache where
  peers : ActivePeers
  nodup : ∀ iface, (peers iface).Nodup

/-- What the operations of a cycle show of its round for an interface: what `GetPeers`
returned, the time at which the peers were filtered, and the peers that were passed
to `markPeerDisconnected`, whose first operation nobody else issues. -/
structure Round where
  iface : Interface
  fetched : Except Error (List PhysicalPeer)
  now : Option Time
  marked : List PeerIdentifier

def observe (rounds : List Round) : (op : StatsOp) → op.Res → List Round
  | .getPeers iface, answer => ⟨iface, answer, none, []⟩ :: rounds
  | .timeNow, now => rounds.modifyHead fun r => { r with now := some now }
  | .getPeer .disconnect id, _ => rounds.modifyHead fun r => { r with marked := r.marked ++ [id] }
  | _, _ => rounds

/-- The operations so far, and the rounds, the last one first. -/
structure Session where
  turn : ℕ
  rounds : List Round

variable (cfg : Config) (scenes : ℕ → Scene)

def perform (op : StatsOp) (s : Session) : op.Res × Session :=
  let answer := (scenes s.turn).answer cfg op
  (answer, ⟨s.turn + 1, observe s.rounds op answer⟩)

/-- A cycle: the active peers that it leaves, and its rounds in order. -/
structure Cycle where
  cache : ActivePeers
  rounds : List Round

def cycle (order : MapOrder PeerIdentifier) (cache : Cache) : Cycle :=
  let done := (collectPeerData cfg order cache.peers).eval (perform cfg scenes) ⟨0, []⟩
  ⟨done.1.1, done.2.rounds.reverse⟩

/-- A handshake younger than two minutes. -/
def Young (now : Time) (wgPeer : PhysicalPeer) : Prop :=
  wgPeer.lastHandshake ≠ 0 ∧ now - wgPeer.lastHandshake < 2 * minute

/-- The device showed a young handshake of the peer. -/
def Round.Active (r : Round) (id : PeerIdentifier) : Prop :=
  ∃ wgPeers, r.fetched = .ok wgPeers ∧ ∃ wgPeer ∈ wgPeers, wgPeer.identifier = id ∧
    ∃ now, r.now = some now ∧ Young now wgPeer

/-- The round finds the peers `before` in the cache of its interface and leaves `after`. -/
structure Round.Exact (r : Round) (before after : List PeerIdentifier) : Prop where
  failed : ∀ err, r.fetched = .error err → after = before ∧ r.marked = []
  cached : ∀ wgPeers, r.fetched = .ok wgPeers → ∀ id, id ∈ after ↔ r.Active id
  dropped : ∀ wgPeers, r.fetched = .ok wgPeers →
    ∀ id, id ∈ r.marked ↔ id ∈ before ∧ ¬ r.Active id
  once : r.marked.Nodup

/-- A cycle has one round for each of the interfaces, and leaves the others alone. -/
structure Exact (before : ActivePeers) (interfaces : List Interface) (done : Cycle) : Prop where
  listed : done.rounds.map Round.iface = interfaces
  each : ∀ r ∈ done.rounds,
    r.Exact (before r.iface.identifier) (done.cache r.iface.identifier)
  others : ∀ id ∉ interfaces.map Interface.identifier, done.cache id = before id
  nodup : ∀ id, (done.cache id).Nodup

theorem isActive_iff (now : Time) (wgPeer : PhysicalPeer) :
    isActive now wgPeer = true ↔ Young now wgPeer := by
  have age : now - 2 * minute < wgPeer.lastHandshake ↔
      now - wgPeer.lastHandshake < 2 * minute := by
    unfold Time at *
    omega
  simp only [isActive, Young, Time.isZero, Time.after, Bool.and_eq_true, Bool.not_eq_true',
    decide_eq_false_iff_not, decide_eq_true_eq, age, ne_eq]

/-- An operation that shows nothing of a round. -/
def Quiet (op : StatsOp) : Prop := ∀ rounds answer, observe rounds op answer = rounds

variable {cfg scenes}

theorem rounds_of_quiet {α : Type} {prog : StatsProgram α} (uses : prog.Uses Quiet) (s : Session) :
    (prog.eval (perform cfg scenes) s).2.rounds = s.rounds := by
  have kept : ∀ (op : StatsOp) (t : Session), Quiet op → t.rounds = s.rounds →
      (perform cfg scenes op t).2.rounds = s.rounds := by
    intro op t quiet same
    rw [← same]
    exact quiet _ _
  exact uses.eval_invariant kept rfl

theorem quiet_reports (op : StatsOp) (reports : op.Reports) : Quiet op := by
  intro rounds answer
  cases op <;> first | rfl | cases reports

theorem rounds_refreshPeers (known : List PeerIdentifier) (wgPeers : List PhysicalPeer)
    (s : Session) :
    ((refreshPeers cfg known wgPeers).eval (perform cfg scenes) s).2.rounds = s.rounds :=
  rounds_of_quiet (uses_refreshPeers quiet_reports (fun _ _ _ => rfl) (fun _ _ _ _ => rfl)
    (fun _ _ _ => rfl) known) s

theorem rounds_markPeerDisconnected (id : PeerIdentifier) {s : Session} {r : Round}
    {rounds : List Round} (open' : s.rounds = r :: rounds) :
    ((markPeerDisconnected cfg id).eval (perform cfg scenes) s).2.rounds =
      { r with marked := r.marked ++ [id] } :: rounds := by
  have first : (perform cfg scenes (.getPeer .disconnect id) s).2.rounds =
      { r with marked := r.marked ++ [id] } :: rounds := by
    simp only [perform, observe, open', List.modifyHead_cons]
  simp only [markPeerDisconnected, StatsProgram.issue, Program.call_bind, Program.ret_bind,
    Program.eval_call]
  rw [← first]
  apply rounds_of_quiet
  cases (perform cfg scenes (.getPeer .disconnect id) s).1 with
  | error err => trivial
  | ok peer =>
    refine ⟨fun _ _ => rfl, fun done => ?_⟩
    dsimp only
    cases done.result with
    | error err => trivial
    | ok _ => exact uses_updatePeerMetrics quiet_reports ..

theorem rounds_markPeersDisconnected (ids : List PeerIdentifier) {s : Session} {r : Round}
    {rounds : List Round} (open' : s.rounds = r :: rounds) :
    ((markPeersDisconnected cfg ids).eval (perform cfg scenes) s).2.rounds =
      { r with marked := r.marked ++ ids } :: rounds := by
  induction ids generalizing s r with
  | nil => simpa [markPeersDisconnected] using open'
  | cons id ids ih =>
    rw [markPeersDisconnected, Program.eval_bind, ih (rounds_markPeerDisconnected id open')]
    simp

/-- The filter keeps the young ones, at the time that the round shows. -/
theorem filterActivePeers_exact (wgPeers : List PhysicalPeer) {s : Session} {r : Round}
    {rounds : List Round} (open' : s.rounds = r :: rounds) :
    let out := (filterActivePeers wgPeers).eval (perform cfg scenes) s
    ∃ now, out.2.rounds = { r with now := now } :: rounds ∧
      ∀ wgPeer, wgPeer ∈ out.1 ↔ wgPeer ∈ wgPeers ∧ ∃ t, now = some t ∧ Young t wgPeer := by
  unfold filterActivePeers
  cases wgPeers with
  | nil => exact ⟨r.now, open', by simp⟩
  | cons wgPeer wgPeers =>
    refine ⟨some (perform cfg scenes .timeNow s).1, ?_, fun other => ?_⟩
    · change (perform cfg scenes .timeNow s).2.rounds = _
      simp only [perform, observe, open', List.modifyHead_cons]
    · change other ∈ List.filter _ _ ↔ _
      simp only [List.mem_filter, isActive_iff, Option.some.injEq, exists_eq_left']

/-- The peers of a fetched interface that are no longer active are dropped. -/
theorem exact_of_fetched {r : Round} {wgPeers activePeers : List PhysicalPeer}
    (fetched : r.fetched = .ok wgPeers) {before : List PeerIdentifier} (nodup : before.Nodup)
    (active : ∀ wgPeer, wgPeer ∈ activePeers ↔
      wgPeer ∈ wgPeers ∧ ∃ t, r.now = some t ∧ Young t wgPeer)
    (order : MapOrder PeerIdentifier)
    (marked : r.marked = (order.order before).filter
      (· ∉ (activePeers.map PhysicalPeer.identifier).dedup)) :
    r.Exact before (activePeers.map PhysicalPeer.identifier).dedup := by
  have current : ∀ id, id ∈ (activePeers.map PhysicalPeer.identifier).dedup ↔ r.Active id := by
    intro id
    simp only [List.mem_dedup, List.mem_map, active, Round.Active, fetched]
    constructor
    · rintro ⟨wgPeer, ⟨listed, young⟩, same⟩
      exact ⟨wgPeers, rfl, wgPeer, listed, same, young⟩
    · rintro ⟨_, same', wgPeer, listed, same, young⟩
      rw [← Except.ok.inj same'] at listed
      exact ⟨wgPeer, ⟨listed, young⟩, same⟩
  have ordered := order.perm before
  exact
    { failed := fun err failed => by
        rw [fetched] at failed
        cases failed
      cached := fun _ _ => current
      dropped := fun _ _ id => by
        rw [marked, List.mem_filter, ordered.mem_iff, decide_eq_true_eq, current]
      once := by
        rw [marked]
        exact (ordered.nodup_iff.mpr nodup).filter _ }

theorem exact_of_failed {r : Round} {err : Error} (failed : r.fetched = .error err)
    (none : r.marked = []) (before : List PeerIdentifier) : r.Exact before before where
  failed := fun _ _ => ⟨rfl, none⟩
  cached := fun wgPeers fetched => by
    rw [failed] at fetched
    cases fetched
  dropped := fun wgPeers fetched => by
    rw [failed] at fetched
    cases fetched
  once := none ▸ List.nodup_nil

/-- One round of the loop. -/
theorem collectInterface_exact (order : MapOrder PeerIdentifier) {cache : ActivePeers}
    (nodup : ∀ id, (cache id).Nodup) (iface : Interface) (s : Session) :
    let out := (collectInterface cfg order cache iface).eval (perform cfg scenes) s
    ∃ r, out.2.rounds = r :: s.rounds ∧ r.iface = iface ∧
      r.Exact (cache iface.identifier) (out.1.1 iface.identifier) ∧
      (∀ id ≠ iface.identifier, out.1.1 id = cache id) ∧ ∀ id, (out.1.1 id).Nodup := by
  intro out
  let opened := perform cfg scenes (.getPeers iface) s
  have rounds : opened.2.rounds = ⟨iface, opened.1, none, []⟩ :: s.rounds := rfl
  cases fetched : opened.1 with
  | error err =>
    have same : out = ((cache, false), opened.2) := by
      simp only [out, collectInterface, StatsProgram.issue, Program.call_bind, Program.ret_bind,
        Program.eval_call]
      rw [show (perform cfg scenes (.getPeers iface) s).1 = .error err from fetched]
      rfl
    rw [same]
    exact ⟨_, rounds, rfl, exact_of_failed fetched rfl _, fun _ _ => rfl, nodup⟩
  | ok wgPeers =>
    obtain ⟨now, filtered, active⟩ :=
      @filterActivePeers_exact cfg scenes wgPeers opened.2 _ s.rounds rounds
    let kept := (filterActivePeers wgPeers).eval (perform cfg scenes) opened.2
    let current := (kept.1.map PhysicalPeer.identifier).dedup
    let gone := (order.order (cache iface.identifier)).filter (· ∉ current)
    let refreshed := (refreshPeers cfg (cache iface.identifier) kept.1).eval
      (perform cfg scenes) kept.2
    let marked := (markPeersDisconnected cfg gone).eval (perform cfg scenes) refreshed.2
    have same : out = ((Function.update cache iface.identifier current, true), marked.2) := by
      simp only [out, collectInterface, StatsProgram.issue, Program.call_bind, Program.ret_bind,
        Program.eval_call]
      rw [show (perform cfg scenes (.getPeers iface) s).1 = .ok wgPeers from fetched]
      simp only [Program.eval_bind]
      rfl
    have left : marked.2.rounds = ⟨iface, opened.1, now, [] ++ gone⟩ :: s.rounds :=
      rounds_markPeersDisconnected gone
        ((rounds_refreshPeers (cache iface.identifier) kept.1 kept.2).trans filtered)
    rw [same]
    dsimp only
    refine ⟨_, left, rfl, ?_, fun id other => Function.update_of_ne other .., fun id => ?_⟩
    · rw [Function.update_self]
      exact exact_of_fetched fetched (nodup _) active order rfl
    · by_cases here : id = iface.identifier
      · rw [here, Function.update_self]
        exact List.nodup_dedup _
      · rw [Function.update_of_ne here]
        exact nodup id

/-- The rounds of a list of interfaces, each listed once. -/
theorem collectInterfaces_exact (order : MapOrder PeerIdentifier) {cache : ActivePeers}
    (nodup : ∀ id, (cache id).Nodup) {interfaces : List Interface}
    (distinct : (interfaces.map Interface.identifier).Nodup) (s : Session) :
    let out := (collectInterfaces cfg order cache interfaces).eval (perform cfg scenes) s
    ∃ rounds, out.2.rounds = rounds.reverse ++ s.rounds ∧
      Exact cache interfaces ⟨out.1.1, rounds⟩ := by
  induction interfaces generalizing cache s with
  | nil => exact ⟨[], rfl, rfl, fun _ listed => (by cases listed), fun _ _ => rfl, nodup⟩
  | cons iface interfaces ih =>
    obtain ⟨fresh, distinct⟩ := List.nodup_cons.mp distinct
    let first := (collectInterface cfg order cache iface).eval (perform cfg scenes) s
    obtain ⟨r, opened, same, exact, others, nodup'⟩ :=
      @collectInterface_exact cfg scenes order cache nodup iface s
    obtain ⟨rounds, left, rest⟩ := @ih first.1.1 nodup' distinct first.2
    have out : (collectInterfaces cfg order cache (iface :: interfaces)).eval
        (perform cfg scenes) s =
          let more := (collectInterfaces cfg order first.1.1 interfaces).eval
            (perform cfg scenes) first.2
          ((more.1.1, first.1.2 && more.1.2), more.2) := by
      simp only [collectInterfaces, Program.eval_bind]
      rfl
    have after : ∀ id ∉ interfaces.map Interface.identifier,
        ((collectInterfaces cfg order first.1.1 interfaces).eval (perform cfg scenes)
          first.2).1.1 id = first.1.1 id := rest.others
    rw [out]
    refine ⟨r :: rounds, ?_, ?_, ?_, ?_, rest.nodup⟩
    · simp only [List.reverse_cons, List.append_assoc, List.singleton_append]
      exact left.trans (congrArg _ opened)
    · simp only [List.map_cons, same]
      exact congrArg _ rest.listed
    · rintro r' (_ | ⟨_, later⟩)
      · dsimp only
        rw [same, after _ fresh]
        exact exact
      · have listed : r'.iface ∈ interfaces := by
          rw [← rest.listed]
          exact List.mem_map_of_mem later
        have other : r'.iface.identifier ≠ iface.identifier := fun here =>
          fresh (here ▸ List.mem_map_of_mem listed)
        rw [← others _ other]
        exact rest.each r' later
    · intro id unlisted
      obtain ⟨other, unlisted⟩ := not_or.mp (List.mem_cons.not.mp unlisted)
      exact (after id unlisted).trans (others id other)

/-- The interfaces that a cycle reads, none if that fails. -/
def listed (scene : Scene) : List Interface :=
  match scene.occasion.fault with
  | some _ => []
  | none => scene.db.getAllInterfaces

end WgPortal.WireGuard.ActiveCache
