import WgPortal.App.MigrateV1

/-! What a failed migration leaves in the target, and what a successful one leaves out. -/

namespace WgPortal.App.MigrateV1

open Domain Library

/-- The steps of a migration in their order -/
inductive Step where
  | fetchUsers
  | user (u : V1User)
  | fetchDevices
  | device (d : V1Device)
  | fetchPeers
  | peer (p : V1Peer)

namespace Step

variable (env : Env)

/-- The steps that only read -/
def Fetches : Step → Prop
  | fetchUsers | fetchDevices | fetchPeers => True
  | _ => False

def run : Step → Migration
  | fetchUsers => reading env .fetchUsers "unable to fetch old user records"
  | user u => migrateUser env u
  | fetchDevices => reading env .fetchDevices "unable to fetch old device records"
  | device d => migrateInterface env d
  | fetchPeers => reading env .fetchPeers "unable to fetch old peer records"
  | peer p => migratePeer env p

/-- The user that a step stores under an identifier, if none is -/
def storedUser (id : UserIdentifier) : Step → Option User
  | user u => if u.email = id then some (migratedUser u) else none
  | peer p => if p.email = id then some (dummyUser p.email (env.now p.publicKey)) else none
  | _ => none

def storedInterface (id : InterfaceIdentifier) : Step → Option Interface
  | device d =>
    if d.deviceName = id then (cidrsFromString d.ipsStr).map (migratedInterface d) else none
  | _ => none

def storedPeer (interfaces : InterfaceIdentifier → Option Interface) (id : PeerIdentifier) :
    Step → Option Peer
  | peer p =>
    if p.publicKey = id then
      (cidrsFromString p.ipsStr).bind fun ips =>
        (interfaces p.deviceName).map (migratedPeer p ips)
    else none
  | _ => none

/-- Two steps, in this order, for different records -/
def Apart : Step → Step → Prop
  | user u, user u' => u.email ≠ u'.email
  | device d, device d' => d.deviceName ≠ d'.deviceName
  | peer p, peer p' => p.publicKey ≠ p'.publicKey
  | peer _, user _ | peer _, device _ => False
  | _, _ => True

/-- A step fails after the steps before it: a statement of it fails, addresses cannot be read, or
a peer is on an unknown device. -/
def Fails (before : List Step) : Step → Prop
  | fetchUsers => env.fault .fetchUsers ≠ none
  | user u => env.fault (.createUser u.email) ≠ none
  | fetchDevices => env.fault .fetchDevices ≠ none
  | device d => cidrsFromString d.ipsStr = none ∨ env.fault (.createInterface d.deviceName) ≠ none
  | fetchPeers => env.fault .fetchPeers ≠ none
  | peer p =>
    cidrsFromString p.ipsStr = none ∨ env.fault (.findInterface p.publicKey) ≠ none ∨
      (∀ d, device d ∈ before → d.deviceName ≠ p.deviceName) ∨
      env.fault (.findUser p.publicKey) ≠ none ∨
      (before.findSome? (storedUser env p.email) = none ∧ env.fault (.saveUser p.publicKey) ≠ none) ∨
      env.fault (.createPeer p.publicKey) ≠ none

end Step

open Step

def steps (source : V1Database) : List Step :=
  .fetchUsers :: (liveUsers source).map .user ++
    (.fetchDevices :: source.devices.rows.map .device ++
      .fetchPeers :: source.peers.rows.map .peer)

/-- The tables have no rows, as `validateTargetDatabase` demands. -/
def Target.Empty (t : Target) : Prop :=
  t.users.rows = [] ∧ t.interfaces.rows = [] ∧ t.peers.rows = []

section Runs

variable (env : Env)

/-- The results are the same but for the text of the error. -/
def Same (r r' : Option Error × Target) : Prop := r.1.isSome = r'.1.isSome ∧ r.2 = r'.2

theorem forEach_append {α : Type} (f : α → Migration) (as bs : List α) :
    forEach f (as ++ bs) = inSequence (forEach f as) (forEach f bs) := by
  funext t
  induction as generalizing t with
  | nil => rfl
  | cons a as ih =>
    simp only [List.cons_append, forEach, inSequence]
    rcases f a t with ⟨_ | err, t'⟩
    · simp only [ih, inSequence]
    · rfl

theorem forEach_map {α β : Type} (f : β → Migration) (g : α → β) (as : List α) :
    forEach f (as.map g) = forEach (fun a => f (g a)) as := by
  funext t
  induction as generalizing t with
  | nil => rfl
  | cons a as ih =>
    simp only [List.map_cons, forEach]
    rcases f (g a) t with ⟨_ | err, t'⟩
    · exact ih t'
    · rfl

theorem same_wrapping (text : String) (m : Migration) (t : Target) : Same (wrapping text m t) (m t) :=
  ⟨by simp [wrapping], rfl⟩

theorem same_inSequence {m m' n n' : Migration} (same : ∀ t, Same (m t) (m' t))
    (same' : ∀ t, Same (n t) (n' t)) (t : Target) :
    Same (inSequence m n t) (inSequence m' n' t) := by
  have first := same t
  unfold inSequence
  generalize m t = r at first ⊢
  generalize m' t = r' at first ⊢
  obtain ⟨fails, target⟩ := first
  rcases r with ⟨_ | err, u⟩ <;> rcases r' with ⟨_ | err', u'⟩
  · exact (show u = u' from target) ▸ same' u
  · cases fails
  · cases fails
  · exact ⟨rfl, target⟩

/-- The three parts of the migration are one run over all steps. -/
theorem migrated_same (source : V1Database) (t : Target) :
    Same (inSequence (wrapping "user migration failed" (migrateV1Users env source))
      (inSequence (wrapping "user migration failed" (migrateV1Interfaces env source))
        (wrapping "peer migration failed" (migrateV1Peers env source))) t)
      (forEach (Step.run env) (steps source) t) := by
  have whole : forEach (Step.run env) (steps source) =
      inSequence (migrateV1Users env source)
        (inSequence (migrateV1Interfaces env source) (migrateV1Peers env source)) := by
    rw [steps, forEach_append, forEach_append]
    have part : ∀ (fetch : Step) (rest : List Step), forEach (Step.run env) (fetch :: rest) =
        inSequence (fetch.run env) (forEach (Step.run env) rest) := fun fetch rest => by
      funext t
      rfl
    rw [part, part, part, forEach_map, forEach_map, forEach_map]
    rfl
  rw [whole]
  exact same_inSequence (same_wrapping _ _)
    (same_inSequence (same_wrapping _ _) (same_wrapping _ _)) t

end Runs

theorem create_ok {ν : Type} {key : ν → String} {table : Table key} {row : ν}
    (fresh : table.find (key row) = none) :
    ∃ table', create none table row = .ok table' ∧
      (∀ k, table'.find k = (table.find k).or (if key row = k then some row else none)) ∧
      table'.rows ≠ [] := by
  have absent : ∀ r ∈ table.rows, key r ≠ key row := Table.find_eq_none.mp fresh
  cases inserted : table.insert row with
  | none =>
    rw [Table.insert, dif_pos absent] at inserted
    cases inserted
  | some table' =>
    have found := Table.find_insert inserted
    refine ⟨table', by simp only [create, inserted], fun k => ?_, fun none => ?_⟩
    · rw [found k]
      by_cases same : key row = k
      · rw [if_pos same, ← same, fresh, Option.none_or, if_pos rfl]
      · rw [if_neg same, if_neg same, Option.or_none]
    · have here := Table.mem_of_find ((found (key row)).trans (if_pos rfl))
      rw [none] at here
      cases here

/-- The peers that are stored by the steps, on the interfaces that are. -/
def peerAfter (before : List Step) (id : PeerIdentifier) : Option Peer :=
  before.findSome? (storedPeer (fun id => before.findSome? (storedInterface id)) id)

/-- What the steps so far have stored, if none of them failed -/
structure After (env : Env) (before : List Step) (t : Target) : Prop where
  users : ∀ id, t.users.find id = before.findSome? (storedUser env id)
  interfaces : ∀ id, t.interfaces.find id = before.findSome? (storedInterface id)
  peers : ∀ id, t.peers.find id = peerAfter before id
  parsed : ∀ d, .device d ∈ before → cidrsFromString d.ipsStr ≠ none
  empty : t.Empty ↔ ∀ b ∈ before, Fetches b

section Steps

variable {env : Env} {before : List Step} {t : Target}

theorem findSome?_snoc {α : Type} (f : Step → Option α) (before : List Step) (s : Step) :
    (before ++ [s]).findSome? f = (before.findSome? f).or (f s) := by
  rw [List.findSome?_append, List.findSome?_singleton]

/-- A step that stores something -/
theorem empty_iff_of_stores {s : Step} {t' : Target} (stores : ¬ Fetches s) (filled : ¬ t'.Empty) :
    t'.Empty ↔ ∀ b ∈ before ++ [s], Fetches b :=
  iff_of_false filled fun all => stores (all s (by simp))

/-- No peer is migrated before a user or a device is. -/
theorem storedPeer_eq_none {s : Step} (apart : ∀ b ∈ before, Apart b s)
    (early : ∀ p, ¬ Apart (.peer p) s) (interfaces : InterfaceIdentifier → Option Interface)
    (id : PeerIdentifier) : before.findSome? (storedPeer interfaces id) = none := by
  refine List.findSome?_eq_none_iff.mpr fun b among => ?_
  cases b with
  | peer p => exact absurd (apart _ among) (early p)
  | _ => rfl

theorem fresh_user (env : Env) {u : V1User} (apart : ∀ b ∈ before, Apart b (.user u)) :
    before.findSome? (storedUser env u.email) = none := by
  refine List.findSome?_eq_none_iff.mpr fun b among => ?_
  have other := apart b among
  cases b with
  | user u' => exact if_neg other
  | peer p => cases other
  | _ => rfl

theorem fresh_device {d : V1Device} (apart : ∀ b ∈ before, Apart b (.device d)) :
    before.findSome? (storedInterface d.deviceName) = none := by
  refine List.findSome?_eq_none_iff.mpr fun b among => ?_
  have other := apart b among
  cases b with
  | device d' => exact if_neg other
  | _ => rfl

theorem fresh_peer {p : V1Peer} (apart : ∀ b ∈ before, Apart b (.peer p))
    (interfaces : InterfaceIdentifier → Option Interface) :
    before.findSome? (storedPeer interfaces p.publicKey) = none := by
  refine List.findSome?_eq_none_iff.mpr fun b among => ?_
  have other := apart b among
  cases b with
  | peer p' => exact if_neg other
  | _ => rfl

theorem After.interface_iff (after : After env before t) (id : InterfaceIdentifier) :
    t.interfaces.find id = none ↔ ∀ d, .device d ∈ before → d.deviceName ≠ id := by
  rw [after.interfaces, List.findSome?_eq_none_iff]
  constructor
  · intro none d among same
    have stores := none _ among
    simp only [storedInterface, if_pos same, Option.map_eq_none_iff] at stores
    exact after.parsed d among stores
  · intro others b among
    cases b with
    | device d => exact if_neg (others d among)
    | _ => rfl

theorem peerAfter_snoc {s : Step} (quiet : ∀ id, storedInterface id s = none)
    (id : PeerIdentifier) : peerAfter (before ++ [s]) id = (peerAfter before id).or
      (storedPeer (fun id => before.findSome? (storedInterface id)) id s) := by
  simp only [peerAfter, findSome?_snoc, quiet, Option.or_none]

theorem parsed_snoc {s : Step} (other : ∀ d, s ≠ .device d)
    (parsed : ∀ d, .device d ∈ before → cidrsFromString d.ipsStr ≠ none) :
    ∀ d, .device d ∈ before ++ [s] → cidrsFromString d.ipsStr ≠ none := by
  intro d among
  rcases List.mem_append.mp among with early | last
  · exact parsed d early
  · exact absurd (List.mem_singleton.mp last).symm (other d)

theorem reading_ok {statement : Statement} {text : String} (calm : env.fault statement = none) :
    reading env statement text t = (none, t) := by
  simp [reading, wrapping, calm]

theorem After.fetch {s : Step} (after : After env before t) (fetches : Fetches s) :
    After env (before ++ [s]) t := by
  have quiet : (∀ id, storedUser env id s = none) ∧ (∀ id, storedInterface id s = none) ∧
      (∀ f id, storedPeer f id s = none) ∧ ∀ d, s ≠ .device d := by
    cases s with
    | user | device | peer => cases fetches
    | _ => exact ⟨fun _ => rfl, fun _ => rfl, fun _ _ => rfl, fun _ same => by cases same⟩
  refine ⟨fun id => ?_, fun id => ?_, fun id => ?_, parsed_snoc quiet.2.2.2 after.parsed, ?_⟩
  · rw [findSome?_snoc, quiet.1, Option.or_none, after.users]
  · rw [findSome?_snoc, quiet.2.1, Option.or_none, after.interfaces]
  · exact (after.peers id).trans
      ((peerAfter_snoc quiet.2.1 id).trans (by rw [quiet.2.2.1, Option.or_none])).symm
  · rw [after.empty, List.forall_mem_append, List.forall_mem_singleton]
    exact (and_iff_left fetches).symm

theorem run_user_ok {u : V1User} (apart : ∀ b ∈ before, Apart b (.user u))
    (calm : env.fault (.createUser u.email) = none) (after : After env before t) :
    ∃ t', (Step.user u).run env t = (none, t') ∧ After env (before ++ [.user u]) t' := by
  have fresh : t.users.find (migratedUser u).identifier = none :=
    (after.users _).trans (fresh_user env apart)
  obtain ⟨users, created, found, filled⟩ := create_ok fresh
  refine ⟨{ t with users := users }, by simp only [run, migrateUser, calm, created],
    ⟨fun id => ?_, fun id => ?_, fun id => ?_, parsed_snoc (fun _ same => by cases same) after.parsed,
      empty_iff_of_stores id fun none => filled none.1⟩⟩
  · rw [findSome?_snoc, ← after.users]
    exact found id
  · rw [findSome?_snoc, ← after.interfaces]
    exact (Option.or_none).symm
  · exact (after.peers id).trans
      ((peerAfter_snoc (fun _ => rfl) id).trans (Option.or_none)).symm

theorem run_device_ok {d : V1Device} (apart : ∀ b ∈ before, Apart b (.device d))
    (ok : ¬ Fails env before (.device d)) (after : After env before t) :
    ∃ t', (Step.device d).run env t = (none, t') ∧ After env (before ++ [.device d]) t' := by
  obtain ⟨parses, calm⟩ := not_or.mp ok
  obtain ⟨ips, parsed⟩ := Option.ne_none_iff_exists'.mp parses
  have fresh : t.interfaces.find (migratedInterface d ips).identifier = none :=
    (after.interfaces _).trans (fresh_device apart)
  obtain ⟨interfaces, created, found, filled⟩ := create_ok fresh
  refine ⟨{ t with interfaces := interfaces },
    by simp only [run, migrateInterface, parsed, not_not.mp calm, created],
    ⟨fun id => ?_, fun id => ?_, fun id => ?_, ?_,
      empty_iff_of_stores id fun none => filled none.2.1⟩⟩
  · rw [findSome?_snoc, ← after.users]
    exact (Option.or_none).symm
  · rw [findSome?_snoc, ← after.interfaces, storedInterface, parsed]
    exact found id
  · have none := fun f => storedPeer_eq_none apart (fun _ same => by cases same) f id
    rw [peerAfter, findSome?_snoc, none, Option.none_or]
    exact (after.peers id).trans (none _)
  · intro d' among
    rcases List.mem_append.mp among with early | last
    · exact after.parsed d' early
    · cases List.mem_singleton.mp last
      exact parses

theorem findOwner_ok {p : V1Peer} (calm : env.fault (.findUser p.publicKey) = none)
    (saves : t.users.find p.email = none → env.fault (.saveUser p.publicKey) = none) :
    ∃ users, findOwner env p t = (none, { t with users := users }) ∧
      ∀ id, users.find id = (t.users.find id).or (storedUser env id (.peer p)) := by
  cases known : t.users.find p.email with
  | some user =>
    refine ⟨t.users, by simp only [findOwner, calm, known], fun id => ?_⟩
    by_cases same : p.email = id
    · rw [← same, known, Option.some_or]
    · rw [storedUser, if_neg same, Option.or_none]
  | none =>
    refine ⟨t.users.upsert (dummyUser p.email (env.now p.publicKey)),
      by simp only [findOwner, calm, known, saves known], fun id => ?_⟩
    have named : (dummyUser p.email (env.now p.publicKey)).identifier = p.email := rfl
    rw [Table.find_upsert, storedUser, named]
    by_cases same : p.email = id
    · rw [if_pos same, ← same, known, Option.none_or, if_pos rfl]
    · rw [if_neg same, if_neg same, Option.or_none]

theorem run_peer_ok {p : V1Peer} (apart : ∀ b ∈ before, Apart b (.peer p))
    (ok : ¬ Fails env before (.peer p)) (after : After env before t) :
    ∃ t', (Step.peer p).run env t = (none, t') ∧ After env (before ++ [.peer p]) t' := by
  simp only [Fails, not_or, not_and, not_not] at ok
  obtain ⟨parses, calm, known, calm', saves, calm''⟩ := ok
  obtain ⟨ips, parsed⟩ := Option.ne_none_iff_exists'.mp parses
  obtain ⟨iface, stored⟩ := Option.ne_none_iff_exists'.mp
    fun none => known ((after.interface_iff p.deviceName).mp none)
  obtain ⟨users, owned, foundUser⟩ := findOwner_ok (t := t) calm' (after.users p.email ▸ saves)
  have fresh : t.peers.find (migratedPeer p ips iface).identifier = none :=
    (after.peers _).trans (fresh_peer apart _)
  obtain ⟨peers, created, found, filled⟩ := create_ok fresh
  refine ⟨{ t with users := users, peers := peers },
    by simp only [run, migratePeer, parsed, calm, stored, owned, calm'', created],
    ⟨fun id => ?_, fun id => ?_, fun id => ?_, parsed_snoc (fun _ same => by cases same) after.parsed,
      empty_iff_of_stores id fun none => filled none.2.2⟩⟩
  · rw [findSome?_snoc, ← after.users]
    exact foundUser id
  · rw [findSome?_snoc, ← after.interfaces]
    exact (Option.or_none).symm
  · refine (found id).trans (Eq.trans ?_ (peerAfter_snoc (fun _ => rfl) id).symm)
    rw [after.peers id, storedPeer, parsed, ← after.interfaces, stored]
    rfl

/-- A step that does not fail stores its record. -/
theorem run_ok {s : Step} (apart : ∀ b ∈ before, Apart b s) (ok : ¬ Fails env before s)
    (after : After env before t) :
    ∃ t', s.run env t = (none, t') ∧ After env (before ++ [s]) t' := by
  cases s with
  | user u => exact run_user_ok apart (not_not.mp ok) after
  | device d => exact run_device_ok apart ok after
  | peer p => exact run_peer_ok apart ok after
  | _ => exact ⟨t, reading_ok (not_not.mp ok), after.fetch trivial⟩

/-- A step that fails leaves the tables empty if they were; a user can only be made up once there
is an interface. -/
theorem findOwner_fails {p : V1Peer} (fails : env.fault (.findUser p.publicKey) ≠ none ∨
    t.users.find p.email = none ∧ env.fault (.saveUser p.publicKey) ≠ none) :
    ∃ err, findOwner env p t = (some err, t) := by
  unfold findOwner
  cases finds : env.fault (.findUser p.publicKey) with
  | some err => exact ⟨_, rfl⟩
  | none =>
    obtain ⟨unknown, saves⟩ := fails.resolve_left (not_not.mpr finds)
    obtain ⟨err, save⟩ := Option.ne_none_iff_exists'.mp saves
    simp only [unknown, save]
    exact ⟨_, rfl⟩

theorem run_peer_fails {p : V1Peer} (fails : Fails env before (.peer p))
    (after : After env before t) :
    ∃ err t', (Step.peer p).run env t = (some err, t') ∧ (t'.Empty ↔ t.Empty) := by
  simp only [run, migratePeer]
  cases parsed : cidrsFromString p.ipsStr with
  | none => exact ⟨_, t, rfl, Iff.rfl⟩
  | some ips =>
    cases finds : env.fault (.findInterface p.publicKey) with
    | some err => exact ⟨_, t, rfl, Iff.rfl⟩
    | none =>
      cases stored : t.interfaces.find p.deviceName with
      | none => exact ⟨_, t, rfl, Iff.rfl⟩
      | some iface =>
        simp only [Fails, parsed, finds, ← after.interface_iff, stored, ← after.users,
          reduceCtorEq, ne_eq, not_true_eq_false, false_or] at fails
        by_cases owner : env.fault (.findUser p.publicKey) = none ∧
            (t.users.find p.email = none → env.fault (.saveUser p.publicKey) = none)
        · obtain ⟨users, owned, _⟩ := findOwner_ok owner.1 owner.2
          have creates : env.fault (.createPeer p.publicKey) ≠ none := by tauto
          obtain ⟨err, created⟩ := Option.ne_none_iff_exists'.mp creates
          have filled : t.interfaces.rows ≠ [] := fun none => by
            have here := Table.mem_of_find stored
            rw [none] at here
            cases here
          refine ⟨_, { t with users := users }, by simp only [owned, created, create]; rfl, ?_⟩
          exact iff_of_false (fun empty => filled empty.2.1) fun empty => filled empty.2.1
        · obtain ⟨err, unowned⟩ := @findOwner_fails env t p (by tauto)
          exact ⟨err, t, by simp only [unowned], Iff.rfl⟩

theorem run_fails {s : Step} (fails : Fails env before s) (after : After env before t) :
    ∃ err t', s.run env t = (some err, t') ∧ (t'.Empty ↔ t.Empty) := by
  cases s with
  | peer p => exact run_peer_fails fails after
  | user u =>
    obtain ⟨err, fault⟩ := Option.ne_none_iff_exists'.mp fails
    exact ⟨_, t, by simp only [run, migrateUser, fault, create]; rfl, Iff.rfl⟩
  | device d =>
    simp only [run, migrateInterface]
    cases parsed : cidrsFromString d.ipsStr with
    | none => exact ⟨_, t, rfl, Iff.rfl⟩
    | some ips =>
      obtain ⟨err, fault⟩ := Option.ne_none_iff_exists'.mp
        (fails.resolve_left (by rw [parsed]; exact Option.some_ne_none ips))
      exact ⟨_, t, by simp only [fault, create]; rfl, Iff.rfl⟩
  | _ =>
    obtain ⟨err, fault⟩ := Option.ne_none_iff_exists'.mp fails
    exact ⟨_, t, by simp only [run, reading, wrapping, fault]; rfl, Iff.rfl⟩

/-- A run fails at the first step that does, or stores what all steps store. -/
theorem forEach_spec (rest : List Step) (apart : (before ++ rest).Pairwise Apart)
    (after : After env before t) :
    (∃ t', forEach (Step.run env) rest t = (none, t') ∧ After env (before ++ rest) t' ∧
      ∀ done s todo, rest = done ++ s :: todo → ¬ Fails env (before ++ done) s) ∨
    ∃ done s todo err t', rest = done ++ s :: todo ∧ Fails env (before ++ done) s ∧
      forEach (Step.run env) rest t = (some err, t') ∧
      (∀ done' s' todo', done = done' ++ s' :: todo' → ¬ Fails env (before ++ done') s') ∧
      (t'.Empty ↔ ∀ b ∈ before ++ done, Fetches b) := by
  induction rest generalizing before t with
  | nil =>
    refine .inl ⟨t, rfl, by rwa [List.append_nil], fun done s todo split => ?_⟩
    simp at split
  | cons s rest ih =>
    by_cases fails : Fails env before s
    · obtain ⟨err, t', failed, empty⟩ := run_fails fails after
      refine .inr ⟨[], s, rest, err, t', rfl, by rwa [List.append_nil],
        by simp only [forEach, failed], fun done' s' todo' split => ?_, ?_⟩
      · simp at split
      · rw [List.append_nil, empty, after.empty]
    · have first : ∀ b ∈ before, Apart b s := fun b among =>
        (List.pairwise_append.mp apart).2.2 b among s List.mem_cons_self
      obtain ⟨t₁, ran, after₁⟩ := run_ok first fails after
      have run : forEach (Step.run env) (s :: rest) t = forEach (Step.run env) rest t₁ := by
        simp only [forEach, ran]
      have apart₁ : (before ++ [s] ++ rest).Pairwise Apart := by simpa using apart
      rcases ih apart₁ after₁ with ⟨t', ends, after', none⟩ |
        ⟨done, s', todo, err, t', split, fails', ends, none, empty⟩
      · refine .inl ⟨t', run.trans ends, by simpa using after', fun done s' todo split => ?_⟩
        rcases List.cons_eq_append_iff.mp split with ⟨rfl, same⟩ | ⟨done', rfl, split'⟩
        · obtain ⟨rfl, rfl⟩ := List.cons.inj same
          rwa [List.append_nil]
        · simpa using none done' s' todo split'
      · refine .inr ⟨s :: done, s', todo, err, t', by rw [split]; rfl, by simpa using fails',
          run.trans ends, fun done' s'' todo' split' => ?_, by simpa using empty⟩
        rcases List.cons_eq_append_iff.mp split' with ⟨rfl, same⟩ | ⟨done'', rfl, split''⟩
        · obtain ⟨rfl, rfl⟩ := List.cons.inj same
          rwa [List.append_nil]
        · simpa using none done'' s'' todo' split''

end Steps

/-- The target has what the source has: one user, interface or peer for each record, and a locked
user for each owner without a record. -/
structure Complete (source : V1Database) (t : Target) : Prop where
  users : ∀ u ∈ source.users.rows, t.users.find u.email = some (migratedUser u)
  owners : ∀ p ∈ source.peers.rows, source.users.find p.email = none →
    ∃ now, t.users.find p.email = some (dummyUser p.email now)
  onlyUsers : ∀ row ∈ t.users.rows, (∃ u ∈ source.users.rows, u.email = row.identifier) ∨
    ∃ p ∈ source.peers.rows, p.email = row.identifier
  interfaces : ∀ d ∈ source.devices.rows, ∃ ips, cidrsFromString d.ipsStr = some ips ∧
    t.interfaces.find d.deviceName = some (migratedInterface d ips)
  onlyInterfaces : ∀ row ∈ t.interfaces.rows, ∃ d ∈ source.devices.rows, d.deviceName = row.identifier
  peers : ∀ p ∈ source.peers.rows, ∃ ips iface, cidrsFromString p.ipsStr = some ips ∧
    t.interfaces.find p.deviceName = some iface ∧
    t.peers.find p.publicKey = some (migratedPeer p ips iface)
  onlyPeers : ∀ row ∈ t.peers.rows, ∃ p ∈ source.peers.rows, p.publicKey = row.identifier

section Source

variable (env : Env) (source : V1Database) {t : Target}

theorem mem_steps_user {u : V1User} : .user u ∈ steps source ↔ u ∈ liveUsers source := by
  simp [steps]

theorem mem_steps_device {d : V1Device} : .device d ∈ steps source ↔ d ∈ source.devices.rows := by
  simp [steps]

theorem mem_steps_peer {p : V1Peer} : .peer p ∈ steps source ↔ p ∈ source.peers.rows := by
  simp [steps]

theorem apart_of_fetches {s b : Step} (fetches : Fetches s ∨ Fetches b) : Apart s b := by
  rcases fetches with here | there
  · cases s with
    | user | device | peer => cases here
    | _ => cases b <;> trivial
  · cases b with
    | user | device | peer => cases there
    | _ => cases s <;> trivial

theorem apart_steps : (steps source).Pairwise Apart := by
  have users : (liveUsers source).Pairwise fun u u' => u.email ≠ u'.email :=
    List.Pairwise.filter _ (List.pairwise_map.mp source.users.nodup)
  have devices := List.pairwise_map.mp source.devices.nodup
  have peers := List.pairwise_map.mp source.peers.nodup
  refine List.pairwise_append.mpr ⟨List.pairwise_cons.mpr
    ⟨fun b _ => apart_of_fetches (.inl trivial), List.pairwise_map.mpr users⟩,
    List.pairwise_append.mpr ⟨List.pairwise_cons.mpr
      ⟨fun b _ => apart_of_fetches (.inl trivial), List.pairwise_map.mpr devices⟩,
      List.pairwise_cons.mpr
        ⟨fun b _ => apart_of_fetches (.inl trivial), List.pairwise_map.mpr peers⟩, ?_⟩, ?_⟩
  · intro s among b later
    rcases List.mem_cons.mp later with rfl | later
    · exact apart_of_fetches (.inr trivial)
    · obtain ⟨p, _, rfl⟩ := List.mem_map.mp later
      rcases List.mem_cons.mp among with rfl | among
      · trivial
      · obtain ⟨d, _, rfl⟩ := List.mem_map.mp among
        trivial
  · intro s among b later
    rcases List.mem_cons.mp among with rfl | among
    · exact apart_of_fetches (.inl trivial)
    · obtain ⟨u, _, rfl⟩ := List.mem_map.mp among
      rcases List.mem_append.mp later with later | later <;>
        rcases List.mem_cons.mp later with rfl | later
      · trivial
      · obtain ⟨d, _, rfl⟩ := List.mem_map.mp later
        trivial
      · trivial
      · obtain ⟨p, _, rfl⟩ := List.mem_map.mp later
        trivial

/-- The steps before one of a run -/
theorem exists_before {s : Step} (among : s ∈ steps source) :
    ∃ before after, steps source = before ++ s :: after ∧ ∀ b ∈ before, Apart b s := by
  obtain ⟨before, after, split⟩ := List.append_of_mem among
  refine ⟨before, after, split, fun b early => ?_⟩
  have apart := apart_steps source
  rw [split] at apart
  exact (List.pairwise_append.mp apart).2.2 b early s List.mem_cons_self

variable {env source}

theorem userAfter_of_mem {u : V1User} (among : u ∈ liveUsers source) :
    (steps source).findSome? (storedUser env u.email) = some (migratedUser u) := by
  obtain ⟨before, after, split, apart⟩ := exists_before source ((mem_steps_user source).mpr among)
  rw [split, List.findSome?_append, fresh_user env apart, Option.none_or, List.findSome?_cons,
    storedUser, if_pos rfl]

theorem interfaceAfter_of_mem {d : V1Device} {ips : List Cidr} (among : d ∈ source.devices.rows)
    (parsed : cidrsFromString d.ipsStr = some ips) :
    (steps source).findSome? (storedInterface d.deviceName) = some (migratedInterface d ips) := by
  obtain ⟨before, after, split, apart⟩ :=
    exists_before source ((mem_steps_device source).mpr among)
  rw [split, List.findSome?_append, fresh_device apart, Option.none_or, List.findSome?_cons,
    storedInterface, if_pos rfl, parsed]
  rfl

theorem peerAfter_of_mem {p : V1Peer} {ips : List Cidr} {iface : Interface}
    (among : p ∈ source.peers.rows) (parsed : cidrsFromString p.ipsStr = some ips)
    (stored : (steps source).findSome? (storedInterface p.deviceName) = some iface) :
    peerAfter (steps source) p.publicKey = some (migratedPeer p ips iface) := by
  obtain ⟨before, after, split, apart⟩ :=
    exists_before source ((mem_steps_peer source).mpr among)
  have here : storedPeer (fun id => (steps source).findSome? (storedInterface id)) p.publicKey
      (.peer p) = some (migratedPeer p ips iface) := by
    rw [storedPeer, if_pos rfl, parsed, Option.bind_some, stored, Option.map_some]
  unfold peerAfter
  generalize (fun id => (steps source).findSome? (storedInterface id)) = interfaces at here ⊢
  rw [split, List.findSome?_append, fresh_peer apart, Option.none_or, List.findSome?_cons, here]

/-- No step fails after the steps before it. -/
def Succeeds (env : Env) (source : V1Database) : Prop :=
  ∀ done s todo, steps source = done ++ s :: todo → ¬ Fails env done s

theorem Succeeds.device (ok : Succeeds env source) {d : V1Device} (among : d ∈ source.devices.rows) :
    ∃ ips, cidrsFromString d.ipsStr = some ips := by
  obtain ⟨before, rest, split, _⟩ := exists_before source ((mem_steps_device source).mpr among)
  exact Option.ne_none_iff_exists'.mp (not_or.mp (ok before _ rest split)).1

theorem Succeeds.peer (ok : Succeeds env source) {p : V1Peer} (among : p ∈ source.peers.rows) :
    (∃ ips, cidrsFromString p.ipsStr = some ips) ∧
      ∃ d ∈ source.devices.rows, d.deviceName = p.deviceName := by
  obtain ⟨before, rest, split, _⟩ := exists_before source ((mem_steps_peer source).mpr among)
  have fine := ok before _ rest split
  simp only [Fails, not_or, not_forall, not_not] at fine
  obtain ⟨parses, _, ⟨d, early, named⟩, _⟩ := fine
  refine ⟨Option.ne_none_iff_exists'.mp parses, d, ?_, named⟩
  exact (mem_steps_device source).mp (split ▸ List.mem_append_left _ early)

theorem stored_of_user {row : User} {id : UserIdentifier}
    (found : (steps source).findSome? (storedUser env id) = some row) :
    (∃ u ∈ liveUsers source, u.email = id ∧ migratedUser u = row) ∨
      ∃ p ∈ source.peers.rows, p.email = id ∧
        dummyUser p.email (env.now p.publicKey) = row := by
  obtain ⟨b, among, stores⟩ := List.exists_of_findSome?_eq_some found
  cases b with
  | user u =>
    obtain ⟨same, row⟩ := Option.ite_none_right_eq_some.mp stores
    exact .inl ⟨u, (mem_steps_user source).mp among, same, Option.some.inj row⟩
  | peer p =>
    obtain ⟨same, row⟩ := Option.ite_none_right_eq_some.mp stores
    exact .inr ⟨p, (mem_steps_peer source).mp among, same, Option.some.inj row⟩
  | _ => cases stores

/-- The users that were deleted are missing. -/
theorem live_of_complete (after : After env (steps source) t) (complete : Complete source t) :
    ∀ u ∈ source.users.rows, u.deletedAt = none := by
  intro u among
  have stored := complete.users u among
  rw [after.users] at stored
  rcases stored_of_user stored with ⟨u', live, same, _⟩ | ⟨p, _, _, row⟩
  · have listed := List.mem_filter.mp live
    rw [← List.inj_on_of_nodup_map source.users.nodup listed.1 among same]
    exact Option.isNone_iff_eq_none.mp listed.2
  · have locked := congrArg User.locked row
    cases locked

theorem complete_of_live (after : After env (steps source) t) (ok : Succeeds env source)
    (live : ∀ u ∈ source.users.rows, u.deletedAt = none) : Complete source t := by
  have all : liveUsers source = source.users.rows :=
    List.filter_eq_self.mpr fun u among => Option.isNone_iff_eq_none.mpr (live u among)
  have onInterface : ∀ d ∈ source.devices.rows, ∃ ips, cidrsFromString d.ipsStr = some ips ∧
      t.interfaces.find d.deviceName = some (migratedInterface d ips) := by
    intro d among
    obtain ⟨ips, parsed⟩ := ok.device among
    exact ⟨ips, parsed, (after.interfaces _).trans (interfaceAfter_of_mem among parsed)⟩
  refine ⟨fun u among => ?_, fun p among unknown => ?_, fun row listed => ?_, onInterface,
    fun row listed => ?_, fun p among => ?_, fun row listed => ?_⟩
  · exact (after.users _).trans (userAfter_of_mem (all ▸ among))
  · rw [after.users]
    cases found : (steps source).findSome? (storedUser env p.email) with
    | none =>
      have stores := List.findSome?_eq_none_iff.mp found _ ((mem_steps_peer source).mpr among)
      rw [storedUser, if_pos rfl] at stores
      cases stores
    | some row =>
      rcases stored_of_user found with ⟨u, known, same, _⟩ | ⟨p', _, same, rfl⟩
      · exact absurd same (Table.find_eq_none.mp unknown u (List.mem_filter.mp known).1)
      · exact ⟨_, by rw [same]⟩
  · have found := Table.find_of_mem listed
    rw [after.users] at found
    rcases stored_of_user found with ⟨u, known, same, _⟩ | ⟨p, among, same, _⟩
    · exact .inl ⟨u, (List.mem_filter.mp known).1, same⟩
    · exact .inr ⟨p, among, same⟩
  · have found := Table.find_of_mem listed
    rw [after.interfaces] at found
    obtain ⟨b, among, stores⟩ := List.exists_of_findSome?_eq_some found
    cases b with
    | device d =>
      exact ⟨d, (mem_steps_device source).mp among, (Option.ite_none_right_eq_some.mp stores).1⟩
    | _ => cases stores
  · obtain ⟨⟨ips, parsed⟩, d, device, named⟩ := ok.peer among
    obtain ⟨ips', _, stored⟩ := onInterface d device
    rw [named] at stored
    refine ⟨ips, _, parsed, stored, (after.peers _).trans (peerAfter_of_mem among parsed ?_)⟩
    rw [← after.interfaces, stored]
  · have found := Table.find_of_mem listed
    rw [after.peers, peerAfter] at found
    obtain ⟨b, among, stores⟩ := List.exists_of_findSome?_eq_some found
    cases b with
    | peer p =>
      exact ⟨p, (mem_steps_peer source).mp among, (Option.ite_none_right_eq_some.mp stores).1⟩
    | _ => cases stores

end Source

/-- The source is of the last version, and the empty target is accepted. -/
def Accepted (env : Env) (source : V1Database) : Prop :=
  validateSource env source = none ∧ validateTargetDatabase env .empty = none

/-- Without a failure the target is accepted if and only if it is empty. -/
theorem validateTargetDatabase_iff {env : Env} (calm : ∀ statement, env.fault statement = none)
    (t : Target) : validateTargetDatabase env t = none ↔ t.Empty := by
  have table : ∀ statement table records count,
      validateTable env statement table records count = none ↔ count = 0 := by
    intro statement table records count
    simp only [validateTable, calm]
    split
    · exact iff_of_false (Option.some_ne_none _) (by omega)
    · exact iff_of_true rfl (by omega)
  simp only [validateTargetDatabase, Option.or_eq_none_iff, table, List.length_eq_zero_iff,
    Target.Empty]

/-- A failed migration leaves the empty target empty, and a successful one is complete. -/
def Rerunnable (env : Env) (source : V1Database) : Prop :=
  let run := migrateFromV1 env source .empty
  (∀ err, run.1 = some err → run.2.Empty) ∧ (run.1 = none → Complete source run.2)

/-- A step fails before any record was stored. -/
def FailsEarly (env : Env) (source : V1Database) : Prop :=
  ∃ done s todo, steps source = done ++ s :: todo ∧ Fails env done s ∧ ∀ b ∈ done, Fetches b

theorem after_nil (env : Env) : After env [] .empty :=
  ⟨fun _ => rfl, fun _ => rfl, fun _ => rfl, fun _ among => (by cases among),
    iff_of_true ⟨rfl, rfl, rfl⟩ fun _ among => (by cases among)⟩

/-- What an accepted migration does, up to the text of its error. -/
theorem migrate_of_accepted {env : Env} {source : V1Database} (accepted : Accepted env source) :
    Same (migrateFromV1 env source .empty) (forEach (Step.run env) (steps source) .empty) := by
  unfold migrateFromV1
  rw [accepted.1, accepted.2]
  exact migrated_same env source .empty

theorem migrate_of_refused {env : Env} {source : V1Database} (refused : ¬ Accepted env source) :
    ∃ err, migrateFromV1 env source .empty = (some err, .empty) := by
  unfold migrateFromV1
  cases first : validateSource env source with
  | some err => exact ⟨err, rfl⟩
  | none =>
    cases second : validateTargetDatabase env .empty with
    | some err => exact ⟨_, rfl⟩
    | none => exact absurd ⟨first, second⟩ refused

/-- The steps before the one that fails first are before any other one that fails. -/
theorem prefix_of_first {env : Env} {done done' : List Step} {s s' : Step} {todo todo' : List Step}
    (split : done ++ s :: todo = done' ++ s' :: todo')
    (first : ∀ d b r, done = d ++ b :: r → ¬ Fails env d b) (fails : Fails env done' s') :
    ∃ more, done' = done ++ more := by
  rcases List.append_eq_append_iff.mp split with ⟨more, later, _⟩ | ⟨more, earlier, rest⟩
  · exact ⟨more, later⟩
  · cases more with
    | nil => exact ⟨[], by simpa using earlier.symm⟩
    | cons b more =>
      obtain ⟨rfl, _⟩ := List.cons.inj rest
      exact absurd fails (first done' _ more earlier)

/-- A migration that is started can be run again if and only if it fails before any record was
stored, or does not fail and there are no deleted users. -/
theorem rerunnable_iff (env : Env) (source : V1Database) :
    Rerunnable env source ↔ (Accepted env source → FailsEarly env source ∨
      Succeeds env source ∧ ∀ u ∈ source.users.rows, u.deletedAt = none) := by
  by_cases accepted : Accepted env source
  · obtain ⟨ends, leaves⟩ := migrate_of_accepted accepted
    rcases forEach_spec (steps source) (apart_steps source) (after_nil env) with
      ⟨t, run, after, ok⟩ | ⟨done, s, todo, err, t, split, fails, run, first, empty⟩
    · rw [run] at ends leaves
      have calm : (migrateFromV1 env source .empty).1 = none := by simpa using ends
      have early : ¬ FailsEarly env source := by
        rintro ⟨done, s, todo, split, fails, _⟩
        exact ok done s todo split fails
      simp only [Rerunnable, calm, leaves, accepted, early, true_implies, false_or, reduceCtorEq,
        false_implies, implies_true, true_and]
      constructor
      · exact fun complete => ⟨ok, live_of_complete after complete⟩
      · exact fun live => complete_of_live after ok live.2
    · rw [run] at ends leaves
      obtain ⟨err', failed⟩ := Option.isSome_iff_exists.mp ends
      have stops : ¬ Succeeds env source := fun ok => ok done s todo split fails
      have early : FailsEarly env source ↔ ∀ b ∈ done, Fetches b := by
        constructor
        · rintro ⟨done', s', todo', split', fails', fetches⟩ b among
          obtain ⟨more, rfl⟩ := prefix_of_first (split.symm.trans split') first fails'
          exact fetches b (List.mem_append_left more among)
        · exact fun fetches => ⟨done, s, todo, split, fails, fetches⟩
      simp only [Rerunnable, failed, leaves, accepted, stops, early, true_implies, false_and,
        or_false, reduceCtorEq, false_implies, and_true, Option.some.injEq, forall_eq']
      exact empty
  · obtain ⟨err, refused⟩ := migrate_of_refused accepted
    refine iff_of_true ⟨fun _ _ => ?_, fun calm => ?_⟩ fun ok => absurd ok accepted
    · rw [refused]
      exact ⟨rfl, rfl, rfl⟩
    · rw [refused] at calm
      cases calm

def calm : Env := ⟨"sqlite", true, fun _ => none, fun _ => 0⟩

def v1User (deletedAt : Option Time) : V1User :=
  ⟨"user@example.com", .database, false, "", "", "", "", 0, 0, deletedAt⟩

/-- The addresses of the device cannot be read. -/
def v1Device : V1Device :=
  ⟨.server, "wg0", "", "", 0, 0, "", 0, "", "", "", "", "", "", "", false, "", "", 0, 0, 0⟩

def malformed : V1Database :=
  ⟨"1.0.9", Table.empty.upsert (v1User none), Table.empty.upsert v1Device, Table.empty⟩

def withDeleted : V1Database :=
  ⟨"1.0.9", Table.empty.upsert (v1User (some 0)), Table.empty, Table.empty⟩

/-- The user stays when the device cannot be migrated, and a deleted user is missing. -/
theorem not_rerunnable : ¬ Rerunnable calm malformed ∧ ¬ Rerunnable calm withDeleted := by
  constructor
  · rintro ⟨empty, _⟩
    have fails : (migrateFromV1 calm malformed .empty).1.isSome = true := by decide +kernel
    have left : (migrateFromV1 calm malformed .empty).2.users.rows.length = 1 := by decide +kernel
    obtain ⟨err, failed⟩ := Option.isSome_iff_exists.mp fails
    rw [(empty err failed).1] at left
    cases left
  · rintro ⟨_, complete⟩
    have ends : (migrateFromV1 calm withDeleted .empty).1 = none := by decide +kernel
    have stored := (complete ends).users (v1User (some 0)) (by decide +kernel)
    have missing : (migrateFromV1 calm withDeleted .empty).2.users.find "user@example.com" = none := by
      decide +kernel
    cases missing.symm.trans stored

end WgPortal.App.MigrateV1
