import WgPortal.Domain.User
import WgPortal.Library.Interleaving
import WgPortal.WireGuard.PeerCreation
import WgPortal.WireGuard.Sync

/-! The peers that are created for a user who is created or logs in. All events of a user are
handled under one lock; an event that finds it taken is dropped. -/

namespace WgPortal.WireGuard

open Domain Library Adapters App Config WgController
open ManagerProgram (issue)

namespace Manager

variable (m : Manager) (ui : ContextUserInfo) (userId : UserIdentifier)

/-- A prepared peer as the default peer of the user -/
def defaultPeer (peer : Peer) : Peer :=
  generateDisplayName
    { peer with
      userIdentifier := userId
      notes := "Default peer created for user " ++ userId
      automaticallyCreated := true }
    "Default"

/-- The first loop of `CreateDefaultPeer` -/
def prepareDefaultPeers (userPeers : List Peer) :
    List Interface → ManagerProgram (Except Error (List Peer))
  | [] => return .ok []
  | iface :: ifaces => do
    if iface.type ≠ .server then prepareDefaultPeers userPeers ifaces
    else if userPeers.any (·.interfaceIdentifier = iface.identifier) then
      prepareDefaultPeers userPeers ifaces
    else
      match ← m.preparePeer ui iface.identifier with
      | .error err =>
        return .error
          (.wrap ("failed to create default peer for interface " ++ iface.identifier) err)
      | .ok peer =>
        match ← prepareDefaultPeers userPeers ifaces with
        | .error err => return .error err
        | .ok newPeers => return .ok (defaultPeer userId peer :: newPeers)

/-- The second one -/
def createDefaultPeers : List Peer → ManagerProgram (Except Error Unit)
  | [] => return .ok ()
  | peer :: newPeers => do
    match ← m.createPeer ui peer with
    | .error err =>
      return .error (.wrap ("failed to create default peer " ++ peer.identifier ++
        " on interface " ++ peer.interfaceIdentifier) err)
    | .ok _ => createDefaultPeers newPeers

def createDefaultPeer : ManagerProgram (Except Error Unit) := do
  match validateAdminAccessRights ui with
  | .error err => return .error err
  | .ok _ =>
    match ← issue (.repo .getAllInterfaces) with
    | .error err => return .error (.wrap "failed to fetch all interfaces" err)
    | .ok existingInterfaces =>
      match ← issue (.repo (.getUserPeers userId)) with
      | .error err =>
        return .error
          (.wrap "failed to retrieve existing peers prior to default peer creation" err)
      | .ok userPeers =>
        match ← m.prepareDefaultPeers ui userId userPeers existingInterfaces with
        | .error err => return .error err
        | .ok newPeers => m.createDefaultPeers ui newPeers

end Manager

/-- What the handlers use besides the operations of the manager: the lock of each user. -/
inductive HandlerOp where
  | manager (op : ManagerOp)
  /-- `userLockMap.LoadOrStore`; answers whether there was an entry -/
  | loadOrStore (id : UserIdentifier) (value : String)
  /-- `userLockMap.Delete` -/
  | delete (id : UserIdentifier)

abbrev HandlerOp.Res : HandlerOp → Type
  | manager op => op.Res
  | loadOrStore .. => Bool
  | delete _ => Unit

abbrev HandlerProgram := Program HandlerOp HandlerOp.Res

def HandlerProgram.lift {α : Type} (prog : ManagerProgram α) : HandlerProgram α :=
  prog.embed fun op => Program.perform (.manager op)

open HandlerProgram (lift)

/-- What is done for a user unless another handler is at it; the entry is deleted when it
returns. -/
def exclusively (id : UserIdentifier) (value : String) (prog : ManagerProgram Unit) :
    HandlerProgram Unit := do
  let loaded ← Program.perform (.loadOrStore id value)
  if loaded then return ()
  lift prog
  Program.perform (HandlerOp.delete id)

namespace Manager

variable (m : Manager)

def createForUser (userId : UserIdentifier) : ManagerProgram Unit := do
  let _ ← m.createDefaultPeer systemAdminContextUserInfo userId

def handleUserCreationEvent (user : User) : HandlerProgram Unit := do
  if !m.cfg.core.createDefaultPeerOnCreation then return ()
  exclusively user.identifier "create" (m.createForUser user.identifier)

/-- A user who has peers gets none. -/
def createOnLogin (userId : UserIdentifier) : ManagerProgram Unit := do
  match ← issue (.repo (.getUserPeers userId)) with
  | .error _ => return ()
  | .ok userPeers => if 0 < userPeers.length then return () else m.createForUser userId

def handleUserLoginEvent (userId : UserIdentifier) : HandlerProgram Unit := do
  if !m.cfg.core.createDefaultPeer then return ()
  exclusively userId "login" (m.createOnLogin userId)

end Manager

namespace DefaultPeers

open System PeerSteps PeerCreation

/-- Where the peers of a user are. -/
abbrev Homes := PeerIdentifier → Option InterfaceIdentifier

def home (user : UserIdentifier) (db : Db) : Homes := fun id =>
  ((db.peers.find id).filter (·.userIdentifier = user)).map (·.interfaceIdentifier)

/-- The peers that have been created on an interface. -/
def created (before after : Homes) (x : InterfaceIdentifier) : Set PeerIdentifier :=
  {id | after id = some x ∧ before id = none}

/-- No peer is lost or moved, and at most one is created on a server interface without a peer,
none on any other. -/
structure AtMostOnce (servers : InterfaceIdentifier → Prop) (before after : Homes) : Prop where
  kept : ∀ id x, before id = some x → after id = some x
  once : ∀ x, (created before after x).Subsingleton
  vacant : ∀ x, (created before after x).Nonempty → ∀ id, before id ≠ some x
  server : ∀ x, (created before after x).Nonempty → servers x

def isServer (db : Db) (x : InterfaceIdentifier) : Prop :=
  ∃ iface, db.interfaces.find x = some iface ∧ iface.type = .server

inductive Call where
  | userCreated (user : User)
  | userLogin (userId : UserIdentifier)

def Call.user : Call → UserIdentifier
  | userCreated user => user.identifier
  | userLogin userId => userId

def Call.program (m : Manager) : Call → HandlerProgram Unit
  | userCreated user => m.handleUserCreationEvent user
  | userLogin userId => m.handleUserLoginEvent userId

/-- Only a missing record is reported as missing. -/
structure Happening extends Circumstance where
  legible : ∀ err, fault = some err → err.is .notFound = false

variable {w : Wgtypes}

structure State (w : Wgtypes) where
  world : World w
  userLockMap : UserIdentifier → Option String
  /-- the handler that has stored the entry of the user -/
  holder : Option ℕ
  /-- the interfaces that have been server interfaces -/
  servers : InterfaceIdentifier → Prop

def State.observe (s : State w) (world : World w) : State w :=
  { s with world := world, servers := fun x => s.servers x ∨ isServer world.db x }

/-- What others do in between: to the world, and to the locks -/
structure Change (w : Wgtypes) where
  world : World w → World w
  userLockMap : (UserIdentifier → Option String) → UserIdentifier → Option String

variable (client : Client w) (m : Manager) (user : UserIdentifier)

def exec (i : ℕ) : (op : HandlerOp) → Happening → State w → op.Res × State w
  | .manager op, c, s =>
    let answer := op.exec client c.toCircumstance s.world
    (answer.1, s.observe answer.2)
  | .loadOrStore id value, _, s =>
    match s.userLockMap id with
    | some _ => (true, s)
    | none =>
      (false, { s with
        userLockMap := Function.update s.userLockMap id (some value)
        holder := if id = user then some i else s.holder })
  | .delete id, _, s =>
    ((), { s with
      userLockMap := Function.update s.userLockMap id none
      holder := if id = user then none else s.holder })

def system : System ℕ (Change w) Call HandlerOp HandlerOp.Res Happening Unit (State w) where
  exec := exec client user
  env := fun e s => some
    { s.observe (e.world s.world) with userLockMap := e.userLockMap s.userLockMap }
  start := fun _ call s => some (call.program m, s)
  finish := fun _ _ s => s

/-- The events are those of one user, and nobody else creates, moves or deletes a peer of this
user, or touches the entry in the lock map. -/
def guard : Guard ℕ (Change w) Call HandlerOp Happening (State w) where
  env := fun s e => home user (e.world s.world).db = home user s.world.db ∧
    e.userLockMap s.userLockMap user = s.userLockMap user
  start := fun _ _ call => call.user = user
  step := fun _ _ _ _ => True

/-- What holds in every state of a run that starts with these homes. -/
structure Invariant (before : Homes) (s : State w) : Prop where
  once : AtMostOnce s.servers before (home user s.world.db)
  lock : s.userLockMap user = none ↔ s.holder = none
  seen : ∀ x, isServer s.world.db x → s.servers x

/-- The handler that holds the lock keeps it, and the peers of the user stay where they are. -/
structure Rely (i : ℕ) (s t : State w) : Prop where
  held : s.holder = some i → t.holder = some i ∧ home user t.world.db = home user s.world.db
  free : t.holder = some i → s.holder = some i
  servers : ∀ x, s.servers x → t.servers x

def contract (w : Wgtypes) (user : UserIdentifier) (before : Homes) :
    Contract ℕ (State w) where
  inv := Invariant user before
  rely := Rely user
  refl := fun _ _ => ⟨fun held => ⟨held, rfl⟩, id, fun _ => id⟩
  trans := fun _ _ _ _ first second =>
    ⟨fun held => ⟨(second.held (first.held held).1).1,
      (second.held (first.held held).1).2.trans (first.held held).2⟩,
      fun held => first.free (second.free held), fun x has => second.servers x (first.servers x has)⟩

/-- A new peer on a server interface that has none. -/
theorem AtMostOnce.update {servers : InterfaceIdentifier → Prop} {before after : Homes}
    (once : AtMostOnce servers before after) {id : PeerIdentifier} {x : InterfaceIdentifier}
    (new : after id = none) (vacant : ∀ id, after id ≠ some x) (server : servers x) :
    AtMostOnce servers before (Function.update after id (some x)) := by
  have cases : ∀ y other, other ∈ created before (Function.update after id (some x)) y →
      other = id ∧ y = x ∨ other ∈ created before after y := by
    rintro y other ⟨here, none⟩
    by_cases same : other = id
    · rw [same, Function.update_self] at here
      exact .inl ⟨same, (Option.some.inj here).symm⟩
    · rw [Function.update_of_ne same] at here
      exact .inr ⟨here, none⟩
  refine ⟨fun other y stored => ?_, fun y first here second there => ?_, ?_, ?_⟩
  · have ne : other ≠ id := by
      rintro rfl
      have lost := (once.kept other y stored).symm.trans new
      cases lost
    rw [Function.update_of_ne ne]
    exact once.kept other y stored
  · rcases cases y first here with ⟨rfl, rfl⟩ | old
    · rcases cases _ second there with ⟨rfl, _⟩ | old
      · rfl
      · exact absurd old.1 (vacant second)
    · rcases cases y second there with ⟨rfl, rfl⟩ | old'
      · exact absurd old.1 (vacant first)
      · exact once.once y old old'
  · rintro y ⟨other, here⟩
    rcases cases y other here with ⟨rfl, rfl⟩ | old
    · exact fun id stored => vacant id (once.kept id y stored)
    · exact once.vacant y ⟨other, old⟩
  · rintro y ⟨other, here⟩
    rcases cases y other here with ⟨rfl, rfl⟩ | old
    · exact server
    · exact once.server y ⟨other, old⟩

theorem AtMostOnce.mono {servers servers' : InterfaceIdentifier → Prop} {before after : Homes}
    (once : AtMostOnce servers before after) (more : ∀ x, servers x → servers' x) :
    AtMostOnce servers' before after :=
  ⟨once.kept, once.once, once.vacant, fun x some => more x (once.server x some)⟩

theorem home_congr {user : UserIdentifier} {db db' : Db} (same : db'.peers = db.peers) :
    home user db' = home user db := by
  funext id
  rw [home, home, same]

theorem home_commitPeer (user : UserIdentifier) (db : Db) (userId : UserIdentifier) (now : Time)
    (id : PeerIdentifier) {p : Peer} (own : p.userIdentifier = user) :
    home user (db.commitPeer userId now id p) =
      Function.update (home user db) p.identifier (some p.interfaceIdentifier) := by
  funext other
  by_cases same : other = p.identifier
  · have stored : (db.commitPeer userId now id p).peers.find p.identifier =
        some (Db.updatedRow userId now p) := by
      rw [Db.commitPeer_peers]
      exact Table.find_upsert_self db.peers (Db.updatedRow userId now p)
    have owned : (Db.updatedRow userId now p).userIdentifier = user := own
    rw [same, Function.update_self, home, stored, Option.filter_some_pos (by simpa using owned)]
    rfl
  · have ne : (Db.updatedRow userId now p).identifier ≠ other := fun key => same key.symm
    rw [Function.update_of_ne same, home, Db.commitPeer_peers,
      Table.find_upsert_of_ne db.peers ne, home]

/-- The operations that store no other peer, and delete none. -/
def Commits (p : Peer) : ManagerOp → Prop
  | .repo (.commitPeer _ _ q) => q.identifier = p.identifier ∧
      q.userIdentifier = p.userIdentifier ∧ q.interfaceIdentifier = p.interfaceIdentifier
  | .repo (.deletePeer _) | .repo (.commitInterface ..) | .deletePeer .. => False
  | _ => True

theorem commits_of_reading {p : Peer} {op : ManagerOp} (reading : Reading op) : Commits p op := by
  cases op with
  | repo op => cases op <;> first | exact trivial | cases reading
  | _ => first | exact trivial | cases reading

/-- What such an operation does to the homes of the owner. -/
theorem home_exec {p : Peer} {op : ManagerOp} (commits : Commits p op) (c : Circumstance)
    (world : World w) :
    home p.userIdentifier (op.exec client c world).2.db = home p.userIdentifier world.db ∨
      home p.userIdentifier (op.exec client c world).2.db =
        Function.update (home p.userIdentifier world.db) p.identifier
          (some p.interfaceIdentifier) := by
  by_cases passive : op.Passive
  · exact .inl (home_congr (op.exec_passive passive client c world).peers)
  · cases op with
    | repo op =>
      cases op with
      | commitPeer userId id q =>
        obtain ⟨named, owned, placed⟩ := commits
        cases fault : c.fault with
        | some err => exact .inl (home_congr (ManagerOp.exec_failed _ client fault world).peers)
        | none =>
          refine .inr ?_
          simp only [ManagerOp.exec, RepoOp.exec, fault, RepoOp.apply]
          rw [home_commitPeer p.userIdentifier world.db userId c.now id owned, named, placed]
      | deletePeer | commitInterface => cases commits
      | _ => exact absurd trivial passive
    | savePeer backend iface id updateFunc =>
      exact .inl (by rw [ManagerOp.exec_savePeer_db])
    | deletePeer => cases commits
    | _ => exact absurd trivial passive

theorem home_reading {op : ManagerOp} (reading : Reading op) (c : Circumstance)
    (world : World w) : home user (op.exec client c world).2.db = home user world.db := by
  have turn : Turn client (fun _ _ _ => True) op world (op.exec client c world).1
      (op.exec client c world).2 := ⟨c, trivial, rfl⟩
  rw [(turn.reading reading).db]

variable {client m user} {before homes : Homes} {i : ℕ} {s : State w}

/-- A change of the world that leaves the peers of the user where they are. -/
theorem keeps_of_home (inv : Invariant user before s) {world : World w}
    (same : home user world.db = home user s.world.db) :
    (contract w user before).Keeps i s (s.observe world) := by
  refine ⟨⟨?_, inv.lock, fun x server => .inr server⟩, fun j _ => ⟨fun held => ⟨held, same⟩, id,
    fun x => .inl⟩⟩
  have once : AtMostOnce (s.observe world).servers before (home user s.world.db) :=
    inv.once.mono fun x => .inl
  rwa [← same] at once

/-- The handler has the lock, the peers of the user are here, and these interfaces have been
server interfaces. -/
structure Holding (user : UserIdentifier) (i : ℕ) (known : InterfaceIdentifier → Prop)
    (homes : Homes) (s : State w) : Prop where
  holder : s.holder = some i
  homes : home user s.world.db = homes
  known : ∀ x, known x → s.servers x

variable {known : InterfaceIdentifier → Prop}

theorem Holding.stable {t : State w} (holding : Holding user i known homes s)
    (rely : Rely user i s t) : Holding user i known homes t :=
  ⟨(rely.held holding.holder).1, (rely.held holding.holder).2.trans holding.homes,
    fun x has => rely.servers x (holding.known x has)⟩

/-- A change that leaves the peers of the user where they are. -/
theorem Holding.observe (holding : Holding user i known homes s) {world : World w}
    (same : home user world.db = home user s.world.db) :
    Holding user i known homes (s.observe world) :=
  ⟨holding.holder, same.trans holding.homes, fun x has => .inl (holding.known x has)⟩

/-- What an operation may answer, in whatever world -/
def Answers (client : Client w) (op : ManagerOp) (_ : Unit) (answer : op.Res) (_ : Unit) : Prop :=
  ∃ c world, (op.exec client c world).1 = answer

theorem sound_reading {α : Type} {prog : ManagerProgram α} {returned : α → Prop}
    (uses : prog.Uses Reading)
    (returns : prog.Always (Answers client) () fun a _ => returned a)
    (holding : Holding user i known homes s) :
    (contract w user before).Sound (system client m user) (guard user) i
      (fun a t => Holding user i known homes t ∧ returned a) (lift prog) s := by
  induction prog generalizing s with
  | ret a => exact fun t rely _ => ⟨holding.stable rely, returns⟩
  | call op next ih =>
    intro t c rely inv _
    have holding := holding.stable rely
    have same := home_reading client user uses.1 c.toCircumstance t.world
    refine ⟨keeps_of_home inv same, ?_⟩
    exact ih _ (uses.2 _) (returns _ () ⟨c.toCircumstance, t.world, rfl⟩) (holding.observe same)

/-- The handler is about to create a peer, or has created it. -/
def Creating (user : UserIdentifier) (i : ℕ) (known : InterfaceIdentifier → Prop) (homes : Homes)
    (p : Peer) (s : State w) : Prop :=
  Holding user i known homes s ∨
    Holding user i known (Function.update homes p.identifier (some p.interfaceIdentifier)) s

/-- The peer may be created for the user. -/
structure Fresh (user : UserIdentifier) (known : InterfaceIdentifier → Prop) (homes : Homes)
    (p : Peer) : Prop where
  own : p.userIdentifier = user
  new : homes p.identifier = none
  vacant : ∀ id, homes id ≠ some p.interfaceIdentifier
  server : known p.interfaceIdentifier

theorem keeps_of_created {p : Peer} (inv : Invariant user before s)
    (holding : Holding user i known homes s) (fresh : Fresh user known homes p) {world : World w}
    (moved : home user world.db =
      Function.update homes p.identifier (some p.interfaceIdentifier)) :
    (contract w user before).Keeps i s (s.observe world) ∧ Holding user i known
      (Function.update homes p.identifier (some p.interfaceIdentifier)) (s.observe world) := by
  have once : AtMostOnce (s.observe world).servers before (home user world.db) := by
    have now := inv.once
    rw [holding.homes] at now
    rw [moved]
    exact (now.update fresh.new fresh.vacant (holding.known _ fresh.server)).mono fun x => .inl
  refine ⟨⟨⟨once, inv.lock, fun x server => .inr server⟩, fun j other => ⟨fun held => ?_, id,
    fun x => .inl⟩⟩, holding.holder, moved, fun x has => .inl (holding.known x has)⟩
  exact absurd (Option.some.inj (held.symm.trans holding.holder)) other

theorem sound_creating {α : Type} {prog : ManagerProgram α} {p : Peer}
    (uses : prog.Uses (Commits p)) (fresh : Fresh user known homes p)
    (creating : Creating user i known homes p s) :
    (contract w user before).Sound (system client m user) (guard user) i
      (fun _ => Creating user i known homes p) (lift prog) s := by
  induction prog generalizing s with
  | ret a => exact fun t rely _ => creating.imp (·.stable rely) (·.stable rely)
  | call op next ih =>
    intro t c rely inv _
    have step := home_exec client uses.1 c.toCircumstance t.world
    rw [fresh.own] at step
    rcases creating with start | done
    · have start := start.stable rely
      rcases step with same | moved
      · exact ⟨keeps_of_home inv same, ih _ (uses.2 _) (.inl (start.observe same))⟩
      · rw [start.homes] at moved
        obtain ⟨keeps, done⟩ := keeps_of_created inv start fresh moved
        exact ⟨keeps, ih _ (uses.2 _) (.inr done)⟩
    · have done := done.stable rely
      have same : home user (op.exec client c.toCircumstance t.world).2.db =
          home user t.world.db := by
        rcases step with same | moved
        · exact same
        · rw [moved, done.homes, Function.update_idem]
      exact ⟨keeps_of_home inv same, ih _ (uses.2 _) (.inr (done.observe same))⟩

theorem lift_bind {α β : Type} (prog : ManagerProgram α) (f : α → ManagerProgram β) :
    lift (prog >>= f) = lift prog >>= fun a => lift (f a) :=
  Program.embed_bind _ prog f

theorem always_any {α : Type} (prog : ManagerProgram α) :
    prog.Always (Answers client) () fun _ _ => True :=
  Program.always_of_all (fun _ _ => trivial) prog ()

/-- No retry changes the identifier, the owner or the interface. -/
theorem uses_saveNewPeer (m : Manager) (ui : ContextUserInfo) (failure : String)
    (x : InterfaceIdentifier) (retries : ℕ) {p q : Peer} (named : q.identifier = p.identifier)
    (owned : q.userIdentifier = p.userIdentifier)
    (placed : q.interfaceIdentifier = p.interfaceIdentifier) :
    (m.saveNewPeer ui failure x retries q).Uses (Commits p) := by
  induction retries generalizing q with
  | zero =>
    unfold Manager.saveNewPeer
    refine (Manager.uses_savePeers ⟨fun _ => trivial, fun _ => trivial, fun _ _ _ _ => trivial,
      fun _ => ⟨named, owned, placed⟩, fun _ => trivial⟩).bind fun saved => ?_
    cases saved with
    | ok saved => trivial
    | error err =>
      dsimp only
      split <;> trivial
  | succ retries ih =>
    unfold Manager.saveNewPeer
    refine (Manager.uses_savePeers ⟨fun _ => trivial, fun _ => trivial, fun _ _ _ _ => trivial,
      fun _ => ⟨named, owned, placed⟩, fun _ => trivial⟩).bind fun saved => ?_
    cases saved with
    | ok saved => trivial
    | error err =>
      dsimp only
      split
      · refine ⟨trivial, fun answer => ?_⟩
        cases answer with
        | error err => trivial
        | ok iface =>
          refine ((uses_nextIps _).mono fun _ => commits_of_reading).bind fun ips => ?_
          cases ips with
          | error err => trivial
          | ok ips => exact ih named owned placed
      · trivial

/-- What is read in one operation, under the lock -/
theorem sound_read {α : Type} (op : RepoOp) (reading : Reading (.repo op))
    {f : Except Error op.Val → ManagerProgram α} {post : α → State w → Prop}
    (holding : Holding user i known homes s)
    (failed : ∀ err t, err.is .notFound = false → Holding user i known homes t →
      Invariant user before t → (contract w user before).Sound (system client m user) (guard user) i post
        (lift (f (.error err))) t)
    (read : ∀ now t, Holding user i known homes t → Invariant user before t →
      (contract w user before).Sound (system client m user) (guard user) i post
        (lift (f (op.answer now t.world.db))) t) :
    (contract w user before).Sound (system client m user) (guard user) i post
      (lift (issue (.repo op) >>= f)) s := by
  intro t c rely inv _
  have holding := holding.stable rely
  have same := home_reading client user reading c.toCircumstance t.world
  have keeps : (contract w user before).Keeps i t
      (t.observe (ManagerOp.exec client c.toCircumstance (.repo op) t.world).2) :=
    keeps_of_home inv same
  refine ⟨keeps, ?_⟩
  cases fault : c.fault with
  | some err =>
    have answer : ((system client m user).exec i (.manager (.repo op)) c t).1 = .error err := by
      simp only [system, exec, ManagerOp.exec, RepoOp.exec, fault]
    rw [answer]
    exact failed err _ (c.legible err fault) (holding.observe same) keeps.1
  | none =>
    have turn : Turn client (fun _ _ _ => True) (.repo op) t.world
        (ManagerOp.exec client c.toCircumstance (.repo op) t.world).1
        (ManagerOp.exec client c.toCircumstance (.repo op) t.world).2 := ⟨_, trivial, rfl⟩
    have answer : ((system client m user).exec i (.manager (.repo op)) c t).1 =
        op.answer c.now ((system client m user).exec i (.manager (.repo op)) c t).2.world.db := by
      have left : ((system client m user).exec i (.manager (.repo op)) c t).2.world.db =
          t.world.db := (turn.reading reading).db
      rw [left]
      simp only [system, exec, ManagerOp.exec, RepoOp.exec, fault]
    rw [answer]
    exact read c.now _ (holding.observe same) keeps.1

/-- Nobody has the identifier, as long as no failure looks as if a record were missing. -/
theorem sound_checkUnknown (id : PeerIdentifier) (holding : Holding user i known homes s) :
    (contract w user before).Sound (system client m user) (guard user) i
      (fun r t => Holding user i known homes t ∧ (r = .ok () → homes id = none))
      (lift (Manager.checkUnknown id)) s := by
  refine sound_read (.getPeer id) trivial holding (fun err t other holding _ => ?_)
    fun now t holding _ => ?_
  · dsimp only
    rw [other]
    exact fun u rely _ => ⟨holding.stable rely, fun ok => by cases ok⟩
  · cases stored : t.world.db.peers.find id with
    | some row =>
      simp only [RepoOp.answer, Db.getPeer, Db.peer, stored, Option.map_some]
      exact fun u rely _ => ⟨holding.stable rely, fun ok => by cases ok⟩
    | none =>
      simp only [RepoOp.answer, Db.getPeer, Db.peer, stored, Option.map_none]
      refine fun u rely _ => ⟨holding.stable rely, fun _ => ?_⟩
      rw [← holding.homes, home, stored]
      rfl

/-- The peer is there afterwards, or everything is as before. -/
def CreatedOrNot (user : UserIdentifier) (i : ℕ) (known : InterfaceIdentifier → Prop)
    (homes : Homes) (p : Peer) (s : State w) : Prop :=
  Holding user i known homes s ∨ homes p.identifier = none ∧
    Holding user i known (Function.update homes p.identifier (some p.interfaceIdentifier)) s

theorem sound_createPeerChecked {ui : ContextUserInfo} (admin : ui.isAdmin = true) {p : Peer}
    (own : p.userIdentifier = user) (vacant : ∀ id, homes id ≠ some p.interfaceIdentifier)
    (server : known p.interfaceIdentifier) (inv : Invariant user before s)
    (holding : Holding user i known homes s) :
    (contract w user before).Sound (system client m user) (guard user) i
      (fun _ => CreatedOrNot user i known homes p) (lift (m.createPeerChecked ui p)) s := by
  unfold Manager.createPeerChecked
  rw [lift_bind]
  refine (sound_checkUnknown p.identifier holding).bind inv fun r t inv here => ?_
  obtain ⟨holding, unknown⟩ := here
  cases r with
  | error err => exact fun u rely _ => .inl (holding.stable rely)
  | ok _ =>
    have new := unknown rfl
    refine (sound_creating ?_ ⟨own, new, vacant, server⟩ (.inl holding)).mono
      fun _ u _ creating => creating.imp id fun done => ⟨new, done⟩
    unfold Manager.selfProvisioned
    rw [if_pos admin]
    refine ((uses_validatePeerCreation m ui p).mono fun _ => commits_of_reading).bind
      fun valid => ?_
    cases valid with
    | error err => trivial
    | ok _ =>
      refine (uses_saveNewPeer m ui "creation failure" p.interfaceIdentifier Manager.maxRetries
        rfl rfl rfl).bind fun saved => ?_
      cases saved with
      | error err => trivial
      | ok saved => exact ⟨trivial, fun _ => ⟨trivial, fun _ => trivial⟩⟩

theorem sound_createPeer {ui : ContextUserInfo} (admin : ui.isAdmin = true) {p : Peer}
    (own : p.userIdentifier = user) (vacant : ∀ id, homes id ≠ some p.interfaceIdentifier)
    (server : known p.interfaceIdentifier) (inv : Invariant user before s)
    (holding : Holding user i known homes s) :
    (contract w user before).Sound (system client m user) (guard user) i
      (fun _ => CreatedOrNot user i known homes p) (lift (m.createPeer ui p)) s := by
  unfold Manager.createPeer
  dsimp only
  split
  · exact fun u rely _ => .inl (holding.stable rely)
  · rw [lift_bind]
    refine (sound_reading (uses_checkPeerLimit m ui p.userIdentifier) (always_any _)
      holding).bind inv fun r t inv here => ?_
    cases r with
    | error err => exact fun u rely _ => .inl (here.1.stable rely)
    | ok _ => exact sound_createPeerChecked admin own vacant server inv here.1

/-- A prepared peer belongs to the interface that was asked for. -/
theorem returns_preparePeer (m : Manager) (ui : ContextUserInfo) (id : InterfaceIdentifier) :
    (m.preparePeer ui id).Always (Answers client) () fun r _ =>
      ∀ p, r = .ok p → p.interfaceIdentifier = id := by
  have prepares : ∀ iface, (Manager.preparePeerFor ui iface).Always (Answers client) () fun r _ =>
      ∀ p, r = .ok p → p.interfaceIdentifier = iface.identifier := by
    intro iface
    refine (always_any _).bind fun ips _ _ => ?_
    cases ips with
    | error err => exact fun p ok => by cases ok
    | ok ips =>
      intro answer _ _
      cases answer with
      | error err => exact fun p ok => by cases ok
      | ok kp =>
        intro answer _ _
        cases answer with
        | error err => exact fun p ok => by cases ok
        | ok pk =>
          intro createdAt _ _ updatedAt _ _ p ok
          rw [← Except.ok.inj ok]
          exact (Manager.freshPeer_fields ui iface ips kp pk createdAt updatedAt).1.2.2
  unfold Manager.preparePeer
  dsimp only
  split
  · exact fun p ok => by cases ok
  · rintro answer _ ⟨c, world, rfl⟩
    cases fault : c.fault with
    | some err =>
      simp only [ManagerOp.exec, RepoOp.exec, fault]
      exact fun p ok => by cases ok
    | none =>
      simp only [ManagerOp.exec, RepoOp.exec, RepoOp.answer, Db.getInterface, fault]
      cases stored : world.db.interfaces.find id with
      | none => exact fun p ok => by cases ok
      | some iface =>
        have key : iface.identifier = id := Table.key_of_find stored
        dsimp only [Program.bind]
        split
        · exact fun p ok => by cases ok
        · rw [← key]
          exact prepares iface

/-- The peers to be created, as far as they do not depend on the answers -/
structure Proposals (userId : UserIdentifier) (userPeers : List Peer) (ifaces : List Interface)
    (newPeers : List Peer) : Prop where
  own : ∀ p ∈ newPeers, p.userIdentifier = userId
  placed : (newPeers.map (·.interfaceIdentifier)).Sublist (ifaces.map (·.identifier))
  vacant : ∀ p ∈ newPeers, ∀ q ∈ userPeers, q.interfaceIdentifier ≠ p.interfaceIdentifier
  server : ∀ p ∈ newPeers, ∃ iface ∈ ifaces, iface.identifier = p.interfaceIdentifier ∧
    iface.type = .server

theorem Proposals.skip {userId : UserIdentifier} {userPeers newPeers : List Peer}
    {iface : Interface} {ifaces : List Interface}
    (rest : Proposals userId userPeers ifaces newPeers) :
    Proposals userId userPeers (iface :: ifaces) newPeers := by
  refine ⟨rest.own, ?_, rest.vacant, fun p mem => ?_⟩
  · exact rest.placed.trans (List.sublist_cons_self _ _)
  · obtain ⟨iface', listed, same⟩ := rest.server p mem
    exact ⟨iface', List.mem_cons_of_mem _ listed, same⟩

theorem defaultPeer_fields (userId : UserIdentifier) (p : Peer) :
    (Manager.defaultPeer userId p).userIdentifier = userId ∧
      (Manager.defaultPeer userId p).interfaceIdentifier = p.interfaceIdentifier := by
  unfold Manager.defaultPeer generateDisplayName
  split <;> exact ⟨rfl, rfl⟩

theorem Proposals.cons {userId : UserIdentifier} {userPeers newPeers : List Peer}
    {iface : Interface} {ifaces : List Interface} {p : Peer}
    (rest : Proposals userId userPeers ifaces newPeers) (server : iface.type = .server)
    (vacant : ∀ q ∈ userPeers, q.interfaceIdentifier ≠ iface.identifier)
    (placed : p.interfaceIdentifier = iface.identifier) :
    Proposals userId userPeers (iface :: ifaces) (Manager.defaultPeer userId p :: newPeers) := by
  obtain ⟨own, same⟩ := defaultPeer_fields userId p
  have here : (Manager.defaultPeer userId p).interfaceIdentifier = iface.identifier :=
    same.trans placed
  refine ⟨?_, ?_, ?_, ?_⟩
  · exact List.forall_mem_cons.mpr ⟨own, rest.own⟩
  · rw [List.map_cons, List.map_cons, here]
    exact rest.placed.cons_cons _
  · refine List.forall_mem_cons.mpr ⟨?_, rest.vacant⟩
    rw [here]
    exact vacant
  · refine List.forall_mem_cons.mpr ⟨⟨iface, List.mem_cons_self, here.symm, server⟩, ?_⟩
    exact (rest.skip).server

theorem returns_prepareDefaultPeers (m : Manager) (ui : ContextUserInfo) (userId : UserIdentifier)
    (userPeers : List Peer) (ifaces : List Interface) :
    (m.prepareDefaultPeers ui userId userPeers ifaces).Always (Answers client) () fun r _ =>
      ∀ newPeers, r = .ok newPeers → Proposals userId userPeers ifaces newPeers := by
  induction ifaces with
  | nil =>
    intro newPeers ok
    obtain rfl := Except.ok.inj ok
    exact ⟨List.forall_mem_nil _, List.Sublist.refl _, List.forall_mem_nil _,
      List.forall_mem_nil _⟩
  | cons iface ifaces ih =>
    have skip : (m.prepareDefaultPeers ui userId userPeers ifaces).Always (Answers client) ()
        fun r _ => ∀ newPeers, r = .ok newPeers →
          Proposals userId userPeers (iface :: ifaces) newPeers :=
      ih.mono fun r _ rest newPeers ok => (rest newPeers ok).skip
    unfold Manager.prepareDefaultPeers
    split
    · exact skip
    · rename_i server
      split
      · exact skip
      · rename_i none
        have vacant : ∀ q ∈ userPeers, q.interfaceIdentifier ≠ iface.identifier := by
          simpa using none
        refine (returns_preparePeer m ui iface.identifier).bind fun r _ prepared => ?_
        cases r with
        | error err => exact fun newPeers ok => by cases ok
        | ok p =>
          refine ih.bind fun r _ rest => ?_
          cases r with
          | error err => exact fun newPeers ok => by cases ok
          | ok newPeers =>
            intro _ ok
            obtain rfl := Except.ok.inj ok
            exact (rest newPeers rfl).cons (not_not.mp server) vacant (prepared p rfl)

theorem uses_prepareDefaultPeers (m : Manager) (ui : ContextUserInfo) (userId : UserIdentifier)
    (userPeers : List Peer) (ifaces : List Interface) :
    (m.prepareDefaultPeers ui userId userPeers ifaces).Uses Reading := by
  induction ifaces with
  | nil => trivial
  | cons iface ifaces ih =>
    unfold Manager.prepareDefaultPeers
    split
    · exact ih
    · split
      · exact ih
      · refine (uses_preparePeer m ui iface.identifier).bind fun p => ?_
        cases p with
        | error err => trivial
        | ok p =>
          refine ih.bind fun newPeers => ?_
          cases newPeers <;> trivial

theorem sound_createDefaultPeers {ui : ContextUserInfo} (admin : ui.isAdmin = true)
    {newPeers : List Peer} (own : ∀ p ∈ newPeers, p.userIdentifier = user)
    (distinct : (newPeers.map (·.interfaceIdentifier)).Nodup)
    (vacant : ∀ p ∈ newPeers, ∀ id, homes id ≠ some p.interfaceIdentifier)
    (server : ∀ p ∈ newPeers, known p.interfaceIdentifier) (inv : Invariant user before s)
    (holding : Holding user i known homes s) :
    (contract w user before).Sound (system client m user) (guard user) i
      (fun _ t => t.holder = some i) (lift (m.createDefaultPeers ui newPeers)) s := by
  induction newPeers generalizing s homes with
  | nil => exact fun t rely _ => (holding.stable rely).holder
  | cons p newPeers ih =>
    rw [List.forall_mem_cons] at own vacant server
    rw [List.map_cons, List.nodup_cons] at distinct
    unfold Manager.createDefaultPeers
    rw [lift_bind]
    refine (sound_createPeer admin own.1 vacant.1 server.1 inv holding).bind inv
      fun r t inv done => ?_
    have holder : t.holder = some i := done.elim (·.holder) (·.2.holder)
    cases r with
    | error err => exact fun u rely _ => (rely.held holder).1
    | ok _ =>
      rcases done with same | ⟨_, moved⟩
      · exact ih own.2 distinct.2 vacant.2 server.2 inv same
      · refine ih own.2 distinct.2 (fun q mem id here => ?_) server.2 inv moved
        by_cases same : id = p.identifier
        · rw [same, Function.update_self] at here
          exact distinct.1 (Option.some.inj here ▸ List.mem_map_of_mem mem)
        · rw [Function.update_of_ne same] at here
          exact vacant.2 q mem id here

/-- A peer that is at home on an interface is read as one of the user's. -/
theorem exists_userPeer {db : Db} {id : PeerIdentifier} {x : InterfaceIdentifier}
    (here : home user db id = some x) :
    ∃ q ∈ db.getUserPeers user, q.interfaceIdentifier = x := by
  obtain ⟨row, found, rfl⟩ := Option.map_eq_some_iff.mp here
  obtain ⟨stored, own⟩ := Option.filter_eq_some_iff.mp found
  exact ⟨db.load row, List.mem_map_of_mem
    (List.mem_filter.mpr ⟨Table.mem_of_find stored, own⟩), rfl⟩

theorem sound_createDefaultPeer {ui : ContextUserInfo} (admin : ui.isAdmin = true)
    (holding : Holding user i known homes s) :
    (contract w user before).Sound (system client m user) (guard user) i
      (fun _ t => t.holder = some i) (lift (m.createDefaultPeer ui user)) s := by
  unfold Manager.createDefaultPeer
  split
  · exact fun t rely _ => (holding.stable rely).holder
  · refine sound_read .getAllInterfaces trivial holding
      (fun err t _ holding _ => fun u rely _ => (holding.stable rely).holder)
      fun now t holding inv => ?_
    -- from here on, what is known are the interfaces that are server interfaces now
    have listing : Holding user i (isServer t.world.db) homes t :=
      ⟨holding.holder, holding.homes, inv.seen⟩
    have distinct : (t.world.db.getAllInterfaces.map (·.identifier)).Nodup :=
      t.world.db.interfaces.nodup
    have servers : ∀ iface ∈ t.world.db.getAllInterfaces, iface.type = .server →
        isServer t.world.db iface.identifier :=
      fun iface mem server => ⟨iface, Table.find_of_mem mem, server⟩
    refine sound_read (.getUserPeers user) trivial listing
      (fun err t _ holding _ => fun u rely _ => (holding.stable rely).holder)
      fun now u counting inv => ?_
    dsimp only [RepoOp.answer]
    rw [lift_bind]
    refine (sound_reading (uses_prepareDefaultPeers m ui user _ _)
      (returns_prepareDefaultPeers m ui user _ _) counting).bind inv fun r v inv' here => ?_
    obtain ⟨holding, proposed⟩ := here
    cases r with
    | error err => exact fun _ rely _ => (holding.stable rely).holder
    | ok newPeers =>
      have proposals := proposed newPeers rfl
      refine sound_createDefaultPeers admin proposals.own (distinct.sublist proposals.placed)
        (fun p mem id stored => ?_) (fun p mem => ?_) inv' holding
      · rw [← counting.homes] at stored
        obtain ⟨q, listed, same⟩ := exists_userPeer stored
        exact proposals.vacant p mem q listed same
      · obtain ⟨iface, listed, same, server⟩ := proposals.server p mem
        exact same ▸ servers iface listed server

theorem sound_createForUser (inv : Invariant user before s)
    (holding : Holding user i known homes s) :
    (contract w user before).Sound (system client m user) (guard user) i
      (fun _ t => t.holder = some i) (lift (m.createForUser user)) s := by
  unfold Manager.createForUser
  rw [lift_bind]
  exact (sound_createDefaultPeer rfl holding).bind inv
    fun _ t _ holder => fun u rely _ => (rely.held holder).1

theorem sound_createOnLogin (holding : Holding user i known homes s) :
    (contract w user before).Sound (system client m user) (guard user) i
      (fun _ t => t.holder = some i) (lift (m.createOnLogin user)) s := by
  unfold Manager.createOnLogin
  refine sound_read (.getUserPeers user) trivial holding
    (fun err t _ holding _ => fun u rely _ => (holding.stable rely).holder)
    fun now t holding inv => ?_
  dsimp only [RepoOp.answer]
  split
  · exact fun u rely _ => (holding.stable rely).holder
  · exact sound_createForUser inv holding

/-- Nobody holds the lock if there is no entry, and the holder gives it back. -/
theorem sound_exclusively (value : String) {prog : ManagerProgram Unit}
    (sound : ∀ t, Invariant user before t → Holding user i (fun _ => False) (home user t.world.db) t →
      (contract w user before).Sound (system client m user) (guard user) i
        (fun _ t => t.holder = some i) (lift prog) t) :
    (contract w user before).Sound (system client m user) (guard user) i
      ((contract w user before).Finishes (system client m user) i)
      (exclusively user value prog) s := by
  have ends : ∀ {t : State w}, Invariant user before t →
      (contract w user before).Keeps i t t := fun {t} inv =>
    ⟨inv, fun j _ => (contract w user before).refl j t⟩
  intro t c rely inv _
  cases entry : t.userLockMap user with
  | some _ =>
    have loaded : exec client user i (.loadOrStore user value) c t = (true, t) := by
      simp only [exec, entry]
    simp only [system, loaded]
    exact ⟨ends inv, fun u _ inv => ends inv⟩
  | none =>
    have unheld := inv.lock.mp entry
    have stored : exec client user i (.loadOrStore user value) c t = (false, { t with
        userLockMap := Function.update t.userLockMap user (some value)
        holder := some i }) := by
      simp only [exec, entry, if_true]
    simp only [system, stored]
    have locked : Invariant user before { t with
        userLockMap := Function.update t.userLockMap user (some value)
        holder := some i } := by
      refine ⟨inv.once, ?_, inv.seen⟩
      simp only [Function.update_self, reduceCtorEq]
    refine ⟨⟨locked, fun j other => ⟨fun held => ?_, fun held => ?_, fun _ => id⟩⟩, ?_⟩
    · cases unheld.symm.trans held
    · exact absurd (Option.some.inj held).symm other
    · refine (sound _ locked ⟨rfl, rfl, fun _ none => none.elim⟩).bind locked
        fun _ u inv holder => ?_
      intro v c rely inv _
      have holder := (rely.held holder).1
      have deleted : (exec client user i (.delete user) c v).2 = { v with
          userLockMap := Function.update v.userLockMap user none
          holder := none } := by
        simp only [exec, if_true]
      have released : Invariant user before { v with
          userLockMap := Function.update v.userLockMap user none
          holder := none } := by
        refine ⟨inv.once, ?_, inv.seen⟩
        simp only [Function.update_self]
      simp only [system, deleted]
      refine ⟨⟨released, fun j other => ⟨fun held => ?_, fun held => ?_, fun _ => id⟩⟩,
        fun u _ inv => ends inv⟩
      · exact absurd (Option.some.inj (held.symm.trans holder)) other
      · cases held

theorem sound_program {call : Call} (own : call.user = user) :
    (contract w user before).Sound (system client m user) (guard user) i
      ((contract w user before).Finishes (system client m user) i) (call.program m) s := by
  have skips : (contract w user before).Sound (system client m user) (guard user) i
      ((contract w user before).Finishes (system client m user) i) (.ret ()) s :=
    fun t _ inv => ⟨inv, fun j _ => (contract w user before).refl j t⟩
  subst own
  cases call with
  | userCreated user =>
    dsimp only [Call.program]
    unfold Manager.handleUserCreationEvent
    split
    · exact skips
    · exact sound_exclusively "create" fun t inv holding => sound_createForUser inv holding
  | userLogin userId =>
    dsimp only [Call.program]
    unfold Manager.handleUserLoginEvent
    split
    · exact skips
    · exact sound_exclusively "login" fun t _ holding => sound_createOnLogin holding

theorem upheld (client : Client w) (m : Manager) (user : UserIdentifier) (before : Homes) :
    Contract.Upheld (system client m user) (contract w user before) (guard user) where
  env := by
    intro e s t inv allowed taken
    obtain ⟨same, entry⟩ := allowed
    obtain rfl := Option.some.inj taken
    have changed := (keeps_of_home (i := 0) inv same).1
    refine ⟨⟨changed.once, ?_, changed.seen⟩, fun j => ⟨fun held => ⟨held, same⟩, id, fun x => .inl⟩⟩
    show e.userLockMap s.userLockMap user = none ↔ s.holder = none
    rw [entry]
    exact inv.lock
  start := by
    intro i call s prog t inv own started
    obtain ⟨rfl, rfl⟩ := Prod.mk.inj (Option.some.inj started)
    exact ⟨⟨inv, fun j _ => (contract w user before).refl j s⟩, sound_program own⟩

/-- Nobody is at work. -/
def initial (world : World w) : State w := ⟨world, fun _ => none, none, isServer world.db⟩

/-- One server interface, and no peer -/
def oneServer : World plainTypes :=
  let world := oneInterface Device.empty []
  { world with db := { world.db with
      interfaces := Table.empty.upsert
        { Interface.zero with
          identifier := "wg0", type := .server, peerDefNetworkStr := "10.0.0.0/24" } } }

def defaultPeersNode : Manager :=
  { singleNode with cfg := { masterConfig with core := { masterConfig.core with
      createDefaultPeer := true, createDefaultPeerOnCreation := true } } }

def erin : User := { User.zero with identifier := "erin" }

def generates (id : PeerIdentifier) : Happening :=
  ⟨⟨10, none, ⟨"", id⟩, ""⟩, fun err none => by cases none⟩

/-- The user logs in while the creation is handled, and again afterwards. -/
def createdAndLoggedIn : List (Turn ℕ (Change plainTypes) Call Happening) :=
  [.start 0 (.userCreated erin), .start 1 (.userLogin "erin")] ++
    List.replicate 10 (.step 0 (generates key)) ++ List.replicate 2 (.step 1 (generates key)) ++
    List.replicate 11 (.step 0 (generates key)) ++ .start 2 (.userLogin "erin") ::
    List.replicate 4 (.step 2 (generates key))

def reached : Option (Pool ℕ HandlerOp HandlerOp.Res Unit (State plainTypes)) :=
  runFrom (system (plainClient plainTypes) defaultPeersNode "erin").next (idle (initial oneServer))
    createdAndLoggedIn

end DefaultPeers

end WgPortal.WireGuard
