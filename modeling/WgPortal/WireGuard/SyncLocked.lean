import WgPortal.WireGuard.Sync

/-! The full sync under the lock compared with the plain one. -/

namespace WgPortal.WireGuard.SyncLocked

open Domain Library Adapters App Config WgController
open ManagerProgram (issue locking)

variable {w : Wgtypes} (client : Client w) {circumstances : ℕ → Circumstance}

theorem locking_passive {α : Type} (prog : LockProgram α) :
    (locking prog).Uses ManagerOp.Passive := by
  refine Program.Uses.embed (fun op => ?_) prog
  exact ⟨trivial, fun _ => trivial⟩

/-- The locked sync changes no device and has synced no peer. -/
theorem run_locked (circumstances : ℕ → Circumstance) (ui : ContextUserInfo) (nodeID : String) (world : World w) :
    ((Manager.syncAllPeersFromDBWithLock ui nodeID).run client circumstances world).1.1 = 0 ∧
      ((Manager.syncAllPeersFromDBWithLock ui nodeID).run client circumstances world).2.devices =
        world.devices := by
  unfold Manager.syncAllPeersFromDBWithLock
  split
  · exact ⟨rfl, rfl⟩
  · have passive : (SqlRepo.syncAllPeersFromDBWithLock nodeID).Uses ManagerOp.Passive := by
      refine (locking_passive _).bind fun result => ?_
      obtain ⟨_, failure⟩ := result
      cases failure with
      | some err => trivial
      | none => exact (locking_passive _).bind fun _ => (locking_passive _).bind fun _ => trivial
    constructor
    · simp only [ManagerProgram.run, SqlRepo.syncAllPeersFromDBWithLock, Program.eval_bind]
      split
      · rfl
      · simp only [SqlRepo.syncAllPeersFromDB, Program.eval_bind, Program.pure_eq, Program.eval_ret]
    · exact (eval_passive passive client circumstances (0, world)).devices

/-- No stored interface has an enabled peer, nor a peer on its device. -/
def NothingToSync (world : World w) : Prop :=
  ∀ iface ∈ world.db.interfaces.rows, enabledPeers world.db iface.identifier = [] ∧
    ∀ d, world.devices iface.identifier = some d → d.peers.rows = []

/-- Without enabled peers a round empties the device. -/
theorem eval_syncInterface_of_none (faultless : Faultless circumstances) (m : Manager)
    (order : MapOrder Peer) (ui : ContextUserInfo) (noFanout : Bool) {iface : Interface}
    {world : World w} {d : Device w} (stored : world.devices iface.identifier = some d)
    (none : enabledPeers world.db iface.identifier = []) (n : ℕ) :
    ∃ d' k, d'.peers.rows = [] ∧
      (m.syncInterface order ui noFanout iface).eval (inTurn client circumstances) (n, world) =
        (0, (k, world.setDevice iface.identifier d')) := by
  obtain ⟨d', k, spec, run⟩ := eval_syncInterface client faultless m order ui noFanout iface stored n
  have update : peersToUpdate order (listed d) [] = [] := by
    rw [peersToUpdate, List.perm_nil.mp (order.perm [])]
    rfl
  have stale : stalePeers order (listed d) [] = (order.order (listed d)).map Peer.identifier := by
    simp [stalePeers]
  rw [none] at spec run
  rw [update] at run
  refine ⟨d', k, ?_, run⟩
  refine Device.rows_eq_nil.mpr fun key => ?_
  have result := spec key
  split at result
  · exact result
  · rename_i kept
    cases found : d.find key with
    | none =>
      rw [found] at result
      exact Table.rel_none result
    | some peer =>
      refine absurd ⟨w.keyText peer.publicKey, ?_, ?_⟩ kept
      · rw [stale, ((order.perm _).map _).mem_iff]
        simp only [listed, List.map_map, List.mem_map]
        exact ⟨peer, Table.mem_of_find found, rfl⟩
      · rw [w.parseKey_keyText, Table.key_of_find found]

/-- Without enabled peers a sync empties the devices. -/
theorem eval_syncInterfaces_of_none (faultless : Faultless circumstances) (m : Manager)
    (order : MapOrder Peer) (ui : ContextUserInfo) (noFanout : Bool) (ifaces : List Interface)
    {world : World w} (n : ℕ)
    (stored : ∀ iface ∈ ifaces, (world.devices iface.identifier).isSome)
    (none : ∀ iface ∈ ifaces, enabledPeers world.db iface.identifier = []) :
    ∃ k world',
      (m.syncInterfaces order ui noFanout ifaces).eval (inTurn client circumstances) (n, world) =
        (0, (k, world')) ∧
      (∀ id, id ∉ ifaces.map Interface.identifier → world'.devices id = world.devices id) ∧
      ∀ id ∈ ifaces.map Interface.identifier,
        ∃ d', world'.devices id = some d' ∧ d'.peers.rows = [] := by
  induction ifaces generalizing world n with
  | nil => exact ⟨n, world, rfl, fun _ _ => rfl, by simp⟩
  | cons iface ifaces ih =>
    obtain ⟨d, found⟩ := Option.isSome_iff_exists.mp (stored iface List.mem_cons_self)
    obtain ⟨d', k, empty, round⟩ := eval_syncInterface_of_none client faultless m order ui noFanout found
      (none iface List.mem_cons_self) n
    have stored' : ∀ other ∈ ifaces,
        ((world.setDevice iface.identifier d').devices other.identifier).isSome := by
      intro other hother
      by_cases same : other.identifier = iface.identifier
      · simp [same]
      · rw [World.setDevice_of_ne _ _ same]
        exact stored other (List.mem_cons_of_mem _ hother)
    obtain ⟨k', world', rest, others, emptied⟩ := ih k stored' fun other hother =>
      none other (List.mem_cons_of_mem _ hother)
    refine ⟨k', world', ?_, ?_, ?_⟩
    · simp only [Manager.syncInterfaces, Program.eval_bind, round, rest, Program.pure_eq,
        Program.eval_ret]
    · intro id hid
      rw [List.map_cons, List.mem_cons, not_or] at hid
      rw [others id hid.2, World.setDevice_of_ne _ _ hid.1]
    · intro id hid
      by_cases later : id ∈ ifaces.map Interface.identifier
      · exact emptied id later
      · rw [List.map_cons, List.mem_cons] at hid
        have same := hid.resolve_right later
        rw [others id later, same]
        exact ⟨d', World.setDevice_self .., empty⟩

/-- A sync that counts no peer has found none. -/
theorem none_of_count_eq_zero (faultless : Faultless circumstances) (m : Manager)
    (order : MapOrder Peer) (ui : ContextUserInfo) (noFanout : Bool) (ifaces : List Interface)
    {world : World w} (n : ℕ)
    (stored : ∀ iface ∈ ifaces, (world.devices iface.identifier).isSome)
    (zero : ((m.syncInterfaces order ui noFanout ifaces).eval (inTurn client circumstances)
      (n, world)).1 = 0) :
    ∀ iface ∈ ifaces, enabledPeers world.db iface.identifier = [] := by
  induction ifaces generalizing world n with
  | nil => simp
  | cons iface ifaces ih =>
    obtain ⟨d, found⟩ := Option.isSome_iff_exists.mp (stored iface List.mem_cons_self)
    obtain ⟨_, _, _, loaded⟩ :=
      eval_syncInterface client faultless m order ui noFanout iface found n
    simp only [Manager.syncInterfaces, Program.eval_bind, Program.pure_eq, Program.eval_ret] at zero
    have none : enabledPeers world.db iface.identifier = [] := by
      have length := congrArg Prod.fst loaded
      simp only at length
      rw [length] at zero
      exact List.length_eq_zero_iff.mp (by omega)
    obtain ⟨d', k, _, round⟩ := eval_syncInterface_of_none client faultless m order ui noFanout found none n
    rw [round] at zero
    have rest := ih k ?_ (by simpa using zero)
    · intro other hother
      rw [List.mem_cons] at hother
      rcases hother with rfl | hother
      · exact none
      · exact rest other hother
    · intro other hother
      by_cases same : other.identifier = iface.identifier
      · simp [same]
      · rw [World.setDevice_of_ne _ _ same]
        exact stored other (List.mem_cons_of_mem _ hother)

/-- Both syncs leave the same devices and return the same number of peers. -/
def Agree (circumstances circumstances' : ℕ → Circumstance) (m : Manager) (order : MapOrder Peer)
    (ui : ContextUserInfo) (noFanout : Bool) (nodeID : String) (world : World w) : Prop :=
  let plain := (m.syncAllPeersFromDB order ui noFanout).run client circumstances world
  let locked := (Manager.syncAllPeersFromDBWithLock ui nodeID).run client circumstances' world
  locked.2.devices = plain.2.devices ∧ locked.1.1 = plain.1.1

/-- With no failing operation, the syncs agree for an admin only if there is
nothing to sync. -/
theorem agree_iff {circumstances' : ℕ → Circumstance} (faultless : Faultless circumstances)
    (m : Manager) (order : MapOrder Peer) (ui : ContextUserInfo) (noFanout : Bool)
    (nodeID : String) {world : World w}
    (stored : ∀ iface ∈ world.db.interfaces.rows, (world.devices iface.identifier).isSome) :
    Agree client circumstances circumstances' m order ui noFanout nodeID world ↔
      ui.isAdmin = false ∨ NothingToSync world := by
  obtain ⟨zero, same⟩ := run_locked client circumstances' ui nodeID world
  cases admin : ui.isAdmin with
  | false =>
    simp only [Agree, zero, same, true_or, iff_true]
    simp [Manager.syncAllPeersFromDB, validateAdminAccessRights, admin, ManagerProgram.run]
  | true =>
    obtain ⟨n, world', setup, count, final⟩ :=
      run_plain client faultless m order admin noFanout world
    have stored' : ∀ iface ∈ world.db.interfaces.rows,
        (world'.devices iface.identifier).isSome := by
      rw [setup.devices]
      exact stored
    simp only [Agree, zero, same, count, final, Bool.true_eq_false, false_or]
    constructor
    · rintro ⟨devices, none⟩
      have noEnabled := none_of_count_eq_zero client faultless m order ui noFanout _ n stored'
        none.symm
      obtain ⟨k, world'', run, _, emptied⟩ :=
        eval_syncInterfaces_of_none client faultless m order ui noFanout _ n stored' noEnabled
      intro iface hiface
      refine ⟨(enabledPeers_congr setup _).symm.trans (noEnabled iface hiface), fun d found => ?_⟩
      obtain ⟨d', found', empty⟩ := emptied _ (List.mem_map_of_mem hiface)
      rw [devices, run, found'] at found
      exact Option.some.inj found ▸ empty
    · intro nothing
      have noEnabled : ∀ iface ∈ world.db.interfaces.rows,
          enabledPeers world'.db iface.identifier = [] := fun iface hiface =>
        (enabledPeers_congr setup _).trans (nothing iface hiface).1
      obtain ⟨k, world'', run, others, emptied⟩ :=
        eval_syncInterfaces_of_none client faultless m order ui noFanout _ n stored' noEnabled
      rw [run]
      refine ⟨funext fun id => ?_, rfl⟩
      by_cases hid : id ∈ world.db.interfaces.rows.map Interface.identifier
      · obtain ⟨d', found', empty'⟩ := emptied id hid
        obtain ⟨iface, hiface, rfl⟩ := List.mem_map.mp hid
        obtain ⟨d, found⟩ := Option.isSome_iff_exists.mp (stored iface hiface)
        rw [found, found',
          Device.eq_of_rows_eq_nil ((nothing iface hiface).2 d found) empty']
      · rw [others id hid, setup.devices]

def withDisabledPeer : World plainTypes :=
  oneInterface Device.empty [{ enabledPeer key with disabled := some 5 }]

/-- There is nothing to sync for a disabled peer. -/
theorem withDisabledPeer_agree :
    Agree (plainClient plainTypes) calm calm singleNode MapOrder.listed admin false "node-1"
      withDisabledPeer := by
  have rows : ∀ iface ∈ withDisabledPeer.db.interfaces.rows,
      iface.identifier = "wg0" ∧ enabledPeers withDisabledPeer.db iface.identifier = [] := by
    decide
  refine (agree_iff (plainClient plainTypes) (fun _ => rfl) singleNode MapOrder.listed admin false
    "node-1" (by decide)).mpr (.inr fun iface hiface => ⟨(rows iface hiface).2, ?_⟩)
  intro d found
  rw [(rows iface hiface).1] at found
  exact Option.some.inj found ▸ rfl

def withEnabledPeer : World plainTypes := oneInterface Device.empty [enabledPeer key]

/-- The plain sync configures an enabled peer, the locked one does not. -/
theorem withEnabledPeer_not_agree :
    ¬ Agree (plainClient plainTypes) calm calm singleNode MapOrder.listed admin false "node-1"
      withEnabledPeer := by
  have plain : ((singleNode.syncAllPeersFromDB MapOrder.listed admin false).run
      (plainClient plainTypes) calm withEnabledPeer).1.1 = 1 := by decide
  have locked : ((Manager.syncAllPeersFromDBWithLock admin "node-1").run
      (plainClient plainTypes) calm withEnabledPeer).1.1 = 0 := by decide
  rintro ⟨_, count⟩
  rw [plain, locked] at count
  cases count

end WgPortal.WireGuard.SyncLocked
