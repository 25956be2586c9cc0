import WgPortal.Library.Interleaving
import WgPortal.WireGuard.Peers
import WgPortal.WireGuard.Sync

/-! The limit on the peers of a user who is no admin, while calls of this user that create,
update and delete peers run at the same time. -/

namespace WgPortal.WireGuard.PeerLimit

open Domain Library Adapters App Config WgController System
open ManagerProgram (issue)

/-- Whether the peer counts for the user. -/
def isActive (u : UserIdentifier) (p : Peer) : Bool :=
  decide (p.userIdentifier = u) && !p.isDisabled

def activePeers (db : Db) (u : UserIdentifier) : ℕ := (db.peers.rows.filter (isActive u)).length

/-- A peer of the user is stored as enabled that is not stored as such. -/
def adds (u : UserIdentifier) (db : Db) : ManagerOp → Bool
  | .repo (.commitPeer _ _ p) => isActive u p && !(db.peers.find p.identifier).any (isActive u)
  | _ => false

/-- An enabled peer of the user is deleted. -/
def removes (u : UserIdentifier) (db : Db) : ManagerOp → Bool
  | .repo (.deletePeer id) => (db.peers.find id).any (isActive u)
  | _ => false

inductive Call where
  | createPeer (peer : Peer)
  | updatePeer (peer : Peer)
  | deletePeer (id : PeerIdentifier)

def Call.program (m : Manager) (ui : ContextUserInfo) : Call → ManagerProgram Unit
  | createPeer peer => do let _ ← m.createPeer ui peer
  | updatePeer peer => do let _ ← m.updatePeer ui peer
  | deletePeer id => do let _ ← m.deletePeer ui id

/-- What entitles a call to one more peer. -/
inductive Standing where
  | none
  /-- The peers of the user are not counted yet. -/
  | due
  /-- They are counted, and since then none was added. -/
  | checked
  /-- The call has deleted an enabled peer, and since then none was added. -/
  | vacated
deriving DecidableEq

variable {w : Wgtypes}

structure State (w : Wgtypes) where
  world : World w
  standing : ℕ → Standing

/-- Whether an operation reads the peers of a user. -/
def counts : ManagerOp → Bool
  | .repo (.getUserPeers _) => true
  | _ => false

def State.after (u : UserIdentifier) (i : ℕ) (op : ManagerOp) (s : State w) : ℕ → Standing :=
  if adds u s.world.db op then fun j => if s.standing j = .due then .due else .none
  else Function.update s.standing i <|
    if removes u s.world.db op then .vacated
    else if counts op && s.standing i = .due then .checked
    else s.standing i

variable (client : Client w) (m : Manager) (ui : ContextUserInfo)

def exec (i : ℕ) (op : ManagerOp) (c : Circumstance) (s : State w) : op.Res × State w :=
  let answer := op.exec client c s.world
  (answer.1, ⟨answer.2, if c.fault.isSome then s.standing else s.after ui.id i op⟩)

def start (i : ℕ) (call : Call) (s : State w) : Option (ManagerProgram Unit × State w) :=
  some (call.program m ui, { s with
    standing := Function.update s.standing i (match call with
      | .createPeer _ => .due
      | _ => .none) })

def system : System ℕ Empty Call ManagerOp ManagerOp.Res Circumstance Unit (State w) where
  exec := exec client ui
  env := fun e _ => nomatch e
  start := start m ui
  finish := fun i _ s => { s with standing := Function.update s.standing i .none }

/-- Who adds a peer has counted them, or deleted one, and no other was added meanwhile. -/
def guard : Guard ℕ Empty Call ManagerOp Circumstance (State w) where
  env := fun _ _ => True
  start := fun _ _ _ => True
  step := fun s i op c => c.fault = none → adds ui.id s.world.db op = true →
    s.standing i = .checked ∨ s.standing i = .vacated

section Count

variable {db : Db} {u : UserIdentifier} {client}

theorem length_getUserPeers (db : Db) (u : UserIdentifier) :
    ((db.getUserPeers u).filter fun p => !p.isDisabled).length = activePeers db u := by
  have loaded : (db.getUserPeers u).filter (fun p => !p.isDisabled) =
      ((db.peers.rows.filter (·.userIdentifier = u)).filter
        fun p => !p.isDisabled).map db.load := by
    rw [Db.getUserPeers, List.filter_map]
    rfl
  rw [loaded, List.length_map, List.filter_filter, activePeers]
  congr 1
  refine List.filter_congr fun p _ => ?_
  rw [isActive, Bool.and_comm]

/-- Without the row of a key, there is one less if it counts. -/
theorem length_others (rows : Table Peer.identifier) (id : PeerIdentifier) :
    ((rows.filter (·.identifier ≠ id)).rows.filter (isActive u)).length +
      (if (rows.find id).any (isActive u) then 1 else 0) ≤
        (rows.rows.filter (isActive u)).length := by
  have swapped : ((rows.filter (·.identifier ≠ id)).rows.filter (isActive u)) =
      (rows.rows.filter (isActive u)).filter (·.identifier ≠ id) := List.filter_comm ..
  rw [swapped]
  split
  · rename_i counted
    obtain ⟨row, found, active⟩ := (Option.any_eq_true _ _).mp counted
    refine Nat.succ_le_of_lt (List.length_filter_lt_length_iff_exists.mpr ⟨row, ?_, ?_⟩)
    · exact List.mem_filter.mpr ⟨Table.mem_of_find found, active⟩
    · have named : row.identifier = id := Table.key_of_find found
      simp [named]
  · exact List.length_filter_le _ _

theorem activePeers_commitPeer (db : Db) (userId : UserIdentifier) (now : Time)
    (id : PeerIdentifier) (p : Peer) : activePeers (db.commitPeer userId now id p) u ≤
      activePeers db u + if isActive u p && !(db.peers.find p.identifier).any (isActive u) then 1
        else 0 := by
  have others := @length_others u db.peers p.identifier
  have row : isActive u (Db.updatedRow userId now p) = isActive u p := rfl
  rw [activePeers, Db.commitPeer_peers, Table.upsert, List.filter_append, List.length_append,
    activePeers]
  have last : ([Db.updatedRow userId now p].filter (isActive u)).length =
      if isActive u p then 1 else 0 := by
    cases active : isActive u p <;> simp [row, active]
  rw [last]
  have same : ((db.peers.filter fun r =>
      r.identifier ≠ (Db.updatedRow userId now p).identifier).rows.filter (isActive u)).length =
      ((db.peers.filter (·.identifier ≠ p.identifier)).rows.filter (isActive u)).length := rfl
  rw [same]
  cases active : isActive u p <;> cases counted : (db.peers.find p.identifier).any (isActive u) <;>
    simp only [counted, if_true, Bool.false_eq_true, if_false, Bool.and_self, Bool.not_true,
      Bool.not_false, Bool.and_false, Bool.and_true] at others ⊢ <;> omega

theorem activePeers_deletePeer (db : Db) (id : PeerIdentifier) :
    activePeers (db.deletePeer id) u + (if (db.peers.find id).any (isActive u) then 1 else 0) ≤
      activePeers db u := length_others db.peers id

end Count

section Step

variable {u : UserIdentifier} {client} {s : World w}

/-- What one operation does to the number of peers that count. -/
theorem activePeers_exec (op : ManagerOp) (c : Circumstance) (calm : c.fault = none) :
    activePeers (op.exec client c s).2.db u + (if removes u s.db op then 1 else 0) ≤
      activePeers s.db u + if adds u s.db op then 1 else 0 := by
  by_cases passive : op.Passive
  · have same := (op.exec_passive passive client c s).peers
    rw [activePeers, same, activePeers]
    cases op with
    | repo op => cases op <;> first | exact absurd passive id | exact Nat.le_refl _
    | _ => exact Nat.le_refl _
  · cases op with
    | repo op =>
      cases op with
      | commitInterface userId iface =>
        simp only [ManagerOp.exec, RepoOp.exec, calm]
        exact Nat.le_refl _
      | commitPeer userId id p =>
        simp only [ManagerOp.exec, RepoOp.exec, calm]
        exact activePeers_commitPeer s.db userId c.now id p
      | deletePeer id =>
        simp only [ManagerOp.exec, RepoOp.exec, calm]
        exact activePeers_deletePeer s.db id
      | _ => exact absurd trivial passive
    | savePeer backend iface id updateFunc =>
      rw [ManagerOp.exec_savePeer_db]
      exact Nat.le_refl _
    | deletePeer backend iface id =>
      rw [ManagerOp.exec_deletePeer_db]
      exact Nat.le_refl _
    | _ => exact absurd trivial passive

/-- An operation that fails leaves the peers as they are. -/
theorem activePeers_fault (op : ManagerOp) (c : Circumstance) {err : Error}
    (fault : c.fault = some err) :
    activePeers (op.exec client c s).2.db u = activePeers s.db u := by
  rw [activePeers, (op.exec_failed client fault s).peers, activePeers]

end Step

/-- The peers that count are at most so many, and one less if a call has made room. -/
structure Within (u : UserIdentifier) (bound : ℕ) (s : State w) : Prop where
  active : activePeers s.world.db u ≤ bound
  vacated : ∀ i, s.standing i = .vacated → activePeers s.world.db u < bound

/-- The others add no peer as long as the call has its standing. -/
def Rely (u : UserIdentifier) (i : ℕ) (s t : State w) : Prop :=
  t.standing i = .none ∧ s.standing i ≠ .due ∨
    t.standing i = s.standing i ∧
      (s.standing i = .checked → activePeers t.world.db u ≤ activePeers s.world.db u)

def contract (w : Wgtypes) (u : UserIdentifier) (bound : ℕ) : Contract ℕ (State w) where
  inv := Within u bound
  rely := Rely u
  refl := fun i s => .inr ⟨rfl, fun _ => Nat.le_refl _⟩
  trans := by
    rintro i s t v (⟨none, some⟩ | ⟨same, fewer⟩) (⟨none', some'⟩ | ⟨same', fewer'⟩)
    · exact .inl ⟨none', some⟩
    · exact .inl ⟨same'.trans none, some⟩
    · exact .inl ⟨none', same ▸ some'⟩
    · exact .inr ⟨same'.trans same, fun checked =>
        (fewer' (same.trans checked)).trans (fewer checked)⟩

variable {client m ui}

/-- What an operation does to the others, and to the bound. -/
theorem exec_keeps {bound : ℕ} {i : ℕ} {op : ManagerOp} {c : Circumstance} {s : State w}
    (within : Within ui.id bound s)
    (room : c.fault = none → adds ui.id s.world.db op = true →
      activePeers s.world.db ui.id < bound) :
    (contract w ui.id bound).Keeps i s (exec client ui i op c s).2 := by
  cases fault : c.fault with
  | some err =>
    have same := @activePeers_fault w client ui.id s.world op c err fault
    have standing : (exec client ui i op c s).2.standing = s.standing := by
      simp only [exec, fault, Option.isSome_some, if_true]
    refine ⟨⟨same.trans_le within.active, fun j vacated => ?_⟩, fun j _ => .inr ⟨?_, fun _ => ?_⟩⟩
    · exact same.trans_lt (within.vacated j (standing ▸ vacated))
    · rw [standing]
    · exact same.le
  | none =>
    have step := @activePeers_exec w client ui.id s.world op c fault
    have standing : (exec client ui i op c s).2.standing = s.after ui.id i op := by
      simp only [exec, fault, Option.isSome_none, Bool.false_eq_true, if_false]
    cases added : adds ui.id s.world.db op with
    | true =>
      have few := room fault added
      rw [added, if_pos rfl] at step
      have cleared : ∀ j, (exec client ui i op c s).2.standing j =
          if s.standing j = .due then .due else .none := by
        intro j
        rw [standing, State.after, added, if_pos rfl]
      refine ⟨⟨?_, fun j vacated => ?_⟩, fun j _ => ?_⟩
      · exact (Nat.le_of_add_right_le step).trans few
      · rw [cleared] at vacated
        split at vacated <;> cases vacated
      · by_cases due : s.standing j = .due
        · refine .inr ⟨?_, fun checked => ?_⟩
          · rw [cleared, if_pos due, due]
          · rw [due] at checked
            cases checked
        · exact .inl ⟨by rw [cleared, if_neg due], due⟩
    | false =>
      rw [added, if_neg Bool.false_ne_true, Nat.add_zero] at step
      have fewer := Nat.le_of_add_right_le step
      have updated : (exec client ui i op c s).2.standing = Function.update s.standing i
          (if removes ui.id s.world.db op then .vacated
            else if counts op && s.standing i = .due then .checked else s.standing i) := by
        rw [standing, State.after, added, if_neg Bool.false_ne_true]
      refine ⟨⟨fewer.trans within.active, fun j vacated => ?_⟩,
        fun j other => .inr ⟨?_, fun _ => fewer⟩⟩
      · rw [updated] at vacated
        by_cases same : j = i
        · rw [same, Function.update_self] at vacated
          split at vacated
          · rename_i removed
            rw [if_pos removed] at step
            exact Nat.lt_of_lt_of_le step within.active
          · split at vacated
            · cases vacated
            · exact fewer.trans_lt (within.vacated i vacated)
        · rw [Function.update_of_ne same] at vacated
          exact fewer.trans_lt (within.vacated j vacated)
      · rw [updated, Function.update_of_ne other]

/-- A call that has counted has found fewer peers than there may be. -/
def Entitled (u : UserIdentifier) (limit i : ℕ) (s : State w) : Prop :=
  s.standing i ≠ .due ∧ (s.standing i = .checked → activePeers s.world.db u < limit)

theorem Entitled.stable {u : UserIdentifier} {limit i : ℕ} {s t : State w}
    (entitled : Entitled u limit i s) (rely : Rely u i s t) : Entitled u limit i t := by
  rcases rely with ⟨none, _⟩ | ⟨same, fewer⟩
  · refine ⟨fun due => ?_, fun checked => ?_⟩
    · cases none.symm.trans due
    · cases none.symm.trans checked
  · refine ⟨same ▸ entitled.1, fun checked => ?_⟩
    have checked := same.symm.trans checked
    exact (fewer checked).trans_lt (entitled.2 checked)

theorem exec_entitled {limit i : ℕ} {op : ManagerOp} {c : Circumstance} {s : State w}
    (entitled : Entitled ui.id limit i s) :
    Entitled ui.id limit i (exec client ui i op c s).2 := by
  cases fault : c.fault with
  | some err =>
    have same := @activePeers_fault w client ui.id s.world op c err fault
    have standing : (exec client ui i op c s).2.standing = s.standing := by
      simp only [exec, fault, Option.isSome_some, if_true]
    exact entitled.stable (.inr ⟨by rw [standing], fun _ => same.le⟩)
  | none =>
    have step := @activePeers_exec w client ui.id s.world op c fault
    have standing : (exec client ui i op c s).2.standing = s.after ui.id i op := by
      simp only [exec, fault, Option.isSome_none, Bool.false_eq_true, if_false]
    cases added : adds ui.id s.world.db op with
    | true =>
      refine entitled.stable (.inl ⟨?_, entitled.1⟩)
      rw [standing, State.after, added, if_pos rfl, if_neg entitled.1]
    | false =>
      rw [added, if_neg Bool.false_ne_true, Nat.add_zero] at step
      have fewer := Nat.le_of_add_right_le step
      have updated : (exec client ui i op c s).2.standing i =
          if removes ui.id s.world.db op then .vacated else s.standing i := by
        have not : (counts op && decide (s.standing i = .due)) = false := by
          simp [entitled.1]
        rw [standing, State.after, added, if_neg Bool.false_ne_true, Function.update_self, not,
          if_neg Bool.false_ne_true]
      refine ⟨fun due => ?_, fun checked => ?_⟩
      · rw [updated] at due
        split at due
        · cases due
        · exact entitled.1 due
      · rw [updated] at checked
        split at checked
        · cases checked
        · exact fewer.trans_lt (entitled.2 checked)

/-- The count of the peers entitles to one more if there are fewer. -/
theorem counted_entitled {limit i : ℕ} {c : Circumstance} {s : State w} (calm : c.fault = none)
    (few : activePeers s.world.db ui.id < limit) :
    Entitled ui.id limit i (exec client ui i (.repo (.getUserPeers ui.id)) c s).2 := by
  have counted : (exec client ui i (.repo (.getUserPeers ui.id)) c s).2.standing i =
      if s.standing i = .due then .checked else s.standing i := by
    simp only [exec, calm, Option.isSome_none, Bool.false_eq_true, if_false, State.after, adds,
      removes, counts, Function.update_self, Bool.true_and, decide_eq_true_eq]
  have same : activePeers (exec client ui i (.repo (.getUserPeers ui.id)) c s).2.world.db ui.id =
      activePeers s.world.db ui.id := by
    simp only [exec, ManagerOp.exec, RepoOp.exec, calm]
    rfl
  refine ⟨fun due => ?_, fun _ => same.trans_lt few⟩
  rw [counted] at due
  split at due
  · cases due
  · rename_i other
    exact other due

section Sound

variable {bound limit i : ℕ}

/-- A call that is entitled stays so to its end. -/
theorem sound_of_entitled {α : Type} (prog : ManagerProgram α) {s : State w}
    (few : limit ≤ bound) (start : Entitled ui.id limit i s) :
    (contract w ui.id bound).Sound (system client m ui) (guard ui) i (fun _ _ => True) prog s := by
  have each : ∀ (op : ManagerOp) (t : State w) (c : Circumstance), True → Within ui.id bound t →
      Entitled ui.id limit i t → (guard ui).step t i op c →
      (contract w ui.id bound).Keeps i t (exec client ui i op c t).2 ∧
        Entitled ui.id limit i (exec client ui i op c t).2 := by
    intro op t c _ within entitled allowed
    refine ⟨exec_keeps within fun calm added => ?_, exec_entitled entitled⟩
    rcases allowed calm added with checked | vacated
    · exact (entitled.2 checked).trans_le few
    · exact within.vacated i vacated
  exact (Contract.Sound.of_uses (fun _ _ rely entitled => entitled.stable rely) each
    (Program.Uses.of_all (fun _ => trivial) prog) start).mono fun _ _ _ _ => trivial

/-- The limit is met when a peer is to be created. -/
theorem sound_checkPeerLimit (ordinary : ui.isAdmin = false)
    (selfProvisioning : m.cfg.core.selfProvisioningAllowed = true)
    (positive : 0 < m.cfg.advanced.limitAdditionalUserPeers)
    (enough : (limit : Int) = 1 + m.cfg.advanced.limitAdditionalUserPeers) (s : State w) :
    (contract w ui.id bound).Sound (system client m ui) (guard ui) i
      (fun r t => r = .ok () → Entitled ui.id limit i t) (m.checkPeerLimit ui ui.id) s := by
  unfold Manager.checkPeerLimit
  rw [ordinary, selfProvisioning, decide_eq_true positive]
  intro t c rely within allowed
  have keeps := @exec_keeps w client ui bound i (.repo (.getUserPeers ui.id)) c t within
    fun _ added => by cases added
  refine ⟨keeps, ?_⟩
  cases fault : c.fault with
  | some err =>
    have failed : ((system client m ui).exec i (.repo (.getUserPeers ui.id)) c t).1 =
        .error err := by
      simp only [system, exec, ManagerOp.exec, RepoOp.exec, fault]
    rw [failed]
    exact fun _ _ _ ok => by cases ok
  | none =>
    have read : ((system client m ui).exec i (.repo (.getUserPeers ui.id)) c t).1 =
        .ok (t.world.db.getUserPeers ui.id) := by
      simp only [system, exec, ManagerOp.exec, RepoOp.exec, RepoOp.answer, fault]
    rw [read]
    show (contract w ui.id bound).Sound (system client m ui) (guard ui) i _ (if
      1 + m.cfg.advanced.limitAdditionalUserPeers ≤
        (((t.world.db.getUserPeers ui.id).filter fun p => !p.isDisabled).length : Int) then _
      else _) _
    rw [length_getUserPeers]
    split
    · exact fun _ _ _ ok => by cases ok
    · rename_i fewer
      have few : activePeers t.world.db ui.id < limit := by
        rw [← enough] at fewer
        exact Nat.lt_of_not_le fun more => fewer (Int.ofNat_le.mpr more)
      have checked := @counted_entitled w client ui limit i c t fault few
      exact fun v later _ _ => checked.stable later

theorem sound_createPeer (ordinary : ui.isAdmin = false)
    (selfProvisioning : m.cfg.core.selfProvisioningAllowed = true)
    (positive : 0 < m.cfg.advanced.limitAdditionalUserPeers)
    (enough : (limit : Int) = 1 + m.cfg.advanced.limitAdditionalUserPeers) (few : limit ≤ bound)
    (peer : Peer) {s : State w} (within : Within ui.id bound s) :
    (contract w ui.id bound).Sound (system client m ui) (guard ui) i (fun _ _ => True)
      (m.createPeer ui peer) s := by
  unfold Manager.createPeer
  rw [selfProvisioning, validateUserAccessRights, ordinary]
  by_cases own : ui.id = peer.userIdentifier
  · simp only [Bool.not_true, Bool.false_eq_true, if_false, ← own]
    refine (sound_checkPeerLimit ordinary selfProvisioning positive enough s).bind within
      fun r t _ entitled => ?_
    cases r with
    | error err => exact fun _ _ _ => trivial
    | ok _ => exact sound_of_entitled _ few (entitled rfl)
  · have refused : (if ui.id = peer.userIdentifier then (.ok () : Except Error Unit)
        else .error .noPermission) = .error .noPermission := if_neg own
    simp only [Bool.not_true, Bool.false_eq_true, if_false, refused]
    exact fun _ _ _ => trivial

end Sound

/-- The standing of one call may be changed to one without room. -/
theorem keeps_update {bound i : ℕ} {s : State w} (within : Within ui.id bound s)
    {standing : Standing} (unvacated : standing ≠ .vacated) :
    (contract w ui.id bound).Keeps i s
      { s with standing := Function.update s.standing i standing } := by
  refine ⟨⟨within.active, fun j vacated => ?_⟩,
    fun j other => .inr ⟨Function.update_of_ne other _ _, fun _ => Nat.le_refl _⟩⟩
  have updated : Function.update s.standing i standing j = .vacated := vacated
  by_cases same : j = i
  · rw [same, Function.update_self] at updated
    exact absurd updated unvacated
  · rw [Function.update_of_ne same] at updated
    exact within.vacated j updated

/-- A call without a result ends as it should. -/
theorem sound_discard {bound i : ℕ} {α : Type} {prog : ManagerProgram α} {s : State w}
    (within : Within ui.id bound s)
    (sound : (contract w ui.id bound).Sound (system client m ui) (guard ui) i (fun _ _ => True)
      prog s) :
    (contract w ui.id bound).Sound (system client m ui) (guard ui) i
      ((contract w ui.id bound).Finishes (system client m ui) i) (do let _ ← prog) s :=
  sound.bind within fun _ _ _ _ => fun _ _ within => keeps_update within (by decide)

/-- The calls keep the bound. -/
theorem upheld {bound limit : ℕ} (ordinary : ui.isAdmin = false)
    (selfProvisioning : m.cfg.core.selfProvisioningAllowed = true)
    (positive : 0 < m.cfg.advanced.limitAdditionalUserPeers)
    (enough : (limit : Int) = 1 + m.cfg.advanced.limitAdditionalUserPeers)
    (few : limit ≤ bound) :
    Contract.Upheld (system client m ui) (contract w ui.id bound) (guard ui) where
  env := fun e => nomatch e
  start := by
    intro i call s prog t within _ started
    obtain ⟨rfl, rfl⟩ := Prod.mk.inj (Option.some.inj started)
    have entitled : Entitled ui.id limit i
        { s with standing := Function.update s.standing i .none } := by
      have none : Function.update s.standing i Standing.none i = .none := Function.update_self ..
      refine ⟨fun due => ?_, fun checked => ?_⟩
      · cases none.symm.trans due
      · cases none.symm.trans checked
    cases call with
    | createPeer peer =>
      have keeps := @keeps_update w ui bound i s within .due (by decide)
      exact ⟨keeps, sound_discard keeps.1
        (sound_createPeer ordinary selfProvisioning positive enough few peer keeps.1)⟩
    | updatePeer | deletePeer =>
      have keeps := @keeps_update w ui bound i s within .none (by decide)
      exact ⟨keeps, sound_discard keeps.1 (sound_of_entitled _ few entitled)⟩

/-- No call of the user is running. -/
def initial (world : World w) : State w := ⟨world, fun _ => .none⟩

/-- The number of enabled peers of a user who is no admin stays below the limit, or what it was
before, in every run in which nobody adds a peer without having counted or deleted one. -/
theorem guarded_run_within_limit (client : Client w) (m : Manager) (ui : ContextUserInfo)
    (ordinary : ui.isAdmin = false)
    (selfProvisioning : m.cfg.core.selfProvisioningAllowed = true)
    (positive : 0 < m.cfg.advanced.limitAdditionalUserPeers) (world : World w)
    (turns : List (Turn ℕ Empty Call Circumstance))
    (q : Pool ℕ ManagerOp ManagerOp.Res Unit (State w))
    (guarded : Guarded (system client m ui).next (guard ui).turn (idle (initial world)) turns)
    (run : runFrom (system client m ui).next (idle (initial world)) turns = some q) :
    (activePeers q.shared.world.db ui.id : Int) ≤
      max (1 + m.cfg.advanced.limitAdditionalUserPeers) (activePeers world.db ui.id) := by
  let limit := (1 + m.cfg.advanced.limitAdditionalUserPeers).toNat
  have enough : (limit : Int) = 1 + m.cfg.advanced.limitAdditionalUserPeers :=
    Int.toNat_of_nonneg (by omega)
  have start : Within ui.id (max limit (activePeers world.db ui.id)) (initial world) :=
    ⟨Nat.le_max_right _ _, fun i vacated => by cases vacated⟩
  have within := Contract.preserved
    (upheld ordinary selfProvisioning positive enough (Nat.le_max_left _ _)) start guarded run
  rw [← enough]
  exact_mod_cast within.active

instance (s : State w) (i : ℕ) (op : ManagerOp) (c : Circumstance) :
    Decidable ((guard (w := w) ui).step s i op c) :=
  inferInstanceAs (Decidable (_ → _ → _ ∨ _))

instance (s : State w) (i : ℕ) (call : Call) : Decidable ((guard (w := w) ui).start s i call) :=
  isTrue trivial

instance (s : State w) (e : Empty) : Decidable ((guard (w := w) ui).env s e) := nomatch e

/-- Users may have one additional peer. -/
def oneAdditional : Manager :=
  { singleNode with cfg :=
    { masterConfig with
      core := { masterConfig.core with selfProvisioningAllowed := true }
      advanced := { masterConfig.advanced with limitAdditionalUserPeers := 1 } } }

def dave : ContextUserInfo := ⟨"dave", false⟩

def davesPeer (id : PeerIdentifier) (disabled : Option Time) : Peer :=
  { enabledPeer id with userIdentifier := "dave", disabled := disabled }

def secondKey : PeerIdentifier := "AAAAAAAAAAAAAAAAAAAAAAAAAAAAAAAAAAAAAAAAAAI="

def thirdKey : PeerIdentifier := "AAAAAAAAAAAAAAAAAAAAAAAAAAAAAAAAAAAAAAAAAAM="

/-- A server interface with these peers -/
def davesWorld (peers : List Peer) : World plainTypes :=
  let world := oneInterface Device.empty peers
  { world with db := { world.db with
      interfaces := Table.empty.upsert
        { Interface.zero with identifier := "wg0", type := .server } } }

/-- A call and its operations, one after the other -/
def alone (i : ℕ) (call : Call) (operations : ℕ) : List (Turn ℕ Empty Call Circumstance) :=
  .start i call :: List.replicate operations (.step i (calm 0))

/-- What a run of calls by the user leads to. -/
def reached (world : World plainTypes) (turns : List (Turn ℕ Empty Call Circumstance)) :
    Option (Pool ℕ ManagerOp ManagerOp.Res Unit (State plainTypes)) :=
  runFrom (system (plainClient plainTypes) oneAdditional dave).next (idle (initial world)) turns

def count (q : Pool ℕ ManagerOp ManagerOp.Res Unit (State plainTypes)) : ℕ :=
  activePeers q.shared.world.db "dave"

/-- The user has one peer and creates another. -/
def secondPeer : List (Turn ℕ Empty Call Circumstance) :=
  alone 0 (.createPeer (davesPeer secondKey none)) 17

theorem secondPeer_within_limit : ∃ q,
    reached (davesWorld [davesPeer key none]) secondPeer = some q ∧ count q = 2 ∧
    (count q : Int) ≤ max (1 + 1)
      (activePeers (davesWorld [davesPeer key none]).db "dave") := by
  have counted : (reached (davesWorld [davesPeer key none]) secondPeer).map count = some 2 := by
    decide +kernel
  obtain ⟨q, run, two⟩ := Option.map_eq_some_iff.mp counted
  refine ⟨q, run, two, ?_⟩
  exact guarded_run_within_limit (plainClient plainTypes) oneAdditional dave rfl rfl (by decide)
    (davesWorld [davesPeer key none]) secondPeer q (by decide +kernel) run

/-- Two peers are enabled, and the third one is enabled once more. -/
def enabledAgain : List (Turn ℕ Empty Call Circumstance) :=
  alone 0 (.updatePeer (davesPeer thirdKey none)) 11

/-- Two peers are created at the same time, and both calls count first. -/
def together : List (Turn ℕ Empty Call Circumstance) :=
  .start 0 (.createPeer (davesPeer secondKey none)) :: .step 0 (calm 0) ::
    alone 1 (.createPeer (davesPeer thirdKey none)) 17 ++ List.replicate 16 (.step 0 (calm 0))

/-- A user has three enabled peers in place of two, one call after the other or two at once. -/
theorem limit_exceeded :
    (reached (davesWorld [davesPeer key none, davesPeer secondKey none,
      davesPeer thirdKey (some 1)]) enabledAgain).map count = some 3 ∧
    (reached (davesWorld [davesPeer key none]) together).map count = some 3 ∧
    ¬ ∀ (world : World plainTypes) (turns : List (Turn ℕ Empty Call Circumstance))
      (q : Pool ℕ ManagerOp ManagerOp.Res Unit (State plainTypes)),
      reached world turns = some q →
        (count q : Int) ≤ max (1 + 1) (activePeers world.db "dave") := by
  have enabled : (reached (davesWorld [davesPeer key none, davesPeer secondKey none,
      davesPeer thirdKey (some 1)]) enabledAgain).map count = some 3 := by decide +kernel
  refine ⟨enabled, by decide +kernel, fun within => ?_⟩
  obtain ⟨q, run, three⟩ := Option.map_eq_some_iff.mp enabled
  have two : activePeers (davesWorld [davesPeer key none, davesPeer secondKey none,
      davesPeer thirdKey (some 1)]).db "dave" = 2 := by decide +kernel
  have few := within _ _ q run
  rw [three, two] at few
  revert few
  decide

end WgPortal.WireGuard.PeerLimit
