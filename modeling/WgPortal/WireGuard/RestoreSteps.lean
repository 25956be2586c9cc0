import WgPortal.WireGuard.Restore

/-! What the operations of `RestoreInterfaceState` do to the device of an
interface, and how far they bring its peers towards what is stored. -/

namespace WgPortal.WireGuard.RestoreSteps

open Domain Library Adapters App Config WgController PhysicalDevice
open InterfaceProgram (issue)

/-- An operation under some circumstances in which `GetPeers` does not fail. -/
def Step (op : InterfaceOp) (s : Site) (answer : op.Res) (t : Site) : Prop :=
  ∃ c : SiteCircumstance, c.unlisted = none ∧ op.exec c s = (answer, t)

/-- Nothing that belongs to peers or devices is different. -/
structure SamePeers (s t : Site) : Prop where
  peers : t.db.peers = s.db.peers
  peerAddresses : t.db.peerAddresses = s.db.peerAddresses
  devices : t.devices = s.devices

theorem SamePeers.refl (s : Site) : SamePeers s s := ⟨rfl, rfl, rfl⟩

theorem SamePeers.trans {s t u : Site} (first : SamePeers s t) (second : SamePeers t u) :
    SamePeers s u :=
  ⟨second.peers.trans first.peers, second.peerAddresses.trans first.peerAddresses,
    second.devices.trans first.devices⟩

/-- The operations that leave peers and devices alone. -/
def Quiet : InterfaceOp → Prop
  | .manager op => op.Passive
  | .saveInterface .. => False
  | _ => True

/-- The operations that write neither. -/
def Idle : InterfaceOp → Prop
  | .manager op => op.Passive
  | .commitInterface .. | .saveInterface .. => False
  | _ => True

theorem Idle.quiet {op : InterfaceOp} (idle : Idle op) : Quiet op := by
  cases op with
  | saveInterface => exact idle
  | commitInterface => trivial
  | _ => exact idle

/-- Those among them that run no hook. -/
def Silent : InterfaceOp → Prop
  | .executeInterfaceHook .. => False
  | op => Idle op

theorem Silent.idle {op : InterfaceOp} (silent : Silent op) : Idle op := by
  cases op with
  | executeInterfaceHook => cases silent
  | _ => exact silent

theorem uses_getInterfaceStateHistory (iface : Interface) :
    (Manager.getInterfaceStateHistory iface).Uses Silent := by
  refine ⟨trivial, fun answer => ?_⟩
  cases answer <;> trivial

theorem uses_handleInterfaceHooks (id : InterfaceIdentifier) (up down : String)
    (upHook downHook : Hook) (oldEnabled newEnabled : Bool) :
    (Manager.handleInterfaceHooks id up down upHook downHook oldEnabled newEnabled).Uses Idle := by
  unfold Manager.handleInterfaceHooks
  split
  · trivial
  · split
    · refine ⟨trivial, fun answer => ?_⟩
      cases answer <;> trivial
    · refine ⟨trivial, fun answer => ?_⟩
      cases answer <;> trivial

theorem uses_handleInterfacePreSaveActions (iface : Interface) :
    (Manager.handleInterfacePreSaveActions iface).Uses Silent := by
  unfold Manager.handleInterfacePreSaveActions
  split
  · refine ⟨trivial, fun answer => ?_⟩
    cases answer <;> trivial
  · refine ⟨trivial, fun answer => ?_⟩
    cases answer <;> trivial

theorem uses_announceInterface (m : Manager) (iface : Interface) :
    (m.announceInterface iface).Uses Silent := by
  unfold Manager.announceInterface
  split
  · exact ⟨trivial, fun _ => ⟨trivial, fun _ => trivial⟩⟩
  · exact ⟨trivial, fun _ => trivial⟩

theorem attempted_cases {β : Type} {fault : Option Error} {work : Except Error β × Site}
    {s t : Site} {answer : Except Error β} (run : attempted fault work s = (answer, t)) :
    (∃ err, answer = .error err ∧ t = s) ∨ (answer = work.1 ∧ t = work.2) := by
  cases fault with
  | some err =>
    obtain ⟨rfl, rfl⟩ := Prod.mk.inj run
    exact .inl ⟨err, rfl, rfl⟩
  | none =>
    obtain ⟨rfl, rfl⟩ := Prod.mk.inj run
    exact .inr ⟨rfl, rfl⟩

theorem attempted_same {β : Type} {fault : Option Error} {work : Except Error β × Site} {s : Site}
    (same : SamePeers s work.2) : SamePeers s (attempted fault work s).2 := by
  cases fault with
  | some err => exact SamePeers.refl s
  | none => exact same

theorem execSite_passive {op : ManagerOp} (passive : op.Passive) (c : SiteCircumstance)
    (s : Site) : SamePeers s (op.execSite c s).2 := by
  cases op with
  | repo op =>
    cases op with
    | commitInterface | commitPeer | deletePeer => cases passive
    | _ => cases fault : c.fault <;>
        simp only [ManagerOp.execSite, RepoOp.exec, RepoOp.apply, fault] <;> exact ⟨rfl, rfl, rfl⟩
  | savePeer | deletePeer => cases passive
  | lock | timeNow | publish => exact ⟨rfl, rfl, rfl⟩
  | getPeers | newFreshKeypair | newPreSharedKey => exact attempted_same (SamePeers.refl s)

theorem Step.same {op : InterfaceOp} {s t : Site} {answer : op.Res}
    (step : Step op s answer t) (quiet : Quiet op) : SamePeers s t := by
  obtain ⟨c, _, run⟩ := step
  have after : t = (op.exec c s).2 := by rw [run]
  rw [after]
  cases op with
  | manager op => exact execSite_passive quiet c s
  | saveInterface => cases quiet
  | commitInterface => exact attempted_same ⟨rfl, rfl, rfl⟩
  | _ => exact attempted_same (SamePeers.refl s)

/-- A program of quiet operations. -/
theorem always_same {α : Type} {prog : InterfaceProgram α} (uses : prog.Uses Quiet) (s : Site) :
    prog.Always Step s fun _ t => SamePeers s t :=
  uses.always (fun _ _ _ _ quiet same step => same.trans (step.same quiet)) (SamePeers.refl s)

variable (m : Manager)

/-- The peer with this key on the device of an interface. -/
def peerAt (iface : Interface) (s : Site) (key : String) : Option PhysicalPeer :=
  (s.devices (m.getController iface) iface.identifier).bind (·.peers.find key)

/-- What the device holds once a stored peer was saved there. -/
def restoredPeer (iface : Interface) (before : Option PhysicalPeer) (p : Peer) :
    Option PhysicalPeer :=
  if p.isDisabled then none
  else some (mergeToPhysicalPeer
    (getOrCreatePeer (m.getController iface) before p.identifier) p
    m.cfg.core.forceClientIPAsAllowedIP)

/-- What `RestoreInterfaceState` leaves of a stored peer on the device. -/
def target (iface : Interface) (before : Option PhysicalPeer) (p : Peer) : Option PhysicalPeer :=
  if iface.isDisabled = true ∧ iface.backend = localBackendName then none
  else restoredPeer m iface before p

theorem importSource_cases (backend : InterfaceBackend) :
    importSourceOf backend = controllerTypeLocal ∨
      importSourceOf backend = controllerTypeMikrotik := by
  unfold importSourceOf
  split
  · exact .inl rfl
  · exact .inr rfl

theorem extrasDisabled_merge (backend : InterfaceBackend) (found : Option PhysicalPeer)
    (id : PeerIdentifier) (p : Peer) (force : Bool) :
    extrasDisabled (mergeToPhysicalPeer (getOrCreatePeer backend found id) p force) =
      p.isDisabled := by
  have source : (getOrCreatePeer backend found id).importSource = importSourceOf backend := rfl
  rcases importSource_cases backend with local_ | mikrotik
  · have ne : controllerTypeLocal ≠ controllerTypeMikrotik := by decide
    simp only [mergeToPhysicalPeer, source, local_, ne, if_true, if_false, extrasDisabled]
  · simp only [mergeToPhysicalPeer, source, mikrotik, if_true, extrasDisabled]

/-- Saving a peer a second time changes nothing. -/
theorem restoredPeer_restoredPeer (iface : Interface) (before : Option PhysicalPeer) (p : Peer) :
    restoredPeer m iface (restoredPeer m iface before p) p = restoredPeer m iface before p := by
  cases disabled : p.isDisabled with
  | true => simp only [restoredPeer, disabled, if_true]
  | false =>
    have again := mergeToPhysicalPeer_idem
      (getOrCreatePeer (m.getController iface) before p.identifier) p
      m.cfg.core.forceClientIPAsAllowedIP
    simp only [restoredPeer, disabled, Bool.false_eq_true, if_false]
    exact congrArg some again

theorem target_target (iface : Interface) (before : Option PhysicalPeer) (p : Peer) :
    target m iface (target m iface before p) p = target m iface before p := by
  unfold target
  split
  · rfl
  · exact restoredPeer_restoredPeer m iface before p

/-- The device of the interface changes at one key. -/
structure Sets (iface : Interface) (key : String) (value : Option PhysicalPeer) (s t : Site) :
    Prop where
  db : t.db = s.db
  elsewhere : ∀ backend id, id ≠ iface.identifier → t.devices backend id = s.devices backend id
  here : peerAt m iface t key = value
  others : ∀ k, k ≠ key → peerAt m iface t k = peerAt m iface s k
  present : (t.devices (m.getController iface) iface.identifier).isSome

theorem setDevice_self (s : Site) (backend : InterfaceBackend) (id : InterfaceIdentifier)
    (d : PhysicalDevice) : (s.setDevice backend id d).devices backend id = some d := by
  simp only [Site.setDevice, Function.update_self]

theorem setDevice_of_ne (s : Site) (backend other : InterfaceBackend) {id id' : InterfaceIdentifier}
    (d : PhysicalDevice) (ne : id' ≠ id) :
    (s.setDevice backend id d).devices other id' = s.devices other id' := by
  by_cases same : other = backend
  · simp only [Site.setDevice, same, Function.update_self, Function.update_of_ne ne]
  · simp only [Site.setDevice, Function.update_of_ne same]

theorem Sets.of_setDevice {iface : Interface} {s : Site} {d d' : PhysicalDevice} {key : String}
    {value : Option PhysicalPeer}
    (device : s.devices (m.getController iface) iface.identifier = some d)
    (here : d'.peers.find key = value) (others : ∀ k, k ≠ key → d'.peers.find k = d.peers.find k) :
    Sets m iface key value s (s.setDevice (m.getController iface) iface.identifier d') := by
  have self := setDevice_self s (m.getController iface) iface.identifier d'
  refine ⟨rfl, fun backend id ne => setDevice_of_ne s _ backend d' ne, ?_, ?_, ?_⟩
  · simpa only [peerAt, self, Option.bind_some] using here
  · intro k ne
    simpa only [peerAt, self, device, Option.bind_some] using others k ne
  · rw [self]
    rfl

/-- Saving a stored peer to the device. -/
theorem Step.savePeer {iface : Interface} {p : Peer}
    (own : p.interface.keyPair.publicKey = p.identifier) {s t : Site} {answer : Except Error Unit}
    (step : Step (.manager (.savePeer (m.getController iface) iface.identifier p.identifier
      fun pp => .ok (mergeToPhysicalPeer pp p m.cfg.core.forceClientIPAsAllowedIP))) s answer t) :
    (∃ err, answer = .error err ∧ t = s) ∨ (answer = .ok () ∧
      Sets m iface p.identifier (restoredPeer m iface (peerAt m iface s p.identifier) p) s t) := by
  obtain ⟨c, _, run⟩ := step
  rcases attempted_cases run with failed | ⟨rfl, rfl⟩
  · exact .inl failed
  · cases device : s.devices (m.getController iface) iface.identifier with
    | none =>
      left
      exact ⟨errNotExist, by simp only [Site.savePeer, device], by simp only [Site.savePeer, device]⟩
    | some d =>
      right
      simp only [Site.savePeer, device]
      have disabled := extrasDisabled_merge (m.getController iface) (d.peers.find p.identifier)
        p.identifier p m.cfg.core.forceClientIPAsAllowedIP
      have before : peerAt m iface s p.identifier = d.peers.find p.identifier := by
        simp only [peerAt, device, Option.bind_some]
      refine ⟨trivial, Sets.of_setDevice m device ?_ ?_⟩
      · rw [before]
        simp only [put, disabled, restoredPeer]
        cases p.isDisabled with
        | true => exact Table.find_filter_self ..
        | false =>
          have upserted := Table.find_upsert_self d.peers (mergeToPhysicalPeer
            (getOrCreatePeer (m.getController iface) (d.peers.find p.identifier) p.identifier) p
            m.cfg.core.forceClientIPAsAllowedIP)
          exact own ▸ upserted
      · intro k ne
        simp only [put, disabled]
        cases p.isDisabled with
        | true => exact Table.find_filter_of_ne d.peers ne
        | false => exact Table.find_upsert_of_ne d.peers (own.trans_ne ne.symm)

theorem Step.deletePeer {iface : Interface} {key : String} {s t : Site} {answer : Except Error Unit}
    (step : Step (.manager (.deletePeer (m.getController iface) iface.identifier key)) s answer t) :
    (∃ err, answer = .error err ∧ t = s) ∨ (answer = .ok () ∧ Sets m iface key none s t) := by
  obtain ⟨c, _, run⟩ := step
  rcases attempted_cases run with failed | ⟨rfl, rfl⟩
  · exact .inl failed
  · cases device : s.devices (m.getController iface) iface.identifier with
    | none =>
      left
      exact ⟨errNotExist, by simp only [Site.deletePeer, device],
        by simp only [Site.deletePeer, device]⟩
    | some d =>
      right
      simp only [Site.deletePeer, device]
      exact ⟨trivial, Sets.of_setDevice m device (Table.find_filter_self ..)
        fun k ne => Table.find_filter_of_ne d.peers ne⟩

/-- While an interface is restored, its device holds for each stored peer what
it held at the start or what it is to hold in the end. -/
structure Midway (iface : Interface) (ps : List Peer) (start s : Site) : Prop where
  peers : s.db.peers = start.db.peers
  peerAddresses : s.db.peerAddresses = start.db.peerAddresses
  elsewhere : ∀ backend id, id ≠ iface.identifier → s.devices backend id = start.devices backend id
  each : ∀ key, peerAt m iface s key = peerAt m iface start key ∨ ∃ p ∈ ps, p.identifier = key ∧
    peerAt m iface s key = target m iface (peerAt m iface start key) p

variable {m} {iface : Interface} {ps : List Peer} {start s t : Site}

theorem Midway.refl : Midway m iface ps start start :=
  ⟨rfl, rfl, fun _ _ _ => rfl, fun _ => .inl rfl⟩

/-- Saving a peer again leads where saving it at the start leads. -/
theorem Midway.target_eq (nodup : (ps.map Peer.identifier).Nodup)
    (midway : Midway m iface ps start s) {p : Peer} (hp : p ∈ ps) :
    target m iface (peerAt m iface s p.identifier) p =
      target m iface (peerAt m iface start p.identifier) p := by
  rcases midway.each p.identifier with same | ⟨q, hq, key, saved⟩
  · rw [same]
  · have own : q = p := List.inj_on_of_nodup_map nodup hq hp key
    rw [saved, own, target_target]

theorem Midway.sets (nodup : (ps.map Peer.identifier).Nodup) (midway : Midway m iface ps start s)
    {p : Peer} (hp : p ∈ ps)
    (sets : Sets m iface p.identifier (target m iface (peerAt m iface s p.identifier) p) s t) :
    Midway m iface ps start t := by
  refine ⟨sets.db ▸ midway.peers, sets.db ▸ midway.peerAddresses, ?_, ?_⟩
  · intro backend id ne
    rw [sets.elsewhere backend id ne, midway.elsewhere backend id ne]
  · intro key
    by_cases same : key = p.identifier
    · right
      subst same
      exact ⟨p, hp, rfl, sets.here.trans (midway.target_eq nodup hp)⟩
    · rw [sets.others key same]
      exact midway.each key

/-- The peer has reached its final state. -/
def Reached (m : Manager) (iface : Interface) (start s : Site) (p : Peer) : Prop :=
  peerAt m iface s p.identifier = target m iface (peerAt m iface start p.identifier) p

/-- From `s` to `t`, restoring the interface goes on. -/
structure Advance (m : Manager) (iface : Interface) (ps : List Peer) (start s t : Site) : Prop where
  midway : Midway m iface ps start t
  stays : (s.devices (m.getController iface) iface.identifier).isSome →
    (t.devices (m.getController iface) iface.identifier).isSome
  keeps : ∀ p ∈ ps, Reached m iface start s p → Reached m iface start t p

theorem Advance.refl (midway : Midway m iface ps start s) : Advance m iface ps start s s :=
  ⟨midway, id, fun _ _ => id⟩

theorem Advance.trans {u : Site} (first : Advance m iface ps start s t)
    (second : Advance m iface ps start t u) : Advance m iface ps start s u :=
  ⟨second.midway, second.stays ∘ first.stays, fun p hp => second.keeps p hp ∘ first.keeps p hp⟩

/-- The peers on the device, and all else that is looked at, are as before. -/
structure Unchanged (m : Manager) (iface : Interface) (s t : Site) : Prop where
  peers : t.db.peers = s.db.peers
  peerAddresses : t.db.peerAddresses = s.db.peerAddresses
  elsewhere : ∀ backend id, id ≠ iface.identifier → t.devices backend id = s.devices backend id
  here : ∀ key, peerAt m iface t key = peerAt m iface s key
  stays : (s.devices (m.getController iface) iface.identifier).isSome →
    (t.devices (m.getController iface) iface.identifier).isSome

theorem SamePeers.unchanged (same : SamePeers s t) : Unchanged m iface s t := by
  refine ⟨same.peers, same.peerAddresses, fun _ _ _ => by rw [same.devices], fun _ => ?_, ?_⟩
  · rw [peerAt, same.devices, peerAt]
  · rw [same.devices]
    exact id

theorem Advance.unchanged (midway : Midway m iface ps start s) (unchanged : Unchanged m iface s t) :
    Advance m iface ps start s t := by
  refine ⟨⟨unchanged.peers.trans midway.peers, unchanged.peerAddresses.trans midway.peerAddresses,
    ?_, ?_⟩, unchanged.stays, ?_⟩
  · intro backend id ne
    rw [unchanged.elsewhere backend id ne, midway.elsewhere backend id ne]
  · intro key
    rw [unchanged.here]
    exact midway.each key
  · intro p _ reached
    rwa [Reached, unchanged.here]

theorem Advance.sets (nodup : (ps.map Peer.identifier).Nodup) (midway : Midway m iface ps start s)
    {p : Peer} (hp : p ∈ ps)
    (sets : Sets m iface p.identifier (target m iface (peerAt m iface s p.identifier) p) s t) :
    Advance m iface ps start s t ∧ Reached m iface start t p := by
  have now : Reached m iface start t p := sets.here.trans (midway.target_eq nodup hp)
  refine ⟨⟨midway.sets nodup hp sets, fun _ => sets.present, ?_⟩, now⟩
  intro q hq reached
  by_cases same : q.identifier = p.identifier
  · rw [List.inj_on_of_nodup_map nodup hq hp same]
    exact now
  · rw [Reached, sets.others _ same]
    exact reached

/-- Public keys are identifiers. -/
def OwnKeys (ps : List Peer) : Prop := ∀ p ∈ ps, p.interface.keyPair.publicKey = p.identifier

theorem Step.savePeer_advance (nodup : (ps.map Peer.identifier).Nodup) (own : OwnKeys ps)
    (kept : ¬(iface.isDisabled = true ∧ iface.backend = localBackendName))
    (midway : Midway m iface ps start s) {p : Peer} (hp : p ∈ ps) {answer : Except Error Unit}
    (step : Step (.manager (.savePeer (m.getController iface) iface.identifier p.identifier
      fun pp => .ok (mergeToPhysicalPeer pp p m.cfg.core.forceClientIPAsAllowedIP))) s answer t) :
    Advance m iface ps start s t ∧ (answer = .ok () → Reached m iface start t p) := by
  rcases step.savePeer m (own p hp) with ⟨err, rfl, rfl⟩ | ⟨_, sets⟩
  · exact ⟨Advance.refl midway, fun done => by cases done⟩
  · have goal : target m iface (peerAt m iface s p.identifier) p =
        restoredPeer m iface (peerAt m iface s p.identifier) p := by rw [target, if_neg kept]
    rw [← goal] at sets
    have advance := Advance.sets nodup midway hp sets
    exact ⟨advance.1, fun _ => advance.2⟩

theorem Step.deletePeer_advance (nodup : (ps.map Peer.identifier).Nodup)
    (cleared : iface.isDisabled = true ∧ iface.backend = localBackendName)
    (midway : Midway m iface ps start s) {p : Peer} (hp : p ∈ ps) {answer : Except Error Unit}
    (step : Step (.manager (.deletePeer (m.getController iface) iface.identifier p.identifier))
      s answer t) :
    Advance m iface ps start s t ∧ (answer = .ok () → Reached m iface start t p) := by
  rcases step.deletePeer m with ⟨err, rfl, rfl⟩ | ⟨_, sets⟩
  · exact ⟨Advance.refl midway, fun done => by cases done⟩
  · have goal : target m iface (peerAt m iface s p.identifier) p = none := by
      rw [target, if_pos cleared]
    rw [← goal] at sets
    have advance := Advance.sets nodup midway hp sets
    exact ⟨advance.1, fun _ => advance.2⟩

/-- The controller writes an interface and leaves the peers of its device. -/
theorem Step.saveInterface {updateFunc : PhysicalInterface → Except Error PhysicalInterface}
    {answer : Except Error Unit} (step : Step (.saveInterface (m.getController iface)
      iface.identifier updateFunc) s answer t) :
    Unchanged m iface s t ∧ (answer = .ok () →
      (t.devices (m.getController iface) iface.identifier).isSome) := by
  obtain ⟨c, _, run⟩ := step
  rcases attempted_cases run with ⟨err, rfl, rfl⟩ | ⟨rfl, rfl⟩
  · exact ⟨(SamePeers.refl t).unchanged, fun done => by cases done⟩
  · unfold Site.saveInterface
    simp only
    split
    · exact ⟨(SamePeers.refl s).unchanged, fun done => by cases done⟩
    · rename_i pi _
      have self := setDevice_self s (m.getController iface) iface.identifier
        ⟨pi, ((s.devices (m.getController iface) iface.identifier).map
          PhysicalDevice.peers).getD Table.empty⟩
      refine ⟨⟨rfl, rfl, fun backend id ne => setDevice_of_ne s _ backend _ ne, ?_, ?_⟩, ?_⟩
      · intro key
        rw [peerAt, self, peerAt]
        cases s.devices (m.getController iface) iface.identifier with
        | none => rfl
        | some d => rfl
      · intro _
        rw [self]
        rfl
      · intro _
        rw [self]
        rfl

theorem Step.getAllInterfaces {ifaces : List Interface}
    (step : Step (.manager (.repo .getAllInterfaces)) s (.ok ifaces) t) :
    ifaces = s.db.interfaces.rows := by
  obtain ⟨c, _, run⟩ := step
  cases fault : c.fault <;>
    simp only [InterfaceOp.exec, ManagerOp.execSite, RepoOp.exec, fault, RepoOp.answer,
      Prod.mk.injEq, Except.ok.injEq, reduceCtorEq, false_and] at run
  exact run.1.symm

theorem Step.getInterfacePeers {id : InterfaceIdentifier} {peers : List Peer}
    (step : Step (.manager (.repo (.getInterfacePeers id))) s (.ok peers) t) :
    peers = s.db.getInterfacePeers id := by
  obtain ⟨c, _, run⟩ := step
  cases fault : c.fault <;>
    simp only [InterfaceOp.exec, ManagerOp.execSite, RepoOp.exec, fault, RepoOp.answer,
      Prod.mk.injEq, Except.ok.injEq, reduceCtorEq, false_and] at run
  exact run.1.symm

theorem Step.getPeers {d : PhysicalDevice}
    (device : s.devices (m.getController iface) iface.identifier = some d)
    {answer : Except Error (List PhysicalPeer)}
    (step : Step (.getPeers (m.getController iface) iface.identifier) s answer t) :
    answer = .ok (d.peers.rows.map (reported (m.getController iface))) ∧ t = s := by
  obtain ⟨c, listed, run⟩ := step
  simp only [InterfaceOp.exec, attempted, listed, Site.getPeers, device, Prod.mk.injEq] at run
  exact ⟨run.1.symm, run.2.symm⟩

/-- What `saveInterface` keeps of the interface it works on. -/
structure Alike (iface iface' : Interface) : Prop where
  identifier : iface'.identifier = iface.identifier
  backend : iface'.backend = iface.backend
  disabled : iface'.disabled = iface.disabled

namespace Alike

variable {iface' : Interface}

theorem refl : Alike iface iface := ⟨rfl, rfl, rfl⟩

theorem symm (alike : Alike iface iface') : Alike iface' iface :=
  ⟨alike.identifier.symm, alike.backend.symm, alike.disabled.symm⟩

theorem trans {iface'' : Interface} (first : Alike iface iface') (second : Alike iface' iface'') :
    Alike iface iface'' :=
  ⟨second.identifier.trans first.identifier, second.backend.trans first.backend,
    second.disabled.trans first.disabled⟩

theorem isDisabled (alike : Alike iface iface') : iface'.isDisabled = iface.isDisabled := by
  rw [Interface.isDisabled, Interface.isDisabled, alike.disabled]

theorem getController (alike : Alike iface iface') :
    m.getController iface' = m.getController iface := by
  rw [Manager.getController, Manager.getController, alike.backend]

theorem peerAt_eq (alike : Alike iface iface') (s : Site) (key : String) :
    peerAt m iface' s key = peerAt m iface s key := by
  rw [peerAt, peerAt, alike.getController, alike.identifier]

theorem target_eq (alike : Alike iface iface') (before : Option PhysicalPeer) (p : Peer) :
    target m iface' before p = target m iface before p := by
  simp only [target, restoredPeer, alike.getController, alike.isDisabled, alike.backend]

theorem midway (alike : Alike iface iface') (midway : Midway m iface' ps start s) :
    Midway m iface ps start s := by
  refine ⟨midway.peers, midway.peerAddresses, ?_, ?_⟩
  · simpa only [alike.identifier] using midway.elsewhere
  · simpa only [alike.peerAt_eq, alike.target_eq] using midway.each

theorem reached (alike : Alike iface iface') (p : Peer) :
    Reached m iface' start s p ↔ Reached m iface start s p := by
  simp only [Reached, alike.peerAt_eq, alike.target_eq]

theorem advance (alike : Alike iface iface') (advance : Advance m iface' ps start s t) :
    Advance m iface ps start s t := by
  refine ⟨alike.midway advance.midway, ?_, ?_⟩
  · simpa only [alike.getController, alike.identifier] using advance.stays
  · simpa only [alike.reached] using advance.keeps

end Alike

theorem validate_alike {iface' : Interface} (valid : iface.validate = .ok iface') :
    Alike iface iface' := by
  obtain ⟨endpoint, rfl⟩ := Interface.validate_eq valid
  exact ⟨rfl, rfl, rfl⟩

theorem Step.commitInterface {userId : UserIdentifier} {iface' : Interface}
    (step : Step (.commitInterface userId iface) s (.ok iface') t) : Alike iface iface' := by
  obtain ⟨c, _, run⟩ := step
  rcases attempted_cases run with ⟨err, failed, _⟩ | ⟨written, _⟩
  · cases failed
  · rw [Except.ok.inj written]
    exact ⟨rfl, rfl, rfl⟩

end WgPortal.WireGuard.RestoreSteps
