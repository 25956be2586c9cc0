import WgPortal.WireGuard.PeerSteps

/-! What creating peers may do to the world: the peer that is prepared for a
request, and the attempts to save it. -/

namespace WgPortal.WireGuard.PeerCreation

open Domain Library Adapters App Config WgController PeerSteps
open ManagerProgram (issue)

variable {w : Wgtypes} {client : Client w} {can : Conditions w} {s t : World w}

/-- Key generation may return this pair. -/
def Generated (can : Conditions w) (s : World w) (kp : KeyPair) : Prop :=
  ∃ u c, Untouched s u ∧ can .newFreshKeypair u c ∧ c.fault = none ∧ c.keyPair = kp

/-- The peers that may be proposed for an interface. -/
def Prepared (can : Conditions w) (ui : ContextUserInfo) (s : World w) (iface : Interface)
    (q : Peer) : Prop :=
  ∃ ips kp pk createdAt updatedAt, Generated can s kp ∧
    q = Manager.freshPeer ui iface ips kp pk createdAt updatedAt

theorem uses_getFreshPeerIpConfig (iface : Interface) :
    (Manager.getFreshPeerIpConfig iface).Uses Reading := by
  unfold Manager.getFreshPeerIpConfig
  split
  · trivial
  · split
    · trivial
    · refine ⟨trivial, fun answer => ?_⟩
      cases answer <;> trivial

theorem uses_preparePeerFor (ui : ContextUserInfo) (iface : Interface) :
    (Manager.preparePeerFor ui iface).Uses Reading := by
  refine (uses_getFreshPeerIpConfig iface).bind fun ips => ?_
  cases ips with
  | error err => trivial
  | ok ips =>
    refine ⟨trivial, fun answer => ?_⟩
    cases answer with
    | error err => trivial
    | ok kp =>
      refine ⟨trivial, fun answer => ?_⟩
      cases answer with
      | error err => trivial
      | ok pk => exact ⟨trivial, fun _ => ⟨trivial, fun _ => trivial⟩⟩

theorem uses_preparePeer (m : Manager) (ui : ContextUserInfo) (id : InterfaceIdentifier) :
    (m.preparePeer ui id).Uses Reading := by
  unfold Manager.preparePeer
  dsimp only
  split
  · trivial
  · refine ⟨trivial, fun answer => ?_⟩
    cases answer with
    | error err => trivial
    | ok iface =>
      dsimp only [Program.bind]
      split
      · trivial
      · exact uses_preparePeerFor ui iface

theorem always_preparePeerFor (ui : ContextUserInfo) (iface : Interface) (s : World w) :
    (Manager.preparePeerFor ui iface).Always (Turn client can) s fun r t =>
      Untouched s t ∧ ∀ q, r = .ok q → Prepared can ui s iface q := by
  unfold Manager.preparePeerFor
  refine (always_untouched (uses_getFreshPeerIpConfig iface) s).bind fun ips t same => ?_
  cases ips with
  | error err => exact ⟨same, fun q ok => by cases ok⟩
  | ok ips =>
    intro answer u turn
    have same' := same.trans (turn.reading trivial)
    obtain ⟨c, here, run⟩ := turn
    cases fault : c.fault with
    | some err =>
      simp only [ManagerOp.exec, fault] at run
      obtain ⟨rfl, rfl⟩ := Prod.mk.inj run
      exact ⟨same', fun q ok => by cases ok⟩
    | none =>
      simp only [ManagerOp.exec, fault] at run
      obtain ⟨rfl, rfl⟩ := Prod.mk.inj run
      intro answer v turn
      have same' := same.trans (turn.reading trivial)
      cases answer with
      | error err => exact ⟨same', fun q ok => by cases ok⟩
      | ok pk =>
        intro createdAt v' first updatedAt v'' second
        refine ⟨(same'.trans (first.reading trivial)).trans (second.reading trivial), ?_⟩
        intro q ok
        exact ⟨ips, c.keyPair, pk, createdAt, updatedAt, ⟨_, c, same, here, fault, rfl⟩,
          (Except.ok.inj ok).symm⟩

/-- How preparing a peer may end. -/
def PrepareOutcome (can : Conditions w) (ui : ContextUserInfo) (id : InterfaceIdentifier)
    (s : World w) (r : Except Error Peer) (t : World w) : Prop :=
  Untouched s t ∧ ∀ q, r = .ok q →
    ∃ iface, s.db.interfaces.find id = some iface ∧ Prepared can ui s iface q

theorem PrepareOutcome.error {ui : ContextUserInfo} {id : InterfaceIdentifier} {err : Error}
    (same : Untouched s t) : PrepareOutcome can ui id s (.error err) t :=
  ⟨same, fun q ok => by cases ok⟩

theorem always_preparePeer (m : Manager) (ui : ContextUserInfo) (id : InterfaceIdentifier)
    (s : World w) :
    (m.preparePeer ui id).Always (Turn client can) s (PrepareOutcome can ui id s) := by
  unfold Manager.preparePeer
  simp only
  split
  · exact PrepareOutcome.error (Untouched.refl s)
  · refine Program.always_perform_bind.mpr fun answer t turn => ?_
    have same : Untouched s t := turn.reading trivial
    rcases turn.repo with ⟨err, rfl, rfl, fails⟩ | ⟨now, rfl, rfl⟩
    · exact PrepareOutcome.error same
    · cases stored : s.db.interfaces.find id with
      | none =>
        simp only [RepoOp.answer, Db.getInterface, stored]
        exact PrepareOutcome.error same
      | some iface =>
        simp only [RepoOp.answer, Db.getInterface, stored]
        split
        · exact PrepareOutcome.error same
        · refine (always_preparePeerFor ui iface _).mono fun r t prepared => ?_
          exact ⟨prepared.1, fun q ok => ⟨iface, stored, prepared.2 q ok⟩⟩

/-- The peers that may be saved for a request. -/
def Candidate (can : Conditions w) (m : Manager) (ui : ContextUserInfo) (s : World w)
    (peer q : Peer) : Prop :=
  if ui.isAdmin then q = peer
  else ∃ iface prepared, s.db.interfaces.find peer.interfaceIdentifier = some iface ∧
    Prepared can ui s iface prepared ∧ q = overwriteUserEditableFields prepared peer m.cfg

theorem always_selfProvisioned (m : Manager) (ui : ContextUserInfo) (peer : Peer) (s : World w) :
    (m.selfProvisioned ui peer).Always (Turn client can) s fun r t =>
      Untouched s t ∧ ∀ q, r = .ok q → Candidate can m ui s peer q := by
  unfold Manager.selfProvisioned Candidate
  cases ui.isAdmin with
  | true => exact ⟨Untouched.refl s, fun q ok => (Except.ok.inj ok).symm⟩
  | false =>
    refine (always_preparePeer m ui peer.interfaceIdentifier s).bind fun r t ⟨same, prepared⟩ => ?_
    cases r with
    | error err => exact ⟨same, fun q ok => by cases ok⟩
    | ok proposal =>
      obtain ⟨iface, stored, proposed⟩ := prepared proposal rfl
      refine ⟨same, fun q ok => ?_⟩
      exact ⟨iface, proposal, stored, proposed, (Except.ok.inj ok).symm⟩

theorem uses_validatePeerCreation (m : Manager) (ui : ContextUserInfo) (p : Peer) :
    (m.validatePeerCreation ui p).Uses Reading := by
  unfold Manager.validatePeerCreation
  split
  · trivial
  · split
    · trivial
    · refine ⟨trivial, fun answer => ?_⟩
      cases answer <;> trivial

theorem always_validatePeerCreation (m : Manager) (ui : ContextUserInfo) (new : Peer)
    (s : World w) :
    (m.validatePeerCreation ui new).Always (Turn client can) s fun _ t => Untouched s t :=
  always_untouched (uses_validatePeerCreation m ui new) s

/-- The attempts to save a new peer, each with other addresses, that failed last. -/
inductive Tried (client : Client w) (can : Conditions w) (m : Manager) (ui : ContextUserInfo)
    (p : Peer) (s : World w) : World w → Prop
  | start {t : World w} (same : Untouched s t) : Tried client can m ui p s t
  | again {iface : Interface} {base : BaseModel} {ips : List Cidr} {u t : World w}
      (tried : Tried client can m ui p s u)
      (served : Served m w u.db u.devices (loadAddresses p ips) iface)
      (stranded : Stranded can
        (.commitPeer ui.id p.identifier { loadAddresses p ips with base := base })
        (saved client m iface (loadAddresses p ips) u.devices).2 u t)
      (saving : Saving can m iface (loadAddresses p ips) u) :
      Tried client can m ui p s t

/-- How saving a new peer may end. -/
inductive NewOutcome (client : Client w) (can : Conditions w) (m : Manager)
    (ui : ContextUserInfo) (p : Peer) (s : World w) : Except Error Peer → World w → Prop
  | saved {ips : List Cidr} {u t : World w} {q : Peer} (tried : Tried client can m ui p s u)
      (outcome : SaveOutcome id client can m ui (loadAddresses p ips) u (.ok q) t) :
      NewOutcome client can m ui p s (.ok q) t
  | failed {err : Error} {t : World w} (tried : Tried client can m ui p s t) :
      NewOutcome client can m ui p s (.error err) t

theorem uses_nextIps (networks : List Cidr) : (Manager.nextIps networks).Uses Reading := by
  induction networks with
  | nil => trivial
  | cons network networks ih =>
    unfold Manager.nextIps
    refine ⟨trivial, fun answer => ?_⟩
    cases answer with
    | error err => trivial
    | ok ip =>
      refine ih.bind fun rest => ?_
      cases rest <;> trivial

section

variable {m : Manager} {ui : ContextUserInfo} {p : Peer}

theorem Tried.after {u : World w} (tried : Tried client can m ui p s t) (same : Untouched t u) :
    Tried client can m ui p s u := by
  cases tried with
  | start before => exact .start (before.trans same)
  | again tried served stranded saving =>
    exact .again tried served
      ⟨same.db.trans stranded.db, same.devices.trans stranded.devices, stranded.fails⟩ saving

theorem Tried.db (tried : Tried client can m ui p s t) : t.db = s.db := by
  induction tried with
  | start same => exact same.db
  | again _ _ stranded _ ih => exact stranded.db.trans ih

/-- A failed attempt is one more that was tried. -/
theorem Tried.failed {α : Type} {result : Peer → α} {ips : List Cidr} {err : Error} {u : World w}
    (tried : Tried client can m ui p s t)
    (outcome : SaveOutcome result client can m ui (loadAddresses p ips) t (.error err) u) :
    Tried client can m ui p s u := by
  cases outcome with
  | refused same why => exact tried.after same
  | stranded served stranded saving => exact .again tried served stranded saving

theorem always_saveNewPeer (failure : String) (iface : InterfaceIdentifier) (retries : ℕ)
    (ips : List Cidr) (tried : Tried client can m ui p s t) :
    (m.saveNewPeer ui failure iface retries (loadAddresses p ips)).Always (Turn client can) t
      (NewOutcome client can m ui p s) := by
  induction retries generalizing ips t with
  | zero =>
    unfold Manager.saveNewPeer
    refine (always_savePeers m ui (loadAddresses p ips) t).bind fun r u outcome => ?_
    cases r with
    | ok saved =>
      cases outcome with
      | done served db devices saving => exact .saved tried (.done served db devices saving)
    | error err =>
      have failed : NewOutcome client can m ui p s (.error (.wrap failure err)) u :=
        .failed (tried.failed outcome)
      simp only
      split <;> exact failed
  | succ retries ih =>
    unfold Manager.saveNewPeer
    refine (always_savePeers m ui (loadAddresses p ips) t).bind fun r u outcome => ?_
    cases r with
    | ok saved =>
      cases outcome with
      | done served db devices saving => exact .saved tried (.done served db devices saving)
    | error err =>
      have tried' := tried.failed outcome
      simp only
      split
      · refine Program.always_perform_bind.mpr fun answer v turn => ?_
        have tried'' := tried'.after (turn.reading trivial)
        cases answer with
        | error err => exact .failed tried''
        | ok found =>
          simp only
          refine (always_untouched (uses_nextIps _) v).bind fun next v' same => ?_
          cases next with
          | error err => exact .failed (tried''.after same)
          | ok next => exact ih next (tried''.after same)
      · exact .failed tried'

theorem NewOutcome.after {r : Except Error Peer} {u : World w}
    (outcome : NewOutcome client can m ui p s r t) (same : Untouched t u) :
    NewOutcome client can m ui p s r u := by
  cases outcome with
  | saved tried outcome => exact .saved tried (outcome.after same)
  | failed tried => exact .failed (tried.after same)

/-- The attempts to save a new peer, after operations that read. -/
theorem always_saveFirst (failure : String) (iface : InterfaceIdentifier) (retries : ℕ)
    (q : Peer) (same : Untouched s t) :
    (m.saveNewPeer ui failure iface retries q).Always (Turn client can) t
      (NewOutcome client can m ui q s) :=
  always_saveNewPeer failure iface retries q.interface.addresses (.start same)

end

/-- How `CreatePeer` may end. -/
inductive CreateOutcome (client : Client w) (can : Conditions w) (m : Manager)
    (ui : ContextUserInfo) (peer : Peer) (s : World w) : Except Error Peer → World w → Prop
  | refused {err : Error} {t : World w} (same : Untouched s t) :
      CreateOutcome client can m ui peer s (.error err) t
  | attempted {q : Peer} {r : Except Error Peer} {t : World w}
      (unknown : s.db.peer peer.identifier = none ∨ Misread can s)
      (candidate : Candidate can m ui s peer q)
      (outcome : NewOutcome client can m ui q s r t) :
      CreateOutcome client can m ui peer s r t

theorem always_createPeerChecked (m : Manager) (ui : ContextUserInfo) (peer : Peer)
    (s : World w) :
    (m.createPeerChecked ui peer).Always (Turn client can) s
      (CreateOutcome client can m ui peer s) := by
  unfold Manager.createPeerChecked
  refine (always_checkUnknown _ s).bind fun r t ⟨here, known⟩ => ?_
  subst here
  cases r with
  | error err => exact .refused (Untouched.refl t)
  | ok _ =>
    refine (always_selfProvisioned m ui peer t).bind fun r u ⟨same, candidate⟩ => ?_
    cases r with
    | error err => exact .refused same
    | ok q =>
      refine (always_validatePeerCreation m ui q u).bind fun r v same' => ?_
      cases r with
      | error err => exact .refused (same.trans same')
      | ok _ =>
        refine (always_saveFirst "creation failure" q.interfaceIdentifier Manager.maxRetries q
          (same.trans same')).bind fun r z outcome => ?_
        cases r with
        | error err => exact .attempted known (candidate q rfl) outcome
        | ok saved =>
          intro _ _ first _ _ second
          have published := (first.reading trivial).trans (second.reading trivial)
          exact .attempted known (candidate q rfl) (outcome.after published)

theorem uses_checkPeerLimit (m : Manager) (ui : ContextUserInfo) (id : UserIdentifier) :
    (m.checkPeerLimit ui id).Uses Reading := by
  unfold Manager.checkPeerLimit
  split
  · refine ⟨trivial, fun answer => ?_⟩
    cases answer with
    | error err => trivial
    | ok peers =>
      dsimp only [Program.bind]
      split <;> trivial
  · trivial

theorem always_checkPeerLimit (m : Manager) (ui : ContextUserInfo) (id : UserIdentifier)
    (s : World w) : (m.checkPeerLimit ui id).Always (Turn client can) s fun _ t => t = s := by
  unfold Manager.checkPeerLimit
  split
  · refine Program.always_perform_bind.mpr fun answer t turn => ?_
    rcases turn.repo with ⟨err, rfl, rfl, fails⟩ | ⟨now, rfl, rfl⟩
    · exact rfl
    · simp only [RepoOp.answer]
      split <;> exact rfl
  · exact rfl

theorem always_createPeer (m : Manager) (ui : ContextUserInfo) (peer : Peer) (s : World w) :
    (m.createPeer ui peer).Always (Turn client can) s (CreateOutcome client can m ui peer s) := by
  unfold Manager.createPeer
  simp only
  split
  · exact .refused (Untouched.refl s)
  · refine (always_checkPeerLimit m ui peer.userIdentifier s).bind fun r t here => ?_
    subst here
    cases r with
    | error err => exact .refused (Untouched.refl t)
    | ok _ => exact always_createPeerChecked m ui peer t

end WgPortal.WireGuard.PeerCreation
