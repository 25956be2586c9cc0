import WgPortal.WireGuard.RestoreSteps

/-! What the devices hold after `RestoreInterfaceState`. -/

namespace WgPortal.WireGuard.RestoreDevices

open Domain Library Adapters App Config WgController PhysicalDevice RestoreSteps
open InterfaceProgram (issue lift lift_bind lift_issue_bind)

variable {m : Manager} {iface : Interface} {ps : List Peer} {start s t : Site}

theorem always_restorePeer (nodup : (ps.map Peer.identifier).Nodup) (own : OwnKeys ps)
    (midway : Midway m iface ps start s) {p : Peer} (hp : p ∈ ps) :
    (lift (m.restorePeer iface p)).Always Step s fun r t =>
      Advance m iface ps start s t ∧ (r = .ok () → Reached m iface start t p) := by
  rw [Manager.restorePeer]
  by_cases cleared : iface.isDisabled = true ∧ iface.backend = localBackendName
  · rw [if_pos (by simpa using cleared), lift_issue_bind]
    intro answer t step
    have advance := step.deletePeer_advance nodup cleared midway hp
    cases answer with
    | error err => exact ⟨advance.1, fun done => by cases done⟩
    | ok _ => exact ⟨advance.1, fun _ => advance.2 rfl⟩
  · rw [if_neg (by simpa using cleared), lift_issue_bind]
    intro answer t step
    have advance := step.savePeer_advance nodup own cleared midway hp
    cases answer with
    | error err => exact ⟨advance.1, fun done => by cases done⟩
    | ok _ => exact ⟨advance.1, fun _ => advance.2 rfl⟩

theorem always_restorePeers (nodup : (ps.map Peer.identifier).Nodup) (own : OwnKeys ps)
    (midway : Midway m iface ps start s) {rest : List Peer} (sub : rest ⊆ ps) :
    (lift (m.restorePeers iface rest)).Always Step s fun r t =>
      Advance m iface ps start s t ∧ (r = .ok () → ∀ p ∈ rest, Reached m iface start t p) := by
  induction rest generalizing s with
  | nil => exact ⟨Advance.refl midway, fun _ p hp => by cases hp⟩
  | cons p rest ih =>
    have hp : p ∈ ps := sub List.mem_cons_self
    rw [Manager.restorePeers, lift_bind]
    refine (always_restorePeer nodup own midway hp).bind fun r t ⟨advance, first⟩ => ?_
    cases r with
    | error err => exact ⟨advance, fun done => by cases done⟩
    | ok _ =>
      refine (ih advance.midway fun q hq => sub (List.mem_cons_of_mem p hq)).mono ?_
      intro r' u ⟨further, later⟩
      refine ⟨advance.trans further, fun done q hq => ?_⟩
      rcases List.mem_cons.mp hq with rfl | hq
      · exact further.keeps q hp (first rfl)
      · exact later done q hq

theorem always_restoreEnabledPeers (nodup : (ps.map Peer.identifier).Nodup) (own : OwnKeys ps)
    (enabled : iface.isDisabled = false) (midway : Midway m iface ps start s) {rest : List Peer}
    (sub : rest ⊆ ps) :
    (m.restoreEnabledPeers iface rest).Always Step s fun _ t => Advance m iface ps start s t := by
  induction rest generalizing s with
  | nil => exact Advance.refl midway
  | cons p rest ih =>
    rw [Manager.restoreEnabledPeers]
    intro answer t step
    have kept : ¬(iface.isDisabled = true ∧ iface.backend = localBackendName) := by simp [enabled]
    have advance := (step.savePeer_advance nodup own kept midway (sub List.mem_cons_self)).1
    cases answer with
    | error err => exact advance
    | ok _ =>
      refine (ih advance.midway fun q hq => sub (List.mem_cons_of_mem p hq)).mono ?_
      exact fun _ _ further => advance.trans further

theorem uses_disableMissing (row : Interface) : (Manager.disableMissing row).Uses Quiet :=
  ⟨trivial, fun _ => trivial⟩

theorem uses_saveInterfaceRow (ui : ContextUserInfo) (id : InterfaceIdentifier)
    {updateFunc : Interface → InterfaceProgram (Except Error Interface)}
    (uses : ∀ row, (updateFunc row).Uses Quiet) :
    (saveInterfaceRow ui id updateFunc).Uses Quiet := by
  refine ⟨trivial, fun answer => ?_⟩
  cases answer with
  | error err => trivial
  | ok row =>
    refine (uses row).bind fun updated => ?_
    cases updated with
    | error err => trivial
    | ok iface => exact ⟨trivial, fun _ => trivial⟩

/-- The interface is written to its controller and to the database. -/
theorem always_saveInterfaceRow (ui : ContextUserInfo) (midway : Midway m iface ps start s) :
    (saveInterfaceRow ui iface.identifier (m.saveToController iface)).Always Step s fun r t =>
      Advance m iface ps start s t ∧ ∀ iface', r = .ok iface' → Alike iface iface' ∧
        (t.devices (m.getController iface) iface.identifier).isSome := by
  intro answer t step
  have read := Advance.unchanged midway (step.same trivial).unchanged
  cases answer with
  | error err => exact ⟨read, fun _ done => by cases done⟩
  | ok row =>
    have same : Alike iface (iface.copyCalculatedAttributes row) := ⟨rfl, rfl, rfl⟩
    intro answer u step
    have write : Step (.saveInterface (m.getController iface) iface.identifier fun pi =>
        .ok (mergeToPhysicalInterface pi (iface.copyCalculatedAttributes row))) t answer u := step
    have written := write.saveInterface
    have advance := read.trans (Advance.unchanged read.midway written.1)
    cases answer with
    | error err => exact ⟨advance, fun _ done => by cases done⟩
    | ok _ =>
      intro answer v step
      have committed := step.same trivial
      have last := advance.trans (Advance.unchanged advance.midway committed.unchanged)
      refine ⟨last, fun iface' done => ⟨?_, ?_⟩⟩
      · rw [done] at step
        exact same.trans step.commitInterface
      · rw [committed.devices]
        exact written.2 rfl

theorem always_handleEnabled (own : OwnKeys ps)
    (listed : ps = start.db.getInterfacePeers iface.identifier) (midway : Midway m iface ps start s)
    (oldEnabled : Bool) : (m.handleEnabled iface oldEnabled (!iface.isDisabled)).Always Step s
      fun _ t => Advance m iface ps start s t := by
  rw [Manager.handleEnabled]
  split
  · rename_i turned
    have enabled : iface.isDisabled = false := by
      cases disabled : iface.isDisabled with
      | false => rfl
      | true => simp [disabled] at turned
    intro answer t step
    have loaded := Advance.unchanged midway (step.same trivial).unchanged
    cases answer with
    | error err => exact loaded
    | ok peers =>
      have all : peers = ps := by
        rw [step.getInterfacePeers, listed]
        exact Db.getInterfacePeers_congr midway.peers midway.peerAddresses _
      rw [all]
      have nodup := start.db.nodup_getInterfacePeers iface.identifier
      rw [← listed] at nodup
      refine (always_restoreEnabledPeers nodup own enabled loaded.midway (List.Subset.refl ps)).bind
        fun r u advance => ?_
      cases r with
      | error err => exact loaded.trans advance
      | ok _ =>
        intro _ v step
        exact (loaded.trans advance).trans
          (Advance.unchanged advance.midway (step.same trivial).unchanged)
  · exact Advance.refl midway

theorem always_quiet {α : Type} {prog : InterfaceProgram α} (uses : prog.Uses Quiet)
    (midway : Midway m iface ps start s) :
    prog.Always Step s fun _ t => Advance m iface ps start s t :=
  (always_same uses s).mono fun _ _ same => Advance.unchanged midway same.unchanged

theorem always_idle {α : Type} {prog : InterfaceProgram α} (uses : prog.Uses Idle)
    (midway : Midway m iface ps start s) :
    prog.Always Step s fun _ t => Advance m iface ps start s t :=
  always_quiet (uses.mono fun _ => Idle.quiet) midway

theorem always_finishSave (own : OwnKeys ps)
    (listed : ps = start.db.getInterfacePeers iface.identifier) (midway : Midway m iface ps start s)
    (oldEnabled : Bool) : (m.finishSave iface oldEnabled (!iface.isDisabled)).Always Step s
      fun _ t => Advance m iface ps start s t := by
  refine (always_idle ((uses_announceInterface m iface).mono fun _ => Silent.idle) midway).bind fun _ t first => ?_
  refine (always_idle (uses_handleInterfaceHooks ..) first.midway).bind fun hooks u second => ?_
  have done := first.trans second
  cases hooks with
  | error err => exact done
  | ok _ =>
    refine (always_handleEnabled own listed done.midway oldEnabled).bind fun peers v third => ?_
    cases peers with
    | error err => exact done.trans third
    | ok _ =>
      intro _ w step
      exact (done.trans third).trans
        (Advance.unchanged third.midway (step.same trivial).unchanged)

theorem always_getInterfaceStateHistory (iface : Interface) (s : Site) :
    (Manager.getInterfaceStateHistory iface).Always Step s fun states t =>
      states.2 = !iface.isDisabled ∧ SamePeers s t := by
  intro answer t step
  cases answer with
  | error err => exact ⟨rfl, step.same trivial⟩
  | ok oldInterface => exact ⟨rfl, step.same trivial⟩

/-- What `saveInterface` does, with the result and the interface it leaves. -/
def Saved (m : Manager) (iface : Interface) (ps : List Peer) (start s : Site)
    (result : Except Error Unit × Interface) (t : Site) : Prop :=
  Alike iface result.2 ∧ Advance m iface ps start s t ∧
    (result.1 = .ok () → (t.devices (m.getController iface) iface.identifier).isSome)

theorem Saved.failed {iface' : Interface} {err : Error} (alike : Alike iface iface')
    (advance : Advance m iface ps start s t) :
    Saved m iface ps start s (.error err, iface') t :=
  ⟨alike, advance, fun done => by cases done⟩

theorem always_saveInterface (ui : ContextUserInfo) (own : OwnKeys ps)
    (listed : ps = start.db.getInterfacePeers iface.identifier)
    (midway : Midway m iface ps start s) :
    (m.saveInterface ui iface).Always Step s (Saved m iface ps start s) := by
  rw [Manager.saveInterface]
  cases valid : iface.validate with
  | error err => exact Saved.failed Alike.refl (Advance.refl midway)
  | ok iface₁ =>
    have alike := validate_alike valid
    refine (always_getInterfaceStateHistory iface₁ s).bind fun states s₁ ⟨enabled, same⟩ => ?_
    have read := Advance.unchanged midway same.unchanged
    refine (always_idle (uses_handleInterfaceHooks ..) read.midway).bind fun hooks s₂ hooked => ?_
    have hooked := read.trans hooked
    cases hooks with
    | error err => exact Saved.failed alike hooked
    | ok _ =>
      refine (always_idle ((uses_handleInterfacePreSaveActions iface₁).mono fun _ => Silent.idle)
        hooked.midway).bind
        fun actions s₃ acted => ?_
      have acted := hooked.trans acted
      cases actions with
      | error err => exact Saved.failed alike acted
      | ok _ =>
        refine (always_saveInterfaceRow ui (alike.symm.midway acted.midway)).bind
          fun row s₄ ⟨written, saved⟩ => ?_
        have written := acted.trans (alike.advance written)
        cases row with
        | error err => exact Saved.failed alike written
        | ok iface₂ =>
          obtain ⟨alike₂, present⟩ := saved iface₂ rfl
          have alike₂ := alike.trans alike₂
          have now : states.2 = !iface₂.isDisabled := by
            rw [enabled, alike.isDisabled, alike₂.isDisabled]
          rw [now]
          have listed₂ : ps = start.db.getInterfacePeers iface₂.identifier := by
            rw [listed, alike₂.identifier]
          refine (always_finishSave own listed₂ (alike₂.symm.midway written.midway) states.1).bind
            fun r s₅ finished => ?_
          have finished := alike₂.advance finished
          refine ⟨alike₂, written.trans finished, fun _ => finished.stays ?_⟩
          rwa [alike.getController, alike.identifier] at present

theorem always_saveWithRetries (ui : ContextUserInfo) (own : OwnKeys ps)
    (listed : ps = start.db.getInterfacePeers iface.identifier) (retries : ℕ)
    {iface' : Interface} (alike : Alike iface iface') (midway : Midway m iface ps start s) :
    (m.saveWithRetries ui retries iface').Always Step s (Saved m iface ps start s) := by
  have once : ∀ (iface' : Interface) (s : Site), Alike iface iface' →
      Midway m iface ps start s →
      (m.saveInterface ui iface').Always Step s (Saved m iface ps start s) := by
    intro iface' s alike midway
    have listed' : ps = start.db.getInterfacePeers iface'.identifier := by
      rw [listed, alike.identifier]
    refine (always_saveInterface ui own listed' (alike.symm.midway midway)).mono ?_
    intro result t ⟨alike₂, advance, present⟩
    rw [alike.getController, alike.identifier] at present
    exact ⟨alike.trans alike₂, alike.advance advance, present⟩
  induction retries generalizing iface' s with
  | zero => exact once iface' s alike midway
  | succ retries ih =>
    refine (once iface' s alike midway).bind fun result t ⟨alike₂, advance, present⟩ => ?_
    obtain ⟨outcome, iface₂⟩ := result
    cases outcome with
    | ok _ => exact ⟨alike₂, advance, present⟩
    | error err =>
      refine (ih alike₂ advance.midway).mono fun result u ⟨alike₃, further, present⟩ => ?_
      exact ⟨alike₃, advance.trans further, present⟩

/-- What bringing an interface to its stored state does, before its peers follow. -/
def Prepared (m : Manager) (iface : Interface) (ps : List Peer) (start s : Site)
    (result : Except Error Interface) (t : Site) : Prop :=
  Advance m iface ps start s t ∧ ∀ iface', result = .ok iface' → Alike iface iface' ∧
    (t.devices (m.getController iface) iface.identifier).isSome

theorem always_restoreMissing (ui : ContextUserInfo) (updateDbOnError : Bool) (own : OwnKeys ps)
    (listed : ps = start.db.getInterfacePeers iface.identifier)
    (midway : Midway m iface ps start s) :
    (m.restoreMissing ui updateDbOnError iface).Always Step s (Prepared m iface ps start s) := by
  rw [Manager.restoreMissing]
  have marks := uses_saveInterfaceRow ui iface.identifier uses_disableMissing
  refine (always_quiet marks midway).bind fun _ t marked => ?_
  have alike : Alike iface { iface with saveConfig := m.cfg.advanced.configStoragePath ≠ "" } :=
    ⟨rfl, rfl, rfl⟩
  refine (always_saveWithRetries ui own listed Manager.maxRestoreRetries alike marked.midway).bind
    fun result u ⟨_, saved, present⟩ => ?_
  have saved := marked.trans saved
  obtain ⟨outcome, createdIface⟩ := result
  cases outcome with
  | error err =>
    cases updateDbOnError with
    | false => exact ⟨saved, fun _ done => by cases done⟩
    | true =>
      refine (always_quiet marks saved.midway).bind fun _ v again => ?_
      exact ⟨saved.trans again, fun _ done => by cases done⟩
  | ok _ =>
    simp only
    split
    · intro _ v step
      have announced := step.same trivial
      refine ⟨saved.trans (Advance.unchanged saved.midway announced.unchanged), ?_⟩
      intro iface' done
      rw [← Except.ok.inj done, announced.devices]
      exact ⟨Alike.refl, present rfl⟩
    · refine ⟨saved, fun iface' done => ?_⟩
      rw [← Except.ok.inj done]
      exact ⟨Alike.refl, present rfl⟩

theorem always_restoreExisting (ui : ContextUserInfo) (updateDbOnError : Bool) (own : OwnKeys ps)
    (listed : ps = start.db.getInterfacePeers iface.identifier)
    (midway : Midway m iface ps start s) :
    (m.restoreExisting ui updateDbOnError iface).Always Step s (Prepared m iface ps start s) := by
  rw [Manager.restoreExisting]
  refine (always_saveWithRetries ui own listed Manager.maxRestoreRetries Alike.refl midway).bind
    fun result t ⟨alike, saved, present⟩ => ?_
  obtain ⟨outcome, iface'⟩ := result
  cases outcome with
  | error err =>
    cases updateDbOnError with
    | false => exact ⟨saved, fun _ done => by cases done⟩
    | true =>
      have quiet : ∀ row : Interface, (if iface'.isDisabled then Manager.disableMissing row
          else return .ok { row with disabled := none, disabledReason := "" } :
            InterfaceProgram (Except Error Interface)).Uses Quiet := by
        intro row
        split
        · exact uses_disableMissing row
        · trivial
      have marks := uses_saveInterfaceRow ui iface'.identifier quiet
      refine (always_quiet marks saved.midway).bind fun _ u marked => ?_
      exact ⟨saved.trans marked, fun _ done => by cases done⟩
  | ok _ =>
    refine ⟨saved, fun iface'' done => ?_⟩
    rw [← Except.ok.inj done]
    exact ⟨alike, present rfl⟩

/-- The listed peers that are not stored are gone, the others are as before. -/
structure Purged (m : Manager) (iface : Interface) (ps : List Peer) (listed : List PhysicalPeer)
    (s t : Site) : Prop where
  db : t.db = s.db
  elsewhere : ∀ backend id, id ≠ iface.identifier → t.devices backend id = s.devices backend id
  stays : (s.devices (m.getController iface) iface.identifier).isSome →
    (t.devices (m.getController iface) iface.identifier).isSome
  here : ∀ key, peerAt m iface t key =
    if (∃ pp ∈ listed, pp.keyPair.publicKey = key) ∧ ∀ p ∈ ps, p.identifier ≠ key then none
    else peerAt m iface s key

theorem Purged.nil : Purged m iface ps [] s s :=
  ⟨rfl, fun _ _ _ => rfl, id, fun _ => by simp⟩

theorem Purged.keep {pp : PhysicalPeer} {listed : List PhysicalPeer}
    (stored : ∃ p ∈ ps, p.identifier = pp.keyPair.publicKey)
    (purged : Purged m iface ps listed s t) : Purged m iface ps (pp :: listed) s t := by
  refine ⟨purged.db, purged.elsewhere, purged.stays, fun key => ?_⟩
  rw [purged.here]
  refine if_congr (and_congr_left fun foreign => ?_) rfl rfl
  obtain ⟨p, hp, same⟩ := stored
  have ne : pp.keyPair.publicKey ≠ key := same ▸ foreign p hp
  simp [ne]

theorem Purged.drop {u : Site} {pp : PhysicalPeer} {listed : List PhysicalPeer}
    (foreign : ∀ p ∈ ps, p.identifier ≠ pp.keyPair.publicKey)
    (sets : Sets m iface pp.keyPair.publicKey none s t) (purged : Purged m iface ps listed t u) :
    Purged m iface ps (pp :: listed) s u := by
  refine ⟨purged.db.trans sets.db, ?_, fun _ => purged.stays sets.present, fun key => ?_⟩
  · intro backend id ne
    rw [purged.elsewhere backend id ne, sets.elsewhere backend id ne]
  · rw [purged.here]
    by_cases same : key = pp.keyPair.publicKey
    · subst same
      rw [sets.here, ite_self, if_pos ⟨⟨pp, List.mem_cons_self, rfl⟩, foreign⟩]
    · have ne : pp.keyPair.publicKey ≠ key := fun h => same h.symm
      simp [sets.others key same, ne]

theorem always_removeForeignPeers (listed : List PhysicalPeer) (s : Site) :
    (m.removeForeignPeers iface ps listed).Always Step s fun r t =>
      r = .ok () → Purged m iface ps listed s t := by
  induction listed generalizing s with
  | nil => exact fun _ => Purged.nil
  | cons pp listed ih =>
    rw [Manager.removeForeignPeers]
    by_cases stored : ∃ p ∈ ps, p.identifier = pp.keyPair.publicKey
    · rw [if_pos (by simpa using stored)]
      exact (ih s).mono fun r t purged done => (purged done).keep stored
    · rw [if_neg (by simpa using stored)]
      intro answer t step
      cases answer with
      | error err => exact fun done => by cases done
      | ok _ =>
        have foreign : ∀ p ∈ ps, p.identifier ≠ pp.keyPair.publicKey := by
          intro p hp same
          exact stored ⟨p, hp, same⟩
        rcases step.deletePeer m with ⟨err, failed, _⟩ | ⟨_, sets⟩
        · cases failed
        · exact (ih t).mono fun r u purged done => (purged done).drop foreign sets

/-- The device of an interface, with what restoring it is to leave there. -/
def Final (m : Manager) (iface : Interface) (start t : Site) : Prop :=
  ∃ d, t.devices (m.getController iface) iface.identifier = some d ∧
    ∀ key, d.peers.find key = ((start.db.getInterfacePeers iface.identifier).find?
      (·.identifier = key)).bind (target m iface (peerAt m iface start key))

/-- All stored peers are restored, and the listed others are removed. -/
theorem Purged.final {d : PhysicalDevice}
    (listed : ps = start.db.getInterfacePeers iface.identifier)
    (reached : ∀ p ∈ ps, Reached m iface start s p)
    (device : s.devices (m.getController iface) iface.identifier = some d)
    (purged : Purged m iface ps (d.peers.rows.map (reported (m.getController iface))) s t) :
    Final m iface start t := by
  have present := purged.stays (by rw [device]; rfl)
  obtain ⟨d', device'⟩ := Option.isSome_iff_exists.mp present
  refine ⟨d', device', fun key => ?_⟩
  have after : d'.peers.find key = peerAt m iface t key := by
    rw [peerAt, device', Option.bind_some]
  rw [after, purged.here, ← listed]
  cases found : ps.find? (·.identifier = key) with
  | some p =>
    have hp := List.mem_of_find?_eq_some found
    have key_eq : p.identifier = key := by simpa using List.find?_some found
    have stored : ¬((∃ pp ∈ d.peers.rows.map (reported (m.getController iface)),
        pp.keyPair.publicKey = key) ∧ ∀ p ∈ ps, p.identifier ≠ key) :=
      fun foreign => foreign.2 p hp key_eq
    rw [if_neg stored, ← key_eq, reached p hp, Option.bind_some]
  | none =>
    have foreign : ∀ p ∈ ps, p.identifier ≠ key := by
      intro p hp same
      have missed := List.find?_eq_none.mp found p hp
      simp [same] at missed
    rw [Option.bind_none]
    split
    · rfl
    · rename_i unlisted
      have absent : ∀ pp ∈ d.peers.rows, pp.keyPair.publicKey ≠ key := by
        intro pp hpp same
        exact unlisted ⟨⟨_, List.mem_map_of_mem hpp, same⟩, foreign⟩
      rw [peerAt, device, Option.bind_some]
      exact Table.find_eq_none.mpr absent

theorem Final.alike {iface' : Interface} (final : Final m iface' start t)
    (alike : Alike iface iface') : Final m iface start t := by
  simpa only [Final, alike.getController, alike.identifier, alike.peerAt_eq, alike.target_eq,
    funext (fun before => funext (alike.target_eq (m := m) before))] using final

theorem always_restoreInterface (ui : ContextUserInfo) (updateDbOnError : Bool)
    (own : OwnKeys (start.db.getInterfacePeers iface.identifier)) :
    (m.restoreInterface ui updateDbOnError iface).Always Step start fun r t => r = .ok () →
      Final m iface start t ∧ t.db.peers = start.db.peers ∧
        t.db.peerAddresses = start.db.peerAddresses ∧
        ∀ backend id, id ≠ iface.identifier → t.devices backend id = start.devices backend id := by
  intro answer s₁ step
  cases answer with
  | error err => exact fun done => by cases done
  | ok peers =>
    have listed := step.getInterfacePeers
    rw [← listed] at own
    have nodup : (peers.map Peer.identifier).Nodup := by
      rw [listed]
      exact start.db.nodup_getInterfacePeers iface.identifier
    have loaded : Advance m iface peers start start s₁ :=
      Advance.unchanged Midway.refl (step.same trivial).unchanged
    intro found s₂ step
    have looked := Advance.unchanged loaded.midway (step.same trivial).unchanged
    have prepare : ∀ missing : Bool, (m.restoreStored ui updateDbOnError missing iface).Always
        Step s₂ (Prepared m iface peers start s₂) := by
      intro missing
      cases missing with
      | true => exact always_restoreMissing ui updateDbOnError own listed looked.midway
      | false => exact always_restoreExisting ui updateDbOnError own listed looked.midway
    refine (prepare _).bind fun prepared s₃ ⟨readied, ready⟩ => ?_
    cases prepared with
    | error err => exact fun done => by cases done
    | ok iface' =>
      obtain ⟨alike, present⟩ := ready iface' rfl
      have listed' : peers = start.db.getInterfacePeers iface'.identifier := by
        rw [listed, alike.identifier]
      rw [← alike.getController, ← alike.identifier] at present
      refine (always_restorePeers nodup own (alike.symm.midway readied.midway)
        (List.Subset.refl peers)).bind fun r s₄ ⟨restored, reached⟩ => ?_
      cases r with
      | error err => exact fun done => by cases done
      | ok _ =>
        obtain ⟨d, device⟩ := Option.isSome_iff_exists.mp (restored.stays present)
        intro answer s₅ step
        obtain ⟨rfl, rfl⟩ := step.getPeers device
        refine (always_removeForeignPeers _ _).mono fun r t purged done => ?_
        have purged := purged done
        have midway := alike.midway restored.midway
        refine ⟨(purged.final listed' (reached rfl) device).alike alike, ?_, ?_, ?_⟩
        · rw [purged.db, midway.peers]
        · rw [purged.db, midway.peerAddresses]
        · intro backend id ne
          rw [purged.elsewhere backend id (alike.identifier ▸ ne), midway.elsewhere backend id ne]

/-- The stored peers of all interfaces that were not restored stay as they are. -/
theorem Final.of_agree (peers : s.db.peers = start.db.peers)
    (peerAddresses : s.db.peerAddresses = start.db.peerAddresses)
    (device : ∀ backend, s.devices backend iface.identifier = start.devices backend iface.identifier)
    (final : Final m iface s t) : Final m iface start t := by
  have here : ∀ key, peerAt m iface s key = peerAt m iface start key := by
    intro key
    rw [peerAt, peerAt, device]
  simpa only [Final, Db.getInterfacePeers_congr peers peerAddresses, here] using final

theorem always_restoreInterfaces (ui : ContextUserInfo) (updateDbOnError : Bool)
    {ifaces : List Interface} (nodup : (ifaces.map Interface.identifier).Nodup)
    (own : ∀ id, OwnKeys (start.db.getInterfacePeers id)) :
    (m.restoreInterfaces ui updateDbOnError ifaces).Always Step start fun r t => r = .ok () →
      (∀ iface ∈ ifaces, Final m iface start t) ∧
        ∀ backend id, id ∉ ifaces.map Interface.identifier →
          t.devices backend id = start.devices backend id := by
  induction ifaces generalizing start with
  | nil => exact fun _ => ⟨fun _ none => by simp at none, fun _ _ _ => rfl⟩
  | cons iface ifaces ih =>
    rw [List.map_cons, List.nodup_cons] at nodup
    refine (always_restoreInterface ui updateDbOnError (own iface.identifier)).bind
      fun r s restored => ?_
    cases r with
    | error err => exact fun done => by cases done
    | ok _ =>
      obtain ⟨final, peers, peerAddresses, elsewhere⟩ := restored rfl
      have own' : ∀ id, OwnKeys (s.db.getInterfacePeers id) := by
        intro id
        rw [Db.getInterfacePeers_congr peers peerAddresses]
        exact own id
      refine (ih nodup.2 own').mono fun r t rest done => ?_
      obtain ⟨finals, others⟩ := rest done
      refine ⟨fun other mem => ?_, fun backend id fresh => ?_⟩
      · rcases List.mem_cons.mp mem with rfl | mem
        · obtain ⟨d, device, found⟩ := final
          exact ⟨d, (others _ _ nodup.1).trans device, found⟩
        · have ne : other.identifier ≠ iface.identifier := by
            intro same
            exact nodup.1 (same ▸ List.mem_map_of_mem mem)
          exact (finals other mem).of_agree peers peerAddresses fun backend =>
            elsewhere backend _ ne
      · rw [List.map_cons, List.mem_cons, not_or] at fresh
        rw [others backend id fresh.2, elsewhere backend id fresh.1]

/-- The device holds exactly the stored peers that are enabled, each merged into
what was there before. -/
def HoldsStored (m : Manager) (iface : Interface) (before after : Site) : Prop :=
  ∃ d, after.devices (m.getController iface) iface.identifier = some d ∧
    ∀ key, d.peers.find key = ((before.db.getInterfacePeers iface.identifier).find?
      (·.identifier = key)).bind (restoredPeer m iface (peerAt m iface before key))

def HoldsNone (m : Manager) (iface : Interface) (after : Site) : Prop :=
  ∀ d, after.devices (m.getController iface) iface.identifier = some d → d.peers.rows = []

structure Restored (m : Manager) (ifaces : List Interface) (before after : Site) : Prop where
  enabled : ∀ iface ∈ ifaces, iface.isDisabled = false → HoldsStored m iface before after
  disabled : ∀ iface ∈ ifaces, iface.isDisabled = true →
    iface.backend = "" ∨ iface.backend = localBackendName → HoldsNone m iface after

theorem run_restore (ui : ContextUserInfo) (updateDbOnError : Bool)
    (filter : List InterfaceIdentifier) {circumstances : ℕ → SiteCircumstance}
    (listed : ∀ n, (circumstances n).unlisted = none) {site : Site}
    (own : ∀ id, OwnKeys (site.db.getInterfacePeers id))
    (done : (restore m ui updateDbOnError filter circumstances site).1 = .ok ()) :
    ∀ iface ∈ Manager.selected filter site.db.getAllInterfaces,
      Final m iface site (restore m ui updateDbOnError filter circumstances site).2 := by
  have steps : ∀ (op : InterfaceOp) (s : ℕ × Site), Step op s.2 (siteTurn circumstances op s).1
      (siteTurn circumstances op s).2.2 := fun op s => ⟨circumstances s.1, listed s.1, rfl⟩
  have always : (m.restoreInterfaceState ui updateDbOnError filter).Always Step site fun r t =>
      r = .ok () → ∀ iface ∈ Manager.selected filter site.db.getAllInterfaces,
        Final m iface site t := by
    rw [Manager.restoreInterfaceState]
    cases validateAdminAccessRights ui with
    | error err => exact fun done => by cases done
    | ok _ =>
      intro answer s step
      cases answer with
      | error err => exact fun done => by cases done
      | ok interfaces =>
        have same := step.same trivial
        have all : interfaces = site.db.interfaces.rows := step.getAllInterfaces
        have nodup : ((Manager.selected filter interfaces).map Interface.identifier).Nodup := by
          rw [all]
          exact site.db.interfaces.nodup.sublist (List.filter_sublist.map _)
        have own' : ∀ id, OwnKeys (s.db.getInterfacePeers id) := by
          intro id
          rw [Db.getInterfacePeers_congr same.peers same.peerAddresses]
          exact own id
        refine (always_restoreInterfaces ui updateDbOnError nodup own').mono ?_
        intro r t restored done iface mem
        rw [Db.getAllInterfaces, ← all] at mem
        refine ((restored done).1 iface mem).of_agree same.peers same.peerAddresses ?_
        intro backend
        rw [same.devices]
  exact Program.Always.eval (t := (0, site)) steps always done

theorem Final.holdsStored (enabled : iface.isDisabled = false) (final : Final m iface s t) :
    HoldsStored m iface s t := by
  obtain ⟨d, device, found⟩ := final
  have kept : ∀ before p, target m iface before p = restoredPeer m iface before p := by
    intro before p
    rw [target, if_neg (by simp [enabled])]
  refine ⟨d, device, fun key => ?_⟩
  rw [found key]
  exact congrArg _ (funext (kept _))

theorem Final.holdsNone_iff (disabled : iface.isDisabled = true)
    (here : iface.backend = "" ∨ iface.backend = localBackendName) (final : Final m iface s t) :
    HoldsNone m iface t ↔ (iface.backend = "" →
      ∀ p ∈ s.db.getInterfacePeers iface.identifier, p.isDisabled = true) := by
  obtain ⟨d, device, found⟩ := final
  have empty : HoldsNone m iface t ↔ ∀ key, d.peers.find key = none := by
    constructor
    · intro none key
      exact Table.find_eq_none.mpr fun row hrow => by simp [none d device] at hrow
    · intro none d' device'
      rw [device, Option.some.injEq] at device'
      subst device'
      exact List.eq_nil_iff_forall_not_mem.mpr fun row hrow =>
        Table.find_eq_none.mp (none row.keyPair.publicKey) row hrow rfl
  have ne : "" ≠ localBackendName := by decide
  rw [empty]
  constructor
  · intro none unnamed p hp
    have kept : ¬(iface.isDisabled = true ∧ iface.backend = localBackendName) := by
      rw [unnamed]
      exact fun h => ne h.2
    have first : (s.db.getInterfacePeers iface.identifier).find?
        (·.identifier = p.identifier) = some p := by
      exact Table.find_of_mem (t := ⟨_, s.db.nodup_getInterfacePeers iface.identifier⟩) hp
    have gone := (found p.identifier).symm.trans (none p.identifier)
    rw [first, Option.bind_some, target, if_neg kept, restoredPeer] at gone
    by_contra enabled
    simp [enabled] at gone
  · intro off key
    rw [found key, Option.bind_eq_none_iff]
    intro p hp
    rcases here with unnamed | local_
    · have offline := off unnamed p (List.mem_of_find?_eq_some hp)
      simp [target, restoredPeer, offline]
    · rw [target, if_pos ⟨disabled, local_⟩]

/-- Success leaves every interface as stored, exactly if the disabled ones
without a backend have no enabled peers. -/
theorem restored_iff (m : Manager) (ui : ContextUserInfo) (updateDbOnError : Bool)
    (filter : List InterfaceIdentifier) (circumstances : ℕ → SiteCircumstance)
    (listed : ∀ n, (circumstances n).unlisted = none) (site : Site)
    (own : ∀ p ∈ site.db.peers.rows, p.interface.keyPair.publicKey = p.identifier)
    (done : (restore m ui updateDbOnError filter circumstances site).1 = .ok ()) :
    Restored m (Manager.selected filter site.db.getAllInterfaces) site
        (restore m ui updateDbOnError filter circumstances site).2 ↔
      ∀ iface ∈ Manager.selected filter site.db.getAllInterfaces, iface.isDisabled = true →
        iface.backend = "" → ∀ p ∈ site.db.getInterfacePeers iface.identifier,
          p.isDisabled = true := by
  have ownKeys : ∀ id, OwnKeys (site.db.getInterfacePeers id) := by
    intro id p hp
    obtain ⟨row, hrow, rfl⟩ := List.mem_map.mp hp
    exact own row (List.mem_filter.mp hrow).1
  have final := run_restore ui updateDbOnError filter listed ownKeys done
  constructor
  · intro restored iface mem disabled unnamed
    exact ((final iface mem).holdsNone_iff disabled (.inl unnamed)).mp
      (restored.disabled iface mem disabled (.inl unnamed)) unnamed
  · intro off
    refine ⟨fun iface mem enabled => (final iface mem).holdsStored enabled, ?_⟩
    intro iface mem disabled here
    exact ((final iface mem).holdsNone_iff disabled here).mpr (off iface mem disabled)

def wg0 (backend : InterfaceBackend) : Interface :=
  { Interface.zero with identifier := "wg0", backend := backend, disabled := some 7 }

def wg0Peer : Peer :=
  { Peer.zero with
    identifier := "k1"
    interfaceIdentifier := "wg0"
    interface := { Peer.zero.interface with keyPair := ⟨"", "k1"⟩ } }

/-- A disabled interface with an enabled peer, and no device yet. -/
def disabledSite (backend : InterfaceBackend) : Site where
  db :=
    { Db.empty with
      interfaces := ⟨[wg0 backend], List.nodup_singleton _⟩
      peers := ⟨[wg0Peer], List.nodup_singleton _⟩ }
  devices := fun _ _ => none
  events := []

def restoreSample (backend : InterfaceBackend) : Except Error Unit × Site :=
  restore singleNode systemAdminContextUserInfo true [] (fun _ => calmSite)
    (disabledSite backend)

/-- With the local backend by name, the device is emptied. -/
theorem local_restored :
    Restored singleNode [wg0 localBackendName] (disabledSite localBackendName)
      (restoreSample localBackendName).2 := by
  have done : (restoreSample localBackendName).1 = .ok () := by decide +kernel
  have own : ∀ p ∈ (disabledSite localBackendName).db.peers.rows,
      p.interface.keyPair.publicKey = p.identifier := by decide +kernel
  refine (restored_iff singleNode systemAdminContextUserInfo true [] (fun _ => calmSite)
    (fun _ => rfl) (disabledSite localBackendName) own done).mpr ?_
  decide +kernel

/-- Without a backend, the local one serves the interface too, and gets the peer. -/
theorem unnamed_not_restored : (restoreSample "").1 = .ok () ∧
    ¬ Restored singleNode [wg0 ""] (disabledSite "") (restoreSample "").2 := by
  have held : ∃ d, (restoreSample "").2.devices localBackendName "wg0" = some d ∧
      d.peers.rows ≠ [] := by
    refine ⟨_, rfl, ?_⟩
    decide +kernel
  refine ⟨by decide +kernel, fun restored => ?_⟩
  obtain ⟨d, device, some_⟩ := held
  exact some_ (restored.disabled (wg0 "") (List.mem_singleton_self _) rfl (.inl rfl) d device)

end WgPortal.WireGuard.RestoreDevices
