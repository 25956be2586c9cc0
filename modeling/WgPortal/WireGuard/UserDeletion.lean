import WgPortal.WireGuard.Sync
import WgPortal.WireGuard.UserEvents

/-! What becomes of the peers of a user who is deleted. -/

namespace WgPortal.WireGuard

open Domain Library Adapters App Config WgController PeerSteps
open ManagerProgram (issue)

variable {w : Wgtypes} {client : Client w} {can : Conditions w}

/-- No peer refers to the user any more, and unless they are deleted, the former peers are
stored without an owner and disabled. -/
structure LeavesNoPeer (m : Manager) (user : User) (db db' : Db) : Prop where
  unowned : ∀ q ∈ storedPeers db', q.userIdentifier ≠ user.identifier
  disabled : m.cfg.core.deletePeerAfterUserDeleted = false →
    ∀ p ∈ db.getUserPeers user.identifier, ∃ q ∈ storedPeers db',
      q.interface.keyPair = p.interface.keyPair ∧ q.isDisabled = true ∧ q.userIdentifier = ""

/-- What a round of the handler leaves in place of a peer. -/
def Left (m : Manager) (p : Peer) (news : Set Peer) : Prop :=
  if p.isDisabled then news = {p}
  else if m.cfg.core.deletePeerAfterUserDeleted then news = ∅
  else ∃ deletionTime, Rewrites (Manager.orphaned deletionTime p) news

theorem always_handleUserDeletedEvent (m : Manager) (user : User) (read : ∀ s, ¬ Misread can s)
    (s : World w) : (m.handleUserDeletedEvent user).Always (Turn client can) s fun errs t =>
      errs = [] → ∃ news, (∀ p ∈ s.db.getUserPeers user.identifier, Left m p (news p)) ∧
        AllReplaced (s.db.getUserPeers user.identifier) news s.db t.db := by
  unfold Manager.handleUserDeletedEvent
  refine Program.always_perform_bind.mpr fun answer t turn => ?_
  rcases turn.repo with ⟨err, rfl, rfl, fails⟩ | ⟨now, rfl, rfl⟩
  · exact fun none => by cases none
  · intro deletionTime u clock
    have same : u.db = s.db := (clock.reading trivial).db
    rw [← same]
    refine always_forEach (fun p v stored => ?_) _ (nodup_getUserPeers u.db _) u
      fun p listed => (mem_getUserPeers.mp listed).1
    unfold Left
    split
    · exact fun _ => ⟨{p}, rfl, .self stored⟩
    · split
      · exact (always_deletePeer_replaced m v stored).mono
          fun errs t deleted none => ⟨∅, rfl, deleted none⟩
      · have updating := @always_updatePeer_replaced w client can m p
          (Manager.orphaned deletionTime p) v (read v) stored rfl
        refine updating.mono fun errs t updated none => ?_
        obtain ⟨news, rewrites, replaced⟩ := updated none
        exact ⟨news, ⟨deletionTime, rewrites⟩, replaced⟩

theorem leavesNoPeer_iff {m : Manager} {user : User} {db db' : Db} {news : Peer → Set Peer}
    (named : user.identifier ≠ "")
    (left : ∀ p ∈ db.getUserPeers user.identifier, Left m p (news p))
    (replaced : AllReplaced (db.getUserPeers user.identifier) news db db') :
    LeavesNoPeer m user db db' ↔ ∀ p ∈ db.getUserPeers user.identifier, p.isDisabled = false := by
  constructor
  · intro leaves p listed
    by_contra disabled
    have kept := left p listed
    rw [Left, if_pos (by simpa using disabled)] at kept
    have still : p ∈ storedPeers db' :=
      (replaced p).mpr (.inr ⟨p, listed, kept ▸ Set.mem_singleton p⟩)
    exact leaves.unowned p still (mem_getUserPeers.mp listed).2
  · intro enabled
    refine ⟨fun q stored own => ?_, fun keep p listed => ?_⟩
    · rcases (replaced q).mp stored with ⟨before, unlisted⟩ | ⟨p, listed, new⟩
      · exact unlisted (mem_getUserPeers.mpr ⟨before, own⟩)
      · have became := left p listed
        rw [Left, if_neg (by simp [enabled p listed])] at became
        split at became
        · rw [became] at new
          exact Set.notMem_empty q new
        · obtain ⟨deletionTime, base, addresses, rewritten⟩ := became
          rw [rewritten] at new
          have orphan : q.userIdentifier = "" := congrArg Peer.userIdentifier new
          exact named (own.symm.trans orphan)
    · have became := left p listed
      rw [Left, if_neg (by simp [enabled p listed]), if_neg (by simp [keep])] at became
      obtain ⟨deletionTime, base, addresses, rewritten⟩ := became
      let orphan : Peer := loadAddresses
        { Manager.orphaned deletionTime p with
          identifier := p.interface.keyPair.publicKey, base := base } addresses
      refine ⟨orphan, (replaced orphan).mpr (.inr ⟨p, listed, ?_⟩), rfl, rfl, rfl⟩
      rw [rewritten]
      exact Set.mem_singleton orphan

/-- A deleted user leaves no peer behind, if and only if none was disabled before. -/
theorem handleUserDeletedEvent_leavesNoPeer_iff (m : Manager) (client : Client w)
    (circumstances : ℕ → Circumstance)
    (legible : ∀ n err, (circumstances n).fault = some err → err.is .notFound = false)
    (user : User) (named : user.identifier ≠ "") (s : World w)
    (quiet : ((m.handleUserDeletedEvent user).run client circumstances s).1 = []) :
    LeavesNoPeer m user s.db ((m.handleUserDeletedEvent user).run client circumstances s).2.db ↔
      ∀ p ∈ s.db.getUserPeers user.identifier, p.isDisabled = false := by
  let can : Conditions w := fun _ _ c => ∀ err, c.fault = some err → err.is .notFound = false
  have read : ∀ s, ¬ Misread can s := not_misread_of_legible fun _ _ _ err legible => legible err
  obtain ⟨news, left, replaced⟩ := run_of_always (fun _ _ n => legible n)
    (@always_handleUserDeletedEvent w client can m user read s) quiet
  exact leavesNoPeer_iff named left replaced

def bob : User := { User.zero with identifier := "bob", source := .database }

/-- One peer of the user, which may be disabled -/
def bobsPeer (disabled : Option Time) : World plainTypes :=
  oneInterface Device.empty [{ enabledPeer key with userIdentifier := "bob", disabled := disabled }]

/-- An enabled peer is left without its owner. -/
theorem enabledPeer_orphaned : LeavesNoPeer singleNode bob (bobsPeer none).db
    ((singleNode.handleUserDeletedEvent bob).run (plainClient plainTypes) calm
      (bobsPeer none)).2.db :=
  (handleUserDeletedEvent_leavesNoPeer_iff singleNode (plainClient plainTypes) calm
    (fun _ _ fault => by cases fault) bob (by decide) (bobsPeer none)
    (by decide +kernel)).mpr (by decide +kernel)

def deletingNode : Manager :=
  { singleNode with cfg := { masterConfig with
    core := { masterConfig.core with deletePeerAfterUserDeleted := true } } }

/-- A peer that was disabled before still belongs to the user, whatever is configured. -/
theorem disabledPeer_owned :
    ((singleNode.handleUserDeletedEvent bob).run (plainClient plainTypes) calm
      (bobsPeer (some 5))).1 = [] ∧
    ¬ LeavesNoPeer singleNode bob (bobsPeer (some 5)).db
      ((singleNode.handleUserDeletedEvent bob).run (plainClient plainTypes) calm
        (bobsPeer (some 5))).2.db ∧
    ((deletingNode.handleUserDeletedEvent bob).run (plainClient plainTypes) calm
      (bobsPeer (some 5))).1 = [] ∧
    ¬ LeavesNoPeer deletingNode bob (bobsPeer (some 5)).db
      ((deletingNode.handleUserDeletedEvent bob).run (plainClient plainTypes) calm
        (bobsPeer (some 5))).2.db := by
  have owned : ∀ {db : Db}, (db.peer key).map Peer.userIdentifier = some "bob" →
      ∃ q ∈ storedPeers db, q.userIdentifier = "bob" := by
    intro db own
    obtain ⟨q, stored, own⟩ := Option.map_eq_some_iff.mp own
    refine ⟨q, ?_, own⟩
    rw [← Db.identifier_of_peer stored] at stored
    exact stored
  refine ⟨by decide +kernel, fun leaves => ?_, by decide +kernel, fun leaves => ?_⟩
  · obtain ⟨q, stored, own⟩ := @owned ((singleNode.handleUserDeletedEvent bob).run
      (plainClient plainTypes) calm (bobsPeer (some 5))).2.db (by decide +kernel)
    exact leaves.unowned q stored own
  · obtain ⟨q, stored, own⟩ := @owned ((deletingNode.handleUserDeletedEvent bob).run
      (plainClient plainTypes) calm (bobsPeer (some 5))).2.db (by decide +kernel)
    exact leaves.unowned q stored own

end WgPortal.WireGuard
