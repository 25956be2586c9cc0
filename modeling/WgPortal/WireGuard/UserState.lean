import WgPortal.WireGuard.Sync
import WgPortal.WireGuard.UserEvents

/-! Whether the peers of a user follow the user, in whatever order the events about its state
are handled. -/

namespace WgPortal.WireGuard

open Domain Library Adapters App Config WgController PeerSteps
open ManagerProgram (issue)

/-- What `UpdateUser` publishes when this user takes the place of the existing one. -/
def announced (existingUser user : User) : List UserEvent :=
  if !existingUser.isDisabled && user.isDisabled then [.userDisabled user]
  else if existingUser.isDisabled && !user.isDisabled then [.userEnabled user]
  else []

/-- What is published as the records of a user take each other's place. -/
def announcements : User → List User → List UserEvent
  | _, [] => []
  | existingUser, user :: later => announced existingUser user ++ announcements user later

def Manager.handle (m : Manager) : UserEvent → ManagerProgram (List Error)
  | .userDisabled user => m.handleUserDisabledEvent user
  | .userEnabled user => m.handleUserEnabledEvent user
  | .userDeleted user => m.handleUserDeletedEvent user
  | _ => return []

/-- An event that is handled, under its own circumstances. -/
structure Handling where
  event : UserEvent
  circumstances : ℕ → Circumstance

variable {w : Wgtypes} {client : Client w} {can : Conditions w} {id : UserIdentifier}
  {db db' db'' : Db}

/-- The events are handled one after the other; what is logged comes first. -/
def Manager.handleAll (m : Manager) (client : Client w) :
    List Handling → World w → List Error × World w
  | [], s => ([], s)
  | handling :: handlings, s =>
    let (errs, t) := (m.handle handling.event).run client handling.circumstances s
    let (rest, u) := m.handleAll client handlings t
    (errs ++ rest, u)

/-- Disabled with the user -/
def Suspended (p : Peer) : Prop :=
  p.isDisabled = true ∧ p.disabledReason = disabledReasonUserDisabled

/-- Disabled for another reason -/
def DisabledOtherwise (p : Peer) : Prop :=
  p.isDisabled = true ∧ p.disabledReason ≠ disabledReasonUserDisabled

instance (p : Peer) : Decidable (Suspended p) := inferInstanceAs (Decidable (_ ∧ _))

instance (p : Peer) : Decidable (DisabledOtherwise p) := inferInstanceAs (Decidable (_ ∧ _))

/-- No peer is left disabled with the user, and those disabled for another reason still are. -/
structure Settled (id : UserIdentifier) (db db' : Db) : Prop where
  clean : ∀ q ∈ db'.getUserPeers id, ¬ Suspended q
  kept : ∀ p ∈ db.getUserPeers id, DisabledOtherwise p → ∃ q ∈ db'.getUserPeers id,
    q.identifier = p.identifier ∧ q.isDisabled = true ∧ q.disabledReason = p.disabledReason

/-- The peer `q` in place of `p` is as the user, who is enabled or not. -/
def Follows (enabled : Bool) (p q : Peer) : Prop :=
  if DisabledOtherwise p then q = p
  else if enabled then q.isDisabled = false
  else Suspended q

/-- The peers of the user, old and new, correspond. -/
structure Following (enabled : Bool) (id : UserIdentifier) (db db' : Db) : Prop where
  forward : ∀ p ∈ db.getUserPeers id, ∃ q ∈ db'.getUserPeers id, Follows enabled p q
  back : ∀ q ∈ db'.getUserPeers id, ∃ p ∈ db.getUserPeers id, Follows enabled p q

theorem Follows.otherwise_iff {enabled : Bool} {p q : Peer} (follows : Follows enabled p q) :
    DisabledOtherwise q ↔ DisabledOtherwise p := by
  unfold Follows at follows
  split at follows
  · rw [follows]
  · rename_i not
    refine iff_of_false (fun other => ?_) not
    split at follows
    · rw [other.1] at follows
      cases follows
    · exact other.2 follows.2

theorem Follows.trans {first second : Bool} {p q r : Peer} (before : Follows first p q)
    (after : Follows second q r) : Follows second p r := by
  have same := before.otherwise_iff
  unfold Follows at before after ⊢
  by_cases other : DisabledOtherwise p
  · rw [if_pos other] at before ⊢
    rw [if_pos (before ▸ other)] at after
    exact after.trans before
  · rw [if_neg other]
    rwa [if_neg (mt same.mp other)] at after

theorem Following.trans {first second : Bool} (before : Following first id db db')
    (after : Following second id db' db'') : Following second id db db'' := by
  constructor
  · intro p listed
    obtain ⟨q, listed', follows⟩ := before.forward p listed
    obtain ⟨r, listed'', follows'⟩ := after.forward q listed'
    exact ⟨r, listed'', follows.trans follows'⟩
  · intro r listed''
    obtain ⟨q, listed', follows'⟩ := after.back r listed''
    obtain ⟨p, listed, follows⟩ := before.back q listed'
    exact ⟨p, listed, follows.trans follows'⟩

/-- A round leaves one peer of the same user in the place of `p`. -/
def Leaves (enabled : Bool) (p : Peer) (news : Set Peer) : Prop :=
  ∃ q, news = {q} ∧ q.userIdentifier = p.userIdentifier ∧ Follows enabled p q

theorem following_of_replaced {enabled : Bool} {news : Peer → Set Peer}
    (became : ∀ p ∈ db.getUserPeers id, Leaves enabled p (news p))
    (replaced : AllReplaced (db.getUserPeers id) news db db') : Following enabled id db db' := by
  constructor
  · intro p listed
    obtain ⟨q, new, owned, follows⟩ := became p listed
    refine ⟨q, mem_getUserPeers.mpr ⟨(replaced q).mpr (.inr ⟨p, listed, ?_⟩), ?_⟩, follows⟩
    · rw [new]
      exact Set.mem_singleton q
    · exact owned.trans (mem_getUserPeers.mp listed).2
  · intro q listed
    obtain ⟨stored, own⟩ := mem_getUserPeers.mp listed
    rcases (replaced q).mp stored with ⟨before, unlisted⟩ | ⟨p, listed', new⟩
    · exact absurd (mem_getUserPeers.mpr ⟨before, own⟩) unlisted
    · obtain ⟨q', new', _, follows⟩ := became p listed'
      rw [new'] at new
      exact ⟨p, listed', new ▸ follows⟩

section Handlers

variable (m : Manager) (read : ∀ s, ¬ Misread can s) {user : User} (s : World w)
include read

theorem always_handleUserDisabledEvent (disabled : user.isDisabled = true) :
    (m.handleUserDisabledEvent user).Always (Turn client can) s fun errs t =>
      errs = [] → Following false user.identifier s.db t.db := by
  refine (@always_forUserPeers w client can _ (Leaves false) (fun p u stored => ?_) user s).mono
    fun errs t loop none => ?_
  · unfold Leaves Follows
    split
    · rename_i already
      refine fun _ => ⟨{p}, ⟨p, rfl, rfl, ?_⟩, .self stored⟩
      split
      · rfl
      · rename_i not
        exact ⟨already, not_not.mp fun other => not ⟨already, other⟩⟩
    · rename_i active
      have updating := @always_updatePeer_replaced w client can m p (Manager.disabledWith user p) u
        (read u) stored rfl
      refine updating.mono fun errs t updated none => ?_
      obtain ⟨news, ⟨base, addresses, rewritten⟩, replaced⟩ := updated none
      refine ⟨news, ⟨_, rewritten, rfl, ?_⟩, replaced⟩
      rw [if_neg fun other => active other.1]
      exact ⟨disabled, rfl⟩
  · obtain ⟨news, became, replaced⟩ := loop none
    exact following_of_replaced became replaced

theorem always_handleUserEnabledEvent
    (reEnable : m.cfg.core.reEnablePeerAfterUserEnable = true) :
    (m.handleUserEnabledEvent user).Always (Turn client can) s fun errs t =>
      errs = [] → Following true user.identifier s.db t.db := by
  unfold Manager.handleUserEnabledEvent
  rw [reEnable]
  refine (@always_forUserPeers w client can _ (Leaves true) (fun p u stored => ?_) user s).mono
    fun errs t loop none => ?_
  · unfold Leaves Follows
    split
    · rename_i active
      have active : p.isDisabled = false := by simpa using active
      refine fun _ => ⟨{p}, ⟨p, rfl, rfl, ?_⟩, .self stored⟩
      split
      · rfl
      · exact active
    · rename_i disabled
      have disabled : p.isDisabled = true := by simpa using disabled
      split
      · rename_i other
        refine fun _ => ⟨{p}, ⟨p, rfl, rfl, ?_⟩, .self stored⟩
        rw [if_pos ⟨disabled, other⟩]
      · rename_i suspended
        have updating := @always_updatePeer_replaced w client can m p (Manager.enabled p) u
          (read u) stored rfl
        refine updating.mono fun errs t updated none => ?_
        obtain ⟨news, ⟨base, addresses, rewritten⟩, replaced⟩ := updated none
        refine ⟨news, ⟨_, rewritten, rfl, ?_⟩, replaced⟩
        rw [if_neg fun other => suspended other.2]
        rfl
  · obtain ⟨news, became, replaced⟩ := loop none
    exact following_of_replaced became replaced

end Handlers

/-- Whether the event is that the user was enabled. -/
def enables : UserEvent → Bool
  | .userEnabled _ => true
  | _ => false

/-- An event about the state of the user -/
def OfUser (id : UserIdentifier) : UserEvent → Prop
  | .userDisabled user => user.identifier = id ∧ user.isDisabled = true
  | .userEnabled user => user.identifier = id
  | _ => False

theorem announced_ofUser {existingUser user : User} (named : user.identifier = id)
    {event : UserEvent} (listed : event ∈ announced existingUser user) : OfUser id event := by
  unfold announced at listed
  split at listed
  · rename_i disabled
    rw [List.mem_singleton.mp listed]
    exact ⟨named, (Bool.and_eq_true_iff.mp disabled).2⟩
  · split at listed
    · rw [List.mem_singleton.mp listed]
      exact named
    · cases listed

theorem announcements_ofUser {user : User} {later : List User}
    (named : ∀ u ∈ later, u.identifier = id) {event : UserEvent}
    (listed : event ∈ announcements user later) : OfUser id event := by
  induction later generalizing user with
  | nil => cases listed
  | cons next later ih =>
    rcases List.mem_append.mp listed with here | there
    · exact announced_ofUser (named next List.mem_cons_self) here
    · exact ih (fun u listed => named u (List.mem_cons_of_mem next listed)) there

theorem handle_following {m : Manager}
    (reEnable : m.cfg.core.reEnablePeerAfterUserEnable = true) (handling : Handling)
    (legible : ∀ n err, (handling.circumstances n).fault = some err → err.is .notFound = false)
    (ofUser : OfUser id handling.event) (s : World w)
    (quiet : ((m.handle handling.event).run client handling.circumstances s).1 = []) :
    Following (enables handling.event) id s.db
      ((m.handle handling.event).run client handling.circumstances s).2.db := by
  let can : Conditions w := fun _ _ c => ∀ err, c.fault = some err → err.is .notFound = false
  have read : ∀ s, ¬ Misread can s := not_misread_of_legible fun _ _ _ err legible => legible err
  obtain ⟨event, circumstances⟩ := handling
  cases event with
  | userDisabled user =>
    obtain ⟨rfl, disabled⟩ := ofUser
    exact run_of_always (fun _ _ n => legible n)
      (@always_handleUserDisabledEvent w client can m read user s disabled) quiet
  | userEnabled user =>
    obtain rfl : user.identifier = id := ofUser
    exact run_of_always (fun _ _ n => legible n)
      (@always_handleUserEnabledEvent w client can m read user s reEnable) quiet
  | _ => exact False.elim ofUser

/-- After the last of the events, the peers are as it says. -/
theorem handleAll_following {m : Manager}
    (reEnable : m.cfg.core.reEnablePeerAfterUserEnable = true) {handlings : List Handling}
    {last : Handling} (ends : handlings.getLast? = some last)
    (legible : ∀ h ∈ handlings, ∀ n err, (h.circumstances n).fault = some err →
      err.is .notFound = false)
    (ofUser : ∀ h ∈ handlings, OfUser id h.event) (s : World w)
    (quiet : (m.handleAll client handlings s).1 = []) :
    Following (enables last.event) id s.db (m.handleAll client handlings s).2.db := by
  induction handlings generalizing s with
  | nil => cases ends
  | cons handling handlings ih =>
    unfold Manager.handleAll at quiet ⊢
    have ⟨first, rest⟩ := List.append_eq_nil_iff.mp quiet
    have following := handle_following reEnable handling (legible handling List.mem_cons_self)
      (ofUser handling List.mem_cons_self) s first
    cases handlings with
    | nil =>
      obtain rfl : handling = last := Option.some.inj ends
      exact following
    | cons next handlings =>
      rw [List.getLast?_cons_cons] at ends
      exact following.trans (ih ends (fun h listed => legible h (List.mem_cons_of_mem _ listed))
        (fun h listed => ofUser h (List.mem_cons_of_mem _ listed)) _ rest)

/-- Which order of the events lets the peers of an enabled user be enabled. -/
def EndsWell (id : UserIdentifier) (db : Db) (events : List UserEvent) : Prop :=
  match events.getLast? with
  | none => ∀ p ∈ db.getUserPeers id, ¬ Suspended p
  | some event => enables event = true ∨ ∀ p ∈ db.getUserPeers id, DisabledOtherwise p

theorem settled_iff_of_following {enabled : Bool} (following : Following enabled id db db') :
    Settled id db db' ↔ enabled = true ∨ ∀ p ∈ db.getUserPeers id, DisabledOtherwise p := by
  have kept : ∀ p ∈ db.getUserPeers id, DisabledOtherwise p → ∃ q ∈ db'.getUserPeers id,
      q.identifier = p.identifier ∧ q.isDisabled = true ∧ q.disabledReason = p.disabledReason := by
    intro p listed other
    obtain ⟨q, listed', follows⟩ := following.forward p listed
    rw [Follows, if_pos other] at follows
    exact ⟨q, listed', congrArg _ follows, follows ▸ other.1, congrArg _ follows⟩
  constructor
  · intro settled
    cases enabled with
    | true => exact .inl rfl
    | false =>
      refine .inr fun p listed => ?_
      obtain ⟨q, listed', follows⟩ := following.forward p listed
      by_contra not
      rw [Follows, if_neg not, if_neg Bool.false_ne_true] at follows
      exact settled.clean q listed' follows
  · intro ends
    refine ⟨fun q listed' suspended => ?_, kept⟩
    obtain ⟨p, listed, follows⟩ := following.back q listed'
    have not : ¬ DisabledOtherwise p :=
      fun other => (follows.otherwise_iff.mpr other).2 suspended.2
    have enabled := ends.resolve_right fun all => not (all p listed)
    rw [Follows, if_neg not, if_pos enabled] at follows
    rw [suspended.1] at follows
    cases follows

/-- Once all events about a user are handled, no peer is left disabled, if and only if the
event that the user was enabled is handled last, or there is no peer to disable. -/
theorem handleAll_settled_iff (m : Manager)
    (reEnable : m.cfg.core.reEnablePeerAfterUserEnable = true) (client : Client w) (user : User)
    (later : List User) (named : ∀ u ∈ later, u.identifier = user.identifier)
    (handlings : List Handling)
    (order : (handlings.map Handling.event).Perm (announcements user later))
    (legible : ∀ h ∈ handlings, ∀ n err, (h.circumstances n).fault = some err →
      err.is .notFound = false)
    (s : World w) (quiet : (m.handleAll client handlings s).1 = []) :
    Settled user.identifier s.db (m.handleAll client handlings s).2.db ↔
      EndsWell user.identifier s.db (handlings.map Handling.event) := by
  have ofUser : ∀ h ∈ handlings, OfUser user.identifier h.event := fun h listed =>
    announcements_ofUser named (order.mem_iff.mp (List.mem_map_of_mem listed))
  rw [EndsWell, List.getLast?_map]
  cases ends : handlings.getLast? with
  | none =>
    obtain rfl : handlings = [] := List.getLast?_eq_none_iff.mp ends
    exact ⟨fun settled => settled.clean,
      fun clean => ⟨clean, fun p listed other => ⟨p, listed, rfl, other.1, rfl⟩⟩⟩
  | some last =>
    exact settled_iff_of_following (handleAll_following reEnable ends legible ofUser s quiet)

/-- A user who is disabled or not, and the peer of this user. -/
def carol (disabled : Option Time) : User :=
  { User.zero with identifier := "carol", source := .database, disabled := disabled }

def carolsPeer : World plainTypes :=
  oneInterface Device.empty [{ enabledPeer key with userIdentifier := "carol" }]

def carolDisabled : Handling := ⟨.userDisabled (carol (some 5)), calm⟩

def carolEnabled : Handling := ⟨.userEnabled (carol none), calm⟩

theorem inOrder_settled : Settled "carol" carolsPeer.db
    (singleNode.handleAll (plainClient plainTypes) [carolDisabled, carolEnabled] carolsPeer).2.db :=
  (handleAll_settled_iff singleNode rfl (plainClient plainTypes) (carol none)
    [carol (some 5), carol none] (by decide) [carolDisabled, carolEnabled] (List.Perm.refl _)
    (fun h listed n err fault => by
      have calm : h.circumstances = calm := by
        rcases List.mem_pair.mp listed with rfl | rfl <;> rfl
      rw [calm] at fault
      cases fault)
    carolsPeer (by decide +kernel)).mpr (.inl rfl)

/-- The user is enabled again, but that event is handled first. -/
theorem overtaken_not_settled :
    ([carolEnabled, carolDisabled].map Handling.event).Perm
      (announcements (carol none) [carol (some 5), carol none]) ∧
    (singleNode.handleAll (plainClient plainTypes) [carolEnabled, carolDisabled]
      carolsPeer).1 = [] ∧
    ¬ Settled "carol" carolsPeer.db (singleNode.handleAll (plainClient plainTypes)
      [carolEnabled, carolDisabled] carolsPeer).2.db := by
  refine ⟨List.Perm.swap _ _ [], by decide +kernel, fun settled => ?_⟩
  have left : ((singleNode.handleAll (plainClient plainTypes) [carolEnabled, carolDisabled]
      carolsPeer).2.db.getUserPeers "carol").any fun q => Suspended q := by decide +kernel
  obtain ⟨q, listed, suspended⟩ := List.any_eq_true.mp left
  exact settled.clean q listed (of_decide_eq_true suspended)

end WgPortal.WireGuard
