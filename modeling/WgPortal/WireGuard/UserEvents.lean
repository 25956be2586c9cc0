import WgPortal.WireGuard.PeerSteps

/-! The handlers of the events about users, which change the peers of the user one
after the other. -/

namespace WgPortal.WireGuard

open Domain Library Adapters App Config WgController PeerSteps
open ManagerProgram (issue)

def disabledReasonUserDisabled : String := "user disabled"

def disabledReasonUserDeleted : String := "user deleted"

/-- A call whose error is only logged. -/
def logged {α : Type} (prog : ManagerProgram (Except Error α)) : ManagerProgram (List Error) := do
  match ← prog with
  | .error err => return [err]
  | .ok _ => return []

/-- The rounds of a loop over peers, and what they log. -/
def forEach (round : Peer → ManagerProgram (List Error)) :
    List Peer → ManagerProgram (List Error)
  | [] => return []
  | peer :: peers => do
    let errs ← round peer
    let rest ← forEach round peers
    return errs ++ rest

namespace Manager

variable (m : Manager)

/-- The loop over the peers of a user; nothing is done if they cannot be read. -/
def forUserPeers (user : User) (round : Peer → ManagerProgram (List Error)) :
    ManagerProgram (List Error) := do
  match ← issue (.repo (.getUserPeers user.identifier)) with
  | .error err => return [err]
  | .ok userPeers => forEach round userPeers

/-- The peer as it is disabled with its user. -/
def disabledWith (user : User) (peer : Peer) : Peer :=
  { peer with disabled := user.disabled, disabledReason := disabledReasonUserDisabled }

def handleUserDisabledEvent (user : User) : ManagerProgram (List Error) :=
  forUserPeers user fun peer =>
    if peer.isDisabled then return []
    else logged (m.updatePeer systemAdminContextUserInfo (disabledWith user peer))

def enabled (peer : Peer) : Peer := { peer with disabled := none, disabledReason := "" }

def handleUserEnabledEvent (user : User) : ManagerProgram (List Error) :=
  if !m.cfg.core.reEnablePeerAfterUserEnable then return []
  else forUserPeers user fun peer =>
    if !peer.isDisabled then return []
    else if peer.disabledReason ≠ disabledReasonUserDisabled then return []
    else logged (m.updatePeer systemAdminContextUserInfo (enabled peer))

/-- The peer as it is left behind by its user. -/
def orphaned (deletionTime : Time) (peer : Peer) : Peer :=
  { peer with
    userIdentifier := ""
    disabled := some deletionTime
    disabledReason := disabledReasonUserDeleted }

def handleUserDeletedEvent (user : User) : ManagerProgram (List Error) := do
  match ← issue (.repo (.getUserPeers user.identifier)) with
  | .error err => return [err]
  | .ok userPeers =>
    let deletionTime ← issue .timeNow
    forEach (fun peer =>
      if peer.isDisabled then return []
      else if m.cfg.core.deletePeerAfterUserDeleted then
        logged (m.deletePeer systemAdminContextUserInfo peer.identifier)
      else logged (m.updatePeer systemAdminContextUserInfo (orphaned deletionTime peer))) userPeers

end Manager

/-- The peers of a database, as they are loaded. -/
def storedPeers (db : Db) : Set Peer := {p | db.peer p.identifier = some p}

/-- `p` is stored no more, but these peers are in its place. -/
structure Replaced (p : Peer) (news : Set Peer) (db db' : Db) : Prop where
  fresh : ∀ q ∈ news, q ∈ storedPeers db → q = p
  stored : ∀ q, q ∈ storedPeers db' ↔ (q ∈ storedPeers db ∧ q ≠ p) ∨ q ∈ news

/-- The same for the peers of a list, each with its own replacements. -/
def AllReplaced (peers : List Peer) (news : Peer → Set Peer) (db db' : Db) : Prop :=
  ∀ q, q ∈ storedPeers db' ↔ (q ∈ storedPeers db ∧ q ∉ peers) ∨ ∃ p ∈ peers, q ∈ news p

variable {w : Wgtypes} {client : Client w} {can : Conditions w} {db db' : Db}

theorem mem_getUserPeers {id : UserIdentifier} {p : Peer} :
    p ∈ db.getUserPeers id ↔ p ∈ storedPeers db ∧ p.userIdentifier = id := by
  rw [Db.getUserPeers, List.mem_map]
  constructor
  · rintro ⟨row, listed, rfl⟩
    obtain ⟨stored, own⟩ := List.mem_filter.mp listed
    have found := Table.find_of_mem stored
    exact ⟨congrArg (Option.map db.load) found, of_decide_eq_true own⟩
  · rintro ⟨stored, own⟩
    obtain ⟨row, found, rfl⟩ := Db.find_of_peer stored
    exact ⟨row, List.mem_filter.mpr ⟨Table.mem_of_find found, decide_eq_true own⟩, rfl⟩

theorem nodup_getUserPeers (db : Db) (id : UserIdentifier) : (db.getUserPeers id).Nodup := by
  refine List.Nodup.of_map Peer.identifier ?_
  have identifiers : (db.getUserPeers id).map Peer.identifier =
      (db.peers.rows.filter (·.userIdentifier = id)).map Peer.identifier := by
    rw [Db.getUserPeers, List.map_map]
    rfl
  rw [identifiers]
  exact db.peers.nodup.sublist (List.filter_sublist.map _)

theorem Replaced.self {p : Peer} (stored : p ∈ storedPeers db) : Replaced p {p} db db := by
  refine ⟨fun q same _ => same, fun q => ?_⟩
  by_cases same : q = p
  · subst same
    exact iff_of_true stored (.inr rfl)
  · exact ⟨fun here => .inl ⟨here, same⟩, fun here => (here.resolve_right same).1⟩

/-- A peer is rewritten, maybe under another identifier. -/
theorem Replaced.rewritten {p q : Peer} (here : p ∈ storedPeers db) (new : q ∈ storedPeers db')
    (other : q.identifier ≠ p.identifier →
      db.peer q.identifier = none ∧ db'.peer p.identifier = none)
    (elsewhere : ∀ id, id ≠ p.identifier → id ≠ q.identifier → db'.peer id = db.peer id) :
    Replaced p {q} db db' := by
  have same : ∀ {db : Db} {x y : Peer}, x ∈ storedPeers db → y ∈ storedPeers db →
      x.identifier = y.identifier → x = y := by
    intro db x y hx hy named
    exact Option.some.inj (hx.symm.trans ((congrArg db.peer named).trans hy))
  refine ⟨?_, fun x => ?_⟩
  · rintro _ rfl stored
    by_contra differs
    refine Option.some_ne_none _ (stored.symm.trans (other fun named => ?_).1)
    exact differs (same stored here named)
  · rw [Set.mem_singleton_iff]
    by_cases renamed : x.identifier = q.identifier
    · constructor
      · exact fun stored => .inr (same stored new renamed)
      · rintro (⟨stored, differs⟩ | rfl)
        · by_cases named : q.identifier = p.identifier
          · exact absurd (same stored here (renamed.trans named)) differs
          · have free := (other named).1
            rw [← renamed] at free
            cases (stored : db.peer x.identifier = some x).symm.trans free
        · exact new
    · by_cases named : x.identifier = p.identifier
      · have gone := (other fun own => renamed (named.trans own.symm)).2
        constructor
        · intro stored
          rw [← named] at gone
          cases (stored : db'.peer x.identifier = some x).symm.trans gone
        · rintro (⟨stored, differs⟩ | rfl)
          · exact absurd (same stored here named) differs
          · exact new
      · have kept := elsewhere x.identifier named renamed
        constructor
        · intro stored
          refine .inl ⟨kept.symm.trans stored, ?_⟩
          rintro rfl
          exact named rfl
        · rintro (⟨stored, _⟩ | rfl)
          · exact kept.trans stored
          · exact new

theorem Replaced.deleted {p : Peer} (stored : p ∈ storedPeers db) :
    Replaced p ∅ db (db.deletePeer p.identifier) := by
  refine ⟨fun q new => absurd new (Set.notMem_empty q), fun q => ?_⟩
  rw [Set.mem_empty_iff_false, or_false]
  by_cases named : q.identifier = p.identifier
  · have gone : q ∉ storedPeers (db.deletePeer p.identifier) := by
      intro here
      have none := Db.peer_deletePeer_self db p.identifier
      rw [← named] at none
      rw [← named] at here
      cases (here : (db.deletePeer q.identifier).peer q.identifier = some q).symm.trans none
    refine iff_of_false gone fun ⟨here, differs⟩ => differs ?_
    exact Option.some.inj (here.symm.trans ((congrArg db.peer named).trans stored))
  · have kept := Db.peer_deletePeer_of_ne db named
    constructor
    · intro here
      refine ⟨kept.symm.trans here, ?_⟩
      rintro rfl
      exact named rfl
    · exact fun here => kept.trans here.1

/-- What the first round leaves in place of its peer is none of the other peers. -/
theorem AllReplaced.cons {p : Peer} {peers : List Peer} {news : Set Peer} {rest : Peer → Set Peer}
    {mid : Db} (new : p ∉ peers) (listed : ∀ q ∈ peers, q ∈ storedPeers db)
    (first : Replaced p news db mid) (others : AllReplaced peers rest mid db') :
    AllReplaced (p :: peers) (Function.update rest p news) db db' := by
  have apart : ∀ q ∈ news, q ∉ peers := by
    intro q here later
    exact new (first.fresh q here (listed q later) ▸ later)
  have later : ∀ q ∈ peers, q ≠ p := fun q here same => new (same ▸ here)
  intro q
  rw [others q, first.stored q, List.mem_cons, not_or]
  constructor
  · rintro (⟨⟨stored, differs⟩ | here, unlisted⟩ | ⟨x, listed', here⟩)
    · exact .inl ⟨stored, differs, unlisted⟩
    · exact .inr ⟨p, List.mem_cons_self, by rwa [Function.update_self]⟩
    · exact .inr ⟨x, List.mem_cons_of_mem p listed',
        by rwa [Function.update_of_ne (later x listed')]⟩
  · rintro (⟨stored, differs, unlisted⟩ | ⟨x, listed', here⟩)
    · exact .inl ⟨.inl ⟨stored, differs⟩, unlisted⟩
    · by_cases same : x = p
      · rw [same, Function.update_self] at here
        exact .inl ⟨.inr here, apart q here⟩
      · rw [Function.update_of_ne same] at here
        exact .inr ⟨x, (List.mem_cons.mp listed').resolve_left same, here⟩

/-- A loop that logs no error has replaced all its peers. -/
theorem always_forEach {round : Peer → ManagerProgram (List Error)}
    {becomes : Peer → Set Peer → Prop}
    (each : ∀ p s, p ∈ storedPeers s.db → (round p).Always (Turn client can) s fun errs t =>
      errs = [] → ∃ news, becomes p news ∧ Replaced p news s.db t.db)
    (peers : List Peer) (nodup : peers.Nodup) (s : World w)
    (listed : ∀ p ∈ peers, p ∈ storedPeers s.db) :
    (forEach round peers).Always (Turn client can) s fun errs t =>
      errs = [] → ∃ news, (∀ p ∈ peers, becomes p (news p)) ∧ AllReplaced peers news s.db t.db := by
  induction peers generalizing s with
  | nil =>
    have none : ∀ q ∈ ([] : List Peer), becomes q ∅ := by
      intro q listed
      cases listed
    exact fun _ => ⟨fun _ => ∅, none, fun q => by simp⟩
  | cons p peers ih =>
    have ⟨new, nodup⟩ := List.nodup_cons.mp nodup
    unfold forEach
    refine (each p s (listed p List.mem_cons_self)).bind fun errs t first => ?_
    by_cases quiet : errs = []
    · obtain ⟨news, became, replaced⟩ := first quiet
      have listed' : ∀ q ∈ peers, q ∈ storedPeers s.db :=
        fun q here => listed q (List.mem_cons_of_mem p here)
      have still : ∀ q ∈ peers, q ∈ storedPeers t.db := by
        intro q here
        refine (replaced.stored q).mpr (.inl ⟨listed' q here, ?_⟩)
        rintro rfl
        exact new here
      refine (ih nodup t still).bind fun rest u loop => ?_
      intro none
      obtain ⟨news', became', replaced'⟩ := loop (List.append_eq_nil_iff.mp none).2
      refine ⟨_, fun q here => ?_, replaced'.cons new listed' replaced⟩
      by_cases same : q = p
      · rw [same, Function.update_self]
        exact became
      · rw [Function.update_of_ne same]
        exact became' q ((List.mem_cons.mp here).resolve_left same)
    · have loud : ∀ rest (u : World w), (pure (errs ++ rest) : ManagerProgram (List Error)).Always
          (Turn client can) u fun errs _ => errs ≠ [] :=
        fun rest u none => quiet (List.append_eq_nil_iff.mp none).1
      refine ((Program.always_of_all (fun _ _ => trivial) _ t).bind fun rest u _ =>
        loud rest u).mono fun errs u loud none => absurd none loud

/-- A handler that logs no error has gone through all peers of the user. -/
theorem always_forUserPeers {round : Peer → ManagerProgram (List Error)}
    {becomes : Peer → Set Peer → Prop}
    (each : ∀ p s, p ∈ storedPeers s.db → (round p).Always (Turn client can) s fun errs t =>
      errs = [] → ∃ news, becomes p news ∧ Replaced p news s.db t.db)
    (user : User) (s : World w) :
    (Manager.forUserPeers user round).Always (Turn client can) s fun errs t =>
      errs = [] → ∃ news, (∀ p ∈ s.db.getUserPeers user.identifier, becomes p (news p)) ∧
        AllReplaced (s.db.getUserPeers user.identifier) news s.db t.db := by
  unfold Manager.forUserPeers
  refine Program.always_perform_bind.mpr fun answer t turn => ?_
  rcases turn.repo with ⟨err, rfl, rfl, fails⟩ | ⟨now, rfl, rfl⟩
  · exact fun none => by cases none
  · exact always_forEach each _ (nodup_getUserPeers s.db _) s
      fun p listed => (mem_getUserPeers.mp listed).1

/-- What an update that an admin asks for leaves of the peer, as it is stored. -/
def Rewrites (q : Peer) (news : Set Peer) : Prop :=
  ∃ base addresses, news = {loadAddresses
    { q with identifier := q.interface.keyPair.publicKey, base := base } addresses}

/-- The update of a stored peer, unless a failure looks as if a record were missing. -/
theorem always_updatePeer_replaced (m : Manager) {p q : Peer} (s : World w)
    (read : ¬ Misread can s) (stored : p ∈ storedPeers s.db) (named : q.identifier = p.identifier) :
    (logged (m.updatePeer systemAdminContextUserInfo q)).Always (Turn client can) s fun errs t =>
      errs = [] → ∃ news, Rewrites q news ∧ Replaced p news s.db t.db := by
  unfold logged
  refine (always_updatePeer m systemAdminContextUserInfo q s).bind fun r t outcome => ?_
  cases r with
  | error err => exact fun none => by cases none
  | ok saved =>
    intro _
    obtain ⟨err, failed, _⟩ | ⟨existing, found, allowed, updated⟩ := outcome
    · cases failed
    · obtain rfl : existing = p := by
        rw [named] at found
        exact Option.some.inj (found.symm.trans stored)
      have asked : requested m systemAdminContextUserInfo existing q = q := rfl
      rw [asked] at updated
      obtain ⟨renamed, gone, base, addresses, new⟩ := updated.stored named
      refine ⟨_, ⟨base, addresses, rfl⟩, Replaced.rewritten stored ?_ (fun other => ?_) ?_⟩
      · rw [renamed] at new
        exact new
      · exact ⟨((updated.storable read named).replaces other).1, gone (renamed ▸ other)⟩
      · exact fun id ne ne' => updated.elsewhere named ne ne'

theorem always_deletePeer_replaced (m : Manager) {p : Peer} (s : World w)
    (stored : p ∈ storedPeers s.db) :
    (logged (m.deletePeer systemAdminContextUserInfo p.identifier)).Always (Turn client can) s
      fun errs t => errs = [] → Replaced p ∅ s.db t.db := by
  unfold logged
  refine (always_deletePeer m systemAdminContextUserInfo p.identifier s).bind fun r t outcome => ?_
  cases r with
  | error err => exact fun none => by cases none
  | ok _ =>
    intro _
    have after : t.db = s.db.deletePeer p.identifier := outcome.db
    rw [after]
    exact .deleted stored

end WgPortal.WireGuard
