import WgPortal.Api.PeerModel
import WgPortal.Users.Steps

/-! The users of the API in its versions 0 and 1, and what is left of one that is written
back as it was shown. -/

namespace WgPortal.Api

open Domain Library Users
open UserProgram (issue)

def disabledReasonAdmin : String := "disabled by admin"
def disabledReasonApi : String := "disabled through api"
def lockedReasonAdmin : String := "locked by admin"
def lockedReasonApi : String := "locked by admin"

/-- The type of `ApiTokenCreated`, if there is such a field -/
abbrev Version.TokenCreated : Version → Type
  | v0 => Option Time
  | v1 => Unit

structure User (v : Version) where
  identifier : String
  email : String
  source : UserSource
  providerName : String
  isAdmin : Bool
  firstname : String
  lastname : String
  phone : String
  department : String
  notes : String
  password : String
  disabled : Bool
  disabledReason : String
  locked : Bool
  lockedReason : String
  apiToken : String
  apiTokenCreated : v.TokenCreated
  apiEnabled : Bool
  peerCount : ℕ

def tokenCreatedFromDomain : (v : Version) → Option Time → v.TokenCreated
  | .v0, created => created
  | .v1, _ => ()

/-- The password is never shown. -/
def newUser (v : Version) (src : Domain.User) (exposeCreds : Bool) : User v where
  identifier := src.identifier
  email := src.email
  source := src.source
  providerName := src.providerName
  isAdmin := src.isAdmin
  firstname := src.firstname
  lastname := src.lastname
  phone := src.phone
  department := src.department
  notes := src.notes
  password := ""
  disabled := src.isDisabled
  disabledReason := src.disabledReason
  locked := src.isLocked
  lockedReason := src.lockedReason
  apiToken := if exposeCreds then src.apiToken else ""
  apiTokenCreated := tokenCreatedFromDomain v src.apiTokenCreated
  apiEnabled := src.isApiEnabled
  peerCount := src.linkedPeerCount

/-- The token that is read back, and when it counts as created -/
def tokenToDomain (now : Time) : (v : Version) → String → String × Option Time
  | .v0, _ => ("", none)
  | .v1, token => if token ≠ "" then (token, some now) else ("", none)

def Version.disabledReason : Version → String
  | v0 => disabledReasonAdmin
  | v1 => disabledReasonApi

def Version.lockedReason : Version → String
  | v0 => lockedReasonAdmin
  | v1 => lockedReasonApi

def Version.linkedPeerCount : Version → ℕ → ℕ
  | v0, peerCount => peerCount
  | v1, _ => 0

def newDomainUser {v : Version} (now : Time) (src : User v) : Domain.User :=
  { Domain.User.zero with
    identifier := src.identifier
    email := src.email
    source := src.source
    providerName := src.providerName
    isAdmin := src.isAdmin
    firstname := src.firstname
    lastname := src.lastname
    phone := src.phone
    department := src.department
    notes := src.notes
    password := src.password
    disabled := if src.disabled then some now else none
    disabledReason :=
      if src.disabled ∧ src.disabledReason = "" then v.disabledReason else src.disabledReason
    locked := if src.locked then some now else none
    lockedReason := if src.locked ∧ src.lockedReason = "" then v.lockedReason else src.lockedReason
    apiToken := (tokenToDomain now v src.apiToken).1
    apiTokenCreated := (tokenToDomain now v src.apiToken).2
    linkedPeerCount := v.linkedPeerCount src.peerCount }

/-- Read a user and write it back as the API showed it. -/
def rewriteUser (m : Manager) (ui : ContextUserInfo) (id : UserIdentifier) (v : Version)
    (exposeCreds : Bool) (now : Time) : UserProgram (Except Error Domain.User) := do
  match ← Manager.getUser ui id with
  | .error err => return .error err
  | .ok user => m.updateUser ui (newDomainUser now (newUser v user exposeCreds))

/-- What should be left of a user. -/
structure LosslessUser (p q : Domain.User) : Prop where
  apiToken : q.apiToken = p.apiToken
  apiTokenCreated : q.apiTokenCreated = p.apiTokenCreated
  webAuthnId : q.webAuthnId = p.webAuthnId
  webAuthnCredentialList : q.webAuthnCredentialList = p.webAuthnCredentialList
  password : q.password = p.password
  isAdmin : q.isAdmin = p.isAdmin
  locked : q.isLocked = p.isLocked
  disabled : q.isDisabled = p.isDisabled
  source : q.source = p.source
  providerName : q.providerName = p.providerName

/-- Nothing is stored that the API does not carry. Only version 1 carries a token, if it is
shown, and then dates it anew. -/
structure RepresentableUser (v : Version) (exposeCreds : Bool) (now : Time) (p : Domain.User) :
    Prop where
  webAuthnId : p.webAuthnId = ""
  webAuthnCredentialList : p.webAuthnCredentialList = []
  apiToken : p.apiToken ≠ "" → v = .v1 ∧ exposeCreds = true
  apiTokenCreated : p.apiTokenCreated = if p.apiToken ≠ "" then some now else none

/-- The token that comes back is the stored one, and its date. -/
theorem token_kept_iff (v : Version) (exposeCreds : Bool) (now : Time) (token : String)
    (created : Option Time) :
    tokenToDomain now v (if exposeCreds then token else "") = (token, created) ↔
      (token ≠ "" → v = .v1 ∧ exposeCreds = true) ∧
        created = if token ≠ "" then some now else none := by
  by_cases empty : token = ""
  · subst empty
    cases v <;> simp [tokenToDomain, eq_comm]
  · cases v with
    | v0 => simp [tokenToDomain, empty, Ne.symm empty]
    | v1 =>
      cases exposeCreds with
      | false => simp [tokenToDomain, empty, Ne.symm empty]
      | true => simp [tokenToDomain, empty, eq_comm]

variable {m : Manager} {ui : ContextUserInfo} {v : Version} {exposeCreds : Bool} {now : Time}
  {s : World} {p : Domain.User} {id : UserIdentifier}

/-- What is left of a user in the record that `UpdateUser` stores for it. -/
theorem losslessUser_iff {n : ℕ} {u : Domain.User}
    (updated : Updated s.users (newDomainUser now (newUser v (counted p n) exposeCreds)) p u) :
    LosslessUser p (row u) ↔ RepresentableUser v exposeCreds now p := by
  have token := token_kept_iff v exposeCreds now p.apiToken p.apiTokenCreated
  obtain ⟨base, peers, password, same⟩ := updated.same
  have kept : u.password = p.password := updated.password rfl
  have apiToken : (row u).apiToken =
      (tokenToDomain now v (if exposeCreds then p.apiToken else "")).1 := by
    rw [same]
    rfl
  have apiTokenCreated : (row u).apiTokenCreated =
      (tokenToDomain now v (if exposeCreds then p.apiToken else "")).2 := by
    rw [same]
    rfl
  constructor
  · intro lossless
    have webAuthnId := lossless.webAuthnId
    have credentials := lossless.webAuthnCredentialList
    rw [same] at webAuthnId credentials
    obtain ⟨carried, dated⟩ := token.mp
      (Prod.ext (apiToken ▸ lossless.apiToken) (apiTokenCreated ▸ lossless.apiTokenCreated))
    exact ⟨webAuthnId.symm, credentials.symm, carried, dated⟩
  · intro representable
    have back := token.mpr ⟨representable.apiToken, representable.apiTokenCreated⟩
    have locked : (row u).isLocked = p.isLocked := by
      rw [same]
      cases state : p.isLocked <;>
        simp [Domain.User.isLocked, row, counted, newDomainUser, newUser] at state ⊢ <;> simp [state]
    have disabled : (row u).isDisabled = p.isDisabled := by
      rw [same]
      cases state : p.isDisabled <;>
        simp [Domain.User.isDisabled, row, counted, newDomainUser, newUser] at state ⊢ <;>
          simp [state]
    refine ⟨apiToken.trans (congrArg Prod.fst back), apiTokenCreated.trans (congrArg Prod.snd back),
      ?_, ?_, kept, ?_, locked, disabled, ?_, ?_⟩
    · rw [same]
      exact representable.webAuthnId.symm
    · rw [same]
      exact representable.webAuthnCredentialList.symm
    · rw [same]
      rfl
    · rw [same]
      rfl
    · rw [same]
      rfl

/-- The user stored under this identifier is there, without a loss. -/
def KeptUser (id : UserIdentifier) (p : Domain.User) (users : Table Domain.User.identifier) : Prop :=
  ∃ q, users.find id = some q ∧ LosslessUser p q

/-- Whatever operation fails: a user that is written back is kept exactly if the API
represents it. -/
theorem always_rewriteUser (stored : s.users.find id = some p) :
    (rewriteUser m ui id v exposeCreds now).Always Step s fun r t =>
      ∀ u, r = .ok u → (KeptUser id p t.users ↔ RepresentableUser v exposeCreds now p) := by
  refine (always_getUser id).bind fun r t read => ?_
  obtain ⟨same, shown⟩ := read
  cases r with
  | error err => exact fun u ok => by cases ok
  | ok user =>
    obtain ⟨found, n, here, rfl⟩ := shown user rfl
    obtain rfl := Option.some.inj (stored.symm.trans here)
    refine (always_updateUser _).mono fun r t' saves => ?_
    rintro u rfl
    obtain ⟨⟨old, allowed, updated⟩, after⟩ := saves
    have key : p.identifier = id := Table.key_of_find stored
    have named : (newDomainUser now (newUser v (counted p n) exposeCreds)).identifier = id := key
    have found := updated.found
    rw [same, named, stored] at found
    obtain rfl := Option.some.inj found
    have storedAs : u.identifier = id := by
      obtain ⟨base, peers, password, record⟩ := updated.same
      rw [record]
      exact key
    have saved : t'.users.find id = some (row u) := by
      rw [after, ← storedAs]
      exact find_store_self t.users u
    constructor
    · rintro ⟨q, there, lossless⟩
      obtain rfl := Option.some.inj (saved.symm.trans there)
      exact (losslessUser_iff updated).mp lossless
    · exact fun representable => ⟨row u, saved, (losslessUser_iff updated).mpr representable⟩

/-- The same of a run under given circumstances. -/
theorem rewriteUser_kept_iff (m : Manager) (ui : ContextUserInfo) (c : ℕ → Circumstance)
    (v : Version) (exposeCreds : Bool) (now : Time) {s : World} {id : UserIdentifier}
    {p result : Domain.User} (stored : s.users.find id = some p)
    (ok : ((rewriteUser m ui id v exposeCreds now).eval (inTurn c) (0, s)).1 = .ok result) :
    KeptUser id p ((rewriteUser m ui id v exposeCreds now).eval (inTurn c) (0, s)).2.2.users ↔
      RepresentableUser v exposeCreds now p := by
  exact Program.Always.eval (t := (0, s)) (inTurn_steps c) (always_rewriteUser stored) result ok

def storedUser (webAuthnId : String) (credentials : List UserWebauthnCredential) : Domain.User :=
  { Domain.User.zero with
    identifier := "alice"
    source := .database
    password := "hash"
    webAuthnId := webAuthnId
    webAuthnCredentialList := credentials }

def userWorld (p : Domain.User) : World := ⟨Table.empty.upsert p, Adapters.Db.empty, []⟩

def userManager : Manager := ⟨8, fun hash password => hash = password, fun _ => true, .ok⟩

def calmTurn : ℕ → Circumstance := fun _ => ⟨5, none, ""⟩

/-- What is left of a user who changes nothing through version 1. -/
def rewritten (p : Domain.User) : Except Error Domain.User × (ℕ × World) :=
  (rewriteUser userManager ⟨"alice", false⟩ "alice" .v1 true 9).eval (inTurn calmTurn)
    (0, userWorld p)

/-- A user with a password only is kept. -/
theorem plainUser_kept :
    KeptUser "alice" (storedUser "" []) (rewritten (storedUser "" [])).2.2.users := by
  have done : ∃ result, (rewritten (storedUser "" [])).1 = .ok result := ⟨_, rfl⟩
  obtain ⟨result, ok⟩ := done
  have stored : (userWorld (storedUser "" [])).users.find "alice" = some (storedUser "" []) := rfl
  exact (rewriteUser_kept_iff userManager ⟨"alice", false⟩ calmTurn .v1 true 9 stored ok).mpr
    ⟨rfl, rfl, fun some => absurd rfl some, rfl⟩

def passkey : UserWebauthnCredential := ⟨"key", 1, "phone", "0"⟩

/-- The passkeys of a user are gone. -/
theorem passkey_lost :
    (userWorld (storedUser "handle" [passkey])).users.find "alice" =
      some (storedUser "handle" [passkey]) ∧
    (∃ result, (rewritten (storedUser "handle" [passkey])).1 = .ok result) ∧
    ¬ KeptUser "alice" (storedUser "handle" [passkey])
      (rewritten (storedUser "handle" [passkey])).2.2.users := by
  refine ⟨rfl, ⟨_, rfl⟩, ?_⟩
  rintro ⟨q, found, lossless⟩
  have left := (congrArg (Option.map Domain.User.webAuthnId) found).symm
  rw [Option.map_some, lossless.webAuthnId] at left
  revert left
  decide +kernel

end WgPortal.Api
