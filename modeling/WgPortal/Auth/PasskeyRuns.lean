import WgPortal.Api.UserModel
import WgPortal.Auth.Passkeys
import WgPortal.Auth.Takeover
import WgPortal.Library.Observation
import WgPortal.Users.Rights

/-! The passkeys of users over whole runs: where each comes from, and whom it lets in. -/

namespace WgPortal.Auth.PasskeyRuns

open Domain Library Users Program
open AuthProgram (managing)

/-- What tells a passkey from others; its name may change. -/
structure Passkey where
  credentialIdentifier : String
  serializedCredential : String
deriving DecidableEq

namespace Passkey

def of (c : UserWebauthnCredential) : Passkey := ⟨c.credentialIdentifier, c.serializedCredential⟩

def ofCredential (credential : Credential) : Passkey :=
  ⟨encodeStd credential.id, encodeStd credential.json⟩

def credentialId (k : Passkey) : List UInt8 := decodeStd k.credentialIdentifier

end Passkey

/-- The stored passkeys of a user -/
def held (users : Table User.identifier) (id : UserIdentifier) : List Passkey :=
  (((users.find id).map (·.webAuthnCredentialList)).getD []).map .of

/-- The index of the table of credentials allows one row for each identifier. -/
def owner (users : Table User.identifier) (credentialIdBase64 : String) : Option UserIdentifier :=
  (users.rows.find? fun u => u.webAuthnCredentialList.any fun c =>
    c.credentialIdentifier = credentialIdBase64).map User.identifier

/-- The API builds the users of its calls from its own models. -/
inductive FromApi : UserCall → Prop
  | updateUser {v : Api.Version} (now : Time) (src : Api.User v) :
    FromApi (.updateUser (Api.newDomainUser now src))
  | createUser {v : Api.Version} (now : Time) (src : Api.User v) :
    FromApi (.createUser (Api.newDomainUser now src))
  | deleteUser (id : UserIdentifier) : FromApi (.deleteUser id)
  | activateApi (id : UserIdentifier) : FromApi (.activateApi id)
  | deactivateApi (id : UserIdentifier) : FromApi (.deactivateApi id)

inductive Call (Response : Type) where
  | registerStart (userId : UserIdentifier) (random : List UInt8)
  | registerFinish (userId : UserIdentifier) (name sessionData : String) (r : Response)
  | removeCredential (userId : UserIdentifier) (credentialIdBase64 : String)
  | updateCredential (userId : UserIdentifier) (credentialIdBase64 name : String)
  | loginFinish (sessionData : String) (r : Response)
  | manage (userCall : UserCall) (built : FromApi userCall)

structure Request (Response : Type) where
  ui : ContextUserInfo
  call : Call Response
  circumstances : ℕ → Circumstance

variable {Response : Type} (lib : WebAuthn Response) (m : Users.Manager)

/-- The user whom a call lets in, if it is a login. -/
def Call.program (ui : ContextUserInfo) (users : Table User.identifier) :
    Call Response → AuthProgram (Option User)
  | registerStart userId random => do
    let _ ← lib.startWebAuthnRegistration m ui userId random
    return none
  | registerFinish userId name sessionData r => do
    let _ ← lib.finishWebAuthnRegistration m ui userId name sessionData r
    return none
  | removeCredential userId credentialIdBase64 => do
    let _ ← WebAuthn.removeCredential m ui userId credentialIdBase64
    return none
  | updateCredential userId credentialIdBase64 name => do
    let _ ← WebAuthn.updateCredential m ui userId credentialIdBase64 name
    return none
  | loginFinish sessionData r => do
    match ← lib.finishLogin (owner users) sessionData r with
    | .error _ => return none
    | .ok user => return some user
  | manage userCall _ => do
    let _ ← managing (userCall.program m ui)
    return none

def serve (s : World) (request : Request Response) : Option User × World :=
  (request.call.program lib m request.ui s.users.users).run request.circumstances s

def serveAll (s : World) (requests : List (Request Response)) : World :=
  requests.foldl (fun s request => (serve lib m s request).2) s

/-- Admins act for all users, others for themselves. -/
def ActsFor (ui : ContextUserInfo) (id : UserIdentifier) : Prop := ui.isAdmin = true ∨ ui.id = id

/-- The request is from the user `id` or an admin, and the library finds the passkey right for
this user, who is active. -/
def Registers (users : Table User.identifier) (request : Request Response) (id : UserIdentifier)
    (k : Passkey) : Prop :=
  ActsFor request.ui id ∧ ∃ name sessionData r u n credential,
    request.call = .registerFinish id name sessionData r ∧
    users.find id = some u ∧ Active u ∧
    lib.finishRegistration (counted u n) sessionData r = .ok credential ∧
    k = .ofCredential credential

/-- What one call may make of the passkeys of a user. -/
inductive Change (registered : Passkey → Prop) (before : List Passkey) : List Passkey → Prop
  | kept : Change registered before before
  | emptied : Change registered before []
  | removed (credentialIdBase64 : String) :
    Change registered before (before.filter (·.credentialIdentifier ≠ credentialIdBase64))
  | added {k : Passkey} (confirmed : registered k)
    (fresh : ∀ k' ∈ before, k'.credentialId ≠ k.credentialId) :
    Change registered before (before ++ [k])

/-- Passkeys change for users whom the caller acts for. -/
structure Changes (ui : ContextUserInfo) (registered : UserIdentifier → Passkey → Prop)
    (users users' : Table User.identifier) : Prop where
  others : ∀ id, ¬ ActsFor ui id → held users' id = held users id
  change : ∀ id, Change (registered id) (held users id) (held users' id)

variable {lib m} {ui : ContextUserInfo} {registered : UserIdentifier → Passkey → Prop}
  {users users' : Table User.identifier} {s : World} {id : UserIdentifier} {k : Passkey}

theorem credentialId_ofCredential (credential : Credential) :
    (Passkey.ofCredential credential).credentialId = credential.id := by
  simp only [Passkey.credentialId, Passkey.ofCredential, encodeStd, decodeStd,
    String.toList_ofList, Base64.decode_encode, Option.getD_some]

theorem held_of_find {u : User} (found : users.find id = some u) :
    held users id = u.webAuthnCredentialList.map .of := by
  rw [held, found]
  rfl

theorem held_stored (users : Table User.identifier) (u : User) (id : UserIdentifier) :
    held (users.upsert (row u)) id =
      if u.identifier = id then u.webAuthnCredentialList.map .of else held users id := by
  rw [held, find_store]
  split
  · rfl
  · rfl

theorem held_of_owner {credentialIdBase64 : String}
    (owned : owner users credentialIdBase64 = some id) :
    ∃ k ∈ held users id, k.credentialIdentifier = credentialIdBase64 := by
  obtain ⟨u, found, rfl⟩ := Option.map_eq_some_iff.mp owned
  have mem : u ∈ users.rows := List.mem_of_find?_eq_some found
  have has := List.find?_some found
  obtain ⟨c, inside, named⟩ := List.any_eq_true.mp has
  rw [held_of_find (Table.find_of_mem mem)]
  exact ⟨.of c, List.mem_map_of_mem inside, of_decide_eq_true named⟩

theorem passkeys_renamed {credentialIdBase64 name : String}
    {before after : List UserWebauthnCredential}
    (found : User.renameFirst credentialIdBase64 name before = some after) :
    after.map Passkey.of = before.map .of := by
  induction before generalizing after with
  | nil => cases found
  | cons c rest ih =>
    rw [User.renameFirst] at found
    split at found
    · rw [← Option.some.inj found]
      rfl
    · obtain ⟨rest', renamed, rfl⟩ := Option.map_eq_some_iff.mp found
      rw [List.map_cons, List.map_cons, ih renamed]

theorem passkeys_removed (u : User) (credentialIdBase64 : String) :
    (u.removeCredential credentialIdBase64).webAuthnCredentialList.map Passkey.of =
      (u.webAuthnCredentialList.map Passkey.of).filter
        (·.credentialIdentifier ≠ credentialIdBase64) := by
  rw [List.filter_map]
  rfl

theorem Change.mem {after : List Passkey} {registered : Passkey → Prop} {before : List Passkey}
    (change : Change registered before after) (inside : k ∈ after) : k ∈ before ∨ registered k := by
  cases change with
  | kept => exact .inl inside
  | emptied => exact absurd inside List.not_mem_nil
  | removed _ => exact .inl (List.mem_of_mem_filter inside)
  | added confirmed _ =>
    rcases List.mem_append.mp inside with old | new
    · exact .inl old
    · exact .inr (List.mem_singleton.mp new ▸ confirmed)

theorem Change.distinct {after : List Passkey} {registered : Passkey → Prop}
    {before : List Passkey} (change : Change registered before after)
    (distinct : (before.map Passkey.credentialId).Nodup) :
    (after.map Passkey.credentialId).Nodup := by
  cases change with
  | kept => exact distinct
  | emptied => exact List.nodup_nil
  | removed _ => exact distinct.sublist (List.filter_sublist.map _)
  | added confirmed fresh =>
    rw [List.map_append, List.nodup_append]
    refine ⟨distinct, List.nodup_singleton _, fun a old b new => ?_⟩
    obtain ⟨k', inside, rfl⟩ := List.mem_map.mp old
    rw [List.map_singleton, List.mem_singleton] at new
    exact new ▸ fresh k' inside

theorem Changes.of_eq (same : users' = users) : Changes ui registered users users' :=
  ⟨fun _ _ => by rw [same], fun _ => by rw [same]; exact .kept⟩

/-- One user is stored whom the caller acts for. -/
theorem changes_store {u : User} (mine : ActsFor ui u.identifier)
    (change : Change (registered u.identifier) (held users u.identifier)
      (u.webAuthnCredentialList.map .of)) :
    Changes ui registered users (users.upsert (row u)) := by
  refine ⟨fun id others => ?_, fun id => ?_⟩
  · have other : u.identifier ≠ id := fun same => others (same ▸ mine)
    rw [held_stored, if_neg other]
  · rw [held_stored]
    split
    · rename_i same
      exact same ▸ change
    · exact .kept

theorem actsFor_of_allowed (allowed : validateUserAccessRights ui id = .ok ()) :
    ActsFor ui id := by
  unfold validateUserAccessRights at allowed
  split at allowed
  · exact .inl ‹_›
  · split at allowed
    · exact .inr ‹_›
    · cases allowed


/-- A user who was read by one who may act for it. -/
theorem always_getUser (id : UserIdentifier) (s : Users.World) :
    (Manager.getUser ui id).Always Users.Step s fun r t => t.users = s.users ∧
      ∀ u, r = .ok u → ActsFor ui id ∧ ∃ found n, s.users.find id = some found ∧
        u = counted found n := by
  have allowed : (Manager.getUser ui id).Always Users.Step s fun r _ =>
      ∀ u, r = .ok u → ActsFor ui id := by
    unfold Manager.getUser
    cases allowed : validateUserAccessRights ui id with
    | error err => exact fun u ok => by cases ok
    | ok _ => exact always_of_all (fun _ _ _ _ => actsFor_of_allowed allowed) _ _
  refine ((Users.always_getUser id).and allowed).mono fun r t ended => ?_
  obtain ⟨⟨same, stored⟩, allowed⟩ := ended
  exact ⟨same, fun u ok => ⟨allowed u ok, stored u ok⟩⟩

theorem always_newUuid (s : Users.World) :
    (UserProgram.issue .newUuid).Always Users.Step s fun _ t => t.users = s.users :=
  fun _ _ created => created.newUuid

theorem always_timeNow (s : Users.World) :
    (UserProgram.issue .timeNow).Always Users.Step s fun _ t => t.users = s.users :=
  fun _ _ read => read.timeNow

/-- A user is stored with passkeys that it may have. -/
theorem always_updateUser {s : Users.World} {user : User} (mine : ActsFor ui user.identifier)
    (change : Change (registered user.identifier) (held s.users user.identifier)
      (user.webAuthnCredentialList.map .of)) :
    (m.updateUser ui user).Always Users.Step s fun _ t =>
      Changes ui registered s.users t.users := by
  refine (Users.always_updateUser user).mono fun r t saves => ?_
  cases r with
  | error err => exact .of_eq saves
  | ok u =>
    obtain ⟨⟨old, _, updated⟩, stored⟩ := saves
    obtain ⟨base, n, password, rfl⟩ := updated.same
    rw [stored]
    exact changes_store mine change


section Calls

theorem addCredential_ok {u u' : User} {now : Time} {name : String} {credential : Credential}
    (ok : u.addCredential now name credential = .ok u') :
    (∀ k ∈ u.webAuthnCredentialList.map Passkey.of,
      k.credentialId ≠ (Passkey.ofCredential credential).credentialId) ∧
    u'.identifier = u.identifier ∧ u'.webAuthnCredentialList.map Passkey.of =
      u.webAuthnCredentialList.map .of ++ [.ofCredential credential] := by
  unfold User.addCredential at ok
  split at ok
  · cases ok
  · rename_i unknown
    rw [← Except.ok.inj ok]
    refine ⟨fun k mem same => unknown ?_, rfl, List.map_append⟩
    obtain ⟨c, inside, rfl⟩ := List.mem_map.mp mem
    rw [credentialId_ofCredential] at same
    exact List.any_eq_true.mpr ⟨c, inside, decide_eq_true same⟩

theorem updateCredential_ok {u u' : User} {credentialIdBase64 name : String}
    (ok : u.updateCredential credentialIdBase64 name = .ok u') :
    u'.identifier = u.identifier ∧
      u'.webAuthnCredentialList.map Passkey.of = u.webAuthnCredentialList.map .of := by
  unfold User.updateCredential at ok
  split at ok
  · cases ok
  · rename_i renamed
    rw [← Except.ok.inj ok]
    exact ⟨rfl, passkeys_renamed renamed⟩

/-- The user is read and, if nothing is wrong, stored with passkeys that it may have. -/
theorem always_changed {β : Type} {userId : UserIdentifier} {s : World}
    {rest : Except Error User → AuthProgram (Except Error β)}
    (failed : ∀ err t, (rest (.error err)).Always Step t fun _ t' => t'.users.users = t.users.users)
    (changes : ∀ u n t, t.users.users = s.users.users → s.users.users.find userId = some u →
      ActsFor ui userId → (rest (.ok (counted u n))).Always Step t fun _ t' =>
        Changes ui registered t.users.users t'.users.users) :
    (managing (Manager.getUser ui userId) >>= rest).Always Step s fun _ t =>
      Changes ui registered s.users.users t.users.users := by
  refine (always_managing (always_getUser userId s.users)).bind fun r t read => ?_
  obtain ⟨⟨same, stored⟩, _⟩ := read
  cases r with
  | error err => exact (failed err t).mono fun _ t' kept => .of_eq (kept.trans same)
  | ok user =>
    obtain ⟨mine, old, n, found, rfl⟩ := stored user rfl
    have ended := changes old n t same found mine
    rw [same] at ended
    exact ended

/-- What a program answers once it has stored a user. -/
theorem always_stored {β : Type} {s : World} {user : User}
    {rest : Except Error User → AuthProgram (Except Error β)} (mine : ActsFor ui user.identifier)
    (change : Change (registered user.identifier) (held s.users.users user.identifier)
      (user.webAuthnCredentialList.map .of))
    (returns : ∀ r s, (rest r).Always Step s fun _ t => t.users.users = s.users.users) :
    (managing (m.updateUser ui user) >>= rest).Always Step s fun _ t =>
      Changes ui registered s.users.users t.users.users := by
  refine (always_managing (always_updateUser mine change)).bind fun r t stored => ?_
  refine (returns r t).mono fun _ t' same => ?_
  rw [same]
  exact stored.1

theorem always_removeCredential (userId : UserIdentifier) (credentialIdBase64 : String)
    (s : World) :
    (WebAuthn.removeCredential m ui userId credentialIdBase64).Always Step s fun _ t =>
      Changes ui registered s.users.users t.users.users := by
  refine always_changed (fun err t => ?_) fun u n t same found mine => ?_
  · exact rfl
  rw [← same] at found
  have key : u.identifier = userId := Table.key_of_find found
  refine always_stored (key ▸ mine) ?_ fun r t => ?_
  · rw [passkeys_removed]
    show Change _ (held t.users.users u.identifier) _
    rw [key, held_of_find found]
    exact .removed _
  · cases r with
    | error err => rfl
    | ok user => rfl

theorem always_updateCredential (userId : UserIdentifier) (credentialIdBase64 name : String)
    (s : World) :
    (WebAuthn.updateCredential m ui userId credentialIdBase64 name).Always Step s fun _ t =>
      Changes ui registered s.users.users t.users.users := by
  refine always_changed (fun err t => ?_) fun u n t same found mine => ?_
  · exact rfl
  rw [← same] at found
  have key : u.identifier = userId := Table.key_of_find found
  dsimp only
  cases updated : (counted u n).updateCredential credentialIdBase64 name with
  | error err => exact .of_eq rfl
  | ok user =>
    obtain ⟨named, same⟩ := updateCredential_ok updated
    have named : user.identifier = userId := named.trans key
    refine always_stored (named ▸ mine) ?_ fun r t => ?_
    · rw [same, named, held_of_find found]
      exact .kept
    · cases r with
      | error err => rfl
      | ok user => rfl

theorem always_withWebAuthnId {u : User} (n : ℕ) (found : s.users.users.find id = some u)
    (mine : ActsFor ui id) : (WebAuthn.withWebAuthnId m ui (counted u n)).Always Step s fun _ t =>
      Changes ui registered s.users.users t.users.users := by
  have key : u.identifier = id := Table.key_of_find found
  unfold WebAuthn.withWebAuthnId
  split
  · exact .of_eq rfl
  · refine (always_managing (always_newUuid s.users)).bind fun randomUid1 t first => ?_
    refine (always_managing (always_newUuid t.users)).bind fun randomUid2 t' second => ?_
    have same : t'.users.users = s.users.users := second.1.trans first.1
    rw [← same] at found ⊢
    refine always_stored (key ▸ mine) ?_ fun r t => ?_
    · show Change _ (held t'.users.users u.identifier) (u.webAuthnCredentialList.map .of)
      rw [key, held_of_find found]
      exact .kept
    · cases r with
      | error err => rfl
      | ok user => rfl

theorem always_startWebAuthnRegistration (userId : UserIdentifier) (random : List UInt8)
    (s : World) : (lib.startWebAuthnRegistration m ui userId random).Always Step s fun _ t =>
      Changes ui registered s.users.users t.users.users := by
  refine always_changed (fun err t => ?_) fun u n t same found mine => ?_
  · exact rfl
  rw [← same] at found
  dsimp only
  split
  · exact .of_eq rfl
  · have stored := @always_withWebAuthnId m ui registered t userId u n found mine
    refine stored.bind fun r t changes => ?_
    cases r with
    | error err => exact changes
    | ok user =>
      dsimp only
      cases lib.beginRegistration user random with
      | error err => exact changes
      | ok sessionData => exact changes

/-- Only here a passkey is new, and the library has found it right. -/
theorem always_finishWebAuthnRegistration (userId : UserIdentifier) (name sessionData : String)
    (r : Response) (s : World)
    (confirmed : ∀ u n credential, s.users.users.find userId = some u → ActsFor ui userId →
      Active u → lib.finishRegistration (counted u n) sessionData r = .ok credential →
        registered userId (.ofCredential credential)) :
    (lib.finishWebAuthnRegistration m ui userId name sessionData r).Always Step s fun _ t =>
      Changes ui registered s.users.users t.users.users := by
  refine always_changed (fun err t => ?_) fun u n t same found mine => ?_
  · exact rfl
  dsimp only
  split
  · exact .of_eq rfl
  · rename_i active
    have active : Active u := not_not.mp fun inactive => active (inactive_iff.mp inactive)
    unfold unmarshal
    split
    · rename_i failed
      split at failed
      · exact .of_eq rfl
      · cases failed
    · rename_i webAuthnData ok
      split at ok
      · cases ok
      obtain rfl := Except.ok.inj ok
      cases finished : lib.finishRegistration (counted u n) sessionData r with
      | error err => exact .of_eq rfl
      | ok credential =>
        have new := confirmed u n credential found mine active finished
        refine (always_managing (always_timeNow t.users)).bind fun now t' read => ?_
        have read : t'.users.users = t.users.users := read.1
        cases added : (counted u n).addCredential now (WebAuthn.passkeyName name (counted u n))
          credential with
        | error err =>
          exact .of_eq read
        | ok user =>
          obtain ⟨fresh, named, same'⟩ := addCredential_ok added
          have key : u.identifier = userId := Table.key_of_find found
          have named : user.identifier = userId := named.trans key
          rw [← same, ← read] at found
          rw [← read]
          refine always_stored (named ▸ mine) ?_ fun r t => ?_
          · rw [same', named, held_of_find found]
            exact .added new fresh
          · cases r with
            | error err => rfl
            | ok user => rfl

/-- Whom a passkey lets in: an active user who holds the credential that the library has found
right for the holder of the one that the answer names. -/
structure LetsIn (lib : WebAuthn Response) (users : Table User.identifier) (sessionData : String)
    (r : Response) (credential : Credential) (user : User) : Prop where
  active : ∃ u n, users.find user.identifier = some u ∧ Active u ∧ user = counted u n
  validated : ∃ rawId v n, lib.parseDiscoverableLogin sessionData r = .ok rawId ∧
    owner users (encodeStd rawId) = some v.identifier ∧ users.find v.identifier = some v ∧
    lib.validateLogin (counted v n) sessionData r = .ok credential
  holds : owner users (encodeStd credential.id) = some user.identifier

theorem always_getOwner (users : Table User.identifier) (credentialIdBase64 : String)
    (s : Users.World) :
    (Manager.getUserByWebAuthnCredential systemAdminContextUserInfo (owner users)
      credentialIdBase64).Always Users.Step s fun r t => t.users = s.users ∧ ∀ user, r = .ok user →
        owner users credentialIdBase64 = some user.identifier ∧ ∃ u n,
          s.users.find user.identifier = some u ∧ user = counted u n := by
  unfold Manager.getUserByWebAuthnCredential
  dsimp only
  split
  · exact ⟨rfl, fun u ok => by cases ok⟩
  · rename_i id owned
    intro answer t read
    obtain ⟨rfl, stored⟩ := read.getUser
    cases answer with
    | error err => exact ⟨rfl, fun u ok => by cases ok⟩
    | ok u =>
      have found := stored u rfl
      have key : u.identifier = id := Table.key_of_find found
      intro peers t' counting
      have same : t'.users = t.users := by
        rcases counting.repo with ⟨text, -, rfl⟩ | ⟨now, -, rfl⟩ <;> rfl
      have holds : ∀ n, owner users credentialIdBase64 = some (counted u n).identifier ∧ ∃ u' n',
          t.users.find (counted u n).identifier = some u' ∧ counted u n = counted u' n' :=
        fun n => ⟨owned.trans (congrArg some key.symm), u, n, (congrArg _ key).trans found, rfl⟩
      cases peers with
      | error err => exact ⟨same, fun user ok => Except.ok.inj ok ▸ holds _⟩
      | ok peers => exact ⟨same, fun user ok => Except.ok.inj ok ▸ holds _⟩

theorem always_finishLogin (sessionData : String) (r : Response) (s : World) :
    (lib.finishLogin (owner s.users.users) sessionData r).Always Step s fun answer t =>
      t.users.users = s.users.users ∧
        ∀ user, answer = .ok user →
          ∃ credential, LetsIn lib s.users.users sessionData r credential user := by
  unfold WebAuthn.finishLogin unmarshal
  split
  · exact ⟨rfl, fun user ok => by cases ok⟩
  · rename_i webAuthnData ok
    split at ok
    · cases ok
    obtain rfl := Except.ok.inj ok
    split
    · exact ⟨rfl, fun user ok => by cases ok⟩
    · rename_i rawId parsed
      refine (always_managing (always_getOwner s.users.users (encodeStd rawId) s.users)).bind
        fun answer t read => ?_
      obtain ⟨⟨same, stored⟩, _⟩ := read
      cases answer with
      | error err => exact ⟨same, fun user ok => by cases ok⟩
      | ok user =>
        obtain ⟨owned, v, n, found, rfl⟩ := stored user rfl
        dsimp only
        split
        · exact ⟨same, fun user ok => by cases ok⟩
        · rename_i credential validated
          unfold finishWebAuthnLogin
          refine (always_managing (always_getOwner s.users.users (encodeStd credential.id)
            t.users)).bind fun answer t' read => ?_
          obtain ⟨⟨same', stored'⟩, _⟩ := read
          have kept : t'.users.users = s.users.users := same'.trans same
          cases answer with
          | error err => exact ⟨kept, fun user ok => by cases ok⟩
          | ok user =>
            obtain ⟨owned', u, k, found', rfl⟩ := stored' user rfl
            dsimp only
            split
            · exact fun _ t'' published => ⟨(congrArg _ published.publish).trans kept,
                fun user ok => by cases ok⟩
            · rename_i active
              have active : Active u := not_not.mp fun inactive => active (inactive_iff.mp inactive)
              intro _ t1 first _ t2 second
              have quiet : t2.users = t'.users := second.publish.trans first.publish
              refine ⟨(congrArg _ quiet).trans kept, fun user ok => ?_⟩
              obtain rfl := Except.ok.inj ok
              exact ⟨credential, ⟨u, k, same ▸ found', active, rfl⟩,
                ⟨rawId, v, n, parsed, owned, found, validated⟩, owned'⟩

theorem actsFor_of_admin (allowed : validateAdminAccessRights ui = .ok ()) : ui.isAdmin = true := by
  unfold validateAdminAccessRights at allowed
  split at allowed
  · assumption
  · cases allowed

theorem changes_delete (admin : ui.isAdmin = true) (id : UserIdentifier) :
    Changes ui registered users (users.filter (·.identifier ≠ id)) := by
  refine ⟨fun other others => absurd (.inl admin) others, fun other => ?_⟩
  by_cases same : other = id
  · have gone : held (users.filter (·.identifier ≠ id)) id = [] := by
      rw [held, Table.find_filter_self]
      rfl
    rw [same, gone]
    exact .emptied
  · have kept : held (users.filter (·.identifier ≠ id)) other = held users other := by
      rw [held, held, Table.find_filter_of_ne users same]
    rw [kept]
    exact .kept

/-- What the API stores has no passkeys. -/
theorem always_updateFromApi {v : Api.Version} (now : Time) (src : Api.User v) (s : Users.World) :
    (m.updateUser ui (Api.newDomainUser now src)).Always Users.Step s fun _ t =>
      Changes ui registered s.users t.users := by
  cases allowed : validateUserAccessRights ui (Api.newDomainUser now src).identifier with
  | error err =>
    unfold Manager.updateUser
    rw [allowed]
    exact .of_eq rfl
  | ok _ => exact always_updateUser (actsFor_of_allowed allowed) .emptied

theorem always_createFromApi {v : Api.Version} (now : Time) (src : Api.User v) (s : Users.World) :
    (m.createUser ui (Api.newDomainUser now src)).Always Users.Step s fun _ t =>
      Changes ui registered s.users t.users := by
  cases allowed : validateAdminAccessRights ui with
  | error err =>
    unfold Manager.createUser
    rw [allowed]
    split
    · exact .of_eq rfl
    · exact .of_eq rfl
  | ok _ =>
    refine (Users.always_createUser _).mono fun r t saves => ?_
    cases r with
    | error err => exact .of_eq saves
    | ok u =>
      obtain ⟨created, stored⟩ := saves
      obtain ⟨base, n, password, rfl⟩ := created.same
      rw [stored]
      exact changes_store (.inl (actsFor_of_admin allowed)) .emptied

theorem always_deleteUser (id : UserIdentifier) (s : Users.World) :
    (Manager.deleteUser ui id).Always Users.Step s fun _ t =>
      Changes ui registered s.users t.users := by
  unfold Manager.deleteUser
  cases allowed : validateAdminAccessRights ui with
  | error err => exact .of_eq rfl
  | ok _ =>
    intro answer s' read
    obtain ⟨rfl, _⟩ := read.getUser
    cases answer with
    | error err =>
      show Always _ (if !err.is .notFound then _ else _) _ _
      split
      · exact .of_eq rfl
      · exact .of_eq rfl
    | ok user =>
      dsimp only [Program.bind]
      cases Manager.validateDeletion ui user with
      | error err => exact .of_eq rfl
      | ok _ =>
        intro answer t deleted
        rcases deleted.repo with ⟨text, rfl, rfl⟩ | ⟨now, rfl, rfl⟩
        · exact .of_eq rfl
        · intro _ t' published
          show Changes ui registered s'.users t'.users
          rw [published.publish]
          exact changes_delete (actsFor_of_admin allowed) id

theorem always_changeApi {id : UserIdentifier} {change : User → UserProgram User}
    {event : User → App.UserEvent} (changes : ∀ user s, (change user).Always Users.Step s fun u t =>
      t.users = s.users ∧ u.identifier = user.identifier ∧
        u.webAuthnCredentialList = user.webAuthnCredentialList) (s : Users.World) :
    (Manager.changeApi ui id change event).Always Users.Step s fun _ t =>
      Changes ui registered s.users t.users := by
  unfold Manager.changeApi
  intro answer s' read
  obtain ⟨rfl, stored⟩ := read.getUser
  cases answer with
  | error err =>
    show Always _ (if !err.is .notFound then _ else _) _ _
    split
    · exact .of_eq rfl
    · exact .of_eq rfl
  | ok user =>
    have found := stored user rfl
    dsimp only [Program.bind]
    cases allowed : Manager.validateApiChange ui user with
    | error err => exact .of_eq rfl
    | ok _ =>
      have own : ui.id = user.identifier := by
        rw [Manager.validateApiChange, rejectIf_eq_ok] at allowed
        simpa using allowed
      have key : user.identifier = id := Table.key_of_find found
      refine (changes user s').bind fun changed t made => ?_
      obtain ⟨same, named, kept⟩ := made
      refine (always_repoSaveUser changed.identifier changed.copyCalculatedAttributes).bind
        fun r t' saves => ?_
      cases r with
      | error err => exact .of_eq ((saves : t'.users = t.users).trans same)
      | ok u =>
        obtain ⟨⟨now, now', rfl⟩, after⟩ := saves
        intro _ v updated _ w announced
        have quiet : w.users = t'.users := announced.publish.trans updated.publish
        show Changes ui registered s'.users w.users
        rw [quiet, after, same]
        refine changes_store (.inr (own.trans named.symm)) ?_
        show Change _ (held s'.users changed.identifier) (changed.webAuthnCredentialList.map .of)
        rw [kept, named, key, held_of_find found]
        exact .kept

theorem always_userCall {call : UserCall} (built : FromApi call) (s : Users.World) :
    (call.program m ui).Always Users.Step s fun _ t => Changes ui registered s.users t.users := by
  cases built with
  | updateUser now src => exact (always_updateFromApi now src s).bind fun _ _ h => h
  | createUser now src => exact (always_createFromApi now src s).bind fun _ _ h => h
  | deleteUser id => exact (always_deleteUser id s).bind fun _ _ h => h
  | activateApi id =>
    have changes := @always_changeApi ui registered id (fun user => do
      let now ← UserProgram.issue .timeNow
      let token ← UserProgram.issue .newUuid
      return { user with apiToken := token, apiTokenCreated := some now }) .userApiEnabled
      (fun user s now t read token t' created => ⟨created.newUuid.trans read.timeNow, rfl, rfl⟩) s
    exact changes.bind fun _ _ h => h
  | deactivateApi id =>
    have changes := @always_changeApi ui registered id (fun user =>
      return { user with apiToken := "", apiTokenCreated := none }) .userApiDisabled
      (fun user s => ⟨rfl, rfl, rfl⟩) s
    exact changes.bind fun _ _ h => h

end Calls

theorem always_call (request : Request Response) (s : World) :
    (request.call.program lib m request.ui s.users.users).Always Step s fun letIn t =>
      Changes request.ui (Registers lib s.users.users request) s.users.users t.users.users ∧
      ∀ user, letIn = some user → ∃ sessionData r credential,
        request.call = .loginFinish sessionData r ∧
        LetsIn lib s.users.users sessionData r credential user := by
  obtain ⟨ui, call, circumstances⟩ := request
  cases call with
  | registerStart userId random =>
    exact (always_startWebAuthnRegistration userId random s).bind
      fun _ _ changes => ⟨changes, fun user ok => by cases ok⟩
  | registerFinish userId name sessionData r =>
    refine (always_finishWebAuthnRegistration userId name sessionData r s ?_).bind
      fun _ _ changes => ⟨changes, fun user ok => by cases ok⟩
    intro u n credential found mine active confirmed
    exact ⟨mine, name, sessionData, r, u, n, credential, rfl, found, active, confirmed, rfl⟩
  | removeCredential userId credentialIdBase64 =>
    exact (always_removeCredential userId credentialIdBase64 s).bind
      fun _ _ changes => ⟨changes, fun user ok => by cases ok⟩
  | updateCredential userId credentialIdBase64 name =>
    exact (always_updateCredential userId credentialIdBase64 name s).bind
      fun _ _ changes => ⟨changes, fun user ok => by cases ok⟩
  | loginFinish sessionData r =>
    refine (always_finishLogin sessionData r s).bind fun answer t ended => ?_
    cases answer with
    | error err => exact ⟨.of_eq ended.1, fun user ok => by cases ok⟩
    | ok user' =>
      refine ⟨.of_eq ended.1, fun user ok => ?_⟩
      obtain rfl := Option.some.inj ok
      obtain ⟨credential, letsIn⟩ := ended.2 user' rfl
      exact ⟨sessionData, r, credential, rfl, letsIn⟩
  | manage userCall built =>
    exact (always_managing (always_userCall built s.users)).bind
      fun _ _ ended => ⟨ended.1, fun user ok => by cases ok⟩

theorem serve_changes (lib : WebAuthn Response) (m : Users.Manager) (s : World)
    (request : Request Response) :
    Changes request.ui (Registers lib s.users.users request) s.users.users
      (serve lib m s request).2.users.users :=
  (@eval_of_always s request.circumstances 0 _ _ _ (always_call request s)).1

theorem serve_letsIn {request : Request Response} {user : User}
    (letIn : (serve lib m s request).1 = some user) : ∃ sessionData r credential,
      request.call = .loginFinish sessionData r ∧
      LetsIn lib s.users.users sessionData r credential user :=
  (@eval_of_always s request.circumstances 0 _ _ _ (always_call request s)).2 user letIn

/-- A user has held the passkey from the start on, or since a request that has registered it. -/
def Origin (lib : WebAuthn Response) (m : Users.Manager) (s : World)
    (requests : List (Request Response)) (id : UserIdentifier) (k : Passkey) : Prop :=
  (∀ early, early <+: requests → k ∈ held (serveAll lib m s early).users.users id) ∨
    ∃ before request after, requests = before ++ request :: after ∧
      Registers lib (serveAll lib m s before).users.users request id k ∧
      ∀ early, early <+: after →
        k ∈ held (serveAll lib m s (before ++ request :: early)).users.users id

theorem origin_of_held (s : World) {requests : List (Request Response)}
    (inside : k ∈ held (serveAll lib m s requests).users.users id) :
    Origin lib m s requests id k := by
  have only : ∀ t request, k ∈ held (serve lib m t request).2.users.users id →
      k ∈ held t.users.users id ∨ Registers lib t.users.users request id k :=
    fun t request inside => ((serve_changes lib m t request).change id).mem inside
  exact holds_since (P := fun t => k ∈ held t.users.users id) only s requests inside

/-- A user has each credential once. -/
def Distinct (users : Table User.identifier) : Prop :=
  ∀ id, ((held users id).map Passkey.credentialId).Nodup

theorem serveAll_distinct (lib : WebAuthn Response) (m : Users.Manager) {s : World}
    (distinct : Distinct s.users.users) (requests : List (Request Response)) :
    Distinct (serveAll lib m s requests).users.users := by
  induction requests generalizing s with
  | nil => exact distinct
  | cons request requests ih =>
    exact ih fun id => ((serve_changes lib m s request).change id).distinct (distinct id)

/-- Accepts every answer for the credential that it names. -/
def trusting : WebAuthn (List UInt8) where
  beginRegistration _ _ := .ok "challenge"
  finishRegistration _ _ id := .ok ⟨id, id⟩
  beginDiscoverableLogin _ := .ok "challenge"
  parseDiscoverableLogin _ id := .ok id
  validateLogin _ _ id := .ok ⟨id, id⟩

def plainManager : Users.Manager := ⟨0, fun hash password => hash = password, fun _ => true, .ok⟩

def alice : User := { User.zero with identifier := "alice", webAuthnId := "id" }

def registering : Request (List UInt8) :=
  ⟨⟨"alice", false⟩, .registerFinish "alice" "key" "challenge" [1], fun _ => ⟨1, none, ""⟩⟩

def loggingIn : Request (List UInt8) :=
  ⟨⟨"", false⟩, .loginFinish "challenge" [1], fun _ => ⟨2, none, ""⟩⟩

def onlyAlice : World := ⟨⟨Table.empty.upsert alice, Adapters.Db.empty, []⟩, [], []⟩

/-- However requests about users and passkeys come, and whatever fails meanwhile: a passkey lets
in the active user who holds it, after the library has validated it, and it comes from a
registration by that user or an admin, since which the user has held it, if it was not there from
the start. -/
theorem passkeyLogin_origin (lib : WebAuthn Response) (m : Users.Manager) (s : World)
    (requests : List (Request Response)) (request : Request Response) (user : User)
    (letIn : (serve lib m (serveAll lib m s requests) request).1 = some user) :
    ∃ sessionData r credential, request.call = .loginFinish sessionData r ∧
      LetsIn lib (serveAll lib m s requests).users.users sessionData r credential user ∧
      ∃ k, k.credentialIdentifier = encodeStd credential.id ∧
        k ∈ held (serveAll lib m s requests).users.users user.identifier ∧
        Origin lib m s requests user.identifier k := by
  obtain ⟨sessionData, r, credential, call, letsIn⟩ := serve_letsIn letIn
  obtain ⟨k, inside, named⟩ := held_of_owner letsIn.holds
  exact ⟨sessionData, r, credential, call, letsIn, k, named, inside, origin_of_held s inside⟩

theorem alice_letIn :
    (serve trusting plainManager (serveAll trusting plainManager onlyAlice [registering])
      loggingIn).1.isSome = true := by
  decide +kernel

theorem alicePasskey_origin : ∃ user sessionData r credential,
    loggingIn.call = .loginFinish sessionData r ∧
      LetsIn trusting (serveAll trusting plainManager onlyAlice [registering]).users.users
        sessionData r credential user ∧
      ∃ k, k.credentialIdentifier = encodeStd credential.id ∧
        k ∈ held (serveAll trusting plainManager onlyAlice [registering]).users.users
          user.identifier ∧
        Origin trusting plainManager onlyAlice [registering] user.identifier k := by
  obtain ⟨user, letIn⟩ := Option.isSome_iff_exists.mp alice_letIn
  exact ⟨user, passkeyLogin_origin trusting plainManager onlyAlice [registering] loggingIn user
    letIn⟩

end WgPortal.Auth.PasskeyRuns
