import WgPortal.Api.WebAuthentication
import WgPortal.Auth.Takeover

/-! Whether requests run with the rights that the store gives their users at that time. -/

namespace WgPortal.Auth

open Domain Library Users Program
open AuthProgram (issue managing)
open WireGuard (MapOrder)

/-- A user who comes back is stored, and an admin exactly if the stored one is. -/
def Returned (r : Except Error User) (t : World) : Prop :=
  ∀ u, r = .ok u → ∃ stored, t.users.users.find u.identifier = some stored ∧
    stored.isAdmin = u.isAdmin

variable {a : Authenticator} {s t : World} {userInfo : AuthenticatorUserInfo} {source : UserSource}

theorem returned_error (err : Error) : Returned (.error err) t := fun _ ok => by cases ok

theorem returned_counted {id : UserIdentifier} {old : User} (n : ℕ)
    (found : t.users.users.find id = some old) : Returned (.ok (counted old n)) t := by
  intro u ok
  rw [← Except.ok.inj ok]
  have key : old.identifier = id := Table.key_of_find found
  exact ⟨old, (congrArg _ key).trans found, rfl⟩

theorem Returned.after {r : Except Error User} {t' : World} (returned : Returned r t)
    (same : t'.users = t.users) : Returned r t' := by
  intro u ok
  rw [same]
  exact returned u ok

theorem Processed.returned {users : Table User.identifier} {r : Except Error User}
    (processed : Processed userInfo source users r t.users.users) : Returned r t := by
  generalize after : t.users.users = users' at processed
  cases processed with
  | failed err => exact returned_error err
  | registered new named active =>
    intro v ok
    rw [← Except.ok.inj ok, after]
    exact ⟨_, find_store_self users _, rfl⟩
  | idle n found inactive => exact returned_counted n (after ▸ found)
  | same n found active own => exact returned_counted n (after ▸ found)
  | updated found active own named locked disabled kept password =>
    intro v ok
    rw [← Except.ok.inj ok, after]
    exact ⟨_, find_store_self users _, rfl⟩

theorem Step.authenticate {provider : AuthenticatorLdap} {id : UserIdentifier} {password : String}
    {answer : Except Error Unit} (step : Step (.authenticate provider id password) s answer t) :
    t.users = s.users := by
  obtain ⟨c, run⟩ := step
  have after : t = (AuthOp.exec c (.authenticate provider id password) s).2 := by rw [run]
  rw [after]
  simp only [AuthOp.exec]
  split <;> rfl

theorem always_authenticateStored {order : MapOrder (String × AuthenticatorLdap)} {user : User}
    {identifier : UserIdentifier} {password : String} (returned : Returned (.ok user) s) :
    (a.authenticateStored order user identifier password).Always Step s
      fun r t => Returned r t := by
  unfold Authenticator.authenticateStored
  split
  · exact returned_error _
  · split
    · exact returned_error _
    · split
      · exact returned_error _
      · intro answer t step
        cases answer with
        | error err => exact returned_error _
        | ok _ => exact returned.after step.authenticate
    · split
      · exact returned_error _
      · exact returned
    · exact returned_error _

theorem always_authenticateUnknown {order : MapOrder (String × AuthenticatorLdap)}
    {identifier : UserIdentifier} {password : String} :
    (a.authenticateUnknown order identifier password).Always Step s fun r t => Returned r t := by
  unfold Authenticator.authenticateUnknown
  split
  · exact returned_error _
  · rename_i ldapProvider ldapUserInfo _
    intro answer t step
    cases answer with
    | error err => exact returned_error _
    | ok _ =>
      refine (always_processUserInfo (by decide)).bind fun r t' processed => ?_
      cases r with
      | error err => exact returned_error _
      | ok user => exact processed.1.returned

theorem always_plainLogin (a : Authenticator) (order : MapOrder (String × AuthenticatorLdap))
    (username password : String) (s : World) :
    (a.plainLogin order username password).Always Step s fun r t => Returned r t := by
  unfold Authenticator.plainLogin
  dsimp only
  split
  · exact returned_error _
  · have authenticates : (a.passwordAuthentication order (String.ofList (trimSpace username.toList))
        (String.ofList (trimSpace password.toList))).Always Step s fun r t => Returned r t := by
      unfold Authenticator.passwordAuthentication
      refine (always_managing (Users.always_getUser _)).bind fun r t read => ?_
      obtain ⟨⟨same, stored⟩, kept⟩ := read
      cases r with
      | error err => exact always_authenticateUnknown
      | ok user =>
        obtain ⟨old, n, found, rfl⟩ := stored user rfl
        rw [← same] at found
        exact always_authenticateStored (returned_counted n found)
    refine authenticates.bind fun r t returned => ?_
    cases r with
    | error err => exact fun _ _ _ => returned_error _
    | ok user =>
      intro _ t' first _ t'' second
      exact returned.after (second.publish.trans first.publish)

theorem always_oauthLoginStep2_returned (a : Authenticator) (providerId nonce code : String)
    (s : World) : (a.oauthLoginStep2 providerId nonce code).Always Step s
      fun r t => Returned r t := by
  unfold Authenticator.oauthLoginStep2
  split
  · exact returned_error _
  · split
    · exact returned_error _
    · split
      · exact returned_error _
      · split
        · exact returned_error _
        · split
          · exact returned_error _
          · refine (always_processUserInfo (by decide)).bind fun r t processed => ?_
            cases r with
            | error err => exact fun _ _ _ => returned_error _
            | ok user =>
              have returned : Returned (.ok user) t := processed.1.returned
              refine (always_finishOauthLogin providerId user t).mono fun r t' ended => ?_
              intro u ok
              obtain ⟨rfl, _⟩ := ended.2 u ok
              exact returned.after ended.1 u rfl

theorem always_getUserByWebAuthnCredential (credentials : String → Option UserIdentifier)
    (credentialId : String) (s : Users.World) :
    (Manager.getUserByWebAuthnCredential systemAdminContextUserInfo credentials
      credentialId).Always Users.Step s fun r t => t.users = s.users ∧ ∀ u, r = .ok u →
        ∃ id found n, s.users.find id = some found ∧ u = counted found n := by
  unfold Manager.getUserByWebAuthnCredential
  dsimp only
  split
  · exact ⟨rfl, fun u ok => by cases ok⟩
  · rename_i id _
    intro answer t read
    obtain ⟨rfl, stored⟩ := read.getUser
    cases answer with
    | error err => exact ⟨rfl, fun u ok => by cases ok⟩
    | ok found =>
      intro peers t' counted
      have same : t'.users = t.users := by
        rcases counted.repo with ⟨text, -, rfl⟩ | ⟨now, -, rfl⟩ <;> rfl
      cases peers with
      | error err =>
        exact ⟨same, fun u ok => ⟨id, found, 0, stored found rfl, (Except.ok.inj ok).symm⟩⟩
      | ok peers =>
        exact ⟨same, fun u ok => ⟨id, found, _, stored found rfl, (Except.ok.inj ok).symm⟩⟩

theorem always_finishWebAuthnLogin (credentials : String → Option UserIdentifier)
    (credentialId : String) (s : World) :
    (finishWebAuthnLogin credentials credentialId).Always Step s fun r t => Returned r t := by
  unfold finishWebAuthnLogin
  refine (always_managing (always_getUserByWebAuthnCredential credentials credentialId
    s.users)).bind fun r t read => ?_
  obtain ⟨⟨same, stored⟩, kept⟩ := read
  cases r with
  | error err => exact returned_error _
  | ok user =>
    obtain ⟨id, old, n, found, rfl⟩ := stored user rfl
    rw [← same] at found
    dsimp only
    split
    · exact fun _ _ _ => returned_error _
    · intro _ t' first _ t'' second
      exact (returned_counted n found).after (second.publish.trans first.publish)

/-- Whom `IsUserValid` finds valid is stored and may log in. -/
theorem always_isUserValid (id : UserIdentifier) (s : World) :
    (Authenticator.isUserValid id).Always Step s fun valid t => t.users.users = s.users.users ∧
      (valid = true → ∃ u, s.users.users.find id = some u ∧ Active u) := by
  unfold Authenticator.isUserValid
  refine (always_managing (Users.always_getUser id)).bind fun r t read => ?_
  obtain ⟨⟨same, stored⟩, kept⟩ := read
  cases r with
  | error err => exact ⟨same, fun valid => by cases valid⟩
  | ok user =>
    obtain ⟨old, n, found, rfl⟩ := stored user rfl
    dsimp only
    split
    · exact ⟨same, fun valid => by cases valid⟩
    · rename_i enabled
      split
      · exact ⟨same, fun valid => by cases valid⟩
      · rename_i unlocked
        have active : Active old := ⟨Bool.eq_false_iff.mpr unlocked, Bool.eq_false_iff.mpr enabled⟩
        exact ⟨same, fun _ => ⟨old, found, active⟩⟩

end WgPortal.Auth

namespace WgPortal.Api.RequestRights

open Domain Library Users Auth
open WireGuard (MapOrder)

/-- A request to one of the two versions of the API -/
inductive Incoming where
  | session (scopes : List Scope) (browser : String)
  | basicAuth (scopes : List Scope) (credentials : Option (String × String))

/-- What `LoggedIn` makes of a request -/
def Incoming.authenticate : Incoming → (ℕ → Circumstance) → Portal →
    Except ApiError ContextUserInfo × Portal
  | session scopes browser => V0.loggedIn scopes browser
  | basicAuth scopes credentials => V1.loggedIn scopes credentials

inductive Action where
  | loginPost (browser : String) (order : MapOrder (String × AuthenticatorLdap))
    (username password : String)
  | oauthInitiate (browser provider state nonce returnTo : String)
  | oauthCallback (browser provider oauthState oauthCode : String)
  | webAuthnLogin (browser : String) (credentials : String → Option UserIdentifier)
    (credentialId : String)
  | logout (browser : String)
  | request (incoming : Incoming)
  /-- whatever happens to the stored users -/
  | change (users : Users.World)

/-- `granted` is whether the user of a session was stored as an admin when the session logged
in; no handler sees it. -/
structure State where
  portal : Portal
  granted : String → Option Bool

/-- A login that may have let in a user -/
def State.record (s : State) (browser : String) : Option User × Portal → State
  | (none, p) => { s with portal := p }
  | (some user, p) =>
    ⟨p, Function.update s.granted browser
      ((p.auth.users.users.find user.identifier).map (·.isAdmin))⟩

variable (a : Authenticator)

def next (s : State) : Action × (ℕ → Circumstance) → State
  | (.loginPost browser order username password, c) =>
    s.record browser (s.portal.handleLoginPost browser a order username password c)
  | (.oauthInitiate browser provider state nonce returnTo, _) =>
    { s with portal := s.portal.handleOauthInitiateGet browser provider state nonce returnTo }
  | (.oauthCallback browser provider oauthState oauthCode, c) =>
    s.record browser (s.portal.handleOauthCallbackGet browser a provider oauthState oauthCode c)
  | (.webAuthnLogin browser credentials credentialId, c) =>
    s.record browser (s.portal.handleWebAuthnLoginFinish browser credentials credentialId c)
  | (.logout browser, c) => { s with portal := V0.handleLogoutPost browser c s.portal }
  | (.request incoming, c) => { s with portal := (incoming.authenticate c s.portal).2 }
  | (.change users, _) =>
    { s with portal := { s.portal with auth := { s.portal.auth with users := users } } }

/-- Nobody has logged in yet. -/
def start (users : Users.World) : State :=
  ⟨⟨Auth.start users, fun _ => defaultSessionData⟩, fun _ => none⟩

def reached (users : Users.World) (history : List (Action × (ℕ → Circumstance))) : State :=
  history.foldl (next a) (start users)

/-- The user of the context is stored, may log in, and is an admin exactly if the context
says so. -/
def Rightful (p : Portal) (ui : ContextUserInfo) : Prop :=
  ∃ u, p.auth.users.users.find ui.id = some u ∧ Active u ∧ u.isAdmin = ui.isAdmin

/-- The stored user of a session is an admin now exactly if it was one when the session logged
in, and the stored user of an API token is neither locked nor disabled. -/
def Current (s : State) : Incoming → Prop
  | .session _ browser => ∀ u,
    s.portal.auth.users.users.find (s.portal.sessions browser).userIdentifier = some u →
      s.granted browser = some u.isAdmin
  | .basicAuth _ credentials => ∀ username password u, credentials = some (username, password) →
    s.portal.auth.users.users.find username = some u → Active u

/-- Sessions hold the flag that was stored when they logged in. -/
def Faithful (s : State) : Prop :=
  ∀ browser, (s.portal.sessions browser).loggedIn = true →
    s.granted browser = some (s.portal.sessions browser).isAdmin

variable {a} {s : State} {p : Portal} {browser : String} {c : ℕ → Circumstance}

theorem faithful_setData (faithful : Faithful s) {value : SessionData}
    (kept : value.loggedIn = true → (s.portal.sessions browser).loggedIn = true ∧
      value.isAdmin = (s.portal.sessions browser).isAdmin) :
    Faithful { s with portal := s.portal.setData browser value } := by
  intro other loggedIn
  by_cases here : other = browser
  · subst here
    simp only [Portal.setData, Function.update_self] at loggedIn ⊢
    rw [(kept loggedIn).2]
    exact faithful other (kept loggedIn).1
  · simp only [Portal.setData, Function.update_of_ne here] at loggedIn ⊢
    exact faithful other loggedIn

theorem faithful_destroyData (faithful : Faithful s) :
    Faithful { s with portal := s.portal.destroyData browser } :=
  faithful_setData faithful fun loggedIn => by cases loggedIn

theorem faithful_login {prog : AuthProgram (Except Error User)} (faithful : Faithful s)
    (returned : ∀ t, prog.Always Auth.Step t fun r t' => Returned r t') :
    Faithful (s.record browser (s.portal.login browser prog c)) := by
  have ended : Returned (prog.run c s.portal.auth).1 (prog.run c s.portal.auth).2 :=
    eval_of_always (returned s.portal.auth)
  unfold Portal.login
  generalize prog.run c s.portal.auth = result at ended
  obtain ⟨r, auth⟩ := result
  cases r with
  | error err => exact faithful
  | ok user =>
    obtain ⟨stored, found, flag⟩ := ended user rfl
    intro other loggedIn
    by_cases here : other = browser
    · subst here
      have now : (auth.users.users.find user.identifier).map (·.isAdmin) = some user.isAdmin := by
        rw [found, Option.map_some, flag]
      simp only [State.record, Portal.setAuthenticatedUser, Portal.destroyData, Portal.setData,
        Function.update_self]
      exact now
    · simp only [State.record, Portal.setAuthenticatedUser, Portal.destroyData, Portal.setData,
        Function.update_of_ne here] at loggedIn ⊢
      exact faithful other loggedIn

theorem faithful_same (faithful : Faithful s) {p : Portal} (same : p.sessions = s.portal.sessions) :
    Faithful { s with portal := p } := by
  intro browser loggedIn
  simp only [same] at loggedIn ⊢
  exact faithful browser loggedIn

/-- How `LoggedIn` of version 0 may end -/
inductive SessionOutcome (browser : String) (p : Portal) :
    Except ApiError ContextUserInfo → Portal → Prop
  | refused (err : ApiError) {q : Portal} (same : q.sessions = p.sessions)
    (users : q.auth.users.users = p.auth.users.users) : SessionOutcome browser p (.error err) q
  | closed (err : ApiError) {q : Portal} (same : q.sessions = p.sessions)
    (users : q.auth.users.users = p.auth.users.users) :
    SessionOutcome browser p (.error err) (q.destroyData browser)
  | admitted {q : Portal} {u : User} (same : q.sessions = p.sessions)
    (users : q.auth.users.users = p.auth.users.users)
    (loggedIn : (p.sessions browser).loggedIn = true)
    (found : p.auth.users.users.find (p.sessions browser).userIdentifier = some u)
    (active : Active u) :
    SessionOutcome browser p
      (.ok ⟨(p.sessions browser).userIdentifier, (p.sessions browser).isAdmin⟩) q

theorem sessionOutcome (scopes : List Scope) (browser : String) (c : ℕ → Circumstance)
    (p : Portal) : SessionOutcome browser p (V0.loggedIn scopes browser c p).1
      (V0.loggedIn scopes browser c p).2 := by
  have ended := @eval_of_always p.auth c 0 _ _ _
    (always_isUserValid (p.sessions browser).userIdentifier p.auth)
  unfold V0.loggedIn
  dsimp only
  split
  · exact .refused _ rfl rfl
  · rename_i loggedIn
    split
    · exact .refused _ rfl rfl
    · unfold AuthProgram.run
      generalize (Authenticator.isUserValid (p.sessions browser).userIdentifier).eval
        (Auth.inTurn c) (0, p.auth) = result at ended
      obtain ⟨valid, k, auth⟩ := result
      cases valid with
      | false => exact .closed _ rfl ended.1
      | true =>
        obtain ⟨u, found, active⟩ := ended.2 rfl
        exact .admitted rfl ended.1 (by simpa using loggedIn) found active

/-- How `LoggedIn` of version 1 may end -/
inductive TokenOutcome (credentials : Option (String × String)) (p : Portal) :
    Except ApiError ContextUserInfo → Portal → Prop
  | refused (err : ApiError) {q : Portal} (same : q.sessions = p.sessions)
    (users : q.auth.users.users = p.auth.users.users) : TokenOutcome credentials p (.error err) q
  | admitted {q : Portal} {username password : String} {u : User} (same : q.sessions = p.sessions)
    (users : q.auth.users.users = p.auth.users.users)
    (given : credentials = some (username, password))
    (found : p.auth.users.users.find username = some u) :
    TokenOutcome credentials p (.ok ⟨u.identifier, u.isAdmin⟩) q

theorem tokenOutcome (scopes : List Scope) (credentials : Option (String × String))
    (c : ℕ → Circumstance) (p : Portal) :
    TokenOutcome credentials p (V1.loggedIn scopes credentials c p).1
      (V1.loggedIn scopes credentials c p).2 := by
  unfold V1.loggedIn
  split
  · exact .refused _ rfl rfl
  · rename_i username password
    split
    · exact .refused _ rfl rfl
    · have ended := @eval_of_always p.auth c 0 _ _ _
        (always_managing (@Users.always_getUser systemAdminContextUserInfo _ username))
      unfold AuthProgram.run
      generalize (AuthProgram.managing (Manager.getUser systemAdminContextUserInfo username)).eval
        (Auth.inTurn c) (0, p.auth) = result at ended
      obtain ⟨r, k, auth⟩ := result
      obtain ⟨⟨same, stored⟩, _⟩ := ended
      cases r with
      | error err => exact .refused _ rfl same
      | ok user =>
        obtain ⟨old, n, found, rfl⟩ := stored user rfl
        dsimp only
        split
        · exact .refused _ rfl same
        · split
          · exact .refused _ rfl same
          · exact .admitted (u := old) rfl same rfl found

theorem faithful_next (faithful : Faithful s) (label : Action × (ℕ → Circumstance)) :
    Faithful (next a s label) := by
  obtain ⟨action, c⟩ := label
  cases action with
  | loginPost browser order username password =>
    simp only [next, Portal.handleLoginPost]
    split
    · exact faithful
    · exact faithful_login faithful (always_plainLogin a order username password)
  | oauthInitiate browser provider state nonce returnTo =>
    simp only [next, Portal.handleOauthInitiateGet]
    split
    · exact faithful
    · exact faithful_setData faithful fun loggedIn => ⟨loggedIn, rfl⟩
  | oauthCallback browser provider oauthState oauthCode =>
    simp only [next, Portal.handleOauthCallbackGet]
    split
    · exact faithful
    · split
      · exact faithful
      · split
        · exact faithful
        · exact faithful_login faithful (always_oauthLoginStep2_returned a _ _ _)
  | webAuthnLogin browser credentials credentialId =>
    simp only [next, Portal.handleWebAuthnLoginFinish]
    have cleared := @faithful_setData s browser faithful
      { s.portal.sessions browser with webAuthnData := "" } fun loggedIn => ⟨loggedIn, rfl⟩
    exact faithful_login cleared (always_finishWebAuthnLogin credentials credentialId)
  | logout browser =>
    simp only [next, V0.handleLogoutPost]
    have outcome := sessionOutcome [] browser c s.portal
    generalize V0.loggedIn [] browser c s.portal = result at outcome
    obtain ⟨r, q⟩ := result
    cases outcome with
    | refused err same users => exact faithful_same faithful same
    | closed err same users => exact faithful_destroyData (faithful_same faithful same)
    | admitted same users loggedIn found active =>
      dsimp only
      split
      · exact faithful_same faithful same
      · exact faithful_destroyData (faithful_same faithful same)
  | request incoming =>
    cases incoming with
    | session scopes browser =>
      simp only [next, Incoming.authenticate]
      have outcome := sessionOutcome scopes browser c s.portal
      generalize V0.loggedIn scopes browser c s.portal = result at outcome
      obtain ⟨r, q⟩ := result
      cases outcome with
      | refused err same users => exact faithful_same faithful same
      | closed err same users => exact faithful_destroyData (faithful_same faithful same)
      | admitted same users loggedIn found active => exact faithful_same faithful same
    | basicAuth scopes credentials =>
      simp only [next, Incoming.authenticate]
      have outcome := tokenOutcome scopes credentials c s.portal
      generalize V1.loggedIn scopes credentials c s.portal = result at outcome
      obtain ⟨r, q⟩ := result
      cases outcome with
      | refused err same users => exact faithful_same faithful same
      | admitted same users given found => exact faithful_same faithful same
  | change users => exact faithful_same faithful rfl

theorem faithful_reached (users : Users.World) (history : List (Action × (ℕ → Circumstance))) :
    Faithful (reached a users history) := by
  have all : ∀ s, Faithful s → Faithful (history.foldl (next a) s) := by
    induction history with
    | nil => exact fun s faithful => faithful
    | cons label history ih => exact fun s faithful => ih _ (faithful_next faithful label)
  exact all (start users) fun browser loggedIn => by cases loggedIn

/-- After every history, a request that is admitted runs with the rights of its stored user, if
and only if the flag of its session is still the stored one, or the user of its API token is
neither locked nor disabled. -/
theorem admitted_rightful_iff (a : Authenticator) (users : Users.World)
    (history : List (Action × (ℕ → Circumstance))) (incoming : Incoming) (c : ℕ → Circumstance)
    (ui : ContextUserInfo)
    (admitted : (incoming.authenticate c (reached a users history).portal).1 = .ok ui) :
    Rightful (incoming.authenticate c (reached a users history).portal).2 ui ↔
      Current (reached a users history) incoming := by
  have faithful := @faithful_reached a users history
  generalize reached a users history = s at admitted faithful ⊢
  cases incoming with
  | session scopes browser =>
    simp only [Incoming.authenticate] at admitted ⊢
    have outcome := sessionOutcome scopes browser c s.portal
    generalize V0.loggedIn scopes browser c s.portal = result at admitted outcome ⊢
    obtain ⟨r, q⟩ := result
    cases outcome with
    | refused | closed => cases admitted
    | admitted same stored loggedIn found active =>
      rename_i u
      rw [← Except.ok.inj admitted, Rightful, stored, Current]
      have granted := faithful browser loggedIn
      constructor
      · rintro ⟨u', found', _, flag⟩ u'' found''
        rw [Option.some.inj (found''.symm.trans found'), granted]
        exact congrArg some flag.symm
      · intro current
        refine ⟨u, found, active, ?_⟩
        exact Option.some.inj ((current u found).symm.trans granted)
  | basicAuth scopes credentials =>
    simp only [Incoming.authenticate] at admitted ⊢
    have outcome := tokenOutcome scopes credentials c s.portal
    generalize V1.loggedIn scopes credentials c s.portal = result at admitted outcome ⊢
    obtain ⟨r, q⟩ := result
    cases outcome with
    | refused => cases admitted
    | admitted same stored given found =>
      rename_i username password u
      have key : u.identifier = username := Table.key_of_find found
      rw [← Except.ok.inj admitted, Rightful, stored, Current, key]
      constructor
      · rintro ⟨u', found', active, _⟩ username' password' u'' given' found''
        obtain ⟨rfl, rfl⟩ := Prod.mk.inj (Option.some.inj (given.symm.trans given'))
        rw [Option.some.inj (found''.symm.trans found')]
        exact active
      · exact fun current => ⟨u, found, current username password u given found, rfl⟩

/-- A user with a password and an API token -/
def storedUser (isAdmin : Bool) (disabled : Option Time) : Users.World :=
  ⟨Table.empty.upsert
    { User.zero with
      identifier := "alice"
      source := .database
      password := "secret"
      isAdmin := isAdmin
      disabled := disabled
      apiToken := "token" }, .empty, []⟩

/-- She logs in as an admin, and then her record becomes another one. -/
def loggedInBefore (changed : Users.World) : State :=
  reached sampleAuthenticator (storedUser true none)
    [(.loginPost "browser" ⟨id, fun _ => .refl _⟩ "alice" "secret", Auth.calm),
      (.change changed, Auth.calm)]

/-- Her session runs with her rights as long as these are the same. -/
theorem unchangedAdmin_rightful : Rightful
    ((Incoming.session [.admin] "browser").authenticate Auth.calm
      (loggedInBefore (storedUser true none)).portal).2 ⟨"alice", true⟩ := by
  refine (admitted_rightful_iff sampleAuthenticator (storedUser true none) _
    (.session [.admin] "browser") Auth.calm ⟨"alice", true⟩ (by decide +kernel)).mpr ?_
  intro u found
  have flag : ((loggedInBefore (storedUser true none)).portal.auth.users.users.find
      ((loggedInBefore (storedUser true none)).portal.sessions "browser").userIdentifier).map
        User.isAdmin = some true := by decide +kernel
  have granted : (loggedInBefore (storedUser true none)).granted "browser" = some true := by
    decide +kernel
  have same : some u.isAdmin = some true :=
    (congrArg (Option.map User.isAdmin) found).symm.trans flag
  exact granted.trans same.symm

/-- After her rights are revoked, her session is still that of an admin, and when she is
disabled, her API token is still accepted. -/
theorem changedUser_not_rightful :
    (((Incoming.session [.admin] "browser").authenticate Auth.calm
        (loggedInBefore (storedUser false none)).portal).1 = .ok ⟨"alice", true⟩ ∧
      ¬ Rightful ((Incoming.session [.admin] "browser").authenticate Auth.calm
        (loggedInBefore (storedUser false none)).portal).2 ⟨"alice", true⟩) ∧
    ((Incoming.basicAuth [] (some ("alice", "token"))).authenticate Auth.calm
        (loggedInBefore (storedUser false (some 1))).portal).1 = .ok ⟨"alice", false⟩ ∧
      ¬ Rightful ((Incoming.basicAuth [] (some ("alice", "token"))).authenticate Auth.calm
        (loggedInBefore (storedUser false (some 1))).portal).2 ⟨"alice", false⟩ := by
  refine ⟨⟨by decide +kernel, ?_⟩, by decide +kernel, ?_⟩
  · rintro ⟨u, found, _, flag⟩
    have stored : (((Incoming.session [.admin] "browser").authenticate Auth.calm
        (loggedInBefore (storedUser false none)).portal).2.auth.users.users.find "alice").map
          User.isAdmin = some false := by decide +kernel
    rw [found, Option.map_some, flag] at stored
    cases stored
  · rintro ⟨u, found, active, _⟩
    have stored : (((Incoming.basicAuth [] (some ("alice", "token"))).authenticate Auth.calm
        (loggedInBefore (storedUser false (some 1))).portal).2.auth.users.users.find "alice").map
          User.isDisabled = some true := by decide +kernel
    rw [found, Option.map_some, active.2] at stored
    cases stored

end WgPortal.Api.RequestRights
