import WgPortal.Auth.ActiveUsers
import WgPortal.Auth.Passkeys
import WgPortal.Library.Observation

/-! The sessions of version 0 over whole runs: who is logged in, and by which login. -/

namespace WgPortal.Api

open Domain Library Users Auth
open WireGuard (MapOrder)

namespace Portal

variable {Response : Type} (p : Portal) (browser : String)

def handleWebAuthnLoginStart (lib : WebAuthn Response) (random : List UInt8) :
    Option String × Portal :=
  match lib.startWebAuthnLogin random with
  | .error _ => (none, p)
  | .ok sessionData =>
    (some sessionData, p.setData browser { p.sessions browser with webAuthnData := sessionData })

/-- `handleWebAuthnLoginFinish` with the library: the session data is cleared in any case. -/
def finishWebAuthn (lib : WebAuthn Response) (credentials : String → Option UserIdentifier)
    (r : Response) (circumstances : ℕ → Circumstance) : Option User × Portal :=
  let webAuthnSessionData := (p.sessions browser).webAuthnData
  let p := p.setData browser { p.sessions browser with webAuthnData := "" }
  p.login browser (lib.finishLogin credentials webAuthnSessionData r) circumstances

/-- For the user whom `LoggedIn` has admitted -/
def handleWebAuthnRegisterStart (lib : WebAuthn Response) (m : Users.Manager)
    (random : List UInt8) (circumstances : ℕ → Circumstance) (ui : ContextUserInfo) :
    Option String × Portal :=
  let userIdentifier := (p.sessions browser).userIdentifier
  match (lib.startWebAuthnRegistration m ui userIdentifier random).run circumstances p.auth with
  | (.error _, auth) => (none, { p with auth := auth })
  | (.ok sessionData, auth) =>
    let p := { p with auth := auth }
    (some sessionData, p.setData browser { p.sessions browser with webAuthnData := sessionData })

def handleWebAuthnRegisterFinish (lib : WebAuthn Response) (m : Users.Manager) (name : String)
    (r : Response) (circumstances : ℕ → Circumstance) (ui : ContextUserInfo) :
    Except Error (List UserWebauthnCredential) × Portal :=
  let webAuthnSessionData := (p.sessions browser).webAuthnData
  let p := p.setData browser { p.sessions browser with webAuthnData := "" }
  let userIdentifier := (p.sessions browser).userIdentifier
  let (result, auth) := (lib.finishWebAuthnRegistration m ui userIdentifier name
    webAuthnSessionData r).run circumstances p.auth
  (result, { p with auth := auth })

end Portal

namespace V0

/-- What a handler answers behind `LoggedIn` -/
def behind {α : Type} (scopes : List Scope) (browser : String) (circumstances : ℕ → Circumstance)
    (handler : ContextUserInfo → Portal → α × Portal) (p : Portal) : Except ApiError α × Portal :=
  match loggedIn scopes browser circumstances p with
  | (.error err, p) => (.error err, p)
  | (.ok ui, p) =>
    let (answer, p) := handler ui p
    (.ok answer, p)

/-- The error of a session whose user is not valid any more. -/
def sessionGone : ApiError := ⟨401, "session no longer available"⟩

end V0

end WgPortal.Api

namespace WgPortal.Api.Sessions

open Domain Library Users Auth
open WireGuard (MapOrder)

structure Services (Response : Type) where
  authenticator : Authenticator
  /-- none if passkeys are not enabled -/
  webAuthn : Option (WebAuthn Response)

inductive Request (Response : Type) where
  | loginPost (order : MapOrder (String × AuthenticatorLdap)) (username password : String)
  /-- the state and the nonce are those of `OauthLoginStep1` -/
  | oauthInitiate (provider state nonce returnTo : String)
  | oauthCallback (provider oauthState oauthCode : String)
  | webAuthnLoginStart (random : List UInt8)
  | webAuthnLoginFinish (credentials : String → Option UserIdentifier) (r : Response)
  | webAuthnRegisterStart (random : List UInt8) (later : ℕ → Circumstance)
  | webAuthnRegisterFinish (name : String) (r : Response) (later : ℕ → Circumstance)
  | logout
  /-- any other request; what it does to the stored users is left open -/
  | other (scopes : List Scope) (effect : ContextUserInfo → Auth.World → Auth.World)

inductive Action (Response : Type) where
  | call (browser : String) (request : Request Response) (circumstances : ℕ → Circumstance)
  /-- whatever else happens to the stored users -/
  | change (users : Users.World)

variable {Response : Type}

/-- The pattern of the route does not match without a provider. -/
def Request.Routed : Request Response → Prop
  | oauthCallback provider .. => provider ≠ ""
  | _ => True

def Action.Routed : Action Response → Prop
  | call _ request _ => request.Routed
  | change _ => True

variable (s : Services Response)

def serve (p : Portal) (browser : String) (c : ℕ → Circumstance) : Request Response → Portal
  | .loginPost order username password =>
    (p.handleLoginPost browser s.authenticator order username password c).2
  | .oauthInitiate provider state nonce returnTo =>
    p.handleOauthInitiateGet browser provider state nonce returnTo
  | .oauthCallback provider oauthState oauthCode =>
    (p.handleOauthCallbackGet browser s.authenticator provider oauthState oauthCode c).2
  | .webAuthnLoginStart random =>
    match s.webAuthn with
    | none => p
    | some lib => (p.handleWebAuthnLoginStart browser lib random).2
  | .webAuthnLoginFinish credentials r =>
    match s.webAuthn with
    | none => p
    | some lib => (p.finishWebAuthn browser lib credentials r c).2
  | .webAuthnRegisterStart random later =>
    match s.webAuthn with
    | none => (V0.behind [] browser c (fun _ p => ((), p)) p).2
    | some lib =>
      (V0.behind [] browser c (fun ui p =>
        p.handleWebAuthnRegisterStart browser lib s.authenticator.users random later ui) p).2
  | .webAuthnRegisterFinish name r later =>
    match s.webAuthn with
    | none => (V0.behind [] browser c (fun _ p => ((), p)) p).2
    | some lib =>
      (V0.behind [] browser c (fun ui p =>
        p.handleWebAuthnRegisterFinish browser lib s.authenticator.users name r later ui) p).2
  | .logout => V0.handleLogoutPost browser c p
  | .other scopes effect =>
    (V0.behind scopes browser c (fun ui p => ((), { p with auth := effect ui p.auth })) p).2

def next (p : Portal) : Action Response → Portal
  | .call browser request c => serve s p browser c request
  | .change users => { p with auth := { p.auth with users := users } }

/-- No browser has a session yet. -/
def start (users : Users.World) : Portal := ⟨Auth.start users, fun _ => defaultSessionData⟩

def reached (users : Users.World) (history : List (Action Response)) : Portal :=
  history.foldl (next s) (start users)

/-- What a session tells of its user -/
structure Person where
  identifier : String
  isAdmin : Bool
  firstname : String
  lastname : String
  email : String
deriving DecidableEq

def Person.of (user : User) : Person :=
  ⟨user.identifier, user.isAdmin, user.firstname, user.lastname, user.email⟩

/-- What a browser took along to its provider; the nonce is in the token that comes back. -/
structure Pending where
  provider : String
  state : String
  nonce : String
deriving DecidableEq

inductive Way where
  | password
  | callback (pending : Pending)
  | passkey (sessionData : String)
deriving DecidableEq

inductive Event where
  | issued (pending : Pending)
  | challenged (sessionData : String)
  /-- the challenge is used up -/
  | consumed
  | entered (way : Way) (person : Person)
  | ended
deriving DecidableEq

/-- What a session is for: empty texts stand for what is not there. -/
structure Status where
  person : Option Person
  pending : Pending
  challenge : String
deriving DecidableEq

namespace Status

def initial : Status := ⟨none, ⟨"", "", ""⟩, ""⟩

/-- A login needs a session without a user, except with a passkey, and what was issued for it. -/
def Allows (status : Status) : Event → Prop
  | .issued _ => status.person = none
  | .challenged _ => True
  | .consumed => True
  | .entered .password _ => status.person = none
  | .entered (.callback pending) _ =>
    status.person = none ∧ status.pending = pending ∧ pending.provider ≠ ""
  | .entered (.passkey sessionData) _ => status.challenge = sessionData ∧ sessionData ≠ ""
  | .ended => status.person ≠ none

instance (status : Status) : (event : Event) → Decidable (status.Allows event)
  | .issued _ => inferInstanceAs (Decidable (status.person = none))
  | .challenged _ => .isTrue trivial
  | .consumed => .isTrue trivial
  | .entered .password _ => inferInstanceAs (Decidable (status.person = none))
  | .entered (.callback pending) _ =>
    inferInstanceAs (Decidable (status.person = none ∧ status.pending = pending ∧
      pending.provider ≠ ""))
  | .entered (.passkey sessionData) _ =>
    inferInstanceAs (Decidable (status.challenge = sessionData ∧ sessionData ≠ ""))
  | .ended => inferInstanceAs (Decidable (status.person ≠ none))

def after (status : Status) : Event → Status
  | .issued pending => { status with pending := pending }
  | .challenged sessionData => { status with challenge := sessionData }
  | .consumed => { status with challenge := "" }
  | .entered _ person => ⟨some person, initial.pending, initial.challenge⟩
  | .ended => initial

def next (status : Status) (event : Event) : Option Status :=
  if status.Allows event then some (status.after event) else none

/-- The status that a session stands for -/
def ofSession (session : SessionData) : Status :=
  { person :=
      if session.loggedIn then
        some ⟨session.userIdentifier, session.isAdmin, session.firstname, session.lastname,
          session.email⟩
      else none
    pending := ⟨session.oauthProvider, session.oauthState, session.oauthNonce⟩
    challenge := session.webAuthnData }

end Status

def entry (way : Way) (user : Option User) : List Event :=
  (user.map fun user => Event.entered way (.of user)).toList

def challenge (sessionData : Option String) : List Event :=
  (sessionData.map Event.challenged).toList

/-- What the answer of `LoggedIn`, or of the handler behind it, tells of the session. -/
def admission {α : Type} (answered : α → List Event) : Except ApiError α → List Event
  | .error err => if err = V0.sessionGone then [.ended] else []
  | .ok answer => answered answer

/-- The answers to a request, read as events of its session. -/
def answers (p : Portal) (browser : String) (c : ℕ → Circumstance) : Request Response → List Event
  | .loginPost order username password =>
    entry .password (p.handleLoginPost browser s.authenticator order username password c).1
  | .oauthInitiate provider state nonce _ =>
    if (p.sessions browser).loggedIn then [] else [.issued ⟨provider, state, nonce⟩]
  | .oauthCallback provider oauthState oauthCode =>
    entry (.callback ⟨provider, oauthState, (p.sessions browser).oauthNonce⟩)
      (p.handleOauthCallbackGet browser s.authenticator provider oauthState oauthCode c).1
  | .webAuthnLoginStart random =>
    match s.webAuthn with
    | none => []
    | some lib => challenge (p.handleWebAuthnLoginStart browser lib random).1
  | .webAuthnLoginFinish credentials r =>
    match s.webAuthn with
    | none => []
    | some lib =>
      match (p.finishWebAuthn browser lib credentials r c).1 with
      | none => [.consumed]
      | some user => [.entered (.passkey (p.sessions browser).webAuthnData) (.of user)]
  | .webAuthnRegisterStart random later =>
    match s.webAuthn with
    | none => admission (fun _ => []) (V0.behind [] browser c (fun _ p => ((), p)) p).1
    | some lib =>
      admission challenge (V0.behind [] browser c (fun ui p =>
        p.handleWebAuthnRegisterStart browser lib s.authenticator.users random later ui) p).1
  | .webAuthnRegisterFinish name r later =>
    match s.webAuthn with
    | none => admission (fun _ => []) (V0.behind [] browser c (fun _ p => ((), p)) p).1
    | some lib =>
      admission (fun _ => [.consumed]) (V0.behind [] browser c (fun ui p =>
        p.handleWebAuthnRegisterFinish browser lib s.authenticator.users name r later ui) p).1
  | .logout => admission (fun _ => [.ended]) (V0.loggedIn [] browser c p).1
  | .other scopes effect =>
    admission (fun _ => []) (V0.behind scopes browser c (fun ui p =>
      ((), { p with auth := effect ui p.auth })) p).1

/-- What an action shows of the session of a browser -/
def shown (browser : String) (p : Portal) : Action Response → List Event
  | .call other request c => if other = browser then answers s p browser c request else []
  | .change _ => []

/-- The events of the session of a browser, over a whole history. -/
def events (users : Users.World) (history : List (Action Response)) (browser : String) :
    List Event :=
  observed (next s) (shown s browser) (start users) history

variable {s} {p q : Portal} {browser : String} {c : ℕ → Circumstance}

/-- How a request of a browser may end: at most one event, which its session allows. -/
inductive Outcome (browser : String) (p : Portal) : List Event → Portal → Prop
  | kept {q : Portal} (same : q.sessions = p.sessions) : Outcome browser p [] q
  | moved {q : Portal} {event : Event} {value : SessionData}
    (allowed : (Status.ofSession (p.sessions browser)).Allows event)
    (shows : Status.ofSession value = (Status.ofSession (p.sessions browser)).after event)
    (written : q.sessions = Function.update p.sessions browser value) :
    Outcome browser p [event] q

theorem person_ofSession {session : SessionData} :
    (Status.ofSession session).person = none ↔ session.loggedIn = false := by
  cases loggedIn : session.loggedIn <;> simp [Status.ofSession, loggedIn]

/-- The session that a login starts -/
def freshSession (user : User) : SessionData :=
  { defaultSessionData with
    loggedIn := true
    isAdmin := user.isAdmin
    userIdentifier := user.identifier
    firstname := user.firstname
    lastname := user.lastname
    email := user.email }

theorem outcome_login {way : Way} {prog : AuthProgram (Except Error User)} {value : SessionData}
    (cleared : q.sessions = Function.update p.sessions browser value)
    (allowed : ∀ user auth, prog.run c q.auth = (.ok user, auth) →
      (Status.ofSession (p.sessions browser)).Allows (.entered way (.of user))) {user : User}
    (admitted : (q.login browser prog c).1 = some user) :
    Outcome browser p [.entered way (.of user)] (q.login browser prog c).2 := by
  unfold Portal.login at admitted ⊢
  split at admitted
  · cases admitted
  · rename_i user' auth run
    obtain rfl : user' = user := Option.some.inj admitted
    refine @Outcome.moved _ _ _ _ (freshSession user') (allowed user' auth run) rfl ?_
    simp only [Portal.setAuthenticatedUser, Portal.destroyData, Portal.setData, cleared,
      Function.update_self, Function.update_idem]
    rfl

theorem sessions_login_none {prog : AuthProgram (Except Error User)}
    (denied : (q.login browser prog c).1 = none) :
    (q.login browser prog c).2.sessions = q.sessions := by
  unfold Portal.login at denied ⊢
  split at denied
  · rfl
  · cases denied

/-- A login that needs a session without a user. -/
theorem outcome_entry {way : Way} {prog : AuthProgram (Except Error User)}
    (allowed : ∀ person, (Status.ofSession (p.sessions browser)).Allows (.entered way person)) :
    Outcome browser p (entry way (p.login browser prog c).1) (p.login browser prog c).2 := by
  cases admitted : (p.login browser prog c).1 with
  | none => exact .kept (sessions_login_none admitted)
  | some user =>
    exact outcome_login (Function.update_eq_self browser p.sessions).symm
      (fun user _ _ => allowed (.of user)) admitted

/-- How `LoggedIn` may end -/
inductive Admission (browser : String) (p : Portal) :
    Except ApiError ContextUserInfo → Portal → Prop
  | refused {err : ApiError} {q : Portal} (other : err ≠ V0.sessionGone)
    (same : q.sessions = p.sessions) : Admission browser p (.error err) q
  | gone {q : Portal} (loggedIn : (p.sessions browser).loggedIn = true)
    (written : q.sessions = Function.update p.sessions browser defaultSessionData) :
    Admission browser p (.error V0.sessionGone) q
  | admitted {ui : ContextUserInfo} {q : Portal} (loggedIn : (p.sessions browser).loggedIn = true)
    (same : q.sessions = p.sessions) : Admission browser p (.ok ui) q

theorem admission_loggedIn (scopes : List Scope) (browser : String) (c : ℕ → Circumstance)
    (p : Portal) : Admission browser p (V0.loggedIn scopes browser c p).1
      (V0.loggedIn scopes browser c p).2 := by
  unfold V0.loggedIn
  dsimp only
  split
  · exact .refused (by decide) rfl
  · rename_i loggedIn
    have loggedIn : (p.sessions browser).loggedIn = true := by simpa using loggedIn
    split
    · exact .refused (by decide) rfl
    · split
      · exact .gone loggedIn rfl
      · exact .admitted loggedIn rfl

/-- An event of a session that `LoggedIn` has found logged in. -/
theorem outcome_ended (loggedIn : (p.sessions browser).loggedIn = true)
    (written : q.sessions = Function.update p.sessions browser defaultSessionData) :
    Outcome browser p [.ended] q := by
  refine .moved (fun none => ?_) rfl written
  rw [person_ofSession, loggedIn] at none
  cases none

/-- A session in which only the challenge is written. -/
theorem written_webAuthnData {sessionData : String} (same : q.sessions = p.sessions) :
    (q.setData browser { q.sessions browser with webAuthnData := sessionData }).sessions =
      Function.update p.sessions browser
        { p.sessions browser with webAuthnData := sessionData } := by
  rw [Portal.setData, same]

theorem outcome_challenged {sessionData : String}
    (written : q.sessions = Function.update p.sessions browser
      { p.sessions browser with webAuthnData := sessionData }) :
    Outcome browser p [.challenged sessionData] q := .moved trivial rfl written

theorem outcome_consumed
    (written : q.sessions = Function.update p.sessions browser
      { p.sessions browser with webAuthnData := "" }) :
    Outcome browser p [.consumed] q := .moved trivial rfl written

theorem outcome_admission {α : Type} {answered : α → List Event} (scopes : List Scope)
    {handler : ContextUserInfo → Portal → α × Portal}
    (handles : ∀ ui q, q.sessions = p.sessions → (p.sessions browser).loggedIn = true →
      Outcome browser p (answered (handler ui q).1) (handler ui q).2) :
    Outcome browser p (admission answered (V0.behind scopes browser c handler p).1)
      (V0.behind scopes browser c handler p).2 := by
  have ended := admission_loggedIn scopes browser c p
  unfold V0.behind
  generalize V0.loggedIn scopes browser c p = result at ended
  obtain ⟨r, q⟩ := result
  cases ended with
  | refused other same =>
    simp only [admission, if_neg other]
    exact .kept same
  | gone loggedIn written =>
    simp only [admission, if_true]
    exact outcome_ended loggedIn written
  | @admitted ui _ loggedIn same => exact handles ui q same loggedIn

theorem outcome_logout (p : Portal) :
    Outcome browser p (admission (fun _ => [.ended]) (V0.loggedIn [] browser c p).1)
      (V0.handleLogoutPost browser c p) := by
  have ended := admission_loggedIn [] browser c p
  unfold V0.handleLogoutPost
  generalize V0.loggedIn [] browser c p = result at ended
  obtain ⟨r, q⟩ := result
  cases ended with
  | refused other same =>
    simp only [admission, if_neg other]
    exact .kept same
  | gone loggedIn written =>
    simp only [admission, if_true]
    exact outcome_ended loggedIn written
  | admitted loggedIn same =>
    have still : (!(q.sessions browser).loggedIn) = false := by rw [same, loggedIn]; rfl
    simp only [admission, still]
    refine outcome_ended loggedIn ?_
    rw [← same]
    rfl

theorem outcome_finishWebAuthn (lib : WebAuthn Response)
    (credentials : String → Option UserIdentifier) (r : Response) (p : Portal) :
    Outcome browser p
      (match (p.finishWebAuthn browser lib credentials r c).1 with
        | none => [.consumed]
        | some user => [.entered (.passkey (p.sessions browser).webAuthnData) (.of user)])
      (p.finishWebAuthn browser lib credentials r c).2 := by
  cases admitted : (p.finishWebAuthn browser lib credentials r c).1 with
  | none => exact outcome_consumed ((sessions_login_none admitted).trans rfl)
  | some user =>
    have present : ∀ user auth, (lib.finishLogin credentials (p.sessions browser).webAuthnData
        r).run c p.auth = (.ok user, auth) → (p.sessions browser).webAuthnData ≠ "" := by
      intro user auth run missing
      rw [missing] at run
      cases run
    have allowed : ∀ user auth, (lib.finishLogin credentials (p.sessions browser).webAuthnData
        r).run c p.auth = (.ok user, auth) → (Status.ofSession (p.sessions browser)).Allows
          (.entered (.passkey (p.sessions browser).webAuthnData) (.of user)) :=
      fun user auth run => ⟨rfl, present user auth run⟩
    exact @outcome_login p (p.setData browser { p.sessions browser with webAuthnData := "" })
      browser c _ _ _ rfl allowed user admitted

theorem outcome_registerStart (lib : WebAuthn Response) (m : Users.Manager) (random : List UInt8)
    (later : ℕ → Circumstance) (ui : ContextUserInfo) (same : q.sessions = p.sessions) :
    Outcome browser p
      (challenge (q.handleWebAuthnRegisterStart browser lib m random later ui).1)
      (q.handleWebAuthnRegisterStart browser lib m random later ui).2 := by
  unfold Portal.handleWebAuthnRegisterStart
  dsimp only
  split
  · exact .kept same
  · exact outcome_challenged (written_webAuthnData same)

theorem outcome_answers {request : Request Response} (routed : request.Routed) (p : Portal) :
    Outcome browser p (answers s p browser c request) (serve s p browser c request) := by
  cases request with
  | loginPost order username password =>
    simp only [answers, serve, Portal.handleLoginPost]
    split
    · exact .kept rfl
    · rename_i loggedOut
      exact outcome_entry fun _ => person_ofSession.mpr (Bool.eq_false_iff.mpr loggedOut)
  | oauthInitiate provider state nonce returnTo =>
    simp only [answers, serve, Portal.handleOauthInitiateGet]
    split
    · exact .kept rfl
    · rename_i loggedOut
      exact .moved (person_ofSession.mpr (Bool.eq_false_iff.mpr loggedOut)) rfl rfl
  | oauthCallback provider oauthState oauthCode =>
    simp only [answers, serve, Portal.handleOauthCallbackGet]
    split
    · exact .kept rfl
    · rename_i loggedOut
      split
      · exact .kept rfl
      · rename_i sameProvider
        split
        · exact .kept rfl
        · rename_i sameState
          refine outcome_entry fun _ =>
            ⟨person_ofSession.mpr (Bool.eq_false_iff.mpr loggedOut), ?_, routed⟩
          simp only [Status.ofSession, not_not.mp sameProvider, not_not.mp sameState]
  | webAuthnLoginStart random =>
    simp only [answers, serve]
    split
    · exact .kept rfl
    · unfold Portal.handleWebAuthnLoginStart
      split
      · exact .kept rfl
      · exact outcome_challenged rfl
  | webAuthnLoginFinish credentials r =>
    simp only [answers, serve]
    split
    · exact .kept rfl
    · exact outcome_finishWebAuthn _ credentials r p
  | webAuthnRegisterStart random later =>
    simp only [answers, serve]
    split
    · exact outcome_admission [] fun _ _ same _ => .kept same
    · exact outcome_admission [] fun ui q same _ => outcome_registerStart _ _ random later ui same
  | webAuthnRegisterFinish name r later =>
    simp only [answers, serve]
    split
    · exact outcome_admission [] fun _ _ same _ => .kept same
    · refine outcome_admission [] fun ui q same _ => outcome_consumed ?_
      exact written_webAuthnData same
  | logout => exact outcome_logout p
  | other scopes effect => exact outcome_admission scopes fun _ _ same _ => .kept same

theorem Outcome.shows {shown : List Event} (outcome : Outcome browser p shown q) :
    shown.length ≤ 1 ∧ runFrom Status.next (.ofSession (p.sessions browser)) shown =
      some (.ofSession (q.sessions browser)) := by
  cases outcome with
  | kept same => exact ⟨Nat.zero_le 1, by rw [same]; rfl⟩
  | moved allowed shows written =>
    refine ⟨Nat.le_refl 1, ?_⟩
    rw [runFrom, Status.next, if_pos allowed, written, Function.update_self, shows]
    rfl

/-- The other sessions are left alone. -/
theorem Outcome.frame {shown : List Event} (outcome : Outcome browser p shown q) {other : String}
    (different : other ≠ browser) : q.sessions other = p.sessions other := by
  cases outcome with
  | kept same => rw [same]
  | moved allowed shows written => rw [written, Function.update_of_ne different]

/-- One action is, for the session of a browser, what it shows of it. -/
theorem runFrom_shown (browser : String) (p : Portal) {action : Action Response}
    (routed : action.Routed) :
    runFrom Status.next (.ofSession (p.sessions browser)) (shown s browser p action) =
      some (.ofSession ((next s p action).sessions browser)) := by
  cases action with
  | change users => rfl
  | call other request c =>
    have outcome := @outcome_answers Response s other c request routed p
    simp only [shown, next]
    split
    · rename_i same
      subst same
      exact outcome.shows.2
    · rename_i different
      rw [outcome.frame (Ne.symm different)]
      rfl

/-- Over every history, the answers that a browser gets form a run of the status of its session,
which begins without a user and ends with what the session holds. -/
theorem runFrom_events (users : Users.World) {history : List (Action Response)}
    (routed : ∀ action ∈ history, action.Routed) (browser : String) :
    runFrom Status.next .initial (events s users history browser) =
      some (.ofSession ((reached s users history).sessions browser)) := by
  have each : ∀ (p : Portal) (action : Action Response), action.Routed →
      runFrom Status.next (.ofSession (p.sessions browser)) (shown s browser p action) =
        some (.ofSession ((next s p action).sessions browser)) :=
    fun p _ routed => runFrom_shown browser p routed
  exact runFrom_observed each (start users) history routed

namespace Status

def WritesPerson : Event → Prop
  | .entered .. => True
  | .ended => True
  | _ => False

def WritesPending : Event → Prop
  | .issued _ => True
  | event => WritesPerson event

def WritesChallenge : Event → Prop
  | .challenged _ => True
  | .consumed => True
  | event => WritesPerson event

variable {status status' : Status} {event : Event} {labels : List Event}

theorem next_eq_some (taken : status.next event = some status') :
    status.Allows event ∧ status' = status.after event := by
  unfold next at taken
  split at taken
  · rename_i allowed
    exact ⟨allowed, (Option.some.inj taken).symm⟩
  · cases taken

theorem person_next (taken : status.next event = some status') (framed : ¬ WritesPerson event) :
    status'.person = status.person := by
  rw [(next_eq_some taken).2]
  cases event with
  | entered way person => exact absurd trivial framed
  | ended => exact absurd trivial framed
  | _ => rfl

theorem pending_next (taken : status.next event = some status') (framed : ¬ WritesPending event) :
    status'.pending = status.pending := by
  rw [(next_eq_some taken).2]
  cases event with
  | challenged sessionData => rfl
  | consumed => rfl
  | _ => exact absurd trivial framed

theorem challenge_next (taken : status.next event = some status')
    (framed : ¬ WritesChallenge event) : status'.challenge = status.challenge := by
  rw [(next_eq_some taken).2]
  cases event with
  | issued pending => rfl
  | _ => exact absurd trivial framed

/-- A user has come with a login that no other login and no end has followed. -/
theorem entered_of_person (run : runFrom next initial labels = some status) {person : Person}
    (present : status.person = some person) :
    ∃ before way after before', labels = before ++ .entered way person :: after ∧
      (∀ event ∈ after, ¬ WritesPerson event) ∧ runFrom next initial before = some before' ∧
      before'.Allows (.entered way person) := by
  have framed : ∀ s e t, next s e = some t → ¬ WritesPerson e → t.person = s.person :=
    fun _ _ _ => person_next
  rcases runFrom_lastWriter framed run with ⟨_, same⟩ | ⟨before, event, after,
    before', entered, split, written, last, run', taken, same⟩
  · rw [present] at same
    cases same
  · obtain ⟨allowed, rfl⟩ := next_eq_some taken
    rw [present] at same
    cases event with
    | entered way person' =>
      obtain rfl : person = person' := Option.some.inj same
      exact ⟨before, way, after, before', split, last, run', allowed⟩
    | ended => cases same
    | _ => cases written

/-- What is pending was issued, and nobody has logged in or out since then. -/
theorem issued_of_pending (run : runFrom next initial labels = some status)
    (present : status.pending.provider ≠ "") :
    ∃ before after, labels = before ++ .issued status.pending :: after ∧
      ∀ event ∈ after, ¬ WritesPending event := by
  have framed : ∀ s e t, next s e = some t → ¬ WritesPending e → t.pending = s.pending :=
    fun _ _ _ => pending_next
  rcases runFrom_lastWriter framed run with ⟨_, same⟩ | ⟨before, event, after,
    before', issued, split, written, last, run', taken, same⟩
  · rw [same] at present
    exact absurd rfl present
  · obtain ⟨_, rfl⟩ := next_eq_some taken
    cases event with
    | issued pending =>
      obtain rfl : status.pending = pending := same
      exact ⟨before, after, split, last⟩
    | challenged sessionData => cases written
    | consumed => cases written
    | _ => exact absurd (congrArg Pending.provider same) present

/-- The same for a challenge, which is used once. -/
theorem challenged_of_challenge (run : runFrom next initial labels = some status)
    (present : status.challenge ≠ "") :
    ∃ before after, labels = before ++ .challenged status.challenge :: after ∧
      ∀ event ∈ after, ¬ WritesChallenge event := by
  have framed : ∀ s e t, next s e = some t → ¬ WritesChallenge e → t.challenge = s.challenge :=
    fun _ _ _ => challenge_next
  rcases runFrom_lastWriter framed run with ⟨_, same⟩ | ⟨before, event,
    after, before', challenged, split, written, last, run', taken, same⟩
  · exact absurd same present
  · obtain ⟨_, rfl⟩ := next_eq_some taken
    cases event with
    | challenged sessionData =>
      obtain rfl : status.challenge = sessionData := same
      exact ⟨before, after, split, last⟩
    | issued pending => cases written
    | _ => exact absurd same present

end Status

/-- What the browser was given before a login, and has not used since. -/
def Earned (before : List Event) : Way → Prop
  | .password => True
  | .callback pending => ∃ first between, before = first ++ .issued pending :: between ∧
    ∀ event ∈ between, ¬ Status.WritesPending event
  | .passkey sessionData => ∃ first between,
    before = first ++ .challenged sessionData :: between ∧
      ∀ event ∈ between, ¬ Status.WritesChallenge event

theorem earned_of_allows {before : List Event} {status : Status} {way : Way} {person : Person}
    (run : runFrom Status.next .initial before = some status)
    (allowed : status.Allows (.entered way person)) : Earned before way := by
  cases way with
  | password => trivial
  | callback pending =>
    obtain ⟨_, rfl, present⟩ := allowed
    exact Status.issued_of_pending run present
  | passkey sessionData =>
    obtain ⟨rfl, present⟩ := allowed
    exact Status.challenged_of_challenge run present

theorem length_shown (p : Portal) {action : Action Response} (routed : action.Routed) :
    (shown s browser p action).length ≤ 1 := by
  cases action with
  | change users => exact Nat.zero_le 1
  | call other request c =>
    simp only [shown]
    split
    · rename_i same
      subst same
      exact (@outcome_answers Response s other c request routed p).shows.1
    · exact Nat.zero_le 1

/-- A request of the browser started its session, with the user whom the session shows; nobody
has logged in or out since, and what the login needed was issued to the same browser before. -/
def Originates (s : Services Response) (users : Users.World) (history : List (Action Response))
    (browser : String) : Prop :=
  ∃ before request c after way person,
    history = before ++ .call browser request c :: after ∧
    answers s (reached s users before) browser c request = [.entered way person] ∧
    Earned (events s users before browser) way ∧
    (∀ event ∈ observed (next s) (shown s browser)
      (serve s (reached s users before) browser c request) after, ¬ Status.WritesPerson event) ∧
    (Status.ofSession ((reached s users history).sessions browser)).person = some person

def sampleOauth : AuthenticatorOauth where
  getName := "sso"
  exchange _ := .ok "token"
  getUserInfo _ _ := .ok fun _ => none
  parseUserInfo _ := .ok ⟨"bob", "bob@example", "Bob", "Builder", "", "", false⟩
  registrationEnabled := true
  getAllowedDomains := []

def sampleServices : Services Unit where
  authenticator :=
    { sampleAuthenticator with oauthAuthenticators := Table.empty.upsert ("sso", sampleOauth) }
  webAuthn := none

/-- A browser comes back from its provider, while another one tries its luck. -/
def throughProvider : List (Action Unit) :=
  [.call "one" (.oauthInitiate "sso" "state" "nonce" "") calm,
    .call "two" (.oauthCallback "sso" "state" "code") calm,
    .call "one" (.oauthCallback "sso" "state" "code") calm]

end WgPortal.Api.Sessions
