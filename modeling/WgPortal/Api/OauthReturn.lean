import WgPortal.Api.WebAuthentication
import WgPortal.Library.Redirect

/-! Where the handlers of the OAuth login send a browser that has named a URL to return to. What a
login does is not their matter. -/

namespace WgPortal.Api.OauthReturn

open Library NetURL

/-- What a session knows of an OAuth login. The URL to return to is any sequence of bytes. -/
structure Session where
  loggedIn : Bool
  oauthState : String
  oauthNonce : String
  oauthProvider : String
  oauthReturnTo : List UInt8

inductive Response where
  | panics
  /-- a redirect to the URL that the browser has named -/
  | returns (location : List UInt8)
  /-- a redirect to the provider -/
  | leaves (authCodeUrl : List UInt8)
  | initiated (authCodeUrl : List UInt8) (state : String)
  | loggedIn (user : Domain.UserIdentifier)
  | refused (status : ℕ) (err : ApiError)
deriving DecidableEq

/-- The path of a request; it is rooted or empty. -/
structure RequestPath where
  text : List UInt8
  rooted : text = [] ∨ text.head? = some '/'.toUInt8

/-- A request to `handleOauthInitiateGet`, but for the return URL. -/
structure InitiateRequest where
  path : RequestPath
  autoRedirect : Bool
  provider : String
  /-- what `OauthLoginStep1` answers: the URL of the provider, the state and the nonce -/
  loginStep1 : Except String (List UInt8 × String × String)

structure CallbackRequest where
  path : RequestPath
  provider : String
  oauthState : String
  /-- what `OauthLoginStep2` answers -/
  loginStep2 : Except String Domain.UserIdentifier

def loginState : List UInt8 := ascii "wgLoginState"

section Handlers

variable (externalUrl : List UInt8)

def isValidReturnUrl (returnUrl : List UInt8) : Bool := externalUrl.isPrefixOf returnUrl

/-- The URL without its query, and the query in which the login has failed. -/
def readReturn (returnTo : List UInt8) : Option (URL × List UInt8) :=
  (parse returnTo).map fun u =>
    ({ u with rawQuery := [] }, (u.query.set loginState (ascii "err")).encode)

/-- The query of a login that has succeeded; the one of the URL is gone. -/
def successParams (returnUrl : URL) : List UInt8 :=
  (returnUrl.query.set loginState (ascii "success")).encode

def redirectToReturn (path : RequestPath) (returnUrl : URL) (returnParams : List UInt8) :
    Response :=
  .returns (redirect path.text (returnUrl.string ++ '?'.toUInt8 :: returnParams))

/-- What happens where the code relies on there being a return URL. -/
def withReturn (read : Option (URL × List UInt8)) (respond : URL → List UInt8 → Response) :
    Response :=
  match read with
  | some (returnUrl, returnParams) => respond returnUrl returnParams
  | none => .panics

/-- The handler once the return URL is read, if there is one. -/
def initiate (read : Option (URL × List UInt8)) (returnTo : List UInt8) (r : InitiateRequest)
    (currentSession : Session) : Response × Session :=
  if currentSession.loggedIn then
    (if r.autoRedirect && isValidReturnUrl externalUrl returnTo then
      withReturn read fun returnUrl _ =>
        redirectToReturn r.path returnUrl (successParams returnUrl)
    else .refused 400 ⟨400, "already logged in"⟩, currentSession)
  else
    match r.loginStep1 with
    | .error err =>
      (if r.autoRedirect && isValidReturnUrl externalUrl returnTo then
        withReturn read (redirectToReturn r.path)
      else .refused 500 ⟨500, err⟩, currentSession)
    | .ok (authCodeUrl, state, nonce) =>
      (if r.autoRedirect then .leaves (redirect r.path.text authCodeUrl)
      else .initiated authCodeUrl state,
      { currentSession with
        oauthState := state
        oauthNonce := nonce
        oauthProvider := r.provider
        oauthReturnTo := returnTo })

def handleOauthInitiateGet (returnTo : List UInt8) (r : InitiateRequest)
    (currentSession : Session) : Response × Session :=
  if returnTo = [] then initiate externalUrl none returnTo r currentSession
  else if !isValidReturnUrl externalUrl returnTo then
    (.refused 400 ⟨400, "invalid return URL"⟩, currentSession)
  else
    match readReturn returnTo with
    | none => (.panics, currentSession)
    | some read => initiate externalUrl (some read) returnTo r currentSession

/-- `setAuthenticatedUser` -/
def authenticated : Session := ⟨true, "", "", "", []⟩

/-- The redirect of a callback, or what it answers without one. -/
def returnOr (path : RequestPath) (read : Option (URL × List UInt8))
    (params : URL → List UInt8 → List UInt8) (otherwise : Response) : Response :=
  match read with
  | some (returnUrl, returnParams) =>
    if isValidReturnUrl externalUrl returnUrl.string then
      redirectToReturn path returnUrl (params returnUrl returnParams)
    else otherwise
  | none => otherwise

/-- The handler once the return URL is read, if there is one. -/
def finish (read : Option (URL × List UInt8)) (r : CallbackRequest) (currentSession : Session) :
    Response × Session :=
  let returnOr := returnOr externalUrl r.path read
  if currentSession.loggedIn then
    (returnOr (fun returnUrl _ => successParams returnUrl)
      (.refused 400 ⟨0, "already logged in"⟩), currentSession)
  else if r.provider ≠ currentSession.oauthProvider then
    (returnOr (fun _ returnParams => returnParams)
      (.refused 400 ⟨400, "invalid oauth provider"⟩), currentSession)
  else if r.oauthState ≠ currentSession.oauthState then
    (returnOr (fun _ returnParams => returnParams)
      (.refused 400 ⟨400, "invalid oauth state"⟩), currentSession)
  else
    match r.loginStep2 with
    | .error err =>
      (returnOr (fun _ returnParams => returnParams) (.refused 401 ⟨401, err⟩), currentSession)
    | .ok user =>
      (returnOr (fun returnUrl _ => successParams returnUrl) (.loggedIn user), authenticated)

def handleOauthCallbackGet (r : CallbackRequest) (currentSession : Session) :
    Response × Session :=
  if currentSession.oauthReturnTo = [] then finish externalUrl none r currentSession
  else
    match readReturn currentSession.oauthReturnTo with
    | none => (.panics, currentSession)
    | some read => finish externalUrl (some read) r currentSession

end Handlers

section Sessions

variable (externalUrl : List UInt8)

/-- The sessions of the portal. Whatever else happens to one does not name a return URL. -/
inductive Reachable : Session → Prop where
  | fresh (s : Session) (unnamed : s.oauthReturnTo = []) : Reachable s
  | initiated (returnTo : List UInt8) (r : InitiateRequest) {s : Session} (before : Reachable s) :
    Reachable (handleOauthInitiateGet externalUrl returnTo r s).2
  | calledBack (r : CallbackRequest) {s : Session} (before : Reachable s) :
    Reachable (handleOauthCallbackGet externalUrl r s).2
  | changed {s t : Session} (same : t.oauthReturnTo = s.oauthReturnTo) (before : Reachable s) :
    Reachable t

/-- A response that does not panic, and that leads to where the portal is if it is a redirect to
the URL that the browser has named. -/
def StaysOnPortal (response : Response) : Prop :=
  match response with
  | .panics => False
  | .returns location => origin location = origin externalUrl
  | _ => True

/-- The handlers do what they should with a return URL: the one that is given it, and the one
that finds it in a session. -/
def OnPortal (returnTo : List UInt8) : Prop :=
  ∀ s, Reachable externalUrl s →
    (∀ r, StaysOnPortal externalUrl (handleOauthInitiateGet externalUrl returnTo r s).1) ∧
      (s.oauthReturnTo = returnTo →
        ∀ r, StaysOnPortal externalUrl (handleOauthCallbackGet externalUrl r s).1)

/-- What a session keeps: no URL to return to, or one that was accepted and could be read. -/
def Accepted (returnTo : List UInt8) : Prop :=
  returnTo = [] ∨ externalUrl <+: returnTo ∧ ∃ u, parse returnTo = some u

/-- A URL without a host whose path is written so that it is read as one. -/
def Exposes (u : URL) : Prop :=
  u.Unhosted ∧ Origin.of u.scheme (hostPort u.escapedPath) ≠ Origin.of u.scheme []

/-- A return URL that is accepted can be read, leads to the portal and still does when it is
written again. The missing one is not accepted. -/
def Harmless (returnTo : List UInt8) : Prop :=
  externalUrl <+: returnTo →
    returnTo ≠ [] ∧ ∃ u, parse returnTo = some u ∧
      origin returnTo = origin externalUrl ∧ ¬ Exposes u

variable {externalUrl} {returnTo : List UInt8} {u : URL}

theorem isValidReturnUrl_iff :
    isValidReturnUrl externalUrl returnTo = true ↔ externalUrl <+: returnTo :=
  List.isPrefixOf_iff_prefix

theorem readReturn_eq (parsed : parse returnTo = some u) :
    readReturn returnTo =
      some ({ u with rawQuery := [] }, (u.query.set loginState (ascii "err")).encode) := by
  rw [readReturn, parsed, Option.map_some]

theorem readReturn_eq_none : readReturn returnTo = none ↔ parse returnTo = none :=
  Option.map_eq_none_iff

/-- Where a browser is sent depends on the URL, not on what is told about the login. -/
theorem origin_redirectToReturn (path : RequestPath) (read : u.ReadFrom returnTo)
    (params : List UInt8) :
    origin (redirect path.text
        (URL.string { u with rawQuery := [] } ++ '?'.toUInt8 :: params)) =
      Origin.of u.scheme (if u.Unhosted then hostPort u.escapedPath else u.host) := by
  have formed : URL.WellFormed { u with rawQuery := [] } :=
    ⟨read.1.scheme, read.1.opaquePart, read.1.path⟩
  rw [origin, reading_redirect path.rooted, reading_append _ (by decide), reading_string formed]
  rfl

theorem origin_returnTo (parsed : parse returnTo = some u) :
    origin returnTo = Origin.of u.scheme u.host := by
  rw [origin, reading_eq parsed]

theorem origin_of_not_exposes (parsed : parse returnTo = some u) (hidden : ¬ Exposes u) :
    Origin.of u.scheme (if u.Unhosted then hostPort u.escapedPath else u.host) =
      origin returnTo := by
  rw [origin_returnTo parsed]
  split
  · rename_i unhosted
    rw [unhosted.2.1]
    exact not_not.mp fun other => hidden ⟨unhosted, other⟩
  · rfl

/-- Where the URL has no host, a beginning of it has none. -/
theorem reading_of_unhosted (unhosted : u.Unhosted) (read : u.ReadFrom returnTo)
    (begins : externalUrl <+: returnTo) : (reading externalUrl).2 = [] := by
  obtain ⟨more, rfl⟩ := begins
  have longer := authority_splitScheme_prefix externalUrl more
  rw [authority_of_readFrom unhosted read, List.prefix_nil] at longer
  rw [reading, hostPort, longer]
  rfl

/-- A URL that begins as the portal's does exposes nothing if it leads to the portal. -/
theorem not_exposes_of_origin (read : u.ReadFrom returnTo) (begins : externalUrl <+: returnTo)
    (same : Origin.of u.scheme (if u.Unhosted then hostPort u.escapedPath else u.host) =
      origin externalUrl) : ¬ Exposes u := by
  rintro ⟨unhosted, exposed⟩
  rw [if_pos unhosted, origin, reading_of_unhosted unhosted read begins] at same
  have scheme : u.scheme = (reading externalUrl).1 := congrArg Origin.scheme same
  rw [← scheme] at same
  exact exposed same

theorem oauthReturnTo_initiate (externalUrl : List UInt8) (read : Option (URL × List UInt8))
    (r : InitiateRequest) (s : Session) :
    (initiate externalUrl read returnTo r s).2.oauthReturnTo = s.oauthReturnTo ∨
      (initiate externalUrl read returnTo r s).2.oauthReturnTo = returnTo := by
  rw [initiate]
  split
  · exact .inl rfl
  · split
    · exact .inl rfl
    · exact .inr rfl

theorem oauthReturnTo_finish (externalUrl : List UInt8) (read : Option (URL × List UInt8))
    (r : CallbackRequest) (s : Session) :
    (finish externalUrl read r s).2.oauthReturnTo = s.oauthReturnTo ∨
      (finish externalUrl read r s).2.oauthReturnTo = [] := by
  simp only [finish]
  split
  · exact .inl rfl
  · split
    · exact .inl rfl
    · split
      · exact .inl rfl
      · split
        · exact .inl rfl
        · exact .inr rfl

theorem accepted_initiate (r : InitiateRequest) {s : Session}
    (accepted : Accepted externalUrl s.oauthReturnTo) :
    Accepted externalUrl (handleOauthInitiateGet externalUrl returnTo r s).2.oauthReturnTo := by
  have next (read : Option (URL × List UInt8)) (given : Accepted externalUrl returnTo) :
      Accepted externalUrl (initiate externalUrl read returnTo r s).2.oauthReturnTo := by
    rcases oauthReturnTo_initiate externalUrl read r s with same | same
    · rwa [same]
    · rwa [same]
  rw [handleOauthInitiateGet]
  split
  · rename_i missing
    exact next none (.inl missing)
  · split
    · exact accepted
    · rename_i valid
      rw [Bool.not_eq_true', Bool.not_eq_false, isValidReturnUrl_iff] at valid
      split
      · exact accepted
      · rename_i read found
        obtain ⟨u, parsed, _⟩ := Option.map_eq_some_iff.mp found
        exact next (some read) (.inr ⟨valid, u, parsed⟩)

theorem accepted_callback (r : CallbackRequest) {s : Session}
    (accepted : Accepted externalUrl s.oauthReturnTo) :
    Accepted externalUrl (handleOauthCallbackGet externalUrl r s).2.oauthReturnTo := by
  have next (read : Option (URL × List UInt8)) :
      Accepted externalUrl (finish externalUrl read r s).2.oauthReturnTo := by
    rcases oauthReturnTo_finish externalUrl read r s with same | none
    · rwa [same]
    · exact .inl none
  rw [handleOauthCallbackGet]
  split
  · exact next none
  · split
    · exact accepted
    · exact next _

/-- Whatever happens, a session only keeps what was accepted. -/
theorem Reachable.accepted {s : Session} (reachable : Reachable externalUrl s) :
    Accepted externalUrl s.oauthReturnTo := by
  induction reachable with
  | fresh s unnamed => exact .inl unnamed
  | initiated returnTo r _ ih => exact accepted_initiate r ih
  | calledBack r _ ih => exact accepted_callback r ih
  | changed same _ ih => rwa [same]

/-- The redirect to a harmless URL. -/
theorem staysOnPortal_redirect (path : RequestPath) (parsed : parse returnTo = some u)
    (same : origin returnTo = origin externalUrl) (hidden : ¬ Exposes u) (params : List UInt8) :
    StaysOnPortal externalUrl (redirectToReturn path { u with rawQuery := [] } params) := by
  change origin _ = origin externalUrl
  rw [origin_redirectToReturn path (readFrom_of_parse parsed),
    origin_of_not_exposes parsed hidden, same]

/-- Nothing is named where there is no return URL, unless the empty one is accepted. -/
theorem staysOnPortal_initiate_none (refused : ¬ externalUrl <+: returnTo) (r : InitiateRequest)
    (s : Session) : StaysOnPortal externalUrl (initiate externalUrl none returnTo r s).1 := by
  have invalid : isValidReturnUrl externalUrl returnTo = false :=
    Bool.eq_false_iff.mpr (mt isValidReturnUrl_iff.mp refused)
  rw [initiate, invalid, Bool.and_false, if_neg Bool.false_ne_true]
  split
  · trivial
  · split
    · trivial
    · cases r.autoRedirect <;> trivial

theorem staysOnPortal_initiate_some {returnUrl : URL} (returnParams : List UInt8)
    (stays : ∀ path params, StaysOnPortal externalUrl (redirectToReturn path returnUrl params))
    (r : InitiateRequest) (s : Session) :
    StaysOnPortal externalUrl
      (initiate externalUrl (some (returnUrl, returnParams)) returnTo r s).1 := by
  rw [initiate]
  split
  · change StaysOnPortal externalUrl (if _ then _ else _)
    split
    · exact stays _ _
    · trivial
  · split
    · change StaysOnPortal externalUrl (if _ then _ else _)
      split
      · exact stays _ _
      · trivial
    · cases r.autoRedirect <;> trivial

theorem staysOnPortal_returnOr {read : Option (URL × List UInt8)}
    (stays : ∀ returnUrl ∈ read.map Prod.fst, ∀ path params,
      StaysOnPortal externalUrl (redirectToReturn path returnUrl params))
    (path : RequestPath) (params : URL → List UInt8 → List UInt8) {otherwise : Response}
    (other : StaysOnPortal externalUrl otherwise) :
    StaysOnPortal externalUrl (returnOr externalUrl path read params otherwise) := by
  cases read with
  | none => exact other
  | some named =>
    rw [returnOr]
    split
    · exact stays _ rfl path _
    · exact other

theorem staysOnPortal_finish {read : Option (URL × List UInt8)}
    (stays : ∀ returnUrl ∈ read.map Prod.fst, ∀ path params,
      StaysOnPortal externalUrl (redirectToReturn path returnUrl params))
    (r : CallbackRequest) (s : Session) :
    StaysOnPortal externalUrl (finish externalUrl read r s).1 := by
  simp only [finish]
  split
  · exact staysOnPortal_returnOr stays _ _ trivial
  · split
    · exact staysOnPortal_returnOr stays _ _ trivial
    · split
      · exact staysOnPortal_returnOr stays _ _ trivial
      · split
        · exact staysOnPortal_returnOr stays _ _ trivial
        · exact staysOnPortal_returnOr stays _ _ trivial

theorem onPortal_of_harmless (harmless : Harmless externalUrl returnTo) :
    OnPortal externalUrl returnTo := by
  intro s reachable
  constructor
  · intro r
    rw [handleOauthInitiateGet]
    split
    · rename_i missing
      exact staysOnPortal_initiate_none (fun begins => (harmless begins).1 missing) r s
    · split
      · trivial
      · rename_i valid
        rw [Bool.not_eq_true', Bool.not_eq_false, isValidReturnUrl_iff] at valid
        obtain ⟨_, u, parsed, same, hidden⟩ := harmless valid
        rw [readReturn_eq parsed]
        exact staysOnPortal_initiate_some _
          (fun path params => staysOnPortal_redirect path parsed same hidden params) r s
  · rintro rfl r
    rw [handleOauthCallbackGet]
    rcases reachable.accepted with missing | ⟨begins, u, parsed⟩
    · rw [if_pos missing]
      exact staysOnPortal_finish (fun _ none => by cases none) r s
    · obtain ⟨named, u, parsed, same, hidden⟩ := harmless begins
      rw [if_neg named, readReturn_eq parsed]
      refine staysOnPortal_finish (fun returnUrl read path params => ?_) r s
      cases read
      exact staysOnPortal_redirect path parsed same hidden params

/-- The request of a browser that is logged in already and wants to return at once. -/
def comeBack : InitiateRequest where
  path := ⟨ascii "/", .inr rfl⟩
  autoRedirect := true
  provider := ""
  loginStep1 := .error ""

def someone : Session := ⟨true, "", "", "", []⟩

theorem harmless_of_onPortal (onPortal : OnPortal externalUrl returnTo) :
    Harmless externalUrl returnTo := by
  intro begins
  have stays := (onPortal someone (.fresh someone rfl)).1 comeBack
  have valid : isValidReturnUrl externalUrl returnTo = true := isValidReturnUrl_iff.mpr begins
  have returning (read : Option (URL × List UInt8)) :
      (initiate externalUrl read returnTo comeBack someone).1 =
        withReturn read fun returnUrl _ =>
          redirectToReturn comeBack.path returnUrl (successParams returnUrl) := by
    simp [initiate, someone, comeBack, valid]
  rw [handleOauthInitiateGet] at stays
  by_cases missing : returnTo = []
  · rw [if_pos missing, returning] at stays
    exact stays.elim
  · rw [if_neg missing, valid, if_neg (by decide)] at stays
    cases parsed : parse returnTo with
    | none =>
      rw [readReturn_eq_none.mpr parsed] at stays
      exact stays.elim
    | some u =>
      have read := readFrom_of_parse parsed
      rw [readReturn_eq parsed] at stays
      simp only [returning] at stays
      change origin _ = origin externalUrl at stays
      rw [origin_redirectToReturn _ read] at stays
      have hidden := not_exposes_of_origin read begins stays
      rw [origin_of_not_exposes parsed hidden] at stays
      exact ⟨missing, u, rfl, stays, hidden⟩

/-- The handlers do what they should with exactly the harmless return URLs. -/
theorem onPortal_iff : OnPortal externalUrl returnTo ↔ Harmless externalUrl returnTo :=
  ⟨harmless_of_onPortal, onPortal_of_harmless⟩

/-- The name of the portal goes on in a foreign one. -/
theorem longerHost_not_onPortal :
    ¬ OnPortal (ascii "https://wg.example.org") (ascii "https://wg.example.org.evil.com") := by
  intro onPortal
  obtain ⟨_, _, _, same, _⟩ := harmless_of_onPortal onPortal (by decide)
  exact absurd same (by decide +kernel)

end Sessions

end WgPortal.Api.OauthReturn
