import WgPortal.Api.RequestRights
import WgPortal.Library.Base64

/-! The tokens that protect the sessions of version 0 against forged requests. -/

namespace WgPortal.Api.Csrf

open Domain Library Auth RequestRights

def encodeToken (token : List UInt8) : String := String.ofList (Base64.encode Base64.url token)

def decodeToken (token : String) : Option (List UInt8) := Base64.decode Base64.url token.toList

/-- The key and the masked token; without a key of the same length it panics. -/
def maskToken (token key : List UInt8) : Option (List UInt8) :=
  if token.length ≠ key.length then none
  else some (key ++ List.zipWith (· ^^^ ·) token key)

def unmaskToken (masked : List UInt8) : List UInt8 :=
  let tokenLength := masked.length / 2
  List.zipWith (· ^^^ ·) (masked.take tokenLength) ((masked.drop tokenLength).take tokenLength)

def tokenEqual (a b : String) : Bool :=
  match decodeToken a with
  | none => false
  | some decodedA =>
    match decodeToken b with
    | none => false
    | some decodedB => unmaskToken decodedA = unmaskToken decodedB

/-- What the middleware looks at; what is not there is empty. -/
structure HttpRequest where
  method : String
  header : String → String
  query : String → String
  formValue : String → String

/-- The header, the other header, the query and the form, in this order. -/
def defaultTokenGetter (r : HttpRequest) : String :=
  if r.header "X-CSRF-TOKEN" ≠ "" then r.header "X-CSRF-TOKEN"
  else if r.header "X-XSRF-TOKEN" ≠ "" then r.header "X-XSRF-TOKEN"
  else if r.query "_csrf" ≠ "" then r.query "_csrf"
  else if r.formValue "_csrf" ≠ "" then r.formValue "_csrf"
  else ""

structure Options where
  tokenLength : ℕ
  ignoreMethods : List String
  /-- what the error handler responds -/
  errCallback : ApiError
  tokenGetter : HttpRequest → String

def defaultOptions : Options := ⟨32, ["GET", "HEAD", "OPTIONS"], ⟨403, "CSRF token mismatch"⟩,
  defaultTokenGetter⟩

variable (o : Options)

/-- `Middleware.Handler`: whether the request goes on to the next handler -/
def Options.handler (storedToken : String) (r : HttpRequest) : Except ApiError Unit :=
  if r.method ∈ o.ignoreMethods then .ok ()
  else if !tokenEqual (o.tokenGetter r) storedToken then .error o.errCallback
  else .ok ()

/-- The token and the key that are made up have the right length. -/
abbrev Token := Vector UInt8 o.tokenLength

/-- `Middleware.RefreshToken`, on the token of the context and the one of the session -/
def Options.refreshToken (token key : Token o) (context stored : String) : String × String :=
  if context ≠ "" then (context, stored)
  else
    match maskToken token.toList key.toList with
    | none => (context, stored)
    | some maskedToken => (encodeToken maskedToken, encodeToken maskedToken)

inductive Action where
  /-- `GET /csrf` -/
  | refresh (browser context : String) (token key : Token o)
  /-- whatever else happens -/
  | portal (label : RequestRights.Action × (ℕ → Users.Circumstance))

variable {o}

def next (a : Authenticator) (s : State) : Action o → State
  | .refresh browser context token key =>
    let session := s.portal.sessions browser
    let (_, stored) := o.refreshToken token key context session.csrfToken
    { s with portal := s.portal.setData browser { session with csrfToken := stored } }
  | .portal label => RequestRights.next a s label

def reached (a : Authenticator) (users : Users.World) (history : List (Action o)) : State :=
  history.foldl (next a) (start users)

variable (o) in
/-- `RefreshToken` may have written this. -/
def Written (stored : String) : Prop :=
  ∃ token key : Token o, ∃ masked, maskToken token.toList key.toList = some masked ∧
    stored = encodeToken masked

/-- The token unmasks to this value. -/
def Unmasks (token : String) (value : List UInt8) : Prop :=
  ∃ decoded, decodeToken token = some decoded ∧ unmaskToken decoded = value

variable (o) in
/-- The request goes on only with the token of the session, and with every masking of it. -/
structure Protects (stored : String) (r : HttpRequest) : Prop where
  sound : o.handler stored r = .ok () →
    Written o stored ∧ ∃ value, value ≠ [] ∧ Unmasks (o.tokenGetter r) value ∧ Unmasks stored value
  complete : ∀ token key masked, maskToken token key = some masked → stored = encodeToken masked →
    ∀ key' masked', maskToken token key' = some masked' → ∀ r' : HttpRequest,
      o.tokenGetter r' = encodeToken masked' → o.handler stored r' = .ok ()

theorem decode_encodeToken (token : List UInt8) : decodeToken (encodeToken token) = some token := by
  rw [decodeToken, encodeToken, String.toList_ofList, Base64.decode_encode]

theorem zipWith_xor_cancel : ∀ (token key : List UInt8), token.length = key.length →
    List.zipWith (· ^^^ ·) key (List.zipWith (· ^^^ ·) token key) = token := by
  intro token
  induction token with
  | nil =>
    intro key same
    rw [List.zipWith_nil_left, List.zipWith_nil_right]
  | cons a token ih =>
    intro key same
    cases key with
    | nil => cases same
    | cons k key =>
      have twice : k ^^^ (a ^^^ k) = a := by
        rw [UInt8.xor_comm a k, ← UInt8.xor_assoc, UInt8.xor_self, UInt8.zero_xor]
      simp only [List.zipWith_cons_cons, twice, ih key (Nat.succ.inj same)]

theorem unmask_mask {token key masked : List UInt8} (made : maskToken token key = some masked) :
    unmaskToken masked = token := by
  unfold maskToken at made
  split at made
  · cases made
  · rename_i same
    have same : token.length = key.length := not_not.mp same
    have length : (List.zipWith (· ^^^ ·) token key).length = key.length := by
      rw [List.length_zipWith, same, Nat.min_self]
    have half : (key ++ List.zipWith (· ^^^ ·) token key).length / 2 = key.length := by
      rw [List.length_append, length]
      omega
    rw [← Option.some.inj made, unmaskToken, half, List.take_left, List.drop_left,
      List.take_of_length_le (Nat.le_of_eq length)]
    exact zipWith_xor_cancel token key same

theorem unmasks_encode {token key masked : List UInt8}
    (made : maskToken token key = some masked) : Unmasks (encodeToken masked) token :=
  ⟨masked, decode_encodeToken masked, unmask_mask made⟩

theorem tokenEqual_iff {a b : String} :
    tokenEqual a b = true ↔ ∃ value, Unmasks a value ∧ Unmasks b value := by
  unfold tokenEqual Unmasks
  cases decodedA : decodeToken a with
  | none => simp
  | some maskedA =>
    cases decodedB : decodeToken b with
    | none => simp
    | some maskedB =>
      simp only [decide_eq_true_eq]
      constructor
      · exact fun same => ⟨_, ⟨maskedA, rfl, same⟩, maskedB, rfl, rfl⟩
      · rintro ⟨value, ⟨a, sameA, rfl⟩, b, sameB, same⟩
        rw [Option.some.inj sameA, Option.some.inj sameB, same]

theorem Unmasks.unique {token : String} {value value' : List UInt8} (first : Unmasks token value)
    (second : Unmasks token value') : value = value' := by
  obtain ⟨decoded, same, rfl⟩ := first
  obtain ⟨decoded', same', rfl⟩ := second
  rw [Option.some.inj (same.symm.trans same')]

theorem handler_ok_iff {stored : String} {r : HttpRequest} (method : r.method ∉ o.ignoreMethods) :
    o.handler stored r = .ok () ↔
      ∃ value, Unmasks (o.tokenGetter r) value ∧ Unmasks stored value := by
  rw [← tokenEqual_iff, Options.handler, if_neg method]
  cases tokenEqual (o.tokenGetter r) stored <;> simp

theorem length_unmaskToken (masked : List UInt8) :
    (unmaskToken masked).length = masked.length / 2 := by
  rw [unmaskToken, List.length_zipWith, List.length_take, List.length_take, List.length_drop]
  omega

theorem unmasks_nil_iff {token : String} :
    Unmasks token [] ↔ ∃ decoded, decodeToken token = some decoded ∧ decoded.length < 2 := by
  have short : ∀ decoded, unmaskToken decoded = [] ↔ decoded.length < 2 := by
    intro decoded
    rw [← List.length_eq_zero_iff, length_unmaskToken]
    omega
  simp only [Unmasks, short]

theorem unmasks_empty : Unmasks "" [] := ⟨[], rfl, rfl⟩

/-- No session has got a token. -/
def NoneWritten (p q : Portal) : Prop :=
  ∀ browser, (q.sessions browser).csrfToken = (p.sessions browser).csrfToken ∨
    (q.sessions browser).csrfToken = ""

variable {p q : Portal} {browser : String}

theorem noneWritten_of_same (same : q.sessions = p.sessions) : NoneWritten p q :=
  fun browser => .inl (by rw [same])

theorem NoneWritten.setData (none : NoneWritten p q) {value : SessionData}
    (kept : value.csrfToken = (q.sessions browser).csrfToken ∨ value.csrfToken = "") :
    NoneWritten p (q.setData browser value) := by
  intro other
  by_cases here : other = browser
  · subst here
    simp only [Portal.setData, Function.update_self]
    rcases kept with kept | kept
    · rw [kept]
      exact none other
    · exact .inr kept
  · simp only [Portal.setData, Function.update_of_ne here]
    exact none other

theorem NoneWritten.destroyData (none : NoneWritten p q) :
    NoneWritten p (q.destroyData browser) := none.setData (.inr rfl)

theorem NoneWritten.login (none : NoneWritten p q) (prog : AuthProgram (Except Error User))
    (c : ℕ → Users.Circumstance) : NoneWritten p (q.login browser prog c).2 := by
  unfold Portal.login
  split
  · exact none
  · rename_i user auth _
    have moved : NoneWritten p { q with auth := auth } := none
    exact moved.destroyData.setData (.inl rfl)

theorem record_portal (s : State) (browser : String) (result : Option User × Portal) :
    (s.record browser result).portal = result.2 := by
  obtain ⟨user, p⟩ := result
  cases user <;> rfl

/-- A login, a logout and a lost session remove the token, and only `RefreshToken` writes one. -/
theorem noneWritten_next (a : Authenticator) (s : State)
    (label : RequestRights.Action × (ℕ → Users.Circumstance)) :
    NoneWritten s.portal (RequestRights.next a s label).portal := by
  have same : NoneWritten s.portal s.portal := noneWritten_of_same rfl
  obtain ⟨action, c⟩ := label
  cases action with
  | loginPost browser order username password =>
    simp only [RequestRights.next, record_portal, Portal.handleLoginPost]
    split
    · exact same
    · exact same.login _ c
  | oauthInitiate browser provider state nonce returnTo =>
    simp only [RequestRights.next, Portal.handleOauthInitiateGet]
    split
    · exact same
    · exact same.setData (.inl rfl)
  | oauthCallback browser provider oauthState oauthCode =>
    simp only [RequestRights.next, record_portal, Portal.handleOauthCallbackGet]
    split
    · exact same
    · split
      · exact same
      · split
        · exact same
        · exact same.login _ c
  | webAuthnLogin browser credentials credentialId =>
    simp only [RequestRights.next, record_portal, Portal.handleWebAuthnLoginFinish]
    have cleared := @NoneWritten.setData s.portal s.portal browser same
      { s.portal.sessions browser with webAuthnData := "" } (.inl rfl)
    exact cleared.login _ c
  | logout browser =>
    simp only [RequestRights.next, V0.handleLogoutPost]
    have outcome := sessionOutcome [] browser c s.portal
    generalize V0.loggedIn [] browser c s.portal = result at outcome
    obtain ⟨r, q⟩ := result
    cases outcome with
    | refused err same users => exact noneWritten_of_same same
    | closed err same users => exact (noneWritten_of_same same).destroyData
    | admitted same users loggedIn found active =>
      dsimp only
      split
      · exact noneWritten_of_same same
      · exact (noneWritten_of_same same).destroyData
  | request incoming =>
    cases incoming with
    | session scopes browser =>
      simp only [RequestRights.next, Incoming.authenticate]
      have outcome := sessionOutcome scopes browser c s.portal
      generalize V0.loggedIn scopes browser c s.portal = result at outcome
      obtain ⟨r, q⟩ := result
      cases outcome with
      | refused err same users => exact noneWritten_of_same same
      | closed err same users => exact (noneWritten_of_same same).destroyData
      | admitted same users loggedIn found active => exact noneWritten_of_same same
    | basicAuth scopes credentials =>
      simp only [RequestRights.next, Incoming.authenticate]
      have outcome := tokenOutcome scopes credentials c s.portal
      generalize V1.loggedIn scopes credentials c s.portal = result at outcome
      obtain ⟨r, q⟩ := result
      cases outcome with
      | refused err same users => exact noneWritten_of_same same
      | admitted same users given found => exact noneWritten_of_same same
  | change users => exact noneWritten_of_same rfl

theorem written_refreshToken {token key : Token o} {context stored : String}
    (written : stored = "" ∨ Written o stored) :
    (o.refreshToken token key context stored).2 = "" ∨
      Written o (o.refreshToken token key context stored).2 := by
  unfold Options.refreshToken
  split
  · exact written
  · split
    · exact written
    · rename_i masked made
      exact .inr ⟨token, key, masked, made, rfl⟩

/-- After every history, a session holds no token or one that `RefreshToken` has written. -/
theorem written_reached (a : Authenticator) (users : Users.World) (history : List (Action o))
    (browser : String) :
    ((reached a users history).portal.sessions browser).csrfToken = "" ∨
      Written o ((reached a users history).portal.sessions browser).csrfToken := by
  have all : ∀ s : State, (∀ browser, (s.portal.sessions browser).csrfToken = "" ∨
      Written o (s.portal.sessions browser).csrfToken) →
      ∀ browser, ((history.foldl (next a) s).portal.sessions browser).csrfToken = "" ∨
        Written o ((history.foldl (next a) s).portal.sessions browser).csrfToken := by
    induction history with
    | nil => exact fun s written => written
    | cons action history ih =>
      intro s written
      refine ih _ fun other => ?_
      cases action with
      | portal label =>
        rcases noneWritten_next a s label other with kept | removed
        · rw [next, kept]
          exact written other
        · exact .inl removed
      | refresh browser context token key =>
        by_cases here : other = browser
        · subst here
          simp only [next, Portal.setData, Function.update_self]
          exact written_refreshToken (written other)
        · simp only [next, Portal.setData, Function.update_of_ne here]
          exact written other
  exact all (start users) (fun browser => .inl rfl) browser

theorem value_ne_nil {stored : String} {value : List UInt8} (written : Written o stored)
    (present : stored ≠ "") (unmasks : Unmasks stored value) : value ≠ [] := by
  obtain ⟨token, key, masked, made, rfl⟩ := written
  rintro rfl
  have empty : token.toList = [] := (unmasks_encode made).unique unmasks
  have none : key.toList = [] := by
    rw [← List.length_eq_zero_iff, Vector.length_toList, ← token.length_toList, empty]
    rfl
  rw [empty, none] at made
  rw [← Option.some.inj made] at present
  exact present rfl

theorem complete_handler {stored : String} {token key key' masked masked' : List UInt8}
    (made : maskToken token key = some masked) (made' : maskToken token key' = some masked')
    (holds : stored = encodeToken masked) {r : HttpRequest}
    (given : o.tokenGetter r = encodeToken masked') : o.handler stored r = .ok () := by
  by_cases method : r.method ∈ o.ignoreMethods
  · rw [Options.handler, if_pos method]
  · rw [handler_ok_iff method, holds, given]
    exact ⟨token, unmasks_encode made', unmasks_encode made⟩

/-- After every history, the handler protects a session if and only if the session holds a
token, or the request's token does not decode to less than two bytes. -/
theorem handler_protects_iff (o : Options) (a : Authenticator) (users : Users.World)
    (history : List (Action o)) (browser : String) (r : HttpRequest)
    (method : r.method ∉ o.ignoreMethods) :
    Protects o ((reached a users history).portal.sessions browser).csrfToken r ↔
      ((reached a users history).portal.sessions browser).csrfToken ≠ "" ∨
        ∀ decoded, decodeToken (o.tokenGetter r) = some decoded → 2 ≤ decoded.length := by
  have written := written_reached a users history browser
  generalize ((reached a users history).portal.sessions browser).csrfToken = stored at written ⊢
  constructor
  · intro protects
    by_contra neither
    obtain ⟨missing, short⟩ := not_or.mp neither
    obtain rfl := not_not.mp missing
    have unmasks : Unmasks (o.tokenGetter r) [] := by
      rw [unmasks_nil_iff]
      by_contra no
      exact short fun decoded decodes => Nat.le_of_not_lt fun lt => no ⟨decoded, decodes, lt⟩
    have passes : o.handler "" r = .ok () := by
      rw [handler_ok_iff method]
      exact ⟨[], unmasks, unmasks_empty⟩
    obtain ⟨_, value, nonempty, _, stored⟩ := protects.sound passes
    exact nonempty (stored.unique unmasks_empty)
  · intro holds
    refine ⟨fun passes => ?_, fun token key masked made same key' masked' made' r' given =>
      complete_handler made made' same given⟩
    obtain ⟨value, given, unmasks⟩ := (handler_ok_iff method).mp passes
    by_cases missing : stored = ""
    · subst missing
      rw [unmasks.unique unmasks_empty, unmasks_nil_iff] at given
      obtain ⟨decoded, decodes, lt⟩ := given
      have long : ∀ decoded, decodeToken (o.tokenGetter r) = some decoded → 2 ≤ decoded.length :=
        holds.resolve_left fun present => present rfl
      exact absurd (long decoded decodes) (Nat.not_le_of_lt lt)
    · have written : Written o stored := written.resolve_left missing
      exact ⟨written, value, value_ne_nil written missing unmasks, given, unmasks⟩

def postWithout : HttpRequest := ⟨"POST", fun _ => "", fun _ => "", fun _ => ""⟩

/-- The token of the session of `browser` -/
def tokenAfter (history : List (Action defaultOptions)) : String :=
  let s := reached sampleAuthenticator (storedUser false none) history
  (s.portal.sessions "browser").csrfToken

def firstToken : List (Action defaultOptions) :=
  [.refresh "browser" "" (Vector.replicate 32 7) (Vector.replicate 32 9)]

theorem firstToken_protects : Protects defaultOptions (tokenAfter firstToken) postWithout := by
  have present : tokenAfter firstToken ≠ "" := by decide +kernel
  exact (handler_protects_iff defaultOptions sampleAuthenticator (storedUser false none) firstToken
    "browser" postWithout (by decide)).mpr (.inl present)

/-- Without a token in the session, a request without a token goes on. -/
theorem freshSession_unprotected : ¬ Protects defaultOptions (tokenAfter []) postWithout := by
  intro protects
  obtain ⟨_, value, nonempty, _, unmasks⟩ := protects.sound (by decide +kernel)
  exact nonempty (unmasks.unique unmasks_empty)

end WgPortal.Api.Csrf
