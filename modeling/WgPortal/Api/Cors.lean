import WgPortal.Domain.Interface

/-! Which origins may use the API from another site. -/

namespace WgPortal.Api.Cors

open Domain
open Domain.Interface (cutFirst)

/-- `strings.HasPrefix` -/
def hasPrefix (s start : String) : Bool := start.toList.isPrefixOf s.toList

/-- `strings.HasSuffix` -/
def hasSuffix (s tail : String) : Bool := tail.toList.isSuffixOf s.toList

structure Wildcard where
  prefixText : String
  suffixText : String

/-- `wildcard.match`; lengths are in bytes -/
def Wildcard.isMatch (w : Wildcard) (s : String) : Bool :=
  w.prefixText.utf8ByteSize + w.suffixText.utf8ByteSize ≤ s.utf8ByteSize &&
    hasPrefix s w.prefixText && hasSuffix s w.suffixText

def newWildcard (s : String) : Wildcard :=
  match cutFirst '*' s.toList with
  | some (front, back) => ⟨String.ofList front, String.ofList back⟩
  | none => ⟨s, ""⟩

structure Options where
  allowedOrigins : List String
  allowedOriginPatterns : List Wildcard
  allowedMethods : List String
  /-- the keys of the map -/
  allowedHeaders : List String
  exposedHeaders : List String
  allowCredentials : Bool
  allowPrivateNetworks : Bool
  maxAge : Int

/-- The entries that become patterns -/
def isPattern (origin : String) : Bool := 1 < origin.utf8ByteSize && '*' ∈ origin.toList

def withAllowedOrigins (origins : List String) (o : Options) : Options :=
  origins.foldl
    (fun o origin =>
      if isPattern origin then
        { o with allowedOriginPatterns := o.allowedOriginPatterns ++ [newWildcard origin] }
      else { o with allowedOrigins := o.allowedOrigins ++ [origin] })
    { o with allowedOrigins := [], allowedOriginPatterns := [] }

def newOptions (opts : List (Options → Options)) : Options :=
  opts.foldl (fun o opt => opt o)
    { allowedOrigins := ["*"]
      allowedOriginPatterns := []
      allowedMethods := ["HEAD", "GET", "POST", "PUT", "PATCH", "DELETE"]
      allowedHeaders := ["*"]
      exposedHeaders := []
      allowCredentials := false
      allowPrivateNetworks := false
      maxAge := 0 }

structure Middleware where
  o : Options
  varyHeaders : String
  allOrigins : Bool

/-- `New` -/
def newMiddleware (opts : List (Options → Options)) : Middleware :=
  let o := newOptions opts
  let varyHeaders := "Origin, Access-Control-Request-Method, Access-Control-Request-Headers"
  { o := o
    varyHeaders :=
      if o.allowPrivateNetworks then varyHeaders ++ ", Access-Control-Request-Private-Network"
      else varyHeaders
    allOrigins := o.allowedOrigins = ["*"] }

/-- What the middleware looks at; a header that is not there is empty. -/
structure Request where
  method : String
  header : String → String

abbrev Headers := List (String × String)

namespace Headers

def add (w : Headers) (key value : String) : Headers := w ++ [(key, value)]

def set (w : Headers) (key value : String) : Headers := w.filter (·.1 ≠ key) ++ [(key, value)]

def carries (w : Headers) (key : String) : Prop := ∃ entry ∈ w, entry.1 = key

end Headers

namespace Middleware

variable (m : Middleware)

def originAllowed (origin : String) : Bool :=
  if m.o.allowedOrigins = ["*"] then true
  else if origin ∈ m.o.allowedOrigins then true
  else m.o.allowedOriginPatterns.any (·.isMatch origin)

def methodAllowed (method : String) : Bool :=
  if method = "OPTIONS" then true
  else if m.o.allowedMethods = ["*"] then true
  else method ∈ m.o.allowedMethods

def headersAllowed (headers : String) : Bool :=
  if headers = "" then true
  else if m.o.allowedHeaders = [] then false
  else if "*" ∈ m.o.allowedHeaders then true
  else (headers.toList.splitOn ',').all fun header =>
    String.ofList (trimSpace header) ∈ m.o.allowedHeaders

/-- The header that lets the origin read the response -/
def allowOrigin (origin : String) (w : Headers) : Headers :=
  if m.allOrigins then w.set "Access-Control-Allow-Origin" "*"
  else w.set "Access-Control-Allow-Origin" origin

def allowCredentials (w : Headers) : Headers :=
  if m.o.allowCredentials then w.set "Access-Control-Allow-Credentials" "true" else w

def handlePreflight (r : Request) (w : Headers) : Headers :=
  let w := w.add "Vary" m.varyHeaders
  let origin := r.header "Origin"
  if origin = "" then w
  else if !m.originAllowed origin then w
  else
    let reqMethod := r.header "Access-Control-Request-Method"
    if !m.methodAllowed reqMethod then w
    else
      let reqHeaders := r.header "Access-Control-Request-Headers"
      if !m.headersAllowed reqHeaders then w
      else
        let w := (m.allowOrigin origin w).set "Access-Control-Allow-Methods" reqMethod
        let w := if reqHeaders ≠ "" then w.set "Access-Control-Allow-Headers" reqHeaders else w
        let w := m.allowCredentials w
        let w :=
          if m.o.allowPrivateNetworks &&
              r.header "Access-Control-Request-Private-Network" = "true" then
            w.set "Access-Control-Allow-Private-Network" "true"
          else w
        if 0 < m.o.maxAge then w.set "Access-Control-Max-Age" (toString m.o.maxAge) else w

def handleNormal (r : Request) (w : Headers) : Headers :=
  let w := w.add "Vary" "Origin"
  let origin := r.header "Origin"
  if origin = "" then w
  else if !m.originAllowed origin then w
  else if !m.methodAllowed r.method then w
  else
    let w := m.allowOrigin origin w
    let w :=
      if m.o.exposedHeaders ≠ [] then
        w.set "Access-Control-Expose-Headers" (String.intercalate ", " m.o.exposedHeaders)
      else w
    m.allowCredentials w

/-- The headers that are set for a request, and whether the next handler serves it. -/
def handler (r : Request) (w : Headers) : Headers × Bool :=
  if r.method = "OPTIONS" && r.header "Access-Control-Request-Method" ≠ "" then
    (m.handlePreflight r w, false)
  else (m.handleNormal r w, true)

end Middleware

/-- The entry with some text in place of its first `*` -/
def Fits (entry origin : String) : Prop :=
  ∃ front text back, entry = front ++ "*" ++ back ∧ '*' ∉ front.toList ∧
    origin = front ++ text ++ back

def starCount (entry : String) : ℕ := entry.toList.count '*'

/-- What the documentation of the list says about an origin -/
def Documented (origins : List String) (origin : String) : Prop :=
  "*" ∈ origins ∨ origin ∈ origins ∨ ∃ entry ∈ origins, starCount entry = 1 ∧ Fits entry origin

/-- The middleware with this list, whatever the options before it are -/
def withList (opts : List (Options → Options)) (origins : List String) : Middleware :=
  newMiddleware (opts ++ [withAllowedOrigins origins])

/-- Responses name only origins that the list is documented to allow, and these are accepted. -/
structure MatchedAsDocumented (opts : List (Options → Options)) (origins : List String)
    (origin : String) : Prop where
  sound : ∀ (r : Request) (w : Headers), r.header "Origin" = origin →
    ¬ w.carries "Access-Control-Allow-Origin" →
    ((withList opts origins).handler r w).1.carries "Access-Control-Allow-Origin" →
    Documented origins origin
  complete : Documented origins origin → (withList opts origins).originAllowed origin = true

/-- The entries that are compared with an origin as they are -/
def plainOrigins (origins : List String) : List String := origins.filter (!isPattern ·)

/-- Beside a `*` there are only patterns, or another entry allows the origin. No entry with several
`*` fits an origin that is not allowed without it. -/
structure Unambiguous (origins : List String) (origin : String) : Prop where
  star : "*" ∈ origins → plainOrigins origins = ["*"] ∨ origin ∈ origins ∨
    ∃ entry ∈ origins, entry ≠ "*" ∧ Fits entry origin
  several : ∀ entry ∈ origins, 1 < starCount entry → Fits entry origin → Documented origins origin

theorem isMatch_iff (w : Wildcard) (s : String) :
    w.isMatch s = true ↔ ∃ text, s = w.prefixText ++ text ++ w.suffixText := by
  rw [Wildcard.isMatch, Bool.and_eq_true, Bool.and_eq_true, decide_eq_true_eq, hasPrefix, hasSuffix,
    List.isPrefixOf_iff_prefix, List.isSuffixOf_iff_suffix]
  constructor
  · rintro ⟨⟨fits, front⟩, ⟨before, back⟩⟩
    have split : s = String.ofList before ++ w.suffixText := by
      rw [← String.toList_inj, String.toList_append, String.toList_ofList, back]
    have long : w.prefixText.utf8ByteSize ≤ (String.ofList before).utf8ByteSize := by
      rw [split, String.utf8ByteSize_append] at fits
      omega
    rcases List.prefix_or_prefix_of_prefix front ⟨w.suffixText.toList, back⟩ with
      ⟨text, same⟩ | ⟨rest, same⟩
    · refine ⟨String.ofList text, ?_⟩
      rw [split, ← same, String.ofList_append, String.ofList_toList]
    · -- the prefix is not longer than what is in front of the suffix
      have whole : w.prefixText = String.ofList before ++ String.ofList rest := by
        rw [← String.ofList_append, same, String.ofList_toList]
      have none : (String.ofList rest).utf8ByteSize = 0 := by
        rw [whole, String.utf8ByteSize_append] at long
        omega
      refine ⟨"", ?_⟩
      rw [split, whole, String.utf8ByteSize_eq_zero_iff.mp none, String.append_empty,
        String.append_empty]
  · rintro ⟨text, rfl⟩
    refine ⟨⟨?_, ?_⟩, ?_⟩
    · rw [String.utf8ByteSize_append, String.utf8ByteSize_append]
      omega
    · rw [String.toList_append, String.toList_append, List.append_assoc]
      exact List.prefix_append _ _
    · rw [String.toList_append]
      exact List.suffix_append _ _

/-- An entry with a `*` is split at the first one. -/
theorem exists_split {entry : String} (star : '*' ∈ entry.toList) :
    ∃ front back, newWildcard entry = ⟨front, back⟩ ∧ entry = front ++ "*" ++ back ∧
      '*' ∉ front.toList := by
  cases cut : cutFirst '*' entry.toList with
  | none => exact absurd star (Interface.cutFirst_eq_none.mp cut)
  | some parts =>
    obtain ⟨split, fresh⟩ := Interface.cutFirst_eq_some.mp cut
    refine ⟨String.ofList parts.1, String.ofList parts.2, by rw [newWildcard, cut], ?_, ?_⟩
    · rw [← String.toList_inj, split]
      simp
    · rwa [String.toList_ofList]

theorem isMatch_newWildcard {entry : String} (star : '*' ∈ entry.toList) (origin : String) :
    (newWildcard entry).isMatch origin = true ↔ Fits entry origin := by
  obtain ⟨front, back, wildcard, split, fresh⟩ := exists_split star
  rw [isMatch_iff, wildcard]
  constructor
  · rintro ⟨text, same⟩
    exact ⟨front, text, back, split, fresh, same⟩
  · rintro ⟨front', text, back', split', fresh', same⟩
    have cut : ∀ front back : String, entry = front ++ "*" ++ back → '*' ∉ front.toList →
        cutFirst '*' entry.toList = some (front.toList, back.toList) := by
      rintro front back rfl fresh
      refine Interface.cutFirst_eq_some.mpr ⟨?_, fresh⟩
      rw [String.toList_append, String.toList_append, List.append_assoc]
      rfl
    obtain ⟨sameFront, sameBack⟩ := Prod.mk.inj
      (Option.some.inj ((cut front back split fresh).symm.trans (cut front' back' split' fresh')))
    rw [String.toList_inj.mp sameFront, String.toList_inj.mp sameBack]
    exact ⟨text, same⟩

theorem Fits.star {entry origin : String} (fits : Fits entry origin) : '*' ∈ entry.toList := by
  obtain ⟨front, _, back, rfl, _, _⟩ := fits
  simp

theorem isPattern_iff {entry : String} :
    isPattern entry = true ↔ entry ≠ "*" ∧ '*' ∈ entry.toList := by
  rw [isPattern, Bool.and_eq_true, decide_eq_true_eq, decide_eq_true_eq, and_congr_left_iff]
  intro star
  obtain ⟨front, back, _, split, _⟩ := exists_split star
  have size : entry.utf8ByteSize = front.utf8ByteSize + 1 + back.utf8ByteSize := by
    rw [split, String.utf8ByteSize_append, String.utf8ByteSize_append]
    rfl
  constructor
  · rintro long rfl
    exact absurd long (by decide)
  · intro more
    by_contra short
    have noFront : front.utf8ByteSize = 0 := by omega
    have noBack : back.utf8ByteSize = 0 := by omega
    refine more ?_
    rw [split, String.utf8ByteSize_eq_zero_iff.mp noFront,
      String.utf8ByteSize_eq_zero_iff.mp noBack]
    rfl

theorem withAllowedOrigins_eq (origins : List String) (o : Options) :
    withAllowedOrigins origins o =
      { o with
        allowedOrigins := plainOrigins origins
        allowedOriginPatterns := (origins.filter isPattern).map newWildcard } := by
  have from_ : ∀ (origins : List String) (o : Options),
      origins.foldl
        (fun o origin =>
          if isPattern origin then
            { o with allowedOriginPatterns := o.allowedOriginPatterns ++ [newWildcard origin] }
          else { o with allowedOrigins := o.allowedOrigins ++ [origin] }) o =
        { o with
          allowedOrigins := o.allowedOrigins ++ plainOrigins origins
          allowedOriginPatterns :=
            o.allowedOriginPatterns ++ (origins.filter isPattern).map newWildcard } := by
    intro origins
    induction origins with
    | nil => simp [plainOrigins]
    | cons origin origins ih =>
      intro o
      rw [List.foldl_cons, ih]
      by_cases pattern : isPattern origin = true <;> simp [plainOrigins, pattern]
  rw [withAllowedOrigins, from_]
  rfl

theorem options_withList (opts : List (Options → Options)) (origins : List String) :
    (withList opts origins).o.allowedOrigins = plainOrigins origins ∧
      (withList opts origins).o.allowedOriginPatterns =
        (origins.filter isPattern).map newWildcard := by
  rw [withList, newMiddleware, newOptions, List.foldl_append, List.foldl_cons, List.foldl_nil,
    withAllowedOrigins_eq]
  exact ⟨rfl, rfl⟩

/-- The origins that the middleware accepts -/
theorem originAllowed_iff (opts : List (Options → Options)) (origins : List String)
    (origin : String) :
    (withList opts origins).originAllowed origin = true ↔
      plainOrigins origins = ["*"] ∨ origin ∈ origins ∨
        ∃ entry ∈ origins, entry ≠ "*" ∧ Fits entry origin := by
  obtain ⟨plain, patterns⟩ := options_withList opts origins
  have matched : ((origins.filter isPattern).map newWildcard).any (·.isMatch origin) = true ↔
      ∃ entry ∈ origins, entry ≠ "*" ∧ Fits entry origin := by
    rw [List.any_map, List.any_filter, List.any_eq_true]
    refine exists_congr fun entry => and_congr_right fun _ => ?_
    rw [Bool.and_eq_true, isPattern_iff, and_assoc]
    refine and_congr_right fun _ => ?_
    constructor
    · exact fun both => (isMatch_newWildcard both.1 origin).mp both.2
    · exact fun fits => ⟨fits.star, (isMatch_newWildcard fits.star origin).mpr fits⟩
  have itself : isPattern origin = true → Fits origin origin := by
    intro pattern
    obtain ⟨front, back, _, split, fresh⟩ := exists_split (isPattern_iff.mp pattern).2
    exact ⟨front, "*", back, split, fresh, split⟩
  rw [Middleware.originAllowed, plain, patterns]
  split
  · rename_i all
    exact iff_of_true rfl (.inl all)
  · rename_i notAll
    split
    · rename_i listed
      exact iff_of_true rfl (.inr (.inl (List.mem_filter.mp listed).1))
    · rename_i notListed
      rw [matched]
      constructor
      · exact fun fits => .inr (.inr fits)
      · rintro (all | listed | fits)
        · exact absurd all notAll
        · have pattern : isPattern origin = true := by
            by_contra other
            exact notListed (List.mem_filter.mpr ⟨listed, by simpa using other⟩)
          exact ⟨origin, listed, (isPattern_iff.mp pattern).1, itself pattern⟩
        · exact fits

namespace Headers

variable {w : Headers} {key : String}

theorem not_carries_nil : ¬ carries [] key := by
  rintro ⟨entry, listed, _⟩
  cases listed

theorem carries_add {other value : String} :
    (w.add other value).carries key ↔ w.carries key ∨ other = key := by
  simp [carries, add, or_and_right, exists_or]

theorem carries_set {other value : String} :
    (w.set other value).carries key ↔ w.carries key ∨ other = key := by
  rw [set, carries]
  by_cases same : other = key
  · subst same
    exact iff_of_true ⟨_, List.mem_append_right _ List.mem_cons_self, rfl⟩ (.inr rfl)
  · constructor
    · rintro ⟨entry, listed, named⟩
      rcases List.mem_append.mp listed with kept | new
      · exact .inl ⟨entry, (List.mem_filter.mp kept).1, named⟩
      · rw [List.mem_singleton] at new
        exact .inr (by rw [← named, new])
    · rintro (⟨entry, listed, named⟩ | now)
      · refine ⟨entry, List.mem_append_left _ (List.mem_filter.mpr ⟨listed, ?_⟩), named⟩
        simpa [named] using Ne.symm same
      · exact absurd now same

end Headers

/-- No header lets an origin read the response that is not accepted. -/
theorem allowed_of_carries {m : Middleware} {r : Request} {w : Headers}
    (none : ¬ w.carries "Access-Control-Allow-Origin")
    (some : (m.handler r w).1.carries "Access-Control-Allow-Origin") :
    r.header "Origin" ≠ "" ∧ m.originAllowed (r.header "Origin") = true := by
  have varied : ∀ value, ¬ (w.add "Vary" value).carries "Access-Control-Allow-Origin" := by
    intro value carried
    rcases Headers.carries_add.mp carried with before | same
    · exact none before
    · exact absurd same (by decide)
  by_cases empty : r.header "Origin" = ""
  · rw [Middleware.handler] at some
    split at some
    · simp only [Middleware.handlePreflight, empty, if_true] at some
      exact absurd some (varied _)
    · simp only [Middleware.handleNormal, empty, if_true] at some
      exact absurd some (varied _)
  · refine ⟨empty, ?_⟩
    by_contra refused
    rw [Middleware.handler] at some
    split at some
    · simp only [Middleware.handlePreflight, empty, refused] at some
      exact absurd some (varied _)
    · simp only [Middleware.handleNormal, empty, refused] at some
      exact absurd some (varied _)

/-- A request that is always answered for an accepted origin -/
def plainRequest (origin : String) : Request where
  method := "OPTIONS"
  header key := if key = "Origin" then origin else ""

theorem carries_plainRequest {m : Middleware} {origin : String} (named : origin ≠ "")
    (accepted : m.originAllowed origin = true) :
    (m.handler (plainRequest origin) []).1.carries "Access-Control-Allow-Origin" := by
  have header : (plainRequest origin).header "Origin" = origin := rfl
  have plain : (plainRequest origin).header "Access-Control-Request-Method" = "" := rfl
  have method : m.methodAllowed (plainRequest origin).method = true := rfl
  have kept : ∀ w : Headers, w.carries "Access-Control-Allow-Origin" →
      (m.allowCredentials w).carries "Access-Control-Allow-Origin" := by
    intro w carried
    rw [Middleware.allowCredentials]
    split
    · exact Headers.carries_set.mpr (.inl carried)
    · exact carried
  have set : ∀ w : Headers, (m.allowOrigin origin w).carries "Access-Control-Allow-Origin" := by
    intro w
    rw [Middleware.allowOrigin]
    split <;> exact Headers.carries_set.mpr (.inr rfl)
  simp only [Middleware.handler, plain, Middleware.handleNormal, header, named, accepted, method]
  refine kept _ ?_
  split
  · exact Headers.carries_set.mpr (.inl (set _))
  · exact set _

theorem Fits.ne_empty {entry origin : String} (several : 1 < starCount entry)
    (fits : Fits entry origin) : origin ≠ "" := by
  obtain ⟨front, text, back, rfl, fresh, rfl⟩ := fits
  intro empty
  have noBack : back = "" := by
    rw [← String.toList_inj] at empty ⊢
    simp only [String.toList_append, String.toList_empty, List.append_eq_nil_iff] at empty
    exact empty.2
  have front : front.toList.count '*' = 0 := List.count_eq_zero.mpr fresh
  rw [starCount, noBack, String.append_empty, String.toList_append, List.count_append,
    front] at several
  exact absurd several (by decide)

/-- The list is matched as documented exactly as far as it is unambiguous. -/
theorem matchedAsDocumented_iff (opts : List (Options → Options)) (origins : List String)
    (origin : String) :
    MatchedAsDocumented opts origins origin ↔ Unambiguous origins origin := by
  constructor
  · intro matched
    constructor
    · intro star
      exact (originAllowed_iff opts origins origin).mp (matched.complete (.inl star))
    · intro entry listed several fits
      have notStar : entry ≠ "*" := by
        rintro rfl
        exact absurd several (by decide)
      have accepted := (originAllowed_iff opts origins origin).mpr
        (.inr (.inr ⟨entry, listed, notStar, fits⟩))
      exact matched.sound (plainRequest origin) [] rfl Headers.not_carries_nil
        (carries_plainRequest (fits.ne_empty several) accepted)
  · intro unambiguous
    constructor
    · intro r w named none some
      obtain ⟨_, accepted⟩ := allowed_of_carries none some
      rw [named] at accepted
      rcases (originAllowed_iff opts origins origin).mp accepted with all | listed |
        ⟨entry, listed, notStar, fits⟩
      · have star : "*" ∈ plainOrigins origins := all ▸ List.mem_singleton_self "*"
        exact .inl (List.mem_filter.mp star).1
      · exact .inr (.inl listed)
      · have positive : 0 < starCount entry := List.count_pos_iff.mpr fits.star
        by_cases single : starCount entry = 1
        · exact .inr (.inr ⟨entry, listed, single, fits⟩)
        · exact unambiguous.several entry listed (by omega) fits
    · intro documented
      refine (originAllowed_iff opts origins origin).mpr ?_
      rcases documented with star | listed | ⟨entry, listed, _, fits⟩
      · exact unambiguous.star star
      · exact .inr (.inl listed)
      · by_cases star : entry = "*"
        · exact unambiguous.star (star ▸ listed)
        · exact .inr (.inr ⟨entry, listed, star, fits⟩)

/-- Beside another origin, a `*` allows nothing. Of two `*` the second one stands for itself. -/
theorem mixedList_refused :
    ((withList [] ["*", "https://a.org"]).originAllowed "https://b.org" = false ∧
      ¬ MatchedAsDocumented [] ["*", "https://a.org"] "https://b.org") ∧
    (withList [] ["https://*.*.org"]).originAllowed "https://a.*.org" = true ∧
      ¬ MatchedAsDocumented [] ["https://*.*.org"] "https://a.*.org" := by
  have refused : (withList [] ["*", "https://a.org"]).originAllowed "https://b.org" = false := by
    decide
  have accepted : (withList [] ["https://*.*.org"]).originAllowed "https://a.*.org" = true := by
    decide
  refine ⟨⟨refused, fun matched => ?_⟩, accepted, fun matched => ?_⟩
  · have all := matched.complete (.inl List.mem_cons_self)
    rw [refused] at all
    cases all
  · have named := matched.sound (plainRequest "https://a.*.org") [] rfl
      Headers.not_carries_nil (carries_plainRequest (by decide) accepted)
    rcases named with star | listed | ⟨entry, listed, single, _⟩
    · exact absurd star (by decide)
    · exact absurd listed (by decide)
    · rw [List.mem_singleton] at listed
      exact absurd (listed ▸ single) (by decide)

end WgPortal.Api.Cors
