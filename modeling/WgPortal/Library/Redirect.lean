import WgPortal.Library.NetIPText
import WgPortal.Library.Origin

/-! Where a URL leads that was read and is written again, and where `http.Redirect` sends a
client. -/

namespace WgPortal.Library.NetURL

section Write

variable {u : URL}

/-- Whether the path is all that is written behind the scheme. -/
def URL.Unhosted (u : URL) : Prop :=
  u.opaquePart = [] ∧ u.host = [] ∧ u.user = none ∧ (u.scheme = [] ∨ u.omitHost = true)

instance (u : URL) : Decidable u.Unhosted := inferInstanceAs (Decidable (_ ∧ _))

theorem mem_escape {mode : Encoding} {text : List UInt8} {c : UInt8}
    (member : c ∈ escape mode text) :
    shouldEscape mode c = false ∨ c ∈ ascii "+%0123456789ABCDEF" := by
  obtain ⟨source, _, written⟩ := List.mem_flatMap.mp member
  rw [escapeByte] at written
  split at written
  · rename_i kept
    rw [List.mem_singleton.mp written]
    exact .inl (Bool.not_eq_true' _ ▸ kept)
  · right
    split at written
    · rw [List.mem_singleton.mp written]
      decide
    · have digit : ∀ n < 16, upperHex n ∈ ascii "+%0123456789ABCDEF" := by decide
      have small : source.toNat < 256 := source.toNat_lt
      rcases List.mem_cons.mp written with rfl | written
      · decide
      · rcases List.mem_cons.mp written with rfl | written
        · exact digit _ (by omega)
        · rw [List.mem_singleton.mp written]
          exact digit _ (by omega)

theorem not_ends_of_escape {mode : Encoding} (mode_eq : mode = .host ∨ mode = .userPassword) :
    ∀ c : UInt8, shouldEscape mode c = false ∨ c ∈ ascii "+%0123456789ABCDEF" →
      (!endsAuthority c) = true ∧ c ≠ '@'.toUInt8 := by
  rcases mode_eq with rfl | rfl <;> exact forall_byte (by decide +kernel)

theorem not_ends_userText (c : UInt8) (member : c ∈ u.userText) : (!endsAuthority c) = true := by
  rw [URL.userText] at member
  cases user : u.user with
  | none =>
    rw [user] at member
    cases member
  | some info =>
    rw [user] at member
    rcases List.mem_append.mp member with member | member
    · rw [Userinfo.text] at member
      rcases List.mem_append.mp member with member | member
      · exact (not_ends_of_escape (.inr rfl) c (mem_escape member)).1
      · split at member
        · rcases List.mem_cons.mp member with rfl | member
          · decide
          · exact (not_ends_of_escape (.inr rfl) c (mem_escape member)).1
        · cases member
    · rw [List.mem_singleton.mp member]
      decide

theorem afterLast_userText (u : URL) :
    afterLast '@'.toUInt8 (u.userText ++ escape .host u.host) = escape .host u.host := by
  have absent : '@'.toUInt8 ∉ escape .host u.host := fun member =>
    (not_ends_of_escape (.inl rfl) _ (mem_escape member)).2 rfl
  rw [URL.userText]
  split
  · rw [List.append_assoc]
    exact afterLast_append _ absent
  · exact afterLast_eq_self absent

/-- An authority is read as it was written if the path behind it is rooted. -/
theorem hostPort_authority (u : URL) {path : List UInt8}
    (rooted : path = [] ∨ path.head? = some '/'.toUInt8) :
    hostPort (ascii "//" ++ (u.userText ++ escape .host u.host) ++ path) = u.host := by
  have inside : ∀ c ∈ u.userText ++ escape .host u.host, (!endsAuthority c) = true := by
    intro c member
    rcases List.mem_append.mp member with member | member
    · exact not_ends_userText c member
    · exact (not_ends_of_escape (.inl rfl) c (mem_escape member)).1
  have stop : ∀ c ∈ path.head?, (!endsAuthority c) = false := by
    intro c head
    rcases rooted with rfl | slash
    · cases head
    · rw [slash] at head
      cases head
      decide
  have written : authority (ascii "//" ++ (u.userText ++ escape .host u.host) ++ path) =
      u.userText ++ escape .host u.host := by
    rw [authority, if_pos ⟨_, (List.append_assoc ..).symm⟩, List.append_assoc]
    exact takeWhile_append_stop inside stop
  rw [hostPort, written, afterLast_userText]
  simpa using decode_escape_append .host (by decide) (by decide) u.host []

theorem not_mem_before_of_rooted {path : List UInt8}
    (rooted : path = [] ∨ path.head? = some '/'.toUInt8) (c : UInt8) :
    c ∉ before '/'.toUInt8 path := by
  rcases rooted with rfl | slash
  · exact List.not_mem_nil
  · obtain ⟨tail, rfl⟩ := List.head?_eq_some_iff.mp slash
    simp [before]

theorem pathText_eq (rooted : u.escapedPath = [] ∨ u.escapedPath.head? = some '/'.toUInt8) :
    u.pathText = u.escapedPath := by
  rw [URL.pathText]
  split
  · rename_i wanting
    exact absurd (rooted.resolve_left wanting.1) wanting.2.1
  · exact if_neg fun colon => not_mem_before_of_rooted rooted _ colon.2

theorem pathText_of_host (host : u.host ≠ []) :
    u.pathText = [] ∨ u.pathText.head? = some '/'.toUInt8 := by
  by_cases rooted : u.escapedPath = [] ∨ u.escapedPath.head? = some '/'.toUInt8
  · rwa [pathText_eq rooted]
  · rw [not_or] at rooted
    rw [URL.pathText, if_pos ⟨rooted.1, rooted.2, host⟩]
    exact .inr rfl

theorem unescape_eq_nil {mode : Encoding} {text : List UInt8}
    (empty : unescape mode text = some []) : text = [] := by
  fun_induction unescape mode text with
  | case1 => rfl
  | _ => simp_all

theorem escapedPath_of_nil (none : u.path = []) : u.escapedPath = [] := by
  rw [URL.escapedPath]
  split
  · rename_i still
    rw [stillEncoded, Bool.and_eq_true, Bool.and_eq_true, decide_eq_true_eq, decide_eq_true_eq,
      none] at still
    exact absurd (unescape_eq_nil still.2) still.1.1
  · rw [none]
    rfl

theorem authorityText_of_unhosted (unhosted : u.Unhosted) : u.authorityText = [] := by
  obtain ⟨_, host, user, scheme | omitted⟩ := unhosted
  · exact if_pos ⟨scheme, host, user⟩
  · rw [URL.authorityText]
    split
    · rfl
    · exact if_pos ⟨omitted, host, user⟩

theorem hostPort_of_unhosted (unhosted : u.Unhosted) :
    hostPort u.pathText = hostPort u.escapedPath := by
  rw [URL.pathText, if_neg fun wanting => wanting.2.2 unhosted.2.1]
  split
  · rename_i colon
    have rootless : u.escapedPath.head? ≠ some '/'.toUInt8 := fun slash =>
      not_mem_before_of_rooted (.inr slash) _ colon.2
    have dotted : (ascii "./" ++ u.escapedPath).head? ≠ some '/'.toUInt8 := by
      have head : (ascii "./" ++ u.escapedPath).head? = some '.'.toUInt8 := rfl
      rw [head]
      decide
    rw [hostPort, hostPort, authority_of_rootless rootless, authority_of_rootless dotted]
  · rfl

theorem hostPort_of_hosted (formed : u.WellFormed) (written : u.opaquePart = [])
    (hosted : ¬ u.Unhosted) : hostPort (u.authorityText ++ u.pathText) = u.host := by
  have first : ¬ (u.scheme = [] ∧ u.host = [] ∧ u.user = none) := fun missing =>
    hosted ⟨written, missing.2.1, missing.2.2, .inl missing.1⟩
  have second : ¬ (u.omitHost = true ∧ u.host = [] ∧ u.user = none) := fun missing =>
    hosted ⟨written, missing.2.1, missing.2.2, .inr missing.1⟩
  rw [URL.authorityText, if_neg first, if_neg second]
  by_cases slashes : u.host ≠ [] ∨ u.path ≠ [] ∨ u.user ≠ none
  · have rooted : u.pathText = [] ∨ u.pathText.head? = some '/'.toUInt8 := by
      by_cases host : u.host = []
      · have path := formed.path <| by
          by_cases user : u.user = none
          · exact .inr ⟨fun scheme => first ⟨scheme, host, user⟩,
              Bool.eq_false_iff.mpr fun omitted => second ⟨omitted, host, user⟩⟩
          · exact .inl user
        rwa [pathText_eq path]
      · exact pathText_of_host host
    rw [if_pos slashes, List.append_assoc (ascii "//")]
    exact hostPort_authority u rooted
  · rw [not_or, not_or, not_not, not_not, not_not] at slashes
    have path := escapedPath_of_nil slashes.2.1
    rw [if_neg (by simp [slashes]), pathText_eq (.inl path), path, URL.userText, slashes.2.2,
      slashes.1]
    rfl

/-- What is behind the scheme says which host the URL leads to. -/
theorem hostPort_hierarchy (formed : u.WellFormed) :
    hostPort (if u.opaquePart ≠ [] then u.opaquePart else u.authorityText ++ u.pathText) =
      if u.Unhosted then hostPort u.escapedPath else u.host := by
  by_cases written : u.opaquePart = []
  · rw [if_neg (not_not.mpr written)]
    by_cases unhosted : u.Unhosted
    · rw [if_pos unhosted, authorityText_of_unhosted unhosted, List.nil_append,
        hostPort_of_unhosted unhosted]
    · rw [if_neg unhosted, hostPort_of_hosted formed written unhosted]
  · obtain ⟨_, rootless, host⟩ := formed.opaquePart written
    rw [if_pos written, if_neg fun unhosted => written unhosted.1, hostPort,
      authority_of_rootless rootless, host]
    rfl

theorem reading_of_scheme {scheme : List UInt8} (valid : ValidScheme scheme) (rest : List UInt8) :
    reading (scheme ++ ':'.toUInt8 :: rest) = (scheme.map lower, hostPort rest) := by
  rw [reading, splitScheme, getScheme_eq valid]
  rfl

/-- A text has no scheme where no colon is in its first segment. -/
theorem reading_of_segment {text : List UInt8} (plain : ':'.toUInt8 ∉ before '/'.toUInt8 text) :
    reading text = ([], hostPort text) := by
  rw [reading, splitScheme, getScheme_of_segment plain]
  rfl

theorem authorityText_of_unnamed (unnamed : u.scheme = []) :
    u.authorityText = [] ∨ u.authorityText.head? = some '/'.toUInt8 := by
  rw [URL.authorityText]
  split
  · exact .inl rfl
  · rename_i hosted
    split
    · exact .inl rfl
    · have slashes : u.host ≠ [] ∨ u.path ≠ [] ∨ u.user ≠ none := by
        by_contra missing
        rw [not_or, not_or, not_not, not_not, not_not] at missing
        exact hosted ⟨unnamed, missing.1, missing.2.2⟩
      rw [if_pos slashes]
      exact .inr rfl

/-- Without a scheme, the first segment of what is written has no colon. -/
theorem colon_not_mem_hierarchy (unnamed : u.scheme = []) :
    ':'.toUInt8 ∉ before '/'.toUInt8 (u.authorityText ++ u.pathText) := by
  have scheme : u.schemeText = [] := if_neg (not_not.mpr unnamed)
  rcases authorityText_of_unnamed unnamed with none | slash
  · rw [none, List.nil_append, URL.pathText, scheme, none]
    split
    · exact not_mem_before_of_rooted (.inr rfl) _
    · split
      · have dot : before '/'.toUInt8 (ascii "./" ++ u.escapedPath) = ['.'.toUInt8] := by
          rw [before, show ascii "./" = ['.'.toUInt8, '/'.toUInt8] by decide]
          rfl
        rw [dot]
        decide
      · rename_i plain
        exact fun colon => plain ⟨rfl, colon⟩
  · obtain ⟨tail, written⟩ := List.head?_eq_some_iff.mp slash
    rw [written, List.cons_append]
    exact not_mem_before_of_rooted (.inr rfl) _

/-- A URL leads where it says, but for a path that is taken for a host. -/
theorem reading_string (formed : u.WellFormed) :
    reading u.string = (u.scheme, if u.Unhosted then hostPort u.escapedPath else u.host) := by
  have query (text : List UInt8) : reading (text ++ u.queryText) = reading text := by
    rw [URL.queryText]
    split
    · exact reading_append text (by decide) _
    · rw [List.append_nil]
  have fragment (text : List UInt8) : reading (text ++ u.fragmentText) = reading text := by
    rw [URL.fragmentText]
    split
    · exact reading_append text (by decide) _
    · rw [List.append_nil]
  rw [URL.string, fragment, query, ← hostPort_hierarchy formed, URL.schemeText]
  rcases formed.scheme with none | ⟨valid, same⟩
  · rw [if_neg (not_not.mpr none), List.nil_append, none]
    have written : ¬ u.opaquePart ≠ [] := fun opaquePart => (formed.opaquePart opaquePart).1 none
    rw [if_neg written, reading_of_segment (colon_not_mem_hierarchy none)]
  · rw [if_pos valid.ne_nil, List.append_assoc, List.singleton_append, reading_of_scheme valid,
      same]

end Write

section Clean

/-- One element of a path, in front of the ones that were kept. -/
def cleanElement (rooted : Bool) (kept : List (List UInt8)) (element : List UInt8) :
    List (List UInt8) :=
  if element = [] ∨ element = ascii "." then kept
  else if element = ascii ".." then
    match kept with
    | [] => if rooted then [] else [ascii ".."]
    | last :: others => if last = ascii ".." then ascii ".." :: kept else others
  else element :: kept

/-- `path.Clean` -/
def clean (path : List UInt8) : List UInt8 :=
  let rooted := path.head? = some '/'.toUInt8
  let kept := (path.splitOn '/'.toUInt8).foldl (cleanElement rooted) []
  let text := ['/'.toUInt8].intercalate kept.reverse
  if rooted then '/'.toUInt8 :: text else if text = [] then ascii "." else text

/-- The directory of `path.Split`. -/
def directory (path : List UInt8) : List UInt8 :=
  if '/'.toUInt8 ∈ path then beforeLast '/'.toUInt8 path ++ ['/'.toUInt8] else []

theorem mem_cleanElement {rooted : Bool} {kept : List (List UInt8)} {element e : List UInt8}
    (plain : '/'.toUInt8 ∉ element) (inside : ∀ e ∈ kept, e ≠ [] ∧ '/'.toUInt8 ∉ e)
    (member : e ∈ cleanElement rooted kept element) : e ≠ [] ∧ '/'.toUInt8 ∉ e := by
  have up : ascii ".." ≠ [] ∧ '/'.toUInt8 ∉ ascii ".." := by decide
  unfold cleanElement at member
  split at member
  · exact inside e member
  · rename_i named
    split at member
    · cases kept with
      | nil =>
        cases rooted with
        | true => cases member
        | false => exact List.mem_singleton.mp member ▸ up
      | cons last others =>
        simp only at member
        split at member
        · rcases List.mem_cons.mp member with rfl | member
          · exact up
          · exact inside e member
        · exact inside e (List.mem_cons_of_mem _ member)
    · rcases List.mem_cons.mp member with rfl | member
      · exact ⟨(not_or.mp named).1, plain⟩
      · exact inside e member

theorem mem_cleanElements {rooted : Bool} {elements : List (List UInt8)}
    (plain : ∀ e ∈ elements, '/'.toUInt8 ∉ e) {kept : List (List UInt8)}
    (inside : ∀ e ∈ kept, e ≠ [] ∧ '/'.toUInt8 ∉ e) :
    ∀ e ∈ elements.foldl (cleanElement rooted) kept, e ≠ [] ∧ '/'.toUInt8 ∉ e := by
  induction elements generalizing kept with
  | nil => exact inside
  | cons element elements ih =>
    exact ih (fun e member => plain e (List.mem_cons_of_mem _ member)) fun e member =>
      mem_cleanElement (plain element List.mem_cons_self) inside member

/-- A rooted path is cleaned to a slash and a text that does not start with one. -/
theorem clean_rooted {path : List UInt8} (rooted : path.head? = some '/'.toUInt8) :
    ∃ text, clean path = '/'.toUInt8 :: text ∧ text.head? ≠ some '/'.toUInt8 := by
  refine ⟨_, if_pos rooted, ?_⟩
  have elements : ∀ e ∈ (path.splitOn '/'.toUInt8).foldl
      (cleanElement (decide (path.head? = some '/'.toUInt8))) [], e ≠ [] ∧ '/'.toUInt8 ∉ e :=
    mem_cleanElements (fun e member => NetIP.not_mem_of_mem_splitOn member)
      fun e member => absurd member List.not_mem_nil
  cases kept : ((path.splitOn '/'.toUInt8).foldl
      (cleanElement (decide (path.head? = some '/'.toUInt8))) []).reverse with
  | nil => simp
  | cons first others =>
    have listed := List.mem_reverse.mp (kept ▸ List.mem_cons_self (a := first))
    obtain ⟨written, plain⟩ := elements first listed
    obtain ⟨c, tail, rfl⟩ := List.exists_cons_of_ne_nil written
    have other : c ≠ '/'.toUInt8 := fun same => plain (same ▸ List.mem_cons_self)
    cases others <;> simpa using other

end Clean

section Redirect

/-- `hexEscapeNonASCII`, for one byte -/
def hexEscape (c : UInt8) : List UInt8 := if c < 0x80 then [c] else percent lowerHex c

/-- A relative URL, from the root of the path of the request. -/
def absolute (requestPath url : List UInt8) : List UInt8 :=
  let oldpath := if requestPath = [] then ascii "/" else requestPath
  let url := if url.head? = some '/'.toUInt8 then url else directory oldpath ++ url
  let path := before '?'.toUInt8 url
  let query := url.dropWhile (· ≠ '?'.toUInt8)
  let cleaned := clean path
  -- the slash at the end is kept
  (if path.getLast? = some '/'.toUInt8 ∧ cleaned.getLast? ≠ some '/'.toUInt8 then
    cleaned ++ ['/'.toUInt8]
  else cleaned) ++ query

/-- The location that `http.Redirect` sends a client to. -/
def redirect (requestPath url : List UInt8) : List UInt8 :=
  let target :=
    match parse url with
    | some u => if u.scheme = [] ∧ u.host = [] then absolute requestPath url else url
    | none => url
  target.flatMap hexEscape

theorem hexEscape_kept {p : UInt8 → Bool} (percent : p '%'.toUInt8 = true)
    (digits : ∀ n < 16, p (lowerHex n) = true) (c : UInt8) (holds : p c = true) :
    ∀ b ∈ hexEscape c, p b = true := by
  intro b member
  have small : c.toNat < 256 := c.toNat_lt
  rw [hexEscape] at member
  split at member
  · rwa [List.mem_singleton.mp member]
  · rcases List.mem_cons.mp member with rfl | member
    · exact percent
    · rcases List.mem_cons.mp member with rfl | member
      · exact digits _ (by omega)
      · rw [List.mem_singleton.mp member]
        exact digits _ (by omega)

theorem hexEscape_cases (c : UInt8) :
    hexEscape c = [c] ∨ ∃ high low, hexEscape c = ['%'.toUInt8, high, low] := by
  rw [hexEscape]
  split
  · exact .inl rfl
  · exact .inr ⟨_, _, rfl⟩

theorem hexEscape_digit : ∀ c : UInt8, (unhex c).isSome → hexEscape c = [c] :=
  forall_byte (by decide +kernel)

theorem hexByte_percent (c : UInt8) :
    hexByte '%'.toUInt8 c = none ∧ hexByte c '%'.toUInt8 = none := by
  have none : unhex '%'.toUInt8 = none := by decide
  rw [hexByte, hexByte, none]
  cases unhex c <;> exact ⟨rfl, rfl⟩

theorem decode_percent_none {text : List UInt8}
    (digits : ∀ high low rest, text = high :: low :: rest → hexByte high low = none) :
    decode ('%'.toUInt8 :: text) = '%'.toUInt8 :: decode text := by
  match text with
  | [] => rfl
  | [_] => rfl
  | high :: low :: rest => rw [decode, if_pos rfl, digits high low rest rfl]

/-- The bytes behind a percent sign do not become digits. -/
theorem hexByte_hexEscape {text : List UInt8}
    (digits : ∀ high low rest, text = high :: low :: rest → hexByte high low = none)
    (high low : UInt8) (rest : List UInt8)
    (written : text.flatMap hexEscape = high :: low :: rest) : hexByte high low = none := by
  match text with
  | [] => cases written
  | [c] =>
    rw [List.flatMap_cons] at written
    rcases hexEscape_cases c with same | ⟨a, b, percent⟩
    · rw [same] at written
      cases written
    · rw [percent] at written
      cases written
      exact (hexByte_percent _).1
  | c :: d :: text =>
    rw [List.flatMap_cons, List.flatMap_cons] at written
    rcases hexEscape_cases c with same | ⟨a, b, percent⟩
    · rcases hexEscape_cases d with same' | ⟨a, b, percent⟩
      · rw [same, same'] at written
        cases written
        exact digits _ _ text rfl
      · rw [same, percent] at written
        cases written
        exact (hexByte_percent _).2
    · rw [percent] at written
      cases written
      exact (hexByte_percent _).1

theorem decode_hexEscape_cons {c : UInt8} (plain : c ≠ '%'.toUInt8) (rest : List UInt8) :
    decode (hexEscape c ++ rest) = c :: decode rest := by
  rw [hexEscape]
  split
  · exact decode_cons plain rest
  · exact decode_percent (hexByte_digits unhex_lowerHex c) rest

theorem isSome_unhex {high low byte : UInt8} (digits : hexByte high low = some byte) :
    (unhex high).isSome ∧ (unhex low).isSome := by
  obtain ⟨_, first, digits⟩ := Option.bind_eq_some_iff.mp digits
  obtain ⟨_, second, _⟩ := Option.bind_eq_some_iff.mp digits
  rw [first, second]
  exact ⟨rfl, rfl⟩

theorem decode_hexEscape : ∀ text : List UInt8, decode (text.flatMap hexEscape) = decode text
  | [] => rfl
  | c :: text => by
    rw [List.flatMap_cons]
    by_cases plain : c = '%'.toUInt8
    · have sign : hexEscape '%'.toUInt8 = ['%'.toUInt8] := by decide
      rw [plain, sign, List.singleton_append]
      by_cases written : ∃ high low rest byte, text = high :: low :: rest ∧
          hexByte high low = some byte
      · obtain ⟨high, low, rest, byte, rfl, digits⟩ := written
        obtain ⟨first, second⟩ := isSome_unhex digits
        rw [List.flatMap_cons, List.flatMap_cons, hexEscape_digit high first,
          hexEscape_digit low second, List.singleton_append, List.singleton_append,
          decode_percent digits, decode_percent digits, decode_hexEscape rest]
      · have digits : ∀ high low rest, text = high :: low :: rest → hexByte high low = none :=
          fun high low rest same => Option.eq_none_iff_forall_ne_some.mpr fun byte digits =>
            written ⟨high, low, rest, byte, same, digits⟩
        rw [decode_percent_none (hexByte_hexEscape digits), decode_percent_none digits,
          decode_hexEscape text]
    · rw [decode_hexEscape_cons plain, decode_cons plain, decode_hexEscape text]
termination_by text => text.length

/-- A byte that is not in ASCII is written with a percent sign in front. -/
theorem hexEscape_stop {p : UInt8 → Bool}
    (percent : ∀ c : UInt8, p c = false → 0x80 ≤ c → p '%'.toUInt8 = false) (c : UInt8)
    (fails : p c = false) : ∃ b rest, hexEscape c = b :: rest ∧ p b = false := by
  rw [hexEscape]
  split
  · exact ⟨c, [], rfl, fails⟩
  · rename_i large
    exact ⟨_, _, rfl, percent c fails (UInt8.not_lt.mp large)⟩

theorem hexEscape_schemeByte : ∀ c : UInt8, isSchemeByte c = true → hexEscape c = [c] :=
  forall_byte (by decide +kernel)

theorem hexEscape_ends : ∀ c : UInt8, endsAuthority c = true → hexEscape c = [c] :=
  forall_byte (by decide +kernel)

theorem flatMap_hexEscape_eq_self {text : List UInt8} (plain : ∀ c ∈ text, hexEscape c = [c]) :
    text.flatMap hexEscape = text := by
  induction text with
  | nil => rfl
  | cons c text ih =>
    rw [List.flatMap_cons, plain c List.mem_cons_self,
      ih fun b member => plain b (List.mem_cons_of_mem c member), List.singleton_append]

theorem slash_of_hexEscape {text tail : List UInt8}
    (same : text.flatMap hexEscape = '/'.toUInt8 :: tail) :
    ∃ rest, text = '/'.toUInt8 :: rest ∧ rest.flatMap hexEscape = tail := by
  cases text with
  | nil => cases same
  | cons c text =>
    rw [List.flatMap_cons] at same
    rcases hexEscape_cases c with plain | ⟨high, low, percent⟩
    · rw [plain, List.singleton_append, List.cons.injEq] at same
      exact ⟨text, by rw [same.1], same.2⟩
    · rw [percent, List.cons_append, List.cons.injEq] at same
      exact absurd same.1 (by decide)

theorem getScheme_hexEscape (text : List UInt8) :
    getScheme (text.flatMap hexEscape) =
      (getScheme text).map fun parts => (parts.1, parts.2.flatMap hexEscape) := by
  have kept (c : UInt8) (byte : isSchemeByte c = true) :
      ∀ b ∈ hexEscape c, isSchemeByte b = true := by
    rw [hexEscape_schemeByte c byte]
    exact fun b member => List.mem_singleton.mp member ▸ byte
  have stop := hexEscape_stop (p := isSchemeByte) fun _ _ _ => by decide
  cases text with
  | nil => rfl
  | cons first text =>
    by_cases missing : first = ':'.toUInt8
    · subst missing
      rfl
    · cases letter : isLetter first with
      | false =>
        obtain ⟨b, rest, written, fails⟩ := hexEscape_stop
          (p := fun b => isLetter b || b = ':'.toUInt8) (fun _ _ _ => by decide) first
          (by simp [letter, missing])
        rw [Bool.or_eq_false_iff, decide_eq_false_iff_not] at fails
        rw [List.flatMap_cons, written, List.cons_append]
        simp only [getScheme, missing, letter, fails, if_false, Bool.not_false, if_true,
          Option.map_some, List.flatMap_cons, written, List.cons_append]
      | true =>
        have byte : isSchemeByte first = true := by
          rw [isSchemeByte, isAlphanumeric, letter]
          rfl
        have taken := takeWhile_flatMap kept stop (first :: text)
        have dropped := dropWhile_flatMap kept stop (first :: text)
        rw [List.flatMap_cons, hexEscape_schemeByte first byte,
          List.singleton_append] at taken dropped ⊢
        simp only [getScheme, missing, letter, if_false, Bool.not_true, Bool.false_eq_true, dropped,
          taken]
        cases stopped : (first :: text).dropWhile isSchemeByte with
        | nil => simp [hexEscape_schemeByte first byte]
        | cons c rest =>
          have scheme : ((first :: text).takeWhile isSchemeByte).flatMap hexEscape =
              (first :: text).takeWhile isSchemeByte := flatMap_hexEscape_eq_self fun c member =>
            hexEscape_schemeByte c (List.mem_takeWhile_imp member)
          rw [scheme]
          by_cases colon : c = ':'.toUInt8
          · have single : hexEscape ':'.toUInt8 = [':'.toUInt8] := by decide
            simp [colon, single]
          · obtain ⟨b, others, written, fails⟩ := hexEscape_stop
              (p := fun b => b = ':'.toUInt8) (fun _ _ _ => by decide) c (by simp [colon])
            rw [decide_eq_false_iff_not] at fails
            simp [written, fails, colon, hexEscape_schemeByte first byte]

theorem authority_hexEscape (rest : List UInt8) :
    authority (rest.flatMap hexEscape) = (authority rest).flatMap hexEscape := by
  have inside (c : UInt8) (holds : (!endsAuthority c) = true) :
      ∀ b ∈ hexEscape c, (!endsAuthority b) = true :=
    hexEscape_kept (p := (!endsAuthority ·)) (by decide) (by decide) c holds
  have stop (c : UInt8) (fails : (!endsAuthority c) = false) :
      ∃ b rest, hexEscape c = b :: rest ∧ (!endsAuthority b) = false :=
    ⟨c, [], hexEscape_ends c (Bool.not_eq_false' _ ▸ fails), fails⟩
  have slashes : ascii "//" = ['/'.toUInt8, '/'.toUInt8] := by decide
  by_cases written : ascii "//" <+: rest
  · obtain ⟨tail, rfl⟩ := written
    rw [authority, authority, if_pos (List.prefix_append ..), slashes]
    exact takeWhile_flatMap inside stop tail
  · have other : ¬ ascii "//" <+: rest.flatMap hexEscape := by
      rintro ⟨tail, same⟩
      rw [slashes, List.cons_append, List.cons_append, List.nil_append] at same
      obtain ⟨rest, rfl, behind⟩ := slash_of_hexEscape same.symm
      obtain ⟨rest, rfl, _⟩ := slash_of_hexEscape behind
      exact written ⟨rest, by rw [slashes]; rfl⟩
    rw [authority, authority, if_neg written, if_neg other]
    rfl

theorem afterLast_hexEscape (text : List UInt8) :
    afterLast '@'.toUInt8 (text.flatMap hexEscape) =
      (afterLast '@'.toUInt8 text).flatMap hexEscape := by
  have turned (list : List UInt8) : (list.flatMap hexEscape).reverse =
      list.reverse.flatMap fun c => (hexEscape c).reverse := List.reverse_flatMap ..
  have kept (c : UInt8) (other : decide (c ≠ '@'.toUInt8) = true) :
      ∀ b ∈ (hexEscape c).reverse, decide (b ≠ '@'.toUInt8) = true := by
    intro b member
    exact hexEscape_kept (p := fun b => decide (b ≠ '@'.toUInt8)) (by decide) (by decide) c other b
      (List.mem_reverse.mp member)
  have stop (c : UInt8) (same : decide (c ≠ '@'.toUInt8) = false) :
      ∃ b rest, (hexEscape c).reverse = b :: rest ∧ decide (b ≠ '@'.toUInt8) = false := by
    rw [show c = '@'.toUInt8 by simpa using same]
    exact ⟨'@'.toUInt8, [], by decide, by decide⟩
  rw [afterLast, afterLast, before, turned, takeWhile_flatMap kept stop, ← before,
    ← List.reverse_reverse ((before '@'.toUInt8 text.reverse).reverse.flatMap hexEscape), turned,
    List.reverse_reverse]

theorem reading_hexEscape (text : List UInt8) :
    reading (text.flatMap hexEscape) = reading text := by
  have host (rest : List UInt8) : hostPort (rest.flatMap hexEscape) = hostPort rest := by
    rw [hostPort, authority_hexEscape, afterLast_hexEscape, decode_hexEscape, hostPort]
  rw [reading, reading, splitScheme, splitScheme, getScheme_hexEscape]
  cases getScheme text with
  | none => rw [Option.map_none, Option.getD_none, Option.getD_none, host]
  | some parts => rw [Option.map_some, Option.getD_some, Option.getD_some, host]

theorem directory_rooted {path : List UInt8} (rooted : path.head? = some '/'.toUInt8) :
    (directory path).head? = some '/'.toUInt8 := by
  obtain ⟨tail, rfl⟩ := List.head?_eq_some_iff.mp rooted
  have member : '/'.toUInt8 ∈ '/'.toUInt8 :: tail := List.mem_cons_self
  have whole := beforeLast_append_afterLast member
  rw [directory, if_pos member]
  cases first : beforeLast '/'.toUInt8 ('/'.toUInt8 :: tail) with
  | nil => rfl
  | cons c others =>
    rw [first, List.cons_append, List.cons.injEq] at whole
    rw [whole.1]
    rfl

theorem reading_of_root {text : List UInt8} (single : text.head? ≠ some '/'.toUInt8) :
    reading ('/'.toUInt8 :: text) = ([], []) := by
  have slashes : ¬ ascii "//" <+: '/'.toUInt8 :: text := by
    rintro ⟨tail, same⟩
    have written : ascii "//" = ['/'.toUInt8, '/'.toUInt8] := by decide
    rw [written, List.cons_append, List.cons.injEq] at same
    exact single (same.2 ▸ rfl)
  rw [reading_of_segment (not_mem_before_of_rooted (.inr rfl) _), hostPort, authority,
    if_neg slashes]
  rfl

theorem reading_absolute {requestPath url : List UInt8}
    (rooted : requestPath = [] ∨ requestPath.head? = some '/'.toUInt8) :
    reading (absolute requestPath url) = ([], []) := by
  have oldpath : (if requestPath = [] then ascii "/" else requestPath).head? =
      some '/'.toUInt8 := by
    split
    · decide
    · rename_i given
      exact rooted.resolve_left given
  rw [absolute]
  set target := if url.head? = some '/'.toUInt8 then url
    else directory (if requestPath = [] then ascii "/" else requestPath) ++ url with target_eq
  have start : target.head? = some '/'.toUInt8 := by
    rw [target_eq]
    split
    · assumption
    · rw [List.head?_append, directory_rooted oldpath]
      rfl
  have path : (before '?'.toUInt8 target).head? = some '/'.toUInt8 := by
    obtain ⟨tail, written⟩ := List.head?_eq_some_iff.mp start
    rw [written, before, List.takeWhile_cons_of_pos (by decide), List.head?_cons]
  have query : (target.dropWhile (· ≠ '?'.toUInt8)).head? ≠ some '/'.toUInt8 := by
    have stopped := List.head?_dropWhile_not (· ≠ '?'.toUInt8) target
    intro slash
    rw [slash] at stopped
    revert stopped
    decide
  obtain ⟨text, cleaned, single⟩ := clean_rooted path
  simp only [cleaned]
  cases text with
  | nil =>
    rw [if_neg (by simp), List.singleton_append]
    exact reading_of_root query
  | cons c text =>
    split
    · exact reading_of_root (by simpa using single)
    · exact reading_of_root (by simpa using single)

/-- A client is sent to where the URL leads. -/
theorem reading_redirect {requestPath : List UInt8}
    (rooted : requestPath = [] ∨ requestPath.head? = some '/'.toUInt8) (url : List UInt8) :
    reading (redirect requestPath url) = reading url := by
  rw [redirect, reading_hexEscape]
  cases parsed : parse url with
  | none => rfl
  | some u =>
    simp only
    split
    · rename_i relative
      rw [reading_absolute rooted, reading_eq parsed, relative.1, relative.2]
    · rfl

end Redirect

section Prefixes

variable {text more : List UInt8}

theorem authority_prefix (rest more : List UInt8) :
    authority rest <+: authority (rest ++ more) := by
  rw [authority]
  split
  · rename_i slashes
    obtain ⟨tail, rfl⟩ := slashes
    have longer : ascii "//" <+: ascii "//" ++ tail ++ more := ⟨tail ++ more, by simp⟩
    rw [authority, if_pos longer, List.append_assoc]
    change tail.takeWhile _ <+: (tail ++ more).takeWhile _
    rw [List.takeWhile_append]
    split
    · rename_i all
      rw [(List.takeWhile_prefix _).eq_of_length all]
      exact List.prefix_append tail _
    · exact List.prefix_rfl
  · exact List.nil_prefix

/-- A text that goes on has the authority that it had, or more. -/
theorem authority_splitScheme_prefix (text more : List UInt8) :
    authority (splitScheme text).2 <+: authority (splitScheme (text ++ more)).2 := by
  by_cases slash : text.head? = some '/'.toUInt8
  · obtain ⟨tail, rfl⟩ := List.head?_eq_some_iff.mp slash
    exact authority_prefix _ more
  · cases found : getScheme text with
    | none =>
      rw [splitScheme, found, Option.getD_none, authority_of_rootless slash]
      exact List.nil_prefix
    | some parts =>
      obtain ⟨scheme, rest⟩ := parts
      rcases getScheme_cases found with ⟨rfl, rfl⟩ | ⟨valid, rfl⟩
      · rw [splitScheme, found, Option.getD_some, authority_of_rootless slash]
        exact List.nil_prefix
      · rw [splitScheme, splitScheme, found, List.append_assoc, List.cons_append,
          getScheme_eq valid]
        exact authority_prefix rest more

theorem decode_eq_nil (empty : decode text = []) : text = [] := by
  cases text with
  | nil => rfl
  | cons c text =>
    by_cases plain : c = '%'.toUInt8
    · match text with
      | [] => cases empty
      | [_] => cases empty
      | high :: low :: text =>
        rw [decode, if_pos plain] at empty
        split at empty <;> cases empty
    · rw [decode_cons plain] at empty
      cases empty

/-- Without a host, a URL was read from a text without an authority. -/
theorem authority_of_readFrom {u : URL} (unhosted : u.Unhosted) (read : u.ReadFrom text) :
    authority (splitScheme text).2 = [] := by
  obtain ⟨_, host, user, place⟩ := unhosted
  obtain ⟨_, _, ⟨none, _⟩ | ⟨parsed, _⟩⟩ := read
  · exact none
  · rw [host, user] at parsed
    have plain : '@'.toUInt8 ∉ authority (splitScheme text).2 := by
      intro member
      rw [parseAuthority, if_neg (not_not.mpr member)] at parsed
      obtain ⟨_, _, parsed⟩ := Option.bind_eq_some_iff.mp parsed
      obtain ⟨_, _, parsed⟩ := Option.bind_eq_some_iff.mp parsed
      cases parsed
    have decoded := decode_of_parseAuthority parsed
    rw [afterLast_eq_self plain] at decoded
    exact decode_eq_nil decoded

end Prefixes

end WgPortal.Library.NetURL
