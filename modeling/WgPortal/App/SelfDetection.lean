import WgPortal.App.BaseURLReading

/-! Which base URLs a node takes for its own. -/

namespace WgPortal.App.Fanout

open Domain Library
open NetIP (Addr parseAddr)

namespace BaseURL

variable (b : BaseURL)

/-- The port that is compared: as it is written, or the default one of a name. -/
def portDigits : Option (List Char) :=
  match b.port, b.host with
  | some port, _ => some port.text
  | none, .name .. =>
    match b.protocol with
    | .http => some "80".toList
    | .https => some "443".toList
  | none, .ipv6 .. => none

/-- The host and the port with which a URL is compared. -/
def spelled : List Char :=
  b.hostname ++
    match b.portDigits with
    | some digits => ':' :: digits
    | none => []

/-- The text that is compared where a URL is not read. -/
def unslashed : List Char := (b.text.reverse.dropWhile (· = '/')).reverse

def SameWriting (a b : BaseURL) : Prop := a.hostname = b.hostname ∧ a.portDigits = b.portDigits

/-- Whether two URLs are taken for those of one node. -/
def Taken (a b : BaseURL) : Prop :=
  match a.form, b.form with
  | .full, .full => a.protocol = b.protocol ∧ a.SameWriting b
  | .bare, .bare => True
  | .bare, .named => b.hostname = "http".toList
  | .named, .bare => a.hostname = "http".toList
  | .named, .named => a.hostname = b.hostname
  | .refused, .refused => a.unslashed = b.unslashed
  | _, _ => False

end BaseURL

section Normalize

variable (unicodeLower : Char → Char)

theorem toLower_ofList {text : List Char} (small : ∀ c ∈ text, c.toNat < 128) :
    (netURLs unicodeLower).toLower (String.ofList text) =
      String.ofList (text.map Char.toLower) := by
  simp only [netURLs, String.toList_ofList]
  congr 1
  exact List.map_congr_left fun c member => if_pos (small c member)

theorem trimmed_ofList {text : List Char} (plain : ∀ c ∈ text, isSpace c = false) :
    trimmed (String.ofList text) = String.ofList text := by
  rw [trimmed, String.toList_ofList, trimSpace_eq_self plain]

theorem ofList_ne_empty {text : List Char} (written : text ≠ []) : String.ofList text ≠ "" := by
  intro empty
  have none := congrArg String.toList empty
  rw [String.toList_ofList] at none
  exact written none

theorem schemeOf_protocol (protocol : Protocol) :
    schemeOf (netURLs unicodeLower) (String.ofList protocol.text) =
      String.ofList protocol.text := by
  have same : protocol.text.map Char.toLower = protocol.text := by cases protocol <;> decide
  have written : protocol.text ≠ [] := by cases protocol <;> decide
  rw [schemeOf, toLower_ofList unicodeLower (protocolText_small protocol), same,
    if_neg (ofList_ne_empty written)]

theorem schemeOf_nil : schemeOf (netURLs unicodeLower) (String.ofList []) = "http" :=
  if_pos rfl

theorem normalizeHostPort_nil (scheme : String) :
    normalizeHostPort (netURLs unicodeLower) (String.ofList []) scheme = "" := by
  have empty : (netURLs unicodeLower).toLower (trimmed (String.ofList [])) = "" := rfl
  rw [normalizeHostPort]
  simp only [empty, if_true]

namespace BaseURL

variable (b : BaseURL)

theorem lower_portText : (portText b.port).map Char.toLower = portText b.port := by
  cases b.port with
  | none => rfl
  | some port =>
    have digits : port.text.map Char.toLower = port.text := by
      conv_rhs => rw [← List.map_id port.text]
      refine List.map_congr_left fun c member => ?_
      have digit := port.digits c member
      exact (ascii_facts (toNat_lt_of_isDigit digit)).lowerDigit digit
    rw [portText, List.map_cons, digits]
    rfl

theorem lower_authority : b.authority.map Char.toLower = b.hostname ++ portText b.port := by
  rw [authority, List.map_append, lower_portText, hostname]

theorem hostname_ne_nil : b.hostname ≠ [] := by
  obtain ⟨c, member, _⟩ := b.exists_host_char
  intro none
  rw [List.map_eq_nil_iff.mp none] at member
  cases member

theorem spelled_ne_nil : b.spelled ≠ [] := fun none =>
  b.hostname_ne_nil (List.append_eq_nil_iff.mp none).1

theorem colon_not_mem_hostname {text : List Char} {named : text ≠ []}
    {plain : ∀ c ∈ text, isNameChar c = true} (name : b.host = .name text named plain) :
    ':' ∉ b.hostname := by
  intro member
  rw [hostname, name] at member
  obtain ⟨c, source, same⟩ := List.mem_map.mp member
  have mark := (ascii_facts (toNat_lt_of_isNameChar (plain c source))).lowerMark (.inl same)
  exact (urlChar_of_name (plain c source)).2.1 (mark ▸ same ▸ by decide)

theorem colon_mem_hostname {text : List Char} {address : Addr}
    {parsed : parseAddr (text.map Char.toLower) = some address} {v6 : address.family = .v6}
    (bracketed : b.host = .ipv6 text address parsed v6) : ':' ∈ b.hostname := by
  have colon : ':' ∈ b.host.text := by
    rw [bracketed]
    exact List.mem_append_left _ (List.mem_cons_of_mem _ (ipv6_colon parsed v6))
  exact List.mem_map_of_mem (f := Char.toLower) colon

/-- The host and the port are completed as far as there is no colon. -/
theorem normalizeHostPort_authority :
    normalizeHostPort (netURLs unicodeLower) (String.ofList b.authority)
      (String.ofList b.protocol.text) = String.ofList b.spelled := by
  have plain : ∀ c ∈ b.authority, isSpace c = false := fun c member =>
    (isURLChar_spec (b.authority_chars c member).1).2.1
  have written : b.hostname ++ portText b.port ≠ [] := fun none =>
    b.hostname_ne_nil (List.append_eq_nil_iff.mp none).1
  rw [normalizeHostPort, trimmed_ofList plain, toLower_ofList unicodeLower authority_small,
    lower_authority]
  simp only [ofList_ne_empty written, if_false, String.toList_ofList]
  cases port : b.port with
  | some port' =>
    have colon : ':' ∈ b.hostname ++ portText (some port') :=
      List.mem_append_right _ List.mem_cons_self
    rw [if_pos colon, spelled, portDigits, port]
    rfl
  | none =>
    rw [portText, List.append_nil]
    cases host : b.host with
    | name text named plain =>
      rw [if_neg (b.colon_not_mem_hostname host), spelled, portDigits, port, host]
      cases b.protocol with
      | http =>
        rw [if_neg (by decide), String.ofList_append]
        rfl
      | https =>
        rw [if_pos (by decide), String.ofList_append]
        rfl
    | ipv6 text address parsed v6 =>
      rw [if_pos (b.colon_mem_hostname host), spelled, portDigits, port, host, List.append_nil]

/-- What is compared of a URL that is read: its scheme, and its host and port. -/
def key : Option (List Char × List Char) :=
  match b.form with
  | .full => some (b.protocol.text, b.spelled)
  | .bare => some ("http".toList, [])
  | .named => some (b.hostname, [])
  | .refused => none

theorem lower_hostname : b.hostname.map Char.toLower = b.hostname := by
  rw [hostname, List.map_map]
  refine List.map_congr_left fun c member => ?_
  exact (ascii_facts (isURLChar_spec (hostText_chars b.host c member).1).1).lowerTwice

/-- How the scheme and the host of a URL go into the comparison. -/
theorem key_eq :
    b.readAs.map (fun parts =>
      (schemeOf (netURLs unicodeLower) (String.ofList parts.1),
        normalizeHostPort (netURLs unicodeLower) (String.ofList parts.2)
          (schemeOf (netURLs unicodeLower) (String.ofList parts.1)))) =
      b.key.map fun parts => (String.ofList parts.1, String.ofList parts.2) := by
  rw [readAs, key]
  cases b.form with
  | full =>
    simp only [Option.map_some, schemeOf_protocol, normalizeHostPort_authority]
  | bare =>
    simp only [Option.map_some, schemeOf_nil, normalizeHostPort_nil]
    rfl
  | named =>
    have small : ∀ c ∈ b.hostname, c.toNat < 128 := by
      intro c member
      obtain ⟨c, source, rfl⟩ := List.mem_map.mp member
      exact toLower_small (isURLChar_spec (hostText_chars b.host c source).1).1
    have scheme : schemeOf (netURLs unicodeLower) (String.ofList b.hostname) =
        String.ofList b.hostname := by
      rw [schemeOf, toLower_ofList unicodeLower small, lower_hostname,
        if_neg (ofList_ne_empty b.hostname_ne_nil)]
    simp only [Option.map_some, scheme, normalizeHostPort_nil]
  | refused => rfl

theorem trimSlashes_string : trimSlashes b.string = String.ofList b.unslashed := by
  rw [trimSlashes, string, String.toList_ofList]
  rfl

theorem string_ne_empty : b.string ≠ "" := by
  obtain ⟨c, member, _⟩ := b.exists_host_char
  refine ofList_ne_empty fun none => ?_
  have listed : c ∈ b.text := List.mem_append_left _
    (List.mem_append_right _ (List.mem_append_left _ member))
  rw [none] at listed
  cases listed

theorem trimmed_string : trimmed b.string = b.string :=
  trimmed_ofList fun c member => (isURLChar_spec (b.isURLChar_of_mem c member)).2.1

theorem isSelf_iff_key (a b : BaseURL) :
    isSelf (netURLs unicodeLower) a.string b.string = true ↔
      match a.key, b.key with
      | some k, some k' => k = k'
      | _, _ => a.unslashed = b.unslashed := by
  have first := a.key_eq unicodeLower
  have second := b.key_eq unicodeLower
  rw [isSelf, trimmed_string, trimmed_string, parse_string_eq, parse_string_eq, trimSlashes_string,
    trimSlashes_string]
  simp only [string_ne_empty, decide_false, Bool.or_false, Bool.false_eq_true, if_false]
  cases readA : a.readAs with
  | none =>
    rw [readA] at first
    rw [Option.map_eq_none_iff.mp first.symm]
    simp [String.ofList_inj]
  | some parts =>
    rw [readA, Option.map_some] at first
    obtain ⟨k, keyA, same⟩ := Option.map_eq_some_iff.mp first.symm
    cases readB : b.readAs with
    | none =>
      rw [readB] at second
      rw [Option.map_eq_none_iff.mp second.symm, keyA]
      simp [String.ofList_inj]
    | some parts' =>
      rw [readB, Option.map_some] at second
      obtain ⟨k', keyB, same'⟩ := Option.map_eq_some_iff.mp second.symm
      rw [Prod.mk.injEq] at same same'
      simp only [keyA, keyB, Option.map_some, ← same.2, ← same'.2]
      simp only [← same.1, ← same'.1, Bool.and_eq_true, decide_eq_true_eq, String.ofList_inj,
        Prod.ext_iff]

end BaseURL

end Normalize

section Splitting

/-- A text that shows where it ends in front of a colon: without one, or in brackets. -/
inductive HostLike : List Char → Prop where
  | plain {text : List Char} (noColon : ':' ∉ text) (noBracket : text.head? ≠ some '[') :
    HostLike text
  | bracketed {text : List Char} (closed : ']' ∉ text) : HostLike ('[' :: text ++ [']'])

/-- Nothing, or a colon and more -/
def PortLike (text : List Char) : Prop := text = [] ∨ text.head? = some ':'

theorem append_ne_bracket {first rest : List Char} (noBracket : first.head? ≠ some '[')
    (port : PortLike rest) (tail : List Char) : first ++ rest ≠ '[' :: tail := by
  intro same
  have head := congrArg List.head? same
  rw [List.head?_append, List.head?_cons] at head
  cases first with
  | nil =>
    rcases port with rfl | colon
    · cases head
    · rw [colon] at head
      exact absurd head (by decide)
  | cons c first => exact noBracket head

theorem HostLike.split {first first' rest rest' : List Char} (host : HostLike first)
    (host' : HostLike first') (port : PortLike rest) (port' : PortLike rest')
    (same : first ++ rest = first' ++ rest') : first = first' ∧ rest = rest' := by
  cases host with
  | plain noColon noBracket =>
    cases host' with
    | plain noColon' noBracket' =>
      rcases port with rfl | colon
      · rcases port' with rfl | colon'
        · rw [List.append_nil, List.append_nil] at same
          exact ⟨same, rfl⟩
        · obtain ⟨tail, rfl⟩ := List.head?_eq_some_iff.mp colon'
          rw [List.append_nil] at same
          exact absurd (same ▸ List.mem_append_right _ List.mem_cons_self) noColon
      · obtain ⟨tail, rfl⟩ := List.head?_eq_some_iff.mp colon
        rcases port' with rfl | colon'
        · rw [List.append_nil] at same
          exact absurd (same ▸ List.mem_append_right _ List.mem_cons_self) noColon'
        · obtain ⟨tail', rfl⟩ := List.head?_eq_some_iff.mp colon'
          obtain ⟨front, back⟩ := NetURL.append_cons_inj noColon noColon' same
          exact ⟨front, by rw [back]⟩
    | bracketed closed =>
      exact absurd same (append_ne_bracket noBracket port _)
  | @bracketed text closed =>
    cases host' with
    | plain noColon' noBracket' =>
      exact absurd same.symm (append_ne_bracket noBracket' port' _)
    | @bracketed text' closed' =>
      have inner : text ++ ']' :: rest = text' ++ ']' :: rest' := by simpa using same
      obtain ⟨rfl, rfl⟩ := NetURL.append_cons_inj closed closed' inner
      exact ⟨rfl, rfl⟩

theorem hostLike_text (host : Host) : HostLike host.text := by
  cases host with
  | name text named plain =>
    refine .plain (fun member => (urlChar_of_name (plain _ member)).2.1 (by decide)) fun head => ?_
    exact (urlChar_of_name (plain _ (List.mem_of_head? head))).2.1 (by decide)
  | ipv6 text address parsed v6 =>
    refine .bracketed fun member => ?_
    exact (urlChar_of_address (ipv6_chars parsed v6 _ member)).2.1 (by decide)

theorem hostLike_hostname (b : BaseURL) : HostLike b.hostname := by
  cases host : b.host with
  | name text named plain =>
    refine .plain (b.colon_not_mem_hostname host) fun head => ?_
    obtain ⟨c, source, same⟩ := List.mem_map.mp (List.mem_of_head? head)
    rw [host] at source
    have mark := (ascii_facts (toNat_lt_of_isNameChar (plain c source))).lowerMark (.inr same)
    exact (urlChar_of_name (plain c source)).2.1 (mark ▸ same ▸ by decide)
  | ipv6 text address parsed v6 =>
    have written : b.hostname = '[' :: text.map Char.toLower ++ [']'] := by
      simp [BaseURL.hostname, host, Host.text]
    rw [written]
    refine .bracketed fun member => ?_
    exact absurd ((NetIP.chars_of_parseAddr parsed v6).2 _ member) (by decide)

theorem portLike_text (port : Option Port) : PortLike (portText port) := by
  cases port with
  | none => exact .inl rfl
  | some port => exact .inr rfl

namespace BaseURL

/-- Two URLs are spelled alike exactly if their hosts and their ports are. -/
theorem spelled_eq_iff {a b : BaseURL} : a.spelled = b.spelled ↔ a.SameWriting b := by
  constructor
  · intro same
    have ports (c : BaseURL) : PortLike (match c.portDigits with
        | some digits => ':' :: digits
        | none => []) := by
      cases c.portDigits with
      | none => exact .inl rfl
      | some digits => exact .inr rfl
    obtain ⟨host, port⟩ :=
      (hostLike_hostname a).split (hostLike_hostname b) (ports a) (ports b) same
    refine ⟨host, ?_⟩
    cases first : a.portDigits <;> cases second : b.portDigits <;> simp_all
  · rintro ⟨host, port⟩
    rw [spelled, spelled, host, port]

theorem authority_eq {a b : BaseURL} (same : a.authority = b.authority) :
    a.host.text = b.host.text ∧ portText a.port = portText b.port :=
  (hostLike_text a.host).split (hostLike_text b.host) (portLike_text a.port) (portLike_text b.port)
    same

theorem value_of_hostname {a b : BaseURL} (same : a.hostname = b.hostname) :
    a.host.value = b.host.value := by
  cases first : a.host with
  | name text named plain =>
    cases second : b.host with
    | name text' named' plain' =>
      rw [hostname, hostname, first, second] at same
      exact congrArg HostValue.name same
    | ipv6 text' address' parsed' v6' =>
      exact absurd (same ▸ b.colon_mem_hostname second) (a.colon_not_mem_hostname first)
  | ipv6 text address parsed v6 =>
    cases second : b.host with
    | name text' named' plain' =>
      exact absurd (same ▸ a.colon_mem_hostname first) (b.colon_not_mem_hostname second)
    | ipv6 text' address' parsed' v6' =>
      have texts : text.map Char.toLower = text'.map Char.toLower := by
        simpa [hostname, first, second, Host.text] using same
      rw [texts, parsed'] at parsed
      exact congrArg HostValue.address (Option.some.inj parsed).symm

theorem port_of_digits (b : BaseURL) :
    b.node.port = match b.portDigits with
      | some digits => digits.foldl (fun n c => 10 * n + (c.toNat - '0'.toNat)) 0
      | none => b.protocol.defaultPort := by
  rw [node, portDigits]
  cases port : b.port with
  | some port => rfl
  | none =>
    cases host : b.host with
    | name text named plain => cases b.protocol <;> rfl
    | ipv6 text address parsed v6 => rfl

theorem node_eq_of_sameWriting {a b : BaseURL} (protocol : a.protocol = b.protocol)
    (same : a.SameWriting b) : a.node = b.node := by
  have ports : a.node.port = b.node.port := by
    rw [port_of_digits, port_of_digits, same.2, protocol]
  exact Node.ext protocol (value_of_hostname same.1) ports

theorem node_eq_of_authority {a b : BaseURL} (noScheme : a.scheme = none)
    (noScheme' : b.scheme = none) (same : a.authority = b.authority) : a.node = b.node := by
  obtain ⟨host, port⟩ := authority_eq same
  have protocols : a.protocol = b.protocol := by rw [protocol, protocol, noScheme, noScheme']
  refine Node.ext protocols (value_of_hostname (congrArg (List.map Char.toLower) host)) ?_
  rw [node, node, protocols]
  cases first : a.port with
  | none =>
    cases second : b.port with
    | none => rfl
    | some port' =>
      rw [first, second] at port
      cases port
  | some port₁ =>
    cases second : b.port with
    | none =>
      rw [first, second] at port
      cases port
    | some port₂ =>
      rw [first, second] at port
      have digits : port₁.text = port₂.text := (List.cons.inj port).2
      simp only [Port.value, digits]

end BaseURL

end Splitting

section Segments

def segment (text : List Char) : List Char := text.takeWhile (· ≠ '/')

namespace BaseURL

/-- The slashes at the end are not part of the first segment. -/
theorem segment_unslashed (b : BaseURL) : segment b.unslashed = segment b.text := by
  have whole := congrArg List.reverse
    (List.takeWhile_append_dropWhile (p := fun c => decide (c = '/')) (l := b.text.reverse))
  rw [List.reverse_append, List.reverse_reverse] at whole
  change b.unslashed ++ _ = b.text at whole
  have slashes : ∀ c ∈ (b.text.reverse.takeWhile (· = '/')).reverse, c = '/' := by
    intro c member
    simpa using List.mem_takeWhile_imp (List.mem_reverse.mp member)
  have none : segment (b.text.reverse.takeWhile (· = '/')).reverse = [] := by
    cases tail : (b.text.reverse.takeWhile (· = '/')).reverse with
    | nil => rfl
    | cons c tail' =>
      rw [segment, List.takeWhile_cons_of_neg (by
        simp [slashes c (tail ▸ List.mem_cons_self)])]
  rw [← whole, segment, segment, List.takeWhile_append]
  split
  · rename_i all
    rw [(List.takeWhile_prefix _).eq_of_length all]
    exact (none ▸ List.append_nil _).symm
  · rfl

theorem segment_full {b : BaseURL} {scheme : Scheme} (given : b.scheme = some scheme) :
    segment b.text = scheme.text ++ [':'] := by
  have written : b.text = (scheme.text ++ [':']) ++ '/' :: '/' :: (b.authority ++ b.path) := by
    simp [text, schemeText, given]
  have single : '/' ∉ scheme.text ++ [':'] := by
    intro member
    rcases List.mem_append.mp member with member | member
    · exact absurd (mem_schemeText member) (by decide)
    · exact absurd (List.mem_singleton.mp member) (by decide)
  rw [written, segment]
  exact NetURL.takeWhile_ne_append single (.inr rfl)

theorem segment_schemeless {b : BaseURL} (noScheme : b.scheme = none) :
    segment b.text = b.authority := by
  have written : b.text = b.authority ++ b.path := by simp [text, schemeText, noScheme]
  have single : '/' ∉ b.authority := fun member =>
    absurd (b.authority_chars _ member).2 (by decide)
  rw [written, segment]
  exact NetURL.takeWhile_ne_append single b.rooted

end BaseURL

end Segments

section Forms

namespace BaseURL

variable {a b : BaseURL}

/-- A name that can be a scheme in front of a port -/
def IsNamed (b : BaseURL) : Prop :=
  b.scheme = none ∧ b.port ≠ none ∧
    ∃ text named plain, b.host = .name text named plain ∧ canBeScheme text = true

theorem form_full : b.form = .full ↔ b.scheme ≠ none := by
  cases scheme : b.scheme with
  | some scheme' => simp [form, scheme]
  | none =>
    cases host : b.host with
    | name text named plain =>
      cases port : b.port with
      | none => simp [form, scheme, host, port]
      | some port' => cases can : canBeScheme text <;> simp [form, scheme, host, port, can]
    | ipv6 text address parsed v6 => simp [form, scheme, host]

theorem form_bare (bare : b.form = .bare) :
    b.scheme = none ∧ b.port = none ∧ ∃ text named plain, b.host = .name text named plain := by
  cases scheme : b.scheme with
  | some scheme' => simp [form, scheme] at bare
  | none =>
    cases host : b.host with
    | name text named plain =>
      cases port : b.port with
      | none => exact ⟨rfl, rfl, text, named, plain, rfl⟩
      | some port' => cases can : canBeScheme text <;> simp [form, scheme, host, port, can] at bare
    | ipv6 text address parsed v6 => simp [form, scheme, host] at bare

theorem form_named (isNamed : b.form = .named) : b.IsNamed := by
  cases scheme : b.scheme with
  | some scheme' => simp [form, scheme] at isNamed
  | none =>
    cases host : b.host with
    | name text named plain =>
      cases port : b.port with
      | none => simp [form, scheme, host, port] at isNamed
      | some port' =>
        cases can : canBeScheme text with
        | false => simp [form, scheme, host, port, can] at isNamed
        | true => exact ⟨scheme, by simp [port], text, named, plain, host, can⟩
    | ipv6 text address parsed v6 => simp [form, scheme, host] at isNamed

theorem form_refused (refused : b.form = .refused) :
    b.scheme = none ∧
      ((∃ text named plain, b.host = .name text named plain ∧ b.port ≠ none ∧
          canBeScheme text = false) ∨
        ∃ text address parsed v6, b.host = .ipv6 text address parsed v6) := by
  cases scheme : b.scheme with
  | some scheme' => simp [form, scheme] at refused
  | none =>
    refine ⟨rfl, ?_⟩
    cases host : b.host with
    | name text named plain =>
      cases port : b.port with
      | none => simp [form, scheme, host, port] at refused
      | some port' =>
        cases can : canBeScheme text with
        | true => simp [form, scheme, host, port, can] at refused
        | false => exact .inl ⟨text, named, plain, rfl, by simp, can⟩
    | ipv6 text address parsed v6 => exact .inr ⟨text, address, parsed, v6, rfl⟩

theorem bracket_ne_name {text text' : List Char} {named : text ≠ []}
    {plain : ∀ c ∈ text, isNameChar c = true} {address : Addr}
    {parsed : parseAddr (text'.map Char.toLower) = some address} {v6 : address.family = .v6} :
    (Host.ipv6 text' address parsed v6).text ≠ (Host.name text named plain).text := by
  intro same
  have member : '[' ∈ (Host.name text named plain).text := same ▸ List.mem_cons_self
  exact absurd (plain _ member) (by decide)

theorem portText_eq_nil {port : Option Port} (empty : portText port = []) : port = none := by
  cases port with
  | none => rfl
  | some port' => cases empty

theorem portText_ne_colon (port : Option Port) : portText port ≠ [':'] := by
  cases port with
  | none => decide
  | some port' =>
    intro same
    exact port'.given (List.cons.inj same).2

theorem hostLike_scheme (scheme : Scheme) : HostLike scheme.text :=
  .plain (fun member => absurd (mem_schemeText member) (by decide)) fun head =>
    absurd (mem_schemeText (List.mem_of_head? head)) (by decide)

/-- A text that is not read is not the one of a URL that is. -/
theorem unslashed_ne (refused : a.form = .refused) (read : b.form ≠ .refused) :
    a.unslashed ≠ b.unslashed := by
  intro same
  obtain ⟨noScheme, hosts⟩ := form_refused refused
  have segments : a.authority = segment b.text := by
    rw [← segment_schemeless noScheme, ← segment_unslashed, same, segment_unslashed]
  cases form : b.form with
  | refused => exact read form
  | full =>
    -- A name in front of the first colon would need a port behind it.
    obtain ⟨scheme, given⟩ := Option.ne_none_iff_exists'.mp (form_full.mp form)
    rw [segment_full given] at segments
    have ports := ((hostLike_text a.host).split (hostLike_scheme scheme) (portLike_text a.port)
      (.inr rfl) segments).2
    exact portText_ne_colon a.port ports
  | bare =>
    obtain ⟨noScheme', noPort, text, named, plain, host⟩ := form_bare form
    rw [segment_schemeless noScheme'] at segments
    obtain ⟨hostTexts, ports⟩ := authority_eq segments
    rw [noPort] at ports
    rw [host] at hostTexts
    rcases hosts with ⟨_, _, _, _, port', _⟩ | ⟨text', address, parsed, v6, host'⟩
    · exact port' (portText_eq_nil ports)
    · rw [host'] at hostTexts
      exact bracket_ne_name hostTexts
  | named =>
    obtain ⟨noScheme', port, text, named, plain, host, can⟩ := form_named form
    rw [segment_schemeless noScheme'] at segments
    have hostTexts := (authority_eq segments).1
    rw [host] at hostTexts
    rcases hosts with ⟨text', _, _, host', _, no⟩ | ⟨text', address, parsed, v6, host'⟩
    · rw [host'] at hostTexts
      have texts : text' = text := hostTexts
      rw [texts, can] at no
      cases no
    · rw [host'] at hostTexts
      exact bracket_ne_name hostTexts

theorem node_eq_of_unslashed (refused : a.form = .refused) (refused' : b.form = .refused)
    (same : a.unslashed = b.unslashed) : a.node = b.node := by
  have noScheme := (form_refused refused).1
  have noScheme' := (form_refused refused').1
  refine node_eq_of_authority noScheme noScheme' ?_
  rw [← segment_schemeless noScheme, ← segment_unslashed, same, segment_unslashed,
    segment_schemeless noScheme']

theorem protocolText_inj {protocol protocol' : Protocol} (same : protocol.text = protocol'.text) :
    protocol = protocol' := by
  cases protocol <;> cases protocol' <;> first | rfl | exact absurd same (by decide)

/-- The comparison, form by form. -/
theorem isSelf_iff_taken (unicodeLower : Char → Char) (a b : BaseURL) :
    isSelf (netURLs unicodeLower) a.string b.string = true ↔ a.Taken b := by
  rw [isSelf_iff_key, key, key, Taken]
  cases formA : a.form with
  | full =>
    cases formB : b.form with
    | full =>
      simp only [Prod.mk.injEq, spelled_eq_iff]
      exact and_congr_left fun _ => ⟨protocolText_inj, congrArg Protocol.text⟩
    | bare => simp [a.spelled_ne_nil]
    | named => simp [a.spelled_ne_nil]
    | refused => simpa using (unslashed_ne formB (by simp [formA])).symm
  | bare =>
    cases formB : b.form with
    | full => simp [b.spelled_ne_nil.symm]
    | bare => simp
    | named => simp [eq_comm]
    | refused => simpa using (unslashed_ne formB (by simp [formA])).symm
  | named =>
    cases formB : b.form with
    | full => simp [b.spelled_ne_nil.symm]
    | bare => simp
    | named => simp
    | refused => simpa using (unslashed_ne formB (by simp [formA])).symm
  | refused =>
    cases formB : b.form with
    | refused => rfl
    | full => simpa using unslashed_ne formA (by simp [formB])
    | bare => simpa using unslashed_ne formA (by simp [formB])
    | named => simpa using unslashed_ne formA (by simp [formB])

end BaseURL

end Forms

section Exact

namespace BaseURL

/-- When two URLs are compared exactly. With a scheme they are compared as they are written; of a
name without one the host or the port is lost, and where both are not read, the paths count too. -/
def Exact (a b : BaseURL) : Prop :=
  match a.form, b.form with
  | .full, .full => a.node = b.node → a.SameWriting b
  | .bare, .bare => a.node = b.node
  | .bare, .named => if b.hostname = "http".toList then a.node = b.node else a.node ≠ b.node
  | .named, .bare => if a.hostname = "http".toList then a.node = b.node else a.node ≠ b.node
  | .named, .named => a.hostname = b.hostname → a.node = b.node
  | .refused, .refused => a.node = b.node → a.unslashed = b.unslashed
  | _, _ => a.node ≠ b.node

variable {a b : BaseURL}

theorem hostname_eq_of_node {text text' : List Char} {named : text ≠ []} {named' : text' ≠ []}
    {plain : ∀ c ∈ text, isNameChar c = true} {plain' : ∀ c ∈ text', isNameChar c = true}
    (name : a.host = .name text named plain) (name' : b.host = .name text' named' plain')
    (same : a.node = b.node) : a.hostname = b.hostname := by
  have values : a.host.value = b.host.value := congrArg Node.host same
  rw [name, name'] at values
  rw [hostname, hostname, name, name']
  exact HostValue.name.inj values

theorem iff_iff_ite {p q : Prop} [Decidable p] : (p ↔ q) ↔ if p then q else ¬q := by
  split
  · rename_i holds
    exact iff_of_eq ((congrArg (· ↔ q) (eq_true holds)).trans (true_iff q))
  · rename_i fails
    exact iff_of_eq ((congrArg (· ↔ q) (eq_false fails)).trans (false_iff q))

/-- A node takes the URLs of its own, and no other, for its own exactly under the condition of the
two forms. -/
theorem isSelf_exact_iff (unicodeLower : Char → Char) (a b : BaseURL) :
    (isSelf (netURLs unicodeLower) a.string b.string = true ↔ a.node = b.node) ↔ a.Exact b := by
  have never : (False ↔ a.node = b.node) ↔ a.node ≠ b.node := iff_of_eq (false_iff _)
  have always : (True ↔ a.node = b.node) ↔ a.node = b.node := iff_of_eq (true_iff _)
  rw [isSelf_iff_taken, Taken, Exact]
  cases formA : a.form with
  | full =>
    cases formB : b.form with
    | full =>
      constructor
      · intro exact_ same
        exact (exact_.mpr same).2
      · intro writing
        exact ⟨fun taken => node_eq_of_sameWriting taken.1 taken.2,
          fun same => ⟨congrArg Node.protocol same, writing same⟩⟩
    | bare => exact never
    | named => exact never
    | refused => exact never
  | bare =>
    cases formB : b.form with
    | full => exact never
    | bare => exact always
    | named =>
      exact iff_iff_ite
    | refused => exact never
  | named =>
    cases formB : b.form with
    | full => exact never
    | bare =>
      exact iff_iff_ite
    | named =>
      obtain ⟨_, _, _, _, _, name, _⟩ := form_named formA
      obtain ⟨_, _, _, _, _, name', _⟩ := form_named formB
      exact ⟨fun exact_ => exact_.mp,
        fun hosts => ⟨hosts, hostname_eq_of_node name name'⟩⟩
    | refused => exact never
  | refused =>
    cases formB : b.form with
    | full => exact never
    | bare => exact never
    | named => exact never
    | refused =>
      exact ⟨fun exact_ => exact_.mpr, fun texts => ⟨node_eq_of_unslashed formA formB, texts⟩⟩

/-- `node-a` -/
def nodeA : BaseURL where
  scheme := none
  host := .name "node-a".toList (by decide) (List.forall_iff_forall_mem.mp (by decide))
  port := none
  path := []
  rooted := .inl rfl
  plain := by simp

/-- `node-b` -/
def nodeB : BaseURL where
  scheme := none
  host := .name "node-b".toList (by decide) (List.forall_iff_forall_mem.mp (by decide))
  port := none
  path := []
  rooted := .inl rfl
  plain := by simp

theorem nodeA_ne_nodeB : nodeA.node ≠ nodeB.node := by
  intro same
  have hosts := HostValue.name.inj (congrArg Node.host same)
  exact absurd hosts (by decide)

theorem nodeA_taken : nodeA.Taken nodeB := by
  have bare : nodeA.form = .bare := rfl
  have bare' : nodeB.form = .bare := rfl
  rw [Taken, bare, bare']
  trivial

/-- Two nodes that are given by their names only are taken for one. -/
theorem otherNode_taken :
    ¬(isSelf (netURLs id) nodeA.string nodeB.string = true ↔ nodeA.node = nodeB.node) := by
  intro exact_
  have taken := (isSelf_iff_taken id nodeA nodeB).mpr nodeA_taken
  exact nodeA_ne_nodeB (exact_.mp taken)

end BaseURL

end Exact

end WgPortal.App.Fanout
