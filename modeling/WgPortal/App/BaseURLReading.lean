import Mathlib.Tactic.MkIffOfInductiveProp
import WgPortal.App.BaseURL
import WgPortal.Library.PlainURL

/-! How `url.Parse` reads the base URLs of the nodes. -/

namespace WgPortal.App.Fanout

open Domain Library
open NetURL (ascii)
open NetIP (Addr parseAddr)

section Ascii

/-- The characters are checked one by one. -/
theorem forall_ascii {P : Char → Prop} (all : ∀ n < 128, P (Char.ofNat n)) (c : Char)
    (small : c.toNat < 128) : P c := by
  have holds := all c.toNat small
  rwa [Char.ofNat_toNat] at holds

theorem utf8Encode_eq {text : List Char} (small : ∀ c ∈ text, c.toNat < 128) :
    text.utf8Encode = (text.map Char.toUInt8).toByteArray := by
  rw [List.utf8Encode]
  congr 1
  induction text with
  | nil => rfl
  | cons c text ih =>
    have one : c.utf8Size = 1 := by
      rw [Char.utf8Size_eq_one_iff, UInt32.le_iff_toNat_le]
      exact Nat.le_of_lt_succ (small c List.mem_cons_self)
    rw [List.flatMap_cons, String.utf8EncodeChar_eq_singleton one,
      ih fun d member => small d (List.mem_cons_of_mem c member)]
    rfl

theorem bytesOf_ofList {text : List Char} (small : ∀ c ∈ text, c.toNat < 128) :
    bytesOf (String.ofList text) = text.map Char.toUInt8 := by
  rw [bytesOf, String.toUTF8_eq_toByteArray, String.toByteArray_ofList, utf8Encode_eq small,
    List.toList_data_toByteArray]

theorem textOf_map {text : List Char} (small : ∀ c ∈ text, c.toNat < 128) :
    textOf (text.map Char.toUInt8) = some (String.ofList text) := by
  rw [textOf, ← utf8Encode_eq small, String.fromUTF8?, dif_pos ByteArray.isValidUTF8_utf8Encode]
  rfl

theorem toNat_lt_of_le {c top : Char} (le : c.val ≤ top.val) (small : top.toNat < 128) :
    c.toNat < 128 :=
  lt_of_le_of_lt (UInt32.le_iff_toNat_le.mp le) small

theorem toNat_lt_of_toLower {c : Char} (small : c.toLower.toNat < 128) : c.toNat < 128 := by
  by_cases upper : c.val ≥ 'A'.val ∧ c.val ≤ 'Z'.val
  · exact toNat_lt_of_le upper.2 (by decide)
  · have same : c.toLower = c := dif_neg upper
    rwa [same] at small

theorem toNat_lt_of_isAlphanum {c : Char} (alphanum : c.isAlphanum = true) : c.toNat < 128 := by
  change (decide (c.val ≥ 'A'.val ∧ c.val ≤ 'Z'.val) ||
    (decide (c.val ≥ 'a'.val) && decide (c.val ≤ 'z'.val)) ||
    (decide (c.val ≥ '0'.val) && decide (c.val ≤ '9'.val))) = true at alphanum
  rw [Bool.or_eq_true, Bool.or_eq_true, Bool.and_eq_true, Bool.and_eq_true, decide_eq_true_eq,
    decide_eq_true_eq, decide_eq_true_eq, decide_eq_true_eq, decide_eq_true_eq] at alphanum
  rcases alphanum with (upper | lower) | digit
  · exact toNat_lt_of_le upper.2 (by decide)
  · exact toNat_lt_of_le lower.2 (by decide)
  · exact toNat_lt_of_le digit.2 (by decide)

theorem toNat_lt_of_isNameChar {c : Char} (plain : isNameChar c = true) : c.toNat < 128 := by
  rw [isNameChar, Bool.or_eq_true, decide_eq_true_eq] at plain
  rcases plain with alphanum | mark
  · exact toNat_lt_of_isAlphanum alphanum
  · have marks : ∀ c ∈ "-._".toList, c.toNat < 128 :=
      List.forall_iff_forall_mem.mp (by decide)
    exact marks c mark

theorem toNat_lt_of_isPathChar {c : Char} (plain : isPathChar c = true) : c.toNat < 128 := by
  rw [isPathChar, Bool.or_eq_true, decide_eq_true_eq] at plain
  rcases plain with alphanum | mark
  · exact toNat_lt_of_isAlphanum alphanum
  · have marks : ∀ c ∈ "-._~!$&'()*+,;=:@/".toList, c.toNat < 128 :=
      List.forall_iff_forall_mem.mp (by decide)
    exact marks c mark

theorem toNat_lt_of_isAddressChar {c : Char} (plain : NetIP.isAddressChar c = true) :
    c.toNat < 128 := by
  rw [NetIP.isAddressChar, Bool.or_eq_true, Bool.or_eq_true, decide_eq_true_eq,
    decide_eq_true_eq] at plain
  rcases plain with (digit | rfl) | rfl
  · rw [NetIP.hexVal] at digit
    split at digit
    · rename_i decimal
      exact toNat_lt_of_le decimal.2 (by decide)
    · split at digit
      · rename_i small
        exact toNat_lt_of_le small.2 (by decide)
      · split at digit
        · rename_i capital
          exact toNat_lt_of_le capital.2 (by decide)
        · cases digit
  · decide
  · decide

theorem toNat_lt_of_isDigit {c : Char} (digit : c.isDigit = true) : c.toNat < 128 :=
  toNat_lt_of_isAlphanum (by rw [Char.isAlphanum, digit, Bool.or_true])

end Ascii

section Characters

/-- The characters that base URLs are written with. -/
def isURLChar (c : Char) : Bool :=
  c.toNat < 128 && !isSpace c && !NetURL.isControl c.toUInt8 && c ∉ "?#%".toList

/-- What is used of a character in ASCII -/
@[mk_iff] structure AsciiFacts (c : Char) : Prop where
  name : isNameChar c = true → isURLChar c = true ∧ c ∉ ":/[]@*".toList ∧
    NetURL.passes .host c.toUInt8 = true ∧ NetURL.passes .path c.toUInt8 = true
  path : isPathChar c = true → isURLChar c = true ∧ NetURL.passes .path c.toUInt8 = true
  address : NetIP.isAddressChar c.toLower = true → isURLChar c = true ∧ c ∉ "/[]@".toList ∧
    NetURL.passes .host c.toUInt8 = true
  digit : c.isDigit = true → isURLChar c = true ∧ c ∉ ":/[]@".toList ∧
    NetURL.isDigit c.toUInt8 = true ∧ isNameChar c = true
  scheme : c.toLower ∈ "https".toList → isURLChar c = true ∧ NetURL.isLetter c.toUInt8 = true
  letter : NetURL.isLetter c.toUInt8 = c.isAlpha
  schemeByte : isNameChar c = true → (NetURL.isSchemeByte c.toUInt8 = true ↔ c ≠ '_')
  lower : NetURL.lower c.toUInt8 = c.toLower.toUInt8
  lowerSmall : c.toLower.toNat < 128
  lowerTwice : c.toLower.toLower = c.toLower
  lowerDigit : c.isDigit = true → c.toLower = c
  lowerMark : c.toLower = ':' ∨ c.toLower = '[' → c.toLower = c

instance (c : Char) : Decidable (AsciiFacts c) := decidable_of_iff' _ (asciiFacts_iff c)

theorem ascii_facts {c : Char} (small : c.toNat < 128) : AsciiFacts c :=
  forall_ascii (by decide +kernel) c small

theorem urlChar_of_name {c : Char} (plain : isNameChar c = true) :
    isURLChar c = true ∧ c ∉ ":/[]@*".toList ∧ NetURL.passes .host c.toUInt8 = true ∧
      NetURL.passes .path c.toUInt8 = true :=
  (ascii_facts (toNat_lt_of_isNameChar plain)).name plain

theorem urlChar_of_path {c : Char} (plain : isPathChar c = true) :
    isURLChar c = true ∧ NetURL.passes .path c.toUInt8 = true :=
  (ascii_facts (toNat_lt_of_isPathChar plain)).path plain

theorem urlChar_of_address {c : Char} (plain : NetIP.isAddressChar c.toLower = true) :
    isURLChar c = true ∧ c ∉ "/[]@".toList ∧ NetURL.passes .host c.toUInt8 = true :=
  (ascii_facts (toNat_lt_of_toLower (toNat_lt_of_isAddressChar plain))).address plain

theorem urlChar_of_digit {c : Char} (digit : c.isDigit = true) :
    isURLChar c = true ∧ c ∉ ":/[]@".toList ∧ NetURL.isDigit c.toUInt8 = true ∧
      isNameChar c = true :=
  (ascii_facts (toNat_lt_of_isDigit digit)).digit digit

theorem urlChar_of_scheme {c : Char} (letter : c.toLower ∈ "https".toList) :
    isURLChar c = true ∧ NetURL.isLetter c.toUInt8 = true := by
  have letters : ∀ c ∈ "https".toList, c.toNat < 128 :=
    List.forall_iff_forall_mem.mp (by decide)
  exact (ascii_facts (toNat_lt_of_toLower (letters _ letter))).scheme letter

theorem toLower_small {c : Char} (small : c.toNat < 128) : c.toLower.toNat < 128 :=
  (ascii_facts small).lowerSmall

theorem lower_toUInt8 {c : Char} (small : c.toNat < 128) :
    NetURL.lower c.toUInt8 = c.toLower.toUInt8 :=
  (ascii_facts small).lower

theorem toUInt8_inj {c d : Char} (small : c.toNat < 128) (small' : d.toNat < 128)
    (same : c.toUInt8 = d.toUInt8) : c = d := by
  have numbers := congrArg UInt8.toNat same
  change c.toNat % 256 = d.toNat % 256 at numbers
  rw [Nat.mod_eq_of_lt (by omega), Nat.mod_eq_of_lt (by omega)] at numbers
  rw [← Char.ofNat_toNat c, numbers, Char.ofNat_toNat]

theorem not_mem_map_toUInt8 {text : List Char} (small : ∀ c ∈ text, c.toNat < 128) {d : Char}
    (small' : d.toNat < 128) (absent : d ∉ text) : d.toUInt8 ∉ text.map Char.toUInt8 := by
  intro member
  obtain ⟨c, source, same⟩ := List.mem_map.mp member
  exact absent (toUInt8_inj (small c source) small' same ▸ source)

theorem isURLChar_spec {c : Char} (plain : isURLChar c = true) :
    c.toNat < 128 ∧ isSpace c = false ∧ NetURL.isControl c.toUInt8 = false ∧
      c ∉ "?#%".toList := by
  rw [isURLChar, Bool.and_eq_true, Bool.and_eq_true, Bool.and_eq_true, decide_eq_true_eq,
    decide_eq_true_eq, Bool.not_eq_true', Bool.not_eq_true'] at plain
  exact ⟨plain.1.1.1, plain.1.1.2, plain.1.2, plain.2⟩

end Characters

section Written

theorem protocolText_small (protocol : Protocol) : ∀ c ∈ protocol.text, c.toNat < 128 := by
  cases protocol with
  | http => exact List.forall_iff_forall_mem.mp (by decide)
  | https => exact List.forall_iff_forall_mem.mp (by decide)

theorem mem_schemeText {scheme : Scheme} {c : Char} (member : c ∈ scheme.text) :
    c.toLower ∈ "https".toList := by
  have low : c.toLower ∈ scheme.protocol.text := by
    rw [← scheme.spelled]
    exact List.mem_map_of_mem member
  cases protocol : scheme.protocol with
  | http =>
    rw [protocol] at low
    have letters : ∀ c ∈ Protocol.http.text, c ∈ "https".toList :=
      List.forall_iff_forall_mem.mp (by decide)
    exact letters _ low
  | https =>
    rw [protocol] at low
    exact low

theorem ipv6_chars {text : List Char} {address : Addr}
    (parsed : parseAddr (text.map Char.toLower) = some address) (v6 : address.family = .v6) :
    ∀ c ∈ text, NetIP.isAddressChar c.toLower = true :=
  fun _ member => (NetIP.chars_of_parseAddr parsed v6).2 _ (List.mem_map_of_mem member)

theorem ipv6_colon {text : List Char} {address : Addr}
    (parsed : parseAddr (text.map Char.toLower) = some address) (v6 : address.family = .v6) :
    ':' ∈ text := by
  obtain ⟨c, member, same⟩ := List.mem_map.mp (NetIP.chars_of_parseAddr parsed v6).1
  have small := toNat_lt_of_toLower (toNat_lt_of_isAddressChar (ipv6_chars parsed v6 c member))
  have colon : c = ':' := ((ascii_facts small).lowerMark (.inl same)).symm.trans same
  exact colon ▸ member

theorem hostText_chars (host : Host) : ∀ c ∈ host.text, isURLChar c = true ∧ c ∉ "/@".toList := by
  intro c member
  cases host with
  | name text named plain =>
    obtain ⟨written, other, _⟩ := urlChar_of_name (plain c member)
    have marks : ∀ c ∈ "/@".toList, c ∈ ":/[]@*".toList :=
      List.forall_iff_forall_mem.mp (by decide)
    exact ⟨written, fun mark => other (marks c mark)⟩
  | ipv6 text address parsed v6 =>
    rcases List.mem_append.mp member with member | member
    · rcases List.mem_cons.mp member with rfl | member
      · decide
      · obtain ⟨written, other, _⟩ := urlChar_of_address (ipv6_chars parsed v6 c member)
        have marks : ∀ c ∈ "/@".toList, c ∈ "/[]@".toList :=
          List.forall_iff_forall_mem.mp (by decide)
        exact ⟨written, fun mark => other (marks c mark)⟩
    · rw [List.mem_singleton.mp member]
      decide

theorem portText_chars (port : Option Port) :
    ∀ c ∈ portText port, isURLChar c = true ∧ c ∉ "/@".toList := by
  intro c member
  cases port with
  | none => cases member
  | some port =>
    rcases List.mem_cons.mp member with rfl | member
    · decide
    · obtain ⟨written, other, _⟩ := urlChar_of_digit (port.digits c member)
      have marks : ∀ c ∈ "/@".toList, c ∈ ":/[]@".toList :=
        List.forall_iff_forall_mem.mp (by decide)
      exact ⟨written, fun mark => other (marks c mark)⟩

namespace BaseURL

variable (b : BaseURL)

theorem authority_chars : ∀ c ∈ b.authority, isURLChar c = true ∧ c ∉ "/@".toList := by
  intro c member
  rcases List.mem_append.mp member with member | member
  · exact hostText_chars b.host c member
  · exact portText_chars b.port c member

theorem isURLChar_of_mem : ∀ c ∈ b.text, isURLChar c = true := by
  intro c member
  rcases List.mem_append.mp member with member | member
  · rcases List.mem_append.mp member with member | member
    · rw [schemeText] at member
      split at member
      · rcases List.mem_append.mp member with member | member
        · exact (urlChar_of_scheme (mem_schemeText member)).1
        · have marks : ∀ c ∈ "://".toList, isURLChar c = true :=
            List.forall_iff_forall_mem.mp (by decide)
          exact marks c member
      · cases member
    · exact (b.authority_chars c member).1
  · exact (urlChar_of_path (b.plain c member)).1

theorem small : ∀ c ∈ b.text, c.toNat < 128 :=
  fun c member => (isURLChar_spec (b.isURLChar_of_mem c member)).1

def bytes : List UInt8 := b.text.map Char.toUInt8

theorem exists_host_char : ∃ c ∈ b.host.text, c ≠ '*' := by
  cases b.host with
  | name text named plain =>
    obtain ⟨first, others, rfl⟩ := List.exists_cons_of_ne_nil named
    refine ⟨first, List.mem_cons_self, ?_⟩
    rintro rfl
    exact absurd (plain '*' List.mem_cons_self) (by decide)
  | ipv6 text address parsed v6 => exact ⟨'[', List.mem_cons_self, by decide⟩

theorem plain_bytes : NetURL.Plain b.bytes where
  control := by
    intro c member
    obtain ⟨c, source, rfl⟩ := List.mem_map.mp member
    exact (isURLChar_spec (b.isURLChar_of_mem c source)).2.2.1
  query := not_mem_map_toUInt8 b.small (by decide) fun member =>
    absurd (b.isURLChar_of_mem _ member) (by decide)
  fragment := not_mem_map_toUInt8 b.small (by decide) fun member =>
    absurd (b.isURLChar_of_mem _ member) (by decide)
  star := by
    intro same
    obtain ⟨c, member, other⟩ := b.exists_host_char
    have listed : c ∈ b.text := List.mem_append_left _
      (List.mem_append_right _ (List.mem_append_left _ member))
    have mapped : c.toUInt8 ∈ ascii "*" := same ▸ List.mem_map_of_mem listed
    exact other (toUInt8_inj (b.small c listed) (by decide) (List.mem_singleton.mp mapped))

theorem parse_string (unicodeLower : Char → Char) :
    (netURLs unicodeLower).parse b.string = (NetURL.parse b.bytes).bind fun u =>
      (textOf u.scheme).bind fun scheme => (textOf u.host).map fun host => (scheme, host) := by
  simp only [netURLs, string, bytesOf_ofList b.small, bytes]
  cases NetURL.parse (b.text.map Char.toUInt8) with
  | none => rfl
  | some u => cases scheme : textOf u.scheme <;> cases host : textOf u.host <;> simp [scheme, host]

end BaseURL

end Written

section Readings

variable {b : BaseURL}

theorem map_lower {text : List Char} (small : ∀ c ∈ text, c.toNat < 128) :
    (text.map Char.toUInt8).map NetURL.lower = (text.map Char.toLower).map Char.toUInt8 := by
  rw [List.map_map, List.map_map]
  exact List.map_congr_left fun c member => lower_toUInt8 (small c member)

theorem isDigit_bytes (port : Port) :
    ∀ c ∈ port.text.map Char.toUInt8, NetURL.isDigit c = true := by
  intro c member
  obtain ⟨c, source, rfl⟩ := List.mem_map.mp member
  exact (urlChar_of_digit (port.digits c source)).2.2.1

theorem parseHost_host (host : Host) (port : Option Port) :
    NetURL.parseHost ((host.text ++ portText port).map Char.toUInt8) =
      some ((host.text ++ portText port).map Char.toUInt8) := by
  cases host with
  | name text named plain =>
    have kept : ∀ c ∈ text.map Char.toUInt8, NetURL.passes .host c = true := by
      intro c member
      obtain ⟨c, source, rfl⟩ := List.mem_map.mp member
      exact (urlChar_of_name (plain c source)).2.2.1
    have others : ∀ c ∈ text.map Char.toUInt8, c ≠ '['.toUInt8 ∧ c ≠ ':'.toUInt8 := by
      intro c member
      obtain ⟨c, source, rfl⟩ := List.mem_map.mp member
      have small := toNat_lt_of_isNameChar (plain c source)
      have absent := (urlChar_of_name (plain c source)).2.1
      constructor
      · intro same
        exact absent (toUInt8_inj small (by decide) same ▸ by decide)
      · intro same
        exact absent (toUInt8_inj small (by decide) same ▸ by decide)
    have written : text.map Char.toUInt8 ≠ [] := mt List.map_eq_nil_iff.mp named
    cases port with
    | none =>
      rw [portText, List.append_nil]
      have noPort : ∀ c ∈ ([] : List UInt8), NetURL.isDigit c = true :=
        fun c member => absurd member List.not_mem_nil
      exact (NetURL.parseHost_name kept others written noPort).1
    | some port =>
      rw [portText, List.map_append, List.map_cons]
      exact (NetURL.parseHost_name kept others written (isDigit_bytes port)).2
  | ipv6 text address parsed v6 =>
    have kept : ∀ c ∈ text.map Char.toUInt8, NetURL.passes .host c = true := by
      intro c member
      obtain ⟨c, source, rfl⟩ := List.mem_map.mp member
      exact (urlChar_of_address (ipv6_chars parsed v6 c source)).2.2
    have digits : NetURL.validOptionalPort ((portText port).map Char.toUInt8) = true := by
      cases port with
      | none => rfl
      | some port =>
        rw [portText, List.map_cons, NetURL.validOptionalPort, decide_eq_true rfl, Bool.true_and]
        exact List.all_eq_true.mpr (isDigit_bytes port)
    have whole : ((Host.ipv6 text address parsed v6).text ++ portText port).map Char.toUInt8 =
        '['.toUInt8 :: text.map Char.toUInt8 ++
          ']'.toUInt8 :: (portText port).map Char.toUInt8 := by
      simp [Host.text]
    rw [whole]
    exact NetURL.parseHost_brackets kept digits

namespace BaseURL

theorem parseAuthority_authority (b : BaseURL) :
    NetURL.parseAuthority (b.authority.map Char.toUInt8) =
      some (none, b.authority.map Char.toUInt8) := by
  refine NetURL.parseAuthority_plain ?_ (parseHost_host b.host b.port)
  exact not_mem_map_toUInt8
    (fun c member => (isURLChar_spec (b.authority_chars c member).1).1) (by decide)
    fun member => (b.authority_chars _ member).2 (by decide)

theorem bytes_path (b : BaseURL) :
    (b.path.map Char.toUInt8 = [] ∨ (b.path.map Char.toUInt8).head? = some '/'.toUInt8) ∧
      ∀ c ∈ b.path.map Char.toUInt8, NetURL.passes .path c = true := by
  constructor
  · rcases b.rooted with none | slash
    · rw [none]
      exact .inl rfl
    · rw [List.head?_map, slash]
      exact .inr rfl
  · intro c member
    obtain ⟨c, source, rfl⟩ := List.mem_map.mp member
    exact (urlChar_of_path (b.plain c source)).2

/-- A base URL as it is read, in bytes. -/
def Read (b : BaseURL) (u : NetURL.URL) (scheme host : List Char) : Prop :=
  NetURL.parse b.bytes = some u ∧ u.scheme = scheme.map Char.toUInt8 ∧
    u.host = host.map Char.toUInt8

theorem parse_of_read (unicodeLower : Char → Char) {u : NetURL.URL} {scheme host : List Char}
    (read : b.Read u scheme host) (smallScheme : ∀ c ∈ scheme, c.toNat < 128)
    (smallHost : ∀ c ∈ host, c.toNat < 128) :
    (netURLs unicodeLower).parse b.string = some (String.ofList scheme, String.ofList host) := by
  obtain ⟨parsed, first, second⟩ := read
  rw [parse_string, parsed, Option.bind_some, first, second, textOf_map smallScheme,
    textOf_map smallHost]
  rfl

theorem validScheme_of_scheme (scheme : Scheme) :
    NetURL.ValidScheme (scheme.text.map Char.toUInt8) := by
  have letters : ∀ c ∈ scheme.text.map Char.toUInt8, NetURL.isLetter c = true := by
    intro c member
    obtain ⟨c, source, rfl⟩ := List.mem_map.mp member
    exact (urlChar_of_scheme (mem_schemeText source)).2
  have written : scheme.text.map Char.toUInt8 ≠ [] := by
    intro none
    have spelled := scheme.spelled
    rw [List.map_eq_nil_iff.mp none] at spelled
    cases protocol : scheme.protocol with
    | http =>
      rw [protocol] at spelled
      exact absurd spelled (by decide)
    | https =>
      rw [protocol] at spelled
      exact absurd spelled (by decide)
  constructor
  · obtain ⟨first, others, same⟩ := List.exists_cons_of_ne_nil written
    exact ⟨first, others, same, letters first (same ▸ List.mem_cons_self)⟩
  · intro c member
    rw [NetURL.isSchemeByte, NetURL.isAlphanumeric, letters c member]
    rfl

theorem read_full {scheme : Scheme} (given : b.scheme = some scheme) :
    ∃ u, b.Read u scheme.protocol.text b.authority := by
  have bytes : b.bytes = scheme.text.map Char.toUInt8 ++ ':'.toUInt8 ::
      (ascii "//" ++ (b.authority.map Char.toUInt8 ++ b.path.map Char.toUInt8)) := by
    simp [BaseURL.bytes, text, schemeText, given, ascii]
  have lowered : (scheme.text.map Char.toUInt8).map NetURL.lower =
      scheme.protocol.text.map Char.toUInt8 := by
    rw [map_lower fun c member =>
      (isURLChar_spec (urlChar_of_scheme (mem_schemeText member)).1).1, scheme.spelled]
  have named : scheme.protocol.text.map Char.toUInt8 ≠ [] := by
    cases scheme.protocol <;> decide
  have single : '/'.toUInt8 ∉ b.authority.map Char.toUInt8 := not_mem_map_toUInt8
    (fun c member => (isURLChar_spec (b.authority_chars c member).1).1) (by decide)
    fun member => (b.authority_chars _ member).2 (by decide)
  obtain ⟨u, set, first, second⟩ := NetURL.setHierarchy_authority
    (u := { scheme := scheme.protocol.text.map Char.toUInt8 }) named b.parseAuthority_authority
    single b.bytes_path.1 b.bytes_path.2
  refine ⟨u, ?_, first, second⟩
  rw [NetURL.parse_plain b.plain_bytes, bytes, NetURL.getScheme_eq (validScheme_of_scheme scheme),
    Option.bind_some, lowered, set]

theorem bytes_of_schemeless (noScheme : b.scheme = none) :
    b.bytes = b.authority.map Char.toUInt8 ++ b.path.map Char.toUInt8 := by
  simp [bytes, text, schemeText, noScheme]

theorem authority_small : ∀ c ∈ b.authority, c.toNat < 128 :=
  fun c member => (isURLChar_spec (b.authority_chars c member).1).1

/-- Without a scheme, the first segment is the authority. -/
theorem before_bytes (noScheme : b.scheme = none) :
    NetURL.before '/'.toUInt8 b.bytes = b.authority.map Char.toUInt8 := by
  rw [bytes_of_schemeless noScheme]
  have single : '/'.toUInt8 ∉ b.authority.map Char.toUInt8 :=
    not_mem_map_toUInt8 authority_small (by decide) fun member =>
      (b.authority_chars _ member).2 (by decide)
  exact NetURL.takeWhile_ne_append single b.bytes_path.1

theorem head_bytes (noScheme : b.scheme = none) : b.bytes.head? ≠ some '/'.toUInt8 := by
  intro slash
  have first := before_bytes noScheme
  obtain ⟨tail, same⟩ := List.head?_eq_some_iff.mp slash
  rw [same, NetURL.before, List.takeWhile_cons_of_neg (by decide)] at first
  obtain ⟨c, member, _⟩ := b.exists_host_char
  have listed : c ∈ b.authority := List.mem_append_left _ member
  rw [List.map_eq_nil_iff.mp first.symm] at listed
  cases listed

theorem parse_schemeless (found : NetURL.getScheme b.bytes = some ([], b.bytes)) :
    NetURL.parse b.bytes = NetURL.URL.setHierarchy {} b.bytes := by
  rw [NetURL.parse_plain b.plain_bytes, found]
  rfl

/-- A colon in the first segment that does not end a scheme is refused. -/
theorem refused_of_colon (noScheme : b.scheme = none)
    (found : NetURL.getScheme b.bytes = some ([], b.bytes)) (colon : ':' ∈ b.authority) :
    NetURL.parse b.bytes = none := by
  rw [parse_schemeless found]
  refine NetURL.setHierarchy_colon (head_bytes noScheme) ?_
  rw [before_bytes noScheme]
  exact List.mem_map_of_mem colon

section Names

variable {text : List Char} {named : text ≠ []} {plain : ∀ c ∈ text, isNameChar c = true}

theorem read_bare (noScheme : b.scheme = none) (name : b.host = .name text named plain)
    (noPort : b.port = none) : ∃ u, b.Read u [] [] := by
  have authority : b.authority = text := by
    rw [BaseURL.authority, name, noPort, portText, List.append_nil]
    rfl
  have colon : ':'.toUInt8 ∉ NetURL.before '/'.toUInt8 b.bytes := by
    rw [before_bytes noScheme, authority]
    exact not_mem_map_toUInt8 (fun c member => toNat_lt_of_isNameChar (plain c member)) (by decide)
      fun member => (urlChar_of_name (plain _ member)).2.1 (by decide)
  have kept : ∀ c ∈ b.bytes, NetURL.passes .path c = true := by
    intro c member
    rw [bytes_of_schemeless noScheme, authority] at member
    rcases List.mem_append.mp member with member | member
    · obtain ⟨c, source, rfl⟩ := List.mem_map.mp member
      exact (urlChar_of_name (plain c source)).2.2.2
    · exact b.bytes_path.2 c member
  obtain ⟨u, set, first, second⟩ :=
    NetURL.setHierarchy_relative (head_bytes noScheme) colon kept
  refine ⟨u, ?_, first, second⟩
  rw [parse_schemeless (NetURL.getScheme_of_segment colon), set]

theorem validScheme_iff (plain : ∀ c ∈ text, isNameChar c = true) :
    NetURL.ValidScheme (text.map Char.toUInt8) ↔ canBeScheme text = true := by
  have letter (c : Char) (member : c ∈ text) : NetURL.isLetter c.toUInt8 = c.isAlpha :=
    (ascii_facts (toNat_lt_of_isNameChar (plain c member))).letter
  have byte (c : Char) (member : c ∈ text) :
      NetURL.isSchemeByte c.toUInt8 = true ↔ c ≠ '_' :=
    (ascii_facts (toNat_lt_of_isNameChar (plain c member))).schemeByte (plain c member)
  rw [canBeScheme, Bool.and_eq_true, decide_eq_true_eq]
  constructor
  · intro valid
    obtain ⟨first, others, same, isLetter⟩ := valid.letter
    obtain ⟨c, tail, rfl, rfl, _⟩ := List.map_eq_cons_iff.mp same
    refine ⟨?_, fun member => ?_⟩
    · rw [List.head?_cons, Option.any_some, ← letter c List.mem_cons_self]
      exact isLetter
    · exact (byte '_' member).mp (valid.bytes _ (List.mem_map_of_mem member)) rfl
  · rintro ⟨starts, absent⟩
    constructor
    · cases text with
      | nil => cases starts
      | cons c tail =>
        refine ⟨_, _, rfl, ?_⟩
        rw [letter c List.mem_cons_self]
        exact starts
    · intro c member
      obtain ⟨c, source, rfl⟩ := List.mem_map.mp member
      exact (byte c source).mpr fun same => absent (same ▸ source)

variable {port : Port}

theorem bytes_of_port (noScheme : b.scheme = none) (name : b.host = .name text named plain)
    (given : b.port = some port) :
    b.bytes = text.map Char.toUInt8 ++ ':'.toUInt8 ::
      (port.text.map Char.toUInt8 ++ b.path.map Char.toUInt8) := by
  simp [bytes_of_schemeless noScheme, authority, name, given, portText, Host.text]

theorem read_named (noScheme : b.scheme = none) (name : b.host = .name text named plain)
    (given : b.port = some port) (can : canBeScheme text = true) :
    ∃ u, b.Read u (text.map Char.toLower) [] := by
  have small : ∀ c ∈ text, c.toNat < 128 := fun c member => toNat_lt_of_isNameChar (plain c member)
  have valid := (validScheme_iff plain).mpr can
  have scheme : (text.map Char.toUInt8).map NetURL.lower ≠ [] := by simpa using named
  have rootless : (port.text.map Char.toUInt8 ++ b.path.map Char.toUInt8).head? ≠
      some '/'.toUInt8 := by
    obtain ⟨first, others, same⟩ := List.exists_cons_of_ne_nil port.given
    have digit := isDigit_bytes port first.toUInt8
      (List.mem_map_of_mem (same ▸ List.mem_cons_self))
    rw [same]
    intro slash
    rw [List.map_cons, List.cons_append, List.head?_cons, Option.some.injEq] at slash
    rw [slash] at digit
    exact absurd digit (by decide)
  have parsed : NetURL.parse b.bytes = NetURL.URL.setHierarchy
      { scheme := (text.map Char.toUInt8).map NetURL.lower }
      (port.text.map Char.toUInt8 ++ b.path.map Char.toUInt8) := by
    rw [NetURL.parse_plain b.plain_bytes, bytes_of_port noScheme name given,
      NetURL.getScheme_eq valid]
    rfl
  rw [NetURL.setHierarchy_rootless scheme rootless] at parsed
  exact ⟨_, parsed, map_lower small, rfl⟩

theorem refused_name (noScheme : b.scheme = none) (name : b.host = .name text named plain)
    (given : b.port = some port) (cannot : canBeScheme text = false) :
    NetURL.parse b.bytes = none := by
  have invalid : ¬ NetURL.ValidScheme (text.map Char.toUInt8) := fun valid => by
    rw [(validScheme_iff plain).mp valid] at cannot
    cases cannot
  have absent : ':'.toUInt8 ∉ text.map Char.toUInt8 :=
    not_mem_map_toUInt8 (fun c member => toNat_lt_of_isNameChar (plain c member)) (by decide)
      fun member => (urlChar_of_name (plain _ member)).2.1 (by decide)
  refine refused_of_colon noScheme ?_ ?_
  · rw [bytes_of_port noScheme name given]
    exact NetURL.getScheme_of_invalid (by simpa using named) absent invalid
  · rw [authority, given]
    exact List.mem_append_right _ List.mem_cons_self

end Names

theorem refused_ipv6 {text : List Char} {address : Addr}
    {parsed : parseAddr (text.map Char.toLower) = some address} {v6 : address.family = .v6}
    (noScheme : b.scheme = none) (bracketed : b.host = .ipv6 text address parsed v6) :
    NetURL.parse b.bytes = none := by
  have starts : b.bytes.head? = some '['.toUInt8 := by
    simp [bytes_of_schemeless noScheme, authority, bracketed, Host.text]
  have other : b.bytes.head? ≠ some ':'.toUInt8 := by
    rw [starts]
    decide
  obtain ⟨⟨scheme, rest⟩, found⟩ :=
    Option.ne_none_iff_exists'.mp (NetURL.getScheme_ne_none other)
  rcases NetURL.getScheme_cases found with ⟨rfl, rfl⟩ | ⟨valid, same⟩
  · refine refused_of_colon noScheme found ?_
    rw [authority, bracketed]
    exact List.mem_append_left _ (List.mem_append_left _
      (List.mem_cons_of_mem _ (ipv6_colon parsed v6)))
  · obtain ⟨first, others, rfl, letter⟩ := valid.letter
    rw [same, List.cons_append, List.head?_cons, Option.some.injEq] at starts
    rw [starts] at letter
    exact absurd letter (by decide)

theorem parse_string_eq (b : BaseURL) (unicodeLower : Char → Char) :
    (netURLs unicodeLower).parse b.string =
      b.readAs.map fun parts => (String.ofList parts.1, String.ofList parts.2) := by
  have none : ∀ c ∈ ([] : List Char), c.toNat < 128 := fun c member =>
    absurd member List.not_mem_nil
  cases noScheme : b.scheme with
  | some scheme =>
    obtain ⟨u, read⟩ := read_full noScheme
    rw [parse_of_read unicodeLower read (protocolText_small _) authority_small]
    simp [readAs, form, protocol, noScheme]
  | none =>
    cases host : b.host with
    | name text named plain =>
      have small : ∀ c ∈ text.map Char.toLower, c.toNat < 128 := by
        intro c member
        obtain ⟨c, source, rfl⟩ := List.mem_map.mp member
        exact toLower_small (toNat_lt_of_isNameChar (plain c source))
      cases port : b.port with
      | none =>
        obtain ⟨u, read⟩ := read_bare noScheme host port
        rw [parse_of_read unicodeLower read none none]
        simp [readAs, form, noScheme, host, port]
      | some port' =>
        cases can : canBeScheme text with
        | true =>
          obtain ⟨u, read⟩ := read_named noScheme host port can
          rw [parse_of_read unicodeLower read small none]
          simp [readAs, form, noScheme, host, port, can, hostname, Host.text]
        | false =>
          rw [parse_string, refused_name noScheme host port can]
          simp [readAs, form, noScheme, host, port, can]
    | ipv6 text address parsed v6 =>
      rw [parse_string, refused_ipv6 noScheme host]
      simp [readAs, form, noScheme, host]

end BaseURL

end Readings

end WgPortal.App.Fanout
