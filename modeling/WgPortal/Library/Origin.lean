import Mathlib.Data.List.Basic
import WgPortal.Library.NetURL

/-! The place that a URL leads to, by the grammar of URLs, and that reading and writing a URL
keep it. -/

namespace WgPortal.Library.NetURL

section Lists

variable {α : Type*} {p : α → Bool}

theorem takeWhile_append_stop {w rest : List α} (all : ∀ c ∈ w, p c)
    (stop : ∀ c ∈ rest.head?, p c = false) : (w ++ rest).takeWhile p = w := by
  rw [List.takeWhile_append_of_pos all]
  cases rest with
  | nil => simp
  | cons c rest => simp [stop c rfl]

theorem dropWhile_append_stop {w rest : List α} (all : ∀ c ∈ w, p c)
    (stop : ∀ c ∈ rest.head?, p c = false) : (w ++ rest).dropWhile p = rest := by
  rw [List.dropWhile_append_of_pos all]
  cases rest with
  | nil => simp
  | cons c rest => simp [stop c rfl]

theorem ne_of_absent [DecidableEq α] {c : α} {text : List α} (absent : c ∉ text) :
    ∀ b ∈ text, decide (b ≠ c) = true := by
  intro b member
  rw [decide_eq_true_eq]
  rintro rfl
  exact absent member

theorem stop_of_head [DecidableEq α] {c : α} {rest : List α}
    (ends : rest = [] ∨ rest.head? = some c) : ∀ b ∈ rest.head?, decide (b ≠ c) = false := by
  intro b head
  rcases ends with rfl | stop
  · cases head
  · rw [stop, Option.mem_some_iff] at head
    rw [decide_eq_false_iff_not]
    exact fun other => other head.symm

theorem takeWhile_ne_append [DecidableEq α] {c : α} {text rest : List α} (absent : c ∉ text)
    (ends : rest = [] ∨ rest.head? = some c) : (text ++ rest).takeWhile (· ≠ c) = text :=
  takeWhile_append_stop (ne_of_absent absent) (stop_of_head ends)

theorem dropWhile_ne_append [DecidableEq α] {c : α} {text rest : List α} (absent : c ∉ text)
    (ends : rest = [] ∨ rest.head? = some c) : (text ++ rest).dropWhile (· ≠ c) = rest :=
  dropWhile_append_stop (ne_of_absent absent) (stop_of_head ends)

/-- A text is split in one way at the first `c`. -/
theorem append_cons_inj [DecidableEq α] {c : α} {first first' rest rest' : List α}
    (absent : c ∉ first) (absent' : c ∉ first') (same : first ++ c :: rest = first' ++ c :: rest') :
    first = first' ∧ rest = rest' := by
  have front : first = first' := by
    rw [← takeWhile_ne_append absent (.inr rfl : c :: rest = [] ∨ _), same,
      takeWhile_ne_append absent' (.inr rfl)]
  rw [front] at same
  exact ⟨front, (List.cons.inj (List.append_cancel_left same)).2⟩

theorem takeWhile_congr {q : α → Bool} {text : List α} (same : ∀ c ∈ text, p c = q c) :
    text.takeWhile p = text.takeWhile q := by
  induction text with
  | nil => rfl
  | cons c text ih =>
    rw [List.takeWhile_cons, List.takeWhile_cons, same c List.mem_cons_self,
      ih fun b member => same b (List.mem_cons_of_mem c member)]

/-- A text whose characters are written as several ones splits where it did before. -/
theorem takeWhile_flatMap {f : α → List α} (kept : ∀ c, p c → ∀ b ∈ f c, p b)
    (stop : ∀ c, p c = false → ∃ b rest, f c = b :: rest ∧ p b = false) (text : List α) :
    (text.flatMap f).takeWhile p = (text.takeWhile p).flatMap f := by
  induction text with
  | nil => rfl
  | cons c text ih =>
    rw [List.flatMap_cons]
    cases holds : p c with
    | true =>
      rw [List.takeWhile_append_of_pos (kept c holds), List.takeWhile_cons_of_pos holds,
        List.flatMap_cons, ih]
    | false =>
      obtain ⟨b, rest, written, fails⟩ := stop c holds
      simp [written, fails, holds]

theorem dropWhile_flatMap {f : α → List α} (kept : ∀ c, p c → ∀ b ∈ f c, p b)
    (stop : ∀ c, p c = false → ∃ b rest, f c = b :: rest ∧ p b = false) (text : List α) :
    (text.flatMap f).dropWhile p = (text.dropWhile p).flatMap f := by
  induction text with
  | nil => rfl
  | cons c text ih =>
    rw [List.flatMap_cons]
    cases holds : p c with
    | true =>
      rw [List.dropWhile_append_of_pos (kept c holds), List.dropWhile_cons_of_pos holds, ih]
    | false =>
      obtain ⟨b, rest, written, fails⟩ := stop c holds
      simp [written, fails, holds]

end Lists

section Cuts

variable {c : UInt8} {text : List UInt8}

theorem before_eq_self (absent : c ∉ text) : before c text = text :=
  List.takeWhile_eq_self_iff.mpr fun b member => by
    have other : b ≠ c := fun same => absent (same ▸ member)
    simpa using other

theorem after_eq_nil (absent : c ∉ text) : after c text = [] := by
  have all : text.dropWhile (· ≠ c) = [] := List.dropWhile_eq_nil_iff.mpr fun b member => by
    have other : b ≠ c := fun same => absent (same ▸ member)
    simpa using other
  rw [after, all, List.drop_nil]

theorem not_mem_before : c ∉ before c text := by
  intro member
  simpa using List.mem_takeWhile_imp member

/-- A text without the byte, or one that is cut at its first place. -/
theorem before_cases (c : UInt8) (text : List UInt8) :
    before c text = text ∨ text = before c text ++ c :: after c text := by
  have whole := List.takeWhile_append_dropWhile (p := fun b => decide (b ≠ c)) (l := text)
  cases rest : text.dropWhile (fun b => decide (b ≠ c)) with
  | nil =>
    left
    rw [rest, List.append_nil] at whole
    exact whole
  | cons b tail =>
    right
    have stopped : b = c := by
      have head := List.head?_dropWhile_not (fun b => decide (b ≠ c)) text
      rw [rest] at head
      simpa using head
    rw [rest, stopped] at whole
    rw [after, rest]
    exact whole.symm

theorem afterLast_eq_self (absent : c ∉ text) : afterLast c text = text := by
  rw [afterLast, before_eq_self (by simpa using absent), List.reverse_reverse]

theorem afterLast_append (first : List UInt8) (absent : c ∉ text) :
    afterLast c (first ++ c :: text) = text := by
  have stopped : before c (first ++ c :: text).reverse = text.reverse := by
    rw [List.reverse_append, List.reverse_cons, List.append_assoc]
    exact takeWhile_ne_append (fun member => absent (List.mem_reverse.mp member)) (.inr rfl)
  rw [afterLast, stopped, List.reverse_reverse]

theorem breakAt_append {sub text first rest : List UInt8}
    (broken : breakAt sub text = some (first, rest)) : text = first ++ rest := by
  induction text generalizing first with
  | nil =>
    rw [breakAt] at broken
    split at broken
    · cases broken
      rfl
    · cases broken
  | cons c text ih =>
    rw [breakAt] at broken
    split at broken
    · cases broken
      rfl
    · obtain ⟨⟨found, after⟩, found_eq, parts⟩ := Option.map_eq_some_iff.mp broken
      cases parts
      rw [ih found_eq, List.cons_append]

/-- A text with the byte, cut at its last place. -/
theorem beforeLast_append_afterLast (member : c ∈ text) :
    beforeLast c text ++ c :: afterLast c text = text := by
  rcases before_cases c text.reverse with same | cut
  · rw [← List.mem_reverse, ← same] at member
    exact absurd member not_mem_before
  · have turned : text = (before c text.reverse ++ c :: after c text.reverse).reverse := by
      rw [← cut, List.reverse_reverse]
    rw [List.reverse_append, List.reverse_cons, List.append_assoc] at turned
    exact turned.symm

end Cuts

section Decode

/-- The text with its escaped bytes; what is not the escape of a byte stays. -/
def decode : List UInt8 → List UInt8
  | c :: high :: low :: text =>
    if c = '%'.toUInt8 then
      match hexByte high low with
      | some byte => byte :: decode text
      | none => c :: decode (high :: low :: text)
    else c :: decode (high :: low :: text)
  | text => text

@[simp] theorem decode_nil : decode [] = [] := rfl

theorem decode_cons {c : UInt8} (plain : c ≠ '%'.toUInt8) (text : List UInt8) :
    decode (c :: text) = c :: decode text := by
  match text with
  | [] => rfl
  | [_] => rfl
  | _ :: _ :: _ => rw [decode, if_neg plain]

theorem decode_percent {high low byte : UInt8} (digits : hexByte high low = some byte)
    (text : List UInt8) : decode ('%'.toUInt8 :: high :: low :: text) = byte :: decode text := by
  rw [decode, if_pos rfl, digits]

/-- Whatever `unescape` accepts is decoded, whatever follows it. -/
theorem decode_append_of_unescape {mode : Encoding} (mode_ne : mode ≠ .queryComponent)
    {text read : List UInt8} (accepted : unescape mode text = some read) (rest : List UInt8) :
    decode (text ++ rest) = read ++ decode rest := by
  fun_induction unescape mode text generalizing read with
  | case1 =>
    cases accepted
    rfl
  | case3 high low text byte digits allowed ih =>
    obtain ⟨read, first, rfl⟩ := Option.map_eq_some_iff.mp accepted
    rw [List.cons_append, List.cons_append, List.cons_append, decode_percent digits, ih first,
      List.cons_append]
  | case8 c text plain space written ih =>
    obtain ⟨read, first, rfl⟩ := Option.map_eq_some_iff.mp accepted
    rw [List.cons_append, decode_cons plain, ih first, List.cons_append]
  | case6 c text plain space ih =>
    rw [Bool.and_eq_true, decide_eq_true_eq, decide_eq_true_eq] at space
    exact absurd space.2 mode_ne
  | _ => cases accepted

theorem decode_of_unescape {mode : Encoding} (mode_ne : mode ≠ .queryComponent)
    {text read : List UInt8} (accepted : unescape mode text = some read) : decode text = read := by
  simpa using decode_append_of_unescape mode_ne accepted []

/-- Whether `unescape` keeps the byte as it is. -/
def passes (mode : Encoding) (c : UInt8) : Bool :=
  c ≠ '%'.toUInt8 && !(c = '+'.toUInt8 && mode = .queryComponent) &&
    !((mode = .host || mode = .zone) && c < 0x80 && shouldEscape mode c)

theorem unescape_cons {mode : Encoding} {c : UInt8} (kept : passes mode c = true)
    (text : List UInt8) : unescape mode (c :: text) = (unescape mode text).map (c :: ·) := by
  rw [passes, Bool.and_eq_true, Bool.and_eq_true, decide_eq_true_eq, Bool.not_eq_true',
    Bool.not_eq_true'] at kept
  obtain ⟨⟨plain, space⟩, allowed⟩ := kept
  rw [unescape.eq_def]
  simp only [plain, space, allowed, if_false, Bool.false_eq_true]

theorem unescape_eq_self {mode : Encoding} {text : List UInt8}
    (kept : ∀ c ∈ text, passes mode c = true) : unescape mode text = some text := by
  induction text with
  | nil => rfl
  | cons c text ih =>
    rw [unescape_cons (kept c List.mem_cons_self),
      ih fun b member => kept b (List.mem_cons_of_mem c member), Option.map_some]

theorem hexByte_digits {digit : ℕ → UInt8} (digits : ∀ n < 16, unhex (digit n) = some n)
    (c : UInt8) : hexByte (digit (c.toNat / 16)) (digit (c.toNat % 16)) = some c := by
  have small : c.toNat < 256 := c.toNat_lt
  rw [hexByte, digits _ (by omega), digits _ (by omega)]
  have whole : 16 * (c.toNat / 16) + c.toNat % 16 = c.toNat := Nat.div_add_mod ..
  change some (UInt8.ofNat (16 * (c.toNat / 16) + c.toNat % 16)) = some c
  rw [whole, UInt8.ofNat_toNat]

theorem unhex_upperHex : ∀ n < 16, unhex (upperHex n) = some n := by decide

theorem unhex_lowerHex : ∀ n < 16, unhex (lowerHex n) = some n := by decide

theorem decode_escape_append (mode : Encoding) (mode_ne : mode ≠ .queryComponent)
    (percent : shouldEscape mode '%'.toUInt8 = true) (text rest : List UInt8) :
    decode (escape mode text ++ rest) = text ++ decode rest := by
  induction text with
  | nil => rfl
  | cons c text ih =>
    rw [escape, List.flatMap_cons, ← escape, List.append_assoc, escapeByte]
    cases escaped : shouldEscape mode c with
    | false =>
      have plain : c ≠ '%'.toUInt8 := by
        rintro rfl
        rw [percent] at escaped
        cases escaped
      rw [Bool.not_false, if_pos rfl, List.singleton_append, decode_cons plain, ih,
        List.cons_append]
    | true =>
      simp only [Bool.not_true, Bool.false_eq_true, if_false, mode_ne, decide_false, Bool.and_false]
      rw [NetURL.percent, List.cons_append, List.cons_append, List.cons_append, List.nil_append,
        decode_percent (hexByte_digits unhex_upperHex c), ih, List.cons_append]

end Decode

section Reading

def endsAuthority (c : UInt8) : Bool := c ∈ ascii "/?#"

/-- The authority of a text that is behind a scheme, without its slashes. -/
def authority (rest : List UInt8) : List UInt8 :=
  if ascii "//" <+: rest then (rest.drop 2).takeWhile (!endsAuthority ·) else []

/-- The host and the port, without the user. -/
def hostPort (rest : List UInt8) : List UInt8 := decode (afterLast '@'.toUInt8 (authority rest))

def splitScheme (text : List UInt8) : List UInt8 × List UInt8 :=
  (getScheme text).getD ([], text)

/-- The scheme, and the host with the port. -/
def reading (text : List UInt8) : List UInt8 × List UInt8 :=
  ((splitScheme text).1.map lower, hostPort (splitScheme text).2)

structure Origin where
  scheme : List UInt8
  host : List UInt8
  port : Option ℕ
deriving DecidableEq

def defaultPort (scheme : List UInt8) : Option ℕ :=
  if scheme = ascii "http" then some 80
  else if scheme = ascii "https" then some 443
  else none

def number (digits : List UInt8) : Option ℕ :=
  if digits.all isDigit then some (digits.foldl (fun n c => 10 * n + (c.toNat - '0'.toNat)) 0)
  else none

/-- The colons of an address between brackets do not separate a port. -/
def Origin.of (scheme hostPort : List UInt8) : Origin :=
  let (host, port) :=
    if ':'.toUInt8 ∈ hostPort ∧ ']'.toUInt8 ∉ afterLast ':'.toUInt8 hostPort then
      (beforeLast ':'.toUInt8 hostPort, afterLast ':'.toUInt8 hostPort)
    else (hostPort, [])
  ⟨scheme, host.map lower, if port = [] then defaultPort scheme else number port⟩

/-- The scheme, the host and the port that a URL leads to. -/
def origin (text : List UInt8) : Origin := Origin.of (reading text).1 (reading text).2

theorem slashes_append_iff (rest : List UInt8) {c : UInt8} (other : c ≠ '/'.toUInt8)
    (text : List UInt8) : ascii "//" <+: rest ++ c :: text ↔ ascii "//" <+: rest := by
  have slashes : ascii "//" = ['/'.toUInt8, '/'.toUInt8] := by decide
  rw [slashes]
  match rest with
  | [] => simp [List.cons_prefix_cons, other.symm]
  | [d] => simp [List.cons_prefix_cons, other.symm]
  | d :: e :: rest => simp [List.cons_prefix_cons]

theorem authority_append (rest : List UInt8) {c : UInt8} (ends : endsAuthority c = true)
    (other : c ≠ '/'.toUInt8) (text : List UInt8) :
    authority (rest ++ c :: text) = authority rest := by
  have same := slashes_append_iff rest other text
  by_cases slashes : ascii "//" <+: rest
  · have two : 2 ≤ rest.length := slashes.length_le
    rw [authority, authority, if_pos slashes, if_pos (same.mpr slashes),
      List.drop_append_of_le_length two, List.takeWhile_append]
    split
    · rename_i all
      have whole := (List.takeWhile_prefix _).eq_of_length all
      simp [ends, whole]
    · rfl
  · rw [authority, authority, if_neg slashes, if_neg (mt same.mp slashes)]

theorem splitScheme_append (text : List UInt8) {c : UInt8} (other : isSchemeByte c = false)
    (colon : c ≠ ':'.toUInt8) (rest : List UInt8) :
    splitScheme (text ++ c :: rest) =
      ((splitScheme text).1, (splitScheme text).2 ++ c :: rest) := by
  have letter : isLetter c = false := by
    rw [isSchemeByte, isAlphanumeric, Bool.or_eq_false_iff, Bool.or_eq_false_iff] at other
    exact other.1.1
  cases text with
  | nil => simp [splitScheme, getScheme, colon, letter]
  | cons first text =>
    rw [splitScheme, splitScheme, List.cons_append, getScheme, getScheme]
    by_cases missing : first = ':'.toUInt8
    · simp [missing]
    · rw [if_neg missing, if_neg missing]
      cases starts : isLetter first with
      | false => simp
      | true =>
        simp only [Bool.not_true, Bool.false_eq_true, if_false]
        rw [← List.cons_append, List.dropWhile_append, List.takeWhile_append]
        cases stopped : (first :: text).dropWhile isSchemeByte with
        | nil => simp [other, colon]
        | cons d tail =>
          have shorter : ((first :: text).takeWhile isSchemeByte).length ≠
              (first :: text).length := by
            intro same
            have whole := congrArg List.length
              (List.takeWhile_append_dropWhile (p := isSchemeByte) (l := first :: text))
            rw [List.length_append, stopped, same] at whole
            simp at whole
          rw [if_neg shorter]
          by_cases ends : d = ':'.toUInt8 <;> simp [ends]

/-- Nothing that comes with a query or a fragment says where a URL leads. -/
theorem reading_append (text : List UInt8) {c : UInt8} (ends : c ∈ ascii "?#") (rest : List UInt8) :
    reading (text ++ c :: rest) = reading text := by
  have bytes : ascii "?#" = ['?'.toUInt8, '#'.toUInt8] := by decide
  rw [bytes] at ends
  have facts : isSchemeByte c = false ∧ c ≠ ':'.toUInt8 ∧ endsAuthority c = true ∧
      c ≠ '/'.toUInt8 := by
    rcases List.mem_cons.mp ends with rfl | ends
    · decide
    · rw [List.mem_singleton.mp ends]
      decide
  obtain ⟨other, colon, ends, slash⟩ := facts
  rw [reading, splitScheme_append text other colon, hostPort, authority_append _ ends slash]
  rfl

end Reading

section Parse

theorem decode_of_parseHost {text host : List UInt8} (parsed : parseHost text = some host) :
    decode text = host := by
  rw [parseHost] at parsed
  split at parsed
  · split at parsed
    · cases parsed
    · rename_i bracket
      split at parsed
      · cases parsed
      · split at parsed
        · rename_i address zone broken
          obtain ⟨host1, first, parsed⟩ := Option.bind_eq_some_iff.mp parsed
          obtain ⟨host2, second, parsed⟩ := Option.bind_eq_some_iff.mp parsed
          obtain ⟨host3, third, parsed⟩ := Option.bind_eq_some_iff.mp parsed
          cases parsed
          have whole : text = address ++ (zone ++ ']'.toUInt8 :: afterLast ']'.toUInt8 text) := by
            rw [← List.append_assoc, ← breakAt_append broken,
              beforeLast_append_afterLast (not_not.mp bracket)]
          rw [whole, decode_append_of_unescape (by decide) first,
            decode_append_of_unescape (by decide) second,
            decode_of_unescape (by decide) third, List.append_assoc]
        · exact decode_of_unescape (by decide) parsed
  · split at parsed
    · cases parsed
    · exact decode_of_unescape (by decide) parsed

theorem decode_of_parseAuthority {text : List UInt8} {user : Option Userinfo} {host : List UInt8}
    (parsed : parseAuthority text = some (user, host)) :
    decode (afterLast '@'.toUInt8 text) = host := by
  rw [parseAuthority] at parsed
  split at parsed
  · rename_i absent
    obtain ⟨host, read, parsed⟩ := Option.bind_eq_some_iff.mp parsed
    cases parsed
    rw [afterLast_eq_self absent, decode_of_parseHost read]
  · obtain ⟨host, read, parsed⟩ := Option.bind_eq_some_iff.mp parsed
    obtain ⟨user, _, parsed⟩ := Option.bind_eq_some_iff.mp parsed
    cases parsed
    exact decode_of_parseHost read

theorem setPath_eq {u v : URL} {p : List UInt8} (set : u.setPath p = some v) :
    unescape .path p = some v.path ∧ (v.rawPath = [] ∨ v.rawPath = p) ∧
      v = { u with path := v.path, rawPath := v.rawPath } := by
  obtain ⟨path, read, set⟩ := Option.bind_eq_some_iff.mp set
  cases set
  refine ⟨read, ?_, rfl⟩
  by_cases same : escape .path path = p <;> simp [same]

theorem setFragment_eq {u v : URL} {f : List UInt8} (set : u.setFragment f = some v) :
    ∃ fragment raw, v = { u with fragment := fragment, rawFragment := raw } := by
  obtain ⟨fragment, _, set⟩ := Option.bind_eq_some_iff.mp set
  cases set
  exact ⟨fragment, _, rfl⟩

structure ValidScheme (scheme : List UInt8) : Prop where
  letter : ∃ first rest, scheme = first :: rest ∧ isLetter first = true
  bytes : ∀ c ∈ scheme, isSchemeByte c = true

theorem ValidScheme.ne_nil {scheme : List UInt8} (valid : ValidScheme scheme) : scheme ≠ [] := by
  obtain ⟨first, rest, rfl, _⟩ := valid.letter
  exact List.cons_ne_nil first rest

theorem getScheme_eq {scheme : List UInt8} (valid : ValidScheme scheme) (rest : List UInt8) :
    getScheme (scheme ++ ':'.toUInt8 :: rest) = some (scheme, rest) := by
  have stop : ∀ c ∈ (':'.toUInt8 :: rest).head?, isSchemeByte c = false := by
    intro c head
    cases head
    decide
  have taken := takeWhile_append_stop valid.bytes stop
  have dropped := dropWhile_append_stop valid.bytes stop
  obtain ⟨first, tail, rfl, letter⟩ := valid.letter
  have other : first ≠ ':'.toUInt8 := by
    rintro rfl
    revert letter
    decide
  rw [List.cons_append] at taken dropped ⊢
  simp only [getScheme, other, letter, dropped, taken, if_false, if_true, Bool.not_true,
    Bool.false_eq_true]

theorem getScheme_cases {text scheme rest : List UInt8}
    (found : getScheme text = some (scheme, rest)) :
    scheme = [] ∧ rest = text ∨ ValidScheme scheme ∧ text = scheme ++ ':'.toUInt8 :: rest := by
  cases text with
  | nil =>
    cases found
    exact .inl ⟨rfl, rfl⟩
  | cons first tail =>
    simp only [getScheme] at found
    split at found
    · cases found
    · split at found
      · cases found
        exact .inl ⟨rfl, rfl⟩
      · rename_i letter
        split at found
        · cases found
          exact .inl ⟨rfl, rfl⟩
        · rename_i c behind stopped
          split at found
          · rename_i colon
            cases found
            have whole := List.takeWhile_append_dropWhile (p := isSchemeByte) (l := first :: tail)
            rw [stopped, colon] at whole
            rw [Bool.not_eq_true, Bool.not_eq_false'] at letter
            have starts : isSchemeByte first = true := by
              rw [isSchemeByte, isAlphanumeric, letter]
              rfl
            refine .inr ⟨⟨?_, fun b member => List.mem_takeWhile_imp member⟩, whole.symm⟩
            exact ⟨first, _, List.takeWhile_cons_of_pos starts, letter⟩
          · cases found
            exact .inl ⟨rfl, rfl⟩

theorem getScheme_ne_none {text : List UInt8} (other : text.head? ≠ some ':'.toUInt8) :
    getScheme text ≠ none := by
  cases text with
  | nil => simp [getScheme]
  | cons first text =>
    have colon : first ≠ ':'.toUInt8 := by simpa using other
    simp only [getScheme, colon, if_false]
    split
    · exact Option.some_ne_none _
    · split
      · exact Option.some_ne_none _
      · split <;> exact Option.some_ne_none _

/-- A text has no scheme where no colon is in its first segment. -/
theorem getScheme_of_segment {text : List UInt8} (plain : ':'.toUInt8 ∉ before '/'.toUInt8 text) :
    getScheme text = some ([], text) := by
  have other : text.head? ≠ some ':'.toUInt8 := by
    intro head
    obtain ⟨tail, rfl⟩ := List.head?_eq_some_iff.mp head
    refine plain ?_
    rw [before, List.takeWhile_cons_of_pos (by decide)]
    exact List.mem_cons_self
  obtain ⟨⟨scheme, rest⟩, found⟩ := Option.ne_none_iff_exists'.mp (getScheme_ne_none other)
  rcases getScheme_cases found with ⟨rfl, rfl⟩ | ⟨valid, rfl⟩
  · exact found
  · refine absurd ?_ plain
    have inside : ∀ c ∈ scheme ++ [':'.toUInt8], decide (c ≠ '/'.toUInt8) = true := by
      intro c member
      rw [decide_eq_true_eq]
      rintro rfl
      rcases List.mem_append.mp member with member | member
      · exact absurd (valid.bytes _ member) (by decide)
      · exact absurd (List.mem_singleton.mp member) (by decide)
    rw [before, List.append_cons, List.takeWhile_append_of_pos inside]
    exact List.mem_append_left _ (List.mem_append_right _ List.mem_cons_self)

/-- The bytes are checked one by one. -/
theorem forall_byte {P : UInt8 → Prop} (all : ∀ n < 256, P (UInt8.ofNat n)) (c : UInt8) : P c := by
  have holds := all c.toNat c.toNat_lt
  rwa [UInt8.ofNat_toNat] at holds

theorem lower_lower : ∀ c : UInt8, lower (lower c) = lower c := forall_byte (by decide +kernel)

theorem isLetter_lower : ∀ c : UInt8, isLetter c = true → isLetter (lower c) = true :=
  forall_byte (by decide +kernel)

theorem isSchemeByte_lower : ∀ c : UInt8, isSchemeByte c = true → isSchemeByte (lower c) = true :=
  forall_byte (by decide +kernel)

theorem map_lower_lower (text : List UInt8) : (text.map lower).map lower = text.map lower := by
  rw [List.map_map]
  exact List.map_congr_left fun c _ => lower_lower c

theorem ValidScheme.lower {scheme : List UInt8} (valid : ValidScheme scheme) :
    ValidScheme (scheme.map lower) := by
  constructor
  · obtain ⟨first, rest, rfl, letter⟩ := valid.letter
    exact ⟨_, _, rfl, isLetter_lower first letter⟩
  · intro c member
    obtain ⟨d, source, rfl⟩ := List.mem_map.mp member
    exact isSchemeByte_lower d (valid.bytes d source)

/-- What a URL that was read is like. -/
structure URL.WellFormed (u : URL) : Prop where
  scheme : u.scheme = [] ∨ ValidScheme u.scheme ∧ u.scheme.map NetURL.lower = u.scheme
  opaquePart : u.opaquePart ≠ [] →
    u.scheme ≠ [] ∧ u.opaquePart.head? ≠ some '/'.toUInt8 ∧ u.host = []
  path : u.user ≠ none ∨ u.scheme ≠ [] ∧ u.omitHost = false →
    u.escapedPath = [] ∨ u.escapedPath.head? = some '/'.toUInt8

/-- How the authority of a text was read. -/
def URL.Reads (u : URL) (authority : List UInt8) : Prop :=
  authority = [] ∧ u.host = [] ∨
    parseAuthority authority = some (u.user, u.host) ∧ u.omitHost = false

theorem escapedPath_cases (u : URL) :
    u.rawPath ≠ [] ∧ u.escapedPath = u.rawPath ∨
      u.escapedPath = if u.path = ascii "*" then ascii "*" else escape .path u.path := by
  rw [URL.escapedPath]
  split
  · rename_i still
    rw [stillEncoded, Bool.and_eq_true, Bool.and_eq_true, decide_eq_true_eq] at still
    exact .inl ⟨still.1.1, rfl⟩
  · exact .inr rfl

theorem escapedPath_of_setPath_nil {u v : URL} (set : u.setPath [] = some v) :
    v.escapedPath = [] := by
  cases set
  rfl

theorem escapedPath_of_setPath_slash {u v : URL} {p : List UInt8}
    (set : u.setPath ('/'.toUInt8 :: p) = some v) :
    v.escapedPath.head? = some '/'.toUInt8 := by
  obtain ⟨read, raw, _⟩ := setPath_eq set
  rcases escapedPath_cases v with ⟨written, same⟩ | same
  · rw [same, raw.resolve_left written, List.head?_cons]
  · rw [unescape_cons (by decide)] at read
    obtain ⟨tail, _, path⟩ := Option.map_eq_some_iff.mp read
    have star : v.path ≠ ascii "*" := by
      intro other
      have heads := congrArg List.head? (path.trans other)
      rw [List.head?_cons] at heads
      exact absurd heads (by decide)
    have kept : escapeByte .path '/'.toUInt8 = ['/'.toUInt8] := by decide
    rw [same, if_neg star, ← path, escape, List.flatMap_cons, kept, List.singleton_append,
      List.head?_cons]

/-- What `setHierarchy` is given has no hierarchy yet. -/
structure URL.Fresh (u : URL) : Prop where
  opaquePart : u.opaquePart = []
  user : u.user = none
  host : u.host = []
  omitHost : u.omitHost = false
  path : u.escapedPath = []

theorem fresh_of_query (scheme : List UInt8) (forceQuery : Bool) (rawQuery : List UInt8) :
    URL.Fresh { scheme, forceQuery, rawQuery } :=
  ⟨rfl, rfl, rfl, rfl, rfl⟩

theorem authority_of_rootless {rest : List UInt8} (rootless : rest.head? ≠ some '/'.toUInt8) :
    authority rest = [] := by
  refine if_neg fun slashes => rootless ?_
  obtain ⟨tail, rfl⟩ := slashes
  rfl

theorem authority_eq_before {rest : List UInt8} (slashes : ascii "//" <+: rest)
    (query : '?'.toUInt8 ∉ rest) (fragment : '#'.toUInt8 ∉ rest) :
    authority rest = before '/'.toUInt8 (rest.drop 2) := by
  rw [authority, if_pos slashes, before]
  have inside : ∀ c ∈ rest.drop 2, (!endsAuthority c) = decide (c ≠ '/'.toUInt8) := by
    intro c member
    have bytes : ascii "/?#" = ['/'.toUInt8, '?'.toUInt8, '#'.toUInt8] := by decide
    have one : c ≠ '?'.toUInt8 := fun same => query (same ▸ List.mem_of_mem_drop member)
    have other : c ≠ '#'.toUInt8 := fun same => fragment (same ▸ List.mem_of_mem_drop member)
    rw [endsAuthority, bytes]
    simp [one, other]
  exact takeWhile_congr inside

section Hierarchy

variable {v u : URL} {rest : List UInt8}

theorem scheme_of_setHierarchy (set : v.setHierarchy rest = some u) : u.scheme = v.scheme := by
  rw [URL.setHierarchy] at set
  split at set
  · split at set
    · cases set
      rfl
    · split at set
      · cases set
      · rw [(setPath_eq set).2.2]
  · split at set
    · obtain ⟨⟨user, host⟩, _, set⟩ := Option.bind_eq_some_iff.mp set
      rw [(setPath_eq set).2.2]
    · rw [(setPath_eq set).2.2]

theorem reads_of_setHierarchy (fresh : v.Fresh) (query : '?'.toUInt8 ∉ rest)
    (fragment : '#'.toUInt8 ∉ rest) (set : v.setHierarchy rest = some u) :
    u.Reads (authority rest) := by
  rw [URL.setHierarchy] at set
  split at set
  · rename_i rootless
    refine .inl ⟨authority_of_rootless rootless, ?_⟩
    split at set
    · cases set
      exact fresh.host
    · split at set
      · cases set
      · rw [(setPath_eq set).2.2]
        exact fresh.host
  · split at set
    · rename_i slashes
      obtain ⟨⟨user, host⟩, read, set⟩ := Option.bind_eq_some_iff.mp set
      rw [(setPath_eq set).2.2, authority_eq_before slashes.1 query fragment]
      exact .inr ⟨read, fresh.omitHost⟩
    · rename_i rooted
      rw [(setPath_eq set).2.2]
      refine .inl ⟨?_, fresh.host⟩
      rw [authority]
      split
      · rename_i slashes
        rw [not_and_or, not_or] at rooted
        obtain ⟨third, rfl⟩ := not_not.mp (rooted.resolve_left (not_not.mpr slashes)).2
        rfl
      · rfl

theorem wellFormed_of_setHierarchy (fresh : v.Fresh)
    (scheme : v.scheme = [] ∨ ValidScheme v.scheme ∧ v.scheme.map NetURL.lower = v.scheme)
    (set : v.setHierarchy rest = some u) : u.WellFormed := by
  have same := scheme_of_setHierarchy set
  rw [← same] at scheme
  rw [URL.setHierarchy] at set
  split at set
  · rename_i rootless
    split at set
    · rename_i named
      cases set
      exact ⟨scheme, fun _ => ⟨named, rootless, fresh.host⟩, fun _ => .inl fresh.path⟩
    · rename_i unnamed
      split at set
      · cases set
      · refine ⟨scheme, ?_, ?_⟩
        · rw [(setPath_eq set).2.2]
          exact fun written => absurd fresh.opaquePart written
        · rw [same]
          rintro (user | ⟨named, _⟩)
          · rw [(setPath_eq set).2.2] at user
            exact absurd fresh.user user
          · exact absurd named unnamed
  · rename_i rooted
    split at set
    · obtain ⟨⟨user, host⟩, _, set⟩ := Option.bind_eq_some_iff.mp set
      refine ⟨scheme, ?_, fun _ => ?_⟩
      · rw [(setPath_eq set).2.2]
        exact fun written => absurd fresh.opaquePart written
      · cases path : (rest.drop 2).dropWhile (· ≠ '/'.toUInt8) with
        | nil =>
          rw [path] at set
          exact .inl (escapedPath_of_setPath_nil set)
        | cons c tail =>
          have stopped := List.head?_dropWhile_not (· ≠ '/'.toUInt8) (rest.drop 2)
          rw [path] at stopped
          rw [path, show c = '/'.toUInt8 by simpa using stopped] at set
          exact .inr (escapedPath_of_setPath_slash set)
    · refine ⟨scheme, ?_, fun _ => ?_⟩
      · rw [(setPath_eq set).2.2]
        exact fun written => absurd fresh.opaquePart written
      · obtain ⟨tail, rfl⟩ := List.head?_eq_some_iff.mp (not_not.mp rooted)
        exact .inr (escapedPath_of_setPath_slash set)

end Hierarchy

/-- How a text was read, and that what was read can be written. -/
def URL.ReadFrom (u : URL) (text : List UInt8) : Prop :=
  u.WellFormed ∧ (splitScheme text).1.map lower = u.scheme ∧
    u.Reads (authority (splitScheme text).2)

theorem cutQuery_cases (rest : List UInt8) :
    (cutQuery rest).1 = rest ∨ ∃ query, rest = (cutQuery rest).1 ++ '?'.toUInt8 :: query := by
  rw [cutQuery]
  split
  · rename_i single
    rw [Bool.and_eq_true, decide_eq_true_eq, decide_eq_true_eq] at single
    exact .inr ⟨[], (List.dropLast_append_getLast? _ single.1).symm⟩
  · rcases before_cases '?'.toUInt8 rest with same | cut
    · exact .inl same
    · exact .inr ⟨_, cut⟩

theorem not_mem_cutQuery (rest : List UInt8) : '?'.toUInt8 ∉ (cutQuery rest).1 := by
  rw [cutQuery]
  split
  · rename_i single
    rw [Bool.and_eq_true, decide_eq_true_eq, decide_eq_true_eq] at single
    have whole := List.dropLast_append_getLast? _ single.1
    have once := single.2
    rw [← whole, List.count_append, List.count_singleton_self] at once
    exact List.count_eq_zero.mp (Nat.succ.inj once)
  · exact not_mem_before

theorem readFrom_of_parseReference {text : List UInt8} {u : URL} (plain : '#'.toUInt8 ∉ text)
    (parsed : parseReference text = some u) : u.ReadFrom text := by
  rw [parseReference] at parsed
  split at parsed
  · cases parsed
  · split at parsed
    · rename_i star
      cases parsed
      rw [star]
      exact ⟨⟨.inl rfl, fun written => absurd rfl written, by decide⟩, by decide,
        .inl ⟨by decide, rfl⟩⟩
    · obtain ⟨⟨scheme, rest⟩, found, set⟩ := Option.bind_eq_some_iff.mp parsed
      have forms := getScheme_cases found
      have parts : splitScheme text = (scheme, rest) := by rw [splitScheme, found, Option.getD_some]
      have fragment : '#'.toUInt8 ∉ rest := by
        rcases forms with ⟨_, rfl⟩ | ⟨_, rfl⟩
        · exact plain
        · exact fun member => plain
            (List.mem_append_right _ (List.mem_cons_of_mem _ member))
      have same : authority rest = authority (cutQuery rest).1 := by
        rcases cutQuery_cases rest with same | ⟨query, cut⟩
        · rw [same]
        · nth_rewrite 1 [cut]
          exact authority_append _ (by decide) (by decide) _
      have kept : '#'.toUInt8 ∉ (cutQuery rest).1 := by
        rcases cutQuery_cases rest with same | ⟨query, cut⟩
        · rwa [same]
        · exact fun member => fragment (cut ▸ List.mem_append_left _ member)
      have named : scheme.map lower = [] ∨ ValidScheme (scheme.map lower) ∧
          (scheme.map lower).map lower = scheme.map lower := by
        rcases forms with ⟨rfl, _⟩ | ⟨valid, _⟩
        · exact .inl rfl
        · exact .inr ⟨valid.lower, map_lower_lower scheme⟩
      refine ⟨wellFormed_of_setHierarchy (fresh_of_query ..) named set, ?_, ?_⟩
      · rw [parts, scheme_of_setHierarchy set]
      · rw [parts, same]
        exact reads_of_setHierarchy (fresh_of_query ..) (not_mem_cutQuery rest) kept set

theorem readFrom_of_parse {text : List UInt8} {u : URL} (parsed : parse text = some u) :
    u.ReadFrom text := by
  obtain ⟨v, read, set⟩ := Option.bind_eq_some_iff.mp parsed
  have reference := readFrom_of_parseReference not_mem_before read
  have whole : v.ReadFrom text := by
    rcases before_cases '#'.toUInt8 text with same | cut
    · rwa [same] at reference
    · obtain ⟨formed, scheme, reads⟩ := reference
      rw [URL.ReadFrom, cut, splitScheme_append _ (by decide) (by decide)]
      exact ⟨formed, scheme, by rwa [authority_append _ (by decide) (by decide)]⟩
  split at set
  · cases set
    exact whole
  · obtain ⟨fragment, raw, rfl⟩ := setFragment_eq set
    exact ⟨⟨whole.1.scheme, whole.1.opaquePart, whole.1.path⟩, whole.2⟩

/-- The scheme and the host of a URL are what its grammar says. -/
theorem reading_eq {text : List UInt8} {u : URL} (parsed : parse text = some u) :
    reading text = (u.scheme, u.host) := by
  obtain ⟨_, scheme, reads⟩ := readFrom_of_parse parsed
  rw [reading, scheme, hostPort]
  rcases reads with ⟨none, host⟩ | ⟨read, _⟩
  · rw [none, host]
    rfl
  · rw [decode_of_parseAuthority read]

end Parse

end WgPortal.Library.NetURL
