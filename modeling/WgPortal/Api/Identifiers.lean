import WgPortal.App.BaseURLReading
import WgPortal.Library.Base64Text
import WgPortal.Library.Replacement

/-! Identifiers on their way from the pages of the portal to the handlers of its API. -/

namespace WgPortal.Api.Identifiers

open Library Library.Replacement
open Library.NetIP (join)
open App.Fanout (bytesOf)

/-- `btoa` of the browser; it throws for characters that are no bytes. -/
def btoa (input : List Char) : Option (List Char) :=
  if input.all (·.toNat < 256) then some (Base64.encode Base64.std (input.map Char.toUInt8))
  else none

/-- `base64_url_encode` of the pages; with a string, `replace` replaces once. -/
def base64UrlEncode (input : String) : Option (List Char) :=
  (btoa input.toList).map fun output =>
    replaceFirst '=' '-' (replaceFirst '/' '_' (replaceFirst '+' '.' output))

/-- `Base64UrlDecode` of the handlers, which ignores errors -/
def base64UrlDecode (input : List Char) : List UInt8 :=
  let text := replaceAll '.' '+' (replaceAll '_' '/' (replaceAll '-' '=' input))
  Base64.decodePrefix Base64.std (text.filter (!Base64.isLineEnd ·))

/-- A pattern of the router: segments with a parameter between them -/
structure Route where
  before : List (List Char)
  after : List (List Char)
  literal : ∀ segment ∈ before ++ after, '/' ∉ segment

namespace Route

variable (route : Route)

def segments (parameter : List Char) : List (List Char) :=
  route.before ++ parameter :: route.after

/-- The address that a page requests -/
def path (parameter : List Char) : List Char := join '/' (route.segments parameter)

/-- The parameter that the router finds in a path; it is one segment, and not empty. -/
def parameter (path : List Char) : Option (List Char) :=
  let segments := path.splitOn '/'
  match segments.drop route.before.length with
  | [] => none
  | parameter :: rest =>
    if segments.take route.before.length = route.before ∧ rest = route.after ∧ parameter ≠ []
    then some parameter else none

/-- What a handler takes for the identifier, when a page sends a request about one -/
def received (id : String) : Option (List UInt8) :=
  ((base64UrlEncode id).bind fun encoded => route.parameter (route.path encoded)).map
    base64UrlDecode

end Route

/-- Every third character, as they are encoded together -/
def thirdCharacters (id : String) : List Char := Base64.thirds id.toList

/-- Identifiers of ASCII, with at most one third character that takes a slash -/
structure Sendable (id : String) : Prop where
  notEmpty : id ≠ ""
  ascii : ∀ c ∈ id.toList, c.toNat < 128
  oneSlash : (thirdCharacters id).countP (fun c => c = '?' ∨ c = '\x7f') ≤ 1

section Codec

variable {input encoded : List Char}

theorem not_mem_encode {c : Char} (fresh : c ∈ ['-', '_', '.']) (bytes : List UInt8) :
    c ∉ Base64.encode Base64.std bytes := by
  have digits : (∀ n < 64, Base64.std.digit n ≠ c) ∧ Base64.pad ≠ c := by
    simp only [List.mem_cons, List.not_mem_nil, or_false] at fresh
    rcases fresh with rfl | rfl | rfl
    · exact ⟨by decide +kernel, by decide⟩
    · exact ⟨by decide +kernel, by decide⟩
    · exact ⟨by decide +kernel, by decide⟩
  exact fun mem => Base64.forall_encode (P := fun d => d ≠ c) digits.1 digits.2 bytes c mem rfl

/-- What the pages replace, the handlers put back. -/
theorem decode_encode (id : String) {encoded : List Char}
    (sent : base64UrlEncode id = some encoded) :
    base64UrlDecode encoded = id.toList.map Char.toUInt8 ∧
      encoded.count '/' =
        (Base64.encode Base64.std (id.toList.map Char.toUInt8)).count '/' - 1 := by
  obtain ⟨output, made, rfl⟩ := Option.map_eq_some_iff.mp sent
  unfold btoa at made
  split at made
  · obtain rfl := Option.some.inj made
    generalize id.toList.map Char.toUInt8 = bytes
    have dash : '-' ∉ Base64.encode Base64.std bytes := not_mem_encode (by decide) bytes
    have underscore : '_' ∉ Base64.encode Base64.std bytes := not_mem_encode (by decide) bytes
    have point : '.' ∉ Base64.encode Base64.std bytes := not_mem_encode (by decide) bytes
    constructor
    · have back : replaceAll '.' '+' (replaceAll '_' '/' (replaceAll '-' '=' (replaceFirst '=' '-'
          (replaceFirst '/' '_' (replaceFirst '+' '.' (Base64.encode Base64.std bytes)))))) =
          Base64.encode Base64.std bytes := by
        rw [replaceAll_replaceFirst, replaceAll_replaceFirst, replaceAll_replaceFirst point]
        · exact not_mem_replaceFirst (by decide) underscore
        · exact not_mem_replaceFirst (by decide) (not_mem_replaceFirst (by decide) dash)
      rw [base64UrlDecode, back]
      exact Base64.decodePrefix_eq (Base64.decode_encode bytes)
    · rw [count_replaceFirst_of_ne (by decide) (by decide), count_replaceFirst (by decide),
        count_replaceFirst_of_ne (by decide) (by decide)]
  · cases made

end Codec

section Routes

theorem splitOn_join_flatMap {parts : List (List Char)} (notEmpty : parts ≠ []) :
    (join '/' parts).splitOn '/' = parts.flatMap (·.splitOn '/') := by
  induction parts with
  | nil => exact absurd rfl notEmpty
  | cons part parts ih =>
    cases parts with
    | nil => simp [join]
    | cons next parts =>
      rw [join, List.intercalate_cons_cons, List.append_assoc, List.singleton_append,
        List.splitOn_append_cons_self, ← join, ih (List.cons_ne_nil next parts)]
      rfl

theorem flatMap_splitOn {segments : List (List Char)} (literal : ∀ s ∈ segments, '/' ∉ s) :
    segments.flatMap (·.splitOn '/') = segments := by
  induction segments with
  | nil => rfl
  | cons s segments ih =>
    rw [List.forall_mem_cons] at literal
    rw [List.flatMap_cons, List.splitOn_eq_singleton literal.1, ih literal.2, List.singleton_append]

/-- The router finds what is sent as one segment, and nothing else. -/
theorem parameter_path (route : Route) (encoded : List Char) :
    route.parameter (route.path encoded) =
      if encoded ≠ [] ∧ '/' ∉ encoded then some encoded else none := by
  have literal := route.literal
  rw [List.forall_mem_append] at literal
  have split : (route.path encoded).splitOn '/' =
      route.before ++ (encoded.splitOn '/' ++ route.after) := by
    rw [Route.path, Route.segments, splitOn_join_flatMap (List.append_ne_nil_of_right_ne_nil _
      (List.cons_ne_nil _ _)), List.flatMap_append, List.flatMap_cons, flatMap_splitOn literal.1,
      flatMap_splitOn literal.2]
  simp only [Route.parameter, split, List.drop_left, List.take_left]
  by_cases slash : '/' ∈ encoded
  · obtain ⟨front, back, rfl⟩ := List.append_of_mem slash
    rw [List.splitOn_append_cons_self, if_neg fun sent => sent.2 slash]
    obtain ⟨first, firsts, parts⟩ := List.exists_cons_of_ne_nil (List.splitOn_ne_nil '/' front)
    have some : 0 < (back.splitOn '/').length := List.length_pos_iff.mpr (List.splitOn_ne_nil _ _)
    rw [parts, List.cons_append, List.cons_append]
    refine if_neg fun found => ?_
    -- there are more segments than the route has
    have lengths := congrArg List.length found.2.1
    rw [List.length_append, List.length_append] at lengths
    omega
  · rw [List.splitOn_eq_singleton slash]
    simp [slash]

end Routes

section Texts

theorem bytesOf_eq_flatMap (id : String) :
    bytesOf id = id.toList.flatMap String.utf8EncodeChar := by
  have bytes := congrArg String.toByteArray (String.ofList_toList : String.ofList id.toList = id)
  rw [bytesOf, String.toUTF8_eq_toByteArray, ← bytes, String.toByteArray_ofList, List.utf8Encode,
    List.toList_data_toByteArray]

theorem length_le_utf8 (text : List Char) :
    text.length ≤ (text.flatMap String.utf8EncodeChar).length := by
  induction text with
  | nil => exact Nat.le_refl 0
  | cons c text ih =>
    have some := c.utf8Size_pos
    rw [List.flatMap_cons, List.length_append, String.length_utf8EncodeChar, List.length_cons]
    omega

/-- Only ASCII takes one byte for each character. -/
theorem ascii_of_length {text : List Char}
    (same : (text.flatMap String.utf8EncodeChar).length = text.length) :
    ∀ c ∈ text, c.toNat < 128 := by
  induction text with
  | nil => exact List.forall_mem_nil _
  | cons c text ih =>
    have some := c.utf8Size_pos
    have rest := length_le_utf8 text
    rw [List.flatMap_cons, List.length_append, String.length_utf8EncodeChar, List.length_cons]
      at same
    have one := Char.utf8Size_eq_one_iff.mp (show c.utf8Size = 1 by omega)
    rw [UInt32.le_iff_toNat_le] at one
    exact List.forall_mem_cons.mpr ⟨Nat.lt_succ_of_le one, ih (by omega)⟩

theorem bytesOf_eq_iff (id : String) :
    id.toList.map Char.toUInt8 = bytesOf id ↔ ∀ c ∈ id.toList, c.toNat < 128 := by
  constructor
  · intro same
    refine ascii_of_length ?_
    rw [← bytesOf_eq_flatMap, ← same, List.length_map]
  · intro ascii
    rw [← App.Fanout.bytesOf_ofList ascii, String.ofList_toList]

theorem toNat_toUInt8 {c : Char} (ascii : c.toNat < 128) : c.toUInt8.toNat = c.toNat :=
  Nat.mod_eq_of_lt (Nat.lt_trans ascii (by decide))

theorem thirds_map {β γ : Type} (f : β → γ) (list : List β) :
    Base64.thirds (list.map f) = (Base64.thirds list).map f := by
  induction list using Base64.thirds.induct with
  | case1 a b c rest ih =>
    simp only [List.map_cons, Base64.thirds, ih]
  | case2 list short =>
    rcases list with _ | ⟨a, _ | ⟨b, _ | ⟨c, rest⟩⟩⟩
    · rfl
    · rfl
    · rfl
    · exact absurd rfl (short a b c rest)

theorem mem_of_mem_thirds {β : Type} {list : List β} {b : β} (mem : b ∈ Base64.thirds list) :
    b ∈ list := by
  induction list using Base64.thirds.induct with
  | case1 a b' c rest ih =>
    rw [Base64.thirds] at mem
    rcases List.mem_cons.mp mem with rfl | later
    · simp
    · simp [ih later]
  | case2 list short =>
    rcases list with _ | ⟨a, _ | ⟨b, _ | ⟨c, rest⟩⟩⟩
    · cases mem
    · cases mem
    · cases mem
    · exact absurd rfl (short a b c rest)

/-- The slashes of an encoded ASCII text -/
theorem count_slash {id : String} (ascii : ∀ c ∈ id.toList, c.toNat < 128) :
    (Base64.encode Base64.std (id.toList.map Char.toUInt8)).count '/' =
      (thirdCharacters id).countP fun c => c = '?' ∨ c = '\x7f' := by
  have bytes : ∀ b ∈ id.toList.map Char.toUInt8, b.toNat < 128 := by
    intro b mem
    obtain ⟨c, inside, rfl⟩ := List.mem_map.mp mem
    rw [toNat_toUInt8 (ascii c inside)]
    exact ascii c inside
  have full : ∀ c : Char, c.toNat < 128 →
      (c.toUInt8.toNat % 64 = 63 ↔ c = '?' ∨ c = '\x7f') :=
    App.Fanout.forall_ascii (P := fun c => c.toUInt8.toNat % 64 = 63 ↔ c = '?' ∨ c = '\x7f')
      (by decide)
  rw [Base64.count_encode bytes, thirds_map, List.countP_map]
  refine List.countP_congr fun c mem => ?_
  simpa using full c (ascii c (mem_of_mem_thirds mem))

end Texts

/-- A handler gets the identifier that a page sends exactly if it is sendable. -/
theorem received_iff (route : Route) (id : String) :
    route.received id = some (bytesOf id) ↔ Sendable id := by
  unfold Route.received
  cases sent : base64UrlEncode id with
  | none =>
    refine iff_of_false (by simp) fun sendable => ?_
    have bytes : id.toList.all (·.toNat < 256) = true := by
      rw [List.all_eq_true]
      intro c mem
      have small := sendable.ascii c mem
      exact decide_eq_true (by omega)
    rw [base64UrlEncode, btoa, if_pos bytes] at sent
    cases sent
  | some encoded =>
    obtain ⟨decoded, slashes⟩ := decode_encode id sent
    have empty : encoded = [] ↔ id = "" := by
      constructor
      · rintro rfl
        have nothing : base64UrlDecode [] = [] := rfl
        have none : id.toList = [] := List.map_eq_nil_iff.mp (decoded.symm.trans nothing)
        rw [← String.ofList_toList (s := id), none]
      · rintro rfl
        exact (Option.some.inj sent).symm
    have slash : '/' ∉ encoded ↔
        (Base64.encode Base64.std (id.toList.map Char.toUInt8)).count '/' ≤ 1 := by
      rw [← List.count_eq_zero, slashes, Nat.sub_eq_zero_iff_le]
    rw [Option.bind_some, parameter_path]
    constructor
    · intro got
      split at got
      · rename_i one
        rw [Option.map_some, Option.some.injEq, decoded] at got
        have ascii := (bytesOf_eq_iff id).mp got
        refine ⟨fun none => one.1 (empty.mpr none), ascii, ?_⟩
        rw [← count_slash ascii]
        exact slash.mp one.2
      · cases got
    · intro sendable
      have one := slash.mpr ((count_slash sendable.ascii).trans_le sendable.oneSlash)
      rw [if_pos ⟨fun none => sendable.notEmpty (empty.mp none), one⟩, Option.map_some, decoded,
        (bytesOf_eq_iff id).mpr sendable.ascii]

/-- The keys of peers are sendable. -/
theorem sendable_key {id : String} (notEmpty : id ≠ "")
    (key : ∀ c ∈ id.toList, c ∈ '=' :: Base64.stdDigits) : Sendable id := by
  have all : ('=' :: Base64.stdDigits).all
      (fun c => decide (c.toNat < 128 ∧ ¬ (c = '?' ∨ c = '\x7f'))) = true := by decide +kernel
  have plain : ∀ c ∈ '=' :: Base64.stdDigits, c.toNat < 128 ∧ ¬ (c = '?' ∨ c = '\x7f') :=
    fun c mem => of_decide_eq_true (List.all_eq_true.mp all c mem)
  refine ⟨notEmpty, fun c mem => (plain c (key c mem)).1, ?_⟩
  have none : (thirdCharacters id).countP (fun c => c = '?' ∨ c = '\x7f') = 0 := by
    rw [List.countP_eq_zero]
    intro c mem
    simpa using (plain c (key c (mem_of_mem_thirds mem))).2
  omega

example : ¬ Sendable "ab?cd?" := fun sendable => absurd sendable.oneSlash (by decide)

end WgPortal.Api.Identifiers
