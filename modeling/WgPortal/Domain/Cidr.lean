import WgPortal.Library.NetIPRange
import WgPortal.Library.NetIPText

/-! `domain.Cidr`: a valid prefix. Its field `Cidr` is the text of the prefix and
its field `Addr` that of the address, and both determine what they are texts of.
The address after the last one, on which the methods panic, is an absent value. -/

namespace WgPortal.Domain

open Library.NetIP

abbrev Cidr := Prefix

/-- `unicode.IsSpace` -/
def isSpace (c : Char) : Bool :=
  let n := c.toNat
  (9 ≤ n && n ≤ 13) || n = 0x20 || n = 0x85 || n = 0xA0 || n = 0x1680 ||
    (0x2000 ≤ n && n ≤ 0x200a) || n = 0x2028 || n = 0x2029 || n = 0x202f || n = 0x205f ||
    n = 0x3000

/-- `strings.TrimSpace` -/
def trimSpace (text : List Char) : List Char :=
  ((text.dropWhile isSpace).reverse.dropWhile isSpace).reverse

def cidrFromString (str : String) : Option Cidr := parsePrefix (trimSpace str.toList)

/-- All parts must be prefixes; the empty string has one part, which is none. -/
def cidrsFromString (str : String) : Option (List Cidr) :=
  (str.toList.splitOn ',').mapM fun part => cidrFromString (String.ofList part)

/-- The prefixes of a list, or none at all if one is malformed. -/
def cidrsOrNil (str : String) : List Cidr := (cidrsFromString str).getD []

def cidrsToString (cidrs : List Cidr) : String := String.ofList (join ',' (cidrs.map Prefix.text))

namespace Cidr

def nextAddr (c : Cidr) : Option Cidr :=
  match h : c.addr.next with
  | some next => some ⟨next, c.bits, by
      rw [(Addr.next_eq_some.mp h).1]
      exact c.le⟩
  | none => none

def hostAddr (c : Cidr) : Cidr := Prefix.host c.addr

def networkAddr (c : Cidr) : Cidr := Prefix.masked c

/-- The last address of the network, which is its broadcast address for IPv4. -/
def broadcastAddr (c : Cidr) : Cidr := ⟨Prefix.last c, c.bits, c.le⟩

def firstAddr (c : Cidr) : Option Cidr := nextAddr (networkAddr c)

def nextSubnet (c : Cidr) : Option Cidr := nextAddr (broadcastAddr c)

def contains (c other : Cidr) : Bool := Prefix.contains c other.addr

theorem nextAddr_eq_some {c d : Cidr} : nextAddr c = some d ↔
    d.addr.family = c.addr.family ∧ d.addr.value = c.addr.value + 1 ∧ d.bits = c.bits := by
  unfold nextAddr
  split
  · rename_i next found
    have after := Addr.next_eq_some.mp found
    constructor
    · intro same
      rw [← Option.some.inj same]
      exact ⟨after.1, after.2, rfl⟩
    · rintro ⟨family, value, bits⟩
      have addr : d.addr = next := Option.some.inj
        ((Addr.next_eq_some.mpr ⟨family, value⟩).symm.trans found)
      exact congrArg some (Prefix.ext addr.symm bits.symm)
  · rename_i none
    refine iff_of_false (fun some => by cases some) ?_
    rintro ⟨family, value, _⟩
    exact absurd (none.symm.trans (Addr.next_eq_some.mpr ⟨family, value⟩)) (by simp)

theorem exists_nextAddr {c : Cidr} (lt : c.addr.value + 1 < 2 ^ c.addr.family.bitLen) :
    ∃ d, nextAddr c = some d :=
  ⟨⟨⟨c.addr.family, c.addr.value + 1, lt⟩, c.bits, c.le⟩, nextAddr_eq_some.mpr ⟨rfl, rfl, rfl⟩⟩

end Cidr

/-- The address 10.0.0.2 and its length, as the sample values of the development have them. -/
theorem sampleAddr_lt : 0x0a000002 < 2 ^ Family.v4.bitLen := by decide

theorem sampleBits_le : 32 ≤ Family.v4.bitLen := by decide

theorem trimSpace_eq_self {text : List Char} (plain : ∀ c ∈ text, isSpace c = false) :
    trimSpace text = text := by
  have none : ∀ text : List Char, (∀ c ∈ text, isSpace c = false) →
      text.dropWhile isSpace = text := by
    intro text plain
    cases text with
    | nil => rfl
    | cons c text => simp [plain c List.mem_cons_self]
  rw [trimSpace, none text plain,
    none text.reverse fun c member => plain c (List.mem_reverse.mp member), List.reverse_reverse]

theorem trimSpace_text (p : Prefix) : trimSpace p.text = p.text := by
  have plain : ∀ c ∈ textChars, isSpace c = false :=
    List.all_iff_forall_prop.mp (by decide)
  exact trimSpace_eq_self fun c member => plain c (Prefix.mem_text member)

theorem cidrFromString_text (c : Cidr) : cidrFromString (String.ofList c.text) = some c := by
  rw [cidrFromString, String.toList_ofList, trimSpace_text, parsePrefix_text]

/-- Printed prefixes are parsed back. -/
theorem cidrsFromString_cidrsToString {cidrs : List Cidr} (notEmpty : cidrs ≠ []) :
    cidrsFromString (cidrsToString cidrs) = some cidrs := by
  have fresh : ∀ part ∈ cidrs.map Prefix.text, ',' ∉ part := by
    intro part hpart comma
    obtain ⟨p, _, rfl⟩ := List.mem_map.mp hpart
    exact absurd (Prefix.mem_text comma) (by decide)
  have parts := splitOn_join fresh (by simpa using notEmpty)
  have parsed : ∀ cidrs : List Cidr, (cidrs.map Prefix.text).mapM
      (fun part => cidrFromString (String.ofList part)) = some cidrs := by
    intro cidrs
    induction cidrs with
    | nil => rfl
    | cons p cidrs ih =>
      simp [List.mapM_cons, cidrFromString_text, ih]
  rw [cidrsFromString, cidrsToString, String.toList_ofList, parts, parsed]

theorem cidrsOrNil_cidrsToString (cidrs : List Cidr) : cidrsOrNil (cidrsToString cidrs) = cidrs := by
  cases cidrs with
  | nil => rfl
  | cons first rest =>
    rw [cidrsOrNil, cidrsFromString_cidrsToString (List.cons_ne_nil first rest), Option.getD_some]

/-- A blank in front of a list does not count. -/
theorem cidrsFromString_blank (text : List Char) :
    cidrsFromString (String.ofList (' ' :: text)) = cidrsFromString (String.ofList text) := by
  obtain ⟨first, rest, split⟩ := List.exists_cons_of_ne_nil (List.splitOn_ne_nil ',' text)
  have blank : cidrFromString (String.ofList (' ' :: first)) =
      cidrFromString (String.ofList first) := by
    have space : isSpace ' ' = true := by decide
    rw [cidrFromString, cidrFromString, String.toList_ofList, String.toList_ofList, trimSpace,
      List.dropWhile_cons_of_pos space, trimSpace]
  rw [cidrsFromString, cidrsFromString, String.toList_ofList, String.toList_ofList,
    List.splitOn_cons_eq_if_modifyHead, if_neg (by decide), split, List.modifyHead_cons,
    List.mapM_cons, List.mapM_cons, blank]

/-- Two lists in a row, as they are written. -/
theorem cidrsFromString_append (str str' : String) :
    cidrsFromString (str ++ (", " ++ str')) =
      (cidrsFromString str).bind fun cidrs => (cidrsFromString str').map (cidrs ++ ·) := by
  have blank := cidrsFromString_blank str'.toList
  rw [String.ofList_toList, cidrsFromString, String.toList_ofList] at blank
  have text : (str ++ (", " ++ str')).toList = str.toList ++ ',' :: ' ' :: str'.toList := by
    rw [String.toList_append, String.toList_append]
    rfl
  rw [cidrsFromString, text, List.splitOn_append_cons_self, List.mapM_append, blank,
    ← cidrsFromString]
  cases cidrsFromString str with
  | none => rfl
  | some cidrs => cases cidrsFromString str' <;> rfl

end WgPortal.Domain
