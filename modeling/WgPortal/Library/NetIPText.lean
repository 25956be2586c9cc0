import Mathlib.Data.Bool.AllAny
import Mathlib.Data.List.Basic
import Mathlib.Tactic.NormNum
import WgPortal.Library.NetIP

/-! The texts of addresses and prefixes: `ParseAddr`, `ParsePrefix` and `String`
of `net/netip`. Parsing a printed prefix gives it back. -/

namespace WgPortal.Library.NetIP

/-- Parts of a text with a separator between them. -/
def join (sep : Char) (parts : List (List Char)) : List Char := [sep].intercalate parts

def digitVal (c : Char) : Option ℕ :=
  if '0' ≤ c ∧ c ≤ '9' then some (c.toNat - '0'.toNat) else none

def hexVal (c : Char) : Option ℕ :=
  if '0' ≤ c ∧ c ≤ '9' then some (c.toNat - '0'.toNat)
  else if 'a' ≤ c ∧ c ≤ 'f' then some (c.toNat - 'a'.toNat + 10)
  else if 'A' ≤ c ∧ c ≤ 'F' then some (c.toNat - 'A'.toNat + 10)
  else none

/-- The number with these digits, most significant first. -/
def ofDigits (base : ℕ) (digit : Char → Option ℕ) (text : List Char) : Option ℕ :=
  text.foldlM (fun n c => (digit c).map fun d => n * base + d) 0

/-- A decimal number up to `bound` without leading zeros. -/
def parseDecimal (bound : ℕ) (text : List Char) : Option ℕ :=
  if text = [] ∨ (text.length ≠ 1 ∧ text.head? = some '0') then none
  else (ofDigits 10 digitVal text).filter (· ≤ bound)

def parseIPv4 (text : List Char) : Option ℕ :=
  match text.splitOn '.' with
  | [a, b, c, d] => do
    let a ← parseDecimal 255 a
    let b ← parseDecimal 255 b
    let c ← parseDecimal 255 c
    let d ← parseDecimal 255 d
    return ((a * 256 + b) * 256 + c) * 256 + d
  | _ => none

/-- Up to four hexadecimal digits. -/
def parseGroup (text : List Char) : Option ℕ :=
  if text = [] ∨ 4 < text.length then none else ofDigits 16 hexVal text

/-- Groups with colons between them. The last part may be an IPv4 address. -/
def parseGroups (embedIPv4 : Bool) (text : List Char) : Option (List ℕ) :=
  if text = [] then some []
  else
    let parts := text.splitOn ':'
    let last := parts.getLast?.getD []
    do
      let first ← parts.dropLast.mapM parseGroup
      if embedIPv4 && '.' ∈ last then
        let v4 ← parseIPv4 last
        return first ++ [v4 / 65536, v4 % 65536]
      else
        let group ← parseGroup last
        return first ++ [group]

/-- The texts before and after the first `::`. -/
def breakEllipsis : List Char → Option (List Char × List Char)
  | ':' :: ':' :: rest => some ([], rest)
  | c :: rest => (breakEllipsis rest).map fun parts => (c :: parts.1, parts.2)
  | [] => none

def ofGroups (groups : List ℕ) : ℕ := groups.foldl (fun n group => n * 65536 + group) 0

def parseIPv6 (text : List Char) : Option ℕ :=
  match breakEllipsis text with
  | none => do
    let groups ← parseGroups true text
    if groups.length = 8 then some (ofGroups groups) else none
  | some (before, after) => do
    let before ← parseGroups false before
    let after ← parseGroups true after
    let given := before.length + after.length
    -- the ellipsis stands for at least one group
    if given < 8 then some (ofGroups (before ++ List.replicate (8 - given) 0 ++ after)) else none

def Addr.ofValue (family : Family) (value : ℕ) : Option Addr :=
  if h : value < 2 ^ family.bitLen then some ⟨family, value, h⟩ else none

/-- The character by which `ParseAddr` decides how to read a text. -/
def firstMark (text : List Char) : Option Char :=
  text.find? fun c => c = '.' || c = ':' || c = '%'

/-- `netip.ParseAddr`, for addresses without a zone. -/
def parseAddr (text : List Char) : Option Addr :=
  match firstMark text with
  | some '.' => (parseIPv4 text).bind (Addr.ofValue .v4)
  | some ':' => (parseIPv6 text).bind (Addr.ofValue .v6)
  | _ => none

/-- `netip.ParsePrefix` -/
def parsePrefix (text : List Char) : Option Prefix :=
  match text.splitOn '/' with
  | [addr, bits] => do
    let addr ← parseAddr addr
    let bits ← parseDecimal addr.family.bitLen bits
    if h : bits ≤ addr.family.bitLen then some ⟨addr, bits, h⟩ else none
  | _ => none

def decimal (n : ℕ) : List Char := Nat.toDigits 10 n

def textIPv4 (value : ℕ) : List Char :=
  join '.' ([value / 2 ^ 24, value / 2 ^ 16 % 256, value / 2 ^ 8 % 256, value % 256].map decimal)

/-- Hexadecimal digits without leading zeros. -/
def textGroup (group : ℕ) : List Char := Nat.toDigits 16 group

/-- The lowest `n` groups of 16 bits. -/
def groupsOf : ℕ → ℕ → List ℕ
  | 0, _ => []
  | n + 1, value => groupsOf n (value / 65536) ++ [value % 65536]

/-- The number of zeros that the list starts with. -/
def zeros : List ℕ → ℕ
  | 0 :: groups => zeros groups + 1
  | _ => 0

/-- The first of the longest runs of at least two zero groups: where it starts
and its length. -/
def longestZeros (groups : List ℕ) : Option (ℕ × ℕ) :=
  (List.range groups.length).foldl (fun best i =>
    let length := zeros (groups.drop i)
    if 2 ≤ length ∧ (best.map Prod.snd).getD 0 < length then some (i, length) else best) none

def textIPv6 (value : ℕ) : List Char :=
  if value / 2 ^ 32 = 0xffff then "::ffff:".toList ++ textIPv4 (value % 2 ^ 32)
  else
    let groups := groupsOf 8 value
    match longestZeros groups with
    | none => join ':' (groups.map textGroup)
    | some (start, length) =>
      join ':' ((groups.take start).map textGroup) ++ ':' :: ':' ::
        join ':' ((groups.drop (start + length)).map textGroup)

/-- `Addr.String` -/
def Addr.text (a : Addr) : List Char :=
  match a.family with
  | .v4 => textIPv4 a.value
  | .v6 => textIPv6 a.value

/-- `Prefix.String` -/
def Prefix.text (p : Prefix) : List Char := p.addr.text ++ '/' :: decimal p.bits

theorem ofDigits_append (base : ℕ) (digit : Char → Option ℕ) (text : List Char) (c : Char) :
    ofDigits base digit (text ++ [c]) =
      (ofDigits base digit text).bind fun n => (digit c).map fun d => n * base + d := by
  simp only [ofDigits, List.foldlM_append, List.foldlM_cons, List.foldlM_nil]
  cases text.foldlM (fun n c => (digit c).map fun d => n * base + d) 0 with
  | none => rfl
  | some n => cases digit c <;> rfl

theorem ofDigits_toDigits {base : ℕ} (two : 1 < base) {digit : Char → Option ℕ}
    (digits : ∀ d < base, digit (Nat.digitChar d) = some d) (n : ℕ) :
    ofDigits base digit (Nat.toDigits base n) = some n := by
  induction n using Nat.strong_induction_on with
  | _ n ih =>
    rw [Nat.toDigits_eq_if two]
    split
    · rename_i small
      simp [ofDigits, digits n small]
    · rename_i large
      have smaller : n / base < n := Nat.div_lt_self (by omega) two
      rw [ofDigits_append, ih _ smaller, Option.bind_some, digits _ (Nat.mod_lt _ (by omega)),
        Option.map_some, Nat.div_add_mod']

theorem mem_toDigits {base : ℕ} (two : 1 < base) {c : Char} {n : ℕ}
    (h : c ∈ Nat.toDigits base n) : ∃ d < base, c = Nat.digitChar d := by
  induction n using Nat.strong_induction_on with
  | _ n ih =>
    rw [Nat.toDigits_eq_if two] at h
    split at h
    · rename_i small
      exact ⟨n, small, List.mem_singleton.mp h⟩
    · rename_i large
      rcases List.mem_append.mp h with before | last
      · exact ih _ (Nat.div_lt_self (by omega) two) before
      · exact ⟨n % base, Nat.mod_lt _ (by omega), List.mem_singleton.mp last⟩

theorem digitVal_digitChar : ∀ d < 10, digitVal (Nat.digitChar d) = some d := by decide

theorem hexVal_digitChar : ∀ d < 16, hexVal (Nat.digitChar d) = some d := by decide

/-- The characters that separate the parts of a text. -/
def separators : List Char := ['.', ':', '/', '%']

theorem hexVal_separator : ∀ c ∈ separators, hexVal c = none :=
  List.all_iff_forall_prop.mp (by decide)

theorem digitVal_separator : ∀ c ∈ separators, digitVal c = none :=
  List.all_iff_forall_prop.mp (by decide)

theorem not_mem_textGroup {c : Char} (sep : c ∈ separators) (group : ℕ) : c ∉ textGroup group := by
  intro h
  obtain ⟨d, small, rfl⟩ := mem_toDigits (by decide) h
  have hex := hexVal_digitChar d small
  rw [hexVal_separator _ sep] at hex
  cases hex

theorem not_mem_decimal {c : Char} (sep : c ∈ separators) (n : ℕ) : c ∉ decimal n := by
  intro h
  obtain ⟨d, small, rfl⟩ := mem_toDigits (by decide) h
  have digit := digitVal_digitChar d small
  rw [digitVal_separator _ sep] at digit
  cases digit

theorem decimal_head {n : ℕ} (h : n ≠ 0) : (decimal n).head? ≠ some '0' := by
  induction n using Nat.strong_induction_on with
  | _ n ih =>
    rw [decimal, Nat.toDigits_eq_if (by decide)]
    split
    · rename_i small
      have nonzero : ∀ d < 10, d ≠ 0 → Nat.digitChar d ≠ '0' := by decide
      simpa using nonzero n small h
    · rename_i large
      have before := ih (n / 10) (by omega) (by omega)
      rw [decimal] at before
      cases digits : Nat.toDigits 10 (n / 10) with
      | nil => exact absurd digits Nat.toDigits_ne_nil
      | cons c rest =>
        rw [digits] at before
        simpa using before

theorem parseDecimal_decimal {bound n : ℕ} (h : n ≤ bound) :
    parseDecimal bound (decimal n) = some n := by
  have notEmpty : decimal n ≠ [] := Nat.toDigits_ne_nil
  have value : ofDigits 10 digitVal (decimal n) = some n :=
    ofDigits_toDigits (by decide) digitVal_digitChar n
  have noZero : ¬ (decimal n = [] ∨ (decimal n).length ≠ 1 ∧ (decimal n).head? = some '0') := by
    rintro (empty | ⟨long, zero⟩)
    · exact notEmpty empty
    · refine decimal_head ?_ zero
      rintro rfl
      exact long rfl
  rw [parseDecimal, if_neg noZero, value, Option.filter_some, if_pos (by simpa using h)]

theorem parseGroup_textGroup {group : ℕ} (h : group < 65536) :
    parseGroup (textGroup group) = some group := by
  have notEmpty : textGroup group ≠ [] := Nat.toDigits_ne_nil
  have short : (textGroup group).length ≤ 4 :=
    (Nat.length_toDigits_le_iff (by decide) (by decide)).mpr h
  have fits : ¬ (textGroup group = [] ∨ 4 < (textGroup group).length) := by
    rintro (empty | long)
    · exact notEmpty empty
    · omega
  rw [parseGroup, if_neg fits]
  exact ofDigits_toDigits (by decide) hexVal_digitChar group

theorem splitOn_join {sep : Char} {parts : List (List Char)} (fresh : ∀ part ∈ parts, sep ∉ part)
    (notEmpty : parts ≠ []) : (join sep parts).splitOn sep = parts :=
  List.splitOn_intercalate sep fresh notEmpty

theorem not_mem_of_mem_splitOn {α : Type*} [BEq α] [LawfulBEq α] {sep : α}
    {text part : List α} (mem : part ∈ text.splitOn sep) : sep ∉ part := by
  induction text generalizing part with
  | nil =>
    rw [List.splitOn_nil, List.mem_singleton] at mem
    simp [mem]
  | cons c text ih =>
    rw [List.splitOn, List.splitOnP_cons_eq_if_modifyHead] at mem
    split at mem
    · rcases List.mem_cons.mp mem with rfl | rest
      · exact List.not_mem_nil
      · exact ih rest
    · rename_i other
      cases parts : text.splitOnP (· == sep) with
      | nil => exact absurd parts (List.splitOnP_ne_nil _ _)
      | cons first rest =>
        rw [parts, List.modifyHead_cons] at mem
        rcases List.mem_cons.mp mem with rfl | later
        · have head : sep ∉ first := ih (by rw [List.splitOn, parts]; exact List.mem_cons_self)
          intro inside
          rcases List.mem_cons.mp inside with rfl | inside
          · simp at other
          · exact head inside
        · exact ih (by rw [List.splitOn, parts]; exact List.mem_cons_of_mem _ later)

theorem parseIPv4_textIPv4 {value : ℕ} (h : value < 2 ^ 32) :
    parseIPv4 (textIPv4 value) = some value := by
  have fresh : ∀ part ∈ [value / 2 ^ 24, value / 2 ^ 16 % 256, value / 2 ^ 8 % 256,
      value % 256].map decimal, '.' ∉ part := by
    intro part hpart
    obtain ⟨n, _, rfl⟩ := List.mem_map.mp hpart
    exact not_mem_decimal (by decide) n
  have first : value / 2 ^ 24 ≤ 255 := by omega
  have second : value / 2 ^ 16 % 256 ≤ 255 := by omega
  have third : value / 2 ^ 8 % 256 ≤ 255 := by omega
  have last : value % 256 ≤ 255 := by omega
  rw [parseIPv4, textIPv4, splitOn_join fresh (by simp)]
  simp only [List.map_cons, List.map_nil, parseDecimal_decimal first, parseDecimal_decimal second,
    parseDecimal_decimal third, parseDecimal_decimal last, Option.bind_eq_bind, Option.bind_some,
    Option.pure_def]
  congr 1
  omega

theorem mapM_parseGroup {groups : List ℕ} (small : ∀ group ∈ groups, group < 65536) :
    (groups.map textGroup).mapM parseGroup = some groups := by
  induction groups with
  | nil => rfl
  | cons group groups ih =>
    have rest := ih fun g hg => small g (List.mem_cons_of_mem _ hg)
    have first := parseGroup_textGroup (small group List.mem_cons_self)
    simp [List.map_cons, List.mapM_cons, first, rest]

theorem parseGroups_join {groups : List ℕ} (small : ∀ group ∈ groups, group < 65536)
    (embedIPv4 : Bool) : parseGroups embedIPv4 (join ':' (groups.map textGroup)) = some groups := by
  rcases List.eq_nil_or_concat' groups with rfl | ⟨first, last, rfl⟩
  · rfl
  · have fresh : ∀ part ∈ (first ++ [last]).map textGroup, ':' ∉ part := by
      intro part hpart
      obtain ⟨n, _, rfl⟩ := List.mem_map.mp hpart
      exact not_mem_textGroup (by decide) n
    have parts := splitOn_join fresh (by simp)
    have notEmpty : join ':' ((first ++ [last]).map textGroup) ≠ [] := by
      intro empty
      rw [empty, List.splitOn_nil] at parts
      obtain ⟨n, _, none⟩ := List.mem_map.mp (parts ▸ List.mem_singleton_self [])
      exact absurd none Nat.toDigits_ne_nil
    have noDot : '.' ∉ textGroup last := not_mem_textGroup (by decide) last
    have firstGroups := mapM_parseGroup fun g hg => small g (List.mem_append_left _ hg)
    have lastGroup := parseGroup_textGroup (small last (by simp))
    rw [parseGroups, if_neg notEmpty, parts]
    simp [firstGroups, lastGroup, noDot]

theorem length_groupsOf (n value : ℕ) : (groupsOf n value).length = n := by
  induction n generalizing value with
  | zero => rfl
  | succ n ih => rw [groupsOf, List.length_append, ih, List.length_singleton]

theorem groupsOf_lt {n value group : ℕ} (h : group ∈ groupsOf n value) : group < 65536 := by
  induction n generalizing value with
  | zero => cases h
  | succ n ih =>
    rcases List.mem_append.mp h with before | last
    · exact ih before
    · rw [List.mem_singleton.mp last]
      exact Nat.mod_lt _ (by decide)

theorem ofGroups_append (groups : List ℕ) (group : ℕ) :
    ofGroups (groups ++ [group]) = ofGroups groups * 65536 + group := by
  rw [ofGroups, List.foldl_append]
  rfl

theorem ofGroups_groupsOf {n value : ℕ} (h : value < 65536 ^ n) :
    ofGroups (groupsOf n value) = value := by
  induction n generalizing value with
  | zero =>
    rw [Nat.pow_zero, Nat.lt_one_iff] at h
    exact h.symm
  | succ n ih =>
    have high : value / 65536 < 65536 ^ n := by
      rw [Nat.pow_succ] at h
      exact Nat.div_lt_of_lt_mul (by rwa [Nat.mul_comm] at h)
    rw [groupsOf, ofGroups_append, ih high, Nat.div_add_mod']

theorem take_zeros (groups : List ℕ) :
    groups.take (zeros groups) = List.replicate (zeros groups) 0 := by
  induction groups with
  | nil => rfl
  | cons group groups ih =>
    cases group with
    | zero => rw [zeros, List.take_succ_cons, ih, List.replicate_succ]
    | succ n => rfl

theorem zeros_le (groups : List ℕ) : zeros groups ≤ groups.length := by
  induction groups with
  | nil => exact Nat.le_refl 0
  | cons group groups ih =>
    cases group with
    | zero => exact Nat.succ_le_succ ih
    | succ n => exact Nat.zero_le _

/-- A run that is found starts inside the list and has its length. -/
theorem longestZeros_spec {groups : List ℕ} {start length : ℕ}
    (h : longestZeros groups = some (start, length)) :
    length = zeros (groups.drop start) ∧ 2 ≤ length ∧ start < groups.length := by
  have upTo : ∀ (candidates : List ℕ) (best : Option (ℕ × ℕ)),
      (∀ run ∈ best, run.2 = zeros (groups.drop run.1) ∧ 2 ≤ run.2 ∧ run.1 < groups.length) →
      (∀ i ∈ candidates, i < groups.length) →
      ∀ run ∈ candidates.foldl (fun best i =>
        let length := zeros (groups.drop i)
        if 2 ≤ length ∧ (best.map Prod.snd).getD 0 < length then some (i, length) else best) best,
        run.2 = zeros (groups.drop run.1) ∧ 2 ≤ run.2 ∧ run.1 < groups.length := by
    intro candidates
    induction candidates with
    | nil => exact fun best hbest _ => hbest
    | cons i candidates ih =>
      intro best hbest inside
      refine ih _ ?_ fun j hj => inside j (List.mem_cons_of_mem _ hj)
      simp only
      split
      · rename_i longer
        rintro run ⟨⟩
        exact ⟨rfl, longer.1, inside i List.mem_cons_self⟩
      · exact hbest
  exact upTo (List.range groups.length) none (by simp) (fun i hi => List.mem_range.mp hi) _ h

/-- A run of zeros can be taken out of the groups and put back. -/
theorem splice_zeros {groups : List ℕ} {start length : ℕ}
    (h : length = zeros (groups.drop start)) :
    groups.take start ++ List.replicate length 0 ++ groups.drop (start + length) = groups := by
  rw [h, ← take_zeros, List.append_assoc, ← List.drop_drop, List.take_append_drop,
    List.take_append_drop]

theorem breakEllipsis_cons {c : Char} (other : c ≠ ':') (text : List Char) :
    breakEllipsis (c :: text) =
      (breakEllipsis text).map fun parts => (c :: parts.1, parts.2) := by
  rw [breakEllipsis]
  rintro rest same _
  exact other same

theorem breakEllipsis_colon {c : Char} (other : c ≠ ':') (text : List Char) :
    breakEllipsis (':' :: c :: text) =
      (breakEllipsis (c :: text)).map fun parts => (':' :: parts.1, parts.2) := by
  rw [breakEllipsis]
  rintro rest _ same
  exact other (List.cons.inj same).1

theorem breakEllipsis_append {part : List Char} (fresh : ':' ∉ part) (tail : List Char) :
    breakEllipsis (part ++ tail) =
      (breakEllipsis tail).map fun parts => (part ++ parts.1, parts.2) := by
  induction part with
  | nil => simp
  | cons c part ih =>
    have other : c ≠ ':' := fun same => fresh (same ▸ List.mem_cons_self)
    have rest := ih fun h => fresh (List.mem_cons_of_mem _ h)
    rw [List.cons_append, breakEllipsis_cons other, rest, Option.map_map]
    rfl

/-- No ellipsis begins in a text of non-empty parts. -/
theorem breakEllipsis_join {parts : List (List Char)} (fresh : ∀ part ∈ parts, ':' ∉ part)
    (notEmpty : ∀ part ∈ parts, part ≠ []) (tail : List Char) :
    breakEllipsis (join ':' parts ++ tail) =
      (breakEllipsis tail).map fun broken => (join ':' parts ++ broken.1, broken.2) := by
  induction parts with
  | nil => simp [join]
  | cons part parts ih =>
    have first := fresh part List.mem_cons_self
    have rest := ih (fun p hp => fresh p (List.mem_cons_of_mem _ hp))
      fun p hp => notEmpty p (List.mem_cons_of_mem _ hp)
    cases parts with
    | nil =>
      have single : join ':' [part] = part := by simp [join]
      rw [single]
      exact breakEllipsis_append first tail
    | cons next parts =>
      have step : join ':' (part :: next :: parts) = part ++ ':' :: join ':' (next :: parts) := by
        simp [join, List.intercalate_cons_cons]
      obtain ⟨c, text, starts, other⟩ :
          ∃ c text, join ':' (next :: parts) ++ tail = c :: text ∧ c ≠ ':' := by
        have fresh' := fresh next (by simp)
        cases next with
        | nil => exact absurd rfl (notEmpty [] (by simp))
        | cons c text =>
          have other : c ≠ ':' := fun same => fresh' (same ▸ List.mem_cons_self)
          cases parts with
          | nil => exact ⟨c, text ++ tail, by simp [join], other⟩
          | cons p ps =>
            exact ⟨c, text ++ ':' :: join ':' (p :: ps) ++ tail, by
              simp [join, List.intercalate_cons_cons], other⟩
      rw [step, List.append_assoc, breakEllipsis_append first, List.cons_append, starts,
        breakEllipsis_colon other, ← starts, rest]
      simp only [Option.map_map, Function.comp_def, List.append_assoc, List.cons_append]

theorem breakEllipsis_groups (groups : List ℕ) (tail : List Char) :
    breakEllipsis (join ':' (groups.map textGroup) ++ tail) =
      (breakEllipsis tail).map fun broken =>
        (join ':' (groups.map textGroup) ++ broken.1, broken.2) := by
  refine breakEllipsis_join ?_ ?_ tail
  · intro part hpart
    obtain ⟨n, _, rfl⟩ := List.mem_map.mp hpart
    exact not_mem_textGroup (by decide) n
  · intro part hpart
    obtain ⟨n, _, rfl⟩ := List.mem_map.mp hpart
    exact Nat.toDigits_ne_nil

theorem mem_textIPv4_colon (value : ℕ) : ':' ∉ textIPv4 value := by
  intro h
  simp only [textIPv4, join, List.map_cons, List.map_nil, List.intercalate_cons_cons,
    List.intercalate_singleton, List.mem_append, List.mem_singleton] at h
  have fresh := fun n => not_mem_decimal (c := ':') (by decide) n
  simp [fresh] at h

theorem mem_textIPv4_dot (value : ℕ) : '.' ∈ textIPv4 value := by
  simp [textIPv4, join, List.intercalate_cons_cons]

theorem parseIPv6_mapped {low : ℕ} (h : low < 2 ^ 32) :
    parseIPv6 ("::ffff:".toList ++ textIPv4 low) = some (0xffff * 2 ^ 32 + low) := by
  have parts : (join ':' [['f', 'f', 'f', 'f'], textIPv4 low]).splitOn ':' =
      [['f', 'f', 'f', 'f'], textIPv4 low] := by
    refine splitOn_join ?_ (by simp)
    intro part hpart
    rcases List.mem_cons.mp hpart with rfl | hpart
    · decide
    · rw [List.mem_singleton.mp hpart]
      exact mem_textIPv4_colon low
  have text : join ':' [['f', 'f', 'f', 'f'], textIPv4 low] =
      'f' :: 'f' :: 'f' :: 'f' :: ':' :: textIPv4 low := by
    simp [join, List.intercalate_cons_cons]
  have broken : breakEllipsis ("::ffff:".toList ++ textIPv4 low) =
      some ([], 'f' :: 'f' :: 'f' :: 'f' :: ':' :: textIPv4 low) := rfl
  have before : parseGroups false [] = some [] := rfl
  have after : parseGroups true ('f' :: 'f' :: 'f' :: 'f' :: ':' :: textIPv4 low) =
      some [0xffff, low / 65536, low % 65536] := by
    have ffff : parseGroup ['f', 'f', 'f', 'f'] = some 0xffff := by decide
    rw [parseGroups, if_neg (by simp), ← text, parts]
    simp [mem_textIPv4_dot, ffff, parseIPv4_textIPv4 h]
  have total : (0xffff * 65536 + low / 65536) * 65536 + low % 65536 = 0xffff * 2 ^ 32 + low := by
    omega
  rw [parseIPv6, broken]
  simp only [before, after, Option.bind_eq_bind, Option.bind_some, List.length_nil,
    List.length_cons]
  exact congrArg some total

theorem parseIPv6_textIPv6 {value : ℕ} (h : value < 2 ^ 128) :
    parseIPv6 (textIPv6 value) = some value := by
  unfold textIPv6
  split
  · rename_i mapped
    have low : value % 2 ^ 32 < 2 ^ 32 := Nat.mod_lt _ (by decide)
    rw [parseIPv6_mapped low]
    congr 1
    omega
  · have small : ∀ group ∈ groupsOf 8 value, group < 65536 := fun _ => groupsOf_lt
    have size := length_groupsOf 8 value
    have whole : ofGroups (groupsOf 8 value) = value :=
      ofGroups_groupsOf (lt_of_lt_of_eq h (by norm_num))
    simp only
    split
    · have plain := breakEllipsis_groups (groupsOf 8 value) []
      rw [List.append_nil] at plain
      rw [parseIPv6, plain]
      simp [breakEllipsis, parseGroups_join small, size, whole]
    · rename_i start length found
      obtain ⟨run, long, inside⟩ := longestZeros_spec found
      have bound := zeros_le ((groupsOf 8 value).drop start)
      rw [← run, List.length_drop, size] at bound
      have smallTake : ∀ group ∈ (groupsOf 8 value).take start, group < 65536 :=
        fun g hg => small g (List.mem_of_mem_take hg)
      have smallDrop : ∀ group ∈ (groupsOf 8 value).drop (start + length), group < 65536 :=
        fun g hg => small g (List.mem_of_mem_drop hg)
      have given : ((groupsOf 8 value).take start).length +
          ((groupsOf 8 value).drop (start + length)).length = 8 - length := by
        rw [List.length_take, List.length_drop, size]
        omega
      rw [parseIPv6, breakEllipsis_groups]
      simp only [breakEllipsis, Option.map_some, List.append_nil, parseGroups_join smallTake,
        parseGroups_join smallDrop, Option.bind_eq_bind, Option.bind_some, given]
      rw [if_pos (by omega), show 8 - (8 - length) = length by omega, splice_zeros run, whole]

theorem firstMark_append {part : List Char} (plain : ∀ c ∈ separators, c ∉ part)
    (rest : List Char) : firstMark (part ++ rest) = firstMark rest := by
  have none : part.find? (fun c => c = '.' || c = ':' || c = '%') = none := by
    rw [List.find?_eq_none]
    intro c hc mark
    have sep : c ∈ separators := by
      simp only [Bool.or_eq_true, decide_eq_true_eq] at mark
      rcases mark with (rfl | rfl) | rfl <;> decide
    exact plain c sep hc
  rw [firstMark, List.find?_append, none, Option.none_or, firstMark]

theorem firstMark_groups (groups : List ℕ) (rest : List Char) :
    firstMark (join ':' (groups.map textGroup) ++ ':' :: rest) = some ':' := by
  have plain := fun n c (sep : c ∈ separators) => not_mem_textGroup sep n
  cases groups with
  | nil => rfl
  | cons group groups =>
    cases groups with
    | nil =>
      rw [show join ':' ([group].map textGroup) = textGroup group by simp [join],
        firstMark_append (plain group)]
      rfl
    | cons next groups =>
      rw [show join ':' ((group :: next :: groups).map textGroup) =
        textGroup group ++ ':' :: join ':' ((next :: groups).map textGroup) by
          simp [join, List.intercalate_cons_cons],
        List.append_assoc, firstMark_append (plain group)]
      rfl

theorem firstMark_textIPv4 (value : ℕ) : firstMark (textIPv4 value) = some '.' := by
  have plain := fun c (sep : c ∈ separators) => not_mem_decimal sep (value / 2 ^ 24)
  rw [textIPv4, List.map_cons, List.map_cons, join, List.intercalate_cons_cons, List.append_assoc,
    firstMark_append plain]
  rfl

theorem firstMark_textIPv6 (value : ℕ) : firstMark (textIPv6 value) = some ':' := by
  unfold textIPv6
  split
  · rfl
  · simp only
    split
    · have size := length_groupsOf 8 value
      match groups : groupsOf 8 value, size with
      | group :: next :: rest, _ =>
        rw [show join ':' ((group :: next :: rest).map textGroup) =
          join ':' ([group].map textGroup) ++ ':' :: join ':' ((next :: rest).map textGroup) by
            simp [join, List.intercalate_cons_cons]]
        exact firstMark_groups [group] _
    · exact firstMark_groups ..

theorem parseAddr_text (a : Addr) : parseAddr a.text = some a := by
  obtain ⟨family, value, lt⟩ := a
  cases family with
  | v4 =>
    have parsed := parseIPv4_textIPv4 lt
    simp only [Addr.text, parseAddr, firstMark_textIPv4, parsed, Option.bind_some, Addr.ofValue]
    rw [dif_pos lt]
  | v6 =>
    have parsed := parseIPv6_textIPv6 lt
    simp only [Addr.text, parseAddr, firstMark_textIPv6, parsed, Option.bind_some, Addr.ofValue]
    rw [dif_pos lt]

theorem Addr.text_injective : Function.Injective Addr.text := by
  intro a b same
  have parsed := congrArg parseAddr same
  rw [parseAddr_text, parseAddr_text] at parsed
  exact Option.some.inj parsed

theorem mem_join {sep c : Char} {parts : List (List Char)} (h : c ∈ join sep parts) :
    c = sep ∨ ∃ part ∈ parts, c ∈ part := by
  induction parts with
  | nil => simp [join] at h
  | cons part parts ih =>
    cases parts with
    | nil => exact .inr ⟨part, List.mem_cons_self, by simpa [join] using h⟩
    | cons next parts =>
      rw [join, List.intercalate_cons_cons, List.append_assoc] at h
      rcases List.mem_append.mp h with first | rest
      · exact .inr ⟨part, List.mem_cons_self, first⟩
      · rcases List.mem_append.mp rest with mark | later
        · exact .inl (List.mem_singleton.mp mark)
        · rcases ih later with mark | ⟨p, hp, hc⟩
          · exact .inl mark
          · exact .inr ⟨p, List.mem_cons_of_mem _ hp, hc⟩

/-- All characters in the texts of addresses and prefixes. -/
def textChars : List Char := "0123456789abcdef.:/".toList

theorem mem_decimal_textChars {c : Char} {n : ℕ} (h : c ∈ decimal n) :
    c ∈ textChars ∧ c ≠ '/' := by
  obtain ⟨d, small, rfl⟩ := mem_toDigits (by decide) h
  have digits : ∀ d < 10, Nat.digitChar d ∈ textChars ∧ Nat.digitChar d ≠ '/' := by decide
  exact digits d small

theorem mem_textGroup_textChars {c : Char} {n : ℕ} (h : c ∈ textGroup n) :
    c ∈ textChars ∧ c ≠ '/' := by
  obtain ⟨d, small, rfl⟩ := mem_toDigits (by decide) h
  have digits : ∀ d < 16, Nat.digitChar d ∈ textChars ∧ Nat.digitChar d ≠ '/' := by decide
  exact digits d small

theorem mem_textIPv4_textChars {c : Char} {value : ℕ} (h : c ∈ textIPv4 value) :
    c ∈ textChars ∧ c ≠ '/' := by
  rcases mem_join h with rfl | ⟨part, hpart, hc⟩
  · decide
  · obtain ⟨n, _, rfl⟩ := List.mem_map.mp hpart
    exact mem_decimal_textChars hc

theorem mem_groups_textChars {c : Char} {groups : List ℕ}
    (h : c ∈ join ':' (groups.map textGroup)) : c ∈ textChars ∧ c ≠ '/' := by
  rcases mem_join h with rfl | ⟨part, hpart, hc⟩
  · decide
  · obtain ⟨n, _, rfl⟩ := List.mem_map.mp hpart
    exact mem_textGroup_textChars hc

theorem Addr.mem_text {c : Char} {a : Addr} (h : c ∈ a.text) : c ∈ textChars ∧ c ≠ '/' := by
  obtain ⟨family, value, lt⟩ := a
  cases family with
  | v4 => exact mem_textIPv4_textChars h
  | v6 =>
    simp only [Addr.text, textIPv6] at h
    split at h
    · rcases List.mem_append.mp h with first | rest
      · have inText : ∀ c ∈ "::ffff:".toList, c ∈ textChars ∧ c ≠ '/' :=
          List.all_iff_forall_prop.mp (by decide)
        exact inText c first
      · exact mem_textIPv4_textChars rest
    · split at h
      · exact mem_groups_textChars h
      · rcases List.mem_append.mp h with first | rest
        · exact mem_groups_textChars first
        · simp only [List.mem_cons] at rest
          rcases rest with rfl | rfl | later
          · decide
          · decide
          · exact mem_groups_textChars later

theorem Prefix.mem_text {c : Char} {p : Prefix} (h : c ∈ p.text) : c ∈ textChars := by
  rcases List.mem_append.mp h with first | rest
  · exact (Addr.mem_text first).1
  · rcases List.mem_cons.mp rest with rfl | last
    · decide
    · exact (mem_decimal_textChars last).1

theorem Prefix.splitOn_text (p : Prefix) : p.text.splitOn '/' = [p.addr.text, decimal p.bits] := by
  have joined : p.text = join '/' [p.addr.text, decimal p.bits] := by
    simp [Prefix.text, join, List.intercalate_cons_cons]
  rw [joined]
  refine splitOn_join ?_ (by simp)
  intro part hpart
  rcases List.mem_cons.mp hpart with rfl | hpart
  · exact fun h => (Addr.mem_text h).2 rfl
  · rw [List.mem_singleton.mp hpart]
    exact not_mem_decimal (by decide) p.bits

theorem parsePrefix_text (p : Prefix) : parsePrefix p.text = some p := by
  simp only [parsePrefix, p.splitOn_text, parseAddr_text, Option.bind_eq_bind, Option.bind_some,
    parseDecimal_decimal p.le]
  rw [dif_pos p.le]

theorem Prefix.text_injective : Function.Injective Prefix.text := by
  intro p q same
  have parsed := congrArg parsePrefix same
  rw [parsePrefix_text, parsePrefix_text] at parsed
  exact Option.some.inj parsed

section Characters

/-- The characters of an IPv6 address: hexadecimal digits of either case and marks. -/
def isAddressChar (c : Char) : Bool := (hexVal c).isSome || c = '.' || c = ':'

theorem isSome_of_foldlM {base : ℕ} {digit : Char → Option ℕ} {text : List Char} {start n : ℕ}
    (parsed : (text.foldlM (fun n c => (digit c).map fun d => n * base + d) start) = some n) :
    ∀ c ∈ text, (digit c).isSome := by
  induction text generalizing start with
  | nil => exact fun c member => absurd member List.not_mem_nil
  | cons first text ih =>
    rw [List.foldlM_cons] at parsed
    obtain ⟨next, step, rest⟩ := Option.bind_eq_some_iff.mp parsed
    obtain ⟨d, found, _⟩ := Option.map_eq_some_iff.mp step
    intro c member
    rcases List.mem_cons.mp member with rfl | member
    · rw [found]
      rfl
    · exact ih rest c member

theorem isSome_of_ofDigits {base : ℕ} {digit : Char → Option ℕ} {text : List Char} {n : ℕ}
    (parsed : ofDigits base digit text = some n) : ∀ c ∈ text, (digit c).isSome :=
  isSome_of_foldlM parsed

theorem isAddressChar_of_digit (c : Char) (digit : (digitVal c).isSome) :
    isAddressChar c = true := by
  rw [isAddressChar]
  have hex : (hexVal c).isSome = true := by
    rw [digitVal] at digit
    rw [hexVal]
    split at digit
    · rename_i decimal
      rw [if_pos decimal]
      rfl
    · cases digit
  rw [hex]
  rfl

theorem isAddressChar_of_hex (c : Char) (digit : (hexVal c).isSome) : isAddressChar c = true := by
  rw [isAddressChar, digit]
  rfl

theorem isAddressChar_of_parseGroup {text : List Char} {group : ℕ}
    (parsed : parseGroup text = some group) : ∀ c ∈ text, isAddressChar c = true := by
  rw [parseGroup] at parsed
  split at parsed
  · cases parsed
  · exact fun c member => isAddressChar_of_hex c (isSome_of_ofDigits parsed c member)

theorem isAddressChar_of_parseDecimal {bound : ℕ} {text : List Char} {n : ℕ}
    (parsed : parseDecimal bound text = some n) : ∀ c ∈ text, isAddressChar c = true := by
  rw [parseDecimal] at parsed
  split at parsed
  · cases parsed
  · obtain ⟨digits, _⟩ := Option.filter_eq_some_iff.mp parsed
    exact fun c member => isAddressChar_of_digit c (isSome_of_ofDigits digits c member)

/-- A text has the characters of its parts and the separator. -/
theorem isAddressChar_of_parts (sep : Char) (mark : isAddressChar sep = true) {text : List Char}
    (parts : ∀ part ∈ text.splitOn sep, ∀ c ∈ part, isAddressChar c = true) :
    ∀ c ∈ text, isAddressChar c = true := by
  intro c member
  have joined : join sep (text.splitOn sep) = text := List.intercalate_splitOn sep
  rw [← joined] at member
  rcases mem_join member with rfl | ⟨part, listed, inside⟩
  · exact mark
  · exact parts part listed c inside

theorem isAddressChar_of_parseIPv4 {text : List Char} {value : ℕ}
    (parsed : parseIPv4 text = some value) : ∀ c ∈ text, isAddressChar c = true := by
  refine isAddressChar_of_parts '.' (by decide) ?_
  rw [parseIPv4] at parsed
  split at parsed
  · rename_i a b c d parts
    obtain ⟨_, first, parsed⟩ := Option.bind_eq_some_iff.mp parsed
    obtain ⟨_, second, parsed⟩ := Option.bind_eq_some_iff.mp parsed
    obtain ⟨_, third, parsed⟩ := Option.bind_eq_some_iff.mp parsed
    obtain ⟨_, fourth, _⟩ := Option.bind_eq_some_iff.mp parsed
    rw [parts]
    simp only [List.forall_mem_cons, List.not_mem_nil, false_imp_iff, implies_true, and_true]
    exact ⟨isAddressChar_of_parseDecimal first, isAddressChar_of_parseDecimal second,
      isAddressChar_of_parseDecimal third, isAddressChar_of_parseDecimal fourth⟩
  · cases parsed

theorem mem_of_mapM {α β : Type*} {f : α → Option β} {list : List α} {results : List β}
    (all : list.mapM f = some results) : ∀ a ∈ list, ∃ b, f a = some b := by
  induction list generalizing results with
  | nil => exact fun a member => absurd member List.not_mem_nil
  | cons first list ih =>
    rw [List.mapM_cons] at all
    obtain ⟨b, found, all⟩ := Option.bind_eq_some_iff.mp all
    obtain ⟨rest, others, _⟩ := Option.bind_eq_some_iff.mp all
    intro a member
    rcases List.mem_cons.mp member with rfl | member
    · exact ⟨b, found⟩
    · exact ih others a member

theorem isAddressChar_of_parseGroups {embedIPv4 : Bool} {text : List Char} {groups : List ℕ}
    (parsed : parseGroups embedIPv4 text = some groups) : ∀ c ∈ text, isAddressChar c = true := by
  rw [parseGroups] at parsed
  split at parsed
  · rename_i empty
    rw [empty]
    exact fun c member => absurd member List.not_mem_nil
  · obtain ⟨first, groups', rest⟩ := Option.bind_eq_some_iff.mp parsed
    have parts := List.splitOn_ne_nil ':' text
    have last : ∀ c ∈ (text.splitOn ':').getLast parts, isAddressChar c = true := by
      simp only [List.getLast?_eq_some_getLast parts, Option.getD_some] at rest
      split at rest
      · obtain ⟨v4, read, _⟩ := Option.bind_eq_some_iff.mp rest
        exact isAddressChar_of_parseIPv4 read
      · obtain ⟨group, read, _⟩ := Option.bind_eq_some_iff.mp rest
        exact isAddressChar_of_parseGroup read
    refine isAddressChar_of_parts ':' (by decide) fun part listed => ?_
    rw [← List.dropLast_append_getLast parts] at listed
    rcases List.mem_append.mp listed with listed | listed
    · obtain ⟨group, read⟩ := mem_of_mapM groups' part listed
      exact isAddressChar_of_parseGroup read
    · rw [List.mem_singleton.mp listed]
      exact last

theorem append_of_breakEllipsis {text before after : List Char}
    (broken : breakEllipsis text = some (before, after)) :
    text = before ++ ':' :: ':' :: after := by
  fun_induction breakEllipsis text generalizing before with
  | case1 rest =>
    cases broken
    rfl
  | case2 c rest other ih =>
    obtain ⟨⟨found, tail⟩, read, parts⟩ := Option.map_eq_some_iff.mp broken
    cases parts
    rw [ih read, List.cons_append]
  | case3 => cases broken

theorem isAddressChar_of_parseIPv6 {text : List Char} {value : ℕ}
    (parsed : parseIPv6 text = some value) : ∀ c ∈ text, isAddressChar c = true := by
  rw [parseIPv6] at parsed
  split at parsed
  · obtain ⟨groups, read, _⟩ := Option.bind_eq_some_iff.mp parsed
    exact isAddressChar_of_parseGroups read
  · rename_i before after broken
    obtain ⟨front, read, parsed⟩ := Option.bind_eq_some_iff.mp parsed
    obtain ⟨back, read', _⟩ := Option.bind_eq_some_iff.mp parsed
    rw [append_of_breakEllipsis broken]
    intro c member
    rcases List.mem_append.mp member with member | member
    · exact isAddressChar_of_parseGroups read c member
    · rcases List.mem_cons.mp member with rfl | member
      · decide
      · rcases List.mem_cons.mp member with rfl | member
        · decide
        · exact isAddressChar_of_parseGroups read' c member

/-- An IPv6 address is written with a colon and without other marks than those of addresses. -/
theorem chars_of_parseAddr {text : List Char} {a : Addr} (parsed : parseAddr text = some a)
    (v6 : a.family = .v6) : ':' ∈ text ∧ ∀ c ∈ text, isAddressChar c = true := by
  rw [parseAddr] at parsed
  split at parsed
  · obtain ⟨value, _, made⟩ := Option.bind_eq_some_iff.mp parsed
    rw [Addr.ofValue] at made
    split at made
    · cases made
      cases v6
    · cases made
  · rename_i mark
    obtain ⟨value, read, _⟩ := Option.bind_eq_some_iff.mp parsed
    exact ⟨List.mem_of_find?_eq_some mark, isAddressChar_of_parseIPv6 read⟩
  · cases parsed

end Characters
end WgPortal.Library.NetIP
