import WgPortal.Library.BigEndian
import WgPortal.Library.NetIPText

/-! Addresses and masks as slices of four or of sixteen bytes, and networks made of these, in
which the sixteen bytes of an IPv4 address stand for that address. -/

namespace WgPortal.Library.Net

open NetIP BigEndian

/-- `net.IP` -/
abbrev IP := List UInt8

/-- `net.IPMask` -/
abbrev IPMask := List UInt8

/-- `net.IPNet` -/
structure IPNet where
  ip : IP
  mask : IPMask
deriving DecidableEq

/-- `netip.Addr.As16` -/
def as16 (a : Addr) : List UInt8 :=
  match a.family with
  | .v4 => bytesOf 16 (0xffff * 2 ^ 32 + a.value)
  | .v6 => bytesOf 16 a.value

/-- `netip.AddrFrom4` -/
def addrFrom4 (bytes : List UInt8) : Option Addr := Addr.ofValue .v4 (value bytes)

/-- `netip.AddrFrom16` -/
def addrFrom16 (bytes : List UInt8) : Option Addr := Addr.ofValue .v6 (value bytes)

def v4InV6Prefix : List UInt8 := List.replicate 10 0 ++ [0xff, 0xff]

/-- `net.IP.To4` -/
def to4 (ip : IP) : Option IP :=
  if ip.length = 4 then some ip
  else if ip.length = 16 ∧ ip.take 12 = v4InV6Prefix then some (ip.drop 12)
  else none

def hexString (bytes : List UInt8) : List Char :=
  bytes.flatMap fun byte => [Nat.digitChar (byte.toNat / 16), Nat.digitChar (byte.toNat % 16)]

/-- `net.IP.String` -/
def ipText (ip : IP) : List Char :=
  if ip = [] then "<nil>".toList
  else
    let addr := match to4 ip with
      | some p4 => addrFrom4 p4
      | none => if ip.length = 16 then addrFrom16 ip else none
    match addr with
    | some a => a.text
    | none => '?' :: hexString ip

/-- `net.IPMask.String` -/
def maskText (mask : IPMask) : List Char := if mask = [] then "<nil>".toList else hexString mask

/-- `net.CIDRMask`, for masks of `l` bytes. -/
def cidrMask : ℕ → ℕ → IPMask
  | 0, _ => []
  | l + 1, n =>
    if 8 ≤ n then 0xff :: cidrMask l (n - 8) else ~~~(0xff >>> UInt8.ofNat n) :: cidrMask l 0

/-- The ones that a byte begins with, and what is left when they are shifted out of it. -/
def leadingOnes : ℕ → UInt8 → ℕ × UInt8
  | 0, byte => (0, byte)
  | k + 1, byte =>
    if byte &&& 0x80 ≠ 0 then
      let rest := leadingOnes k (byte <<< 1)
      (rest.1 + 1, rest.2)
    else (0, byte)

/-- The length of a mask whose ones come first. -/
def simpleMaskLength : IPMask → Option ℕ
  | [] => some 0
  | byte :: mask =>
    if byte = 0xff then (simpleMaskLength mask).map (8 + ·)
    else
      let ones := leadingOnes 8 byte
      if ones.2 = 0 ∧ mask.all (· = 0) then some ones.1 else none

/-- An address and a mask of its size, unless there is no such mask. -/
def networkNumberAndMask (n : IPNet) : Option (IP × IPMask) :=
  let ip := (to4 n.ip).getD n.ip
  if ip.length ≠ 4 ∧ ip.length ≠ 16 then none
  else if n.mask.length = 4 then if ip.length = 4 then some (ip, n.mask) else none
  else if n.mask.length = 16 then some (ip, if ip.length = 4 then n.mask.drop 12 else n.mask)
  else none

/-- `net.IPNet.String` -/
def text (n : IPNet) : List Char :=
  match networkNumberAndMask n with
  | none => "<nil>".toList
  | some (nn, m) =>
    match simpleMaskLength m with
    | none => ipText nn ++ '/' :: maskText m
    | some l => ipText nn ++ '/' :: decimal l

/-- `net.IP.Mask` -/
def maskIP (ip : IP) (mask : IPMask) : Option IP :=
  let mask := if mask.length = 16 ∧ ip.length = 4 ∧ (mask.take 12).all (· = 0xff) then mask.drop 12
    else mask
  let ip := if mask.length = 4 ∧ ip.length = 16 ∧ ip.take 12 = v4InV6Prefix then ip.drop 12 else ip
  if ip.length ≠ mask.length then none else some (List.zipWith (· &&& ·) ip mask)

/-- `net.ParseCIDR`: the address of sixteen bytes and the network that it is in -/
def parseCIDR (s : List Char) : Option (IP × IPNet) :=
  match s.splitOn '/' with
  | [addr, mask] => do
    let ipAddr ← parseAddr addr
    let n ← if mask = [] then none else ofDigits 10 digitVal mask
    if n ≤ ipAddr.bitLen then
      let m := cidrMask (ipAddr.bitLen / 8) n
      pure (as16 ipAddr, ⟨(maskIP (as16 ipAddr) m).getD [], m⟩)
    else none
  | _ => none

section Masks

@[simp] theorem length_cidrMask (l n : ℕ) : (cidrMask l n).length = l := by
  induction l generalizing n with
  | zero => rfl
  | succ l ih =>
    rw [cidrMask]
    split <;> rw [List.length_cons, ih]

/-- Without its first bytes, a mask is shorter by their bits. -/
theorem drop_cidrMask (k l n : ℕ) : (cidrMask (l + k) n).drop k = cidrMask l (n - 8 * k) := by
  induction k generalizing n with
  | zero => rfl
  | succ k ih =>
    rw [← Nat.add_assoc, cidrMask]
    split
    · rw [List.drop_succ_cons, ih]
      exact congrArg (cidrMask l) (by omega)
    · rw [List.drop_succ_cons, ih]
      exact congrArg (cidrMask l) (by omega)

theorem leadingOnes_partial : ∀ n < 8,
    leadingOnes 8 (~~~(0xff >>> UInt8.ofNat n)) = (n, 0) ∧ ~~~(0xff >>> UInt8.ofNat n) ≠ 0xff := by
  decide

theorem cidrMask_zero (l : ℕ) : (cidrMask l 0).all (· = 0) = true := by
  induction l with
  | zero => rfl
  | succ l ih =>
    rw [cidrMask, if_neg (by decide), List.all_cons, ih]
    rfl

theorem simpleMaskLength_cidrMask {l n : ℕ} (fits : n ≤ 8 * l) :
    simpleMaskLength (cidrMask l n) = some n := by
  induction l generalizing n with
  | zero =>
    have zero : n = 0 := by omega
    rw [zero]
    rfl
  | succ l ih =>
    rw [cidrMask]
    by_cases whole : 8 ≤ n
    · rw [if_pos whole, simpleMaskLength, if_pos rfl, ih (by omega), Option.map_some,
        Nat.add_sub_cancel' whole]
    · obtain ⟨ones, other⟩ := leadingOnes_partial n (by omega)
      rw [if_neg whole, simpleMaskLength, if_neg other]
      simp only [ones, cidrMask_zero, and_self, if_true]

end Masks

section Addresses

variable {v : ℕ}

theorem length_as16 (a : Addr) : (as16 a).length = 16 := by
  unfold as16
  split <;> rw [length_bytesOf]

theorem to4_bytesOf (small : v < 256 ^ 16) :
    to4 (bytesOf 16 v) = if v / 2 ^ 32 = 0xffff then some (bytesOf 4 v) else none := by
  have parts : bytesOf 16 v = bytesOf 12 (v / 2 ^ 32) ++ bytesOf 4 v := bytesOf_add 12 4 v
  have front : (bytesOf 16 v).take 12 = bytesOf 12 (v / 2 ^ 32) := by
    rw [parts, List.take_left' (length_bytesOf ..)]
  have back : (bytesOf 16 v).drop 12 = bytesOf 4 v := by
    rw [parts, List.drop_left' (length_bytesOf ..)]
  have marked : bytesOf 12 (v / 2 ^ 32) = v4InV6Prefix ↔ v / 2 ^ 32 = 0xffff := by
    have mark : bytesOf 12 0xffff = v4InV6Prefix := by decide
    rw [← mark]
    exact ⟨fun same => bytesOf_injective (by omega) (by decide) same, congrArg _⟩
  rw [to4, length_bytesOf, if_neg (by decide), front, back]
  simp only [marked, true_and]

theorem addrFrom4_bytesOf (v : ℕ) :
    addrFrom4 (bytesOf 4 v) = some ⟨.v4, v % 2 ^ 32, Nat.mod_lt _ (by decide)⟩ := by
  have low : value (bytesOf 4 v) = v % 2 ^ 32 := value_bytesOf_mod 4 v
  have small : v % 2 ^ 32 < 2 ^ Family.v4.bitLen := Nat.mod_lt _ (by decide)
  rw [addrFrom4, low, Addr.ofValue, dif_pos small]

theorem addrFrom16_bytesOf (small : v < 2 ^ 128) :
    addrFrom16 (bytesOf 16 v) = some ⟨.v6, v, small⟩ := by
  have inside : v < 2 ^ Family.v6.bitLen := small
  rw [addrFrom16, value_bytesOf small, Addr.ofValue, dif_pos inside]

end Addresses

section Texts

/-- The IPv6 address is that of an IPv4 address. -/
def Mapped (a : Addr) : Prop := a.family = .v6 ∧ a.value / 2 ^ 32 = 0xffff

instance (a : Addr) : Decidable (Mapped a) :=
  inferInstanceAs (Decidable (a.family = .v6 ∧ a.value / 2 ^ 32 = 0xffff))

/-- The prefix with an IPv4 address in place of an IPv6 address that stands for it -/
def unmapped (p : Prefix) : Prefix :=
  if Mapped p.addr then
    ⟨⟨.v4, p.addr.value % 2 ^ 32, Nat.mod_lt _ (by decide)⟩, min (p.bits - 96) 32,
      Nat.min_le_right ..⟩
  else p

/-- The network of an address of sixteen bytes -/
def ofPrefix (p : Prefix) : IPNet :=
  ⟨as16 p.addr, cidrMask (p.addr.family.bitLen / 8) p.bits⟩

variable {p : Prefix}

theorem unmapped_v4 (v4 : p.addr.family = .v4) : unmapped p = p := by
  refine if_neg fun mapped => ?_
  rw [Mapped, v4] at mapped
  cases mapped.1

theorem to4_four (v : ℕ) : to4 (bytesOf 4 v) = some (bytesOf 4 v) := by
  rw [to4, length_bytesOf, if_pos rfl]

theorem to4_as16 (v4 : p.addr.family = .v4) :
    to4 (as16 p.addr) = some (bytesOf 4 p.addr.value) := by
  have lt := p.addr.lt
  rw [v4, Family.bitLen] at lt
  have high : (0xffff * 2 ^ 32 + p.addr.value) / 2 ^ 32 = 0xffff := by omega
  have low : bytesOf 4 (0xffff * 2 ^ 32 + p.addr.value) = bytesOf 4 p.addr.value := by
    rw [← bytesOf_mod, ← bytesOf_mod 4 p.addr.value]
    exact congrArg (bytesOf 4) (by omega)
  rw [as16, v4, to4_bytesOf (by omega), if_pos high, low]

theorem addrFrom4_value {a : Addr} (v4 : a.family = .v4) :
    addrFrom4 (bytesOf 4 a.value) = some a := by
  have lt := a.lt
  rw [v4] at lt
  rw [addrFrom4_bytesOf]
  exact congrArg some (Addr.ext v4.symm (Nat.mod_eq_of_lt lt))

theorem addrFrom16_as16 {a : Addr} (v6 : a.family = .v6) : addrFrom16 (as16 a) = some a := by
  have lt := a.lt
  rw [v6] at lt
  rw [as16, v6]
  exact (addrFrom16_bytesOf lt).trans (congrArg some (Addr.ext v6.symm rfl))

theorem ipText_v4 {a : Addr} (v4 : a.family = .v4) : ipText (bytesOf 4 a.value) = a.text := by
  have some : bytesOf 4 a.value ≠ [] := by
    refine List.ne_nil_of_length_pos ?_
    rw [length_bytesOf]
    decide
  rw [ipText, if_neg some, to4_four]
  simp only [addrFrom4_value v4]

/-- Networks of four bytes are written as prefixes of IPv4. -/
theorem text_v4 {ip : IP} {mask : IPMask} (v4 : p.addr.family = .v4)
    (four : to4 ip = some (bytesOf 4 p.addr.value))
    (size : mask = cidrMask 4 p.bits ∨ mask.length = 16 ∧ mask.drop 12 = cidrMask 4 p.bits) :
    text ⟨ip, mask⟩ = p.text := by
  have bits : p.bits ≤ 8 * 4 := by
    have le := p.le
    rwa [v4] at le
  have parts : networkNumberAndMask ⟨ip, mask⟩ =
      some (bytesOf 4 p.addr.value, cidrMask 4 p.bits) := by
    rw [networkNumberAndMask]
    simp only [four, Option.getD_some, length_bytesOf]
    rcases size with rfl | ⟨sixteen, rest⟩
    · simp only [length_cidrMask, ne_eq, not_true_eq_false, false_and, if_false, if_true]
    · simp [sixteen, rest]
  rw [text, parts]
  simp only [simpleMaskLength_cidrMask bits, ipText_v4 v4]
  rfl

/-- Networks of sixteen bytes are written as prefixes of IPv6. -/
theorem text_v6 (v6 : p.addr.family = .v6) (other : ¬ p.addr.value / 2 ^ 32 = 0xffff) :
    text (ofPrefix p) = p.text := by
  have lt := p.addr.lt
  rw [v6] at lt
  have bits : p.bits ≤ 8 * 16 := by
    have le := p.le
    rwa [v6] at le
  have bytes : to4 (as16 p.addr) = none := by
    rw [as16, v6, to4_bytesOf lt, if_neg other]
  have sixteen : (as16 p.addr).length = 16 := length_as16 p.addr
  have parts : networkNumberAndMask (ofPrefix p) = some (as16 p.addr, cidrMask 16 p.bits) := by
    rw [ofPrefix, v6, networkNumberAndMask]
    simp [bytes, sixteen, Family.bitLen]
  have notEmpty : as16 p.addr ≠ [] := List.ne_nil_of_length_pos (by rw [sixteen]; decide)
  have number : ipText (as16 p.addr) = p.addr.text := by
    rw [ipText, if_neg notEmpty, bytes]
    simp only [sixteen, if_true, addrFrom16_as16 v6]
  rw [text, parts]
  simp only [simpleMaskLength_cidrMask bits, number]
  rfl

/-- Networks are written as the prefixes that they are of, except that all addresses of IPv4 are
written as such. -/
theorem text_ofPrefix (p : Prefix) : text (ofPrefix p) = (unmapped p).text := by
  have lt := p.addr.lt
  have le := p.le
  cases family : p.addr.family with
  | v4 =>
    rw [ofPrefix, family, unmapped_v4 family]
    exact text_v4 family (to4_as16 family) (.inl rfl)
  | v6 =>
    by_cases mapped : p.addr.value / 2 ^ 32 = 0xffff
    · rw [family] at lt
      rw [family, Family.bitLen] at le
      have net : unmapped p = ⟨⟨.v4, p.addr.value % 2 ^ 32, Nat.mod_lt _ (by decide)⟩,
          min (p.bits - 96) 32, Nat.min_le_right ..⟩ := if_pos ⟨family, mapped⟩
      have four : to4 (as16 p.addr) = some (bytesOf 4 (p.addr.value % 2 ^ 32)) := by
        rw [as16, family, to4_bytesOf lt, if_pos mapped]
        exact congrArg some (bytesOf_mod 4 p.addr.value).symm
      -- the mask of the last four bytes
      have bits : min (p.bits - 96) 32 = p.bits - 8 * 12 := by omega
      have rest : (cidrMask 16 p.bits).drop 12 = cidrMask 4 (min (p.bits - 96) 32) := by
        rw [bits]
        exact drop_cidrMask 12 4 p.bits
      rw [ofPrefix, family, net]
      exact text_v4 rfl four (.inr ⟨length_cidrMask 16 p.bits, rest⟩)
    · rw [text_v6 family mapped, unmapped, if_neg fun h => mapped h.2]

/-- A prefix is parsed to its address and its network. -/
theorem parseCIDR_text (p : Prefix) : ∃ net, parseCIDR p.text = some (as16 p.addr, net) ∧
    net.mask = cidrMask (p.addr.family.bitLen / 8) p.bits := by
  have digits : ofDigits 10 digitVal (decimal p.bits) = some p.bits :=
    ofDigits_toDigits (by decide) digitVal_digitChar p.bits
  have notEmpty : decimal p.bits ≠ [] := Nat.toDigits_ne_nil
  have le : p.bits ≤ p.addr.bitLen := p.le
  have parsed : parseCIDR p.text = some (as16 p.addr,
      ⟨(maskIP (as16 p.addr) (cidrMask (p.addr.bitLen / 8) p.bits)).getD [],
        cidrMask (p.addr.bitLen / 8) p.bits⟩) := by
    simp only [parseCIDR, p.splitOn_text, parseAddr_text, Option.bind_eq_bind, Option.bind_some,
      if_neg notEmpty, digits, if_pos le]
    rfl
  exact ⟨_, parsed, rfl⟩

end Texts

section Requests

/-- The prefix of an address and a mask, whose size is that of the family. -/
def prefixOf (n : IPNet) : Option Prefix :=
  (simpleMaskLength n.mask).bind fun bits =>
    let addr :=
      if n.mask.length = 4 then (to4 n.ip).bind addrFrom4
      else if n.mask.length = 16 ∧ n.ip.length = 16 then addrFrom16 n.ip
      else none
    addr.bind fun a => if h : bits ≤ a.family.bitLen then some ⟨a, bits, h⟩ else none

/-- The network with the bytes of its own family only -/
def shortNet (p : Prefix) : IPNet :=
  match p.addr.family with
  | .v4 => ⟨bytesOf 4 p.addr.value, cidrMask 4 p.bits⟩
  | .v6 => ofPrefix p

variable {p : Prefix}

theorem prefixOf_v4 {ip : IP} (v4 : p.addr.family = .v4)
    (four : to4 ip = some (bytesOf 4 p.addr.value)) :
    prefixOf ⟨ip, cidrMask 4 p.bits⟩ = some p := by
  have bits : p.bits ≤ 8 * 4 := by
    have le := p.le
    rwa [v4] at le
  rw [prefixOf]
  simp only [simpleMaskLength_cidrMask bits, length_cidrMask, if_true, four, Option.bind_some,
    addrFrom4_value v4, dif_pos p.le]

/-- A request names the prefix that it is made for. -/
theorem prefixOf_ofPrefix (p : Prefix) : prefixOf (ofPrefix p) = some p := by
  cases family : p.addr.family with
  | v4 =>
    rw [ofPrefix, family]
    exact prefixOf_v4 family (to4_as16 family)
  | v6 =>
    have bits : p.bits ≤ 8 * 16 := by
      have le := p.le
      rwa [family] at le
    have mask : Family.v6.bitLen / 8 = 16 := rfl
    rw [ofPrefix, family, mask, prefixOf]
    simp [simpleMaskLength_cidrMask bits, length_as16, addrFrom16_as16 family, p.le]

theorem prefixOf_shortNet (p : Prefix) : prefixOf (shortNet p) = some p := by
  cases family : p.addr.family with
  | v4 =>
    rw [shortNet, family]
    exact prefixOf_v4 family (to4_four _)
  | v6 =>
    rw [shortNet, family]
    exact prefixOf_ofPrefix p

theorem text_shortNet (p : Prefix) : text (shortNet p) = (unmapped p).text := by
  cases family : p.addr.family with
  | v4 =>
    rw [shortNet, family, unmapped_v4 family]
    exact text_v4 family (to4_four _) (.inl rfl)
  | v6 =>
    rw [shortNet, family]
    exact text_ofPrefix p

end Requests

end WgPortal.Library.Net
