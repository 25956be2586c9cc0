import WgPortal.Domain.Cidr
import WgPortal.Library.Net

/-! Prefixes as records of texts, with the methods that go through these texts. They agree with
the methods on prefixes as long as there is an address to return. An absent result is a panic. -/

namespace WgPortal.Domain.CidrArithmetic

open Library Library.NetIP Library.Net

/-- `netip.Prefix`, which may be of the zero address, or of a length its address does not have. -/
inductive AnyPrefix where
  | valid (p : Prefix)
  | invalid (ip : Option Addr)
deriving DecidableEq

namespace AnyPrefix

def addr : AnyPrefix → Option Addr
  | valid p => some p.addr
  | invalid ip => ip

def bits : AnyPrefix → ℤ
  | valid p => p.bits
  | invalid _ => -1

def isValid : AnyPrefix → Bool
  | valid _ => true
  | invalid _ => false

def masked : AnyPrefix → AnyPrefix
  | valid p => valid p.masked
  | invalid _ => invalid none

def text : AnyPrefix → String
  | valid p => String.ofList p.text
  | invalid _ => "invalid Prefix"

end AnyPrefix

/-- `netip.PrefixFrom` -/
def prefixFrom (ip : Option Addr) (bits : ℤ) : AnyPrefix :=
  match ip with
  | none => .invalid none
  | some a =>
    if h : 0 ≤ bits ∧ bits.toNat ≤ a.family.bitLen then .valid ⟨a, bits.toNat, h.2⟩
    else .invalid (some a)

/-- `netip.Addr.String`, with the zero address -/
def addrText (ip : Option Addr) : String :=
  match ip with
  | none => "invalid IP"
  | some a => String.ofList a.text

/-- `netip.Addr.BitLen` -/
def bitLen (ip : Option Addr) : ℕ := ip.elim 0 Addr.bitLen

/-- `domain.Cidr` -/
structure CidrRecord where
  cidr : String
  addr : String
  netLength : ℤ
deriving DecidableEq

/-- `Cidr{}` -/
def CidrRecord.zero : CidrRecord := ⟨"", "", 0⟩

def cidrFromPrefix (p : AnyPrefix) : CidrRecord := ⟨p.text, addrText p.addr, p.bits⟩

def cidrFromString (str : String) : Option CidrRecord :=
  (Domain.cidrFromString str).map fun p => cidrFromPrefix (.valid p)

namespace CidrRecord

variable (c : CidrRecord)

/-- `Prefix`, which panics unless the address can be parsed. -/
def toPrefix : Option AnyPrefix :=
  (parseAddr c.addr.toList).map fun a => prefixFrom (some a) c.netLength

def string : Option String := c.toPrefix.map AnyPrefix.text

def isValid : Option Bool := c.toPrefix.map AnyPrefix.isValid

def isV4 : Option Bool := c.toPrefix.map fun p => p.addr.any fun a => a.family = .v4

def broadcastAddr : Option CidrRecord :=
  c.toPrefix.map fun p =>
    match p with
    | .invalid _ => zero
    | .valid p =>
      let a16 := as16 p.addr
      if p.addr.family = .v4 then
        let a16 := (List.range' p.bits (32 - p.bits)).foldl (BigEndian.setBit 12) a16
        let addr := (addrFrom16 a16).map Addr.unmap
        ⟨(prefixFrom addr p.bits).text, addrText addr, p.bits⟩
      else
        let a16 := (List.range' p.bits (128 - p.bits)).foldl (BigEndian.setBit 0) a16
        let addr := addrFrom16 a16
        ⟨(prefixFrom addr p.bits).text, addrText addr, p.bits⟩

def networkAddr : Option CidrRecord :=
  c.toPrefix.map fun p => if p.isValid then cidrFromPrefix p.masked else zero

def firstAddr : Option CidrRecord :=
  c.toPrefix.map fun p =>
    let firstAddr := p.masked.addr.bind Addr.next
    ⟨(prefixFrom firstAddr c.netLength).text, addrText firstAddr, p.bits⟩

def nextAddr : Option CidrRecord :=
  c.toPrefix.map fun p =>
    let nextAddr := p.addr.bind Addr.next
    ⟨(prefixFrom nextAddr c.netLength).text, addrText nextAddr, p.bits⟩

def hostAddr : Option CidrRecord :=
  c.toPrefix.map fun p => ⟨(prefixFrom p.addr (bitLen p.addr)).text, c.addr, bitLen p.addr⟩

def nextSubnet : Option CidrRecord :=
  c.toPrefix.bind fun p => c.broadcastAddr.bind fun broadcast => broadcast.toPrefix.map fun last =>
    let nextAddr := last.addr.bind Addr.next
    ⟨(prefixFrom nextAddr c.netLength).text, addrText nextAddr, p.bits⟩

end CidrRecord

/-- The record of a prefix, with the texts of the prefix and of its address -/
def record (p : Prefix) : CidrRecord := cidrFromPrefix (.valid p)

/-- What is returned where there is no further address. -/
def pastEnd (bits : ℕ) : CidrRecord := ⟨"invalid Prefix", "invalid IP", bits⟩

/-- Its address is not one that can be parsed. -/
theorem isValid_pastEnd (bits : ℕ) : (pastEnd bits).isValid = none := by
  have unparsed : parseAddr "invalid IP".toList = none := by decide
  rw [CidrRecord.isValid, CidrRecord.toPrefix, pastEnd, unparsed]
  rfl

theorem prefixFrom_bits (p : Prefix) : prefixFrom (some p.addr) p.bits = .valid p := by
  have fits : (0 : ℤ) ≤ p.bits ∧ (p.bits : ℤ).toNat ≤ p.addr.family.bitLen :=
    ⟨Int.natCast_nonneg _, p.le⟩
  simp only [prefixFrom, dif_pos fits]
  rfl

@[simp] theorem toPrefix_record (p : Prefix) : (record p).toPrefix = some (.valid p) := by
  have parsed : parseAddr (record p).addr.toList = some p.addr := by
    rw [show (record p).addr = String.ofList p.addr.text from rfl, String.toList_ofList,
      parseAddr_text]
  rw [CidrRecord.toPrefix, parsed, Option.map_some]
  exact congrArg some (prefixFrom_bits p)

section Methods

variable (p : Prefix)

theorem networkAddr_record :
    (record p).networkAddr = some (record (Cidr.networkAddr p)) := by
  rw [CidrRecord.networkAddr, toPrefix_record]
  rfl

variable {p} in
theorem nextAddr_eq_none (none : p.addr.next = none) : Cidr.nextAddr p = Option.none := by
  cases found : Cidr.nextAddr p with
  | none => rfl
  | some q =>
    have after := Cidr.nextAddr_eq_some.mp found
    exact absurd (none.symm.trans (Addr.next_eq_some.mpr ⟨after.1, after.2.1⟩)) (by simp)

/-- The record with the address after that of a prefix -/
theorem record_next : (⟨(prefixFrom p.addr.next p.bits).text, addrText p.addr.next, p.bits⟩ :
    CidrRecord) = (Cidr.nextAddr p).elim (pastEnd p.bits) record := by
  cases found : p.addr.next with
  | none =>
    rw [nextAddr_eq_none found]
    rfl
  | some a =>
    have after := Addr.next_eq_some.mp found
    have fits : p.bits ≤ a.family.bitLen := after.1 ▸ p.le
    have next : Cidr.nextAddr p = some ⟨a, p.bits, fits⟩ :=
      Cidr.nextAddr_eq_some.mpr ⟨after.1, after.2, rfl⟩
    have valid : prefixFrom (some a) p.bits = .valid ⟨a, p.bits, fits⟩ :=
      prefixFrom_bits ⟨a, p.bits, fits⟩
    rw [next, valid]
    rfl

theorem nextAddr_record :
    (record p).nextAddr = some ((Cidr.nextAddr p).elim (pastEnd p.bits) record) := by
  rw [CidrRecord.nextAddr, toPrefix_record]
  exact congrArg some (record_next p)

theorem firstAddr_record :
    (record p).firstAddr = some ((Cidr.firstAddr p).elim (pastEnd p.bits) record) := by
  rw [CidrRecord.firstAddr, toPrefix_record]
  exact congrArg some (record_next p.masked)

/-- The bytes of an IPv4 address end with it, and begin as those of all IPv4 addresses. -/
theorem unmap_addrFrom16 {bytes : List UInt8} {low : ℕ} (small : low < 2 ^ 32)
    (value : BigEndian.value bytes = 0xffff * 2 ^ 32 + low) :
    (addrFrom16 bytes).map Addr.unmap = some ⟨.v4, low, small⟩ := by
  have inside : 0xffff * 2 ^ 32 + low < 2 ^ Family.v6.bitLen := by
    rw [Family.bitLen]
    omega
  have high : (0xffff * 2 ^ 32 + low) / 2 ^ 32 = 0xffff := by omega
  have rest : (0xffff * 2 ^ 32 + low) % 2 ^ 32 = low := by omega
  rw [addrFrom16, value, Addr.ofValue, dif_pos inside, Option.map_some, Addr.unmap]
  simp only [high, and_self, if_true]
  exact congrArg some (Addr.ext rfl rest)

theorem lastAddr_v4 (v4 : p.addr.family = .v4) :
    (addrFrom16 ((List.range' p.bits (32 - p.bits)).foldl (BigEndian.setBit 12)
      (as16 p.addr))).map Addr.unmap = some p.last := by
  have host : p.hostBits = 32 - p.bits := by
    rw [Prefix.hostBits, v4]
    rfl
  have bits : p.bits ≤ 32 := by
    have fits := p.le
    rwa [v4] at fits
  have small : p.addr.value < 2 ^ 32 := by
    have lt := p.addr.lt
    rwa [v4] at lt
  have below : p.last.value < 2 ^ 32 := by
    have lt := p.last.lt
    rwa [show p.last.family = .v4 from v4] at lt
  have bytes : as16 p.addr = BigEndian.bytesOf 16 (0xffff * 2 ^ 32 + p.addr.value) := by
    rw [as16, v4]
  have whole : 0xffff * 2 ^ 32 = 2 ^ (32 - p.bits) * (0xffff * 2 ^ p.bits) := by
    rw [Nat.mul_left_comm, ← Nat.pow_add, Nat.sub_add_cancel bits]
  have value : BigEndian.value ((List.range' p.bits (32 - p.bits)).foldl (BigEndian.setBit 12)
      (as16 p.addr)) = 0xffff * 2 ^ 32 + p.last.value := by
    rw [bytes, BigEndian.value_setFrom (by rw [BigEndian.length_bytesOf]),
      BigEndian.value_bytesOf (by omega), whole, Nat.mul_add_div (Nat.two_pow_pos _), Nat.add_mul,
      Nat.add_assoc, Nat.mul_comm _ (2 ^ (32 - p.bits))]
    refine congrArg _ ?_
    rw [← host]
    rfl
  rw [unmap_addrFrom16 below value]
  exact congrArg some (Addr.ext v4.symm rfl)

theorem lastAddr_v6 (v6 : p.addr.family = .v6) :
    addrFrom16 ((List.range' p.bits (128 - p.bits)).foldl (BigEndian.setBit 0) (as16 p.addr)) =
      some p.last := by
  have host : p.hostBits = 128 - p.bits := by
    rw [Prefix.hostBits, v6]
    rfl
  have small : p.addr.value < 256 ^ 16 := by
    have lt := p.addr.lt
    rwa [v6] at lt
  have below : p.last.value < 2 ^ Family.v6.bitLen := by
    have lt := p.last.lt
    rwa [show p.last.family = .v6 from v6] at lt
  have bytes : as16 p.addr = BigEndian.bytesOf 16 p.addr.value := by
    rw [as16, v6]
  have value : BigEndian.value ((List.range' p.bits (128 - p.bits)).foldl (BigEndian.setBit 0)
      (as16 p.addr)) = p.last.value := by
    rw [bytes, BigEndian.value_setFrom (by rw [BigEndian.length_bytesOf]),
      BigEndian.value_bytesOf small, ← host]
    rfl
  rw [addrFrom16, value, Addr.ofValue, dif_pos below]
  exact congrArg some (Addr.ext v6.symm rfl)

theorem broadcastAddr_record :
    (record p).broadcastAddr = some (record (Cidr.broadcastAddr p)) := by
  have valid : prefixFrom (some p.last) p.bits = .valid (Cidr.broadcastAddr p) :=
    prefixFrom_bits (Cidr.broadcastAddr p)
  rw [CidrRecord.broadcastAddr, toPrefix_record, Option.map_some]
  refine congrArg some ?_
  cases family : p.addr.family with
  | v4 =>
    simp only [if_pos family, lastAddr_v4 p family, valid]
    rfl
  | v6 =>
    have v6 : ¬ p.addr.family = .v4 := by
      rw [family]
      exact fun other => by cases other
    simp only [if_neg v6, lastAddr_v6 p family, valid]
    rfl

theorem nextSubnet_record :
    (record p).nextSubnet = some ((Cidr.nextSubnet p).elim (pastEnd p.bits) record) := by
  rw [CidrRecord.nextSubnet, toPrefix_record, Option.bind_some, broadcastAddr_record,
    Option.bind_some, toPrefix_record]
  exact congrArg some (record_next (Cidr.broadcastAddr p))

end Methods

/-- What is computed from a record whose prefix is `p` are the bounds of the block of `p`, the
block after it and an address in it. Beyond the last address there is nothing that is valid. -/
structure BlockArithmetic (c : CidrRecord) (p : Prefix) : Prop where
  network : ∃ n, c.networkAddr = some (record n) ∧ n.bits = p.bits ∧ p.Within n.addr ∧
    ∀ a, p.Within a → n.addr.value ≤ a.value
  broadcast : ∃ n, c.broadcastAddr = some (record n) ∧ n.bits = p.bits ∧ p.Within n.addr ∧
    ∀ a, p.Within a → a.value ≤ n.addr.value
  following : ∀ a, p.last.next = some a →
    ∃ n, c.nextSubnet = some (record n) ∧ n.bits = p.bits ∧ n.addr = a ∧ n.masked = n
  first : 2 ≤ p.hostBits → ∃ n, c.firstAddr = some (record n) ∧ n.bits = p.bits ∧ p.Within n.addr
  addrEnd : p.addr.next = none → c.nextAddr.bind CidrRecord.isValid = some false
  subnetEnd : p.last.next = none → c.nextSubnet.bind CidrRecord.isValid = some false

/-- The block ends with the last address of its family. -/
def LastBlock (p : Prefix) : Prop := p.last.value + 1 = 2 ^ p.addr.family.bitLen

section Blocks

variable {p : Prefix}

theorem next_eq_none {a : Addr} : a.next = none ↔ a.value + 1 = 2 ^ a.family.bitLen := by
  have lt := a.lt
  unfold Addr.next
  split
  · rename_i more
    refine iff_of_false (fun none => by cases none) more.ne
  · rename_i none
    exact iff_of_true rfl (by omega)

theorem nextSubnet_isBase {a : Addr} (next : p.last.next = some a) :
    ∃ n, Cidr.nextSubnet p = some n ∧ n.bits = p.bits ∧ n.addr = a ∧ n.masked = n := by
  have after := Addr.next_eq_some.mp next
  have fits : p.bits ≤ a.family.bitLen := by
    rw [after.1]
    exact p.le
  exact ⟨⟨a, p.bits, fits⟩, Cidr.nextAddr_eq_some.mpr ⟨after.1, after.2, rfl⟩, rfl, rfl,
    Prefix.masked_behind after.1 rfl after.2⟩

theorem firstAddr_within (wide : 2 ≤ p.hostBits) :
    ∃ n, Cidr.firstAddr p = some n ∧ n.bits = p.bits ∧ p.Within n.addr := by
  have size : 2 ^ 2 ≤ 2 ^ p.hostBits := Nat.pow_le_pow_right (by decide) wide
  have below : p.masked.addr.value + 1 ≤ p.last.value := by
    change _ ≤ p.masked.addr.value + (2 ^ p.hostBits - 1)
    omega
  obtain ⟨n, found⟩ := @Cidr.exists_nextAddr p.masked (lt_of_le_of_lt below p.last.lt)
  have after := Cidr.nextAddr_eq_some.mp found
  refine ⟨n, found, after.2.2, (Prefix.within_first p).between p.within_last after.1 ?_ ?_⟩
  · rw [after.2.1]
    exact Nat.le_succ _
  · rw [after.2.1]
    exact below

end Blocks

/-- The methods are those of a block, as long as it is not the last one of its family: behind that
the records that are returned are not invalid, but cannot be asked. -/
theorem blockArithmetic_iff {str : String} {c : CidrRecord}
    (accepted : cidrFromString str = some c) :
    ∃ p, c.toPrefix = some (.valid p) ∧ (BlockArithmetic c p ↔ ¬ LastBlock p) := by
  obtain ⟨p, _, rfl⟩ := Option.map_eq_some_iff.mp accepted
  refine ⟨p, toPrefix_record p, ?_, ?_⟩
  · intro right last
    have none : p.last.next = none := next_eq_none.mpr last
    have ended := right.subnetEnd none
    have past : Cidr.nextSubnet p = Option.none := nextAddr_eq_none none
    have returned := nextSubnet_record p
    rw [past, Option.elim_none] at returned
    rw [show cidrFromPrefix (.valid p) = record p from rfl, returned, Option.bind_some,
      isValid_pastEnd] at ended
    cases ended
  · intro more
    have someLast : p.last.next ≠ none := fun none => more (next_eq_none.mp none)
    refine ⟨?_, ?_, ?_, ?_, ?_, ?_⟩
    · exact ⟨p.masked, networkAddr_record p, rfl, Prefix.within_first p,
        fun a inside => (Prefix.within_iff.mp inside).2.1⟩
    · exact ⟨Cidr.broadcastAddr p, broadcastAddr_record p, rfl, Prefix.within_last p,
        fun a inside => (Prefix.within_iff.mp inside).2.2⟩
    · intro a next
      obtain ⟨n, found, bits, addr, base⟩ := nextSubnet_isBase next
      have returned := nextSubnet_record p
      rw [found] at returned
      exact ⟨n, returned, bits, addr, base⟩
    · intro wide
      obtain ⟨n, found, bits, inside⟩ := firstAddr_within wide
      have returned := firstAddr_record p
      rw [found] at returned
      exact ⟨n, returned, bits, inside⟩
    · intro none
      have atEnd := next_eq_none.mp none
      have below := p.le_last
      have lt := p.last.lt
      exact absurd (le_antisymm lt (by rw [← atEnd]; exact Nat.succ_le_succ below)) more
    · exact fun none => absurd none someLast

/-- The block of a private network is followed by another one. -/
theorem privateNetwork_arithmetic : cidrFromString "10.0.0.1/24" =
      some ⟨"10.0.0.1/24", "10.0.0.1", 24⟩ ∧
    ∃ p, CidrRecord.toPrefix ⟨"10.0.0.1/24", "10.0.0.1", 24⟩ = some (.valid p) ∧
      (BlockArithmetic ⟨"10.0.0.1/24", "10.0.0.1", 24⟩ p ↔ ¬ LastBlock p) := by
  have accepted : cidrFromString "10.0.0.1/24" = some ⟨"10.0.0.1/24", "10.0.0.1", 24⟩ := by
    decide +kernel
  exact ⟨accepted, blockArithmetic_iff accepted⟩

/-- The last address of IPv4 is accepted, and what follows it panics when it is asked. -/
theorem lastAddress_panics : cidrFromString "255.255.255.255/32" =
      some ⟨"255.255.255.255/32", "255.255.255.255", 32⟩ ∧
    ¬ ∃ p, CidrRecord.toPrefix ⟨"255.255.255.255/32", "255.255.255.255", 32⟩ = some (.valid p) ∧
      BlockArithmetic ⟨"255.255.255.255/32", "255.255.255.255", 32⟩ p := by
  refine ⟨by decide +kernel, ?_⟩
  rintro ⟨p, parsed, right⟩
  have last : ∀ q, CidrRecord.toPrefix ⟨"255.255.255.255/32", "255.255.255.255", 32⟩ =
      some (.valid q) → q.addr.next = none := by
    intro q found
    have fixed : CidrRecord.toPrefix ⟨"255.255.255.255/32", "255.255.255.255", 32⟩ =
        some (.valid (Prefix.host ⟨.v4, 2 ^ 32 - 1, by decide⟩)) := by decide +kernel
    have same := Option.some.inj (fixed.symm.trans found)
    injection same with same
    rw [← same]
    rfl
  have ended := right.addrEnd (last p parsed)
  have panics : (CidrRecord.nextAddr ⟨"255.255.255.255/32", "255.255.255.255", 32⟩).bind
      CidrRecord.isValid = none := by decide +kernel
  rw [panics] at ended
  cases ended

end WgPortal.Domain.CidrArithmetic
