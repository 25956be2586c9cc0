import Mathlib.Algebra.Group.Nat.Defs
import Mathlib.Data.Nat.Basic

/-! IP addresses and prefixes, without zones. An address is a number below the
size of its family, so that every address and every prefix length is valid; what
Go calls an invalid address or prefix is an absent one here. -/

namespace WgPortal.Library.NetIP

inductive Family where
  | v4
  | v6
deriving DecidableEq, Repr

def Family.bitLen : Family → ℕ
  | .v4 => 32
  | .v6 => 128

structure Addr where
  family : Family
  value : ℕ
  lt : value < 2 ^ family.bitLen
deriving DecidableEq

structure Prefix where
  addr : Addr
  bits : ℕ
  le : bits ≤ addr.family.bitLen
deriving DecidableEq

namespace Addr

@[ext] theorem ext {a b : Addr} (family : a.family = b.family) (value : a.value = b.value) :
    a = b := by
  cases a
  cases b
  simp only at family value
  subst family value
  rfl

def bitLen (a : Addr) : ℕ := a.family.bitLen

/-- The address after `a`, if there is one. -/
def next (a : Addr) : Option Addr :=
  if h : a.value + 1 < 2 ^ a.family.bitLen then some ⟨a.family, a.value + 1, h⟩ else none

theorem next_eq_some {a b : Addr} :
    a.next = some b ↔ b.family = a.family ∧ b.value = a.value + 1 := by
  unfold next
  split
  · rename_i h
    constructor
    · intro same
      rw [← Option.some.inj same]
      exact ⟨rfl, rfl⟩
    · rintro ⟨family, value⟩
      have same : (⟨a.family, a.value + 1, h⟩ : Addr) = b := Addr.ext family.symm value.symm
      rw [same]
  · rename_i h
    constructor
    · intro none
      cases none
    · rintro ⟨family, value⟩
      have lt := b.lt
      rw [family, value] at lt
      exact absurd lt h

/-- The IPv4 address that an IPv4-mapped IPv6 address stands for. -/
def unmap (a : Addr) : Addr :=
  if a.family = .v6 ∧ a.value / 2 ^ 32 = 0xffff then
    ⟨.v4, a.value % 2 ^ 32, Nat.mod_lt _ (by decide)⟩
  else a

end Addr

namespace Prefix

@[ext] theorem ext {p q : Prefix} (addr : p.addr = q.addr) (bits : p.bits = q.bits) : p = q := by
  cases p
  cases q
  simp only at addr bits
  subst addr bits
  rfl

/-- The number of address bits that are not part of the network. -/
def hostBits (p : Prefix) : ℕ := p.addr.family.bitLen - p.bits

def masked (p : Prefix) : Prefix where
  addr := ⟨p.addr.family, p.addr.value / 2 ^ p.hostBits * 2 ^ p.hostBits,
    lt_of_le_of_lt (Nat.div_mul_le_self ..) p.addr.lt⟩
  bits := p.bits
  le := p.le

theorem masked_masked (p : Prefix) : p.masked.masked = p.masked := by
  have value : p.masked.masked.addr.value = p.masked.addr.value := by
    change p.addr.value / 2 ^ p.hostBits * 2 ^ p.hostBits / 2 ^ p.hostBits * 2 ^ p.hostBits = _
    rw [Nat.mul_div_cancel _ (Nat.two_pow_pos p.hostBits)]
    rfl
  exact Prefix.ext (Addr.ext rfl value) rfl

def host (a : Addr) : Prefix := ⟨a, a.family.bitLen, le_refl _⟩

@[simp] theorem host_masked (a : Addr) : (host a).masked = host a := by
  simp [masked, host, hostBits]

/-- The network as a `net.IPNet`, where IPv4-mapped IPv6 addresses are IPv4. -/
def ipNet (p : Prefix) : Prefix :=
  let a := p.masked.addr
  if a.family = .v6 ∧ a.value / 2 ^ 32 = 0xffff then
    ⟨⟨.v4, a.value % 2 ^ 32, Nat.mod_lt _ (by decide)⟩, min (p.bits - 96) 32, min_le_right ..⟩
  else p.masked

/-- `net.IPNet.Contains` -/
def contains (p : Prefix) (a : Addr) : Bool :=
  let n := p.ipNet
  let b := a.unmap
  n.addr.family = b.family && n.addr.value / 2 ^ n.hostBits = b.value / 2 ^ n.hostBits

theorem pow_dvd_masked (p : Prefix) : 2 ^ p.hostBits ∣ p.masked.addr.value :=
  Nat.dvd_mul_left ..

theorem masked_eq_self {p : Prefix} (h : 2 ^ p.hostBits ∣ p.addr.value) : p.masked = p :=
  Prefix.ext (Addr.ext rfl (Nat.div_mul_cancel h)) rfl

/-- Masking and unmapping a network again changes nothing. -/
theorem ipNet_ipNet (p : Prefix) : p.ipNet.ipNet = p.ipNet := by
  have family : p.masked.addr.family = p.addr.family := rfl
  by_cases mapped : p.masked.addr.family = .v6 ∧ p.masked.addr.value / 2 ^ 32 = 0xffff
  · have net : p.ipNet = ⟨⟨.v4, p.masked.addr.value % 2 ^ 32, Nat.mod_lt _ (by decide)⟩,
        min (p.bits - 96) 32, min_le_right ..⟩ := by
      rw [ipNet]
      exact if_pos mapped
    have bits : p.hostBits = 128 - p.bits := by
      rw [hostBits, ← family, mapped.1]
      rfl
    have host : p.ipNet.hostBits = min p.hostBits 32 := by
      rw [net, bits]
      simp only [hostBits, Family.bitLen]
      omega
    have dvd : 2 ^ p.ipNet.hostBits ∣ p.ipNet.addr.value := by
      rw [host, net]
      refine (Nat.dvd_mod_iff (Nat.pow_dvd_pow 2 (min_le_right ..))).mpr ?_
      exact Nat.dvd_trans (Nat.pow_dvd_pow 2 (min_le_left ..)) (pow_dvd_masked p)
    have v4 : ¬ (p.ipNet.masked.addr.family = .v6 ∧
        p.ipNet.masked.addr.value / 2 ^ 32 = 0xffff) := by
      rw [net]
      exact fun h => by cases h.1
    rw [ipNet, if_neg v4, masked_eq_self dvd]
  · have net : p.ipNet = p.masked := by
      rw [ipNet]
      exact if_neg mapped
    have again : ¬ (p.masked.masked.addr.family = .v6 ∧
        p.masked.masked.addr.value / 2 ^ 32 = 0xffff) := by
      rwa [masked_masked]
    rw [net, ipNet]
    exact (if_neg again).trans (masked_masked p)

end Prefix

/-- A network as it stands in a routing table: masked, and IPv4 where possible. -/
structure Network where
  net : Prefix
  canonical : net.ipNet = net
deriving DecidableEq

def Network.of (p : Prefix) : Network := ⟨p.ipNet, p.ipNet_ipNet⟩

theorem Network.of_net (n : Network) : Network.of n.net = n := by
  cases n with
  | mk net canonical =>
    simp only [Network.of, canonical]

/-- The network of the single address that a network is written with. -/
def Network.host (n : Network) : Network := Network.of (Prefix.host n.net.addr)

theorem Prefix.ipNet_host (a : Addr) : (host a).ipNet = host (host a).ipNet.addr := by
  have bits : (host a).ipNet.bits = (host a).ipNet.addr.family.bitLen := by
    simp only [ipNet]
    split
    · rename_i mapped
      have v6 : a.family = .v6 := mapped.1
      simp only [host, v6, Family.bitLen]
      omega
    · rfl
  exact Prefix.ext rfl bits

@[simp] theorem Network.host_host (n : Network) : n.host.host = n.host := by
  have single : Prefix.host n.host.net.addr = n.host.net :=
    (Prefix.ipNet_host n.net.addr).symm
  rw [Network.host, single, Network.of_net]

end WgPortal.Library.NetIP
