import Mathlib.Order.Basic
import WgPortal.Library.NetIP

/-! The addresses of a prefix: those from its masked address to its last one. -/

namespace WgPortal.Library.NetIP.Prefix

theorem last_lt (p : Prefix) :
    p.masked.addr.value + (2 ^ p.hostBits - 1) < 2 ^ p.addr.family.bitLen := by
  have size : 2 ^ p.addr.family.bitLen = 2 ^ p.hostBits * 2 ^ p.bits := by
    rw [← Nat.pow_add, hostBits, Nat.sub_add_cancel p.le]
  have number : p.addr.value / 2 ^ p.hostBits < 2 ^ p.bits :=
    Nat.div_lt_of_lt_mul (size ▸ p.addr.lt)
  have room : (p.addr.value / 2 ^ p.hostBits + 1) * 2 ^ p.hostBits ≤ 2 ^ p.addr.family.bitLen := by
    rw [size, Nat.mul_comm (2 ^ p.hostBits)]
    exact Nat.mul_le_mul_right _ number
  have positive := Nat.two_pow_pos p.hostBits
  rw [Nat.add_mul, Nat.one_mul] at room
  change p.addr.value / 2 ^ p.hostBits * 2 ^ p.hostBits + (2 ^ p.hostBits - 1) < _
  omega

/-- The address with all host bits set. -/
def last (p : Prefix) : Addr :=
  ⟨p.addr.family, p.masked.addr.value + (2 ^ p.hostBits - 1), p.last_lt⟩

/-- The address belongs to the network. -/
def Within (p : Prefix) (a : Addr) : Prop :=
  a.family = p.addr.family ∧ a.value / 2 ^ p.hostBits = p.addr.value / 2 ^ p.hostBits

def Overlaps (p q : Prefix) : Prop := ∃ a, p.Within a ∧ q.Within a

variable {p q : Prefix} {a b c : Addr}

theorem within_iff : p.Within a ↔ a.family = p.addr.family ∧
    p.masked.addr.value ≤ a.value ∧ a.value ≤ p.last.value := by
  have positive := Nat.two_pow_pos p.hostBits
  have bounds : a.value / 2 ^ p.hostBits = p.addr.value / 2 ^ p.hostBits ↔
      p.masked.addr.value ≤ a.value ∧ a.value < p.masked.addr.value + 2 ^ p.hostBits := by
    rw [Nat.div_eq_iff positive]
    change _ ↔ p.addr.value / 2 ^ p.hostBits * 2 ^ p.hostBits ≤ a.value ∧
      a.value < p.addr.value / 2 ^ p.hostBits * 2 ^ p.hostBits + 2 ^ p.hostBits
    omega
  rw [Within, bounds]
  refine and_congr_right fun _ => and_congr_right fun _ => ?_
  change _ ↔ a.value ≤ p.masked.addr.value + (2 ^ p.hostBits - 1)
  omega

theorem within_addr (p : Prefix) : p.Within p.addr := ⟨rfl, rfl⟩

theorem within_masked : p.masked.Within a ↔ p.Within a := by
  have value : p.masked.addr.value / 2 ^ p.hostBits = p.addr.value / 2 ^ p.hostBits :=
    Nat.mul_div_cancel _ (Nat.two_pow_pos p.hostBits)
  change a.family = p.addr.family ∧
    a.value / 2 ^ p.hostBits = p.masked.addr.value / 2 ^ p.hostBits ↔ _
  rw [value]
  rfl

theorem masked_le (p : Prefix) : p.masked.addr.value ≤ p.addr.value :=
  (within_iff.mp p.within_addr).2.1

theorem le_last (p : Prefix) : p.addr.value ≤ p.last.value := (within_iff.mp p.within_addr).2.2

theorem within_last (p : Prefix) : p.Within p.last :=
  within_iff.mpr ⟨rfl, Nat.le_add_right .., Nat.le_refl _⟩

theorem within_first (p : Prefix) : p.Within p.masked.addr :=
  within_masked.mp p.masked.within_addr

/-- What follows the last address of a block is the first one of another of the same size. -/
theorem masked_behind (family : q.addr.family = p.addr.family) (bits : q.bits = p.bits)
    (value : q.addr.value = p.last.value + 1) : q.masked = q := by
  have host : q.hostBits = p.hostBits := by
    simp only [hostBits, family, bits]
  have positive := Nat.two_pow_pos p.hostBits
  -- the blocks of one size start at its multiples
  have base : q.addr.value = (p.addr.value / 2 ^ p.hostBits + 1) * 2 ^ p.hostBits := by
    rw [value, Nat.add_mul, Nat.one_mul]
    change p.addr.value / 2 ^ p.hostBits * 2 ^ p.hostBits + (2 ^ p.hostBits - 1) + 1 = _
    omega
  refine masked_eq_self ?_
  rw [host, base]
  exact Nat.dvd_mul_left ..

theorem Within.between (first : p.Within a) (second : p.Within c) (family : b.family = a.family)
    (above : a.value ≤ b.value) (below : b.value ≤ c.value) : p.Within b := by
  have lower := within_iff.mp first
  have upper := within_iff.mp second
  exact within_iff.mpr ⟨family.trans lower.1, lower.2.1.trans above, below.trans upper.2.2⟩

end WgPortal.Library.NetIP.Prefix
