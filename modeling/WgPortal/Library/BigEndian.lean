import Mathlib.Data.List.Induction
import Mathlib.Data.Nat.Bitwise
import Mathlib.Tactic.IntervalCases
import Mathlib.Tactic.Ring

/-! Numbers as bytes, the highest first, and their bits. -/

namespace WgPortal.Library.BigEndian

def value (bytes : List UInt8) : ℕ := bytes.foldl (fun n byte => n * 256 + byte.toNat) 0

/-- The lowest bytes of a number -/
def bytesOf : ℕ → ℕ → List UInt8
  | 0, _ => []
  | n + 1, value => bytesOf n (value / 256) ++ [UInt8.ofNat (value % 256)]

/-- Sets the bit `b`, where bit 0 is the highest one of the byte `off`. -/
def setBit (off : ℕ) (bytes : List UInt8) (b : ℕ) : List UInt8 :=
  bytes.modify (off + b / 8) fun byte => byte ||| 1 <<< UInt8.ofNat (7 - b % 8)

variable {bytes : List UInt8} {n v off b i : ℕ}

theorem value_concat (bytes : List UInt8) (byte : UInt8) :
    value (bytes ++ [byte]) = value bytes * 256 + byte.toNat := by
  rw [value, List.foldl_append]
  rfl

@[simp] theorem length_bytesOf (n v : ℕ) : (bytesOf n v).length = n := by
  induction n generalizing v with
  | zero => rfl
  | succ n ih => rw [bytesOf, List.length_append, ih, List.length_singleton]

theorem value_bytesOf_mod (n v : ℕ) : value (bytesOf n v) = v % 256 ^ n := by
  induction n generalizing v with
  | zero => exact (Nat.mod_one v).symm
  | succ n ih =>
    have byte : (UInt8.ofNat (v % 256)).toNat = v % 256 :=
      UInt8.toNat_ofNat_of_lt' (Nat.mod_lt _ (by decide))
    rw [bytesOf, value_concat, ih, byte, Nat.pow_succ, Nat.mul_comm (256 ^ n), Nat.mod_mul]
    ring

theorem value_bytesOf (small : v < 256 ^ n) : value (bytesOf n v) = v := by
  rw [value_bytesOf_mod, Nat.mod_eq_of_lt small]

theorem bytesOf_injective {w : ℕ} (small : v < 256 ^ n) (small' : w < 256 ^ n)
    (same : bytesOf n v = bytesOf n w) : v = w := by
  rw [← value_bytesOf small, same, value_bytesOf small']

theorem bytesOf_value (bytes : List UInt8) : bytesOf bytes.length (value bytes) = bytes := by
  induction bytes using List.reverseRecOn with
  | nil => rfl
  | append_singleton bytes byte ih =>
    have small : byte.toNat < 256 := byte.toNat_lt
    have high : (value bytes * 256 + byte.toNat) / 256 = value bytes := by omega
    have low : (value bytes * 256 + byte.toNat) % 256 = byte.toNat := by omega
    rw [List.length_append, List.length_singleton, value_concat, bytesOf, high, low, ih,
      UInt8.ofNat_toNat]

/-- Higher bits are not in the lowest bytes. -/
theorem bytesOf_mod (n v : ℕ) : bytesOf n (v % 256 ^ n) = bytesOf n v := by
  have bytes := bytesOf_value (bytesOf n v)
  rwa [length_bytesOf, value_bytesOf_mod] at bytes

/-- The highest and the lowest bytes -/
theorem bytesOf_add (m k v : ℕ) : bytesOf (m + k) v = bytesOf m (v / 256 ^ k) ++ bytesOf k v := by
  induction k generalizing v with
  | zero => simp [bytesOf]
  | succ k ih =>
    rw [← Nat.add_assoc, bytesOf, ih, bytesOf, Nat.div_div_eq_div_mul, ← Nat.pow_succ',
      List.append_assoc]

/-- A bit of a number is one of the byte that it falls into. -/
theorem testBit_value (bytes : List UInt8) (i : ℕ) : (value bytes).testBit i =
    bytes.reverse[i / 8]?.elim false fun byte => byte.toNat.testBit (i % 8) := by
  induction bytes using List.reverseRecOn generalizing i with
  | nil => simp [value]
  | append_singleton bytes byte ih =>
    have small : byte.toNat < 2 ^ 8 := byte.toNat_lt
    have parts : value bytes * 256 + byte.toNat = 2 ^ 8 * value bytes + byte.toNat := by ring
    rw [value_concat, parts, Nat.testBit_two_pow_mul_add _ small, List.reverse_append,
      List.reverse_singleton, List.singleton_append]
    split
    · rename_i low
      rw [Nat.div_eq_of_lt low, Nat.mod_eq_of_lt low]
      rfl
    · rename_i high
      have index : i / 8 = (i - 8) / 8 + 1 := by omega
      have rest : i % 8 = (i - 8) % 8 := by omega
      rw [ih, index, List.getElem?_cons_succ, rest]

@[simp] theorem length_setBit (off : ℕ) (bytes : List UInt8) (b : ℕ) :
    (setBit off bytes b).length = bytes.length := List.length_modify ..

theorem testBit_bit (byte : UInt8) {m : ℕ} (small : m < 8) (i : ℕ) :
    (byte ||| 1 <<< UInt8.ofNat m).toNat.testBit i = (byte.toNat.testBit i || i = m) := by
  have shift : (1 <<< UInt8.ofNat m : UInt8).toNat = 2 ^ m := by
    interval_cases m <;> rfl
  rw [UInt8.toNat_or, shift, Nat.testBit_or, Nat.testBit_two_pow]
  exact congrArg (byte.toNat.testBit i || ·) (decide_eq_decide.mpr eq_comm)

/-- Nothing but that bit is changed. -/
theorem testBit_setBit {total : ℕ} (length : 8 * bytes.length = 8 * off + total)
    (inside : b < total) (i : ℕ) : (value (setBit off bytes b)).testBit i =
      ((value bytes).testBit i || i = total - 1 - b) := by
  rw [testBit_value, testBit_value]
  by_cases within : i / 8 < bytes.length
  · obtain ⟨byte, found⟩ : ∃ byte, bytes[bytes.length - 1 - i / 8]? = some byte :=
      ⟨_, List.getElem?_eq_getElem (by omega)⟩
    rw [List.getElem?_reverse (by rwa [length_setBit]), List.getElem?_reverse within, length_setBit,
      setBit, List.getElem?_modify, found]
    by_cases same : off + b / 8 = bytes.length - 1 - i / 8
    · have bit : i % 8 = 7 - b % 8 ↔ i = total - 1 - b := by omega
      simp only [if_pos same, Option.map_eq_map, Option.map_some, Option.elim_some,
        testBit_bit byte (show 7 - b % 8 < 8 by omega), bit]
    · have other : i ≠ total - 1 - b := by omega
      simp only [if_neg same, Option.map_eq_map, Option.map_some, Option.elim_some, other,
        decide_false, Bool.or_false]
  · have outside : i ≠ total - 1 - b := by omega
    rw [List.getElem?_eq_none (by rw [List.length_reverse, length_setBit]; omega),
      List.getElem?_eq_none (by rw [List.length_reverse]; omega)]
    simp only [Option.elim_none, outside, decide_false, Bool.or_false]

/-- Bits that are set one after the other -/
theorem testBit_foldl_setBit {total : ℕ} {bits : List ℕ}
    (length : 8 * bytes.length = 8 * off + total) (inside : ∀ b ∈ bits, b < total) (i : ℕ) :
    (value (bits.foldl (setBit off) bytes)).testBit i =
      ((value bytes).testBit i || bits.any fun b => i = total - 1 - b) := by
  induction bits generalizing bytes with
  | nil => simp
  | cons b bits ih =>
    obtain ⟨first, rest⟩ := List.forall_mem_cons.mp inside
    rw [List.foldl_cons, ih (by rwa [length_setBit]) rest, testBit_setBit length first,
      List.any_cons, Bool.or_assoc]

/-- With the bits from `n` on set, all that are not part of the first `n` are ones. -/
theorem value_setFrom {total : ℕ} (length : 8 * bytes.length = 8 * off + total) (n : ℕ) :
    value ((List.range' n (total - n)).foldl (setBit off) bytes) =
      value bytes / 2 ^ (total - n) * 2 ^ (total - n) + (2 ^ (total - n) - 1) := by
  have inside : ∀ b ∈ List.range' n (total - n), b < total := by
    intro b listed
    have bounds := List.mem_range'_1.mp listed
    omega
  have positive := Nat.two_pow_pos (total - n)
  refine Nat.eq_of_testBit_eq fun i => ?_
  rw [testBit_foldl_setBit length inside, Nat.mul_comm (value bytes / 2 ^ (total - n)),
    Nat.testBit_two_pow_mul_add _ (Nat.sub_lt positive Nat.one_pos), Nat.testBit_two_pow_sub_one,
    Nat.testBit_div_two_pow]
  by_cases low : i < total - n
  · have set : ((List.range' n (total - n)).any fun b => i = total - 1 - b) = true := by
      refine List.any_eq_true.mpr ⟨total - 1 - i, List.mem_range'_1.mpr ?_, ?_⟩
      · omega
      · exact decide_eq_true (by omega)
    rw [set, Bool.or_true, if_pos low, decide_eq_true low]
  · have unset : ((List.range' n (total - n)).any fun b => i = total - 1 - b) = false := by
      refine List.any_eq_false.mpr fun b listed => ?_
      have bounds := List.mem_range'_1.mp listed
      rw [decide_eq_true_eq]
      omega
    rw [unset, Bool.or_false, if_neg low, Nat.sub_add_cancel (by omega)]

end WgPortal.Library.BigEndian
