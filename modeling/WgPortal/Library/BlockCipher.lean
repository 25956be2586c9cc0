import Mathlib.Data.List.Basic

/-! Block ciphers in the mode of cipher block chaining, on texts of bytes. -/

namespace WgPortal.Library.BlockCipher

abbrev Bytes := List UInt8

def xorBytes (a b : Bytes) : Bytes := List.zipWith (· ^^^ ·) a b

theorem length_xorBytes (a b : Bytes) : (xorBytes a b).length = min a.length b.length :=
  List.length_zipWith

theorem xorBytes_cancel {a b : Bytes} (same : a.length = b.length) :
    xorBytes a (xorBytes a b) = b := by
  induction a generalizing b with
  | nil => exact (List.length_eq_zero_iff.mp same.symm).symm
  | cons x a ih =>
    cases b with
    | nil => cases same
    | cons y b =>
      have head : x ^^^ (x ^^^ y) = y := by
        rw [← UInt8.xor_assoc, UInt8.xor_self, UInt8.zero_xor]
      have tail : xorBytes a (xorBytes a b) = b := ih (Nat.succ.inj same)
      rw [xorBytes, xorBytes, List.zipWith_cons_cons, List.zipWith_cons_cons, head]
      exact congrArg (y :: ·) tail

/-- A permutation of the blocks of `size` bytes, with its inverse. -/
structure Cipher (size : ℕ) where
  encrypt : Bytes → Bytes
  decrypt : Bytes → Bytes
  length_encrypt : ∀ block, block.length = size → (encrypt block).length = size
  length_decrypt : ∀ block, block.length = size → (decrypt block).length = size
  decrypt_encrypt : ∀ block, block.length = size → decrypt (encrypt block) = block

/-- The first blocks of a text. -/
def blocks (size : ℕ) : ℕ → Bytes → List Bytes
  | 0, _ => []
  | n + 1, text => text.take size :: blocks size n (text.drop size)

section Blocks

variable {size : ℕ}

theorem length_of_mem_blocks {n : ℕ} {text : Bytes} (long : size * n ≤ text.length) :
    ∀ block ∈ blocks size n text, block.length = size := by
  induction n generalizing text with
  | zero => exact fun block listed => by cases listed
  | succ n ih =>
    rw [Nat.mul_succ] at long
    intro block listed
    rcases List.mem_cons.mp listed with rfl | later
    · rw [List.length_take]
      omega
    · exact ih (by rw [List.length_drop]; omega) block later

theorem flatten_blocks {n : ℕ} {text : Bytes} (whole : text.length = size * n) :
    (blocks size n text).flatten = text := by
  induction n generalizing text with
  | zero => exact (List.length_eq_zero_iff.mp whole).symm
  | succ n ih =>
    rw [Nat.mul_succ] at whole
    rw [blocks, List.flatten_cons, ih (by rw [List.length_drop]; omega), List.take_append_drop]

theorem length_flatten_of_blocks {bs : List Bytes} (all : ∀ block ∈ bs, block.length = size) :
    bs.flatten.length = size * bs.length := by
  induction bs with
  | nil => rfl
  | cons block bs ih =>
    obtain ⟨first, rest⟩ := List.forall_mem_cons.mp all
    rw [List.flatten_cons, List.length_append, first, ih rest, List.length_cons, Nat.mul_succ,
      Nat.add_comm]

theorem blocks_flatten {bs : List Bytes} (all : ∀ block ∈ bs, block.length = size) :
    blocks size bs.length bs.flatten = bs := by
  induction bs with
  | nil => rfl
  | cons block bs ih =>
    obtain ⟨first, rest⟩ := List.forall_mem_cons.mp all
    rw [List.length_cons, List.flatten_cons, blocks, List.take_left' first, List.drop_left' first,
      ih rest]

end Blocks

variable {size : ℕ} (c : Cipher size)

/-- Each block is mixed with the one that was encrypted before it. -/
def encryptBlocks : Bytes → List Bytes → List Bytes
  | _, [] => []
  | iv, block :: bs =>
    let encrypted := c.encrypt (xorBytes iv block)
    encrypted :: encryptBlocks encrypted bs

def decryptBlocks : Bytes → List Bytes → List Bytes
  | _, [] => []
  | iv, block :: bs => xorBytes iv (c.decrypt block) :: decryptBlocks block bs

/-- A text of whole blocks, encrypted. -/
def cbcEncrypt (iv text : Bytes) : Bytes :=
  (encryptBlocks c iv (blocks size (text.length / size) text)).flatten

def cbcDecrypt (iv text : Bytes) : Bytes :=
  (decryptBlocks c iv (blocks size (text.length / size) text)).flatten

variable {c} {iv : Bytes}

@[simp] theorem length_encryptBlocks (bs : List Bytes) :
    (encryptBlocks c iv bs).length = bs.length := by
  induction bs generalizing iv with
  | nil => rfl
  | cons block bs ih => exact congrArg (· + 1) ih

theorem length_of_mem_encryptBlocks (start : iv.length = size) {bs : List Bytes}
    (all : ∀ block ∈ bs, block.length = size) :
    ∀ block ∈ encryptBlocks c iv bs, block.length = size := by
  induction bs generalizing iv with
  | nil => exact fun block listed => by cases listed
  | cons block bs ih =>
    obtain ⟨first, rest⟩ := List.forall_mem_cons.mp all
    have encrypted : (c.encrypt (xorBytes iv block)).length = size :=
      c.length_encrypt _ (by rw [length_xorBytes, start, first, Nat.min_self])
    exact List.forall_mem_cons.mpr ⟨encrypted, ih encrypted rest⟩

@[simp] theorem length_decryptBlocks (bs : List Bytes) :
    (decryptBlocks c iv bs).length = bs.length := by
  induction bs generalizing iv with
  | nil => rfl
  | cons block bs ih => exact congrArg (· + 1) ih

theorem length_of_mem_decryptBlocks (start : iv.length = size) {bs : List Bytes}
    (all : ∀ block ∈ bs, block.length = size) :
    ∀ block ∈ decryptBlocks c iv bs, block.length = size := by
  induction bs generalizing iv with
  | nil => exact fun block listed => by cases listed
  | cons block bs ih =>
    obtain ⟨first, rest⟩ := List.forall_mem_cons.mp all
    have mixed : (xorBytes iv (c.decrypt block)).length = size := by
      rw [length_xorBytes, start, c.length_decrypt _ first, Nat.min_self]
    exact List.forall_mem_cons.mpr ⟨mixed, ih first rest⟩

theorem decryptBlocks_encryptBlocks (start : iv.length = size) {bs : List Bytes}
    (all : ∀ block ∈ bs, block.length = size) :
    decryptBlocks c iv (encryptBlocks c iv bs) = bs := by
  induction bs generalizing iv with
  | nil => rfl
  | cons block bs ih =>
    obtain ⟨first, rest⟩ := List.forall_mem_cons.mp all
    have mixed : (xorBytes iv block).length = size := by
      rw [length_xorBytes, start, first, Nat.min_self]
    rw [encryptBlocks, decryptBlocks, c.decrypt_encrypt _ mixed,
      xorBytes_cancel (start.trans first.symm), ih (c.length_encrypt _ mixed) rest]

variable {text : Bytes}

theorem length_of_dvd (whole : size ∣ text.length) : text.length = size * (text.length / size) :=
  (Nat.mul_div_cancel' whole).symm

theorem length_cbcEncrypt (start : iv.length = size) (whole : size ∣ text.length) :
    (cbcEncrypt c iv text).length = text.length := by
  have each := length_of_mem_blocks (Nat.le_of_eq (length_of_dvd whole).symm)
  rw [cbcEncrypt, length_flatten_of_blocks (length_of_mem_encryptBlocks start each),
    length_encryptBlocks, ← length_flatten_of_blocks each, flatten_blocks (length_of_dvd whole)]

theorem length_cbcDecrypt (start : iv.length = size) (whole : size ∣ text.length) :
    (cbcDecrypt c iv text).length = text.length := by
  have each := length_of_mem_blocks (Nat.le_of_eq (length_of_dvd whole).symm)
  rw [cbcDecrypt, length_flatten_of_blocks (length_of_mem_decryptBlocks start each),
    length_decryptBlocks, ← length_flatten_of_blocks each, flatten_blocks (length_of_dvd whole)]

/-- A text of whole blocks is decrypted to what it was. -/
theorem cbcDecrypt_cbcEncrypt (positive : 0 < size) (start : iv.length = size)
    (whole : size ∣ text.length) : cbcDecrypt c iv (cbcEncrypt c iv text) = text := by
  have each := length_of_mem_blocks (Nat.le_of_eq (length_of_dvd whole).symm)
  have encrypted := length_of_mem_encryptBlocks (c := c) start each
  have count : (cbcEncrypt c iv text).length / size =
      (encryptBlocks c iv (blocks size (text.length / size) text)).length := by
    rw [cbcEncrypt, length_flatten_of_blocks encrypted, Nat.mul_div_cancel_left _ positive]
  rw [cbcDecrypt, count, cbcEncrypt, blocks_flatten encrypted,
    decryptBlocks_encryptBlocks start each, flatten_blocks (length_of_dvd whole)]

/-- The block before the last one, or else the initialisation vector, mixed with the last block
as it is decrypted. -/
def finalBlock (c : Cipher size) (iv text : Bytes) : Bytes :=
  xorBytes (((iv ++ text).drop (text.length - size)).take size)
    (c.decrypt (text.drop (text.length - size)))

theorem cbcDecrypt_eq_nil (empty : text = []) : cbcDecrypt c iv text = [] := by
  rw [empty, cbcDecrypt, List.length_nil, Nat.zero_div]
  rfl

/-- The first block is decrypted, and is what the second one is mixed with. -/
theorem cbcDecrypt_step (positive : 0 < size) (long : size ≤ text.length) : cbcDecrypt c iv text =
    xorBytes iv (c.decrypt (text.take size)) ++ cbcDecrypt c (text.take size) (text.drop size) := by
  have count : text.length / size = (text.drop size).length / size + 1 := by
    rw [List.length_drop, ← Nat.add_div_right _ positive, Nat.sub_add_cancel long]
  rw [cbcDecrypt, count]
  rfl

theorem finalBlock_step (start : iv.length = size) (long : 2 * size ≤ text.length) :
    finalBlock c iv text = finalBlock c (text.take size) (text.drop size) := by
  have before : text.length - size = size + ((text.drop size).length - size) := by
    rw [List.length_drop]
    omega
  have mixed : (iv ++ text).drop (text.length - size) =
      text.drop ((text.drop size).length - size) := by
    rw [before, ← List.drop_drop, List.drop_left' start]
  rw [finalBlock, finalBlock, List.take_append_drop, mixed, before, List.drop_drop]

/-- The end of a decrypted text. -/
theorem getLast?_cbcDecrypt (positive : 0 < size) (start : iv.length = size) {n : ℕ}
    (whole : text.length = size * (n + 1)) :
    (cbcDecrypt c iv text).getLast? = (finalBlock c iv text).getLast? := by
  have long : size ≤ text.length := by
    rw [whole, Nat.mul_succ]
    omega
  rw [cbcDecrypt_step positive long]
  induction n generalizing iv text with
  | zero =>
    rw [Nat.zero_add, Nat.mul_one] at whole
    have done : text.drop size = [] := List.drop_eq_nil_of_le (Nat.le_of_eq whole)
    have single : text.take size = text := List.take_of_length_le (Nat.le_of_eq whole)
    rw [cbcDecrypt_eq_nil done, List.append_nil, single, finalBlock, whole, Nat.sub_self,
      List.drop_zero, List.drop_zero, List.take_left' start]
  | succ n ih =>
    have rest : (text.drop size).length = size * (n + 1) := by
      rw [List.length_drop, whole, Nat.mul_succ _ (n + 1)]
      omega
    have more : size ≤ (text.drop size).length := by
      rw [rest, Nat.mul_succ]
      omega
    have first : (text.take size).length = size := by
      rw [List.length_take]
      omega
    have later : cbcDecrypt c (text.take size) (text.drop size) ≠ [] := by
      have length := length_cbcDecrypt (c := c) first ⟨n + 1, rest⟩
      intro none
      rw [none, List.length_nil] at length
      omega
    rw [finalBlock_step start (by rw [List.length_drop] at more; omega), ← ih first rest more,
      ← cbcDecrypt_step positive more, List.getLast?_append_of_ne_nil _ later]

end WgPortal.Library.BlockCipher
