import Mathlib.Data.List.Basic

/-! Texts in base 64 with padding, over any alphabet. As in most decoders, line ends are skipped
and the bits that fill up the last digit may be anything. -/

namespace WgPortal.Library.Base64

def pad : Char := '='

def isLineEnd (c : Char) : Bool := c = '\r' || c = '\n'

/-- Sixty-four digits, which are neither the padding nor line ends. -/
structure Alphabet where
  digit : ℕ → Char
  value : Char → Option ℕ
  value_digit : ∀ n < 64, value (digit n) = some n
  digit_ne_pad : ∀ n < 64, digit n ≠ pad
  digit_visible : ∀ n < 64, isLineEnd (digit n) = false

/-- The digits of the alphabet for addresses and file names. -/
def urlDigits : List Char :=
  "ABCDEFGHIJKLMNOPQRSTUVWXYZabcdefghijklmnopqrstuvwxyz0123456789-_".toList

def url : Alphabet where
  digit n := urlDigits.getD n 'A'
  value c := urlDigits.findIdx? (· = c)
  value_digit := by decide +kernel
  digit_ne_pad := by decide +kernel
  digit_visible := by decide +kernel

/-- The digits of the usual alphabet. -/
def stdDigits : List Char :=
  "ABCDEFGHIJKLMNOPQRSTUVWXYZabcdefghijklmnopqrstuvwxyz0123456789+/".toList

def std : Alphabet where
  digit n := stdDigits.getD n 'A'
  value c := stdDigits.findIdx? (· = c)
  value_digit := by decide +kernel
  digit_ne_pad := by decide +kernel
  digit_visible := by decide +kernel

variable (α : Alphabet)

def encode : List UInt8 → List Char
  | [] => []
  | [a] => [α.digit (a.toNat / 4), α.digit (a.toNat % 4 * 16), pad, pad]
  | [a, b] =>
    [α.digit (a.toNat / 4), α.digit (a.toNat % 4 * 16 + b.toNat / 16),
      α.digit (b.toNat % 16 * 4), pad]
  | a :: b :: c :: bytes =>
    α.digit (a.toNat / 4) :: α.digit (a.toNat % 4 * 16 + b.toNat / 16) ::
      α.digit (b.toNat % 16 * 4 + c.toNat / 64) :: α.digit (c.toNat % 64) :: encode bytes

def firstByte (x y : ℕ) : UInt8 := UInt8.ofNat (x * 4 + y / 16)

def secondByte (y z : ℕ) : UInt8 := UInt8.ofNat (y % 16 * 16 + z / 4)

def thirdByte (z w : ℕ) : UInt8 := UInt8.ofNat (z % 4 * 64 + w)

/-- The bytes of groups of four digits; the padding is at the end of the last one. -/
def decodeGroups : List Char → Option (List UInt8)
  | [] => some []
  | a :: b :: c :: d :: text =>
    match α.value a, α.value b with
    | some x, some y =>
      if c = pad then
        if d = pad ∧ text = [] then some [firstByte x y] else none
      else
        match α.value c with
        | none => none
        | some z =>
          if d = pad then
            if text = [] then some [firstByte x y, secondByte y z] else none
          else
            match α.value d with
            | none => none
            | some w =>
              (decodeGroups text).map fun bytes =>
                firstByte x y :: secondByte y z :: thirdByte z w :: bytes
    | _, _ => none
  | _ => none

def decode (text : List Char) : Option (List UInt8) := decodeGroups α (text.filter (!isLineEnd ·))

variable {α}

theorem firstByte_encode (a : UInt8) {low : ℕ} (small : low < 16) :
    firstByte (a.toNat / 4) (a.toNat % 4 * 16 + low) = a := by
  have whole : a.toNat / 4 * 4 + (a.toNat % 4 * 16 + low) / 16 = a.toNat := by omega
  rw [firstByte, whole, UInt8.ofNat_toNat]

theorem secondByte_encode (a b : UInt8) {low : ℕ} (small : low < 4) :
    secondByte (a.toNat % 4 * 16 + b.toNat / 16) (b.toNat % 16 * 4 + low) = b := by
  have bound : b.toNat < 256 := b.toNat_lt
  have whole : (a.toNat % 4 * 16 + b.toNat / 16) % 16 * 16 + (b.toNat % 16 * 4 + low) / 4 =
      b.toNat := by omega
  rw [secondByte, whole, UInt8.ofNat_toNat]

theorem thirdByte_encode (b c : UInt8) :
    thirdByte (b.toNat % 16 * 4 + c.toNat / 64) (c.toNat % 64) = c := by
  have bound : c.toNat < 256 := c.toNat_lt
  have whole : (b.toNat % 16 * 4 + c.toNat / 64) % 4 * 64 + c.toNat % 64 = c.toNat := by omega
  rw [thirdByte, whole, UInt8.ofNat_toNat]

theorem decodeGroups_encode (bytes : List UInt8) : decodeGroups α (encode α bytes) = some bytes := by
  induction bytes using encode.induct with
  | case1 => rfl
  | case2 a =>
    have bound : a.toNat < 256 := a.toNat_lt
    simp only [encode, decodeGroups, α.value_digit _ (show a.toNat / 4 < 64 by omega),
      α.value_digit _ (show a.toNat % 4 * 16 < 64 by omega), if_true, true_and]
    exact congrArg (fun b => some [b]) (@firstByte_encode a 0 (by omega))
  | case3 a b =>
    have bound : a.toNat < 256 := a.toNat_lt
    have bound' : b.toNat < 256 := b.toNat_lt
    simp only [encode, decodeGroups, α.value_digit _ (show a.toNat / 4 < 64 by omega),
      α.value_digit _ (show a.toNat % 4 * 16 + b.toNat / 16 < 64 by omega),
      α.value_digit _ (show b.toNat % 16 * 4 < 64 by omega),
      if_neg (α.digit_ne_pad _ (show b.toNat % 16 * 4 < 64 by omega)), if_true]
    rw [firstByte_encode a (by omega)]
    exact congrArg (fun c => some [a, c]) (@secondByte_encode a b 0 (by omega))
  | case4 a b c bytes ih =>
    have bound : a.toNat < 256 := a.toNat_lt
    have bound' : b.toNat < 256 := b.toNat_lt
    have bound'' : c.toNat < 256 := c.toNat_lt
    simp only [encode, decodeGroups, α.value_digit _ (show a.toNat / 4 < 64 by omega),
      α.value_digit _ (show a.toNat % 4 * 16 + b.toNat / 16 < 64 by omega),
      α.value_digit _ (show b.toNat % 16 * 4 + c.toNat / 64 < 64 by omega),
      α.value_digit _ (show c.toNat % 64 < 64 by omega),
      if_neg (α.digit_ne_pad _ (show b.toNat % 16 * 4 + c.toNat / 64 < 64 by omega)),
      if_neg (α.digit_ne_pad _ (show c.toNat % 64 < 64 by omega)), ih, Option.map_some]
    rw [firstByte_encode a (by omega), secondByte_encode a b (by omega), thirdByte_encode b c]

/-- What holds of the digits and of the padding holds of all characters. -/
theorem forall_encode {P : Char → Prop} (digits : ∀ n < 64, P (α.digit n)) (padding : P pad)
    (bytes : List UInt8) : ∀ c ∈ encode α bytes, P c := by
  induction bytes using encode.induct with
  | case1 => exact fun c listed => by cases listed
  | case2 a =>
    have bound : a.toNat < 256 := a.toNat_lt
    simp only [encode, List.forall_mem_cons]
    exact ⟨digits _ (by omega), digits _ (by omega), padding, padding,
      fun c listed => by cases listed⟩
  | case3 a b =>
    have bound : a.toNat < 256 := a.toNat_lt
    have bound' : b.toNat < 256 := b.toNat_lt
    simp only [encode, List.forall_mem_cons]
    exact ⟨digits _ (by omega), digits _ (by omega), digits _ (by omega), padding,
      fun c listed => by cases listed⟩
  | case4 a b c bytes ih =>
    have bound : a.toNat < 256 := a.toNat_lt
    have bound' : b.toNat < 256 := b.toNat_lt
    have bound'' : c.toNat < 256 := c.toNat_lt
    simp only [encode, List.forall_mem_cons]
    exact ⟨digits _ (by omega), digits _ (by omega), digits _ (by omega), digits _ (by omega), ih⟩

theorem visible_encode (bytes : List UInt8) : ∀ c ∈ encode α bytes, isLineEnd c = false :=
  forall_encode (P := fun c => isLineEnd c = false) α.digit_visible rfl bytes

@[simp] theorem decode_encode (bytes : List UInt8) : decode α (encode α bytes) = some bytes := by
  have kept : (encode α bytes).filter (!isLineEnd ·) = encode α bytes :=
    List.filter_eq_self.mpr fun c listed => by rw [visible_encode bytes c listed]; rfl
  rw [decode, kept, decodeGroups_encode]

example : encode url [255, 254] = "__4=".toList := by decide +kernel

end WgPortal.Library.Base64
