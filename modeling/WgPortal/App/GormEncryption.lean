import WgPortal.Domain.Basic
import WgPortal.Library.Base64
import WgPortal.Library.BlockCipher

/-! Columns whose strings are stored encrypted. Strings are their bytes here, since what a wrong
key makes of a value need not be any text. An absent result is a panic. -/

namespace WgPortal.App.GormEncryption

open Domain Library BlockCipher

/-- `aes.NewCipher`, which takes keys of 32 bytes among others. -/
structure Aes where
  newCipher : Bytes → Except Error (Cipher 16)
  newCipher_ok : ∀ key, key.length = 32 → ∃ c, newCipher key = .ok c

/-- `aes.BlockSize` -/
def blockSize : ℕ := 16

/-- The bytes of a text without other characters than ASCII. -/
def asciiBytes (text : List Char) : Bytes := text.map fun c => UInt8.ofNat c.toNat

/-- The bytes of a string, each as a character. -/
def byteChars (s : Bytes) : List Char := s.map fun b => Char.ofNat b.toNat

def base64Encode (bytes : Bytes) : Bytes := asciiBytes (Base64.encode Base64.std bytes)

/-- The place of the error is left out. -/
def base64Decode (s : Bytes) : Except Error Bytes :=
  match Base64.decode Base64.std (byteChars s) with
  | none => .error (.other "illegal base64 data")
  | some bytes => .ok bytes

/-- The digit `0` -/
def zeroDigit : UInt8 := 48

def trimEncKey (key : Bytes) : Bytes :=
  if 32 < key.length then key.take 32
  else key ++ List.replicate (32 - key.length) zeroDigit

def pkcs7Padding (ciphertext : Bytes) (blockSize : ℕ) : Bytes :=
  let padding := blockSize - ciphertext.length % blockSize
  ciphertext ++ List.replicate padding (UInt8.ofNat padding)

/-- The last byte is read and the slice is taken without looking at the length. -/
def pkcs7UnPadding (src : Bytes) : Option Bytes :=
  match src.getLast? with
  | none => none
  | some last =>
    let unpadding := last.toNat
    if src.length < unpadding then none else some (src.take (src.length - unpadding))

variable (aes : Aes)

def encryptAES256 (plaintext key : Bytes) : Except Error Bytes :=
  if plaintext = [] then .error (.other "plaintext must not be empty")
  else if key = [] then .error (.other "key must not be empty")
  else
    let key := trimEncKey key
    let iv := key.take blockSize
    match aes.newCipher key with
    | .error err => .error err
    | .ok block => .ok (base64Encode (cbcEncrypt block iv (pkcs7Padding plaintext blockSize)))

def decryptAES256 (encrypted key : Bytes) : Option (Except Error Bytes) :=
  if encrypted = [] then some (.error (.other "ciphertext must not be empty"))
  else if key = [] then some (.error (.other "key must not be empty"))
  else
    let key := trimEncKey key
    let iv := key.take blockSize
    match base64Decode encrypted with
    | .error err => some (.error err)
    | .ok ciphertext =>
      if ciphertext.length % blockSize ≠ 0 then
        some (.error (.other "invalid ciphertext length, must be a multiple of 16"))
      else
        match aes.newCipher key with
        | .error err => some (.error err)
        | .ok block => (pkcs7UnPadding (cbcDecrypt block iv ciphertext)).map .ok

/-- The value of a field, or what the driver of a database reads; others are known by the name
of their type. -/
inductive Value where
  | nil
  | bytes (v : Bytes)
  | string (v : Bytes)
  | preSharedKey (v : Bytes)
  | other (type : String)

/-- `%T` -/
def Value.typeName : Value → String
  | nil => "<nil>"
  | bytes _ => "[]uint8"
  | string _ => "string"
  | preSharedKey _ => "domain.PreSharedKey"
  | other type => type

structure GormEncryptedStringSerializer where
  useEncryption : Bool
  keyPhrase : Bytes
  /-- `prefix` -/
  marker : Bytes

def newGormEncryptedStringSerializer (keyPhrase : Bytes) : GormEncryptedStringSerializer where
  useEncryption := keyPhrase ≠ []
  keyPhrase := keyPhrase
  marker := asciiBytes "WG_ENC_".toList

namespace GormEncryptedStringSerializer

variable (s : GormEncryptedStringSerializer)

/-- What a string, of either type, is stored as. -/
def stored (v : Bytes) : Except Error Value :=
  if v = [] then .ok (.string [])
  else if !s.useEncryption then .ok (.string v)
  else
    match encryptAES256 aes v s.keyPhrase with
    | .error err => .error err
    | .ok encryptedString => .ok (.string (s.marker ++ encryptedString))

def value : Value → Except Error Value
  | .nil => .ok .nil
  | .string v => s.stored aes v
  | .preSharedKey v => s.stored aes v
  | v => .error (.other ("encryption only supports string values, got " ++ v.typeName))

/-- The string of a value from the database -/
def dbString (fieldName : String) : Value → Except Error Bytes
  | .nil => .ok []
  | .bytes v => .ok v
  | .string v => .ok v
  | v =>
    .error (.other ("unsupported type " ++ v.typeName ++ " for encrypted field " ++ fieldName))

/-- The string that the field is set to -/
def scan (fieldName : String) (dbValue : Value) : Option (Except Error Bytes) :=
  match dbString fieldName dbValue with
  | .error err => some (.error err)
  | .ok dbStringValue =>
    if !s.useEncryption then some (.ok dbStringValue)
    else if !s.marker.isPrefixOf dbStringValue then some (.ok dbStringValue)
    else
      match decryptAES256 aes (dbStringValue.drop s.marker.length) s.keyPhrase with
      | none => none
      | some (.error err) =>
        some (.error (.wrap ("failed to decrypt value for field " ++ fieldName) err))
      | some (.ok decryptedString) => some (.ok decryptedString)

end GormEncryptedStringSerializer

theorem length_trimEncKey (key : Bytes) : (trimEncKey key).length = 32 := by
  unfold trimEncKey
  split
  · rw [List.length_take]
    omega
  · rw [List.length_append, List.length_replicate]
    omega

theorem length_iv (key : Bytes) : ((trimEncKey key).take blockSize).length = blockSize := by
  rw [List.length_take, length_trimEncKey]
  rfl

theorem byteChars_asciiBytes {text : List Char} (ascii : ∀ c ∈ text, c.toNat < 256) :
    byteChars (asciiBytes text) = text := by
  rw [byteChars, asciiBytes, List.map_map]
  refine (List.map_congr_left fun c listed => ?_).trans text.map_id
  have small : (UInt8.ofNat c.toNat).toNat = c.toNat := UInt8.toNat_ofNat_of_lt' (ascii c listed)
  simp only [Function.comp_apply, small, Char.ofNat_toNat, id]

theorem base64Decode_encode (bytes : Bytes) : base64Decode (base64Encode bytes) = .ok bytes := by
  have digits : ∀ n < 64, (Base64.std.digit n).toNat < 256 := by decide +kernel
  have ascii := Base64.forall_encode (P := fun c => c.toNat < 256) digits (by decide) bytes
  rw [base64Decode, base64Encode, byteChars_asciiBytes ascii, Base64.decode_encode]

theorem base64Encode_ne_nil {bytes : Bytes} (some : bytes ≠ []) : base64Encode bytes ≠ [] := by
  intro none
  have decoded := base64Decode_encode bytes
  rw [none] at decoded
  exact some (Except.ok.inj decoded).symm

/-- The padding fills up the last block, or it is a block of its own. -/
theorem length_pkcs7Padding (plain : Bytes) :
    blockSize ∣ (pkcs7Padding plain blockSize).length ∧ pkcs7Padding plain blockSize ≠ [] := by
  have length : (pkcs7Padding plain blockSize).length =
      plain.length + (blockSize - plain.length % blockSize) := by
    rw [pkcs7Padding, List.length_append, List.length_replicate]
  have positive : 0 < (pkcs7Padding plain blockSize).length := by
    rw [length, blockSize]
    omega
  refine ⟨?_, List.ne_nil_of_length_pos positive⟩
  rw [length, blockSize]
  omega

theorem pkcs7UnPadding_padding (plain : Bytes) :
    pkcs7UnPadding (pkcs7Padding plain blockSize) = some plain := by
  -- between 1 and 16 bytes, each of which is their number
  obtain ⟨n, count⟩ : ∃ n, blockSize - plain.length % blockSize = n + 1 :=
    Nat.exists_eq_succ_of_ne_zero (by rw [blockSize]; omega)
  have small : (UInt8.ofNat (n + 1)).toNat = n + 1 := by
    have few : n + 1 < 256 := by
      rw [blockSize] at count
      omega
    exact UInt8.toNat_ofNat_of_lt' few
  have last : (pkcs7Padding plain blockSize).getLast? = some (UInt8.ofNat (n + 1)) := by
    simp only [pkcs7Padding, count, List.replicate_succ', ← List.append_assoc, List.getLast?_concat]
  have length : (pkcs7Padding plain blockSize).length = plain.length + (n + 1) := by
    simp only [pkcs7Padding, count, List.length_append, List.length_replicate]
  have front : (pkcs7Padding plain blockSize).take plain.length = plain := by
    rw [pkcs7Padding, List.take_left]
  rw [pkcs7UnPadding, last]
  simp only [small, length]
  rw [if_neg (by omega), Nat.add_sub_cancel, front]

section RoundTrip

variable {aes : Aes} {plaintext key : Bytes}

/-- What is encrypted is decrypted again, and is not empty. -/
theorem decrypt_encrypt (notEmpty : plaintext ≠ []) (keyed : key ≠ []) : ∃ encrypted,
    encryptAES256 aes plaintext key = .ok encrypted ∧ encrypted ≠ [] ∧
      decryptAES256 aes encrypted key = some (.ok plaintext) := by
  obtain ⟨block, cipher⟩ := aes.newCipher_ok _ (length_trimEncKey key)
  obtain ⟨whole, padded⟩ := length_pkcs7Padding plaintext
  have start := length_iv key
  have length := length_cbcEncrypt (c := block) start whole
  have filled : base64Encode (cbcEncrypt block ((trimEncKey key).take blockSize)
      (pkcs7Padding plaintext blockSize)) ≠ [] := by
    refine base64Encode_ne_nil (List.ne_nil_of_length_pos ?_)
    rw [length]
    exact List.length_pos_iff.mpr padded
  refine ⟨_, ?_, filled, ?_⟩
  · simp only [encryptAES256, if_neg notEmpty, if_neg keyed, cipher]
  · have aligned : ¬ (cbcEncrypt block ((trimEncKey key).take blockSize)
        (pkcs7Padding plaintext blockSize)).length % blockSize ≠ 0 := by
      rw [length, not_not]
      exact Nat.mod_eq_zero_of_dvd whole
    have restored := cbcDecrypt_cbcEncrypt (c := block) (by decide) start whole
    simp only [decryptAES256, if_neg filled, if_neg keyed, base64Decode_encode, if_neg aligned,
      cipher, restored, pkcs7UnPadding_padding, Option.map_some]

/-- A value in either form in which a driver may hand it over. -/
def Reads (v : Bytes) (dbValue : Value) : Prop := dbValue = .bytes v ∨ dbValue = .string v

theorem dbString_of_reads {v : Bytes} {dbValue : Value} (reads : Reads v dbValue)
    (fieldName : String) :
    GormEncryptedStringSerializer.dbString fieldName dbValue = .ok v := by
  rcases reads with rfl | rfl <;> rfl

/-- Strings that are encrypted can be decrypted; what a field is stored as is scanned as what it
was, and so is what was stored in plain before, unless it looks like an encrypted value. -/
structure RoundTrips (aes : Aes) (key : Bytes) : Prop where
  encrypts : ∀ plaintext : Bytes, plaintext ≠ [] → ∃ encrypted,
    encryptAES256 aes plaintext key = .ok encrypted ∧
      decryptAES256 aes encrypted key = some (.ok plaintext)
  fields : ∀ (v : Bytes) (field : Value) (fieldName : String),
    field = .string v ∨ field = .preSharedKey v → ∃ text,
      (newGormEncryptedStringSerializer key).value aes field = .ok (.string text) ∧
        ∀ dbValue, Reads text dbValue →
          (newGormEncryptedStringSerializer key).scan aes fieldName dbValue = some (.ok v)
  earlier : ∀ (v : Bytes) (field : Value) (fieldName : String),
    field = .string v ∨ field = .preSharedKey v →
      ¬ (newGormEncryptedStringSerializer key).marker <+: v →
        (newGormEncryptedStringSerializer []).value aes field = .ok (.string v) ∧
          ∀ dbValue, Reads v dbValue →
            (newGormEncryptedStringSerializer key).scan aes fieldName dbValue = some (.ok v)

theorem value_eq {s : GormEncryptedStringSerializer} {v : Bytes} {field : Value}
    (typed : field = .string v ∨ field = .preSharedKey v) : s.value aes field = s.stored aes v := by
  rcases typed with rfl | rfl <;> rfl

theorem scan_plain {v : Bytes} {dbValue : Value} (fieldName : String) (reads : Reads v dbValue)
    (plain : ¬ (newGormEncryptedStringSerializer key).marker <+: v) :
    (newGormEncryptedStringSerializer key).scan aes fieldName dbValue = some (.ok v) := by
  have unmarked : (newGormEncryptedStringSerializer key).marker.isPrefixOf v = false :=
    Bool.eq_false_iff.mpr fun marked => plain (List.isPrefixOf_iff_prefix.mp marked)
  simp only [GormEncryptedStringSerializer.scan, dbString_of_reads reads, unmarked]
  split <;> rfl

theorem scan_encrypted {encrypted : Bytes} {dbValue : Value} (keyed : key ≠ [])
    (fieldName : String) (reads : Reads ((newGormEncryptedStringSerializer key).marker ++ encrypted)
      dbValue) (decrypts : decryptAES256 aes encrypted key = some (.ok plaintext)) :
    (newGormEncryptedStringSerializer key).scan aes fieldName dbValue = some (.ok plaintext) := by
  have marked : (newGormEncryptedStringSerializer key).marker.isPrefixOf
      ((newGormEncryptedStringSerializer key).marker ++ encrypted) = true :=
    List.isPrefixOf_iff_prefix.mpr (List.prefix_append ..)
  have uses : (newGormEncryptedStringSerializer key).useEncryption = true := decide_eq_true keyed
  have phrase : (newGormEncryptedStringSerializer key).keyPhrase = key := rfl
  simp only [GormEncryptedStringSerializer.scan, dbString_of_reads reads, uses, marked,
    Bool.not_true, Bool.false_eq_true, if_false, List.drop_left, phrase, decrypts]

theorem marker_ne_nil : ¬ (newGormEncryptedStringSerializer key).marker <+: [] := by
  intro nothing
  have seven : (newGormEncryptedStringSerializer key).marker.length = 7 := rfl
  have length := nothing.length_le
  rw [seven] at length
  exact absurd length (by decide)

/-- With every key -/
theorem roundTrips (aes : Aes) {key : Bytes} (keyed : key ≠ []) : RoundTrips aes key where
  encrypts := by
    intro plaintext notEmpty
    obtain ⟨encrypted, encrypts, _, decrypts⟩ := @decrypt_encrypt aes plaintext key notEmpty keyed
    exact ⟨encrypted, encrypts, decrypts⟩
  fields := by
    intro v field fieldName typed
    rw [value_eq typed, GormEncryptedStringSerializer.stored]
    by_cases empty : v = []
    · subst empty
      rw [if_pos rfl]
      exact ⟨[], rfl, fun dbValue reads => scan_plain fieldName reads marker_ne_nil⟩
    · obtain ⟨encrypted, encrypts, _, decrypts⟩ := @decrypt_encrypt aes v key empty keyed
      have uses : (newGormEncryptedStringSerializer key).useEncryption = true :=
        decide_eq_true keyed
      have phrase : (newGormEncryptedStringSerializer key).keyPhrase = key := rfl
      simp only [if_neg empty, uses, Bool.not_true, Bool.false_eq_true, if_false, phrase, encrypts]
      exact ⟨_, rfl, fun dbValue reads => scan_encrypted keyed fieldName reads decrypts⟩
  earlier := by
    intro v field fieldName typed plain
    refine ⟨?_, fun dbValue reads => scan_plain fieldName reads plain⟩
    rw [value_eq typed, GormEncryptedStringSerializer.stored]
    by_cases empty : v = []
    · rw [if_pos empty, empty]
    · rw [if_neg empty]
      rfl

/-- A cipher that leaves blocks as they are -/
def identityCipher : Cipher 16 := ⟨id, id, fun _ h => h, fun _ h => h, fun _ _ => rfl⟩

def plainAes : Aes := ⟨fun _ => .ok identityCipher, fun _ _ => ⟨_, rfl⟩⟩

theorem secret_roundTrips : asciiBytes "secret".toList ≠ [] ∧
    RoundTrips plainAes (asciiBytes "secret".toList) := by
  have keyed : asciiBytes "secret".toList ≠ [] := by decide
  exact ⟨keyed, roundTrips plainAes keyed⟩

end RoundTrip

section Unpadding

variable {aes : Aes} {encrypted key : Bytes}

/-- Whatever is stored, the decryption ends with a result or an error. -/
def DecryptsSafely (aes : Aes) (encrypted key : Bytes) : Prop :=
  decryptAES256 aes encrypted key ≠ none

/-- A text is not empty, and its last block, as the cipher and the block before it leave it, ends
with a number of bytes that it has. -/
def EndsWithPadding (block : Cipher blockSize) (iv ciphertext : Bytes) : Prop :=
  ∃ last ∈ (finalBlock block iv ciphertext).getLast?,
    last.toNat ≤ ciphertext.length ∧ ciphertext ≠ []

/-- What is decoded to whole blocks ends with a padding, whatever else it says. -/
def PaddedIfWhole (aes : Aes) (encrypted key : Bytes) : Prop :=
  encrypted ≠ [] → key ≠ [] → ∀ ciphertext block, base64Decode encrypted = .ok ciphertext →
    blockSize ∣ ciphertext.length → aes.newCipher (trimEncKey key) = .ok block →
      EndsWithPadding block ((trimEncKey key).take blockSize) ciphertext

theorem pkcs7UnPadding_ne_none {src : Bytes} :
    pkcs7UnPadding src ≠ none ↔ ∃ last ∈ src.getLast?, last.toNat ≤ src.length := by
  unfold pkcs7UnPadding
  cases src.getLast? with
  | none => simp
  | some last => simp

/-- The unpadding stays inside of what is decrypted. -/
theorem unpadding_cbcDecrypt {block : Cipher blockSize} {iv ciphertext : Bytes}
    (start : iv.length = blockSize) (whole : blockSize ∣ ciphertext.length) :
    pkcs7UnPadding (cbcDecrypt block iv ciphertext) ≠ none ↔
      EndsWithPadding block iv ciphertext := by
  have length := length_cbcDecrypt (c := block) start whole
  rw [pkcs7UnPadding_ne_none, length]
  obtain ⟨count, blocks⟩ := whole
  rcases count with _ | n
  · have nothing : ciphertext = [] := List.length_eq_zero_iff.mp blocks
    constructor
    · rintro ⟨last, final, _⟩
      rw [cbcDecrypt_eq_nil nothing] at final
      cases final
    · rintro ⟨_, _, _, some⟩
      exact absurd nothing some
  · have some : ciphertext ≠ [] := by
      rintro rfl
      rw [List.length_nil, Nat.mul_succ, blockSize] at blocks
      omega
    rw [getLast?_cbcDecrypt (by decide) start blocks]
    exact exists_congr fun last => and_congr_right fun _ => (and_iff_left some).symm

/-- The decryption panics for the texts of whole blocks without a padding, and for no others. -/
theorem decryptsSafely_iff (aes : Aes) (encrypted key : Bytes) :
    DecryptsSafely aes encrypted key ↔ PaddedIfWhole aes encrypted key := by
  by_cases empty : encrypted = []
  · simp [DecryptsSafely, PaddedIfWhole, decryptAES256, empty]
  by_cases unkeyed : key = []
  · simp [DecryptsSafely, PaddedIfWhole, decryptAES256, empty, unkeyed]
  rw [DecryptsSafely, decryptAES256, if_neg empty, if_neg unkeyed]
  cases decoded : base64Decode encrypted with
  | error err => simp [PaddedIfWhole, decoded]
  | ok ciphertext =>
    by_cases whole : blockSize ∣ ciphertext.length
    · obtain ⟨block, cipher⟩ := aes.newCipher_ok _ (length_trimEncKey key)
      have unpads := @unpadding_cbcDecrypt block _ _ (length_iv key) whole
      have aligned : ¬ ciphertext.length % blockSize ≠ 0 :=
        not_not.mpr (Nat.mod_eq_zero_of_dvd whole)
      simp only [if_neg aligned, cipher, ne_eq, Option.map_eq_none_iff]
      refine unpads.trans ?_
      constructor
      · intro padded _ _ ciphertext' block' decodes _ ciphers
        obtain rfl : ciphertext = ciphertext' := Except.ok.inj (decoded.symm.trans decodes)
        obtain rfl : block = block' := Except.ok.inj (cipher.symm.trans ciphers)
        exact padded
      · intro padded
        exact padded empty unkeyed ciphertext block decoded whole cipher
    · have partly : ciphertext.length % blockSize ≠ 0 := fun none =>
        whole (Nat.dvd_of_mod_eq_zero none)
      simp only [if_pos partly]
      refine iff_of_true (fun panics => by cases panics) ?_
      intro _ _ ciphertext' _ decodes aligned _
      obtain rfl : ciphertext = ciphertext' := Except.ok.inj (decoded.symm.trans decodes)
      exact absurd aligned whole

/-- The end of a line is decoded to nothing, whose last byte is read. -/
theorem lineEnd_panics :
    ¬ DecryptsSafely plainAes (asciiBytes ['\n']) (asciiBytes "secret".toList) := by
  intro safe
  exact safe (by decide)

end Unpadding

end WgPortal.App.GormEncryption
