import WgPortal.Library.Base64

/-! What a decoder yields before it meets an error, and where a digit comes from. -/

namespace WgPortal.Library.Base64

variable {α : Alphabet}

/-- The bytes up to the first error, for callers that ignore it -/
def decodePrefix (α : Alphabet) : List Char → List UInt8
  | a :: b :: c :: d :: text =>
    match α.value a, α.value b with
    | some x, some y =>
      if c = pad then if d = pad then [firstByte x y] else []
      else
        match α.value c with
        | none => []
        | some z =>
          if d = pad then [firstByte x y, secondByte y z]
          else
            match α.value d with
            | none => []
            | some w => firstByte x y :: secondByte y z :: thirdByte z w :: decodePrefix α text
    | _, _ => []
  | _ => []

/-- Without an error, that is everything. -/
theorem decodePrefix_eq {text : List Char} {bytes : List UInt8}
    (decoded : decodeGroups α text = some bytes) : decodePrefix α text = bytes := by
  induction text using decodeGroups.induct α generalizing bytes with
  | case1 =>
    cases decoded
    rfl
  | case8 a b c d text x y second first noPad z third noPad' w fourth ih =>
    simp only [decodeGroups, first, second, third, fourth, noPad, noPad', if_false,
      Option.map_eq_some_iff] at decoded
    obtain ⟨rest, decoded, rfl⟩ := decoded
    simp only [decodePrefix, first, second, third, fourth, noPad, noPad', if_false, ih decoded]
  | case2 | case3 | case4 | case5 | case6 | case7 | case9 | case10 =>
    simp_all [decodeGroups, decodePrefix]

/-- Every third element -/
def thirds {β : Type} : List β → List β
  | _ :: _ :: c :: rest => c :: thirds rest
  | _ => []

theorem digit_eq_slash : ∀ n < 64, std.digit n = '/' ↔ n = 63 := by decide +kernel

/-- Of ASCII, only the third byte of a group can have all six bits of a digit set. -/
theorem count_encode {bytes : List UInt8} (ascii : ∀ b ∈ bytes, b.toNat < 128) :
    (encode std bytes).count '/' = (thirds bytes).countP fun b => b.toNat % 64 = 63 := by
  have other : ∀ n, n < 63 → std.digit n ≠ '/' := fun n small same =>
    absurd ((digit_eq_slash n (by omega)).mp same) (by omega)
  induction bytes using encode.induct with
  | case1 => rfl
  | case2 a =>
    have first := ascii a (by simp)
    simp only [encode, thirds]
    rw [List.count_cons_of_ne (other _ (by omega)), List.count_cons_of_ne (other _ (by omega))]
    rfl
  | case3 a b =>
    have first := ascii a (by simp)
    have second := ascii b (by simp)
    simp only [encode, thirds]
    rw [List.count_cons_of_ne (other _ (by omega)), List.count_cons_of_ne (other _ (by omega)),
      List.count_cons_of_ne (other _ (by omega))]
    rfl
  | case4 a b c bytes ih =>
    have first := ascii a (by simp)
    have second := ascii b (by simp)
    have third := ascii c (by simp)
    have rest := ih fun d mem => ascii d (by simp [mem])
    simp only [encode, thirds]
    rw [List.count_cons_of_ne (other _ (by omega)), List.count_cons_of_ne (other _ (by omega)),
      List.count_cons_of_ne (other _ (by omega)), List.count_cons, List.countP_cons, rest]
    congr 1
    have same := digit_eq_slash (c.toNat % 64) (by omega)
    simp only [beq_iff_eq, same, decide_eq_true_eq]

end WgPortal.Library.Base64
