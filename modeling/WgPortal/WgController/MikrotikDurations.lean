import Mathlib.Data.List.TakeWhile
import WgPortal.WgController.MikrotikObjects

/-! The durations that are written to a Mikrotik router are read back. -/

namespace WgPortal.WgController.Mikrotik

open Domain Config Library.NetIP

theorem isDigit_of_mem {v : ℕ} {c : Char} (mem : c ∈ Nat.toDigits 10 v) : isDigit c = true := by
  obtain ⟨d, small, rfl⟩ := mem_toDigits (by decide) mem
  rw [isDigit, digitVal_digitChar d small]
  rfl

/-- A unit of one letter -/
structure KnownUnit (unit : Char) (nanoseconds : ℕ) : Prop where
  letter : isDigit unit = false
  point : unit ≠ '.'
  known : unitMap (String.ofList [unit]) = some nanoseconds

/-- A number and a unit of one letter, up to the next number. -/
theorem leadingPart_unit {v ns : ℕ} {unit : Char} {rest : List Char}
    (here : KnownUnit unit ns)
    (stops : (rest.takeWhile fun c => c ≠ '.' && !isDigit c) = [])
    (small : v * ns ≤ 2 ^ 63) :
    leadingPart (Nat.toDigits 10 v ++ unit :: rest) = some (v * ns, rest) := by
  have letter := here.letter
  have whole : (Nat.toDigits 10 v ++ unit :: rest).takeWhile isDigit = Nat.toDigits 10 v := by
    rw [List.takeWhile_append_of_pos fun c mem => isDigit_of_mem mem,
      List.takeWhile_cons_of_neg (by simp [letter]), List.append_nil]
  have some : Nat.toDigits 10 v ≠ [] := Nat.toDigits_ne_nil
  have notPoint : (unit :: rest).head? ≠ Option.some '.' :=
    fun same => here.point (Option.some.inj same)
  have unit : ((unit :: rest).takeWhile fun c => c ≠ '.' && !isDigit c) = [unit] := by
    rw [List.takeWhile_cons_of_pos (by simp [letter, here.point]), stops]
  have value : ofDigits 10 digitVal (Nat.toDigits 10 v) = Option.some v :=
    ofDigits_toDigits (by decide) digitVal_digitChar v
  have none : ofDigits 10 digitVal [] = Option.some 0 := rfl
  have fits : ¬ 2 ^ 63 < v * ns := Nat.not_lt.mpr small
  simp only [leadingPart, whole, List.drop_left, if_neg notPoint, unit, here.known, value, none,
    Option.bind_eq_bind, Option.bind_some, some, false_and, if_false, Nat.zero_mul, Nat.zero_div,
    Nat.add_zero, fits, List.length_singleton, List.drop_succ_cons, List.drop_zero]
  rfl

/-- A number and its unit -/
structure Part where
  count : ℕ
  unit : Char
  nanoseconds : ℕ

namespace Part

def text (p : Part) : List Char := Nat.toDigits 10 p.count ++ [p.unit]

def value (p : Part) : ℕ := p.count * p.nanoseconds

end Part

def partsText (parts : List Part) : List Char := parts.flatMap Part.text

def partsValue (parts : List Part) : ℕ := (parts.map Part.value).sum

/-- A text of parts begins with a digit. -/
theorem partsText_cons (p : Part) (parts : List Part) : ∃ first rest,
    isDigit first = true ∧ partsText (p :: parts) = first :: rest := by
  obtain ⟨first, digits, shown⟩ :=
    List.exists_cons_of_ne_nil (Nat.toDigits_ne_nil : Nat.toDigits 10 p.count ≠ [])
  refine ⟨first, digits ++ p.unit :: partsText parts, @isDigit_of_mem p.count first ?_, ?_⟩
  · rw [shown]
    exact List.mem_cons_self
  · rw [partsText, List.flatMap_cons, Part.text, shown, List.cons_append, List.cons_append,
      List.append_assoc]
    rfl

theorem stops_partsText (parts : List Part) :
    ((partsText parts).takeWhile fun c => c ≠ '.' && !isDigit c) = [] := by
  cases parts with
  | nil => rfl
  | cons p parts =>
    obtain ⟨first, rest, digit, shown⟩ := partsText_cons p parts
    rw [shown, List.takeWhile_cons_of_neg (by simp [digit])]

theorem sumOfParts_partsText {parts : List Part}
    (known : ∀ p ∈ parts, KnownUnit p.unit p.nanoseconds) (small : partsValue parts ≤ 2 ^ 63)
    {fuel : ℕ} (enough : parts.length ≤ fuel) :
    sumOfParts fuel (partsText parts) = some (partsValue parts) := by
  induction parts generalizing fuel with
  | nil => cases fuel <;> rfl
  | cons p parts ih =>
    cases fuel with
    | zero => cases enough
    | succ fuel =>
      have total : partsValue (p :: parts) = p.value + partsValue parts := rfl
      rw [total] at small
      have first : leadingPart (partsText (p :: parts)) = some (p.value, partsText parts) := by
        rw [partsText, List.flatMap_cons, Part.text, List.append_assoc]
        exact leadingPart_unit (known p List.mem_cons_self) (stops_partsText parts)
          (Nat.le_trans (Nat.le_add_right ..) small)
      have later := ih (fun q mem => known q (List.mem_cons_of_mem p mem))
        (Nat.le_trans (Nat.le_add_left ..) small) (Nat.le_of_succ_le_succ enough)
      have fits := Nat.not_lt.mpr small
      obtain ⟨c, rest, _, shown⟩ := partsText_cons p parts
      rw [total]
      rw [shown] at first ⊢
      simp only [sumOfParts, first, Option.bind_eq_bind, Option.bind_some, later, fits, if_false]
      rfl

/-- Whole seconds in hours, minutes and seconds; what is zero in front is left out. -/
def secondsParts (second seconds : ℕ) : List Part :=
  (if 0 < seconds / 3600 then [⟨seconds / 3600, 'h', 3600 * second⟩] else []) ++
  (if 0 < seconds / 60 then [⟨seconds / 60 % 60, 'm', 60 * second⟩] else []) ++
  [⟨seconds % 60, 's', second⟩]

theorem secondsParts_ne_nil (second seconds : ℕ) : secondsParts second seconds ≠ [] :=
  List.append_ne_nil_of_right_ne_nil _ (List.cons_ne_nil _ _)

theorem known_secondsParts (seconds : ℕ) :
    ∀ p ∈ secondsParts 1000000000 seconds, KnownUnit p.unit p.nanoseconds := by
  have hour : KnownUnit 'h' (3600 * 1000000000) := ⟨by decide, by decide, by decide⟩
  have minute : KnownUnit 'm' (60 * 1000000000) := ⟨by decide, by decide, by decide⟩
  have second : KnownUnit 's' 1000000000 := ⟨by decide, by decide, by decide⟩
  intro p mem
  unfold secondsParts at mem
  simp only [List.mem_append, List.mem_singleton] at mem
  rcases mem with (mem | mem) | rfl
  · split at mem
    · rw [List.mem_singleton.mp mem]
      exact hour
    · cases mem
  · split at mem
    · rw [List.mem_singleton.mp mem]
      exact minute
    · cases mem
  · exact second

theorem partsValue_secondsParts (second seconds : ℕ) :
    partsValue (secondsParts second seconds) = seconds * second := by
  unfold secondsParts partsValue
  split <;> split <;>
    simp only [List.append_nil, List.nil_append, List.cons_append, List.map_cons, List.map_nil,
      List.sum_cons, List.sum_nil, Part.value, ← Nat.mul_assoc, Nat.add_zero, ← Nat.add_mul] <;>
    congr 1 <;> omega

theorem length_le_partsText (parts : List Part) : parts.length ≤ (partsText parts).length := by
  induction parts with
  | nil => exact Nat.le_refl 0
  | cons p parts ih =>
    rw [partsText, List.flatMap_cons, Part.text, List.length_append, List.length_append,
      List.length_singleton, List.length_cons]
    have later : parts.length ≤ (parts.flatMap Part.text).length := ih
    omega

theorem fractionText_of_mod {digits v : ℕ} (none : v % 10 ^ digits = 0) :
    fractionText digits v = [] := by
  unfold fractionText
  have zero : Nat.toDigits 10 (v % 10 ^ digits) = ['0'] := by rw [none]; rfl
  have dropped : ((List.replicate (digits - ['0'].length) '0' ++ ['0']).reverse.dropWhile
      (· = '0')) = [] := by
    rw [List.dropWhile_eq_nil_iff]
    intro c mem
    rw [List.mem_reverse, List.mem_append] at mem
    rcases mem with mem | mem
    · exact decide_eq_true (List.eq_of_mem_replicate mem)
    · exact decide_eq_true (List.mem_singleton.mp mem)
  simp only [zero, dropped, List.reverse_nil, or_true, if_true]

theorem durationText_seconds {n : ℕ} (some : 0 < n) :
    durationText ((n * 1000000000 : ℕ) : Int) =
      String.ofList (partsText (secondsParts 1000000000 n)) := by
  have whole : n * 1000000000 / 10 ^ 9 = n := Nat.mul_div_cancel n (by decide)
  have fraction : fractionText 9 (n * 1000000000) = [] :=
    fractionText_of_mod (Nat.mul_mod_left n 1000000000)
  have large : 10 ^ 9 ≤ n * 1000000000 := Nat.le_mul_of_pos_left _ some
  have u0 : ¬ n * 1000000000 = 0 := by omega
  have u3 : ¬ n * 1000000000 < 10 ^ 3 := by omega
  have u6 : ¬ n * 1000000000 < 10 ^ 6 := by omega
  have u9 : ¬ n * 1000000000 < 10 ^ 9 := Nat.not_lt.mpr large
  have positive : ¬ ((n * 1000000000 : ℕ) : Int) < 0 := by omega
  unfold durationText
  simp only [Int.natAbs_natCast, whole, if_neg u0, if_neg u3, if_neg u6, if_neg u9, fraction,
    if_neg positive, List.append_nil]
  unfold secondsParts partsText
  split <;> split <;>
    simp only [List.append_nil, List.nil_append, List.cons_append, List.flatMap_cons,
      List.flatMap_nil, Part.text, List.append_assoc]

/-- A number of seconds that fits is read back. -/
theorem secondsOf_secondsText {n : ℕ} (fits : n * 1000000000 < 2 ^ 63) :
    secondsOf (secondsText n) = n := by
  have whole : ((n : Int) * second) = ((n * 1000000000 : ℕ) : Int) := by
    rw [Nat.cast_mul]
    rfl
  have same : wrapInt64 ((n * 1000000000 : ℕ) : Int) = ((n * 1000000000 : ℕ) : Int) := by
    unfold wrapInt64
    omega
  by_cases some : 0 < n
  · have value := partsValue_secondsParts 1000000000 n
    have sum : sumOfParts (partsText (secondsParts 1000000000 n)).length
        (partsText (secondsParts 1000000000 n)) =
        Option.some (n * 1000000000) := by
      have sum := sumOfParts_partsText (known_secondsParts n) (by rw [value]; omega)
        (length_le_partsText (secondsParts 1000000000 n))
      rwa [value] at sum
    have parsed : parseDuration (String.ofList (partsText (secondsParts 1000000000 n))) =
        Option.some ((n * 1000000000 : ℕ) : Int) := by
      obtain ⟨part, parts, split⟩ := List.exists_cons_of_ne_nil (secondsParts_ne_nil 1000000000 n)
      obtain ⟨first, rest, digit, shown⟩ := partsText_cons part parts
      rw [← split] at shown
      have minus : (partsText (secondsParts 1000000000 n)).head? ≠ Option.some '-' := by
        rw [shown]
        intro same
        rw [Option.some.inj same] at digit
        cases digit
      have plus : (partsText (secondsParts 1000000000 n)).head? ≠ Option.some '+' := by
        rw [shown]
        intro same
        rw [Option.some.inj same] at digit
        cases digit
      have nonzero : partsText (secondsParts 1000000000 n) ≠ ['0'] := by
        intro zero
        rw [zero] at sum
        cases sum
      have nonempty : partsText (secondsParts 1000000000 n) ≠ [] := by
        rw [shown]
        exact List.cons_ne_nil first rest
      have small : ¬ 2 ^ 63 ≤ n * 1000000000 := Nat.not_le.mpr fits
      simp only [parseDuration, String.toList_ofList, minus, plus, or_self, if_false, nonzero,
        nonempty, sum, small]
    rw [secondsOf, secondsText, whole, same, durationText_seconds some, parsed, Option.map_some,
      Option.getD_some, ← whole, Int.mul_tdiv_cancel _ (by decide)]
  · obtain rfl : n = 0 := Nat.eq_zero_of_not_pos some
    decide

end WgPortal.WgController.Mikrotik
