import WgPortal.Config.Duration

/-! Which durations in days are parsed as what they say. -/

namespace WgPortal.Config

open Domain Library.NetIP

def day : Int := 24 * hour

/-- The string has the form `<days>d`. -/
def DayForm (s : String) (days : Int) : Prop :=
  ∃ daysStr, s.toList = daysStr ++ ['d'] ∧ Interface.signedDecimal daysStr = some days

/-- Not negative, and in the range of `int64`. -/
def IsTTL (d : Int) : Prop := 0 ≤ d ∧ d < 2 ^ 63

/-- The parser succeeds with exactly the days of the string, or not at all if these do not fit,
and with nothing that a TTL cannot be. -/
structure ParsesExactly (s : String) : Prop where
  exact : ∀ days (d : Int), DayForm s days → parseDurationWithDays s = some d →
    0 ≤ d ∧ d = days * day
  rejects : ∀ days, DayForm s days → 2 ^ 63 ≤ days * day → parseDurationWithDays s = none
  range : ∀ d : Int, parseDurationWithDays s = some d → IsTTL d

/-- The last count of days that fits -/
def maxDays : Int := 106751

/-- The days fit, or they are too many for an `int` already. -/
def FitsDuration (s : String) : Prop := ∀ days, DayForm s days → days ≤ maxDays ∨ 2 ^ 63 ≤ days

theorem day_eq : day = 86400000000000 := by decide

theorem fits_iff (days : Int) : days * day < 2 ^ 63 ↔ days ≤ maxDays := by
  rw [day_eq, maxDays]
  omega

theorem wrapInt64_eq_iff (n : Int) : wrapInt64 n = n ↔ -2 ^ 63 ≤ n ∧ n < 2 ^ 63 := by
  unfold wrapInt64
  omega

theorem dayForm_iff {s : String} {days : Int} : DayForm s days ↔ ∃ daysStr,
    s.toList.reverse = 'd' :: daysStr ∧ Interface.signedDecimal daysStr.reverse = some days := by
  constructor
  · rintro ⟨daysStr, form, parsed⟩
    exact ⟨daysStr.reverse, by rw [form]; simp, by rwa [List.reverse_reverse]⟩
  · rintro ⟨daysStr, form, parsed⟩
    refine ⟨daysStr.reverse, ?_, parsed⟩
    rw [← List.reverse_reverse s.toList, form, List.reverse_cons]

/-- What becomes of a count of days. -/
theorem parse_days {s : String} {days : Int} (form : DayForm s days) : parseDurationWithDays s =
    if days < 0 ∨ 2 ^ 63 ≤ days then none else some (wrapInt64 (days * day)) := by
  obtain ⟨daysStr, reversed, parsed⟩ := dayForm_iff.mp form
  have notEmpty : s ≠ "" := by
    rintro rfl
    cases reversed
  rw [parseDurationWithDays, if_neg notEmpty]
  simp only [reversed, parsed, Int.mul_assoc]
  rfl

theorem parseDuration_lt {s : String} {d : Int} (parsed : parseDuration s = some d)
    (positive : 0 ≤ d) : IsTTL d := by
  refine ⟨positive, ?_⟩
  unfold parseDuration at parsed
  dsimp only at parsed
  -- the text without its sign
  generalize (if s.toList.head? = some '-' ∨ s.toList.head? = some '+' then s.toList.drop 1
    else s.toList) = text at parsed
  split at parsed
  · cases parsed
    decide
  · split at parsed
    · cases parsed
    · split at parsed
      · cases parsed
      · rename_i total _
        split at parsed
        · cases parsed
          have negative := Int.neg_nonpos_of_nonneg (Int.natCast_nonneg total)
          exact negative.trans_lt (by decide)
        · split at parsed
          · cases parsed
          · cases parsed
            omega

/-- All other durations are in range. -/
theorem isTTL_of_no_days {s : String} (noDays : ∀ days, ¬ DayForm s days) {d : Int}
    (parsed : parseDurationWithDays s = some d) : IsTTL d := by
  unfold parseDurationWithDays at parsed
  split at parsed
  · cases parsed
    exact ⟨le_refl _, by decide⟩
  · split at parsed
    · rename_i daysStr reversed
      split at parsed
      · cases parsed
      · rename_i days number
        exact absurd (dayForm_iff.mpr ⟨daysStr, reversed, number⟩) (noDays days)
    · split at parsed
      · cases parsed
      · rename_i duration standard
        split at parsed
        · cases parsed
        · rename_i positive
          cases parsed
          exact parseDuration_lt standard (Int.not_lt.mp positive)

/-- A string is parsed exactly unless it counts days that do not fit although they are an
`int`. -/
theorem parsesExactly_iff (s : String) : ParsesExactly s ↔ FitsDuration s := by
  constructor
  · intro parses days form
    by_contra wraps
    obtain ⟨many, number⟩ := not_or.mp wraps
    have large : 2 ^ 63 ≤ days * day := Int.not_lt.mp fun fits => many ((fits_iff days).mp fits)
    have rejected := parses.rejects days form large
    rw [parse_days form, if_neg] at rejected
    · cases rejected
    · rw [maxDays] at many
      omega
  · intro fits
    have counted : ∀ days (d : Int), DayForm s days → parseDurationWithDays s = some d →
        0 ≤ days ∧ days ≤ maxDays ∧ d = days * day := by
      intro days d form parsed
      rw [parse_days form] at parsed
      split_ifs at parsed with refused
      obtain ⟨positive, number⟩ := not_or.mp refused
      have few := (fits days form).resolve_right number
      have small := (fits_iff days).mpr few
      refine ⟨Int.not_lt.mp positive, few, ?_⟩
      rw [← Option.some.inj parsed, wrapInt64_eq_iff]
      refine ⟨?_, small⟩
      rw [day_eq]
      omega
    have range : ∀ days (d : Int), DayForm s days → parseDurationWithDays s = some d → IsTTL d := by
      intro days d form parsed
      obtain ⟨positive, few, rfl⟩ := counted days d form parsed
      refine ⟨?_, (fits_iff days).mpr few⟩
      rw [day_eq]
      omega
    refine ⟨fun days d form parsed => ⟨(range days d form parsed).1,
      (counted days d form parsed).2.2⟩, fun days form large => ?_, fun d parsed => ?_⟩
    · have many : ¬ days ≤ maxDays := fun few => absurd ((fits_iff days).mpr few) (by omega)
      rw [parse_days form, if_pos (.inr ((fits days form).resolve_left many))]
    · by_cases days : ∃ days, DayForm s days
      · obtain ⟨days, form⟩ := days
        exact range days d form parsed
      · exact isTTL_of_no_days (fun n form => days ⟨n, form⟩) parsed

/-- 200000 days become a negative duration. -/
theorem manyDays_wrap : parseDurationWithDays "200000d" = some (-1166744073709551616) ∧
    ¬ ParsesExactly "200000d" := by
  have parsed : parseDurationWithDays "200000d" = some (-1166744073709551616) := by decide
  refine ⟨parsed, fun exactly => ?_⟩
  have positive := (exactly.range _ parsed).1
  exact absurd positive (by decide)

end WgPortal.Config
