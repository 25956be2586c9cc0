import WgPortal.Library.NetIPText

/-! The Gregorian calendar and the texts of RFC 3339, as `Format` and `Parse` of
the package `time` write and read them in UTC. An instant is a number of
nanoseconds since the start of year 1. -/

namespace WgPortal.Library.Calendar

open NetIP (digitVal digitVal_digitChar decimal ofDigits ofDigits_toDigits mem_toDigits)

def isLeap (year : Int) : Bool := year % 4 = 0 && (year % 100 ≠ 0 || year % 400 = 0)

/-- The days from the start of year 1 to the start of a year. -/
def daysBefore (year : Int) : Int :=
  365 * (year - 1) + (year - 1) / 4 - (year - 1) / 100 + (year - 1) / 400

def yearLength (year : Int) : ℕ := if isLeap year then 366 else 365

theorem daysBefore_succ (year : Int) :
    daysBefore (year + 1) = daysBefore year + yearLength year := by
  simp only [daysBefore, yearLength, isLeap, Bool.and_eq_true, Bool.or_eq_true, decide_eq_true_eq]
  split <;> omega

/-- 400 years have 146097 days, so that the guess is off by one year at most. -/
def yearOf (day : Int) : Int :=
  let guess := day * 400 / 146097 + 1
  if day < daysBefore guess then guess - 1
  else if daysBefore (guess + 1) ≤ day then guess + 1
  else guess

theorem yearOf_spec (day : Int) :
    daysBefore (yearOf day) ≤ day ∧ day < daysBefore (yearOf day + 1) := by
  simp only [yearOf]
  split
  · simp only [daysBefore] at *
    omega
  · split <;> simp only [daysBefore] at * <;> omega

def monthLengths (year : Int) : List ℕ :=
  [31, if isLeap year then 29 else 28, 31, 30, 31, 30, 31, 31, 30, 31, 30, 31]

theorem sum_monthLengths (year : Int) : (monthLengths year).sum = yearLength year := by
  simp only [monthLengths, yearLength]
  split <;> rfl

/-- The month and its day that a day of the year falls on, from 1 on. -/
def monthDay : List ℕ → ℕ → ℕ × ℕ
  | [], n => (1, n + 1)
  | length :: lengths, n =>
    if n < length then (1, n + 1)
    else ((monthDay lengths (n - length)).1 + 1, (monthDay lengths (n - length)).2)

/-- The day of the year, from 0 on. -/
def yearDay (lengths : List ℕ) (month day : ℕ) : ℕ := (lengths.take (month - 1)).sum + (day - 1)

theorem monthDay_pos (lengths : List ℕ) (n : ℕ) :
    0 < (monthDay lengths n).1 ∧ 0 < (monthDay lengths n).2 := by
  induction lengths generalizing n with
  | nil => simp [monthDay]
  | cons length lengths ih =>
    rw [monthDay]
    split
    · simp
    · exact ⟨Nat.succ_pos _, (ih _).2⟩

theorem yearDay_monthDay {lengths : List ℕ} {n : ℕ} (within : n < lengths.sum) :
    yearDay lengths (monthDay lengths n).1 (monthDay lengths n).2 = n ∧
      (monthDay lengths n).1 ≤ lengths.length ∧
        (monthDay lengths n).2 ≤ lengths.getD ((monthDay lengths n).1 - 1) 0 := by
  induction lengths generalizing n with
  | nil => simp at within
  | cons length lengths ih =>
    rw [List.sum_cons] at within
    rw [monthDay]
    split
    · simp [yearDay]
      omega
    · have rest := ih (n := n - length) (by omega)
      obtain ⟨month, month_eq⟩ :=
        Nat.exists_eq_succ_of_ne_zero (monthDay_pos lengths (n - length)).1.ne'
      simp only [yearDay, month_eq] at rest ⊢
      simp at rest ⊢
      omega

structure DateTime where
  year : Int
  month : ℕ
  day : ℕ
  hour : ℕ
  minute : ℕ
  second : ℕ
deriving DecidableEq

def nanos : Int := 1000000000

/-- `Truncate(time.Second)` -/
def wholeSeconds (t : Int) : Int := t / nanos * nanos

theorem wholeSeconds_wholeSeconds (t : Int) : wholeSeconds (wholeSeconds t) = wholeSeconds t := by
  simp only [wholeSeconds, nanos]
  omega

def dateTime (t : Int) : DateTime :=
  let seconds := t / nanos
  let year := yearOf (seconds / 86400)
  let date := monthDay (monthLengths year) (seconds / 86400 - daysBefore year).toNat
  let second := (seconds % 86400).toNat
  { year := year
    month := date.1
    day := date.2
    hour := second / 3600
    minute := second / 60 % 60
    second := second % 60 }

/-- `time.Date` without nanoseconds -/
def DateTime.instant (d : DateTime) : Int :=
  ((daysBefore d.year + yearDay (monthLengths d.year) d.month d.day) * 86400 +
    d.hour * 3600 + d.minute * 60 + d.second) * nanos

/-- A date of the calendar and a time of the day. -/
def DateTime.Valid (d : DateTime) : Prop :=
  0 < d.month ∧ d.month ≤ 12 ∧ 0 < d.day ∧ d.day ≤ (monthLengths d.year).getD (d.month - 1) 0 ∧
    d.hour < 24 ∧ d.minute < 60 ∧ d.second < 60

instance (d : DateTime) : Decidable d.Valid := by
  unfold DateTime.Valid
  infer_instance

/-- A day of the year, from the start of the year on. -/
theorem dayOfYear_lt (day : Int) :
    (day - daysBefore (yearOf day)).toNat < (monthLengths (yearOf day)).sum := by
  have spec := yearOf_spec day
  rw [daysBefore_succ] at spec
  rw [sum_monthLengths]
  omega

theorem dateTime_valid (t : Int) : (dateTime t).Valid := by
  have date := yearDay_monthDay (dayOfYear_lt (t / nanos / 86400))
  have pos := monthDay_pos (monthLengths (yearOf (t / nanos / 86400)))
    (t / nanos / 86400 - daysBefore (yearOf (t / nanos / 86400))).toNat
  refine ⟨pos.1, date.2.1, pos.2, date.2.2, ?_, ?_, ?_⟩ <;> simp only [dateTime] <;> omega

theorem instant_dateTime (t : Int) : (dateTime t).instant = wholeSeconds t := by
  have date := (yearDay_monthDay (dayOfYear_lt (t / nanos / 86400))).1
  have spec := yearOf_spec (t / nanos / 86400)
  have time : ((t / nanos % 86400).toNat / 3600 : ℕ) * 3600 +
      ((t / nanos % 86400).toNat / 60 % 60 : ℕ) * 60 + ((t / nanos % 86400).toNat % 60 : ℕ) =
        t / nanos % 86400 := by
    omega
  simp only [DateTime.instant, dateTime, wholeSeconds, date]
  congr 1
  omega

/-- A number with zeros in front of it up to a width. -/
def padded (width n : ℕ) : List Char :=
  List.replicate (width - (decimal n).length) '0' ++ decimal n

/-- `Format(time.RFC3339)` -/
def formatRFC3339 (t : Int) : List Char :=
  let d := dateTime t
  (if d.year < 0 then ['-'] else []) ++ padded 4 d.year.natAbs ++
    '-' :: (padded 2 d.month ++ '-' :: (padded 2 d.day ++ 'T' :: (padded 2 d.hour ++
      ':' :: (padded 2 d.minute ++ ':' :: (padded 2 d.second ++ ['Z'])))))

/-- The fraction of the second without zeros at its end, if there is one -/
def fraction (t : Int) : List Char :=
  let rest := (t % nanos).toNat
  if rest = 0 then [] else '.' :: ((padded 9 rest).reverse.dropWhile (· = '0')).reverse

/-- `String` -/
def timeString (t : Int) : List Char :=
  let d := dateTime t
  (if d.year < 0 then ['-'] else []) ++ padded 4 d.year.natAbs ++
    '-' :: (padded 2 d.month ++ '-' :: (padded 2 d.day ++ ' ' :: (padded 2 d.hour ++
      ':' :: (padded 2 d.minute ++ ':' :: (padded 2 d.second ++
        (fraction t ++ " +0000 UTC".toList))))))

example : timeString 86399500000000 = "0001-01-01 23:59:59.5 +0000 UTC".toList := by
  decide +kernel

/-- A number of exactly so many digits, and the text behind it. -/
def takeNumber (width : ℕ) (text : List Char) : Option (ℕ × List Char) :=
  if text.length < width then none
  else (ofDigits 10 digitVal (text.take width)).map fun n => (n, text.drop width)

/-- One or two digits -/
def takeHour (text : List Char) : Option (ℕ × List Char) := (takeNumber 2 text).or (takeNumber 1 text)

def dropMark (mark : Char) : List Char → Option (List Char)
  | c :: text => if c = mark then some text else none
  | [] => none

/-- A fraction of the second, if there is one, in nanoseconds. -/
def takeFraction (text : List Char) : Int × List Char :=
  match text with
  | mark :: rest =>
    let digits := rest.takeWhile fun c => (digitVal c).isSome
    if (mark = '.' ∨ mark = ',') ∧ digits ≠ [] then
      let counted := digits.take 9
      (((ofDigits 10 digitVal counted).getD 0 * 10 ^ (9 - counted.length) : ℕ),
        rest.drop digits.length)
    else (0, text)
  | [] => (0, text)

def takeDateTime (text : List Char) : Option (DateTime × List Char) := do
  let (year, text) ← takeNumber 4 text
  let text ← dropMark '-' text
  let (month, text) ← takeNumber 2 text
  let text ← dropMark '-' text
  let (day, text) ← takeNumber 2 text
  let text ← dropMark 'T' text
  let (hour, text) ← takeHour text
  let text ← dropMark ':' text
  let (minute, text) ← takeNumber 2 text
  let text ← dropMark ':' text
  let (second, text) ← takeNumber 2 text
  return (⟨year, month, day, hour, minute, second⟩, text)

/-- The seconds that a numeric time zone is ahead. -/
def numericZone (text : List Char) : Option Int := do
  let (hours, rest) ← takeNumber 2 (text.drop 1)
  let rest ← dropMark ':' rest
  let (minutes, rest) ← takeNumber 2 rest
  if 24 < hours ∨ 60 < minutes ∨ rest ≠ [] then none
  match text.head? with
  | some '+' => some ((hours * 60 + minutes) * 60)
  | some '-' => some (-((hours * 60 + minutes) * 60))
  | _ => none

/-- The letter of UTC at the end of a text -/
def zoneZ (text : List Char) : Option Int := if text = ['Z'] then some 0 else none

/-- The `Z07:00` of a layout -/
def zone (text : List Char) : Option Int := (zoneZ text).or (numericZone text)

/-- `time.Parse` with a layout that is `2006-01-02T15:04:05` and a zone. -/
def parseLayout (zone : List Char → Option Int) (text : List Char) : Option Int := do
  let (date, rest) ← takeDateTime text
  let (fraction, rest) := takeFraction rest
  let offset ← zone rest
  if date.Valid then some (date.instant + fraction - offset * nanos) else none

def parseRFC3339 (text : List Char) : Option Int := parseLayout zone text

example : parseRFC3339 "2024-02-29T9:30:00.5+01:00".toList =
    parseRFC3339 "2024-02-29T08:30:00,500Z".toList := by decide

theorem ofDigits_padded (width n : ℕ) : ofDigits 10 digitVal (padded width n) = some n := by
  have zeros : ∀ count, ofDigits 10 digitVal (List.replicate count '0' ++ decimal n) =
      ofDigits 10 digitVal (decimal n) := by
    intro count
    induction count with
    | zero => rfl
    | succ count ih => exact ih
  rw [padded, zeros]
  exact ofDigits_toDigits (by decide) digitVal_digitChar n

theorem length_padded {width n : ℕ} (pos : 0 < width) (small : n < 10 ^ width) :
    (padded width n).length = width := by
  have short : (decimal n).length ≤ width :=
    (Nat.length_toDigits_le_iff (by decide) pos).mpr small
  rw [padded, List.length_append, List.length_replicate]
  omega

theorem takeNumber_padded {width n : ℕ} (pos : 0 < width) (small : n < 10 ^ width)
    (rest : List Char) : takeNumber width (padded width n ++ rest) = some (n, rest) := by
  have length := length_padded pos small
  have long : ¬ (padded width n ++ rest).length < width := by
    rw [List.length_append]
    omega
  rw [takeNumber, if_neg long, List.take_left' length, List.drop_left' length, ofDigits_padded]
  rfl

theorem digit_of_mem_padded {width n : ℕ} {c : Char} (mem : c ∈ padded width n) :
    ∃ d < 10, c = Nat.digitChar d := by
  rcases List.mem_append.mp mem with zero | digit
  · exact ⟨0, by decide, List.eq_of_mem_replicate zero⟩
  · exact mem_toDigits (by decide) digit

/-- A time is shown in one line. -/
theorem oneLine_timeString (t : Int) : '\n' ∉ timeString t := by
  have digit : ∀ d < 10, Nat.digitChar d ≠ '\n' := by decide
  have number : ∀ width n, '\n' ∉ padded width n := by
    intro width n mem
    obtain ⟨d, small, same⟩ := digit_of_mem_padded mem
    exact digit d small same.symm
  have rest : '\n' ∉ fraction t := by
    unfold fraction
    dsimp only
    split
    · exact List.not_mem_nil
    · intro mem
      rcases List.mem_cons.mp mem with same | mem
      · exact absurd same (by decide)
      · have inside := (List.dropWhile_suffix _).subset (List.mem_reverse.mp mem)
        exact number 9 _ (List.mem_reverse.mp inside)
  have sign : '\n' ∉ (if (dateTime t).year < 0 then ['-'] else []) := by
    split <;> decide
  simp only [timeString, List.mem_append, List.mem_cons, sign, number, rest, false_or, or_false]
  decide

@[simp] theorem dropMark_self (mark : Char) (rest : List Char) :
    dropMark mark (mark :: rest) = some rest := if_pos rfl

/-- A year of four digits -/
def FourDigits (t : Int) : Prop := 0 ≤ (dateTime t).year ∧ (dateTime t).year ≤ 9999

instance (t : Int) : Decidable (FourDigits t) := by
  unfold FourDigits
  infer_instance

theorem takeDateTime_format {t : Int} (year : FourDigits t) :
    takeDateTime (formatRFC3339 t) = some (dateTime t, ['Z']) := by
  have valid := dateTime_valid t
  have days : (monthLengths (dateTime t).year).getD ((dateTime t).month - 1) 0 ≤ 31 := by
    have each : ∀ length ∈ monthLengths (dateTime t).year, length ≤ 31 := by
      simp only [monthLengths, List.mem_cons, List.not_mem_nil, or_false]
      split <;> omega
    rw [List.getD_eq_getElem?_getD]
    cases found : (monthLengths (dateTime t).year)[(dateTime t).month - 1]? with
    | none => decide
    | some length => exact each length (List.mem_of_getElem? found)
  obtain ⟨-, month, -, day, hour, minute, second⟩ := valid
  have same : ((dateTime t).year.natAbs : Int) = (dateTime t).year := by
    have := year.1
    omega
  have small : (dateTime t).year.natAbs < 10 ^ 4 := by
    have := year.2
    omega
  have sign : ¬ (dateTime t).year < 0 := not_lt.mpr year.1
  simp only [takeDateTime, formatRFC3339, takeHour, if_neg sign, List.nil_append,
    takeNumber_padded (by decide : 0 < 4) small,
    takeNumber_padded (by decide : 0 < 2) (show (dateTime t).month < 10 ^ 2 by omega),
    takeNumber_padded (by decide : 0 < 2) (show (dateTime t).day < 10 ^ 2 by omega),
    takeNumber_padded (by decide : 0 < 2) (show (dateTime t).hour < 10 ^ 2 by omega),
    takeNumber_padded (by decide : 0 < 2) (show (dateTime t).minute < 10 ^ 2 by omega),
    takeNumber_padded (by decide : 0 < 2) (show (dateTime t).second < 10 ^ 2 by omega),
    Option.bind_eq_bind, Option.bind_some, dropMark_self, Option.some_or, same]
  rfl

/-- A year of more digits or before the year 0 is not parsed. -/
theorem takeDateTime_eq_none {t : Int} (year : ¬ FourDigits t) :
    takeDateTime (formatRFC3339 t) = none := by
  by_cases sign : (dateTime t).year < 0
  · have minus : takeNumber 4 (formatRFC3339 t) = none := by
      have none : ∀ text, ofDigits 10 digitVal ('-' :: text) = none := fun _ => rfl
      rw [formatRFC3339, takeNumber]
      simp only [if_pos sign, List.cons_append, List.take_succ_cons, none, Option.map_none, ite_self]
    rw [takeDateTime, minus]
    rfl
  · have large : 10 ^ 4 ≤ (dateTime t).year.natAbs := by
      simp only [FourDigits] at year
      omega
    have long : 4 < (padded 4 (dateTime t).year.natAbs).length := by
      have digits : ¬ (decimal (dateTime t).year.natAbs).length ≤ 4 := by
        intro short
        have := (Nat.length_toDigits_le_iff (by decide) (by decide)).mp short
        omega
      rw [padded, List.length_append]
      omega
    have noDigit : ∀ d < 10, Nat.digitChar d ≠ '-' := by decide
    -- the fifth character is a digit
    cases behind : (padded 4 (dateTime t).year.natAbs).drop 4 with
    | nil =>
      have := List.drop_eq_nil_iff.mp behind
      omega
    | cons c digits =>
      have mem : c ∈ padded 4 (dateTime t).year.natAbs :=
        List.mem_of_mem_drop (behind ▸ List.mem_cons_self)
      obtain ⟨d, small, rfl⟩ := digit_of_mem_padded mem
      have rest : ∀ tail, takeNumber 4 (padded 4 (dateTime t).year.natAbs ++ tail) = none ∨
          ∃ n, takeNumber 4 (padded 4 (dateTime t).year.natAbs ++ tail) =
            some (n, Nat.digitChar d :: (digits ++ tail)) := by
        intro tail
        rw [takeNumber, List.drop_append_of_le_length long.le, behind]
        split
        · exact .inl rfl
        · cases ofDigits 10 digitVal ((padded 4 (dateTime t).year.natAbs ++ tail).take 4) with
          | none => exact .inl rfl
          | some n => exact .inr ⟨n, rfl⟩
      simp only [formatRFC3339, if_neg sign, List.nil_append, takeDateTime]
      rcases rest _ with none | ⟨n, some⟩
      · rw [none]
        rfl
      · rw [some]
        simp only [Option.bind_eq_bind, Option.bind_some, dropMark, if_neg (noDigit d small)]
        rfl

/-- A printed instant is parsed up to its second, if its year has four digits. -/
theorem parseLayout_format {zone : List Char → Option Int} (utc : zone ['Z'] = some 0) (t : Int) :
    parseLayout zone (formatRFC3339 t) =
      if FourDigits t then some (wholeSeconds t) else none := by
  split
  · rename_i year
    have fraction : takeFraction ['Z'] = (0, ['Z']) := by decide
    rw [parseLayout, takeDateTime_format year]
    simp [fraction, utc, dateTime_valid, instant_dateTime]
  · rename_i year
    rw [parseLayout, takeDateTime_eq_none year]
    rfl

/-- The characters of printed instants -/
def textChars : List Char := "0123456789-:TZ".toList

theorem mem_formatRFC3339 {t : Int} {c : Char} (mem : c ∈ formatRFC3339 t) : c ∈ textChars := by
  have digits : ∀ d < 10, Nat.digitChar d ∈ textChars := by decide
  have number : ∀ {width n : ℕ}, c ∈ padded width n → c ∈ textChars := by
    intro width n mem
    obtain ⟨d, small, rfl⟩ := digit_of_mem_padded mem
    exact digits d small
  have marks : ∀ mark ∈ ['-', ':', 'T', 'Z'], mark ∈ textChars :=
    List.all_iff_forall_prop.mp (by decide)
  simp only [formatRFC3339, List.mem_append, List.mem_cons, List.not_mem_nil, or_false] at mem
  rcases mem with (sign | year) | rfl | month | rfl | day | rfl | hour | rfl | minute | rfl |
    second | rfl
  · split at sign
    · rw [List.mem_singleton.mp sign]
      exact marks '-' (by decide)
    · cases sign
  all_goals first | exact number ‹_› | exact marks _ (by decide)

end WgPortal.Library.Calendar
