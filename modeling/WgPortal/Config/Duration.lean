import WgPortal.Domain.Interface

/-! Durations in configuration values: `time.ParseDuration`, and days. -/

namespace WgPortal.Config

open Domain Library.NetIP

/-- The nanoseconds of a unit -/
def unitMap (unit : String) : Option ℕ :=
  match unit with
  | "ns" => some 1
  | "us" | "µs" | "μs" => some 1000
  | "ms" => some 1000000
  | "s" => some 1000000000
  | "m" => some 60000000000
  | "h" => some 3600000000000
  | _ => none

def isDigit (c : Char) : Bool := (digitVal c).isSome

/-- A number, which may have a fraction, and its unit, in whole nanoseconds. -/
def leadingPart (text : List Char) : Option (ℕ × List Char) := do
  let whole := text.takeWhile isDigit
  let rest := text.drop whole.length
  let fraction := if rest.head? = some '.' then (rest.drop 1).takeWhile isDigit else []
  let rest := if rest.head? = some '.' then rest.drop (fraction.length + 1) else rest
  if whole = [] ∧ fraction = [] then none
  let unit := rest.takeWhile fun c => c ≠ '.' && !isDigit c
  let nanoseconds ← unitMap (String.ofList unit)
  let v ← ofDigits 10 digitVal whole
  let f ← ofDigits 10 digitVal fraction
  let total := v * nanoseconds + f * nanoseconds / 10 ^ fraction.length
  if 2 ^ 63 < total then none
  return (total, rest.drop unit.length)

/-- The sum of all parts; each takes at least one character. -/
def sumOfParts : ℕ → List Char → Option ℕ
  | _, [] => some 0
  | 0, _ => none
  | fuel + 1, text => do
    let (first, rest) ← leadingPart text
    let others ← sumOfParts fuel rest
    if 2 ^ 63 < first + others then none
    return first + others

/-- `time.ParseDuration` -/
def parseDuration (s : String) : Option Duration :=
  let text := s.toList
  let neg := text.head? = some '-'
  let text := if neg ∨ text.head? = some '+' then text.drop 1 else text
  if text = ['0'] then some 0
  else if text = [] then none
  else
    match sumOfParts text.length text with
    | none => none
    | some d => if neg then some (-d) else if 2 ^ 63 ≤ d then none else some d

/-- The value of an `int64` -/
def wrapInt64 (n : Int) : Int := (n + 2 ^ 63) % 2 ^ 64 - 2 ^ 63

def parseDurationWithDays (s : String) : Option Duration :=
  if s = "" then some 0
  else
    match s.toList.reverse with
    | 'd' :: daysStr =>
      match Interface.signedDecimal daysStr.reverse with
      | none => none
      | some days =>
        if days < 0 ∨ 2 ^ 63 ≤ days then none else some (wrapInt64 (days * 24 * hour))
    | _ =>
      match parseDuration s with
      | none => none
      | some duration => if duration < 0 then none else some duration

example : parseDurationWithDays "30d" = parseDurationWithDays "1.5h718h30m" := by decide

end WgPortal.Config
