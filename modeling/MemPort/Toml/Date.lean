import MemPort.Toml.Scalar

/-!
# Dates and times

A date, a time of day or both, with a distance from the meridian or without.  A
date is kept as its normal form: a `T` between its parts, seconds to at most
nine digits and without zeros at their end, and a distance of nothing with a
plus.

Dates are written in a document, and in the text of a field that marks a table
as a date.  Both are read by the same rules, but a text has to be a date to its
end.

## Main definitions

* `Toml.date`, `Toml.time`, `Toml.offset` — the parts of a date.
* `Toml.moment` — a date, a time or both, as its normal form.
* `Toml.dateTime` — a date of a document.
* `Toml.dateOfText?` — a date that is a text of its own.

## References

`SPEC_FULL.md`, section 10.4: the configuration is a TOML document, which may
hold dates that no setting uses.
-/

namespace MemPort

namespace Toml

open Scanner

/-! ### Parts -/

/-- A number of exactly so many digits, from `lo` to `hi`. -/
def fixedNumber (length lo hi : Nat) : Scanner Nat := do
  let n := digitsValue 10 (← times Char.isDigit length)
  require (lo ≤ n && n ≤ hi)
  return n

/-- A number with at least so many digits. -/
def paddedText (width n : Nat) : String :=
  let ds := Nat.toDigits 10 n
  String.ofList (List.replicate (width - ds.length) '0' ++ ds)

/-- The days of a month. -/
def daysOf (year month : Nat) : Nat :=
  if month = 2 then
    if year % 4 = 0 && (year % 100 ≠ 0 || year % 400 = 0) then 29 else 28
  else if month = 4 || month = 6 || month = 9 || month = 11 then 30
  else 31

/-- A day of the calendar. -/
def date : Scanner String := do
  let year ← fixedNumber 4 0 9999
  one '-'
  let month ← fixedNumber 2 1 12
  one '-'
  let day ← fixedNumber 2 1 (daysOf year month)
  return s!"{paddedText 4 year}-{paddedText 2 month}-{paddedText 2 day}"

/-- The part of a second, to nine digits and without zeros at its end. -/
def secondFraction : Scanner String := do
  one '.'
  let ds ← run1 Char.isDigit
  let kept := ((ds.take 9).reverse.dropWhile (· == '0')).reverse
  return if kept.isEmpty then "" else "." ++ String.ofList kept

/-- A time of day. -/
def time : Scanner String := do
  let hour ← fixedNumber 2 0 23
  one ':'
  let minute ← fixedNumber 2 0 59
  one ':'
  let second ← fixedNumber 2 0 60
  let part := (← opt secondFraction).getD ""
  return s!"{paddedText 2 hour}:{paddedText 2 minute}:{paddedText 2 second}{part}"

/-- The distance of a time from the meridian. -/
def offset : Scanner String :=
  (do
    one 'Z' <|> one 'z'
    return "Z") <|> (do
    let isNegative ← (do one '-'; return true) <|> (do one '+'; return false)
    let hour ← fixedNumber 2 0 23
    one ':'
    let minute ← fixedNumber 2 0 59
    let mark := if isNegative && (hour ≠ 0 || minute ≠ 0) then "-" else "+"
    return s!"{mark}{paddedText 2 hour}:{paddedText 2 minute}")

/-! ### Dates -/

/-- A date, a time or both. -/
def moment : Scanner String :=
  (do
    let day ← date
    let rest ← opt do
      one 'T' <|> one 't' <|> one ' '
      let clock ← time
      let zone := (← opt offset).getD ""
      return s!"T{clock}{zone}"
    return day ++ rest.getD "") <|> time

/-- A date of a document. -/
def dateTime : Scanner Toml := do
  return .datetime (← moment)

/-- A date that is a text of its own. -/
def dateOfText? (text : String) : Option String :=
  match moment text.toList with
  | some (normal, []) => some normal
  | _ => none

end Toml

end MemPort
