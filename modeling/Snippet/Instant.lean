/-!
# Points in time

An instant counts seconds since the start of 1970 and nanoseconds within the second. Its written
form is the date and time in UTC. Days are counted in years that start with March, so that a leap
day is the last day of its year and the lengths of the months before it do not depend on it.
-/

namespace Snippet

/-- A point in time, to the nanosecond. -/
structure Instant where
  seconds : Int
  nanos : Fin 1000000000
  deriving DecidableEq, Repr, Inhabited

/-- A day of the Gregorian calendar. -/
structure CalendarDate where
  year : Int
  month : Nat
  day : Nat
  deriving DecidableEq, Repr, Inhabited

namespace CalendarDate

/-- The date of a day, counted from the first of January 1970. -/
def ofDays (days : Int) : CalendarDate :=
  let shifted := days + 719468
  let era := shifted / 146097
  let dayOfEra := (shifted % 146097).toNat
  let yearOfEra := (dayOfEra - dayOfEra / 1460 + dayOfEra / 36524 - dayOfEra / 146096) / 365
  let dayOfYear := dayOfEra - (365 * yearOfEra + yearOfEra / 4 - yearOfEra / 100)
  let monthFromMarch := (5 * dayOfYear + 2) / 153
  let day := dayOfYear - (153 * monthFromMarch + 2) / 5 + 1
  let month := if monthFromMarch < 10 then monthFromMarch + 3 else monthFromMarch - 9
  let year : Int := yearOfEra + era * 400
  ⟨if month ≤ 2 then year + 1 else year, month, day⟩

/-- The day of a date, counted from the first of January 1970. -/
def toDays (date : CalendarDate) : Int :=
  let year := if date.month ≤ 2 then date.year - 1 else date.year
  let era := year / 400
  let yearOfEra := year % 400
  let monthFromMarch : Int := if date.month ≤ 2 then date.month + 9 else date.month - 3
  let dayOfYear := (153 * monthFromMarch + 2) / 5 + date.day - 1
  let dayOfEra := yearOfEra * 365 + yearOfEra / 4 - yearOfEra / 100 + dayOfYear
  era * 146097 + dayOfEra - 719468

end CalendarDate

namespace Instant

/-- The digits of a number, with zeros in front up to a width. -/
def padded (width n : Nat) : List Char :=
  let digits := (Nat.repr n).toList
  List.replicate (width - digits.length) '0' ++ digits

/-- A year has four digits, and a sign if it has more or is negative. -/
def yearText (year : Int) : List Char :=
  if 0 ≤ year ∧ year ≤ 9999 then padded 4 year.toNat
  else (if year < 0 then '-' else '+') :: padded 4 year.natAbs

/-- The part of a second is written with as few of no, three, six or nine digits as it needs. -/
def fractionText (nanos : Nat) : List Char :=
  if nanos = 0 then []
  else if nanos % 1000000 = 0 then '.' :: padded 3 (nanos / 1000000)
  else if nanos % 1000 = 0 then '.' :: padded 6 (nanos / 1000)
  else '.' :: padded 9 nanos

/-- The date and time of an instant in UTC. -/
def text (t : Instant) : String :=
  let date := CalendarDate.ofDays (t.seconds / 86400)
  let second := (t.seconds % 86400).toNat
  String.ofList (yearText date.year ++ '-' :: padded 2 date.month ++ '-' :: padded 2 date.day ++
    'T' :: padded 2 (second / 3600) ++ ':' :: padded 2 (second / 60 % 60) ++
    ':' :: padded 2 (second % 60) ++ fractionText t.nanos ++ ['Z'])

/-- The number that digits denote. -/
def number (digits : List Char) : Nat :=
  digits.foldl (fun n c ↦ 10 * n + (c.toNat - '0'.toNat)) 0

/-- Reads two digits and the character behind them. -/
def twoDigits? (mark : Char) : List Char → Option (Nat × List Char)
  | a :: b :: c :: rest =>
    if a.isDigit ∧ b.isDigit ∧ c = mark then some (number [a, b], rest) else none
  | _ => none

/-- Reads a year and the hyphen behind it. -/
def year? (s : List Char) : Option (Int × List Char) :=
  let negative := s.head? == some '-'
  let s := if negative ∨ s.head? == some '+' then s.drop 1 else s
  match s.takeWhile Char.isDigit, s.dropWhile Char.isDigit with
  | digits, '-' :: rest =>
    if digits.length < 4 then none
    else some (if negative then -(number digits : Int) else number digits, rest)
  | _, _ => none

/-- Reads the part of a second and the end of the text. -/
def fraction? : List Char → Option (Fin 1000000000)
  | ['Z'] => some 0
  | '.' :: rest =>
    match rest.takeWhile Char.isDigit, rest.dropWhile Char.isDigit with
    | [], _ => none
    | digits, ['Z'] => some (Fin.ofNat _ (number ((digits ++ List.replicate 9 '0').take 9)))
    | _, _ => none
  | _ => none

/-- The instant that a date and time in UTC denotes. -/
def ofText? (s : String) : Option Instant := do
  let (year, rest) ← year? s.toList
  let (month, rest) ← twoDigits? '-' rest
  let (day, rest) ← twoDigits? 'T' rest
  let (hour, rest) ← twoDigits? ':' rest
  let (minute, rest) ← twoDigits? ':' rest
  let (a, b, rest) ←
    match rest with
    | a :: b :: rest => if a.isDigit ∧ b.isDigit then some (a, b, rest) else none
    | _ => none
  let nanos ← fraction? rest
  let date : CalendarDate := ⟨year, month, day⟩
  if month < 1 ∨ 12 < month ∨ hour > 23 ∨ minute > 59 ∨ number [a, b] > 59 then none
  else if CalendarDate.ofDays date.toDays ≠ date then none
  else
    some ⟨date.toDays * 86400 + hour * 3600 + minute * 60 + number [a, b], nanos⟩

end Instant

end Snippet
