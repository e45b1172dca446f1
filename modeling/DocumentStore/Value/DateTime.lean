import DocumentStore.Number.Numeral
import DocumentStore.Text.Blank

/-!
# Dates and times in text

A date, a time of day and an offset from universal time stand for the milliseconds
since the start of 1970.  Years have four digits, and the calendar is the Gregorian
one throughout.
-/

namespace DocumentStore

/-- A date and a time of day as a clock shows it, `offset` minutes ahead of universal
time.  A leap second has the number 60. -/
structure DateTime where
  year : Nat
  month : Nat
  day : Nat
  hour : Nat
  minute : Nat
  second : Nat
  nanosecond : Nat
  offset : Int
deriving DecidableEq, Repr

namespace DateTime

/-! ## The calendar -/

def isLeapYear (year : Nat) : Bool :=
  year % 4 == 0 && (year % 100 != 0 || year % 400 == 0)

def monthLength (year month : Nat) : Nat :=
  if month = 2 then if isLeapYear year then 29 else 28
  else if month = 4 ∨ month = 6 ∨ month = 9 ∨ month = 11 then 30
  else 31

/-- The days of the first months of a year. -/
def monthsLength (year : Nat) : Nat → Nat
  | 0 => 0
  | months + 1 => monthsLength year months + monthLength year (months + 1)

/-- The days of the years from 0 up to below `year`. -/
def yearsLength (year : Nat) : Nat :=
  365 * year + (year + 3) / 4 - (year + 99) / 100 + (year + 399) / 400

def dayNumber (year month day : Nat) : Nat :=
  yearsLength year + monthsLength year (month - 1) + (day - 1)

def firstDay : Nat := dayNumber 1970 1 1

def secondsPerDay : Nat := 86400

/-! ## Instants -/

/-- Whole seconds since the start of 1970; a leap second counts as the one before it. -/
def seconds (t : DateTime) : Int :=
  ((dayNumber t.year t.month t.day : Int) - firstDay) * secondsPerDay
    + t.hour * 3600 + t.minute * 60 + min t.second 59 - t.offset * 60

/-- Whether a month of universal time ends with the second that is shown. -/
def endsMonth (t : DateTime) : Bool :=
  let next := t.seconds + 1 + firstDay * secondsPerDay
  let ofMonth : Nat := dayNumber t.year t.month 1
  next == ofMonth * secondsPerDay
    || next == (ofMonth + monthLength t.year t.month : Nat) * secondsPerDay

def isValid (t : DateTime) : Bool :=
  1 ≤ t.month && t.month ≤ 12 && 1 ≤ t.day && t.day ≤ monthLength t.year t.month
    && t.hour < 24 && t.minute < 60 && (t.second < 60 || t.second == 60 && t.endsMonth)

/-- Milliseconds since the start of 1970, a part of one being dropped. -/
def milliseconds (t : DateTime) : Int :=
  let nanosecond := if t.second = 60 then 999999999 else t.nanosecond
  (t.seconds * 1000000000 + nanosecond).tdiv 1000000

/-! ## Reading -/

/-- A number of just so many digits, and the rest behind it. -/
def takeNumber? (width : Nat) (cs : List Char) : Option (Nat × List Char) :=
  let digits := cs.take width
  if digits.length = width ∧ digits.all Char.isDigit then
    some (Decimal.ofDigits digits, cs.drop width)
  else none

/-- The nanoseconds behind a point, of which nine digits count. -/
def takeNanosecond? : List Char → Option (Nat × List Char)
  | '.' :: rest =>
    let (digits, rest) := Numeral.takeDigits rest
    if digits.isEmpty then none
    else some (Decimal.ofDigits ((digits ++ List.replicate 9 '0').take 9), rest)
  | rest => some (0, rest)

def readOffset? : List Char → Option Int
  | ['Z'] => some 0
  | ['z'] => some 0
  | sign :: rest => do
    let (hours, rest) ← takeNumber? 2 rest
    let (minutes, rest) ← takeNumber? 2 (← Text.dropStart? [':'] rest)
    let offset : Int := hours * 60 + minutes
    if 24 ≤ hours ∨ 60 ≤ minutes ∨ !rest.isEmpty then none
    else if sign = '+' then return offset
    else if sign = '-' then return -offset
    else none
  | [] => none

/-- Any ASCII character may stand between the date and the time of day. -/
def read? (cs : List Char) : Option DateTime := do
  let (year, rest) ← takeNumber? 4 cs
  let (month, rest) ← takeNumber? 2 (← Text.dropStart? ['-'] rest)
  let (day, rest) ← takeNumber? 2 (← Text.dropStart? ['-'] rest)
  let separator :: rest := rest | none
  let (hour, rest) ← takeNumber? 2 rest
  let (minute, rest) ← takeNumber? 2 (← Text.dropStart? [':'] rest)
  let (second, rest) ← takeNumber? 2 (← Text.dropStart? [':'] rest)
  let (nanosecond, rest) ← takeNanosecond? rest
  let offset ← readOffset? rest
  let t : DateTime := { year, month, day, hour, minute, second, nanosecond, offset }
  if separator.toNat < 128 && t.isValid then some t else none

end DateTime

end DocumentStore
