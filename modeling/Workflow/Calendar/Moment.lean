import Workflow.Decimal.Layout
import Workflow.Text.Blank

/-!
# Moments in time

A moment is a date and a time of day in UTC, to the nanosecond. It is read from a text with an
offset and written with `Z`; a second may be the sixtieth.

* `Moment`           a valid date and time of day;
* `Moment.shift`     the moment some minutes later or earlier;
* `Moment.ofText`    the moment written by a text, or the problem with the text;
* `Moment.text`      the text of a moment, with as few triples of fraction digits as keep it.
-/

namespace Workflow.Calendar

open Decimal (padded)

/-- why a text is no moment -/
inductive Problem where
  | invalid
  | tooShort
  | tooLong
  | outOfRange
  /-- in UTC it is before the first date or after the last one -/
  | impossible
deriving DecidableEq, Repr

def Problem.message : Problem → String
  | invalid => "input contains invalid characters"
  | tooShort => "premature end of input"
  | tooLong => "trailing input"
  | outOfRange => "input is out of range"
  | impossible => "no possible date and time matching input"

def isLeapYear (year : Int) : Bool :=
  year % 4 == 0 && (year % 100 != 0 || year % 400 == 0)

def daysInMonth (year : Int) (month : Nat) : Nat :=
  if month = 2 then (if isLeapYear year then 29 else 28)
  else if month = 4 ∨ month = 6 ∨ month = 9 ∨ month = 11 then 30
  else 31

/-- the years that have dates -/
def yearInRange (year : Int) : Bool := -262143 ≤ year && year ≤ 262142

structure Date where
  year : Int
  month : Nat
  day : Nat
deriving DecidableEq, Repr

namespace Date

def isValid (d : Date) : Bool :=
  yearInRange d.year && 1 ≤ d.month && d.month ≤ 12 && 1 ≤ d.day &&
    d.day ≤ daysInMonth d.year d.month

def next (d : Date) : Date :=
  if d.day < daysInMonth d.year d.month then { d with day := d.day + 1 }
  else if d.month < 12 then ⟨d.year, d.month + 1, 1⟩
  else ⟨d.year + 1, 1, 1⟩

def previous (d : Date) : Date :=
  if 1 < d.day then { d with day := d.day - 1 }
  else if 1 < d.month then ⟨d.year, d.month - 1, daysInMonth d.year (d.month - 1)⟩
  else ⟨d.year - 1, 12, 31⟩

end Date

structure Moment where
  date : Date
  hour : Nat
  minute : Nat
  /-- up to 60 -/
  second : Nat
  nanosecond : Nat
deriving DecidableEq, Repr

namespace Moment

def isValid (m : Moment) : Bool :=
  m.date.isValid && m.hour < 24 && m.minute < 60 && m.second ≤ 60 && m.nanosecond < 1000000000

/-- the moment that many minutes later, less than a day away in either direction -/
def shift (m : Moment) (minutes : Int) : Moment :=
  let total := (m.hour * 60 + m.minute : Nat) + minutes
  let date := if total < 0 then m.date.previous else if 1440 ≤ total then m.date.next else m.date
  let ofDay := (total % 1440).toNat
  { m with date := date, hour := ofDay / 60, minute := ofDay % 60 }

/-! ## reading -/

/-- at most `limit` digits in front, one at least, and the rest -/
def digitsUpTo (limit : Nat) (cs : List Char) : Except Problem (List Char × List Char) :=
  match cs with
  | [] => .error .tooShort
  | cs =>
    let digits := (cs.take limit).takeWhile Char.isDigit
    if digits.isEmpty then .error .invalid else .ok (digits, cs.drop digits.length)

/-- a number of at most `limit` digits, white space in front -/
def number (limit : Nat) (cs : List Char) : Except Problem (Nat × List Char) := do
  let (digits, rest) ← digitsUpTo limit (Text.skipSpace cs)
  return (Nat.ofDigitChars 10 digits 0, rest)

/-- a year that is far from the first or last one is refused before what follows it is read -/
def nearYear (year : Int) : Except Problem Unit :=
  if -0x80000000 ≤ year ∧ year < 0x80000000 then .ok () else .error .outOfRange

/-- a year: four digits, or any number of them after a sign -/
def yearNumber (cs : List Char) : Except Problem (Int × List Char) := do
  match Text.skipSpace cs with
  | '-' :: rest =>
    let (digits, rest) ← digitsUpTo rest.length rest
    return (-(Nat.ofDigitChars 10 digits 0 : Int), rest)
  | '+' :: rest =>
    let (digits, rest) ← digitsUpTo rest.length rest
    return ((Nat.ofDigitChars 10 digits 0 : Int), rest)
  | cs =>
    let (digits, rest) ← digitsUpTo 4 cs
    return ((Nat.ofDigitChars 10 digits 0 : Int), rest)

/-- the mark `c`, white space in front -/
def mark (c : Char) (cs : List Char) : Except Problem (List Char) :=
  match Text.skipSpace cs with
  | [] => .error .tooShort
  | d :: rest => if d = c then .ok rest else .error .invalid

def within (low high n : Nat) : Except Problem Unit :=
  if low ≤ n ∧ n ≤ high then .ok () else .error .outOfRange

/-- nine digits of a fraction, further ones being dropped -/
def fraction (cs : List Char) : Except Problem (Nat × List Char) := do
  match cs with
  | '.' :: rest =>
    let (digits, rest) ← digitsUpTo 9 rest
    return (Nat.ofDigitChars 10 (digits.rightpad 9 '0') 0, rest.dropWhile Char.isDigit)
  | cs => return (0, cs)

/-- two digits in front; fewer than two bytes are too short for them -/
def twoDigits (cs : List Char) : Except Problem (Char × Char × List Char) :=
  match cs with
  | [] => .error .tooShort
  | [c] => .error (if c.utf8Size < 2 then .tooShort else .invalid)
  | c :: d :: rest => if c.isDigit && d.isDigit then .ok (c, d, rest) else .error .invalid

/-- an offset in minutes: `Z`, `UTC`, or a sign, two digits, colons and blanks, two digits -/
def offset (cs : List Char) : Except Problem (Int × List Char) := do
  let isUtc := (cs.take 3).map Char.toUpper == ['U', 'T', 'C']
  if isUtc then return (0, cs.drop 3)
  match cs with
  | [] => .error .tooShort
  | sign :: rest =>
    if sign = 'Z' ∨ sign = 'z' then return (0, rest)
    if sign ≠ '+' ∧ sign ≠ '-' ∧ sign ≠ '\u2212' then .error .invalid
    let (h₁, h₂, rest) ← twoDigits rest
    let (m₁, m₂, rest) ← twoDigits (rest.dropWhile fun c => c == ':' || Text.isSpace c)
    if '6' ≤ m₁ then .error .outOfRange
    let minutes : Int := Nat.ofDigitChars 10 [h₁, h₂] 0 * 60 + Nat.ofDigitChars 10 [m₁, m₂] 0
    return (if sign = '+' then minutes else -minutes, rest)

/-- the moment written by a text: a date, `T` or a blank, a time of day and an offset -/
def ofChars (cs : List Char) : Except Problem Moment := do
  let (year, cs) ← yearNumber cs
  nearYear year
  let cs ← mark '-' cs
  let (month, cs) ← number 2 cs
  within 1 12 month
  let cs ← mark '-' cs
  let (day, cs) ← number 2 cs
  within 1 31 day
  let cs ← match cs with
    | [] => .error .tooShort
    | c :: rest => if c = 't' ∨ c = 'T' ∨ c = ' ' then .ok rest else .error .invalid
  let (hour, cs) ← number 2 cs
  within 0 23 hour
  let cs ← mark ':' cs
  let (minute, cs) ← number 2 cs
  within 0 59 minute
  let cs ← mark ':' cs
  let (second, cs) ← number 2 cs
  within 0 60 second
  let (nanosecond, cs) ← fraction cs
  let (minutes, cs) ← offset (Text.skipSpace cs)
  if !(Text.skipSpace cs).isEmpty then .error .tooLong
  let local_ : Moment := ⟨⟨year, month, day⟩, hour, minute, second, nanosecond⟩
  if !local_.isValid || 1440 ≤ minutes.natAbs then .error .outOfRange
  let utc := local_.shift (-minutes)
  if utc.isValid then return utc else .error .impossible

def ofText (s : String) : Except Problem Moment := ofChars s.toList

/-! ## writing -/

/-- a year of four digits, or a signed one outside of these -/
def yearText (year : Int) : List Char :=
  if year < 0 then '-' :: padded 4 year.natAbs
  else if year ≤ 9999 then padded 4 year.natAbs
  else '+' :: padded 4 year.natAbs

/-- nothing, or a point and three, six or nine digits -/
def fractionText (nanosecond : Nat) : List Char :=
  if nanosecond = 0 then []
  else if nanosecond % 1000000 = 0 then '.' :: padded 3 (nanosecond / 1000000)
  else if nanosecond % 1000 = 0 then '.' :: padded 6 (nanosecond / 1000)
  else '.' :: padded 9 nanosecond

def chars (m : Moment) : List Char :=
  yearText m.date.year ++ '-' :: padded 2 m.date.month ++ '-' :: padded 2 m.date.day ++
    'T' :: padded 2 m.hour ++ ':' :: padded 2 m.minute ++ ':' :: padded 2 m.second ++
    fractionText m.nanosecond ++ ['Z']

def text (m : Moment) : String := String.ofList m.chars

end Moment

end Workflow.Calendar
