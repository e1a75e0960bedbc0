import StaffAccess.Text.Numeral

/-!
# Timestamps

Days, and moments of a day, as scalars write them.

* `Timestamp.read?`: the timestamp of a text.
* `Timestamp.isOnCalendar`: whether there is such a day and such a moment.
-/

namespace StaffAccess.Yaml

/-- A moment of a day. -/
structure Moment where
  /-- The hour. -/
  hour : Nat
  /-- The minute. -/
  minute : Nat
  /-- The second. -/
  second : Nat
  /-- How many minutes the clock differs from the common one. -/
  zone : Nat
  deriving DecidableEq, Repr

/-- A day, or a moment of it. -/
structure Timestamp where
  /-- The year. -/
  year : Nat
  /-- The month. -/
  month : Nat
  /-- The day of the month. -/
  day : Nat
  /-- The moment of the day. -/
  moment : Option Moment
  deriving DecidableEq, Repr

namespace Timestamp

/-! ## Reading -/

/-- A number of at least `least` and at most `most` digits in front, and the rest. -/
def takeNumber? (least most : Nat) (cs : List Char) : Option (Nat × List Char) :=
  let digits := (cs.take most).takeWhile Char.isDigit
  if least ≤ digits.length then some (Text.natOfDigits digits, cs.drop digits.length) else none

/-- The rest behind a character, if the text starts with it. -/
def skip? (c : Char) : List Char → Option (List Char)
  | d :: rest => if d = c then some rest else none
  | [] => none

/-- Whether a character is a space or a tab. -/
def isSpace (c : Char) : Bool := c = ' ' || c = '\t'

/-- How far the clock differs from the common one, in minutes. -/
def zone? (cs : List Char) : Option Nat :=
  match cs with
  | [] => some 0
  | _ => match cs.dropWhile isSpace with
    | ['Z'] => some 0
    | sign :: rest =>
      if sign = '+' ∨ sign = '-' then do
        let (hours, rest) ← takeNumber? 1 2 rest
        match rest with
        | [] => return 60 * hours
        | _ =>
          let (minutes, rest) ← takeNumber? 2 2 (← skip? ':' rest)
          if rest.isEmpty then return 60 * hours + minutes else none
      else none
    | [] => none

/-- The moment behind a day. -/
def moment? (cs : List Char) : Option Moment := do
  let rest ← match cs with
    | c :: rest =>
      if c = 'T' ∨ c = 't' then some rest
      else if isSpace c then some (rest.dropWhile isSpace)
      else none
    | [] => none
  let (hour, rest) ← takeNumber? 1 2 rest
  let (minute, rest) ← takeNumber? 2 2 (← skip? ':' rest)
  let (second, rest) ← takeNumber? 2 2 (← skip? ':' rest)
  let rest := match rest with
    | '.' :: more => more.dropWhile Char.isDigit
    | _ => rest
  return { hour, minute, second, zone := ← zone? rest }

/-- The timestamp of a text. A day alone has all its digits. -/
def read? (s : String) : Option Timestamp := do
  let cs := s.toList
  let (year, rest) ← takeNumber? 4 4 cs
  let (month, rest) ← takeNumber? 1 2 (← skip? '-' rest)
  let (day, rest) ← takeNumber? 1 2 (← skip? '-' rest)
  match rest with
  | [] => if cs.length = 10 then return { year, month, day, moment := none } else none
  | _ => return { year, month, day, moment := some (← moment? rest) }

/-! ## The calendar -/

/-- Whether a year has a leap day. -/
def isLeap (year : Nat) : Bool := year % 4 = 0 && (year % 100 ≠ 0 || year % 400 = 0)

/-- The number of days of a month. -/
def daysOfMonth (year month : Nat) : Nat :=
  if month = 2 then (if isLeap year then 29 else 28)
  else if [4, 6, 9, 11].contains month then 30
  else 31

/-- Whether there is such a day. -/
def isDay (t : Timestamp) : Bool :=
  1 ≤ t.year && 1 ≤ t.month && t.month ≤ 12 && 1 ≤ t.day &&
    t.day ≤ daysOfMonth t.year t.month

/-- Whether there is such a moment. -/
def isMoment (m : Moment) : Bool :=
  m.hour < 24 && m.minute < 60 && m.second < 60 && m.zone < 24 * 60

/-- Whether there is such a day and such a moment. -/
def isOnCalendar (t : Timestamp) : Bool := t.isDay && t.moment.all isMoment

/-- The digits of the day as one number. -/
def dayNumber (t : Timestamp) : Int := (t.year * 100 + t.month) * 100 + t.day

end Timestamp

end StaffAccess.Yaml
