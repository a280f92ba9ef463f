import SageNotation.Config.Decimal

/-!
Dates and times of day as they are written in a settings file.

A date is a year, a month and a day, divided by hyphens.  A time of day has hours,
minutes and seconds, and may have a fraction.  A date may be followed by a time,
and that by an offset.  Only the length of the spelling and whether there is such
a day are of interest.
-/

namespace SageNotation.Config

def areDigits (lowest highest : Nat) (digits : List Char) : Bool :=
  digits.all Char.isDigit && lowest ≤ decimalOf digits && decimalOf digits ≤ highest

def secondFractionLength : List Char → Nat
  | '.' :: rest =>
      let count := (rest.takeWhile Char.isDigit).length
      if count = 0 then 0 else count + 1
  | _ => 0

def timeLength? : List Char → Option Nat
  | hour :: hour' :: ':' :: minute :: minute' :: ':' :: second :: second' :: rest =>
      if areDigits 0 23 [hour, hour'] && areDigits 0 59 [minute, minute'] &&
          areDigits 0 59 [second, second'] then
        some (8 + secondFractionLength rest)
      else none
  | _ => none

def offsetLength : List Char → Nat
  | 'Z' :: _ => 1
  | 'z' :: _ => 1
  | sign :: hour :: hour' :: ':' :: minute :: minute' :: _ =>
      if (sign == '+' || sign == '-') && areDigits 0 23 [hour, hour'] &&
          areDigits 0 59 [minute, minute'] then 6
      else 0
  | _ => 0

/-- The length of a time after a date, with what joins them. -/
def joinedTimeLength : List Char → Nat
  | joiner :: rest =>
      if joiner == 'T' || joiner == 't' || joiner == ' ' then
        match timeLength? rest with
        | some length => 1 + length + offsetLength (rest.drop length)
        | none => 0
      else 0
  | [] => 0

def isLeapYear (year : Nat) : Bool :=
  year % 4 == 0 && (year % 100 != 0 || year % 400 == 0)

def daysOfMonth (year month : Nat) : Nat :=
  if month = 2 then (if isLeapYear year then 29 else 28)
  else if month = 4 ∨ month = 6 ∨ month = 9 ∨ month = 11 then 30
  else 31

/-- A date or time of day in front of a text. -/
structure Moment where
  length : Nat
  isReal : Bool
  deriving DecidableEq

namespace Moment

def ofTime? (text : List Char) : Option Moment :=
  (timeLength? text).map fun length => { length := length, isReal := true }

/-- Is there such a day?  Years count from one. -/
def isDay (year month day : Nat) : Bool :=
  1 ≤ year && day ≤ daysOfMonth year month

def ofDate? (text : List Char) : Option Moment :=
  let year := text.take 4
  match text.drop 4 with
  | '-' :: month :: month' :: '-' :: day :: day' :: rest =>
      if areDigits 0 9999 year && areDigits 1 12 [month, month'] && areDigits 1 31 [day, day'] then
        some
          { length := 10 + joinedTimeLength rest
            isReal := isDay (decimalOf year) (decimalOf [month, month']) (decimalOf [day, day']) }
      else none
  | _ => none

def ofChars? (text : List Char) : Option Moment :=
  (ofDate? text).orElse fun _ => ofTime? text

end Moment

end SageNotation.Config
