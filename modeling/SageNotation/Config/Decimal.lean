/-!
Decimal numbers by their digits, and which of them count as zero.

A decimal is kept in binary with 53 digits and an exponent of limited size, so one
that is very small becomes zero: the least number above zero is two to the power
of -1074, and half of it or less is rounded down.
-/

namespace SageNotation.Config

def decimalOf (digits : List Char) : Nat :=
  digits.foldl (fun total digit => 10 * total + (digit.toNat - 48)) 0

/-- A decimal without its sign: its digits as one number, how many were written,
and the power of ten to multiply by. -/
structure Decimal where
  digits : Nat
  count : Nat
  scale : Int
  deriving DecidableEq

namespace Decimal

def unsigned : List Char → List Char
  | '+' :: rest => rest
  | '-' :: rest => rest
  | text => text

def exponentOf : List Char → Int
  | [] => 0
  | _ :: '-' :: digits => -(decimalOf digits : Int)
  | _ :: text => decimalOf (unsigned text)

/-- The decimal that a spelling stands for.  Underscores do not count; infinities
and what is no number are no decimals. -/
def ofSpelling? (spelling : String) : Option Decimal :=
  let text := unsigned (spelling.toList.filter (· != '_'))
  let whole := text.takeWhile Char.isDigit
  let later := text.drop whole.length
  let fraction :=
    match later with
    | '.' :: rest => rest.takeWhile Char.isDigit
    | _ => []
  let exponent := later.dropWhile fun character => character == '.' || character.isDigit
  if whole.isEmpty then none
  else
    some
      { digits := decimalOf (whole ++ fraction)
        count := whole.length + fraction.length
        scale := exponentOf exponent - fraction.length }

/-- Whether a decimal is at most half of the least number above zero.  A decimal
below ten to the power of -324 is, which is seen without computing powers. -/
def isZero (decimal : Decimal) : Bool :=
  decimal.digits == 0 ||
    decimal.count + 324 ≤ -decimal.scale ||
    (decimal.scale < 0 && decimal.digits * Nat.pow 2 1075 ≤ Nat.pow 10 decimal.scale.natAbs)

end Decimal

end SageNotation.Config
