import Wardrobe.Text.Case
import Wardrobe.Text.Number
/-
Decimal numerals with a point and an exponent.
-/

namespace Wardrobe

/-- What a numeral says: a decimal number `± digits * 10 ^ exponent`, or one of the two words that
floating-point numbers add to the decimal ones. -/
inductive Numeral where
  | decimal (negative : Bool) (digits : Nat) (exponent : Int)
  | infinity (negative : Bool)
  | notANumber
  deriving DecidableEq, Repr

namespace Numeral

def takeDigits (t : Text) : Text × Text := (t.takeWhile Char.isDigit, t.dropWhile Char.isDigit)

def ofDigits (t : Text) : Nat := Nat.ofDigitChars 10 t 0

/-- A sign at the front, true for minus, and what follows it. -/
def takeSign : Text → Bool × Text
  | '-' :: rest => (true, rest)
  | '+' :: rest => (false, rest)
  | rest => (false, rest)

/-- The exponent part: nothing, or `e` with at least one digit after an optional sign. -/
def readExponent? : Text → Option Int
  | [] => some 0
  | c :: rest =>
    if c = 'e' ∨ c = 'E' then
      let (negative, rest) := takeSign rest
      let (digits, rest) := takeDigits rest
      if digits.isEmpty || !rest.isEmpty then none
      else some (if negative then -(ofDigits digits : Int) else ofDigits digits)
    else none

/-- Digits with at most one point, at least one digit in all, then an exponent. -/
def readDecimal? (negative : Bool) (t : Text) : Option Numeral :=
  let (whole, rest) := takeDigits t
  let (fraction, rest) := match rest with
    | '.' :: rest => takeDigits rest
    | _ => ([], rest)
  if whole.isEmpty && fraction.isEmpty then none
  else
    (readExponent? rest).map fun e =>
      .decimal negative (ofDigits (whole ++ fraction)) (e - fraction.length)

/-- A numeral, the two words in any case. -/
def read? (t : Text) : Option Numeral :=
  let (negative, rest) := takeSign t
  let word := Text.asciiLower rest
  if word = "inf".toList ∨ word = "infinity".toList then some (.infinity negative)
  else if word = "nan".toList then some .notANumber
  else readDecimal? negative rest

end Numeral
end Wardrobe
