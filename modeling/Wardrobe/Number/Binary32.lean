/-
The nearest number of single precision.

A single-precision number has a significand of 24 bits.  The nearest one to a ratio of whole
numbers is found in exact arithmetic; a ratio halfway between two goes to the even significand.
-/

namespace Wardrobe

/-- A single-precision number that is not negative: `significand * 2 ^ exponent`, or infinity. -/
inductive Binary32 where
  | finite (significand : Nat) (exponent : Int)
  | infinity
  deriving DecidableEq, Repr

namespace Binary32

/-- A power of a base, by the plain function and not through an overloaded operator. -/
abbrev powerOf (base n : Nat) : Nat := Nat.pow base n

/-- `num / den` to the nearest whole number, a half going to the even neighbour. -/
def roundEven (num den : Nat) : Nat :=
  let q := num / den
  let r := num % den
  if den < 2 * r ∨ (2 * r = den ∧ q % 2 = 1) then q + 1 else q

/-- `num / den` in units of `2 ^ e`, as a fraction. -/
def scaled (num den : Nat) (e : Int) : Nat × Nat :=
  if 0 ≤ e then (num, den * powerOf 2 e.toNat) else (num * powerOf 2 (-e).toNat, den)

/-- The exponent at which `num / den` has 24 bits before the point, but none below the exponent
of the smallest numbers. -/
def exponentFor (num den : Nat) : Int :=
  let low : Int := (Nat.log2 num : Int) - (Nat.log2 den : Int) - 24
  let (n, d) := scaled num den low
  max (-149) (if n / d < powerOf 2 24 then low else low + 1)

/-- The nearest single-precision number to `num / den`, where `den` is positive. -/
def nearest (num den : Nat) : Binary32 :=
  if num = 0 then .finite 0 0
  else
    let e := exponentFor num den
    let (n, d) := scaled num den e
    let m := roundEven n d
    if 127 < e + Nat.log2 m then .infinity else .finite m e

def fraction? : Binary32 → Option (Nat × Nat)
  | finite m e => some (if 0 ≤ e then (m * powerOf 2 e.toNat, 1) else (m, powerOf 2 (-e).toNat))
  | infinity => none

/-- The nearest single-precision number to `digits * 10 ^ exponent`.  Far above and far below the
range of single precision the answer is known without computing the power of ten. -/
def ofDecimal (digits : Nat) (exponent : Int) : Binary32 :=
  let size : Int := (Nat.toDigits 10 digits).length + exponent
  if digits = 0 then .finite 0 0
  else if 50 < size then .infinity
  else if size < -60 then .finite 0 0
  else if 0 ≤ exponent then nearest (digits * powerOf 10 exponent.toNat) 1
  else nearest digits (powerOf 10 (-exponent).toNat)

end Binary32
end Wardrobe
