import Wardrobe.Number.Binary32
import Wardrobe.Number.Decimal
/-
The chance of a rule, a whole percentage from 1 to 100.
-/

namespace Wardrobe

inductive ChanceFault where
  | notANumber
  | outOfRange
  deriving DecidableEq, Repr

namespace Chance

/-- A fraction to the nearest whole number, a half going up. -/
def roundHalfUp (num den : Nat) : Nat := (2 * num + den) / (2 * den)

/-- A percentage in text.  The number is taken in single precision, has to be above 0 and at most
100, and is rounded to a whole percentage of at least 1. -/
def read (t : Text) : Except ChanceFault UInt8 :=
  match Numeral.read? t with
  | none => .error .notANumber
  | some (.decimal false digits exponent) =>
    match (Binary32.ofDecimal digits exponent).fraction? with
    | none => .error .outOfRange
    | some (num, den) =>
      if 0 < num ∧ num ≤ 100 * den then .ok (UInt8.ofNat (max 1 (roundHalfUp num den)))
      else .error .outOfRange
  | some _ => .error .outOfRange

end Chance
end Wardrobe
