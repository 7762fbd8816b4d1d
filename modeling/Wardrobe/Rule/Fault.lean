import Wardrobe.Rule.Chance
import Wardrobe.Text.Number
/-
What can be wrong with a rule line, and how it is said.
-/

namespace Wardrobe

inductive FieldFault where
  | emptyValue (token : Text)
  | wildcardForm (literal : Text)
  | unresolvedForms (literals : List Text)
  | invalidLevel (clause : Text)
  | levelOutOfRange (clause : Text)
  | unknownTrait (token : Text)
  | conflictingTrait (token : Text)
  | chance (field : Text) (fault : ChanceFault)
  deriving DecidableEq, Repr

def backquoted (t : Text) : Text := "`" ++ t ++ "`"

def FieldFault.message : FieldFault → Text
  | emptyValue token => "empty filter value in " ++ backquoted token
  | wildcardForm literal =>
    "wildcard " ++ backquoted literal ++ " is only valid in string filters"
  | unresolvedForms literals =>
    "none of the form filters could be resolved: " ++ Text.joined ", " literals
  | invalidLevel clause => "invalid level filter " ++ backquoted clause
  | levelOutOfRange clause => "number out of range in " ++ backquoted clause
  | unknownTrait token => "unknown trait filter " ++ backquoted token
  | conflictingTrait token => "conflicting trait filter " ++ backquoted token
  | chance field .notANumber => "invalid chance " ++ backquoted field
  | chance field .outOfRange =>
    "chance " ++ backquoted field ++ " must be between 1 and 100"

/-- Why a line gives no rule although it looks as if it should. -/
inductive LineFault where
  | noEntry
  | unknownType (name : Text)
  | tooManyFields (count : Nat)
  | noTarget
  | unresolvedOutfit (literal : Text)
  | field (fault : FieldFault)
  | noKeyValue (clause : Text)
  | noValues (key : Text)
  | genderExpected (key : Text)
  | unresolvedValues (key : Text) (literals : List Text)
  | unknownFilter (key : Text)
  deriving DecidableEq, Repr

def maxFields : Nat := 7

def LineFault.message : LineFault → Text
  | noEntry => "expected `Type = value`"
  | unknownType name => "unknown distribution type " ++ backquoted name
  | tooManyFields count =>
    "too many fields (" ++ Text.decimal count ++ ", at most " ++ Text.decimal maxFields ++ ")"
  | noTarget => "missing distribution target"
  | unresolvedOutfit literal => "outfit " ++ backquoted literal ++ " could not be resolved"
  | field fault => fault.message
  | noKeyValue clause => "expected `key=value` in " ++ backquoted clause
  | noValues key => backquoted key ++ " has no values"
  | genderExpected key => backquoted key ++ " expects `female` or `male`"
  | unresolvedValues key literals =>
    "no value of " ++ backquoted key ++ " could be resolved: " ++ Text.joined ", " literals
  | unknownFilter key => "unknown filter " ++ backquoted key

end Wardrobe
