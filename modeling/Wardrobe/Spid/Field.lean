import Wardrobe.Filter.Basic
import Wardrobe.Form.Catalog
import Wardrobe.Rule.Fault
/-
The filter fields of SPID entries.

In string and form fields a comma separates alternatives and a plus sign the parts that an
alternative joins.  A part is negated by a leading minus and made a wildcard by a star at either
end.  Level fields are ranges between commas, trait fields are flags between slashes.
-/

namespace Wardrobe
namespace Spid

/-- A star at the front, and the text without it. -/
def takeLeadingStar : Text → Bool × Text
  | '*' :: rest => (true, rest)
  | t => (false, t)

def takeFinalStar (t : Text) : Bool × Text :=
  if t.getLast? = some '*' then (true, t.dropLast) else (false, t)

def takeMinus : Text → Bool × Text
  | '-' :: rest => (true, Text.trimStart rest)
  | t => (false, t)

def readPart (token : Text) : Except FieldFault (Criterion.Part Text) :=
  let (negated, rest) := takeMinus token
  let (leading, rest) := takeLeadingStar rest
  let (final, rest) := takeFinalStar rest
  let value := Text.trim rest
  if value.isEmpty then .error (.emptyValue token) else .ok ⟨value, negated, leading || final⟩

def readAlternative (t : Text) : Except FieldFault (List (Criterion.Part Text)) :=
  (t.splitOn '+').mapM fun token => readPart (Text.trim token)

def readAlternatives (field : Text) : Except FieldFault (List (List (Criterion.Part Text))) :=
  (Text.pieces ',' field).mapM readAlternative

def readStrings (field : Text) : Except FieldFault (Criterion Text) :=
  (readAlternatives field).map .ofExpressions

/-- The reference of a part, where its literal names something. -/
def resolvePart (c : Catalog) (p : Criterion.Part Text) : Option (Criterion.Part Reference) :=
  (c.resolve p.value).map fun ref => ⟨ref, p.negated, false⟩

/-- A form field.  Literals that name nothing are left out, unless there are no others. -/
def readForms (c : Catalog) (field : Text) : Except FieldFault (Criterion Reference) := do
  let alternatives ← readAlternatives field
  let parts := alternatives.flatten
  match parts.find? (·.wildcard) with
  | some p => throw (.wildcardForm p.value)
  | none =>
    let unresolved := parts.filter fun p => (c.resolve p.value).isNone
    if !parts.isEmpty && unresolved.length == parts.length then
      throw (.unresolvedForms (unresolved.map (·.value)))
    return .ofExpressions (alternatives.map (·.filterMap (resolvePart c)))

/-! ## Levels -/

/-- A run of decimal digits of any script at the front, and what follows it. -/
def takeNumber (t : Text) : Text × Text :=
  (t.takeWhile Text.isDecimalDigit, t.dropWhile Text.isDecimalDigit)

/-- The two bounds of `low/high`, either of which may be empty, and what follows them.  White
space may stand around the slash. -/
def takeRange (t : Text) : (Text × Text) × Text :=
  let (low, rest) := takeNumber t
  match Text.trimStart rest with
  | '/' :: rest =>
    let (high, rest) := takeNumber (Text.trimStart rest)
    ((low, high), rest)
  | rest => ((low, []), rest)

/-- The index and the bounds of `index(low/high)`. -/
def skillShape? (clause : Text) : Option (Text × Text × Text) :=
  let (index, rest) := takeNumber clause
  if index.isEmpty then none
  else
    match Text.trimStart rest with
    | '(' :: rest =>
      let ((low, high), rest) := takeRange (Text.trimStart rest)
      if Text.trimStart rest = [')'] then some (index, low, high) else none
    | _ => none

def levelShape? (clause : Text) : Option (Text × Text) :=
  let (bounds, rest) := takeRange clause
  if rest.isEmpty then some bounds else none

def readBound (clause digits : Text) : Except FieldFault (Option UInt16) :=
  if digits.isEmpty then .ok none
  else
    match Text.readUInt16? digits with
    | some n => .ok (some n)
    | none => .error (.levelOutOfRange clause)

/-- The index of a skill.  An index without a value, or one too large to hold, becomes the largest
index, which is no skill. -/
def skillIndex (digits : Text) : UInt32 :=
  (Text.readUInt32? 10 digits).getD (UInt32.ofNat (UInt32.size - 1))

def readLevel (clause : Text) : Except FieldFault LevelRange := do
  match skillShape? clause with
  | some (index, low, high) =>
    let min ← readBound clause low
    let max ← readBound clause high
    return ⟨some (skillIndex index), min.getD 0, max⟩
  | none =>
    match levelShape? clause with
    | some (low, high) =>
      let min ← readBound clause low
      let max ← readBound clause high
      if min.isNone && max.isNone then throw (.invalidLevel clause)
      return ⟨none, min.getD 0, max⟩
    | none => throw (.invalidLevel clause)

def readLevels (field : Text) : Except FieldFault (List LevelRange) :=
  (Text.pieces ',' field).mapM readLevel

/-! ## Traits -/

inductive Trait where
  | female
  | unique
  | summonable
  | child
  | leveled
  deriving DecidableEq, Repr

def Trait.get (f : Traits.Wanted) : Trait → Option Bool
  | female => f.female
  | unique => f.unique
  | summonable => f.summonable
  | child => f.child
  | leveled => f.leveled

def Trait.put (f : Traits.Wanted) (value : Bool) : Trait → Traits.Wanted
  | female => { f with female := some value }
  | unique => { f with unique := some value }
  | summonable => { f with summonable := some value }
  | child => { f with child := some value }
  | leveled => { f with leveled := some value }

/-- The trait and the value of a flag.  The two letters of the sexes cannot be negated. -/
def readFlag? (token : Text) : Option (Trait × Bool) :=
  let (negated, letter) := match token with
    | '-' :: rest => (true, Text.trim rest)
    | _ => (false, token)
  match Text.asciiUpper letter, negated with
  | ['F'], false => some (.female, true)
  | ['M'], false => some (.female, false)
  | ['U'], _ => some (.unique, !negated)
  | ['S'], _ => some (.summonable, !negated)
  | ['C'], _ => some (.child, !negated)
  | ['L'], _ => some (.leveled, !negated)
  | _, _ => none

/-- Add a flag.  It may repeat what another one said but not contradict it. -/
def addFlag (f : Traits.Wanted) (token : Text) : Except FieldFault Traits.Wanted :=
  match readFlag? token with
  | none => .error (.unknownTrait token)
  | some (trait, value) =>
    if (trait.get f).all (· == value) then .ok (trait.put f value)
    else .error (.conflictingTrait token)

def readTraits (field : Text) : Except FieldFault Traits.Wanted :=
  (Text.pieces '/' field).foldlM addFlag .empty

/-! ## Chance -/

def readChance (field : Text) : Except FieldFault UInt8 :=
  (Chance.read field).mapError (.chance field)

end Spid
end Wardrobe
