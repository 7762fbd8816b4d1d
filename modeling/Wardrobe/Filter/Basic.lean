import Wardrobe.Filter.Criterion
import Wardrobe.Form.Reference
import Wardrobe.Text.Case
/-
The filters of a rule: strings, forms, levels and traits.
-/

namespace Wardrobe

/-- A range of levels, or of the values of one skill where `skill` names it.  No upper bound
means that every value from `min` on is in the range. -/
structure LevelRange where
  skill : Option UInt32
  min : UInt16
  max : Option UInt16
  deriving DecidableEq, Repr

namespace LevelRange

def contains (c : LevelRange) (value : UInt16) : Bool :=
  c.min ≤ value && c.max.all (value ≤ ·)

/-- The actor values that are skills.  A clause for another index constrains nobody. -/
def isSkillIndex (index : UInt32) : Bool := 6 ≤ index && index ≤ 23

/-- The range alone: `min` or `min/max`. -/
def rangeText (c : LevelRange) : Text :=
  match c.max with
  | some max => Text.decimal c.min.toNat ++ "/" ++ Text.decimal max.toNat
  | none => Text.decimal c.min.toNat

/-- The clause as it stands in a level field: a range, or `index(range)`. -/
def text (c : LevelRange) : Text :=
  match c.skill with
  | some index => Text.decimal index.toNat ++ "(" ++ c.rangeText ++ ")"
  | none => c.rangeText

end LevelRange

/-- What a rule asks of the traits: true, false, or nothing. -/
structure Traits.Wanted where
  female : Option Bool
  unique : Option Bool
  summonable : Option Bool
  child : Option Bool
  leveled : Option Bool
  deriving DecidableEq, Repr

namespace Traits.Wanted

def empty : Traits.Wanted := ⟨none, none, none, none, none⟩

def isEmpty (t : Traits.Wanted) : Bool :=
  t.female.isNone && t.unique.isNone && t.summonable.isNone && t.child.isNone && t.leveled.isNone

/-- The flag of a trait, with a minus where the trait must be absent. -/
def flag (letter : Char) : Option Bool → List Text
  | some true => [[letter]]
  | some false => [['-', letter]]
  | none => []

/-- The flags of a trait field.  The sexes have a letter each. -/
def flags (t : Traits.Wanted) : List Text :=
  (match t.female with
    | some true => [['F']]
    | some false => [['M']]
    | none => []) ++
  flag 'U' t.unique ++ flag 'S' t.summonable ++ flag 'C' t.child ++ flag 'L' t.leveled

def text (t : Traits.Wanted) : Text := Text.joined "/" t.flags

end Traits.Wanted

structure UsedFilters where
  strings : Bool
  forms : Bool
  levels : Bool
  traits : Bool
  deriving DecidableEq, Repr

def UsedFilters.unused : UsedFilters := ⟨false, false, false, false⟩

/-- The filters of a rule, all of which have to hold. -/
structure Filters where
  strings : Criterion Text
  forms : Criterion Reference
  levels : List LevelRange
  traits : Traits.Wanted
  deriving DecidableEq, Repr

namespace Filters

def empty : Filters := ⟨.empty, .empty, [], .empty⟩

def used (f : Filters) : UsedFilters :=
  ⟨!f.strings.isEmpty, !f.forms.isEmpty, !f.levels.isEmpty, !f.traits.isEmpty⟩

/-- The rule asks for nothing and so applies to everyone. -/
def isForAll (f : Filters) : Bool :=
  f.strings.isEmpty && f.forms.isEmpty && f.levels.isEmpty && f.traits.isEmpty

/-- The tags that the rule names in full, in lower case.  These are the ones it depends on. -/
def tagsNamed (f : Filters) : List Text :=
  (f.strings.parts.filter fun p => !p.wildcard).map fun p => Text.lower p.value

end Filters
end Wardrobe
