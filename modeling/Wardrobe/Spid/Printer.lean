import Wardrobe.Spid.Line
/-
Rules written as SPID entries.
-/

namespace Wardrobe
namespace Spid

/-- A part: a minus where it is negated, its literal, a star where it is a wildcard. -/
def partText (literal : α → Text) (p : Criterion.Part α) : Text :=
  (if p.negated then ['-'] else []) ++ literal p.value ++ (if p.wildcard then ['*'] else [])

def alternativeText (literal : α → Text) (e : List (Criterion.Part α)) : Text :=
  Text.joined "+" (e.map (partText literal))

/-- A string or form field, unless the criterion asks for nothing. -/
def criterionText? (literal : α → Text) (s : Criterion α) : Option Text :=
  if s.isEmpty then none
  else some (Text.joined "," (s.expressions.map (alternativeText literal)))

def levelsText? (levels : List LevelRange) : Option Text :=
  if levels.isEmpty then none else some (Text.joined "," (levels.map (·.text)))

def traitsText? (traits : Traits.Wanted) : Option Text :=
  if traits.isEmpty then none else some traits.text

def targetType : Target → EntryKind
  | .outfit slot _ => .outfit slot
  | .keyword _ => .keyword

def targetText : Target → Text
  | .outfit _ ref => ref.spidText
  | .keyword tag => tag

/-- The fields after the target, in order. -/
def optionalFields (r : Rule) : List (Option Text) :=
  [criterionText? id r.filters.strings,
   criterionText? Reference.spidText r.filters.forms,
   levelsText? r.filters.levels,
   traitsText? r.filters.traits,
   r.extra,
   r.chance.map fun chance => Text.decimal chance.toNat]

/-- The list without its missing fields at the end. -/
def dropMissingEnd (fields : List (Option Text)) : List (Option Text) :=
  (fields.reverse.dropWhile Option.isNone).reverse

/-- The rule as an entry: trailing fields that are missing are left out, others are filled. -/
def render (r : Rule) : Text :=
  let fields := targetText r.target ::
    (dropMissingEnd (optionalFields r)).map fun f => f.getD gap
  (targetType r.target).name ++ " = " ++ Text.joined "|" fields

end Spid
end Wardrobe
