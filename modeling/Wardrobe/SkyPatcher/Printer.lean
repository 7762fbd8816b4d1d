import Wardrobe.Distinct
import Wardrobe.Rule.Basic
import Wardrobe.SkyPatcher.Field
/-
Rules written as SkyPatcher lines, where the format can say what they mean.

A line asks for a conjunction of clauses, so alternatives have an equivalent only when they come to
one: values that all alternatives share, and for the rest every choice of one value from each
of several lists.  The lists are found by taking the alternatives apart field by field and
counting that no choice is missing.
-/

namespace Wardrobe
namespace SkyPatcher

inductive Unrepresentable where
  | keywordTarget
  | chance
  | extra
  | levels
  | traits
  | exactName (name : Text)
  | severalRequired (field : Field)
  | severalOfOneField
  | differentFields
  | noCrossProduct
  | mixedRequirement (field : Field)
  deriving DecidableEq, Repr

def quotedKey (f : Field) : Text := "`" ++ filterOpening ++ f.name ++ "`"

def Unrepresentable.message : Unrepresentable → Text
  | keywordTarget => "keyword distribution has no outfit clause"
  | chance => "chance is not supported"
  | extra => "extra field is not supported"
  | levels => "level filters are not supported"
  | traits => "only the gender trait is supported"
  | exactName name => "exact name `" ++ name ++ "` has no equivalent"
  | severalRequired f => quotedKey f ++ " cannot require several values at once"
  | severalOfOneField => "alternatives combine several values of one field"
  | differentFields => "alternatives constrain different fields"
  | noCrossProduct => "alternatives are not a cross product of per-field value lists"
  | mixedRequirement f => quotedKey f ++ " cannot mix required and alternative values"

/-- A value as it is written, under the field it belongs to. -/
structure ListedValue where
  field : Field
  literal : Text
  deriving DecidableEq, Repr

/-- The values of each clause of a line.  Functions, because clauses are only ever looked up and
extended at one field. -/
structure ClauseLists where
  plain : Field → List Text
  anyOf : Field → List Text
  excluded : Field → List Text

namespace ClauseLists

def empty : ClauseLists := ⟨fun _ => [], fun _ => [], fun _ => []⟩

/-- The value at the end of its field's list, unless one that differs in case only is there. -/
def pushAt (lists : Field → List Text) (v : ListedValue) : Field → List Text := fun f =>
  if f = v.field then
    if (lists f).any fun t => Text.sameAscii t v.literal then lists f else lists f ++ [v.literal]
  else lists f

def pushPlain (l : ClauseLists) (v : ListedValue) : ClauseLists :=
  { l with plain := pushAt l.plain v }

def pushAnyOf (l : ClauseLists) (v : ListedValue) : ClauseLists :=
  { l with anyOf := pushAt l.anyOf v }

def pushExcluded (l : ClauseLists) (v : ListedValue) : ClauseLists :=
  { l with excluded := pushAt l.excluded v }

end ClauseLists

/-- The value of a string part.  Only a search inside text has a field. -/
def stringValue (p : Criterion.Part Text) : Except Unrepresentable ListedValue :=
  if p.wildcard then .ok ⟨.editorId, p.value⟩ else .error (.exactName p.value)

def formValue (p : Criterion.Part Reference) : Except Unrepresentable ListedValue :=
  .ok ⟨.ofReference p.value, p.value.skyPatcherText⟩

/-- The alternatives of a criterion, without those that only exclude. -/
def alternatives (toValue : Criterion.Part α → Except Unrepresentable ListedValue)
    (s : Criterion α) : Except Unrepresentable (List (List ListedValue)) := do
  let values ← s.expressions.mapM fun e => (Criterion.inclusions e).mapM toValue
  return values.filter fun alternative => !alternative.isEmpty

/-! ## Taking alternatives apart -/

/-- The values of the first alternative that stand in all of them. -/
def sharedBy (alternatives : List (List ListedValue)) : List ListedValue :=
  (alternatives.headD []).filter fun v => alternatives.all (·.contains v)

/-- Put a value behind those whose fields come no later. -/
def insertByField (v : ListedValue) : List ListedValue → List ListedValue
  | [] => [v]
  | w :: rest =>
    if w.field.rank ≤ v.field.rank then w :: insertByField v rest else v :: w :: rest

/-- The values in the order of their fields, those of one field in their own order. -/
def sortByField (vs : List ListedValue) : List ListedValue :=
  vs.foldl (fun sorted v => insertByField v sorted) []

/-- What an alternative asks for besides the shared values. -/
def residual (shared alternative : List ListedValue) : List ListedValue :=
  sortByField (distinct (alternative.filter fun v => !shared.contains v))

/-- Require a shared value.  A field of which one value suffices can require only one. -/
def requireValue (l : ClauseLists) (v : ListedValue) : Except Unrepresentable ClauseLists :=
  let l := l.pushPlain v
  if !v.field.asksForAll && 1 < (l.plain v.field).length then .error (.severalRequired v.field)
  else .ok l

def hasRepeatedField : List Field → Bool
  | a :: b :: rest => a == b || hasRepeatedField (b :: rest)
  | _ => false

/-- The different values of each field, over residuals of one shape. -/
def columns (fields : List Field) (residuals : List (List ListedValue)) : List (List ListedValue) :=
  fields.map fun f => distinct (residuals.flatten.filter fun v => v.field == f)

/-- How often one value can be chosen from each column, as far as 64 bits hold the number. -/
def countChoices (columns : List (List ListedValue)) : UInt64 :=
  columns.foldl (fun n column => n * column.length.toUInt64) 1

/-- Offer a choice between the values of one field. -/
def offerChoice (l : ClauseLists) (column : Field × List ListedValue) :
    Except Unrepresentable ClauseLists :=
  let (f, values) := column
  if f.asksForAll && 1 < values.length then .ok (values.foldl ClauseLists.pushAnyOf l)
  else if 1 < values.length && !(l.plain f).isEmpty then .error (.mixedRequirement f)
  else .ok (values.foldl ClauseLists.pushPlain l)

/-- Clauses that say the same as the alternatives together. -/
def factor (l : ClauseLists) (alternatives : List (List ListedValue)) :
    Except Unrepresentable ClauseLists := do
  let shared := sharedBy alternatives
  let residuals := alternatives.map (residual shared)
  let l ← shared.foldlM requireValue l
  if residuals.all (·.isEmpty) then return l
  let fields := (residuals.headD []).map (·.field)
  if hasRepeatedField fields then throw .severalOfOneField
  if residuals.any fun r => r.map (·.field) != fields then throw .differentFields
  let columns := columns fields residuals
  if countChoices columns != (distinct residuals).length.toUInt64 then throw .noCrossProduct
  (fields.zip columns).foldlM offerChoice l

/-! ## Writing lines -/

def clause (key : Text) (values : List Text) : List Text :=
  if values.isEmpty then [] else [key ++ "=" ++ Text.joined "," values]

def fieldClauses (l : ClauseLists) (female : Option Bool) (f : Field) : List Text :=
  let key := filterOpening ++ f.name
  if f = .gender then
    match female with
    | some true => [key ++ "=female"]
    | some false => [key ++ "=male"]
    | none => []
  else
    clause key (l.plain f) ++ clause (key ++ orEnding) (l.anyOf f) ++
      clause (key ++ excludedEnding) (l.excluded f)

def assignmentKey : Slot → Text
  | .default => "outfitDefault"
  | .sleep => "outfitSleep"

/-- The traits that no line can ask for are left free. -/
def onlyGender (t : Traits.Wanted) : Bool :=
  t.unique.isNone && t.summonable.isNone && t.child.isNone && t.leveled.isNone

def clauseLists (f : Filters) : Except Unrepresentable ClauseLists := do
  let excludedStrings ← f.strings.excluded.mapM stringValue
  let strings ← alternatives stringValue f.strings
  let excludedForms ← f.forms.excluded.mapM formValue
  let forms ← alternatives formValue f.forms
  let l := (excludedStrings ++ excludedForms).foldl ClauseLists.pushExcluded .empty
  let l ← factor l strings
  factor l forms

def render (r : Rule) : Except Unrepresentable Text := do
  match r.target with
  | .keyword _ => throw .keywordTarget
  | .outfit slot outfit =>
    if !r.isCertain then throw .chance
    if r.extra.isSome then throw .extra
    if !r.filters.levels.isEmpty then throw .levels
    if !onlyGender r.filters.traits then throw .traits
    let l ← clauseLists r.filters
    let filters := Field.all.flatMap (fieldClauses l r.filters.traits.female)
    return Text.joined ":"
      (filters ++ [assignmentKey slot ++ "=" ++ outfit.skyPatcherText])

end SkyPatcher
end Wardrobe
