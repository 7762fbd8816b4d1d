import Wardrobe.Form.Catalog
import Wardrobe.Rule.Outcome
import Wardrobe.SkyPatcher.Field
/-
SkyPatcher lines: clauses `key=value` between colons.

Filter clauses say whom the line is for, and the clauses `outfitDefault` and `outfitSleep` say
what to wear.  Clauses of other operations are allowed and passed over.
-/

namespace Wardrobe
namespace SkyPatcher

def slotOfKey? (key : Text) : Option Slot :=
  if Text.sameAscii key "outfitDefault" then some .default
  else if Text.sameAscii key "outfitSleep" then some .sleep
  else none

inductive ClauseFilter where
  | gender (female : Bool)
  | strings (criterion : Criterion Text)
  | forms (criterion : Criterion Reference)
  deriving DecidableEq, Repr

/-- The criterion that the values of a clause make.  Exclusions are put into one expression, which
is as good as any, because they speak for the whole criterion. -/
def criterionOf (f : Field) (mode : Mode) (parts : List (Criterion.Part α)) : Criterion α :=
  match mode with
  | .anyOf => .anyOf parts
  | .excluded => .allOf parts
  | .plain => if f.asksForAll then .allOf parts else .anyOf parts

def resolveValue (c : Catalog) (f : Field) (value : Text) : Option Reference :=
  match f with
  | .form kind => c.resolveAs kind value
  | _ => (c.resolve value).filter (·.isPlugin)

/-- A clause over records or plugins.  Values that name nothing are left out, unless there are no
others. -/
def readReferences (c : Catalog) (f : Field) (mode : Mode) (key : Text)
    (values : List Text) : Except LineFault ClauseFilter :=
  let refs := values.filterMap (resolveValue c f)
  if refs.isEmpty then
    .error (.unresolvedValues key (values.filter fun v => (resolveValue c f v).isNone))
  else
    .ok (.forms (criterionOf f mode (refs.map fun r => ⟨r, mode == .excluded, false⟩)))

/-- What a filter clause asks for.  Its list of values must not be empty. -/
def readClause (c : Catalog) (f : Field) (mode : Mode) (key value : Text) :
    Except LineFault ClauseFilter :=
  let values := Text.pieces ',' value
  if values.isEmpty then .error (.noValues key)
  else
    match f with
    | .gender =>
      match values with
      | [sex] =>
        if Text.sameAscii sex "female" then .ok (.gender true)
        else if Text.sameAscii sex "male" then .ok (.gender false)
        else .error (.genderExpected key)
      | _ => .error (.genderExpected key)
    | .editorId =>
      .ok (.strings (criterionOf f mode (values.map fun v => ⟨v, mode == .excluded, true⟩)))
    | _ => readReferences c f mode key values

/-- Ask for what the clause asks for as well.  Of several sexes the last one counts. -/
def addClause (filters : Filters) : ClauseFilter → Filters
  | .gender female => { filters with traits := { filters.traits with female := some female } }
  | .strings s => { filters with strings := filters.strings.and s }
  | .forms s => { filters with forms := filters.forms.and s }

/-- Take a clause into the filters, unless it is of another sort. -/
def addKeyValue (c : Catalog) (filters : Filters) (clause : Text × Text) :
    Except LineFault Filters :=
  let (key, value) := clause
  if (slotOfKey? key).isSome then .ok filters
  else
    match readKey? key with
    | some (f, mode) => (readClause c f mode key value).map (addClause filters)
    | none => if isFilterKey key then .error (.unknownFilter key) else .ok filters

def splitClause (clause : Text) : Except LineFault (Text × Text) :=
  match Text.cutAt '=' clause with
  | some (key, value) => .ok (Text.trim key, Text.trim value)
  | none => .error (.noKeyValue clause)

def splitClauses (t : Text) : Except LineFault (List (Text × Text)) :=
  (Text.pieces ':' t).mapM splitClause

def assignments (clauses : List (Text × Text)) : List (Slot × Text) :=
  clauses.filterMap fun (key, value) => (slotOfKey? key).map fun slot => (slot, value)

def assemble (c : Catalog) (lineNumber : Nat) (raw : Text) (filters : Filters)
    (assignment : Slot × Text) : Except LineFault Rule :=
  match c.resolveAs .outfit assignment.2 with
  | some ref => .ok {
      dialect := .skyPatcher
      lineNumber
      raw
      target := .outfit assignment.1 ref
      filters
      chance := none
      extra := none }
  | none => .error (.unresolvedOutfit assignment.2)

/-- The rules of a line: one for each assignment, all with the same filters. -/
def readRules (c : Catalog) (lineNumber : Nat) (raw : Text) (clauses : List (Text × Text)) :
    Except LineFault (List Rule) := do
  let filters ← clauses.foldlM (addKeyValue c) .empty
  (assignments clauses).mapM (assemble c lineNumber raw filters)

/-- What a line comes to.  The text is trimmed and has no comment. -/
def readLine (c : Catalog) (lineNumber : Nat) (t : Text) : LineOutcome :=
  match splitClauses t with
  | .error fault => .unparseable fault
  | .ok clauses =>
    if (assignments clauses).isEmpty then .ignored .keyValue
    else
      match readRules c lineNumber t clauses with
      | .ok rules => .rules rules
      | .error fault => .unparseable fault

end SkyPatcher
end Wardrobe
