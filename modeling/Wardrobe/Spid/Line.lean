import Wardrobe.Rule.Outcome
import Wardrobe.Spid.Field
/-
SPID entries: `Type = target|strings|forms|levels|traits|extra|chance`.

Fields at the end may be missing, and a gap before them is filled with `NONE`.
-/

namespace Wardrobe

namespace Spid

/-- The distributions that concern outfits. -/
inductive EntryKind where
  | outfit (slot : Slot)
  | keyword
  deriving DecidableEq, Repr

def EntryKind.name : EntryKind → Text
  | outfit .default => "Outfit"
  | outfit .sleep => "SleepOutfit"
  | keyword => "Keyword"

/-- Distributions of other things, which are valid lines and none of our concern. -/
def otherTypes : List Text :=
  ["spell", "perk", "item", "shout", "levspell", "package", "faction", "deathitem", "skin",
   "exclusivegroup"]

def entryKind? (name : Text) : Option EntryKind :=
  if name = "outfit".toList then some (.outfit .default)
  else if name = "sleepoutfit".toList then some (.outfit .sleep)
  else if name = "keyword".toList then some .keyword
  else none

/-- The two sides of `Type = value`.  The type is a word of ASCII letters, and the value stays on
one line. -/
def entryShape? (t : Text) : Option (Text × Text) :=
  let name := t.takeWhile Text.isAsciiLetter
  if name.isEmpty then none
  else
    match Text.trimStart (t.dropWhile Text.isAsciiLetter) with
    | '=' :: rest =>
      let value := Text.trimStart rest
      if value.contains '\n' then none else some (name, value)
    | _ => none

/-- Fills the place of a field that is not given. -/
def gap : Text := "NONE"

def isGap (field : Text) : Bool := field.isEmpty || Text.sameAscii field gap

def splitFields (value : Text) : List Text := (value.splitOn '|').map Text.trim

/-- The field at a position, unless it is missing or a gap. -/
def field? (fields : List Text) (i : Nat) : Option Text :=
  fields[i]?.filter fun f => !isGap f

/-- Read a field, or take the value for a field that is not given. -/
def readOr (absent : α) (read : Text → Except FieldFault α) (field : Option Text) :
    Except LineFault α :=
  match field with
  | some t => (read t).mapError .field
  | none => .ok absent

/-- The tag of a keyword target: a known keyword keeps the spelling of its editor id. -/
def tagNamed (c : Catalog) (literal : Text) : Text :=
  ((c.resolveAs .keyword literal).bind (·.editorId?)).getD literal

def readTarget (c : Catalog) (type : EntryKind) (literal : Text) : Except LineFault Target :=
  match type with
  | .outfit slot =>
    match c.resolveAs .outfit literal with
    | some ref => .ok (.outfit slot ref)
    | none => .error (.unresolvedOutfit literal)
  | .keyword => .ok (.keyword (tagNamed c literal))

def assemble (c : Catalog) (lineNumber : Nat) (raw : Text) (type : EntryKind) (value : Text) :
    Except LineFault Rule := do
  let fields := splitFields value
  if maxFields < fields.length then throw (.tooManyFields fields.length)
  match field? fields 0 with
  | none => throw .noTarget
  | some literal =>
    let target ← readTarget c type literal
    let strings ← readOr .empty readStrings (field? fields 1)
    let forms ← readOr .empty (readForms c) (field? fields 2)
    let levels ← readOr [] readLevels (field? fields 3)
    let traits ← readOr .empty readTraits (field? fields 4)
    let chance ← readOr none (fun t => (readChance t).map some) (field? fields 6)
    return {
      dialect := .spid
      lineNumber
      raw
      target
      filters := { strings, forms, levels, traits }
      chance
      extra := field? fields 5 }

/-- What an entry comes to.  The text is trimmed and has no comment. -/
def readLine (c : Catalog) (lineNumber : Nat) (t : Text) : LineOutcome :=
  match entryShape? t with
  | none => .unparseable .noEntry
  | some (name, value) =>
    let folded := Text.asciiLower name
    match entryKind? folded with
    | some type =>
      match assemble c lineNumber t type (Text.trim value) with
      | .ok rule => .rules [rule]
      | .error fault => .unparseable fault
    | none =>
      if otherTypes.contains folded then .ignored .keyValue
      else .unparseable (.unknownType name)

end Spid
end Wardrobe
