import Wardrobe.Filter.Basic
/-
The filter fields of SkyPatcher lines and the keys that stand for them.

A key is `filterBy`, the name of a field and perhaps an ending.  `Or` turns a field whose values
all have to be there into one of which one suffices, and `Excluded` turns the values into
exclusions.
-/

namespace Wardrobe
namespace SkyPatcher

/-- What a filter clause looks at: records of one kind, the plugin, part of an editor id or other
text, or the sex. -/
inductive Field where
  | form (kind : Form.Kind)
  | plugin
  | editorId
  | gender
  deriving DecidableEq, Repr

/-- How a clause is to be taken. -/
inductive Mode where
  | plain
  | anyOf
  | excluded
  deriving DecidableEq, Repr

namespace Field

/-- All fields, in the order in which they are written. -/
def all : List Field :=
  [form .npc, form .faction, form .keyword, form .race, form .combatClass, form .outfit,
   form .combatStyle, form .voiceType, plugin, editorId, gender]

def name : Field → Text
  | form .npc => "Npcs"
  | form .faction => "Factions"
  | form .keyword => "Keywords"
  | form .race => "Races"
  | form .combatClass => "Classes"
  | form .outfit => "Outfits"
  | form .combatStyle => "CombatStyles"
  | form .voiceType => "VoiceTypes"
  | plugin => "ModNames"
  | editorId => "EditorIdContains"
  | gender => "Gender"

/-- The plain clause asks for all of its values.  A character can have several of these, and these
are the fields with an `Or` clause. -/
def asksForAll : Field → Bool
  | form .faction => true
  | form .keyword => true
  | editorId => true
  | _ => false

def rank (f : Field) : Nat := all.idxOf f

def ofReference : Reference → Field
  | .form kind _ _ => form kind
  | .plugin _ => plugin

def ofName? (t : Text) : Option Field := all.find? fun f => Text.sameAscii f.name t

end Field

def filterOpening : Text := "filterBy"

def orEnding : Text := "Or"

def excludedEnding : Text := "Excluded"

/-- The text without its ending, compared up to ASCII case. -/
def dropEnding? (ending t : Text) : Option Text :=
  if Text.endsWithAscii ending t then some (t.take (t.length - ending.length)) else none

/-- The text without its opening, compared up to ASCII case. -/
def dropOpening? (opening t : Text) : Option Text :=
  if (Text.asciiLower opening).isPrefixOf (Text.asciiLower t) then some (t.drop opening.length)
  else none

/-- The field and the mode of a name with its ending. -/
def readName? (name : Text) : Option (Field × Mode) :=
  match Field.ofName? name with
  | some f => some (f, .plain)
  | none =>
    match (dropEnding? excludedEnding name).bind Field.ofName? with
    | some f => if f = .gender then none else some (f, .excluded)
    | none =>
      match (dropEnding? orEnding name).bind Field.ofName? with
      | some f => if f.asksForAll then some (f, .anyOf) else none
      | none => none

def isFilterKey (key : Text) : Bool := (dropOpening? filterOpening key).isSome

def readKey? (key : Text) : Option (Field × Mode) :=
  (dropOpening? filterOpening key).bind readName?

end SkyPatcher
end Wardrobe
