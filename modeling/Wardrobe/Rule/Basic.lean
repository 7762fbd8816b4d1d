import Wardrobe.Filter.Basic
/-
Distribution rules, in the form that both rule formats share.
-/

namespace Wardrobe

/-- The two rule formats.  SPID rules are applied after SkyPatcher rules and so win over them. -/
inductive Dialect where
  | skyPatcher
  | spid
  deriving DecidableEq, Repr

namespace Dialect

/-- The priority of the format's rules.  Tier 0 belongs to the game's own records. -/
def tier : Dialect → Nat
  | skyPatcher => 1
  | spid => 2

def label : Dialect → Text
  | skyPatcher => "SkyPatcher"
  | spid => "SPID"

end Dialect

inductive Slot where
  | default
  | sleep
  deriving DecidableEq, Repr

/-- What a rule assigns: an outfit, or a tag that string filters of other rules can name. -/
inductive Target where
  | outfit (slot : Slot) (outfit : Reference)
  | keyword (tag : Text)
  deriving DecidableEq, Repr

namespace Target

def slot? : Target → Option Slot
  | outfit slot _ => some slot
  | keyword _ => none

def outfitKey? : Target → Option FormKey
  | outfit _ ref => ref.key?
  | keyword _ => none

/-- The tag that is assigned, in the lower case in which tags are compared. -/
def tag? : Target → Option Text
  | outfit .. => none
  | keyword tag => some (Text.lower tag)

def describe : Target → Text
  | outfit .default ref => ref.describe
  | outfit .sleep ref => "sleep " ++ ref.describe
  | keyword tag => "keyword " ++ tag

end Target

/-- One conditional assignment, made of one line.  `chance` is a percentage, absent where the rule
always applies, and `extra` is a field that is kept without being understood. -/
structure Rule where
  dialect : Dialect
  lineNumber : Nat
  raw : Text
  target : Target
  filters : Filters
  chance : Option UInt8
  extra : Option Text
  deriving DecidableEq, Repr

/-- A chance that leaves nothing to chance. -/
def certainChance (chance : Option UInt8) : Bool := chance.all (100 ≤ ·)

namespace Rule

def isCertain (r : Rule) : Bool := certainChance r.chance

def setsSlot (r : Rule) (slot : Slot) : Bool := r.target.slot? == some slot

/-- A string part in a sentence, between stars where it is a wildcard. -/
def describePart (p : Criterion.Part Text) : Text :=
  if p.wildcard then "*" ++ p.value ++ "*" else p.value

/-- A piece of a description, left out where there is nothing to describe. -/
def pieceIf (present : Bool) (piece : Text) : List Text := if present then [piece] else []

def targeting (r : Rule) : Text :=
  let f := r.filters
  if f.isForAll then "all NPCs"
  else
    let strings := f.strings.included.map describePart
    let forms := f.forms.included.map (·.value.describe)
    let exclusions := f.strings.excluded.length + f.forms.excluded.length
    Text.joined "; " <|
      pieceIf (!strings.isEmpty) ("names/tags " ++ Text.joined ", " strings) ++
      pieceIf (!forms.isEmpty) (Text.joined ", " forms) ++
      pieceIf (0 < exclusions) (Text.decimal exclusions ++ " exclusion(s)") ++
      pieceIf (!f.levels.isEmpty) ("levels " ++ Text.joined "," (f.levels.map (·.text))) ++
      pieceIf (!f.traits.isEmpty) ("traits " ++ f.traits.text)

end Rule
end Wardrobe
