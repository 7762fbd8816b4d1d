import Wardrobe.Match
/-
The characters that a rule speaks of.

A rule without filters speaks of everyone.  Any other rule speaks of those characters that it names
outright, by a reference to the character or by its editor id, and that its filters hold of.
-/

namespace Wardrobe

namespace Population

def namedByForm (p : Population) (f : Filters) : List Nat :=
  f.forms.included.filterMap fun part =>
    match part.value with
    | .form .npc key _ => p.position? key
    | _ => none

def namedByEditorId (p : Population) (f : Filters) : List Nat :=
  (f.strings.included.filter fun part => !part.wildcard).filterMap fun part =>
    p.positionCalled? part.value

/-- The positions of the characters that the rule speaks of, ascending. -/
def affected (p : Population) (tags : Tags) (r : Rule) : List Nat :=
  if r.filters.isForAll then List.range p.size
  else
    let named := p.namedByForm r.filters ++ p.namedByEditorId r.filters
    (List.range p.size).filter fun i => named.contains i && p.satisfiesAt tags r.filters i

end Population

/-- How much of a conflict there is between two outfits for one character. -/
inductive Severity where
  | none
  | softOverlap
  | hardConflict
  deriving DecidableEq, Repr

namespace Severity

/-- Two rules that always apply are in conflict; where one leaves something to chance, they only
overlap. -/
def ofCertainty (leftCertain rightCertain : Bool) : Severity :=
  if leftCertain && rightCertain then hardConflict else softOverlap

def label : Severity → Text
  | none => "none"
  | softOverlap => "soft overlap"
  | hardConflict => "hard conflict"

end Severity

/-- What a rule assigns, as named in reports. -/
def Rule.outfitName (r : Rule) : Text :=
  match r.target with
  | .outfit _ outfit => outfit.spidText
  | .keyword tag => tag

/-- A chance that leaves something to chance, in brackets. -/
def chanceNote (chance : Option UInt8) : Text :=
  match chance with
  | some c => if c < 100 then " (" ++ Text.decimal c.toNat ++ "%)" else []
  | none => []

end Wardrobe
