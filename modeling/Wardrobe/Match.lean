import Wardrobe.Population
import Wardrobe.Rule.Basic
/-
Matching: whether the filters of a rule hold of a character.
-/

namespace Wardrobe

/-- The tags that keyword rules have given to each character, in lower case.  A character beyond
the end has none. -/
structure Tags where
  perCharacter : Array (List Text)
  deriving DecidableEq, Repr

namespace Tags

def none (size : Nat) : Tags := ⟨Array.replicate size []⟩

def of (tags : Tags) (i : Nat) : List Text := tags.perCharacter.getD i []

/-- The character has the tag, in whatever case it is asked for. -/
def has (tags : Tags) (i : Nat) (tag : Text) : Bool := (tags.of i).contains (Text.lower tag)

def count (tags : Tags) : Nat := tags.perCharacter.toList.flatten.length

/-- Give a tag in lower case to a character that does not have it. -/
def give (tags : Tags) (tag : Text) (i : Nat) : Tags :=
  ⟨tags.perCharacter.modify i fun own => if own.contains tag then own else own ++ [tag]⟩

end Tags

/-- A character as the filters see it. -/
structure Subject where
  npc : Npc
  profile : Profile
  tags : List Text

namespace Subject

/-- The text is one of the names, groups or tags. -/
def isCalled (s : Subject) (folded : Text) : Bool :=
  s.profile.keys.contains folded || s.tags.contains folded

/-- The text occurs in one of the names, groups or tags, or in the template. -/
def mentions (s : Subject) (folded : Text) : Bool :=
  s.profile.haystack.any (Text.occursIn folded) || s.tags.any (Text.occursIn folded)

def hasString (s : Subject) (p : Criterion.Part Text) : Bool :=
  if p.wildcard then s.mentions (Text.lower p.value) else s.isCalled (Text.lower p.value)

def stringsHold (s : Subject) (f : Criterion Text) : Bool := f.holds s.hasString

end Subject

/-- Where a reference is found on a character, in the order in which the places are tried. -/
inductive FormPlace where
  | own
  | race
  | combatClass
  | defaultOutfit
  | combatStyle
  | voiceType
  | sourcePlugin
  | faction
  | keyword
  deriving DecidableEq, Repr

namespace Npc

def keyPlaces (npc : Npc) : List (FormPlace × List FormKey) :=
  let linked (l : Option Form.Link) : List FormKey := l.toList.map (·.key)
  [(.own, [npc.id]),
   (.race, linked npc.race),
   (.combatClass, linked npc.combatClass),
   (.defaultOutfit, linked npc.defaultOutfit),
   (.combatStyle, linked npc.combatStyle),
   (.voiceType, linked npc.voiceType),
   (.faction, npc.factions.map (·.faction.key)),
   (.keyword, npc.keywords.map (·.key))]

def isFromPlugin (npc : Npc) (name : Text) : Bool :=
  Text.sameAscii npc.sourcePlugin name || Text.sameAscii npc.id.plugin name

/-- The first place that holds what the reference names. -/
def placeOf? (npc : Npc) : Reference → Option FormPlace
  | .plugin name => if npc.isFromPlugin name then some .sourcePlugin else none
  | .form _ key _ => (npc.keyPlaces.find? fun (_, keys) => keys.any (·.same key)).map (·.1)

def formsHold (npc : Npc) (f : Criterion Reference) : Bool :=
  f.holds fun p => (npc.placeOf? p.value).isSome

/-- A clause holds of the level or of the skill it names.  Indices of no skill ask for nothing. -/
def levelHolds (npc : Npc) (c : LevelRange) : Bool :=
  match c.skill with
  | none => c.contains npc.level
  | some index => !LevelRange.isSkillIndex index || c.contains (npc.skill index.toUInt8)

def levelsHold (npc : Npc) (levels : List LevelRange) : Bool := levels.all npc.levelHolds

def traitsHold (npc : Npc) (f : Traits.Wanted) : Bool :=
  f.female.all (· == npc.traits.female) &&
  f.unique.all (· == npc.traits.unique) &&
  f.summonable.all (· == npc.traits.summonable) &&
  f.child.all (· == npc.traits.child) &&
  f.leveled.all (· == npc.traits.leveled)

end Npc

def Subject.satisfies (s : Subject) (f : Filters) : Bool :=
  s.npc.traitsHold f.traits && s.npc.levelsHold f.levels &&
  s.npc.formsHold f.forms && s.stringsHold f.strings

namespace Population

def subject? (p : Population) (tags : Tags) (i : Nat) : Option Subject :=
  p.characters[i]?.map fun c => ⟨c.npc, c.profile, tags.of i⟩

def satisfiesAt (p : Population) (tags : Tags) (f : Filters) (i : Nat) : Bool :=
  (p.subject? tags i).any fun s => s.satisfies f

/-- The positions of the characters that the filters hold of, ascending. -/
def matching (p : Population) (tags : Tags) (f : Filters) : List Nat :=
  (List.range p.size).filter (p.satisfiesAt tags f)

end Population
end Wardrobe
