import Wardrobe.Distinct
import Wardrobe.Form.Record
import Wardrobe.Text.Case
/-
The characters of the game, with the text that string filters are matched against.
-/

namespace Wardrobe

/-- Lower-case text of one character.  An exact filter part has to equal one of the `keys`; a
wildcard part has to occur in one of the texts of the `haystack`, which also holds the template. -/
structure Profile where
  keys : List Text
  haystack : List Text
  deriving DecidableEq, Repr

namespace Profile

/-- The lower case of the texts, without empty and repeated ones. -/
def foldedDistinct (ts : List Text) : List Text :=
  distinct ((ts.map Text.lower).filter fun t => !t.isEmpty)

/-- Editor ids of the groups that the character is in: factions, then keywords. -/
def groupNames (npc : Npc) : List Text :=
  npc.factions.filterMap (·.faction.editorId) ++ npc.keywords.filterMap (·.editorId)

def ofNpc (npc : Npc) : Profile :=
  let own := npc.name.toList ++ npc.editorId.toList
  let groups := groupNames npc
  { keys := foldedDistinct (own ++ groups)
    haystack := foldedDistinct (own ++ npc.template.toList ++ groups) }

end Profile

/-- A character with its profile, which is worked out once. -/
structure Character where
  npc : Npc
  profile : Profile := .ofNpc npc
  profile_eq : profile = .ofNpc npc := by rfl

structure Population where
  characters : Array Character

namespace Population

def ofNpcs (npcs : List Npc) : Population := ⟨(npcs.map fun npc => { npc }).toArray⟩

def npcs (p : Population) : List Npc := p.characters.toList.map (·.npc)

def size (p : Population) : Nat := p.characters.size

def position? (p : Population) (id : FormKey) : Option Nat :=
  p.characters.findIdx? fun c => c.npc.id.same id

/-- The first character whose editor id has the same lower case. -/
def positionCalled? (p : Population) (editorId : Text) : Option Nat :=
  let folded := Text.lower editorId
  p.characters.findIdx? fun c => c.npc.editorId.any fun e => Text.lower e == folded

end Population
end Wardrobe
