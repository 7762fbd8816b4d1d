import Wardrobe.Form.Key
/-
The records of the game that rules speak about: characters and the forms they refer to.
-/

namespace Wardrobe

inductive Form.Kind where
  | npc
  | faction
  | race
  | combatClass
  | combatStyle
  | outfit
  | voiceType
  | keyword
  deriving DecidableEq, Repr

namespace Form.Kind

/-- All kinds, in the order in which an untyped editor id is tried. -/
def all : List Form.Kind :=
  [npc, faction, race, combatClass, combatStyle, outfit, voiceType, keyword]

def label : Form.Kind → Text
  | npc => "NPC"
  | faction => "faction"
  | race => "race"
  | combatClass => "class"
  | combatStyle => "combat style"
  | outfit => "outfit"
  | voiceType => "voice type"
  | keyword => "keyword"

theorem mem_all (k : Form.Kind) : k ∈ all := by cases k <;> decide

end Form.Kind

/-- A pointer to a record, with the record's editor id where it is known. -/
structure Form.Link where
  key : FormKey
  editorId : Option Text
  deriving DecidableEq, Repr

structure Form where
  key : FormKey
  kind : Form.Kind
  editorId : Option Text
  name : Option Text
  deriving DecidableEq, Repr

structure Membership where
  faction : Form.Link
  rank : Int8
  deriving DecidableEq, Repr

structure Traits where
  female : Bool
  unique : Bool
  summonable : Bool
  child : Bool
  leveled : Bool
  deriving DecidableEq, Repr

/-- A character.  `template` is the editor id of the character it takes its data from. -/
structure Npc where
  id : FormKey
  name : Option Text
  editorId : Option Text
  sourcePlugin : Text
  factions : List Membership
  keywords : List Form.Link
  race : Option Form.Link
  combatClass : Option Form.Link
  defaultOutfit : Option Form.Link
  sleepOutfit : Option Form.Link
  combatStyle : Option Form.Link
  voiceType : Option Form.Link
  template : Option Text
  level : UInt16
  skills : List (UInt8 × UInt16)
  traits : Traits
  deriving DecidableEq, Repr

namespace Npc

/-- The name shown to people: the character's own, else its editor id, else its key. -/
def shownName (npc : Npc) : Text := (npc.name.or npc.editorId).getD npc.id.text

/-- The value of the skill with the given actor-value index, 0 where none is recorded. -/
def skill (npc : Npc) (index : UInt8) : UInt16 := (npc.skills.lookup index).getD 0

/-- Every record that the character points to, with the kind it must have. -/
def links (npc : Npc) : List (Form.Kind × Form.Link) :=
  npc.factions.map (fun m => (.faction, m.faction)) ++
  npc.keywords.map (fun l => (.keyword, l)) ++
  npc.race.toList.map (fun l => (.race, l)) ++
  npc.combatClass.toList.map (fun l => (.combatClass, l)) ++
  npc.defaultOutfit.toList.map (fun l => (.outfit, l)) ++
  npc.sleepOutfit.toList.map (fun l => (.outfit, l)) ++
  npc.combatStyle.toList.map (fun l => (.combatStyle, l)) ++
  npc.voiceType.toList.map (fun l => (.voiceType, l))

def record (npc : Npc) : Form := ⟨npc.id, .npc, npc.editorId, npc.name⟩

end Npc
end Wardrobe
