import Wardrobe.Form.Catalog
import Wardrobe.Json.Reader
import Wardrobe.Population
/-
Game snapshots: the records of a game in JSON.
-/

namespace Wardrobe

structure Snapshot where
  plugins : List Text
  forms : List Form
  npcs : List Npc
  deriving DecidableEq, Repr

/-- What rules are resolved and matched against. -/
structure Game where
  population : Population
  catalog : Catalog

namespace Snapshot

open Json

def kindNames : List (Text × Form.Kind) :=
  [("Npc", .npc), ("Faction", .faction), ("Race", .race), ("Class", .combatClass),
   ("CombatStyle", .combatStyle), ("Outfit", .outfit), ("VoiceType", .voiceType),
   ("Keyword", .keyword)]

/-- Stands for a key until the required one has been read. -/
def noKey : FormKey := ⟨[], 0⟩

def form : Reader Form :=
  record
    [.mustHave "key" formKey fun r key => { r with key },
     .mustHave "kind" (oneOf kindNames) fun r kind => { r with kind },
     .mayHave "editorId" (optional text) fun r editorId => { r with editorId },
     .mayHave "name" (optional text) fun r name => { r with name }]
    ⟨noKey, .npc, none, none⟩

def link : Reader Form.Link :=
  record
    [.mustHave "key" formKey fun l key => { l with key },
     .mayHave "editorId" (optional text) fun l editorId => { l with editorId }]
    ⟨noKey, none⟩

def membership : Reader Membership :=
  record
    [.mustHave "faction" link fun m faction => { m with faction },
     .mayHave "rank" int8 fun m rank => { m with rank }]
    ⟨⟨noKey, none⟩, 0⟩

def noTraits : Traits := ⟨false, false, false, false, false⟩

def traits : Reader Traits :=
  record
    [.mayHave "female" boolean fun t female => { t with female },
     .mayHave "unique" boolean fun t unique => { t with unique },
     .mayHave "summonable" boolean fun t summonable => { t with summonable },
     .mayHave "child" boolean fun t child => { t with child },
     .mayHave "leveled" boolean fun t leveled => { t with leveled }]
    noTraits

def unknownNpc : Npc :=
  ⟨noKey, none, none, [], [], [], none, none, none, none, none, none, none, 0, [], noTraits⟩

def npc : Reader Npc :=
  record
    [.mustHave "id" formKey fun n id => { n with id },
     .mayHave "name" (optional text) fun n name => { n with name },
     .mayHave "editorId" (optional text) fun n editorId => { n with editorId },
     .mustHave "sourcePlugin" text fun n sourcePlugin => { n with sourcePlugin },
     .mayHave "factions" (array membership) fun n factions => { n with factions },
     .mayHave "keywords" (array link) fun n keywords => { n with keywords },
     .mayHave "race" (optional link) fun n race => { n with race },
     .mayHave "class" (optional link) fun n combatClass => { n with combatClass },
     .mayHave "defaultOutfit" (optional link) fun n l => { n with defaultOutfit := l },
     .mayHave "sleepOutfit" (optional link) fun n l => { n with sleepOutfit := l },
     .mayHave "combatStyle" (optional link) fun n l => { n with combatStyle := l },
     .mayHave "voiceType" (optional link) fun n l => { n with voiceType := l },
     .mayHave "template" (optional text) fun n template => { n with template },
     .mayHave "level" uint16 fun n level => { n with level },
     .mayHave "skills" (numericMap uint16) fun n skills => { n with skills },
     .mayHave "traits" traits fun n traits => { n with traits }]
    unknownNpc

def snapshot : Reader Snapshot :=
  record
    [.mayHave "plugins" (array text) fun s plugins => { s with plugins },
     .mayHave "forms" (array form) fun s forms => { s with forms },
     .mayHave "npcs" (array npc) fun s npcs => { s with npcs }]
    ⟨[], [], []⟩

def read (t : Text) : Except ReadFault Snapshot := readAll snapshot t

def game (s : Snapshot) : Game := ⟨.ofNpcs s.npcs, .ofRecords s.forms s.npcs s.plugins⟩

end Snapshot
end Wardrobe
