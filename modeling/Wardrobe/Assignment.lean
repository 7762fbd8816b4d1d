import Wardrobe.Keyword.Replay
import Wardrobe.RuleFile
/-
Winner resolution: which outfit each character ends up with.

The files are gone through in the order in which they are applied, and every rule that matches a
character becomes a distribution on it.  The last one wins.  The outfit that the game itself gives
stands before all others and so wins only where no rule matched.
-/

namespace Wardrobe

/-- One candidate for the outfit of a character: the game's own, in tier 0, or that of a rule. -/
structure Distribution where
  sourcePath : Option Text
  fileName : Text
  dialect : Option Dialect
  tier : Nat
  processingOrder : Nat
  lineNumber : Option Nat
  outfit : FormKey
  outfitEditorId : Option Text
  raw : Text
  targeting : Text
  chance : Option UInt8
  used : UsedFilters
  deriving DecidableEq, Repr

namespace Distribution

def ofGame (npc : Npc) (link : Form.Link) : Distribution :=
  { sourcePath := none
    fileName := npc.sourcePlugin
    dialect := none
    tier := 0
    processingOrder := 0
    lineNumber := none
    outfit := link.key
    outfitEditorId := link.editorId
    raw := []
    targeting := "base record"
    chance := none
    used := .unused }

def ofRule (file : RuleFile) (processingOrder : Nat) (r : Rule) (outfit : FormKey)
    (outfitEditorId : Option Text) : Distribution :=
  { sourcePath := some file.path
    fileName := file.fileName
    dialect := some r.dialect
    tier := r.dialect.tier
    processingOrder
    lineNumber := some r.lineNumber
    outfit
    outfitEditorId
    raw := r.raw
    targeting := r.targeting
    chance := r.chance
    used := r.filters.used }

def isOfGame (d : Distribution) : Bool := d.tier == 0

def isCertain (d : Distribution) : Bool := certainChance d.chance

def outfitName (d : Distribution) : Text := d.outfitEditorId.getD d.outfit.text

end Distribution

/-- The distributions on one character, of which there is at least one, and which of them wins. -/
structure Assignment where
  npc : FormKey
  npcName : Text
  npcEditorId : Option Text
  distributions : List Distribution
  winnerIndex : Nat
  isContested : Bool
  deriving DecidableEq, Repr

/-- The last position at which the test holds, or 0. -/
def lastIndexWhere (test : α → Bool) (as : List α) : Nat :=
  ((List.range as.length).filter fun i => as[i]?.any test).getLastD 0

namespace Assignment

def ofDistributions (npc : Npc) (distributions : List Distribution) : Assignment :=
  { npc := npc.id
    npcName := npc.shownName
    npcEditorId := npc.editorId
    distributions
    winnerIndex := lastIndexWhere (fun d => !d.isOfGame) distributions
    isContested := 1 < (distributions.filter fun d => !d.isOfGame).length }

def winner? (a : Assignment) : Option Distribution := a.distributions[a.winnerIndex]?

/-- The winner, unless it is the outfit that the game gives. -/
def ruleWinner? (a : Assignment) : Option Distribution :=
  a.winner?.filter fun d => !d.isOfGame

def fromRules (a : Assignment) : List Distribution := a.distributions.filter fun d => !d.isOfGame

end Assignment

/-- The outfits of a population in one slot, in the order of the population. -/
structure Resolution where
  status : Ending
  slot : Slot
  results : List Assignment
  deriving DecidableEq, Repr

namespace Resolution

def cancelled (slot : Slot) : Resolution := ⟨.cancelled, slot, []⟩

def find? (r : Resolution) (id : FormKey) : Option Assignment :=
  r.results.find? fun a => a.npc.same id

def contestedCount (r : Resolution) : Nat := (r.results.filter (·.isContested)).length

end Resolution

def Npc.ownOutfit? (npc : Npc) : Slot → Option Form.Link
  | .default => npc.defaultOutfit
  | .sleep => npc.sleepOutfit

/-- The distributions found so far for each character, the latest first. -/
abbrev Collected := Array (List Distribution)

def collectRule (p : Population) (tags : Tags) (file : RuleFile) (processingOrder : Nat)
    (collected : Collected) (r : Rule) : Collected :=
  match r.target with
  | .outfit _ (.form _ key editorId) =>
    (p.matching tags r.filters).foldl
      (fun collected i =>
        collected.modify i (Distribution.ofRule file processingOrder r key editorId :: ·))
      collected
  | _ => collected

def collectFile (p : Population) (tags : Tags) (slot : Slot) (collected : Collected)
    (file : RuleFile × Nat) : Collected :=
  (file.1.rules.filter (·.setsSlot slot)).foldl
    (collectRule p tags file.1 (file.2 + 1)) collected

/-- The result of a character on whom the given distributions, latest first, were found. -/
def assignmentOf? (slot : Slot) (npc : Npc) (collected : List Distribution) :
    Option Assignment :=
  if collected.isEmpty then none
  else
    let own := (npc.ownOutfit? slot).toList.map (Distribution.ofGame npc)
    some (.ofDistributions npc (own ++ collected.reverse))

/-- Resolve one slot for everyone.  The files are in the order in which they are applied, counted
from 1.  The wish to cancel is noticed before the first file. -/
def Resolution.ofFiles (p : Population) (files : List RuleFile) (tags : Tags) (slot : Slot)
    (cancelled : Bool) : Resolution :=
  if cancelled && !files.isEmpty then .cancelled slot
  else
    let collected := files.zipIdx.foldl (collectFile p tags slot) (Array.replicate p.size [])
    let results := (p.npcs.zip collected.toList).filterMap fun (npc, found) =>
      assignmentOf? slot npc found
    ⟨.completed, slot, results⟩

end Wardrobe
