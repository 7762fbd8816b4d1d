import Wardrobe.Assignment
import Wardrobe.Conflict.Affected
import Wardrobe.Conflict.FileName
import Wardrobe.Settings
/-
Conflicts of a proposed file with the rules that are there already.

Of the proposed rules that speak of a character the last one counts.  It is in conflict with the
winner so far if that comes from a file of another name and sets another outfit.
-/

namespace Wardrobe

/-- A proposed rule against the winner on one character. -/
structure Conflict where
  npc : FormKey
  npcName : Text
  severity : Severity
  existing : Distribution
  proposedLine : Nat
  proposedOutfit : Text
  proposedChance : Option UInt8
  deriving DecidableEq, Repr

/-- Why no name helps. -/
inductive NoName where
  | outranked (fileName : Text) (dialect : Dialect)
  | nothingSortsLast
  deriving DecidableEq, Repr

def NoName.message : NoName → Text
  | outranked fileName dialect =>
    fileName ++ " is a higher-priority file type than " ++ dialect.label ++
      "; renaming cannot win"
  | nothingSortsLast => "no file name sorts after every conflicting file"

/-- What the name of the proposed file can do about the conflicts. -/
inductive Verdict where
  | noConflicts
  | alreadyResolved
  | rename (suggested : Text)
  | unresolvable (reason : NoName)
  deriving DecidableEq, Repr

structure Conflict.Report where
  proposedFileName : Text
  dialect : Dialect
  conflicts : List Conflict
  conflictingFiles : List Text
  verdict : Verdict
  deriving DecidableEq, Repr

def Conflict.summary (c : Conflict) : Text :=
  c.npcName ++ ": " ++ c.existing.outfitName ++ chanceNote c.existing.chance ++ " from " ++
    c.existing.fileName ++ " (line " ++ Text.decimal (c.existing.lineNumber.getD 0) ++ ") vs " ++
    c.proposedOutfit ++ chanceNote c.proposedChance ++ " (line " ++
    Text.decimal c.proposedLine ++ "): " ++ c.severity.label

namespace Conflict.Report

def hardCount (r : Conflict.Report) : Nat :=
  (r.conflicts.filter fun c => c.severity == .hardConflict).length

def softCount (r : Conflict.Report) : Nat := r.conflicts.length - r.hardCount

def hasHardConflict (r : Conflict.Report) : Bool := 0 < r.hardCount

def hasSoftOverlap (r : Conflict.Report) : Bool := 0 < r.softCount

def countsText (r : Conflict.Report) : Text :=
  Text.decimal r.hardCount ++ " hard conflict(s), " ++ Text.decimal r.softCount ++
    " soft overlap(s); "

def summary (r : Conflict.Report) : Text :=
  match r.verdict with
  | .noConflicts => "No conflicts with existing rules"
  | .alreadyResolved => r.countsText ++ r.proposedFileName ++ " already loads last"
  | .rename suggested => r.countsText ++ "rename to " ++ suggested ++ " to load last"
  | .unresolvable reason => r.countsText ++ reason.message

end Conflict.Report

/-- The last of the rules for the slot that speaks of each character, where one does. -/
def decidingRules (p : Population) (tags : Tags) (slot : Slot) (proposed : List Rule) :
    List (Nat × Rule) :=
  let hits := (proposed.filter (·.setsSlot slot)).reverse.map fun r => (r, p.affected tags r)
  (List.range p.size).filterMap fun i =>
    (hits.find? fun (_, affected) => affected.contains i).map fun (r, _) => (i, r)

/-- The winner that a rule has made on a character.  Of several results for one key the last
counts. -/
def Resolution.ruleWinnerOf? (existing : Resolution) (id : FormKey) : Option Distribution :=
  (existing.results.reverse.find? fun a => a.npc.same id).bind (·.ruleWinner?)

/-- The conflict between a rule for a character and the winner so far. -/
def conflictWith? (fileName : Text) (npc : Npc) (current : Distribution) (r : Rule) :
    Option Conflict :=
  if Text.sameAscii current.fileName fileName then none
  else if r.target.outfitKey?.any (·.same current.outfit) then none
  else some {
    npc := npc.id
    npcName := npc.shownName
    severity := .ofCertainty current.isCertain r.isCertain
    existing := current
    proposedLine := r.lineNumber
    proposedOutfit := r.outfitName
    proposedChance := r.chance }

/-- The conflicts of the proposed rules, in the order of the population. -/
def findConflicts (p : Population) (tags : Tags) (existing : Resolution) (fileName : Text)
    (proposed : List Rule) : List Conflict :=
  (decidingRules p tags existing.slot proposed).filterMap fun (i, r) => do
    let npc := (← p.characters[i]?).npc
    let current ← existing.ruleWinnerOf? npc.id
    conflictWith? fileName npc current r

/-- What the name of the file can do about its conflicts.  A file of a higher tier wins under any
name; among files of its own tier the proposed one wins if its name sorts last. -/
def verdictOn (conflicts : List Conflict) (fileName : Text) (dialect : Dialect)
    (settings : Settings) : Verdict :=
  if conflicts.isEmpty then .noConflicts
  else
    match conflicts.find? fun c => dialect.tier < c.existing.tier with
    | some c => .unresolvable (.outranked c.existing.fileName dialect)
    | none =>
      let rivals := distinct
        ((conflicts.filter fun c => c.existing.tier == dialect.tier).map (·.existing.fileName))
      if LoadName.comesLast fileName rivals then .alreadyResolved
      else
        match LoadName.suggest fileName rivals settings.priorityMarker
            (settings.suffixFor dialect) with
        | some suggested => .rename suggested
        | none => .unresolvable .nothingSortsLast

def Conflict.Report.ofRules (p : Population) (tags : Tags) (existing : Resolution)
    (settings : Settings) (fileName : Text) (dialect : Dialect) (proposed : List Rule) :
    Conflict.Report :=
  let conflicts := findConflicts p tags existing fileName proposed
  { proposedFileName := fileName
    dialect
    conflicts
    conflictingFiles := distinct (conflicts.map (·.existing.fileName))
    verdict := verdictOn conflicts fileName dialect settings }

end Wardrobe
