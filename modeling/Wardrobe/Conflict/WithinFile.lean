import Wardrobe.Conflict.Affected
/-
Conflicts between the rules of one file.
-/

namespace Wardrobe

/-- Two rules of a file that set different outfits for one character in the same slot.  The later
one would win. -/
structure PairConflict where
  npc : FormKey
  npcName : Text
  severity : Severity
  firstLine : Nat
  secondLine : Nat
  summary : Text
  deriving DecidableEq, Repr

def Rule.lineName (r : Rule) : Text :=
  "line " ++ Text.decimal r.lineNumber ++ " (" ++ r.outfitName ++ chanceNote r.chance ++ ")"

namespace PairConflict

def ofRules (npc : Npc) (first second : Rule) : PairConflict :=
  let severity := Severity.ofCertainty first.isCertain second.isCertain
  { npc := npc.id
    npcName := npc.shownName
    severity
    firstLine := first.lineNumber
    secondLine := second.lineNumber
    summary := npc.shownName ++ ": " ++ first.lineName ++ " and " ++ second.lineName ++ ": " ++
      severity.label }

end PairConflict

/-- Both rules set an outfit in the same slot, and not the same one. -/
def Rule.disputes (first second : Rule) : Bool :=
  first.target.slot? == second.target.slot? &&
    match first.target.outfitKey?, second.target.outfitKey? with
    | some a, some b => !a.same b
    | none, none => false
    | _, _ => true

/-- Each element paired with each later one, in order. -/
def laterPairs : List α → List (α × α)
  | [] => []
  | a :: rest => rest.map (fun b => (a, b)) ++ laterPairs rest

/-- The conflicts between the rules of one file, pair by pair and in each pair in the order of the
population. -/
def conflictsWithin (p : Population) (tags : Tags) (proposed : List Rule) : List PairConflict :=
  let outfitRules := (proposed.filter (·.target.slot?.isSome)).map fun r => (r, p.affected tags r)
  (laterPairs outfitRules).flatMap fun ((first, firstHits), (second, secondHits)) =>
    if first.disputes second then
      (firstHits.filter secondHits.contains).filterMap fun i =>
        p.characters[i]?.map fun c => .ofRules c.npc first second
    else []

end Wardrobe
