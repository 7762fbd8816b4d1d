import Wardrobe.Assignment
import Wardrobe.Conflict.Report
import Wardrobe.Conflict.WithinFile
import Wardrobe.Candidate
/-
A whole pass of the engine: find and load the rule files, replay the keyword rules, resolve the
outfits of one slot.  A cancelled pass has no results.
-/

namespace Wardrobe

/-- What a pass came to.  The files are in load order. -/
structure Pass where
  status : Ending
  files : List RuleFile
  skipped : List UnreadableFile
  plan : ReplayPlan
  tags : Tags
  resolution : Resolution

namespace Pass

def cancelled (slot : Slot) : Pass :=
  { status := .cancelled
    files := []
    skipped := []
    plan := .empty
    tags := ⟨#[]⟩
    resolution := .cancelled slot }

def isCancelled (r : Pass) : Bool := r.status == .cancelled

def diagnosticCount (r : Pass) : Nat := (r.files.flatMap (·.diagnostics)).length

def ruleCount (r : Pass) : Nat := (r.files.flatMap (·.rules)).length

end Pass

/-- The keyword rules of all files, in the order in which they are applied. -/
def tagRules (files : List RuleFile) : List Rule :=
  (files.flatMap (·.rules)).filter (·.target.tag?.isSome)

/-- The pass over files that are in load order. -/
def Pass.overFiles (game : Game) (files : List RuleFile) (skipped : List UnreadableFile)
    (slot : Slot) (cancelled : Bool) : Pass :=
  let replayed := Keyword.replayAll game.population (tagRules files) cancelled
  match replayed.status with
  | .cancelled => .cancelled slot
  | .completed =>
    let resolution := Resolution.ofFiles game.population files replayed.tags slot cancelled
    match resolution.status with
    | .cancelled => .cancelled slot
    | .completed =>
      { status := .completed
        files
        skipped
        plan := replayed.plan
        tags := replayed.tags
        resolution }

def Pass.overFolder (v : FileView) (game : Game) (settings : Settings) (dataFolder : Text)
    (slot : Slot) (cancelled : Bool) : Except PassError Pass := do
  let candidates ← Candidate.inFolder v settings dataFolder
  let loaded := Loaded.ofCandidates v game.catalog candidates cancelled
  match loaded.status with
  | .cancelled => return .cancelled slot
  | .completed => return Pass.overFiles game loaded.files loaded.skipped slot cancelled

/-- What is found out about a file before it is saved. -/
structure Review where
  rules : List Rule
  diagnostics : List Diagnostic
  report : Conflict.Report
  withinFile : List PairConflict

/-- Check a file that is not saved yet against a pass. -/
def Pass.review (run : Pass) (game : Game) (settings : Settings) (fileName : Text)
    (dialect : Dialect) (text : Text) : Review :=
  let file := RuleFile.ofText game.catalog fileName dialect text
  { rules := file.rules
    diagnostics := file.diagnostics
    report := .ofRules game.population run.tags run.resolution settings fileName dialect file.rules
    withinFile := conflictsWithin game.population run.tags file.rules }

end Wardrobe
