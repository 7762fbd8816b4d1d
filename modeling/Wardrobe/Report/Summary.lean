import Wardrobe.Pass
/-
The summary of a pass.
-/

namespace Wardrobe

structure FileSummary where
  path : Text
  fileName : Text
  dialect : Dialect
  processingOrder : Nat
  ruleCount : Nat
  lineCount : Nat
  encoding : Text.Encoding
  diagnostics : List Diagnostic
  deriving DecidableEq, Repr

/-- A keyword rule that was left out because it depends on itself. -/
structure ExcludedRule where
  lineNumber : Nat
  raw : Text
  deriving DecidableEq, Repr

structure PassSummary where
  status : Ending
  slot : Slot
  files : List FileSummary
  skipped : List UnreadableFile
  diagnosticCount : Nat
  excludedKeywordRules : List ExcludedRule
  virtualTagAssignments : Nat
  contestedCount : Nat
  assignments : List Assignment
  deriving DecidableEq, Repr

/-- The summary of the file at a position, counted from 1. -/
def RuleFile.summary (f : RuleFile) (processingOrder : Nat) : FileSummary :=
  { path := f.path
    fileName := f.fileName
    dialect := f.dialect
    processingOrder
    ruleCount := f.rules.length
    lineCount := f.lines.length
    encoding := f.encoding
    diagnostics := f.diagnostics }

namespace Pass

/-- The excluded rules, found by their positions among the keyword rules. -/
def excludedRules (r : Pass) : List ExcludedRule :=
  let rules := (tagRules r.files).toArray
  r.plan.excluded.filterMap fun i => rules[i]?.map fun rule => ⟨rule.lineNumber, rule.raw⟩

def summary (r : Pass) : PassSummary :=
  { status := r.status
    slot := r.resolution.slot
    files := r.files.zipIdx.map fun (f, i) => f.summary (i + 1)
    skipped := r.skipped
    diagnosticCount := r.diagnosticCount
    excludedKeywordRules := r.excludedRules
    virtualTagAssignments := r.tags.count
    contestedCount := r.resolution.contestedCount
    assignments := r.resolution.results }

end Pass
end Wardrobe
