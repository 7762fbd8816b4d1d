import Wardrobe.Files.Path
import Wardrobe.Rule.Line
import Wardrobe.Text.Encoding
import Wardrobe.Text.Pieces
/-
Rule files: their lines, the rules on them and the faults in them, and the order in which files
are applied.
-/

namespace Wardrobe

/-- A line that should have given a rule and did not. -/
structure Diagnostic where
  lineNumber : Nat
  raw : Text
  fault : LineFault
  deriving DecidableEq, Repr

structure FileLine where
  number : Nat
  raw : Text
  kind : LineKind
  deriving DecidableEq, Repr

structure RuleFile where
  path : Text
  fileName : Text
  dialect : Dialect
  lines : List FileLine
  rules : List Rule
  diagnostics : List Diagnostic
  encoding : Text.Encoding
  deriving DecidableEq, Repr

namespace RuleFile

structure ReadLine where
  number : Nat
  raw : Text
  outcome : LineOutcome

def ReadLine.source (l : ReadLine) : FileLine := ⟨l.number, l.raw, l.outcome.kind⟩

def ReadLine.rules (l : ReadLine) : List Rule :=
  match l.outcome with
  | .rules rules => rules
  | _ => []

def ReadLine.diagnostic? (l : ReadLine) : Option Diagnostic :=
  match l.outcome with
  | .unparseable fault => some ⟨l.number, l.raw, fault⟩
  | _ => none

/-- The lines of a text, numbered from `first`, each read for itself. -/
def readLines (c : Catalog) (dialect : Dialect) : Nat → List Text → List ReadLine
  | _, [] => []
  | first, raw :: rest =>
    ⟨first, raw, readRuleLine c dialect first raw⟩ :: readLines c dialect (first + 1) rest

def ofText (c : Catalog) (path : Text) (dialect : Dialect) (text : Text) : RuleFile :=
  let read := readLines c dialect 1 text.lines
  { path
    fileName := Path.fileName path
    dialect
    lines := read.map (·.source)
    rules := read.flatMap (·.rules)
    diagnostics := read.filterMap (·.diagnostic?)
    encoding := .utf8 }

def ofDecoded (c : Catalog) (path : Text) (dialect : Dialect) (decoded : Text.Decoded) : RuleFile :=
  { ofText c path dialect decoded.text with encoding := decoded.encoding }

def countKind (f : RuleFile) (kind : LineKind) : Nat :=
  (f.lines.filter fun l => l.kind == kind).length

/-! ## Load order -/

/-- The tier of the format, then the lower case of the name. -/
def loadKey (f : RuleFile) : Nat × Text := (f.dialect.tier, Text.lower f.fileName)

def compareKeys (a b : Nat × Text) : Ordering :=
  (Ord.compare a.1 b.1).then (Text.compare a.2 b.2)

/-- Files of a later tier are applied later, those of one tier in the order of their names and at
last of their paths.  What is applied later wins. -/
def comparePlace (a b : RuleFile) : Ordering :=
  (compareKeys a.loadKey b.loadKey).then (Path.compare a.path b.path)

end RuleFile

/-- Put an element behind those that come no later. -/
def insertBy (compare : α → α → Ordering) (a : α) : List α → List α
  | [] => [a]
  | b :: rest =>
    match compare a b with
    | .lt => a :: b :: rest
    | _ => b :: insertBy compare a rest

/-- Stable sorting by insertion: elements that compare equal keep their order. -/
def sortBy (compare : α → α → Ordering) (as : List α) : List α :=
  as.foldl (fun sorted a => insertBy compare a sorted) []

/-- The files in the order in which they are applied. -/
def RuleFile.inLoadOrder (files : List RuleFile) : List RuleFile :=
  sortBy RuleFile.comparePlace files

end Wardrobe
