import Wardrobe.Text.Alphanumeric
import Wardrobe.Text.Case
import Wardrobe.Text.Encoding
import Wardrobe.Text.Pieces
/-
Environment variables and the files that set them.

A file holds lines `NAME=value`, perhaps after the word `export`.  Values may be quoted, with
single quotes for text as it stands and double quotes for text with escapes, and a dollar sign
calls for the value of another variable.  A variable that is set already keeps its value, and
reading stops at the first line that is wrong.
-/

namespace Wardrobe

/-- Variables with their values.  The first entry that answers to a name is the one that counts. -/
abbrev Environment := List (Text × Text)

namespace Environment

/-- The value of a variable.  An entry is the text `name=value`, and the value of any name is what
follows the name and an equals sign in such a text, so a name that holds an equals sign itself
reaches into a value. -/
def get? (env : Environment) (name : Text) : Option Text :=
  env.findSome? fun (own, value) => (name ++ ['=']).isPrefixOf? (own ++ '=' :: value)

def setDefault (env : Environment) (name value : Text) : Environment :=
  if (env.get? name).isSome then env else env ++ [(name, value)]

/-- The names of the variables that the text calls for: all that follow a dollar sign, between
braces or not.  What follows an equals sign belongs to a value. -/
def namesCalled : Text → List Text
  | [] => []
  | c :: rest =>
    if c = '$' then
      let braced : List Text := match rest with
        | '\x7b' :: inner => [(inner.takeWhile (· ≠ '\x7d')).takeWhile (· ≠ '=')]
        | _ => []
      rest.takeWhile Text.isAlphanumeric :: braced ++ namesCalled rest
    else namesCalled rest

/-! ## Logical lines

A quoted value may go over several lines.  Whether a line is complete depends on the quotes that
are open at its end. -/

/-- Where the reader stands between the characters of a line. -/
inductive Scan where
  | plain
  | blank
  | escape
  | single
  | singleEscape
  | double
  | doubleEscape
  deriving DecidableEq, Repr

/-- What opens at a character outside quotes. -/
def Scan.opening : Char → Scan
  | '\\' => escape
  | '"' => double
  | '\'' => single
  | _ => plain

def Scan.next (c : Char) : Scan → Scan
  | plain =>
    if Text.isBlank c && c ≠ '\n' && c ≠ '\r' then blank else opening c
  | blank => opening c
  | escape => plain
  | single => if c = '\\' then singleEscape else if c = '\'' then plain else single
  | singleEscape => single
  | double => if c = '\\' then doubleEscape else if c = '"' then plain else double
  | doubleEscape => double

/-- Read a line to its end, or to a comment, which opens with a number sign after a blank.  The
text before the comment is given in that case. -/
def scanLine : Scan → Text → Scan ⊕ Text
  | scan, [] => .inl scan
  | scan, c :: rest =>
    if scan = .blank ∧ c = '#' then .inr []
    else
      match scanLine (scan.next c) rest with
      | .inl last => .inl last
      | .inr before => .inr (c :: before)

def dropEnding (line : Text) : Text :=
  if line.getLast? = some '\n' then
    let line := line.dropLast
    if line.getLast? = some '\r' then line.dropLast else line
  else line

/-- The logical lines of physical lines that keep their endings, until one is not completed.
`pending` is what has been read of the line that is open. -/
def logicalLines (scan : Scan) (pending : Text) : List Text → List Text
  | [] => []
  | line :: rest =>
    let whole := pending ++ line
    if (Text.trimStart whole).head? = some '#' then logicalLines .plain [] rest
    else
      match scanLine scan line with
      | .inr before => (pending ++ before) :: logicalLines .plain [] rest
      | .inl .plain => dropEnding whole :: logicalLines .plain [] rest
      | .inl scan => logicalLines scan whole rest

/-! ## Values -/

/-- Where the reader of a value stands. -/
inductive ValueMode where
  | text
  | escaped
  | variable (name : Text)
  | bracedVariable (name : Text)
  | ended
  deriving DecidableEq, Repr

/-- The quotes that are open around a place. -/
inductive Quotes where
  | none
  | single
  | double
  deriving DecidableEq, Repr

def valueOf (env : Environment) (name : Text) : Text :=
  if name.isEmpty then [] else (env.get? name).getD []

def escaped? (c : Char) : Option Char :=
  if c = '\\' || c = '\'' || c = '"' || c = '$' || c = ' ' then some c
  else if c = 'n' then some '\n'
  else none

/-- The value that a text spells, or none where it is wrong. -/
def readValue? (env : Environment) : Quotes → ValueMode → Text → Option Text
  | quotes, mode, [] =>
    match quotes, mode with
    | .none, .variable name => some (valueOf env name)
    | .none, .bracedVariable _ => none
    | .none, _ => some []
    | _, _ => none
  | quotes, mode, c :: rest =>
    match mode with
    | .ended =>
      if c = ' ' || c = '\t' then readValue? env quotes .ended rest
      else if c = '#' then some []
      else none
    | .escaped =>
      match escaped? c with
      | some c => (readValue? env quotes .text rest).map (c :: ·)
      | none => none
    | .variable name =>
      if Text.isAlphanumeric c then readValue? env quotes (.variable (name ++ [c])) rest
      else if c = '\x7b' && name.isEmpty then readValue? env quotes (.bracedVariable []) rest
      else if c = '$' then
        (readValue? env quotes (.variable []) rest).map (valueOf env name ++ ·)
      else (readValue? env quotes .text rest).map (valueOf env name ++ c :: ·)
    | .bracedVariable name =>
      if c = '\x7d' then (readValue? env quotes .text rest).map (valueOf env name ++ ·)
      else readValue? env quotes (.bracedVariable (name ++ [c])) rest
    | .text =>
      match quotes with
      | .single =>
        if c = '\'' then readValue? env .none .text rest
        else (readValue? env .single .text rest).map (c :: ·)
      | .double =>
        if c = '$' then readValue? env .double (.variable []) rest
        else if c = '"' then readValue? env .none .text rest
        else if c = '\\' then readValue? env .double .escaped rest
        else (readValue? env .double .text rest).map (c :: ·)
      | .none =>
        if c = '$' then readValue? env .none (.variable []) rest
        else if c = '\'' then readValue? env .single .text rest
        else if c = '"' then readValue? env .double .text rest
        else if c = '\\' then readValue? env .none .escaped rest
        else if c = ' ' || c = '\t' then readValue? env .none .ended rest
        else (readValue? env .none .text rest).map (c :: ·)

/-! ## Lines -/

def isNameChar (c : Char) : Bool := c.isAlphanum || c = '_' || c = '.'

def takeName? (t : Text) : Option (Text × Text) :=
  match t with
  | c :: _ =>
    if c.isAlpha || c = '_' then some (t.takeWhile isNameChar, t.dropWhile isNameChar) else none
  | [] => none

def takeAssignment? (t : Text) : Option (Text × Text) := do
  let (name, rest) ← takeName? t
  match Text.trimStart rest with
  | '=' :: rest => some (name, rest)
  | rest =>
    if name = "export".toList then
      let (name, rest) ← takeName? rest
      match Text.trimStart rest with
      | '=' :: rest => some (name, rest)
      | _ => none
    else none

/-- The environment after a logical line, or none where the line is wrong. -/
def applyLine? (env : Environment) (line : Text) : Option Environment :=
  let t := Text.trimStart (Text.trimEnd line)
  if t.isEmpty || t.head? = some '#' then some env
  else do
    let (name, rest) ← takeAssignment? t
    let rest := Text.trimStart rest
    if rest.isEmpty || rest.head? = some '#' then some (env.setDefault name [])
    else return env.setDefault name (← readValue? env .none .text rest)

/-- Apply lines until one is wrong. -/
def applyLines (env : Environment) : List Text → Environment
  | [] => env
  | line :: rest =>
    match env.applyLine? line with
    | some env => env.applyLines rest
    | none => env

/-- The pieces that end in a newline, and the last one if it is not empty. -/
def physicalLines (t : Text) : List Text :=
  let parts := t.splitOn '\n'
  parts.dropLast.map (· ++ ['\n']) ++ parts.getLast?.toList.filter fun last => !last.isEmpty

/-- The text of the lines before the first that is not UTF-8, without a byte order mark. -/
def readableText (bytes : ByteArray) : Text :=
  let content := if Text.startsWithMark bytes then bytes.toList.drop 3 else bytes.toList
  let parts := content.splitOn 10
  let texts := parts.map fun part => Text.ofUtf8? part.toByteArray
  if texts.all Option.isSome then Text.joined ['\n'] (texts.filterMap id)
  else ((texts.takeWhile Option.isSome).filterMap id).flatMap (· ++ ['\n'])

def applyFile (env : Environment) (bytes : ByteArray) : Environment :=
  env.applyLines (logicalLines .plain [] (physicalLines (readableText bytes)))

end Environment
end Wardrobe
