import Wardrobe.Rule.Line
import Wardrobe.Settings
import Wardrobe.Snapshot
import Wardrobe.Text.Number
/-
Failures of whole operations, and what is said about them.

A bad line of a rule file is no failure; it becomes a diagnostic of its file.
-/

namespace Wardrobe

namespace Text

/-! ## Positions at the end of messages: ` at line 3 column 4`

Such an ending says where a fault lies in the text that was read.  A message that quotes this text
leaves the ending of the quotation out, lest it be taken for the place of the fault. -/

/-- The text before the last place where `mark` stands, and the text after it. -/
def cutAtLast (mark : Text) : Text → Option (Text × Text)
  | [] => none
  | c :: rest =>
    match cutAtLast mark rest with
    | some (before, after) => some (c :: before, after)
    | none => (mark.isPrefixOf? (c :: rest)).map fun after => ([], after)

/-- The digits of a line or column number, which has to fit into sixty-four bits. -/
def isPlaceNumber (digits : Text) : Bool :=
  (readNat? 10 digits).any fun n => n < UInt64.size

/-- The text is a line number, ` column ` and a column number. -/
def isPlace (t : Text) : Bool :=
  match List.isPrefixOf? " column ".toList (t.dropWhile Char.isDigit) with
  | some column =>
    isPlaceNumber (t.takeWhile Char.isDigit) && column.all Char.isDigit && isPlaceNumber column
  | none => false

def withoutPosition (t : Text) : Text :=
  match cutAtLast " at line " t with
  | some (before, place) => if isPlace place then before else t
  | none => t

end Text

/-! ## Failures -/

/-- What stops an operation of the engine. -/
inductive PassError where
  | io (path reason : Text)
  | missingPath (path : Text)
  | settings (reason : Text)
  | snapshot (reason : Text)
  | unrepresentable (format reason : Text)
  | cancelled
  deriving DecidableEq, Repr

namespace PassError

def message : PassError → Text
  | io path reason => "I/O error on " ++ path ++ ": " ++ reason
  | missingPath path => "Path does not exist: " ++ path
  | settings reason => "Invalid config: " ++ reason
  | snapshot reason => "Invalid game snapshot: " ++ reason
  | unrepresentable format reason => "Rule cannot be written as " ++ format ++ ": " ++ reason
  | cancelled => "Operation cancelled"

def ofSettings (fault : SettingsFault) : PassError := settings fault.message

def ofUnrepresentable (reason : SkyPatcher.Unrepresentable) : PassError :=
  unrepresentable Dialect.skyPatcher.label reason.message

def snapshotReason : Json.ReadFault → Text
  | .malformed => "not the JSON of a game snapshot"
  | .badFormKey text => Text.withoutPosition ("Invalid form key: " ++ text)

def ofSnapshot (fault : Json.ReadFault) : PassError := snapshot (snapshotReason fault)

end PassError

/-- What a caller of the engine is told about a failure. -/
inductive RequestError where
  | engine (reason : Text)
  | io (reason : Text)
  | notFound (what : Text)
  | cancelled
  | internal (reason : Text)
  deriving DecidableEq, Repr

namespace RequestError

def message : RequestError → Text
  | engine reason => "Engine error: " ++ reason
  | io reason => "I/O error: " ++ reason
  | notFound what => "Not found: " ++ what
  | cancelled => "Cancelled"
  | internal reason => "Internal error: " ++ reason

/-- The failure of an engine operation as its caller sees it. -/
def ofPass (e : PassError) : RequestError :=
  match e with
  | .cancelled => cancelled
  | .missingPath path => notFound path
  | .io _ _ => io e.message
  | _ => engine e.message

end RequestError
end Wardrobe
