import Wardrobe.Environment
import Wardrobe.Report.Encode
import Wardrobe.Session
/-
The command: one pass, asked for by environment variables and reported as JSON.
-/

namespace Wardrobe

/-- What the command leaves behind. -/
structure CommandOutcome where
  exitCode : Nat
  output : Text
  errorOutput : Text
  deriving DecidableEq, Repr

inductive CommandFailure where
  | unset (name : Text)
  | pass (error : RequestError)
  deriving DecidableEq, Repr

namespace CommandFailure

def headline : CommandFailure → Text
  | unset name => name ++ " is not set"
  | pass _ => "Engine pass failed"

def cause : CommandFailure → Text
  | unset _ => "environment variable not found"
  | pass error => error.message

/-- The failure as it is reported, with the lines of the cause moved in. -/
def report (f : CommandFailure) : Text :=
  let moved : List Text := (f.cause.splitOn '\n').map fun line => "    " ++ line
  "Error: " ++ f.headline ++ "\n\nCaused by:\n" ++ Text.joined ['\n'] moved ++ ['\n']

end CommandFailure

namespace Command

def dataFolderVariable : Text := "OUTFITDIST_DATA_DIR"

def snapshotVariable : Text := "OUTFITDIST_SNAPSHOT"

/-- The settings, if any. -/
def settingsVariable : Text := "OUTFITDIST_CONFIG"

/-- The word `sleep` asks for the sleep outfits. -/
def slotVariable : Text := "OUTFITDIST_SLOT"

def variableNames : List Text :=
  [dataFolderVariable, snapshotVariable, settingsVariable, slotVariable]

def environmentFile : Text := ".env"

def require (env : Environment) (name : Text) : Except CommandFailure Text :=
  match env.get? name with
  | some value => .ok value
  | none => .error (.unset name)

def request (env : Environment) : Except CommandFailure PassRequest := do
  let dataFolder ← require env dataFolderVariable
  let snapshotPath ← require env snapshotVariable
  let sleep := (env.get? slotVariable).any fun value => Text.sameAscii value "sleep"
  return {
    dataFolder
    snapshotPath
    settingsPath := env.get? settingsVariable
    slot := if sleep then .sleep else .default }

def fullEnvironment (v : FileView) (env : Environment) : Environment :=
  if v.kind? environmentFile == some .file then
    match v.read environmentFile with
    | .ok bytes => env.applyFile bytes
    | .error _ => env
  else env

def execute (v : FileView) (env : Environment) : Except CommandFailure PassSummary := do
  let request ← request (fullEnvironment v env)
  ((Session.start.resolve v request).1).mapError .pass

def run (v : FileView) (env : Environment) : CommandOutcome :=
  match execute v env with
  | .ok summary => ⟨0, summary.json.pretty 0 ++ ['\n'], []⟩
  | .error failure => ⟨1, [], failure.report⟩

end Command
end Wardrobe
