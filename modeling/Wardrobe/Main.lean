import Wardrobe.Command
import Wardrobe.Files.Recording
/-
The command line.

What a pass needs to know about variables and files is collected here, and `Command.run` does the
rest.  Which rule files are read depends on the settings and on the names in the data folder, so
those are collected before the files.
-/

namespace Wardrobe
namespace Collect

def valuesOf (names : List Text) : IO Environment :=
  names.filterMapM fun name => do
    return (← IO.getEnv (String.ofList name)).map fun value => (name, value.toList)

/-- The entry of a path with the links in it followed, if the path leads to anything. -/
def entry? (path : Text) : IO (Option IO.FS.DirEntry) := do
  try
    let place ← IO.FS.realPath (String.ofList path)
    return some { root := place, fileName := "" }
  catch _ => return none

def fault : IO.Error → FileFault
  | .permissionDenied _ code details =>
    .other ((details ++ " (os error " ++ toString code ++ ")").toList)
  | e => .other e.toString.toList

def content (path : Text) : IO (Except FileFault ByteArray) := do
  try
    return .ok (← IO.FS.readBinFile (String.ofList path))
  catch e => return .error (fault e)

def entries (folder : IO.FS.DirEntry) : IO (List IO.FS.DirEntry) := do
  try
    return (← folder.path.readDir).toList
  catch _ => return []

/-- The sort of an entry itself, without following it where it is a link. -/
def sort (e : IO.FS.DirEntry) : IO IO.FS.FileType := do
  try
    return (← e.path.symlinkMetadata).type
  catch _ => return .other

def filesIn (folder : IO.FS.DirEntry) : IO (List Text) := do
  let files ← (← entries folder).filterM fun e => return (← sort e) matches .file
  return files.map (·.fileName.toList)

/-- The regular files below a folder, as seen from it. -/
partial def filesBelow (folder : IO.FS.DirEntry) : IO (List Text) := do
  let found ← (← entries folder).mapM fun e => do
    let name := e.fileName.toList
    match ← sort e with
    | .file => return [name]
    | .dir => return (← filesBelow e).map fun inner => Path.join name inner
    | _ => return []
  return found.flatten

/-- The listing of a folder, as far as it is asked for. -/
def listFolder (files below : Bool) (folder : IO.FS.DirEntry) : IO Recorded := do
  let names ← if files then filesIn folder else pure []
  let deep ← if below then filesBelow folder else pure []
  return .folder names deep

/-- What is at a path: a file with its content, or a folder with what `list` says of it. -/
def found (list : IO.FS.DirEntry → IO Recorded) (path : Text) : IO (Option Recorded) := do
  match ← entry? path with
  | none => return none
  | some e =>
    if ← e.root.isDir then return some (← list e)
    else return some (.file (← content path))

/-- The file of variables in the folder of the entry or in the nearest folder above it. -/
partial def environmentFile? (folder : IO.FS.DirEntry) : IO (Option Recorded) := do
  let path := (folder.root / String.ofList Command.environmentFile).toString.toList
  match ← found (listFolder false false) path with
  | some (.file bytes) => return some (.file bytes)
  | _ =>
    match folder.root.parent with
    | some above => environmentFile? { root := above, fileName := "" }
    | none => return none

def environment (r : Recording) : IO Environment := do
  let called := match r.read Command.environmentFile with
    | .ok bytes => Environment.namesCalled (Environment.readableText bytes)
    | .error _ => []
  valuesOf (Command.variableNames ++ called)

/-- The recording with the folders that the request leads to, and their rule files. -/
def withRuleFiles (r : Recording) (request : PassRequest) : IO Recording := do
  let settings := request.settings r.view
  let folder := request.dataFolder
  let inner := Path.join folder settings.skyPatcherFolder
  let r := r.note folder (← found (listFolder true false) folder)
  let r := r.note inner (← found (listFolder (inner == folder) true) inner)
  match Candidate.inFolder r.view settings folder with
  | .error _ => return r
  | .ok candidates =>
    candidates.foldlM (fun r c => return r.note c.path (← found (listFolder false false) c.path)) r

def recording (r : Recording) (env : Environment) : IO Recording := do
  match Command.request (Command.fullEnvironment r.view env) with
  | .error _ => return r
  | .ok request =>
    let paths := request.snapshotPath :: request.settingsPath.toList
    let note (r : Recording) (path : Text) : IO Recording := do
      return r.note path (← found (listFolder false false) path)
    withRuleFiles (← paths.foldlM note r) request

end Collect
end Wardrobe

open Wardrobe in
def main : IO UInt32 := do
  let here : IO.FS.DirEntry := { root := ← IO.currentDir, fileName := "" }
  let r := Recording.note [] Command.environmentFile (← Collect.environmentFile? here)
  let env ← Collect.environment r
  let outcome := Command.run (← Collect.recording r env).view env
  IO.print (String.ofList outcome.output)
  IO.eprint (String.ofList outcome.errorOutput)
  return UInt32.ofNat outcome.exitCode
