import Wardrobe.Report.Summary
/-
Sessions: passes run on request, and questions about the last pass.

At most one pass runs at a time.  A pass that fails leaves the result of the one before in place,
and questions change nothing.
-/

namespace Wardrobe

/-- What a pass is to work on.  Without a path to settings the defaults hold. -/
structure PassRequest where
  dataFolder : Text
  snapshotPath : Text
  settingsPath : Option Text
  slot : Slot
  deriving DecidableEq, Repr

/-- A file that is to be checked before it is saved. -/
structure Draft where
  fileName : Text
  dialect : Dialect
  text : Text
  deriving DecidableEq, Repr

/-- A completed pass with what it worked on. -/
structure Published where
  game : Game
  settings : Settings
  pass : Pass

/-- A pass is running, its cancellation is wished for, and the last pass that was completed. -/
structure Session where
  running : Bool
  cancelRequested : Bool
  published : Option Published

/-- The settings in a file, or the defaults if it holds none. -/
def Settings.load (v : FileView) (path : Text) : Settings :=
  match v.readText path with
  | .ok t =>
    match Settings.read t with
    | .ok settings => settings
    | .error _ => .default
  | .error _ => .default

def Snapshot.load (v : FileView) (path : Text) : Except PassError Snapshot :=
  if (v.kind? path).isNone then .error (.missingPath path)
  else
    match v.readText path with
    | .ok t => (Snapshot.read t).mapError .ofSnapshot
    | .error fault => .error (.io path fault.message)

def PassRequest.settings (request : PassRequest) (v : FileView) : Settings :=
  (request.settingsPath.map (Settings.load v)).getD .default

/-- The pass that a request asks for.  A cancelled pass is a failure here. -/
def PassRequest.run (request : PassRequest) (v : FileView) (cancelled : Bool) :
    Except PassError Published := do
  let settings := request.settings v
  let game := (← Snapshot.load v request.snapshotPath).game
  let pass ← Pass.overFolder v game settings request.dataFolder request.slot cancelled
  if pass.isCancelled then throw .cancelled
  return { game, settings, pass }

namespace Session

def start : Session := ⟨false, false, none⟩

/-- Take the right to run a pass, which only one caller can have. -/
def acquire (s : Session) : Except RequestError Session :=
  if s.running then .error (.internal "Engine pass already running")
  else .ok { s with running := true }

def release (s : Session) : Session := { s with running := false }

def requestCancel (s : Session) : Session := { s with cancelRequested := true }

def clearCancel (s : Session) : Session := { s with cancelRequested := false }

def publish (s : Session) (result : Published) : Session := { s with published := some result }

/-- Run a pass and publish its result.  The right to run is given back before the result is
published. -/
def resolve (s : Session) (v : FileView) (request : PassRequest) :
    Except RequestError PassSummary × Session :=
  match s.acquire with
  | .error e => (.error e, s)
  | .ok s =>
    let s := s.clearCancel
    let result := request.run v s.cancelRequested
    let s := s.release
    match result with
    | .ok loaded => (.ok loaded.pass.summary, s.publish loaded)
    | .error e => (.error (.ofPass e), s)

def requirePass (s : Session) : Except RequestError Published :=
  match s.published with
  | some loaded => .ok loaded
  | none => .error (.notFound "No completed engine pass")

def check (s : Session) (file : Draft) : Except RequestError Review := do
  if (Text.trim file.fileName).isEmpty then throw (.engine "Proposed file name is empty")
  let loaded ← s.requirePass
  return Pass.review loaded.pass loaded.game loaded.settings file.fileName file.dialect file.text

def distributionsOn (s : Session) (npc : Text) : Except RequestError Assignment := do
  match FormKey.read? npc with
  | none => throw (.notFound ("Not a form key: " ++ npc))
  | some id =>
    let loaded ← s.requirePass
    match loaded.pass.resolution.find? id with
    | some a => return a
    | none => throw (.notFound ("No distributions for " ++ id.text))

/-- A line in another format: one line for each of its rules. -/
def convertLine (s : Session) (source target : Dialect) (line : Text) :
    Except RequestError (List Text) := do
  let loaded ← s.requirePass
  match readRuleLine loaded.game.catalog source 1 line with
  | .rules rules =>
    rules.mapM fun r =>
      (r.render target).mapError fun e => .ofPass (.ofUnrepresentable e)
  | .unparseable fault => throw (.engine fault.message)
  | .ignored _ => return []

end Session
end Wardrobe
