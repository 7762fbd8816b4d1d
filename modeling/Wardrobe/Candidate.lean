import Wardrobe.Error
import Wardrobe.Files.View
import Wardrobe.Keyword.Replay
import Wardrobe.RuleFile
/-
Finding and loading rule files.

SPID files lie in the data folder itself.  SkyPatcher files lie anywhere below a folder of their
own, in which one name is reserved for another purpose.
-/

namespace Wardrobe

/-- A file that looks like a rule file, by its place and name. -/
structure Candidate where
  path : Text
  dialect : Dialect
  deriving DecidableEq, Repr

/-- A candidate that could not be read. -/
structure UnreadableFile where
  path : Text
  reason : Text
  deriving DecidableEq, Repr

structure Loaded where
  status : Ending
  files : List RuleFile
  skipped : List UnreadableFile
  deriving DecidableEq, Repr

namespace Candidate

/-- The place in load order, as for the file that will be loaded. -/
def comparePlace (a b : Candidate) : Ordering :=
  (RuleFile.compareKeys (a.dialect.tier, Text.lower (Path.fileName a.path))
    (b.dialect.tier, Text.lower (Path.fileName b.path))).then (Path.compare a.path b.path)

def isSpidName (s : Settings) (name : Text) : Bool := Text.endsWithAscii s.spidSuffix name

def isSkyPatcherName (s : Settings) (name : Text) : Bool :=
  Text.endsWithAscii ".ini" name && !Text.sameAscii name s.reservedFileName

def spidIn (v : FileView) (s : Settings) (dataFolder : Text) : List Candidate :=
  ((v.filesIn dataFolder).map (Path.join dataFolder)).filterMap fun path =>
    if (Path.fileName? path).any (isSpidName s) then some ⟨path, .spid⟩ else none

def skyPatcherBelow (v : FileView) (s : Settings) (dataFolder : Text) : List Candidate :=
  let folder := Path.join dataFolder s.skyPatcherFolder
  if v.isFolder folder then
    ((v.filesBelow folder).map (Path.join folder)).filterMap fun path =>
      if (Path.fileName? path).any (isSkyPatcherName s) then some ⟨path, .skyPatcher⟩ else none
  else []

def inFolder (v : FileView) (s : Settings) (dataFolder : Text) :
    Except PassError (List Candidate) :=
  if v.isFolder dataFolder then
    .ok (sortBy comparePlace
      (skyPatcherBelow v s dataFolder ++ spidIn v s dataFolder))
  else .error (.missingPath dataFolder)

end Candidate

def FileView.decodedText (v : FileView) (path : Text) : Except PassError Text.Decoded :=
  if (v.kind? path).isNone then .error (.missingPath path)
  else
    match v.read path with
    | .ok bytes => .ok (Text.decode bytes)
    | .error fault => .error (.io path fault.message)

def Candidate.load (v : FileView) (c : Catalog) (candidate : Candidate) :
    Except UnreadableFile RuleFile :=
  match v.decodedText candidate.path with
  | .ok decoded => .ok (.ofDecoded c candidate.path candidate.dialect decoded)
  | .error e => .error ⟨candidate.path, e.message⟩

namespace Loaded

def cancelled : Loaded := ⟨.cancelled, [], []⟩

/-- Sort a loaded candidate to the files or to those skipped, behind the earlier ones. -/
def add (loaded : Loaded) : Except UnreadableFile RuleFile → Loaded
  | .ok file => { loaded with files := loaded.files ++ [file] }
  | .error skipped => { loaded with skipped := loaded.skipped ++ [skipped] }

/-- The files of the candidates that can be read, in load order. -/
def ofCandidates (v : FileView) (c : Catalog) (candidates : List Candidate)
    (isCancelled : Bool) : Loaded :=
  if isCancelled then cancelled
  else
    let loaded := (candidates.map (Candidate.load v c)).foldl add ⟨.completed, [], []⟩
    { loaded with files := RuleFile.inLoadOrder loaded.files }

end Loaded
end Wardrobe
