import Wardrobe.Files.View
/-
Answers about files that have been collected beforehand.

Whoever runs a pass on real files asks the questions first and writes the answers down, so that
the pass itself is a function of the recording.
-/

namespace Wardrobe

/-- What has been found at a path: a file with what reading it gave, or a folder with the names of
the regular files in it and below it. -/
inductive Recorded where
  | file (content : Except FileFault ByteArray)
  | folder (filesIn filesBelow : List Text)

/-- What has been found, path by path.  The latest entry of a path stands
first and counts. -/
abbrev Recording := List (Text × Recorded)

namespace Recording

/-- The recording with what was found at one more path, if anything was. -/
def note (r : Recording) (path : Text) (found : Option Recorded) : Recording :=
  match found with
  | some recorded => (path, recorded) :: r
  | none => r

def kind? (r : Recording) (path : Text) : Option FileKind :=
  (r.lookup path).map fun
    | .file _ => .file
    | .folder _ _ => .folder

def read (r : Recording) (path : Text) : Except FileFault ByteArray :=
  match r.lookup path with
  | some (.file content) => content
  | some (.folder _ _) => .error .isFolder
  | none => .error .missing

def filesIn (r : Recording) (path : Text) : List Text :=
  match r.lookup path with
  | some (.folder names _) => names
  | _ => []

def filesBelow (r : Recording) (path : Text) : List Text :=
  match r.lookup path with
  | some (.folder _ names) => names
  | _ => []

def view (r : Recording) : FileView := ⟨r.kind?, r.read, r.filesIn, r.filesBelow⟩

end Recording
end Wardrobe
