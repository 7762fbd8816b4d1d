import Wardrobe.Files.Path
import Wardrobe.Text.Encoding
/-
The files as one pass of the engine sees them.

A pass asks only a few questions about files, and they are the fields of a view.  The answers do
not change during a pass.
-/

namespace Wardrobe

inductive FileFault where
  | isFolder
  | missing
  | notUtf8
  | other (reason : Text)
  deriving DecidableEq, Repr

def FileFault.message : FileFault → Text
  | isFolder => "Is a directory (os error 21)"
  | missing => "No such file or directory (os error 2)"
  | notUtf8 => "stream did not contain valid UTF-8"
  | other reason => reason

inductive FileKind where
  | file
  | folder
  deriving DecidableEq, Repr

/-- Answers about files.

`kind?` says what a path leads to when links are followed, and `read` gives the bytes of a file.
`filesIn` lists the names of the regular files that lie in a folder itself, and `filesBelow` those
at any depth below it, as paths seen from the folder.  Neither follows links, and neither promises
an order. -/
structure FileView where
  kind? : Text → Option FileKind
  read : Text → Except FileFault ByteArray
  filesIn : Text → List Text
  filesBelow : Text → List Text

namespace FileView

def isFolder (v : FileView) (path : Text) : Bool := v.kind? path == some .folder

/-- The text of a file that has to be UTF-8. -/
def readText (v : FileView) (path : Text) : Except FileFault Text := do
  match Text.ofUtf8? (← v.read path) with
  | some t => return t
  | none => throw .notUtf8

end FileView
end Wardrobe
