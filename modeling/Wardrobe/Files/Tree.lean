import Wardrobe.Files.View
/-
A whole file system held in memory, and the view of it.

An entry stands at a location, which is the list of names that lead to it from the root.  Paths
lead to locations step by step, through links where they meet them.
-/

namespace Wardrobe

inductive FileEntry where
  | file (bytes : ByteArray)
  | folder
  | link (target : Text)

/-- The entries by location, and the folder in which relative paths begin.  The root is a folder
without an entry of its own. -/
structure FileTree where
  entries : List (List Text × FileEntry)
  workingFolder : List Text

namespace FileTree

def entry? (t : FileTree) (location : List Text) : Option FileEntry :=
  if location.isEmpty then some .folder else t.entries.lookup location

def isFolderAt (t : FileTree) (location : List Text) : Bool :=
  match t.entry? location with
  | some .folder => true
  | _ => false

/-- The names of a path, those of an absolute one after the root. -/
def parts (path : Text) : List Text :=
  if Path.isAbsolute path then (path.drop 1).splitOn '/' else path.splitOn '/'

/-- Where the rest of a path leads from a location.  An empty name and a dot stay where they are
but ask for a folder, and at most `links` links are followed. -/
def follow (t : FileTree) (links : Nat) (location : List Text) : List Text → Option (List Text)
  | [] => some location
  | part :: rest =>
    if !t.isFolderAt location then none
    else if part.isEmpty || part = ['.'] then t.follow links location rest
    else if part = ['.', '.'] then t.follow links location.dropLast rest
    else
      match t.entry? (location ++ [part]) with
      | none => none
      | some (.link target) =>
        match links with
        | 0 => none
        | links + 1 =>
          t.follow links (if Path.isAbsolute target then [] else location) (parts target ++ rest)
      | some _ => t.follow links (location ++ [part]) rest
termination_by rest => (links, rest.length)

def maxLinks : Nat := 40

def startOf (t : FileTree) (path : Text) : List Text :=
  if Path.isAbsolute path then [] else t.workingFolder

/-- The location that a path leads to, links followed.  No path is not a path to anything. -/
def locate? (t : FileTree) (path : Text) : Option (List Text) :=
  if path.isEmpty then none
  else t.follow maxLinks (t.startOf path) (parts path)

def kindAt? (t : FileTree) (location : List Text) : Option FileKind :=
  match t.entry? location with
  | some (.file _) => some .file
  | some .folder => some .folder
  | _ => none

def readAt (t : FileTree) (location : List Text) : Except FileFault ByteArray :=
  match t.entry? location with
  | some (.file bytes) => .ok bytes
  | some .folder => .error .isFolder
  | _ => .error .missing

def namesBelow (t : FileTree) (folder : List Text) : List (List Text) :=
  t.entries.filterMap fun (location, e) =>
    match e with
    | .file _ => folder.isPrefixOf? location
    | _ => none

def view (t : FileTree) : FileView :=
  { kind? := fun path => (t.locate? path).bind t.kindAt?
    read := fun path =>
      match t.locate? path with
      | some location => t.readAt location
      | none => .error .missing
    filesIn := fun path =>
      (((t.locate? path).map t.namesBelow).getD []).filterMap fun names =>
        match names with
        | [name] => some name
        | _ => none
    filesBelow := fun path =>
      (((t.locate? path).map t.namesBelow).getD []).map (Text.joined ['/']) }

/-! ## Changes -/

/-- The entry at a location, in place of what was there. -/
def put (t : FileTree) (location : List Text) (e : FileEntry) : FileTree :=
  { t with entries := t.entries.filter (fun (other, _) => other != location) ++ [(location, e)] }

/-- Make the folders along the way where nothing is, and go to its end.  Whatever else stands on the
way has to lead to a folder. -/
def makeWay (t : FileTree) (location : List Text) : List Text → Option (FileTree × List Text)
  | [] => some (t, location)
  | part :: rest =>
    let next := location ++ [part]
    if part.isEmpty || part = ['.'] then t.makeWay location rest
    else if part = ['.', '.'] then t.makeWay location.dropLast rest
    else
      match t.entry? next with
      | none => (t.put next .folder).makeWay next rest
      | some _ =>
        match t.follow maxLinks location [part] with
        | some folder => if t.isFolderAt folder then t.makeWay folder rest else none
        | none => none

def makeFolder (t : FileTree) (path : Text) : FileTree :=
  match t.makeWay (t.startOf path) (parts path) with
  | some (t, _) => t
  | none => t

/-- The name of an entry in its folder.  Steps that stay or go up name no entry. -/
def entryName? (part : Text) : Option Text :=
  if part.isEmpty || part = ['.'] || part = ['.', '.'] then none else some part

/-- Where a file of the given name is written.  A link is followed even if nothing is at its end
yet, for then the file is made there. -/
def placeForFile? (t : FileTree) (links : Nat) (folder : List Text) (name : Text) :
    Option (List Text) := do
  let place := folder ++ [← entryName? name]
  match t.entry? place with
  | none => if t.isFolderAt folder then some place else none
  | some (.file _) => some place
  | some .folder => none
  | some (.link target) =>
    match links with
    | 0 => none
    | links + 1 =>
      let start := if Path.isAbsolute target then [] else folder
      let folder ← t.follow links start (parts target).dropLast
      t.placeForFile? links folder (← (parts target).getLast?)

/-- Write a file and make the folders it lies in.  Nothing happens where no file can be. -/
def writeFile (t : FileTree) (path : Text) (bytes : ByteArray) : FileTree :=
  let written := do
    let (t, folder) ← t.makeWay (t.startOf path) (parts path).dropLast
    let place ← t.placeForFile? maxLinks folder (← (parts path).getLast?)
    return t.put place (.file bytes)
  written.getD t

/-- Make a link, which need not lead anywhere, and the folders it lies in.  Nothing happens where
something is already. -/
def makeLink (t : FileTree) (path target : Text) : FileTree :=
  let made := do
    let (t, folder) ← t.makeWay (t.startOf path) (parts path).dropLast
    let place := folder ++ [← entryName? (← (parts path).getLast?)]
    if (t.entry? place).isSome then none else some (t.put place (.link target))
  made.getD t

/-- The location of what a path names itself: links are followed only on the way to it.  A slash or
a dot at the end asks for a folder. -/
def locateEntry? (t : FileTree) (path : Text) : Option (List Text) := do
  let steps := (parts path).filter fun part => (entryName? part).isSome || part = ['.', '.']
  let folder ← t.follow maxLinks (t.startOf path) steps.dropLast
  let location := folder ++ [← steps.getLast?]
  let last ← (parts path).getLast?
  if (last.isEmpty || last = ['.']) && !t.isFolderAt location then none else some location

/-- Remove what a path names itself and everything below it. -/
def remove (t : FileTree) (path : Text) : FileTree :=
  match t.locateEntry? path with
  | some location =>
    { t with entries := t.entries.filter fun (other, _) => !location.isPrefixOf other }
  | none => t

end FileTree
end Wardrobe
