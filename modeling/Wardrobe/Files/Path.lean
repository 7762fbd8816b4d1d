import Wardrobe.Text.Basic
/-
Paths as text.

A path is kept and shown as it was written.  Comparison and the name at the end go by its
components, so that doubled slashes, a slash at the end and inner dots make no difference.
-/

namespace Wardrobe

inductive PathStep where
  | root
  | here
  | up
  | name (t : Text)
  deriving DecidableEq, Repr

namespace PathStep

/-- The sort of a step: the root before `.` before `..` before names. -/
def rank : PathStep → Nat
  | root => 0
  | here => 1
  | up => 2
  | name _ => 3

def compare : PathStep → PathStep → Ordering
  | name a, name b => Text.compare a b
  | a, b => Ord.compare a.rank b.rank

end PathStep

namespace Path

/-- The step that a text between slashes stands for.  Empty texts and dots inside a path are no
steps. -/
def step? (t : Text) : Option PathStep :=
  if t.isEmpty || t = ['.'] then none
  else if t = ['.', '.'] then some .up
  else some (.name t)

/-- The steps of a path.  A slash at the front is the root, a dot at the front a step. -/
def steps (path : Text) : List PathStep :=
  let parts := path.splitOn '/'
  let front : List PathStep := match parts with
    | [] :: _ :: _ => [.root]
    | ['.'] :: _ => [.here]
    | _ => []
  front ++ parts.filterMap step?

def compareSteps : List PathStep → List PathStep → Ordering
  | [], [] => .eq
  | [], _ :: _ => .lt
  | _ :: _, [] => .gt
  | a :: s, b :: t => (a.compare b).then (compareSteps s t)

def compare (a b : Text) : Ordering := compareSteps (steps a) (steps b)

/-- The name of the file or folder that a path leads to, if its last step is a name. -/
def fileName? (path : Text) : Option Text :=
  match (steps path).getLast? with
  | some (.name t) => some t
  | _ => none

/-- The name of the file that a path leads to, or no text. -/
def fileName (path : Text) : Text := (fileName? path).getD []

def isAbsolute (path : Text) : Bool := path.head? = some '/'

/-- `inner` as seen from the folder `base`.  Absolute paths stay as they are. -/
def join (base inner : Text) : Text :=
  if isAbsolute inner || base.isEmpty then inner
  else if base.getLast? = some '/' then base ++ inner
  else base ++ '/' :: inner

end Path
end Wardrobe
