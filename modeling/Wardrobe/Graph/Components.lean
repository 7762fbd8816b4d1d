import Wardrobe.Graph.Basic
/-
Strongly connected components by one depth-first walk, after Tarjan.

Nodes are numbered in the order in which the walk opens them and kept on a stack until their
component is complete.  The low number of a node is the least number that the walk has seen to be
within reach of it on the stack.  A node that is done and whose low number is its own is the first
of its component that was opened, and the nodes above it on the stack are the others.

The walk keeps its own list of frames instead of calling itself, so a long chain of nodes costs
memory and not depth.  One move looks at one edge or closes one node.
-/

namespace Wardrobe
namespace Graph

def setAt (f : Nat → α) (i : Nat) (a : α) : Nat → α := fun j => if j = i then a else f j

/-- Where the walk stands.  `index` and `low` are functions because they are only looked up and
changed at single nodes.  A frame is an open node with the edges it has still to look at, the
innermost first, and `components` are the complete ones in the order of their completion. -/
structure Walk where
  index : Nat → Option Nat
  low : Nat → Nat
  next : Nat
  stack : List Nat
  frames : List (Nat × List Nat)
  components : List (List Nat)

namespace Walk

def start : Walk := ⟨fun _ => none, fun _ => 0, 0, [], [], []⟩

def openNode (g : Graph) (w : Walk) (node : Nat) : Walk :=
  { w with
    index := setAt w.index node (some w.next)
    low := setAt w.low node w.next
    next := w.next + 1
    stack := node :: w.stack
    frames := (node, g.after node) :: w.frames }

/-- Let the low number of a node sink to the given number. -/
def sink (w : Walk) (node number : Nat) : Walk :=
  { w with low := setAt w.low node (min (w.low node) number) }

/-- Take the nodes down to the given one off the stack, as a component. -/
def complete (w : Walk) (node : Nat) : Walk :=
  { w with
    stack := (w.stack.dropWhile (· ≠ node)).drop 1
    components := w.components ++ [w.stack.takeWhile (· ≠ node) ++ [node]] }

/-- Leave a node whose edges are done for the frames around it. -/
def close (w : Walk) (node : Nat) (around : List (Nat × List Nat)) : Walk :=
  let w : Walk := { w with frames := around }
  let w : Walk := match around with
    | (parent, _) :: _ => w.sink parent (w.low node)
    | [] => w
  if w.index node = some (w.low node) then w.complete node else w

/-- One move: look at the next edge of the innermost open node, or close the node. -/
def move (g : Graph) (w : Walk) : Walk :=
  match w.frames with
  | [] => w
  | (node, []) :: around => w.close node around
  | (node, next :: rest) :: around =>
    let w : Walk := { w with frames := (node, rest) :: around }
    match w.index next with
    | none => w.openNode g next
    | some number => if w.stack.contains next then w.sink node number else w

/-- Move until no node is open, at most the given number of times. -/
def finish (g : Graph) : Nat → Walk → Walk
  | 0, w => w
  | moves + 1, w => if w.frames.isEmpty then w else finish g moves (w.move g)

/-- Walk from a node, unless it has been reached already. -/
def walkFrom (g : Graph) (w : Walk) (root : Nat) : Walk :=
  match w.index root with
  | some _ => w
  | none => finish g (g.size + g.edgeCount) (w.openNode g root)

end Walk

/-- The strongly connected components, each before those from which it can be reached.  The moves
suffice, since every node is closed once and every edge looked at once. -/
def components (g : Graph) : List (List Nat) :=
  ((List.range g.size).foldl (Walk.walkFrom g) Walk.start).components

/-- The component goes round in a circle: it has several nodes, or one with an edge to itself. -/
def isCircular (g : Graph) (component : List Nat) : Bool :=
  1 < component.length || component.head?.any fun node => (g.after node).contains node

/-- The nodes on circles, ascending. -/
def circularNodes (g : Graph) : List Nat :=
  let circular := (g.components.filter g.isCircular).flatten
  (List.range g.size).filter circular.contains

end Graph
end Wardrobe
