import Wardrobe.Graph.Components
/-
Orders in which every node comes after those with an edge to it.

Nodes wait for their predecessors, and of those that wait for none the least comes next.
-/

namespace Wardrobe
namespace Graph

/-- Where the placing stands: for how many predecessors each node still waits, the nodes that
wait for none, ascending, and those already placed. -/
structure Placement where
  waiting : Nat → Nat
  ready : List Nat
  placed : List Nat

def insertAscending (n : Nat) : List Nat → List Nat
  | [] => [n]
  | m :: rest => if n ≤ m then n :: m :: rest else m :: insertAscending n rest

namespace Placement

/-- How many edges end at the node, from the given nodes. -/
def inDegree (g : Graph) (nodes : List Nat) (node : Nat) : Nat :=
  (nodes.flatMap g.after).count node

/-- Nothing placed, and of the nodes those ready that none of them has an edge to. -/
def start (g : Graph) (nodes : List Nat) : Placement :=
  { waiting := inDegree g nodes
    ready := nodes.filter fun node => inDegree g nodes node = 0
    placed := [] }

/-- One predecessor fewer to wait for. -/
def release (p : Placement) (node : Nat) : Placement :=
  let left := p.waiting node - 1
  { p with
    waiting := setAt p.waiting node left
    ready := if left = 0 then insertAscending node p.ready else p.ready }

/-- Place the least ready node and release its successors among the nodes. -/
def place (g : Graph) (nodes : List Nat) (p : Placement) : Placement :=
  match p.ready with
  | [] => p
  | node :: rest =>
    ((g.after node).filter nodes.contains).foldl release
      { p with ready := rest, placed := p.placed ++ [node] }

end Placement

/-- The given nodes, ascending, in an order that respects the edges between them.  Nodes on a
circle, and those that come after one, are not placed. -/
def topologicalOrder (g : Graph) (nodes : List Nat) : List Nat :=
  (nodes.length.repeat (Placement.place g nodes) (Placement.start g nodes)).placed

end Graph
end Wardrobe
