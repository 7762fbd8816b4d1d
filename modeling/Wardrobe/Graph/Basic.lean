/-
Finite directed graphs as lists of successors.
-/

namespace Wardrobe

/-- A graph on the numbers below `successors.size`. -/
structure Graph where
  successors : Array (List Nat)
  deriving DecidableEq, Repr

namespace Graph

def size (g : Graph) : Nat := g.successors.size

/-- The ends of the edges that leave a node. -/
def after (g : Graph) (node : Nat) : List Nat := g.successors.getD node []

/-- How many edges there are, repeated ones included. -/
def edgeCount (g : Graph) : Nat := g.successors.toList.flatten.length

/-- Every edge ends at a node of the graph. -/
def IsClosed (g : Graph) : Prop := ∀ a, ∀ b ∈ g.after a, b < g.size

/-- The graph of a relation on the numbers below `n`, successors ascending. -/
def ofRelation (n : Nat) (related : Nat → Nat → Bool) : Graph :=
  ⟨((List.range n).map fun a => (List.range n).filter (related a)).toArray⟩

end Graph
end Wardrobe
