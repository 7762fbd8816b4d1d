import Mathlib.Data.Fintype.Order
import Mathlib.Logic.Relation
import Mathlib.Order.WellFounded
import Wardrobe.Graph.Basic
/-
Edges, paths and circles of a graph.

`Reaches` and `OnCircle` say in terms of edges what the walk and the placing compute.
-/

namespace Wardrobe
namespace Graph

open Relation

variable {g : Graph} {a b c : Nat}

def Edge (g : Graph) (a b : Nat) : Prop := b ∈ g.after a

/-- There is a path, which may have no edge at all. -/
def Reaches (g : Graph) : Nat → Nat → Prop := ReflTransGen g.Edge

/-- Each reaches the other. -/
def Linked (g : Graph) (a b : Nat) : Prop := g.Reaches a b ∧ g.Reaches b a

/-- The node lies on a circle of at least one edge. -/
def OnCircle (g : Graph) (a : Nat) : Prop := TransGen g.Edge a a

theorem Reaches.refl (g : Graph) (a : Nat) : g.Reaches a a := ReflTransGen.refl

theorem Reaches.of_edge (h : g.Edge a b) : g.Reaches a b := ReflTransGen.single h

theorem Reaches.trans (hab : g.Reaches a b) (hbc : g.Reaches b c) : g.Reaches a c :=
  ReflTransGen.trans hab hbc

theorem Linked.refl (g : Graph) (a : Nat) : g.Linked a a := ⟨Reaches.refl g a, Reaches.refl g a⟩

theorem Linked.symm (h : g.Linked a b) : g.Linked b a := ⟨h.2, h.1⟩

theorem Linked.trans (hab : g.Linked a b) (hbc : g.Linked b c) : g.Linked a c :=
  ⟨hab.1.trans hbc.1, hbc.2.trans hab.2⟩

/-- What no edge leaves, no path leaves. -/
theorem Reaches.mem_of_closed {s : Nat → Prop} (hs : ∀ v, s v → ∀ x ∈ g.after v, s x)
    (h : g.Reaches a b) (ha : s a) : s b := by
  induction h with
  | refl => exact ha
  | tail _ hedge ih => exact hs _ ih _ hedge

theorem Reaches.lt_size (hg : g.IsClosed) (h : g.Reaches a b) (ha : a < g.size) : b < g.size :=
  h.mem_of_closed (s := (· < g.size)) (fun v _ x hx => hg v x hx) ha

/-- A circle through a node is an edge to a node on the way back. -/
theorem onCircle_iff : g.OnCircle a ↔ ∃ b, g.Edge a b ∧ g.Reaches b a :=
  TransGen.head'_iff

/-- Two different nodes that reach each other lie on a circle. -/
theorem Linked.onCircle (h : g.Linked a b) (hne : a ≠ b) : g.OnCircle a := by
  rcases ReflTransGen.cases_head h.1 with heq | ⟨x, hax, hxb⟩
  · exact absurd heq hne
  · exact onCircle_iff.2 ⟨x, hax, Reaches.trans hxb h.2⟩

/-- Whether all edges end at nodes of the graph can be read off its lists. -/
theorem isClosed_iff : g.IsClosed ↔ ∀ targets ∈ g.successors, ∀ b ∈ targets, b < g.size := by
  constructor
  · intro h targets htargets
    obtain ⟨a, ha, rfl⟩ := Array.mem_iff_getElem.1 htargets
    have hafter : g.after a = g.successors[a] := by simp [after, ha]
    exact hafter ▸ h a
  · intro h a b hb
    by_cases ha : a < g.successors.size
    · have hafter : g.after a = g.successors[a] := by simp [after, ha]
      exact h _ (Array.getElem_mem ha) b (hafter ▸ hb)
    · have hafter : g.after a = [] := by simp [after, ha]
      exact absurd (hafter ▸ hb) List.not_mem_nil

/-! ## Graphs of relations -/

theorem size_ofRelation (n : Nat) (related : Nat → Nat → Bool) :
    (ofRelation n related).size = n := by
  simp [ofRelation, size]

theorem edge_ofRelation {n : Nat} {related : Nat → Nat → Bool} :
    (ofRelation n related).Edge a b ↔ a < n ∧ b < n ∧ related a b = true := by
  by_cases ha : a < n
  · have hafter : (ofRelation n related).after a = (List.range n).filter (related a) := by
      simp [ofRelation, after, ha]
    rw [Edge, hafter, List.mem_filter, List.mem_range]
    exact ⟨fun h => ⟨ha, h⟩, fun h => h.2⟩
  · have hafter : (ofRelation n related).after a = [] := by simp [ofRelation, after, ha]
    rw [Edge, hafter]
    exact ⟨fun h => absurd h List.not_mem_nil, fun h => absurd h.1 ha⟩

end Graph
end Wardrobe
