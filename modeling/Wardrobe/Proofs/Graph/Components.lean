import Wardrobe.Distinct
import Wardrobe.Proofs.Graph.Walk
/-
What the walk finds: the strongly connected components of a graph and the nodes on its circles.
-/

namespace Wardrobe
namespace Graph

variable {g : Graph} {v : Nat}

theorem lt_size_of_edge {a b : Nat} (h : g.Edge a b) : a < g.size := by
  by_contra hle
  have hnil : g.after a = [] := by
    rw [after, Array.getD_eq_getD_getElem?, Array.getElem?_eq_none (Nat.le_of_not_lt hle)]
    rfl
  rw [Edge, hnil] at h
  exact List.not_mem_nil h

theorem OnCircle.lt_size (h : g.OnCircle v) : v < g.size := by
  obtain ⟨b, hedge, -⟩ := onCircle_iff.1 h
  exact lt_size_of_edge hedge

/-- At the end of the walk every node is in a component. -/
theorem components_spec (hg : g.IsClosed) :
    Walk.Settled g g.components ∧ ∀ v, v ∈ g.components.flatten ↔ v < g.size := by
  have hrange : ∀ r ∈ List.range g.size, r < g.size := fun r hr => List.mem_range.1 hr
  obtain ⟨hrest, hopened⟩ :=
    Walk.foldl_walkFrom_spec hg (List.range g.size) Walk.start ⟨Walk.inv_start g, rfl⟩ hrange
  refine ⟨hrest.settled, fun v => ⟨fun hv => ?_, fun hv => ?_⟩⟩
  · exact hrest.lt_size v ((hrest.isOpened_iff v).2 (Or.inr hv))
  · have hopen := hopened v (Or.inl (List.mem_range.2 hv))
    refine ((hrest.isOpened_iff v).1 hopen).resolve_left fun hstack => ?_
    have hn := hrest.nested_of_frames hrest.frames_eq
    generalize Walk.stack _ = stack at hn hstack
    cases hn
    exact List.not_mem_nil hstack

theorem exists_component (hg : g.IsClosed) (hv : v < g.size) : ∃ c ∈ g.components, v ∈ c :=
  List.mem_flatten.1 (((components_spec hg).2 v).2 hv)

/-- Paths lead to the same component or to an earlier one, so linked nodes share theirs. -/
theorem mem_component_of_linked (hg : g.IsClosed) {a b : Nat} {c : List Nat}
    (hc : c ∈ g.components) (ha : a ∈ c) (h : g.Linked a b) : b ∈ c := by
  obtain ⟨hsettled, hmem⟩ := components_spec hg
  have hb : b < g.size := h.1.lt_size hg ((hmem a).1 (List.mem_flatten.2 ⟨c, hc, ha⟩))
  obtain ⟨d, hd, hbd⟩ := exists_component hg hb
  obtain ⟨i, hi, rfl⟩ := List.mem_iff_getElem.1 hc
  obtain ⟨j, hj, rfl⟩ := List.mem_iff_getElem.1 hd
  have horder := List.pairwise_iff_getElem.1 hsettled.inOrder
  rcases Nat.lt_trichotomy i j with hij | rfl | hij
  · exact absurd h.1 (horder i j hi hj hij a ha b hbd)
  · exact hbd
  · exact absurd h.2 (horder j i hj hi hij b hbd a ha)

/-- A node is on a circle if its component goes round in one. -/
theorem head_loops_iff {c : List Nat} :
    c.head?.any (fun node => (g.after node).contains node) = true ↔
      ∃ node ∈ c.head?, g.Edge node node := by
  rw [Option.any_eq_true]
  simp only [List.contains_iff_mem, Option.mem_def]
  exact Iff.rfl

theorem isCircular_iff (hg : g.IsClosed) {c : List Nat} (hc : c ∈ g.components) (hv : v ∈ c) :
    g.isCircular c = true ↔ g.OnCircle v := by
  have hsettled := (components_spec hg).1
  rw [isCircular, Bool.or_eq_true, decide_eq_true_eq, head_loops_iff]
  constructor
  · intro h
    rcases h with hlength | ⟨node, hhead, hloop⟩
    · -- Another node of the component leads back to this one.
      have hnodup : c.Nodup := (List.nodup_flatten.1 hsettled.nodup).1 c hc
      obtain ⟨u, hu, hne⟩ := exists_ne_of_nodup hnodup hlength v
      exact (hsettled.linked c hc v hv u hu).onCircle hne.symm
    · have hlinked := hsettled.linked c hc v hv node (List.mem_of_head? hhead)
      by_cases hne : v = node
      · rw [hne]
        exact Relation.TransGen.single hloop
      · exact hlinked.onCircle hne
  · intro hcircle
    obtain ⟨b, hedge, hback⟩ := onCircle_iff.1 hcircle
    have hb : b ∈ c := mem_component_of_linked hg hc hv ⟨Reaches.of_edge hedge, hback⟩
    by_cases hlength : 1 < c.length
    · exact Or.inl hlength
    · -- The node is alone in its component, so the edge is a loop.
      have hpos := List.length_pos_of_mem hv
      have hone : c.length = 1 := by omega
      obtain ⟨node, rfl⟩ := List.length_eq_one_iff.1 hone
      rw [List.mem_singleton.1 hv, List.mem_singleton.1 hb] at hedge
      exact Or.inr ⟨node, rfl, hedge⟩

theorem mem_circularNodes (hg : g.IsClosed) : v ∈ g.circularNodes ↔ g.OnCircle v := by
  show v ∈ (List.range g.size).filter (g.components.filter g.isCircular).flatten.contains ↔ _
  rw [List.mem_filter, List.mem_range, List.contains_iff_mem, List.mem_flatten]
  constructor
  · intro h
    obtain ⟨-, c, hc, hv⟩ := h
    rw [List.mem_filter] at hc
    exact (isCircular_iff hg hc.1 hv).1 hc.2
  · intro hcircle
    obtain ⟨c, hc, hv⟩ := exists_component hg hcircle.lt_size
    exact ⟨hcircle.lt_size, c, List.mem_filter.2 ⟨hc, (isCircular_iff hg hc hv).2 hcircle⟩, hv⟩

/-- The lists are the strongly connected components of the graph, each before those from which it
can be reached. -/
structure AreComponents (g : Graph) (components : List (List Nat)) : Prop where
  /-- Every node of the graph occurs once, and nothing else does. -/
  perm_range : components.flatten.Perm (List.range g.size)
  ne_nil : ∀ c ∈ components, c ≠ []
  linked_iff : ∀ a < g.size, ∀ b < g.size, (∃ c ∈ components, a ∈ c ∧ b ∈ c) ↔ g.Linked a b
  reached_first : ∀ (i j : Nat) (c d : List Nat), components[i]? = some c →
    components[j]? = some d → i ≠ j → (∃ a ∈ c, ∃ b ∈ d, g.Reaches a b) → j < i

theorem areComponents_components (hg : g.IsClosed) : g.AreComponents g.components := by
  obtain ⟨hsettled, hmem⟩ := components_spec hg
  refine
    { perm_range := ?_
      ne_nil := hsettled.ne_nil
      linked_iff := fun a ha b _ => ⟨fun h => ?_, fun h => ?_⟩
      reached_first := fun i j c d hi hj hne h => ?_ }
  · refine (List.perm_ext_iff_of_nodup hsettled.nodup List.nodup_range).2 fun v => ?_
    rw [hmem v, List.mem_range]
  · obtain ⟨c, hc, ha, hb⟩ := h
    exact hsettled.linked c hc a ha b hb
  · obtain ⟨c, hc, hac⟩ := exists_component hg ha
    exact ⟨c, hc, hac, mem_component_of_linked hg hc hac h⟩
  · obtain ⟨a, ha, b, hb, hreach⟩ := h
    obtain ⟨hilt, rfl⟩ := List.getElem?_eq_some_iff.1 hi
    obtain ⟨hjlt, rfl⟩ := List.getElem?_eq_some_iff.1 hj
    have horder := List.pairwise_iff_getElem.1 hsettled.inOrder
    have hnot : ¬ i < j := fun hij => horder i j hilt hjlt hij a ha b hb hreach
    omega

theorem pairwise_circularNodes (g : Graph) : g.circularNodes.Pairwise (· < ·) :=
  List.pairwise_lt_range.filter _

end Graph
end Wardrobe
