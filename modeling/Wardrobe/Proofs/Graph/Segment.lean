import Wardrobe.Graph.Components
import Wardrobe.Proofs.Graph.Reachability
/-
The stack of the walk for strongly connected components.

It is cut into segments, one for each frame: the open node of the frame and above it the closed
nodes that were opened after it and before the next frame.  The nodes of a segment reach each
other, and every edge that has been looked at in it leads to a node no lower than the low number of
its open node, unless that node is complete.  `Nested` says this of all segments, and the last
section says how sinking, consuming an edge and closing a node change them.
-/

namespace Wardrobe
namespace Graph

theorem setAt_self (f : Nat → α) (i : Nat) (a : α) : setAt f i a i = a := if_pos rfl

theorem setAt_of_ne {f : Nat → α} {i j : Nat} {a : α} (h : j ≠ i) : setAt f i a j = f j := if_neg h

theorem setAt_eq_self (f : Nat → α) (i : Nat) : setAt f i (f i) = f := by
  funext j
  by_cases h : j = i
  · rw [h, setAt_self]
  · rw [setAt_of_ne h]

namespace Walk

variable {g : Graph} {w w' : Walk} {node x n : Nat} {rest above below stack : List Nat}
  {around frames : List (Nat × List Nat)}

/-- The number of an opened node. -/
def number (w : Walk) (v : Nat) : Nat := (w.index v).getD 0

def IsOpened (w : Walk) (v : Nat) : Prop := (w.index v).isSome = true

/-- The target of an edge that has been looked at.  While it is on the stack it bounds the low
number that the edge was looked at for. -/
def Seen (w : Walk) (low target : Nat) : Prop :=
  w.IsOpened target ∧ (target ∈ w.stack → low ≤ w.number target)

theorem number_eq (h : w.index x = some n) : w.number x = n := by rw [number, h]; rfl

theorem isOpened_of_index (h : w.index x = some n) : w.IsOpened x := by rw [IsOpened, h]; rfl

theorem not_isOpened_of_index (h : w.index x = none) : ¬ w.IsOpened x := by
  rw [IsOpened, h]
  decide

theorem index_eq_number (h : w.IsOpened x) : w.index x = some (w.number x) := by
  obtain ⟨n, hn⟩ := Option.isSome_iff_exists.1 h
  rw [hn, number_eq hn]

theorem Seen.mono {low low' : Nat} (h : w.Seen low x) (hle : low' ≤ low) : w.Seen low' x :=
  ⟨h.1, fun hx => Nat.le_trans hle (h.2 hx)⟩

/-! ## Segments of the stack -/

/-- The part of the stack that belongs to one frame: the closed nodes `above` its open node.  The
edges of the open node are those in `rest`, which are still to be looked at, and seen ones. -/
structure Segment (g : Graph) (w : Walk) (node : Nat) (rest above below : List Nat) : Prop where
  rest_after : ∀ x ∈ rest, x ∈ g.after node
  node_seen : ∀ x ∈ g.after node, x ∈ rest ∨ w.Seen (w.low node) x
  above_seen : ∀ u ∈ above, ∀ x ∈ g.after u, w.Seen (w.low node) x
  above_linked : ∀ u ∈ above, g.Linked u node
  low_reached : ∃ x ∈ node :: below, w.number x = w.low node ∧ g.Reaches node x

/-- The stack is the segments of the frames, innermost first, and every frame but the outermost was
entered by an edge of the next one. -/
inductive Nested (g : Graph) (w : Walk) : List (Nat × List Nat) → List Nat → Prop where
  | nil : Nested g w [] []
  | cons {node : Nat} {rest : List Nat} {around : List (Nat × List Nat)} {above below : List Nat}
      (inner : Segment g w node rest above below)
      (entered : ∀ f ∈ around.head?, node ∈ g.after f.1)
      (outer : Nested g w around below) :
      Nested g w ((node, rest) :: around) (above ++ node :: below)

theorem Nested.nodes_mem (h : Nested g w frames stack) : ∀ f ∈ frames, f.1 ∈ stack := by
  induction h with
  | nil => exact fun f hf => absurd hf List.not_mem_nil
  | cons inner entered outer ih =>
    intro f hf
    rcases List.mem_cons.1 hf with rfl | hf
    · exact List.mem_append_right _ List.mem_cons_self
    · exact List.mem_append_right _ (List.mem_cons_of_mem _ (ih f hf))

/-- Every node on the stack reaches the innermost open node. -/
theorem Nested.reaches_head (h : Nested g w frames stack) :
    ∀ f ∈ frames.head?, ∀ x ∈ stack, g.Reaches x f.1 := by
  induction h with
  | nil => exact fun f hf => absurd hf (by simp)
  | @cons node rest around above below inner entered outer ih =>
    intro f hf x hx
    obtain rfl : (node, rest) = f := by simpa using hf
    rcases List.mem_append.1 hx with hx | hx
    · exact (inner.above_linked x hx).1
    rcases List.mem_cons.1 hx with rfl | hx
    · exact Reaches.refl g x
    cases houter : outer with
    | nil => exact absurd hx List.not_mem_nil
    | @cons parent rest' around' _ _ _ _ _ =>
      have hedge : g.Edge parent node := entered (parent, rest') (by simp)
      exact (ih (parent, rest') (by simp) x hx).trans (Reaches.of_edge hedge)

/-- A segment depends on the walk through the low number of its node, through the numbers below it
and through which targets are seen. -/
theorem Segment.congr (h : Segment g w node rest above below)
    (hseen : ∀ low x, w.Seen low x → w'.Seen low x) (hlow : w'.low node = w.low node)
    (hnumber : ∀ x ∈ node :: below, w'.number x = w.number x) :
    Segment g w' node rest above below where
  rest_after := h.rest_after
  node_seen x hx := by
    rw [hlow]
    exact (h.node_seen x hx).imp id (hseen _ x)
  above_seen u hu x hx := by
    rw [hlow]
    exact hseen _ x (h.above_seen u hu x hx)
  above_linked := h.above_linked
  low_reached := by
    obtain ⟨x, hx, hnum, hreach⟩ := h.low_reached
    exact ⟨x, hx, by rw [hnumber x hx, hlow, hnum], hreach⟩

theorem Nested.congr (h : Nested g w frames stack)
    (hseen : ∀ low x, w.Seen low x → w'.Seen low x)
    (hlow : ∀ v ∈ stack, w'.low v = w.low v) (hnumber : ∀ v ∈ stack, w'.number v = w.number v) :
    Nested g w' frames stack := by
  induction h with
  | nil => exact .nil
  | cons inner entered outer ih =>
    refine .cons (inner.congr hseen (hlow _ (by simp)) fun x hx => hnumber x ?_) entered
      (ih (fun v hv => hlow v (by simp [hv])) fun v hv => hnumber v (by simp [hv]))
    exact List.mem_append_right _ hx

theorem Nested.cons_inv (h : Nested g w ((node, rest) :: around) stack) :
    ∃ above below, stack = above ++ node :: below ∧ Segment g w node rest above below ∧
      (∀ f ∈ around.head?, node ∈ g.after f.1) ∧ Nested g w around below := by
  cases h with
  | cons inner entered outer => exact ⟨_, _, rfl, inner, entered, outer⟩

/-! ## Numbers along the stack -/

/-- Later nodes lie above earlier ones. -/
def Descending (w : Walk) (stack : List Nat) : Prop :=
  stack.Pairwise fun a b => w.number b < w.number a

theorem Descending.tail (h : w.Descending (above ++ node :: below)) : w.Descending below :=
  (List.pairwise_cons.1 (List.pairwise_append.1 h).2.1).2

theorem Descending.number_below (h : w.Descending (above ++ node :: below)) :
    ∀ x ∈ below, w.number x < w.number node :=
  (List.pairwise_cons.1 (List.pairwise_append.1 h).2.1).1

theorem Descending.number_above (h : w.Descending (above ++ node :: below)) :
    ∀ x ∈ above, w.number node < w.number x :=
  fun x hx => (List.pairwise_append.1 h).2.2 x hx node List.mem_cons_self

theorem Descending.nodup (h : w.Descending stack) : stack.Nodup := by
  refine List.Pairwise.imp (fun {a b} hlt heq => ?_) h
  rw [heq] at hlt
  exact Nat.lt_irrefl _ hlt

/-- What is numbered no later than an open node does not lie above it. -/
theorem Descending.mem_of_number_le (h : w.Descending (above ++ node :: below))
    (hx : x ∈ above ++ node :: below) (hle : w.number x ≤ w.number node) : x ∈ node :: below := by
  rcases List.mem_append.1 hx with hx | hx
  · have hgt := h.number_above x hx
    omega
  · exact hx

theorem Descending.not_mem_segment (h : w.Descending (above ++ node :: below)) (hx : x ∈ below) :
    x ∉ above ++ [node] := by
  intro hmem
  have hlt := h.number_below x hx
  rcases List.mem_append.1 hmem with habove | heq
  · have hgt := h.number_above x habove
    omega
  · rw [List.mem_singleton.1 heq] at hlt
    exact Nat.lt_irrefl _ hlt

theorem Segment.linked (h : Segment g w node rest above below) :
    ∀ a ∈ above ++ [node], ∀ b ∈ above ++ [node], g.Linked a b := by
  have hnode : ∀ a ∈ above ++ [node], g.Linked a node := by
    intro a ha
    rcases List.mem_append.1 ha with ha | ha
    · exact h.above_linked a ha
    · rw [List.mem_singleton.1 ha]
      exact Linked.refl g node
  exact fun a ha b hb => (hnode a ha).trans (hnode b hb).symm

/-- With no edge of its node left, a segment has looked at all its edges. -/
theorem Segment.seen (h : Segment g w node [] above below) :
    ∀ v ∈ above ++ [node], ∀ x ∈ g.after v, w.Seen (w.low node) x := by
  intro v hv x hx
  rcases List.mem_append.1 hv with hv | hv
  · exact h.above_seen v hv x hx
  · rw [List.mem_singleton.1 hv] at hx
    exact (h.node_seen x hx).resolve_left List.not_mem_nil

theorem Segment.low_le_number (h : Segment g w node rest above below)
    (hd : w.Descending (above ++ node :: below)) : w.low node ≤ w.number node := by
  obtain ⟨x, hx, hnum, -⟩ := h.low_reached
  rcases List.mem_cons.1 hx with rfl | hx
  · exact Nat.le_of_eq hnum.symm
  · have hlt := hd.number_below x hx
    omega

/-! ## What a move does to the segments -/

theorem seen_sink {low : Nat} : (w.sink node n).Seen low x ↔ w.Seen low x := Iff.rfl

theorem low_sink_self : (w.sink node n).low node = min (w.low node) n := setAt_self ..

theorem low_sink_of_ne (h : x ≠ node) : (w.sink node n).low x = w.low x := setAt_of_ne h

/-- A low number that is low enough does not sink. -/
theorem sink_eq_self (h : w.low node ≤ n) : w.sink node n = w := by
  have hlow : setAt w.low node (min (w.low node) n) = w.low := by
    rw [Nat.min_eq_left h, setAt_eq_self]
  show { w with low := setAt w.low node (min (w.low node) n) } = w
  rw [hlow]

/-- The low number of the innermost open node may sink to the number of a node on the stack that it
reaches. -/
theorem Nested.sink (h : Nested g w ((node, rest) :: around) stack) (hd : w.Descending stack)
    (hx : x ∈ stack) (hreach : g.Reaches node x) :
    Nested g (w.sink node (w.number x)) ((node, rest) :: around) stack := by
  by_cases hle : w.low node ≤ w.number x
  · rw [sink_eq_self hle]
    exact h
  obtain ⟨above, below, rfl, inner, entered, outer⟩ := h.cons_inv
  have hlow : w.low node ≤ w.number node := inner.low_le_number hd
  have hmin : (w.sink node (w.number x)).low node = w.number x := by
    rw [low_sink_self]
    omega
  have hsunk : ∀ y, w.Seen (w.low node) y →
      (w.sink node (w.number x)).Seen ((w.sink node (w.number x)).low node) y := by
    intro y hy
    rw [hmin, seen_sink]
    exact hy.mono (by omega)
  refine .cons
    { rest_after := inner.rest_after
      node_seen := fun y hy => (inner.node_seen y hy).imp id (hsunk y)
      above_seen := fun u hu y hy => hsunk y (inner.above_seen u hu y hy)
      above_linked := inner.above_linked
      low_reached := ⟨x, hd.mem_of_number_le hx (by omega), hmin.symm, hreach⟩ }
    entered (outer.congr (fun _ _ hy => hy) (fun v hv => ?_) fun _ _ => rfl)
  refine low_sink_of_ne fun heq => ?_
  have hlt := hd.number_below v hv
  rw [heq] at hlt
  exact Nat.lt_irrefl _ hlt

/-- A seen target need not be looked at again. -/
theorem Nested.consume (h : Nested g w ((node, x :: rest) :: around) stack)
    (hx : w.Seen (w.low node) x) : Nested g w ((node, rest) :: around) stack := by
  obtain ⟨above, below, rfl, inner, entered, outer⟩ := h.cons_inv
  refine .cons
    { rest_after := fun y hy => inner.rest_after y (List.mem_cons_of_mem x hy)
      node_seen := fun y hy => ?_
      above_seen := inner.above_seen
      above_linked := inner.above_linked
      low_reached := inner.low_reached } entered outer
  rcases inner.node_seen y hy with hmem | hseen
  · rcases List.mem_cons.1 hmem with rfl | hmem
    · exact Or.inr hx
    · exact Or.inl hmem
  · exact Or.inr hseen

/-- A closed node that reaches the open node below it joins the segment of that one. -/
theorem Nested.merge {parent : Nat} {left : List Nat} (inner : Segment g w node [] above below)
    (hreach : g.Linked node parent) (hlow : w.low parent ≤ w.low node)
    (outer : Nested g w ((parent, left) :: around) below) :
    Nested g w ((parent, left) :: around) (above ++ node :: below) := by
  obtain ⟨above', below', rfl, seg, entered, rest⟩ := outer.cons_inv
  have heq : above ++ node :: (above' ++ parent :: below') =
      (above ++ node :: above') ++ parent :: below' := by simp
  rw [heq]
  refine .cons
    { rest_after := seg.rest_after
      node_seen := seg.node_seen
      above_seen := fun u hu y hy => ?_
      above_linked := fun u hu => ?_
      low_reached := seg.low_reached } entered rest
  · rcases List.mem_append.1 hu with hu | hu
    · exact (inner.above_seen u hu y hy).mono hlow
    rcases List.mem_cons.1 hu with rfl | hu
    · exact ((inner.node_seen y hy).resolve_left List.not_mem_nil).mono hlow
    · exact seg.above_seen u hu y hy
  · rcases List.mem_append.1 hu with hu | hu
    · exact (inner.above_linked u hu).trans hreach
    rcases List.mem_cons.1 hu with rfl | hu
    · exact hreach
    · exact seg.above_linked u hu

end Walk
end Graph
end Wardrobe
