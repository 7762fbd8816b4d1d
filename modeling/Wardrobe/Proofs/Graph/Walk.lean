import Mathlib
import Wardrobe.Proofs.Graph.Segment
/-
Runs of the walk for strongly connected components.

`Moved` lists what a move can come to.  `Inv` says what the numbers, the segments of the stack and
the complete components are, and every move keeps it.  `work` counts the moves that are left: one
for each edge still to be looked at and one for each node still to be closed.  So a walk from any
node comes to an end within the moves that it is given.
-/

namespace Wardrobe
namespace Graph
namespace Walk

variable {g : Graph} {w w' : Walk} {node x : Nat} {rest above below : List Nat}
  {around frames : List (Nat × List Nat)}

/-! ## The moves -/

/-- What one move can come to. -/
inductive Moved (g : Graph) (w : Walk) : Walk → Prop
  | stay (hf : w.frames = []) : Moved g w w
  | close {node : Nat} {around : List (Nat × List Nat)} (hf : w.frames = (node, []) :: around) :
      Moved g w (w.close node around)
  | enter {node x : Nat} {rest : List Nat} {around : List (Nat × List Nat)}
      (hf : w.frames = (node, x :: rest) :: around) (hx : ¬ w.IsOpened x) :
      Moved g w (({ w with frames := (node, rest) :: around } : Walk).openNode g x)
  | lookBack {node x : Nat} {rest : List Nat} {around : List (Nat × List Nat)}
      (hf : w.frames = (node, x :: rest) :: around) (hmem : x ∈ w.stack) (hx : w.IsOpened x) :
      Moved g w (({ w with frames := (node, rest) :: around } : Walk).sink node (w.number x))
  | lookDone {node x : Nat} {rest : List Nat} {around : List (Nat × List Nat)}
      (hf : w.frames = (node, x :: rest) :: around) (hout : x ∉ w.stack) (hx : w.IsOpened x) :
      Moved g w { w with frames := (node, rest) :: around }

theorem moved_move (g : Graph) (w : Walk) : Moved g w (w.move g) := by
  cases hf : w.frames with
  | nil =>
    rw [move, hf]
    exact .stay hf
  | cons f around =>
    obtain ⟨node, edges⟩ := f
    cases edges with
    | nil =>
      rw [move, hf]
      exact .close hf
    | cons x rest =>
      simp only [move, hf]
      cases hx : w.index x with
      | none => exact .enter hf (not_isOpened_of_index hx)
      | some n =>
        dsimp only
        by_cases hmem : x ∈ w.stack
        · rw [← number_eq hx, if_pos (List.contains_iff_mem.2 hmem)]
          exact .lookBack hf hmem (isOpened_of_index hx)
        · rw [if_neg fun hc => hmem (List.contains_iff_mem.1 hc)]
          exact .lookDone hf hmem (isOpened_of_index hx)

/-! ## The invariant -/

/-- Complete components: none is empty, no edge leaves them together, and none leads from one to a
later one. -/
structure Settled (g : Graph) (components : List (List Nat)) : Prop where
  ne_nil : ∀ c ∈ components, c ≠ []
  nodup : components.flatten.Nodup
  closed : ∀ v ∈ components.flatten, ∀ x ∈ g.after v, x ∈ components.flatten
  linked : ∀ c ∈ components, ∀ a ∈ c, ∀ b ∈ c, g.Linked a b
  inOrder : components.Pairwise fun c d => ∀ a ∈ c, ∀ b ∈ d, ¬ g.Reaches a b

/-- What holds of the walk between any two moves. -/
structure Inv (g : Graph) (w : Walk) : Prop where
  isOpened_iff : ∀ v, w.IsOpened v ↔ v ∈ w.stack ∨ v ∈ w.components.flatten
  lt_size : ∀ v, w.IsOpened v → v < g.size
  lt_next : ∀ v ∈ w.stack, w.number v < w.next
  descending : w.Descending w.stack
  apart : ∀ v ∈ w.stack, v ∉ w.components.flatten
  nested : Nested g w w.frames w.stack
  settled : Settled g w.components

theorem inv_start (g : Graph) : Inv g start where
  isOpened_iff v := by simp [start, IsOpened]
  lt_size v hv := by simp [start, IsOpened] at hv
  lt_next v hv := absurd hv List.not_mem_nil
  descending := List.Pairwise.nil
  apart v hv := absurd hv List.not_mem_nil
  nested := .nil
  settled :=
    { ne_nil := fun c hc => absurd hc List.not_mem_nil
      nodup := List.nodup_nil
      closed := fun v hv => absurd hv (by simp [start])
      linked := fun c hc => absurd hc List.not_mem_nil
      inOrder := List.Pairwise.nil }

/-- Frames and low numbers may change as long as the segments stay what they are. -/
theorem Inv.congr (h : Inv g w) {low : Nat → Nat}
    (hn : Nested g { w with frames, low } frames w.stack) : Inv g { w with frames, low } where
  isOpened_iff := h.isOpened_iff
  lt_size := h.lt_size
  lt_next := h.lt_next
  descending := h.descending
  apart := h.apart
  nested := hn
  settled := h.settled

theorem Nested.withFrames {stack : List Nat} (h : Nested g w frames stack)
    (others : List (Nat × List Nat)) : Nested g { w with frames := others } frames stack :=
  h.congr (fun _ _ hs => hs) (fun _ _ => rfl) fun _ _ => rfl

/-! ## Opening a node -/

theorem number_openNode_self : (w.openNode g x).number x = w.next :=
  number_eq (setAt_self ..)

theorem index_openNode_of_ne {v : Nat} (h : v ≠ x) : (w.openNode g x).index v = w.index v :=
  setAt_of_ne h

theorem number_openNode_of_ne {v : Nat} (h : v ≠ x) : (w.openNode g x).number v = w.number v := by
  rw [number, index_openNode_of_ne h, number]

theorem isOpened_openNode {v : Nat} : (w.openNode g x).IsOpened v ↔ v = x ∨ w.IsOpened v := by
  by_cases h : v = x
  · subst h
    exact ⟨fun _ => Or.inl rfl, fun _ => isOpened_of_index (setAt_self ..)⟩
  · rw [IsOpened, index_openNode_of_ne h]
    exact ⟨Or.inr, fun hv => hv.resolve_left h⟩

theorem seen_openNode (hx : ¬ w.IsOpened x) {low v : Nat} (h : w.Seen low v) :
    (w.openNode g x).Seen low v := by
  have hne : v ≠ x := fun heq => hx (heq ▸ h.1)
  refine ⟨isOpened_openNode.2 (Or.inr h.1), fun hv => ?_⟩
  rw [number_openNode_of_ne hne]
  exact h.2 ((List.mem_cons.1 hv).resolve_left hne)

/-- The new node is a segment of its own.  It is seen by those that look at it later, for its
number is above all others. -/
theorem Inv.openNode (h : Inv g w) (hx : ¬ w.IsOpened x) (hlt : x < g.size)
    (entered : ∀ f ∈ frames.head?, x ∈ g.after f.1)
    (hn : Nested g (({ w with frames } : Walk).openNode g x) frames w.stack) :
    Inv g (({ w with frames } : Walk).openNode g x) := by
  have hne : ∀ v ∈ w.stack, v ≠ x := by
    intro v hv heq
    exact hx (heq ▸ (h.isOpened_iff v).2 (Or.inl hv))
  refine
    { isOpened_iff := fun v => ?_
      lt_size := fun v hv => ?_
      lt_next := fun v hv => ?_
      descending := ?_
      apart := fun v hv => ?_
      nested := ?_
      settled := h.settled }
  · rw [isOpened_openNode]
    show v = x ∨ w.IsOpened v ↔ v ∈ x :: w.stack ∨ v ∈ w.components.flatten
    rw [List.mem_cons, h.isOpened_iff v, or_assoc]
  · rcases isOpened_openNode.1 hv with rfl | hv
    · exact hlt
    · exact h.lt_size v hv
  · show _ < w.next + 1
    rcases List.mem_cons.1 hv with rfl | hv
    · rw [number_openNode_self]
      exact Nat.lt_succ_self _
    · rw [number_openNode_of_ne (hne v hv)]
      exact Nat.lt_succ_of_lt (h.lt_next v hv)
  · refine List.pairwise_cons.2 ⟨fun v hv => ?_, ?_⟩
    · rw [number_openNode_self, number_openNode_of_ne (hne v hv)]
      exact h.lt_next v hv
    · refine List.Pairwise.imp_of_mem (fun {a b} ha hb hab => ?_) h.descending
      rw [number_openNode_of_ne (hne a ha), number_openNode_of_ne (hne b hb)]
      exact hab
  · rcases List.mem_cons.1 hv with rfl | hv
    · exact fun hmem => hx ((h.isOpened_iff v).2 (Or.inr hmem))
    · exact h.apart v hv
  · show Nested g _ ((x, g.after x) :: frames) ([] ++ x :: w.stack)
    refine .cons
      { rest_after := fun y hy => hy
        node_seen := fun y hy => Or.inl hy
        above_seen := fun u hu => absurd hu List.not_mem_nil
        above_linked := fun u hu => absurd hu List.not_mem_nil
        low_reached := ⟨x, List.mem_cons_self, ?_, Reaches.refl g x⟩ } entered hn
    rw [number_openNode_self]
    exact (setAt_self ..).symm

/-! ## Looking at an edge -/

theorem Inv.nested_of_frames (h : Inv g w) (hf : w.frames = frames) :
    Nested g w frames w.stack := hf ▸ h.nested

theorem Inv.lt_size_of_mem_stack (h : Inv g w) : ∀ v ∈ w.stack, v < g.size :=
  fun v hv => h.lt_size v ((h.isOpened_iff v).2 (Or.inl hv))

theorem Inv.lt_size_of_mem_frames (h : Inv g w) : ∀ f ∈ w.frames, f.1 < g.size :=
  fun f hf => h.lt_size_of_mem_stack f.1 (h.nested.nodes_mem f hf)

/-- The edge leads to a node of a complete component. -/
theorem Inv.look_done (h : Inv g w) (hf : w.frames = (node, x :: rest) :: around)
    (hx : w.IsOpened x) (hout : x ∉ w.stack) :
    Inv g { w with frames := (node, rest) :: around } := by
  have hseen : w.Seen (w.low node) x := ⟨hx, fun hmem => absurd hmem hout⟩
  exact h.congr (((h.nested_of_frames hf).consume hseen).withFrames _)

theorem Inv.edge_of_frames (h : Inv g w) (hf : w.frames = (node, x :: rest) :: around) :
    g.Edge node x := by
  obtain ⟨above, below, -, inner, -⟩ := (h.nested_of_frames hf).cons_inv
  exact inner.rest_after x List.mem_cons_self

/-- The edge leads back to a node on the stack. -/
theorem Inv.look_back (h : Inv g w) (hf : w.frames = (node, x :: rest) :: around)
    (hmem : x ∈ w.stack) :
    Inv g (({ w with frames := (node, rest) :: around } : Walk).sink node (w.number x)) := by
  have hx : w.IsOpened x := (h.isOpened_iff x).2 (Or.inl hmem)
  have hsunk := (h.nested_of_frames hf).sink h.descending hmem
    (Reaches.of_edge (h.edge_of_frames hf))
  have hseen : (w.sink node (w.number x)).Seen ((w.sink node (w.number x)).low node) x := by
    refine ⟨hx, fun _ => ?_⟩
    rw [low_sink_self]
    exact Nat.min_le_right _ _
  exact h.congr ((hsunk.consume hseen).withFrames _)

/-- The edge leads to a node that is not open yet. -/
theorem Inv.enter (hg : g.IsClosed) (h : Inv g w) (hf : w.frames = (node, x :: rest) :: around)
    (hx : ¬ w.IsOpened x) :
    Inv g (({ w with frames := (node, rest) :: around } : Walk).openNode g x) := by
  have hn := h.nested_of_frames hf
  have hedge := h.edge_of_frames hf
  have hne : ∀ v ∈ w.stack, v ≠ x := by
    intro v hv heq
    exact hx (heq ▸ (h.isOpened_iff v).2 (Or.inl hv))
  have hopen : Nested g (({ w with frames := (node, rest) :: around } : Walk).openNode g x)
      ((node, x :: rest) :: around) w.stack :=
    hn.congr (fun _ _ hs => seen_openNode (g := g) hx hs) (fun v hv => setAt_of_ne (hne v hv))
      fun v hv => number_openNode_of_ne (hne v hv)
  have hnode : node ∈ w.stack := hn.nodes_mem _ List.mem_cons_self
  have hlow : w.low node < w.next := by
    obtain ⟨above, below, hstack, inner, -⟩ := hn.cons_inv
    have hle := inner.low_le_number (hstack ▸ h.descending)
    exact Nat.lt_of_le_of_lt hle (h.lt_next node hnode)
  refine h.openNode hx (hg node x hedge) (fun f hf => ?_)
    (hopen.consume ⟨isOpened_openNode.2 (Or.inl rfl), fun _ => ?_⟩)
  · obtain rfl : (node, rest) = f := by simpa using hf
    exact hedge
  · rw [number_openNode_self]
    show setAt w.low x w.next node ≤ w.next
    rw [setAt_of_ne (hne node hnode)]
    exact Nat.le_of_lt hlow

/-! ## Closing a node -/

theorem complete_eq (hstack : w.stack = above ++ node :: below) (hout : node ∉ above) :
    w.complete node =
      { w with stack := below, components := w.components ++ [above ++ [node]] } := by
  have hpos : ∀ a ∈ above, decide (a ≠ node) = true := by
    intro a ha
    exact decide_eq_true fun heq => hout (heq ▸ ha)
  have htake : w.stack.takeWhile (· ≠ node) = above := by
    rw [hstack, List.takeWhile_append_of_pos hpos]
    simp
  have hdrop : (w.stack.dropWhile (· ≠ node)).drop 1 = below := by
    rw [hstack, List.dropWhile_append_of_pos hpos]
    simp
  rw [complete, htake, hdrop]

theorem Settled.snoc {components : List (List Nat)} {c : List Nat} (h : Settled g components)
    (hne : c ≠ []) (hnodup : c.Nodup) (hapart : ∀ v ∈ c, v ∉ components.flatten)
    (hclosed : ∀ v ∈ c, ∀ x ∈ g.after v, x ∈ c ∨ x ∈ components.flatten)
    (hlinked : ∀ a ∈ c, ∀ b ∈ c, g.Linked a b) : Settled g (components ++ [c]) := by
  have hflat : (components ++ [c]).flatten = components.flatten ++ c := by
    rw [List.flatten_append, List.flatten_singleton]
  refine
    { ne_nil := fun d hd => ?_
      nodup := ?_
      closed := fun v hv x hx => ?_
      linked := fun d hd => ?_
      inOrder := ?_ }
  · rcases List.mem_append.1 hd with hd | hd
    · exact h.ne_nil d hd
    · rw [List.mem_singleton.1 hd]
      exact hne
  · rw [hflat]
    exact List.nodup_append.2 ⟨h.nodup, hnodup, fun a ha b hb heq => hapart b hb (heq ▸ ha)⟩
  · rw [hflat, List.mem_append] at hv ⊢
    rcases hv with hv | hv
    · exact Or.inl (h.closed v hv x hx)
    · exact (hclosed v hv x hx).symm
  · rcases List.mem_append.1 hd with hd | hd
    · exact h.linked d hd
    · rw [List.mem_singleton.1 hd]
      exact hlinked
  · refine List.pairwise_append.2 ⟨h.inOrder, List.pairwise_singleton _ _, ?_⟩
    intro d hd c' hc a ha b hb hreach
    rw [List.mem_singleton.1 hc] at hb
    have hmem : a ∈ components.flatten := List.mem_flatten.2 ⟨d, hd, ha⟩
    exact hapart b hb (hreach.mem_of_closed h.closed hmem)

/-- The segment of a node whose low number is its own is a component.  No edge of the segment leads
below it on the stack, since such an edge would have sunk the low number. -/
theorem Inv.settled_segment (h : Inv g w) (hstack : w.stack = above ++ node :: below)
    (inner : Segment g w node [] above below) (hlow : w.low node = w.number node) :
    Settled g (w.components ++ [above ++ [node]]) := by
  have hd : w.Descending (above ++ node :: below) := hstack ▸ h.descending
  have hnodup : (above ++ [node] ++ below).Nodup := by
    rw [List.append_assoc]
    exact hd.nodup
  refine h.settled.snoc (by simp) (List.nodup_append.1 hnodup).1 (fun v hv => ?_)
    (fun v hv x hx => ?_) inner.linked
  · refine h.apart v ?_
    rw [hstack, List.append_cons]
    exact List.mem_append_left _ hv
  · have hseen := inner.seen v hv x hx
    rcases (h.isOpened_iff x).1 hseen.1 with hstk | hdone
    · have hle := hseen.2 hstk
      rw [hstack, List.append_cons] at hstk
      refine Or.inl ((List.mem_append.1 hstk).resolve_right fun hbelow => ?_)
      have hlt := hd.number_below x hbelow
      omega
    · exact Or.inr hdone

/-- A node whose low number is its own closes as the first of its component. -/
theorem Inv.complete (h : Inv g w) (hf : w.frames = (node, []) :: around)
    (hlow : w.low node = w.number node) :
    Inv g (({ w with frames := around } : Walk).complete node) := by
  obtain ⟨above, below, hstack, inner, -, outer⟩ := (h.nested_of_frames hf).cons_inv
  have hd : w.Descending (above ++ node :: below) := hstack ▸ h.descending
  have hout : node ∉ above := fun hmem => Nat.lt_irrefl _ (hd.number_above node hmem)
  have hmem : ∀ v, v ∈ w.stack ↔ v ∈ above ++ [node] ∨ v ∈ below := by
    intro v
    rw [hstack, List.append_cons, List.mem_append]
  have hflat : ∀ v, v ∈ (w.components ++ [above ++ [node]]).flatten ↔
      v ∈ w.components.flatten ∨ v ∈ above ++ [node] := by
    intro v
    rw [List.flatten_append, List.mem_append, List.flatten_singleton]
  rw [complete_eq (w := { w with frames := around }) hstack hout]
  refine
    { isOpened_iff := fun v => ?_
      lt_size := h.lt_size
      lt_next := fun v hv => h.lt_next v ((hmem v).2 (Or.inr hv))
      descending := hd.tail
      apart := fun v hv => ?_
      nested := outer.congr ?_ (fun _ _ => rfl) fun _ _ => rfl
      settled := h.settled_segment hstack inner hlow }
  · show w.IsOpened v ↔ v ∈ below ∨ v ∈ (w.components ++ [above ++ [node]]).flatten
    rw [h.isOpened_iff v, hmem v, hflat]
    tauto
  · show v ∉ (w.components ++ [above ++ [node]]).flatten
    rw [hflat, not_or]
    exact ⟨h.apart v ((hmem v).2 (Or.inr hv)), hd.not_mem_segment hv⟩
  · -- What lies on the shorter stack lies on the longer one, so it was seen there.
    exact fun low x hx => ⟨hx.1, fun hb => hx.2 ((hmem x).2 (Or.inr hb))⟩

/-- A node that reaches below itself on the stack joins the segment of the frame around it. -/
theorem Inv.close_merge {parent : Nat} {left : List Nat} (h : Inv g w)
    (hf : w.frames = (node, []) :: (parent, left) :: around) (hlow : w.low node ≠ w.number node) :
    Inv g (({ w with frames := (parent, left) :: around } : Walk).sink parent (w.low node)) := by
  obtain ⟨above, below, hstack, inner, entered, outer⟩ := (h.nested_of_frames hf).cons_inv
  have hd : w.Descending (above ++ node :: below) := hstack ▸ h.descending
  obtain ⟨x, hx, hnum, hreach⟩ := inner.low_reached
  have hxbelow : x ∈ below := by
    refine (List.mem_cons.1 hx).resolve_left fun heq => hlow ?_
    rw [← hnum, heq]
  have hedge : g.Edge parent node := entered (parent, left) rfl
  have hup : g.Reaches node parent :=
    hreach.trans (outer.reaches_head (parent, left) rfl x hxbelow)
  have hne : node ≠ parent := by
    intro heq
    have hlt := hd.number_below parent (outer.nodes_mem _ List.mem_cons_self)
    rw [heq] at hlt
    exact Nat.lt_irrefl _ hlt
  have hsunk := outer.sink hd.tail hxbelow ((Reaches.of_edge hedge).trans hreach)
  rw [hnum] at hsunk
  have hinner : Segment g (w.sink parent (w.low node)) node [] above below :=
    inner.congr (fun _ _ hs => hs) (low_sink_of_ne hne) fun _ _ => rfl
  have hmerged := Nested.merge hinner ⟨hup, Reaches.of_edge hedge⟩
    (by rw [low_sink_self, low_sink_of_ne hne]; exact Nat.min_le_right _ _) hsunk
  exact h.congr (hstack ▸ hmerged.withFrames _)

theorem close_cons {parent : Nat} {left : List Nat} (hne : node ≠ parent) :
    w.close node ((parent, left) :: around) =
      let v := ({ w with frames := (parent, left) :: around } : Walk).sink parent (w.low node)
      if w.index node = some (w.low node) then v.complete node else v := by
  have hsame : (({ w with frames := (parent, left) :: around } : Walk).sink parent
      (w.low node)).low node = w.low node := setAt_of_ne hne
  rw [Walk.close]
  show (if w.index node = some (Walk.low _ node) then _ else _) = _
  rw [hsame]

theorem Inv.close (h : Inv g w) (hf : w.frames = (node, []) :: around) :
    Inv g (w.close node around) := by
  obtain ⟨above, below, hstack, inner, -, outer⟩ := (h.nested_of_frames hf).cons_inv
  have hd : w.Descending (above ++ node :: below) := hstack ▸ h.descending
  have hnode : w.index node = some (w.number node) := by
    refine index_eq_number ((h.isOpened_iff node).2 (Or.inl ?_))
    exact (h.nested_of_frames hf).nodes_mem _ List.mem_cons_self
  cases around with
  | nil =>
    -- Nothing lies below the outermost open node that its low number could come from.
    have hlow : w.low node = w.number node := by
      obtain ⟨x, hx, hnum, -⟩ := inner.low_reached
      cases outer
      rw [← hnum, List.mem_singleton.1 hx]
    have hindex : w.index node = some (w.low node) := by rw [hnode, hlow]
    have heq : w.close node [] = ({ w with frames := [] } : Walk).complete node := if_pos hindex
    rw [heq]
    exact h.complete hf hlow
  | cons f around =>
    obtain ⟨parent, left⟩ := f
    have hlt : w.number parent < w.number node :=
      hd.number_below parent (outer.nodes_mem _ List.mem_cons_self)
    have hne : node ≠ parent := by
      intro heq
      rw [heq] at hlt
      exact Nat.lt_irrefl _ hlt
    rw [close_cons hne, hnode]
    by_cases hlow : w.low node = w.number node
    · -- The number of the node is above the low number of the frame around it.
      have hparent : w.low parent ≤ w.low node := by
        obtain ⟨above', below', rfl, inner', -⟩ := outer.cons_inv
        have hle := inner'.low_le_number hd.tail
        omega
      have hsink : ({ w with frames := (parent, left) :: around } : Walk).sink parent
          (w.low node) = { w with frames := (parent, left) :: around } := sink_eq_self hparent
      rw [if_pos (by rw [hlow]), hsink]
      exact h.complete hf hlow
    · rw [if_neg fun he => hlow (Option.some.inj he).symm]
      exact h.close_merge hf hlow

/-- Every move keeps the invariant. -/
theorem Inv.moved (hg : g.IsClosed) (h : Inv g w) (hmoved : Moved g w w') : Inv g w' := by
  cases hmoved with
  | stay hf => exact h
  | close hf => exact h.close hf
  | enter hf hx => exact h.enter hg hf hx
  | lookBack hf hmem hx => exact h.look_back hf hmem
  | lookDone hf hout hx => exact h.look_done hf hx hout

/-! ## The moves that are left -/

/-- The moves that a node takes from being opened to being closed. -/
def cost (g : Graph) (v : Nat) : Nat := (g.after v).length + 1

/-- The moves that the open nodes and those not yet opened will take. -/
def work (g : Graph) (w : Walk) : Nat :=
  (w.frames.map fun f => f.2.length + 1).sum +
    ∑ v ∈ Finset.range g.size, if (w.index v).isSome then 0 else cost g v

theorem work_openNode (hx : ¬ w.IsOpened x) (hlt : x < g.size) :
    work g (w.openNode g x) = work g w := by
  have hmem : x ∈ Finset.range g.size := Finset.mem_range.2 hlt
  have hx' : ¬ (w.index x).isSome = true := hx
  have hself : ((w.openNode g x).index x).isSome = true := isOpened_openNode.2 (Or.inl rfl)
  have hrest : ∀ v ∈ (Finset.range g.size).erase x,
      (if ((w.openNode g x).index v).isSome then 0 else cost g v) =
        if (w.index v).isSome then 0 else cost g v := by
    intro v hv
    rw [index_openNode_of_ne (Finset.ne_of_mem_erase hv)]
  have hframes : (w.openNode g x).frames = (x, g.after x) :: w.frames := rfl
  rw [work, work, hframes, List.map_cons, List.sum_cons,
    ← Finset.add_sum_erase _ _ hmem, ← Finset.add_sum_erase _ _ hmem,
    Finset.sum_congr rfl hrest, if_pos hself, if_neg hx', cost]
  show (g.after x).length + 1 + _ + _ = _
  omega

theorem work_withFrames {f : List (Nat × List Nat)} (hf : w.frames = f)
    (others : List (Nat × List Nat)) :
    work g { w with frames := others } + (f.map fun f => f.2.length + 1).sum =
      work g w + (others.map fun f => f.2.length + 1).sum := by
  have hnew : work g { w with frames := others } = (others.map fun f => f.2.length + 1).sum +
      ∑ v ∈ Finset.range g.size, if (w.index v).isSome then 0 else cost g v := rfl
  rw [hnew, work, hf]
  omega

theorem exists_close_eq (w : Walk) (node : Nat) (around : List (Nat × List Nat)) :
    ∃ low stack components,
      w.close node around = { w with frames := around, low, stack, components } := by
  simp only [Walk.close]
  split <;> split <;> exact ⟨_, _, _, rfl⟩

/-- Neither sinking nor completing leaves more or less to do. -/
theorem work_close : work g (w.close node around) = work g { w with frames := around } := by
  obtain ⟨low, stack, components, heq⟩ := exists_close_eq w node around
  rw [heq]
  rfl

/-- Looking at an edge does a piece of the work, whatever else comes of it. -/
theorem work_look (hf : w.frames = (node, x :: rest) :: around) :
    work g { w with frames := (node, rest) :: around } + 1 = work g w := by
  have hwork := work_withFrames (g := g) hf ((node, rest) :: around)
  simp only [List.map_cons, List.sum_cons, List.length_cons] at hwork
  omega

/-- Every move does one piece of the work. -/
theorem work_moved (hg : g.IsClosed) (h : Inv g w) (hopen : w.frames ≠ [])
    (hmoved : Moved g w w') : work g w' + 1 = work g w := by
  cases hmoved with
  | stay hf => exact absurd hf hopen
  | @close node around hf =>
    have hwork := work_withFrames (g := g) hf around
    simp only [List.map_cons, List.sum_cons, List.length_nil] at hwork
    rw [work_close]
    omega
  | @enter node x rest around hf hx =>
    have hlt : x < g.size := hg node x (h.edge_of_frames hf)
    have hsame := work_openNode (w := { w with frames := (node, rest) :: around }) hx hlt
    rw [hsame]
    exact work_look hf
  | lookBack hf hmem hx => exact work_look hf
  | lookDone hf hout hx => exact work_look hf

theorem isOpened_moved {v : Nat} (hmoved : Moved g w w') (hv : w.IsOpened v) : w'.IsOpened v := by
  cases hmoved with
  | stay hf => exact hv
  | @close node around hf =>
    obtain ⟨low, stack, components, heq⟩ := exists_close_eq w node around
    rw [heq]
    exact hv
  | enter hf hx => exact isOpened_openNode.2 (Or.inr hv)
  | lookBack hf hmem hx => exact hv
  | lookDone hf hout hx => exact hv

/-! ## Runs -/

/-- With as many moves as there is work, the walk closes every open node. -/
theorem finish_spec (hg : g.IsClosed) : ∀ (moves : Nat) (w : Walk), Inv g w → work g w ≤ moves →
    Inv g (finish g moves w) ∧ (finish g moves w).frames = [] ∧
      ∀ v, w.IsOpened v → (finish g moves w).IsOpened v := by
  intro moves
  induction moves with
  | zero =>
    intro w h hwork
    refine ⟨h, ?_, fun v hv => hv⟩
    cases hf : w.frames with
    | nil => exact hf
    | cons f rest =>
      rw [work, hf, List.map_cons, List.sum_cons] at hwork
      omega
  | succ moves ih =>
    intro w h hwork
    by_cases hf : w.frames = []
    · rw [finish, if_pos (List.isEmpty_iff.2 hf)]
      exact ⟨h, hf, fun v hv => hv⟩
    · have hmoved := moved_move g w
      have hdone := work_moved hg h hf hmoved
      obtain ⟨hinv, hframes, hopened⟩ := ih (w.move g) (h.moved hg hmoved) (by omega)
      rw [finish, if_neg fun he => hf (List.isEmpty_iff.1 he)]
      exact ⟨hinv, hframes, fun v hv => hopened v (isOpened_moved hmoved hv)⟩

theorem sum_length_getD (lists : List (List Nat)) :
    ∑ v ∈ Finset.range lists.length, (lists.getD v []).length = lists.flatten.length := by
  induction lists with
  | nil => rfl
  | cons l lists ih =>
    rw [List.length_cons, Finset.sum_range_succ', List.flatten_cons, List.length_append, ← ih]
    simp [Nat.add_comm]

/-- Between two walks there is no more to do than to open and close every node of the graph. -/
theorem work_le (hf : w.frames = []) : work g w ≤ g.size + g.edgeCount := by
  have hsum : ∑ v ∈ Finset.range g.size, cost g v = g.edgeCount + g.size := by
    have hlists := sum_length_getD g.successors.toList
    show ∑ v ∈ Finset.range g.size, ((g.after v).length + 1) = _
    rw [Finset.sum_add_distrib, edgeCount, ← hlists]
    simp [after, size]
  have hle : (∑ v ∈ Finset.range g.size, if (w.index v).isSome then 0 else cost g v) ≤
      ∑ v ∈ Finset.range g.size, cost g v := by
    refine Finset.sum_le_sum fun v _ => ?_
    split <;> omega
  rw [work, hf, List.map_nil, List.sum_nil]
  omega

/-- Between two walks no node is open. -/
structure Resting (g : Graph) (w : Walk) : Prop extends Inv g w where
  frames_eq : w.frames = []

/-- A walk from a new root starts within the moves that it is given. -/
theorem Resting.openNode (h : Resting g w) (hx : ¬ w.IsOpened x) (hlt : x < g.size) :
    Inv g (w.openNode g x) ∧ work g (w.openNode g x) ≤ g.size + g.edgeCount := by
  have hnested : Nested g (w.openNode g x) [] w.stack := by
    have hn := h.nested_of_frames h.frames_eq
    generalize w.stack = stack at hn
    cases hn
    exact .nil
  refine ⟨?_, ?_⟩
  · rw [← h.frames_eq] at hnested
    refine h.toInv.openNode hx hlt (fun f hf => ?_) hnested
    rw [h.frames_eq] at hf
    exact absurd hf (by simp)
  · rw [work_openNode hx hlt]
    exact work_le h.frames_eq

theorem walkFrom_spec (hg : g.IsClosed) (h : Resting g w) {root : Nat} (hroot : root < g.size) :
    Resting g (walkFrom g w root) ∧ (walkFrom g w root).IsOpened root ∧
      ∀ v, w.IsOpened v → (walkFrom g w root).IsOpened v := by
  rw [walkFrom]
  cases hx : w.index root with
  | some n => exact ⟨h, isOpened_of_index hx, fun v hv => hv⟩
  | none =>
    have hopen := not_isOpened_of_index hx
    obtain ⟨hinv, hwork⟩ := h.openNode hopen hroot
    obtain ⟨hfinish, hframes, hopened⟩ := finish_spec hg _ _ hinv hwork
    exact ⟨⟨hfinish, hframes⟩, hopened root (isOpened_openNode.2 (Or.inl rfl)),
      fun v hv => hopened v (isOpened_openNode.2 (Or.inr hv))⟩

theorem foldl_walkFrom_spec (hg : g.IsClosed) : ∀ (roots : List Nat) (w : Walk), Resting g w →
    (∀ r ∈ roots, r < g.size) → Resting g (roots.foldl (walkFrom g) w) ∧
      ∀ v, v ∈ roots ∨ w.IsOpened v → (roots.foldl (walkFrom g) w).IsOpened v := by
  intro roots
  induction roots with
  | nil => exact fun w h _ => ⟨h, fun v hv => hv.resolve_left List.not_mem_nil⟩
  | cons root roots ih =>
    intro w h hlt
    obtain ⟨hrest, hopened, hkept⟩ := walkFrom_spec hg h (hlt root List.mem_cons_self)
    obtain ⟨hall, hmem⟩ := ih _ hrest fun r hr => hlt r (List.mem_cons_of_mem _ hr)
    refine ⟨hall, fun v hv => hmem v ?_⟩
    rcases hv with hv | hv
    · rcases List.mem_cons.1 hv with rfl | hv
      · exact Or.inr hopened
      · exact Or.inl hv
    · exact Or.inr (hkept v hv)

end Walk
end Graph
end Wardrobe
