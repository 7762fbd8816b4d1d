import Mathlib.Data.List.Nodup
import Wardrobe.Graph.Order
import Wardrobe.Proofs.Graph.Components
/-
Placing nodes one after the other.

`IsReady` says without counting that a node waits for no other.  The counters of a placement agree
with it, and no counter is lowered when it is at zero already.  Where no node lies on a circle,
some node is ready as long as one is left, so that all of them are placed, and at each place stands
the least node that is ready there.
-/

namespace Wardrobe
namespace Graph

variable {g : Graph} {nodes : List Nat}

/-! ## Ascending lists -/

theorem mem_insertAscending {n x : Nat} {l : List Nat} :
    x ∈ insertAscending n l ↔ x = n ∨ x ∈ l := by
  induction l with
  | nil => exact List.mem_singleton.trans (by simp)
  | cons m rest ih =>
    rw [insertAscending]
    split
    · exact List.mem_cons
    · rw [List.mem_cons, ih, List.mem_cons]
      tauto

theorem pairwise_insertAscending {n : Nat} {l : List Nat} (h : l.Pairwise (· < ·)) (hn : n ∉ l) :
    (insertAscending n l).Pairwise (· < ·) := by
  induction l with
  | nil => exact List.pairwise_singleton _ _
  | cons m rest ih =>
    obtain ⟨hm, hrest⟩ := List.pairwise_cons.1 h
    have hne : n ≠ m := fun heq => hn (heq ▸ List.mem_cons_self)
    rw [insertAscending]
    split
    · next hle =>
      refine List.pairwise_cons.2 ⟨fun x hx => ?_, h⟩
      rcases List.mem_cons.1 hx with rfl | hx
      · omega
      · have hlt := hm x hx
        omega
    · next hlt =>
      refine List.pairwise_cons.2 ⟨fun x hx => ?_, ih hrest fun hmem => hn ?_⟩
      · rcases mem_insertAscending.1 hx with rfl | hx
        · omega
        · exact hm x hx
      · exact List.mem_cons_of_mem m hmem

namespace Placement

variable {p : Placement} {node v x : Nat} {rest placed : List Nat}

/-! ## Releasing successors -/

theorem waiting_release_self : (p.release x).waiting x = p.waiting x - 1 := setAt_self ..

theorem waiting_release_of_ne (h : v ≠ x) : (p.release x).waiting v = p.waiting v := setAt_of_ne h

theorem placed_foldl_release (released : List Nat) (p : Placement) :
    (released.foldl release p).placed = p.placed := by
  induction released generalizing p with
  | nil => rfl
  | cons y released ih => exact ih (p.release y)

theorem waiting_foldl_release (released : List Nat) (p : Placement) (x : Nat) :
    (released.foldl release p).waiting x = p.waiting x - released.count x := by
  induction released generalizing p with
  | nil => rfl
  | cons y released ih =>
    rw [List.foldl_cons, ih]
    by_cases hx : x = y
    · rw [hx, waiting_release_self, List.count_cons_self]
      omega
    · rw [waiting_release_of_ne hx, List.count_cons_of_ne (Ne.symm hx)]

theorem mem_ready_release (hx : 0 < p.waiting x) :
    v ∈ (p.release x).ready ↔ v ∈ p.ready ∨ (v = x ∧ p.waiting x = 1) := by
  by_cases hone : p.waiting x - 1 = 0
  · have heq : (p.release x).ready = insertAscending x p.ready := if_pos hone
    have hwait : p.waiting x = 1 := by omega
    rw [heq, mem_insertAscending]
    tauto
  · have heq : (p.release x).ready = p.ready := if_neg hone
    have hwait : p.waiting x ≠ 1 := by omega
    rw [heq]
    tauto

theorem sorted_release (h : p.ready.Pairwise (· < ·)) (hx : x ∉ p.ready) :
    (p.release x).ready.Pairwise (· < ·) := by
  show (if p.waiting x - 1 = 0 then insertAscending x p.ready else p.ready).Pairwise (· < ·)
  split
  · exact pairwise_insertAscending h hx
  · exact h

/-- Releasing one node leaves the others waiting for as much as they are still released. -/
theorem count_le_waiting_release {y : Nat} {released : List Nat}
    (hcount : ∀ x, (y :: released).count x ≤ p.waiting x) (x : Nat) :
    released.count x ≤ (p.release y).waiting x := by
  have hle := hcount x
  by_cases hx : x = y
  · rw [hx, List.count_cons_self] at hle
    rw [hx, waiting_release_self]
    omega
  · rw [List.count_cons_of_ne (Ne.symm hx)] at hle
    rwa [waiting_release_of_ne hx]

/-- A node is ready after its last release, which is this one or a later one. -/
theorem last_release {y : Nat} (released : List Nat) (hpos : 0 < p.waiting y) :
    ((x = y ∧ p.waiting y = 1) ∧ x ∉ released ∨
        x ∈ released ∧ (p.release y).waiting x = released.count x) ↔
      x ∈ y :: released ∧ p.waiting x = (y :: released).count x := by
  by_cases hx : x = y
  · subst hx
    rw [waiting_release_self, List.count_cons_self]
    by_cases hmore : x ∈ released
    · simp only [hmore, not_true, and_false, false_or, true_and, List.mem_cons_self]
      omega
    · have hnone := List.count_eq_zero.2 hmore
      simp [hmore, hnone]
  · rw [waiting_release_of_ne hx, List.count_cons_of_ne (Ne.symm hx), List.mem_cons]
    tauto

/-- Who is ready after a row of releases.  Nobody may be released more often than it waits for, and
those released must not be ready already. -/
theorem ready_foldl_release (released : List Nat) (p : Placement)
    (hcount : ∀ x, released.count x ≤ p.waiting x) (hnew : ∀ x ∈ released, x ∉ p.ready)
    (hsorted : p.ready.Pairwise (· < ·)) :
    (released.foldl release p).ready.Pairwise (· < ·) ∧
      ∀ x, x ∈ (released.foldl release p).ready ↔
        x ∈ p.ready ∨ (x ∈ released ∧ p.waiting x = released.count x) := by
  induction released generalizing p with
  | nil => exact ⟨hsorted, fun x => by simp⟩
  | cons y released ih =>
    have hy : released.count y + 1 ≤ p.waiting y := by
      have hle := hcount y
      rwa [List.count_cons_self] at hle
    -- One release makes ready only what is not released again.
    have honce : ∀ x, x = y ∧ p.waiting y = 1 → x ∉ released := by
      intro x h hx
      have hpos := List.count_pos_iff.2 (h.1 ▸ hx)
      omega
    have hready : ∀ x, x ∈ (p.release y).ready ↔ x ∈ p.ready ∨ (x = y ∧ p.waiting y = 1) :=
      fun x => mem_ready_release (by omega)
    have hnew' : ∀ x ∈ released, x ∉ (p.release y).ready := by
      intro x hx hmem
      rcases (hready x).1 hmem with hmem | hone
      · exact hnew x (List.mem_cons_of_mem y hx) hmem
      · exact honce x hone hx
    obtain ⟨hsort, hmem⟩ := ih (p.release y) (count_le_waiting_release hcount) hnew'
      (sorted_release hsorted (hnew y List.mem_cons_self))
    refine ⟨hsort, fun x => ?_⟩
    show x ∈ (released.foldl release (p.release y)).ready ↔ _
    rw [hmem x, hready x, ← last_release released (by omega), or_assoc,
      and_iff_left_of_imp (honce x)]

/-! ## Ready nodes -/

/-- The node is not placed, but all the nodes with an edge to it are. -/
def IsReady (g : Graph) (nodes placed : List Nat) (v : Nat) : Prop :=
  v ∈ nodes ∧ v ∉ placed ∧ ∀ u ∈ nodes, g.Edge u v → u ∈ placed

/-- The nodes that are still to be placed. -/
def unplaced (nodes placed : List Nat) : List Nat := nodes.filter fun u => !placed.contains u

theorem mem_unplaced : v ∈ unplaced nodes placed ↔ v ∈ nodes ∧ v ∉ placed := by
  simp [unplaced]

theorem unplaced_perm (hnodup : nodes.Nodup) (hnode : node ∈ nodes) (hout : node ∉ placed) :
    (unplaced nodes placed).Perm (node :: unplaced nodes (placed ++ [node])) := by
  have hmem : node ∈ unplaced nodes placed := mem_unplaced.2 ⟨hnode, hout⟩
  have herase : (unplaced nodes placed).erase node = unplaced nodes (placed ++ [node]) := by
    have hun : (unplaced nodes placed).Nodup := hnodup.filter _
    rw [hun.erase_eq_filter, unplaced, unplaced, List.filter_filter]
    refine List.filter_congr fun u _ => ?_
    rw [Bool.eq_iff_iff]
    simp [and_comm]
  rw [← herase]
  exact List.perm_cons_erase hmem

/-- Edges from nodes still to be placed: one node fewer counts its edges fewer. -/
theorem inDegree_unplaced (hnodup : nodes.Nodup) (hnode : node ∈ nodes) (hout : node ∉ placed)
    (v : Nat) : inDegree g (unplaced nodes placed) v =
      (g.after node).count v + inDegree g (unplaced nodes (placed ++ [node])) v := by
  have hperm := (unplaced_perm hnodup hnode hout).flatMap_right g.after
  rw [inDegree, hperm.count_eq v, List.flatMap_cons, List.count_append, inDegree]

theorem inDegree_eq_zero_iff : inDegree g nodes v = 0 ↔ ∀ u ∈ nodes, ¬ g.Edge u v := by
  rw [inDegree, List.count_eq_zero, List.mem_flatMap]
  exact ⟨fun h u hu hedge => h ⟨u, hu, hedge⟩, fun h ⟨u, hu, hedge⟩ => h u hu hedge⟩

theorem isReady_iff : IsReady g nodes placed v ↔
    v ∈ nodes ∧ v ∉ placed ∧ inDegree g (unplaced nodes placed) v = 0 := by
  rw [IsReady, inDegree_eq_zero_iff]
  refine and_congr_right fun _ => and_congr_right fun _ =>
    ⟨fun h u hu hedge => ?_, fun h u hu hedge => ?_⟩
  · exact (mem_unplaced.1 hu).2 (h u (mem_unplaced.1 hu).1 hedge)
  · by_contra hnot
    exact h u (mem_unplaced.2 ⟨hu, hnot⟩) hedge

/-! ## One step -/

/-- What holds of a placement between any two steps.  Placed nodes have no predecessor left. -/
structure Inv (g : Graph) (nodes : List Nat) (p : Placement) : Prop where
  placed_mem : ∀ v ∈ p.placed, v ∈ nodes
  nodup : p.placed.Nodup
  closed : ∀ v ∈ p.placed, ∀ u ∈ nodes, g.Edge u v → u ∈ p.placed
  waiting_eq : ∀ v ∈ nodes, p.waiting v = inDegree g (unplaced nodes p.placed) v
  sorted : p.ready.Pairwise (· < ·)
  mem_ready : ∀ v, v ∈ p.ready ↔ IsReady g nodes p.placed v

theorem inv_start (hsorted : nodes.Pairwise (· < ·)) : Inv g nodes (start g nodes) where
  placed_mem v hv := absurd hv List.not_mem_nil
  nodup := List.nodup_nil
  closed v hv := absurd hv List.not_mem_nil
  waiting_eq v hv := by
    show inDegree g nodes v = inDegree g (unplaced nodes []) v
    simp [unplaced]
  sorted := hsorted.filter _
  mem_ready v := by
    show v ∈ nodes.filter _ ↔ IsReady g nodes [] v
    rw [isReady_iff]
    simp [unplaced]

/-- The step that takes the least ready node, before its successors are released. -/
def taken (p : Placement) (node : Nat) (rest : List Nat) : Placement :=
  { p with ready := rest, placed := p.placed ++ [node] }

/-- The successors that a step releases. -/
def successors (g : Graph) (nodes : List Nat) (node : Nat) : List Nat :=
  (g.after node).filter nodes.contains

theorem place_eq (hr : p.ready = node :: rest) :
    place g nodes p = (successors g nodes node).foldl release (p.taken node rest) := by
  rw [place, hr]
  rfl

theorem count_successors (hv : v ∈ nodes) :
    (successors g nodes node).count v = (g.after node).count v :=
  List.count_filter (List.contains_iff_mem.2 hv)

/-- Nobody is released more often than it waits for: a successor still waits for the node. -/
theorem Inv.count_successors_le (hnodup : nodes.Nodup) (h : Inv g nodes p)
    (hr : p.ready = node :: rest) (v : Nat) :
    (successors g nodes node).count v ≤ p.waiting v := by
  obtain ⟨hnode, hout, -⟩ := (h.mem_ready node).1 (hr ▸ List.mem_cons_self)
  by_cases hv : v ∈ nodes
  · rw [count_successors hv, h.waiting_eq v hv, inDegree_unplaced hnodup hnode hout]
    omega
  · have hzero : (successors g nodes node).count v = 0 := by
      refine List.count_eq_zero.2 fun hmem => hv ?_
      exact List.contains_iff_mem.1 (List.mem_filter.1 hmem).2
    omega

/-- After a step the nodes are ready that were ready before or that waited for nothing else. -/
theorem Inv.mem_ready_place (hnodup : nodes.Nodup) (h : Inv g nodes p)
    (hr : p.ready = node :: rest) (v : Nat) :
    v ∈ rest ∨ (v ∈ successors g nodes node ∧ p.waiting v = (successors g nodes node).count v) ↔
      IsReady g nodes (p.placed ++ [node]) v := by
  obtain ⟨hnode, hout, hpred⟩ := (h.mem_ready node).1 (hr ▸ List.mem_cons_self)
  have hleast := (List.pairwise_cons.1 (hr ▸ h.sorted)).1
  have hdegree := inDegree_unplaced (g := g) hnodup hnode hout v
  rw [isReady_iff, List.mem_append, List.mem_singleton]
  constructor
  · intro h
    rcases h with hrest | ⟨hsucc, hwait⟩
    · have hv := (h.mem_ready v).1 (hr ▸ List.mem_cons_of_mem node hrest)
      have hlt := hleast v hrest
      obtain ⟨hmem, hnot, hzero⟩ := isReady_iff.1 hv
      refine ⟨hmem, ?_, by omega⟩
      intro h
      rcases h with hp | rfl
      · exact hnot hp
      · exact Nat.lt_irrefl _ hlt
    · obtain ⟨hedge, hmem⟩ := List.mem_filter.1 hsucc
      have hv : v ∈ nodes := List.contains_iff_mem.1 hmem
      have hcount := h.waiting_eq v hv
      rw [count_successors hv] at hwait
      refine ⟨hv, ?_, by omega⟩
      intro h
      rcases h with hp | rfl
      · exact hout (h.closed v hp node hnode hedge)
      · exact hout (hpred v hnode hedge)
  · intro h
    obtain ⟨hv, hnot, hzero⟩ := h
    have hcount := h.waiting_eq v hv
    by_cases hedge : v ∈ g.after node
    · refine Or.inr ⟨List.mem_filter.2 ⟨hedge, List.contains_iff_mem.2 hv⟩, ?_⟩
      rw [count_successors hv]
      omega
    · have hnone := List.count_eq_zero.2 hedge
      have hready : v ∈ p.ready :=
        (h.mem_ready v).2 (isReady_iff.2 ⟨hv, fun hp => hnot (Or.inl hp), by omega⟩)
      rw [hr] at hready
      exact Or.inl ((List.mem_cons.1 hready).resolve_left fun heq => hnot (Or.inr heq))

theorem placed_place (hr : p.ready = node :: rest) :
    (place g nodes p).placed = p.placed ++ [node] := by
  rw [place_eq hr, placed_foldl_release]
  rfl

theorem Inv.waiting_place (hnodup : nodes.Nodup) (h : Inv g nodes p) (hr : p.ready = node :: rest)
    (hv : v ∈ nodes) :
    (Placement.place g nodes p).waiting v = inDegree g (unplaced nodes (p.placed ++ [node])) v := by
  obtain ⟨hnode, hout, -⟩ := (h.mem_ready node).1 (hr ▸ List.mem_cons_self)
  have hdegree := inDegree_unplaced (g := g) hnodup hnode hout v
  rw [place_eq hr, waiting_foldl_release, count_successors hv]
  show p.waiting v - _ = _
  rw [h.waiting_eq v hv]
  omega

/-- Who is ready after a step waits for nobody, and the ready nodes stay sorted. -/
theorem Inv.ready_place (hnodup : nodes.Nodup) (h : Inv g nodes p) (hr : p.ready = node :: rest) :
    (Placement.place g nodes p).ready.Pairwise (· < ·) ∧
      ∀ v, v ∈ (Placement.place g nodes p).ready ↔ IsReady g nodes (p.placed ++ [node]) v := by
  obtain ⟨hnode, hout, -⟩ := (h.mem_ready node).1 (hr ▸ List.mem_cons_self)
  have hnew : ∀ x ∈ successors g nodes node, x ∉ rest := by
    intro x hx hxr
    obtain ⟨-, -, hpred⟩ := (h.mem_ready x).1 (hr ▸ List.mem_cons_of_mem node hxr)
    exact hout (hpred node hnode (List.mem_filter.1 hx).1)
  have hwait := h.count_successors_le hnodup hr
  have hsorted := (List.pairwise_cons.1 (hr ▸ h.sorted)).2
  obtain ⟨hsort, hmem⟩ := ready_foldl_release (successors g nodes node) (p.taken node rest) hwait
    hnew hsorted
  rw [place_eq hr]
  refine ⟨hsort, fun v => ?_⟩
  rw [hmem v]
  exact h.mem_ready_place hnodup hr v

/-- Every step keeps the invariant. -/
theorem Inv.place (hnodup : nodes.Nodup) (h : Inv g nodes p) (hr : p.ready = node :: rest) :
    Inv g nodes (place g nodes p) := by
  obtain ⟨hnode, hout, hpred⟩ := (h.mem_ready node).1 (hr ▸ List.mem_cons_self)
  obtain ⟨hsort, hready⟩ := h.ready_place hnodup hr
  have hmem : ∀ v, v ∈ (Placement.place g nodes p).placed ↔ v ∈ p.placed ∨ v = node := by
    intro v
    rw [placed_place hr, List.mem_append, List.mem_singleton]
  refine
    { placed_mem := fun v hv => ?_
      nodup := ?_
      closed := fun v hv u hu hedge => ?_
      waiting_eq := fun v hv => ?_
      sorted := hsort
      mem_ready := fun v => ?_ }
  · rcases (hmem v).1 hv with hv | rfl
    · exact h.placed_mem v hv
    · exact hnode
  · rw [placed_place hr]
    exact List.nodup_append.2 ⟨h.nodup, List.nodup_singleton node, fun a ha b hb heq =>
      hout (List.mem_singleton.1 hb ▸ heq ▸ ha)⟩
  · refine (hmem u).2 (Or.inl ?_)
    rcases (hmem v).1 hv with hv | rfl
    · exact h.closed v hv u hu hedge
    · exact hpred u hu hedge
  · rw [placed_place hr]
    exact h.waiting_place hnodup hr hv
  · rw [placed_place hr]
    exact hready v

/-- The step takes the least node that is ready. -/
theorem Inv.least_of_ready (h : Inv g nodes p) (hr : p.ready = node :: rest) :
    IsReady g nodes p.placed node ∧ ∀ v, IsReady g nodes p.placed v → node ≤ v := by
  refine ⟨(h.mem_ready node).1 (hr ▸ List.mem_cons_self), fun v hv => ?_⟩
  have hmem : v ∈ node :: rest := hr ▸ (h.mem_ready v).2 hv
  rcases List.mem_cons.1 hmem with rfl | hmem
  · exact Nat.le_refl v
  · exact Nat.le_of_lt ((List.pairwise_cons.1 (hr ▸ h.sorted)).1 v hmem)

/-- Every release of the step finds a node that still waits. -/
def ReleasesWaiting (g : Graph) (nodes : List Nat) (p : Placement) : Prop :=
  ∀ node rest, p.ready = node :: rest → ∀ before x after,
    successors g nodes node = before ++ x :: after →
      0 < (before.foldl release (p.taken node rest)).waiting x

theorem Inv.releasesWaiting (hnodup : nodes.Nodup) (h : Inv g nodes p) :
    ReleasesWaiting g nodes p := by
  intro node rest hr before x after heq
  have hwait := h.count_successors_le hnodup hr x
  rw [heq, List.count_append, List.count_cons_self] at hwait
  rw [waiting_foldl_release]
  show 0 < p.waiting x - before.count x
  omega

/-- Where no node lies on a circle, a node is ready as long as one is left. -/
theorem exists_isReady (hacyclic : ∀ v ∈ nodes, ¬ g.OnCircle v) (hv : v ∈ nodes)
    (hout : v ∉ placed) : ∃ u, IsReady g nodes placed u := by
  let before : {v // v ∈ nodes} → {v // v ∈ nodes} → Prop :=
    fun a b => Relation.TransGen g.Edge a b
  have : IsTrans {v // v ∈ nodes} before := ⟨fun _ _ _ hab hbc => hab.trans hbc⟩
  have : Std.Irrefl before := ⟨fun a h => hacyclic a a.2 h⟩
  have hwf : WellFounded before := Finite.wellFounded_of_trans_of_irrefl before
  obtain ⟨u, hu, hmin⟩ := hwf.has_min {a | a.1 ∉ placed} ⟨⟨v, hv⟩, hout⟩
  refine ⟨u, u.2, hu, fun w hw hedge => ?_⟩
  by_contra hnot
  exact hmin ⟨w, hw⟩ hnot (Relation.TransGen.single hedge)

/-! ## All steps -/

/-- The placement after a number of steps. -/
def afterSteps (g : Graph) (nodes : List Nat) (k : Nat) : Placement :=
  k.repeat (place g nodes) (start g nodes)

theorem afterSteps_succ (k : Nat) :
    afterSteps g nodes (k + 1) = place g nodes (afterSteps g nodes k) := rfl

/-- As long as a node is left, a step places one. -/
theorem Inv.exists_ready (hnodup : nodes.Nodup) (hacyclic : ∀ v ∈ nodes, ¬ g.OnCircle v)
    (h : Inv g nodes p) (hlt : p.placed.length < nodes.length) :
    ∃ node rest, p.ready = node :: rest := by
  have hleft : ∃ v ∈ nodes, v ∉ p.placed := by
    by_contra hnone
    have hsub : nodes ⊆ p.placed := by
      intro v hv
      by_contra hout
      exact hnone ⟨v, hv, hout⟩
    have hle := (List.subperm_of_subset hnodup hsub).length_le
    omega
  obtain ⟨v, hv, hout⟩ := hleft
  obtain ⟨u, hu⟩ := exists_isReady hacyclic hv hout
  exact List.exists_cons_of_ne_nil (List.ne_nil_of_mem ((h.mem_ready u).2 hu))

theorem afterSteps_spec (hsorted : nodes.Pairwise (· < ·))
    (hacyclic : ∀ v ∈ nodes, ¬ g.OnCircle v) (k : Nat) (hk : k ≤ nodes.length) :
    Inv g nodes (afterSteps g nodes k) ∧ (afterSteps g nodes k).placed.length = k := by
  have hnodup : nodes.Nodup := hsorted.imp Nat.ne_of_lt
  induction k with
  | zero => exact ⟨inv_start hsorted, rfl⟩
  | succ k ih =>
    obtain ⟨hinv, hlength⟩ := ih (Nat.le_of_succ_le hk)
    obtain ⟨node, rest, hr⟩ := hinv.exists_ready hnodup hacyclic (by omega)
    rw [afterSteps_succ]
    refine ⟨hinv.place hnodup hr, ?_⟩
    rw [placed_place hr, List.length_append, hlength, List.length_singleton]

/-- What is placed stays where it is. -/
theorem placed_afterSteps_prefix {j k : Nat} (hjk : j ≤ k) :
    (afterSteps g nodes j).placed <+: (afterSteps g nodes k).placed := by
  induction k, hjk using Nat.le_induction with
  | base => exact List.prefix_refl _
  | succ k _ ih =>
    refine ih.trans ?_
    rw [afterSteps_succ, place]
    split
    · exact List.prefix_refl _
    · next node rest _ =>
      show _ <+: ((successors g nodes node).foldl release _).placed
      rw [placed_foldl_release]
      exact List.prefix_append _ _

end Placement

/-! ## The order -/

variable {v : Nat}

/-- Every node is placed once. -/
theorem topologicalOrder_perm (hsorted : nodes.Pairwise (· < ·))
    (hacyclic : ∀ v ∈ nodes, ¬ g.OnCircle v) : (g.topologicalOrder nodes).Perm nodes := by
  obtain ⟨hinv, hlength⟩ := Placement.afterSteps_spec hsorted hacyclic _ (Nat.le_refl _)
  have hsub := List.subperm_of_subset hinv.nodup hinv.placed_mem
  exact hsub.perm_of_length_le (Nat.le_of_eq hlength.symm)

/-- At each place stands the least node that is ready there. -/
theorem topologicalOrder_least (hsorted : nodes.Pairwise (· < ·))
    (hacyclic : ∀ v ∈ nodes, ¬ g.OnCircle v) {k : Nat}
    (hk : (g.topologicalOrder nodes)[k]? = some v) :
    Placement.IsReady g nodes ((g.topologicalOrder nodes).take k) v ∧
      ∀ u, Placement.IsReady g nodes ((g.topologicalOrder nodes).take k) u → v ≤ u := by
  have hnodup : nodes.Nodup := hsorted.imp Nat.ne_of_lt
  have hlt : k < nodes.length := by
    rw [← (topologicalOrder_perm hsorted hacyclic).length_eq]
    exact (List.getElem?_eq_some_iff.1 hk).1
  obtain ⟨hinv, hlength⟩ := Placement.afterSteps_spec hsorted hacyclic k (Nat.le_of_lt hlt)
  obtain ⟨node, rest, hr⟩ := hinv.exists_ready hnodup hacyclic (by omega)
  have hplaced : (Placement.afterSteps g nodes (k + 1)).placed =
      (Placement.afterSteps g nodes k).placed ++ [node] := Placement.placed_place hr
  have hbefore : (Placement.afterSteps g nodes k).placed <+: g.topologicalOrder nodes :=
    Placement.placed_afterSteps_prefix (Nat.le_of_lt hlt)
  have hbehind : (Placement.afterSteps g nodes (k + 1)).placed <+: g.topologicalOrder nodes :=
    Placement.placed_afterSteps_prefix hlt
  have htake : (g.topologicalOrder nodes).take k = (Placement.afterSteps g nodes k).placed := by
    rw [List.prefix_iff_eq_take.1 hbefore, hlength]
  have hv : v = node := by
    have hget := List.prefix_iff_getElem?.1 hbehind k
    rw [hplaced] at hget
    have hsome := hget (by simp [hlength])
    rw [hk] at hsome
    simpa [hlength] using hsome
  rw [htake, hv]
  exact hinv.least_of_ready hr

end Graph
end Wardrobe
