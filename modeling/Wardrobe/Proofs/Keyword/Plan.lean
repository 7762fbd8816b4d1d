import Wardrobe.Keyword.Plan
import Wardrobe.Proofs.Graph.Order
/-
What the plan for keyword rules leaves out and in what order it puts the others.

`Precedes` says of two positions in a list of rules that the first rule assigns a tag that the
second names.  The rules left out are those on a circle of this relation, and at each place of the
order stands the earliest rule of the list that waits for no other.
-/

namespace Wardrobe

open Relation

/-- The rule assigns a tag that a string filter of the other names in full, be it to ask for it or
to exclude it. -/
def Rule.Feeds (r s : Rule) : Prop :=
  ∃ tag, r.target = .keyword tag ∧ ∃ e ∈ s.filters.strings.expressions, ∃ part ∈ e,
    part.wildcard = false ∧ Text.lower part.value = Text.lower tag

namespace ReplayPlan

variable {rules : List Rule} {a b i k : Nat} {placed : List Nat}

def Precedes (rules : List Rule) (a b : Nat) : Prop :=
  ∃ r s, rules[a]? = some r ∧ rules[b]? = some s ∧ r.Feeds s

/-! ## The graph of dependencies -/

theorem mem_tagsNamed {f : Filters} {t : Text} : t ∈ f.tagsNamed ↔
    ∃ e ∈ f.strings.expressions, ∃ part ∈ e, part.wildcard = false ∧ Text.lower part.value = t := by
  simp only [Filters.tagsNamed, Criterion.parts, List.mem_map, List.mem_filter, List.mem_flatten,
    Bool.not_eq_true']
  constructor
  · intro h
    obtain ⟨part, ⟨⟨e, he, hpart⟩, hwild⟩, rfl⟩ := h
    exact ⟨e, he, part, hpart, hwild, rfl⟩
  · intro h
    obtain ⟨e, he, part, hpart, hwild, rfl⟩ := h
    exact ⟨part, ⟨⟨e, he, hpart⟩, hwild⟩, rfl⟩

theorem tagUse_precedes_iff {r s : Rule} : r.tagUse.precedes s.tagUse = true ↔ r.Feeds s := by
  have hnamed : ∀ t, s.filters.tagsNamed.contains t = true ↔ t ∈ s.filters.tagsNamed :=
    fun t => List.contains_iff_mem
  rw [TagUse.precedes, Rule.tagUse, Rule.tagUse, Rule.Feeds, Option.any_eq_true]
  cases htarget : r.target with
  | outfit slot outfit => simp [Target.tag?]
  | keyword tag => simp [Target.tag?, mem_tagsNamed]

theorem size_dependencies (rules : List Rule) : (dependencies rules).size = rules.length := by
  rw [dependencies, Graph.size_ofRelation]
  simp

theorem edge_dependencies : (dependencies rules).Edge a b ↔ Precedes rules a b := by
  have huse : ∀ i : Nat, ((rules.map Rule.tagUse).toArray)[i]? = (rules[i]?).map Rule.tagUse := by
    intro i
    simp
  rw [dependencies, Graph.edge_ofRelation, Precedes]
  simp only [huse, List.size_toArray, List.length_map]
  constructor
  · intro h
    obtain ⟨ha, hb, h⟩ := h
    rw [List.getElem?_eq_getElem ha, List.getElem?_eq_getElem hb] at h
    exact ⟨_, _, List.getElem?_eq_getElem ha, List.getElem?_eq_getElem hb, tagUse_precedes_iff.1 h⟩
  · intro h
    obtain ⟨r, s, hr, hs, h⟩ := h
    refine ⟨(List.getElem?_eq_some_iff.1 hr).1, (List.getElem?_eq_some_iff.1 hs).1, ?_⟩
    rw [hr, hs]
    exact tagUse_precedes_iff.2 h

theorem isClosed_dependencies (rules : List Rule) : (dependencies rules).IsClosed := by
  intro a b hb
  obtain ⟨r, s, -, hs, -⟩ := edge_dependencies.1 hb
  rw [size_dependencies]
  exact (List.getElem?_eq_some_iff.1 hs).1

theorem onCircle_dependencies :
    (dependencies rules).OnCircle i ↔ TransGen (Precedes rules) i i := by
  have hedge : (dependencies rules).Edge = Precedes rules := by
    funext a b
    exact propext edge_dependencies
  rw [Graph.OnCircle, hedge]

/-! ## Rules left out -/

theorem mem_excluded : i ∈ (ofRules rules).excluded ↔ TransGen (Precedes rules) i i :=
  (Graph.mem_circularNodes (isClosed_dependencies rules)).trans onCircle_dependencies

/-- The rules left out are, in the order of the list, those that depend on themselves.  A rule that
only reads what such a rule assigns, or assigns what it reads, is not among them. -/
theorem excluded_ascending_circular (rules : List Rule) :
    (ofRules rules).excluded.Pairwise (· < ·) ∧
      ∀ i, i ∈ (ofRules rules).excluded ↔ TransGen (Precedes rules) i i :=
  ⟨Graph.pairwise_circularNodes _, fun _ => mem_excluded⟩

/-! ## The order of the others -/

/-- The positions of the rules that are not left out. -/
def kept (rules : List Rule) : List Nat :=
  (List.range (dependencies rules).size).filter fun i => !(ofRules rules).excluded.contains i

theorem mem_kept : i ∈ kept rules ↔ i < rules.length ∧ i ∉ (ofRules rules).excluded := by
  simp [kept, size_dependencies]

theorem pairwise_kept (rules : List Rule) : (kept rules).Pairwise (· < ·) :=
  List.pairwise_lt_range.filter _

theorem not_onCircle_of_mem_kept : ∀ i ∈ kept rules, ¬ (dependencies rules).OnCircle i := by
  intro i hi hcircle
  exact (mem_kept.1 hi).2 (mem_excluded.2 (onCircle_dependencies.1 hcircle))

/-- The steps that put the rules that are not left out into their order. -/
def placements (rules : List Rule) (k : Nat) : Graph.Placement :=
  Graph.Placement.afterSteps (dependencies rules) (kept rules) k

theorem order_eq (rules : List Rule) :
    (ofRules rules).order = (dependencies rules).topologicalOrder (kept rules) := rfl

theorem order_perm (rules : List Rule) : (ofRules rules).order.Perm (kept rules) :=
  Graph.topologicalOrder_perm (pairwise_kept rules) not_onCircle_of_mem_kept

theorem nodup_order (rules : List Rule) : (ofRules rules).order.Nodup :=
  (order_perm rules).nodup_iff.2 ((pairwise_kept rules).imp Nat.ne_of_lt)

theorem mem_order : i ∈ (ofRules rules).order ↔
    i < rules.length ∧ i ∉ (ofRules rules).excluded :=
  (order_perm rules).mem_iff.trans mem_kept

/-- The rule is not left out and not placed, but all those are placed that it waits for. -/
def IsDue (rules : List Rule) (placed : List Nat) (i : Nat) : Prop :=
  i < rules.length ∧ i ∉ (ofRules rules).excluded ∧ i ∉ placed ∧
    ∀ j, Precedes rules j i → j ∉ (ofRules rules).excluded → j ∈ placed

theorem isReady_iff_isDue : Graph.Placement.IsReady (dependencies rules) (kept rules) placed i ↔
    IsDue rules placed i := by
  rw [Graph.Placement.IsReady, IsDue, mem_kept, and_assoc]
  refine and_congr_right fun _ => and_congr_right fun _ => and_congr_right fun _ => ?_
  constructor
  · intro h j hj hkept
    have hlt : j < rules.length := by
      obtain ⟨r, s, hr, -⟩ := hj
      exact (List.getElem?_eq_some_iff.1 hr).1
    exact h j (mem_kept.2 ⟨hlt, hkept⟩) (edge_dependencies.2 hj)
  · intro h j hj hedge
    exact h j (edge_dependencies.1 hedge) (mem_kept.1 hj).2

theorem order_least (hk : (ofRules rules).order[k]? = some i) :
    IsDue rules ((ofRules rules).order.take k) i ∧
      ∀ j, IsDue rules ((ofRules rules).order.take k) j → i ≤ j := by
  obtain ⟨hready, hleast⟩ :=
    Graph.topologicalOrder_least (pairwise_kept rules) not_onCircle_of_mem_kept hk
  exact ⟨isReady_iff_isDue.1 hready, fun j hj => hleast j (isReady_iff_isDue.2 hj)⟩

theorem releasesWaiting_placements (hk : k ≤ (kept rules).length) :
    Graph.Placement.ReleasesWaiting (dependencies rules) (kept rules) (placements rules k) := by
  have hspec := Graph.Placement.afterSteps_spec (pairwise_kept rules) not_onCircle_of_mem_kept k hk
  exact hspec.1.releasesWaiting ((pairwise_kept rules).imp Nat.ne_of_lt)

/-- The order lists every rule that is not left out once, at each place the earliest one that is due
there.  It is what the steps have placed in the end, and no step releases a rule that waits for
nobody, so no counter drops below zero. -/
theorem order_earliest_first (rules : List Rule) :
    (ofRules rules).order.Nodup ∧
      (∀ i, i ∈ (ofRules rules).order ↔ i < rules.length ∧ i ∉ (ofRules rules).excluded) ∧
      (∀ k i, (ofRules rules).order[k]? = some i →
        IsDue rules ((ofRules rules).order.take k) i ∧
          ∀ j, IsDue rules ((ofRules rules).order.take k) j → i ≤ j) ∧
      (ofRules rules).order = (placements rules (kept rules).length).placed ∧
      ∀ k ≤ (kept rules).length, Graph.Placement.ReleasesWaiting (dependencies rules) (kept rules)
        (placements rules k) :=
  ⟨nodup_order rules, fun _ => mem_order, fun _ _ => order_least, order_eq rules,
    fun _ => releasesWaiting_placements⟩

end ReplayPlan
end Wardrobe
