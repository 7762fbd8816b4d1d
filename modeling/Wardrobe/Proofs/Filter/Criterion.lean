import Mathlib.Data.List.Basic
import Wardrobe.Filter.Criterion
/-
What a criterion means, and what a joined criterion is made of.

Joining puts each expression of one criterion together with each of the other.  Criteria whose
expressions are alike, as those of the clauses of a line are, stay so when they are joined.
-/

namespace Wardrobe
namespace Criterion

variable {s t : Criterion α} {present : Part α → Bool} {e : List (Part α)} {l : List (Part α)}

theorem mem_excluded {p : Part α} :
    p ∈ s.excluded ↔ (∃ e ∈ s.expressions, p ∈ e) ∧ p.negated = true := by
  rw [excluded, parts, List.mem_filter, List.mem_flatten]

theorem inclusions_append (e l : List (Part α)) :
    inclusions (e ++ l) = inclusions e ++ inclusions l := List.filter_append e l

theorem holds_iff : s.holds present = true ↔
    (∀ p ∈ s.excluded, present p = false) ∧
      ((∀ e ∈ s.expressions, inclusions e = []) ∨
        ∃ e ∈ s.expressions, inclusions e ≠ [] ∧ ∀ p ∈ inclusions e, present p = true) := by
  have hexcluded : s.excluded.any present = false ↔ ∀ p ∈ s.excluded, present p = false := by
    simp [List.any_eq_false]
  rw [holds, ← hexcluded]
  cases s.excluded.any present with
  | true => simp
  | false =>
    simp only [Bool.false_eq_true, if_false, true_and, Bool.or_eq_true, List.isEmpty_iff,
      List.filter_eq_nil_iff, List.any_eq_true, List.mem_filter, List.mem_map,
      List.all_eq_true, forall_exists_index, and_imp, forall_apply_eq_imp_iff₂]
    refine or_congr (forall₂_congr fun e he => by simp) ?_
    constructor
    · rintro ⟨-, ⟨⟨e, he, rfl⟩, hne⟩, hall⟩
      exact ⟨e, he, by simpa using hne, hall⟩
    · rintro ⟨e, he, hne, hall⟩
      exact ⟨inclusions e, ⟨⟨e, he, rfl⟩, by simpa using hne⟩, hall⟩

theorem holds_empty : (empty : Criterion α).holds present = true := by
  rw [holds_iff]
  simp [empty, excluded, parts]

/-! ## Criteria whose expressions are alike -/

/-- Every expression includes something, or none does. -/
def IsUniform (s : Criterion α) : Prop :=
  (∀ e ∈ s.expressions, inclusions e = []) ∨ ∀ e ∈ s.expressions, inclusions e ≠ []

theorem isUniform_empty : (empty : Criterion α).IsUniform :=
  Or.inl fun _ he => absurd he List.not_mem_nil

theorem IsUniform.holds_iff (h : s.IsUniform) : s.holds present = true ↔
    (∀ p ∈ s.excluded, present p = false) ∧
      (s.expressions = [] ∨ ∃ e ∈ s.expressions, ∀ p ∈ inclusions e, present p = true) := by
  rw [Criterion.holds_iff]
  refine and_congr_right fun _ => ?_
  rcases h with hnone | hall
  · -- Nothing is asked for, and any expression says so.
    refine iff_of_true (Or.inl hnone) ?_
    cases hs : s.expressions with
    | nil => exact Or.inl rfl
    | cons e rest =>
      rw [hs] at hnone
      refine Or.inr ⟨e, List.mem_cons_self, fun p hp => ?_⟩
      rw [hnone e List.mem_cons_self] at hp
      cases hp
  · constructor
    · rintro (hnil | ⟨e, he, -, hpresent⟩)
      · refine Or.inl (List.eq_nil_iff_forall_not_mem.2 fun e he => hall e he (hnil e he))
      · exact Or.inr ⟨e, he, hpresent⟩
    · rintro (hnil | ⟨e, he, hpresent⟩)
      · exact Or.inl (by simp [hnil])
      · exact Or.inr ⟨e, he, hall e he, hpresent⟩

theorem and_of_ne_nil (hs : s.expressions ≠ []) (ht : t.expressions ≠ []) :
    (s.and t).expressions =
      s.expressions.flatMap fun left => t.expressions.map fun right => left ++ right := by
  rw [and, if_neg (by simpa [isEmpty] using hs), if_neg (by simpa [isEmpty] using ht)]

theorem and_of_left_nil (hs : s.expressions = []) : s.and t = t := by
  rw [and, if_pos (by simp [isEmpty, hs])]

theorem and_of_right_nil (ht : t.expressions = []) : s.and t = s := by
  by_cases hs : s.expressions = []
  · rw [and_of_left_nil hs]
    cases s
    cases t
    exact congrArg _ (ht.trans hs.symm)
  · rw [and, if_neg (by simpa [isEmpty] using hs), if_pos (by simp [isEmpty, ht])]

theorem mem_and (hs : s.expressions ≠ []) (ht : t.expressions ≠ []) :
    e ∈ (s.and t).expressions ↔
      ∃ left ∈ s.expressions, ∃ right ∈ t.expressions, e = left ++ right := by
  rw [and_of_ne_nil hs ht]
  simp [eq_comm]

theorem and_ne_nil (hs : s.expressions ≠ []) (ht : t.expressions ≠ []) :
    (s.and t).expressions ≠ [] := by
  obtain ⟨left, hleft⟩ := List.exists_mem_of_ne_nil _ hs
  obtain ⟨right, hright⟩ := List.exists_mem_of_ne_nil _ ht
  exact List.ne_nil_of_mem ((mem_and hs ht).2 ⟨left, hleft, right, hright, rfl⟩)

theorem isEmpty_and : (s.and t).isEmpty = (s.isEmpty && t.isEmpty) := by
  by_cases hs : s.expressions = []
  · simp [and_of_left_nil hs, isEmpty, hs]
  by_cases ht : t.expressions = []
  · simp [and_of_right_nil ht, isEmpty, ht]
  rw [isEmpty, isEmpty, isEmpty, List.isEmpty_eq_false_iff.2 hs, List.isEmpty_eq_false_iff.2 ht,
    List.isEmpty_eq_false_iff.2 (and_ne_nil hs ht), Bool.and_self]

theorem mem_excluded_and {p : Part α} :
    p ∈ (s.and t).excluded ↔ p ∈ s.excluded ∨ p ∈ t.excluded := by
  by_cases hs : s.expressions = []
  · simp [and_of_left_nil hs, mem_excluded (s := s), hs]
  by_cases ht : t.expressions = []
  · simp [and_of_right_nil ht, mem_excluded (s := t), ht]
  obtain ⟨left, hleft⟩ := List.exists_mem_of_ne_nil _ hs
  obtain ⟨right, hright⟩ := List.exists_mem_of_ne_nil _ ht
  simp only [mem_excluded, mem_and hs ht]
  constructor
  · rintro ⟨⟨e, ⟨a, ha, b, hb, rfl⟩, hp⟩, hneg⟩
    exact (List.mem_append.1 hp).imp (fun hp => ⟨⟨a, ha, hp⟩, hneg⟩) fun hp => ⟨⟨b, hb, hp⟩, hneg⟩
  · rintro (⟨⟨a, ha, hp⟩, hneg⟩ | ⟨⟨b, hb, hp⟩, hneg⟩)
    · exact ⟨⟨_, ⟨a, ha, right, hright, rfl⟩, List.mem_append_left _ hp⟩, hneg⟩
    · exact ⟨⟨_, ⟨left, hleft, b, hb, rfl⟩, List.mem_append_right _ hp⟩, hneg⟩

theorem mem_parts_and {p : Part α} (h : p ∈ (s.and t).parts) : p ∈ s.parts ∨ p ∈ t.parts := by
  by_cases hs : s.expressions = []
  · rw [and_of_left_nil hs] at h
    exact Or.inr h
  by_cases ht : t.expressions = []
  · rw [and_of_right_nil ht] at h
    exact Or.inl h
  obtain ⟨e, he, hp⟩ := List.mem_flatten.1 h
  obtain ⟨left, hleft, right, hright, rfl⟩ := (mem_and hs ht).1 he
  exact (List.mem_append.1 hp).imp (fun hp => List.mem_flatten.2 ⟨left, hleft, hp⟩)
    fun hp => List.mem_flatten.2 ⟨right, hright, hp⟩

theorem IsUniform.and (hs : s.IsUniform) (ht : t.IsUniform) : (s.and t).IsUniform := by
  by_cases hsnil : s.expressions = []
  · rwa [and_of_left_nil hsnil]
  by_cases htnil : t.expressions = []
  · rwa [and_of_right_nil htnil]
  have hmem : ∀ e ∈ (s.and t).expressions, ∃ left ∈ s.expressions, ∃ right ∈ t.expressions,
      inclusions e = inclusions left ++ inclusions right := by
    intro e he
    obtain ⟨left, hleft, right, hright, rfl⟩ := (mem_and hsnil htnil).1 he
    exact ⟨left, hleft, right, hright, inclusions_append left right⟩
  rcases hs with hs | hs
  · rcases ht with ht | ht
    · refine Or.inl fun e he => ?_
      obtain ⟨left, hleft, right, hright, heq⟩ := hmem e he
      rw [heq, hs left hleft, ht right hright, List.append_nil]
    · refine Or.inr fun e he => ?_
      obtain ⟨left, hleft, right, hright, heq⟩ := hmem e he
      simp [heq, ht right hright]
  · refine Or.inr fun e he => ?_
    obtain ⟨left, hleft, right, -, heq⟩ := hmem e he
    simp [heq, hs left hleft]

/-! ## Criteria of one list of values -/

theorem expressions_allOf (h : l ≠ []) : (allOf l).expressions = [l] := by
  simp [allOf, ofExpressions, h]

theorem expressions_anyOf (l : List (Part α)) : (anyOf l).expressions = l.map fun p => [p] := by
  rw [anyOf, ofExpressions, List.filter_eq_self]
  simp

theorem mem_of_mem_parts_allOf {p : Part α} (h : p ∈ (allOf l).parts) : p ∈ l := by
  by_cases hl : l = []
  · subst hl
    cases h
  · simpa [parts, expressions_allOf hl] using h

theorem mem_of_mem_parts_anyOf {p : Part α} (h : p ∈ (anyOf l).parts) : p ∈ l := by
  simpa [parts, expressions_anyOf] using h

/-- No expression is empty, and the parts are all of one sort. -/
def ConsistsOf (s : Criterion α) (sort : Part α → Prop) : Prop :=
  ∀ e ∈ s.expressions, e ≠ [] ∧ ∀ p ∈ e, sort p

section ConsistsOf

variable {sort sort' : Part α → Prop}

theorem ConsistsOf.of_mem_parts (hs : s.ConsistsOf sort) {p : Part α} (hp : p ∈ s.parts) :
    sort p := by
  obtain ⟨e, he, hp⟩ := List.mem_flatten.1 hp
  exact (hs e he).2 p hp

theorem ConsistsOf.mono (hs : s.ConsistsOf sort) (h : ∀ p ∈ s.parts, sort p → sort' p) :
    s.ConsistsOf sort' := by
  intro e he
  obtain ⟨hne, hparts⟩ := hs e he
  exact ⟨hne, fun p hp => h p (List.mem_flatten.2 ⟨e, he, hp⟩) (hparts p hp)⟩

theorem ConsistsOf.and (hs : s.ConsistsOf sort) (ht : t.ConsistsOf sort) :
    (s.and t).ConsistsOf sort := by
  by_cases hsnil : s.expressions = []
  · rwa [and_of_left_nil hsnil]
  by_cases htnil : t.expressions = []
  · rwa [and_of_right_nil htnil]
  intro e he
  obtain ⟨left, hleft, right, hright, rfl⟩ := (mem_and hsnil htnil).1 he
  exact ⟨List.append_ne_nil_of_left_ne_nil (hs left hleft).1 _,
    List.forall_mem_append.2 ⟨(hs left hleft).2, (ht right hright).2⟩⟩

theorem consistsOf_allOf (h : ∀ p ∈ l, sort p) : (allOf l).ConsistsOf sort := by
  intro e he
  by_cases hl : l = []
  · subst hl
    cases he
  · rw [expressions_allOf hl] at he
    obtain rfl := List.mem_singleton.1 he
    exact ⟨hl, h⟩

theorem consistsOf_anyOf (h : ∀ p ∈ l, sort p) : (anyOf l).ConsistsOf sort := by
  intro e he
  rw [expressions_anyOf] at he
  obtain ⟨p, hp, rfl⟩ := List.mem_map.1 he
  exact ⟨List.cons_ne_nil p [], List.forall_mem_singleton.2 (h p hp)⟩

end ConsistsOf

/-- Parts that are all negated, or none of which is. -/
theorem isUniform_allOf (l : List (Part α)) : (allOf l).IsUniform := by
  by_cases hl : l = []
  · subst hl
    exact isUniform_empty
  · rw [IsUniform, expressions_allOf hl]
    simpa using em (inclusions l = [])

theorem isUniform_anyOf (h : ∀ p ∈ l, p.negated = false) : (anyOf l).IsUniform := by
  refine Or.inr fun e he => ?_
  rw [expressions_anyOf] at he
  obtain ⟨p, hp, rfl⟩ := List.mem_map.1 he
  simp [inclusions, h p hp]

theorem holds_allOf (hl : l ≠ []) (h : ∀ p ∈ l, p.negated = false) :
    (allOf l).holds present = true ↔ ∀ p ∈ l, present p = true := by
  have hincluded : inclusions l = l := by
    rw [inclusions, List.filter_eq_self]
    simpa using h
  have hexcluded : (allOf l).excluded = [] := by
    rw [excluded, parts, expressions_allOf hl]
    simpa using h
  rw [(isUniform_allOf l).holds_iff, hexcluded, expressions_allOf hl]
  simp [hincluded]

theorem holds_allOf_negated (hl : l ≠ []) (h : ∀ p ∈ l, p.negated = true) :
    (allOf l).holds present = true ↔ ∀ p ∈ l, present p = false := by
  have hincluded : inclusions l = [] := by
    rw [inclusions, List.filter_eq_nil_iff]
    simpa using h
  have hexcluded : (allOf l).excluded = l := by
    rw [excluded, parts, expressions_allOf hl]
    simpa using h
  rw [(isUniform_allOf l).holds_iff, hexcluded, expressions_allOf hl]
  simp [hincluded]

theorem holds_anyOf (hl : l ≠ []) (h : ∀ p ∈ l, p.negated = false) :
    (anyOf l).holds present = true ↔ ∃ p ∈ l, present p = true := by
  have hexcluded : ∀ p, p ∉ (anyOf l).excluded := by
    intro p hp
    rw [mem_excluded, expressions_anyOf] at hp
    obtain ⟨⟨e, he, hpe⟩, hneg⟩ := hp
    obtain ⟨q, hq, rfl⟩ := List.mem_map.1 he
    obtain rfl := List.mem_singleton.1 hpe
    rw [h p hq] at hneg
    cases hneg
  rw [(isUniform_anyOf h).holds_iff, expressions_anyOf]
  simp only [List.map_eq_nil_iff, hl, false_or, List.mem_map, exists_exists_and_eq_and]
  constructor
  · rintro ⟨-, p, hp, hall⟩
    exact ⟨p, hp, hall p (by simp [inclusions, h p hp])⟩
  · rintro ⟨p, hp, hpresent⟩
    refine ⟨fun q hq => absurd hq (hexcluded q), p, hp, fun q hq => ?_⟩
    obtain rfl := List.mem_singleton.1 (List.mem_filter.1 hq).1
    exact hpresent

end Criterion
end Wardrobe
