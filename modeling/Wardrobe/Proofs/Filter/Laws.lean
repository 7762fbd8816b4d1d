import Wardrobe.Proofs.Filter.Criterion
/-
Laws of criteria: what order, repetition, exclusion and joining do to their meaning.

A criterion means its exclusions together with its alternatives, and an alternative that has another
one within it adds nothing.  So exclusions may stand anywhere, and neither order nor repetition
matters.

Joining is another matter.  An expression that only excludes is no alternative, but joined with an
alternative of the other criterion it becomes one.  The joined criterion then holds of whoever
fits that alternative, whatever the first criterion asked for.
-/

namespace Wardrobe
namespace Criterion

variable {s t : Criterion α} {present : Part α → Bool} {p : Part α} {e e' : List (Part α)}

/-! ## Alternatives within alternatives -/

/-- Each alternative of the second criterion has one of the first within it, so that where the
alternatives of the second hold, those of the first do. -/
def IsWithin (s t : Criterion α) : Prop :=
  ∀ e ∈ t.expressions, inclusions e ≠ [] →
    ∃ a ∈ s.expressions, inclusions a ≠ [] ∧ inclusions a ⊆ inclusions e

/-- Some alternative holds, or there is none. -/
def SomeHolds (s : Criterion α) (present : Part α → Bool) : Prop :=
  (∀ e ∈ s.expressions, inclusions e = []) ∨
    ∃ e ∈ s.expressions, inclusions e ≠ [] ∧ ∀ p ∈ inclusions e, present p = true

theorem holds_iff_someHolds : s.holds present = true ↔
    (∀ p ∈ s.excluded, present p = false) ∧ s.SomeHolds present := holds_iff

theorem isWithin_of_forall_mem
    (h : ∀ e ∈ t.expressions, ∃ a ∈ s.expressions, ∀ p, p ∈ inclusions a ↔ p ∈ inclusions e) :
    s.IsWithin t := by
  intro e he hne
  obtain ⟨a, ha, hsame⟩ := h e he
  obtain ⟨p, hp⟩ := List.exists_mem_of_ne_nil _ hne
  exact ⟨a, ha, List.ne_nil_of_mem ((hsame p).2 hp), fun q hq => (hsame q).1 hq⟩

theorem IsWithin.exists_holds (h : s.IsWithin t)
    (ht : ∃ e ∈ t.expressions, inclusions e ≠ [] ∧ ∀ p ∈ inclusions e, present p = true) :
    ∃ e ∈ s.expressions, inclusions e ≠ [] ∧ ∀ p ∈ inclusions e, present p = true := by
  obtain ⟨e, he, hne, hall⟩ := ht
  obtain ⟨a, ha, hne', hsub⟩ := h e he hne
  exact ⟨a, ha, hne', fun p hp => hall p (hsub hp)⟩

/-- Where there are no alternatives, none has another within it. -/
theorem IsWithin.forall_eq_nil (h : s.IsWithin t) (hs : ∀ e ∈ s.expressions, inclusions e = []) :
    ∀ e ∈ t.expressions, inclusions e = [] := by
  intro e he
  by_contra hne
  obtain ⟨a, ha, hne', -⟩ := h e he hne
  exact hne' (hs a ha)

theorem someHolds_congr (hst : s.IsWithin t) (hts : t.IsWithin s) :
    s.SomeHolds present ↔ t.SomeHolds present :=
  or_congr ⟨hst.forall_eq_nil, hts.forall_eq_nil⟩ ⟨hts.exists_holds, hst.exists_holds⟩

/-- The same exclusions, and alternatives within each other. -/
theorem holds_eq_of_isWithin (hexcluded : ∀ p, p ∈ s.excluded ↔ p ∈ t.excluded)
    (hst : s.IsWithin t) (hts : t.IsWithin s) : s.holds present = t.holds present := by
  rw [Bool.eq_iff_iff, holds_iff_someHolds, holds_iff_someHolds, someHolds_congr hst hts]
  simp only [hexcluded]

/-- One more exclusion, and alternatives within each other. -/
theorem holds_of_excluding (hexcluded : ∀ q, q ∈ t.excluded ↔ q = p ∨ q ∈ s.excluded)
    (hst : s.IsWithin t) (hts : t.IsWithin s) :
    t.holds present = (s.holds present && !present p) := by
  rw [Bool.eq_iff_iff, Bool.and_eq_true, holds_iff_someHolds, holds_iff_someHolds,
    someHolds_congr hst hts, Bool.not_eq_true']
  simp only [hexcluded, forall_eq_or_imp]
  tauto

/-! ## Exclusions anywhere -/

variable {before after : List (List (Part α))} {front back : List (Part α)}

/-- An expression in place of one that asks for the same. -/
theorem isWithin_replace (h : ∀ p, p ∈ inclusions e ↔ p ∈ inclusions e') :
    IsWithin ⟨before ++ e :: after⟩ ⟨before ++ e' :: after⟩ := by
  apply isWithin_of_forall_mem
  simp only [List.forall_mem_append, List.forall_mem_cons]
  exact ⟨fun a ha => ⟨a, by simp [ha]⟩, ⟨e, by simp, h⟩, fun a ha => ⟨a, by simp [ha]⟩⟩

/-- An exclusion in the midst of an expression. -/
theorem holds_insert_part (hp : p.negated = true) :
    holds ⟨before ++ (front ++ p :: back) :: after⟩ present =
      (holds ⟨before ++ (front ++ back) :: after⟩ present && !present p) := by
  have hinclusions : inclusions (front ++ p :: back) = inclusions (front ++ back) := by
    simp [inclusions, hp]
  refine holds_of_excluding (fun q => ?_) (isWithin_replace fun q => ?_)
    (isWithin_replace fun q => ?_)
  · simp only [excluded, parts, List.mem_filter, List.flatten_append, List.flatten_cons,
      List.mem_append, List.mem_cons]
    by_cases hq : q = p
    · simp [hq, hp]
    · simp [hq]
  · rw [hinclusions]
  · rw [hinclusions]

/-- An exclusion as an expression of its own. -/
theorem holds_insert_expression (hp : p.negated = true) :
    holds ⟨before ++ [p] :: after⟩ present =
      (holds ⟨before ++ after⟩ present && !present p) := by
  have hinclusions : inclusions [p] = [] := by simp [inclusions, hp]
  refine holds_of_excluding (fun q => ?_) (fun e he hne => ?_) (fun e he hne => ?_)
  · simp only [excluded, parts, List.mem_filter, List.flatten_append, List.flatten_cons,
      List.mem_append, List.mem_singleton]
    by_cases hq : q = p
    · simp [hq, hp]
    · simp [hq]
  · refine ⟨e, ?_, hne, List.Subset.refl _⟩
    rcases List.mem_append.1 he with he | he
    · exact List.mem_append_left _ he
    · rcases List.mem_cons.1 he with rfl | he
      · exact absurd hinclusions hne
      · exact List.mem_append_right _ he
  · refine ⟨e, ?_, hne, List.Subset.refl _⟩
    rcases List.mem_append.1 he with he | he
    · exact List.mem_append_left _ he
    · exact List.mem_append_right _ (List.mem_cons_of_mem _ he)

/-! ## Order and repetition -/

/-- The same expressions in another order or some of them again, and the same parts in another order
or some of them again, by any number of such changes. -/
inductive IsRearranged : Criterion α → Criterion α → Prop
  | expressions {es es' : List (List (Part α))} (h : es.Perm es') : IsRearranged ⟨es⟩ ⟨es'⟩
  | parts (before after : List (List (Part α))) {e e' : List (Part α)} (h : e.Perm e') :
    IsRearranged ⟨before ++ e :: after⟩ ⟨before ++ e' :: after⟩
  | expressionAgain {before after : List (List (Part α))} {e : List (Part α)}
    (h : e ∈ before ++ after) : IsRearranged ⟨before ++ after⟩ ⟨before ++ e :: after⟩
  | partAgain (before after : List (List (Part α))) {front back : List (Part α)} {p : Part α}
    (h : p ∈ front ++ back) :
    IsRearranged ⟨before ++ (front ++ back) :: after⟩ ⟨before ++ (front ++ p :: back) :: after⟩
  | symm {s t : Criterion α} (h : IsRearranged s t) : IsRearranged t s
  | trans {s t u : Criterion α} (h : IsRearranged s t) (h' : IsRearranged t u) : IsRearranged s u

/-- Each expression of the first criterion has the parts of one of the second. -/
def IsCoveredBy (s t : Criterion α) : Prop :=
  ∀ e ∈ s.expressions, ∃ e' ∈ t.expressions, ∀ p, p ∈ e ↔ p ∈ e'

theorem IsCoveredBy.trans {u : Criterion α} (h : s.IsCoveredBy t) (h' : t.IsCoveredBy u) :
    s.IsCoveredBy u := by
  intro e he
  obtain ⟨a, ha, hsame⟩ := h e he
  obtain ⟨b, hb, hsame'⟩ := h' a ha
  exact ⟨b, hb, fun p => (hsame p).trans (hsame' p)⟩

theorem isCoveredBy_of_subset (h : s.expressions ⊆ t.expressions) : s.IsCoveredBy t :=
  fun e he => ⟨e, h he, fun _ => Iff.rfl⟩

theorem isCoveredBy_replace (h : ∀ p, p ∈ e ↔ p ∈ e') :
    IsCoveredBy ⟨before ++ e :: after⟩ ⟨before ++ e' :: after⟩ := by
  simp only [IsCoveredBy, List.forall_mem_append, List.forall_mem_cons]
  exact ⟨fun a ha => ⟨a, by simp [ha]⟩, ⟨e', by simp, h⟩, fun a ha => ⟨a, by simp [ha]⟩⟩

/-- What stands in a list is not changed by writing it once more. -/
theorem mem_append_cons_iff {xs ys : List β} {x : β} (h : x ∈ xs ++ ys) (y : β) :
    y ∈ xs ++ x :: ys ↔ y ∈ xs ++ ys := by
  rw [List.perm_middle.mem_iff, List.mem_cons]
  exact or_iff_right_of_imp fun hy => hy ▸ h

theorem IsRearranged.isCoveredBy (h : s.IsRearranged t) : s.IsCoveredBy t ∧ t.IsCoveredBy s := by
  induction h with
  | expressions h => exact ⟨isCoveredBy_of_subset h.subset, isCoveredBy_of_subset h.symm.subset⟩
  | parts before after h =>
    exact ⟨isCoveredBy_replace fun _ => h.mem_iff, isCoveredBy_replace fun _ => h.symm.mem_iff⟩
  | expressionAgain h =>
    exact ⟨isCoveredBy_of_subset fun a => (mem_append_cons_iff h a).2,
      isCoveredBy_of_subset fun a => (mem_append_cons_iff h a).1⟩
  | partAgain before after h =>
    exact ⟨isCoveredBy_replace fun q => (mem_append_cons_iff h q).symm,
      isCoveredBy_replace (mem_append_cons_iff h)⟩
  | symm _ ih => exact ih.symm
  | trans _ _ ih ih' => exact ⟨ih.1.trans ih'.1, ih'.2.trans ih.2⟩

theorem IsCoveredBy.mem_excluded (h : s.IsCoveredBy t) (hp : p ∈ s.excluded) : p ∈ t.excluded := by
  rw [Criterion.mem_excluded] at hp ⊢
  obtain ⟨⟨e, he, hpe⟩, hneg⟩ := hp
  obtain ⟨e', he', hsame⟩ := h e he
  exact ⟨⟨e', he', (hsame p).1 hpe⟩, hneg⟩

theorem IsCoveredBy.isWithin (h : s.IsCoveredBy t) : t.IsWithin s := by
  refine isWithin_of_forall_mem fun e he => ?_
  obtain ⟨e', he', hsame⟩ := h e he
  refine ⟨e', he', fun p => ?_⟩
  rw [inclusions, inclusions, List.mem_filter, List.mem_filter, hsame p]

theorem holds_rearranged (h : s.IsRearranged t) : s.holds present = t.holds present :=
  have ⟨hst, hts⟩ := h.isCoveredBy
  holds_eq_of_isWithin (fun _ => ⟨hst.mem_excluded, hts.mem_excluded⟩) hts.isWithin hst.isWithin

/-- An exclusion speaks for the whole criterion wherever it is put, and order and repetition do not
matter. -/
theorem holds_excluding_or_rearranged (present : Part α → Bool) :
    (∀ p : Part α, p.negated = true →
      (∀ before front back after, holds ⟨before ++ (front ++ p :: back) :: after⟩ present =
        (holds ⟨before ++ (front ++ back) :: after⟩ present && !present p)) ∧
      ∀ before after, holds ⟨before ++ [p] :: after⟩ present =
        (holds ⟨before ++ after⟩ present && !present p)) ∧
    ∀ s t : Criterion α, s.IsRearranged t → s.holds present = t.holds present :=
  ⟨fun _ hp => ⟨fun _ _ _ _ => holds_insert_part hp, fun _ _ => holds_insert_expression hp⟩,
    fun _ _ h => holds_rearranged h⟩

def named (t : Text) : Part Text := ⟨t, false, false⟩

def notNamed (t : Text) : Part Text := ⟨t, true, false⟩

/-- A wounded captain of the guard. -/
def woundedCaptain (p : Part Text) : Bool :=
  p.value ∈ (["Guard", "Captain", "Wounded"] : List Text)

/-- Whoever is wounded is left out by either place of the exclusion, and is let in without it in
either order. -/
theorem wounded_excluded_anywhere :
    (notNamed "Wounded").negated = true ∧
      IsRearranged ⟨[[named "Guard", named "Noble"], [named "Captain"]]⟩
        ⟨[[named "Captain"], [named "Guard", named "Noble"]]⟩ ∧
      holds ⟨[[named "Guard"], [named "Captain"]]⟩ woundedCaptain = true ∧
      holds ⟨[[named "Guard", notNamed "Wounded"], [named "Captain"]]⟩ woundedCaptain = false ∧
      holds empty woundedCaptain = true ∧
      holds ⟨[[notNamed "Wounded"]]⟩ woundedCaptain = false ∧
      holds ⟨[[named "Guard", named "Noble"], [named "Captain"]]⟩ woundedCaptain = true ∧
      holds ⟨[[named "Captain"], [named "Guard", named "Noble"]]⟩ woundedCaptain = true := by
  have hswap : IsRearranged ⟨[[named "Guard", named "Noble"], [named "Captain"]]⟩
      ⟨[[named "Captain"], [named "Guard", named "Noble"]]⟩ := .expressions (.swap _ _ _)
  have hguard : holds ⟨[[named "Guard"], [named "Captain"]]⟩ woundedCaptain = true := by decide
  have hnoble : holds ⟨[[named "Guard", named "Noble"], [named "Captain"]]⟩ woundedCaptain =
      true := by decide
  obtain ⟨hexcluding, hrearranged⟩ := holds_excluding_or_rearranged woundedCaptain
  obtain ⟨hpart, hexpression⟩ := hexcluding (notNamed "Wounded") rfl
  refine ⟨rfl, hswap, hguard, ?_, rfl, ?_, hnoble, ?_⟩
  · have hout := hpart [] [named "Guard"] [] [[named "Captain"]]
    exact hout.trans (by decide)
  · exact (hexpression [] []).trans (by decide)
  · exact (hrearranged _ _ hswap).symm.trans hnoble

/-! ## Joining -/

/-- The joined criterion asks for no more than both. -/
theorem holds_and_of_holds (hs : s.holds present = true) (ht : t.holds present = true) :
    (s.and t).holds present = true := by
  by_cases hsnil : s.expressions = []
  · rwa [and_of_left_nil hsnil]
  by_cases htnil : t.expressions = []
  · rwa [and_of_right_nil htnil]
  obtain ⟨left, hleft⟩ := List.exists_mem_of_ne_nil _ hsnil
  obtain ⟨right, hright⟩ := List.exists_mem_of_ne_nil _ htnil
  obtain ⟨hsex, hs⟩ := holds_iff_someHolds.1 hs
  obtain ⟨htex, ht⟩ := holds_iff_someHolds.1 ht
  have hjoined {a b : List (Part α)} (ha : a ∈ s.expressions) (hb : b ∈ t.expressions)
      (hne : inclusions a ≠ [] ∨ inclusions b ≠ []) (hall : ∀ p ∈ inclusions a, present p = true)
      (hall' : ∀ p ∈ inclusions b, present p = true) : (s.and t).SomeHolds present := by
    refine Or.inr ⟨a ++ b, (mem_and hsnil htnil).2 ⟨a, ha, b, hb, rfl⟩, ?_, ?_⟩
    · rw [inclusions_append, Ne, List.append_eq_nil_iff, not_and_or]
      exact hne
    · rw [inclusions_append, List.forall_mem_append]
      exact ⟨hall, hall'⟩
  refine holds_iff_someHolds.2
    ⟨fun p hp => (mem_excluded_and.1 hp).elim (hsex p) (htex p), ?_⟩
  rcases hs with hs | ⟨a, ha, hane, hall⟩
  · rcases ht with ht | ⟨b, hb, hbne, hall'⟩
    · refine Or.inl fun e he => ?_
      obtain ⟨a, ha, b, hb, rfl⟩ := (mem_and hsnil htnil).1 he
      rw [inclusions_append, hs a ha, ht b hb, List.append_nil]
    · exact hjoined hleft hb (Or.inr hbne) (by simp [hs left hleft]) hall'
  · rcases ht with ht | ⟨b, hb, hbne, hall'⟩
    · exact hjoined ha hright (Or.inl hane) hall (by simp [ht right hright])
    · exact hjoined ha hb (Or.inl hane) hall hall'

theorem holds_and_comm : (s.and t).holds present = (t.and s).holds present := by
  have hwithin (s t : Criterion α) : (t.and s).IsWithin (s.and t) := by
    by_cases hsnil : s.expressions = []
    · rw [and_of_left_nil hsnil, and_of_right_nil hsnil]
      exact (isCoveredBy_of_subset (List.Subset.refl _)).isWithin
    by_cases htnil : t.expressions = []
    · rw [and_of_left_nil htnil, and_of_right_nil htnil]
      exact (isCoveredBy_of_subset (List.Subset.refl _)).isWithin
    refine isWithin_of_forall_mem fun e he => ?_
    obtain ⟨left, hleft, right, hright, rfl⟩ := (mem_and hsnil htnil).1 he
    refine ⟨right ++ left, (mem_and htnil hsnil).2 ⟨right, hright, left, hleft, rfl⟩, fun p => ?_⟩
    rw [inclusions_append, inclusions_append, List.mem_append, List.mem_append, or_comm]
  refine holds_eq_of_isWithin (fun p => ?_) (hwithin t s) (hwithin s t)
  rw [mem_excluded_and, mem_excluded_and, or_comm]

/-- An expression that only excludes lends the alternatives of the other criterion to its own.  This
does no harm where they are alternatives of its own anyway. -/
theorem holds_of_holds_and (hs : s.IsUniform ∨ s.IsWithin t)
    (h : (s.and t).holds present = true) : s.holds present = true := by
  by_cases hsnil : s.expressions = []
  · rw [holds_iff]
    simp [Criterion.mem_excluded, hsnil]
  by_cases htnil : t.expressions = []
  · rwa [and_of_right_nil htnil] at h
  obtain ⟨hexcluded, h⟩ := holds_iff_someHolds.1 h
  refine holds_iff_someHolds.2 ⟨fun p hp => hexcluded p (mem_excluded_and.2 (Or.inl hp)), ?_⟩
  rcases h with hnone | ⟨e, he, hne, hall⟩
  · refine Or.inl fun a ha => ?_
    obtain ⟨b, hb⟩ := List.exists_mem_of_ne_nil _ htnil
    have hboth := hnone _ ((mem_and hsnil htnil).2 ⟨a, ha, b, hb, rfl⟩)
    rw [inclusions_append, List.append_eq_nil_iff] at hboth
    exact hboth.1
  · obtain ⟨a, ha, b, hb, rfl⟩ := (mem_and hsnil htnil).1 he
    rw [inclusions_append, List.forall_mem_append] at hall
    by_cases hane : inclusions a = []
    · rw [inclusions_append, hane, List.nil_append] at hne
      rcases hs with (hnil | hsome) | hwithin
      · exact Or.inl hnil
      · exact absurd hane (hsome a ha)
      · exact Or.inr (hwithin.exists_holds ⟨b, hb, hne, hall.2⟩)
    · exact Or.inr ⟨a, ha, hane, hall.1⟩

theorem holds_and_iff (hs : s.IsUniform ∨ s.IsWithin t) (ht : t.IsUniform ∨ t.IsWithin s) :
    (s.and t).holds present = true ↔ s.holds present = true ∧ t.holds present = true := by
  refine ⟨fun h => ⟨holds_of_holds_and hs h, holds_of_holds_and ht ?_⟩,
    fun h => holds_and_of_holds h.1 h.2⟩
  rwa [holds_and_comm]

/-- Joined criteria ask for what both ask for. -/
theorem holds_and (hs : s.IsUniform) (ht : t.IsUniform) :
    (s.and t).holds present = true ↔ s.holds present = true ∧ t.holds present = true :=
  holds_and_iff (Or.inl hs) (Or.inl ht)

/-- Where the joined criterion always asks for the first, one that lends alternatives has them. -/
theorem isWithin_of_holds_and
    (h : ∀ present, (s.and t).holds present = true → s.holds present = true) :
    s.IsUniform ∨ s.IsWithin t := by
  classical
  by_cases hs : s.IsUniform
  · exact Or.inl hs
  obtain ⟨hsome, hbare⟩ := not_or.1 hs
  push Not at hsome hbare
  obtain ⟨bare, hbareMem, hbareNil⟩ := hbare
  refine Or.inr fun e he hne => ?_
  -- Let just what `e` asks for be there.
  have hjoined : (s.and t).holds (fun p => decide (p ∈ inclusions e)) = true := by
    have hsnil := List.ne_nil_of_mem hbareMem
    have htnil := List.ne_nil_of_mem he
    refine holds_iff_someHolds.2 ⟨fun p hp => decide_eq_false fun hmem => ?_, ?_⟩
    · rw [Criterion.mem_excluded] at hp
      simp [inclusions, hp.2] at hmem
    · refine Or.inr ⟨bare ++ e, (mem_and hsnil htnil).2 ⟨bare, hbareMem, e, he, rfl⟩, ?_, ?_⟩
      · rwa [inclusions_append, hbareNil, List.nil_append]
      · rw [inclusions_append, hbareNil, List.nil_append]
        exact fun p hp => decide_eq_true hp
  rcases (holds_iff_someHolds.1 (h _ hjoined)).2 with hnone | ⟨a, ha, hane, hall⟩
  · obtain ⟨a, ha, hane⟩ := hsome
    exact absurd (hnone a ha) hane
  · exact ⟨a, ha, hane, fun p hp => of_decide_eq_true (hall p hp)⟩

/-- Joining asks for both criteria, whatever is there, just when neither has an expression that
lends it alternatives of the other which it does not have itself. -/
theorem holds_and_eq_iff :
    (∀ present, (s.and t).holds present = (s.holds present && t.holds present)) ↔
      (s.IsUniform ∨ s.IsWithin t) ∧ (t.IsUniform ∨ t.IsWithin s) := by
  constructor
  · intro h
    refine ⟨isWithin_of_holds_and fun present hand => ?_,
      isWithin_of_holds_and fun present hand => ?_⟩
    · rw [h, Bool.and_eq_true] at hand
      exact hand.1
    · rw [holds_and_comm, h, Bool.and_eq_true] at hand
      exact hand.2
  · rintro ⟨hs, ht⟩ present
    rw [Bool.eq_iff_iff, Bool.and_eq_true]
    exact holds_and_iff hs ht

def guardsUnwounded : Criterion Text := ⟨[[named "Guard"], [notNamed "Wounded"]]⟩

def captains : Criterion Text := ⟨[[named "Captain"]]⟩

/-- Someone who is a captain, no guard and not wounded. -/
def captainAlone (p : Part Text) : Bool := p.value = "Captain".toList

/-- The expression that only asks not to be wounded lets the captain pass for a guard. -/
theorem guardsUnwounded_and_captains :
    (guardsUnwounded.and captains).holds captainAlone ≠
      (guardsUnwounded.holds captainAlone && captains.holds captainAlone) := by
  decide

end Criterion
end Wardrobe
