import Mathlib.Data.List.Nodup
import Wardrobe.Proofs.SkyPatcher.Factor
/-
Clauses multiplied out into alternatives, and these taken apart again.

Joining the clauses of a line gives every choice of one alternative from each clause, those of the
last clause changing first.  All of them have the values of the clauses that ask for all of their
values, and of what is left each has one value from each of the other clauses.  So the values of a
column first appear in the order of their clause, and nothing but the clauses is found.
-/

namespace Wardrobe
namespace SkyPatcher

/-! ## Products of alternatives -/

section Product

variable {as bs cs : List (List α)} {css : List (List (List α))} {a : List α} {v : α}

/-- Each alternative of the one list joined with each of the other. -/
def product (as bs : List (List α)) : List (List α) :=
  as.flatMap fun a => bs.map fun b => a ++ b

/-- Every choice of one alternative from each list, joined. -/
def multiplied (css : List (List (List α))) : List (List α) := css.foldr product [[]]

theorem multiplied_cons (as : List (List α)) (css : List (List (List α))) :
    multiplied (as :: css) = product as (multiplied css) := rfl

theorem mem_product : a ∈ product as bs ↔ ∃ x ∈ as, ∃ y ∈ bs, a = x ++ y := by
  simp [product, eq_comm]

theorem product_assoc (as bs cs : List (List α)) :
    product (product as bs) cs = product as (product bs cs) := by
  simp [product, List.flatMap_assoc, List.flatMap_map, List.map_flatMap, Function.comp_def]

theorem product_one (as : List (List α)) : product as [[]] = as := by
  simp [product]

theorem one_product (as : List (List α)) : product [[]] as = as := by
  simp [product]

theorem multiplied_ne_nil (h : ∀ as ∈ css, as ≠ []) : multiplied css ≠ [] := by
  induction css with
  | nil => exact List.cons_ne_nil _ _
  | cons as css ih =>
    obtain ⟨has, hcss⟩ := List.forall_mem_cons.1 h
    obtain ⟨x, hx⟩ := List.exists_mem_of_ne_nil _ has
    obtain ⟨y, hy⟩ := List.exists_mem_of_ne_nil _ (ih hcss)
    exact List.ne_nil_of_mem (mem_product.2 ⟨x, hx, y, hy, rfl⟩)

/-- What stands in every choice stands in all alternatives of some list. -/
theorem forall_mem_multiplied :
    (∀ a ∈ multiplied css, v ∈ a) ↔ ∃ as ∈ css, ∀ a ∈ as, v ∈ a := by
  induction css with
  | nil => simp [multiplied]
  | cons as css ih =>
    rw [multiplied_cons]
    simp only [List.mem_cons, exists_eq_or_imp, ← ih]
    constructor
    · intro h
      by_contra hnot
      push Not at hnot
      obtain ⟨⟨x, hx, hvx⟩, y, hy, hvy⟩ := hnot
      have hmem := h _ (mem_product.2 ⟨x, hx, y, hy, rfl⟩)
      exact (List.mem_append.1 hmem).elim hvx hvy
    · rintro (h | h) a ha
      · obtain ⟨x, hx, y, -, rfl⟩ := mem_product.1 ha
        exact List.mem_append_left _ (h x hx)
      · obtain ⟨x, -, y, hy, rfl⟩ := mem_product.1 ha
        exact List.mem_append_right _ (h y hy)

theorem exists_subset_of_mem_multiplied (ha : a ∈ multiplied css) :
    ∀ as ∈ css, ∃ x ∈ as, x ⊆ a := by
  induction css generalizing a with
  | nil => exact fun as has => absurd has List.not_mem_nil
  | cons as css ih =>
    obtain ⟨x, hx, y, hy, rfl⟩ := mem_product.1 ha
    rw [List.forall_mem_cons]
    refine ⟨⟨x, hx, List.subset_append_left x y⟩, fun bs hbs => ?_⟩
    obtain ⟨z, hz, hsub⟩ := ih hy bs hbs
    exact ⟨z, hz, List.subset_append_of_subset_right x hsub⟩

theorem map_filter_multiplied (p : α → Bool) (css : List (List (List α))) :
    (multiplied css).map (List.filter p) = multiplied (css.map (List.map (List.filter p))) := by
  induction css with
  | nil => rfl
  | cons as css ih =>
    rw [List.map_cons, multiplied_cons, multiplied_cons, ← ih]
    simp [product, List.map_flatMap, List.flatMap_map, Function.comp_def]

/-- Where alternatives of a list have the same values of a sort, all choices have the same. -/
theorem filter_of_mem_multiplied {p : α → Bool} {f : κ → List (List α)} {g : κ → List α}
    {ks : List κ} (h : ∀ k ∈ ks, ∀ x ∈ f k, x.filter p = g k) (ha : a ∈ multiplied (ks.map f)) :
    a.filter p = ks.flatMap g := by
  induction ks generalizing a with
  | nil =>
    obtain rfl := List.mem_singleton.1 ha
    rfl
  | cons k ks ih =>
    obtain ⟨hk, hks⟩ := List.forall_mem_cons.1 h
    obtain ⟨x, hx, y, hy, rfl⟩ := mem_product.1 ha
    rw [List.filter_append, hk x hx, ih hks hy, List.flatMap_cons]

/-- Every choice of one value from each list.  It is the value from the last list that changes
first, where in `List.sections` it is the one from the first. -/
def choices : List (List α) → List (List α)
  | [] => [[]]
  | vs :: rest => vs.flatMap fun v => (choices rest).map fun choice => v :: choice

theorem multiplied_eq_choices {p : κ → Bool} {f : κ → List (List α)} {g : κ → List α}
    {ks : List κ} (h : ∀ k ∈ ks, f k = if p k then (g k).map fun v => [v] else [[]]) :
    multiplied (ks.map f) = choices ((ks.filter p).map g) := by
  induction ks with
  | nil => rfl
  | cons k ks ih =>
    obtain ⟨hk, hks⟩ := List.forall_mem_cons.1 h
    rw [List.map_cons, multiplied_cons, hk, ih hks, List.filter_cons]
    split
    · simp [product, choices, List.flatMap_map]
    · exact one_product _

theorem choices_ne_nil {ls : List (List α)} (h : ∀ vs ∈ ls, vs ≠ []) : choices ls ≠ [] := by
  induction ls with
  | nil => exact List.cons_ne_nil _ _
  | cons vs rest ih =>
    obtain ⟨hvs, hrest⟩ := List.forall_mem_cons.1 h
    obtain ⟨v, hv⟩ := List.exists_mem_of_ne_nil _ hvs
    obtain ⟨choice, hchoice⟩ := List.exists_mem_of_ne_nil _ (ih hrest)
    exact List.ne_nil_of_mem (List.mem_flatMap.2 ⟨v, hv, List.mem_map_of_mem hchoice⟩)

theorem length_choices (ls : List (List α)) :
    (choices ls).length = (ls.map List.length).prod := by
  induction ls with
  | nil => rfl
  | cons vs rest ih => simp [choices, List.length_flatMap, ih]

theorem nodup_choices {ls : List (List α)} (h : ∀ vs ∈ ls, vs.Nodup) : (choices ls).Nodup := by
  induction ls with
  | nil => exact List.nodup_singleton _
  | cons vs rest ih =>
    obtain ⟨hvs, hrest⟩ := List.forall_mem_cons.1 h
    refine List.nodup_flatMap.2 ⟨fun v _ => (ih hrest).map (List.cons_injective (a := v)), ?_⟩
    refine hvs.imp fun hne choice hleft hright => ?_
    obtain ⟨tail, -, rfl⟩ := List.mem_map.1 hleft
    obtain ⟨tail', -, heq⟩ := List.mem_map.1 hright
    exact hne (List.cons.inj heq).1.symm

end Product

/-! ## Clauses and their alternatives -/

variable {ks : List FilterClause} {k : FilterClause} {l l' : ClauseLists} {f : Field}
  {v : ListedValue} {a : List ListedValue}

namespace FilterClause

def listed (k : FilterClause) : List ListedValue := k.values.map fun t => ⟨k.field, t⟩

/-- One of several values suffices. -/
def isChoice (k : FilterClause) : Bool :=
  match k.mode with
  | .plain => !k.field.asksForAll && 1 < k.values.length
  | .anyOf => 1 < k.values.length
  | .excluded => false

/-- The values that each alternative has. -/
def required (k : FilterClause) : List ListedValue :=
  if k.mode = .excluded ∨ k.isChoice = true then [] else k.listed

/-- The values of which each alternative has one. -/
def offered (k : FilterClause) : List ListedValue := if k.isChoice then k.listed else []

theorem required_of_isChoice (h : k.isChoice = true) : k.required = [] := if_pos (Or.inr h)

theorem offered_of_isChoice (h : k.isChoice = true) : k.offered = k.listed := if_pos h

/-- What the clause includes, as alternatives.  An exclusion includes nothing. -/
def alternatives (k : FilterClause) : List (List ListedValue) :=
  match k.mode with
  | .plain => if k.field.asksForAll then [k.listed] else k.listed.map fun v => [v]
  | .anyOf => k.listed.map fun v => [v]
  | .excluded => [[]]

theorem field_of_mem_listed (hv : v ∈ k.listed) : v.field = k.field := by
  obtain ⟨t, -, rfl⟩ := List.mem_map.1 hv
  rfl

theorem map_literal_listed (k : FilterClause) : k.listed.map (·.literal) = k.values := by
  rw [listed, List.map_map]
  exact List.map_id _

theorem flatMap_offered (ks : List FilterClause) :
    ks.flatMap offered = (ks.filter (·.isChoice)).flatMap listed := by
  have hnone : ∀ k ∈ ks, k.isChoice = false → k.offered = [] := by
    intro k _ hchoice
    rw [offered, if_neg (by simp [hchoice])]
  rw [← flatMap_filter_of_nil hnone]
  exact List.flatMap_congr fun k hk => offered_of_isChoice (List.mem_filter.1 hk).2

theorem field_of_mem_required (hv : v ∈ k.required) : v.field = k.field := by
  rw [required] at hv
  split at hv
  · cases hv
  · exact field_of_mem_listed hv

theorem field_of_mem_offered (hv : v ∈ k.offered) : v.field = k.field := by
  rw [offered] at hv
  split at hv
  · exact field_of_mem_listed hv
  · cases hv

theorem length_listed (k : FilterClause) : k.listed.length = k.values.length := List.length_map _

theorem nodup_listed (h : k.values.Nodup) : k.listed.Nodup :=
  h.map fun _ _ heq => (ListedValue.mk.inj heq).2

theorem one_lt_length (h : k.isChoice = true) : 1 < k.values.length := by
  rw [isChoice] at h
  split at h
  · exact of_decide_eq_true (Bool.and_eq_true_iff.1 h).2
  · exact of_decide_eq_true h
  · cases h

/-- One value can be required of a field that one suffices for. -/
theorem length_required_le (hmode : k.mode = .plain) (hasks : k.field.asksForAll = false) :
    k.required.length ≤ 1 := by
  by_cases hchoice : k.isChoice = true
  · rw [required_of_isChoice hchoice]
    exact Nat.zero_le 1
  · have hshort : ¬ 1 < k.values.length := by
      simpa [isChoice, hmode, hasks] using hchoice
    rw [required, if_neg (by simp [hmode, hchoice]), length_listed]
    exact Nat.not_lt.1 hshort

theorem alternatives_eq (hne : k.values ≠ []) :
    k.alternatives = if k.isChoice then k.listed.map fun v => [v] else [k.required] := by
  -- One value is required, even where one suffices.
  have hone (hshort : ¬ 1 < k.values.length) : (k.listed.map fun v => [v]) = [k.listed] := by
    have hlength := Nat.le_antisymm (Nat.not_lt.1 hshort) (List.length_pos_of_ne_nil hne)
    obtain ⟨t, ht⟩ := List.length_eq_one_iff.1 hlength
    rw [listed, ht]
    rfl
  by_cases hlt : 1 < k.values.length
  · cases hmode : k.mode with
    | plain => cases hasks : k.field.asksForAll <;>
        simp [alternatives, required, isChoice, hmode, hasks, hlt]
    | anyOf => simp [alternatives, isChoice, hmode, hlt]
    | excluded => simp [alternatives, required, isChoice, hmode]
  · cases hmode : k.mode with
    | plain => cases hasks : k.field.asksForAll <;>
        simp [alternatives, required, isChoice, hmode, hasks, hlt, hone hlt]
    | anyOf => simp [alternatives, required, isChoice, hmode, hlt, hone hlt]
    | excluded => simp [alternatives, required, isChoice, hmode]

theorem alternatives_ne_nil (hne : k.values ≠ []) : k.alternatives ≠ [] := by
  rw [alternatives_eq hne]
  split
  · simpa [listed] using hne
  · exact List.cons_ne_nil _ _

theorem ne_nil_of_mem_alternatives (hne : k.values ≠ []) (hmode : k.mode ≠ .excluded)
    (ha : a ∈ k.alternatives) : a ≠ [] := by
  rw [alternatives_eq hne] at ha
  split at ha
  next =>
    obtain ⟨v, -, rfl⟩ := List.mem_map.1 ha
    exact List.cons_ne_nil _ _
  next hchoice =>
    obtain rfl := List.mem_singleton.1 ha
    rw [required, if_neg (not_or.2 ⟨hmode, hchoice⟩)]
    simpa [listed] using hne

theorem forall_mem_alternatives (hne : k.values ≠ []) (hnodup : k.values.Nodup) :
    (∀ a ∈ k.alternatives, v ∈ a) ↔ v ∈ k.required := by
  rw [alternatives_eq hne]
  by_cases hchoice : k.isChoice = true
  · rw [if_pos hchoice, required_of_isChoice hchoice]
    refine iff_of_false (fun hall => ?_) List.not_mem_nil
    have hseveral : 1 < k.listed.length := by
      rw [length_listed]
      exact one_lt_length hchoice
    obtain ⟨w, hw, hne⟩ := exists_ne_of_nodup (nodup_listed hnodup) hseveral v
    exact hne (List.mem_singleton.1 (hall [w] (List.mem_map_of_mem hw))).symm
  · rw [if_neg hchoice, List.forall_mem_singleton]

end FilterClause

theorem multiplied_alternatives_ne_nil (h : ∀ k ∈ ks, k.values ≠ []) :
    multiplied (ks.map FilterClause.alternatives) ≠ [] := by
  refine multiplied_ne_nil (List.forall_mem_map.2 fun k hk => ?_)
  exact FilterClause.alternatives_ne_nil (h k hk)

/-! ## Taking the alternatives apart -/

theorem hasRepeatedField_of_nodup {fields : List Field} (h : fields.Nodup) :
    hasRepeatedField fields = false := by
  induction fields with
  | nil => rfl
  | cons f rest ih =>
    obtain ⟨hf, hrest⟩ := List.nodup_cons.1 h
    cases rest with
    | nil => rfl
    | cons g rest =>
      have hne : f ≠ g := by
        rintro rfl
        exact hf List.mem_cons_self
      rw [hasRepeatedField, beq_false_of_ne hne, ih hrest, Bool.or_self]

/-- Values of one field after the other are in order, and none is there twice. -/
theorem sortByField_distinct {vs : List ListedValue}
    (h : vs.Pairwise fun v w => v.field.rank < w.field.rank) : sortByField (distinct vs) = vs := by
  have hnodup : vs.Nodup := by
    refine h.imp fun hlt heq => ?_
    rw [heq] at hlt
    exact Nat.lt_irrefl _ hlt
  have hascending : Ascending (compareOn fun v : ListedValue => v.field.rank) vs :=
    h.imp fun hlt => Nat.isLE_compare.2 (Nat.le_of_lt hlt)
  rw [distinct_of_nodup hnodup, sortByField_eq, sortBy_of_ascending hascending]

/-- Alternatives of one shape that are counted to be all choices are written as what they share and
a choice for each field. -/
theorem factor_of_haveShape {alternatives : List (List ListedValue)} {fields : List Field}
    (hne : alternatives ≠ []) (h : HaveShape (residualsOf alternatives) fields)
    (hcount : countChoices (columns fields (residualsOf alternatives)) =
      (distinct (residualsOf alternatives)).length.toUInt64) (l : ClauseLists) :
    factor l alternatives = (sharedBy alternatives).foldlM requireValue l >>= fun l₁ =>
      (fields.map fun f => (f, columnAt (residualsOf alternatives) f)).foldlM offerChoice l₁ := by
  unfold factor
  dsimp only
  refine congrArg _ (funext fun l₁ => ?_)
  rw [← residualsOf]
  have hfirst : (residualsOf alternatives).headD [] ∈ residualsOf alternatives := by
    obtain ⟨first, rest, rfl⟩ := List.exists_cons_of_ne_nil hne
    exact List.mem_cons_self
  have hfields := h.shape _ hfirst
  generalize residualsOf alternatives = residuals at *
  by_cases hempty : residuals.all (·.isEmpty) = true
  · have hnone : fields = [] := by
      rw [← hfields, List.isEmpty_iff.1 (List.all_eq_true.1 hempty _ hfirst)]
      rfl
    rw [if_pos hempty, hnone]
    rfl
  · have hshapes : ¬ (residuals.any fun r => r.map (·.field) != fields) = true := by
      rw [List.any_eq_true]
      rintro ⟨r, hr, hshape⟩
      simp [h.shape r hr] at hshape
    rw [if_neg hempty, hfields, hasRepeatedField_of_nodup h.nodup, if_neg Bool.false_ne_true,
      if_neg hshapes, if_neg (by simp [hcount]), zip_columns]

/-- Clauses of which no value stands in two, with one choice at most for each field. -/
structure AreApart (ks : List FilterClause) : Prop where
  ne_nil : ∀ k ∈ ks, k.values ≠ []
  nodup : ∀ k ∈ ks, k.values.Nodup
  disjoint : ∀ k ∈ ks, ∀ v ∈ k.offered, v ∉ ks.flatMap FilterClause.required
  ascending : (ks.filter (·.isChoice)).Pairwise fun k k' => k.field.rank < k'.field.rank

/-- The values of which each alternative has one, clause by clause. -/
def columnsOf (ks : List FilterClause) : List (List ListedValue) :=
  (ks.filter (·.isChoice)).map FilterClause.listed

theorem map_field_of_mem_choices (ha : a ∈ choices (ks.map FilterClause.listed)) :
    a.map (·.field) = ks.map (·.field) := by
  induction ks generalizing a with
  | nil =>
    obtain rfl := List.mem_singleton.1 ha
    rfl
  | cons k ks ih =>
    obtain ⟨v, hv, ha⟩ := List.mem_flatMap.1 ha
    obtain ⟨tail, htail, rfl⟩ := List.mem_map.1 ha
    rw [List.map_cons, List.map_cons, k.field_of_mem_listed hv, ih htail]

theorem columnAt_eq_flatMap (rs : List (List ListedValue)) (f : Field) :
    columnAt rs f = distinct (rs.flatMap fun a => a.filter fun v => v.field == f) := by
  rw [columnAt, List.filter_flatten, List.flatMap_def]

/-- Read down its field, a column is what the clause lists, in that order. -/
theorem columnAt_choices (hne : ∀ k ∈ ks, k.values ≠ [])
    (hfields : (ks.map (·.field)).Nodup) (hk : k ∈ ks) (hnodup : k.values.Nodup) :
    columnAt (choices (ks.map FilterClause.listed)) k.field = k.listed := by
  rw [columnAt_eq_flatMap]
  induction ks with
  | nil => cases hk
  | cons first rest ih =>
    obtain ⟨hfirst, hrest⟩ := List.forall_mem_cons.1 hne
    rw [List.map_cons, List.nodup_cons] at hfields
    obtain ⟨hfresh, hfields⟩ := hfields
    have hsome : choices (rest.map FilterClause.listed) ≠ [] := by
      refine choices_ne_nil ?_
      simpa [FilterClause.listed] using hrest
    rw [List.map_cons, choices, List.flatMap_assoc]
    simp only [List.flatMap_map]
    rcases List.mem_cons.1 hk with rfl | hk
    · -- Each value stands once in each choice that it begins.
      have halone : ∀ v ∈ k.listed, ∀ a ∈ choices (rest.map FilterClause.listed),
          ((v :: a).filter fun v => v.field == k.field) = [v] := by
        intro v hv a ha
        have hothers : (a.filter fun v => v.field == k.field) = [] := by
          refine List.filter_eq_nil_iff.2 fun w hw heq => hfresh ?_
          rw [← map_field_of_mem_choices ha]
          exact List.mem_map.2 ⟨w, hw, beq_iff_eq.1 heq⟩
        have hv : (v.field == k.field) = true := beq_iff_eq.2 (k.field_of_mem_listed hv)
        rw [List.filter_cons, if_pos hv, hothers]
      rw [distinct_flatMap_of_same, distinct_of_nodup (FilterClause.nodup_listed hnodup)]
      intro v hv
      rw [List.flatMap_congr (halone v hv)]
      exact ⟨by simpa [List.eq_nil_iff_forall_not_mem] using hsome, by simp⟩
    · -- Each value begins the same choices from the rest.
      have hne : first.field ≠ k.field := by
        intro heq
        rw [heq] at hfresh
        exact hfresh (List.mem_map.2 ⟨k, hk, rfl⟩)
      have hskip : ∀ v ∈ first.listed, ((choices (rest.map FilterClause.listed)).flatMap fun a =>
          (v :: a).filter fun v => v.field == k.field) =
          (choices (rest.map FilterClause.listed)).flatMap fun a =>
            a.filter fun v => v.field == k.field := by
        intro v hv
        have hv : (v.field == k.field) = false := by
          rw [first.field_of_mem_listed hv]
          exact beq_false_of_ne hne
        simp [hv]
      have hvalues : first.listed ≠ [] := by simpa [FilterClause.listed] using hfirst
      rw [List.flatMap_congr hskip, distinct_flatMap_const hvalues]
      exact ih hrest hfields hk

namespace AreApart

variable (h : AreApart ks)
include h

theorem nodup_fields : ((ks.filter (·.isChoice)).map (·.field)).Nodup := by
  refine List.pairwise_map.2 (h.ascending.imp fun hlt heq => ?_)
  rw [heq] at hlt
  exact Nat.lt_irrefl _ hlt

/-- What all alternatives share is what is required of each. -/
theorem mem_sharedBy : v ∈ sharedBy (multiplied (ks.map FilterClause.alternatives)) ↔
    v ∈ ks.flatMap FilterClause.required := by
  rw [SkyPatcher.mem_sharedBy (multiplied_alternatives_ne_nil h.ne_nil), forall_mem_multiplied,
    List.mem_flatMap]
  simp only [List.mem_map, exists_exists_and_eq_and]
  refine exists_congr fun k => and_congr_right fun hk => ?_
  exact FilterClause.forall_mem_alternatives (h.ne_nil k hk) (h.nodup k hk)

theorem filter_of_mem_alternatives (hk : k ∈ ks) (ha : a ∈ k.alternatives) :
    a.filter (fun v => (ks.flatMap FilterClause.required).contains v) = k.required := by
  rw [FilterClause.alternatives_eq (h.ne_nil k hk)] at ha
  split at ha
  next hchoice =>
    obtain ⟨v, hv, rfl⟩ := List.mem_map.1 ha
    have hoffered : v ∈ k.offered := (FilterClause.offered_of_isChoice hchoice).symm ▸ hv
    have hnot := h.disjoint k hk v hoffered
    rw [FilterClause.required_of_isChoice hchoice]
    simpa using hnot
  next =>
    obtain rfl := List.mem_singleton.1 ha
    refine List.filter_eq_self.2 fun v hv => ?_
    rw [List.contains_iff_mem]
    exact List.mem_flatMap.2 ⟨k, hk, hv⟩

theorem sharedBy_eq : sharedBy (multiplied (ks.map FilterClause.alternatives)) =
    ks.flatMap FilterClause.required := by
  obtain ⟨first, rest, hfirst⟩ :=
    List.exists_cons_of_ne_nil (multiplied_alternatives_ne_nil h.ne_nil)
  have hmem : first ∈ multiplied (ks.map FilterClause.alternatives) := by
    rw [hfirst]
    exact List.mem_cons_self
  rw [← filter_of_mem_multiplied (fun k hk a ha => h.filter_of_mem_alternatives hk ha) hmem]
  have hshared : sharedBy (multiplied (ks.map FilterClause.alternatives)) = first.filter
      fun v => (multiplied (ks.map FilterClause.alternatives)).all (·.contains v) := by
    rw [sharedBy, hfirst, List.headD_cons]
  rw [hshared]
  refine List.filter_congr fun v hv => ?_
  have hiff := h.mem_sharedBy (v := v)
  rw [hshared, List.mem_filter, and_iff_right hv] at hiff
  rw [Bool.eq_iff_iff, hiff, List.contains_iff_mem]

theorem filter_not_of_alternatives (hk : k ∈ ks) : k.alternatives.map
    (List.filter fun v => !(ks.flatMap FilterClause.required).contains v) =
      if k.isChoice then k.listed.map fun v => [v] else [[]] := by
  rw [FilterClause.alternatives_eq (h.ne_nil k hk)]
  split
  next hchoice =>
    rw [List.map_map]
    refine List.map_congr_left fun v hv => ?_
    have hoffered : v ∈ k.offered := (FilterClause.offered_of_isChoice hchoice).symm ▸ hv
    have hnot := h.disjoint k hk v hoffered
    refine List.filter_eq_self.2 fun w hw => ?_
    obtain rfl := List.mem_singleton.1 hw
    simpa using hnot
  next =>
    have hnone : (k.required.filter fun v =>
        !(ks.flatMap FilterClause.required).contains v) = [] := by
      refine List.filter_eq_nil_iff.2 fun v hv => ?_
      have hmem : v ∈ ks.flatMap FilterClause.required := List.mem_flatMap.2 ⟨k, hk, hv⟩
      simpa using hmem
    rw [List.map_singleton, hnone]

theorem rank_ascending_of_mem_choices (ha : a ∈ choices (columnsOf ks)) :
    a.Pairwise fun v w => v.field.rank < w.field.rank := by
  have hascending : ((ks.filter (·.isChoice)).map (·.field)).Pairwise
      fun f g : Field => f.rank < g.rank := List.pairwise_map.2 h.ascending
  rw [← map_field_of_mem_choices ha] at hascending
  rw [List.pairwise_map] at hascending
  exact hascending

/-- Without what is required, the alternatives are all choices from the other clauses. -/
theorem residualsOf_eq : residualsOf (multiplied (ks.map FilterClause.alternatives)) =
    choices (columnsOf ks) := by
  have hrest : (multiplied (ks.map FilterClause.alternatives)).map
      (List.filter fun v => !(ks.flatMap FilterClause.required).contains v) =
      choices (columnsOf ks) := by
    rw [map_filter_multiplied, List.map_map]
    exact multiplied_eq_choices fun k hk => h.filter_not_of_alternatives hk
  have hsorted : ∀ a ∈ choices (columnsOf ks), sortByField (distinct a) = a := fun a ha =>
    sortByField_distinct (h.rank_ascending_of_mem_choices ha)
  have hresidual : residual (ks.flatMap FilterClause.required) =
      (fun a => sortByField (distinct a)) ∘
        List.filter fun v => !(ks.flatMap FilterClause.required).contains v := rfl
  rw [residualsOf, h.sharedBy_eq, hresidual, ← List.map_map, hrest,
    List.map_congr_left hsorted, List.map_id']

theorem columnAt_columnsOf (hk : k ∈ ks) (hchoice : k.isChoice = true) :
    columnAt (choices (columnsOf ks)) k.field = k.listed :=
  columnAt_choices (fun k' hk' => h.ne_nil k' (List.mem_filter.1 hk').1) h.nodup_fields
    (List.mem_filter.2 ⟨hk, hchoice⟩) (h.nodup k hk)

/-- The residuals have one value for each clause with a choice, and none is missing. -/
theorem areAllChoices :
    AreAllChoices (choices (columnsOf ks)) ((ks.filter (·.isChoice)).map (·.field)) := by
  refine ⟨⟨fun a ha => map_field_of_mem_choices ha, h.nodup_fields⟩, ?_⟩
  have hcolumns : columns ((ks.filter (·.isChoice)).map (·.field)) (choices (columnsOf ks)) =
      columnsOf ks := by
    rw [columns, List.map_map, columnsOf]
    refine List.map_congr_left fun k hk => ?_
    exact h.columnAt_columnsOf (List.mem_filter.1 hk).1 (List.mem_filter.1 hk).2
  have hnodup : (choices (columnsOf ks)).Nodup := by
    refine nodup_choices (List.forall_mem_map.2 fun k hk => ?_)
    exact FilterClause.nodup_listed (h.nodup k (List.mem_filter.1 hk).1)
  rw [hcolumns, distinct_of_nodup hnodup, length_choices]

/-- Taking alternatives apart that come from clauses finds what each clause requires and offers. -/
theorem factor_eq (l : ClauseLists) :
    factor l (multiplied (ks.map FilterClause.alternatives)) =
      (ks.flatMap FilterClause.required).foldlM requireValue l >>= fun l₁ =>
        ((ks.filter (·.isChoice)).map fun k => (k.field, k.listed)).foldlM offerChoice l₁ := by
  have hchoices := h.areAllChoices
  rw [← h.residualsOf_eq] at hchoices
  rw [factor_of_haveShape (multiplied_alternatives_ne_nil h.ne_nil) hchoices.toHaveShape
    hchoices.countChoices_eq, h.sharedBy_eq, h.residualsOf_eq, List.map_map]
  refine congrArg _ (funext fun l₁ => ?_)
  refine congrArg (List.foldlM offerChoice l₁) (List.map_congr_left fun k hk => ?_)
  have hcolumn := h.columnAt_columnsOf (List.mem_filter.1 hk).1 (List.mem_filter.1 hk).2
  exact congrArg (Prod.mk k.field) hcolumn

end AreApart

/-- Alternatives without values are left out.  They come from lines that only exclude. -/
theorem factor_filter_multiplied (hne : ∀ k ∈ ks, k.values ≠ []) (l : ClauseLists) :
    factor l ((multiplied (ks.map FilterClause.alternatives)).filter fun a => !a.isEmpty) =
      factor l (multiplied (ks.map FilterClause.alternatives)) := by
  by_cases hall : ∀ k ∈ ks, k.mode = .excluded
  · have hone : multiplied (ks.map FilterClause.alternatives) = [[]] := by
      rw [multiplied_eq_choices (p := fun _ => false) (g := FilterClause.listed), List.filter_false]
      · rfl
      · intro k hk
        rw [FilterClause.alternatives, hall k hk]
        rfl
    rw [hone]
    rfl
  · push Not at hall
    obtain ⟨k, hk, hmode⟩ := hall
    have hsome : ∀ a ∈ multiplied (ks.map FilterClause.alternatives), (!a.isEmpty) = true := by
      intro a ha
      obtain ⟨x, hx, hsub⟩ :=
        exists_subset_of_mem_multiplied ha k.alternatives (List.mem_map_of_mem hk)
      obtain ⟨v, hv⟩ := List.exists_mem_of_ne_nil x
        (k.ne_nil_of_mem_alternatives (hne k hk) hmode hx)
      rw [Bool.not_eq_true', List.isEmpty_eq_false_iff]
      exact List.ne_nil_of_mem (hsub hv)
    rw [List.filter_eq_self.2 hsome]

end SkyPatcher
end Wardrobe
