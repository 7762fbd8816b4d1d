import Mathlib.Algebra.BigOperators.Group.Finset.Piecewise
import Mathlib.Algebra.Order.BigOperators.Group.Finset
import Wardrobe.Proofs.SkyPatcher.Lists
/-
How many alternatives clauses have when they are multiplied out.

A clause of which one value suffices has as many alternatives as values, and any other has one.
The lists that are found for alternatives offer each choice that was counted, so multiplied out
they are no more than the alternatives were.  Where the count has gone round in 64 bits, as it can,
they are more than 64 bits can count.
-/

namespace Wardrobe
namespace SkyPatcher

variable {l l' : ClauseLists} {f : Field} {v : ListedValue} {vs : List ListedValue}
  {alternatives : List (List ListedValue)} {p : Field → Bool} {fields : List Field}

/-! ## Products -/

theorem length_product (as bs : List (List α)) :
    (product as bs).length = as.length * bs.length := by
  simp [product, List.length_flatMap]

theorem length_multiplied (css : List (List (List α))) :
    (multiplied css).length = (css.map List.length).prod := by
  induction css with
  | nil => rfl
  | cons as css ih => rw [multiplied_cons, length_product, ih, List.map_cons, List.prod_cons]

theorem prod_map_flatMap (g : α → List β) (h : β → Nat) (xs : List α) :
    ((xs.flatMap g).map h).prod = (xs.map fun x => ((g x).map h).prod).prod := by
  induction xs with
  | nil => rfl
  | cons x rest ih =>
    rw [List.flatMap_cons, List.map_append, List.prod_append, ih, List.map_cons, List.prod_cons]

/-- Factors that others do not bound are at most one. -/
theorem prod_map_le_prod_map [DecidableEq κ] {xs ys : List κ} {a b : κ → Nat} (hxs : xs.Nodup)
    (hys : ys.Nodup) (hin : ∀ x ∈ xs, x ∈ ys → a x ≤ b x) (hout : ∀ x ∈ xs, x ∉ ys → a x ≤ 1)
    (hone : ∀ y ∈ ys, 1 ≤ b y) : (xs.map a).prod ≤ (ys.map b).prod := by
  rw [← List.prod_toFinset a hxs, ← List.prod_toFinset b hys]
  calc ∏ x ∈ xs.toFinset, a x
      ≤ ∏ x ∈ xs.toFinset, if x ∈ ys.toFinset then b x else 1 := by
        refine Finset.prod_le_prod' fun x hx => ?_
        rw [List.mem_toFinset] at hx
        simp only [List.mem_toFinset]
        split
        next hmem => exact hin x hx hmem
        next hmem => exact hout x hx hmem
    _ = ∏ x ∈ xs.toFinset ∩ ys.toFinset, b x := Finset.prod_ite_mem _ _ _
    _ ≤ ∏ y ∈ ys.toFinset, b y :=
        Finset.prod_le_prod_of_subset_of_one_le' Finset.inter_subset_right
          fun y hy _ => hone y (List.mem_toFinset.1 hy)

/-! ## The extent of lists -/

namespace ClauseLists

/-- The values of a field of which one suffices. -/
def offeredAt (l : ClauseLists) (f : Field) : List Text :=
  if f.asksForAll then l.anyOf f else l.plain f

/-- How many alternatives the clauses of some fields have, multiplied out. -/
def extent (l : ClauseLists) (p : Field → Bool) : Nat :=
  ((Field.all.filter p).map fun f => max 1 (l.offeredAt f).length).prod

end ClauseLists

open ClauseLists

theorem prod_length_listedClause (l : ClauseLists) (f : Field) (mode : Mode) :
    ((listedClause l f mode).map fun k => k.alternatives.length).prod =
      if mode = .excluded ∨ mode = .plain ∧ f.asksForAll = true then 1
      else max 1 (l.listAt mode f).length := by
  rw [listedClause]
  by_cases hne : l.listAt mode f = []
  · simp [hne]
  · have hpos : 1 ≤ (l.listAt mode f).length := List.length_pos_of_ne_nil hne
    rw [if_neg hne, List.map_singleton, List.prod_singleton]
    cases mode with
    | plain =>
      cases hasks : f.asksForAll with
      | true => simp [FilterClause.alternatives, hasks]
      | false =>
        simpa [FilterClause.alternatives, FilterClause.length_listed, hasks] using hpos
    | anyOf =>
      simpa [FilterClause.alternatives, FilterClause.length_listed] using hpos
    | excluded => rfl

/-- The alternatives of the clauses of some fields are as many as the lists say. -/
theorem length_multiplied_clausesAt (hchoice : ∀ f, l.anyOf f ≠ [] → f.asksForAll = true)
    (p : Field → Bool) :
    (multiplied ((clausesAt l p).map FilterClause.alternatives)).length = l.extent p := by
  rw [length_multiplied, List.map_map, clausesAt, prod_map_flatMap, extent]
  refine congrArg List.prod (List.map_congr_left fun f _ => ?_)
  have hprod (mode : Mode) := prod_length_listedClause l f mode
  simp only [clausesOn, List.map_append, List.prod_append, Function.comp_def, hprod, offeredAt]
  cases hasks : f.asksForAll with
  | true => simp [listAt]
  | false =>
    have hnone : l.anyOf f = [] := by
      by_contra hne
      rw [hchoice f hne] at hasks
      cases hasks
    simp [listAt, hnone]

theorem extent_congr (h : ∀ f, p f = true → l'.offeredAt f = l.offeredAt f) :
    l'.extent p = l.extent p :=
  congrArg List.prod (List.map_congr_left fun f hf => by rw [h f (List.mem_filter.1 hf).2])

theorem offeredAt_foldl_pushOffered (l : ClauseLists) (vs : List ListedValue) (f : Field) :
    (vs.foldl pushOffered l).offeredAt f = (literalsAt f vs).foldl pushCase (l.offeredAt f) := by
  rw [foldl_pushOffered, offeredAt, offeredAt]
  dsimp only
  rw [foldl_pushAt, foldl_pushAt, literalsAt_filter (fun g => !g.asksForAll),
    literalsAt_filter (fun g => g.asksForAll)]
  cases f.asksForAll <;> rfl

theorem length_foldl_pushCase_le_add (ts us : List Text) :
    (us.foldl pushCase ts).length ≤ ts.length + us.length := by
  induction us generalizing ts with
  | nil => exact Nat.le_refl _
  | cons u us ih =>
    have hstep : (pushCase ts u).length ≤ ts.length + 1 := by
      rw [pushCase]
      split
      · exact Nat.le_succ _
      · exact Nat.le_of_eq (List.length_append ..)
    have hrest := ih (pushCase ts u)
    rw [List.foldl_cons, List.length_cons]
    omega

/-- Requiring values leaves at most one where one suffices. -/
theorem length_offeredAt_of_requireValue (hl : (l.offeredAt f).length ≤ 1)
    (h : vs.foldlM requireValue l = .ok l') : (l'.offeredAt f).length ≤ 1 := by
  induction vs generalizing l with
  | nil => rwa [← Except.ok.inj h]
  | cons v rest ih =>
    rw [List.foldlM_cons] at h
    obtain ⟨l₁, hfirst, h⟩ := bind_eq_ok.1 h
    refine ih ?_ h
    obtain ⟨rfl, hshort⟩ := requireValue_eq_ok.1 hfirst
    rw [offeredAt] at hl ⊢
    cases hasks : f.asksForAll with
    | true => rwa [hasks] at hl
    | false =>
      rw [hasks] at hl
      by_cases hf : v.field = f
      · subst hf
        exact hshort hasks
      · have hsame := (added_pushAt l.plain v).other f (by simpa using hf)
        rw [pushPlain]
        exact (congrArg List.length hsame).trans_le hl

/-! ## The extent of what is found -/

theorem length_distinct_le [BEq α] [LawfulBEq α] (xs : List α) :
    (distinct xs).length ≤ xs.length :=
  (List.subperm_of_subset (nodup_distinct xs) fun _ hx => mem_distinct.1 hx).length_le

/-- What the lists offer once alternatives are taken apart. -/
theorem offeredAt_of_factor (hne : alternatives ≠ []) (h : factor l alternatives = .ok l') :
    ∃ fields, HaveShape (residualsOf alternatives) fields ∧
      countChoices (residualColumns alternatives) =
        (distinct (residualsOf alternatives)).length.toUInt64 ∧
      ∀ f, l.plain f = [] → l.anyOf f = [] →
        if f ∈ fields then l'.offeredAt f =
          ((columnAt (residualsOf alternatives) f).map (·.literal)).foldl pushCase []
        else (l'.offeredAt f).length ≤ 1 := by
  obtain ⟨l₁, fields, hrequire, hshape, hcount, hoffer⟩ := factor_eq_ok hne h
  have hfields : ((fields.map fun f => (f, columnAt (residualsOf alternatives) f)).map
      Prod.fst).Nodup := by
    rw [List.map_map]
    exact (List.map_id fields).symm ▸ hshape.nodup
  obtain ⟨rfl, hempty⟩ := (foldlM_offerChoice_eq_ok hfields (List.forall_mem_map.2 fun f hf =>
    ⟨one_lt_length_columnAt hshape.shape hne hf, fun v hv => (mem_columnAt.1 hv).2⟩)).1 hoffer
  rw [List.forall_mem_map] at hempty
  refine ⟨fields, hshape, by rwa [hshape.residualColumns_eq hne], fun f hplain hanyOf => ?_⟩
  rw [List.flatMap_map, offeredAt_foldl_pushOffered, literalsAt_flatMap hshape.nodup
    fun f v hv => (mem_columnAt.1 hv).2]
  by_cases hf : f ∈ fields
  · have hfresh : l₁.offeredAt f = [] := by
      rw [offeredAt]
      cases hasks : f.asksForAll with
      | true => rw [eq_of_foldlM_requireValue hrequire, foldl_pushPlain]; exact hanyOf
      | false => exact hempty f hf hasks
    rw [if_pos hf, if_pos hf, hfresh]
  · have hnone : l.offeredAt f = [] := by
      rw [offeredAt, hplain, hanyOf, ite_self]
    rw [if_neg hf, if_neg hf]
    exact length_offeredAt_of_requireValue (by simp [hnone]) hrequire

/-- Alternatives that are not miscounted are at least as many as the clauses found for them have. -/
theorem extent_of_factor (hcounted : ¬ IsMiscounted alternatives)
    (hfresh : ∀ f, p f = true → l.plain f = [] ∧ l.anyOf f = [])
    (h : factor l alternatives = .ok l') : l'.extent p ≤ max 1 alternatives.length := by
  have hp : ∀ f ∈ Field.all.filter p, l.plain f = [] ∧ l.anyOf f = [] :=
    fun f hf => hfresh f (List.mem_filter.1 hf).2
  by_cases hne : alternatives = []
  · subst hne
    obtain rfl := Except.ok.inj h
    refine Nat.le_of_eq (List.prod_eq_one (List.forall_mem_map.2 fun f hf => ?_))
    rw [offeredAt, (hp f hf).1, (hp f hf).2, ite_self]
    rfl
  obtain ⟨fields, hshape, hcount, hoffered⟩ := offeredAt_of_factor hne h
  rw [hshape.residualColumns_eq hne] at hcount
  have hchoices := hshape.areAllChoices hne hcount hcounted
  calc l'.extent p
      ≤ (fields.map fun f => (columnAt (residualsOf alternatives) f).length).prod := by
        refine prod_map_le_prod_map nodup_filter_all hshape.nodup (fun f hf hmem => ?_)
          (fun f hf hmem => ?_) fun f hf => ?_
        · have hat := hoffered f (hp f hf).1 (hp f hf).2
          rw [if_pos hmem] at hat
          have hlength := length_foldl_pushCase_le_add []
            ((columnAt (residualsOf alternatives) f).map (·.literal))
          rw [← hat, List.length_nil, Nat.zero_add, List.length_map] at hlength
          have hseveral := one_lt_length_columnAt hshape.shape hne hmem
          omega
        · have hat := hoffered f (hp f hf).1 (hp f hf).2
          rw [if_neg hmem] at hat
          omega
        · exact Nat.le_of_lt (one_lt_length_columnAt hshape.shape hne hf)
    _ = (distinct (residualsOf alternatives)).length := by
        rw [← hchoices.count, columns, List.map_map]
        rfl
    _ ≤ alternatives.length := (length_distinct_le _).trans_eq (List.length_map _)
    _ ≤ max 1 alternatives.length := Nat.le_max_right _ _

theorem oneCaseEach_columnAt {Known : ListedValue → Prop} (hdiffer : DifferInMore Known)
    (hknown : ∀ alternative ∈ alternatives, ∀ v ∈ alternative, Known v) (f : Field) :
    OneCaseEach ((columnAt (residualsOf alternatives) f).map (·.literal)) := by
  have hnodup : (columnAt (residualsOf alternatives) f).Nodup := nodup_distinct _
  rw [OneCaseEach, List.pairwise_map]
  refine List.Pairwise.imp_of_mem (fun {v w} hv hw hne => ?_) hnodup
  obtain ⟨⟨a, ha, hva⟩, -, hfv⟩ := mem_columnAt_residualsOf.1 hv
  obtain ⟨⟨b, hb, hwb⟩, -, hfw⟩ := mem_columnAt_residualsOf.1 hw
  by_contra hsame
  exact hne (hdiffer v w (hknown a ha v hva) (hknown b hb w hwb) (hfv.trans hfw.symm)
    (by simpa using hsame))

/-- A count that has gone round stands for more choices than 64 bits can count. -/
theorem size_le_of_isMiscounted (hshape : HaveShape (residualsOf alternatives) fields)
    (hne : alternatives ≠ []) (h : IsMiscounted alternatives) :
    UInt64.size ≤ (fields.map fun f => (columnAt (residualsOf alternatives) f).length).prod := by
  obtain ⟨hcount, hmissing⟩ := h
  rw [hshape.residualColumns_eq hne] at hcount hmissing
  rw [countChoices_eq] at hcount
  have hsub : distinct (residualsOf alternatives) ⊆
      (columns fields (residualsOf alternatives)).sections :=
    fun r hr => residuals_subset hshape.shape (mem_distinct.1 hr)
  have hle := (List.subperm_of_subset (nodup_distinct _) hsub).length_le
  have hprod : ((columns fields (residualsOf alternatives)).map List.length).prod =
      (fields.map fun f => (columnAt (residualsOf alternatives) f).length).prod := by
    rw [columns, List.map_map]
    rfl
  rw [length_sections, hprod] at hle
  rw [hprod] at hcount hmissing
  have hmod := congrArg UInt64.toNat hcount
  rw [UInt64.toNat_ofNat', UInt64.toNat_ofNat'] at hmod
  by_contra hlt
  have hlt := Nat.not_le.1 hlt
  rw [Nat.mod_eq_of_lt hlt, Nat.mod_eq_of_lt (hle.trans_lt hlt)] at hmod
  exact hmissing hmod

/-- Where they are miscounted, alternatives are written as clauses that 64 bits cannot count the
alternatives of. -/
theorem size_le_extent_of_factor {Known : ListedValue → Prop} (hdiffer : DifferInMore Known)
    (hknown : ∀ alternative ∈ alternatives, ∀ v ∈ alternative, Known v ∧ p v.field = true)
    (hfresh : ∀ f, p f = true → l.plain f = [] ∧ l.anyOf f = [])
    (h : factor l alternatives = .ok l') (hmiscounted : IsMiscounted alternatives) :
    UInt64.size ≤ l'.extent p := by
  have hne : alternatives ≠ [] := by
    rintro rfl
    exact absurd hmiscounted.1 (by decide)
  obtain ⟨fields, hshape, -, hoffered⟩ := offeredAt_of_factor hne h
  have hp : ∀ f ∈ fields, p f = true := by
    intro f hf
    obtain ⟨v, hv⟩ := List.exists_mem_of_length_pos
      (Nat.lt_of_succ_lt (one_lt_length_columnAt hshape.shape hne hf))
    obtain ⟨⟨alternative, halt, hmem⟩, -, rfl⟩ := mem_columnAt_residualsOf.1 hv
    exact (hknown alternative halt v hmem).2
  refine (size_le_of_isMiscounted hshape hne hmiscounted).trans
    (prod_map_le_prod_map hshape.nodup nodup_filter_all (fun f hf _ => ?_) (fun f hf hmem => ?_)
      fun f _ => Nat.le_max_left _ _)
  · have hat := hoffered f (hfresh f (hp f hf)).1 (hfresh f (hp f hf)).2
    have hone := oneCaseEach_columnAt hdiffer
      (fun alternative halt v hv => (hknown alternative halt v hv).1) f
    rw [if_pos hf, foldl_pushCase_of_oneCaseEach hone] at hat
    rw [hat, List.nil_append, List.length_map]
    exact Nat.le_max_right _ _
  · exact absurd (List.mem_filter.2 ⟨Field.mem_all f, hp f hf⟩) hmem

theorem length_alternatives_le {toValue : Criterion.Part α → Except Unrepresentable ListedValue}
    {s : Criterion α} (h : SkyPatcher.alternatives toValue s = .ok alternatives) :
    alternatives.length ≤ s.expressions.length := by
  obtain ⟨values, hvalues, rfl⟩ := values_of_alternatives h
  rw [hvalues.length_eq]
  exact List.length_filter_le _ _

/-! ## A count that goes round

Alternatives that go through the values of each field in turn share nothing, and each column has all
values of its field.  There can be far fewer of them than choices, and still their number be the
product in 64 bits. -/

/-- A field with the number of its values, which are told apart by their length. -/
structure Wheel where
  field : Field
  size : Nat
  deriving DecidableEq, Repr

namespace Wheel

def valueAt (w : Wheel) (k : Nat) : ListedValue := ⟨w.field, List.replicate (k % w.size) 'x'⟩

/-- The alternatives that come up when all wheels are turned step by step. -/
def turned (ws : List Wheel) (m : Nat) : List (List ListedValue) :=
  (List.range m).map fun k => ws.map (·.valueAt k)

/-- The wheels are of different fields, in their order, and show all of their values in so many
steps, but never the same alternative twice. -/
structure RunThrough (ws : List Wheel) (m : Nat) : Prop where
  ascending : ws.Pairwise fun w w' => w.field.rank < w'.field.rank
  several : ∀ w ∈ ws, 1 < w.size
  around : ∀ w ∈ ws, w.size ≤ m
  apart : ∀ j < m, ∀ k < m, (∀ w ∈ ws, j % w.size = k % w.size) → j = k

variable {ws : List Wheel} {w w' : Wheel} {m j k : Nat} {a : List ListedValue}

theorem valueAt_inj : w.valueAt j = w.valueAt k ↔ j % w.size = k % w.size := by
  simp [valueAt]

theorem mem_turned : a ∈ turned ws m ↔ ∃ k < m, ws.map (·.valueAt k) = a := by
  simp [turned]

namespace RunThrough

variable (h : RunThrough ws m)
include h

theorem nodup_fields : (ws.map (·.field)).Nodup := by
  refine List.pairwise_map.2 (h.ascending.imp fun hlt heq => ?_)
  rw [heq] at hlt
  exact Nat.lt_irrefl _ hlt

theorem eq_of_field (hw : w ∈ ws) (hw' : w' ∈ ws) (hfield : w.field = w'.field) : w = w' :=
  List.inj_on_of_nodup_map h.nodup_fields hw hw' hfield

/-- No value comes up in the first two steps, so none in all. -/
theorem sharedBy_eq (hm : 1 < m) : sharedBy (turned ws m) = [] := by
  have hmem (k : Nat) (hk : k < m) : ws.map (·.valueAt k) ∈ turned ws m := mem_turned.2 ⟨k, hk, rfl⟩
  refine List.eq_nil_iff_forall_not_mem.2 fun v hv => ?_
  have hall := (mem_sharedBy (List.ne_nil_of_mem (hmem 0 (Nat.zero_lt_of_lt hm)))).1 hv
  obtain ⟨w, hw, hzero⟩ := List.mem_map.1 (hall _ (hmem 0 (Nat.zero_lt_of_lt hm)))
  obtain ⟨w', hw', hone⟩ := List.mem_map.1 (hall _ (hmem 1 hm))
  have hsame : w.valueAt 0 = w'.valueAt 1 := hzero.trans hone.symm
  obtain rfl := h.eq_of_field hw hw' (congrArg ListedValue.field hsame)
  have hturn := valueAt_inj.1 hsame
  rw [Nat.zero_mod, Nat.mod_eq_of_lt (h.several w hw)] at hturn
  exact Nat.zero_ne_one hturn

theorem residualsOf_eq (hm : 1 < m) : residualsOf (turned ws m) = turned ws m := by
  rw [residualsOf, h.sharedBy_eq hm]
  refine (List.map_congr_left fun a ha => ?_).trans (List.map_id _)
  obtain ⟨k, -, rfl⟩ := mem_turned.1 ha
  have hnothing : (ws.map (·.valueAt k)).filter (fun v => !([] : List ListedValue).contains v) =
      ws.map (·.valueAt k) := List.filter_eq_self.2 fun _ _ => rfl
  rw [residual, hnothing, sortByField_distinct (List.pairwise_map.2 h.ascending)]
  rfl

theorem haveShape : HaveShape (turned ws m) (ws.map (·.field)) where
  shape := by
    intro a ha
    obtain ⟨k, -, rfl⟩ := mem_turned.1 ha
    rw [List.map_map]
    rfl
  nodup := h.nodup_fields

theorem length_columnAt (hw : w ∈ ws) : (columnAt (turned ws m) w.field).length = w.size := by
  have hsize := h.around w hw
  have hnodup : ((List.range w.size).map w.valueAt).Nodup := by
    refine List.Nodup.map_on (fun j hj k hk hsame => ?_) List.nodup_range
    rw [valueAt_inj, Nat.mod_eq_of_lt (List.mem_range.1 hj),
      Nat.mod_eq_of_lt (List.mem_range.1 hk)] at hsame
    exact hsame
  have hmem : ∀ v, v ∈ columnAt (turned ws m) w.field ↔ v ∈ (List.range w.size).map w.valueAt := by
    intro v
    rw [mem_columnAt, List.mem_map]
    constructor
    · rintro ⟨⟨a, ha, hv⟩, hfield⟩
      obtain ⟨k, -, rfl⟩ := mem_turned.1 ha
      obtain ⟨w', hw', rfl⟩ := List.mem_map.1 hv
      obtain rfl := h.eq_of_field hw' hw hfield
      have hpos := Nat.zero_lt_of_lt (h.several w' hw')
      exact ⟨k % w'.size, List.mem_range.2 (Nat.mod_lt k hpos), valueAt_inj.2 (Nat.mod_mod k _)⟩
    · rintro ⟨k, hk, rfl⟩
      have hk' := (List.mem_range.1 hk).trans_le hsize
      exact ⟨⟨_, mem_turned.2 ⟨k, hk', rfl⟩, List.mem_map_of_mem hw⟩, rfl⟩
  have hcolumn : (columnAt (turned ws m) w.field).Nodup := nodup_distinct _
  rw [((List.perm_ext_iff_of_nodup hcolumn hnodup).2 hmem).length_eq, List.length_map,
    List.length_range]

theorem length_distinct : (distinct (turned ws m)).length = m := by
  have hnodup : (turned ws m).Nodup := by
    refine List.Nodup.map_on (fun j hj k hk hsame => ?_) List.nodup_range
    refine h.apart j (List.mem_range.1 hj) k (List.mem_range.1 hk) fun w hw => ?_
    exact valueAt_inj.1 (List.map_inj_left.1 hsame w hw)
  rw [distinct_of_nodup hnodup, turned, List.length_map, List.length_range]

theorem prod_columns (hm : 1 < m) :
    ((columns (ws.map (·.field)) (residualsOf (turned ws m))).map List.length).prod =
      (ws.map size).prod := by
  rw [h.residualsOf_eq hm, columns, List.map_map, List.map_map]
  exact congrArg List.prod (List.map_congr_left fun w hw => h.length_columnAt hw)

/-- What comes up is miscounted when there are more choices, and as many in 64 bits. -/
theorem isMiscounted_iff (hm : 1 < m) : IsMiscounted (turned ws m) ↔
    (ws.map size).prod.toUInt64 = m.toUInt64 ∧ (ws.map size).prod ≠ m := by
  have hne : turned ws m ≠ [] := List.ne_nil_of_mem (mem_turned.2 ⟨1, hm, rfl⟩)
  have hshape : HaveShape (residualsOf (turned ws m)) (ws.map (·.field)) :=
    (h.residualsOf_eq hm).symm ▸ h.haveShape
  rw [IsMiscounted, hshape.residualColumns_eq hne, countChoices_eq, h.prod_columns hm,
    h.residualsOf_eq hm, h.length_distinct]

/-- Miscounted or not, what comes up is written when the numbers agree in 64 bits. -/
theorem exists_factor_eq (hm : 1 < m)
    (hcount : (ws.map size).prod.toUInt64 = m.toUInt64) :
    ∃ l, factor .empty (turned ws m) = .ok l := by
  have hne : turned ws m ≠ [] := List.ne_nil_of_mem (mem_turned.2 ⟨1, hm, rfl⟩)
  have hshape : HaveShape (residualsOf (turned ws m)) (ws.map (·.field)) :=
    (h.residualsOf_eq hm).symm ▸ h.haveShape
  have hcounted : countChoices (columns (ws.map (·.field)) (residualsOf (turned ws m))) =
      (distinct (residualsOf (turned ws m))).length.toUInt64 := by
    rw [countChoices_eq, h.prod_columns hm, h.residualsOf_eq hm, h.length_distinct, hcount]
  rw [factor_of_haveShape hne hshape hcounted, h.sharedBy_eq hm]
  refine ⟨_, (foldlM_offerChoice_eq_ok ?_ ?_).2 ⟨rfl, fun _ _ _ => rfl⟩⟩
  · rw [List.map_map]
    exact (List.map_id _).symm ▸ hshape.nodup
  · refine List.forall_mem_map.2 fun f hf =>
      ⟨one_lt_length_columnAt hshape.shape hne hf, fun v hv => (mem_columnAt.1 hv).2⟩

end RunThrough

/-- Nine wheels of which the sizes multiply to `15753 * UInt64.size + 726`. -/
def nine : List Wheel :=
  [⟨.form .npc, 589⟩, ⟨.form .faction, 566⟩, ⟨.form .keyword, 509⟩, ⟨.form .race, 453⟩,
   ⟨.form .combatClass, 449⟩, ⟨.form .outfit, 443⟩, ⟨.form .combatStyle, 279⟩,
   ⟨.form .voiceType, 261⟩, ⟨.plugin, 261⟩]

end Wheel

/-- Alternatives can be miscounted, and then they are written as clauses with other alternatives. -/
theorem exists_isMiscounted : ∃ alternatives l, IsMiscounted alternatives ∧
    alternatives.length = 726 ∧ factor .empty alternatives = .ok l ∧
      UInt64.size ≤ l.extent Field.isReference := by
  have hrun : Wheel.RunThrough Wheel.nine 726 := by
    refine ⟨by decide, by decide, by decide, fun j hj k hk hall => ?_⟩
    have hfirst : j % 589 = k % 589 := hall ⟨.form .npc, 589⟩ (by decide)
    have hsecond : j % 566 = k % 566 := hall ⟨.form .faction, 566⟩ (by decide)
    omega
  have hmiscounted : IsMiscounted (Wheel.turned Wheel.nine 726) :=
    (hrun.isMiscounted_iff (by decide)).2 (by decide)
  obtain ⟨l, hl⟩ := hrun.exists_factor_eq (by decide) (by decide)
  refine ⟨_, l, hmiscounted, by simp [Wheel.turned], hl, ?_⟩
  have hdiffer : DifferInMore fun v => ∃ w ∈ Wheel.nine, ∃ k, w.valueAt k = v := by
    rintro _ _ ⟨w, hw, j, rfl⟩ ⟨w', hw', k, rfl⟩ hfield hsame
    obtain rfl := hrun.eq_of_field hw hw' hfield
    have hlength := congrArg List.length (Text.sameAscii_iff.1 hsame)
    simpa [Wheel.valueAt, Text.asciiLower] using hlength
  refine size_le_extent_of_factor hdiffer (fun a ha v hv => ?_) (fun _ _ => ⟨rfl, rfl⟩) hl
    hmiscounted
  obtain ⟨k, -, rfl⟩ := Wheel.mem_turned.1 ha
  obtain ⟨w, hw, rfl⟩ := List.mem_map.1 hv
  have hreferences : ∀ w ∈ Wheel.nine, w.field.isReference = true := by decide
  exact ⟨⟨w, hw, k, rfl⟩, hreferences w hw⟩

/-! ## The extent of filters -/

variable {filters : Filters}

theorem isReference_of_mem_formAlternatives {s : Criterion Reference} :
    ∀ alternative ∈ formAlternatives s, ∀ v ∈ alternative, v.field.isReference = true := by
  intro alternative halt v hv
  obtain ⟨p, -, hvalue⟩ := source_of_alternatives (alternatives_formValue s) alternative halt v hv
  rw [← Except.ok.inj hvalue]
  cases p.value <;> rfl

/-- Texts and references are put into lists that hold none of their kind yet. -/
theorem factors_of_clauseLists (h : clauseLists filters = .ok l) :
    ∃ strings l₀ l₁, SkyPatcher.alternatives stringValue filters.strings = .ok strings ∧
      factor l₀ strings = .ok l₁ ∧ (∀ f, l₀.plain f = [] ∧ l₀.anyOf f = []) ∧
      factor l₁ (formAlternatives filters.forms) = .ok l ∧
      (∀ f, f.isReference = true → l₁.plain f = [] ∧ l₁.anyOf f = []) ∧
      l.extent Field.isText = l₁.extent Field.isText := by
  obtain ⟨excludedStrings, strings, excludedForms, l₁, -, hs, -, hfirst, hsecond⟩ :=
    clauseLists_eq_ok h
  have hempty := pushExcluded_empty (excludedStrings ++ excludedForms)
  generalize (excludedStrings ++ excludedForms).foldl pushExcluded .empty = l₀ at *
  refine ⟨strings, l₀, l₁, hs, hfirst, hempty, hsecond, fun f hfield => ?_,
    extent_congr fun f hfield => ?_⟩
  · obtain ⟨required, offered, rfl, hmem, -⟩ := extended_of_factor hfirst
    obtain ⟨hplain, hanyOf⟩ : (l₀.extended required offered).plain f = l₀.plain f ∧
        (l₀.extended required offered).anyOf f = l₀.anyOf f := by
      refine extended_other fun v hv heq => ?_
      obtain ⟨alternative, halt, hv⟩ := hmem v hv
      rw [← heq, field_of_mem_alternatives hs alternative halt v hv] at hfield
      cases hfield
    rw [hplain, hanyOf]
    exact hempty f
  · obtain ⟨required, offered, rfl, hmem, -⟩ := extended_of_factor hsecond
    obtain ⟨hplain, hanyOf⟩ : (l₁.extended required offered).plain f = l₁.plain f ∧
        (l₁.extended required offered).anyOf f = l₁.anyOf f := by
      refine extended_other fun v hv heq => ?_
      obtain ⟨alternative, halt, hv⟩ := hmem v hv
      exact field_of_mem_formAlternatives alternative halt v hv (heq.trans (beq_iff_eq.1 hfield))
    rw [offeredAt, offeredAt, hplain, hanyOf]

/-- The lists that are found for filters have no more alternatives than these. -/
theorem extent_clauseLists (hcounted : ¬ IsMiscounted (formAlternatives filters.forms))
    (h : clauseLists filters = .ok l) :
    l.extent Field.isText ≤ max 1 filters.strings.expressions.length ∧
      l.extent Field.isReference ≤ max 1 filters.forms.expressions.length := by
  obtain ⟨strings, l₀, l₁, hs, hfirst, hempty, hsecond, hfresh, hkept⟩ :=
    factors_of_clauseLists h
  have htexts := not_isMiscounted_of_field hfirst (field_of_mem_alternatives hs)
  rw [hkept]
  exact ⟨(extent_of_factor htexts (fun f _ => hempty f) hfirst).trans
      (max_le_max_left 1 (length_alternatives_le hs)),
    (extent_of_factor hcounted hfresh hsecond).trans
      (max_le_max_left 1 (length_alternatives_le (alternatives_formValue _)))⟩

/-- The lists that are found for miscounted forms have more alternatives than 64 bits can count. -/
theorem size_le_extent_clauseLists {Known : ListedValue → Prop} (hdiffer : DifferInMore Known)
    (hforms : ∀ p ∈ filters.forms.parts, ∀ v, formValue p = .ok v → Known v)
    (hmiscounted : IsMiscounted (formAlternatives filters.forms))
    (h : clauseLists filters = .ok l) : UInt64.size ≤ l.extent Field.isReference := by
  obtain ⟨strings, l₀, l₁, -, -, -, hsecond, hfresh, -⟩ := factors_of_clauseLists h
  refine size_le_extent_of_factor hdiffer (fun alternative halt v hv => ?_) hfresh hsecond
    hmiscounted
  obtain ⟨p, hp, hvalue⟩ :=
    source_of_alternatives (alternatives_formValue _) alternative halt v hv
  exact ⟨hforms p hp v hvalue, isReference_of_mem_formAlternatives alternative halt v hv⟩

/-- Clauses come from parts of their kind. -/
theorem parts_ne_nil_of_clauseLists (h : clauseLists filters = .ok l) :
    (clausesAt l Field.isText ≠ [] → filters.strings.parts ≠ []) ∧
      (clausesAt l Field.isReference ≠ [] → filters.forms.parts ≠ []) := by
  have hcase (Known : ListedValue → Prop) : SeesNoCase (fun _ => true) Known :=
    fun _ _ _ _ _ _ => rfl
  have hmade : l.IsMadeOf fun v => (v.field.isText = true → filters.strings.parts ≠ []) ∧
      (v.field.isReference = true → filters.forms.parts ≠ []) := by
    refine (holds_clauseLists (hcase _) (fun p hp v hv => ⟨⟨fun _ => List.ne_nil_of_mem hp,
      fun hfield => ?_⟩, rfl⟩) (fun p hp v hv => ⟨⟨fun hfield => ?_,
      fun _ => List.ne_nil_of_mem hp⟩, rfl⟩) h).1
    · rw [field_of_stringValue hv] at hfield
      cases hfield
    · exact absurd (beq_iff_eq.1 hfield) (field_of_formValue hv)
  have hknown {p : Field → Bool} (hp : p .gender = false) (hne : clausesAt l p ≠ []) :
      ∃ f, p f = true ∧ (f.isText = true → filters.strings.parts ≠ []) ∧
        (f.isReference = true → filters.forms.parts ≠ []) := by
    obtain ⟨k, hk⟩ := List.exists_mem_of_ne_nil _ hne
    obtain ⟨f, mode, hpf, hlist, rfl⟩ := (mem_clausesAt hp).1 hk
    obtain ⟨t, ht⟩ := List.exists_mem_of_ne_nil _ hlist
    exact ⟨f, hpf, hmade.known mode f t ht⟩
  constructor
  · intro hne
    obtain ⟨f, hf, htexts, -⟩ := hknown rfl hne
    exact htexts hf
  · intro hne
    obtain ⟨f, hf, -, hreferences⟩ := hknown rfl hne
    exact hreferences hf

/-- The one filters have no more alternatives than the other. -/
structure HasNoMoreAlternatives (fewer more : Filters) : Prop where
  strings : fewer.strings.expressions.length ≤ more.strings.expressions.length
  forms : fewer.forms.expressions.length ≤ more.forms.expressions.length

end SkyPatcher
end Wardrobe
