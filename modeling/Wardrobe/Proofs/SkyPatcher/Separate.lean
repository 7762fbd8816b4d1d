import Mathlib.Data.Set.NAry
import Wardrobe.Proofs.SkyPatcher.Lists
/-
Clauses in any order, with repeated values, and that their alternatives can be taken apart.

What the alternatives of clauses come to is a set of sets of values, to which the order of the
clauses and of their values makes no difference.  So they can be taken apart as those of the same
clauses can that stand in the order of their fields and list each value once.  Each step of it goes
through when no two clauses are of one field and mode and what a field requires is none of what it
offers a choice of.
-/

namespace Wardrobe
namespace SkyPatcher

/-! ## Alternatives as sets -/

section Sets

variable {as bs : List (List α)} {css css' : List (List (List α))} {a b : List α}

/-- What the alternatives ask for, whatever the order and however often. -/
def valueSets (as : List (List α)) : Set (Set α) := {s | ∃ a ∈ as, s = {v | v ∈ a}}

theorem exists_of_valueSets_eq (h : valueSets as = valueSets bs) (ha : a ∈ as) :
    ∃ b ∈ bs, ∀ v, v ∈ a ↔ v ∈ b := by
  have hmem : {v | v ∈ a} ∈ valueSets bs := h ▸ ⟨a, ha, rfl⟩
  obtain ⟨b, hb, heq⟩ := hmem
  exact ⟨b, hb, fun v => Set.ext_iff.1 heq v⟩

theorem valueSets_singleton (h : ∀ v, v ∈ a ↔ v ∈ b) : valueSets [a] = valueSets [b] := by
  have heq : {v | v ∈ a} = {v | v ∈ b} := Set.ext h
  simp [valueSets, heq]

theorem valueSets_map_singleton (h : ∀ v, v ∈ a ↔ v ∈ b) :
    valueSets (a.map fun v => [v]) = valueSets (b.map fun v => [v]) := by
  simp [valueSets, h]

theorem valueSets_product (as bs : List (List α)) :
    valueSets (product as bs) = Set.image2 (· ∪ ·) (valueSets as) (valueSets bs) := by
  ext s
  constructor
  · rintro ⟨c, hc, rfl⟩
    obtain ⟨a, ha, b, hb, rfl⟩ := mem_product.1 hc
    exact ⟨_, ⟨a, ha, rfl⟩, _, ⟨b, hb, rfl⟩, Set.ext fun v => List.mem_append.symm⟩
  · rintro ⟨_, ⟨a, ha, rfl⟩, _, ⟨b, hb, rfl⟩, rfl⟩
    exact ⟨a ++ b, mem_product.2 ⟨a, ha, b, hb, rfl⟩, Set.ext fun v => List.mem_append.symm⟩

theorem valueSets_multiplied_of_perm (h : css.Perm css') :
    valueSets (multiplied css) = valueSets (multiplied css') := by
  induction h with
  | nil => rfl
  | cons as _ ih => rw [multiplied_cons, multiplied_cons, valueSets_product, valueSets_product, ih]
  | swap as bs css =>
    simp only [multiplied_cons, valueSets_product]
    exact Set.image2_left_comm Set.union_left_comm
  | trans _ _ ih ih' => exact ih.trans ih'

theorem valueSets_multiplied_congr {f g : κ → List (List α)} {ks : List κ}
    (h : ∀ k ∈ ks, valueSets (f k) = valueSets (g k)) :
    valueSets (multiplied (ks.map f)) = valueSets (multiplied (ks.map g)) := by
  induction ks with
  | nil => rfl
  | cons k ks ih =>
    obtain ⟨hk, hks⟩ := List.forall_mem_cons.1 h
    rw [List.map_cons, List.map_cons, multiplied_cons, multiplied_cons, valueSets_product,
      valueSets_product, hk, ih hks]

end Sets

/-! ## Taking alternatives of the same values apart -/

variable {as bs : List (List ListedValue)} {a b xs ys : List ListedValue} {v : ListedValue}
  {fields : List Field} {f : Field} {l : ClauseLists} {ks ks' : List FilterClause}
  {k k' : FilterClause}

theorem length_distinct_congr [BEq α] [LawfulBEq α] {xs ys : List α} (h : ∀ x, x ∈ xs ↔ x ∈ ys) :
    (distinct xs).length = (distinct ys).length := by
  refine List.Perm.length_eq ((List.perm_ext_iff_of_nodup (nodup_distinct _)
    (nodup_distinct _)).2 fun x => ?_)
  rw [mem_distinct, mem_distinct, h]

theorem mem_sharedBy_congr (hne : as ≠ []) (h : valueSets as = valueSets bs) :
    v ∈ sharedBy as ↔ v ∈ sharedBy bs := by
  have hsub {as bs : List (List ListedValue)} (h : valueSets as = valueSets bs)
      (hall : ∀ b ∈ bs, v ∈ b) : ∀ a ∈ as, v ∈ a := by
    intro a ha
    obtain ⟨b, hb, hmem⟩ := exists_of_valueSets_eq h ha
    exact (hmem v).2 (hall b hb)
  obtain ⟨a, ha⟩ := List.exists_mem_of_ne_nil _ hne
  obtain ⟨b, hb, -⟩ := exists_of_valueSets_eq h ha
  rw [mem_sharedBy hne, mem_sharedBy (List.ne_nil_of_mem hb)]
  exact ⟨hsub h.symm, hsub h⟩

theorem nodup_residual (xs a : List ListedValue) : (residual xs a).Nodup := by
  rw [residual, sortByField_eq]
  exact (perm_sortBy _ _).nodup_iff.2 (nodup_distinct _)

/-- Values of different fields can be put in order in one way only. -/
theorem residual_congr (hshared : ∀ v, v ∈ xs ↔ v ∈ ys) (h : ∀ v, v ∈ a ↔ v ∈ b)
    (hfields : ((residual ys b).map (·.field)).Nodup) : residual xs a = residual ys b := by
  have hperm : (residual xs a).Perm (residual ys b) := by
    refine (List.perm_ext_iff_of_nodup (nodup_residual xs a) (nodup_residual ys b)).2 fun v => ?_
    rw [mem_residual, mem_residual, h, hshared]
  refine List.Perm.eq_of_pairwise (fun v w hv hw hle hge => ?_) (rank_sorted_residual xs a)
    (rank_sorted_residual ys b) hperm
  exact List.inj_on_of_nodup_map hfields (hperm.mem_iff.1 hv) hw
    (Field.rank_injective (Nat.le_antisymm hle hge))

theorem mem_residualsOf_congr {r : List ListedValue} (hne : as ≠ [])
    (h : valueSets as = valueSets bs) (hshape : HaveShape (residualsOf bs) fields) :
    r ∈ residualsOf as ↔ r ∈ residualsOf bs := by
  have hresidual : ∀ a, ∀ b ∈ bs, (∀ v, v ∈ a ↔ v ∈ b) →
      residual (sharedBy as) a = residual (sharedBy bs) b := by
    intro a b hb hmem
    refine residual_congr (fun v => mem_sharedBy_congr hne h) hmem ?_
    rw [hshape.shape _ (List.mem_map_of_mem hb)]
    exact hshape.nodup
  rw [residualsOf, residualsOf, List.mem_map, List.mem_map]
  constructor
  · rintro ⟨a, ha, rfl⟩
    obtain ⟨b, hb, hmem⟩ := exists_of_valueSets_eq h ha
    exact ⟨b, hb, (hresidual a b hb hmem).symm⟩
  · rintro ⟨b, hb, rfl⟩
    obtain ⟨a, ha, hmem⟩ := exists_of_valueSets_eq h.symm hb
    exact ⟨a, ha, hresidual a b hb fun v => (hmem v).symm⟩

theorem AreAllChoices.congr {rs rs' : List (List ListedValue)} (h : AreAllChoices rs fields)
    (hmem : ∀ r, r ∈ rs' ↔ r ∈ rs) : AreAllChoices rs' fields where
  shape r hr := h.shape r ((hmem r).1 hr)
  nodup := h.nodup
  count := by
    have hcolumns : (columns fields rs').map List.length = (columns fields rs).map List.length := by
      rw [columns, columns, List.map_map, List.map_map]
      refine List.map_congr_left fun f _ => length_distinct_congr fun v => ?_
      simp only [List.mem_filter, List.mem_flatten, hmem]
    rw [hcolumns, h.count, length_distinct_congr hmem]

theorem length_foldl_pushCase_le {ts : List Text} (h : ∀ t ∈ ts, ∀ u ∈ ts, t = u) :
    (ts.foldl pushCase []).length ≤ 1 := by
  cases ts with
  | nil => exact Nat.zero_le 1
  | cons t rest =>
    have hrest : rest ⊆ [t] := fun u hu =>
      List.mem_singleton.2 (h u (List.mem_cons_of_mem t hu) t List.mem_cons_self)
    have hfirst : pushCase [] t = [t] := rfl
    rw [List.foldl_cons, hfirst, foldl_pushCase_of_subset hrest, List.length_singleton]

/-! ## Clauses that are separate -/

/-- There is one clause at most of each field and mode, and no value that a field requires is among
those that it offers a choice of. -/
structure AreSeparate (ks : List FilterClause) : Prop where
  ne_nil : ∀ k ∈ ks, k.values ≠ []
  once : (ks.map fun k => (k.field, k.mode)).Nodup
  choice : ∀ k ∈ ks, k.mode = .anyOf → k.field.asksForAll = true
  disjoint : ∀ k ∈ ks, ∀ k' ∈ ks, k.field = k'.field → k.mode = .plain → k'.mode = .anyOf →
    ∀ t ∈ k.values, t ∉ k'.values

namespace FilterClause

/-- The clause with each value once. -/
def tidied (k : FilterClause) : FilterClause := { k with values := distinct k.values }

theorem mem_listed_tidied : v ∈ k.tidied.listed ↔ v ∈ k.listed := by
  simp [listed, tidied, mem_distinct]

theorem valueSets_alternatives_tidied (k : FilterClause) :
    valueSets k.tidied.alternatives = valueSets k.alternatives := by
  have hmode : k.tidied.mode = k.mode := rfl
  have hfield : k.tidied.field = k.field := rfl
  rw [alternatives, alternatives, hmode, hfield]
  split
  · split
    · exact valueSets_singleton fun v => mem_listed_tidied
    · exact valueSets_map_singleton fun v => mem_listed_tidied
  · exact valueSets_map_singleton fun v => mem_listed_tidied
  · rfl

theorem includes_of_mem_required (hv : v ∈ k.required) :
    k.mode ≠ .excluded ∧ k.isChoice = false := by
  rw [required] at hv
  split at hv
  · cases hv
  next hnot => simpa using hnot

end FilterClause

/-- The clauses in the order of their fields, with each value once. -/
def ordered (ks : List FilterClause) : List FilterClause :=
  sortBy (compareOn fun k => k.field.rank) (ks.map FilterClause.tidied)

theorem perm_ordered (ks : List FilterClause) : (ordered ks).Perm (ks.map FilterClause.tidied) :=
  perm_sortBy _ _

theorem mem_ordered : k ∈ ordered ks ↔ ∃ k' ∈ ks, k'.tidied = k := by
  rw [(perm_ordered ks).mem_iff, List.mem_map]

theorem plain_eq_nil_of_mem_ordered (hfresh : ∀ k ∈ ks, l.plain k.field = [])
    (hk : k ∈ ordered ks) : l.plain k.field = [] := by
  obtain ⟨k', hk', rfl⟩ := mem_ordered.1 hk
  exact hfresh k' hk'

theorem valueSets_ordered (ks : List FilterClause) :
    valueSets (multiplied ((ordered ks).map FilterClause.alternatives)) =
      valueSets (multiplied (ks.map FilterClause.alternatives)) := by
  rw [valueSets_multiplied_of_perm ((perm_ordered ks).map _), List.map_map]
  exact valueSets_multiplied_congr fun k _ => k.valueSets_alternatives_tidied

namespace AreSeparate

theorem sublist (h : AreSeparate ks) (hsub : ks'.Sublist ks) : AreSeparate ks' where
  ne_nil k hk := h.ne_nil k (hsub.subset hk)
  once := h.once.sublist (hsub.map _)
  choice k hk := h.choice k (hsub.subset hk)
  disjoint k hk k' hk' := h.disjoint k (hsub.subset hk) k' (hsub.subset hk')

theorem inOrder (h : AreSeparate ks) : AreSeparate (ordered ks) where
  ne_nil := by
    intro k hk
    obtain ⟨k', hk', rfl⟩ := mem_ordered.1 hk
    obtain ⟨t, ht⟩ := List.exists_mem_of_ne_nil _ (h.ne_nil k' hk')
    exact List.ne_nil_of_mem (mem_distinct.2 ht)
  once := by
    rw [((perm_ordered ks).map _).nodup_iff, List.map_map]
    exact h.once
  choice := by
    intro k hk
    obtain ⟨k', hk', rfl⟩ := mem_ordered.1 hk
    exact h.choice k' hk'
  disjoint := by
    intro k hk k' hk' hfield hplain hanyOf t ht ht'
    obtain ⟨k₁, hk₁, rfl⟩ := mem_ordered.1 hk
    obtain ⟨k₂, hk₂, rfl⟩ := mem_ordered.1 hk'
    exact h.disjoint k₁ hk₁ k₂ hk₂ hfield hplain hanyOf t (mem_distinct.1 ht) (mem_distinct.1 ht')

variable (h : AreSeparate ks)
include h

theorem eq_of_key_eq (hk : k ∈ ks) (hk' : k' ∈ ks) (hfield : k.field = k'.field)
    (hmode : k.mode = k'.mode) : k = k' :=
  List.inj_on_of_nodup_map h.once hk hk' (Prod.ext hfield hmode)

/-- A field has its choice in the one mode or in the other. -/
theorem mode_of_isChoice (hk : k ∈ ks) (hchoice : k.isChoice = true) :
    k.mode = if k.field.asksForAll then .anyOf else .plain := by
  cases hmode : k.mode with
  | plain =>
    have hasks : k.field.asksForAll = false := by
      simp only [FilterClause.isChoice, hmode, Bool.and_eq_true, Bool.not_eq_true'] at hchoice
      exact hchoice.1
    rw [hasks]
    rfl
  | anyOf =>
    rw [h.choice k hk hmode]
    rfl
  | excluded => simp [FilterClause.isChoice, hmode] at hchoice

theorem eq_of_isChoice (hk : k ∈ ks) (hk' : k' ∈ ks) (hchoice : k.isChoice = true)
    (hchoice' : k'.isChoice = true) (hfield : k.field = k'.field) : k = k' := by
  refine h.eq_of_key_eq hk hk' hfield ?_
  rw [h.mode_of_isChoice hk hchoice, h.mode_of_isChoice hk' hchoice', hfield]

/-- Of a field that one value suffices for, only a plain clause can require a value. -/
theorem plain_of_mem_required (hk : k ∈ ks) (hv : v ∈ k.required)
    (hasks : v.field.asksForAll = false) : k.mode = .plain := by
  cases hmode : k.mode with
  | plain => rfl
  | anyOf =>
    rw [FilterClause.field_of_mem_required hv, h.choice k hk hmode] at hasks
    cases hasks
  | excluded => exact absurd hmode (FilterClause.includes_of_mem_required hv).1

theorem not_mem_required_of_mem_offered (hk : k ∈ ks) (hv : v ∈ k.offered) :
    v ∉ ks.flatMap FilterClause.required := by
  intro hmem
  obtain ⟨k', hk', hrequired⟩ := List.mem_flatMap.1 hmem
  obtain ⟨hmode', hchoice'⟩ := FilterClause.includes_of_mem_required hrequired
  have hchoice : k.isChoice = true := by
    by_contra hnot
    rw [FilterClause.offered, if_neg hnot] at hv
    cases hv
  have hfield : k'.field = k.field := (FilterClause.field_of_mem_required hrequired).symm.trans
    (FilterClause.field_of_mem_offered hv)
  have hmodes : k'.mode ≠ k.mode := by
    intro hmode
    rw [h.eq_of_key_eq hk' hk hfield hmode, hchoice] at hchoice'
    cases hchoice'
  cases hasks : k.field.asksForAll with
  | false =>
    have hasks' : v.field.asksForAll = false := by
      rw [FilterClause.field_of_mem_offered hv, hasks]
    refine hmodes ?_
    rw [h.plain_of_mem_required hk' hrequired hasks', h.mode_of_isChoice hk hchoice, hasks]
    rfl
  | true =>
    have hmode : k.mode = .anyOf := by
      rw [h.mode_of_isChoice hk hchoice, hasks]
      rfl
    have hplain : k'.mode = .plain := by
      rw [hmode] at hmodes
      cases hmode'' : k'.mode with
      | plain => rfl
      | anyOf => exact absurd hmode'' hmodes
      | excluded => exact absurd hmode'' hmode'
    rw [FilterClause.required, if_neg (by simp [hmode', hchoice'])] at hrequired
    rw [FilterClause.offered_of_isChoice hchoice] at hv
    obtain ⟨t, ht, rfl⟩ := List.mem_map.1 hrequired
    obtain ⟨u, hu, heq⟩ := List.mem_map.1 hv
    obtain ⟨-, rfl⟩ := ListedValue.mk.inj heq
    exact h.disjoint k' hk' k hk hfield hplain hmode u ht hu

theorem areApart : AreApart (ordered ks) where
  ne_nil := h.inOrder.ne_nil
  nodup := by
    intro k hk
    obtain ⟨k', -, rfl⟩ := mem_ordered.1 hk
    exact nodup_distinct _
  disjoint k hk v hv := h.inOrder.not_mem_required_of_mem_offered hk hv
  ascending := by
    have hsorted : (ordered ks).Pairwise fun k k' => k.field.rank ≤ k'.field.rank := by
      have hascending : Ascending (compareOn fun k : FilterClause => k.field.rank)
          (ordered ks) := ascending_sortBy _
      exact hascending.imp fun hle => Nat.isLE_compare.1 hle
    have hnodup : (ordered ks).Nodup := List.Nodup.of_map _ h.inOrder.once
    refine ((hsorted.and hnodup).filter _).imp_of_mem fun hk hk' ⟨hle, hne⟩ => ?_
    obtain ⟨hk, hchoice⟩ := List.mem_filter.1 hk
    obtain ⟨hk', hchoice'⟩ := List.mem_filter.1 hk'
    exact Nat.lt_of_le_of_ne hle fun heq =>
      hne (h.inOrder.eq_of_isChoice hk hk' hchoice hchoice' (Field.rank_injective heq))

/-! ## Taking them apart -/

theorem mem_sharedBy : v ∈ sharedBy (multiplied (ks.map FilterClause.alternatives)) ↔
    ∃ k ∈ ordered ks, v ∈ k.required := by
  rw [mem_sharedBy_congr (multiplied_alternatives_ne_nil h.ne_nil) (valueSets_ordered ks).symm,
    h.areApart.mem_sharedBy, List.mem_flatMap]

theorem areAllChoices :
    AreAllChoices (residualsOf (multiplied (ks.map FilterClause.alternatives)))
      (((ordered ks).filter (·.isChoice)).map (·.field)) := by
  have hchoices := h.areApart.areAllChoices
  rw [← h.areApart.residualsOf_eq] at hchoices
  exact hchoices.congr fun r => mem_residualsOf_congr (multiplied_alternatives_ne_nil h.ne_nil)
    (valueSets_ordered ks).symm hchoices.toHaveShape

/-- A field that one value suffices for has one value to require at most, and none if it offers a
choice. -/
theorem eq_of_mem_sharedBy {w : ListedValue}
    (hv : v ∈ sharedBy (multiplied (ks.map FilterClause.alternatives)))
    (hw : w ∈ sharedBy (multiplied (ks.map FilterClause.alternatives)))
    (hfield : v.field = w.field) (hasks : v.field.asksForAll = false) : v = w := by
  obtain ⟨k, hk, hvk⟩ := h.mem_sharedBy.1 hv
  obtain ⟨k', hk', hwk⟩ := h.mem_sharedBy.1 hw
  have hplain := h.inOrder.plain_of_mem_required hk hvk hasks
  have hplain' := h.inOrder.plain_of_mem_required hk' hwk (hfield ▸ hasks)
  have hfields : k'.field = k.field := by
    rw [← FilterClause.field_of_mem_required hwk, ← hfield, FilterClause.field_of_mem_required hvk]
  obtain rfl := h.inOrder.eq_of_key_eq hk' hk hfields (hplain'.trans hplain.symm)
  rw [FilterClause.field_of_mem_required hvk] at hasks
  exact eq_of_length_le_one (FilterClause.length_required_le hplain hasks) hvk hwk

theorem not_mem_sharedBy_of_isChoice (hk : k ∈ ordered ks) (hchoice : k.isChoice = true)
    (hasks : k.field.asksForAll = false) (hfield : v.field = k.field) :
    v ∉ sharedBy (multiplied (ks.map FilterClause.alternatives)) := by
  intro hv
  obtain ⟨k', hk', hrequired⟩ := h.mem_sharedBy.1 hv
  have hplain := h.inOrder.plain_of_mem_required hk' hrequired (hfield ▸ hasks)
  have hplain' : k.mode = .plain := by
    rw [h.inOrder.mode_of_isChoice hk hchoice, hasks]
    rfl
  obtain rfl := h.inOrder.eq_of_key_eq hk' hk
    ((FilterClause.field_of_mem_required hrequired).symm.trans hfield) (hplain.trans hplain'.symm)
  rw [FilterClause.required_of_isChoice hchoice] at hrequired
  cases hrequired

variable (hfresh : ∀ k ∈ ks, l.plain k.field = [])
include hfresh

theorem length_plain_required_le
    (hv : v ∈ sharedBy (multiplied (ks.map FilterClause.alternatives)))
    (hasks : v.field.asksForAll = false) :
    (((sharedBy (multiplied (ks.map FilterClause.alternatives))).foldl ClauseLists.pushPlain
      l).plain v.field).length ≤ 1 := by
  obtain ⟨k, hk, hrequired⟩ := h.mem_sharedBy.1 hv
  have hnone : l.plain v.field = [] := by
    rw [FilterClause.field_of_mem_required hrequired]
    exact plain_eq_nil_of_mem_ordered hfresh hk
  rw [ClauseLists.foldl_pushPlain]
  dsimp only
  rw [foldl_pushAt, hnone]
  refine length_foldl_pushCase_le fun t ht u hu => ?_
  exact (ListedValue.mk.inj
    (h.eq_of_mem_sharedBy (mem_literalsAt.1 ht) (mem_literalsAt.1 hu) rfl hasks)).2

theorem plain_required_of_isChoice (hk : k ∈ ordered ks) (hchoice : k.isChoice = true)
    (hasks : k.field.asksForAll = false) :
    ((sharedBy (multiplied (ks.map FilterClause.alternatives))).foldl ClauseLists.pushPlain
      l).plain k.field = [] := by
  rw [ClauseLists.foldl_pushPlain, ← plain_eq_nil_of_mem_ordered hfresh hk]
  exact (ClauseLists.added_foldl_pushAt _ _).other _ fun v hv hfield =>
    h.not_mem_sharedBy_of_isChoice hk hchoice hasks hfield hv

/-- The alternatives of separate clauses can be taken apart again. -/
theorem exists_factor_eq :
    ∃ l', factor l (multiplied (ks.map FilterClause.alternatives)) = .ok l' := by
  have hne := multiplied_alternatives_ne_nil h.ne_nil
  have hchoices := h.areAllChoices
  have hrequire := foldlM_requireValue fun v hv => h.length_plain_required_le hfresh hv
  rw [factor_of_haveShape hne hchoices.toHaveShape hchoices.countChoices_eq, hrequire]
  refine ⟨_, (foldlM_offerChoice_eq_ok ?_ (List.forall_mem_map.2 fun f hf => ⟨?_, ?_⟩)).2
    ⟨rfl, List.forall_mem_map.2 (List.forall_mem_map.2 fun k hk => ?_)⟩⟩
  · rw [List.map_map]
    exact (List.map_id _).symm ▸ hchoices.nodup
  · exact one_lt_length_columnAt hchoices.shape hne hf
  · exact fun v hv => (mem_columnAt.1 hv).2
  · obtain ⟨hk, hchoice⟩ := List.mem_filter.1 hk
    exact h.plain_required_of_isChoice hfresh hk hchoice

end AreSeparate

end SkyPatcher
end Wardrobe
