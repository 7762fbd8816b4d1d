import Wardrobe.Proofs.SkyPatcher.Extent
import Wardrobe.Proofs.SkyPatcher.Narrowing
/-
A written line is a normal form: read and written again, it stays as it is.

Reading joins the criteria of the clauses, whose alternatives are multiplied out, and writing takes
them apart into the lists of the clauses that were read.  The lists that are found for a rule are
in normal form already, so nothing is left to change.  The rule that is read has no more
alternatives than the one that was written, as long as these were counted right.
-/

namespace Wardrobe
namespace SkyPatcher

variable {c : Catalog} {l : ClauseLists} {f : Field} {mode : Mode} {female : Option Bool}
  {k : FilterClause} {ks : List FilterClause} {n m : Nat}

/-! ## Criteria that list clauses -/

section Criteria

variable {toValue : Criterion.Part α → Except Unrepresentable ListedValue} {s t : Criterion α}
  {as bs : List (List ListedValue)} {xs ys : List ListedValue} {p : Criterion.Part α → Bool}
  {criterion : FilterClause → Criterion α} {written : FilterClause → FilterClause}

/-- Expression by expression, the criterion includes what an alternative lists, and each expression
excludes the same values. -/
structure Lists (toValue : Criterion.Part α → Except Unrepresentable ListedValue)
    (s : Criterion α) (as : List (List ListedValue)) (xs : List ListedValue) : Prop where
  ne_nil : s.expressions ≠ []
  expressions : List.Forall₂ (fun e a => (Criterion.inclusions e).mapM toValue = .ok a ∧
    (e.filter (·.negated)).mapM toValue = .ok xs) s.expressions as

namespace Lists

theorem and (hs : Lists toValue s as xs) (ht : Lists toValue t bs ys) :
    Lists toValue (s.and t) (product as bs) (xs ++ ys) := by
  refine ⟨Criterion.and_ne_nil hs.ne_nil ht.ne_nil, ?_⟩
  rw [Criterion.and_of_ne_nil hs.ne_nil ht.ne_nil, product]
  refine List.rel_flatMap hs.expressions fun e a hea => ?_
  refine List.rel_map (fun e' b heb => ?_) ht.expressions
  rw [Criterion.inclusions_append, List.filter_append]
  exact ⟨mapM_append_eq_ok hea.1 heb.1, mapM_append_eq_ok hea.2 heb.2⟩

/-- Joining the criteria of further clauses multiplies their alternatives out. -/
theorem foldl_and (hs : Lists toValue s as xs)
    (h : ∀ k ∈ ks, Lists toValue (criterion k) (written k).alternatives (written k).excludes) :
    Lists toValue (ks.foldl (fun s k => s.and (criterion k)) s)
      (product as (multiplied ((ks.map written).map FilterClause.alternatives)))
      (xs ++ (ks.map written).flatMap FilterClause.excludes) := by
  induction ks generalizing s as xs with
  | nil =>
    rw [List.map_nil, List.map_nil, List.flatMap_nil, List.append_nil]
    exact (product_one as).symm ▸ hs
  | cons k ks ih =>
    obtain ⟨hk, hks⟩ := List.forall_mem_cons.1 h
    have hstep := ih (hs.and hk) hks
    rw [product_assoc, List.append_assoc] at hstep
    exact hstep

theorem alternatives_eq (h : Lists toValue s as xs) :
    SkyPatcher.alternatives toValue s = .ok (as.filter fun a => !a.isEmpty) := by
  have hvalues : s.expressions.mapM (fun e => (Criterion.inclusions e).mapM toValue) = .ok as :=
    mapM_eq_ok_of_forall₂ (h.expressions.imp fun _ _ hlisted => hlisted.1)
  rw [SkyPatcher.alternatives, hvalues]
  rfl

/-- What is excluded is what the first expression excludes, and then the same again. -/
theorem exists_excluded_eq (h : Lists toValue s as xs) :
    ∃ again, again ⊆ xs ∧ s.excluded.mapM toValue = .ok (xs ++ again) := by
  have hrest {es : List (List (Criterion.Part α))} {as : List (List ListedValue)}
      (hes : List.Forall₂ (fun e a => (Criterion.inclusions e).mapM toValue = .ok a ∧
        (e.filter (·.negated)).mapM toValue = .ok xs) es as) :
      ∃ again, again ⊆ xs ∧ (es.flatten.filter (·.negated)).mapM toValue = .ok again := by
    induction hes with
    | nil => exact ⟨[], List.nil_subset _, rfl⟩
    | cons hfirst _ ih =>
      obtain ⟨again, hsub, hagain⟩ := ih
      refine ⟨xs ++ again, List.append_subset.2 ⟨List.Subset.refl xs, hsub⟩, ?_⟩
      rw [List.flatten_cons, List.filter_append]
      exact mapM_append_eq_ok hfirst.2 hagain
  obtain ⟨e, es, hes⟩ := List.exists_cons_of_ne_nil h.ne_nil
  have hexpressions := h.expressions
  rw [hes] at hexpressions
  obtain ⟨a, rest, hfirst, hexpressions, -⟩ := List.forall₂_cons_left_iff.1 hexpressions
  obtain ⟨again, hsub, hagain⟩ := hrest hexpressions
  refine ⟨again, hsub, ?_⟩
  rw [Criterion.excluded, Criterion.parts, hes, List.flatten_cons, List.filter_append]
  exact mapM_append_eq_ok hfirst.2 hagain

end Lists

/-- Joined criteria of clauses list the clauses as they are written. -/
theorem listsClauses_foldl_and
    (h : ∀ k ∈ ks, Lists toValue (criterion k) (written k).alternatives (written k).excludes) :
    ListsClauses toValue (ks.foldl (fun s k => s.and (criterion k)) .empty) (ks.map written) := by
  cases ks with
  | nil => exact ⟨rfl, [], List.Subset.refl _, rfl⟩
  | cons k ks =>
    obtain ⟨hk, hks⟩ := List.forall_mem_cons.1 h
    have hnil : (Criterion.empty : Criterion α).expressions = [] := rfl
    have hall := hk.foldl_and hks
    rw [List.foldl_cons, Criterion.and_of_left_nil hnil]
    exact ⟨hall.alternatives_eq, hall.exists_excluded_eq⟩

/-- Joined criteria of clauses have as many expressions as there are choices of an alternative from
each clause. -/
theorem length_expressions_foldl_and
    (h : ∀ k ∈ ks, Lists toValue (criterion k) k.alternatives k.excludes) :
    (ks.foldl (fun s k => Criterion.and s (criterion k)) Criterion.empty).expressions.length =
      if ks = [] then 0 else (multiplied (ks.map FilterClause.alternatives)).length := by
  cases ks with
  | nil => rfl
  | cons k ks =>
    obtain ⟨hk, hks⟩ := List.forall_mem_cons.1 h
    have hnil : (Criterion.empty : Criterion α).expressions = [] := rfl
    have hall := hk.foldl_and hks
    rw [List.map_id'] at hall
    rw [List.foldl_cons, Criterion.and_of_left_nil hnil, if_neg (List.cons_ne_nil _ _),
      hall.expressions.length_eq, List.map_cons, multiplied_cons]

section Parts

variable {us : List α} {vs : List ListedValue} {negated wildcard : Bool}

/-- One expression of all parts, which are all included or all excluded. -/
theorem lists_allOf (hne : us ≠ [])
    (h : (us.map fun u => (⟨u, negated, wildcard⟩ : Criterion.Part α)).mapM toValue = .ok vs) :
    Lists toValue (Criterion.allOf (us.map fun u => ⟨u, negated, wildcard⟩))
      [if negated then [] else vs] (if negated then vs else []) := by
  have hparts : (us.map fun u => (⟨u, negated, wildcard⟩ : Criterion.Part α)) ≠ [] := by
    simpa using hne
  refine ⟨?_, ?_⟩
  · rw [Criterion.expressions_allOf hparts]
    exact List.cons_ne_nil _ _
  · rw [Criterion.expressions_allOf hparts]
    cases negated with
    | false =>
      refine .cons ⟨?_, ?_⟩ .nil
      · rw [Criterion.inclusions, List.filter_eq_self.2 (by simp)]
        exact h
      · rw [List.filter_eq_nil_iff.2 (by simp)]
        rfl
    | true =>
      refine .cons ⟨?_, ?_⟩ .nil
      · rw [Criterion.inclusions, List.filter_eq_nil_iff.2 (by simp)]
        rfl
      · rw [List.filter_eq_self.2 (by simp)]
        exact h

/-- An expression of its own for each part. -/
theorem lists_anyOf (hne : us ≠ [])
    (h : List.Forall₂ (fun u v => toValue ⟨u, false, wildcard⟩ = .ok v) us vs) :
    Lists toValue (Criterion.anyOf (us.map fun u => ⟨u, false, wildcard⟩))
      (vs.map fun v => [v]) [] := by
  refine ⟨?_, ?_⟩
  · rw [Criterion.expressions_anyOf]
    simpa using hne
  · rw [Criterion.expressions_anyOf, List.map_map, List.forall₂_map_left_iff,
      List.forall₂_map_right_iff]
    refine h.imp fun u v hvalue => ⟨?_, rfl⟩
    simp [Criterion.inclusions, hvalue]

/-- The criterion of a clause lists its values. -/
theorem lists_criterionOf (hne : k.values ≠ [])
    (hvalues : List.Forall₂ (fun u t => ∀ negated,
      toValue ⟨u, negated, wildcard⟩ = .ok ⟨k.field, t⟩) us k.values) :
    Lists toValue (criterionOf k.field k.mode
      (us.map fun u => ⟨u, k.mode == .excluded, wildcard⟩)) k.alternatives k.excludes := by
  have hus : us ≠ [] := by
    rw [← List.length_pos_iff, hvalues.length_eq]
    exact List.length_pos_of_ne_nil hne
  have hlisted (negated : Bool) :
      List.Forall₂ (fun u v => toValue ⟨u, negated, wildcard⟩ = .ok v) us k.listed := by
    rw [FilterClause.listed, List.forall₂_map_right_iff]
    exact hvalues.imp fun u t hvalue => hvalue negated
  have hall (negated : Bool) : (us.map fun u => (⟨u, negated, wildcard⟩ : Criterion.Part α)).mapM
      toValue = .ok k.listed := by
    refine mapM_eq_ok_of_forall₂ ?_
    rw [List.forall₂_map_left_iff]
    exact hlisted negated
  cases hmode : k.mode with
  | excluded =>
    rw [FilterClause.alternatives, FilterClause.excludes, hmode, if_pos rfl]
    exact lists_allOf hus (hall true)
  | anyOf =>
    rw [FilterClause.alternatives, FilterClause.excludes, hmode]
    exact lists_anyOf hus (hlisted false)
  | plain =>
    rw [FilterClause.alternatives, FilterClause.excludes, hmode, criterionOf]
    cases k.field.asksForAll with
    | true => exact lists_allOf hus (hall false)
    | false => exact lists_anyOf hus (hlisted false)

end Parts

end Criteria

/-! ## Clauses that are read back -/

namespace FilterClause

theorem IsWritten.reading?_eq (h : k.IsWritten c) (hkeys : c.HasWellFormedKeys) :
    reading? c k.keyValue = some (k.filter c) := by
  rw [reading?, h.readKey?, Option.bind_some]
  dsimp only
  rw [h.readClause_eq hkeys]
  rfl

theorem strings_foldl_addClause (c : Catalog) (ks : List FilterClause) (before : Filters) :
    ((ks.map (filter c)).foldl addClause before).strings =
      (ks.filter fun k => k.field.isText).foldl (fun s k => s.and k.strings) before.strings := by
  induction ks generalizing before with
  | nil => rfl
  | cons k ks ih =>
    obtain ⟨f, mode, values⟩ := k
    rw [List.map_cons, List.foldl_cons, ih]
    cases f <;> rfl

theorem forms_foldl_addClause (c : Catalog) (ks : List FilterClause) (before : Filters) :
    ((ks.map (filter c)).foldl addClause before).forms =
      (ks.filter fun k => k.field.isReference).foldl (fun s k => s.and (k.forms c))
        before.forms := by
  induction ks generalizing before with
  | nil => rfl
  | cons k ks ih =>
    obtain ⟨f, mode, values⟩ := k
    rw [List.map_cons, List.foldl_cons, ih]
    cases f <;> rfl

end FilterClause

theorem levels_foldl_addClause (read : List ClauseFilter) (before : Filters) :
    (read.foldl addClause before).levels = before.levels := by
  induction read generalizing before with
  | nil => rfl
  | cons filter rest ih =>
    rw [List.foldl_cons, ih]
    cases filter <;> rfl

/-- The sex that the clauses of a written line ask for. -/
theorem lastSex?_clausesOf (c : Catalog) (l : ClauseLists) (female : Option Bool) :
    lastSex? ((clausesOf l female).map (FilterClause.filter c)) = female := by
  have hsex : ∀ b, (FilterClause.filter c ⟨.gender, .plain, [sexName b]⟩).sex? = some b := by
    intro b
    cases b <;> rfl
  have hmem : ∀ k ∈ clausesOf l female, ∀ b, (k.filter c).sex? = some b → b ∈ female := by
    intro k hk b hb
    rcases mem_clausesOf.1 hk with ⟨b', hb', rfl⟩ | ⟨f, mode, hf, -, rfl⟩
    · rw [hsex] at hb
      exact Option.some.inj hb ▸ hb'
    · cases f with
      | gender => exact absurd rfl hf
      | form kind | plugin | editorId => cases hb
  cases hlast : lastSex? ((clausesOf l female).map (FilterClause.filter c)) with
  | none =>
    rw [lastSex?, List.findSome?_eq_none_iff] at hlast
    refine (Option.eq_none_iff_forall_not_mem.2 fun b hb => ?_).symm
    have hclause := hlast _ (List.mem_reverse.2 (List.mem_map_of_mem
      (mem_clausesOf.2 (Or.inl ⟨b, hb, rfl⟩))))
    rw [hsex] at hclause
    cases hclause
  | some b =>
    obtain ⟨read, hread, hb⟩ := List.exists_of_findSome?_eq_some hlast
    obtain ⟨k, hk, rfl⟩ := List.mem_map.1 (List.mem_reverse.1 hread)
    exact (hmem k hk b hb).symm

theorem lists_strings (hf : k.field.isText = true) (hne : k.values ≠ []) :
    Lists stringValue k.strings k.alternatives k.excludes := by
  obtain hf : k.field = .editorId := beq_iff_eq.1 hf
  refine lists_criterionOf hne (List.forall₂_same.2 fun t _ negated => ?_)
  rw [hf]
  rfl

theorem lists_strings_clausesAt (l : ClauseLists) : ∀ k ∈ clausesAt l Field.isText,
    Lists stringValue k.strings k.alternatives k.excludes := by
  intro k hk
  obtain ⟨f, mode, hf, hne, rfl⟩ := (mem_clausesAt rfl).1 hk
  exact lists_strings hf hne

/-- What is written for references stands for the same references, and is written for them again. -/
theorem forall₂_resolveValue {values : List Text} (hkeys : c.HasWellFormedKeys)
    (hf : f.isReference = true) (h : ∀ t ∈ values, Listable c ⟨f, t⟩) :
    List.Forall₂ (fun ref t => ∀ negated, formValue ⟨ref, negated, false⟩ = .ok ⟨f, t⟩)
      (values.filterMap (resolveValue c f)) values := by
  induction values with
  | nil => exact .nil
  | cons t rest ih =>
    obtain ⟨ht, hrest⟩ := List.forall_mem_cons.1 h
    obtain ⟨ref, hresolve, hvalue⟩ : ∃ ref, resolveValue c f t = some ref ∧
        ∀ negated, formValue ⟨ref, negated, false⟩ = .ok ⟨f, t⟩ := by
      cases ht with
      | text t => cases hf
      | reference ref hknows hplain =>
        exact ⟨ref, Reference.resolveValue_skyPatcherText hkeys hknows hplain, fun _ => rfl⟩
    rw [List.filterMap_cons_some hresolve]
    exact .cons hvalue (ih hrest)

section Reading

variable (hl : l.IsMadeOf (Listable c)) (hkeys : c.HasWellFormedKeys)
include hl hkeys

theorem lists_forms : ∀ k ∈ clausesAt l Field.isReference,
    Lists formValue (k.forms c) k.alternatives k.excludes := by
  intro k hk
  obtain ⟨f, mode, hf, hne, rfl⟩ := (mem_clausesAt rfl).1 hk
  exact lists_criterionOf hne (forall₂_resolveValue hkeys hf (hl.known mode f))

theorem readings_lineOf {slot : Slot} {ref : Reference} :
    (lineOf l female slot ref).filterMap (reading? c) =
      (clausesOf l female).map (FilterClause.filter c) := by
  have hassignment : reading? c (assignmentKey slot, ref.skyPatcherText) = none := by
    cases slot <;> rfl
  have hclauses : ∀ k ∈ clausesOf l female,
      (reading? c ∘ fun k => k.keyValue) k = (some ∘ FilterClause.filter c) k :=
    fun k hk => (isWritten_of_mem_clausesOf hl hk).reading?_eq hkeys
  rw [lineOf, List.filterMap_append, List.filterMap_map, List.filterMap_congr hclauses,
    List.filterMap_cons_none hassignment, List.filterMap_nil, List.append_nil,
    List.filterMap_eq_map]

/-- What the filters of a written line are. -/
theorem filters_lineOf {slot : Slot} {ref : Reference} {filters : Filters}
    (h : (lineOf l female slot ref).foldlM (addKeyValue c) .empty = .ok filters) :
    filters.strings =
        (clausesAt l Field.isText).foldl (fun s k => s.and k.strings) .empty ∧
      filters.forms =
        (clausesAt l Field.isReference).foldl (fun s k => s.and (k.forms c)) .empty ∧
      filters.levels = [] ∧ filters.traits = { Traits.Wanted.empty with female := female } := by
  obtain rfl := readings_foldl h
  rw [readings_lineOf hl hkeys]
  refine ⟨?_, ?_, levels_foldl_addClause _ _, ?_⟩
  · rw [FilterClause.strings_foldl_addClause, filter_clausesOf rfl]
    rfl
  · rw [FilterClause.forms_foldl_addClause, filter_clausesOf rfl]
    rfl
  · rw [traits_foldl_addClause, lastSex?_clausesOf]
    cases female <;> rfl

/-- The filters of a written line are written with the lists that it was written from. -/
theorem clauseLists_lineOf {slot : Slot} {ref : Reference} {filters : Filters}
    (hnormal : l.IsNormal)
    (h : (lineOf l female slot ref).foldlM (addKeyValue c) .empty = .ok filters) :
    clauseLists filters = .ok l := by
  obtain ⟨hstrings, hforms, -, -⟩ := filters_lineOf hl hkeys h
  refine hnormal.clauseLists_eq (fun mode => ?_) ?_ ?_
  · by_contra hne
    obtain ⟨t, ht⟩ := List.exists_mem_of_ne_nil _ hne
    exact not_listable_gender (hl.known mode _ t ht)
  · have hlists := listsClauses_foldl_and (lists_strings_clausesAt l)
    rwa [List.map_id', ← hstrings] at hlists
  · have hlists := listsClauses_foldl_and (lists_forms hl hkeys)
    rwa [List.map_id', ← hforms] at hlists

/-- The filters of a written line have as many alternatives as the lists that it was written
from. -/
theorem length_expressions_lineOf {slot : Slot} {ref : Reference} {filters : Filters}
    (h : (lineOf l female slot ref).foldlM (addKeyValue c) .empty = .ok filters) :
    filters.strings.expressions.length =
        (if clausesAt l Field.isText = [] then 0 else l.extent Field.isText) ∧
      filters.forms.expressions.length =
        if clausesAt l Field.isReference = [] then 0 else l.extent Field.isReference := by
  obtain ⟨hstrings, hforms, -, -⟩ := filters_lineOf hl hkeys h
  rw [hstrings, hforms, length_expressions_foldl_and (lists_strings_clausesAt l),
    length_expressions_foldl_and (lists_forms hl hkeys),
    length_multiplied_clausesAt hl.choice, length_multiplied_clausesAt hl.choice]
  exact ⟨rfl, rfl⟩

end Reading

/-! ## Rules -/

/-- The values that the parts of filters are written as, where they can be. -/
def listedValues (filters : Filters) : List ListedValue :=
  (filters.strings.parts.filterMap fun p => (stringValue p).toOption) ++
    filters.forms.parts.filterMap fun p => (formValue p).toOption

theorem mem_listedValues_of_stringValue {filters : Filters} {p : Criterion.Part Text}
    {v : ListedValue} (hp : p ∈ filters.strings.parts) (h : stringValue p = .ok v) :
    v ∈ listedValues filters :=
  List.mem_append_left _ (List.mem_filterMap.2 ⟨p, hp, by rw [h]; rfl⟩)

theorem mem_listedValues_of_formValue {filters : Filters} {p : Criterion.Part Reference}
    {v : ListedValue} (hp : p ∈ filters.forms.parts) (h : formValue p = .ok v) :
    v ∈ listedValues filters :=
  List.mem_append_right _ (List.mem_filterMap.2 ⟨p, hp, by rw [h]; rfl⟩)

/-- A line written for a rule is read with no more alternatives than the rule has. -/
theorem IsWritable.hasNoMoreAlternatives {r : Rule} {out : Text} {slot : Slot} {ref : Reference}
    {filters : Filters} (h : IsWritable c r) (hkeys : c.HasWellFormedKeys)
    (hcounted : ¬ IsMiscounted (formAlternatives r.filters.forms))
    (hrendered : IsRendered r out slot ref l)
    (hfilters : (lineOf l r.filters.traits.female slot ref).foldlM (addKeyValue c) .empty =
      .ok filters) : HasNoMoreAlternatives filters r.filters := by
  have hl := h.isMadeOf hkeys hrendered.clauseLists
  obtain ⟨hstrings, hforms⟩ := length_expressions_lineOf hl hkeys hfilters
  obtain ⟨htexts, hreferences⟩ := extent_clauseLists hcounted hrendered.clauseLists
  obtain ⟨hsomeText, hsomeReference⟩ := parts_ne_nil_of_clauseLists hrendered.clauseLists
  have hbound {α : Type} {s : Criterion α} {ks : List FilterClause} {extent length : Nat}
      (hlength : length = if ks = [] then 0 else extent)
      (hextent : extent ≤ max 1 s.expressions.length) (hsome : ks ≠ [] → s.parts ≠ []) :
      length ≤ s.expressions.length := by
    rw [hlength]
    split
    next => exact Nat.zero_le _
    next hne =>
      have hexpressions : s.expressions ≠ [] := fun hnone => hsome hne (by
        rw [Criterion.parts, hnone]
        rfl)
      rwa [Nat.max_eq_right (List.length_pos_of_ne_nil hexpressions)] at hextent
  exact ⟨hbound hstrings htexts hsomeText, hbound hforms hreferences hsomeReference⟩

/-- A line written for a rule whose forms are miscounted has more alternatives than 64 bits can
count. -/
theorem IsWritable.size_le_of_isMiscounted {r : Rule} {out : Text} {slot : Slot} {ref : Reference}
    {filters : Filters} (h : IsWritable c r) (hkeys : c.HasWellFormedKeys)
    (hdiffer : DifferInMore fun v => v ∈ listedValues r.filters)
    (hmiscounted : IsMiscounted (formAlternatives r.filters.forms))
    (hrendered : IsRendered r out slot ref l)
    (hfilters : (lineOf l r.filters.traits.female slot ref).foldlM (addKeyValue c) .empty =
      .ok filters) : UInt64.size ≤ filters.forms.expressions.length := by
  have hl := h.isMadeOf hkeys hrendered.clauseLists
  have hsize : UInt64.size ≤ l.extent Field.isReference :=
    size_le_extent_clauseLists hdiffer (fun p hp v hv => mem_listedValues_of_formValue hp hv)
      hmiscounted hrendered.clauseLists
  rw [(length_expressions_lineOf hl hkeys hfilters).2, if_neg]
  · exact hsize
  · intro hnone
    rw [← length_multiplied_clausesAt hl.choice, hnone] at hsize
    exact absurd hsize (by decide)

/-- A written line is read as one rule, for which the same line is written. -/
theorem IsWritable.render_of_render {r : Rule} {out : Text} (h : IsWritable c r)
    (hkeys : c.HasWellFormedKeys) (hdiffer : DifferInMore fun v => v ∈ listedValues r.filters)
    (hrender : render r = .ok out) (m : Nat) :
    ∃ r', Wardrobe.readRuleLine c .skyPatcher m out = .rules [r'] ∧ render r' = .ok out ∧
      (¬ IsMiscounted (formAlternatives r.filters.forms) →
        HasNoMoreAlternatives r'.filters r.filters) ∧
      (IsMiscounted (formAlternatives r.filters.forms) →
        UInt64.size ≤ r'.filters.forms.expressions.length) := by
  obtain ⟨slot, ref, l, hrendered⟩ := isRendered_of_render hrender
  have hl := h.isMadeOf hkeys hrendered.clauseLists
  have hnormal : l.IsNormal := isNormal_clauseLists hdiffer
    (fun p hp v hv => mem_listedValues_of_stringValue hp hv)
    (fun p hp v hv => mem_listedValues_of_formValue hp hv) hrendered.clauseLists
  obtain ⟨filters, hfilters, hread⟩ := h.readRuleLine_of_isRendered hkeys hrendered m
  have hlists := clauseLists_lineOf hl hkeys hnormal hfilters
  obtain ⟨-, -, hlevels, htraits⟩ := filters_lineOf hl hkeys hfilters
  refine ⟨_, hread, IsRendered.render_eq ⟨rfl, rfl, hlevels, ?_, hlists, ?_⟩ rfl,
    fun hcounted => h.hasNoMoreAlternatives hkeys hcounted hrendered hfilters,
    fun hmiscounted => h.size_le_of_isMiscounted hkeys hdiffer hmiscounted hrendered hfilters⟩
  · rw [htraits]
    rfl
  · rw [htraits]
    exact hrendered.text

section Rendering

variable {text line out : Text} {snap : Snapshot} {dialect : Dialect} {rules : List Rule} {r : Rule}
  (hsnap : Snapshot.read text = .ok snap)
  (hread : readRuleLine snap.game.catalog dialect n line = .rules rules) (hr : r ∈ rules)
  (htexts : ∀ p ∈ r.filters.strings.parts, p.wildcard = true → ',' ∉ p.value ∧ ':' ∉ p.value)
  (hplugins : ∀ ref ∈ r.references, IsPlainPlugin ref.pluginName)
  (hcase : ∀ v ∈ listedValues r.filters, ∀ w ∈ listedValues r.filters, v.field = w.field →
    Text.sameAscii v.literal w.literal = true → v.literal = w.literal)
include hsnap hread hr htexts hplugins hcase

/-- What a rule is written as has more alternatives than 64 bits can count when the choices between
its forms are counted so that one is missed.  No list in memory has so many. -/
theorem size_le_of_readRuleLine_render (hrender : r.render .skyPatcher = .ok out)
    (hmiscounted : IsMiscounted (formAlternatives r.filters.forms)) (m : Nat) :
    ∃ r', readRuleLine snap.game.catalog .skyPatcher m out = .rules [r'] ∧
      UInt64.size ≤ r'.filters.forms.expressions.length := by
  have hdiffer : DifferInMore fun v => v ∈ listedValues r.filters := by
    rintro ⟨f, t⟩ ⟨g, u⟩ hv hw rfl hsame
    exact congrArg _ (hcase _ hv _ hw rfl hsame)
  obtain ⟨r', hr', -, -, hsize⟩ :=
    (isWritable_of_readRuleLine hread hr htexts hplugins).render_of_render
      (Snapshot.hasWellFormedKeys hsnap) hdiffer hrender m
  exact ⟨r', hr', hsize hmiscounted⟩

end Rendering

end SkyPatcher
end Wardrobe
