import Wardrobe.Proofs.SkyPatcher.NormalForm
import Wardrobe.Proofs.SkyPatcher.Separate
/-
Rules that were read from SkyPatcher lines can be written as SkyPatcher lines.

What can be refused of a rule are parts that no SkyPatcher line has, and alternatives that are no
product of clauses.  The alternatives of a line are the product of its clauses, but writing finds
the clauses again only where their values are told apart: where no key is used twice, and no value
is required by a field that offers a choice of it as well.  Two values of a field never share their
text, so it makes no difference whether values or their texts are compared.
-/

namespace Wardrobe
namespace SkyPatcher

variable {c : Catalog} {n : Nat} {t key value : Text} {f : Field} {mode : Mode}
  {k k' : FilterClause} {ks ks' texts refs : List FilterClause} {v w : Value} {ref : Reference}
  {filters : Filters}

/-! ## Clauses as they are written -/

/-- The text of the value in a clause. -/
def Value.literal : Value → Text
  | .text t => t
  | .reference ref => ref.skyPatcherText
  | .sex female => sexName female

namespace FilterClause

/-- The clause with its values as they are written.  Those that stand for nothing are left out. -/
def written (c : Catalog) (k : FilterClause) : FilterClause :=
  { k with values := (k.resolved c).map Value.literal }

theorem resolved_of_isReference (hf : k.field.isReference = true) :
    k.resolved c = (k.values.filterMap (resolveValue c k.field)).map .reference := by
  obtain ⟨f, mode, values⟩ := k
  cases f with
  | form kind | plugin => rfl
  | editorId | gender => cases hf

theorem written_ne_nil (hne : k.resolved c ≠ []) : (k.written c).values ≠ [] := by
  rw [written]
  simpa using hne

theorem written_of_isText (hf : k.field.isText = true) : k.written c = k := by
  obtain ⟨f, mode, values⟩ := k
  obtain rfl : f = .editorId := beq_iff_eq.1 hf
  have hvalues : (values.map Value.text).map Value.literal = values := by
    rw [List.map_map]
    exact List.map_id _
  rw [written, resolved]
  exact congrArg _ hvalues

end FilterClause

theorem ofReference_of_resolveValue (hf : f.isReference = true)
    (h : resolveValue c f value = some ref) : Field.ofReference ref = f := by
  cases f with
  | form kind =>
    obtain ⟨key, editorId, rfl⟩ := Catalog.form_of_resolveAs h
    rfl
  | plugin =>
    obtain ⟨-, hplugin⟩ := Option.filter_eq_some_iff.1 h
    cases ref with
    | form => cases hplugin
    | plugin name => rfl
  | editorId | gender => cases hf

theorem reference_of_mem_resolved (hf : k.field.isReference = true) (hv : v ∈ k.resolved c) :
    ∃ ref, v = .reference ref ∧ c.Knows ref ∧ Field.ofReference ref = k.field := by
  rw [FilterClause.resolved_of_isReference hf] at hv
  obtain ⟨ref, href, rfl⟩ := List.mem_map.1 hv
  obtain ⟨t, -, ht⟩ := List.mem_filterMap.1 href
  exact ⟨ref, rfl, knows_of_resolveValue ht, ofReference_of_resolveValue hf ht⟩

/-- Different values of a field are written differently. -/
theorem eq_of_literal (hv : v ∈ k.resolved c) (hw : w ∈ k'.resolved c)
    (hfield : k.field = k'.field) (h : v.literal = w.literal) : v = w := by
  have hreference (hf : k.field.isReference = true) : v = w := by
    obtain ⟨ref, rfl, hknows, href⟩ := reference_of_mem_resolved hf hv
    obtain ⟨ref', rfl, hknows', href'⟩ := reference_of_mem_resolved (hfield ▸ hf) hw
    exact congrArg _ (Reference.eq_of_skyPatcherText hknows hknows'
      (href.trans (hfield.trans href'.symm)) h)
  obtain ⟨f, mode, values⟩ := k
  obtain ⟨f', mode', values'⟩ := k'
  obtain rfl : f = f' := hfield
  cases f with
  | form kind | plugin => exact hreference rfl
  | editorId =>
    obtain ⟨t, -, rfl⟩ := List.mem_map.1 hv
    obtain ⟨u, -, rfl⟩ := List.mem_map.1 hw
    exact congrArg _ h
  | gender =>
    obtain ⟨b, -, rfl⟩ := List.mem_map.1 hv
    obtain ⟨b', -, rfl⟩ := List.mem_map.1 hw
    cases b <;> cases b' <;> first | rfl | cases h

/-- The criterion of a clause over references lists them as they are written. -/
theorem lists_forms_written (hf : k.field.isReference = true) (hne : k.resolved c ≠ []) :
    Lists formValue (k.forms c) (k.written c).alternatives (k.written c).excludes := by
  have hvalues : (k.written c).values =
      (k.values.filterMap (resolveValue c k.field)).map (·.skyPatcherText) := by
    rw [FilterClause.written, FilterClause.resolved_of_isReference hf, List.map_map]
    rfl
  have hlisted : List.Forall₂ (fun ref t => ∀ negated,
      formValue ⟨ref, negated, false⟩ = .ok ⟨(k.written c).field, t⟩)
      (k.values.filterMap (resolveValue c k.field)) (k.written c).values := by
    rw [hvalues, List.forall₂_map_right_iff, List.forall₂_same]
    intro ref href negated
    obtain ⟨t, -, ht⟩ := List.mem_filterMap.1 href
    rw [formValue, ofReference_of_resolveValue hf ht]
    rfl
  exact lists_criterionOf (FilterClause.written_ne_nil hne) hlisted

/-! ## Lists of separate clauses -/

/-- There are lists for criteria that list separate clauses. -/
theorem exists_clauseLists_eq (hstrings : ListsClauses stringValue filters.strings texts)
    (hforms : ListsClauses formValue filters.forms refs) (htexts : AreSeparate texts)
    (hrefs : AreSeparate refs) (hfield : ∀ k ∈ refs, k.field ≠ .editorId) :
    ∃ l, clauseLists filters = .ok l := by
  obtain ⟨again, -, hxs⟩ := hstrings.excluded
  obtain ⟨again', -, hxf⟩ := hforms.excluded
  rw [clauseLists, hxs, hstrings.alternatives, hxf, hforms.alternatives]
  show ∃ l, (factor _ _ >>= fun l => factor l _) = .ok l
  have hempty (vs : List ListedValue) (f : Field) :
      (vs.foldl ClauseLists.pushExcluded .empty).plain f = [] := by
    rw [ClauseLists.foldl_pushExcluded]
    rfl
  generalize (texts.flatMap FilterClause.excludes ++ again) ++
    (refs.flatMap FilterClause.excludes ++ again') = excluded
  obtain ⟨l₁, hfirst⟩ := htexts.exists_factor_eq fun k _ => hempty excluded k.field
  rw [← factor_filter_multiplied htexts.ne_nil] at hfirst
  rw [hfirst]
  show ∃ l, factor l₁ _ = .ok l
  rw [factor_filter_multiplied hrefs.ne_nil]
  refine hrefs.exists_factor_eq fun k hk => ?_
  -- Taking the texts apart has only written to the field of texts.
  obtain ⟨required, offered, rfl, hmem, -⟩ := extended_of_factor hfirst
  have hother : ∀ v ∈ required ++ offered, v.field ≠ k.field := by
    intro v hv heq
    obtain ⟨alternative, halt, hv⟩ := hmem v hv
    obtain ⟨p, -, hvalue⟩ := source_of_alternatives hstrings.alternatives alternative halt v hv
    exact hfield k hk (heq.symm.trans (field_of_stringValue hvalue))
  rw [(extended_other hother).1, hempty]

/-! ## Reading and writing a line -/

theorem readKey?_of_filterClause? {kv : Text × Text} (h : filterClause? kv = some k) :
    readKey? kv.1 = some (k.field, k.mode) := by
  obtain ⟨⟨f, mode⟩, hkey, rfl⟩ := Option.map_eq_some_iff.1 h
  exact hkey

/-- Where no filter key occurs twice, no two clauses are of one field and mode. -/
theorem nodup_filterClauses {kvs : List (Text × Text)}
    (h : OneCaseEach ((kvs.map Prod.fst).filter isFilterKey)) :
    ((kvs.filterMap filterClause?).map fun k => (k.field, k.mode)).Nodup := by
  induction kvs with
  | nil => exact List.nodup_nil
  | cons kv rest ih =>
    rw [List.map_cons, List.filter_cons] at h
    cases hclause : filterClause? kv with
    | none =>
      rw [List.filterMap_cons_none hclause]
      split at h
      · exact ih (List.pairwise_cons.1 h).2
      · exact ih h
    | some k =>
      have hkey := readKey?_of_filterClause? hclause
      rw [if_pos (isFilterKey_of_readKey? (by rw [hkey]; rfl))] at h
      obtain ⟨hfirst, hrest⟩ := List.pairwise_cons.1 h
      rw [List.filterMap_cons_some hclause, List.map_cons, List.nodup_cons]
      refine ⟨fun hmem => ?_, ih hrest⟩
      obtain ⟨k', hk', heq⟩ := List.mem_map.1 hmem
      obtain ⟨kv', hkv', hclause'⟩ := List.mem_filterMap.1 hk'
      have hkey' := readKey?_of_filterClause? hclause'
      rw [heq] at hkey'
      have hmem' : kv'.1 ∈ (rest.map Prod.fst).filter isFilterKey :=
        List.mem_filter.2 ⟨List.mem_map_of_mem hkv',
          isFilterKey_of_readKey? (by rw [hkey']; rfl)⟩
      have hsame := Text.sameAscii_trans (readKey?_iff.1 hkey).1
        (by rw [Text.sameAscii_comm]; exact (readKey?_iff.1 hkey').1)
      rw [hfirst _ hmem'] at hsame
      cases hsame

theorem filter_of_readClause {filter : ClauseFilter} (hf : f ≠ .gender)
    (h : readClause c f mode key value = .ok filter) :
    filter = FilterClause.filter c ⟨f, mode, Text.pieces ',' value⟩ := by
  have hforms (h : readReferences c f mode key (Text.pieces ',' value) = .ok filter) :
      filter = .forms (FilterClause.forms c ⟨f, mode, Text.pieces ',' value⟩) := by
    rw [readReferences] at h
    split at h
    · cases h
    · exact (Except.ok.inj h).symm
  unfold readClause at h
  dsimp only at h
  split at h
  · cases h
  cases f with
  | gender => exact absurd rfl hf
  | editorId => exact (Except.ok.inj h).symm
  | form kind | plugin => exact hforms h

/-- What each clause is read as, but for the sex that it asks for. -/
theorem filter_not_isGender {read : List ClauseFilter}
    (h : List.Forall₂ (fun k filter => (filter.isGender = true ↔ k.field = .gender) ∧
      (k.field ≠ .gender → filter = k.filter c)) ks read) :
    read.filter (fun filter => !filter.isGender) =
      (ks.filter fun k => k.field != .gender).map (FilterClause.filter c) := by
  induction h with
  | nil => rfl
  | @cons k filter ks read hfirst _ ih =>
    rw [List.filter_cons, List.filter_cons, ih]
    by_cases hgender : k.field = .gender
    · rw [if_neg (by simp [hfirst.1.2 hgender]), if_neg (by simp [hgender])]
    · have hnot : filter.isGender = false := by
        rw [← Bool.not_eq_true, hfirst.1]
        exact hgender
      rw [if_pos (by simp [hnot]), if_pos (by simpa using hgender), List.map_cons,
        hfirst.2 hgender]

theorem filter_ne_gender {p : Field → Bool} (hp : p .gender = false) (ks : List FilterClause) :
    (ks.filter fun k => k.field != .gender).filter (fun k => p k.field) =
      ks.filter fun k => p k.field := by
  rw [List.filter_filter]
  refine List.filter_congr fun k _ => ?_
  by_cases hgender : k.field = .gender
  · rw [hgender, hp]
    rfl
  · simp [hgender]

section Line

variable {kvs : List (Text × Text)} (h : kvs.foldlM (addKeyValue c) .empty = .ok filters)
include h

/-- The criteria of a line are those of its clauses, joined. -/
theorem criteria_of_foldlM :
    filters.strings = ((kvs.filterMap filterClause?).filter fun k => k.field.isText).foldl
        (fun s k => s.and k.strings) .empty ∧
      filters.forms = ((kvs.filterMap filterClause?).filter fun k => k.field.isReference).foldl
        (fun s k => s.and (k.forms c)) .empty := by
  have hclause : ∀ key value f mode filter, readKey? key = some (f, mode) →
      readClause c f mode key value = .ok filter →
      (filter.isGender = true ↔ f = .gender) ∧
        (f ≠ .gender → filter = FilterClause.filter c ⟨f, mode, Text.pieces ',' value⟩) :=
    fun _ _ _ _ _ hkey hread =>
      ⟨(isReadAs_readClause hkey hread).isGender_iff, fun hf => filter_of_readClause hf hread⟩
  obtain ⟨read, rfl, hread, -⟩ := forall₂_of_foldlM (R := fun k filter =>
    (filter.isGender = true ↔ k.field = .gender) ∧ (k.field ≠ .gender → filter = k.filter c))
    hclause h
  have hjoined := forAnySex_foldl_addClause read .empty
  rw [filter_not_isGender hread] at hjoined
  have hstrings := congrArg Filters.strings hjoined
  have hforms := congrArg Filters.forms hjoined
  rw [FilterClause.strings_foldl_addClause, filter_ne_gender rfl] at hstrings
  rw [FilterClause.forms_foldl_addClause, filter_ne_gender rfl] at hforms
  exact ⟨hstrings, hforms⟩

theorem resolved_of_foldlM : ∀ k ∈ kvs.filterMap filterClause?, k.resolved c ≠ [] := by
  obtain ⟨read, -, hread, -⟩ := readings_of_foldlM h
  intro k hk
  obtain ⟨filter, -, hfilter⟩ := exists_of_mem_left hread hk
  exact hfilter.resolved_ne_nil

/-- The filters of a line list its clauses over texts and those over references. -/
theorem listsClauses_of_foldlM :
    ListsClauses stringValue filters.strings
        (((kvs.filterMap filterClause?).filter fun k => k.field.isText).map
          (FilterClause.written c)) ∧
      ListsClauses formValue filters.forms
        (((kvs.filterMap filterClause?).filter fun k => k.field.isReference).map
          (FilterClause.written c)) := by
  obtain ⟨hstrings, hforms⟩ := criteria_of_foldlM h
  have hresolved := resolved_of_foldlM h
  rw [hstrings, hforms]
  refine ⟨listsClauses_foldl_and fun k hk => ?_, listsClauses_foldl_and fun k hk => ?_⟩
  · obtain ⟨hk, htext⟩ := List.mem_filter.1 hk
    have hne := FilterClause.written_ne_nil (hresolved k hk)
    rw [FilterClause.written_of_isText htext] at hne ⊢
    exact lists_strings htext hne
  · obtain ⟨hk, href⟩ := List.mem_filter.1 hk
    exact lists_forms_written href (hresolved k hk)

/-- The clauses of a line are separate where its keys and values are told apart. -/
theorem areSeparate_of_foldlM (honce : OneCaseEach ((kvs.map Prod.fst).filter isFilterKey))
    (hdisjoint : ∀ k ∈ kvs.filterMap filterClause?, ∀ k' ∈ kvs.filterMap filterClause?,
      k.field = k'.field → k.mode = .plain → k'.mode = .anyOf →
      ∀ v ∈ k.resolved c, v ∉ k'.resolved c) :
    AreSeparate ((kvs.filterMap filterClause?).map (FilterClause.written c)) where
  ne_nil := List.forall_mem_map.2 fun k hk =>
    FilterClause.written_ne_nil (resolved_of_foldlM h k hk)
  once := by
    rw [List.map_map]
    exact nodup_filterClauses honce
  choice := by
    refine List.forall_mem_map.2 fun k hk hmode => ?_
    obtain ⟨kv, -, hclause⟩ := List.mem_filterMap.1 hk
    exact (readKey?_iff.1 (readKey?_of_filterClause? hclause)).2.1 hmode
  disjoint := by
    refine List.forall_mem_map.2 fun k hk => List.forall_mem_map.2 fun k' hk' => ?_
    intro hfield hplain hanyOf t ht ht'
    obtain ⟨v, hv, rfl⟩ := List.mem_map.1 ht
    obtain ⟨w, hw, heq⟩ := List.mem_map.1 ht'
    rw [eq_of_literal hw hv hfield.symm heq] at hw
    exact hdisjoint k hk k' hk' hfield hplain hanyOf v hv hw

end Line

/-- Rules of a SkyPatcher line can be written as SkyPatcher lines, if no filter key occurs twice in
it, in whatever case, and no field requires a value that it offers a choice of as well. -/
theorem exists_render_eq_of_readLine {rules : List Rule} (h : readLine c n t = .rules rules)
    (honce : OneCaseEach (((keyValues t).map Prod.fst).filter isFilterKey))
    (hdisjoint : ∀ k ∈ (keyValues t).filterMap filterClause?,
      ∀ k' ∈ (keyValues t).filterMap filterClause?,
      k.field = k'.field → k.mode = .plain → k'.mode = .anyOf →
      ∀ v ∈ k.resolved c, v ∉ k'.resolved c) :
    ∀ r ∈ rules, ∃ line, render r = .ok line := by
  obtain ⟨kvs, filters, hsplit, hfilters, hrules⟩ := rules_of_readLine h
  have hkvs : keyValues t = kvs := by simp [keyValues, hsplit, Except.toOption]
  rw [hkvs] at honce hdisjoint
  obtain ⟨hstrings, hforms⟩ := listsClauses_of_foldlM hfilters
  have hseparate := areSeparate_of_foldlM hfilters honce hdisjoint
  have hreferences : ∀ k ∈ ((kvs.filterMap filterClause?).filter fun k => k.field.isReference).map
      (FilterClause.written c), k.field ≠ .editorId := by
    refine List.forall_mem_map.2 fun k hk hfield => ?_
    have href := (List.mem_filter.1 hk).2
    have hfield : k.field = .editorId := hfield
    rw [hfield] at href
    cases href
  obtain ⟨l, hl⟩ := exists_clauseLists_eq hstrings hforms
    (hseparate.sublist (List.filter_sublist.map _)) (hseparate.sublist (List.filter_sublist.map _))
    hreferences
  intro r hr
  obtain ⟨slot, literal, ref, -, rfl⟩ := hrules r hr
  obtain ⟨read, rfl, -⟩ := readings_of_foldlM hfilters
  refine ⟨_, IsRendered.render_eq ⟨rfl, rfl, levels_foldl_addClause read .empty, ?_, hl, rfl⟩ rfl⟩
  rw [traits_foldl_addClause]
  rfl

def sentriesLine : Text :=
  "filterByFactionsOr=Guards,Nobles,Ghosts,Guards:filterByEditorIdContains=Captain:".toList ++
    "filterByEditorIdContainsOr=Old,Young:filterByGender=Female:".toList ++
    "outfitDefault=Parade:outfitSleep=Parade".toList

/-- The faction that nobody knows is left out. -/
def sentriesRule (slot : Slot) : Rule where
  dialect := .skyPatcher
  lineNumber := 7
  raw := sentriesLine
  target := .outfit slot (.form .outfit ⟨"Skyrim.esm", 3⟩ (some "Parade"))
  filters := { Filters.empty with
    strings := ⟨[[⟨"Captain", false, true⟩, ⟨"Old", false, true⟩],
      [⟨"Captain", false, true⟩, ⟨"Young", false, true⟩]]⟩
    forms := ⟨[[⟨.form .faction ⟨"Skyrim.esm", 1⟩ (some "Guards"), false, false⟩],
      [⟨.form .faction ⟨"Skyrim.esm", 2⟩ (some "Nobles"), false, false⟩],
      [⟨.form .faction ⟨"Skyrim.esm", 1⟩ (some "Guards"), false, false⟩]]⟩
    traits := { Traits.Wanted.empty with female := some true } }
  chance := none
  extra := none

/-- Two fields have a choice, one of them with a value twice and one beside a value that is
required. -/
theorem sentries_representable :
    OneCaseEach (((keyValues sentriesLine).map Prod.fst).filter isFilterKey) ∧
      readLine court 7 sentriesLine = .rules [sentriesRule .default, sentriesRule .sleep] ∧
      ∀ slot, ∃ line, render (sentriesRule slot) = .ok line := by
  have honce : OneCaseEach (((keyValues sentriesLine).map Prod.fst).filter isFilterKey) := by
    rw [OneCaseEach]
    decide +kernel
  have hread : readLine court 7 sentriesLine =
      .rules [sentriesRule .default, sentriesRule .sleep] := by
    decide +kernel
  have hrender := exists_render_eq_of_readLine hread honce (by decide +kernel)
  refine ⟨honce, hread, fun slot => hrender (sentriesRule slot) ?_⟩
  cases slot <;> simp

end SkyPatcher
end Wardrobe
