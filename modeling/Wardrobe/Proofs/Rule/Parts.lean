import Mathlib.Data.List.TakeWhile
import Wardrobe.Proofs.SkyPatcher.Line
import Wardrobe.Proofs.Spid.Line
/-
The parts of a rule that was read from a line of either format.

What a rule refers to the catalog has given out, and what it looks for in texts are trimmed pieces
of the line, which has no comment in it any more.
-/

namespace Wardrobe

variable {c : Catalog} {dialect : Dialect} {n : Nat} {line t : Text} {rules : List Rule}

/-! ## Lines without comments -/

theorem semicolon_not_mem_withoutComment (line : Text) :
    ';' ∉ Text.trim (withoutComment line) := by
  intro hmem
  have hmem' := Text.trim_subset _ hmem
  rw [withoutComment] at hmem'
  split at hmem'
  · cases hmem'
  · have hkept := List.mem_takeWhile_imp hmem'
    simp at hkept

/-- A trimmed line without a comment that begins with a letter is read as it stands. -/
theorem readRuleLine_of_isPiece (hpiece : Text.IsPiece line) (hcomment : ';' ∉ line)
    (hhead : ∃ c rest, line = c :: rest ∧ c.isAlpha = true) :
    readRuleLine c dialect n line =
      match dialect with
      | .spid => Spid.readLine c n line
      | .skyPatcher => SkyPatcher.readLine c n line := by
  obtain ⟨first, rest, hline, halpha⟩ := hhead
  have hne : first ≠ '#' ∧ first ≠ '[' := by
    constructor <;> rintro rfl <;> cases halpha
  have hwithout : withoutComment line = line := by
    rw [withoutComment]
    simp only [hpiece.trimStart_eq]
    rw [if_neg (by simp [hline, hne.1]), List.takeWhile_eq_self_iff]
    intro ch hch
    simpa using fun heq : ch = ';' => hcomment (heq ▸ hch)
  have hheader : isSectionHeader line = false := by
    simp [isSectionHeader, hline, hne.2]
  have hempty : line.isEmpty = false := by simp [hline]
  cases dialect <;>
    simp only [readRuleLine, hwithout, hpiece.trim_eq, hempty, hheader, Bool.false_eq_true,
      if_false]

/-! ## The parts of a rule -/

/-- The plugin that a reference speaks of. -/
def Reference.pluginName : Reference → Text
  | .form _ key _ => key.plugin
  | .plugin name => name

/-- What a rule refers to: the outfit that it sets and what its filters look for. -/
def Rule.references (r : Rule) : List Reference :=
  (match r.target with
    | .outfit _ ref => [ref]
    | .keyword _ => []) ++ r.filters.forms.parts.map (·.value)

/-- References are known, and texts are trimmed and without the mark of a comment. -/
structure Filters.HaveKnownParts (c : Catalog) (f : Filters) : Prop where
  forms : ∀ p ∈ f.forms.parts, c.Knows p.value
  strings : ∀ p ∈ f.strings.parts, Text.IsPiece p.value ∧ ';' ∉ p.value

namespace SkyPatcher

variable {f : Field} {mode : Mode} {key value : Text}

theorem mem_of_mem_parts_criterionOf {parts : List (Criterion.Part α)} {p : Criterion.Part α}
    (h : p ∈ (criterionOf f mode parts).parts) : p ∈ parts := by
  cases mode with
  | excluded => exact Criterion.mem_of_mem_parts_allOf h
  | anyOf => exact Criterion.mem_of_mem_parts_anyOf h
  | plain =>
    rw [criterionOf] at h
    split at h
    · exact Criterion.mem_of_mem_parts_allOf h
    · exact Criterion.mem_of_mem_parts_anyOf h

theorem knows_of_resolveValue {ref : Reference} (h : resolveValue c f value = some ref) :
    c.Knows ref := by
  rw [resolveValue.eq_def] at h
  split at h
  · exact Catalog.knows_of_resolveBy h
  · exact Catalog.knows_of_resolveBy (Option.filter_eq_some_iff.1 h).1

/-- The parts of a clause are as they have to be. -/
theorem haveKnownParts_readClause {before : Filters} {filter : ClauseFilter}
    (hbefore : before.HaveKnownParts c) (hcomment : ';' ∉ value)
    (h : readClause c f mode key value = .ok filter) :
    (addClause before filter).HaveKnownParts c := by
  rcases readClause_cases h with ⟨female, rfl⟩ | rfl | ⟨refs, hrefs, rfl⟩
  · exact { hbefore with }
  · refine { hbefore with strings := fun p hp => ?_ }
    rcases Criterion.mem_parts_and hp with hp | hp
    · exact hbefore.strings p hp
    · obtain ⟨v, hv, rfl⟩ := List.mem_map.1 (mem_of_mem_parts_criterionOf hp)
      obtain ⟨hpiece, -, hsub⟩ := Text.mem_pieces hv
      exact ⟨hpiece, fun hc => hcomment (hsub hc)⟩
  · refine { hbefore with forms := fun p hp => ?_ }
    rcases Criterion.mem_parts_and hp with hp | hp
    · exact hbefore.forms p hp
    · obtain ⟨ref, href, rfl⟩ := List.mem_map.1 (mem_of_mem_parts_criterionOf hp)
      obtain ⟨v, hv⟩ := hrefs ref href
      exact knows_of_resolveValue hv

theorem value_subset_of_splitClause {clause : Text} {kv : Text × Text}
    (h : splitClause clause = .ok kv) : kv.2 ⊆ clause := by
  rw [splitClause] at h
  split at h
  next key value heq =>
    obtain rfl := Except.ok.inj h
    have hvalue : value ⊆ clause := by
      rw [Text.eq_of_cutAt heq]
      exact List.Subset.trans (List.subset_cons_self _ _) (List.subset_append_right _ _)
    exact List.Subset.trans (Text.trim_subset value) hvalue
  next => cases h

/-- A value comes from the line, without the marks between clauses. -/
theorem value_of_splitClauses {kvs : List (Text × Text)} (h : splitClauses t = .ok kvs) :
    ∀ kv ∈ kvs, kv.2 ⊆ t ∧ ':' ∉ kv.2 := by
  intro kv hkv
  obtain ⟨clause, hclause, hcut⟩ := mem_of_mapM_eq_ok h kv hkv
  obtain ⟨-, hcolon, hsub⟩ := Text.mem_pieces hclause
  have hvalue := value_subset_of_splitClause hcut
  exact ⟨List.Subset.trans hvalue hsub, fun hc => hcolon (hvalue hc)⟩

theorem haveKnownParts_readLine (hcomment : ';' ∉ t) (h : readLine c n t = .rules rules) :
    ∀ r ∈ rules, r.filters.HaveKnownParts c := by
  obtain ⟨hsplit, filters, hfilters, hrules⟩ := filters_of_readLine h
  intro r hr
  rw [hrules r hr]
  have hempty : Filters.empty.HaveKnownParts c :=
    ⟨fun p hp => absurd hp List.not_mem_nil, fun p hp => absurd hp List.not_mem_nil⟩
  refine of_foldlM_addKeyValue hempty (fun kv hkv _ _ _ _ hbefore => ?_) hfilters
  exact haveKnownParts_readClause hbefore fun hc =>
    hcomment ((value_of_splitClauses hsplit kv hkv).1 hc)

theorem knows_of_readLine (h : readLine c n t = .rules rules) :
    ∀ r ∈ rules, ∃ slot ref, r.target = .outfit slot ref ∧ c.Knows ref := by
  obtain ⟨_, _, -, -, hrules⟩ := rules_of_readLine h
  intro r hr
  obtain ⟨slot, literal, ref, hresolve, rfl⟩ := hrules r hr
  exact ⟨slot, ref, rfl, Catalog.knows_of_resolveBy hresolve⟩

end SkyPatcher

theorem Spid.IsReadFrom.haveKnownParts {r : Rule} (h : Spid.IsReadFrom c n t r)
    (hcomment : ';' ∉ t) : r.filters.HaveKnownParts c where
  forms p hp := by
    obtain ⟨e, he, hp⟩ := List.mem_flatten.1 hp
    exact Spid.knows_of_isFormPart ((h.forms e he).2 p hp)
  strings p hp := by
    obtain ⟨e, he, hp⟩ := List.mem_flatten.1 hp
    obtain ⟨field, hfield, hpart⟩ := (h.strings e he).2 p hp
    exact ⟨hpart.isPiece, fun hc => hcomment (hfield.subset (hpart.subset hc))⟩

theorem Spid.IsReadFrom.knows {r : Rule} (h : Spid.IsReadFrom c n t r) {slot : Slot}
    {ref : Reference} (htarget : r.target = .outfit slot ref) : c.Knows ref := by
  obtain ⟨type, literal, -, hread⟩ := h.target
  rw [htarget] at hread
  cases type with
  | keyword => cases hread
  | outfit own =>
    rw [readTarget] at hread
    split at hread
    next ref' href =>
      obtain ⟨-, rfl⟩ := Target.outfit.inj (Except.ok.inj hread)
      exact Catalog.knows_of_resolveBy href
    next => cases hread

/-- The parts of a rule, and what it sets. -/
theorem haveKnownParts_readRuleLine (h : readRuleLine c dialect n line = .rules rules) :
    ∀ r ∈ rules, r.filters.HaveKnownParts c ∧
      ∀ slot ref, r.target = .outfit slot ref → c.Knows ref := by
  have hcomment := semicolon_not_mem_withoutComment line
  have hread := readRuleLine_eq_rules h
  intro r hr
  cases dialect with
  | spid =>
    have hfrom := Spid.isReadFrom_readLine hread r hr
    exact ⟨hfrom.haveKnownParts hcomment, fun slot ref => hfrom.knows⟩
  | skyPatcher =>
    obtain ⟨slot, ref, htarget, hknows⟩ := SkyPatcher.knows_of_readLine hread r hr
    refine ⟨SkyPatcher.haveKnownParts_readLine hcomment hread r hr, fun slot' ref' htarget' => ?_⟩
    obtain ⟨-, rfl⟩ := Target.outfit.inj (htarget.symm.trans htarget')
    exact hknows

/-! ## What clauses are made of -/

/-- What a clause looks for in texts it looks for inside of them, and its references are no
wildcards. -/
structure Filters.AreOfClauses (f : Filters) : Prop where
  strings : f.strings.ConsistsOf fun p => p.wildcard = true ∧ ',' ∉ p.value
  forms : f.forms.ConsistsOf fun p => p.wildcard = false

namespace SkyPatcher

variable {f : Field} {mode : Mode} {key value : Text} {before : Filters} {r : Rule}

theorem consistsOf_criterionOf {parts : List (Criterion.Part α)} {sort : Criterion.Part α → Prop}
    (h : ∀ p ∈ parts, sort p) : (criterionOf f mode parts).ConsistsOf sort := by
  cases mode with
  | excluded => exact Criterion.consistsOf_allOf h
  | anyOf => exact Criterion.consistsOf_anyOf h
  | plain =>
    rw [criterionOf]
    split
    · exact Criterion.consistsOf_allOf h
    · exact Criterion.consistsOf_anyOf h

theorem areOfClauses_readClause {filter : ClauseFilter} (hbefore : before.AreOfClauses)
    (h : readClause c f mode key value = .ok filter) : (addClause before filter).AreOfClauses := by
  rcases readClause_cases h with ⟨female, rfl⟩ | rfl | ⟨refs, -, rfl⟩
  · exact { hbefore with }
  · refine { hbefore with strings := hbefore.strings.and (consistsOf_criterionOf ?_) }
    rw [List.forall_mem_map]
    exact fun v hv => ⟨rfl, (Text.mem_pieces hv).2.1⟩
  · refine { hbefore with forms := hbefore.forms.and (consistsOf_criterionOf ?_) }
    rw [List.forall_mem_map]
    exact fun _ _ => rfl

theorem areOfClauses_empty : Filters.empty.AreOfClauses :=
  ⟨fun _ he => absurd he List.not_mem_nil, fun _ he => absurd he List.not_mem_nil⟩

/-- What a rule consists of that was read from a line. -/
structure IsOfLine (c : Catalog) (r : Rule) : Prop where
  target : ∃ slot ref, r.target = .outfit slot ref
  areOfClauses : r.filters.AreOfClauses
  haveKnownParts : r.filters.HaveKnownParts c
  chance : r.chance = none
  extra : r.extra = none

theorem isOfLine_readRuleLine (h : readRuleLine c .skyPatcher n line = .rules rules)
    (hr : r ∈ rules) : IsOfLine c r := by
  obtain ⟨hparts, -⟩ := haveKnownParts_readRuleLine h r hr
  obtain ⟨_, filters, -, hfilters, hrules⟩ := rules_of_readLine (readRuleLine_eq_rules h)
  obtain ⟨slot, literal, ref, -, rfl⟩ := hrules r hr
  have hclauses : filters.AreOfClauses :=
    of_foldlM_addKeyValue areOfClauses_empty
      (fun _ _ _ _ _ _ hbefore => areOfClauses_readClause hbefore) hfilters
  exact ⟨⟨slot, ref, rfl⟩, hclauses, hparts, rfl, rfl⟩

end SkyPatcher
end Wardrobe
