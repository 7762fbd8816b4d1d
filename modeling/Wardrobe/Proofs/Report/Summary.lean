import Wardrobe.Proofs.Pass
import Wardrobe.Proofs.Resolution
import Wardrobe.Report.Summary
/-
What the summary of a pass says about the files and rules that the pass was over.

Files, excluded rules and tags are counted and numbered in different stages and put together by
their positions afterwards.  Here the positions are followed back: a distribution to the rule that
it comes from, an excluded position to the keyword rule that stands there, and the number of tags to
the characters that have them.
-/

namespace Wardrobe

variable {game : Game} {files : List RuleFile} {skipped : List UnreadableFile} {slot : Slot}
  {cancelled : Bool} {p : Population} {tags : Tags} {i n : Nat} {t : Text}

/-! ## Tags -/

namespace Tags

/-- The characters, by their positions, with the tags that they have. -/
def pairs (tags : Tags) : List (Nat × Text) :=
  (List.range tags.size).flatMap fun i => (tags.of i).map fun t => (i, t)

theorem of_eq_nil (h : tags.size ≤ i) : tags.of i = [] := by
  rw [of, Array.getD_eq_getD_getElem?, Array.getElem?_eq_none h]
  rfl

theorem mem_pairs : (i, t) ∈ tags.pairs ↔ t ∈ tags.of i := by
  simp only [pairs, List.mem_flatMap, List.mem_range, List.mem_map, Prod.mk.injEq]
  constructor
  · rintro ⟨j, -, tag, htag, rfl, rfl⟩
    exact htag
  · intro ht
    refine ⟨i, ?_, t, ht, rfl, rfl⟩
    by_contra hsize
    rw [of_eq_nil (Nat.le_of_not_lt hsize)] at ht
    cases ht

theorem nodup_pairs (h : ∀ i, (tags.of i).Nodup) : tags.pairs.Nodup := by
  refine List.nodup_flatMap.2 ⟨fun i _ => (h i).map fun _ _ heq => (Prod.mk.inj heq).2, ?_⟩
  refine List.nodup_range.imp fun hne x hx hy => ?_
  obtain ⟨_, -, rfl⟩ := List.mem_map.1 hx
  obtain ⟨_, -, heq⟩ := List.mem_map.1 hy
  exact hne (Prod.mk.inj heq).1.symm

theorem length_pairs (tags : Tags) : tags.pairs.length = tags.count := by
  have hof : (List.range tags.size).map tags.of = tags.perCharacter.toList := by
    refine List.ext_getElem (by simp [size]) fun i hi hi' => ?_
    have hlt : i < tags.perCharacter.size := hi'
    simp [of, Array.getElem?_eq_getElem hlt]
  rw [count, ← hof, pairs, List.length_flatMap, List.length_flatten, List.map_map]
  simp only [List.length_map, Function.comp_def]

end Tags

/-! ## Distributions -/

/-- What a distribution tells is what stands in the summary of its file and in its rule. -/
structure Distribution.IsListedAs (d : Distribution) (slot : Slot) (file : FileSummary) (r : Rule) :
    Prop where
  processingOrder : d.processingOrder = file.processingOrder
  path : d.sourcePath = some file.path
  fileName : d.fileName = file.fileName
  dialect : d.dialect = some file.dialect
  tier : d.tier = file.dialect.tier
  lineNumber : d.lineNumber = some r.lineNumber
  raw : d.raw = r.raw
  outfit : ∃ kind, r.target = .outfit slot (.form kind d.outfit d.outfitEditorId)
  chance : d.chance = r.chance

theorem mem_distributionsOn_of_mem_fromRules {placed : List (RuleFile × Nat)} {a : Assignment}
    {d : Distribution} (ha : assignmentAt? p tags slot placed i = some a) (hd : d ∈ a.fromRules) :
    d ∈ distributionsOn p tags slot placed i := by
  obtain ⟨npc, hdistributions⟩ := distributions_of_assignmentAt? ha
  obtain ⟨hmem, hrule⟩ := List.mem_filter.1 hd
  rw [hdistributions] at hmem
  refine (List.mem_append.1 hmem).resolve_left fun hown => ?_
  obtain ⟨link, -, rfl⟩ := List.mem_map.1 hown
  cases hrule

theorem isContested_of_assignmentAt? {placed : List (RuleFile × Nat)} {a : Assignment}
    (ha : assignmentAt? p tags slot placed i = some a) :
    a.isContested = decide (1 < a.fromRules.length) := by
  obtain ⟨c, -, ha⟩ := Option.bind_eq_some_iff.1 ha
  rw [assignmentOf?] at ha
  split at ha
  · cases ha
  · obtain rfl := Option.some.inj ha
    rfl

theorem getElem?_summaries (files : List RuleFile) (n : Nat) :
    (files.zipIdx.map fun (f, i) => f.summary (i + 1))[n]? =
      files[n]?.map fun f => f.summary (n + 1) := by
  rw [List.getElem?_map, List.getElem?_zipIdx, Option.map_map, Nat.zero_add]
  rfl

/-- A distribution on a character is listed under the position of its file. -/
theorem isListedAs_of_mem_distributionsOn {d : Distribution}
    (hparsed : ∀ f ∈ files, ∃ c, f.IsParsed c)
    (hd : d ∈ distributionsOn p tags slot files.zipIdx i) :
    ∃ (n : Nat) (file : RuleFile), files[n]? = some file ∧
      ∃ r ∈ file.rules, d.IsListedAs slot (file.summary (n + 1)) r := by
  obtain ⟨⟨file, n⟩, hplaced, r, hr, hslot, hof⟩ := mem_distributionsOn.1 hd
  have hfile : files[n]? = some file := List.mem_zipIdx_iff_getElem?.1 hplaced
  obtain ⟨c, hc⟩ := hparsed file (List.mem_of_getElem? hfile)
  have hdialect : r.dialect = file.dialect := (hc.isReadAs hr).dialect
  obtain ⟨own, kind, key, editorId, htarget, -, rfl⟩ := distributionOf?_eq_some.1 hof
  have hown : own = slot := by simpa [Rule.setsSlot, htarget, Target.slot?] using hslot
  exact ⟨n, file, hfile, r, hr, rfl, rfl, rfl, congrArg some hdialect,
    congrArg Dialect.tier hdialect, rfl, rfl, ⟨kind, hown ▸ htarget⟩, rfl⟩

/-! ## Rules left out -/

theorem ReplayPlan.lt_length_of_mem_excluded {rules : List Rule}
    (h : i ∈ (ReplayPlan.ofRules rules).excluded) : i < rules.length := by
  have hnode := (List.mem_filter.1 h).1
  rwa [List.mem_range, size_dependencies] at hnode

/-- Each position of the plan's excluded rules is that of a keyword rule, so each has its entry. -/
theorem Pass.forall₂_excludedRules {run : Pass} (h : run.plan = .ofRules (tagRules run.files)) :
    List.Forall₂ (fun i entry => ∃ r, (tagRules run.files)[i]? = some r ∧
      entry = ExcludedRule.mk r.lineNumber r.raw) run.plan.excluded run.excludedRules := by
  have hlt : ∀ i ∈ run.plan.excluded, i < (tagRules run.files).length := by
    rw [h]
    exact fun i hi => ReplayPlan.lt_length_of_mem_excluded hi
  rw [excludedRules]
  generalize run.plan.excluded = positions at hlt ⊢
  induction positions with
  | nil => exact .nil
  | cons i rest ih =>
    have hi := hlt i List.mem_cons_self
    have hrule : (tagRules run.files)[i]? = some (tagRules run.files)[i] :=
      List.getElem?_eq_getElem hi
    rw [List.filterMap_cons_some (by rw [List.getElem?_toArray, hrule]; rfl)]
    exact .cons ⟨_, hrule, rfl⟩ (ih fun j hj => hlt j (List.mem_cons_of_mem _ hj))

theorem Pass.plan_overFiles
    (h : (overFiles game files skipped slot cancelled).status = .completed) :
    (overFiles game files skipped slot cancelled).plan = .ofRules (tagRules files) := by
  rw [overFiles] at h ⊢
  dsimp only at h ⊢
  split at h
  · cases h
  · split at h
    · cases h
    · exact Keyword.plan_replayAll _ _ _

/-! ## The whole summary -/

/-- The summary of a completed pass over files that were read agrees with the pass.  Each
distribution of a rule stands under the position of its file and tells what the rule says; the
diagnostics are those of the listed files; each excluded position has an entry, with the line of the
keyword rule that stands there; contested are the characters on whom several rules put something;
and the tags are counted once for each character that has them. -/
theorem Pass.summary_agrees (hparsed : ∀ f ∈ files, ∃ c, f.IsParsed c)
    (h : (overFiles game files skipped slot cancelled).status = .completed) :
    let run := overFiles game files skipped slot cancelled
    (∀ a ∈ run.summary.assignments, ∀ d ∈ a.fromRules,
      ∃ (n : Nat) (file : RuleFile) (entry : FileSummary),
        d.processingOrder = n + 1 ∧ files[n]? = some file ∧ run.summary.files[n]? = some entry ∧
        ∃ r ∈ file.rules, d.IsListedAs slot entry r) ∧
    run.summary.diagnosticCount = (run.summary.files.map (·.diagnostics.length)).sum ∧
    List.Forall₂ (fun i entry => ∃ r, (tagRules files)[i]? = some r ∧
      entry = ExcludedRule.mk r.lineNumber r.raw) run.plan.excluded
        run.summary.excludedKeywordRules ∧
    run.summary.contestedCount =
      (run.summary.assignments.filter fun a => 1 < a.fromRules.length).length ∧
    ∃ pairs : List (Nat × Text), pairs.Nodup ∧ (∀ i t, (i, t) ∈ pairs ↔ t ∈ run.tags.of i) ∧
      run.summary.virtualTagAssignments = pairs.length := by
  intro run
  obtain ⟨hfiles, htags, hresolution⟩ : run.files = files ∧ _ := completed_overFiles h
  have hassignments : run.summary.assignments =
      (Resolution.ofFiles game.population files (finalTags game files) slot false).results :=
    congrArg Resolution.results hresolution
  refine ⟨fun a ha d hd => ?_, ?_, ?_, ?_, run.tags.pairs, ?_, fun i t => Tags.mem_pairs,
    (Tags.length_pairs _).symm⟩
  · obtain ⟨i, hi⟩ := mem_results.1 (hassignments ▸ ha)
    obtain ⟨n, file, hfile, r, hr, hlisted⟩ :=
      isListedAs_of_mem_distributionsOn hparsed (mem_distributionsOn_of_mem_fromRules hi hd)
    refine ⟨n, file, file.summary (n + 1), hlisted.processingOrder, hfile, ?_, r, hr, hlisted⟩
    rw [summary, getElem?_summaries, hfiles, hfile]
    rfl
  · rw [summary, diagnosticCount, List.length_flatMap, List.map_map]
    conv_lhs => rw [← List.zipIdx_map_fst 0 run.files, List.map_map]
    rfl
  · have hplan : run.plan = .ofRules (tagRules run.files) := by
      rw [hfiles]
      exact plan_overFiles h
    have hexcluded := forall₂_excludedRules hplan
    rwa [hfiles] at hexcluded
  · show (run.resolution.results.filter (·.isContested)).length = _
    refine congrArg List.length (List.filter_congr fun a ha => ?_)
    have hresult : a ∈ run.summary.assignments := ha
    obtain ⟨i, hi⟩ := mem_results.1 (hassignments ▸ hresult)
    exact isContested_of_assignmentAt? hi
  · rw [htags]
    exact Tags.nodup_pairs fun i => Keyword.nodup_tagsBefore _ _ _ _

/-! One file has a rule that depends on itself and a line without a target.  The other one dresses
both soldiers, one of them by a tag of the first file. -/

def rosters : List RuleFile :=
  [.ofText wardrobe "Daily_DISTR.ini" .spid
      "Outfit = Uniform|Hadvar\nKeyword = Looped|Looped\nOutfit =\nKeyword = OnDuty|*alo",
    .ofText wardrobe "Feast_DISTR.ini" .spid "Outfit = Parade|*adv,OnDuty"]

theorem rosters_summary :
    let run := Pass.overFiles ⟨.ofNpcs garrison, wardrobe⟩ rosters [] .default false
    (∀ f ∈ rosters, ∃ c, f.IsParsed c) ∧ run.status = .completed ∧
      run.summary.excludedKeywordRules = [⟨2, "Keyword = Looped|Looped"⟩] ∧
      run.summary.contestedCount = 1 ∧ run.summary.virtualTagAssignments = 1 ∧
      run.summary.diagnosticCount = (run.summary.files.map (·.diagnostics.length)).sum ∧
      ∃ a ∈ run.summary.assignments, ∃ d ∈ a.fromRules, ∃ entry r,
        run.summary.files[1]? = some entry ∧ d.IsListedAs .default entry r := by
  intro run
  have hparsed : ∀ f ∈ rosters, ∃ c, f.IsParsed c := by
    simp only [rosters, List.forall_mem_cons, List.not_mem_nil, false_imp_iff, implies_true,
      and_true]
    exact ⟨⟨_, RuleFile.isParsed_ofText _ _ _ _⟩, _, RuleFile.isParsed_ofText _ _ _ _⟩
  have hstatus : run.status = .completed := rfl
  obtain ⟨hlisted, hdiagnostics, -⟩ := Pass.summary_agrees hparsed hstatus
  have hlast : ∃ a ∈ run.summary.assignments, ∃ d ∈ a.fromRules, d.processingOrder = 2 := by
    decide +kernel
  obtain ⟨a, ha, d, hd, horder⟩ := hlast
  obtain ⟨n, file, entry, hn, -, hentry, r, -, hr⟩ := hlisted a ha d hd
  obtain rfl : n = 1 := by omega
  exact ⟨hparsed, hstatus, by decide +kernel, by decide +kernel, by decide +kernel, hdiagnostics,
    a, ha, d, hd, entry, r, hentry, hr⟩

end Wardrobe
