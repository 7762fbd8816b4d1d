import Wardrobe.Proofs.Conflict.Takeover
import Wardrobe.Proofs.Rule.Parts
/-
Conflicts with files of a higher tier, which no name of the proposed file wins.

Only lines of clauses can be outranked, and these assign no tags.  So under any name the file stands
somewhere before the one that it is in conflict with, and all that changes in what this one puts on
a character is how many files were applied before it.
-/

namespace Wardrobe

variable {game : Game} {files before after : List RuleFile} {skipped : List UnreadableFile}
  {slot : Slot} {cancelled : Bool} {f : RuleFile} {tags : Tags} {p : Population} {i : Nat}
  {c : Catalog} {settings : Settings} {dialect : Dialect} {name fileName text : Text} {run : Pass}
  {r : Rule} {d w : Distribution}

/-! ## Tiers -/

theorem tier_le_of_comparePlace {g : RuleFile} (h : (RuleFile.comparePlace g f).isLE) :
    g.dialect.tier ≤ f.dialect.tier := by
  by_contra hlt
  have hgt : RuleFile.comparePlace g f = .gt := by
    rw [RuleFile.comparePlace, RuleFile.compareKeys, RuleFile.loadKey, RuleFile.loadKey,
      Nat.compare_eq_gt.2 (Nat.lt_of_not_le hlt)]
    rfl
  rw [hgt] at h
  cases h

theorem tier_of_mem_distributionsOn (hparsed : ∀ g ∈ files, g.IsParsed c)
    (h : d ∈ distributionsOn p tags slot files.zipIdx i) :
    ∃ g ∈ files, d.tier = g.dialect.tier := by
  obtain ⟨g, hg, hd⟩ := List.mem_flatMap.1 h
  have hmem : g.1 ∈ files := List.fst_mem_of_mem_zipIdx hg
  exact ⟨g.1, hmem, congrArg Prod.fst (loadKey_of_mem_distributionsOfFile (hparsed g.1 hmem) hd)⟩

/-- What outranks a file does not come from before it. -/
theorem not_mem_distributionsOn_of_tier (hparsed : ∀ g ∈ before, g.IsParsed c)
    (hbefore : ∀ g ∈ before, (RuleFile.comparePlace g f).isLE) (h : f.dialect.tier < d.tier) :
    d ∉ distributionsOn p tags slot before.zipIdx i := by
  intro hmem
  obtain ⟨g, hg, htier⟩ := tier_of_mem_distributionsOn hparsed hmem
  have hle := tier_le_of_comparePlace (hbefore g hg)
  omega

theorem skyPatcher_of_tier_lt {other : Dialect} (h : dialect.tier < other.tier) :
    dialect = .skyPatcher := by
  cases dialect with
  | skyPatcher => rfl
  | spid => cases other <;> simp [Dialect.tier] at h

/-- Clauses assign no tags. -/
theorem tag?_of_mem_ofText {path : Text} (h : r ∈ (RuleFile.ofText c path .skyPatcher text).rules) :
    r.target.tag? = none := by
  obtain ⟨_, _, _, hread, hr⟩ := RuleFile.exists_line_of_mem_ofText h
  obtain ⟨slot, ref, htarget⟩ := (SkyPatcher.isOfLine_readRuleLine hread hr).target
  rw [htarget]
  rfl

/-! ## The verdict and the next pass -/

theorem verdictOn_of_outranked {conflicts : List Conflict}
    (h : ∃ conflict ∈ conflicts, dialect.tier < conflict.existing.tier) :
    ∃ conflict ∈ conflicts, dialect.tier < conflict.existing.tier ∧
      verdictOn conflicts fileName dialect settings =
        .unresolvable (.outranked conflict.existing.fileName dialect) := by
  obtain ⟨own, hown, hrank⟩ := h
  rw [verdictOn, if_neg (by simpa using List.ne_nil_of_mem hown)]
  cases hfind : conflicts.find? fun c => decide (dialect.tier < c.existing.tier) with
  | none => exact absurd hrank (by simpa using List.find?_eq_none.1 hfind own hown)
  | some first =>
    exact ⟨first, List.mem_of_find?_eq_some hfind, by simpa using List.find?_some hfind, rfl⟩

section Passes

variable (hids : game.population.DistinctIds) (hparsed : ∀ g ∈ files, g.IsParsed game.catalog)
  (hrun : run = .overFiles game (RuleFile.inLoadOrder files) skipped slot cancelled)
  (hcompleted : run.status = .completed)
  {ch : Character} (hc : game.population.characters[i]? = some ch)
  (hw : run.resolution.ruleWinnerOf? ch.npc.id = some w)

include hids hparsed hrun hcompleted hc hw

theorem tier_of_ruleWinnerOf? : ∃ g ∈ run.files, w.tier = g.dialect.tier := by
  rw [Pass.resolution_of_completed hrun hcompleted, ruleWinnerOf?_ofFiles hids hc] at hw
  exact tier_of_mem_distributionsOn (isParsed_of_mem_files hrun hcompleted hparsed)
    (List.mem_of_getLast? hw)

/-- A winner of a higher tier is still there when a file is added that assigns no tags. -/
theorem winner_of_tier_lt (htext : ∀ r ∈ f.rules, r.target.tag? = none)
    (hrank : f.dialect.tier < w.tier) :
    ∃ a a', run.resolution.find? ch.npc.id = some a ∧ a.winner? = some w ∧
      (run.withFile game slot f).resolution.find? ch.npc.id = some a' ∧
      a'.winner? = some w.later := by
  obtain ⟨before, after, hfiles, hbefore, -, hresolution, -, hagain⟩ :=
    exists_insert_withFile hrun hcompleted htext
  have hparsedBefore : ∀ g ∈ before, g.IsParsed game.catalog := fun g hg =>
    isParsed_of_mem_files hrun hcompleted hparsed g (hfiles ▸ List.mem_append_left _ hg)
  rw [hresolution, ruleWinnerOf?_ofFiles hids hc] at hw
  rw [hresolution, hagain]
  have hstays := getLast?_distributionsOn_insert_of_not_mem (f := f) hw
    (not_mem_distributionsOn_of_tier hparsedBefore hbefore hrank)
  obtain ⟨a, hfind, hwinner⟩ := exists_winner_ofFiles hids hc hw
  obtain ⟨a', hfind', hwinner'⟩ := exists_winner_ofFiles hids hc hstays
  exact ⟨a, a', hfind, hwinner, hfind', hwinner'⟩

end Passes

/-- Where a conflict is with a higher tier, the verdict names one that is, and renaming is useless:
whatever the file is called, in the pass over the same files and this one each character of such a
conflict is dressed by the same line of the same file as before. -/
theorem Pass.winner_kept_of_outranked (hids : game.population.DistinctIds)
    (hparsed : ∀ f ∈ files, f.IsParsed game.catalog)
    (hrun : run = .overFiles game (RuleFile.inLoadOrder files) skipped slot cancelled)
    (hcompleted : run.status = .completed)
    (houtranked : ∃ conflict ∈ (run.review game settings name dialect text).report.conflicts,
      dialect.tier < conflict.existing.tier) :
    (∃ conflict ∈ (run.review game settings name dialect text).report.conflicts,
      dialect.tier < conflict.existing.tier ∧
        (run.review game settings name dialect text).report.verdict =
          .unresolvable (.outranked conflict.existing.fileName dialect)) ∧
    ∀ conflict ∈ (run.review game settings name dialect text).report.conflicts,
      dialect.tier < conflict.existing.tier → ∀ other : Text,
        let again := run.withFile game slot (.ofText game.catalog other dialect text)
        again.status = .completed ∧
          ∃ a a' w, run.resolution.find? conflict.npc = some a ∧
            a.winner? = some conflict.existing ∧
            again.resolution.find? conflict.npc = some a' ∧ a'.winner? = some w ∧
            w.sourcePath = conflict.existing.sourcePath ∧
            w.lineNumber = conflict.existing.lineNumber ∧ w.outfit = conflict.existing.outfit := by
  refine ⟨verdictOn_of_outranked houtranked, fun conflict hconflict hrank other => ?_⟩
  obtain ⟨i, r, ch, w, -, hc, hw, hwith⟩ := mem_findConflicts.1 hconflict
  obtain ⟨hnpc, hexisting, -⟩ := existing_of_conflictWith? hwith
  subst hexisting
  obtain ⟨g, -, htier⟩ := tier_of_ruleWinnerOf? hids hparsed hrun hcompleted hc hw
  obtain rfl : dialect = .skyPatcher := skyPatcher_of_tier_lt (htier ▸ hrank)
  obtain ⟨a, a', hfind, hwinner, hfind', hwinner'⟩ := winner_of_tier_lt
    (f := .ofText game.catalog other .skyPatcher text) hids hparsed hrun hcompleted
    hc hw (fun r => tag?_of_mem_ofText) hrank
  rw [hnpc]
  exact ⟨Pass.status_overFiles _ _ _ _, a, a', _, hfind, hwinner, hfind', hwinner', rfl,
    rfl, rfl⟩

def crownLine : Text := "filterByNpcs=Skyrim.esm|0x1414D:outfitDefault=Armors.esp|0x2"

/-- Not even the name that sorts last takes the rebel from a file of the other format. -/
theorem rebels_outrank_crown :
    (rebelPass.review throne .default "Crown.ini" .skyPatcher crownLine).report.verdict =
        .unresolvable (.outranked "Rebels_DISTR.ini" .skyPatcher) ∧
      ∃ a w, (rebelPass.withFile throne .default (.ofText throne.catalog "zzzz.ini" .skyPatcher
          crownLine)).resolution.find? ulfric.id = some a ∧
        a.winner? = some w ∧ w.sourcePath = some "Rebels_DISTR.ini" ∧ w.lineNumber = some 1 ∧
        w.outfit = ⟨"Armors.esp", 1⟩ := by
  have hids : throne.population.DistinctIds := List.pairwise_singleton _ _
  have hparsed : ∀ f ∈ [rebels], f.IsParsed throne.catalog := by
    intro f hf
    obtain rfl := List.mem_singleton.1 hf
    exact RuleFile.isParsed_ofText _ _ _ _
  have hone : (rebelPass.review throne .default "Crown.ini" .skyPatcher
      crownLine).report.conflicts.length = 1 := by decide +kernel
  obtain ⟨conflict, hconflicts⟩ := List.length_eq_one_iff.1 hone
  have hall : ∀ conflict ∈ (rebelPass.review throne .default "Crown.ini" .skyPatcher
      crownLine).report.conflicts, Dialect.skyPatcher.tier < conflict.existing.tier ∧
        conflict.npc = ulfric.id ∧ conflict.existing.fileName = "Rebels_DISTR.ini" ∧
        conflict.existing.sourcePath = some "Rebels_DISTR.ini" ∧
        conflict.existing.lineNumber = some 1 ∧ conflict.existing.outfit = ⟨"Armors.esp", 1⟩ := by
    decide +kernel
  have hmem : conflict ∈ (rebelPass.review throne .default "Crown.ini" .skyPatcher
      crownLine).report.conflicts := hconflicts ▸ List.mem_cons_self
  obtain ⟨hrank, hnpc, -, hpath, hline, houtfit⟩ := hall conflict hmem
  obtain ⟨⟨first, hfirst, -, hverdict⟩, hkept⟩ :=
    Pass.winner_kept_of_outranked hids hparsed rfl rfl ⟨conflict, hmem, hrank⟩
  obtain ⟨-, -, a, w, -, -, hfind, hwinner, hpath', hline', houtfit'⟩ :=
    hkept conflict hmem hrank "zzzz.ini"
  obtain ⟨-, -, hname, -⟩ := hall first hfirst
  refine ⟨hname ▸ hverdict, a, w, hnpc ▸ hfind, hwinner, ?_, ?_, ?_⟩
  · rw [hpath', hpath]
  · rw [hline', hline]
  · rw [houtfit', houtfit]

end Wardrobe
