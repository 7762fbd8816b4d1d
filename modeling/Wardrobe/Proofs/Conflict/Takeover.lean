import Wardrobe.Proofs.Conflict.Report
/-
Following the verdict on a proposed file.

The verdict is found from one pass, and what it promises is about another, in which the file stands
among the others.  What links the two is a single step: where the new file puts something on a
character, it wins there, unless the old winner comes from a file behind it.  No conflict does, if
the name is the one of the verdict.
-/

namespace Wardrobe

variable {game : Game} {files before after : List RuleFile} {skipped : List UnreadableFile}
  {slot : Slot} {cancelled : Bool} {f : RuleFile} {tags : Tags} {p : Population} {i : Nat}
  {c : Catalog} {settings : Settings} {dialect : Dialect} {name text winning : Text} {run : Pass}

/-- The pass over the files of another one and a new file. -/
def Pass.withFile (run : Pass) (game : Game) (slot : Slot) (file : RuleFile) : Pass :=
  .overFiles game (RuleFile.inLoadOrder (run.files ++ [file])) run.skipped slot false

/-- The winner on a character when a file is put in between: it comes from the file, or it is the
old one, which then does not come from before the file. -/
theorem winner_insert (hafter : ∀ g ∈ after, RuleFile.comparePlace f g = .lt)
    (hparsed : ∀ g ∈ after, g.IsParsed c)
    (hputs : distributionsOfFile p tags slot i (f, before.length) ≠ []) :
    ∃ d, (distributionsOn p tags slot (before ++ f :: after).zipIdx i).getLast? = some d ∧
      (d.fileName = f.fileName ∨
        ∃ w, (distributionsOn p tags slot (before ++ after).zipIdx i).getLast? = some w ∧
          d = w.later ∧ RuleFile.compareKeys f.loadKey w.loadKey ≠ .gt) := by
  rcases getLast?_distributionsOn_insert hputs with ⟨d, hd, hlast⟩ | ⟨w, hw, hold, hnew⟩
  · exact ⟨d, hlast, Or.inl (fileName_of_mem_distributionsOfFile hd)⟩
  · refine ⟨w.later, hnew, Or.inr ⟨w, hold, rfl, ?_⟩⟩
    obtain ⟨g, hg, hw⟩ := List.mem_flatMap.1 hw
    have hmem : g.1 ∈ after := List.fst_mem_of_mem_zipIdx hg
    rw [loadKey_of_mem_distributionsOfFile (hparsed g.1 hmem) hw]
    intro hgt
    have hlt := hafter g.1 hmem
    rw [RuleFile.comparePlace, hgt] at hlt
    cases hlt

theorem distributionsOfFile_ne_nil_of_deciding {r : Rule} (hf : f.IsParsed c)
    (h : (i, r) ∈ decidingRules p tags slot f.rules) (n : Nat) :
    distributionsOfFile p tags slot i (f, n) ≠ [] := by
  have hlast := mem_decidingRules.1 h
  obtain ⟨hslot, haffected⟩ := hlast.holds
  exact distributionsOfFile_ne_nil hf hlast.mem hslot
    (Population.satisfiesAt_of_mem_affected haffected)

theorem fileName_of_mem_distributionsOn {d : Distribution} {files : List RuleFile}
    (h : d ∈ distributionsOn p tags slot files.zipIdx i) :
    ∃ g ∈ files, d.fileName = g.fileName := by
  obtain ⟨g, hg, hd⟩ := List.mem_flatMap.1 h
  exact ⟨g.1, List.fst_mem_of_mem_zipIdx hg, fileName_of_mem_distributionsOfFile hd⟩

/-! ## A file behind those that it is in conflict with -/

section Insertion

variable (hids : p.DistinctIds) (hafter : ∀ g ∈ after, RuleFile.comparePlace f g = .lt)
  (hparsed : ∀ g ∈ after, g.IsParsed c) (hf : f.IsParsed c)

include hids hafter hparsed hf

/-- A winner that the file stands behind loses the character to it. -/
theorem winner_of_loadKey {r : Rule} {ch : Character} {w : Distribution}
    (hdeciding : (i, r) ∈ decidingRules p tags slot f.rules) (hc : p.characters[i]? = some ch)
    (hw : (Resolution.ofFiles p (before ++ after) tags slot false).ruleWinnerOf? ch.npc.id = some w)
    (hkey : RuleFile.compareKeys f.loadKey w.loadKey = .gt) :
    ∃ a d, (Resolution.ofFiles p (before ++ f :: after) tags slot false).find? ch.npc.id = some a ∧
      a.winner? = some d ∧ d.fileName = f.fileName := by
  have hputs := distributionsOfFile_ne_nil_of_deciding hf hdeciding before.length
  rw [ruleWinnerOf?_ofFiles hids hc] at hw
  obtain ⟨d, hd, hname⟩ := winner_insert hafter hparsed hputs
  have hmine : d.fileName = f.fileName := by
    rcases hname with hmine | ⟨w', hw', -, hnot⟩
    · exact hmine
    · obtain rfl := Option.some.inj (hw.symm.trans hw')
      exact absurd hkey hnot
  obtain ⟨a, hfind, hwinner⟩ := exists_winner_ofFiles hids hc hd
  exact ⟨a, d, hfind, hwinner, hmine⟩

/-- A file that stands behind all winners that it was in conflict with is in conflict with none when
it is among the files. -/
theorem findConflicts_insert (hfree : ∀ g ∈ before ++ after, Text.sameAscii g.fileName name = false)
    (hkey : ∀ conflict ∈ findConflicts p tags
      (Resolution.ofFiles p (before ++ after) tags slot false) name f.rules,
      RuleFile.compareKeys f.loadKey conflict.existing.loadKey = .gt) :
    findConflicts p tags (Resolution.ofFiles p (before ++ f :: after) tags slot false) f.fileName
      f.rules = [] := by
  refine List.eq_nil_iff_forall_not_mem.2 fun conflict hconflict => ?_
  obtain ⟨i, r, ch, current, hdeciding, hc, hcurrent, hwith⟩ := mem_findConflicts.1 hconflict
  have hdeciding : (i, r) ∈ decidingRules p tags slot f.rules := hdeciding
  have hputs := distributionsOfFile_ne_nil_of_deciding hf hdeciding before.length
  obtain ⟨d, hd, hname⟩ := winner_insert hafter hparsed hputs
  rw [ruleWinnerOf?_ofFiles hids hc] at hcurrent
  obtain rfl := Option.some.inj (hcurrent.symm.trans hd)
  have hdispute : conflictWith? f.fileName ch.npc current r ≠ none := by
    rw [hwith]
    exact Option.some_ne_none _
  rw [Ne, conflictWith?_eq_none, not_or] at hdispute
  rcases hname with hmine | ⟨w, hw, rfl, hnot⟩
  · exact hdispute.1 (hmine ▸ Text.sameAscii_refl _)
  · -- The winner was there before, so it was in conflict then, and the file stands behind it.
    obtain ⟨g, hg, hgname⟩ := fileName_of_mem_distributionsOn (List.mem_of_getLast? hw)
    cases hbefore : conflictWith? name ch.npc w r with
    | none =>
      rcases conflictWith?_eq_none.1 hbefore with hsame | houtfit
      · rw [hgname, hfree g hg] at hsame
        cases hsame
      · exact hdispute.2 houtfit
    | some old =>
      have hwinner : (Resolution.ofFiles p (before ++ after) tags slot false).ruleWinnerOf?
          ch.npc.id = some w := (ruleWinnerOf?_ofFiles hids hc).trans hw
      have hold : old ∈ findConflicts p tags
          (Resolution.ofFiles p (before ++ after) tags slot false) name f.rules :=
        mem_findConflicts.2 ⟨i, r, ch, w, hdeciding, hc, hwinner, hbefore⟩
      have hgt := hkey old hold
      rw [(existing_of_conflictWith? hbefore).2.1] at hgt
      exact hnot hgt

end Insertion

/-! ## The two passes -/

section Passes

variable (hrun : run = .overFiles game (RuleFile.inLoadOrder files) skipped slot cancelled)
  (hcompleted : run.status = .completed) (htext : ∀ r ∈ f.rules, r.target.tag? = none)

include hrun hcompleted

theorem isParsed_of_mem_files (hparsed : ∀ g ∈ files, g.IsParsed c) :
    ∀ g ∈ run.files, g.IsParsed c := by
  subst hrun
  intro g hg
  rw [(Pass.completed_overFiles hcompleted).1] at hg
  exact hparsed g ((perm_sortBy _ _).mem_iff.1 hg)

include htext

/-- A file without keyword rules is put in between the files of the pass, and nothing else changes
in what the characters are resolved from. -/
theorem exists_insert_withFile : ∃ before after, run.files = before ++ after ∧
    (∀ g ∈ before, (RuleFile.comparePlace g f).isLE) ∧
      (∀ g ∈ after, RuleFile.comparePlace f g = .lt) ∧
      run.resolution = .ofFiles game.population (before ++ after) run.tags slot false ∧
      (run.withFile game slot f).tags = run.tags ∧
      (run.withFile game slot f).resolution =
        .ofFiles game.population (before ++ f :: after) run.tags slot false := by
  subst hrun
  obtain ⟨before, after, hsplit, hinsert, hbefore, hafter⟩ :=
    RuleFile.inLoadOrder_append_singleton files f
  obtain ⟨hfiles, htags, hresolution⟩ := Pass.completed_overFiles hcompleted
  refine ⟨before, after, ?_, hbefore, hafter, ?_, ?_⟩
  · rw [hfiles, hsplit]
  · rw [hresolution, htags, hsplit]
  · rw [Pass.withFile, hfiles, hinsert, htags, hsplit, ← finalTags_insert htext]
    exact (Pass.completed_overFiles (Pass.status_overFiles game _ _ slot)).2

theorem takeover_of_loadKey (hids : game.population.DistinctIds)
    (hparsed : ∀ g ∈ files, g.IsParsed game.catalog) (hf : f.IsParsed game.catalog)
    (hfree : ∀ g ∈ run.files, Text.sameAscii g.fileName name = false)
    (hkey : ∀ conflict ∈ findConflicts game.population run.tags run.resolution name f.rules,
      RuleFile.compareKeys f.loadKey conflict.existing.loadKey = .gt) :
    (∀ conflict ∈ findConflicts game.population run.tags run.resolution name f.rules,
      ∃ a d, (run.withFile game slot f).resolution.find? conflict.npc = some a ∧
        a.winner? = some d ∧ d.fileName = f.fileName) ∧
      findConflicts game.population (run.withFile game slot f).tags
        (run.withFile game slot f).resolution f.fileName f.rules = [] := by
  obtain ⟨before, after, hfiles, -, hafter, hresolution, htags, hagain⟩ :=
    exists_insert_withFile hrun hcompleted htext
  have hparsedAfter : ∀ g ∈ after, g.IsParsed game.catalog := fun g hg =>
    isParsed_of_mem_files hrun hcompleted hparsed g (hfiles ▸ List.mem_append_right _ hg)
  rw [hfiles] at hfree
  rw [hresolution] at hkey ⊢
  rw [htags, hagain]
  refine ⟨fun conflict hconflict => ?_, ?_⟩
  · obtain ⟨i, r, ch, w, hdeciding, hc, hw, hwith⟩ := mem_findConflicts.1 hconflict
    obtain ⟨hnpc, hexisting, -⟩ := existing_of_conflictWith? hwith
    rw [hnpc]
    exact winner_of_loadKey hids hafter hparsedAfter hf hdeciding hc hw
      (hexisting ▸ hkey conflict hconflict)
  · exact findConflicts_insert hids hafter hparsedAfter hf hfree hkey

end Passes

/-! ## Following the verdict -/

theorem loadKey_of_winningName? {conflicts : List Conflict}
    (h : (verdictOn conflicts name dialect settings).winningName? name = some winning) :
    ∀ conflict ∈ conflicts,
      RuleFile.compareKeys (dialect.tier, Text.lower winning) conflict.existing.loadKey = .gt := by
  obtain ⟨hrank, hlast, -⟩ := winningName?_verdictOn h
  intro conflict hconflict
  exact loadKey_of_comesLast hlast hconflict (hrank conflict hconflict)

theorem isName_of_winningName? (hsettings : settings.checked = .ok settings)
    (hsuffix : '/' ∉ settings.spidSuffix) (hname : Path.IsName name) {conflicts : List Conflict}
    (h : (verdictOn conflicts name dialect settings).winningName? name = some winning) :
    Path.IsName winning := by
  obtain ⟨-, -, rfl | hsuggest⟩ := winningName?_verdictOn h
  · exact hname
  · exact LoadName.isName_of_suggest (Settings.isAlphanum_of_checked hsettings)
      (Settings.slash_not_mem_suffixFor hsuffix dialect) hsuggest

/-- Following the verdict works.  Let a file be proposed to a completed pass, and let the verdict on
it leave it a name.  In the pass over the same files and the proposed one under that name, the file
wins every character that there was a conflict about, and checked against this pass it is in
conflict with nothing. -/
theorem Pass.takeover_of_winningName? (hids : game.population.DistinctIds)
    (hsettings : settings.checked = .ok settings) (hsuffix : '/' ∉ settings.spidSuffix)
    (hparsed : ∀ f ∈ files, f.IsParsed game.catalog)
    (hrun : run = .overFiles game (RuleFile.inLoadOrder files) skipped slot cancelled)
    (hcompleted : run.status = .completed) (hname : Path.IsName name)
    (hfree : ∀ f ∈ run.files, Text.sameAscii f.fileName name = false)
    (htext : ∀ r ∈ (RuleFile.ofText game.catalog name dialect text).rules, r.target.tag? = none)
    (hverdict : (run.review game settings name dialect text).report.verdict.winningName? name =
      some winning) :
    let again := run.withFile game slot (.ofText game.catalog winning dialect text)
    again.status = .completed ∧
      (∀ conflict ∈ (run.review game settings name dialect text).report.conflicts,
        ∃ a d, again.resolution.find? conflict.npc = some a ∧ a.winner? = some d ∧
          d.fileName = winning) ∧
      (again.review game settings winning dialect text).report.conflicts = [] := by
  have hfileName : (RuleFile.ofText game.catalog winning dialect text).fileName = winning :=
    (isName_of_winningName? hsettings hsuffix hname hverdict).fileName_eq
  -- The file bears the name of the verdict, so it stands behind the files of all conflicts.
  have hkey := loadKey_of_winningName? hverdict
  have hloadKey : (RuleFile.ofText game.catalog winning dialect text).loadKey =
      (dialect.tier, Text.lower winning) := by
    rw [RuleFile.loadKey, hfileName]
    rfl
  rw [← hloadKey] at hkey
  -- The rules do not depend on the name that the text is read under.
  have htextAgain : ∀ r ∈ (RuleFile.ofText game.catalog winning dialect text).rules,
      r.target.tag? = none := htext
  obtain ⟨hwins, hnone⟩ := takeover_of_loadKey hrun hcompleted htextAgain hids hparsed
    (RuleFile.isParsed_ofText game.catalog winning dialect text) hfree hkey
  rw [hfileName] at hwins hnone
  exact ⟨Pass.status_overFiles _ _ _ _, hwins, hnone⟩

/-! A king's armor that a file proposes for a rebel, whom another file has dressed.  The verdict
finds a name that sorts behind that file. -/

def ulfric : Npc where
  id := ⟨"Skyrim.esm", 0x1414D⟩
  name := some "Ulfric Stormcloak"
  editorId := some "UlfricStormcloak"
  sourcePlugin := "Skyrim.esm"
  factions := []
  keywords := []
  race := none
  combatClass := none
  defaultOutfit := none
  sleepOutfit := none
  combatStyle := none
  voiceType := none
  template := none
  level := 40
  skills := []
  traits := ⟨false, true, false, false, false⟩

def armor (localId : UInt32) (editorId : Text) : Form :=
  ⟨⟨"Armors.esp", localId⟩, .outfit, some editorId, none⟩

def throne : Game :=
  ⟨.ofNpcs [ulfric], .ofRecords [armor 1 "RebelArmor", armor 2 "KingArmor"] [ulfric] []⟩

def rebels : RuleFile :=
  .ofText throne.catalog "Rebels_DISTR.ini" .spid "Outfit = RebelArmor|UlfricStormcloak"

def rebelPass : Pass := .overFiles throne (RuleFile.inLoadOrder [rebels]) [] .default false

def crown : Text := "Outfit = KingArmor|UlfricStormcloak"

theorem crown_takes_over :
    (rebelPass.review throne .default "Crown_DISTR.ini" .spid crown).report.verdict =
        .rename "ZZCrown_DISTR.ini" ∧
      ((rebelPass.withFile throne .default (.ofText throne.catalog "ZZCrown_DISTR.ini" .spid
        crown)).review throne .default "ZZCrown_DISTR.ini" .spid crown).report.conflicts = [] := by
  have hids : throne.population.DistinctIds := List.pairwise_singleton _ _
  have hparsed : ∀ f ∈ [rebels], f.IsParsed throne.catalog := by
    intro f hf
    obtain rfl := List.mem_singleton.1 hf
    exact RuleFile.isParsed_ofText _ _ _ _
  have hname : Path.IsName "Crown_DISTR.ini" := Path.isName_of_alphanum (by decide) (by decide)
  have hfree : ∀ f ∈ rebelPass.files, Text.sameAscii f.fileName "Crown_DISTR.ini" = false := by
    decide +kernel
  have htext : ∀ r ∈ (RuleFile.ofText throne.catalog "Crown_DISTR.ini" .spid crown).rules,
      r.target.tag? = none := by decide +kernel
  have hverdict : (rebelPass.review throne .default "Crown_DISTR.ini" .spid crown).report.verdict =
      .rename "ZZCrown_DISTR.ini" := by decide +kernel
  have hwinning : ((rebelPass.review throne .default "Crown_DISTR.ini" .spid
      crown).report.verdict).winningName? "Crown_DISTR.ini" = some "ZZCrown_DISTR.ini" := by
    rw [hverdict]
    rfl
  exact ⟨hverdict, (Pass.takeover_of_winningName? hids rfl (by decide) hparsed rfl rfl hname hfree
    htext hwinning).2.2⟩

end Wardrobe
