import Wardrobe.Proofs.Conflict.Takeover
import Wardrobe.Proofs.Resolution
/-
Which takeovers a review reports.

A proposed file takes a character over when its rules for the slot leave something on it in the next
pass and another file dressed it before.  A review only sees the pass before: the tags that were
given then, the first character with an editor id, and the names of files.  The last rule that
claims the character under those tags decides whether it reports a conflict, and that is the rule
that takes the character over when the tags agree on this rule and on those behind it.
-/

namespace Wardrobe

variable {game : Game} {files : List RuleFile} {skipped : List UnreadableFile} {slot : Slot}
  {cancelled : Bool} {f : RuleFile} {tags : Tags} {p : Population} {i : Nat} {c : Character}
  {settings : Settings} {dialect : Dialect} {name text : Text} {run : Pass} {r : Rule}
  {w : Distribution}

/-! ## What a rule leaves on a character -/

/-- A rule of the file, at some place among the files of the pass, has left a distribution on the
character. -/
def Pass.Bears (run : Pass) (id : FormKey) (f : RuleFile) (r : Rule) : Prop :=
  ∃ a d position, run.resolution.find? id = some a ∧ d ∈ a.distributions ∧
    run.files[position]? = some f ∧ d.Records ⟨f, position, r⟩

section Bears

variable {catalog : Catalog} (hids : game.population.DistinctIds)
  (hrun : run = .overFiles game files skipped slot cancelled) (hcompleted : run.status = .completed)
  (hc : game.population.characters[i]? = some c) (hf : f.IsParsed catalog) (hr : r ∈ f.rules)

include hids hrun hcompleted hc hf hr

theorem satisfiesAt_of_bears (h : run.Bears c.npc.id f r) :
    game.population.satisfiesAt run.tags r.filters i = true := by
  obtain ⟨a, d, position, hfind, hd, hposition, hrecords⟩ := h
  rw [Pass.resolution_of_completed hrun hcompleted, find?_ofFiles hids hc] at hfind
  obtain ⟨npc, hdistributions⟩ := distributions_of_assignmentAt? hfind
  rw [hdistributions] at hd
  rcases List.mem_append.1 hd with hown | hd
  · obtain ⟨link, -, rfl⟩ := List.mem_map.1 hown
    cases hrecords.sourcePath
  · obtain ⟨⟨g, n⟩, hg, r', hr', -, hput⟩ := mem_distributionsOn.1 hd
    obtain ⟨_, _, _, _, -, hholds, rfl⟩ := distributionOf?_eq_some.1 hput
    -- The place and the line of the distribution are those of the rule.
    obtain rfl : n = position := Nat.succ.inj hrecords.processingOrder
    have hfile : run.files[n]? = some g := List.mk_mem_zipIdx_iff_getElem?.1 hg
    obtain rfl := Option.some.inj (hfile.symm.trans hposition)
    have hline : r'.lineNumber = r.lineNumber := Option.some.inj hrecords.lineNumber
    rw [← hf.filters_eq hr' hr hline]
    exact hholds

theorem bears_of_satisfiesAt (hmem : f ∈ run.files) (hslot : r.setsSlot slot = true)
    (h : game.population.satisfiesAt run.tags r.filters i = true) : run.Bears c.npc.id f r := by
  obtain ⟨position, hposition⟩ := List.mem_iff_getElem?.1 hmem
  obtain ⟨key, editorId, htarget⟩ := (hf.isReadAs hr).target_of_setsSlot hslot
  have hput : distributionOf? game.population run.tags f (position + 1) i r =
      some (.ofRule f (position + 1) r key editorId) :=
    distributionOf?_eq_some.2 ⟨slot, .outfit, key, editorId, htarget, h, rfl⟩
  have hd : Distribution.ofRule f (position + 1) r key editorId ∈
      distributionsOn game.population run.tags slot run.files.zipIdx i :=
    mem_distributionsOn.2 ⟨(f, position), List.mk_mem_zipIdx_iff_getElem?.2 hposition, r, hr, hslot,
      hput⟩
  cases hat : assignmentAt? game.population run.tags slot run.files.zipIdx i with
  | none =>
    have hi : i < game.population.size := (Array.getElem?_eq_some_iff.1 hc).1
    rw [(assignmentAt?_eq_none hi).1 hat] at hd
    cases hd
  | some a =>
    obtain ⟨npc, hdistributions⟩ := distributions_of_assignmentAt? hat
    refine ⟨a, _, position, ?_, ?_, hposition, records_ofRule f position r htarget⟩
    · rw [Pass.resolution_of_completed hrun hcompleted, find?_ofFiles hids hc, hat]
    · rw [hdistributions]
      exact List.mem_append_right _ hd

end Bears

/-! ## Takeovers -/

theorem mem_files_withFile (run : Pass) (game : Game) (slot : Slot) (f : RuleFile) :
    f ∈ (run.withFile game slot f).files := by
  rw [Pass.withFile, (Pass.completed_overFiles (Pass.status_overFiles game _ _ slot)).1]
  exact (perm_sortBy _ _).mem_iff.2 (List.mem_append_right _ List.mem_cons_self)

/-- The file leaves something on a character that the rule names outright. -/
def Pass.Dresses (run : Pass) (slot : Slot) (f : RuleFile) (npc : Npc) (r : Rule) : Prop :=
  r.setsSlot slot = true ∧ r.names npc = true ∧ run.Bears npc.id f r

/-- The rule is for the slot, names the character outright and matches it under the tags. -/
def Rule.Claims (r : Rule) (p : Population) (tags : Tags) (slot : Slot) (i : Nat) (npc : Npc) :
    Prop :=
  r.setsSlot slot = true ∧ r.names npc = true ∧ p.satisfiesAt tags r.filters i = true

/-- A review finds the character that the rule names: the rule is for everyone, refers to it, or
asks for an editor id that no character before it has. -/
def Rule.Finds (r : Rule) (p : Population) (i : Nat) (npc : Npc) : Prop :=
  r.filters.isForAll = true ∨ r.filters.refersTo npc = true ∨ p.IsFirstCalled i npc

/-- A rule of a file dresses the characters that it claims under the tags of the pass. -/
theorem Pass.dresses_iff {catalog : Catalog} (hids : game.population.DistinctIds)
    (hc : game.population.characters[i]? = some c) (hf : f.IsParsed catalog) (hr : r ∈ f.rules) :
    (run.withFile game slot f).Dresses slot f c.npc r ↔
      r.Claims game.population (run.withFile game slot f).tags slot i c.npc :=
  and_congr_right fun hslot => and_congr_right fun _ =>
    ⟨satisfiesAt_of_bears hids rfl (Pass.status_overFiles _ _ _ _) hc hf hr,
      bears_of_satisfiesAt hids rfl (Pass.status_overFiles _ _ _ _) hc hf hr
        (mem_files_withFile run game slot f) hslot⟩

theorem Rule.claims_of_mem_affected (hids : p.DistinctIds) (hc : p.characters[i]? = some c)
    (hslot : r.setsSlot slot = true) (h : i ∈ p.affected tags r) :
    r.Claims p tags slot i c.npc := by
  obtain ⟨hholds, hnamed⟩ := (Population.mem_affected_iff hids hc).1 h
  refine ⟨hslot, Rule.names_iff.2 ?_, hholds⟩
  exact hnamed.imp_right (Or.imp_right And.left)

theorem Rule.Claims.mem_affected (h : r.Claims p tags slot i c.npc) (hids : p.DistinctIds)
    (hc : p.characters[i]? = some c) (hfinds : r.Finds p i c.npc) : i ∈ p.affected tags r := by
  obtain ⟨-, hnames, hholds⟩ := h
  refine (Population.mem_affected_iff hids hc).2 ⟨hholds, ?_⟩
  rcases Rule.names_iff.1 hnames with hall | hrefers | hcalls
  · exact Or.inl hall
  · exact Or.inr (Or.inl hrefers)
  · exact hfinds.imp_right (Or.imp_right fun hfirst => ⟨hcalls, hfirst⟩)

/-- The file takes a character over.  The rule is the last of its rules for the slot that name the
character and leave something on it in the pass with the file, and the winner that another rule made
in the pass before has another outfit. -/
structure Pass.IsTakenOver (run : Pass) (game : Game) (slot : Slot) (f : RuleFile) (npc : Npc)
    (w : Distribution) (r : Rule) (behind : List Rule) : Prop where
  rules : ∃ before, f.rules = before ++ r :: behind
  dresses : (run.withFile game slot f).Dresses slot f npc r
  last : ∀ r' ∈ behind, ¬ (run.withFile game slot f).Dresses slot f npc r'
  winner : ∃ a, run.resolution.find? npc.id = some a ∧ a.ruleWinner? = some w
  outfit : r.target.outfitKey?.any (·.same w.outfit) = false

/-- A rule of a file takes the character over if it names and matches it, none behind it does, and
the winner so far has another outfit. -/
theorem exists_isTakenOver (run : Pass) (slot : Slot) (elsewhere : Distribution → Bool) (k : Nat)
    {catalog : Catalog} (hids : game.population.DistinctIds)
    (hc : game.population.characters[i]? = some c) (hf : f.IsParsed catalog)
    (h : (f.rules[k]?.any fun r => r.setsSlot slot && r.names c.npc &&
      game.population.satisfiesAt (run.withFile game slot f).tags r.filters i &&
      ((run.resolution.find? c.npc.id).bind (·.ruleWinner?)).any fun w =>
        elsewhere w && !r.target.outfitKey?.any (·.same w.outfit)) = true)
    (hbehind : ((f.rules.drop (k + 1)).any fun r => r.setsSlot slot && r.names c.npc &&
      game.population.satisfiesAt (run.withFile game slot f).tags r.filters i) = false) :
    ∃ w r, run.IsTakenOver game slot f c.npc w r (f.rules.drop (k + 1)) ∧ elsewhere w = true ∧
      f.rules[k]? = some r := by
  obtain ⟨r, hat, h⟩ := (Option.any_eq_true _ _).1 h
  simp only [Bool.and_eq_true] at h
  obtain ⟨⟨⟨hslot, hnames⟩, hholds⟩, h⟩ := h
  obtain ⟨w, hw, h⟩ := (Option.any_eq_true _ _).1 h
  obtain ⟨helsewhere, houtfit⟩ := Bool.and_eq_true_iff.1 h
  obtain ⟨hk, rfl⟩ := List.getElem?_eq_some_iff.1 hat
  refine ⟨w, _, ⟨⟨f.rules.take k, ?_⟩, ?_, fun r' hr' hdresses => ?_,
    Option.bind_eq_some_iff.1 hw, by simpa using houtfit⟩, helsewhere, hat⟩
  · rw [← List.drop_eq_getElem_cons hk, List.take_append_drop]
  · exact (Pass.dresses_iff hids hc hf (List.getElem_mem hk)).2 ⟨hslot, hnames, hholds⟩
  · obtain ⟨hslot', hnames', hholds'⟩ :=
      (Pass.dresses_iff hids hc hf (List.mem_of_mem_drop hr')).1 hdresses
    have hnone := List.any_eq_false.1 hbehind r' hr'
    rw [hslot', hnames', hholds'] at hnone
    exact hnone rfl

/-- The rule that takes a character over is the last to claim it already in the pass before, if it
and the rules behind it match the character alike under the tags of either pass. -/
theorem Pass.IsTakenOver.isLastOf {behind : List Rule} {catalog : Catalog}
    (htaken : run.IsTakenOver game slot f c.npc w r behind) (hids : game.population.DistinctIds)
    (hc : game.population.characters[i]? = some c) (hf : f.IsParsed catalog)
    (htags : ∀ r' ∈ r :: behind, r'.setsSlot slot = true → r'.names c.npc = true →
      game.population.satisfiesAt run.tags r'.filters i =
        game.population.satisfiesAt (run.withFile game slot f).tags r'.filters i) :
    IsLastOf (·.Claims game.population run.tags slot i c.npc) f.rules r := by
  obtain ⟨before, hrules⟩ := htaken.rules
  have hclaims : ∀ r' ∈ r :: behind, r'.Claims game.population run.tags slot i c.npc ↔
      (run.withFile game slot f).Dresses slot f c.npc r' := by
    intro r' hr'
    rw [Pass.dresses_iff hids hc hf (hrules ▸ List.mem_append_right _ hr')]
    refine and_congr_right fun hslot => and_congr_right fun hnames => ?_
    rw [htags r' hr' hslot hnames]
  exact ⟨before, behind, hrules, (hclaims r List.mem_cons_self).2 htaken.dresses,
    fun r' hr' h => htaken.last r' hr' ((hclaims r' (List.mem_cons_of_mem r hr')).1 h)⟩

/-! ## What a review reports -/

section Review

variable (hids : game.population.DistinctIds)
  (hrun : run = .overFiles game files skipped slot cancelled) (hcompleted : run.status = .completed)
  (hc : game.population.characters[i]? = some c)

include hids hrun hcompleted hc

theorem ruleWinnerOf?_of_find? (h : ∃ a, run.resolution.find? c.npc.id = some a ∧
    a.ruleWinner? = some w) : run.resolution.ruleWinnerOf? c.npc.id = some w := by
  obtain ⟨a, hfind, hwinner⟩ := h
  rw [Pass.resolution_of_completed hrun hcompleted] at hfind ⊢
  rw [find?_ofFiles hids hc] at hfind
  rw [ruleWinnerOf?_ofFiles hids hc, ← hwinner]
  obtain ⟨_, -, -, -, hlast⟩ := assignmentAt?_eq_some hfind
  exact hlast.symm

section Winner

variable (hwinner : ∃ a, run.resolution.find? c.npc.id = some a ∧ a.ruleWinner? = some w)
  (hname : Text.sameAscii w.fileName name = false)

include hwinner hname

/-- The conflict of the last rule that a review sees speak of the character. -/
theorem conflict_of_isLastOf (hlast : IsLastOf (fun r => r.setsSlot slot = true ∧
      i ∈ game.population.affected run.tags r)
        (RuleFile.ofText game.catalog name dialect text).rules r)
    (houtfit : r.target.outfitKey?.any (·.same w.outfit) = false) :
    ∃ conflict ∈ (run.review game settings name dialect text).report.conflicts,
      conflict.npc = c.npc.id ∧ conflict.existing = w ∧ conflict.proposedLine = r.lineNumber := by
  have hdeciding := mem_decidingRules.2 hlast
  have hslot := Pass.slot_resolution hrun hcompleted
  have hwith : conflictWith? name c.npc w r ≠ none := by
    rw [Ne, conflictWith?_eq_none, hname, houtfit]
    decide
  obtain ⟨conflict, hconflict⟩ := Option.ne_none_iff_exists'.1 hwith
  exact ⟨conflict, mem_findConflicts.2 ⟨i, r, c, w, hslot ▸ hdeciding, hc,
    ruleWinnerOf?_of_find? hids hrun hcompleted hc hwinner, hconflict⟩,
    existing_of_conflictWith? hconflict⟩

omit hname in
theorem exists_isLastOf_of_conflict {conflict : Conflict}
    (hconflict : conflict ∈ (run.review game settings name dialect text).report.conflicts)
    (hsame : conflict.npc.same c.npc.id = true) :
    ∃ seen, IsLastOf (fun r => r.setsSlot slot = true ∧
        i ∈ game.population.affected run.tags r)
          (RuleFile.ofText game.catalog name dialect text).rules seen ∧
      seen.target.outfitKey?.any (·.same w.outfit) = false := by
  obtain ⟨j, seen, d, current, hdeciding, hd, hcurrent, hwith⟩ := mem_findConflicts.1 hconflict
  obtain ⟨-, houtfit, hbetween⟩ := conflictWith?_eq_some hwith
  rw [hbetween.id] at hsame
  -- Keys are distinct, so the conflict is about this character and its winner.
  obtain rfl : j = i := hids.eq_of_same hd hc hsame
  obtain rfl := Option.some.inj (hd.symm.trans hc)
  rw [ruleWinnerOf?_of_find? hids hrun hcompleted hc hwinner] at hcurrent
  obtain rfl := Option.some.inj hcurrent
  exact ⟨seen, Pass.slot_resolution hrun hcompleted ▸ mem_decidingRules.1 hdeciding, houtfit⟩

end Winner

/-- Of a takeover from a file of another name a review reports nothing if no rule claims the
character under the tags of the pass before.  Otherwise the last that does decides: if the review
finds the character by it, a conflict is reported just when its outfit is not that of the winner.
It is the rule that takes the character over, if this one and those behind it match the character
alike under the tags of either pass, and then the conflict is the one between it and the winner. -/
theorem Pass.conflict_of_isTakenOver {behind : List Rule}
    (htaken : run.IsTakenOver game slot (.ofText game.catalog name dialect text) c.npc w r behind)
    (hname : Text.sameAscii w.fileName name = false) :
    let rules := (RuleFile.ofText game.catalog name dialect text).rules
    let again := run.withFile game slot (.ofText game.catalog name dialect text)
    let conflicts := (run.review game settings name dialect text).report.conflicts
    ((∀ r' ∈ rules, ¬ r'.Claims game.population run.tags slot i c.npc) →
      ∀ conflict ∈ conflicts, conflict.npc.same c.npc.id = false) ∧
    (∀ seen, IsLastOf (·.Claims game.population run.tags slot i c.npc) rules seen →
      seen.Finds game.population i c.npc →
        ((∃ conflict ∈ conflicts, conflict.npc.same c.npc.id = true) ↔
          seen.target.outfitKey?.any (·.same w.outfit) = false)) ∧
    ((∀ r' ∈ r :: behind, r'.setsSlot slot = true → r'.names c.npc = true →
        game.population.satisfiesAt run.tags r'.filters i =
          game.population.satisfiesAt again.tags r'.filters i) →
      r.Finds game.population i c.npc →
        ∃ conflict ∈ conflicts, conflict.npc = c.npc.id ∧ conflict.existing = w ∧
          conflict.proposedLine = r.lineNumber) := by
  have hparsed := RuleFile.isParsed_ofText game.catalog name dialect text
  -- A rule that claims the character last is the last that the review sees.
  have hsees {seen : Rule} (hlast : IsLastOf (·.Claims game.population run.tags slot i c.npc)
      (RuleFile.ofText game.catalog name dialect text).rules seen)
      (hfinds : seen.Finds game.population i c.npc) :
      IsLastOf (fun r => r.setsSlot slot = true ∧ i ∈ game.population.affected run.tags r)
        (RuleFile.ofText game.catalog name dialect text).rules seen :=
    hlast.imp ⟨hlast.holds.1, hlast.holds.mem_affected hids hc hfinds⟩
      fun _ h => Rule.claims_of_mem_affected hids hc h.1 h.2
  refine ⟨fun hnone conflict hconflict => ?_, fun seen hlast hfinds => ⟨?_, fun houtfit => ?_⟩,
    fun htags hfinds => ?_⟩
  · by_contra hsame
    rw [Bool.not_eq_false] at hsame
    obtain ⟨seen, hseen, -⟩ :=
      exists_isLastOf_of_conflict hids hrun hcompleted hc htaken.winner hconflict hsame
    exact hnone seen hseen.mem (Rule.claims_of_mem_affected hids hc hseen.holds.1 hseen.holds.2)
  · rintro ⟨conflict, hconflict, hsame⟩
    obtain ⟨seen', hseen', houtfit⟩ :=
      exists_isLastOf_of_conflict hids hrun hcompleted hc htaken.winner hconflict hsame
    rwa [(hsees hlast hfinds).unique hseen']
  · obtain ⟨conflict, hconflict, hnpc, -⟩ := conflict_of_isLastOf hids hrun hcompleted hc
      htaken.winner hname (hsees hlast hfinds) houtfit
    exact ⟨conflict, hconflict, hnpc ▸ FormKey.same_refl _⟩
  · have hlast := htaken.isLastOf hids hc hparsed htags
    exact conflict_of_isLastOf hids hrun hcompleted hc htaken.winner hname (hsees hlast hfinds)
      htaken.outfit

end Review

/-! The king's armor again, proposed in a file that reads a tag of its own in the rule before.  A
review tells of it, and of three other takeovers it does not: behind a tag that the new file assigns
itself, from a file of the other format with the same name, and of a second character with the same
editor id. -/

theorem distinctIds_throne : throne.population.DistinctIds := List.pairwise_singleton _ _

def coronation : Text :=
  "Keyword = IsKing|Ulfric Stormcloak\nOutfit = RebelArmor|UlfricStormcloak+IsKing\n" ++
    "Outfit = KingArmor|UlfricStormcloak\nOutfit = RebelArmor|UlfricStormcloak+IsPretender"

theorem crown_is_reported :
    ∃ conflict ∈
        (rebelPass.review throne .default "Crown_DISTR.ini" .spid coronation).report.conflicts,
      conflict.npc = ulfric.id ∧ conflict.existing.fileName = "Rebels_DISTR.ini" ∧
        conflict.existing.outfit = ⟨"Armors.esp", 1⟩ ∧ conflict.proposedLine = 3 := by
  have hc : throne.population.characters[0]? = some { npc := ulfric } := rfl
  have hparsed := RuleFile.isParsed_ofText throne.catalog "Crown_DISTR.ini" .spid coronation
  obtain ⟨w, r, htaken, hw, hat⟩ := exists_isTakenOver rebelPass .default
    (fun w => !Text.sameAscii w.fileName "Crown_DISTR.ini" &&
      w.fileName == "Rebels_DISTR.ini" && w.outfit == ⟨"Armors.esp", 1⟩)
    2 distinctIds_throne hc hparsed (by decide +kernel) (by decide +kernel)
  simp only [Bool.and_eq_true, Bool.not_eq_true', beq_iff_eq] at hw
  obtain ⟨⟨hname, hfile⟩, houtfit⟩ := hw
  have hthird : (RuleFile.ofText throne.catalog "Crown_DISTR.ini" .spid coronation).rules[2]?.map
      (·.lineNumber) = some 3 := by decide +kernel
  rw [hat] at hthird
  obtain ⟨_, rfl⟩ := List.getElem?_eq_some_iff.1 hat
  obtain ⟨conflict, hconflict, hnpc, rfl, hline⟩ :=
    (Pass.conflict_of_isTakenOver distinctIds_throne rfl rfl hc htaken hname).2.2
      (by rw [List.getElem_cons_drop]; decide +kernel)
      (.inr (.inr fun j hj => absurd hj (Nat.not_lt_zero j)))
  exact ⟨conflict, hconflict, hnpc, hfile, houtfit, hline.trans (Option.some.inj hthird)⟩

/-- The distribution comes from a file of another format or of another name. -/
def Distribution.isFromElsewhere (d : Distribution) (name : Text) (dialect : Dialect) : Bool :=
  d.dialect != some dialect || !Text.sameAscii d.fileName name

/-- There is a takeover from another file, and a review says nothing of it. -/
def Pass.Overlooks (run : Pass) (game : Game) (slot : Slot) (name : Text) (dialect : Dialect)
    (text : Text) (npc : Npc) : Prop :=
  ∃ w r behind, run.IsTakenOver game slot (.ofText game.catalog name dialect text) npc w r behind ∧
    w.isFromElsewhere name dialect = true ∧
    ∀ conflict ∈ (run.review game .default name dialect text).report.conflicts,
      conflict.npc.same npc.id = false

def knighting : Text :=
  "Keyword = IsKing|Ulfric Stormcloak\nOutfit = KingArmor|UlfricStormcloak+IsKing"

def everyone : RuleFile :=
  .ofText throne.catalog "Crown_DISTR.ini" .skyPatcher "outfitDefault=RebelArmor"

def everyonePass : Pass := .overFiles throne (RuleFile.inLoadOrder [everyone]) [] .default false

def pretender : Npc := { ulfric with id := ⟨"Pretender.esp", 1⟩ }

def schism : Game := { throne with population := .ofNpcs [ulfric, pretender] }

def schismPass : Pass := .overFiles schism (RuleFile.inLoadOrder [everyone]) [] .default false

theorem review_overlooks :
    (throne.population.DistinctIds ∧ rebelPass.status = .completed ∧
      rebelPass.Overlooks throne .default "Crown_DISTR.ini" .spid knighting ulfric) ∧
    (throne.population.DistinctIds ∧ everyonePass.status = .completed ∧
      everyonePass.Overlooks throne .default "Crown_DISTR.ini" .spid crown ulfric) ∧
    (schism.population.DistinctIds ∧ schismPass.status = .completed ∧
      schismPass.Overlooks schism .default "King_DISTR.ini" .spid crown pretender) := by
  have hc : throne.population.characters[0]? = some { npc := ulfric } := rfl
  have hc' : schism.population.characters[1]? = some { npc := pretender } := rfl
  have hids' : schism.population.DistinctIds := by
    refine List.pairwise_pair.2 ?_
    decide +kernel
  refine ⟨⟨distinctIds_throne, rfl, ?_⟩, ⟨distinctIds_throne, rfl, ?_⟩, hids', rfl, ?_⟩
  · obtain ⟨w, r, htaken, hw, -⟩ := exists_isTakenOver rebelPass .default
      (·.isFromElsewhere "Crown_DISTR.ini" .spid) 1 distinctIds_throne hc
      (RuleFile.isParsed_ofText throne.catalog "Crown_DISTR.ini" .spid knighting)
      (by decide +kernel) (by decide +kernel)
    exact ⟨w, r, _, htaken, hw, by decide +kernel⟩
  · obtain ⟨w, r, htaken, hw, -⟩ := exists_isTakenOver everyonePass .default
      (·.isFromElsewhere "Crown_DISTR.ini" .spid) 0 distinctIds_throne hc
      (RuleFile.isParsed_ofText throne.catalog "Crown_DISTR.ini" .spid crown)
      (by decide +kernel) (by decide +kernel)
    exact ⟨w, r, _, htaken, hw, by decide +kernel⟩
  · obtain ⟨w, r, htaken, hw, -⟩ := exists_isTakenOver schismPass .default
      (·.isFromElsewhere "King_DISTR.ini" .spid) 0 hids' hc'
      (RuleFile.isParsed_ofText schism.catalog "King_DISTR.ini" .spid crown)
      (by decide +kernel) (by decide +kernel)
    exact ⟨w, r, _, htaken, hw, by decide +kernel⟩

end Wardrobe
