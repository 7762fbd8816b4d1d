import Wardrobe.Proofs.Pass
import Wardrobe.Proofs.Resolution
/-
What the order in which files are found has to do with a pass, which is nothing, and which rule
wins.

Files that the load order tells apart can be sorted in one way only, so a pass over them is the same
however they were found.  The distributions on a character stand in the order of the files and, in
one file, of its rules, so the last of them is that of the last matching rule of the greatest file
that has one.
-/

namespace Wardrobe

variable {p : Population} {tags : Tags} {slot : Slot} {files files' : List RuleFile} {i : Nat}

/-! ## The last matching rule -/

theorem getLast?_flatMap_eq_some {f : α → List β} {l : List α} {b : β}
    (h : (l.flatMap f).getLast? = some b) :
    ∃ before a after, l = before ++ a :: after ∧ (f a).getLast? = some b ∧
      ∀ x ∈ after, f x = [] := by
  induction l with
  | nil => cases h
  | cons a rest ih =>
    rw [List.flatMap_cons, List.getLast?_append] at h
    cases hlast : (rest.flatMap f).getLast? with
    | some c =>
      rw [hlast] at h
      obtain rfl := Option.some.inj h
      obtain ⟨before, x, after, rfl, hx, hafter⟩ := ih hlast
      exact ⟨a :: before, x, after, rfl, hx, hafter⟩
    | none =>
      rw [hlast] at h
      have hnil : rest.flatMap f = [] := List.getLast?_eq_none_iff.1 hlast
      exact ⟨[], a, rest, rfl, h, List.flatMap_eq_nil_iff.1 hnil⟩

theorem getLast?_of_forall₂ {R : α → β → Prop} {as : List α} {bs : List β} {b : β}
    (h : List.Forall₂ R as bs) (hb : bs.getLast? = some b) : ∃ a, as.getLast? = some a ∧ R a b := by
  obtain ⟨front, rfl⟩ := List.getLast?_eq_some_iff.1 hb
  have hreverse := List.rel_reverse h
  rw [List.reverse_append] at hreverse
  obtain ⟨a, rest, hR, -, has⟩ := List.forall₂_cons_right_iff.1 hreverse
  rw [List.getLast?_eq_head?_reverse, has]
  exact ⟨a, rfl, hR⟩

/-- The rules of the file for the slot that match the character at a position. -/
def RuleFile.rulesFor (f : RuleFile) (p : Population) (tags : Tags) (slot : Slot) (i : Nat) :
    List Rule :=
  f.rules.filter fun r => r.setsSlot slot && p.satisfiesAt tags r.filters i

/-- The rule is the last one in its file that matches the character, and all other files that have
one come before that file in load order. -/
structure IsWinningRule (p : Population) (tags : Tags) (slot : Slot) (files : List RuleFile)
    (i : Nat) (file : RuleFile) (r : Rule) : Prop where
  mem : file ∈ files
  last : (file.rulesFor p tags slot i).getLast? = some r
  greatest : ∀ g ∈ files, g.rulesFor p tags slot i ≠ [] →
    g = file ∨ RuleFile.comparePlace g file = .lt

theorem matchingRulesOf_eq_map (file : RuleFile) (position : Nat) :
    matchingRulesOf p tags slot i (file, position) =
      (file.rulesFor p tags slot i).map fun r => ⟨file, position, r⟩ := rfl

theorem matchingRules_eq_nil_iff : matchingRules p tags slot files.zipIdx i = [] ↔
    ∀ f ∈ files, f.rulesFor p tags slot i = [] := by
  rw [matchingRules, List.flatMap_eq_nil_iff]
  constructor
  · intro h f hf
    obtain ⟨position, hposition⟩ := List.mem_iff_getElem?.1 hf
    exact List.map_eq_nil_iff.1 (h (f, position) (List.mem_zipIdx_iff_getElem?.2 hposition))
  · intro h f hf
    exact List.map_eq_nil_iff.2 (h f.1 (List.fst_mem_of_mem_zipIdx hf))

/-- Some rule of the files for the slot matches the character at a position. -/
def isMatched (p : Population) (tags : Tags) (slot : Slot) (files : List RuleFile) (i : Nat) :
    Bool :=
  files.any fun f => !(f.rulesFor p tags slot i).isEmpty

theorem isMatched_eq_false_iff :
    isMatched p tags slot files i = false ↔ matchingRules p tags slot files.zipIdx i = [] := by
  rw [matchingRules_eq_nil_iff, isMatched, List.any_eq_false]
  simp

/-- In files that stand in load order the last matching rule of all is the winning one. -/
theorem isWinningRule_of_getLast? {m : PlacedRule}
    (hsorted : files.Pairwise fun f g => RuleFile.comparePlace f g = .lt)
    (hlast : (matchingRules p tags slot files.zipIdx i).getLast? = some m) :
    files[m.position]? = some m.file ∧ IsWinningRule p tags slot files i m.file m.rule := by
  obtain ⟨before, ⟨file, position⟩, after, hsplit, hm, hafter⟩ := getLast?_flatMap_eq_some hlast
  rw [matchingRulesOf_eq_map, List.getLast?_map] at hm
  obtain ⟨r, hr, rfl⟩ := Option.map_eq_some_iff.1 hm
  have hfiles : files = before.map Prod.fst ++ file :: after.map Prod.fst := by
    have hfst := congrArg (List.map Prod.fst) hsplit
    rwa [List.zipIdx_map_fst, List.map_append, List.map_cons] at hfst
  have hplaced : (file, position) ∈ files.zipIdx := by
    rw [hsplit]
    exact List.mem_append_right _ List.mem_cons_self
  have hposition : files[position]? = some file := List.mem_zipIdx_iff_getElem?.1 hplaced
  refine ⟨hposition, List.mem_of_getElem? hposition, hr, fun g hg hne => ?_⟩
  rw [hfiles] at hg hsorted
  rcases List.mem_append.1 hg with hbefore | hg
  · exact Or.inr ((List.pairwise_append.1 hsorted).2.2 g hbefore file List.mem_cons_self)
  rcases List.mem_cons.1 hg with rfl | hg
  · exact Or.inl rfl
  · obtain ⟨⟨_, k⟩, hk, rfl⟩ := List.mem_map.1 hg
    exact absurd (List.map_eq_nil_iff.1 (hafter _ hk)) hne

/-! ## Results -/

/-- The result of a character goes to the winning rule of the files. -/
structure Assignment.IsWonIn (a : Assignment) (p : Population) (tags : Tags) (slot : Slot)
    (files : List RuleFile) (i : Nat) : Prop where
  npc : ∃ c, p.characters[i]? = some c ∧ a.npc = c.npc.id
  winner : ∃ w position file r, a.winner? = some w ∧ w.Records ⟨file, position, r⟩ ∧
    files[position]? = some file ∧ IsWinningRule p tags slot files i file r

theorem isWonIn_of_assignmentAt? {a : Assignment}
    (hsorted : files.Pairwise fun f g => RuleFile.comparePlace f g = .lt)
    (hforms : ∀ f ∈ files, ∀ r ∈ f.rules, r.AssignsForm)
    (hmatched : matchingRules p tags slot files.zipIdx i ≠ [])
    (ha : assignmentAt? p tags slot files.zipIdx i = some a) : a.IsWonIn p tags slot files i := by
  obtain ⟨c, hc, hid, hwinner, -⟩ := assignmentAt?_eq_some ha
  have hrecords : List.Forall₂ Distribution.Records (distributionsOn p tags slot files.zipIdx i)
      (matchingRules p tags slot files.zipIdx i) :=
    records_distributionsOn fun f hf => hforms f.1 (List.fst_mem_of_mem_zipIdx hf)
  obtain ⟨w, hw, hrecorded⟩ := getLast?_of_forall₂ hrecords (List.getLast?_eq_some_getLast hmatched)
  obtain ⟨hposition, hwins⟩ :=
    isWinningRule_of_getLast? hsorted (List.getLast?_eq_some_getLast hmatched)
  exact ⟨⟨c, hc, hid⟩, w, _, _, _, hwinner.trans hw, hrecorded, hposition, hwins⟩

/-- The results over files in load order are, in the order of the population, those of the
characters that some rule matches, each won by its winning rule. -/
theorem isWonIn_results
    (hsorted : files.Pairwise fun f g => RuleFile.comparePlace f g = .lt)
    (hforms : ∀ f ∈ files, ∀ r ∈ f.rules, r.AssignsForm) :
    List.Forall₂ (fun i a => Assignment.IsWonIn a p tags slot files i)
      ((List.range p.size).filter (isMatched p tags slot files))
      (Resolution.ofFiles p files tags slot false).results := by
  have hplaced : ∀ f ∈ files.zipIdx, ∀ r ∈ f.1.rules, r.AssignsForm :=
    fun f hf => hforms f.1 (List.fst_mem_of_mem_zipIdx hf)
  rw [results_ofFiles]
  refine forall₂_filter_filterMap (fun i hi hsome => ?_) (fun i hi hnone => ?_)
  · have hmatched : matchingRules p tags slot files.zipIdx i ≠ [] := by
      intro hnil
      rw [isMatched_eq_false_iff.2 hnil] at hsome
      cases hsome
    obtain ⟨a, ha, -⟩ := assignmentAt?_of_matchingRules (List.mem_range.1 hi) hplaced hmatched
    exact ⟨a, ha, isWonIn_of_assignmentAt? hsorted hforms hmatched ha⟩
  · have hnil := isMatched_eq_false_iff.1 hnone
    have hrecords : List.Forall₂ Distribution.Records (distributionsOn p tags slot files.zipIdx i)
        (matchingRules p tags slot files.zipIdx i) := records_distributionsOn hplaced
    rw [hnil, List.forall₂_nil_right_iff] at hrecords
    exact (assignmentAt?_eq_none (List.mem_range.1 hi)).2 hrecords

/-- However the files were found, as long as the load order tells them apart the pass over them is
one and the same, and each result in it is won by the last matching rule of the greatest file that
has one. -/
theorem Pass.overFiles_of_perm (game : Game) (skipped : List UnreadableFile) (slot : Slot)
    (hperm : files.Perm files') (hapart : Apart RuleFile.comparePlace files)
    (hparsed : ∀ f ∈ files, ∃ c, f.IsParsed c) :
    ∃ run, overFiles game (RuleFile.inLoadOrder files) skipped slot false = run ∧
      overFiles game (RuleFile.inLoadOrder files') skipped slot false = run ∧
      run.status = .completed ∧ run.files.Perm files ∧
      List.Forall₂ (fun i a => Assignment.IsWonIn a game.population run.tags slot run.files i)
        ((List.range game.population.size).filter
          (isMatched game.population run.tags slot run.files))
        run.resolution.results := by
  have hsame : RuleFile.inLoadOrder files = RuleFile.inLoadOrder files' :=
    sortBy_eq_of_perm hperm hapart
  have hforms : ∀ f ∈ RuleFile.inLoadOrder files, ∀ r ∈ f.rules, r.AssignsForm := by
    intro f hf r hr
    obtain ⟨c, hf⟩ := hparsed f ((perm_sortBy _ _).mem_iff.1 hf)
    exact (hf.isReadAs hr).assignsForm
  have hstatus := status_overFiles game (RuleFile.inLoadOrder files) skipped slot
  obtain ⟨hfiles, htags, hresolution⟩ := completed_overFiles hstatus
  refine ⟨_, rfl, by rw [hsame], hstatus, ?_⟩
  rw [hfiles, htags, hresolution]
  exact ⟨perm_sortBy _ _, isWonIn_results (pairwise_lt_sortBy hapart) hforms⟩

def barracks : Game := ⟨.ofNpcs garrison, wardrobe⟩

/-- The feast comes after the daily service, also where it is found first. -/
theorem orders_reversed :
    (Pass.overFiles barracks (RuleFile.inLoadOrder orders.reverse) [] .default
        false).resolution.results.map (fun a => a.winner?.map (·.fileName)) =
      [some ("Feast_DISTR.ini" : Text)] ∧
    ∃ a, (Pass.overFiles barracks (RuleFile.inLoadOrder orders.reverse) [] .default
        false).resolution.results = [a] ∧
      a.IsWonIn barracks.population (.none 2) .default orders 0 := by
  have hapart : Apart RuleFile.comparePlace orders := by
    refine List.pairwise_pair.2 ?_
    decide +kernel
  have hparsed : ∀ f ∈ orders, ∃ c, f.IsParsed c := by
    intro f hf
    rcases List.mem_cons.1 hf with rfl | hf
    · exact ⟨_, RuleFile.isParsed_ofText _ _ _ _⟩
    · obtain rfl := List.mem_singleton.1 hf
      exact ⟨_, RuleFile.isParsed_ofText _ _ _ _⟩
  have hwinners : (Pass.overFiles barracks (RuleFile.inLoadOrder orders) [] .default
      false).resolution.results.map (fun a => a.winner?.map (·.fileName)) =
        [some ("Feast_DISTR.ini" : Text)] := by decide +kernel
  have hmatched : ((List.range barracks.population.size).filter
      (isMatched barracks.population (.none 2) .default orders)) = [0] := by decide +kernel
  have hfiles : (Pass.overFiles barracks (RuleFile.inLoadOrder orders) [] .default false).files =
      orders := by decide +kernel
  have htags : (Pass.overFiles barracks (RuleFile.inLoadOrder orders) [] .default false).tags =
      .none 2 := by decide +kernel
  obtain ⟨run, rfl, hreversed, -, -, hresults⟩ := Pass.overFiles_of_perm barracks [] .default
    (List.reverse_perm orders).symm hapart hparsed
  rw [hfiles, htags, hmatched] at hresults
  obtain ⟨a, rest, hwon, hnil, ha⟩ := List.forall₂_cons_left_iff.1 hresults
  rw [List.forall₂_nil_left_iff] at hnil
  rw [hreversed]
  exact ⟨hwinners, a, hnil ▸ ha, hwon⟩

end Wardrobe
