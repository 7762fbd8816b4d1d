import Mathlib.Data.List.Pairwise
import Wardrobe.Proofs.Conflict.Report
import Wardrobe.Proofs.Resolution
/-
What a report on a proposed file lists.

Of the proposed rules that speak of a character the last one counts, and it disputes the character
if the winner so far comes from a file of another name and sets another outfit.  A report has one
conflict for each character that is disputed, in the order of the population, and nothing else.
-/

namespace Wardrobe

variable {p : Population} {tags : Tags} {slot : Slot} {r : Rule} {i : Nat} {npc : Npc}
  {w : Distribution} {existing : Resolution} {fileName : Text} {proposed : List Rule}
  {conflict : Conflict} {files : List RuleFile}

/-! ## Results of a population -/

/-- The results are those of characters of the population, in its order. -/
def Resolution.IsOf (p : Population) (existing : Resolution) : Prop :=
  (existing.results.map (·.npc)).Sublist (p.npcs.map (·.id))

theorem sublist_filterMap {f g : α → Option β} (h : ∀ a b, f a = some b → g a = some b)
    (l : List α) : (l.filterMap f).Sublist (l.filterMap g) := by
  induction l with
  | nil => exact .slnil
  | cons a rest ih =>
    cases hf : f a with
    | some b =>
      rw [List.filterMap_cons_some hf, List.filterMap_cons_some (h a b hf)]
      exact ih.cons_cons b
    | none =>
      rw [List.filterMap_cons_none hf]
      exact ih.trans ((List.sublist_cons_self a rest).filterMap g)

theorem ids_eq_range (p : Population) : p.npcs.map (·.id) =
    (List.range p.size).filterMap fun i => p.characters[i]?.map (·.npc.id) := by
  rw [Population.npcs, List.map_map, ← List.filterMap_eq_map, filterMap_eq_range,
    Array.length_toList]
  refine List.filterMap_congr fun i _ => ?_
  rw [Array.getElem?_toList, Option.map_eq_bind]
  rfl

theorem isOf_ofFiles (p : Population) (files : List RuleFile) (tags : Tags) (slot : Slot)
    (cancelled : Bool) : (Resolution.ofFiles p files tags slot cancelled).IsOf p := by
  cases hstatus : (Resolution.ofFiles p files tags slot cancelled).status with
  | cancelled =>
    rw [Resolution.ofFiles] at hstatus ⊢
    split at hstatus
    next hcancelled =>
      rw [if_pos hcancelled]
      exact List.nil_sublist _
    next => cases hstatus
  | completed =>
    rw [Resolution.ofFiles_of_completed hstatus, Resolution.IsOf, results_ofFiles,
      ids_eq_range, List.map_filterMap]
    refine sublist_filterMap (fun i id hid => ?_) _
    obtain ⟨a, ha, rfl⟩ := Option.map_eq_some_iff.1 hid
    obtain ⟨c, hc, hnpc, -, -⟩ := assignmentAt?_eq_some ha
    rw [hc, hnpc]
    rfl

/-- No two results are for one character, so it does not matter from which end one is looked
for. -/
theorem ruleWinnerOf?_eq (hids : p.DistinctIds) (h : existing.IsOf p) (id : FormKey) :
    existing.ruleWinnerOf? id = (existing.find? id).bind (·.ruleWinner?) := by
  have hapart : existing.results.Pairwise fun a b => a.npc.same b.npc = false := by
    have hkeys : (p.npcs.map (·.id)).Pairwise fun a b => a.same b = false :=
      List.pairwise_map.2 hids
    exact List.pairwise_map.1 (hkeys.sublist h)
  have hunique : ∀ a ∈ existing.results, a.npc.same id = true →
      ∀ b ∈ existing.results, b.npc.same id = true → b = a := by
    intro a ha hsame b hb hsame'
    by_contra hne
    have : Std.Symm fun a b : Assignment => a.npc.same b.npc = false :=
      ⟨fun a b hab => (FormKey.same_comm _ _).trans hab⟩
    have hfalse := hapart.forall hb ha hne
    rw [FormKey.same_trans hsame' ((FormKey.same_comm _ _).trans hsame)] at hfalse
    cases hfalse
  rw [Resolution.ruleWinnerOf?, Resolution.find?]
  congr 1
  cases hfind : existing.results.find? fun a => a.npc.same id with
  | none =>
    rw [List.find?_eq_none] at hfind ⊢
    exact fun a ha => hfind a (List.mem_reverse.1 ha)
  | some a =>
    have ha := List.mem_of_find?_eq_some hfind
    have hsame := List.find?_some hfind
    exact find?_eq_some_of_unique (List.mem_reverse.2 ha) hsame fun b hb =>
      hunique a ha hsame b (List.mem_reverse.1 hb)

/-! ## Disputed characters -/

/-- The rule, which is the last of the proposed ones for the slot that speak of the character,
disputes it with the winner that another rule made. -/
structure Disputes (p : Population) (tags : Tags) (existing : Resolution) (fileName : Text)
    (proposed : List Rule) (i : Nat) (npc : Npc) (w : Distribution) (r : Rule) : Prop where
  character : p.npcs[i]? = some npc
  last : IsLastOf (fun r => r.setsSlot existing.slot = true ∧ i ∈ p.affected tags r) proposed r
  winner : ∃ a, existing.find? npc.id = some a ∧ a.ruleWinner? = some w
  name : Text.sameAscii w.fileName fileName = false
  outfit : r.target.outfitKey?.any (·.same w.outfit) = false

/-- The conflict about the character at a position. -/
def conflictAt? (p : Population) (tags : Tags) (existing : Resolution) (fileName : Text)
    (proposed : List Rule) (i : Nat) : Option Conflict := do
  let r ← decidingRule? p tags existing.slot proposed i
  let npc := (← p.characters[i]?).npc
  let current ← existing.ruleWinnerOf? npc.id
  conflictWith? fileName npc current r

theorem findConflicts_eq (p : Population) (tags : Tags) (existing : Resolution) (fileName : Text)
    (proposed : List Rule) : findConflicts p tags existing fileName proposed =
      (List.range p.size).filterMap (conflictAt? p tags existing fileName proposed) := by
  rw [findConflicts, decidingRules_eq, List.filterMap_filterMap]
  refine List.filterMap_congr fun i _ => ?_
  rw [Option.bind_map]
  rfl

section Population

variable (hids : p.DistinctIds) (hof : existing.IsOf p)

include hids hof

theorem disputes_of_conflictAt?
    (h : conflictAt? p tags existing fileName proposed i = some conflict) :
    ∃ npc w r, Disputes p tags existing fileName proposed i npc w r ∧
      conflict.IsBetween npc w r := by
  obtain ⟨r, hr, h⟩ := Option.bind_eq_some_iff.1 h
  obtain ⟨c, hc, h⟩ := Option.bind_eq_some_iff.1 h
  obtain ⟨w, hw, h⟩ := Option.bind_eq_some_iff.1 h
  rw [ruleWinnerOf?_eq hids hof] at hw
  obtain ⟨hname, houtfit, hbetween⟩ := conflictWith?_eq_some h
  have hnpc : p.npcs[i]? = some c.npc := by simp [Population.npcs, hc]
  exact ⟨c.npc, w, r, ⟨hnpc, decidingRule?_eq_some.1 hr, Option.bind_eq_some_iff.1 hw, hname,
    houtfit⟩, hbetween⟩

theorem isSome_conflictAt? (h : Disputes p tags existing fileName proposed i npc w r) :
    (conflictAt? p tags existing fileName proposed i).isSome = true := by
  obtain ⟨c, hc, rfl⟩ : ∃ c, p.characters[i]? = some c ∧ c.npc = npc := by
    simpa [Population.npcs] using h.character
  have hw : existing.ruleWinnerOf? c.npc.id = some w := by
    rw [ruleWinnerOf?_eq hids hof]
    exact Option.bind_eq_some_iff.2 h.winner
  have hwith : conflictWith? fileName c.npc w r ≠ none := by
    rw [Ne, conflictWith?_eq_none, h.name, h.outfit]
    decide
  obtain ⟨conflict, hconflict⟩ := Option.ne_none_iff_exists'.1 hwith
  refine Option.isSome_iff_exists.2 ⟨conflict, ?_⟩
  refine Option.bind_eq_some_iff.2 ⟨r, decidingRule?_eq_some.2 h.last, ?_⟩
  exact Option.bind_eq_some_iff.2 ⟨c, hc, Option.bind_eq_some_iff.2 ⟨w, hw, hconflict⟩⟩

theorem isSome_conflictAt?_iff :
    (conflictAt? p tags existing fileName proposed i).isSome = true ↔
      ∃ npc w r, Disputes p tags existing fileName proposed i npc w r := by
  constructor
  · intro h
    obtain ⟨conflict, hconflict⟩ := Option.isSome_iff_exists.1 h
    obtain ⟨npc, w, r, hdisputes, -⟩ := disputes_of_conflictAt? hids hof hconflict
    exact ⟨npc, w, r, hdisputes⟩
  · rintro ⟨npc, w, r, hdisputes⟩
    exact isSome_conflictAt? hids hof hdisputes

end Population

theorem lt_size_of_disputes (h : Disputes p tags existing fileName proposed i npc w r) :
    i < p.size :=
  Population.lt_size_of_mem_affected h.last.holds.2

/-! ## What a report adds up -/

theorem Conflict.Report.hasHardConflict_iff {report : Conflict.Report} :
    report.hasHardConflict = true ↔
      ∃ conflict ∈ report.conflicts, conflict.severity = .hardConflict := by
  simp [hasHardConflict, hardCount, List.length_pos_iff_exists_mem]

theorem Conflict.Report.hasSoftOverlap_iff {report : Conflict.Report} :
    report.hasSoftOverlap = true ↔
      ∃ conflict ∈ report.conflicts, conflict.severity ≠ .hardConflict := by
  rw [hasSoftOverlap, softCount, hardCount, decide_eq_true_iff, Nat.sub_pos_iff_lt,
    List.length_filter_lt_length_iff_exists]
  simp

/-- Names without repetitions stand in the order in which they first appear. -/
theorem pairwise_idxOf_distinct (names : List Text) :
    (distinct names).Pairwise fun a b => names.idxOf a < names.idxOf b := by
  induction names using List.reverseRecOn with
  | nil => exact .nil
  | append_singleton front name ih =>
    have hstep : distinct (front ++ [name]) = pushNew (distinct front) name := by
      simp [distinct]
    have hfront : (distinct front).Pairwise fun a b =>
        (front ++ [name]).idxOf a < (front ++ [name]).idxOf b := by
      refine ih.imp_of_mem fun ha hb hlt => ?_
      rwa [List.idxOf_append_of_mem (mem_distinct.1 ha),
        List.idxOf_append_of_mem (mem_distinct.1 hb)]
    rw [hstep, pushNew]
    split
    · exact hfront
    next hnew =>
      rw [List.contains_iff_mem, mem_distinct] at hnew
      refine List.pairwise_append.2 ⟨hfront, List.pairwise_singleton _ _, fun a ha b hb => ?_⟩
      obtain rfl := List.mem_singleton.1 hb
      have hlt : front.idxOf a < front.length := List.idxOf_lt_length_iff.2 (mem_distinct.1 ha)
      rw [List.idxOf_append_of_mem (mem_distinct.1 ha), List.idxOf_append_of_notMem hnew]
      exact Nat.lt_of_lt_of_le hlt (Nat.le_add_right _ _)

/-- A report lists exactly the disputed characters.  It has one conflict for each, in the order of
the population, which tells of the winner and of the last proposed rule that speaks of the
character.  The report is said to have a hard conflict or a soft overlap if it lists one, and it
names the files of the winners once each, in the order in which they first appear. -/
theorem Conflict.Report.lists_disputes (hids : p.DistinctIds) (hof : existing.IsOf p) (tags : Tags)
    (settings : Settings) (fileName : Text) (dialect : Dialect) (proposed : List Rule) :
    let report := Conflict.Report.ofRules p tags existing settings fileName dialect proposed
    let fileNames := report.conflicts.map (·.existing.fileName)
    (∃ positions : List Nat, positions.Pairwise (· < ·) ∧
      (∀ i, i ∈ positions ↔ ∃ npc w r, Disputes p tags existing fileName proposed i npc w r) ∧
      List.Forall₂ (fun i conflict => ∃ npc w r,
        Disputes p tags existing fileName proposed i npc w r ∧ conflict.IsBetween npc w r)
        positions report.conflicts) ∧
    (report.hasHardConflict = true ↔
      ∃ conflict ∈ report.conflicts, conflict.severity = .hardConflict) ∧
    (report.hasSoftOverlap = true ↔
      ∃ conflict ∈ report.conflicts, conflict.severity = .softOverlap) ∧
    (∀ name, name ∈ report.conflictingFiles ↔ name ∈ fileNames) ∧
    report.conflictingFiles.Pairwise fun a b => fileNames.idxOf a < fileNames.idxOf b := by
  intro report fileNames
  have hconflicts : report.conflicts =
      (List.range p.size).filterMap (conflictAt? p tags existing fileName proposed) :=
    findConflicts_eq p tags existing fileName proposed
  let isDisputed (i : Nat) := (conflictAt? p tags existing fileName proposed i).isSome
  refine ⟨⟨(List.range p.size).filter isDisputed, List.pairwise_lt_range.filter _, fun i => ?_, ?_⟩,
    hasHardConflict_iff, ?_, fun name => mem_distinct, pairwise_idxOf_distinct fileNames⟩
  · rw [List.mem_filter, List.mem_range, isSome_conflictAt?_iff hids hof]
    exact and_iff_right_of_imp fun ⟨_, _, _, h⟩ => lt_size_of_disputes h
  · rw [hconflicts]
    refine forall₂_filter_filterMap (fun i _ h => ?_) fun i _ h => by simpa [isDisputed] using h
    obtain ⟨conflict, hconflict⟩ := Option.isSome_iff_exists.1 h
    exact ⟨conflict, hconflict, disputes_of_conflictAt? hids hof hconflict⟩
  · rw [hasSoftOverlap_iff]
    refine exists_congr fun conflict => and_congr_right fun hmem => ?_
    rw [hconflicts] at hmem
    obtain ⟨i, -, hi⟩ := List.mem_filterMap.1 hmem
    obtain ⟨npc, w, r, -, hbetween⟩ := disputes_of_conflictAt? hids hof hi
    rw [Ne, hbetween.hard, hbetween.soft]

/-! The night watch wears mail, and a new file has gowns for it.  The captain keeps the mail, for
one guard the gown is certain, and for the other it is left to chance. -/

def cloakroom : Catalog :=
  .ofRecords [⟨⟨"Armors.esp", 1⟩, .outfit, some "Mail", none⟩,
    ⟨⟨"Armors.esp", 2⟩, .outfit, some "Gown", none⟩] nightWatch.npcs []

def inMail : Resolution :=
  .ofFiles nightWatch [.ofText cloakroom "Mail_DISTR.ini" .spid "Outfit = Mail"] (.none 3) .default
    false

def newGowns : List Rule :=
  (RuleFile.ofText cloakroom "Gown_DISTR.ini" .spid
    "Outfit = Gown|NONE|NONE|NONE|NONE|NONE|50\nOutfit = Mail|Captain\nOutfit = Gown|Guard").rules

theorem newGowns_dispute :
    nightWatch.DistinctIds ∧ inMail.IsOf nightWatch ∧
      ∃ positions : List Nat, positions.length = 2 ∧
        (∀ i, i ∈ positions ↔ ∃ npc w r,
          Disputes nightWatch (.none 3) inMail "Gown_DISTR.ini" newGowns i npc w r) ∧
        ∃ i ∈ positions, ∃ npc w r,
          Disputes nightWatch (.none 3) inMail "Gown_DISTR.ini" newGowns i npc w r ∧
            w.fileName = "Mail_DISTR.ini" ∧ IsCertain w.chance ∧ IsCertain r.chance := by
  have hof : inMail.IsOf nightWatch := isOf_ofFiles _ _ _ _ _
  have hlength : (findConflicts nightWatch (.none 3) inMail "Gown_DISTR.ini" newGowns).length = 2 :=
    by decide +kernel
  have hfirst : ∀ conflict ∈
      (findConflicts nightWatch (.none 3) inMail "Gown_DISTR.ini" newGowns).head?,
      conflict.severity = .hardConflict ∧ conflict.existing.fileName = "Mail_DISTR.ini" := by
    decide +kernel
  obtain ⟨⟨positions, -, hmem, hlisted⟩, -⟩ := Conflict.Report.lists_disputes
    distinctIds_nightWatch hof (.none 3) .default "Gown_DISTR.ini" .spid newGowns
  refine ⟨distinctIds_nightWatch, hof, positions, hlisted.length_eq.trans hlength, hmem, ?_⟩
  obtain ⟨first, second, hconflicts⟩ := List.length_eq_two.1 hlength
  obtain ⟨hhard, hfile⟩ := hfirst first (by rw [hconflicts]; rfl)
  rw [Conflict.Report.ofRules] at hlisted
  dsimp only at hlisted
  rw [hconflicts] at hlisted
  obtain ⟨i, rest, ⟨npc, w, r, hdisputes, hbetween⟩, -, rfl⟩ :=
    List.forall₂_cons_right_iff.1 hlisted
  exact ⟨i, List.mem_cons_self, npc, w, r, hdisputes, hbetween.existing ▸ hfile,
    hbetween.hard.1 hhard⟩

end Wardrobe
