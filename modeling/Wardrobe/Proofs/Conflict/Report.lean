import Wardrobe.Conflict.Report
import Wardrobe.Proofs.Conflict.Affected
import Wardrobe.Proofs.Conflict.FileName
import Wardrobe.Proofs.Pass
/-
When a proposed file is in conflict with what is there, and what the verdict on its name promises.
-/

namespace Wardrobe

variable {p : Population} {tags : Tags} {slot : Slot} {r : Rule} {i : Nat}

/-! ## The last of the rules -/

/-- The last element of the list that has the property. -/
def IsLastOf (P : α → Prop) (l : List α) (a : α) : Prop :=
  ∃ before after, l = before ++ a :: after ∧ P a ∧ ∀ b ∈ after, ¬ P b

theorem IsLastOf.mem {P : α → Prop} {l : List α} {a : α} (h : IsLastOf P l a) : a ∈ l := by
  obtain ⟨before, after, rfl, -, -⟩ := h
  exact List.mem_append_right _ List.mem_cons_self

theorem IsLastOf.holds {P : α → Prop} {l : List α} {a : α} (h : IsLastOf P l a) : P a := by
  obtain ⟨-, -, -, ha, -⟩ := h
  exact ha

/-- A property that fewer elements have, but the last one still, has the same last one. -/
theorem IsLastOf.imp {P Q : α → Prop} {l : List α} {a : α} (h : IsLastOf P l a) (ha : Q a)
    (hPQ : ∀ b, Q b → P b) : IsLastOf Q l a := by
  obtain ⟨before, after, rfl, -, hafter⟩ := h
  exact ⟨before, after, rfl, ha, fun b hb hQ => hafter b hb (hPQ b hQ)⟩

theorem find?_reverse_eq_some {l : List α} {test : α → Bool} {a : α} :
    l.reverse.find? test = some a ↔ IsLastOf (test · = true) l a := by
  rw [List.find?_eq_some_iff_append]
  constructor
  · rintro ⟨ha, after, before, hl, hafter⟩
    refine ⟨before.reverse, after.reverse, by simpa using congrArg List.reverse hl, ha, ?_⟩
    intro b hb
    simpa using hafter b (List.mem_reverse.1 hb)
  · rintro ⟨before, after, rfl, ha, hafter⟩
    refine ⟨ha, after.reverse, before.reverse, by simp, fun b hb => ?_⟩
    simpa using hafter b (List.mem_reverse.1 hb)

theorem IsLastOf.unique {P : α → Prop} {l : List α} {a b : α} (ha : IsLastOf P l a)
    (hb : IsLastOf P l b) : a = b := by
  classical
  have hfind {c : α} (hc : IsLastOf P l c) : l.reverse.find? (fun x => decide (P x)) = some c :=
    find?_reverse_eq_some.2 (by simpa only [decide_eq_true_eq] using hc)
  exact Option.some.inj ((hfind ha).symm.trans (hfind hb))

/-- The last of the rules for the slot that speaks of the character. -/
def decidingRule? (p : Population) (tags : Tags) (slot : Slot) (proposed : List Rule) (i : Nat) :
    Option Rule :=
  proposed.reverse.find? fun r => r.setsSlot slot && (p.affected tags r).contains i

theorem decidingRule?_eq_some {proposed : List Rule} :
    decidingRule? p tags slot proposed i = some r ↔
      IsLastOf (fun r => r.setsSlot slot = true ∧ i ∈ p.affected tags r) proposed r := by
  rw [decidingRule?, find?_reverse_eq_some]
  simp only [Bool.and_eq_true, List.contains_iff_mem]

theorem decidingRules_eq (p : Population) (tags : Tags) (slot : Slot) (proposed : List Rule) :
    decidingRules p tags slot proposed = (List.range p.size).filterMap fun i =>
      (decidingRule? p tags slot proposed i).map fun r => (i, r) := by
  rw [decidingRules]
  refine List.filterMap_congr fun i _ => ?_
  rw [List.find?_map, Option.map_map, ← List.filter_reverse, List.find?_filter, decidingRule?]
  simp only [Bool.decide_and, Bool.decide_eq_true]
  rfl

theorem mem_decidingRules {proposed : List Rule} :
    (i, r) ∈ decidingRules p tags slot proposed ↔
      IsLastOf (fun r => r.setsSlot slot = true ∧ i ∈ p.affected tags r) proposed r := by
  rw [decidingRules_eq, List.mem_filterMap, ← decidingRule?_eq_some]
  constructor
  · rintro ⟨j, -, hj⟩
    obtain ⟨rule, hrule, hpair⟩ := Option.map_eq_some_iff.1 hj
    obtain ⟨rfl, rfl⟩ := Prod.mk.inj hpair
    exact hrule
  · intro h
    have hi : i < p.size :=
      Population.lt_size_of_mem_affected (decidingRule?_eq_some.1 h).holds.2
    exact ⟨i, List.mem_range.2 hi, by rw [h]; rfl⟩

/-! ## Conflicts -/

theorem ruleWinnerOf?_ofFiles {files : List RuleFile} {c : Character} (h : p.DistinctIds)
    (hc : p.characters[i]? = some c) :
    (Resolution.ofFiles p files tags slot false).ruleWinnerOf? c.npc.id =
      (distributionsOn p tags slot files.zipIdx i).getLast? := by
  have hi : i < p.size := (Array.getElem?_eq_some_iff.1 hc).1
  have hfind : (Resolution.ofFiles p files tags slot false).results.reverse.find?
      (fun a => a.npc.same c.npc.id) = assignmentAt? p tags slot files.zipIdx i :=
    find?_assignments h hc fun a => List.mem_reverse.trans mem_results
  rw [Resolution.ruleWinnerOf?, hfind]
  cases hat : assignmentAt? p tags slot files.zipIdx i with
  | none =>
    rw [(assignmentAt?_eq_none hi).1 hat]
    rfl
  | some a =>
    obtain ⟨_, -, -, -, hwinner⟩ := assignmentAt?_eq_some hat
    exact hwinner

theorem conflictWith?_eq_none {fileName : Text} {npc : Npc} {current : Distribution} :
    conflictWith? fileName npc current r = none ↔
      Text.sameAscii current.fileName fileName = true ∨
        r.target.outfitKey?.any (·.same current.outfit) = true := by
  rw [conflictWith?]
  split
  next hname => simp [hname]
  next hname =>
    split
    next houtfit => simp [houtfit]
    next houtfit => simp [hname, houtfit]

/-- The chance leaves nothing to chance: there is none, or it is at least 100. -/
def IsCertain (chance : Option UInt8) : Prop := ∀ percent ∈ chance, 100 ≤ percent

/-- The conflict tells of the rule and the winner, and is hard if both are certain. -/
structure Conflict.IsBetween (conflict : Conflict) (npc : Npc) (w : Distribution) (r : Rule) :
    Prop where
  id : conflict.npc = npc.id
  shownName : conflict.npcName = npc.shownName
  existing : conflict.existing = w
  proposedLine : conflict.proposedLine = r.lineNumber
  proposedOutfit : conflict.proposedOutfit = r.outfitName
  proposedChance : conflict.proposedChance = r.chance
  hard : conflict.severity = .hardConflict ↔ IsCertain w.chance ∧ IsCertain r.chance
  soft : conflict.severity = .softOverlap ↔ ¬ (IsCertain w.chance ∧ IsCertain r.chance)

theorem certainChance_iff {chance : Option UInt8} :
    certainChance chance = true ↔ IsCertain chance := by
  simp [certainChance, IsCertain, Option.all_eq_true]

theorem Severity.ofCertainty_cases (left right : Bool) :
    (ofCertainty left right = hardConflict ↔ left = true ∧ right = true) ∧
      (ofCertainty left right = softOverlap ↔ ¬ (left = true ∧ right = true)) := by
  cases left <;> cases right <;> decide

/-- A rule that disputes nothing with the winner gives no conflict, and any other one gives that
between the two. -/
theorem conflictWith?_eq_some {fileName : Text} {npc : Npc} {w : Distribution}
    {conflict : Conflict} (h : conflictWith? fileName npc w r = some conflict) :
    Text.sameAscii w.fileName fileName = false ∧
      r.target.outfitKey?.any (·.same w.outfit) = false ∧ conflict.IsBetween npc w r := by
  have hdispute : conflictWith? fileName npc w r ≠ none := by
    rw [h]
    exact Option.some_ne_none _
  rw [Ne, conflictWith?_eq_none, not_or, Bool.not_eq_true, Bool.not_eq_true] at hdispute
  obtain ⟨hname, houtfit⟩ := hdispute
  rw [conflictWith?, hname, houtfit] at h
  obtain rfl := Option.some.inj h
  obtain ⟨hhard, hsoft⟩ := Severity.ofCertainty_cases w.isCertain r.isCertain
  rw [Distribution.isCertain, Rule.isCertain, certainChance_iff, certainChance_iff] at hhard hsoft
  exact ⟨hname, houtfit, rfl, rfl, rfl, rfl, rfl, rfl, hhard, hsoft⟩

theorem existing_of_conflictWith? {fileName : Text} {npc : Npc} {current : Distribution}
    {conflict : Conflict} (h : conflictWith? fileName npc current r = some conflict) :
    conflict.npc = npc.id ∧ conflict.existing = current ∧ conflict.proposedLine = r.lineNumber := by
  obtain ⟨-, -, hbetween⟩ := conflictWith?_eq_some h
  exact ⟨hbetween.id, hbetween.existing, hbetween.proposedLine⟩

/-- A conflict is one between the deciding rule for a character and the winner on it. -/
theorem mem_findConflicts {existing : Resolution} {fileName : Text} {proposed : List Rule}
    {conflict : Conflict} :
    conflict ∈ findConflicts p tags existing fileName proposed ↔
      ∃ i r c current, (i, r) ∈ decidingRules p tags existing.slot proposed ∧
        p.characters[i]? = some c ∧ existing.ruleWinnerOf? c.npc.id = some current ∧
        conflictWith? fileName c.npc current r = some conflict := by
  rw [findConflicts, List.mem_filterMap]
  constructor
  · intro h
    obtain ⟨⟨i, r⟩, hdeciding, h⟩ := h
    obtain ⟨c, hc, h⟩ := Option.bind_eq_some_iff.1 h
    obtain ⟨current, hcurrent, h⟩ := Option.bind_eq_some_iff.1 h
    exact ⟨i, r, c, current, hdeciding, hc, hcurrent, h⟩
  · intro h
    obtain ⟨i, r, c, current, hdeciding, hc, hcurrent, h⟩ := h
    refine ⟨(i, r), hdeciding, ?_⟩
    exact Option.bind_eq_some_iff.2 ⟨c, hc, Option.bind_eq_some_iff.2 ⟨current, hcurrent, h⟩⟩

/-! ## Verdicts -/

namespace Verdict

/-- The name under which the proposed file is said to win. -/
def winningName? (proposed : Text) : Verdict → Option Text
  | alreadyResolved => some proposed
  | rename suggested => some suggested
  | _ => none

end Verdict

variable {conflicts : List Conflict} {conflict : Conflict} {fileName name suggested : Text}
  {dialect : Dialect} {settings : Settings}

/-- The names in the same tier of the files that a proposed one is in conflict with. -/
def rivals (conflicts : List Conflict) (dialect : Dialect) : List Text :=
  distinct ((conflicts.filter fun c => c.existing.tier == dialect.tier).map (·.existing.fileName))

/-- A name that sorts after all rivals stands after all files of the conflicts, unless one of them
is of a higher tier. -/
theorem loadKey_of_comesLast (hlast : LoadName.comesLast name (rivals conflicts dialect) = true)
    (hconflict : conflict ∈ conflicts) (hrank : ¬ dialect.tier < conflict.existing.tier) :
    RuleFile.compareKeys (dialect.tier, Text.lower name) conflict.existing.loadKey = .gt := by
  rw [RuleFile.compareKeys, Distribution.loadKey]
  dsimp only
  rcases Nat.lt_or_ge conflict.existing.tier dialect.tier with hlt | hge
  · rw [Nat.compare_eq_gt.2 hlt]
    rfl
  · have htier : conflict.existing.tier = dialect.tier := by omega
    have hrival : conflict.existing.fileName ∈ rivals conflicts dialect := by
      refine mem_distinct.2 (List.mem_map.2 ⟨conflict, ?_, rfl⟩)
      exact List.mem_filter.2 ⟨hconflict, by simp [htier]⟩
    rw [htier, Nat.compare_eq_eq.2 rfl]
    exact LoadName.comesLast_iff.1 hlast _ hrival

/-- How a verdict comes about that leaves the proposed file a name. -/
theorem winningName?_verdictOn
    (h : (verdictOn conflicts fileName dialect settings).winningName? fileName = some name) :
    (∀ conflict ∈ conflicts, ¬ dialect.tier < conflict.existing.tier) ∧
      LoadName.comesLast name (rivals conflicts dialect) = true ∧
      (name = fileName ∨ LoadName.suggest fileName (rivals conflicts dialect)
        settings.priorityMarker (settings.suffixFor dialect) = some name) := by
  rw [verdictOn] at h
  split at h
  · cases h
  split at h
  · cases h
  next hfind =>
    refine ⟨fun conflict hconflict => ?_, ?_⟩
    · simpa using List.find?_eq_none.1 hfind conflict hconflict
    · dsimp only at h
      split at h
      next hlast =>
        obtain rfl := Option.some.inj h
        exact ⟨hlast, Or.inl rfl⟩
      next =>
        split at h
        next suggested hsuggest =>
          obtain rfl := Option.some.inj h
          exact ⟨(LoadName.suggest_eq_some hsuggest).1, Or.inr hsuggest⟩
        next => cases h

end Wardrobe
