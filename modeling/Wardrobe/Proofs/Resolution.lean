import Mathlib.Data.List.Forall2
import Wardrobe.Proofs.RuleFile
import Wardrobe.Proofs.Assignment
/-
Winner resolution, one character at a time.

The results are described without the walk that finds them: which rules match a character, what each
of them leaves on it, and what follows for the winner.
-/

namespace Wardrobe

variable {p : Population} {tags : Tags} {slot : Slot} {files : List RuleFile} {i : Nat}

/-! ## What a result has to say -/

/-- A rule in its file, with the position of the file among all files. -/
structure PlacedRule where
  file : RuleFile
  position : Nat
  rule : Rule

/-- The rules of a file for the slot that match the character. -/
def matchingRulesOf (p : Population) (tags : Tags) (slot : Slot) (i : Nat)
    (placed : RuleFile × Nat) : List PlacedRule :=
  (placed.1.rules.filter fun r => r.setsSlot slot && p.satisfiesAt tags r.filters i).map fun r =>
    ⟨placed.1, placed.2, r⟩

/-- The matching rules of all files, file by file and rule by rule. -/
def matchingRules (p : Population) (tags : Tags) (slot : Slot) (placed : List (RuleFile × Nat))
    (i : Nat) : List PlacedRule :=
  placed.flatMap (matchingRulesOf p tags slot i)

/-- The distribution records a placed rule. -/
structure Distribution.Records (d : Distribution) (m : PlacedRule) : Prop where
  sourcePath : d.sourcePath = some m.file.path
  fileName : d.fileName = m.file.fileName
  dialect : d.dialect = some m.rule.dialect
  tier : d.tier = m.rule.dialect.tier
  processingOrder : d.processingOrder = m.position + 1
  lineNumber : d.lineNumber = some m.rule.lineNumber
  raw : d.raw = m.rule.raw
  outfit : m.rule.target.outfitKey? = some d.outfit
  chance : d.chance = m.rule.chance

/-- The distribution records the outfit that the game gives. -/
structure Distribution.RecordsOwn (d : Distribution) (link : Form.Link) : Prop where
  tier : d.tier = 0
  processingOrder : d.processingOrder = 0
  outfit : d.outfit = link.key
  outfitEditorId : d.outfitEditorId = link.editorId

/-- The result of a character that the given rules match. -/
structure Assignment.IsFor (a : Assignment) (npc : Npc) (slot : Slot)
    (matched : List PlacedRule) : Prop where
  id : a.npc = npc.id
  npcName : a.npcName = npc.shownName
  npcEditorId : a.npcEditorId = npc.editorId
  distributions : ∃ own ofRules, a.distributions = own ++ ofRules ∧
    List.Forall₂ Distribution.RecordsOwn own (npc.ownOutfit? slot).toList ∧
    List.Forall₂ Distribution.Records ofRules matched
  winnerIndex : a.winnerIndex + 1 = a.distributions.length
  isContested : a.isContested = true ↔ 2 ≤ matched.length

/-- A target that is an outfit is a record and not a whole plugin. -/
def Rule.AssignsForm (r : Rule) : Prop :=
  ∀ slot ref, r.target = .outfit slot ref → ∃ kind key editorId, ref = .form kind key editorId

theorem Rule.IsReadAs.assignsForm {dialect : Dialect} {r : Rule} (h : r.IsReadAs dialect) :
    r.AssignsForm := by
  intro slot ref htarget
  obtain ⟨key, editorId, href⟩ := h.outfit slot ref htarget
  exact ⟨.outfit, key, editorId, href⟩

/-! ## The distributions of rules -/

theorem records_ofRule (file : RuleFile) (position : Nat) (r : Rule) {kind : Form.Kind}
    {key : FormKey} {editorId : Option Text}
    (h : r.target = .outfit slot (.form kind key editorId)) :
    (Distribution.ofRule file (position + 1) r key editorId).Records ⟨file, position, r⟩ := by
  have houtfit : r.target.outfitKey? = some key := by
    rw [h]
    rfl
  exact ⟨rfl, rfl, rfl, rfl, rfl, rfl, rfl, houtfit, rfl⟩

theorem records_distributionsOfFile {file : RuleFile} (position : Nat)
    (hforms : ∀ r ∈ file.rules, r.AssignsForm) :
    List.Forall₂ Distribution.Records (distributionsOfFile p tags slot i (file, position))
      (matchingRulesOf p tags slot i (file, position)) := by
  rw [matchingRulesOf, distributionsOfFile]
  dsimp only
  generalize file.rules = rules at hforms ⊢
  induction rules with
  | nil => exact .nil
  | cons r rest ih =>
    have hrest := ih fun s hs => hforms s (List.mem_cons_of_mem _ hs)
    by_cases hslot : r.setsSlot slot = true
    · -- A rule for the slot has an outfit, which is a form, so a match leaves a distribution.
      have htarget : ∃ kind key editorId, r.target = .outfit slot (.form kind key editorId) := by
        cases ht : r.target with
        | keyword tag => simp [Rule.setsSlot, ht, Target.slot?] at hslot
        | outfit own ref =>
          have hown : own = slot := by simpa [Rule.setsSlot, ht, Target.slot?] using hslot
          obtain ⟨kind, key, editorId, rfl⟩ := hforms r List.mem_cons_self own ref ht
          exact ⟨kind, key, editorId, by rw [hown]⟩
      obtain ⟨kind, key, editorId, ht⟩ := htarget
      by_cases hholds : p.satisfiesAt tags r.filters i = true
      · have hd : distributionOf? p tags file (position + 1) i r =
            some (.ofRule file (position + 1) r key editorId) :=
          distributionOf?_eq_some.2 ⟨slot, kind, key, editorId, ht, hholds, rfl⟩
        simp only [List.filter_cons, hslot, hholds, Bool.and_self, if_true, List.map_cons,
          List.filterMap_cons, hd]
        exact .cons (records_ofRule file position r ht) hrest
      · have hd : distributionOf? p tags file (position + 1) i r = none := by
          rw [distributionOf?, ht]
          exact if_neg hholds
        simpa only [List.filter_cons, hslot, hholds, Bool.and_false, if_true, if_false,
          List.filterMap_cons, hd, Bool.false_eq_true] using hrest
    · simpa only [List.filter_cons, hslot, Bool.false_and, if_false, Bool.false_eq_true] using hrest

theorem records_distributionsOn {placed : List (RuleFile × Nat)}
    (hforms : ∀ f ∈ placed, ∀ r ∈ f.1.rules, r.AssignsForm) :
    List.Forall₂ Distribution.Records (distributionsOn p tags slot placed i)
      (matchingRules p tags slot placed i) := by
  induction placed with
  | nil => exact .nil
  | cons f rest ih =>
    have hrest := ih fun g hg => hforms g (List.mem_cons_of_mem _ hg)
    exact List.rel_append (records_distributionsOfFile f.2 (hforms f List.mem_cons_self)) hrest

/-! ## The result of one character -/

theorem isOfGame_ofGame (npc : Npc) (link : Form.Link) :
    (Distribution.ofGame npc link).isOfGame = true := rfl

theorem isFor_ofDistributions {npc : Npc} {ds : List Distribution} {matched : List PlacedRule}
    (hrecords : List.Forall₂ Distribution.Records ds matched)
    (hrules : ∀ d ∈ ds, d.isOfGame = false) (hne : ds ≠ []) :
    (Assignment.ofDistributions npc
      ((npc.ownOutfit? slot).toList.map (Distribution.ofGame npc) ++ ds)).IsFor npc slot
        matched := by
  have hown : List.Forall₂ Distribution.RecordsOwn
      ((npc.ownOutfit? slot).toList.map (Distribution.ofGame npc))
      (npc.ownOutfit? slot).toList := by
    rw [List.forall₂_map_left_iff, List.forall₂_same]
    exact fun link _ => ⟨rfl, rfl, rfl, rfl⟩
  refine ⟨rfl, rfl, rfl, ⟨_, ds, rfl, hown, hrecords⟩, ?_, ?_⟩
  · obtain ⟨front, last, rfl⟩ := (List.eq_nil_or_concat ds).resolve_left hne
    have hlast : last.isOfGame = false := hrules last (by simp)
    rw [List.concat_eq_append, ← List.append_assoc, Assignment.ofDistributions]
    dsimp only
    rw [lastIndexWhere_concat (by simp [hlast])]
    simp [Nat.add_assoc]
  · have hgame : ((npc.ownOutfit? slot).toList.map (Distribution.ofGame npc)).filter
        (fun d => !d.isOfGame) = [] := by simp [isOfGame_ofGame]
    have hall : ds.filter (fun d => !d.isOfGame) = ds := by
      rw [List.filter_eq_self]
      exact fun d hd => by simp [hrules d hd]
    simp only [Assignment.ofDistributions, List.filter_append, hgame, hall, List.nil_append,
      hrecords.length_eq, decide_eq_true_eq, Nat.lt_iff_add_one_le]

theorem assignmentAt?_of_matchingRules {placed : List (RuleFile × Nat)} (hi : i < p.size)
    (hforms : ∀ f ∈ placed, ∀ r ∈ f.1.rules, r.AssignsForm)
    (hmatched : matchingRules p tags slot placed i ≠ []) :
    ∃ a, assignmentAt? p tags slot placed i = some a ∧ ∃ c, p.characters[i]? = some c ∧
      a.IsFor c.npc slot (matchingRules p tags slot placed i) := by
  have hrecords : List.Forall₂ Distribution.Records (distributionsOn p tags slot placed i)
      (matchingRules p tags slot placed i) := records_distributionsOn hforms
  have hne : distributionsOn p tags slot placed i ≠ [] := by
    intro hnil
    rw [hnil, List.forall₂_nil_left_iff] at hrecords
    exact hmatched hrecords
  have hc : p.characters[i]? = some p.characters[i] := Array.getElem?_eq_getElem hi
  have hat : assignmentAt? p tags slot placed i = some (.ofDistributions p.characters[i].npc
      ((p.characters[i].npc.ownOutfit? slot).toList.map (Distribution.ofGame p.characters[i].npc) ++
        distributionsOn p tags slot placed i)) := by
    rw [assignmentAt?, hc, Option.bind_some, assignmentOf?, List.isEmpty_reverse,
      List.reverse_reverse, if_neg (by simpa using hne)]
  exact ⟨_, hat, _, hc,
    isFor_ofDistributions hrecords (fun _ => isOfGame_of_mem_distributionsOn) hne⟩

/-! ## All results -/

theorem forall₂_filter_filterMap {R : α → β → Prop} {keep : α → Bool} {f : α → Option β}
    {l : List α} (hkeep : ∀ a ∈ l, keep a = true → ∃ b, f a = some b ∧ R a b)
    (hdrop : ∀ a ∈ l, keep a = false → f a = none) :
    List.Forall₂ R (l.filter keep) (l.filterMap f) := by
  induction l with
  | nil => exact .nil
  | cons a rest ih =>
    have hrest := ih (fun b hb => hkeep b (List.mem_cons_of_mem _ hb))
      (fun b hb => hdrop b (List.mem_cons_of_mem _ hb))
    cases h : keep a with
    | true =>
      obtain ⟨b, hb, hR⟩ := hkeep a List.mem_cons_self h
      rw [List.filter_cons_of_pos h, List.filterMap_cons_some hb]
      exact .cons hR hrest
    | false =>
      rw [List.filter_cons_of_neg (by simp [h]), List.filterMap_cons_none (hdrop a (by simp) h)]
      exact hrest

/-- Resolution gives a result to the characters that some rule for the slot matches, in the order of
the population, and to nobody else.  A result lists the outfit of the game, if there is one, and
then one distribution for each matching rule in the order of files and rules; the last of them wins,
and the result is contested when two or more rules match. -/
theorem Resolution.ofFiles_forall₂_matchingRules
    (hforms : ∀ file ∈ files, ∀ r ∈ file.rules, r.AssignsForm) :
    (ofFiles p files tags slot false).status = .completed ∧
      (ofFiles p files tags slot false).slot = slot ∧
      List.Forall₂
        (fun i a => ∃ c, p.characters[i]? = some c ∧
          a.IsFor c.npc slot (matchingRules p tags slot files.zipIdx i))
        ((List.range p.size).filter fun i => !(matchingRules p tags slot files.zipIdx i).isEmpty)
        (ofFiles p files tags slot false).results := by
  have hplaced : ∀ f ∈ files.zipIdx, ∀ r ∈ f.1.rules, r.AssignsForm := by
    intro f hf
    exact hforms f.1 (List.fst_mem_of_mem_zipIdx hf)
  refine ⟨rfl, rfl, ?_⟩
  rw [results_ofFiles]
  refine forall₂_filter_filterMap (fun i hi hmatched => ?_) (fun i hi hnone => ?_)
  · exact assignmentAt?_of_matchingRules (List.mem_range.1 hi) hplaced (by simpa using hmatched)
  · have hrecords : List.Forall₂ Distribution.Records (distributionsOn p tags slot files.zipIdx i)
        (matchingRules p tags slot files.zipIdx i) := records_distributionsOn hplaced
    have hnil : matchingRules p tags slot files.zipIdx i = [] := by simpa using hnone
    rw [hnil, List.forall₂_nil_right_iff] at hrecords
    exact (assignmentAt?_eq_none (List.mem_range.1 hi)).2 hrecords

/-! Two files dress the one of two soldiers, who has an outfit of his own. -/

def soldier (localId : UInt32) (name : Text) (own : Option Form.Link) : Npc where
  id := ⟨"Skyrim.esm", localId⟩
  name := some name
  editorId := none
  sourcePlugin := "Skyrim.esm"
  factions := []
  keywords := []
  race := none
  combatClass := none
  defaultOutfit := own
  sleepOutfit := none
  combatStyle := none
  voiceType := none
  template := none
  level := 5
  skills := []
  traits := ⟨false, true, false, false, false⟩

def garrison : List Npc :=
  [soldier 1 "Hadvar" (some ⟨⟨"Skyrim.esm", 3⟩, none⟩), soldier 2 "Ralof" none]

def wardrobe : Catalog :=
  .ofRecords [⟨⟨"Armors.esp", 1⟩, .outfit, some "Uniform", none⟩,
    ⟨⟨"Armors.esp", 2⟩, .outfit, some "Parade", none⟩] garrison []

def orders : List RuleFile :=
  [.ofText wardrobe "Daily_DISTR.ini" .spid "Outfit = Uniform|Hadvar",
    .ofText wardrobe "Feast_DISTR.ini" .spid "Outfit = Parade|*adv"]

theorem orders_dress_hadvar :
    (∀ file ∈ orders, ∀ r ∈ file.rules, r.AssignsForm) ∧
      ∃ a, (Resolution.ofFiles (.ofNpcs garrison) orders (.none 2) .default false).results = [a] ∧
        a.npc = ⟨"Skyrim.esm", 1⟩ ∧ a.winnerIndex = 2 ∧ a.isContested = true := by
  have hforms : ∀ file ∈ orders, ∀ r ∈ file.rules, r.AssignsForm := by
    intro file hfile r hr
    rcases List.mem_cons.1 hfile with rfl | hfile
    · exact ((RuleFile.isParsed_ofText _ _ _ _).isReadAs hr).assignsForm
    · obtain rfl := List.mem_singleton.1 hfile
      exact ((RuleFile.isParsed_ofText _ _ _ _).isReadAs hr).assignsForm
  have hmatched : (matchingRules (.ofNpcs garrison) (.none 2) .default orders.zipIdx 0).length =
      2 := by decide +kernel
  have hpositions : ((List.range (Population.ofNpcs garrison).size).filter fun i =>
      !(matchingRules (.ofNpcs garrison) (.none 2) .default orders.zipIdx i).isEmpty) = [0] := by
    decide +kernel
  obtain ⟨-, -, hresults⟩ :=
    @Resolution.ofFiles_forall₂_matchingRules (.ofNpcs garrison) (.none 2) .default orders hforms
  rw [hpositions] at hresults
  obtain ⟨a, rest, ⟨c, hc, hfor⟩, hnil, hresults⟩ := List.forall₂_cons_left_iff.1 hresults
  rw [List.forall₂_nil_left_iff] at hnil
  rw [hnil] at hresults
  obtain rfl := Option.some.inj hc
  obtain ⟨own, ofRules, hds, hown, hrules⟩ := hfor.distributions
  have hlength : a.distributions.length = 3 := by
    rw [hds, List.length_append, hown.length_eq, hrules.length_eq, hmatched]
    rfl
  have hwinner := hfor.winnerIndex
  exact ⟨hforms, a, hresults, hfor.id, by omega, hfor.isContested.2 (Nat.le_of_eq hmatched.symm)⟩

end Wardrobe
