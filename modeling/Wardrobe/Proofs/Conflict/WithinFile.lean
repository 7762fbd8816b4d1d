import Wardrobe.Conflict.WithinFile
import Wardrobe.Proofs.Conflict.Disputes
import Wardrobe.Proofs.LoadOrder
/-
Conflicts between the rules of one file.

Every rule is paired with every later one, so two rules meet once, and over each character that
both speak of there is one conflict.  A rule matches whomever it speaks of.  So when the file is
resolved both outfits are put on the character, and the earlier of the two rules does not win.
-/

namespace Wardrobe

/-! ## Pairs -/

section Pairs

variable {R : α → α → Prop} {l : List α} {a b : α}

/-- In a list that is in order the pairs are those of its elements that are in order. -/
theorem mem_laterPairs (hasymm : ∀ a b, R a b → ¬ R b a) (h : l.Pairwise R) :
    (a, b) ∈ laterPairs l ↔ a ∈ l ∧ b ∈ l ∧ R a b := by
  induction l with
  | nil => simp [laterPairs]
  | cons first rest ih =>
    obtain ⟨hfirst, hrest⟩ := List.pairwise_cons.1 h
    rw [laterPairs, List.mem_append, ih hrest]
    constructor
    · rintro (hmap | ⟨ha, hb, hab⟩)
      · obtain ⟨later, hlater, hpair⟩ := List.mem_map.1 hmap
        obtain ⟨rfl, rfl⟩ := Prod.mk.inj hpair
        exact ⟨List.mem_cons_self, List.mem_cons_of_mem _ hlater, hfirst _ hlater⟩
      · exact ⟨List.mem_cons_of_mem _ ha, List.mem_cons_of_mem _ hb, hab⟩
    · rintro ⟨ha, hb, hab⟩
      rcases List.mem_cons.1 ha with rfl | harest <;> rcases List.mem_cons.1 hb with rfl | hbrest
      · exact absurd hab (hasymm _ _ hab)
      · exact Or.inl (List.mem_map.2 ⟨b, hbrest, rfl⟩)
      · exact absurd hab (hasymm _ _ (hfirst a harest))
      · exact Or.inr ⟨harest, hbrest, hab⟩

theorem fst_mem_of_mem_laterPairs {x : α × α} (h : x ∈ laterPairs l) : x.1 ∈ l := by
  induction l with
  | nil => cases h
  | cons first rest ih =>
    rw [laterPairs] at h
    rcases List.mem_append.1 h with h | h
    · obtain ⟨later, -, rfl⟩ := List.mem_map.1 h
      exact List.mem_cons_self
    · exact List.mem_cons_of_mem _ (ih h)

/-- The pairs come in the order of their first elements, and among those with one first element in
the order of the second. -/
theorem pairwise_laterPairs (h : l.Pairwise R) : (laterPairs l).Pairwise (Prod.Lex R R) := by
  induction l with
  | nil => exact .nil
  | cons first rest ih =>
    obtain ⟨hfirst, hrest⟩ := List.pairwise_cons.1 h
    refine List.pairwise_append.2 ⟨?_, ih hrest, ?_⟩
    · exact List.pairwise_map.2 (hrest.imp fun hab => .right first hab)
    · intro x hx y hy
      obtain ⟨later, -, rfl⟩ := List.mem_map.1 hx
      exact .left _ _ (hfirst _ (fst_mem_of_mem_laterPairs hy))

theorem laterPairs_map (f : α → β) (l : List α) :
    laterPairs (l.map f) = (laterPairs l).map (Prod.map f f) := by
  induction l with
  | nil => rfl
  | cons first rest ih =>
    rw [List.map_cons, laterPairs, laterPairs, ih, List.map_append, List.map_map, List.map_map]
    rfl

theorem laterPairs_filter (test : α → Bool) (l : List α) :
    laterPairs (l.filter test) = (laterPairs l).filter fun x => test x.1 && test x.2 := by
  induction l with
  | nil => rfl
  | cons first rest ih =>
    rw [laterPairs, List.filter_append, List.filter_map]
    cases hfirst : test first with
    | true =>
      rw [List.filter_cons_of_pos hfirst, laterPairs, ih]
      simp [Function.comp_def, hfirst]
    | false =>
      rw [List.filter_cons_of_neg (by simp [hfirst]), ih]
      simp [Function.comp_def, hfirst]

theorem pairwise_zipIdx (l : List α) : l.zipIdx.Pairwise fun x y => x.2 < y.2 := by
  refine List.pairwise_map.1 ?_
  rw [List.zipIdx_map_snd]
  exact List.pairwise_lt_range'

theorem mem_laterPairs_zipIdx {x y : α × Nat} :
    (x, y) ∈ laterPairs l.zipIdx ↔ l[x.2]? = some x.1 ∧ l[y.2]? = some y.1 ∧ x.2 < y.2 := by
  rw [mem_laterPairs (fun _ _ => Nat.lt_asymm) (pairwise_zipIdx l),
    List.mem_zipIdx_iff_getElem?, List.mem_zipIdx_iff_getElem?]

end Pairs

variable {p : Population} {tags : Tags} {slot : Slot} {proposed : List Rule} {first second : Rule}
  {m n i : Nat}

/-! ## Rules that meet -/

/-- The rule sets the outfit with the key in the slot. -/
structure Rule.Sets (r : Rule) (slot : Slot) (outfit : FormKey) : Prop where
  slot : r.target.slot? = some slot
  outfit : r.target.outfitKey? = some outfit

theorem Rule.AssignsForm.sets {r : Rule} (h : r.AssignsForm) (hslot : r.target.slot? = some slot) :
    ∃ outfit, r.Sets slot outfit := by
  cases htarget : r.target with
  | keyword tag =>
    rw [htarget] at hslot
    cases hslot
  | outfit own ref =>
    obtain ⟨kind, key, editorId, rfl⟩ := h own ref htarget
    exact ⟨key, hslot, by rw [htarget]; rfl⟩

theorem Target.outfitKey?_eq_none {t : Target} (h : t.slot? = none) : t.outfitKey? = none := by
  cases t with
  | outfit own ref => cases h
  | keyword tag => rfl

theorem Rule.exists_slot_of_disputes (h : first.disputes second = true) :
    ∃ slot, first.target.slot? = some slot ∧ second.target.slot? = some slot := by
  rw [disputes, Bool.and_eq_true, beq_iff_eq] at h
  obtain ⟨hslots, hkeys⟩ := h
  cases hslot : first.target.slot? with
  | none =>
    rw [Target.outfitKey?_eq_none hslot, Target.outfitKey?_eq_none (hslots.symm.trans hslot)]
      at hkeys
    cases hkeys
  | some slot => exact ⟨slot, rfl, hslots.symm.trans hslot⟩

/-- Rules dispute an outfit when they set different ones in one slot. -/
theorem Rule.disputes_iff (hfirst : first.AssignsForm) (hsecond : second.AssignsForm) :
    first.disputes second = true ↔
      ∃ slot a b, first.Sets slot a ∧ second.Sets slot b ∧ a.same b = false := by
  constructor
  · intro h
    obtain ⟨slot, hslot, hslot'⟩ := exists_slot_of_disputes h
    obtain ⟨a, ha⟩ := hfirst.sets hslot
    obtain ⟨b, hb⟩ := hsecond.sets hslot'
    rw [disputes, ha.outfit, hb.outfit, Bool.and_eq_true] at h
    exact ⟨slot, a, b, ha, hb, by simpa using h.2⟩
  · rintro ⟨slot, a, b, ha, hb, hapart⟩
    simp [disputes, ha.slot, ha.outfit, hb.slot, hb.outfit, hapart]

/-- The rules at the first two positions set different outfits in the slot, and both speak of the
character at the third position. -/
structure Meet (p : Population) (tags : Tags) (proposed : List Rule) (slot : Slot) (m n i : Nat)
    (first second : Rule) : Prop where
  before : m < n
  firstAt : proposed[m]? = some first
  secondAt : proposed[n]? = some second
  outfits : ∃ a b, first.Sets slot a ∧ second.Sets slot b ∧ a.same b = false
  firstSpeaks : i ∈ p.affected tags first
  secondSpeaks : i ∈ p.affected tags second

theorem Meet.exists_character (h : Meet p tags proposed slot m n i first second) :
    ∃ c, p.characters[i]? = some c := by
  have hi : i < p.size := Population.lt_size_of_mem_affected h.firstSpeaks
  exact ⟨_, Array.getElem?_eq_getElem hi⟩

/-- The characters over whom two rules of a file are in conflict. -/
def contested (p : Population) (tags : Tags) (first second : Rule) : List Nat :=
  if first.disputes second then
    (p.affected tags first).filter (p.affected tags second).contains
  else []

theorem mem_contested : i ∈ contested p tags first second ↔ first.disputes second = true ∧
    i ∈ p.affected tags first ∧ i ∈ p.affected tags second := by
  rw [contested]
  split
  next h => simp [h]
  next h => simp [h]

theorem pairwise_contested (p : Population) (tags : Tags) (first second : Rule) :
    (contested p tags first second).Pairwise (· < ·) := by
  rw [contested]
  split
  · exact (Population.pairwise_affected p tags first).filter _
  · exact .nil

/-- Where the rules of a file are in conflict: two positions in the file and one in the
population. -/
def conflictPlaces (p : Population) (tags : Tags) (proposed : List Rule) : List (Nat × Nat × Nat) :=
  (laterPairs proposed.zipIdx).flatMap fun x =>
    (contested p tags x.1.1 x.2.1).map fun i => (x.1.2, x.2.2, i)

/-- Rules that set no outfit dispute none, so they need not be sorted out before. -/
theorem conflictsWithin_eq (p : Population) (tags : Tags) (proposed : List Rule) :
    conflictsWithin p tags proposed = (laterPairs proposed.zipIdx).flatMap fun x =>
      (contested p tags x.1.1 x.2.1).filterMap fun i =>
        p.characters[i]?.map fun c => .ofRules c.npc x.1.1 x.2.1 := by
  have hrules : (proposed.filter (·.target.slot?.isSome)).map (fun r => (r, p.affected tags r)) =
      (proposed.zipIdx.filter (·.1.target.slot?.isSome)).map
        fun x => (x.1, p.affected tags x.1) := by
    conv_lhs => rw [← List.zipIdx_map_fst 0 proposed, List.filter_map, List.map_map]
    rfl
  rw [conflictsWithin, hrules, laterPairs_map, laterPairs_filter, List.flatMap_map,
    flatMap_filter_of_nil]
  · refine List.flatMap_congr fun x _ => ?_
    rw [contested]
    dsimp only [Prod.map]
    split <;> rfl
  · intro x _ htest
    dsimp only [Prod.map]
    refine if_neg fun h => ?_
    obtain ⟨slot, hslot, hslot'⟩ := Rule.exists_slot_of_disputes h
    rw [hslot, hslot'] at htest
    cases htest

/-- Over whom two rules are in conflict they meet. -/
theorem meet_of_mem_contested (hforms : ∀ r ∈ proposed, r.AssignsForm) {x y : Rule × Nat}
    (hpair : (x, y) ∈ laterPairs proposed.zipIdx) (hi : i ∈ contested p tags x.1 y.1) :
    ∃ slot, Meet p tags proposed slot x.2 y.2 i x.1 y.1 := by
  obtain ⟨hx, hy, hlt⟩ := mem_laterPairs_zipIdx.1 hpair
  obtain ⟨hdisputes, hfirst, hsecond⟩ := mem_contested.1 hi
  obtain ⟨slot, a, b, houtfits⟩ := (Rule.disputes_iff (hforms _ (List.mem_of_getElem? hx))
    (hforms _ (List.mem_of_getElem? hy))).1 hdisputes
  exact ⟨slot, hlt, hx, hy, ⟨a, b, houtfits⟩, hfirst, hsecond⟩

theorem mem_conflictPlaces (hforms : ∀ r ∈ proposed, r.AssignsForm) :
    (m, n, i) ∈ conflictPlaces p tags proposed ↔
      ∃ slot first second, Meet p tags proposed slot m n i first second := by
  rw [conflictPlaces, List.mem_flatMap]
  constructor
  · rintro ⟨⟨x, y⟩, hpair, hmem⟩
    obtain ⟨j, hj, hplace⟩ := List.mem_map.1 hmem
    obtain ⟨rfl, rfl, rfl⟩ : x.2 = m ∧ y.2 = n ∧ j = i := by simpa using hplace
    obtain ⟨slot, hmeet⟩ := meet_of_mem_contested hforms hpair hj
    exact ⟨slot, x.1, y.1, hmeet⟩
  · rintro ⟨slot, first, second, h⟩
    obtain ⟨a, b, houtfits⟩ := h.outfits
    have hdisputes := (Rule.disputes_iff (hforms _ (List.mem_of_getElem? h.firstAt))
      (hforms _ (List.mem_of_getElem? h.secondAt))).2 ⟨slot, a, b, houtfits⟩
    exact ⟨((first, m), (second, n)), mem_laterPairs_zipIdx.2 ⟨h.firstAt, h.secondAt, h.before⟩,
      List.mem_map.2 ⟨i, mem_contested.2 ⟨hdisputes, h.firstSpeaks, h.secondSpeaks⟩, rfl⟩⟩

theorem pairwise_conflictPlaces (p : Population) (tags : Tags) (proposed : List Rule) :
    (conflictPlaces p tags proposed).Pairwise
      (Prod.Lex (· < ·) (Prod.Lex (· < ·) (· < ·))) := by
  rw [conflictPlaces, List.pairwise_flatMap]
  constructor
  · intro x _
    refine List.pairwise_map.2 ((pairwise_contested p tags _ _).imp fun hlt => ?_)
    exact .right _ (.right _ hlt)
  · refine (pairwise_laterPairs (pairwise_zipIdx proposed)).imp fun hxy => ?_
    intro place hplace place' hplace'
    obtain ⟨i, -, rfl⟩ := List.mem_map.1 hplace
    obtain ⟨j, -, rfl⟩ := List.mem_map.1 hplace'
    cases hxy with
    | left _ _ hlt => exact .left _ _ hlt
    | right _ hlt => exact .right _ (.left _ _ hlt)

theorem forall₂_flatMap {R : β → γ → Prop} {f : α → List β} {g : α → List γ} {l : List α}
    (h : ∀ a ∈ l, List.Forall₂ R (f a) (g a)) : List.Forall₂ R (l.flatMap f) (l.flatMap g) := by
  induction l with
  | nil => exact .nil
  | cons a rest ih =>
    obtain ⟨ha, hrest⟩ := List.forall_mem_cons.1 h
    exact List.rel_append ha (ih hrest)

/-- The conflict tells of the two rules and the character, and is hard if both are certain. -/
structure PairConflict.IsBetween (conflict : PairConflict) (npc : Npc) (first second : Rule) :
    Prop where
  id : conflict.npc = npc.id
  shownName : conflict.npcName = npc.shownName
  firstLine : conflict.firstLine = first.lineNumber
  secondLine : conflict.secondLine = second.lineNumber
  hard : conflict.severity = .hardConflict ↔ IsCertain first.chance ∧ IsCertain second.chance
  soft : conflict.severity = .softOverlap ↔
    ¬ (IsCertain first.chance ∧ IsCertain second.chance)

theorem PairConflict.isBetween_ofRules (npc : Npc) (first second : Rule) :
    (PairConflict.ofRules npc first second).IsBetween npc first second := by
  obtain ⟨hhard, hsoft⟩ := Severity.ofCertainty_cases first.isCertain second.isCertain
  rw [Rule.isCertain, Rule.isCertain, certainChance_iff, certainChance_iff] at hhard hsoft
  exact ⟨rfl, rfl, rfl, rfl, hhard, hsoft⟩

/-- One conflict is listed for each place, in their order. -/
theorem forall₂_conflictPlaces (hforms : ∀ r ∈ proposed, r.AssignsForm) :
    List.Forall₂ (fun place conflict => ∃ c slot first second,
        p.characters[place.2.2]? = some c ∧
          Meet p tags proposed slot place.1 place.2.1 place.2.2 first second ∧
          conflict.IsBetween c.npc first second)
      (conflictPlaces p tags proposed) (conflictsWithin p tags proposed) := by
  rw [conflictsWithin_eq, conflictPlaces]
  refine forall₂_flatMap fun x hx => ?_
  rw [List.forall₂_map_left_iff]
  have hkeep : (contested p tags x.1.1 x.2.1).filter (fun _ => true) =
      contested p tags x.1.1 x.2.1 := List.filter_true _
  nth_rewrite 1 [← hkeep]
  refine forall₂_filter_filterMap (fun i hi _ => ?_) (fun i _ h => by cases h)
  · obtain ⟨slot, hmeet⟩ := meet_of_mem_contested hforms hx hi
    obtain ⟨c, hc⟩ := hmeet.exists_character
    refine ⟨.ofRules c.npc x.1.1 x.2.1, by rw [hc]; rfl, ?_⟩
    exact ⟨c, slot, _, _, hc, hmeet, PairConflict.isBetween_ofRules _ _ _⟩

/-! ## What the file comes to -/

/-- The distribution is that of the rule at the position in the file, which is the first of all
files. -/
def RuleFile.IsRecordedBy (file : RuleFile) (n : Nat) (d : Distribution) : Prop :=
  ∃ r, file.rules[n]? = some r ∧ d.Records ⟨file, 0, r⟩

/-- The result of a character on whom the rules at the positions put their outfits, in their order
and after that of the game.  The last of them wins. -/
structure Assignment.IsOfRules (a : Assignment) (file : RuleFile) (positions : List Nat)
    (last : Nat) : Prop where
  ascending : positions.Pairwise (· < ·)
  distributions : ∃ own ofRules, a.distributions = own ++ ofRules ∧
    (∀ d ∈ own, d.isOfGame = true) ∧ List.Forall₂ file.IsRecordedBy positions ofRules
  isLast : positions.getLast? = some last
  winner : ∃ w, a.winner? = some w ∧ file.IsRecordedBy last w

theorem Assignment.IsOfRules.le_last {a : Assignment} {file : RuleFile} {positions : List Nat}
    {last : Nat} (h : a.IsOfRules file positions last) (hn : n ∈ positions) : n ≤ last := by
  have hascending := h.ascending
  obtain ⟨front, hfront⟩ := List.getLast?_eq_some_iff.1 h.isLast
  rw [hfront] at hascending hn
  rcases List.mem_append.1 hn with hn | hn
  · exact Nat.le_of_lt ((List.pairwise_append.1 hascending).2.2 n hn last List.mem_cons_self)
  · exact Nat.le_of_eq (List.mem_singleton.1 hn)

/-- The positions of the rules for the slot that match the character. -/
def matchingPositions (p : Population) (tags : Tags) (slot : Slot) (rules : List Rule) (i : Nat) :
    List Nat :=
  (List.range rules.length).filter fun n =>
    rules[n]?.any fun r => r.setsSlot slot && p.satisfiesAt tags r.filters i

theorem mem_matchingPositions {rules : List Rule} {r : Rule} (hr : rules[n]? = some r) :
    n ∈ matchingPositions p tags slot rules i ↔
      r.setsSlot slot = true ∧ p.satisfiesAt tags r.filters i = true := by
  have hn : n < rules.length := (List.getElem?_eq_some_iff.1 hr).1
  rw [matchingPositions, List.mem_filter, List.mem_range, hr, and_iff_right hn, Option.any_some,
    Bool.and_eq_true]

theorem forall₂_matchingPositions (file : RuleFile) :
    List.Forall₂ (fun n m => ∃ r, file.rules[n]? = some r ∧ m = ⟨file, 0, r⟩)
      (matchingPositions p tags slot file.rules i) (matchingRulesOf p tags slot i (file, 0)) := by
  rw [matchingRulesOf, ← List.filterMap_eq_filter, List.map_filterMap, filterMap_eq_range]
  refine forall₂_filter_filterMap (fun n _ hkeep => ?_) (fun n hn hdrop => ?_)
  · obtain ⟨r, hr, htest⟩ := (Option.any_eq_true _ _).1 hkeep
    refine ⟨⟨file, 0, r⟩, ?_, r, hr, rfl⟩
    simp only [hr, Option.bind_some, Option.guard, htest, if_true, Option.map_some]
  · cases hr : file.rules[n]? with
    | none => rfl
    | some r =>
      rw [hr, Option.any_some] at hdrop
      simp only [Option.bind_some, Option.guard, hdrop, Bool.false_eq_true, if_false,
        Option.map_none]

theorem Assignment.IsFor.winner?_eq {a : Assignment} {npc : Npc} {matched : List PlacedRule}
    (h : a.IsFor npc slot matched) : a.winner? = a.distributions.getLast? := by
  rw [Assignment.winner?, List.getLast?_eq_getElem?, ← h.winnerIndex, Nat.add_sub_cancel]

/-- Resolving a file alone gives a character that some of its rules match the result of these
rules. -/
theorem exists_isOfRules (hids : p.DistinctIds) {file : RuleFile}
    (hforms : ∀ r ∈ file.rules, r.AssignsForm) {c : Character} (hc : p.characters[i]? = some c)
    (hn : n ∈ matchingPositions p tags slot file.rules i) :
    ∃ a last, (Resolution.ofFiles p [file] tags slot false).find? c.npc.id = some a ∧
      a.IsOfRules file (matchingPositions p tags slot file.rules i) last := by
  have hpositions : List.Forall₂ _ (matchingPositions p tags slot file.rules i) _ :=
    forall₂_matchingPositions file
  have hmatched : matchingRules p tags slot [file].zipIdx i =
      matchingRulesOf p tags slot i (file, 0) := List.append_nil _
  have hplaced : ∀ f ∈ [file].zipIdx, ∀ r ∈ f.1.rules, r.AssignsForm := by
    rw [List.zipIdx_singleton, List.forall_mem_singleton]
    exact hforms
  have hne : matchingRules p tags slot [file].zipIdx i ≠ [] := by
    rw [hmatched]
    obtain ⟨m, hm, -⟩ := exists_of_mem_left hpositions hn
    exact List.ne_nil_of_mem hm
  have hi : i < p.size := (Array.getElem?_eq_some_iff.1 hc).1
  obtain ⟨a, ha, c', hc', hfor⟩ := assignmentAt?_of_matchingRules hi hplaced hne
  obtain rfl := Option.some.inj (hc.symm.trans hc')
  obtain ⟨own, ofRules, hds, hown, hrecords⟩ := hfor.distributions
  rw [hmatched] at hrecords
  have hrecorded : List.Forall₂ file.IsRecordedBy
      (matchingPositions p tags slot file.rules i) ofRules :=
    forall₂_of_common hpositions hrecords fun n m d ⟨r, hr, hm⟩ hd => ⟨r, hr, hm ▸ hd⟩
  obtain ⟨d, hd, -⟩ := exists_of_mem_left hrecorded hn
  have hlast : ofRules.getLast? = some (ofRules.getLast (List.ne_nil_of_mem hd)) :=
    List.getLast?_eq_some_getLast _
  obtain ⟨last, hposition, hrecord⟩ := getLast?_of_forall₂ hrecorded hlast
  refine ⟨a, last, (find?_ofFiles hids hc).trans ha, List.pairwise_lt_range.filter _,
    ⟨own, ofRules, hds, fun d hd => ?_, hrecorded⟩, hposition, _, ?_, hrecord⟩
  · obtain ⟨link, -, hlink⟩ := exists_of_mem_left hown hd
    rw [Distribution.isOfGame, hlink.tier]
    rfl
  · rw [hfor.winner?_eq, hds, List.getLast?_append_of_ne_nil _ (List.ne_nil_of_mem hd), hlast]

theorem Rule.Sets.setsSlot {r : Rule} {outfit : FormKey} (h : r.Sets slot outfit) :
    r.setsSlot slot = true := by
  rw [Rule.setsSlot, h.slot]
  exact beq_self_eq_true _

/-- Of a file every two rules that set different outfits in one slot are in conflict once over each
character that both speak of, and a conflict is hard if both rules are certain.  When the file is
resolved, such a character has the outfits of both rules and wears that of the later one or of one
behind it. -/
theorem conflictsWithin_complete (hids : p.DistinctIds) (tags : Tags)
    (hforms : ∀ r ∈ proposed, r.AssignsForm) :
    (∃ places : List (Nat × Nat × Nat),
      places.Pairwise (Prod.Lex (· < ·) (Prod.Lex (· < ·) (· < ·))) ∧
      (∀ m n i, (m, n, i) ∈ places ↔
        ∃ slot first second, Meet p tags proposed slot m n i first second) ∧
      List.Forall₂ (fun place conflict => ∃ c slot first second,
          p.characters[place.2.2]? = some c ∧
            Meet p tags proposed slot place.1 place.2.1 place.2.2 first second ∧
            conflict.IsBetween c.npc first second)
        places (conflictsWithin p tags proposed)) ∧
    ∀ file : RuleFile, file.rules = proposed → ∀ slot m n i first second,
      Meet p tags proposed slot m n i first second →
        ∃ c a positions last, p.characters[i]? = some c ∧
          (Resolution.ofFiles p [file] tags slot false).find? c.npc.id = some a ∧
          a.IsOfRules file positions last ∧ m ∈ positions ∧ n ∈ positions ∧ n ≤ last := by
  constructor
  · exact ⟨conflictPlaces p tags proposed, pairwise_conflictPlaces p tags proposed,
      fun m n i => mem_conflictPlaces hforms, forall₂_conflictPlaces hforms⟩
  · rintro file rfl slot m n i first second h
    obtain ⟨c, hc⟩ := h.exists_character
    obtain ⟨_, _, hfirst, hsecond, -⟩ := h.outfits
    have hm : m ∈ matchingPositions p tags slot file.rules i :=
      (mem_matchingPositions h.firstAt).2
        ⟨hfirst.setsSlot, Population.satisfiesAt_of_mem_affected h.firstSpeaks⟩
    have hn : n ∈ matchingPositions p tags slot file.rules i :=
      (mem_matchingPositions h.secondAt).2
        ⟨hsecond.setsSlot, Population.satisfiesAt_of_mem_affected h.secondSpeaks⟩
    obtain ⟨a, last, ha, hrules⟩ := exists_isOfRules hids hforms hc hn
    exact ⟨c, a, _, last, hc, ha, hrules, hm, hn, hrules.le_last hn⟩

/-! Three rules for the day and one for the night, of which the last two are for everyone. -/

def dressCode : RuleFile :=
  .ofText cloakroom "Code_DISTR.ini" .spid
    "Outfit = Gown|Guard\nOutfit = Mail|Guard,Captain\nSleepOutfit = Mail\nOutfit = Gown"

theorem dressCode_in_conflict :
    nightWatch.DistinctIds ∧ (∀ r ∈ dressCode.rules, r.AssignsForm) ∧
      (∃ places : List (Nat × Nat × Nat), places.length = 3 ∧
        (∀ m n i, (m, n, i) ∈ places ↔ ∃ slot first second,
          Meet nightWatch (.none 3) dressCode.rules slot m n i first second) ∧
        (1, 3, 2) ∈ places) ∧
      ∃ c a positions last, nightWatch.characters[2]? = some c ∧
        (Resolution.ofFiles nightWatch [dressCode] (.none 3) .default false).find? c.npc.id =
          some a ∧
        a.IsOfRules dressCode positions last ∧ 1 ∈ positions ∧ 3 ∈ positions ∧ 3 ≤ last := by
  have hforms : ∀ r ∈ dressCode.rules, r.AssignsForm := fun r hr =>
    ((RuleFile.isParsed_ofText _ _ _ _).isReadAs hr).assignsForm
  have hlength : (conflictsWithin nightWatch (.none 3) dressCode.rules).length = 3 := by
    decide +kernel
  obtain ⟨⟨places, -, hmem, hlisted⟩, hresolved⟩ :=
    conflictsWithin_complete distinctIds_nightWatch (.none 3) hforms
  have hmeet : Meet nightWatch (.none 3) dressCode.rules .default 1 3 2
      (dressCode.rules.get ⟨1, by decide +kernel⟩)
      (dressCode.rules.get ⟨3, by decide +kernel⟩) := by
    refine ⟨by decide, List.getElem?_eq_getElem _, List.getElem?_eq_getElem _,
      ⟨⟨"Armors.esp", 1⟩, ⟨"Armors.esp", 2⟩, ⟨?_, ?_⟩, ⟨?_, ?_⟩, ?_⟩, ?_, ?_⟩ <;> decide +kernel
  refine ⟨distinctIds_nightWatch, hforms, ⟨places, hlisted.length_eq.trans hlength, hmem, ?_⟩,
    hresolved dressCode rfl .default 1 3 2 _ _ hmeet⟩
  exact (hmem 1 3 2).2 ⟨_, _, _, hmeet⟩

end Wardrobe
