import Wardrobe.Keyword.Replay
import Wardrobe.Proofs.Keyword.Plan
import Wardrobe.Proofs.Match
/-
What a replay of keyword rules comes to, and whether its tags are a fixed point.

A rule is asked once, at its place in the plan.  The plan puts a rule after all that assign a tag it
names in full, so such a part finds the same answer then as in the end.  A wildcard part names no
tag, and what it finds may have been given after it was asked.
-/

namespace Wardrobe
namespace Keyword

variable {p : Population} {rules : List Rule} {tags : Tags} {t : Text} {i j k : Nat}
  {r giver : Rule}

open ReplayPlan (ofRules Precedes)

/-! ## One rule -/

theorem size_replay (p : Population) (tags : Tags) (r : Rule) :
    (replay p tags r).size = tags.size := by
  rw [replay]
  split
  · exact Tags.size_foldl_give _ _ _
  · rfl

theorem mem_replay (hsize : tags.size = p.size) : t ∈ (replay p tags r).of i ↔
    t ∈ tags.of i ∨ (r.target.tag? = some t ∧ p.satisfiesAt tags r.filters i = true) := by
  rw [replay]
  split
  next tag htag =>
    rw [Tags.mem_foldl_give, Population.mem_matching, htag, hsize, Option.some.injEq]
    constructor
    · intro h
      rcases h with hmem | ⟨hholds, -, rfl⟩
      · exact Or.inl hmem
      · exact Or.inr ⟨rfl, hholds⟩
    · intro h
      rcases h with hmem | ⟨rfl, hholds⟩
      · exact Or.inl hmem
      · exact Or.inr ⟨hholds, Population.lt_size_of_satisfiesAt hholds, rfl⟩
  next htag => simp [htag]

theorem nodup_replay (h : (tags.of i).Nodup) : ((replay p tags r).of i).Nodup := by
  rw [replay]
  split
  · exact Tags.nodup_foldl_give h
  · exact h

/-! ## The whole plan -/

/-- The rules of the plan, in its order. -/
def dueRules (rules : List Rule) : List Rule := (ofRules rules).order.filterMap (rules[·]?)

/-- The tags that the rule at a place of the plan is asked under. -/
def tagsBefore (p : Population) (rules : List Rule) (k : Nat) : Tags :=
  ((dueRules rules).take k).foldl (replay p) (.none p.size)

/-- The rule at a place of the plan. -/
def ruleAt? (rules : List Rule) (k : Nat) : Option Rule :=
  (ofRules rules).order[k]?.bind (rules[·]?)

theorem getElem?_filterMap_of_isSome {f : α → Option β} {l : List α}
    (h : ∀ a ∈ l, (f a).isSome) : (l.filterMap f)[k]? = l[k]?.bind f := by
  induction l generalizing k with
  | nil => rfl
  | cons a rest ih =>
    obtain ⟨b, hb⟩ := Option.isSome_iff_exists.1 (h a List.mem_cons_self)
    rw [List.filterMap_cons_some hb]
    cases k with
    | zero => simp [hb]
    | succ k => simpa using ih fun a ha => h a (List.mem_cons_of_mem _ ha)

theorem getElem?_dueRules (rules : List Rule) (k : Nat) :
    (dueRules rules)[k]? = ruleAt? rules k := by
  refine getElem?_filterMap_of_isSome fun j hj => ?_
  simpa using (ReplayPlan.mem_order.1 hj).1

theorem ruleAt?_eq_some : ruleAt? rules k = some r ↔
    ∃ j, (ofRules rules).order[k]? = some j ∧ rules[j]? = some r := by
  rw [ruleAt?, Option.bind_eq_some_iff]

theorem lt_length_of_ruleAt? (h : ruleAt? rules k = some r) : k < (dueRules rules).length := by
  rw [← getElem?_dueRules] at h
  exact (List.getElem?_eq_some_iff.1 h).1

theorem tagsBefore_succ (p : Population) (rules : List Rule) (k : Nat) :
    tagsBefore p rules (k + 1) =
      (ruleAt? rules k).elim (tagsBefore p rules k) (replay p (tagsBefore p rules k)) := by
  rw [tagsBefore, List.take_add_one, List.foldl_append, getElem?_dueRules]
  cases ruleAt? rules k <;> rfl

theorem size_tagsBefore (p : Population) (rules : List Rule) (k : Nat) :
    (tagsBefore p rules k).size = p.size := by
  induction k with
  | zero => exact Tags.size_none _
  | succ k ih =>
    rw [tagsBefore_succ]
    cases ruleAt? rules k with
    | none => exact ih
    | some r => exact (size_replay _ _ _).trans ih

theorem nodup_tagsBefore (p : Population) (rules : List Rule) (k i : Nat) :
    ((tagsBefore p rules k).of i).Nodup := by
  induction k with
  | zero => simp [tagsBefore]
  | succ k ih =>
    rw [tagsBefore_succ]
    cases ruleAt? rules k with
    | none => exact ih
    | some r => exact nodup_replay ih

/-- The rule at a place of the plan assigns the tag and held of the character when it was asked. -/
def Gives (p : Population) (rules : List Rule) (k : Nat) (t : Text) (i : Nat) : Prop :=
  ∃ r, ruleAt? rules k = some r ∧ r.target.tag? = some t ∧
    p.satisfiesAt (tagsBefore p rules k) r.filters i = true

/-- A character has a tag just when one of the rules asked so far gave it. -/
theorem mem_tagsBefore : t ∈ (tagsBefore p rules k).of i ↔ ∃ l < k, Gives p rules l t i := by
  induction k with
  | zero => simp [tagsBefore]
  | succ k ih =>
    have hstep : t ∈ (tagsBefore p rules (k + 1)).of i ↔
        t ∈ (tagsBefore p rules k).of i ∨ Gives p rules k t i := by
      rw [tagsBefore_succ, Gives]
      cases ruleAt? rules k with
      | none => simp
      | some r => simpa using mem_replay (size_tagsBefore p rules k)
    rw [hstep, ih]
    constructor
    · intro h
      rcases h with ⟨l, hl, hgives⟩ | hgives
      · exact ⟨l, by omega, hgives⟩
      · exact ⟨k, by omega, hgives⟩
    · intro h
      obtain ⟨l, hl, hgives⟩ := h
      rcases Nat.lt_succ_iff_lt_or_eq.1 hl with hlt | rfl
      · exact Or.inl ⟨l, hlt, hgives⟩
      · exact Or.inr hgives

/-- The tags when all rules of the plan have been asked. -/
def finalTags (p : Population) (rules : List Rule) : Tags :=
  tagsBefore p rules (dueRules rules).length

theorem mem_finalTags : t ∈ (finalTags p rules).of i ↔ ∃ k, Gives p rules k t i := by
  rw [finalTags, mem_tagsBefore]
  constructor
  · intro h
    obtain ⟨k, -, hgives⟩ := h
    exact ⟨k, hgives⟩
  · intro h
    obtain ⟨k, r, hr, hgives⟩ := h
    exact ⟨k, lt_length_of_ruleAt? hr, r, hr, hgives⟩

theorem mem_finalTags_of_mem_tagsBefore (h : t ∈ (tagsBefore p rules k).of i) :
    t ∈ (finalTags p rules).of i := by
  obtain ⟨l, -, hgives⟩ := mem_tagsBefore.1 h
  exact mem_finalTags.2 ⟨l, hgives⟩

theorem plan_replayAll (p : Population) (rules : List Rule) (cancelled : Bool) :
    (replayAll p rules cancelled).plan = ofRules rules := by
  rw [replayAll]
  split <;> rfl

theorem tags_replayAll {cancelled : Bool}
    (h : (replayAll p rules cancelled).status = .completed) :
    (replayAll p rules cancelled).tags = finalTags p rules := by
  have hdue : (ofRules rules).order.filterMap (fun i => rules.toArray[i]?) = dueRules rules := by
    rw [dueRules]
    congr 1
    funext i
    exact List.getElem?_toArray
  rw [replayAll] at h ⊢
  split at h
  · cases h
  · rename_i hrun
    rw [if_neg hrun, finalTags, tagsBefore, List.take_length, ← hdue]

/-! ## Parts that are asked too early -/

/-- A wildcard part of the filter finds a tag of the character in the end that it did not find when
it was asked. -/
def ReadsLate (p : Population) (before after : Tags) (f : Filters) (i : Nat) : Prop :=
  ∃ s ∈ p.subject? before i, ∃ part ∈ f.strings.parts, part.wildcard = true ∧
    s.mentions (Text.lower part.value) = false ∧
    ∃ tag ∈ after.of i, Text.occursIn (Text.lower part.value) tag = true

/-- A planned rule stands behind all that assign a tag it names in full. -/
theorem lt_of_feeds (hgiver : ruleAt? rules j = some giver) (hr : ruleAt? rules k = some r)
    (hfeeds : giver.Feeds r) : j < k := by
  obtain ⟨reader, horder, hreader⟩ := ruleAt?_eq_some.1 hr
  obtain ⟨a, ha, hassigner⟩ := ruleAt?_eq_some.1 hgiver
  have hprecedes : Precedes rules a reader := ⟨giver, r, hassigner, hreader, hfeeds⟩
  have hkept : a ∉ (ofRules rules).excluded :=
    (ReplayPlan.mem_order.1 (List.mem_of_getElem? ha)).2
  have hplaced := (ReplayPlan.order_least horder).1.2.2.2 a hprecedes hkept
  obtain ⟨l, hl, hal⟩ := List.mem_take_iff_getElem.1 hplaced
  -- The order lists nothing twice, so the place before `k` is the place of the giver.
  obtain ⟨hj, haj⟩ := List.getElem?_eq_some_iff.1 ha
  have hsame : l = j :=
    (ReplayPlan.nodup_order rules).getElem_inj_iff.1 (hal.trans haj.symm)
  omega

theorem feeds_of_named (htag : giver.target.tag? = some t) (ht : t ∈ r.filters.tagsNamed) :
    giver.Feeds r := by
  refine ReplayPlan.tagUse_precedes_iff.1 ?_
  rw [TagUse.precedes, Rule.tagUse, Rule.tagUse, htag]
  exact List.contains_iff_mem.2 ht

/-- What a planned rule names in full is given before the rule is asked. -/
theorem lt_of_gives_named (hr : ruleAt? rules k = some r) (ht : t ∈ r.filters.tagsNamed)
    (hgives : Gives p rules j t i) : j < k := by
  obtain ⟨giver, hgiver, htag, -⟩ := hgives
  exact lt_of_feeds hgiver hr (feeds_of_named htag ht)

/-- A tag that a planned rule names in full is given by its turn or never. -/
theorem mem_tagsBefore_iff_of_named (hr : ruleAt? rules k = some r)
    (hnamed : t ∈ r.filters.tagsNamed) :
    t ∈ (tagsBefore p rules k).of i ↔ t ∈ (finalTags p rules).of i := by
  refine ⟨mem_finalTags_of_mem_tagsBefore, fun hmem => ?_⟩
  obtain ⟨l, hgives⟩ := mem_finalTags.1 hmem
  exact mem_tagsBefore.2 ⟨l, lt_of_gives_named hr hnamed hgives, hgives⟩

/-- A rule that reads nothing late has the same answer at its turn as in the end. -/
theorem satisfiesAt_finalTags (hr : ruleAt? rules k = some r)
    (hlate : ¬ ReadsLate p (tagsBefore p rules k) (finalTags p rules) r.filters i) :
    p.satisfiesAt (tagsBefore p rules k) r.filters i =
      p.satisfiesAt (finalTags p rules) r.filters i := by
  refine Population.satisfiesAt_congr fun s hs part hpart => ?_
  have hown := Population.tags_of_mem_subject? hs
  have hmono : ∀ tag ∈ s.tags, tag ∈ (finalTags p rules).of i := by
    intro tag hmem
    exact mem_finalTags_of_mem_tagsBefore (hown ▸ hmem)
  rw [Subject.hasString, Subject.hasString, Bool.eq_iff_iff]
  cases hwild : part.wildcard with
  | false =>
    have hnamed : Text.lower part.value ∈ r.filters.tagsNamed := by
      refine List.mem_map.2 ⟨part, List.mem_filter.2 ⟨hpart, ?_⟩, rfl⟩
      simp [hwild]
    simp only [Bool.false_eq_true, if_false]
    rw [Subject.isCalled_iff, Subject.isCalled_iff, hown, mem_tagsBefore_iff_of_named hr hnamed]
  | true =>
    simp only [if_true]
    constructor
    · intro hfound
      rw [Subject.mentions_iff] at hfound ⊢
      dsimp only
      exact hfound.imp_right fun ⟨tag, hmem, hoccurs⟩ => ⟨tag, hmono tag hmem, hoccurs⟩
    · intro hfound
      rw [Subject.mentions_iff] at hfound
      dsimp only at hfound
      rcases hfound with hhaystack | ⟨tag, hmem, hoccurs⟩
      · exact Subject.mentions_iff.2 (Or.inl hhaystack)
      · by_contra hmissed
        rw [Bool.not_eq_true] at hmissed
        exact hlate ⟨s, hs, part, hpart, hwild, hmissed, tag, hmem, hoccurs⟩

/-! ## Fixed points -/

/-- Some rule of the plan assigns the tag and holds of the character under the given tags. -/
def Justifies (p : Population) (rules : List Rule) (plan : ReplayPlan) (tags : Tags) (t : Text)
    (i : Nat) : Prop :=
  ∃ j ∈ plan.order, ∃ r, rules[j]? = some r ∧ r.target.tag? = some t ∧
    p.satisfiesAt tags r.filters i = true

/-- The characters have just the tags that the rules of the plan give them under these tags. -/
def Replay.IsFixedPoint (run : Replay) (p : Population) (rules : List Rule) : Prop :=
  ∀ i t, t ∈ run.tags.of i ↔ Justifies p rules run.plan run.tags t i

theorem justifies_iff : Justifies p rules (ofRules rules) tags t i ↔ ∃ k r,
    ruleAt? rules k = some r ∧ r.target.tag? = some t ∧
      p.satisfiesAt tags r.filters i = true := by
  constructor
  · intro h
    obtain ⟨j, hj, r, hr, h⟩ := h
    obtain ⟨k, hk⟩ := List.mem_iff_getElem?.1 hj
    exact ⟨k, r, ruleAt?_eq_some.2 ⟨j, hk, hr⟩, h⟩
  · intro h
    obtain ⟨k, r, hr, h⟩ := h
    obtain ⟨j, hk, hj⟩ := ruleAt?_eq_some.1 hr
    exact ⟨j, List.mem_of_getElem? hk, r, hj, h⟩

/-- Wherever the rule at a place reads late, nothing comes of it: a tag that it would give in the
end is there, and a tag that it gave is given in the end by some rule. -/
def LateReadsHarmless (p : Population) (rules : List Rule) : Prop :=
  ∀ k r t i, ruleAt? rules k = some r → r.target.tag? = some t →
    ReadsLate p (tagsBefore p rules k) (finalTags p rules) r.filters i →
    (p.satisfiesAt (finalTags p rules) r.filters i = true → t ∈ (finalTags p rules).of i) ∧
    (p.satisfiesAt (tagsBefore p rules k) r.filters i = true →
      Justifies p rules (ofRules rules) (finalTags p rules) t i)

theorem mem_finalTags_iff_justifies (hharmless : LateReadsHarmless p rules) :
    t ∈ (finalTags p rules).of i ↔ Justifies p rules (ofRules rules) (finalTags p rules) t i := by
  constructor
  · intro hmem
    obtain ⟨k, r, hr, htag, hheld⟩ := mem_finalTags.1 hmem
    by_cases hlate : ReadsLate p (tagsBefore p rules k) (finalTags p rules) r.filters i
    · exact (hharmless k r t i hr htag hlate).2 hheld
    · exact justifies_iff.2 ⟨k, r, hr, htag, satisfiesAt_finalTags hr hlate ▸ hheld⟩
  · intro hjustified
    obtain ⟨k, r, hr, htag, hholds⟩ := justifies_iff.1 hjustified
    by_cases hlate : ReadsLate p (tagsBefore p rules k) (finalTags p rules) r.filters i
    · exact (hharmless k r t i hr htag hlate).1 hholds
    · exact mem_finalTags.2 ⟨k, r, hr, htag, (satisfiesAt_finalTags hr hlate).trans hholds⟩

theorem lateReadsHarmless_of_mem_iff (h : ∀ i t, t ∈ (finalTags p rules).of i ↔
    Justifies p rules (ofRules rules) (finalTags p rules) t i) : LateReadsHarmless p rules := by
  intro k r t i hr htag _
  refine ⟨fun hholds => ?_, fun hheld => ?_⟩
  · exact (h i t).2 (justifies_iff.2 ⟨k, r, hr, htag, hholds⟩)
  · exact (h i t).1 (mem_finalTags.2 ⟨k, r, hr, htag, hheld⟩)

/-- No wildcard part of a planned rule occurs in a tag that a rule at the same or a later place
assigns. -/
def WildcardsLookBack (rules : List Rule) : Prop :=
  ∀ k l r s t, k ≤ l → ruleAt? rules k = some r → ruleAt? rules l = some s →
    s.target.tag? = some t → ∀ part ∈ r.filters.strings.parts, part.wildcard = true →
    Text.occursIn (Text.lower part.value) t = false

theorem not_readsLate (hback : WildcardsLookBack rules) (hr : ruleAt? rules k = some r) :
    ¬ ReadsLate p (tagsBefore p rules k) (finalTags p rules) r.filters i := by
  intro hlate
  obtain ⟨s, hs, part, hpart, hwild, hmentions, tag, hmem, hoccurs⟩ := hlate
  obtain ⟨l, hgives⟩ := mem_finalTags.1 hmem
  obtain ⟨giver, hgiver, htag, -⟩ := id hgives
  rcases Nat.lt_or_ge l k with hlt | hle
  · have hbefore : tag ∈ s.tags := by
      rw [Population.tags_of_mem_subject? hs]
      exact mem_tagsBefore.2 ⟨l, hlt, hgives⟩
    rw [Subject.mentions_iff.2 (Or.inr ⟨tag, hbefore, hoccurs⟩)] at hmentions
    cases hmentions
  · rw [hback k l r giver tag hle hr hgiver htag part hpart hwild] at hoccurs
    cases hoccurs

theorem lateReadsHarmless_of_wildcardsLookBack (hback : WildcardsLookBack rules) :
    LateReadsHarmless p rules := by
  intro k r t i hr _ hlate
  exact absurd hlate (not_readsLate hback hr)

/-- A completed replay ends in a fixed point just when its late reads are harmless, and over no
population is one harmful where the wildcards look back. -/
theorem isFixedPoint_iff_lateReadsHarmless {cancelled : Bool}
    (h : (replayAll p rules cancelled).status = .completed) :
    ((replayAll p rules cancelled).IsFixedPoint p rules ↔ LateReadsHarmless p rules) ∧
      (WildcardsLookBack rules → (replayAll p rules cancelled).IsFixedPoint p rules) := by
  rw [Replay.IsFixedPoint, tags_replayAll h, plan_replayAll]
  have hfixed : LateReadsHarmless p rules → ∀ i t, t ∈ (finalTags p rules).of i ↔
      Justifies p rules (ofRules rules) (finalTags p rules) t i :=
    fun hharmless _ _ => mem_finalTags_iff_justifies hharmless
  exact ⟨⟨lateReadsHarmless_of_mem_iff, hfixed⟩, fun hback =>
    hfixed (lateReadsHarmless_of_wildcardsLookBack hback)⟩

/-! A rule that gives a tag to those with another tag, which it asks for by a wildcard.  Listed
before the rule that gives that other tag, it is asked too early. -/

def lydia : Npc where
  id := ⟨"Skyrim.esm", 1⟩
  name := some "Lydia"
  editorId := none
  sourcePlugin := "Skyrim.esm"
  factions := []
  keywords := []
  race := none
  combatClass := none
  defaultOutfit := none
  sleepOutfit := none
  combatStyle := none
  voiceType := none
  template := none
  level := 1
  skills := []
  traits := ⟨true, false, false, false, false⟩

def taggingRule (line : Nat) (tag asked : Text) (wildcard : Bool) : Rule where
  dialect := .spid
  lineNumber := line
  raw := "Keyword = " ++ tag ++ (if wildcard then "|*" else "|") ++ asked
  target := .keyword tag
  filters := { Filters.empty with strings := .allOf [⟨asked, false, wildcard⟩] }
  chance := none
  extra := none

def armsVeterans (line : Nat) : Rule := taggingRule line "IsArmed" "Veteran" true

def makesVeteran (line : Nat) : Rule := taggingRule line "IsVeteran" "Lydia" false

theorem isFixedPoint_veterans_first :
    (replayAll (.ofNpcs [lydia]) [makesVeteran 1, armsVeterans 2] false).status = .completed ∧
      (replayAll (.ofNpcs [lydia]) [makesVeteran 1, armsVeterans 2] false).IsFixedPoint
        (.ofNpcs [lydia]) [makesVeteran 1, armsVeterans 2] := by
  have hplaces : ∀ k r, ruleAt? [makesVeteran 1, armsVeterans 2] k = some r →
      (k = 0 ∧ r = makesVeteran 1) ∨ (k = 1 ∧ r = armsVeterans 2) := by
    intro k r hr
    rcases k with _ | _ | k
    · exact Or.inl ⟨rfl, (Option.some.inj hr).symm⟩
    · exact Or.inr ⟨rfl, (Option.some.inj hr).symm⟩
    · cases hr
  have hback : WildcardsLookBack [makesVeteran 1, armsVeterans 2] := by
    intro k l r s t hkl hr hs htag part hpart hwild
    rcases hplaces k r hr with ⟨rfl, rfl⟩ | ⟨rfl, rfl⟩
    · obtain rfl := List.mem_singleton.1 hpart
      cases hwild
    · rcases hplaces l s hs with ⟨rfl, rfl⟩ | ⟨rfl, rfl⟩
      · cases hkl
      · obtain rfl := Option.some.inj htag
        obtain rfl := List.mem_singleton.1 hpart
        decide
  exact ⟨rfl, (isFixedPoint_iff_lateReadsHarmless rfl).2 hback⟩

theorem not_isFixedPoint_veterans_last :
    (replayAll (.ofNpcs [lydia]) [armsVeterans 1, makesVeteran 2] false).status = .completed ∧
      ¬ (replayAll (.ofNpcs [lydia]) [armsVeterans 1, makesVeteran 2] false).IsFixedPoint
        (.ofNpcs [lydia]) [armsVeterans 1, makesVeteran 2] := by
  refine ⟨rfl, fun hfixed => ?_⟩
  have hjustified : Justifies (.ofNpcs [lydia]) [armsVeterans 1, makesVeteran 2]
      (replayAll (.ofNpcs [lydia]) [armsVeterans 1, makesVeteran 2] false).plan
      (replayAll (.ofNpcs [lydia]) [armsVeterans 1, makesVeteran 2] false).tags
      (Text.lower "IsArmed") 0 := ⟨0, by decide, armsVeterans 1, rfl, rfl, by decide⟩
  have hmissed : Text.lower "IsArmed" ∉
      (replayAll (.ofNpcs [lydia]) [armsVeterans 1, makesVeteran 2] false).tags.of 0 := by decide
  exact hmissed ((hfixed 0 _).2 hjustified)

end Keyword
end Wardrobe
