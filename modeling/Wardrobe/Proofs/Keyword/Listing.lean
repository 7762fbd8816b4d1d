import Mathlib.Logic.Equiv.Fin.Rotate
import Wardrobe.Proofs.Keyword.Replay
/-
The tags that a replay gives do not depend on the order in which the rules are listed.

Two lists of the same rules have plans in which the rules can stand at quite different places.  What
they share is the relation `Rule.Feeds`, and with it the rules that are left out.  Where wildcards
find no tag, the answer of a rule depends only on the rules that feed it, all of which stand before
it, so an induction along the places of one plan shows that it has the same answer in the other.
-/

namespace Wardrobe
namespace Keyword

variable {p : Population} {rules rules' : List Rule} {σ : Fin rules.length ≃ Fin rules'.length}
variable {t : Text} {a b i : Nat} {r : Rule}

open ReplayPlan (ofRules Precedes)
open Relation (TransGen)

/-- The second list holds the rules of the first, each at the position that `σ` sends it to. -/
def Relists (rules rules' : List Rule) (σ : Fin rules.length ≃ Fin rules'.length) : Prop :=
  ∀ i, rules'.get (σ i) = rules.get i

theorem Relists.symm (h : Relists rules rules' σ) : Relists rules' rules σ.symm := by
  intro i
  rw [← h (σ.symm i), σ.apply_symm_apply]

theorem Relists.mem (h : Relists rules rules' σ) (hr : r ∈ rules') : r ∈ rules := by
  obtain ⟨i, rfl⟩ := List.get_of_mem hr
  rw [← h.symm i]
  exact List.get_mem rules (σ.symm i)

/-! ## Rules left out -/

/-- Where the rule at a position of the first list stands in the second. -/
def moved (σ : Fin rules.length ≃ Fin rules'.length) (n : Nat) : Nat :=
  if h : n < rules.length then σ ⟨n, h⟩ else n

theorem moved_fin (σ : Fin rules.length ≃ Fin rules'.length) (i : Fin rules.length) :
    moved σ i = σ i := dif_pos i.2

theorem Relists.getElem?_moved (h : Relists rules rules' σ) (ha : rules[a]? = some r) :
    rules'[moved σ a]? = some r := by
  obtain ⟨hlt, rfl⟩ := List.getElem?_eq_some_iff.1 ha
  rw [moved, dif_pos hlt]
  exact List.getElem?_eq_some_iff.2 ⟨(σ ⟨a, hlt⟩).2, h ⟨a, hlt⟩⟩

theorem Relists.precedes (h : Relists rules rules' σ) (hab : Precedes rules a b) :
    Precedes rules' (moved σ a) (moved σ b) := by
  obtain ⟨r, s, hr, hs, hfeeds⟩ := hab
  exact ⟨r, s, h.getElem?_moved hr, h.getElem?_moved hs, hfeeds⟩

theorem Relists.excluded_of_excluded (h : Relists rules rules' σ) {i : Fin rules.length}
    (hi : i.1 ∈ (ofRules rules).excluded) : (σ i).1 ∈ (ofRules rules').excluded := by
  have hcircle := ReplayPlan.mem_excluded.1 hi
  have hmoved : TransGen (Precedes rules') (moved σ i) (moved σ i) :=
    hcircle.lift (moved σ) fun _ _ => h.precedes
  rw [moved_fin] at hmoved
  exact ReplayPlan.mem_excluded.2 hmoved

/-- A rule is left out of the one plan just when it is left out of the other. -/
theorem Relists.excluded_iff (h : Relists rules rules' σ) (i : Fin rules.length) :
    i.1 ∈ (ofRules rules).excluded ↔ (σ i).1 ∈ (ofRules rules').excluded := by
  refine ⟨h.excluded_of_excluded, fun hi => ?_⟩
  have hback := h.symm.excluded_of_excluded hi
  rwa [σ.symm_apply_apply] at hback

/-! ## Rules of the plan -/

/-- The rule has a place in the plan. -/
def IsPlanned (rules : List Rule) (r : Rule) : Prop := ∃ k, ruleAt? rules k = some r

theorem isPlanned_iff : IsPlanned rules r ↔
    ∃ i : Fin rules.length, rules.get i = r ∧ i.1 ∉ (ofRules rules).excluded := by
  constructor
  · intro h
    obtain ⟨k, hk⟩ := h
    obtain ⟨j, horder, hr⟩ := ruleAt?_eq_some.1 hk
    obtain ⟨hlt, hkept⟩ := ReplayPlan.mem_order.1 (List.mem_of_getElem? horder)
    exact ⟨⟨j, hlt⟩, (List.getElem?_eq_some_iff.1 hr).2, hkept⟩
  · intro h
    obtain ⟨i, rfl, hkept⟩ := h
    obtain ⟨k, hk⟩ := List.mem_iff_getElem?.1 (ReplayPlan.mem_order.2 ⟨i.2, hkept⟩)
    exact ⟨k, ruleAt?_eq_some.2 ⟨i, hk, List.getElem?_eq_getElem i.2⟩⟩

theorem IsPlanned.mem (h : IsPlanned rules r) : r ∈ rules := by
  obtain ⟨i, rfl, -⟩ := isPlanned_iff.1 h
  exact List.get_mem rules i

theorem Relists.isPlanned (h : Relists rules rules' σ) (hr : IsPlanned rules r) :
    IsPlanned rules' r := by
  obtain ⟨i, rfl, hkept⟩ := isPlanned_iff.1 hr
  exact isPlanned_iff.2 ⟨σ i, h i, fun hi => hkept ((h.excluded_iff i).2 hi)⟩

theorem Relists.isPlanned_iff (h : Relists rules rules' σ) :
    IsPlanned rules r ↔ IsPlanned rules' r :=
  ⟨h.isPlanned, h.symm.isPlanned⟩

/-! ## Wildcards that find no tag -/

/-- No wildcard part of a rule occurs in a tag that a rule assigns. -/
def WildcardsMissTags (rules : List Rule) : Prop :=
  ∀ r ∈ rules, ∀ part ∈ r.filters.strings.parts, part.wildcard = true →
    ∀ s ∈ rules, ∀ t, s.target.tag? = some t → Text.occursIn (Text.lower part.value) t = false

theorem WildcardsMissTags.relists (hmiss : WildcardsMissTags rules)
    (h : Relists rules rules' σ) : WildcardsMissTags rules' := by
  intro r hr part hpart hwild s hs t ht
  exact hmiss r (h.mem hr) part hpart hwild s (h.mem hs) t ht

theorem WildcardsMissTags.mem_finalTags (hmiss : WildcardsMissTags rules) :
    t ∈ (finalTags p rules).of i ↔ ∃ s, IsPlanned rules s ∧ s.target.tag? = some t ∧
      p.satisfiesAt (finalTags p rules) s.filters i = true := by
  have hback : WildcardsLookBack rules := by
    intro k l r s t _ hr hs ht part hpart hwild
    exact hmiss r (IsPlanned.mem ⟨k, hr⟩) part hpart hwild s (IsPlanned.mem ⟨l, hs⟩) t ht
  rw [mem_finalTags_iff_justifies (lateReadsHarmless_of_wildcardsLookBack hback), justifies_iff]
  constructor
  · intro h
    obtain ⟨k, s, hs, ht, hholds⟩ := h
    exact ⟨s, ⟨k, hs⟩, ht, hholds⟩
  · intro h
    obtain ⟨s, ⟨k, hs⟩, ht, hholds⟩ := h
    exact ⟨k, s, hs, ht, hholds⟩

theorem WildcardsMissTags.occursIn_eq_false (hmiss : WildcardsMissTags rules) (hr : r ∈ rules)
    {part : Criterion.Part Text} (hpart : part ∈ r.filters.strings.parts)
    (hwild : part.wildcard = true) (ht : t ∈ (finalTags p rules).of i) :
    Text.occursIn (Text.lower part.value) t = false := by
  obtain ⟨giver, hgiver, htag, -⟩ := hmiss.mem_finalTags.1 ht
  exact hmiss r hr part hpart hwild giver hgiver.mem t htag

/-! ## Both lists -/

/-- Under the final tags of both lists the filters hold of the same characters. -/
def Agrees (p : Population) (rules rules' : List Rule) (r : Rule) : Prop :=
  ∀ i, p.satisfiesAt (finalTags p rules) r.filters i =
    p.satisfiesAt (finalTags p rules') r.filters i

/-- The two runs give a tag to the same characters once the rules that assign it agree. -/
theorem Relists.mem_finalTags_iff (h : Relists rules rules' σ) (hmiss : WildcardsMissTags rules)
    (hagree : ∀ s, IsPlanned rules s → s.target.tag? = some t → Agrees p rules rules' s) :
    t ∈ (finalTags p rules).of i ↔ t ∈ (finalTags p rules').of i := by
  rw [hmiss.mem_finalTags, (hmiss.relists h).mem_finalTags]
  refine exists_congr fun s => ?_
  rw [← h.isPlanned_iff]
  refine and_congr_right fun hs => and_congr_right fun ht => ?_
  rw [hagree s hs ht i]

/-- A rule agrees once those that feed it do. -/
theorem Relists.agrees_of_feeds (h : Relists rules rules' σ) (hmiss : WildcardsMissTags rules)
    (hr : IsPlanned rules r)
    (hfeeding : ∀ s, IsPlanned rules s → s.Feeds r → Agrees p rules rules' s) :
    Agrees p rules rules' r := by
  intro i
  refine Population.satisfiesAt_congr fun s hs part hpart => ?_
  have hown := Population.tags_of_mem_subject? hs
  rw [Subject.hasString, Subject.hasString, Bool.eq_iff_iff]
  cases hwild : part.wildcard with
  | false =>
    have hnamed : Text.lower part.value ∈ r.filters.tagsNamed := by
      refine List.mem_map.2 ⟨part, List.mem_filter.2 ⟨hpart, ?_⟩, rfl⟩
      simp [hwild]
    have hsame := h.mem_finalTags_iff (p := p) (i := i) hmiss fun s hs ht =>
      hfeeding s hs (feeds_of_named ht hnamed)
    simp only [Bool.false_eq_true, if_false]
    rw [Subject.isCalled_iff, Subject.isCalled_iff, hown, hsame]
  | true =>
    have hmissed : ∀ tag ∈ s.tags, Text.occursIn (Text.lower part.value) tag = false := by
      rw [hown]
      exact fun tag => hmiss.occursIn_eq_false hr.mem hpart hwild
    have hmissed' : ∀ tag ∈ (finalTags p rules').of i,
        Text.occursIn (Text.lower part.value) tag = false :=
      fun tag => (hmiss.relists h).occursIn_eq_false (h.isPlanned hr).mem hpart hwild
    simp only [if_true]
    rw [Subject.mentions_of_tags_missed hmissed, Subject.mentions_of_tags_missed]
    dsimp only
    exact hmissed'

theorem Relists.agrees (h : Relists rules rules' σ) (hmiss : WildcardsMissTags rules)
    (hr : IsPlanned rules r) : Agrees p rules rules' r := by
  obtain ⟨k, hk⟩ := hr
  -- Along the places of the plan, as all that feed a rule stand before it.
  induction k using Nat.strong_induction_on generalizing r with
  | _ k ih =>
    refine h.agrees_of_feeds hmiss ⟨k, hk⟩ fun s hs hfeeds => ?_
    obtain ⟨l, hl⟩ := hs
    exact ih l (lt_of_feeds hl hk hfeeds) hl

theorem Relists.finalTags_perm (h : Relists rules rules' σ) (hmiss : WildcardsMissTags rules)
    (i : Nat) : ((finalTags p rules).of i).Perm ((finalTags p rules').of i) := by
  refine (List.perm_ext_iff_of_nodup (nodup_tagsBefore _ _ _ _) (nodup_tagsBefore _ _ _ _)).2 ?_
  intro t
  exact h.mem_finalTags_iff hmiss fun s hs _ => h.agrees hmiss hs

theorem status_replayAll (p : Population) (rules : List Rule) :
    (replayAll p rules false).status = .completed := rfl

/-- Two lists of the same rules, none of which has a wildcard part that occurs in an assigned tag,
give every character the same tags, and their plans leave out the same rules. -/
theorem replayAll_of_relists (p : Population) (hrelists : Relists rules rules' σ)
    (hmiss : WildcardsMissTags rules) :
    (replayAll p rules false).status = .completed ∧
      (replayAll p rules' false).status = .completed ∧
      (∀ i, ((replayAll p rules false).tags.of i).Perm ((replayAll p rules' false).tags.of i)) ∧
      ∀ i : Fin rules.length, i.1 ∈ (replayAll p rules false).plan.excluded ↔
        (σ i).1 ∈ (replayAll p rules' false).plan.excluded := by
  refine ⟨status_replayAll p rules, status_replayAll p rules', fun i => ?_, fun i => ?_⟩
  · rw [tags_replayAll (status_replayAll p rules), tags_replayAll (status_replayAll p rules')]
    exact hrelists.finalTags_perm hmiss i
  · rw [plan_replayAll, plan_replayAll]
    exact hrelists.excluded_iff i

/-! Of three rules the first waits for the second and the third for itself.  Listed with the third
in front they are replayed in another order. -/

def armsTheTagged : Rule := taggingRule 1 "IsArmed" "IsVeteran" false

def tagsLydians : Rule := taggingRule 2 "IsVeteran" "Lyd" true

def tagsTheLooped : Rule := taggingRule 3 "IsLooped" "IsLooped" false

theorem replayAll_rotated :
    Relists [armsTheTagged, tagsLydians, tagsTheLooped]
        [tagsTheLooped, armsTheTagged, tagsLydians] (finRotate 3) ∧
      WildcardsMissTags [armsTheTagged, tagsLydians, tagsTheLooped] ∧
      Text.lower "IsArmed" ∈ (replayAll (.ofNpcs [lydia])
        [tagsTheLooped, armsTheTagged, tagsLydians] false).tags.of 0 ∧
      0 ∈ (replayAll (.ofNpcs [lydia])
        [tagsTheLooped, armsTheTagged, tagsLydians] false).plan.excluded := by
  have hrelists : Relists [armsTheTagged, tagsLydians, tagsTheLooped]
      [tagsTheLooped, armsTheTagged, tagsLydians] (finRotate 3) := by
    intro i
    match i with
    | 0 | 1 | 2 => rfl
  have hmiss : WildcardsMissTags [armsTheTagged, tagsLydians, tagsTheLooped] := by
    have hwildcards : ∀ r ∈ [armsTheTagged, tagsLydians, tagsTheLooped],
        ∀ part ∈ r.filters.strings.parts, part.wildcard = true → part.value = "Lyd" := by
      decide
    have htags : ∀ s ∈ [armsTheTagged, tagsLydians, tagsTheLooped], ∀ t ∈ s.target.tag?,
        Text.occursIn (Text.lower "Lyd") t = false := by
      decide
    intro r hr part hpart hwild s hs t ht
    rw [hwildcards r hr part hpart hwild]
    exact htags s hs t ht
  obtain ⟨-, -, htags, hexcluded⟩ := replayAll_of_relists (.ofNpcs [lydia]) hrelists hmiss
  have harmed : Text.lower "IsArmed" ∈ (replayAll (.ofNpcs [lydia])
      [armsTheTagged, tagsLydians, tagsTheLooped] false).tags.of 0 := by decide
  have hlooped : 2 ∈ (replayAll (.ofNpcs [lydia])
      [armsTheTagged, tagsLydians, tagsTheLooped] false).plan.excluded := by decide
  exact ⟨hrelists, hmiss, (htags 0).mem_iff.1 harmed, (hexcluded 2).1 hlooped⟩

end Keyword
end Wardrobe
