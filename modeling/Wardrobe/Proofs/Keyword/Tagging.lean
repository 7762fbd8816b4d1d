import Wardrobe.Pass
import Wardrobe.Proofs.Keyword.Replay
import Wardrobe.Proofs.Rule.Line
/-
Rules that assign an outfit make no difference to a replay.

Such a rule feeds no other, so no rule waits for it and it lies on no circle.  It can be ready and
take a place in the plan, but of the other rules the same are due afterwards as before.  So two
plans, one for all rules and one for those that assign tags, go through the latter in the same
order: wherever the first plan takes one of them, that one is the earliest that is due in the
second plan.
-/

namespace Wardrobe
namespace Keyword

variable {p : Population} {rules : List Rule} {tags : Tags} {r : Rule}
variable {a b i j k : Nat} {placed placed' : List Nat}

open ReplayPlan (ofRules Precedes IsDue)
open Relation (TransGen)

/-- The rules that assign tags. -/
def tagging (rules : List Rule) : List Rule := rules.filter (·.target.tag?.isSome)

/-- Their positions among all rules, ascending. -/
def taggingPositions (rules : List Rule) : List Nat :=
  (rules.zipIdx.filter fun entry => entry.1.target.tag?.isSome).map (·.2)

/-- The rule at the first position among those that assign tags has the second among all. -/
def StandsAt (rules : List Rule) (a i : Nat) : Prop := (taggingPositions rules)[a]? = some i

/-! ## Positions -/

theorem tagging_eq (rules : List Rule) :
    tagging rules = (rules.zipIdx.filter fun entry => entry.1.target.tag?.isSome).map (·.1) := by
  conv_lhs => rw [tagging, ← List.zipIdx_map_fst 0 rules, List.filter_map]
  rfl

theorem mem_taggingPositions :
    i ∈ taggingPositions rules ↔ ∃ r, rules[i]? = some r ∧ r.target.tag?.isSome = true := by
  simp [taggingPositions, List.mem_zipIdx_iff_getElem?]

theorem pairwise_taggingPositions (rules : List Rule) :
    (taggingPositions rules).Pairwise (· < ·) := by
  have hall : (rules.zipIdx.map Prod.snd).Pairwise (· < ·) := by
    rw [List.zipIdx_map_snd]
    exact List.pairwise_lt_range' _
  exact hall.sublist (List.filter_sublist.map _)

theorem StandsAt.mem (h : StandsAt rules a i) : i ∈ taggingPositions rules := List.mem_of_getElem? h

theorem exists_standsAt (h : i ∈ taggingPositions rules) : ∃ a, StandsAt rules a i :=
  List.mem_iff_getElem?.1 h

theorem exists_standsAt_of_lt (h : a < (tagging rules).length) : ∃ i, StandsAt rules a i := by
  rw [tagging_eq, List.length_map] at h
  refine ⟨_, List.getElem?_eq_getElem ?_⟩
  rwa [taggingPositions, List.length_map]

/-- Both positions are those of one rule. -/
theorem StandsAt.getElem?_eq (h : StandsAt rules a i) : (tagging rules)[a]? = rules[i]? := by
  rw [StandsAt, taggingPositions, List.getElem?_map] at h
  obtain ⟨⟨r, i'⟩, hentry, rfl⟩ := Option.map_eq_some_iff.1 h
  have hr : rules[i']? = some r :=
    List.mem_zipIdx_iff_getElem?.1 (List.mem_filter.1 (List.mem_of_getElem? hentry)).1
  rw [tagging_eq, List.getElem?_map, hentry]
  exact hr.symm

theorem StandsAt.lt (h : StandsAt rules a i) : a < (tagging rules).length := by
  obtain ⟨r, hr, -⟩ := mem_taggingPositions.1 h.mem
  exact (List.getElem?_eq_some_iff.1 (h.getElem?_eq.trans hr)).1

theorem StandsAt.lt_of_lt (ha : StandsAt rules a i) (hb : StandsAt rules b j) (hab : a < b) :
    i < j := by
  obtain ⟨hlt, rfl⟩ := List.getElem?_eq_some_iff.1 ha
  obtain ⟨hlt', rfl⟩ := List.getElem?_eq_some_iff.1 hb
  exact List.pairwise_iff_getElem.1 (pairwise_taggingPositions rules) a b hlt hlt' hab

theorem StandsAt.le_iff (ha : StandsAt rules a i) (hb : StandsAt rules b j) : a ≤ b ↔ i ≤ j := by
  rcases Nat.lt_trichotomy a b with hlt | heq | hlt
  · have := ha.lt_of_lt hb hlt
    omega
  · rw [heq, StandsAt, hb, Option.some.injEq] at ha
    omega
  · have := hb.lt_of_lt ha hlt
    omega

theorem StandsAt.inj (ha : StandsAt rules a i) (hb : StandsAt rules b i) : a = b :=
  Nat.le_antisymm ((ha.le_iff hb).2 (Nat.le_refl i)) ((hb.le_iff ha).2 (Nat.le_refl i))

/-! ## What precedes what -/

theorem lt_length_of_precedes (h : Precedes rules a b) : a < rules.length ∧ b < rules.length := by
  obtain ⟨r, s, hr, hs, -⟩ := h
  exact ⟨(List.getElem?_eq_some_iff.1 hr).1, (List.getElem?_eq_some_iff.1 hs).1⟩

theorem StandsAt.precedes_iff (ha : StandsAt rules a i) (hb : StandsAt rules b j) :
    Precedes (tagging rules) a b ↔ Precedes rules i j := by
  rw [Precedes, Precedes, ha.getElem?_eq, hb.getElem?_eq]

/-- Only a rule that assigns a tag has others wait for it. -/
theorem exists_standsAt_of_precedes (h : Precedes rules i j) : ∃ a, StandsAt rules a i := by
  obtain ⟨r, -, hr, -, tag, htarget, -⟩ := h
  exact exists_standsAt (mem_taggingPositions.2 ⟨r, hr, by rw [htarget]; rfl⟩)

theorem StandsAt.transGen (ha : StandsAt rules a i) (hb : StandsAt rules b j)
    (h : TransGen (Precedes (tagging rules)) a b) : TransGen (Precedes rules) i j := by
  induction h generalizing j with
  | single hstep => exact .single ((ha.precedes_iff hb).1 hstep)
  | tail _ hstep ih =>
    obtain ⟨m, hm⟩ := exists_standsAt_of_lt (lt_length_of_precedes hstep).1
    exact .tail (ih hm) ((hm.precedes_iff hb).1 hstep)

theorem StandsAt.transGen_tagging (ha : StandsAt rules a i) (hb : StandsAt rules b j)
    (h : TransGen (Precedes rules) i j) : TransGen (Precedes (tagging rules)) a b := by
  induction h generalizing b with
  | single hstep => exact .single ((ha.precedes_iff hb).2 hstep)
  | tail _ hstep ih =>
    obtain ⟨m, hm⟩ := exists_standsAt_of_precedes hstep
    exact .tail (ih hm) ((hm.precedes_iff hb).2 hstep)

theorem StandsAt.mem_excluded_iff (ha : StandsAt rules a i) :
    a ∈ (ofRules (tagging rules)).excluded ↔ i ∈ (ofRules rules).excluded := by
  rw [ReplayPlan.mem_excluded, ReplayPlan.mem_excluded]
  exact ⟨ha.transGen ha, ha.transGen_tagging ha⟩

theorem excluded_subset (rules : List Rule) :
    (ofRules rules).excluded ⊆ taggingPositions rules := by
  intro i hi
  obtain ⟨j, hstep, -⟩ := TransGen.head'_iff.1 (ReplayPlan.mem_excluded.1 hi)
  obtain ⟨a, ha⟩ := exists_standsAt_of_precedes hstep
  exact ha.mem

/-! ## The two orders -/

/-- Of the rules placed so far, those that assign tags. -/
def taken (rules : List Rule) (placed : List Nat) : List Nat :=
  placed.filter (taggingPositions rules).contains

theorem StandsAt.mem_taken_iff (ha : StandsAt rules a i) : i ∈ taken rules placed ↔ i ∈ placed := by
  rw [taken, List.mem_filter, List.contains_iff_mem]
  exact and_iff_left ha.mem

theorem StandsAt.mem_iff (ha : StandsAt rules a i)
    (h : List.Forall₂ (StandsAt rules) placed' (taken rules placed)) :
    a ∈ placed' ↔ i ∈ placed := by
  rw [← ha.mem_taken_iff]
  constructor
  · intro hmem
    obtain ⟨j, hj, haj⟩ := exists_of_mem_left h hmem
    rw [StandsAt, ha, Option.some.injEq] at haj
    exact haj ▸ hj
  · intro hmem
    obtain ⟨b, hb, hbi⟩ := exists_of_mem_right h hmem
    exact ha.inj hbi ▸ hb

/-- A rule waits for the same rules in both plans. -/
theorem StandsAt.isDue_iff (ha : StandsAt rules a i)
    (h : List.Forall₂ (StandsAt rules) placed' (taken rules placed)) :
    IsDue (tagging rules) placed' a ↔ IsDue rules placed i := by
  obtain ⟨r, hr, -⟩ := mem_taggingPositions.1 ha.mem
  have hi := (List.getElem?_eq_some_iff.1 hr).1
  rw [IsDue, IsDue, ha.mem_excluded_iff, ha.mem_iff h]
  refine and_congr (iff_of_true ha.lt hi) (and_congr_right fun _ => and_congr_right fun _ => ?_)
  constructor
  · intro hwaits j hj hkept
    obtain ⟨b, hb⟩ := exists_standsAt_of_precedes hj
    refine (hb.mem_iff h).1 (hwaits b ((hb.precedes_iff ha).2 hj) fun hexcluded => hkept ?_)
    exact hb.mem_excluded_iff.1 hexcluded
  · intro hwaits b hb hkept
    obtain ⟨j, hj⟩ := exists_standsAt_of_lt (lt_length_of_precedes hb).1
    refine (hj.mem_iff h).2 (hwaits j ((hj.precedes_iff ha).1 hb) fun hexcluded => hkept ?_)
    exact hj.mem_excluded_iff.2 hexcluded

/-- Where the plan for all rules takes one that assigns a tag, the other plan takes the same.  Each
of the two is due in the other's place, and each plan takes the earliest one that is due. -/
theorem StandsAt.getElem?_order {m : Nat} (ha : StandsAt rules a i)
    (hi : (ofRules rules).order[k]? = some i)
    (h : List.Forall₂ (StandsAt rules) ((ofRules (tagging rules)).order.take m)
      (taken rules ((ofRules rules).order.take k))) :
    (ofRules (tagging rules)).order[m]? = some a := by
  obtain ⟨hdue, hleast⟩ := ReplayPlan.order_least hi
  have hdueA : IsDue (tagging rules) ((ofRules (tagging rules)).order.take m) a :=
    (ha.isDue_iff h).2 hdue
  obtain ⟨hlt, hkept, hout, -⟩ := id hdueA
  obtain ⟨b, hb⟩ : ∃ b, (ofRules (tagging rules)).order[m]? = some b := by
    refine ⟨_, List.getElem?_eq_getElem (Nat.lt_of_not_le fun hle => hout ?_)⟩
    rw [List.take_of_length_le hle]
    exact ReplayPlan.mem_order.2 ⟨hlt, hkept⟩
  obtain ⟨hdueB, hleastB⟩ := ReplayPlan.order_least hb
  obtain ⟨j, hj⟩ := exists_standsAt_of_lt hdueB.1
  have hba : b ≤ a := hleastB a hdueA
  have hab : a ≤ b := (ha.le_iff hj).2 (hleast j ((hj.isDue_iff h).1 hdueB))
  rw [hb, Nat.le_antisymm hba hab]

/-- After every step of the plan for all rules, the other plan has a front that lists the same
rules. -/
theorem forall₂_taken (rules : List Rule) (k : Nat) :
    ∃ m, List.Forall₂ (StandsAt rules) ((ofRules (tagging rules)).order.take m)
      (taken rules ((ofRules rules).order.take k)) := by
  induction k with
  | zero => exact ⟨0, .nil⟩
  | succ k ih =>
    obtain ⟨m, hm⟩ := ih
    rw [List.take_add_one]
    cases hi : (ofRules rules).order[k]? with
    | none => exact ⟨m, by simpa using hm⟩
    | some i =>
      rw [Option.toList_some, taken, List.filter_append]
      by_cases hmem : i ∈ taggingPositions rules
      · obtain ⟨a, ha⟩ := exists_standsAt hmem
        refine ⟨m + 1, ?_⟩
        rw [List.take_add_one, ha.getElem?_order hi hm,
          List.filter_cons_of_pos (List.contains_iff_mem.2 hmem)]
        exact List.rel_append hm (.cons ha .nil)
      · refine ⟨m, ?_⟩
        rw [List.filter_cons_of_neg (by simpa using hmem), List.filter_nil, List.append_nil]
        exact hm

/-- The planned order of all rules without those that assign outfits is that of the others. -/
theorem forall₂_order (rules : List Rule) :
    List.Forall₂ (StandsAt rules) (ofRules (tagging rules)).order
      (taken rules (ofRules rules).order) := by
  obtain ⟨m, hm⟩ := forall₂_taken rules (ofRules rules).order.length
  rw [List.take_length] at hm
  have hall : (ofRules (tagging rules)).order ⊆ (ofRules (tagging rules)).order.take m := by
    intro a ha
    obtain ⟨hlt, hkept⟩ := ReplayPlan.mem_order.1 ha
    obtain ⟨i, hi⟩ := exists_standsAt_of_lt hlt
    obtain ⟨r, hr, -⟩ := mem_taggingPositions.1 hi.mem
    refine (hi.mem_iff hm).2 (ReplayPlan.mem_order.2 ⟨(List.getElem?_eq_some_iff.1 hr).1, ?_⟩)
    exact fun hexcluded => hkept (hi.mem_excluded_iff.2 hexcluded)
  have hlength := (List.subperm_of_subset (ReplayPlan.nodup_order _) hall).length_le
  have hfront : (ofRules (tagging rules)).order.take m = (ofRules (tagging rules)).order :=
    List.IsPrefix.eq_of_length_le (List.take_prefix m _) hlength
  rwa [hfront] at hm

/-! ## The tags -/

theorem filterMap_eq_of_forall₂ {R : α → β → Prop} {f : α → Option γ} {g : β → Option γ}
    {as : List α} {bs : List β} (h : List.Forall₂ R as bs) (hR : ∀ a b, R a b → f a = g b) :
    as.filterMap f = bs.filterMap g := by
  induction h with
  | nil => rfl
  | cons hfirst _ ih => rw [List.filterMap_cons, List.filterMap_cons, hR _ _ hfirst, ih]

theorem dueRules_tagging (rules : List Rule) :
    dueRules (tagging rules) = tagging (dueRules rules) := by
  have hsame : dueRules (tagging rules) =
      (taken rules (ofRules rules).order).filterMap (rules[·]?) :=
    filterMap_eq_of_forall₂ (forall₂_order rules) fun _ _ h => h.getElem?_eq
  rw [hsame, taken, tagging, dueRules, List.filter_filterMap, List.filterMap_filter]
  refine List.filterMap_congr fun i _ => ?_
  by_cases hmem : i ∈ taggingPositions rules
  · obtain ⟨r, hr, htag⟩ := mem_taggingPositions.1 hmem
    rw [if_pos (List.contains_iff_mem.2 hmem), hr, Option.filter_some, if_pos htag]
  · rw [if_neg (by simpa using hmem), eq_comm, Option.filter_eq_none_iff]
    intro r hr htag
    exact hmem (mem_taggingPositions.2 ⟨r, hr, htag⟩)

theorem replay_of_outfit (h : r.target.tag? = none) : replay p tags r = tags := by
  rw [replay, h]

theorem foldl_replay_tagging (p : Population) (rs : List Rule) (tags : Tags) :
    (tagging rs).foldl (replay p) tags = rs.foldl (replay p) tags := by
  induction rs generalizing tags with
  | nil => rfl
  | cons r rest ih =>
    rw [List.foldl_cons, ← ih]
    cases htag : r.target.tag? with
    | some tag =>
      have hcons : tagging (r :: rest) = r :: tagging rest :=
        List.filter_cons_of_pos (by rw [htag]; rfl)
      rw [hcons, List.foldl_cons]
    | none =>
      have hcons : tagging (r :: rest) = tagging rest :=
        List.filter_cons_of_neg (by rw [htag]; nofun)
      rw [hcons, replay_of_outfit htag]

theorem finalTags_tagging (p : Population) (rules : List Rule) :
    finalTags p (tagging rules) = finalTags p rules := by
  rw [finalTags, finalTags, tagsBefore, tagsBefore, List.take_length, List.take_length,
    dueRules_tagging, foldl_replay_tagging]

/-- A replay of all rules gives the tags that a replay of those that assign tags gives, as a pass
over files asks for it.  Its plan goes through these rules in the same order, and leaves out none
that assigns an outfit. -/
theorem replayAll_tagging (p : Population) (rules : List Rule) :
    (replayAll p rules false).status = .completed ∧
      (replayAll p (tagging rules) false).status = .completed ∧
      (replayAll p rules false).tags = (replayAll p (tagging rules) false).tags ∧
      List.Forall₂ (StandsAt rules) (replayAll p (tagging rules) false).plan.order
        ((replayAll p rules false).plan.order.filter (taggingPositions rules).contains) ∧
      (replayAll p rules false).plan.excluded ⊆ taggingPositions rules ∧
      ∀ files : List RuleFile, (replayAll p (files.flatMap (·.rules)) false).tags =
        (replayAll p (tagRules files) false).tags := by
  have htags : ∀ rules,
      (replayAll p rules false).tags = (replayAll p (tagging rules) false).tags := by
    intro rules
    rw [tags_replayAll rfl, tags_replayAll rfl, finalTags_tagging]
  refine ⟨rfl, rfl, htags rules, ?_, ?_, fun files => ?_⟩
  · rw [plan_replayAll, plan_replayAll]
    exact forall₂_order rules
  · rw [plan_replayAll]
    exact excluded_subset rules
  · have hpassed : tagRules files = tagging (files.flatMap (·.rules)) := rfl
    rw [hpassed]
    exact htags _

end Keyword
end Wardrobe
