import Wardrobe.Conflict.Affected
import Wardrobe.Proofs.Assignment
/-
The characters that a rule speaks of, described without the tables that find them.

A rule names a character by a reference to it or by its editor id.  Each such name is looked up once
and gives one character, so of characters that share an editor id only the first is found by it.
-/

namespace Wardrobe

variable {p : Population} {tags : Tags} {r : Rule} {i : Nat} {c : Character} {f : Filters}
  {key : FormKey} {t : Text}

/-! ## Rules for everyone -/

theorem Criterion.holds_of_isEmpty {s : Criterion α} (h : s.isEmpty = true)
    (present : Part α → Bool) : s.holds present = true := by
  obtain ⟨expressions⟩ := s
  obtain rfl := List.isEmpty_iff.1 h
  rfl

theorem Npc.traitsHold_of_isEmpty (npc : Npc) {t : Traits.Wanted} (h : t.isEmpty = true) :
    npc.traitsHold t = true := by
  obtain ⟨female, unique, summonable, child, leveled⟩ := t
  simp only [Traits.Wanted.isEmpty, Bool.and_eq_true, Option.isNone_iff_eq_none] at h
  obtain ⟨⟨⟨⟨rfl, rfl⟩, rfl⟩, rfl⟩, rfl⟩ := h
  rfl

theorem Subject.satisfies_of_isForAll (s : Subject) (h : f.isForAll = true) :
    s.satisfies f = true := by
  simp only [Filters.isForAll, Bool.and_eq_true] at h
  obtain ⟨⟨⟨hstrings, hforms⟩, hlevels⟩, htraits⟩ := h
  have hnoLevels : f.levels = [] := List.isEmpty_iff.1 hlevels
  simp only [satisfies, stringsHold, Npc.formsHold, Npc.levelsHold, hnoLevels, List.all_nil,
    s.npc.traitsHold_of_isEmpty htraits, Criterion.holds_of_isEmpty hstrings,
    Criterion.holds_of_isEmpty hforms, Bool.and_self]

theorem Population.satisfiesAt_of_isForAll (tags : Tags) (h : f.isForAll = true) (hi : i < p.size) :
    p.satisfiesAt tags f i = true := by
  have hc : p.characters[i]? = some p.characters[i] := Array.getElem?_eq_getElem hi
  rw [satisfiesAt, subject?, hc]
  exact Subject.satisfies_of_isForAll _ h

/-! ## Naming outright -/

/-- Some reference that has to hold is to the character. -/
def Filters.refersTo (f : Filters) (npc : Npc) : Bool :=
  f.forms.included.any fun part =>
    part.value.kind? == some .npc && part.value.key?.any (·.same npc.id)

/-- Some whole text that has to hold is the editor id of the character. -/
def Filters.calls (f : Filters) (npc : Npc) : Bool :=
  f.strings.included.any fun part =>
    !part.wildcard && npc.editorId.any fun e => Text.lower e == Text.lower part.value

/-- The rule is for everyone, or it names the character. -/
def Rule.names (r : Rule) (npc : Npc) : Bool :=
  r.filters.isForAll || r.filters.refersTo npc || r.filters.calls npc

theorem Rule.names_iff {npc : Npc} : r.names npc = true ↔
    r.filters.isForAll = true ∨ r.filters.refersTo npc = true ∨ r.filters.calls npc = true := by
  simp only [Rule.names, Bool.or_eq_true, or_assoc]

/-- No character before the one at the position has its editor id. -/
def Population.IsFirstCalled (p : Population) (i : Nat) (npc : Npc) : Prop :=
  ∀ j < i, ∀ other, p.characters[j]? = some other → ∀ e ∈ npc.editorId,
    ∀ e' ∈ other.npc.editorId, Text.lower e' ≠ Text.lower e

namespace Population

theorem position?_eq_some (hids : p.DistinctIds) (hc : p.characters[i]? = some c) :
    p.position? key = some i ↔ key.same c.npc.id = true := by
  obtain ⟨hi, hget⟩ := Array.getElem?_eq_some_iff.1 hc
  rw [position?, Array.findIdx?_eq_some_iff_getElem]
  constructor
  · rintro ⟨_, hsame, -⟩
    rwa [hget, FormKey.same_comm] at hsame
  · intro hsame
    rw [FormKey.same_comm] at hsame
    refine ⟨hi, by rwa [hget], fun j hj hother => ?_⟩
    have hj' : j < p.characters.size := Nat.lt_trans hj hi
    have hboth : p.characters[j].npc.id.same c.npc.id = true :=
      FormKey.same_trans hother (by rwa [FormKey.same_comm])
    exact Nat.ne_of_lt hj (hids.eq_of_same (Array.getElem?_eq_getElem hj') hc hboth)

theorem mem_namedByForm (hids : p.DistinctIds) (hc : p.characters[i]? = some c) :
    i ∈ p.namedByForm f ↔ f.refersTo c.npc = true := by
  rw [namedByForm, Filters.refersTo, List.mem_filterMap, List.any_eq_true]
  refine exists_congr fun part => and_congr_right fun _ => ?_
  rcases part.value with ⟨kind, key, editorId⟩ | plugin
  · cases kind <;> simp [Reference.kind?, Reference.key?, position?_eq_some hids hc]
  · simp [Reference.kind?]

theorem positionCalled?_eq_some (hc : p.characters[i]? = some c) :
    p.positionCalled? t = some i ↔
      (c.npc.editorId.any fun e => Text.lower e == Text.lower t) = true ∧
        p.IsFirstCalled i c.npc := by
  obtain ⟨hi, hget⟩ := Array.getElem?_eq_some_iff.1 hc
  rw [positionCalled?, Array.findIdx?_eq_some_iff_getElem]
  constructor
  · rintro ⟨_, hcalled, hbefore⟩
    rw [hget] at hcalled
    refine ⟨hcalled, fun j hj other hother e he e' he' hlower => hbefore j hj ?_⟩
    obtain ⟨_, hother⟩ := Array.getElem?_eq_some_iff.1 hother
    obtain ⟨own, hown, hcalled⟩ := (Option.any_eq_true _ _).1 hcalled
    obtain rfl := Option.some.inj (he.symm.trans hown)
    exact (Option.any_eq_true _ _).2 ⟨e', hother ▸ he', by rw [hlower]; exact hcalled⟩
  · rintro ⟨hcalled, hfirst⟩
    refine ⟨hi, by rwa [hget], fun j hj hother => ?_⟩
    obtain ⟨e, he, hlower⟩ := (Option.any_eq_true _ _).1 hcalled
    obtain ⟨e', he', hlower'⟩ := (Option.any_eq_true _ _).1 hother
    refine hfirst j hj _ (Array.getElem?_eq_getElem (Nat.lt_trans hj hi)) e he e' he' ?_
    rw [beq_iff_eq.1 hlower, beq_iff_eq.1 hlower']

theorem mem_namedByEditorId (hc : p.characters[i]? = some c) :
    i ∈ p.namedByEditorId f ↔ f.calls c.npc = true ∧ p.IsFirstCalled i c.npc := by
  simp only [namedByEditorId, Filters.calls, List.mem_filterMap, List.mem_filter, List.any_eq_true,
    Bool.and_eq_true, positionCalled?_eq_some hc]
  constructor
  · rintro ⟨part, ⟨hpart, hwhole⟩, hcalled, hfirst⟩
    exact ⟨⟨part, hpart, hwhole, hcalled⟩, hfirst⟩
  · rintro ⟨⟨part, hpart, hwhole, hcalled⟩, hfirst⟩
    exact ⟨part, ⟨hpart, hwhole⟩, hcalled, hfirst⟩

/-! ## The characters spoken of -/

theorem pairwise_affected (p : Population) (tags : Tags) (r : Rule) :
    (p.affected tags r).Pairwise (· < ·) := by
  rw [affected]
  split
  · exact List.pairwise_lt_range
  · exact List.pairwise_lt_range.filter _

theorem lt_size_of_mem_affected (h : i ∈ p.affected tags r) : i < p.size := by
  rw [affected] at h
  split at h
  · exact List.mem_range.1 h
  · exact List.mem_range.1 (List.mem_filter.1 h).1

/-- The rule speaks of the characters that it matches and that it finds by what it names. -/
theorem mem_affected_iff (hids : p.DistinctIds) (hc : p.characters[i]? = some c) :
    i ∈ p.affected tags r ↔ p.satisfiesAt tags r.filters i = true ∧
      (r.filters.isForAll = true ∨ r.filters.refersTo c.npc = true ∨
        r.filters.calls c.npc = true ∧ p.IsFirstCalled i c.npc) := by
  have hi : i < p.size := (Array.getElem?_eq_some_iff.1 hc).1
  rw [affected]
  split
  next hall => simp [hall, List.mem_range.2 hi, satisfiesAt_of_isForAll tags hall hi]
  next hsome =>
    rw [Bool.not_eq_true] at hsome
    simp only [List.mem_filter, List.mem_range, hi, true_and, Bool.and_eq_true,
      List.contains_iff_mem, List.mem_append, mem_namedByForm hids hc, mem_namedByEditorId hc,
      hsome, Bool.false_eq_true, false_or]
    exact and_comm

/-- A rule matches every character that it speaks of. -/
theorem satisfiesAt_of_mem_affected (h : i ∈ p.affected tags r) :
    p.satisfiesAt tags r.filters i = true := by
  rw [affected] at h
  split at h
  next hall => exact satisfiesAt_of_isForAll tags hall (List.mem_range.1 h)
  next =>
    obtain ⟨-, htest⟩ := List.mem_filter.1 h
    exact (Bool.and_eq_true_iff.1 htest).2

/-- A rule speaks of exactly those characters that it matches and names: all of them if it asks for
nothing, the one that it refers to, and of those with an editor id that it asks for the first.  They
come in strictly ascending order. -/
theorem affected_ascending_named (hids : p.DistinctIds) (tags : Tags) (r : Rule) :
    (p.affected tags r).Pairwise (· < ·) ∧
      ∀ i, i ∈ p.affected tags r ↔ ∃ c, p.characters[i]? = some c ∧
        p.satisfiesAt tags r.filters i = true ∧
          (r.filters.isForAll = true ∨ r.filters.refersTo c.npc = true ∨
            r.filters.calls c.npc = true ∧ p.IsFirstCalled i c.npc) := by
  refine ⟨pairwise_affected p tags r, fun i => ⟨fun h => ?_, ?_⟩⟩
  · have hi : i < p.size := lt_size_of_mem_affected h
    have hc : p.characters[i]? = some p.characters[i] := Array.getElem?_eq_getElem hi
    exact ⟨_, hc, (mem_affected_iff hids hc).1 h⟩
  · rintro ⟨c, hc, h⟩
    exact (mem_affected_iff hids hc).2 h

end Population

/-! Two guards with one editor id and their captain, all of whom a rule names and matches. -/

def recruit (localId : UInt32) (editorId : Text) : Npc where
  id := ⟨"Watch.esp", localId⟩
  name := none
  editorId := some editorId
  sourcePlugin := "Watch.esp"
  factions := []
  keywords := []
  race := none
  combatClass := none
  defaultOutfit := none
  sleepOutfit := none
  combatStyle := none
  voiceType := none
  template := none
  level := 1
  skills := []
  traits := ⟨false, false, false, false, false⟩

def nightWatch : Population :=
  .ofNpcs [recruit 1 "Guard", recruit 2 "Guard", recruit 3 "Captain"]

/-- What is read from the line `Keyword = OnDuty|Guard,Captain`. -/
def rollCall : Rule where
  dialect := .spid
  lineNumber := 1
  raw := "Keyword = OnDuty|Guard,Captain"
  target := .keyword "OnDuty"
  filters := { Filters.empty with
    strings := .anyOf [⟨"Guard", false, false⟩, ⟨"Captain", false, false⟩] }
  chance := none
  extra := none

theorem distinctIds_nightWatch : nightWatch.DistinctIds := by
  unfold Population.DistinctIds
  decide +kernel

theorem rollCall_affects :
    nightWatch.DistinctIds ∧ 0 ∈ nightWatch.affected (.none 3) rollCall ∧
      1 ∉ nightWatch.affected (.none 3) rollCall ∧ 2 ∈ nightWatch.affected (.none 3) rollCall := by
  obtain ⟨-, hmem⟩ := Population.affected_ascending_named distinctIds_nightWatch (.none 3) rollCall
  have hguard : nightWatch.positionCalled? "Guard" = some 0 := by decide +kernel
  have hcaptain : nightWatch.positionCalled? "Captain" = some 2 := by decide +kernel
  refine ⟨distinctIds_nightWatch, (hmem 0).2 ⟨_, rfl, by decide +kernel, ?_⟩, fun h => ?_,
    (hmem 2).2 ⟨_, rfl, by decide +kernel, ?_⟩⟩
  · exact .inr (.inr ⟨by decide +kernel, ((Population.positionCalled?_eq_some rfl).1 hguard).2⟩)
  · obtain ⟨c, hc, -, hforAll | hrefers | ⟨-, hfirst⟩⟩ := (hmem 1).1 h
    · exact absurd hforAll (by decide +kernel)
    · obtain rfl := Option.some.inj hc
      exact absurd hrefers (by decide +kernel)
    · obtain rfl := Option.some.inj hc
      exact hfirst 0 Nat.zero_lt_one _ rfl "Guard" rfl "Guard" rfl rfl
  · exact .inr (.inr ⟨by decide +kernel, ((Population.positionCalled?_eq_some rfl).1 hcaptain).2⟩)

/-- The second guard is named and matched as the first one is, and is not spoken of. -/
theorem rollCall_misses :
    nightWatch.DistinctIds ∧ ¬ ∀ i, i ∈ nightWatch.affected (.none 3) rollCall ↔
      ∃ c, nightWatch.characters[i]? = some c ∧
        nightWatch.satisfiesAt (.none 3) rollCall.filters i = true ∧
          rollCall.names c.npc = true := by
  refine ⟨distinctIds_nightWatch, fun hall => ?_⟩
  have hguard : 1 ∈ nightWatch.affected (.none 3) rollCall :=
    (hall 1).2 ⟨_, rfl, by decide +kernel, by decide +kernel⟩
  exact absurd hguard (by decide +kernel)

end Wardrobe
