import Mathlib.Data.List.Forall2
import Wardrobe.Proofs.Filter.Criterion
import Wardrobe.Proofs.Match
import Wardrobe.Proofs.Rule.Line
/-
Wildcards in place of exact parts, and more tags: who passes a string filter afterwards.

What equals a key also occurs in a text of the haystack, since the keys are among those texts, and a
tag that equals a part contains it.  So a wildcard finds whatever the exact part finds.  A part that
finds more asks for less where it is included and for more where it is negated, and what a criterion
as a whole makes of that is one lemma on two criteria of the same shape.
-/

namespace Wardrobe

namespace Text

theorem occursIn_self (t : Text) : occursIn t t = true := by
  cases t with
  | nil => rfl
  | cons c rest => simp [occursIn]

end Text

/-! ## Criteria of one shape -/

namespace Criterion

variable {s t : Criterion α} {f g : Part α → Bool} {p q : Part α} {e e' : List (Part α)}

/-- An included part is there, a negated one is not. -/
def Part.IsMet (present : Part α → Bool) (p : Part α) : Prop := present p = !p.negated

/-- The second part stands for the first, with the same sign, and is met where the first is. -/
def Part.Gives (f g : Part α → Bool) (p q : Part α) : Prop :=
  p.negated = q.negated ∧ (p.IsMet f → q.IsMet g)

theorem forall₂_inclusions (h : List.Forall₂ (Part.Gives f g) e e') :
    List.Forall₂ (Part.Gives f g) (inclusions e) (inclusions e') := by
  refine List.rel_filter (fun p q hpq => ?_) h
  simp [hpq.1]

theorem isMet_of_inclusions :
    (∀ p ∈ inclusions e, p.IsMet f) ↔ ∀ p ∈ inclusions e, f p = true := by
  refine forall₂_congr fun p hp => ?_
  have hincluded : p.negated = false := by simpa using (List.mem_filter.1 hp).2
  rw [Part.IsMet, hincluded, Bool.not_false]

theorem isMet_of_excluded :
    (∀ p ∈ s.excluded, p.IsMet f) ↔ ∀ p ∈ s.excluded, f p = false := by
  refine forall₂_congr fun p hp => ?_
  rw [Part.IsMet, (mem_excluded.1 hp).2, Bool.not_true]

/-- Part by part the second criterion is met where the first is, so it holds where the first
does. -/
theorem holds_of_gives
    (h : List.Forall₂ (List.Forall₂ (Part.Gives f g)) s.expressions t.expressions)
    (hs : s.holds f = true) : t.holds g = true := by
  rw [holds_iff, ← isMet_of_excluded] at hs ⊢
  obtain ⟨hexcluded, hsome⟩ := hs
  constructor
  · intro q hq
    obtain ⟨⟨e', he', hqe⟩, hneg⟩ := mem_excluded.1 hq
    obtain ⟨e, he, hee⟩ := exists_of_mem_right h he'
    obtain ⟨p, hpe, hsign, hmet⟩ := exists_of_mem_right hee hqe
    exact hmet (hexcluded p (mem_excluded.2 ⟨⟨e, he, hpe⟩, hsign.trans hneg⟩))
  rcases hsome with hnone | ⟨e, he, hne, hall⟩
  · refine Or.inl fun e' he' => ?_
    obtain ⟨e, he, hee⟩ := exists_of_mem_right h he'
    have hrelated := forall₂_inclusions hee
    rw [hnone e he] at hrelated
    exact List.forall₂_nil_left_iff.1 hrelated
  · obtain ⟨e', he', hee⟩ := exists_of_mem_left h he
    have hrelated := forall₂_inclusions hee
    refine Or.inr ⟨e', he', fun hnil => hne ?_, isMet_of_inclusions.1 fun q hq => ?_⟩
    · rw [hnil] at hrelated
      exact List.forall₂_nil_right_iff.1 hrelated
    · obtain ⟨p, hp, -, hmet⟩ := exists_of_mem_right hrelated hq
      exact hmet (isMet_of_inclusions.2 hall p hp)

/-- The second criterion is the first with one occurrence of the part made a wildcard. -/
def WildensAt (p : Part α) (s t : Criterion α) : Prop :=
  ∃ before front back after, s = ⟨before ++ (front ++ p :: back) :: after⟩ ∧
    t = ⟨before ++ (front ++ { p with wildcard := true } :: back) :: after⟩

/-- Only the one part is another. -/
theorem forall₂_replace {R : Part α → Part α → Prop} (hsame : ∀ p, R p p) (hpq : R p q)
    (before after : List (List (Part α))) (front back : List (Part α)) :
    List.Forall₂ (List.Forall₂ R) (before ++ (front ++ p :: back) :: after)
      (before ++ (front ++ q :: back) :: after) := by
  have hrow : ∀ e : List (Part α), List.Forall₂ R e e :=
    fun e => List.forall₂_same.2 fun p _ => hsame p
  have hrows : ∀ es : List (List (Part α)), List.Forall₂ (List.Forall₂ R) es es :=
    fun es => List.forall₂_same.2 fun e _ => hrow e
  have hchanged : List.Forall₂ R (front ++ p :: back) (front ++ q :: back) :=
    List.rel_append (hrow front) (.cons hpq (hrow back))
  exact List.rel_append (hrows before) (.cons hchanged (hrows after))

end Criterion

/-! ## What a wildcard finds -/

namespace Profile

theorem mem_foldedDistinct {ts : List Text} {t : Text} :
    t ∈ foldedDistinct ts ↔ t ≠ [] ∧ ∃ u ∈ ts, Text.lower u = t := by
  simp [foldedDistinct, mem_distinct, and_comm]

/-- The haystack has the text of the template besides the keys. -/
theorem keys_subset_haystack (npc : Npc) : (ofNpc npc).keys ⊆ (ofNpc npc).haystack := by
  intro t ht
  obtain ⟨hne, u, hu, rfl⟩ := mem_foldedDistinct.1 ht
  refine mem_foldedDistinct.2 ⟨hne, u, ?_, rfl⟩
  rcases List.mem_append.1 hu with hown | hgroup
  · exact List.mem_append_left _ (List.mem_append_left _ hown)
  · exact List.mem_append_right _ hgroup

end Profile

namespace Subject

variable {npc : Npc} {tags more : List Text} {folded : Text} {p : Criterion.Part Text}

/-- A character that has the given tags. -/
def ofNpc (npc : Npc) (tags : List Text) : Subject := ⟨npc, .ofNpc npc, tags⟩

theorem mentions_of_isCalled (h : (ofNpc npc tags).isCalled folded = true) :
    (ofNpc npc tags).mentions folded = true := by
  rcases isCalled_iff.1 h with hkey | htag
  · exact mentions_iff.2
      (Or.inl ⟨folded, Profile.keys_subset_haystack npc hkey, Text.occursIn_self folded⟩)
  · exact mentions_iff.2 (Or.inr ⟨folded, htag, Text.occursIn_self folded⟩)

theorem hasString_wildcard (h : (ofNpc npc tags).hasString p = true) :
    (ofNpc npc tags).hasString { p with wildcard := true } = true := by
  rw [hasString] at h
  show (ofNpc npc tags).mentions (Text.lower p.value) = true
  split at h
  · exact h
  · exact mentions_of_isCalled h

theorem hasString_mono (hmore : tags ⊆ more) (h : (ofNpc npc tags).hasString p = true) :
    (ofNpc npc more).hasString p = true := by
  rw [hasString] at h ⊢
  split at h
  · next hwild =>
    rw [if_pos hwild]
    refine mentions_iff.2 ((mentions_iff.1 h).imp_right fun hfound => ?_)
    obtain ⟨tag, htag, hoccurs⟩ := hfound
    exact ⟨tag, hmore htag, hoccurs⟩
  · next hwild =>
    rw [if_neg hwild]
    exact isCalled_iff.2 ((isCalled_iff.1 h).imp_right fun htag => hmore htag)

/-- Only the string part of the filters is looked at by way of the tags. -/
theorem satisfies_of_stringsHold {f : Filters} {strings : Criterion Text}
    (h : (ofNpc npc tags).stringsHold f.strings = true →
      (ofNpc npc more).stringsHold strings = true)
    (hs : (ofNpc npc tags).satisfies f = true) :
    (ofNpc npc more).satisfies { f with strings } = true := by
  rw [satisfies, Bool.and_eq_true] at hs ⊢
  exact ⟨hs.1, h hs.2⟩

theorem stringsHold_of_wildensAt {s t : Criterion Text} (h : s.WildensAt p t)
    (hincluded : p.negated = false) (hs : (ofNpc npc tags).stringsHold s = true) :
    (ofNpc npc tags).stringsHold t = true := by
  obtain ⟨before, front, back, after, rfl, rfl⟩ := h
  refine Criterion.holds_of_gives (Criterion.forall₂_replace (fun _ => ⟨rfl, id⟩) ?_ _ _ _ _) hs
  refine ⟨rfl, fun hmet => ?_⟩
  rw [Criterion.Part.IsMet, hincluded, Bool.not_false] at hmet ⊢
  exact hasString_wildcard hmet

theorem stringsHold_of_wildensAt_negated {s t : Criterion Text} (h : s.WildensAt p t)
    (hnegated : p.negated = true) (ht : (ofNpc npc tags).stringsHold t = true) :
    (ofNpc npc tags).stringsHold s = true := by
  obtain ⟨before, front, back, after, rfl, rfl⟩ := h
  refine Criterion.holds_of_gives (Criterion.forall₂_replace (fun _ => ⟨rfl, id⟩) ?_ _ _ _ _) ht
  refine ⟨rfl, fun hmet => ?_⟩
  have hmissed : (ofNpc npc tags).hasString { p with wildcard := true } = false :=
    hmet.trans (congrArg Bool.not hnegated)
  rw [Criterion.Part.IsMet, hnegated, Bool.not_true]
  by_contra hfound
  rw [Bool.not_eq_false] at hfound
  rw [hasString_wildcard hfound] at hmissed
  cases hmissed

theorem stringsHold_mono {s : Criterion Text} (hplain : ∀ p ∈ s.parts, p.negated = false)
    (hmore : tags ⊆ more) (hs : (ofNpc npc tags).stringsHold s = true) :
    (ofNpc npc more).stringsHold s = true := by
  refine Criterion.holds_of_gives ?_ hs
  refine List.forall₂_same.2 fun e he => List.forall₂_same.2 fun p hp => ⟨rfl, fun hmet => ?_⟩
  have hincluded := hplain p (List.mem_flatten.2 ⟨e, he, hp⟩)
  rw [Criterion.Part.IsMet, hincluded, Bool.not_false] at hmet ⊢
  exact hasString_mono hmore hmet

/-- Making a wildcard of an included part keeps all whom the rule matches, and making one of a
negated part lets nobody in, where a part that is a wildcard already changes nothing.  More tags
keep all whom a rule matches that negates no part. -/
theorem satisfies_of_wildensAt (npc : Npc) (tags : List Text) (r : Rule) :
    (∀ p strings, r.filters.strings.WildensAt p strings →
      (p.negated = false → (ofNpc npc tags).satisfies r.filters = true →
        (ofNpc npc tags).satisfies { r.filters with strings } = true) ∧
      (p.negated = true → (ofNpc npc tags).satisfies r.filters = false →
        (ofNpc npc tags).satisfies { r.filters with strings } = false)) ∧
    ((∀ p ∈ r.filters.strings.parts, p.negated = false) → ∀ more, tags ⊆ more →
      (ofNpc npc tags).satisfies r.filters = true →
        (ofNpc npc more).satisfies r.filters = true) := by
  refine ⟨fun p strings hwildens => ⟨fun hincluded hs => ?_, fun hnegated hs => ?_⟩,
    fun hplain more hmore hs => ?_⟩
  · exact satisfies_of_stringsHold (stringsHold_of_wildensAt hwildens hincluded) hs
  · by_contra hnow
    rw [Bool.not_eq_false] at hnow
    have hback := satisfies_of_stringsHold (stringsHold_of_wildensAt_negated hwildens hnegated) hnow
    rw [hs] at hback
    cases hback
  · exact satisfies_of_stringsHold (stringsHold_mono hplain hmore) hs

/-! Someone at court, and two rules for whoever is called so or on duty, the first of which is not
for spies. -/

def chamberlain : Npc where
  id := ⟨"Court.esp", 1⟩
  name := some "Anska"
  editorId := none
  sourcePlugin := "Court.esp"
  factions := []
  keywords := []
  race := none
  combatClass := none
  defaultOutfit := none
  sleepOutfit := none
  combatStyle := none
  voiceType := none
  template := none
  level := 1
  skills := []
  traits := ⟨true, false, false, false, false⟩

def chamberRule (expressions : List (List (Criterion.Part Text))) : Rule where
  dialect := .spid
  lineNumber := 1
  raw := "Keyword = AtChamber"
  target := .keyword "AtChamber"
  filters := { Filters.empty with strings := ⟨expressions⟩ }
  chance := none
  extra := none

def called : Criterion.Part Text := ⟨"Anska", false, false⟩

def onDuty : Criterion.Part Text := ⟨"OnDuty", false, false⟩

def noSpy : Criterion.Part Text := ⟨"Spy", true, false⟩

theorem chamberlain_stays_matched :
    Criterion.WildensAt called ⟨[[called, noSpy], [onDuty]]⟩
        ⟨[[⟨"Anska", false, true⟩, noSpy], [onDuty]]⟩ ∧
      (ofNpc chamberlain []).satisfies (chamberRule [[called, noSpy], [onDuty]]).filters = true ∧
      (ofNpc chamberlain []).satisfies
        (chamberRule [[⟨"Anska", false, true⟩, noSpy], [onDuty]]).filters = true ∧
      Criterion.WildensAt noSpy ⟨[[called, noSpy], [onDuty]]⟩
        ⟨[[called, ⟨"Spy", true, true⟩], [onDuty]]⟩ ∧
      (ofNpc chamberlain ["spy"]).satisfies
        (chamberRule [[called, noSpy], [onDuty]]).filters = false ∧
      (ofNpc chamberlain ["spy"]).satisfies
        (chamberRule [[called, ⟨"Spy", true, true⟩], [onDuty]]).filters = false ∧
      (ofNpc chamberlain ["onduty"]).satisfies (chamberRule [[called, onDuty]]).filters = true ∧
      (ofNpc chamberlain ["spy", "onduty"]).satisfies
        (chamberRule [[called, onDuty]]).filters = true := by
  have hcalled : Criterion.WildensAt called ⟨[[called, noSpy], [onDuty]]⟩
      ⟨[[⟨"Anska", false, true⟩, noSpy], [onDuty]]⟩ := ⟨[], [], [noSpy], [[onDuty]], rfl, rfl⟩
  have hspy : Criterion.WildensAt noSpy ⟨[[called, noSpy], [onDuty]]⟩
      ⟨[[called, ⟨"Spy", true, true⟩], [onDuty]]⟩ := ⟨[], [called], [], [[onDuty]], rfl, rfl⟩
  have hmatched : (ofNpc chamberlain []).satisfies
      (chamberRule [[called, noSpy], [onDuty]]).filters = true := by decide
  have hmissed : (ofNpc chamberlain ["spy"]).satisfies
      (chamberRule [[called, noSpy], [onDuty]]).filters = false := by decide
  have hserving : (ofNpc chamberlain ["onduty"]).satisfies
      (chamberRule [[called, onDuty]]).filters = true := by decide
  have hwidened := (satisfies_of_wildensAt chamberlain []
    (chamberRule [[called, noSpy], [onDuty]])).1 called _ hcalled
  have hnarrowed := (satisfies_of_wildensAt chamberlain ["spy"]
    (chamberRule [[called, noSpy], [onDuty]])).1 noSpy _ hspy
  have htagged := (satisfies_of_wildensAt chamberlain ["onduty"]
    (chamberRule [[called, onDuty]])).2 (by decide) ["spy", "onduty"] (by simp)
  exact ⟨hcalled, hmatched, hwidened.1 rfl hmatched, hspy, hmissed, hnarrowed.2 rfl hmissed,
    hserving, htagged hserving⟩

end Subject
end Wardrobe
