import Mathlib.Data.List.Nodup
import Wardrobe.Match
/-
Who has which tag, and what the answer of a filter depends on.

The tags of a population only ever grow, by `Tags.give`, so each lemma here says of a tag and a
character when the one is among the tags of the other.
-/

namespace Wardrobe

namespace Tags

variable {tags : Tags} {tag t : Text} {i j n : Nat}

def size (tags : Tags) : Nat := tags.perCharacter.size

@[simp] theorem size_none (n : Nat) : (none n).size = n := by
  simp [size, none]

@[simp] theorem of_none (n i : Nat) : (none n).of i = [] := by
  rw [of, none, Array.getD_eq_getD_getElem?, Array.getElem?_replicate]
  split <;> rfl

@[simp] theorem size_give (tags : Tags) (tag : Text) (i : Nat) :
    (tags.give tag i).size = tags.size := by
  simp [size, give]

theorem mem_give : t ∈ (tags.give tag j).of i ↔
    t ∈ tags.of i ∨ (j = i ∧ i < tags.size ∧ t = tag) := by
  rw [of, of, size, give, Array.getD_eq_getD_getElem?, Array.getD_eq_getD_getElem?,
    Array.getElem?_modify]
  by_cases hji : j = i
  · subst hji
    by_cases hj : j < tags.perCharacter.size
    · rw [if_pos rfl, Array.getElem?_eq_getElem hj]
      simp only [Option.map_some, Option.getD_some, hj, true_and]
      split
      next hmem =>
        have htag := List.contains_iff_mem.1 hmem
        exact ⟨Or.inl, fun h => h.elim id fun heq => heq ▸ htag⟩
      next => simp
    · have hnone : tags.perCharacter[j]? = Option.none := Array.getElem?_eq_none (by omega)
      rw [if_pos rfl, hnone]
      simp [hj]
  · simp [hji]

theorem size_foldl_give (tag : Text) (characters : List Nat) (tags : Tags) :
    (characters.foldl (Tags.give · tag ·) tags).size = tags.size := by
  induction characters generalizing tags with
  | nil => rfl
  | cons i rest ih => rw [List.foldl_cons, ih, size_give]

theorem mem_foldl_give {characters : List Nat} :
    t ∈ (characters.foldl (Tags.give · tag ·) tags).of i ↔
      t ∈ tags.of i ∨ (i ∈ characters ∧ i < tags.size ∧ t = tag) := by
  induction characters generalizing tags with
  | nil => simp
  | cons j rest ih =>
    rw [List.foldl_cons, ih, mem_give, size_give, List.mem_cons, eq_comm (a := i)]
    tauto

theorem nodup_give (h : (tags.of i).Nodup) : ((tags.give tag j).of i).Nodup := by
  rw [of, give, Array.getD_eq_getD_getElem?, Array.getElem?_modify]
  rw [of, Array.getD_eq_getD_getElem?] at h
  by_cases hji : j = i
  · rw [if_pos hji]
    cases hown : tags.perCharacter[i]? with
    | none => simp
    | some own =>
      rw [hown] at h
      simp only [Option.map_some, Option.getD_some] at h ⊢
      split
      next => exact h
      next hnew =>
        rw [List.contains_iff_mem] at hnew
        exact List.concat_eq_append ▸ h.concat hnew
  · rwa [if_neg hji]

theorem nodup_foldl_give {characters : List Nat} (h : (tags.of i).Nodup) :
    ((characters.foldl (Tags.give · tag ·) tags).of i).Nodup := by
  induction characters generalizing tags with
  | nil => exact h
  | cons j rest ih => exact ih (nodup_give h)

end Tags

namespace Criterion

variable {s : Criterion α} {f g : Part α → Bool} {l : List (Part α)}

theorem any_congr_mem (h : ∀ part ∈ l, f part = g part) : l.any f = l.any g := by
  rw [Bool.eq_iff_iff, List.any_eq_true, List.any_eq_true]
  exact exists_congr fun part => and_congr_right fun hpart => by rw [h part hpart]

theorem all_congr_mem (h : ∀ part ∈ l, f part = g part) : l.all f = l.all g := by
  rw [Bool.eq_iff_iff, List.all_eq_true, List.all_eq_true]
  exact forall₂_congr fun part hpart => by rw [h part hpart]

/-- Only the parts of a criterion are asked for. -/
theorem holds_congr (h : ∀ part ∈ s.parts, f part = g part) : s.holds f = s.holds g := by
  have hexcluded : s.excluded.any f = s.excluded.any g :=
    any_congr_mem fun part hpart => h part (List.mem_filter.1 hpart).1
  have hall : ∀ e ∈ s.expressions, (inclusions e).all f = (inclusions e).all g := by
    intro e he
    refine all_congr_mem fun part hpart => h part ?_
    exact List.mem_flatten.2 ⟨e, he, (List.mem_filter.1 hpart).1⟩
  have hany : ((s.expressions.map inclusions).filter fun e => !e.isEmpty).any (·.all f) =
      ((s.expressions.map inclusions).filter fun e => !e.isEmpty).any (·.all g) := by
    rw [Bool.eq_iff_iff, List.any_eq_true, List.any_eq_true]
    refine exists_congr fun asked => and_congr_right fun hasked => ?_
    obtain ⟨e, he, rfl⟩ := List.mem_map.1 (List.mem_filter.1 hasked).1
    rw [hall e he]
  simp only [holds, hexcluded, hany]

end Criterion

namespace Subject

variable {s : Subject} {folded : Text}

theorem isCalled_iff : s.isCalled folded = true ↔
    folded ∈ s.profile.keys ∨ folded ∈ s.tags := by
  simp [isCalled]

theorem mentions_iff : s.mentions folded = true ↔
    (∃ text ∈ s.profile.haystack, Text.occursIn folded text = true) ∨
      ∃ tag ∈ s.tags, Text.occursIn folded tag = true := by
  simp [mentions]

theorem mentions_of_tags_missed (h : ∀ tag ∈ s.tags, Text.occursIn folded tag = false) :
    s.mentions folded = s.profile.haystack.any (Text.occursIn folded) := by
  have htags : s.tags.any (Text.occursIn folded) = false := by simpa using h
  rw [mentions, htags, Bool.or_false]

end Subject

namespace Population

variable {p : Population} {tags before after : Tags} {f : Filters} {i : Nat}

theorem lt_size_of_satisfiesAt (h : p.satisfiesAt tags f i = true) : i < p.size := by
  rw [satisfiesAt, subject?] at h
  by_contra hi
  have hnone : p.characters[i]? = none := Array.getElem?_eq_none (Nat.le_of_not_lt hi)
  simp [hnone] at h

theorem tags_of_mem_subject? {s : Subject} (hs : s ∈ p.subject? tags i) : s.tags = tags.of i := by
  obtain ⟨c, -, rfl⟩ := Option.map_eq_some_iff.1 hs
  rfl

theorem mem_matching : i ∈ p.matching tags f ↔ p.satisfiesAt tags f i = true := by
  rw [matching, List.mem_filter, List.mem_range]
  exact ⟨And.right, fun h => ⟨lt_size_of_satisfiesAt h, h⟩⟩

/-- Tags matter to the answer of a filter only through its string parts. -/
theorem satisfiesAt_congr (h : ∀ s ∈ p.subject? before i, ∀ part ∈ f.strings.parts,
    s.hasString part = { s with tags := after.of i }.hasString part) :
    p.satisfiesAt before f i = p.satisfiesAt after f i := by
  rw [satisfiesAt, satisfiesAt, subject?, subject?]
  rw [subject?] at h
  cases hc : p.characters[i]? with
  | none => rfl
  | some c =>
    have hstrings := Criterion.holds_congr (h _ (by rw [hc]; rfl))
    simp only [Option.map_some, Option.any_some, Subject.satisfies, Subject.stringsHold, hstrings]

end Population
end Wardrobe
