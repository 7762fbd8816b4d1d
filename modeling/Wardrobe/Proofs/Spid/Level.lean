import Wardrobe.Proofs.Rule.Line
import Wardrobe.Proofs.Text.Digit
import Wardrobe.Proofs.Text.Pieces
import Wardrobe.Spid.Field
/-
Level fields: what is read from a clause is what its digits denote.

The grammar of clauses is stated beside the reader that takes them apart.  A bound whose digits
have no value is refused, and the index of a skill is not: an index that was written in the digits
of another script becomes the largest one, as a number does that is too large to hold.
-/

namespace Wardrobe
namespace Spid

open Text

/-! ## The grammar of clauses -/

/-- A row of decimal digits of any script, perhaps empty. -/
def IsDigits (t : Text) : Prop := ∀ c ∈ t, isDecimalDigit c = true

/-- White space, perhaps none. -/
def IsBlanks (t : Text) : Prop := ∀ c ∈ t, isBlank c = true

/-- The text of a range with these bounds: `low`, or `low/high` with white space around the
slash. -/
inductive IsRange : Text → Text → Text → Prop
  | lower {low : Text} (hlow : IsDigits low) : IsRange low low []
  | both {low before after high : Text} (hlow : IsDigits low) (hhigh : IsDigits high)
      (hbefore : IsBlanks before) (hafter : IsBlanks after) :
      IsRange (low ++ before ++ '/' :: (after ++ high)) low high

/-- The text of a clause with these bounds: a range of levels, or `index(range)` with white space
on either side of the parentheses. -/
inductive IsClause : Text → Option Text → Text → Text → Prop
  | level {range low high : Text} (hrange : IsRange range low high) : IsClause range none low high
  | skill {index front before range after low high : Text} (hne : index ≠ [])
      (hindex : IsDigits index) (hfront : IsBlanks front) (hbefore : IsBlanks before)
      (hrange : IsRange range low high) (hafter : IsBlanks after) :
      IsClause (index ++ front ++ '(' :: (before ++ range ++ after ++ [')'])) (some index) low high

variable {t piece field digits index low high rest : Text} {index? : Option Text}
  {range : LevelRange}

theorem IsRange.isDigits (h : IsRange t low high) : IsDigits low ∧ IsDigits high := by
  cases h with
  | lower hlow => exact ⟨hlow, fun _ hc => absurd hc List.not_mem_nil⟩
  | both hlow hhigh => exact ⟨hlow, hhigh⟩

theorem IsClause.isDigits (h : IsClause t index? low high) : IsDigits low ∧ IsDigits high := by
  cases h with
  | level hrange => exact hrange.isDigits
  | skill _ _ _ _ hrange _ => exact hrange.isDigits

theorem IsClause.isDigits_index (h : IsClause t (some index) low high) :
    index ≠ [] ∧ IsDigits index := by
  cases h with
  | skill hne hindex => exact ⟨hne, hindex⟩

theorem takeNumber_spec (t : Text) :
    IsDigits (takeNumber t).1 ∧ t = (takeNumber t).1 ++ (takeNumber t).2 :=
  ⟨fun _ hc => List.mem_takeWhile_imp hc, List.takeWhile_append_dropWhile.symm⟩

theorem trimStart_spec (t : Text) : ∃ blanks, IsBlanks blanks ∧ t = blanks ++ trimStart t :=
  ⟨t.takeWhile isBlank, fun _ hc => List.mem_takeWhile_imp hc, List.takeWhile_append_dropWhile.symm⟩

theorem takeRange_spec (h : takeRange t = ((low, high), rest)) : ∃ range blanks,
    IsRange range low high ∧ IsBlanks blanks ∧ t = range ++ blanks ++ rest := by
  obtain ⟨hlow, ht⟩ := takeNumber_spec t
  obtain ⟨before, hbefore, hbehind⟩ := trimStart_spec (takeNumber t).2
  rw [takeRange] at h
  dsimp only at h
  split at h
  next inside hslash =>
    obtain ⟨after, hafter, hinside⟩ := trimStart_spec inside
    obtain ⟨hhigh, hend⟩ := takeNumber_spec (trimStart inside)
    obtain ⟨⟨rfl, rfl⟩, rfl⟩ : (_ ∧ _) ∧ _ := by simpa using h
    refine ⟨_, [], .both hlow hhigh hbefore hafter, fun _ hc => absurd hc List.not_mem_nil, ?_⟩
    simp only [List.append_nil, List.append_assoc, List.cons_append]
    rw [← hend, ← hinside, ← hslash, ← hbehind, ← ht]
  next =>
    obtain ⟨⟨rfl, rfl⟩, rfl⟩ : (_ ∧ _) ∧ _ := by simpa using h
    refine ⟨_, before, .lower hlow, hbefore, ?_⟩
    rw [List.append_assoc, ← hbehind, ← ht]

theorem isClause_of_skillShape? (h : skillShape? t = some (index, low, high)) :
    IsClause t (some index) low high := by
  obtain ⟨hindex, ht⟩ := takeNumber_spec t
  obtain ⟨front, hfront, hrest⟩ := trimStart_spec (takeNumber t).2
  rw [skillShape?] at h
  dsimp only at h
  split at h
  · cases h
  next hne =>
    split at h
    next inside hopen =>
      obtain ⟨before, hbefore, hinside⟩ := trimStart_spec inside
      generalize htaken : takeRange (trimStart inside) = taken at h
      obtain ⟨⟨low', high'⟩, behind⟩ := taken
      obtain ⟨range, blanks, hrange, hblanks, hrangeText⟩ := takeRange_spec htaken
      obtain ⟨after, hafter, hbehind⟩ := trimStart_spec behind
      dsimp only at h
      split at h
      next hclose =>
        obtain ⟨rfl, rfl, rfl⟩ : _ ∧ _ ∧ _ := by simpa using h
        have hboth : IsBlanks (blanks ++ after) := fun c hc =>
          (List.mem_append.1 hc).elim (hblanks c) (hafter c)
        have hclause := IsClause.skill (by simpa using hne) hindex hfront hbefore hrange hboth
        have htext : t = (takeNumber t).1 ++ front ++
            '(' :: (before ++ range ++ (blanks ++ after) ++ [')']) := by
          simp only [List.append_assoc]
          rw [← hclose, ← hbehind, ← List.append_assoc range, ← hrangeText, ← hinside, ← hopen,
            ← hrest, ← ht]
        rwa [← htext] at hclause
      · cases h
    · cases h

/-- A level clause has no white space behind it, because pieces have none. -/
theorem isClause_of_levelShape? (hpiece : IsPiece piece)
    (h : levelShape? piece = some (low, high)) : IsClause piece none low high := by
  rw [levelShape?] at h
  generalize htaken : takeRange piece = taken at h
  obtain ⟨⟨low', high'⟩, rest⟩ := taken
  obtain ⟨range, blanks, hrange, hblanks, htext⟩ := takeRange_spec htaken
  dsimp only at h
  split at h
  next hend =>
    obtain ⟨rfl, rfl⟩ : _ ∧ _ := by simpa using h
    rw [List.isEmpty_iff.1 hend, List.append_nil] at htext
    have hnone : blanks = [] := by
      rcases List.eq_nil_or_concat blanks with hnil | ⟨rest, c, hblank⟩
      · exact hnil
      · obtain ⟨front, d, hends, hd⟩ := hpiece.ends
        rw [htext, hblank, List.concat_eq_append, ← List.append_assoc] at hends
        obtain rfl := List.singleton_inj.1 (List.append_inj' hends rfl).2
        rw [hblanks c (by simp [hblank])] at hd
        cases hd
    rw [htext, hnone, List.append_nil]
    exact .level hrange
  · cases h

/-! ## The numbers of a clause -/

theorem readUInt16?_of_isDigits (hne : t ≠ []) (h : IsDigits t) {n : UInt16}
    (hread : readUInt16? t = some n) : n.toNat = number t := by
  rw [readUInt16?, readNat?_of_isDecimalDigit hne h] at hread
  split at hread
  next =>
    rw [Option.bind_some] at hread
    split at hread
    next hlt =>
      obtain rfl := Option.some.inj hread
      exact UInt16.toNat_ofNat_of_lt' hlt
    · cases hread
  · cases hread

/-- A bound that is accepted is the number written, and none is read from no digits. -/
theorem readBound_spec (h : IsDigits digits) {clause : Text} {bound : Option UInt16}
    (hread : readBound clause digits = .ok bound) :
    bound.map (·.toNat) = if digits = [] then none else some (number digits) := by
  rw [readBound] at hread
  split at hread
  next hnil =>
    obtain rfl := Except.ok.inj hread
    rw [if_pos (List.isEmpty_iff.1 hnil)]
    rfl
  next hne =>
    have hne : digits ≠ [] := by simpa using hne
    rw [if_neg hne]
    split at hread
    next n hn =>
      obtain rfl := Except.ok.inj hread
      exact congrArg some (readUInt16?_of_isDigits hne h hn)
    · cases hread

/-- The lower bound is the number that its digits denote, which is zero without any. -/
theorem toNat_getD_of_readBound (h : IsDigits digits) {clause : Text} {bound : Option UInt16}
    (hread : readBound clause digits = .ok bound) : (bound.getD 0).toNat = number digits := by
  have hbound := readBound_spec h hread
  split at hbound
  next hnil =>
    obtain rfl := Option.map_eq_none_iff.1 hbound
    rw [hnil]
    rfl
  · obtain ⟨n, rfl, hn⟩ := Option.map_eq_some_iff.1 hbound
    exact hn

theorem toNat_skillIndex (hne : index ≠ []) (h : IsDigits index) : (skillIndex index).toNat =
    if index.all Char.isDigit then min (number index) (UInt32.size - 1) else UInt32.size - 1 := by
  rw [skillIndex, readUInt32?, readNat?_of_isDecimalDigit hne h]
  split
  next =>
    rw [Option.bind_some]
    split
    next hlt =>
      rw [Option.getD_some, UInt32.toNat_ofNat_of_lt' hlt]
      omega
    next hlt =>
      rw [Option.getD_none, UInt32.toNat_ofNat_of_lt' (by decide)]
      omega
  next => rfl

/-- The index of a skill and the digits that it was read from. -/
structure IsIndexOf (k : UInt32) (digits : Text) : Prop where
  /-- It is the number written, or the largest index for one too large to hold, exactly if the
  digits are ASCII or the number is as large as that anyway. -/
  denotes_iff : k.toNat = min (number digits) (UInt32.size - 1) ↔
    (∀ c ∈ digits, c.isDigit = true) ∨ UInt32.size - 1 ≤ number digits
  /-- Digits of other scripts have no value. -/
  unread : (∃ c ∈ digits, c.isDigit = false) → k.toNat = UInt32.size - 1
  /-- It is the index of a skill if it was written as one in ASCII digits. -/
  isSkillIndex_iff : LevelRange.isSkillIndex k = true ↔
    (∀ c ∈ digits, c.isDigit = true) ∧ 6 ≤ number digits ∧ number digits ≤ 23

theorem isSkillIndex_iff_toNat {k : UInt32} :
    LevelRange.isSkillIndex k = true ↔ 6 ≤ k.toNat ∧ k.toNat ≤ 23 := by
  rw [LevelRange.isSkillIndex, Bool.and_eq_true, decide_eq_true_eq, decide_eq_true_eq,
    UInt32.le_iff_toNat_le, UInt32.le_iff_toNat_le]
  rfl

theorem isIndexOf_skillIndex (hne : index ≠ []) (h : IsDigits index) :
    IsIndexOf (skillIndex index) index := by
  have hvalue := toNat_skillIndex hne h
  have hsize : UInt32.size - 1 = 4294967295 := rfl
  by_cases hascii : ∀ c ∈ index, c.isDigit = true
  · rw [if_pos (List.all_eq_true.2 hascii)] at hvalue
    refine ⟨iff_of_true hvalue (Or.inl hascii), ?_, ?_⟩
    · rintro ⟨c, hc, hnot⟩
      rw [hascii c hc] at hnot
      cases hnot
    · rw [isSkillIndex_iff_toNat, hvalue, and_iff_right hascii]
      omega
  · rw [if_neg fun hall => hascii (List.all_eq_true.1 hall)] at hvalue
    refine ⟨?_, fun _ => hvalue, ?_⟩
    · rw [hvalue, or_iff_right hascii]
      omega
    · rw [isSkillIndex_iff_toNat, hvalue]
      exact iff_of_false (by omega) fun h => hascii h.1

/-- A clause of a level field, taken apart, and the range it was read as. -/
structure IsReadAs (clause : Text) (range : LevelRange) (index : Option Text) (low high : Text) :
    Prop where
  clause : IsClause clause index low high
  /-- A lower bound that is missing is zero, as `number` has it. -/
  min : range.min.toNat = number low
  max : range.max.map (·.toNat) = if high = [] then none else some (number high)
  bounds_le : number low ≤ 65535 ∧ number high ≤ 65535
  skill : Option.Rel IsIndexOf range.skill index

theorem isReadAs_of_isClause {clause : Text} {min max : Option UInt16} {skill : Option UInt32}
    (hclause : IsClause clause index? low high) (hmin : readBound clause low = .ok min)
    (hmax : readBound clause high = .ok max) (hskill : Option.Rel IsIndexOf skill index?) :
    IsReadAs clause ⟨skill, min.getD 0, max⟩ index? low high := by
  obtain ⟨hlow, hhigh⟩ := hclause.isDigits
  have hle (n : UInt16) : n.toNat ≤ 65535 := Nat.le_of_lt_succ n.toNat_lt_size
  refine ⟨hclause, toNat_getD_of_readBound hlow hmin, readBound_spec hhigh hmax, ?_, hskill⟩
  rw [← toNat_getD_of_readBound hlow hmin, ← toNat_getD_of_readBound hhigh hmax]
  exact ⟨hle _, hle _⟩

theorem isReadAs_of_readLevel (hpiece : IsPiece piece) (h : readLevel piece = .ok range) :
    ∃ index low high, IsReadAs piece range index low high := by
  rw [readLevel] at h
  split at h
  next index low high hshape =>
    obtain ⟨min, hmin, h⟩ := bind_eq_ok.1 h
    obtain ⟨max, hmax, h⟩ := bind_eq_ok.1 h
    obtain rfl := Except.ok.inj h
    have hclause := isClause_of_skillShape? hshape
    obtain ⟨hne, hindex⟩ := hclause.isDigits_index
    have hskill := isIndexOf_skillIndex hne hindex
    exact ⟨_, _, _, isReadAs_of_isClause hclause hmin hmax (.some hskill)⟩
  next =>
    split at h
    next low high hshape =>
      obtain ⟨min, hmin, h⟩ := bind_eq_ok.1 h
      obtain ⟨max, hmax, h⟩ := bind_eq_ok.1 h
      split at h
      · cases h
      · obtain rfl := Except.ok.inj h
        have hclause := isClause_of_levelShape? hpiece hshape
        exact ⟨_, _, _, isReadAs_of_isClause hclause hmin hmax .none⟩
    · cases h

/-- The ranges of a level field, one for each clause, say what is written there.  Only the index of
a skill may say something else, where one of its digits is not ASCII. -/
theorem readLevels_as_written {ranges : List LevelRange} (h : readLevels field = .ok ranges) :
    List.Forall₂ (fun clause range => ∃ index low high, IsReadAs clause range index low high)
      (pieces ',' field) ranges := by
  have hread := forall₂_of_mapM_eq_ok h
  have hpieces : ∀ piece ∈ pieces ',' field, IsPiece piece := fun piece hpiece =>
    (mem_pieces hpiece).1
  refine ((List.forall₂_and_left _ _).2 ⟨hpieces, hread⟩).imp ?_
  rintro piece range ⟨hpiece, hrange⟩
  exact isReadAs_of_readLevel hpiece hrange

/-! The clauses of a field: a level, a skill with white space about it, an index that is too large
to hold, and the index six in Arabic digits. -/

def mixedClauses : List Text := ["3", "9 ( 30 / 40 )", "99999999999(1/2)", "\u0666(5/10)"]

theorem mixedClauses_as_written :
    let ranges := [⟨none, 3, none⟩, ⟨some 9, 30, some 40⟩, ⟨some 4294967295, 1, some 2⟩,
      ⟨some 4294967295, 5, some 10⟩]
    readLevels (joined ", " mixedClauses) = .ok ranges ∧
      List.Forall₂ (fun clause range => ∃ index low high, IsReadAs clause range index low high)
        mixedClauses ranges := by
  intro ranges
  have hread : readLevels (joined ", " mixedClauses) = .ok ranges := by decide +kernel
  have hpieces : pieces ',' (joined ", " mixedClauses) = mixedClauses := by decide +kernel
  exact ⟨hread, hpieces ▸ readLevels_as_written hread⟩

/-- The index six constrains nobody when it is written in Arabic digits. -/
theorem arabicSix_unread : IsClause "\u0666(5/10)" (some "\u0666") "5" "10" ∧
    number "\u0666" = 6 ∧ readLevels "\u0666(5/10)" = .ok [⟨some 4294967295, 5, some 10⟩] ∧
    LevelRange.isSkillIndex 4294967295 = false :=
  ⟨isClause_of_skillShape? (by decide +kernel), by decide +kernel, by decide +kernel, by decide⟩

end Spid
end Wardrobe
