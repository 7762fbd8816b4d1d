import Wardrobe.Proofs.Spid.RoundTrip
/-
String fields written and read back.

A literal is written as it is, with the marks of its part around it.  So where it begins with a
mark itself another part is read, and a field that is no more than the word for a gap is read as
missing.  Everything else comes back.
-/

namespace Wardrobe
namespace Spid

variable {c : Catalog} {n : Nat} {token field x y target : Text} {p : Criterion.Part Text}
  {s : Criterion Text} {type : EntryKind} {t : Target}

/-! ## Parts -/

/-- Where the negation and the value of a part come from. -/
theorem eq_of_readPart (h : readPart token = .ok p) : p.negated = (takeMinus token).1 ∧
    p.value = Text.trim (takeFinalStar (takeLeadingStar (takeMinus token).2).2).2 := by
  rw [readPart] at h
  dsimp only at h
  split at h
  · cases h
  · obtain rfl := Except.ok.inj h
    exact ⟨rfl, rfl⟩

/-- The star at the front of a literal is taken for the mark of a wildcard. -/
theorem readPart_partText_ne (h : IsReadPart field p) (hstar : p.value.head? = some '*') :
    readPart (partText id p) ≠ .ok p := by
  intro hread
  obtain ⟨rest, hrest⟩ := List.head?_eq_some_iff.1 hstar
  have hwild : p.wildcard = true := by
    by_contra hwild
    exact (h.noStar (by simpa using hwild)).1 hstar
  have hminus : takeMinus (partText id p) = (p.negated, '*' :: (rest ++ ['*'])) := by
    rw [takeMinus_partText h.isPiece fun _ => by rw [hstar]; decide, hwild, hrest]
    rfl
  have hfinal : takeFinalStar (rest ++ ['*']) = (true, rest) := by simp [takeFinalStar]
  have hvalue : p.value = Text.trim rest := by
    rw [(eq_of_readPart hread).2, hminus, takeLeadingStar, hfinal]
  have hlength := Text.length_trim_le rest
  rw [← hvalue, hrest, List.length_cons] at hlength
  omega

/-- A part is read back unless its literal begins with a star, or with a minus that is taken for
a negation. -/
theorem readPart_partText_iff (h : IsReadPart field p) :
    readPart (partText id p) = .ok p ↔
      p.value.head? ≠ some '*' ∧ (p.negated = false → p.value.head? ≠ some '-') := by
  constructor
  · refine fun hread => ⟨fun hstar => readPart_partText_ne h hstar hread, fun hneg hminus => ?_⟩
    obtain ⟨rest, hrest⟩ := List.head?_eq_some_iff.1 hminus
    have htext : partText id p = '-' :: (rest ++ if p.wildcard then ['*'] else []) := by
      simp [partText, hneg, hrest]
    have hnegated := (eq_of_readPart hread).1
    rw [htext, hneg] at hnegated
    cases hnegated
  · rintro ⟨hstar, hminus⟩
    exact IsWritable.readPart_partText
      ⟨h.isPiece, h.comma, h.plus, hstar, fun hw => (h.noStar hw).2, hminus⟩

/-! ## Fields -/

/-- Nothing of what is written for the criterion looks like something else. -/
structure IsUnmistakable (s : Criterion Text) : Prop where
  star : ∀ p ∈ s.parts, p.value.head? ≠ some '*'
  minus : ∀ p ∈ s.parts, p.negated = false → p.value.head? ≠ some '-'
  notGap : ∀ p, s.expressions = [[p]] → p.negated = false → p.wildcard = false →
    isGap p.value = false

theorem readStrings_eq_ok :
    readStrings x = .ok s ↔ readAlternatives x = .ok s.expressions := by
  constructor
  · intro h
    obtain ⟨es, hes, rfl⟩ := map_eq_ok.1 h
    have hkept : es.filter (fun e => !e.isEmpty) = es :=
      List.filter_eq_self.2 fun e he => by
        simpa using (isReadPart_readAlternatives hes e he).1
    rw [hes, Criterion.ofExpressions, hkept]
  · intro h
    rw [readStrings, h, Except.map, ofExpressions_eq fun e he =>
      (isReadPart_readAlternatives h e he).1]

/-- A field that was read, and what is written for what it was read as. -/
structure IsRewritten (x : Text) (s : Criterion Text) (y : Text) : Prop where
  read : readStrings x = .ok s
  written : criterionText? id s = some y

namespace IsRewritten

variable (h : IsRewritten x s y)
include h

theorem expressions : s.expressions ≠ [] ∧
    y = Text.joined "," (s.expressions.map (alternativeText id)) := by
  have hwritten := h.written
  rw [criterionText?] at hwritten
  split at hwritten
  · cases hwritten
  next hne => exact ⟨by simpa [Criterion.isEmpty] using hne, (Option.some.inj hwritten).symm⟩

theorem isReadPart : ∀ e ∈ s.expressions, e ≠ [] ∧ ∀ p ∈ e, IsReadPart x p :=
  isReadPart_readAlternatives (readStrings_eq_ok.1 h.read)

theorem isUncut : ∀ e ∈ s.expressions, e ≠ [] ∧ ∀ p ∈ e, IsUncut p := fun e he =>
  ⟨(h.isReadPart e he).1, fun p hp => ((h.isReadPart e he).2 p hp).isUncut⟩

theorem isPiece : Text.IsPiece y := by
  rw [h.expressions.2]
  refine Text.isPiece_joined (by simpa using h.expressions.1) ?_
  rw [List.forall_mem_map]
  exact fun e he => isPiece_alternativeText (h.isUncut e he).1 (h.isUncut e he).2

theorem not_mem {ch : Char} (hch : ch ∉ x) (hmarks : ch ∉ ",-*+".toList) : ch ∉ y := by
  rw [h.expressions.2]
  exact not_mem_alternatives
    (fun e he p hp hmem => hch (((h.isReadPart e he).2 p hp).subset hmem)) hmarks

/-- What is written is read back unless some literal begins with a mark. -/
theorem readStrings_iff : readStrings y = .ok s ↔ ∀ p ∈ s.parts,
    p.value.head? ≠ some '*' ∧ (p.negated = false → p.value.head? ≠ some '-') := by
  rw [readStrings_eq_ok, h.expressions.2, readAlternatives_text h.isUncut]
  constructor
  · intro hread p hp
    obtain ⟨e, he, hp⟩ := List.mem_flatten.1 hp
    exact (readPart_partText_iff ((h.isReadPart e he).2 p hp)).1 (hread e he p hp)
  · intro hparts e he p hp
    exact (readPart_partText_iff ((h.isReadPart e he).2 p hp)).2
      (hparts p (List.mem_flatten.2 ⟨e, he, hp⟩))

theorem isGap_iff : isGap y = false ↔
    ∀ p, s.expressions = [[p]] → p.negated = false → p.wildcard = false →
      isGap p.value = false := by
  rw [h.expressions.2]
  exact isGap_alternatives h.expressions.1 fun e he => (h.isUncut e he).1

/-- As a field of an entry it has to be no gap besides. -/
theorem readOr_iff :
    readOr .empty readStrings ((some y).filter fun y => !isGap y) = .ok s ↔
      IsUnmistakable s := by
  cases hgap : isGap y with
  | true =>
    have hfilter : (some y).filter (fun y => !isGap y) = none := by simp [hgap]
    rw [hfilter]
    refine iff_of_false (fun hread => h.expressions.1 ?_) fun hs => ?_
    · rw [← Except.ok.inj hread]
      rfl
    · rw [h.isGap_iff.2 hs.notGap] at hgap
      cases hgap
  | false =>
    have hfilter : (some y).filter (fun y => !isGap y) = some y := by simp [hgap]
    rw [hfilter, readOr, mapError_eq_ok, h.readStrings_iff]
    exact ⟨fun hparts => ⟨fun p hp => (hparts p hp).1, fun p hp => (hparts p hp).2,
      h.isGap_iff.1 hgap⟩, fun hs p hp => ⟨hs.star p hp, hs.minus p hp⟩⟩

end IsRewritten

/-! ## Entries -/

/-- An entry that has a string field after its target. -/
def stringsEntry (type : EntryKind) (target y : Text) : Text :=
  type.name ++ " = " ++ (target ++ "|" ++ y)

theorem assemble_strings (htarget : IsFieldText target) (hread : readTarget c type target = .ok t)
    (hpiece : Text.IsPiece y) (hbar : '|' ∉ y) (raw : Text) :
    assemble c n raw type (target ++ "|" ++ y) =
      (readOr .empty readStrings ((some y).filter fun y => !isGap y)).map fun strings =>
        ⟨.spid, n, raw, t, ⟨strings, .empty, [], .empty⟩, none, none⟩ := by
  have hfields : splitFields (target ++ "|" ++ y) = [target, y] := by
    have hjoined : target ++ "|".toList ++ y = Text.joined ['|'] [target, y] := by
      simp [Text.joined, List.intercalate_cons_cons]
    have hsplit : (Text.joined ['|'] [target, y]).splitOn '|' = [target, y] :=
      Text.splitOn_joined (List.cons_ne_nil _ _) (by simp [htarget.bar, hbar])
    rw [splitFields, hjoined, hsplit]
    exact Text.map_trim_eq (by simp [htarget.isPiece, hpiece])
  have hfirst : field? [target, y] 0 = some target := by simp [field?, htarget.isGap]
  have hsecond : field? [target, y] 1 = (some y).filter fun y => !isGap y := rfl
  have hrest (i : Nat) : field? [target, y] (i + 2) = none := rfl
  unfold assemble
  dsimp only
  rw [hfields, hfirst, hsecond, hrest 0, hrest 1, hrest 2, hrest 3, hrest 4]
  dsimp only
  rw [hread]
  cases readOr .empty readStrings ((some y).filter fun y => !isGap y) <;> rfl

/-- What is written for a string field comes back from the field of an entry just where no literal
is mistaken for a mark, the field is not mistaken for a gap and the entry stays on its line. -/
theorem stringField_reads_back_iff (hbar : '|' ∉ x) (hcomment : ';' ∉ x)
    (hx : readStrings x = .ok s) (hne : s.expressions ≠ []) (htarget : IsFieldText target)
    (hline : '\n' ∉ target) (hread : readTarget c type target = .ok t) :
    ∃ y, criterionText? id s = some y ∧
      ((∃ r, readRuleLine c .spid n (stringsEntry type target y) = .rules [r] ∧
          r.filters.strings = s) ↔
        IsUnmistakable s ∧ '\n' ∉ y) := by
  refine ⟨_, if_neg (by simpa [Criterion.isEmpty] using hne), ?_⟩
  have h : IsRewritten x s (Text.joined "," (s.expressions.map (alternativeText id))) :=
    ⟨hx, if_neg (by simpa [Criterion.isEmpty] using hne)⟩
  generalize Text.joined "," (s.expressions.map (alternativeText id)) = y at h
  have hpiece : Text.IsPiece (target ++ "|" ++ y) := htarget.isPiece.append h.isPiece _
  have hsemicolon : ';' ∉ target ++ "|" ++ y := by
    have hy := h.not_mem hcomment (by decide)
    simp [htarget.semicolon, hy]
  have hbreak : '\n' ∈ target ++ "|" ++ y ↔ '\n' ∈ y := by simp [hline]
  rw [stringsEntry, readRuleLine_entry hpiece hsemicolon,
    assemble_strings htarget hread h.isPiece (h.not_mem hbar (by decide)), ← h.readOr_iff]
  by_cases hy : '\n' ∈ y
  · rw [if_pos (hbreak.2 hy)]
    refine iff_of_false ?_ fun hand => hand.2 hy
    rintro ⟨r, hr, -⟩
    cases hr
  rw [if_neg (mt hbreak.1 hy), and_iff_left hy]
  cases readOr .empty readStrings ((some y).filter fun y => !isGap y) with
  | error fault =>
    refine iff_of_false ?_ fun hs => by cases hs
    rintro ⟨r, hr, -⟩
    cases hr
  | ok strings =>
    constructor
    · rintro ⟨r, hr, rfl⟩
      obtain rfl := List.head_eq_of_cons_eq (LineOutcome.rules.inj hr)
      rfl
    · intro hs
      obtain rfl := Except.ok.inj hs
      exact ⟨_, rfl, rfl⟩

/-! A field with both marks, and a name that begins with one behind a star. -/

def hail : Criterion Text :=
  ⟨[[⟨"Hail: Guard", false, true⟩], [⟨"Lydia", true, false⟩, ⟨"Bandit", false, false⟩]]⟩

theorem hail_reads_back :
    readStrings "*Hail: Guard, - Lydia+Bandit" = .ok hail ∧
    criterionText? id hail = some "Hail: Guard*,-Lydia+Bandit" ∧
    ∃ r, readRuleLine .empty .spid 1
        (stringsEntry .keyword "Tag" "Hail: Guard*,-Lydia+Bandit") = .rules [r] ∧
      r.filters.strings = hail := by
  have hx : readStrings "*Hail: Guard, - Lydia+Bandit" = .ok hail := by decide +kernel
  have htarget : IsFieldText "Tag" :=
    ⟨Text.isPiece_of_letters (by decide) (Text.forall_mem_of_all (by decide)), by decide,
      by decide, by decide⟩
  have htext : criterionText? id hail = some "Hail: Guard*,-Lydia+Bandit" := by decide +kernel
  have hread : readTarget .empty .keyword "Tag" = .ok (.keyword "Tag") := rfl
  obtain ⟨y, hy, hiff⟩ := stringField_reads_back_iff (n := 1) (by decide) (by decide) hx
    (by decide) htarget (by decide) hread
  obtain rfl := Option.some.inj (htext.symm.trans hy)
  exact ⟨hx, htext, hiff.2 ⟨⟨by decide, by decide, fun p hp => by cases hp⟩, by decide⟩⟩

def dashGuard : Criterion Text := ⟨[[⟨"-Guard", false, true⟩]]⟩

/-- The minus behind the star is the first character of a name, and then a negation. -/
theorem dashGuard_not_read_back :
    isGap "*-Guard" = false ∧ '|' ∉ "*-Guard".toList ∧ ';' ∉ "*-Guard".toList ∧
    readStrings "*-Guard" = .ok dashGuard ∧ criterionText? id dashGuard = some "-Guard*" ∧
    (∃ r, readRuleLine .empty .spid 1 (stringsEntry .keyword "Tag" "-Guard*") = .rules [r] ∧
      r.filters.strings = ⟨[[⟨"Guard", true, true⟩]]⟩) ∧
    (⟨[[⟨"Guard", true, true⟩]]⟩ : Criterion Text) ≠ dashGuard := by
  refine ⟨by decide +kernel, by decide, by decide, by decide +kernel, by decide +kernel,
    ⟨⟨.spid, 1, "Keyword = Tag|-Guard*", .keyword "Tag",
      ⟨⟨[[⟨"Guard", true, true⟩]]⟩, .empty, [], .empty⟩, none, none⟩, ?_, rfl⟩, by decide⟩
  decide +kernel

end Spid
end Wardrobe
