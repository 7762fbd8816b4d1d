import Wardrobe.Proofs.Rule.Line
import Wardrobe.Proofs.Text.Number
import Wardrobe.Proofs.Text.Pieces
import Wardrobe.Spid.Printer
/-
The fields of SPID entries, read and written.

A part that was read has a trimmed value with no separator in it, and where it is no wildcard its
value does not look like one.  Written parts are read back as long as nothing in front of a value
is taken for a mark, which has to be asked for only where a star may have hidden it.
-/

namespace Wardrobe
namespace Spid

variable {t token rest : Text} {p q : Criterion.Part Text} {field : Text} {n : Nat}

/-! ## Reading parts -/

/-- A part as reading leaves it.  Behind a leading star anything may stand. -/
structure IsReadPart (field : Text) (p : Criterion.Part Text) : Prop where
  isPiece : Text.IsPiece p.value
  subset : p.value ⊆ field
  comma : ',' ∉ p.value
  plus : '+' ∉ p.value
  noStar : p.wildcard = false → p.value.head? ≠ some '*' ∧ p.value.getLast? ≠ some '*'
  noMinus : p.wildcard = false → p.negated = false → p.value.head? ≠ some '-'

theorem takeFinalStar_cases (t : Text) :
    (t.getLast? = some '*' ∧ takeFinalStar t = (true, t.dropLast)) ∨
      (t.getLast? ≠ some '*' ∧ takeFinalStar t = (false, t)) := by
  by_cases h : t.getLast? = some '*'
  · exact Or.inl ⟨h, if_pos h⟩
  · exact Or.inr ⟨h, if_neg h⟩

theorem takeLeadingStar_cases (t : Text) :
    (∃ rest, t = '*' :: rest ∧ takeLeadingStar t = (true, rest)) ∨
      (t.head? ≠ some '*' ∧ takeLeadingStar t = (false, t)) := by
  rw [takeLeadingStar.eq_def]
  split
  next rest => exact Or.inl ⟨rest, rfl, rfl⟩
  next hne =>
    refine Or.inr ⟨fun hhead => ?_, rfl⟩
    obtain ⟨rest, hrest⟩ := List.head?_eq_some_iff.1 hhead
    exact hne rest hrest

theorem takeMinus_cases (t : Text) :
    (∃ rest, t = '-' :: rest ∧ takeMinus t = (true, Text.trimStart rest)) ∨
      (t.head? ≠ some '-' ∧ takeMinus t = (false, t)) := by
  rw [takeMinus.eq_def]
  split
  next rest => exact Or.inl ⟨rest, rfl, rfl⟩
  next hne =>
    refine Or.inr ⟨fun hhead => ?_, rfl⟩
    obtain ⟨rest, hrest⟩ := List.head?_eq_some_iff.1 hhead
    exact hne rest hrest

/-- What is left of a trimmed token once a minus is taken off is trimmed as well. -/
theorem isPiece_takeMinus (h : Text.IsPiece token) (hne : (takeMinus token).2 ≠ []) :
    Text.IsPiece (takeMinus token).2 := by
  rcases takeMinus_cases token with ⟨rest, rfl, hminus⟩ | ⟨-, hminus⟩
  · rw [hminus] at hne ⊢
    exact h.trimStart_of_suffix (List.suffix_cons '-' rest) hne
  · rwa [hminus]

theorem takeMinus_subset (t : Text) : (takeMinus t).2 ⊆ t := by
  rcases takeMinus_cases t with ⟨rest, rfl, hminus⟩ | ⟨-, hminus⟩
  · rw [hminus]
    exact List.subset_cons_of_subset _ (Text.trimStart_suffix_self rest).subset
  · rw [hminus]
    exact List.Subset.refl t

theorem takeLeadingStar_subset (t : Text) : (takeLeadingStar t).2 ⊆ t := by
  rcases takeLeadingStar_cases t with ⟨rest, rfl, hstar⟩ | ⟨-, hstar⟩
  · rw [hstar]
    exact List.subset_cons_self '*' rest
  · rw [hstar]
    exact List.Subset.refl t

theorem takeFinalStar_subset (t : Text) : (takeFinalStar t).2 ⊆ t := by
  rcases takeFinalStar_cases t with ⟨-, hstar⟩ | ⟨-, hstar⟩
  · rw [hstar]
    exact List.dropLast_subset t
  · rw [hstar]
    exact List.Subset.refl t

theorem isReadPart_readPart (hcomma : ',' ∉ field) (hplus : '+' ∉ field)
    (h : readPart (Text.trim field) = .ok p) : IsReadPart field p := by
  unfold readPart at h
  dsimp only at h
  generalize htoken : Text.trim field = token at h
  generalize hminus : takeMinus token = minus at h
  generalize hleading : takeLeadingStar minus.2 = leading at h
  generalize hfinal : takeFinalStar leading.2 = final at h
  split at h
  · cases h
  next hvalue =>
    obtain rfl := Except.ok.inj h
    have hpiece : Text.IsPiece (Text.trim final.2) := Text.isPiece_trim (by simpa using hvalue)
    have hsubset : Text.trim final.2 ⊆ field := by
      have h₁ := Text.trim_subset final.2
      have h₂ := takeFinalStar_subset leading.2
      have h₃ := takeLeadingStar_subset minus.2
      have h₄ := takeMinus_subset token
      have h₅ := Text.trim_subset field
      rw [hfinal] at h₂
      rw [hleading] at h₃
      rw [hminus] at h₄
      rw [htoken] at h₅
      exact fun _ hc => h₅ (h₄ (h₃ (h₂ (h₁ hc))))
    -- Without stars the value is all that a minus leaves of the token.
    have hwhole : (leading.1 || final.1) = false → Text.trim final.2 = minus.2 ∧
        minus.2.head? ≠ some '*' ∧ minus.2.getLast? ≠ some '*' := by
      intro hwildcard
      obtain ⟨hl, hf⟩ := Bool.or_eq_false_iff.1 hwildcard
      rcases takeLeadingStar_cases minus.2 with ⟨rest, -, hstar⟩ | ⟨hhead, hstar⟩
      · rw [← hleading, hstar] at hl
        cases hl
      rcases takeFinalStar_cases leading.2 with ⟨-, hstar'⟩ | ⟨hlast, hstar'⟩
      · rw [← hfinal, hstar'] at hf
        cases hf
      rw [hstar] at hleading
      subst hleading
      rw [hstar'] at hfinal
      subst hfinal
      refine ⟨?_, hhead, hlast⟩
      have hne : minus.2 ≠ [] := by
        rintro hnil
        exact hpiece.ne_nil (by rw [hnil]; rfl)
      have htokenPiece : Text.IsPiece token := by
        rw [← htoken]
        refine Text.isPiece_trim fun hnil => hne ?_
        rw [← hminus, ← htoken, hnil]
        rfl
      have hpiece' := isPiece_takeMinus htokenPiece (by rwa [hminus])
      rw [hminus] at hpiece'
      exact hpiece'.trim_eq
    refine ⟨hpiece, hsubset, fun hc => hcomma (hsubset hc), fun hc => hplus (hsubset hc),
      fun hw => ?_, fun hw hn => ?_⟩
    · obtain ⟨hvalue, hhead, hlast⟩ := hwhole hw
      dsimp only
      rw [hvalue]
      exact ⟨hhead, hlast⟩
    · obtain ⟨hvalue, -, -⟩ := hwhole hw
      dsimp only
      rw [hvalue]
      rcases takeMinus_cases token with ⟨rest, -, hm⟩ | ⟨hhead, hm⟩
      · rw [← hminus, hm] at hn
        cases hn
      · rw [← hminus, hm]
        exact hhead

theorem isReadPart_readAlternatives {es : List (List (Criterion.Part Text))}
    (h : readAlternatives field = .ok es) :
    ∀ e ∈ es, e ≠ [] ∧ ∀ p ∈ e, IsReadPart field p := by
  intro e he
  obtain ⟨piece, hpiece, hread⟩ := mem_of_mapM_eq_ok h e he
  obtain ⟨-, hcomma, hsub⟩ := Text.mem_pieces hpiece
  have hparts := forall₂_of_mapM_eq_ok hread
  refine ⟨fun hnil => ?_, fun p hp => ?_⟩
  · subst hnil
    exact List.splitOn_ne_nil '+' piece (List.forall₂_nil_right_iff.1 hparts)
  · obtain ⟨token, htoken, hpart⟩ := exists_of_mem_right hparts hp
    obtain ⟨hplus, hsub'⟩ := Text.mem_splitOn htoken
    have hreadPart := isReadPart_readPart (fun hc => hcomma (hsub' hc)) hplus hpart
    exact { hreadPart with subset := fun _ hc => hsub (hsub' (hreadPart.subset hc)) }

/-! ## Parts written and read back -/

/-- A part whose text can be read back. -/
structure IsWritable (q : Criterion.Part Text) : Prop where
  isPiece : Text.IsPiece q.value
  comma : ',' ∉ q.value
  plus : '+' ∉ q.value
  star : q.value.head? ≠ some '*'
  finalStar : q.wildcard = false → q.value.getLast? ≠ some '*'
  minus : q.negated = false → q.value.head? ≠ some '-'

theorem takeMinus_of_head? (h : t.head? ≠ some '-') : takeMinus t = (false, t) := by
  rcases takeMinus_cases t with ⟨rest, rfl, -⟩ | ⟨-, hminus⟩
  · exact absurd rfl h
  · exact hminus

theorem takeLeadingStar_of_head? (h : t.head? ≠ some '*') : takeLeadingStar t = (false, t) := by
  rcases takeLeadingStar_cases t with ⟨rest, rfl, -⟩ | ⟨-, hstar⟩
  · exact absurd rfl h
  · exact hstar

theorem takeMinus_partText (hpiece : Text.IsPiece q.value)
    (hminus : q.negated = false → q.value.head? ≠ some '-') :
    takeMinus (partText id q) =
      (q.negated, q.value ++ if q.wildcard then ['*'] else []) := by
  obtain ⟨c, rest, hc, hblank⟩ := hpiece.begins
  cases hneg : q.negated with
  | true =>
    have htext : partText id q = '-' :: (q.value ++ if q.wildcard then ['*'] else []) := by
      simp [partText, hneg]
    have htrim : Text.trimStart (q.value ++ if q.wildcard then ['*'] else []) =
        q.value ++ if q.wildcard then ['*'] else [] := by
      rw [hc, List.cons_append]
      exact Text.trimStart_cons hblank
    rw [htext, takeMinus, htrim]
  | false =>
    have htext : partText id q = q.value ++ if q.wildcard then ['*'] else [] := by
      simp [partText, hneg]
    rw [htext]
    refine takeMinus_of_head? ?_
    rw [List.head?_append_of_ne_nil _ hpiece.ne_nil]
    exact hminus hneg

namespace IsWritable

variable (h : IsWritable q)
include h

theorem takeFinalStar_starred :
    takeFinalStar (q.value ++ if q.wildcard then ['*'] else []) = (q.wildcard, q.value) := by
  cases hwild : q.wildcard with
  | true => simp [takeFinalStar]
  | false =>
    have hlast := h.finalStar hwild
    simp [takeFinalStar, hlast]

theorem readPart_partText : readPart (partText id q) = .ok q := by
  have hleading := takeLeadingStar_of_head? (t := q.value ++ if q.wildcard then ['*'] else [])
    (by rw [List.head?_append_of_ne_nil _ h.isPiece.ne_nil]; exact h.star)
  have hne : q.value.isEmpty = false := by simpa using h.isPiece.ne_nil
  rw [readPart]
  simp only [takeMinus_partText h.isPiece h.minus, hleading, h.takeFinalStar_starred,
    h.isPiece.trim_eq, hne, Bool.false_or, Bool.false_eq_true, if_false]

end IsWritable

theorem isPiece_partText (h : Text.IsPiece q.value) : Text.IsPiece (partText id q) := by
  refine h.extend ?_ ?_
  · split <;> simp [Text.isBlank, Text.inRanges, Text.blankRanges]
  · split <;> simp [Text.isBlank, Text.inRanges, Text.blankRanges]

theorem not_mem_partText {c : Char} (hc : c ∉ q.value) (hminus : c ≠ '-') (hstar : c ≠ '*') :
    c ∉ partText id q := by
  simp only [partText, List.mem_append, not_or]
  refine ⟨⟨?_, hc⟩, ?_⟩
  · split <;> simp [hminus]
  · split <;> simp [hstar]

/-- A part whose text stays in one piece between the separators. -/
structure IsUncut (q : Criterion.Part Text) : Prop where
  isPiece : Text.IsPiece q.value
  comma : ',' ∉ q.value
  plus : '+' ∉ q.value

theorem IsReadPart.isUncut (h : IsReadPart field p) : IsUncut p := ⟨h.isPiece, h.comma, h.plus⟩

theorem IsWritable.isUncut (h : IsWritable q) : IsUncut q := ⟨h.isPiece, h.comma, h.plus⟩

section Alternatives

variable {e : List (Criterion.Part Text)} {es : List (List (Criterion.Part Text))}

theorem splitOn_alternativeText (hne : e ≠ []) (h : ∀ q ∈ e, IsUncut q) :
    (alternativeText id e).splitOn '+' = e.map (partText id) := by
  refine Text.splitOn_joined (by simpa using hne) ?_
  rw [List.forall_mem_map]
  exact fun q hq => not_mem_partText (h q hq).plus (by decide) (by decide)

theorem readAlternative_text (hne : e ≠ []) (h : ∀ q ∈ e, IsUncut q) :
    readAlternative (alternativeText id e) = .ok e ↔
      ∀ q ∈ e, readPart (partText id q) = .ok q := by
  rw [readAlternative, splitOn_alternativeText hne h, mapM_map_eq_ok]
  refine forall₂_congr fun q hq => ?_
  rw [(isPiece_partText (h q hq).isPiece).trim_eq]

theorem isPiece_alternativeText (hne : e ≠ []) (h : ∀ q ∈ e, IsUncut q) :
    Text.IsPiece (alternativeText id e) := by
  refine Text.isPiece_joined (by simpa using hne) ?_
  rw [List.forall_mem_map]
  exact fun q hq => isPiece_partText (h q hq).isPiece

/-- A character in no value is in no written part either, unless it is one of the marks. -/
theorem not_mem_alternativeText {c : Char} (hc : ∀ q ∈ e, c ∉ q.value)
    (hmarks : c ∉ "-*+".toList) : c ∉ alternativeText id e := by
  have hmarks' : c ≠ '-' ∧ c ≠ '*' ∧ c ≠ '+' := by simpa using hmarks
  intro hmem
  rcases Text.mem_joined hmem with hsep | ⟨part, hpart, hin⟩
  · exact hmarks'.2.2 (List.mem_singleton.1 hsep)
  · obtain ⟨q, hq, rfl⟩ := List.mem_map.1 hpart
    exact not_mem_partText (hc q hq) hmarks'.1 hmarks'.2.1 hin

/-- A field is read back as what it was written for when each of its parts is. -/
theorem readAlternatives_text (h : ∀ e ∈ es, e ≠ [] ∧ ∀ q ∈ e, IsUncut q) :
    readAlternatives (Text.joined "," (es.map (alternativeText id))) = .ok es ↔
      ∀ e ∈ es, ∀ q ∈ e, readPart (partText id q) = .ok q := by
  refine (mapM_pieces_joined fun e he => ?_).trans (forall₂_congr fun e he => ?_)
  · obtain ⟨hne, hparts⟩ := h e he
    exact ⟨isPiece_alternativeText hne hparts,
      not_mem_alternativeText (fun q hq => (hparts q hq).comma) (by decide)⟩
  · exact readAlternative_text (h e he).1 (h e he).2

theorem readAlternatives_of_isWritable (h : ∀ e ∈ es, e ≠ [] ∧ ∀ q ∈ e, IsWritable q) :
    readAlternatives (Text.joined "," (es.map (alternativeText id))) = .ok es :=
  (readAlternatives_text fun e he => ⟨(h e he).1, fun q hq => ((h e he).2 q hq).isUncut⟩).2
    fun e he q hq => ((h e he).2 q hq).readPart_partText

end Alternatives

/-! ## Levels -/

section Levels

variable {range : LevelRange}

theorem isDecimalDigit_of_mem_decimal {c : Char} (h : c ∈ Text.decimal n) :
    Text.isDecimalDigit c = true := by
  simp [Text.isDecimalDigit, Text.isDigit_of_mem_decimal h]

/-- A number is taken up to the next character that is no digit. -/
theorem takeNumber_decimal (h : ∀ c, rest.head? = some c → Text.isDecimalDigit c = false) :
    takeNumber (Text.decimal n ++ rest) = (Text.decimal n, rest) :=
  Text.span_append (fun _ hc => isDecimalDigit_of_mem_decimal hc) h

theorem trimStart_decimal (n : Nat) (rest : Text) :
    Text.trimStart (Text.decimal n ++ rest) = Text.decimal n ++ rest := by
  obtain ⟨c, digits, hdigits⟩ := List.exists_cons_of_ne_nil (Text.decimal_ne_nil n)
  have hc : c ∈ Text.decimal n := hdigits ▸ List.mem_cons_self
  rw [hdigits, List.cons_append]
  exact Text.trimStart_cons (Text.isBlank_of_isAlphanum (Text.isAlphanum_of_mem_decimal hc))

theorem takeRange_rangeText (range : LevelRange) (h : rest = [] ∨ rest = [')']) :
    takeRange (range.rangeText ++ rest) =
      ((Text.decimal range.min.toNat,
        (range.max.map fun max => Text.decimal max.toNat).getD []), rest) := by
  have hrest : ∀ c, rest.head? = some c → Text.isDecimalDigit c = false := by
    rcases h with rfl | rfl
    · simp
    · simpa using (by decide : Text.isDecimalDigit ')' = false)
  rw [takeRange, LevelRange.rangeText]
  cases range.max with
  | none =>
    simp only [takeNumber_decimal hrest]
    rcases h with rfl | rfl <;> rfl
  | some max =>
    have hslash : ∀ c, ("/".toList ++ Text.decimal max.toNat ++ rest).head? = some c →
        Text.isDecimalDigit c = false := by
      simpa using (by decide : Text.isDecimalDigit '/' = false)
    have hfront := takeNumber_decimal (n := range.min.toNat) hslash
    have htrim : Text.trimStart ("/".toList ++ Text.decimal max.toNat ++ rest) =
        '/' :: (Text.decimal max.toNat ++ rest) := Text.trimStart_cons (by decide)
    simp only [List.append_assoc] at hfront htrim ⊢
    simp only [hfront, htrim, trimStart_decimal, takeNumber_decimal hrest]
    rfl

theorem readBound_decimal (clause : Text) (n : UInt16) :
    readBound clause (Text.decimal n.toNat) = .ok (some n) := by
  simp [readBound, Text.decimal_ne_nil, Text.readUInt16?_decimal]

theorem readBound_max (clause : Text) (max : Option UInt16) :
    readBound clause ((max.map fun max => Text.decimal max.toNat).getD []) = .ok max := by
  cases max with
  | none => rfl
  | some max => exact readBound_decimal clause max

theorem skillIndex_decimal (index : UInt32) : skillIndex (Text.decimal index.toNat) = index := by
  simp [skillIndex, Text.readUInt32?_decimal]

/-- A range begins with its lower bound, behind which there is a slash or nothing. -/
theorem rangeText_eq (range : LevelRange) : ∃ tail, range.rangeText =
    Text.decimal range.min.toNat ++ tail ∧ (tail = [] ∨ ∃ rest, tail = '/' :: rest) := by
  rw [LevelRange.rangeText]
  cases range.max with
  | none => exact ⟨[], by simp, Or.inl rfl⟩
  | some max => exact ⟨_, List.append_assoc _ _ _, Or.inr ⟨_, rfl⟩⟩

theorem trimStart_rangeText (range : LevelRange) (rest : Text) :
    Text.trimStart (range.rangeText ++ rest) = range.rangeText ++ rest := by
  obtain ⟨tail, htail, -⟩ := rangeText_eq range
  rw [htail, List.append_assoc, trimStart_decimal]

theorem skillShape?_skill (range : LevelRange) (index : UInt32) :
    skillShape? (Text.decimal index.toNat ++ '(' :: (range.rangeText ++ [')'])) =
      some (Text.decimal index.toNat, Text.decimal range.min.toNat,
        (range.max.map fun max => Text.decimal max.toNat).getD []) := by
  have hopen : ∀ c, ('(' :: (range.rangeText ++ [')'])).head? = some c →
      Text.isDecimalDigit c = false := by
    simpa using (by decide : Text.isDecimalDigit '(' = false)
  have htrim : Text.trimStart ('(' :: (range.rangeText ++ [')'])) =
      '(' :: (range.rangeText ++ [')']) := Text.trimStart_cons (by decide)
  have hclose : Text.trimStart [')'] = [')'] := by decide
  have hne : (Text.decimal index.toNat).isEmpty = false := by simp [Text.decimal_ne_nil]
  rw [skillShape?]
  simp only [takeNumber_decimal hopen, hne, Bool.false_eq_true, if_false, htrim,
    trimStart_rangeText, takeRange_rangeText range (Or.inr rfl), hclose, if_true]

theorem skillShape?_rangeText (range : LevelRange) : skillShape? range.rangeText = none := by
  obtain ⟨tail, htext, htail⟩ := rangeText_eq range
  have hstop : ∀ c, tail.head? = some c → Text.isDecimalDigit c = false := by
    rcases htail with rfl | ⟨rest, rfl⟩
    · simp
    · simpa using (by decide : Text.isDecimalDigit '/' = false)
  have hne : (Text.decimal range.min.toNat).isEmpty = false := by simp [Text.decimal_ne_nil]
  rw [htext, skillShape?]
  simp only [takeNumber_decimal hstop, hne, Bool.false_eq_true, if_false]
  rcases htail with rfl | ⟨rest, rfl⟩
  · rfl
  · have htrim : Text.trimStart ('/' :: rest) = '/' :: rest := Text.trimStart_cons (by decide)
    rw [htrim]
    rfl

theorem levelShape?_rangeText (range : LevelRange) :
    levelShape? range.rangeText = some (Text.decimal range.min.toNat,
      (range.max.map fun max => Text.decimal max.toNat).getD []) := by
  have hrange := takeRange_rangeText range (Or.inl rfl)
  rw [List.append_nil] at hrange
  rw [levelShape?, hrange]
  rfl

theorem readLevel_text (range : LevelRange) : readLevel range.text = .ok range := by
  obtain ⟨skill, min, max⟩ := range
  cases skill with
  | none =>
    have hshape := skillShape?_rangeText ⟨none, min, max⟩
    have hlevel := levelShape?_rangeText ⟨none, min, max⟩
    simp only [readLevel, LevelRange.text, hshape, hlevel, readBound_decimal, readBound_max]
    rfl
  | some index =>
    have htext : LevelRange.text ⟨some index, min, max⟩ = Text.decimal index.toNat ++
        '(' :: (LevelRange.rangeText ⟨some index, min, max⟩ ++ [')']) := by
      simp [LevelRange.text]
    have hshape := skillShape?_skill ⟨some index, min, max⟩ index
    simp only [readLevel, htext, hshape, readBound_decimal, readBound_max, skillIndex_decimal]
    rfl

/-- The characters of a written range. -/
theorem mem_levelText {c : Char} (h : c ∈ range.text) : c.isDigit = true ∨ c ∈ "/()".toList := by
  have hdecimal : ∀ n, c ∈ Text.decimal n → c.isDigit = true ∨ c ∈ "/()".toList :=
    fun n hc => Or.inl (Text.isDigit_of_mem_decimal hc)
  have hrange : c ∈ range.rangeText → c.isDigit = true ∨ c ∈ "/()".toList := by
    rw [LevelRange.rangeText]
    split
    · simp only [List.mem_append]
      rintro ((hc | hc) | hc)
      · exact hdecimal _ hc
      · obtain rfl := List.mem_singleton.1 hc
        exact Or.inr (by decide)
      · exact hdecimal _ hc
    · exact hdecimal _
  rw [LevelRange.text] at h
  split at h
  · simp only [List.mem_append] at h
    rcases h with ((hc | hc) | hc) | hc
    · exact hdecimal _ hc
    · obtain rfl := List.mem_singleton.1 hc
      exact Or.inr (by decide)
    · exact hrange hc
    · obtain rfl := List.mem_singleton.1 hc
      exact Or.inr (by decide)
  · exact hrange h

theorem isPiece_levelText (range : LevelRange) : Text.IsPiece range.text := by
  refine Text.isPiece_of_forall ?_ fun c hc => ?_
  · obtain ⟨tail, htail, -⟩ := rangeText_eq range
    rw [LevelRange.text]
    split
    · simp
    · simp [htail, Text.decimal_ne_nil]
  · rcases mem_levelText hc with hdigit | hmark
    · exact Text.isBlank_of_isAlphanum (by simp [Char.isAlphanum, hdigit])
    · have hall : ∀ c ∈ "/()".toList, Text.isBlank c = false :=
        Text.forall_mem_of_all (by decide)
      exact hall c hmark

theorem not_mem_levelText {c : Char} (hdigit : c.isDigit = false) (hmark : c ∉ "/()".toList) :
    c ∉ range.text := by
  intro hc
  rcases mem_levelText hc with h | h
  · rw [hdigit] at h
    cases h
  · exact hmark h

theorem readLevels_text (levels : List LevelRange) :
    readLevels (Text.joined "," (levels.map (·.text))) = .ok levels :=
  (mapM_pieces_joined fun range _ =>
    ⟨isPiece_levelText range, not_mem_levelText (by decide) (by decide)⟩).2
    fun range _ => readLevel_text range

end Levels

/-! ## Traits -/

/-- Each flag speaks of a trait of its own, so none contradicts another. -/
theorem foldlM_flags (t : Traits.Wanted) : t.flags.foldlM addFlag .empty = .ok t := by
  obtain ⟨female, unique, summonable, child, leveled⟩ := t
  have hunique : (Traits.Wanted.flag 'U' unique).foldlM addFlag ⟨female, none, none, none, none⟩ =
      .ok ⟨female, unique, none, none, none⟩ := by
    rcases unique with _ | _ | _ <;> rfl
  have hsummonable : (Traits.Wanted.flag 'S' summonable).foldlM addFlag
      ⟨female, unique, none, none, none⟩ = .ok ⟨female, unique, summonable, none, none⟩ := by
    rcases summonable with _ | _ | _ <;> rfl
  have hchild : (Traits.Wanted.flag 'C' child).foldlM addFlag
      ⟨female, unique, summonable, none, none⟩ =
      .ok ⟨female, unique, summonable, child, none⟩ := by
    rcases child with _ | _ | _ <;> rfl
  have hleveled : (Traits.Wanted.flag 'L' leveled).foldlM addFlag
      ⟨female, unique, summonable, child, none⟩ =
      .ok ⟨female, unique, summonable, child, leveled⟩ := by
    rcases leveled with _ | _ | _ <;> rfl
  rw [Traits.Wanted.flags, List.foldlM_append, List.foldlM_append, List.foldlM_append,
    List.foldlM_append]
  refine bind_eq_ok.2 ⟨_, bind_eq_ok.2 ⟨_, bind_eq_ok.2 ⟨_, bind_eq_ok.2 ⟨_, ?_, hunique⟩,
    hsummonable⟩, hchild⟩, hleveled⟩
  rcases female with _ | _ | _ <;> rfl

theorem mem_flag {letter : Char} {v : Option Bool} {x : Text}
    (h : x ∈ Traits.Wanted.flag letter v) : x = [letter] ∨ x = ['-', letter] := by
  rcases v with _ | _ | _ <;> simp_all [Traits.Wanted.flag]

theorem mem_flags {t : Traits.Wanted} {x : Text} (h : x ∈ t.flags) :
    x ≠ [] ∧ ∀ c ∈ x, c ∈ "-FMUSCL".toList := by
  have hflag : ∀ letter ∈ "USCL".toList, ∀ v, x ∈ Traits.Wanted.flag letter v →
      x ≠ [] ∧ ∀ c ∈ x, c ∈ "-FMUSCL".toList := by
    intro letter hletter v hx
    have hmem : letter ∈ "-FMUSCL".toList := by
      have hall : ∀ c ∈ "USCL".toList, c ∈ "-FMUSCL".toList := Text.forall_mem_of_all (by decide)
      exact hall letter hletter
    rcases mem_flag hx with rfl | rfl
    · simpa using hmem
    · simpa using hmem
  simp only [Traits.Wanted.flags, List.mem_append] at h
  rcases h with (((h | h) | h) | h) | h
  · split at h
    · obtain rfl := List.mem_singleton.1 h
      exact ⟨List.cons_ne_nil _ _, Text.forall_mem_of_all (by decide)⟩
    · obtain rfl := List.mem_singleton.1 h
      exact ⟨List.cons_ne_nil _ _, Text.forall_mem_of_all (by decide)⟩
    · cases h
  · exact hflag 'U' (by decide) _ h
  · exact hflag 'S' (by decide) _ h
  · exact hflag 'C' (by decide) _ h
  · exact hflag 'L' (by decide) _ h

theorem isPiece_flag {t : Traits.Wanted} {x : Text} (h : x ∈ t.flags) : Text.IsPiece x := by
  obtain ⟨hne, hchars⟩ := mem_flags h
  have hall : ∀ c ∈ "-FMUSCL".toList, Text.isBlank c = false := Text.forall_mem_of_all (by decide)
  exact Text.isPiece_of_forall hne fun c hc => hall c (hchars c hc)

theorem readTraits_text (t : Traits.Wanted) : readTraits t.text = .ok t := by
  have hpieces : Text.pieces '/' (Text.joined ['/'] t.flags) = t.flags := by
    refine Text.pieces_joined fun x hx => ⟨isPiece_flag hx, fun hslash => ?_⟩
    have hmem := (mem_flags hx).2 '/' hslash
    simp at hmem
  have hsep : "/".toList = ['/'] := rfl
  rw [readTraits, Traits.Wanted.text, hsep, hpieces]
  exact foldlM_flags t

/-! ## Chance -/

theorem roundHalfUp_le {num den : Nat} (hden : 0 < den) (h : num ≤ 100 * den) :
    Chance.roundHalfUp num den ≤ 100 := by
  rw [Chance.roundHalfUp, Nat.div_le_iff_le_mul_add_pred (by omega)]
  omega

/-- A chance that was read is a percentage. -/
theorem bounds_of_readChance {chance : UInt8} (h : readChance field = .ok chance) :
    1 ≤ chance.toNat ∧ chance.toNat ≤ 100 := by
  have hread : Chance.read field = .ok chance := mapError_eq_ok.1 h
  rw [Chance.read] at hread
  split at hread
  · cases hread
  next digits exponent _ =>
    split at hread
    · cases hread
    next num den _ =>
      split at hread
      next hrange =>
        obtain rfl := Except.ok.inj hread
        have hround := roundHalfUp_le (by omega) hrange.2
        rw [UInt8.toNat_ofNat_of_lt' (by simp [UInt8.size]; omega)]
        omega
      next => cases hread
  · cases hread

theorem readChance_decimal {chance : UInt8} (hmin : 1 ≤ chance.toNat) (hmax : chance.toNat ≤ 100) :
    readChance (Text.decimal chance.toNat) = .ok chance := by
  have hall : ∀ n < 101, 1 ≤ n → Chance.read (Text.decimal n) = .ok (UInt8.ofNat n) := by
    decide +kernel
  have hread := hall chance.toNat (by omega) hmin
  rw [UInt8.ofNat_toNat] at hread
  rw [readChance, hread]
  rfl

end Spid
end Wardrobe
