import Mathlib.Data.List.TakeWhile
import Wardrobe.Number.Decimal
import Wardrobe.Proofs.Text.Number
import Wardrobe.Proofs.Text.Pieces
/-
Readers that do not see the case of ASCII letters.

Every cut that the readers make is at a character that is no letter, or between classes of
characters that tell no letter from its small form.  So a cut through the small form of a text
gives the small forms of the pieces.
-/

namespace Wardrobe
namespace Text

variable {c d : Char} {s t : Text} {p : Char → Bool}

theorem isAlpha_toLower (c : Char) : c.toLower.isAlpha = c.isAlpha :=
  apply_toLower (by decide) c

theorem toLower_toLower (c : Char) : c.toLower.toLower = c.toLower :=
  apply_toLower (by decide) c

/-- No letter becomes a character that is none. -/
theorem toLower_eq_iff (hd : d.isAlpha = false) : c.toLower = d ↔ c = d := by
  constructor
  · rintro rfl
    rw [isAlpha_toLower] at hd
    exact (toLower_of_not_isAlpha hd).symm
  · rintro rfl
    exact toLower_of_not_isAlpha hd

theorem asciiLower_asciiLower (t : Text) : asciiLower (asciiLower t) = asciiLower t := by
  rw [asciiLower, asciiLower, List.map_map]
  exact List.map_congr_left fun c _ => toLower_toLower c

theorem asciiLower_of_forall (h : ∀ c ∈ t, c.isAlpha = false) : asciiLower t = t :=
  (List.map_congr_left fun c hc => toLower_of_not_isAlpha (h c hc)).trans (List.map_id t)

/-- A text without letters is the small form of itself alone. -/
theorem asciiLower_eq_iff (ht : ∀ c ∈ t, c.isAlpha = false) : asciiLower s = t ↔ s = t := by
  constructor
  · rintro rfl
    refine (asciiLower_of_forall fun c hc => ?_).symm
    rw [← isAlpha_toLower]
    exact ht c.toLower (List.mem_map_of_mem hc)
  · rintro rfl
    exact asciiLower_of_forall ht

theorem isEmpty_asciiLower (t : Text) : (asciiLower t).isEmpty = t.isEmpty := List.isEmpty_map

theorem length_asciiLower (t : Text) : (asciiLower t).length = t.length := List.length_map _

/-! ## Cuts -/

section Classes

variable (hp : ∀ c, p c.toLower = p c)
include hp

theorem takeWhile_asciiLower (t : Text) :
    (asciiLower t).takeWhile p = asciiLower (t.takeWhile p) := by
  rw [asciiLower, List.takeWhile_map, asciiLower]
  congr 2
  exact funext hp

/-- What is taken has no letters in it. -/
theorem takeWhile_asciiLower_of_not_isAlpha (hnot : ∀ c, p c = true → c.isAlpha = false)
    (t : Text) : (asciiLower t).takeWhile p = t.takeWhile p := by
  rw [takeWhile_asciiLower hp]
  exact asciiLower_of_forall fun c hc => hnot c (List.mem_takeWhile_imp hc)

theorem dropWhile_asciiLower (t : Text) :
    (asciiLower t).dropWhile p = asciiLower (t.dropWhile p) := by
  rw [asciiLower, List.dropWhile_map, asciiLower]
  congr 2
  exact funext hp

end Classes

theorem isBlank_toLower (c : Char) : isBlank c.toLower = isBlank c :=
  apply_toLower (by decide) c

theorem trimStart_asciiLower (t : Text) : trimStart (asciiLower t) = asciiLower (trimStart t) :=
  dropWhile_asciiLower isBlank_toLower t

theorem trimEnd_asciiLower (t : Text) : trimEnd (asciiLower t) = asciiLower (trimEnd t) := by
  have h := dropWhile_asciiLower isBlank_toLower t.reverse
  rw [asciiLower, List.map_reverse] at h
  rw [trimEnd, asciiLower, h, trimEnd, asciiLower, asciiLower, List.map_reverse]

theorem trim_asciiLower (t : Text) : trim (asciiLower t) = asciiLower (trim t) := by
  rw [trim, trimStart_asciiLower, trimEnd_asciiLower, trim]

theorem head?_asciiLower (hc : c.isAlpha = false) :
    (asciiLower t).head? = some c ↔ t.head? = some c := by
  cases t with
  | nil => rfl
  | cons d t => simp [asciiLower, toLower_eq_iff hc]

/-- A text and its small form both begin with a mark, or neither does. -/
theorem head_cases_asciiLower (hc : c.isAlpha = false) (t : Text) :
    (∃ rest, t = c :: rest ∧ asciiLower (c :: rest) = c :: asciiLower rest) ∨
      (t.head? ≠ some c ∧ (asciiLower t).head? ≠ some c) := by
  by_cases h : t.head? = some c
  · obtain ⟨rest, hrest⟩ := List.head?_eq_some_iff.1 h
    have hcons : asciiLower (c :: rest) = c.toLower :: asciiLower rest := rfl
    rw [toLower_of_not_isAlpha hc] at hcons
    exact .inl ⟨rest, hrest, hcons⟩
  · exact .inr ⟨h, mt (head?_asciiLower hc).1 h⟩

theorem getLast?_asciiLower (hc : c.isAlpha = false) :
    (asciiLower t).getLast? = some c ↔ t.getLast? = some c := by
  rw [asciiLower, List.getLast?_map, Option.map_eq_some_iff]
  constructor
  · rintro ⟨d, hd, hlower⟩
    rw [hd, (toLower_eq_iff hc).1 hlower]
  · exact fun h => ⟨c, h, toLower_of_not_isAlpha hc⟩

section Separators

variable (hc : c.isAlpha = false)
include hc

theorem contains_asciiLower (t : Text) : (asciiLower t).contains c = t.contains c := by
  rw [Bool.eq_iff_iff, List.contains_iff_mem, List.contains_iff_mem,
    mem_asciiLower_of_not_isAlpha hc]

theorem splitOn_asciiLower (t : Text) :
    (asciiLower t).splitOn c = (t.splitOn c).map asciiLower := by
  induction t with
  | nil => rfl
  | cons d t ih =>
    have hcons : asciiLower (d :: t) = d.toLower :: asciiLower t := rfl
    have hbeq : (d.toLower == c) = (d == c) := by
      rw [Bool.eq_iff_iff, beq_iff_eq, beq_iff_eq, toLower_eq_iff hc]
    rw [hcons, List.splitOn_cons_eq_if_modifyHead, List.splitOn_cons_eq_if_modifyHead, hbeq, ih]
    cases d == c with
    | true => rfl
    | false =>
      obtain ⟨q, rest, hsplit⟩ := List.exists_cons_of_ne_nil (List.splitOn_ne_nil c t)
      rw [hsplit]
      rfl

theorem pieces_asciiLower (t : Text) : pieces c (asciiLower t) = (pieces c t).map asciiLower := by
  have htrim : (t.splitOn c).map (trim ∘ asciiLower) = ((t.splitOn c).map trim).map asciiLower := by
    rw [List.map_map]
    exact List.map_congr_left fun q _ => trim_asciiLower q
  rw [pieces, splitOn_asciiLower hc, List.map_map, htrim, List.filter_map, pieces]
  congr 2
  exact funext fun q => congrArg not (isEmpty_asciiLower q)

theorem cutAt_asciiLower (t : Text) :
    cutAt c (asciiLower t) = (cutAt c t).map (Prod.map asciiLower asciiLower) := by
  induction t with
  | nil => rfl
  | cons d t ih =>
    have hcons : asciiLower (d :: t) = d.toLower :: asciiLower t := rfl
    rw [hcons, cutAt, cutAt, ih]
    by_cases hd : d = c
    · rw [if_pos ((toLower_eq_iff hc).2 hd), if_pos hd]
      rfl
    · rw [if_neg (mt (toLower_eq_iff hc).1 hd), if_neg hd]
      cases cutAt c t <;> rfl

end Separators

/-! ## Comparisons -/

theorem sameAscii_asciiLower (s t : Text) : sameAscii (asciiLower s) t = sameAscii s t := by
  rw [sameAscii, asciiLower_asciiLower, sameAscii]

theorem sameAscii_asciiLower_right (s t : Text) : sameAscii s (asciiLower t) = sameAscii s t := by
  rw [sameAscii, asciiLower_asciiLower, sameAscii]

theorem endsWithAscii_asciiLower (ending t : Text) :
    endsWithAscii ending (asciiLower t) = endsWithAscii ending t := by
  rw [endsWithAscii, asciiLower_asciiLower, endsWithAscii]

theorem asciiUpper_asciiLower (t : Text) : asciiUpper (asciiLower t) = asciiUpper t := by
  rw [asciiUpper, asciiLower, List.map_map]
  exact List.map_congr_left fun c _ => apply_toLower (by decide) c

/-! ## Whole numbers -/

theorem readUInt32?_asciiLower (t : Text) : readUInt32? 16 (asciiLower t) = readUInt32? 16 t := by
  have hnat : readNat? 16 (asciiLower t) = readNat? 16 t := by
    rcases head_cases_asciiLower (c := '+') (by decide) t with
      ⟨rest, rfl, hcons⟩ | ⟨hhead, hhead'⟩
    · have h := digitsValue?_asciiLower 0 rest
      rw [hcons]
      show (if (asciiLower rest).isEmpty then none else digitsValue? 16 0 (asciiLower rest)) =
        if rest.isEmpty then none else digitsValue? 16 0 rest
      rw [isEmpty_asciiLower, h]
    · rw [readNat?_of_head? hhead, readNat?_of_head? hhead', isEmpty_asciiLower,
        digitsValue?_asciiLower]
  rw [readUInt32?, hnat, readUInt32?]

theorem isAlpha_of_isDigit (h : c.isDigit = true) : c.isAlpha = false := by
  have hall : c.isDigit = true → c.isAlpha = false :=
    forall_ascii (P := fun c => c.isDigit = true → c.isAlpha = false) (by decide)
      (toNat_lt_of_isAlphanum (by simp [Char.isAlphanum, h]))
  exact hall h

end Text

/-! ## Numerals -/

namespace Numeral

open Text

variable {t : Text}

theorem takeSign_of_head? (hminus : t.head? ≠ some '-') (hplus : t.head? ≠ some '+') :
    takeSign t = (false, t) := by
  rw [takeSign]
  · exact fun rest heq => hminus (heq ▸ rfl)
  · exact fun rest heq => hplus (heq ▸ rfl)

theorem takeSign_asciiLower (t : Text) :
    takeSign (asciiLower t) = ((takeSign t).1, asciiLower (takeSign t).2) := by
  rcases head_cases_asciiLower (c := '-') (by decide) t with
    ⟨rest, rfl, -⟩ | ⟨hminus, hminus'⟩
  · rfl
  rcases head_cases_asciiLower (c := '+') (by decide) t with
    ⟨rest, rfl, -⟩ | ⟨hplus, hplus'⟩
  · rfl
  rw [takeSign_of_head? hminus hplus, takeSign_of_head? hminus' hplus']

theorem takeDigits_asciiLower (t : Text) :
    takeDigits (asciiLower t) = ((takeDigits t).1, asciiLower (takeDigits t).2) := by
  have hdigit : ∀ c : Char, c.toLower.isDigit = c.isDigit := apply_toLower (by decide)
  rw [takeDigits, takeWhile_asciiLower_of_not_isAlpha hdigit fun c => isAlpha_of_isDigit,
    dropWhile_asciiLower hdigit, takeDigits]

theorem readExponent?_asciiLower (t : Text) : readExponent? (asciiLower t) = readExponent? t := by
  cases t with
  | nil => rfl
  | cons c rest =>
    have hletter : (c.toLower = 'e' ∨ c.toLower = 'E') ↔ (c = 'e' ∨ c = 'E') := by
      have h := apply_toLower (f := fun c => decide (c = 'e' ∨ c = 'E')) (by decide) c
      exact decide_eq_decide.1 h
    have hcons : asciiLower (c :: rest) = c.toLower :: asciiLower rest := rfl
    rw [hcons, readExponent?, readExponent?]
    simp only [hletter, takeSign_asciiLower, takeDigits_asciiLower, isEmpty_asciiLower]

/-- A numeral without a point. -/
theorem readDecimal?_of_head? (negative : Bool) (h : (takeDigits t).2.head? ≠ some '.') :
    readDecimal? negative t =
      if (takeDigits t).1.isEmpty then none
      else (readExponent? (takeDigits t).2).map fun e =>
        .decimal negative (ofDigits (takeDigits t).1) e := by
  rw [readDecimal?]
  generalize takeDigits t = whole at h
  obtain ⟨whole, rest⟩ := whole
  dsimp only
  split
  next rest' => exact absurd rfl h
  next => simp

theorem readDecimal?_asciiLower (negative : Bool) (t : Text) :
    readDecimal? negative (asciiLower t) = readDecimal? negative t := by
  rcases head_cases_asciiLower (c := '.') (by decide) (takeDigits t).2 with
    ⟨rest, hrest, hcons⟩ | ⟨hhead, hhead'⟩
  · rw [readDecimal?, readDecimal?]
    simp only [takeDigits_asciiLower, hrest, hcons, readExponent?_asciiLower]
  · rw [readDecimal?_of_head? negative hhead,
      readDecimal?_of_head? negative (by rwa [takeDigits_asciiLower])]
    simp only [takeDigits_asciiLower, readExponent?_asciiLower]

theorem read?_asciiLower (t : Text) : read? (asciiLower t) = read? t := by
  rw [read?, read?]
  simp only [takeSign_asciiLower, asciiLower_asciiLower, readDecimal?_asciiLower]

end Numeral
end Wardrobe
