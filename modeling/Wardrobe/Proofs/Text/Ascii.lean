import Mathlib.Data.List.Basic
import Wardrobe.Text.Case
import Wardrobe.Text.Pieces
/-
The ASCII characters among all others.

What holds of each of them is checked by going through their codes.  Above all the full lower case
does not see the case of ASCII letters, so texts that agree up to it have the same lower case.
-/

namespace Wardrobe
namespace Text

variable {s t : Text} {c : Char}

/-- A question about the characters of a fixed text.  Only these are gone through. -/
theorem forall_mem_of_all {P : Char → Prop} [DecidablePred P]
    (h : (t.all fun c => decide (P c)) = true) : ∀ c ∈ t, P c := fun c hc =>
  of_decide_eq_true (List.all_eq_true.1 h c hc)

theorem not_mem_of_forall {p : Char → Bool} (h : ∀ d ∈ t, p d = true) (hc : p c = false) :
    c ∉ t := by
  intro hmem
  rw [h c hmem] at hc
  cases hc

theorem forall_ascii {P : Char → Prop} (h : ∀ n, n < 128 → P (Char.ofNat n)) (hc : c.toNat < 128) :
    P c := by
  rw [← Char.ofNat_toNat c]
  exact h c.toNat hc

theorem toNat_lt_of_isAlphanum (h : c.isAlphanum = true) : c.toNat < 128 := by
  have hcodes : c.isAlphanum = (((c.val ≥ 'A'.val ∧ c.val ≤ 'Z'.val : Bool) ||
      (c.val ≥ 'a'.val && c.val ≤ 'z'.val)) || (c.val ≥ '0'.val && c.val ≤ '9'.val)) := rfl
  rw [hcodes] at h
  simp only [Bool.or_eq_true, Bool.and_eq_true, decide_eq_true_eq, UInt32.le_iff_toNat_le,
    ge_iff_le] at h
  have hval : c.toNat = c.val.toNat := rfl
  have hZ : 'Z'.val.toNat = 90 := rfl
  have hz : 'z'.val.toNat = 122 := rfl
  have h9 : '9'.val.toNat = 57 := rfl
  omega

theorem isBlank_of_isAlphanum (h : c.isAlphanum = true) : isBlank c = false := by
  have hall : c.isAlphanum = true → isBlank c = false :=
    forall_ascii (P := fun c => c.isAlphanum = true → isBlank c = false) (by decide)
      (toNat_lt_of_isAlphanum h)
  exact hall h

theorem toLower_of_not_ascii (h : ¬ c.toNat < 128) : c.toLower = c := by
  have hval : c.toNat = c.val.toNat := rfl
  have hZ : 'Z'.val.toNat = 90 := rfl
  have hnot : ¬ (c.val ≥ 'A'.val ∧ c.val ≤ 'Z'.val) := by
    rw [UInt32.le_iff_toNat_le, ge_iff_le, UInt32.le_iff_toNat_le]
    omega
  exact dif_neg hnot

theorem toLower_of_not_isAlpha (h : c.isAlpha = false) : c.toLower = c := by
  by_cases hcode : c.toNat < 128
  · have hall : c.isAlpha = false → c.toLower = c :=
      forall_ascii (P := fun c => c.isAlpha = false → c.toLower = c) (by decide) hcode
    exact hall h
  · exact toLower_of_not_ascii hcode

/-- A question about characters whose answer is the same for an ASCII letter and its small form is
the same for a character and its small form. -/
theorem apply_toLower {f : Char → α} (h : ∀ n, n < 128 →
    f (Char.ofNat n).toLower = f (Char.ofNat n)) (c : Char) : f c.toLower = f c := by
  by_cases hc : c.toNat < 128
  · exact forall_ascii (P := fun c => f c.toLower = f c) h hc
  · rw [toLower_of_not_ascii hc]

/-- A character that is no letter stands in a text and in its small form alike. -/
theorem mem_asciiLower_of_not_isAlpha (hc : c.isAlpha = false) : c ∈ asciiLower t ↔ c ∈ t := by
  constructor
  · intro hmem
    obtain ⟨d, hd, rfl⟩ := List.mem_map.1 hmem
    rw [apply_toLower (f := Char.isAlpha) (by decide)] at hc
    rwa [toLower_of_not_isAlpha hc]
  · exact fun hmem => List.mem_map.2 ⟨c, hmem, toLower_of_not_isAlpha hc⟩

theorem isCaseIgnorable_toLower (c : Char) : isCaseIgnorable c.toLower = isCaseIgnorable c :=
  apply_toLower (by decide) c

theorem isCased_toLower (c : Char) : isCased c.toLower = isCased c := apply_toLower (by decide) c

theorem lowerChar_toLower (c : Char) : lowerChar c.toLower = lowerChar c :=
  apply_toLower (by decide) c

theorem toLower_eq_sigma (c : Char) : c.toLower = 'Σ' ↔ c = 'Σ' := by
  have h := apply_toLower (f := fun c => decide (c = 'Σ')) (by decide) c
  simpa using h

theorem nextIsCased_asciiLower (t : Text) : nextIsCased (asciiLower t) = nextIsCased t := by
  induction t with
  | nil => rfl
  | cons c t ih =>
    simp only [nextIsCased, asciiLower, List.map_cons, List.dropWhile_cons,
      isCaseIgnorable_toLower] at ih ⊢
    cases isCaseIgnorable c with
    | true => exact ih
    | false => exact isCased_toLower c

theorem lowerAfter_asciiLower (s t : Text) :
    lowerAfter (asciiLower s) (asciiLower t) = lowerAfter s t := by
  induction t generalizing s with
  | nil => rfl
  | cons c t ih =>
    have hrest := ih (c :: s)
    have ht := nextIsCased_asciiLower t
    simp only [asciiLower, List.map_cons] at hrest ht
    simp only [asciiLower, List.map_cons, lowerAfter, hrest, ht, toLower_eq_sigma,
      lowerChar_toLower]
    rw [← nextIsCased_asciiLower s, asciiLower]

theorem lower_asciiLower (t : Text) : lower (asciiLower t) = lower t := lowerAfter_asciiLower [] t

theorem lower_congr (h : sameAscii s t = true) : lower s = lower t := by
  rw [← lower_asciiLower s, ← lower_asciiLower t, sameAscii_iff.1 h]

end Text
end Wardrobe
