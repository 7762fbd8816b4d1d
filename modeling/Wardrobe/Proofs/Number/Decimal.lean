import Mathlib.Algebra.Order.Field.Power
import Mathlib.Data.Rat.Cast.Order
import Mathlib.Tactic.FieldSimp
import Wardrobe.Number.Decimal
import Wardrobe.Proofs.Text.Case
import Wardrobe.Proofs.Text.Digit
/-
Plain decimal numbers: what they are worth, and that they are read as that.
-/

namespace Wardrobe
namespace Numeral

open Text

variable {t : Text} {v : ℚ}

/-- A decimal number without sign and exponent, and its value. -/
inductive IsPlain : Text → ℚ → Prop
  | whole {digits : Text} (hne : digits ≠ []) (hdigits : ∀ c ∈ digits, c.isDigit = true) :
      IsPlain digits (number digits)
  | point {whole fraction : Text} (hne : whole ++ fraction ≠ [])
      (hwhole : ∀ c ∈ whole, c.isDigit = true) (hfraction : ∀ c ∈ fraction, c.isDigit = true) :
      IsPlain (whole ++ '.' :: fraction) (number whole + number fraction / 10 ^ fraction.length)

theorem IsPlain.isDigit_or_point (h : IsPlain t v) {c : Char} (hc : c ∈ t) :
    c.isDigit = true ∨ c = '.' := by
  cases h with
  | whole _ hdigits => exact Or.inl (hdigits c hc)
  | point _ hwhole hfraction =>
    rcases List.mem_append.1 hc with hc | hc
    · exact Or.inl (hwhole c hc)
    · exact (List.mem_cons.1 hc).elim Or.inr fun hc => Or.inl (hfraction c hc)

theorem ofDigits_eq_number (h : ∀ c ∈ t, c.isDigit = true) : ofDigits t = number t := by
  rw [ofDigits, Nat.ofDigitChars, number]
  refine List.foldl_ext _ _ 0 fun n c hc => ?_
  rw [digitOf, if_pos (h c hc), Nat.mul_comm]
  rfl

/-- The digits on both sides of a point, as those of one number. -/
theorem number_point (whole fraction : Text) :
    (number whole : ℚ) + number fraction / 10 ^ fraction.length =
      number (whole ++ fraction) / 10 ^ fraction.length := by
  rw [number_append]
  push_cast
  field_simp

theorem IsPlain.readDecimal? (h : IsPlain t v) : ∃ digits exponent,
    readDecimal? false t = some (.decimal false digits exponent) ∧ v = digits * 10 ^ exponent := by
  cases h with
  | whole hne hdigits =>
    refine ⟨number t, 0, ?_, by simp⟩
    have htake : takeDigits (t ++ []) = (t, []) := span_append hdigits (by simp)
    rw [List.append_nil] at htake
    rw [readDecimal?_of_head? false (by simp [htake]), htake]
    simp [hne, readExponent?, ofDigits_eq_number hdigits]
  | @point whole fraction hne hwhole hfraction =>
    refine ⟨number (whole ++ fraction), -fraction.length, ?_, ?_⟩
    · have hdigits : ∀ c ∈ whole ++ fraction, c.isDigit = true := fun c hc =>
        (List.mem_append.1 hc).elim (hwhole c) (hfraction c)
      have htake : takeDigits (whole ++ '.' :: fraction) = (whole, '.' :: fraction) :=
        span_append hwhole (by simp)
      have htake' : takeDigits (fraction ++ []) = (fraction, []) := span_append hfraction (by simp)
      rw [List.append_nil] at htake'
      have hsome : (whole.isEmpty && fraction.isEmpty) = false := by
        simpa using hne
      rw [Numeral.readDecimal?, htake]
      simp only [htake', hsome, readExponent?, ofDigits_eq_number hdigits, Bool.false_eq_true,
        if_false, Option.map_some, zero_sub]
    · rw [number_point, zpow_neg, zpow_natCast, div_eq_mul_inv]

/-- A plain decimal number is read as its value. -/
theorem IsPlain.read? (h : IsPlain t v) : ∃ digits exponent,
    read? t = some (.decimal false digits exponent) ∧ v = digits * 10 ^ exponent := by
  have hno {c : Char} (hdigit : c.isDigit = false) (hpoint : c ≠ '.') : c ∉ t := fun hc => by
    rcases h.isDigit_or_point hc with hc | hc
    · rw [hc] at hdigit
      cases hdigit
    · exact hpoint hc
  have hhead {c : Char} (hdigit : c.isDigit = false) (hpoint : c ≠ '.') : t.head? ≠ some c :=
    fun hc => hno hdigit hpoint (List.mem_of_head? hc)
  have hword : 'n' ∉ asciiLower t := fun hmem => by
    obtain ⟨d, hd, hn⟩ := List.mem_map.1 hmem
    rcases h.isDigit_or_point hd with hdigit | rfl
    · rw [toLower_of_not_isAlpha (isAlpha_of_isDigit hdigit)] at hn
      exact hno (c := 'n') (by decide) (by decide) (hn ▸ hd)
    · exact absurd hn (by decide)
  obtain ⟨digits, exponent, hread, hv⟩ := h.readDecimal?
  refine ⟨digits, exponent, ?_, hv⟩
  rw [Numeral.read?, takeSign_of_head? (hhead (by decide) (by decide))
    (hhead (by decide) (by decide))]
  dsimp only
  rw [if_neg, if_neg, hread]
  · exact fun heq => hword (heq ▸ by decide)
  · rintro (heq | heq) <;> exact hword (heq ▸ by decide)

end Numeral
end Wardrobe
