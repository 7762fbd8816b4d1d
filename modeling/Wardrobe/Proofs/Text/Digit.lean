import Mathlib.Tactic.Ring
import Wardrobe.Proofs.Text.Number
/-
The numbers that decimal digits denote, of whatever script.

The standard encodes the digits of a script as a row from zero to nine, and the ranges of digits
are made of whole rows.  A row of digits has a value in any script, but is read as a number only
if they are ASCII digits.
-/

namespace Wardrobe
namespace Text

variable {c : Char} {s : Text} {n : Nat}

/-- What a decimal digit is worth: how far it stands from the zero of its row. -/
def digitOf (c : Char) : Nat :=
  if c.isDigit then c.toNat - 48
  else
    match decimalDigitRanges.find? fun r => r.1 ≤ c.toNat && c.toNat ≤ r.2 with
    | some r => (c.toNat - r.1) % 10
    | none => 0

/-- The number that a row of decimal digits denotes, most significant first.  The empty row
denotes zero. -/
def number (digits : Text) : Nat := digits.foldl (fun n c => n * 10 + digitOf c) 0

theorem foldl_number (n : Nat) (t : Text) :
    t.foldl (fun n c => n * 10 + digitOf c) n = n * 10 ^ t.length + number t := by
  induction t generalizing n with
  | nil => simp [number]
  | cons c t ih =>
    rw [number, List.foldl_cons, List.foldl_cons, ih, ih (0 * 10 + _), List.length_cons,
      Nat.pow_succ]
    ring

theorem number_append (s t : Text) : number (s ++ t) = number s * 10 ^ t.length + number t := by
  rw [number, List.foldl_append, foldl_number]
  rfl

theorem digitValue?_of_isDigit (h : c.isDigit = true) : digitValue? 10 c = some (digitOf c) := by
  have hcode : 48 ≤ c.toNat ∧ c.toNat ≤ 57 := Char.isDigit_iff_toNat.1 h
  rw [digitValue?, digitOf, if_pos h, if_pos hcode, if_pos (by omega)]

theorem digitValue?_of_not_isDigit (h : c.isDigit = false) : digitValue? 10 c = none := by
  have hcode : ¬ (48 ≤ c.toNat ∧ c.toNat ≤ 57) := fun hcode => by
    rw [Char.isDigit_iff_toNat.2 hcode] at h
    cases h
  rw [digitValue?, if_neg hcode, if_neg]
  split <;> [skip; split] <;> omega

theorem digitsValue?_of_isDigit (h : ∀ c ∈ s, c.isDigit = true) :
    digitsValue? 10 n s = some (s.foldl (fun n c => n * 10 + digitOf c) n) := by
  induction s generalizing n with
  | nil => rfl
  | cons c s ih =>
    obtain ⟨hc, hs⟩ := List.forall_mem_cons.1 h
    rw [digitsValue?, digitValue?_of_isDigit hc]
    exact ih hs

/-- A row of digits is read as the number it denotes, as long as all are ASCII digits. -/
theorem readNat?_of_isDecimalDigit (hne : s ≠ []) (h : ∀ c ∈ s, isDecimalDigit c = true) :
    readNat? 10 s = if s.all Char.isDigit then some (number s) else none := by
  have hplus : s.head? ≠ some '+' := fun hhead => by
    have hdigit := h '+' (List.mem_of_head? hhead)
    exact absurd hdigit (by decide)
  rw [readNat?_of_head? hplus, if_neg (by simpa using hne)]
  split
  next hascii => exact digitsValue?_of_isDigit (List.all_eq_true.1 hascii)
  next hascii =>
    obtain ⟨c, hc, hnot⟩ : ∃ c ∈ s, ¬ c.isDigit = true := by simpa using hascii
    exact digitsValue?_eq_none (digitValue?_of_not_isDigit (Bool.eq_false_iff.2 hnot)) hc

end Text
end Wardrobe
