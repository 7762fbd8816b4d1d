import Wardrobe.Proofs.Text.Ascii
import Wardrobe.Text.Number
/-
Numbers printed and read back.

Printing adds the last digit behind those of the rest, and reading takes the digits from the
front, so the value of a row of digits is followed one digit at its end at a time.
-/

namespace Wardrobe
namespace Text

variable {base n acc : Nat} {c : Char} {s : Text}

theorem digitsValue?_concat : digitsValue? base acc (s ++ [c]) =
    (digitsValue? base acc s).bind fun v => (digitValue? base c).map (v * base + ·) := by
  induction s generalizing acc with
  | nil =>
    rw [List.nil_append, digitsValue?, digitsValue?]
    cases digitValue? base c <;> rfl
  | cons d s ih =>
    rw [List.cons_append, digitsValue?, digitsValue?]
    cases digitValue? base d with
    | none => rfl
    | some v => exact ih

theorem digitsValue?_eq_none (hc : digitValue? base c = none) (h : c ∈ s) :
    digitsValue? base acc s = none := by
  induction s generalizing acc with
  | nil => cases h
  | cons d s ih =>
    rw [digitsValue?]
    rcases List.mem_cons.1 h with rfl | h
    · rw [hc]
    · cases digitValue? base d with
      | none => rfl
      | some v => exact ih h

theorem toDigits_eq_concat (hbase : 1 < base) (hn : base ≤ n) :
    Nat.toDigits base n = Nat.toDigits base (n / base) ++ [Nat.digitChar (n % base)] := by
  have hdigit : n % base < base := Nat.mod_lt _ (by omega)
  have hrest : 0 < n / base := Nat.div_pos hn (by omega)
  have happend := Nat.toDigits_append_toDigits hbase hrest hdigit
  rwa [Nat.div_add_mod, Nat.toDigits_of_lt_base hdigit, eq_comm] at happend

/-- A property of all digits of a base holds of those of a number in it. -/
theorem forall_mem_toDigits {P : Char → Prop} (hbase : 1 < base)
    (h : ∀ d < base, P (Nat.digitChar d)) (n : Nat) : ∀ c ∈ Nat.toDigits base n, P c := by
  induction n using Nat.strongRecOn with
  | ind n ih =>
    intro c hc
    by_cases hn : n < base
    · rw [Nat.toDigits_of_lt_base hn, List.mem_singleton] at hc
      exact hc ▸ h n hn
    · rw [toDigits_eq_concat hbase (by omega), List.mem_append, List.mem_singleton] at hc
      rcases hc with hc | rfl
      · exact ih (n / base) (Nat.div_lt_self (by omega) hbase) c hc
      · exact h _ (Nat.mod_lt _ (by omega))

/-- Digits that are read one by one as what they stand for make the number that was printed. -/
theorem digitsValue?_toDigits (spell : Char → Char) (hbase : 1 < base)
    (h : ∀ d < base, digitValue? base (spell (Nat.digitChar d)) = some d) (n : Nat) :
    digitsValue? base 0 ((Nat.toDigits base n).map spell) = some n := by
  induction n using Nat.strongRecOn with
  | ind n ih =>
    by_cases hn : n < base
    · simp [Nat.toDigits_of_lt_base hn, digitsValue?, h n hn]
    · have hlt : n / base < n := Nat.div_lt_self (by omega) hbase
      have hdigit : n % base < base := Nat.mod_lt _ (by omega)
      rw [toDigits_eq_concat hbase (by omega), List.map_append, List.map_singleton,
        digitsValue?_concat, ih _ hlt, Option.bind_some, h _ hdigit, Option.map_some,
        Nat.mul_comm, Nat.div_add_mod]

/-! ## The two notations -/

theorem isDigit_of_mem_decimal (h : c ∈ decimal n) : c.isDigit = true :=
  forall_mem_toDigits (P := fun c => c.isDigit = true) (by decide) (by decide) n c h

theorem isAlphanum_of_mem_decimal (h : c ∈ decimal n) : c.isAlphanum = true := by
  simp [Char.isAlphanum, isDigit_of_mem_decimal h]

theorem isAlphanum_of_mem_hexadecimal (h : c ∈ hexadecimal n) : c.isAlphanum = true := by
  obtain ⟨d, hd, rfl⟩ := List.mem_map.1 h
  exact forall_mem_toDigits (P := fun d => d.toUpper.isAlphanum = true) (by decide) (by decide) n d
    hd

theorem isSome_digitValue?_of_mem_hexadecimal (h : c ∈ hexadecimal n) :
    (digitValue? 16 c).isSome = true := by
  obtain ⟨d, hd, rfl⟩ := List.mem_map.1 h
  exact forall_mem_toDigits (P := fun d => (digitValue? 16 d.toUpper).isSome = true) (by decide)
    (by decide) n d hd

theorem decimal_ne_nil (n : Nat) : decimal n ≠ [] := Nat.toDigits_ne_nil

theorem hexadecimal_ne_nil (n : Nat) : hexadecimal n ≠ [] := by
  simp [hexadecimal]

theorem readNat?_of_head? (h : s.head? ≠ some '+') :
    readNat? base s = if s.isEmpty then none else digitsValue? base 0 s := by
  rw [readNat?]
  intro rest heq
  exact h (heq ▸ rfl)

theorem readNat?_of_isAlphanum (hne : s ≠ []) (h : ∀ c ∈ s, c.isAlphanum = true) :
    readNat? base s = digitsValue? base 0 s := by
  rw [readNat?_of_head?, if_neg (by simpa using hne)]
  intro hplus
  have hdigit := h '+' (List.mem_of_head? hplus)
  cases hdigit

theorem readNat?_decimal (n : Nat) : readNat? 10 (decimal n) = some n := by
  rw [readNat?_of_isAlphanum (decimal_ne_nil n) fun _ => isAlphanum_of_mem_decimal]
  simpa [decimal] using digitsValue?_toDigits id (by decide) (by decide) n

theorem digitsValue?_hexadecimal (n : Nat) : digitsValue? 16 0 (hexadecimal n) = some n :=
  digitsValue?_toDigits Char.toUpper (by decide) (by decide) n

theorem readNat?_hexadecimal (n : Nat) : readNat? 16 (hexadecimal n) = some n := by
  rw [readNat?_of_isAlphanum (hexadecimal_ne_nil n) fun _ => isAlphanum_of_mem_hexadecimal]
  exact digitsValue?_hexadecimal n

theorem digitValue?_toLower (c : Char) : digitValue? 16 c.toLower = digitValue? 16 c :=
  apply_toLower (by decide) c

/-- Hexadecimal digits say the same in small letters. -/
theorem digitsValue?_asciiLower (acc : Nat) (t : Text) :
    digitsValue? 16 acc (asciiLower t) = digitsValue? 16 acc t := by
  induction t generalizing acc with
  | nil => rfl
  | cons c t ih =>
    have hcons : asciiLower (c :: t) = c.toLower :: asciiLower t := rfl
    rw [hcons, digitsValue?, digitsValue?, digitValue?_toLower]
    cases digitValue? 16 c with
    | some d => exact ih _
    | none => rfl

theorem readUInt16?_decimal (n : UInt16) : readUInt16? (decimal n.toNat) = some n := by
  rw [readUInt16?, readNat?_decimal, Option.bind_some, if_pos n.toNat_lt_size, UInt16.ofNat_toNat]

theorem readUInt32?_decimal (n : UInt32) : readUInt32? 10 (decimal n.toNat) = some n := by
  rw [readUInt32?, readNat?_decimal, Option.bind_some, if_pos n.toNat_lt_size, UInt32.ofNat_toNat]

theorem readUInt32?_hexadecimal (n : UInt32) : readUInt32? 16 (hexadecimal n.toNat) = some n := by
  rw [readUInt32?, readNat?_hexadecimal, Option.bind_some, if_pos n.toNat_lt_size,
    UInt32.ofNat_toNat]

theorem readUInt32?_eq_none (hc : digitValue? base c = none) (hplus : c ≠ '+') (h : c ∈ s) :
    readUInt32? base s = none := by
  have hdigits : readNat? base s = none := by
    unfold readNat?
    split
    next =>
      dsimp only
      rw [digitsValue?_eq_none hc ((List.mem_cons.1 h).resolve_left hplus), ite_self]
    next =>
      dsimp only
      rw [digitsValue?_eq_none hc h, ite_self]
  rw [readUInt32?, hdigits]
  rfl

end Text
end Wardrobe
