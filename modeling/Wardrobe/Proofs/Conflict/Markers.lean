import Mathlib.Data.List.TakeWhile
import Mathlib.Order.Bounds.Basic
import Wardrobe.Proofs.Conflict.FileName
import Wardrobe.Proofs.RuleFile
import Wardrobe.Proofs.Text.Ascii
/-
The search for a name that sorts last, and what more markers can do for it.

A marker stays in front of the small letters of a name and hides what stands behind it from the rule
for the final sigma.  So a name with one marker more compares to the name without it in the same way
however many markers there are, and the numbers of markers that suffice have no lower end or no
upper one.  The search needs to look at its first and its last number alone to know whether it will
find a name.
-/

namespace Wardrobe

open Std

namespace Text

variable {c : Char} {t : Text} {n k : Nat}

/-! ## Names with the same character at the front -/

theorem compare_append_left (u s t : Text) : compare (u ++ s) (u ++ t) = compare s t := by
  induction u with
  | nil => rfl
  | cons a u ih =>
    rw [List.cons_append, List.cons_append, compare, ih, Nat.compare_eq_eq.2 rfl]
    rfl

/-- How often the character is repeated at the front. -/
def rowOf (c : Char) (t : Text) : Nat := (t.takeWhile (· = c)).length

/-- A longer row of a character than the other text begins with decides the comparison. -/
theorem compare_replicate_append (s s' : Text) (hn : rowOf c t < n) (hk : rowOf c t < k) :
    compare (List.replicate n c ++ s) t = compare (List.replicate k c ++ s') t := by
  induction t generalizing n k with
  | nil =>
    obtain ⟨n, rfl⟩ := Nat.exists_eq_add_of_lt hn
    obtain ⟨k, rfl⟩ := Nat.exists_eq_add_of_lt hk
    rfl
  | cons d t ih =>
    obtain ⟨n, rfl⟩ := Nat.exists_eq_succ_of_ne_zero (Nat.ne_zero_of_lt hn)
    obtain ⟨k, rfl⟩ := Nat.exists_eq_succ_of_ne_zero (Nat.ne_zero_of_lt hk)
    rw [List.replicate_succ, List.replicate_succ, List.cons_append, List.cons_append, compare,
      compare]
    by_cases hd : d = c
    · have hrow : rowOf c (d :: t) = rowOf c t + 1 := by simp [rowOf, hd]
      rw [hrow] at hn hk
      rw [ih (Nat.lt_of_succ_lt_succ hn) (Nat.lt_of_succ_lt_succ hk)]
    · have hcode : c.toNat ≠ d.toNat := fun h => hd (Char.toNat_inj.1 h).symm
      have hne : Ord.compare c.toNat d.toNat ≠ .eq := mt Nat.compare_eq_eq.1 hcode
      cases hcmp : Ord.compare c.toNat d.toNat with
      | eq => exact absurd hcmp hne
      | lt => rfl
      | gt => rfl

/-! ## Their lower case -/

theorem isCaseIgnorable_of_isAlphanum (hc : c.isAlphanum = true) : isCaseIgnorable c = false := by
  have hall : c.isAlphanum = true → isCaseIgnorable c = false :=
    forall_ascii (P := fun c => c.isAlphanum = true → isCaseIgnorable c = false) (by decide)
      (toNat_lt_of_isAlphanum hc)
  exact hall hc

/-- Looking for the next letter goes no further than a character that is not skipped. -/
theorem nextIsCased_append_cons (hc : isCaseIgnorable c = false) (s t t' : Text) :
    nextIsCased (s ++ c :: t) = nextIsCased (s ++ c :: t') := by
  induction s with
  | nil => simp [nextIsCased, hc]
  | cons d s ih =>
    simp only [nextIsCased, List.cons_append, List.dropWhile_cons] at ih ⊢
    cases isCaseIgnorable d with
    | true => exact ih
    | false => rfl

theorem lowerAfter_append_cons (hc : isCaseIgnorable c = false) (s t t' u : Text) :
    lowerAfter (s ++ c :: t) u = lowerAfter (s ++ c :: t') u := by
  induction u generalizing s with
  | nil => rfl
  | cons d u ih =>
    have hrest := ih (d :: s)
    simp only [List.cons_append] at hrest
    rw [lowerAfter, lowerAfter, nextIsCased_append_cons hc s t t', hrest]

theorem lowerAfter_replicate_append (hc : c.isAlphanum = true) (n : Nat) (s t : Text) :
    lowerAfter s (List.replicate n c ++ t) =
      List.replicate n c.toLower ++ lowerAfter (List.replicate n c ++ s) t := by
  have hascii := toNat_lt_of_isAlphanum hc
  have hsigma : c ≠ 'Σ' := by
    rintro rfl
    exact absurd hascii (by decide)
  have hlower : lowerChar c = [c.toLower] := if_pos hascii
  induction n generalizing s with
  | zero => rfl
  | succ n ih =>
    have hrow : List.replicate n c ++ c :: s = List.replicate (n + 1) c ++ s := by
      rw [List.append_cons, ← List.replicate_succ']
    rw [List.replicate_succ, List.cons_append, lowerAfter, if_neg hsigma, hlower, ih, hrow]
    rfl

theorem lower_replicate_append (hc : c.isAlphanum = true) (n : Nat) (t : Text) :
    lower (List.replicate (n + 1) c ++ t) =
      List.replicate (n + 1) c.toLower ++ lowerAfter [c] t := by
  have hignorable := isCaseIgnorable_of_isAlphanum hc
  have hbefore : lowerAfter (List.replicate (n + 1) c) t = lowerAfter [c] t :=
    lowerAfter_append_cons hignorable [] (List.replicate n c) [] t
  rw [lower, lowerAfter_replicate_append hc, List.append_nil, hbefore]

end Text

/-! ## More and fewer markers -/

namespace LoadName

variable {marker : Char} {suffix proposed name : Text} {others : List Text} {n k : Nat}

/-- The base name with so many markers before it. -/
def marked (marker : Char) (suffix proposed : Text) (n : Nat) : Text :=
  List.replicate n marker ++ baseName marker suffix proposed

/-- So many markers, more than the longest row has characters, make the name sort last. -/
def Enough (marker : Char) (suffix proposed : Text) (others : List Text) (n : Nat) : Prop :=
  longestRow others < n ∧ comesLast (marked marker suffix proposed n) others = true

/-- One marker more makes the name greater or smaller, whatever it begins with. -/
theorem compare_marked_succ (hmarker : marker.isAlphanum = true) (suffix proposed : Text)
    (n : Nat) :
    Text.compare (Text.lower (marked marker suffix proposed (n + 2)))
        (Text.lower (marked marker suffix proposed (n + 1))) =
      Text.compare (Text.lower (marked marker suffix proposed 2))
        (Text.lower (marked marker suffix proposed 1)) := by
  have hrow : ∀ n, Text.lower (marked marker suffix proposed (n + 2)) =
      List.replicate (n + 1) marker.toLower ++
        marker.toLower :: Text.lowerAfter [marker] (baseName marker suffix proposed) := by
    intro n
    rw [marked, Text.lower_replicate_append hmarker, List.replicate_succ', List.append_assoc]
    rfl
  have hone : ∀ n, Text.lower (marked marker suffix proposed (n + 1)) =
      List.replicate (n + 1) marker.toLower ++
        Text.lowerAfter [marker] (baseName marker suffix proposed) :=
    fun n => Text.lower_replicate_append hmarker n _
  rw [hrow, hone, Text.compare_append_left, ← Text.compare_append_left
    (List.replicate 1 marker.toLower), ← hone, ← hrow]

theorem comesLast_of_isGE {name' : Text} (h : comesLast name others = true)
    (hge : (Text.compare (Text.lower name') (Text.lower name)).isGE = true) :
    comesLast name' others = true :=
  comesLast_iff.2 fun other hother =>
    TransCmp.gt_of_isGE_of_gt hge (comesLast_iff.1 h other hother)

/-- Either more markers never harm or fewer never do. -/
theorem monotone_or_antitone (hmarker : marker.isAlphanum = true) (suffix proposed : Text)
    (others : List Text) :
    (∀ n k, 0 < n → n ≤ k → comesLast (marked marker suffix proposed n) others = true →
      comesLast (marked marker suffix proposed k) others = true) ∨
    ∀ n k, 0 < n → n ≤ k → comesLast (marked marker suffix proposed k) others = true →
      comesLast (marked marker suffix proposed n) others = true := by
  have hstep := compare_marked_succ hmarker suffix proposed
  -- Neighbours compare alike everywhere, so the first two tell in which direction the names grow.
  cases hge : (Text.compare (Text.lower (marked marker suffix proposed 2))
      (Text.lower (marked marker suffix proposed 1))).isGE with
  | true =>
    refine .inl fun n k hn hnk hlast => ?_
    induction k, hnk using Nat.le_induction with
    | base => exact hlast
    | succ k hnk ih =>
      obtain ⟨k, rfl⟩ := Nat.exists_eq_succ_of_ne_zero (Nat.ne_zero_of_lt (hn.trans_le hnk))
      exact comesLast_of_isGE ih (by rw [hstep]; exact hge)
  | false =>
    refine .inr fun n k hn hnk => ?_
    induction k, hnk using Nat.le_induction with
    | base => exact id
    | succ k hnk ih =>
      obtain ⟨k, rfl⟩ := Nat.exists_eq_succ_of_ne_zero (Nat.ne_zero_of_lt (hn.trans_le hnk))
      refine fun hlast => ih (comesLast_of_isGE hlast ?_)
      rw [OrientedCmp.isGE_iff_isLE, hstep]
      exact Ordering.isLE_of_eq_lt (Ordering.isGE_eq_false.1 hge)

/-- Past the rows of the marker that the other names begin with, the number of markers makes no
difference. -/
theorem comesLast_marked_congr (hmarker : marker.isAlphanum = true)
    (hn : ∀ other ∈ others, Text.rowOf marker.toLower (Text.lower other) < n)
    (hk : ∀ other ∈ others, Text.rowOf marker.toLower (Text.lower other) < k) :
    comesLast (marked marker suffix proposed n) others =
      comesLast (marked marker suffix proposed k) others := by
  have hcompare : ∀ other ∈ others,
      Text.compare (Text.lower (marked marker suffix proposed n)) (Text.lower other) =
        Text.compare (Text.lower (marked marker suffix proposed k)) (Text.lower other) := by
    intro other hother
    obtain ⟨n, rfl⟩ := Nat.exists_eq_succ_of_ne_zero (Nat.ne_zero_of_lt (hn other hother))
    obtain ⟨k, rfl⟩ := Nat.exists_eq_succ_of_ne_zero (Nat.ne_zero_of_lt (hk other hother))
    rw [marked, marked, Text.lower_replicate_append hmarker, Text.lower_replicate_append hmarker]
    exact Text.compare_replicate_append _ _ (hn other hother) (hk other hother)
  rw [Bool.eq_iff_iff, comesLast_iff, comesLast_iff]
  exact forall₂_congr fun other hother => by rw [hcompare other hother]

/-! ## The search -/

theorem find?_candidates (marker : Char) (suffix proposed : Text) (others : List Text) :
    suggest proposed others marker suffix =
      ((List.range (extraMarkers + 1)).find? fun extra =>
        comesLast (marked marker suffix proposed (longestRow others + 1 + extra)) others).map
        fun extra => marked marker suffix proposed (longestRow others + 1 + extra) := by
  rw [suggest, List.find?_map]
  rfl

/-- What is suggested has the fewest markers that suffice. -/
theorem isLeast_of_suggest (h : suggest proposed others marker suffix = some name) :
    ∃ n, name = marked marker suffix proposed n ∧ n ≤ longestRow others + 1 + extraMarkers ∧
      IsLeast {k | Enough marker suffix proposed others k} n := by
  rw [find?_candidates, Option.map_eq_some_iff] at h
  obtain ⟨extra, hfind, rfl⟩ := h
  obtain ⟨hlast, hextra, hbefore⟩ := List.find?_range_eq_some.1 hfind
  have hle : extra ≤ extraMarkers := Nat.le_of_lt_succ (List.mem_range.1 hextra)
  refine ⟨_, rfl, Nat.add_le_add_left hle _, ⟨by omega, hlast⟩, fun k ⟨hrow, hk⟩ => ?_⟩
  by_contra hlt
  obtain ⟨e, rfl⟩ := Nat.exists_eq_add_of_lt hrow
  have hnot := hbefore e (by omega)
  rw [Bool.not_eq_true', Nat.add_right_comm, hk] at hnot
  cases hnot

theorem isSome_suggest (h : Enough marker suffix proposed others n)
    (hn : n ≤ longestRow others + 1 + extraMarkers) :
    (suggest proposed others marker suffix).isSome = true := by
  obtain ⟨hrow, hlast⟩ := h
  obtain ⟨extra, rfl⟩ := Nat.exists_eq_add_of_lt hrow
  rw [find?_candidates, Option.isSome_map, List.find?_isSome]
  refine ⟨extra, List.mem_range.2 (by omega), ?_⟩
  rw [Nat.add_right_comm]
  exact hlast

/-- A name is found at the first or at the last number that is tried, if at any. -/
theorem isSome_suggest_iff (hmarker : marker.isAlphanum = true) :
    (suggest proposed others marker suffix).isSome = true ↔
      Enough marker suffix proposed others (longestRow others + 1) ∨
        Enough marker suffix proposed others (longestRow others + 1 + extraMarkers) := by
  have hfirst : longestRow others < longestRow others + 1 := Nat.lt_succ_self _
  have hlastRow := Nat.lt_add_right extraMarkers hfirst
  constructor
  · intro h
    obtain ⟨name, hname⟩ := Option.isSome_iff_exists.1 h
    obtain ⟨n, -, hle, ⟨hrow, hlast⟩, -⟩ := isLeast_of_suggest hname
    rcases monotone_or_antitone hmarker suffix proposed others with hup | hdown
    · exact .inr ⟨hlastRow, hup n _ (Nat.zero_lt_of_lt hrow) hle hlast⟩
    · exact .inl ⟨hfirst, hdown _ n (Nat.succ_pos _) hrow hlast⟩
  · rintro (h | h)
    · exact isSome_suggest h (Nat.le_add_right _ _)
    · exact isSome_suggest h (Nat.le_refl _)

/-- Where some number of markers makes the base name sort last, a name is suggested exactly if the
first or the last number tried does so, and then the one with the fewest.  It always is where no
other name begins, in small letters, with more markers than the search gets to. -/
theorem suggest_of_enough (hmarker : marker.isAlphanum = true)
    (henough : ∃ n, Enough marker suffix proposed others n) :
    (∀ name, suggest proposed others marker suffix = some name →
      ∃ n, name = marked marker suffix proposed n ∧
        IsLeast {k | Enough marker suffix proposed others k} n) ∧
    ((suggest proposed others marker suffix).isSome = true ↔
      Enough marker suffix proposed others (longestRow others + 1) ∨
        Enough marker suffix proposed others (longestRow others + 1 + extraMarkers)) ∧
    ((∀ other ∈ others,
        Text.rowOf marker.toLower (Text.lower other) ≤ longestRow others + extraMarkers) →
      (suggest proposed others marker suffix).isSome = true) := by
  refine ⟨fun name h => ?_, isSome_suggest_iff hmarker, fun hrows => ?_⟩
  · obtain ⟨n, hname, -, hleast⟩ := isLeast_of_suggest h
    exact ⟨n, hname, hleast⟩
  · obtain ⟨n, hn⟩ := henough
    rcases Nat.le_total n (longestRow others + 1 + extraMarkers) with hle | hge
    · exact isSome_suggest hn hle
    · -- So many markers hide what is behind them from all the other names.
      have hpast : ∀ other ∈ others, Text.rowOf marker.toLower (Text.lower other) <
          longestRow others + 1 + extraMarkers := fun other hother => by
        rw [Nat.add_right_comm]
        exact Nat.lt_succ_of_le (hrows other hother)
      refine isSome_suggest ⟨by omega, ?_⟩ (Nat.le_refl _)
      rw [← hn.2]
      exact comesLast_marked_congr hmarker hpast fun other hother =>
        (hpast other hother).trans_le hge

/-! The rows of other names are counted with case and the names are compared without. -/

theorem suggest_behind_mixed_row :
    Enough 'Z' ".ini" "Mine.ini" ["zZZMore.ini".toList] 4 ∧
      ∃ name n, suggest "Mine.ini" ["zZZMore.ini".toList] 'Z' ".ini" = some name ∧
        name = marked 'Z' ".ini" "Mine.ini" n ∧
        IsLeast {k | Enough 'Z' ".ini" "Mine.ini" ["zZZMore.ini".toList] k} n := by
  have hrow : longestRow ["zZZMore.ini".toList] = 1 := by decide
  have hlast : comesLast (marked 'Z' ".ini" "Mine.ini" 4) ["zZZMore.ini".toList] = true := by
    decide +kernel
  have henough : Enough 'Z' ".ini" "Mine.ini" ["zZZMore.ini".toList] 4 := ⟨by omega, hlast⟩
  obtain ⟨hleast, -, hfound⟩ := suggest_of_enough (by decide) ⟨4, henough⟩
  obtain ⟨name, hname⟩ := Option.isSome_iff_exists.1 (hfound (by decide +kernel))
  obtain ⟨n, hn, hleast⟩ := hleast name hname
  exact ⟨henough, name, n, hname, hn, hleast⟩

/-- A row of one character to the comparison and of single characters to the count. -/
def zigzag : Text := (List.replicate 17 ['z', 'Z']).flatten ++ "x.ini".toList

/-- More markers than the search tries would make the name sort last. -/
theorem not_suggest_zigzag : ¬ ((∃ n, Enough 'Z' ".ini" "Mine.ini" [zigzag] n) →
    ∃ n, suggest "Mine.ini" [zigzag] 'Z' ".ini" = some (marked 'Z' ".ini" "Mine.ini" n) ∧
      IsLeast {k | Enough 'Z' ".ini" "Mine.ini" [zigzag] k} n) := by
  intro h
  have hrow : longestRow [zigzag] < 35 := by decide
  have hlast : comesLast (marked 'Z' ".ini" "Mine.ini" 35) [zigzag] = true := by decide +kernel
  have hnone : suggest "Mine.ini" [zigzag] 'Z' ".ini" = none := by decide +kernel
  obtain ⟨n, hsome, -⟩ := h ⟨35, hrow, hlast⟩
  rw [hnone] at hsome
  cases hsome

end LoadName
end Wardrobe
