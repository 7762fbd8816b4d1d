import Wardrobe.Proofs.Conflict.WithinFile
import Wardrobe.Proofs.Number.Binary32
import Wardrobe.Proofs.Number.Decimal
import Wardrobe.Proofs.Spid.Field
/-
Which written chances count as certain, and what that makes of conflicts.

A chance passes through single precision and is then rounded to a whole percentage.  It comes to
100 from 99.5 on, and already from half a unit in the last place below that: the number halfway
goes to 99.5, whose significand is even.
-/

namespace Wardrobe

variable {t : Text} {v : ℚ} {chance : UInt8} {num den : Nat}

/-! ## Chances -/

namespace Chance

theorem hundred_le_roundHalfUp_iff (hden : 0 < den) :
    100 ≤ roundHalfUp num den ↔ (199 / 2 : ℚ) ≤ num / den := by
  have hdenq : (0 : ℚ) < den := by exact_mod_cast hden
  rw [roundHalfUp, Nat.le_div_iff_mul_le (by omega), le_div_iff₀ hdenq]
  constructor
  · intro h
    have hq : (100 : ℚ) * (2 * den) ≤ 2 * num + den := by exact_mod_cast h
    linarith
  · intro h
    have hq : (100 : ℚ) * (2 * den) ≤ 2 * num + den := by linarith
    exact_mod_cast hq

/-- An accepted number lies above 0 and at most at 100 once it is in single precision, and is
rounded from there. -/
theorem exists_fraction_of_read {digits : Nat} {exponent : Int}
    (hnumeral : Numeral.read? t = some (.decimal false digits exponent))
    (h : read t = .ok chance) :
    ∃ (num den m : Nat) (k : Int), Binary32.ofDecimal digits exponent = .finite m k ∧
      (num : ℚ) / den = m * 2 ^ k ∧ 0 < num ∧ 0 < den ∧ num ≤ 100 * den ∧
      chance = UInt8.ofNat (max 1 (roundHalfUp num den)) := by
  rw [read, hnumeral] at h
  dsimp only at h
  cases hnumber : Binary32.ofDecimal digits exponent with
  | infinity =>
    rw [hnumber] at h
    cases h
  | finite m k =>
    rw [hnumber] at h
    cases hfraction : (Binary32.finite m k).fraction? with
    | none => cases hfraction
    | some fraction =>
      obtain ⟨num, den⟩ := fraction
      rw [hfraction] at h
      dsimp only at h
      split at h
      next hrange =>
        obtain ⟨hden, hvalue⟩ := Binary32.fraction?_finite hfraction
        exact ⟨num, den, m, k, rfl, hvalue, hrange.1, hden, hrange.2, (Except.ok.inj h).symm⟩
      · cases h

/-- A chance written as a plain decimal number comes to 100 from 99.5 on, less half a unit in the
last place. -/
theorem hundred_le_iff (h : read t = .ok chance) (ht : Numeral.IsPlain t v) :
    100 ≤ chance ↔ 199 / 2 - 1 / 2 ^ 18 ≤ v := by
  obtain ⟨digits, exponent, hnumeral, rfl⟩ := ht.read?
  obtain ⟨num, den, m, k, hnumber, hvalue, hnum, hden, hle, rfl⟩ :=
    exists_fraction_of_read hnumeral h
  have hm : m ≠ 0 := by
    rintro rfl
    have hpos : (0 : ℚ) < num / den := div_pos (by exact_mod_cast hnum) (by exact_mod_cast hden)
    rw [hvalue, Nat.cast_zero, zero_mul] at hpos
    exact lt_irrefl 0 hpos
  obtain ⟨num', den', hnum', hden', hratio, hnearest⟩ := Binary32.ofDecimal_eq_finite hm hnumber
  have hround := Spid.roundHalfUp_le hden hle
  have hchance : (100 : UInt8) ≤ UInt8.ofNat (max 1 (roundHalfUp num den)) ↔
      100 ≤ roundHalfUp num den := by
    rw [UInt8.le_iff_toNat_le, UInt8.toNat_ofNat_of_lt' (by simp [UInt8.size]; omega)]
    show 100 ≤ max 1 (roundHalfUp num den) ↔ _
    omega
  -- The significand of 99.5 is 13041664, in units of 2 ^ -17.
  have hreach := Binary32.le_nearest_iff hnum' hden' hnearest (M := 13041664) (e := -17)
    (by decide) (by decide) (by decide) (by decide)
  have hunits : ((13041664 : Nat) : ℚ) * 2 ^ (-17 : Int) = 199 / 2 := by norm_num
  have hhalf : (((13041664 : Nat) : ℚ) - 1 / 2) * 2 ^ (-17 : Int) = 199 / 2 - 1 / 2 ^ 18 := by
    norm_num
  rw [hunits, hhalf, ← hvalue, hratio] at hreach
  rw [hchance, hundred_le_roundHalfUp_iff hden, hreach]

end Chance

/-! ## Rules and conflicts -/

variable {r : Rule} {c : Catalog} {n : Nat} {line : Text} {rules : List Rule}

theorem Spid.isCertain_iff_of_assemble {raw value : Text} {type : EntryKind}
    (h : assemble c n raw type value = .ok r) (hfield : field? (splitFields value) 6 = some t)
    (ht : Numeral.IsPlain t v) : r.isCertain = true ↔ 199 / 2 - 1 / 2 ^ 18 ≤ v := by
  have hchance := (isAssembled_of_assemble h).chance
  rw [hfield, readOr, mapError_eq_ok, map_eq_ok] at hchance
  obtain ⟨chance, hread, hsome⟩ := hchance
  rw [Rule.isCertain, ← hsome, ← Chance.hundred_le_iff (mapError_eq_ok.1 hread) ht]
  simp [certainChance]

/-- The conflict tells of the rule as the one that is proposed. -/
def Conflict.Proposes (conflict : Conflict) (r : Rule) : Prop :=
  conflict.proposedLine = r.lineNumber ∧ conflict.proposedOutfit = r.outfitName ∧
    conflict.proposedChance = r.chance

/-- The rule stands on one side of the conflict: it is the one that is proposed, or the one that has
won so far. -/
def Conflict.Involves (conflict : Conflict) (r : Rule) : Prop :=
  conflict.Proposes r ∨ ∃ placed : PlacedRule, placed.rule = r ∧ conflict.existing.Records placed

/-- The rule is one of the two that the conflict is between. -/
def PairConflict.Involves (conflict : PairConflict) (r : Rule) : Prop :=
  ∃ npc other, conflict = .ofRules npc r other ∨ conflict = .ofRules npc other r

section Conflicts

variable {p : Population} {tags : Tags} {existing : Resolution} {fileName : Text}
  {proposed : List Rule}

theorem proposes_of_mem_findConflicts {conflict : Conflict}
    (h : conflict ∈ findConflicts p tags existing fileName proposed) :
    ∃ other ∈ proposed, conflict.Proposes other := by
  obtain ⟨i, other, npc, current, hdeciding, -, -, hconflict⟩ := mem_findConflicts.1 h
  obtain ⟨-, -, hbetween⟩ := conflictWith?_eq_some hconflict
  exact ⟨other, (mem_decidingRules.1 hdeciding).mem, hbetween.proposedLine,
    hbetween.proposedOutfit, hbetween.proposedChance⟩

theorem not_isCertain (hr : r.isCertain = false) : ¬ IsCertain r.chance := by
  rw [← certainChance_iff, ← Rule.isCertain, hr]
  exact Bool.false_ne_true

theorem softOverlap_of_mem_findConflicts {conflict : Conflict} (hr : r.isCertain = false)
    (h : conflict ∈ findConflicts p tags existing fileName proposed)
    (hinvolves : conflict.Involves r) : conflict.severity = .softOverlap := by
  obtain ⟨i, other, npc, current, -, -, -, hconflict⟩ := mem_findConflicts.1 h
  obtain ⟨-, -, hbetween⟩ := conflictWith?_eq_some hconflict
  rw [hbetween.soft, ← hbetween.existing, ← hbetween.proposedChance]
  rintro ⟨hexisting, hproposed⟩
  rcases hinvolves with ⟨-, -, hsame⟩ | ⟨placed, rfl, hrecords⟩
  · exact not_isCertain hr (hsame ▸ hproposed)
  · exact not_isCertain hr (hrecords.chance ▸ hexisting)

/-- A conflict within a file is between two of its rules. -/
theorem exists_rules_of_mem_conflictsWithin {conflict : PairConflict}
    (h : conflict ∈ conflictsWithin p tags proposed) :
    ∃ npc, ∃ first ∈ proposed, ∃ second ∈ proposed, conflict = .ofRules npc first second := by
  rw [conflictsWithin_eq] at h
  obtain ⟨⟨x, y⟩, hpair, hmem⟩ := List.mem_flatMap.1 h
  obtain ⟨i, -, hi⟩ := List.mem_filterMap.1 hmem
  obtain ⟨npc, -, rfl⟩ := Option.map_eq_some_iff.1 hi
  obtain ⟨hx, hy, -⟩ := mem_laterPairs_zipIdx.1 hpair
  exact ⟨npc.npc, x.1, List.mem_of_getElem? hx, y.1, List.mem_of_getElem? hy, rfl⟩

theorem softOverlap_of_involves {conflict : PairConflict} (hr : r.isCertain = false)
    (hinvolves : conflict.Involves r) : conflict.severity = .softOverlap := by
  obtain ⟨npc, other, rfl | rfl⟩ := hinvolves
  · exact (PairConflict.isBetween_ofRules npc r other).soft.2 fun h => not_isCertain hr h.1
  · exact (PairConflict.isBetween_ofRules npc other r).soft.2 fun h => not_isCertain hr h.2

end Conflicts

/-- A rule with a plain decimal number for its chance is certain from 99.5 on, less half a unit in
the last place.  Below that, each conflict that has the rule on one of its sides is a soft overlap,
with other files and within one. -/
theorem Spid.isCertain_iff_of_readRuleLine (h : readRuleLine c .spid n line = .rules rules) :
    ∃ name value, entryShape? (Text.trim (withoutComment line)) = some (name, value) ∧
      ∀ r ∈ rules, ∀ t v, field? (splitFields (Text.trim value)) 6 = some t →
        Numeral.IsPlain t v →
        (r.isCertain = true ↔ 199 / 2 - 1 / 2 ^ 18 ≤ v) ∧
        (v < 199 / 2 - 1 / 2 ^ 18 →
          (∀ p tags existing fileName proposed,
            ∀ conflict ∈ findConflicts p tags existing fileName proposed,
              (∃ other ∈ proposed, conflict.Proposes other) ∧
                (conflict.Involves r → conflict.severity = .softOverlap)) ∧
          ∀ p tags proposed, ∀ conflict ∈ conflictsWithin p tags proposed,
            (∃ npc, ∃ first ∈ proposed, ∃ second ∈ proposed,
                conflict = .ofRules npc first second) ∧
              (conflict.Involves r → conflict.severity = .softOverlap)) := by
  obtain ⟨name, value, type, r, hshape, rfl, hrule⟩ := rules_of_readLine (readRuleLine_eq_rules h)
  refine ⟨name, value, hshape, ?_⟩
  rw [List.forall_mem_singleton]
  intro t v hfield ht
  have hcertain := isCertain_iff_of_assemble hrule hfield ht
  refine ⟨hcertain, fun hlt => ?_⟩
  have hr : r.isCertain = false := by
    rw [Bool.eq_false_iff, Ne, hcertain]
    exact not_le.2 hlt
  constructor
  · intro p tags existing fileName proposed conflict hconflict
    exact ⟨proposes_of_mem_findConflicts hconflict, softOverlap_of_mem_findConflicts hr hconflict⟩
  · intro p tags proposed conflict hconflict
    exact ⟨exists_rules_of_mem_conflictsWithin hconflict, softOverlap_of_involves hr⟩

/-! The guards in mail and everyone in a gown: whether the first rule counts as certain is decided
by the rounding of its chance. -/

def mailAt (written : Text) (chance : UInt8) : Rule where
  dialect := .spid
  lineNumber := 1
  raw := "Outfit = Mail|Guard|NONE|NONE|NONE|NONE|" ++ written
  target := .outfit .default (.form .outfit ⟨"Armors.esp", 1⟩ (some "Mail"))
  filters := { Filters.empty with strings := .anyOf [⟨"Guard", false, false⟩] }
  chance := some chance
  extra := none

def gownForAll : Rule where
  dialect := .spid
  lineNumber := 2
  raw := "Outfit = Gown"
  target := .outfit .default (.form .outfit ⟨"Armors.esp", 2⟩ (some "Gown"))
  filters := .empty
  chance := none
  extra := none

theorem mailAt_below_soft :
    readRuleLine cloakroom .spid 1 "Outfit = Mail|Guard|NONE|NONE|NONE|NONE|99.499" =
        .rules [mailAt "99.499" 99] ∧
      Numeral.IsPlain "99.499" (99499 / 1000) ∧ (mailAt "99.499" 99).isCertain = false ∧
      ∃ conflict ∈ conflictsWithin nightWatch (.none 3) [mailAt "99.499" 99, gownForAll],
        conflict.severity = .softOverlap := by
  have hread : readRuleLine cloakroom .spid 1 "Outfit = Mail|Guard|NONE|NONE|NONE|NONE|99.499" =
      .rules [mailAt "99.499" 99] := by decide +kernel
  have hline : Spid.entryShape? (Text.trim (withoutComment
      "Outfit = Mail|Guard|NONE|NONE|NONE|NONE|99.499")) =
      some ("Outfit".toList, "Mail|Guard|NONE|NONE|NONE|NONE|99.499".toList) := by decide +kernel
  have hplain : Numeral.IsPlain "99.499" (99499 / 1000) := by
    have hpoint := @Numeral.IsPlain.point "99" "499" (by decide)
      (Text.forall_mem_of_all (by decide)) (Text.forall_mem_of_all (by decide))
    have hnumber : Text.number ("99" ++ "499") = 99499 := by decide +kernel
    have hlength : "499".toList.length = 3 := rfl
    have hvalue : ((99499 : Nat) : ℚ) / 10 ^ 3 = 99499 / 1000 := by norm_num
    rw [Numeral.number_point, hnumber, hlength, hvalue] at hpoint
    exact hpoint
  obtain ⟨name, value, hshape, hrules⟩ := Spid.isCertain_iff_of_readRuleLine hread
  obtain ⟨rfl, rfl⟩ := Prod.mk.inj (Option.some.inj (hline.symm.trans hshape))
  obtain ⟨hcertain, hsoft⟩ :=
    hrules (mailAt "99.499" 99) List.mem_cons_self _ _ (by decide +kernel) hplain
  have hexists : ∃ conflict,
      conflict ∈ conflictsWithin nightWatch (.none 3) [mailAt "99.499" 99, gownForAll] ∧
        conflict = .ofRules (recruit 1 "Guard") (mailAt "99.499" 99) gownForAll :=
    ⟨_, by decide +kernel, rfl⟩
  obtain ⟨conflict, hmem, hof⟩ := hexists
  refine ⟨hread, hplain, ?_, conflict, hmem, ?_⟩
  · rw [Bool.eq_false_iff, Ne, hcertain]
    norm_num
  · exact ((hsoft (by norm_num)).2 _ _ _ conflict hmem).2 ⟨_, _, .inl hof⟩

/-- A chance of 99.6 makes a hard conflict. -/
theorem mailAt_above_hard :
    readRuleLine cloakroom .spid 1 "Outfit = Mail|Guard|NONE|NONE|NONE|NONE|99.6" =
        .rules [mailAt "99.6" 100] ∧
      Spid.field? (Spid.splitFields "Mail|Guard|NONE|NONE|NONE|NONE|99.6") 6 =
        some "99.6".toList ∧
      Numeral.IsPlain "99.6" (996 / 10) ∧ (996 / 10 : ℚ) < 100 ∧
      (mailAt "99.6" 100).isCertain = true ∧
      ∃ conflict ∈ conflictsWithin nightWatch (.none 3) [mailAt "99.6" 100, gownForAll],
        conflict.Involves (mailAt "99.6" 100) ∧ conflict.severity = .hardConflict := by
  have hplain : Numeral.IsPlain "99.6" (996 / 10) := by
    have hpoint := @Numeral.IsPlain.point "99" "6" (by decide)
      (Text.forall_mem_of_all (by decide)) (Text.forall_mem_of_all (by decide))
    have hnumber : Text.number ("99" ++ "6") = 996 := by decide +kernel
    have hlength : "6".toList.length = 1 := rfl
    have hvalue : ((996 : Nat) : ℚ) / 10 ^ 1 = 996 / 10 := by norm_num
    rw [Numeral.number_point, hnumber, hlength, hvalue] at hpoint
    exact hpoint
  exact ⟨by decide +kernel, by decide +kernel, hplain, by norm_num, rfl,
    .ofRules (recruit 1 "Guard") (mailAt "99.6" 100) gownForAll, by decide +kernel,
    ⟨_, _, .inl rfl⟩, rfl⟩

end Wardrobe
