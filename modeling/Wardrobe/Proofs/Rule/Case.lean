import Wardrobe.Proofs.SkyPatcher.Case
import Wardrobe.Proofs.Spid.Case
import Wardrobe.RuleFile
/-
Neither format sees the case of ASCII letters.

A line and its small form come to the same, up to the case of the literals that a rule keeps.  Two
lines that differ in case alone have one small form, and so their rules mean the same: what a rule
keeps of a literal is compared in lower case, or as a file name, wherever it is used.
-/

namespace Wardrobe

open Text

/-! ## Lines and their small forms -/

theorem withoutComment_asciiLower (line : Text) :
    withoutComment (asciiLower line) = asciiLower (withoutComment line) := by
  have hsemicolon (c : Char) : decide (c.toLower ≠ ';') = decide (c ≠ ';') :=
    decide_eq_decide.2 (not_congr (toLower_eq_iff (by decide)))
  have hsign : (asciiLower (trimStart line)).head? = some '#' ↔
      (trimStart line).head? = some '#' := head?_asciiLower (by decide)
  rw [withoutComment, withoutComment, trimStart_asciiLower]
  simp only [hsign, takeWhile_asciiLower (p := fun c => decide (c ≠ ';')) hsemicolon]
  split <;> rfl

theorem isSectionHeader_asciiLower (t : Text) :
    isSectionHeader (asciiLower t) = isSectionHeader t := by
  rw [isSectionHeader, isSectionHeader]
  simp only [head?_asciiLower (c := '[') (by decide), getLast?_asciiLower (c := ']') (by decide)]

theorem readRuleLine_asciiLower (c : Catalog) (dialect : Dialect) (n n' : Nat) (line : Text) :
    (readRuleLine c dialect n line).Agree Rule.SameButCase
      (readRuleLine c dialect n' (asciiLower line)) := by
  unfold readRuleLine
  simp only [withoutComment_asciiLower, trim_asciiLower, isEmpty_asciiLower,
    isSectionHeader_asciiLower]
  split
  · split
    · exact .ignored .blank
    · exact .ignored .comment
  split
  · exact .ignored .sectionHeader
  cases dialect with
  | spid => exact Spid.readLine_asciiLower c n n' _
  | skyPatcher => exact SkyPatcher.readLine_asciiLower c n n' _

/-! ## Rules that mean the same -/

/-- The parts have the same flags and name the same thing. -/
structure Criterion.Part.NamesTheSame (p p' : Criterion.Part Reference) : Prop where
  value : p.value.same p'.value = true
  negated : p.negated = p'.negated
  wildcard : p.wildcard = p'.wildcard

/-- The rules set the same slot to the same outfit or give the same tag, ask for the same, and so
are for the same characters and depend on the same tags.  Strings may be spelled in another case,
and plugins in another case of ASCII letters. -/
structure Rule.MeansTheSame (r r' : Rule) : Prop where
  slot : r.target.slot? = r'.target.slot?
  outfit : ∀ slot ref, r.target = .outfit slot ref ↔ r'.target = .outfit slot ref
  tag : r.target.tag? = r'.target.tag?
  strings : r.filters.strings.map lower = r'.filters.strings.map lower
  forms : List.Forall₂ (List.Forall₂ Criterion.Part.NamesTheSame)
    r.filters.forms.expressions r'.filters.forms.expressions
  levels : r.filters.levels = r'.filters.levels
  traits : r.filters.traits = r'.filters.traits
  chance : r.chance = r'.chance
  satisfies : ∀ s : Subject, s.satisfies r.filters = s.satisfies r'.filters
  tagsNamed : r.filters.tagsNamed = r'.filters.tagsNamed

theorem Reference.same_of_lowered {ref ref' : Reference} (h : ref.lowered = ref'.lowered) :
    ref.same ref' = true := by
  cases ref with
  | form kind key editorId =>
    cases ref' with
    | form kind' key' editorId' =>
      obtain ⟨rfl, rfl, rfl⟩ := Reference.form.inj h
      rw [same, beq_self_eq_true, Bool.true_and]
      exact FormKey.same_refl key
    | plugin name => cases h
  | plugin name =>
    cases ref' with
    | form kind key editorId => cases h
    | plugin name' => exact sameAscii_iff.2 (Reference.plugin.inj h)

theorem forall₂_of_map_eq_map {f : α → β} {as bs : List α} (h : as.map f = bs.map f) :
    List.Forall₂ (fun a b => f a = f b) as bs := by
  have heq : List.Forall₂ Eq (as.map f) (bs.map f) := List.forall₂_eq_eq_eq ▸ h
  exact List.forall₂_map_right_iff.1 (List.forall₂_map_left_iff.1 heq)

theorem namesTheSame_of_lowered {s s' : Criterion Reference}
    (h : s.map Reference.lowered = s'.map Reference.lowered) :
    List.Forall₂ (List.Forall₂ Criterion.Part.NamesTheSame) s.expressions s'.expressions := by
  refine (forall₂_of_map_eq_map (Criterion.mk.inj h)).imp fun e e' he => ?_
  refine (forall₂_of_map_eq_map he).imp fun p p' hp => ?_
  obtain ⟨hvalue, hnegated, hwildcard⟩ := Criterion.Part.mk.inj hp
  exact ⟨Reference.same_of_lowered hvalue, hnegated, hwildcard⟩

theorem Filters.lower_strings_lowered (f : Filters) :
    f.lowered.strings.map lower = f.strings.map lower := by
  rw [lowered, Criterion.map_map]
  congr 1
  exact funext lower_asciiLower

theorem Target.outfit_of_lowered {target target' : Target} (h : target.lowered = target'.lowered)
    {slot : Slot} {ref : Reference} (houtfit : target = .outfit slot ref) :
    target' = .outfit slot ref := by
  subst houtfit
  cases target' with
  | outfit slot' ref' => exact h.symm
  | keyword tag => cases h

theorem Target.slot?_lowered (target : Target) : target.lowered.slot? = target.slot? := by
  cases target <;> rfl

theorem Target.tag?_lowered (target : Target) : target.lowered.tag? = target.tag? := by
  cases target with
  | outfit slot ref => rfl
  | keyword tag => exact congrArg some (lower_asciiLower tag)

theorem Rule.SameButCase.meansTheSame {r r' : Rule} (h : r.SameButCase r') :
    r.MeansTheSame r' where
  slot := by rw [← Target.slot?_lowered, h.target, Target.slot?_lowered]
  outfit _ _ := ⟨Target.outfit_of_lowered h.target, Target.outfit_of_lowered h.target.symm⟩
  tag := by rw [← Target.tag?_lowered, h.target, Target.tag?_lowered]
  strings := by
    rw [← Filters.lower_strings_lowered, h.filters, Filters.lower_strings_lowered]
  forms := namesTheSame_of_lowered (congrArg Filters.forms h.filters)
  levels := congrArg (·.levels) h.filters
  traits := congrArg (·.traits) h.filters
  chance := h.chance
  satisfies s := by rw [← s.satisfies_lowered, h.filters, s.satisfies_lowered]
  tagsNamed := by rw [← Filters.tagsNamed_lowered, h.filters, Filters.tagsNamed_lowered]

/-! ## Two lines -/

/-- Lines that differ in the case of ASCII letters alone come to the same kind of outcome, and to
rules that mean the same. -/
theorem readRuleLine_agree_of_sameAscii {line line' : Text}
    (h : sameAscii line line' = true) (c : Catalog) (dialect : Dialect) (n n' : Nat) :
    (readRuleLine c dialect n line).Agree Rule.MeansTheSame (readRuleLine c dialect n' line') := by
  have hline := readRuleLine_asciiLower c dialect n n line
  have hline' := readRuleLine_asciiLower c dialect n' n line'
  rw [← sameAscii_iff.1 h] at hline'
  refine hline.of_common hline' fun r m r' hr hr' => Rule.SameButCase.meansTheSame ?_
  exact ⟨hr.dialect.trans hr'.dialect.symm, hr.target.trans hr'.target.symm,
    hr.filters.trans hr'.filters.symm, hr.chance.trans hr'.chance.symm⟩

/-! An entry with names, a plugin, a flag and a chance with an exponent, and a line of clauses. -/

def watch : Catalog := .ofRecords [⟨⟨"Watch.esp", 1⟩, .outfit, some "WatchArmor", none⟩] [] []

def watchEntry : Text := "Keyword = NightWatch|*Guard,-Bandit|Watch.esp|5/20|F|NONE|5e1"

def watchEntryInCapitals : Text := "KEYWORD = NIGHTWATCH|*GUARD,-BANDIT|WATCH.ESP|5/20|F|none|5E1"

def watchEntryRule : Rule where
  dialect := .spid
  lineNumber := 1
  raw := watchEntry
  target := .keyword "NightWatch"
  filters :=
    ⟨⟨[[⟨"Guard", false, true⟩], [⟨"Bandit", true, false⟩]]⟩,
     ⟨[[⟨.plugin "Watch.esp", false, false⟩]]⟩,
     [⟨none, 5, some 20⟩], ⟨some true, none, none, none, none⟩⟩
  chance := some 50
  extra := none

def watchClauses : Text := "filterByModNamesExcluded=Watch.esp:outfitSleep=1~Watch.esp"

def watchClausesInCapitals : Text := "FILTERBYMODNAMESEXCLUDED=WATCH.ESP:OUTFITSLEEP=1~WATCH.ESP"

def watchClausesRule : Rule where
  dialect := .skyPatcher
  lineNumber := 1
  raw := watchClauses
  target := .outfit .sleep (.form .outfit ⟨"Watch.esp", 1⟩ (some "WatchArmor"))
  filters := ⟨.empty, ⟨[[⟨.plugin "Watch.esp", true, false⟩]]⟩, [], .empty⟩
  chance := none
  extra := none

theorem watch_agree :
    readRuleLine watch .spid 1 watchEntry = .rules [watchEntryRule] ∧
      readRuleLine watch .skyPatcher 1 watchClauses = .rules [watchClausesRule] ∧
      (readRuleLine watch .spid 1 watchEntry).Agree Rule.MeansTheSame
        (readRuleLine watch .spid 2 watchEntryInCapitals) ∧
      (readRuleLine watch .skyPatcher 1 watchClauses).Agree Rule.MeansTheSame
        (readRuleLine watch .skyPatcher 2 watchClausesInCapitals) :=
  ⟨by decide +kernel, by decide +kernel,
    readRuleLine_agree_of_sameAscii (by decide) watch .spid 1 2,
    readRuleLine_agree_of_sameAscii (by decide) watch .skyPatcher 1 2⟩

end Wardrobe
