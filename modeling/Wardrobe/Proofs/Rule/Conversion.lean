import Wardrobe.Proofs.SkyPatcher.NormalForm
import Wardrobe.Proofs.Spid.RoundTrip
/-
Rules read from a line of one format and written as a line of the other.

Each format has its own marks, and neither printer quotes a value that holds a mark of its format.
SkyPatcher keys also say of what kind a record is, where an entry only has its editor id.  So a
value that was fine where it came from can be cut up, or name another record, where it goes to.
Apart from such values a converted rule is read back as the rule it was.
-/

namespace Wardrobe

variable {c : Catalog} {n : Nat} {key value line : Text} {rules : List Rule} {r : Rule}

/-! ## From clauses to entries -/

/-- No value of the rule is cut up or taken for something else in an entry: texts and names have no
marks of an entry in them and do not begin with one. -/
structure Rule.FitsEntry (r : Rule) : Prop where
  outfit : ∀ slot ref, r.target = .outfit slot ref → Spid.IsFieldText ref.spidText
  texts : ∀ p ∈ r.filters.strings.parts, '+' ∉ p.value ∧ '|' ∉ p.value ∧
    p.value.head? ≠ some '*' ∧ (p.negated = false → p.value.head? ≠ some '-')
  forms : ∀ p ∈ r.filters.forms.parts, Spid.IsEntryPart (Spid.spelled p)
  oneLine : '\n' ∉ Spid.render r

/-- What is written for a reference of the rule in an entry is found as this reference. -/
structure Rule.NamesAreFound (c : Catalog) (r : Rule) : Prop where
  outfit : ∀ slot ref, r.target = .outfit slot ref → c.resolveAs .outfit ref.spidText = some ref
  forms : ∀ p ∈ r.filters.forms.parts, c.resolve p.value.spidText = some p.value

namespace Spid

variable {slot : Slot} {ref : Reference}

theorem isLaidOut_of_fitsEntry (h : SkyPatcher.IsOfLine c r) (hfits : r.FitsEntry) :
    IsLaidOut r := by
  obtain ⟨slot, ref, htarget⟩ := h.target
  refine ⟨?_, fun e he => ⟨(h.areOfClauses.strings e he).1, fun p hp => ?_⟩,
    fun e he => ⟨(h.areOfClauses.forms e he).1, fun p hp => ?_⟩, ?_, ?_⟩
  · rw [htarget]
    exact hfits.outfit slot ref htarget
  · have hmem : p ∈ r.filters.strings.parts := List.mem_flatten.2 ⟨e, he, hp⟩
    obtain ⟨hwild, hcomma⟩ := (h.areOfClauses.strings e he).2 p hp
    obtain ⟨hpiece, hsemicolon⟩ := h.haveKnownParts.strings p hmem
    obtain ⟨hplus, hbar, hstar, hminus⟩ := hfits.texts p hmem
    -- The star behind a wildcard keeps what stands before it from being a mark or a gap.
    refine ⟨⟨hpiece, hcomma, hplus, hstar, fun hw => ?_, hminus⟩, hbar, hsemicolon,
      fun _ hw => ?_⟩ <;>
    · rw [hwild] at hw
      cases hw
  · exact ⟨(h.areOfClauses.forms e he).2 p hp,
      hfits.forms p (List.mem_flatten.2 ⟨e, he, hp⟩)⟩
  · rw [h.extra]
    exact fun _ hx => by cases hx
  · rw [h.chance]
    exact fun _ hx => by cases hx

theorem readTarget_outfit_iff {literal : Text} :
    readTarget c (.outfit slot) literal = .ok (.outfit slot ref) ↔
      c.resolveAs .outfit literal = some ref := by
  rw [readTarget]
  cases c.resolveAs .outfit literal <;> simp

theorem areFound_iff : AreFound c r.filters.forms ↔
    ∀ p ∈ r.filters.forms.parts, c.resolve p.value.spidText = some p.value := by
  simp only [AreFound, Criterion.parts, List.mem_flatten, forall_exists_index, and_imp]
  exact ⟨fun h p e he hp => h e he p hp, fun h e he p hp => h p e he hp⟩

/-- A rule of a SkyPatcher line that fits an entry comes back from it with the same slot, outfit
and filters just when all its names are found. -/
theorem reads_back_iff_namesAreFound
    (hread : readRuleLine c .skyPatcher n line = .rules rules) (hr : r ∈ rules)
    (hfits : r.FitsEntry) (m : Nat) :
    r.render .spid = .ok (render r) ∧
      ((∃ r', readRuleLine c .spid m (render r) = .rules [r'] ∧ r'.target = r.target ∧
        r'.filters = r.filters) ↔ r.NamesAreFound c) := by
  have hof := SkyPatcher.isOfLine_readRuleLine hread hr
  obtain ⟨slot, ref, htarget⟩ := hof.target
  have hlaid := isLaidOut_of_fitsEntry hof hfits
  refine ⟨rfl, fun hback => ?_, fun hfound => ?_⟩
  · obtain ⟨r', hr', htarget', hfilters⟩ := hback
    obtain ⟨hreadTarget, hforms⟩ := hlaid.areFound_of_readRuleLine hfits.oneLine hr' htarget'
      (congrArg Filters.forms hfilters)
    refine ⟨fun slot' ref' htarget'' => ?_, areFound_iff.1 hforms⟩
    rw [htarget''] at hreadTarget
    exact readTarget_outfit_iff.1 hreadTarget
  · -- The printer looks at the target and the filters only, so the text is that of either rule.
    have hwritten : IsWritten c { r with dialect := .spid, lineNumber := m } := by
      refine ⟨⟨hlaid.target, hlaid.strings, hlaid.forms, hlaid.extra, hlaid.chance⟩, rfl, ?_,
        areFound_iff.2 hfound.forms⟩
      dsimp only
      rw [htarget]
      exact readTarget_outfit_iff.2 (hfound.outfit slot ref htarget)
    have hagain : readRuleLine c .spid m (render r) = if '\n' ∈ render r then
        .unparseable .noEntry
        else .rules [{ r with dialect := .spid, lineNumber := m, raw := render r }] :=
      hwritten.readRuleLine
    rw [if_neg hfits.oneLine] at hagain
    exact ⟨_, hagain, rfl, rfl⟩

/-! In a game with plain names every reference is found under its text, so it is left to ask that no
text and no plugin is taken for something else. -/

theorem namesAreFound_of_hasPlainNames (hc : HasPlainNames c)
    (hread : readRuleLine c .skyPatcher n line = .rules rules) (hr : r ∈ rules) :
    r.NamesAreFound c := by
  obtain ⟨hparts, htargets⟩ := haveKnownParts_readRuleLine hread r hr
  refine ⟨fun slot ref htarget => ?_, fun p hp => resolve_spidText hc (hparts.forms p hp)⟩
  have hknows := htargets slot ref htarget
  obtain ⟨key, editorId, href⟩ := (isReadAs_readRuleLine hread r hr).outfit slot ref htarget
  cases hknows with
  | plugin => cases href
  | form record hfind =>
    have hkind : record.kind = .outfit := (Reference.form.inj href).1
    have hagain := resolveAs_spidText hc hfind
    rwa [hkind] at hagain

theorem fitsEntry_of_hasPlainNames (hc : HasPlainNames c)
    (hread : readRuleLine c .skyPatcher n line = .rules rules) (hr : r ∈ rules)
    (htexts : ∀ p ∈ r.filters.strings.parts, '+' ∉ p.value ∧ '|' ∉ p.value ∧
      p.value.head? ≠ some '*' ∧ (p.negated = false → p.value.head? ≠ some '-'))
    (hplugins : ∀ p ∈ r.filters.forms.parts, ∀ name, p.value = .plugin name →
      name.head? ≠ some '*' ∧ (p.negated = false → name.head? ≠ some '-'))
    (hline : '\n' ∉ render r) : r.FitsEntry := by
  have hof := SkyPatcher.isOfLine_readRuleLine hread hr
  refine ⟨fun slot ref htarget => ?_, htexts, fun p hp => ?_, hline⟩
  · exact isFieldText_reference hc ((haveKnownParts_readRuleLine hread r hr).2 slot ref htarget)
  · have hknows := hof.haveKnownParts.forms p hp
    obtain ⟨e, he, hpe⟩ := List.mem_flatten.1 hp
    have hwild := (hof.areOfClauses.forms e he).2 p hpe
    refine (isFieldText_reference hc hknows).isEntryPart ?_
    have hplugin := hplugins p hp
    obtain ⟨ref, negated, wildcard⟩ := p
    obtain rfl : wildcard = false := hwild
    cases hknows with
    | form record hfind => exact isWritable_reference hc hfind negated
    | plugin name hpiece hfile hknown =>
      have hplain := hc.plugins name hknown
      obtain ⟨hstar, hminus⟩ := hplugin name rfl
      exact ⟨hpiece, hplain ',' (by decide), hplain '+' (by decide), hstar,
        fun _ => getLast?_of_isPluginFile hfile, hminus⟩

def gownLine : Text :=
  "filterByFactionsOr=Guards,Estate.esp|0x2:filterByModNames=estate.esp:".toList ++
    "filterByEditorIdContainsExcluded=Child,None:filterByGender=female:outfitSleep=Livery"

def gownRule : Rule where
  dialect := .skyPatcher
  lineNumber := 1
  raw := gownLine
  target := .outfit .sleep (.form .outfit ⟨"Estate.esp", 5⟩ (some "Livery"))
  filters :=
    ⟨⟨[[⟨"Child", true, true⟩, ⟨"None", true, true⟩]]⟩,
     ⟨[[⟨.form .faction ⟨"Estate.esp", 1⟩ (some "Guards"), false, false⟩,
        ⟨.plugin "estate.esp", false, false⟩],
       [⟨.form .faction ⟨"Estate.esp", 2⟩ (some "Stewards"), false, false⟩,
        ⟨.plugin "estate.esp", false, false⟩]]⟩,
     [], ⟨some true, none, none, none, none⟩⟩
  chance := none
  extra := none

def gownWritten : Text :=
  "SleepOutfit = Livery|-Child*+-None*|Guards+estate.esp,Stewards+estate.esp|NONE|F"

theorem gown_reads_back :
    readRuleLine SkyPatcher.estate.game.catalog .skyPatcher 1 gownLine = .rules [gownRule] ∧
      gownRule.FitsEntry ∧ gownRule.render .spid = .ok gownWritten ∧
      ∃ r', readRuleLine SkyPatcher.estate.game.catalog .spid 1 gownWritten = .rules [r'] ∧
        r'.target = gownRule.target ∧ r'.filters = gownRule.filters := by
  have hplain : SkyPatcher.estate.HasPlainNames := by decide +kernel
  have hc := hplain.catalog SkyPatcher.read_estateText
  have hread : readRuleLine SkyPatcher.estate.game.catalog .skyPatcher 1 gownLine =
      .rules [gownRule] := by decide +kernel
  have hwritten : render gownRule = gownWritten := by decide +kernel
  have hplugins : ∀ p ∈ gownRule.filters.forms.parts, ∀ name, p.value = .plugin name →
      name.head? ≠ some '*' ∧ (p.negated = false → name.head? ≠ some '-') := by
    have hheads : ∀ p ∈ gownRule.filters.forms.parts,
        p.value.pluginName.head? ≠ some '*' ∧ p.value.pluginName.head? ≠ some '-' := by decide
    intro p hp name hname
    have hhead := hheads p hp
    rw [hname] at hhead
    exact ⟨hhead.1, fun _ => hhead.2⟩
  have hfits : gownRule.FitsEntry :=
    fitsEntry_of_hasPlainNames hc hread List.mem_cons_self (by decide) hplugins
      (by rw [hwritten]; decide)
  obtain ⟨hrender, hback⟩ := reads_back_iff_namesAreFound hread List.mem_cons_self hfits 1
  rw [hwritten] at hrender hback
  exact ⟨hread, hfits, hrender,
    hback.2 (namesAreFound_of_hasPlainNames hc hread List.mem_cons_self)⟩

/-! ## Names that are found as something else -/

def watch : Catalog :=
  .ofRecords
    [⟨⟨"Watch.esp", 1⟩, .faction, some "Guards", none⟩,
     ⟨⟨"Watch.esp", 2⟩, .keyword, some "Guards", none⟩,
     ⟨⟨"Watch.esp", 3⟩, .outfit, some "Mail", none⟩] [] []

def mailLine : Text := "filterByKeywords=Guards:outfitDefault=Mail"

def mailRule : Rule :=
  ⟨.skyPatcher, 1, mailLine, .outfit .default (.form .outfit ⟨"Watch.esp", 3⟩ (some "Mail")),
    { Filters.empty with
      forms := ⟨[[⟨.form .keyword ⟨"Watch.esp", 2⟩ (some "Guards"), false, false⟩]]⟩ },
    none, none⟩

/-- Someone with the keyword of the guards. -/
def sentinel : Npc where
  id := ⟨"Watch.esp", 4⟩
  name := none
  editorId := none
  sourcePlugin := "Watch.esp"
  factions := []
  keywords := [⟨⟨"Watch.esp", 2⟩, some "Guards"⟩]
  race := none
  combatClass := none
  defaultOutfit := none
  sleepOutfit := none
  combatStyle := none
  voiceType := none
  template := none
  level := 1
  skills := []
  traits := ⟨false, false, false, false, false⟩

def mailWritten : Text := "Outfit = Mail|NONE|Guards"

def mailMisread : Rule :=
  ⟨.spid, 1, mailWritten, mailRule.target,
    { Filters.empty with
      forms := ⟨[[⟨.form .faction ⟨"Watch.esp", 1⟩ (some "Guards"), false, false⟩]]⟩ },
    none, none⟩

/-- A faction shares the editor id of the keyword.  The key of the clause tells them apart, but an
entry looks among the factions first. -/
theorem mail_not_same :
    readRuleLine watch .skyPatcher 1 mailLine = .rules [mailRule] ∧
      mailRule.render .spid = .ok mailWritten ∧
      ¬ ∃ r', readRuleLine watch .spid 1 mailWritten = .rules [r'] ∧
        ∀ s : Subject, s.satisfies r'.filters = s.satisfies mailRule.filters := by
  have hread : readRuleLine watch .skyPatcher 1 mailLine = .rules [mailRule] := by decide +kernel
  have hrender : mailRule.render .spid = .ok mailWritten := by decide +kernel
  have hagain : readRuleLine watch .spid 1 mailWritten = .rules [mailMisread] := by decide +kernel
  refine ⟨hread, hrender, ?_⟩
  rintro ⟨r', hr', hsame⟩
  obtain rfl := List.singleton_inj.1 (LineOutcome.rules.inj (hagain.symm.trans hr'))
  have hsentinel := hsame ⟨sentinel, .ofNpc sentinel, []⟩
  revert hsentinel
  decide

end Spid

/-! ## From entries to clauses -/

namespace SkyPatcher

end SkyPatcher
end Wardrobe
