import Wardrobe.Proofs.Rule.Parts
/-
What can be relied on in every rule that was read from a line.

Whoever matches, compares or writes rules takes it for granted that an outfit has a key, that
references are in the catalog and that criteria ask for something.  None of it depends on the line:
a line that would give another rule gives none.
-/

namespace Wardrobe

variable {c : Catalog} {dialect : Dialect} {n : Nat} {line raw t : Text} {rules : List Rule}
  {r : Rule}

/-- The marks that values stand between.  An equals sign is none of them: a clause is cut at its
first one and an entry at the first one of all, and what follows may hold more. -/
def Dialect.separators : Dialect → List Char
  | .skyPatcher => [':', ',']
  | .spid => ['|', ',', '+']

/-- A rule as the readers of lines make it. -/
structure Rule.IsWellFormed (c : Catalog) (d : Dialect) (n : Nat) (t : Text) (r : Rule) : Prop
    extends r.IsReadAs d where
  lineNumber : r.lineNumber = n
  raw : r.raw = t
  references : ∀ ref ∈ r.references, c.Knows ref
  strings : r.filters.strings.ConsistsOf fun p =>
    Text.IsPiece p.value ∧ ∀ mark ∈ d.separators, mark ∉ p.value
  forms : r.filters.forms.ConsistsOf fun p => p.wildcard = false
  chance : ∀ chance ∈ r.chance, 1 ≤ chance.toNat ∧ chance.toNat ≤ 100

/-- A rule that can be said in clauses: an outfit, and filters without levels, traits other than
the sex, whole editor ids, a chance or anything else that only an entry has a field for. -/
structure Rule.IsOfClauses (r : Rule) : Prop where
  target : ∃ slot ref, r.target = .outfit slot ref
  wildcard : ∀ p ∈ r.filters.strings.parts, p.wildcard = true
  levels : r.filters.levels = []
  traits : r.filters.traits = { Traits.Wanted.empty with female := r.filters.traits.female }
  chance : r.chance = none
  extra : r.extra = none

theorem knows_of_mem_references (h : r.filters.HaveKnownParts c)
    (htarget : ∀ slot ref, r.target = .outfit slot ref → c.Knows ref) :
    ∀ ref ∈ r.references, c.Knows ref := by
  intro ref href
  rcases List.mem_append.1 href with href | href
  · cases hown : r.target with
    | outfit slot own =>
      rw [hown] at href
      obtain rfl := List.mem_singleton.1 href
      exact htarget slot ref hown
    | keyword tag =>
      rw [hown] at href
      cases href
  · obtain ⟨p, hp, rfl⟩ := List.mem_map.1 href
    exact h.forms p hp

/-- What is the same for both formats in a well-formed rule. -/
theorem isWellFormed_of_parts (h : readRuleLine c dialect n line = .rules rules) (hr : r ∈ rules)
    (hstrings : r.filters.strings.ConsistsOf fun p => ∀ mark ∈ dialect.separators, mark ∉ p.value)
    (hforms : r.filters.forms.ConsistsOf fun p => p.wildcard = false)
    (hchance : ∀ chance ∈ r.chance, 1 ≤ chance.toNat ∧ chance.toNat ≤ 100) :
    r.IsWellFormed c dialect n (Text.trim (withoutComment line)) := by
  obtain ⟨hlineNumber, hraw⟩ := origin_of_readRuleLine h r hr
  obtain ⟨hknown, htarget⟩ := haveKnownParts_readRuleLine h r hr
  exact {
    toIsReadAs := isReadAs_readRuleLine h r hr
    lineNumber := hlineNumber
    raw := hraw
    references := knows_of_mem_references hknown htarget
    strings := hstrings.mono fun p hp hmarks => ⟨(hknown.strings p hp).1, hmarks⟩
    forms := hforms
    chance := hchance }

/-! ## Entries -/

namespace Spid

theorem IsStringPart.not_mem {p : Criterion.Part Text} (h : IsStringPart t p) :
    ∀ mark ∈ Dialect.spid.separators, mark ∉ p.value := by
  obtain ⟨field, hfield, hpart⟩ := h
  intro mark hmark
  simp only [Dialect.separators, List.mem_cons, List.not_mem_nil, or_false] at hmark
  rcases hmark with rfl | rfl | rfl
  · exact fun hbar => hfield.bar (hpart.subset hbar)
  · exact hpart.comma
  · exact hpart.plus

theorem isWellFormed_readRuleLine (h : readRuleLine c .spid n line = .rules rules) :
    ∀ r ∈ rules, r.IsWellFormed c .spid n (Text.trim (withoutComment line)) := by
  intro r hr
  have hfrom := isReadFrom_readLine (readRuleLine_eq_rules h) r hr
  have hstrings : r.filters.strings.ConsistsOf (IsStringPart _) := hfrom.strings
  have hforms : r.filters.forms.ConsistsOf (IsFormPart c _) := hfrom.forms
  exact isWellFormed_of_parts h hr (hstrings.mono fun _ _ hpart => hpart.not_mem)
    (hforms.mono fun _ _ hpart => hpart.wildcard) hfrom.chance

end Spid

/-! ## Lines of clauses -/

/-- What clauses have no words for is left as it was, and no text goes on behind a colon. -/
structure Filters.AreWithinClauses (f : Filters) : Prop where
  strings : ∀ p ∈ f.strings.parts, ':' ∉ p.value
  levels : f.levels = []
  traits : f.traits = { Traits.Wanted.empty with female := f.traits.female }

namespace SkyPatcher

variable {f : Field} {mode : Mode} {key value : Text} {before : Filters}

theorem areWithinClauses_readClause {filter : ClauseFilter} (hbefore : before.AreWithinClauses)
    (hcolon : ':' ∉ value) (h : readClause c f mode key value = .ok filter) :
    (addClause before filter).AreWithinClauses := by
  rcases readClause_cases h with ⟨female, rfl⟩ | rfl | ⟨refs, -, rfl⟩
  · refine { hbefore with traits := ?_ }
    rw [addClause, hbefore.traits]
  · refine { hbefore with strings := fun p hp => ?_ }
    rcases Criterion.mem_parts_and hp with hp | hp
    · exact hbefore.strings p hp
    · obtain ⟨v, hv, rfl⟩ := List.mem_map.1 (mem_of_mem_parts_criterionOf hp)
      exact fun hc => hcolon ((Text.mem_pieces hv).2.2 hc)
  · exact { hbefore with }

theorem areWithinClauses_readLine (h : readLine c n t = .rules rules) :
    ∀ r ∈ rules, r.filters.AreWithinClauses := by
  obtain ⟨hsplit, filters, hfilters, hrules⟩ := filters_of_readLine h
  intro r hr
  rw [hrules r hr]
  have hempty : Filters.empty.AreWithinClauses :=
    ⟨fun p hp => absurd hp List.not_mem_nil, rfl, rfl⟩
  refine of_foldlM_addKeyValue hempty (fun kv hkv _ _ _ _ hbefore => ?_) hfilters
  exact areWithinClauses_readClause hbefore (value_of_splitClauses hsplit kv hkv).2

/-- A line without anything to wear gives no rules at all, not an empty list of them. -/
theorem ne_nil_of_readLine (h : readLine c n t = .rules rules) : rules ≠ [] := by
  rw [readLine] at h
  split at h
  · cases h
  next kvs hsplit =>
    split at h
    · cases h
    next hsome =>
      split at h
      next rules' hrules =>
        obtain rfl := LineOutcome.rules.inj h
        obtain ⟨_, -, hassignments⟩ := bind_eq_ok.1 hrules
        have hlength := (forall₂_of_mapM_eq_ok hassignments).length_eq
        rintro rfl
        exact hsome (List.isEmpty_iff.2 (List.length_eq_zero_iff.1 hlength))
      next => cases h

theorem isWellFormed_readRuleLine (h : readRuleLine c .skyPatcher n line = .rules rules) :
    ∀ r ∈ rules, r.IsWellFormed c .skyPatcher n (Text.trim (withoutComment line)) ∧
      r.IsOfClauses := by
  have hread := readRuleLine_eq_rules h
  intro r hr
  have hof := isOfLine_readRuleLine h hr
  have hwithin := areWithinClauses_readLine hread r hr
  have hmarks : r.filters.strings.ConsistsOf fun p =>
      ∀ mark ∈ Dialect.skyPatcher.separators, mark ∉ p.value := by
    refine hof.areOfClauses.strings.mono fun p hp hpart => ?_
    simp only [Dialect.separators, List.forall_mem_cons, List.not_mem_nil, false_implies,
      implies_true, and_true]
    exact ⟨hwithin.strings p hp, hpart.2⟩
  refine ⟨isWellFormed_of_parts h hr hmarks hof.areOfClauses.forms ?_, {
    target := hof.target
    wildcard := fun p hp => (hof.areOfClauses.strings.of_mem_parts hp).1
    levels := hwithin.levels
    traits := hwithin.traits
    chance := hof.chance
    extra := hof.extra }⟩
  rw [hof.chance]
  exact fun _ hx => by cases hx

end SkyPatcher

/-- Every line that gives rules gives at least one, and only well-formed ones for the same
characters.  Those of a line of clauses can all be said in clauses. -/
theorem isWellFormed_of_readRuleLine (h : readRuleLine c dialect n line = .rules rules) :
    rules ≠ [] ∧
    (∀ r ∈ rules, r.IsWellFormed c dialect n (Text.trim (withoutComment line))) ∧
    (∀ r ∈ rules, ∀ r' ∈ rules, r.filters = r'.filters) ∧
    (dialect = .skyPatcher → ∀ r ∈ rules, r.IsOfClauses) := by
  have hread := readRuleLine_eq_rules h
  have hfilters := filters_eq_of_readRuleLine h
  cases dialect with
  | spid =>
    refine ⟨?_, Spid.isWellFormed_readRuleLine h, hfilters, nofun⟩
    obtain ⟨_, _, _, r, -, rfl, -⟩ := Spid.rules_of_readLine hread
    exact List.cons_ne_nil r []
  | skyPatcher =>
    have hrules := SkyPatcher.isWellFormed_readRuleLine h
    exact ⟨SkyPatcher.ne_nil_of_readLine hread, fun r hr => (hrules r hr).1, hfilters,
      fun _ r hr => (hrules r hr).2⟩

def wardenLine : Text :=
  "filterByFactions=Guards:filterByEditorIdContains=Gate = North:outfitDefault=Parade ; by night"

def wardenRule : Rule where
  dialect := .skyPatcher
  lineNumber := 3
  raw := "filterByFactions=Guards:filterByEditorIdContains=Gate = North:outfitDefault=Parade"
  target := .outfit .default (.form .outfit ⟨"Skyrim.esm", 3⟩ (some "Parade"))
  filters := {
    Filters.empty with
    strings := ⟨[[⟨"Gate = North", false, true⟩]]⟩
    forms := ⟨[[⟨.form .faction ⟨"Skyrim.esm", 1⟩ (some "Guards"), false, false⟩]]⟩ }
  chance := none
  extra := none

/-- The comment is gone from the text that the rule keeps, and the second equals sign is not. -/
theorem wardenRule_isWellFormed :
    readRuleLine SkyPatcher.court .skyPatcher 3 wardenLine = .rules [wardenRule] ∧
      Text.trim (withoutComment wardenLine) = wardenRule.raw ∧
      wardenRule.IsWellFormed SkyPatcher.court .skyPatcher 3 wardenRule.raw ∧
      wardenRule.IsOfClauses := by
  have hread : readRuleLine SkyPatcher.court .skyPatcher 3 wardenLine = .rules [wardenRule] := by
    decide +kernel
  have hraw : Text.trim (withoutComment wardenLine) = wardenRule.raw := by decide +kernel
  obtain ⟨-, hrules, -, hclauses⟩ := isWellFormed_of_readRuleLine hread
  rw [hraw] at hrules
  exact ⟨hread, hraw, hrules _ List.mem_cons_self, hclauses rfl _ List.mem_cons_self⟩

end Wardrobe
