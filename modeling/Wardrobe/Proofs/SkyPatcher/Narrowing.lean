import Wardrobe.Proofs.SkyPatcher.Line
/-
Lines with one more filter clause.

The clauses of a line are joined, so one more of them narrows down whom the line is for, wherever it
is put in.  The clause for the sex is the exception: it takes the place of what an earlier one asked
for.  So one that stands behind all others of its sort and names the other sex turns the line round.
-/

namespace Wardrobe

variable {c : Catalog} {n m : Nat} {s : Subject}

/-! ## The sex apart from the rest -/

/-- The filters as they are when any sex will do. -/
def Filters.forAnySex (f : Filters) : Filters :=
  { f with traits := { f.traits with female := none } }

theorem satisfies_iff_forAnySex {f : Filters} : s.satisfies f = true ↔
    (∀ b ∈ f.traits.female, b = s.npc.traits.female) ∧ s.satisfies f.forAnySex = true := by
  have htraits : s.npc.traitsHold f.traits = true ↔
      (∀ b ∈ f.traits.female, b = s.npc.traits.female) ∧
        s.npc.traitsHold f.forAnySex.traits = true := by
    simp [Npc.traitsHold, Filters.forAnySex, Option.all_eq_true, and_assoc]
  rw [SkyPatcher.satisfies_iff, SkyPatcher.satisfies_iff, htraits, and_assoc]
  rfl

namespace SkyPatcher

variable {read : List ClauseFilter} {before after : Filters} {key value t : Text}
  {kvs : List (Text × Text)} {rules rules' : List Rule}

def ClauseFilter.sex? : ClauseFilter → Option Bool
  | .gender female => some female
  | _ => none

/-- The sex that is asked for in the end: of several, the last one. -/
def lastSex? (read : List ClauseFilter) : Option Bool := read.reverse.findSome? (·.sex?)

theorem traits_foldl_addClause (read : List ClauseFilter) (before : Filters) :
    (read.foldl addClause before).traits =
      { before.traits with female := (lastSex? read).or before.traits.female } := by
  induction read generalizing before with
  | nil => rfl
  | cons filter rest ih =>
    rw [List.foldl_cons, ih, lastSex?, lastSex?, List.reverse_cons, List.findSome?_append,
      Option.or_assoc]
    cases filter <;> rfl

theorem forAnySex_foldl_addClause (read : List ClauseFilter) (before : Filters) :
    (read.foldl addClause before).forAnySex =
      (read.filter fun filter => !filter.isGender).foldl addClause before.forAnySex := by
  induction read generalizing before with
  | nil => rfl
  | cons filter rest ih =>
    rw [List.foldl_cons, ih]
    cases filter <;> rfl

/-- Joined clauses ask for the last sex and for all that the other clauses ask for. -/
theorem satisfies_foldl_addClause_empty (hproper : ∀ filter ∈ read, filter.IsProper) :
    s.satisfies (read.foldl addClause .empty) = true ↔
      (∀ b ∈ lastSex? read, b = s.npc.traits.female) ∧
        ∀ filter ∈ read, filter.isGender = false → filter.holdsOf s = true := by
  have hfemale : (read.foldl addClause .empty).traits.female = lastSex? read := by
    rw [traits_foldl_addClause]
    exact Option.or_none
  have hnone : (read.filter fun filter => !filter.isGender).countP (·.isGender) = 0 := by
    rw [List.countP_eq_zero]
    simp [List.mem_filter]
  have hrest : ∀ filter ∈ read.filter (fun filter => !filter.isGender), filter.IsProper :=
    fun filter hfilter => hproper filter (List.mem_filter.1 hfilter).1
  have hempty : s.satisfies Filters.empty.forAnySex = true := satisfies_empty
  have huniform : Filters.empty.forAnySex.strings.IsUniform := Criterion.isUniform_empty
  rw [satisfies_iff_forAnySex, hfemale, forAnySex_foldl_addClause,
    satisfies_foldl_addClause hrest huniform Criterion.isUniform_empty
      (by simp [Filters.forAnySex, hnone])]
  simp only [hempty, true_and, List.mem_filter, Bool.not_eq_true', and_imp]

/-! ## Readings of clauses -/

/-- What a clause asks for, if it is a filter clause. -/
def reading? (c : Catalog) (kv : Text × Text) : Option ClauseFilter :=
  (readKey? kv.1).bind fun (f, mode) => (readClause c f mode kv.1 kv.2).toOption

theorem isProper_of_reading? {kv : Text × Text} {filter : ClauseFilter}
    (h : reading? c kv = some filter) : filter.IsProper := by
  obtain ⟨⟨f, mode⟩, hkey, h⟩ := Option.bind_eq_some_iff.1 h
  cases hread : readClause c f mode kv.1 kv.2 with
  | error fault => simp [hread, Except.toOption] at h
  | ok filter' =>
    obtain rfl : filter' = filter := by simpa [hread, Except.toOption] using h
    exact (isReadAs_readClause hkey hread).isProper

theorem reading?_of_addKeyValue {kv : Text × Text} (h : addKeyValue c before kv = .ok after) :
    after = (reading? c kv).toList.foldl addClause before := by
  obtain ⟨key, value⟩ := kv
  rcases addKeyValue_cases h with ⟨hkey, -, rfl⟩ | ⟨f, mode, filter, hkey, hread, rfl⟩
  · simp [reading?, hkey]
  · simp [reading?, hkey, hread, Except.toOption]

theorem readings_foldl (h : kvs.foldlM (addKeyValue c) before = .ok after) :
    after = (kvs.filterMap (reading? c)).foldl addClause before := by
  induction kvs generalizing before with
  | nil => exact (Except.ok.inj h).symm
  | cons kv rest ih =>
    rw [List.foldlM_cons] at h
    obtain ⟨next, hadd, h⟩ := bind_eq_ok.1 h
    rw [ih h, reading?_of_addKeyValue hadd]
    cases hread : reading? c kv <;> simp [hread]

/-! ## The sex that the clauses of a line ask for -/

/-- The sex that a clause asks for, if it is one for the sex. -/
def sexAsked? (clause : Text) : Option Bool :=
  match splitClause clause with
  | .ok (key, value) =>
    match readKey? key with
    | some (.gender, _) => (Text.pieces ',' value).head?.bind sexNamed?
    | _ => none
  | .error _ => none

theorem sexAsked?_eq {clause : Text} {kv : Text × Text} (hsplit : splitClause clause = .ok kv)
    (h : addKeyValue c before kv = .ok after) :
    sexAsked? clause = (reading? c kv).bind (·.sex?) := by
  obtain ⟨key, value⟩ := kv
  rw [sexAsked?, hsplit]
  dsimp only
  rcases addKeyValue_cases h with ⟨hkey, -, -⟩ | ⟨f, mode, filter, hkey, hread, -⟩
  · simp [reading?, hkey]
  · have hreading : reading? c (key, value) = some filter := by
      simp [reading?, hkey, hread, Except.toOption]
    have hgender := (isReadAs_readClause hkey hread).isGender_iff
    rw [hkey, hreading, Option.bind_some]
    cases f with
    | gender =>
      obtain ⟨b, rfl⟩ : ∃ b, filter = .gender b := by
        cases filter with
        | gender b => exact ⟨b, rfl⟩
        | strings | forms => cases hgender.2 rfl
      dsimp only
      unfold readClause at hread
      dsimp only at hread
      split at hread
      · cases hread
      split at hread
      next sex hsex =>
        rw [hsex, List.head?_cons, Option.bind_some, sexNamed?]
        split at hread
        next hfemale =>
          rw [if_pos hfemale]
          exact congrArg ClauseFilter.sex? (Except.ok.inj hread)
        next hfemale =>
          rw [if_neg hfemale]
          split at hread
          next hmale =>
            rw [if_pos hmale]
            exact congrArg ClauseFilter.sex? (Except.ok.inj hread)
          next => cases hread
      next => cases hread
    | form kind | plugin | editorId =>
      cases filter with
      | gender b => cases hgender.1 rfl
      | strings | forms => rfl

def IsSplitAs (clause : Text) (kv : Text × Text) : Prop := splitClause clause = .ok kv

theorem isSplitAs_rightUnique : Relator.RightUnique IsSplitAs :=
  fun _ _ _ h h' => Except.ok.inj (h.symm.trans h')

/-- The sex that clauses ask for together: of several, the last one. -/
def sexOf (clauses : List Text) : Option Bool := clauses.reverse.findSome? sexAsked?

theorem sexOf_cons (clause : Text) (clauses : List Text) :
    sexOf (clause :: clauses) = (sexOf clauses).or (sexAsked? clause) := by
  rw [sexOf, List.reverse_cons, List.findSome?_append, ← sexOf]
  simp

theorem sexOf_append (before after : List Text) :
    sexOf (before ++ after) = (sexOf after).or (sexOf before) := by
  rw [sexOf, List.reverse_append, List.findSome?_append]
  rfl

theorem lastSex?_readings {clauses : List Text}
    (hsplit : List.Forall₂ IsSplitAs clauses kvs)
    (h : kvs.foldlM (addKeyValue c) before = .ok after) :
    lastSex? (kvs.filterMap (reading? c)) = sexOf clauses := by
  induction hsplit generalizing before with
  | nil => rfl
  | @cons clause kv clauses kvs hclause _ ih =>
    rw [List.foldlM_cons] at h
    obtain ⟨next, hadd, h⟩ := bind_eq_ok.1 h
    rw [sexOf_cons, ← ih h, sexAsked?_eq hclause hadd, List.filterMap_cons]
    cases hread : reading? c kv with
    | none => simp
    | some filter =>
      rw [lastSex?, List.reverse_cons, List.findSome?_append]
      simp [lastSex?]

/-! ## Lines -/

/-- The texts of the clauses of a line, without its comment. -/
def clauseTexts (line : Text) : List Text := Text.pieces ':' (Text.trim (withoutComment line))

theorem assemble_eq_ok {raw : Text} {filters : Filters} {assignment : Slot × Text} {r : Rule} :
    assemble c n raw filters assignment = .ok r ↔
      ∃ ref, c.resolveAs .outfit assignment.2 = some ref ∧
        r = ⟨.skyPatcher, n, raw, .outfit assignment.1 ref, filters, none, none⟩ := by
  rw [assemble]
  cases c.resolveAs .outfit assignment.2 <;> simp [eq_comm]

/-- A line that gives rules, taken apart. -/
structure IsReadFrom (c : Catalog) (clauses : List Text) (rules : List Rule)
    (kvs : List (Text × Text)) (filters : Filters) : Prop where
  split : List.Forall₂ IsSplitAs clauses kvs
  joined : kvs.foldlM (addKeyValue c) .empty = .ok filters
  assigned : List.Forall₂ (fun r assignment => r.filters = filters ∧
    ∃ ref, c.resolveAs .outfit assignment.2 = some ref ∧ r.target = .outfit assignment.1 ref)
    rules (assignments kvs)

theorem isReadFrom_readRuleLine {line : Text}
    (h : readRuleLine c .skyPatcher n line = .rules rules) :
    ∃ kvs filters, IsReadFrom c (clauseTexts line) rules kvs filters := by
  have h : readLine c n (Text.trim (withoutComment line)) = .rules rules := readRuleLine_eq_rules h
  rw [readLine] at h
  split at h
  · cases h
  next kvs hsplit =>
    split at h
    · cases h
    split at h
    next rules' hrules =>
      obtain rfl := LineOutcome.rules.inj h
      obtain ⟨filters, hfilters, hassignments⟩ := bind_eq_ok.1 hrules
      refine ⟨kvs, filters, forall₂_of_mapM_eq_ok hsplit, hfilters, ?_⟩
      refine (forall₂_of_mapM_eq_ok hassignments).flip.imp fun r assignment hassemble => ?_
      obtain ⟨ref, hresolve, rfl⟩ := assemble_eq_ok.1 hassemble
      exact ⟨rfl, ref, hresolve, rfl⟩
    next => cases h

namespace IsReadFrom

variable {clauses : List Text} {filters : Filters}

theorem satisfies_iff (h : IsReadFrom c clauses rules kvs filters) :
    s.satisfies filters = true ↔
      (∀ b ∈ sexOf clauses, b = s.npc.traits.female) ∧
        ∀ filter ∈ kvs.filterMap (reading? c), filter.isGender = false →
          filter.holdsOf s = true := by
  rw [readings_foldl h.joined, satisfies_foldl_addClause_empty, lastSex?_readings h.split h.joined]
  intro filter hfilter
  obtain ⟨kv, -, hread⟩ := List.mem_filterMap.1 hfilter
  exact isProper_of_reading? hread

/-- Rules of two lines with the same assignments set the same outfits. -/
theorem forall₂_target {clauses' : List Text} {filters' : Filters} {kvs' : List (Text × Text)}
    (h : IsReadFrom c clauses rules kvs filters) (h' : IsReadFrom c clauses' rules' kvs' filters')
    (hassignments : assignments kvs' = assignments kvs) :
    List.Forall₂ (fun r r' => r'.target = r.target ∧ r.filters = filters ∧ r'.filters = filters')
      rules rules' := by
  refine forall₂_of_common h.assigned (hassignments ▸ h'.assigned) ?_
  rintro r assignment r' ⟨hfilters, ref, hresolve, htarget⟩ ⟨hfilters', ref', hresolve', htarget'⟩
  obtain rfl : ref' = ref := Option.some.inj (hresolve'.symm.trans hresolve)
  exact ⟨htarget'.trans htarget.symm, hfilters, hfilters'⟩

end IsReadFrom

/-- A clause whose key begins as those of filters do. -/
def IsFilterClause (clause : Text) : Prop :=
  ∃ kv, splitClause clause = .ok kv ∧ isFilterKey kv.1 = true

/-- The clause is for the other sex than the last such clause of the line, and stands behind it. -/
def ReplacesSex (before : List Text) (clause : Text) (after : List Text) : Prop :=
  ∃ female, sexAsked? clause = some female ∧ sexOf after = none ∧ sexOf before = some !female

theorem sexOf_of_not_replacesSex {before after : List Text} {clause : Text}
    (h : ¬ ReplacesSex before clause after) (b : Bool) (hb : sexOf (before ++ after) = some b) :
    sexOf (before ++ clause :: after) = some b := by
  rw [sexOf_append, sexOf_cons, Option.or_assoc]
  rw [sexOf_append] at hb
  cases hafter : sexOf after with
  | some b' =>
    rw [hafter] at hb
    exact hb
  | none =>
    rw [hafter] at hb
    cases hclause : sexAsked? clause with
    | none => exact hb
    | some female =>
      by_cases hsame : female = b
      · rw [hsame]
        rfl
      · refine absurd ⟨female, hclause, hafter, ?_⟩ h
        rw [Option.none_or] at hb
        rw [hb, Bool.eq_not_of_ne (Ne.symm hsame)]

theorem insertion_of_split {before after : List Text} {clause : Text}
    {kvsBefore kvsAfter kvs' : List (Text × Text)}
    (hbefore : List.Forall₂ IsSplitAs before kvsBefore)
    (hafter : List.Forall₂ IsSplitAs after kvsAfter)
    (h : List.Forall₂ IsSplitAs (before ++ clause :: after) kvs')
    (hfilter : IsFilterClause clause) :
    ∃ kv, kvs' = kvsBefore ++ kv :: kvsAfter ∧
      assignments kvs' = assignments (kvsBefore ++ kvsAfter) := by
  obtain ⟨kvs₁, rest, rfl, h₁, hrest⟩ := append_of_forall₂ h
  obtain ⟨kv, kvs₂, hclause, h₂, rfl⟩ := List.forall₂_cons_left_iff.1 hrest
  obtain rfl := List.right_unique_forall₂' isSplitAs_rightUnique h₁ hbefore
  obtain rfl := List.right_unique_forall₂' isSplitAs_rightUnique h₂ hafter
  obtain ⟨kv', hclause', hkey⟩ := hfilter
  obtain rfl : kv' = kv := isSplitAs_rightUnique hclause' hclause
  refine ⟨kv', rfl, ?_⟩
  simp only [assignments, List.filterMap_append, List.filterMap_cons, slotOfKey?_eq_none hkey,
    Option.map_none]

/-- One more filter clause leaves the outfits of a line as they are, and only narrows down whom they
are for, unless it turns the line to the other sex and there is someone whom the new line is for. -/
theorem narrows_iff_not_replacesSex {before after : List Text} {clause line line' : Text}
    (hline : clauseTexts line = before ++ after)
    (hline' : clauseTexts line' = before ++ clause :: after) (hfilter : IsFilterClause clause)
    (h : readRuleLine c .skyPatcher n line = .rules rules)
    (h' : readRuleLine c .skyPatcher m line' = .rules rules') :
    List.Forall₂ (fun r r' => r'.target = r.target ∧
      ((∀ s : Subject, s.satisfies r'.filters = true → s.satisfies r.filters = true) ↔
        ¬ ReplacesSex before clause after ∨ ∀ s : Subject, s.satisfies r'.filters = false))
      rules rules' := by
  obtain ⟨kvs, filters, hread⟩ := isReadFrom_readRuleLine h
  obtain ⟨kvs', filters', hread'⟩ := isReadFrom_readRuleLine h'
  rw [hline] at hread
  rw [hline'] at hread'
  obtain ⟨kvsBefore, kvsAfter, rfl, hsplit⟩ := append_of_forall₂ hread.split
  obtain ⟨kv, rfl, hassignments⟩ := insertion_of_split hsplit.1 hsplit.2 hread'.split hfilter
  refine (hread.forall₂_target hread' hassignments).imp fun r r' ⟨htarget, hr, hr'⟩ =>
    ⟨htarget, ?_⟩
  rw [hr, hr']
  constructor
  · intro hnarrows
    by_contra hnot
    push Not at hnot
    obtain ⟨⟨female, hclause, hafter, hbefore⟩, s, hs⟩ := hnot
    rw [ne_eq, Bool.not_eq_false] at hs
    have hnew : sexOf (before ++ clause :: after) = some female := by
      rw [sexOf_append, sexOf_cons, hafter, hclause]
      rfl
    have hold : sexOf (before ++ after) = some !female := by
      rw [sexOf_append, hafter, hbefore]
      rfl
    have hfemale := (hread'.satisfies_iff.1 hs).1 female hnew
    have hother := (hread.satisfies_iff.1 (hnarrows s hs)).1 (!female) hold
    simp [← hfemale] at hother
  · rintro (hnot | hnobody) s hs
    · obtain ⟨hsex, hothers⟩ := hread'.satisfies_iff.1 hs
      refine hread.satisfies_iff.2 ⟨fun b hb => hsex b (sexOf_of_not_replacesSex hnot b hb),
        fun filter hmem => hothers filter ?_⟩
      rw [List.filterMap_append, List.mem_append] at hmem ⊢
      rw [List.filterMap_cons]
      refine hmem.imp_right fun hmem => ?_
      split
      · exact hmem
      · exact List.mem_cons_of_mem _ hmem
    · rw [hnobody s] at hs
      cases hs

def ladiesLine : Text := "filterByGender=female:outfitDefault=Parade"

def ladiesRule : Rule :=
  ⟨.skyPatcher, 1, ladiesLine, .outfit .default (.form .outfit ⟨"Skyrim.esm", 3⟩ (some "Parade")),
    { Filters.empty with traits := { Traits.Wanted.empty with female := some true } }, none, none⟩

def guardswomenLine : Text :=
  "filterByGender=female:FilterByFactionsOr=Guards,Ghosts:outfitDefault=Parade"

def guardswomenRule : Rule :=
  { ladiesRule with
    raw := guardswomenLine
    filters := { ladiesRule.filters with
      forms := ⟨[[⟨.form .faction ⟨"Skyrim.esm", 1⟩ (some "Guards"), false, false⟩]]⟩ } }

def guardsClause : Text := "FilterByFactionsOr=Guards,Ghosts"

theorem guardswomen_are_ladies :
    clauseTexts ladiesLine = ["filterByGender=female".toList] ++ ["outfitDefault=Parade".toList] ∧
      clauseTexts guardswomenLine =
        ["filterByGender=female".toList] ++ guardsClause :: ["outfitDefault=Parade".toList] ∧
      IsFilterClause guardsClause ∧
      readRuleLine court .skyPatcher 1 ladiesLine = .rules [ladiesRule] ∧
      readRuleLine court .skyPatcher 1 guardswomenLine = .rules [guardswomenRule] ∧
      guardswomenRule.target = ladiesRule.target ∧
      ∀ s : Subject, s.satisfies guardswomenRule.filters = true →
        s.satisfies ladiesRule.filters = true := by
  have hclauses : clauseTexts ladiesLine =
      ["filterByGender=female".toList] ++ ["outfitDefault=Parade".toList] := by decide +kernel
  have hclauses' : clauseTexts guardswomenLine =
      ["filterByGender=female".toList] ++ guardsClause :: ["outfitDefault=Parade".toList] := by
    decide +kernel
  have hfilter : IsFilterClause guardsClause :=
    ⟨("FilterByFactionsOr", "Guards,Ghosts"), by decide +kernel, by decide +kernel⟩
  have hread : readRuleLine court .skyPatcher 1 ladiesLine = .rules [ladiesRule] := by
    decide +kernel
  have hread' : readRuleLine court .skyPatcher 1 guardswomenLine = .rules [guardswomenRule] := by
    decide +kernel
  have hsex : sexAsked? guardsClause = none := by decide +kernel
  have hnarrows := narrows_iff_not_replacesSex hclauses hclauses' hfilter hread hread'
  rw [List.forall₂_cons] at hnarrows
  obtain ⟨⟨htarget, hiff⟩, -⟩ := hnarrows
  refine ⟨hclauses, hclauses', hfilter, hread, hread', htarget, hiff.2 (Or.inl ?_)⟩
  rintro ⟨female, hfemale, -⟩
  rw [hsex] at hfemale
  cases hfemale

/-! ## A line turned round -/

def gentlemenLine : Text := "filterByGender=female:filterByGender=male:outfitDefault=Parade"

def gentlemenRule : Rule :=
  { ladiesRule with
    raw := gentlemenLine
    filters := { Filters.empty with traits := { Traits.Wanted.empty with female := some false } } }

/-- Any man. -/
def gentleman : Npc where
  id := ⟨"Skyrim.esm", 4⟩
  name := none
  editorId := none
  sourcePlugin := "Skyrim.esm"
  factions := []
  keywords := []
  race := none
  combatClass := none
  defaultOutfit := none
  sleepOutfit := none
  combatStyle := none
  voiceType := none
  template := none
  level := 1
  skills := []
  traits := ⟨false, false, false, false, false⟩

/-- A line for women with a clause more is for men, and so dresses someone whom it did not. -/
theorem gentlemen_are_no_ladies :
    clauseTexts gentlemenLine =
        ["filterByGender=female", "filterByGender=male", "outfitDefault=Parade"] ∧
      readRuleLine court .skyPatcher 1 ladiesLine = .rules [ladiesRule] ∧
      readRuleLine court .skyPatcher 1 gentlemenLine = .rules [gentlemenRule] ∧
      ¬ ∀ s : Subject, s.satisfies gentlemenRule.filters = true →
        s.satisfies ladiesRule.filters = true := by
  refine ⟨by decide +kernel, by decide +kernel, by decide +kernel, fun hnarrows => ?_⟩
  have hgentleman := hnarrows ⟨gentleman, .ofNpc gentleman, []⟩ (by decide +kernel)
  revert hgentleman
  decide +kernel

end SkyPatcher
end Wardrobe
