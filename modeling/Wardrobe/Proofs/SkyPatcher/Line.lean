import Wardrobe.Proofs.Filter.Laws
import Wardrobe.Proofs.Rule.Line
import Wardrobe.Proofs.SkyPatcher.Case
/-
What a SkyPatcher line means: all of its filter clauses have to hold.

A line is read by joining the criterion of one clause after the other.  Each of these has
expressions that are alike, which joining keeps, so the joined criterion asks for what all of them
ask for.  A second clause for the sex would replace the first, which is the one exception.
-/

namespace Wardrobe
namespace SkyPatcher

variable {c : Catalog} {n : Nat} {key value t : Text} {f : Field} {mode : Mode} {s : Subject}

/-! ## The clauses of a line -/

/-- A filter clause: what it looks at, how it is to be taken, and its list. -/
structure FilterClause where
  field : Field
  mode : Mode
  values : List Text
  deriving DecidableEq, Repr

/-- What a value of a clause stands for. -/
inductive Value where
  | text (t : Text)
  | reference (ref : Reference)
  | sex (female : Bool)
  deriving DecidableEq, Repr

def sexNamed? (t : Text) : Option Bool :=
  if Text.sameAscii t "female" then some true
  else if Text.sameAscii t "male" then some false
  else none

def Value.isOn (s : Subject) : Value → Bool
  | .text t => s.mentions (Text.lower t)
  | .reference ref => (s.npc.placeOf? ref).isSome
  | .sex female => female == s.npc.traits.female

/-- How many of the values have to be there: none, one or all of them. -/
def Asks (f : Field) (mode : Mode) (vs : List α) (isOn : α → Bool) : Prop :=
  match mode with
  | .excluded => ∀ v ∈ vs, isOn v = false
  | .anyOf => ∃ v ∈ vs, isOn v = true
  | .plain => if f.asksForAll then ∀ v ∈ vs, isOn v = true else ∃ v ∈ vs, isOn v = true

/-- The values of a clause that stand for something. -/
def FilterClause.resolved (c : Catalog) (clause : FilterClause) : List Value :=
  match clause.field with
  | .gender => (clause.values.filterMap sexNamed?).map .sex
  | .editorId => clause.values.map .text
  | f => (clause.values.filterMap (resolveValue c f)).map .reference

def FilterClause.HoldsOf (c : Catalog) (s : Subject) (clause : FilterClause) : Prop :=
  Asks clause.field clause.mode (clause.resolved c) (·.isOn s)

def keyValues (t : Text) : List (Text × Text) := (splitClauses t).toOption.getD []

def filterClause? (keyValue : Text × Text) : Option FilterClause :=
  (readKey? keyValue.1).map fun (f, mode) => ⟨f, mode, Text.pieces ',' keyValue.2⟩

def genderKey : Text := filterOpening ++ Field.gender.name

theorem asks_map {g : α → β} {vs : List α} {isOn : β → Bool} :
    Asks f mode (vs.map g) isOn ↔ Asks f mode vs fun v => isOn (g v) := by
  cases mode with
  | plain => cases h : f.asksForAll <;> simp [Asks, h]
  | anyOf => simp [Asks]
  | excluded => simp [Asks]

/-! ## Keys -/

theorem asciiLower_of_dropOpening? {opening rest : Text}
    (h : dropOpening? opening t = some rest) :
    Text.asciiLower t = Text.asciiLower opening ++ Text.asciiLower rest := by
  rw [dropOpening?] at h
  split at h
  next hopens =>
    obtain rfl := Option.some.inj h
    obtain ⟨tail, htail⟩ := List.isPrefixOf_iff_prefix.1 hopens
    have hlength : (Text.asciiLower opening).length = opening.length := List.length_map _
    have hdrop : Text.asciiLower (t.drop opening.length) = tail := by
      rw [Text.asciiLower, List.map_drop, ← Text.asciiLower, ← htail, ← hlength,
        List.drop_left]
    rw [hdrop, htail]
  next => cases h

theorem asciiLower_of_dropEnding? {ending front : Text} (h : dropEnding? ending t = some front) :
    Text.asciiLower t = Text.asciiLower front ++ Text.asciiLower ending := by
  rw [dropEnding?] at h
  split at h
  next hends =>
    obtain rfl := Option.some.inj h
    obtain ⟨head, hhead⟩ := List.isSuffixOf_iff_suffix.1 hends
    have hlength : (Text.asciiLower t).length = t.length := List.length_map _
    have hlength' : (Text.asciiLower ending).length = ending.length := List.length_map _
    have htake : Text.asciiLower (t.take (t.length - ending.length)) = head := by
      rw [Text.asciiLower, List.map_take, ← Text.asciiLower, ← hlength, ← hlength', ← hhead,
        List.length_append, Nat.add_sub_cancel, List.take_left]
    rw [htake, hhead]
  next => cases h

theorem slotOfKey?_eq_none (h : isFilterKey key = true) : slotOfKey? key = none := by
  obtain ⟨rest, hrest⟩ := Option.isSome_iff_exists.1 h
  have hlower := asciiLower_of_dropOpening? hrest
  have hdefault : Text.sameAscii key "outfitDefault" = false := by
    rw [Text.sameAscii, hlower]
    rfl
  have hsleep : Text.sameAscii key "outfitSleep" = false := by
    rw [Text.sameAscii, hlower]
    rfl
  rw [slotOfKey?, hdefault, hsleep]
  rfl

theorem isFilterKey_of_readKey? (h : (readKey? key).isSome = true) : isFilterKey key = true := by
  rw [readKey?] at h
  rw [isFilterKey]
  cases hopening : dropOpening? filterOpening key with
  | none => simp [hopening] at h
  | some rest => rfl

theorem sameAscii_of_ofName? (h : Field.ofName? t = some f) :
    Text.sameAscii f.name t = true := by
  simpa using List.find?_some h

theorem Field.mem_all (f : Field) : f ∈ Field.all := by
  cases f with
  | form kind => cases kind <;> decide
  | plugin | editorId | gender => decide

def modeEnding : Mode → Text
  | .plain => []
  | .anyOf => orEnding
  | .excluded => excludedEnding

def clauseKey (f : Field) (mode : Mode) : Text := filterOpening ++ f.name ++ modeEnding mode

/-- A key that is read is that of a field with its ending. -/
theorem readKey?_cases (h : readKey? key = some (f, mode)) :
    (mode = .plain ∧ Text.sameAscii key (filterOpening ++ f.name) = true) ∨
    (mode = .excluded ∧ f ≠ .gender ∧
      Text.sameAscii key (filterOpening ++ f.name ++ excludedEnding) = true) ∨
    mode = .anyOf ∧ f.asksForAll = true ∧
      Text.sameAscii key (filterOpening ++ f.name ++ orEnding) = true := by
  obtain ⟨name, hopening, hname⟩ := Option.bind_eq_some_iff.1 h
  have hkey := asciiLower_of_dropOpening? hopening
  have hspell {t : Text} (ht : Text.asciiLower name = Text.asciiLower t) :
      Text.sameAscii key (filterOpening ++ t) = true := by
    rw [Text.sameAscii_iff, hkey, ht, Text.asciiLower, Text.asciiLower, Text.asciiLower,
      List.map_append]
  have hending {ending : Text} (hf : (dropEnding? ending name).bind Field.ofName? = some f) :
      Text.sameAscii key (filterOpening ++ f.name ++ ending) = true := by
    obtain ⟨front, hdrop, hf⟩ := Option.bind_eq_some_iff.1 hf
    rw [List.append_assoc]
    refine hspell ?_
    rw [asciiLower_of_dropEnding? hdrop, ← Text.sameAscii_iff.1 (sameAscii_of_ofName? hf),
      Text.asciiLower, Text.asciiLower, Text.asciiLower, List.map_append]
  rw [readName?] at hname
  split at hname
  next g hg =>
    obtain ⟨rfl, rfl⟩ := Prod.mk.inj (Option.some.inj hname)
    exact .inl ⟨rfl, hspell (Text.sameAscii_iff.1 (sameAscii_of_ofName? hg)).symm⟩
  next =>
    split at hname
    next g hg =>
      split at hname
      · cases hname
      next hgender =>
        obtain ⟨rfl, rfl⟩ := Prod.mk.inj (Option.some.inj hname)
        exact .inr (.inl ⟨rfl, hgender, hending hg⟩)
    next =>
      split at hname
      next g hg =>
        split at hname
        next hasks =>
          obtain ⟨rfl, rfl⟩ := Prod.mk.inj (Option.some.inj hname)
          exact .inr (.inr ⟨rfl, hasks, hending hg⟩)
        next => cases hname
      next => cases hname

/-- The key of each clause that can be written is read as that clause. -/
theorem readKey?_clauseKey (hchoice : mode = .anyOf → f.asksForAll = true)
    (hgender : f = .gender → mode = .plain) : readKey? (clauseKey f mode) = some (f, mode) := by
  have hall : ∀ f ∈ Field.all,
      readKey? (clauseKey f .plain) = some (f, .plain) ∧
      (f.asksForAll = true → readKey? (clauseKey f .anyOf) = some (f, .anyOf)) ∧
      (f ≠ .gender → readKey? (clauseKey f .excluded) = some (f, .excluded)) := by
    decide +kernel
  obtain ⟨hplain, hanyOf, hexcluded⟩ := hall f (Field.mem_all f)
  cases mode with
  | plain => exact hplain
  | anyOf => exact hanyOf (hchoice rfl)
  | excluded => exact hexcluded fun hf => by cases hgender hf

/-- The keys of filter clauses, up to ASCII case: the opening and the name of a field, with `Or`
where the plain clause asks for all values, and with `Excluded` for all fields but the sex. -/
theorem readKey?_iff : readKey? key = some (f, mode) ↔
    Text.sameAscii key (clauseKey f mode) = true ∧ (mode = .anyOf → f.asksForAll = true) ∧
      (f = .gender → mode = .plain) := by
  constructor
  · intro h
    rcases readKey?_cases h with ⟨rfl, hkey⟩ | ⟨rfl, hgender, hkey⟩ | ⟨rfl, hasks, hkey⟩
    · exact ⟨by rwa [clauseKey, modeEnding, List.append_nil], nofun, fun _ => rfl⟩
    · exact ⟨hkey, nofun, fun hf => absurd hf hgender⟩
    · refine ⟨hkey, fun _ => hasks, ?_⟩
      rintro rfl
      cases hasks
  · rintro ⟨hkey, hchoice, hgender⟩
    rw [← readKey?_asciiLower, Text.sameAscii_iff.1 hkey, readKey?_asciiLower]
    exact readKey?_clauseKey hchoice hgender

/-- The plain clause of these three fields asks for all of its values. -/
theorem Field.asksForAll_iff : f.asksForAll = true ↔
    f = .form .faction ∨ f = .form .keyword ∨ f = .editorId := by
  have hall : ∀ f ∈ Field.all, f.asksForAll = true ↔
      f = .form .faction ∨ f = .form .keyword ∨ f = .editorId := by
    decide
  exact hall f (mem_all f)

/-- Only one key asks for the sex, and it has no endings. -/
theorem gender_of_readKey? (h : readKey? key = some (.gender, mode)) :
    mode = .plain ∧ Text.sameAscii key genderKey = true := by
  obtain ⟨hkey, -, hgender⟩ := readKey?_iff.1 h
  obtain rfl := hgender rfl
  rw [clauseKey, modeEnding, List.append_nil] at hkey
  exact ⟨rfl, hkey⟩

theorem addKeyValue_of_readKey? (hkey : readKey? key = some (f, mode)) (before : Filters) :
    addKeyValue c before (key, value) =
      (readClause c f mode key value).map (addClause before) := by
  have hslot := slotOfKey?_eq_none (isFilterKey_of_readKey? (by rw [hkey]; rfl))
  simp [addKeyValue, hslot, hkey]

/-- A filter clause is taken into the filters, and what is no filter clause leaves them. -/
theorem addKeyValue_cases {before after : Filters}
    (h : addKeyValue c before (key, value) = .ok after) :
    (readKey? key = none ∧ isFilterKey key = false ∧ after = before) ∨
      ∃ f mode filter, readKey? key = some (f, mode) ∧
        readClause c f mode key value = .ok filter ∧ after = addClause before filter := by
  cases hkey : readKey? key with
  | none =>
    rw [addKeyValue, hkey] at h
    by_cases hfilter : isFilterKey key = true
    · rw [slotOfKey?_eq_none hfilter] at h
      simp [hfilter] at h
    · rw [Bool.not_eq_true] at hfilter
      simp only [hfilter, Bool.false_eq_true, if_false, ite_self] at h
      exact Or.inl ⟨rfl, hfilter, (Except.ok.inj h).symm⟩
  | some named =>
    obtain ⟨f, mode⟩ := named
    rw [addKeyValue_of_readKey? hkey] at h
    obtain ⟨filter, hclause, hafter⟩ := map_eq_ok.1 h
    exact Or.inr ⟨f, mode, filter, rfl, hclause, hafter.symm⟩

/-- What each filter clause keeps holds of the filters of all clauses. -/
theorem of_foldlM_addKeyValue {P : Filters → Prop} {kvs : List (Text × Text)}
    {before after : Filters} (hbefore : P before)
    (hclause : ∀ kv ∈ kvs, ∀ f mode filter before, P before →
      readClause c f mode kv.1 kv.2 = .ok filter → P (addClause before filter))
    (h : kvs.foldlM (addKeyValue c) before = .ok after) : P after := by
  refine of_foldlM_eq_ok (fun kv hkv before next hP hadd => ?_) hbefore h
  rcases addKeyValue_cases hadd with ⟨-, -, rfl⟩ | ⟨f, mode, filter, -, hread, rfl⟩
  · exact hP
  · exact hclause kv hkv f mode filter before hP hread

/-! ## One clause -/

/-- A clause asks for a sex, for texts inside of others, or for what some of its values name. -/
theorem readClause_cases {filter : ClauseFilter} (h : readClause c f mode key value = .ok filter) :
    (∃ female, filter = .gender female) ∨
      filter = .strings (criterionOf f mode
        ((Text.pieces ',' value).map fun v => ⟨v, mode == .excluded, true⟩)) ∨
      ∃ refs : List Reference, (∀ ref ∈ refs, ∃ v, resolveValue c f v = some ref) ∧
        filter = .forms (criterionOf f mode (refs.map fun r => ⟨r, mode == .excluded, false⟩)) := by
  have hforms (h : readReferences c f mode key (Text.pieces ',' value) = .ok filter) :
      ∃ refs : List Reference, (∀ ref ∈ refs, ∃ v, resolveValue c f v = some ref) ∧
        filter = .forms (criterionOf f mode (refs.map fun r => ⟨r, mode == .excluded, false⟩)) := by
    rw [readReferences] at h
    split at h
    · cases h
    · refine ⟨_, fun ref href => ?_, (Except.ok.inj h).symm⟩
      obtain ⟨v, -, hv⟩ := List.mem_filterMap.1 href
      exact ⟨v, hv⟩
  unfold readClause at h
  dsimp only at h
  split at h
  · cases h
  cases f with
  | gender =>
    dsimp only at h
    split at h
    · split at h
      · exact .inl ⟨true, (Except.ok.inj h).symm⟩
      · split at h
        · exact .inl ⟨false, (Except.ok.inj h).symm⟩
        · cases h
    · cases h
  | editorId => exact .inr (.inl (Except.ok.inj h).symm)
  | form kind => exact .inr (.inr (hforms h))
  | plugin => exact .inr (.inr (hforms h))

theorem holds_criterionOf {vs : List α} {present : Criterion.Part α → Bool} (hne : vs ≠ [])
    (wildcard : Bool) :
    (criterionOf f mode (vs.map fun v => ⟨v, mode == .excluded, wildcard⟩)).holds present = true ↔
      Asks f mode vs fun v => present ⟨v, mode == .excluded, wildcard⟩ := by
  have hmap : (vs.map fun v => (⟨v, mode == .excluded, wildcard⟩ : Criterion.Part α)) ≠ [] := by
    simpa using hne
  cases mode with
  | excluded =>
    rw [criterionOf, Criterion.holds_allOf_negated hmap (by simp)]
    simp [Asks]
  | anyOf =>
    rw [criterionOf, Criterion.holds_anyOf hmap (by simp)]
    simp [Asks]
  | plain =>
    cases hall : f.asksForAll with
    | true =>
      rw [criterionOf, hall, if_pos rfl, Criterion.holds_allOf hmap (by simp)]
      simp [Asks, hall]
    | false =>
      rw [criterionOf, hall, if_neg (by simp), Criterion.holds_anyOf hmap (by simp)]
      simp [Asks, hall]

theorem isUniform_criterionOf (vs : List α) (wildcard : Bool) :
    (criterionOf f mode (vs.map fun v =>
      (⟨v, mode == .excluded, wildcard⟩ : Criterion.Part α))).IsUniform := by
  cases mode with
  | excluded => exact Criterion.isUniform_allOf _
  | anyOf => exact Criterion.isUniform_anyOf (by simp)
  | plain =>
    rw [criterionOf]
    split
    · exact Criterion.isUniform_allOf _
    · exact Criterion.isUniform_anyOf (by simp)

theorem isEmpty_criterionOf {parts : List (Criterion.Part α)} (hne : parts ≠ []) :
    (criterionOf f mode parts).isEmpty = false := by
  have hall : (Criterion.allOf parts).isEmpty = false := by
    rw [Criterion.isEmpty, Criterion.expressions_allOf hne]
    rfl
  have hany : (Criterion.anyOf parts).isEmpty = false := by
    rw [Criterion.isEmpty, Criterion.expressions_anyOf]
    simpa using hne
  cases mode with
  | excluded => exact hall
  | anyOf => exact hany
  | plain =>
    rw [criterionOf]
    split
    · exact hall
    · exact hany

namespace ClauseFilter

def holdsOf (s : Subject) : ClauseFilter → Bool
  | .gender female => female == s.npc.traits.female
  | .strings criterion => s.stringsHold criterion
  | .forms criterion => s.npc.formsHold criterion

/-- The criterion asks for something, and its expressions are alike. -/
def IsProper : ClauseFilter → Prop
  | .gender _ => True
  | .strings criterion => criterion.IsUniform ∧ criterion.isEmpty = false
  | .forms criterion => criterion.IsUniform ∧ criterion.isEmpty = false

def isGender : ClauseFilter → Bool
  | .gender _ => true
  | _ => false

end ClauseFilter

/-- The filter is what the clause asks for. -/
structure FilterClause.IsReadAs (c : Catalog) (clause : FilterClause) (filter : ClauseFilter) :
    Prop where
  resolved_ne_nil : clause.resolved c ≠ []
  isProper : filter.IsProper
  holdsOf_iff : ∀ s, filter.holdsOf s = true ↔ clause.HoldsOf c s
  isGender_iff : filter.isGender = true ↔ clause.field = .gender

theorem isReadAs_gender {female : Bool} {sex : Text} (h : sexNamed? sex = some female) :
    FilterClause.IsReadAs c ⟨.gender, .plain, [sex]⟩ (.gender female) where
  resolved_ne_nil := by simp [FilterClause.resolved, h]
  isProper := trivial
  holdsOf_iff s := by
    simp [ClauseFilter.holdsOf, FilterClause.HoldsOf, FilterClause.resolved, h, Asks,
      Field.asksForAll, Value.isOn]
  isGender_iff := by simp [ClauseFilter.isGender]

theorem isReadAs_strings {values : List Text} (hne : values ≠ []) :
    FilterClause.IsReadAs c ⟨.editorId, mode, values⟩
      (.strings (criterionOf .editorId mode (values.map fun v => ⟨v, mode == .excluded, true⟩)))
    where
  resolved_ne_nil := by simpa [FilterClause.resolved] using hne
  isProper := ⟨isUniform_criterionOf _ _, isEmpty_criterionOf (by simpa using hne)⟩
  holdsOf_iff s := by
    rw [ClauseFilter.holdsOf, Subject.stringsHold, holds_criterionOf hne, FilterClause.HoldsOf,
      FilterClause.resolved, asks_map]
    simp only [Subject.hasString, if_true, Value.isOn]
  isGender_iff := by simp [ClauseFilter.isGender]

theorem isReadAs_forms {values : List Text} (hf : f ≠ .gender) (hf' : f ≠ .editorId)
    (hne : values.filterMap (resolveValue c f) ≠ []) :
    FilterClause.IsReadAs c ⟨f, mode, values⟩ (.forms (criterionOf f mode
      ((values.filterMap (resolveValue c f)).map fun r => ⟨r, mode == .excluded, false⟩))) := by
  have hresolved : FilterClause.resolved c ⟨f, mode, values⟩ =
      (values.filterMap (resolveValue c f)).map .reference := by
    cases f <;> first | rfl | contradiction
  refine ⟨?_, ?_, fun s => ?_, ?_⟩
  · simpa [hresolved] using hne
  · exact ⟨isUniform_criterionOf _ _, isEmpty_criterionOf (by simpa using hne)⟩
  · rw [ClauseFilter.holdsOf, Npc.formsHold, holds_criterionOf hne, FilterClause.HoldsOf,
      hresolved, asks_map]
    simp only [Value.isOn]
  · simpa [ClauseFilter.isGender] using hf

theorem isReadAs_readClause {filter : ClauseFilter} (hkey : readKey? key = some (f, mode))
    (h : readClause c f mode key value = .ok filter) :
    FilterClause.IsReadAs c ⟨f, mode, Text.pieces ',' value⟩ filter := by
  have hforms (hg : f ≠ .gender) (he : f ≠ .editorId)
      (h : readReferences c f mode key (Text.pieces ',' value) = .ok filter) :
      FilterClause.IsReadAs c ⟨f, mode, Text.pieces ',' value⟩ filter := by
    rw [readReferences] at h
    split at h
    · cases h
    next hne =>
      obtain rfl := Except.ok.inj h
      exact isReadAs_forms hg he (by simpa using hne)
  unfold readClause at h
  dsimp only at h
  split at h
  · cases h
  next hne =>
    cases f with
    | gender =>
      obtain ⟨rfl, -⟩ := gender_of_readKey? hkey
      dsimp only at h
      split at h
      next sex hsex =>
        rw [hsex]
        by_cases hfemale : Text.sameAscii sex "female" = true
        · rw [if_pos hfemale] at h
          obtain rfl := Except.ok.inj h
          exact isReadAs_gender (by rw [sexNamed?, if_pos hfemale])
        · rw [if_neg hfemale] at h
          split at h
          next hmale =>
            obtain rfl := Except.ok.inj h
            exact isReadAs_gender (by rw [sexNamed?, if_neg hfemale, if_pos hmale])
          next => cases h
      next => cases h
    | editorId =>
      obtain rfl := Except.ok.inj h
      exact isReadAs_strings (by simpa using hne)
    | form kind => exact hforms (by simp) (by simp) h
    | plugin => exact hforms (by simp) (by simp) h

/-! ## All clauses -/

/-- The filter clauses of a line are read one after the other. -/
theorem forall₂_of_foldlM {R : FilterClause → ClauseFilter → Prop} {kvs : List (Text × Text)}
    {before after : Filters} (hR : ∀ key value f mode filter, readKey? key = some (f, mode) →
      readClause c f mode key value = .ok filter → R ⟨f, mode, Text.pieces ',' value⟩ filter)
    (h : kvs.foldlM (addKeyValue c) before = .ok after) :
    ∃ read : List ClauseFilter, after = read.foldl addClause before ∧
      List.Forall₂ R (kvs.filterMap filterClause?) read ∧
      ∀ kv ∈ kvs, isFilterKey kv.1 = true → (filterClause? kv).isSome = true := by
  induction kvs generalizing before with
  | nil =>
    obtain rfl := Except.ok.inj h
    exact ⟨[], rfl, .nil, by simp⟩
  | cons kv rest ih =>
    obtain ⟨key, value⟩ := kv
    rw [List.foldlM_cons] at h
    obtain ⟨next, hadd, h⟩ := bind_eq_ok.1 h
    obtain ⟨read, hafter, hread, hkeys⟩ := ih h
    rcases addKeyValue_cases hadd with ⟨hkey, hfilter, rfl⟩ | ⟨f, mode, filter, hkey, hclause, rfl⟩
    · have hnone : filterClause? (key, value) = none := by simp [filterClause?, hkey]
      rw [List.filterMap_cons_none hnone]
      refine ⟨read, hafter, hread, List.forall_mem_cons.2 ⟨fun htrue => ?_, hkeys⟩⟩
      rw [hfilter] at htrue
      cases htrue
    · have hsome : filterClause? (key, value) = some ⟨f, mode, Text.pieces ',' value⟩ := by
        simp [filterClause?, hkey]
      rw [List.filterMap_cons_some hsome]
      refine ⟨filter :: read, hafter, .cons (hR key value f mode filter hkey hclause) hread, ?_⟩
      exact List.forall_mem_cons.2 ⟨fun _ => by simp [hsome], hkeys⟩

theorem readings_of_foldlM {kvs : List (Text × Text)} {before after : Filters}
    (h : kvs.foldlM (addKeyValue c) before = .ok after) :
    ∃ read : List ClauseFilter, after = read.foldl addClause before ∧
      List.Forall₂ (FilterClause.IsReadAs c) (kvs.filterMap filterClause?) read ∧
      ∀ kv ∈ kvs, isFilterKey kv.1 = true → (filterClause? kv).isSome = true :=
  forall₂_of_foldlM (fun _ _ _ _ _ hkey hclause => isReadAs_readClause hkey hclause) h

theorem satisfies_iff {f : Filters} : s.satisfies f = true ↔
    s.npc.traitsHold f.traits = true ∧ s.npc.levelsHold f.levels = true ∧
      s.npc.formsHold f.forms = true ∧ s.stringsHold f.strings = true := by
  simp [Subject.satisfies, and_assoc]

theorem satisfies_addClause {before : Filters} {filter : ClauseFilter} (hproper : filter.IsProper)
    (hstrings : before.strings.IsUniform) (hforms : before.forms.IsUniform)
    (hgender : filter.isGender = true → before.traits.female = none) :
    s.satisfies (addClause before filter) = true ↔
      s.satisfies before = true ∧ filter.holdsOf s = true := by
  rw [satisfies_iff, satisfies_iff]
  cases filter with
  | gender female =>
    have hfree := hgender rfl
    simp only [addClause, ClauseFilter.holdsOf, Npc.traitsHold, hfree, Option.all_some,
      Option.all_none, Bool.true_and, Bool.and_eq_true]
    tauto
  | strings criterion =>
    have hand : (before.strings.and criterion).holds s.hasString = true ↔ _ :=
      Criterion.holds_and hstrings hproper.1
    simp only [addClause, ClauseFilter.holdsOf, Subject.stringsHold, hand]
    tauto
  | forms criterion =>
    have hand : (before.forms.and criterion).holds (fun p => (s.npc.placeOf? p.value).isSome) =
        true ↔ _ :=
      Criterion.holds_and hforms hproper.1
    simp only [addClause, ClauseFilter.holdsOf, Npc.formsHold, hand]
    tauto

theorem satisfies_foldl_addClause {read : List ClauseFilter} {before : Filters}
    (hproper : ∀ filter ∈ read, filter.IsProper)
    (hstrings : before.strings.IsUniform) (hforms : before.forms.IsUniform)
    (hgender : before.traits.female.toList.length + read.countP (·.isGender) ≤ 1) :
    s.satisfies (read.foldl addClause before) = true ↔
      s.satisfies before = true ∧ ∀ filter ∈ read, filter.holdsOf s = true := by
  induction read generalizing before with
  | nil => simp
  | cons filter rest ih =>
    obtain ⟨hfilter, hrest⟩ := List.forall_mem_cons.1 hproper
    have hfree : filter.isGender = true → before.traits.female = none := by
      intro hg
      rw [List.countP_cons_of_pos hg] at hgender
      rw [← Option.toList_eq_nil_iff, ← List.length_eq_zero_iff]
      omega
    have hstep := satisfies_addClause (s := s) hfilter hstrings hforms hfree
    rw [List.foldl_cons, ih hrest, hstep, List.forall_mem_cons, and_assoc]
    · cases filter with
      | strings criterion => exact hstrings.and hfilter.1
      | _ => exact hstrings
    · cases filter with
      | forms criterion => exact hforms.and hfilter.1
      | _ => exact hforms
    · cases filter with
      | gender female =>
        rw [List.countP_cons_of_pos rfl, hfree rfl] at hgender
        simpa [addClause, Nat.add_comm] using hgender
      | _ =>
        rw [List.countP_cons_of_neg (by simp [ClauseFilter.isGender])] at hgender
        exact hgender

theorem isForAll_addClause {filter : ClauseFilter} (h : filter.IsProper) (before : Filters) :
    (addClause before filter).isForAll = false := by
  cases filter with
  | gender female => simp [addClause, Filters.isForAll, Traits.Wanted.isEmpty]
  | strings criterion => simp [addClause, Filters.isForAll, Criterion.isEmpty_and, h.2]
  | forms criterion => simp [addClause, Filters.isForAll, Criterion.isEmpty_and, h.2]

theorem isForAll_foldl_addClause {read : List ClauseFilter} {before : Filters}
    (hproper : ∀ filter ∈ read, filter.IsProper) (h : before.isForAll = false ∨ read ≠ []) :
    (read.foldl addClause before).isForAll = false := by
  induction read generalizing before with
  | nil => simpa using h
  | cons filter rest ih =>
    obtain ⟨hfilter, hrest⟩ := List.forall_mem_cons.1 hproper
    exact ih hrest (Or.inl (isForAll_addClause hfilter before))

/-! ## Lines -/

theorem countP_isGender {clauses : List FilterClause} {read : List ClauseFilter}
    (h : List.Forall₂ (FilterClause.IsReadAs c) clauses read) :
    read.countP (·.isGender) = clauses.countP (·.field = .gender) := by
  induction h with
  | nil => rfl
  | cons hfirst _ ih =>
    have hgender := hfirst.isGender_iff
    simp only [List.countP_cons, ih, hgender, decide_eq_true_eq]

theorem countP_gender_le (kvs : List (Text × Text)) :
    (kvs.filterMap filterClause?).countP (·.field = .gender) ≤
      kvs.countP fun kv => Text.sameAscii kv.1 genderKey := by
  rw [List.countP_filterMap]
  refine List.countP_mono_left fun kv _ hgender => ?_
  rw [filterClause?] at hgender
  cases hkey : readKey? kv.1 with
  | none => simp [hkey] at hgender
  | some named =>
    obtain ⟨f, mode⟩ := named
    have hf : f = .gender := by simpa [hkey] using hgender
    subst hf
    exact (gender_of_readKey? hkey).2

theorem satisfies_empty : s.satisfies .empty = true := by
  rw [satisfies_iff]
  exact ⟨rfl, rfl, Criterion.holds_empty, Criterion.holds_empty⟩

/-- What the rules of a line are made of. -/
theorem filters_of_readLine {rules : List Rule} (h : readLine c n t = .rules rules) :
    splitClauses t = .ok (keyValues t) ∧
      ∃ filters, (keyValues t).foldlM (addKeyValue c) .empty = .ok filters ∧
        ∀ r ∈ rules, r.filters = filters := by
  obtain ⟨kvs, filters, hsplit, hfilters, hrules⟩ := rules_of_readLine h
  have hkvs : keyValues t = kvs := by simp [keyValues, hsplit, Except.toOption]
  rw [hkvs]
  refine ⟨hsplit, filters, hfilters, fun r hr => ?_⟩
  obtain ⟨slot, literal, ref, -, rfl⟩ := hrules r hr
  rfl

/-- The filters of a line ask for what its clauses ask for. -/
theorem satisfies_of_foldlM {kvs : List (Text × Text)} {filters : Filters}
    (h : kvs.foldlM (addKeyValue c) .empty = .ok filters)
    (hgender : (kvs.countP fun kv => Text.sameAscii kv.1 genderKey) ≤ 1) (s : Subject) :
    s.satisfies filters = true ↔ ∀ clause ∈ kvs.filterMap filterClause?, clause.HoldsOf c s := by
  obtain ⟨read, rfl, hread, -⟩ := readings_of_foldlM h
  have hproper : ∀ filter ∈ read, filter.IsProper := by
    intro filter hfilter
    obtain ⟨clause, -, hclause⟩ := exists_of_mem_right hread hfilter
    exact hclause.isProper
  have hcount : read.countP (·.isGender) ≤ 1 := by
    rw [countP_isGender hread]
    exact Nat.le_trans (countP_gender_le _) hgender
  rw [satisfies_foldl_addClause hproper Criterion.isUniform_empty Criterion.isUniform_empty
    (by simpa [Filters.empty, Traits.Wanted.empty] using hcount)]
  simp only [satisfies_empty, true_and]
  exact (forall_mem_congr hread fun _ _ filter hfilter => (hfilter.holdsOf_iff s).symm).symm

/-- No filter key of a line is passed over, and where there is one no rule is for everyone.  Each
clause names something, and where the sex is asked for at most once, a rule holds of a character
under any tags when all clauses do. -/
theorem readLine_satisfies_iff_clauses {rules : List Rule} (h : readLine c n t = .rules rules) :
    (∀ kv ∈ keyValues t, isFilterKey kv.1 = true → (filterClause? kv).isSome = true) ∧
      (∀ clause ∈ (keyValues t).filterMap filterClause?, clause.resolved c ≠ []) ∧
      ∀ r ∈ rules,
        ((∃ kv ∈ keyValues t, isFilterKey kv.1 = true) → r.filters.isForAll = false) ∧
        (((keyValues t).countP fun kv => Text.sameAscii kv.1 genderKey) ≤ 1 →
          ∀ s : Subject, s.satisfies r.filters = true ↔
            ∀ clause ∈ (keyValues t).filterMap filterClause?, clause.HoldsOf c s) := by
  obtain ⟨-, filters, hfilters, hrules⟩ := filters_of_readLine h
  obtain ⟨read, hfold, hread, hkeys⟩ := readings_of_foldlM hfilters
  refine ⟨hkeys, fun clause hclause => ?_, fun r hr => ⟨?_, fun hgender s => ?_⟩⟩
  · obtain ⟨filter, -, hfilter⟩ := exists_of_mem_left hread hclause
    exact hfilter.resolved_ne_nil
  · rintro ⟨kv, hkv, hfilter⟩
    obtain ⟨clause, hclause⟩ := Option.isSome_iff_exists.1 (hkeys kv hkv hfilter)
    have hmem : clause ∈ (keyValues t).filterMap filterClause? :=
      List.mem_filterMap.2 ⟨kv, hkv, hclause⟩
    obtain ⟨filter, hfilter, -⟩ := exists_of_mem_left hread hmem
    rw [hrules r hr, hfold]
    refine isForAll_foldl_addClause (fun other hother => ?_) (Or.inr (List.ne_nil_of_mem hfilter))
    obtain ⟨clause, -, hclause⟩ := exists_of_mem_right hread hother
    exact hclause.isProper
  · rw [hrules r hr]
    exact satisfies_of_foldlM hfilters hgender s

def court : Catalog :=
  .ofRecords
    [⟨⟨"Skyrim.esm", 1⟩, .faction, some "Guards", none⟩,
     ⟨⟨"Skyrim.esm", 2⟩, .faction, some "Nobles", none⟩,
     ⟨⟨"Skyrim.esm", 3⟩, .outfit, some "Parade", none⟩,
     ⟨⟨"Skyrim.esm", 4⟩, .keyword, some "Armed", none⟩,
     ⟨⟨"Skyrim.esm", 5⟩, .keyword, some "Mounted", none⟩,
     ⟨⟨"Skyrim.esm", 6⟩, .race, some "Nord", none⟩,
     ⟨⟨"Skyrim.esm", 7⟩, .race, some "Imperial", none⟩] [] []

def paradeLine : Text :=
  "filterByFactions=Guards,Nobles,Ghosts:filterByKeywordsOr=Armed,Mounted:".toList ++
    "filterByRaces=Nord,Imperial:filterByEditorIdContainsExcluded=Child:".toList ++
    "filterByGender=Female:outfitDefault=Parade"

def courtForm (kind : Form.Kind) (localId : UInt32) (editorId : Text) : Value :=
  .reference (.form kind ⟨"Skyrim.esm", localId⟩ (some editorId))

/-- The faction that nobody knows is left out, and both others have to be there.  Of the keywords
and of the races one is enough. -/
theorem parade_satisfies_iff :
    ((keyValues paradeLine).countP fun kv => Text.sameAscii kv.1 genderKey) ≤ 1 ∧
      ∃ r, readLine court 7 paradeLine = .rules [r] ∧ r.filters.isForAll = false ∧
        ∀ s : Subject, s.satisfies r.filters = true ↔
          (courtForm .faction 1 "Guards").isOn s = true ∧
          (courtForm .faction 2 "Nobles").isOn s = true ∧
          ((courtForm .keyword 4 "Armed").isOn s = true ∨
            (courtForm .keyword 5 "Mounted").isOn s = true) ∧
          ((courtForm .race 6 "Nord").isOn s = true ∨
            (courtForm .race 7 "Imperial").isOn s = true) ∧
          (Value.text "Child").isOn s = false ∧ s.npc.traits.female = true := by
  have hgender : ((keyValues paradeLine).countP fun kv => Text.sameAscii kv.1 genderKey) ≤ 1 := by
    decide +kernel
  have hclauses : (keyValues paradeLine).filterMap filterClause? =
      [⟨.form .faction, .plain, ["Guards", "Nobles", "Ghosts"]⟩,
       ⟨.form .keyword, .anyOf, ["Armed", "Mounted"]⟩,
       ⟨.form .race, .plain, ["Nord", "Imperial"]⟩, ⟨.editorId, .excluded, ["Child"]⟩,
       ⟨.gender, .plain, ["Female"]⟩] := by
    decide +kernel
  have hfactions : FilterClause.resolved court
      ⟨.form .faction, .plain, ["Guards", "Nobles", "Ghosts"]⟩ =
      [courtForm .faction 1 "Guards", courtForm .faction 2 "Nobles"] := by
    decide +kernel
  have hkeywords : FilterClause.resolved court ⟨.form .keyword, .anyOf, ["Armed", "Mounted"]⟩ =
      [courtForm .keyword 4 "Armed", courtForm .keyword 5 "Mounted"] := by
    decide +kernel
  have hraces : FilterClause.resolved court ⟨.form .race, .plain, ["Nord", "Imperial"]⟩ =
      [courtForm .race 6 "Nord", courtForm .race 7 "Imperial"] := by
    decide +kernel
  have hsex : FilterClause.resolved court ⟨.gender, .plain, ["Female"]⟩ = [.sex true] := by
    decide +kernel
  have hone : (match readLine court 7 paradeLine with
      | .rules rules => rules.length
      | _ => 0) = 1 := by
    decide +kernel
  cases hread : readLine court 7 paradeLine with
  | rules rules =>
    rw [hread] at hone
    obtain ⟨r, rfl⟩ := List.length_eq_one_iff.1 hone
    obtain ⟨-, -, hrules⟩ := readLine_satisfies_iff_clauses hread
    obtain ⟨hforAll, hsatisfies⟩ := hrules r List.mem_cons_self
    refine ⟨hgender, r, rfl, hforAll (by decide +kernel), fun s => ?_⟩
    rw [hsatisfies hgender, hclauses]
    simp only [List.forall_mem_cons, FilterClause.HoldsOf, hfactions, hkeywords, hraces, hsex]
    simp [Asks, Field.asksForAll, FilterClause.resolved, Value.isOn, and_assoc]
  | unparseable | ignored =>
    rw [hread] at hone
    cases hone

end SkyPatcher
end Wardrobe
