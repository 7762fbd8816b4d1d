import Wardrobe.Proofs.SkyPatcher.Written
import Wardrobe.Proofs.Snapshot
/-
SkyPatcher lines written from rules of either format, and read back.

A line that can be written is read as one rule.  Its clauses are those that were written, and
these ask of every character what the filters did, so the rule means the same.
-/

namespace Wardrobe
namespace SkyPatcher

variable {c : Catalog} {f : Field} {mode : Mode} {l : ClauseLists} {female : Option Bool}
  {s : Subject} {clause : FilterClause} {n : Nat}

/-! ## The clauses of a written line -/

def sexName (female : Bool) : Text := if female then "female" else "male"

/-- The clause of a list, unless it is empty. -/
def listedClause (l : ClauseLists) (f : Field) (mode : Mode) : List FilterClause :=
  if l.listAt mode f = [] then [] else [⟨f, mode, l.listAt mode f⟩]

def writtenClauses (l : ClauseLists) (female : Option Bool) (f : Field) : List FilterClause :=
  if f = .gender then female.toList.map fun b => ⟨.gender, .plain, [sexName b]⟩
  else listedClause l f .plain ++ listedClause l f .anyOf ++ listedClause l f .excluded

def clausesOf (l : ClauseLists) (female : Option Bool) : List FilterClause :=
  Field.all.flatMap (writtenClauses l female)

def FilterClause.keyValue (clause : FilterClause) : Text × Text :=
  (clauseKey clause.field clause.mode, Text.joined "," clause.values)

def keyValueText (kv : Text × Text) : Text := kv.1 ++ "=" ++ kv.2

theorem clause_eq (f : Field) (mode : Mode) (l : ClauseLists) :
    SkyPatcher.clause (filterOpening ++ f.name ++ modeEnding mode) (l.listAt mode f) =
      (listedClause l f mode).map fun clause => keyValueText clause.keyValue := by
  rw [SkyPatcher.clause, listedClause]
  by_cases hempty : l.listAt mode f = []
  · rw [if_pos hempty, if_pos (by simp [hempty])]
    rfl
  · rw [if_neg hempty, if_neg (by simpa using hempty)]
    rfl

theorem fieldClauses_eq (l : ClauseLists) (female : Option Bool) (f : Field) :
    fieldClauses l female f =
      (writtenClauses l female f).map fun clause => keyValueText clause.keyValue := by
  have hplain := clause_eq f .plain l
  have hanyOf := clause_eq f .anyOf l
  have hexcluded := clause_eq f .excluded l
  rw [modeEnding, List.append_nil] at hplain
  unfold fieldClauses
  rw [writtenClauses]
  by_cases hgender : f = .gender
  · subst hgender
    rcases female with _ | _ | _ <;> rfl
  · simp only [hgender, if_false, List.map_append, ← hplain, ← hanyOf, ← hexcluded]
    rfl

theorem mem_listedClause : clause ∈ listedClause l f mode ↔
    l.listAt mode f ≠ [] ∧ clause = ⟨f, mode, l.listAt mode f⟩ := by
  rw [listedClause]
  split
  next hempty => simp [hempty]
  next hne => simp [hne]

theorem mem_writtenClauses_of_ne_gender (hf : f ≠ .gender) :
    clause ∈ writtenClauses l female f ↔
      ∃ mode, l.listAt mode f ≠ [] ∧ clause = ⟨f, mode, l.listAt mode f⟩ := by
  simp only [writtenClauses, if_neg hf, List.mem_append, mem_listedClause]
  constructor
  · rintro ((h | h) | h)
    · exact ⟨.plain, h⟩
    · exact ⟨.anyOf, h⟩
    · exact ⟨.excluded, h⟩
  · rintro ⟨mode, h⟩
    cases mode with
    | plain => exact Or.inl (Or.inl h)
    | anyOf => exact Or.inl (Or.inr h)
    | excluded => exact Or.inr h

theorem mem_writtenClauses_gender : clause ∈ writtenClauses l female .gender ↔
    ∃ b ∈ female, clause = ⟨.gender, .plain, [sexName b]⟩ := by
  rw [writtenClauses, if_pos rfl]
  simp only [List.mem_map, Option.mem_toList]
  exact exists_congr fun b => and_congr_right fun _ => eq_comm

theorem field_of_mem_writtenClauses (h : clause ∈ writtenClauses l female f) :
    clause.field = f := by
  by_cases hf : f = .gender
  · subst hf
    obtain ⟨b, -, rfl⟩ := mem_writtenClauses_gender.1 h
    rfl
  · obtain ⟨mode, -, rfl⟩ := (mem_writtenClauses_of_ne_gender hf).1 h
    rfl

theorem mem_clausesOf : clause ∈ clausesOf l female ↔
    (∃ b ∈ female, clause = ⟨.gender, .plain, [sexName b]⟩) ∨
      ∃ f mode, f ≠ .gender ∧ l.listAt mode f ≠ [] ∧ clause = ⟨f, mode, l.listAt mode f⟩ := by
  rw [clausesOf, List.mem_flatMap]
  constructor
  · rintro ⟨f, -, h⟩
    by_cases hf : f = .gender
    · subst hf
      exact Or.inl (mem_writtenClauses_gender.1 h)
    · obtain ⟨mode, h⟩ := (mem_writtenClauses_of_ne_gender hf).1 h
      exact Or.inr ⟨f, mode, hf, h⟩
  · rintro (hsex | ⟨f, mode, hf, h⟩)
    · exact ⟨.gender, Field.mem_all _, mem_writtenClauses_gender.2 hsex⟩
    · exact ⟨f, Field.mem_all f, (mem_writtenClauses_of_ne_gender hf).2 ⟨mode, h⟩⟩

/-! ## Keys -/

theorem isAlpha_of_mem_clauseKey {ch : Char} (h : ch ∈ clauseKey f mode) : ch.isAlpha = true := by
  have hnames : ∀ f ∈ Field.all, f.name.all Char.isAlpha = true := by decide
  have hopening : filterOpening.all Char.isAlpha = true := by decide
  have hending : (modeEnding mode).all Char.isAlpha = true := by cases mode <;> decide
  rcases List.mem_append.1 h with h | h
  · rcases List.mem_append.1 h with h | h
    · exact List.all_eq_true.1 hopening ch h
    · exact List.all_eq_true.1 (hnames f (Field.mem_all f)) ch h
  · exact List.all_eq_true.1 hending ch h

theorem isAlpha_of_mem_assignmentKey {slot : Slot} {ch : Char} (h : ch ∈ assignmentKey slot) :
    ch.isAlpha = true := by
  have hall : (assignmentKey slot).all Char.isAlpha = true := by cases slot <;> decide
  exact List.all_eq_true.1 hall ch h

theorem not_listable_gender {t : Text} : ¬ Listable c ⟨.gender, t⟩ := by
  intro h
  generalize hv : (⟨.gender, t⟩ : ListedValue) = v at h
  cases h with
  | text u => cases hv
  | reference ref => cases ref <;> cases hv

/-- A clause that is read back as it was written. -/
structure FilterClause.IsWritten (c : Catalog) (clause : FilterClause) : Prop where
  choice : clause.mode = .anyOf → clause.field.asksForAll = true
  gender : clause.field = .gender → clause.mode = .plain ∧ ∃ b, clause.values = [sexName b]
  listable : clause.field ≠ .gender → ∀ t ∈ clause.values, Listable c ⟨clause.field, t⟩
  ne_nil : clause.values ≠ []

theorem isWritten_of_mem_clausesOf (hl : l.IsMadeOf (Listable c))
    (h : clause ∈ clausesOf l female) : clause.IsWritten c := by
  rcases mem_clausesOf.1 h with ⟨b, -, rfl⟩ | ⟨f, mode, hf, hne, rfl⟩
  · refine ⟨fun hmode => ?_, fun _ => ⟨rfl, b, rfl⟩, fun h => absurd rfl h, List.cons_ne_nil _ _⟩
    cases hmode
  · refine ⟨fun hmode => ?_, fun hgender => absurd hgender hf, fun _ => hl.known mode f, hne⟩
    dsimp only at hmode
    subst hmode
    exact hl.choice f hne

namespace FilterClause.IsWritten

variable (h : clause.IsWritten c)
include h

theorem readKey? : SkyPatcher.readKey? clause.keyValue.1 = some (clause.field, clause.mode) :=
  readKey?_clauseKey h.choice fun hf => (h.gender hf).1

theorem isPiece_values (hkeys : c.HasWellFormedKeys) :
    ∀ t ∈ clause.values, Text.IsPiece t ∧ ∀ ch ∈ ",:;".toList, ch ∉ t := by
  by_cases hgender : clause.field = .gender
  · obtain ⟨-, b, hvalues⟩ := h.gender hgender
    have hsex : ∀ ch ∈ sexName b, ch.isAlpha = true :=
      List.all_eq_true.1 (by cases b <;> decide)
    have hne : sexName b ≠ [] := by cases b <;> decide
    rw [hvalues, List.forall_mem_singleton]
    have hmarks : ∀ ch ∈ ",:;".toList, ch.isAlpha = false := Text.forall_mem_of_all (by decide)
    exact ⟨Text.isPiece_of_letters hne hsex,
      fun ch hch => Text.not_mem_of_forall hsex (hmarks ch hch)⟩
  · intro t ht
    have hlistable := h.listable hgender t ht
    exact ⟨hlistable.isPiece hkeys, fun ch hch => hlistable.not_mem hch⟩

theorem pieces_values (hkeys : c.HasWellFormedKeys) :
    Text.pieces ',' clause.keyValue.2 = clause.values :=
  Text.pieces_joined fun t ht =>
    ⟨(h.isPiece_values hkeys t ht).1, (h.isPiece_values hkeys t ht).2 ',' (by decide)⟩

theorem filterClause? (hkeys : c.HasWellFormedKeys) :
    SkyPatcher.filterClause? clause.keyValue = some clause := by
  rw [SkyPatcher.filterClause?, h.readKey?, Option.map_some, h.pieces_values hkeys]

end FilterClause.IsWritten

/-! ## The line -/

/-- A key and its value that a line can be made of. -/
structure IsPair (kv : Text × Text) : Prop where
  key : Text.IsPiece kv.1
  value : Text.IsPiece kv.2
  letters : ∀ ch ∈ kv.1, ch.isAlpha = true
  marks : ∀ ch ∈ ":;".toList, ch ∉ kv.2

theorem IsPair.not_mem_key {kv : Text × Text} (h : IsPair kv) {ch : Char}
    (hch : ch.isAlpha = false) : ch ∉ kv.1 := Text.not_mem_of_forall h.letters hch

theorem IsPair.not_mem {kv : Text × Text} (h : IsPair kv) {ch : Char} (hch : ch ∈ ":;".toList) :
    ch ∉ keyValueText kv := by
  have hall : ∀ ch ∈ ":;".toList, ch.isAlpha = false ∧ ch ≠ '=' :=
    Text.forall_mem_of_all (by decide)
  obtain ⟨halpha, hequals⟩ := hall ch hch
  simp [keyValueText, h.not_mem_key halpha, hequals, h.marks ch hch]

theorem IsPair.isPiece {kv : Text × Text} (h : IsPair kv) : Text.IsPiece (keyValueText kv) :=
  h.key.append h.value _

theorem IsPair.splitClause {kv : Text × Text} (h : IsPair kv) :
    SkyPatcher.splitClause (keyValueText kv) = .ok kv := by
  have hspell : keyValueText kv = kv.1 ++ '=' :: kv.2 := by simp [keyValueText]
  rw [SkyPatcher.splitClause, hspell, Text.cutAt_append (h.not_mem_key (by decide))]
  simp only [h.key.trim_eq, h.value.trim_eq]

theorem splitClauses_joined {kvs : List (Text × Text)} (h : ∀ kv ∈ kvs, IsPair kv) :
    splitClauses (Text.joined ":" (kvs.map keyValueText)) = .ok kvs :=
  (mapM_pieces_joined fun kv hkv =>
    ⟨(h kv hkv).isPiece, (h kv hkv).not_mem (by decide)⟩).2 fun kv hkv => (h kv hkv).splitClause

/-- A line is trimmed, has no comment and begins with a letter. -/
theorem isPiece_joined_keyValueText {kvs : List (Text × Text)} (hne : kvs ≠ [])
    (h : ∀ kv ∈ kvs, IsPair kv) :
    Text.IsPiece (Text.joined ":" (kvs.map keyValueText)) ∧
      ';' ∉ Text.joined ":" (kvs.map keyValueText) ∧
      ∃ ch rest, Text.joined ":" (kvs.map keyValueText) = ch :: rest ∧ ch.isAlpha = true := by
  refine ⟨Text.isPiece_joined (by simpa using hne) ?_, fun hmem => ?_, ?_⟩
  · rw [List.forall_mem_map]
    exact fun kv hkv => (h kv hkv).isPiece
  · rcases Text.mem_joined hmem with hsep | ⟨t, ht, hin⟩
    · revert hsep
      decide
    · obtain ⟨kv, hkv, rfl⟩ := List.mem_map.1 ht
      exact (h kv hkv).not_mem (by decide) hin
  · obtain ⟨kv, rest, rfl⟩ := List.exists_cons_of_ne_nil hne
    have hkv := h kv List.mem_cons_self
    obtain ⟨ch, tail, hkey⟩ := List.exists_cons_of_ne_nil hkv.key.ne_nil
    obtain ⟨behind, hbehind⟩ := Text.prefix_joined ":" (keyValueText kv) (rest.map keyValueText)
    refine ⟨ch, tail ++ "=" ++ kv.2 ++ behind, ?_, hkv.letters ch (by rw [hkey]; simp)⟩
    rw [List.map_cons, ← hbehind, keyValueText, hkey]
    simp

theorem isPair_of_letters {key value : Text} (hne : key ≠ [])
    (hletters : ∀ ch ∈ key, ch.isAlpha = true) (hvalue : Text.IsPiece value)
    (hmarks : ∀ ch ∈ ":;".toList, ch ∉ value) : IsPair (key, value) :=
  ⟨Text.isPiece_of_letters hne hletters, hvalue, hletters, hmarks⟩

theorem clauseKey_ne_nil (f : Field) (mode : Mode) : clauseKey f mode ≠ [] := by
  have hopening : filterOpening ≠ [] := by decide
  exact List.append_ne_nil_of_left_ne_nil (List.append_ne_nil_of_left_ne_nil hopening _) _

theorem FilterClause.IsWritten.isPair (h : clause.IsWritten c) (hkeys : c.HasWellFormedKeys) :
    IsPair clause.keyValue := by
  have hvalues := h.isPiece_values hkeys
  have hjoined : Text.IsPiece (Text.joined "," clause.values) :=
    Text.isPiece_joined h.ne_nil fun t ht => (hvalues t ht).1
  refine isPair_of_letters (clauseKey_ne_nil clause.field clause.mode)
    (fun ch hch => isAlpha_of_mem_clauseKey hch) hjoined fun ch hch hmem => ?_
  have hmarks : ∀ ch ∈ ":;".toList, ch ∈ ",:;".toList ∧ ch ∉ ",".toList :=
    Text.forall_mem_of_all (by decide)
  rcases Text.mem_joined hmem with hsep | ⟨t, ht, hin⟩
  · exact (hmarks ch hch).2 hsep
  · exact (hvalues t ht).2 ch (hmarks ch hch).1 hin

theorem resolveValue_of_listable (hkeys : c.HasWellFormedKeys) {t : Text}
    (h : Listable c ⟨f, t⟩) (htext : f ≠ .editorId) : (resolveValue c f t).isSome = true := by
  cases h with
  | text => exact absurd rfl htext
  | reference ref hknows hplain =>
    rw [Reference.resolveValue_skyPatcherText hkeys hknows hplain]
    rfl

namespace FilterClause

/-- What a clause over texts asks for. -/
def strings (clause : FilterClause) : Criterion Text :=
  criterionOf clause.field clause.mode
    (clause.values.map fun t => ⟨t, clause.mode == .excluded, true⟩)

/-- What a clause over references asks for. -/
def forms (c : Catalog) (clause : FilterClause) : Criterion Reference :=
  criterionOf clause.field clause.mode ((clause.values.filterMap (resolveValue c clause.field)).map
    fun ref => ⟨ref, clause.mode == .excluded, false⟩)

/-- What a written clause is read as. -/
def filter (c : Catalog) (clause : FilterClause) : ClauseFilter :=
  match clause.field with
  | .gender => .gender (clause.values == [sexName true])
  | .editorId => .strings clause.strings
  | _ => .forms (clause.forms c)

theorem IsWritten.readClause_eq (h : clause.IsWritten c) (hkeys : c.HasWellFormedKeys) :
    readClause c clause.field clause.mode clause.keyValue.1 clause.keyValue.2 =
      .ok (clause.filter c) := by
  have hforms (hgender : clause.field ≠ .gender) (htext : clause.field ≠ .editorId) :
      readReferences c clause.field clause.mode clause.keyValue.1 clause.values =
        .ok (.forms (clause.forms c)) := by
    obtain ⟨t, ht⟩ := List.exists_mem_of_ne_nil _ h.ne_nil
    obtain ⟨ref, href⟩ := Option.isSome_iff_exists.1
      (resolveValue_of_listable hkeys (h.listable hgender t ht) htext)
    have hsome : ref ∈ clause.values.filterMap (resolveValue c clause.field) :=
      List.mem_filterMap.2 ⟨t, ht, href⟩
    rw [readReferences, if_neg (by simpa using List.ne_nil_of_mem hsome)]
    rfl
  unfold readClause
  dsimp only
  rw [h.pieces_values hkeys, if_neg (by simpa using h.ne_nil)]
  obtain ⟨f, mode, values⟩ := clause
  cases f with
  | gender =>
    obtain ⟨-, b, rfl⟩ := h.gender rfl
    cases b <;> rfl
  | editorId => rfl
  | form kind => exact hforms (fun hf => by cases hf) (fun hf => by cases hf)
  | plugin => exact hforms (fun hf => by cases hf) (fun hf => by cases hf)

/-- A written clause is taken into any filters. -/
theorem IsWritten.isOk (h : clause.IsWritten c) (hkeys : c.HasWellFormedKeys)
    (before : Filters) : ∃ after, addKeyValue c before clause.keyValue = .ok after := by
  have hadd : addKeyValue c before clause.keyValue =
      (readClause c clause.field clause.mode clause.keyValue.1 clause.keyValue.2).map
        (addClause before) :=
    addKeyValue_of_readKey? h.readKey? before
  rw [h.readClause_eq hkeys] at hadd
  exact ⟨_, hadd⟩

end FilterClause

theorem exists_foldlM {kvs : List (Text × Text)}
    (h : ∀ kv ∈ kvs, ∀ before, ∃ after, addKeyValue c before kv = .ok after) (before : Filters) :
    ∃ after, kvs.foldlM (addKeyValue c) before = .ok after := by
  induction kvs generalizing before with
  | nil => exact ⟨before, rfl⟩
  | cons kv rest ih =>
    obtain ⟨hkv, hrest⟩ := List.forall_mem_cons.1 h
    obtain ⟨next, hnext⟩ := hkv before
    obtain ⟨after, hafter⟩ := ih hrest next
    exact ⟨after, by rw [List.foldlM_cons, hnext]; exact hafter⟩

theorem filterClause?_assignment (slot : Slot) (value : Text) :
    SkyPatcher.filterClause? (assignmentKey slot, value) = none := by
  cases slot <;> rfl

theorem addKeyValue_assignment (slot : Slot) (value : Text) (before : Filters) :
    addKeyValue c before (assignmentKey slot, value) = .ok before := by
  cases slot <;> rfl

/-- No key but the one for the sex is taken for it. -/
theorem countP_genderKey_le (l : ClauseLists) (female : Option Bool) :
    ((clausesOf l female).map (·.keyValue)).countP
      (fun kv => Text.sameAscii kv.1 genderKey) ≤ 1 := by
  have hall : Field.all = Field.all.dropLast ++ [.gender] := rfl
  have hkeys : ∀ f ∈ Field.all.dropLast, f ≠ .gender ∧
      ∀ mode ∈ [Mode.plain, .anyOf, .excluded],
        Text.sameAscii (clauseKey f mode) genderKey = false := by
    decide +kernel
  have hothers : (Field.all.dropLast.flatMap (writtenClauses l female)).countP
      (fun clause => Text.sameAscii clause.keyValue.1 genderKey) = 0 := by
    rw [List.countP_eq_zero]
    intro clause hclause
    obtain ⟨f, hf, hclause⟩ := List.mem_flatMap.1 hclause
    obtain ⟨hgender, hkey⟩ := hkeys f hf
    obtain ⟨mode, -, rfl⟩ := (mem_writtenClauses_of_ne_gender hgender).1 hclause
    rw [FilterClause.keyValue, hkey mode (by cases mode <;> decide)]
    exact Bool.false_ne_true
  have hsex : (writtenClauses l female .gender).length ≤ 1 := by
    cases female <;> simp [writtenClauses]
  rw [List.countP_map, clausesOf, hall, List.flatMap_append, List.countP_append]
  have hlast := List.countP_le_length
    (p := fun clause : FilterClause => Text.sameAscii clause.keyValue.1 genderKey)
    (l := writtenClauses l female .gender)
  rw [List.flatMap_singleton]
  simp only [Function.comp_def]
  omega

/-! ## Reading a written line -/

variable {r : Rule} {ref : Reference} {slot : Slot} {out : Text}

/-- The keys and values of a written line. -/
def lineOf (l : ClauseLists) (female : Option Bool) (slot : Slot) (ref : Reference) :
    List (Text × Text) :=
  (clausesOf l female).map (·.keyValue) ++ [(assignmentKey slot, ref.skyPatcherText)]

/-- What can be written, and what is written for it. -/
structure IsRendered (r : Rule) (out : Text) (slot : Slot) (ref : Reference) (l : ClauseLists) :
    Prop where
  target : r.target = .outfit slot ref
  isCertain : r.isCertain = true
  levels : r.filters.levels = []
  traits : onlyGender r.filters.traits = true
  clauseLists : SkyPatcher.clauseLists r.filters = .ok l
  text : out = Text.joined ":" ((lineOf l r.filters.traits.female slot ref).map keyValueText)

theorem flatMap_fieldClauses (l : ClauseLists) (female : Option Bool) :
    Field.all.flatMap (fieldClauses l female) =
      ((clausesOf l female).map (·.keyValue)).map keyValueText := by
  rw [clausesOf, List.map_map, List.map_flatMap]
  exact congrArg (List.flatMap · _) (funext fun f => fieldClauses_eq l _ f)

theorem isRendered_of_render (h : render r = .ok out) :
    ∃ slot ref l, IsRendered r out slot ref l := by
  unfold render at h
  split at h
  · cases h
  next slot ref htarget =>
    dsimp only at h
    split at h
    · cases h
    next hcertain =>
    split at h
    · cases h
    split at h
    · cases h
    next hlevels =>
    split at h
    · cases h
    next htraits =>
    obtain ⟨l, hl, h⟩ := bind_eq_ok.1 h
    refine ⟨slot, ref, l, htarget, by simpa using hcertain, by simpa using hlevels,
      by simpa using htraits, hl, ?_⟩
    rw [lineOf, List.map_append, ← flatMap_fieldClauses]
    exact (Except.ok.inj h).symm

theorem IsRendered.render_eq {l : ClauseLists} (h : IsRendered r out slot ref l)
    (hextra : r.extra = none) : render r = .ok out := by
  unfold render
  rw [h.target]
  dsimp only
  rw [if_neg (by simp [h.isCertain]), if_neg (by simp [hextra]), if_neg (by simp [h.levels]),
    if_neg (by simp [h.traits]), h.clauseLists, h.text, lineOf, List.map_append,
    ← flatMap_fieldClauses]
  rfl

section Reading

variable (hl : l.IsMadeOf (Listable c))
include hl

theorem assignments_lineOf :
    assignments (lineOf l female slot ref) = [(slot, ref.skyPatcherText)] := by
  have hslot : slotOfKey? (assignmentKey slot) = some slot := by cases slot <;> rfl
  have hclauses : assignments ((clausesOf l female).map (·.keyValue)) = [] := by
    rw [assignments, List.filterMap_eq_nil_iff, List.forall_mem_map]
    intro clause hclause
    have hkey := (isWritten_of_mem_clausesOf hl hclause).readKey?
    have hnone := slotOfKey?_eq_none (isFilterKey_of_readKey? (by rw [hkey]; rfl))
    dsimp only
    rw [hnone, Option.map_none]
  rw [assignments, lineOf, List.filterMap_append, ← assignments, hclauses]
  simp [hslot]

variable (hkeys : c.HasWellFormedKeys)
include hkeys

theorem isPair_of_mem_lineOf (hknows : c.Knows ref) (hplain : IsPlainPlugin ref.pluginName) :
    ∀ kv ∈ lineOf l female slot ref, IsPair kv := by
  have hassignment : IsPair (assignmentKey slot, ref.skyPatcherText) := by
    have hne : assignmentKey slot ≠ [] := by cases slot <;> decide
    have hmarks : ∀ ch ∈ ":;".toList, ch ∈ ",:;".toList := Text.forall_mem_of_all (by decide)
    exact isPair_of_letters hne (fun ch hch => isAlpha_of_mem_assignmentKey hch)
      (Reference.isPiece_skyPatcherText hkeys hknows)
      fun ch hch => Reference.not_mem_skyPatcherText hplain (hmarks ch hch)
  intro kv hkv
  rcases List.mem_append.1 hkv with hkv | hkv
  · obtain ⟨clause, hclause, rfl⟩ := List.mem_map.1 hkv
    exact (isWritten_of_mem_clausesOf hl hclause).isPair hkeys
  · obtain rfl := List.mem_singleton.1 hkv
    exact hassignment

theorem exists_filters_lineOf :
    ∃ filters, (lineOf l female slot ref).foldlM (addKeyValue c) .empty = .ok filters := by
  refine exists_foldlM (fun kv hkv before => ?_) _
  rcases List.mem_append.1 hkv with hkv | hkv
  · obtain ⟨clause, hclause, rfl⟩ := List.mem_map.1 hkv
    exact (isWritten_of_mem_clausesOf hl hclause).isOk hkeys before
  · obtain rfl := List.mem_singleton.1 hkv
    exact ⟨before, addKeyValue_assignment slot _ before⟩

theorem filterClauses_lineOf :
    (lineOf l female slot ref).filterMap filterClause? = clausesOf l female := by
  have hclauses : ∀ clause ∈ clausesOf l female,
      (filterClause? ∘ fun clause => clause.keyValue) clause = some clause :=
    fun clause hclause => (isWritten_of_mem_clausesOf hl hclause).filterClause? hkeys
  rw [lineOf, List.filterMap_append, List.filterMap_map,
    List.filterMap_congr (g := some) hclauses, List.filterMap_some,
    List.filterMap_cons_none (filterClause?_assignment slot _), List.filterMap_nil,
    List.append_nil]

/-- The clauses of a written line ask for the sex and for what the lists ask for. -/
theorem holdsOf_clausesOf : (∀ clause ∈ clausesOf l female, clause.HoldsOf c s) ↔
    (∀ b ∈ female, b = s.npc.traits.female) ∧ l.Holds (ListedValue.isOn c s) := by
  have hsex (b : Bool) : FilterClause.HoldsOf c s ⟨.gender, .plain, [sexName b]⟩ ↔
      b = s.npc.traits.female := by
    have hnamed : sexNamed? (sexName b) = some b := by cases b <;> rfl
    rw [← (isReadAs_gender hnamed).holdsOf_iff, ClauseFilter.holdsOf, beq_iff_eq]
  have hlisted (f : Field) (mode : Mode) :
      FilterClause.HoldsOf c s ⟨f, mode, l.listAt mode f⟩ ↔
        Asks f mode (l.listAt mode f) fun t => ListedValue.isOn c s ⟨f, t⟩ :=
    holdsOf_iff hkeys (hl.known mode f)
  constructor
  · intro hall
    refine ⟨fun b hb => ?_, fun mode f hne => ?_⟩
    · exact (hsex b).1 (hall _ (mem_clausesOf.2 (Or.inl ⟨b, hb, rfl⟩)))
    · have hf : f ≠ .gender := by
        rintro rfl
        obtain ⟨t, ht⟩ := List.exists_mem_of_ne_nil _ hne
        exact not_listable_gender (hl.known mode _ t ht)
      exact (hlisted f mode).1 (hall _ (mem_clausesOf.2 (Or.inr ⟨f, mode, hf, hne, rfl⟩)))
  · rintro ⟨hfemale, hholds⟩ clause hclause
    rcases mem_clausesOf.1 hclause with ⟨b, hb, rfl⟩ | ⟨f, mode, -, hne, rfl⟩
    · exact (hsex b).2 (hfemale b hb)
    · exact (hlisted f mode).2 (hholds mode f hne)

end Reading

/-! ## Rules -/

/-- A rule whose parts can be written: they are known, and no mark of a line stands in them. -/
structure IsWritable (c : Catalog) (r : Rule) : Prop where
  parts : r.filters.HaveKnownParts c
  outfit : ∀ slot ref, r.target = .outfit slot ref →
    c.Knows ref ∧ Field.ofReference ref = .form .outfit
  texts : ∀ p ∈ r.filters.strings.parts, p.wildcard = true → ',' ∉ p.value ∧ ':' ∉ p.value
  plugins : ∀ ref ∈ r.references, IsPlainPlugin ref.pluginName

theorem isWritable_of_readRuleLine {dialect : Dialect} {line : Text} {rules : List Rule}
    (h : readRuleLine c dialect n line = .rules rules) (hr : r ∈ rules)
    (htexts : ∀ p ∈ r.filters.strings.parts, p.wildcard = true → ',' ∉ p.value ∧ ':' ∉ p.value)
    (hplugins : ∀ ref ∈ r.references, IsPlainPlugin ref.pluginName) : IsWritable c r := by
  obtain ⟨hparts, houtfit⟩ := haveKnownParts_readRuleLine h r hr
  refine ⟨hparts, fun slot ref htarget => ⟨houtfit slot ref htarget, ?_⟩, htexts, hplugins⟩
  obtain ⟨key, e, rfl⟩ := (isReadAs_readRuleLine h r hr).outfit slot ref htarget
  rfl

section Values

variable (h : IsWritable c r)
include h

theorem IsWritable.listable_stringValue {p : Criterion.Part Text} {v : ListedValue}
    (hp : p ∈ r.filters.strings.parts) (hv : stringValue p = .ok v) :
    Listable c v ∧ ∀ s : Subject, v.isOn c s = s.hasString p := by
  rw [stringValue] at hv
  split at hv
  next hwildcard =>
    obtain rfl := Except.ok.inj hv
    obtain ⟨hpiece, hcomment⟩ := h.parts.strings p hp
    obtain ⟨hcomma, hcolon⟩ := h.texts p hp hwildcard
    have hmarks : ∀ ch ∈ ",:;".toList, ch ∉ p.value := by
      simp only [String.reduceToList, List.forall_mem_cons]
      exact ⟨hcomma, hcolon, hcomment, List.forall_mem_nil _⟩
    refine ⟨.text p.value hpiece hmarks, fun s => ?_⟩
    rw [isOn_text, Subject.hasString, if_pos hwildcard]
  next => cases hv

theorem IsWritable.listable_formValue {p : Criterion.Part Reference} {v : ListedValue}
    (hkeys : c.HasWellFormedKeys) (hp : p ∈ r.filters.forms.parts) (hv : formValue p = .ok v) :
    Listable c v ∧ ∀ s : Subject, v.isOn c s = (s.npc.placeOf? p.value).isSome := by
  obtain rfl := Except.ok.inj hv
  have hknows := h.parts.forms p hp
  have hplain : IsPlainPlugin p.value.pluginName :=
    h.plugins p.value (List.mem_append_right _ (List.mem_map_of_mem hp))
  exact ⟨.reference p.value hknows hplain, fun s => isOn_reference hkeys hknows hplain⟩

/-- The lists that are found for a rule can be written. -/
theorem IsWritable.isMadeOf (hkeys : c.HasWellFormedKeys)
    (hlists : clauseLists r.filters = .ok l) : l.IsMadeOf (Listable c) := by
  have hcase : SeesNoCase (fun _ => true) (Listable c) := fun _ _ _ _ _ _ => rfl
  exact (holds_clauseLists hcase
    (fun _ hp _ hv => ⟨(h.listable_stringValue hp hv).1, rfl⟩)
    (fun _ hp _ hv => ⟨(h.listable_formValue hkeys hp hv).1, rfl⟩) hlists).1

/-- The lists that are found for a rule ask for the same as its filters. -/
theorem IsWritable.holds_iff (hkeys : c.HasWellFormedKeys)
    (hcounted : ¬ IsMiscounted (formAlternatives r.filters.forms))
    (hlists : clauseLists r.filters = .ok l) : l.Holds (ListedValue.isOn c s) ↔
      s.stringsHold r.filters.strings = true ∧ s.npc.formsHold r.filters.forms = true := by
  refine (holds_clauseLists (seesNoCase_isOn hkeys s) (fun p hp v hv => ?_) (fun p hp v hv => ?_)
    hlists).2 hcounted
  · have hlistable := h.listable_stringValue hp hv
    exact ⟨hlistable.1, hlistable.2 s⟩
  · have hlistable := h.listable_formValue hkeys hp hv
    exact ⟨hlistable.1, hlistable.2 s⟩

end Values

theorem onlyGender_iff {t : Traits.Wanted} (h : onlyGender t = true) :
    s.npc.traitsHold t = true ↔ ∀ b ∈ t.female, b = s.npc.traits.female := by
  simp only [onlyGender, Bool.and_eq_true, Option.isNone_iff_eq_none] at h
  obtain ⟨⟨⟨hunique, hsummonable⟩, hchild⟩, hleveled⟩ := h
  simp [Npc.traitsHold, hunique, hsummonable, hchild, hleveled, Option.all_eq_true]

/-- A line of clauses and an assignment is read as one rule. -/
theorem readLine_lineOf (hl : l.IsMadeOf (Listable c)) (hkeys : c.HasWellFormedKeys)
    (hknows : c.Knows ref) (houtfit : Field.ofReference ref = .form .outfit)
    (hplain : IsPlainPlugin ref.pluginName)
    (hout : out = Text.joined ":" ((lineOf l female slot ref).map keyValueText)) (m : Nat) :
    ∃ filters, (lineOf l female slot ref).foldlM (addKeyValue c) .empty = .ok filters ∧
      readLine c m out =
        .rules [⟨.skyPatcher, m, out, .outfit slot ref, filters, none, none⟩] := by
  obtain ⟨filters, hfilters⟩ :
      ∃ filters, (lineOf l female slot ref).foldlM (addKeyValue c) .empty = .ok filters :=
    exists_filters_lineOf hl hkeys
  have hsplit : splitClauses out = .ok (lineOf l female slot ref) := by
    rw [hout]
    exact splitClauses_joined (isPair_of_mem_lineOf hl hkeys hknows hplain)
  have hresolve : c.resolveAs .outfit ref.skyPatcherText = some ref := by
    have hvalue := Reference.resolveValue_skyPatcherText hkeys hknows hplain
    rwa [houtfit] at hvalue
  have hassemble (raw : Text) : assemble c m raw filters (slot, ref.skyPatcherText) =
      .ok ⟨.skyPatcher, m, raw, .outfit slot ref, filters, none, none⟩ := by
    rw [assemble, hresolve]
  have hrules (raw : Text) : readRules c m raw (lineOf l female slot ref) =
      .ok [⟨.skyPatcher, m, raw, .outfit slot ref, filters, none, none⟩] := by
    rw [readRules, hfilters, assignments_lineOf hl]
    refine bind_eq_ok.2 ⟨filters, rfl, ?_⟩
    rw [List.mapM_cons, hassemble]
    rfl
  refine ⟨filters, hfilters, ?_⟩
  rw [readLine, hsplit]
  dsimp only
  rw [assignments_lineOf hl, if_neg (by simp), hrules]

/-- What is written for a rule is read as one rule. -/
theorem IsWritable.readRuleLine_of_isRendered (h : IsWritable c r) (hkeys : c.HasWellFormedKeys)
    (hrendered : IsRendered r out slot ref l) (m : Nat) :
    ∃ filters, (lineOf l r.filters.traits.female slot ref).foldlM (addKeyValue c) .empty =
        .ok filters ∧
      Wardrobe.readRuleLine c .skyPatcher m out =
        .rules [⟨.skyPatcher, m, out, .outfit slot ref, filters, none, none⟩] := by
  have hl := h.isMadeOf hkeys hrendered.clauseLists
  obtain ⟨hknows, houtfit⟩ := h.outfit slot ref hrendered.target
  have hplain : IsPlainPlugin ref.pluginName := by
    refine h.plugins ref (List.mem_append_left _ ?_)
    rw [hrendered.target]
    exact List.mem_singleton_self ref
  have hpairs : ∀ kv ∈ lineOf l r.filters.traits.female slot ref, IsPair kv :=
    isPair_of_mem_lineOf hl hkeys hknows hplain
  have hne : lineOf l r.filters.traits.female slot ref ≠ [] := by simp [lineOf]
  obtain ⟨hpiece, hcomment, hhead⟩ := isPiece_joined_keyValueText hne hpairs
  rw [readRuleLine_of_isPiece (hrendered.text ▸ hpiece) (hrendered.text ▸ hcomment)
    (hrendered.text ▸ hhead)]
  exact readLine_lineOf hl hkeys hknows houtfit hplain hrendered.text m

/-- The line of a rule is read as one rule, which means what the rule means. -/
theorem IsWritable.readRuleLine (h : IsWritable c r) (hkeys : c.HasWellFormedKeys)
    (hcounted : ¬ IsMiscounted (formAlternatives r.filters.forms))
    (hrender : render r = .ok out) (m : Nat) :
    ∃ r', Wardrobe.readRuleLine c .skyPatcher m out = .rules [r'] ∧ r'.target = r.target ∧
      r'.isCertain = r.isCertain ∧
      ∀ s : Subject, s.satisfies r'.filters = s.satisfies r.filters := by
  obtain ⟨slot, ref, l, hrendered⟩ := isRendered_of_render hrender
  have hl := h.isMadeOf hkeys hrendered.clauseLists
  have hgender : ((lineOf l r.filters.traits.female slot ref).countP
      fun kv => Text.sameAscii kv.1 genderKey) ≤ 1 := by
    have hslot : Text.sameAscii (assignmentKey slot) genderKey = false := by cases slot <;> rfl
    have hcount := countP_genderKey_le l r.filters.traits.female
    rw [lineOf, List.countP_append]
    simpa [hslot] using hcount
  obtain ⟨filters, hfilters, hread⟩ := h.readRuleLine_of_isRendered hkeys hrendered m
  refine ⟨_, hread, hrendered.target.symm, ?_, fun s => ?_⟩
  · rw [hrendered.isCertain]
    rfl
  · have hlevels : s.npc.levelsHold r.filters.levels = true := by
      rw [hrendered.levels]
      rfl
    rw [Bool.eq_iff_iff, satisfies_of_foldlM hfilters hgender, filterClauses_lineOf hl hkeys,
      holdsOf_clausesOf hl hkeys, h.holds_iff hkeys hcounted hrendered.clauseLists, satisfies_iff,
      onlyGender_iff hrendered.traits, and_iff_right hlevels]
    exact and_congr_right fun _ => and_comm

def estateText : Text :=
  "\x7b\"forms\":[".toList ++
  "\x7b\"key\":\"0x1~Estate.esp\",\"kind\":\"Faction\",\"editorId\":\"Guards\"\x7d,".toList ++
  "\x7b\"key\":\"0x2~Estate.esp\",\"kind\":\"Faction\",\"editorId\":\"Stewards\"\x7d,".toList ++
  "\x7b\"key\":\"0x3~Estate.esp\",\"kind\":\"Keyword\",\"editorId\":\"OnDuty\"\x7d,".toList ++
  "\x7b\"key\":\"0x4~Estate.esp\",\"kind\":\"Keyword\",\"editorId\":\"Invited\"\x7d,".toList ++
  "\x7b\"key\":\"0x5~Estate.esp\",\"kind\":\"Outfit\",\"editorId\":\"Livery\"\x7d]\x7d".toList

def estate : Snapshot where
  plugins := []
  forms :=
    [⟨⟨"Estate.esp", 1⟩, .faction, some "Guards", none⟩,
     ⟨⟨"Estate.esp", 2⟩, .faction, some "Stewards", none⟩,
     ⟨⟨"Estate.esp", 3⟩, .keyword, some "OnDuty", none⟩,
     ⟨⟨"Estate.esp", 4⟩, .keyword, some "Invited", none⟩,
     ⟨⟨"Estate.esp", 5⟩, .outfit, some "Livery", none⟩]
  npcs := []

theorem read_estateText : Snapshot.read estateText = .ok estate := by
  decide +kernel

end SkyPatcher
end Wardrobe
