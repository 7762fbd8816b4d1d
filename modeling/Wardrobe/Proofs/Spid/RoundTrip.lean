import Wardrobe.Proofs.Rule.Parts
import Wardrobe.Proofs.Snapshot
import Wardrobe.Proofs.Spid.Written
/-
Rules written as SPID entries and read back.

The fields that are missing at the end are left out and others are filled with gaps, and both are
read as missing.  All other fields are read as what they were written for, so the same rule comes
back.
-/

namespace Wardrobe

/-! ## Names in snapshots -/

/-- No two keys share an editor id, and no name looks like something else. -/
structure Snapshot.HasPlainNames (s : Snapshot) : Prop where
  alone : ∀ r ∈ s.records, ∀ r' ∈ s.records, ∀ e ∈ r.editorId, ∀ e' ∈ r'.editorId,
    Text.lower e' = Text.lower e → r'.key.same r.key = true
  editorIds : ∀ r ∈ s.records, ∀ e ∈ r.editorId, Spid.IsPlainEditorId e
  plugins : ∀ name ∈ s.pluginNames, Spid.IsPlainFileName name

instance (s : Snapshot) : Decidable s.HasPlainNames :=
  decidable_of_iff ((∀ r ∈ s.records, ∀ r' ∈ s.records, ∀ e ∈ r.editorId, ∀ e' ∈ r'.editorId,
      Text.lower e' = Text.lower e → r'.key.same r.key = true) ∧
    (∀ r ∈ s.records, ∀ e ∈ r.editorId, Spid.IsPlainEditorId e) ∧
    ∀ name ∈ s.pluginNames, Spid.IsPlainFileName name)
    ⟨fun h => ⟨h.1, h.2.1, h.2.2⟩, fun h => ⟨h.1, h.2, h.3⟩⟩

theorem Snapshot.HasPlainNames.catalog {s : Snapshot} {t : Text} (h : s.HasPlainNames)
    (hread : read t = .ok s) : Spid.HasPlainNames s.game.catalog := by
  have hof := isOf_catalog s
  have hrecord {r : Form} (hfind : s.game.catalog.find? r.key = some r) : r ∈ s.records :=
    hof.forms r (List.mem_of_find?_eq_some hfind)
  refine ⟨hasWellFormedKeys hread, fun r hfind e he => ⟨?_, ?_⟩, fun r hfind => ?_,
    fun name hknown ch hch hmem => ?_⟩
  · exact h.editorIds r (hrecord hfind) e he
  · exact hof.namesOnly hfind he fun r' hr' e' he' =>
      h.alone r (hrecord hfind) r' hr' e he e' he'
  · exact h.plugins _ (List.mem_append_right _ (List.mem_map_of_mem (hrecord hfind)))
  · -- The catalog knows plugins in small letters, and the marks are no letters.
    obtain ⟨own, hown, hlower⟩ := hof.plugins _ (List.contains_iff_mem.1 hknown)
    have hmarks : ∀ ch ∈ ",+|~;".toList, ch.isAlpha = false := Text.forall_mem_of_all (by decide)
    have hin := (Text.mem_asciiLower_of_not_isAlpha (hmarks ch hch)).2 hmem
    rw [hlower] at hin
    exact h.plugins own hown ch hch
      ((Text.mem_asciiLower_of_not_isAlpha (hmarks ch hch)).1 hin)

namespace Spid

variable {c : Catalog} {t x out : Text} {r : Rule} {n : Nat}

/-! ## Missing fields -/

theorem dropMissingEnd_append (fields : List (Option Text)) :
    ∃ missing, fields = dropMissingEnd fields ++ missing ∧ ∀ f ∈ missing, f = none := by
  refine ⟨(fields.reverse.takeWhile Option.isNone).reverse, ?_, fun f hf => ?_⟩
  · rw [dropMissingEnd, ← List.reverse_append, List.takeWhile_append_dropWhile,
      List.reverse_reverse]
  · have hnone := List.mem_takeWhile_imp (List.mem_reverse.1 hf)
    exact Option.isNone_iff_eq_none.1 hnone

/-- A field that is left out or filled with a gap is missing. -/
theorem field?_written {fields : List (Option Text)}
    (h : ∀ f ∈ fields, ∀ x ∈ f, IsFieldText x) (i : Nat) :
    field? ((dropMissingEnd fields).map (·.getD gap)) i = fields[i]?.join := by
  obtain ⟨missing, happend, hmissing⟩ := dropMissingEnd_append fields
  rw [field?, List.getElem?_map]
  cases hkept : (dropMissingEnd fields)[i]? with
  | none =>
    have hrest : fields[i]?.join = none := by
      rw [happend, List.getElem?_append_right (List.getElem?_eq_none_iff.1 hkept)]
      cases hlast : missing[i - (dropMissingEnd fields).length]? with
      | none => rfl
      | some f =>
        rw [hmissing f (List.mem_of_getElem? hlast)]
        rfl
    rw [hrest]
    rfl
  | some f =>
    have hat : fields[i]? = some f := by
      rw [happend, List.getElem?_append_left (List.getElem?_eq_some_iff.1 hkept).1, hkept]
    rw [hat]
    cases f with
    | none => rfl
    | some x =>
      have hgap := (h _ (List.mem_of_getElem? hat) x rfl).isGap
      simp [hgap]

theorem readLevels_written (levels : List LevelRange) :
    readOr [] readLevels (levelsText? levels) = .ok levels := by
  rw [levelsText?]
  split
  next hempty =>
    rw [List.isEmpty_iff.1 hempty]
    rfl
  next => rw [readOr, readLevels_text, Except.mapError]

theorem readTraits_written (t : Traits.Wanted) :
    readOr .empty readTraits (traitsText? t) = .ok t := by
  rw [traitsText?]
  split
  next hempty =>
    obtain ⟨female, unique, summonable, child, leveled⟩ := t
    simp only [Traits.Wanted.isEmpty, Bool.and_eq_true, Option.isNone_iff_eq_none] at hempty
    obtain ⟨⟨⟨⟨rfl, rfl⟩, rfl⟩, rfl⟩, rfl⟩ := hempty
    rfl
  next => rw [readOr, readTraits_text, Except.mapError]

theorem readChance_written {chance : Option UInt8}
    (h : ∀ x ∈ chance, 1 ≤ x.toNat ∧ x.toNat ≤ 100) :
    readOr none (fun t => (readChance t).map some)
      (chance.map fun x => Text.decimal x.toNat) = .ok chance := by
  cases chance with
  | none => rfl
  | some x =>
    obtain ⟨hmin, hmax⟩ := h x rfl
    rw [Option.map_some, readOr, readChance_decimal hmin hmax]
    rfl

/-! ## Entries -/

def writtenFields (r : Rule) : List Text :=
  targetText r.target :: (dropMissingEnd (optionalFields r)).map (·.getD gap)

theorem render_eq (r : Rule) : render r =
    (targetType r.target).name ++ " = " ++ Text.joined "|" (writtenFields r) := rfl

theorem isAlpha_of_mem_name {type : EntryKind} {ch : Char} (h : ch ∈ type.name) :
    ch.isAlpha = true := by
  have hall : type.name.all Char.isAlpha = true := by
    cases type with
    | outfit slot => cases slot <;> decide
    | keyword => decide
  exact List.all_eq_true.1 hall ch h

theorem name_ne_nil (type : EntryKind) : type.name ≠ [] := by
  cases type with
  | outfit slot => cases slot <;> decide
  | keyword => decide

/-- A rule whose parts can all stand in fields. -/
structure IsLaidOut (r : Rule) : Prop where
  target : IsFieldText (targetText r.target)
  strings : ArePlainStrings r.filters.strings
  forms : AreEntryForms r.filters.forms
  extra : ∀ x ∈ r.extra, IsFieldText x
  chance : ∀ chance ∈ r.chance, 1 ≤ chance.toNat ∧ chance.toNat ≤ 100

/-- A rule whose parts can be written, and whose names are found again. -/
structure IsWritten (c : Catalog) (r : Rule) : Prop extends IsLaidOut r where
  dialect : r.dialect = .spid
  readTarget : readTarget c (targetType r.target) (targetText r.target) = .ok r.target
  areFound : AreFound c r.filters.forms

theorem length_writtenFields (r : Rule) : (writtenFields r).length ≤ maxFields := by
  obtain ⟨missing, happend, -⟩ := dropMissingEnd_append (optionalFields r)
  have hlength := congrArg List.length happend
  have hsix : (optionalFields r).length = 6 := rfl
  rw [List.length_append, hsix] at hlength
  rw [writtenFields, List.length_cons, List.length_map, maxFields]
  omega

theorem field?_target (h : IsLaidOut r) :
    field? (writtenFields r) 0 = some (targetText r.target) := by
  simp [field?, writtenFields, h.target.isGap]

section Writing

variable (h : IsLaidOut r)
include h

theorem isFieldText_optionalFields : ∀ f ∈ optionalFields r, ∀ x ∈ f, IsFieldText x := by
  simp only [optionalFields, List.forall_mem_cons]
  refine ⟨isFieldText_strings h.strings, isFieldText_forms h.forms, fun x hx => ?_,
    fun x hx => ?_, h.extra, fun x hx => ?_, List.forall_mem_nil _⟩
  · rw [levelsText?] at hx
    split at hx
    · cases hx
    next hne =>
      obtain rfl := Option.mem_some_iff.1 hx
      exact isFieldText_levels (by simpa using hne)
  · rw [traitsText?] at hx
    split at hx
    · cases hx
    next hne =>
      obtain rfl := Option.mem_some_iff.1 hx
      exact isFieldText_traits (by simpa using hne)
  · obtain ⟨chance, -, rfl⟩ := Option.map_eq_some_iff.1 hx
    exact isFieldText_decimal chance.toNat

theorem mem_writtenFields (hx : x ∈ writtenFields r) :
    Text.IsPiece x ∧ '|' ∉ x ∧ ';' ∉ x := by
  have hgap : Text.IsPiece gap ∧ '|' ∉ gap ∧ ';' ∉ gap := by
    refine ⟨Text.isPiece_of_forall (by decide) ?_, by decide, by decide⟩
    exact Text.forall_mem_of_all (by decide)
  rcases List.mem_cons.1 hx with rfl | hx
  · exact ⟨h.target.isPiece, h.target.bar, h.target.semicolon⟩
  · obtain ⟨f, hf, rfl⟩ := List.mem_map.1 hx
    obtain ⟨missing, happend, -⟩ := dropMissingEnd_append (optionalFields r)
    cases f with
    | none => exact hgap
    | some x =>
      have hmem : some x ∈ optionalFields r := happend ▸ List.mem_append_left _ hf
      have hfield := isFieldText_optionalFields h _ hmem x rfl
      exact ⟨hfield.isPiece, hfield.bar, hfield.semicolon⟩

theorem splitFields_written :
    splitFields (Text.joined "|" (writtenFields r)) = writtenFields r := by
  have hsep : "|".toList = ['|'] := rfl
  have hsplit : (Text.joined ['|'] (writtenFields r)).splitOn '|' = writtenFields r :=
    Text.splitOn_joined (List.cons_ne_nil _ _) fun x hx => (mem_writtenFields h hx).2.1
  rw [splitFields, hsep, hsplit]
  exact Text.map_trim_eq fun x hx => (mem_writtenFields h hx).1

theorem field?_optional (i : Nat) :
    field? (writtenFields r) (i + 1) = (optionalFields r)[i]?.join :=
  field?_written (isFieldText_optionalFields h) i

theorem isPiece_value : Text.IsPiece (Text.joined "|" (writtenFields r)) :=
  Text.isPiece_joined (List.cons_ne_nil _ _) fun _ hx => (mem_writtenFields h hx).1

theorem semicolon_not_mem_value : ';' ∉ Text.joined "|" (writtenFields r) := by
  intro hmem
  rcases Text.mem_joined hmem with hsep | ⟨x, hx, hin⟩
  · revert hsep
    decide
  · exact (mem_writtenFields h hx).2.2 hin

end Writing

section Entry

variable {type : EntryKind} {value : Text}

/-- An entry is on one line. -/
theorem entryShape?_written (hpiece : Text.IsPiece value) :
    entryShape? (type.name ++ " = " ++ value) =
      if '\n' ∈ value then none else some (type.name, value) := by
  have hspell : type.name ++ " = ".toList ++ value = type.name ++ ' ' :: '=' :: ' ' :: value := by
    simp
  have hletters : ∀ ch ∈ type.name, Text.isAsciiLetter ch = true := fun ch hch =>
    isAlpha_of_mem_name hch
  have hspace : ¬ Text.isAsciiLetter ' ' = true := by decide
  have hequals : Text.trimStart (' ' :: '=' :: ' ' :: value) = '=' :: ' ' :: value := rfl
  have hvalue : Text.trimStart (' ' :: value) = value := hpiece.trimStart_eq
  rw [entryShape?, hspell, List.takeWhile_append_of_pos hletters,
    List.dropWhile_append_of_pos hletters, List.takeWhile_cons_of_neg hspace,
    List.dropWhile_cons_of_neg hspace, List.append_nil, hequals]
  simp [name_ne_nil, hvalue]

theorem not_mem_entry {ch : Char} (hvalue : ch ∉ value) (halpha : ch.isAlpha = false)
    (hequals : ch ∉ " = ".toList) : ch ∉ type.name ++ " = " ++ value := by
  have hname : ch ∉ type.name :=
    Text.not_mem_of_forall (fun _ hmem => isAlpha_of_mem_name hmem) halpha
  rw [List.mem_append, List.mem_append]
  rintro ((hmem | hmem) | hmem)
  · exact hname hmem
  · exact hequals hmem
  · exact hvalue hmem

/-- An entry goes to its fields, unless it has a line feed in it. -/
theorem readRuleLine_entry (hpiece : Text.IsPiece value) (hcomment : ';' ∉ value) (n : Nat) :
    readRuleLine c .spid n (type.name ++ " = " ++ value) =
      if '\n' ∈ value then .unparseable .noEntry
      else match assemble c n (type.name ++ " = " ++ value) type value with
        | .ok rule => .rules [rule]
        | .error fault => .unparseable fault := by
  have hline : Text.IsPiece (type.name ++ " = " ++ value) :=
    (Text.isPiece_of_letters (name_ne_nil _) fun ch hch => isAlpha_of_mem_name hch).append hpiece _
  have htype : entryKind? (Text.asciiLower type.name) = some type := by
    cases type with
    | outfit slot => cases slot <;> rfl
    | keyword => rfl
  have hhead : ∃ (ch : Char) (rest : Text), type.name ++ " = " ++ value = ch :: rest ∧
      ch.isAlpha = true := by
    obtain ⟨ch, rest, hname⟩ := List.exists_cons_of_ne_nil (name_ne_nil type)
    refine ⟨ch, rest ++ (" = ".toList ++ value), by rw [hname, List.append_assoc]; rfl, ?_⟩
    exact isAlpha_of_mem_name (hname ▸ List.mem_cons_self)
  rw [readRuleLine_of_isPiece hline (not_mem_entry hcomment (by decide) (by decide)) hhead]
  dsimp only
  rw [readLine, entryShape?_written hpiece]
  by_cases hbreak : '\n' ∈ value
  · rw [if_pos hbreak, if_pos hbreak]
  · rw [if_neg hbreak, if_neg hbreak]
    cases hassemble : assemble c n (type.name ++ " = " ++ value) type value with
    | ok rule => simp only [htype, hpiece.trim_eq, hassemble]
    | error fault => simp only [htype, hpiece.trim_eq, hassemble]

end Entry

theorem lineFeed_mem_render_iff :
    '\n' ∈ render r ↔ '\n' ∈ Text.joined "|" (writtenFields r) := by
  have hname : '\n' ∉ (targetType r.target).name :=
    Text.not_mem_of_forall (fun _ hch => isAlpha_of_mem_name hch) (by decide)
  simp [render_eq, hname]

/-- The entry of a rule goes to its fields, unless it has a line feed in it. -/
theorem IsLaidOut.readRuleLine (h : IsLaidOut r) (n : Nat) :
    Wardrobe.readRuleLine c .spid n (render r) =
      if '\n' ∈ render r then .unparseable .noEntry
      else match assemble c n (render r) (targetType r.target)
          (Text.joined "|" (writtenFields r)) with
        | .ok rule => .rules [rule]
        | .error fault => .unparseable fault := by
  simp only [lineFeed_mem_render_iff]
  exact readRuleLine_entry (isPiece_value h) (semicolon_not_mem_value h) n

/-- The fields of a written entry are read as what they were written for. -/
theorem assemble_written (h : IsWritten c r) (raw : Text) :
    assemble c r.lineNumber raw (targetType r.target) (Text.joined "|" (writtenFields r)) =
      .ok { r with raw := raw } := by
  have hstrings : readOr .empty readStrings (field? (writtenFields r) 1) =
      .ok r.filters.strings := by
    rw [field?_optional h.toIsLaidOut 0]
    exact readStrings_text h.strings
  have hforms : readOr .empty (readForms c) (field? (writtenFields r) 2) =
      .ok r.filters.forms := by
    rw [field?_optional h.toIsLaidOut 1]
    exact (readForms_text_iff h.forms).2 h.areFound
  have hlevels : readOr [] readLevels (field? (writtenFields r) 3) = .ok r.filters.levels := by
    rw [field?_optional h.toIsLaidOut 2]
    exact readLevels_written r.filters.levels
  have htraits : readOr .empty readTraits (field? (writtenFields r) 4) =
      .ok r.filters.traits := by
    rw [field?_optional h.toIsLaidOut 3]
    exact readTraits_written r.filters.traits
  have hextra : field? (writtenFields r) 5 = r.extra := field?_optional h.toIsLaidOut 4
  have hchance : readOr none (fun t => (readChance t).map some) (field? (writtenFields r) 6) =
      .ok r.chance := by
    rw [field?_optional h.toIsLaidOut 5]
    exact readChance_written h.chance
  unfold assemble
  dsimp only
  rw [splitFields_written h.toIsLaidOut, if_neg (Nat.not_lt.2 (length_writtenFields r)),
    field?_target h.toIsLaidOut]
  dsimp only
  rw [h.readTarget, hstrings, hforms, hlevels, htraits, hchance, hextra, ← h.dialect]
  rfl

/-- The entry of a rule is read as the same rule, unless it has a line feed in it. -/
theorem IsWritten.readRuleLine (h : IsWritten c r) :
    Wardrobe.readRuleLine c .spid r.lineNumber (render r) =
      if '\n' ∈ render r then .unparseable .noEntry else .rules [{ r with raw := render r }] := by
  rw [h.toIsLaidOut.readRuleLine, assemble_written h]

/-- An entry is read as its rule only if what it says of the target and the forms is found as
these. -/
theorem IsLaidOut.areFound_of_readRuleLine {r' : Rule} (h : IsLaidOut r) (hline : '\n' ∉ render r)
    (hread : Wardrobe.readRuleLine c .spid n (render r) = .rules [r'])
    (htarget : r'.target = r.target) (hforms : r'.filters.forms = r.filters.forms) :
    readTarget c (targetType r.target) (targetText r.target) = .ok r.target ∧
      AreFound c r.filters.forms := by
  rw [h.readRuleLine, if_neg hline] at hread
  split at hread
  next rule hrule =>
    obtain rfl := List.singleton_inj.1 (LineOutcome.rules.inj hread)
    have hassembled := isAssembled_of_assemble hrule
    obtain ⟨literal, hliteral, hreadTarget⟩ := hassembled.target
    have hreadForms := hassembled.forms
    rw [splitFields_written h, field?_target h] at hliteral
    rw [splitFields_written h, field?_optional h 1, hforms] at hreadForms
    rw [← Option.some.inj hliteral, htarget] at hreadTarget
    exact ⟨hreadTarget, (readForms_text_iff h.forms).1 hreadForms⟩
  next => cases hread

/-! ## Rules that were read -/

/-- A text that is read as it stands. -/
structure IsPlainLiteral (t : Text) : Prop where
  minus : t.head? ≠ some '-'
  star : t.head? ≠ some '*'
  notGap : Text.sameAscii t gap = false

instance (t : Text) : Decidable (IsPlainLiteral t) :=
  decidable_of_iff (t.head? ≠ some '-' ∧ t.head? ≠ some '*' ∧ Text.sameAscii t gap = false)
    ⟨fun h => ⟨h.1, h.2.1, h.2.2⟩, fun h => ⟨h.1, h.2, h.3⟩⟩

theorem record_of_resolveAs {kind : Form.Kind} {literal : Text} {ref : Reference}
    (h : c.resolveAs kind literal = some ref) :
    ∃ r : Form, c.find? r.key = some r ∧ r.kind = kind ∧ ref = r.reference := by
  obtain ⟨key, editorId, href⟩ := Catalog.form_of_resolveAs h
  have hknows : c.Knows ref := Catalog.knows_of_resolveBy h
  cases hknows with
  | form r hfind =>
    injection href with hkind
    exact ⟨r, hfind, hkind, rfl⟩
  | plugin => cases href

/-- A tag is an editor id, which names the same keyword again, or it is the literal. -/
theorem tagNamed_tagNamed (hc : HasPlainNames c) {literal : Text} (h : IsFieldText literal) :
    IsFieldText (tagNamed c literal) ∧ tagNamed c (tagNamed c literal) = tagNamed c literal := by
  cases hnamed : (c.resolveAs .keyword literal).bind (·.editorId?) with
  | none =>
    have htag : tagNamed c literal = literal := by rw [tagNamed, hnamed, Option.getD_none]
    rw [htag]
    exact ⟨h, htag⟩
  | some e =>
    have htag : tagNamed c literal = e := by rw [tagNamed, hnamed, Option.getD_some]
    obtain ⟨ref, hresolve, he⟩ := Option.bind_eq_some_iff.1 hnamed
    obtain ⟨r, hfind, hkind, rfl⟩ := record_of_resolveAs hresolve
    have he' : r.editorId = some e := he
    obtain ⟨hplain, honly⟩ := hc.editorIds r hfind e he'
    have hagain := honly.resolveAs_eq hplain.isPlainName
    rw [hkind] at hagain
    rw [htag]
    refine ⟨hplain.isFieldText, ?_⟩
    rw [tagNamed, hagain, Option.bind_some, he, Option.getD_some]

theorem target_of_readTarget (hc : HasPlainNames c) {type : EntryKind} {literal : Text}
    {target : Target} (hliteral : IsFieldText literal)
    (h : readTarget c type literal = .ok target) :
    IsFieldText (targetText target) ∧
      readTarget c (targetType target) (targetText target) = .ok target := by
  cases type with
  | keyword =>
    obtain rfl := Except.ok.inj h
    obtain ⟨hfield, hagain⟩ := tagNamed_tagNamed hc hliteral
    refine ⟨hfield, ?_⟩
    rw [targetType, targetText, readTarget, hagain]
  | outfit slot =>
    rw [readTarget] at h
    split at h
    next ref hresolve =>
      obtain rfl := Except.ok.inj h
      obtain ⟨r, hfind, hkind, rfl⟩ := record_of_resolveAs hresolve
      have hagain := resolveAs_spidText hc hfind
      rw [hkind] at hagain
      refine ⟨isFieldText_reference hc (.form r hfind), ?_⟩
      rw [targetType, targetText, readTarget, hagain]
    next => cases h

theorem isWritten_of_isReadFrom (h : IsReadFrom c n t r) (hc : HasPlainNames c)
    (hcomment : ';' ∉ t) (hstrings : ∀ p ∈ r.filters.strings.parts, IsPlainLiteral p.value) :
    IsWritten c r := by
  have hfield {x : Text} (hx : IsField t x) : IsFieldText x :=
    ⟨hx.isPiece, hx.bar, fun hc => hcomment (hx.subset hc), hx.isGap⟩
  obtain ⟨type, literal, hliteral, hread⟩ := h.target
  obtain ⟨htarget, hagain⟩ := target_of_readTarget hc (hfield hliteral) hread
  have hforms : AreEntryForms r.filters.forms := fun e he =>
    ⟨(h.forms e he).1, fun p hp => isEntryForm_of_isFormPart hc ((h.forms e he).2 p hp)⟩
  have hfound : AreFound c r.filters.forms := fun e he p hp =>
    resolve_spidText hc (knows_of_isFormPart ((h.forms e he).2 p hp))
  refine ⟨⟨htarget, fun e he => ⟨(h.strings e he).1, fun p hp => ?_⟩, hforms,
    fun x hx => hfield (h.extra x hx), h.chance⟩, h.dialect, hagain, hfound⟩
  obtain ⟨field, hin, hpart⟩ := (h.strings e he).2 p hp
  have hplain := hstrings p (List.mem_flatten.2 ⟨e, he, hp⟩)
  refine ⟨isWritable_of_isReadPart hpart hplain.minus hplain.star,
    fun hc => hin.bar (hpart.subset hc), fun hc => hcomment (hin.subset (hpart.subset hc)),
    fun _ _ => ?_⟩
  simp [isGap, hplain.notGap, hpart.isPiece.ne_nil]

/-- A rule that was read from an entry is read again from the entry that is written for it.  Only a
line feed, which the name of a plugin may have in it, can be in the way. -/
theorem readRuleLine_render_eq {text line : Text} {snap : Snapshot} {rules : List Rule}
    (hsnap : Snapshot.read text = .ok snap) (hnames : snap.HasPlainNames)
    (hread : readRuleLine snap.game.catalog .spid n line = .rules rules) (hr : r ∈ rules)
    (hstrings : ∀ p ∈ r.filters.strings.parts, IsPlainLiteral p.value) :
    readRuleLine snap.game.catalog .spid n (render r) =
      if '\n' ∈ render r then .unparseable .noEntry else .rules [{ r with raw := render r }] := by
  have hfrom := isReadFrom_readLine (readRuleLine_eq_rules hread) r hr
  have hc := hnames.catalog hsnap
  have hwritten := isWritten_of_isReadFrom hfrom hc (semicolon_not_mem_withoutComment line)
    hstrings
  obtain rfl := hfrom.lineNumber
  exact hwritten.readRuleLine

def manorText : Text :=
  "\x7b\"plugins\":[\"Estate.esp\"],\"forms\":[".toList ++
  "\x7b\"key\":\"0x1~Estate.esp\",\"kind\":\"Faction\",\"editorId\":\"Guards\"\x7d,".toList ++
  "\x7b\"key\":\"0x2~Estate.esp\",\"kind\":\"Race\"\x7d,".toList ++
  "\x7b\"key\":\"0x3~Estate.esp\",\"kind\":\"Keyword\",\"editorId\":\"Sentry\"\x7d]\x7d".toList

def manor : Snapshot where
  plugins := ["Estate.esp"]
  forms :=
    [⟨⟨"Estate.esp", 1⟩, .faction, some "Guards", none⟩,
     ⟨⟨"Estate.esp", 2⟩, .race, none, none⟩,
     ⟨⟨"Estate.esp", 3⟩, .keyword, some "Sentry", none⟩]
  npcs := []

def sentryLine : Text :=
  "Keyword = sentry|-Lydia,*Guard+Hall|guards+-0x2~estate.ESP,Estate.esp".toList ++
    "|12,14(50/75)||NONE|50.4"

def sentryRule : Rule where
  dialect := .spid
  lineNumber := 3
  raw := sentryLine
  target := .keyword "Sentry"
  filters :=
    ⟨⟨[[⟨"Lydia", true, false⟩], [⟨"Guard", false, true⟩, ⟨"Hall", false, false⟩]]⟩,
     ⟨[[⟨.form .faction ⟨"Estate.esp", 1⟩ (some "Guards"), false, false⟩,
        ⟨.form .race ⟨"Estate.esp", 2⟩ none, true, false⟩],
       [⟨.plugin "Estate.esp", false, false⟩]]⟩,
     [⟨none, 12, none⟩, ⟨some 14, 50, some 75⟩], .empty⟩
  chance := some 50
  extra := none

def sentryWritten : Text :=
  "Keyword = Sentry|-Lydia,Guard*+Hall|Guards+-0x2~Estate.esp,Estate.esp".toList ++
    "|12,14(50/75)|NONE|NONE|50"

/-- Stars move to the end, and literals give way to editor ids and keys as they are stored. -/
theorem sentry_reads_back :
    Snapshot.read manorText = .ok manor ∧ manor.HasPlainNames ∧
      readRuleLine manor.game.catalog .spid 3 sentryLine = .rules [sentryRule] ∧
      (∀ p ∈ sentryRule.filters.strings.parts, IsPlainLiteral p.value) ∧
      render sentryRule = sentryWritten ∧
      readRuleLine manor.game.catalog .spid 3 sentryWritten =
        .rules [{ sentryRule with raw := sentryWritten }] := by
  have hsnap : Snapshot.read manorText = .ok manor := by decide +kernel
  have hnames : manor.HasPlainNames := by decide +kernel
  have hread : readRuleLine manor.game.catalog .spid 3 sentryLine = .rules [sentryRule] := by
    decide +kernel
  have hstrings : ∀ p ∈ sentryRule.filters.strings.parts, IsPlainLiteral p.value := by decide
  have hwritten : render sentryRule = sentryWritten := by decide +kernel
  have hagain := readRuleLine_render_eq hsnap hnames hread List.mem_cons_self hstrings
  rw [hwritten, if_neg (by decide)] at hagain
  exact ⟨hsnap, hnames, hread, hstrings, hwritten, hagain⟩

/-! ## Names on two lines -/

def brokenText : Text :=
  "\x7b\"forms\":[\x7b\"key\":\"0x800~A\\nB.esp\",\"kind\":\"Outfit\",".toList ++
  "\"editorId\":\"Foo\"\x7d,".toList ++
  "\x7b\"key\":\"0x800~A\\nB.esp\",\"kind\":\"Outfit\"\x7d]\x7d".toList

def broken : Snapshot where
  plugins := []
  forms := [⟨⟨"A\nB.esp", 0x800⟩, .outfit, some "Foo", none⟩,
    ⟨⟨"A\nB.esp", 0x800⟩, .outfit, none, none⟩]
  npcs := []

def brokenRule : Rule :=
  ⟨.spid, 1, "Outfit = Foo", .outfit .default (.form .outfit ⟨"A\nB.esp", 0x800⟩ none), .empty,
    none, none⟩

/-- The record has lost its editor id to a later one of the same key, so its key is written. -/
theorem broken_not_readable :
    Snapshot.read brokenText = .ok broken ∧ broken.HasPlainNames ∧
      readRuleLine broken.game.catalog .spid 1 "Outfit = Foo" = .rules [brokenRule] ∧
      (∀ p ∈ brokenRule.filters.strings.parts, IsPlainLiteral p.value) ∧
      ¬ ∃ r, readRuleLine broken.game.catalog .spid 1 (render brokenRule) = .rules [r] := by
  have hsnap : Snapshot.read brokenText = .ok broken := by decide +kernel
  have hnames : broken.HasPlainNames := by decide +kernel
  have hread : readRuleLine broken.game.catalog .spid 1 "Outfit = Foo" = .rules [brokenRule] := by
    decide +kernel
  have hagain : readRuleLine broken.game.catalog .spid 1 (render brokenRule) =
      .unparseable .noEntry := by
    decide +kernel
  refine ⟨hsnap, hnames, hread, by decide, ?_⟩
  rintro ⟨r, hr⟩
  rw [hagain] at hr
  cases hr

end Spid
end Wardrobe
