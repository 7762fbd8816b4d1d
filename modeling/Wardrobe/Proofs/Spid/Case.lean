import Wardrobe.Proofs.Filter.Case
import Wardrobe.Proofs.Spid.Field
/-
SPID entries that differ in the case of ASCII letters alone.

The marks of the fields are no letters, and keywords, hexadecimal digits, flags and exponents are
read in either case.  So each reader comes to the same on the small form of its text, up to the
case of the literals in it.
-/

namespace Wardrobe
namespace Spid

open Text

variable {c : Catalog} {t : Text}

/-! ## Parts -/

theorem takeMinus_asciiLower (t : Text) :
    takeMinus (asciiLower t) = ((takeMinus t).1, asciiLower (takeMinus t).2) := by
  rcases takeMinus_cases t with ⟨rest, rfl, hminus⟩ | ⟨hhead, hminus⟩
  · rw [hminus]
    exact congrArg (Prod.mk true) (trimStart_asciiLower rest)
  · rw [hminus, takeMinus_of_head? (mt (head?_asciiLower (by decide)).1 hhead)]

theorem takeLeadingStar_asciiLower (t : Text) : takeLeadingStar (asciiLower t) =
    ((takeLeadingStar t).1, asciiLower (takeLeadingStar t).2) := by
  rcases takeLeadingStar_cases t with ⟨rest, rfl, hstar⟩ | ⟨hhead, hstar⟩
  · rfl
  · rw [hstar, takeLeadingStar_of_head? (mt (head?_asciiLower (by decide)).1 hhead)]

theorem takeFinalStar_asciiLower (t : Text) : takeFinalStar (asciiLower t) =
    ((takeFinalStar t).1, asciiLower (takeFinalStar t).2) := by
  have hlast : (asciiLower t).getLast? = some '*' ↔ t.getLast? = some '*' :=
    getLast?_asciiLower (by decide)
  rw [takeFinalStar, takeFinalStar]
  simp only [hlast]
  split
  · rw [asciiLower, ← List.map_dropLast]
    rfl
  · rfl

theorem readPart_asciiLower (t : Text) : Alike (fun p p' => p' = p.map asciiLower) (readPart t)
    (readPart (asciiLower t)) := by
  rw [readPart, readPart]
  simp only [takeMinus_asciiLower, takeLeadingStar_asciiLower, takeFinalStar_asciiLower,
    trim_asciiLower, isEmpty_asciiLower]
  split
  · exact .error _ _
  · exact .ok rfl

theorem readAlternative_asciiLower (t : Text) :
    Alike (fun e e' => e' = e.map (·.map asciiLower)) (readAlternative t)
      (readAlternative (asciiLower t)) := by
  rw [readAlternative, readAlternative, splitOn_asciiLower (by decide)]
  refine Alike.mapM_eq fun token _ => ?_
  rw [trim_asciiLower]
  exact readPart_asciiLower (trim token)

theorem readAlternatives_asciiLower (t : Text) :
    Alike (fun es es' => es' = es.map (·.map (·.map asciiLower))) (readAlternatives t)
      (readAlternatives (asciiLower t)) := by
  rw [readAlternatives, readAlternatives, pieces_asciiLower (by decide)]
  exact Alike.mapM_eq fun piece _ => readAlternative_asciiLower piece

theorem readStrings_asciiLower (t : Text) :
    Alike (fun s s' => s' = s.map asciiLower) (readStrings t) (readStrings (asciiLower t)) := by
  refine (readAlternatives_asciiLower t).map ?_
  rintro es _ rfl
  exact (Criterion.map_ofExpressions asciiLower es).symm

theorem resolvePart_asciiLower (c : Catalog) (p : Criterion.Part Text) :
    resolvePart c (p.map asciiLower) = (resolvePart c p).map (·.map Reference.lowered) := by
  rw [resolvePart, Criterion.Part.map, Catalog.resolve_asciiLower, resolvePart, Option.map_map,
    Option.map_map]
  rfl

theorem readForms_asciiLower (c : Catalog) (t : Text) :
    Alike (fun s s' => s' = s.map Reference.lowered) (readForms c t)
      (readForms c (asciiLower t)) := by
  refine (readAlternatives_asciiLower t).bind ?_
  rintro es _ rfl
  have hparts : (es.map (·.map (·.map asciiLower))).flatten =
      es.flatten.map (·.map asciiLower) := List.map_flatten.symm
  have hunresolved : (es.flatten.map (·.map asciiLower)).filter
      (fun p => (c.resolve p.value).isNone) =
      (es.flatten.filter fun p => (c.resolve p.value).isNone).map (·.map asciiLower) := by
    rw [List.filter_map]
    congr 2
    refine funext fun p => ?_
    rw [Function.comp_apply, Criterion.Part.map, Catalog.resolve_asciiLower, Option.isNone_map]
  have hresolved : (es.map (·.map (·.map asciiLower))).map (·.filterMap (resolvePart c)) =
      (es.map (·.filterMap (resolvePart c))).map (·.map (·.map Reference.lowered)) := by
    rw [List.map_map, List.map_map]
    refine List.map_congr_left fun e _ => ?_
    rw [Function.comp_apply, List.filterMap_map, Function.comp_apply, List.map_filterMap]
    exact List.filterMap_congr fun p _ => resolvePart_asciiLower c p
  have hwild : (es.flatten.map (·.map asciiLower)).find? (·.wildcard) =
      (es.flatten.find? (·.wildcard)).map (·.map asciiLower) := List.find?_map
  dsimp only
  rw [hparts, hwild, hunresolved, hresolved, ← Criterion.map_ofExpressions, List.length_map,
    List.length_map, List.isEmpty_map]
  cases es.flatten.find? (·.wildcard) with
  | some p => exact .error _ _
  | none =>
    dsimp only [Option.map_none]
    split
    · exact .error _ _
    · exact .ok rfl

/-! ## Levels -/

theorem isDecimalDigit_toLower (c : Char) : isDecimalDigit c.toLower = isDecimalDigit c :=
  apply_toLower (by decide +kernel) c

theorem isAlpha_of_isDecimalDigit {c : Char} (h : isDecimalDigit c = true) :
    c.isAlpha = false := by
  by_contra halpha
  have hascii : c.toNat < 128 :=
    toNat_lt_of_isAlphanum (by simp [Char.isAlphanum, Bool.not_eq_false _ ▸ halpha])
  have hall : isDecimalDigit c = true → c.isAlpha = false :=
    forall_ascii (P := fun c => isDecimalDigit c = true → c.isAlpha = false)
      (by decide +kernel) hascii
  exact halpha (hall h)

theorem takeNumber_asciiLower (t : Text) :
    takeNumber (asciiLower t) = ((takeNumber t).1, asciiLower (takeNumber t).2) := by
  rw [takeNumber, takeWhile_asciiLower_of_not_isAlpha isDecimalDigit_toLower
    fun c => isAlpha_of_isDecimalDigit, dropWhile_asciiLower isDecimalDigit_toLower, takeNumber]

/-- A bound with no slash behind it. -/
theorem takeRange_of_head? (h : (trimStart (takeNumber t).2).head? ≠ some '/') :
    takeRange t = (((takeNumber t).1, []), trimStart (takeNumber t).2) := by
  rw [takeRange]
  dsimp only
  generalize trimStart (takeNumber t).2 = rest at h
  split
  next => exact absurd rfl h
  next => rfl

theorem takeRange_asciiLower (t : Text) :
    takeRange (asciiLower t) = ((takeRange t).1, asciiLower (takeRange t).2) := by
  have hbehind : trimStart (takeNumber (asciiLower t)).2 =
      asciiLower (trimStart (takeNumber t).2) := by
    rw [takeNumber_asciiLower, trimStart_asciiLower]
  rcases head_cases_asciiLower (c := '/') (by decide) (trimStart (takeNumber t).2) with
    ⟨rest, hrest, hcons⟩ | ⟨hhead, hhead'⟩
  · rw [takeRange, takeRange]
    simp only [hrest, hcons, trimStart_asciiLower, takeNumber_asciiLower]
  · rw [takeRange_of_head? hhead, takeRange_of_head? (by rwa [hbehind]), hbehind,
      takeNumber_asciiLower]

theorem skillShape?_of_head? (h : (trimStart (takeNumber t).2).head? ≠ some '(') :
    skillShape? t = none := by
  rw [skillShape?]
  dsimp only
  split
  · rfl
  split
  next rest hrest =>
    rw [hrest] at h
    exact absurd rfl h
  next => rfl

theorem skillShape?_asciiLower (t : Text) : skillShape? (asciiLower t) = skillShape? t := by
  have hbehind : trimStart (takeNumber (asciiLower t)).2 =
      asciiLower (trimStart (takeNumber t).2) := by
    rw [takeNumber_asciiLower, trimStart_asciiLower]
  rcases head_cases_asciiLower (c := '(') (by decide) (trimStart (takeNumber t).2) with
    ⟨rest, hrest, hcons⟩ | ⟨hhead, hhead'⟩
  · have hclose (s : Text) : asciiLower s = [')'] ↔ s = [')'] :=
      asciiLower_eq_iff (forall_mem_of_all (by decide))
    rw [skillShape?, skillShape?]
    simp only [hrest, hcons, trimStart_asciiLower, takeNumber_asciiLower, takeRange_asciiLower,
      hclose]
  · rw [skillShape?_of_head? hhead, skillShape?_of_head? (by rwa [hbehind])]

theorem levelShape?_asciiLower (t : Text) : levelShape? (asciiLower t) = levelShape? t := by
  rw [levelShape?, levelShape?]
  simp only [takeRange_asciiLower, isEmpty_asciiLower]

theorem readBound_alike (clause clause' digits : Text) :
    Alike Eq (readBound clause digits) (readBound clause' digits) := by
  rw [readBound, readBound]
  split
  · exact .ok rfl
  · cases Text.readUInt16? digits with
    | some n => exact .ok rfl
    | none => exact .error _ _

theorem readLevel_asciiLower (t : Text) : Alike Eq (readLevel t) (readLevel (asciiLower t)) := by
  rw [readLevel, readLevel, skillShape?_asciiLower, levelShape?_asciiLower]
  cases skillShape? t with
  | some shape =>
    refine (readBound_alike ..).bind ?_
    rintro min _ rfl
    refine (readBound_alike ..).bind ?_
    rintro max _ rfl
    exact .ok rfl
  | none =>
    cases levelShape? t with
    | some bounds =>
      refine (readBound_alike ..).bind ?_
      rintro min _ rfl
      refine (readBound_alike ..).bind ?_
      rintro max _ rfl
      dsimp only
      split
      · exact .error _ _
      · exact .ok rfl
    | none => exact .error _ _

theorem readLevels_asciiLower (t : Text) :
    Alike Eq (readLevels t) (readLevels (asciiLower t)) := by
  rw [readLevels, readLevels, pieces_asciiLower (by decide)]
  refine (Alike.mapM fun clause _ => readLevel_asciiLower clause).mono fun levels levels' h => ?_
  exact List.forall₂_eq_eq_eq ▸ h

/-! ## Traits and chances -/

/-- Flags without a minus, in either case. -/
theorem readFlag?_congr {s t : Text} (hs : s.head? ≠ some '-') (ht : t.head? ≠ some '-')
    (h : asciiUpper s = asciiUpper t) : readFlag? s = readFlag? t := by
  generalize hx : readFlag? s = x
  rw [readFlag?.eq_def] at hx
  rw [readFlag?.eq_def]
  split at hx
  next negated letter hletter =>
    split at hletter
    next rest => exact absurd rfl hs
    next =>
      obtain ⟨rfl, rfl⟩ := Prod.mk.inj hletter
      split
      next negated letter hletter =>
        split at hletter
        next rest => exact absurd rfl ht
        next =>
          obtain ⟨rfl, rfl⟩ := Prod.mk.inj hletter
          rw [h] at hx
          exact hx.symm

theorem readFlag?_asciiLower (token : Text) : readFlag? (asciiLower token) = readFlag? token := by
  rcases head_cases_asciiLower (c := '-') (by decide) token with
    ⟨rest, rfl, hcons⟩ | ⟨hhead, hhead'⟩
  · rw [hcons, readFlag?, readFlag?]
    simp only [trim_asciiLower, asciiUpper_asciiLower]
  · exact readFlag?_congr hhead' hhead (asciiUpper_asciiLower token)

theorem readTraits_asciiLower (t : Text) :
    Alike Eq (readTraits t) (readTraits (asciiLower t)) := by
  rw [readTraits, readTraits, pieces_asciiLower (by decide)]
  refine Alike.foldlM ?_ rfl
  rintro wanted _ rfl token -
  rw [addFlag, addFlag, readFlag?_asciiLower]
  split
  · exact .error _ _
  · split
    · exact .ok rfl
    · exact .error _ _

theorem readChance_asciiLower (t : Text) :
    Alike Eq (readChance t) (readChance (asciiLower t)) := by
  have hread : Chance.read (asciiLower t) = Chance.read t := by
    rw [Chance.read, Numeral.read?_asciiLower, Chance.read]
  rw [readChance, readChance, hread]
  cases Chance.read t with
  | ok chance => exact .ok rfl
  | error fault => exact .error _ _

/-! ## Fields -/

theorem isGap_asciiLower (t : Text) : isGap (asciiLower t) = isGap t := by
  rw [isGap, isEmpty_asciiLower, sameAscii_asciiLower, isGap]

theorem splitFields_asciiLower (value : Text) :
    splitFields (asciiLower value) = (splitFields value).map asciiLower := by
  rw [splitFields, splitOn_asciiLower (by decide), List.map_map, splitFields, List.map_map]
  exact List.map_congr_left fun field _ => trim_asciiLower field

theorem field?_map (fields : List Text) (i : Nat) :
    field? (fields.map asciiLower) i = (field? fields i).map asciiLower := by
  rw [field?, field?, List.getElem?_map, Option.filter_map]
  congr 2
  exact funext fun field => congrArg not (isGap_asciiLower field)

theorem readOr_map {R : α → β → Prop} {absent : α} {absent' : β}
    {read : Text → Except FieldFault α} {read' : Text → Except FieldFault β}
    (habsent : R absent absent') (h : ∀ t, Alike R (read t) (read' (asciiLower t)))
    (field : Option Text) :
    Alike R (readOr absent read field) (readOr absent' read' (field.map asciiLower)) := by
  cases field with
  | none => exact .ok habsent
  | some t => exact (h t).mapError

/-! ## Entries -/

theorem readTarget_asciiLower (c : Catalog) (type : EntryKind) (literal : Text) :
    Alike (fun target target' => target.lowered = target'.lowered) (readTarget c type literal)
      (readTarget c type (asciiLower literal)) := by
  cases type with
  | outfit slot =>
    rw [readTarget, readTarget, Catalog.resolveAs_asciiLower]
    cases c.resolveAs .outfit literal with
    | some ref => exact .ok rfl
    | none => exact .error _ _
  | keyword =>
    refine .ok ?_
    rw [tagNamed, tagNamed, Catalog.resolveAs_asciiLower]
    cases (c.resolveAs .keyword literal).bind (·.editorId?) with
    | some editorId => rfl
    | none => exact congrArg Target.keyword (asciiLower_asciiLower literal).symm

theorem assemble_asciiLower (c : Catalog) (n n' : Nat) (raw raw' : Text) (type : EntryKind)
    (value : Text) : Alike Rule.SameButCase (assemble c n raw type value)
      (assemble c n' raw' type (asciiLower value)) := by
  rw [assemble, assemble]
  dsimp only
  rw [splitFields_asciiLower, List.length_map, field?_map]
  split
  · exact .error _ _
  cases field? (splitFields value) 0 with
  | none => exact .error _ _
  | some literal =>
    simp only [Option.map_some, field?_map]
    refine (readTarget_asciiLower c type literal).bind fun target target' htarget => ?_
    refine (readOr_map (R := fun s s' => s' = s.map asciiLower) rfl
      readStrings_asciiLower _).bind ?_
    rintro strings _ rfl
    refine (readOr_map (R := fun s s' => s' = s.map Reference.lowered) rfl
      (readForms_asciiLower c) _).bind ?_
    rintro forms _ rfl
    refine (readOr_map rfl readLevels_asciiLower _).bind ?_
    rintro levels _ rfl
    refine (readOr_map rfl readTraits_asciiLower _).bind ?_
    rintro traits _ rfl
    refine (readOr_map (R := Eq) rfl
      (fun t => (readChance_asciiLower t).map fun _ _ => congrArg some) _).bind ?_
    rintro chance _ rfl
    exact .ok ⟨rfl, htarget, (Filters.lowered_lowered ⟨strings, forms, levels, traits⟩).symm, rfl⟩

theorem isAsciiLetter_toLower (c : Char) : isAsciiLetter c.toLower = isAsciiLetter c :=
  isAlpha_toLower c

/-- An entry without an equals sign behind its type. -/
theorem entryShape?_of_head? (h : (trimStart (t.dropWhile isAsciiLetter)).head? ≠ some '=') :
    entryShape? t = none := by
  rw [entryShape?]
  dsimp only
  split
  · rfl
  split
  next rest hrest =>
    rw [hrest] at h
    exact absurd rfl h
  next => rfl

theorem entryShape?_asciiLower (t : Text) :
    entryShape? (asciiLower t) = (entryShape? t).map (Prod.map asciiLower asciiLower) := by
  have hbehind : trimStart ((asciiLower t).dropWhile isAsciiLetter) =
      asciiLower (trimStart (t.dropWhile isAsciiLetter)) := by
    rw [dropWhile_asciiLower isAsciiLetter_toLower, trimStart_asciiLower]
  rcases head_cases_asciiLower (c := '=') (by decide)
    (trimStart (t.dropWhile isAsciiLetter)) with ⟨rest, hrest, hcons⟩ | ⟨hhead, hhead'⟩
  · rw [entryShape?, entryShape?, hbehind, takeWhile_asciiLower isAsciiLetter_toLower]
    simp only [hrest, hcons, trimStart_asciiLower, isEmpty_asciiLower,
      contains_asciiLower (c := '\n') (by decide)]
    split
    · rfl
    · split <;> rfl
  · rw [entryShape?_of_head? hhead, entryShape?_of_head? (by rwa [hbehind])]
    rfl

/-- What an entry comes to, its small form comes to as well, up to the case of literals. -/
theorem readLine_asciiLower (c : Catalog) (n n' : Nat) (t : Text) :
    (readLine c n t).Agree Rule.SameButCase (readLine c n' (asciiLower t)) := by
  rw [readLine, readLine, entryShape?_asciiLower]
  cases entryShape? t with
  | none => exact .unparseable _ _
  | some shape =>
    simp only [Option.map_some, Prod.map, asciiLower_asciiLower, trim_asciiLower]
    cases entryKind? (asciiLower shape.1) with
    | some type =>
      have h := assemble_asciiLower c n n' t (asciiLower t) type (trim shape.2)
      dsimp only
      generalize assemble c n t type (trim shape.2) = x,
        assemble c n' (asciiLower t) type (asciiLower (trim shape.2)) = y at h
      cases h with
      | ok h => exact .rules (.cons h .nil)
      | error fault fault' => exact .unparseable fault fault'
    | none =>
      dsimp only
      split
      · exact .ignored .keyValue
      · exact .unparseable _ _

end Spid
end Wardrobe
