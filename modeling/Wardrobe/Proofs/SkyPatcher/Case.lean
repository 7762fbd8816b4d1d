import Wardrobe.Proofs.Filter.Case
import Wardrobe.SkyPatcher.Line
/-
SkyPatcher lines that differ in the case of ASCII letters alone.

Keys are compared up to case, with their opening and ending, and the marks between clauses, keys
and values are no letters.  So a line is read clause by clause as its small form is.
-/

namespace Wardrobe
namespace SkyPatcher

open Text

variable {t : Text}

/-! ## Keys -/

theorem slotOfKey?_asciiLower (key : Text) : slotOfKey? (asciiLower key) = slotOfKey? key := by
  rw [slotOfKey?, sameAscii_asciiLower, sameAscii_asciiLower, slotOfKey?]

theorem dropOpening?_asciiLower (opening t : Text) :
    dropOpening? opening (asciiLower t) = (dropOpening? opening t).map asciiLower := by
  rw [dropOpening?, dropOpening?, asciiLower_asciiLower]
  split
  · rw [asciiLower, ← List.map_drop]
    rfl
  · rfl

theorem dropEnding?_asciiLower (ending t : Text) :
    dropEnding? ending (asciiLower t) = (dropEnding? ending t).map asciiLower := by
  rw [dropEnding?, dropEnding?, endsWithAscii_asciiLower, length_asciiLower]
  split
  · rw [asciiLower, ← List.map_take]
    rfl
  · rfl

theorem ofName?_asciiLower (t : Text) : Field.ofName? (asciiLower t) = Field.ofName? t := by
  rw [Field.ofName?, Field.ofName?]
  congr 1
  exact funext fun f => sameAscii_asciiLower_right f.name t

theorem bind_ofName?_asciiLower (t : Option Text) :
    (t.map asciiLower).bind Field.ofName? = t.bind Field.ofName? := by
  rw [Option.bind_map]
  congr 1
  exact funext ofName?_asciiLower

theorem readName?_asciiLower (name : Text) : readName? (asciiLower name) = readName? name := by
  rw [readName?, ofName?_asciiLower, dropEnding?_asciiLower, dropEnding?_asciiLower,
    bind_ofName?_asciiLower, bind_ofName?_asciiLower, readName?]

theorem isFilterKey_asciiLower (key : Text) : isFilterKey (asciiLower key) = isFilterKey key := by
  rw [isFilterKey, dropOpening?_asciiLower, Option.isSome_map, isFilterKey]

theorem readKey?_asciiLower (key : Text) : readKey? (asciiLower key) = readKey? key := by
  rw [readKey?, dropOpening?_asciiLower, Option.bind_map, readKey?]
  congr 1
  exact funext readName?_asciiLower

/-! ## Clauses -/

theorem resolveValue_asciiLower (c : Catalog) (f : Field) (value : Text) :
    resolveValue c f (asciiLower value) = (resolveValue c f value).map Reference.lowered := by
  have hplugin : ((c.resolve value).map Reference.lowered).filter (·.isPlugin) =
      ((c.resolve value).filter (·.isPlugin)).map Reference.lowered := by
    rw [Option.filter_map]
    congr 2
    refine funext fun ref => ?_
    cases ref <;> rfl
  cases f with
  | form kind => exact c.resolveBy_asciiLower (Catalog.typedStages kind) value
  | plugin => exact (congrArg _ (c.resolve_asciiLower value)).trans hplugin
  | editorId => exact (congrArg _ (c.resolve_asciiLower value)).trans hplugin
  | gender => exact (congrArg _ (c.resolve_asciiLower value)).trans hplugin

theorem map_criterionOf (g : α → β) (f : Field) (mode : Mode) (parts : List (Criterion.Part α)) :
    (criterionOf f mode parts).map g = criterionOf f mode (parts.map (Criterion.Part.map g)) := by
  cases mode with
  | anyOf => exact Criterion.map_anyOf g parts
  | excluded => exact Criterion.map_allOf g parts
  | plain =>
    rw [criterionOf, criterionOf]
    split
    · exact Criterion.map_allOf g parts
    · exact Criterion.map_anyOf g parts

/-- What the clause asks for, with the case of literals taken out. -/
def ClauseFilter.lowered : ClauseFilter → ClauseFilter
  | gender female => gender female
  | strings criterion => strings (criterion.map asciiLower)
  | forms criterion => forms (criterion.map Reference.lowered)

theorem readReferences_asciiLower (c : Catalog) (f : Field) (mode : Mode) (key key' : Text)
    (values : List Text) : Alike (fun x x' => x' = x.lowered) (readReferences c f mode key values)
      (readReferences c f mode key' (values.map asciiLower)) := by
  have hrefs : (values.map asciiLower).filterMap (resolveValue c f) =
      (values.filterMap (resolveValue c f)).map Reference.lowered := by
    rw [List.filterMap_map, List.map_filterMap]
    exact List.filterMap_congr fun v _ => resolveValue_asciiLower c f v
  rw [readReferences, readReferences, hrefs, List.isEmpty_map]
  split
  · exact .error _ _
  · refine .ok ?_
    rw [ClauseFilter.lowered, map_criterionOf, List.map_map, List.map_map]
    rfl

theorem readClause_asciiLower (c : Catalog) (f : Field) (mode : Mode) (key key' value : Text) :
    Alike (fun x x' => x' = x.lowered) (readClause c f mode key value)
      (readClause c f mode key' (asciiLower value)) := by
  unfold readClause
  dsimp only
  rw [pieces_asciiLower (by decide), List.isEmpty_map]
  split
  · exact .error _ _
  cases f with
  | form kind => exact readReferences_asciiLower c (.form kind) mode key key' _
  | plugin => exact readReferences_asciiLower c .plugin mode key key' _
  | editorId =>
    refine .ok ?_
    rw [ClauseFilter.lowered, map_criterionOf, List.map_map, List.map_map]
    rfl
  | gender =>
    cases pieces ',' value with
    | nil => exact .error _ _
    | cons sex more =>
      cases more with
      | cons sex' more => exact .error _ _
      | nil =>
        simp only [List.map_cons, List.map_nil, sameAscii_asciiLower]
        split
        · exact .ok rfl
        · split
          · exact .ok rfl
          · exact .error _ _

theorem addClause_lowered (filters : Filters) (x : ClauseFilter) :
    (addClause filters x).lowered = addClause filters.lowered x.lowered := by
  cases x with
  | gender female => rfl
  | strings s =>
    rw [addClause, Filters.lowered, Criterion.map_and]
    rfl
  | forms s =>
    rw [addClause, Filters.lowered, Criterion.map_and]
    rfl

theorem addKeyValue_asciiLower (c : Catalog) (filters : Filters) (kv : Text × Text) :
    Alike (fun f f' => f' = f.lowered) (addKeyValue c filters kv)
      (addKeyValue c filters.lowered (kv.map asciiLower asciiLower)) := by
  obtain ⟨key, value⟩ := kv
  rw [Prod.map_apply, addKeyValue, addKeyValue, slotOfKey?_asciiLower, readKey?_asciiLower,
    isFilterKey_asciiLower]
  split
  · exact .ok rfl
  cases readKey? key with
  | some named =>
    refine (readClause_asciiLower c named.1 named.2 key (asciiLower key) value).map ?_
    rintro x _ rfl
    exact (addClause_lowered filters x).symm
  | none =>
    dsimp only
    split
    · exact .error _ _
    · exact .ok rfl

/-! ## Lines -/

theorem splitClause_asciiLower (clause : Text) :
    Alike (fun kv kv' => kv' = kv.map asciiLower asciiLower) (splitClause clause)
      (splitClause (asciiLower clause)) := by
  rw [splitClause, splitClause, cutAt_asciiLower (by decide)]
  cases cutAt '=' clause with
  | some kv =>
    simp only [Option.map_some, Prod.map, trim_asciiLower]
    exact .ok rfl
  | none => exact .error _ _

theorem splitClauses_asciiLower (t : Text) :
    Alike (fun kvs kvs' => kvs' = kvs.map (Prod.map asciiLower asciiLower)) (splitClauses t)
      (splitClauses (asciiLower t)) := by
  rw [splitClauses, splitClauses, pieces_asciiLower (by decide)]
  exact Alike.mapM_eq fun clause _ => splitClause_asciiLower clause

theorem assignments_map (kvs : List (Text × Text)) :
    assignments (kvs.map (Prod.map asciiLower asciiLower)) =
      (assignments kvs).map (Prod.map id asciiLower) := by
  rw [assignments, List.filterMap_map, assignments, List.map_filterMap]
  refine List.filterMap_congr fun kv _ => ?_
  obtain ⟨key, value⟩ := kv
  rw [Function.comp_apply, Prod.map_apply]
  dsimp only
  rw [slotOfKey?_asciiLower, Option.map_map]
  rfl

theorem assemble_asciiLower (c : Catalog) (n n' : Nat) (raw raw' : Text) (filters : Filters)
    (a : Slot × Text) : Alike Rule.SameButCase (assemble c n raw filters a)
      (assemble c n' raw' filters.lowered (a.map id asciiLower)) := by
  rw [assemble, assemble, Prod.map, Catalog.resolveAs_asciiLower]
  cases c.resolveAs .outfit a.2 with
  | some ref => exact .ok ⟨rfl, rfl, filters.lowered_lowered.symm, rfl⟩
  | none => exact .error _ _

theorem readRules_asciiLower (c : Catalog) (n n' : Nat) (raw raw' : Text)
    (kvs : List (Text × Text)) : Alike (List.Forall₂ Rule.SameButCase) (readRules c n raw kvs)
      (readRules c n' raw' (kvs.map (Prod.map asciiLower asciiLower))) := by
  rw [readRules, readRules, assignments_map]
  refine (Alike.foldlM (R := fun f f' => f' = f.lowered) ?_ rfl).bind ?_
  · rintro filters _ rfl kv -
    exact addKeyValue_asciiLower c filters kv
  · rintro filters _ rfl
    exact Alike.mapM fun a _ => assemble_asciiLower c n n' raw raw' filters a

/-- What a line comes to, its small form comes to as well, up to the case of literals. -/
theorem readLine_asciiLower (c : Catalog) (n n' : Nat) (t : Text) :
    (readLine c n t).Agree Rule.SameButCase (readLine c n' (asciiLower t)) := by
  have hclauses := splitClauses_asciiLower t
  rw [readLine, readLine]
  generalize splitClauses t = x, splitClauses (asciiLower t) = y at hclauses
  cases hclauses with
  | error fault fault' => exact .unparseable fault fault'
  | @ok kvs _ hkvs =>
    subst hkvs
    dsimp only
    rw [assignments_map, List.isEmpty_map]
    split
    · exact .ignored .keyValue
    · have hrules := readRules_asciiLower c n n' t (asciiLower t) kvs
      generalize readRules c n t kvs = x, readRules c n' (asciiLower t) _ = y at hrules
      cases hrules with
      | error fault fault' => exact .unparseable fault fault'
      | ok h => exact .rules h

end SkyPatcher
end Wardrobe
