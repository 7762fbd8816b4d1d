import Wardrobe.Match
import Wardrobe.Proofs.Form.Case
import Wardrobe.Rule.Outcome
/-
Filters in small letters.

Taking the case of ASCII letters out of a filter changes nothing about whom it is for, because
names and tags are compared in lower case and plugins as file names.
-/

namespace Wardrobe

/-! ## Readers that fail together -/

/-- Two computations fail together, whatever each has to say about it, or come to related
results. -/
inductive Alike (R : α → β → Prop) : Except ε α → Except δ β → Prop
  | ok {a : α} {b : β} (h : R a b) : Alike R (.ok a) (.ok b)
  | error (e : ε) (e' : δ) : Alike R (.error e) (.error e')

namespace Alike

variable {R : α → β → Prop} {S : γ → ζ → Prop} {x : Except ε α} {y : Except δ β}

theorem mono {R' : α → β → Prop} (h : Alike R x y) (hR : ∀ a b, R a b → R' a b) :
    Alike R' x y := by
  cases h with
  | ok h => exact .ok (hR _ _ h)
  | error e e' => exact .error e e'

theorem bind {f : α → Except ε γ} {g : β → Except δ ζ} (h : Alike R x y)
    (hf : ∀ a b, R a b → Alike S (f a) (g b)) : Alike S (x >>= f) (y >>= g) := by
  cases h with
  | ok h => exact hf _ _ h
  | error e e' => exact .error e e'

theorem map {f : α → γ} {g : β → ζ} (h : Alike R x y) (hf : ∀ a b, R a b → S (f a) (g b)) :
    Alike S (x.map f) (y.map g) := by
  cases h with
  | ok h => exact .ok (hf _ _ h)
  | error e e' => exact .error e e'

theorem mapError {f : ε → ε'} {g : δ → δ'} (h : Alike R x y) :
    Alike R (x.mapError f) (y.mapError g) := by
  cases h with
  | ok h => exact .ok h
  | error e e' => exact .error (f e) (g e')

section Lists

variable {change : ι → κ} {as : List ι}

theorem mapM {f : ι → Except ε α} {g : κ → Except δ β}
    (h : ∀ a ∈ as, Alike R (f a) (g (change a))) :
    Alike (List.Forall₂ R) (as.mapM f) ((as.map change).mapM g) := by
  induction as with
  | nil => exact .ok .nil
  | cons a rest ih =>
    obtain ⟨ha, hrest⟩ := List.forall_mem_cons.1 h
    rw [List.map_cons, List.mapM_cons, List.mapM_cons]
    exact ha.bind fun b b' hb => (ih hrest).bind fun bs bs' hbs => .ok (.cons hb hbs)

/-- Results that one computation has as the other's changed. -/
theorem mapM_eq {v : α → β} {f : ι → Except ε α} {g : κ → Except δ β}
    (h : ∀ a ∈ as, Alike (fun b b' => b' = v b) (f a) (g (change a))) :
    Alike (fun bs bs' => bs' = bs.map v) (as.mapM f) ((as.map change).mapM g) := by
  refine (mapM h).mono fun bs bs' hbs => ?_
  induction hbs with
  | nil => rfl
  | cons hb _ ih => rw [hb, ih, List.map_cons]

theorem foldlM {f : α → ι → Except ε α} {g : β → κ → Except δ β}
    (h : ∀ b b', R b b' → ∀ a ∈ as, Alike R (f b a) (g b' (change a))) {b : α} {b' : β}
    (hb : R b b') : Alike R (as.foldlM f b) ((as.map change).foldlM g b') := by
  induction as generalizing b b' with
  | nil => exact .ok hb
  | cons a rest ih =>
    rw [List.map_cons, List.foldlM_cons, List.foldlM_cons]
    exact (h b b' hb a List.mem_cons_self).bind fun next next' hnext =>
      ih (fun b b' hb a ha => h b b' hb a (List.mem_cons_of_mem _ ha)) hnext

end Lists

end Alike

/-! ## Criteria -/

namespace Criterion

variable {f : α → β}

def Part.map (f : α → β) (p : Part α) : Part β := ⟨f p.value, p.negated, p.wildcard⟩

def map (f : α → β) (s : Criterion α) : Criterion β :=
  ⟨s.expressions.map (·.map (Part.map f))⟩

theorem map_map (g : β → γ) (f : α → β) (s : Criterion α) :
    (s.map f).map g = s.map (g ∘ f) := by
  simp [map, Part.map, Function.comp_def]

theorem isEmpty_map (f : α → β) (s : Criterion α) : (s.map f).isEmpty = s.isEmpty :=
  List.isEmpty_map

theorem parts_map (f : α → β) (s : Criterion α) : (s.map f).parts = s.parts.map (Part.map f) :=
  List.map_flatten.symm

/-- A list of lists without the empty ones. -/
theorem filter_map_isEmpty (g : γ → ζ) (es : List (List γ)) :
    (es.map (·.map g)).filter (fun e => !e.isEmpty) =
      (es.filter fun e => !e.isEmpty).map (·.map g) := by
  rw [List.filter_map]
  congr 2
  exact funext fun e => congrArg not List.isEmpty_map

theorem map_ofExpressions (f : α → β) (es : List (List (Part α))) :
    (ofExpressions es).map f = ofExpressions (es.map (·.map (Part.map f))) := by
  rw [ofExpressions, ofExpressions, filter_map_isEmpty, map]

theorem map_allOf (f : α → β) (parts : List (Part α)) :
    (allOf parts).map f = allOf (parts.map (Part.map f)) := map_ofExpressions f [parts]

theorem map_anyOf (f : α → β) (parts : List (Part α)) :
    (anyOf parts).map f = anyOf (parts.map (Part.map f)) := by
  rw [anyOf, map_ofExpressions, List.map_map, anyOf, List.map_map]
  rfl

theorem map_and (f : α → β) (s t : Criterion α) : (s.and t).map f = (s.map f).and (t.map f) := by
  rw [Criterion.and, Criterion.and, isEmpty_map, isEmpty_map]
  split
  · rfl
  split
  · rfl
  · simp [map, List.map_flatMap, List.flatMap_map, Function.comp_def]

theorem excluded_map (f : α → β) (s : Criterion α) :
    (s.map f).excluded = s.excluded.map (Part.map f) := by
  rw [excluded, parts_map, List.filter_map, excluded]
  rfl

theorem inclusions_map (f : α → β) (e : List (Part α)) :
    inclusions (e.map (Part.map f)) = (inclusions e).map (Part.map f) := by
  rw [inclusions, List.filter_map, inclusions]
  rfl

/-- What a changed criterion asks of the changed values, the criterion asks of the values. -/
theorem holds_map (f : α → β) (s : Criterion α) (present : Part β → Bool) :
    (s.map f).holds present = s.holds fun p => present (p.map f) := by
  have hasked : ((s.map f).expressions.map inclusions).filter (fun e => !e.isEmpty) =
      ((s.expressions.map inclusions).filter fun e => !e.isEmpty).map (·.map (Part.map f)) := by
    rw [← filter_map_isEmpty, map, List.map_map, List.map_map]
    congr 2
    exact funext fun e => inclusions_map f e
  rw [holds, holds, excluded_map, List.any_map, hasked]
  simp only [List.isEmpty_map, List.any_map, Function.comp_def, List.all_map]

end Criterion

/-! ## Filters -/

namespace Filters

/-- The filters with the case of literals taken out. -/
def lowered (f : Filters) : Filters :=
  ⟨f.strings.map Text.asciiLower, f.forms.map Reference.lowered, f.levels, f.traits⟩

theorem lowered_lowered (f : Filters) : f.lowered.lowered = f.lowered := by
  have hstrings : Text.asciiLower ∘ Text.asciiLower = Text.asciiLower :=
    funext Text.asciiLower_asciiLower
  have hforms : Reference.lowered ∘ Reference.lowered = Reference.lowered :=
    funext Reference.lowered_lowered
  rw [lowered, lowered, Criterion.map_map, Criterion.map_map, hstrings, hforms]

theorem tagsNamed_lowered (f : Filters) : f.lowered.tagsNamed = f.tagsNamed := by
  rw [tagsNamed, lowered, Criterion.parts_map, List.filter_map, List.map_map, tagsNamed]
  exact List.map_congr_left fun p _ => Text.lower_asciiLower p.value

end Filters

theorem Npc.placeOf?_lowered (npc : Npc) (ref : Reference) :
    npc.placeOf? ref.lowered = npc.placeOf? ref := by
  cases ref with
  | form kind key editorId => rfl
  | plugin name =>
    have hfrom : npc.isFromPlugin (Text.asciiLower name) = npc.isFromPlugin name := by
      rw [isFromPlugin, Text.sameAscii_asciiLower_right, Text.sameAscii_asciiLower_right,
        isFromPlugin]
    rw [Reference.lowered, placeOf?, hfrom, placeOf?]

theorem Subject.satisfies_lowered (s : Subject) (f : Filters) :
    s.satisfies f.lowered = s.satisfies f := by
  have hforms : s.npc.formsHold (f.forms.map Reference.lowered) = s.npc.formsHold f.forms := by
    rw [Npc.formsHold, Criterion.holds_map, Npc.formsHold]
    simp only [Criterion.Part.map, Npc.placeOf?_lowered]
  have hstrings : s.stringsHold (f.strings.map Text.asciiLower) = s.stringsHold f.strings := by
    rw [stringsHold, Criterion.holds_map, stringsHold]
    simp only [hasString, Criterion.Part.map, Text.lower_asciiLower]
    rfl
  rw [satisfies, Filters.lowered, hforms, hstrings, satisfies]

/-! ## Rules -/

/-- The target with the case of a tag taken out. -/
def Target.lowered : Target → Target
  | outfit slot ref => outfit slot ref
  | keyword tag => keyword (Text.asciiLower tag)

/-- The rules differ in the case of ASCII letters alone, and in what they say of their lines. -/
structure Rule.SameButCase (r r' : Rule) : Prop where
  dialect : r.dialect = r'.dialect
  target : r.target.lowered = r'.target.lowered
  filters : r.filters.lowered = r'.filters.lowered
  chance : r.chance = r'.chance

/-- Two lines come to the same kind of outcome, and where they come to rules, to as many, related
one by one. -/
inductive LineOutcome.Agree (R : Rule → Rule → Prop) : LineOutcome → LineOutcome → Prop
  | rules {rs rs' : List Rule} (h : List.Forall₂ R rs rs') : Agree R (.rules rs) (.rules rs')
  | unparseable (fault fault' : LineFault) : Agree R (.unparseable fault) (.unparseable fault')
  | ignored (kind : LineKind) : Agree R (.ignored kind) (.ignored kind)

/-- Outcomes that agree with the same outcome agree with each other. -/
theorem LineOutcome.Agree.of_common {R S : Rule → Rule → Prop} {x y z : LineOutcome}
    (hx : x.Agree R z) (hy : y.Agree R z) (hS : ∀ r m r', R r m → R r' m → S r r') :
    x.Agree S y := by
  cases hx with
  | unparseable fault fault' =>
    cases hy with
    | unparseable fault'' => exact .unparseable fault fault''
  | ignored kind =>
    cases hy with
    | ignored => exact .ignored kind
  | rules hrs =>
    cases hy with
    | rules hrs' => exact .rules (forall₂_of_common hrs hrs' hS)

end Wardrobe
