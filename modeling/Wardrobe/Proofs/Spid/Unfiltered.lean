import Wardrobe.Proofs.Spid.StringField
/-
What an entry has to say for its rule to have a filter.

A field is read as the pieces between its separators, so a field of separators and white space is
read as no pieces.  That is no fault to the reader, and the rule then has as little of a filter as
if the field had not been there.
-/

namespace Wardrobe

namespace Text

variable {t : Text} {sep : Char}

theorem trim_eq_nil_iff : trim t = [] ↔ ∀ ch ∈ t, isBlank ch = true := by
  constructor
  · intro hnil ch hch
    by_contra hblank
    have hmem := mem_trim (Bool.not_eq_true _ ▸ hblank) hch
    rw [hnil] at hmem
    cases hmem
  · intro hall
    by_contra hne
    obtain ⟨ch, rest, htrim, hch⟩ := (isPiece_trim hne).begins
    have hmem : ch ∈ t := trim_subset t (htrim ▸ List.mem_cons_self)
    rw [hall ch hmem] at hch
    cases hch

theorem pieces_eq_nil_iff :
    pieces sep t = [] ↔ ∀ ch ∈ t, ch = sep ∨ isBlank ch = true := by
  have hpieces : pieces sep t = [] ↔ ∀ p ∈ t.splitOn sep, trim p = [] := by simp [pieces]
  rw [hpieces]
  constructor
  · intro h ch hch
    have hjoined : joined [sep] (t.splitOn sep) = t := List.intercalate_splitOn sep
    rw [← hjoined] at hch
    rcases mem_joined hch with hsep | ⟨p, hp, hin⟩
    · exact .inl (List.mem_singleton.1 hsep)
    · exact .inr (trim_eq_nil_iff.1 (h p hp) ch hin)
  · intro h p hp
    obtain ⟨hsep, hsub⟩ := mem_splitOn hp
    refine trim_eq_nil_iff.2 fun ch hch => (h ch (hsub hch)).resolve_left ?_
    rintro rfl
    exact hsep hch

end Text

namespace Spid

variable {c : Catalog} {n i : Nat} {line t value : Text} {sep : Char} {r : Rule}
  {rules : List Rule} {fields : List Text}

/-! ## Fields -/

theorem eq_nil_of_mapM {f : α → Except ε β} {as : List α} {bs : List β}
    (h : as.mapM f = .ok bs) : bs = [] ↔ as = [] := by
  have hlength := (forall₂_of_mapM_eq_ok h).length_eq
  rw [← List.length_eq_zero_iff, ← List.length_eq_zero_iff, hlength]

theorem isEmpty_of_readStrings {s : Criterion Text} (h : readStrings t = .ok s) :
    s.isEmpty = true ↔ Text.pieces ',' t = [] := by
  rw [Criterion.isEmpty, List.isEmpty_iff]
  exact eq_nil_of_mapM (readStrings_eq_ok.1 h)

/-- Alternatives of which nothing is left name nothing. -/
theorem isNone_of_left_nil {alternatives : List (List (Criterion.Part Text))}
    (h : (Criterion.ofExpressions (alternatives.map (·.filterMap (resolvePart c)))).expressions =
      []) : ∀ p ∈ alternatives.flatten, (c.resolve p.value).isNone = true := by
  intro p hp
  obtain ⟨e, he, hpe⟩ := List.mem_flatten.1 hp
  have hleft : e.filterMap (resolvePart c) = [] := by
    by_contra hne
    have hmem := mem_ofExpressions.2 ⟨List.mem_map_of_mem he, hne⟩
    rw [h] at hmem
    cases hmem
  simpa [resolvePart] using List.filterMap_eq_nil_iff.1 hleft p hpe

/-- A form field in which nothing can be found is refused, so something is left of every other. -/
theorem isEmpty_of_readForms {s : Criterion Reference} (h : readForms c t = .ok s) :
    s.isEmpty = true ↔ Text.pieces ',' t = [] := by
  obtain ⟨alternatives, hread, h⟩ := bind_eq_ok.1 h
  dsimp only at h
  split at h
  · cases h
  split at h
  · cases h
  next hfound =>
    obtain rfl := Except.ok.inj h
    rw [Criterion.isEmpty, List.isEmpty_iff, ← eq_nil_of_mapM hread]
    constructor
    · intro hnil
      have hparts : alternatives.flatten = [] := by
        by_contra hne
        refine hfound ?_
        rw [List.filter_eq_self.2 (isNone_of_left_nil hnil)]
        simpa using hne
      refine List.eq_nil_iff_forall_not_mem.2 fun e he => ?_
      exact (isReadPart_readAlternatives hread e he).1 (List.flatten_eq_nil_iff.1 hparts e he)
    · rintro rfl
      rfl

theorem isEmpty_of_readLevels {levels : List LevelRange} (h : readLevels t = .ok levels) :
    levels.isEmpty = true ↔ Text.pieces ',' t = [] := by
  rw [List.isEmpty_iff]
  exact eq_nil_of_mapM h

theorem isEmpty_put (f : Traits.Wanted) (value : Bool) (trait : Trait) :
    (trait.put f value).isEmpty = false := by
  cases trait <;> simp [Trait.put, Traits.Wanted.isEmpty]

theorem isEmpty_of_addFlag {f f' : Traits.Wanted} (h : addFlag f t = .ok f') :
    f'.isEmpty = false := by
  rw [addFlag] at h
  split at h
  · cases h
  split at h
  · rw [← Except.ok.inj h]
    exact isEmpty_put _ _ _
  · cases h

theorem isEmpty_of_readTraits {f : Traits.Wanted} (h : readTraits t = .ok f) :
    f.isEmpty = true ↔ Text.pieces '/' t = [] := by
  rw [readTraits] at h
  generalize Text.pieces '/' t = tokens at h ⊢
  cases tokens with
  | nil =>
    obtain rfl := Except.ok.inj h
    exact iff_of_true rfl rfl
  | cons token rest =>
    rw [List.foldlM_cons] at h
    obtain ⟨first, hfirst, hrest⟩ := bind_eq_ok.1 h
    have hset : f.isEmpty = false := of_foldlM_eq_ok (P := fun f => f.isEmpty = false)
      (fun _ _ _ _ _ hstep => isEmpty_of_addFlag hstep) (isEmpty_of_addFlag hfirst) hrest
    rw [hset]
    exact iff_of_false Bool.false_ne_true (List.cons_ne_nil _ _)

/-! ## Entries -/

/-- The field is missing or a gap, or it holds separators and white space alone. -/
def AsksNothing (sep : Char) (field : Option Text) : Prop :=
  ∀ x ∈ field, ∀ ch ∈ x, ch = sep ∨ Text.isBlank ch = true

theorem isEmpty_of_readOr {isEmpty : α → Bool} {absent a : α} {read : Text → Except FieldFault α}
    {field : Option Text}
    (hread : ∀ x b, read x = .ok b → (isEmpty b = true ↔ Text.pieces sep x = []))
    (habsent : isEmpty absent = true) (h : readOr absent read field = .ok a) :
    isEmpty a = true ↔ AsksNothing sep field := by
  rcases readOr_eq_ok h with ⟨rfl, rfl⟩ | ⟨x, rfl, hx⟩
  · exact iff_of_true habsent fun x hx => by cases hx
  · rw [hread x a hx, Text.pieces_eq_nil_iff]
    simp [AsksNothing]

/-- A category of the filters is empty just where its field is as described. -/
structure EmptyWhere (P : Char → Option Text → Prop) (fields : List Text) (f : Filters) :
    Prop where
  strings : f.strings.isEmpty = true ↔ P ',' (field? fields 1)
  forms : f.forms.isEmpty = true ↔ P ',' (field? fields 2)
  levels : f.levels.isEmpty = true ↔ P ',' (field? fields 3)
  traits : f.traits.isEmpty = true ↔ P '/' (field? fields 4)

/-- The places of the filters among the fields, with the separators in them. -/
def filterFields : List (Nat × Char) := [(1, ','), (2, ','), (3, ','), (4, '/')]

theorem emptyWhere_assemble {raw : Text} {type : EntryKind}
    (h : assemble c n raw type value = .ok r) :
    EmptyWhere AsksNothing (splitFields value) r.filters := by
  have hassembled := isAssembled_of_assemble h
  exact ⟨isEmpty_of_readOr (fun _ _ => isEmpty_of_readStrings) rfl hassembled.strings,
    isEmpty_of_readOr (fun _ _ => isEmpty_of_readForms) rfl hassembled.forms,
    isEmpty_of_readOr (fun _ _ => isEmpty_of_readLevels) rfl hassembled.levels,
    isEmpty_of_readOr (fun _ _ => isEmpty_of_readTraits) rfl hassembled.traits⟩

theorem EmptyWhere.isForAll_iff {P : Char → Option Text → Prop} {f : Filters}
    (h : EmptyWhere P fields f) :
    f.isForAll = true ↔ ∀ place ∈ filterFields, P place.2 (field? fields place.1) := by
  simp [Filters.isForAll, filterFields, h.strings, h.forms, h.levels, h.traits, and_assoc]

/-- The empty categories are those whose fields are not given, if every field that is given asks
for something, and only then. -/
theorem EmptyWhere.missing_iff {f : Filters} (h : EmptyWhere AsksNothing fields f) :
    EmptyWhere (fun _ field => field = none) fields f ↔
      ∀ place ∈ filterFields, AsksNothing place.2 (field? fields place.1) →
        field? fields place.1 = none := by
  have hnone {sep : Char} {field : Option Text} (hfield : field = none) : AsksNothing sep field :=
    fun x hx => by rw [hfield] at hx; cases hx
  constructor
  · intro hmissing
    simp only [filterFields, List.forall_mem_cons, List.not_mem_nil, false_imp_iff, implies_true,
      and_true]
    exact ⟨fun hp => hmissing.strings.1 (h.strings.2 hp), fun hp => hmissing.forms.1 (h.forms.2 hp),
      fun hp => hmissing.levels.1 (h.levels.2 hp), fun hp => hmissing.traits.1 (h.traits.2 hp)⟩
  · intro hwritten
    simp only [filterFields, List.forall_mem_cons, List.not_mem_nil, false_imp_iff, implies_true,
      and_true] at hwritten
    obtain ⟨hstrings, hforms, hlevels, htraits⟩ := hwritten
    exact ⟨h.strings.trans ⟨hstrings, hnone⟩, h.forms.trans ⟨hforms, hnone⟩,
      h.levels.trans ⟨hlevels, hnone⟩, h.traits.trans ⟨htraits, hnone⟩⟩

/-- A category of filters is empty just where its field asks for nothing, and a rule is for everyone
just where no field asks for anything.  So empty categories stand for fields that are not given
exactly if no field holds separators and white space alone. -/
theorem filters_of_written_fields (h : readRuleLine c .spid n line = .rules rules) :
    ∃ name value, entryShape? (Text.trim (withoutComment line)) = some (name, value) ∧
      ∀ r ∈ rules,
        EmptyWhere AsksNothing (splitFields (Text.trim value)) r.filters ∧
        (r.filters.isForAll = true ↔ ∀ place ∈ filterFields,
          AsksNothing place.2 (field? (splitFields (Text.trim value)) place.1)) ∧
        (EmptyWhere (fun _ field => field = none) (splitFields (Text.trim value)) r.filters ↔
          ∀ place ∈ filterFields,
            AsksNothing place.2 (field? (splitFields (Text.trim value)) place.1) →
              field? (splitFields (Text.trim value)) place.1 = none) := by
  obtain ⟨name, value, type, r, hshape, rfl, hrule⟩ := rules_of_readLine (readRuleLine_eq_rules h)
  have hempty := emptyWhere_assemble hrule
  refine ⟨name, value, hshape, ?_⟩
  rw [List.forall_mem_singleton]
  exact ⟨hempty, hempty.isForAll_iff, hempty.missing_iff⟩

/-! A comma too many does no harm behind a name, and in a field of its own it is a filter lost. -/

theorem filters_of_unnamed_guard :
    ∃ r, readRuleLine .empty .spid 1 "Keyword = Tag|Guard,|NONE|, ,|-U" = .rules [r] ∧
      EmptyWhere AsksNothing (splitFields "Tag|Guard,|NONE|, ,|-U") r.filters := by
  obtain ⟨r, hread⟩ : ∃ r, readRuleLine .empty .spid 1 "Keyword = Tag|Guard,|NONE|, ,|-U" =
      .rules [r] :=
    ⟨⟨.spid, 1, "Keyword = Tag|Guard,|NONE|, ,|-U", .keyword "Tag",
      ⟨⟨[[⟨"Guard", false, false⟩]]⟩, .empty, [],
        { Traits.Wanted.empty with unique := some false }⟩,
      none, none⟩, by decide +kernel⟩
  have hline : entryShape? (Text.trim (withoutComment "Keyword = Tag|Guard,|NONE|, ,|-U")) =
      some ("Keyword".toList, "Tag|Guard,|NONE|, ,|-U".toList) := by decide +kernel
  obtain ⟨name, value, hshape, hfilters⟩ := filters_of_written_fields hread
  obtain ⟨rfl, rfl⟩ := Prod.mk.inj (Option.some.inj (hline.symm.trans hshape))
  exact ⟨r, hread, (hfilters r (List.mem_singleton_self r)).1⟩

def stockroom : Catalog := .ofRecords [⟨⟨"Watch.esp", 3⟩, .outfit, some "Mail", none⟩] [] []

def mailForAll : Rule :=
  ⟨.spid, 1, "Outfit = Mail|,", .outfit .default (.form .outfit ⟨"Watch.esp", 3⟩ (some "Mail")),
    .empty, none, none⟩

theorem comma_not_a_filter :
    readRuleLine stockroom .spid 1 "Outfit = Mail|," = .rules [mailForAll] ∧
      entryShape? (Text.trim (withoutComment "Outfit = Mail|,")) =
        some ("Outfit".toList, "Mail|,".toList) ∧
      field? (splitFields (Text.trim "Mail|,")) 1 = some [','] ∧
      mailForAll.filters.isForAll = true ∧
      ¬ EmptyWhere (fun _ field => field = none) (splitFields (Text.trim "Mail|,"))
        mailForAll.filters := by
  have hfield : field? (splitFields (Text.trim "Mail|,")) 1 = some [','] := by decide +kernel
  refine ⟨by decide +kernel, by decide +kernel, hfield, by decide, fun h => ?_⟩
  have hmissing := h.strings.1 rfl
  rw [hfield] at hmissing
  cases hmissing

end Spid
end Wardrobe
