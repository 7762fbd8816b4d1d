import Wardrobe.Proofs.SkyPatcher.Line
import Wardrobe.Proofs.Spid.Unfiltered
/-
Literals that name nothing.

Beside literals that name something they are left out, wherever in a list they stand: the form field
of an entry and the clause of a line come to what they come to without them.  A field or a clause in
which nothing else stands is refused.
-/

namespace Wardrobe

/-- The second list is the first one with elements of a sort put in. -/
inductive IsDilutedBy (P : α → Prop) : List α → List α → Prop
  | nil : IsDilutedBy P [] []
  | keep (a : α) {as bs : List α} (h : IsDilutedBy P as bs) : IsDilutedBy P (a :: as) (a :: bs)
  | insert (b : α) {as bs : List α} (hb : P b) (h : IsDilutedBy P as bs) :
      IsDilutedBy P as (b :: bs)

theorem IsDilutedBy.filterMap_eq {P : α → Prop} {f : α → Option β} {as bs : List α}
    (h : IsDilutedBy P as bs) (hnone : ∀ b, P b → f b = none) :
    bs.filterMap f = as.filterMap f := by
  induction h with
  | nil => rfl
  | keep a _ ih => rw [List.filterMap_cons, List.filterMap_cons, ih]
  | insert b hb _ ih => rw [List.filterMap_cons_none (hnone b hb), ih]

variable {c : Catalog} {n : Nat} {t t' : Text} {rules : List Rule}

/-! ## Form fields -/

namespace Spid

variable {token field field' : Text} {part : Criterion.Part Text} {filter : Criterion Reference}
  {es : List (List (Criterion.Part Text))}

/-- The texts of the parts that an alternative joins. -/
def partTexts (alternative : Text) : List Text := (alternative.splitOn '+').map Text.trim

/-- The second field is the first one with a literal more, which is an alternative of its own or is
joined to one. -/
inductive AddsLiteral (token field field' : Text) : Prop
  | alternative (before after : List Text) (hplus : '+' ∉ token)
      (h : Text.pieces ',' field = before ++ after)
      (h' : Text.pieces ',' field' = before ++ token :: after)
  | part (before after front back : List Text) (old new : Text)
      (h : Text.pieces ',' field = before ++ old :: after)
      (h' : Text.pieces ',' field' = before ++ new :: after)
      (hparts : partTexts old = front ++ back) (hparts' : partTexts new = front ++ token :: back)

/-- None of the literals in the field, if they can be read at all, names anything. -/
def NamesNothing (c : Catalog) (field : Text) : Prop :=
  ∀ es, readAlternatives field = .ok es → ∀ e ∈ es, ∀ p ∈ e, c.resolve p.value = none

theorem readAlternative_eq (t : Text) : readAlternative t = (partTexts t).mapM readPart := by
  rw [readAlternative, partTexts, List.mapM_map]
  rfl

/-- What is left of the alternatives of a field once literals that name nothing are dropped. -/
def kept (c : Catalog) (es : List (List (Criterion.Part Text))) : Criterion Reference :=
  .ofExpressions (es.map (·.filterMap (resolvePart c)))

/-- A form field is accepted that has no wildcards and, unless it is empty, names something. -/
theorem readForms_eq_ok : readForms c field = .ok filter ↔
    ∃ es, readAlternatives field = .ok es ∧ (∀ p ∈ es.flatten, p.wildcard = false) ∧
      (es.flatten = [] ∨ ∃ p ∈ es.flatten, (c.resolve p.value).isSome = true) ∧
      filter = kept c es := by
  rw [readForms, bind_eq_ok]
  refine exists_congr fun es => and_congr_right fun _ => ?_
  dsimp only
  cases hwildcard : es.flatten.find? (·.wildcard) with
  | some p =>
    refine iff_of_false (fun h => by cases h) fun h => ?_
    have hfalse := h.1 p (List.mem_of_find?_eq_some hwildcard)
    rw [List.find?_some hwildcard] at hfalse
    cases hfalse
  | none =>
    have hplain : ∀ p ∈ es.flatten, p.wildcard = false := by
      simpa using List.find?_eq_none.1 hwildcard
    have hrefused (parts : List (Criterion.Part Text)) : (!parts.isEmpty &&
        (parts.filter fun p => (c.resolve p.value).isNone).length == parts.length) = true ↔
          ¬ (parts = [] ∨ ∃ p ∈ parts, (c.resolve p.value).isSome = true) := by
      simp [List.length_filter_eq_length_iff]
    dsimp only
    rw [kept]
    split
    next h => exact iff_of_false (fun h => by cases h) fun hok => (hrefused _).1 h hok.2.1
    next h =>
      have hfound := Decidable.not_not.1 (mt (hrefused _).2 h)
      constructor
      · exact fun hok => ⟨hplain, hfound, (Except.ok.inj hok).symm⟩
      · rintro ⟨-, -, rfl⟩
        rfl

theorem isEmpty_kept_of_flatten_eq_nil (h : es.flatten = []) : (kept c es).isEmpty = true := by
  rw [List.flatten_eq_nil_iff] at h
  have hnil : ∀ e ∈ es, e.filterMap (resolvePart c) = [] := fun e he => by rw [h e he]; rfl
  simpa [kept, Criterion.isEmpty, Criterion.ofExpressions] using hnil

theorem readAlternatives_alternative {before after : List Text} (hpart : readPart token = .ok part)
    (hplus : '+' ∉ token) (h : Text.pieces ',' field = before ++ after)
    (h' : Text.pieces ',' field' = before ++ token :: after)
    (hread : readAlternatives field = .ok es) :
    ∃ es₁ es₂, es = es₁ ++ es₂ ∧ readAlternatives field' = .ok (es₁ ++ [part] :: es₂) := by
  have hmem : token ∈ Text.pieces ',' field' := by simp [h']
  have hparts : partTexts token = [token] := by
    have hsplit : (Text.joined ['+'] [token]).splitOn '+' = [token] :=
      Text.splitOn_joined (List.cons_ne_nil _ _) (by simpa using hplus)
    rw [Text.joined, List.intercalate_singleton] at hsplit
    rw [partTexts, hsplit, List.map_singleton, (Text.mem_pieces hmem).1.trim_eq]
  have hone : readAlternative token = .ok [part] := by
    rw [readAlternative_eq, hparts]
    exact mapM_eq_ok_of_forall₂ (.cons hpart .nil)
  rw [readAlternatives, h] at hread
  obtain ⟨es₁, es₂, rfl, h₁, h₂⟩ := append_of_forall₂ (forall₂_of_mapM_eq_ok hread)
  refine ⟨es₁, es₂, rfl, ?_⟩
  rw [readAlternatives, h']
  exact mapM_eq_ok_of_forall₂ (List.rel_append h₁ (.cons hone h₂))

theorem readAlternatives_part {before after front back : List Text} {old new : Text}
    (hpart : readPart token = .ok part) (h : Text.pieces ',' field = before ++ old :: after)
    (h' : Text.pieces ',' field' = before ++ new :: after)
    (hparts : partTexts old = front ++ back) (hparts' : partTexts new = front ++ token :: back)
    (hread : readAlternatives field = .ok es) :
    ∃ es₁ e₁ e₂ es₂, es = es₁ ++ (e₁ ++ e₂) :: es₂ ∧
      readAlternatives field' = .ok (es₁ ++ (e₁ ++ part :: e₂) :: es₂) := by
  rw [readAlternatives, h] at hread
  obtain ⟨es₁, rest, rfl, h₁, hrest⟩ := append_of_forall₂ (forall₂_of_mapM_eq_ok hread)
  obtain ⟨e, es₂, hold, h₂, rfl⟩ := List.forall₂_cons_left_iff.1 hrest
  rw [readAlternative_eq, hparts] at hold
  obtain ⟨e₁, e₂, rfl, hfront, hback⟩ := append_of_forall₂ (forall₂_of_mapM_eq_ok hold)
  refine ⟨es₁, e₁, e₂, es₂, rfl, ?_⟩
  have hnew : readAlternative new = .ok (e₁ ++ part :: e₂) := by
    rw [readAlternative_eq, hparts']
    exact mapM_eq_ok_of_forall₂ (List.rel_append hfront (.cons hpart hback))
  rw [readAlternatives, h']
  exact mapM_eq_ok_of_forall₂ (List.rel_append h₁ (.cons hnew h₂))

/-- One literal more that names nothing, and everything else as it was. -/
theorem readAlternatives_of_addsLiteral (hpart : readPart token = .ok part)
    (hnone : c.resolve part.value = none) (hadds : AddsLiteral token field field')
    (hread : readAlternatives field = .ok es) :
    ∃ es', readAlternatives field' = .ok es' ∧ kept c es' = kept c es ∧
      ∀ p, p ∈ es'.flatten ↔ p ∈ es.flatten ∨ p = part := by
  have hdropped : resolvePart c part = none := by simp [resolvePart, hnone]
  cases hadds with
  | alternative before after hplus h h' =>
    obtain ⟨es₁, es₂, rfl, hread'⟩ := readAlternatives_alternative hpart hplus h h' hread
    refine ⟨_, hread', ?_, fun p => ?_⟩
    · simp [kept, Criterion.ofExpressions, hdropped]
    · simp only [List.flatten_append, List.flatten_cons, List.mem_append, List.mem_singleton]
      tauto
  | part before after front back old new h h' hparts hparts' =>
    obtain ⟨es₁, e₁, e₂, es₂, rfl, hread'⟩ :=
      readAlternatives_part hpart h h' hparts hparts' hread
    refine ⟨_, hread', ?_, fun p => ?_⟩
    · simp [kept, hdropped]
    · simp only [List.flatten_append, List.flatten_cons, List.mem_append, List.mem_cons]
      tauto

theorem readForms_of_addsLiteral (hpart : readPart token = .ok part)
    (hplain : part.wildcard = false) (hnone : c.resolve part.value = none)
    (hadds : AddsLiteral token field field') (h : readForms c field = .ok filter)
    (hsome : filter.isEmpty = false) : readForms c field' = .ok filter := by
  obtain ⟨es, hread, hwildcards, hfound, rfl⟩ := readForms_eq_ok.1 h
  obtain ⟨es', hread', hkept, hmem⟩ := readAlternatives_of_addsLiteral hpart hnone hadds hread
  refine readForms_eq_ok.2 ⟨es', hread', fun p hp => ?_, ?_, hkept.symm⟩
  · rcases (hmem p).1 hp with hp | rfl
    · exact hwildcards p hp
    · exact hplain
  · rcases hfound with hnil | ⟨p, hp, hresolves⟩
    · rw [isEmpty_kept_of_flatten_eq_nil hnil] at hsome
      cases hsome
    · exact .inr ⟨p, (hmem p).2 (.inl hp), hresolves⟩

/-- Where no literal names anything there has to be none. -/
theorem error_of_namesNothing (hliterals : Text.pieces ',' field ≠ [])
    (hnothing : NamesNothing c field) : ∃ fault, readForms c field = .error fault := by
  cases h : readForms c field with
  | error fault => exact ⟨fault, rfl⟩
  | ok filter =>
    obtain ⟨es, hread, -, hfound, rfl⟩ := readForms_eq_ok.1 h
    rcases hfound with hnil | ⟨p, hp, hresolves⟩
    · exact absurd ((isEmpty_of_readForms h).1 (isEmpty_kept_of_flatten_eq_nil hnil)) hliterals
    · obtain ⟨e, he, hp⟩ := List.mem_flatten.1 hp
      rw [hnothing es hread e he p hp] at hresolves
      cases hresolves

theorem readLine_ne_rules {name value : Text} (hshape : entryShape? t = some (name, value))
    (hfield : field? (splitFields (Text.trim value)) 2 = some field)
    (hfault : ∃ fault, readForms c field = .error fault) : readLine c n t ≠ .rules rules := by
  intro h
  obtain ⟨name', value', type, r, hshape', -, hrule⟩ := rules_of_readLine h
  obtain ⟨-, rfl⟩ := Prod.mk.inj (Option.some.inj (hshape.symm.trans hshape'))
  have hforms := (isAssembled_of_assemble hrule).forms
  obtain ⟨fault, hfault⟩ := hfault
  rw [hfield, readOr, mapError_eq_ok, hfault] at hforms
  cases hforms

end Spid

/-! ## Clauses over references -/

namespace SkyPatcher

variable {f : Field} {mode : Mode} {key value value' : Text} {filter : ClauseFilter}

/-- The clause is over records of a kind or over plugins. -/
theorem readClause_eq_ok_of_reference (heditor : f ≠ .editorId) (hgender : f ≠ .gender) :
    readClause c f mode key value = .ok filter ↔
      (Text.pieces ',' value).filterMap (resolveValue c f) ≠ [] ∧
        filter = .forms (criterionOf f mode (((Text.pieces ',' value).filterMap
          (resolveValue c f)).map fun r => ⟨r, mode == .excluded, false⟩)) := by
  have hread : readClause c f mode key value =
      if (Text.pieces ',' value).isEmpty then .error (.noValues key)
      else readReferences c f mode key (Text.pieces ',' value) := by
    cases f <;> first | rfl | contradiction
  rw [hread, readReferences]
  split
  next hnil => simp [List.isEmpty_iff.1 hnil]
  next =>
    split
    next hnone => simp [List.isEmpty_iff.1 hnone]
    next hsome => simp [List.isEmpty_iff.not.1 hsome, eq_comm]

/-- The second line is the first one with values put into one of its clauses over references, none
of which names anything there. -/
inductive AddsUnresolved (c : Catalog) (t t' : Text) : Prop
  | clause (before after : List Text) (old new key value value' : Text) (f : Field) (mode : Mode)
      (h : Text.pieces ':' t = before ++ old :: after)
      (h' : Text.pieces ':' t' = before ++ new :: after)
      (hold : splitClause old = .ok (key, value)) (hnew : splitClause new = .ok (key, value'))
      (hkey : readKey? key = some (f, mode)) (heditor : f ≠ .editorId) (hgender : f ≠ .gender)
      (hvalues : IsDilutedBy (fun v => resolveValue c f v = none) (Text.pieces ',' value)
        (Text.pieces ',' value'))

theorem readLine_eq_rules : readLine c n t = .rules rules ↔
    ∃ kvs filters, splitClauses t = .ok kvs ∧ assignments kvs ≠ [] ∧
      kvs.foldlM (addKeyValue c) .empty = .ok filters ∧
      (assignments kvs).mapM (assemble c n t filters) = .ok rules := by
  rw [readLine]
  cases splitClauses t with
  | error fault => simp
  | ok kvs =>
    dsimp only
    by_cases hnone : assignments kvs = []
    · simp [hnone]
    · rw [if_neg (by simpa using hnone)]
      have hrules : readRules c n t kvs = .ok rules ↔
          ∃ filters, kvs.foldlM (addKeyValue c) .empty = .ok filters ∧
            (assignments kvs).mapM (assemble c n t filters) = .ok rules := bind_eq_ok
      cases hread : readRules c n t kvs <;> simp [← hrules, hread, hnone]

theorem addKeyValue_of_isDilutedBy {before after : Filters} (hkey : readKey? key = some (f, mode))
    (heditor : f ≠ .editorId) (hgender : f ≠ .gender)
    (hvalues : IsDilutedBy (fun v => resolveValue c f v = none) (Text.pieces ',' value)
      (Text.pieces ',' value'))
    (h : addKeyValue c before (key, value) = .ok after) :
    addKeyValue c before (key, value') = .ok after := by
  rw [addKeyValue_of_readKey? hkey, map_eq_ok] at h ⊢
  obtain ⟨filter, hread, rfl⟩ := h
  refine ⟨filter, ?_, rfl⟩
  rw [readClause_eq_ok_of_reference heditor hgender] at hread ⊢
  rwa [hvalues.filterMap_eq fun _ hnone => hnone]

theorem assemble_raw {filters : Filters} {assignment : Slot × Text} {r : Rule}
    (h : assemble c n t filters assignment = .ok r) :
    assemble c n t' filters assignment = .ok { r with raw := t' } := by
  rw [assemble] at h ⊢
  cases hresolve : c.resolveAs .outfit assignment.2 with
  | none => simp [hresolve] at h
  | some ref =>
    rw [hresolve] at h
    obtain rfl := Except.ok.inj h
    rfl

theorem readLine_of_addsUnresolved (hadds : AddsUnresolved c t t')
    (h : readLine c n t = .rules rules) :
    readLine c n t' = .rules (rules.map fun r => { r with raw := t' }) := by
  obtain ⟨before, after, old, new, key, value, value', f, mode, hline, hline', hold, hnew, hkey,
    heditor, hgender, hvalues⟩ := hadds
  obtain ⟨kvs, filters, hsplit, hassigned, hfilters, hrules⟩ := readLine_eq_rules.1 h
  rw [splitClauses, hline] at hsplit
  obtain ⟨kvs₁, rest, rfl, h₁, hrest⟩ := append_of_forall₂ (forall₂_of_mapM_eq_ok hsplit)
  obtain ⟨kv, kvs₂, hkv, h₂, rfl⟩ := List.forall₂_cons_left_iff.1 hrest
  obtain rfl : (key, value) = kv := Except.ok.inj (hold.symm.trans hkv)
  have hsplit' : splitClauses t' = .ok (kvs₁ ++ (key, value') :: kvs₂) := by
    rw [splitClauses, hline']
    exact mapM_eq_ok_of_forall₂ (List.rel_append h₁ (.cons hnew h₂))
  have hslot : slotOfKey? key = none :=
    slotOfKey?_eq_none (isFilterKey_of_readKey? (by rw [hkey]; rfl))
  have hassignments : assignments (kvs₁ ++ (key, value') :: kvs₂) =
      assignments (kvs₁ ++ (key, value) :: kvs₂) := by
    simp only [assignments, List.filterMap_append, List.filterMap_cons, hslot, Option.map_none]
  have hfilters' : (kvs₁ ++ (key, value') :: kvs₂).foldlM (addKeyValue c) .empty = .ok filters := by
    rw [List.foldlM_append, bind_eq_ok] at hfilters ⊢
    obtain ⟨joined, hjoined, hfilters⟩ := hfilters
    rw [List.foldlM_cons, bind_eq_ok] at hfilters
    obtain ⟨next, hadd, hfilters⟩ := hfilters
    refine ⟨joined, hjoined, ?_⟩
    rw [List.foldlM_cons, addKeyValue_of_isDilutedBy hkey heditor hgender hvalues hadd]
    exact hfilters
  refine readLine_eq_rules.2 ⟨_, filters, hsplit', hassignments ▸ hassigned, hfilters', ?_⟩
  rw [hassignments]
  refine mapM_eq_ok_of_forall₂ (List.forall₂_map_right_iff.2 ?_)
  exact (forall₂_of_mapM_eq_ok hrules).imp fun _ _ hassemble => assemble_raw hassemble

/-- A clause in which no value names anything is refused, with values in it and without. -/
theorem error_of_unresolved (heditor : f ≠ .editorId) (hgender : f ≠ .gender)
    (hnone : ∀ v ∈ Text.pieces ',' value, resolveValue c f v = none) :
    ∃ fault, readClause c f mode key value = .error fault := by
  cases h : readClause c f mode key value with
  | error fault => exact ⟨fault, rfl⟩
  | ok filter =>
    obtain ⟨hsome, -⟩ := (readClause_eq_ok_of_reference heditor hgender).1 h
    exact absurd (List.filterMap_eq_nil_iff.2 hnone) hsome

theorem readLine_ne_rules (hclause : (key, value) ∈ keyValues t)
    (hkey : readKey? key = some (f, mode))
    (hfault : ∃ fault, readClause c f mode key value = .error fault) :
    readLine c n t ≠ .rules rules := by
  intro h
  obtain ⟨kvs, filters, hsplit, -, hfilters, -⟩ := readLine_eq_rules.1 h
  rw [keyValues, hsplit] at hclause
  obtain ⟨fault, hfault⟩ := hfault
  obtain ⟨before, after, rfl⟩ := List.append_of_mem hclause
  rw [List.foldlM_append, bind_eq_ok] at hfilters
  obtain ⟨joined, -, hfilters⟩ := hfilters
  rw [List.foldlM_cons, addKeyValue_of_readKey? hkey, hfault] at hfilters
  cases hfilters

end SkyPatcher

/-! ## Both formats -/

/-- A literal that names nothing changes nothing in a form field that names something, wherever it
is put in, and neither do values that name nothing in the clauses of a line.  A form field with
literals and a clause over references are refused when nothing in them names anything, and so is
every line that has one. -/
theorem unresolved_literals_are_inert (c : Catalog) :
    (∀ token part field field' filter, Spid.readPart token = .ok part → part.wildcard = false →
      c.resolve part.value = none → Spid.AddsLiteral token field field' →
      Spid.readForms c field = .ok filter → filter.isEmpty = false →
      Spid.readForms c field' = .ok filter) ∧
    (∀ n t t' rules, SkyPatcher.AddsUnresolved c t t' → SkyPatcher.readLine c n t = .rules rules →
      SkyPatcher.readLine c n t' = .rules (rules.map fun r => { r with raw := t' })) ∧
    (∀ field, Text.pieces ',' field ≠ [] → Spid.NamesNothing c field →
      (∃ fault, Spid.readForms c field = .error fault) ∧
      ∀ n t name value rules, Spid.entryShape? t = some (name, value) →
        Spid.field? (Spid.splitFields (Text.trim value)) 2 = some field →
        Spid.readLine c n t ≠ .rules rules) ∧
    ∀ f mode key value, SkyPatcher.readKey? key = some (f, mode) → f ≠ .editorId → f ≠ .gender →
      (∀ v ∈ Text.pieces ',' value, SkyPatcher.resolveValue c f v = none) →
      (∃ fault, SkyPatcher.readClause c f mode key value = .error fault) ∧
      ∀ n t rules, (key, value) ∈ SkyPatcher.keyValues t →
        SkyPatcher.readLine c n t ≠ .rules rules := by
  refine ⟨fun _ _ _ _ _ hpart hplain hnone hadds h hsome =>
      Spid.readForms_of_addsLiteral hpart hplain hnone hadds h hsome,
    fun _ _ _ _ hadds h => SkyPatcher.readLine_of_addsUnresolved hadds h,
    fun field hliterals hnothing => ?_, fun f mode key value hkey heditor hgender hnone => ?_⟩
  · have hfault := Spid.error_of_namesNothing hliterals hnothing
    exact ⟨hfault, fun _ _ _ _ _ hshape hfield => Spid.readLine_ne_rules hshape hfield hfault⟩
  · have hfault : ∃ fault, SkyPatcher.readClause c f mode key value = .error fault :=
      SkyPatcher.error_of_unresolved heditor hgender hnone
    exact ⟨hfault, fun _ _ _ hclause => SkyPatcher.readLine_ne_rules hclause hkey hfault⟩

/-- The rule for the guards of the court, from a line of this text. -/
def guardsRule (raw : Text) : Rule :=
  ⟨.skyPatcher, 1, raw, .outfit .default (.form .outfit ⟨"Skyrim.esm", 3⟩ (some "Parade")),
    ⟨.empty, ⟨[[⟨.form .faction ⟨"Skyrim.esm", 1⟩ (some "Guards"), false, false⟩]]⟩, [], .empty⟩,
    none, none⟩

open SkyPatcher in
/-- Ghosts are nobody at court, so neither the entry nor the line is about them, and a field of
ghosts is refused. -/
theorem ghosts_are_inert : court.resolve "Ghosts" = none ∧
    (∃ filter, filter.isEmpty = false ∧ Spid.readForms court "Guards,Nobles" = .ok filter ∧
      Spid.readForms court "Guards,-Ghosts + Nobles" = .ok filter) ∧
    readLine court 1 "filterByFactions=Ghosts,Guards:outfitDefault=Parade" =
      .rules [guardsRule "filterByFactions=Ghosts,Guards:outfitDefault=Parade"] ∧
    (∃ fault, Spid.readForms court "Ghosts" = .error fault) ∧
    ∀ rules, readLine court 1 "filterByFactionsOr=Ghosts:outfitDefault=Parade" ≠ .rules rules := by
  obtain ⟨hentry, hline, hfield, hclause⟩ := unresolved_literals_are_inert court
  have hnobody : court.resolve "Ghosts" = none := by decide +kernel
  refine ⟨hnobody, ⟨⟨[[⟨.form .faction ⟨"Skyrim.esm", 1⟩ (some "Guards"), false, false⟩],
    [⟨.form .faction ⟨"Skyrim.esm", 2⟩ (some "Nobles"), false, false⟩]]⟩, rfl, ?_, ?_⟩, ?_, ?_, ?_⟩
  · decide +kernel
  · refine hentry "-Ghosts" ⟨"Ghosts", true, false⟩ "Guards,Nobles" _ _ (by decide +kernel) rfl
      hnobody ?_ (by decide +kernel) rfl
    exact .part ["Guards"] [] [] ["Nobles"] "Nobles" "-Ghosts + Nobles" (by decide +kernel)
      (by decide +kernel) (by decide +kernel) (by decide +kernel)
  · refine hline 1 "filterByFactions=Guards:outfitDefault=Parade" _
      [guardsRule "filterByFactions=Guards:outfitDefault=Parade"] ?_ (by decide +kernel)
    exact .clause [] ["outfitDefault=Parade"] "filterByFactions=Guards"
      "filterByFactions=Ghosts,Guards" "filterByFactions" "Guards" "Ghosts,Guards" (.form .faction)
      .plain (by decide +kernel) (by decide +kernel) (by decide +kernel) (by decide +kernel)
      (by decide +kernel) (by decide) (by decide)
      (.insert "Ghosts".toList (by decide +kernel) (.keep "Guards".toList .nil))
  · refine (hfield "Ghosts" (by decide +kernel) fun es hes e he p hp => ?_).1
    have hread : Spid.readAlternatives "Ghosts" = .ok [[⟨"Ghosts", false, false⟩]] := by
      decide +kernel
    obtain rfl := Except.ok.inj (hread.symm.trans hes)
    obtain rfl := List.mem_singleton.1 he
    obtain rfl := List.mem_singleton.1 hp
    exact hnobody
  · exact fun rules => (hclause (.form .faction) .anyOf "filterByFactionsOr" "Ghosts"
      (by decide +kernel) (by decide) (by decide) (by decide +kernel)).2 1 _ rules
      (by decide +kernel)

end Wardrobe
