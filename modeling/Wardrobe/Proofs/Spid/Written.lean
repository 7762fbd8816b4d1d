import Wardrobe.Proofs.Spid.Line
/-
Fields as they are written in entries.

A field that is written is trimmed, holds no mark that ends a field or opens a comment and does
not look like a gap.  References are written as editor ids where they have any, so these have to
be found again.
-/

namespace Wardrobe

variable {c : Catalog} {ref : Reference} {e x t : Text} {ch : Char} {r : Form}

namespace Spid

/-! ## Texts that can stand in a field -/

structure IsFieldText (x : Text) : Prop where
  isPiece : Text.IsPiece x
  bar : '|' ∉ x
  semicolon : ';' ∉ x
  isGap : isGap x = false

/-- A part that can stand in a field.  Only one without marks can look like a gap. -/
structure IsEntryPart (q : Criterion.Part Text) : Prop extends IsWritable q where
  bar : '|' ∉ q.value
  semicolon : ';' ∉ q.value
  notGap : q.negated = false → q.wildcard = false → isGap q.value = false

theorem IsFieldText.isEntryPart {q : Criterion.Part Text} (h : IsFieldText q.value)
    (hq : IsWritable q) : IsEntryPart q :=
  ⟨hq, h.bar, h.semicolon, fun _ _ => h.isGap⟩

/-- Only the letters of `NONE` stand in a gap. -/
theorem isGap_of_mem (hmem : ch ∈ x) (hch : ch.toLower ∉ "none".toList) : isGap x = false := by
  have hsame : Text.sameAscii x gap = false := by
    by_contra hsame
    have hlower := Text.sameAscii_iff.1 (Bool.not_eq_false _ ▸ hsame)
    have hin : ch.toLower ∈ Text.asciiLower x := List.mem_map_of_mem hmem
    rw [hlower] at hin
    exact hch hin
  simp [isGap, hsame, List.ne_nil_of_mem hmem]

theorem toLower_not_mem_none (hdigit : ch.isDigit = true) : ch.toLower ∉ "none".toList := by
  have hlower : ch.toLower.isDigit = ch.isDigit := Text.apply_toLower (by decide) ch
  have hletters : ∀ d ∈ "none".toList, d.isDigit = false := Text.forall_mem_of_all (by decide)
  intro hmem
  rw [hletters _ hmem, hdigit] at hlower
  cases hlower

theorem isFieldText_decimal (n : Nat) : IsFieldText (Text.decimal n) := by
  have hdigit : ∀ ch ∈ Text.decimal n, ch.isDigit = true := fun ch hch =>
    Text.isDigit_of_mem_decimal hch
  obtain ⟨ch, hch⟩ := List.exists_mem_of_ne_nil _ (Text.decimal_ne_nil n)
  have hpiece : Text.IsPiece (Text.decimal n) :=
    Text.isPiece_of_alphanum (Text.decimal_ne_nil n) fun ch hch =>
      Text.isAlphanum_of_mem_decimal hch
  exact ⟨hpiece, Text.not_mem_of_forall hdigit (by decide),
    Text.not_mem_of_forall hdigit (by decide),
    isGap_of_mem hch (toLower_not_mem_none (hdigit ch hch))⟩

theorem isFieldText_levels {levels : List LevelRange} (hne : levels ≠ []) :
    IsFieldText (Text.joined "," (levels.map (·.text))) := by
  have hmark {ch : Char} (hdigit : ch.isDigit = false) (hin : ch ∉ ",/()".toList) :
      ch ∉ Text.joined "," (levels.map (·.text)) := by
    have hin' : ch ≠ ',' ∧ ch ∉ "/()".toList := by simpa using hin
    intro hmem
    rcases Text.mem_joined hmem with hsep | ⟨part, hpart, hch⟩
    · exact hin'.1 (List.mem_singleton.1 hsep)
    · obtain ⟨range, -, rfl⟩ := List.mem_map.1 hpart
      exact not_mem_levelText hdigit hin'.2 hch
  refine ⟨Text.isPiece_joined (by simpa using hne) ?_, hmark (by decide) (by decide),
    hmark (by decide) (by decide), ?_⟩
  · rw [List.forall_mem_map]
    exact fun range _ => isPiece_levelText range
  · obtain ⟨range, rest, rfl⟩ := List.exists_cons_of_ne_nil hne
    obtain ⟨ch, hch⟩ := List.exists_mem_of_ne_nil _ (isPiece_levelText range).ne_nil
    have hmarks : ∀ ch ∈ "/()".toList, ch.toLower ∉ "none".toList :=
      Text.forall_mem_of_all (by decide)
    exact isGap_of_mem ((Text.prefix_joined "," range.text _).subset hch)
      ((mem_levelText hch).elim toLower_not_mem_none (hmarks ch))

theorem isEmpty_of_flags {t : Traits.Wanted} (h : t.flags = []) : t.isEmpty = true := by
  have hflag (letter : Char) (v : Option Bool) (h : Traits.Wanted.flag letter v = []) :
      v.isNone = true := by
    rcases v with _ | _ | _
    · rfl
    · cases h
    · cases h
  simp only [Traits.Wanted.flags, List.append_eq_nil_iff] at h
  obtain ⟨⟨⟨⟨hfemale, hunique⟩, hsummonable⟩, hchild⟩, hleveled⟩ := h
  have hsex : t.female.isNone = true := by
    cases hsome : t.female with
    | none => rfl
    | some female => cases female <;> simp [hsome] at hfemale
  simp [Traits.Wanted.isEmpty, hsex, hflag _ _ hunique, hflag _ _ hsummonable, hflag _ _ hchild,
    hflag _ _ hleveled]

theorem isFieldText_traits {t : Traits.Wanted} (hne : t.isEmpty = false) : IsFieldText t.text := by
  have hflags : t.flags ≠ [] := fun hnil => by
    rw [isEmpty_of_flags hnil] at hne
    cases hne
  have hchars : ∀ ch ∈ t.text, ch ∈ "/-FMUSCL".toList := by
    intro ch hch
    rcases Text.mem_joined hch with hsep | ⟨flag, hflag, hin⟩
    · exact List.mem_cons.2 (Or.inl (List.mem_singleton.1 hsep))
    · exact List.mem_cons_of_mem _ ((mem_flags hflag).2 ch hin)
  have hall : ∀ ch ∈ "/-FMUSCL".toList, ch ≠ '|' ∧ ch ≠ ';' ∧ ch.toLower ∉ "none".toList :=
    Text.forall_mem_of_all (by decide)
  have hpiece : Text.IsPiece t.text := Text.isPiece_joined hflags fun x hx => isPiece_flag hx
  obtain ⟨ch, hch⟩ := List.exists_mem_of_ne_nil _ hpiece.ne_nil
  exact ⟨hpiece, fun hmem => (hall _ (hchars _ hmem)).1 rfl,
    fun hmem => (hall _ (hchars _ hmem)).2.1 rfl, isGap_of_mem hch (hall ch (hchars ch hch)).2.2⟩

section Criteria

variable {q : Criterion.Part Text} {es : List (List (Criterion.Part Text))}

theorem not_mem_alternatives (hch : ∀ e ∈ es, ∀ q ∈ e, ch ∉ q.value)
    (hmarks : ch ∉ ",-*+".toList) : ch ∉ Text.joined "," (es.map (alternativeText id)) := by
  have hmarks' : ch ≠ ',' ∧ ch ∉ "-*+".toList := by simpa using hmarks
  intro hmem
  rcases Text.mem_joined hmem with hsep | ⟨part, hpart, hin⟩
  · exact hmarks'.1 (List.mem_singleton.1 hsep)
  · obtain ⟨e, he, rfl⟩ := List.mem_map.1 hpart
    exact not_mem_alternativeText (hch e he) hmarks'.2 hin

/-- A field with a mark in it fills no gap, and one without marks is a value. -/
theorem isGap_alternatives (hne : es ≠ []) (h : ∀ e ∈ es, e ≠ []) :
    isGap (Text.joined "," (es.map (alternativeText id))) = false ↔
      ∀ q, es = [[q]] → q.negated = false → q.wildcard = false → isGap q.value = false := by
  have htext (q : Criterion.Part Text) :
      Text.joined "," ([[q]].map (alternativeText id)) = partText id q := by
    simp [Text.joined, alternativeText]
  constructor
  · rintro hgap q rfl hneg hwild
    rw [htext] at hgap
    simpa [partText, hneg, hwild] using hgap
  intro hvalue
  have hmark : ∀ ch ∈ ",+-*".toList, ch ∈ Text.joined "," (es.map (alternativeText id)) →
      isGap (Text.joined "," (es.map (alternativeText id))) = false := by
    have hall : ∀ ch ∈ ",+-*".toList, ch.toLower ∉ "none".toList :=
      Text.forall_mem_of_all (by decide)
    exact fun ch hch hmem => isGap_of_mem hmem (hall ch hch)
  obtain ⟨e, others, rfl⟩ := List.exists_cons_of_ne_nil hne
  obtain ⟨q, more, rfl⟩ := List.exists_cons_of_ne_nil (h e List.mem_cons_self)
  cases others with
  | cons e' rest =>
    exact hmark ',' (by decide) (by simp [Text.joined, List.intercalate_cons_cons])
  | nil =>
    cases more with
    | cons q' rest =>
      exact hmark '+' (by decide)
        (by simp [Text.joined, alternativeText, List.intercalate_cons_cons])
    | nil =>
      rw [htext] at hmark ⊢
      cases hneg : q.negated with
      | true => exact hmark '-' (by decide) (by simp [partText, hneg])
      | false =>
        cases hwild : q.wildcard with
        | true => exact hmark '*' (by decide) (by simp [partText, hwild])
        | false => simpa [partText, hneg, hwild] using hvalue q rfl hneg hwild

theorem isFieldText_alternatives (hne : es ≠ [])
    (h : ∀ e ∈ es, e ≠ [] ∧ ∀ q ∈ e, IsEntryPart q) :
    IsFieldText (Text.joined "," (es.map (alternativeText id))) := by
  refine ⟨Text.isPiece_joined (by simpa using hne) ?_, ?_, ?_, ?_⟩
  · rw [List.forall_mem_map]
    exact fun e he =>
      isPiece_alternativeText (h e he).1 fun q hq => ((h e he).2 q hq).toIsWritable.isUncut
  · exact not_mem_alternatives (fun e he q hq => ((h e he).2 q hq).bar) (by decide)
  · exact not_mem_alternatives (fun e he q hq => ((h e he).2 q hq).semicolon) (by decide)
  · refine (isGap_alternatives hne fun e he => (h e he).1).2 ?_
    rintro q rfl
    exact ((h _ List.mem_cons_self).2 q List.mem_cons_self).notGap

end Criteria

/-! ## References -/

/-- An editor id that looks like nothing else. -/
structure IsPlainEditorId (e : Text) : Prop where
  ne_nil : e ≠ []
  letters : ∀ ch ∈ e, ch.isAlphanum = true ∨ ch = '_'
  notGap : Text.sameAscii e gap = false

instance (e : Text) : Decidable (IsPlainEditorId e) :=
  decidable_of_iff (e ≠ [] ∧ (e.all fun ch => ch.isAlphanum || ch == '_') = true ∧
      Text.sameAscii e gap = false) <| by
    have hletters : (e.all fun ch => ch.isAlphanum || ch == '_') = true ↔
        ∀ ch ∈ e, ch.isAlphanum = true ∨ ch = '_' := by simp
    rw [hletters]
    exact ⟨fun h => ⟨h.1, h.2.1, h.2.2⟩, fun h => ⟨h.1, h.2, h.3⟩⟩

/-- A file name in which no mark of an entry or of a key stands. -/
def IsPlainFileName (name : Text) : Prop := ∀ ch ∈ ",+|~;".toList, ch ∉ name

instance (name : Text) : Decidable (IsPlainFileName name) :=
  decidable_of_iff (",+|~;".toList.all (fun ch => !name.contains ch) = true)
    (by simp [IsPlainFileName])

/-- What is written for a reference names nothing else. -/
structure HasPlainNames (c : Catalog) : Prop where
  keys : c.HasWellFormedKeys
  editorIds : ∀ r, c.find? r.key = some r → ∀ e ∈ r.editorId,
    IsPlainEditorId e ∧ c.NamesOnly e r
  files : ∀ r, c.find? r.key = some r → IsPlainFileName r.key.plugin
  plugins : ∀ name, c.knowsPlugin name = true → IsPlainFileName name

namespace IsPlainEditorId

variable (h : IsPlainEditorId e)
include h

theorem not_mem (hch : ch.isAlphanum = false ∧ ch ≠ '_') : ch ∉ e := by
  intro hmem
  rcases h.letters ch hmem with halphanum | rfl
  · rw [hch.1] at halphanum
    cases halphanum
  · exact hch.2 rfl

theorem isPiece : Text.IsPiece e := by
  refine Text.isPiece_of_forall h.ne_nil fun ch hch => ?_
  rcases h.letters ch hch with halphanum | rfl
  · exact Text.isBlank_of_isAlphanum halphanum
  · decide

theorem isPlainName : Catalog.IsPlainName e :=
  ⟨h.isPiece, h.not_mem (by decide), h.not_mem (by decide), h.not_mem (by decide)⟩

theorem isFieldText : IsFieldText e :=
  ⟨h.isPiece, h.not_mem (by decide), h.not_mem (by decide), by simp [isGap, h.ne_nil, h.notGap]⟩

theorem isWritable (negated : Bool) : IsWritable ⟨e, negated, false⟩ where
  isPiece := h.isPiece
  comma := h.not_mem (by decide)
  plus := h.not_mem (by decide)
  star hhead := h.not_mem (by decide) (List.mem_of_head? hhead)
  finalStar _ hlast := h.not_mem (by decide) (List.mem_of_getLast? hlast)
  minus _ hhead := h.not_mem (by decide) (List.mem_of_head? hhead)

end IsPlainEditorId

section Keys

variable {k : FormKey} (hwell : k.IsWellFormed) (hfile : IsPlainFileName k.plugin)

theorem not_mem_spidText {ch : Char} (halphanum : ch.isAlphanum = false) (htilde : ch ≠ '~')
    (hplugin : ch ∉ k.plugin) : ch ∉ k.spidText := by
  simp [FormKey.spidText, FormKey.not_mem_numberText halphanum, htilde, hplugin]

include hwell hfile

theorem isFieldText_spidText : IsFieldText k.spidText where
  isPiece := FormKey.isPiece_spidText hwell
  bar := not_mem_spidText (by decide) (by decide) (hfile '|' (by decide))
  semicolon := not_mem_spidText (by decide) (by decide) (hfile ';' (by decide))
  isGap := by
    have htilde : '~' ∈ k.spidText := by simp [FormKey.spidText]
    exact isGap_of_mem htilde (by decide)

theorem isWritable_spidText (negated : Bool) : IsWritable ⟨k.spidText, negated, false⟩ where
  isPiece := FormKey.isPiece_spidText hwell
  comma := not_mem_spidText (by decide) (by decide) (hfile ',' (by decide))
  plus := not_mem_spidText (by decide) (by decide) (hfile '+' (by decide))
  star := by simp [FormKey.spidText, FormKey.numberText]
  minus _ := by simp [FormKey.spidText, FormKey.numberText]
  finalStar _ := by
    have hlast : k.spidText.getLast? = k.plugin.getLast? :=
      List.getLast?_append_of_ne_nil _ hwell.isPiece.ne_nil
    rw [hlast]
    exact getLast?_of_isPluginFile hwell.isPluginFile

end Keys

/-- A record is written as its editor id or, without one, as its key. -/
theorem spidText_reference (r : Form) : (∃ e ∈ r.editorId, r.reference.spidText = e) ∨
    r.reference.spidText = r.key.spidText := by
  cases he : r.editorId with
  | none => exact Or.inr (by simp [Form.reference, Reference.spidText, he])
  | some e => exact Or.inl ⟨e, rfl, by simp [Form.reference, Reference.spidText, he]⟩

section References

variable (h : HasPlainNames c)
include h

theorem isFieldText_reference (hknows : c.Knows ref) : IsFieldText ref.spidText := by
  cases hknows with
  | form r hfind =>
    rcases spidText_reference r with ⟨e, he, htext⟩ | htext
    · rw [htext]
      exact (h.editorIds r hfind e he).1.isFieldText
    · rw [htext]
      exact isFieldText_spidText (h.keys _ r hfind) (h.files r hfind)
  | plugin name hpiece hfile hknown =>
    have hplain := h.plugins name hknown
    exact ⟨hpiece, hplain '|' (by decide), hplain ';' (by decide),
      isGap_of_mem (dot_mem_of_isPluginFile hfile) (by decide)⟩

theorem isWritable_reference (hfind : c.find? r.key = some r) (negated : Bool) :
    IsWritable ⟨r.reference.spidText, negated, false⟩ := by
  rcases spidText_reference r with ⟨e, he, htext⟩ | htext
  · rw [htext]
    exact (h.editorIds r hfind e he).1.isWritable negated
  · rw [htext]
    exact isWritable_spidText (h.keys _ r hfind) (h.files r hfind) negated

theorem resolveAs_spidText (hfind : c.find? r.key = some r) :
    c.resolveAs r.kind r.reference.spidText = some r.reference := by
  rcases spidText_reference r with ⟨e, he, htext⟩ | htext
  · obtain ⟨hplain, honly⟩ := h.editorIds r hfind e he
    rw [htext]
    exact honly.resolveAs_eq hplain.isPlainName
  · have hwell := h.keys _ r hfind
    rw [htext]
    exact Catalog.resolveAs_of_read? (FormKey.isPiece_spidText hwell)
      (FormKey.read?_spidText hwell) hfind

/-- A reference that was given out is found under the text that is written for it. -/
theorem resolve_spidText (hknows : c.Knows ref) : c.resolve ref.spidText = some ref := by
  cases hknows with
  | plugin name hpiece hfile hknown =>
    exact Catalog.resolve_plugin (.plugin name hpiece hfile hknown)
  | form r hfind =>
    rcases spidText_reference r with ⟨e, he, htext⟩ | htext
    · obtain ⟨hplain, honly⟩ := h.editorIds r hfind e he
      rw [htext]
      exact honly.resolve_eq hplain.isPlainName
    · have hwell := h.keys _ r hfind
      have hunknown : c.knowsPlugin r.key.spidText = false := by
        by_contra hknown
        have hplain := h.plugins _ (Bool.not_eq_false _ ▸ hknown)
        exact hplain '~' (by decide) (by simp [FormKey.spidText])
      rw [htext]
      exact Catalog.resolve_of_read? (FormKey.isPiece_spidText hwell)
        (FormKey.read?_spidText hwell) hfind hunknown

end References

/-! ## Criteria -/

/-- The part of a form field as text. -/
def spelled (p : Criterion.Part Reference) : Criterion.Part Text :=
  ⟨p.value.spidText, p.negated, p.wildcard⟩

theorem map_alternativeText_spidText (es : List (List (Criterion.Part Reference))) :
    es.map (alternativeText Reference.spidText) =
      (es.map (·.map spelled)).map (alternativeText id) := by
  rw [List.map_map]
  refine List.map_congr_left fun e _ => ?_
  rw [Function.comp_apply, alternativeText, alternativeText, List.map_map]
  rfl

section Parts

variable {p : Criterion.Part Reference} {q : Criterion.Part Text}

theorem isWritable_of_isReadPart {field : Text} (h : IsReadPart field q)
    (hminus : q.value.head? ≠ some '-') (hstar : q.value.head? ≠ some '*') : IsWritable q :=
  ⟨h.isPiece, h.comma, h.plus, hstar, fun hw => (h.noStar hw).2, fun _ => hminus⟩

/-- A reference to a plugin is written as it was read, behind a minus perhaps. -/
theorem isWritable_spelled (h : HasPlainNames c) (hp : IsFormPart c t p) :
    IsWritable (spelled p) := by
  obtain ⟨q, ⟨field, -, hq⟩, hwild, hresolve⟩ := hp
  obtain ⟨ref, href, rfl⟩ := Option.map_eq_some_iff.1 hresolve
  have hknows : c.Knows ref := Catalog.knows_of_resolveBy href
  cases hknows with
  | form r hfind => exact isWritable_reference h hfind q.negated
  | plugin name =>
    have hname : name = q.value := by
      rw [Catalog.plugin_of_resolveBy href, hq.isPiece.trim_eq]
    subst hname
    obtain ⟨hstar, hfinal⟩ := hq.noStar hwild
    exact ⟨hq.isPiece, hq.comma, hq.plus, hstar, fun _ => hfinal, fun hn => hq.noMinus hwild hn⟩

/-- A reference that can be written into a field. -/
structure IsEntryForm (p : Criterion.Part Reference) : Prop where
  wildcard : p.wildcard = false
  isEntryPart : IsEntryPart (spelled p)

theorem isEntryForm_of_isFormPart (h : HasPlainNames c) (hp : IsFormPart c t p) :
    IsEntryForm p :=
  ⟨hp.wildcard,
    (isFieldText_reference h (knows_of_isFormPart hp)).isEntryPart (isWritable_spelled h hp)⟩

/-- The part is read back when its reference is found under the text that is written for it. -/
theorem IsEntryForm.resolvePart_eq_iff (h : IsEntryForm p) :
    resolvePart c (spelled p) = some p ↔ c.resolve p.value.spidText = some p.value := by
  obtain ⟨value, negated, wildcard⟩ := p
  obtain rfl : wildcard = false := h.wildcard
  cases hresolve : c.resolve value.spidText <;> simp [resolvePart, spelled, hresolve]

end Parts

theorem eq_some_of_filterMap_eq_self {f : α → Option α} {l : List α} (h : l.filterMap f = l) :
    ∀ a ∈ l, f a = some a := by
  induction l with
  | nil => exact fun a ha => absurd ha List.not_mem_nil
  | cons a rest ih =>
    cases hf : f a with
    | none =>
      have hlength := congrArg List.length h
      have hle := List.length_filterMap_le f rest
      rw [List.filterMap_cons_none hf, List.length_cons] at hlength
      omega
    | some b =>
      rw [List.filterMap_cons_some hf] at h
      obtain ⟨rfl, hrest⟩ := List.cons.inj h
      exact List.forall_mem_cons.2 ⟨hf, ih hrest⟩

/-- Nothing was left out where nothing is missing. -/
theorem eq_some_of_filter_eq_self {f : α → Option α} {es : List (List α)}
    (h : (es.map (·.filterMap f)).filter (fun e => !e.isEmpty) = es) :
    ∀ e ∈ es, ∀ a ∈ e, f a = some a := by
  have hkept : es.Sublist (es.map (·.filterMap f)) := by
    conv => enter [1]; rw [← h]
    exact List.filter_sublist
  have hsame : es.map id = es.map (·.filterMap f) := by
    rw [List.map_id]
    exact hkept.eq_of_length (List.length_map _).symm
  intro e he
  exact eq_some_of_filterMap_eq_self (List.map_inj_left.1 hsame e he).symm

section Fields

variable {strings : Criterion Text} {forms : Criterion Reference}

/-- The text parts of a rule that can be written. -/
def ArePlainStrings (s : Criterion Text) : Prop :=
  ∀ e ∈ s.expressions, e ≠ [] ∧ ∀ q ∈ e, IsEntryPart q

theorem isFieldText_strings (h : ArePlainStrings strings) :
    ∀ x ∈ criterionText? id strings, IsFieldText x := by
  intro x hx
  rw [criterionText?] at hx
  split at hx
  · cases hx
  next hne =>
    obtain rfl := Option.mem_some_iff.1 hx
    exact isFieldText_alternatives (by simpa [Criterion.isEmpty] using hne) h

theorem ofExpressions_eq {s : Criterion α} (h : ∀ e ∈ s.expressions, e ≠ []) :
    Criterion.ofExpressions s.expressions = s := by
  have hfilter : s.expressions.filter (fun e => !e.isEmpty) = s.expressions :=
    List.filter_eq_self.2 fun e he => by simpa using h e he
  rw [Criterion.ofExpressions, hfilter]

theorem readStrings_text (h : ArePlainStrings strings) :
    readOr .empty readStrings (criterionText? id strings) = .ok strings := by
  rw [criterionText?]
  split
  next hempty =>
    have hnil : strings.expressions = [] := by simpa [Criterion.isEmpty] using hempty
    exact congrArg Except.ok (congrArg Criterion.mk hnil.symm)
  next =>
    have hread := readAlternatives_of_isWritable fun e he =>
      ⟨(h e he).1, fun q hq => ((h e he).2 q hq).toIsWritable⟩
    rw [readOr, readStrings, hread]
    exact congrArg Except.ok (ofExpressions_eq fun e he => (h e he).1)

/-- The references of a rule that can be written. -/
def AreEntryForms (s : Criterion Reference) : Prop :=
  ∀ e ∈ s.expressions, e ≠ [] ∧ ∀ p ∈ e, IsEntryForm p

/-- Every reference is found under the text that is written for it. -/
def AreFound (c : Catalog) (s : Criterion Reference) : Prop :=
  ∀ e ∈ s.expressions, ∀ p ∈ e, c.resolve p.value.spidText = some p.value

variable (hforms : AreEntryForms forms)
include hforms

theorem spelled_alternatives : ∀ e ∈ forms.expressions.map (·.map spelled),
    e ≠ [] ∧ ∀ q ∈ e, IsEntryPart q := by
  rw [List.forall_mem_map]
  intro e he
  obtain ⟨hne, hparts⟩ := hforms e he
  refine ⟨by simpa using hne, ?_⟩
  rw [List.forall_mem_map]
  exact fun p hp => (hparts p hp).isEntryPart

theorem isFieldText_forms : ∀ x ∈ criterionText? Reference.spidText forms, IsFieldText x := by
  intro x hx
  rw [criterionText?] at hx
  split at hx
  · cases hx
  next hne =>
    obtain rfl := Option.mem_some_iff.1 hx
    rw [map_alternativeText_spidText]
    exact isFieldText_alternatives (by simpa [Criterion.isEmpty] using hne)
      (spelled_alternatives hforms)

theorem readAlternatives_spelled :
    readAlternatives
        (Text.joined "," (forms.expressions.map (alternativeText Reference.spidText))) =
      .ok (forms.expressions.map (·.map spelled)) := by
  have hspelled := spelled_alternatives hforms
  rw [map_alternativeText_spidText]
  exact readAlternatives_of_isWritable fun e he =>
    ⟨(hspelled e he).1, fun q hq => ((hspelled e he).2 q hq).toIsWritable⟩

theorem find?_wildcard_spelled :
    (forms.expressions.map (·.map spelled)).flatten.find? (·.wildcard) = none := by
  rw [List.find?_eq_none]
  intro q hq
  obtain ⟨literals, hliterals, hq⟩ := List.mem_flatten.1 hq
  obtain ⟨e, he, rfl⟩ := List.mem_map.1 hliterals
  obtain ⟨p, hp, rfl⟩ := List.mem_map.1 hq
  simp [spelled, ((hforms e he).2 p hp).wildcard]

/-- Where all references are found the field is read as what it was written for. -/
theorem readForms_spelled (hfound : AreFound c forms) :
    readForms c (Text.joined "," (forms.expressions.map (alternativeText Reference.spidText))) =
      .ok forms := by
  have hresolved : (forms.expressions.map (·.map spelled)).flatten.filter
      (fun q => (c.resolve q.value).isNone) = [] := by
    rw [List.filter_eq_nil_iff]
    intro q hq
    obtain ⟨literals, hliterals, hq⟩ := List.mem_flatten.1 hq
    obtain ⟨e, he, rfl⟩ := List.mem_map.1 hliterals
    obtain ⟨p, hp, rfl⟩ := List.mem_map.1 hq
    simp [spelled, hfound e he p hp]
  have halternatives : (forms.expressions.map (·.map spelled)).map
      (·.filterMap (resolvePart c)) = forms.expressions := by
    rw [List.map_map]
    refine (List.map_congr_left fun e he => ?_).trans (List.map_id _)
    rw [Function.comp_apply, List.filterMap_map]
    refine (List.filterMap_congr fun p hp => ?_).trans List.filterMap_some
    exact ((hforms e he).2 p hp).resolvePart_eq_iff.2 (hfound e he p hp)
  have hsome (parts : List (Criterion.Part Text)) :
      ¬ (!parts.isEmpty && ([] : List (Criterion.Part Text)).length == parts.length) = true := by
    cases parts <;> simp
  unfold readForms
  rw [readAlternatives_spelled hforms]
  dsimp only [bind, Except.bind]
  rw [find?_wildcard_spelled hforms, hresolved]
  dsimp only
  rw [if_neg (hsome _), halternatives]
  exact congrArg Except.ok (ofExpressions_eq fun e he => (hforms e he).1)

/-- A field that is read as what it was written for has found all its references. -/
theorem areFound_of_readForms (h : readForms c (Text.joined ","
      (forms.expressions.map (alternativeText Reference.spidText))) = .ok forms) :
    AreFound c forms := by
  unfold readForms at h
  rw [readAlternatives_spelled hforms] at h
  dsimp only [bind, Except.bind] at h
  rw [find?_wildcard_spelled hforms] at h
  dsimp only at h
  split at h
  · cases h
  have hresolved : (forms.expressions.map (·.filterMap fun p => resolvePart c (spelled p))).filter
      (fun e => !e.isEmpty) = forms.expressions := by
    have hexpressions := congrArg Criterion.expressions (Except.ok.inj h)
    simpa only [Criterion.ofExpressions, List.map_map, Function.comp_def, List.filterMap_map]
      using hexpressions
  intro e he p hp
  exact ((hforms e he).2 p hp).resolvePart_eq_iff.1 (eq_some_of_filter_eq_self hresolved e he p hp)

theorem readForms_text_iff :
    readOr .empty (readForms c) (criterionText? Reference.spidText forms) = .ok forms ↔
      AreFound c forms := by
  rw [criterionText?]
  split
  next hempty =>
    have hnil : forms.expressions = [] := by simpa [Criterion.isEmpty] using hempty
    refine iff_of_true (congrArg Except.ok (congrArg Criterion.mk hnil.symm)) fun e he => ?_
    rw [hnil] at he
    cases he
  next =>
    rw [readOr, mapError_eq_ok]
    exact ⟨areFound_of_readForms hforms, readForms_spelled hforms⟩

end Fields

end Spid
end Wardrobe
