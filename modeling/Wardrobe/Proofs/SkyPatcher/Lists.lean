import Wardrobe.Proofs.SkyPatcher.Choices
import Wardrobe.Proofs.SkyPatcher.RoundTrip
/-
The lists of clauses that rules are written with, and that their clauses give the same lists.

The lists that are found for a rule are in a normal form: no value stands in one of them in two
cases, and a choice is one between several values that are not required as well.
-/

namespace Wardrobe
namespace SkyPatcher

variable {l l' : ClauseLists} {f : Field} {mode : Mode} {v w : ListedValue}
  {vs required offered : List ListedValue} {lists : Field → List Text} {ts us : List Text}

/-! ## Values of one case -/

/-- No value is there in two cases. -/
def OneCaseEach (ts : List Text) : Prop := ts.Pairwise fun t u => Text.sameAscii t u = false

/-- The value at the end, unless one that differs in case only is there. -/
def pushCase (ts : List Text) (t : Text) : List Text :=
  if ts.any fun u => Text.sameAscii u t then ts else ts ++ [t]

/-- The values of a field. -/
def literalsAt (f : Field) (vs : List ListedValue) : List Text :=
  (vs.filter fun v => v.field == f).map (·.literal)

theorem literalsAt_cons (f : Field) (v : ListedValue) (vs : List ListedValue) :
    literalsAt f (v :: vs) = if v.field = f then v.literal :: literalsAt f vs
      else literalsAt f vs := by
  rw [literalsAt, List.filter_cons]
  by_cases hf : v.field = f
  · rw [if_pos (beq_iff_eq.2 hf), if_pos hf]
    rfl
  · rw [if_neg (by simpa using hf), if_neg hf]
    rfl

theorem literalsAt_append (f : Field) (vs ws : List ListedValue) :
    literalsAt f (vs ++ ws) = literalsAt f vs ++ literalsAt f ws := by
  simp [literalsAt]

theorem mem_literalsAt {t : Text} : t ∈ literalsAt f vs ↔ ⟨f, t⟩ ∈ vs := by
  rw [literalsAt, List.mem_map]
  constructor
  · rintro ⟨⟨g, u⟩, hv, rfl⟩
    obtain ⟨hmem, hg⟩ := List.mem_filter.1 hv
    obtain rfl : g = f := beq_iff_eq.1 hg
    exact hmem
  · intro hmem
    exact ⟨⟨f, t⟩, List.mem_filter.2 ⟨hmem, beq_self_eq_true f⟩, rfl⟩

theorem OneCaseEach.nodup (h : OneCaseEach ts) : ts.Nodup := by
  refine h.imp fun hdiffer heq => ?_
  rw [heq, Text.sameAscii_refl] at hdiffer
  cases hdiffer

theorem oneCaseEach_pushCase (h : OneCaseEach ts) (t : Text) : OneCaseEach (pushCase ts t) := by
  rw [pushCase]
  split
  · exact h
  next hfresh =>
    refine List.pairwise_append.2 ⟨h, List.pairwise_singleton _ _, fun u hu t' ht' => ?_⟩
    obtain rfl := List.mem_singleton.1 ht'
    rw [List.any_eq_true] at hfresh
    push Not at hfresh
    simpa using hfresh u hu

theorem oneCaseEach_foldl_pushCase (h : OneCaseEach ts) (us : List Text) :
    OneCaseEach (us.foldl pushCase ts) := by
  induction us generalizing ts with
  | nil => exact h
  | cons u us ih => exact ih (oneCaseEach_pushCase h u)

theorem foldl_pushCase_of_subset (h : us ⊆ ts) : us.foldl pushCase ts = ts := by
  induction us with
  | nil => rfl
  | cons u us ih =>
    obtain ⟨hu, hus⟩ := List.cons_subset.1 h
    have hthere : (ts.any fun t => Text.sameAscii t u) = true :=
      List.any_eq_true.2 ⟨u, hu, Text.sameAscii_refl u⟩
    rw [List.foldl_cons, pushCase, if_pos hthere, ih hus]

theorem foldl_pushCase_of_oneCaseEach (h : OneCaseEach (ts ++ us)) :
    us.foldl pushCase ts = ts ++ us := by
  induction us generalizing ts with
  | nil => exact (List.append_nil ts).symm
  | cons u us ih =>
    have hfresh : ¬ (ts.any fun t => Text.sameAscii t u) = true := by
      rw [List.any_eq_true]
      rintro ⟨t, ht, hsame⟩
      have hdiffer := (List.pairwise_append.1 h).2.2 t ht u List.mem_cons_self
      rw [hsame] at hdiffer
      cases hdiffer
    rw [List.foldl_cons, pushCase, if_neg hfresh, ih (by simpa using h), List.append_assoc]
    rfl

theorem prefix_foldl_pushCase (ts us : List Text) : ts <+: us.foldl pushCase ts := by
  induction us generalizing ts with
  | nil => exact List.prefix_rfl
  | cons u us ih =>
    refine List.IsPrefix.trans ?_ (ih (pushCase ts u))
    rw [pushCase]
    split
    · exact List.prefix_rfl
    · exact List.prefix_append ts [u]

/-- At each field, values are pushed as those of that field are. -/
theorem foldl_pushAt (lists : Field → List Text) (vs : List ListedValue) (f : Field) :
    vs.foldl ClauseLists.pushAt lists f = (literalsAt f vs).foldl pushCase (lists f) := by
  induction vs generalizing lists with
  | nil => rfl
  | cons v rest ih =>
    rw [List.foldl_cons, ih, literalsAt_cons, ClauseLists.pushAt]
    by_cases hf : f = v.field
    · rw [if_pos hf, if_pos hf.symm, List.foldl_cons]
      rfl
    · rw [if_neg hf, if_neg (Ne.symm hf)]

theorem oneCaseEach_foldl_pushAt (h : OneCaseEach (lists f)) (vs : List ListedValue) :
    OneCaseEach (vs.foldl ClauseLists.pushAt lists f) := by
  rw [foldl_pushAt]
  exact oneCaseEach_foldl_pushCase h _

/-! ## Requiring and offering values -/

namespace ClauseLists

/-- An offered value is put into the clause of its field that one value suffices for. -/
def pushOffered (l : ClauseLists) (v : ListedValue) : ClauseLists :=
  if v.field.asksForAll then l.pushAnyOf v else l.pushPlain v

/-- The lists with required values and offered ones. -/
def extended (l : ClauseLists) (required offered : List ListedValue) : ClauseLists :=
  offered.foldl pushOffered (required.foldl pushPlain l)

theorem foldl_pushOffered (l : ClauseLists) (vs : List ListedValue) : vs.foldl pushOffered l =
    { l with
      plain := (vs.filter fun v => !v.field.asksForAll).foldl pushAt l.plain
      anyOf := (vs.filter fun v => v.field.asksForAll).foldl pushAt l.anyOf } := by
  induction vs generalizing l with
  | nil => rfl
  | cons v rest ih =>
    rw [List.foldl_cons, ih, pushOffered]
    cases hasks : v.field.asksForAll with
    | true => simp [hasks, pushAnyOf]
    | false => simp [hasks, pushPlain]

theorem extended_eq (l : ClauseLists) (required offered : List ListedValue) :
    l.extended required offered =
      { l with
        plain := (required ++ offered.filter fun v => !v.field.asksForAll).foldl pushAt l.plain
        anyOf := (offered.filter fun v => v.field.asksForAll).foldl pushAt l.anyOf } := by
  rw [extended, foldl_pushOffered, foldl_pushPlain, List.foldl_append]

end ClauseLists

open ClauseLists

theorem requireValue_eq_ok : requireValue l v = .ok l' ↔
    l' = l.pushPlain v ∧
      (v.field.asksForAll = false → ((l.pushPlain v).plain v.field).length ≤ 1) := by
  rw [requireValue]
  cases hasks : v.field.asksForAll with
  | true => simp [eq_comm]
  | false =>
    by_cases hshort : ((l.pushPlain v).plain v.field).length ≤ 1
    · simp [hshort, Nat.not_lt.2 hshort, eq_comm]
    · simp [hshort, Nat.not_le.1 hshort]

theorem eq_of_foldlM_requireValue (h : vs.foldlM requireValue l = .ok l') :
    l' = vs.foldl pushPlain l := by
  induction vs generalizing l with
  | nil => exact (Except.ok.inj h).symm
  | cons v rest ih =>
    rw [List.foldlM_cons] at h
    obtain ⟨l₁, hfirst, h⟩ := bind_eq_ok.1 h
    obtain ⟨rfl, -⟩ := requireValue_eq_ok.1 hfirst
    exact ih h

/-- Values can be required when in the end no field has more of them than it can require. -/
theorem foldlM_requireValue (h : ∀ v ∈ vs, v.field.asksForAll = false →
      ((vs.foldl pushPlain l).plain v.field).length ≤ 1) :
    vs.foldlM requireValue l = .ok (vs.foldl pushPlain l) := by
  induction vs generalizing l with
  | nil => rfl
  | cons v rest ih =>
    obtain ⟨hv, hrest⟩ := List.forall_mem_cons.1 h
    have hfirst : requireValue l v = .ok (l.pushPlain v) := by
      refine requireValue_eq_ok.2 ⟨rfl, fun hasks => Nat.le_trans ?_ (hv hasks)⟩
      rw [List.foldl_cons, foldl_pushPlain]
      dsimp only
      rw [foldl_pushAt]
      exact (prefix_foldl_pushCase _ _).length_le
    rw [List.foldlM_cons, hfirst]
    exact ih hrest

theorem foldl_pushOffered_of_field (hfield : ∀ v ∈ vs, v.field = f) :
    vs.foldl pushOffered l =
      if f.asksForAll then vs.foldl pushAnyOf l else vs.foldl pushPlain l := by
  induction vs generalizing l with
  | nil => simp
  | cons v rest ih =>
    obtain ⟨hv, hrest⟩ := List.forall_mem_cons.1 hfield
    rw [List.foldl_cons, ih hrest, pushOffered, hv]
    cases f.asksForAll <;> rfl

theorem offerChoice_eq_ok (hfield : ∀ v ∈ vs, v.field = f) (hseveral : 1 < vs.length) :
    offerChoice l (f, vs) = .ok l' ↔
      l' = vs.foldl pushOffered l ∧ (f.asksForAll = false → l.plain f = []) := by
  rw [offerChoice, foldl_pushOffered_of_field hfield]
  simp only [hseveral, decide_true, Bool.and_true, Bool.true_and]
  cases hasks : f.asksForAll with
  | true =>
    rw [if_pos rfl, if_pos rfl]
    exact ⟨fun h => ⟨(Except.ok.inj h).symm, fun hfalse => by cases hfalse⟩,
      fun h => congrArg _ h.1.symm⟩
  | false =>
    by_cases hempty : l.plain f = []
    · rw [if_neg Bool.false_ne_true, if_neg (by simp [hempty])]
      exact ⟨fun h => ⟨(Except.ok.inj h).symm, fun _ => hempty⟩, fun h => congrArg _ h.1.symm⟩
    · rw [if_neg Bool.false_ne_true, if_pos (by simpa using hempty)]
      exact iff_of_false (fun h => by cases h) fun h => hempty (h.2 rfl)

/-- What becomes of the lists when several values of each of some fields are offered. -/
theorem foldlM_offerChoice_eq_ok {columns : List (Field × List ListedValue)}
    (hnodup : (columns.map Prod.fst).Nodup)
    (hcolumn : ∀ column ∈ columns, 1 < column.2.length ∧ ∀ v ∈ column.2, v.field = column.1) :
    columns.foldlM offerChoice l = .ok l' ↔
      l' = (columns.flatMap Prod.snd).foldl pushOffered l ∧
        ∀ column ∈ columns, column.1.asksForAll = false → l.plain column.1 = [] := by
  induction columns generalizing l with
  | nil =>
    exact ⟨fun h => ⟨(Except.ok.inj h).symm, fun _ hf => absurd hf List.not_mem_nil⟩,
      fun h => congrArg _ h.1.symm⟩
  | cons column rest ih =>
    obtain ⟨f, vs⟩ := column
    obtain ⟨⟨hseveral, hfield⟩, hrest⟩ := List.forall_mem_cons.1 hcolumn
    rw [List.map_cons, List.nodup_cons] at hnodup
    obtain ⟨hfresh, hnodup⟩ := hnodup
    have hother : ∀ column ∈ rest, (vs.foldl pushOffered l).plain column.1 = l.plain column.1 := by
      intro column hmem
      have hne : column.1 ≠ f := by
        intro heq
        exact hfresh (List.mem_map.2 ⟨column, hmem, heq⟩)
      rw [foldl_pushOffered]
      exact (added_foldl_pushAt _ _).other_of_ne
        (fun v hv => hfield v (List.mem_filter.1 hv).1) hne
    rw [List.foldlM_cons, bind_eq_ok, List.flatMap_cons, List.foldl_append, List.forall_mem_cons]
    simp only [offerChoice_eq_ok hfield hseveral, and_assoc, exists_eq_left, ih hnodup hrest]
    constructor
    · rintro ⟨hf, rfl, hempty⟩
      exact ⟨rfl, hf, fun g hg hasks => by rw [← hother g hg, hempty g hg hasks]⟩
    · rintro ⟨rfl, hf, hempty⟩
      exact ⟨hf, rfl, fun g hg hasks => by rw [hother g hg, hempty g hg hasks]⟩

/-! ## The normal form -/

/-- No value is listed in two cases, and a choice is one between several values that are not
required as well. -/
structure ClauseLists.IsNormal (l : ClauseLists) : Prop where
  oneCase : ∀ mode f, OneCaseEach (l.listAt mode f)
  several : ∀ f, l.anyOf f ≠ [] → f.asksForAll = true ∧ 1 < (l.anyOf f).length
  disjoint : ∀ f, ∀ t ∈ l.anyOf f, t ∉ l.plain f

/-- Taking alternatives apart requires some of their values and offers others, several of a field
if any. -/
theorem extended_of_factor {alternatives : List (List ListedValue)}
    (h : factor l alternatives = .ok l') :
    ∃ required offered, l' = l.extended required offered ∧
      (∀ v ∈ required ++ offered, ∃ alternative ∈ alternatives, v ∈ alternative) ∧
      ∀ v ∈ offered, v ∉ required ∧ ∃ w ∈ offered, w.field = v.field ∧ w ≠ v := by
  by_cases hne : alternatives = []
  · subst hne
    exact ⟨[], [], (Except.ok.inj h).symm, by simp, by simp⟩
  obtain ⟨l₁, fields, hrequire, hshape, -, hoffer⟩ := factor_eq_ok hne h
  have hseveral : ∀ f ∈ fields, 1 < (columnAt (residualsOf alternatives) f).length :=
    fun f hf => one_lt_length_columnAt hshape.shape hne hf
  have hfields : ((fields.map fun f => (f, columnAt (residualsOf alternatives) f)).map
      Prod.fst).Nodup := by
    rw [List.map_map]
    exact (List.map_id fields).symm ▸ hshape.nodup
  obtain ⟨rfl, -⟩ := (foldlM_offerChoice_eq_ok hfields (List.forall_mem_map.2
    fun f hf => ⟨hseveral f hf, fun v hv => (mem_columnAt.1 hv).2⟩)).1 hoffer
  rw [List.flatMap_map]
  refine ⟨sharedBy alternatives, _, by rw [extended, eq_of_foldlM_requireValue hrequire],
    fun v hv => ?_, fun v hv => ?_⟩
  · rcases List.mem_append.1 hv with hv | hv
    · exact exists_of_mem_sharedBy hv
    · obtain ⟨f, -, hv⟩ := List.mem_flatMap.1 hv
      exact (mem_columnAt_residualsOf.1 hv).1
  · obtain ⟨f, hf, hv⟩ := List.mem_flatMap.1 hv
    obtain ⟨-, hnot, hfield⟩ := mem_columnAt_residualsOf.1 hv
    obtain ⟨w, hw, hwne⟩ := exists_ne_of_nodup (nodup_distinct _) (hseveral f hf) v
    refine ⟨hnot, w, List.mem_flatMap.2 ⟨f, hf, hw⟩, ?_, hwne⟩
    rw [(mem_columnAt.1 hw).2, hfield]

theorem extended_other (h : ∀ v ∈ required ++ offered, v.field ≠ f) :
    (l.extended required offered).plain f = l.plain f ∧
      (l.extended required offered).anyOf f = l.anyOf f := by
  obtain ⟨hrequired, hoffered⟩ := List.forall_mem_append.1 h
  rw [extended_eq]
  refine ⟨(added_foldl_pushAt _ _).other f fun v hv => ?_,
    (added_foldl_pushAt _ _).other f fun v hv => hoffered v (List.mem_filter.1 hv).1⟩
  rcases List.mem_append.1 hv with hv | hv
  · exact hrequired v hv
  · exact hoffered v (List.mem_filter.1 hv).1

variable {Known : ListedValue → Prop}

/-- Known values of a field differ in more than case. -/
def DifferInMore (Known : ListedValue → Prop) : Prop :=
  ∀ v w, Known v → Known w → v.field = w.field → Text.sameAscii v.literal w.literal = true → v = w

/-- Where two values have been pushed, two are listed. -/
theorem ClauseLists.Added.one_lt_length {before after : Field → List Text}
    (h : Added before after vs) (hdiffer : DifferInMore Known) (hknown : ∀ v ∈ vs, Known v)
    (hv : v ∈ vs) (hw : w ∈ vs) (hfield : w.field = v.field) (hne : w ≠ v) :
    1 < (after v.field).length := by
  obtain ⟨t, ht, hsame⟩ := h.covered v hv
  obtain ⟨u, hu, hsame'⟩ := h.covered w hw
  rw [hfield] at hu
  by_contra hshort
  rw [eq_of_length_le_one (Nat.not_lt.1 hshort) ht hu] at hsame
  rw [Text.sameAscii_comm] at hsame'
  exact hne (hdiffer w v (hknown w hw) (hknown v hv) hfield (Text.sameAscii_trans hsame' hsame))

theorem mem_anyOf_extended {t : Text} (h : t ∈ (l.extended required offered).anyOf f) :
    t ∈ l.anyOf f ∨ ⟨f, t⟩ ∈ offered ∧ f.asksForAll = true := by
  rw [extended_eq] at h
  refine ((added_foldl_pushAt _ _).mem f t h).imp_right fun hmem => ?_
  exact List.mem_filter.1 hmem

theorem mem_plain_extended {t : Text} (h : t ∈ (l.extended required offered).plain f) :
    t ∈ l.plain f ∨ ⟨f, t⟩ ∈ required ∨ f.asksForAll = false := by
  rw [extended_eq] at h
  refine ((added_foldl_pushAt _ _).mem f t h).imp_right fun hmem => ?_
  refine (List.mem_append.1 hmem).imp_right fun hoffered => ?_
  simpa using (List.mem_filter.1 hoffered).2

theorem isNormal_extended (hl : l.IsNormal) (hdiffer : DifferInMore Known)
    (hknown : ∀ v ∈ required ++ offered, Known v)
    (hfresh : ∀ v ∈ required ++ offered, l.plain v.field = [] ∧ l.anyOf v.field = [])
    (hoffered : ∀ v ∈ offered, v ∉ required ∧ ∃ w ∈ offered, w.field = v.field ∧ w ≠ v) :
    (l.extended required offered).IsNormal := by
  have hother : ∀ f t, t ∈ l.anyOf f → (l.extended required offered).plain f = l.plain f ∧
      (l.extended required offered).anyOf f = l.anyOf f := by
    intro f t ht
    refine extended_other fun v hv heq => ?_
    rw [← heq, (hfresh v hv).2] at ht
    cases ht
  refine ⟨fun mode f => ?_, fun f hne => ?_, fun f t ht hmem => ?_⟩
  · rw [extended_eq]
    cases mode with
    | plain => exact oneCaseEach_foldl_pushAt (hl.oneCase .plain f) _
    | anyOf => exact oneCaseEach_foldl_pushAt (hl.oneCase .anyOf f) _
    | excluded => exact hl.oneCase .excluded f
  · obtain ⟨t, ht⟩ := List.exists_mem_of_ne_nil _ hne
    rcases mem_anyOf_extended ht with ht | ⟨hv, hasks⟩
    · rw [(hother f t ht).2]
      exact hl.several f (List.ne_nil_of_mem ht)
    · obtain ⟨-, w, hw, hfield, hwne⟩ := hoffered _ hv
      have hw' : w ∈ offered.filter fun v => v.field.asksForAll :=
        List.mem_filter.2 ⟨hw, by rw [hfield]; exact hasks⟩
      have hadded := added_foldl_pushAt l.anyOf (offered.filter fun v => v.field.asksForAll)
      rw [extended_eq]
      exact ⟨hasks, hadded.one_lt_length hdiffer
        (fun v hv => hknown v (List.mem_append_right _ (List.mem_filter.1 hv).1))
        (List.mem_filter.2 ⟨hv, hasks⟩) hw' hfield hwne⟩
  · rcases mem_anyOf_extended ht with ht | ⟨hv, hasks⟩
    · rw [(hother f t ht).1] at hmem
      exact hl.disjoint f t ht hmem
    · rcases mem_plain_extended hmem with hmem | hrequired | hnot
      · rw [(hfresh _ (List.mem_append_right _ hv)).1] at hmem
        cases hmem
      · exact (hoffered _ hv).1 hrequired
      · rw [hasks] at hnot
        cases hnot

theorem isNormal_pushExcluded (vs : List ListedValue) :
    ClauseLists.IsNormal (vs.foldl pushExcluded .empty) := by
  rw [foldl_pushExcluded]
  refine ⟨fun mode f => ?_, fun f hne => absurd rfl hne, fun f t ht => absurd ht List.not_mem_nil⟩
  cases mode with
  | plain | anyOf => exact List.Pairwise.nil
  | excluded =>
    have hnil : OneCaseEach (ClauseLists.empty.excluded f) := List.Pairwise.nil
    exact oneCaseEach_foldl_pushAt hnil vs

theorem pushExcluded_empty (vs : List ListedValue) (f : Field) :
    (vs.foldl pushExcluded .empty).plain f = [] ∧
      (vs.foldl pushExcluded .empty).anyOf f = [] := by
  rw [foldl_pushExcluded]
  exact ⟨rfl, rfl⟩

/-- The lists that are found for filters are in normal form. -/
theorem isNormal_clauseLists {filters : Filters} (hdiffer : DifferInMore Known)
    (hstrings : ∀ p ∈ filters.strings.parts, ∀ v, stringValue p = .ok v → Known v)
    (hforms : ∀ p ∈ filters.forms.parts, ∀ v, formValue p = .ok v → Known v)
    (h : clauseLists filters = .ok l) : l.IsNormal := by
  obtain ⟨excludedStrings, strings, excludedForms, l₁, -, hs, -, hfirst, hsecond⟩ :=
    clauseLists_eq_ok h
  have hnormal := isNormal_pushExcluded (excludedStrings ++ excludedForms)
  have hempty := pushExcluded_empty (excludedStrings ++ excludedForms)
  generalize (excludedStrings ++ excludedForms).foldl pushExcluded .empty = l₀ at *
  obtain ⟨required, offered, rfl, hmem, hoffered⟩ := extended_of_factor hfirst
  have hstring : ∀ v ∈ required ++ offered, Known v ∧ v.field = .editorId := by
    intro v hv
    obtain ⟨alternative, halt, hv⟩ := hmem v hv
    obtain ⟨p, hp, hvalue⟩ := source_of_alternatives hs alternative halt v hv
    exact ⟨hstrings p hp v hvalue, field_of_stringValue hvalue⟩
  have hnormal₁ := isNormal_extended hnormal hdiffer (fun v hv => (hstring v hv).1)
    (fun v _ => hempty v.field) hoffered
  obtain ⟨required', offered', rfl, hmem', hoffered'⟩ := extended_of_factor hsecond
  have hform : ∀ v ∈ required' ++ offered', Known v ∧ v.field ≠ .editorId := by
    intro v hv
    obtain ⟨alternative, halt, hv⟩ := hmem' v hv
    obtain ⟨p, hp, hvalue⟩ :=
      source_of_alternatives (alternatives_formValue _) alternative halt v hv
    exact ⟨hforms p hp v hvalue, field_of_formValue hvalue⟩
  refine isNormal_extended hnormal₁ hdiffer (fun v hv => (hform v hv).1) (fun v hv => ?_) hoffered'
  obtain ⟨hplain, hanyOf⟩ : (l₀.extended required offered).plain v.field = l₀.plain v.field ∧
      (l₀.extended required offered).anyOf v.field = l₀.anyOf v.field :=
    extended_other fun w hw heq => (hform v hv).2 (heq.symm.trans (hstring w hw).2)
  rw [hplain, hanyOf]
  exact hempty v.field

/-! ## The clauses of lists -/

/-- What is left out by the clause. -/
def FilterClause.excludes (k : FilterClause) : List ListedValue :=
  if k.mode = .excluded then k.listed else []

/-- The clauses of a field. -/
def clausesOn (l : ClauseLists) (f : Field) : List FilterClause :=
  listedClause l f .plain ++ listedClause l f .anyOf ++ listedClause l f .excluded

/-- The clauses of some of the fields. -/
def clausesAt (l : ClauseLists) (p : Field → Bool) : List FilterClause :=
  (Field.all.filter p).flatMap (clausesOn l)

variable {p : Field → Bool} {k : FilterClause} {female : Option Bool}

theorem filter_clausesOf (hp : p .gender = false) (l : ClauseLists) (female : Option Bool) :
    (clausesOf l female).filter (fun k => p k.field) = clausesAt l p := by
  have hnone : ∀ f ∈ Field.all, p f = false →
      (writtenClauses l female f).filter (fun k => p k.field) = [] := by
    intro f _ hpf
    refine List.filter_eq_nil_iff.2 fun k hk => ?_
    rw [field_of_mem_writtenClauses hk, hpf]
    exact Bool.false_ne_true
  have hall : ∀ f ∈ Field.all.filter p,
      (writtenClauses l female f).filter (fun k => p k.field) = clausesOn l f := by
    intro f hf
    have hpf := (List.mem_filter.1 hf).2
    have hgender : f ≠ .gender := by
      rintro rfl
      rw [hp] at hpf
      cases hpf
    rw [List.filter_eq_self.2, writtenClauses, if_neg hgender]
    · rfl
    · intro k hk
      rwa [field_of_mem_writtenClauses hk]
  rw [clausesOf, clausesAt, List.filter_flatMap, ← flatMap_filter_of_nil hnone]
  exact List.flatMap_congr hall

theorem mem_clausesAt (hp : p .gender = false) : k ∈ clausesAt l p ↔
    ∃ f mode, p f = true ∧ l.listAt mode f ≠ [] ∧ k = ⟨f, mode, l.listAt mode f⟩ := by
  rw [← filter_clausesOf hp l none, List.mem_filter, mem_clausesOf]
  constructor
  · rintro ⟨⟨b, hb, -⟩ | ⟨f, mode, -, hne, rfl⟩, hpk⟩
    · cases hb
    · exact ⟨f, mode, hpk, hne, rfl⟩
  · rintro ⟨f, mode, hpf, hne, rfl⟩
    refine ⟨Or.inr ⟨f, mode, ?_, hne, rfl⟩, hpf⟩
    rintro rfl
    rw [hp] at hpf
    cases hpf

theorem flatMap_clausesOn {g : FilterClause → List ListedValue}
    (hg : ∀ f mode, g ⟨f, mode, []⟩ = []) (l : ClauseLists) (f : Field) :
    (clausesOn l f).flatMap g =
      g ⟨f, .plain, l.plain f⟩ ++ g ⟨f, .anyOf, l.anyOf f⟩ ++ g ⟨f, .excluded, l.excluded f⟩ := by
  have hlisted : ∀ mode, (listedClause l f mode).flatMap g = g ⟨f, mode, l.listAt mode f⟩ := by
    intro mode
    rw [listedClause]
    split
    next hempty => rw [hempty, hg, List.flatMap_nil]
    next => exact List.flatMap_singleton _ _
  rw [clausesOn, List.flatMap_append, List.flatMap_append, hlisted, hlisted, hlisted]
  rfl

theorem field_of_mem_clausesOn (h : k ∈ clausesOn l f) : k.field = f := by
  rw [clausesOn, List.mem_append, List.mem_append, mem_listedClause, mem_listedClause,
    mem_listedClause] at h
  rcases h with (⟨-, rfl⟩ | ⟨-, rfl⟩) | ⟨-, rfl⟩ <;> rfl

theorem filter_listedClause (l : ClauseLists) (f : Field) (mode : Mode) :
    (listedClause l f mode).filter (·.isChoice) =
      if FilterClause.isChoice ⟨f, mode, l.listAt mode f⟩ then [⟨f, mode, l.listAt mode f⟩]
      else [] := by
  rw [listedClause]
  split
  next hempty =>
    rw [hempty]
    cases mode <;> simp [FilterClause.isChoice]
  next =>
    rw [List.filter_cons]
    rfl

theorem literalsAt_flatMap {fields : List Field} {g : Field → List ListedValue}
    (hnodup : fields.Nodup) (hg : ∀ f, ∀ v ∈ g f, v.field = f) (f : Field) :
    literalsAt f (fields.flatMap g) = if f ∈ fields then (g f).map (·.literal) else [] := by
  have hself : ∀ h, literalsAt f (g h) = if h = f then (g f).map (·.literal) else [] := by
    intro h
    split
    next heq =>
      subst heq
      rw [literalsAt, List.filter_eq_self.2]
      exact fun v hv => beq_iff_eq.2 (hg h v hv)
    next hne =>
      rw [literalsAt, List.filter_eq_nil_iff.2]
      · rfl
      · intro v hv heq
        exact hne ((hg h v hv).symm.trans (beq_iff_eq.1 heq))
  induction fields with
  | nil => rfl
  | cons h rest ih =>
    obtain ⟨hfresh, hrest⟩ := List.nodup_cons.1 hnodup
    rw [List.flatMap_cons, literalsAt_append, hself, ih hrest]
    by_cases heq : h = f
    · subst heq
      simp [hfresh]
    · simp [heq, Ne.symm heq]

theorem literalsAt_filter (q : Field → Bool) (f : Field) (vs : List ListedValue) :
    literalsAt f (vs.filter fun v => q v.field) = if q f then literalsAt f vs else [] := by
  rw [literalsAt, List.filter_filter]
  cases hq : q f with
  | true =>
    rw [if_pos rfl, literalsAt]
    refine congrArg _ (List.filter_congr fun v _ => ?_)
    by_cases hf : v.field = f
    · simp [hf, hq]
    · simp [hf]
  | false =>
    rw [if_neg Bool.false_ne_true, List.filter_eq_nil_iff.2]
    · rfl
    · intro v _
      by_cases hf : v.field = f
      · simp [hf, hq]
      · simp [hf]

theorem nodup_filter_all {p : Field → Bool} : (Field.all.filter p).Nodup :=
  List.Nodup.filter p (by decide)

/-! ## The clauses of lists in normal form -/

namespace ClauseLists.IsNormal

variable (hl : l.IsNormal)
include hl

theorem flatMap_required (p : Field → Bool) : (clausesAt l p).flatMap FilterClause.required =
    (Field.all.filter p).flatMap fun f => FilterClause.required ⟨f, .plain, l.plain f⟩ := by
  rw [clausesAt, List.flatMap_assoc]
  refine List.flatMap_congr fun f _ => ?_
  have hanyOf : FilterClause.required ⟨f, .anyOf, l.anyOf f⟩ = [] := by
    by_cases hne : l.anyOf f = []
    · rw [hne]
      rfl
    · have hseveral := (hl.several f hne).2
      simp [FilterClause.required, FilterClause.isChoice, hseveral]
  rw [flatMap_clausesOn, hanyOf, List.append_nil]
  · exact List.append_nil _
  · intro f mode
    cases mode <;> simp [FilterClause.required, FilterClause.listed]

theorem flatMap_offered (p : Field → Bool) : (clausesAt l p).flatMap FilterClause.offered =
    (Field.all.filter p).flatMap fun f => FilterClause.offered ⟨f, .plain, l.plain f⟩ ++
      FilterClause.listed ⟨f, .anyOf, l.anyOf f⟩ := by
  rw [clausesAt, List.flatMap_assoc]
  refine List.flatMap_congr fun f _ => ?_
  have hanyOf : FilterClause.offered ⟨f, .anyOf, l.anyOf f⟩ =
      FilterClause.listed ⟨f, .anyOf, l.anyOf f⟩ := by
    by_cases hne : l.anyOf f = []
    · rw [hne]
      rfl
    · have hseveral := (hl.several f hne).2
      simp [FilterClause.offered, FilterClause.isChoice, hseveral]
  rw [flatMap_clausesOn, hanyOf]
  · exact List.append_nil _
  · intro f mode
    cases mode <;> simp [FilterClause.offered, FilterClause.listed]

theorem not_mem_required_of_mem_offered (hv : v ∈ (clausesAt l p).flatMap FilterClause.offered) :
    v ∉ (clausesAt l p).flatMap FilterClause.required := by
  rw [hl.flatMap_required]
  rw [hl.flatMap_offered] at hv
  intro hrequired
  obtain ⟨f, -, hrequired⟩ := List.mem_flatMap.1 hrequired
  obtain ⟨g, -, hv⟩ := List.mem_flatMap.1 hv
  rw [FilterClause.required] at hrequired
  split at hrequired
  · cases hrequired
  next hnot =>
    obtain ⟨t, ht, rfl⟩ := List.mem_map.1 hrequired
    rcases List.mem_append.1 hv with hv | hv
    · rw [FilterClause.offered] at hv
      split at hv
      next hchoice =>
        obtain ⟨u, -, heq⟩ := List.mem_map.1 hv
        obtain ⟨rfl, -⟩ := ListedValue.mk.inj heq
        exact hnot (Or.inr hchoice)
      next => cases hv
    · obtain ⟨u, hu, heq⟩ := List.mem_map.1 hv
      obtain ⟨rfl, rfl⟩ := ListedValue.mk.inj heq
      exact hl.disjoint _ _ hu ht

/-- A field has one choice at most. -/
theorem exists_filter_clausesOn (f : Field) :
    (clausesOn l f).filter (·.isChoice) = [] ∨
      ∃ k, (clausesOn l f).filter (·.isChoice) = [k] := by
  have hexcluded : FilterClause.isChoice ⟨f, .excluded, l.excluded f⟩ = false := rfl
  have hone : FilterClause.isChoice ⟨f, .plain, l.plain f⟩ = false ∨
      FilterClause.isChoice ⟨f, .anyOf, l.anyOf f⟩ = false := by
    by_cases hne : l.anyOf f = []
    · rw [hne]
      exact Or.inr rfl
    · simp [FilterClause.isChoice, (hl.several f hne).1]
  rw [clausesOn, List.filter_append, List.filter_append, filter_listedClause,
    filter_listedClause, filter_listedClause]
  simp only [listAt, hexcluded, Bool.false_eq_true, if_false, List.append_nil]
  have hsingle (b : Bool) (k : FilterClause) :
      (if b = true then [k] else []) = [] ∨ ∃ k', (if b = true then [k] else []) = [k'] := by
    cases b with
    | true => exact Or.inr ⟨k, rfl⟩
    | false => exact Or.inl rfl
  rcases hone with hnot | hnot
  · simp only [hnot, Bool.false_eq_true, if_false, List.nil_append]
    exact hsingle _ _
  · simp only [hnot, Bool.false_eq_true, if_false, List.append_nil]
    exact hsingle _ _

theorem ascending_clausesAt (p : Field → Bool) :
    ((clausesAt l p).filter (·.isChoice)).Pairwise fun k k' => k.field.rank < k'.field.rank := by
  have hranks : (Field.all.filter p).Pairwise fun f g => f.rank < g.rank :=
    List.Pairwise.filter p (by decide)
  rw [clausesAt, List.filter_flatMap, List.pairwise_flatMap]
  refine ⟨fun f _ => ?_, hranks.imp fun hlt k hk k' hk' => ?_⟩
  · rcases hl.exists_filter_clausesOn f with hnone | ⟨k, hone⟩
    · rw [hnone]
      exact List.Pairwise.nil
    · rw [hone]
      exact List.pairwise_singleton _ _
  · rwa [field_of_mem_clausesOn (List.mem_filter.1 hk).1,
      field_of_mem_clausesOn (List.mem_filter.1 hk').1]

theorem areApart (hp : p .gender = false) : AreApart (clausesAt l p) where
  ne_nil := by
    intro k hk
    obtain ⟨f, mode, -, hne, rfl⟩ := (mem_clausesAt hp).1 hk
    exact hne
  nodup := by
    intro k hk
    obtain ⟨f, mode, -, -, rfl⟩ := (mem_clausesAt hp).1 hk
    exact (hl.oneCase mode f).nodup
  disjoint := fun k hk v hv =>
    hl.not_mem_required_of_mem_offered (List.mem_flatMap.2 ⟨k, hk, hv⟩)
  ascending := hl.ascending_clausesAt p

theorem literalsAt_required (p : Field → Bool) (f : Field) :
    literalsAt f ((clausesAt l p).flatMap FilterClause.required) =
      if p f then (FilterClause.required ⟨f, .plain, l.plain f⟩).map (·.literal) else [] := by
  rw [hl.flatMap_required, literalsAt_flatMap nodup_filter_all]
  · simp [Field.mem_all]
  · exact fun f v hv => FilterClause.field_of_mem_required hv

theorem literalsAt_offered (p : Field → Bool) (f : Field) :
    literalsAt f ((clausesAt l p).flatMap FilterClause.offered) =
      if p f then (FilterClause.offered ⟨f, .plain, l.plain f⟩).map (·.literal) ++ l.anyOf f
      else [] := by
  rw [hl.flatMap_offered, literalsAt_flatMap nodup_filter_all]
  · simp [Field.mem_all, FilterClause.map_literal_listed]
  · intro f v hv
    rcases List.mem_append.1 hv with hv | hv
    · exact FilterClause.field_of_mem_offered hv
    · exact FilterClause.field_of_mem_listed hv

/-- The plain values are required, or offered if one of several suffices. -/
theorem plain_eq (f : Field) :
    (FilterClause.required ⟨f, .plain, l.plain f⟩).map (·.literal) ++
      (if !f.asksForAll then
        (FilterClause.offered ⟨f, .plain, l.plain f⟩).map (·.literal) ++ l.anyOf f else []) =
      l.plain f := by
  cases hasks : f.asksForAll with
  | true =>
    simp [FilterClause.required, FilterClause.isChoice, hasks, FilterClause.map_literal_listed]
  | false =>
    have hnone : l.anyOf f = [] := by
      by_contra hne
      rw [(hl.several f hne).1] at hasks
      cases hasks
    by_cases hseveral : 1 < (l.plain f).length
    · simp [FilterClause.required, FilterClause.offered, FilterClause.isChoice, hasks, hseveral,
        hnone, FilterClause.map_literal_listed]
    · simp [FilterClause.required, FilterClause.offered, FilterClause.isChoice, hasks, hseveral,
        hnone, FilterClause.map_literal_listed]

theorem anyOf_eq (f : Field) :
    (if f.asksForAll then
      (FilterClause.offered ⟨f, .plain, l.plain f⟩).map (·.literal) ++ l.anyOf f else []) =
      l.anyOf f := by
  cases hasks : f.asksForAll with
  | true => simp [FilterClause.offered, FilterClause.isChoice, hasks]
  | false =>
    by_contra hne
    have htrue := (hl.several f fun hnone => hne hnone.symm).1
    rw [hasks] at htrue
    cases htrue

variable {before : ClauseLists}

/-- The clauses of some fields bring the lists of these fields. -/
theorem extended_clausesAt (hfresh : ∀ f, p f = true → before.plain f = [] ∧ before.anyOf f = []) :
    before.extended ((clausesAt l p).flatMap FilterClause.required)
        ((clausesAt l p).flatMap FilterClause.offered) =
      { before with
        plain := fun f => if p f then l.plain f else before.plain f
        anyOf := fun f => if p f then l.anyOf f else before.anyOf f } := by
  rw [extended_eq]
  congr 1
  · funext f
    rw [foldl_pushAt, literalsAt_append, literalsAt_filter (fun g => !g.asksForAll),
      hl.literalsAt_required, hl.literalsAt_offered]
    cases hpf : p f with
    | true =>
      simp only [if_true]
      rw [hl.plain_eq, (hfresh f hpf).1, foldl_pushCase_of_oneCaseEach (hl.oneCase .plain f)]
      rfl
    | false => simp
  · funext f
    rw [foldl_pushAt, literalsAt_filter (fun g => g.asksForAll), hl.literalsAt_offered]
    cases hpf : p f with
    | true =>
      simp only [if_true]
      rw [hl.anyOf_eq, (hfresh f hpf).2, foldl_pushCase_of_oneCaseEach (hl.oneCase .anyOf f)]
      rfl
    | false => simp

/-- What a field requires when the required values of some fields have been pushed. -/
theorem plain_foldl_required (hfresh : ∀ f, p f = true → before.plain f = []) (hpf : p f = true) :
    (((clausesAt l p).flatMap FilterClause.required).foldl pushPlain before).plain f =
      (FilterClause.required ⟨f, .plain, l.plain f⟩).map (·.literal) := by
  have hsub : ((FilterClause.required ⟨f, .plain, l.plain f⟩).map (·.literal)).Sublist
      (l.plain f) := by
    rw [FilterClause.required]
    split
    · exact List.nil_sublist _
    · rw [FilterClause.map_literal_listed]
  rw [foldl_pushPlain]
  dsimp only
  rw [foldl_pushAt, hfresh f hpf, hl.literalsAt_required, if_pos hpf,
    foldl_pushCase_of_oneCaseEach (List.Pairwise.sublist hsub (hl.oneCase .plain f))]
  rfl

/-- Taking the alternatives of the clauses of some fields apart gives the lists of these fields. -/
theorem factor_clausesAt (hp : p .gender = false)
    (hfresh : ∀ f, p f = true → before.plain f = [] ∧ before.anyOf f = []) :
    factor before ((multiplied ((clausesAt l p).map FilterClause.alternatives)).filter
        fun a => !a.isEmpty) =
      .ok { before with
        plain := fun f => if p f then l.plain f else before.plain f
        anyOf := fun f => if p f then l.anyOf f else before.anyOf f } := by
  have hapart := hl.areApart hp
  have hrequired := fun f => hl.plain_foldl_required (f := f) fun f hpf => (hfresh f hpf).1
  have hshort : ∀ v ∈ (clausesAt l p).flatMap FilterClause.required,
      v.field.asksForAll = false → ((((clausesAt l p).flatMap FilterClause.required).foldl
        pushPlain before).plain v.field).length ≤ 1 := by
    intro v hv hasks
    rw [hl.flatMap_required] at hv
    obtain ⟨f, hf, hv⟩ := List.mem_flatMap.1 hv
    obtain rfl : v.field = f := FilterClause.field_of_mem_required hv
    rw [hrequired v.field (List.mem_filter.1 hf).2, List.length_map]
    exact FilterClause.length_required_le rfl hasks
  have hempty : ∀ k ∈ (clausesAt l p).filter (·.isChoice), k.field.asksForAll = false →
      (((clausesAt l p).flatMap FilterClause.required).foldl pushPlain before).plain k.field =
        [] := by
    intro k hk hasks
    obtain ⟨hk, hisChoice⟩ := List.mem_filter.1 hk
    obtain ⟨f, mode, hpf, hne, rfl⟩ := (mem_clausesAt hp).1 hk
    cases mode with
    | plain =>
      have hnone : FilterClause.required ⟨f, .plain, l.plain f⟩ = [] :=
        FilterClause.required_of_isChoice hisChoice
      rw [hrequired f hpf, hnone, List.map_nil]
    | anyOf =>
      dsimp only at hasks
      rw [(hl.several f hne).1] at hasks
      cases hasks
    | excluded => cases hisChoice
  rw [factor_filter_multiplied hapart.ne_nil, hapart.factor_eq, foldlM_requireValue hshort,
    ← hl.extended_clausesAt hfresh, extended]
  refine (foldlM_offerChoice_eq_ok ?_ ?_).2 ⟨?_, List.forall_mem_map.2 hempty⟩
  · rw [List.map_map]
    exact hapart.nodup_fields
  · refine List.forall_mem_map.2 fun k hk => ⟨?_, fun v hv => FilterClause.field_of_mem_listed hv⟩
    rw [FilterClause.length_listed]
    exact FilterClause.one_lt_length (List.mem_filter.1 hk).2
  · rw [List.flatMap_map, FilterClause.flatMap_offered]

end ClauseLists.IsNormal

/-! ## Exclusions -/

theorem literalsAt_excludes (l : ClauseLists) (p : Field → Bool) (f : Field) :
    literalsAt f ((clausesAt l p).flatMap FilterClause.excludes) =
      if p f then l.excluded f else [] := by
  have hexcluded : (clausesAt l p).flatMap FilterClause.excludes =
      (Field.all.filter p).flatMap fun f => FilterClause.listed ⟨f, .excluded, l.excluded f⟩ := by
    rw [clausesAt, List.flatMap_assoc]
    refine List.flatMap_congr fun f _ => ?_
    rw [flatMap_clausesOn]
    · rfl
    · intro f mode
      cases mode <;> rfl
  rw [hexcluded, literalsAt_flatMap nodup_filter_all fun f v hv =>
    FilterClause.field_of_mem_listed hv]
  simp [Field.mem_all, FilterClause.map_literal_listed]

/-- Values that are pushed once more change nothing. -/
theorem foldl_pushAt_append_of_subset {again : List ListedValue} (hagain : again ⊆ vs)
    (h : OneCaseEach (lists f ++ literalsAt f vs)) :
    (vs ++ again).foldl pushAt lists f = lists f ++ literalsAt f vs := by
  rw [foldl_pushAt, literalsAt_append, List.foldl_append, foldl_pushCase_of_oneCaseEach h]
  refine foldl_pushCase_of_subset fun t ht => List.mem_append_right _ ?_
  rw [mem_literalsAt] at ht ⊢
  exact hagain ht

/-- The field is one of texts. -/
def Field.isText (f : Field) : Bool := f == .editorId

/-- The field is one of references. -/
def Field.isReference (f : Field) : Bool := f != .editorId && f != .gender

theorem ClauseLists.IsNormal.foldl_pushExcluded_excludes {again again' : List ListedValue}
    (hl : l.IsNormal) (hgender : l.excluded .gender = [])
    (hagain : again ⊆ (clausesAt l Field.isText).flatMap FilterClause.excludes)
    (hagain' : again' ⊆ (clausesAt l Field.isReference).flatMap FilterClause.excludes) :
    (((clausesAt l Field.isText).flatMap FilterClause.excludes ++ again) ++
      ((clausesAt l Field.isReference).flatMap FilterClause.excludes ++ again')).foldl pushExcluded
        .empty = { ClauseLists.empty with excluded := l.excluded } := by
  rw [foldl_pushExcluded, List.foldl_append]
  congr 1
  funext f
  have htexts : ((clausesAt l Field.isText).flatMap FilterClause.excludes ++ again).foldl pushAt
      ClauseLists.empty.excluded f = if f.isText then l.excluded f else [] := by
    rw [← literalsAt_excludes]
    refine foldl_pushAt_append_of_subset hagain ?_
    rw [literalsAt_excludes]
    split
    · exact hl.oneCase .excluded f
    · exact List.Pairwise.nil
  have hall : (if f.isText then l.excluded f else []) ++
      (if f.isReference then l.excluded f else []) = l.excluded f := by
    cases f with
    | form kind | plugin => rfl
    | editorId => exact List.append_nil _
    | gender => exact hgender.symm
  rw [foldl_pushAt_append_of_subset hagain', htexts, literalsAt_excludes, hall]
  rw [htexts, literalsAt_excludes, hall]
  exact hl.oneCase .excluded f

/-! ## The lists of the clauses -/

/-- What the criterion lists are the clauses, multiplied out, and their exclusions, perhaps more
than once. -/
structure ListsClauses (toValue : Criterion.Part α → Except Unrepresentable ListedValue)
    (s : Criterion α) (ks : List FilterClause) : Prop where
  alternatives : SkyPatcher.alternatives toValue s =
    .ok ((multiplied (ks.map FilterClause.alternatives)).filter fun a => !a.isEmpty)
  excluded : ∃ again, again ⊆ ks.flatMap FilterClause.excludes ∧
    s.excluded.mapM toValue = .ok (ks.flatMap FilterClause.excludes ++ again)

/-- Filters that come from clauses of lists in normal form are written with these lists again. -/
theorem ClauseLists.IsNormal.clauseLists_eq {filters : Filters} (hl : l.IsNormal)
    (hgender : ∀ mode, l.listAt mode .gender = [])
    (hstrings : ListsClauses stringValue filters.strings (clausesAt l Field.isText))
    (hforms : ListsClauses formValue filters.forms (clausesAt l Field.isReference)) :
    clauseLists filters = .ok l := by
  obtain ⟨again, hagain, hxs⟩ := hstrings.excluded
  obtain ⟨again', hagain', hxf⟩ := hforms.excluded
  -- Each field is one of texts, one of references or that of the sex, which lists nothing.
  have hlists : ∀ mode f, (if f.isReference then l.listAt mode f
      else if f.isText then l.listAt mode f else []) = l.listAt mode f := by
    intro mode f
    cases f with
    | form kind | plugin | editorId => rfl
    | gender => exact (hgender mode).symm
  rw [clauseLists, hxs, hstrings.alternatives, hxf, hforms.alternatives]
  show (factor _ _ >>= fun l => factor l _) = _
  rw [hl.foldl_pushExcluded_excludes (hgender .excluded) hagain hagain',
    hl.factor_clausesAt rfl fun f _ => ⟨rfl, rfl⟩]
  refine (hl.factor_clausesAt rfl fun f hf => ?_).trans (congrArg _ ?_)
  · have hnot : f.isText = false := by
      cases f with
      | editorId => cases hf
      | form kind | plugin | gender => rfl
    simp [hnot, ClauseLists.empty]
  · obtain ⟨plain, anyOf, excluded⟩ := l
    congr 1
    · exact funext fun f => hlists .plain f
    · exact funext fun f => hlists .anyOf f

end SkyPatcher
end Wardrobe
