import Mathlib.Data.List.Nodup
import Mathlib.Data.List.Sections
import Mathlib.Algebra.BigOperators.Group.List.Basic
import Wardrobe.Proofs.RuleFile
import Wardrobe.Proofs.SkyPatcher.Line
import Wardrobe.SkyPatcher.Printer
/-
Alternatives taken apart into clauses, and that the clauses ask for the same.

A value is there or not, whatever the case it is written in.  What all alternatives share is
required.  Of what is left each alternative takes one value from each of the same fields, and when
there are as many different alternatives as choices of one value from each column, every choice is
among them.  Some alternative then holds exactly when each column has a value that does.

The choices are counted in 64 bits.  A count that has gone round can agree where choices are
missing, and then the clauses ask for less than the alternatives.
-/

namespace Wardrobe
namespace SkyPatcher

variable {isOn : ListedValue → Bool} {Known : ListedValue → Prop} {l l' : ClauseLists} {f : Field}
  {mode : Mode} {v w : ListedValue} {vs : List ListedValue} {lists : Field → List Text}

theorem eq_of_length_le_one {xs : List α} {x y : α} (h : xs.length ≤ 1) (hx : x ∈ xs)
    (hy : y ∈ xs) : x = y := by
  obtain ⟨z, rfl⟩ := List.length_eq_one_iff.1 (Nat.le_antisymm h (List.length_pos_of_mem hx))
  rw [List.mem_singleton.1 hx, List.mem_singleton.1 hy]

/-! ## What lists of clauses ask for -/

/-- The list of a clause. -/
def ClauseLists.listAt (l : ClauseLists) : Mode → Field → List Text
  | .plain => l.plain
  | .anyOf => l.anyOf
  | .excluded => l.excluded

/-- What the clause of a field asks for, if there is one. -/
def ClauseLists.HoldsAt (isOn : ListedValue → Bool) (l : ClauseLists) (mode : Mode) (f : Field) :
    Prop :=
  l.listAt mode f ≠ [] → Asks f mode (l.listAt mode f) fun t => isOn ⟨f, t⟩

def ClauseLists.Holds (isOn : ListedValue → Bool) (l : ClauseLists) : Prop :=
  ∀ mode f, l.HoldsAt isOn mode f

/-- Known values are there in any case or in none. -/
def SeesNoCase (isOn : ListedValue → Bool) (Known : ListedValue → Prop) : Prop :=
  ∀ v w, Known v → Known w → v.field = w.field → Text.sameAscii v.literal w.literal = true →
    isOn v = isOn w

/-- All values are known, and only fields with such a clause have a choice. -/
structure ClauseLists.IsMadeOf (Known : ListedValue → Prop) (l : ClauseLists) : Prop where
  known : ∀ mode f, ∀ t ∈ l.listAt mode f, Known ⟨f, t⟩
  choice : ∀ f, l.anyOf f ≠ [] → f.asksForAll = true

namespace ClauseLists

theorem holds_empty : empty.Holds isOn := by
  intro mode f hne
  cases mode <;> exact absurd rfl hne

theorem isMadeOf_empty : empty.IsMadeOf Known := by
  refine ⟨fun mode f t ht => ?_, fun f hne => absurd rfl hne⟩
  cases mode <;> cases ht

/-- When one list is changed so as to ask for `P` as well, all lists do. -/
theorem holds_iff_of_change {P : Prop} (hother : ∀ mode' f', (mode' ≠ mode ∨ f' ≠ f) →
    l'.listAt mode' f' = l.listAt mode' f')
    (hchanged : l'.HoldsAt isOn mode f ↔ l.HoldsAt isOn mode f ∧ P) :
    l'.Holds isOn ↔ l.Holds isOn ∧ P := by
  have hframe : ∀ mode' f', (mode' ≠ mode ∨ f' ≠ f) →
      (l'.HoldsAt isOn mode' f' ↔ l.HoldsAt isOn mode' f') := by
    intro mode' f' hne
    rw [HoldsAt, HoldsAt, hother mode' f' hne]
  constructor
  · intro hall
    have hhere := hchanged.1 (hall mode f)
    refine ⟨fun mode' f' => ?_, hhere.2⟩
    by_cases heq : mode' = mode ∧ f' = f
    · obtain ⟨rfl, rfl⟩ := heq
      exact hhere.1
    · exact (hframe mode' f' (by tauto)).1 (hall mode' f')
  · rintro ⟨hall, hP⟩ mode' f'
    by_cases heq : mode' = mode ∧ f' = f
    · obtain ⟨rfl, rfl⟩ := heq
      exact hchanged.2 ⟨hall mode' f', hP⟩
    · exact (hframe mode' f' (by tauto)).2 (hall mode' f')

/-! ## Adding values -/

/-- The lists once values are put behind those that were there, no value in two cases. -/
structure Added (before after : Field → List Text) (vs : List ListedValue) : Prop where
  kept : ∀ f, ∀ t ∈ before f, t ∈ after f
  mem : ∀ f, ∀ t ∈ after f, t ∈ before f ∨ ⟨f, t⟩ ∈ vs
  covered : ∀ v ∈ vs, ∃ t ∈ after v.field, Text.sameAscii t v.literal = true
  other : ∀ f, (∀ v ∈ vs, v.field ≠ f) → after f = before f

theorem added_pushAt (lists : Field → List Text) (v : ListedValue) :
    Added lists (pushAt lists v) [v] := by
  by_cases hthere : ((lists v.field).any fun t => Text.sameAscii t v.literal) = true
  · have hsame : pushAt lists v = lists := by
      funext f
      rw [pushAt]
      split
      next hf => rw [hf, if_pos hthere]
      next => rfl
    rw [hsame]
    refine ⟨fun f t ht => ht, fun f t ht => Or.inl ht, ?_, fun _ _ => rfl⟩
    rw [List.forall_mem_singleton]
    exact List.any_eq_true.1 hthere
  · have hat : pushAt lists v v.field = lists v.field ++ [v.literal] := by
      rw [pushAt, if_pos rfl, if_neg hthere]
    have hother : ∀ f, f ≠ v.field → pushAt lists v f = lists f := fun f hf => by
      rw [pushAt, if_neg hf]
    refine ⟨fun f t ht => ?_, fun f t ht => ?_, ?_, fun f hf => ?_⟩
    · by_cases hf : f = v.field
      · rw [hf, hat]
        exact List.mem_append_left _ (hf ▸ ht)
      · rwa [hother f hf]
    · by_cases hf : f = v.field
      · rw [hf, hat] at ht
        rw [hf]
        exact (List.mem_append.1 ht).imp_right fun ht => by simp [List.mem_singleton.1 ht]
      · rw [hother f hf] at ht
        exact Or.inl ht
    · rw [List.forall_mem_singleton, hat]
      exact ⟨v.literal, by simp, Text.sameAscii_refl _⟩
    · exact hother f (Ne.symm (hf v List.mem_cons_self))

theorem added_foldl_pushAt (lists : Field → List Text) (vs : List ListedValue) :
    Added lists (vs.foldl pushAt lists) vs := by
  induction vs generalizing lists with
  | nil => exact ⟨fun _ _ ht => ht, fun _ _ ht => Or.inl ht, by simp, fun _ _ => rfl⟩
  | cons v rest ih =>
    have hfirst := added_pushAt lists v
    have hrest := ih (pushAt lists v)
    refine ⟨fun f t ht => hrest.kept f t (hfirst.kept f t ht), fun f t ht => ?_, ?_, fun f hf => ?_⟩
    · rcases hrest.mem f t ht with ht | ht
      · exact (hfirst.mem f t ht).imp_right fun ht => by simp [List.mem_singleton.1 ht]
      · exact Or.inr (List.mem_cons_of_mem _ ht)
    · rw [List.forall_mem_cons]
      refine ⟨?_, hrest.covered⟩
      obtain ⟨t, ht, hsame⟩ := hfirst.covered v List.mem_cons_self
      exact ⟨t, hrest.kept _ t ht, hsame⟩
    · obtain ⟨hv, hvs⟩ := List.forall_mem_cons.1 hf
      rw [List.foldl_cons, hrest.other f hvs, hfirst.other f (by simpa using hv)]

variable {before after : Field → List Text}

theorem Added.forall_iff (h : Added before after vs) (hcase : SeesNoCase isOn Known)
    (hbefore : ∀ t ∈ before f, Known ⟨f, t⟩) (hvs : ∀ v ∈ vs, Known v) (b : Bool) :
    (∀ t ∈ after f, isOn ⟨f, t⟩ = b) ↔
      (∀ t ∈ before f, isOn ⟨f, t⟩ = b) ∧ ∀ v ∈ vs, v.field = f → isOn v = b := by
  constructor
  · intro hall
    refine ⟨fun t ht => hall t (h.kept f t ht), fun v hv hf => ?_⟩
    subst hf
    obtain ⟨t, ht, hsame⟩ := h.covered v hv
    have hknown : Known ⟨v.field, t⟩ := (h.mem _ t ht).elim (hbefore t) (hvs _)
    rw [← hcase _ v hknown (hvs v hv) rfl hsame]
    exact hall t ht
  · rintro ⟨hbefore', hnew⟩ t ht
    exact (h.mem f t ht).elim (hbefore' t) fun hmem => hnew _ hmem rfl

theorem Added.exists_iff (h : Added before after vs) (hcase : SeesNoCase isOn Known)
    (hempty : before f = []) (hvs : ∀ v ∈ vs, Known v) :
    (∃ t ∈ after f, isOn ⟨f, t⟩ = true) ↔ ∃ v ∈ vs, v.field = f ∧ isOn v = true := by
  have hmem : ∀ t ∈ after f, ⟨f, t⟩ ∈ vs := by
    intro t ht
    refine (h.mem f t ht).resolve_left ?_
    rw [hempty]
    exact List.not_mem_nil
  constructor
  · rintro ⟨t, ht, hon⟩
    exact ⟨_, hmem t ht, rfl, hon⟩
  · rintro ⟨v, hv, rfl, hon⟩
    obtain ⟨t, ht, hsame⟩ := h.covered v hv
    refine ⟨t, ht, ?_⟩
    rw [hcase _ v (hvs _ (hmem t ht)) (hvs v hv) rfl hsame]
    exact hon

theorem Added.other_of_ne {f' : Field} (h : Added before after vs)
    (hfield : ∀ v ∈ vs, v.field = f) (hne : f' ≠ f) : after f' = before f' :=
  h.other f' fun v hv => by rw [hfield v hv]; exact Ne.symm hne

theorem IsMadeOf.plain (hl : l.IsMadeOf Known) (h : Added l.plain after vs)
    (hvs : ∀ v ∈ vs, Known v) : IsMadeOf Known { l with plain := after } := by
  refine ⟨fun mode f t ht => ?_, hl.choice⟩
  cases mode with
  | plain => exact (h.mem f t ht).elim (hl.known .plain f t) (hvs _)
  | anyOf => exact hl.known .anyOf f t ht
  | excluded => exact hl.known .excluded f t ht

theorem IsMadeOf.anyOf (hl : l.IsMadeOf Known) (h : Added l.anyOf after vs)
    (hvs : ∀ v ∈ vs, Known v) (hchoice : ∀ v ∈ vs, v.field.asksForAll = true) :
    IsMadeOf Known { l with anyOf := after } := by
  refine ⟨fun mode f t ht => ?_, fun f hne => ?_⟩
  · cases mode with
    | plain => exact hl.known .plain f t ht
    | anyOf => exact (h.mem f t ht).elim (hl.known .anyOf f t) (hvs _)
    | excluded => exact hl.known .excluded f t ht
  · obtain ⟨t, ht⟩ := List.exists_mem_of_ne_nil _ hne
    rcases h.mem f t ht with ht | ht
    · exact hl.choice f (List.ne_nil_of_mem ht)
    · exact hchoice _ ht

theorem IsMadeOf.excluded (hl : l.IsMadeOf Known) (h : Added l.excluded after vs)
    (hvs : ∀ v ∈ vs, Known v) : IsMadeOf Known { l with excluded := after } := by
  refine ⟨fun mode f t ht => ?_, hl.choice⟩
  cases mode with
  | plain => exact hl.known .plain f t ht
  | anyOf => exact hl.known .anyOf f t ht
  | excluded => exact (h.mem f t ht).elim (hl.known .excluded f t) (hvs _)

theorem foldl_pushPlain (l : ClauseLists) (vs : List ListedValue) :
    vs.foldl pushPlain l = { l with plain := vs.foldl pushAt l.plain } := by
  induction vs generalizing l with
  | nil => rfl
  | cons v rest ih => exact ih (l.pushPlain v)

theorem foldl_pushAnyOf (l : ClauseLists) (vs : List ListedValue) :
    vs.foldl pushAnyOf l = { l with anyOf := vs.foldl pushAt l.anyOf } := by
  induction vs generalizing l with
  | nil => rfl
  | cons v rest ih => exact ih (l.pushAnyOf v)

theorem foldl_pushExcluded (l : ClauseLists) (vs : List ListedValue) :
    vs.foldl pushExcluded l = { l with excluded := vs.foldl pushAt l.excluded } := by
  induction vs generalizing l with
  | nil => rfl
  | cons v rest ih => exact ih (l.pushExcluded v)

/-! ## Requiring and offering -/

/-- The later lists ask for `P` as well, with new choices at the given fields only. -/
structure AsksAlso (isOn : ListedValue → Bool) (Known : ListedValue → Prop) (fields : List Field)
    (l l' : ClauseLists) (P : Prop) : Prop where
  isMadeOf : l'.IsMadeOf Known
  holds_iff : l'.Holds isOn ↔ l.Holds isOn ∧ P
  other : ∀ f, f ∉ fields → l'.anyOf f = l.anyOf f

theorem AsksAlso.trans {l'' : ClauseLists} {fields : List Field} {P Q : Prop}
    (h : AsksAlso isOn Known fields l l' P) (h' : AsksAlso isOn Known fields l' l'' Q) :
    AsksAlso isOn Known fields l l'' (P ∧ Q) where
  isMadeOf := h'.isMadeOf
  holds_iff := by rw [h'.holds_iff, h.holds_iff, and_assoc]
  other f hf := (h'.other f hf).trans (h.other f hf)

theorem AsksAlso.mono {fields fields' : List Field} {P : Prop}
    (h : AsksAlso isOn Known fields l l' P) (hsub : fields ⊆ fields') :
    AsksAlso isOn Known fields' l l' P :=
  { h with other := fun f hf => h.other f fun hmem => hf (hsub hmem) }

end ClauseLists

open ClauseLists

theorem asksAlso_pushPlain (hl : l.IsMadeOf Known) (hvs : ∀ v ∈ vs, Known v)
    (hfield : ∀ v ∈ vs, v.field = f) {P : Prop}
    (h : HoldsAt isOn (vs.foldl pushPlain l) .plain f ↔ l.HoldsAt isOn .plain f ∧ P) :
    AsksAlso isOn Known [] l (vs.foldl pushPlain l) P := by
  have hadded := added_foldl_pushAt l.plain vs
  rw [foldl_pushPlain] at h ⊢
  refine ⟨hl.plain hadded hvs, holds_iff_of_change (fun mode' f' hne => ?_) h, fun _ _ => rfl⟩
  cases mode' with
  | plain => exact hadded.other_of_ne hfield (hne.resolve_left (absurd rfl))
  | anyOf | excluded => rfl

theorem asksAlso_pushAnyOf (hl : l.IsMadeOf Known) (hvs : ∀ v ∈ vs, Known v)
    (hfield : ∀ v ∈ vs, v.field = f) (hasks : f.asksForAll = true) {P : Prop}
    (h : HoldsAt isOn (vs.foldl pushAnyOf l) .anyOf f ↔ l.HoldsAt isOn .anyOf f ∧ P) :
    AsksAlso isOn Known [f] l (vs.foldl pushAnyOf l) P := by
  have hadded := added_foldl_pushAt l.anyOf vs
  rw [foldl_pushAnyOf] at h ⊢
  refine ⟨hl.anyOf hadded hvs fun v hv => by rwa [hfield v hv],
    holds_iff_of_change (fun mode' f' hne => ?_) h,
    fun f' hf' => hadded.other_of_ne hfield (by simpa using hf')⟩
  cases mode' with
  | anyOf => exact hadded.other_of_ne hfield (hne.resolve_left (absurd rfl))
  | plain | excluded => rfl

/-- A plain clause of one value, or of a field whose values all have to be there. -/
theorem holdsAt_plain_iff
    (h : f.asksForAll = true ∨ ∀ t ∈ l.plain f, ∀ u ∈ l.plain f, t = u) :
    l.HoldsAt isOn .plain f ↔ ∀ t ∈ l.plain f, isOn ⟨f, t⟩ = true := by
  rw [HoldsAt, listAt]
  by_cases hasks : f.asksForAll = true
  · rw [Asks, if_pos hasks]
    exact ⟨fun hall t ht => hall (List.ne_nil_of_mem ht) t ht, fun hall _ => hall⟩
  · rw [Asks, if_neg hasks]
    have hone := h.resolve_left hasks
    constructor
    · intro hsome t ht
      obtain ⟨u, hu, hon⟩ := hsome (List.ne_nil_of_mem ht)
      rwa [hone t ht u hu]
    · intro hall hne
      obtain ⟨t, ht⟩ := List.exists_mem_of_ne_nil _ hne
      exact ⟨t, ht, hall t ht⟩

theorem asksAlso_requireValue (hcase : SeesNoCase isOn Known) (hl : l.IsMadeOf Known)
    (hv : Known v) (h : requireValue l v = .ok l') :
    AsksAlso isOn Known [] l l' (isOn v = true) := by
  have hvs : ∀ w ∈ [v], Known w := by simpa using hv
  have hadded := added_pushAt l.plain v
  have hall := hadded.forall_iff (f := v.field) hcase (hl.known .plain v.field) hvs true
  rw [List.forall_mem_singleton, forall_prop_of_true rfl] at hall
  rw [requireValue] at h
  split at h
  · cases h
  next hshort =>
    obtain rfl := Except.ok.inj h
    have hone : v.field.asksForAll = true ∨
        ∀ t ∈ (l.pushPlain v).plain v.field, ∀ u ∈ (l.pushPlain v).plain v.field, t = u := by
      cases hasks : v.field.asksForAll with
      | true => exact Or.inl rfl
      | false =>
        rw [hasks] at hshort
        simp only [Bool.not_false, Bool.true_and, decide_eq_true_eq, Nat.not_lt] at hshort
        exact Or.inr fun t ht u hu => eq_of_length_le_one hshort ht hu
    have hbefore : v.field.asksForAll = true ∨
        ∀ t ∈ l.plain v.field, ∀ u ∈ l.plain v.field, t = u :=
      hone.imp_right fun hone t ht u hu => hone t (hadded.kept _ t ht) u (hadded.kept _ u hu)
    refine @asksAlso_pushPlain isOn Known l v.field [v] hl hvs (by simp) (isOn v = true) ?_
    rw [holdsAt_plain_iff hbefore]
    exact (holdsAt_plain_iff hone).trans hall

/-- A clause where there was none asks for what its list asks for. -/
theorem holdsAt_iff_of_fresh {P : Prop} (hfresh : l.listAt mode f = [])
    (hne : l'.listAt mode f ≠ [])
    (hasks : (Asks f mode (l'.listAt mode f) fun t => isOn ⟨f, t⟩) ↔ P) :
    l'.HoldsAt isOn mode f ↔ l.HoldsAt isOn mode f ∧ P := by
  have hbefore : l.HoldsAt isOn mode f := fun hsome => absurd hfresh hsome
  rw [HoldsAt, forall_prop_of_true hne, hasks]
  exact (and_iff_right hbefore).symm

/-- A choice between several values of a field that has no other clause yet. -/
theorem asksAlso_offerChoice (hcase : SeesNoCase isOn Known) (hl : l.IsMadeOf Known)
    (hvs : ∀ v ∈ vs, Known v) (hfield : ∀ v ∈ vs, v.field = f) (hseveral : 1 < vs.length)
    (hfresh : l.anyOf f = []) (h : offerChoice l (f, vs) = .ok l') :
    AsksAlso isOn Known [f] l l' (∃ v ∈ vs, isOn v = true) := by
  have hchoice {before after : Field → List Text} (hadded : Added before after vs)
      (hempty : before f = []) :
      after f ≠ [] ∧ ((∃ t ∈ after f, isOn ⟨f, t⟩ = true) ↔ ∃ v ∈ vs, isOn v = true) := by
    constructor
    · obtain ⟨v, hv⟩ := List.exists_mem_of_length_pos (Nat.lt_of_succ_lt hseveral)
      obtain ⟨t, ht, -⟩ := hadded.covered v hv
      exact List.ne_nil_of_mem (hfield v hv ▸ ht)
    · rw [hadded.exists_iff hcase hempty hvs]
      exact exists_congr fun v => and_congr_right fun hv => and_iff_right (hfield v hv)
  rw [offerChoice] at h
  simp only [hseveral, decide_true, Bool.and_true, Bool.true_and] at h
  split at h
  next hasks =>
    obtain rfl := Except.ok.inj h
    obtain ⟨hne, hexists⟩ := hchoice (added_foldl_pushAt l.anyOf vs) hfresh
    refine asksAlso_pushAnyOf hl hvs hfield hasks ?_
    rw [foldl_pushAnyOf]
    exact holdsAt_iff_of_fresh hfresh hne hexists
  next hasks =>
    split at h
    · cases h
    next hempty =>
      obtain rfl := Except.ok.inj h
      have hempty' : l.plain f = [] := by simpa using hempty
      obtain ⟨hne, hexists⟩ := hchoice (added_foldl_pushAt l.plain vs) hempty'
      refine (asksAlso_pushPlain hl hvs hfield ?_).mono (List.nil_subset _)
      rw [foldl_pushPlain]
      refine holdsAt_iff_of_fresh hempty' hne ?_
      rw [Asks, if_neg hasks]
      exact hexists

theorem asksAlso_foldlM_requireValue (hcase : SeesNoCase isOn Known) (hl : l.IsMadeOf Known)
    (hvs : ∀ v ∈ vs, Known v) (h : vs.foldlM requireValue l = .ok l') :
    AsksAlso isOn Known [] l l' (∀ v ∈ vs, isOn v = true) := by
  induction vs generalizing l with
  | nil =>
    obtain rfl := Except.ok.inj h
    exact ⟨hl, by simp, fun _ _ => rfl⟩
  | cons v rest ih =>
    obtain ⟨hv, hrest⟩ := List.forall_mem_cons.1 hvs
    rw [List.foldlM_cons] at h
    obtain ⟨l₁, hfirst, h⟩ := bind_eq_ok.1 h
    have hstep := asksAlso_requireValue hcase hl hv hfirst
    rw [List.forall_mem_cons]
    exact hstep.trans (ih hstep.isMadeOf hrest h)

theorem asksAlso_foldlM_offerChoice {fields : List Field} {column : Field → List ListedValue}
    (hcase : SeesNoCase isOn Known) (hl : l.IsMadeOf Known) (hnodup : fields.Nodup)
    (hcolumn : ∀ f ∈ fields, 1 < (column f).length ∧ ∀ v ∈ column f, v.field = f ∧ Known v)
    (hfresh : ∀ f ∈ fields, l.anyOf f = [])
    (h : (fields.map fun f => (f, column f)).foldlM offerChoice l = .ok l') :
    AsksAlso isOn Known fields l l' (∀ f ∈ fields, ∃ v ∈ column f, isOn v = true) := by
  induction fields generalizing l with
  | nil =>
    obtain rfl := Except.ok.inj h
    exact ⟨hl, by simp, fun _ _ => rfl⟩
  | cons f rest ih =>
    obtain ⟨⟨hseveral, hvs⟩, hrest⟩ := List.forall_mem_cons.1 hcolumn
    obtain ⟨hf, hfreshRest⟩ := List.forall_mem_cons.1 hfresh
    obtain ⟨hmem, hnodup⟩ := List.nodup_cons.1 hnodup
    rw [List.map_cons, List.foldlM_cons] at h
    obtain ⟨l₁, hfirst, h⟩ := bind_eq_ok.1 h
    have hstep := asksAlso_offerChoice hcase hl (fun v hv => (hvs v hv).2)
      (fun v hv => (hvs v hv).1) hseveral hf hfirst
    have hfresh₁ : ∀ f' ∈ rest, l₁.anyOf f' = [] := by
      intro f' hf'
      have hne : f' ∉ [f] := by
        rw [List.mem_singleton]
        rintro rfl
        exact hmem hf'
      rw [hstep.other f' hne, hfreshRest f' hf']
    have hsteps := ih hstep.isMadeOf hnodup hrest hfresh₁ h
    rw [List.forall_mem_cons]
    exact (hstep.mono (by simp)).trans (hsteps.mono (List.subset_cons_self f rest))

/-! ## Taking alternatives apart -/

variable {alternatives : List (List ListedValue)} {alternative shared : List ListedValue}

theorem mem_sharedBy (h : alternatives ≠ []) :
    v ∈ sharedBy alternatives ↔ ∀ alternative ∈ alternatives, v ∈ alternative := by
  obtain ⟨first, rest, rfl⟩ := List.exists_cons_of_ne_nil h
  simp only [sharedBy, List.headD_cons, List.mem_filter, List.all_eq_true, List.contains_iff_mem]
  exact ⟨And.right, fun hall => ⟨hall first List.mem_cons_self, hall⟩⟩

theorem exists_of_mem_sharedBy (h : v ∈ sharedBy alternatives) :
    ∃ alternative ∈ alternatives, v ∈ alternative := by
  cases alternatives with
  | nil => cases h
  | cons first rest => exact ⟨first, List.mem_cons_self, (List.mem_filter.1 h).1⟩

theorem sortByField_eq (vs : List ListedValue) :
    sortByField vs = sortBy (compareOn fun v => v.field.rank) vs := by
  have hinsert : ∀ (v : ListedValue) (sorted : List ListedValue),
      insertByField v sorted = insertBy (compareOn fun v => v.field.rank) v sorted := by
    intro v sorted
    induction sorted with
    | nil => rfl
    | cons w rest ih =>
      rw [insertByField, insertBy, ih]
      by_cases hle : w.field.rank ≤ v.field.rank
      · rw [if_pos hle]
        split
        next hlt => exact absurd (Nat.compare_eq_lt.1 hlt) (Nat.not_lt.2 hle)
        next => rfl
      · have hlt : compareOn (fun v => v.field.rank) v w = .lt :=
          Nat.compare_eq_lt.2 (Nat.lt_of_not_le hle)
        rw [if_neg hle, hlt]
  simp only [sortByField, sortBy, hinsert]

theorem mem_residual : v ∈ residual shared alternative ↔ v ∈ alternative ∧ v ∉ shared := by
  rw [residual, sortByField_eq, (perm_sortBy _ _).mem_iff, mem_distinct, List.mem_filter]
  simp

/-- What the alternatives ask for besides what they share. -/
def residualsOf (alternatives : List (List ListedValue)) : List (List ListedValue) :=
  alternatives.map (residual (sharedBy alternatives))

theorem rank_sorted_residual (shared alternative : List ListedValue) :
    (residual shared alternative).Pairwise fun v w => v.field.rank ≤ w.field.rank := by
  rw [residual, sortByField_eq]
  have hascending (vs : List ListedValue) :
      Ascending (compareOn fun v : ListedValue => v.field.rank)
        (sortBy (compareOn fun v => v.field.rank) vs) := ascending_sortBy vs
  exact (hascending _).imp fun hle => Nat.isLE_compare.1 hle

theorem Field.rank_injective {f g : Field} (h : f.rank = g.rank) : f = g := by
  have hall : ∀ f ∈ Field.all, ∀ g ∈ Field.all, f.rank = g.rank → f = g := by decide
  exact hall f (mem_all f) g (mem_all g) h

/-- Fields in order of which no two neighbours are the same are all different. -/
theorem nodup_of_hasRepeatedField {fields : List Field}
    (hsorted : fields.Pairwise fun f g => f.rank ≤ g.rank)
    (h : hasRepeatedField fields = false) : fields.Nodup := by
  induction fields with
  | nil => exact List.nodup_nil
  | cons f rest ih =>
    cases rest with
    | nil => simp
    | cons g rest =>
      obtain ⟨hf, hsorted⟩ := List.pairwise_cons.1 hsorted
      obtain ⟨hne, hrest⟩ := Bool.or_eq_false_iff.1 h
      refine List.nodup_cons.2 ⟨fun hmem => ?_, ih hsorted hrest⟩
      -- The rank goes up from `f` to `g`, so it cannot come down to `f` again.
      have hlt : f.rank < g.rank := by
        have hle := hf g List.mem_cons_self
        have hrank : f.rank ≠ g.rank := fun heq => by simp [Field.rank_injective heq] at hne
        omega
      rcases List.mem_cons.1 hmem with rfl | hmem
      · exact Nat.lt_irrefl _ hlt
      · have hle := (List.pairwise_cons.1 hsorted).1 f hmem
        omega

/-! ## Choices -/

theorem length_sections (ls : List (List α)) : ls.sections.length = (ls.map List.length).prod := by
  induction ls with
  | nil => rfl
  | cons l rest ih =>
    simp only [List.sections, List.length_flatMap, List.length_map, List.map_const',
      List.sum_replicate_nat, ih, List.map_cons, List.prod_cons, Nat.mul_comm]

/-- Some choice of one value from each column holds when each column has a value that does. -/
theorem exists_mem_sections {ls : List (List α)} {P : α → Prop} :
    (∃ choice ∈ ls.sections, ∀ a ∈ choice, P a) ↔ ∀ l ∈ ls, ∃ a ∈ l, P a := by
  induction ls with
  | nil => simp [List.sections]
  | cons l rest ih =>
    rw [List.forall_mem_cons, ← ih]
    simp only [List.mem_sections]
    constructor
    · rintro ⟨choice, hchoice, hall⟩
      obtain ⟨a, tail, ha, htail, rfl⟩ := List.forall₂_cons_right_iff.1 hchoice
      obtain ⟨hPa, hPtail⟩ := List.forall_mem_cons.1 hall
      exact ⟨⟨a, ha, hPa⟩, tail, htail, hPtail⟩
    · rintro ⟨⟨a, ha, hPa⟩, tail, htail, hPtail⟩
      exact ⟨a :: tail, .cons ha htail, List.forall_mem_cons.2 ⟨hPa, hPtail⟩⟩

/-- As many different lists as there are choices are all choices. -/
theorem sections_subset {ls choices : List (List ListedValue)}
    (hsub : choices ⊆ ls.sections) (hcount : ls.sections.length = (distinct choices).length) :
    ls.sections ⊆ choices := by
  have hsub' : distinct choices ⊆ ls.sections := fun choice hchoice =>
    hsub (mem_distinct.1 hchoice)
  have hperm := (List.subperm_of_subset (nodup_distinct choices) hsub').perm_of_length_le
    (Nat.le_of_eq hcount)
  exact fun choice hchoice => mem_distinct.1 (hperm.mem_iff.2 hchoice)

variable {residuals : List (List ListedValue)} {fields : List Field}

/-- The column of a field. -/
def columnAt (residuals : List (List ListedValue)) (f : Field) : List ListedValue :=
  distinct (residuals.flatten.filter fun v => v.field == f)

theorem zip_columns (fields : List Field) (residuals : List (List ListedValue)) :
    fields.zip (columns fields residuals) = fields.map fun f => (f, columnAt residuals f) := by
  have hzip := List.zip_map' (f := id) (g := columnAt residuals) (l := fields)
  rwa [List.map_id] at hzip

theorem mem_columnAt : v ∈ columnAt residuals f ↔ (∃ r ∈ residuals, v ∈ r) ∧ v.field = f := by
  rw [columnAt, mem_distinct, List.mem_filter, List.mem_flatten]
  simp

/-- Residuals with a value for each of the fields are choices from the columns. -/
theorem residuals_subset (hshape : ∀ r ∈ residuals, r.map (·.field) = fields) :
    residuals ⊆ (columns fields residuals).sections := by
  intro r hr
  rw [List.mem_sections, columns, ← hshape r hr, List.forall₂_map_right_iff,
    List.forall₂_map_right_iff, List.forall₂_same]
  exact fun v hv => mem_columnAt.2 ⟨⟨r, hr, hv⟩, rfl⟩

/-- Where there are as many different residuals as choices, every choice is one of them. -/
theorem exists_residual_iff (hshape : ∀ r ∈ residuals, r.map (·.field) = fields)
    (hcount : ((columns fields residuals).map List.length).prod = (distinct residuals).length)
    {P : ListedValue → Prop} :
    (∃ r ∈ residuals, ∀ v ∈ r, P v) ↔ ∀ f ∈ fields, ∃ v ∈ columnAt residuals f, P v := by
  have hsub := residuals_subset hshape
  have hlength : (columns fields residuals).sections.length = (distinct residuals).length := by
    rw [length_sections, hcount]
  have hall := sections_subset hsub hlength
  have hmem : ∀ r, r ∈ residuals ↔ r ∈ (columns fields residuals).sections :=
    fun r => ⟨fun hr => hsub hr, fun hr => hall hr⟩
  simp only [hmem, exists_mem_sections, columns, List.forall_mem_map]
  rfl

theorem mem_columnAt_residualsOf : v ∈ columnAt (residualsOf alternatives) f ↔
    (∃ alternative ∈ alternatives, v ∈ alternative) ∧ v ∉ sharedBy alternatives ∧
      v.field = f := by
  rw [mem_columnAt]
  constructor
  · rintro ⟨⟨r, hr, hvr⟩, hfield⟩
    obtain ⟨alternative, halt, rfl⟩ := List.mem_map.1 hr
    obtain ⟨hmem, hnot⟩ := mem_residual.1 hvr
    exact ⟨⟨alternative, halt, hmem⟩, hnot, hfield⟩
  · rintro ⟨⟨alternative, halt, hmem⟩, hnot, hfield⟩
    exact ⟨⟨_, List.mem_map_of_mem halt, mem_residual.2 ⟨hmem, hnot⟩⟩, hfield⟩

/-- A column of one value would be a value that all alternatives share. -/
theorem one_lt_length_columnAt (hshape : ∀ r ∈ residualsOf alternatives, r.map (·.field) = fields)
    (hne : alternatives ≠ []) (hf : f ∈ fields) :
    1 < (columnAt (residualsOf alternatives) f).length := by
  by_contra hshort
  have hvalue : ∀ alternative ∈ alternatives,
      ∃ v ∈ residual (sharedBy alternatives) alternative,
        v ∈ columnAt (residualsOf alternatives) f := by
    intro alternative halt
    have hr : residual (sharedBy alternatives) alternative ∈ residualsOf alternatives :=
      List.mem_map_of_mem halt
    rw [← hshape _ hr] at hf
    obtain ⟨v, hv, hfield⟩ := List.mem_map.1 hf
    exact ⟨v, hv, mem_columnAt.2 ⟨⟨_, hr, hv⟩, hfield⟩⟩
  obtain ⟨first, hfirst⟩ := List.exists_mem_of_ne_nil _ hne
  obtain ⟨v, hv, hcolumn⟩ := hvalue first hfirst
  have hall : ∀ alternative ∈ alternatives, v ∈ alternative := by
    intro alternative halt
    obtain ⟨u, hu, hcolumn'⟩ := hvalue alternative halt
    rw [eq_of_length_le_one (Nat.not_lt.1 hshort) hcolumn hcolumn']
    exact (mem_residual.1 hu).1
  exact (mem_residual.1 hv).2 ((mem_sharedBy hne).2 hall)

/-- An alternative asks for the shared values and for its residual. -/
theorem exists_alternative_iff (hne : alternatives ≠ []) {P : ListedValue → Prop} :
    (∃ alternative ∈ alternatives, ∀ v ∈ alternative, P v) ↔
      (∀ v ∈ sharedBy alternatives, P v) ∧
        ∃ r ∈ residualsOf alternatives, ∀ v ∈ r, P v := by
  constructor
  · rintro ⟨alternative, halt, hall⟩
    refine ⟨fun v hv => hall v ((mem_sharedBy hne).1 hv alternative halt),
      _, List.mem_map_of_mem halt, fun v hv => hall v (mem_residual.1 hv).1⟩
  · rintro ⟨hshared, r, hr, hall⟩
    obtain ⟨alternative, halt, rfl⟩ := List.mem_map.1 hr
    refine ⟨alternative, halt, fun v hv => ?_⟩
    by_cases hmem : v ∈ sharedBy alternatives
    · exact hshared v hmem
    · exact hall v (mem_residual.2 ⟨hv, hmem⟩)

/-! ## Factoring -/

/-- The fields that the residuals take one value of each. -/
structure HaveShape (residuals : List (List ListedValue)) (fields : List Field) : Prop where
  shape : ∀ r ∈ residuals, r.map (·.field) = fields
  nodup : fields.Nodup

/-- Residuals of one shape of which there are as many as choices, so that no choice is missing. -/
structure AreAllChoices (residuals : List (List ListedValue)) (fields : List Field) : Prop
    extends HaveShape residuals fields where
  count : ((columns fields residuals).map List.length).prod = (distinct residuals).length

/-- The columns of what the alternatives do not share, by the fields of the first. -/
def residualColumns (alternatives : List (List ListedValue)) : List (List ListedValue) :=
  columns (((residualsOf alternatives).headD []).map (·.field)) (residualsOf alternatives)

/-- Choices are missing, but in 64 bits there are as many as alternatives. -/
def IsMiscounted (alternatives : List (List ListedValue)) : Prop :=
  countChoices (residualColumns alternatives) =
      (distinct (residualsOf alternatives)).length.toUInt64 ∧
    ((residualColumns alternatives).map List.length).prod ≠
      (distinct (residualsOf alternatives)).length

instance (alternatives : List (List ListedValue)) : Decidable (IsMiscounted alternatives) :=
  inferInstanceAs (Decidable (_ ∧ _))

theorem countChoices_eq (columns : List (List ListedValue)) :
    countChoices columns = (columns.map List.length).prod.toUInt64 := by
  have hfold (n : Nat) :
      columns.foldl (fun n column => n * column.length.toUInt64) n.toUInt64 =
        (n * (columns.map List.length).prod).toUInt64 := by
    induction columns generalizing n with
    | nil => simp
    | cons column rest ih =>
      have hstep : n.toUInt64 * column.length.toUInt64 = (n * column.length).toUInt64 :=
        (UInt64.ofNat_mul n column.length).symm
      rw [List.foldl_cons, hstep, ih, List.map_cons, List.prod_cons, Nat.mul_assoc]
  have hall := hfold 1
  rwa [Nat.one_mul] at hall

theorem AreAllChoices.countChoices_eq (h : AreAllChoices residuals fields) :
    countChoices (columns fields residuals) = (distinct residuals).length.toUInt64 := by
  rw [SkyPatcher.countChoices_eq, h.count]

theorem HaveShape.residualColumns_eq (h : HaveShape (residualsOf alternatives) fields)
    (hne : alternatives ≠ []) :
    residualColumns alternatives = columns fields (residualsOf alternatives) := by
  have hfirst : (residualsOf alternatives).headD [] ∈ residualsOf alternatives := by
    obtain ⟨first, rest, rfl⟩ := List.exists_cons_of_ne_nil hne
    exact List.mem_cons_self
  rw [residualColumns, h.shape _ hfirst]

/-- What agrees in 64 bits agrees, unless the alternatives are miscounted. -/
theorem HaveShape.areAllChoices (h : HaveShape (residualsOf alternatives) fields)
    (hne : alternatives ≠ [])
    (hcount : countChoices (columns fields (residualsOf alternatives)) =
      (distinct (residualsOf alternatives)).length.toUInt64)
    (hcounted : ¬ IsMiscounted alternatives) :
    AreAllChoices (residualsOf alternatives) fields := by
  refine ⟨h, ?_⟩
  rw [IsMiscounted, h.residualColumns_eq hne] at hcounted
  by_contra hmissing
  exact hcounted ⟨hcount, hmissing⟩

/-- Alternatives with nothing but what they share leave one choice, of nothing. -/
theorem areAllChoices_of_forall_eq_nil (hne : residuals ≠ []) (h : ∀ r ∈ residuals, r = []) :
    AreAllChoices residuals [] := by
  refine ⟨⟨fun r hr => by rw [h r hr]; rfl, List.nodup_nil⟩, ?_⟩
  have hsub : distinct residuals ⊆ [[]] := fun r hr =>
    List.mem_singleton.2 (h r (mem_distinct.1 hr))
  have hle := (List.subperm_of_subset (nodup_distinct residuals) hsub).length_le
  obtain ⟨r, hr⟩ := List.exists_mem_of_ne_nil _ hne
  have hpos : 0 < (distinct residuals).length := List.length_pos_of_mem (mem_distinct.2 hr)
  exact Nat.le_antisymm hpos hle

/-- Residuals of one field are the values of its column, one by one. -/
theorem HaveShape.areAllChoices_of_field (h : HaveShape residuals [f]) :
    AreAllChoices residuals [f] := by
  have hlength : ∀ r ∈ residuals, r.length = 1 := fun r hr => by
    simpa using congrArg List.length (h.shape r hr)
  have hmem : ∀ r, r ∈ (columnAt residuals f).map (fun v => [v]) ↔ r ∈ distinct residuals := by
    intro r
    rw [mem_distinct, List.mem_map]
    constructor
    · rintro ⟨v, hv, rfl⟩
      obtain ⟨⟨r, hr, hvr⟩, -⟩ := mem_columnAt.1 hv
      obtain ⟨w, rfl⟩ := List.length_eq_one_iff.1 (hlength r hr)
      rwa [List.mem_singleton.1 hvr]
    · intro hr
      obtain ⟨v, rfl⟩ := List.length_eq_one_iff.1 (hlength r hr)
      exact ⟨v, mem_columnAt.2 ⟨⟨_, hr, List.mem_cons_self⟩, by simpa using h.shape _ hr⟩, rfl⟩
  have hnodup : ((columnAt residuals f).map fun v => [v]).Nodup :=
    List.Nodup.map (fun _ _ heq => List.singleton_inj.1 heq) (nodup_distinct _)
  have hperm := (List.perm_ext_iff_of_nodup hnodup (nodup_distinct residuals)).2 hmem
  refine ⟨h, ?_⟩
  rw [← hperm.length_eq, List.length_map]
  exact List.prod_singleton

theorem AreAllChoices.not_isMiscounted (h : AreAllChoices (residualsOf alternatives) fields)
    (hne : alternatives ≠ []) : ¬ IsMiscounted alternatives := by
  rw [IsMiscounted, h.residualColumns_eq hne]
  exact fun hmiscounted => hmiscounted.2 h.count

/-- What has been found when alternatives can be written as clauses. -/
theorem factor_eq_ok (hne : alternatives ≠ []) (h : factor l alternatives = .ok l') :
    ∃ l₁ fields, (sharedBy alternatives).foldlM requireValue l = .ok l₁ ∧
      HaveShape (residualsOf alternatives) fields ∧
      countChoices (columns fields (residualsOf alternatives)) =
        (distinct (residualsOf alternatives)).length.toUInt64 ∧
      (fields.map fun f => (f, columnAt (residualsOf alternatives) f)).foldlM offerChoice l₁ =
        .ok l' := by
  unfold factor at h
  dsimp only at h
  obtain ⟨l₁, hrequire, h⟩ := bind_eq_ok.1 h
  rw [← residualsOf] at h
  split at h
  next hempty =>
    have hsome : residualsOf alternatives ≠ [] := fun hnone => hne (List.map_eq_nil_iff.1 hnone)
    have hchoices := areAllChoices_of_forall_eq_nil hsome fun r hr =>
      List.isEmpty_iff.1 (List.all_eq_true.1 hempty r hr)
    exact ⟨l₁, [], hrequire, hchoices.toHaveShape, hchoices.countChoices_eq, h⟩
  next =>
    split at h
    · cases h
    next hrepeated =>
    split at h
    · cases h
    next hshapes =>
    split at h
    · cases h
    next hproduct =>
    obtain ⟨first, rest, rfl⟩ := List.exists_cons_of_ne_nil hne
    refine ⟨l₁, _, hrequire, ⟨fun r hr => ?_,
      nodup_of_hasRepeatedField ?_ (by simpa using hrepeated)⟩, by simpa using hproduct, ?_⟩
    · by_contra hr'
      exact hshapes (List.any_eq_true.2 ⟨r, hr, by simpa using hr'⟩)
    · rw [List.pairwise_map]
      exact rank_sorted_residual _ _
    · rwa [zip_columns] at h

/-- What the clauses found for alternatives ask for: the values that all share, and one of each
column. -/
def ClausesHold (isOn : ListedValue → Bool) (alternatives : List (List ListedValue)) : Prop :=
  alternatives = [] ∨ (∀ v ∈ sharedBy alternatives, isOn v = true) ∧
    ∀ column ∈ residualColumns alternatives, ∃ v ∈ column, isOn v = true

theorem asksAlso_factor (hcase : SeesNoCase isOn Known) (hl : l.IsMadeOf Known)
    (hknown : ∀ alternative ∈ alternatives, ∀ v ∈ alternative, Known v)
    (hfresh : ∀ alternative ∈ alternatives, ∀ v ∈ alternative, l.anyOf v.field = [])
    (h : factor l alternatives = .ok l') :
    AsksAlso isOn Known (alternatives.flatten.map (·.field)) l l'
      (ClausesHold isOn alternatives) := by
  by_cases hne : alternatives = []
  · subst hne
    obtain rfl := Except.ok.inj h
    exact ⟨hl, by simp [ClausesHold], fun _ _ => rfl⟩
  obtain ⟨first, hfirst⟩ := List.exists_mem_of_ne_nil _ hne
  have hshared : ∀ v ∈ sharedBy alternatives, Known v := by
    intro v hv
    obtain ⟨alternative, halt, hmem⟩ := exists_of_mem_sharedBy hv
    exact hknown alternative halt v hmem
  obtain ⟨l₁, fields, hrequire, hshape, -, hoffer⟩ := factor_eq_ok hne h
  have hrequired := asksAlso_foldlM_requireValue hcase hl hshared hrequire
  have hfields : fields ⊆ alternatives.flatten.map (·.field) := by
    intro f hf
    rw [← hshape.shape _ (List.mem_map_of_mem hfirst)] at hf
    obtain ⟨v, hv, rfl⟩ := List.mem_map.1 hf
    exact List.mem_map_of_mem (List.mem_flatten.2 ⟨first, hfirst, (mem_residual.1 hv).1⟩)
  have hcolumn : ∀ f ∈ fields, 1 < (columnAt (residualsOf alternatives) f).length ∧
      ∀ v ∈ columnAt (residualsOf alternatives) f, v.field = f ∧ Known v := by
    refine fun f hf => ⟨one_lt_length_columnAt hshape.shape hne hf, fun v hv => ?_⟩
    obtain ⟨⟨alternative, halt, hmem⟩, -, hfield⟩ := mem_columnAt_residualsOf.1 hv
    exact ⟨hfield, hknown alternative halt v hmem⟩
  have hfreshAt : ∀ f ∈ fields, l₁.anyOf f = [] := by
    intro f hf
    obtain ⟨v, hv, rfl⟩ := List.mem_map.1 (hfields hf)
    obtain ⟨alternative, halt, hmem⟩ := List.mem_flatten.1 hv
    rw [hrequired.other _ List.not_mem_nil]
    exact hfresh alternative halt v hmem
  have hoffered := asksAlso_foldlM_offerChoice hcase hrequired.isMadeOf hshape.nodup hcolumn
    hfreshAt hoffer
  simp only [ClausesHold, hne, false_or]
  rw [hshape.residualColumns_eq hne, columns, List.forall_mem_map]
  exact (hrequired.mono (List.nil_subset _)).trans (hoffered.mono hfields)

/-- Unless they are miscounted, the clauses found for alternatives ask for one of them. -/
theorem clausesHold_iff (h : factor l alternatives = .ok l')
    (hcounted : ¬ IsMiscounted alternatives) : ClausesHold isOn alternatives ↔
      alternatives = [] ∨ ∃ alternative ∈ alternatives, ∀ v ∈ alternative, isOn v = true := by
  by_cases hne : alternatives = []
  · simp [ClausesHold, hne]
  obtain ⟨l₁, fields, -, hshape, hcount, -⟩ := factor_eq_ok hne h
  have hchoices := hshape.areAllChoices hne hcount hcounted
  simp only [ClausesHold, hne, false_or, exists_alternative_iff hne]
  refine and_congr_right fun _ => ?_
  rw [exists_residual_iff hshape.shape hchoices.count, hshape.residualColumns_eq hne, columns,
    List.forall_mem_map]
  rfl

/-- Alternatives of one field are not miscounted. -/
theorem not_isMiscounted_of_field (h : factor l alternatives = .ok l')
    (hfield : ∀ alternative ∈ alternatives, ∀ v ∈ alternative, v.field = f) :
    ¬ IsMiscounted alternatives := by
  by_cases hne : alternatives = []
  · subst hne
    exact fun hmiscounted => absurd hmiscounted.1 (by decide)
  obtain ⟨l₁, fields, -, hshape, -, -⟩ := factor_eq_ok hne h
  obtain ⟨first, hfirst⟩ := List.exists_mem_of_ne_nil _ hne
  have hfirst' : residual (sharedBy alternatives) first ∈ residualsOf alternatives :=
    List.mem_map_of_mem hfirst
  have hall : ∀ g ∈ fields, g = f := by
    intro g hg
    rw [← hshape.shape _ hfirst'] at hg
    obtain ⟨v, hv, rfl⟩ := List.mem_map.1 hg
    exact hfield first hfirst v (mem_residual.1 hv).1
  match fields, hall, hshape with
  | [], _, hshape =>
    have hempty := areAllChoices_of_forall_eq_nil (List.ne_nil_of_mem hfirst')
      fun r hr => List.map_eq_nil_iff.1 (hshape.shape r hr)
    exact hempty.not_isMiscounted hne
  | [g], _, hshape => exact hshape.areAllChoices_of_field.not_isMiscounted hne
  | g :: g' :: rest, hall, hshape =>
    obtain ⟨hg, hg', -⟩ : g = f ∧ g' = f ∧ _ := by simpa using hall
    have hnodup := hshape.nodup
    rw [hg, hg'] at hnodup
    exact absurd List.mem_cons_self (List.nodup_cons.1 hnodup).1

/-! ## The clauses of a rule -/

theorem asksAlso_pushExcluded (hcase : SeesNoCase isOn Known) (hvs : ∀ v ∈ vs, Known v) :
    AsksAlso isOn Known [] .empty (vs.foldl pushExcluded .empty) (∀ v ∈ vs, isOn v = false) := by
  have hadded := added_foldl_pushAt ClauseLists.empty.excluded vs
  have hnone : ∀ f, (∀ t ∈ vs.foldl pushAt ClauseLists.empty.excluded f, isOn ⟨f, t⟩ = false) ↔
      ∀ v ∈ vs, v.field = f → isOn v = false := by
    intro f
    rw [hadded.forall_iff hcase (fun t ht => absurd ht List.not_mem_nil) hvs]
    exact and_iff_right fun t ht => absurd ht List.not_mem_nil
  rw [foldl_pushExcluded]
  refine ⟨isMadeOf_empty.excluded hadded hvs, ?_, fun _ _ => rfl⟩
  simp only [holds_empty, true_and]
  constructor
  · intro hall v hv
    obtain ⟨t, ht, -⟩ := hadded.covered v hv
    exact (hnone v.field).1 (hall .excluded v.field (List.ne_nil_of_mem ht)) v hv rfl
  · intro hall mode f hne
    cases mode with
    | excluded => exact (hnone f).2 fun v hv _ => hall v hv
    | plain | anyOf => exact absurd rfl hne

section Values

variable {toValue : Criterion.Part α → Except Unrepresentable ListedValue} {s : Criterion α}
  {excluded : List ListedValue} {present : Criterion.Part α → Bool}

/-- The values of a criterion, alternative by alternative. -/
theorem values_of_alternatives (h : SkyPatcher.alternatives toValue s = .ok alternatives) :
    ∃ values, List.Forall₂ (fun e vs => List.Forall₂ (fun p v => toValue p = .ok v)
        (Criterion.inclusions e) vs) s.expressions values ∧
      alternatives = values.filter fun vs => !vs.isEmpty := by
  obtain ⟨values, hvalues, h⟩ := bind_eq_ok.1 h
  refine ⟨values, ?_, (Except.ok.inj h).symm⟩
  exact (forall₂_of_mapM_eq_ok hvalues).imp fun _ _ h => forall₂_of_mapM_eq_ok h

theorem source_of_excluded (h : s.excluded.mapM toValue = .ok excluded) :
    ∀ v ∈ excluded, ∃ p ∈ s.parts, toValue p = .ok v := by
  intro v hv
  obtain ⟨p, hp, hvalue⟩ := mem_of_mapM_eq_ok h v hv
  exact ⟨p, (List.mem_filter.1 hp).1, hvalue⟩

theorem source_of_alternatives (h : SkyPatcher.alternatives toValue s = .ok alternatives) :
    ∀ alternative ∈ alternatives, ∀ v ∈ alternative, ∃ p ∈ s.parts, toValue p = .ok v := by
  intro alternative halt v hv
  obtain ⟨values, hvalues, rfl⟩ := values_of_alternatives h
  obtain ⟨e, he, hparts⟩ := exists_of_mem_right hvalues (List.mem_filter.1 halt).1
  obtain ⟨p, hp, hvalue⟩ := exists_of_mem_right hparts hv
  exact ⟨p, List.mem_flatten.2 ⟨e, he, (List.mem_filter.1 hp).1⟩, hvalue⟩

/-- A criterion in terms of the values that it lists. -/
theorem holds_iff_of_values
    (hvalue : ∀ p ∈ s.parts, ∀ v, toValue p = .ok v → isOn v = present p)
    (hexcluded : s.excluded.mapM toValue = .ok excluded)
    (halternatives : SkyPatcher.alternatives toValue s = .ok alternatives) :
    s.holds present = true ↔ (∀ v ∈ excluded, isOn v = false) ∧
      (alternatives = [] ∨
        ∃ alternative ∈ alternatives, ∀ v ∈ alternative, isOn v = true) := by
  obtain ⟨values, hvalues, rfl⟩ := values_of_alternatives halternatives
  have hin : ∀ e ∈ s.expressions, ∀ p ∈ Criterion.inclusions e, p ∈ s.parts :=
    fun e he p hp => List.mem_flatten.2 ⟨e, he, (List.mem_filter.1 hp).1⟩
  have hempty : ∀ e ∈ s.expressions, ∀ vs, List.Forall₂ (fun p v => toValue p = .ok v)
      (Criterion.inclusions e) vs → (Criterion.inclusions e = [] ↔ vs = []) := by
    intro e _ vs hparts
    rw [← List.length_eq_zero_iff, ← List.length_eq_zero_iff, hparts.length_eq]
  have hpresent : ∀ e ∈ s.expressions, ∀ vs, List.Forall₂ (fun p v => toValue p = .ok v)
      (Criterion.inclusions e) vs →
      ((Criterion.inclusions e ≠ [] ∧ ∀ p ∈ Criterion.inclusions e, present p = true) ↔
        (vs ≠ [] ∧ ∀ v ∈ vs, isOn v = true)) := by
    intro e he vs hparts
    refine and_congr (not_congr (hempty e he vs hparts)) ?_
    exact forall_mem_congr hparts fun p hp v hv => by rw [hvalue p (hin e he p hp) v hv]
  have hnone := forall_mem_congr hvalues hempty
  have hsome := exists_mem_congr hvalues hpresent
  rw [Criterion.holds_iff, hnone, hsome]
  refine and_congr ?_ (or_congr ?_ ?_)
  · refine forall_mem_congr (forall₂_of_mapM_eq_ok hexcluded) fun p hp v hv => ?_
    rw [hvalue p (List.mem_filter.1 hp).1 v hv]
  · simp [List.filter_eq_nil_iff]
  · simp [List.mem_filter, and_assoc]

end Values

theorem field_of_stringValue {p : Criterion.Part Text} (h : stringValue p = .ok v) :
    v.field = .editorId := by
  rw [stringValue] at h
  split at h
  · rw [← Except.ok.inj h]
  · cases h

theorem field_of_formValue {p : Criterion.Part Reference} (h : formValue p = .ok v) :
    v.field ≠ .editorId := by
  rw [← Except.ok.inj h]
  cases p.value <;> simp [Field.ofReference]

/-- The included forms of a criterion as values, alternative by alternative. -/
def formAlternatives (s : Criterion Reference) : List (List ListedValue) :=
  (s.expressions.map fun e => (Criterion.inclusions e).map fun p =>
    ⟨.ofReference p.value, p.value.skyPatcherText⟩).filter fun alternative => !alternative.isEmpty

theorem alternatives_formValue (s : Criterion Reference) :
    SkyPatcher.alternatives formValue s = .ok (formAlternatives s) := by
  have hparts (parts : List (Criterion.Part Reference)) : parts.mapM formValue =
      .ok (parts.map fun p => ⟨.ofReference p.value, p.value.skyPatcherText⟩) := List.mapM_pure
  rw [SkyPatcher.alternatives, funext fun e => hparts (Criterion.inclusions e)]
  exact congrArg (· >>= _) List.mapM_pure

theorem field_of_mem_formAlternatives {s : Criterion Reference} :
    ∀ alternative ∈ formAlternatives s, ∀ v ∈ alternative, v.field ≠ .editorId := by
  intro alternative halt v hv
  obtain ⟨p, -, hvalue⟩ := source_of_alternatives (alternatives_formValue s) alternative halt v hv
  exact field_of_formValue hvalue

theorem field_of_mem_alternatives {s : Criterion Text}
    (h : SkyPatcher.alternatives stringValue s = .ok alternatives) :
    ∀ alternative ∈ alternatives, ∀ v ∈ alternative, v.field = .editorId := by
  intro alternative halt v hv
  obtain ⟨p, -, hvalue⟩ := source_of_alternatives h alternative halt v hv
  exact field_of_stringValue hvalue

/-- What has been found when filters can be written as clauses. -/
theorem clauseLists_eq_ok {filters : Filters} (h : clauseLists filters = .ok l) :
    ∃ excludedStrings strings excludedForms l₁,
      filters.strings.excluded.mapM stringValue = .ok excludedStrings ∧
      SkyPatcher.alternatives stringValue filters.strings = .ok strings ∧
      filters.forms.excluded.mapM formValue = .ok excludedForms ∧
      factor ((excludedStrings ++ excludedForms).foldl pushExcluded .empty) strings = .ok l₁ ∧
      factor l₁ (formAlternatives filters.forms) = .ok l := by
  obtain ⟨excludedStrings, hxs, h⟩ := bind_eq_ok.1 h
  obtain ⟨strings, hs, h⟩ := bind_eq_ok.1 h
  obtain ⟨excludedForms, hxf, h⟩ := bind_eq_ok.1 h
  obtain ⟨forms, hf, h⟩ := bind_eq_ok.1 h
  obtain ⟨l₁, hfirst, hsecond⟩ := bind_eq_ok.1 h
  obtain rfl := Except.ok.inj ((alternatives_formValue _).symm.trans hf)
  exact ⟨excludedStrings, strings, excludedForms, l₁, hxs, hs, hxf, hfirst, hsecond⟩

/-- The clauses found for filters ask for their strings and forms, unless the alternatives of the
forms are miscounted. -/
theorem holds_clauseLists {filters : Filters} {presentString : Criterion.Part Text → Bool}
    {presentForm : Criterion.Part Reference → Bool} (hcase : SeesNoCase isOn Known)
    (hstrings : ∀ p ∈ filters.strings.parts, ∀ v, stringValue p = .ok v →
      Known v ∧ isOn v = presentString p)
    (hforms : ∀ p ∈ filters.forms.parts, ∀ v, formValue p = .ok v →
      Known v ∧ isOn v = presentForm p)
    (h : clauseLists filters = .ok l) :
    l.IsMadeOf Known ∧ (¬ IsMiscounted (formAlternatives filters.forms) → (l.Holds isOn ↔
      filters.strings.holds presentString = true ∧
        filters.forms.holds presentForm = true)) := by
  obtain ⟨excludedStrings, strings, excludedForms, l₁, hxs, hs, hxf, hfirst, hsecond⟩ :=
    clauseLists_eq_ok h
  have hf := alternatives_formValue filters.forms
  have hexcludedKnown : ∀ v ∈ excludedStrings ++ excludedForms, Known v := by
    intro v hv
    rcases List.mem_append.1 hv with hv | hv
    · obtain ⟨p, hp, hvalue⟩ := source_of_excluded hxs v hv
      exact (hstrings p hp v hvalue).1
    · obtain ⟨p, hp, hvalue⟩ := source_of_excluded hxf v hv
      exact (hforms p hp v hvalue).1
  have hstringField := field_of_mem_alternatives hs
  have hexcluded := asksAlso_pushExcluded hcase hexcludedKnown
  have hstep := asksAlso_factor hcase hexcluded.isMadeOf
    (fun alternative halt v hv =>
      have ⟨p, hp, hvalue⟩ := source_of_alternatives hs alternative halt v hv
      (hstrings p hp v hvalue).1)
    (fun _ _ _ _ => hexcluded.other _ List.not_mem_nil) hfirst
  have hstep' := asksAlso_factor hcase hstep.isMadeOf
    (fun alternative halt v hv =>
      have ⟨p, hp, hvalue⟩ := source_of_alternatives hf alternative halt v hv
      (hforms p hp v hvalue).1)
    (fun alternative halt v hv => by
      have hother : v.field ∉ strings.flatten.map (·.field) := by
        intro hmem
        obtain ⟨w, hw, heq⟩ := List.mem_map.1 hmem
        obtain ⟨alternative', halt', hw⟩ := List.mem_flatten.1 hw
        exact field_of_mem_formAlternatives alternative halt v hv
          (heq.symm.trans (hstringField alternative' halt' w hw))
      rw [hstep.other _ hother]
      exact hexcluded.other _ List.not_mem_nil) hsecond
  refine ⟨hstep'.isMadeOf, fun hcounted => ?_⟩
  rw [hstep'.holds_iff, hstep.holds_iff, hexcluded.holds_iff, List.forall_mem_append,
    holds_iff_of_values (fun p hp v hv => (hstrings p hp v hv).2) hxs hs,
    holds_iff_of_values (fun p hp v hv => (hforms p hp v hv).2) hxf hf,
    clausesHold_iff hfirst (not_isMiscounted_of_field hfirst hstringField),
    clausesHold_iff hsecond hcounted]
  simp only [holds_empty, true_and]
  tauto

end SkyPatcher
end Wardrobe
