import Wardrobe.Proofs.Form.Catalog
import Wardrobe.Proofs.Rule.Line
/-
Which record a text names, and when the text written for a reference names that reference.

A text is taken for a plugin before it is taken for the key of a record, and for a key before it is
taken for an editor id.  An editor id can be that of many records.  Then the kinds are tried in
order, and within a kind the record goes first whose key was listed first.  The text that is written
for a reference prefers the editor id, so whether the reference comes back is a question of who
else is called so.
-/

namespace Wardrobe

/-- The place of a kind in the order in which untyped editor ids are tried. -/
def Form.Kind.rank (kind : Form.Kind) : Nat := all.idxOf kind

namespace Catalog

variable {c : Catalog} {r s : Form} {ref : Reference} {kind : Form.Kind} {t : Text}

/-! ## What a text names -/

/-- The record whose key the text spells. -/
def recordAt? (c : Catalog) (t : Text) : Option Form := (FormKey.read? t).bind c.find?

/-- The records whose keys are listed under the text as an editor id, in order of arrival. -/
def recordsCalled (c : Catalog) (t : Text) : List Form := (c.keysNamed t).filterMap c.find?

/-- No other record of its kind that is called so comes before it. -/
def IsFirstOfKind (c : Catalog) (t : Text) (r : Form) : Prop :=
  ∃ before after, c.recordsCalled t = before ++ r :: after ∧ ∀ s ∈ before, s.kind ≠ r.kind

/-- The text names the record where one of its kind must stand. -/
inductive NamesAs (c : Catalog) (t : Text) (r : Form) : Prop
  | key (hkey : c.recordAt? t = some r)
  | editorId (hkey : ∀ s, c.recordAt? t = some s → s.kind ≠ r.kind)
      (hfirst : c.IsFirstOfKind t r)

/-- The text is the name of a plugin that the catalog knows. -/
def IsKnownPlugin (c : Catalog) (t : Text) : Prop :=
  isPluginFile t = true ∧ c.knowsPlugin t = true

/-- The text names the record where a record of any kind, or a plugin, can stand. -/
inductive Names (c : Catalog) (t : Text) (r : Form) : Prop
  | key (hplugin : ¬ c.IsKnownPlugin t) (hkey : c.recordAt? t = some r)
  | editorId (hplugin : ¬ c.IsKnownPlugin t) (hkey : c.recordAt? t = none)
      (hfirst : c.IsFirstOfKind t r) (hkinds : ∀ s ∈ c.recordsCalled t, r.kind.rank ≤ s.kind.rank)

/-! ## Single look-ups -/

theorem eq_of_reference_eq (hr : c.find? r.key = some r) (hs : c.find? s.key = some s)
    (h : s.reference = r.reference) : s = r := by
  obtain ⟨-, hkey, -⟩ := Reference.form.inj h
  rw [hkey, hr] at hs
  exact (Option.some.inj hs).symm

theorem find?_of_recordAt? (h : c.recordAt? t = some r) : c.find? r.key = some r := by
  obtain ⟨key, -, hfind⟩ := Option.bind_eq_some_iff.1 h
  exact find?_key hfind

theorem find?_of_mem_recordsCalled (h : r ∈ c.recordsCalled t) : c.find? r.key = some r := by
  obtain ⟨key, -, hfind⟩ := List.mem_filterMap.1 h
  exact find?_key hfind

theorem IsFirstOfKind.mem (h : c.IsFirstOfKind t r) : r ∈ c.recordsCalled t := by
  obtain ⟨before, after, heq, -⟩ := h
  exact heq ▸ List.mem_append_right _ List.mem_cons_self

theorem pluginCalled_eq_none : c.pluginCalled t = none ↔ ¬ c.IsKnownPlugin t := by
  simp [pluginCalled, IsKnownPlugin]

theorem formAt_eq (c : Catalog) (kind : Option Form.Kind) (t : Text) : c.formAt kind t =
    ((c.recordAt? t).filter fun s => kind.all (· == s.kind)).map Form.reference := by
  rw [formAt, recordAt?]
  cases FormKey.read? t with
  | none => rfl
  | some key =>
    change (c.find? key).bind _ = ((c.find? key).filter _).map _
    cases c.find? key with
    | none => rfl
    | some s =>
      rw [Option.bind_some, Option.filter_some]
      split <;> rfl

theorem formAt_eq_some {kind : Option Form.Kind} (hr : c.find? r.key = some r)
    (hkind : kind.all (· == r.kind) = true) :
    c.formAt kind t = some r.reference ↔ c.recordAt? t = some r := by
  rw [formAt_eq]
  constructor
  · intro h
    obtain ⟨s, hs, href⟩ := Option.map_eq_some_iff.1 h
    have hat : c.recordAt? t = some s := (Option.filter_eq_some_iff.1 hs).1
    rw [hat, eq_of_reference_eq hr (find?_of_recordAt? hat) href]
  · intro h
    rw [h, Option.filter_some, if_pos hkind]
    rfl

theorem formAt_eq_none {kind : Option Form.Kind} : c.formAt kind t = none ↔
    ∀ s, c.recordAt? t = some s → ¬ kind.all (· == s.kind) = true := by
  rw [formAt_eq, Option.map_eq_none_iff, Option.filter_eq_none_iff]

theorem formCalled_eq_some (hr : c.find? r.key = some r) :
    c.formCalled kind t = some r.reference ↔ r.kind = kind ∧ c.IsFirstOfKind t r := by
  change ((c.recordsCalled t).find? _).map _ = _ ↔ _
  rw [Option.map_eq_some_iff]
  constructor
  · rintro ⟨s, hs, href⟩
    obtain rfl :=
      eq_of_reference_eq hr (find?_of_mem_recordsCalled (List.mem_of_find?_eq_some hs)) href
    obtain ⟨hkind, before, after, heq, hbefore⟩ := List.find?_eq_some_iff_append.1 hs
    obtain rfl := beq_iff_eq.1 hkind
    exact ⟨rfl, before, after, heq, fun s hs => by simpa using hbefore s hs⟩
  · rintro ⟨rfl, before, after, heq, hbefore⟩
    refine ⟨r, List.find?_eq_some_iff_append.2 ⟨beq_self_eq_true _, before, after, heq, ?_⟩, rfl⟩
    intro s hs
    simpa using hbefore s hs

theorem formCalled_eq_none : c.formCalled kind t = none ↔
    ∀ s ∈ c.recordsCalled t, s.kind ≠ kind := by
  change ((c.recordsCalled t).find? _).map _ = _ ↔ _
  rw [Option.map_eq_none_iff, List.find?_eq_none]
  simp

/-! ## The look-ups in order -/

theorem findSome?_cons_eq_some {f : α → Option β} {a : α} {as : List α} {b : β} :
    (a :: as).findSome? f = some b ↔ f a = some b ∨ f a = none ∧ as.findSome? f = some b := by
  rw [List.findSome?_cons]
  cases f a <;> simp

/-- What is found first is found at the least position. -/
theorem findSome?_eq_some_iff_idxOf [DecidableEq α] {f : α → Option β} {as : List α} {b : β} :
    as.findSome? f = some b ↔
      ∃ a ∈ as, f a = some b ∧ ∀ a' ∈ as, as.idxOf a' < as.idxOf a → f a' = none := by
  induction as with
  | nil => simp
  | cons a as ih =>
    have hshift : ∀ x, x ≠ a → (a :: as).idxOf x = as.idxOf x + 1 := fun x hx =>
      List.idxOf_cons_ne as hx.symm
    rw [findSome?_cons_eq_some, ih]
    constructor
    · rintro (hfa | ⟨hfa, x, hx, hfx, hbefore⟩)
      · exact ⟨a, List.mem_cons_self, hfa, fun a' _ hlt => by simp at hlt⟩
      · have hxa : x ≠ a := by rintro rfl; simp [hfa] at hfx
        refine ⟨x, List.mem_cons_of_mem _ hx, hfx, fun a' ha' hlt => ?_⟩
        by_cases heq : a' = a
        · rw [heq, hfa]
        · rw [hshift a' heq, hshift x hxa] at hlt
          exact hbefore a' (List.mem_of_ne_of_mem heq ha') (Nat.lt_of_succ_lt_succ hlt)
    · rintro ⟨x, hx, hfx, hbefore⟩
      by_cases hxa : x = a
      · exact .inl (hxa ▸ hfx)
      · refine .inr ⟨hbefore a List.mem_cons_self (by simp [hshift x hxa]),
          x, List.mem_of_ne_of_mem hxa hx, hfx, fun a' ha' hlt => ?_⟩
        by_cases heq : a' = a
        · exact hbefore a' (heq ▸ List.mem_cons_self) (by simp [heq, hshift x hxa])
        · refine hbefore a' (List.mem_cons_of_mem _ ha') ?_
          rw [hshift a' heq, hshift x hxa]
          exact Nat.succ_lt_succ hlt

theorem resolveBy_eq_some {stages : List LookUp} : c.resolveBy stages t = some ref ↔
    Text.trim t ≠ [] ∧ stages.findSome? (c.lookUp (Text.trim t)) = some ref := by
  rw [resolveBy]
  split <;> simp_all

theorem resolveAs_eq_some (hr : c.find? r.key = some r) :
    c.resolveAs r.kind t = some r.reference ↔
      Text.trim t ≠ [] ∧ c.NamesAs (Text.trim t) r := by
  rw [resolveAs, resolveBy_eq_some, and_congr_right_iff, typedStages, findSome?_cons_eq_some,
    findSome?_cons_eq_some]
  intro _
  have hown : (some r.kind).all (· == r.kind) = true := beq_self_eq_true _
  simp only [lookUp, formAt_eq_some hr hown, formAt_eq_none, formCalled_eq_some hr, true_and,
    List.findSome?_nil, reduceCtorEq, and_false, or_false]
  constructor
  · rintro (hkey | ⟨hkey, hfirst⟩)
    · exact .key hkey
    · exact .editorId (fun s hs hkind => hkey s hs (beq_iff_eq.2 hkind.symm)) hfirst
  · rintro (hkey | ⟨hkey, hfirst⟩)
    · exact .inl hkey
    · exact .inr ⟨fun s hs hkind => hkey s hs (beq_iff_eq.1 hkind).symm, hfirst⟩

/-- Of the kinds that are tried, the record's own is the first that finds anything. -/
theorem findSome?_formCalled_eq_some (hr : c.find? r.key = some r) :
    Form.Kind.all.findSome? (fun kind => c.formCalled kind t) = some r.reference ↔
      c.IsFirstOfKind t r ∧ ∀ s ∈ c.recordsCalled t, r.kind.rank ≤ s.kind.rank := by
  rw [findSome?_eq_some_iff_idxOf]
  constructor
  · rintro ⟨kind, -, hkind, hbefore⟩
    obtain ⟨rfl, hfirst⟩ := (formCalled_eq_some hr).1 hkind
    refine ⟨hfirst, fun s hs => Nat.le_of_not_lt fun hlt => ?_⟩
    exact formCalled_eq_none.1 (hbefore s.kind (Form.Kind.mem_all _) hlt) s hs rfl
  · rintro ⟨hfirst, hkinds⟩
    refine ⟨r.kind, Form.Kind.mem_all _, (formCalled_eq_some hr).2 ⟨rfl, hfirst⟩, ?_⟩
    intro kind _ hlt
    refine formCalled_eq_none.2 fun s hs hkind => ?_
    exact absurd (hkinds s hs) (Nat.not_le_of_lt (hkind ▸ hlt))

theorem resolve_eq_some (hr : c.find? r.key = some r) :
    c.resolve t = some r.reference ↔ Text.trim t ≠ [] ∧ c.Names (Text.trim t) r := by
  rw [resolve, resolveBy_eq_some, and_congr_right_iff, untypedStages, findSome?_cons_eq_some,
    findSome?_cons_eq_some, List.findSome?_map]
  intro _
  have hnoPlugin : c.pluginCalled (Text.trim t) ≠ some r.reference := by
    rw [pluginCalled]
    split <;> simp [Form.reference]
  have hany : (none : Option Form.Kind).all (· == r.kind) = true := rfl
  simp only [lookUp, Function.comp_def, hnoPlugin, false_or, pluginCalled_eq_none,
    formAt_eq_some hr hany, formAt_eq_none, findSome?_formCalled_eq_some hr]
  constructor
  · rintro ⟨hplugin, hkey | ⟨hkey, hfirst, hkinds⟩⟩
    · exact .key hplugin hkey
    · refine .editorId hplugin (Option.eq_none_iff_forall_ne_some.2 fun s hs => ?_) hfirst hkinds
      exact hkey s hs rfl
  · rintro (⟨hplugin, hkey⟩ | ⟨hplugin, hkey, hfirst, hkinds⟩)
    · exact ⟨hplugin, .inl hkey⟩
    · exact ⟨hplugin, .inr ⟨fun s hs => by simp [hkey] at hs, hfirst, hkinds⟩⟩

/-! ## Literals of unknown kind and of a given kind -/

theorem resolveBy_eq_none {stages : List LookUp} : c.resolveBy stages t = none ↔
    Text.trim t = [] ∨ ∀ stage ∈ stages, c.lookUp (Text.trim t) stage = none := by
  rw [resolveBy]
  split <;> simp_all

theorem Names.namesAs (h : c.Names t r) : c.NamesAs t r := by
  cases h with
  | key _ hkey => exact .key hkey
  | editorId _ hkey hfirst => exact .editorId (fun s hs => by simp [hkey] at hs) hfirst

theorem formAt_none_eq_none :
    c.formAt none t = none ↔ ∀ kind, c.formAt (some kind) t = none := by
  simp only [formAt_eq_none]
  constructor
  · exact fun h _ s hs => absurd rfl (h s hs)
  · exact fun h s hs => absurd (beq_self_eq_true s.kind) (h s.kind s hs)

theorem not_isKnownPlugin_nil : ¬ c.IsKnownPlugin [] := fun h => absurd h.1 (by decide +kernel)

/-- What finds nothing is no plugin, no key and no editor id of any kind. -/
theorem resolve_eq_none : c.resolve t = none ↔
    ¬ c.IsKnownPlugin (Text.trim t) ∧ ∀ kind, c.resolveAs kind t = none := by
  simp only [resolve, resolveAs, resolveBy_eq_none, untypedStages, typedStages,
    List.forall_mem_cons, List.forall_mem_map, List.not_mem_nil, false_implies, implies_true,
    and_true, lookUp, pluginCalled_eq_none, formAt_none_eq_none, Form.Kind.mem_all, true_implies]
  by_cases hnil : Text.trim t = []
  · simp [hnil, not_isKnownPlugin_nil]
  · simp only [hnil, false_or, forall_and]

theorem isSome_resolve_of_resolveAs (h : c.resolveAs kind t = some ref) :
    (c.resolve t).isSome = true := by
  rw [← Option.ne_none_iff_isSome]
  intro hnone
  rw [(resolve_eq_none.1 hnone).2 kind] at h
  cases h

/-- A record that is named where anything can stand is named where its kind must stand, and what is
unknown where anything can stand is no known plugin and unknown as a record of each kind. -/
theorem resolve_agrees_with_resolveAs (c : Catalog) (literal : Text) :
    (∀ kind key editorId, c.resolve literal = some (.form kind key editorId) →
      c.resolveAs kind literal = some (.form kind key editorId)) ∧
    (c.resolve literal = none ↔
      ¬ c.IsKnownPlugin (Text.trim literal) ∧ ∀ kind, c.resolveAs kind literal = none) ∧
    ∀ f ref, SkyPatcher.resolveValue c f literal = some ref →
      (c.resolve literal).isSome = true := by
  refine ⟨fun kind key editorId h => ?_, resolve_eq_none, fun f ref h => ?_⟩
  · generalize hform : Reference.form kind key editorId = ref at h ⊢
    cases knows_of_resolveBy h with
    | plugin => cases hform
    | form r hr =>
      obtain rfl : kind = r.kind := (Reference.form.inj hform).1
      obtain ⟨hne, hnames⟩ := (resolve_eq_some hr).1 h
      exact (resolveAs_eq_some hr).2 ⟨hne, hnames.namesAs⟩
  · cases f with
    | form kind => exact isSome_resolve_of_resolveAs h
    | gender | editorId | plugin =>
      obtain ⟨hresolve, -⟩ := Option.filter_eq_some_iff.1 h
      exact hresolve ▸ rfl

/-! ## What is written for a reference -/

/-- The record that the reference stands for. -/
def recordOf? (c : Catalog) (ref : Reference) : Option Form := ref.key?.bind c.find?

theorem recordOf?_reference (hr : c.find? r.key = some r) :
    c.recordOf? r.reference = some s ↔ r = s := by
  change c.find? r.key = some s ↔ _
  rw [hr, Option.some_inj]

/-- Two records that a catalog holds and that cannot be told apart as references are one. -/
theorem resolveBy_same_iff {stages : List LookUp} (hr : c.find? r.key = some r) :
    (∃ found, c.resolveBy stages t = some found ∧ found.same r.reference = true) ↔
      c.resolveBy stages t = some r.reference := by
  refine ⟨?_, fun h => ⟨_, h, by simp [Form.reference, Reference.same, FormKey.same_refl]⟩⟩
  rintro ⟨found, hfound, hsame⟩
  cases knows_of_resolveBy hfound with
  | plugin => cases hsame
  | form s hs =>
    obtain ⟨-, hkey⟩ : s.kind = r.kind ∧ s.key.same r.key = true := by
      simpa [Form.reference, Reference.same] using hsame
    rw [find?_congr hkey, hr] at hs
    rw [hfound, Option.some.inj hs]

/-- The text written for a reference that a catalog gave out gives a plugin again always, and a
record just when the text names the record and none that goes before it. -/
theorem spidText_found_iff (c : Catalog) (literal : Text) :
    (∀ ref, c.resolve literal = some ref →
      ((∃ found, c.resolve ref.spidText = some found ∧ found.same ref = true) ↔
        ∀ r, c.recordOf? ref = some r →
          Text.trim ref.spidText ≠ [] ∧ c.Names (Text.trim ref.spidText) r)) ∧
    ∀ kind ref, c.resolveAs kind literal = some ref →
      ((∃ found, c.resolveAs kind ref.spidText = some found ∧ found.same ref = true) ↔
        ∀ r, c.recordOf? ref = some r →
          Text.trim ref.spidText ≠ [] ∧ c.NamesAs (Text.trim ref.spidText) r) := by
  constructor
  · intro ref href
    cases knows_of_resolveBy href with
    | plugin name hpiece hfile hknown =>
      have hback := resolve_plugin (.plugin name hpiece hfile hknown)
      have hself : (Reference.plugin name).same (.plugin name) = true := Text.sameAscii_refl name
      have hnone : c.recordOf? (.plugin name) = none := rfl
      exact ⟨fun _ r hr => absurd hr (by simp [hnone]), fun _ => ⟨_, hback, hself⟩⟩
    | form r hr =>
      simp only [recordOf?_reference hr, forall_eq']
      exact (resolveBy_same_iff hr).trans (resolve_eq_some hr)
  · intro kind ref href
    obtain ⟨key, editorId, hform⟩ := form_of_resolveAs href
    cases knows_of_resolveBy href with
    | plugin => cases hform
    | form r hr =>
      obtain rfl : r.kind = kind := (Reference.form.inj hform).1
      simp only [recordOf?_reference hr, forall_eq']
      exact (resolveBy_same_iff hr).trans (resolveAs_eq_some hr)

/-- Two records called the same, of two kinds, and two of one kind. -/
def barracks : Catalog :=
  .ofRecords
    [⟨⟨"Watch.esp", 1⟩, .faction, some "Guards", none⟩,
     ⟨⟨"Watch.esp", 2⟩, .keyword, some "Guards", none⟩,
     ⟨⟨"Watch.esp", 3⟩, .outfit, some "Mail", none⟩,
     ⟨⟨"Watch.esp", 4⟩, .outfit, some "Mail", none⟩] [] []

def guards : Reference := .form .faction ⟨"Watch.esp", 1⟩ (some "Guards")

def mail : Reference := .form .outfit ⟨"Watch.esp", 3⟩ (some "Mail")

/-- The faction and the first of the outfits are found again, so their names name them. -/
theorem barracks_names :
    barracks.Names "Guards" ⟨⟨"Watch.esp", 1⟩, .faction, some "Guards", none⟩ ∧
      barracks.NamesAs "Mail" ⟨⟨"Watch.esp", 3⟩, .outfit, some "Mail", none⟩ := by
  have hguards := ((spidText_found_iff barracks "Watch.esp|0x1").1 guards (by decide +kernel)).1
    ⟨guards, by decide +kernel⟩
  have hmail := ((spidText_found_iff barracks "Watch.esp|0x3").2 .outfit mail
    (by decide +kernel)).1 ⟨mail, by decide +kernel⟩
  exact ⟨(hguards _ (by decide +kernel)).2, (hmail _ (by decide +kernel)).2⟩

/-- The keyword and the second outfit are written with names that name the other record. -/
theorem barracks_not_found_again :
    (∃ ref, barracks.resolve "Watch.esp|0x2" = some ref ∧
      barracks.resolve ref.spidText = some guards ∧ guards.same ref = false) ∧
    ∃ ref, barracks.resolveAs .outfit "Watch.esp|0x4" = some ref ∧
      barracks.resolveAs .outfit ref.spidText = some mail ∧ mail.same ref = false := by
  refine ⟨⟨.form .keyword ⟨"Watch.esp", 2⟩ (some "Guards"), ?_⟩,
    .form .outfit ⟨"Watch.esp", 4⟩ (some "Mail"), ?_⟩ <;> decide +kernel

/-- The name of two records of two kinds is that of the faction, where a faction must stand too, and
a name that none of the kinds has is unknown. -/
theorem barracks_agrees : barracks.resolveAs .faction "Guards" = some guards ∧
    barracks.resolve "Wolves" = none := by
  obtain ⟨hguards, -, -⟩ := resolve_agrees_with_resolveAs barracks "Guards"
  obtain ⟨-, hwolves, -⟩ := resolve_agrees_with_resolveAs barracks "Wolves"
  refine ⟨hguards .faction _ _ (by decide +kernel), hwolves.2 ⟨?_, fun kind => ?_⟩⟩
  · exact fun hplugin => absurd hplugin.1 (by decide +kernel)
  · cases kind <;> decide +kernel

end Catalog
end Wardrobe
