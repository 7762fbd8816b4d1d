import Wardrobe.Proofs.Rule.Parts
import Wardrobe.Proofs.SkyPatcher.Factor
/-
Values as they are written in clauses, and the clauses that are read back from them.

A reference is written as its key or its plugin and is found again in the catalog, and a text is
written as it stands.  So the clauses that are written ask of a character just what the lists of
values do.
-/

namespace Wardrobe

variable {c : Catalog} {ref : Reference} {s : Subject} {ch : Char}

/-! ## References -/

/-- No mark of a line or of a key stands in the name. -/
def IsPlainPlugin (name : Text) : Prop := ∀ ch ∈ ",:;~|".toList, ch ∉ name

instance (name : Text) : Decidable (IsPlainPlugin name) :=
  decidable_of_iff (",:;~|".toList.all (fun ch => !name.contains ch) = true)
    (by simp [IsPlainPlugin])

namespace Reference

theorem isPiece_skyPatcherText (hkeys : c.HasWellFormedKeys) (h : c.Knows ref) :
    Text.IsPiece ref.skyPatcherText := by
  cases h with
  | form r hfind => exact FormKey.isPiece_text (hkeys _ r hfind)
  | plugin name hpiece => exact hpiece

theorem not_mem_skyPatcherText (hplain : IsPlainPlugin ref.pluginName) (h : ch ∈ ",:;".toList) :
    ch ∉ ref.skyPatcherText := by
  have hmarks : ∀ ch ∈ ",:;".toList,
      ch ∈ ",:;~|".toList ∧ ch ≠ '|' ∧ ch.isAlphanum = false :=
    Text.forall_mem_of_all (by decide)
  obtain ⟨hmark, hbar, halphanum⟩ := hmarks ch h
  cases ref with
  | form kind key editorId =>
    have hplugin : ch ∉ key.plugin := hplain ch hmark
    simp [skyPatcherText, FormKey.text, hplugin, hbar, FormKey.not_mem_numberText halphanum]
  | plugin name => exact hplain ch hmark

/-- A reference that was given out is found under the text that is written for it. -/
theorem resolveValue_skyPatcherText (hkeys : c.HasWellFormedKeys) (h : c.Knows ref)
    (hplain : IsPlainPlugin ref.pluginName) :
    SkyPatcher.resolveValue c (.ofReference ref) ref.skyPatcherText = some ref := by
  cases h with
  | form r hfind =>
    have hwell := hkeys _ r hfind
    exact Catalog.resolveAs_of_read? (FormKey.isPiece_text hwell)
      (FormKey.read?_text hwell (hplain '~' (by decide)) (hplain '|' (by decide))) hfind
  | plugin name hpiece hfile hknown =>
    have hresolve := Catalog.resolve_plugin (.plugin name hpiece hfile hknown)
    simp [SkyPatcher.resolveValue, SkyPatcher.Field.ofReference, skyPatcherText, hresolve, isPlugin]

/-- References of one field that were given out are written differently. -/
theorem eq_of_skyPatcherText {ref' : Reference} (h : c.Knows ref) (h' : c.Knows ref')
    (hfield : SkyPatcher.Field.ofReference ref = .ofReference ref')
    (htext : ref.skyPatcherText = ref'.skyPatcherText) : ref = ref' := by
  cases h with
  | form r hfind =>
    cases h' with
    | form r' hfind' =>
      have hkey : r.key = r'.key := FormKey.text_injective htext
      rw [← hkey, hfind] at hfind'
      rw [Option.some.inj hfind']
    | plugin => cases hfield
  | plugin name =>
    cases h' with
    | form => cases hfield
    | plugin name' => exact congrArg _ htext

end Reference

theorem Npc.placeOf?_congr {npc : Npc} {kind kind' : Form.Kind} {key key' : FormKey}
    {e e' : Option Text} (h : key.same key' = true) :
    npc.placeOf? (.form kind key e) = npc.placeOf? (.form kind' key' e') := by
  have hsame : ∀ k : FormKey, k.same key = k.same key' := by
    intro k
    rw [Bool.eq_iff_iff]
    exact ⟨fun hk => FormKey.same_trans hk h,
      fun hk => FormKey.same_trans hk (by rwa [FormKey.same_comm])⟩
  simp only [placeOf?, hsame]

namespace SkyPatcher

variable {f : Field} {mode : Mode} {v w : ListedValue} {values : List Text} {l : ClauseLists}

/-! ## Values -/

/-- A value that can be written into a clause and read back. -/
inductive Listable (c : Catalog) : ListedValue → Prop
  | text (t : Text) (hpiece : Text.IsPiece t) (hmarks : ∀ ch ∈ ",:;".toList, ch ∉ t) :
    Listable c ⟨.editorId, t⟩
  | reference (ref : Reference) (hknows : c.Knows ref) (hplain : IsPlainPlugin ref.pluginName) :
    Listable c ⟨.ofReference ref, ref.skyPatcherText⟩

/-- What the value alone would stand for is on the character. -/
def ListedValue.isOn (c : Catalog) (s : Subject) (v : ListedValue) : Bool :=
  (FilterClause.resolved c ⟨v.field, .plain, [v.literal]⟩).any (·.isOn s)

theorem Listable.isPiece (hkeys : c.HasWellFormedKeys) (h : Listable c v) :
    Text.IsPiece v.literal := by
  cases h with
  | text t hpiece => exact hpiece
  | reference ref hknows => exact Reference.isPiece_skyPatcherText hkeys hknows

theorem Listable.not_mem (h : Listable c v) (hch : ch ∈ ",:;".toList) : ch ∉ v.literal := by
  cases h with
  | text t _ hmarks => exact hmarks ch hch
  | reference ref _ hplain => exact Reference.not_mem_skyPatcherText hplain hch

theorem resolved_reference (hkeys : c.HasWellFormedKeys) (hknows : c.Knows ref)
    (hplain : IsPlainPlugin ref.pluginName) :
    FilterClause.resolved c ⟨.ofReference ref, .plain, [ref.skyPatcherText]⟩ =
      [.reference ref] := by
  have hresolve := Reference.resolveValue_skyPatcherText hkeys hknows hplain
  have hresolved : FilterClause.resolved c ⟨.ofReference ref, .plain, [ref.skyPatcherText]⟩ =
      ([ref.skyPatcherText].filterMap (resolveValue c (.ofReference ref))).map .reference := by
    cases ref <;> rfl
  rw [hresolved, List.filterMap_cons_some hresolve]
  rfl

theorem Listable.resolved (hkeys : c.HasWellFormedKeys) (h : Listable c v) :
    ∃ value, FilterClause.resolved c ⟨v.field, .plain, [v.literal]⟩ = [value] := by
  cases h with
  | text t => exact ⟨.text t, rfl⟩
  | reference ref hknows hplain => exact ⟨_, resolved_reference hkeys hknows hplain⟩

theorem isOn_reference (hkeys : c.HasWellFormedKeys) (hknows : c.Knows ref)
    (hplain : IsPlainPlugin ref.pluginName) :
    ListedValue.isOn c s ⟨.ofReference ref, ref.skyPatcherText⟩ =
      (s.npc.placeOf? ref).isSome := by
  rw [ListedValue.isOn, resolved_reference hkeys hknows hplain]
  simp [Value.isOn]

theorem isOn_text (t : Text) :
    ListedValue.isOn c s ⟨.editorId, t⟩ = s.mentions (Text.lower t) := by
  simp [ListedValue.isOn, FilterClause.resolved, Value.isOn]

/-- Values in other letters, capital or small, are the same values. -/
theorem seesNoCase_isOn (hkeys : c.HasWellFormedKeys) (s : Subject) :
    SeesNoCase (ListedValue.isOn c s) (Listable c) := by
  intro v w hv hw hfield hsame
  cases hv with
  | text t =>
    cases hw with
    | text u => rw [isOn_text, isOn_text, Text.lower_congr hsame]
    | reference ref => cases ref <;> cases hfield
  | reference ref hknows hplain =>
    cases hw with
    | text u => cases ref <;> cases hfield
    | reference ref' hknows' hplain' =>
      rw [isOn_reference hkeys hknows hplain, isOn_reference hkeys hknows' hplain']
      cases ref with
      | form kind key e =>
        cases ref' with
        | plugin name => cases hfield
        | form kind' key' e' =>
          have hbar : '|' ∉ key.plugin := hplain '|' (by decide)
          have hbar' : '|' ∉ key'.plugin := hplain' _ (by decide)
          rw [Npc.placeOf?_congr (FormKey.same_of_sameAscii_text hbar hbar' hsame)]
      | plugin name =>
        cases ref' with
        | form kind' key' e' => cases hfield
        | plugin name' =>
          have hfrom : s.npc.isFromPlugin name = s.npc.isFromPlugin name' := by
            have hlower := Text.sameAscii_iff.1 hsame
            simp only [Reference.skyPatcherText] at hlower
            simp only [Npc.isFromPlugin, Text.sameAscii, hlower]
          simp only [Npc.placeOf?, hfrom]

/-! ## Clauses -/

theorem asks_congr {as : List α} {bs : List β} {isOn : α → Bool} {isOn' : β → Bool}
    (h : List.Forall₂ (fun a b => isOn a = isOn' b) as bs) :
    Asks f mode as isOn ↔ Asks f mode bs isOn' := by
  have hall (b : Bool) : (∀ a ∈ as, isOn a = b) ↔ ∀ b' ∈ bs, isOn' b' = b :=
    forall_mem_congr h fun _ _ _ heq => by rw [heq]
  have hsome : (∃ a ∈ as, isOn a = true) ↔ ∃ b ∈ bs, isOn' b = true :=
    exists_mem_congr h fun _ _ _ heq => by rw [heq]
  cases mode with
  | excluded => exact hall false
  | anyOf => exact hsome
  | plain =>
    rw [Asks, Asks]
    split
    · exact hall true
    · exact hsome

theorem resolved_cons (t : Text) (ts : List Text) :
    FilterClause.resolved c ⟨f, mode, t :: ts⟩ =
      FilterClause.resolved c ⟨f, .plain, [t]⟩ ++ FilterClause.resolved c ⟨f, mode, ts⟩ := by
  cases f with
  | form kind =>
    cases h : resolveValue c (.form kind) t <;> simp [FilterClause.resolved, h]
  | plugin => cases h : resolveValue c .plugin t <;> simp [FilterClause.resolved, h]
  | editorId => simp [FilterClause.resolved]
  | gender => cases h : sexNamed? t <;> simp [FilterClause.resolved, h]

/-- A clause asks for its values, each of which stands for one thing. -/
theorem holdsOf_iff (hkeys : c.HasWellFormedKeys) (h : ∀ t ∈ values, Listable c ⟨f, t⟩) :
    FilterClause.HoldsOf c s ⟨f, mode, values⟩ ↔
      Asks f mode values fun t => ListedValue.isOn c s ⟨f, t⟩ := by
  refine (asks_congr ?_).symm
  induction values with
  | nil => cases f <;> exact .nil
  | cons t rest ih =>
    obtain ⟨ht, hrest⟩ := List.forall_mem_cons.1 h
    obtain ⟨value, hvalue⟩ := ht.resolved hkeys
    dsimp only at hvalue
    rw [resolved_cons, hvalue]
    refine .cons ?_ (ih hrest)
    rw [ListedValue.isOn, hvalue]
    simp

end SkyPatcher
end Wardrobe
