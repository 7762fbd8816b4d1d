import Wardrobe.Proofs.Form.Catalog
import Wardrobe.Proofs.Rule.Line
import Wardrobe.Proofs.Text.Case
/-
Literals that differ in the case of ASCII letters alone name the same thing.

A record is found by either of them as it was stored.  A plugin is known by the literal itself, so
its small form is what the two have in common.
-/

namespace Wardrobe

open Text

variable {t : Text}

theorem isPluginFile_asciiLower (t : Text) : isPluginFile (asciiLower t) = isPluginFile t := by
  simp only [isPluginFile, length_asciiLower, endsWithAscii_asciiLower]

namespace FormKey

def lowered (k : FormKey) : FormKey := ⟨asciiLower k.plugin, k.localId⟩

theorem same_lowered (k : FormKey) : k.lowered.same k = true :=
  same_iff.2 ⟨rfl, asciiLower_asciiLower k.plugin⟩

theorem hexDigits_of_ne (hsmall : ∀ rest, t ≠ '0' :: 'x' :: rest)
    (hcapital : ∀ rest, t ≠ '0' :: 'X' :: rest) : hexDigits t = t := by
  rw [hexDigits]
  · exact hsmall
  · exact hcapital

theorem hexDigits_asciiLower (t : Text) : hexDigits (asciiLower t) = asciiLower (hexDigits t) := by
  by_cases hsmall : ∃ rest, t = '0' :: 'x' :: rest
  · obtain ⟨rest, rfl⟩ := hsmall
    rfl
  by_cases hcapital : ∃ rest, t = '0' :: 'X' :: rest
  · obtain ⟨rest, rfl⟩ := hcapital
    rfl
  have hmark : ∀ x rest, x = 'x' ∨ x = 'X' → asciiLower t ≠ '0' :: x :: rest := by
    intro x rest hx hlower
    obtain ⟨a, behind, rfl, ha, hbehind⟩ := List.map_eq_cons_iff.1 hlower
    obtain ⟨b, digits, rfl, hb, -⟩ := List.map_eq_cons_iff.1 hbehind
    obtain rfl := (toLower_eq_iff (by decide)).1 ha
    have hletter := apply_toLower (f := fun c => decide (c = 'x' ∨ c = 'X')) (by decide) b
    rw [hb, decide_eq_true hx] at hletter
    rcases of_decide_eq_true hletter.symm with rfl | rfl
    · exact hsmall ⟨digits, rfl⟩
    · exact hcapital ⟨digits, rfl⟩
  rw [hexDigits_of_ne (fun rest => hmark 'x' rest (.inl rfl)) fun rest => hmark 'X' rest (.inr rfl),
    hexDigits_of_ne (fun rest h => hsmall ⟨rest, h⟩) fun rest h => hcapital ⟨rest, h⟩]

theorem ofParts?_asciiLower (plugin number : Text) :
    ofParts? (asciiLower plugin) (asciiLower number) = (ofParts? plugin number).map lowered := by
  rw [ofParts?, ofParts?]
  simp only [trim_asciiLower, isPluginFile_asciiLower, hexDigits_asciiLower,
    readUInt32?_asciiLower]
  split
  · rw [Option.map_map]
    rfl
  · rfl

theorem read?_asciiLower (t : Text) : read? (asciiLower t) = (read? t).map lowered := by
  rw [read?, read?]
  simp only [trim_asciiLower]
  rw [cutAt_asciiLower (by decide), cutAt_asciiLower (by decide)]
  cases Text.cutAt '~' (trim t) with
  | some parts => exact ofParts?_asciiLower parts.2 parts.1
  | none =>
    cases Text.cutAt '|' (trim t) with
    | some parts => exact ofParts?_asciiLower parts.1 parts.2
    | none => rfl

end FormKey

namespace Reference

/-- The reference with the case of the literal taken out, where it shows. -/
def lowered : Reference → Reference
  | form kind key editorId => form kind key editorId
  | plugin name => plugin (asciiLower name)

theorem lowered_lowered (ref : Reference) : ref.lowered.lowered = ref.lowered := by
  cases ref with
  | form kind key editorId => rfl
  | plugin name => exact congrArg plugin (asciiLower_asciiLower name)

end Reference

namespace Catalog

theorem pluginCalled_asciiLower (c : Catalog) (literal : Text) :
    c.pluginCalled (asciiLower literal) = (c.pluginCalled literal).map Reference.lowered := by
  rw [pluginCalled, isPluginFile_asciiLower, knowsPlugin, asciiLower_asciiLower, pluginCalled,
    knowsPlugin]
  split <;> rfl

theorem formAt_asciiLower (c : Catalog) (kind : Option Form.Kind) (literal : Text) :
    c.formAt kind (asciiLower literal) = (c.formAt kind literal).map Reference.lowered := by
  rw [formAt, formAt, FormKey.read?_asciiLower]
  cases FormKey.read? literal with
  | none => rfl
  | some key =>
    simp only [Option.map_some, Option.bind_eq_bind, Option.bind_some,
      find?_congr key.same_lowered]
    cases c.find? key with
    | none => rfl
    | some r =>
      simp only [Option.bind_some]
      split <;> rfl

theorem formCalled_asciiLower (c : Catalog) (kind : Form.Kind) (literal : Text) :
    c.formCalled kind (asciiLower literal) =
      (c.formCalled kind literal).map Reference.lowered := by
  rw [formCalled, keysNamed, lower_asciiLower, formCalled, keysNamed, Option.map_map]
  rfl

theorem lookUp_asciiLower (c : Catalog) (literal : Text) (stage : LookUp) :
    c.lookUp (asciiLower literal) stage = (c.lookUp literal stage).map Reference.lowered := by
  cases stage with
  | plugin => exact c.pluginCalled_asciiLower literal
  | key kind => exact c.formAt_asciiLower kind literal
  | editorId kind => exact c.formCalled_asciiLower kind literal

theorem resolveBy_asciiLower (c : Catalog) (stages : List LookUp) (literal : Text) :
    c.resolveBy stages (asciiLower literal) =
      (c.resolveBy stages literal).map Reference.lowered := by
  rw [resolveBy, resolveBy, trim_asciiLower]
  simp only [isEmpty_asciiLower]
  split
  · rfl
  · induction stages with
    | nil => rfl
    | cons stage rest ih =>
      rw [List.findSome?_cons, List.findSome?_cons, lookUp_asciiLower]
      cases c.lookUp (trim literal) stage with
      | some ref => rfl
      | none => exact ih

theorem resolve_asciiLower (c : Catalog) (literal : Text) :
    c.resolve (asciiLower literal) = (c.resolve literal).map Reference.lowered :=
  c.resolveBy_asciiLower untypedStages literal

/-- A record of a given kind is found as it was stored. -/
theorem resolveAs_asciiLower (c : Catalog) (kind : Form.Kind) (literal : Text) :
    c.resolveAs kind (asciiLower literal) = c.resolveAs kind literal := by
  have h := c.resolveBy_asciiLower (typedStages kind) literal
  rw [resolveAs, h]
  cases hfound : c.resolveAs kind literal with
  | none =>
    rw [resolveAs] at hfound
    rw [hfound]
    rfl
  | some ref =>
    obtain ⟨key, editorId, rfl⟩ := form_of_resolveAs hfound
    rw [resolveAs] at hfound
    rw [hfound]
    rfl

end Catalog
end Wardrobe
