import Wardrobe.Proofs.Form.Key
import Wardrobe.Session
/-
Printed form keys, given back to whatever reads keys.

Reports print a key in the spelling with the plugin in front.  Whether this text is a key again
depends on the plugin's name alone, and queries and records follow what the text is read as.
-/

namespace Wardrobe

variable {t t' : Text} {k : FormKey} {n : Nat} {u rest : Text}

/-! ## What reads keys -/

theorem Session.distributionsOn_congr (s : Session) (h : FormKey.read? t = some k)
    (h' : FormKey.read? t' = some k) : s.distributionsOn t = s.distributionsOn t' := by
  simp only [distributionsOn, h, h']

theorem Session.distributionsOn_eq_error (s : Session) (h : FormKey.read? t = none) :
    s.distributionsOn t = .error (.notFound ("Not a form key: " ++ t)) := by
  simp only [distributionsOn, h]
  rfl

namespace Json

theorem formKey_run (htext : (text.run n).run u = .ok (t, rest)) (h : FormKey.read? t = some k) :
    (formKey.run n).run u = .ok (k, rest) := by
  change ((text.run n).run u).bind _ = _
  rw [htext, Except.bind]
  simp only [h]
  rfl

theorem formKey_run_eq_error (htext : (text.run n).run u = .ok (t, rest))
    (h : FormKey.read? t = none) : (formKey.run n).run u = .error (.badFormKey t) := by
  change ((text.run n).run u).bind _ = _
  rw [htext, Except.bind]
  simp only [h]
  rfl

end Json

namespace FormKey

/-- The spelling of rule files is always read back.  The spelling of reports is read back, answers
the question that the key was asked with and can stand in a record, unless the plugin's name has
a mark of a spelling in it: then it is no key at all. -/
theorem printed_read_back (h : read? t = some k) :
    read? k.spidText = some k ∧
    read? k.text = (if k.HasPlainPlugin then some k else none) ∧
    (∀ s : Session, s.distributionsOn k.text =
      if k.HasPlainPlugin then s.distributionsOn t
      else .error (.notFound ("Not a form key: " ++ k.text))) ∧
    ∀ n u rest, (Json.text.run n).run u = .ok (k.text, rest) →
      (Json.formKey.run n).run u =
        if k.HasPlainPlugin then .ok (k, rest) else .error (.badFormKey k.text) := by
  have hk := isWellFormed_of_read? h
  by_cases hplain : k.HasPlainPlugin
  · have hread := read?_text hk hplain.1 hplain.2
    simp only [if_pos hplain]
    exact ⟨read?_spidText hk, hread, fun s => s.distributionsOn_congr hread h,
      fun n u rest htext => Json.formKey_run htext hread⟩
  · have hread := read?_text_eq_none hk hplain
    simp only [if_neg hplain]
    exact ⟨read?_spidText hk, hread, fun s => s.distributionsOn_eq_error hread,
      fun n u rest htext => Json.formKey_run_eq_error htext hread⟩

theorem read_back_armors :
    read? "0x800~Armors.esp" = some ⟨"Armors.esp", 0x800⟩ ∧
    read? "0x800~Armors.esp" = read? "Armors.esp|0x800" ∧
    (∀ s : Session, s.distributionsOn "Armors.esp|0x800" = s.distributionsOn "0x800~Armors.esp") ∧
    (Json.formKey.run 24).run "\"Armors.esp|0x800\"" = .ok (⟨"Armors.esp", 0x800⟩, []) := by
  have h : read? "0x800~Armors.esp" = some ⟨"Armors.esp", 0x800⟩ := by decide +kernel
  have hplain : HasPlainPlugin ⟨"Armors.esp", 0x800⟩ := by decide +kernel
  obtain ⟨-, hread, hquery, hdecode⟩ := printed_read_back h
  refine ⟨h, h.trans (hread.trans (if_pos hplain)).symm,
    fun s => (hquery s).trans (if_pos hplain), ?_⟩
  exact (hdecode 24 "\"Armors.esp|0x800\"" [] (by rfl)).trans (if_pos hplain)

/-- The tilde in the name is taken for the mark of the other spelling. -/
theorem winter_not_read_back :
    read? "0x800~Winter~Armor.esp" = some ⟨"Winter~Armor.esp", 0x800⟩ ∧
    text ⟨"Winter~Armor.esp", 0x800⟩ = "Winter~Armor.esp|0x800" ∧
    read? "Winter~Armor.esp|0x800" = none := by
  decide +kernel

end FormKey
end Wardrobe
