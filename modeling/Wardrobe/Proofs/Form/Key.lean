import Wardrobe.Form.Key
import Wardrobe.Proofs.Text.Number
import Wardrobe.Proofs.Text.Pieces
/-
Form keys in text.

Both spellings of a key that was read are read back as the same key, the spelling of the plugin
included.  The first spelling bears any plugin, the second none with a mark of the other in it.
-/

namespace Wardrobe

variable {t : Text} {k : FormKey} {c : Char}

/-! ## Plugin names -/

theorem isPiece_of_isPluginFile (h : isPluginFile (Text.trim t) = true) :
    Text.IsPiece (Text.trim t) := by
  refine Text.isPiece_trim fun hnil => ?_
  rw [hnil] at h
  cases h

theorem dot_mem_of_isPluginFile (h : isPluginFile t = true) : '.' ∈ t := by
  rw [isPluginFile, Bool.and_eq_true, List.any_eq_true] at h
  obtain ⟨-, ending, hending, hends⟩ := h
  have hdot : '.' ∈ Text.asciiLower ending := by
    simp only [pluginEndings, List.mem_cons, List.not_mem_nil, or_false] at hending
    rcases hending with rfl | rfl | rfl <;> decide
  have hmem : '.' ∈ Text.asciiLower t := (List.isSuffixOf_iff_suffix.1 hends).subset hdot
  exact (Text.mem_asciiLower_of_not_isAlpha (by decide)).1 hmem

theorem exists_last_of_isPluginFile (h : isPluginFile t = true) :
    ∃ c, t.getLast? = some c ∧ c.toLower ∈ ['p', 'm', 'l'] := by
  rw [isPluginFile, Bool.and_eq_true, List.any_eq_true] at h
  obtain ⟨-, ending, hending, hends⟩ := h
  obtain ⟨front, hfront⟩ := List.isSuffixOf_iff_suffix.1 hends
  obtain ⟨d, hd, hlast⟩ : ∃ d ∈ ['p', 'm', 'l'],
      (Text.asciiLower ending).getLast? = some d := by
    simp only [pluginEndings, List.mem_cons, List.not_mem_nil, or_false] at hending
    rcases hending with rfl | rfl | rfl <;> exact ⟨_, by decide, rfl⟩
  have hne : Text.asciiLower ending ≠ [] := by
    intro hnil
    rw [hnil] at hlast
    cases hlast
  rw [← List.getLast?_append_of_ne_nil front hne, hfront, Text.asciiLower, List.getLast?_map,
    Option.map_eq_some_iff] at hlast
  obtain ⟨c, hc, rfl⟩ := hlast
  exact ⟨c, hc, hd⟩

theorem getLast?_of_isPluginFile (h : isPluginFile t = true) : t.getLast? ≠ some '*' := by
  obtain ⟨c, hlast, hc⟩ := exists_last_of_isPluginFile h
  rw [hlast]
  rintro heq
  obtain rfl := Option.some.inj heq
  revert hc
  decide

/-- No plugin name ends in a digit, not even in one of the hexadecimal digits that are letters. -/
theorem digitValue?_of_isPluginFile (h : isPluginFile t = true) (hlast : t.getLast? = some c) :
    Text.digitValue? 16 c = none := by
  obtain ⟨c', hlast', hc⟩ := exists_last_of_isPluginFile h
  obtain rfl := Option.some.inj (hlast'.symm.trans hlast)
  rw [← Text.apply_toLower (f := Text.digitValue? 16) (by decide)]
  simp only [List.mem_cons, List.not_mem_nil, or_false] at hc
  rcases hc with hc | hc | hc <;> rw [hc] <;> decide

namespace FormKey

/-- The plugin is a trimmed plugin name, as it is in every key that is read from text. -/
structure IsWellFormed (k : FormKey) : Prop where
  isPiece : Text.IsPiece k.plugin
  isPluginFile : isPluginFile k.plugin = true

theorem isWellFormed_of_ofParts? {plugin number : Text} (h : ofParts? plugin number = some k) :
    k.IsWellFormed := by
  rw [ofParts?] at h
  split at h
  next hplugin =>
    obtain ⟨localId, -, rfl⟩ := Option.map_eq_some_iff.1 h
    exact ⟨isPiece_of_isPluginFile hplugin, hplugin⟩
  next => cases h

theorem isWellFormed_of_read? (h : read? t = some k) : k.IsWellFormed := by
  rw [read?] at h
  dsimp only at h
  split at h
  · exact isWellFormed_of_ofParts? h
  · obtain ⟨parts, -, hparts⟩ := Option.bind_eq_some_iff.1 h
    exact isWellFormed_of_ofParts? hparts

theorem read?_eq_none (htilde : '~' ∉ t) (hbar : '|' ∉ t) : read? t = none := by
  have htilde' : '~' ∉ Text.trim t := fun h => htilde (Text.trim_subset t h)
  have hbar' : '|' ∉ Text.trim t := fun h => hbar (Text.trim_subset t h)
  rw [read?]
  dsimp only
  rw [Text.cutAt_eq_none htilde', Text.cutAt_eq_none hbar']
  rfl

/-! ## The two spellings -/

theorem isAlphanum_of_mem_numberText (h : c ∈ k.numberText) : c.isAlphanum = true := by
  rcases List.mem_append.1 h with h | h
  · have hall : ∀ c ∈ "0x".toList, c.isAlphanum = true := Text.forall_mem_of_all (by decide)
    exact hall c h
  · exact Text.isAlphanum_of_mem_hexadecimal h

theorem not_mem_numberText (hc : c.isAlphanum = false) : c ∉ k.numberText :=
  Text.not_mem_of_forall (fun _ hd => isAlphanum_of_mem_numberText hd) hc

theorem isPiece_numberText (k : FormKey) : Text.IsPiece k.numberText :=
  Text.isPiece_of_alphanum (by simp [numberText]) fun _ hc => isAlphanum_of_mem_numberText hc

theorem ofParts?_numberText (h : k.IsWellFormed) : ofParts? k.plugin k.numberText = some k := by
  have hdigits : hexDigits k.numberText = Text.hexadecimal k.localId.toNat := rfl
  rw [ofParts?]
  rw [h.isPiece.trim_eq, if_pos h.isPluginFile, (isPiece_numberText k).trim_eq, hdigits,
    Text.readUInt32?_hexadecimal]
  rfl

theorem isPiece_spidText (h : k.IsWellFormed) : Text.IsPiece k.spidText :=
  (isPiece_numberText k).append h.isPiece _

theorem isPiece_text (h : k.IsWellFormed) : Text.IsPiece k.text :=
  h.isPiece.append (isPiece_numberText k) _

theorem read?_spidText (h : k.IsWellFormed) : read? k.spidText = some k := by
  have hcut : Text.cutAt '~' k.spidText = some (k.numberText, k.plugin) := by
    have hspell : k.spidText = k.numberText ++ '~' :: k.plugin := by simp [spidText]
    rw [hspell]
    exact Text.cutAt_append (not_mem_numberText (by decide))
  rw [read?]
  dsimp only
  rw [(isPiece_spidText h).trim_eq, hcut]
  exact ofParts?_numberText h

/-- Neither of the marks that the spellings are made with stands in the plugin's name. -/
def HasPlainPlugin (k : FormKey) : Prop := '~' ∉ k.plugin ∧ '|' ∉ k.plugin

instance : Decidable k.HasPlainPlugin := inferInstanceAs (Decidable (_ ∧ _))

theorem text_eq_append (k : FormKey) : k.text = k.plugin ++ '|' :: k.numberText := by simp [text]

theorem cutAt_tilde_text (htilde : '~' ∉ k.plugin) : Text.cutAt '~' k.text = none := by
  refine Text.cutAt_eq_none ?_
  rw [text_eq_append]
  simp [htilde, not_mem_numberText]

theorem read?_text (h : k.IsWellFormed) (htilde : '~' ∉ k.plugin) (hbar : '|' ∉ k.plugin) :
    read? k.text = some k := by
  have hcut : Text.cutAt '|' k.text = some (k.plugin, k.numberText) := by
    rw [text_eq_append]
    exact Text.cutAt_append hbar
  rw [read?]
  dsimp only
  rw [(isPiece_text h).trim_eq, cutAt_tilde_text htilde, hcut]
  exact ofParts?_numberText h

/-! ## Marks in plugin names -/

theorem mem_hexDigits (hc : c.isAlphanum = false) (h : c ∈ t) : c ∈ hexDigits t := by
  have hzero : c ≠ '0' := by rintro rfl; cases hc
  have hx : c ≠ 'x' := by rintro rfl; cases hc
  have hX : c ≠ 'X' := by rintro rfl; cases hc
  unfold hexDigits
  split
  next => simpa [hzero, hx] using h
  next => simpa [hzero, hX] using h
  next => exact h

theorem ofParts?_eq_none_of_bar {plugin number : Text} (h : '|' ∈ number) :
    ofParts? plugin number = none := by
  have hmem : '|' ∈ hexDigits (Text.trim number) :=
    mem_hexDigits (by decide) (Text.mem_trim (by decide) h)
  rw [ofParts?, Text.readUInt32?_eq_none (by decide) (by decide) hmem]
  exact ite_self _

theorem getLast?_text (k : FormKey) :
    ∃ c, k.text.getLast? = some c ∧ (Text.digitValue? 16 c).isSome = true := by
  obtain ⟨c, hlast⟩ : ∃ c, (Text.hexadecimal k.localId.toNat).getLast? = some c :=
    Option.isSome_iff_exists.1 (by simp [Text.hexadecimal_ne_nil])
  refine ⟨c, ?_, Text.isSome_digitValue?_of_mem_hexadecimal (List.mem_of_getLast? hlast)⟩
  rw [text, numberText, List.getLast?_append, List.getLast?_append, hlast]
  rfl

/-- Behind a tilde in the plugin's name stands the number, which no plugin name ends in.  Behind a
bar in it stands another bar, which is in no number. -/
theorem read?_text_eq_none (h : k.IsWellFormed) (hmark : ¬ k.HasPlainPlugin) :
    read? k.text = none := by
  rw [read?]
  dsimp only
  rw [(isPiece_text h).trim_eq]
  by_cases htilde : '~' ∈ k.plugin
  · obtain ⟨number, rest, hplugin, hnumber⟩ := List.eq_append_cons_of_mem htilde
    have htext : k.text = number ++ '~' :: (rest ++ '|' :: k.numberText) := by
      simp [text_eq_append, hplugin]
    rw [htext, Text.cutAt_append hnumber]
    refine if_neg fun hfile => ?_
    have hsuffix : rest ++ '|' :: k.numberText <:+ k.text := ⟨number ++ ['~'], by simp [htext]⟩
    obtain ⟨c, hlast, hdigit⟩ := getLast?_text k
    rw [← Text.getLast?_trim_of_suffix (isPiece_text h) hsuffix
      (isPiece_of_isPluginFile hfile).ne_nil] at hlast
    rw [digitValue?_of_isPluginFile hfile hlast] at hdigit
    cases hdigit
  · obtain ⟨plugin, rest, hplugin, hbar⟩ :=
      List.eq_append_cons_of_mem (Decidable.not_not.1 fun hbar => hmark ⟨htilde, hbar⟩)
    have hcut : Text.cutAt '|' k.text = some (plugin, rest ++ '|' :: k.numberText) := by
      rw [text_eq_append, hplugin, List.append_assoc]
      exact Text.cutAt_append hbar
    rw [cutAt_tilde_text htilde, hcut]
    exact ofParts?_eq_none_of_bar (by simp)

/-- Keys whose texts differ in case only are the same. -/
theorem same_of_sameAscii_text {k' : FormKey} (hbar : '|' ∉ k.plugin) (hbar' : '|' ∉ k'.plugin)
    (h : Text.sameAscii k.text k'.text = true) : k.same k' = true := by
  have hspell (k : FormKey) : Text.asciiLower k.text =
      Text.asciiLower k.plugin ++ '|' :: Text.asciiLower k.numberText := by
    simp [text, Text.asciiLower]
  have hlower {t : Text} (ht : '|' ∉ t) : '|' ∉ Text.asciiLower t :=
    fun hmem => ht ((Text.mem_asciiLower_of_not_isAlpha (by decide)).1 hmem)
  have hcut : Text.cutAt '|' (Text.asciiLower k.text) =
      Text.cutAt '|' (Text.asciiLower k'.text) := by
    rw [Text.sameAscii_iff.1 h]
  rw [hspell, hspell, Text.cutAt_append (hlower hbar), Text.cutAt_append (hlower hbar')] at hcut
  obtain ⟨hplugin, hnumber⟩ := Prod.mk.inj (Option.some.inj hcut)
  have hvalue : Text.digitsValue? 16 0 (Text.asciiLower (Text.hexadecimal k.localId.toNat)) =
      Text.digitsValue? 16 0 (Text.asciiLower (Text.hexadecimal k'.localId.toNat)) := by
    simp only [numberText, Text.asciiLower, List.map_append] at hnumber
    rw [Text.asciiLower, Text.asciiLower, List.append_cancel_left hnumber]
  rw [Text.digitsValue?_asciiLower, Text.digitsValue?_hexadecimal, Text.digitsValue?_asciiLower,
    Text.digitsValue?_hexadecimal] at hvalue
  exact FormKey.same_iff.2 ⟨UInt32.toNat_inj.1 (Option.some.inj hvalue), hplugin⟩

theorem numberText_inj {k' : FormKey} (h : k.numberText = k'.numberText) :
    k.localId = k'.localId := by
  have hvalue : Text.digitsValue? 16 0 (Text.hexadecimal k.localId.toNat) =
      Text.digitsValue? 16 0 (Text.hexadecimal k'.localId.toNat) := by
    rw [List.append_cancel_left h]
  rw [Text.digitsValue?_hexadecimal, Text.digitsValue?_hexadecimal] at hvalue
  exact UInt32.toNat_inj.1 (Option.some.inj hvalue)

/-- No two keys have the same text, because the last of its bars stands before the number. -/
theorem text_injective : Function.Injective FormKey.text := by
  intro k k' h
  have hcut (k : FormKey) : Text.cutAt '|' k.text.reverse =
      some (k.numberText.reverse, k.plugin.reverse) := by
    have hspell : k.text.reverse = k.numberText.reverse ++ '|' :: k.plugin.reverse := by
      simp [text_eq_append]
    have hbar : '|' ∉ k.numberText.reverse := by
      rw [List.mem_reverse]
      exact not_mem_numberText (by decide)
    rw [hspell, Text.cutAt_append hbar]
  have hparts := (hcut k).symm.trans ((congrArg _ (congrArg _ h)).trans (hcut k'))
  obtain ⟨hnumber, hplugin⟩ := Prod.mk.inj (Option.some.inj hparts)
  have hlocalId := numberText_inj (List.reverse_inj.1 hnumber)
  obtain ⟨plugin, localId⟩ := k
  obtain ⟨plugin', localId'⟩ := k'
  obtain rfl := List.reverse_inj.1 hplugin
  obtain rfl : localId = localId' := hlocalId
  rfl

end FormKey
end Wardrobe
