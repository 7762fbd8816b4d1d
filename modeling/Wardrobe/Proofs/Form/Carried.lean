import Wardrobe.Match
import Wardrobe.Proofs.Form.Index
import Wardrobe.Proofs.Form.Named
import Wardrobe.Proofs.Snapshot
/-
What a character carries can be named in a rule, and the rule then finds it on the character.

A record may take the place of another, and the record at the end of a link is passed over where its
key is taken, but no key is lost: whatever came into the catalog, something is stored for its key.
Which record that is does not matter to the places of a character, where keys alone are compared.
-/

namespace Wardrobe

/-- The key of the character, of one of the places where a reference is looked for on it, or of one
of its groups. -/
inductive Npc.Carries (npc : Npc) : FormKey → Prop
  | own : npc.Carries npc.id
  | race (l : Form.Link) (h : npc.race = some l) : npc.Carries l.key
  | combatClass (l : Form.Link) (h : npc.combatClass = some l) : npc.Carries l.key
  | defaultOutfit (l : Form.Link) (h : npc.defaultOutfit = some l) : npc.Carries l.key
  | combatStyle (l : Form.Link) (h : npc.combatStyle = some l) : npc.Carries l.key
  | voiceType (l : Form.Link) (h : npc.voiceType = some l) : npc.Carries l.key
  | faction (m : Membership) (h : m ∈ npc.factions) : npc.Carries m.faction.key
  | keyword (l : Form.Link) (h : l ∈ npc.keywords) : npc.Carries l.key

variable {npc : Npc} {key key' : FormKey}

/-! ## Keys that came in -/

namespace Catalog

variable {entered : List Form} {l : Form.Kind × Form.Link}

theorem subset_enterLink (entered : List Form) (l : Form.Kind × Form.Link) :
    entered ⊆ enterLink entered l := by
  rw [enterLink]
  split
  · exact List.Subset.refl _
  · exact List.subset_append_left _ _

theorem any_enterLink (entered : List Form) (l : Form.Kind × Form.Link) :
    (enterLink entered l).any (·.key.same l.2.key) = true := by
  rw [enterLink]
  split
  next htaken => exact htaken
  next => simp [FormKey.same_refl]

theorem subset_foldl {step : List β → α → List β} (hstep : ∀ bs a, bs ⊆ step bs a) (as : List α)
    (bs : List β) : bs ⊆ as.foldl step bs := by
  induction as generalizing bs with
  | nil => exact List.Subset.refl _
  | cons a rest ih => exact List.Subset.trans (hstep bs a) (ih _)

/-- What one step brings in stays in. -/
theorem any_foldl_of_mem {step : List β → α → List β} {p : β → Bool} {as : List α} {a : α}
    (hstep : ∀ bs a, bs ⊆ step bs a) (ha : a ∈ as) (hin : ∀ bs, (step bs a).any p = true)
    (bs : List β) : (as.foldl step bs).any p = true := by
  obtain ⟨before, after, rfl⟩ := List.append_of_mem ha
  rw [List.foldl_append, List.foldl_cons]
  obtain ⟨b, hb, hp⟩ := List.any_eq_true.1 (hin (before.foldl step bs))
  exact List.any_eq_true.2 ⟨b, subset_foldl hstep after _ hb, hp⟩

theorem subset_enterNpc (entered : List Form) (npc : Npc) : entered ⊆ enterNpc entered npc :=
  List.Subset.trans (List.subset_append_left _ _) (subset_foldl subset_enterLink _ _)

theorem any_enterNpc_id (entered : List Form) (npc : Npc) :
    (enterNpc entered npc).any (·.key.same npc.id) = true := by
  refine List.any_eq_true.2 ⟨npc.record, ?_, FormKey.same_refl npc.id⟩
  exact subset_foldl subset_enterLink _ _ (List.mem_append_right _ List.mem_cons_self)

theorem any_enterNpc_link (entered : List Form) (hl : l ∈ npc.links) :
    (enterNpc entered npc).any (·.key.same l.2.key) = true :=
  any_foldl_of_mem subset_enterLink hl (fun entered => any_enterLink entered l) _

/-- Something is stored for the key of a character and for each key that it points to. -/
theorem isSome_find?_ofRecords {forms : List Form} {npcs : List Npc} {plugins : List Text}
    (hnpc : npc ∈ npcs) (hkey : key = npc.id ∨ ∃ l ∈ npc.links, key = l.2.key) :
    ((ofRecords forms npcs plugins).find? key).isSome = true := by
  rw [(indexes_ofRecords forms npcs plugins).find, ← any_eq_isSome_lastEntered?]
  refine any_foldl_of_mem subset_enterNpc hnpc (fun entered => ?_) forms
  rcases hkey with rfl | ⟨l, hl, rfl⟩
  · exact any_enterNpc_id entered npc
  · exact any_enterNpc_link entered hl

end Catalog

/-! ## The places of a character -/

theorem Npc.Carries.eq_id_or_mem_links (h : npc.Carries key) :
    key = npc.id ∨ ∃ l ∈ npc.links, key = l.2.key := by
  cases h with
  | own => exact .inl rfl
  | race l h => exact .inr ⟨(.race, l), by simp [links, h], rfl⟩
  | combatClass l h => exact .inr ⟨(.combatClass, l), by simp [links, h], rfl⟩
  | defaultOutfit l h => exact .inr ⟨(.outfit, l), by simp [links, h], rfl⟩
  | combatStyle l h => exact .inr ⟨(.combatStyle, l), by simp [links, h], rfl⟩
  | voiceType l h => exact .inr ⟨(.voiceType, l), by simp [links, h], rfl⟩
  | faction m h => exact .inr ⟨(.faction, m.faction), by simpa [links] using ⟨m, h, rfl⟩, rfl⟩
  | keyword l h => exact .inr ⟨(.keyword, l), by simp [links, h], rfl⟩

theorem Npc.Carries.mem_keyPlaces (h : npc.Carries key) :
    ∃ place ∈ npc.keyPlaces, key ∈ place.2 := by
  have hlinked : ∀ {l : Option Form.Link} {own}, l = some own →
      own.key ∈ l.toList.map (·.key) := fun h => List.mem_map_of_mem (Option.mem_toList.2 h)
  cases h with
  | own => exact ⟨(.own, [npc.id]), by simp [keyPlaces], List.mem_singleton_self _⟩
  | race l h => exact ⟨(.race, _), by simp [keyPlaces], hlinked h⟩
  | combatClass l h => exact ⟨(.combatClass, _), by simp [keyPlaces], hlinked h⟩
  | defaultOutfit l h => exact ⟨(.defaultOutfit, _), by simp [keyPlaces], hlinked h⟩
  | combatStyle l h => exact ⟨(.combatStyle, _), by simp [keyPlaces], hlinked h⟩
  | voiceType l h => exact ⟨(.voiceType, _), by simp [keyPlaces], hlinked h⟩
  | faction m h =>
    exact ⟨(.faction, npc.factions.map (·.faction.key)), by simp [keyPlaces], List.mem_map_of_mem h⟩
  | keyword l h => exact ⟨(.keyword, _), by simp [keyPlaces], List.mem_map_of_mem h⟩

theorem Npc.Carries.isSome_placeOf? (h : npc.Carries key) (hsame : key.same key' = true)
    (kind : Form.Kind) (editorId : Option Text) :
    (npc.placeOf? (.form kind key' editorId)).isSome = true := by
  obtain ⟨place, hplace, hkey⟩ := h.mem_keyPlaces
  rw [placeOf?, Option.isSome_map, List.find?_isSome]
  exact ⟨place, hplace, List.any_eq_true.2 ⟨key, hkey, hsame⟩⟩

/-! ## Naming what is carried -/

namespace Snapshot

variable {s : Snapshot} {t : Text}

theorem knowsPlugin_eq_false (htilde : ∀ name ∈ s.pluginNames, '~' ∉ name) (ht : '~' ∈ t) :
    s.game.catalog.knowsPlugin t = false := by
  rw [Catalog.knowsPlugin, ← Bool.not_eq_true, List.contains_iff_mem]
  intro hknown
  obtain ⟨name, hname, hlower⟩ := (isOf_catalog s).plugins _ hknown
  have hin : '~' ∈ Text.asciiLower t := (Text.mem_asciiLower_of_not_isAlpha (by decide)).2 ht
  rw [hlower] at hin
  exact htilde name hname ((Text.mem_asciiLower_of_not_isAlpha (by decide)).1 hin)

theorem isWellFormed_of_carries (hread : read t = .ok s) (hnpc : npc ∈ s.npcs)
    (hkey : npc.Carries key) : key.IsWellFormed := by
  have hrecords : ∀ r ∈ npc.record :: npc.links.map linkedForm, r.key.IsWellFormed := fun r hr =>
    isWellFormed_of_read hread r (List.mem_append_right _ (List.mem_flatMap.2 ⟨npc, hnpc, hr⟩))
  rcases hkey.eq_id_or_mem_links with rfl | ⟨l, hl, rfl⟩
  · exact hrecords npc.record List.mem_cons_self
  · exact hrecords (linkedForm l) (List.mem_cons_of_mem _ (List.mem_map_of_mem hl))

/-- Where no plugin has a tilde in its name, the spelling of a key that a character carries names a
record with this key, and the record is found at one of the places of the character. -/
theorem resolve_spidText_of_carries (hread : read t = .ok s)
    (htilde : ∀ name ∈ s.pluginNames, '~' ∉ name) (hnpc : npc ∈ s.npcs) (hkey : npc.Carries key) :
    ∃ kind found editorId,
      s.game.catalog.resolve key.spidText = some (.form kind found editorId) ∧
        found.same key = true ∧ (npc.placeOf? (.form kind found editorId)).isSome = true := by
  have hwell := isWellFormed_of_carries hread hnpc hkey
  have hfound : (s.game.catalog.find? key).isSome = true :=
    Catalog.isSome_find?_ofRecords hnpc hkey.eq_id_or_mem_links
  obtain ⟨r, hr⟩ := Option.isSome_iff_exists.1 hfound
  have hsame : r.key.same key = true := Catalog.same_of_find? hr
  have hplugin : ¬ s.game.catalog.IsKnownPlugin key.spidText := by
    rintro ⟨-, hknown⟩
    rw [knowsPlugin_eq_false htilde (by simp [FormKey.spidText])] at hknown
    cases hknown
  have hat : s.game.catalog.recordAt? key.spidText = some r := by
    rw [Catalog.recordAt?, FormKey.read?_spidText hwell, Option.bind_some, hr]
  have hpiece := FormKey.isPiece_spidText hwell
  refine ⟨r.kind, r.key, r.editorId, ?_, hsame, ?_⟩
  · refine (Catalog.resolve_eq_some (Catalog.find?_key hr)).2 ?_
    rw [hpiece.trim_eq]
    exact ⟨hpiece.ne_nil, .key hplugin hat⟩
  · exact hkey.isSome_placeOf? ((FormKey.same_comm _ _).trans hsame) _ _

/-- A guard whose faction is also given as a record, as one of another kind and in capitals. -/
def gateText : Text :=
  "\x7b\"forms\":[".toList ++
  "\x7b\"key\":\"0x1~GATE.ESP\",\"kind\":\"Keyword\",\"editorId\":\"Watch\"\x7d],".toList ++
  "\"npcs\":[\x7b\"id\":\"0x2~Gate.esp\",\"sourcePlugin\":\"Gate.esp\",".toList ++
  "\"factions\":[\x7b\"faction\":\x7b\"key\":\"0x1~Gate.esp\"\x7d\x7d]\x7d]\x7d".toList

def guard : Npc :=
  { unknownNpc with
    id := ⟨"Gate.esp", 2⟩
    sourcePlugin := "Gate.esp"
    factions := [⟨⟨⟨"Gate.esp", 1⟩, none⟩, 0⟩] }

def gate : Snapshot := ⟨[], [⟨⟨"GATE.ESP", 1⟩, .keyword, some "Watch", none⟩], [guard]⟩

theorem read_gateText : read gateText = .ok gate := by
  decide +kernel

/-- The key of the faction names the record that is stored for it, and the guard has it. -/
theorem gate_faction_found : read gateText = .ok gate ∧ guard ∈ gate.npcs ∧
    (∀ name ∈ gate.pluginNames, '~' ∉ name) ∧ guard.Carries ⟨"Gate.esp", 1⟩ ∧
    ∃ kind found editorId,
      gate.game.catalog.resolve "0x1~Gate.esp" = some (.form kind found editorId) ∧
        found.same ⟨"Gate.esp", 1⟩ = true ∧
        (guard.placeOf? (.form kind found editorId)).isSome = true := by
  have hnpc : guard ∈ gate.npcs := List.mem_singleton_self guard
  have htilde : ∀ name ∈ gate.pluginNames, '~' ∉ name := by decide +kernel
  have hkey : guard.Carries ⟨"Gate.esp", 1⟩ :=
    .faction ⟨⟨⟨"Gate.esp", 1⟩, none⟩, 0⟩ (List.mem_singleton_self _)
  exact ⟨read_gateText, hnpc, htilde, hkey,
    resolve_spidText_of_carries read_gateText htilde hnpc hkey⟩

end Snapshot
end Wardrobe
