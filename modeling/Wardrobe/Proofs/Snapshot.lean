import Wardrobe.Proofs.Form.Catalog
import Wardrobe.Proofs.Json.Reader
import Wardrobe.Snapshot
/-
Decoded snapshots: every form key in one has been read from text.

Keys stand in records, in characters and in the links of characters.  A record starts out with a key
that no text has, so the readers must be followed to where the key is read, which they insist on.
-/

namespace Wardrobe
namespace Snapshot

open Json

/-- The record for the end of a link. -/
def linkedForm (l : Form.Kind × Form.Link) : Form := ⟨l.2.key, l.1, l.2.editorId, none⟩

/-- The records that a snapshot gives: its own, its characters and what these point to. -/
def records (s : Snapshot) : List Form :=
  s.forms ++ s.npcs.flatMap fun npc => npc.record :: npc.links.map linkedForm

/-- All names of plugins in a snapshot. -/
def pluginNames (s : Snapshot) : List Text :=
  s.plugins ++ s.npcs.map (·.sourcePlugin) ++ s.records.map (·.key.plugin)

theorem yields_formKey : formKey.Yields FormKey.IsWellFormed := by
  refine .seq fun t => ?_
  split
  next key hkey => exact .pure (FormKey.isWellFormed_of_read? hkey)
  next => exact .throw _

/-- A reader of values that do not matter. -/
theorem yields_any (r : Reader α) : r.Yields fun _ => True := .ofForall fun _ => trivial

theorem yields_form : form.Yields fun r => r.key.IsWellFormed := by
  refine .mono (yields_record_cons (R := fun _ => True) rfl (by decide) trivial
    (fun s _ => .bind yields_formKey fun key hkey => .pure ⟨hkey, trivial⟩) ?_) fun r hr => hr.1
  simp only [List.forall_mem_cons, List.not_mem_nil, false_implies, implies_true, and_true]
  refine ⟨?_, ?_, ?_⟩
  · exact Member.leaves_mustHave (yields_any _) fun _ _ _ _ => ⟨id, trivial⟩
  · exact Member.leaves_mayHave (yields_any _) fun _ _ _ _ => ⟨id, trivial⟩
  · exact Member.leaves_mayHave (yields_any _) fun _ _ _ _ => ⟨id, trivial⟩

theorem yields_link : link.Yields fun l => l.key.IsWellFormed := by
  refine .mono (yields_record_cons (R := fun _ => True) rfl (by decide) trivial
    (fun s _ => .bind yields_formKey fun key hkey => .pure ⟨hkey, trivial⟩) ?_) fun l hl => hl.1
  rw [List.forall_mem_singleton]
  exact Member.leaves_mayHave (yields_any _) fun _ _ _ _ => ⟨id, trivial⟩

theorem yields_membership : membership.Yields fun m => m.faction.key.IsWellFormed := by
  refine .mono (yields_record_cons (R := fun _ => True) rfl (by decide) trivial
    (fun s _ => .bind yields_link fun l hl => .pure ⟨hl, trivial⟩) ?_) fun m hm => hm.1
  rw [List.forall_mem_singleton]
  exact Member.leaves_mayHave (yields_any _) fun _ _ _ _ => ⟨id, trivial⟩

structure LinksWellFormed (n : Npc) : Prop where
  factions : ∀ m ∈ n.factions, m.faction.key.IsWellFormed
  keywords : ∀ l ∈ n.keywords, l.key.IsWellFormed
  race : ∀ l ∈ n.race, l.key.IsWellFormed
  combatClass : ∀ l ∈ n.combatClass, l.key.IsWellFormed
  defaultOutfit : ∀ l ∈ n.defaultOutfit, l.key.IsWellFormed
  sleepOutfit : ∀ l ∈ n.sleepOutfit, l.key.IsWellFormed
  combatStyle : ∀ l ∈ n.combatStyle, l.key.IsWellFormed
  voiceType : ∀ l ∈ n.voiceType, l.key.IsWellFormed

theorem LinksWellFormed.links {n : Npc} (h : LinksWellFormed n) :
    ∀ l ∈ n.links, l.2.key.IsWellFormed := by
  intro l hl
  simp only [Npc.links, List.mem_append, List.mem_map, Option.mem_toList] at hl
  rcases hl with ((((((⟨m, hm, rfl⟩ | ⟨l, hm, rfl⟩) | ⟨l, hm, rfl⟩) | ⟨l, hm, rfl⟩) |
    ⟨l, hm, rfl⟩) | ⟨l, hm, rfl⟩) | ⟨l, hm, rfl⟩) | ⟨l, hm, rfl⟩
  · exact h.factions m hm
  · exact h.keywords l hm
  · exact h.race l hm
  · exact h.combatClass l hm
  · exact h.defaultOutfit l hm
  · exact h.sleepOutfit l hm
  · exact h.combatStyle l hm
  · exact h.voiceType l hm

theorem yields_npc : npc.Yields fun n => n.id.IsWellFormed ∧ LinksWellFormed n := by
  refine yields_record_cons rfl (by decide) ⟨?_, ?_, ?_, ?_, ?_, ?_, ?_, ?_⟩ ?_ ?_
  iterate 8 exact fun _ h => nomatch h
  · exact fun s hs => .bind yields_formKey fun key hkey => .pure ⟨hkey, { hs with }⟩
  simp only [List.forall_mem_cons, List.not_mem_nil, false_implies, implies_true, and_true]
  refine ⟨?_, ?_, ?_, ?_, ?_, ?_, ?_, ?_, ?_, ?_, ?_, ?_, ?_, ?_, ?_⟩
  · exact Member.leaves_mayHave (yields_any _) fun _ _ hs _ => ⟨id, { hs with }⟩
  · exact Member.leaves_mayHave (yields_any _) fun _ _ hs _ => ⟨id, { hs with }⟩
  · exact Member.leaves_mustHave (yields_any _) fun _ _ hs _ => ⟨id, { hs with }⟩
  · exact Member.leaves_mayHave (.array yields_membership) fun _ _ hs ha =>
      ⟨id, { hs with factions := ha }⟩
  · exact Member.leaves_mayHave (.array yields_link) fun _ _ hs ha =>
      ⟨id, { hs with keywords := ha }⟩
  · exact Member.leaves_mayHave (.optional yields_link) fun _ _ hs ha =>
      ⟨id, { hs with race := ha }⟩
  · exact Member.leaves_mayHave (.optional yields_link) fun _ _ hs ha =>
      ⟨id, { hs with combatClass := ha }⟩
  · exact Member.leaves_mayHave (.optional yields_link) fun _ _ hs ha =>
      ⟨id, { hs with defaultOutfit := ha }⟩
  · exact Member.leaves_mayHave (.optional yields_link) fun _ _ hs ha =>
      ⟨id, { hs with sleepOutfit := ha }⟩
  · exact Member.leaves_mayHave (.optional yields_link) fun _ _ hs ha =>
      ⟨id, { hs with combatStyle := ha }⟩
  · exact Member.leaves_mayHave (.optional yields_link) fun _ _ hs ha =>
      ⟨id, { hs with voiceType := ha }⟩
  iterate 4 exact Member.leaves_mayHave (yields_any _) fun _ _ hs _ => ⟨id, { hs with }⟩

/-! ## Whole snapshots -/

structure KeysWellFormed (s : Snapshot) : Prop where
  forms : ∀ r ∈ s.forms, r.key.IsWellFormed
  npcs : ∀ n ∈ s.npcs, n.id.IsWellFormed ∧ LinksWellFormed n

theorem yields_snapshot : snapshot.Yields KeysWellFormed := by
  have hstart : KeysWellFormed ⟨[], [], []⟩ := by
    constructor <;> simp
  refine .mono (yields_record (I := fun _ => KeysWellFormed) hstart ?_ fun _ _ _ _ hs => hs) ?_
  · simp only [List.forall_mem_cons, List.not_mem_nil, false_implies, implies_true, and_true]
    refine ⟨fun _ s hs => ?_, fun _ s hs => ?_, fun _ s hs => ?_⟩
    · exact .bind (yields_any _) fun _ _ => .pure { hs with }
    · exact .bind (.array yields_form) fun _ ha => .pure { hs with forms := ha }
    · exact .bind (.array yields_npc) fun _ ha => .pure { hs with npcs := ha }
  · intro s hs
    obtain ⟨_, hI, -⟩ := hs
    exact hI

/-- In a decoded snapshot every record has a key that was read from text. -/
theorem isWellFormed_of_read {s : Snapshot} {t : Text} (h : read t = .ok s) :
    ∀ r ∈ s.records, r.key.IsWellFormed := by
  have hs := property_of_readAll yields_snapshot h
  intro r hr
  rcases List.mem_append.1 hr with hr | hr
  · exact hs.forms r hr
  · obtain ⟨n, hn, hr⟩ := List.mem_flatMap.1 hr
    obtain ⟨hid, hlinks⟩ := hs.npcs n hn
    rcases List.mem_cons.1 hr with rfl | hr
    · exact hid
    · obtain ⟨l, hl, rfl⟩ := List.mem_map.1 hr
      exact hlinks.links l hl

/-- The catalog of a snapshot holds its records and knows its plugins. -/
theorem isOf_catalog (s : Snapshot) :
    Catalog.IsOf s.records s.pluginNames s.game.catalog := by
  have hplugins : ∀ r ∈ s.records, r.key.plugin ∈ s.pluginNames := fun r hr =>
    List.mem_append_right _ (List.mem_map_of_mem hr)
  have hnpc : ∀ n ∈ s.npcs, ∀ r ∈ n.record :: n.links.map linkedForm, r ∈ s.records :=
    fun n hn r hr => List.mem_append_right _ (List.mem_flatMap.2 ⟨n, hn, hr⟩)
  refine Catalog.isOf_foldl (fun n hn c hc => ?_) ?_
  · have hlinks : ∀ l ∈ n.links, linkedForm l ∈ s.records := fun l hl =>
      hnpc n hn _ (List.mem_cons_of_mem _ (List.mem_map_of_mem hl))
    have hsource : n.sourcePlugin ∈ s.pluginNames :=
      List.mem_append_left _ (List.mem_append_right _ (List.mem_map_of_mem hn))
    exact hc.insertNpc (hnpc n hn _ List.mem_cons_self) hlinks hplugins hsource
  · refine Catalog.isOf_foldl (fun r hr c hc => ?_) ?_
    · have hmem : r ∈ s.records := List.mem_append_left _ hr
      exact hc.insert hmem (hplugins r hmem)
    · refine Catalog.isOf_foldl (fun name hname c hc => ?_) Catalog.isOf_empty
      exact hc.addPlugin (List.mem_append_left _ (List.mem_append_left _ hname))

theorem hasWellFormedKeys {s : Snapshot} {t : Text} (h : read t = .ok s) :
    s.game.catalog.HasWellFormedKeys := fun _ r hfind =>
  isWellFormed_of_read h r ((isOf_catalog s).forms r (List.mem_of_find?_eq_some hfind))

end Snapshot
end Wardrobe
