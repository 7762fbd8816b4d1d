import Wardrobe.Proofs.Form.Catalog
/-
What the index of editor ids in a catalog lists, as against the records that are stored.

A record takes the place of the one that its key held, and the names that the key is listed under
stay.  So the index tells what every record that ever came in was called, and it tells what the
stored records are called just when none of them has taken a name away from its key.
-/

namespace Wardrobe
namespace Catalog

variable {c : Catalog} {entered : List Form} {r : Form} {key : FormKey} {name e : Text}
  {kind : Form.Kind}

/-! ## The records that come in -/

/-- The record at the end of a link comes in unless one with its key has. -/
def enterLink (entered : List Form) (l : Form.Kind × Form.Link) : List Form :=
  if entered.any (·.key.same l.2.key) then entered
  else entered ++ [⟨l.2.key, l.1, l.2.editorId, none⟩]

/-- A character comes in, and then what it points to. -/
def enterNpc (entered : List Form) (npc : Npc) : List Form :=
  npc.links.foldl enterLink (entered ++ [npc.record])

/-- All records that come into a catalog, in order: the given ones, and the characters with what
they point to. -/
def enteredOf (forms : List Form) (npcs : List Npc) : List Form := npcs.foldl enterNpc forms

/-- The last record of a key that came in. -/
def lastEntered? (entered : List Form) (key : FormKey) : Option Form :=
  entered.reverse.find? fun r => r.key.same key

/-- The catalog stores the last record of each key, and lists each key once under each name that a
record of it came in with. -/
structure Indexes (c : Catalog) (entered : List Form) : Prop where
  find : ∀ key, c.find? key = lastEntered? entered key
  apart : c.forms.Pairwise fun a b => a.key.same b.key = false
  listed : ∀ name key, (∃ k, (name, k) ∈ c.names ∧ k.same key = true) ↔
    ∃ r ∈ entered, r.key.same key = true ∧ ∃ e ∈ r.editorId, Text.lower e = name
  once : c.names.Pairwise fun a b => a.1 = b.1 → a.2.same b.2 = false
  plugins : ∀ r ∈ entered, c.knowsPlugin r.key.plugin = true

/-! ## Storing a record -/

theorem forms_addPlugin (c : Catalog) (name : Text) : (c.addPlugin name).forms = c.forms := by
  rw [addPlugin]
  split <;> rfl

theorem names_addPlugin (c : Catalog) (name : Text) : (c.addPlugin name).names = c.names := by
  rw [addPlugin]
  split <;> rfl

theorem knowsPlugin_addPlugin {other : Text} : (c.addPlugin name).knowsPlugin other = true ↔
    c.knowsPlugin other = true ∨ Text.sameAscii name other = true := by
  rw [addPlugin]
  split
  next hknown =>
    refine ⟨.inl, fun h => h.elim id fun hsame => ?_⟩
    rwa [knowsPlugin, ← Text.sameAscii_iff.1 hsame]
  next =>
    rw [knowsPlugin, knowsPlugin, Text.sameAscii_iff]
    simp only [List.contains_iff_mem, List.mem_append, List.mem_singleton]
    exact or_congr_right eq_comm

theorem find?_replace (c : Catalog) (r : Form) (key : FormKey) :
    (c.forms.filter (fun other => !other.key.same r.key) ++ [r]).find? (·.key.same key) =
      if r.key.same key then some r else c.find? key := by
  rw [find?, List.find?_append, List.find?_filter]
  split
  next hsame =>
    have hnone : c.forms.find?
        (fun other => !other.key.same r.key && other.key.same key) = none := by
      refine List.find?_eq_none.2 fun other _ hother => ?_
      obtain ⟨hapart, hkey⟩ := Bool.and_eq_true_iff.1 hother
      rw [FormKey.same_trans hkey ((FormKey.same_comm _ _).trans hsame)] at hapart
      cases hapart
    simp [hnone, hsame]
  next hother =>
    have htest : ∀ other : Form,
        (!other.key.same r.key && other.key.same key) = other.key.same key := by
      intro other
      by_cases hkey : other.key.same key = true
      · have hapart : other.key.same r.key ≠ true := fun hsame =>
          hother (FormKey.same_trans ((FormKey.same_comm _ _).trans hsame) hkey)
        simp [hkey, hapart]
      · simp [hkey]
    simp [htest, hother]

theorem lastEntered?_concat (entered : List Form) (r : Form) (key : FormKey) :
    lastEntered? (entered ++ [r]) key =
      if r.key.same key then some r else lastEntered? entered key := by
  rw [lastEntered?, List.reverse_concat, List.find?_cons]
  split
  next hsame => rw [if_pos hsame]
  next hother => rw [hother]; rfl

/-- A key is listed under a new name, unless it is there already. -/
theorem listed_addName {other : FormKey} :
    (∃ k, (name, k) ∈ (c.addName e key).names ∧ k.same other = true) ↔
      (∃ k, (name, k) ∈ c.names ∧ k.same other = true) ∨
        Text.lower e = name ∧ key.same other = true := by
  obtain ⟨hold, hnew, k₀, hk₀, hsame₀⟩ := names_addName c e key
  constructor
  · rintro ⟨k, hk, hsame⟩
    rcases hnew _ hk with hk | hk
    · exact .inl ⟨k, hk, hsame⟩
    · obtain ⟨rfl, rfl⟩ := Prod.mk.inj hk
      exact .inr ⟨rfl, hsame⟩
  · rintro (⟨k, hk, hsame⟩ | ⟨rfl, hsame⟩)
    · exact ⟨k, hold _ hk, hsame⟩
    · exact ⟨k₀, hk₀, FormKey.same_trans hsame₀ hsame⟩

theorem once_addName (h : c.names.Pairwise fun a b => a.1 = b.1 → a.2.same b.2 = false) :
    (c.addName e key).names.Pairwise fun a b => a.1 = b.1 → a.2.same b.2 = false := by
  rw [addName]
  dsimp only
  split
  · exact h
  next hnew =>
    refine List.pairwise_append.2 ⟨h, List.pairwise_singleton _ _, fun a ha b hb hname => ?_⟩
    obtain rfl := List.mem_singleton.1 hb
    have hapart := List.any_eq_false.1 (Bool.not_eq_true _ ▸ hnew) a ha
    simpa [hname] using hapart

/-- What storing a record does to the names. -/
theorem names_insert (c : Catalog) (r : Form) : (c.insert r).names =
    (r.editorId.elim c fun e => c.addName e r.key).names := by
  rw [insert]
  cases r.editorId with
  | none => exact names_addPlugin c r.key.plugin
  | some e =>
    dsimp only [Option.elim_some]
    rw [addName, addName]
    dsimp only
    rw [names_addPlugin]
    split
    · exact names_addPlugin c r.key.plugin
    · rfl

theorem forms_insert (c : Catalog) (r : Form) : (c.insert r).forms =
    c.forms.filter (fun other => !other.key.same r.key) ++ [r] := by
  rw [insert]
  cases r.editorId with
  | none => simp only [forms_addPlugin]
  | some e => simp only [forms_addName, forms_addPlugin]

theorem find?_insert (c : Catalog) (r : Form) (key : FormKey) :
    (c.insert r).find? key = if r.key.same key then some r else c.find? key := by
  rw [find?, forms_insert, find?_replace]

theorem apart_insert (h : c.forms.Pairwise fun a b => a.key.same b.key = false) :
    (c.insert r).forms.Pairwise fun a b => a.key.same b.key = false := by
  rw [forms_insert]
  refine List.pairwise_append.2 ⟨h.filter _, List.pairwise_singleton _ _, fun a ha b hb => ?_⟩
  obtain rfl := List.mem_singleton.1 hb
  exact Bool.not_eq_true' _ ▸ (List.mem_filter.1 ha).2

theorem knowsPlugin_insert {other : Text} : (c.insert r).knowsPlugin other = true ↔
    c.knowsPlugin other = true ∨ Text.sameAscii r.key.plugin other = true := by
  have hplugins : (c.insert r).plugins = (c.addPlugin r.key.plugin).plugins := by
    rw [insert]
    cases r.editorId with
    | none => rfl
    | some e => exact plugins_addName _ e r.key
  rw [knowsPlugin, hplugins]
  exact knowsPlugin_addPlugin

/-! ## Building a catalog -/

theorem Indexes.addPlugin (h : c.Indexes entered) (name : Text) :
    (c.addPlugin name).Indexes entered where
  find key := by rw [find?, forms_addPlugin]; exact h.find key
  apart := by rw [forms_addPlugin]; exact h.apart
  listed := by rw [names_addPlugin]; exact h.listed
  once := by rw [names_addPlugin]; exact h.once
  plugins r hr := knowsPlugin_addPlugin.2 (.inl (h.plugins r hr))

/-- A record that is stored is one more that has come in. -/
theorem Indexes.insert (h : c.Indexes entered) (r : Form) :
    (c.insert r).Indexes (entered ++ [r]) where
  find key := by rw [find?_insert, lastEntered?_concat, h.find]
  apart := apart_insert h.apart
  listed name key := by
    simp only [List.mem_append, List.mem_singleton, or_and_right, exists_or, exists_eq_left,
      ← h.listed, names_insert]
    cases r.editorId with
    | none => simp
    | some e => simp [listed_addName, and_comm]
  once := by
    rw [names_insert]
    cases r.editorId with
    | none => exact h.once
    | some e => exact once_addName h.once
  plugins other hother := by
    rcases List.mem_append.1 hother with hother | hother
    · exact knowsPlugin_insert.2 (.inl (h.plugins other hother))
    · rw [List.mem_singleton.1 hother]
      exact knowsPlugin_insert.2 (.inr (Text.sameAscii_refl _))

theorem any_eq_isSome_lastEntered? (entered : List Form) (key : FormKey) :
    entered.any (·.key.same key) = (lastEntered? entered key).isSome := by
  rw [Bool.eq_iff_iff]
  simp [lastEntered?]

theorem Indexes.insertLink (h : c.Indexes entered) (l : Form.Kind × Form.Link) :
    (c.insertLink l.1 l.2).Indexes (enterLink entered l) := by
  rw [Catalog.insertLink, enterLink, any_eq_isSome_lastEntered?, ← h.find]
  cases c.find? l.2.key with
  | some _ => exact h
  | none => exact h.insert _

theorem Indexes.foldl {step : Catalog → α → Catalog} (enter : List Form → α → List Form)
    (hstep : ∀ c entered a, Indexes c entered → Indexes (step c a) (enter entered a)) (as : List α)
    (h : c.Indexes entered) : (as.foldl step c).Indexes (as.foldl enter entered) := by
  induction as generalizing c entered with
  | nil => exact h
  | cons a rest ih => exact ih (hstep c entered a h)

theorem indexes_empty : empty.Indexes [] := by
  constructor <;> simp [empty, find?, lastEntered?]

/-- A catalog stores and lists what came into it, in the order in which it came. -/
theorem indexes_ofRecords (forms : List Form) (npcs : List Npc) (plugins : List Text) :
    (ofRecords forms npcs plugins).Indexes (enteredOf forms npcs) := by
  have hplugins : (plugins.foldl addPlugin empty).Indexes [] := by
    have h := indexes_empty.foldl (fun entered _ => entered)
      (fun _ _ name h => h.addPlugin name) plugins
    rwa [List.foldl_fixed] at h
  have hforms : (forms.foldl insert (plugins.foldl addPlugin empty)).Indexes forms := by
    have h := hplugins.foldl (fun entered r => entered ++ [r])
      (fun _ _ r h => h.insert r) forms
    rwa [List.foldl_append_eq_append, ← List.flatMap_def, List.flatMap_singleton',
      List.nil_append] at h
  refine hforms.foldl enterNpc (fun c entered npc h => ?_) npcs
  exact ((h.insert npc.record).addPlugin npc.sourcePlugin).foldl enterLink
    (fun _ _ l h => h.insertLink l) npc.links

/-! ## What the index tells of the stored records -/

theorem Indexes.find?_of_mem (h : c.Indexes entered) (hr : r ∈ c.forms)
    (hsame : r.key.same key = true) : c.find? key = some r := by
  obtain ⟨before, after, hforms⟩ := List.append_of_mem hr
  have hbefore : ∀ other ∈ before, ¬ other.key.same key = true := by
    intro other hother hkey
    have hapart := (List.pairwise_append.1 (hforms ▸ h.apart)).2.2 other hother r
      List.mem_cons_self
    rw [FormKey.same_trans hkey ((FormKey.same_comm _ _).trans hsame)] at hapart
    cases hapart
  rw [find?, hforms, List.find?_append, List.find?_eq_none.2 hbefore,
    List.find?_cons_of_pos (l := after) hsame, Option.none_or]

theorem Indexes.mem_entered (h : c.Indexes entered) (hr : r ∈ c.forms) : r ∈ entered := by
  have hlast := h.find r.key
  rw [h.find?_of_mem hr (FormKey.same_refl _), lastEntered?] at hlast
  exact List.mem_reverse.1 (List.mem_of_find?_eq_some hlast.symm)

/-- The index tells of a key what its stored record is called. -/
def TellsOwnNames (c : Catalog) : Prop :=
  ∀ name key, (name, key) ∈ c.names →
    ∃ r ∈ c.forms, r.key.same key = true ∧ ∃ own ∈ r.editorId, Text.lower own = name

/-- No record takes away a name that its key came in with. -/
def KeepsNames (entered : List Form) : Prop :=
  ∀ r ∈ entered, ∀ e ∈ r.editorId,
    ∃ last ∈ lastEntered? entered r.key, ∃ own ∈ last.editorId, Text.lower own = Text.lower e

theorem Indexes.tellsOwnNames_iff (h : c.Indexes entered) :
    c.TellsOwnNames ↔ KeepsNames entered := by
  constructor
  · intro htells r hr e he
    obtain ⟨key, hkey, hsame⟩ := (h.listed _ r.key).2 ⟨r, hr, FormKey.same_refl _, e, he, rfl⟩
    obtain ⟨stored, hstored, hown⟩ := htells _ key hkey
    refine ⟨stored, ?_, hown.2⟩
    rw [← h.find]
    exact h.find?_of_mem hstored (FormKey.same_trans hown.1 hsame)
  · intro hkeeps name key hkey
    obtain ⟨r, hr, hsame, e, he, rfl⟩ := (h.listed name key).1 ⟨key, hkey, FormKey.same_refl _⟩
    obtain ⟨last, hlast, hown⟩ := hkeeps r hr e he
    rw [← h.find, find?_congr hsame] at hlast
    exact ⟨last, List.mem_of_find?_eq_some hlast, same_of_find? hlast, hown⟩

theorem countP_eq_one {l : List α} {p : α → Bool} (hsome : ∃ a ∈ l, p a = true)
    (hpair : l.Pairwise fun a b => ¬ (p a = true ∧ p b = true)) : l.countP p = 1 := by
  obtain ⟨a, ha, hpa⟩ := hsome
  obtain ⟨before, after, rfl⟩ := List.append_of_mem ha
  obtain ⟨-, hafter, hbefore⟩ := List.pairwise_append.1 hpair
  have hnone : before.countP p = 0 := List.countP_eq_zero.2 fun b hb hpb =>
    hbefore b hb a List.mem_cons_self ⟨hpb, hpa⟩
  have hrest : after.countP p = 0 := List.countP_eq_zero.2 fun b hb hpb =>
    (List.pairwise_cons.1 hafter).1 b hb ⟨hpa, hpb⟩
  rw [List.countP_append, List.countP_cons_of_pos hpa, hnone, hrest]

/-- A stored record is listed once under its own name. -/
theorem Indexes.countP_names (h : c.Indexes entered) (hr : r ∈ c.forms) (he : e ∈ r.editorId) :
    c.names.countP (fun n => n.1 == Text.lower e && n.2.same r.key) = 1 := by
  refine countP_eq_one ?_ (h.once.imp ?_)
  · obtain ⟨key, hkey, hsame⟩ :=
      (h.listed _ r.key).2 ⟨r, h.mem_entered hr, FormKey.same_refl _, e, he, rfl⟩
    exact ⟨_, hkey, by simp [hsame]⟩
  · rintro ⟨name₁, key₁⟩ ⟨name₂, key₂⟩ hapart
    simp only [Bool.and_eq_true, beq_iff_eq, not_and]
    rintro ⟨rfl, hsame₁⟩ rfl hsame₂
    rw [FormKey.same_trans hsame₁ ((FormKey.same_comm _ _).trans hsame₂)] at hapart
    cases hapart rfl

/-- Every stored record is listed once under its own name, its plugin is known, and the index tells
the stored records' own names just when no record that came in has taken one away from its key. -/
theorem index_agrees (forms : List Form) (npcs : List Npc) (plugins : List Text) :
    ((ofRecords forms npcs plugins).TellsOwnNames ↔ KeepsNames (enteredOf forms npcs)) ∧
    ∀ r ∈ (ofRecords forms npcs plugins).forms,
      (∀ own ∈ r.editorId, (ofRecords forms npcs plugins).names.countP
        (fun n => n.1 == Text.lower own && n.2.same r.key) = 1) ∧
      (ofRecords forms npcs plugins).knowsPlugin r.key.plugin = true := by
  have h := indexes_ofRecords forms npcs plugins
  exact ⟨h.tellsOwnNames_iff, fun r hr =>
    ⟨fun own hown => h.countP_names hr hown, h.plugins r (h.mem_entered hr)⟩⟩

/-- A record and the one that takes its place. -/
def renamedArmor : List Form :=
  [⟨⟨"Armors.esp", 1⟩, .outfit, some "RebelArmor", none⟩,
    ⟨⟨"Armors.esp", 1⟩, .outfit, some "KingArmor", none⟩]

/-- The key stays listed under the name that its first record had, and is found by it. -/
theorem renamedArmor_still_listed :
    ¬ (ofRecords renamedArmor [] []).TellsOwnNames ∧
      (ofRecords renamedArmor [] []).resolveAs .outfit "RebelArmor" =
        some (.form .outfit ⟨"Armors.esp", 1⟩ (some "KingArmor")) := by
  refine ⟨fun htells => ?_, by decide +kernel⟩
  obtain ⟨r, hr, -, own, hown, hname⟩ :=
    htells "rebelarmor" ⟨"Armors.esp", 1⟩ (by decide +kernel)
  have hking : ∀ r ∈ (ofRecords renamedArmor [] []).forms, r.editorId = some "KingArmor" := by
    decide +kernel
  rw [hking r hr] at hown
  obtain rfl := Option.some.inj hown
  exact absurd hname (by decide +kernel)

end Catalog
end Wardrobe
