import Mathlib.Data.List.Basic
import Wardrobe.Form.Catalog
import Wardrobe.Proofs.Form.Key
/-
What a catalog holds, and that what it gives out is found in it again.

A reference that came out of a catalog is found there again under the texts it is written with: a
plugin under its name, a record under its key in either spelling, and under its editor id where no
other record was ever stored with that.
-/

namespace Wardrobe
namespace Catalog

variable {c : Catalog} {records : List Form} {plugins : List Text} {r : Form} {ref : Reference}
  {kind : Form.Kind} {key : FormKey} {name literal e : Text}

/-! ## What is stored -/

/-- The catalog was built from these records and plugin names. -/
structure IsOf (records : List Form) (plugins : List Text) (c : Catalog) : Prop where
  forms : ∀ r ∈ c.forms, r ∈ records
  names : ∀ n ∈ c.names, ∃ r ∈ records, ∃ e ∈ r.editorId, n = (Text.lower e, r.key)
  listed : ∀ r ∈ c.forms, ∀ e ∈ r.editorId, ∃ key,
    (Text.lower e, key) ∈ c.names ∧ key.same r.key = true
  plugins : ∀ p ∈ c.plugins, ∃ name ∈ plugins, p = Text.asciiLower name

theorem isOf_empty : IsOf records plugins .empty := by
  constructor <;> simp [empty]

theorem isOf_foldl {step : Catalog → α → Catalog} {as : List α}
    (hstep : ∀ a ∈ as, ∀ c, IsOf records plugins c → IsOf records plugins (step c a))
    (h : IsOf records plugins c) : IsOf records plugins (as.foldl step c) := by
  induction as generalizing c with
  | nil => exact h
  | cons a rest ih =>
    obtain ⟨ha, hrest⟩ := List.forall_mem_cons.1 hstep
    exact ih hrest (ha c h)

theorem IsOf.addPlugin (h : IsOf records plugins c) (hname : name ∈ plugins) :
    IsOf records plugins (c.addPlugin name) := by
  rw [Catalog.addPlugin]
  split
  · exact h
  · refine { h with plugins := fun p hp => ?_ }
    rcases List.mem_append.1 hp with hp | hp
    · exact h.plugins p hp
    · exact ⟨name, hname, List.mem_singleton.1 hp⟩

theorem forms_addName (c : Catalog) (e : Text) (key : FormKey) :
    (c.addName e key).forms = c.forms := by
  rw [addName]
  dsimp only
  split <;> rfl

theorem plugins_addName (c : Catalog) (e : Text) (key : FormKey) :
    (c.addName e key).plugins = c.plugins := by
  rw [addName]
  dsimp only
  split <;> rfl

theorem names_addName (c : Catalog) (e : Text) (key : FormKey) :
    (∀ n ∈ c.names, n ∈ (c.addName e key).names) ∧
      (∀ n ∈ (c.addName e key).names, n ∈ c.names ∨ n = (Text.lower e, key)) ∧
      ∃ k, (Text.lower e, k) ∈ (c.addName e key).names ∧ k.same key = true := by
  rw [addName]
  dsimp only
  split
  next hthere =>
    obtain ⟨⟨name, k⟩, hmem, hk⟩ := List.any_eq_true.1 hthere
    obtain ⟨hname, hsame⟩ : name = Text.lower e ∧ k.same key = true := by simpa using hk
    exact ⟨fun _ hn => hn, fun _ hn => Or.inl hn, k, hname ▸ hmem, hsame⟩
  next =>
    refine ⟨fun n hn => List.mem_append_left _ hn, fun n hn => ?_, key, ?_, FormKey.same_refl key⟩
    · exact (List.mem_append.1 hn).imp_right List.mem_singleton.1
    · exact List.mem_append_right _ List.mem_cons_self

theorem IsOf.addName (h : IsOf records plugins c) (hr : r ∈ records) (he : e ∈ r.editorId) :
    IsOf records plugins (c.addName e r.key) := by
  obtain ⟨hold, hnew, -⟩ := names_addName c e r.key
  constructor
  · rw [forms_addName]
    exact h.forms
  · intro n hn
    rcases hnew n hn with hn | hn
    · exact h.names n hn
    · exact ⟨r, hr, e, he, hn⟩
  · rw [forms_addName]
    intro f hf e' he'
    obtain ⟨key, hkey, hsame⟩ := h.listed f hf e' he'
    exact ⟨key, hold _ hkey, hsame⟩
  · rw [plugins_addName]
    exact h.plugins

/-- A record whose editor id is listed takes the place of what its key held. -/
theorem IsOf.replace (h : IsOf records plugins c) (hr : r ∈ records)
    (hlisted : ∀ e ∈ r.editorId, ∃ key, (Text.lower e, key) ∈ c.names ∧ key.same r.key = true) :
    IsOf records plugins
      { c with forms := c.forms.filter (fun other => !other.key.same r.key) ++ [r] } := by
  have hforms : ∀ f ∈ c.forms.filter (fun other => !other.key.same r.key) ++ [r],
      f ∈ c.forms ∨ f = r := by
    intro f hf
    exact (List.mem_append.1 hf).imp (fun hf => (List.mem_filter.1 hf).1) List.mem_singleton.1
  refine { h with forms := fun f hf => ?_, listed := fun f hf => ?_ }
  · rcases hforms f hf with hf | rfl
    · exact h.forms f hf
    · exact hr
  · rcases hforms f hf with hf | rfl
    · exact h.listed f hf
    · exact hlisted

theorem IsOf.insert (h : IsOf records plugins c) (hr : r ∈ records)
    (hplugin : r.key.plugin ∈ plugins) : IsOf records plugins (c.insert r) := by
  have hknown := h.addPlugin hplugin
  rw [Catalog.insert]
  cases hid : r.editorId with
  | none =>
    refine hknown.replace hr fun e he => ?_
    rw [hid] at he
    cases he
  | some editorId =>
    refine (hknown.addName hr hid).replace hr fun e he => ?_
    obtain rfl := Option.some.inj (hid.symm.trans he)
    exact (names_addName _ _ _).2.2

theorem IsOf.insertLink {link : Form.Link} (h : IsOf records plugins c)
    (hr : ⟨link.key, kind, link.editorId, none⟩ ∈ records)
    (hplugin : link.key.plugin ∈ plugins) : IsOf records plugins (c.insertLink kind link) := by
  rw [Catalog.insertLink]
  split
  · exact h
  · exact h.insert hr hplugin

theorem IsOf.insertNpc {npc : Npc} (h : IsOf records plugins c) (hr : npc.record ∈ records)
    (hlinks : ∀ l ∈ npc.links, ⟨l.2.key, l.1, l.2.editorId, none⟩ ∈ records)
    (hplugins : ∀ r ∈ records, r.key.plugin ∈ plugins) (hsource : npc.sourcePlugin ∈ plugins) :
    IsOf records plugins (c.insertNpc npc) := by
  have hstart : IsOf records plugins ((c.insert npc.record).addPlugin npc.sourcePlugin) :=
    (h.insert hr (hplugins _ hr)).addPlugin hsource
  exact isOf_foldl (fun l hl c hc => hc.insertLink (hlinks l hl) (hplugins _ (hlinks l hl))) hstart

/-! ## Looking up -/

theorem find?_congr {a b : FormKey} (h : a.same b = true) : c.find? a = c.find? b := by
  have hsame : ∀ r : Form, r.key.same a = r.key.same b := by
    intro r
    rw [Bool.eq_iff_iff]
    constructor
    · exact fun ha => FormKey.same_trans ha h
    · exact fun hb => FormKey.same_trans hb (by rwa [FormKey.same_comm])
  simp [find?, hsame]

theorem same_of_find? (h : c.find? key = some r) : r.key.same key = true := by
  simpa using List.find?_some h

theorem find?_key (h : c.find? key = some r) : c.find? r.key = some r := by
  rw [find?_congr (same_of_find? h), h]

/-- Every key in the catalog can have been read from text. -/
def HasWellFormedKeys (c : Catalog) : Prop :=
  ∀ key r, c.find? key = some r → r.key.IsWellFormed

/-- A reference that the catalog can give out. -/
inductive Knows (c : Catalog) : Reference → Prop
  | form (r : Form) (hfind : c.find? r.key = some r) : Knows c r.reference
  | plugin (name : Text) (hpiece : Text.IsPiece name) (hfile : isPluginFile name = true)
      (hknown : c.knowsPlugin name = true) : Knows c (.plugin name)

theorem knows_of_lookUp {stage : LookUp} (hpiece : Text.IsPiece literal)
    (h : c.lookUp literal stage = some ref) : c.Knows ref := by
  cases stage with
  | plugin =>
    rw [lookUp, pluginCalled] at h
    split at h
    next hplugin =>
      obtain ⟨hfile, hknown⟩ := Bool.and_eq_true_iff.1 hplugin
      obtain rfl := Option.some.inj h
      exact .plugin literal hpiece hfile hknown
    next => cases h
  | key kind =>
    obtain ⟨key, -, h⟩ := Option.bind_eq_some_iff.1 h
    obtain ⟨r, hr, h⟩ := Option.bind_eq_some_iff.1 h
    split at h
    · obtain rfl := Option.some.inj h
      exact .form r (find?_key hr)
    · cases h
  | editorId kind =>
    obtain ⟨r, hr, rfl⟩ := Option.map_eq_some_iff.1 h
    obtain ⟨key, -, hkey⟩ := List.mem_filterMap.1 (List.mem_of_find?_eq_some hr)
    exact .form r (find?_key hkey)

theorem knows_of_resolveBy {stages : List LookUp} (h : c.resolveBy stages literal = some ref) :
    c.Knows ref := by
  rw [resolveBy] at h
  split at h
  · cases h
  next hne =>
    obtain ⟨stage, -, hfound⟩ := List.exists_of_findSome?_eq_some h
    exact knows_of_lookUp (Text.isPiece_trim (by simpa using hne)) hfound

theorem resolveBy_of_isPiece (stages : List LookUp) (h : Text.IsPiece literal) :
    c.resolveBy stages literal = stages.findSome? (c.lookUp literal) := by
  rw [resolveBy, h.trim_eq, if_neg (by simpa using h.ne_nil)]

/-- A plugin is called what the literal says. -/
theorem plugin_of_resolveBy {stages : List LookUp}
    (h : c.resolveBy stages literal = some (.plugin name)) : name = Text.trim literal := by
  rw [resolveBy] at h
  split at h
  · cases h
  obtain ⟨stage, -, hfound⟩ := List.exists_of_findSome?_eq_some h
  cases stage with
  | plugin =>
    rw [lookUp, pluginCalled] at hfound
    split at hfound
    · exact (Reference.plugin.inj (Option.some.inj hfound)).symm
    · cases hfound
  | key kind =>
    obtain ⟨key, -, hfound⟩ := Option.bind_eq_some_iff.1 hfound
    obtain ⟨r, -, hfound⟩ := Option.bind_eq_some_iff.1 hfound
    split at hfound <;> cases hfound
  | editorId kind =>
    obtain ⟨r, -, hfound⟩ := Option.map_eq_some_iff.1 hfound
    cases hfound

/-- A plugin is found under its name. -/
theorem resolve_plugin (h : c.Knows (.plugin name)) : c.resolve name = some (.plugin name) := by
  generalize hplugin : Reference.plugin name = ref at h
  cases h with
  | form r hfind => cases hplugin
  | plugin name' hpiece hfile hknown =>
    obtain rfl := Reference.plugin.inj hplugin
    have hcalled : c.pluginCalled name = some (.plugin name) := by
      simp [pluginCalled, hfile, hknown]
    rw [resolve, resolveBy_of_isPiece _ hpiece, untypedStages,
      List.findSome?_cons_of_isSome (by rw [lookUp, hcalled]; rfl), lookUp, hcalled]

/-- A record is found under any text that is read as its key and is no plugin name. -/
theorem resolve_of_read? (hpiece : Text.IsPiece literal)
    (hread : FormKey.read? literal = some r.key) (hfind : c.find? r.key = some r)
    (hplugin : c.knowsPlugin literal = false) : c.resolve literal = some r.reference := by
  have hcalled : c.pluginCalled literal = none := by simp [pluginCalled, hplugin]
  have hat : c.formAt none literal = some r.reference := by simp [formAt, hread, hfind]
  rw [resolve, resolveBy_of_isPiece _ hpiece, untypedStages,
    List.findSome?_cons_of_isNone (by rw [lookUp, hcalled]; rfl),
    List.findSome?_cons_of_isSome (by rw [lookUp, hat]; rfl), lookUp, hat]

theorem resolveAs_of_read? (hpiece : Text.IsPiece literal)
    (hread : FormKey.read? literal = some r.key) (hfind : c.find? r.key = some r) :
    c.resolveAs r.kind literal = some r.reference := by
  have hat : c.formAt (some r.kind) literal = some r.reference := by simp [formAt, hread, hfind]
  rw [resolveAs, resolveBy_of_isPiece _ hpiece, typedStages,
    List.findSome?_cons_of_isSome (by rw [lookUp, hat]; rfl), lookUp, hat]

/-! ## Editor ids -/

/-- The editor id is listed for the record and for no other one. -/
structure NamesOnly (c : Catalog) (e : Text) (r : Form) : Prop where
  find : c.find? r.key = some r
  listed : ∃ key, key ∈ c.keysNamed e
  alone : ∀ key ∈ c.keysNamed e, key.same r.key = true

theorem NamesOnly.formCalled_eq (h : c.NamesOnly e r) (kind : Form.Kind) :
    c.formCalled kind e = if r.kind = kind then some r.reference else none := by
  have hrecords : ∀ x ∈ (c.keysNamed e).filterMap c.find?, x = r := by
    intro x hx
    obtain ⟨key, hkey, hfound⟩ := List.mem_filterMap.1 hx
    rw [find?_congr (h.alone key hkey), h.find] at hfound
    exact (Option.some.inj hfound).symm
  obtain ⟨key, hkey⟩ := h.listed
  have hmem : r ∈ (c.keysNamed e).filterMap c.find? :=
    List.mem_filterMap.2 ⟨key, hkey, by rw [find?_congr (h.alone key hkey), h.find]⟩
  rw [formCalled]
  by_cases hkind : r.kind = kind
  · have hsome : (((c.keysNamed e).filterMap c.find?).find? (·.kind == kind)).isSome = true :=
      List.find?_isSome.2 ⟨r, hmem, by simpa using hkind⟩
    obtain ⟨x, hx⟩ := Option.isSome_iff_exists.1 hsome
    rw [hx, hrecords x (List.mem_of_find?_eq_some hx), if_pos hkind]
    rfl
  · have hnone : ((c.keysNamed e).filterMap c.find?).find? (·.kind == kind) = none := by
      rw [List.find?_eq_none]
      intro x hx
      rw [hrecords x hx]
      simpa using hkind
    rw [hnone, if_neg hkind]
    rfl

/-- A text that can only be an editor id. -/
structure IsPlainName (e : Text) : Prop where
  isPiece : Text.IsPiece e
  dot : '.' ∉ e
  tilde : '~' ∉ e
  bar : '|' ∉ e

theorem IsPlainName.formAt_eq (h : IsPlainName e) (kind : Option Form.Kind) :
    c.formAt kind e = none := by
  rw [formAt, FormKey.read?_eq_none h.tilde h.bar]
  rfl

theorem IsPlainName.pluginCalled_eq (h : IsPlainName e) : c.pluginCalled e = none := by
  have hfile : isPluginFile e = false := by
    by_contra hfile
    exact h.dot (dot_mem_of_isPluginFile (Bool.not_eq_false _ ▸ hfile))
  simp [pluginCalled, hfile]

theorem NamesOnly.resolveAs_eq (h : c.NamesOnly e r) (he : IsPlainName e) :
    c.resolveAs r.kind e = some r.reference := by
  have hcalled := h.formCalled_eq r.kind
  rw [if_pos rfl] at hcalled
  rw [resolveAs, resolveBy_of_isPiece _ he.isPiece, typedStages,
    List.findSome?_cons_of_isNone (by rw [lookUp, he.formAt_eq]; rfl),
    List.findSome?_cons_of_isSome (by rw [lookUp, hcalled]; rfl), lookUp, hcalled]

theorem NamesOnly.resolve_eq (h : c.NamesOnly e r) (he : IsPlainName e) :
    c.resolve e = some r.reference := by
  have hkinds : ∀ kind : Form.Kind, Form.Kind.all.findSome? (fun k =>
      if kind = k then some r.reference else none) = some r.reference := by
    intro kind
    cases kind <;> rfl
  rw [resolve, resolveBy_of_isPiece _ he.isPiece, untypedStages,
    List.findSome?_cons_of_isNone (by rw [lookUp, he.pluginCalled_eq]; rfl),
    List.findSome?_cons_of_isNone (by rw [lookUp, he.formAt_eq]; rfl), List.findSome?_map]
  exact (congrArg (Form.Kind.all.findSome? ·) (funext h.formCalled_eq)).trans (hkinds r.kind)

/-- An editor id that is given to one key only is listed for its record alone. -/
theorem IsOf.namesOnly (h : IsOf records plugins c) (hfind : c.find? r.key = some r)
    (he : e ∈ r.editorId) (halone : ∀ r' ∈ records, ∀ e' ∈ r'.editorId,
      Text.lower e' = Text.lower e → r'.key.same r.key = true) : c.NamesOnly e r := by
  have hmem : r ∈ c.forms := List.mem_of_find?_eq_some hfind
  refine ⟨hfind, ?_, fun key hkey => ?_⟩
  · obtain ⟨key, hkey, -⟩ := h.listed r hmem e he
    exact ⟨key, List.mem_filterMap.2 ⟨_, hkey, by simp⟩⟩
  · obtain ⟨⟨name, k⟩, hn, hk⟩ := List.mem_filterMap.1 hkey
    obtain ⟨r', hr', e', he', heq⟩ := h.names _ hn
    obtain ⟨rfl, rfl⟩ := Prod.mk.inj heq
    obtain ⟨hname, rfl⟩ : Text.lower e' = Text.lower e ∧ r'.key = key := by simpa using hk
    exact halone r' hr' e' he' hname

end Catalog
end Wardrobe
