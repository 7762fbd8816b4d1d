import Mathlib.Data.List.Forall2
import Wardrobe.Proofs.Text.Pieces
import Wardrobe.Rule.Line
/-
What a rule is known by when a line has been read into it.

Each reader is taken apart once, into the steps that must have succeeded.
-/

namespace Wardrobe

theorem bind_eq_ok {x : Except ε α} {f : α → Except ε β} {b : β} :
    (x >>= f) = .ok b ↔ ∃ a, x = .ok a ∧ f a = .ok b := by
  cases x with
  | error e => simp [bind, Except.bind]
  | ok a => simp [bind, Except.bind]

theorem bind_eq_error {x : Except ε α} {f : α → Except ε β} {e : ε} :
    (x >>= f) = .error e ↔ x = .error e ∨ ∃ a, x = .ok a ∧ f a = .error e := by
  cases x with
  | error e' => simp [bind, Except.bind]
  | ok a => simp [bind, Except.bind]

theorem map_eq_ok {x : Except ε α} {f : α → β} {b : β} :
    x.map f = .ok b ↔ ∃ a, x = .ok a ∧ f a = b := by
  cases x <;> simp [Except.map]

theorem mapError_eq_ok {x : Except ε α} {f : ε → δ} {a : α} :
    x.mapError f = .ok a ↔ x = .ok a := by
  cases x <;> simp [Except.mapError]

theorem flatMap_filter_of_nil {f : α → List β} {test : α → Bool} {l : List α}
    (h : ∀ a ∈ l, test a = false → f a = []) : (l.filter test).flatMap f = l.flatMap f := by
  induction l with
  | nil => rfl
  | cons a rest ih =>
    obtain ⟨ha, hrest⟩ := List.forall_mem_cons.1 h
    rw [List.flatMap_cons, ← ih hrest]
    cases htest : test a with
    | true => rw [List.filter_cons_of_pos htest, List.flatMap_cons]
    | false => rw [List.filter_cons_of_neg (by simp [htest]), ha htest, List.nil_append]

theorem forall₂_of_mapM_eq_ok {f : α → Except ε β} {as : List α} {bs : List β}
    (h : as.mapM f = .ok bs) : List.Forall₂ (fun a b => f a = .ok b) as bs := by
  induction as generalizing bs with
  | nil =>
    obtain rfl := Except.ok.inj h
    exact .nil
  | cons a rest ih =>
    rw [List.mapM_cons] at h
    obtain ⟨b, hb, h⟩ := bind_eq_ok.1 h
    obtain ⟨bs, hbs, h⟩ := bind_eq_ok.1 h
    obtain rfl := Except.ok.inj h
    exact .cons hb (ih hbs)

theorem mapM_eq_ok_of_forall₂ {f : α → Except ε β} {as : List α} {bs : List β}
    (h : List.Forall₂ (fun a b => f a = .ok b) as bs) : as.mapM f = .ok bs := by
  induction h with
  | nil => rfl
  | cons hfirst _ ih =>
    rw [List.mapM_cons, hfirst, ih]
    rfl

theorem mapM_append_eq_ok {f : α → Except ε β} {as as' : List α} {bs bs' : List β}
    (h : as.mapM f = .ok bs) (h' : as'.mapM f = .ok bs') :
    (as ++ as').mapM f = .ok (bs ++ bs') := by
  rw [List.mapM_append, h, h']
  rfl

/-- What each step of a fold keeps holds at its end. -/
theorem of_foldlM_eq_ok {P : β → Prop} {f : β → α → Except ε β} {as : List α} {b b' : β}
    (hstep : ∀ a ∈ as, ∀ b b', P b → f b a = .ok b' → P b') (hb : P b)
    (h : as.foldlM f b = .ok b') : P b' := by
  induction as generalizing b with
  | nil =>
    obtain rfl := Except.ok.inj h
    exact hb
  | cons a rest ih =>
    obtain ⟨hfirst, hrest⟩ := List.forall_mem_cons.1 hstep
    rw [List.foldlM_cons] at h
    obtain ⟨next, hnext, h⟩ := bind_eq_ok.1 h
    exact ih hrest (hfirst b next hb hnext) h

theorem mapM_map_eq_ok {read : β → Except ε α} {write : α → β} {as : List α} :
    (as.map write).mapM read = .ok as ↔ ∀ a ∈ as, read (write a) = .ok a := by
  have hsame : List.Forall₂ (fun b a => read b = .ok a) (as.map write) as ↔
      ∀ a ∈ as, read (write a) = .ok a := by
    rw [List.forall₂_map_left_iff, List.forall₂_same]
  exact ⟨fun h => hsame.1 (forall₂_of_mapM_eq_ok h), fun h => mapM_eq_ok_of_forall₂ (hsame.2 h)⟩

/-- A list in text is read back when each of its parts is. -/
theorem mapM_pieces_joined {read : Text → Except ε α} {write : α → Text} {as : List α} {sep : Char}
    (hpiece : ∀ a ∈ as, Text.IsPiece (write a) ∧ sep ∉ write a) :
    (Text.pieces sep (Text.joined [sep] (as.map write))).mapM read = .ok as ↔
      ∀ a ∈ as, read (write a) = .ok a := by
  rw [Text.pieces_joined (List.forall_mem_map.2 hpiece)]
  exact mapM_map_eq_ok

section Forall₂

variable {R : α → β → Prop} {as : List α} {bs : List β} {P : α → Prop} {Q : β → Prop}

theorem exists_of_mem_left {a : α} (h : List.Forall₂ R as bs) (ha : a ∈ as) :
    ∃ b ∈ bs, R a b := by
  induction h with
  | nil => cases ha
  | cons hfirst _ ih =>
    rcases List.mem_cons.1 ha with rfl | ha
    · exact ⟨_, List.mem_cons_self, hfirst⟩
    · obtain ⟨b, hb, hab⟩ := ih ha
      exact ⟨b, List.mem_cons_of_mem _ hb, hab⟩

theorem exists_of_mem_right {b : β} (h : List.Forall₂ R as bs) (hb : b ∈ bs) :
    ∃ a ∈ as, R a b := exists_of_mem_left h.flip hb

theorem forall_mem_congr (h : List.Forall₂ R as bs)
    (hR : ∀ a ∈ as, ∀ b, R a b → (P a ↔ Q b)) : (∀ a ∈ as, P a) ↔ ∀ b ∈ bs, Q b := by
  constructor
  · intro hall b hb
    obtain ⟨a, ha, hab⟩ := exists_of_mem_right h hb
    exact (hR a ha b hab).1 (hall a ha)
  · intro hall a ha
    obtain ⟨b, hb, hab⟩ := exists_of_mem_left h ha
    exact (hR a ha b hab).2 (hall b hb)

theorem exists_mem_congr (h : List.Forall₂ R as bs)
    (hR : ∀ a ∈ as, ∀ b, R a b → (P a ↔ Q b)) : (∃ a ∈ as, P a) ↔ ∃ b ∈ bs, Q b := by
  constructor
  · rintro ⟨a, ha, hP⟩
    obtain ⟨b, hb, hab⟩ := exists_of_mem_left h ha
    exact ⟨b, hb, (hR a ha b hab).1 hP⟩
  · rintro ⟨b, hb, hQ⟩
    obtain ⟨a, ha, hab⟩ := exists_of_mem_right h hb
    exact ⟨a, ha, (hR a ha b hab).2 hQ⟩

/-- Two lists that are related to a third are related to each other. -/
theorem forall₂_of_common {S : γ → β → Prop} {T : α → γ → Prop} {cs : List γ}
    (h : List.Forall₂ R as bs) (h' : List.Forall₂ S cs bs)
    (hT : ∀ a b c, R a b → S c b → T a c) : List.Forall₂ T as cs := by
  induction h generalizing cs with
  | nil =>
    cases h'
    exact .nil
  | cons hfirst _ ih =>
    cases h' with
    | cons hfirst' hrest => exact .cons (hT _ _ _ hfirst hfirst') (ih hrest)

theorem append_of_forall₂ {as' : List α} (h : List.Forall₂ R (as ++ as') bs) :
    ∃ bs₁ bs₂, bs = bs₁ ++ bs₂ ∧ List.Forall₂ R as bs₁ ∧ List.Forall₂ R as' bs₂ := by
  induction as generalizing bs with
  | nil => exact ⟨[], bs, rfl, .nil, h⟩
  | cons a rest ih =>
    obtain ⟨b, bs', hab, hrest, rfl⟩ := List.forall₂_cons_left_iff.1 h
    obtain ⟨bs₁, bs₂, rfl, h₁, h₂⟩ := ih hrest
    exact ⟨b :: bs₁, bs₂, rfl, .cons hab h₁, h₂⟩

end Forall₂

theorem mem_of_mapM_eq_ok {f : α → Except ε β} {as : List α} {bs : List β}
    (h : as.mapM f = .ok bs) : ∀ b ∈ bs, ∃ a ∈ as, f a = .ok b := by
  intro b hb
  obtain ⟨a, ha, hab⟩ := exists_of_mem_right (forall₂_of_mapM_eq_ok h) hb
  exact ⟨a, ha, hab⟩

/-! ## References of one kind -/

namespace Catalog

variable {c : Catalog} {kind : Form.Kind} {literal : Text} {ref : Reference}

theorem kind_of_formAt (h : c.formAt (some kind) literal = some ref) :
    ∃ r : Form, ref = r.reference ∧ r.kind = kind := by
  obtain ⟨key, -, h⟩ := Option.bind_eq_some_iff.1 h
  obtain ⟨r, -, h⟩ := Option.bind_eq_some_iff.1 h
  split at h
  next hkind =>
    refine ⟨r, (Option.some.inj h).symm, ?_⟩
    exact (beq_iff_eq.1 hkind).symm
  next => cases h

theorem kind_of_formCalled (h : c.formCalled kind literal = some ref) :
    ∃ r : Form, ref = r.reference ∧ r.kind = kind := by
  obtain ⟨r, hr, rfl⟩ := Option.map_eq_some_iff.1 h
  exact ⟨r, rfl, by simpa using List.find?_some hr⟩

/-- What a literal names when it has to be of one kind is a record of this kind. -/
theorem form_of_resolveAs (h : c.resolveAs kind literal = some ref) :
    ∃ key editorId, ref = .form kind key editorId := by
  rw [resolveAs, resolveBy] at h
  split at h
  · cases h
  · obtain ⟨stage, hstage, hfound⟩ := List.exists_of_findSome?_eq_some h
    have hform : ∃ r : Form, ref = r.reference ∧ r.kind = kind := by
      rcases List.mem_cons.1 hstage with rfl | hstage
      · exact kind_of_formAt hfound
      · obtain rfl := List.mem_singleton.1 hstage
        exact kind_of_formCalled hfound
    obtain ⟨r, rfl, rfl⟩ := hform
    exact ⟨r.key, r.editorId, rfl⟩

end Catalog

/-- The rule is of the format, and if it sets an outfit, then that of a record. -/
structure Rule.IsReadAs (dialect : Dialect) (r : Rule) : Prop where
  dialect : r.dialect = dialect
  outfit : ∀ slot ref, r.target = .outfit slot ref →
    ∃ key editorId, ref = .form .outfit key editorId

theorem Rule.IsReadAs.target_of_setsSlot {dialect : Dialect} {r : Rule} {slot : Slot}
    (h : r.IsReadAs dialect) (hslot : r.setsSlot slot = true) :
    ∃ key editorId, r.target = .outfit slot (.form .outfit key editorId) := by
  cases htarget : r.target with
  | keyword tag =>
    rw [Rule.setsSlot, htarget] at hslot
    cases hslot
  | outfit own ref =>
    obtain ⟨key, editorId, rfl⟩ := h.outfit own ref htarget
    have hown : own = slot := by simpa [Rule.setsSlot, htarget, Target.slot?] using hslot
    exact ⟨key, editorId, by rw [hown]⟩

namespace Spid

variable {c : Catalog} {n : Nat} {raw t value : Text} {type : EntryKind} {r : Rule}
  {target : Target}

theorem outfit_of_readTarget (h : readTarget c type t = .ok target) :
    ∀ slot ref, target = .outfit slot ref → ∃ key editorId, ref = .form .outfit key editorId := by
  intro slot ref htarget
  subst htarget
  cases type with
  | keyword => cases h
  | outfit own =>
    simp only [readTarget] at h
    split at h
    next ref' hresolve =>
      obtain ⟨-, rfl⟩ := Target.outfit.inj (Except.ok.inj h)
      exact Catalog.form_of_resolveAs hresolve
    next => cases h

/-- What the fields of an entry were read as, where a rule came out of them. -/
structure IsAssembled (c : Catalog) (n : Nat) (raw : Text) (type : EntryKind) (value : Text)
    (r : Rule) : Prop where
  dialect : r.dialect = .spid
  lineNumber : r.lineNumber = n
  raw : r.raw = raw
  target : ∃ literal, field? (splitFields value) 0 = some literal ∧
    readTarget c type literal = .ok r.target
  strings : readOr .empty readStrings (field? (splitFields value) 1) = .ok r.filters.strings
  forms : readOr .empty (readForms c) (field? (splitFields value) 2) = .ok r.filters.forms
  levels : readOr [] readLevels (field? (splitFields value) 3) = .ok r.filters.levels
  traits : readOr .empty readTraits (field? (splitFields value) 4) = .ok r.filters.traits
  extra : field? (splitFields value) 5 = r.extra
  chance : readOr none (fun t => (readChance t).map some) (field? (splitFields value) 6) =
    .ok r.chance

theorem isAssembled_of_assemble (h : assemble c n raw type value = .ok r) :
    IsAssembled c n raw type value r := by
  rw [assemble] at h
  dsimp only at h
  split at h
  · cases h
  split at h
  · cases h
  next literal hliteral =>
    obtain ⟨target, htarget, h⟩ := bind_eq_ok.1 h
    obtain ⟨strings, hstrings, h⟩ := bind_eq_ok.1 h
    obtain ⟨forms, hforms, h⟩ := bind_eq_ok.1 h
    obtain ⟨levels, hlevels, h⟩ := bind_eq_ok.1 h
    obtain ⟨traits, htraits, h⟩ := bind_eq_ok.1 h
    obtain ⟨chance, hchance, h⟩ := bind_eq_ok.1 h
    obtain rfl := Except.ok.inj h
    exact ⟨rfl, rfl, rfl, ⟨literal, hliteral, htarget⟩, hstrings, hforms, hlevels, htraits, rfl,
      hchance⟩

/-- A line that is an entry has one rule. -/
theorem rules_of_readLine {rules : List Rule} (h : readLine c n t = .rules rules) :
    ∃ name value type r, entryShape? t = some (name, value) ∧ rules = [r] ∧
      assemble c n t type (Text.trim value) = .ok r := by
  rw [readLine] at h
  split at h
  · cases h
  next name value hshape =>
    dsimp only at h
    split at h
    next type _ =>
      split at h
      next r hrule => exact ⟨name, value, type, r, hshape, (LineOutcome.rules.inj h).symm, hrule⟩
      next => cases h
    · split at h <;> cases h

theorem isReadAs_readLine {rules : List Rule} (h : readLine c n t = .rules rules) :
    ∀ r ∈ rules, r.IsReadAs .spid := by
  obtain ⟨name, value, type, r, -, rfl, hrule⟩ := rules_of_readLine h
  have hassembled := isAssembled_of_assemble hrule
  obtain ⟨literal, -, htarget⟩ := hassembled.target
  rw [List.forall_mem_singleton]
  exact ⟨hassembled.dialect, outfit_of_readTarget htarget⟩

end Spid

namespace SkyPatcher

variable {c : Catalog} {n : Nat} {t : Text} {rules : List Rule}

/-- The rules of a line come from its assignments and share the filters of its clauses. -/
theorem rules_of_readLine (h : readLine c n t = .rules rules) :
    ∃ kvs filters, splitClauses t = .ok kvs ∧ kvs.foldlM (addKeyValue c) .empty = .ok filters ∧
      ∀ r ∈ rules, ∃ slot literal ref, c.resolveAs .outfit literal = some ref ∧
        r = ⟨.skyPatcher, n, t, .outfit slot ref, filters, none, none⟩ := by
  rw [readLine] at h
  split at h
  · cases h
  next kvs hsplit =>
    split at h
    · cases h
    split at h
    next rules' hrules =>
      obtain rfl := LineOutcome.rules.inj h
      obtain ⟨filters, hfilters, hassignments⟩ := bind_eq_ok.1 hrules
      refine ⟨kvs, filters, hsplit, hfilters, fun r hr => ?_⟩
      obtain ⟨⟨slot, literal⟩, -, hassemble⟩ := mem_of_mapM_eq_ok hassignments r hr
      rw [assemble] at hassemble
      split at hassemble
      next ref hresolve =>
        exact ⟨slot, literal, ref, hresolve, (Except.ok.inj hassemble).symm⟩
      next => cases hassemble
    next => cases h

theorem isReadAs_readLine (h : readLine c n t = .rules rules) :
    ∀ r ∈ rules, r.IsReadAs .skyPatcher := by
  obtain ⟨_, _, -, -, hrules⟩ := rules_of_readLine h
  intro r hr
  obtain ⟨slot, literal, ref, hresolve, rfl⟩ := hrules r hr
  refine ⟨rfl, fun slot' ref' htarget => ?_⟩
  obtain ⟨-, rfl⟩ := Target.outfit.inj htarget
  exact Catalog.form_of_resolveAs hresolve

end SkyPatcher

variable {c : Catalog} {dialect : Dialect} {n : Nat}

theorem readRuleLine_eq_rules {line : Text} {rules : List Rule}
    (h : readRuleLine c dialect n line = .rules rules) :
    (match dialect with
      | .spid => Spid.readLine c n (Text.trim (withoutComment line))
      | .skyPatcher => SkyPatcher.readLine c n (Text.trim (withoutComment line))) =
      .rules rules := by
  simp only [readRuleLine] at h
  split at h
  · split at h <;> cases h
  split at h
  · cases h
  exact h

theorem isReadAs_readRuleLine {line : Text} {rules : List Rule}
    (h : readRuleLine c dialect n line = .rules rules) : ∀ r ∈ rules, r.IsReadAs dialect := by
  have hread := readRuleLine_eq_rules h
  cases dialect with
  | spid => exact Spid.isReadAs_readLine hread
  | skyPatcher => exact SkyPatcher.isReadAs_readLine hread

/-- A rule keeps the place and the text that it was read from. -/
theorem origin_of_readRuleLine {line : Text} {rules : List Rule}
    (h : readRuleLine c dialect n line = .rules rules) :
    ∀ r ∈ rules, r.lineNumber = n ∧ r.raw = Text.trim (withoutComment line) := by
  have hread := readRuleLine_eq_rules h
  cases dialect with
  | spid =>
    obtain ⟨_, _, _, r, -, rfl, hrule⟩ := Spid.rules_of_readLine hread
    rw [List.forall_mem_singleton]
    have hassembled := Spid.isAssembled_of_assemble hrule
    exact ⟨hassembled.lineNumber, hassembled.raw⟩
  | skyPatcher =>
    obtain ⟨_, _, -, -, hrules⟩ := SkyPatcher.rules_of_readLine hread
    intro r hr
    obtain ⟨_, _, _, -, rfl⟩ := hrules r hr
    exact ⟨rfl, rfl⟩

/-- The rules of one line are for the same characters. -/
theorem filters_eq_of_readRuleLine {line : Text} {rules : List Rule}
    (h : readRuleLine c dialect n line = .rules rules) :
    ∀ r ∈ rules, ∀ r' ∈ rules, r.filters = r'.filters := by
  have hread := readRuleLine_eq_rules h
  intro r hr r' hr'
  cases dialect with
  | spid =>
    obtain ⟨_, _, _, _, -, rfl, -⟩ := Spid.rules_of_readLine hread
    rw [List.mem_singleton.1 hr, List.mem_singleton.1 hr']
  | skyPatcher =>
    obtain ⟨_, _, -, -, hrules⟩ := SkyPatcher.rules_of_readLine hread
    obtain ⟨_, _, _, -, rfl⟩ := hrules r hr
    obtain ⟨_, _, _, -, rfl⟩ := hrules r' hr'
    rfl

end Wardrobe
