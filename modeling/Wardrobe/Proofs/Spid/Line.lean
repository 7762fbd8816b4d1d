import Wardrobe.Proofs.Form.Catalog
import Wardrobe.Proofs.Spid.Field
/-
What a rule consists of that was read from a SPID entry.

Each field of an entry is trimmed, holds no bar and no line feed and fills no gap.  The parts of a
rule come from fields, and its references from what the catalog made of them.
-/

namespace Wardrobe
namespace Spid

variable {c : Catalog} {n i : Nat} {t value x : Text} {r : Rule} {fields : List Text}

/-- A text that can stand in a field of the line. -/
structure IsField (t x : Text) : Prop where
  isPiece : Text.IsPiece x
  subset : x ⊆ t
  bar : '|' ∉ x
  lineFeed : '\n' ∉ x
  isGap : isGap x = false

theorem isField_of_field? (hsub : value ⊆ t) (hline : '\n' ∉ value)
    (h : field? (splitFields value) i = some x) : IsField t x := by
  obtain ⟨hmem, hgap⟩ := Option.filter_eq_some_iff.1 h
  have hgap' : isGap x = false := by simpa using hgap
  obtain ⟨whole, hwhole, rfl⟩ := List.mem_map.1 (List.mem_of_getElem? hmem)
  obtain ⟨hbar, hsub'⟩ := Text.mem_splitOn hwhole
  have htrim := Text.trim_subset whole
  refine ⟨Text.isPiece_trim fun hnil => ?_, fun _ hc => hsub (hsub' (htrim hc)),
    fun hc => hbar (htrim hc), fun hc => hline (hsub' (htrim hc)), hgap'⟩
  rw [hnil] at hgap'
  cases hgap'

theorem entryShape?_eq_some {name : Text} (h : entryShape? t = some (name, value)) :
    value ⊆ t ∧ '\n' ∉ value := by
  rw [entryShape?] at h
  dsimp only at h
  split at h
  · cases h
  split at h
  next rest hrest =>
    split at h
    · cases h
    next hline =>
      obtain ⟨-, rfl⟩ := Prod.mk.inj (Option.some.inj h)
      have hrestSub : rest ⊆ t := by
        have hafter := (Text.trimStart_suffix_self (t.dropWhile Text.isAsciiLetter)).subset
        rw [hrest] at hafter
        exact fun _ hc => (List.dropWhile_suffix _).subset (hafter (List.mem_cons_of_mem '=' hc))
      refine ⟨fun _ hc => hrestSub ((Text.trimStart_suffix_self rest).subset hc),
        fun hc => hline ?_⟩
      exact List.contains_iff_mem.2 hc
  next => cases h

/-- A part of a string field on the line. -/
def IsStringPart (t : Text) (p : Criterion.Part Text) : Prop :=
  ∃ field, IsField t field ∧ IsReadPart field p

/-- A part of a form field on the line: what a literal names that is no wildcard. -/
def IsFormPart (c : Catalog) (t : Text) (p : Criterion.Part Reference) : Prop :=
  ∃ q, IsStringPart t q ∧ q.wildcard = false ∧ resolvePart c q = some p

/-- A rule that was read from a line. -/
structure IsReadFrom (c : Catalog) (n : Nat) (t : Text) (r : Rule) : Prop where
  dialect : r.dialect = .spid
  lineNumber : r.lineNumber = n
  target : ∃ type literal, IsField t literal ∧ readTarget c type literal = .ok r.target
  strings : ∀ e ∈ r.filters.strings.expressions, e ≠ [] ∧ ∀ p ∈ e, IsStringPart t p
  forms : ∀ e ∈ r.filters.forms.expressions, e ≠ [] ∧ ∀ p ∈ e, IsFormPart c t p
  extra : ∀ x ∈ r.extra, IsField t x
  chance : ∀ chance ∈ r.chance, 1 ≤ chance.toNat ∧ chance.toNat ≤ 100

theorem readOr_eq_ok {absent a : α} {read : Text → Except FieldFault α} {field : Option Text}
    (h : readOr absent read field = .ok a) :
    (field = none ∧ a = absent) ∨ ∃ x, field = some x ∧ read x = .ok a := by
  cases field with
  | none => exact Or.inl ⟨rfl, (Except.ok.inj h).symm⟩
  | some x => exact Or.inr ⟨x, rfl, mapError_eq_ok.1 h⟩

theorem mem_ofExpressions {es : List (List (Criterion.Part α))} {e : List (Criterion.Part α)} :
    e ∈ (Criterion.ofExpressions es).expressions ↔ e ∈ es ∧ e ≠ [] := by
  simp [Criterion.ofExpressions]

theorem parts_of_readStrings {s : Criterion Text} (hx : IsField t x) (h : readStrings x = .ok s) :
    ∀ e ∈ s.expressions, e ≠ [] ∧ ∀ p ∈ e, IsStringPart t p := by
  intro e he
  obtain ⟨es, halternatives, rfl⟩ := map_eq_ok.1 h
  obtain ⟨hmem, hne⟩ := mem_ofExpressions.1 he
  exact ⟨hne, fun p hp => ⟨x, hx, (isReadPart_readAlternatives halternatives e hmem).2 p hp⟩⟩

theorem parts_of_readForms {s : Criterion Reference} (hx : IsField t x)
    (h : readForms c x = .ok s) :
    ∀ e ∈ s.expressions, e ≠ [] ∧ ∀ p ∈ e, IsFormPart c t p := by
  obtain ⟨es, halternatives, h⟩ := bind_eq_ok.1 h
  dsimp only at h
  split at h
  · cases h
  next hnone =>
    split at h
    · cases h
    obtain rfl := Except.ok.inj h
    intro e he
    obtain ⟨hmem, hne⟩ := mem_ofExpressions.1 he
    obtain ⟨literals, hliterals, rfl⟩ := List.mem_map.1 hmem
    refine ⟨hne, fun p hp => ?_⟩
    obtain ⟨q, hq, hresolve⟩ := List.mem_filterMap.1 hp
    have hpart := (isReadPart_readAlternatives halternatives _ hliterals).2 q hq
    refine ⟨q, ⟨x, hx, hpart⟩, ?_, hresolve⟩
    simpa using List.find?_eq_none.1 hnone q (List.mem_flatten.2 ⟨literals, hliterals, hq⟩)

theorem isReadFrom_assemble {raw : Text} {type : EntryKind} (hsub : value ⊆ t)
    (hline : '\n' ∉ value) (h : assemble c n raw type value = .ok r) : IsReadFrom c n t r := by
  have hfield {i : Nat} {x : Text} (hx : field? (splitFields value) i = some x) : IsField t x :=
    isField_of_field? hsub hline hx
  have hassembled := isAssembled_of_assemble h
  obtain ⟨literal, hliteral, htarget⟩ := hassembled.target
  refine ⟨hassembled.dialect, hassembled.lineNumber, ⟨type, literal, hfield hliteral, htarget⟩,
    ?_, ?_, ?_, ?_⟩
  · rcases readOr_eq_ok hassembled.strings with ⟨-, hempty⟩ | ⟨x, hx, hread⟩
    · exact fun e he => absurd he (hempty ▸ List.not_mem_nil)
    · exact parts_of_readStrings (hfield hx) hread
  · rcases readOr_eq_ok hassembled.forms with ⟨-, hempty⟩ | ⟨x, hx, hread⟩
    · exact fun e he => absurd he (hempty ▸ List.not_mem_nil)
    · exact parts_of_readForms (hfield hx) hread
  · exact fun x hx => hfield (hassembled.extra.trans hx)
  · intro own hown
    rcases readOr_eq_ok hassembled.chance with ⟨-, hempty⟩ | ⟨x, hx, hread⟩
    · rw [hempty] at hown
      cases hown
    · obtain ⟨found, hfound, hchance⟩ := map_eq_ok.1 hread
      rw [← hchance] at hown
      obtain rfl := Option.mem_some_iff.1 hown
      exact bounds_of_readChance hfound

theorem isReadFrom_readLine {rules : List Rule} (h : readLine c n t = .rules rules) :
    ∀ r ∈ rules, IsReadFrom c n t r := by
  obtain ⟨name, value, type, r, hshape, rfl, hrule⟩ := rules_of_readLine h
  obtain ⟨hsub, hline⟩ := entryShape?_eq_some hshape
  have htrim := Text.trim_subset value
  rw [List.forall_mem_singleton]
  exact isReadFrom_assemble (fun _ hc => hsub (htrim hc)) (fun hc => hline (htrim hc)) hrule

/-! ## References -/

theorem IsFormPart.wildcard {p : Criterion.Part Reference} (h : IsFormPart c t p) :
    p.wildcard = false := by
  obtain ⟨q, -, -, hresolve⟩ := h
  obtain ⟨ref, -, rfl⟩ := Option.map_eq_some_iff.1 hresolve
  rfl

theorem knows_of_isFormPart {p : Criterion.Part Reference} (h : IsFormPart c t p) :
    c.Knows p.value := by
  obtain ⟨q, -, -, hresolve⟩ := h
  obtain ⟨ref, href, rfl⟩ := Option.map_eq_some_iff.1 hresolve
  exact Catalog.knows_of_resolveBy href

end Spid
end Wardrobe

