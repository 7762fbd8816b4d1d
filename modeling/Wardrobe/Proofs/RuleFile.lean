import Mathlib.Data.List.Pairwise
import Wardrobe.Proofs.Rule.Line
import Wardrobe.RuleFile
/-
Rule files: what their rules are known by, and the order in which they are applied.

All comparisons of the load order are lexicographic, so each is shown to be transitive by writing
it with the comparison functions of the library.  Sorting by insertion needs no more than that:
sorted files stay where they are when another file is sorted in among them.
-/

namespace Wardrobe

open Std

variable {c : Catalog} {dialect : Dialect} {n : Nat}

/-! ## Rule files -/

namespace RuleFile

variable {lines : List Text} {l l' : ReadLine} {r r' : Rule}

theorem ReadLine.mem_rules : r ∈ l.rules ↔ ∃ rules, l.outcome = .rules rules ∧ r ∈ rules := by
  rw [ReadLine.rules]
  cases l.outcome <;> simp

/-- A line that was read is known by its number, of which each is there once. -/
theorem outcome_of_mem_readLines (hl : l ∈ readLines c dialect n lines) :
    n ≤ l.number ∧ l.outcome = readRuleLine c dialect l.number l.raw := by
  induction lines generalizing n with
  | nil => cases hl
  | cons line rest ih =>
    rcases List.mem_cons.1 hl with rfl | hl
    · exact ⟨Nat.le_refl n, rfl⟩
    · exact ⟨Nat.le_of_succ_le (ih hl).1, (ih hl).2⟩

theorem eq_of_number (hl : l ∈ readLines c dialect n lines) (hl' : l' ∈ readLines c dialect n lines)
    (h : l.number = l'.number) : l = l' := by
  induction lines generalizing n with
  | nil => cases hl
  | cons line rest ih =>
    rcases List.mem_cons.1 hl with rfl | hl <;> rcases List.mem_cons.1 hl' with rfl | hl'
    · rfl
    · exact absurd h (Nat.ne_of_lt (outcome_of_mem_readLines hl').1)
    · exact absurd h.symm (Nat.ne_of_lt (outcome_of_mem_readLines hl).1)
    · exact ih hl hl'

theorem lineNumber_of_mem_rules (hl : l ∈ readLines c dialect n lines) (hr : r ∈ l.rules) :
    r.lineNumber = l.number := by
  obtain ⟨rules, hrules, hmem⟩ := ReadLine.mem_rules.1 hr
  have houtcome := (outcome_of_mem_readLines hl).2
  exact (origin_of_readRuleLine (houtcome.symm.trans hrules) r hmem).1

/-- Every rule of a file is one of those that some line gives. -/
theorem exists_line_of_mem_ofText {path text : Text} (h : r ∈ (ofText c path dialect text).rules) :
    ∃ n line rules, readRuleLine c dialect n line = .rules rules ∧ r ∈ rules := by
  obtain ⟨l, hl, hr⟩ := List.mem_flatMap.1 h
  have houtcome := (outcome_of_mem_readLines hl).2
  obtain ⟨rules, hrules, hmem⟩ := ReadLine.mem_rules.1 hr
  exact ⟨l.number, l.raw, rules, houtcome ▸ hrules, hmem⟩

/-- Rules of one file with the same line number come from one line. -/
theorem filters_eq_of_lineNumber {path text : Text} (hr : r ∈ (ofText c path dialect text).rules)
    (hr' : r' ∈ (ofText c path dialect text).rules) (h : r.lineNumber = r'.lineNumber) :
    r.filters = r'.filters := by
  obtain ⟨l, hl, hr⟩ := List.mem_flatMap.1 hr
  obtain ⟨l', hl', hr'⟩ := List.mem_flatMap.1 hr'
  have hnumber : l.number = l'.number := by
    rw [← lineNumber_of_mem_rules hl hr, ← lineNumber_of_mem_rules hl' hr', h]
  obtain rfl := eq_of_number hl hl' hnumber
  have houtcome := (outcome_of_mem_readLines hl).2
  obtain ⟨rules, hrules, hmem⟩ := ReadLine.mem_rules.1 hr
  obtain ⟨rules', hrules', hmem'⟩ := ReadLine.mem_rules.1 hr'
  obtain rfl := LineOutcome.rules.inj (hrules.symm.trans hrules')
  exact filters_eq_of_readRuleLine (houtcome ▸ hrules) r hmem r' hmem'

theorem isReadAs_of_mem_ofText {path text : Text}
    (h : r ∈ (ofText c path dialect text).rules) : r.IsReadAs dialect := by
  obtain ⟨_, _, _, hread, hr⟩ := exists_line_of_mem_ofText h
  exact isReadAs_readRuleLine hread r hr

/-- The file has been read from some text, kept under some path. -/
def IsParsed (c : Catalog) (f : RuleFile) : Prop :=
  ∃ path dialect decoded, f = ofDecoded c path dialect decoded

theorem isParsed_ofText (c : Catalog) (path : Text) (dialect : Dialect) (text : Text) :
    IsParsed c (ofText c path dialect text) :=
  ⟨path, dialect, ⟨text, false, .utf8⟩, rfl⟩

theorem IsParsed.isReadAs {f : RuleFile} (h : f.IsParsed c) {r : Rule} (hr : r ∈ f.rules) :
    r.IsReadAs f.dialect := by
  obtain ⟨path, dialect, decoded, rfl⟩ := h
  have hread : r ∈ (ofText c path dialect decoded.text).rules := hr
  exact isReadAs_of_mem_ofText hread

theorem IsParsed.filters_eq {f : RuleFile} (h : f.IsParsed c) (hr : r ∈ f.rules)
    (hr' : r' ∈ f.rules) (hline : r.lineNumber = r'.lineNumber) : r.filters = r'.filters := by
  obtain ⟨path, dialect, decoded, rfl⟩ := h
  have hread : r ∈ (ofText c path dialect decoded.text).rules := hr
  have hread' : r' ∈ (ofText c path dialect decoded.text).rules := hr'
  exact filters_eq_of_lineNumber hread hread' hline

end RuleFile

/-! ## Comparisons -/

theorem transCmp_onFun (cmp : α → α → Ordering) [h : TransCmp cmp] (f : β → α) :
    TransCmp fun a b => cmp (f a) (f b) where
  eq_swap := h.eq_swap
  isLE_trans := h.isLE_trans

theorem Text.compare_eq (s t : Text) :
    Text.compare s t = List.compareLex (compareOn Char.toNat) s t := by
  induction s generalizing t with
  | nil => cases t <;> rfl
  | cons a s ih =>
    cases t with
    | nil => rfl
    | cons b t =>
      rw [List.compareLex_cons_cons, ← ih]
      rfl

instance : TransCmp Text.compare := by
  have heq : Text.compare = List.compareLex (compareOn Char.toNat) := by
    funext s t
    exact Text.compare_eq s t
  rw [heq]
  infer_instance

/-- The text of a step.  Only names have one. -/
def PathStep.text : PathStep → Text
  | .name t => t
  | _ => []

theorem PathStep.compare_eq (a b : PathStep) :
    a.compare b = compareLex (compareOn rank) (fun a b => Text.compare a.text b.text) a b := by
  rcases a with _ | _ | _ | s <;> rcases b with _ | _ | _ | t <;> rfl

instance : TransCmp PathStep.compare := by
  have htext := transCmp_onFun Text.compare PathStep.text
  have heq : PathStep.compare =
      compareLex (compareOn PathStep.rank) fun a b => Text.compare a.text b.text := by
    funext a b
    exact PathStep.compare_eq a b
  rw [heq]
  infer_instance

theorem Path.compareSteps_eq (s t : List PathStep) :
    compareSteps s t = List.compareLex PathStep.compare s t := by
  induction s generalizing t with
  | nil => cases t <;> rfl
  | cons a s ih =>
    cases t with
    | nil => rfl
    | cons b t =>
      rw [List.compareLex_cons_cons, ← ih]
      rfl

instance : TransCmp Path.compare := by
  have heq : Path.compare =
      fun a b => List.compareLex PathStep.compare (Path.steps a) (Path.steps b) := by
    funext a b
    exact Path.compareSteps_eq _ _
  rw [heq]
  exact transCmp_onFun (List.compareLex PathStep.compare) Path.steps

namespace RuleFile

instance : TransCmp compareKeys := by
  have htext := transCmp_onFun Text.compare (Prod.snd : Nat × Text → Text)
  exact inferInstanceAs (TransCmp (compareLex (compareOn Prod.fst) fun a b =>
    Text.compare a.2 b.2))

instance : TransCmp comparePlace := by
  have hkeys := transCmp_onFun compareKeys loadKey
  have hpaths := transCmp_onFun Path.compare RuleFile.path
  exact inferInstanceAs (TransCmp (compareLex
    (fun a b : RuleFile => compareKeys a.loadKey b.loadKey)
    fun a b : RuleFile => Path.compare a.path b.path))

end RuleFile

/-! ## Sorting -/

section Sorting

variable {cmp : α → α → Ordering} {a b : α} {l : List α}

/-- No element is greater than a later one. -/
def Ascending (cmp : α → α → Ordering) (l : List α) : Prop :=
  l.Pairwise fun a b => (cmp a b).isLE

theorem perm_insertBy (cmp : α → α → Ordering) (a : α) (l : List α) :
    (insertBy cmp a l).Perm (a :: l) := by
  induction l with
  | nil => exact List.Perm.refl _
  | cons b rest ih =>
    rw [insertBy]
    split
    · exact List.Perm.refl _
    · exact (ih.cons b).trans (List.Perm.swap a b rest)

/-- Where an element is put in: behind all that are not greater, before all that are. -/
theorem insertBy_eq [TransCmp cmp] (h : Ascending cmp l) :
    ∃ before after, l = before ++ after ∧ insertBy cmp a l = before ++ a :: after ∧
      (∀ b ∈ before, (cmp b a).isLE) ∧ ∀ b ∈ after, cmp a b = .lt := by
  induction l with
  | nil => exact ⟨[], [], rfl, rfl, by simp, by simp⟩
  | cons b rest ih =>
    obtain ⟨hb, hrest⟩ := List.pairwise_cons.1 h
    rw [insertBy]
    split
    next hlt =>
      refine ⟨[], b :: rest, rfl, rfl, by simp, fun c hc => ?_⟩
      rcases List.mem_cons.1 hc with rfl | hc
      · exact hlt
      · exact TransCmp.lt_of_lt_of_isLE hlt (hb c hc)
    next hge =>
      obtain ⟨before, after, hsplit, hinsert, hbefore, hafter⟩ := ih hrest
      refine ⟨b :: before, after, by rw [hsplit]; rfl, by rw [hinsert]; rfl, ?_, hafter⟩
      intro c hc
      rcases List.mem_cons.1 hc with rfl | hc
      · rw [← OrientedCmp.isGE_iff_isLE]
        cases hcmp : cmp a c with
        | lt => exact absurd hcmp hge
        | eq => rfl
        | gt => rfl
      · exact hbefore c hc

theorem Ascending.insertBy [TransCmp cmp] (h : Ascending cmp l) :
    Ascending cmp (Wardrobe.insertBy cmp a l) := by
  obtain ⟨before, after, rfl, hinsert, hbefore, hafter⟩ := insertBy_eq (a := a) h
  obtain ⟨hleft, hright, hcross⟩ := List.pairwise_append.1 h
  rw [hinsert]
  refine List.pairwise_append.2 ⟨hleft, List.pairwise_cons.2 ⟨?_, hright⟩, ?_⟩
  · intro c hc
    exact Ordering.isLE_of_eq_lt (hafter c hc)
  · intro b hb c hc
    rcases List.mem_cons.1 hc with rfl | hc
    · exact hbefore b hb
    · exact hcross b hb c hc

theorem ascending_foldl [TransCmp cmp] (l : List α) {sorted : List α}
    (h : Ascending cmp sorted) :
    Ascending cmp (l.foldl (fun sorted a => insertBy cmp a sorted) sorted) := by
  induction l generalizing sorted with
  | nil => exact h
  | cons a rest ih => exact ih h.insertBy

theorem ascending_sortBy [TransCmp cmp] (l : List α) : Ascending cmp (sortBy cmp l) :=
  ascending_foldl l List.Pairwise.nil

theorem perm_sortBy (cmp : α → α → Ordering) (l : List α) : (sortBy cmp l).Perm l := by
  suffices h : ∀ sorted, (l.foldl (fun sorted a => insertBy cmp a sorted) sorted).Perm
      (l ++ sorted) by
    have hall := h []
    rw [List.append_nil] at hall
    exact hall
  induction l with
  | nil => exact fun sorted => List.Perm.refl _
  | cons a rest ih =>
    intro sorted
    have hstep := (perm_insertBy cmp a sorted).append_left rest
    exact ((ih _).trans hstep).trans List.perm_middle

/-- An element that no other one exceeds is put at the end. -/
theorem insertBy_of_isLE [TransCmp cmp] (h : ∀ b ∈ l, (cmp b a).isLE) :
    insertBy cmp a l = l ++ [a] := by
  induction l with
  | nil => rfl
  | cons b rest ih =>
    have hnot := OrientedCmp.not_lt_of_isLE (h b List.mem_cons_self)
    rw [insertBy, ih fun c hc => h c (List.mem_cons_of_mem _ hc)]
    split
    · contradiction
    · rfl

theorem foldl_insertBy_of_ascending [TransCmp cmp] {sorted : List α}
    (h : Ascending cmp (sorted ++ l)) :
    l.foldl (fun sorted a => insertBy cmp a sorted) sorted = sorted ++ l := by
  induction l generalizing sorted with
  | nil => simp
  | cons a rest ih =>
    have hlast : ∀ b ∈ sorted, (cmp b a).isLE := fun b hb =>
      (List.pairwise_append.1 h).2.2 b hb a List.mem_cons_self
    rw [List.foldl_cons, insertBy_of_isLE hlast, ih (by simpa using h), List.append_assoc]
    rfl

theorem sortBy_of_ascending [TransCmp cmp] (h : Ascending cmp l) : sortBy cmp l = l :=
  foldl_insertBy_of_ascending h

/-- No two elements of the list compare equal. -/
def Apart (cmp : α → α → Ordering) (l : List α) : Prop := l.Pairwise fun a b => cmp a b ≠ .eq

theorem Apart.perm [TransCmp cmp] {l' : List α} (h : Apart cmp l) (hperm : l.Perm l') :
    Apart cmp l' :=
  List.Pairwise.perm h hperm fun hne heq => hne (OrientedCmp.eq_symm heq)

theorem Apart.eq_of_mem [TransCmp cmp] (h : Apart cmp l) (ha : a ∈ l) (hb : b ∈ l)
    (heq : cmp a b = .eq) : a = b := by
  by_contra hne
  have : Symm fun a b => cmp a b ≠ .eq := ⟨fun _ _ hne heq => hne (OrientedCmp.eq_symm heq)⟩
  exact List.Pairwise.forall h ha hb hne heq

/-- Elements of which no two compare equal have only one order. -/
theorem sortBy_eq_of_perm [TransCmp cmp] {l' : List α} (hperm : l.Perm l')
    (hapart : Apart cmp l) : sortBy cmp l = sortBy cmp l' := by
  have hsorted : (sortBy cmp l).Perm (sortBy cmp l') :=
    ((perm_sortBy cmp l).trans hperm).trans (perm_sortBy cmp l').symm
  refine List.Perm.eq_of_pairwise ?_ (ascending_sortBy l) (ascending_sortBy l') hsorted
  intro a b ha hb hab hba
  have hmem := (perm_sortBy cmp l).mem_iff.1 ha
  have hmem' := hperm.mem_iff.2 ((perm_sortBy cmp l').mem_iff.1 hb)
  exact hapart.eq_of_mem hmem hmem' (OrientedCmp.isLE_antisymm hab hba)

theorem pairwise_lt_sortBy [TransCmp cmp] (hapart : Apart cmp l) :
    (sortBy cmp l).Pairwise fun a b => cmp a b = .lt := by
  have hsorted := hapart.perm (perm_sortBy cmp l).symm
  refine List.Pairwise.imp₂ (fun a b hle hne => ?_) (ascending_sortBy l) hsorted
  cases hab : cmp a b with
  | lt => rfl
  | eq => exact absurd hab hne
  | gt => simp [hab] at hle

end Sorting

namespace RuleFile

/-- Another file is sorted in among the files of a pass, which keep their order. -/
theorem inLoadOrder_append_singleton (files : List RuleFile) (f : RuleFile) :
    ∃ before after, inLoadOrder files = before ++ after ∧
      inLoadOrder (inLoadOrder files ++ [f]) = before ++ f :: after ∧
      (∀ g ∈ before, (comparePlace g f).isLE) ∧ ∀ g ∈ after, comparePlace f g = .lt := by
  have hascending : Ascending comparePlace (inLoadOrder files) := ascending_sortBy files
  obtain ⟨before, after, hsplit, hinsert, hbefore, hafter⟩ := insertBy_eq (a := f) hascending
  refine ⟨before, after, hsplit, ?_, hbefore, hafter⟩
  rw [← hinsert, inLoadOrder, sortBy, List.foldl_append]
  exact congrArg (Wardrobe.insertBy comparePlace f) (sortBy_of_ascending hascending)

end RuleFile
end Wardrobe
