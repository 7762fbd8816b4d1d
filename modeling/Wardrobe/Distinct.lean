/-
Lists without repetitions, in order of first appearance.
-/

namespace Wardrobe

/-- Add at the end what is not there yet. -/
def pushNew [BEq α] (xs : List α) (x : α) : List α := if xs.contains x then xs else xs ++ [x]

/-- The elements without repetitions, each where it first appears. -/
def distinct [BEq α] (xs : List α) : List α := xs.foldl pushNew []

theorem mem_pushNew [BEq α] [LawfulBEq α] {xs : List α} {x y : α} :
    y ∈ pushNew xs x ↔ y ∈ xs ∨ y = x := by
  unfold pushNew
  split
  · next h =>
    rw [List.contains_iff_mem] at h
    exact ⟨Or.inl, fun hy => hy.elim id fun e => e ▸ h⟩
  · simp

theorem nodup_pushNew [BEq α] [LawfulBEq α] {xs : List α} (h : xs.Nodup) (x : α) :
    (pushNew xs x).Nodup := by
  unfold pushNew
  split
  · exact h
  · next hx =>
    rw [List.contains_iff_mem] at hx
    refine List.nodup_append.2 ⟨h, by simp, fun a ha b hb => ?_⟩
    rw [List.mem_singleton] at hb
    exact fun e => hx (hb ▸ e ▸ ha)

theorem mem_foldl_pushNew [BEq α] [LawfulBEq α] {ys xs : List α} {x : α} :
    x ∈ ys.foldl pushNew xs ↔ x ∈ xs ∨ x ∈ ys := by
  induction ys generalizing xs with
  | nil => simp
  | cons y ys ih => rw [List.foldl_cons, ih, mem_pushNew, List.mem_cons, or_assoc]

theorem nodup_foldl_pushNew [BEq α] [LawfulBEq α] {xs : List α} (h : xs.Nodup) (ys : List α) :
    (ys.foldl pushNew xs).Nodup := by
  induction ys generalizing xs with
  | nil => exact h
  | cons y ys ih => exact ih (nodup_pushNew h y)

theorem mem_distinct [BEq α] [LawfulBEq α] {xs : List α} {x : α} : x ∈ distinct xs ↔ x ∈ xs := by
  simp [distinct, mem_foldl_pushNew]

theorem nodup_distinct [BEq α] [LawfulBEq α] (xs : List α) : (distinct xs).Nodup :=
  nodup_foldl_pushNew List.nodup_nil xs

theorem foldl_pushNew_of_subset [BEq α] [LawfulBEq α] {xs ys : List α} (h : ys ⊆ xs) :
    ys.foldl pushNew xs = xs := by
  induction ys with
  | nil => rfl
  | cons y ys ih =>
    obtain ⟨hy, hys⟩ := List.cons_subset.1 h
    rw [List.foldl_cons, pushNew, if_pos (List.contains_iff_mem.2 hy), ih hys]

theorem foldl_pushNew_of_nodup [BEq α] [LawfulBEq α] {xs ys : List α} (h : (xs ++ ys).Nodup) :
    ys.foldl pushNew xs = xs ++ ys := by
  induction ys generalizing xs with
  | nil => exact (List.append_nil xs).symm
  | cons y ys ih =>
    have hy : y ∉ xs := fun hmem => (List.nodup_append.1 h).2.2 y hmem y List.mem_cons_self rfl
    have hpush : pushNew xs y = xs ++ [y] := by
      rw [pushNew, if_neg (by simpa using hy)]
    rw [List.foldl_cons, hpush, ih (by simpa using h), List.append_assoc]
    rfl

theorem distinct_of_nodup [BEq α] [LawfulBEq α] {xs : List α} (h : xs.Nodup) :
    distinct xs = xs := foldl_pushNew_of_nodup h

theorem distinct_append_of_subset [BEq α] [LawfulBEq α] {xs ys : List α} (h : ys ⊆ xs) :
    distinct (xs ++ ys) = distinct xs := by
  rw [distinct, List.foldl_append]
  exact foldl_pushNew_of_subset fun y hy => mem_distinct.2 (h hy)

/-- Elements that are repeated where they stand first appear in the same order. -/
theorem distinct_flatMap_of_same [BEq α] [LawfulBEq α] {xs : List α} {f : α → List α}
    (h : ∀ x ∈ xs, f x ≠ [] ∧ ∀ y ∈ f x, y = x) : distinct (xs.flatMap f) = distinct xs := by
  suffices hfold : ∀ before, (xs.flatMap f).foldl pushNew before = xs.foldl pushNew before from
    hfold []
  induction xs with
  | nil => exact fun _ => rfl
  | cons x xs ih =>
    intro before
    obtain ⟨⟨hne, hsame⟩, hrest⟩ := List.forall_mem_cons.1 h
    obtain ⟨y, ys, hys⟩ := List.exists_cons_of_ne_nil hne
    rw [hys, List.forall_mem_cons] at hsame
    obtain ⟨rfl, hsame⟩ := hsame
    have hsub : ys ⊆ pushNew before y := fun z hz => mem_pushNew.2 (Or.inr (hsame z hz))
    rw [List.flatMap_cons, hys, List.foldl_append, List.foldl_cons, foldl_pushNew_of_subset hsub,
      ih hrest, List.foldl_cons]

theorem distinct_flatMap_const [BEq α] [LawfulBEq α] {xs : List β} (hne : xs ≠ []) (ys : List α) :
    distinct (xs.flatMap fun _ => ys) = distinct ys := by
  obtain ⟨x, xs, rfl⟩ := List.exists_cons_of_ne_nil hne
  rw [List.flatMap_cons, distinct_append_of_subset]
  intro y hy
  obtain ⟨-, -, hy⟩ := List.mem_flatMap.1 hy
  exact hy

theorem exists_ne_of_nodup {xs : List α} (hnodup : xs.Nodup) (h : 1 < xs.length) (x : α) :
    ∃ y ∈ xs, y ≠ x := by
  obtain ⟨a, b, rest, rfl⟩ : ∃ a b rest, xs = a :: b :: rest := by
    match xs, h with
    | a :: b :: rest, _ => exact ⟨a, b, rest, rfl⟩
  have hne : a ≠ b := by
    rintro rfl
    exact (List.nodup_cons.1 hnodup).1 List.mem_cons_self
  by_cases ha : a = x
  · exact ⟨b, List.mem_cons_of_mem _ List.mem_cons_self, fun hb => hne (ha.trans hb.symm)⟩
  · exact ⟨a, List.mem_cons_self, ha⟩

end Wardrobe
