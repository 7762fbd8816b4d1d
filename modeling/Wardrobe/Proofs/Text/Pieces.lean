import Mathlib.Data.List.Basic
import Mathlib.Data.List.TakeWhile
import Wardrobe.Proofs.Text.Ascii
/-
Pieces of text: what stands between separators once white space is trimmed off.

Both rule formats read lists by splitting and trimming and write them by joining.  The one undoes
the other as long as what is joined are pieces without the separator.
-/

namespace Wardrobe
namespace Text

variable {s t p : Text} {parts : List Text} {c sep : Char}

/-! ## Trimming -/

/-- The text is not empty and no white space stands at either end. -/
structure IsPiece (t : Text) : Prop where
  begins : ∃ c rest, t = c :: rest ∧ isBlank c = false
  ends : ∃ front c, t = front ++ [c] ∧ isBlank c = false

theorem trimStart_cons (h : isBlank c = false) : trimStart (c :: t) = c :: t :=
  List.dropWhile_cons_of_neg (by simp [h])

theorem trimEnd_concat (h : isBlank c = false) : trimEnd (t ++ [c]) = t ++ [c] := by
  rw [trimEnd, List.reverse_concat, List.dropWhile_cons_of_neg (by simp [h]), List.reverse_cons,
    List.reverse_reverse]

namespace IsPiece

theorem ne_nil (h : IsPiece t) : t ≠ [] := by
  obtain ⟨c, rest, rfl, -⟩ := h.begins
  exact List.cons_ne_nil _ _

theorem trimStart_eq (h : IsPiece t) : trimStart t = t := by
  obtain ⟨c, rest, rfl, hc⟩ := h.begins
  exact trimStart_cons hc

theorem trim_eq (h : IsPiece t) : trim t = t := by
  rw [trim, h.trimStart_eq]
  obtain ⟨front, c, rfl, hc⟩ := h.ends
  exact trimEnd_concat hc

theorem append (hs : IsPiece s) (ht : IsPiece t) (middle : Text) : IsPiece (s ++ middle ++ t) := by
  obtain ⟨a, rest, rfl, ha⟩ := hs.begins
  obtain ⟨front, b, rfl, hb⟩ := ht.ends
  exact ⟨⟨a, _, rfl, ha⟩, ⟨a :: rest ++ middle ++ front, b, by simp, hb⟩⟩

/-- A piece stays one with visible characters in front and behind. -/
theorem extend (h : IsPiece t) (hs : ∀ c ∈ s, isBlank c = false) (hp : ∀ c ∈ p, isBlank c = false) :
    IsPiece (s ++ t ++ p) := by
  obtain ⟨a, rest, rfl, ha⟩ := h.begins
  obtain ⟨front, b, hfront, hb⟩ := h.ends
  constructor
  · cases s with
    | nil => exact ⟨a, rest ++ p, rfl, ha⟩
    | cons d s => exact ⟨d, _, rfl, hs d List.mem_cons_self⟩
  · rcases List.eq_nil_or_concat p with rfl | ⟨p, d, rfl⟩
    · exact ⟨s ++ front, b, by simp [hfront], hb⟩
    · exact ⟨s ++ a :: rest ++ p, d, by simp, hp d (by simp)⟩

end IsPiece

theorem isPiece_of_forall (hne : t ≠ []) (h : ∀ c ∈ t, isBlank c = false) : IsPiece t := by
  constructor
  · obtain ⟨c, rest, rfl⟩ := List.exists_cons_of_ne_nil hne
    exact ⟨c, rest, rfl, h c List.mem_cons_self⟩
  · obtain ⟨front, c, rfl⟩ := (List.eq_nil_or_concat t).resolve_left hne
    rw [List.concat_eq_append] at h ⊢
    exact ⟨front, c, rfl, h c (by simp)⟩

theorem isPiece_of_alphanum (hne : t ≠ []) (h : ∀ c ∈ t, c.isAlphanum = true) : IsPiece t :=
  isPiece_of_forall hne fun c hc => isBlank_of_isAlphanum (h c hc)

theorem isPiece_of_letters (hne : t ≠ []) (h : ∀ c ∈ t, c.isAlpha = true) : IsPiece t :=
  isPiece_of_alphanum hne fun c hc => by simp [Char.isAlphanum, h c hc]

theorem trimStart_suffix_self (t : Text) : trimStart t <:+ t := List.dropWhile_suffix _

theorem trimEnd_prefix_self (t : Text) : trimEnd t <+: t := by
  have h : t.reverse.dropWhile isBlank <:+ t.reverse := List.dropWhile_suffix _
  rw [← List.reverse_prefix, List.reverse_reverse] at h
  exact h

theorem trim_subset (t : Text) : trim t ⊆ t :=
  List.Subset.trans (trimEnd_prefix_self _).subset (trimStart_suffix_self t).subset

theorem length_trim_le (t : Text) : (trim t).length ≤ t.length :=
  Nat.le_trans (trimEnd_prefix_self _).length_le (trimStart_suffix_self t).length_le

theorem mem_trimStart (hc : isBlank c = false) (h : c ∈ t) : c ∈ trimStart t := by
  rw [← List.takeWhile_append_dropWhile (p := isBlank) (l := t), List.mem_append] at h
  refine h.resolve_left fun hmem => ?_
  have hblank := List.all_eq_true.1 (List.all_takeWhile (l := t) (p := isBlank)) c hmem
  rw [hblank] at hc
  cases hc

theorem mem_trim (hc : isBlank c = false) (h : c ∈ t) : c ∈ trim t :=
  List.mem_reverse.2 (mem_trimStart hc (List.mem_reverse.2 (mem_trimStart hc h)))

theorem trim_ne_nil (hc : isBlank c = false) (h : c ∈ t) : trim t ≠ [] :=
  List.ne_nil_of_mem (mem_trim hc h)

theorem isBlank_of_dropWhile {rest : Text} (h : t.dropWhile isBlank = c :: rest) :
    isBlank c = false := by
  have hhead := List.head?_dropWhile_not isBlank t
  rw [h] at hhead
  exact hhead

theorem isPiece_trim (h : trim t ≠ []) : IsPiece (trim t) := by
  have hstart : trimStart t ≠ [] := by
    intro hnil
    exact h (by rw [trim, hnil]; rfl)
  constructor
  · obtain ⟨c, rest, hc⟩ := List.exists_cons_of_ne_nil hstart
    obtain ⟨d, rest', hd⟩ := List.exists_cons_of_ne_nil h
    have hprefix : trim t <+: trimStart t := trimEnd_prefix_self _
    rw [hd, hc, List.cons_prefix_cons] at hprefix
    exact ⟨d, rest', hd, hprefix.1 ▸ isBlank_of_dropWhile hc⟩
  · -- The last character is the first of the reversed text once blanks are dropped from it.
    have hreversed : (trimStart t).reverse.dropWhile isBlank ≠ [] := by
      simpa [trim, trimEnd] using h
    obtain ⟨c, rest, hc⟩ := List.exists_cons_of_ne_nil hreversed
    have hends : trim t = rest.reverse ++ [c] := by
      rw [trim, trimEnd, hc, List.reverse_cons]
    exact ⟨rest.reverse, c, hends, isBlank_of_dropWhile hc⟩

theorem trimStart_append_of_blank (h : ∀ c ∈ s, isBlank c = true) :
    trimStart (s ++ t) = trimStart t := List.dropWhile_append_of_pos h

theorem trimStart_append (h : trimStart s ≠ []) : trimStart (s ++ t) = trimStart s ++ t := by
  rw [trimStart, List.dropWhile_append, if_neg]
  · rfl
  · simpa [trimStart] using h

theorem trimEnd_append_of_blank (h : ∀ c ∈ t, isBlank c = true) : trimEnd (s ++ t) = trimEnd s := by
  rw [trimEnd, List.reverse_append, List.dropWhile_append_of_pos]
  · rfl
  · simpa using h

theorem trim_append_of_blank (h : ∀ c ∈ t, isBlank c = true) : trim (s ++ t) = trim s := by
  by_cases hs : trimStart s = []
  · have hnil : trimStart t = [] := List.dropWhile_eq_nil_iff.2 h
    have hboth : trimStart (s ++ t) = [] := by
      rw [trimStart_append_of_blank (List.dropWhile_eq_nil_iff.1 hs), hnil]
    rw [trim, trim, hboth, hs]
  · rw [trim, trimStart_append hs, trimEnd_append_of_blank h, trim]

/-- What stands at the front of a text without blanks in front has none either. -/
theorem trimStart_of_prefix (h : s <+: trimStart t) : trimStart s = s := by
  cases s with
  | nil => rfl
  | cons c rest =>
    obtain ⟨u, hu⟩ := h
    exact trimStart_cons (isBlank_of_dropWhile hu.symm)

/-- The end of a piece, once the blanks in front of it are dropped. -/
theorem IsPiece.trimStart_of_suffix (h : IsPiece t) (hsuffix : s <:+ t) (hne : trimStart s ≠ []) :
    IsPiece (trimStart s) := by
  constructor
  · obtain ⟨c, rest, hc⟩ := List.exists_cons_of_ne_nil hne
    exact ⟨c, rest, hc, isBlank_of_dropWhile hc⟩
  · obtain ⟨front, c, hfront, hc⟩ := h.ends
    obtain ⟨u, hu⟩ := (trimStart_suffix_self s).trans hsuffix
    obtain ⟨own, d, hown⟩ := (List.eq_nil_or_concat (trimStart s)).resolve_left hne
    rw [List.concat_eq_append] at hown
    rw [hown, hfront, ← List.append_assoc] at hu
    obtain rfl := List.singleton_inj.1 (List.append_inj' hu rfl).2
    exact ⟨own, d, hown, hc⟩

/-- The end of a piece ends like the piece, trimmed as well. -/
theorem getLast?_trim_of_suffix (h : IsPiece t) (hsuffix : s <:+ t) (hne : trim s ≠ []) :
    (trim s).getLast? = t.getLast? := by
  have hstart : trimStart s ≠ [] := fun hnil => hne (by rw [trim, hnil]; rfl)
  obtain ⟨front, c, hfront, hc⟩ := (h.trimStart_of_suffix hsuffix hstart).ends
  obtain ⟨u, hu⟩ := (trimStart_suffix_self s).trans hsuffix
  rw [trim, hfront, trimEnd_concat hc, ← hu, hfront]
  simp

theorem isPiece_joined {sep : Text} (hne : parts ≠ []) (h : ∀ p ∈ parts, IsPiece p) :
    IsPiece (joined sep parts) := by
  induction parts with
  | nil => exact absurd rfl hne
  | cons p rest ih =>
    have hp := h p List.mem_cons_self
    cases rest with
    | nil => simpa [joined] using hp
    | cons q rest =>
      have hrest := ih (List.cons_ne_nil _ _) fun r hr => h r (List.mem_cons_of_mem _ hr)
      rw [joined, List.intercalate_cons_cons]
      exact hp.append hrest sep

theorem prefix_joined (sep p : Text) (rest : List Text) : p <+: joined sep (p :: rest) := by
  cases rest with
  | nil => simp [joined]
  | cons q rest =>
    rw [joined, List.intercalate_cons_cons, List.append_assoc]
    exact List.prefix_append _ _

theorem mem_joined {sep : Text} (h : c ∈ joined sep parts) : c ∈ sep ∨ ∃ p ∈ parts, c ∈ p := by
  induction parts with
  | nil => simp [joined] at h
  | cons p rest ih =>
    cases rest with
    | nil => exact Or.inr ⟨p, List.mem_cons_self, by simpa [joined] using h⟩
    | cons q rest =>
      rw [joined, List.intercalate_cons_cons, List.mem_append, List.mem_append] at h
      rcases h with (hp | hsep) | hrest
      · exact Or.inr ⟨p, List.mem_cons_self, hp⟩
      · exact Or.inl hsep
      · exact (ih hrest).imp_right fun ⟨r, hr, hc⟩ => ⟨r, List.mem_cons_of_mem _ hr, hc⟩

/-! ## Splitting and joining -/

theorem mem_splitOn (h : p ∈ t.splitOn sep) : sep ∉ p ∧ p ⊆ t := by
  induction t generalizing p with
  | nil =>
    obtain rfl := List.mem_singleton.1 (List.splitOn_nil sep ▸ h)
    exact ⟨List.not_mem_nil, List.Subset.refl _⟩
  | cons c t ih =>
    rw [List.splitOn_cons_eq_if_modifyHead] at h
    split at h
    next =>
      rcases List.mem_cons.1 h with rfl | h
      · exact ⟨List.not_mem_nil, List.nil_subset _⟩
      · exact ⟨(ih h).1, List.subset_cons_of_subset _ (ih h).2⟩
    next hc =>
      obtain ⟨q, rest, hsplit⟩ := List.exists_cons_of_ne_nil (List.splitOn_ne_nil sep t)
      rw [hsplit] at h ih
      rcases List.mem_cons.1 h with rfl | h
      · obtain ⟨hq, hsubset⟩ := ih List.mem_cons_self
        have hne : c ≠ sep := by simpa using hc
        exact ⟨List.not_mem_cons_of_ne_of_not_mem (Ne.symm hne) hq, List.cons_subset_cons c hsubset⟩
      · obtain ⟨hp, hsubset⟩ := ih (List.mem_cons_of_mem _ h)
        exact ⟨hp, List.subset_cons_of_subset _ hsubset⟩

theorem mem_pieces (h : p ∈ pieces sep t) : IsPiece p ∧ sep ∉ p ∧ p ⊆ t := by
  obtain ⟨hp, hne⟩ := List.mem_filter.1 h
  obtain ⟨whole, hwhole, rfl⟩ := List.mem_map.1 hp
  refine ⟨isPiece_trim (by simpa using hne), ?_, ?_⟩
  · exact fun hsep => (mem_splitOn hwhole).1 (trim_subset _ hsep)
  · exact List.Subset.trans (trim_subset _) (mem_splitOn hwhole).2

theorem splitOn_joined (hne : parts ≠ []) (h : ∀ p ∈ parts, sep ∉ p) :
    (joined [sep] parts).splitOn sep = parts :=
  List.splitOn_intercalate sep h hne

theorem map_trim_eq (h : ∀ p ∈ parts, IsPiece p) : parts.map trim = parts := by
  have htrim : parts.map trim = parts.map id := List.map_congr_left fun p hp => (h p hp).trim_eq
  rw [htrim, List.map_id]

theorem pieces_joined (h : ∀ p ∈ parts, IsPiece p ∧ sep ∉ p) :
    pieces sep (joined [sep] parts) = parts := by
  by_cases hne : parts = []
  · subst hne
    simp [joined, pieces, trim, trimStart, trimEnd]
  rw [pieces, splitOn_joined hne fun p hp => (h p hp).2, map_trim_eq fun p hp => (h p hp).1,
    List.filter_eq_self]
  intro p hp
  simpa using (h p hp).1.ne_nil

/-- The longest front with a property ends before the first character that lacks it. -/
theorem span_append {test : Char → Bool} (h : ∀ c ∈ s, test c = true)
    (hrest : ∀ c, t.head? = some c → test c = false) :
    ((s ++ t).takeWhile test, (s ++ t).dropWhile test) = (s, t) := by
  rw [List.takeWhile_append_of_pos h, List.dropWhile_append_of_pos h]
  cases t with
  | nil => simp
  | cons c t => simp [hrest c rfl]

theorem cutAt_append (h : sep ∉ s) : cutAt sep (s ++ sep :: t) = some (s, t) := by
  induction s with
  | nil => simp [cutAt]
  | cons c s ih =>
    rw [List.mem_cons, not_or] at h
    rw [List.cons_append, cutAt, if_neg (Ne.symm h.1), ih h.2]
    rfl

theorem cutAt_eq_none (h : sep ∉ t) : cutAt sep t = none := by
  induction t with
  | nil => rfl
  | cons c t ih =>
    rw [List.mem_cons, not_or] at h
    rw [cutAt, if_neg (Ne.symm h.1), ih h.2]
    rfl

theorem eq_of_cutAt {a b : Text} (h : cutAt sep t = some (a, b)) : t = a ++ sep :: b := by
  induction t generalizing a with
  | nil => cases h
  | cons c t ih =>
    rw [cutAt] at h
    split at h
    next hc =>
      obtain ⟨rfl, rfl⟩ := Prod.mk.inj (Option.some.inj h)
      rw [hc, List.nil_append]
    next =>
      obtain ⟨⟨a', b'⟩, hcut, heq⟩ := Option.map_eq_some_iff.1 h
      obtain ⟨rfl, rfl⟩ := Prod.mk.inj heq
      rw [ih hcut, List.cons_append]

/-! ## Lines

The lines of a text that continues behind a newline are those up to the newline and those behind
it. -/

theorem splitOn_append_cons (a b : Text) :
    (a ++ sep :: b).splitOn sep = a.splitOn sep ++ b.splitOn sep := by
  induction a with
  | nil =>
    rw [List.nil_append, List.splitOn_cons_eq_if_modifyHead, if_pos (beq_self_eq_true sep),
      List.splitOn_nil]
    rfl
  | cons c a ih =>
    obtain ⟨first, rest, hsplit⟩ := List.exists_cons_of_ne_nil (List.splitOn_ne_nil sep a)
    rw [List.cons_append, List.splitOn_cons_eq_if_modifyHead, List.splitOn_cons_eq_if_modifyHead,
      ih, hsplit]
    split <;> rfl

/-- Pieces that others follow have each been ended by a newline. -/
theorem linesOfPieces_append {xs ys : List Text} (hys : ys ≠ []) :
    linesOfPieces (xs ++ ys) = xs.map dropReturn ++ linesOfPieces ys := by
  induction xs with
  | nil => rfl
  | cons line rest ih =>
    obtain ⟨next, others, hnext⟩ :=
      List.exists_cons_of_ne_nil (List.append_ne_nil_of_right_ne_nil rest hys)
    rw [List.cons_append, List.map_cons, List.cons_append, ← ih, hnext]
    rfl

theorem lines_append_cons (a b : Text) :
    lines (a ++ '\n' :: b) = (a.splitOn '\n').map dropReturn ++ lines b := by
  rw [lines, splitOn_append_cons, linesOfPieces_append (List.splitOn_ne_nil _ b), lines]

/-- A final newline opens no further line. -/
theorem lines_concat (a : Text) : lines (a ++ ['\n']) = (a.splitOn '\n').map dropReturn := by
  rw [lines_append_cons, lines, List.splitOn_nil]
  exact List.append_nil _

end Text
end Wardrobe
