import Wardrobe.Proofs.Rule.WellFormed
/-
What of a line does not matter to what it comes to: white space at its ends and its comment.

A line is read through what is left of it once the comment is gone and the ends are trimmed.  Only a
line of which nothing is left is looked at again, to tell a blank line from a comment.  So two lines
with something visible on them come to the same if the same is left of them.
-/

namespace Wardrobe

variable {c : Catalog} {dialect : Dialect} {n : Nat} {line line' : Text}

theorem readRuleLine_congr
    (hleft : Text.trim (withoutComment line') = Text.trim (withoutComment line))
    (h : Text.trim line ≠ []) (h' : Text.trim line' ≠ []) :
    readRuleLine c dialect n line' = readRuleLine c dialect n line := by
  have hline : (Text.trim line).isEmpty = false := by simpa using h
  have hline' : (Text.trim line').isEmpty = false := by simpa using h'
  unfold readRuleLine
  rw [hleft, hline, hline']

/-! ## The comment -/

theorem takeWhile_append_of_blank {s back : Text} (h : ∀ ch ∈ back, Text.isBlank ch = true) :
    Text.trim ((s ++ back).takeWhile (· ≠ ';')) = Text.trim (s.takeWhile (· ≠ ';')) := by
  by_cases hall : ∀ ch ∈ s, (decide (ch ≠ ';')) = true
  · have hback : back.takeWhile (· ≠ ';') = back := by
      refine List.takeWhile_eq_self_iff.2 fun ch hch => decide_eq_true fun heq => ?_
      have hblank := h ch hch
      rw [heq] at hblank
      revert hblank
      decide
    rw [List.takeWhile_append_of_pos hall, hback, Text.trim_append_of_blank h,
      List.takeWhile_eq_self_iff.2 hall]
  · rw [List.takeWhile_append, if_neg fun hlength => hall ?_]
    exact List.takeWhile_eq_self_iff.1 ((List.takeWhile_prefix _).eq_of_length hlength)

theorem withoutComment_padded {front back : Text} (hvisible : Text.trimStart line ≠ [])
    (hfront : ∀ ch ∈ front, Text.isBlank ch = true) (hback : ∀ ch ∈ back, Text.isBlank ch = true) :
    Text.trim (withoutComment (front ++ line ++ back)) = Text.trim (withoutComment line) := by
  have hstart : Text.trimStart (front ++ line ++ back) = Text.trimStart line ++ back := by
    rw [List.append_assoc, Text.trimStart_append_of_blank hfront, Text.trimStart_append hvisible]
  have hhead : (Text.trimStart line ++ back).head? = (Text.trimStart line).head? :=
    List.head?_append_of_ne_nil _ hvisible
  rw [withoutComment, withoutComment, hstart, hhead]
  split
  · rfl
  · exact takeWhile_append_of_blank hback

/-- More of the comment.  Behind a number sign in front the semicolon belongs to the comment too. -/
theorem withoutComment_append_semicolon (hvisible : Text.trimStart line ≠ []) (comment : Text) :
    withoutComment (line ++ ';' :: comment) = withoutComment line := by
  have hstart :
      Text.trimStart (line ++ ';' :: comment) = Text.trimStart line ++ ';' :: comment :=
    Text.trimStart_append hvisible
  have hhead : (Text.trimStart line ++ ';' :: comment).head? = (Text.trimStart line).head? :=
    List.head?_append_of_ne_nil _ hvisible
  have hsemicolon : (';' :: comment).takeWhile (· ≠ ';') = [] :=
    List.takeWhile_cons_of_neg (by simp)
  rw [withoutComment, withoutComment, hstart, hhead, List.takeWhile_append, hsemicolon,
    List.append_nil]
  split
  · rfl
  · split
    · next hlength => exact ((List.takeWhile_prefix _).eq_of_length hlength).symm
    · rfl

/-! ## What is left of a line -/

theorem withoutComment_prefix_trimStart (line : Text) :
    withoutComment line <+: Text.trimStart line := by
  rw [withoutComment]
  split
  · exact List.nil_prefix
  · exact List.takeWhile_prefix _

theorem not_mem_withoutComment (line : Text) : ';' ∉ withoutComment line := by
  rw [withoutComment]
  split
  · exact List.not_mem_nil
  · intro hmem
    have hkept := List.all_eq_true.1 List.all_takeWhile ';' hmem
    simp at hkept

theorem head?_of_withoutComment_ne_nil (h : withoutComment line ≠ []) :
    (Text.trimStart line).head? ≠ some '#' := by
  intro hhead
  rw [withoutComment] at h
  exact h (if_pos hhead)

/-- What is left of a line has no comment and nothing to trim. -/
theorem withoutComment_trim (h : Text.trim (withoutComment line) ≠ []) :
    withoutComment (Text.trim (withoutComment line)) = Text.trim (withoutComment line) := by
  have hne : withoutComment line ≠ [] := by
    intro hnil
    rw [hnil] at h
    exact h rfl
  have hprefix : Text.trim (withoutComment line) <+: Text.trimStart line := by
    rw [Text.trim, Text.trimStart_of_prefix (withoutComment_prefix_trimStart line)]
    exact (Text.trimEnd_prefix_self _).trans (withoutComment_prefix_trimStart line)
  have hhead : (Text.trim (withoutComment line)).head? ≠ some '#' := by
    have hstart := head?_of_withoutComment_ne_nil hne
    obtain ⟨rest, hrest⟩ := hprefix
    rwa [← hrest, List.head?_append_of_ne_nil _ h] at hstart
  have hsemicolon : ';' ∉ Text.trim (withoutComment line) :=
    fun hmem => not_mem_withoutComment line (Text.trim_subset _ hmem)
  rw [withoutComment, (Text.isPiece_trim h).trimStart_eq, if_neg hhead, List.takeWhile_eq_self_iff]
  intro ch hch
  exact decide_eq_true fun heq => hsemicolon (heq ▸ hch)

theorem ne_nil_of_readRuleLine {rules : List Rule}
    (h : readRuleLine c dialect n line = .rules rules) :
    Text.trim (withoutComment line) ≠ [] := by
  intro hnil
  unfold readRuleLine at h
  rw [hnil] at h
  dsimp only [List.isEmpty_nil] at h
  rw [if_pos rfl] at h
  split at h <;> cases h

/-- White space around a line with something on it and a comment behind it change nothing, and the
text that a rule keeps of its line is read as the line is. -/
theorem readRuleLine_of_padding (c : Catalog) (dialect : Dialect) (n : Nat)
    (hvisible : ∃ ch ∈ line, Text.isBlank ch = false) :
    (∀ front back, (∀ ch ∈ front, Text.isBlank ch = true) → (∀ ch ∈ back, Text.isBlank ch = true) →
      readRuleLine c dialect n (front ++ line ++ back) = readRuleLine c dialect n line) ∧
    (∀ comment, readRuleLine c dialect n (line ++ ';' :: comment) = readRuleLine c dialect n line) ∧
    ∀ rules, readRuleLine c dialect n line = .rules rules →
      ∀ r ∈ rules, readRuleLine c dialect n r.raw = .rules rules := by
  obtain ⟨ch, hch, hblank⟩ := hvisible
  have hstart : Text.trimStart line ≠ [] := List.ne_nil_of_mem (Text.mem_trimStart hblank hch)
  have hline : Text.trim line ≠ [] := Text.trim_ne_nil hblank hch
  refine ⟨fun front back hfront hback => ?_, fun comment => ?_, fun rules hrules r hr => ?_⟩
  · refine readRuleLine_congr (withoutComment_padded hstart hfront hback) hline ?_
    exact Text.trim_ne_nil hblank (by simp [hch])
  · have hlonger : Text.trim (line ++ ';' :: comment) ≠ [] :=
      Text.trim_ne_nil hblank (by simp [hch])
    refine readRuleLine_congr (congrArg Text.trim ?_) hline hlonger
    exact withoutComment_append_semicolon hstart comment
  · have hne := ne_nil_of_readRuleLine hrules
    have htrim := (Text.isPiece_trim hne).trim_eq
    rw [(origin_of_readRuleLine hrules r hr).2, ← hrules]
    refine readRuleLine_congr ?_ hline ?_
    · rw [withoutComment_trim hne, htrim]
    · rwa [htrim]

/-! A line that dresses for day and night, between wide blanks and with another comment. -/

def everyHourLine : Text := "outfitDefault=Parade:outfitSleep=Parade ; by night"

def everyHourRule (slot : Slot) : Rule where
  dialect := .skyPatcher
  lineNumber := 5
  raw := "outfitDefault=Parade:outfitSleep=Parade"
  target := .outfit slot (.form .outfit ⟨"Skyrim.esm", 3⟩ (some "Parade"))
  filters := .empty
  chance := none
  extra := none

theorem everyHourLine_padded :
    (∃ ch ∈ everyHourLine, Text.isBlank ch = false) ∧
      readRuleLine SkyPatcher.court .skyPatcher 5 everyHourLine =
        .rules [everyHourRule .default, everyHourRule .sleep] ∧
      readRuleLine SkyPatcher.court .skyPatcher 5
          ("\u3000\t".toList ++ everyHourLine ++ " \u2029".toList) =
        .rules [everyHourRule .default, everyHourRule .sleep] ∧
      readRuleLine SkyPatcher.court .skyPatcher 5 (everyHourLine ++ ';' :: "[by day] #".toList) =
        .rules [everyHourRule .default, everyHourRule .sleep] ∧
      readRuleLine SkyPatcher.court .skyPatcher 5 (everyHourRule .sleep).raw =
        .rules [everyHourRule .default, everyHourRule .sleep] := by
  have hvisible : ∃ ch ∈ everyHourLine, Text.isBlank ch = false := ⟨'o', by decide, by decide⟩
  have hread : readRuleLine SkyPatcher.court .skyPatcher 5 everyHourLine =
      .rules [everyHourRule .default, everyHourRule .sleep] := by decide +kernel
  obtain ⟨hpadded, hcomment, hraw⟩ :=
    readRuleLine_of_padding SkyPatcher.court .skyPatcher 5 hvisible
  have hfront : ∀ ch ∈ "\u3000\t".toList, Text.isBlank ch = true :=
    Text.forall_mem_of_all (by decide)
  have hback : ∀ ch ∈ " \u2029".toList, Text.isBlank ch = true :=
    Text.forall_mem_of_all (by decide)
  exact ⟨hvisible, hread, (hpadded _ _ hfront hback).trans hread,
    (hcomment "[by day] #".toList).trans hread, hraw _ hread (everyHourRule .sleep) (by simp)⟩

end Wardrobe
