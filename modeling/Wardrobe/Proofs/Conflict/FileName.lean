import Mathlib.Data.List.Basic
import Wardrobe.Conflict.FileName
import Wardrobe.Files.Path
import Wardrobe.Settings
/-
Suggested file names: that they sort last, and that they are names at all.

A suggestion has a marker at its front, and no slash can come into it but by the required suffix.
So it is the last component of the path that it is when a file is saved under it.
-/

namespace Wardrobe

/-! ## Names as paths -/

namespace Path

variable {t : Text}

/-- The path is a single name. -/
def IsName (t : Text) : Prop := steps t = [.name t]

theorem IsName.fileName_eq (h : IsName t) : fileName t = t := by
  rw [fileName, fileName?, h]
  rfl

theorem isName_of_alphanum {c : Char} {rest : Text} (hc : c.isAlphanum = true)
    (hslash : '/' ∉ c :: rest) : IsName (c :: rest) := by
  have hdot : c ≠ '.' := by
    intro h
    subst h
    exact absurd hc (by decide)
  have hsplit : (c :: rest).splitOn '/' = [c :: rest] := List.splitOn_eq_singleton hslash
  have hstep : step? (c :: rest) = some (.name (c :: rest)) := by
    simp [step?, hdot]
  rw [IsName, steps, hsplit]
  split
  next heq => cases heq
  next heq => exact absurd (List.cons.inj (List.cons.inj heq).1).1 hdot
  next => simp [hstep]

end Path

namespace Text

variable {t : Text} {c : Char}

theorem takeUtf8_subset (room : Nat) (t : Text) : takeUtf8 room t ⊆ t := by
  induction t generalizing room with
  | nil => simp [takeUtf8]
  | cons c rest ih =>
    rw [takeUtf8]
    split
    · exact List.cons_subset_cons _ (ih _)
    · exact List.nil_subset _

/-- A file name may hold the character. -/
def isKeptInNames (c : Char) : Bool := !reservedInNames.contains c && !isControl c

theorem isKeptInNames_of_mem_fileNameSafe (h : c ∈ fileNameSafe t) : isKeptInNames c = true := by
  have hkept := takeUtf8_subset _ _ h
  split at hkept
  · cases hkept
  · exact (List.mem_filter.1 hkept).2

theorem slash_not_mem_fileNameSafe (t : Text) : '/' ∉ fileNameSafe t := by
  intro h
  exact absurd (isKeptInNames_of_mem_fileNameSafe h) (by decide)

end Text

/-! ## Suggestions -/

namespace LoadName

variable {name proposed suffix : Text} {others : List Text} {marker : Char}

theorem comesLast_iff : comesLast name others = true ↔
    ∀ other ∈ others, Text.compare (Text.lower name) (Text.lower other) = .gt := by
  simp [comesLast, List.all_eq_true]

/-- A suggestion is the base name with one marker or more before it, and it sorts last. -/
theorem suggest_eq_some (h : suggest proposed others marker suffix = some name) :
    comesLast name others = true ∧
      ∃ n, name = List.replicate (n + 1) marker ++ baseName marker suffix proposed := by
  rw [suggest] at h
  have hlast := List.find?_some h
  refine ⟨hlast, ?_⟩
  obtain ⟨extra, -, rfl⟩ := List.mem_map.1 (List.mem_of_find?_eq_some h)
  exact ⟨longestRow others + extra, by rw [Nat.add_right_comm]⟩

theorem slash_not_mem_baseName (marker : Char) (proposed : Text) (hsuffix : '/' ∉ suffix) :
    '/' ∉ baseName marker suffix proposed := by
  have hsafe := Text.slash_not_mem_fileNameSafe (withoutMarkers marker proposed)
  rw [baseName, withSuffix]
  split
  · exact hsafe
  · intro h
    exact (List.mem_append.1 h).elim hsafe hsuffix

theorem isName_of_suggest (hmarker : marker.isAlphanum = true) (hsuffix : '/' ∉ suffix)
    (h : suggest proposed others marker suffix = some name) : Path.IsName name := by
  obtain ⟨-, n, rfl⟩ := suggest_eq_some h
  refine Path.isName_of_alphanum hmarker ?_
  show '/' ∉ List.replicate (n + 1) marker ++ baseName marker suffix proposed
  intro hslash
  rcases List.mem_append.1 hslash with hrow | hbase
  · rw [← List.eq_of_mem_replicate hrow] at hmarker
    exact absurd hmarker (by decide)
  · exact slash_not_mem_baseName marker proposed hsuffix hbase

end LoadName

namespace Settings

variable {s : Settings}

theorem isAlphanum_of_checked (h : s.checked = .ok s) : s.priorityMarker.isAlphanum = true := by
  rw [checked] at h
  split at h
  · cases h
  split at h
  next hmarker => exact hmarker
  next => cases h

theorem slash_not_mem_suffixFor (h : '/' ∉ s.spidSuffix) (dialect : Dialect) :
    '/' ∉ s.suffixFor dialect := by
  cases dialect with
  | spid => exact h
  | skyPatcher =>
    show '/' ∉ ".ini".toList
    decide

end Settings
end Wardrobe
