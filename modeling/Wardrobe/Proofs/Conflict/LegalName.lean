import Wardrobe.Proofs.Conflict.Markers
/-
Suggested names as names of files.

What is made fit to be a file name is the name that was proposed, and the suffix and the markers
come to it afterwards.  They bring no character that a file name must not hold, and the suffix stays
at the end, but they take room that nobody has kept for them.
-/

namespace Wardrobe

namespace Text

variable {c : Char} {s t ending : Text} {room : Nat}

/-! ## Names that are fit as they are -/

@[simp] theorem utf8Size_cons (c : Char) (t : Text) : utf8Size (c :: t) = c.utf8Size + utf8Size t :=
  rfl

theorem utf8Size_append (s t : Text) : utf8Size (s ++ t) = utf8Size s + utf8Size t := by
  induction s with
  | nil => exact (Nat.zero_add _).symm
  | cons c s ih => rw [List.cons_append, utf8Size_cons, ih, utf8Size_cons, Nat.add_assoc]

theorem takeUtf8_eq_self_iff : takeUtf8 room t = t ↔ utf8Size t ≤ room := by
  induction t generalizing room with
  | nil => simp [takeUtf8, utf8Size]
  | cons c t ih =>
    rw [takeUtf8, utf8Size_cons]
    split
    next hfits => rw [List.cons_inj_right, ih, Nat.le_sub_iff_add_le hfits, Nat.add_comm]
    next hfull =>
      refine iff_of_false (List.cons_ne_nil _ _).symm fun hsize => hfull ?_
      exact (Nat.le_add_right _ _).trans hsize

theorem isKeptInNames_of_isAlphanum (h : c.isAlphanum = true) : isKeptInNames c = true := by
  have hall : c.isAlphanum = true → isKeptInNames c = true :=
    forall_ascii (P := fun c => c.isAlphanum = true → isKeptInNames c = true) (by decide)
      (toNat_lt_of_isAlphanum h)
  exact hall h

/-- Of a text without forbidden characters that is not all dots, the size alone matters. -/
theorem fileNameSafe_eq_self_iff (hkept : ∀ c ∈ t, isKeptInNames c = true)
    (hdot : ∃ c ∈ t, c ≠ '.') : fileNameSafe t = t ↔ utf8Size t ≤ maxNameSize := by
  have hfilter : t.filter isKeptInNames = t := List.filter_eq_self.2 hkept
  have hall : t.all (· = '.') = false := by simpa using hdot
  have hsafe : fileNameSafe t = takeUtf8 maxNameSize
      (if (t.filter isKeptInNames).all (· = '.') then [] else t.filter isKeptInNames) := rfl
  rw [hsafe, hfilter, hall]
  exact takeUtf8_eq_self_iff

/-! ## Endings -/

theorem endsWithAscii_iff : endsWithAscii ending t = true ↔ asciiLower ending <:+ asciiLower t :=
  List.isSuffixOf_iff_suffix

theorem endsWithAscii_append (s : Text) (h : endsWithAscii ending t = true) :
    endsWithAscii ending (s ++ t) = true := by
  have happend : asciiLower (s ++ t) = asciiLower s ++ asciiLower t := List.map_append
  rw [endsWithAscii_iff] at h ⊢
  rw [happend]
  exact h.trans (List.suffix_append _ _)

end Text

namespace LoadName

variable {marker : Char} {suffix proposed name : Text} {others : List Text} {n : Nat}

/-! ## Suggestions -/

theorem utf8Size_marked (hmarker : marker.isAlphanum = true) (n : Nat) :
    Text.utf8Size (marked marker suffix proposed n) =
      n + Text.utf8Size (baseName marker suffix proposed) := by
  have hone : marker.utf8Size = 1 := by
    have hall := Text.forall_ascii (P := fun c => c.utf8Size = 1) (by decide)
      (Text.toNat_lt_of_isAlphanum hmarker)
    exact hall
  have hrow : Text.utf8Size (List.replicate n marker) = n := by
    induction n with
    | zero => rfl
    | succ n ih => rw [List.replicate_succ, Text.utf8Size_cons, hone, ih, Nat.add_comm]
  rw [marked, Text.utf8Size_append, hrow]

theorem endsWithAscii_withSuffix (suffix name : Text) :
    Text.endsWithAscii suffix (withSuffix suffix name) = true := by
  rw [withSuffix]
  split
  next h => exact h
  next => exact Text.endsWithAscii_append name (Text.endsWithAscii_iff.2 List.suffix_rfl)

theorem isKeptInNames_of_mem_marked (hmarker : marker.isAlphanum = true)
    (hsuffix : Text.fileNameSafe suffix = suffix) {c : Char}
    (h : c ∈ marked marker suffix proposed n) : Text.isKeptInNames c = true := by
  rcases List.mem_append.1 h with hrow | hbase
  · rw [List.eq_of_mem_replicate hrow]
    exact Text.isKeptInNames_of_isAlphanum hmarker
  rw [baseName, withSuffix] at hbase
  split at hbase
  next => exact Text.isKeptInNames_of_mem_fileNameSafe hbase
  next =>
    rcases List.mem_append.1 hbase with hstem | hend
    · exact Text.isKeptInNames_of_mem_fileNameSafe hstem
    · rw [← hsuffix] at hend
      exact Text.isKeptInNames_of_mem_fileNameSafe hend

theorem fileNameSafe_marked_iff (hmarker : marker.isAlphanum = true)
    (hsuffix : Text.fileNameSafe suffix = suffix) (hn : 0 < n) :
    Text.fileNameSafe (marked marker suffix proposed n) = marked marker suffix proposed n ↔
      n + Text.utf8Size (baseName marker suffix proposed) ≤ Text.maxNameSize := by
  have hdot : marker ≠ '.' := by
    rintro rfl
    exact absurd hmarker (by decide)
  have hmem : marker ∈ marked marker suffix proposed n :=
    List.mem_append_left _ (List.mem_replicate.2 ⟨hn.ne', rfl⟩)
  rw [← utf8Size_marked hmarker]
  exact Text.fileNameSafe_eq_self_iff
    (fun c hc => isKeptInNames_of_mem_marked hmarker hsuffix hc) ⟨marker, hmem, hdot⟩

/-- A suggestion ends in the suffix that is asked for, and it can be kept as the name of a file
exactly if its markers and its base, which is cut to size before they come to it, have room in one
name together. -/
theorem legal_suggestion_iff {settings : Settings} {dialect : Dialect}
    (hchecked : settings.checked = .ok settings)
    (hsuffix : Text.fileNameSafe (settings.suffixFor dialect) = settings.suffixFor dialect)
    (h : suggest proposed others settings.priorityMarker (settings.suffixFor dialect) =
      some name) :
    Text.endsWithAscii (settings.suffixFor dialect) name = true ∧
      ∃ n base, name = List.replicate n settings.priorityMarker ++ base ∧
        base = baseName settings.priorityMarker (settings.suffixFor dialect) proposed ∧
        longestRow others < n ∧ n ≤ longestRow others + 1 + extraMarkers ∧
        (Text.fileNameSafe name = name ↔ n + Text.utf8Size base ≤ Text.maxNameSize) := by
  have hmarker := Settings.isAlphanum_of_checked hchecked
  obtain ⟨n, rfl, hle, ⟨hrow, -⟩, -⟩ := isLeast_of_suggest h
  exact ⟨Text.endsWithAscii_append _ (endsWithAscii_withSuffix _ _),
    n, _, rfl, rfl, hrow, hle, fileNameSafe_marked_iff hmarker hsuffix (Nat.zero_lt_of_lt hrow)⟩

theorem legal_suggestion_for_guards :
    ∃ name, suggest "Guards" ["ZZGuards_DISTR.ini".toList] Settings.default.priorityMarker
        (Settings.default.suffixFor .spid) = some name ∧
      Text.fileNameSafe name = name ∧
      Text.endsWithAscii (Settings.default.suffixFor .spid) name = true := by
  have hsome : suggest "Guards" ["ZZGuards_DISTR.ini".toList] Settings.default.priorityMarker
      (Settings.default.suffixFor .spid) = some "ZZZGuards_DISTR.ini".toList := by decide +kernel
  have hchecked : Settings.default.checked = .ok Settings.default := by decide
  obtain ⟨hend, n, base, hname, rfl, -, -, hlegal⟩ :=
    legal_suggestion_iff hchecked (by decide +kernel) hsome
  refine ⟨_, hsome, hlegal.2 ?_, hend⟩
  rw [← utf8Size_marked (by decide), marked, ← hname]
  decide +kernel

/-- A name as long as a name may be. -/
def fullName : Text := List.replicate 251 'a' ++ ".ini".toList

/-- The two markers before it make it too long. -/
theorem not_legal_suggestion_for_fullName :
    ¬ ∀ name, suggest fullName ["b.ini".toList] Settings.default.priorityMarker
        (Settings.default.suffixFor .skyPatcher) = some name →
      Text.fileNameSafe name = name ∧
        Text.endsWithAscii (Settings.default.suffixFor .skyPatcher) name = true := by
  intro h
  have hsome : suggest fullName ["b.ini".toList] Settings.default.priorityMarker
      (Settings.default.suffixFor .skyPatcher) =
      some (List.replicate 2 'Z' ++ fullName) := by decide +kernel
  have hcut : Text.fileNameSafe (List.replicate 2 'Z' ++ fullName) ≠
      List.replicate 2 'Z' ++ fullName := by decide +kernel
  exact hcut (h _ hsome).1

end LoadName
end Wardrobe
