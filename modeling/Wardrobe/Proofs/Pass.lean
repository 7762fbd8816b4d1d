import Wardrobe.Pass
import Wardrobe.Proofs.Assignment
import Wardrobe.Proofs.Keyword.Replay
import Wardrobe.Proofs.RuleFile
/-
What a completed pass consists of, and what another file changes in it.

A file without keyword rules leaves the tags as they are.  So every character keeps its
distributions, and the new file adds its own between those of the files before and after it.
-/

namespace Wardrobe

variable {game : Game} {files before after : List RuleFile} {skipped : List UnreadableFile}
  {slot : Slot} {cancelled : Bool} {f : RuleFile} {tags : Tags} {p : Population} {i n : Nat}

/-! ## Completed passes -/

theorem Resolution.ofFiles_of_completed
    (h : (ofFiles p files tags slot cancelled).status = .completed) :
    ofFiles p files tags slot cancelled = ofFiles p files tags slot false := by
  rw [ofFiles] at h ⊢
  split at h
  · cases h
  next hrun =>
    rw [if_neg hrun]
    rfl

namespace Pass

/-- The tags that the keyword rules of the files come to. -/
def finalTags (game : Game) (files : List RuleFile) : Tags :=
  Keyword.finalTags game.population (tagRules files)

theorem completed_overFiles
    (h : (overFiles game files skipped slot cancelled).status = .completed) :
    (overFiles game files skipped slot cancelled).files = files ∧
      (overFiles game files skipped slot cancelled).tags = finalTags game files ∧
      (overFiles game files skipped slot cancelled).resolution =
        .ofFiles game.population files (finalTags game files) slot false := by
  rw [overFiles] at h ⊢
  rw [finalTags]
  dsimp only at h ⊢
  split at h
  · cases h
  next hreplay =>
    rw [Keyword.tags_replayAll hreplay] at h ⊢
    split at h
    · cases h
    next hresolution =>
      dsimp only
      exact ⟨rfl, rfl, Resolution.ofFiles_of_completed hresolution⟩

theorem resolution_of_completed {run : Pass}
    (hrun : run = .overFiles game files skipped slot cancelled) (h : run.status = .completed) :
    run.resolution = .ofFiles game.population run.files run.tags slot false := by
  subst hrun
  obtain ⟨hfiles, htags, hresolution⟩ := completed_overFiles h
  rw [hfiles, htags, hresolution]

theorem slot_resolution {run : Pass}
    (hrun : run = .overFiles game files skipped slot cancelled) (h : run.status = .completed) :
    run.resolution.slot = slot := by
  rw [resolution_of_completed hrun h]
  rfl

theorem status_overFiles (game : Game) (files : List RuleFile) (skipped : List UnreadableFile)
    (slot : Slot) : (overFiles game files skipped slot false).status = .completed := rfl

end Pass

/-! ## Another file -/

theorem tagRules_insert (h : ∀ r ∈ f.rules, r.target.tag? = none) :
    tagRules (before ++ f :: after) = tagRules (before ++ after) := by
  have hnone : f.rules.filter (·.target.tag?.isSome) = [] := by
    refine List.filter_eq_nil_iff.2 fun r hr => ?_
    simp [h r hr]
  simp [tagRules, hnone]

theorem finalTags_insert (h : ∀ r ∈ f.rules, r.target.tag? = none) :
    Pass.finalTags game (before ++ f :: after) = Pass.finalTags game (before ++ after) := by
  rw [Pass.finalTags, Pass.finalTags, tagRules_insert h]

/-! ## The file of a distribution -/

/-- The place in load order that the file of a distribution has. -/
def Distribution.loadKey (d : Distribution) : Nat × Text := (d.tier, Text.lower d.fileName)

theorem mem_distributionsOfFile {d : Distribution} :
    d ∈ distributionsOfFile p tags slot i (f, n) ↔ ∃ r ∈ f.rules, r.setsSlot slot = true ∧
      distributionOf? p tags f (n + 1) i r = some d := by
  simp [distributionsOfFile, List.mem_filterMap, and_assoc]

theorem fileName_of_mem_distributionsOfFile {d : Distribution}
    (h : d ∈ distributionsOfFile p tags slot i (f, n)) : d.fileName = f.fileName := by
  obtain ⟨r, -, -, hd⟩ := mem_distributionsOfFile.1 h
  obtain ⟨_, _, _, _, -, -, rfl⟩ := distributionOf?_eq_some.1 hd
  rfl

theorem loadKey_of_mem_distributionsOfFile {c : Catalog} {d : Distribution} (hf : f.IsParsed c)
    (h : d ∈ distributionsOfFile p tags slot i (f, n)) : d.loadKey = f.loadKey := by
  obtain ⟨r, hr, -, hd⟩ := mem_distributionsOfFile.1 h
  obtain ⟨_, _, _, _, -, -, rfl⟩ := distributionOf?_eq_some.1 hd
  show (r.dialect.tier, Text.lower f.fileName) = (f.dialect.tier, Text.lower f.fileName)
  rw [(hf.isReadAs hr).dialect]

/-- A parsed file puts something on every character that one of its rules for the slot matches. -/
theorem distributionsOfFile_ne_nil {c : Catalog} {r : Rule} (hf : f.IsParsed c) (hr : r ∈ f.rules)
    (hslot : r.setsSlot slot = true) (hholds : p.satisfiesAt tags r.filters i = true) :
    distributionsOfFile p tags slot i (f, n) ≠ [] := by
  obtain ⟨key, editorId, htarget⟩ := (hf.isReadAs hr).target_of_setsSlot hslot
  have hput : distributionOf? p tags f (n + 1) i r = some (.ofRule f (n + 1) r key editorId) :=
    distributionOf?_eq_some.2 ⟨slot, .outfit, key, editorId, htarget, hholds, rfl⟩
  exact List.ne_nil_of_mem (mem_distributionsOfFile.2 ⟨r, hr, hslot, hput⟩)

end Wardrobe
