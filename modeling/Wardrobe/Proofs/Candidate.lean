import Wardrobe.Candidate
import Wardrobe.Files.Recording
import Wardrobe.Proofs.Resolution
/-
Loading the candidates that were found.

A candidate is put in its place by its format, the name at the end of its path and the path, and the
file that is loaded from it has all three from it.  So the files that could be read stand in load
order already, and sorting them once more leaves them where they are.
-/

namespace Wardrobe

open Std

variable {v : FileView} {s : Settings} {c : Catalog} {dataFolder : Text} {a b : Candidate}
  {candidates : List Candidate} {f : RuleFile}

/-! ## One candidate -/

/-- Something is at the path of the candidate, and its bytes can be read. -/
def Candidate.isReadable (v : FileView) (a : Candidate) : Bool :=
  (v.kind? a.path).isSome && (v.read a.path).isOk

/-- The file holds what is at the path of the candidate, read in its format. -/
structure RuleFile.IsLoadedFrom (v : FileView) (c : Catalog) (a : Candidate) (f : RuleFile) :
    Prop where
  path : f.path = a.path
  dialect : f.dialect = a.dialect
  content : ∃ bytes, v.read a.path = .ok bytes ∧
    f = .ofDecoded c a.path a.dialect (Text.decode bytes)

/-- The entry tells of the candidate, and why it could not be read. -/
structure UnreadableFile.IsOf (v : FileView) (a : Candidate) (skipped : UnreadableFile) :
    Prop where
  path : skipped.path = a.path
  reason : ∃ e, v.decodedText a.path = .error e ∧ skipped.reason = e.message

theorem Candidate.load_of_isReadable (h : a.isReadable v = true) :
    ∃ f, load v c a = .ok f ∧ f.IsLoadedFrom v c a := by
  rw [isReadable, Bool.and_eq_true] at h
  obtain ⟨hkind, hread⟩ := h
  have hthere : (v.kind? a.path).isNone = false := by simpa using hkind
  cases hbytes : v.read a.path with
  | error fault =>
    rw [hbytes] at hread
    cases hread
  | ok bytes =>
    have hdecoded : v.decodedText a.path = .ok (Text.decode bytes) := by
      simp [FileView.decodedText, hthere, hbytes]
    refine ⟨_, by rw [load, hdecoded], rfl, rfl, bytes, hbytes, rfl⟩

theorem Candidate.load_of_not_isReadable (h : a.isReadable v = false) :
    ∃ skipped, load v c a = .error skipped ∧ skipped.IsOf v a := by
  obtain ⟨e, he⟩ : ∃ e, v.decodedText a.path = .error e := by
    rw [FileView.decodedText]
    cases hkind : v.kind? a.path with
    | none => exact ⟨_, rfl⟩
    | some kind =>
      cases hread : v.read a.path with
      | ok bytes => simp [isReadable, hkind, hread, Except.isOk, Except.toBool] at h
      | error fault => exact ⟨_, rfl⟩
  exact ⟨_, by rw [load, he], rfl, e, he, rfl⟩

/-! ## The two orders -/

/-- The candidate that a file is loaded from. -/
def RuleFile.candidate (f : RuleFile) : Candidate := ⟨f.path, f.dialect⟩

theorem RuleFile.IsLoadedFrom.candidate_eq (h : f.IsLoadedFrom v c a) : f.candidate = a := by
  rw [candidate, h.path, h.dialect]

/-- A candidate stands where any file stands that has its format, path and name. -/
theorem Candidate.comparePlace_eq (a b : Candidate) :
    comparePlace a b = RuleFile.comparePlace (.ofText .empty a.path a.dialect [])
      (.ofText .empty b.path b.dialect []) := rfl

instance : TransCmp Candidate.comparePlace := by
  have hfiles := transCmp_onFun RuleFile.comparePlace
    fun a : Candidate => RuleFile.ofText .empty a.path a.dialect []
  have heq : Candidate.comparePlace = fun a b =>
      RuleFile.comparePlace (.ofText .empty a.path a.dialect [])
        (.ofText .empty b.path b.dialect []) := by
    funext a b
    exact Candidate.comparePlace_eq a b
  rw [heq]
  exact hfiles

theorem RuleFile.IsLoadedFrom.comparePlace_eq {g : RuleFile} (hf : f.IsLoadedFrom v c a)
    (hg : g.IsLoadedFrom v c b) : comparePlace f g = Candidate.comparePlace a b := by
  obtain ⟨-, -, -, -, rfl⟩ := hf
  obtain ⟨-, -, -, -, rfl⟩ := hg
  rfl

/-- Files stand in load order if the candidates that they are loaded from do. -/
theorem ascending_of_isLoadedFrom {files : List RuleFile}
    (hfiles : List.Forall₂ (fun a f => f.IsLoadedFrom v c a) candidates files)
    (h : Ascending Candidate.comparePlace candidates) : Ascending RuleFile.comparePlace files := by
  induction hfiles with
  | nil => exact .nil
  | cons hf hrest ih =>
    obtain ⟨hfirst, hlater⟩ := List.pairwise_cons.1 h
    refine List.pairwise_cons.2 ⟨fun g hg => ?_, ih hlater⟩
    obtain ⟨b, hb, hgb⟩ := exists_of_mem_right hrest hg
    rw [hf.comparePlace_eq hgb]
    exact hfirst b hb

/-! ## All candidates -/

namespace Loaded

/-- What could not be read. -/
def skipped? : Except UnreadableFile RuleFile → Option UnreadableFile
  | .ok _ => none
  | .error skipped => some skipped

theorem foldl_add (results : List (Except UnreadableFile RuleFile)) (loaded : Loaded) :
    results.foldl add loaded = ⟨loaded.status, loaded.files ++ results.filterMap Except.toOption,
      loaded.skipped ++ results.filterMap skipped?⟩ := by
  induction results generalizing loaded with
  | nil => simp
  | cons result rest ih =>
    rw [List.foldl_cons, ih]
    cases result with
    | ok f => simp [add, List.filterMap_cons, Except.toOption, skipped?]
    | error skipped => simp [add, List.filterMap_cons, Except.toOption, skipped?]

theorem ofCandidates_eq (v : FileView) (c : Catalog) (candidates : List Candidate) :
    ofCandidates v c candidates false = ⟨.completed,
      RuleFile.inLoadOrder (candidates.filterMap fun a => (Candidate.load v c a).toOption),
      candidates.filterMap fun a => skipped? (Candidate.load v c a)⟩ := by
  have hresults := foldl_add (candidates.map (Candidate.load v c)) ⟨.completed, [], []⟩
  rw [ofCandidates, if_neg Bool.false_ne_true, hresults]
  simp only [List.nil_append, List.filterMap_map, Function.comp_def]

theorem forall₂_files (v : FileView) (c : Catalog) (candidates : List Candidate) :
    List.Forall₂ (fun a f => f.IsLoadedFrom v c a) (candidates.filter (·.isReadable v))
      (candidates.filterMap fun a => (Candidate.load v c a).toOption) := by
  refine forall₂_filter_filterMap (fun a _ hreadable => ?_) fun a _ hunreadable => ?_
  · obtain ⟨f, hload, hf⟩ := Candidate.load_of_isReadable hreadable
    exact ⟨f, by rw [hload]; rfl, hf⟩
  · obtain ⟨skipped, hload, -⟩ := Candidate.load_of_not_isReadable hunreadable
    rw [hload]
    rfl

theorem forall₂_skipped (v : FileView) (c : Catalog) (candidates : List Candidate) :
    List.Forall₂ (fun a skipped => skipped.IsOf v a) (candidates.filter fun a => !a.isReadable v)
      (candidates.filterMap fun a => skipped? (Candidate.load v c a)) := by
  refine forall₂_filter_filterMap (fun a _ hunreadable => ?_) fun a _ hreadable => ?_
  · obtain ⟨skipped, hload, hskipped⟩ :=
      Candidate.load_of_not_isReadable (c := c) (by simpa using hunreadable)
    exact ⟨skipped, by rw [hload]; rfl, hskipped⟩
  · obtain ⟨f, hload, -⟩ := Candidate.load_of_isReadable (c := c) (by simpa using hreadable)
    rw [hload]
    rfl

theorem map_eq_of_forall₂ {R : α → β → Prop} {as : List α} {bs : List β} {f : α → γ} {g : β → γ}
    (h : List.Forall₂ R as bs) (hR : ∀ a b, R a b → g b = f a) : bs.map g = as.map f := by
  induction h with
  | nil => rfl
  | cons hab _ ih => rw [List.map_cons, List.map_cons, hR _ _ hab, ih]

/-- Each of the candidates that were found comes out of loading once: as a file of its path and
format if it can be read, and otherwise among the skipped ones.  The files stand in the order of the
candidates, which sorting them again does not change. -/
theorem ofCandidates_inFolder (c : Catalog)
    (h : Candidate.inFolder v s dataFolder = .ok candidates) :
    let loaded := ofCandidates v c candidates false
    loaded.status = .completed ∧
      (loaded.files.map (·.path) ++ loaded.skipped.map (·.path)).Perm (candidates.map (·.path)) ∧
      loaded.files.map (·.candidate) = candidates.filter (·.isReadable v) ∧
      List.Forall₂ (fun a f => f.IsLoadedFrom v c a) (candidates.filter (·.isReadable v))
        loaded.files ∧
      List.Forall₂ (fun a skipped => skipped.IsOf v a)
        (candidates.filter fun a => !a.isReadable v) loaded.skipped := by
  have hsorted : Ascending Candidate.comparePlace candidates := by
    rw [Candidate.inFolder] at h
    split at h
    · obtain rfl := Except.ok.inj h
      exact ascending_sortBy _
    · cases h
  have hfiles := forall₂_files v c candidates
  have hskipped := forall₂_skipped v c candidates
  have hload : RuleFile.inLoadOrder (candidates.filterMap fun a =>
      (Candidate.load v c a).toOption) = candidates.filterMap fun a =>
        (Candidate.load v c a).toOption :=
    sortBy_of_ascending (ascending_of_isLoadedFrom hfiles (hsorted.filter _))
  rw [ofCandidates_eq, hload]
  refine ⟨rfl, ?_, ?_, hfiles, hskipped⟩
  · dsimp only
    rw [map_eq_of_forall₂ hfiles fun _ _ hf => hf.path,
      map_eq_of_forall₂ hskipped fun _ _ hs => hs.path, ← List.map_append]
    exact (List.filter_append_perm _ candidates).map _
  · rw [map_eq_of_forall₂ (f := id) hfiles fun _ _ hf => hf.candidate_eq, List.map_id]

/-! A folder in which one of three files cannot be read. -/

def messHall : Recording :=
  [⟨"Data", .folder ["b_DISTR.ini", "C_DISTR.ini", "Readme.txt"] []⟩,
   ⟨"Data/SKSE/Plugins/SkyPatcher/npc", .folder [] ["mail/Z.ini", "SkyPatcher.ini"]⟩,
   ⟨"Data/b_DISTR.ini", .file (.error (.other "Permission denied (os error 13)"))⟩,
   ⟨"Data/C_DISTR.ini", .file (.ok "; nothing".toUTF8)⟩,
   ⟨"Data/SKSE/Plugins/SkyPatcher/npc/mail/Z.ini", .file (.ok "; nothing".toUTF8)⟩]

def messHallFiles : List Candidate :=
  [⟨"Data/SKSE/Plugins/SkyPatcher/npc/mail/Z.ini", .skyPatcher⟩, ⟨"Data/b_DISTR.ini", .spid⟩,
   ⟨"Data/C_DISTR.ini", .spid⟩]

theorem messHall_loaded :
    Candidate.inFolder messHall.view .default "Data" = .ok messHallFiles ∧
      (ofCandidates messHall.view .empty messHallFiles false).files.map (·.candidate) =
        [⟨"Data/SKSE/Plugins/SkyPatcher/npc/mail/Z.ini", .skyPatcher⟩,
         ⟨"Data/C_DISTR.ini", .spid⟩] ∧
      (ofCandidates messHall.view .empty messHallFiles false).skipped.map (·.path) =
        [("Data/b_DISTR.ini" : Text)] := by
  have hfound : Candidate.inFolder messHall.view .default "Data" = .ok messHallFiles := by
    decide +kernel
  obtain ⟨-, -, hfiles, -, hskipped⟩ := ofCandidates_inFolder .empty hfound
  refine ⟨hfound, hfiles.trans (by decide +kernel), ?_⟩
  rw [map_eq_of_forall₂ hskipped fun _ _ hs => hs.path]
  decide +kernel

end Loaded
end Wardrobe
