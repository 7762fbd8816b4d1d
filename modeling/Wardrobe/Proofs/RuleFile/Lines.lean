import Wardrobe.Proofs.Rule.WellFormed
import Wardrobe.Proofs.RuleFile
import Wardrobe.Proofs.Text.Pieces
/-
A rule file is read line by line.

A line is read without a look at the others, and its number is only written down in what it comes
to.  So a text that continues another one gives what the other gives and then what it would give
alone, with higher line numbers.  And every line is accounted for: what a file knows of its lines,
its rules and its faults are three views of one list.
-/

namespace Wardrobe

variable {c : Catalog} {dialect : Dialect} {n k : Nat} {t line : Text}

/-! ## Lines further down -/

def Rule.movedDown (k : Nat) (r : Rule) : Rule := { r with lineNumber := r.lineNumber + k }

def Diagnostic.movedDown (k : Nat) (d : Diagnostic) : Diagnostic :=
  { d with lineNumber := d.lineNumber + k }

def FileLine.movedDown (k : Nat) (l : FileLine) : FileLine := { l with number := l.number + k }

/-- What the line would have come to `k` lines further down. -/
def LineOutcome.movedDown (k : Nat) : LineOutcome → LineOutcome
  | rules rs => rules (rs.map (Rule.movedDown k))
  | unparseable fault => unparseable fault
  | ignored kind => ignored kind

theorem map_mapM {f : α → Except ε β} {g : β → γ} (as : List α) :
    List.map g <$> as.mapM f = as.mapM fun a => g <$> f a := by
  induction as with
  | nil => rfl
  | cons a rest ih => simp [List.mapM_cons, ← ih]

theorem Spid.assemble_add (raw : Text) (type : Spid.EntryKind) (value : Text) :
    Spid.assemble c (n + k) raw type value =
      Rule.movedDown k <$> Spid.assemble c n raw type value := by
  unfold Spid.assemble
  dsimp only
  split
  · rfl
  · split
    · rfl
    · simp only [map_bind]
      rfl

theorem Spid.readLine_add :
    Spid.readLine c (n + k) t = (Spid.readLine c n t).movedDown k := by
  unfold Spid.readLine
  split
  · rfl
  next name value _ =>
    dsimp only
    split
    next type _ =>
      rw [Spid.assemble_add]
      cases Spid.assemble c n t type (Text.trim value) <;> rfl
    · split <;> rfl

theorem SkyPatcher.assemble_add (raw : Text) (filters : Filters) (assignment : Slot × Text) :
    SkyPatcher.assemble c (n + k) raw filters assignment =
      Rule.movedDown k <$> SkyPatcher.assemble c n raw filters assignment := by
  unfold SkyPatcher.assemble
  split <;> rfl

theorem SkyPatcher.readRules_add (raw : Text) (clauses : List (Text × Text)) :
    SkyPatcher.readRules c (n + k) raw clauses =
      List.map (Rule.movedDown k) <$> SkyPatcher.readRules c n raw clauses := by
  unfold SkyPatcher.readRules
  rw [map_bind]
  simp only [map_mapM, ← SkyPatcher.assemble_add]

theorem SkyPatcher.readLine_add :
    SkyPatcher.readLine c (n + k) t = (SkyPatcher.readLine c n t).movedDown k := by
  unfold SkyPatcher.readLine
  split
  · rfl
  next clauses _ =>
    split
    · rfl
    · rw [SkyPatcher.readRules_add]
      cases SkyPatcher.readRules c n t clauses <;> rfl

/-- The number of a line is written down in its rules and read nowhere. -/
theorem readRuleLine_add (c : Catalog) (dialect : Dialect) (n k : Nat) (line : Text) :
    readRuleLine c dialect (n + k) line = (readRuleLine c dialect n line).movedDown k := by
  unfold readRuleLine
  dsimp only
  split
  · split <;> rfl
  · split
    · rfl
    · cases dialect with
      | spid => exact Spid.readLine_add
      | skyPatcher => exact SkyPatcher.readLine_add

/-! ## What a line can come to -/

/-- A line with rules has one at least, and a line that is passed over is of another sort than those
with rules and those with faults. -/
def LineOutcome.IsProper : LineOutcome → Prop
  | rules rs => rs ≠ []
  | unparseable _ => True
  | ignored kind => kind ≠ .rule ∧ kind ≠ .unparseable

theorem Spid.isProper_readLine : (Spid.readLine c n t).IsProper := by
  cases hread : Spid.readLine c n t with
  | rules rules =>
    obtain ⟨_, _, _, r, -, rfl, -⟩ := Spid.rules_of_readLine hread
    exact List.cons_ne_nil r []
  | unparseable fault => trivial
  | ignored kind =>
    unfold Spid.readLine at hread
    split at hread
    · cases hread
    dsimp only at hread
    split at hread
    · split at hread <;> cases hread
    · split at hread
      · obtain rfl := LineOutcome.ignored.inj hread
        exact ⟨nofun, nofun⟩
      · cases hread

theorem SkyPatcher.isProper_readLine : (SkyPatcher.readLine c n t).IsProper := by
  cases hread : SkyPatcher.readLine c n t with
  | rules rules => exact SkyPatcher.ne_nil_of_readLine hread
  | unparseable fault => trivial
  | ignored kind =>
    unfold SkyPatcher.readLine at hread
    split at hread
    · cases hread
    split at hread
    · obtain rfl := LineOutcome.ignored.inj hread
      exact ⟨nofun, nofun⟩
    · split at hread <;> cases hread

theorem isProper_readRuleLine : (readRuleLine c dialect n line).IsProper := by
  unfold readRuleLine
  dsimp only
  split
  · split <;> exact ⟨nofun, nofun⟩
  · split
    · exact ⟨nofun, nofun⟩
    · cases dialect with
      | spid => exact Spid.isProper_readLine
      | skyPatcher => exact SkyPatcher.isProper_readLine

namespace RuleFile

variable {first : Nat} {lines : List Text} {l : ReadLine} {read : List ReadLine}

/-! ## A text that continues another one -/

def ReadLine.movedDown (k : Nat) (l : ReadLine) : ReadLine :=
  ⟨l.number + k, l.raw, l.outcome.movedDown k⟩

theorem ReadLine.source_movedDown : (l.movedDown k).source = l.source.movedDown k := by
  unfold ReadLine.source ReadLine.movedDown
  cases l.outcome <;> rfl

theorem ReadLine.rules_movedDown : (l.movedDown k).rules = l.rules.map (Rule.movedDown k) := by
  unfold ReadLine.rules ReadLine.movedDown
  cases l.outcome <;> rfl

theorem ReadLine.diagnostic?_movedDown :
    (l.movedDown k).diagnostic? = l.diagnostic?.map (Diagnostic.movedDown k) := by
  unfold ReadLine.diagnostic? ReadLine.movedDown
  cases l.outcome <;> rfl

theorem map_source_movedDown (read : List ReadLine) :
    (read.map (ReadLine.movedDown k)).map ReadLine.source =
      (read.map ReadLine.source).map (FileLine.movedDown k) := by
  rw [List.map_map, List.map_map]
  exact List.map_congr_left fun _ _ => ReadLine.source_movedDown

theorem flatMap_rules_movedDown (read : List ReadLine) :
    (read.map (ReadLine.movedDown k)).flatMap ReadLine.rules =
      (read.flatMap ReadLine.rules).map (Rule.movedDown k) := by
  rw [List.flatMap_map, List.map_flatMap]
  simp only [ReadLine.rules_movedDown]

theorem filterMap_diagnostic?_movedDown (read : List ReadLine) :
    (read.map (ReadLine.movedDown k)).filterMap ReadLine.diagnostic? =
      (read.filterMap ReadLine.diagnostic?).map (Diagnostic.movedDown k) := by
  rw [List.filterMap_map, List.map_filterMap]
  exact List.filterMap_congr fun _ _ => ReadLine.diagnostic?_movedDown

theorem length_readLines : (readLines c dialect first lines).length = lines.length := by
  induction lines generalizing first with
  | nil => rfl
  | cons line rest ih => exact congrArg (· + 1) ih

theorem readLines_append (before after : List Text) :
    readLines c dialect first (before ++ after) =
      readLines c dialect first before ++ readLines c dialect (first + before.length) after := by
  induction before generalizing first with
  | nil => rfl
  | cons line rest ih =>
    rw [List.cons_append, readLines, readLines, ih, List.length_cons, List.cons_append,
      Nat.add_right_comm, Nat.add_assoc]

theorem readLines_add (lines : List Text) :
    readLines c dialect (first + k) lines =
      (readLines c dialect first lines).map (ReadLine.movedDown k) := by
  induction lines generalizing first with
  | nil => rfl
  | cons line rest ih =>
    rw [readLines, readLines, List.map_cons, ← ih, readRuleLine_add, Nat.add_right_comm]
    rfl

/-- The file with the lines of another one behind its own. -/
def continuedBy (f g : RuleFile) : RuleFile :=
  { f with
    lines := f.lines ++ g.lines.map (FileLine.movedDown f.lines.length)
    rules := f.rules ++ g.rules.map (Rule.movedDown f.lines.length)
    diagnostics := f.diagnostics ++ g.diagnostics.map (Diagnostic.movedDown f.lines.length) }

theorem ofText_append_cons (c : Catalog) (path : Text) (dialect : Dialect) (a b : Text) :
    ofText c path dialect (a ++ '\n' :: b) =
      (ofText c path dialect (a ++ ['\n'])).continuedBy (ofText c path dialect b) := by
  have hlines : (a ++ '\n' :: b).lines = (a ++ ['\n']).lines ++ b.lines := by
    rw [Text.lines_append_cons, Text.lines_concat]
  have hread : readLines c dialect 1 (a ++ '\n' :: b).lines =
      readLines c dialect 1 (a ++ ['\n']).lines ++
        (readLines c dialect 1 b.lines).map (ReadLine.movedDown (a ++ ['\n']).lines.length) := by
    rw [hlines, readLines_append, readLines_add]
  unfold ofText continuedBy
  simp only [hread, List.map_append, List.flatMap_append, List.filterMap_append, List.length_map,
    length_readLines, map_source_movedDown, flatMap_rules_movedDown,
    filterMap_diagnostic?_movedDown]

/-! ## Every line is accounted for -/

/-- Line by line, what the file knows of its text. -/
structure AccountsFor (f : RuleFile) (text : Text) : Prop where
  raw : f.lines.map (·.raw) = text.lines
  numbers : f.lines.map (·.number) = List.range' 1 f.lines.length
  diagnostics : f.diagnostics.map (fun d => (d.lineNumber, d.raw)) =
    (f.lines.filter (·.kind == .unparseable)).map fun l => (l.number, l.raw)
  line_of_rule : ∀ r ∈ f.rules, ∃ l ∈ f.lines, l.kind = .rule ∧ l.number = r.lineNumber
  rule_of_line : ∀ l ∈ f.lines, l.kind = .rule → ∃ r ∈ f.rules, r.lineNumber = l.number
  ascending : f.rules.Pairwise fun r r' => r.lineNumber ≤ r'.lineNumber

theorem map_raw_readLines : (readLines c dialect first lines).map ReadLine.raw = lines := by
  induction lines generalizing first with
  | nil => rfl
  | cons line rest ih => exact congrArg (line :: ·) ih

theorem map_number_readLines :
    (readLines c dialect first lines).map ReadLine.number = List.range' first lines.length := by
  induction lines generalizing first with
  | nil => rfl
  | cons line rest ih => exact congrArg (first :: ·) ih

theorem isProper_of_mem_readLines (hl : l ∈ readLines c dialect first lines) :
    l.outcome.IsProper := by
  rw [(outcome_of_mem_readLines hl).2]
  exact isProper_readRuleLine

theorem ReadLine.kind_eq_rule (h : l.outcome.IsProper) :
    l.source.kind = .rule ↔ ∃ r, r ∈ l.rules := by
  have hnone : ¬ ∃ r : Rule, r ∈ ([] : List Rule) := by simp
  unfold source rules
  cases houtcome : l.outcome with
  | rules rs =>
    rw [houtcome] at h
    exact iff_of_true rfl (List.exists_mem_of_ne_nil rs h)
  | unparseable fault => exact iff_of_false nofun hnone
  | ignored kind =>
    rw [houtcome] at h
    exact iff_of_false h.1 hnone

theorem ReadLine.map_diagnostic? (h : l.outcome.IsProper) :
    l.diagnostic?.map (fun d => (d.lineNumber, d.raw)) =
      if l.source.kind == .unparseable then some (l.source.number, l.source.raw) else none := by
  unfold diagnostic? source
  cases houtcome : l.outcome with
  | rules rs => rfl
  | unparseable fault => rfl
  | ignored kind =>
    rw [houtcome] at h
    have hkind : (kind == LineKind.unparseable) = false := beq_eq_false_iff_ne.2 h.2
    simp [LineOutcome.kind, hkind]

/-- The faults are those of the lines that could not be read, one for each. -/
theorem map_diagnostics (h : ∀ l ∈ read, l.outcome.IsProper) :
    (read.filterMap ReadLine.diagnostic?).map (fun d => (d.lineNumber, d.raw)) =
      ((read.map ReadLine.source).filter (·.kind == .unparseable)).map
        fun l => (l.number, l.raw) := by
  rw [List.map_filterMap, ← List.filterMap_eq_filter, List.map_filterMap, List.filterMap_map]
  refine List.filterMap_congr fun l hl => ?_
  rw [ReadLine.map_diagnostic? (h l hl)]
  by_cases hkind : l.source.kind = .unparseable
  · simp [hkind, Option.guard]
  · simp [hkind, Option.guard]

theorem accountsFor_ofText (c : Catalog) (path : Text) (dialect : Dialect) (text : Text) :
    (ofText c path dialect text).AccountsFor text where
  raw := by
    show ((readLines c dialect 1 text.lines).map ReadLine.source).map (·.raw) = text.lines
    rw [List.map_map]
    exact map_raw_readLines
  numbers := by
    show ((readLines c dialect 1 text.lines).map ReadLine.source).map (·.number) =
      List.range' 1 ((readLines c dialect 1 text.lines).map ReadLine.source).length
    rw [List.map_map, List.length_map, length_readLines]
    exact map_number_readLines
  diagnostics := map_diagnostics fun _ hl => isProper_of_mem_readLines hl
  line_of_rule := by
    intro r hr
    obtain ⟨l, hl, hr⟩ := List.mem_flatMap.1 hr
    have hkind := (ReadLine.kind_eq_rule (isProper_of_mem_readLines hl)).2 ⟨r, hr⟩
    exact ⟨l.source, List.mem_map_of_mem hl, hkind, (lineNumber_of_mem_rules hl hr).symm⟩
  rule_of_line := by
    intro source hsource hkind
    obtain ⟨l, hl, rfl⟩ := List.mem_map.1 hsource
    obtain ⟨r, hr⟩ := (ReadLine.kind_eq_rule (isProper_of_mem_readLines hl)).1 hkind
    exact ⟨r, List.mem_flatMap.2 ⟨l, hl, hr⟩, lineNumber_of_mem_rules hl hr⟩
  ascending := by
    have hnumbers : (readLines c dialect 1 text.lines).Pairwise (·.number < ·.number) := by
      rw [← List.pairwise_map, map_number_readLines]
      exact List.pairwise_lt_range' _
    refine List.pairwise_flatMap.2 ⟨fun l hl => ?_, ?_⟩
    · refine List.pairwise_of_forall_mem_list fun r hr r' hr' => ?_
      rw [lineNumber_of_mem_rules hl hr, lineNumber_of_mem_rules hl hr']
    · refine hnumbers.imp_of_mem fun hl hl' hlt r hr r' hr' => ?_
      rw [lineNumber_of_mem_rules hl hr, lineNumber_of_mem_rules hl' hr']
      exact Nat.le_of_lt hlt

/-- A text behind a newline adds what it would come to alone, further down, and of every text each
line is accounted for. -/
theorem ofText_lineByLine (c : Catalog) (path : Text) (dialect : Dialect) :
    (∀ a b, ofText c path dialect (a ++ '\n' :: b) =
      (ofText c path dialect (a ++ ['\n'])).continuedBy (ofText c path dialect b)) ∧
    ∀ text, (ofText c path dialect text).AccountsFor text :=
  ⟨ofText_append_cons c path dialect, accountsFor_ofText c path dialect⟩

end RuleFile
end Wardrobe
