import Wardrobe.Assignment
import Wardrobe.Proofs.Match
/-
The outfit of each character, taken for itself.

Resolution goes through the files once and adds to the lists of all characters on the way.  Here the
list of one character is written down directly: its distributions are those of the rules that match
it, file by file and rule by rule, and the winner is the last of them.
-/

namespace Wardrobe

variable {p : Population} {tags : Tags} {slot : Slot} {file : RuleFile} {order i n : Nat}
  {r : Rule} {files : List RuleFile} {placed : List (RuleFile × Nat)} {collected : Collected}

/-! ## The distributions on one character -/

/-- What a rule of a file puts on the character at a position. -/
def distributionOf? (p : Population) (tags : Tags) (file : RuleFile) (order i : Nat) (r : Rule) :
    Option Distribution :=
  match r.target with
  | .outfit _ (.form _ key editorId) =>
    if p.satisfiesAt tags r.filters i then some (.ofRule file order r key editorId) else none
  | _ => none

/-- What a file with its position puts on a character, rule by rule. -/
def distributionsOfFile (p : Population) (tags : Tags) (slot : Slot) (i : Nat)
    (placed : RuleFile × Nat) : List Distribution :=
  (placed.1.rules.filter (·.setsSlot slot)).filterMap
    (distributionOf? p tags placed.1 (placed.2 + 1) i)

/-- What all files put on a character, in the order in which they are applied. -/
def distributionsOn (p : Population) (tags : Tags) (slot : Slot) (placed : List (RuleFile × Nat))
    (i : Nat) : List Distribution :=
  placed.flatMap (distributionsOfFile p tags slot i)

/-! ## What resolution collects -/

namespace Collected

def on (collected : Collected) (i : Nat) : List Distribution := collected.getD i []

theorem on_modify {f : List Distribution → List Distribution} {j : Nat}
    (hi : i < collected.size) :
    on (collected.modify j f) i = if j = i then f (on collected i) else on collected i := by
  rw [on, on, Array.getD_eq_getD_getElem?, Array.getD_eq_getD_getElem?, Array.getElem?_modify,
    Array.getElem?_eq_getElem hi]
  split <;> rfl

theorem on_foldl_modify {f : List Distribution → List Distribution} {characters : List Nat}
    (hnodup : characters.Nodup) (hi : i < collected.size) :
    on (characters.foldl (fun collected j => collected.modify j f) collected) i =
      if i ∈ characters then f (on collected i) else on collected i := by
  induction characters generalizing collected with
  | nil => simp
  | cons j rest ih =>
    obtain ⟨hj, hrest⟩ := List.nodup_cons.1 hnodup
    have hsize : i < (collected.modify j f).size := by simpa using hi
    rw [List.foldl_cons, ih hrest hsize, on_modify hi]
    by_cases hji : j = i
    · subst hji
      simp [hj]
    · have hij : i ≠ j := fun h => hji h.symm
      simp [hji, hij]

end Collected

theorem Collected.size_foldl_modify {f : List Distribution → List Distribution}
    (characters : List Nat) (collected : Collected) :
    (characters.foldl (fun collected j => collected.modify j f) collected).size =
      collected.size := by
  induction characters generalizing collected with
  | nil => rfl
  | cons j rest ih => rw [List.foldl_cons, ih, Array.size_modify]

theorem size_collectRule (collected : Collected) (r : Rule) :
    (collectRule p tags file order collected r).size = collected.size := by
  rw [collectRule]
  split
  · exact Collected.size_foldl_modify _ _
  · rfl

theorem size_foldl_collectRule (rules : List Rule) (collected : Collected) :
    (rules.foldl (collectRule p tags file order) collected).size = collected.size := by
  induction rules generalizing collected with
  | nil => rfl
  | cons r rest ih => rw [List.foldl_cons, ih, size_collectRule]

theorem size_collectFile (collected : Collected) (f : RuleFile × Nat) :
    (collectFile p tags slot collected f).size = collected.size :=
  size_foldl_collectRule _ _

theorem on_collectRule (hsize : collected.size = p.size) (hi : i < p.size) :
    (collectRule p tags file order collected r).on i =
      (distributionOf? p tags file order i r).toList ++ collected.on i := by
  have hnodup : (p.matching tags r.filters).Nodup := List.nodup_range.filter _
  rw [collectRule, distributionOf?]
  rcases r.target with ⟨_, ⟨_, key, editorId⟩ | _⟩ | _
  · dsimp only
    rw [Collected.on_foldl_modify hnodup (hsize ▸ hi)]
    simp only [Population.mem_matching]
    split <;> rfl
  · rfl
  · rfl

theorem on_foldl_collectRule {rules : List Rule} (hsize : collected.size = p.size)
    (hi : i < p.size) :
    (rules.foldl (collectRule p tags file order) collected).on i =
      (rules.filterMap (distributionOf? p tags file order i)).reverse ++ collected.on i := by
  induction rules generalizing collected with
  | nil => rfl
  | cons r rest ih =>
    rw [List.foldl_cons, ih ((size_collectRule collected r).trans hsize), on_collectRule hsize hi,
      List.filterMap_cons]
    cases distributionOf? p tags file order i r <;> simp

theorem on_collectFile (f : RuleFile × Nat) (hsize : collected.size = p.size) (hi : i < p.size) :
    (collectFile p tags slot collected f).on i =
      (distributionsOfFile p tags slot i f).reverse ++ collected.on i :=
  on_foldl_collectRule hsize hi

/-- The walk over the files collects for each character just what they put on it, latest first. -/
theorem on_foldl_collectFile (placed : List (RuleFile × Nat)) (hsize : collected.size = p.size)
    (hi : i < p.size) :
    (placed.foldl (collectFile p tags slot) collected).on i =
      (distributionsOn p tags slot placed i).reverse ++ collected.on i := by
  induction placed generalizing collected with
  | nil => rfl
  | cons f rest ih =>
    rw [List.foldl_cons, ih ((size_collectFile collected f).trans hsize),
      on_collectFile f hsize hi, distributionsOn, distributionsOn, List.flatMap_cons,
      List.reverse_append, List.append_assoc]

theorem size_foldl_collectFile (placed : List (RuleFile × Nat)) (collected : Collected) :
    (placed.foldl (collectFile p tags slot) collected).size = collected.size := by
  induction placed generalizing collected with
  | nil => rfl
  | cons f rest ih => rw [List.foldl_cons, ih, size_collectFile]

theorem Collected.on_replicate (n i : Nat) : on (Array.replicate n []) i = [] := by
  rw [on, Array.getD_eq_getD_getElem?, Array.getElem?_replicate]
  split <;> rfl

/-! ## Results -/

/-- The result for the character at a position, unless no rule matches it. -/
def assignmentAt? (p : Population) (tags : Tags) (slot : Slot) (placed : List (RuleFile × Nat))
    (i : Nat) : Option Assignment :=
  p.characters[i]?.bind fun c =>
    assignmentOf? slot c.npc (distributionsOn p tags slot placed i).reverse

theorem filterMap_eq_range (f : α → Option β) (l : List α) :
    l.filterMap f = (List.range l.length).filterMap fun i => l[i]?.bind f := by
  induction l with
  | nil => rfl
  | cons a rest ih =>
    rw [List.length_cons, List.range_succ_eq_map, List.filterMap_cons, List.filterMap_cons,
      List.filterMap_map, ih]
    rfl

theorem results_ofFiles (p : Population) (files : List RuleFile) (tags : Tags) (slot : Slot) :
    (Resolution.ofFiles p files tags slot false).results =
      (List.range p.size).filterMap (assignmentAt? p tags slot files.zipIdx) := by
  let collected := files.zipIdx.foldl (collectFile p tags slot) (Array.replicate p.size [])
  have hsize : collected.size = p.size :=
    (size_foldl_collectFile _ _).trans Array.size_replicate
  have hlength : (p.npcs.zip collected.toList).length = p.size := by
    simp [Population.npcs, Population.size, hsize]
  show (p.npcs.zip collected.toList).filterMap (fun f => assignmentOf? slot f.1 f.2) = _
  rw [filterMap_eq_range, hlength]
  refine List.filterMap_congr fun i hi => ?_
  have hi' : i < p.size := List.mem_range.1 hi
  have hcharacter : p.characters[i]? = some p.characters[i] := Array.getElem?_eq_getElem hi'
  have hon : collected.toList[i]? = some (distributionsOn p tags slot files.zipIdx i).reverse := by
    have hall : Collected.on collected i = (distributionsOn p tags slot files.zipIdx i).reverse ++
        Collected.on (Array.replicate p.size []) i :=
      on_foldl_collectFile files.zipIdx Array.size_replicate hi'
    rw [Collected.on_replicate, List.append_nil, Collected.on, Array.getD_eq_getD_getElem?,
      Array.getElem?_eq_getElem (hsize ▸ hi')] at hall
    rw [Array.getElem?_toList, Array.getElem?_eq_getElem (hsize ▸ hi'), ← hall]
    rfl
  have hzip : (p.npcs.zip collected.toList)[i]? =
      some (p.characters[i].npc, (distributionsOn p tags slot files.zipIdx i).reverse) := by
    rw [List.getElem?_zip_eq_some]
    exact ⟨by simp [Population.npcs, hcharacter], hon⟩
  rw [hzip, assignmentAt?, hcharacter]
  rfl

/-! ## Winners -/

theorem isOfGame_ofRule (file : RuleFile) (order : Nat) (r : Rule) (key : FormKey)
    (editorId : Option Text) :
    (Distribution.ofRule file order r key editorId).isOfGame = false := by
  rw [Distribution.isOfGame, Distribution.ofRule]
  cases r.dialect <;> rfl

theorem distributionOf?_eq_some {d : Distribution} :
    distributionOf? p tags file order i r = some d ↔
      ∃ slot kind key editorId, r.target = .outfit slot (.form kind key editorId) ∧
        p.satisfiesAt tags r.filters i = true ∧ d = .ofRule file order r key editorId := by
  rw [distributionOf?]
  rcases r.target with ⟨slot, ⟨kind, key, editorId⟩ | plugin⟩ | tag
  · by_cases hholds : p.satisfiesAt tags r.filters i = true
    · simp [hholds, eq_comm]
    · simp [hholds]
  · simp
  · simp

/-- A distribution on a character comes from a rule of one of the files. -/
theorem mem_distributionsOn {d : Distribution} :
    d ∈ distributionsOn p tags slot placed i ↔ ∃ f ∈ placed, ∃ r ∈ f.1.rules,
      r.setsSlot slot = true ∧ distributionOf? p tags f.1 (f.2 + 1) i r = some d := by
  simp [distributionsOn, distributionsOfFile, List.mem_flatMap, List.mem_filterMap, and_assoc]

theorem isOfGame_of_mem_distributionsOn {d : Distribution}
    (h : d ∈ distributionsOn p tags slot placed i) : d.isOfGame = false := by
  obtain ⟨f, -, r, -, -, hd⟩ := mem_distributionsOn.1 h
  obtain ⟨_, _, key, editorId, -, -, rfl⟩ := distributionOf?_eq_some.1 hd
  exact isOfGame_ofRule _ _ _ _ _

theorem lastIndexWhere_concat {test : α → Bool} {as : List α} {a : α} (h : test a = true) :
    lastIndexWhere test (as ++ [a]) = as.length := by
  have hlast : [as.length].filter (fun i => (as ++ [a])[i]?.any test) = [as.length] := by
    simp [h]
  rw [lastIndexWhere, List.length_append, List.length_singleton, List.range_succ,
    List.filter_append, hlast, List.getLastD_concat]

/-- The last distribution of a rule wins over all others. -/
theorem Assignment.winner?_concat {npc : Npc} {ds : List Distribution} {d : Distribution}
    (h : d.isOfGame = false) : (ofDistributions npc (ds ++ [d])).winner? = some d := by
  have hindex : lastIndexWhere (fun d => !d.isOfGame) (ds ++ [d]) = ds.length :=
    lastIndexWhere_concat (by simp [h])
  rw [winner?, ofDistributions]
  simp [hindex]

theorem assignmentAt?_eq_some {a : Assignment} (h : assignmentAt? p tags slot placed i = some a) :
    ∃ c, p.characters[i]? = some c ∧ a.npc = c.npc.id ∧
      a.winner? = (distributionsOn p tags slot placed i).getLast? ∧
      a.ruleWinner? = (distributionsOn p tags slot placed i).getLast? := by
  obtain ⟨c, hc, ha⟩ := Option.bind_eq_some_iff.1 h
  rw [assignmentOf?, List.isEmpty_reverse, List.reverse_reverse] at ha
  split at ha
  · cases ha
  next hne =>
    obtain rfl := Option.some.inj ha
    -- The distributions of rules are not empty, so they have a last one, which wins.
    rcases List.eq_nil_or_concat (distributionsOn p tags slot placed i) with hnil | ⟨ds, d, hds⟩
    · exact absurd (List.isEmpty_iff.2 hnil) hne
    rw [List.concat_eq_append] at hds
    have hrule : d.isOfGame = false :=
      isOfGame_of_mem_distributionsOn (hds ▸ List.mem_append_right _ List.mem_cons_self)
    refine ⟨c, hc, rfl, ?_, ?_⟩
    · rw [hds, ← List.append_assoc, Assignment.winner?_concat hrule, List.getLast?_concat]
    · rw [hds, ← List.append_assoc, Assignment.ruleWinner?, Assignment.winner?_concat hrule,
        List.getLast?_concat]
      simp [hrule]

theorem distributions_of_assignmentAt? {a : Assignment}
    (h : assignmentAt? p tags slot placed i = some a) : ∃ npc : Npc, a.distributions =
      (npc.ownOutfit? slot).toList.map (Distribution.ofGame npc) ++
        distributionsOn p tags slot placed i := by
  obtain ⟨c, -, ha⟩ := Option.bind_eq_some_iff.1 h
  rw [assignmentOf?, List.isEmpty_reverse, List.reverse_reverse] at ha
  split at ha
  · cases ha
  · obtain rfl := Option.some.inj ha
    exact ⟨c.npc, rfl⟩

theorem assignmentAt?_eq_none (hi : i < p.size) :
    assignmentAt? p tags slot placed i = none ↔ distributionsOn p tags slot placed i = [] := by
  have hc : p.characters[i]? = some p.characters[i] := Array.getElem?_eq_getElem hi
  rw [assignmentAt?, hc, Option.bind_some, assignmentOf?, List.isEmpty_reverse]
  split
  next h => simpa using h
  next h => simpa using h

/-! ## Another file among the files -/

/-- The distribution when its file stands one place further back. -/
def Distribution.later (d : Distribution) : Distribution :=
  { d with processingOrder := d.processingOrder + 1 }

theorem distributionOf?_succ (p : Population) (tags : Tags) (file : RuleFile) (order i : Nat)
    (r : Rule) : distributionOf? p tags file (order + 1) i r =
      (distributionOf? p tags file order i r).map Distribution.later := by
  rw [distributionOf?, distributionOf?]
  rcases r.target with ⟨_, ⟨_, key, editorId⟩ | _⟩ | _
  · dsimp only
    split <;> rfl
  · rfl
  · rfl

theorem distributionsOfFile_succ (f : RuleFile) (n : Nat) :
    distributionsOfFile p tags slot i (f, n + 1) =
      (distributionsOfFile p tags slot i (f, n)).map Distribution.later := by
  rw [distributionsOfFile, distributionsOfFile, List.map_filterMap]
  refine List.filterMap_congr fun r _ => ?_
  exact distributionOf?_succ p tags f (n + 1) i r

theorem distributionsOn_zipIdx_succ (files : List RuleFile) (n : Nat) :
    distributionsOn p tags slot (files.zipIdx (n + 1)) i =
      (distributionsOn p tags slot (files.zipIdx n) i).map Distribution.later := by
  induction files generalizing n with
  | nil => rfl
  | cons f rest ih =>
    rw [List.zipIdx_cons, List.zipIdx_cons, distributionsOn, distributionsOn, List.flatMap_cons,
      List.flatMap_cons, List.map_append, distributionsOfFile_succ]
    exact congrArg _ (ih (n + 1))

theorem distributionsOn_append (before after : List RuleFile) :
    distributionsOn p tags slot (before ++ after).zipIdx i =
      distributionsOn p tags slot before.zipIdx i ++
        distributionsOn p tags slot (after.zipIdx before.length) i := by
  rw [distributionsOn, List.zipIdx_append, List.flatMap_append, Nat.zero_add]
  rfl

theorem distributionsOn_insert (before after : List RuleFile) (f : RuleFile) :
    distributionsOn p tags slot (before ++ f :: after).zipIdx i =
      distributionsOn p tags slot before.zipIdx i ++
        (distributionsOfFile p tags slot i (f, before.length) ++
          (distributionsOn p tags slot (after.zipIdx before.length) i).map Distribution.later) := by
  rw [distributionsOn_append, ← distributionsOn_zipIdx_succ, List.zipIdx_cons]
  rfl

/-- The winner when a file that puts something on the character is inserted: either the file wins,
or the old winner comes from behind it and stays. -/
theorem getLast?_distributionsOn_insert {before after : List RuleFile} {f : RuleFile}
    (hputs : distributionsOfFile p tags slot i (f, before.length) ≠ []) :
    (∃ d ∈ distributionsOfFile p tags slot i (f, before.length),
      (distributionsOn p tags slot (before ++ f :: after).zipIdx i).getLast? = some d) ∨
    ∃ w ∈ distributionsOn p tags slot (after.zipIdx before.length) i,
      (distributionsOn p tags slot (before ++ after).zipIdx i).getLast? = some w ∧
      (distributionsOn p tags slot (before ++ f :: after).zipIdx i).getLast? = some w.later := by
  rw [distributionsOn_insert, distributionsOn_append, List.getLast?_append, List.getLast?_append,
    List.getLast?_append, List.getLast?_map]
  cases hlast : (distributionsOn p tags slot (after.zipIdx before.length) i).getLast? with
  | some w => exact Or.inr ⟨w, List.mem_of_getLast? hlast, rfl, rfl⟩
  | none =>
    refine Or.inl ⟨_, List.getLast_mem hputs, ?_⟩
    rw [List.getLast?_eq_getLast_of_ne_nil hputs]
    rfl

/-- A winner that does not come from before the file that is put in stays, whatever is in it. -/
theorem getLast?_distributionsOn_insert_of_not_mem {before after : List RuleFile} {f : RuleFile}
    {w : Distribution}
    (hw : (distributionsOn p tags slot (before ++ after).zipIdx i).getLast? = some w)
    (hbefore : w ∉ distributionsOn p tags slot before.zipIdx i) :
    (distributionsOn p tags slot (before ++ f :: after).zipIdx i).getLast? = some w.later := by
  rw [distributionsOn_append, List.getLast?_append] at hw
  rw [distributionsOn_insert, List.getLast?_append, List.getLast?_append, List.getLast?_map]
  cases hlast : (distributionsOn p tags slot (after.zipIdx before.length) i).getLast? with
  | some last =>
    rw [hlast] at hw
    obtain rfl := Option.some.inj hw
    rfl
  | none =>
    rw [hlast] at hw
    exact absurd (List.mem_of_getLast? hw) hbefore

/-! ## Results by key -/

/-- No two characters have the same key. -/
def Population.DistinctIds (p : Population) : Prop :=
  p.npcs.Pairwise fun a b => a.id.same b.id = false

theorem Population.DistinctIds.eq_of_same (h : p.DistinctIds) {c d : Character} {j : Nat}
    (hc : p.characters[i]? = some c) (hd : p.characters[j]? = some d)
    (hsame : c.npc.id.same d.npc.id = true) : i = j := by
  have hnpcs : ∀ {k : Nat} {e : Character}, p.characters[k]? = some e →
      ∃ hk : k < p.npcs.length, p.npcs[k] = e.npc := by
    intro k e he
    exact List.getElem?_eq_some_iff.1 (by simp [npcs, he])
  obtain ⟨hi, hci⟩ := hnpcs hc
  obtain ⟨hj, hdj⟩ := hnpcs hd
  have hpairs := List.pairwise_iff_getElem.1 h
  rcases Nat.lt_trichotomy i j with hlt | heq | hlt
  · have hapart := hpairs i j hi hj hlt
    rw [hci, hdj, hsame] at hapart
    cases hapart
  · exact heq
  · have hapart := hpairs j i hj hi hlt
    rw [hci, hdj, FormKey.same_comm, hsame] at hapart
    cases hapart

theorem find?_eq_some_of_unique {l : List α} {test : α → Bool} {a : α} (ha : a ∈ l)
    (htest : test a = true) (hunique : ∀ b ∈ l, test b = true → b = a) :
    l.find? test = some a := by
  cases hfind : l.find? test with
  | none => exact absurd htest (by simpa using List.find?_eq_none.1 hfind a ha)
  | some b => rw [hunique b (List.mem_of_find?_eq_some hfind) (List.find?_some hfind)]

/-- Looking for a character's key among the results, in whatever order they are gone through, finds
the result for the character. -/
theorem find?_assignments (h : p.DistinctIds) {c : Character} {l : List Assignment}
    (hc : p.characters[i]? = some c)
    (hl : ∀ a, a ∈ l ↔ ∃ j, assignmentAt? p tags slot placed j = some a) :
    l.find? (fun a => a.npc.same c.npc.id) = assignmentAt? p tags slot placed i := by
  have hown : ∀ a ∈ l, a.npc.same c.npc.id = true →
      assignmentAt? p tags slot placed i = some a := by
    intro a ha hsame
    obtain ⟨j, hj⟩ := (hl a).1 ha
    obtain ⟨d, hd, hid, -, -⟩ := assignmentAt?_eq_some hj
    rw [hid] at hsame
    exact h.eq_of_same hd hc hsame ▸ hj
  cases hat : assignmentAt? p tags slot placed i with
  | none =>
    refine List.find?_eq_none.2 fun a ha hsame => ?_
    rw [hown a ha hsame] at hat
    cases hat
  | some a =>
    obtain ⟨d, hd, hid, -, -⟩ := assignmentAt?_eq_some hat
    obtain rfl := Option.some.inj (hc.symm.trans hd)
    refine find?_eq_some_of_unique ((hl a).2 ⟨i, hat⟩) (hid ▸ FormKey.same_refl _) ?_
    intro b hb hsame
    exact (Option.some.inj ((hown b hb hsame).symm.trans hat))

theorem mem_results {a : Assignment} :
    a ∈ (Resolution.ofFiles p files tags slot false).results ↔
      ∃ i, assignmentAt? p tags slot files.zipIdx i = some a := by
  rw [results_ofFiles, List.mem_filterMap]
  constructor
  · intro h
    obtain ⟨i, -, ha⟩ := h
    exact ⟨i, ha⟩
  · intro h
    obtain ⟨i, ha⟩ := h
    obtain ⟨c, hc, -⟩ := assignmentAt?_eq_some ha
    exact ⟨i, List.mem_range.2 (Array.getElem?_eq_some_iff.1 hc).1, ha⟩

theorem find?_ofFiles (h : p.DistinctIds) {c : Character} (hc : p.characters[i]? = some c) :
    (Resolution.ofFiles p files tags slot false).find? c.npc.id =
      assignmentAt? p tags slot files.zipIdx i :=
  find?_assignments h hc fun _ => mem_results

/-- The last distribution on a character is the winner that is found under its key. -/
theorem exists_winner_ofFiles (h : p.DistinctIds) {c : Character} {d : Distribution}
    (hc : p.characters[i]? = some c)
    (hd : (distributionsOn p tags slot files.zipIdx i).getLast? = some d) :
    ∃ a, (Resolution.ofFiles p files tags slot false).find? c.npc.id = some a ∧
      a.winner? = some d := by
  have hi : i < p.size := (Array.getElem?_eq_some_iff.1 hc).1
  rw [find?_ofFiles h hc]
  cases hat : assignmentAt? p tags slot files.zipIdx i with
  | none =>
    rw [(assignmentAt?_eq_none hi).1 hat] at hd
    cases hd
  | some a =>
    obtain ⟨_, -, -, hwinner, -⟩ := assignmentAt?_eq_some hat
    exact ⟨a, rfl, hwinner.trans hd⟩

end Wardrobe
