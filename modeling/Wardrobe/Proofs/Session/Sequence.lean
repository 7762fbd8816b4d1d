import Wardrobe.Proofs.Pass
import Wardrobe.Session
/-
Calls on one session, each answered before the next is made.

A pass takes the right to run, clears any wish to cancel and gives the right back, whether it
succeeds or fails.  So every call finds the session at rest, and what a pass comes to depends on
its request and the files alone.
-/

namespace Wardrobe

variable {v : FileView} {request : PassRequest} {path : Text}

/-! ## What a pass can fail on -/

theorem Snapshot.load_ne_cancelled : Snapshot.load v path ≠ .error .cancelled := by
  intro h
  rw [Snapshot.load] at h
  split at h
  · cases h
  split at h
  next t _ =>
    cases hread : Snapshot.read t with
    | ok snapshot =>
      rw [hread] at h
      cases h
    | error fault =>
      rw [hread] at h
      cases h
  next => cases h

theorem Loaded.status_foldl_add (read : List (Except UnreadableFile RuleFile)) (loaded : Loaded) :
    (read.foldl add loaded).status = loaded.status := by
  induction read generalizing loaded with
  | nil => rfl
  | cons found rest ih =>
    rw [List.foldl_cons, ih]
    cases found <;> rfl

theorem Loaded.status_ofCandidates (c : Catalog) (candidates : List Candidate) :
    (ofCandidates v c candidates false).status = .completed :=
  status_foldl_add (candidates.map (Candidate.load v c)) ⟨.completed, [], []⟩

/-- Without a wish to cancel, a pass over a folder goes over all files that can be read. -/
theorem Pass.overFolder_cases (v : FileView) (game : Game) (settings : Settings) (folder : Text)
    (slot : Slot) :
    (∃ files skipped, overFolder v game settings folder slot false =
        .ok (overFiles game files skipped slot false)) ∨
      overFolder v game settings folder slot false = .error (.missingPath folder) := by
  rw [overFolder]
  cases hcandidates : Candidate.inFolder v settings folder with
  | ok candidates =>
    let loaded := Loaded.ofCandidates v game.catalog candidates false
    refine Or.inl ⟨loaded.files, loaded.skipped, ?_⟩
    simp only [bind, Except.bind, loaded, Loaded.status_ofCandidates]
    rfl
  | error e =>
    rw [Candidate.inFolder] at hcandidates
    split at hcandidates
    · cases hcandidates
    · obtain rfl := Except.error.inj hcandidates
      exact Or.inr rfl

theorem PassRequest.run_ne_cancelled : request.run v false ≠ .error .cancelled := by
  intro h
  rcases bind_eq_error.1 h with h | ⟨snapshot, -, h⟩
  · exact Snapshot.load_ne_cancelled h
  dsimp only at h
  rcases Pass.overFolder_cases v snapshot.game (request.settings v) request.dataFolder
    request.slot with ⟨files, skipped, hpass⟩ | hpass
  · rw [hpass] at h
    cases h
  · rw [hpass] at h
    cases h

/-- A pass that was cancelled on its way is a failure. -/
theorem PassRequest.status_of_run {cancelled : Bool} {result : Published}
    (h : request.run v cancelled = .ok result) : result.pass.status = .completed := by
  obtain ⟨snapshot, -, h⟩ := bind_eq_ok.1 h
  obtain ⟨pass, -, h⟩ := bind_eq_ok.1 h
  dsimp only at h
  split at h
  · cases h
  next hstatus =>
    obtain rfl := Except.ok.inj h
    rw [Pass.isCancelled, beq_iff_eq] at hstatus
    show pass.status = .completed
    cases hpass : pass.status with
    | completed => rfl
    | cancelled => exact absurd hpass hstatus

theorem RequestError.ofPass_eq_cancelled {e : PassError} :
    ofPass e = .cancelled ↔ e = .cancelled := by
  cases e <;> simp [ofPass]

namespace Session

variable {s : Session}

/-! ## Calls and their answers -/

/-- A question about the last pass. -/
inductive Query where
  | check (draft : Draft)
  | distributionsOn (npc : Text)
  | convertLine (source target : Dialect) (line : Text)

/-- What can be asked of a session.  A pass works on the files as they are at that time. -/
inductive Call where
  | resolve (files : FileView) (request : PassRequest)
  | cancel
  | query (q : Query)

inductive Answer where
  | summary (answer : Except RequestError PassSummary)
  | noted
  | review (answer : Except RequestError Review)
  | assignment (answer : Except RequestError Assignment)
  | lines (answer : Except RequestError (List Text))

def ask (s : Session) : Query → Answer
  | .check draft => .review (s.check draft)
  | .distributionsOn npc => .assignment (s.distributionsOn npc)
  | .convertLine source target line => .lines (s.convertLine source target line)

/-- The answer to a call, and the session after it. -/
def answer (s : Session) : Call → Answer × Session
  | .resolve files request => ((s.resolve files request).map .summary id)
  | .cancel => (.noted, s.requestCancel)
  | .query q => (s.ask q, s)

def after (s : Session) (calls : List Call) : Session :=
  calls.foldl (fun s call => (s.answer call).2) s

/-- The calls with their answers. -/
def transcript : Session → List Call → List (Call × Answer)
  | _, [] => []
  | s, call :: rest => (call, (s.answer call).1) :: (s.answer call).2.transcript rest

/-- The pass behind an answer that reports one. -/
def reported? : Call × Answer → Option Published
  | (.resolve files request, .summary (.ok _)) => (request.run files false).toOption
  | _ => none

/-! ## One call -/

/-- What a pass comes to when nobody else has the right to run. -/
theorem answer_resolve (h : s.running = false) (files : FileView) (request : PassRequest) :
    s.answer (.resolve files request) =
      (.summary (((request.run files false).map (·.pass.summary)).mapError .ofPass),
        ⟨false, false, (request.run files false).toOption.or s.published⟩) := by
  obtain ⟨running, cancelRequested, published⟩ := s
  obtain rfl : running = false := h
  simp only [answer, resolve, acquire, clearCancel, release, Bool.false_eq_true, if_false]
  cases request.run files false with
  | ok loaded => rfl
  | error e => rfl

theorem running_answer (h : s.running = false) (call : Call) :
    (s.answer call).2.running = false := by
  cases call with
  | resolve files request => rw [answer_resolve h]
  | cancel => exact h
  | query q => exact h

theorem published_answer (h : s.running = false) (call : Call) :
    (s.answer call).2.published = (reported? (call, (s.answer call).1)).or s.published := by
  cases call with
  | resolve files request =>
    rw [answer_resolve h]
    cases hrun : request.run files false with
    | ok loaded => simp [reported?, hrun, Except.map, Except.mapError, Except.toOption]
    | error e => simp [reported?, Except.map, Except.mapError, Except.toOption]
  | cancel => rfl
  | query q => cases q <;> rfl

theorem status_of_reported? {asked : Call × Answer} {result : Published}
    (h : reported? asked = some result) : result.pass.status = .completed := by
  obtain ⟨call, answer⟩ := asked
  unfold reported? at h
  split at h
  next files request summary heq =>
    cases hrun : request.run files false with
    | ok loaded =>
      rw [hrun] at h
      obtain rfl := Option.some.inj h
      exact PassRequest.status_of_run hrun
    | error e =>
      rw [hrun] at h
      cases h
  next => cases h

/-! ## All calls -/

theorem running_after (h : s.running = false) (calls : List Call) :
    (s.after calls).running = false := by
  induction calls generalizing s with
  | nil => exact h
  | cons call rest ih => exact ih (running_answer h call)

theorem published_after (h : s.running = false) (calls : List Call) :
    (s.after calls).published =
      (((s.transcript calls).filterMap reported?).getLast?).or s.published := by
  induction calls generalizing s with
  | nil => rfl
  | cons call rest ih =>
    have hrest := ih (running_answer h call)
    rw [published_answer h] at hrest
    show ((s.answer call).2.after rest).published = _
    rw [hrest, transcript, List.filterMap_cons]
    cases reported? (call, (s.answer call).1) with
    | none => rfl
    | some loaded => simp [List.getLast?_cons]

/-- After any calls the session is at rest, and what is published is the pass that the last
successful answer reported, which was completed.  Whatever came before, wishes to cancel included,
the next pass comes to what its request and the files make of it.  It is never cancelled, and where
it fails it leaves in place what was published.  Questions change nothing. -/
theorem published_last_reported (calls : List Call) :
    (start.after calls).running = false ∧
    (start.after calls).published = ((start.transcript calls).filterMap reported?).getLast? ∧
    (∀ result ∈ (start.after calls).published, result.pass.status = .completed) ∧
    (∀ files request,
      ((start.after calls).answer (.resolve files request)).1 =
        .summary (((request.run files false).map (·.pass.summary)).mapError .ofPass) ∧
      ((start.after calls).answer (.resolve files request)).1 ≠ .summary (.error .cancelled) ∧
      ((start.after calls).answer (.resolve files request)).2.published =
        (request.run files false).toOption.or (start.after calls).published) ∧
    ∀ q, ((start.after calls).answer (.query q)).2 = start.after calls := by
  have hrest : (start.after calls).running = false := running_after rfl calls
  have hlast : (start.after calls).published =
      ((start.transcript calls).filterMap reported?).getLast? := by
    rw [published_after rfl, start, Option.or_none]
  refine ⟨hrest, hlast, fun result hresult => ?_, fun files request => ?_, fun q => rfl⟩
  · rw [hlast] at hresult
    obtain ⟨asked, -, hreported⟩ := List.mem_filterMap.1 (List.mem_of_getLast? hresult)
    exact status_of_reported? hreported
  · rw [answer_resolve hrest]
    refine ⟨rfl, fun h => ?_, rfl⟩
    have hcancelled := Answer.summary.inj h
    cases hrun : request.run files false with
    | ok loaded =>
      rw [hrun] at hcancelled
      cases hcancelled
    | error e =>
      rw [hrun] at hcancelled
      have he := RequestError.ofPass_eq_cancelled.1 (Except.error.inj hcancelled)
      exact PassRequest.run_ne_cancelled (he ▸ hrun)

end Session
end Wardrobe
