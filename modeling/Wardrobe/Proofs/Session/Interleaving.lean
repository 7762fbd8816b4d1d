import Mathlib.Data.List.Nodup
import Mathlib.Logic.Function.Basic
import Wardrobe.Files.Recording
import Wardrobe.Proofs.Session.Sequence
/-
Calls for passes on one session at the same time.

A call takes the right to run, clears any wish to cancel, lets a worker do the pass, gives the right
back and publishes what the pass came to.  Between any two of its steps other calls may take theirs.
The right to run keeps passes apart, and so they are done in the order in which they were begun.
Results are published after the right has been given back, and so they can come in another order.
-/

namespace Wardrobe

/-- How far a call for a pass has come. -/
inductive Stage where
  | waiting
  | refused
  | begun (request : PassRequest)
  | cleared (request : PassRequest)
  | worked (result : Except PassError Published)
  | released (result : Except PassError Published)
  | finished (result : Except PassError Published)

namespace Stage

/-- The call has the right to run. -/
def hasRight : Stage → Bool
  | begun _ | cleared _ | worked _ => true
  | _ => false

/-- The call has got the right to run, and may have given it back. -/
def isBegun : Stage → Bool
  | waiting | refused => false
  | _ => true

/-- The pass that the call has still to publish. -/
def pending? : Stage → Option Published
  | released (.ok loaded) => some loaded
  | _ => none

/-- The pass that the call has published. -/
def published? : Stage → Option Published
  | finished (.ok loaded) => some loaded
  | _ => none

theorem isBegun_of_pending {stage : Stage} (h : stage.pending?.isSome = true) :
    stage.isBegun = true := by
  cases stage with
  | waiting | refused => cases h
  | _ => rfl

theorem isBegun_of_published {stage : Stage} (h : stage.published?.isSome = true) :
    stage.isBegun = true := by
  cases stage with
  | waiting | refused => cases h
  | _ => rfl

end Stage

/-- The steps of the calls, and wishes to cancel. -/
inductive Step where
  | acquire (i : Nat) (request : PassRequest)
  | clear (i : Nat)
  | work (i : Nat) (files : FileView)
  | release (i : Nat)
  | publish (i : Nat)
  | cancel

/-- A session and the calls on it.  The lists hold the calls in the order in which they got the
right to run and in which they published. -/
structure Shared where
  session : Session
  stage : Nat → Stage
  begun : List Nat
  publishers : List Nat

/-! ## Two members of a list in their order -/

theorem pair_sublist_concat {i j k : α} {l : List α} :
    [i, j].Sublist (l ++ [k]) ↔ [i, j].Sublist l ∨ i ∈ l ∧ j = k := by
  rw [← List.reverse_sublist, List.reverse_concat, List.sublist_cons_iff,
    ← List.sublist_reverse_iff, List.reverse_reverse]
  refine or_congr Iff.rfl ⟨?_, ?_⟩
  · rintro ⟨r, hr, hsub⟩
    obtain ⟨rfl, rfl⟩ := List.cons.inj hr
    exact ⟨List.mem_reverse.1 (List.singleton_sublist.1 hsub), rfl⟩
  · rintro ⟨hi, rfl⟩
    exact ⟨[i], rfl, List.singleton_sublist.2 (List.mem_reverse.2 hi)⟩

theorem pair_sublist_or {i j : α} {l : List α} (hi : i ∈ l) (hj : j ∈ l) (hne : i ≠ j) :
    [i, j].Sublist l ∨ [j, i].Sublist l := by
  obtain ⟨front, back, rfl⟩ := List.append_of_mem hi
  rcases List.mem_append.1 hj with hj | hj
  · exact .inr ((List.singleton_sublist.2 hj).append (List.singleton_sublist.2 (by simp)))
  · have hj := (List.mem_cons.1 hj).resolve_left hne.symm
    exact .inl (((List.singleton_sublist.2 hj).cons_cons i).trans (List.sublist_append_right ..))

theorem eq_of_pair_sublist {i j : α} {l : List α} (hl : l.Nodup) (hij : [i, j].Sublist l)
    (hji : [j, i].Sublist l) : i = j :=
  (List.cons.inj ((hl.perm_iff_eq_of_sublist hij hji).1 (.swap ..))).1

namespace Shared

variable {w w' : Shared} {step : Step} {steps : List Step} {i j : Nat}

def start : Shared := ⟨.start, fun _ => .waiting, [], []⟩

def setStage (w : Shared) (i : Nat) (stage : Stage) : Shared :=
  { w with stage := Function.update w.stage i stage }

theorem stage_setStage_self (w : Shared) (i : Nat) (stage : Stage) :
    (w.setStage i stage).stage i = stage := Function.update_self ..

theorem stage_setStage_of_ne {stage : Stage} (h : j ≠ i) :
    (w.setStage i stage).stage j = w.stage j := Function.update_of_ne h ..

/-- Take a step.  Where the call has not come to it nothing happens. -/
def move (w : Shared) : Step → Shared
  | .acquire i request =>
    match w.stage i with
    | .waiting =>
      match w.session.acquire with
      | .ok s => { w.setStage i (.begun request) with session := s, begun := w.begun ++ [i] }
      | .error _ => w.setStage i .refused
    | _ => w
  | .clear i =>
    match w.stage i with
    | .begun request => { w.setStage i (.cleared request) with session := w.session.clearCancel }
    | _ => w
  | .work i files =>
    match w.stage i with
    | .cleared request => w.setStage i (.worked (request.run files w.session.cancelRequested))
    | _ => w
  | .release i =>
    match w.stage i with
    | .worked result => { w.setStage i (.released result) with session := w.session.release }
    | _ => w
  | .publish i =>
    match w.stage i with
    | .released (.ok loaded) =>
      { w.setStage i (.finished (.ok loaded)) with
        session := w.session.publish loaded
        publishers := w.publishers ++ [i] }
    | .released (.error e) => w.setStage i (.finished (.error e))
    | _ => w
  | .cancel => { w with session := w.session.requestCancel }

def after (w : Shared) (steps : List Step) : Shared := steps.foldl move w

theorem after_concat (w : Shared) (steps : List Step) (step : Step) :
    w.after (steps ++ [step]) = (w.after steps).move step := by
  simp [after]

/-- The steps of one call in their order. -/
def stepsOf (i : Nat) (files : FileView) (request : PassRequest) : List Step :=
  [.acquire i request, .clear i, .work i files, .release i, .publish i]

/-- A call whose steps nothing comes between does what a pass on request does. -/
theorem session_after_stepsOf (h : w.stage i = .waiting) (files : FileView)
    (request : PassRequest) :
    (w.after (stepsOf i files request)).session = (w.session.resolve files request).2 := by
  obtain ⟨⟨running, cancelRequested, published⟩, stage, begun, publishers⟩ := w
  have hstage : stage i = .waiting := h
  cases running with
  | true =>
    simp [after, stepsOf, move, hstage, Session.acquire, Session.resolve, setStage]
  | false =>
    cases hrun : request.run files false <;>
      simp [after, stepsOf, move, hstage, Session.acquire, Session.resolve, setStage,
        Session.clearCancel, Session.release, Session.publish, hrun]

/-! ## What a step can do -/

/-- What a step can do. -/
inductive Moved (w : Shared) : Step → Shared → Prop
  | idle (step : Step) : Moved w step w
  | cancel : Moved w .cancel { w with session := w.session.requestCancel }
  | refuse {i : Nat} (request : PassRequest) (hi : w.stage i = .waiting) :
      Moved w (.acquire i request) (w.setStage i .refused)
  | begin {i : Nat} (request : PassRequest) (hi : w.stage i = .waiting)
      (hfree : w.session.running = false) :
      Moved w (.acquire i request) { w.setStage i (.begun request) with
        session := { w.session with running := true }
        begun := w.begun ++ [i] }
  | clear {i : Nat} {request : PassRequest} (hi : w.stage i = .begun request) :
      Moved w (.clear i)
        { w.setStage i (.cleared request) with session := w.session.clearCancel }
  | work {i : Nat} {request : PassRequest} (files : FileView) (hi : w.stage i = .cleared request) :
      Moved w (.work i files)
        (w.setStage i (.worked (request.run files w.session.cancelRequested)))
  | release {i : Nat} {result : Except PassError Published} (hi : w.stage i = .worked result) :
      Moved w (.release i) { w.setStage i (.released result) with session := w.session.release }
  | publish {i : Nat} {loaded : Published} (hi : w.stage i = .released (.ok loaded)) :
      Moved w (.publish i) { w.setStage i (.finished (.ok loaded)) with
        session := w.session.publish loaded
        publishers := w.publishers ++ [i] }
  | fail {i : Nat} {e : PassError} (hi : w.stage i = .released (.error e)) :
      Moved w (.publish i) (w.setStage i (.finished (.error e)))

theorem moved_move (w : Shared) (step : Step) : Moved w step (w.move step) := by
  cases step with
  | acquire i request =>
    rw [move]
    split
    next hi =>
      rw [Session.acquire]
      by_cases hfree : w.session.running = true
      · rw [if_pos hfree]
        exact .refuse request hi
      · rw [if_neg hfree]
        exact .begin request hi (by simpa using hfree)
    next => exact .idle _
  | clear i =>
    rw [move]
    split
    next hi => exact .clear hi
    next => exact .idle _
  | work i files =>
    rw [move]
    split
    next hi => exact .work files hi
    next => exact .idle _
  | release i =>
    rw [move]
    split
    next hi => exact .release hi
    next => exact .idle _
  | publish i =>
    rw [move]
    split
    next hi => exact .publish hi
    next hi => exact .fail hi
    next => exact .idle _
  | cancel => exact .cancel

/-- A call has a pass to publish only after it was at work. -/
theorem Moved.pending (h : Moved w step w') (hi : (w'.stage i).pending?.isSome = true) :
    (w.stage i).pending?.isSome = true ∨ (w.stage i).hasRight = true := by
  have hset : ∀ {k : Nat} {stage : Stage}, ((w.setStage k stage).stage i).pending?.isSome = true →
      (w.stage i).pending?.isSome = true ∨ (i = k ∧ stage.pending?.isSome = true) := by
    intro k stage h
    by_cases hik : i = k
    · rw [hik, stage_setStage_self] at h
      exact .inr ⟨hik, h⟩
    · rw [stage_setStage_of_ne hik] at h
      exact .inl h
  cases h with
  | idle => exact .inl hi
  | cancel => exact .inl hi
  | release hk =>
    rcases hset hi with hi | ⟨rfl, -⟩
    · exact .inl hi
    · exact .inr (by rw [hk]; rfl)
  | refuse | begin | clear | work | publish | fail =>
    rcases hset hi with hi | ⟨-, hi⟩
    · exact .inl hi
    · cases hi

theorem Moved.begun_cases (h : Moved w step w') :
    w'.begun = w.begun ∨ ∃ k request, step = .acquire k request ∧ w.stage k = .waiting ∧
      w.session.running = false ∧ w'.begun = w.begun ++ [k] := by
  cases h with
  | begin request hk hfree => exact .inr ⟨_, request, rfl, hk, hfree, rfl⟩
  | idle | cancel | refuse | clear | work | release | publish | fail => exact .inl rfl

theorem Moved.publishers_cases (h : Moved w step w') :
    w'.publishers = w.publishers ∨ ∃ k, (w.stage k).pending?.isSome = true ∧
      w'.begun = w.begun ∧ w'.publishers = w.publishers ++ [k] := by
  cases h with
  | publish hk => exact .inr ⟨_, by rw [hk]; rfl, rfl, rfl⟩
  | idle | cancel | refuse | begin | clear | work | release | fail => exact .inl rfl

/-- A question about stages that a call answers as before. -/
theorem apply_setStage {f : Stage → α} {stage : Stage} (h : f stage = f (w.stage i)) (j : Nat) :
    f ((w.setStage i stage).stage j) = f (w.stage j) := by
  by_cases hj : j = i
  · rw [hj, stage_setStage_self, h]
  · rw [stage_setStage_of_ne hj]

/-! ## The right to run -/

/-- The right to run is with the call that got it last, or with none. -/
structure Exclusive (w : Shared) : Prop where
  running_iff : w.session.running = true ↔ ∃ i, (w.stage i).hasRight = true
  mem_begun : ∀ i, i ∈ w.begun ↔ (w.stage i).isBegun = true
  nodup_begun : w.begun.Nodup
  last_begun : ∀ i, (w.stage i).hasRight = true → w.begun.getLast? = some i

namespace Exclusive

theorem eq_of_hasRight (h : Exclusive w) (hi : (w.stage i).hasRight = true)
    (hj : (w.stage j).hasRight = true) : i = j :=
  Option.some.inj ((h.last_begun i hi).symm.trans (h.last_begun j hj))

theorem not_hasRight (h : Exclusive w) (hfree : w.session.running = false) (i : Nat) :
    (w.stage i).hasRight = false := by
  by_contra hi
  rw [h.running_iff.2 ⟨i, by simpa using hi⟩] at hfree
  cases hfree

/-- A call behind which another was begun has given the right back. -/
theorem not_hasRight_of_before (h : Exclusive w) (hij : [i, j].Sublist w.begun) :
    (w.stage i).hasRight = false := by
  by_contra hi
  obtain ⟨front, hfront⟩ := List.getLast?_eq_some_iff.1 (h.last_begun i (by simpa using hi))
  have hnodup : (front ++ [i]).Nodup := hfront ▸ h.nodup_begun
  have hfirst : i ∈ front := by
    rw [hfront, pair_sublist_concat] at hij
    rcases hij with hij | ⟨hi, -⟩
    · exact hij.subset List.mem_cons_self
    · exact hi
  exact List.disjoint_of_nodup_append hnodup hfirst List.mem_cons_self

/-- A call that goes on without taking the right or giving it back. -/
theorem advance {s : Session} {stage : Stage} {publishers : List Nat} (h : Exclusive w)
    (hrunning : s.running = w.session.running) (hright : stage.hasRight = (w.stage i).hasRight)
    (hbegun : stage.isBegun = (w.stage i).isBegun) :
    Exclusive ⟨s, (w.setStage i stage).stage, w.begun, publishers⟩ where
  running_iff := by
    rw [hrunning, h.running_iff]
    exact exists_congr fun j => by rw [apply_setStage hright]
  mem_begun j := by
    rw [apply_setStage hbegun]
    exact h.mem_begun j
  nodup_begun := h.nodup_begun
  last_begun j := by
    rw [apply_setStage hright]
    exact h.last_begun j

theorem begin {s : Session} {request : PassRequest} {publishers : List Nat} (h : Exclusive w)
    (hfree : w.session.running = false) (hi : w.stage i = .waiting) (hs : s.running = true) :
    Exclusive ⟨s, (w.setStage i (.begun request)).stage, w.begun ++ [i], publishers⟩ where
  running_iff := iff_of_true hs ⟨i, by rw [stage_setStage_self]; rfl⟩
  mem_begun j := by
    rw [List.mem_append, List.mem_singleton]
    by_cases hj : j = i
    · rw [hj, stage_setStage_self]
      exact iff_of_true (.inr rfl) rfl
    · rw [stage_setStage_of_ne hj, ← h.mem_begun j, or_iff_left hj]
  nodup_begun := by
    have hi : i ∉ w.begun := fun hmem => by
      rw [h.mem_begun, hi] at hmem
      cases hmem
    exact List.concat_eq_append ▸ h.nodup_begun.concat hi
  last_begun j hj := by
    by_cases hji : j = i
    · rw [hji, List.getLast?_concat]
    · rw [stage_setStage_of_ne hji, h.not_hasRight hfree] at hj
      cases hj

theorem release {s : Session} {result : Except PassError Published} {publishers : List Nat}
    (h : Exclusive w) (hi : w.stage i = .worked result) (hs : s.running = false) :
    Exclusive ⟨s, (w.setStage i (.released result)).stage, w.begun, publishers⟩ := by
  have hright : ∀ j, ((w.setStage i (.released result)).stage j).hasRight = false := by
    intro j
    by_cases hj : j = i
    · rw [hj, stage_setStage_self]
      rfl
    · rw [stage_setStage_of_ne hj]
      by_contra hcon
      exact hj (h.eq_of_hasRight (by simpa using hcon) (by rw [hi]; rfl))
  refine ⟨iff_of_false (by simp [hs]) fun ⟨j, hj⟩ => ?_, fun j => ?_, h.nodup_begun, fun j hj => ?_⟩
  · rw [hright] at hj
    cases hj
  · have hbegun : Stage.isBegun (.released result) = (w.stage i).isBegun := by rw [hi]; rfl
    rw [apply_setStage hbegun]
    exact h.mem_begun j
  · rw [hright] at hj
    cases hj

theorem moved (h : Exclusive w) (hmoved : Moved w step w') : Exclusive w' := by
  cases hmoved with
  | idle => exact h
  | cancel => exact ⟨h.running_iff, h.mem_begun, h.nodup_begun, h.last_begun⟩
  | begin request hi hfree => exact h.begin hfree hi rfl
  | release hi => exact h.release hi rfl
  | refuse request hi => exact h.advance rfl (by rw [hi]; rfl) (by rw [hi]; rfl)
  | clear hi => exact h.advance rfl (by rw [hi]; rfl) (by rw [hi]; rfl)
  | work files hi => exact h.advance rfl (by rw [hi]; rfl) (by rw [hi]; rfl)
  | publish hi => exact h.advance rfl (by rw [hi]; rfl) (by rw [hi]; rfl)
  | fail hi => exact h.advance rfl (by rw [hi]; rfl) (by rw [hi]; rfl)

end Exclusive

theorem exclusive_after (steps : List Step) : Exclusive (start.after steps) := by
  induction steps using List.reverseRecOn with
  | nil =>
    exact ⟨by simp [after, start, Session.start, Stage.hasRight],
      by simp [after, start, Stage.isBegun], List.nodup_nil,
      by simp [after, start, Stage.hasRight]⟩
  | append_singleton steps step ih =>
    rw [after_concat]
    exact ih.moved (moved_move _ step)

/-! ## What is published -/

/-- What is published is what the last call that published anything came to. -/
structure Shown (w : Shared) : Prop where
  mem_publishers : ∀ i, i ∈ w.publishers ↔ (w.stage i).published?.isSome = true
  nodup_publishers : w.publishers.Nodup
  published : w.session.published =
    (w.publishers.filterMap fun i => (w.stage i).published?).getLast?

namespace Shown

/-- A call that goes on without publishing anything. -/
theorem advance {s : Session} {stage : Stage} {begun : List Nat} (h : Shown w)
    (hs : s.published = w.session.published) (hstage : stage.published? = (w.stage i).published?) :
    Shown ⟨s, (w.setStage i stage).stage, begun, w.publishers⟩ where
  mem_publishers j := by
    rw [apply_setStage hstage]
    exact h.mem_publishers j
  nodup_publishers := h.nodup_publishers
  published := by
    have hstages : (fun j => ((w.setStage i stage).stage j).published?) =
        fun j => (w.stage j).published? := funext (apply_setStage hstage)
    rw [hs, h.published, hstages]

theorem publish {s : Session} {loaded : Published} {begun : List Nat} (h : Shown w)
    (hi : w.stage i = .released (.ok loaded)) (hs : s.published = some loaded) :
    Shown ⟨s, (w.setStage i (.finished (.ok loaded))).stage, begun, w.publishers ++ [i]⟩ where
  mem_publishers j := by
    rw [List.mem_append, List.mem_singleton]
    by_cases hj : j = i
    · rw [hj, stage_setStage_self]
      exact iff_of_true (.inr rfl) rfl
    · rw [stage_setStage_of_ne hj, ← h.mem_publishers j, or_iff_left hj]
  nodup_publishers := by
    have hi : i ∉ w.publishers := fun hmem => by
      rw [h.mem_publishers, hi] at hmem
      cases hmem
    exact List.concat_eq_append ▸ h.nodup_publishers.concat hi
  published := by
    have hlast : [i].filterMap (fun j =>
        ((w.setStage i (.finished (.ok loaded))).stage j).published?) = [loaded] := by
      simp [stage_setStage_self, Stage.published?]
    rw [hs, List.filterMap_append, hlast, List.getLast?_concat]

theorem moved (h : Shown w) (hmoved : Moved w step w') : Shown w' := by
  cases hmoved with
  | idle => exact h
  | cancel => exact ⟨h.mem_publishers, h.nodup_publishers, h.published⟩
  | publish hi => exact h.publish hi rfl
  | begin request hi => exact h.advance rfl (by rw [hi]; rfl)
  | release hi => exact h.advance rfl (by rw [hi]; rfl)
  | refuse request hi => exact h.advance rfl (by rw [hi]; rfl)
  | clear hi => exact h.advance rfl (by rw [hi]; rfl)
  | work files hi => exact h.advance rfl (by rw [hi]; rfl)
  | fail hi => exact h.advance rfl (by rw [hi]; rfl)

end Shown

theorem shown_after (steps : List Step) : Shown (start.after steps) := by
  induction steps using List.reverseRecOn with
  | nil => exact ⟨by simp [after, start, Stage.published?], List.nodup_nil, rfl⟩
  | append_singleton steps step ih =>
    rw [after_concat]
    exact ih.moved (moved_move _ step)

/-! ## The order of publishing -/

/-- The call `j` was begun when `i` had given the right back and had still to publish. -/
def BegunOver (steps : List Step) (i j : Nat) : Prop :=
  ∃ before request rest, steps = before ++ .acquire j request :: rest ∧
    (start.after before).session.running = false ∧ (start.after before).stage j = .waiting ∧
    ((start.after before).stage i).pending?.isSome = true

theorem BegunOver.concat (h : BegunOver steps i j) (step : Step) :
    BegunOver (steps ++ [step]) i j := by
  obtain ⟨before, request, rest, rfl, h⟩ := h
  exact ⟨before, request, rest ++ [step], by simp, h⟩

theorem begunOver_of_pending (hij : [i, j].Sublist (start.after steps).begun)
    (hi : ((start.after steps).stage i).pending?.isSome = true) : BegunOver steps i j := by
  induction steps using List.reverseRecOn with
  | nil => cases hij
  | append_singleton steps step ih =>
    rw [after_concat] at hij hi
    have hmoved := moved_move (start.after steps) step
    have hw := exclusive_after steps
    rcases hmoved.begun_cases with hbegun | ⟨k, request, rfl, hk, hfree, hbegun⟩
    · have hpending := (hmoved.pending hi).resolve_right
        (by simp [hw.not_hasRight_of_before (hbegun ▸ hij)])
      exact (ih (hbegun ▸ hij) hpending).concat step
    · have hpending := (hmoved.pending hi).resolve_right (by simp [hw.not_hasRight hfree])
      rw [hbegun, pair_sublist_concat] at hij
      rcases hij with hij | ⟨-, rfl⟩
      · exact (ih hij hpending).concat _
      · exact ⟨steps, request, [], rfl, hfree, hk, hpending⟩

theorem begunOver_of_publishers (hij : [i, j].Sublist (start.after steps).begun)
    (hji : [j, i].Sublist (start.after steps).publishers) : BegunOver steps i j := by
  induction steps using List.reverseRecOn with
  | nil => cases hij
  | append_singleton steps step ih =>
    rw [after_concat] at hij hji
    have hmoved := moved_move (start.after steps) step
    rcases hmoved.publishers_cases with hpublishers | ⟨k, hk, hbegun, hpublishers⟩
    · rw [hpublishers] at hji
      rcases hmoved.begun_cases with hbegun | ⟨k, request, -, hk, -, hbegun⟩
      · exact (ih (hbegun ▸ hij) hji).concat step
      · rw [hbegun, pair_sublist_concat] at hij
        rcases hij with hij | ⟨-, rfl⟩
        · exact (ih hij hji).concat step
        · have hj := ((shown_after steps).mem_publishers j).1 (hji.subset List.mem_cons_self)
          rw [hk] at hj
          cases hj
    · rw [hbegun] at hij
      rw [hpublishers, pair_sublist_concat] at hji
      rcases hji with hji | ⟨-, rfl⟩
      · exact (ih hij hji).concat step
      · exact (begunOver_of_pending hij hk).concat step

/-- Where no call is begun over another that has still to publish, results come in the order in
which the passes were begun. -/
theorem publishers_eq (h : ∀ i j, ¬ BegunOver steps i j) :
    (start.after steps).publishers = (start.after steps).begun.filter fun i =>
      ((start.after steps).stage i).published?.isSome := by
  have hw := exclusive_after steps
  have hshown := shown_after steps
  have hmem : ∀ i ∈ (start.after steps).publishers, i ∈ (start.after steps).begun := by
    intro i hi
    exact (hw.mem_begun i).2 (Stage.isBegun_of_published ((hshown.mem_publishers i).1 hi))
  have hordered : (start.after steps).publishers.Pairwise fun i j =>
      [i, j].Sublist (start.after steps).begun := by
    refine List.pairwise_iff_forall_sublist.2 fun {i j} hij => ?_
    have hne : i ≠ j := by
      rintro rfl
      exact List.not_nodup_pair _ (hshown.nodup_publishers.sublist hij)
    exact (pair_sublist_or (hmem i (hij.subset (by simp))) (hmem j (hij.subset (by simp)))
      hne).resolve_right fun hji => h j i (begunOver_of_publishers hji hij)
  have hfiltered : ((start.after steps).begun.filter fun i =>
      ((start.after steps).stage i).published?.isSome).Pairwise fun i j =>
        [i, j].Sublist (start.after steps).begun :=
    List.pairwise_iff_forall_sublist.2 fun hij => hij.trans List.filter_sublist
  refine List.Perm.eq_of_pairwise (fun i j _ _ => eq_of_pair_sublist hw.nodup_begun)
    hordered hfiltered ?_
  refine (List.perm_ext_iff_of_nodup hshown.nodup_publishers (hw.nodup_begun.filter _)).2
    fun i => ?_
  rw [List.mem_filter, ← hshown.mem_publishers]
  exact ⟨fun hi => ⟨hmem i hi, hi⟩, And.right⟩

/-- Passes are apart.  What is published is the pass of the call that published last, and a call
publishes behind one that was begun later only where that one was begun over it.  Where this never
happens, what is published is the last begun of the passes that succeeded. -/
theorem published_in_order_unless_begunOver (steps : List Step) :
    (∀ i j, ((start.after steps).stage i).hasRight = true →
      ((start.after steps).stage j).hasRight = true → i = j) ∧
    (start.after steps).session.published = ((start.after steps).publishers.filterMap fun i =>
      ((start.after steps).stage i).published?).getLast? ∧
    (∀ i j, [i, j].Sublist (start.after steps).begun →
      [j, i].Sublist (start.after steps).publishers → BegunOver steps i j) ∧
    ((∀ i j, ¬ BegunOver steps i j) →
      (start.after steps).session.published = ((start.after steps).begun.filterMap fun i =>
        ((start.after steps).stage i).published?).getLast?) := by
  refine ⟨fun i j => (exclusive_after steps).eq_of_hasRight, (shown_after steps).published,
    fun i j => begunOver_of_publishers, fun h => ?_⟩
  rw [(shown_after steps).published, publishers_eq h, List.filterMap_filter]
  congr 2
  funext i
  cases ((start.after steps).stage i).published? <;> rfl

/-! Two passes over an empty folder for different slots. -/

def emptyFolder : FileView :=
  Recording.view [("Data", .folder [] []), ("snapshot.json", .file (.ok "{}".toUTF8))]

def passFor (slot : Slot) : PassRequest := ⟨"Data", "snapshot.json", none, slot⟩

/-- One call after the other. -/
def inTurn : List Step :=
  stepsOf 0 emptyFolder (passFor .default) ++ stepsOf 1 emptyFolder (passFor .sleep)

/-- The second call is begun before the first has published, and publishes before it. -/
def crossed : List Step :=
  (stepsOf 0 emptyFolder (passFor .default)).dropLast ++
    stepsOf 1 emptyFolder (passFor .sleep) ++ [.publish 0]

theorem not_begunOver_inTurn : ¬ BegunOver inTurn i j := by
  rintro ⟨before, request, rest, hsteps, -, -, hi⟩
  have hlength : before.length < 10 := by
    have h := congrArg List.length hsteps
    simp [inTurn, stepsOf] at h
    omega
  have hbefore : before = inTurn.take before.length := by rw [hsteps, List.take_left]
  have hget : inTurn[before.length]? = some (.acquire j request) := by simp [hsteps]
  generalize before.length = n at hlength hbefore hget
  subst hbefore
  interval_cases n <;> cases hget
  · cases hi
  · have hbegun : (start.after (inTurn.take 5)).begun = [0] := by decide +kernel
    have hmem := ((exclusive_after (inTurn.take 5)).mem_begun i).2 (Stage.isBegun_of_pending hi)
    rw [hbegun, List.mem_singleton] at hmem
    rw [hmem] at hi
    exact absurd hi (by decide +kernel)

theorem inTurn_published :
    (start.after inTurn).session.published = ((start.after inTurn).begun.filterMap fun i =>
      ((start.after inTurn).stage i).published?).getLast? ∧
    (start.after inTurn).session.published.map (·.pass.resolution.slot) = some .sleep ∧
    BegunOver crossed 0 1 := by
  refine ⟨(published_in_order_unless_begunOver inTurn).2.2.2 fun i j => not_begunOver_inTurn,
    by decide +kernel,
    (published_in_order_unless_begunOver crossed).2.2.1 0 1 ?_ ?_⟩
  · decide +kernel
  · decide +kernel

/-- The pass that was begun last is published, and then the one before it in its place. -/
theorem crossed_published :
    (start.after crossed).begun = [0, 1] ∧
    ((start.after crossed).begun.filterMap fun i => (((start.after crossed).stage i).published?).map
      (·.pass.resolution.slot)) = [.default, .sleep] ∧
    (start.after crossed).publishers = [1, 0] ∧
    (start.after crossed).session.running = false ∧
    (start.after crossed).session.published.map (·.pass.resolution.slot) = some .default := by
  decide +kernel

end Shared
end Wardrobe
