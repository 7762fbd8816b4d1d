import Mathlib.Data.List.Basic
import Wardrobe.Json.Reader
/-
What holds of every value that a reader comes up with.

A record is filled member by member, so a property of records is followed along with the names of
the members read so far.  At the end these include the names of all members that must be there.
-/

namespace Wardrobe
namespace Json

variable {r : Reader α} {P : α → Prop} {Q : β → Prop}

/-- Whatever the text, a value that is read has the property. -/
def Reader.Yields (r : Reader α) (P : α → Prop) : Prop :=
  ∀ n t a rest, (r.run n).run t = .ok (a, rest) → P a

namespace Reader.Yields

theorem pure {a : α} (h : P a) : Reader.Yields (Pure.pure a) P := by
  intro n t b rest hrun
  obtain ⟨rfl, -⟩ := Prod.mk.inj (Except.ok.inj hrun)
  exact h

theorem bind {f : α → Reader β} (hr : r.Yields P) (hf : ∀ a, P a → (f a).Yields Q) :
    Reader.Yields (r >>= f) Q := by
  intro n t b rest hrun
  change ((r.run n).run t).bind (fun result => ((f result.1).run n).run result.2) = _ at hrun
  cases hfirst : (r.run n).run t with
  | error e =>
    rw [hfirst] at hrun
    cases hrun
  | ok result =>
    rw [hfirst] at hrun
    exact hf result.1 (hr n t result.1 result.2 hfirst) n result.2 b rest hrun

theorem ofForall (h : ∀ a, P a) : r.Yields P := fun _ _ a _ _ => h a

/-- The values of a reader that is only run for its effect do not matter. -/
theorem seq {f : α → Reader β} (hf : ∀ a, (f a).Yields Q) : Reader.Yields (r >>= f) Q :=
  bind (P := fun _ => True) (ofForall fun _ => trivial) fun a _ => hf a

theorem throw (e : ReadFault) : Reader.Yields (MonadExcept.throw e : Reader α) P := by
  intro n t a rest hrun
  cases hrun

theorem fail : Reader.Yields (Json.fail : Reader α) P := throw _

theorem failFirst {f : α → Reader β} : Reader.Yields (Json.fail >>= f) Q :=
  bind (P := fun _ => False) fail fun _ h => h.elim

theorem mono {P' : α → Prop} (hr : r.Yields P) (h : ∀ a, P a → P' a) : r.Yields P' :=
  fun n t a rest hrun => h a (hr n t a rest hrun)

theorem optional (hr : r.Yields P) : (Json.optional r).Yields fun o => ∀ a ∈ o, P a := by
  refine seq fun c => ?_
  split
  · exact seq fun _ => pure fun a ha => by cases ha
  · refine bind hr fun a ha => pure fun b hb => ?_
    obtain rfl := Option.some.inj hb
    exact ha

theorem moreItems (hr : r.Yields P) (steps : Nat) :
    (Json.moreItems r steps).Yields fun as => ∀ a ∈ as, P a := by
  induction steps with
  | zero => exact fail
  | succ steps ih =>
    refine seq fun c => ?_
    split
    · refine seq fun _ => bind hr fun a ha => bind ih fun rest hrest => pure ?_
      exact List.forall_mem_cons.2 ⟨ha, hrest⟩
    · exact seq fun _ => pure fun a ha => by cases ha

theorem array (hr : r.Yields P) : (Json.array r).Yields fun as => ∀ a ∈ as, P a := by
  refine seq fun _ => seq fun c => ?_
  split
  · exact seq fun _ => pure fun a ha => by cases ha
  · refine bind hr fun a ha => seq fun n => bind (moreItems hr n) fun rest hrest => pure ?_
    exact List.forall_mem_cons.2 ⟨ha, hrest⟩

end Reader.Yields

/-! ## Records -/

variable {σ : Type} {members : List (Member σ)} {m : Member σ} {start s : σ} {seen : List Text}
  {name : Text} {I : List Text → σ → Prop}

/-- Reading the member keeps the invariant and adds the name to those read so far. -/
def Member.Keeps (m : Member σ) (I : List Text → σ → Prop) : Prop :=
  ∀ seen s, I seen s → (m.read s).Yields (I (m.name :: seen))

/-- The names read are those of all members that must be there, and perhaps of others. -/
def Complete (members : List (Member σ)) (seen : List Text) : Prop :=
  ∀ m ∈ members, m.required = true → m.name ∈ seen

theorem yields_arrayMembers (hkeeps : ∀ m ∈ members, m.Keeps I) (isFirst : Bool)
    (hs : I seen s) : (arrayMembers isFirst members s).Yields fun s' =>
      ∃ seen', I seen' s' ∧ Complete members seen' ∧ seen ⊆ seen' := by
  induction members generalizing isFirst seen s with
  | nil => exact .seq fun _ => .pure ⟨seen, hs, by simp [Complete], List.Subset.refl _⟩
  | cons m rest ih =>
    refine .seq fun c => ?_
    split
    · -- The array ends here, so what is left may be missing.
      split
      next => exact .failFirst
      next hrequired =>
        refine .seq fun _ => .pure ⟨seen, hs, ?_, List.Subset.refl _⟩
        intro m' hm' hrequired'
        exact absurd (List.any_eq_true.2 ⟨m', hm', hrequired'⟩) hrequired
    · have hread : (do let s' ← m.read s; arrayMembers false rest s').Yields fun s' =>
          ∃ seen', I seen' s' ∧ Complete (m :: rest) seen' ∧ seen ⊆ seen' := by
        refine .bind (hkeeps m List.mem_cons_self seen s hs) fun s' hs' => ?_
        refine .mono (ih (fun m' hm' => hkeeps m' (List.mem_cons_of_mem _ hm')) false hs') ?_
        intro s'' hs''
        obtain ⟨seen', hI, hcomplete, hsubset⟩ := hs''
        exact ⟨seen', hI, List.forall_mem_cons.2 ⟨fun _ => hsubset List.mem_cons_self, hcomplete⟩,
          fun x hx => hsubset (List.mem_cons_of_mem _ hx)⟩
      split
      · exact .seq fun _ => hread
      · exact hread

theorem yields_objectMembers (hkeeps : ∀ m ∈ members, m.Keeps I)
    (hunknown : ∀ name seen s, (∀ m ∈ members, m.name ≠ name) → I seen s → I (name :: seen) s)
    (steps : Nat) (hs : I seen s) : (objectMembers members steps seen s).Yields fun s' =>
      ∃ seen', I seen' s' ∧ Complete members seen' := by
  induction steps generalizing seen s with
  | zero => exact .fail
  | succ steps ih =>
    refine .seq fun name => ?_
    extract_lets known seenNow next
    have hnext : ∀ s', I seenNow s' → (next s').Yields fun s'' =>
        ∃ seen', I seen' s'' ∧ Complete members seen' := by
      intro s' hs'
      refine .seq fun c => ?_
      split
      · exact .seq fun _ => ih hs'
      · refine .seq fun _ => ?_
        split
        next hall =>
          refine .pure ⟨seenNow, hs', fun m hm hrequired => ?_⟩
          simpa [hrequired] using List.all_eq_true.1 hall m hm
        next => exact .fail
    cases hknown : known with
    | some m =>
      obtain rfl : m.name = name := by simpa using List.find?_some hknown
      have hread := hkeeps m (List.mem_of_find?_eq_some hknown) seen s hs
      dsimp only
      split
      next => exact .failFirst
      next => exact .seq fun _ => .bind hread hnext
    | none =>
      refine .seq fun _ => .seq fun _ => .bind (.pure ?_) hnext
      refine hunknown name seen s (fun m hm => ?_) hs
      simpa using List.find?_eq_none.1 hknown m hm

/-- A record has what its first values have and every member keeps. -/
theorem yields_record (hstart : I [] start) (hkeeps : ∀ m ∈ members, m.Keeps I)
    (hunknown : ∀ name seen s, (∀ m ∈ members, m.name ≠ name) → I seen s → I (name :: seen) s) :
    (record members start).Yields fun s => ∃ seen, I seen s ∧ Complete members seen := by
  refine .seq fun c => ?_
  split
  · refine .seq fun _ => .mono (yields_arrayMembers hkeeps true hstart) fun s hs => ?_
    obtain ⟨seen, hI, hcomplete, -⟩ := hs
    exact ⟨seen, hI, hcomplete⟩
  · refine .seq fun _ => .seq fun c => ?_
    split
    · split
      next => exact .failFirst
      next hrequired =>
        refine .seq fun _ => .pure ⟨[], hstart, fun m hm hrequired' => ?_⟩
        exact absurd (List.any_eq_true.2 ⟨m, hm, hrequired'⟩) hrequired
    · exact .seq fun n => yields_objectMembers hkeeps hunknown n hstart

/-- Reading the member keeps `R`, and with it `P` where that holds already. -/
def Member.Leaves (m : Member σ) (P R : σ → Prop) : Prop :=
  ∀ s, R s → (m.read s).Yields fun s' => (P s → P s') ∧ R s'

theorem Member.leaves_mayHave {Q R : σ → Prop} {store : σ → α → σ} (hr : r.Yields P)
    (h : ∀ s a, R s → P a → (Q s → Q (store s a)) ∧ R (store s a)) :
    (Member.mayHave name r store).Leaves Q R :=
  fun s hs => .bind hr fun a ha => .pure (h s a hs ha)

theorem Member.leaves_mustHave {Q R : σ → Prop} {store : σ → α → σ} (hr : r.Yields P)
    (h : ∀ s a, R s → P a → (Q s → Q (store s a)) ∧ R (store s a)) :
    (Member.mustHave name r store).Leaves Q R :=
  fun s hs => .bind hr fun a ha => .pure (h s a hs ha)

/-- A record whose first member must be there has what this member brings about, wherever it stands
among the others, and what all members keep. -/
theorem yields_record_cons {Q R : σ → Prop} (hrequired : m.required = true)
    (hnames : ∀ m' ∈ members, m'.name ≠ m.name) (hstart : R start)
    (hfirst : ∀ s, R s → (m.read s).Yields fun s' => Q s' ∧ R s')
    (hleaves : ∀ m' ∈ members, m'.Leaves Q R) :
    (record (m :: members) start).Yields fun s => Q s ∧ R s := by
  have hrecord : (record (m :: members) start).Yields fun s =>
      ∃ seen, ((m.name ∈ seen → Q s) ∧ R s) ∧ Complete (m :: members) seen := by
    refine yields_record ⟨by simp, hstart⟩ (List.forall_mem_cons.2 ⟨?_, ?_⟩) ?_
    · exact fun seen s hs => .mono (hfirst s hs.2) fun s' hs' => ⟨fun _ => hs'.1, hs'.2⟩
    · intro m' hm' seen s hs
      refine .mono (hleaves m' hm' s hs.2) fun s' hs' => ⟨fun hseen => ?_, hs'.2⟩
      exact hs'.1 (hs.1 ((List.mem_cons.1 hseen).resolve_left (Ne.symm (hnames m' hm'))))
    · intro name seen s hunknown hs
      refine ⟨fun hseen => ?_, hs.2⟩
      exact hs.1 ((List.mem_cons.1 hseen).resolve_left (hunknown m List.mem_cons_self))
  refine .mono hrecord fun s hs => ?_
  obtain ⟨seen, hI, hcomplete⟩ := hs
  exact ⟨hI.1 (hcomplete m List.mem_cons_self hrequired), hI.2⟩

theorem property_of_readAll {t : Text} {a : α} (hr : r.Yields P) (h : readAll r t = .ok a) :
    P a := by
  rw [readAll] at h
  cases hrun : (r.run t.length).run t with
  | error e =>
    rw [hrun] at h
    cases h
  | ok result =>
    rw [hrun] at h
    change (if (skipSpace result.2).isEmpty = true then _ else _) = _ at h
    split at h
    · obtain rfl := Except.ok.inj h
      exact hr _ _ _ _ hrun
    · cases h

end Json
end Wardrobe
