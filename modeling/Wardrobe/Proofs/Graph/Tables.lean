import Wardrobe.Proofs.Graph.Components
/-
The walk for strongly connected components on tables.

A walk keeps its numbers in functions and asks the stack itself which nodes lie on it, and where its
moves run out it stops.  `Tables` has arrays in their place, with an entry for each node, a mark for
the nodes on the stack, and a cursor into the edges of each open node.  It gives nothing if an
access goes beyond the end of an array or if moves run out while a node is open.

`Shows` says that tables and a walk stand at the same place.  As long as edges end at nodes of the
graph, every move of the walk is shown by a move of the tables.  So with as many moves as there are
nodes and edges the walk on tables ends where the other does, and no access fails.
-/

namespace Wardrobe
namespace Graph

/-- Change an entry of an array, which has to be there. -/
def put? (entries : Array α) (i : Nat) (a : α) : Option (Array α) :=
  if h : i < entries.size then some (entries.set i a) else none

/-- Where the walk stands.  `onStack` marks the nodes on the stack, and a frame is an open node with
the number of its edges that have been looked at. -/
structure Tables where
  index : Array (Option Nat)
  low : Array Nat
  onStack : Array Bool
  next : Nat
  stack : List Nat
  frames : List (Nat × Nat)
  components : List (List Nat)

namespace Tables

def start (g : Graph) : Tables :=
  { index := Array.replicate g.size none
    low := Array.replicate g.size 0
    onStack := Array.replicate g.size false
    next := 0
    stack := []
    frames := []
    components := [] }

def openNode? (t : Tables) (node : Nat) : Option Tables := do
  let index ← put? t.index node (some t.next)
  let low ← put? t.low node t.next
  let onStack ← put? t.onStack node true
  return { t with
    index, low, onStack
    next := t.next + 1
    stack := node :: t.stack
    frames := (node, 0) :: t.frames }

/-- Let the low number of a node sink to the given number. -/
def sink? (t : Tables) (node number : Nat) : Option Tables := do
  let low ← put? t.low node (min (← t.low[node]?) number)
  return { t with low }

/-- Take nodes off a stack down to the given one, and their marks away.  Gives the nodes taken, what
is left of the stack and the marks. -/
def popTo? (node : Nat) : List Nat → Array Bool → Option (List Nat × List Nat × Array Bool)
  | [], onStack => some ([], [], onStack)
  | member :: rest, onStack => do
    let onStack ← put? onStack member false
    if member = node then return ([member], rest, onStack)
    let (taken, rest, onStack) ← popTo? node rest onStack
    return (member :: taken, rest, onStack)

def complete? (t : Tables) (node : Nat) : Option Tables := do
  let (taken, stack, onStack) ← popTo? node t.stack t.onStack
  return { t with stack, onStack, components := t.components ++ [taken] }

/-- Let the low number of the innermost open node sink to that of a node that is left for it. -/
def sinkAround? (t : Tables) (node : Nat) : Option Tables :=
  match t.frames with
  | (parent, _) :: _ => do t.sink? parent (← t.low[node]?)
  | [] => some t

def close? (t : Tables) (node : Nat) (around : List (Nat × Nat)) : Option Tables := do
  let t ← sinkAround? { t with frames := around } node
  if (← t.index[node]?) = some (← t.low[node]?) then t.complete? node else return t

/-- Look at an edge from one node to the next. -/
def look? (t : Tables) (node next : Nat) : Option Tables := do
  match ← t.index[next]? with
  | none => t.openNode? next
  | some number => if ← t.onStack[next]? then t.sink? node number else return t

def move? (g : Graph) (t : Tables) : Option Tables :=
  match t.frames with
  | [] => some t
  | (node, cursor) :: around => do
    let edges ← g.successors[node]?
    match edges[cursor]? with
    | none => t.close? node around
    | some next => look? { t with frames := (node, cursor + 1) :: around } node next

/-- Move until no node is open.  Fails if that takes more than the given number of moves. -/
def finish? (g : Graph) : Nat → Tables → Option Tables
  | 0, t => if t.frames.isEmpty then some t else none
  | moves + 1, t => if t.frames.isEmpty then some t else do finish? g moves (← t.move? g)

def walkFrom? (g : Graph) (moves : Nat) (t : Tables) (root : Nat) : Option Tables := do
  match ← t.index[root]? with
  | some _ => return t
  | none => finish? g moves (← t.openNode? root)

/-- The components that the walk on tables finds, if every root is done within the given number of
moves and no access fails. -/
def components? (g : Graph) (moves : Nat) : Option (List (List Nat)) := do
  let t ← (List.range g.size).foldlM (walkFrom? g moves) (start g)
  return t.components

end Tables

open Walk

variable {g : Graph} {t : Tables} {w w' : Walk} {n node x : Nat}
  {above below edges rest : List Nat} {around : List (Nat × List Nat)}

/-! ## Entries -/

/-- The entries of the array are the values of the function at the numbers below `n`. -/
def Lists (n : Nat) (entries : Array α) (f : Nat → α) : Prop := ∀ v < n, entries[v]? = some (f v)

theorem lists_replicate (n : Nat) (a : α) : Lists n (Array.replicate n a) fun _ => a := by
  intro v hv
  simp [hv]

/-- An entry that is listed can be changed. -/
theorem Lists.put {entries : Array α} {f : Nat → α} (h : Lists n entries f) (hx : x < n) (a : α) :
    ∃ entries', put? entries x a = some entries' ∧ Lists n entries' (setAt f x a) := by
  obtain ⟨hsize, -⟩ := Array.getElem?_eq_some_iff.1 (h x hx)
  refine ⟨entries.set x a, dif_pos hsize, fun v hv => ?_⟩
  rw [Array.getElem?_set]
  by_cases hvx : v = x
  · subst hvx
    rw [if_pos rfl, setAt_self]
  · rw [if_neg fun he => hvx he.symm, h v hv, setAt_of_ne hvx]

theorem successors_getElem? (hnode : node < g.size) :
    g.successors[node]? = some (g.after node) := by
  rw [after, Array.getD_eq_getD_getElem?, Array.getElem?_eq_getElem hnode]
  rfl

/-- To put a number on a list is to mark it. -/
theorem contains_cons (x : Nat) (l : List Nat) :
    (x :: l).contains = setAt l.contains x true := by
  funext v
  by_cases hvx : v = x
  · rw [hvx, setAt_self, List.contains_cons, beq_self_eq_true, Bool.true_or]
  · rw [setAt_of_ne hvx, List.contains_cons, beq_false_of_ne hvx, Bool.false_or]

/-- To take a number off a list on which it stands once is to take its mark away. -/
theorem setAt_contains_cons {l : List Nat} (hx : x ∉ l) :
    setAt (x :: l).contains x false = l.contains := by
  funext v
  by_cases hvx : v = x
  · rw [hvx, setAt_self]
    exact (Bool.eq_false_iff.2 fun hc => hx (List.contains_iff_mem.1 hc)).symm
  · rw [setAt_of_ne hvx, List.contains_cons, beq_false_of_ne hvx, Bool.false_or]

/-! ## What the tables show -/

/-- The frame of a walk for a frame of the tables. -/
def unread (g : Graph) (f : Nat × Nat) : Nat × List Nat := (f.1, (g.after f.1).drop f.2)

/-- The tables stand where the walk stands. -/
structure Shows (g : Graph) (t : Tables) (w : Walk) : Prop where
  index : Lists g.size t.index w.index
  low : Lists g.size t.low w.low
  onStack : Lists g.size t.onStack w.stack.contains
  next_eq : t.next = w.next
  stack_eq : t.stack = w.stack
  frames_eq : t.frames.map (unread g) = w.frames
  components_eq : t.components = w.components

namespace Shows

theorem withFrames (h : Shows g t w) (frames : List (Nat × Nat)) :
    Shows g { t with frames } { w with frames := frames.map (unread g) } where
  index := h.index
  low := h.low
  onStack := h.onStack
  next_eq := h.next_eq
  stack_eq := h.stack_eq
  frames_eq := rfl
  components_eq := h.components_eq

theorem start (g : Graph) : Shows g (Tables.start g) Walk.start where
  index := lists_replicate _ _
  low := lists_replicate _ _
  onStack := lists_replicate _ _
  next_eq := rfl
  stack_eq := rfl
  frames_eq := rfl
  components_eq := rfl

theorem frames_eq_nil_iff (h : Shows g t w) : t.frames = [] ↔ w.frames = [] := by
  rw [← h.frames_eq, List.map_eq_nil_iff]

theorem openNode (h : Shows g t w) (hx : x < g.size) :
    ∃ t', t.openNode? x = some t' ∧ Shows g t' (w.openNode g x) := by
  obtain ⟨index, hindex, hindex'⟩ := h.index.put hx (some t.next)
  obtain ⟨low, hlow, hlow'⟩ := h.low.put hx t.next
  obtain ⟨onStack, honStack, honStack'⟩ := h.onStack.put hx true
  rw [h.next_eq] at hindex' hlow'
  rw [← contains_cons] at honStack'
  refine ⟨{ t with index, low, onStack, next := t.next + 1, stack := x :: t.stack,
                   frames := (x, 0) :: t.frames }, ?_, ?_⟩
  · rw [Tables.openNode?, hindex, hlow, honStack]
    rfl
  · exact
      { index := hindex'
        low := hlow'
        onStack := honStack'
        next_eq := congrArg (· + 1) h.next_eq
        stack_eq := congrArg (x :: ·) h.stack_eq
        frames_eq := congrArg ((x, g.after x) :: ·) h.frames_eq
        components_eq := h.components_eq }

theorem sink (h : Shows g t w) (hnode : node < g.size) (number : Nat) :
    ∃ t', t.sink? node number = some t' ∧ Shows g t' (w.sink node number) := by
  obtain ⟨low, hlow, hlow'⟩ := h.low.put hnode (min (w.low node) number)
  refine ⟨{ t with low }, ?_, ?_⟩
  · rw [Tables.sink?, h.low node hnode]
    show (put? t.low node (min (w.low node) number) >>= fun low => _) = _
    rw [hlow]
    rfl
  · exact
      { index := h.index
        low := hlow'
        onStack := h.onStack
        next_eq := h.next_eq
        stack_eq := h.stack_eq
        frames_eq := h.frames_eq
        components_eq := h.components_eq }

end Shows

/-- The nodes above the given one are taken off with it, and keep no mark. -/
theorem popTo?_eq (hlt : ∀ v ∈ above ++ node :: below, v < n)
    (hnodup : (above ++ node :: below).Nodup) {onStack : Array Bool}
    (h : Lists n onStack (above ++ node :: below).contains) :
    ∃ onStack', Tables.popTo? node (above ++ node :: below) onStack =
        some (above ++ [node], below, onStack') ∧ Lists n onStack' below.contains := by
  induction above generalizing onStack with
  | nil =>
    obtain ⟨onStack', hput, hlists⟩ := h.put (hlt node List.mem_cons_self) false
    rw [List.nil_append, setAt_contains_cons (List.nodup_cons.1 hnodup).1] at hlists
    refine ⟨onStack', ?_, hlists⟩
    rw [List.nil_append, Tables.popTo?, hput]
    show (if node = node then _ else _) = _
    rw [if_pos rfl]
    rfl
  | cons member above ih =>
    obtain ⟨onStack', hput, hlists⟩ := h.put (hlt member List.mem_cons_self) false
    rw [List.cons_append] at hnodup hlists
    -- The member does not stand below itself once more, so that its mark may go.
    obtain ⟨hout, hnodup⟩ := List.nodup_cons.1 hnodup
    rw [setAt_contains_cons hout] at hlists
    obtain ⟨left, hpop, hleft⟩ :=
      ih (fun v hv => hlt v (List.mem_cons_of_mem member hv)) hnodup hlists
    have hne : member ≠ node := fun heq => hout (heq ▸ by simp)
    refine ⟨left, ?_, hleft⟩
    rw [List.cons_append, Tables.popTo?, hput]
    show (if member = node then _ else _) = _
    rw [if_neg hne, hpop]
    rfl

namespace Shows

theorem complete (h : Shows g t w) (hstack : w.stack = above ++ node :: below)
    (hlt : ∀ v ∈ w.stack, v < g.size) (hnodup : w.stack.Nodup) :
    ∃ t', t.complete? node = some t' ∧ Shows g t' (w.complete node) := by
  rw [hstack] at hlt hnodup
  obtain ⟨onStack, hpop, honStack⟩ := popTo?_eq hlt hnodup (hstack ▸ h.onStack)
  have hout : node ∉ above := by
    intro hmem
    exact (List.disjoint_of_nodup_append hnodup) hmem List.mem_cons_self
  refine ⟨{ t with stack := below, onStack, components := t.components ++ [above ++ [node]] },
    ?_, ?_⟩
  · rw [Tables.complete?, h.stack_eq, hstack, hpop]
    rfl
  · rw [complete_eq hstack hout]
    exact
      { index := h.index
        low := h.low
        onStack := honStack
        next_eq := h.next_eq
        stack_eq := rfl
        frames_eq := h.frames_eq
        components_eq := congrArg (· ++ [above ++ [node]]) h.components_eq }

end Shows

/-! ## Moves -/

/-- The first half of leaving a node: the low number of the frame around sinks. -/
def Walk.sinkAround (w : Walk) (node : Nat) : Walk :=
  match w.frames with
  | (parent, _) :: _ => w.sink parent (w.low node)
  | [] => w

theorem Walk.close_eq (w : Walk) (node : Nat) (around : List (Nat × List Nat)) :
    w.close node around =
      let v := Walk.sinkAround { w with frames := around } node
      if v.index node = some (v.low node) then v.complete node else v := by
  cases around <;> rfl

theorem Walk.stack_sinkAround (w : Walk) (node : Nat) : (w.sinkAround node).stack = w.stack := by
  rw [Walk.sinkAround]
  split <;> rfl

namespace Shows

theorem sinkAround (h : Shows g t w) (hlt : ∀ f ∈ w.frames, f.1 < g.size) (hnode : node < g.size) :
    ∃ t', t.sinkAround? node = some t' ∧ Shows g t' (w.sinkAround node) := by
  have hframes := h.frames_eq
  cases hf : t.frames with
  | nil =>
    rw [hf, List.map_nil] at hframes
    rw [Tables.sinkAround?, Walk.sinkAround, hf, ← hframes]
    exact ⟨t, rfl, h⟩
  | cons f around =>
    obtain ⟨parent, cursor⟩ := f
    rw [hf, List.map_cons] at hframes
    rw [Tables.sinkAround?, Walk.sinkAround, hf, ← hframes, h.low node hnode]
    exact h.sink (hlt _ (hframes ▸ List.mem_cons_self)) (w.low node)

/-- Leaving a node shows the closing of it. -/
theorem close (h : Shows g t w) (hinv : Inv g w) {around : List (Nat × Nat)}
    (hf : w.frames = (node, []) :: around.map (unread g)) :
    ∃ t', t.close? node around = some t' ∧
      Shows g t' (w.close node (around.map (unread g))) := by
  obtain ⟨above, below, hstack, -⟩ := (hinv.nested_of_frames hf).cons_inv
  have hlt := hinv.lt_size_of_mem_frames
  rw [hf] at hlt
  have hnode : node < g.size := hlt _ List.mem_cons_self
  obtain ⟨t', hsink, h'⟩ := (h.withFrames around).sinkAround
    (fun f hf => hlt f (List.mem_cons_of_mem _ hf)) hnode
  -- Both go on from the same place, at which the node is looked up once more.
  have hstack' := Walk.stack_sinkAround { w with frames := around.map (unread g) } node
  rw [Walk.close_eq]
  generalize Walk.sinkAround _ node = v at h' hstack' ⊢
  have hrun : t.close? node around =
      if v.index node = some (v.low node) then t'.complete? node else some t' := by
    simp only [Tables.close?, hsink, Option.bind_eq_bind, Option.bind_some, h'.index node hnode,
      h'.low node hnode]
    rfl
  rw [hrun]
  dsimp only
  by_cases hfirst : v.index node = some (v.low node)
  · rw [if_pos hfirst, if_pos hfirst]
    refine h'.complete (hstack'.trans hstack) ?_ ?_
    · rw [hstack']
      exact hinv.lt_size_of_mem_stack
    · rw [hstack']
      exact hinv.descending.nodup
  · rw [if_neg hfirst, if_neg hfirst]
    exact ⟨t', rfl, h'⟩

/-- The innermost frame of the walk is on the tables, with a cursor in place of the edges left. -/
theorem frames_cons (h : Shows g t w) (hf : w.frames = (node, edges) :: around) :
    ∃ cursor others, t.frames = (node, cursor) :: others ∧ (g.after node).drop cursor = edges ∧
      others.map (unread g) = around := by
  obtain ⟨f, others, hframes, hunread, hothers⟩ := List.map_eq_cons_iff.1 (h.frames_eq.trans hf)
  obtain ⟨rfl, hedges⟩ := Prod.mk.inj hunread
  exact ⟨f.2, others, hframes, hedges, hothers⟩

/-- A move at a node with an edge left looks at that edge. -/
theorem move?_look (h : Shows g t w) (hf : w.frames = (node, x :: rest) :: around)
    (hnode : node < g.size) :
    ∃ s, t.move? g = s.look? node x ∧ Shows g s { w with frames := (node, rest) :: around } := by
  obtain ⟨cursor, others, hframes, hedges, rfl⟩ := h.frames_cons hf
  have hnext : (g.after node)[cursor]? = some x := by
    rw [← List.head?_drop, hedges, List.head?_cons]
  have hrest : (g.after node).drop (cursor + 1) = rest := by
    rw [← List.tail_drop, hedges, List.tail_cons]
  refine ⟨{ t with frames := (node, cursor + 1) :: others }, ?_, ?_⟩
  · simp only [Tables.move?, hframes, successors_getElem? hnode, Option.bind_eq_bind,
      Option.bind_some, hnext]
  · subst hrest
    exact h.withFrames ((node, cursor + 1) :: others)

/-- An edge to an opened node lets the low number sink if it leads back to the stack. -/
theorem look?_of_isOpened (h : Shows g t w) (hx : x < g.size) (hopen : w.IsOpened x) :
    t.look? node x = if x ∈ w.stack then t.sink? node (w.number x) else some t := by
  simp only [Tables.look?, h.index x hx, index_eq_number hopen, h.onStack x hx,
    Option.bind_eq_bind, Option.bind_some, List.contains_iff_mem]
  rfl

/-- Every move of the walk is shown by a move of the tables. -/
theorem moved (hg : g.IsClosed) (hinv : Inv g w) (h : Shows g t w) (hmoved : Moved g w w') :
    ∃ t', t.move? g = some t' ∧ Shows g t' w' := by
  have hlt := hinv.lt_size_of_mem_frames
  cases hmoved with
  | stay hf =>
    exact ⟨t, by rw [Tables.move?, h.frames_eq_nil_iff.2 hf], h⟩
  | @close node around hf =>
    have hnode : node < g.size := hlt _ (hf ▸ List.mem_cons_self)
    obtain ⟨cursor, others, hframes, hedges, rfl⟩ := h.frames_cons hf
    have hnext : (g.after node)[cursor]? = none := by
      rw [← List.head?_drop, hedges, List.head?_nil]
    have hrun : t.move? g = t.close? node others := by
      simp only [Tables.move?, hframes, successors_getElem? hnode, Option.bind_eq_bind,
        Option.bind_some, hnext]
    rw [hrun]
    exact h.close hinv hf
  | @enter node x rest around hf hx =>
    obtain ⟨s, hrun, hs⟩ := h.move?_look hf (hlt _ (hf ▸ List.mem_cons_self))
    have hxlt : x < g.size := hg node x (hinv.edge_of_frames hf)
    have hindex : w.index x = none := Option.not_isSome_iff_eq_none.1 hx
    have hlook : s.look? node x = s.openNode? x := by
      simp only [Tables.look?, hs.index x hxlt, hindex, Option.bind_eq_bind, Option.bind_some]
    rw [hrun, hlook]
    exact hs.openNode hxlt
  | @lookBack node x rest around hf hmem hx =>
    have hnode : node < g.size := hlt _ (hf ▸ List.mem_cons_self)
    obtain ⟨s, hrun, hs⟩ := h.move?_look hf hnode
    rw [hrun, hs.look?_of_isOpened (hinv.lt_size x hx) hx, if_pos hmem]
    exact hs.sink hnode (w.number x)
  | @lookDone node x rest around hf hout hx =>
    obtain ⟨s, hrun, hs⟩ := h.move?_look hf (hlt _ (hf ▸ List.mem_cons_self))
    rw [hrun, hs.look?_of_isOpened (hinv.lt_size x hx) hx, if_neg hout]
    exact ⟨s, rfl, hs⟩

/-! ## Runs -/

/-- Where the walk rests, neither loop moves. -/
theorem finish_of_frames_nil (h : Shows g t w) (hf : w.frames = []) (moves k : Nat) :
    Tables.finish? g moves t = some t ∧ Walk.finish g k w = w := by
  have hframes : t.frames.isEmpty = true := List.isEmpty_iff.2 (h.frames_eq_nil_iff.2 hf)
  refine ⟨?_, ?_⟩
  · cases moves <;> exact if_pos hframes
  · cases k with
    | zero => rfl
    | succ k => exact if_pos (List.isEmpty_iff.2 hf)

/-- Both loops end at the same place if both have as many moves as there is work. -/
theorem finish (hg : g.IsClosed) : ∀ (moves k : Nat) (t : Tables) (w : Walk), Inv g w →
    work g w ≤ moves → work g w ≤ k → Shows g t w →
      ∃ t', Tables.finish? g moves t = some t' ∧ Shows g t' (Walk.finish g k w) := by
  intro moves
  induction moves with
  | zero =>
    intro k t w hinv hwork _ h
    obtain ⟨hrun, hstay⟩ := h.finish_of_frames_nil (finish_spec hg 0 w hinv hwork).2.1 0 k
    rw [hstay]
    exact ⟨t, hrun, h⟩
  | succ moves ih =>
    intro k t w hinv hmoves hk h
    by_cases hf : w.frames = []
    · obtain ⟨hrun, hstay⟩ := h.finish_of_frames_nil hf (moves + 1) k
      rw [hstay]
      exact ⟨t, hrun, h⟩
    · have hmoved := moved_move g w
      have hdone := work_moved hg hinv hf hmoved
      obtain ⟨s, hmove, hs⟩ := h.moved hg hinv hmoved
      have hframes : ¬ t.frames.isEmpty = true :=
        fun he => hf (h.frames_eq_nil_iff.1 (List.isEmpty_iff.1 he))
      have hrun : Tables.finish? g (moves + 1) t = Tables.finish? g moves s := by
        rw [Tables.finish?, if_neg hframes, hmove]
        rfl
      obtain ⟨k, rfl⟩ : ∃ l, k = l + 1 := ⟨k - 1, by omega⟩
      rw [hrun, Walk.finish, if_neg fun he => hf (List.isEmpty_iff.1 he)]
      exact ih k s (w.move g) (hinv.moved hg hmoved) (by omega) (by omega) hs

variable {moves : Nat}

theorem walkFrom (hg : g.IsClosed) (hmoves : g.size + g.edgeCount ≤ moves) (hrest : Resting g w)
    (h : Shows g t w) (hx : x < g.size) :
    ∃ t', t.walkFrom? g moves x = some t' ∧ Shows g t' (Walk.walkFrom g w x) := by
  rw [Tables.walkFrom?, Walk.walkFrom, h.index x hx]
  cases hindex : w.index x with
  | some n => exact ⟨t, rfl, h⟩
  | none =>
    obtain ⟨hinv, hwork⟩ := hrest.openNode (not_isOpened_of_index hindex) hx
    obtain ⟨s, hopened, hs⟩ := h.openNode hx
    obtain ⟨t', hfinish, ht'⟩ := hs.finish hg moves _ s _ hinv (hwork.trans hmoves) hwork
    have hrun : (t.openNode? x >>= Tables.finish? g moves) = some t' := by
      rw [hopened]
      exact hfinish
    exact ⟨t', hrun, ht'⟩

theorem foldl_walkFrom (hg : g.IsClosed) (hmoves : g.size + g.edgeCount ≤ moves) :
    ∀ (roots : List Nat) (t : Tables) (w : Walk), Shows g t w → Resting g w →
      (∀ r ∈ roots, r < g.size) →
      ∃ t', roots.foldlM (Tables.walkFrom? g moves) t = some t' ∧
        Shows g t' (roots.foldl (Walk.walkFrom g) w) := by
  intro roots
  induction roots with
  | nil => exact fun t w h _ _ => ⟨t, rfl, h⟩
  | cons root roots ih =>
    intro t w h hrest hlt
    have hroot := hlt root List.mem_cons_self
    obtain ⟨s, hrun, hs⟩ := h.walkFrom hg hmoves hrest hroot
    obtain ⟨hrest', -, -⟩ := walkFrom_spec hg hrest hroot
    obtain ⟨t', hruns, ht'⟩ :=
      ih s _ hs hrest' fun r hr => hlt r (List.mem_cons_of_mem root hr)
    refine ⟨t', ?_, ht'⟩
    rw [List.foldlM_cons, hrun]
    exact hruns

end Shows

/-! ## The components -/

theorem components?_eq (hg : g.IsClosed) {moves : Nat} (hmoves : g.size + g.edgeCount ≤ moves) :
    Tables.components? g moves = some g.components := by
  have hrange : ∀ r ∈ List.range g.size, r < g.size := fun r hr => List.mem_range.1 hr
  obtain ⟨t, hrun, ht⟩ := Shows.foldl_walkFrom hg hmoves (List.range g.size) _ _ (Shows.start g)
    ⟨inv_start g, rfl⟩ hrange
  rw [Tables.components?, hrun]
  exact congrArg some ht.components_eq

/-- On a graph whose edges end at its nodes the walk on tables ends, within a move for each node and
each edge, and no access fails.  It finds what the walk finds, and these are the strongly connected
components, each before those from which it can be reached. -/
theorem tables_list_components (hg : g.IsClosed) :
    (∀ moves, g.size + g.edgeCount ≤ moves →
      Tables.components? g moves = some g.components) ∧ g.AreComponents g.components :=
  ⟨fun _ hmoves => components?_eq hg hmoves, areComponents_components hg⟩

/-- An edge that is there twice, edges from nodes to themselves, a circle, and two nodes that stand
apart from the others. -/
def junction : Graph := ⟨#[[1, 1], [0, 2], [2], [], [3, 4]]⟩

theorem junction_components : junction.IsClosed ∧ junction.size + junction.edgeCount ≤ 12 ∧
    Tables.components? junction 12 = some [[2], [1, 0], [3], [4]] ∧
      junction.AreComponents [[2], [1, 0], [3], [4]] := by
  have hclosed : junction.IsClosed := isClosed_iff.2 (by decide)
  have hmoves : junction.size + junction.edgeCount ≤ 12 := by decide
  have hcomponents : junction.components = [[2], [1, 0], [3], [4]] := by decide
  obtain ⟨hrun, hare⟩ := tables_list_components hclosed
  have hlist := hrun 12 hmoves
  rw [hcomponents] at hlist hare
  exact ⟨hclosed, hmoves, hlist, hare⟩

/-- An edge that ends outside of the graph leads to an entry that is not there. -/
example : Tables.components? ⟨#[[1]]⟩ 2 = none := by decide

end Graph
end Wardrobe
