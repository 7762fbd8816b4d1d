import Wardrobe.Graph.Order
import Wardrobe.Rule.Basic
/-
The order in which keyword rules are replayed.

A rule depends on the rules that assign the tags it names.  Rules that depend on themselves, be it
through others, have no place in any order and are left out.
-/

namespace Wardrobe

/-- The tag that a rule assigns and the tags that its string filters name in full, all in lower
case.  They are worked out once for each rule. -/
structure TagUse where
  assigned : Option Text
  named : List Text

def Rule.tagUse (r : Rule) : TagUse := ⟨r.target.tag?, r.filters.tagsNamed⟩

/-- What `a` assigns, `b` names. -/
def TagUse.precedes (a b : TagUse) : Bool := a.assigned.any b.named.contains

/-- Positions in a list of rules: those to replay, in order, and those left out, ascending. -/
structure ReplayPlan where
  order : List Nat
  excluded : List Nat
  deriving DecidableEq, Repr

namespace ReplayPlan

def empty : ReplayPlan := ⟨[], []⟩

/-- The graph with an edge from each rule to those that depend on it. -/
def dependencies (rules : List Rule) : Graph :=
  let uses := (rules.map Rule.tagUse).toArray
  Graph.ofRelation uses.size fun a b =>
    match uses[a]?, uses[b]? with
    | some use, some later => use.precedes later
    | _, _ => false

/-- The plan for a list of rules.  Among the rules that can be next, the first of the list is. -/
def ofRules (rules : List Rule) : ReplayPlan :=
  let g := dependencies rules
  let excluded := g.circularNodes
  { order := g.topologicalOrder ((List.range g.size).filter fun i => !excluded.contains i)
    excluded }

end ReplayPlan
end Wardrobe
