import Wardrobe.Keyword.Plan
import Wardrobe.Match
/-
Replaying keyword rules to find the tags of every character.
-/

namespace Wardrobe

/-- How a pass ended. -/
inductive Ending where
  | completed
  | cancelled
  deriving DecidableEq, Repr

namespace Keyword

/-- What replaying came to.  A cancelled run keeps its plan and has no tags. -/
structure Replay where
  status : Ending
  plan : ReplayPlan
  tags : Tags

/-- Give the tag of a rule to everyone that its filters hold of.  The chance of the rule is not
thrown: a tag that can be given counts as given. -/
def replay (p : Population) (tags : Tags) (r : Rule) : Tags :=
  match r.target.tag? with
  | some tag => (p.matching tags r.filters).foldl (Tags.give · tag ·) tags
  | none => tags

/-- Replay the rules in the order of their plan.  The wish to cancel is noticed before the first
rule that is due. -/
def replayAll (p : Population) (rules : List Rule) (cancelled : Bool) : Replay :=
  let plan := ReplayPlan.ofRules rules
  if cancelled && !plan.order.isEmpty then ⟨.cancelled, plan, ⟨#[]⟩⟩
  else
    let rules := rules.toArray
    let due := plan.order.filterMap fun i => rules[i]?
    ⟨.completed, plan, due.foldl (replay p) (.none p.size)⟩

end Keyword
end Wardrobe
