import Wardrobe.Rule.Basic
import Wardrobe.Rule.Fault
/-
What reading a line of a rule file comes to.
-/

namespace Wardrobe

/-- The sorts of line in a rule file.  A `keyValue` line is understood but has nothing to do with
outfits. -/
inductive LineKind where
  | blank
  | comment
  | sectionHeader
  | keyValue
  | rule
  | unparseable
  deriving DecidableEq, Repr

/-- What a line comes to.  Most rule lines hold one rule; a SkyPatcher line can set both slots. -/
inductive LineOutcome where
  | rules (rules : List Rule)
  | unparseable (fault : LineFault)
  | ignored (kind : LineKind)
  deriving DecidableEq, Repr

def LineOutcome.kind : LineOutcome → LineKind
  | rules _ => .rule
  | unparseable _ => .unparseable
  | ignored kind => kind

end Wardrobe
