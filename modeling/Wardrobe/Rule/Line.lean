import Wardrobe.SkyPatcher.Line
import Wardrobe.SkyPatcher.Printer
import Wardrobe.Spid.Printer
/-
Lines of a rule file, in either format.
-/

namespace Wardrobe

/-- The line without its comment.  A semicolon opens a comment anywhere, a number sign only at the
beginning. -/
def withoutComment (line : Text) : Text :=
  let t := Text.trimStart line
  if t.head? = some '#' then [] else t.takeWhile (· ≠ ';')

def isSectionHeader (t : Text) : Bool := t.head? = some '[' && t.getLast? = some ']'

def readRuleLine (c : Catalog) (dialect : Dialect) (lineNumber : Nat) (line : Text) :
    LineOutcome :=
  let t := Text.trim (withoutComment line)
  if t.isEmpty then
    if (Text.trim line).isEmpty then .ignored .blank else .ignored .comment
  else if isSectionHeader t then .ignored .sectionHeader
  else
    match dialect with
    | .spid => Spid.readLine c lineNumber t
    | .skyPatcher => SkyPatcher.readLine c lineNumber t

def Rule.render (r : Rule) : Dialect → Except SkyPatcher.Unrepresentable Text
  | .spid => .ok (Spid.render r)
  | .skyPatcher => SkyPatcher.render r

end Wardrobe
