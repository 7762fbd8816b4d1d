import Wardrobe.Text.Basic
/-
Criteria: alternatives of required values, with exclusions.

A criterion is a list of expressions of which one has to hold, and an expression is a list of parts
of which all have to hold.  A negated part is different: it excludes wherever it is written, so it
speaks for the whole criterion and not for its expression.
-/

namespace Wardrobe

/-- One value of a criterion.  A wildcard part asks for a value that occurs inside another. -/
structure Criterion.Part (α : Type) where
  value : α
  negated : Bool
  wildcard : Bool
  deriving DecidableEq, Repr

structure Criterion (α : Type) where
  expressions : List (List (Criterion.Part α))
  deriving DecidableEq, Repr

namespace Criterion

def empty : Criterion α := ⟨[]⟩

/-- The criterion of the given expressions, of which those without parts ask for nothing and are
left out. -/
def ofExpressions (expressions : List (List (Part α))) : Criterion α :=
  ⟨expressions.filter fun e => !e.isEmpty⟩

def allOf (parts : List (Part α)) : Criterion α := ofExpressions [parts]

def anyOf (parts : List (Part α)) : Criterion α := ofExpressions (parts.map fun p => [p])

def isEmpty (s : Criterion α) : Bool := s.expressions.isEmpty

def parts (s : Criterion α) : List (Part α) := s.expressions.flatten

def included (s : Criterion α) : List (Part α) := s.parts.filter fun p => !p.negated

def excluded (s : Criterion α) : List (Part α) := s.parts.filter fun p => p.negated

/-- Both criteria have to hold.  Each expression of the one is joined with each of the other, which
keeps the form of alternatives of requirements. -/
def and (s t : Criterion α) : Criterion α :=
  if s.isEmpty then t
  else if t.isEmpty then s
  else ⟨s.expressions.flatMap fun left => t.expressions.map fun right => left ++ right⟩

/-- What an expression asks to be there. -/
def inclusions (e : List (Part α)) : List (Part α) := e.filter fun p => !p.negated

/-- The criterion holds, where `present` says which values are there: no excluded value is, and all
the inclusions of some expression are, unless no expression includes anything. -/
def holds (s : Criterion α) (present : Part α → Bool) : Bool :=
  if s.excluded.any present then false
  else
    let asked := (s.expressions.map inclusions).filter fun e => !e.isEmpty
    asked.isEmpty || asked.any fun e => e.all present

end Criterion
end Wardrobe
