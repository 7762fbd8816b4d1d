/-
Text as a list of characters, with the cuts and searches that the rule grammars are made of.
-/

namespace Wardrobe

/-- Text is a list of characters.  Every reader here takes characters off the front, so a list
makes each reader a structural recursion and each law about it an induction. -/
abbrev Text := List Char

/-- A literal stands where text is expected. -/
instance : Coe String Text := ⟨String.toList⟩

namespace Text

/-- The character's code lies in one of the closed ranges.  Character classes of the Unicode
standard are tables of such ranges. -/
def inRanges (ranges : List (Nat × Nat)) (c : Char) : Bool :=
  ranges.any fun r => r.1 ≤ c.toNat && c.toNat ≤ r.2

/-- The text before the first `sep` and the text after it. -/
def cutAt (sep : Char) : Text → Option (Text × Text)
  | [] => none
  | c :: rest =>
    if c = sep then some ([], rest)
    else (cutAt sep rest).map fun (before, after) => (c :: before, after)

/-- `part` stands somewhere in the text, as an unbroken run.  The empty part stands everywhere. -/
def occursIn (part : Text) : Text → Bool
  | [] => part.isEmpty
  | c :: rest => part.isPrefixOf (c :: rest) || occursIn part rest

def utf8Size (t : Text) : Nat := t.foldr (fun c size => c.utf8Size + size) 0

/-- The longest beginning that fits into `room` bytes of UTF-8 without splitting a character. -/
def takeUtf8 (room : Nat) : Text → Text
  | [] => []
  | c :: rest => if c.utf8Size ≤ room then c :: takeUtf8 (room - c.utf8Size) rest else []

def joined (sep : Text) (parts : List Text) : Text := sep.intercalate parts

/-- Order by code point, position by position.  It agrees with the order of the UTF-8 bytes,
because UTF-8 keeps the order of code points. -/
def compare : Text → Text → Ordering
  | [], [] => .eq
  | [], _ :: _ => .lt
  | _ :: _, [] => .gt
  | a :: s, b :: t => (Ord.compare a.toNat b.toNat).then (compare s t)

end Text
end Wardrobe
