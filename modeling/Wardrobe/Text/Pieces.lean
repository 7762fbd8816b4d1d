import Wardrobe.Text.Basic
/-
What a text is cut into: its lines, and the pieces between separators without the white space
around them.

White space is the Unicode property `White_Space`, which has more members than the ASCII blanks:
the no-break space, the line and paragraph separators and the ideographic space are in it, while
the zero-width space and the byte order mark are not.
-/

namespace Wardrobe
namespace Text

/-! ## White space -/

def blankRanges : List (Nat × Nat) :=
  [(0x9, 0xD), (0x20, 0x20), (0x85, 0x85), (0xA0, 0xA0), (0x1680, 0x1680), (0x2000, 0x200A),
   (0x2028, 0x2029), (0x202F, 0x202F), (0x205F, 0x205F), (0x3000, 0x3000)]

def isBlank (c : Char) : Bool := inRanges blankRanges c

def trimStart (t : Text) : Text := t.dropWhile isBlank

def trimEnd (t : Text) : Text := (t.reverse.dropWhile isBlank).reverse

def trim (t : Text) : Text := trimEnd (trimStart t)

/-- The trimmed pieces between separators, without the empty ones.  Lists in both rule formats
are read this way, so doubled and trailing separators are harmless. -/
def pieces (sep : Char) (t : Text) : List Text :=
  ((t.splitOn sep).map trim).filter fun piece => !piece.isEmpty

/-! ## Lines

A newline ends a line and a carriage return just before it belongs to the ending.  A final
newline opens no further line, and a carriage return that no newline follows stays in its line. -/

def dropReturn (line : Text) : Text :=
  if line.getLast? = some '\r' then line.dropLast else line

/-- The lines whose text lies between newlines: all but the last piece were ended by one. -/
def linesOfPieces : List Text → List Text
  | [] => []
  | [last] => if last.isEmpty then [] else [last]
  | line :: rest => dropReturn line :: linesOfPieces rest

def lines (t : Text) : List Text := linesOfPieces (t.splitOn '\n')

end Text
end Wardrobe
