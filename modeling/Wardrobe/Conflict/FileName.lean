import Wardrobe.Text.Case
/-
File names that are applied after others.

Files of one tier are applied in the order of their names, so a file can be made to win by a name
that sorts last.  The name is found by putting markers before it: as many as the longest row of
equal letters that begins one of the other names, and one more.
-/

namespace Wardrobe
namespace Text

/-! ## Text made fit to be a file name

Separators, wildcards and control characters are deleted, a name of dots alone becomes empty, and
what is left is cut to 255 bytes of UTF-8, the longest name that common file systems hold. -/

/-- The characters that a file name must not hold on some common system. -/
def reservedInNames : List Char := ['/', '?', '<', '>', '\\', ':', '*', '|', '"']

def isControl (c : Char) : Bool := c.toNat < 0x20 || (0x80 ≤ c.toNat && c.toNat < 0xA0)

def maxNameSize : Nat := 255

/-- A legal file name made of the text by deletions alone. -/
def fileNameSafe (t : Text) : Text :=
  let kept := t.filter fun c => !reservedInNames.contains c && !isControl c
  let kept := if kept.all (· = '.') then [] else kept
  takeUtf8 maxNameSize kept

end Text

namespace LoadName

/-! ## Names with markers -/

/-- The name comes after all others in load order. -/
def comesLast (name : Text) (others : List Text) : Bool :=
  let folded := Text.lower name
  others.all fun other => Text.compare folded (Text.lower other) == .gt

/-- How often the first character is repeated at the front. -/
def openingRow : Text → Nat
  | [] => 0
  | c :: rest => 1 + (rest.takeWhile (· = c)).length

def longestRow (names : List Text) : Nat := names.foldl (fun n name => max n (openingRow name)) 0

def withSuffix (suffix name : Text) : Text :=
  if Text.endsWithAscii suffix name then name else name ++ suffix

/-- The name without markers at its front, unless it consists of them. -/
def withoutMarkers (marker : Char) (name : Text) : Text :=
  let stem := name.dropWhile (· = marker)
  if stem.isEmpty then name else stem

def baseName (marker : Char) (suffix proposed : Text) : Text :=
  withSuffix suffix (Text.fileNameSafe (withoutMarkers marker proposed))

/-- How many more markers are tried than the longest row suggests. -/
def extraMarkers : Nat := 32

/-- The first name that sorts after all others, with the fewest markers. -/
def suggest (proposed : Text) (others : List Text) (marker : Char) (suffix : Text) :
    Option Text :=
  let base := baseName marker suffix proposed
  let candidates := (List.range (extraMarkers + 1)).map fun extra =>
    List.replicate (longestRow others + 1 + extra) marker ++ base
  candidates.find? fun name => comesLast name others

end LoadName
end Wardrobe
