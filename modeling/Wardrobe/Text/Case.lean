import Wardrobe.Text.CaseTable
/-
Letter case, of ASCII letters alone and by the full rules of the Unicode standard.

Keywords of the rule formats, plugin names and file suffixes are compared up to the case of ASCII
letters and of no others.  Editor ids and tags are compared by `Text.lower` instead.
-/

namespace Wardrobe
namespace Text

/-! ## ASCII letters

`Char.toLower` and `Char.toUpper` change ASCII letters only, which is what is wanted here. -/

def asciiLower (t : Text) : Text := t.map Char.toLower

def asciiUpper (t : Text) : Text := t.map Char.toUpper

def sameAscii (a b : Text) : Bool := asciiLower a == asciiLower b

/-- `ending` stands at the end of the text, up to the case of ASCII letters. -/
def endsWithAscii (ending t : Text) : Bool := (asciiLower ending).isSuffixOf (asciiLower t)

def isAsciiLetter (c : Char) : Bool := c.isAlpha

theorem sameAscii_iff {a b : Text} : sameAscii a b = true ↔ asciiLower a = asciiLower b := by
  simp [sameAscii]

theorem sameAscii_refl (a : Text) : sameAscii a a = true := by simp [sameAscii]

theorem sameAscii_comm (a b : Text) : sameAscii a b = sameAscii b a := by
  simp [sameAscii, Bool.beq_comm]

theorem sameAscii_trans {a b c : Text} (hab : sameAscii a b = true)
    (hbc : sameAscii b c = true) : sameAscii a c = true := by
  rw [sameAscii_iff] at *
  exact hab.trans hbc

/-! ## Lower case by the Unicode standard

Two letters need more than a table.  A capital dotted I becomes two characters, the small letter
and a dot above.  A capital sigma becomes the final form where a word ends: after a letter and
before no letter, with apostrophes, marks and other case-ignorable characters skipped on the way. -/

/-- Skipped when looking for the letters around a sigma. -/
def isCaseIgnorable (c : Char) : Bool :=
  if c.toNat < 0x80 then c = '\'' || c = '.' || c = ':' || c = '^' || c = (Char.ofNat 0x60)
  else inRanges caseIgnorableRanges c

/-- A letter that has case, asked only where `isCaseIgnorable` fails. -/
def isCased (c : Char) : Bool :=
  if c.toNat < 0x80 then c.isAlpha else inRanges casedRanges c

/-- The first character that is not skipped is a letter with case. -/
def nextIsCased (t : Text) : Bool :=
  match t.dropWhile isCaseIgnorable with
  | [] => false
  | c :: _ => isCased c

/-- The small letters of one character, a sigma taken in its ordinary form. -/
def lowerChar (c : Char) : Text :=
  if c.toNat < 0x80 then [c.toLower]
  else if c = 'İ' then ['i', Char.ofNat 0x307]
  else
    match caseRows.findSome? (·.small? c.toNat) with
    | some n => [Char.ofNat n]
    | none => [c]

/-- Lower case of the text that follows `before`, whose characters are listed last to first. -/
def lowerAfter (before : Text) : Text → Text
  | [] => []
  | c :: rest =>
    let small :=
      if c = 'Σ' then if nextIsCased before && !nextIsCased rest then ['ς'] else ['σ']
      else lowerChar c
    small ++ lowerAfter (c :: before) rest

/-- Lower case.  Names and tags are compared through it. -/
def lower (t : Text) : Text := lowerAfter [] t

end Text
end Wardrobe
