import Wardrobe.Text.Basic
/-
Text from the bytes of a rule file.

A byte order mark is dropped.  Bytes that are not UTF-8 throughout are read as windows-1252,
which gives every byte a character, so a file always has a text.  A mark at the front of such bytes
speaks against windows-1252, and they are read as the mark says.  What spells no character there is
replaced by one that says so: in UTF-8 every longest beginning of a character that is not completed
gets one replacement, and in UTF-16 every surrogate without its partner does.
-/

namespace Wardrobe
namespace Text

/-! ## Surrogates: codes of sixteen bits that make a character only in pairs -/

/-- The code opens a pair. -/
def isHighSurrogate (n : Nat) : Bool := 0xD800 ≤ n && n < 0xDC00

/-- The code closes a pair. -/
def isLowSurrogate (n : Nat) : Bool := 0xDC00 ≤ n && n < 0xE000

/-- The character of a pair: ten bits from each of the two codes, above the codes that need no
pair. -/
def ofSurrogates (high low : Nat) : Char :=
  Char.ofNat (0x10000 + (high - 0xD800) * 0x400 + (low - 0xDC00))

/-! ## UTF-8 -/

def replacement : Char := '\uFFFD'

/-- A character of which some bytes have been read: how many are missing, the range that the next
one has to lie in, and the bits so far. -/
structure OpenChar where
  missing : Nat
  low : Nat
  high : Nat
  bits : Nat
  deriving DecidableEq, Repr

/-- The character that a byte opens, if it opens one of several bytes.  The ranges leave out codes
that fewer bytes can spell, surrogates, and codes beyond the last character. -/
def openChar? (b : Nat) : Option OpenChar :=
  if 0xC2 ≤ b ∧ b ≤ 0xDF then some ⟨1, 0x80, 0xBF, b - 0xC0⟩
  else if b = 0xE0 then some ⟨2, 0xA0, 0xBF, 0⟩
  else if b = 0xED then some ⟨2, 0x80, 0x9F, 0xD⟩
  else if 0xE1 ≤ b ∧ b ≤ 0xEF then some ⟨2, 0x80, 0xBF, b - 0xE0⟩
  else if b = 0xF0 then some ⟨3, 0x90, 0xBF, 0⟩
  else if b = 0xF4 then some ⟨3, 0x80, 0x8F, 4⟩
  else if 0xF1 ≤ b ∧ b ≤ 0xF3 then some ⟨3, 0x80, 0xBF, b - 0xF0⟩
  else none

/-- What a byte comes to where a character begins: characters that are complete, and one that is
open. -/
def firstByte (b : Nat) : Text × Option OpenChar :=
  if b < 0x80 then ([Char.ofNat b], none)
  else
    match openChar? b with
    | some o => ([], some o)
    | none => ([replacement], none)

/-- What the next byte of an open character comes to. -/
def nextByte (o : OpenChar) (b : Nat) : Text × Option OpenChar :=
  if o.low ≤ b ∧ b ≤ o.high then
    let bits := o.bits * 0x40 + (b - 0x80)
    if o.missing = 1 then ([Char.ofNat bits], none)
    else ([], some ⟨o.missing - 1, 0x80, 0xBF, bits⟩)
  else
    let (t, o) := firstByte b
    (replacement :: t, o)

/-- The text of the bytes, where a character may be open. -/
def utf8From : Option OpenChar → List UInt8 → Text
  | none, [] => []
  | some _, [] => [replacement]
  | none, b :: rest =>
    let (t, o) := firstByte b.toNat
    t ++ utf8From o rest
  | some o, b :: rest =>
    let (t, o) := nextByte o b.toNat
    t ++ utf8From o rest

def ofUtf8Lossy (bytes : List UInt8) : Text := utf8From none bytes

/-! ## UTF-16 -/

inductive ByteOrder where
  | little
  | big
  deriving DecidableEq, Repr

def ByteOrder.code (order : ByteOrder) (first second : UInt8) : Nat :=
  match order with
  | little => second.toNat * 0x100 + first.toNat
  | big => first.toNat * 0x100 + second.toNat

/-- The codes of the bytes, and whether one byte is left over at the end. -/
def codes (order : ByteOrder) : List UInt8 → List Nat × Bool
  | [] => ([], false)
  | [_] => ([], true)
  | a :: b :: rest =>
    let (ns, odd) := codes order rest
    (order.code a b :: ns, odd)

/-- The characters of the codes.  A byte left over is replaced, together with a code just before
it that opens a pair. -/
def ofCodes (odd : Bool) : List Nat → Text
  | [] => if odd then [replacement] else []
  | [n] =>
    if isHighSurrogate n then [replacement]
    else (if isLowSurrogate n then replacement else Char.ofNat n) ::
      (if odd then [replacement] else [])
  | n :: m :: rest =>
    if isHighSurrogate n then
      if isLowSurrogate m then ofSurrogates n m :: ofCodes odd rest
      else replacement :: ofCodes odd (m :: rest)
    else (if isLowSurrogate n then replacement else Char.ofNat n) :: ofCodes odd (m :: rest)

def ofUtf16Lossy (order : ByteOrder) (bytes : List UInt8) : Text :=
  let (ns, odd) := codes order bytes
  ofCodes odd ns

/-! ## Rule files -/

/-- How the bytes were taken: `windows1252` covers all that is not UTF-8 throughout. -/
inductive Encoding where
  | utf8
  | windows1252
  deriving DecidableEq, Repr

/-- A file's text, with what was found out about its bytes. -/
structure Decoded where
  text : Text
  hadMark : Bool
  encoding : Encoding
  deriving DecidableEq, Repr

/-- The characters of the bytes 0x80 to 0x9F in windows-1252.  Five of these bytes are
unassigned and stand for the control character of the same number. -/
def windows1252High : List Char :=
  ['€', '\x81', '‚', 'ƒ', '„', '…', '†', '‡', 'ˆ', '‰', 'Š', '‹', 'Œ', '\x8D', 'Ž', '\x8F',
   '\x90', '‘', '’', '“', '”', '•', '–', '—', '˜', '™', 'š', '›', 'œ', '\x9D', 'ž', 'Ÿ']

/-- The character of a byte in windows-1252: outside 0x80 to 0x9F the one of the same number. -/
def windows1252 (b : UInt8) : Char :=
  if 0x80 ≤ b.toNat ∧ b.toNat < 0xA0 then windows1252High.getD (b.toNat - 0x80) '\x81'
  else Char.ofNat b.toNat

def ofUtf8? (bytes : ByteArray) : Option Text := (String.fromUTF8? bytes).map String.toList

def byteOrderMark : List UInt8 := [0xEF, 0xBB, 0xBF]

def startsWithMark (bytes : ByteArray) : Bool := (bytes.extract 0 3).toList == byteOrderMark

def ofLegacy : List UInt8 → Text
  | 0xEF :: 0xBB :: 0xBF :: rest => ofUtf8Lossy rest
  | 0xFF :: 0xFE :: rest => ofUtf16Lossy .little rest
  | 0xFE :: 0xFF :: rest => ofUtf16Lossy .big rest
  | bytes => bytes.map windows1252

def decode (bytes : ByteArray) : Decoded :=
  let hadMark := startsWithMark bytes
  let content := if hadMark then bytes.extract 3 bytes.size else bytes
  match ofUtf8? content with
  | some text => ⟨text, hadMark, .utf8⟩
  | none => ⟨ofLegacy content.toList, hadMark, .windows1252⟩

end Text
end Wardrobe
