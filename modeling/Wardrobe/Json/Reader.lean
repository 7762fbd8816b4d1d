import Wardrobe.Form.Record
import Wardrobe.Text.Encoding
/-
Reading records out of JSON text.

A reader takes a value of a known shape off the front of the text, so faults are found in the
order in which they stand there.  Members that a record does not have are passed over, whatever
they hold.  A record may also be written as an array of its members in order, from which the
optional ones at the end may be missing.
-/

namespace Wardrobe
namespace Json

inductive ReadFault where
  | malformed
  | badFormKey (text : Text)
  deriving DecidableEq, Repr

/-- Takes a value off the front of the text and leaves the rest.  The number is the length of the
whole text, which bounds every loop. -/
abbrev Reader (α : Type) := ReaderT Nat (StateT Text (Except ReadFault)) α

def fail : Reader α := throw .malformed

def isSpace (c : Char) : Bool := c = ' ' || c = '\n' || c = '\t' || c = '\r'

def skipSpace (t : Text) : Text := t.dropWhile isSpace

/-- The next character after spacing, left in place. -/
def peek : Reader (Option Char) := modifyGet fun t =>
  let t := skipSpace t
  (t.head?, t)

def expect (c : Char) : Reader Unit := do
  match skipSpace (← get) with
  | d :: rest => if d = c then set rest else fail
  | [] => fail

def word (w : Text) : Reader Unit := do
  match w.isPrefixOf? (skipSpace (← get)) with
  | some rest => set rest
  | none => fail

/-! ## Strings -/

/-- A piece of a string: a character that stands for itself or a code of sixteen bits. -/
inductive Unit16 where
  | char (c : Char)
  | code (n : Nat)
  deriving DecidableEq, Repr

/-- The character after a backslash, for the escapes of a single letter. -/
def simpleEscape? : Char → Option Char
  | '"' => some '"'
  | '\\' => some '\\'
  | '/' => some '/'
  | 'b' => some '\x08'
  | 'f' => some '\x0c'
  | 'n' => some '\n'
  | 'r' => some '\r'
  | 't' => some '\t'
  | _ => none

/-- The pieces of a string up to the closing quote, and what follows the quote. -/
def stringUnits? : Text → Option (List Unit16 × Text)
  | [] => none
  | '"' :: rest => some ([], rest)
  | '\\' :: 'u' :: a :: b :: c :: d :: rest => do
    let n ← Text.digitsValue? 16 0 [a, b, c, d]
    let (units, rest) ← stringUnits? rest
    some (.code n :: units, rest)
  | '\\' :: e :: rest => do
    let c ← simpleEscape? e
    let (units, rest) ← stringUnits? rest
    some (.char c :: units, rest)
  | c :: rest =>
    if c.toNat < 0x20 || c = '\\' then none
    else do
      let (units, rest) ← stringUnits? rest
      some (.char c :: units, rest)

/-- The characters of the pieces.  Two surrogates make one character, and one alone makes none. -/
def joinUnits? : List Unit16 → Option Text
  | [] => some []
  | .char c :: rest => (joinUnits? rest).map (c :: ·)
  | .code n :: rest =>
    if Text.isHighSurrogate n then
      match rest with
      | .code m :: rest =>
        if Text.isLowSurrogate m then
          (joinUnits? rest).map (Text.ofSurrogates n m :: ·)
        else none
      | _ => none
    else if Text.isLowSurrogate n then none
    else (joinUnits? rest).map (Char.ofNat n :: ·)

def text : Reader Text := do
  expect '"'
  match stringUnits? (← get) with
  | some (units, rest) =>
    match joinUnits? units with
    | some t => set rest; return t
    | none => fail
  | none => fail

/-! ## Values passed over -/

def skipDigits? (t : Text) : Option Text :=
  match t with
  | c :: rest => if c.isDigit then some (rest.dropWhile Char.isDigit) else none
  | [] => none

def skipFraction? (t : Text) : Option Text := do
  let t ← match t with
    | '.' :: rest => skipDigits? rest
    | _ => some t
  match t with
  | c :: rest =>
    if c = 'e' ∨ c = 'E' then
      match rest with
      | '+' :: rest => skipDigits? rest
      | '-' :: rest => skipDigits? rest
      | _ => skipDigits? rest
    else some t
  | [] => some t

/-- A whole number without superfluous zeros, as its digits and what follows. -/
def wholeDigits? : Text → Option (Text × Text)
  | '0' :: rest => if rest.head?.any Char.isDigit then none else some (['0'], rest)
  | c :: rest =>
    if c.isDigit then some (c :: rest.takeWhile Char.isDigit, rest.dropWhile Char.isDigit)
    else none
  | [] => none

def skipNumber? (t : Text) : Option Text := do
  let t := match t with
    | '-' :: rest => rest
    | _ => t
  let (_, rest) ← wholeDigits? t
  skipFraction? rest

mutual

/-- Pass over one value.  Each step takes a character, so the length of a text bounds them. -/
def skipValue? : Nat → Text → Option Text
  | 0, _ => none
  | steps + 1, t =>
    match skipSpace t with
    | '"' :: rest => (stringUnits? rest).map (·.2)
    | '[' :: rest =>
      match skipSpace rest with
      | ']' :: rest => some rest
      | rest => skipItems? steps rest
    | '{' :: rest =>
      match skipSpace rest with
      | '}' :: rest => some rest
      | rest => skipMembers? steps rest
    | 't' :: 'r' :: 'u' :: 'e' :: rest => some rest
    | 'f' :: 'a' :: 'l' :: 's' :: 'e' :: rest => some rest
    | 'n' :: 'u' :: 'l' :: 'l' :: rest => some rest
    | rest => skipNumber? rest

def skipItems? : Nat → Text → Option Text
  | 0, _ => none
  | steps + 1, t =>
    match skipValue? steps t with
    | none => none
    | some rest =>
      match skipSpace rest with
      | ',' :: rest => skipItems? steps rest
      | ']' :: rest => some rest
      | _ => none

def skipMembers? : Nat → Text → Option Text
  | 0, _ => none
  | steps + 1, t =>
    match skipSpace t with
    | '"' :: rest =>
      match stringUnits? rest with
      | none => none
      | some (_, rest) =>
        match skipSpace rest with
        | ':' :: rest =>
          match skipValue? steps rest with
          | none => none
          | some rest =>
            match skipSpace rest with
            | ',' :: rest => skipMembers? steps rest
            | '}' :: rest => some rest
            | _ => none
        | _ => none
    | _ => none

end

def skipValue : Reader Unit := do
  match skipValue? ((← read) + 1) (← get) with
  | some rest => set rest
  | none => fail

/-! ## Single values -/

/-- Nothing for null, else what `r` reads. -/
def optional (r : Reader α) : Reader (Option α) := do
  match ← peek with
  | some 'n' => word "null"; return none
  | _ => return some (← r)

def boolean : Reader Bool := do
  match ← peek with
  | some 't' => word "true"; return true
  | _ => word "false"; return false

def wholeNumber : Reader Int := do
  let t ← get
  let (negative, digits) := match t with
    | '-' :: rest => (true, rest)
    | _ => (false, t)
  match wholeDigits? digits with
  | none => fail
  | some (digits, rest) =>
    let n := Nat.ofDigitChars 10 digits 0
    if rest.head?.any (fun c => c = '.' || c = 'e' || c = 'E') then fail
    else if negative && n == 0 then fail
    else
      set rest
      return if negative then -(n : Int) else n

def integer (low high : Int) : Reader Int := do
  let _ ← peek
  let n ← wholeNumber
  if low ≤ n ∧ n ≤ high then return n else fail

def uint8 : Reader UInt8 := return UInt8.ofNat (← integer 0 255).toNat

def uint16 : Reader UInt16 := return UInt16.ofNat (← integer 0 65535).toNat

def int8 : Reader Int8 := return Int8.ofInt (← integer (-128) 127)

def character : Reader Char := do
  match ← text with
  | [c] => return c
  | _ => fail

def formKey : Reader FormKey := do
  let t ← text
  match FormKey.read? t with
  | some key => return key
  | none => throw (.badFormKey t)

/-- One of several names, as a string or as the only member of an object that holds null. -/
def oneOf (names : List (Text × α)) : Reader α := do
  let choose (t : Text) : Reader α :=
    match names.lookup t with
    | some a => return a
    | none => fail
  match ← peek with
  | some '{' =>
    expect '{'
    let a ← choose (← text)
    expect ':'
    word "null"
    expect '}'
    return a
  | _ => choose (← text)

/-! ## Arrays, records and maps -/

def moreItems (item : Reader α) : Nat → Reader (List α)
  | 0 => fail
  | steps + 1 => do
    match ← peek with
    | some ',' =>
      expect ','
      let a ← item
      return a :: (← moreItems item steps)
    | _ => expect ']'; return []

def array (item : Reader α) : Reader (List α) := do
  expect '['
  match ← peek with
  | some ']' => expect ']'; return []
  | _ =>
    let a ← item
    return a :: (← moreItems item (← read))

/-- A member of a record: its name, whether it must be there, and how it is read into a record. -/
structure Member (σ : Type) where
  name : Text
  required : Bool
  read : σ → Reader σ

/-- A member that keeps its first value when it is missing. -/
def Member.mayHave (name : Text) (r : Reader α) (store : σ → α → σ) : Member σ :=
  ⟨name, false, fun s => return store s (← r)⟩

def Member.mustHave (name : Text) (r : Reader α) (store : σ → α → σ) : Member σ :=
  ⟨name, true, fun s => return store s (← r)⟩

/-- Members of an object up to the closing brace.  `seen` holds the names read so far: a name of
the record must not come twice. -/
def objectMembers (members : List (Member σ)) : Nat → List Text → σ → Reader σ
  | 0, _, _ => fail
  | steps + 1, seen, s => do
    let name ← text
    let known := members.find? (·.name == name)
    let s ← match known with
      | some m =>
        if seen.contains name then fail
        expect ':'
        m.read s
      | none => expect ':'; skipValue; pure s
    let seen := name :: seen
    match ← peek with
    | some ',' => expect ','; objectMembers members steps seen s
    | _ =>
      expect '}'
      if members.all fun m => !m.required || seen.contains m.name then return s else fail

/-- Members in an array, in their order.  Those left when the array ends must be optional. -/
def arrayMembers : Bool → List (Member σ) → σ → Reader σ
  | _, [], s => do expect ']'; return s
  | isFirst, m :: rest, s => do
    match ← peek with
    | some ']' =>
      if (m :: rest).any (·.required) then fail
      expect ']'
      return s
    | _ =>
      if !isFirst then expect ','
      arrayMembers false rest (← m.read s)

/-- A record.  `start` holds the values of the members that are missing. -/
def record (members : List (Member σ)) (start : σ) : Reader σ := do
  match ← peek with
  | some '[' => expect '['; arrayMembers true members start
  | _ =>
    expect '{'
    match ← peek with
    | some '}' =>
      if members.any (·.required) then fail
      expect '}'
      return start
    | _ => objectMembers members (← read) [] start

/-- A name that is a number from 0 to 255 between quotes, without escapes. -/
def numericName : Reader UInt8 := do
  expect '"'
  let n ← wholeNumber
  match ← get with
  | '"' :: rest =>
    set rest
    if 0 ≤ n ∧ n ≤ 255 then return UInt8.ofNat n.toNat else fail
  | _ => fail

/-- The entry of a key, replacing an earlier one, with the keys in ascending order. -/
def putEntry (k : UInt8) (v : α) : List (UInt8 × α) → List (UInt8 × α)
  | [] => [(k, v)]
  | (j, w) :: rest =>
    if k < j then (k, v) :: (j, w) :: rest
    else if k = j then (k, v) :: rest
    else (j, w) :: putEntry k v rest

def mapEntries (value : Reader α) : Nat → List (UInt8 × α) → Reader (List (UInt8 × α))
  | 0, _ => fail
  | steps + 1, entries => do
    let k ← numericName
    expect ':'
    let entries := putEntry k (← value) entries
    match ← peek with
    | some ',' => expect ','; mapEntries value steps entries
    | _ => expect '}'; return entries

/-- A map from small numbers, in which the last entry of a key counts. -/
def numericMap (value : Reader α) : Reader (List (UInt8 × α)) := do
  expect '{'
  match ← peek with
  | some '}' => expect '}'; return []
  | _ => mapEntries value (← read) []

/-- Read a whole text, of which nothing but spacing may be left. -/
def readAll (r : Reader α) (t : Text) : Except ReadFault α := do
  let (a, rest) ← (r.run t.length).run t
  if (skipSpace rest).isEmpty then return a else throw .malformed

end Json
end Wardrobe
