import Wardrobe.Text.Number
/-
JSON values and their two printed forms.

The members of an object keep their order, so a report is printed with its fields in the order in
which it declares them.
-/

namespace Wardrobe

/-- A JSON value.  The only numbers in reports are whole. -/
inductive Json where
  | null
  | bool (b : Bool)
  | num (n : Int)
  | str (t : Text)
  | arr (items : List Json)
  | obj (members : List (Text × Json))

namespace Json

def nat (n : Nat) : Json := num n

def ofOption (f : α → Json) : Option α → Json
  | some a => f a
  | none => null

def list (f : α → Json) (items : List α) : Json := arr (items.map f)

def controlEscape (c : Char) : Text :=
  if c = '\n' then "\\n"
  else if c = '\r' then "\\r"
  else if c = '\t' then "\\t"
  else if c.toNat = 8 then "\\b"
  else if c.toNat = 12 then "\\f"
  else
    let digits := Nat.toDigits 16 c.toNat
    "\\u" ++ List.replicate (4 - digits.length) '0' ++ digits

def escapeChar (c : Char) : Text :=
  if c = '"' then "\\\""
  else if c = '\\' then "\\\\"
  else if c.toNat < 0x20 then controlEscape c
  else [c]

def quote (t : Text) : Text := '"' :: t.flatMap escapeChar ++ ['"']

def intText : Int → Text
  | .ofNat n => Text.decimal n
  | .negSucc n => '-' :: Text.decimal (n + 1)

mutual

def compact : Json → Text
  | null => "null"
  | bool true => "true"
  | bool false => "false"
  | num n => intText n
  | str t => quote t
  | arr items => '[' :: compactItems items ++ [']']
  | obj members => '{' :: compactMembers members ++ ['}']

def compactItems : List Json → Text
  | [] => []
  | [item] => compact item
  | item :: rest => compact item ++ ',' :: compactItems rest

def compactMembers : List (Text × Json) → Text
  | [] => []
  | [(name, value)] => quote name ++ ':' :: compact value
  | (name, value) :: rest => quote name ++ ':' :: compact value ++ ',' :: compactMembers rest

end

/-- The start of a line at the given depth: two spaces for each level. -/
def newLine (depth : Nat) : Text := '\n' :: List.replicate (2 * depth) ' '

mutual

/-- The value over several lines, nested values further in.  `depth` is that of the line on which
the value starts. -/
def pretty (depth : Nat) : Json → Text
  | null => "null"
  | bool true => "true"
  | bool false => "false"
  | num n => intText n
  | str t => quote t
  | arr [] => "[]"
  | arr items => '[' :: prettyItems (depth + 1) items ++ newLine depth ++ [']']
  | obj [] => ['{', '}']
  | obj members => '{' :: prettyMembers (depth + 1) members ++ newLine depth ++ ['}']

def prettyItems (depth : Nat) : List Json → Text
  | [] => []
  | [item] => newLine depth ++ pretty depth item
  | item :: rest => newLine depth ++ pretty depth item ++ ',' :: prettyItems depth rest

def prettyMembers (depth : Nat) : List (Text × Json) → Text
  | [] => []
  | [(name, value)] => newLine depth ++ quote name ++ ": " ++ pretty depth value
  | (name, value) :: rest =>
    newLine depth ++ quote name ++ ": " ++ pretty depth value ++ ',' :: prettyMembers depth rest

end

end Json
end Wardrobe
