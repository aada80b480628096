import ConsumerContract.Json.Basic
import ConsumerContract.Text.Quoted

/-!
# Writing JSON

Two layouts: `compact` without any blank, and `pretty` with every item and member on a line of its
own, indented by two spaces a level. In a string only the quote, the backslash and the controls below
the space are escaped, with the short escapes where there are any.
-/

namespace ConsumerContract.Json

/-- How a character stands in a string. -/
def stringChar (c : Char) : List Char :=
  if c = '"' then ['\\', '"']
  else if c = '\\' then ['\\', '\\']
  else if c = '\x08' then ['\\', 'b']
  else if c = '\x0c' then ['\\', 'f']
  else if c = '\n' then ['\\', 'n']
  else if c = '\r' then ['\\', 'r']
  else if c = '\t' then ['\\', 't']
  else if c.toNat < 0x20 then
    ['\\', 'u', '0', '0', Nat.digitChar (c.toNat / 16), Nat.digitChar (c.toNat % 16)]
  else [c]

/-- A string with its quotes. -/
def stringChars (s : String) : List Char :=
  '"' :: s.toList.flatMap stringChar ++ ['"']

/-- The characters of a truth value. -/
def boolChars (b : Bool) : List Char :=
  if b then ['t', 'r', 'u', 'e'] else ['f', 'a', 'l', 's', 'e']

mutual

/-- The value without blanks. -/
def chars : Json → List Char
  | .null => ['n', 'u', 'l', 'l']
  | .bool b => boolChars b
  | .num n => n.chars
  | .str s => stringChars s
  | .arr items => '[' :: charsItems items ++ [']']
  | .obj members => '\x7b' :: charsMembers members ++ ['\x7d']

/-- Items with commas between them. -/
def charsItems : List Json → List Char
  | [] => []
  | [v] => v.chars
  | v :: rest => v.chars ++ ',' :: charsItems rest

/-- Members with commas between them. -/
def charsMembers : List (String × Json) → List Char
  | [] => []
  | [(k, v)] => stringChars k ++ ':' :: v.chars
  | (k, v) :: rest => stringChars k ++ ':' :: (v.chars ++ ',' :: charsMembers rest)

end

/-- A new line at the given level. -/
def newLine (level : Nat) : List Char :=
  '\n' :: List.replicate (2 * level) ' '

mutual

/-- The value with one item or member a line; `level` is the level of the line it starts on. -/
def prettyChars (level : Nat) : Json → List Char
  | .arr [] => ['[', ']']
  | .arr items => '[' :: prettyItems (level + 1) items ++ newLine level ++ [']']
  | .obj [] => ['\x7b', '\x7d']
  | .obj members => '\x7b' :: prettyMembers (level + 1) members ++ newLine level ++ ['\x7d']
  | .null => ['n', 'u', 'l', 'l']
  | .bool b => boolChars b
  | .num n => n.chars
  | .str s => stringChars s

/-- Items, each on a line at `level`. -/
def prettyItems (level : Nat) : List Json → List Char
  | [] => []
  | [v] => newLine level ++ v.prettyChars level
  | v :: rest => newLine level ++ v.prettyChars level ++ ',' :: prettyItems level rest

/-- Members, each on a line at `level`. -/
def prettyMembers (level : Nat) : List (String × Json) → List Char
  | [] => []
  | [(k, v)] => newLine level ++ stringChars k ++ ':' :: ' ' :: v.prettyChars level
  | (k, v) :: rest =>
    newLine level ++ stringChars k ++ ':' :: ' ' :: (v.prettyChars level ++
      ',' :: prettyMembers level rest)

end

/-- The value as text without blanks. -/
def compact (v : Json) : String :=
  String.ofList v.chars

/-- The value as indented text. -/
def pretty (v : Json) : String :=
  String.ofList (v.prettyChars 0)

end ConsumerContract.Json
