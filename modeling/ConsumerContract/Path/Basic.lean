import ConsumerContract.Text.Alphanumeric
import ConsumerContract.Text.Numeral

/-!
# Paths

A path says where in a document a rule applies: `$` is the document, and each segment after it goes
one step down, into a field, into the item at an index, into any item or into any value. A name that
holds more than letters, digits, `_` and `-` is written between brackets and quotes, so that a field
named `*` is never taken for "any value".

A key that is empty or all ASCII digits is *synthetic*: `Path.extend` adds no segment for it.
-/

namespace ConsumerContract

/-- One step down into a document. -/
inductive Segment where
  | field (name : String)
  | index (i : Nat)
  | anyItem
  | anyValue
  deriving DecidableEq, Repr

namespace Segment

/-- A character of names that stand without quotes. -/
def isPlainChar (c : Char) : Bool :=
  Text.isAlphanumeric c || c == '_' || c == '-'

/-- The name stands without quotes. -/
def isPlainName (name : String) : Bool :=
  !name.toList.isEmpty && name.toList.all isPlainChar

/-- A character between quotes. -/
def quotedChar (c : Char) : List Char :=
  if c = '\'' ∨ c = '\\' then ['\\', c] else [c]

/-- The segment in characters. -/
def chars : Segment → List Char
  | .field name =>
    if isPlainName name then '.' :: name.toList
    else '[' :: '\'' :: name.toList.flatMap quotedChar ++ ['\'', ']']
  | .index i => '[' :: Text.decimalDigits i ++ [']']
  | .anyItem => ['[', '*', ']']
  | .anyValue => ['.', '*']

/-- The segment as text. -/
def text (s : Segment) : String :=
  String.ofList s.chars

end Segment

namespace Path

/-- The path of the document. -/
def root : String :=
  "$"

/-- The path one segment below `parent`. -/
def append (parent : String) (s : Segment) : String :=
  parent ++ s.text

/-- The path of `segments` below `parent`. -/
def render (parent : String) (segments : List Segment) : String :=
  segments.foldl append parent

/-- The path of the field `key`. -/
def field (parent key : String) : String :=
  append parent (.field key)

/-- The path of the item at `i`. -/
def index (parent : String) (i : Nat) : String :=
  append parent (.index i)

/-- The path of every item. -/
def anyItem (parent : String) : String :=
  append parent .anyItem

/-- The path of every value. -/
def anyValue (parent : String) : String :=
  append parent .anyValue

/-- A key without a segment of its own. -/
def isSynthetic (key : String) : Bool :=
  key.toList.all Char.isDigit

/-- The path of the field `key`, or `parent` itself if the key is synthetic. -/
def extend (parent key : String) : String :=
  if isSynthetic key then parent else field parent key

end Path

end ConsumerContract
